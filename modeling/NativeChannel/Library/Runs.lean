import Mathlib.Data.List.Basic
import Mathlib.Order.Defs.PartialOrder

namespace Runs

variable {σ ε : Type*} {step : σ → ε → Option σ}

/-- The state after a list of events, when each of them was enabled in turn. -/
def run (step : σ → ε → Option σ) : σ → List ε → Option σ
  | s, [] => some s
  | s, e :: es => (step s e).bind fun t => run step t es

/-- Every step the run takes meets `C`, judged in the state before the step. -/
def AllSteps (step : σ → ε → Option σ) (C : σ → ε → Prop) : σ → List ε → Prop
  | _, [] => True
  | s, e :: es => C s e ∧ ∀ t, step s e = some t → AllSteps step C t es

/-- `Q` in every state the run passes. -/
def Along (step : σ → ε → Option σ) (Q : σ → Prop) (s : σ) (es : List ε) : Prop :=
  ∀ p, p <+: es → ∀ t, run step s p = some t → Q t

/-- `Q` in every state the run passes, and in every state that events of `Ext`
alone reach from there. -/
def Through (step : σ → ε → Option σ) (Ext : ε → Prop) (Q : σ → Prop) (s : σ)
    (es : List ε) : Prop :=
  ∀ p, p <+: es → ∀ xs, (∀ x ∈ xs, Ext x) → ∀ t, run step s (p ++ xs) = some t → Q t

/-- Events of `Ext` alone lead from `s` to where `Q` fails. -/
def Breaks (step : σ → ε → Option σ) (Ext : ε → Prop) (Q : σ → Prop) (s : σ) : Prop :=
  ∃ xs, (∀ x ∈ xs, Ext x) ∧ ∃ t, run step s xs = some t ∧ ¬ Q t

instance allStepsDecidable (step : σ → ε → Option σ) (C : σ → ε → Prop)
    [∀ s e, Decidable (C s e)] : ∀ s es, Decidable (AllSteps step C s es)
  | _, [] => inferInstanceAs (Decidable True)
  | s, e :: es =>
    match h : step s e with
    | none => decidable_of_iff (C s e) (by simp [AllSteps, h])
    | some t =>
      have := allStepsDecidable step C t es
      decidable_of_iff (C s e ∧ AllSteps step C t es) (by simp [AllSteps, h])

@[simp] theorem run_nil (s : σ) : run step s [] = some s := rfl

@[simp] theorem run_cons (s : σ) (e : ε) (es : List ε) :
    run step s (e :: es) = (step s e).bind fun t => run step t es := rfl

theorem run_append (s : σ) (es fs : List ε) :
    run step s (es ++ fs) = (run step s es).bind fun t => run step t fs := by
  induction es generalizing s with
  | nil => rfl
  | cons e es ih =>
    simp only [List.cons_append, run_cons]
    cases step s e with
    | none => rfl
    | some t => exact ih t

/-- A run ends with a single step taken from the state its front reaches. -/
theorem run_concat {s t : σ} {e : ε} {es : List ε} :
    run step s (es ++ [e]) = some t ↔ ∃ u, run step s es = some u ∧ step u e = some t := by
  rw [run_append]
  cases run step s es with
  | none => simp
  | some u => cases h : step u e <;> simp [h]

/-- A part of the state that each step moves as `inner` does, a run moves so too. -/
theorem run_map {τ : Type*} {inner : τ → ε → Option τ} (part : σ → τ)
    (moves : ∀ s e, (step s e).map part = inner (part s) e) (s : σ) (es : List ε) :
    (run step s es).map part = run inner (part s) es := by
  induction es generalizing s with
  | nil => rfl
  | cons e es ih =>
    rw [run_cons, run_cons, ← moves]
    cases step s e with
    | none => rfl
    | some t => exact ih t

/-- What every step keeps, a run of any length keeps. -/
theorem run_invariant {J : σ → Prop} (keeps : ∀ s e t, J s → step s e = some t → J t)
    {s t : σ} {es : List ε} (hs : J s) (hr : run step s es = some t) : J t := by
  induction es generalizing s with
  | nil => cases hr; exact hs
  | cons e es ih =>
    rw [run_cons] at hr
    cases h : step s e with
    | none => simp [h] at hr
    | some u =>
      rw [h] at hr
      exact ih (keeps s e u hs h) hr

theorem allSteps_append {C : σ → ε → Prop} (s : σ) (es fs : List ε) :
    AllSteps step C s (es ++ fs) ↔
      AllSteps step C s es ∧ ∀ t, run step s es = some t → AllSteps step C t fs := by
  induction es generalizing s with
  | nil => simp [AllSteps]
  | cons e es ih =>
    simp only [List.cons_append, AllSteps, run_cons]
    cases step s e with
    | none => simp
    | some t => simp [ih t, and_assoc]

theorem allSteps_and {H C : σ → ε → Prop} (s : σ) (es : List ε) :
    AllSteps step (fun s e => H s e ∧ C s e) s es ↔ AllSteps step H s es ∧ AllSteps step C s es := by
  induction es generalizing s with
  | nil => simp [AllSteps]
  | cons e es ih =>
    simp only [AllSteps, ih]
    constructor
    · rintro ⟨⟨hh, hc⟩, hrest⟩
      exact ⟨⟨hh, fun t ht => (hrest t ht).1⟩, hc, fun t ht => (hrest t ht).2⟩
    · rintro ⟨⟨hh, hhs⟩, hc, hcs⟩
      exact ⟨⟨hh, hc⟩, fun t ht => ⟨hhs t ht, hcs t ht⟩⟩

theorem allSteps_front {C : σ → ε → Prop} {s : σ} {p es : List ε} (hp : p <+: es)
    (h : AllSteps step C s es) : AllSteps step C s p := by
  obtain ⟨rest, rfl⟩ := hp
  exact ((allSteps_append s p rest).mp h).1

theorem allSteps_of_forall {C : σ → ε → Prop} (s : σ) (es : List ε)
    (h : ∀ e ∈ es, ∀ s, C s e) : AllSteps step C s es := by
  induction es generalizing s with
  | nil => trivial
  | cons e es ih =>
    exact ⟨h e (by simp) s, fun t _ => ih t fun x hx => h x (by simp [hx])⟩

/-- A component that each step of the system leaves alone or moves by one step of
its own has, at the end of a run, run itself. -/
theorem run_component {τ φ : Type*} {inner : τ → φ → Option τ} (part : σ → τ)
    (moves : ∀ s e t, step s e = some t →
      part t = part s ∨ ∃ f, inner (part s) f = some (part t))
    {s t : σ} {es : List ε} (hr : run step s es = some t) :
    ∃ fs, run inner (part s) fs = some (part t) := by
  induction es generalizing s with
  | nil =>
    cases hr
    exact ⟨[], rfl⟩
  | cons e es ih =>
    rw [run_cons] at hr
    cases h : step s e with
    | none => simp [h] at hr
    | some u =>
      rw [h] at hr
      obtain ⟨fs, hfs⟩ := ih hr
      rcases moves s e u h with hsame | ⟨f, hf⟩
      · rw [hsame] at hfs
        exact ⟨fs, hfs⟩
      · exact ⟨f :: fs, by simp [hf, hfs]⟩

/-- What steps meeting `C` keep, a run of such steps keeps. -/
theorem run_invariant_when {J : σ → Prop} {C : σ → ε → Prop}
    (keeps : ∀ s e t, J s → C s e → step s e = some t → J t)
    {s t : σ} {es : List ε} (hs : J s) (hc : AllSteps step C s es)
    (hr : run step s es = some t) : J t := by
  induction es generalizing s with
  | nil => cases hr; exact hs
  | cons e es ih =>
    rw [run_cons] at hr
    cases h : step s e with
    | none => simp [h] at hr
    | some u =>
      rw [h] at hr
      exact ih (keeps s e u hs hc.1 h) (hc.2 u h) hr

/-- A condition that every step meets in states satisfying an invariant. -/
theorem allSteps_of_invariant {J : σ → Prop} {C : σ → ε → Prop}
    (keeps : ∀ s e t, J s → step s e = some t → J t)
    (meets : ∀ s e t, J s → step s e = some t → C s e)
    {s t : σ} {es : List ε} (hs : J s) (hr : run step s es = some t) :
    AllSteps step C s es := by
  induction es generalizing s with
  | nil => trivial
  | cons e es ih =>
    rw [run_cons] at hr
    cases h : step s e with
    | none => simp [h] at hr
    | some u =>
      rw [h] at hr
      refine ⟨meets s e u hs h, ?_⟩
      intro v hv
      have he : u = v := Option.some.inj (h.symm.trans hv)
      subst v
      exact ih (keeps s e u hs h) hr

theorem Breaks.now {Ext : ε → Prop} {Q : σ → Prop} {s : σ} (h : ¬ Q s) : Breaks step Ext Q s :=
  ⟨[], nofun, s, rfl, h⟩

theorem Breaks.before {Ext : ε → Prop} {Q : σ → Prop} {s t : σ} {e : ε} (h : Breaks step Ext Q t)
    (he : Ext e) (hstep : step s e = some t) : Breaks step Ext Q s := by
  obtain ⟨xs, hx, u, hu, hn⟩ := h
  exact ⟨e :: xs, List.forall_mem_cons.mpr ⟨he, hx⟩, u, by simp [hstep, hu], hn⟩

/-- In a run whose steps keep to `H`: where a step that meets `C` keeps `I`, and one that
misses it lets `Q` fail, now or after events of `Ext`, the run keeps `Q` exactly when its
steps meet `C`. -/
theorem through_iff_within {I Q : σ → Prop} {H C : σ → ε → Prop} {Ext : ε → Prop}
    (keeps : ∀ s e t, I s → H s e → C s e → step s e = some t → I t)
    (free : ∀ s e, Ext e → H s e ∧ C s e) (good : ∀ s, I s → Q s)
    (breaks : ∀ s e t, I s → H s e → step s e = some t → ¬ C s e → Breaks step Ext Q t)
    {s t : σ} {es : List ε} (hi : I s) (hh : AllSteps step H s es) (hr : run step s es = some t) :
    Through step Ext Q s es ↔ AllSteps step C s es := by
  constructor
  · intro hq
    induction es generalizing s with
    | nil => trivial
    | cons e es ih =>
      rw [run_cons] at hr
      cases he : step s e with
      | none => simp [he] at hr
      | some u =>
        rw [he] at hr
        have hc : C s e := by
          by_contra hn
          obtain ⟨xs, hx, v, hv, hnq⟩ := breaks s e u hi hh.1 he hn
          exact hnq (hq [e] ⟨es, rfl⟩ xs hx v (by simp [he, hv]))
        refine ⟨hc, ?_⟩
        intro v hv
        have hvu : u = v := Option.some.inj (he.symm.trans hv)
        subst v
        apply ih (keeps s e u hi hh.1 hc he) (hh.2 u he) hr
        intro p hp xs hx w hw
        exact hq (e :: p) (List.cons_prefix_cons.mpr ⟨rfl, hp⟩) xs hx w (by simpa [he] using hw)
  · intro hc p hp xs hx u hu
    have hboth : AllSteps step (fun s e => H s e ∧ C s e) s p :=
      (allSteps_and s p).mpr ⟨allSteps_front hp hh, allSteps_front hp hc⟩
    have hpx : AllSteps step (fun s e => H s e ∧ C s e) s (p ++ xs) :=
      (allSteps_append s p xs).mpr
        ⟨hboth, fun v _ => allSteps_of_forall v xs fun x hm s => free s x (hx x hm)⟩
    exact good u (run_invariant_when (fun s e t hs hm h => keeps s e t hs hm.1 hm.2 h) hi hpx hu)

/-- The same where the run may take any steps. -/
theorem through_iff_of_breaks {I Q : σ → Prop} {C : σ → ε → Prop} {Ext : ε → Prop}
    (keeps : ∀ s e t, I s → C s e → step s e = some t → I t)
    (free : ∀ s e, Ext e → C s e) (good : ∀ s, I s → Q s)
    (breaks : ∀ s e t, I s → step s e = some t → ¬ C s e →
      ∃ xs, (∀ x ∈ xs, Ext x) ∧ ∃ u, run step t xs = some u ∧ ¬ Q u)
    {s t : σ} {es : List ε} (hi : I s) (hr : run step s es = some t) :
    Through step Ext Q s es ↔ AllSteps step C s es :=
  through_iff_within (H := fun _ _ => True) (fun s e t hs _ hc h => keeps s e t hs hc h)
    (fun s e he => ⟨trivial, free s e he⟩) good (fun s e t hs _ h hn => breaks s e t hs h hn) hi
    (allSteps_of_forall s es fun _ _ _ => trivial) hr

/-- `J` holds of every state. From a state of `I`, a step stays in `I` exactly
when it meets `C`. -/
structure Exact (step : σ → ε → Option σ) (J I : σ → Prop) (C : σ → ε → Prop) : Prop where
  keeps : ∀ s e t, J s → step s e = some t → J t
  meets : ∀ s e t, J s → I s → step s e = some t → (I t ↔ C s e)

section Exactness
variable {J I : σ → Prop} {C : σ → ε → Prop}

theorem Exact.invariant (h : Exact step J I C) {s t : σ} {es : List ε} (hj : J s) (hi : I s)
    (hc : AllSteps step C s es) (hr : run step s es = some t) : J t ∧ I t := by
  refine run_invariant_when (J := fun s => J s ∧ I s) ?_ ⟨hj, hi⟩ hc hr
  intro s e t hs hm he
  exact ⟨h.keeps s e t hs.1 he, (h.meets s e t hs.1 hs.2 he).mpr hm⟩

/-- The first step that misses `C` is the first to leave `I`. -/
theorem Exact.allSteps_of_along (h : Exact step J I C) {s t : σ} {es : List ε} (hj : J s)
    (hi : I s) (hr : run step s es = some t) (hall : Along step I s es) : AllSteps step C s es := by
  induction es generalizing s with
  | nil => trivial
  | cons e es ih =>
    rw [run_cons] at hr
    cases he : step s e with
    | none => simp [he] at hr
    | some u =>
      rw [he] at hr
      have hu : I u := hall [e] ⟨es, rfl⟩ u (by simp [he])
      refine ⟨(h.meets s e u hj hi he).mp hu, ?_⟩
      intro v hv
      have hvu : u = v := Option.some.inj (he.symm.trans hv)
      subst v
      apply ih (h.keeps s e u hj he) hu hr
      intro p hp w hw
      exact hall (e :: p) (List.cons_prefix_cons.mpr ⟨rfl, hp⟩) w (by simpa [he] using hw)

/-- Where leaving `I` is what makes `Q` fail, now or after events of `Ext`, the
run keeps `Q` exactly when its steps meet `C`. -/
theorem Exact.through_iff (h : Exact step J I C) {Ext : ε → Prop} {Q : σ → Prop}
    (free : ∀ s e, Ext e → C s e) (good : ∀ s, J s → I s → Q s)
    (bad : ∀ s, J s → ¬ I s → ∃ xs, (∀ x ∈ xs, Ext x) ∧ ∃ t, run step s xs = some t ∧ ¬ Q t)
    {s t : σ} {es : List ε} (hj : J s) (hi : I s) (hr : run step s es = some t) :
    Through step Ext Q s es ↔ AllSteps step C s es := by
  apply through_iff_of_breaks (I := fun s => J s ∧ I s) ?_ free ?_ ?_ ⟨hj, hi⟩ hr
  · intro s e t hs hc he
    exact ⟨h.keeps s e t hs.1 he, (h.meets s e t hs.1 hs.2 he).mpr hc⟩
  · intro s hs
    exact good s hs.1 hs.2
  · intro s e t hs he hn
    exact bad t (h.keeps s e t hs.1 he) (mt (h.meets s e t hs.1 hs.2 he).mp hn)

/-- The case with nothing left to run: `I` is the property itself. -/
theorem Exact.along_iff (h : Exact step J I C) {s t : σ} {es : List ε} (hj : J s) (hi : I s)
    (hr : run step s es = some t) : Along step I s es ↔ AllSteps step C s es := by
  constructor
  · exact h.allSteps_of_along hj hi hr
  · intro hc p hp u hu
    exact (h.invariant hj hi (allSteps_front hp hc) hu).2

end Exactness

end Runs
