import Mathlib.Data.List.Induction
import Mathlib.Logic.Function.Basic
import NativeChannel.Library.Registry
import NativeChannel.Library.Runs

namespace Exchange
open Runs

/-- How far a request is. Requests are known by `κ` and go to the handlers of `χ`. -/
inductive Phase (χ μ ρ : Type) where
  | unsent
  | waiting (c : χ) (m : μ)
  | handling
  | answered (r : ρ)
  | completed

/-- What the askers and the handlers see. A request whose `χ` has no handler is dispatched
to nobody. -/
inductive Act (κ χ η μ ρ β : Type) where
  | register (c : χ) (h : Option η)
  | send (k : κ) (c : χ) (m : μ)
  | dispatch (k : κ) (given : Option (η × μ))
  | answer (k : κ) (r : ρ)
  | complete (k : κ) (b : β)
  deriving DecidableEq

/-- A service that passes messages of type `μ` on and answers of type `ρ` back. -/
structure Service (κ χ η μ ρ : Type) where
  handlers : χ → Option η
  phases : κ → Phase χ μ ρ

variable {κ χ η μ ρ β : Type}

def Service.initial : Service κ χ η μ ρ := ⟨fun _ => none, fun _ => .unsent⟩

/-- The request that an act belongs to. -/
def Act.request : Act κ χ η μ ρ β → Option κ
  | .register _ _ => none
  | .send k _ _ | .dispatch k _ | .answer k _ | .complete k _ => some k

/-- What is registered, in its order. -/
def registrations (xs : List (Act κ χ η μ ρ β)) : List (χ × Option η) :=
  xs.filterMap fun
    | .register c h => some (c, h)
    | _ => none

section Requests
variable [DecidableEq κ]

def Service.setPhase (u : Service κ χ η μ ρ) (k : κ) (x : Phase χ μ ρ) : Service κ χ η μ ρ :=
  { u with phases := Function.update u.phases k x }

@[simp] theorem setPhase_phases_self (u : Service κ χ η μ ρ) (k : κ) (x : Phase χ μ ρ) :
    (u.setPhase k x).phases k = x := Function.update_self ..

theorem setPhase_phases_ne (u : Service κ χ η μ ρ) {j k : κ} (x : Phase χ μ ρ) (h : j ≠ k) :
    (u.setPhase k x).phases j = u.phases j := Function.update_of_ne h ..

@[simp] theorem setPhase_handlers (u : Service κ χ η μ ρ) (k : κ) (x : Phase χ μ ρ) :
    (u.setPhase k x).handlers = u.handlers := rfl

/-- The acts of one request. -/
def acts (k : κ) (xs : List (Act κ χ η μ ρ β)) : List (Act κ χ η μ ρ β) :=
  xs.filter fun x => x.request = some k

theorem acts_concat (k : κ) (xs : List (Act κ χ η μ ρ β)) (x : Act κ χ η μ ρ β) :
    acts k (xs ++ [x]) = acts k xs ++ if x.request = some k then [x] else [] := by
  simp [acts, List.filter_append, List.filter_cons]

theorem mem_acts {k : κ} {xs : List (Act κ χ η μ ρ β)} {x : Act κ χ η μ ρ β} :
    x ∈ acts k xs ↔ x ∈ xs ∧ x.request = some k := by
  simp [acts]

end Requests

section Step
variable [DecidableEq κ] [DecidableEq χ] [DecidableEq η] [DecidableEq μ] [DecidableEq β]

/-- Each request is sent, dispatched to the handler registered at that time, answered and
completed, and each of it once. `view` is what an asker sees of an answer. -/
def step (view : ρ → β) (u : Service κ χ η μ ρ) :
    Act κ χ η μ ρ β → Option (Service κ χ η μ ρ)
  | .register c h => some { u with handlers := Function.update u.handlers c h }
  | .send k c m =>
    match u.phases k with
    | .unsent => some (u.setPhase k (.waiting c m))
    | _ => none
  | .dispatch k given =>
    match u.phases k with
    | .waiting c m =>
      if given = (u.handlers c).map fun h => (h, m) then some (u.setPhase k .handling) else none
    | _ => none
  | .answer k r =>
    match u.phases k with
    | .handling => some (u.setPhase k (.answered r))
    | _ => none
  | .complete k b =>
    match u.phases k with
    | .answered r => if b = view r then some (u.setPhase k .completed) else none
    | _ => none

/-- What there has been of a request in each phase: the acts of one exchange, with the
message of the `send` at the handler and the answer of the handler at the asker. -/
inductive InOrder (view : ρ → β) (k : κ) : Phase χ μ ρ → List (Act κ χ η μ ρ β) → Prop where
  | unsent : InOrder view k .unsent []
  | waiting (c : χ) (m : μ) : InOrder view k (.waiting c m) [.send k c m]
  | handling (c : χ) {m : μ} {given : Option (η × μ)} (whole : ∀ x ∈ given, x.2 = m) :
      InOrder view k .handling [.send k c m, .dispatch k given]
  | answered (c : χ) {m : μ} {given : Option (η × μ)} (whole : ∀ x ∈ given, x.2 = m) (r : ρ) :
      InOrder view k (.answered r) [.send k c m, .dispatch k given, .answer k r]
  | completed (c : χ) {m : μ} {given : Option (η × μ)} (whole : ∀ x ∈ given, x.2 = m) (r : ρ) :
      InOrder view k .completed
        [.send k c m, .dispatch k given, .answer k r, .complete k (view r)]

variable {view : ρ → β} {u v : Service κ χ η μ ρ}

/-- An act of `j` moves the phase of `j` on, and nobody else's. -/
theorem step_phases {x : Act κ χ η μ ρ β} (h : step view u x = some v) (k : κ)
    {xs : List (Act κ χ η μ ρ β)} (hk : InOrder view k (u.phases k) xs) :
    InOrder view k (v.phases k) (xs ++ if x.request = some k then [x] else []) := by
  have hother : ∀ {j : κ} {y : Phase χ μ ρ}, x.request = some j → v = u.setPhase j y →
      j ≠ k → InOrder view k (v.phases k) (xs ++ if x.request = some k then [x] else []) := by
    intro j y hj hv hne
    rw [hv, setPhase_phases_ne u y (Ne.symm hne), hj,
      if_neg fun he => hne (Option.some.inj he), List.append_nil]
    exact hk
  cases x with
  | register c h' =>
    cases h
    simpa [Act.request] using hk
  | send j c m =>
    simp only [step] at h
    split at h
    · rename_i hj
      cases h
      by_cases hne : j = k
      · subst j
        rw [hj] at hk
        cases hk
        simpa [Act.request] using InOrder.waiting c m
      · exact hother rfl rfl hne
    · cases h
  | dispatch j given =>
    simp only [step] at h
    split at h
    · rename_i c m hj
      split at h
      · rename_i hgiven
        cases h
        by_cases hne : j = k
        · subst j
          rw [hj] at hk
          cases hk
          have hwhole : ∀ x ∈ given, x.2 = m := by
            intro x hx
            rw [hgiven] at hx
            obtain ⟨handler, _, rfl⟩ := Option.map_eq_some_iff.mp hx
            rfl
          simpa [Act.request] using InOrder.handling c hwhole
        · exact hother rfl rfl hne
      · cases h
    · cases h
  | answer j r =>
    simp only [step] at h
    split at h
    · rename_i hj
      cases h
      by_cases hne : j = k
      · subst j
        rw [hj] at hk
        cases hk with
        | handling c whole => simpa [Act.request] using InOrder.answered c whole r
      · exact hother rfl rfl hne
    · cases h
  | complete j b =>
    simp only [step] at h
    split at h
    · rename_i r hj
      split at h
      · rename_i hb
        subst b
        cases h
        by_cases hne : j = k
        · subst j
          rw [hj] at hk
          cases hk with
          | answered c whole => simpa [Act.request] using InOrder.completed c whole r
        · exact hother rfl rfl hne
      · cases h
    · cases h

/-- In a run of the service, the acts of each request are an exchange in order, as far as
it has come. -/
theorem run_inOrder {xs : List (Act κ χ η μ ρ β)}
    (h : run (step view) Service.initial xs = some u) (k : κ) :
    InOrder view k (u.phases k) (acts k xs) := by
  induction xs using List.reverseRecOn generalizing u with
  | nil =>
    cases h
    exact .unsent
  | append_singleton xs x ih =>
    obtain ⟨w, hw, hx⟩ := run_concat.mp h
    rw [acts_concat]
    exact step_phases hx k (ih hw)

theorem step_handlers {x : Act κ χ η μ ρ β} (h : step view u x = some v)
    (hx : registrations [x] = []) : v.handlers = u.handlers := by
  cases x with
  | register => cases hx
  | _ =>
    simp only [step] at h
    repeat' split at h
    all_goals cases h
    all_goals rfl

/-- The handlers of a state are those registered last. -/
theorem run_handlers {xs : List (Act κ χ η μ ρ β)}
    (h : run (step view) Service.initial xs = some u) (c : χ) :
    u.handlers c = Registry.latest (registrations xs) c := by
  induction xs using List.reverseRecOn generalizing u with
  | nil =>
    cases h
    rfl
  | append_singleton xs x ih =>
    obtain ⟨w, hw, hx⟩ := run_concat.mp h
    have hfront := ih hw
    have hsplit : registrations (xs ++ [x]) = registrations xs ++ registrations [x] :=
      List.filterMap_append
    rw [hsplit]
    cases x with
    | register c' h' =>
      cases hx
      rw [show registrations [(Act.register c' h' : Act κ χ η μ ρ β)] = [(c', h')] from rfl,
        Registry.latest_concat, ← hfront]
      by_cases he : c' = c
      · subst c'
        simp
      · simp [he, Ne.symm he]
    | _ =>
      rw [step_handlers hx rfl, hfront]
      exact congrArg (Registry.latest · c) (List.append_nil _).symm

/-- A request is dispatched after its `send`, to the handler registered last for its `χ`. -/
theorem dispatched {xs : List (Act κ χ η μ ρ β)}
    (h : run (step view) Service.initial xs = some u) {k : κ} {given : Option (η × μ)}
    (hd : .dispatch k given ∈ xs) :
    ∃ before after c m, xs = before ++ .dispatch k given :: after ∧ .send k c m ∈ before ∧
      given = (Registry.latest (registrations before) c).map fun handler => (handler, m) := by
  obtain ⟨before, after, rfl⟩ := List.append_of_mem hd
  rw [run_append] at h
  obtain ⟨w, hw, hrest⟩ := Option.bind_eq_some_iff.mp h
  obtain ⟨v, hv, -⟩ := Option.bind_eq_some_iff.mp hrest
  simp only [step] at hv
  split at hv
  · rename_i c m hphase
    split at hv
    · rename_i hgiven
      have horder := run_inOrder hw k
      rw [hphase] at horder
      generalize hacts : acts k before = ys at horder
      cases horder
      have hsend : .send k c m ∈ acts k before := by simp [hacts]
      refine ⟨before, after, c, m, rfl, (mem_acts.mp hsend).1, ?_⟩
      rw [hgiven, run_handlers hw]
    · cases hv
  · cases hv

/-- The acts of a completed request are one whole exchange. -/
theorem completed {xs : List (Act κ χ η μ ρ β)}
    (h : run (step view) Service.initial xs = some u) {k : κ} {b : β}
    (hb : .complete k b ∈ xs) :
    ∃ c m given r, acts k xs =
      [.send k c m, .dispatch k given, .answer k r, .complete k (view r)] ∧ b = view r := by
  have hin : .complete k b ∈ acts k xs := mem_acts.mpr ⟨hb, rfl⟩
  have horder := run_inOrder h k
  generalize acts k xs = ys at horder hin
  generalize u.phases k = phase at horder
  cases horder with
  | completed c whole r =>
    refine ⟨c, _, _, r, rfl, ?_⟩
    simpa using hin
  | _ => simp at hin

end Step

end Exchange
