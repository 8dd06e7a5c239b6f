import NativeChannel.Library.Runs

namespace Simulation
open Runs

variable {σ ε τ α : Type*} {step : σ → ε → Option σ} {spec : τ → α → Option τ}

/-- What is seen of a run, when `seen` is what is seen of one step from a state. -/
def trace (step : σ → ε → Option σ) (seen : σ → ε → List α) : σ → List ε → List α
  | _, [] => []
  | s, e :: es => seen s e ++ (step s e).elim [] fun t => trace step seen t es

/-- Where each step is a run of smaller ones, a run is the run of all of these. -/
theorem run_trace {small : σ → α → Option σ} {operations : σ → ε → List α} {s : σ}
    (is : ∀ s e, step s e = run small s (operations s e)) (es : List ε) :
    run small s (trace step operations s es) = run step s es := by
  induction es generalizing s with
  | nil => rfl
  | cons e es ih =>
    rw [trace, run_append, ← is, run_cons]
    cases step s e with
    | none => rfl
    | some t => exact ih

/-- What is seen of a step that meets `C` is a run of `spec`, and leads from states related
by `R` to such states. -/
def Simulates (step : σ → ε → Option σ) (spec : τ → α → Option τ) (seen : σ → ε → List α)
    (C : σ → ε → Prop) (R : σ → τ → Prop) : Prop :=
  ∀ s u e t, R s u → C s e → step s e = some t →
    ∃ v, run spec u (seen s e) = some v ∧ R t v

/-- Then what is seen of a whole run is a run of `spec`. -/
theorem Simulates.run {seen : σ → ε → List α} {C : σ → ε → Prop} {R : σ → τ → Prop}
    (h : Simulates step spec seen C R) {s t : σ} {u : τ} {es : List ε} (hu : R s u)
    (hc : AllSteps step C s es) (hr : Runs.run step s es = some t) :
    ∃ v, Runs.run spec u (trace step seen s es) = some v ∧ R t v := by
  induction es generalizing s u with
  | nil =>
    cases hr
    exact ⟨u, rfl, hu⟩
  | cons e es ih =>
    obtain ⟨m, hm, hrest⟩ := Option.bind_eq_some_iff.mp hr
    obtain ⟨v, hv, hmv⟩ := h s u e m hu hc.1 hm
    obtain ⟨w, hw, htw⟩ := ih hmv (hc.2 m hm) hrest
    refine ⟨w, ?_, htw⟩
    rw [trace, run_append, hv, hm]
    exact hw

/-- What every step keeps of its state and of all that was seen before, a run keeps. -/
theorem trace_invariant {seen : σ → ε → List α} {J : σ → List α → Prop}
    (keeps : ∀ s xs e t, J s xs → step s e = some t → J t (xs ++ seen s e)) {s t : σ}
    {xs : List α} {es : List ε} (hs : J s xs) (hr : Runs.run step s es = some t) :
    J t (xs ++ trace step seen s es) := by
  induction es generalizing s xs with
  | nil =>
    cases hr
    simpa [trace] using hs
  | cons e es ih =>
    obtain ⟨m, hm, hrest⟩ := Option.bind_eq_some_iff.mp hr
    rw [trace, hm, Option.elim_some, ← List.append_assoc]
    exact ih (keeps s xs e m hs hm) hrest

end Simulation
