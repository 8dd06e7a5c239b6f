import NativeChannel.Library.Runs

namespace Runs

variable {σ ε : Type*} {step : σ → ε → Option σ}

/-- No event of `Ext` can happen. -/
def Quiet (step : σ → ε → Option σ) (Ext : ε → Prop) (s : σ) : Prop :=
  ∀ e, Ext e → step s e = none

/-- Events of `Ext` use up `w`, in states of `J`, which they keep. -/
structure Settles (step : σ → ε → Option σ) (J : σ → Prop) (Ext : ε → Prop) (w : σ → Nat) :
    Prop where
  keeps : ∀ s e t, J s → Ext e → step s e = some t → J t
  uses : ∀ s e t, J s → Ext e → step s e = some t → w t < w s

/-- In whatever order events of `Ext` are taken from `s` on, there are at most `n` of them.
Wherever they stop before that they can go on, and where they cannot, `Q` holds. -/
structure Drains (step : σ → ε → Option σ) (Ext : ε → Prop) (Q : σ → Prop) (n : Nat) (s : σ) :
    Prop where
  bounded : ∀ es t, (∀ e ∈ es, Ext e) → run step s es = some t → es.length ≤ n
  goesOn : ∀ es t, (∀ e ∈ es, Ext e) → run step s es = some t →
    ∃ fs u, (∀ f ∈ fs, Ext f) ∧ run step t fs = some u ∧ Quiet step Ext u
  ends : ∀ es t, (∀ e ∈ es, Ext e) → run step s es = some t → Quiet step Ext t → Q t

section Settles
variable {J : σ → Prop} {Ext : ε → Prop} {w : σ → Nat}

/-- What is used up bounds the length of a run. -/
theorem Settles.run_length (h : Settles step J Ext w) {s t : σ} {es : List ε} (hj : J s)
    (hx : ∀ e ∈ es, Ext e) (hr : run step s es = some t) : J t ∧ es.length + w t ≤ w s := by
  induction es generalizing s with
  | nil =>
    cases hr
    exact ⟨hj, by simp⟩
  | cons e es ih =>
    obtain ⟨he, hes⟩ := List.forall_mem_cons.mp hx
    obtain ⟨u, hu, hrest⟩ := Option.bind_eq_some_iff.mp hr
    obtain ⟨ht, hlen⟩ := ih (h.keeps s e u hj he hu) hes hrest
    have hless := h.uses s e u hj he hu
    refine ⟨ht, ?_⟩
    rw [List.length_cons]
    omega

/-- A run goes on until nothing of `Ext` can happen. -/
theorem Settles.exists_quiet (h : Settles step J Ext w) {s : σ} (hj : J s) :
    ∃ es t, (∀ e ∈ es, Ext e) ∧ run step s es = some t ∧ Quiet step Ext t := by
  induction hn : w s using Nat.strongRecOn generalizing s with
  | ind n ih =>
    by_cases hq : Quiet step Ext s
    · exact ⟨[], s, by simp, rfl, hq⟩
    · simp only [Quiet, not_forall] at hq
      obtain ⟨e, he, hs⟩ := hq
      obtain ⟨u, hu⟩ := Option.ne_none_iff_exists'.mp hs
      have hless := h.uses s e u hj he hu
      obtain ⟨es, t, hes, hr, ht⟩ := ih (w u) (hn ▸ hless) (h.keeps s e u hj he hu) rfl
      exact ⟨e :: es, t, List.forall_mem_cons.mpr ⟨he, hes⟩, by simp [hu, hr], ht⟩

/-- It is enough to know what a state is like in which nothing of `Ext` can happen. -/
theorem Settles.drains (h : Settles step J Ext w) {Q : σ → Prop}
    (quiet : ∀ s, J s → Quiet step Ext s → Q s) {s : σ} (hj : J s) :
    Drains step Ext Q (w s) s where
  bounded es t hx hr := by
    have hlen := (h.run_length hj hx hr).2
    omega
  goesOn es t hx hr := h.exists_quiet (h.run_length hj hx hr).1
  ends es t hx hr := quiet t (h.run_length hj hx hr).1

end Settles

end Runs
