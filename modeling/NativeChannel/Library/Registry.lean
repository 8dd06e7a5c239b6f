import Mathlib.Data.List.Induction
import Mathlib.Data.Set.Function

namespace Registry

variable {ν κ η : Type*} [DecidableEq ν] [DecidableEq κ]

/-- What was registered last under a name, and not removed since. -/
def latest (history : List (ν × Option η)) (n : ν) : Option η :=
  history.foldl (fun found r => if r.1 = n then r.2 else found) none

/-- The map that a history of registrations and removals leaves, when names are
entered under their keys. -/
def replay (key : ν → κ) (history : List (ν × Option η)) : κ → Option η :=
  history.foldl (fun entries r => Function.update entries (key r.1) r.2) fun _ => none

@[simp] theorem latest_concat (history : List (ν × Option η)) (r : ν × Option η) (n : ν) :
    latest (history ++ [r]) n = if r.1 = n then r.2 else latest history n := by
  simp [latest]

omit [DecidableEq ν] in
@[simp] theorem replay_concat (key : ν → κ) (history : List (ν × Option η)) (r : ν × Option η) :
    replay key (history ++ [r]) = Function.update (replay key history) (key r.1) r.2 := by
  simp [replay]

/-- Where no two names share a key, looking up by key is looking up by name. -/
theorem replay_key {key : ν → κ} {names : Set ν} (hkey : Set.InjOn key names)
    {history : List (ν × Option η)} (hover : ∀ r ∈ history, r.1 ∈ names) {n : ν}
    (hn : n ∈ names) : replay key history (key n) = latest history n := by
  induction history using List.reverseRecOn with
  | nil => rfl
  | append_singleton history r ih =>
    have hr : r.1 ∈ names := hover r (by simp)
    have hrest := ih fun x hx => hover x (by simp [hx])
    rw [replay_concat, latest_concat]
    by_cases he : r.1 = n
    · rw [he, Function.update_self, if_pos rfl]
    · have hne : key n ≠ key r.1 := fun h => he (hkey hr hn h.symm)
      rw [Function.update_of_ne hne, if_neg he, hrest]

/-- A key shared by two names brings the handler of one to the other. -/
theorem shared_key {key : ν → κ} {a b : ν} (hkey : key a = key b) (hne : a ≠ b) (h : η) :
    replay key [(a, some h)] (key b) ≠ latest [(a, some h)] b := by
  simp [replay, latest, hkey, hne]

theorem routes_iff (η : Type*) [Inhabited η] {key : ν → κ} {names : Set ν} :
    (∀ history : List (ν × Option η), (∀ r ∈ history, r.1 ∈ names) → ∀ n ∈ names,
      replay key history (key n) = latest history n) ↔ Set.InjOn key names := by
  constructor
  · intro h a ha b hb hab
    by_contra hne
    have hover : ∀ r ∈ [(a, some (default : η))], r.1 ∈ names := by
      intro r hr
      rw [List.mem_singleton.mp hr]
      exact ha
    exact shared_key hab hne default (h [(a, some default)] hover b hb)
  · intro hkey history hover n hn
    exact replay_key hkey hover hn

end Registry
