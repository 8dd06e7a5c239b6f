import Mathlib.Algebra.GroupWithZero.Nat
import Mathlib.Data.List.AList

namespace Counts

variable {α β : Type*}

theorem toNat_eq_ite (b : Bool) : b.toNat = if b then 1 else 0 := by
  cases b <;> rfl

/-- Replacing one entry moves a count by what the old and the new entry weigh.
Stated without subtraction, so that linear arithmetic can use it as it is. -/
theorem countP_set_add {l : List α} {i : Nat} {a : α} (p : α → Bool) (b : α)
    (h : l[i]? = some a) :
    (l.set i b).countP p + (if p a then 1 else 0) = l.countP p + (if p b then 1 else 0) := by
  induction l generalizing i with
  | nil => simp at h
  | cons x l ih =>
    cases i with
    | zero =>
      simp only [List.getElem?_cons_zero, Option.some.injEq] at h
      subst h
      simp only [List.set_cons_zero, List.countP_cons]
      omega
    | succ i =>
      simp only [List.getElem?_cons_succ] at h
      have hl := ih h
      simp only [List.set_cons_succ, List.countP_cons]
      omega

/-- The same for a sum over the entries. -/
theorem sum_set_add {l : List α} {i : Nat} {a : α} (f : α → Nat) (b : α) (h : l[i]? = some a) :
    ((l.set i b).map f).sum + f a = (l.map f).sum + f b := by
  induction l generalizing i with
  | nil => simp at h
  | cons x l ih =>
    cases i with
    | zero =>
      simp only [List.getElem?_cons_zero, Option.some.injEq] at h
      subst h
      simp only [List.set_cons_zero, List.map_cons, List.sum_cons]
      omega
    | succ i =>
      simp only [List.getElem?_cons_succ] at h
      have hl := ih h
      simp only [List.set_cons_succ, List.map_cons, List.sum_cons]
      omega

theorem mem_of_at {l : List α} {i : Nat} {a : α} (h : l[i]? = some a) : a ∈ l :=
  List.mem_of_getElem? h

theorem mem_set_at {l : List α} {i : Nat} {a b : α} (h : l[i]? = some a) : b ∈ l.set i b := by
  obtain ⟨hi, _⟩ := List.getElem?_eq_some_iff.mp h
  exact List.mem_set hi b

theorem modify_at {l : List α} {i : Nat} {a : α} (f : α → α) (h : l[i]? = some a) :
    l.modify i f = l.set i (f a) := by
  apply List.ext_getElem?
  intro j
  by_cases hj : i = j
  · subst j
    obtain ⟨hi, rfl⟩ := List.getElem?_eq_some_iff.mp h
    simp [hi]
  · rw [List.getElem?_modify_ne f l hj, List.getElem?_set_ne hj]

/-- An entry of a list with one more at its end. -/
theorem at_concat {l : List α} {i : Nat} {a b : α} :
    (l ++ [b])[i]? = some a ↔ l[i]? = some a ∨ i = l.length ∧ b = a := by
  rcases Nat.lt_trichotomy i l.length with h | rfl | h
  · rw [List.getElem?_append_left h]
    exact (or_iff_left fun hi => Nat.ne_of_lt h hi.1).symm
  · simp
  · rw [List.getElem?_eq_none (by simp; omega), List.getElem?_eq_none (by omega)]
    simp
    omega

theorem countP_pos_at {l : List α} {i : Nat} {a : α} {p : α → Bool} (h : l[i]? = some a)
    (hp : p a = true) : 0 < l.countP p :=
  List.countP_pos_iff.mpr ⟨a, mem_of_at h, hp⟩

/-- An entry of the changed list is the new one, or stood there before. -/
theorem forall_mem_set {l : List α} {i : Nat} {b : α} {P : α → Prop}
    (hl : ∀ x ∈ l, P x) (hb : P b) : ∀ x ∈ l.set i b, P x := by
  intro x hx
  rcases List.mem_or_eq_of_mem_set hx with hm | rfl
  · exact hl x hm
  · exact hb

/-- What stands in the changed list and is not the new entry stood there before. -/
theorem at_of_set {l : List α} {i j : Nat} {a b : α} (h : (l.set i b)[j]? = some a) (hne : a ≠ b) :
    i ≠ j ∧ l[j]? = some a := by
  by_cases hij : i = j
  · subst j
    obtain ⟨hi, he⟩ := List.getElem?_eq_some_iff.mp h
    rw [List.getElem_set_self] at he
    exact absurd he.symm hne
  · rw [List.getElem?_set_ne hij] at h
    exact ⟨hij, h⟩

/-- An entry that is not the one replaced is still there. -/
theorem mem_set_of_ne {l : List α} {i : Nat} {a b x : α} (h : l[i]? = some a) (hx : x ∈ l)
    (hne : x ≠ a) : x ∈ l.set i b := by
  obtain ⟨j, hj⟩ := List.mem_iff_getElem?.mp hx
  have hij : i ≠ j := by
    intro he
    rw [← he, h] at hj
    exact hne (Option.some.inj hj).symm
  exact mem_of_at ((List.getElem?_set_ne hij).trans hj)

theorem filterMap_cons_toList (f : α → Option β) (x : α) (l : List α) :
    (x :: l).filterMap f = (f x).toList ++ l.filterMap f := by
  rw [List.filterMap_cons]
  cases f x <;> rfl

/-- What a list yields when one entry is replaced, up to order and, as above, without
taking anything away. -/
theorem filterMap_set_perm {l : List α} {i : Nat} {a : α} (f : α → Option β) (b : α)
    (h : l[i]? = some a) :
    ((l.set i b).filterMap f ++ (f a).toList).Perm (l.filterMap f ++ (f b).toList) := by
  induction l generalizing i with
  | nil => simp at h
  | cons x l ih =>
    cases i with
    | zero =>
      simp only [List.getElem?_cons_zero, Option.some.injEq] at h
      subst h
      rw [List.set_cons_zero, filterMap_cons_toList, filterMap_cons_toList, List.append_assoc,
        List.append_assoc]
      have hswap : ((f b).toList ++ (l.filterMap f ++ (f x).toList)).Perm
          ((l.filterMap f ++ (f x).toList) ++ (f b).toList) := List.perm_append_comm
      have hfront : ((l.filterMap f ++ (f x).toList) ++ (f b).toList).Perm
          (((f x).toList ++ l.filterMap f) ++ (f b).toList) := List.perm_append_comm.append_right _
      rw [← List.append_assoc (f x).toList]
      exact hswap.trans hfront
    | succ i =>
      have hl := ih (List.getElem?_cons_succ.symm.trans h)
      rw [List.set_cons_succ, filterMap_cons_toList, filterMap_cons_toList, List.append_assoc,
        List.append_assoc]
      exact hl.append_left _

/-- What erasing the entry of one key takes away, up to order. -/
theorem perm_erase_of_lookup {κ : Type*} [DecidableEq κ] {f : κ → Type*} {l : AList f} {k : κ}
    {a : f k} (h : l.lookup k = some a) : l.entries.Perm (⟨k, a⟩ :: (l.erase k).entries) := by
  have hin : k ∈ l.entries.keys := AList.mem_keys.mp (AList.lookup_isSome.mp (by rw [h]; rfl))
  obtain ⟨b, front, back, _, hl, herase⟩ := List.exists_of_kerase hin
  have hb : b ∈ l.entries.dlookup k :=
    List.mem_dlookup l.nodupKeys (by rw [hl]; exact List.mem_append_right _ List.mem_cons_self)
  have hab : some a = some b := h.symm.trans hb
  cases hab
  change l.entries.Perm (⟨k, a⟩ :: l.entries.kerase k)
  rw [hl] at herase ⊢
  rw [herase]
  exact List.perm_middle

end Counts
