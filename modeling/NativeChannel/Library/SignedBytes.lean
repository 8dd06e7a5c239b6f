import Mathlib.Data.List.Induction

namespace SignedBytes

variable {w : Nat}

/-- Takes one more byte into a word. The byte is widened with its sign, so that a
negative one sets every bit above it. -/
def shiftOr (acc : BitVec w) (b : BitVec 8) : BitVec w := acc <<< 8 ||| b.signExtend w

def word (bytes : List (BitVec 8)) : BitVec w := bytes.foldl shiftOr 0

def AgreeBelow (n : Nat) (x y : BitVec w) : Prop := ∀ i < n, x.getLsbD i = y.getLsbD i

/-- The sequences differ at a place after which neither has a negative byte. -/
def Distinguishable (l l' : List (BitVec 8)) : Prop :=
  ∃ k < l.length, l[k]? ≠ l'[k]? ∧
    ∀ j < l.length, k < j → l[j]?.any BitVec.msb = false ∧ l'[j]?.any BitVec.msb = false

instance (l l' : List (BitVec 8)) : Decidable (Distinguishable l l') :=
  inferInstanceAs (Decidable (∃ k < l.length, l[k]? ≠ l'[k]? ∧
    ∀ j < l.length, k < j → l[j]?.any BitVec.msb = false ∧ l'[j]?.any BitVec.msb = false))

theorem word_concat (l : List (BitVec 8)) (b : BitVec 8) :
    (word (l ++ [b]) : BitVec w) = shiftOr (word l) b := by
  simp [word]

theorem getLsbD_shiftOr {acc : BitVec w} {b : BitVec 8} {i : Nat} (hi : i < w) :
    (shiftOr acc b).getLsbD i =
      if i < 8 then b.getLsbD i else acc.getLsbD (i - 8) || b.msb := by
  simp only [shiftOr, BitVec.getLsbD_or, BitVec.getLsbD_shiftLeft, BitVec.getLsbD_signExtend]
  by_cases h8 : i < 8 <;> simp [hi, h8]

/-- The newest byte is always kept, and what is above it only if it has no sign. -/
theorem agree_shiftOr {n : Nat} (hn : n + 8 ≤ w) {x y : BitVec w} {b b' : BitVec 8} :
    AgreeBelow (n + 8) (shiftOr x b) (shiftOr y b') ↔
      b = b' ∧ (b.msb = true ∨ AgreeBelow n x y) := by
  constructor
  · intro h
    have hb : b = b' := by
      apply BitVec.eq_of_getLsbD_eq
      intro i hi
      have hbit := h i (by omega)
      rwa [getLsbD_shiftOr (by omega), getLsbD_shiftOr (by omega), if_pos hi, if_pos hi] at hbit
    refine ⟨hb, ?_⟩
    cases hm : b.msb with
    | true => exact Or.inl rfl
    | false =>
      refine Or.inr ?_
      intro i hi
      have hbit := h (i + 8) (by omega)
      rw [getLsbD_shiftOr (by omega), getLsbD_shiftOr (by omega), if_neg (by omega),
        if_neg (by omega), ← hb, hm] at hbit
      simpa using hbit
  · intro h i hi
    obtain ⟨rfl, h⟩ := h
    rw [getLsbD_shiftOr (by omega), getLsbD_shiftOr (by omega)]
    by_cases h8 : i < 8
    · rw [if_pos h8, if_pos h8]
    · rw [if_neg h8, if_neg h8]
      rcases h with hm | h
      · rw [hm, Bool.or_true, Bool.or_true]
      · rw [h (i - 8) (by omega)]

theorem any_msb_concat {l : List (BitVec 8)} {b : BitVec 8} {j : Nat} (hj : j < l.length) :
    (l ++ [b])[j]?.any BitVec.msb = l[j]?.any BitVec.msb := by
  rw [List.getElem?_append_left hj]

theorem any_msb_last (l : List (BitVec 8)) (b : BitVec 8) :
    (l ++ [b])[l.length]?.any BitVec.msb = b.msb := by
  rw [List.getElem?_concat_length, Option.any_some]

theorem distinguishable_concat {l l' : List (BitVec 8)} {b b' : BitVec 8}
    (hl : l.length = l'.length) :
    Distinguishable (l ++ [b]) (l' ++ [b']) ↔
      b ≠ b' ∨ b.msb = false ∧ b'.msb = false ∧ Distinguishable l l' := by
  have hlast := any_msb_last l b
  have hlast' : (l' ++ [b'])[l.length]?.any BitVec.msb = b'.msb := by
    rw [hl, any_msb_last]
  constructor
  · intro h
    obtain ⟨k, hk, hne, hlater⟩ := h
    rw [List.length_append, List.length_singleton] at hk hlater
    by_cases hkl : k = l.length
    · left
      subst k
      rw [List.getElem?_concat_length, hl, List.getElem?_concat_length] at hne
      exact fun h => hne (congrArg some h)
    · right
      have hend := hlater l.length (by omega) (by omega)
      rw [hlast, hlast'] at hend
      refine ⟨hend.1, hend.2, k, by omega, ?_, ?_⟩
      · rwa [List.getElem?_append_left (by omega), List.getElem?_append_left (by omega)] at hne
      · intro j hj hkj
        have hbytes := hlater j (by omega) hkj
        rwa [any_msb_concat hj, any_msb_concat (by omega)] at hbytes
  · intro h
    rcases h with hb | ⟨hm, hm', k, hk, hne, hlater⟩
    · refine ⟨l.length, by simp, ?_, ?_⟩
      · rw [List.getElem?_concat_length, hl, List.getElem?_concat_length]
        exact fun h => hb (Option.some.inj h)
      · intro j hj hkj
        rw [List.length_append, List.length_singleton] at hj
        omega
    · refine ⟨k, by simp; omega, ?_, ?_⟩
      · rwa [List.getElem?_append_left hk, List.getElem?_append_left (by omega)]
      · intro j hj hkj
        rw [List.length_append, List.length_singleton] at hj
        by_cases hjl : j = l.length
        · rw [hjl, hlast, hlast']
          exact ⟨hm, hm'⟩
        · rw [any_msb_concat (by omega), any_msb_concat (by omega)]
          exact hlater j (by omega) hkj

/-- Words of as many bytes agree exactly when no byte that survives differs. -/
theorem agree_word_iff {l l' : List (BitVec 8)} (hl : l.length = l'.length)
    (hw : 8 * l.length ≤ w) :
    AgreeBelow (8 * l.length) (word l : BitVec w) (word l') ↔ ¬ Distinguishable l l' := by
  induction l using List.reverseRecOn generalizing l' with
  | nil =>
    refine iff_of_true (fun i hi => ?_) ?_
    · simp at hi
    · intro h
      obtain ⟨k, hk, _⟩ := h
      simp at hk
  | append_singleton l b ih =>
    obtain ⟨m, b', rfl⟩ : ∃ m b', l' = m ++ [b'] := by
      rcases List.eq_nil_or_concat l' with rfl | ⟨m, b', rfl⟩
      · simp at hl
      · exact ⟨m, b', by simp⟩
    have hlen : l.length = m.length := by simpa using hl
    have hsize : 8 * (l ++ [b]).length = 8 * l.length + 8 := by
      rw [List.length_append, List.length_singleton]
      omega
    rw [hsize] at hw ⊢
    rw [word_concat, word_concat, agree_shiftOr hw, ih hlen (by omega),
      distinguishable_concat hlen]
    constructor
    · intro h
      obtain ⟨rfl, hm | hd⟩ := h
      · simp [hm]
      · simp [hd]
    · intro h
      obtain ⟨hb, hrest⟩ := not_or.mp h
      have hb : b = b' := not_not.mp hb
      subst b'
      refine ⟨rfl, ?_⟩
      cases hm : b.msb with
      | true => exact Or.inl rfl
      | false => exact Or.inr fun hd => hrest ⟨hm, hm, hd⟩

/-- Sequences that fill a word give the same word exactly when every difference is
overwritten by the sign of a later byte. -/
theorem word_eq_iff {l l' : List (BitVec 8)} (hl : l.length = l'.length)
    (hw : 8 * l.length = w) : (word l : BitVec w) = word l' ↔ ¬ Distinguishable l l' := by
  rw [← agree_word_iff (w := w) hl (Nat.le_of_eq hw), hw]
  constructor
  · intro h i _
    rw [h]
  · exact BitVec.eq_of_getLsbD_eq

end SignedBytes
