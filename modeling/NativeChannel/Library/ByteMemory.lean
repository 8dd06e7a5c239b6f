import Mathlib.Data.Nat.Basic
import Mathlib.Algebra.Ring.Nat
import Mathlib.Tactic.Ring

namespace ByteMemory

/-- A flat memory of bytes. -/
abbrev Memory := Nat → UInt8

def setByte (m : Memory) (a : Nat) (b : UInt8) : Memory := fun x => if x = a then b else m x

/-- Store the low `n` bytes of `v` from address `a` on, least significant first. -/
def store (m : Memory) (a : Nat) : Nat → Nat → Memory
  | 0, _ => m
  | n + 1, v => setByte (store m (a + 1) n (v / 256)) a (UInt8.ofNat v)

def load (m : Memory) (a : Nat) : Nat → Nat
  | 0 => 0
  | n + 1 => (m a).toNat + 256 * load m (a + 1) n

/-- The bytes at the `n` addresses from `a` on. -/
def bytesAt (m : Memory) (a n : Nat) : List UInt8 := (List.range n).map fun i => m (a + i)

/-- Write a list of bytes from address `a` on. -/
def storeBytes (m : Memory) (a : Nat) : List UInt8 → Memory
  | [] => m
  | b :: bytes => setByte (storeBytes m (a + 1) bytes) a b

/-- The `n` bytes from `a` on and the `k` bytes from `b` on share no address. -/
def Apart (a n b k : Nat) : Prop := a + n ≤ b ∨ b + k ≤ a

instance (a n b k : Nat) : Decidable (Apart a n b k) := inferInstanceAs (Decidable (_ ∨ _))

theorem bytesAt_congr {m m' : Memory} {a n : Nat} (h : ∀ x, a ≤ x → x < a + n → m x = m' x) :
    bytesAt m a n = bytesAt m' a n := by
  apply List.map_congr_left
  intro i hi
  have hn := List.mem_range.mp hi
  exact h (a + i) (by omega) (by omega)

theorem bytesAt_succ (m : Memory) (a n : Nat) :
    bytesAt m a (n + 1) = m a :: bytesAt m (a + 1) n := by
  simp [bytesAt, List.range_succ_eq_map, Nat.add_comm, Nat.add_left_comm]

theorem storeBytes_outside (m : Memory) {a x : Nat} {bytes : List UInt8}
    (h : x < a ∨ a + bytes.length ≤ x) : storeBytes m a bytes x = m x := by
  induction bytes generalizing a with
  | nil => rfl
  | cons b bytes ih =>
    rw [List.length_cons] at h
    have hne : x ≠ a := by omega
    simp only [storeBytes, setByte, if_neg hne]
    exact ih (by omega)

/-- What was written is read again. -/
theorem bytesAt_storeBytes (m : Memory) (a : Nat) (bytes : List UInt8) :
    bytesAt (storeBytes m a bytes) a bytes.length = bytes := by
  induction bytes generalizing a with
  | nil => rfl
  | cons b bytes ih =>
    have hrest : bytesAt (storeBytes m a (b :: bytes)) (a + 1) bytes.length =
        bytesAt (storeBytes m (a + 1) bytes) (a + 1) bytes.length := by
      apply bytesAt_congr
      intro x hx _
      have hne : x ≠ a := by omega
      simp only [storeBytes, setByte, if_neg hne]
    rw [List.length_cons, bytesAt_succ, hrest, ih]
    simp [storeBytes, setByte]

theorem bytesAt_storeBytes_apart (m : Memory) {a b k : Nat} {bytes : List UInt8}
    (h : Apart a bytes.length b k) : bytesAt (storeBytes m a bytes) b k = bytesAt m b k := by
  apply bytesAt_congr
  intro x hx hk
  apply storeBytes_outside
  unfold Apart at h
  omega

/-- The wider apart two ranges are, the fewer bytes of either are asked for. -/
theorem Apart.within {a n b k a' n' : Nat} (h : Apart a n b k) (h1 : a ≤ a')
    (h2 : a' + n' ≤ a + n) : Apart a' n' b k := by
  unfold Apart at h ⊢
  omega

end ByteMemory
