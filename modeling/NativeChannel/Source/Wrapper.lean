import NativeChannel.Library.ByteMemory

namespace NativeChannel.Wrapper
open ByteMemory

/-- The two kinds of Android target, which differ in the width of a pointer. -/
inductive Abi where
  | ilp32
  | lp64
  deriving DecidableEq

inductive Field where
  | int64
  | pointer

def Abi.size : Abi → Field → Nat
  | _, .int64 => 8
  | .ilp32, .pointer => 4
  | .lp64, .pointer => 8

/-- Both C++ and dart:ffi place a field at the next multiple of its size. -/
def Abi.offsets (abi : Abi) : Nat → List Field → List Nat
  | _, [] => []
  | used, f :: fs =>
    let here := (used + abi.size f - 1) / abi.size f * abi.size f
    here :: abi.offsets (here + abi.size f) fs

def Abi.offset (abi : Abi) (fields : List Field) (i : Nat) : Nat :=
  (abi.offsets 0 fields).getD i 0

/-- A direct ByteBuffer, as JNI shows it. -/
structure DirectByteBuffer where
  address : Nat
  capacity : Nat
  nonNull : address ≠ 0
  isInt : capacity < 2 ^ 31
  deriving DecidableEq

def DirectByteBuffer.bytes (b : DirectByteBuffer) (m : Memory) : List UInt8 :=
  bytesAt m b.address b.capacity

/-- An address and a length: the arguments of `asTypedList`, and the list that it makes. -/
structure View where
  address : Nat
  length : Int
  deriving DecidableEq

/-- The longest list that the VM makes of native memory. -/
class Vm where
  maxLength : Nat

/-- A VM of 64 bits, where it is the largest Smi. -/
@[reducible] def Vm.lp64 : Vm := ⟨2 ^ 62 - 1⟩

/-- The lengths that `asTypedList` takes. It throws an ArgumentError for any other. -/
def Vm.Takes [Vm] (length : Int) : Prop := 0 ≤ length ∧ length ≤ Vm.maxLength

instance [Vm] (length : Int) : Decidable (Vm.Takes length) :=
  inferInstanceAs (Decidable (_ ∧ _))

def View.bytes (v : View) (m : Memory) : List UInt8 := bytesAt m v.address v.length.toNat

def DirectByteBuffer.view (b : DirectByteBuffer) : View := ⟨b.address, b.capacity⟩

/-- `struct MessageWrapper`, a message of the concurrent channel. -/
structure MessageWrapper where
  seq : Int
  length : Int
  data : Nat
  deriving DecidableEq

/-- `struct SynchronousResultWrapper`. -/
structure SynchronousResultWrapper where
  length : Int
  data : Nat
  deriving DecidableEq

/-- The fields in C++ (seq, length, data), and in Dart (seq, length, _data). -/
def MessageWrapper.cFields : List Field := [.int64, .int64, .pointer]
def MessageWrapper.dartFields : List Field := [.int64, .int64, .pointer]

/-- The fields in C++ (length, data), and in Dart (length, _data). -/
def SynchronousResultWrapper.cFields : List Field := [.int64, .pointer]
def SynchronousResultWrapper.dartFields : List Field := [.int64, .pointer]

/-- Assigning the fields of a wrapper that `new` left as it found the memory.
A null reply leaves `length` and `data` unwritten. -/
def MessageWrapper.fill (ret : MessageWrapper) (replyId : Int) :
    Option DirectByteBuffer → MessageWrapper
  | none => { ret with seq := replyId }
  | some reply => { seq := replyId, length := reply.capacity, data := reply.address }

def SynchronousResultWrapper.fill (ret : SynchronousResultWrapper) :
    Option DirectByteBuffer → SynchronousResultWrapper
  | none => ret
  | some result => { length := result.capacity, data := result.address }

/-- `isNull` and `data` of `_MessageWrapperHelper`. -/
def MessageWrapper.isNull (w : MessageWrapper) : Bool := w.data == 0
def MessageWrapper.view (w : MessageWrapper) : View := ⟨w.data, w.length⟩

/-- `isNull` and `data` of `_SynchronousResultWrapperHelper`. -/
def SynchronousResultWrapper.isNull (w : SynchronousResultWrapper) : Bool := w.data == 0
def SynchronousResultWrapper.view (w : SynchronousResultWrapper) : View := ⟨w.data, w.length⟩

/-- What `onReply` reads in a wrapper: null, or the view it asks `asTypedList` for. -/
def MessageWrapper.received (w : MessageWrapper) : Option View :=
  if w.isNull then none else some w.view

/-- What `SynchronousNativeBinaryMessenger.send` reads in one. -/
def SynchronousResultWrapper.received (w : SynchronousResultWrapper) : Option View :=
  if w.isNull then none else some w.view

section AsTypedList
variable [Vm]

/-- The view `onReply` builds, if any. -/
def MessageWrapper.built (w : MessageWrapper) : Option View :=
  w.received.filter fun view => Vm.Takes view.length

/-- The `asTypedList` of `onReply` throws. -/
def MessageWrapper.throws (w : MessageWrapper) : Bool :=
  w.received.any fun view => ¬ Vm.Takes view.length

/-- The view `SynchronousNativeBinaryMessenger.send` builds, if any. -/
def SynchronousResultWrapper.built (w : SynchronousResultWrapper) : Option View :=
  w.received.filter fun view => Vm.Takes view.length

/-- The `asTypedList` of the synchronous `send` throws. -/
def SynchronousResultWrapper.throws (w : SynchronousResultWrapper) : Bool :=
  w.received.any fun view => ¬ Vm.Takes view.length

theorem MessageWrapper.throws_iff {w : MessageWrapper} :
    w.throws = true ↔ w.data ≠ 0 ∧ ¬ Vm.Takes w.length := by
  by_cases h : w.data = 0 <;>
    simp [MessageWrapper.throws, MessageWrapper.received, MessageWrapper.isNull,
      MessageWrapper.view, h]

theorem SynchronousResultWrapper.throws_iff {w : SynchronousResultWrapper} :
    w.throws = true ↔ w.data ≠ 0 ∧ ¬ Vm.Takes w.length := by
  by_cases h : w.data = 0 <;>
    simp [SynchronousResultWrapper.throws, SynchronousResultWrapper.received,
      SynchronousResultWrapper.isNull, SynchronousResultWrapper.view, h]

end AsTypedList

/-- An `@Int64()` field. -/
def loadInt64 (m : Memory) (a : Nat) : Int := (BitVec.ofNat 64 (load m a 8)).toInt

def MessageWrapper.read (abi : Abi) (m : Memory) (p : Nat) : MessageWrapper :=
  { seq := loadInt64 m (p + abi.offset dartFields 0)
    length := loadInt64 m (p + abi.offset dartFields 1)
    data := load m (p + abi.offset dartFields 2) (abi.size .pointer) }

def SynchronousResultWrapper.read (abi : Abi) (m : Memory) (p : Nat) : SynchronousResultWrapper :=
  { length := loadInt64 m (p + abi.offset dartFields 0)
    data := load m (p + abi.offset dartFields 1) (abi.size .pointer) }

/-- What `replyMessageToDart` writes to the memory `ret` that `new` returned. -/
def replyMessageToDart (abi : Abi) (m : Memory) (ret : Nat) (replyId : BitVec 64)
    (reply : Option DirectByteBuffer) : Memory :=
  let m := store m (ret + abi.offset MessageWrapper.cFields 0) 8 replyId.toNat
  match reply with
  | none => m
  | some reply =>
    let m := store m (ret + abi.offset MessageWrapper.cFields 2) (abi.size .pointer) reply.address
    store m (ret + abi.offset MessageWrapper.cFields 1) 8 reply.capacity

end NativeChannel.Wrapper
