import Mathlib.Data.Finset.Basic
import Mathlib.Data.List.AList
import NativeChannel.Source.Finalizer

namespace NativeChannel.ReplyResources
open Wrapper
open Finalizer (JavaBuffer)

/-- A `MessageWrapper` that `new` returned. `ref` is history: the global reference that
`replyMessageToDart` made with it. -/
structure Allocated where
  wrapper : MessageWrapper
  ref : Option Nat
  deriving DecidableEq

/-- A view that `onReply` built, with the `ref` of its wrapper. -/
structure ReplyView where
  view : View
  ref : Option Nat
  fired : Bool
  deriving DecidableEq

/-- What `onReply` uses in one isolate: `_seq`, the keys of `_resultCompleters`, and the
pointers that wait on `_replyPort`. -/
structure Isolate where
  seq : Int
  resultCompleters : Finset Int
  replyPort : List Nat

/-- The blocks that are not freed: `messages` those of the requests' copies, `wrappers` those
of `new MessageWrapper`, by their addresses. Of `references` only the references and the map
matter here. `undefined` says that a block was freed or read that is not there. -/
structure Process where
  references : Finalizer.Process
  messages : Finset Nat
  wrappers : AList fun _ : Nat => Allocated
  views : List ReplyView
  replyPort : Option Nat
  isolates : Nat → Isolate
  undefined : Bool

/-- `copy` is where `send` puts its message, `message` the address of the buffer that a reply
comes with, `ret` what `new` returns and `fresh` the wrapper as it is there, and `posted` what
`Dart_PostInteger_DL` returns. -/
inductive Event where
  | initializeChannel (a : Nat)
  | send (a : Nat) (copy : Option Nat)
  | replyMessageToDart (replyId : Int) (reply : Option JavaBuffer) (message : Option Nat)
      (ret : Nat) (fresh : MessageWrapper) (posted : Bool)
  | onReply (a : Nat)
  | dartFinalizer (k : Nat)

def Process.initial : Process :=
  ⟨Finalizer.Process.initial, ∅, ∅, [], none, fun _ => ⟨1, ∅, []⟩, false⟩

def Process.setIsolate (s : Process) (a : Nat) (iso : Isolate) : Process :=
  { s with isolates := Function.update s.isolates a iso }

/-- `_seq++` and the new completer. -/
def Isolate.send (iso : Isolate) : Isolate :=
  { iso with seq := iso.seq + 1, resultCompleters := insert iso.seq iso.resultCompleters }

/-- The allocator may return the address, also when it was that of a block before. -/
def Process.allocatable (s : Process) (p : Nat) : Bool :=
  decide (p ≠ 0 ∧ p ∉ s.messages ∧ p ∉ s.wrappers)

/-- No buffer that a reference keeps alive has this address. -/
def Process.vacant (s : Process) (address : Nat) : Bool :=
  s.references.globalRefs.all fun g => g.deleted || g.object.buffer.address != address

/-- `send`, with the copy of a message that is not null. -/
def Process.send (s : Process) (a : Nat) (copy : Option Nat) : Process :=
  { s.setIsolate a (s.isolates a).send with
    messages := copy.elim s.messages fun p => insert p s.messages }

/-- `free(env->GetDirectBufferAddress(message))` finds the block of a message, or null. -/
def Process.Frees (s : Process) (message : Option Nat) : Prop :=
  ∀ p ∈ message, p = 0 ∨ p ∈ s.messages

instance (s : Process) (message : Option Nat) : Decidable (s.Frees message) :=
  inferInstanceAs (Decidable (∀ p ∈ message, p = 0 ∨ p ∈ s.messages))

/-- The process once that block is freed. -/
def Process.freeMessage (s : Process) (message : Option Nat) : Process :=
  { s with messages := message.elim s.messages s.messages.erase }

/-- The wrapper and the reference of a reply. -/
def Process.wrap (s : Process) (replyId : Int) (ret : Nat) (fresh : MessageWrapper) :
    Option JavaBuffer → Process
  | none => { s with wrappers := s.wrappers.insert ret ⟨fresh.fill replyId none, none⟩ }
  | some reply =>
    let ref := s.references.globalRefs.length
    { s with
      references := (s.references.newGlobalRef reply).associatePointerWithGlobalReference
        reply.buffer.address ref
      wrappers := s.wrappers.insert ret ⟨fresh.fill replyId (some reply.buffer), some ref⟩ }

def Process.post (s : Process) (a ptr : Nat) : Process :=
  s.setIsolate a { s.isolates a with replyPort := (s.isolates a).replyPort ++ [ptr] }

/-- `replyMessageToDart` past the freeing of the message. Nothing looks at what
`Dart_PostInteger_DL` returns. -/
def Process.replyMessageToDart (s : Process) (a : Nat) (replyId : Int)
    (reply : Option JavaBuffer) (ret : Nat) (fresh : MessageWrapper) (posted : Bool) : Process :=
  let t := s.wrap replyId ret fresh reply
  if posted then t.post a ret else t

/-- The process once the first pointer was taken from the port of `a`. -/
def Process.received (s : Process) (a : Nat) (rest : List Nat) : Process :=
  s.setIsolate a { s.isolates a with replyPort := rest }

section Vm
variable [Vm]

/-- `registerFinalizer`, when the wrapper shows data. -/
def Process.registerFinalizer (s : Process) (x : Allocated) : Process :=
  match x.wrapper.built with
  | none => s
  | some view => { s with views := s.views ++ [⟨view, x.ref, false⟩] }

/-- `onReply` past its assert and `asTypedList`. -/
def Process.onReply (s : Process) (a ptr : Nat) (x : Allocated) : Process :=
  let iso := s.isolates a
  let s := s.setIsolate a
    { iso with resultCompleters := iso.resultCompleters.erase x.wrapper.seq }
  let s := s.registerFinalizer x
  { s with wrappers := s.wrappers.erase ptr }

/-- `onReply` gets to `free(wrappedResult)`. -/
def Process.Passes (s : Process) (asserts : Bool) (a : Nat) (x : Allocated) : Prop :=
  (asserts = true → x.wrapper.seq ∈ (s.isolates a).resultCompleters) ∧ x.wrapper.throws = false

instance (s : Process) (asserts : Bool) (a : Nat) (x : Allocated) :
    Decidable (s.Passes asserts a x) :=
  inferInstanceAs (Decidable (_ ∧ _))

/-- `asserts` says whether the Dart code runs with asserts, as in debug builds. A process
that freed or read a block that is not there takes no further step here. -/
def step (asserts : Bool) (s : Process) (e : Event) : Option Process :=
  if s.undefined then none else
  match e with
  | .initializeChannel a => some { s with replyPort := some a }
  | .send a copy =>
    if copy.all s.allocatable then some (s.send a copy) else none
  | .replyMessageToDart replyId reply message ret fresh posted =>
    match s.replyPort with
    | some a =>
      if s.Frees message then
        let s := s.freeMessage message
        if s.allocatable ret && reply.all fun b => s.vacant b.buffer.address then
          some (s.replyMessageToDart a replyId reply ret fresh posted)
        else none
      else some { s with undefined := true }
    | none => none
  | .onReply a =>
    match (s.isolates a).replyPort with
    | ptr :: rest =>
      match s.wrappers.lookup ptr with
      | some x =>
        if s.Passes asserts a x then some ((s.received a rest).onReply a ptr x)
        else some (s.received a rest)
      | none => some { s with undefined := true }
    | [] => none
  | .dartFinalizer k =>
    match s.views[k]? with
    | some v =>
      if v.fired then none
      else
        some { s with
          views := s.views.set k { v with fired := true }
          references := s.references.releaseGlobalReferenceByPointer v.view.address }
    | none => none

/-- Everything one step can do, with what was true before it. -/
inductive Moves (asserts : Bool) (s : Process) : Event → Process → Prop where
  | initializeChannel (a : Nat) :
      Moves asserts s (.initializeChannel a) { s with replyPort := some a }
  | send {a : Nat} {copy : Option Nat}
      (new : ∀ p ∈ copy, p ≠ 0 ∧ p ∉ s.messages ∧ p ∉ s.wrappers) :
      Moves asserts s (.send a copy) (s.send a copy)
  | reply {a : Nat} {replyId : Int} {reply : Option JavaBuffer} {message : Option Nat} {ret : Nat}
      {fresh : MessageWrapper} {posted : Bool} (port : s.replyPort = some a)
      (frees : s.Frees message)
      (new : ret ≠ 0 ∧ ret ∉ (s.freeMessage message).messages ∧ ret ∉ s.wrappers)
      (vacant : ∀ b, reply = some b → ∀ g ∈ s.references.globalRefs,
        g.deleted = true ∨ g.object.buffer.address ≠ b.buffer.address) :
      Moves asserts s (.replyMessageToDart replyId reply message ret fresh posted)
        ((s.freeMessage message).replyMessageToDart a replyId reply ret fresh posted)
  | freesOther {a : Nat} {replyId : Int} {reply : Option JavaBuffer} {message : Option Nat}
      {ret : Nat} {fresh : MessageWrapper} {posted : Bool} (port : s.replyPort = some a)
      (other : ¬ s.Frees message) :
      Moves asserts s (.replyMessageToDart replyId reply message ret fresh posted)
        { s with undefined := true }
  | stops {a ptr : Nat} {rest : List Nat} {x : Allocated}
      (port : (s.isolates a).replyPort = ptr :: rest) (at_ : s.wrappers.lookup ptr = some x)
      (stops : ¬ s.Passes asserts a x) : Moves asserts s (.onReply a) (s.received a rest)
  | onReply {a ptr : Nat} {rest : List Nat} {x : Allocated}
      (port : (s.isolates a).replyPort = ptr :: rest) (at_ : s.wrappers.lookup ptr = some x)
      (passes : s.Passes asserts a x) :
      Moves asserts s (.onReply a) ((s.received a rest).onReply a ptr x)
  | readsOther {a ptr : Nat} {rest : List Nat} (port : (s.isolates a).replyPort = ptr :: rest)
      (gone : s.wrappers.lookup ptr = none) :
      Moves asserts s (.onReply a) { s with undefined := true }
  | dartFinalizer {k : Nat} {v : ReplyView} (at_ : s.views[k]? = some v)
      (live : v.fired = false) :
      Moves asserts s (.dartFinalizer k) { s with
        views := s.views.set k { v with fired := true }
        references := s.references.releaseGlobalReferenceByPointer v.view.address }

theorem step_moves {asserts : Bool} {s t : Process} {e : Event} (h : step asserts s e = some t) :
    s.undefined = false ∧ Moves asserts s e t := by
  unfold step at h
  split at h
  · cases h
  rename_i hg
  refine ⟨by simpa using hg, ?_⟩
  cases e with
  | initializeChannel a =>
    cases h
    exact .initializeChannel a
  | send a copy =>
    simp only at h
    split at h
    · rename_i hall
      cases h
      refine .send ?_
      intro p hp
      exact of_decide_eq_true ((Option.all_eq_true _ _).mp hall p hp)
    · cases h
  | replyMessageToDart replyId reply message ret fresh posted =>
    simp only at h
    split at h
    · rename_i a ha
      split at h
      · rename_i hfrees
        split at h
        · rename_i hv
          cases h
          rw [Bool.and_eq_true] at hv
          refine .reply ha hfrees (of_decide_eq_true hv.1) ?_
          intro b hb g hg
          subst reply
          simpa using List.all_eq_true.mp hv.2 g hg
        · cases h
      · rename_i hfrees
        cases h
        exact .freesOther ha hfrees
    · cases h
  | onReply a =>
    simp only at h
    split at h
    · rename_i ptr rest hp
      split at h
      · rename_i x hx
        split at h
        · cases h; exact .onReply hp hx ‹_›
        · cases h; exact .stops hp hx ‹_›
      · cases h; exact .readsOther hp ‹_›
    · cases h
  | dartFinalizer k =>
    simp only at h
    split at h
    · rename_i v hv
      split at h
      · cases h
      · rename_i hf
        cases h
        exact .dartFinalizer hv (by simpa using hf)
    · cases h

end Vm

end NativeChannel.ReplyResources
