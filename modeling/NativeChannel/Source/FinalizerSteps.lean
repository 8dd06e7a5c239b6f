import NativeChannel.Source.Finalizer

namespace NativeChannel.FinalizerSteps
open Wrapper
open Finalizer (JavaBuffer DartView Wrapped)

/-- Where a reply stands in `replyMessageToDart`, or in the end of
`SendSynchronousMessageToPlatform`. -/
inductive ReplyPhase where
  | created
  | associated
  | handedOver
  deriving DecidableEq

structure Reply where
  object : JavaBuffer
  ref : Nat
  phase : ReplyPhase
  deriving DecidableEq

/-- Where a call of `ReleaseGlobalReferenceByPointer` stands. `found` and `deleted` have
its local variable `object`. -/
inductive ReleasePhase where
  | entered
  | found (object : Nat)
  | deleted (object : Nat)
  | returned
  deriving DecidableEq

/-- No code reads `memory`, the allocation that the finalized view showed. -/
structure Release where
  memory : Nat
  ptr : Nat
  phase : ReleasePhase
  deriving DecidableEq

/-- History of one `erase(ptr)`: whose view it was for, the reference deleted before it,
and the one whose association it removed. -/
structure Erasure where
  memory : Nat
  deleted : Nat
  removed : Option Nat
  deriving DecidableEq

/-- The process with the calls that are under way. The last two fields are history, of
all assignments to `global_references_` and of all erasures. -/
structure Process where
  shared : Finalizer.Process
  replies : List Reply
  releases : List Release
  associations : List (Nat × Nat)
  erasures : List Erasure

/-- The wrapper a reply goes out in, as `new` left it. -/
inductive Fresh where
  | message (replyId : Int) (fresh : MessageWrapper)
  | result (fresh : SynchronousResultWrapper)

def Fresh.received (reply : DirectByteBuffer) : Fresh → Option View
  | .message replyId fresh => (fresh.fill replyId reply).received
  | .result fresh => (fresh.fill reply).received

/-- The operations on references and on the map, each atomic. -/
inductive Event where
  | allocate (start size : Nat)
  | collect (m : Nat)
  | newGlobalRef (reply : JavaBuffer)
  | associate (i : Nat)
  | handOver (i : Nat) (fresh : Fresh)
  | receive (k : Nat)
  | dartFinalizer (k : Nat)
  | lookUp (j : Nat)
  | deleteGlobalRef (j : Nat)
  | erase (j : Nat)

def Process.initial : Process := ⟨Finalizer.Process.initial, [], [], [], []⟩

def Process.setReply (s : Process) (i : Nat) (x : Reply) : Process :=
  { s with replies := s.replies.set i x }

def Process.setRelease (s : Process) (j : Nat) (x : Release) : Process :=
  { s with releases := s.releases.set j x }

/-- `global_references_[ptr] = ref`. -/
def Process.associate (s : Process) (ptr ref : Nat) : Process :=
  { s with
    shared := s.shared.associatePointerWithGlobalReference ptr ref
    associations := s.associations ++ [(ptr, ref)] }

def Process.handOver (s : Process) (w : Wrapped) : Process :=
  { s with shared := { s.shared with wrappers := s.shared.wrappers ++ [w] } }

/-- An assignment to one entry of the map, or its removal. -/
def Process.setEntry (s : Process) (ptr : Nat) (entry : Option (Option Nat)) : Process :=
  { s with shared := { s.shared with
    globalReferences := Function.update s.shared.globalReferences ptr entry } }

/-- `auto object = global_references_[ptr]`. A null object ends the call, and so does an
entry that was not there, which is there from now on. -/
def Process.lookUp (s : Process) (j : Nat) (x : Release) : Process :=
  match (s.shared.globalReferences x.ptr).join with
  | none => (s.setEntry x.ptr (some none)).setRelease j { x with phase := .returned }
  | some object => s.setRelease j { x with phase := .found object }

def Process.deleteGlobalRef (s : Process) (j : Nat) (x : Release) (object : Nat) : Process :=
  { s with shared := s.shared.deleteGlobalRef object }.setRelease j
    { x with phase := .deleted object }

/-- `global_references_.erase(ptr)`. -/
def Process.erase (s : Process) (j : Nat) (x : Release) (object : Nat) : Process :=
  let removed := (s.shared.globalReferences x.ptr).join
  { (s.setEntry x.ptr none).setRelease j { x with phase := .returned } with
    erasures := s.erasures ++ [⟨x.memory, object, removed⟩] }

def step (s : Process) : Event → Option Process
  | .allocate start size =>
    (Finalizer.step s.shared (.allocate start size)).map fun shared => { s with shared }
  | .collect m => (Finalizer.step s.shared (.collect m)).map fun shared => { s with shared }
  | .newGlobalRef reply =>
    if s.shared.holds reply then
      some { s with
        shared := s.shared.newGlobalRef reply
        replies := s.replies ++ [⟨reply, s.shared.globalRefs.length, .created⟩] }
    else none
  | .associate i =>
    match s.replies[i]? with
    | some ⟨object, ref, .created⟩ =>
      some ((s.associate object.buffer.address ref).setReply i ⟨object, ref, .associated⟩)
    | _ => none
  | .handOver i fresh =>
    match s.replies[i]? with
    | some ⟨object, ref, .associated⟩ =>
      some ((s.handOver ⟨object.memory, fresh.received object.buffer, false⟩).setReply i
        ⟨object, ref, .handedOver⟩)
    | _ => none
  | .receive k => (Finalizer.step s.shared (.receive k)).map fun shared => { s with shared }
  | .dartFinalizer k =>
    match s.shared.views[k]? with
    | some v =>
      if v.fired then none
      else
        some { s with
          shared := { s.shared with views := s.shared.views.set k { v with fired := true } }
          releases := s.releases ++ [⟨v.memory, v.view.address, .entered⟩] }
    | none => none
  | .lookUp j =>
    match s.releases[j]? with
    | some ⟨memory, ptr, .entered⟩ => some (s.lookUp j ⟨memory, ptr, .entered⟩)
    | _ => none
  | .deleteGlobalRef j =>
    match s.releases[j]? with
    | some ⟨memory, ptr, .found object⟩ =>
      some (s.deleteGlobalRef j ⟨memory, ptr, .found object⟩ object)
    | _ => none
  | .erase j =>
    match s.releases[j]? with
    | some ⟨memory, ptr, .deleted object⟩ =>
      some (s.erase j ⟨memory, ptr, .deleted object⟩ object)
    | _ => none

/-- Everything one step can do, with what was true before it. -/
inductive Moves (s : Process) : Event → Process → Prop where
  | allocate {start size : Nat}
      (apart : ∀ x ∈ s.shared.allocations, x.apart start size = true) :
      Moves s (.allocate start size) { s with shared := { s.shared with
        allocations := s.shared.allocations ++ [⟨start, size, false⟩] } }
  | collect {m : Nat}
      (unused : ∀ g ∈ s.shared.globalRefs, g.deleted = true ∨ g.object.memory ≠ m) :
      Moves s (.collect m) { s with shared := { s.shared with
        allocations := s.shared.allocations.modify m fun x => { x with collected := true } } }
  | newGlobalRef {reply : JavaBuffer} (held : s.shared.holds reply = true) :
      Moves s (.newGlobalRef reply) { s with
        shared := s.shared.newGlobalRef reply
        replies := s.replies ++ [⟨reply, s.shared.globalRefs.length, .created⟩] }
  | associate {i : Nat} {object : JavaBuffer} {ref : Nat}
      (at_ : s.replies[i]? = some ⟨object, ref, .created⟩) :
      Moves s (.associate i)
        ((s.associate object.buffer.address ref).setReply i ⟨object, ref, .associated⟩)
  | handOver {i : Nat} {object : JavaBuffer} {ref : Nat} {fresh : Fresh}
      (at_ : s.replies[i]? = some ⟨object, ref, .associated⟩) :
      Moves s (.handOver i fresh)
        ((s.handOver ⟨object.memory, fresh.received object.buffer, false⟩).setReply i
          ⟨object, ref, .handedOver⟩)
  | receive {k : Nat} {w : Wrapped} {view : View} (at_ : s.shared.wrappers[k]? = some w)
      (unread : w.freed = false) (shows : w.received = some view) :
      Moves s (.receive k) { s with shared := { s.shared with
        wrappers := s.shared.wrappers.set k { w with freed := true }
        views := s.shared.views ++ [⟨w.memory, view, false⟩] } }
  | receiveNull {k : Nat} {w : Wrapped} (at_ : s.shared.wrappers[k]? = some w)
      (unread : w.freed = false) (shows : w.received = none) :
      Moves s (.receive k) { s with shared := { s.shared with
        wrappers := s.shared.wrappers.set k { w with freed := true } } }
  | dartFinalizer {k : Nat} {v : DartView} (at_ : s.shared.views[k]? = some v)
      (live : v.fired = false) :
      Moves s (.dartFinalizer k) { s with
        shared := { s.shared with views := s.shared.views.set k { v with fired := true } }
        releases := s.releases ++ [⟨v.memory, v.view.address, .entered⟩] }
  | lookUpNull {j memory ptr : Nat} (at_ : s.releases[j]? = some ⟨memory, ptr, .entered⟩)
      (absent : (s.shared.globalReferences ptr).join = none) :
      Moves s (.lookUp j) ((s.setEntry ptr (some none)).setRelease j ⟨memory, ptr, .returned⟩)
  | lookUp {j memory ptr object : Nat} (at_ : s.releases[j]? = some ⟨memory, ptr, .entered⟩)
      (entry : s.shared.globalReferences ptr = some (some object)) :
      Moves s (.lookUp j) (s.setRelease j ⟨memory, ptr, .found object⟩)
  | deleteGlobalRef {j memory ptr object : Nat}
      (at_ : s.releases[j]? = some ⟨memory, ptr, .found object⟩) :
      Moves s (.deleteGlobalRef j) ({ s with shared := s.shared.deleteGlobalRef object }.setRelease j
        ⟨memory, ptr, .deleted object⟩)
  | erase {j memory ptr object : Nat}
      (at_ : s.releases[j]? = some ⟨memory, ptr, .deleted object⟩) :
      Moves s (.erase j) { (s.setEntry ptr none).setRelease j ⟨memory, ptr, .returned⟩ with
        erasures := s.erasures ++ [⟨memory, object, (s.shared.globalReferences ptr).join⟩] }

theorem step_moves {s t : Process} {e : Event} (h : step s e = some t) : Moves s e t := by
  cases e with
  | allocate start size =>
    obtain ⟨shared, hs, rfl⟩ := Option.map_eq_some_iff.mp h
    cases Finalizer.step_moves hs with
    | allocate apart => exact .allocate apart
    | reply is => cases is
  | collect m =>
    obtain ⟨shared, hs, rfl⟩ := Option.map_eq_some_iff.mp h
    cases Finalizer.step_moves hs with
    | collect unused => exact .collect unused
    | reply is => cases is
  | newGlobalRef reply =>
    simp only [step] at h
    split at h
    · cases h
      exact .newGlobalRef ‹_›
    · cases h
  | associate i =>
    simp only [step] at h
    split at h
    · cases h
      exact .associate ‹_›
    · cases h
  | handOver i fresh =>
    simp only [step] at h
    split at h
    · cases h
      exact .handOver ‹_›
    · cases h
  | receive k =>
    obtain ⟨shared, hs, rfl⟩ := Option.map_eq_some_iff.mp h
    cases Finalizer.step_moves hs with
    | receive at_ unread shows => exact .receive at_ unread shows
    | receiveNull at_ unread shows => exact .receiveNull at_ unread shows
    | reply is => cases is
  | dartFinalizer k =>
    simp only [step] at h
    split at h
    · rename_i v hv
      split at h
      · cases h
      rename_i hf
      cases h
      exact .dartFinalizer hv (by simpa using hf)
    · cases h
  | lookUp j =>
    simp only [step] at h
    split at h
    · rename_i memory ptr hj
      cases h
      unfold Process.lookUp
      split
      · exact .lookUpNull hj ‹_›
      · exact .lookUp hj (Option.join_eq_some_iff.mp ‹_›)
    · cases h
  | deleteGlobalRef j =>
    simp only [step] at h
    split at h
    · cases h
      exact .deleteGlobalRef ‹_›
    · cases h
  | erase j =>
    simp only [step] at h
    split at h
    · cases h
      exact .erase ‹_›
    · cases h

end NativeChannel.FinalizerSteps
