import Mathlib.Logic.Function.Basic
import NativeChannel.Source.Wrapper

namespace NativeChannel.Finalizer
open Wrapper

/-- Memory that Java allocated. `collected` says that the garbage collector gave
it back, and that its addresses may be used again. -/
structure Allocation where
  start : Nat
  size : Nat
  collected : Bool
  deriving DecidableEq

/-- A direct ByteBuffer object and the allocation it points into. The object
keeps the allocation alive, as do its duplicates and slices. -/
structure JavaBuffer where
  memory : Nat
  buffer : DirectByteBuffer
  deriving DecidableEq

/-- A JNI global reference. `association` is history: the pointer under which
`AssociatePointerWithGlobalReference` recorded it. -/
structure GlobalRef where
  object : JavaBuffer
  association : Option Nat
  deleted : Bool
  deriving DecidableEq

/-- A result wrapper of either channel, with what Dart reads in it. No code reads
`memory`, the allocation of the reply. -/
structure Wrapped where
  memory : Nat
  received : Option View
  freed : Bool
  deriving DecidableEq

/-- A view of a reply in Dart, and whether its finalizer has fired. -/
structure DartView where
  memory : Nat
  view : View
  fired : Bool
  deriving DecidableEq

/-- `globalRefs` is indexed by the handles of JNI. In `globalReferences` an entry
can hold null, which `operator[]` puts there when it finds nothing. -/
structure Process where
  allocations : List Allocation
  globalRefs : List GlobalRef
  globalReferences : Nat → Option (Option Nat)
  wrappers : List Wrapped
  views : List DartView

/-- Replies other than null, of capacities that `asTypedList` takes, the reading of their
wrappers, and the finalizers. `fresh` is a wrapper as `new` left it. -/
inductive Event where
  | allocate (start size : Nat)
  | collect (m : Nat)
  | replyMessageToDart (replyId : Int) (reply : JavaBuffer) (fresh : MessageWrapper)
  | sendSynchronousMessageToPlatform (result : JavaBuffer) (fresh : SynchronousResultWrapper)
  | receive (k : Nat)
  | dartFinalizer (k : Nat)

def Process.initial : Process := ⟨[], [], fun _ => none, [], []⟩

def Allocation.contains (x : Allocation) (address : Nat) : Bool :=
  !x.collected && x.start ≤ address && address < x.start + x.size

/-- The allocator hands out memory that nobody has. -/
def Allocation.apart (x : Allocation) (start size : Nat) : Bool :=
  x.collected || x.start + x.size ≤ start || start + size ≤ x.start

/-- A reference that the library recorded and has not deleted keeps `m` alive. -/
def GlobalRef.keeps (m : Nat) (g : GlobalRef) : Bool :=
  g.association.isSome && !g.deleted && g.object.memory == m

def Process.newGlobalRef (s : Process) (object : JavaBuffer) : Process :=
  { s with globalRefs := s.globalRefs ++ [⟨object, none, false⟩] }

/-- `DeleteGlobalRef`. A second deletion of one reference, which JNI leaves undefined,
changes nothing here. -/
def Process.deleteGlobalRef (s : Process) (ref : Nat) : Process :=
  { s with globalRefs := s.globalRefs.modify ref fun g => { g with deleted := true } }

/-- `Finalizer::AssociatePointerWithGlobalReference`. -/
def Process.associatePointerWithGlobalReference (s : Process) (ptr ref : Nat) : Process :=
  { s with
    globalReferences := Function.update s.globalReferences ptr (some (some ref))
    globalRefs := s.globalRefs.modify ref fun g => { g with association := some ptr } }

/-- `Finalizer::ReleaseGlobalReferenceByPointer`. -/
def Process.releaseGlobalReferenceByPointer (s : Process) (ptr : Nat) : Process :=
  match (s.globalReferences ptr).join with
  | none => { s with globalReferences := Function.update s.globalReferences ptr (some none) }
  | some object =>
    let s := s.deleteGlobalRef object
    { s with globalReferences := Function.update s.globalReferences ptr none }

/-- What both channels do with a reply, `received` being what Dart will read. -/
def Process.wrap (s : Process) (reply : JavaBuffer) (received : Option View) : Process :=
  let s := (s.newGlobalRef reply).associatePointerWithGlobalReference reply.buffer.address
    s.globalRefs.length
  { s with wrappers := s.wrappers ++ [⟨reply.memory, received, false⟩] }

/-- A direct ByteBuffer points into memory that is still there. Java pads its
allocations, so that the empty slice at the end of one points into it too. -/
def Process.holds (s : Process) (b : JavaBuffer) : Bool :=
  s.allocations[b.memory]?.any fun x => x.contains b.buffer.address

def step (s : Process) : Event → Option Process
  | .allocate start size =>
    if s.allocations.all fun x => x.apart start size then
      some { s with allocations := s.allocations ++ [⟨start, size, false⟩] }
    else none
  | .collect m =>
    -- when Java itself still uses the memory, the collector does not do this yet
    if s.globalRefs.all fun g => g.deleted || g.object.memory != m then
      some { s with
        allocations := s.allocations.modify m fun x => { x with collected := true } }
    else none
  | .replyMessageToDart replyId reply fresh =>
    if s.holds reply then some (s.wrap reply (fresh.fill replyId reply.buffer).received) else none
  | .sendSynchronousMessageToPlatform result fresh =>
    if s.holds result then some (s.wrap result (fresh.fill result.buffer).received) else none
  | .receive k =>
    match s.wrappers[k]? with
    | some w =>
      if w.freed then none
      else
        let s := { s with wrappers := s.wrappers.set k { w with freed := true } }
        match w.received with
        | none => some s
        | some view => some { s with views := s.views ++ [⟨w.memory, view, false⟩] }
    | none => none
  | .dartFinalizer k =>
    match s.views[k]? with
    | some v =>
      if v.fired then none
      else
        let s := { s with views := s.views.set k { v with fired := true } }
        some (s.releaseGlobalReferenceByPointer v.view.address)
    | none => none

/-- The reply of a step, and what Dart will read in its wrapper. -/
def Event.reply : Event → Option (JavaBuffer × Option View)
  | .replyMessageToDart replyId reply fresh =>
    some (reply, (fresh.fill replyId reply.buffer).received)
  | .sendSynchronousMessageToPlatform result fresh =>
    some (result, (fresh.fill result.buffer).received)
  | _ => none

/-- Everything one step can do, with what was true before it. -/
inductive Moves (s : Process) : Event → Process → Prop where
  | allocate {start size : Nat} (apart : ∀ x ∈ s.allocations, x.apart start size = true) :
      Moves s (.allocate start size)
        { s with allocations := s.allocations ++ [⟨start, size, false⟩] }
  | collect {m : Nat}
      (unused : ∀ g ∈ s.globalRefs, g.deleted = true ∨ g.object.memory ≠ m) :
      Moves s (.collect m)
        { s with allocations := s.allocations.modify m fun x => { x with collected := true } }
  | reply {e : Event} {b : JavaBuffer} {received : Option View}
      (is : e.reply = some (b, received)) (held : s.holds b = true) :
      Moves s e (s.wrap b received)
  | receive {k : Nat} {w : Wrapped} {view : View} (at_ : s.wrappers[k]? = some w)
      (unread : w.freed = false) (shows : w.received = some view) :
      Moves s (.receive k) { s with
        wrappers := s.wrappers.set k { w with freed := true }
        views := s.views ++ [⟨w.memory, view, false⟩] }
  | receiveNull {k : Nat} {w : Wrapped} (at_ : s.wrappers[k]? = some w)
      (unread : w.freed = false) (shows : w.received = none) :
      Moves s (.receive k) { s with wrappers := s.wrappers.set k { w with freed := true } }
  | finalize {k : Nat} {v : DartView} (at_ : s.views[k]? = some v) (live : v.fired = false) :
      Moves s (.dartFinalizer k)
        (Process.releaseGlobalReferenceByPointer
          { s with views := s.views.set k { v with fired := true } } v.view.address)

theorem step_moves {s t : Process} {e : Event} (h : step s e = some t) : Moves s e t := by
  cases e with
  | allocate start size =>
    simp only [step] at h
    split at h
    · rename_i ha
      cases h
      exact .allocate (List.all_eq_true.mp ha)
    · cases h
  | collect m =>
    simp only [step] at h
    split at h
    · rename_i hu
      cases h
      refine .collect ?_
      intro g hg
      simpa using List.all_eq_true.mp hu g hg
    · cases h
  | replyMessageToDart replyId reply fresh =>
    simp only [step] at h
    split at h
    · cases h; exact .reply rfl ‹_›
    · cases h
  | sendSynchronousMessageToPlatform result fresh =>
    simp only [step] at h
    split at h
    · cases h; exact .reply rfl ‹_›
    · cases h
  | receive k =>
    simp only [step] at h
    split at h
    · rename_i w hw
      split at h
      · cases h
      rename_i hf
      have hf : w.freed = false := by simpa using hf
      split at h
      · cases h; exact .receiveNull hw hf ‹_›
      · cases h; exact .receive hw hf ‹_›
    · cases h
  | dartFinalizer k =>
    simp only [step] at h
    split at h
    · rename_i v hv
      split at h
      · cases h
      rename_i hf
      cases h
      exact .finalize hv (by simpa using hf)
    · cases h

end NativeChannel.Finalizer
