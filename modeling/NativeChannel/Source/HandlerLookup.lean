import NativeChannel.Library.Runs
import NativeChannel.Source.MessageHandlers

namespace NativeChannel.HandlerLookup
open MessageHandlers (Kind)

/-- The statics of jni_helper.cc. -/
inductive Static where
  | jvm
  | classLoader
  | findClassMethod
  | runtimeClass
  | runtime
  | gcMethod
  deriving DecidableEq

/-- What `JNI_OnLoad` sets, in order: `jvm_`, then `StoreClassLoader` and `StoreGCMethod`. -/
def jniOnLoad : List Static :=
  [.jvm, .classLoader, .findClassMethod, .runtimeClass, .runtime, .gcMethod]

/-- What is read to set each of them. A `JniEnv` reads `jvm_`, and `FindClass` reads the
class loader and its method. -/
def Static.reads : Static → List Static
  | .jvm => []
  | .classLoader | .findClassMethod => [.jvm]
  | .runtimeClass => [.jvm, .classLoader, .findClassMethod]
  | .runtime | .gcMethod => [.jvm, .runtimeClass]

/-- Where a call of `InitializeChannel`, or of `SendSynchronousMessageToPlatform`, stands
with `if (handle_message_from_dart_class_ == nullptr)`. The workers that the first of them
starts are in `ready` with it. -/
inductive Phase where
  | entered
  | missing
  | stored
  | ready
  | returned
  deriving DecidableEq

/-- One channel in the process. `pending` are the assignments that `JNI_OnLoad` has yet to
make. A class is known by its global reference, and a method by its class. The last field
and `classRefs` are history: a null static was used, and how many references to the class
were made. -/
structure Process where
  pending : List Static
  handleMessageFromDartClass : Option Nat
  handleMessageFromDartMethod : Option Nat
  calls : List Phase
  classRefs : Nat
  unset : Bool
  deriving DecidableEq

/-- `test` is of the class for null, `call` is the one of `handleMessageFromDart`. -/
inductive Event where
  | onLoad
  | triggerGC
  | enter
  | test (j : Nat)
  | storeClass (j : Nat)
  | storeMethod (j : Nat)
  | call (j : Nat)
  deriving DecidableEq

def Process.initial : Process := ⟨jniOnLoad, none, none, [], 0, false⟩

def Process.setCall (s : Process) (j : Nat) (x : Phase) : Process :=
  { s with calls := s.calls.set j x }

def Process.read (s : Process) (statics : List Static) : Process :=
  { s with unset := s.unset || statics.any fun x => x ∈ s.pending }

/-- The synchronous function has a `JniEnv` from its start, `InitializeChannel` one in the
block, and each worker its own. -/
def entryReads : Kind → List Static
  | .synchronous => [.jvm]
  | .concurrent => []

def lookupReads : Kind → List Static
  | .synchronous => [.classLoader, .findClassMethod]
  | .concurrent => [.jvm, .classLoader, .findClassMethod]

def callReads : Kind → List Static
  | .synchronous => []
  | .concurrent => [.jvm]

/-- A worker goes on with the next message. -/
def afterCall : Kind → Phase
  | .synchronous => .returned
  | .concurrent => .ready

/-- Nothing is known of a process that used a null static. The classes are in the
application, and `FindClass` finds them. -/
def step (kind : Kind) (s : Process) (e : Event) : Option Process :=
  if s.unset then none else
  match e with
  | .onLoad =>
    match s.pending with
    | x :: rest => some { s.read x.reads with pending := rest }
    | [] => none
  | .triggerGC => some (s.read [.jvm, .runtime, .gcMethod])
  | .enter => some { s.read (entryReads kind) with calls := s.calls ++ [.entered] }
  | .test j =>
    match s.calls[j]? with
    | some .entered =>
      some (s.setCall j (if s.handleMessageFromDartClass.isNone then .missing else .ready))
    | _ => none
  | .storeClass j =>
    match s.calls[j]? with
    | some .missing =>
      some { (s.read (lookupReads kind)).setCall j .stored with
        handleMessageFromDartClass := some s.classRefs
        classRefs := s.classRefs + 1 }
    | _ => none
  | .storeMethod j =>
    match s.calls[j]? with
    | some .stored =>
      some { s.setCall j .ready with
        handleMessageFromDartMethod := s.handleMessageFromDartClass
        unset := s.handleMessageFromDartClass.isNone }
    | _ => none
  | .call j =>
    match s.calls[j]? with
    | some .ready =>
      let t := (s.read (callReads kind)).setCall j (afterCall kind)
      some { t with
        unset := t.unset || s.handleMessageFromDartClass.isNone ||
          s.handleMessageFromDartMethod.isNone }
    | _ => none

/-- Everything one step can do, with what was true before it. -/
inductive Moves (kind : Kind) (s : Process) : Event → Process → Prop where
  | onLoad {x : Static} {rest : List Static} (next : s.pending = x :: rest) :
      Moves kind s .onLoad { s.read x.reads with pending := rest }
  | triggerGC : Moves kind s .triggerGC (s.read [.jvm, .runtime, .gcMethod])
  | enter : Moves kind s .enter { s.read (entryReads kind) with calls := s.calls ++ [.entered] }
  | testNull {j : Nat} (at_ : s.calls[j]? = some .entered)
      (null : s.handleMessageFromDartClass = none) : Moves kind s (.test j) (s.setCall j .missing)
  | test {j : Nat} (at_ : s.calls[j]? = some .entered)
      (known : s.handleMessageFromDartClass.isSome = true) :
      Moves kind s (.test j) (s.setCall j .ready)
  | storeClass {j : Nat} (at_ : s.calls[j]? = some .missing) :
      Moves kind s (.storeClass j) { (s.read (lookupReads kind)).setCall j .stored with
        handleMessageFromDartClass := some s.classRefs
        classRefs := s.classRefs + 1 }
  | storeMethod {j : Nat} (at_ : s.calls[j]? = some .stored) :
      Moves kind s (.storeMethod j) { s.setCall j .ready with
        handleMessageFromDartMethod := s.handleMessageFromDartClass
        unset := s.handleMessageFromDartClass.isNone }
  | call {j : Nat} (at_ : s.calls[j]? = some .ready) :
      Moves kind s (.call j) { (s.read (callReads kind)).setCall j (afterCall kind) with
        unset := (s.read (callReads kind)).unset || s.handleMessageFromDartClass.isNone ||
          s.handleMessageFromDartMethod.isNone }

theorem step_moves {kind : Kind} {s t : Process} {e : Event} (h : step kind s e = some t) :
    s.unset = false ∧ Moves kind s e t := by
  unfold step at h
  split at h
  · cases h
  rename_i hu
  refine ⟨by simpa using hu, ?_⟩
  cases e with
  | onLoad =>
    simp only at h
    split at h
    · cases h
      exact .onLoad ‹_›
    · cases h
  | triggerGC =>
    cases h
    exact .triggerGC
  | enter =>
    cases h
    exact .enter
  | test j =>
    simp only at h
    split at h
    · rename_i hj
      cases h
      cases hc : s.handleMessageFromDartClass with
      | none => exact .testNull hj hc
      | some r => exact .test hj (by simp [hc])
    · cases h
  | storeClass j =>
    simp only at h
    split at h
    · cases h
      exact .storeClass ‹_›
    · cases h
  | storeMethod j =>
    simp only at h
    split at h
    · cases h
      exact .storeMethod ‹_›
    · cases h
  | call j =>
    simp only at h
    split at h
    · cases h
      exact .call ‹_›
    · cases h

end NativeChannel.HandlerLookup
