import NativeChannel.Library.Runs

namespace NativeChannel.JniHelper

/-- The JNIEnv of an attached thread and how many local references are live in it.
`id` tells the JNIEnv from those of earlier attachments. -/
structure JNIEnv where
  id : Nat
  localRefs : Nat
  deriving DecidableEq

/-- A thread, as the JavaVM knows it. The calls it made are history. -/
structure Thread where
  env : Option JNIEnv
  attachCalls : Nat
  detachCalls : Nat
  deriving DecidableEq

/-- A thread that this library did not attach yet. It has a JNIEnv, with so many
local references, where the embedder attached it. -/
def Thread.initial (localRefs : Option Nat) : Thread := ⟨localRefs.map (⟨0, ·⟩), 0, 0⟩

def Thread.attached (t : Thread) : Bool := t.env.isSome

def Thread.localRefs (t : Thread) : Nat := (t.env.map JNIEnv.localRefs).getD 0

/-- `GetEnv`, null standing for JNI_EDETACHED. -/
def Thread.getEnv (t : Thread) : Option Nat := t.env.map JNIEnv.id

def Thread.attachCurrentThread (t : Thread) : Thread :=
  { t with env := some ⟨t.attachCalls + 1, 0⟩, attachCalls := t.attachCalls + 1 }

def Thread.detachCurrentThread (t : Thread) : Thread :=
  { t with env := none, detachCalls := t.detachCalls + 1 }

/-- JNI functions that return references add that many local ones. -/
def Thread.newLocalRefs (t : Thread) (created : Nat) : Thread :=
  { t with env := t.env.map fun env => { env with localRefs := env.localRefs + created } }

/-- The class `JniEnv`. -/
structure JniEnv where
  env : Option Nat
  needDetach : Bool
  deriving DecidableEq

/-- `JniEnv::JniEnv`. -/
def JniEnv.construct (t : Thread) : Thread × JniEnv :=
  match t.getEnv with
  | some env => (t, ⟨some env, false⟩)
  | none =>
    let t := t.attachCurrentThread
    (t, ⟨t.getEnv, true⟩)

/-- `JniEnv::~JniEnv`. -/
def JniEnv.destroy (e : JniEnv) (t : Thread) : Thread :=
  if e.needDetach then t.detachCurrentThread else t

/-- A JniEnv variable and, as history, whether the thread was attached before it. -/
structure Scope where
  jni : JniEnv
  before : Bool
  deriving DecidableEq

/-- A thread inside its scopes, the innermost first. The rest is history: the attach
state before and after each closed scope, how many scopes were still open at each
`DetachCurrentThread`, and a call through a JniEnv that was not the thread's. -/
structure Nested where
  thread : Thread
  scopes : List Scope
  closed : List (Bool × Bool)
  detachedUnder : List Nat
  misused : Bool
  deriving DecidableEq

inductive Event where
  | construct
  | call (scope created : Nat)
  | destroy
  deriving DecidableEq

def Nested.initial (localRefs : Option Nat) : Nested :=
  ⟨Thread.initial localRefs, [], [], [], false⟩

/-- The scopes of C++ close in the opposite order of their opening. Code may call
through any JniEnv in scope. -/
def step (s : Nested) : Event → Option Nested
  | .construct =>
    let (thread, jni) := JniEnv.construct s.thread
    some { s with thread, scopes := ⟨jni, s.thread.attached⟩ :: s.scopes }
  | .call k created =>
    match s.scopes[k]? with
    | some sc =>
      if sc.jni.env.isSome && sc.jni.env = s.thread.getEnv then
        some { s with thread := s.thread.newLocalRefs created }
      else some { s with misused := true }
    | none => none
  | .destroy =>
    match s.scopes with
    | sc :: rest =>
      let thread := sc.jni.destroy s.thread
      some { s with
        thread
        scopes := rest
        closed := s.closed ++ [(sc.before, thread.attached)]
        detachedUnder :=
          if sc.jni.needDetach then s.detachedUnder ++ [rest.length] else s.detachedUnder }
    | [] => none

/-- Native code, as far as its JniEnv variables go: JNI functions called through the
innermost one, each with the local references it returns, and blocks that have a
JniEnv of their own. What a call into Java enters comes right after it. -/
inductive Code where
  | done
  | call (created : Nat) (rest : Code)
  | scope (body rest : Code)
  deriving DecidableEq

def Code.andThen : Code → Code → Code
  | .done, next => next
  | .call created rest, next => .call created (rest.andThen next)
  | .scope body rest, next => .scope body (rest.andThen next)

def Code.events : Code → List Event
  | .done => []
  | .call created rest => .call 0 created :: rest.events
  | .scope body rest => .construct :: (body.events ++ .destroy :: rest.events)

/-- What the code does to the thread it runs on. -/
def Code.exec : Code → Thread → Thread
  | .done, t => t
  | .call created rest, t => rest.exec (t.newLocalRefs created)
  | .scope body rest, t =>
    let (inside, jni) := JniEnv.construct t
    rest.exec (jni.destroy (body.exec inside))

/-- `JniHelper::FindClass`: the string with the name, and the class. -/
def findClass (rest : Code) : Code := .call 1 (.call 1 rest)

/-- The lookup of `handle_message_from_dart_class_` and of its method. -/
def storeHandleMessageFromDart (rest : Code) : Code := findClass (.call 0 (.call 0 rest))

/-- The loop body of `SendConcurrentMessageToPlatformWorker`. `java` is what the Java
code it calls enters. -/
def sendConcurrentMessageToPlatformWorker (java : Code) : Code :=
  .scope (.call 1 (.call 0 java)) .done

def initializeChannel (classKnown : Bool) : Code :=
  if classKnown then .done else .scope (storeHandleMessageFromDart .done) .done

/-- `ReleaseGlobalReferenceByPointer`, whose `JniEnv` is in the branch for an object
that was found. -/
def releaseGlobalReferenceByPointer (found : Bool) (java : Code) : Code :=
  if found then .scope (.call 0 (.call 0 java)) .done else .done

/-- `SendSynchronousMessageToPlatform`. Java's answer is a local reference, unless it
is null. -/
def sendSynchronousMessageToPlatform (classKnown result : Bool) (java : Code) : Code :=
  let send := .call 1 (java.andThen (.call (if result then 1 else 0) (.call 0 .done)))
  .scope (if classKnown then send else storeHandleMessageFromDart send) .done

end NativeChannel.JniHelper
