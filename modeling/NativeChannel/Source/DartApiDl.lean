import NativeChannel.Source.ConcurrentChannel

namespace NativeChannel.DartApiDl
open ConcurrentChannel (Event)

/-- `DartApiEntry`. Functions of the Dart VM are known by number. -/
structure DartApiEntry where
  name : String
  function : Option Nat
  deriving DecidableEq

/-- `DartApi`, with the entries up to the one whose name is null. -/
structure DartApi where
  major : Int
  minor : Int
  functions : List DartApiEntry
  deriving DecidableEq

/-- `DART_API_DL_MAJOR_VERSION`. -/
def majorVersion : Int := 2

/-- `DART_API_ALL_DL_SYMBOLS`. -/
def allDLSymbols : List String :=
  ["Dart_PostCObject", "Dart_PostInteger", "Dart_NewNativePort", "Dart_CloseNativePort",
    "Dart_IsError", "Dart_IsApiError", "Dart_IsUnhandledExceptionError", "Dart_IsCompilationError",
    "Dart_IsFatalError", "Dart_GetError", "Dart_ErrorHasException", "Dart_ErrorGetException",
    "Dart_ErrorGetStackTrace", "Dart_NewApiError", "Dart_NewCompilationError",
    "Dart_NewUnhandledExceptionError", "Dart_PropagateError", "Dart_HandleFromPersistent",
    "Dart_HandleFromWeakPersistent", "Dart_NewPersistentHandle", "Dart_SetPersistentHandle",
    "Dart_DeletePersistentHandle", "Dart_NewWeakPersistentHandle",
    "Dart_DeleteWeakPersistentHandle", "Dart_UpdateExternalSize", "Dart_NewFinalizableHandle",
    "Dart_DeleteFinalizableHandle", "Dart_UpdateFinalizableExternalSize", "Dart_Post",
    "Dart_NewSendPort", "Dart_SendPortGetId", "Dart_EnterScope", "Dart_ExitScope"]

/-- The variables with the suffix `_DL`. -/
abbrev Pointers := String → Option Nat

def findFunctionPointer : List DartApiEntry → String → Option Nat
  | [], _ => none
  | entry :: entries, name =>
    if entry.name = name then entry.function else findFunctionPointer entries name

/-- `Dart_InitializeApiDL`, with what it returns. -/
def initializeApiDL (data : DartApi) (pointers : Pointers) : Int × Pointers :=
  if data.major ≠ majorVersion then (-1, pointers)
  else
    (0, fun name =>
      if name ∈ allDLSymbols then findFunctionPointer data.functions name else pointers name)

/-- The concurrent channel in a Dart VM, and the pointers its native code calls through. -/
structure Process where
  channel : ConcurrentChannel.Process
  pointers : Pointers
  calledNull : Bool

def Process.initial : Process := ⟨ConcurrentChannel.Process.initial, fun _ => none, false⟩

/-- Whether `InitializeChannel` runs in a step. -/
def runsInitializeChannel (s : ConcurrentChannel.Process) : Event → Bool
  | .newConcurrentMethodChannel a messenger _ => !messenger && !(s.isolates a).constructed
  | .instance_ a _ => !(s.isolates a).constructed
  | _ => false

/-- `RegisterFinalizer`, when there is a view. -/
def registerFinalizerCalls (view : Option Wrapper.View) : List String :=
  if view.isSome then ["Dart_NewWeakPersistentHandle"] else []

section Vm
variable [Wrapper.Vm]

/-- The functions of the VM that native code calls in a step. -/
def calls (s : ConcurrentChannel.Process) : Event → List String
  | .sendSynchronous _ result fresh => registerFinalizerCalls (fresh.fill result).built
  | .handle k e fresh => (s.replies (.handle k e fresh)).map fun _ => "Dart_PostInteger"
  | .onReply a =>
    match (s.isolates a).replyPort with
    | w :: _ => registerFinalizerCalls w.val.built
    | [] => []
  | _ => []

/-- `InitializeChannel` does not look at what `Dart_InitializeApiDL` returns. A process that
called a null pointer takes no further step. -/
def step (data : DartApi) (s : Process) (e : Event) : Option Process :=
  if s.calledNull then none
  else (ConcurrentChannel.step s.channel e).map fun channel =>
    { channel
      pointers :=
        if runsInitializeChannel s.channel e then (initializeApiDL data s.pointers).2
        else s.pointers
      calledNull := (calls s.channel e).any fun name => (s.pointers name).isNone }

end Vm

end NativeChannel.DartApiDl
