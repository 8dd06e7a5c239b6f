import NativeChannel.Source.ConcurrentMessenger
import NativeChannel.Source.MessageHandlers
import NativeChannel.Source.Wrapper

namespace NativeChannel.MethodChannel
open ByteMemory Wrapper
open ConcurrentMessenger (Exception)
open MessageHandlers (Kind Messengers)

/-- A ByteData or Uint8List of Dart: a window on a buffer. -/
structure TypedData where
  buffer : List UInt8
  offset : Nat
  length : Nat
  fits : offset + length ≤ buffer.length

def TypedData.bytes (d : TypedData) : List UInt8 := (d.buffer.drop d.offset).take d.length

/-- A window on a whole buffer, as `asTypedList` and `ByteData.view` make it. -/
def TypedData.whole (buffer : List UInt8) : TypedData := ⟨buffer, 0, buffer.length, by omega⟩

/-- `d.buffer.asUint8List(0, d.lengthInBytes)`. -/
def TypedData.asUint8List (d : TypedData) : TypedData :=
  ⟨d.buffer, 0, d.length, by have := d.fits; omega⟩

/-- Values of the codec, `none` being null, are of an open type `V`. -/
structure MethodCall (V : Type) where
  method : String
  arguments : Option V
  deriving DecidableEq

/-- What `decodeEnvelope` returns or throws. -/
inductive Decoded (V : Type) where
  | value (v : Option V)
  | platformException (code : String) (message : Option String) (details : Option V)
      (stacktrace : Option String)
  | formatException
  deriving DecidableEq

/-- A MethodCodec, of which Dart encodes calls and decodes envelopes, and the
platform does the rest. -/
structure MethodCodec (V : Type) where
  encodeMethodCall : MethodCall V → TypedData
  decodeMethodCall : List UInt8 → Except Exception (MethodCall V)
  encodeSuccessEnvelope : Option V → List UInt8
  encodeErrorEnvelope : Option String → Option String → Option V → List UInt8
  encodeErrorEnvelopeWithStacktrace :
    Option String → Option String → Option V → String → List UInt8
  decodeEnvelope : List UInt8 → Decoded V

/-- What the application's handler does with a call: it submits a result, or
throws a RuntimeException before it has submitted any. -/
inductive Answer (V : Type) where
  | success (result : Option V)
  | error (errorCode errorMessage : Option String) (errorDetails : Option V)
  | notImplemented
  | throws (message : Option String) (stackTrace : String)
  deriving DecidableEq

abbrev MethodCallHandler (V : Type) := MethodCall V → Answer V

/-- What `invokeMethod` returns or throws. `pendingException` is a return to native
code with a Java exception pending, from where on nothing is known. -/
inductive Outcome (V : Type) where
  | value (v : Option V)
  | platformException (code : String) (message : Option String) (details : Option V)
      (stacktrace : Option String)
  | missingPluginException
  | formatException
  | typeError
  | pendingException
  deriving DecidableEq

variable {V : Type}

/-- `onMessage` of the concurrent channel, down to what it hands to `reply.reply`.
Only decoding the call can throw past it. -/
def concurrentOnMessage (codec : MethodCodec V) (handler : MethodCallHandler V)
    (message : List UInt8) : Except Exception (Option (List UInt8)) := do
  let call ← codec.decodeMethodCall message
  return match handler call with
    | .success result => some (codec.encodeSuccessEnvelope result)
    | .error errorCode errorMessage errorDetails =>
      some (codec.encodeErrorEnvelope errorCode errorMessage errorDetails)
    | .notImplemented => none
    | .throws message stackTrace =>
      some (codec.encodeErrorEnvelopeWithStacktrace (some "error") message none stackTrace)

inductive SynchronousResult.ResultType where
  | success
  | error
  | unimplemented
  deriving DecidableEq

/-- `SynchronousResult`, whose constructor is private: it is made by the three
functions below. -/
structure SynchronousResult (V : Type) where
  type : SynchronousResult.ResultType
  result : Option V
  errorCode : Option String
  errorMessage : Option String
  errorDetails : Option V
  deriving DecidableEq

def SynchronousResult.ofType (type : SynchronousResult.ResultType) : SynchronousResult V :=
  ⟨type, none, none, none, none⟩

def SynchronousResult.success (result : Option V) : SynchronousResult V :=
  { SynchronousResult.ofType .success with result }

def SynchronousResult.error (errorCode errorMessage : Option String) (errorDetails : Option V) :
    SynchronousResult V :=
  { SynchronousResult.ofType .error with errorCode, errorMessage, errorDetails }

def SynchronousResult.notImplemented : SynchronousResult V := SynchronousResult.ofType .unimplemented

def SynchronousResult.encodeEnvelope (r : SynchronousResult V) (codec : MethodCodec V) :
    Option (List UInt8) :=
  match r.type with
  | .success => some (codec.encodeSuccessEnvelope r.result)
  | .error => some (codec.encodeErrorEnvelope r.errorCode r.errorMessage r.errorDetails)
  | .unimplemented => none

/-- The answer as a handler of the synchronous channel gives it: a result, or the
message and stack trace of what it throws. -/
def Answer.synchronous : Answer V → Except (Option String × String) (SynchronousResult V)
  | .success result => .ok (SynchronousResult.success result)
  | .error errorCode errorMessage errorDetails =>
    .ok (SynchronousResult.error errorCode errorMessage errorDetails)
  | .notImplemented => .ok SynchronousResult.notImplemented
  | .throws message stackTrace => .error (message, stackTrace)

/-- `onMessage` of the synchronous channel. -/
def synchronousOnMessage (codec : MethodCodec V) (handler : MethodCallHandler V)
    (message : List UInt8) : Except Exception (Option (List UInt8)) := do
  let call ← codec.decodeMethodCall message
  return match (handler call).synchronous with
    | .ok result => result.encodeEnvelope codec
    | .error (message, stackTrace) =>
      some (codec.encodeErrorEnvelopeWithStacktrace (some "error") message none stackTrace)

/-- `handleMessageFromDart` of the concurrent messenger, down to the one reply it
brings about. -/
def concurrentReply (codec : MethodCodec V) (messengers : Messengers (MethodCallHandler V))
    (channel : BitVec 64) (message : List UInt8) : Option (List UInt8) :=
  match messengers.handleMessageFromDart .concurrent channel with
  | some incoming =>
    match concurrentOnMessage codec incoming.handler message with
    | .ok reply => reply
    | .error _ => none
  | none => none

/-- `handleMessageFromDart` of the synchronous messenger. -/
def synchronousReply (codec : MethodCodec V) (messengers : Messengers (MethodCallHandler V))
    (channel : BitVec 64) (message : List UInt8) : Except Exception (Option (List UInt8)) :=
  match messengers.handleMessageFromDart .synchronous channel with
  | some incoming => synchronousOnMessage codec incoming.handler message
  | none => .ok none

def platformReply (kind : Kind) (codec : MethodCodec V)
    (messengers : Messengers (MethodCallHandler V)) (channel : BitVec 64)
    (message : List UInt8) : Except Exception (Option (List UInt8)) :=
  match kind with
  | .concurrent => .ok (concurrentReply codec messengers channel message)
  | .synchronous => synchronousReply codec messengers channel message

/-- The way of a reply to Dart: the direct ByteBuffer it is in, the memory around
it, and the two kinds of wrappers as `new` left them. -/
structure Transport where
  memory : Memory
  allocateDirect : List UInt8 → DirectByteBuffer
  replyId : Int
  freshMessage : MessageWrapper
  freshResult : SynchronousResultWrapper

/-- What the `send` of either messenger gives for a reply. Where `asTypedList` throws for the
length, in the wrapper of a null reply, the view stands for the error. -/
def Transport.send (t : Transport) (kind : Kind) (reply : Option (List UInt8)) : Option TypedData :=
  let view :=
    match kind with
    | .concurrent => (t.freshMessage.fill t.replyId (reply.map t.allocateDirect)).received
    | .synchronous => (t.freshResult.fill (reply.map t.allocateDirect)).received
  view.map fun v => TypedData.whole (v.bytes t.memory)

/-- The end of `invokeMethod<T>`, where `isT` stands for the cast `as T`. -/
def present (codec : MethodCodec V) (isT : Option V → Bool) : Option TypedData → Outcome V
  | none => .value none
  | some result =>
    match codec.decodeEnvelope (TypedData.whole result.buffer).bytes with
    | .value v => if isT v then .value v else .typeError
    | .platformException code message details stacktrace =>
      .platformException code message details stacktrace
    | .formatException => .formatException

/-- The bytes that `invokeMethod` sends for a call. -/
def messageOf (codec : MethodCodec V) (call : MethodCall V) : List UInt8 :=
  (codec.encodeMethodCall call).asUint8List.bytes

/-- `invokeMethod<T>` of the two Dart channels, through the platform and back. -/
def invokeMethod (kind : Kind) (codec : MethodCodec V)
    (messengers : Messengers (MethodCallHandler V)) (id : BitVec 64) (t : Transport)
    (isT : Option V → Bool) (call : MethodCall V) : Outcome V :=
  match platformReply kind codec messengers id (messageOf codec call) with
  | .ok reply => present codec isT (t.send kind reply)
  | .error _ => .pendingException

/-- One run of `invokeMethod` between its codec and its messenger: what it hands to
`messenger.send`, what to `codec.decodeEnvelope`, if it gets that far, and how it ends. -/
structure Invocation (V : Type) where
  sent : TypedData
  decoded : Option TypedData
  outcome : Outcome V

/-- The body that `invokeMethod<T>` has in both Dart channels, up to the `await`.
`send` is the messenger's. -/
def invoke (codec : MethodCodec V) (send : BitVec 64 → TypedData → Option TypedData)
    (id : BitVec 64) (isT : Option V → Bool) (call : MethodCall V) : Invocation V :=
  let encodedMethodCall := codec.encodeMethodCall call
  let message := encodedMethodCall.asUint8List
  match send id message with
  | none => ⟨message, none, present codec isT none⟩
  | some result =>
    ⟨message, some (TypedData.whole result.buffer), present codec isT (some result)⟩

def concurrentInvokeMethod (codec : MethodCodec V)
    (send : BitVec 64 → TypedData → Option TypedData) (id : BitVec 64) (isT : Option V → Bool)
    (call : MethodCall V) : Invocation V := invoke codec send id isT call

def synchronousInvokeMethod (codec : MethodCodec V)
    (send : BitVec 64 → TypedData → Option TypedData) (id : BitVec 64) (isT : Option V → Bool)
    (call : MethodCall V) : Invocation V := invoke codec send id isT call

/-- A messenger's `send` where the platform answers. Without an answer the caller does not
run on, and null stands for whatever it would see. -/
def platformSend (kind : Kind) (codec : MethodCodec V)
    (messengers : Messengers (MethodCallHandler V)) (t : Transport) (id : BitVec 64)
    (message : TypedData) : Option TypedData :=
  match platformReply kind codec messengers id message.bytes with
  | .ok reply => t.send kind reply
  | .error _ => none

end NativeChannel.MethodChannel
