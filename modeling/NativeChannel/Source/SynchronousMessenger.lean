import NativeChannel.Source.MethodChannel

namespace NativeChannel.SynchronousMessenger
open ConcurrentMessenger (Exception)
open MessageHandlers (Messengers)
open MethodChannel (MethodCall SynchronousResult)
open Wrapper

/-- What the platform uses of a MethodCodec. Each function may throw. -/
structure PlatformCodec (V : Type) where
  decodeMethodCall : Option (List UInt8) → Except Exception (MethodCall V)
  encodeSuccessEnvelope : Option V → Except Exception DirectByteBuffer
  encodeErrorEnvelope :
    Option String → Option String → Option V → Except Exception DirectByteBuffer
  encodeErrorEnvelopeWithStacktrace :
    Option String → Option String → Option V → String → Except Exception DirectByteBuffer

/-- A handler of the synchronous channel returns a result or throws. -/
abbrev MethodCallHandler (V : Type) := MethodCall V → Except Exception (SynchronousResult V)

/-- A handler together with the codec of the channel it is registered through. -/
structure Registered (V : Type) where
  codec : PlatformCodec V
  handler : MethodCallHandler V

variable {V : Type} (getStackTrace : Exception → String)

/-- `SynchronousResult.encodeEnvelope`. -/
def encodeEnvelope (r : SynchronousResult V) (codec : PlatformCodec V) :
    Except Exception (Option DirectByteBuffer) :=
  match r.type with
  | .success => (codec.encodeSuccessEnvelope r.result).map some
  | .error => (codec.encodeErrorEnvelope r.errorCode r.errorMessage r.errorDetails).map some
  | .unimplemented => .ok none

/-- The try block of `onMessage`. -/
def answer (r : Registered V) (call : MethodCall V) : Except Exception (Option DirectByteBuffer) := do
  let result ← r.handler call
  encodeEnvelope result r.codec

/-- Its catch clause, which is for RuntimeException. -/
def answerError (r : Registered V) (e : Exception) : Except Exception (Option DirectByteBuffer) :=
  if e.isRuntime then
    (r.codec.encodeErrorEnvelopeWithStacktrace (some "error") e.message none
      (getStackTrace e)).map some
  else .error e

/-- `IncomingMethodCallHandler.onMessage`. The call is decoded before the try block. -/
def onMessage (r : Registered V) (message : Option (List UInt8)) :
    Except Exception (Option DirectByteBuffer) := do
  let call ← r.codec.decodeMethodCall message
  match answer r call with
  | .ok reply => .ok reply
  | .error e => answerError getStackTrace r e

/-- `SynchronousNativeBinaryMessenger.handleMessageFromDart`, which catches nothing. -/
def handleMessageFromDart (s : Messengers (Registered V)) (channel : BitVec 64)
    (message : Option (List UInt8)) : Except Exception (Option DirectByteBuffer) :=
  match s.handleMessageFromDart .synchronous channel with
  | some incoming => onMessage getStackTrace incoming.handler message
  | none => .ok none

/-- How `CallStaticObjectMethod` comes back: with the object, or with null and the
exception pending. -/
structure JavaReturn where
  value : Option DirectByteBuffer
  pendingException : Option Exception

def callStaticObjectMethod : Except Exception (Option DirectByteBuffer) → JavaReturn
  | .ok value => ⟨value, none⟩
  | .error e => ⟨none, some e⟩

/-- `SendSynchronousMessageToPlatform`, from the call into Java on. It does not look for
an exception, so that one is still pending when it returns. -/
def sendSynchronousMessageToPlatform (s : Messengers (Registered V)) (channel : BitVec 64)
    (message : Option (List UInt8)) (ret : SynchronousResultWrapper) :
    SynchronousResultWrapper × Option Exception :=
  let result := callStaticObjectMethod (handleMessageFromDart getStackTrace s channel message)
  (ret.fill result.value, result.pendingException)

end NativeChannel.SynchronousMessenger
