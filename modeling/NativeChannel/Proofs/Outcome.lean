import Mathlib.Logic.Equiv.List
import NativeChannel.Library.Runs
import NativeChannel.Proofs.Framing
import NativeChannel.Source.MethodChannel

namespace NativeChannel.Outcome
open ByteMemory Wrapper MethodChannel
open ConcurrentMessenger (Exception Handler)
open MessageHandlers (Kind Messengers IncomingMethodCallHandler)

variable {V : Type}

/-- The decode functions invert the encode functions. A PlatformException has no
null code, so nothing is asked where the platform gives none. -/
structure Inverts (codec : MethodCodec V) : Prop where
  call : ∀ call, codec.decodeMethodCall (codec.encodeMethodCall call).bytes = .ok call
  success : ∀ v, codec.decodeEnvelope (codec.encodeSuccessEnvelope v) = .value v
  error : ∀ code message details,
    codec.decodeEnvelope (codec.encodeErrorEnvelope (some code) message details) =
      .platformException code message details none
  stacktrace : ∀ code message details stackTrace,
    codec.decodeEnvelope
        (codec.encodeErrorEnvelopeWithStacktrace (some code) message details stackTrace) =
      .platformException code message details (some stackTrace)

/-- The outcome that stands for what the handler did, `none` meaning that there is
no handler. -/
def Presents : Option (Answer V) → Outcome V → Prop
  | some (.success v), o => o = .value v
  | some (.error errorCode message details), o =>
    ∃ code, errorCode = some code ∧ o = .platformException code message details none
  | some (.throws message stackTrace), o =>
    o = .platformException "error" message none (some stackTrace)
  | some .notImplemented, o => o = .missingPluginException
  | none, o => o = .missingPluginException

/-- The platform decodes the call that was made, and `invokeMethod` presents what
the platform did with it. -/
structure Transparent (kind : Kind) (codec : MethodCodec V)
    (messengers : Messengers (MethodCallHandler V)) (id : BitVec 64) (t : Transport)
    (isT : Option V → Bool) (call : MethodCall V) : Prop where
  decoded : codec.decodeMethodCall (messageOf codec call) = .ok call
  presented : Presents
    ((messengers.handleMessageFromDart kind id).map fun incoming => incoming.handler call)
    (invokeMethod kind codec messengers id t isT call)

/-- The answers whose envelope exists and passes the cast in `invokeMethod`. -/
def Presentable (isT : Option V → Bool) : Answer V → Prop
  | .success v => isT v = true
  | .error errorCode _ _ => errorCode.isSome = true
  | .notImplemented => False
  | .throws _ _ => True

/-- Where there is an envelope, the direct buffer that carries it has its bytes. -/
def Carries (t : Transport) (reply : Except Exception (Option (List UInt8))) : Prop :=
  ∀ bytes, reply = .ok (some bytes) → (t.allocateDirect bytes).bytes t.memory = bytes

@[simp] theorem whole_bytes (buffer : List UInt8) : (TypedData.whole buffer).bytes = buffer := by
  simp [TypedData.whole, TypedData.bytes]

/-- An encoded call that starts where its buffer starts is sent as it is. -/
theorem messageOf_start {codec : MethodCodec V} (h : Inverts codec) {call : MethodCall V}
    (hstart : (codec.encodeMethodCall call).offset = 0) :
    codec.decodeMethodCall (messageOf codec call) = .ok call := by
  have hbytes : messageOf codec call = (codec.encodeMethodCall call).bytes := by
    unfold messageOf TypedData.asUint8List TypedData.bytes
    rw [hstart]
  rw [hbytes]
  exact h.call call

/-- An envelope comes through to Dart, on either channel. -/
theorem send_envelope {t : Transport} {bytes : List UInt8} (kind : Kind)
    (hheld : (t.allocateDirect bytes).bytes t.memory = bytes) :
    t.send kind (some bytes) = some (TypedData.whole bytes) := by
  have hm := (Framing.received_fill t.freshMessage t.replyId
    (some (t.allocateDirect bytes))).mpr (Or.inl rfl)
  have hr := (Framing.received_fill_result t.freshResult
    (some (t.allocateDirect bytes))).mpr (Or.inl rfl)
  have hview : (t.allocateDirect bytes).view.bytes t.memory = bytes := by
    rw [Framing.view_bytes]
    exact hheld
  cases kind with
  | concurrent => simp [Transport.send, hm, hview]
  | synchronous => simp [Transport.send, hr, hview]

/-- Nothing that `invokeMethod` does with a reply is the exception that the
documentation promises for a null reply. -/
theorem present_not_missing (codec : MethodCodec V) (isT : Option V → Bool)
    (result : Option TypedData) : present codec isT result ≠ .missingPluginException := by
  cases result with
  | none => nofun
  | some result =>
    simp only [present, whole_bytes]
    cases codec.decodeEnvelope result.buffer with
    | value v => cases hv : isT v <;> simp [hv]
    | platformException => nofun
    | formatException => nofun

theorem invokeMethod_not_missing (kind : Kind) (codec : MethodCodec V)
    (messengers : Messengers (MethodCallHandler V)) (id : BitVec 64) (t : Transport)
    (isT : Option V → Bool) (call : MethodCall V) :
    invokeMethod kind codec messengers id t isT call ≠ .missingPluginException := by
  unfold invokeMethod
  cases platformReply kind codec messengers id (messageOf codec call) with
  | error e => nofun
  | ok reply => exact present_not_missing codec isT _

/-- The envelope of an answer, the same on both channels. -/
def envelope (codec : MethodCodec V) : Answer V → Option (List UInt8)
  | .success v => some (codec.encodeSuccessEnvelope v)
  | .error errorCode message details => some (codec.encodeErrorEnvelope errorCode message details)
  | .notImplemented => none
  | .throws message stackTrace =>
    some (codec.encodeErrorEnvelopeWithStacktrace (some "error") message none stackTrace)

theorem onMessage_decoded {codec : MethodCodec V} {message : List UInt8} {call : MethodCall V}
    (handler : MethodCallHandler V) (hd : codec.decodeMethodCall message = .ok call) :
    concurrentOnMessage codec handler message = .ok (envelope codec (handler call)) ∧
      synchronousOnMessage codec handler message = .ok (envelope codec (handler call)) := by
  simp only [concurrentOnMessage, synchronousOnMessage, hd, bind, Except.bind, pure, Except.pure]
  cases handler call <;> exact ⟨rfl, rfl⟩

/-- Both platforms answer a decoded call with the envelope of the handler's answer. -/
theorem platformReply_decoded {kind : Kind} {codec : MethodCodec V}
    {messengers : Messengers (MethodCallHandler V)} {id : BitVec 64} {message : List UInt8}
    {call : MethodCall V} {incoming : IncomingMethodCallHandler (MethodCallHandler V)}
    (hh : messengers.handleMessageFromDart kind id = some incoming)
    (hd : codec.decodeMethodCall message = .ok call) :
    platformReply kind codec messengers id message =
      .ok (envelope codec (incoming.handler call)) := by
  obtain ⟨hc, hs⟩ := onMessage_decoded incoming.handler hd
  cases kind with
  | concurrent => simp only [platformReply, concurrentReply, hh, hc]
  | synchronous => simp only [platformReply, synchronousReply, hh, hs]

theorem decode_envelope {codec : MethodCodec V} (h : Inverts codec) (isT : Option V → Bool)
    {answer : Answer V} {bytes : List UInt8} (he : envelope codec answer = some bytes) :
    Presents (some answer) (present codec isT (some (TypedData.whole bytes))) ↔
      Presentable isT answer := by
  have hbuffer : (TypedData.whole bytes).buffer = bytes := rfl
  simp only [present, hbuffer, whole_bytes]
  cases answer with
  | success v =>
    cases he
    rw [h.success]
    cases hv : isT v <;> simp [Presents, Presentable, hv]
  | error errorCode message details =>
    cases he
    cases errorCode with
    | none => simp [Presents, Presentable]
    | some code =>
      rw [h.error]
      simp [Presents, Presentable]
  | notImplemented => cases he
  | throws message stackTrace =>
    cases he
    rw [h.stacktrace]
    simp [Presents, Presentable]

/-- The worker's steps for a call, from decoding it to the handler's return. -/
def workerEvents (codec : MethodCodec V) (handler : MethodCallHandler V) (message : List UInt8) :
    List (ConcurrentMessenger.Event (List UInt8)) :=
  match codec.decodeMethodCall message with
  | .error e => [.decode (some e), .replyNull]
  | .ok call =>
    match handler call with
    | .throws message stackTrace =>
      [.decode none, .throws (.runtime message), .encodeError (.ok
        (codec.encodeErrorEnvelopeWithStacktrace (some "error") message none stackTrace)), .native]
    | answer => [.decode none, .reply true (envelope codec answer), .native, .returns]

/-- `concurrentReply` is the one reply that the worker's steps bring about. -/
theorem worker_posts_reply (codec : MethodCodec V) (messengers : Messengers (MethodCallHandler V))
    (channel : BitVec 64) (message : List UInt8) (seq : Int) (address : Option Nat) :
    ∃ es t, Runs.run ConcurrentMessenger.step
        (ConcurrentMessenger.handleMessageFromDart seq address
          (match messengers.handleMessageFromDart .concurrent channel with
            | some _ => Handler.method
            | none => Handler.absent)) es = some t ∧
      t.frame = .returned ∧
      t.calls = [⟨seq, concurrentReply codec messengers channel message, address⟩] := by
  unfold concurrentReply
  cases messengers.handleMessageFromDart .concurrent channel with
  | none => exact ⟨[.replyNull], _, rfl, rfl, rfl⟩
  | some incoming =>
    refine ⟨workerEvents codec incoming.handler message, ?_⟩
    cases hd : codec.decodeMethodCall message with
    | error e =>
      simp only [workerEvents, concurrentOnMessage, hd]
      exact ⟨_, rfl, rfl, rfl⟩
    | ok call =>
      simp only [workerEvents, (onMessage_decoded incoming.handler hd).1, hd]
      cases incoming.handler call <;> exact ⟨_, rfl, rfl, rfl⟩

/-- A call of a method channel of either kind is transparent exactly when the bytes
sent decode to it, a handler is registered under the id, and that handler neither
answers "not implemented", nor gives an error no code, nor a result that the cast
in `invokeMethod` refuses. -/
theorem transparent_iff (kind : Kind) (codec : MethodCodec V) (h : Inverts codec)
    (messengers : Messengers (MethodCallHandler V)) (id : BitVec 64) (t : Transport)
    (isT : Option V → Bool) (call : MethodCall V)
    (ht : Carries t (platformReply kind codec messengers id (messageOf codec call))) :
    Transparent kind codec messengers id t isT call ↔
      codec.decodeMethodCall (messageOf codec call) = .ok call ∧
        ∃ incoming, messengers.handleMessageFromDart kind id = some incoming ∧
          Presentable isT (incoming.handler call) := by
  have hmissing := invokeMethod_not_missing kind codec messengers id t isT call
  have key : ∀ incoming, messengers.handleMessageFromDart kind id = some incoming →
      codec.decodeMethodCall (messageOf codec call) = .ok call →
      (Presents (some (incoming.handler call)) (invokeMethod kind codec messengers id t isT call) ↔
        Presentable isT (incoming.handler call)) := by
    intro incoming hh hd
    have hreply := platformReply_decoded hh hd
    cases he : envelope codec (incoming.handler call) with
    | none =>
      have hanswer : incoming.handler call = .notImplemented := by
        cases ha : incoming.handler call <;> rw [ha] at he <;> first | rfl | cases he
      rw [hanswer]
      exact iff_of_false hmissing fun hp => hp
    | some bytes =>
      rw [he] at hreply
      have hsend := send_envelope kind (ht bytes hreply)
      rw [← decode_envelope h isT he]
      simp only [invokeMethod, hreply, hsend]
  constructor
  · intro htrans
    obtain ⟨hd, hp⟩ := htrans
    cases hh : messengers.handleMessageFromDart kind id with
    | none =>
      rw [hh] at hp
      exact absurd hp hmissing
    | some incoming =>
      rw [hh] at hp
      exact ⟨hd, incoming, rfl, (key incoming hh hd).mp hp⟩
  · intro hmeets
    obtain ⟨hd, incoming, hh, hp⟩ := hmeets
    refine ⟨hd, ?_⟩
    rw [hh]
    exact (key incoming hh hd).mpr hp

section Sample

instance stringEncodable : Encodable String :=
  Encodable.ofLeftInverse (fun s => s.toList.map Char.toNat)
    (fun l => String.ofList (l.map Char.ofNat)) (by intro s; simp [Function.comp_def])

/-- A number, written as that many zero bytes. -/
def zeros (n : Nat) : List UInt8 := List.replicate n 0

/-- What an envelope stands for: a value, or the fields of an error. -/
abbrev SampleEnvelope :=
  Option Nat ⊕ Option String × Option String × Option Nat × Option String

def sampleDecodeEnvelope (envelope : Option SampleEnvelope) : Decoded Nat :=
  match envelope with
  | some (.inl v) => .value v
  | some (.inr (some code, message, details, stacktrace)) =>
    .platformException code message details stacktrace
  | _ => .formatException

/-- A codec that numbers everything there is to encode. -/
def sampleCodec : MethodCodec Nat where
  encodeMethodCall call := TypedData.whole (zeros (Encodable.encode (call.method, call.arguments)))
  decodeMethodCall message :=
    match (Encodable.decode message.length : Option (String × Option Nat)) with
    | some (method, arguments) => .ok ⟨method, arguments⟩
    | none => .error (.runtime none)
  encodeSuccessEnvelope v := zeros (Encodable.encode (.inl v : SampleEnvelope))
  encodeErrorEnvelope code message details :=
    zeros (Encodable.encode (.inr (code, message, details, none) : SampleEnvelope))
  encodeErrorEnvelopeWithStacktrace code message details stackTrace :=
    zeros (Encodable.encode (.inr (code, message, details, some stackTrace) : SampleEnvelope))
  decodeEnvelope envelope := sampleDecodeEnvelope (Encodable.decode envelope.length)

theorem sampleCodec_inverts : Inverts sampleCodec where
  call call := by
    simp only [sampleCodec, whole_bytes, zeros, List.length_replicate, Encodable.encodek]
  success v := by
    simp only [sampleCodec, zeros, List.length_replicate, Encodable.encodek, sampleDecodeEnvelope]
  error code message details := by
    simp only [sampleCodec, zeros, List.length_replicate, Encodable.encodek, sampleDecodeEnvelope]
  stacktrace code message details stackTrace := by
    simp only [sampleCodec, zeros, List.length_replicate, Encodable.encodek, sampleDecodeEnvelope]

/-- Memory full of zeros, where every envelope lies at one address. -/
def sampleTransport : Transport where
  memory _ := 0
  allocateDirect bytes := ⟨4096, bytes.length % 2 ^ 31, by decide, Nat.mod_lt _ (by decide)⟩
  replyId := 1
  freshMessage := ⟨0, 0, 0⟩
  freshResult := ⟨0, 0⟩

/-- A handler that answers 0 under the id 7 of either channel. -/
def sampleMessengers : Messengers (MethodCallHandler Nat) :=
  (MessageHandlers.MethodChannel.setMethodCallHandler ⟨.synchronous, 7⟩
    (MessageHandlers.MethodChannel.setMethodCallHandler ⟨.concurrent, 7⟩ Messengers.initial
      (some fun _ => .success (some 0)))
    (some fun _ => .success (some 0)))

theorem transparent_success_zero :
    Transparent .concurrent sampleCodec sampleMessengers 7 sampleTransport (fun _ => true)
      ⟨"ping", some 3⟩ := by
  have hd : sampleCodec.decodeMethodCall (messageOf sampleCodec ⟨"ping", some 3⟩) =
      .ok ⟨"ping", some 3⟩ := messageOf_start sampleCodec_inverts rfl
  have hh : sampleMessengers.handleMessageFromDart .concurrent 7 = some ⟨fun _ => .success (some 0)⟩ :=
    rfl
  refine (transparent_iff .concurrent sampleCodec sampleCodec_inverts sampleMessengers 7
    sampleTransport (fun _ => true) ⟨"ping", some 3⟩ ?_).mpr ⟨hd, _, hh, rfl⟩
  intro bytes hb
  rw [platformReply_decoded hh hd] at hb
  cases hb
  rfl

/-- A call that no handler is registered for looks like one that succeeded with
null, on both channels. -/
theorem unhandled_call_presents_null :
    Inverts sampleCodec ∧
    (invokeMethod .concurrent sampleCodec Messengers.initial 7 sampleTransport (fun _ => true)
        ⟨"ping", some 3⟩ = .value none ∧
      ¬ Transparent .concurrent sampleCodec Messengers.initial 7 sampleTransport (fun _ => true)
        ⟨"ping", some 3⟩) ∧
    (invokeMethod .synchronous sampleCodec Messengers.initial 7 sampleTransport (fun _ => true)
        ⟨"ping", some 3⟩ = .value none ∧
      ¬ Transparent .synchronous sampleCodec Messengers.initial 7 sampleTransport (fun _ => true)
        ⟨"ping", some 3⟩) := by
  refine ⟨sampleCodec_inverts, ⟨rfl, fun h => ?_⟩, ⟨rfl, fun h => ?_⟩⟩
  · cases h.presented
  · cases h.presented

end Sample

end NativeChannel.Outcome
