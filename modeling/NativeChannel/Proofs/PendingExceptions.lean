import NativeChannel.Source.SynchronousMessenger

namespace NativeChannel.PendingExceptions
open SynchronousMessenger Wrapper
open ConcurrentMessenger (Exception)
open MessageHandlers (Messengers)
open MethodChannel (MethodCall MethodCodec Answer SynchronousResult synchronousOnMessage)

variable {V : Type} (getStackTrace : Exception → String)

/-- Java returns a value, and native code goes on with no exception pending to the
wrapper for that value. -/
def ReturnsNormally (s : Messengers (Registered V)) (channel : BitVec 64)
    (message : Option (List UInt8)) (ret : SynchronousResultWrapper) : Prop :=
  ∃ value, handleMessageFromDart getStackTrace s channel message = .ok value ∧
    sendSynchronousMessageToPlatform getStackTrace s channel message ret = (ret.fill value, none)

/-- The handler throws `e` for the call, or returns a result whose encoding does. -/
def Fails (r : Registered V) (call : MethodCall V) (e : Exception) : Prop :=
  r.handler call = .error e ∨
    ∃ result, r.handler call = .ok result ∧ encodeEnvelope result r.codec = .error e

/-- The message can be decoded, and what the handler or the encoding of its result
throws is a RuntimeException that can be encoded in its turn. -/
structure Contained (r : Registered V) (message : Option (List UInt8)) : Prop where
  decodes : ∃ call, r.codec.decodeMethodCall message = .ok call
  caught : ∀ call, r.codec.decodeMethodCall message = .ok call → ∀ e, Fails r call e →
    e.isRuntime = true ∧ ∃ envelope, r.codec.encodeErrorEnvelopeWithStacktrace (some "error")
      e.message none (getStackTrace e) = .ok envelope

theorem answer_error_iff {r : Registered V} {call : MethodCall V} {e : Exception} :
    answer r call = .error e ↔ Fails r call e := by
  unfold answer Fails
  cases r.handler call with
  | error e' => simp [bind, Except.bind]
  | ok result => simp [bind, Except.bind]

/-- What becomes of an exception of the try block. -/
theorem answerError_ok_iff (r : Registered V) (e : Exception) :
    (∃ value, answerError getStackTrace r e = .ok value) ↔
      e.isRuntime = true ∧ ∃ envelope, r.codec.encodeErrorEnvelopeWithStacktrace (some "error")
        e.message none (getStackTrace e) = .ok envelope := by
  unfold answerError
  cases e.isRuntime with
  | false => simp
  | true =>
    simp only [if_true, true_and]
    cases r.codec.encodeErrorEnvelopeWithStacktrace (some "error") e.message none
      (getStackTrace e) <;> simp [Except.map]

theorem onMessage_decoded {r : Registered V} {message : Option (List UInt8)}
    {call : MethodCall V} (hd : r.codec.decodeMethodCall message = .ok call) :
    onMessage getStackTrace r message =
      match answer r call with
      | .ok reply => .ok reply
      | .error e => answerError getStackTrace r e := by
  unfold onMessage
  rw [hd]
  rfl

theorem onMessage_undecoded {r : Registered V} {message : Option (List UInt8)} {e : Exception}
    (hd : r.codec.decodeMethodCall message = .error e) :
    onMessage getStackTrace r message = .error e := by
  unfold onMessage
  rw [hd]
  rfl

theorem onMessage_ok_iff (r : Registered V) (message : Option (List UInt8)) :
    (∃ value, onMessage getStackTrace r message = .ok value) ↔
      Contained getStackTrace r message := by
  cases hd : r.codec.decodeMethodCall message with
  | error e =>
    rw [onMessage_undecoded getStackTrace hd]
    refine iff_of_false (by simp) ?_
    intro h
    obtain ⟨call, hc⟩ := h.decodes
    rw [hd] at hc
    cases hc
  | ok call =>
    have honly : ∀ call', r.codec.decodeMethodCall message = .ok call' → call = call' := by
      intro call' hc
      exact Except.ok.inj (hd.symm.trans hc)
    rw [onMessage_decoded getStackTrace hd]
    cases ha : answer r call with
    | ok reply =>
      refine iff_of_true ⟨reply, rfl⟩ ⟨⟨call, hd⟩, ?_⟩
      intro call' hc e hf
      rw [← honly call' hc, ← answer_error_iff, ha] at hf
      cases hf
    | error e =>
      simp only
      rw [answerError_ok_iff]
      constructor
      · intro h
        refine ⟨⟨call, hd⟩, ?_⟩
        intro call' hc e' hf
        rw [← honly call' hc, ← answer_error_iff, ha] at hf
        cases hf
        exact h
      · intro h
        exact h.caught call hd e (answer_error_iff.mp ha)

/-- No exception crosses into native code exactly when there is no handler, or the one
there is contains what is thrown for the message. -/
theorem returns_normally_iff (s : Messengers (Registered V)) (channel : BitVec 64)
    (message : Option (List UInt8)) (ret : SynchronousResultWrapper) :
    ReturnsNormally getStackTrace s channel message ret ↔
      ∀ incoming, s.handleMessageFromDart .synchronous channel = some incoming →
        Contained getStackTrace incoming.handler message := by
  have hsend : ReturnsNormally getStackTrace s channel message ret ↔
      ∃ value, handleMessageFromDart getStackTrace s channel message = .ok value := by
    constructor
    · intro h
      obtain ⟨value, hv, _⟩ := h
      exact ⟨value, hv⟩
    · intro h
      obtain ⟨value, hv⟩ := h
      refine ⟨value, hv, ?_⟩
      unfold sendSynchronousMessageToPlatform
      rw [hv]
      rfl
  rw [hsend]
  unfold handleMessageFromDart
  cases s.handleMessageFromDart .synchronous channel with
  | none => simp
  | some incoming =>
    simp only [Option.some.injEq, forall_eq']
    exact onMessage_ok_iff getStackTrace incoming.handler message

section Sample

/-- A codec that takes the empty message for a call and rejects any other. -/
def sampleCodec : PlatformCodec Nat where
  decodeMethodCall message :=
    if message = some [] then .ok ⟨"ping", none⟩
    else .error (.runtime (some "Message corrupted"))
  encodeSuccessEnvelope _ := .ok ⟨8192, 11, by decide, by decide⟩
  encodeErrorEnvelope _ _ _ := .ok ⟨8192, 12, by decide, by decide⟩
  encodeErrorEnvelopeWithStacktrace _ _ _ _ := .ok ⟨8192, 13, by decide, by decide⟩

def sampleMessengers (handler : MethodCallHandler Nat) : Messengers (Registered Nat) :=
  MessageHandlers.MethodChannel.setMethodCallHandler ⟨.synchronous, 7⟩
    Messengers.initial (some ⟨sampleCodec, handler⟩)

/-- A handler that throws an IOException, and a message that is no call. Either leaves
its exception pending. -/
theorem exceptions_stay_pending :
    (sendSynchronousMessageToPlatform (fun _ => "")
        (sampleMessengers fun _ => .error (.other (some "closed"))) 7 (some []) ⟨0, 0⟩).2 =
      some (.other (some "closed")) ∧
    (sendSynchronousMessageToPlatform (fun _ => "")
        (sampleMessengers fun _ => .ok SynchronousResult.notImplemented) 7 (some [1]) ⟨0, 0⟩).2 =
      some (.runtime (some "Message corrupted")) ∧
    ¬ ReturnsNormally (fun _ => "")
        (sampleMessengers fun _ => .error (.other (some "closed"))) 7 (some []) ⟨0, 0⟩ ∧
    ¬ ReturnsNormally (fun _ => "")
        (sampleMessengers fun _ => .ok SynchronousResult.notImplemented) 7 (some [1]) ⟨0, 0⟩ := by
  refine ⟨rfl, rfl, fun h => ?_, fun h => ?_⟩
  · obtain ⟨value, hv, _⟩ := h
    cases hv
  · obtain ⟨value, hv, _⟩ := h
    cases hv

end Sample

section Total

/-- A codec whose encoders do not throw, as the platform uses it. -/
def MethodCodec.platform (codec : MethodCodec V) (allocateDirect : List UInt8 → DirectByteBuffer) :
    PlatformCodec V where
  decodeMethodCall message := codec.decodeMethodCall (message.getD [])
  encodeSuccessEnvelope v := .ok (allocateDirect (codec.encodeSuccessEnvelope v))
  encodeErrorEnvelope code message details :=
    .ok (allocateDirect (codec.encodeErrorEnvelope code message details))
  encodeErrorEnvelopeWithStacktrace code message details stackTrace :=
    .ok (allocateDirect (codec.encodeErrorEnvelopeWithStacktrace code message details stackTrace))

def Answer.result (a : Answer V) : Except Exception (SynchronousResult V) :=
  match a.synchronous with
  | .ok result => .ok result
  | .error (message, _) => .error (.runtime message)

/-- With such a codec, and handlers that throw nothing but RuntimeExceptions, `onMessage`
answers with the envelope that the method channel computes. -/
theorem onMessage_total (codec : MethodCodec V) (allocateDirect : List UInt8 → DirectByteBuffer)
    (handler : MethodChannel.MethodCallHandler V) (message : List UInt8)
    (htrace : ∀ call m stackTrace, handler call = .throws m stackTrace →
      getStackTrace (.runtime m) = stackTrace) :
    onMessage getStackTrace
        ⟨MethodCodec.platform codec allocateDirect, fun call => Answer.result (handler call)⟩
        (some message) =
      (synchronousOnMessage codec handler message).map (Option.map allocateDirect) := by
  unfold synchronousOnMessage
  cases hd : codec.decodeMethodCall message with
  | error e => exact onMessage_undecoded getStackTrace hd
  | ok call =>
    rw [onMessage_decoded getStackTrace hd]
    have ha : answer ⟨MethodCodec.platform codec allocateDirect,
        fun call => Answer.result (handler call)⟩ call =
        (Answer.result (handler call)).bind
          fun result => encodeEnvelope result (MethodCodec.platform codec allocateDirect) := rfl
    rw [ha]
    simp only [bind, Except.bind, pure, Except.pure, Except.map]
    cases hc : handler call with
    | throws m stackTrace =>
      rw [← htrace call m stackTrace hc]
      rfl
    | _ => rfl

end Total

end NativeChannel.PendingExceptions
