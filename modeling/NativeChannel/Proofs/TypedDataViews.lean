import NativeChannel.Source.MethodChannel

namespace NativeChannel.TypedDataViews
open MethodChannel MessageHandlers

variable {V : Type}

/-- The typed data handed on has the bytes of `view`, and no place outside the part
of the buffer that `view` shows. -/
structure Respects (view given : TypedData) : Prop where
  buffer : given.buffer = view.buffer
  bytes : given.bytes = view.bytes
  within : ∀ i, given.offset ≤ i → i < given.offset + given.length →
    view.offset ≤ i ∧ i < view.offset + view.length

/-- An invocation hands the encoded call to the messenger and the messenger's result
to the codec, each as the view it is. -/
structure ViewsRespected (call : TypedData) (send : TypedData → Option TypedData)
    (i : Invocation V) : Prop where
  sent : Respects call i.sent
  decoded : ∀ result, send i.sent = some result →
    ∃ envelope, i.decoded = some envelope ∧ Respects result envelope

/-- The view shows its buffer from the first byte to the last. -/
def ShowsAll (d : TypedData) : Prop := d.offset = 0 ∧ d.length = d.buffer.length

/-- The encoded call starts where its buffer does, unless it is empty, and what the
messenger returns for it shows the whole of its buffer. -/
def Unshifted (call : TypedData) (send : TypedData → Option TypedData) : Prop :=
  (call.offset = 0 ∨ call.length = 0) ∧
    ∀ result, send call.asUint8List = some result → ShowsAll result

/-- A window from the buffer's first byte on, as long as the view, is the view where
that starts there too. -/
theorem respects_asUint8List (d : TypedData) :
    Respects d d.asUint8List ↔ d.offset = 0 ∨ d.length = 0 := by
  constructor
  · intro h
    by_contra hn
    obtain ⟨hoffset, hlength⟩ := not_or.mp hn
    have hfirst := h.within 0 (Nat.le_refl 0) (by simp only [TypedData.asUint8List]; omega)
    exact hoffset (Nat.le_zero.mp hfirst.1)
  · intro h
    refine ⟨rfl, ?_, ?_⟩
    · rcases h with h | h <;> simp [TypedData.bytes, TypedData.asUint8List, h]
    · intro i hl hu
      simp only [TypedData.asUint8List] at hl hu
      omega

theorem respects_whole (d : TypedData) :
    Respects d (TypedData.whole d.buffer) ↔ ShowsAll d := by
  have hfits := d.fits
  constructor
  · intro h
    by_cases hempty : d.buffer.length = 0
    · exact ⟨by omega, by omega⟩
    · have hfirst := h.within 0 (Nat.le_refl 0) (by simp only [TypedData.whole]; omega)
      have hlast := h.within (d.buffer.length - 1) (Nat.zero_le _)
        (by simp only [TypedData.whole]; omega)
      exact ⟨by omega, by omega⟩
  · intro h
    obtain ⟨hoffset, hlength⟩ := h
    refine ⟨rfl, ?_, ?_⟩
    · simp [TypedData.bytes, TypedData.whole, hoffset, hlength]
    · intro i hl hu
      simp only [TypedData.whole] at hl hu
      omega

theorem invoke_sent (codec : MethodCodec V) (send : BitVec 64 → TypedData → Option TypedData)
    (id : BitVec 64) (isT : Option V → Bool) (call : MethodCall V) :
    (invoke codec send id isT call).sent = (codec.encodeMethodCall call).asUint8List := by
  simp only [invoke]
  split <;> rfl

theorem invoke_decoded (codec : MethodCodec V) (send : BitVec 64 → TypedData → Option TypedData)
    (id : BitVec 64) (isT : Option V → Bool) (call : MethodCall V) :
    (invoke codec send id isT call).decoded =
      (send id (codec.encodeMethodCall call).asUint8List).map
        fun result => TypedData.whole result.buffer := by
  simp only [invoke]
  split
  · rename_i h
    rw [h]
    rfl
  · rename_i h
    rw [h]
    rfl

theorem invoke_respects_iff (codec : MethodCodec V)
    (send : BitVec 64 → TypedData → Option TypedData) (id : BitVec 64) (isT : Option V → Bool)
    (call : MethodCall V) :
    ViewsRespected (codec.encodeMethodCall call) (send id) (invoke codec send id isT call) ↔
      Unshifted (codec.encodeMethodCall call) (send id) := by
  have hsent := invoke_sent codec send id isT call
  have hdecoded := invoke_decoded codec send id isT call
  unfold Unshifted
  rw [← respects_asUint8List]
  constructor
  · intro h
    refine ⟨hsent ▸ h.sent, ?_⟩
    intro result hr
    obtain ⟨envelope, he, hrespects⟩ := h.decoded result (by rw [hsent, hr])
    rw [hdecoded, hr] at he
    cases he
    exact (respects_whole result).mp hrespects
  · intro h
    obtain ⟨hcall, hall⟩ := h
    refine ⟨hsent.symm ▸ hcall, ?_⟩
    intro result hr
    rw [hsent] at hr
    refine ⟨TypedData.whole result.buffer, ?_, (respects_whole result).mpr (hall result hr)⟩
    rw [hdecoded, hr]
    rfl

/-- In either channel, whatever the codec and the messenger, both views are respected
exactly when the encoded call starts at its buffer's first byte, or has no bytes, and
the result shows the whole of its buffer. -/
theorem views_respected_iff (codec : MethodCodec V)
    (send : BitVec 64 → TypedData → Option TypedData) (id : BitVec 64) (isT : Option V → Bool)
    (call : MethodCall V) :
    (ViewsRespected (codec.encodeMethodCall call) (send id)
        (concurrentInvokeMethod codec send id isT call) ↔
      Unshifted (codec.encodeMethodCall call) (send id)) ∧
    (ViewsRespected (codec.encodeMethodCall call) (send id)
        (synchronousInvokeMethod codec send id isT call) ↔
      Unshifted (codec.encodeMethodCall call) (send id)) :=
  ⟨invoke_respects_iff codec send id isT call, invoke_respects_iff codec send id isT call⟩

/-- A codec that encodes every call as the bytes 1, 2 and 3 behind one byte of a buffer. -/
def shiftedCodec : MethodCodec Nat where
  encodeMethodCall _ := ⟨[9, 1, 2, 3], 1, 3, by decide⟩
  decodeMethodCall _ := .error (.runtime none)
  encodeSuccessEnvelope _ := []
  encodeErrorEnvelope _ _ _ := []
  encodeErrorEnvelopeWithStacktrace _ _ _ _ := []
  decodeEnvelope _ := .formatException

/-- The bytes 9, 1 and 2 are sent for the view of 1, 2 and 3. A result that shows the
bytes 6 and 7 of a longer buffer is decoded with the 5 in front of them. -/
theorem shifted_views_lost :
    ¬ ViewsRespected (shiftedCodec.encodeMethodCall ⟨"ping", none⟩)
        (fun _ => some ⟨[5, 6, 7], 1, 2, by decide⟩)
        (concurrentInvokeMethod shiftedCodec (fun _ _ => some ⟨[5, 6, 7], 1, 2, by decide⟩) 7
          (fun _ => true) ⟨"ping", none⟩) ∧
      ¬ ViewsRespected (shiftedCodec.encodeMethodCall ⟨"ping", none⟩)
        (fun _ => some ⟨[5, 6, 7], 1, 2, by decide⟩)
        (synchronousInvokeMethod shiftedCodec (fun _ _ => some ⟨[5, 6, 7], 1, 2, by decide⟩) 7
          (fun _ => true) ⟨"ping", none⟩) := by
  refine ⟨fun h => ?_, fun h => ?_⟩
  · exact absurd h.sent.bytes (by decide)
  · exact absurd h.sent.bytes (by decide)

/-- Between a codec and a platform that answers, an invocation ends as the call does. -/
theorem invokeMethod_outcome (kind : Kind) (codec : MethodCodec V)
    (messengers : Messengers (MethodCallHandler V)) (id : BitVec 64) (t : Transport)
    (isT : Option V → Bool) (call : MethodCall V) {reply : Option (List UInt8)}
    (hreply : platformReply kind codec messengers id (messageOf codec call) = .ok reply) :
    (invoke codec (platformSend kind codec messengers t) id isT call).outcome =
      invokeMethod kind codec messengers id t isT call := by
  have hsend : platformSend kind codec messengers t id (codec.encodeMethodCall call).asUint8List =
      t.send kind reply := by
    have hbytes : (codec.encodeMethodCall call).asUint8List.bytes = messageOf codec call := rfl
    unfold platformSend
    rw [hbytes, hreply]
  unfold invokeMethod
  simp only [invoke, hsend, hreply]
  cases t.send kind reply <;> rfl

end NativeChannel.TypedDataViews
