import NativeChannel.Proofs.Registration

namespace NativeChannel.ChannelIds
open MessageHandlers SignedBytes

variable {ν : Type}

/-- Any number of bytes folds to one word on both sides, whatever their signs. -/
theorem folds_agree (bytes : List (BitVec 8)) (acc : BitVec 64) :
    bytes.foldl (fun (d : BitVec 64) i => d <<< 8 ||| toSigned (i.setWidth 64) 8) acc =
      bytes.foldl (fun (d : BitVec 64) i => d <<< 8 ||| i.signExtend 64) acc := by
  induction bytes generalizing acc with
  | nil => rfl
  | cons b bytes ih =>
    rw [List.foldl_cons, List.foldl_cons, Registration.toSigned_byte]
    exact ih _

theorem computeChannelId_eq {utf8 utf8' : ν → List (BitVec 8)}
    {md5 md5' : List (BitVec 8) → Digest} {name : ν} (hutf8 : utf8 name = utf8' name)
    (hmd5 : md5 (utf8' name) = md5' (utf8' name)) :
    computeChannelId utf8 md5 name = channelDigest utf8' md5' name := by
  unfold computeChannelId channelDigest
  rw [hutf8, hmd5]
  exact folds_agree _ 0

/-- Channels of one name and of either kind have one signed id in Dart and in
Kotlin, where the two platforms agree on the name's bytes and their digest. -/
theorem ids_agree {utf8 utf8' : ν → List (BitVec 8)} {md5 md5' : List (BitVec 8) → Digest}
    {name : ν} (hutf8 : utf8 name = utf8' name) (hmd5 : md5 (utf8' name) = md5' (utf8' name)) :
    (dartConcurrentMethodChannel utf8 md5 name none).id.toInt =
        (concurrentMethodChannel utf8' md5' name none).id.toInt ∧
      (dartSynchronousMethodChannel utf8 md5 name none).id.toInt =
        (synchronousMethodChannel utf8' md5' name none).id.toInt := by
  have hid := congrArg BitVec.toInt (computeChannelId_eq hutf8 hmd5)
  exact ⟨hid, hid⟩

/-- A prefix with bytes of both signs, 92 eb 5f fe e6 ae 2f ec. -/
theorem ids_agree_mixed_signs :
    (dartConcurrentMethodChannel id Registration.sampleMd5 [0x62] none).id.toInt =
        (concurrentMethodChannel id Registration.sampleMd5 [0x62] none).id.toInt ∧
      (dartSynchronousMethodChannel id Registration.sampleMd5 [0x62] none).id.toInt =
        (synchronousMethodChannel id Registration.sampleMd5 [0x62] none).id.toInt :=
  ids_agree rfl rfl

end NativeChannel.ChannelIds
