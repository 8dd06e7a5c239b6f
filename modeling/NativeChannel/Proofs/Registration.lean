import NativeChannel.Library.Registry
import NativeChannel.Library.SignedBytes
import NativeChannel.Source.MessageHandlers

namespace NativeChannel.Registration
open MessageHandlers SignedBytes

variable {ν η : Type} [DecidableEq ν] (utf8 : ν → List (BitVec 8))
  (md5 : List (BitVec 8) → Digest)

/-- The key of the name `n` among the handlers of both messengers. -/
def key (n : Kind × ν) : Kind × BitVec 64 := (n.1, computeChannelId utf8 md5 n.2)

/-- A channel of either kind with its default id. -/
def channel : Kind × ν → MethodChannel
  | (.concurrent, name) => concurrentMethodChannel utf8 md5 name none
  | (.synchronous, name) => synchronousMethodChannel utf8 md5 name none

/-- Calls of `setMethodCallHandler` on channels with default ids, one after the
other. Each entry names the kind of the channel and its name. -/
def setHandlers (history : List ((Kind × ν) × Option η)) : Messengers η :=
  history.foldl (fun s r => (channel utf8 md5 r.1).setMethodCallHandler s r.2)
    Messengers.initial

/-- After any calls on channels of these names, a message from Dart on one of them
runs the handler registered last under its name, or none if there is none. -/
def RunsLatest (η : Type) (names : Set ν) : Prop :=
  ∀ history : List ((Kind × ν) × Option η), (∀ r ∈ history, r.1.2 ∈ names) →
    ∀ kind, ∀ n ∈ names,
      ((setHandlers utf8 md5 history).handleMessageFromDart kind
        (computeChannelId utf8 md5 n)).map IncomingMethodCallHandler.handler =
      Registry.latest history (kind, n)

/-- The first 8 bytes of the digests differ at one of them after which neither
digest has a byte from 0x80 on. -/
def DigestsApart (a b : ν) : Prop :=
  Distinguishable ((md5 (utf8 a)).bytes.take 8) ((md5 (utf8 b)).bytes.take 8)

theorem toSigned_byte (b : BitVec 8) : toSigned (b.setWidth 64) 8 = b.signExtend 64 := by
  revert b
  decide

omit [DecidableEq ν] in
/-- Both sides compute the word of the first 8 bytes of the digest. -/
theorem computeChannelId_word (n : ν) :
    computeChannelId utf8 md5 n = word ((md5 (utf8 n)).bytes.take 8) := by
  unfold computeChannelId
  simp only [toSigned_byte]
  rfl

omit [DecidableEq ν] in
theorem channelDigest_word (n : ν) :
    channelDigest utf8 md5 n = word ((md5 (utf8 n)).bytes.take 8) := rfl

omit [DecidableEq ν] in
/-- A channel's id is the one that Dart sends to. -/
theorem channel_key (n : Kind × ν) :
    ((channel utf8 md5 n).kind, (channel utf8 md5 n).id) = key utf8 md5 n := by
  obtain ⟨kind, name⟩ := n
  have hid : channelDigest utf8 md5 name = computeChannelId utf8 md5 name :=
    (channelDigest_word utf8 md5 name).trans (computeChannelId_word utf8 md5 name).symm
  unfold key
  rw [← hid]
  cases kind <;> rfl

omit [DecidableEq ν] in
theorem id_eq_iff (a b : ν) :
    computeChannelId utf8 md5 a = computeChannelId utf8 md5 b ↔ ¬ DigestsApart utf8 md5 a b := by
  rw [computeChannelId_word, computeChannelId_word]
  have ha : ((md5 (utf8 a)).bytes.take 8).length = 8 := by simp [(md5 (utf8 a)).length]
  have hb : ((md5 (utf8 b)).bytes.take 8).length = 8 := by simp [(md5 (utf8 b)).length]
  exact word_eq_iff (ha.trans hb.symm) (by rw [ha])

theorem handler_setMessageHandler (s : Messengers η) (c : MethodChannel) (handler : Option η)
    (kind : Kind) (id : BitVec 64) :
    ((c.setMethodCallHandler s handler).handleMessageFromDart kind id).map
        IncomingMethodCallHandler.handler =
      if kind = c.kind ∧ id = c.id then handler
      else (s.handleMessageFromDart kind id).map IncomingMethodCallHandler.handler := by
  simp only [MethodChannel.setMethodCallHandler, Messengers.setMessageHandler,
    Messengers.handleMessageFromDart]
  by_cases hk : kind = c.kind
  · subst kind
    rw [Function.update_self]
    by_cases hi : id = c.id
    · subst id
      rw [Function.update_self, if_pos ⟨rfl, rfl⟩]
      cases handler <;> rfl
    · rw [Function.update_of_ne hi, if_neg fun h => hi h.2]
  · rw [Function.update_of_ne hk, if_neg fun h => hk h.1]

omit [DecidableEq ν] in
/-- The two maps together are one map, from kinds and ids to handlers. -/
theorem setHandlers_replay (history : List ((Kind × ν) × Option η)) (kind : Kind)
    (id : BitVec 64) :
    ((setHandlers utf8 md5 history).handleMessageFromDart kind id).map
        IncomingMethodCallHandler.handler =
      Registry.replay (key utf8 md5) history (kind, id) := by
  induction history using List.reverseRecOn with
  | nil => rfl
  | append_singleton history r ih =>
    have hlast : setHandlers utf8 md5 (history ++ [r]) =
        (channel utf8 md5 r.1).setMethodCallHandler (setHandlers utf8 md5 history) r.2 := by
      simp [setHandlers]
    have hkey := channel_key utf8 md5 r.1
    rw [hlast, handler_setMessageHandler, Registry.replay_concat, ih, ← hkey]
    by_cases hk : (kind, id) = ((channel utf8 md5 r.1).kind, (channel utf8 md5 r.1).id)
    · rw [hk, Function.update_self, if_pos (Prod.mk.inj hk)]
    · rw [Function.update_of_ne hk, if_neg]
      intro h
      exact hk (Prod.ext h.1 h.2)

omit [DecidableEq ν] in
theorem key_injOn_iff (names : Set ν) :
    Set.InjOn (key utf8 md5) {n | n.2 ∈ names} ↔
      ∀ a ∈ names, ∀ b ∈ names, a ≠ b → DigestsApart utf8 md5 a b := by
  constructor
  · intro h a ha b hb hne
    by_contra hd
    have hid := (id_eq_iff utf8 md5 a b).mpr hd
    have hpair := h (show (Kind.concurrent, a) ∈ {n : Kind × ν | n.2 ∈ names} from ha)
      (show (Kind.concurrent, b) ∈ {n : Kind × ν | n.2 ∈ names} from hb)
      (Prod.ext rfl hid)
    exact hne (Prod.mk.inj hpair).2
  · intro h m hm n hn hmn
    obtain ⟨hkind, hid⟩ := Prod.mk.inj hmn
    refine Prod.ext hkind ?_
    by_contra hne
    exact (id_eq_iff utf8 md5 m.2 n.2).mp hid (h m.2 hm n.2 hn hne)

/-- On both kinds of channels together, every message runs the handler of its own
name exactly when any two of the names have digests that the ids tell apart. -/
theorem runs_latest_iff [Inhabited η] (names : Set ν) :
    RunsLatest utf8 md5 η names ↔
      ∀ a ∈ names, ∀ b ∈ names, a ≠ b → DigestsApart utf8 md5 a b := by
  rw [← key_injOn_iff, ← Registry.routes_iff η]
  constructor
  · intro h history hover n hn
    rw [← h history hover n.1 n.2 hn]
    exact (setHandlers_replay utf8 md5 history n.1 _).symm
  · intro h history hover kind n hn
    rw [setHandlers_replay]
    exact h history hover (kind, n) hn

/-- The digests of two names that the example below takes, by their UTF-8 bytes:
"b", and every other name is given that of "nfc". -/
def sampleMd5 (bytes : List (BitVec 8)) : Digest :=
  if bytes = [0x62] then
    ⟨[146, 235, 95, 254, 230, 174, 47, 236, 58, 215, 28, 119, 117, 49, 87, 143], rfl⟩
  else ⟨[6, 41, 147, 88, 90, 70, 90, 236, 184, 97, 86, 24, 24, 34, 85, 35], rfl⟩

/-- The names "b" and "nfc": their digests differ in seven of the first 8 bytes,
and the sign of the eighth, equal in both, overwrites them all. A message on "nfc"
runs the handler of "b". -/
theorem nfc_runs_b :
    (sampleMd5 [0x62]).bytes.take 8 ≠ (sampleMd5 [0x6e, 0x66, 0x63]).bytes.take 8 ∧
      ¬ RunsLatest id sampleMd5 Nat {[0x62], [0x6e, 0x66, 0x63]} := by
  refine ⟨by decide, fun h => ?_⟩
  have hover : ∀ r ∈ [((Kind.concurrent, [(0x62 : BitVec 8)]), some 1)],
      r.1.2 ∈ ({[0x62], [0x6e, 0x66, 0x63]} : Set (List (BitVec 8))) := by
    intro r hr
    rw [List.mem_singleton.mp hr]
    exact Or.inl rfl
  have hrun := h _ hover .concurrent [0x6e, 0x66, 0x63] (Or.inr rfl)
  exact absurd hrun (by decide)

end NativeChannel.Registration
