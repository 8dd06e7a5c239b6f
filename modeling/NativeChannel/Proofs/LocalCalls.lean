import NativeChannel.Library.Simulation
import NativeChannel.Proofs.Outcome
import NativeChannel.Proofs.Registration

namespace NativeChannel.LocalCalls
open Runs Simulation MethodChannel Registration
open MessageHandlers (Kind Digest Messengers DartMethodChannel IncomingMethodCallHandler)
open Outcome (Inverts Carries envelope messageOf_start platformReply_decoded send_envelope)

/-- What a program does with channels of default ids, known by kind and name: the platform
sets a handler, or Dart invokes a method. A call stands where the platform looks for its
handler, and `t` is the way of its reply. -/
inductive Op (ν V : Type) where
  | setMethodCallHandler (n : Kind × ν) (handler : Option (MethodCallHandler V))
  | invokeMethod (n : Kind × ν) (t : Transport) (isT : Option V → Bool) (call : MethodCall V)

def Op.name {ν V : Type} : Op ν V → ν
  | .setMethodCallHandler n _ | .invokeMethod n _ _ _ => n.2

section Local
variable {ν V : Type} [DecidableEq ν]

/-- What a call of the handler itself comes to, where nothing is known of an error without
a code. -/
def localOutcome (isT : Option V → Bool) : Option (Answer V) → Option (Outcome V)
  | some (.success v) => some (if isT v then .value v else .typeError)
  | some (.error (some code) message details) =>
    some (.platformException code message details none)
  | some (.error none _ _) => none
  | some (.throws message stackTrace) =>
    some (.platformException "error" message none (some stackTrace))
  | some .notImplemented | none => some (.value none)

/-- The program with every call made on the spot, at the handler set last for its kind of
channel and name. -/
def localOutcomes (handlers : Kind × ν → Option (MethodCallHandler V)) :
    List (Op ν V) → List (Option (Outcome V))
  | [] => []
  | .setMethodCallHandler n handler :: program =>
    localOutcomes (Function.update handlers n handler) program
  | .invokeMethod n _ isT call :: program =>
    localOutcome isT ((handlers n).map fun handler => handler call) ::
      localOutcomes handlers program

end Local

section Channels
variable {ν V : Type} (utf8 : ν → List (BitVec 8)) (md5 : List (BitVec 8) → Digest)
  (codec : MethodCodec V)

/-- A Dart channel of either kind with its default id. -/
def dartChannel : Kind × ν → DartMethodChannel
  | (.concurrent, name) => MessageHandlers.dartConcurrentMethodChannel utf8 md5 name none
  | (.synchronous, name) => MessageHandlers.dartSynchronousMethodChannel utf8 md5 name none

def step (s : Messengers (MethodCallHandler V)) :
    Op ν V → Option (Messengers (MethodCallHandler V))
  | .setMethodCallHandler n handler => some ((channel utf8 md5 n).setMethodCallHandler s handler)
  | .invokeMethod _ _ _ _ => some s

/-- What Dart gets in a step. -/
def outcome (s : Messengers (MethodCallHandler V)) : Op ν V → List (Outcome V)
  | .setMethodCallHandler _ _ => []
  | .invokeMethod n t isT call =>
    [MethodChannel.invokeMethod n.1 codec s (dartChannel utf8 md5 n).id t isT call]

/-- Errors have a code, encoded calls start where their buffers do, replies lie in direct
buffers as they were encoded, and null replies go out in zeroed wrappers. -/
def Sound (s : Messengers (MethodCallHandler V)) : Op ν V → Prop
  | .setMethodCallHandler _ handler =>
    ∀ h ∈ handler, ∀ call message details, h call ≠ .error none message details
  | .invokeMethod n t _ call =>
    let reply := platformReply n.1 codec s (dartChannel utf8 md5 n).id (messageOf codec call)
    (codec.encodeMethodCall call).offset = 0 ∧ Carries t reply ∧
      (reply = .ok none → t.freshMessage.data = 0 ∧ t.freshResult.data = 0)

/-- On the names in use, the two maps of ids hold the handlers set last, and these give
their errors a code. -/
structure Agrees (names : Set ν) (s : Messengers (MethodCallHandler V))
    (handlers : Kind × ν → Option (MethodCallHandler V)) : Prop where
  found : ∀ n : Kind × ν, n.2 ∈ names →
    (s.handleMessageFromDart n.1 (dartChannel utf8 md5 n).id).map IncomingMethodCallHandler.handler =
      handlers n
  coded : ∀ n, ∀ h ∈ handlers n, ∀ call message details, h call ≠ .error none message details

theorem dartChannel_id (n : Kind × ν) :
    (dartChannel utf8 md5 n).id = MessageHandlers.computeChannelId utf8 md5 n.2 := by
  obtain ⟨kind, name⟩ := n
  cases kind <;> rfl

end Channels

section Calls
variable {V : Type} {codec : MethodCodec V} {s : Messengers (MethodCallHandler V)}
  {id : BitVec 64} {call : MethodCall V}

/-- Both platforms reply with the envelope of what the handler answers, or with null. -/
theorem platformReply_found (kind : Kind) (handler : Option (MethodCallHandler V))
    (hd : codec.decodeMethodCall (messageOf codec call) = .ok call)
    (hh : (s.handleMessageFromDart kind id).map IncomingMethodCallHandler.handler = handler) :
    platformReply kind codec s id (messageOf codec call) =
      .ok (handler.bind fun h => envelope codec (h call)) := by
  cases hm : s.handleMessageFromDart kind id with
  | none =>
    rw [hm] at hh
    cases hh
    cases kind with
    | concurrent => simp only [platformReply, concurrentReply, hm]; rfl
    | synchronous => simp only [platformReply, synchronousReply, hm]; rfl
  | some incoming =>
    rw [hm] at hh
    cases hh
    exact platformReply_decoded hm hd

/-- A null reply comes through where `new` gives zeroed memory. -/
theorem send_null {t : Transport} (kind : Kind)
    (hzero : t.freshMessage.data = 0 ∧ t.freshResult.data = 0) : t.send kind none = none := by
  have hmessage := (Framing.received_fill t.freshMessage t.replyId none).mpr (Or.inr hzero.1)
  have hresult := (Framing.received_fill_result t.freshResult none).mpr (Or.inr hzero.2)
  cases kind with
  | concurrent => simp [Transport.send, hmessage]
  | synchronous => simp [Transport.send, hresult]

/-- Dart makes of the envelope, or of null, what the answer comes to. -/
theorem present_envelope (h : Inverts codec) (isT : Option V → Bool) {answer : Answer V}
    (hc : ∀ message details, answer ≠ .error none message details) :
    some (present codec isT ((envelope codec answer).map TypedData.whole)) =
      localOutcome isT (some answer) := by
  have hbuffer : ∀ bytes, (TypedData.whole bytes).buffer = bytes := fun _ => rfl
  cases answer with
  | success v => simp [envelope, present, hbuffer, h.success, localOutcome]
  | error errorCode message details =>
    cases errorCode with
    | none => exact absurd rfl (hc message details)
    | some code => simp [envelope, present, hbuffer, h.error, localOutcome]
  | notImplemented => rfl
  | throws message stackTrace => simp [envelope, present, hbuffer, h.stacktrace, localOutcome]

/-- One call through a channel comes to what a call of the handler does. -/
theorem invokeMethod_local (kind : Kind) (h : Inverts codec)
    (hstart : (codec.encodeMethodCall call).offset = 0) {handler : Option (MethodCallHandler V)}
    (hh : (s.handleMessageFromDart kind id).map IncomingMethodCallHandler.handler = handler)
    (hc : ∀ f ∈ handler, ∀ message details, f call ≠ .error none message details)
    {t : Transport} (ht : Carries t (platformReply kind codec s id (messageOf codec call)))
    (hzero : platformReply kind codec s id (messageOf codec call) = .ok none →
      t.freshMessage.data = 0 ∧ t.freshResult.data = 0) (isT : Option V → Bool) :
    some (MethodChannel.invokeMethod kind codec s id t isT call) =
      localOutcome isT (handler.map fun f => f call) := by
  have hreply := platformReply_found kind handler (messageOf_start h hstart) hh
  unfold MethodChannel.invokeMethod
  rw [hreply] at ht hzero ⊢
  simp only
  cases handler with
  | none =>
    simp only [Option.bind_none, send_null kind (hzero rfl)]
    rfl
  | some f =>
    simp only [Option.bind_some, Option.map_some] at ht hzero ⊢
    have hsent : t.send kind (envelope codec (f call)) =
        (envelope codec (f call)).map TypedData.whole := by
      cases he : envelope codec (f call) with
      | none => exact send_null kind (hzero (by rw [he]))
      | some bytes => exact send_envelope kind (ht bytes (by rw [he]))
    rw [hsent]
    exact present_envelope h isT (hc f rfl)

end Calls

section Programs
variable {ν V : Type} [DecidableEq ν] {utf8 : ν → List (BitVec 8)}
  {md5 : List (BitVec 8) → Digest} {codec : MethodCodec V} {names : Set ν}
  {s : Messengers (MethodCallHandler V)} {handlers : Kind × ν → Option (MethodCallHandler V)}

/-- Setting a handler by its id sets it for its name, and for no other name in use. -/
theorem set_agrees (hs : Agrees utf8 md5 names s handlers)
    (hapart : ∀ a ∈ names, ∀ b ∈ names, a ≠ b → DigestsApart utf8 md5 a b) {n : Kind × ν}
    (hn : n.2 ∈ names) {handler : Option (MethodCallHandler V)}
    (hc : ∀ h ∈ handler, ∀ call message details, h call ≠ .error none message details) :
    Agrees utf8 md5 names ((channel utf8 md5 n).setMethodCallHandler s handler)
      (Function.update handlers n handler) := by
  refine ⟨?_, ?_⟩
  · intro m hm
    rw [handler_setMessageHandler]
    have hkey : key utf8 md5 m = key utf8 md5 n ↔ m = n :=
      ((key_injOn_iff utf8 md5 names).mpr hapart).eq_iff hm hn
    have hwhere : m.1 = (channel utf8 md5 n).kind ∧
        (dartChannel utf8 md5 m).id = (channel utf8 md5 n).id ↔ m = n := by
      rw [← hkey, ← channel_key utf8 md5 n, dartChannel_id, key, Prod.mk.injEq]
    by_cases hmn : m = n
    · rw [if_pos (hwhere.mpr hmn), hmn, Function.update_self]
    · rw [if_neg (mt hwhere.mp hmn), Function.update_of_ne hmn]
      exact hs.found m hm
  · intro m
    by_cases hmn : m = n
    · rw [hmn, Function.update_self]
      exact hc
    · rw [Function.update_of_ne hmn]
      exact hs.coded m

omit [DecidableEq ν] in
theorem initial_agrees :
    Agrees utf8 md5 names (Messengers.initial : Messengers (MethodCallHandler V)) fun _ => none where
  found _ _ := rfl
  coded := nofun

theorem trace_local (h : Inverts codec)
    (hapart : ∀ a ∈ names, ∀ b ∈ names, a ≠ b → DigestsApart utf8 md5 a b)
    (program : List (Op ν V)) (hnames : ∀ op ∈ program, op.name ∈ names)
    (hs : Agrees utf8 md5 names s handlers)
    (hc : AllSteps (step utf8 md5) (Sound utf8 md5 codec) s program) :
    (trace (step utf8 md5) (outcome utf8 md5 codec) s program).map some =
      localOutcomes handlers program := by
  induction program generalizing s handlers with
  | nil => rfl
  | cons op program ih =>
    have hname := hnames op List.mem_cons_self
    have hrest : ∀ op ∈ program, op.name ∈ names :=
      fun op hop => hnames op (List.mem_cons_of_mem _ hop)
    obtain ⟨hsound, hnext⟩ := hc
    cases op with
    | setMethodCallHandler n handler =>
      have hagrees := set_agrees hs hapart hname hsound
      exact ih hrest hagrees (hnext _ rfl)
    | invokeMethod n t isT call =>
      obtain ⟨hstart, ht, hzero⟩ := hsound
      have hcall := invokeMethod_local n.1 h hstart (hs.found n hname)
        (fun f hf => hs.coded n f hf call) ht hzero isT
      change some _ :: (trace (step utf8 md5) (outcome utf8 md5 codec) s program).map some = _
      rw [ih hrest hs (hnext _ rfl), hcall]
      rfl

/-- A program on method channels of both kinds, whose names have ids of their own: Dart gets
what it would get from the handlers by calling them on the spot. -/
theorem outcomes_local (codec : MethodCodec V) (h : Inverts codec) (names : Set ν)
    (hapart : ∀ a ∈ names, ∀ b ∈ names, a ≠ b → DigestsApart utf8 md5 a b)
    (program : List (Op ν V)) (hnames : ∀ op ∈ program, op.name ∈ names)
    (hc : AllSteps (step utf8 md5) (Sound utf8 md5 codec) Messengers.initial program) :
    (trace (step utf8 md5) (outcome utf8 md5 codec) Messengers.initial program).map some =
      localOutcomes (fun _ => none) program :=
  trace_local h hapart program hnames initial_agrees hc

end Programs

section Sample

/-- The digests of the names "a" and "c", which here every other name shares with "c". -/
def sampleDigest (bytes : List (BitVec 8)) : Digest :=
  if bytes = [0x61] then
    ⟨[12, 193, 117, 185, 192, 241, 182, 168, 49, 195, 153, 226, 105, 119, 38, 97], rfl⟩
  else ⟨[74, 138, 8, 240, 157, 55, 183, 55, 149, 100, 144, 56, 64, 139, 95, 51], rfl⟩

/-- The channel "a" has a handler on one messenger, "c" on both, and then "c" on one. -/
def sampleProgram : List (Op (List (BitVec 8)) Nat) :=
  [.setMethodCallHandler (.concurrent, [0x61]) (some fun _ => .success (some 1)),
    .setMethodCallHandler (.concurrent, [0x63]) (some fun _ => .success (some 2)),
    .setMethodCallHandler (.synchronous, [0x63]) (some fun _ => .success none),
    .invokeMethod (.concurrent, [0x61]) Outcome.sampleTransport (fun _ => true) ⟨"ping", none⟩,
    .setMethodCallHandler (.concurrent, [0x63]) none,
    .invokeMethod (.concurrent, [0x63]) Outcome.sampleTransport (fun _ => true) ⟨"ping", none⟩,
    .invokeMethod (.synchronous, [0x63]) Outcome.sampleTransport (fun _ => false) ⟨"ping", none⟩]

theorem outcomes_local_two_names :
    (trace (step id sampleDigest) (outcome id sampleDigest Outcome.sampleCodec)
        Messengers.initial sampleProgram).map some =
      [some (.value (some 1)), some (.value none), some .typeError] := by
  refine outcomes_local Outcome.sampleCodec Outcome.sampleCodec_inverts {[0x61], [0x63]} ?_
    sampleProgram ?_ ?_
  · have hab : DigestsApart id sampleDigest [0x61] [0x63] :=
      show SignedBytes.Distinguishable _ _ by decide
    have hba : DigestsApart id sampleDigest [0x63] [0x61] :=
      show SignedBytes.Distinguishable _ _ by decide
    rintro a (rfl | rfl) b (rfl | rfl) hne
    · exact absurd rfl hne
    · exact hab
    · exact hba
    · exact absurd rfl hne
  · intro op hop
    simp only [sampleProgram, List.mem_cons, List.not_mem_nil, or_false] at hop
    rcases hop with rfl | rfl | rfl | rfl | rfl | rfl | rfl <;> simp [Op.name]
  · have hcoded : ∀ (v : Option Nat), ∀ h ∈ some (fun _ : MethodCall Nat => Answer.success v),
        ∀ call message details, h call ≠ .error none message details := by
      intro v h hh call message details
      cases hh
      exact nofun
    have hd : Outcome.sampleCodec.decodeMethodCall
        (messageOf Outcome.sampleCodec ⟨"ping", none⟩) = .ok ⟨"ping", none⟩ :=
      messageOf_start Outcome.sampleCodec_inverts rfl
    refine ⟨hcoded (some 1), ?_⟩
    rintro _ ⟨⟩
    refine ⟨hcoded (some 2), ?_⟩
    rintro _ ⟨⟩
    refine ⟨hcoded none, ?_⟩
    rintro _ ⟨⟩
    refine ⟨⟨rfl, ?_, fun _ => ⟨rfl, rfl⟩⟩, ?_⟩
    · rw [platformReply_found .concurrent (some fun _ => .success (some 1)) hd rfl]
      rintro _ ⟨⟩
      rfl
    rintro _ ⟨⟩
    refine ⟨nofun, ?_⟩
    rintro _ ⟨⟩
    refine ⟨⟨rfl, ?_, fun _ => ⟨rfl, rfl⟩⟩, ?_⟩
    · rw [platformReply_found .concurrent none hd rfl]
      exact nofun
    rintro _ ⟨⟩
    refine ⟨⟨rfl, ?_, fun _ => ⟨rfl, rfl⟩⟩, fun _ _ => trivial⟩
    rw [platformReply_found .synchronous (some fun _ => .success none) hd rfl]
    rintro _ ⟨⟩
    rfl

end Sample

end NativeChannel.LocalCalls
