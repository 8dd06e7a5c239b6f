import NativeChannel.Proofs.Exchanges
import NativeChannel.Proofs.LocalCalls

namespace NativeChannel.ConcurrentCalls
open Runs Counts ByteMemory Simulation MethodChannel RequestPayloads Exchanges
open ConcurrentChannel (Handling Tag Tagged TaskMessageWrapper newCalls)
open ConcurrentMessenger (Request)
open Exchange (acts mem_acts registrations)
open LocalCalls (localOutcome present_envelope)
open Outcome (Inverts envelope messageOf_start onMessage_decoded)
open SingleReply (Accounted)
open Wrapper (DirectByteBuffer MessageWrapper View Vm)

/-- What a request on a method channel is answered with. Where the call cannot be decoded,
the messenger answers with null. -/
def replyOf {V : Type} (codec : MethodCodec V) (handler : MethodCallHandler V)
    (message : List UInt8) : Option (List UInt8) :=
  match concurrentOnMessage codec handler message with
  | .ok reply => reply
  | .error _ => none

/-- The request's handler is that of a method channel, and its reply lies in a buffer that
shows it in `replies`. -/
def Answers {V : Type} (codec : MethodCodec V) (handlers : MessageHandler → MethodCallHandler V)
    (replies : Memory) (tag : Tag) (xs : List Act) : Prop :=
  ∀ handler message r, .dispatch tag (some (handler, some message)) ∈ xs → .answer tag r ∈ xs →
    r.map (fun b => b.bytes replies) = replyOf codec (handlers handler) message

/-- What `invokeMethod` makes of a completed future. -/
def presented {V : Type} (codec : MethodCodec V) (isT : Option V → Bool) (replies : Memory)
    (view : Option View) : Outcome V :=
  present codec isT (view.map fun v => TypedData.whole (v.bytes replies))

/-- Every request that is handled was dispatched, and one that went to nobody is answered
with null. -/
structure Heard (s : Process) (xs : List Act) : Prop where
  accounted : ∀ h ∈ s.channel.handlings, Accounted h.request
  dispatched : ∀ h ∈ s.channel.handlings, ∃ given, .dispatch h.tag given ∈ xs ∧
    (given = none → h.request.handler = .absent)
  answered : ∀ tag r, .answer tag r ∈ xs → ∃ given, .dispatch tag given ∈ xs ∧
    (given = none → r = none)

section Steps
variable {s t : Process} {xs : List Act}

/-- A request to no handler is answered by the messenger only. -/
theorem absent_null {r r' : Request DirectByteBuffer}
    {e : ConcurrentMessenger.Event DirectByteBuffer} (hs : Accounted r)
    (habsent : r.handler = .absent) (h : ConcurrentMessenger.step r e = some r') :
    ∀ c ∈ newCalls r r', c.reply = none := by
  have hpending : r.submitting = none := hs.pending (hs.unhanded (hs.absent habsent))
  cases ConcurrentMessenger.step_moves h with
  | native pending =>
    rw [hpending] at pending
    cases pending
  | replyNull => simp [newCalls, Request.replyMessageToDart]
  | _ => simp [newCalls, Request.uncaught]

theorem step_handler {r r' : Request DirectByteBuffer}
    {e : ConcurrentMessenger.Event DirectByteBuffer}
    (h : ConcurrentMessenger.step r e = some r') : r'.handler = r.handler := by
  cases ConcurrentMessenger.step_moves h <;> rfl

theorem handle_handlings [Vm] {c d : ConcurrentChannel.Process} {k : Nat} {h : Handling}
    {e : ConcurrentMessenger.Event DirectByteBuffer} {fresh : MessageWrapper}
    (hk : c.handlings[k]? = some h) (hm : ConcurrentChannel.Moves c (.handle k e fresh) d) :
    ∃ request, ConcurrentMessenger.step h.request e = some request ∧
      d.handlings = c.handlings.set k { h with request } := by
  cases hm with
  | handle hk' moves =>
    rw [hk] at hk'
    cases hk'
    exact ⟨_, moves, rfl⟩
  | reply hk' moves =>
    rw [hk] at hk'
    cases hk'
    refine ⟨_, moves, ?_⟩
    rw [ConcurrentChannel.post_handlings]
    rfl
  | touched reads => cases reads
  | construct reads => cases reads
  | schedule is => cases is

/-- What was dispatched stays so. -/
theorem Heard.more (hs : Heard s xs) (hh : t.channel.handlings = s.channel.handlings)
    {ys : List Act} (hy : ∀ tag r, .answer tag r ∉ ys) : Heard t (xs ++ ys) := by
  refine ⟨?_, ?_, ?_⟩
  · rw [hh]
    exact hs.accounted
  · rw [hh]
    intro h hm
    obtain ⟨given, hin, habsent⟩ := hs.dispatched h hm
    exact ⟨given, List.mem_append_left _ hin, habsent⟩
  · intro tag r hr
    rcases List.mem_append.mp hr with hr | hr
    · obtain ⟨given, hin, hnone⟩ := hs.answered tag r hr
      exact ⟨given, List.mem_append_left _ hin, hnone⟩
    · exact absurd hr (hy tag r)

/-- A dispatch brings a request of its own. -/
theorem call_heard [Vm] {i : Nat} {task : Tagged TaskMessageWrapper}
    {d : ConcurrentChannel.Process} (hs : Heard s xs)
    (held : s.channel.pool.threads[i]? = some (.holding task))
    (hm : ConcurrentChannel.Moves s.channel (.call i (MessageHandler.kind
      (s.dispatch .concurrent (incomingTask task.val)).handler)) d) :
    Heard { s with
        channel := d
        dispatches := s.dispatches ++ [s.dispatch .concurrent (incomingTask task.val)] }
      (xs ++ [.dispatch task.tag (Process.given s task.val)]) := by
  cases hm with
  | call held' _ =>
    rw [held] at held'
    cases held'
    have hmore : Heard s (xs ++ [.dispatch task.tag (Process.given s task.val)]) :=
      hs.more rfl (by simp)
    refine ⟨?_, ?_, hmore.answered⟩
    · intro h hin
      rcases List.mem_append.mp hin with hin | hin
      · exact hs.accounted h hin
      · rw [List.mem_singleton.mp hin]
        exact SingleReply.start_accounted _ _ _
    · intro h hin
      rcases List.mem_append.mp hin with hin | hin
      · exact hmore.dispatched h hin
      · rw [List.mem_singleton.mp hin]
        refine ⟨Process.given s task.val, by simp, ?_⟩
        intro hnone
        have hhandler := Option.map_eq_none_iff.mp hnone
        simp only [ConcurrentMessenger.handleMessageFromDart, hhandler]
        rfl
  | touched reads => cases reads
  | construct reads => cases reads
  | schedule is => cases is

/-- The answers of a step belong to a request that was dispatched. -/
theorem handle_heard [Vm] {k : Nat} {e : ConcurrentMessenger.Event DirectByteBuffer}
    {fresh : MessageWrapper} {h : Handling} {heap : BlockHeap.Heap Owner}
    {d : ConcurrentChannel.Process} (hs : Heard s xs) (hk : s.channel.handlings[k]? = some h)
    (hm : ConcurrentChannel.Moves s.channel (.handle k e fresh) d) :
    Heard { s with channel := d, heap } (xs ++ seen s (.handle k e fresh)) := by
  obtain ⟨request, hstep, hset⟩ := handle_handlings hk hm
  have hin := List.mem_of_getElem? hk
  have hseen : seen s (.handle k e fresh) =
      (newCalls h.request request).map fun c => .answer h.tag c.reply := by
    simp [seen, hk, hstep]
  obtain ⟨given, hgiven, habsent⟩ := hs.dispatched h hin
  refine ⟨?_, ?_, ?_⟩
  · change ∀ x ∈ d.handlings, Accounted x.request
    rw [hset]
    exact forall_mem_set hs.accounted (SingleReply.step_accounted (hs.accounted h hin) hstep)
  · change ∀ x ∈ d.handlings, ∃ given, _
    rw [hset]
    refine forall_mem_set ?_ ?_
    · intro x hx
      obtain ⟨given, hgiven, habsent⟩ := hs.dispatched x hx
      exact ⟨given, List.mem_append_left _ hgiven, habsent⟩
    · refine ⟨given, List.mem_append_left _ hgiven, ?_⟩
      intro hnone
      exact (step_handler hstep).trans (habsent hnone)
  · intro tag r hr
    rcases List.mem_append.mp hr with hr | hr
    · obtain ⟨given, hgiven, hnone⟩ := hs.answered tag r hr
      exact ⟨given, List.mem_append_left _ hgiven, hnone⟩
    · rw [hseen] at hr
      obtain ⟨c, hc, he⟩ := List.mem_map.mp hr
      cases he
      refine ⟨given, List.mem_append_left _ hgiven, ?_⟩
      intro hnone
      exact absent_null (hs.accounted h hin) (habsent hnone) hstep c hc

theorem seen_channel [Vm] (e : ConcurrentChannel.Event) (tag : Tag)
    (r : Option DirectByteBuffer) : .answer tag r ∉ seen s (.channel e) := by
  cases e with
  | onReply a =>
    simp only [seen]
    split
    · split <;> simp
    · simp
  | _ => simp [seen]

theorem step_heard [Vm] {e : Event} (hs : Heard s xs) (h : step s e = some t) :
    Heard t (xs ++ seen s e) := by
  cases step_moves h with
  | setMessageHandler kind =>
    refine hs.more ?_ ?_
    · rfl
    · cases kind <;> simp [seen]
  | send read copied moves =>
    refine hs.more ?_ (by simp [seen, read])
    cases moves with
    | send => rfl
    | touched reads => cases reads
    | construct reads => cases reads
    | schedule is => cases is
  | call held moves =>
    have hcalled := call_heard hs held moves
    simpa only [seen, held] using hcalled
  | handle hk _ moves => exact handle_heard hs hk moves
  | returnSynchronous _ _ _ moves =>
    exact hs.more (PayloadPlaces.sendSynchronous_unmoved moves).handlings (by simp [seen])
  | channel quiet moves =>
    exact hs.more (PayloadPlaces.quiet_unmoved moves quiet).handlings (seen_channel _)
  | _ =>
    refine hs.more ?_ ?_
    · rfl
    · simp [seen]

theorem initial_heard (memory : Memory) : Heard (Process.initial memory) [] where
  accounted := by simp [Process.initial, ConcurrentChannel.Process.initial]
  dispatched := by simp [Process.initial, ConcurrentChannel.Process.initial]
  answered := by simp

end Steps

section Calls
variable {V : Type} {codec : MethodCodec V} {call : MethodCall V} {replies : Memory}

/-- What Dart makes of the answer to a call. -/
theorem presented_local (h : Inverts codec) (hstart : (codec.encodeMethodCall call).offset = 0)
    (f : MethodCallHandler V) (hc : ∀ message details, f call ≠ .error none message details)
    {r : Option DirectByteBuffer}
    (hr : r.map (fun b => b.bytes replies) = replyOf codec f (messageOf codec call))
    (isT : Option V → Bool) :
    some (presented codec isT replies (r.map DirectByteBuffer.view)) =
      localOutcome isT (some (f call)) := by
  have hreply : replyOf codec f (messageOf codec call) = envelope codec (f call) := by
    simp only [replyOf, (onMessage_decoded f (messageOf_start h hstart)).1]
  have hview : (r.map DirectByteBuffer.view).map (fun v => TypedData.whole (v.bytes replies)) =
      (r.map fun b => b.bytes replies).map TypedData.whole := by
    rw [Option.map_map, Option.map_map]
    rfl
  rw [presented, hview, hr, hreply]
  exact present_envelope h isT hc

end Calls

/-- However the calls on concurrent method channels interleave, with each other and with
registrations: a call that completes comes to what the handler registered when it was
dispatched makes of it on the spot, in the memory that shows its reply. -/
theorem calls_local [Vm] {V : Type} (a : Nat) (memory : Memory) (es : List Event)
    (hc : AllSteps step (Orderly a) (Process.initial memory) es)
    (hr : (run step (Process.initial memory) es).isSome = true) (codec : MethodCodec V)
    (h : Inverts codec) (handlers : MessageHandler → MethodCallHandler V)
    (hcoded : ∀ handler call message details, handlers handler call ≠ .error none message details)
    {tag : Tag} {channel : Int} {view : Option View} (replies : Memory)
    (hanswers : Answers codec handlers replies tag (trace step seen (Process.initial memory) es))
    (call : MethodCall V)
    (hstart : (codec.encodeMethodCall call).offset = 0)
    (hsend : .send tag channel (some (messageOf codec call)) ∈
      trace step seen (Process.initial memory) es)
    (hcomplete : .complete tag view ∈ trace step seen (Process.initial memory) es)
    (isT : Option V → Bool) :
    ∃ before after given, trace step seen (Process.initial memory) es =
        before ++ .dispatch tag given :: after ∧
      some (presented codec isT replies view) =
        localOutcome isT ((Registry.latest (registrations before) channel).map fun handler =>
          handlers handler call) := by
  obtain ⟨t, ht⟩ := Option.isSome_iff_exists.mp hr
  obtain ⟨v, hv, _⟩ := step_simulates.run (initial_matches a memory) hc ht
  have hheard := trace_invariant (fun _ _ _ _ hs h => step_heard hs h) (initial_heard memory) ht
  rw [List.nil_append] at hheard
  generalize trace step seen (Process.initial memory) es = xs at *
  obtain ⟨c, m, given, r, hacts, rfl⟩ := Exchange.completed hv hcomplete
  -- the request has one act of each kind
  have hown : ∀ {x : Act}, x ∈ xs → x.request = some tag → x ∈ acts tag xs :=
    fun hx hrequest => mem_acts.mpr ⟨hx, hrequest⟩
  have hdispatch : .dispatch tag given ∈ xs := (mem_acts.mp (by rw [hacts]; simp)).1
  have hanswer : .answer tag r ∈ xs := (mem_acts.mp (by rw [hacts]; simp)).1
  obtain ⟨before, after, c', m', rfl, hbefore, hlatest⟩ := Exchange.dispatched hv hdispatch
  have hsame : c' = channel ∧ m' = some (messageOf codec call) := by
    have hfirst := hown hsend rfl
    have hsecond := hown (List.mem_append_left _ hbefore) rfl
    rw [hacts] at hfirst hsecond
    simp only [List.mem_cons, Exchange.Act.send.injEq, reduceCtorEq, List.not_mem_nil, or_false,
      true_and] at hfirst hsecond
    exact ⟨hsecond.1.trans hfirst.1.symm, hsecond.2.trans hfirst.2.symm⟩
  obtain ⟨rfl, rfl⟩ := hsame
  refine ⟨before, after, given, rfl, ?_⟩
  cases hfound : Registry.latest (registrations before) c' with
  | none =>
    rw [hfound] at hlatest
    cases hlatest
    obtain ⟨given', hgiven, hnull⟩ := hheard.answered tag r hanswer
    have hnone : given' = none := by
      have hin := hown hgiven rfl
      rw [hacts] at hin
      simpa using hin
    rw [hnull hnone]
    rfl
  | some handler =>
    rw [hfound] at hlatest
    cases hlatest
    exact presented_local h hstart (handlers handler) (hcoded handler call)
      (hanswers handler _ r hdispatch hanswer) isT

section Sample
attribute [local instance] Vm.lp64

/-- Two calls on two workers, the first to a handler and the second to nobody, which is done
first. -/
def twoCalls : List Event :=
  [.setMessageHandler .concurrent 9 (some ⟨0, true⟩), .newUint8List [0],
    .channel (.instance_ 0 4), .send 0 9 (some 0) 4096, .send 0 5 (some 0) 4104,
    .channel (.notifyOne none), .channel (.notifyOne none), .channel (.test 0),
    .channel (.frontPop 0), .call 0, .channel (.test 1), .channel (.frontPop 1), .call 1,
    .handle 1 .replyNull ⟨0, 0, 0⟩, .channel (.onReply 0), .handle 0 (.decode none) ⟨0, 0, 0⟩,
    .handle 0 (.reply true (some ⟨20480, 2, by decide, by decide⟩)) ⟨0, 0, 0⟩,
    .handle 0 .native ⟨0, 0, 3⟩, .channel (.onReply 0)]

theorem twoCalls_trace : trace step seen (Process.initial fun _ => 0) twoCalls =
    [.register 9 (some ⟨0, true⟩), .send ⟨0, 1⟩ 9 (some [0]), .send ⟨0, 2⟩ 5 (some [0]),
      .dispatch ⟨0, 1⟩ (some (⟨0, true⟩, some [0])), .dispatch ⟨0, 2⟩ none, .answer ⟨0, 2⟩ none,
      .complete ⟨0, 2⟩ none, .answer ⟨0, 1⟩ (some ⟨20480, 2, by decide, by decide⟩),
      .complete ⟨0, 1⟩ (some ⟨20480, 2⟩)] := by decide

theorem calls_local_two_calls : ∃ before after given,
    trace step seen (Process.initial fun _ => 0) twoCalls =
        before ++ .dispatch ⟨0, 1⟩ given :: after ∧
      some (presented Outcome.sampleCodec (fun _ => true) (fun _ => 0) (some ⟨20480, 2⟩)) =
        localOutcome (fun _ => true)
          ((Registry.latest (registrations before) 9).map fun _ => .success (some 0)) := by
  have hmessage : messageOf Outcome.sampleCodec ⟨"", some 0⟩ = [0] := rfl
  refine calls_local 0 (fun _ => 0) twoCalls (by decide) (by decide) Outcome.sampleCodec
    Outcome.sampleCodec_inverts (fun _ _ => .success (some 0)) (by simp) (fun _ => 0) ?_
    ⟨"", some 0⟩ rfl ?_ ?_ fun _ => true
  · intro handler message r hdispatch hanswer
    rw [twoCalls_trace] at hdispatch hanswer
    simp only [List.mem_cons, reduceCtorEq, Exchange.Act.dispatch.injEq, Option.some.injEq,
      Prod.mk.injEq, true_and, false_or, or_false, List.not_mem_nil, and_false] at hdispatch
    obtain ⟨rfl, rfl⟩ := hdispatch
    obtain rfl : r = some ⟨20480, 2, by decide, by decide⟩ := by simpa using hanswer
    have hdecoded : Outcome.sampleCodec.decodeMethodCall (messageOf Outcome.sampleCodec ⟨"", some 0⟩) =
        .ok ⟨"", some 0⟩ := messageOf_start Outcome.sampleCodec_inverts rfl
    rw [hmessage] at hdecoded
    simp only [replyOf, (onMessage_decoded _ hdecoded).1]
    rfl
  · rw [hmessage, twoCalls_trace]
    simp
  · rw [twoCalls_trace]
    simp

end Sample

end NativeChannel.ConcurrentCalls
