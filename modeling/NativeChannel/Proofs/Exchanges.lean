import NativeChannel.Library.Exchange
import NativeChannel.Library.Simulation
import NativeChannel.Proofs.Conservation
import NativeChannel.Proofs.Framing
import NativeChannel.Proofs.PayloadsArrive

namespace NativeChannel.Exchanges
open Runs Counts ByteMemory Simulation RequestPayloads PayloadPlaces
open ConcurrentChannel (Tag Tagged TaskMessageWrapper Handling newCalls)
open Conservation (Conforms Solo)
open PayloadsArrive (Benign Safe)
open Wrapper (DirectByteBuffer MessageWrapper View Vm)

/-- What the applications on both sides see of a concurrent channel. Requests are known by
their `send`, and handlers by their channel. -/
abbrev Act := Exchange.Act Tag Int MessageHandler (Option (List UInt8))
  (Option DirectByteBuffer) (Option View)

abbrev Service := Exchange.Service Tag Int MessageHandler (Option (List UInt8))
  (Option DirectByteBuffer)

/-- The service that the channel is meant to be: an answer arrives as a view of it. -/
def serve : Service → Act → Option Service := Exchange.step (Option.map DirectByteBuffer.view)

/-- What `onMessage` reads in its buffer. -/
def Process.content (s : Process) (b : ByteBuffer) : List UInt8 :=
  bytesAt s.heap.memory b.address b.capacity.toNat

/-- The handler that a task goes to and what it finds, when there is one. -/
def Process.given (s : Process) (task : TaskMessageWrapper) :
    Option (MessageHandler × Option (List UInt8)) :=
  let d := s.dispatch .concurrent (incomingTask task)
  d.handler.map fun handler => (handler, d.incoming.message.map (Process.content s))

/-- The acts of one step. A request is answered when its `replyMessageToDart` is called,
and completed when `onReply` finds its completer and gets through. -/
def seen [Vm] (s : Process) : Event → List Act
  | .setMessageHandler .concurrent channel handler => [.register channel handler]
  | .send a channel message _ =>
    match s.read message with
    | some bytes => [.send ⟨a, (s.channel.isolates a).seq⟩ channel bytes]
    | none => []
  | .call i =>
    match s.channel.pool.threads[i]? with
    | some (.holding task) => [.dispatch task.tag (Process.given s task.val)]
    | _ => []
  | .handle k e _ =>
    match s.channel.handlings[k]? with
    | some h =>
      match ConcurrentMessenger.step h.request e with
      | some request => (newCalls h.request request).map fun c => .answer h.tag c.reply
      | none => []
    | none => []
  | .channel (.onReply a) =>
    match (s.channel.isolates a).replyPort with
    | w :: _ =>
      if w.val.seq ∈ (s.channel.isolates a).resultCompleters ∧ w.val.throws = false then
        [.complete ⟨a, w.val.seq⟩ w.val.received]
      else []
    | [] => []
  | _ => []

/-- The event of the channel in a step. -/
def channelEvent (s : Process) : Event → Option ConcurrentChannel.Event
  | .send a channel message allocated =>
    (s.read message).map fun bytes => .send a channel bytes allocated
  | .call i =>
    match s.channel.pool.threads[i]? with
    | some (.holding task) => some (.call i
        (MessageHandler.kind (s.dispatch .concurrent (incomingTask task.val)).handler))
    | _ => none
  | .handle k e fresh => some (.handle k e fresh)
  | .returnSynchronous _ a result fresh => some (.sendSynchronous a result fresh)
  | .channel e => some e
  | _ => none

/-- A wrapper for a null reply has a null `data` from `new`. -/
def NullZeroed (s : Process) : Event → Prop
  | .handle k e fresh => ∀ h ∈ s.channel.handlings[k]?,
      ∀ request ∈ ConcurrentMessenger.step h.request e,
        ∀ c ∈ newCalls h.request request, c.reply = none → fresh.data = 0
  | _ => True

instance (s : Process) : (e : Event) → Decidable (NullZeroed s e)
  | .handle k e fresh =>
    (inferInstance : Decidable (∀ h ∈ s.channel.handlings[k]?,
      ∀ request ∈ ConcurrentMessenger.step h.request e,
        ∀ c ∈ newCalls h.request request, c.reply = none → fresh.data = 0))
  | .newUint8List _ | .mutate _ _ _ | .setMessageHandler _ _ _ | .send _ _ _ _ | .call _
  | .sendSynchronous _ _ _ | .returnSynchronous _ _ _ _ | .channel _ | .malloc _ _ | .write _ _ _
  | .free _ => isTrue trivial

/-- Only isolate `a` takes part, each handler replies or throws, no null message goes to a
handler, and null replies go out in zeroed wrappers. -/
def Orderly (a : Nat) (s : Process) (e : Event) : Prop :=
  (∀ f ∈ channelEvent s e, Conforms a s.channel f) ∧ Benign s e ∧ NullZeroed s e

instance (a : Nat) (s : Process) (e : Event) : Decidable (Orderly a s e) :=
  inferInstanceAs (Decidable (_ ∧ _ ∧ _))

/-- Where a request is in the process says how far it is in the service. -/
structure Matches (a : Nat) (s : Process) (u : Service) : Prop where
  safe : Safe s
  solo : Solo a s.channel
  handlers : u.handlers = s.messageHandlers .concurrent
  unsent : ∀ tag, s.sent tag = none → u.phases tag = .unsent
  waiting : ∀ x ∈ tasks s.channel.pool, ∀ m, s.sent x.tag = some m →
    u.phases x.tag = .waiting m.channel m.message
  handling : ∀ h ∈ s.channel.handlings, h.request.calls = [] → u.phases h.tag = .handling
  posted : ∀ w ∈ (s.channel.isolates a).replyPort, ∃ r, u.phases w.tag = .answered r ∧
    w.val.received = r.map DirectByteBuffer.view
  single : ((s.channel.isolates a).replyPort.map Tagged.tag).Nodup

section Places
variable {s t : Process} {u : Service} {a : Nat}

/-- Requests that stay where they are. -/
theorem Matches.of_same (hs : Matches a s u) (hsafe : Safe t) (hsolo : Solo a t.channel)
    (hhandlers : t.messageHandlers .concurrent = s.messageHandlers .concurrent)
    (hsent : t.sent = s.sent) (htasks : (tasks t.channel.pool).Perm (tasks s.channel.pool))
    (hhandlings : t.channel.handlings = s.channel.handlings)
    (hport : (t.channel.isolates a).replyPort = (s.channel.isolates a).replyPort) :
    Matches a t u := by
  refine ⟨hsafe, hsolo, hs.handlers.trans hhandlers.symm, ?_, ?_, ?_, ?_, ?_⟩
  · rw [hsent]
    exact hs.unsent
  · intro x hx m hm
    exact hs.waiting x (htasks.mem_iff.mp hx) m (hsent ▸ hm)
  · rw [hhandlings]
    exact hs.handling
  · rw [hport]
    exact hs.posted
  · rw [hport]
    exact hs.single

/-- One request goes on, and the others stay where they are. -/
theorem Matches.advance (hs : Matches a s u) {tag : Tag}
    {x : Exchange.Phase Int (Option (List UInt8)) (Option DirectByteBuffer)} (hsafe : Safe t)
    (hsolo : Solo a t.channel)
    (hhandlers : t.messageHandlers .concurrent = s.messageHandlers .concurrent)
    (hunsent : ∀ k, t.sent k = none → k ≠ tag ∧ s.sent k = none)
    (hwaiting : ∀ y ∈ tasks t.channel.pool, ∀ m, t.sent y.tag = some m →
      y.tag = tag ∧ x = .waiting m.channel m.message ∨
        y.tag ≠ tag ∧ y ∈ tasks s.channel.pool ∧ s.sent y.tag = some m)
    (hhandling : ∀ h ∈ t.channel.handlings, h.request.calls = [] →
      h.tag = tag ∧ x = .handling ∨ h.tag ≠ tag ∧ h ∈ s.channel.handlings)
    (hposted : ∀ w ∈ (t.channel.isolates a).replyPort,
      (w.tag = tag ∧ ∃ r, x = .answered r ∧ w.val.received = r.map DirectByteBuffer.view) ∨
        w.tag ≠ tag ∧ w ∈ (s.channel.isolates a).replyPort)
    (hsingle : ((t.channel.isolates a).replyPort.map Tagged.tag).Nodup) :
    Matches a t (u.setPhase tag x) := by
  have hself : (u.setPhase tag x).phases tag = x := Exchange.setPhase_phases_self u tag x
  have hother : ∀ {k : Tag}, k ≠ tag → (u.setPhase tag x).phases k = u.phases k :=
    fun hk => Exchange.setPhase_phases_ne u x hk
  refine ⟨hsafe, hsolo, hs.handlers.trans hhandlers.symm, ?_, ?_, ?_, ?_, hsingle⟩
  · intro k hk
    obtain ⟨hne, hk⟩ := hunsent k hk
    rw [hother hne]
    exact hs.unsent k hk
  · intro y hy m hm
    rcases hwaiting y hy m hm with ⟨htag, hx⟩ | ⟨hne, hy, hm⟩
    · rw [htag, hself, hx]
    · rw [hother hne]
      exact hs.waiting y hy m hm
  · intro h hh hcalls
    rcases hhandling h hh hcalls with ⟨htag, hx⟩ | ⟨hne, hh⟩
    · rw [htag, hself, hx]
    · rw [hother hne]
      exact hs.handling h hh hcalls
  · intro w hw
    rcases hposted w hw with ⟨htag, r, hx, hr⟩ | ⟨hne, hw⟩
    · exact ⟨r, by rw [htag, hself, hx], hr⟩
    · rw [hother hne]
      exact hs.posted w hw

section Apart
variable {tag : Tag} {x : Exchange.Phase Int (Option (List UInt8)) (Option DirectByteBuffer)}

/-- A request in one phase is in no place of the other ones. -/
theorem Matches.apart_unsent (hs : Matches a s u) (hx : u.phases tag = x) (hne : x ≠ .unsent)
    {k : Tag} (hk : s.sent k = none) : k ≠ tag := by
  intro he
  rw [he] at hk
  exact hne (hx.symm.trans (hs.unsent tag hk))

theorem Matches.apart_waiting (hs : Matches a s u) (hx : u.phases tag = x)
    (hne : ∀ c m, x ≠ .waiting c m) {y : Tagged TaskMessageWrapper}
    (hy : y ∈ tasks s.channel.pool) {m : Sent} (hm : s.sent y.tag = some m) : y.tag ≠ tag := by
  intro he
  have hphase := hs.waiting y hy m hm
  rw [he] at hphase
  exact hne _ _ (hx.symm.trans hphase)

theorem Matches.apart_handling (hs : Matches a s u) (hx : u.phases tag = x) (hne : x ≠ .handling)
    {h : Handling} (hh : h ∈ s.channel.handlings) (hcalls : h.request.calls = []) :
    h.tag ≠ tag := by
  intro he
  have hphase := hs.handling h hh hcalls
  rw [he] at hphase
  exact hne (hx.symm.trans hphase)

theorem Matches.apart_posted (hs : Matches a s u) (hx : u.phases tag = x)
    (hne : ∀ r, x ≠ .answered r) {w : Tagged MessageWrapper}
    (hw : w ∈ (s.channel.isolates a).replyPort) : w.tag ≠ tag := by
  intro he
  obtain ⟨r, hphase, _⟩ := hs.posted w hw
  rw [he] at hphase
  exact hne r (hx.symm.trans hphase)

end Apart

/-- A handler finds the message that was sent, unless that was null. -/
theorem given_carried {task : Tagged TaskMessageWrapper} {m : Sent}
    (hc : PayloadsArrive.Carried s.heap task m)
    (hnull : m.message = none → s.messageHandlers .concurrent m.channel = none) :
    Process.given s task.val =
      (s.messageHandlers .concurrent m.channel).map fun handler => (handler, m.message) := by
  change (s.messageHandlers .concurrent task.val.channel).map _ = _
  rw [hc.channel]
  cases hh : s.messageHandlers .concurrent m.channel with
  | none => rfl
  | some handler =>
    have hne : m.message ≠ none := by
      intro h
      rw [hnull h] at hh
      cases hh
    have harrived := hc.memory.arrived hne
    obtain ⟨bytes, hbytes⟩ := Option.ne_none_iff_exists'.mp hne
    rw [hbytes] at harrived ⊢
    exact congrArg (fun content => some (handler, some content)) harrived.2

/-- The one native call for a request answers it, and its wrapper joins the port. -/
theorem answer_matches {k : Nat} {h : Handling} {heap : BlockHeap.Heap Owner}
    {request : ConcurrentMessenger.Request DirectByteBuffer} {r : Option DirectByteBuffer}
    {w : MessageWrapper} (hs : Matches a s u) (hk : s.channel.handlings[k]? = some h)
    (hnone : h.request.calls = []) (hcalls : request.calls ≠ [])
    (hsafe : Safe { s with
      channel := ((s.channel.setHandling k { h with request }).freeMessage h).post ⟨h.tag, w⟩
      heap })
    (hsolo : Solo a (((s.channel.setHandling k { h with request }).freeMessage h).post ⟨h.tag, w⟩))
    (hview : w.received = r.map DirectByteBuffer.view) :
    ∃ v, run serve u [.answer h.tag r] = some v ∧
      Matches a { s with
        channel := ((s.channel.setHandling k { h with request }).freeMessage h).post ⟨h.tag, w⟩
        heap } v := by
  have hphase := hs.handling h (mem_of_at hk) hnone
  have hport : (((((s.channel.setHandling k { h with request }).freeMessage h).post
      ⟨h.tag, w⟩).isolates) a).replyPort =
        (s.channel.isolates a).replyPort ++ [⟨h.tag, w⟩] := by
    have hpost := ConcurrentChannel.post_isolates
      (s := (s.channel.setHandling k { h with request }).freeMessage h) ⟨h.tag, w⟩
      (hs.solo.port hk)
    rw [hpost, Function.update_self]
    rfl
  have hposted : ∀ x ∈ (s.channel.isolates a).replyPort, x.tag ≠ h.tag :=
    fun x hx => hs.apart_posted hphase (by simp) hx
  refine ⟨u.setPhase h.tag (.answered r), ?_, ?_⟩
  · simp only [run_cons, run_nil, serve, Exchange.step, hphase]
    rfl
  refine hs.advance hsafe hsolo rfl ?_ ?_ ?_ ?_ ?_
  · intro k hk
    exact ⟨hs.apart_unsent hphase (by simp) hk, hk⟩
  · intro y hy m hm
    rw [ConcurrentChannel.post_pool] at hy
    exact Or.inr ⟨hs.apart_waiting hphase (by simp) hy hm, hy, hm⟩
  · intro h' hh' hcalls'
    rw [ConcurrentChannel.post_handlings] at hh'
    obtain ⟨j, hj⟩ := List.mem_iff_getElem?.mp hh'
    have hne : h' ≠ { h with request } := by
      intro he
      rw [he] at hcalls'
      exact hcalls hcalls'
    obtain ⟨hkj, hj⟩ := at_of_set hj hne
    refine Or.inr ⟨?_, mem_of_at hj⟩
    intro htag
    exact hkj (hs.safe.one_handling hk hj htag.symm)
  · intro x hx
    rw [hport] at hx
    rcases List.mem_append.mp hx with hx | hx
    · exact Or.inr ⟨hposted x hx, hx⟩
    · rw [List.mem_singleton.mp hx]
      exact Or.inl ⟨rfl, r, rfl, hview⟩
  · rw [hport, List.map_append, List.nodup_append]
    refine ⟨hs.single, List.nodup_singleton _, ?_⟩
    intro x hx y hy he
    obtain ⟨w', hw', rfl⟩ := List.mem_map.mp hx
    rw [List.map_singleton, List.mem_singleton] at hy
    exact hposted w' hw' (he.trans hy)

end Places

section Steps
variable [Vm] {s t : Process} {u : Service} {a : Nat}

/-- Every step of the process makes its event of the channel, and moves the channel by
nothing else. -/
theorem step_channel {e : Event} (h : step s e = some t) :
    t.channel = s.channel ∨
      ∃ f, channelEvent s e = some f ∧ ConcurrentChannel.step s.channel f = some t.channel := by
  unfold step at h
  split at h
  · cases h
  cases e with
  | newUint8List => cases h; exact Or.inl rfl
  | mutate => cases h; exact Or.inl rfl
  | setMessageHandler => cases h; exact Or.inl rfl
  | send b channel message allocated =>
    obtain ⟨bytes, hr, h⟩ := Option.bind_eq_some_iff.mp h
    obtain ⟨heap, _, h⟩ := Option.bind_eq_some_iff.mp h
    obtain ⟨u, hu, rfl⟩ := Option.map_eq_some_iff.mp h
    exact Or.inr ⟨_, by simp [channelEvent, hr], hu⟩
  | call i =>
    simp only at h
    split at h
    · rename_i task ht
      obtain ⟨incoming, hi, h⟩ := Option.bind_eq_some_iff.mp h
      cases hi
      obtain ⟨u, hu, rfl⟩ := Option.map_eq_some_iff.mp h
      exact Or.inr ⟨_, by simp only [channelEvent, ht]; rfl, hu⟩
    · cases h
  | handle k e fresh =>
    simp only at h
    split at h
    · obtain ⟨heap, _, h⟩ := Option.bind_eq_some_iff.mp h
      obtain ⟨u, hu, rfl⟩ := Option.map_eq_some_iff.mp h
      exact Or.inr ⟨_, rfl, hu⟩
    · cases h
  | sendSynchronous channel message allocated =>
    obtain ⟨bytes, _, h⟩ := Option.bind_eq_some_iff.mp h
    obtain ⟨heap, _, h⟩ := Option.bind_eq_some_iff.mp h
    obtain ⟨incoming, _, rfl⟩ := Option.map_eq_some_iff.mp h
    exact Or.inl rfl
  | returnSynchronous j b result fresh =>
    simp only at h
    split at h
    · split at h
      · cases h
      obtain ⟨heap, _, h⟩ := Option.bind_eq_some_iff.mp h
      obtain ⟨u, hu, rfl⟩ := Option.map_eq_some_iff.mp h
      exact Or.inr ⟨_, rfl, hu⟩
    · cases h
  | channel e =>
    simp only at h
    split at h
    · cases h
    obtain ⟨u, hu, rfl⟩ := Option.map_eq_some_iff.mp h
    exact Or.inr ⟨_, rfl, hu⟩
  | malloc allocated size =>
    obtain ⟨heap, _, rfl⟩ := Option.map_eq_some_iff.mp h
    exact Or.inl rfl
  | write b address bytes =>
    simp only at h
    split at h
    · cases h; exact Or.inl rfl
    · cases h
  | free b =>
    simp only at h
    split at h
    · obtain ⟨heap, _, rfl⟩ := Option.map_eq_some_iff.mp h
      exact Or.inl rfl
    · cases h

theorem step_channel_solo {e : Event} (hs : Solo a s.channel) (hc : Orderly a s e)
    (h : step s e = some t) : Solo a t.channel := by
  rcases step_channel h with hsame | ⟨f, hf, hstep⟩
  · rw [hsame]
    exact hs
  · exact Conservation.step_solo hs (hc.1 f hf) hstep

/-- Only `onReply` takes a wrapper from a port, and only a reply adds one. -/
theorem quiet_port {c d : ConcurrentChannel.Process} {e : ConcurrentChannel.Event}
    (hm : ConcurrentChannel.Moves c e d) (hq : touchesMessage e = false)
    (hr : ∀ b, e ≠ .onReply b) (b : Nat) :
    (d.isolates b).replyPort = (c.isolates b).replyPort := by
  cases hm with
  | newSynchronous => rfl
  | withMessenger => rfl
  | touched => rfl
  | @construct b' n e pool => exact (Conservation.construct_fields c b' pool b).1
  | schedule => rfl
  | onReply => exact absurd rfl (hr _)
  | send => cases hq
  | sendSynchronous => cases hq
  | call => cases hq
  | handle => cases hq
  | reply => cases hq

/-- A `send` of isolate `b` is a new request. -/
theorem send_matches {b : Nat} {channel : Int} {bytes : Option (List UInt8)} {allocated : Nat}
    {heap : BlockHeap.Heap Owner} {d : ConcurrentChannel.Process} (hs : Matches a s u)
    (hm : ConcurrentChannel.Moves s.channel (.send b channel bytes allocated) d)
    (hsolo : Solo a d)
    (copied : s.copy (.request ⟨b, (s.channel.isolates b).seq⟩) bytes allocated = some heap) :
    ∃ v, run serve u [.send ⟨b, (s.channel.isolates b).seq⟩ channel bytes] = some v ∧
      Matches a { s with
        channel := d
        heap
        sent := Function.update s.sent ⟨b, (s.channel.isolates b).seq⟩ (some ⟨channel, bytes⟩) }
        v := by
  let tag : Tag := ⟨b, (s.channel.isolates b).seq⟩
  have hsafe := PayloadsArrive.send_safe hs.safe copied hm
  have hfresh : s.sent tag = none := by
    by_contra hne
    obtain ⟨m, hsome⟩ := Option.ne_none_iff_exists'.mp hne
    exact absurd (hs.safe.placed tag m hsome).2 (lt_irrefl _)
  have hphase : u.phases tag = .unsent := hs.unsent tag hfresh
  refine ⟨u.setPhase tag (.waiting channel bytes), ?_, ?_⟩
  · simp only [run_cons, run_nil, serve, Exchange.step, tag] at hphase ⊢
    rw [hphase]
    rfl
  cases hm with
  | @send _ _ _ _ pool ready push =>
    have htasks : (tasks pool).Perm (⟨tag, ConcurrentChannel.sendTask channel tag.seq bytes
        allocated⟩ :: tasks s.channel.pool) := by
      cases (WorkerPool.step_moves push).2
      exact push_tasks _
    have hport : ((Function.update s.channel.isolates b (s.channel.isolates b).send) a).replyPort =
        (s.channel.isolates a).replyPort := by
      rw [Function.update_apply]
      split
      · rename_i hab
        rw [hab]
        rfl
      · rfl
    refine hs.advance hsafe hsolo rfl ?_ ?_ ?_ ?_ ?_
    · intro k hk
      have hne : k ≠ tag := by
        intro he
        subst he
        simp [Function.update_self, tag] at hk
      exact ⟨hne, (Function.update_of_ne hne _ _).symm.trans hk⟩
    · intro y hy m hm
      rcases List.mem_cons.mp (htasks.mem_iff.mp hy) with rfl | hy
      · left
        have hm : Function.update s.sent tag (some (⟨channel, bytes⟩ : Sent)) tag = some m := hm
        rw [Function.update_self] at hm
        cases hm
        exact ⟨rfl, rfl⟩
      · right
        obtain ⟨m', hm', _⟩ := hs.safe.waiting y hy
        have hne : y.tag ≠ tag := by
          intro he
          rw [he, hfresh] at hm'
          cases hm'
        exact ⟨hne, hy, (Function.update_of_ne hne _ _).symm.trans hm⟩
    · intro h hh hcalls
      exact Or.inr ⟨hs.apart_handling hphase (by simp) hh hcalls, hh⟩
    · intro w hw
      change w ∈ ((Function.update s.channel.isolates b (s.channel.isolates b).send) a).replyPort
        at hw
      rw [hport] at hw
      exact Or.inr ⟨hs.apart_posted hphase (by simp) hw, hw⟩
    · change (((Function.update s.channel.isolates b
        (s.channel.isolates b).send) a).replyPort.map Tagged.tag).Nodup
      rw [hport]
      exact hs.single
  | touched reads => cases reads
  | construct reads => cases reads
  | schedule is => cases is

/-- The task that a worker hands on is dispatched with its message. -/
theorem call_matches {i : Nat} {task : Tagged TaskMessageWrapper} {d : ConcurrentChannel.Process}
    (hs : Matches a s u) (held : s.channel.pool.threads[i]? = some (.holding task))
    (hm : ConcurrentChannel.Moves s.channel (.call i (MessageHandler.kind
      (s.dispatch .concurrent (incomingTask task.val)).handler)) d)
    (hsolo : Solo a d) (hc : Benign s (.call i)) :
    ∃ v, run serve u [.dispatch task.tag (Process.given s task.val)] = some v ∧
      Matches a { s with
        channel := d
        dispatches := s.dispatches ++ [s.dispatch .concurrent (incomingTask task.val)] } v := by
  have hsafe := PayloadsArrive.call_safe hs.safe held hm hc
  have htask : task ∈ tasks s.channel.pool := (call_tasks held).mem_iff.mp List.mem_cons_self
  obtain ⟨m, hsent, hcarried⟩ := hs.safe.waiting task htask
  have hphase := hs.waiting task htask m hsent
  have hgiven := given_carried hcarried fun hnull => hc task (by rw [held]; rfl) m hsent hnull
  refine ⟨u.setPhase task.tag .handling, ?_, ?_⟩
  · simp only [run_cons, run_nil, serve, Exchange.step, hphase]
    rw [if_pos (by rw [hgiven, hs.handlers])]
    rfl
  cases hm with
  | @call _ _ task' pool held' moves =>
    rw [held] at held'
    cases held'
    have htasks : (task :: tasks pool).Perm (tasks s.channel.pool) := by
      cases (WorkerPool.step_moves moves).2
      exact call_tasks held
    have hnodup : ((task :: tasks pool).map Tagged.tag).Nodup :=
      (htasks.map Tagged.tag).nodup_iff.mpr (List.nodup_append.mp hs.safe.unique).1
    refine hs.advance hsafe hsolo rfl ?_ ?_ ?_ ?_ hs.single
    · intro k hk
      refine ⟨?_, hk⟩
      intro he
      have hk : s.sent k = none := hk
      rw [he, hsent] at hk
      cases hk
    · intro y hy m' hm'
      refine Or.inr ⟨?_, htasks.mem_iff.mp (List.mem_cons_of_mem _ hy), hm'⟩
      intro he
      exact (List.nodup_cons.mp hnodup).1 (he ▸ List.mem_map_of_mem hy)
    · intro h hh hcalls
      rcases List.mem_append.mp hh with hh | hh
      · exact Or.inr ⟨hs.apart_handling hphase (by simp) hh hcalls, hh⟩
      · rw [List.mem_singleton.mp hh]
        exact Or.inl ⟨rfl, rfl⟩
    · intro w hw
      exact Or.inr ⟨hs.apart_posted hphase (by simp) hw, hw⟩
  | touched reads => cases reads
  | construct reads => cases reads
  | schedule is => cases is

/-- A step of a request answers it, by its one native call, or nobody sees it. -/
theorem handle_matches {k : Nat} {e : ConcurrentMessenger.Event DirectByteBuffer}
    {fresh : MessageWrapper} {h : Handling} {heap : BlockHeap.Heap Owner}
    {d : ConcurrentChannel.Process} (hs : Matches a s u) (hk : s.channel.handlings[k]? = some h)
    (hfree : (if e.isNative then s.freeMessage h.request.message else some s.heap) = some heap)
    (hm : ConcurrentChannel.Moves s.channel (.handle k e fresh) d) (hsolo : Solo a d)
    (hc : Orderly a s (.handle k e fresh)) :
    ∃ v, run serve u (seen s (.handle k e fresh)) = some v ∧
      Matches a { s with channel := d, heap } v := by
  have hsafe := PayloadsArrive.handle_safe hs.safe hk hfree hm hc.2.1
  cases hm with
  | @handle _ _ _ h' request hk' moves quiet calls =>
    rw [hk] at hk'
    cases hk'
    have hseen : seen s (.handle k e fresh) = [] := by
      simp only [seen, hk, moves, newCalls, calls, List.drop_length, List.map_nil]
    rw [hseen]
    refine ⟨u, rfl, hsafe, hsolo, hs.handlers, hs.unsent, hs.waiting, ?_, hs.posted, hs.single⟩
    apply forall_mem_set hs.handling
    intro hcalls
    exact hs.handling h (mem_of_at hk) (calls ▸ hcalls)
  | @reply _ _ _ h' request r hk' moves native calls =>
    rw [hk] at hk'
    cases hk'
    have hnone : h.request.calls = [] :=
      Conservation.first_call hs.solo.disciplined (hc.1 _ rfl) hk moves calls
    have hnew : newCalls h.request request = [⟨h.request.seq, r, h.request.message⟩] := by
      simp [newCalls, calls]
    have hseen : seen s (.handle k e fresh) = [.answer h.tag r] := by
      simp only [seen, hk, moves, hnew, List.map_cons, List.map_nil]
    have hview : (fresh.fill h.request.seq r).received = r.map DirectByteBuffer.view := by
      refine (Framing.received_fill fresh h.request.seq r).mpr ?_
      cases r with
      | none => exact Or.inr (hc.2.2 h hk request moves _ (hnew ▸ List.mem_singleton_self _) rfl)
      | some b => exact Or.inl rfl
    rw [hseen]
    exact answer_matches hs hk hnone (by simp [calls]) hsafe hsolo hview
  | touched reads => cases reads
  | construct reads => cases reads
  | schedule is => cases is

/-- The wrapper in front completes the request that it answers, or nobody sees it. -/
theorem onReply_matches {d : ConcurrentChannel.Process} {w : Tagged MessageWrapper}
    {rest : List (Tagged MessageWrapper)} (hs : Matches a s u) (hsafe : Safe { s with channel := d })
    (hp : (s.channel.isolates a).replyPort = w :: rest) (hsolo : Solo a d)
    (hd : d = (s.channel.setIsolate a
      ({ s.channel.isolates a with replyPort := rest }.onReply w)).registerFinalizer
        w.val.built) :
    ∃ v, run serve u (seen s (.channel (.onReply a))) = some v ∧
      Matches a { s with channel := d } v := by
  have hw : w ∈ (s.channel.isolates a).replyPort := by simp [hp]
  have hport : (d.isolates a).replyPort = rest := by
    rw [hd, ConcurrentChannel.registerFinalizer_isolates]
    simp only [ConcurrentChannel.Process.setIsolate, Function.update_self]
    exact (ConcurrentChannel.onReply_fields _ w).2.1
  have hpool : d.pool = s.channel.pool := by
    rw [hd, ConcurrentChannel.registerFinalizer_pool]
    rfl
  have hhandlings : d.handlings = s.channel.handlings := by
    rw [hd, ConcurrentChannel.registerFinalizer_handlings]
    rfl
  have hfront : ∀ x ∈ rest, x ∈ (s.channel.isolates a).replyPort := by
    intro x hx
    rw [hp]
    exact List.mem_cons_of_mem _ hx
  have hsingle := hs.single
  rw [hp] at hsingle
  obtain ⟨hout, hrest⟩ := List.nodup_cons.mp hsingle
  by_cases hthrough : w.val.seq ∈ (s.channel.isolates a).resultCompleters ∧ w.val.throws = false
  · have htag : (⟨a, w.val.seq⟩ : Tag) = w.tag := by
      rw [hs.solo.traced.posted a w hw, ← (hs.solo.home.isolates a).posted w hw]
    have hseen : seen s (.channel (.onReply a)) = [.complete w.tag w.val.received] := by
      simp only [seen, hp, if_pos hthrough, htag]
    obtain ⟨r, hphase, hview⟩ := hs.posted w hw
    rw [hseen]
    refine ⟨u.setPhase w.tag .completed, ?_, ?_⟩
    · simp only [run_cons, run_nil, serve, Exchange.step, hphase]
      rw [if_pos hview]
      rfl
    refine hs.advance hsafe hsolo rfl ?_ ?_ ?_ ?_ ?_
    · intro k hk
      exact ⟨hs.apart_unsent hphase (by simp) hk, hk⟩
    · intro y hy m hm
      have hy : y ∈ tasks s.channel.pool := hpool ▸ hy
      exact Or.inr ⟨hs.apart_waiting hphase (by simp) hy hm, hy, hm⟩
    · intro h hh hcalls
      have hh : h ∈ s.channel.handlings := hhandlings ▸ hh
      exact Or.inr ⟨hs.apart_handling hphase (by simp) hh hcalls, hh⟩
    · intro x hx
      have hx : x ∈ rest := hport ▸ hx
      refine Or.inr ⟨?_, hfront x hx⟩
      intro he
      exact hout (he ▸ List.mem_map_of_mem hx)
    · rw [hport]
      exact hrest
  · have hseen : seen s (.channel (.onReply a)) = [] := by
      simp only [seen, hp, if_neg hthrough]
    rw [hseen]
    refine ⟨u, rfl, hsafe, hsolo, hs.handlers, hs.unsent, ?_, ?_, ?_, ?_⟩
    · rw [hpool]
      exact hs.waiting
    · rw [hhandlings]
      exact hs.handling
    · rw [hport]
      exact fun x hx => hs.posted x (hfront x hx)
    · rw [hport]
      exact hrest

theorem channel_matches {e : ConcurrentChannel.Event} {d : ConcurrentChannel.Process}
    (hs : Matches a s u) (hsafe : Safe { s with channel := d })
    (hq : touchesMessage e = false) (hm : ConcurrentChannel.Moves s.channel e d)
    (hsolo : Solo a d) (hc : Conservation.Event.By a e) :
    ∃ v, run serve u (seen s (.channel e)) = some v ∧ Matches a { s with channel := d } v := by
  by_cases hr : ∃ b, e = .onReply b
  · obtain ⟨b, rfl⟩ := hr
    obtain rfl : b = a := hc
    cases hm with
    | onReply hp => exact onReply_matches hs hsafe hp hsolo rfl
    | touched reads => cases reads
    | construct reads => cases reads
    | schedule is => cases is
  · have hnot : ∀ b, e ≠ .onReply b := fun b he => hr ⟨b, he⟩
    have hseen : seen s (.channel e) = [] := by
      cases e with
      | onReply b => exact absurd rfl (hnot b)
      | _ => rfl
    have hunmoved := quiet_unmoved hm hq
    rw [hseen]
    exact ⟨u, rfl, hs.of_same hsafe hsolo rfl rfl hunmoved.tasks hunmoved.handlings
      (quiet_port hm hq hnot a)⟩

/-- The registration of a handler is seen by the requests dispatched from then on. -/
theorem setMessageHandler_matches {kind : MessageHandlers.Kind} {channel : Int}
    {handler : Option MessageHandler} (hs : Matches a s u) :
    ∃ v, run serve u (seen s (.setMessageHandler kind channel handler)) = some v ∧
      Matches a (s.setMessageHandler kind channel handler) v := by
  have hsafe : Safe (s.setMessageHandler kind channel handler) :=
    ⟨hs.safe.waiting, hs.safe.paired, hs.safe.handled, hs.safe.unique, hs.safe.placed,
      hs.safe.calls⟩
  cases kind with
  | concurrent =>
    refine ⟨{ u with handlers := Function.update u.handlers channel handler }, rfl, hsafe, hs.solo,
      ?_, hs.unsent, hs.waiting, hs.handling, hs.posted, hs.single⟩
    simp only [Process.setMessageHandler, Function.update_self, hs.handlers]
  | synchronous =>
    refine ⟨u, rfl, hs.of_same hsafe hs.solo ?_ rfl (List.Perm.refl _) rfl rfl⟩
    simp [Process.setMessageHandler]

/-- What is seen of a step, the service could have done. -/
theorem step_simulates : Simulates step serve seen (Orderly a) (Matches a) := by
  intro s u e t hs hc h
  have hsolo := step_channel_solo hs.solo hc h
  have hsafe := PayloadsArrive.step_safe hs.safe hc.2.1 h
  have hsame : (t.channel = s.channel) → t.messageHandlers = s.messageHandlers →
      t.sent = s.sent → Matches a t u := by
    intro hchannel hhandlers hsent
    apply hs.of_same hsafe hsolo (by rw [hhandlers]) hsent
    · rw [hchannel]
    · rw [hchannel]
    · rw [hchannel]
  cases step_moves h with
  | newUint8List => exact ⟨u, rfl, hsame rfl rfl rfl⟩
  | mutate => exact ⟨u, rfl, hsame rfl rfl rfl⟩
  | setMessageHandler => exact setMessageHandler_matches hs
  | send read copied moves =>
    have hsent := send_matches hs moves hsolo copied
    simpa only [seen, read] using hsent
  | call held moves =>
    have hcalled := call_matches hs held moves hsolo hc.2.1
    simpa only [seen, held] using hcalled
  | handle hk freed moves => exact handle_matches hs hk freed moves hsolo hc
  | sendSynchronous => exact ⟨u, rfl, hsame rfl rfl rfl⟩
  | returnSynchronous hj running freed moves =>
    have hunmoved := sendSynchronous_unmoved moves
    refine ⟨u, rfl, hs.of_same hsafe hsolo rfl rfl hunmoved.tasks hunmoved.handlings ?_⟩
    cases moves with
    | sendSynchronous =>
      change ((s.channel.registerFinalizer _).isolates a).replyPort = _
      rw [ConcurrentChannel.registerFinalizer_isolates]
    | touched reads => cases reads
    | construct reads => cases reads
    | schedule is => cases is
  | channel quiet moves =>
    exact channel_matches hs hsafe quiet moves hsolo (hc.1 _ rfl).1
  | malloc => exact ⟨u, rfl, hsame rfl rfl rfl⟩
  | write => exact ⟨u, rfl, hsame rfl rfl rfl⟩
  | free => exact ⟨u, rfl, hsame rfl rfl rfl⟩

theorem initial_matches (a : Nat) (memory : Memory) :
    Matches a (Process.initial memory) Exchange.Service.initial := by
  refine ⟨PayloadsArrive.initial_safe memory, (Conservation.initial_kept a).toSolo, rfl, fun _ _ => rfl,
    ?_, ?_, ?_, List.nodup_nil⟩
  · intro x hx
    cases hx
  · intro h hh
    cases hh
  · intro w hw
    cases hw

end Steps

/-- What the applications see of a run is a run of the service. -/
theorem channel_serves [Vm] (a : Nat) (memory : Memory) (es : List Event)
    (hc : AllSteps step (Orderly a) (Process.initial memory) es)
    (hr : (run step (Process.initial memory) es).isSome = true) :
    (run serve Exchange.Service.initial
      (trace step seen (Process.initial memory) es)).isSome = true := by
  obtain ⟨t, ht⟩ := Option.isSome_iff_exists.mp hr
  obtain ⟨v, hv, _⟩ := step_simulates.run (initial_matches a memory) hc ht
  exact Option.isSome_iff_exists.mpr ⟨v, hv⟩

/-- So the acts of each request are those of one exchange, in order. -/
theorem exchange_in_order [Vm] (a : Nat) (memory : Memory) (es : List Event)
    (hc : AllSteps step (Orderly a) (Process.initial memory) es)
    (hr : (run step (Process.initial memory) es).isSome = true) (tag : Tag) :
    ∃ phase, Exchange.InOrder (Option.map DirectByteBuffer.view) tag phase
      (Exchange.acts tag (trace step seen (Process.initial memory) es)) := by
  obtain ⟨t, ht⟩ := Option.isSome_iff_exists.mp hr
  obtain ⟨v, hv, _⟩ := step_simulates.run (initial_matches a memory) hc ht
  exact ⟨_, Exchange.run_inOrder hv tag⟩

/-- Two requests, to a handler that answers with a buffer and to nobody. The list of the
first changes after its `send`. -/
def twoRequests : List Event :=
  [.setMessageHandler .concurrent 9 (some ⟨0, false⟩), .newUint8List [1, 2],
    .channel (.instance_ 0 2), .send 0 9 (some 0) 4096, .mutate 0 0 7, .send 0 5 none 0,
    .channel (.notifyOne none), .channel (.test 0), .channel (.frontPop 0), .call 0,
    .handle 0 (.reply true (some ⟨12288, 4, by decide, by decide⟩)) ⟨0, 0, 3⟩,
    .handle 0 .native ⟨0, 0, 3⟩, .channel (.onReply 0), .handle 0 .returns ⟨0, 0, 0⟩,
    .channel (.finish 0), .channel (.test 0), .channel (.frontPop 0), .call 0,
    .handle 1 .replyNull ⟨0, 0, 0⟩, .channel (.onReply 0)]

attribute [local instance] Vm.lp64

theorem channel_serves_two_requests :
    (run serve Exchange.Service.initial
      (trace step seen (Process.initial fun _ => 0) twoRequests)).isSome = true :=
  channel_serves 0 (fun _ => 0) twoRequests (by decide) (by decide)

example : trace step seen (Process.initial fun _ => 0) twoRequests =
    [.register 9 (some ⟨0, false⟩), .send ⟨0, 1⟩ 9 (some [1, 2]), .send ⟨0, 2⟩ 5 none,
      .dispatch ⟨0, 1⟩ (some (⟨0, false⟩, some [1, 2])),
      .answer ⟨0, 1⟩ (some ⟨12288, 4, by decide, by decide⟩),
      .complete ⟨0, 1⟩ (some ⟨12288, 4⟩), .dispatch ⟨0, 2⟩ none, .answer ⟨0, 2⟩ none,
      .complete ⟨0, 2⟩ none] := by decide

theorem exchange_in_order_two_requests :
    ∃ phase, Exchange.InOrder (Option.map DirectByteBuffer.view) ⟨0, 1⟩ phase
      (Exchange.acts ⟨0, 1⟩ (trace step seen (Process.initial fun _ => 0) twoRequests)) :=
  exchange_in_order 0 (fun _ => 0) twoRequests (by decide) (by decide) ⟨0, 1⟩

end NativeChannel.Exchanges
