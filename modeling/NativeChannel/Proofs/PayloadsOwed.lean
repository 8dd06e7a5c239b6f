import NativeChannel.Library.Runs
import NativeChannel.Proofs.PayloadPlaces

namespace NativeChannel.PayloadsOwed
open Runs Counts BlockHeap RequestPayloads PayloadPlaces
open ConcurrentChannel (Tag Tagged TaskMessageWrapper Handling)
open Wrapper (Vm)

/-- The request is on its way and will free the block at `p` when it is replied to. -/
def RequestOwes (s : Process) (tag : Tag) (p : Nat) : Prop :=
  (∃ x ∈ tasks s.channel.pool, x.tag = tag ∧ x.val.message.data = p) ∨
    ∃ h ∈ s.channel.handlings, h.tag = tag ∧ h.request.calls = [] ∧ h.request.message = some p

/-- The call has yet to return, and to free the block at `p`. -/
def CallOwes (s : Process) (j p : Nat) : Prop :=
  ∃ c, s.synchronousCalls[j]? = some c ∧ c.returned = false ∧ c.msgPtr = p

/-- The call's `send` ends with the error of `asTypedList`, before its `free(msgPtr)`. -/
def ThrowsIn [Vm] (j : Nat) : Event → Prop
  | .returnSynchronous i _ result fresh => i = j ∧ (fresh.fill result).throws = true
  | _ => False

/-- Every copy of a message has somebody who will free it, unless a `send` among the
events threw. -/
structure Owed [Vm] (es : List Event) (s : Process) : Prop where
  requests : ∀ b ∈ s.heap.blocks, ∀ tag, b.owner = .request tag → RequestOwes s tag b.start
  calls : ∀ b ∈ s.heap.blocks, ∀ j, b.owner = .synchronous j →
    CallOwes s j b.start ∨ ∃ e ∈ es, ThrowsIn j e

section Heap
variable {h h' : Heap Owner}

/-- What `free` leaves does not start at the pointer. -/
theorem free_left {p : Nat} (hf : h.free p = some h') {b : Block Owner} (hb : b ∈ h'.blocks) :
    b ∈ h.blocks ∧ b.start ≠ p := by
  unfold Heap.free at hf
  split at hf
  · rename_i hp
    cases hf
    exact ⟨hb, hp ▸ h.nonNull b hb⟩
  · split at hf
    · cases hf
      obtain ⟨hb, hne⟩ := List.mem_filter.mp hb
      exact ⟨hb, bne_iff_ne.mp hne⟩
    · cases hf

end Heap

section Copies
variable {s t : Process}

/-- The copy of a message is the only new block. -/
theorem mem_copy {owner : Owner} {bytes : Option (List UInt8)} {allocated : Nat}
    {heap : Heap Owner} (hc : s.copy owner bytes allocated = some heap) {b : Block Owner}
    (hb : b ∈ heap.blocks) :
    b ∈ s.heap.blocks ∨ b.owner = owner ∧ bytes ≠ none ∧ b.start = allocated := by
  cases bytes with
  | none =>
    cases hc
    exact Or.inl hb
  | some bytes =>
    obtain ⟨h, hm, rfl⟩ := Option.map_eq_some_iff.mp hc
    obtain ⟨_, hblocks, _⟩ := malloc_spec hm
    have hb : b ∈ h.blocks := hb
    rw [hblocks] at hb
    rcases List.mem_cons.mp hb with rfl | hb
    · exact Or.inr ⟨rfl, nofun, rfl⟩
    · exact Or.inl hb

theorem msgPtr_of_copied {bytes : Option (List UInt8)} {allocated : Nat} (h : bytes ≠ none) :
    msgPtr bytes allocated = allocated := by
  rw [msgPtr, if_pos (Option.isSome_iff_ne_none.mpr h)]

theorem RequestOwes.of_tasks {tag : Tag} {p : Nat} (h : RequestOwes s tag p)
    (htasks : ∀ x ∈ tasks s.channel.pool, x ∈ tasks t.channel.pool)
    (hhandlings : ∀ x ∈ s.channel.handlings, x ∈ t.channel.handlings) : RequestOwes t tag p := by
  rcases h with ⟨x, hx, hrest⟩ | ⟨x, hx, hrest⟩
  · exact Or.inl ⟨x, htasks x hx, hrest⟩
  · exact Or.inr ⟨x, hhandlings x hx, hrest⟩

/-- A step of a request leaves no block at its pointer, if it makes the native call. -/
theorem freed_left {e : ConcurrentMessenger.Event Wrapper.DirectByteBuffer} {message : Option Nat}
    {heap : Heap Owner} {b : Block Owner}
    (freed : (if e.isNative then s.freeMessage message else some s.heap) = some heap)
    (hb : b ∈ heap.blocks) :
    b ∈ s.heap.blocks ∧ (e.isNative = true → message ≠ some b.start) := by
  by_cases hn : e.isNative = true
  · rw [if_pos hn] at freed
    cases message with
    | none =>
      cases freed
      exact ⟨hb, fun _ => nofun⟩
    | some p =>
      obtain ⟨hb, hne⟩ := free_left freed hb
      exact ⟨hb, fun _ he => hne (Option.some.inj he).symm⟩
  · rw [if_neg hn] at freed
    cases freed
    exact ⟨hb, fun h => absurd h hn⟩

end Copies

section Steps
variable [Vm] {s t : Process} {es : List Event}

/-- No new block, and whoever owes one still does. -/
theorem Owed.of_change (hs : Owed es s) (hblocks : ∀ b ∈ t.heap.blocks, b ∈ s.heap.blocks)
    (hrequests : ∀ b ∈ t.heap.blocks, ∀ tag, RequestOwes s tag b.start → RequestOwes t tag b.start)
    (hcalls : ∀ b ∈ t.heap.blocks, ∀ j, CallOwes s j b.start →
      CallOwes t j b.start ∨ ∃ e ∈ es, ThrowsIn j e) : Owed es t where
  requests b hb tag ho := hrequests b hb tag (hs.requests b (hblocks b hb) tag ho)
  calls b hb j ho := by
    rcases hs.calls b (hblocks b hb) j ho with hcall | hthrown
    · exact hcalls b hb j hcall
    · exact Or.inr hthrown

/-- The block of a new request is in its task. -/
theorem send_owed {a : Nat} {channel : Int} {bytes : Option (List UInt8)} {allocated : Nat}
    {heap : Heap Owner} {d : ConcurrentChannel.Process} {sent : Tag → Option Sent} (hs : Owed es s)
    (copied : s.copy (.request ⟨a, (s.channel.isolates a).seq⟩) bytes allocated = some heap)
    (hm : ConcurrentChannel.Moves s.channel (.send a channel bytes allocated) d) :
    Owed es { s with channel := d, heap, sent } := by
  cases hm with
  | @send _ _ _ _ pool ready push =>
    have htasks : (tasks pool).Perm (⟨⟨a, (s.channel.isolates a).seq⟩,
        ConcurrentChannel.sendTask channel (s.channel.isolates a).seq bytes allocated⟩ ::
          tasks s.channel.pool) := by
      cases (WorkerPool.step_moves push).2
      exact push_tasks _
    refine ⟨?_, ?_⟩
    · intro b hb tag ho
      rcases mem_copy copied hb with hb | ⟨howner, hne, hstart⟩
      · refine (hs.requests b hb tag ho).of_tasks ?_ fun _ hx => hx
        intro x hx
        exact htasks.mem_iff.mpr (List.mem_cons_of_mem _ hx)
      · rw [howner] at ho
        cases ho
        refine Or.inl ⟨_, htasks.mem_iff.mpr List.mem_cons_self, rfl, ?_⟩
        rw [hstart]
        cases bytes with
        | none => exact absurd rfl hne
        | some bytes => rfl
    · intro b hb j ho
      rcases mem_copy copied hb with hb | ⟨howner, _⟩
      · exact hs.calls b hb j ho
      · rw [howner] at ho
        cases ho
  | touched reads => cases reads
  | construct reads => cases reads
  | schedule is => cases is

/-- The debt of a task goes over to its request. -/
theorem call_owed {i : Nat} {task : Tagged TaskMessageWrapper} {d : ConcurrentChannel.Process}
    {handler : ConcurrentMessenger.Handler} {dispatches : List Dispatch} (hs : Owed es s)
    (held : s.channel.pool.threads[i]? = some (.holding task))
    (hm : ConcurrentChannel.Moves s.channel (.call i handler) d) :
    Owed es { s with channel := d, dispatches } := by
  cases hm with
  | @call _ _ task' pool held' moves =>
    rw [held] at held'
    cases held'
    have htasks : (task :: tasks pool).Perm (tasks s.channel.pool) := by
      cases (WorkerPool.step_moves moves).2
      exact call_tasks held
    refine hs.of_change (fun _ hb => hb) ?_ fun _ _ _ h => Or.inl h
    intro b _ tag h
    rcases h with ⟨x, hx, htag, hdata⟩ | ⟨x, hx, hrest⟩
    · rcases List.mem_cons.mp (htasks.mem_iff.mpr hx) with rfl | hx
      · refine Or.inr ⟨_, List.mem_append.mpr (Or.inr (List.mem_singleton.mpr rfl)), htag, rfl, ?_⟩
        exact congrArg some hdata
      · exact Or.inl ⟨x, hx, htag, hdata⟩
    · exact Or.inr ⟨x, List.mem_append.mpr (Or.inl hx), hrest⟩
  | touched reads => cases reads
  | construct reads => cases reads
  | schedule is => cases is

/-- A reply frees the block at the pointer of the request, so no block is left there that
the request owes. -/
theorem handle_owed {k : Nat} {e : ConcurrentMessenger.Event Wrapper.DirectByteBuffer}
    {fresh : Wrapper.MessageWrapper} {h : Handling} {heap : Heap Owner}
    {d : ConcurrentChannel.Process} (hs : Owed es s) (hk : s.channel.handlings[k]? = some h)
    (freed : (if e.isNative then s.freeMessage h.request.message else some s.heap) = some heap)
    (hm : ConcurrentChannel.Moves s.channel (.handle k e fresh) d) :
    Owed es { s with channel := d, heap } := by
  have hstays : ∀ {request : ConcurrentMessenger.Request Wrapper.DirectByteBuffer}, ∀ b ∈ heap.blocks,
      (request.message = h.request.message) →
      (request.calls = h.request.calls ∨ h.request.message ≠ some b.start) →
      ∀ x ∈ s.channel.handlings, x.request.calls = [] → x.request.message = some b.start →
        ∃ y ∈ s.channel.handlings.set k { h with request }, y.tag = x.tag ∧
          y.request.calls = [] ∧ y.request.message = some b.start := by
    intro request b _ hmessage hcalls x hx hxcalls hxmessage
    by_cases hxh : x = h
    · subst x
      refine ⟨{ h with request }, mem_set_at hk, rfl, ?_, hmessage.trans hxmessage⟩
      rcases hcalls with hcalls | hne
      · exact hcalls.trans hxcalls
      · exact absurd hxmessage hne
    · exact ⟨x, mem_set_of_ne hk hx hxh, rfl, hxcalls, hxmessage⟩
  cases hm with
  | @handle _ _ _ h' request hk' moves quiet calls =>
    rw [hk] at hk'
    cases hk'
    refine hs.of_change (fun _ hb => (freed_left freed hb).1) ?_ fun _ _ _ h => Or.inl h
    intro b hb tag ho
    rcases ho with ho | ⟨x, hx, rfl, hcalls, hmessage⟩
    · exact Or.inl ho
    · exact Or.inr (hstays b hb (ConcurrentMessenger.step_calls moves).2.1 (Or.inl calls) x hx
        hcalls hmessage)
  | @reply _ _ _ h' request r hk' moves native calls =>
    rw [hk] at hk'
    cases hk'
    refine hs.of_change (fun _ hb => (freed_left freed hb).1) ?_ fun _ _ _ h => Or.inl h
    intro b hb tag ho
    rcases ho with ⟨x, hx, hrest⟩ | ⟨x, hx, rfl, hcalls, hmessage⟩
    · refine Or.inl ⟨x, ?_, hrest⟩
      change x ∈ tasks (ConcurrentChannel.Process.post _ _).pool
      rw [ConcurrentChannel.post_pool]
      exact hx
    · obtain ⟨y, hy, hrest⟩ := hstays b hb (ConcurrentMessenger.step_calls moves).2.1
        (Or.inr ((freed_left freed hb).2 native)) x hx hcalls hmessage
      refine Or.inr ⟨y, ?_, hrest⟩
      change y ∈ (ConcurrentChannel.Process.post _ _).handlings
      rw [ConcurrentChannel.post_handlings]
      exact hy
  | touched reads => cases reads
  | construct reads => cases reads
  | schedule is => cases is

theorem sendSynchronous_owed {bytes : Option (List UInt8)} {allocated : Nat} {heap : Heap Owner}
    {sent : Sent} {dispatch : Dispatch} (hs : Owed es s)
    (copied : s.copy (.synchronous s.synchronousCalls.length) bytes allocated = some heap) :
    Owed es { s with
      heap
      synchronousCalls :=
        s.synchronousCalls ++ [⟨sent, msgPtr bytes allocated, dispatch, false⟩] } := by
  refine ⟨?_, ?_⟩
  · intro b hb tag ho
    rcases mem_copy copied hb with hb | ⟨howner, _⟩
    · exact hs.requests b hb tag ho
    · rw [howner] at ho
      cases ho
  · intro b hb j ho
    rcases mem_copy copied hb with hb | ⟨howner, hne, hstart⟩
    · rcases hs.calls b hb j ho with ⟨c, hc, hrest⟩ | hthrown
      · exact Or.inl ⟨c, at_concat.mpr (Or.inl hc), hrest⟩
      · exact Or.inr hthrown
    · rw [howner] at ho
      cases ho
      exact Or.inl ⟨_, at_concat.mpr (Or.inr ⟨rfl, rfl⟩), rfl, hstart ▸ msgPtr_of_copied hne⟩

/-- A call that does not throw frees its block. -/
theorem returnSynchronous_owed {j a : Nat} {result : Option Wrapper.DirectByteBuffer}
    {fresh : Wrapper.SynchronousResultWrapper} {c : SynchronousCall} {heap : Heap Owner}
    (hs : Owed es s) (he : .returnSynchronous j a result fresh ∈ es)
    (hj : s.synchronousCalls[j]? = some c)
    (freed : s.freeMsgPtr c.msgPtr (fresh.fill result) = some heap) :
    Owed es { s with
      heap
      synchronousCalls := s.synchronousCalls.set j { c with returned := true } } := by
  have hblocks : ∀ b ∈ heap.blocks, b ∈ s.heap.blocks ∧
      (b.start = c.msgPtr → (fresh.fill result).throws = true) := by
    intro b hb
    unfold Process.freeMsgPtr at freed
    split at freed
    · rename_i hthrows
      cases freed
      exact ⟨hb, fun _ => hthrows⟩
    · obtain ⟨hb, hne⟩ := free_left freed hb
      exact ⟨hb, fun h => absurd h hne⟩
  refine hs.of_change (fun b hb => (hblocks b hb).1) (fun _ _ _ h => h) ?_
  intro b hb i ho
  obtain ⟨c', hc', hrunning, hptr⟩ := ho
  by_cases hji : j = i
  · subst i
    rw [hj] at hc'
    cases hc'
    exact Or.inr ⟨_, he, rfl, (hblocks b hb).2 hptr.symm⟩
  · exact Or.inl ⟨c', (List.getElem?_set_ne hji).trans hc', hrunning, hptr⟩

theorem Owed.of_unmoved (hs : Owed es s) {d : ConcurrentChannel.Process} (hd : Unmoved s.channel d) :
    Owed es { s with channel := d } := by
  refine hs.of_change (fun _ hb => hb) ?_ fun _ _ _ h => Or.inl h
  intro b _ tag ho
  refine ho.of_tasks (fun x hx => hd.tasks.mem_iff.mpr hx) ?_
  intro x hx
  change x ∈ d.handlings
  rw [hd.handlings]
  exact hx

theorem step_owed {e : Event} (hs : Owed es s) (he : e ∈ es) (h : step s e = some t) :
    Owed es t := by
  cases step_moves h with
  | newUint8List => exact ⟨hs.requests, hs.calls⟩
  | mutate => exact ⟨hs.requests, hs.calls⟩
  | setMessageHandler => exact ⟨hs.requests, hs.calls⟩
  | send _ copied moves => exact send_owed hs copied moves
  | call held moves => exact call_owed hs held moves
  | handle hk freed moves => exact handle_owed hs hk freed moves
  | sendSynchronous _ copied => exact sendSynchronous_owed hs copied
  | returnSynchronous hj _ freed moves =>
    exact (returnSynchronous_owed hs he hj freed).of_unmoved (sendSynchronous_unmoved moves)
  | channel quiet moves => exact hs.of_unmoved (quiet_unmoved moves quiet)
  | malloc allocates =>
    obtain ⟨_, hblocks, _⟩ := malloc_spec allocates
    refine ⟨?_, ?_⟩
    · intro b hb tag ho
      change b ∈ Heap.blocks _ at hb
      rw [hblocks] at hb
      rcases List.mem_cons.mp hb with rfl | hb
      · cases ho
      · exact hs.requests b hb tag ho
    · intro b hb j ho
      change b ∈ Heap.blocks _ at hb
      rw [hblocks] at hb
      rcases List.mem_cons.mp hb with rfl | hb
      · cases ho
      · exact hs.calls b hb j ho
  | write => exact ⟨hs.requests, hs.calls⟩
  | free _ _ frees =>
    exact hs.of_change (fun b hb => (free_left frees hb).1) (fun _ _ _ h => h) fun _ _ _ h => Or.inl h

end Steps

/-- In every state of a run, whatever handlers and isolates do, each block that holds a copy
of a message is at the pointer of a request not yet replied to, or of a synchronous call
that has not returned, or that ended with the error of `asTypedList`. -/
theorem payloads_owed [Vm] (memory : ByteMemory.Memory) (es : List Event) {s : Process}
    (hr : run step (Process.initial memory) es = some s) : Owed es s := by
  have hmem : AllSteps step (fun _ e => e ∈ es) (Process.initial memory) es :=
    allSteps_of_forall _ es fun _ he _ => he
  refine run_invariant_when (fun _ _ _ hs he h => step_owed hs he h) ⟨?_, ?_⟩ hmem hr
  · intro b hb
    cases hb
  · intro b hb
    cases hb

attribute [local instance] Vm.lp64

/-- A handler replies and then throws, so that the block of the next request is freed in
place of its own, while a synchronous call is under way and another has thrown. -/
def secondReply : List Event :=
  [.setMessageHandler .concurrent 9 (some ⟨0, false⟩), .newUint8List [1, 2],
    .channel (.instance_ 0 2), .send 0 9 (some 0) 4096, .channel (.notifyOne none),
    .channel (.test 0), .channel (.frontPop 0), .call 0,
    .handle 0 (.reply true none) ⟨0, 0, 0⟩, .handle 0 .native ⟨0, 0, 0⟩,
    .send 0 9 (some 0) 4096, .sendSynchronous 9 (some 0) 4112,
    .returnSynchronous 0 0 none ⟨-1, 16⟩, .sendSynchronous 9 (some 0) 4128,
    .handle 0 (.throws (.other none)) ⟨0, 0, 0⟩, .handle 0 .replyNull ⟨0, 0, 0⟩]

theorem payloads_owed_second_reply :
    Owed secondReply ((run step (Process.initial fun _ => 0) secondReply).get (by decide)) :=
  payloads_owed (fun _ => 0) _ (Option.some_get _).symm

end NativeChannel.PayloadsOwed
