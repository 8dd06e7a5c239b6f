import NativeChannel.Library.Runs
import NativeChannel.Proofs.PayloadPlaces

namespace NativeChannel.PayloadsArrive
open Runs Counts ByteMemory BlockHeap RequestPayloads PayloadPlaces
open ConcurrentChannel (Tag Tagged TaskMessageWrapper Handling)
open Wrapper (Vm)

/-- The buffer is what was sent: null for null, and otherwise as long as the list and with
its bytes in it. -/
def Arrived (memory : Memory) : Option ByteBuffer → Option (List UInt8) → Prop
  | none, none => True
  | some b, some bytes =>
    b.capacity = bytes.length ∧ bytesAt memory b.address b.capacity.toNat = bytes
  | _, _ => False

/-- The call runs the handler registered for the channel of the `send`. -/
def Dispatch.Routed (d : Dispatch) (sent : Sent) : Prop := d.handler = d.registered sent.channel

/-- Every request waits for a worker or was dispatched. A handler that was dispatched to
has the seq of the send and its message as sent, until the request is replied to or the
call returns. -/
structure AsSent (s : Process) : Prop where
  underway : ∀ tag m, s.sent tag = some m →
    (∃ x ∈ tasks s.channel.pool, x.tag = tag) ∨ ∃ h ∈ s.channel.handlings, h.tag = tag
  paired : s.dispatches.length = s.channel.handlings.length
  concurrent : ∀ (k : Nat) (h : Handling) (d : Dispatch), s.channel.handlings[k]? = some h →
    s.dispatches[k]? = some d → ∃ m, s.sent h.tag = some m ∧ Dispatch.Routed d m ∧
      (d.handler.isSome = true → h.request.calls = [] →
        d.incoming.seq = some h.tag.seq ∧ Arrived s.heap.memory d.incoming.message m.message)
  synchronous : ∀ c ∈ s.synchronousCalls, Dispatch.Routed c.dispatch c.sent ∧
    (c.dispatch.handler.isSome = true → c.returned = false →
      Arrived s.heap.memory c.dispatch.incoming.message c.sent.message)

/-- No null message goes to a handler, and no request is answered a second time. -/
def Benign (s : Process) : Event → Prop
  | .call i => ∀ task, (s.channel.pool.threads[i]?).bind Worker.task = some task →
      ∀ m, s.sent task.tag = some m → m.message = none →
        s.messageHandlers .concurrent m.channel = none
  | .handle k e _ => e.isNative = true →
      ∀ h, s.channel.handlings[k]? = some h → h.request.calls = []
  | .sendSynchronous channel message _ => message = none →
      s.messageHandlers .synchronous channel = none
  | _ => True

instance (s : Process) (e : Event) : Decidable (Benign s e) := by
  cases e with
  | call i =>
    exact inferInstanceAs (Decidable (∀ task ∈ (s.channel.pool.threads[i]?).bind Worker.task,
      ∀ m ∈ s.sent task.tag, m.message = none → s.messageHandlers .concurrent m.channel = none))
  | handle k e fresh =>
    exact inferInstanceAs (Decidable (e.isNative = true →
      ∀ h ∈ s.channel.handlings[k]?, h.request.calls = []))
  | sendSynchronous channel message allocated =>
    exact inferInstanceAs (Decidable (message = none →
      s.messageHandlers .synchronous channel = none))
  | _ => exact inferInstanceAs (Decidable True)

/-- The pointer and length of a message, and its bytes in a block of the owner. -/
def InMemory (heap : Heap Owner) (owner : Owner) (data : Nat) (length : Int) :
    Option (List UInt8) → Prop
  | none => data = 0 ∧ length = 0
  | some bytes => length = bytes.length ∧ heap.Holds owner data bytes

/-- A task that still waits. -/
structure Carried (heap : Heap Owner) (x : Tagged TaskMessageWrapper) (m : Sent) : Prop where
  channel : x.val.channel = m.channel
  seq : x.val.message.seq = x.tag.seq
  memory : InMemory heap (.request x.tag) x.val.message.data x.val.message.length m.message

/-- A request that was dispatched. Its block is there until `replyMessageToDart`. -/
structure Taken (heap : Heap Owner) (h : Handling) (d : Dispatch) (m : Sent) : Prop where
  routed : Dispatch.Routed d m
  seq : d.incoming.seq = some h.tag.seq
  nonNull : d.handler.isSome = true → m.message ≠ none
  memory : h.request.calls = [] → ∃ data length, d.incoming.message = some ⟨data, length⟩ ∧
    h.request.message = some data ∧ InMemory heap (.request h.tag) data length m.message

structure InCall (heap : Heap Owner) (j : Nat) (c : SynchronousCall) : Prop where
  routed : Dispatch.Routed c.dispatch c.sent
  nonNull : c.dispatch.handler.isSome = true → c.sent.message ≠ none
  memory : c.returned = false → ∃ length, c.dispatch.incoming.message = some ⟨c.msgPtr, length⟩ ∧
    InMemory heap (.synchronous j) c.msgPtr length c.sent.message

/-- Each request is in one place, with a block of its own. -/
structure Safe (s : Process) : Prop where
  waiting : ∀ x ∈ tasks s.channel.pool, ∃ m, s.sent x.tag = some m ∧ Carried s.heap x m
  paired : s.dispatches.length = s.channel.handlings.length
  handled : ∀ (k : Nat) (h : Handling) (d : Dispatch), s.channel.handlings[k]? = some h →
    s.dispatches[k]? = some d → ∃ m, s.sent h.tag = some m ∧ Taken s.heap h d m
  unique : (places s.channel).Nodup
  placed : ∀ tag m, s.sent tag = some m → tag ∈ places s.channel ∧
    tag.seq < (s.channel.isolates tag.isolate).seq
  calls : ∀ j c, s.synchronousCalls[j]? = some c → InCall s.heap j c

section Memory
variable {heap heap' : Heap Owner} {owner : Owner} {data : Nat} {length : Int}
  {message : Option (List UInt8)}

theorem InMemory.keep (h : InMemory heap owner data length message)
    (hk : heap.Keeps heap' owner) : InMemory heap' owner data length message := by
  cases message with
  | none => exact h
  | some bytes => exact ⟨h.1, hk data bytes h.2⟩

theorem InMemory.arrived (h : InMemory heap owner data length message) (hne : message ≠ none) :
    Arrived heap.memory (some ⟨data, length⟩) message := by
  cases message with
  | none => exact absurd rfl hne
  | some bytes =>
    obtain ⟨rfl, hholds⟩ := h
    exact ⟨rfl, hholds.content⟩

/-- What `free` of a message does to the blocks of others. -/
theorem InMemory.free_keeps (h : InMemory heap owner data length message)
    (hf : heap.free data = some heap') {o : Owner} (hne : owner ≠ o) : heap.Keeps heap' o := by
  cases message with
  | none =>
    obtain ⟨rfl, _⟩ := h
    rw [free_null] at hf
    cases hf
    exact Heap.Keeps.refl heap o
  | some bytes => exact BlockHeap.free_keeps (b := ⟨data, bytes.length, owner⟩) hf h.2.block hne

end Memory

section Copy
variable {s : Process} {owner : Owner} {bytes : Option (List UInt8)} {allocated : Nat}
  {heap : Heap Owner}

theorem copy_inMemory (hc : s.copy owner bytes allocated = some heap) :
    InMemory heap owner (msgPtr bytes allocated) (length bytes) bytes := by
  cases bytes with
  | none => exact ⟨rfl, rfl⟩
  | some bytes =>
    obtain ⟨h, hm, rfl⟩ := Option.map_eq_some_iff.mp hc
    exact ⟨rfl, copy_holds hm⟩

theorem copy_keeps (hc : s.copy owner bytes allocated = some heap) {o : Owner}
    (hne : owner ≠ o) : s.heap.Keeps heap o := by
  cases bytes with
  | none =>
    cases hc
    exact Heap.Keeps.refl s.heap o
  | some bytes =>
    obtain ⟨h, hm, rfl⟩ := Option.map_eq_some_iff.mp hc
    exact BlockHeap.copy_keeps hm hne

theorem sendTask_inMemory (hc : s.copy owner bytes allocated = some heap) (channel seq : Int) :
    InMemory heap owner (ConcurrentChannel.sendTask channel seq bytes allocated).message.data
      (ConcurrentChannel.sendTask channel seq bytes allocated).message.length bytes := by
  have hm := copy_inMemory hc
  cases bytes <;> exact hm

end Copy

section Safe
variable {s : Process}

/-- A waiting task, an unanswered request or a call that runs still needs what this owner
has. -/
def Needs (s : Process) (o : Owner) : Prop :=
  (∃ x ∈ tasks s.channel.pool, o = .request x.tag) ∨
    (∃ h ∈ s.channel.handlings, h.request.calls = [] ∧ o = .request h.tag) ∨
    ∃ (j : Nat) (c : SynchronousCall), s.synchronousCalls[j]? = some c ∧ c.returned = false ∧
      o = .synchronous j

/-- A change of the memory that leaves what is needed. -/
theorem Safe.of_heap (hs : Safe s) {heap : Heap Owner}
    (hk : ∀ o, Needs s o → s.heap.Keeps heap o) : Safe { s with heap } := by
  refine ⟨?_, hs.paired, ?_, hs.unique, hs.placed, ?_⟩
  · intro x hx
    obtain ⟨m, hm, hcarried⟩ := hs.waiting x hx
    exact ⟨m, hm, hcarried.channel, hcarried.seq, hcarried.memory.keep (hk _ (Or.inl ⟨x, hx, rfl⟩))⟩
  · intro k h d hh hd
    obtain ⟨m, hm, htaken⟩ := hs.handled k h d hh hd
    refine ⟨m, hm, htaken.routed, htaken.seq, htaken.nonNull, ?_⟩
    intro hcalls
    obtain ⟨data, length, hi, hr, hmem⟩ := htaken.memory hcalls
    exact ⟨data, length, hi, hr, hmem.keep (hk _ (Or.inr (Or.inl ⟨h, mem_of_at hh, hcalls, rfl⟩)))⟩
  · intro j c hj
    have hcall := hs.calls j c hj
    refine ⟨hcall.routed, hcall.nonNull, ?_⟩
    intro hr
    obtain ⟨length, hi, hmem⟩ := hcall.memory hr
    exact ⟨length, hi, hmem.keep (hk _ (Or.inr (Or.inr ⟨j, c, hj, hr, rfl⟩)))⟩

theorem Needs.not_other : ¬ Needs s .other := by
  intro h
  rcases h with ⟨x, _, he⟩ | ⟨h, _, _, he⟩ | ⟨j, c, _, _, he⟩
  · cases he
  · cases he
  · cases he

theorem Safe.of_other (hs : Safe s) {heap : Heap Owner}
    (hk : ∀ o, .other ≠ o → s.heap.Keeps heap o) : Safe { s with heap } := by
  apply hs.of_heap
  intro o ho
  apply hk o
  intro he
  subst o
  exact Needs.not_other ho

theorem mem_places {tag : Tag} {c : ConcurrentChannel.Process} : tag ∈ places c ↔
    (∃ x ∈ tasks c.pool, x.tag = tag) ∨ ∃ h ∈ c.handlings, h.tag = tag := by
  simp [places]

/-- Every request in the process was sent. -/
theorem Safe.sent_of_place (hs : Safe s) {tag : Tag} (ht : tag ∈ places s.channel) :
    ∃ m, s.sent tag = some m := by
  rcases mem_places.mp ht with ⟨x, hx, rfl⟩ | ⟨h, hh, rfl⟩
  · obtain ⟨m, hm, _⟩ := hs.waiting x hx
    exact ⟨m, hm⟩
  · obtain ⟨k, hk⟩ := List.mem_iff_getElem?.mp hh
    have hlt : k < s.dispatches.length := by
      rw [hs.paired]
      exact (List.getElem?_eq_some_iff.mp hk).1
    obtain ⟨m, hm, _⟩ := hs.handled k h _ hk (List.getElem?_eq_getElem hlt)
    exact ⟨m, hm⟩

/-- The next seq of an isolate is new. -/
theorem Safe.fresh_tag (hs : Safe s) (a : Nat) :
    ⟨a, (s.channel.isolates a).seq⟩ ∉ places s.channel := by
  intro h
  obtain ⟨m, hm⟩ := hs.sent_of_place h
  exact absurd (hs.placed _ m hm).2 (lt_irrefl _)

theorem Needs.place {tag : Tag} (h : Needs s (.request tag)) : tag ∈ places s.channel := by
  rcases h with ⟨x, hx, he⟩ | ⟨h, hh, _, he⟩ | ⟨j, c, _, _, he⟩
  · cases he
    exact mem_places.mpr (Or.inl ⟨x, hx, rfl⟩)
  · cases he
    exact mem_places.mpr (Or.inr ⟨h, hh, rfl⟩)
  · cases he

/-- A step of the channel that handles no message. -/
theorem Safe.of_unmoved (hs : Safe s) {t : ConcurrentChannel.Process} (ht : Unmoved s.channel t) :
    Safe { s with channel := t } := by
  have hplaces : (places t).Perm (places s.channel) := by
    unfold places
    rw [ht.handlings]
    exact (ht.tasks.map _).append_right _
  refine ⟨?_, ?_, ?_, ?_, ?_, hs.calls⟩
  · intro x hx
    exact hs.waiting x (ht.tasks.mem_iff.mp hx)
  · exact hs.paired.trans (congrArg List.length ht.handlings).symm
  · intro k h d hh
    change t.handlings[k]? = some h at hh
    rw [ht.handlings] at hh
    exact hs.handled k h d hh
  · exact hplaces.nodup_iff.mpr hs.unique
  · intro tag m hm
    obtain ⟨hplace, hseq⟩ := hs.placed tag m hm
    refine ⟨hplaces.mem_iff.mpr hplace, ?_⟩
    change tag.seq < (t.isolates tag.isolate).seq
    rw [ht.seq]
    exact hseq

theorem map_set_same {α β : Type} {f : α → β} {l : List α} {k : Nat} {a b : α}
    (hk : l[k]? = some a) (hf : f b = f a) : (l.set k b).map f = l.map f := by
  rw [List.map_set, hf]
  apply List.ext_getElem?
  intro j
  by_cases hj : k = j
  · subst j
    rw [List.getElem?_set_self (by simpa using (List.getElem?_eq_some_iff.mp hk).1),
      List.getElem?_map, hk]
    rfl
  · rw [List.getElem?_set_ne hj]

/-- A step of one request. -/
theorem Safe.of_handles (hs : Safe s) {t : ConcurrentChannel.Process} {k : Nat} {h : Handling}
    {request : ConcurrentMessenger.Request Wrapper.DirectByteBuffer}
    (hk : s.channel.handlings[k]? = some h) (ht : Handles s.channel t k h request) :
    Safe { s with channel := t } := by
  have htags : t.handlings.map Handling.tag = s.channel.handlings.map Handling.tag := by
    rw [ht.handlings]
    exact map_set_same hk rfl
  have hplaces : places t = places s.channel := by
    unfold places
    rw [ht.tasks, htags]
  refine ⟨?_, ?_, ?_, ?_, ?_, hs.calls⟩
  · intro x hx
    change x ∈ tasks t.pool at hx
    rw [ht.tasks] at hx
    exact hs.waiting x hx
  · refine hs.paired.trans ?_
    change _ = t.handlings.length
    rw [ht.handlings, List.length_set]
  · intro j h' d hj hd
    change t.handlings[j]? = some h' at hj
    rw [ht.handlings] at hj
    by_cases hkj : k = j
    · subst j
      rw [List.getElem?_set_self (List.getElem?_eq_some_iff.mp hk).1] at hj
      cases hj
      obtain ⟨m, hm, htaken⟩ := hs.handled k h d hk hd
      refine ⟨m, hm, htaken.routed, htaken.seq, htaken.nonNull, ?_⟩
      intro hcalls
      obtain ⟨data, length, hi, hr, hmem⟩ := htaken.memory (ht.calls hcalls)
      exact ⟨data, length, hi, ht.message.trans hr, hmem⟩
    · rw [List.getElem?_set_ne hkj] at hj
      exact hs.handled j h' d hj hd
  · change (places t).Nodup
    rw [hplaces]
    exact hs.unique
  · intro tag m hm
    obtain ⟨hplace, hseq⟩ := hs.placed tag m hm
    refine ⟨?_, ?_⟩
    · change tag ∈ places t
      rw [hplaces]
      exact hplace
    · change tag.seq < (t.isolates tag.isolate).seq
      rw [ht.seq]
      exact hseq

/-- Two requests of one send would be in one place. -/
theorem Safe.one_handling (hs : Safe s) {j k : Nat} {h h' : Handling}
    (hj : s.channel.handlings[j]? = some h) (hk : s.channel.handlings[k]? = some h')
    (htag : h.tag = h'.tag) : j = k := by
  have hnodup := (List.nodup_append.mp hs.unique).2.1
  have hj' : (s.channel.handlings.map Handling.tag)[j]? = some h.tag := by simp [hj]
  have hk' : (s.channel.handlings.map Handling.tag)[k]? = some h.tag := by simp [hk, htag]
  have hlt := (List.getElem?_eq_some_iff.mp hj').1
  exact (List.getElem?_inj hlt hnodup).mp (hj'.trans hk'.symm)

theorem Safe.not_task_of_handling (hs : Safe s) {h : Handling}
    {x : Tagged TaskMessageWrapper} (hh : h ∈ s.channel.handlings)
    (hx : x ∈ tasks s.channel.pool) : x.tag ≠ h.tag :=
  (List.nodup_append.mp hs.unique).2.2 _ (List.mem_map_of_mem hx) _ (List.mem_map_of_mem hh)

/-- A request that is replied to for the first time gives up its block. -/
theorem handle_safe [Vm] {k : Nat} {e : ConcurrentMessenger.Event Wrapper.DirectByteBuffer}
    {fresh : Wrapper.MessageWrapper} {h : Handling} {heap : Heap Owner}
    {t : ConcurrentChannel.Process} (hs : Safe s)
    (hk : s.channel.handlings[k]? = some h)
    (hfree : (if e.isNative then s.freeMessage h.request.message else some s.heap) = some heap)
    (hm : ConcurrentChannel.Moves s.channel (.handle k e fresh) t)
    (hc : Benign s (.handle k e fresh)) : Safe { s with channel := t, heap } := by
  obtain ⟨request, ht, hanswered⟩ := handle_handles hm hk
  have hsafe := hs.of_handles hk ht
  by_cases hn : e.isNative = true
  · rw [if_pos hn] at hfree
    have hlt : k < s.dispatches.length := by
      rw [hs.paired]
      exact (List.getElem?_eq_some_iff.mp hk).1
    obtain ⟨m, _, htaken⟩ := hs.handled k h _ hk (List.getElem?_eq_getElem hlt)
    obtain ⟨data, length, _, hr, hmem⟩ := htaken.memory (hc hn h hk)
    rw [hr] at hfree
    have hkeeps : ∀ o, .request h.tag ≠ o → s.heap.Keeps heap o :=
      fun o ho => hmem.free_keeps hfree ho
    apply hsafe.of_heap
    intro o ho
    apply hkeeps o
    intro he
    -- the request itself needs its block no longer, and no other has its tag
    subst o
    rcases ho with ⟨x, hx, htag⟩ | ⟨h', hh, hcalls, htag⟩ | ⟨j, c, _, _, htag⟩
    · change x ∈ tasks t.pool at hx
      rw [ht.tasks] at hx
      exact hs.not_task_of_handling (mem_of_at hk) hx (Owner.request.inj htag).symm
    · change h' ∈ t.handlings at hh
      obtain ⟨j, hj⟩ := List.mem_iff_getElem?.mp hh
      rw [ht.handlings] at hj
      by_cases hkj : k = j
      · subst j
        rw [List.getElem?_set_self (List.getElem?_eq_some_iff.mp hk).1] at hj
        cases hj
        exact hanswered hn hcalls
      · rw [List.getElem?_set_ne hkj] at hj
        exact hkj (hs.one_handling hk hj (Owner.request.inj htag))
    · cases htag
  · rw [if_neg hn] at hfree
    cases hfree
    exact hsafe

/-- The request of a worker's task is dispatched. -/
theorem call_safe [Vm] {i : Nat} {task : Tagged TaskMessageWrapper} {t : ConcurrentChannel.Process}
    (hs : Safe s) (held : s.channel.pool.threads[i]? = some (.holding task))
    (hm : ConcurrentChannel.Moves s.channel (.call i (MessageHandler.kind
      (s.dispatch .concurrent (incomingTask task.val)).handler)) t)
    (hc : Benign s (.call i)) :
    Safe { s with
      channel := t
      dispatches := s.dispatches ++ [s.dispatch .concurrent (incomingTask task.val)] } := by
  cases hm with
  | @call _ _ task' pool held' moves =>
    rw [held] at held'
    cases held'
    have hpool : pool = s.channel.pool.setThread i .calling := by
      cases (WorkerPool.step_moves moves).2
      rfl
    have htasks : (task :: tasks pool).Perm (tasks s.channel.pool) := by
      rw [hpool]
      exact call_tasks held
    have htask : task ∈ tasks s.channel.pool := htasks.mem_iff.mp List.mem_cons_self
    obtain ⟨m, hsent, hcarried⟩ := hs.waiting task htask
    have hplaces : (tasks pool).map Tagged.tag ++
        (s.channel.handlings.map Handling.tag ++ [task.tag]) |>.Perm (places s.channel) := by
      rw [← List.append_assoc]
      refine (List.perm_append_singleton _ _).trans ?_
      exact (htasks.map Tagged.tag).append_right _
    refine ⟨?_, ?_, ?_, ?_, ?_, hs.calls⟩
    · intro x hx
      exact hs.waiting x (htasks.mem_iff.mp (List.mem_cons_of_mem _ hx))
    · simpa using hs.paired
    · intro k h d hk hd
      rcases at_concat.mp hk with hk | ⟨hlast, rfl⟩
      · rcases at_concat.mp hd with hd | ⟨hlast, _⟩
        · exact hs.handled k h d hk hd
        · rw [hlast, hs.paired] at hk
          simp at hk
      · rw [hlast, ← hs.paired] at hd
        have hd : d = s.dispatch .concurrent (incomingTask task.val) := by simpa using hd.symm
        subst d
        refine ⟨m, hsent, ?_, congrArg some hcarried.seq, ?_, ?_⟩
        · exact congrArg (s.messageHandlers .concurrent) hcarried.channel
        · intro hhandler hnull
          have hnone := hc task (by rw [held]; rfl) m hsent hnull
          have hhandler : (s.messageHandlers .concurrent task.val.channel).isSome = true := hhandler
          rw [hcarried.channel, hnone] at hhandler
          cases hhandler
        · intro _
          exact ⟨_, _, rfl, rfl, hcarried.memory⟩
    · unfold places
      rw [List.map_append]
      exact hplaces.nodup_iff.mpr hs.unique
    · intro tag m' hm'
      obtain ⟨hplace, hseq⟩ := hs.placed tag m' hm'
      refine ⟨?_, hseq⟩
      unfold places
      rw [List.map_append]
      exact hplaces.mem_iff.mpr hplace
  | touched reads => cases reads
  | construct reads => cases reads
  | schedule is => cases is

/-- A new request gets a block that nobody else has. -/
theorem send_safe [Vm] {a : Nat} {channel : Int} {bytes : Option (List UInt8)} {allocated : Nat}
    {heap : Heap Owner} {t : ConcurrentChannel.Process} (hs : Safe s)
    (copied : s.copy (.request ⟨a, (s.channel.isolates a).seq⟩) bytes allocated = some heap)
    (hm : ConcurrentChannel.Moves s.channel (.send a channel bytes allocated) t) :
    Safe { s with
      channel := t
      heap
      sent := Function.update s.sent ⟨a, (s.channel.isolates a).seq⟩ (some ⟨channel, bytes⟩) } := by
  have hfresh := hs.fresh_tag a
  have hheap : Safe { s with heap } := by
    apply hs.of_heap
    intro o ho
    apply copy_keeps copied
    intro he
    subst o
    exact hfresh ho.place
  cases hm with
  | @send _ _ _ _ pool ready push =>
    let tag : Tag := ⟨a, (s.channel.isolates a).seq⟩
    have hpool : pool = WorkerPool.push s.channel.pool
        ⟨tag, ConcurrentChannel.sendTask channel tag.seq bytes allocated⟩ := by
      cases (WorkerPool.step_moves push).2
      rfl
    have htasks : (tasks pool).Perm (⟨tag, ConcurrentChannel.sendTask channel tag.seq bytes
        allocated⟩ :: tasks s.channel.pool) := by
      rw [hpool]
      exact push_tasks _
    have hplaces : ((tasks pool).map Tagged.tag ++ s.channel.handlings.map Handling.tag).Perm
        (tag :: places s.channel) := (htasks.map Tagged.tag).append_right _
    have hother : ∀ {x : Tag}, x ≠ tag →
        Function.update s.sent tag (some ⟨channel, bytes⟩) x = s.sent x :=
      fun hx => Function.update_of_ne hx _ _
    have hplace : ∀ {x : Tag}, x ∈ places s.channel → x ≠ tag := by
      intro x hx he
      rw [he] at hx
      exact hfresh hx
    refine ⟨?_, hs.paired, ?_, ?_, ?_, hheap.calls⟩
    · intro x hx
      rcases List.mem_cons.mp (htasks.mem_iff.mp hx) with rfl | hx
      · refine ⟨⟨channel, bytes⟩, Function.update_self .., ?_, ?_, sendTask_inMemory copied _ _⟩
        · cases bytes <;> rfl
        · exact ConcurrentChannel.sendTask_seq channel tag.seq bytes allocated
      · obtain ⟨m, hsent, hcarried⟩ := hheap.waiting x hx
        refine ⟨m, ?_, hcarried⟩
        exact (hother (hplace (mem_places.mpr (Or.inl ⟨x, hx, rfl⟩)))).trans hsent
    · intro k h d hk hd
      obtain ⟨m, hsent, htaken⟩ := hheap.handled k h d hk hd
      refine ⟨m, ?_, htaken⟩
      exact (hother (hplace (mem_places.mpr (Or.inr ⟨h, mem_of_at hk, rfl⟩)))).trans hsent
    · exact hplaces.nodup_iff.mpr (List.nodup_cons.mpr ⟨hfresh, hs.unique⟩)
    · intro x m hsent
      have hseq : ((Function.update s.channel.isolates a (s.channel.isolates a).send) x.isolate).seq =
          if x.isolate = a then (s.channel.isolates a).seq + 1
          else (s.channel.isolates x.isolate).seq := by
        rw [Function.update_apply]
        split <;> rfl
      change x ∈ (tasks pool).map Tagged.tag ++ s.channel.handlings.map Handling.tag ∧
        x.seq < ((Function.update s.channel.isolates a (s.channel.isolates a).send) x.isolate).seq
      rw [hseq, hplaces.mem_iff]
      by_cases hx : x = tag
      · subst x
        refine ⟨List.mem_cons_self, ?_⟩
        rw [if_pos rfl]
        exact Int.lt_add_one_of_le (Int.le_refl _)
      · obtain ⟨hin, hlt⟩ := hs.placed x m ((hother hx).symm.trans hsent)
        refine ⟨List.mem_cons_of_mem _ hin, ?_⟩
        split
        · rename_i hiso
          rw [hiso] at hlt
          exact Int.lt_add_one_of_le (Int.le_of_lt hlt)
        · exact hlt
  | touched reads => cases reads
  | construct reads => cases reads
  | schedule is => cases is

theorem sendSynchronous_safe {channel : Int} {message : Option Nat} {bytes : Option (List UInt8)}
    {allocated : Nat} {heap : Heap Owner} (hs : Safe s) (read : s.read message = some bytes)
    (copied : s.copy (.synchronous s.synchronousCalls.length) bytes allocated = some heap)
    (hc : Benign s (.sendSynchronous channel message allocated)) :
    Safe { s with
      heap
      synchronousCalls := s.synchronousCalls ++ [⟨⟨channel, bytes⟩, msgPtr bytes allocated,
        s.dispatch .synchronous (incomingSynchronous channel bytes allocated), false⟩] } := by
  have hheap : Safe { s with heap } := by
    apply hs.of_heap
    intro o ho
    apply copy_keeps copied
    intro he
    subst o
    rcases ho with ⟨x, _, he⟩ | ⟨h, _, _, he⟩ | ⟨j, c, hj, _, he⟩
    · cases he
    · cases he
    · cases he
      simp at hj
  refine ⟨hheap.waiting, hs.paired, hheap.handled, hs.unique, hs.placed, ?_⟩
  intro j c hj
  rcases at_concat.mp hj with hj | ⟨rfl, rfl⟩
  · exact hheap.calls j c hj
  · refine ⟨rfl, ?_, fun _ => ⟨_, rfl, copy_inMemory copied⟩⟩
    intro hhandler hnull
    have hbytes : bytes = none := hnull
    have hnone : message = none := by
      cases message with
      | none => rfl
      | some l =>
        obtain ⟨content, _, he⟩ := Option.map_eq_some_iff.mp read
        rw [hbytes] at he
        cases he
    have hhandler : (s.messageHandlers .synchronous channel).isSome = true := hhandler
    rw [hc hnone] at hhandler
    cases hhandler

/-- A call that returns gives up its block. -/
theorem returnSynchronous_safe [Vm] {j : Nat} {c : SynchronousCall} {heap : Heap Owner}
    {w : Wrapper.SynchronousResultWrapper} (hs : Safe s) (hj : s.synchronousCalls[j]? = some c)
    (running : c.returned = false) (freed : s.freeMsgPtr c.msgPtr w = some heap) :
    Safe { s with
      heap
      synchronousCalls := s.synchronousCalls.set j { c with returned := true } } := by
  have hcall := hs.calls j c hj
  obtain ⟨length, _, hmem⟩ := hcall.memory running
  have hreturned : Safe { s with
      synchronousCalls := s.synchronousCalls.set j { c with returned := true } } := by
    refine ⟨hs.waiting, hs.paired, hs.handled, hs.unique, hs.placed, ?_⟩
    intro i d hi
    change (s.synchronousCalls.set j { c with returned := true })[i]? = some d at hi
    by_cases hji : j = i
    · subst i
      rw [List.getElem?_set_self (List.getElem?_eq_some_iff.mp hj).1] at hi
      cases hi
      exact ⟨hcall.routed, hcall.nonNull, nofun⟩
    · rw [List.getElem?_set_ne hji] at hi
      exact hs.calls i d hi
  apply hreturned.of_heap
  intro o ho
  unfold Process.freeMsgPtr at freed
  split at freed
  · cases freed
    exact Heap.Keeps.refl s.heap o
  apply hmem.free_keeps freed
  intro he
  subst o
  rcases ho with ⟨x, _, he⟩ | ⟨h, _, _, he⟩ | ⟨i, d, hi, hrunning, he⟩
  · cases he
  · cases he
  · cases he
    change (s.synchronousCalls.set j { c with returned := true })[j]? = some d at hi
    rw [List.getElem?_set_self (List.getElem?_eq_some_iff.mp hj).1] at hi
    cases hi
    cases hrunning

theorem step_safe [Vm] {t : Process} {e : Event} (hs : Safe s) (hc : Benign s e)
    (h : step s e = some t) : Safe t := by
  cases step_moves h with
  | newUint8List => exact ⟨hs.waiting, hs.paired, hs.handled, hs.unique, hs.placed, hs.calls⟩
  | mutate => exact ⟨hs.waiting, hs.paired, hs.handled, hs.unique, hs.placed, hs.calls⟩
  | setMessageHandler => exact ⟨hs.waiting, hs.paired, hs.handled, hs.unique, hs.placed, hs.calls⟩
  | send read copied moves => exact send_safe hs copied moves
  | call held moves => exact call_safe hs held moves hc
  | handle hk freed moves => exact handle_safe hs hk freed moves hc
  | sendSynchronous read copied => exact sendSynchronous_safe hs read copied hc
  | returnSynchronous hj running freed moves =>
    exact (returnSynchronous_safe hs hj running freed).of_unmoved (sendSynchronous_unmoved moves)
  | channel quiet moves => exact hs.of_unmoved (quiet_unmoved moves quiet)
  | malloc allocates =>
    apply hs.of_other
    intro o _
    exact malloc_keeps allocates o
  | write has own from_ fits =>
    apply hs.of_other
    intro o ho
    exact write_keeps has from_ fits (own ▸ ho)
  | free has own frees =>
    apply hs.of_other
    intro o ho
    exact free_keeps frees has (own ▸ ho)

theorem initial_safe (memory : Memory) : Safe (Process.initial memory) := by
  have hplaces : places (Process.initial memory).channel = [] := rfl
  refine ⟨?_, rfl, ?_, ?_, ?_, ?_⟩
  · intro x hx
    cases hx
  · intro k h d hk
    cases hk
  · rw [hplaces]
    exact List.nodup_nil
  · intro tag m hm
    cases hm
  · intro j c hj
    cases hj

theorem Safe.asSent (hs : Safe s) : AsSent s := by
  refine ⟨?_, hs.paired, ?_, ?_⟩
  · intro tag m hm
    exact mem_places.mp (hs.placed tag m hm).1
  · intro k h d hk hd
    obtain ⟨m, hm, htaken⟩ := hs.handled k h d hk hd
    refine ⟨m, hm, htaken.routed, ?_⟩
    intro hhandler hcalls
    obtain ⟨data, length, hi, _, hmem⟩ := htaken.memory hcalls
    refine ⟨htaken.seq, ?_⟩
    rw [hi]
    exact hmem.arrived (htaken.nonNull hhandler)
  · intro c hc
    obtain ⟨j, hj⟩ := List.mem_iff_getElem?.mp hc
    have hcall := hs.calls j c hj
    refine ⟨hcall.routed, ?_⟩
    intro hhandler hrunning
    obtain ⟨length, hi, hmem⟩ := hcall.memory hrunning
    rw [hi]
    exact hmem.arrived (hcall.nonNull hhandler)

end Safe

/-- A null message that is dispatched to a handler does not arrive as null: the condition
cannot do without this part. -/
theorem null_call_breaks [Vm] {s t : Process} {i : Nat} {task : Tagged TaskMessageWrapper} {m : Sent}
    (hs : Safe s) (h : step s (.call i) = some t)
    (held : s.channel.pool.threads[i]? = some (.holding task)) (hsent : s.sent task.tag = some m)
    (hnull : m.message = none) (hhandler : s.messageHandlers .concurrent m.channel ≠ none) :
    ¬ AsSent t := by
  cases step_moves h with
  | @call _ task' t held' moves =>
    rw [held] at held'
    cases held'
    cases moves with
    | @call _ _ task' pool held' moves =>
      have held' : s.channel.pool.threads[i]? = some (.holding task') := held'
      rw [held] at held'
      cases held'
      obtain ⟨m', hsent', hcarried⟩ := hs.waiting task (call_tasks held |>.mem_iff.mp
        List.mem_cons_self)
      rw [hsent] at hsent'
      cases hsent'
      intro harrive
      obtain ⟨m', hm', _, harrived⟩ := harrive.concurrent s.channel.handlings.length _
        (s.dispatch .concurrent (incomingTask task.val)) (at_concat.mpr (Or.inr ⟨rfl, rfl⟩))
        (at_concat.mpr (Or.inr ⟨hs.paired.symm, rfl⟩))
      have hm' : s.sent task.tag = some m' := hm'
      rw [hsent] at hm'
      cases hm'
      have hsome : (s.messageHandlers .concurrent task.val.channel).isSome = true := by
        rw [hcarried.channel]
        exact Option.isSome_iff_ne_none.mpr hhandler
      have hcontra := (harrived hsome rfl).2
      rw [hnull] at hcontra
      exact hcontra
    | touched reads => cases reads
    | construct reads => cases reads
    | schedule is => cases is

/-- In a run that dispatches no null message to a handler and answers no request twice,
the messages arrive as sent, and stay so until the reply or the return. -/
theorem payloads_arrive [Vm] (memory : Memory) (es : List Event)
    (hc : AllSteps step Benign (Process.initial memory) es) :
    Along step AsSent (Process.initial memory) es := by
  intro p hp t ht
  exact (run_invariant_when (fun _ _ _ hs hc h => step_safe hs hc h) (initial_safe memory)
    (allSteps_front hp hc) ht).asSent

/-- An empty list and one of two bytes, which changes after its `send`. The handler gets
both. -/
def changedList : List Event :=
  [.setMessageHandler .concurrent 9 (some ⟨0, false⟩), .newUint8List [], .newUint8List [1, 2],
    .channel (.instance_ 0 2), .send 0 9 (some 0) 4096, .send 0 9 (some 1) 4112, .mutate 1 0 7,
    .channel (.notifyOne none), .channel (.test 0), .channel (.frontPop 0), .call 0,
    .handle 0 (.reply true none) ⟨0, 0, 0⟩, .handle 0 .native ⟨0, 0, 0⟩,
    .sendSynchronous 9 (some 1) 4096, .handle 0 .returns ⟨0, 0, 0⟩, .channel (.finish 0),
    .channel (.test 0), .channel (.frontPop 0), .call 0]

attribute [local instance] Vm.lp64

theorem payloads_arrive_changed_list :
    (run step (Process.initial fun _ => 0) changedList).isSome = true ∧
      Along step AsSent (Process.initial fun _ => 0) changedList :=
  ⟨by decide, payloads_arrive _ _ (by decide)⟩

/-- A null message reaches its handler as a buffer, of no bytes at the address null. -/
theorem null_message_arrives_empty :
    ∃ s, run step (Process.initial fun _ => 0)
        [.setMessageHandler .concurrent 9 (some ⟨0, false⟩), .channel (.instance_ 0 2),
          .send 0 9 none 0, .channel (.notifyOne none), .channel (.test 0),
          .channel (.frontPop 0), .call 0] = some s ∧
      s.sent ⟨0, 1⟩ = some ⟨9, none⟩ ∧
      s.dispatches.map Dispatch.incoming = [⟨9, some ⟨0, 0⟩, some 1⟩] ∧
      s.dispatches.map Dispatch.handler = [some ⟨0, false⟩] ∧ ¬ AsSent s := by
  refine ⟨_, rfl, by decide, by decide, by decide, ?_⟩
  intro h
  obtain ⟨m, hm, _, harrived⟩ := h.concurrent 0 _ _ rfl rfl
  cases hm
  exact (harrived rfl rfl).2

end NativeChannel.PayloadsArrive
