import Mathlib.Data.List.Count
import NativeChannel.Library.Counts
import NativeChannel.Proofs.ReplyRouting
import NativeChannel.Proofs.SingleReply

namespace NativeChannel.Conservation
open Runs Counts ConcurrentChannel Wrapper ProcessInvariants
open WorkerPool (Worker Pool)
open ReplyRouting (RepliesAtHome IsolateAtHome Addressed)
open SingleReply (Accounted OneSource ReplyOrThrow)

section Tasks
variable {τ : Type}

/-- `p` of the task that the worker holds, if it holds one. -/
def Worker.holds (p : τ → Bool) : Worker τ → Bool
  | .holding task => p task
  | _ => false

/-- How many tasks with `p` the pool has taken in and not handed to Java. -/
def Pool.waiting (p : τ → Bool) (s : Pool τ) : Nat :=
  s.messageQueue.countP p + s.threads.countP (Worker.holds p)

/-- Whether the step takes in a task with `p`, and whether it hands one on. -/
def arriving (p : τ → Bool) : WorkerPool.Event τ → Nat
  | .push task => (p task).toNat
  | _ => 0

def leaving (p : τ → Bool) (s : Pool τ) : WorkerPool.Event τ → Nat
  | .call i => (s.threads[i]?.any (Worker.holds p)).toNat
  | _ => 0

theorem waiting_setThread {s : Pool τ} {i : Nat} {w : Worker τ} (p : τ → Bool) (v : Worker τ)
    (hi : s.threads[i]? = some w) :
    Pool.waiting p (s.setThread i v) + (Worker.holds p w).toNat =
      Pool.waiting p s + (Worker.holds p v).toNat := by
  have h := countP_set_add (Worker.holds p) v hi
  simp only [Pool.waiting, Pool.setThread, toNat_eq_ite]
  omega

/-- A task is in the pool from its push to the call of its handler. -/
theorem step_waiting (p : τ → Bool) {s t : Pool τ} {e : WorkerPool.Event τ}
    (h : WorkerPool.step s e = some t) :
    Pool.waiting p t + leaving p s e = Pool.waiting p s + arriving p e := by
  obtain ⟨_, hm⟩ := WorkerPool.step_moves h
  cases hm with
  | start n =>
    simp [Pool.waiting, leaving, arriving, List.countP_replicate, Worker.holds]
  | push task =>
    simp only [Pool.waiting, leaving, arriving, WorkerPool.push, List.countP_append,
      List.countP_singleton, toNat_eq_ite]
    omega
  | notifyNobody => rfl
  | popEmpty => rfl
  | @pop i task rest hi hq =>
    have hset := waiting_setThread p (.holding task) hi
    have hcount : s.messageQueue.countP p = rest.countP p + (p task).toNat := by
      rw [hq, List.countP_cons]
      simp only [toNat_eq_ite]
    simp only [Pool.waiting, Pool.setThread, Worker.holds, Bool.toNat_false] at hset
    simp only [Pool.waiting, Pool.setThread, leaving, arriving]
    omega
  | @call i task hi =>
    have hset := waiting_setThread p .calling hi
    simp only [leaving, arriving, hi, Option.any_some]
    exact hset
  | notify _ hi => exact waiting_setThread p .testing hi
  | fails hi => exact waiting_setThread p .failed hi
  | passes hi => exact waiting_setThread p .passed hi
  | block hi => exact waiting_setThread p .blocked hi
  | wake hi => exact waiting_setThread p .testing hi
  | finish hi => exact waiting_setThread p .testing hi

end Tasks

/-- The seqs waiting in `message_queue_`. -/
def queuedSeqs (s : Process) : List Int := s.pool.messageQueue.map fun t => t.val.message.seq

/-- The seqs that workers hold between the queue and the call of Java. -/
def heldSeqs (s : Process) : List Int :=
  s.pool.threads.filterMap fun
    | .holding t => some t.val.message.seq
    | _ => none

/-- The seqs handed to Java whose reply was not submitted yet. -/
def unsubmittedSeqs (s : Process) : List Int :=
  s.handlings.filterMap fun h => if h.request.calls.isEmpty then some h.request.seq else none

/-- The seqs of the wrappers in flight on the reply port of isolate `a`. -/
def postedSeqs (a : Nat) (s : Process) : List Int :=
  (s.isolates a).replyPort.map fun w => w.val.seq

/-- Every seq on its way, at the place where it is. -/
def pending (a : Nat) (s : Process) : List Int :=
  queuedSeqs s ++ heldSeqs s ++ unsubmittedSeqs s ++ postedSeqs a s

/-- What holds of the completers of isolate `a` in every state: each stands for
one seq on its way, and each was completed at most once, by its own reply. -/
structure Conserved (a : Nat) (s : Process) : Prop where
  disjoint : (pending a s).Nodup
  keys : ∀ q, q ∈ (s.isolates a).resultCompleters ↔ q ∈ pending a s
  asserted : (s.isolates a).assertFailed = false
  once : ((s.isolates a).completed.map Prod.fst).Nodup
  own : ∀ p ∈ (s.isolates a).completed, p.2.tag = ⟨a, p.1⟩

/-- The events of isolate `a`, and those of no isolate. -/
def Event.By (a : Nat) : Event → Prop
  | .newSynchronousMethodChannel b | .newConcurrentMethodChannel b _ _ | .instance_ b _
  | .send b _ _ _ | .sendSynchronous b _ _ | .onReply b => b = a
  | _ => True

/-- A handler submits and does not throw, or throws and does not submit. -/
def RepliesOrThrows (s : Process) : Event → Prop
  | .handle k e _ => ∀ h ∈ s.handlings[k]?, ReplyOrThrow h.request e
  | _ => True

/-- `onReply` gets past `asTypedList`: a null reply goes out in a wrapper that reads as null
or as a list that the VM makes, and any other has a capacity that it takes. -/
def Readable [Vm] (fresh : MessageWrapper) : Option DirectByteBuffer → Prop
  | none => fresh.data = 0 ∨ Vm.Takes fresh.length
  | some reply => Vm.Takes reply.capacity

def RepliesReadable [Vm] (s : Process) : Event → Prop
  | .handle k e fresh => ∀ c ∈ s.replies (.handle k e fresh), Readable fresh c.reply
  | _ => True

/-- Only isolate `a` takes part, and its handlers keep to the rule. -/
def Conforms (a : Nat) (s : Process) (e : Event) : Prop := Event.By a e ∧ RepliesOrThrows s e

instance (a : Nat) : (e : Event) → Decidable (Event.By a e)
  | .newSynchronousMethodChannel b | .newConcurrentMethodChannel b _ _ | .instance_ b _
  | .send b _ _ _ | .sendSynchronous b _ _ | .onReply b => (inferInstance : Decidable (b = a))
  | .notifyOne _ | .test _ | .block _ | .wake _ | .frontPop _ | .call _ _ | .handle _ _ _
  | .finish _ => isTrue trivial

instance (s : Process) : (e : Event) → Decidable (RepliesOrThrows s e)
  | .handle k e _ =>
    (inferInstance : Decidable (∀ h ∈ s.handlings[k]?, ReplyOrThrow h.request e))
  | .newSynchronousMethodChannel _ | .newConcurrentMethodChannel _ _ _ | .instance_ _ _
  | .send _ _ _ _ | .sendSynchronous _ _ _ | .onReply _ | .notifyOne _ | .test _ | .block _
  | .wake _ | .frontPop _ | .call _ _ | .finish _ => isTrue trivial

instance [Vm] (fresh : MessageWrapper) :
    (reply : Option DirectByteBuffer) → Decidable (Readable fresh reply)
  | none => (inferInstance : Decidable (fresh.data = 0 ∨ Vm.Takes fresh.length))
  | some reply => (inferInstance : Decidable (Vm.Takes reply.capacity))

instance [Vm] (s : Process) : (e : Event) → Decidable (RepliesReadable s e)
  | .handle k e fresh => (inferInstance : Decidable
      (∀ c ∈ s.replies (.handle k e fresh), Readable fresh c.reply))
  | .newSynchronousMethodChannel _ | .newConcurrentMethodChannel _ _ _ | .instance_ _ _
  | .send _ _ _ _ | .sendSynchronous _ _ _ | .onReply _ | .notifyOne _ | .test _ | .block _
  | .wake _ | .frontPop _ | .call _ _ | .finish _ => isTrue trivial

instance (a : Nat) (s : Process) (e : Event) : Decidable (Conforms a s e) :=
  (inferInstance : Decidable (Event.By a e ∧ RepliesOrThrows s e))

section Counting

def hasSeq (q : Int) (t : Tagged TaskMessageWrapper) : Bool := t.val.message.seq == q

def unsubmitted (q : Int) (h : Handling) : Bool := h.request.calls.isEmpty && h.request.seq == q

def posted (q : Int) (w : Tagged MessageWrapper) : Bool := w.val.seq == q

theorem count_pending (a : Nat) (s : Process) (q : Int) :
    (pending a s).count q = Pool.waiting (hasSeq q) s.pool + s.handlings.countP (unsubmitted q) +
      (s.isolates a).replyPort.countP (posted q) := by
  have hq : (queuedSeqs s).count q = s.pool.messageQueue.countP (hasSeq q) := by
    rw [queuedSeqs, List.count_eq_countP, List.countP_map]
    rfl
  have hh : (heldSeqs s).count q = s.pool.threads.countP (Worker.holds (hasSeq q)) := by
    rw [heldSeqs, List.count_filterMap]
    congr 1
    funext w
    cases w <;> rfl
  have hu : (unsubmittedSeqs s).count q = s.handlings.countP (unsubmitted q) := by
    rw [unsubmittedSeqs, List.count_filterMap]
    congr 1
    funext h
    unfold unsubmitted
    cases h.request.calls.isEmpty <;> simp
  have hp : (postedSeqs a s).count q = (s.isolates a).replyPort.countP (posted q) := by
    rw [postedSeqs, List.count_eq_countP, List.countP_map]
    rfl
  simp only [pending, List.count_append, hq, hh, hu, hp, Pool.waiting]

end Counting

/-- A completer is made for a seq not used before, and is gone once completed. -/
structure Completers (iso : Isolate) : Prop where
  fresh : ∀ q ∈ iso.resultCompleters, q < iso.seq
  past : ∀ p ∈ iso.completed, p.1 < iso.seq ∧ p.1 ∉ iso.resultCompleters
  once : (iso.completed.map Prod.fst).Nodup

theorem Completers.send {iso : Isolate} (h : Completers iso) : Completers iso.send := by
  refine ⟨?_, ?_, h.once⟩
  · intro q hq
    change q < iso.seq + 1
    rcases Finset.mem_insert.mp hq with rfl | hq
    · omega
    · have := h.fresh q hq
      omega
  · intro p hp
    obtain ⟨hlt, hout⟩ := h.past p hp
    refine ⟨?_, ?_⟩
    · change p.1 < iso.seq + 1
      omega
    · intro hm
      rcases Finset.mem_insert.mp hm with he | hm
      · omega
      · exact hout hm

theorem Completers.congr {iso iso' : Isolate} (h : Completers iso) (hs : iso'.seq = iso.seq)
    (hk : iso'.resultCompleters = iso.resultCompleters) (hc : iso'.completed = iso.completed) :
    Completers iso' := by
  refine ⟨?_, ?_, ?_⟩
  · rw [hk, hs]
    exact h.fresh
  · rw [hk, hs, hc]
    exact h.past
  · rw [hc]
    exact h.once

theorem Completers.onReply [Vm] {iso : Isolate} (h : Completers iso) (w : Tagged MessageWrapper) :
    Completers (iso.onReply w) := by
  unfold Isolate.onReply
  split
  · rename_i hm
    split
    · exact h
    refine ⟨?_, ?_, ?_⟩
    · intro q hq
      exact h.fresh q (Finset.mem_of_mem_erase hq)
    · intro p hp
      rcases List.mem_append.mp hp with hp | hp
      · obtain ⟨hlt, hout⟩ := h.past p hp
        exact ⟨hlt, fun he => hout (Finset.mem_of_mem_erase he)⟩
      · rw [List.mem_singleton.mp hp]
        exact ⟨h.fresh _ hm, Finset.notMem_erase _ _⟩
    · have hnew : w.val.seq ∉ iso.completed.map Prod.fst := by
        intro hold
        obtain ⟨p, hp, he⟩ := List.mem_map.mp hold
        apply (h.past p hp).2
        rw [he]
        exact hm
      rw [List.map_append, List.nodup_append]
      refine ⟨h.once, List.nodup_singleton _, ?_⟩
      intro q hq r hr he
      rw [List.map_singleton, List.mem_singleton] at hr
      rw [he, hr] at hq
      exact hnew hq
  · exact h.congr rfl rfl rfl

/-- Holds of any process, whatever its handlers and isolates do. -/
theorem step_completers [Vm] {s t : Process} {e : Event} (hs : ∀ b, Completers (s.isolates b))
    (h : step s e = some t) : ∀ b, Completers (t.isolates b) := by
  obtain ⟨_, hm⟩ := step_moves h
  cases hm with
  | @construct a =>
    exact forall_update (P := fun _ => Completers) hs ((hs a).congr rfl rfl rfl)
  | @send a => exact forall_update (P := fun _ => Completers) hs (hs a).send
  | sendSynchronous =>
    rw [registerFinalizer_isolates]
    exact hs
  | reply => exact forall_post (P := fun _ => Completers) hs fun b _ => (hs b).congr rfl rfl rfl
  | @onReply a w rest =>
    rw [registerFinalizer_isolates]
    have hrest : Completers { s.isolates a with replyPort := rest } := (hs a).congr rfl rfl rfl
    exact forall_update (P := fun _ => Completers) hs (hrest.onReply w)
  | _ => exact hs

/-- No other isolate has a part in the process. -/
structure Alone (a : Nat) (s : Process) : Prop where
  port : ∀ b, s.replyPort = some b → b = a
  tasks : s.pool.Tasks fun t => t.tag.isolate = a
  handled : ∀ h ∈ s.handlings, h.tag.isolate = a

theorem step_alone [Vm] {a : Nat} {s t : Process} {e : Event} (hs : Alone a s) (he : Event.By a e)
    (h : step s e = some t) : Alone a t := by
  obtain ⟨_, hm⟩ := step_moves h
  cases hm with
  | newSynchronous => exact hs
  | withMessenger => exact hs
  | touched => exact hs
  | @construct b n e pool hb _ hp =>
    have hba : b = a := by
      cases e with
      | newConcurrentMethodChannel c _ _ => exact hb.1.symm.trans he
      | instance_ c _ => exact (show c = b from hb).symm.trans he
      | _ => exact hb.elim
    refine ⟨?_, WorkerPool.step_tasks hs.tasks start_not_push hp, hs.handled⟩
    intro c hc
    cases hc
    exact hba
  | send _ hp =>
    refine ⟨hs.port, WorkerPool.step_tasks hs.tasks ?_ hp, hs.handled⟩
    intro x hx
    cases hx
    exact he
  | sendSynchronous =>
    refine ⟨?_, ?_, ?_⟩
    · rw [registerFinalizer_replyPort]
      exact hs.port
    · rw [registerFinalizer_pool]
      exact hs.tasks
    · rw [registerFinalizer_handlings]
      exact hs.handled
  | schedule hf hp =>
    exact ⟨hs.port, WorkerPool.step_tasks hs.tasks (scheduling_not_push hf) hp, hs.handled⟩
  | call ht hp =>
    refine ⟨hs.port, WorkerPool.step_tasks hs.tasks call_not_push hp, ?_⟩
    intro h hm
    rcases List.mem_append.mp hm with hm | hm
    · exact hs.handled h hm
    · rw [List.mem_singleton.mp hm]
      exact hs.tasks.held _ (mem_of_at ht)
  | handle hk =>
    have hd := hs.handled _ (mem_of_at hk)
    exact ⟨hs.port, hs.tasks, handling_changed hs.handled hd⟩
  | reply hk =>
    have hd := hs.handled _ (mem_of_at hk)
    refine ⟨?_, ?_, ?_⟩
    · rw [post_replyPort]
      exact hs.port
    · rw [post_pool]
      exact hs.tasks
    · rw [post_handlings, freeMessage_handlings]
      exact handling_changed hs.handled hd
  | onReply =>
    refine ⟨?_, ?_, ?_⟩
    · rw [registerFinalizer_replyPort]
      exact hs.port
    · rw [registerFinalizer_pool]
      exact hs.tasks
    · rw [registerFinalizer_handlings]
      exact hs.handled

/-- Every request is answered once at most. -/
def Disciplined (s : Process) : Prop :=
  ∀ h ∈ s.handlings, Accounted h.request ∧ OneSource h.request

theorem conforms_reply {a : Nat} {s : Process} {k : Nat}
    {e : ConcurrentMessenger.Event DirectByteBuffer} {fresh : MessageWrapper} {h : Handling}
    (hc : Conforms a s (.handle k e fresh)) (hk : s.handlings[k]? = some h) :
    ReplyOrThrow h.request e := by
  have hr : ∀ h ∈ s.handlings[k]?, ReplyOrThrow h.request e := hc.2
  exact hr h hk

theorem step_disciplined [Vm] {a : Nat} {s t : Process} {e : Event} (hs : Disciplined s)
    (hc : Conforms a s e) (h : step s e = some t) : Disciplined t := by
  obtain ⟨_, hm⟩ := step_moves h
  have change : ∀ {k : Nat} {e : ConcurrentMessenger.Event DirectByteBuffer}
      {fresh : MessageWrapper} {hd : Handling}
      {request : ConcurrentMessenger.Request DirectByteBuffer},
      Conforms a s (.handle k e fresh) → s.handlings[k]? = some hd →
      ConcurrentMessenger.step hd.request e = some request →
      Disciplined (s.setHandling k { hd with request }) := by
    intro k e fresh hd request hc hk hr
    have hd := hs hd (mem_of_at hk)
    have ht := (SingleReply.step_oneSource hd.1 hd.2 hr).mpr (conforms_reply hc hk)
    exact handling_changed hs ⟨SingleReply.step_accounted hd.1 hr, ht⟩
  cases hm with
  | sendSynchronous =>
    unfold Disciplined
    rw [registerFinalizer_handlings]
    exact hs
  | call =>
    intro h hm
    rcases List.mem_append.mp hm with hm | hm
    · exact hs h hm
    · rw [List.mem_singleton.mp hm]
      exact ⟨SingleReply.start_accounted _ _ _, Or.inl rfl⟩
  | handle hk hr => exact change hc hk hr
  | reply hk hr =>
    unfold Disciplined
    rw [post_handlings, freeMessage_handlings]
    exact change hc hk hr
  | onReply =>
    unfold Disciplined
    rw [registerFinalizer_handlings]
    exact hs
  | _ => exact hs

/-- A completer waits for each seq on its way, and for no other. -/
def Counted (a : Nat) (s : Process) : Prop :=
  ∀ q, Pool.waiting (hasSeq q) s.pool + s.handlings.countP (unsubmitted q) +
    (s.isolates a).replyPort.countP (posted q) =
      if q ∈ (s.isolates a).resultCompleters then 1 else 0

theorem Counted.congr {a : Nat} {s t : Process} (hs : Counted a s)
    (hw : ∀ q, Pool.waiting (hasSeq q) t.pool + t.handlings.countP (unsubmitted q) =
      Pool.waiting (hasSeq q) s.pool + s.handlings.countP (unsubmitted q))
    (hp : (t.isolates a).replyPort = (s.isolates a).replyPort)
    (hk : (t.isolates a).resultCompleters = (s.isolates a).resultCompleters) : Counted a t := by
  intro q
  rw [hw q, hp, hk]
  exact hs q

theorem waiting_start {s t : Pool (Tagged TaskMessageWrapper)} {n : Nat} (q : Int)
    (h : WorkerPool.step s (.start n) = some t) :
    Pool.waiting (hasSeq q) t = Pool.waiting (hasSeq q) s := step_waiting (hasSeq q) h

theorem waiting_schedule {s t : Pool (Tagged TaskMessageWrapper)} {e : Event}
    {f : WorkerPool.Event (Tagged TaskMessageWrapper)} (q : Int) (he : e.scheduling = some f)
    (h : WorkerPool.step s f = some t) :
    Pool.waiting (hasSeq q) t = Pool.waiting (hasSeq q) s := by
  have hw := step_waiting (hasSeq q) h
  cases e <;> cases he <;> exact hw

/-- A request that makes no native call keeps its place. -/
theorem unsubmitted_quiet {s : Process} {k : Nat} {h : Handling}
    {request : ConcurrentMessenger.Request DirectByteBuffer} (q : Int)
    (hk : s.handlings[k]? = some h) (hc : request.calls = h.request.calls)
    (hq : request.seq = h.request.seq) :
    (s.setHandling k { h with request }).handlings.countP (unsubmitted q) =
      s.handlings.countP (unsubmitted q) := by
  have hsame : unsubmitted q { h with request } = unsubmitted q h := by
    simp only [unsubmitted, hc, hq]
  have hset := countP_set_add (unsubmitted q) { h with request } hk
  rw [hsame] at hset
  exact Nat.add_right_cancel hset

/-- The one native call of a request gives its place up. -/
theorem unsubmitted_reply {s : Process} {k : Nat} {h : Handling}
    {request : ConcurrentMessenger.Request DirectByteBuffer} {r : Option DirectByteBuffer} (q : Int)
    (hk : s.handlings[k]? = some h) (hb : h.request.calls = [])
    (hc : request.calls = h.request.calls ++ [⟨h.request.seq, r, h.request.message⟩]) :
    (s.setHandling k { h with request }).handlings.countP (unsubmitted q) +
        (h.request.seq == q).toNat = s.handlings.countP (unsubmitted q) := by
  have hbefore : unsubmitted q h = (h.request.seq == q) := by
    simp [unsubmitted, hb]
  have hafter : unsubmitted q { h with request } = false := by
    simp [unsubmitted, hc]
  have hset := countP_set_add (unsubmitted q) { h with request } hk
  rw [hbefore, hafter] at hset
  simp only [toNat_eq_ite, Process.setHandling]
  simpa using hset

/-- A request makes its native call while it has made none before. -/
theorem first_call {s : Process} {k : Nat} {h : Handling} {a : Nat}
    {request : ConcurrentMessenger.Request DirectByteBuffer} {r : Option DirectByteBuffer}
    {e : ConcurrentMessenger.Event DirectByteBuffer} {fresh : MessageWrapper} (hs : Disciplined s)
    (hcon : Conforms a s (.handle k e fresh)) (hk : s.handlings[k]? = some h)
    (hr : ConcurrentMessenger.step h.request e = some request)
    (hc : request.calls = h.request.calls ++ [⟨h.request.seq, r, h.request.message⟩]) :
    h.request.calls = [] := by
  obtain ⟨hj, hi⟩ := hs h (mem_of_at hk)
  have hone := (SingleReply.step_oneSource hj hi hr).mpr (conforms_reply hcon hk)
  have hl := (hone.replied_once (SingleReply.step_accounted hj hr)).calls
  rw [hc, List.length_append, List.length_singleton] at hl
  exact List.length_eq_zero_iff.mp (by omega)

theorem counted_send {a : Nat} {s : Process} {channel : Int} {message : Option (List UInt8)}
    {allocated : Nat} {pool : Pool (Tagged TaskMessageWrapper)} (hs : Counted a s)
    (hc : Completers (s.isolates a))
    (hp : WorkerPool.step s.pool (.push ⟨⟨a, (s.isolates a).seq⟩,
      sendTask channel (s.isolates a).seq message allocated⟩) = some pool) :
    Counted a { s.setIsolate a (s.isolates a).send with pool } := by
  intro q
  have hw := step_waiting (hasSeq q) hp
  simp only [leaving, arriving, hasSeq, sendTask_seq, Nat.add_zero] at hw
  have hold := hs q
  simp only [Process.setIsolate, Function.update_self, Isolate.send]
  by_cases hq : (s.isolates a).seq = q
  · have hout : q ∉ (s.isolates a).resultCompleters := fun hm => by
      have := hc.fresh q hm
      omega
    rw [if_neg hout] at hold
    rw [if_pos (by rw [hq]; exact Finset.mem_insert_self q _)]
    rw [hq, beq_self_eq_true, Bool.toNat_true] at hw
    omega
  · have hiff : q ∈ insert (s.isolates a).seq (s.isolates a).resultCompleters ↔
        q ∈ (s.isolates a).resultCompleters := by
      rw [Finset.mem_insert]
      exact or_iff_right fun h => hq h.symm
    rw [beq_eq_false_iff_ne.mpr hq, Bool.toNat_false] at hw
    simp only [hiff]
    omega

theorem counted_call {a i : Nat} {s : Process} {handler : ConcurrentMessenger.Handler}
    {task : Tagged TaskMessageWrapper} {pool : Pool (Tagged TaskMessageWrapper)} (hs : Counted a s)
    (ht : s.pool.threads[i]? = some (.holding task))
    (hp : WorkerPool.step s.pool (.call i) = some pool) :
    Counted a { s with
      pool
      handlings := s.handlings ++ [⟨task.tag, i, ConcurrentMessenger.handleMessageFromDart
        task.val.message.seq (some task.val.message.data) handler⟩] } := by
  refine hs.congr ?_ rfl rfl
  intro q
  have hw := step_waiting (hasSeq q) hp
  simp only [leaving, arriving, ht, Option.any_some, Nat.add_zero] at hw
  rw [List.countP_append, List.countP_singleton]
  simp only [Worker.holds, hasSeq, toNat_eq_ite] at hw
  simp only [unsubmitted, ConcurrentMessenger.handleMessageFromDart, List.isEmpty_nil,
    Bool.true_and]
  omega

/-- The wrapper takes the place of the request on the port of `replyPort_`. -/
theorem counted_reply {a k : Nat} {s : Process} {h : Handling} {fresh : MessageWrapper}
    {request : ConcurrentMessenger.Request DirectByteBuffer} {r : Option DirectByteBuffer}
    (hs : Counted a s) (hport : s.replyPort = some a) (hk : s.handlings[k]? = some h)
    (hb : h.request.calls = [])
    (hc : request.calls = h.request.calls ++ [⟨h.request.seq, r, h.request.message⟩]) :
    Counted a (((s.setHandling k { h with request }).freeMessage h).post
      ⟨h.tag, fresh.fill h.request.seq r⟩) := by
  intro q
  have hold := hs q
  have hu := unsubmitted_reply q hk hb hc
  have hseq : posted q ⟨h.tag, fresh.fill h.request.seq r⟩ = (h.request.seq == q) := by
    cases r <;> rfl
  have hiso := post_isolates (s := (s.setHandling k { h with request }).freeMessage h) (a := a)
    ⟨h.tag, fresh.fill h.request.seq r⟩ hport
  rw [post_pool, post_handlings, freeMessage_handlings, hiso, Function.update_self]
  change Pool.waiting (hasSeq q) s.pool + _ + ((s.isolates a).replyPort ++ [_]).countP (posted q) =
    if q ∈ (s.isolates a).resultCompleters then 1 else 0
  rw [List.countP_append, List.countP_singleton, hseq]
  simp only [toNat_eq_ite] at hu
  omega

/-- The wrapper in front finds its completer. -/
theorem Counted.waits {a : Nat} {s : Process} {w : Tagged MessageWrapper}
    {rest : List (Tagged MessageWrapper)} (hs : Counted a s)
    (hp : (s.isolates a).replyPort = w :: rest) :
    w.val.seq ∈ (s.isolates a).resultCompleters := by
  by_contra hout
  have hold := hs w.val.seq
  rw [if_neg hout, hp, List.countP_cons_of_pos (by simp [posted])] at hold
  omega

/-- What becomes of the isolate where `onReply` gets through. -/
theorem onReply_through [Vm] (iso : Isolate) {w : Tagged MessageWrapper}
    (hm : w.val.seq ∈ iso.resultCompleters) (hr : w.val.throws = false) :
    iso.onReply w = { iso with
      resultCompleters := iso.resultCompleters.erase w.val.seq
      completed := iso.completed ++ [(w.val.seq, w)] } := by
  simp [Isolate.onReply, hm, hr]

/-- It takes the completer away. -/
theorem counted_onReply [Vm] {a : Nat} {s : Process} {w : Tagged MessageWrapper}
    {rest : List (Tagged MessageWrapper)} (hs : Counted a s)
    (hp : (s.isolates a).replyPort = w :: rest) (hr : w.val.throws = false) :
    Counted a (s.setIsolate a ({ s.isolates a with replyPort := rest }.onReply w)) := by
  have hmem := hs.waits hp
  intro q
  have hold := hs q
  rw [hp, List.countP_cons] at hold
  rw [onReply_through { s.isolates a with replyPort := rest } hmem hr]
  simp only [Process.setIsolate, Function.update_self, Finset.mem_erase]
  by_cases hq : w.val.seq = q
  · rw [if_pos (by simp [posted, hq]), if_pos (by rw [← hq]; exact hmem)] at hold
    rw [if_neg (fun he => he.1 hq.symm)]
    omega
  · have hiff : (q ≠ w.val.seq ∧ q ∈ (s.isolates a).resultCompleters) ↔
        q ∈ (s.isolates a).resultCompleters := and_iff_right fun h => hq h.symm
    rw [if_neg (by simp [posted, hq])] at hold
    simp only [hiff]
    omega

theorem construct_fields (s : Process) (b : Nat) (pool : Pool (Tagged TaskMessageWrapper)) :
    ∀ a, ((s.constructed b pool).isolates a).replyPort = (s.isolates a).replyPort ∧
      ((s.constructed b pool).isolates a).resultCompleters = (s.isolates a).resultCompleters ∧
      ((s.constructed b pool).isolates a).assertFailed = (s.isolates a).assertFailed :=
  forall_update (P := fun a iso => iso.replyPort = (s.isolates a).replyPort ∧
    iso.resultCompleters = (s.isolates a).resultCompleters ∧
    iso.assertFailed = (s.isolates a).assertFailed) (fun _ => ⟨rfl, rfl, rfl⟩) ⟨rfl, rfl, rfl⟩

/-- What a run of isolate `a` alone keeps, whatever `asTypedList` does. -/
structure Solo (a : Nat) (s : Process) : Prop where
  traced : Traced s
  lazy : LazyInit s
  completers : ∀ b, Completers (s.isolates b)
  alone : Alone a s
  disciplined : Disciplined s
  home : RepliesAtHome s

/-- What it keeps up to an error of `asTypedList`. -/
structure Held (a : Nat) (s : Process) : Prop extends Solo a s where
  counted : Counted a s
  asserted : (s.isolates a).assertFailed = false

/-- The reply port is there before the first request, and it is that of `a`. -/
theorem Solo.port {a k : Nat} {s : Process} {h : Handling} (hs : Solo a s)
    (hk : s.handlings[k]? = some h) : s.replyPort = some a := by
  have hset : s.replyPort.isSome = true := hs.lazy.port.trans (apiDL_of_handling hs.lazy hk)
  obtain ⟨b, hb⟩ := Option.isSome_iff_exists.mp hset
  rw [hb, hs.alone.port b hb]

theorem Held.conserved {a : Nat} {s : Process} (hs : Held a s) : Conserved a s where
  disjoint := by
    rw [List.nodup_iff_count_le_one]
    intro q
    rw [count_pending, hs.counted q]
    split
    · exact Nat.le_refl 1
    · exact Nat.zero_le 1
  keys q := by
    rw [← List.count_pos_iff, count_pending, hs.counted q]
    split
    · rename_i hm
      exact iff_of_true hm Nat.zero_lt_one
    · rename_i hm
      exact iff_of_false hm (Nat.lt_irrefl 0)
  asserted := hs.asserted
  once := (hs.completers a).once
  own := (hs.home.isolates a).completed

section Runs
variable [Vm]

theorem Readable.through {fresh : MessageWrapper} {reply : Option DirectByteBuffer}
    (h : Readable fresh reply) (replyId : Int) : (fresh.fill replyId reply).throws = false := by
  rw [← Bool.not_eq_true, MessageWrapper.throws_iff, not_and_not_right]
  cases reply with
  | none => exact fun hdata => h.resolve_left hdata
  | some reply => exact fun _ => h

theorem throws_of_unreadable {fresh : MessageWrapper} {reply : Option DirectByteBuffer}
    (h : ¬ Readable fresh reply) (replyId : Int) : (fresh.fill replyId reply).throws = true := by
  rw [MessageWrapper.throws_iff]
  cases reply with
  | none => exact not_or.mp h
  | some reply => exact ⟨reply.nonNull, h⟩

/-- `onReply` gets through with every wrapper on the port. -/
def PortReadable (a : Nat) (s : Process) : Prop :=
  ∀ w ∈ (s.isolates a).replyPort, w.val.throws = false

/-- What a run of isolate `a` alone keeps, where no `asTypedList` throws. -/
structure Kept (a : Nat) (s : Process) : Prop extends Held a s where
  readable : PortReadable a s

theorem Solo.addressed {a : Nat} {s t : Process} {e : Event} (hs : Solo a s) (hc : Conforms a s e)
    (h : step s e = some t) : Addressed s e := by
  obtain ⟨_, hm⟩ := step_moves h
  cases hm with
  | touched he => exact ReplyRouting.touches_addressed he
  | construct he => exact ReplyRouting.touches_addressed he
  | schedule he => exact ReplyRouting.scheduling_addressed he
  | handle hk _ hn =>
    simp [Addressed, ReplyRouting.AskerInitializedLast, FreesOnce, hk, hn]
  | @reply k e fresh hd request r hk hr _ hq =>
    have hfirst := first_call hs.disciplined hc hk hr hq
    simp [Addressed, ReplyRouting.AskerInitializedLast, FreesOnce, hk, hs.port hk,
      hs.alone.handled _ (mem_of_at hk), freesAgain_first hfirst]
  | _ => exact ⟨trivial, trivial⟩

/-- `onReply` gets through with the wrapper that the step takes from the port. -/
def FrontReadable (a : Nat) (s : Process) (e : Event) : Prop :=
  e = .onReply a → ∀ w ∈ (s.isolates a).replyPort.head?, w.val.throws = false

/-- Each step moves a seq from one place to one other, and the completer stays
until the wrapper is taken from the port. -/
theorem step_counted {a : Nat} {s t : Process} {e : Event} (hs : Held a s) (hc : Conforms a s e)
    (hf : FrontReadable a s e) (h : step s e = some t) :
    Counted a t ∧ (t.isolates a).assertFailed = false := by
  obtain ⟨_, hm⟩ := step_moves h
  cases hm with
  | newSynchronous => exact ⟨hs.counted, hs.asserted⟩
  | withMessenger => exact ⟨hs.counted, hs.asserted⟩
  | touched => exact ⟨hs.counted, hs.asserted⟩
  | @construct b n e pool _ _ hp =>
    obtain ⟨hport, hkeys, hassert⟩ := construct_fields s b pool a
    refine ⟨hs.counted.congr ?_ hport hkeys, hassert.trans hs.asserted⟩
    intro q
    exact congrArg (· + _) (waiting_start q hp)
  | @send b _ _ _ _ _ hp =>
    obtain rfl : b = a := hc.1
    refine ⟨counted_send hs.counted (hs.completers b) hp, ?_⟩
    simp only [Process.setIsolate, Function.update_self]
    exact hs.asserted
  | sendSynchronous =>
    refine ⟨hs.counted.congr ?_ ?_ ?_, ?_⟩
    · intro q
      rw [registerFinalizer_pool, registerFinalizer_handlings]
    · rw [registerFinalizer_isolates]
    · rw [registerFinalizer_isolates]
    · rw [registerFinalizer_isolates]
      exact hs.asserted
  | schedule he hp =>
    refine ⟨hs.counted.congr ?_ rfl rfl, hs.asserted⟩
    intro q
    exact congrArg (· + _) (waiting_schedule q he hp)
  | call ht hp => exact ⟨counted_call hs.counted ht hp, hs.asserted⟩
  | handle hk hr _ hq =>
    refine ⟨hs.counted.congr ?_ rfl rfl, hs.asserted⟩
    intro q
    exact congrArg (_ + ·) (unsubmitted_quiet q hk hq (ConcurrentMessenger.step_calls hr).1)
  | @reply k e fresh hd request r hk hr _ hq =>
    have hb := first_call hs.disciplined hc hk hr hq
    refine ⟨counted_reply hs.counted (hs.port hk) hk hb hq, ?_⟩
    have hiso := post_isolates (s := (s.setHandling k { hd with request }).freeMessage hd) (a := a)
      ⟨hd.tag, fresh.fill hd.request.seq r⟩ (hs.port hk)
    rw [hiso, Function.update_self]
    exact hs.asserted
  | @onReply b w rest hp =>
    obtain rfl : b = a := hc.1
    have hr : w.val.throws = false := hf rfl w (by simp [hp])
    have hcount := counted_onReply hs.counted hp hr
    refine ⟨hcount.congr ?_ ?_ ?_, ?_⟩
    · intro q
      rw [registerFinalizer_pool, registerFinalizer_handlings]
    · rw [registerFinalizer_isolates]
    · rw [registerFinalizer_isolates]
    · rw [registerFinalizer_isolates,
        onReply_through { s.isolates b with replyPort := rest } (hs.counted.waits hp) hr]
      simp only [Process.setIsolate, Function.update_self]
      exact hs.asserted

theorem step_solo {a : Nat} {s t : Process} {e : Event} (hs : Solo a s) (hc : Conforms a s e)
    (h : step s e = some t) : Solo a t where
  traced := step_traced hs.traced h
  lazy := step_lazyInit hs.lazy h
  completers := step_completers hs.completers h
  alone := step_alone hs.alone hc.1 h
  disciplined := step_disciplined hs.disciplined hc h
  home := (ReplyRouting.step_atHome ⟨hs.traced, hs.lazy⟩ hs.home h).mpr (hs.addressed hc h)

theorem step_held {a : Nat} {s t : Process} {e : Event} (hs : Held a s) (hc : Conforms a s e)
    (hf : FrontReadable a s e) (h : step s e = some t) : Held a t where
  toSolo := step_solo hs.toSolo hc h
  counted := (step_counted hs hc hf h).1
  asserted := (step_counted hs hc hf h).2

theorem PortReadable.front {a : Nat} {s : Process} (hs : PortReadable a s) (e : Event) :
    FrontReadable a s e :=
  fun _ w hw => hs w (List.mem_of_mem_head? hw)

/-- Only a reply brings a wrapper to the port. -/
theorem step_readable {a : Nat} {s t : Process} {e : Event} (hs : Kept a s)
    (hc : Conforms a s e) (hr : RepliesReadable s e) (h : step s e = some t) :
    PortReadable a t := by
  obtain ⟨_, hm⟩ := step_moves h
  unfold PortReadable
  cases hm with
  | @construct b _ _ pool =>
    rw [(construct_fields s b pool a).1]
    exact hs.readable
  | @send b =>
    obtain rfl : b = a := hc.1
    simp only [Process.setIsolate, Function.update_self, Isolate.send]
    exact hs.readable
  | sendSynchronous =>
    rw [registerFinalizer_isolates]
    exact hs.readable
  | @reply k e fresh hd request r hk hstep _ hcalls =>
    have hiso := post_isolates (s := (s.setHandling k { hd with request }).freeMessage hd) (a := a)
      ⟨hd.tag, fresh.fill hd.request.seq r⟩ (hs.port hk)
    rw [hiso, Function.update_self]
    intro w hw
    rcases List.mem_append.mp hw with hw | hw
    · exact hs.readable w hw
    · rw [List.mem_singleton.mp hw]
      have hreply : Readable fresh r := by
        refine hr ⟨hd.request.seq, r, hd.request.message⟩ ?_
        rw [replies_handle _ fresh hk hstep hcalls]
        exact List.mem_singleton_self _
      exact hreply.through _
  | @onReply b w rest hp =>
    obtain rfl : b = a := hc.1
    rw [registerFinalizer_isolates]
    simp only [Process.setIsolate, Function.update_self, (onReply_fields _ w).2.1]
    intro x hx
    exact hs.readable x (by rw [hp]; exact List.mem_cons_of_mem _ hx)
  | _ => exact hs.readable

theorem step_kept {a : Nat} {s t : Process} {e : Event} (hs : Kept a s) (hc : Conforms a s e)
    (hr : RepliesReadable s e) (h : step s e = some t) : Kept a t where
  toHeld := step_held hs.toHeld hc (hs.readable.front e) h
  readable := step_readable hs hc hr h

theorem initial_kept (a : Nat) : Kept a Process.initial where
  traced := initial_traced
  lazy := initial_lazyInit
  completers _ := ⟨nofun, nofun, List.nodup_nil⟩
  alone := {
    port := by
      intro b hb
      cases hb
    tasks := WorkerPool.initial_tasks 0
    handled := by
      intro h hm
      cases hm }
  disciplined := by
    intro h hm
    cases hm
  home := ⟨rfl, fun _ => ⟨nofun, nofun⟩⟩
  counted q := (if_neg (Finset.notMem_empty q)).symm
  asserted := rfl
  readable := by
    intro w hw
    cases hw

/-- Delivering what is on the port leaves the process defined. -/
theorem onReply_defined {a : Nat} {s t : Process} (hs : Held a s)
    (h : step s (.onReply a) = some t) : t.undefined = false := by
  obtain ⟨hd, hm⟩ := step_moves h
  cases hm with
  | @onReply _ w rest hp =>
    have hapi := apiDL_of_posted hs.lazy hp
    cases hb : w.val.built <;>
      simpa [Process.undefined, Process.registerFinalizer, Process.callDL, Process.setIsolate,
        hapi, hb] using hd
  | touched he => cases he
  | construct he => cases he
  | schedule is => cases is

/-- An error of `asTypedList` leaves a completer behind, whose seq is nowhere. -/
theorem completer_stays {a : Nat} {s t : Process} {w : Tagged MessageWrapper} (hs : Held a s)
    (hp : (s.isolates a).replyPort = [w]) (hw : w.val.throws = true)
    (h : step s (.onReply a) = some t) : ¬ Conserved a t := by
  obtain ⟨_, hm⟩ := step_moves h
  cases hm with
  | @onReply _ w' rest hp' =>
    obtain ⟨rfl, rfl⟩ := List.cons.inj (hp'.symm.trans hp)
    have hmem := hs.counted.waits hp
    have hiso : { s.isolates a with replyPort := [] }.onReply w' =
        { s.isolates a with replyPort := [] } := by
      simp [Isolate.onReply, hmem, hw]
    intro hc
    have hone := hs.counted w'.val.seq
    rw [if_pos hmem, hp, List.countP_singleton, if_pos (by simp [posted])] at hone
    have hpending := (hc.keys w'.val.seq).mp (by
      rw [registerFinalizer_isolates, hiso]
      simpa [Process.setIsolate] using hmem)
    rw [← List.count_pos_iff, count_pending, registerFinalizer_isolates, hiso,
      registerFinalizer_pool, registerFinalizer_handlings] at hpending
    simp only [Process.setIsolate, Function.update_self, List.countP_nil] at hpending
    omega
  | touched he => cases he
  | construct he => cases he
  | schedule is => cases is

/-- The wrappers before it are delivered as they should, and then `onReply` throws. -/
theorem port_breaks {a : Nat} {s : Process} {w : Tagged MessageWrapper}
    {l : List (Tagged MessageWrapper)} (hs : Held a s) (hd : s.undefined = false)
    (hp : (s.isolates a).replyPort = l ++ [w]) (hl : ∀ x ∈ l, x.val.throws = false)
    (hw : w.val.throws = true) : Breaks step (· = .onReply a) (Conserved a) s := by
  induction l generalizing s with
  | nil =>
    have hstep : (step s (.onReply a)).isSome = true := by simp [step, hd, hp]
    obtain ⟨t, ht⟩ := Option.isSome_iff_exists.mp hstep
    exact (Breaks.now (completer_stays hs hp hw ht)).before rfl ht
  | cons x l ih =>
    obtain ⟨hx, hl⟩ := List.forall_mem_cons.mp hl
    have hstep : (step s (.onReply a)).isSome = true := by simp [step, hd, hp]
    obtain ⟨t, ht⟩ := Option.isSome_iff_exists.mp hstep
    have hfront : FrontReadable a s (.onReply a) := by
      intro _ v hv
      rw [hp] at hv
      cases hv
      exact hx
    have hport : (t.isolates a).replyPort = l ++ [w] := by
      simp only [step, hd, hp, List.cons_append, Bool.false_eq_true, if_false,
        Option.some.injEq] at ht
      rw [← ht, registerFinalizer_isolates]
      simp [Process.setIsolate, (onReply_fields _ x).2.1]
    have hby : Conforms a s (.onReply a) := ⟨rfl, trivial⟩
    have ht' := step_held hs hby hfront ht
    exact (ih ht' (onReply_defined hs ht) hport hl).before rfl ht

/-- A reply that `onReply` will not get through with. -/
theorem unreadable_breaks {a : Nat} {s t : Process} {e : Event} (hs : Kept a s)
    (hc : Conforms a s e) (h : step s e = some t) (hr : ¬ RepliesReadable s e) :
    Breaks step (· = .onReply a) (Conserved a) t := by
  obtain ⟨hd, hm⟩ := step_moves h
  cases hm with
  | touched he => cases e <;> first | exact absurd trivial hr | cases he
  | construct he => cases e <;> first | exact absurd trivial hr | cases he
  | schedule is => cases e <;> first | exact absurd trivial hr | cases is
  | handle hk hstep _ hcalls =>
    refine absurd ?_ hr
    intro c hmem
    rw [replies_handle [] _ hk hstep (by simpa using hcalls)] at hmem
    cases hmem
  | @reply k e fresh hq request r hk hstep _ hcalls =>
    have hunreadable : ¬ Readable fresh r := by
      intro hreply
      apply hr
      intro c hmem
      rw [replies_handle _ fresh hk hstep hcalls, List.mem_singleton] at hmem
      rw [hmem]
      exact hreply
    have hnot : FrontReadable a s (.handle k e fresh) := nofun
    have ht := step_held hs.toHeld hc hnot h
    have hapi := apiDL_of_handling hs.lazy hk
    have hfreed := freesAgain_first (first_call hs.disciplined hc hk hstep hcalls)
    have hdefined : (((s.setHandling k { hq with request }).freeMessage hq).post
        ⟨hq.tag, fresh.fill hq.request.seq r⟩).undefined = false := by
      simpa [Process.undefined, Process.post, hs.port hk, Process.callDL, Process.freeMessage,
        Process.setHandling, Process.setIsolate, hapi, hfreed] using hd
    refine port_breaks ht hdefined ?_ hs.readable (throws_of_unreadable hunreadable hq.request.seq)
      (w := ⟨hq.tag, fresh.fill hq.request.seq r⟩)
    have hiso := post_isolates (s := (s.setHandling k { hq with request }).freeMessage hq) (a := a)
      ⟨hq.tag, fresh.fill hq.request.seq r⟩ (hs.port hk)
    rw [hiso, Function.update_self]
    rfl
  | _ => exact absurd trivial hr

/-- In every state of a run of one isolate whose handlers reply or throw, and of the delivery
of its replies, the completers are those of the seqs on their way, each at one place, exactly
when `onReply` gets past `asTypedList` with every reply of the run. -/
theorem completers_conserved_iff (a : Nat) (es : List Event)
    (hc : AllSteps step (Conforms a) Process.initial es)
    (hr : (run step Process.initial es).isSome) :
    Through step (· = .onReply a) (Conserved a) Process.initial es ↔
      AllSteps step RepliesReadable Process.initial es := by
  obtain ⟨t, ht⟩ := Option.isSome_iff_exists.mp hr
  refine through_iff_within (I := Kept a) ?_ ?_ (fun _ hs => hs.conserved) ?_ (initial_kept a)
    hc ht
  · intro s e t hs hc hr h
    exact step_kept hs hc hr h
  · intro s e he
    rw [he]
    exact ⟨⟨rfl, trivial⟩, trivial⟩
  · intro s e t hs hc h hr
    exact unreadable_breaks hs hc h hr

end Runs

attribute [local instance] Vm.lp64

/-- Two requests under way: one with the worker, one in the queue. -/
theorem completers_conserved_two_sends :
    Through step (· = .onReply 0) (Conserved 0) Process.initial
      [.instance_ 0 2, .send 0 9 none 0, .send 0 9 (some [7]) 4096, .notifyOne none, .test 0,
        .frontPop 0, .call 0 .binary, .handle 0 (.reply true none) ⟨7, 7, 4096⟩,
        .handle 0 .native ⟨7, 7, 4096⟩] :=
  (completers_conserved_iff 0 _ (by decide) (by decide)).mpr (by decide)

/-- A null reply in memory where the length of a list is negative: the completer of the
request stays, and the request is nowhere. -/
theorem unreadable_reply_keeps_completer :
    ∃ s, run step Process.initial
        [.instance_ 0 2, .send 0 9 none 0, .notifyOne none, .test 0, .frontPop 0, .call 0 .absent,
          .handle 0 .replyNull ⟨0, -1, 4096⟩, .onReply 0] = some s ∧
      (s.isolates 0).resultCompleters = {1} ∧ pending 0 s = [] ∧ ¬ Conserved 0 s := by
  refine ⟨_, rfl, by decide, by decide, ?_⟩
  intro h
  have hkey := (h.keys 1).mp (by decide)
  exact absurd hkey (by decide)

end NativeChannel.Conservation
