import NativeChannel.Proofs.OpenFutures

namespace NativeChannel.ServedInOrder
open Runs Counts ConcurrentChannel ProcessInvariants Conservation
open OpenFutures (cores)
open WorkerPool (Pool Worker)
open Wrapper (DirectByteBuffer MessageWrapper Vm)

/-- The seqs of the first `n` requests of an isolate. -/
def firstSeqs (n : Nat) : List Int := (List.range n).map fun k : Nat => (k : Int) + 1

/-- The seqs replied to, the first reply first: those of completed futures, and then those
on the port. -/
def repliedSeqs (a : Nat) (s : Process) : List Int :=
  (s.isolates a).completed.map Prod.fst ++ postedSeqs a s

/-- Requests were replied to in the order of their `send`s, and none was left out. -/
def InOrder (a : Nat) (s : Process) : Prop :=
  repliedSeqs a s = firstSeqs (repliedSeqs a s).length

/-- Devices of up to three cores, where the library starts one worker. -/
def ThreeCores (e : Event) : Prop := ∀ hw ∈ cores e, hw ≤ 3

instance (e : Event) : Decidable (ThreeCores e) :=
  inferInstanceAs (Decidable (∀ hw ∈ cores e, hw ≤ 3))

/-- Only isolate `a` takes part, its handlers reply, readably for `onReply`, or throw, and
one worker serves it. -/
def OneWorker [Vm] (a : Nat) (s : Process) (e : Event) : Prop :=
  Conforms a s e ∧ RepliesReadable s e ∧ ThreeCores e

instance [Vm] (a : Nat) (s : Process) (e : Event) : Decidable (OneWorker a s e) :=
  inferInstanceAs (Decidable (_ ∧ _))

/-- A worker is done with a request only when that has been replied to. -/
def RepliesFirst (s : Process) : Event → Prop
  | .finish _ => unsubmittedSeqs s = []
  | _ => True

instance (s : Process) : (e : Event) → Decidable (RepliesFirst s e)
  | .finish _ => (inferInstance : Decidable (unsubmittedSeqs s = []))
  | .newSynchronousMethodChannel _ | .newConcurrentMethodChannel _ _ _ | .instance_ _ _
  | .send _ _ _ _ | .sendSynchronous _ _ _ | .onReply _ | .notifyOne _ | .test _ | .block _
  | .wake _ | .frontPop _ | .call _ _ | .handle _ _ _ => isTrue trivial

/-- What may go on where the application keeps a `Reply` to itself: further requests, up to
the replies that the messenger makes for requests to no handler. -/
def Following (a : Nat) : Event → Prop
  | .send b _ _ _ => b = a
  | .test _ | .frontPop _ | .call _ _ => True
  | .handle _ .replyNull fresh => fresh.data = 0
  | _ => False

/-- Every seq sent, from the first reply back to the last task. -/
def line (a : Nat) (s : Process) : List Int :=
  repliedSeqs a s ++ unsubmittedSeqs s ++ (heldSeqs s ++ queuedSeqs s)

/-- The seqs stand in line, and the one worker is with the first that has no reply. -/
structure InLine [Vm] (a : Nat) (s : Process) : Prop where
  kept : Kept a s
  sent : (s.isolates a).seq = (line a s).length + 1
  ordered : line a s = firstSeqs (line a s).length
  workers : s.pool.threads.length ≤ (s.isolates a).constructed.toNat
  served : unsubmittedSeqs s = [] ∨
    ∃ q, unsubmittedSeqs s = [q] ∧ s.pool.threads = [.calling]

section Seqs

theorem firstSeqs_succ (n : Nat) : firstSeqs (n + 1) = firstSeqs n ++ [(n : Int) + 1] := by
  simp [firstSeqs, List.range_succ]

theorem firstSeqs_length (n : Nat) : (firstSeqs n).length = n := by simp [firstSeqs]

theorem firstSeqs_nodup (n : Nat) : (firstSeqs n).Nodup := by
  refine List.Nodup.map ?_ List.nodup_range
  intro i j hij
  simpa using hij

theorem front_firstSeqs {l : List Int} {n : Nat} (h : l <+: firstSeqs n) :
    l = firstSeqs l.length := by
  have hlen : l.length ≤ n := firstSeqs_length n ▸ h.length_le
  rw [List.prefix_iff_eq_take.mp h, firstSeqs, ← List.map_take, List.take_range]
  simp [firstSeqs, hlen]

end Seqs

section Places
variable {s : Process} {k : Nat} {h : Handling}
  {request : ConcurrentMessenger.Request DirectByteBuffer}

/-- The seq of a request without a reply. -/
def unsubmittedSeq (h : Handling) : Option Int :=
  if h.request.calls.isEmpty then some h.request.seq else none

/-- The handlings around the one that a step is about. -/
theorem handlings_around (hk : s.handlings[k]? = some h) (h' : Handling) :
    ∃ l₁ l₂, unsubmittedSeqs s =
        l₁ ++ (unsubmittedSeq h).toList ++ l₂ ∧
      unsubmittedSeqs (s.setHandling k h') = l₁ ++ (unsubmittedSeq h').toList ++ l₂ := by
  obtain ⟨hlt, hget⟩ := List.getElem?_eq_some_iff.mp hk
  obtain ⟨l₁, l₂, hl, _, hset⟩ : ∃ l₁ l₂, s.handlings = l₁ ++ s.handlings[k] :: l₂ ∧
      l₁.length = k ∧ s.handlings.set k h' = l₁ ++ h' :: l₂ := List.exists_of_set hlt
  rw [hget] at hl
  have hcons : ∀ (x : Handling), unsubmittedSeqs { s with handlings := l₁ ++ x :: l₂ } =
      l₁.filterMap unsubmittedSeq ++ (unsubmittedSeq x).toList ++ l₂.filterMap unsubmittedSeq := by
    intro x
    change (l₁ ++ x :: l₂).filterMap unsubmittedSeq = _
    rw [List.filterMap_append, List.filterMap_cons, List.append_assoc]
    cases unsubmittedSeq x <;> rfl
  refine ⟨l₁.filterMap unsubmittedSeq, l₂.filterMap unsubmittedSeq, ?_, ?_⟩
  · rw [← hcons h, ← hl]
  · rw [← hcons h', ← hset]
    rfl

/-- A request that makes no native call stays in line. -/
theorem unsubmittedSeqs_quiet (hk : s.handlings[k]? = some h)
    (hc : request.calls = h.request.calls) (hq : request.seq = h.request.seq) :
    unsubmittedSeqs (s.setHandling k { h with request }) = unsubmittedSeqs s := by
  obtain ⟨l₁, l₂, hbefore, hafter⟩ := handlings_around hk { h with request }
  have hsame : unsubmittedSeq { h with request } = unsubmittedSeq h := by
    simp only [unsubmittedSeq, hc, hq]
  rw [hbefore, hafter, hsame]

/-- The reply is to the one request that had none. -/
theorem unsubmittedSeqs_reply {q : Int} {r : Option DirectByteBuffer}
    (hk : s.handlings[k]? = some h) (hb : h.request.calls = [])
    (hc : request.calls = h.request.calls ++ [⟨h.request.seq, r, h.request.message⟩])
    (hu : unsubmittedSeqs s = [q]) :
    h.request.seq = q ∧ unsubmittedSeqs (s.setHandling k { h with request }) = [] := by
  obtain ⟨l₁, l₂, hbefore, hafter⟩ := handlings_around hk { h with request }
  have hown : unsubmittedSeq h = some h.request.seq := by simp [unsubmittedSeq, hb]
  have hgone : unsubmittedSeq { h with request } = none := by simp [unsubmittedSeq, hc]
  rw [hu, hown] at hbefore
  rw [hgone] at hafter
  cases l₁ with
  | nil =>
    simp only [Option.toList_some, List.nil_append, List.cons_append, List.cons.injEq] at hbefore
    rw [hafter, ← hbefore.2]
    exact ⟨hbefore.1.symm, rfl⟩
  | cons x l₁ =>
    have hlen := congrArg List.length hbefore
    simp only [List.length_append, List.length_cons, List.length_nil, Option.toList_some] at hlen
    omega

theorem unsubmittedSeqs_of (hk : s.handlings[k]? = some h) (hb : h.request.calls = []) :
    unsubmittedSeqs s ≠ [] := by
  refine List.ne_nil_of_mem (a := h.request.seq) ?_
  rw [unsubmittedSeqs, List.mem_filterMap]
  exact ⟨h, mem_of_at hk, by simp [hb]⟩

end Places

section Worker
variable {s : Process} {pool : Pool (Tagged TaskMessageWrapper)}

theorem only_worker {τ : Type} {threads : List (Worker τ)} {i : Nat} {w : Worker τ}
    (hl : threads.length ≤ 1) (hi : threads[i]? = some w) : i = 0 ∧ threads = [w] := by
  obtain ⟨hlt, hget⟩ := List.getElem?_eq_some_iff.mp hi
  obtain rfl : i = 0 := by omega
  obtain ⟨v, rfl⟩ := List.length_eq_one_iff.mp (show threads.length = 1 by omega)
  exact ⟨rfl, congrArg (fun x => [x]) hget⟩

/-- One worker takes the tasks in their order. -/
theorem schedule_waiting {e : Event} {f : WorkerPool.Event (Tagged TaskMessageWrapper)}
    (hl : s.pool.threads.length ≤ 1) (is : e.scheduling = some f)
    (h : WorkerPool.step s.pool f = some pool) :
    heldSeqs { s with pool } ++ queuedSeqs { s with pool } = heldSeqs s ++ queuedSeqs s ∧
      pool.threads.length = s.pool.threads.length ∧
      (s.pool.threads = [.calling] → (∀ i, e ≠ .finish i) → pool.threads = [.calling]) := by
  cases (WorkerPool.step_moves h).2 with
  | start => cases e <;> cases is
  | push => cases e <;> cases is
  | call => cases e <;> cases is
  | notifyNobody => exact ⟨rfl, rfl, fun hc _ => hc⟩
  | popEmpty => exact ⟨rfl, rfl, fun hc _ => hc⟩
  | pop at_ front =>
    obtain ⟨rfl, hone⟩ := only_worker hl at_
    simp [heldSeqs, queuedSeqs, Pool.setThread, hone, front]
  | finish at_ =>
    obtain ⟨rfl, hone⟩ := only_worker hl at_
    refine ⟨by simp [heldSeqs, queuedSeqs, Pool.setThread, hone], by simp [Pool.setThread], ?_⟩
    intro _ hn
    cases e <;> cases is
    exact absurd rfl (hn 0)
  | notify _ at_ | fails at_ | passes at_ | block at_ | wake at_ =>
    obtain ⟨rfl, hone⟩ := only_worker hl at_
    simp [heldSeqs, queuedSeqs, Pool.setThread, hone]

end Worker

/-- A posted wrapper is the latest reply. -/
theorem replied_post {a : Nat} {s : Process} (w : Tagged MessageWrapper)
    (hp : s.replyPort = some a) :
    repliedSeqs a (s.post w) = repliedSeqs a s ++ [w.val.seq] := by
  simp [repliedSeqs, postedSeqs, post_isolates w hp, Isolate.deliver]

section Steps
variable [Vm] {a : Nat} {s t : Process}

theorem replied_front (hs : InLine a s) : InOrder a s := by
  refine front_firstSeqs (n := (line a s).length) ?_
  rw [← hs.ordered, line, List.append_assoc]
  exact List.prefix_append _ _

/-- A step that moves a seq along the line, or none. -/
theorem InLine.of_line (hs : InLine a s) (hk : Kept a t)
    (hseq : (t.isolates a).seq = (s.isolates a).seq) (hline : line a t = line a s)
    (hworkers : t.pool.threads.length ≤ (t.isolates a).constructed.toNat)
    (hserved : unsubmittedSeqs t = [] ∨ ∃ q, unsubmittedSeqs t = [q] ∧ t.pool.threads = [.calling]) :
    InLine a t where
  kept := hk
  sent := by rw [hseq, hline]; exact hs.sent
  ordered := by rw [hline]; exact hs.ordered
  workers := hworkers
  served := hserved

/-- A step that is not about this isolate's requests. -/
theorem InLine.of_same (hs : InLine a s) (hk : Kept a t) (hpool : t.pool = s.pool)
    (hhandlings : t.handlings = s.handlings) (hiso : t.isolates a = s.isolates a) :
    InLine a t := by
  have hun : unsubmittedSeqs t = unsubmittedSeqs s := by simp only [unsubmittedSeqs, hhandlings]
  refine hs.of_line hk (by rw [hiso]) ?_ ?_ ?_
  · simp only [line, repliedSeqs, postedSeqs, heldSeqs, queuedSeqs, hpool, hun, hiso]
  · rw [hpool, hiso]
    exact hs.workers
  · rw [hun, hpool]
    exact hs.served

theorem InLine.one (hs : InLine a s) : s.pool.threads.length ≤ 1 :=
  Nat.le_trans hs.workers (Bool.toNat_le _)

/-- Only a worker that calls Java has a request without a reply. -/
theorem InLine.all_replied (hs : InLine a s) (h : s.pool.threads ≠ [.calling]) :
    unsubmittedSeqs s = [] := by
  rcases hs.served with hu | ⟨q, _, hcalling⟩
  · exact hu
  · exact absurd hcalling h

theorem construct_line {b n : Nat} {e : Event} {pool : Pool (Tagged TaskMessageWrapper)}
    (hs : InLine a s) (hk : Kept a (s.constructed b pool)) (hby : Event.By a e)
    (hc : ThreeCores e) (reads : e.Touches b) (first : (s.isolates b).constructed = false)
    (start : WorkerPool.step s.pool (.start n) = some pool)
    (h : step s e = some (s.constructed b pool)) : InLine a (s.constructed b pool) := by
  obtain rfl : b = a := by
    cases e with
    | newConcurrentMethodChannel c _ _ => exact reads.1.symm.trans hby
    | instance_ c _ => exact (show c = b from reads).symm.trans hby
    | _ => exact reads.elim
  obtain ⟨hw, hcores, hthreads⟩ := OpenFutures.construct_threads reads first h
  have hnone : s.pool.threads = [] := by
    have hlen := hs.workers
    rw [first] at hlen
    exact List.length_eq_zero_iff.mp (by simpa using hlen)
  have hun := hs.all_replied (by simp [hnone])
  cases (WorkerPool.step_moves start).2 with
  | start =>
    refine hs.of_line hk ?_ ?_ ?_ (Or.inl hun)
    · simp [Process.constructed]
    · simp [line, repliedSeqs, postedSeqs, heldSeqs, queuedSeqs, unsubmittedSeqs,
        Process.constructed, hnone]
    · have hthree := hc hw hcores
      rw [hthreads, hnone]
      simp only [Process.constructed, Function.update_self, List.length_nil, concurrency,
        Bool.toNat_true]
      omega

theorem send_line {channel : Int} {message : Option (List UInt8)} {allocated : Nat}
    {pool : Pool (Tagged TaskMessageWrapper)} (hs : InLine a s)
    (hk : Kept a { s.setIsolate a (s.isolates a).send with pool })
    (push : WorkerPool.step s.pool (.push ⟨⟨a, (s.isolates a).seq⟩,
      sendTask channel (s.isolates a).seq message allocated⟩) = some pool) :
    line a { s.setIsolate a (s.isolates a).send with pool } =
        line a s ++ [(s.isolates a).seq] ∧
      InLine a { s.setIsolate a (s.isolates a).send with pool } := by
  cases (WorkerPool.step_moves push).2 with
  | push =>
    have hline : line a { s.setIsolate a (s.isolates a).send with
        pool := WorkerPool.push s.pool ⟨⟨a, (s.isolates a).seq⟩,
          sendTask channel (s.isolates a).seq message allocated⟩ } =
        line a s ++ [(s.isolates a).seq] := by
      simp [line, repliedSeqs, postedSeqs, heldSeqs, queuedSeqs, unsubmittedSeqs,
        Process.setIsolate, Isolate.send, WorkerPool.push, sendTask_seq]
    refine ⟨hline, hk, ?_, ?_, ?_, ?_⟩
    · rw [hline]
      simp [Process.setIsolate, Isolate.send, hs.sent]
    · rw [hline, List.length_append, List.length_singleton, firstSeqs_succ, ← hs.ordered, hs.sent]
    · simpa [Process.setIsolate, Isolate.send, WorkerPool.push] using hs.workers
    · exact hs.served

theorem call_line {i : Nat} {handler : ConcurrentMessenger.Handler}
    {task : Tagged TaskMessageWrapper} {pool : Pool (Tagged TaskMessageWrapper)} (hs : InLine a s)
    (held : s.pool.threads[i]? = some (.holding task))
    (moves : WorkerPool.step s.pool (.call i) = some pool)
    (hk : Kept a { s with
      pool
      handlings := s.handlings ++ [⟨task.tag, i, ConcurrentMessenger.handleMessageFromDart
        task.val.message.seq (some task.val.message.data) handler⟩] }) :
    InLine a { s with
      pool
      handlings := s.handlings ++ [⟨task.tag, i, ConcurrentMessenger.handleMessageFromDart
        task.val.message.seq (some task.val.message.data) handler⟩] } := by
  obtain ⟨rfl, hone⟩ := only_worker hs.one held
  have hun := hs.all_replied (by simp [hone])
  have hnew : unsubmittedSeqs { s with
      pool
      handlings := s.handlings ++ [⟨task.tag, 0, ConcurrentMessenger.handleMessageFromDart
        task.val.message.seq (some task.val.message.data) handler⟩] } =
      [task.val.message.seq] := by
    change (s.handlings ++ [_]).filterMap unsubmittedSeq = _
    rw [List.filterMap_append, show s.handlings.filterMap unsubmittedSeq = [] from hun]
    rfl
  cases (WorkerPool.step_moves moves).2 with
  | call =>
    refine hs.of_line hk rfl ?_ ?_ (Or.inr ⟨_, hnew, ?_⟩)
    · rw [line, hnew, line, hun]
      simp [repliedSeqs, postedSeqs, heldSeqs, queuedSeqs, Pool.setThread, hone]
    · simpa [Pool.setThread] using hs.workers
    · simp [Pool.setThread, hone]

theorem reply_line {k : Nat} {fresh : MessageWrapper} {h : Handling}
    {request : ConcurrentMessenger.Request DirectByteBuffer} {r : Option DirectByteBuffer}
    (hs : InLine a s) (hk : s.handlings[k]? = some h) (hb : h.request.calls = [])
    (hc : request.calls = h.request.calls ++ [⟨h.request.seq, r, h.request.message⟩])
    (hkept : Kept a (((s.setHandling k { h with request }).freeMessage h).post
      ⟨h.tag, fresh.fill h.request.seq r⟩)) :
    InLine a (((s.setHandling k { h with request }).freeMessage h).post
      ⟨h.tag, fresh.fill h.request.seq r⟩) := by
  obtain ⟨q, hu, hcalling⟩ := hs.served.resolve_left (unsubmittedSeqs_of hk hb)
  obtain ⟨rfl, hgone⟩ := unsubmittedSeqs_reply hk hb hc hu
  have hport := hs.kept.port hk
  have hiso := post_isolates (s := (s.setHandling k { h with request }).freeMessage h) (a := a)
    ⟨h.tag, fresh.fill h.request.seq r⟩ hport
  have hreplied := replied_post (s := (s.setHandling k { h with request }).freeMessage h)
    ⟨h.tag, fresh.fill h.request.seq r⟩ hport
  have hseq : (fresh.fill h.request.seq r).seq = h.request.seq := by cases r <;> rfl
  have hun : unsubmittedSeqs (((s.setHandling k { h with request }).freeMessage h).post
      ⟨h.tag, fresh.fill h.request.seq r⟩) = [] := by
    rw [← hgone]
    simp only [unsubmittedSeqs, post_handlings, freeMessage_handlings]
  refine hs.of_line hkept ?_ ?_ ?_ (Or.inl hun)
  · rw [hiso]
    simp [Isolate.deliver]
  · rw [line, hun, line, hu, hreplied, hseq, List.append_nil]
    simp only [heldSeqs, queuedSeqs, post_pool, freeMessage_pool, setHandling_pool]
    rfl
  · rw [hiso]
    simpa [Isolate.deliver] using hs.workers

theorem onReply_line {w : Tagged MessageWrapper} {rest : List (Tagged MessageWrapper)}
    (hs : InLine a s) (port : (s.isolates a).replyPort = w :: rest)
    (hkept : Kept a ((s.setIsolate a ({ s.isolates a with replyPort := rest }.onReply w)
      ).registerFinalizer w.val.built)) :
    InLine a ((s.setIsolate a ({ s.isolates a with replyPort := rest }.onReply w)
      ).registerFinalizer w.val.built) := by
  have hmem := hs.kept.counted.waits port
  have hread : w.val.throws = false := hs.kept.readable w (by simp [port])
  have hiso := onReply_through { s.isolates a with replyPort := rest } hmem hread
  have hun : unsubmittedSeqs ((s.setIsolate a ({ s.isolates a with replyPort := rest }.onReply w)
      ).registerFinalizer w.val.built) = unsubmittedSeqs s := by
    simp only [unsubmittedSeqs, registerFinalizer_handlings, setIsolate_handlings]
  rw [hiso] at hkept hun ⊢
  refine hs.of_line hkept ?_ ?_ ?_ ?_
  · simp [Process.setIsolate]
  · rw [line, hun, line]
    simp [repliedSeqs, postedSeqs, heldSeqs, queuedSeqs, Process.setIsolate, port]
  · simpa [Process.setIsolate] using hs.workers
  · rw [hun, registerFinalizer_pool, setIsolate_pool]
    exact hs.served

/-- With one worker that replies first, nothing overtakes on the way. -/
theorem step_inLine {e : Event} (hs : InLine a s) (hw : OneWorker a s e) (hf : RepliesFirst s e)
    (h : step s e = some t) : InLine a t := by
  have hk := step_kept hs.kept hw.1 hw.2.1 h
  have hby : Event.By a e := hw.1.1
  obtain ⟨_, hm⟩ := step_moves h
  cases hm with
  | newSynchronous => exact hs
  | withMessenger => exact hs
  | touched => exact hs
  | construct reads first start => exact construct_line hs hk hby hw.2.2 reads first start h
  | @send b channel message allocated pool ready push =>
    obtain rfl : b = a := hby
    exact (send_line hs hk push).2
  | sendSynchronous =>
    exact hs.of_same hk (registerFinalizer_pool _ _) (registerFinalizer_handlings _ _)
      (by rw [registerFinalizer_isolates])
  | schedule is moves =>
    obtain ⟨hwaiting, hlen, hcalling⟩ := schedule_waiting hs.one is moves
    refine hs.of_line hk rfl ?_ (hlen ▸ hs.workers) ?_
    · exact congrArg (repliedSeqs a s ++ unsubmittedSeqs s ++ ·) hwaiting
    · rcases hs.served with hu | ⟨q, hu, hthreads⟩
      · exact Or.inl hu
      · refine Or.inr ⟨q, hu, hcalling hthreads ?_⟩
        rintro i rfl
        have hnone : unsubmittedSeqs s = [] := hf
        rw [hu] at hnone
        cases hnone
  | call held moves => exact call_line hs held moves hk
  | handle at_ moves _ calls =>
    have hun := unsubmittedSeqs_quiet at_ calls (ConcurrentMessenger.step_calls moves).1
    refine hs.of_line hk rfl ?_ hs.workers ?_
    · rw [line, hun]
      rfl
    · rw [hun]
      exact hs.served
  | reply at_ moves _ calls =>
    exact reply_line hs at_ (first_call hs.kept.disciplined hw.1 at_ moves calls) calls hk
  | @onReply b w rest port =>
    obtain rfl : b = a := hby
    exact onReply_line hs port hk

end Steps

section Overtaking
variable [Vm] {a : Nat} {s t : Process}

/-- The reply to a request for which there is no handler. -/
theorem absent_replied {k i : Nat} {tag : Tag} {seq : Int} {message : Option Nat}
    (fresh : MessageWrapper) (hd : t.undefined = false) (hp : t.replyPort = some a)
    (hk : t.handlings[k]? = some
      ⟨tag, i, ConcurrentMessenger.handleMessageFromDart seq message .absent⟩) :
    ∃ u, step t (.handle k .replyNull fresh) = some u ∧
      repliedSeqs a u = repliedSeqs a t ++ [seq] := by
  let request : ConcurrentMessenger.Request DirectByteBuffer :=
    { (ConcurrentMessenger.handleMessageFromDart seq message .absent).replyMessageToDart none with
      frame := .returned }
  let u : Process := (t.setHandling k ⟨tag, i, request⟩).freeMessage
    ⟨tag, i, ConcurrentMessenger.handleMessageFromDart seq message .absent⟩
  have hstep : step t (.handle k .replyNull fresh) =
      some (u.post ⟨tag, fresh.fill seq none⟩) := by
    simp only [step, hd, hk, Bool.false_eq_true, if_false]
    rfl
  exact ⟨_, hstep, replied_post (s := u) ⟨tag, fresh.fill seq none⟩ hp⟩

/-- A free worker brings the next request as far as a reply. -/
theorem next_replied (hd : t.undefined = false)
    (hthreads : t.pool.threads = [.testing]) (hc : (t.isolates a).constructed = true)
    (hp : t.replyPort = some a) :
    ∃ xs, (∀ x ∈ xs, Following a x) ∧ ∃ u, run step t xs = some u ∧
      ∃ q ∈ queuedSeqs t ++ [(t.isolates a).seq], repliedSeqs a u = repliedSeqs a t ++ [q] := by
  obtain ⟨pool, apiDL, replyPort, handlings, isolates, nullCall, freedTwice⟩ := t
  obtain ⟨queue, threads, notifying, poppedEmpty, pushed, dequeued⟩ := pool
  simp only [Process.undefined, Bool.or_eq_false_iff] at hd
  obtain ⟨⟨hn, hpops⟩, hfreed⟩ := hd
  simp only at hthreads hc hp
  subst hn hpops hfreed hthreads hp
  let sent : Tagged TaskMessageWrapper := ⟨⟨a, (isolates a).seq⟩, sendTask 0 (isolates a).seq none 0⟩
  obtain ⟨task, rest, hq⟩ := List.exists_cons_of_ne_nil (l := queue ++ [sent]) (by simp)
  have hseq : task.val.message.seq ∈
      queue.map (fun t => t.val.message.seq) ++ [(isolates a).seq] := by
    have hmem : task ∈ queue ++ [sent] := by simp [hq]
    rcases List.mem_append.mp hmem with hm | hm
    · exact List.mem_append_left _ (List.mem_map_of_mem hm)
    · rw [List.mem_singleton.mp hm]
      exact List.mem_append_right _ (by simp [sent, sendTask_seq])
  let called : Process :=
    { pool := ⟨rest, [.calling], notifying + 1, false, pushed ++ [sent], dequeued ++ [task]⟩
      apiDL
      replyPort := some a
      handlings := handlings ++ [⟨task.tag, 0, ConcurrentMessenger.handleMessageFromDart
        task.val.message.seq (some task.val.message.data) .absent⟩]
      isolates := Function.update isolates a (isolates a).send
      nullCall := false
      freedTwice := false }
  have hcalled : run step ⟨⟨queue, [.testing], notifying, false, pushed, dequeued⟩, apiDL, some a,
      handlings, isolates, false, false⟩ [.send a 0 none 0, .test 0, .frontPop 0, .call 0 .absent] =
      some called := by
    simp [step, Process.undefined, hc, Process.poolStep, WorkerPool.step, Process.setIsolate,
      WorkerPool.push, hq, WorkerPool.test, Pool.cvMtxFree, Worker.isFailed, Pool.setThread,
      WorkerPool.frontPop, called, sent]
  have hlast : called.handlings[handlings.length]? = some ⟨task.tag, 0,
      ConcurrentMessenger.handleMessageFromDart task.val.message.seq (some task.val.message.data)
        .absent⟩ := by
    simp [called]
  obtain ⟨u, hu, hreplied⟩ := absent_replied (a := a) ⟨0, 0, 0⟩ rfl rfl hlast
  refine ⟨[.send a 0 none 0, .test 0, .frontPop 0, .call 0 .absent,
    .handle handlings.length .replyNull ⟨0, 0, 0⟩], ?_, u, ?_, _, hseq, ?_⟩
  · intro x hx
    simp only [List.mem_cons, List.not_mem_nil, or_false] at hx
    rcases hx with rfl | rfl | rfl | rfl | rfl
    · rfl
    · trivial
    · trivial
    · trivial
    · rfl
  · exact run_concat.mpr ⟨called, hcalled, hu⟩
  · rw [hreplied]
    simp [repliedSeqs, postedSeqs, called, Isolate.send]

/-- Where one request has no reply, the next reply to another is out of order. -/
theorem overtaken {u : Process} {q q' : Int} (hs : InLine a s) (hu : unsubmittedSeqs s = [q])
    (hq : q' ∈ queuedSeqs s ++ [(s.isolates a).seq])
    (hreplied : repliedSeqs a u = repliedSeqs a s ++ [q']) : ¬ InOrder a u := by
  intro hin
  have hline : repliedSeqs a s ++ [q] ++ (heldSeqs s ++ queuedSeqs s ++ [(s.isolates a).seq]) =
      firstSeqs ((line a s).length + 1) := by
    rw [firstSeqs_succ, ← hs.ordered, ← hs.sent, line, hu, List.append_assoc (_ ++ [q])]
  have hfront := front_firstSeqs (hline ▸ List.prefix_append _ _)
  unfold InOrder at hin
  rw [hreplied] at hin
  have hsame : [q] = [q'] := by
    have hlen : (repliedSeqs a s ++ [q]).length = (repliedSeqs a s ++ [q']).length := by simp
    rw [hlen, ← hin] at hfront
    exact List.append_cancel_left hfront
  cases hsame
  have hnodup := firstSeqs_nodup ((line a s).length + 1)
  rw [← hline, List.nodup_append] at hnodup
  refine hnodup.2.2 q (by simp) q ?_ rfl
  rw [List.append_assoc]
  exact List.mem_append_right _ hq

/-- A request left behind is overtaken by the next one. -/
theorem left_behind {e : Event} (hs : InLine a s) (h : step s e = some t)
    (hf : ¬ RepliesFirst s e) : Breaks step (Following a) (InOrder a) t := by
  cases e with
  | finish i =>
    obtain ⟨q, hu, hthreads⟩ := hs.served.resolve_left hf
    obtain ⟨hd, hm⟩ := step_moves h
    cases hm with
    | touched reads => cases reads
    | construct reads => cases reads
    | schedule is moves =>
      cases is
      cases (WorkerPool.step_moves moves).2 with
      | finish at_ =>
        obtain ⟨rfl, -⟩ := only_worker hs.one at_
        have hc : (s.isolates a).constructed = true := by
          have hlen := hs.workers
          rw [hthreads] at hlen
          cases hb : (s.isolates a).constructed with
          | true => rfl
          | false => simp [hb] at hlen
        have hport : s.replyPort = some a := by
          have hmem : q ∈ unsubmittedSeqs s := by simp [hu]
          obtain ⟨h, hh, _⟩ := List.mem_filterMap.mp hmem
          obtain ⟨k, hk⟩ := List.mem_iff_getElem?.mp hh
          exact hs.kept.port hk
        obtain ⟨xs, hx, u, hrun, q', hq', hreplied⟩ := next_replied (a := a)
          (t := { s with pool := s.pool.setThread 0 .testing }) hd
          (by simp [Pool.setThread, hthreads]) hc hport
        exact ⟨xs, hx, u, hrun, overtaken hs hu hq' hreplied⟩
  | _ => exact absurd trivial hf

end Overtaking

/-- The messenger's own reply is null. -/
theorem replyNull_null {s : Process} {k : Nat} {fresh : MessageWrapper}
    {c : ConcurrentMessenger.NativeReply DirectByteBuffer}
    (hc : c ∈ s.replies (.handle k .replyNull fresh)) : c.reply = none := by
  cases hk : s.handlings[k]? with
  | none => simp [Process.replies, hk] at hc
  | some h =>
    cases hstep : ConcurrentMessenger.step h.request .replyNull with
    | none => simp [Process.replies, hk, hstep] at hc
    | some request =>
      cases ConcurrentMessenger.step_moves hstep with
      | replyNull =>
        rw [replies_handle [⟨h.request.seq, none, h.request.message⟩] fresh hk hstep rfl,
          List.mem_singleton] at hc
        rw [hc]

section Main
variable [Vm]

theorem initial_inLine (a : Nat) : InLine a Process.initial where
  kept := initial_kept a
  sent := rfl
  ordered := rfl
  workers := Nat.le_refl 0
  served := Or.inl rfl

theorem following_free {a : Nat} (s : Process) {e : Event} (he : Following a e) :
    OneWorker a s e ∧ RepliesFirst s e := by
  cases e with
  | send b => exact ⟨⟨⟨he, trivial⟩, trivial, nofun⟩, trivial⟩
  | test | frontPop | call => exact ⟨⟨⟨trivial, trivial⟩, trivial, nofun⟩, trivial⟩
  | handle k e fresh =>
    cases e with
    | replyNull =>
      refine ⟨⟨⟨trivial, fun _ _ => trivial⟩, ?_, nofun⟩, trivial⟩
      intro c hc
      rw [replyNull_null hc]
      exact Or.inl he
    | _ => cases he
  | _ => cases he

/-- On a device where one worker serves the requests of one isolate, whose handlers reply or
throw: the replies come in the order of the requests, now and with those that follow,
exactly when the worker is done with each request only after the reply to it. -/
theorem served_in_order_iff (a : Nat) (es : List Event)
    (hw : AllSteps step (OneWorker a) Process.initial es)
    (hr : (run step Process.initial es).isSome) :
    Through step (Following a) (InOrder a) Process.initial es ↔
      AllSteps step RepliesFirst Process.initial es := by
  obtain ⟨t, ht⟩ := Option.isSome_iff_exists.mp hr
  refine through_iff_within (I := InLine a) ?_ ?_ (fun _ hs => replied_front hs) ?_
    (initial_inLine a) hw ht
  · intro s e t hs hw hf h
    exact step_inLine hs hw hf h
  · intro s e he
    exact following_free s he
  · intro s e t hs _ h hf
    exact left_behind hs h hf

end Main

attribute [local instance] Vm.lp64

/-- Two requests, of which the first is answered by the messenger. -/
theorem served_in_order_two_sends :
    Through step (Following 0) (InOrder 0) Process.initial
      [.instance_ 0 2, .send 0 9 none 0, .send 0 9 none 0, .notifyOne none, .test 0, .frontPop 0,
        .call 0 .absent, .handle 0 .replyNull ⟨0, 0, 0⟩, .finish 0, .test 0, .frontPop 0,
        .call 0 .binary, .onReply 0, .handle 1 (.reply true none) ⟨0, 0, 0⟩,
        .handle 1 .native ⟨0, 0, 0⟩] :=
  (served_in_order_iff 0 _ (by decide) (by decide)).mpr (by decide)

end NativeChannel.ServedInOrder
