import NativeChannel.Library.Counts
import NativeChannel.Proofs.ProcessInvariants
import NativeChannel.Source.RequestPayloads

namespace NativeChannel.PayloadPlaces
open Counts ConcurrentChannel
open WorkerPool (Pool Worker)
open Wrapper (DirectByteBuffer Vm)

section Pool
variable {τ : Type} {s t : Pool τ}

def Worker.task : Worker τ → Option τ
  | .holding task => some task
  | _ => none

/-- The tasks that wait in the queue or that a worker has taken and not yet handed on. -/
def tasks (s : Pool τ) : List τ := s.messageQueue ++ s.threads.filterMap Worker.task

/-- A worker that goes on without a task, before and after. -/
theorem setThread_tasks {i : Nat} {w w' : Worker τ} (hi : s.threads[i]? = some w)
    (hw : Worker.task w = none) (hw' : Worker.task w' = none) :
    (tasks (s.setThread i w')).Perm (tasks s) := by
  have hset := filterMap_set_perm Worker.task w' hi
  rw [hw, hw', Option.toList_none, List.append_nil, List.append_nil] at hset
  exact hset.append_left s.messageQueue

theorem push_tasks (task : τ) : (tasks (WorkerPool.push s task)).Perm (task :: tasks s) := by
  change ((s.messageQueue ++ [task]) ++ _).Perm _
  rw [List.append_assoc]
  exact List.perm_middle

theorem call_tasks {i : Nat} {task : τ} (hi : s.threads[i]? = some (.holding task)) :
    (task :: tasks (s.setThread i .calling)).Perm (tasks s) := by
  have hset := filterMap_set_perm Worker.task .calling hi
  have hafter : Worker.task (.calling : Worker τ) = none := rfl
  have hbefore : Worker.task (.holding task) = some task := rfl
  rw [hbefore, hafter, Option.toList_none, Option.toList_some, List.append_nil] at hset
  refine List.Perm.trans ?_ (hset.append_left s.messageQueue)
  rw [← List.append_assoc]
  exact (List.perm_append_singleton task _).symm

/-- All other steps of the pool keep the tasks. -/
theorem moves_tasks {e : WorkerPool.Event τ} (hm : WorkerPool.Moves s e t)
    (hpush : ∀ x, e ≠ .push x) (hcall : ∀ i, e ≠ .call i) : (tasks t).Perm (tasks s) := by
  cases hm with
  | start n =>
    have hnew : (List.replicate n (.testing : Worker τ)).filterMap Worker.task = [] := by
      rw [List.filterMap_eq_nil_iff]
      intro w hw
      rw [List.eq_of_mem_replicate hw]
      rfl
    change (s.messageQueue ++ (s.threads ++ _).filterMap _).Perm _
    rw [List.filterMap_append, hnew, List.append_nil]
    exact List.Perm.refl _
  | push x => exact absurd rfl (hpush x)
  | call => exact absurd rfl (hcall _)
  | notifyNobody => exact List.Perm.refl _
  | popEmpty => exact List.Perm.refl _
  | @pop i task rest hi hf =>
    have hset := filterMap_set_perm Worker.task (.holding task) hi
    have hbefore : Worker.task (.passed : Worker τ) = none := rfl
    have hafter : Worker.task (.holding task) = some task := rfl
    rw [hbefore, hafter, Option.toList_none, Option.toList_some, List.append_nil] at hset
    change (rest ++ (s.threads.set i (.holding task)).filterMap Worker.task).Perm
      (s.messageQueue ++ _)
    rw [hf]
    refine (hset.append_left rest).trans ?_
    rw [← List.append_assoc]
    exact List.perm_append_singleton task _
  | notify _ hi => exact setThread_tasks hi rfl rfl
  | fails hi => exact setThread_tasks hi rfl rfl
  | passes hi => exact setThread_tasks hi rfl rfl
  | block hi => exact setThread_tasks hi rfl rfl
  | wake hi => exact setThread_tasks hi rfl rfl
  | finish hi => exact setThread_tasks hi rfl rfl

end Pool

section Channel
variable {s t : Process}

/-- The requests, by the `send` each stems from, wherever they are. -/
def places (s : Process) : List Tag := (tasks s.pool).map Tagged.tag ++ s.handlings.map Handling.tag

/-- What an event that handles no message leaves alone. -/
structure Unmoved (s t : Process) : Prop where
  tasks : (tasks t.pool).Perm (tasks s.pool)
  handlings : t.handlings = s.handlings
  seq : ∀ a, (t.isolates a).seq = (s.isolates a).seq

theorem Unmoved.refl (s : Process) : Unmoved s s := ⟨List.Perm.refl _, rfl, fun _ => rfl⟩

theorem registerFinalizer_unmoved (s : Process) (v : Option Wrapper.View) :
    Unmoved s (s.registerFinalizer v) := by
  refine ⟨?_, registerFinalizer_handlings s v, fun a => by rw [registerFinalizer_isolates]⟩
  rw [registerFinalizer_pool]

theorem update_seq {iso : Isolate} {a : Nat} (h : iso.seq = (s.isolates a).seq) (b : Nat) :
    (Function.update s.isolates a iso b).seq = (s.isolates b).seq := by
  by_cases hb : b = a
  · subst b
    rw [Function.update_self, h]
  · rw [Function.update_of_ne hb]

theorem start_unmoved {n : Nat} {pool : Pool (Tagged TaskMessageWrapper)}
    (h : WorkerPool.step s.pool (.start n) = some pool) : (tasks pool).Perm (tasks s.pool) :=
  moves_tasks (WorkerPool.step_moves h).2 nofun nofun

theorem scheduling_unmoved {e : Event} {f : WorkerPool.Event (Tagged TaskMessageWrapper)}
    {pool : Pool (Tagged TaskMessageWrapper)} (he : e.scheduling = some f)
    (h : WorkerPool.step s.pool f = some pool) : (tasks pool).Perm (tasks s.pool) := by
  refine moves_tasks (WorkerPool.step_moves h).2 ?_ ?_
  · intro x hx
    exact ProcessInvariants.scheduling_not_push (P := fun _ => False) he x hx
  · intro i hi
    subst f
    cases e <;> cases he

theorem quiet_unmoved [Vm] {e : Event} (hm : Moves s e t)
    (hq : RequestPayloads.touchesMessage e = false) : Unmoved s t := by
  cases hm with
  | newSynchronous => exact Unmoved.refl s
  | withMessenger => exact Unmoved.refl s
  | touched => exact Unmoved.refl s
  | construct _ _ start =>
    refine ⟨start_unmoved start, rfl, ?_⟩
    apply update_seq
    rfl
  | schedule he hp => exact ⟨scheduling_unmoved he hp, rfl, fun _ => rfl⟩
  | @onReply a w rest hp =>
    have hreg := registerFinalizer_unmoved
      (s.setIsolate a ({ s.isolates a with replyPort := rest }.onReply w)) w.val.built
    refine ⟨hreg.tasks, hreg.handlings, ?_⟩
    intro b
    rw [hreg.seq]
    apply update_seq
    exact (onReply_fields _ w).2.2
  | send => cases hq
  | sendSynchronous => cases hq
  | call => cases hq
  | handle => cases hq
  | reply => cases hq

theorem sendSynchronous_unmoved [Vm] {a : Nat} {result : Option DirectByteBuffer}
    {fresh : Wrapper.SynchronousResultWrapper} (hm : Moves s (.sendSynchronous a result fresh) t) :
    Unmoved s t := by
  cases hm with
  | sendSynchronous => exact registerFinalizer_unmoved s _
  | touched reads => cases reads
  | construct reads => cases reads
  | schedule is => cases is

/-- A step of one request: the others stay as they are, and nothing is dispatched. -/
structure Handles (s t : Process) (k : Nat) (h : Handling)
    (request : ConcurrentMessenger.Request DirectByteBuffer) : Prop where
  tasks : tasks t.pool = tasks s.pool
  handlings : t.handlings = s.handlings.set k { h with request }
  seq : ∀ a, (t.isolates a).seq = (s.isolates a).seq
  message : request.message = h.request.message
  calls : request.calls = [] → h.request.calls = []

theorem post_seq (s : Process) (w : Tagged Wrapper.MessageWrapper) (a : Nat) :
    ((s.post w).isolates a).seq = (s.isolates a).seq := by
  cases hp : s.replyPort with
  | none => rw [post_nowhere w hp]
  | some b =>
    rw [post_isolates w hp]
    apply update_seq
    rfl

theorem handle_handles [Vm] {k : Nat} {e : ConcurrentMessenger.Event DirectByteBuffer}
    {fresh : Wrapper.MessageWrapper} {h : Handling} (hm : Moves s (.handle k e fresh) t)
    (hk : s.handlings[k]? = some h) :
    ∃ request, Handles s t k h request ∧
      (e.isNative = true → request.calls ≠ []) := by
  cases hm with
  | @handle _ _ _ h' request hk' moves quiet calls =>
    rw [hk] at hk'
    cases hk'
    refine ⟨request, ⟨rfl, rfl, fun _ => rfl, (ConcurrentMessenger.step_calls moves).2.1, ?_⟩, ?_⟩
    · intro hc
      rw [← calls, hc]
    · intro hn
      rw [hn] at quiet
      cases quiet
  | @reply _ _ _ h' request r hk' moves native calls =>
    rw [hk] at hk'
    cases hk'
    have hne : request.calls ≠ [] := by
      rw [calls]
      exact List.append_ne_nil_of_right_ne_nil _ (List.cons_ne_nil _ _)
    refine ⟨request, ⟨?_, ?_, ?_, (ConcurrentMessenger.step_calls moves).2.1,
      fun hc => absurd hc hne⟩, fun _ => hne⟩
    · rw [post_pool]
      rfl
    · rw [post_handlings]
      rfl
    · intro a
      rw [post_seq]
      rfl
  | touched reads => cases reads
  | construct reads => cases reads
  | schedule is => cases is

end Channel

end NativeChannel.PayloadPlaces
