import NativeChannel.Proofs.ProcessInvariants
import NativeChannel.Proofs.SingleReply
import NativeChannel.Proofs.WorkerPops

namespace NativeChannel.Components
open Runs ConcurrentChannel ProcessInvariants
open ConcurrentMessenger (Request Handler)
open Wrapper (DirectByteBuffer Vm)

/-- The request has come as far as it is by steps of its own. -/
def HasRun (r : Request DirectByteBuffer) : Prop :=
  ∃ (seq : Int) (message : Option Nat) (handler : Handler)
    (es : List (ConcurrentMessenger.Event DirectByteBuffer)),
    run ConcurrentMessenger.step
      (ConcurrentMessenger.handleMessageFromDart seq message handler) es = some r

theorem HasRun.step {r r' : Request DirectByteBuffer}
    {e : ConcurrentMessenger.Event DirectByteBuffer} (hr : HasRun r)
    (h : ConcurrentMessenger.step r e = some r') : HasRun r' := by
  obtain ⟨seq, message, handler, es, hes⟩ := hr
  exact ⟨seq, message, handler, es ++ [e], run_concat.mpr ⟨r, hes, h⟩⟩

section Vm
variable [Vm]

/-- A step of the process moves the pool by one of the pool's steps, if at all. -/
theorem step_pool {s t : Process} {e : Event} (h : step s e = some t) :
    t.pool = s.pool ∨ ∃ f, WorkerPool.step s.pool f = some t.pool := by
  obtain ⟨_, hm⟩ := step_moves h
  cases hm with
  | construct _ _ start => exact Or.inr ⟨_, start⟩
  | send _ push => exact Or.inr ⟨_, push⟩
  | schedule _ moves => exact Or.inr ⟨_, moves⟩
  | call _ moves => exact Or.inr ⟨_, moves⟩
  | sendSynchronous => exact Or.inl (registerFinalizer_pool s _)
  | reply => exact Or.inl (post_pool _ _)
  | onReply => exact Or.inl (registerFinalizer_pool _ _)
  | _ => exact Or.inl rfl

theorem step_handlings {s t : Process} {e : Event} (hs : ∀ h ∈ s.handlings, HasRun h.request)
    (h : step s e = some t) : ∀ h ∈ t.handlings, HasRun h.request := by
  obtain ⟨_, hm⟩ := step_moves h
  cases hm with
  | sendSynchronous =>
    rw [registerFinalizer_handlings]
    exact hs
  | @call i handler task =>
    intro h hm
    rcases List.mem_append.mp hm with hm | hm
    · exact hs h hm
    · rw [List.mem_singleton.mp hm]
      exact ⟨task.val.message.seq, some task.val.message.data, handler, [], rfl⟩
  | handle hk hr =>
    exact handling_changed hs ((hs _ (List.mem_of_getElem? hk)).step hr)
  | reply hk hr =>
    rw [post_handlings, freeMessage_handlings]
    exact handling_changed hs ((hs _ (List.mem_of_getElem? hk)).step hr)
  | onReply =>
    rw [registerFinalizer_handlings]
    exact hs
  | _ => exact hs

/-- What is proved of all runs of the pool, and of all runs of a request, holds of
the pool and of the requests of every process. -/
theorem components_run {es : List Event} {s : Process}
    (hr : run step Process.initial es = some s) :
    (∃ fs, run WorkerPool.step (WorkerPool.initial 0) fs = some s.pool) ∧
      ∀ h ∈ s.handlings, HasRun h.request := by
  refine ⟨run_component Process.pool (fun _ _ _ h => step_pool h) hr, ?_⟩
  refine run_invariant (J := fun s => ∀ h ∈ s.handlings, HasRun h.request)
    (fun _ _ _ hs h => step_handlings hs h) ?_ hr
  intro h hm
  cases hm

/-- The pool of a process takes its tasks in order. -/
theorem process_order {es : List Event} {s : Process}
    (hr : run step Process.initial es = some s) : WorkerPops.InOrder s.pool := by
  obtain ⟨⟨fs, hfs⟩, _⟩ := components_run hr
  exact run_invariant (fun _ _ _ hs h => WorkerPops.step_order hs h)
    (WorkerPops.initial_order 0) hfs

/-- Its requests account for every native call that they make. -/
theorem process_accounted {es : List Event} {s : Process}
    (hr : run step Process.initial es = some s) :
    ∀ h ∈ s.handlings, SingleReply.Accounted h.request := by
  intro h hm
  obtain ⟨seq, message, handler, fs, hfs⟩ := (components_run hr).2 h hm
  exact run_invariant (fun _ _ _ hs h => SingleReply.step_accounted hs h)
    (SingleReply.start_accounted seq message handler) hfs

end Vm

end NativeChannel.Components
