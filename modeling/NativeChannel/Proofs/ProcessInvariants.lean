import NativeChannel.Library.Counts
import NativeChannel.Source.ConcurrentChannel

namespace NativeChannel.ProcessInvariants
open Runs ConcurrentChannel Wrapper

/-- Wrappers on a port carry the seq of their request. -/
def PortTraced (iso : Isolate) : Prop := ∀ w ∈ iso.replyPort, w.val.seq = w.tag.seq

/-- Every message in the process carries the seq of the `send` it stems from. -/
structure Traced (s : Process) : Prop where
  tasks : s.pool.Tasks fun t => t.val.message.seq = t.tag.seq
  handled : ∀ h ∈ s.handlings, h.request.seq = h.tag.seq
  posted : ∀ a, PortTraced (s.isolates a)

/-- Until the first `InitializeChannel` there is no instance, hence no message
and no reply anywhere. -/
structure LazyInit (s : Process) : Prop where
  port : s.replyPort.isSome = s.apiDL
  instances : s.apiDL = false → ∀ a, (s.isolates a).constructed = false
  tasks : s.apiDL = false → s.pool.Tasks fun _ => False
  handlings : s.apiDL = false → s.handlings = []
  ports : s.apiDL = false → ∀ a, (s.isolates a).replyPort = []

/-- A reply is submitted to native code while the message of its request is null, or has
not been freed. -/
def FreesOnce (s : Process) : Event → Prop
  | .handle k e _ => ∀ h ∈ s.handlings[k]?, e.isNative = true → h.freesAgain = false
  | _ => True

instance (s : Process) : (e : Event) → Decidable (FreesOnce s e)
  | .handle k e _ => (inferInstance : Decidable (∀ h ∈ s.handlings[k]?,
      e.isNative = true → h.freesAgain = false))
  | .newSynchronousMethodChannel _ | .newConcurrentMethodChannel _ _ _ | .instance_ _ _
  | .send _ _ _ _ | .sendSynchronous _ _ _ | .onReply _ | .notifyOne _ | .test _ | .block _
  | .wake _ | .frontPop _ | .call _ _ | .finish _ => isTrue trivial

/-- A request that had no reply has not freed its message. -/
theorem freesAgain_first {h : Handling} (hc : h.request.calls = []) : h.freesAgain = false := by
  simp [Handling.freesAgain, hc]

/-- A property of isolates that the one changed isolate has too. -/
theorem forall_update {P : Nat → Isolate → Prop} {f : Nat → Isolate} {a : Nat} {iso : Isolate}
    (hf : ∀ b, P b (f b)) (ha : P a iso) : ∀ b, P b (Function.update f a iso b) := by
  intro b
  by_cases h : b = a
  · subst b
    rw [Function.update_self]
    exact ha
  · rw [Function.update_of_ne h]
    exact hf b

theorem forall_post {P : Nat → Isolate → Prop} {s : Process} {w : Tagged MessageWrapper}
    (hs : ∀ b, P b (s.isolates b))
    (hw : ∀ b, s.replyPort = some b → P b (Isolate.deliver (s.isolates b) w)) :
    ∀ b, P b ((s.post w).isolates b) := by
  cases hp : s.replyPort with
  | none =>
    rw [post_nowhere w hp]
    exact hs
  | some a =>
    rw [post_isolates w hp]
    exact forall_update hs (hw a hp)

theorem handling_changed {s : Process} {k : Nat} {h : Handling} {P : Handling → Prop}
    {request : ConcurrentMessenger.Request DirectByteBuffer} (hs : ∀ h ∈ s.handlings, P h)
    (hn : P { h with request }) : ∀ h' ∈ (s.setHandling k { h with request }).handlings, P h' :=
  Counts.forall_mem_set hs hn

theorem start_not_push {τ : Type} {n : Nat} {P : τ → Prop} :
    ∀ x, WorkerPool.Event.start n = .push x → P x := nofun

theorem call_not_push {τ : Type} {i : Nat} {P : τ → Prop} :
    ∀ x, WorkerPool.Event.call i = .push x → P x := nofun

theorem scheduling_not_push {e : Event} {f : WorkerPool.Event (Tagged TaskMessageWrapper)}
    (he : e.scheduling = some f) {P : Tagged TaskMessageWrapper → Prop} :
    ∀ x, f = .push x → P x := by
  rintro x rfl
  cases e <;> cases he

section Steps
variable [Vm]

theorem step_traced {s t : Process} {e : Event} (hs : Traced s) (h : step s e = some t) :
    Traced t := by
  obtain ⟨_, hm⟩ := step_moves h
  cases hm with
  | newSynchronous => exact hs
  | withMessenger => exact hs
  | touched => exact hs
  | @construct a _ _ _ _ _ hp =>
    exact ⟨WorkerPool.step_tasks hs.tasks start_not_push hp, hs.handled,
      forall_update (P := fun _ iso => PortTraced iso) hs.posted (hs.posted a)⟩
  | @send a channel message allocated pool _ hp =>
    refine ⟨WorkerPool.step_tasks hs.tasks ?_ hp, hs.handled,
      forall_update (P := fun _ iso => PortTraced iso) hs.posted (hs.posted a)⟩
    intro x hx
    cases hx
    exact sendTask_seq channel _ message allocated
  | sendSynchronous =>
    exact ⟨by simpa using hs.tasks, by simpa using hs.handled, by simpa using hs.posted⟩
  | schedule he hp =>
    exact ⟨WorkerPool.step_tasks hs.tasks (scheduling_not_push he) hp, hs.handled, hs.posted⟩
  | call ht hp =>
    refine ⟨WorkerPool.step_tasks hs.tasks call_not_push hp, ?_, hs.posted⟩
    intro h hm
    rcases List.mem_append.mp hm with hm | hm
    · exact hs.handled h hm
    · rw [List.mem_singleton.mp hm]
      exact hs.tasks.held _ (List.mem_of_getElem? ht)
  | handle hk hr _ _ =>
    refine ⟨hs.tasks, ?_, hs.posted⟩
    apply handling_changed hs.handled
    exact (ConcurrentMessenger.step_calls hr).1.trans (hs.handled _ (List.mem_of_getElem? hk))
  | @reply k e fresh hd request r hk hr _ _ =>
    have hseq := hs.handled hd (List.mem_of_getElem? hk)
    refine ⟨by simpa using hs.tasks, ?_, ?_⟩
    · rw [post_handlings, freeMessage_handlings]
      apply handling_changed hs.handled
      exact (ConcurrentMessenger.step_calls hr).1.trans hseq
    · refine forall_post (P := fun _ iso => PortTraced iso) hs.posted ?_
      intro b _ w hw
      rcases List.mem_append.mp hw with hw | hw
      · exact hs.posted b w hw
      · rw [List.mem_singleton.mp hw]
        cases r <;> exact hseq
  | @onReply a w rest hp =>
    refine ⟨by simpa using hs.tasks, by simpa using hs.handled, ?_⟩
    rw [registerFinalizer_isolates]
    apply forall_update (P := fun _ iso => PortTraced iso) hs.posted
    unfold PortTraced
    rw [(onReply_fields _ w).2.1]
    intro x hx
    exact hs.posted a x (by rw [hp]; exact List.mem_cons_of_mem _ hx)

end Steps

theorem apiDL_of_constructed {s : Process} (hs : LazyInit s) {a : Nat}
    (hc : (s.isolates a).constructed = true) : s.apiDL = true := by
  by_contra hn
  have hf := hs.instances (by simpa using hn) a
  rw [hf] at hc
  cases hc

theorem apiDL_of_handling {s : Process} (hs : LazyInit s) {k : Nat} {hd : Handling}
    (hk : s.handlings[k]? = some hd) : s.apiDL = true := by
  by_contra hn
  rw [hs.handlings (by simpa using hn)] at hk
  simp at hk

theorem apiDL_of_posted {s : Process} (hs : LazyInit s) {a : Nat} {w : Tagged MessageWrapper}
    {rest : List (Tagged MessageWrapper)} (hp : (s.isolates a).replyPort = w :: rest) :
    s.apiDL = true := by
  by_contra hn
  rw [hs.ports (by simpa using hn) a] at hp
  cases hp

/-- With the API initialised, only the port's presence is left to keep. -/
theorem LazyInit.of_apiDL {s : Process} (ha : s.apiDL = true) (hp : s.replyPort.isSome = true) :
    LazyInit s where
  port := hp.trans ha.symm
  instances hf := by rw [ha] at hf; cases hf
  tasks hf := by rw [ha] at hf; cases hf
  handlings hf := by rw [ha] at hf; cases hf
  ports hf := by rw [ha] at hf; cases hf

theorem step_lazyInit [Vm] {s t : Process} {e : Event} (hs : LazyInit s) (h : step s e = some t) :
    LazyInit t := by
  obtain ⟨_, hm⟩ := step_moves h
  have hport : s.apiDL = true → s.replyPort.isSome = true := fun ha => hs.port.trans ha
  cases hm with
  | newSynchronous => exact hs
  | withMessenger => exact hs
  | touched => exact hs
  | construct => exact .of_apiDL rfl rfl
  | send hc =>
    have ha := apiDL_of_constructed hs hc
    exact .of_apiDL ha (hport ha)
  | sendSynchronous =>
    exact ⟨by simpa using hs.port, by simpa using hs.instances, by simpa using hs.tasks,
      by simpa using hs.handlings, by simpa using hs.ports⟩
  | schedule he hp =>
    exact ⟨hs.port, hs.instances,
      fun hf => WorkerPool.step_tasks (hs.tasks hf) (scheduling_not_push he) hp,
      hs.handlings, hs.ports⟩
  | call ht hp =>
    have ha : s.apiDL = true := by
      by_contra hn
      exact (hs.tasks (by simpa using hn)).held _ (List.mem_of_getElem? ht)
    exact .of_apiDL ha (hport ha)
  | handle hk =>
    have ha := apiDL_of_handling hs hk
    exact .of_apiDL ha (hport ha)
  | reply hk =>
    have ha := apiDL_of_handling hs hk
    exact .of_apiDL (by simpa using ha) (by simpa using hport ha)
  | onReply hp =>
    have ha := apiDL_of_posted hs hp
    exact .of_apiDL (by simpa using ha)
      (by simpa using hport ha)

theorem initial_traced : Traced Process.initial where
  tasks := WorkerPool.initial_tasks 0
  handled := by
    intro h hm
    cases hm
  posted a := by
    intro w hw
    cases hw

theorem initial_lazyInit : LazyInit Process.initial :=
  ⟨rfl, fun _ _ => rfl, fun _ => WorkerPool.initial_tasks 0, fun _ => rfl, fun _ _ => rfl⟩

end NativeChannel.ProcessInvariants
