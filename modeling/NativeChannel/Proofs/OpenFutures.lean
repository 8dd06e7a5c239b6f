import NativeChannel.Proofs.Conservation
import NativeChannel.Proofs.PoolDrains

namespace NativeChannel.OpenFutures
open Runs Counts ConcurrentChannel ProcessInvariants Conservation
open SingleReply (Accounted escaped)
open PoolDrains (Settling)
open Wrapper (Vm)
open WorkerPool (Pool)
open Wakeup (MutexHeldOnce Attended NotifyHeard)
open WorkerPops (InOrder)

/-- What is done for isolate `a` without it or a handler doing anything: senders notify,
workers go on, and replies are delivered. -/
def Delivers (a : Nat) : Event → Prop
  | .notifyOne _ | .test _ | .block _ | .frontPop _ | .call _ _ | .finish _ => True
  | .onReply b => b = a
  | _ => False

/-- What the device says of its cores where `instance` may be made. -/
def cores : Event → Option Nat
  | .newConcurrentMethodChannel _ _ hw | .instance_ _ hw => some hw
  | _ => none

/-- Devices of four cores and more, where the library starts more than one worker. -/
def FourCores (e : Event) : Prop := ∀ hw ∈ cores e, 4 ≤ hw

instance (e : Event) : Decidable (FourCores e) :=
  inferInstanceAs (Decidable (∀ hw ∈ cores e, 4 ≤ hw))

/-- The futures still open are those of requests that the application was handed and has
not answered. -/
def OnlyUnanswered (a : Nat) (s : Process) : Prop :=
  ∀ q, q ∈ (s.isolates a).resultCompleters ↔
    ∃ h ∈ s.handlings, h.request.seq = q ∧ h.request.calls = [] ∧ escaped h.request = false

/-- Where the process is still defined, and no handler is running on a worker. -/
def Delivered (a : Nat) (s : Process) : Prop :=
  s.undefined = false → (∀ h ∈ s.handlings, h.request.frame = .returned) → OnlyUnanswered a s

/-- Only isolate `a` takes part, on such a device, and its handlers reply, readably for
`onReply`, or throw. -/
def Serves [Vm] (a : Nat) (s : Process) (e : Event) : Prop :=
  Conforms a s e ∧ RepliesReadable s e ∧ FourCores e

instance [Vm] (a : Nat) (s : Process) (e : Event) : Decidable (Serves a s e) :=
  inferInstanceAs (Decidable (_ ∧ _))

/-- What is left to deliver. -/
def weight (a : Nat) (s : Process) : Nat :=
  PoolDrains.weight s.pool + (s.isolates a).replyPort.length

/-- The pool of a process with enough cores. -/
structure Ready (s : Process) : Prop where
  mutex : MutexHeldOnce s.pool
  attended : Attended s.pool
  order : InOrder s.pool
  workers : s.apiDL = true → 2 ≤ s.pool.threads.length
  unsent : s.apiDL = false → s.pool.notifying = 0

section Pool
variable {s : Process} {pool : Pool (Tagged TaskMessageWrapper)}
  {f : WorkerPool.Event (Tagged TaskMessageWrapper)}

theorem Ready.heard (hs : Ready s) (h : WorkerPool.step s.pool f = some pool) :
    NotifyHeard s.pool f := by
  cases ha : s.apiDL with
  | true => exact Wakeup.two_workers_hear hs.mutex (hs.workers ha) h
  | false =>
    obtain ⟨_, hm⟩ := WorkerPool.step_moves h
    cases hm with
    | notifyNobody pending => exact absurd (hs.unsent ha) pending
    | _ => trivial

theorem notifying_quiet (hn : ∀ x, f ≠ .push x) (h : WorkerPool.step s.pool f = some pool) :
    pool.notifying ≤ s.pool.notifying := by
  obtain ⟨_, hm⟩ := WorkerPool.step_moves h
  cases hm with
  | push x => exact absurd rfl (hn x)
  | notifyNobody => exact Nat.sub_le _ _
  | notify => exact Nat.sub_le _ _
  | _ => exact Nat.le_refl _

/-- A step of the pool in a process that stays as far as it is. -/
theorem Ready.ofPool {t : Process} (hs : Ready s) (h : WorkerPool.step s.pool f = some t.pool)
    (ha : t.apiDL = s.apiDL) (hp : s.apiDL = true ∨ ∀ x, f ≠ .push x) : Ready t where
  mutex := Wakeup.step_mutex hs.mutex h
  attended := (Wakeup.step_attended hs.attended h).mpr (hs.heard h)
  order := WorkerPops.step_order hs.order h
  workers hdl := Nat.le_trans (hs.workers (ha ▸ hdl)) (Wakeup.step_threads h)
  unsent hdl := by
    rw [ha] at hdl
    have hn := hp.resolve_left (by simp [hdl])
    have hle := notifying_quiet hn h
    have hzero := hs.unsent hdl
    omega

theorem Ready.congr {t : Process} (hs : Ready s) (hp : t.pool = s.pool) (ha : t.apiDL = s.apiDL) :
    Ready t where
  mutex := hp ▸ hs.mutex
  attended := hp ▸ hs.attended
  order := hp ▸ hs.order
  workers hdl := hp ▸ hs.workers (ha ▸ hdl)
  unsent hdl := hp ▸ hs.unsent (ha ▸ hdl)

/-- The first use of the messenger starts as many workers as it should. -/
theorem touch_threads {t : Process} {a hw : Nat} (first : (s.isolates a).constructed = false)
    (h : s.touchInstance a hw = some t) :
    t.pool.threads.length = s.pool.threads.length + concurrency hw := by
  unfold Process.touchInstance Process.initializeChannel at h
  rw [if_neg (by simp [first])] at h
  simp only [Option.map_map, Option.map_eq_some_iff] at h
  obtain ⟨pool, hp, rfl⟩ := h
  cases (WorkerPool.step_moves hp).2 with
  | start n => simp [Process.setIsolate]

theorem construct_threads [Vm] {t : Process} {e : Event} {a : Nat} (reads : e.Touches a)
    (first : (s.isolates a).constructed = false) (h : step s e = some t) :
    ∃ hw ∈ cores e, t.pool.threads.length = s.pool.threads.length + concurrency hw := by
  unfold step at h
  split at h
  · cases h
  cases e with
  | newConcurrentMethodChannel b messenger hw =>
    obtain ⟨rfl, rfl⟩ := reads
    exact ⟨hw, rfl, touch_threads first h⟩
  | instance_ b hw =>
    obtain rfl := (show b = a from reads)
    exact ⟨hw, rfl, touch_threads first h⟩
  | _ => cases reads

end Pool

section Steps
variable [Vm]

theorem step_ready {s t : Process} {e : Event} (hs : Ready s) (hl : LazyInit s)
    (hc : FourCores e) (h : step s e = some t) : Ready t := by
  obtain ⟨_, hm⟩ := step_moves h
  cases hm with
  | newSynchronous => exact hs
  | withMessenger => exact hs
  | touched => exact hs
  | @construct a n e pool reads first start =>
    obtain ⟨hw, hcores, hthreads⟩ := construct_threads reads first h
    have hlen : 2 ≤ pool.threads.length := by
      have hfour := hc hw hcores
      have hadd : pool.threads.length = s.pool.threads.length + concurrency hw := hthreads
      unfold concurrency at hadd
      omega
    have hheard : NotifyHeard s.pool (.start n) := trivial
    exact ⟨Wakeup.step_mutex hs.mutex start, (Wakeup.step_attended hs.attended start).mpr hheard,
      WorkerPops.step_order hs.order start, fun _ => hlen, nofun⟩
  | send ready push => exact hs.ofPool push rfl (Or.inl (apiDL_of_constructed hl ready))
  | sendSynchronous =>
    exact hs.congr (registerFinalizer_pool s _) (registerFinalizer_apiDL s _)
  | schedule is moves => exact hs.ofPool moves rfl (Or.inr (scheduling_not_push is (P := fun _ => False)))
  | call held moves => exact hs.ofPool moves rfl (Or.inr nofun)
  | handle => exact hs.congr rfl rfl
  | reply => exact hs.congr (post_pool _ _) (post_apiDL _ _)
  | onReply =>
    exact hs.congr (registerFinalizer_pool _ _) (registerFinalizer_apiDL _ _)

end Steps

theorem initial_ready : Ready Process.initial where
  mutex := Wakeup.initial_mutex 0
  attended := Wakeup.initial_attended 0
  order := WorkerPops.initial_order 0
  workers := nofun
  unsent _ := rfl

theorem delivers_serves [Vm] {a : Nat} {s : Process} {e : Event} (he : Delivers a e) :
    Serves a s e := by
  cases e with
  | onReply b => exact ⟨⟨he, trivial⟩, trivial, nofun⟩
  | notifyOne | test | block | frontPop | call | finish =>
    exact ⟨⟨trivial, trivial⟩, trivial, nofun⟩
  | _ => cases he

theorem delivers_settling {a : Nat} {e : Event}
    {f : WorkerPool.Event (Tagged TaskMessageWrapper)} (he : Delivers a e)
    (is : e.scheduling = some f) : Settling f := by
  cases e <;> cases is <;> trivial

theorem not_touches {a b : Nat} {e : Event} (he : Delivers a e) : ¬ e.Touches b := by
  intro reads
  cases e with
  | newConcurrentMethodChannel => cases he
  | instance_ => cases he
  | _ => cases reads

theorem heldSeqs_blocked {s : Process} (h : ∀ w ∈ s.pool.threads, w.isBlocked = true) :
    heldSeqs s = [] := by
  rw [heldSeqs, List.filterMap_eq_nil_iff]
  intro w hw
  have hb := h w hw
  cases w <;> first | rfl | cases hb

/-- A request without a reply that is not handled any more never left the application. -/
theorem not_escaped {r : ConcurrentMessenger.Request Wrapper.DirectByteBuffer}
    (hr : Accounted r) (hf : r.frame = .returned) (hc : r.calls = []) : escaped r = false := by
  have hcount := hr.count
  rw [hc, SingleReply.owed, hf] at hcount
  cases he : escaped r with
  | false => rfl
  | true =>
    cases hd : r.done with
    | false => simp [he, hd, hr.pending hd, SingleReply.Frame.owesNull] at hcount
    | true => cases hs : r.submitting <;> simp [he, hd, hs, SingleReply.Frame.owesNull] at hcount

section Drains
variable [Vm]

/-- A delivery is a step of a worker or of a sender, or it takes a reply from the port. -/
theorem step_weight {a : Nat} {s t : Process} {e : Event} (he : Delivers a e)
    (h : step s e = some t) : weight a t < weight a s := by
  obtain ⟨_, hm⟩ := step_moves h
  unfold weight
  cases hm with
  | schedule is moves =>
    exact Nat.add_lt_add_right (PoolDrains.step_weight (delivers_settling he is) moves) _
  | call held moves =>
    exact Nat.add_lt_add_right (PoolDrains.step_weight (e := .call _) trivial moves) _
  | @onReply b w rest hp =>
    obtain rfl := (show b = a from he)
    rw [registerFinalizer_pool, registerFinalizer_isolates, hp]
    simp only [Process.setIsolate, Function.update_self, (onReply_fields _ w).2.1,
      List.length_cons]
    omega
  | touched reads => exact absurd reads (not_touches he)
  | construct reads => exact absurd reads (not_touches he)
  | _ => cases he

theorem step_serves {a : Nat} {s t : Process} {e : Event} (hs : Kept a s ∧ Ready s)
    (hc : Serves a s e) (h : step s e = some t) : Kept a t ∧ Ready t :=
  ⟨step_kept hs.1 hc.1 hc.2.1 h, step_ready hs.2 hs.1.lazy hc.2.2 h⟩

theorem settles (a : Nat) :
    Settles step (fun s => Kept a s ∧ Ready s) (Delivers a) (weight a) where
  keeps _ _ _ hs he h := step_serves hs (delivers_serves he) h
  uses _ _ _ _ he h := step_weight he h

section Quiet
variable {a : Nat} {s : Process}

/-- Without a handler on a worker, the pool has nothing left to do either. -/
theorem quiet_pool (hd : s.undefined = false)
    (hf : ∀ h ∈ s.handlings, h.request.frame = .returned) (hq : Quiet step (Delivers a) s) :
    Quiet WorkerPool.step Settling s.pool := by
  have hnone : ∀ {f}, s.poolStep f = none → WorkerPool.step s.pool f = none :=
    fun h => Option.map_eq_none_iff.mp h
  intro f hf'
  cases f with
  | start n => cases hf'
  | push task => cases hf'
  | wake i => cases hf'
  | notifyOne woken => exact hnone (by simpa [step, hd] using hq (.notifyOne woken) trivial)
  | test i => exact hnone (by simpa [step, hd] using hq (.test i) trivial)
  | block i => exact hnone (by simpa [step, hd] using hq (.block i) trivial)
  | frontPop i => exact hnone (by simpa [step, hd] using hq (.frontPop i) trivial)
  | finish i =>
    have hall : (s.handlings.all fun h => h.worker != i || h.request.frame == .returned) = true := by
      rw [List.all_eq_true]
      intro h hm
      simp [hf h hm]
    exact hnone (by simpa [step, hd, hall] using hq (.finish i) trivial)
  | call i =>
    cases hstep : WorkerPool.step s.pool (.call i) with
    | none => rfl
    | some pool =>
      cases (WorkerPool.step_moves hstep).2 with
      | call held =>
        have hcall := hq (.call i .absent) trivial
        simp [step, hd, held, Process.poolStep, hstep] at hcall

theorem quiet_port (hd : s.undefined = false) (hq : Quiet step (Delivers a) s) :
    (s.isolates a).replyPort = [] := by
  cases hp : (s.isolates a).replyPort with
  | nil => rfl
  | cons w rest =>
    have hreply := hq (.onReply a) rfl
    simp [step, hd, hp] at hreply

theorem quiet_delivered (hs : Kept a s ∧ Ready s) (hq : Quiet step (Delivers a) s) :
    Delivered a s := by
  obtain ⟨hk, hr⟩ := hs
  intro hd hf q
  have hpool := quiet_pool hd hf hq
  have hpops : s.pool.poppedEmpty = false := by
    simp only [Process.undefined, Bool.or_eq_false_iff] at hd
    exact hd.1.2
  have hblocked := PoolDrains.quiet_blocked hpops hpool
  have hempty := hr.attended.no_lost_wakeup hblocked (PoolDrains.quiet_notified hpops hpool)
  rw [hk.conserved.keys]
  simp only [pending, queuedSeqs, hempty, List.map_nil, heldSeqs_blocked hblocked, postedSeqs,
    quiet_port hd hq, List.nil_append, List.append_nil, unsubmittedSeqs, List.mem_filterMap]
  constructor
  · rintro ⟨h, hm, hh⟩
    split at hh
    · rename_i hc
      have hc := List.isEmpty_iff.mp hc
      exact ⟨h, hm, Option.some.inj hh, hc, not_escaped (hk.disciplined h hm).1 (hf h hm) hc⟩
    · cases hh
  · rintro ⟨h, hm, rfl, hc, _⟩
    exact ⟨h, hm, by simp [hc]⟩

end Quiet

/-- In a run of one isolate on a device with enough cores, whose handlers reply or throw:
however senders, workers and the port go on, they come to an end, and then every future
still open is that of a request which the application keeps the answer of. -/
theorem futures_drain (a : Nat) (es : List Event)
    (hc : AllSteps step (Serves a) Process.initial es) {s : Process}
    (hr : run step Process.initial es = some s) :
    Drains step (Delivers a) (Delivered a) (weight a s) s :=
  (settles a).drains (fun _ hs hq => quiet_delivered hs hq)
    (run_invariant_when (J := fun s => Kept a s ∧ Ready s)
      (fun _ _ _ hs hc h => step_serves hs hc h) ⟨initial_kept a, initial_ready⟩ hc hr)

end Drains

attribute [local instance] Vm.lp64

/-- A request to no handler and one that its handler keeps. -/
theorem futures_drain_two_sends :
    Drains step (Delivers 0) (Delivered 0) 17 ((run step Process.initial [.instance_ 0 4,
      .send 0 9 none 0, .send 0 9 none 0, .notifyOne none, .test 0, .frontPop 0, .call 0 .absent,
      .handle 0 .replyNull ⟨0, 0, 0⟩]).get (by decide)) :=
  futures_drain 0 [.instance_ 0 4, .send 0 9 none 0, .send 0 9 none 0, .notifyOne none, .test 0,
    .frontPop 0, .call 0 .absent, .handle 0 .replyNull ⟨0, 0, 0⟩] (by decide)
    (Option.some_get _).symm

end NativeChannel.OpenFutures
