import NativeChannel.Library.Counts
import NativeChannel.Source.WorkerPool

namespace NativeChannel.Wakeup
open Runs Counts WorkerPool

variable {τ : Type}

/-- No task waits in the queue while every worker is blocked and no sender is
about to notify one. -/
def NoLostWakeup (s : Pool τ) : Prop :=
  (∀ w ∈ s.threads, w.isBlocked = true) → s.notifying = 0 → s.messageQueue = []

/-- Neither blocked nor between a failed test and blocking: such a worker tests
the queue again before it can block. -/
def Worker.isAwake (w : Worker τ) : Bool := !w.isBlocked && !w.isFailed

def someAwake (s : Pool τ) : Bool := s.threads.any Worker.isAwake

/-- A task in the queue has a worker that will test again, or a sender whose
`notify_one` is still to come. -/
def Attended (s : Pool τ) : Prop :=
  someAwake s = true ∨ s.notifying ≠ 0 ∨ s.messageQueue = []

/-- Only one worker at a time is between a failed test and blocking, since it
keeps `cv_mtx_` from the one to the other. -/
def MutexHeldOnce (s : Pool τ) : Prop := s.threads.countP Worker.isFailed ≤ 1

/-- A `notify_one` that wakes nobody is not the last one due for a queued task
while every worker stands between its failed test and blocking. -/
def NotifyHeard (s : Pool τ) : Event τ → Prop
  | .notifyOne none =>
    someAwake s = true ∨ s.notifying ≠ 1 ∨ s.messageQueue = []
  | _ => True

instance [DecidableEq τ] (s : Pool τ) (e : Event τ) : Decidable (NotifyHeard s e) := by
  cases e with
  | notifyOne woken => cases woken <;> unfold NotifyHeard <;> infer_instance
  | _ => exact isTrue trivial

def IsBlock : Event τ → Prop
  | .block _ => True
  | _ => False

theorem awake_set {s : Pool τ} {i : Nat} {w v : Worker τ} (hi : s.threads[i]? = some w)
    (hv : Worker.isAwake v = true) : someAwake (s.setThread i v) = true :=
  List.any_eq_true.mpr ⟨v, mem_set_at hi, hv⟩

/-- Blocking changes nothing about who will test again. -/
theorem awake_block {s : Pool τ} {i : Nat} (hi : s.threads[i]? = some .failed) :
    someAwake (s.setThread i .blocked) = someAwake s := by
  have hc := countP_set_add Worker.isAwake .blocked hi
  have hn : (s.threads.set i .blocked).countP Worker.isAwake = s.threads.countP Worker.isAwake := by
    simpa [Worker.isAwake, Worker.isBlocked, Worker.isFailed] using hc
  have hiff : ∀ l : List (Worker τ), l.any Worker.isAwake = true ↔ 0 < l.countP Worker.isAwake := by
    intro l
    rw [List.countP_pos_iff, List.any_eq_true]
  apply Bool.eq_iff_iff.mpr
  unfold someAwake
  rw [hiff, hiff]
  exact hn ▸ Iff.rfl

theorem awake_of_member {s : Pool τ} {i : Nat} {w : Worker τ} (hi : s.threads[i]? = some w)
    (hw : Worker.isAwake w = true) : someAwake s = true :=
  List.any_eq_true.mpr ⟨w, mem_of_at hi, hw⟩

/-- From an attended state a step leaves a task unattended exactly when it is a
`notify_one` that nobody hears. -/
theorem step_attended {s t : Pool τ} {e : Event τ} (hs : Attended s) (h : step s e = some t) :
    Attended t ↔ NotifyHeard s e := by
  obtain ⟨_, hm⟩ := step_moves h
  cases hm with
  | start n =>
    refine iff_of_true ?_ trivial
    rcases hs with ha | hrest
    · left
      simp only [someAwake, List.any_append, Bool.or_eq_true]
      exact Or.inl ha
    · exact Or.inr hrest
  | push task =>
    refine iff_of_true (Or.inr (Or.inl ?_)) trivial
    change s.notifying + 1 ≠ 0
    omega
  | notifyNobody hn hb =>
    change (someAwake s = true ∨ s.notifying - 1 ≠ 0 ∨ s.messageQueue = []) ↔
      (someAwake s = true ∨ s.notifying ≠ 1 ∨ s.messageQueue = [])
    have hone : s.notifying - 1 ≠ 0 ↔ s.notifying ≠ 1 := by omega
    rw [hone]
  | notify _ hi => exact iff_of_true (Or.inl (awake_set hi rfl)) trivial
  | fails _ _ he => exact iff_of_true (Or.inr (Or.inr he)) trivial
  | passes hi => exact iff_of_true (Or.inl (awake_set hi rfl)) trivial
  | block hi =>
    refine iff_of_true ?_ trivial
    rcases hs with ha | hrest
    · exact Or.inl ((awake_block hi).trans ha)
    · exact Or.inr hrest
  | wake hi => exact iff_of_true (Or.inl (awake_set hi rfl)) trivial
  | popEmpty hi => exact iff_of_true (Or.inl (awake_of_member hi rfl)) trivial
  | pop hi => exact iff_of_true (Or.inl (awake_set hi rfl)) trivial
  | call hi => exact iff_of_true (Or.inl (awake_set hi rfl)) trivial
  | finish hi => exact iff_of_true (Or.inl (awake_set hi rfl)) trivial

theorem failed_same {s : Pool τ} {i : Nat} {w v : Worker τ} (hi : s.threads[i]? = some w)
    (hv : v.isFailed = false) :
    (s.threads.set i v).countP Worker.isFailed ≤ s.threads.countP Worker.isFailed := by
  have hc := countP_set_add Worker.isFailed v hi
  simp only [hv, Bool.false_eq_true, ↓reduceIte, Nat.add_zero] at hc
  omega

theorem step_mutex {s t : Pool τ} {e : Event τ} (hs : MutexHeldOnce s) (h : step s e = some t) :
    MutexHeldOnce t := by
  obtain ⟨_, hm⟩ := step_moves h
  unfold MutexHeldOnce at hs ⊢
  cases hm with
  | start n =>
    simpa [List.countP_append, List.countP_replicate, Worker.isFailed] using hs
  | @fails i hi hf _ =>
    have hz : s.threads.countP Worker.isFailed = 0 :=
      List.countP_eq_zero.mpr fun w hw => by simp [hf w hw]
    have hc := countP_set_add Worker.isFailed .failed hi
    simp only [Worker.isFailed, Bool.false_eq_true, ↓reduceIte, Nat.add_zero] at hc
    change (s.threads.set i .failed).countP Worker.isFailed ≤ 1
    omega
  | push task => exact hs
  | notifyNobody => exact hs
  | popEmpty => exact hs
  | notify _ hi => exact Nat.le_trans (failed_same hi rfl) hs
  | passes hi => exact Nat.le_trans (failed_same hi rfl) hs
  | block hi => exact Nat.le_trans (failed_same hi rfl) hs
  | wake hi => exact Nat.le_trans (failed_same hi rfl) hs
  | pop hi => exact Nat.le_trans (failed_same hi rfl) hs
  | call hi => exact Nat.le_trans (failed_same hi rfl) hs
  | finish hi => exact Nat.le_trans (failed_same hi rfl) hs

/-- A worker that popped an empty queue is not blocked. -/
def UndefinedAwake (s : Pool τ) : Prop := s.poppedEmpty = true → someAwake s = true

theorem step_undefined {s t : Pool τ} {e : Event τ} (h : step s e = some t) :
    UndefinedAwake t := by
  obtain ⟨hd, hm⟩ := step_moves h
  intro ht
  cases hm with
  | popEmpty hi => exact awake_of_member hi rfl
  | push task => exact absurd (hd.symm.trans ht) (by simp)
  | _ => exact absurd (hd.symm.trans ht) (by simp)

theorem attended_exact : Exact (@step τ)
    (fun s => MutexHeldOnce s ∧ UndefinedAwake s) Attended NotifyHeard where
  keeps _ _ _ hs h := ⟨step_mutex hs.1 h, step_undefined h⟩
  meets _ _ _ _ hs h := step_attended hs h

theorem Attended.no_lost_wakeup {s : Pool τ} (hs : Attended s) : NoLostWakeup s := by
  intro hb hn
  rcases hs with ha | hp | he
  · obtain ⟨w, hw, hwa⟩ := List.any_eq_true.mp ha
    simp [Worker.isAwake, hb w hw] at hwa
  · exact absurd hn hp
  · exact he

/-- Letting the one worker between its failed test and blocking block shows the
loss: now everyone is blocked, and the task stays. -/
theorem unattended_blocks {s : Pool τ} (hm : MutexHeldOnce s) (hu : UndefinedAwake s)
    (hs : ¬ Attended s) :
    ∃ xs, (∀ x ∈ xs, IsBlock x) ∧ ∃ t, run step s xs = some t ∧ ¬ NoLostWakeup t := by
  simp only [Attended, not_or, Bool.not_eq_true, not_not] at hs
  obtain ⟨ha, hn, hq⟩ := hs
  have hd : s.poppedEmpty = false := by
    cases hp : s.poppedEmpty with
    | false => rfl
    | true => rw [hu hp] at ha; cases ha
  have hasleep : ∀ w ∈ s.threads, w.isBlocked = true ∨ w.isFailed = true := by
    intro w hw
    have hwa := List.any_eq_false.mp ha w hw
    cases w <;> simp [Worker.isAwake, Worker.isBlocked, Worker.isFailed] at hwa ⊢
  by_cases hf : ∃ w ∈ s.threads, w.isFailed = true
  · obtain ⟨w, hw, hwf⟩ := hf
    obtain ⟨i, hi⟩ := List.mem_iff_getElem?.mp hw
    cases w <;> simp only [Worker.isFailed, Bool.false_eq_true] at hwf
    have hc := countP_set_add Worker.isFailed .blocked hi
    simp only [Worker.isFailed, ↓reduceIte, Bool.false_eq_true, Nat.add_zero] at hc
    unfold MutexHeldOnce at hm
    refine ⟨[.block i], by simp [IsBlock], s.setThread i .blocked, by simp [step, hd, hi], ?_⟩
    intro hl
    apply hq
    refine hl ?_ hn
    intro v hv
    have hz : (s.threads.set i .blocked).countP Worker.isFailed = 0 := by omega
    have hvf := List.countP_eq_zero.mp hz v hv
    rcases List.mem_or_eq_of_mem_set hv with hvm | rfl
    · exact (hasleep v hvm).resolve_right hvf
    · rfl
  · refine ⟨[], by simp, s, rfl, fun hl => hq (hl ?_ hn)⟩
    intro w hw
    exact (hasleep w hw).resolve_right fun hwf => hf ⟨w, hw, hwf⟩

theorem initial_mutex (n : Nat) : MutexHeldOnce (initial n : Pool τ) := by
  simp [MutexHeldOnce, initial, List.countP_replicate, Worker.isFailed]

theorem initial_defined (n : Nat) : UndefinedAwake (initial n : Pool τ) := by
  intro h
  cases h

theorem initial_attended (n : Nat) : Attended (initial n : Pool τ) := Or.inr (Or.inr rfl)

/-- A run, and the blocking it leaves open, never loses a wake-up exactly when
each of its `notify_one` calls is heard. -/
theorem no_lost_wakeup_iff (n : Nat) (es : List (Event τ))
    (hr : (run step (initial n) es).isSome) :
    Through step IsBlock NoLostWakeup (initial n) es ↔
      AllSteps step NotifyHeard (initial n) es := by
  obtain ⟨t, ht⟩ := Option.isSome_iff_exists.mp hr
  apply attended_exact.through_iff ?_ ?_ ?_ ⟨initial_mutex n, initial_defined n⟩
    (initial_attended n) ht
  · intro s e he
    cases e <;> trivial
  · intro s _ hs
    exact hs.no_lost_wakeup
  · intro s hj hs
    exact unattended_blocks hj.1 hj.2 hs

theorem no_lost_wakeup_two_workers :
    Through step IsBlock NoLostWakeup (initial 2)
      [.test 0, .push 7, .notifyOne none, .block 0, .test 1, .frontPop 1, .call 1] :=
  (no_lost_wakeup_iff 2 _ (by decide)).mpr (by decide)

/-- The only worker fails its test, the sender pushes and notifies nobody, and
the worker then blocks with the task in the queue. -/
theorem one_worker_sleeps_on_task :
    ∃ s, run step (initial 1) [.test 0, .push 7, .notifyOne none, .block 0] = some s ∧
      ¬ NoLostWakeup s := by
  refine ⟨_, rfl, fun h => ?_⟩
  have he := h (by decide) rfl
  cases he

theorem step_threads {s t : Pool τ} {e : Event τ} (h : step s e = some t) :
    s.threads.length ≤ t.threads.length := by
  obtain ⟨_, hm⟩ := step_moves h
  cases hm with
  | start n => simp
  | push task => exact Nat.le_refl _
  | notifyNobody => exact Nat.le_refl _
  | popEmpty => exact Nat.le_refl _
  | _ => simp [Pool.setThread]

/-- Of two workers at most one stands between its failed test and blocking. If
nobody is blocked the other one is awake. -/
theorem two_workers_hear {s t : Pool τ} {e : Event τ} (hm : MutexHeldOnce s)
    (hl : 2 ≤ s.threads.length) (h : step s e = some t) : NotifyHeard s e := by
  obtain ⟨_, hmv⟩ := step_moves h
  cases hmv with
  | notifyNobody _ hb =>
    left
    by_contra hn
    have hall : ∀ w ∈ s.threads, w.isFailed = true := by
      intro w hw
      have hwa := List.any_eq_false.mp (Bool.not_eq_true _ ▸ hn) w hw
      simpa [Worker.isAwake, hb w hw] using hwa
    have hc : s.threads.countP Worker.isFailed = s.threads.length :=
      List.countP_eq_length.mpr hall
    unfold MutexHeldOnce at hm
    omega
  | _ => trivial

/-- The pools that never lose a wake-up are those of two workers and more. -/
theorem pool_keeps_wakeups_iff (n : Nat) :
    (∀ (es : List (Event Nat)) s, run step (initial n) es = some s → NoLostWakeup s) ↔ 2 ≤ n := by
  constructor
  · intro h
    by_contra hn
    rcases (show n = 0 ∨ n = 1 by omega) with rfl | rfl
    · have hl := h [.push 7, .notifyOne none] _ rfl (by decide) rfl
      cases hl
    · have hl := h [.test 0, .push 7, .notifyOne none, .block 0] _ rfl (by decide) rfl
      cases hl
  · intro hn es s hs
    have hj : MutexHeldOnce (initial n : Pool Nat) ∧ UndefinedAwake (initial n : Pool Nat) :=
      ⟨initial_mutex n, initial_defined n⟩
    have hc : AllSteps step NotifyHeard (initial n : Pool Nat) es := by
      apply allSteps_of_invariant
        (J := fun s : Pool Nat => MutexHeldOnce s ∧ 2 ≤ s.threads.length) ?_ ?_ ?_ hs
      · intro s e t hj h
        exact ⟨step_mutex hj.1 h, Nat.le_trans hj.2 (step_threads h)⟩
      · intro s e t hj h
        exact two_workers_hear hj.1 hj.2 h
      · exact ⟨initial_mutex n, by simpa [initial] using hn⟩
    exact (attended_exact.invariant hj (initial_attended n) hc hs).2.no_lost_wakeup

end NativeChannel.Wakeup
