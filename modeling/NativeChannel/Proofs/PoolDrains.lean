import NativeChannel.Library.Quiescence
import NativeChannel.Proofs.Wakeup
import NativeChannel.Proofs.WorkerPops

namespace NativeChannel.PoolDrains
open Runs Counts WorkerPool Wakeup WorkerPops

variable {τ : Type}

/-- What senders that have pushed and workers still do by themselves. Nothing new is
sent, no worker is added, and no wait returns without having been notified. -/
def Settling : Event τ → Prop
  | .start _ => False
  | .push _ => False
  | .wake _ => False
  | _ => True

/-- How many steps a worker can take before it needs a task or a notification. A worker
that takes a task may use that task's share as well. -/
def Worker.weight : Worker τ → Nat
  | .blocked => 0
  | .failed => 1
  | .passed => 2
  | .testing => 3
  | .calling => 4
  | .holding _ => 5

/-- What is left to do. A worker notified starts over, and so does one with a task. -/
def weight (s : Pool τ) : Nat :=
  4 * s.messageQueue.length + 4 * s.notifying + (s.threads.map Worker.weight).sum +
    (!s.poppedEmpty).toNat

/-- Either popping an empty queue made the rest undefined, or every task that was sent was
handed to Java and all workers wait for more. -/
def AtRest (s : Pool τ) : Prop :=
  s.poppedEmpty = true ∨
    s.messageQueue = [] ∧ s.dequeued = s.pushed ∧ s.notifying = 0 ∧
      ∀ w ∈ s.threads, w.isBlocked = true

section Weight
variable {s t : Pool τ}

theorem weight_setThread {i : Nat} {w : Worker τ} (v : Worker τ) (hi : s.threads[i]? = some w) :
    weight (s.setThread i v) + Worker.weight w = weight s + Worker.weight v := by
  have hsum := sum_set_add Worker.weight v hi
  simp only [weight, Pool.setThread]
  omega

theorem step_weight {e : Event τ} (he : Settling e) (h : step s e = some t) :
    weight t < weight s := by
  obtain ⟨hd, hm⟩ := step_moves h
  cases hm with
  | start n => cases he
  | push task => cases he
  | wake => cases he
  | notifyNobody hn =>
    simp only [weight]
    omega
  | @notify i hn hi =>
    have hset := weight_setThread .testing hi
    simp only [weight, Pool.setThread, Worker.weight] at hset ⊢
    omega
  | @popEmpty i hi hq =>
    simp only [weight, hd, Bool.not_true, Bool.not_false, Bool.toNat_false, Bool.toNat_true]
    omega
  | @pop i task rest hi hq =>
    have hset := weight_setThread (.holding task) hi
    simp only [weight, Pool.setThread, Worker.weight, hq, List.length_cons] at hset ⊢
    omega
  | fails hi =>
    have hset := weight_setThread .failed hi
    simp only [Worker.weight] at hset
    omega
  | passes hi =>
    have hset := weight_setThread .passed hi
    simp only [Worker.weight] at hset
    omega
  | block hi =>
    have hset := weight_setThread .blocked hi
    simp only [Worker.weight] at hset
    omega
  | call hi =>
    have hset := weight_setThread .calling hi
    simp only [Worker.weight] at hset
    omega
  | finish hi =>
    have hset := weight_setThread .testing hi
    simp only [Worker.weight] at hset
    omega

end Weight

section Quiet
variable {s : Pool τ}

/-- A worker that is not blocked can take a step, or wait for the one that has `cv_mtx_`. -/
theorem quiet_blocked (hd : s.poppedEmpty = false) (hq : Quiet step Settling s) :
    ∀ w ∈ s.threads, w.isBlocked = true := by
  have hfailed : ∀ w ∈ s.threads, w.isFailed = false := by
    intro w hw
    obtain ⟨i, hi⟩ := List.mem_iff_getElem?.mp hw
    cases w with
    | failed =>
      have hstep := hq (.block i) trivial
      simp [step, hd, hi] at hstep
    | _ => rfl
  have hfree : s.cvMtxFree = true := by
    simpa [Pool.cvMtxFree] using hfailed
  intro w hw
  obtain ⟨i, hi⟩ := List.mem_iff_getElem?.mp hw
  cases w with
  | blocked => rfl
  | testing =>
    have hstep := hq (.test i) trivial
    simp [step, hd, hi, hfree] at hstep
  | failed =>
    have hstep := hq (.block i) trivial
    simp [step, hd, hi] at hstep
  | passed =>
    have hstep := hq (.frontPop i) trivial
    simp [step, hd, hi] at hstep
  | holding task =>
    have hstep := hq (.call i) trivial
    simp [step, hd, hi] at hstep
  | calling =>
    have hstep := hq (.finish i) trivial
    simp [step, hd, hi] at hstep

theorem quiet_notified (hd : s.poppedEmpty = false) (hq : Quiet step Settling s) :
    s.notifying = 0 := by
  by_contra hn
  have hall := quiet_blocked hd hq
  cases hthreads : s.threads with
  | nil =>
    have hstep := hq (.notifyOne none) trivial
    simp [step, hd, hn, notifyOne, hthreads] at hstep
  | cons w ws =>
    have hw := hall w (by simp [hthreads])
    have hi : s.threads[0]? = some .blocked := by
      cases w <;> simp_all [Worker.isBlocked]
    have hstep := hq (.notifyOne (some 0)) trivial
    simp [step, hd, hn, notifyOne, hi] at hstep

/-- A pool whose workers are all blocked waits for a sender. -/
theorem quiet_of_blocked (hb : ∀ w ∈ s.threads, w.isBlocked = true) (hn : s.notifying = 0) :
    Quiet step Settling s := by
  intro e he
  cases h : step s e with
  | none => rfl
  | some t =>
    have hat : ∀ {i : Nat} {w : Worker τ}, s.threads[i]? = some w → w.isBlocked = true :=
      fun hi => hb _ (mem_of_at hi)
    obtain ⟨_, hm⟩ := step_moves h
    cases hm with
    | start n => cases he
    | push task => cases he
    | wake => cases he
    | notifyNobody pending => exact absurd hn pending
    | notify pending => exact absurd hn pending
    | fails hi => cases hat hi
    | passes hi => cases hat hi
    | block hi => cases hat hi
    | popEmpty hi => cases hat hi
    | pop hi => cases hat hi
    | call hi => cases hat hi
    | finish hi => cases hat hi

end Quiet

/-- What a pool of two workers or more keeps. -/
structure Lively (s : Pool τ) : Prop where
  mutex : MutexHeldOnce s
  workers : 2 ≤ s.threads.length
  attended : Attended s
  order : InOrder s

theorem step_lively {s t : Pool τ} {e : Event τ} (hs : Lively s) (h : step s e = some t) :
    Lively t where
  mutex := step_mutex hs.mutex h
  workers := Nat.le_trans hs.workers (step_threads h)
  attended := (step_attended hs.attended h).mpr (two_workers_hear hs.mutex hs.workers h)
  order := step_order hs.order h

theorem initial_lively {n : Nat} (hn : 2 ≤ n) : Lively (initial n : Pool τ) where
  mutex := initial_mutex n
  workers := by simpa [initial] using hn
  attended := initial_attended n
  order := initial_order n

theorem settles : Settles (@step τ) Lively Settling weight where
  keeps _ _ _ hs _ h := step_lively hs h
  uses _ _ _ _ he h := step_weight he h

theorem Lively.atRest {s : Pool τ} (hs : Lively s) (hq : Quiet step Settling s) : AtRest s := by
  cases hd : s.poppedEmpty with
  | true => exact Or.inl hd
  | false =>
    right
    have hblocked := quiet_blocked hd hq
    have hnotified := quiet_notified hd hq
    have hempty := hs.attended.no_lost_wakeup hblocked hnotified
    have horder := hs.order
    rw [InOrder, hempty, List.append_nil] at horder
    exact ⟨hempty, horder, hnotified, hblocked⟩

/-- Whatever was sent, and however the workers go on from there: they come to rest, with
every task handed to Java. This takes two workers, as one can block with a task queued. -/
theorem pool_drains_iff [Inhabited τ] (n : Nat) :
    (∀ (es : List (Event τ)) s, run step (initial n) es = some s →
      Drains step Settling AtRest (weight s) s) ↔ 2 ≤ n := by
  constructor
  · intro h
    by_contra hn
    have hlost : ∃ (es : List (Event τ)) (s : Pool τ), run step (initial n) es = some s ∧
        s.poppedEmpty = false ∧ (∀ w ∈ s.threads, w.isBlocked = true) ∧ s.notifying = 0 ∧
          s.messageQueue = [default] := by
      rcases (show n = 0 ∨ n = 1 by omega) with rfl | rfl
      · exact ⟨[.push default, .notifyOne none], _, rfl, rfl, nofun, rfl, rfl⟩
      · exact ⟨[.test 0, .push default, .notifyOne none, .block 0], _, rfl, rfl,
          List.forall_mem_singleton.mpr rfl, rfl, rfl⟩
    obtain ⟨es, s, hr, hd, hblocked, hnotified, hqueue⟩ := hlost
    rcases (h es s hr).ends [] s nofun rfl (quiet_of_blocked hblocked hnotified) with hp | ⟨hq, _⟩
    · rw [hd] at hp
      cases hp
    · rw [hqueue] at hq
      cases hq
  · intro hn es s hr
    have hs : Lively s := run_invariant (fun _ _ _ hs h => step_lively hs h) (initial_lively hn) hr
    exact settles.drains (fun _ hs hq => hs.atRest hq) hs

end NativeChannel.PoolDrains
