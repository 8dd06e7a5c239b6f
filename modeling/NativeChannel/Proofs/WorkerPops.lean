import NativeChannel.Library.Counts
import NativeChannel.Source.WorkerPool

namespace NativeChannel.WorkerPops
open Runs Counts WorkerPool

variable {τ : Type}

/-- A worker about to pop finds a task, no worker has popped an empty queue, and
the tasks taken are, in their order, the first ones pushed. -/
structure PopsInOrder (s : Pool τ) : Prop where
  task : ∀ w ∈ s.threads, w.isPassed = true → s.messageQueue ≠ []
  defined : s.poppedEmpty = false
  order : s.dequeued ++ s.messageQueue = s.pushed

/-- Workers that passed the test of `cv_.wait` and have not popped yet. -/
def passedCount (s : Pool τ) : Nat := s.threads.countP Worker.isPassed

/-- A test that lets a worker go on finds more tasks than there are workers
already on their way to pop. -/
def TestFindsSpare (s : Pool τ) : Event τ → Prop
  | .test _ => s.messageQueue = [] ∨ passedCount s < s.messageQueue.length
  | _ => True

instance (s : Pool τ) : (e : Event τ) → Decidable (TestFindsSpare s e)
  | .test _ =>
    (inferInstance : Decidable (s.messageQueue = [] ∨ passedCount s < s.messageQueue.length))
  | .start _ | .push _ | .notifyOne _ | .block _ | .wake _ | .frontPop _ | .call _ | .finish _ =>
    isTrue trivial

def IsPop : Event τ → Prop
  | .frontPop _ => True
  | _ => False

/-- The tasks in the queue cover the workers on their way to pop. -/
def Covered (s : Pool τ) : Prop :=
  s.poppedEmpty = false ∧ passedCount s ≤ s.messageQueue.length

/-- No task is invented, lost or taken twice, whatever the order of the steps. -/
def InOrder (s : Pool τ) : Prop := s.dequeued ++ s.messageQueue = s.pushed

theorem step_order {s t : Pool τ} {e : Event τ} (hs : InOrder s) (h : step s e = some t) :
    InOrder t := by
  obtain ⟨_, hm⟩ := step_moves h
  cases hm with
  | push task =>
    change s.dequeued ++ (s.messageQueue ++ [task]) = s.pushed ++ [task]
    rw [← List.append_assoc, hs]
  | pop hi hf =>
    change s.dequeued ++ [_] ++ _ = s.pushed
    rw [← hs, hf]
    simp
  | _ => exact hs

/-- Only a passing test or a pop moves the count of workers about to pop. -/
theorem passedCount_same {s : Pool τ} {i : Nat} {w : Worker τ} (v : Worker τ)
    (hi : s.threads[i]? = some w) (hw : w.isPassed = false) (hv : v.isPassed = false) :
    passedCount (s.setThread i v) = passedCount s := by
  have hc := countP_set_add Worker.isPassed v hi
  simpa [passedCount, Pool.setThread, hw, hv] using hc

theorem passedCount_pass {s : Pool τ} {i : Nat} (hi : s.threads[i]? = some .testing) :
    passedCount (s.setThread i .passed) = passedCount s + 1 := by
  have hc := countP_set_add Worker.isPassed .passed hi
  simpa [passedCount, Pool.setThread, Worker.isPassed] using hc

theorem passedCount_pop {s : Pool τ} {i : Nat} (task : τ) (hi : s.threads[i]? = some .passed) :
    passedCount (s.setThread i (.holding task)) + 1 = passedCount s := by
  have hc := countP_set_add Worker.isPassed (.holding task) hi
  simpa [passedCount, Pool.setThread, Worker.isPassed] using hc

/-- From a covered state a step stays covered exactly when a test that passes
finds a task to spare. -/
theorem step_covered {s t : Pool τ} {e : Event τ} (hs : Covered s) (h : step s e = some t) :
    Covered t ↔ TestFindsSpare s e := by
  obtain ⟨hd, hq⟩ := hs
  obtain ⟨_, hm⟩ := step_moves h
  cases hm with
  | start n =>
    have hc : passedCount { s with threads := s.threads ++ List.replicate n .testing } =
        passedCount s := by
      simp [passedCount, List.countP_replicate, Worker.isPassed]
    exact iff_of_true ⟨hd, by rw [hc]; exact hq⟩ trivial
  | push task =>
    refine iff_of_true ⟨hd, ?_⟩ trivial
    have hl : (push s task).messageQueue.length = s.messageQueue.length + 1 := by simp [push]
    exact hl ▸ Nat.le_succ_of_le hq
  | notifyNobody => exact iff_of_true ⟨hd, hq⟩ trivial
  | notify _ hi =>
    have hc := passedCount_same .testing hi rfl rfl
    exact iff_of_true ⟨hd, hc ▸ hq⟩ trivial
  | fails hi _ he =>
    have hc := passedCount_same .failed hi rfl rfl
    exact iff_of_true ⟨hd, hc ▸ hq⟩ (Or.inl he)
  | passes hi _ he =>
    have hc := passedCount_pass hi
    constructor
    · intro ht
      have hl : passedCount s + 1 ≤ s.messageQueue.length := hc ▸ ht.2
      exact Or.inr hl
    · intro ht
      rcases ht with hn | hl
      · exact absurd hn he
      · exact ⟨hd, hc ▸ hl⟩
  | block hi =>
    have hc := passedCount_same .blocked hi rfl rfl
    exact iff_of_true ⟨hd, hc ▸ hq⟩ trivial
  | wake hi =>
    have hc := passedCount_same .testing hi rfl rfl
    exact iff_of_true ⟨hd, hc ▸ hq⟩ trivial
  | popEmpty hi he =>
    have hp : 0 < passedCount s := countP_pos_at hi rfl
    simp only [he, List.length_nil] at hq
    omega
  | @pop i task rest hi hf =>
    have hc := passedCount_pop task hi
    refine iff_of_true ⟨hd, ?_⟩ trivial
    have hl : s.messageQueue.length = rest.length + 1 := by simp [hf]
    change passedCount (s.setThread i (.holding task)) ≤ rest.length
    omega
  | call hi =>
    have hc := passedCount_same .calling hi rfl rfl
    exact iff_of_true ⟨hd, hc ▸ hq⟩ trivial
  | finish hi =>
    have hc := passedCount_same .testing hi rfl rfl
    exact iff_of_true ⟨hd, hc ▸ hq⟩ trivial

theorem Covered.pops_in_order {s : Pool τ} (ho : InOrder s) (hs : Covered s) : PopsInOrder s := by
  refine ⟨?_, hs.1, ho⟩
  intro w hw hp he
  have hpos : 0 < passedCount s := List.countP_pos_iff.mpr ⟨w, hw, hp⟩
  have hl := hs.2
  simp only [he, List.length_nil] at hl
  omega

/-- Once more workers have passed than there are tasks, popping alone brings one
of them before an empty queue. The induction is on the tasks left. -/
theorem uncovered_pops_empty (n : Nat) (s : Pool τ) (hn : s.messageQueue.length = n)
    (hd : s.poppedEmpty = false) (hc : n < passedCount s) :
    ∃ xs, (∀ x ∈ xs, IsPop x) ∧ ∃ t, run step s xs = some t ∧ ¬ PopsInOrder t := by
  induction n generalizing s with
  | zero =>
    have hq : s.messageQueue = [] := List.length_eq_zero_iff.mp hn
    obtain ⟨w, hw, hp⟩ := List.countP_pos_iff.mp hc
    exact ⟨[], by simp, s, rfl, fun h => h.task w hw hp hq⟩
  | succ n ih =>
    obtain ⟨w, hw, hp⟩ := List.countP_pos_iff.mp (show 0 < passedCount s by omega)
    obtain ⟨i, hi⟩ := List.mem_iff_getElem?.mp hw
    cases w <;> simp only [Worker.isPassed, Bool.false_eq_true] at hp
    obtain ⟨task, rest, hq⟩ := List.exists_cons_of_length_eq_add_one hn
    let t : Pool τ := { s.setThread i (.holding task) with
      messageQueue := rest, dequeued := s.dequeued ++ [task] }
    have hstep : step s (.frontPop i) = some t := by
      simp [step, hd, hi, frontPop, hq, t]
    have hcount : passedCount t + 1 = passedCount s := passedCount_pop task hi
    obtain ⟨xs, hx, u, hu, hbad⟩ := ih t (by simpa [hq] using hn) hd (by omega)
    refine ⟨.frontPop i :: xs, ?_, u, by simp [hstep, hu], hbad⟩
    intro x hm
    rcases List.mem_cons.mp hm with rfl | hm
    · trivial
    · exact hx x hm

theorem covered_exact : Exact (@step τ) InOrder Covered TestFindsSpare where
  keeps _ _ _ hs h := step_order hs h
  meets _ _ _ _ hs h := step_covered hs h

theorem initial_covered (n : Nat) : Covered (initial n : Pool τ) := by
  refine ⟨rfl, ?_⟩
  simp [passedCount, initial, List.countP_replicate, Worker.isPassed]

theorem initial_order (n : Nat) : InOrder (initial n : Pool τ) := rfl

/-- A run, and the pops it leaves open, serve every task once and in order
exactly when no test lets through more workers than there are tasks. -/
theorem pops_in_order_iff (n : Nat) (es : List (Event τ))
    (hr : (run step (initial n) es).isSome) :
    Through step IsPop PopsInOrder (initial n) es ↔
      AllSteps step TestFindsSpare (initial n) es := by
  obtain ⟨t, ht⟩ := Option.isSome_iff_exists.mp hr
  apply covered_exact.through_iff ?_ ?_ ?_ (initial_order n) (initial_covered n) ht
  · intro s e he
    cases e <;> trivial
  · intro s ho hs
    exact hs.pops_in_order ho
  · intro s _ hs
    cases hd : s.poppedEmpty with
    | true => exact ⟨[], by simp, s, rfl, fun h => by simp [h.defined] at hd⟩
    | false =>
      have hc : s.messageQueue.length < passedCount s := by
        by_contra hn
        exact hs ⟨hd, by omega⟩
      exact uncovered_pops_empty _ s rfl hd hc

theorem pops_in_order_two_workers :
    Through step IsPop PopsInOrder (initial 2)
      [.push 7, .notifyOne none, .push 8, .test 0, .test 1, .frontPop 1, .call 1, .notifyOne none,
        .frontPop 0, .finish 1, .test 1, .call 0] :=
  (pops_in_order_iff 2 _ (by decide)).mpr (by decide)

/-- Two workers pass the test on one task. After the first pop the second stands
before an empty queue, and pops it. -/
theorem two_workers_one_task :
    (∃ s, run step (initial 2) [.push 7, .test 0, .test 1, .frontPop 0] = some s ∧
      ¬ PopsInOrder s) ∧
    ∃ s, run step (initial 2) [.push 7, .test 0, .test 1, .frontPop 0, .frontPop 1] = some s ∧
      s.poppedEmpty = true :=
  ⟨⟨_, rfl, fun h => h.task .passed (by decide) rfl rfl⟩, ⟨_, rfl, rfl⟩⟩

/-- A pool of one worker always finds its task, whatever the senders do. -/
theorem one_worker_spare {s t : Pool τ} {e : Event τ} (hl : s.threads.length ≤ 1)
    (h : step s e = some t) : TestFindsSpare s e := by
  obtain ⟨_, hm⟩ := step_moves h
  cases hm with
  | fails _ _ he => exact Or.inl he
  | @passes i hi _ he =>
    refine Or.inr ?_
    have hz : passedCount s = 0 := by
      apply List.countP_eq_zero.mpr
      intro w hw hp
      obtain ⟨j, hj⟩ := List.mem_iff_getElem?.mp hw
      have hij : i = j := by
        have h1 := (List.getElem?_eq_some_iff.mp hi).1
        have h2 := (List.getElem?_eq_some_iff.mp hj).1
        omega
      subst j
      rw [hi] at hj
      cases hj
      cases hp
    have := List.length_pos_iff.mpr he
    omega
  | _ => trivial

end NativeChannel.WorkerPops
