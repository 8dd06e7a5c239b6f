import NativeChannel.Library.Runs

namespace NativeChannel.WorkerPool

/-- Where a thread stands in `SendConcurrentMessageToPlatformWorker`. `failed` is
the one place where it keeps `cv_mtx_` from one step to the next. -/
inductive Worker (τ : Type) where
  | testing
  | failed
  | blocked
  | passed
  | holding (task : τ)
  | calling
  deriving DecidableEq

def Worker.isFailed : Worker τ → Bool
  | .failed => true
  | _ => false

def Worker.isBlocked : Worker τ → Bool
  | .blocked => true
  | _ => false

def Worker.isPassed : Worker τ → Bool
  | .passed => true
  | _ => false

/-- The process-wide variables of concurrent_channel.cc and its threads.
`notifying` counts the senders between their push and their `notify_one`. The
last two fields are history: every task pushed, and every task taken. -/
structure Pool (τ : Type) where
  messageQueue : List τ
  threads : List (Worker τ)
  notifying : Nat
  poppedEmpty : Bool
  pushed : List τ
  dequeued : List τ
  deriving DecidableEq

/-- The atomic steps: the critical sections of the two functions, the blocking
and waking of `cv_.wait`, and the way of one task through a worker. -/
inductive Event (τ : Type) where
  | start (concurrency : Nat)
  | push (task : τ)
  | notifyOne (woken : Option Nat)
  | test (i : Nat)
  | block (i : Nat)
  | wake (i : Nat)
  | frontPop (i : Nat)
  | call (i : Nat)
  | finish (i : Nat)
  deriving DecidableEq

/-- A pool of `n` workers before anything was sent. -/
def initial (n : Nat) : Pool τ :=
  ⟨[], List.replicate n .testing, 0, false, [], []⟩

def Pool.setThread (s : Pool τ) (i : Nat) (w : Worker τ) : Pool τ :=
  { s with threads := s.threads.set i w }

/-- `cv_mtx_` is taken while a worker stands between a failed test and blocking. -/
def Pool.cvMtxFree (s : Pool τ) : Bool :=
  s.threads.all fun w => !w.isFailed

def push (s : Pool τ) (task : τ) : Pool τ :=
  { s with
    messageQueue := s.messageQueue ++ [task]
    pushed := s.pushed ++ [task]
    notifying := s.notifying + 1 }

/-- `notify_one` wakes one blocked worker, and has no effect when there is none. -/
def notifyOne (s : Pool τ) : Option Nat → Option (Pool τ)
  | none =>
    if s.threads.all fun w => !w.isBlocked then
      some { s with notifying := s.notifying - 1 }
    else none
  | some i =>
    match s.threads[i]? with
    | some .blocked => some { s.setThread i .testing with notifying := s.notifying - 1 }
    | _ => none

/-- One evaluation of the predicate of `cv_.wait`, made while holding `cv_mtx_`. -/
def test (s : Pool τ) (i : Nat) : Pool τ :=
  if s.messageQueue.isEmpty then s.setThread i .failed else s.setThread i .passed

/-- `front` and `pop` under `message_queue_mtx_`. On an empty queue both are
undefined, so nothing is said about what comes after. -/
def frontPop (s : Pool τ) (i : Nat) : Pool τ :=
  match s.messageQueue with
  | [] => { s with poppedEmpty := true }
  | task :: rest =>
    { s.setThread i (.holding task) with messageQueue := rest, dequeued := s.dequeued ++ [task] }

def step (s : Pool τ) (e : Event τ) : Option (Pool τ) :=
  if s.poppedEmpty then none else
  match e with
  | .start n => some { s with threads := s.threads ++ List.replicate n .testing }
  | .push task => some (push s task)
  | .notifyOne woken => if s.notifying = 0 then none else notifyOne s woken
  | .test i =>
    match s.threads[i]? with
    | some .testing => if s.cvMtxFree then some (test s i) else none
    | _ => none
  | .block i =>
    match s.threads[i]? with
    | some .failed => some (s.setThread i .blocked)
    | _ => none
  | .wake i =>
    -- the wait may also return with nobody having notified it
    match s.threads[i]? with
    | some .blocked => some (s.setThread i .testing)
    | _ => none
  | .frontPop i =>
    match s.threads[i]? with
    | some .passed => some (frontPop s i)
    | _ => none
  | .call i =>
    match s.threads[i]? with
    | some (.holding _) => some (s.setThread i .calling)
    | _ => none
  | .finish i =>
    match s.threads[i]? with
    | some .calling => some (s.setThread i .testing)
    | _ => none

/-- Everything one step can do, with what was true before it. -/
inductive Moves (s : Pool τ) : Event τ → Pool τ → Prop where
  | start (n : Nat) :
      Moves s (.start n) { s with threads := s.threads ++ List.replicate n .testing }
  | push (task : τ) : Moves s (.push task) (push s task)
  | notifyNobody (pending : s.notifying ≠ 0) (nobody : ∀ w ∈ s.threads, w.isBlocked = false) :
      Moves s (.notifyOne none) { s with notifying := s.notifying - 1 }
  | notify {i : Nat} (pending : s.notifying ≠ 0) (at_ : s.threads[i]? = some .blocked) :
      Moves s (.notifyOne (some i)) { s.setThread i .testing with notifying := s.notifying - 1 }
  | fails {i : Nat} (at_ : s.threads[i]? = some .testing)
      (free : ∀ w ∈ s.threads, w.isFailed = false) (empty : s.messageQueue = []) :
      Moves s (.test i) (s.setThread i .failed)
  | passes {i : Nat} (at_ : s.threads[i]? = some .testing)
      (free : ∀ w ∈ s.threads, w.isFailed = false) (task : s.messageQueue ≠ []) :
      Moves s (.test i) (s.setThread i .passed)
  | block {i : Nat} (at_ : s.threads[i]? = some .failed) :
      Moves s (.block i) (s.setThread i .blocked)
  | wake {i : Nat} (at_ : s.threads[i]? = some .blocked) :
      Moves s (.wake i) (s.setThread i .testing)
  | popEmpty {i : Nat} (at_ : s.threads[i]? = some .passed) (empty : s.messageQueue = []) :
      Moves s (.frontPop i) { s with poppedEmpty := true }
  | pop {i : Nat} {task : τ} {rest : List τ} (at_ : s.threads[i]? = some .passed)
      (front : s.messageQueue = task :: rest) :
      Moves s (.frontPop i) { s.setThread i (.holding task) with
        messageQueue := rest, dequeued := s.dequeued ++ [task] }
  | call {i : Nat} {task : τ} (at_ : s.threads[i]? = some (.holding task)) :
      Moves s (.call i) (s.setThread i .calling)
  | finish {i : Nat} (at_ : s.threads[i]? = some .calling) :
      Moves s (.finish i) (s.setThread i .testing)

theorem step_moves {s t : Pool τ} {e : Event τ} (h : step s e = some t) :
    s.poppedEmpty = false ∧ Moves s e t := by
  unfold step at h
  split at h
  · cases h
  rename_i hp
  refine ⟨by simpa using hp, ?_⟩
  cases e with
  | start n => cases h; exact .start n
  | push task => cases h; exact .push task
  | notifyOne woken =>
    simp only at h
    split at h
    · cases h
    rename_i hn
    cases woken with
    | none =>
      simp only [notifyOne] at h
      split at h
      · rename_i hb
        cases h
        exact .notifyNobody hn (by simpa using hb)
      · cases h
    | some i =>
      simp only [notifyOne] at h
      split at h
      · rename_i hi
        cases h
        exact .notify hn hi
      · cases h
  | test i =>
    simp only at h
    split at h
    · rename_i hi
      split at h
      · rename_i hf
        cases h
        have hfree : ∀ w ∈ s.threads, w.isFailed = false := by simpa [Pool.cvMtxFree] using hf
        unfold test
        split
        · rename_i hq
          exact .fails hi hfree (List.isEmpty_iff.mp hq)
        · rename_i hq
          exact .passes hi hfree (fun he => hq (List.isEmpty_iff.mpr he))
      · cases h
    · cases h
  | frontPop i =>
    simp only at h
    split at h
    · rename_i hi
      cases h
      unfold frontPop
      split
      · exact .popEmpty hi ‹_›
      · exact .pop hi ‹_›
    · cases h
  | block i => simp only at h; split at h <;> cases h; exact .block ‹_›
  | wake i => simp only at h; split at h <;> cases h; exact .wake ‹_›
  | call i => simp only at h; split at h <;> cases h; exact .call ‹_›
  | finish i => simp only at h; split at h <;> cases h; exact .finish ‹_›

/-- `P` of every task that waits in the queue or that a worker holds. -/
structure Pool.Tasks (P : τ → Prop) (s : Pool τ) : Prop where
  queued : ∀ x ∈ s.messageQueue, P x
  held : ∀ x, .holding x ∈ s.threads → P x

theorem Pool.Tasks.setThread {P : τ → Prop} {s : Pool τ} (h : s.Tasks P) (i : Nat)
    {w : Worker τ} (hw : ∀ x, w = .holding x → P x) : (s.setThread i w).Tasks P := by
  refine ⟨h.queued, ?_⟩
  intro x hx
  rcases List.mem_or_eq_of_mem_set hx with hm | he
  · exact h.held x hm
  · exact hw x he.symm

theorem initial_tasks {P : τ → Prop} (n : Nat) : (initial n).Tasks P where
  queued := by simp [initial]
  held := by simp [initial]

/-- The pool makes up no task. -/
theorem step_tasks {P : τ → Prop} {s t : Pool τ} {e : Event τ} (hs : s.Tasks P)
    (hp : ∀ x, e = .push x → P x) (h : step s e = some t) : t.Tasks P := by
  obtain ⟨_, hm⟩ := step_moves h
  cases hm with
  | start n =>
    refine ⟨hs.queued, ?_⟩
    intro x hx
    rcases List.mem_append.mp hx with hm | hn
    · exact hs.held x hm
    · cases List.eq_of_mem_replicate hn
  | push task =>
    refine ⟨?_, hs.held⟩
    intro x hx
    rcases List.mem_append.mp hx with hm | hn
    · exact hs.queued x hm
    · rw [List.mem_singleton.mp hn]
      exact hp task rfl
  | notifyNobody => exact ⟨hs.queued, hs.held⟩
  | popEmpty => exact ⟨hs.queued, hs.held⟩
  | @pop i task rest hi hf =>
    have ht : P task := hs.queued task (by simp [hf])
    have hset := hs.setThread i (w := .holding task) (by intro x hx; cases hx; exact ht)
    exact ⟨fun x hx => hs.queued x (by simp [hf, hx]), hset.held⟩
  | notify =>
    have hset := hs.setThread ‹_› (w := .testing) nofun
    exact ⟨hset.queued, hset.held⟩
  | _ => exact hs.setThread _ nofun

end NativeChannel.WorkerPool
