import NativeChannel.Source.JniHelper

namespace NativeChannel.LocalReferences
open Runs JniHelper

/-- A thread that enters the library from Dart, and whether the static of
synchronous_channel.cc holds the class already. -/
structure Entering where
  thread : Thread
  classKnown : Bool
  deriving DecidableEq

/-- What happens on the thread between its returns to Dart. Another thread may be the
one to store the class. -/
inductive Call where
  | sendSynchronousMessageToPlatform (result : Bool)
  | dartFinalizer (found : Bool)
  | classStored
  deriving DecidableEq

def Entering.initial (localRefs : Option Nat) (classKnown : Bool) : Entering :=
  ⟨Thread.initial localRefs, classKnown⟩

/-- The Java code that a call enters returns to Java, which drops the local references
of that code itself. -/
def step (s : Entering) : Call → Option Entering
  | .sendSynchronousMessageToPlatform result =>
    some ⟨(JniHelper.sendSynchronousMessageToPlatform s.classKnown result .done).exec s.thread,
      true⟩
  | .dartFinalizer found =>
    some { s with thread := (releaseGlobalReferenceByPointer found .done).exec s.thread }
  | .classStored => some { s with classKnown := true }

def Call.isSend : Call → Bool
  | .sendSynchronousMessageToPlatform _ => true
  | _ => false

/-- The call leaves as many live local references as it found. -/
def Level (s : Entering) (c : Call) : Prop :=
  ∀ t, step s c = some t → t.thread.localRefs = s.thread.localRefs

/-- The local references that a piece of code makes on an attached thread. -/
def Code.created : Code → Nat
  | .done => 0
  | .call created rest => created + Code.created rest
  | .scope body rest => Code.created body + Code.created rest

/-- On an attached thread a JniEnv does nothing, and nothing deletes what was made. -/
theorem exec_attached (code : Code) {t : Thread} {env : JNIEnv} (h : t.env = some env) :
    code.exec t =
      { t with env := some { env with localRefs := env.localRefs + Code.created code } } := by
  induction code generalizing t env with
  | done =>
    simp only [Code.exec, Code.created, Nat.add_zero]
    rw [← h]
  | call created rest ih =>
    have hn : (t.newLocalRefs created).env =
        some { env with localRefs := env.localRefs + created } := by
      simp [Thread.newLocalRefs, h]
    rw [Code.exec, ih hn]
    simp [Thread.newLocalRefs, Code.created, Nat.add_assoc]
  | scope body rest ihBody ihRest =>
    have hc : JniEnv.construct t = (t, ⟨some env.id, false⟩) := by
      simp [JniEnv.construct, Thread.getEnv, h]
    simp only [Code.exec, hc, JniEnv.destroy, Bool.false_eq_true, if_false]
    rw [ihBody h, ihRest rfl]
    simp [Code.created, Nat.add_assoc]

/-- A thread that came detached leaves detached, with no table at all. -/
theorem exec_detached (code : Code) {t : Thread} (h : t.env = none) : (code.exec t).env = none := by
  induction code generalizing t with
  | done => exact h
  | call created rest ih =>
    apply ih
    simp [Thread.newLocalRefs, h]
  | scope body rest _ ih =>
    have hc : JniEnv.construct t =
        (t.attachCurrentThread, ⟨t.attachCurrentThread.getEnv, true⟩) := by
      simp [JniEnv.construct, Thread.getEnv, h]
    rw [Code.exec, hc]
    exact ih rfl

theorem exec_localRefs (code : Code) (t : Thread) :
    (code.exec t).localRefs = t.localRefs + if t.attached then Code.created code else 0 := by
  cases h : t.env with
  | none => simp [Thread.localRefs, Thread.attached, exec_detached code h, h]
  | some env => simp [Thread.localRefs, Thread.attached, exec_attached code h, h]

theorem exec_attached_same (code : Code) (t : Thread) :
    (code.exec t).attached = t.attached := by
  cases h : t.env with
  | none => simp [Thread.attached, exec_detached code h, h]
  | some env => simp [Thread.attached, exec_attached code h, h]

/-- The message is always one, Java's answer another if it is not null, and the first
call on any thread adds the two of its class lookup. -/
theorem created_send (known result : Bool) :
    Code.created (sendSynchronousMessageToPlatform known result .done) =
      (if known then 1 else 3) + if result then 1 else 0 := by
  cases known <;> cases result <;> rfl

theorem created_release (found : Bool) :
    Code.created (releaseGlobalReferenceByPointer found .done) = 0 := by
  cases found <;> rfl

theorem step_attached {s t : Entering} {c : Call} (h : step s c = some t) :
    t.thread.attached = s.thread.attached := by
  cases c with
  | sendSynchronousMessageToPlatform result =>
    cases h
    exact exec_attached_same _ _
  | dartFinalizer found =>
    cases h
    exact exec_attached_same _ _
  | classStored =>
    cases h
    rfl

/-- A send on an attached thread is what breaks the balance. -/
theorem level_iff (s : Entering) (c : Call) :
    Level s c ↔ s.thread.attached = false ∨ c.isSend = false := by
  cases c with
  | sendSynchronousMessageToPlatform result =>
    simp only [Level, step, Option.some.injEq, forall_eq', exec_localRefs, created_send,
      Call.isSend]
    cases s.thread.attached with
    | false => simp
    | true =>
      simp only [if_true, Bool.true_eq_false, or_self, iff_false]
      split <;> omega
  | dartFinalizer found =>
    refine iff_of_true ?_ (Or.inr rfl)
    intro t ht
    cases ht
    simp [exec_localRefs, created_release]
  | classStored =>
    refine iff_of_true ?_ (Or.inr rfl)
    intro t ht
    cases ht
    rfl

/-- Every call of a run leaves the thread's table as full as it was exactly when the
thread came to the library detached, or nothing is sent synchronously. -/
theorem local_refs_level_iff (localRefs : Option Nat) (classKnown : Bool) (cs : List Call) :
    AllSteps step Level (Entering.initial localRefs classKnown) cs ↔
      localRefs = none ∨ ∀ c ∈ cs, c.isSend = false := by
  have hrun : ∀ s : Entering, AllSteps step Level s cs ↔
      s.thread.attached = false ∨ ∀ c ∈ cs, c.isSend = false := by
    induction cs with
    | nil => simp [AllSteps]
    | cons c cs ih =>
      intro s
      have hstep : ∃ t, step s c = some t := by cases c <;> exact ⟨_, rfl⟩
      obtain ⟨t, ht⟩ := hstep
      have hrest : (∀ u, step s c = some u → AllSteps step Level u cs) ↔
          s.thread.attached = false ∨ ∀ c ∈ cs, c.isSend = false := by
        simp only [ht, Option.some.injEq, forall_eq']
        rw [ih t, step_attached ht]
      rw [AllSteps, level_iff, hrest]
      simp only [List.mem_cons, forall_eq_or_imp]
      tauto
  rw [hrun]
  cases localRefs <;> simp [Entering.initial, Thread.initial, Thread.attached]

/-- A thread that the embedder attached, as Flutter does with the one Dart runs on:
one answered call after another, and each leaves two references more. -/
theorem attached_thread_accumulates :
    ¬ AllSteps step Level (Entering.initial (some 0) true)
      [.sendSynchronousMessageToPlatform true] ∧
    (run step (Entering.initial (some 0) true)
      (List.replicate 3 (.sendSynchronousMessageToPlatform true))).map
        (fun s => s.thread.localRefs) = some 6 := by
  refine ⟨fun h => ?_, rfl⟩
  exact absurd (h.1 _ rfl) (by decide)

/-- On an attached thread there are at least as many references more as sends. -/
theorem sends_accumulate {s t : Entering} {cs : List Call} (ha : s.thread.attached = true)
    (hr : run step s cs = some t) :
    s.thread.localRefs + cs.countP Call.isSend ≤ t.thread.localRefs := by
  induction cs generalizing s with
  | nil =>
    cases hr
    exact Nat.le_refl _
  | cons c cs ih =>
    obtain ⟨u, hu⟩ : ∃ u, step s c = some u := by cases c <;> exact ⟨_, rfl⟩
    rw [run_cons, hu] at hr
    have hrest := ih ((step_attached hu).trans ha) hr
    have hone : s.thread.localRefs + (if c.isSend then 1 else 0) ≤ u.thread.localRefs := by
      cases c with
      | sendSynchronousMessageToPlatform result =>
        cases hu
        rw [exec_localRefs, ha, created_send]
        simp only [Call.isSend, if_true]
        split <;> omega
      | dartFinalizer found =>
        cases hu
        simp [exec_localRefs, created_release, Call.isSend]
      | classStored =>
        cases hu
        exact Nat.le_refl _
    rw [List.countP_cons]
    omega

end NativeChannel.LocalReferences
