import NativeChannel.Library.Counts
import NativeChannel.Source.JniHelper

namespace NativeChannel.ScopeBalance
open Runs Counts JniHelper

/-- The open scopes of a thread that was attached or not when it entered the first.
Only that one can have found the thread detached, and then it is to detach it. -/
inductive Open (attached : Bool) : List Scope → Bool → Prop
  | nil : Open attached [] attached
  | cons {sc : Scope} {rest : List Scope} (outer : Open attached rest sc.before)
      (detach : sc.jni.needDetach = !sc.before) : Open attached (sc :: rest) true

/-- The scopes of a thread do what their nesting asks for. -/
structure Balanced (attached : Bool) (s : Nested) : Prop where
  usable : ∀ sc ∈ s.scopes, ∃ env, s.thread.env = some env ∧ sc.jni.env = some env.id
  restored : ∀ c ∈ s.closed, c.2 = c.1
  paired : s.thread.detachCalls + s.scopes.countP (fun sc => sc.jni.needDetach) =
    s.thread.attachCalls
  outermost : ∀ n ∈ s.detachedUnder, n = 0
  settled : s.scopes = [] → s.thread.attached = attached
  called : s.misused = false

/-- The invariant: `Balanced` with the scopes' own account of it. -/
structure Sound (attached : Bool) (s : Nested) : Prop where
  balanced : Balanced attached s
  opened : Open attached s.scopes s.thread.attached

theorem Open.attached_of_scope {a b : Bool} {sc : Scope} {rest : List Scope}
    (h : Open a (sc :: rest) b) : b = true := by
  cases h
  rfl

theorem construct_attached {t : Thread} {env : JNIEnv} (h : t.env = some env) :
    JniEnv.construct t = (t, ⟨some env.id, false⟩) := by
  simp [JniEnv.construct, Thread.getEnv, h]

theorem construct_detached {t : Thread} (h : t.env = none) :
    JniEnv.construct t =
      (t.attachCurrentThread, ⟨some (t.attachCalls + 1), true⟩) := by
  simp [JniEnv.construct, Thread.getEnv, Thread.attachCurrentThread, h]

theorem construct_sound {a : Bool} {s : Nested} (hs : Sound a s) :
    Sound a { s with
      thread := (JniEnv.construct s.thread).1
      scopes := ⟨(JniEnv.construct s.thread).2, s.thread.attached⟩ :: s.scopes } := by
  obtain ⟨hb, ho⟩ := hs
  cases he : s.thread.env with
  | some env =>
    have ha : s.thread.attached = true := by simp [Thread.attached, he]
    rw [construct_attached he]
    refine ⟨⟨?_, hb.restored, ?_, hb.outermost, nofun, hb.called⟩, ?_⟩
    · intro sc hm
      rcases List.mem_cons.mp hm with rfl | hm
      · exact ⟨env, he, rfl⟩
      · exact hb.usable sc hm
    · simpa using hb.paired
    · have hc : Open a (⟨⟨some env.id, false⟩, s.thread.attached⟩ :: s.scopes) true :=
        Open.cons ho (by rw [ha]; rfl)
      exact ha ▸ hc
  | none =>
    have ha : s.thread.attached = false := by simp [Thread.attached, he]
    have hempty : s.scopes = [] := by
      cases hsc : s.scopes with
      | nil => rfl
      | cons sc rest =>
        rw [hsc] at ho
        have := ho.attached_of_scope
        rw [ha] at this
        cases this
    rw [construct_detached he]
    refine ⟨⟨?_, hb.restored, ?_, hb.outermost, nofun, hb.called⟩, ?_⟩
    · intro sc hm
      rw [hempty] at hm
      rw [List.mem_singleton.mp hm]
      exact ⟨_, rfl, rfl⟩
    · have hp := hb.paired
      rw [hempty] at hp ⊢
      simpa [Thread.attachCurrentThread] using hp
    · have hc : Open a (⟨⟨some (s.thread.attachCalls + 1), true⟩, s.thread.attached⟩ :: s.scopes)
          true := Open.cons ho (by rw [ha]; rfl)
      exact hc

/-- A call adds references to the thread's JNIEnv, which stays the one it is. -/
theorem call_sound {a : Bool} {s : Nested} (created : Nat) (hs : Sound a s) :
    Sound a { s with thread := s.thread.newLocalRefs created } := by
  obtain ⟨hb, ho⟩ := hs
  have ha : (s.thread.newLocalRefs created).attached = s.thread.attached := by
    simp [Thread.newLocalRefs, Thread.attached]
  refine ⟨⟨?_, hb.restored, hb.paired, hb.outermost, ?_, hb.called⟩, ?_⟩
  · intro sc hm
    obtain ⟨env, he, hsc⟩ := hb.usable sc hm
    exact ⟨{ env with localRefs := env.localRefs + created },
      by simp [Thread.newLocalRefs, he], hsc⟩
  · intro hempty
    exact ha.trans (hb.settled hempty)
  · change Open a s.scopes (s.thread.newLocalRefs created).attached
    rw [ha]
    exact ho

/-- The innermost scope gives the thread back as it found it. It is the outermost one
too when that means detaching. -/
theorem destroy_sound {a : Bool} {s : Nested} {sc : Scope} {rest : List Scope}
    (hs : Sound a s) (hsc : s.scopes = sc :: rest) :
    Sound a { s with
      thread := sc.jni.destroy s.thread
      scopes := rest
      closed := s.closed ++ [(sc.before, (sc.jni.destroy s.thread).attached)]
      detachedUnder :=
        if sc.jni.needDetach then s.detachedUnder ++ [rest.length] else s.detachedUnder } := by
  obtain ⟨hb, ho⟩ := hs
  have hattached : s.thread.attached = true := (hsc ▸ ho).attached_of_scope
  rw [hsc, hattached] at ho
  cases ho with
  | cons outer detach =>
    have hafter : (sc.jni.destroy s.thread).attached = sc.before := by
      unfold JniEnv.destroy
      rw [detach]
      cases hbefore : sc.before with
      | true => simpa using hattached
      | false => rfl
    have hpaired := hb.paired
    rw [hsc, List.countP_cons, detach] at hpaired
    refine ⟨⟨?_, ?_, ?_, ?_, ?_, hb.called⟩, ?_⟩
    · intro outer' hm
      have hbefore : sc.before = true := by
        cases rest with
        | nil => cases hm
        | cons o os => exact outer.attached_of_scope
      have hsame : sc.jni.destroy s.thread = s.thread := by
        simp [JniEnv.destroy, detach, hbefore]
      rw [hsame]
      exact hb.usable outer' (by rw [hsc]; exact List.mem_cons_of_mem _ hm)
    · intro c hc
      rcases List.mem_append.mp hc with hc | hc
      · exact hb.restored c hc
      · rw [List.mem_singleton.mp hc]
        exact hafter
    · unfold JniEnv.destroy
      rw [detach]
      cases hbefore : sc.before with
      | true => simpa [hbefore] using hpaired
      | false =>
        rw [hbefore] at hpaired
        simp only [Bool.not_false, if_true] at hpaired
        simp only [Bool.not_false, if_true, Thread.detachCurrentThread]
        omega
    · cases hbefore : sc.before with
      | true => simpa [detach, hbefore] using hb.outermost
      | false =>
        have hlast : rest = [] := by
          cases rest with
          | nil => rfl
          | cons o os =>
            have := outer.attached_of_scope
            rw [hbefore] at this
            cases this
        intro n hn
        simp only [detach, hbefore, Bool.not_false, if_true, hlast, List.length_nil,
          List.mem_append, List.mem_singleton] at hn
        rcases hn with hn | rfl
        · exact hb.outermost n hn
        · rfl
    · intro hempty
      have hrest : rest = [] := hempty
      rw [hrest] at outer
      cases outer with
      | nil => exact hafter
    · change Open a rest (sc.jni.destroy s.thread).attached
      rw [hafter]
      exact outer

/-- Any open scope's JniEnv is the thread's, so no call goes elsewhere. -/
theorem step_sound {a : Bool} {s t : Nested} {e : Event} (hs : Sound a s)
    (h : step s e = some t) : Sound a t := by
  cases e with
  | construct =>
    cases h
    exact construct_sound hs
  | call k created =>
    simp only [step] at h
    cases hk : s.scopes[k]? with
    | none => simp [hk] at h
    | some sc =>
      obtain ⟨env, he, hsc⟩ := hs.balanced.usable sc (mem_of_at hk)
      have hown : (sc.jni.env.isSome && sc.jni.env = s.thread.getEnv) = true := by
        simp [hsc, Thread.getEnv, he]
      rw [hk] at h
      simp only [hown, if_true] at h
      cases h
      exact call_sound created hs
  | destroy =>
    simp only [step] at h
    cases hsc : s.scopes with
    | nil => simp [hsc] at h
    | cons sc rest =>
      rw [hsc] at h
      cases h
      exact destroy_sound hs hsc

theorem initial_sound (localRefs : Option Nat) :
    Sound localRefs.isSome (Nested.initial localRefs) := by
  have ha : (Thread.initial localRefs).attached = localRefs.isSome := by
    cases localRefs <;> rfl
  refine ⟨⟨nofun, nofun, rfl, nofun, fun _ => ha, rfl⟩, ?_⟩
  change Open _ [] (Thread.initial localRefs).attached
  rw [ha]
  exact .nil

/-- In every state of every properly nested sequence of constructions, calls and
destructions, on a thread that came attached or not. -/
theorem scopes_balanced (localRefs : Option Nat) (es : List Event) {s : Nested}
    (hr : run step (Nested.initial localRefs) es = some s) : Balanced localRefs.isSome s :=
  (run_invariant (fun _ _ _ hs h => step_sound hs h) (initial_sound localRefs) hr).balanced

/-- Two scopes inside one, on a thread that came detached. -/
theorem scopes_balanced_siblings :
    Balanced false ((run step (Nested.initial none)
      [.construct, .construct, .call 1 2, .destroy, .construct, .destroy, .call 0 1,
        .destroy]).get (by decide)) :=
  scopes_balanced none _ (Option.some_get _).symm

theorem Open.attached_same {a b b' : Bool} {scopes : List Scope} (h : Open a scopes b)
    (h' : Open a scopes b') : b = b' := by
  cases h with
  | nil =>
    cases h'
    rfl
  | cons =>
    cases h'
    rfl

/-- No call stands outside the code's own blocks. -/
def Code.Closed : Code → Prop
  | .done => True
  | .call _ _ => False
  | .scope _ rest => Code.Closed rest

/-- The events of a piece of code run through, from inside other scopes too, leave
those as they were, and do to the thread what the code does. -/
theorem run_code (code : Code) {a : Bool} {s : Nested} (hs : Sound a s)
    (hinside : s.scopes ≠ [] ∨ Code.Closed code) :
    ∃ t, run step s code.events = some t ∧ t.scopes = s.scopes ∧
      t.thread = code.exec s.thread := by
  induction code generalizing s with
  | done => exact ⟨s, rfl, rfl, rfl⟩
  | call created rest ih =>
    obtain ⟨sc, scs, hsc⟩ := List.exists_cons_of_ne_nil (hinside.resolve_right fun h => h)
    obtain ⟨env, he, hown⟩ := hs.balanced.usable sc (by rw [hsc]; exact List.mem_cons_self)
    have hstep : step s (.call 0 created) =
        some { s with thread := s.thread.newLocalRefs created } := by
      simp [step, hsc, hown, Thread.getEnv, he]
    obtain ⟨t, ht, hscopes, hthread⟩ := ih (step_sound hs hstep)
      (Or.inl (by rw [hsc]; exact List.cons_ne_nil sc scs))
    exact ⟨t, by simp [Code.events, hstep, ht], hscopes, hthread⟩
  | scope body rest ihBody ihRest =>
    have hopen : step s .construct = some { s with
        thread := (JniEnv.construct s.thread).1
        scopes := ⟨(JniEnv.construct s.thread).2, s.thread.attached⟩ :: s.scopes } := rfl
    have hs1 := step_sound hs hopen
    obtain ⟨t1, ht1, hscopes1, hthread1⟩ := ihBody hs1 (Or.inl (List.cons_ne_nil _ _))
    have hclose : step t1 .destroy = some { t1 with
        thread := (JniEnv.construct s.thread).2.destroy t1.thread
        scopes := s.scopes
        closed := t1.closed ++ [(s.thread.attached,
          ((JniEnv.construct s.thread).2.destroy t1.thread).attached)]
        detachedUnder :=
          if (JniEnv.construct s.thread).2.needDetach then t1.detachedUnder ++ [s.scopes.length]
          else t1.detachedUnder } := by
      simp only [step, hscopes1]
    have hs2 := step_sound (run_invariant (fun _ _ _ hs h => step_sound hs h) hs1 ht1) hclose
    obtain ⟨t, ht, hscopes, hthread⟩ := ihRest hs2 hinside
    refine ⟨t, ?_, hscopes, ?_⟩
    · rw [Code.events, run_cons, hopen, Option.bind_some, run_append, ht1, Option.bind_some,
        run_cons, hclose, Option.bind_some, ht]
    · rw [hthread, hthread1]
      rfl

/-- Each of the library's entry points leaves the thread attached exactly if it was,
on a thread inside any scopes, and whatever the Java code it calls enters. -/
theorem entry_points_restore {a : Bool} {s : Nested} (hs : Sound a s)
    (known answered : Bool) (java : Code) {code : Code}
    (hcode : code ∈ [sendConcurrentMessageToPlatformWorker java, initializeChannel known,
      releaseGlobalReferenceByPointer answered java,
      sendSynchronousMessageToPlatform known answered java]) :
    ∃ t, run step s code.events = some t ∧ t.scopes = s.scopes ∧
      t.thread.attached = s.thread.attached := by
  have hclosed : Code.Closed code := by
    simp only [List.mem_cons, List.not_mem_nil, or_false] at hcode
    rcases hcode with rfl | rfl | rfl | rfl
    · trivial
    · cases known <;> trivial
    · cases answered <;> trivial
    · trivial
  obtain ⟨t, ht, hscopes, _⟩ := run_code code hs (Or.inr hclosed)
  have htsound := run_invariant (fun _ _ _ hs h => step_sound hs h) hs ht
  refine ⟨t, ht, hscopes, ?_⟩
  exact (hscopes ▸ htsound.opened).attached_same hs.opened

/-- A synchronous message on a detached thread, whose Java code drops another reply. -/
theorem entry_points_restore_reentered :
    ∃ t, run step (Nested.initial none) (sendSynchronousMessageToPlatform false true
        (releaseGlobalReferenceByPointer true .done)).events = some t ∧
      t.scopes = [] ∧ t.thread.attached = false :=
  entry_points_restore (initial_sound none) false true (releaseGlobalReferenceByPointer true .done)
    (by simp)

end NativeChannel.ScopeBalance
