import NativeChannel.Proofs.ProcessInvariants

namespace NativeChannel.ApiInit
open Runs ConcurrentChannel Wrapper ProcessInvariants

/-- No pointer of dart_api_dl.c was called before `Dart_InitializeApiDL` set it. -/
def NoNullCall (s : Process) : Prop := s.nullCall = false

section Vm
variable [Vm]

/-- Dart builds no view of this result: it is null in memory that was zero, or
`asTypedList` does not take the length. -/
def Unseen (fresh : SynchronousResultWrapper) : Option DirectByteBuffer → Prop
  | none => fresh.data = 0 ∨ ¬ Vm.Takes fresh.length
  | some result => ¬ Vm.Takes result.capacity

/-- A synchronous send whose result Dart builds a view of comes after the first use of
`ConcurrentNativeBinaryMessenger.instance` in the process. -/
def ConcurrentFirst (s : Process) : Event → Prop
  | .sendSynchronous _ result fresh => Unseen fresh result ∨ s.apiDL = true
  | _ => True

instance (fresh : SynchronousResultWrapper) :
    (result : Option DirectByteBuffer) → Decidable (Unseen fresh result)
  | none => inferInstanceAs (Decidable (fresh.data = 0 ∨ ¬ Vm.Takes fresh.length))
  | some result => inferInstanceAs (Decidable (¬ Vm.Takes result.capacity))

instance (s : Process) : (e : Event) → Decidable (ConcurrentFirst s e)
  | .sendSynchronous _ result fresh =>
    inferInstanceAs (Decidable (Unseen fresh result ∨ s.apiDL = true))
  | .newSynchronousMethodChannel _ | .newConcurrentMethodChannel _ _ _ | .instance_ _ _
  | .send _ _ _ _ | .onReply _ | .notifyOne _ | .test _ | .block _ | .wake _ | .frontPop _
  | .call _ _ | .handle _ _ _ | .finish _ => isTrue trivial

theorem built_none_iff (fresh : SynchronousResultWrapper) (result : Option DirectByteBuffer) :
    (fresh.fill result).built = none ↔ Unseen fresh result := by
  cases result with
  | none =>
    by_cases h : fresh.data = 0 <;>
      simp [SynchronousResultWrapper.fill, SynchronousResultWrapper.built,
        SynchronousResultWrapper.received, SynchronousResultWrapper.isNull,
        SynchronousResultWrapper.view, Unseen, h]
  | some b =>
    simp [SynchronousResultWrapper.fill, SynchronousResultWrapper.built,
      SynchronousResultWrapper.received, SynchronousResultWrapper.isNull,
      SynchronousResultWrapper.view, Unseen, b.nonNull]

end Vm

theorem nullCall_callDL (s : Process) (ha : s.apiDL = true) : s.callDL.nullCall = s.nullCall := by
  simp [Process.callDL, ha]

theorem nullCall_registerFinalizer (s : Process) (v : Option View) (ha : s.apiDL = true) :
    (s.registerFinalizer v).nullCall = s.nullCall := by
  cases v with
  | none => rfl
  | some v => exact nullCall_callDL s ha

theorem nullCall_post (s : Process) (w : Tagged MessageWrapper) (ha : s.apiDL = true) :
    (s.post w).nullCall = s.nullCall := by
  unfold Process.post
  split
  · exact nullCall_callDL s ha
  · exact nullCall_callDL s ha

section Steps
variable [Vm]

/-- The concurrent channel uses the pointers only for messages of an instance, so
only the synchronous channel can be too early. -/
theorem step_noNullCall {s t : Process} {e : Event} (hj : LazyInit s) (hs : NoNullCall s)
    (h : step s e = some t) : NoNullCall t ↔ ConcurrentFirst s e := by
  obtain ⟨_, hm⟩ := step_moves h
  unfold NoNullCall at hs ⊢
  cases hm with
  | newSynchronous => exact iff_of_true hs trivial
  | withMessenger => exact iff_of_true hs trivial
  | @touched a e he =>
    refine iff_of_true hs ?_
    cases e <;> trivial
  | @construct a n e pool he =>
    refine iff_of_true hs ?_
    cases e <;> trivial
  | send => exact iff_of_true hs trivial
  | sendSynchronous a result fresh =>
    change (s.registerFinalizer (fresh.fill result).built).nullCall = false ↔
      Unseen fresh result ∨ s.apiDL = true
    rw [← built_none_iff]
    cases (fresh.fill result).built with
    | none => exact iff_of_true hs (Or.inl rfl)
    | some v =>
      change (s.nullCall || !s.apiDL) = false ↔ some v = none ∨ s.apiDL = true
      rw [hs]
      simp
  | @schedule e f pool he =>
    refine iff_of_true hs ?_
    cases e <;> trivial
  | call => exact iff_of_true hs trivial
  | handle => exact iff_of_true hs trivial
  | reply hk =>
    refine iff_of_true ?_ trivial
    rw [nullCall_post _ _ (by simpa using apiDL_of_handling hj hk)]
    exact hs
  | onReply hp =>
    refine iff_of_true ?_ trivial
    rw [nullCall_registerFinalizer _ _ (by simpa using apiDL_of_posted hj hp)]
    exact hs

theorem noNullCall_exact : Exact step LazyInit NoNullCall ConcurrentFirst where
  keeps _ _ _ hs h := step_lazyInit hs h
  meets _ _ _ hj hs h := step_noNullCall hj hs h

/-- From library load on, a run calls no null pointer exactly when each of its
synchronous results that Dart builds a view of comes after the concurrent
messenger was first used. -/
theorem no_null_call_iff (es : List Event) (hr : (run step Process.initial es).isSome) :
    Along step NoNullCall Process.initial es ↔
      AllSteps step ConcurrentFirst Process.initial es := by
  obtain ⟨t, ht⟩ := Option.isSome_iff_exists.mp hr
  exact noNullCall_exact.along_iff initial_lazyInit rfl ht

end Steps

attribute [local instance] Vm.lp64

/-- Two null results, in zeroed memory and in memory that `asTypedList` throws at, and a
buffer once the messenger was used. -/
theorem no_null_call_after_instance :
    Along step NoNullCall Process.initial
      [.newSynchronousMethodChannel 0, .sendSynchronous 0 none ⟨5, 0⟩,
        .sendSynchronous 0 none ⟨-1, 4096⟩, .newConcurrentMethodChannel 0 false 8,
        .sendSynchronous 0 (some ⟨4096, 3, by decide, by decide⟩) ⟨0, 0⟩] :=
  (no_null_call_iff _ (by decide)).mpr (by decide)

/-- An application that only uses the synchronous channel: its first reply other
than null registers a finalizer through a null pointer. -/
theorem synchronous_only_calls_null :
    ∃ s, run step Process.initial [.newSynchronousMethodChannel 0,
        .sendSynchronous 0 (some ⟨4096, 3, by decide, by decide⟩) ⟨0, 0⟩] = some s ∧
      ¬ NoNullCall s :=
  ⟨_, rfl, nofun⟩

end NativeChannel.ApiInit
