import NativeChannel.Proofs.EraseRace

namespace NativeChannel.DeletedOnce
open Runs Counts FinalizerSteps ReleaseSteps
open Finalizer (JavaBuffer GlobalRef)
open EraseRace (Finishes)

/-- No release is about to delete a reference that is deleted already. -/
def DeletesLive (s : Process) : Prop :=
  ∀ x ∈ s.releases, ∀ r, x.phase = .found r →
    ∀ g, s.shared.globalRefs[r]? = some g → g.deleted = false

/-- No lookup finds a reference that another release under way has found. -/
def FindsAlone (s : Process) : Event → Prop
  | .lookUp j => ∀ x, s.releases[j]? = some x →
      ∀ r, (s.shared.globalReferences x.ptr).join = some r →
        ∀ y ∈ s.releases, Release.object y ≠ some r
  | _ => True

instance (s : Process) : (e : Event) → Decidable (FindsAlone s e)
  | .lookUp j =>
    (inferInstance : Decidable (∀ x ∈ s.releases[j]?,
      ∀ r ∈ (s.shared.globalReferences x.ptr).join, ∀ y ∈ s.releases, Release.object y ≠ some r))
  | .allocate _ _ | .collect _ | .newGlobalRef _ | .associate _ | .handOver _ _ | .receive _
  | .dartFinalizer _ | .deleteGlobalRef _ | .erase _ => isTrue trivial

@[simp] theorem object_entered (m p : Nat) : Release.object ⟨m, p, .entered⟩ = none := rfl

@[simp] theorem object_found (m p r : Nat) : Release.object ⟨m, p, .found r⟩ = some r := rfl

@[simp] theorem object_deleted (m p r : Nat) : Release.object ⟨m, p, .deleted r⟩ = some r := rfl

@[simp] theorem object_returned (m p : Nat) : Release.object ⟨m, p, .returned⟩ = none := rfl

/-- The releases under way that found `r`. -/
def finders (s : Process) (r : Nat) : Nat :=
  s.releases.countP fun x => Release.object x == some r

/-- The entry of a deleted reference has a release that is about to erase it. -/
structure Single (s : Process) : Prop where
  formed : Formed s
  current : ∀ p r g, s.shared.globalReferences p = some (some r) →
    s.shared.globalRefs[r]? = some g → g.deleted = true →
    ∃ x ∈ s.releases, x.phase = .deleted r ∧ x.ptr = p
  gone : ∀ x ∈ s.releases, ∀ r, x.phase = .deleted r →
    ∀ g, s.shared.globalRefs[r]? = some g → g.deleted = true
  alone : ∀ r, finders s r ≤ 1
  live : DeletesLive s

section Single
variable {s : Process}

/-- Nothing is deleted or found, and the releases that return take their entries along. -/
theorem Single.of_change {t : Process} (hs : Single s) (hf : Formed t)
    (hrefs : ∀ r p, AssociatedWith s r p → ∀ g, t.shared.globalRefs[r]? = some g →
      ∃ g', s.shared.globalRefs[r]? = some g' ∧ g'.deleted = g.deleted)
    (hentry : ∀ p r g, t.shared.globalReferences p = some (some r) →
      t.shared.globalRefs[r]? = some g → g.deleted = true →
      s.shared.globalReferences p = some (some r))
    (hreleases : ∀ x ∈ t.releases, (Release.object x).isSome = true → x ∈ s.releases)
    (hstay : ∀ x ∈ s.releases, ∀ r, x.phase = .deleted r →
      t.shared.globalReferences x.ptr = some (some r) → x ∈ t.releases)
    (hcount : ∀ r, finders t r ≤ finders s r) : Single t := by
  have hold : ∀ x ∈ t.releases, ∀ r, Release.object x = some r →
      x ∈ s.releases ∧ ∀ g, t.shared.globalRefs[r]? = some g →
        ∃ g', s.shared.globalRefs[r]? = some g' ∧ g'.deleted = g.deleted := by
    intro x hx r hr
    have hx := hreleases x hx (by rw [hr]; rfl)
    exact ⟨hx, hrefs r x.ptr (hs.formed.found x hx r hr)⟩
  refine ⟨hf, ?_, ?_, ?_, ?_⟩
  · intro p r g hp hg hd
    have hp' := hentry p r g hp hg hd
    obtain ⟨g', hg', hsame⟩ := hrefs r p (hs.formed.entries p r hp') g hg
    obtain ⟨x, hx, hphase, hptr⟩ := hs.current p r g' hp' hg' (hsame.trans hd)
    exact ⟨x, hstay x hx r hphase (by rw [hptr]; exact hp), hphase, hptr⟩
  · intro x hx r hphase g hg
    obtain ⟨hx, hback⟩ := hold x hx r (by rw [Release.object, hphase])
    obtain ⟨g', hg', hsame⟩ := hback g hg
    rw [← hsame]
    exact hs.gone x hx r hphase g' hg'
  · intro r
    exact Nat.le_trans (hcount r) (hs.alone r)
  · intro x hx r hphase g hg
    obtain ⟨hx, hback⟩ := hold x hx r (by rw [Release.object, hphase])
    obtain ⟨g', hg', hsame⟩ := hback g hg
    rw [← hsame]
    exact hs.live x hx r hphase g' hg'

/-- The case where references, entries and releases stay. -/
theorem Single.of_same {t : Process} (hs : Single s) (hf : Formed t)
    (hrefs : t.shared.globalRefs = s.shared.globalRefs)
    (hentries : t.shared.globalReferences = s.shared.globalReferences)
    (hreleases : t.releases = s.releases) : Single t := by
  refine hs.of_change hf ?_ ?_ ?_ ?_ ?_
  · intro r p _ g hg
    exact ⟨g, hrefs ▸ hg, rfl⟩
  · intro p r g hp _ _
    exact hentries ▸ hp
  · intro x hx _
    exact hreleases ▸ hx
  · intro x hx r _ _
    exact hreleases ▸ hx
  · intro r
    unfold finders
    rw [hreleases]

theorem finders_set {j r : Nat} {x y : Release} (hj : s.releases[j]? = some x) :
    (s.releases.set j y).countP (fun x => Release.object x == some r) +
        (if Release.object x = some r then 1 else 0) =
      finders s r + if Release.object y = some r then 1 else 0 := by
  have hset := countP_set_add (fun x => Release.object x == some r) y hj
  simpa only [finders, beq_iff_eq] using hset

theorem newGlobalRef_single {reply : JavaBuffer} (hs : Single s)
    (held : s.shared.holds reply = true) :
    Single { s with
      shared := s.shared.newGlobalRef reply
      replies := s.replies ++ [⟨reply, s.shared.globalRefs.length, .created⟩] } := by
  refine hs.of_change (newGlobalRef_formed hs.formed held) ?_ (fun _ _ _ hp _ _ => hp)
    (fun _ hx _ => hx) (fun _ hx _ _ _ => hx) fun _ => Nat.le_refl _
  intro r p ha g hg
  obtain ⟨x, hx, _⟩ := ha
  change (s.shared.globalRefs ++ [_])[r]? = some g at hg
  rw [List.getElem?_append_left (List.getElem?_eq_some_iff.mp hx).1] at hg
  exact ⟨g, hg, rfl⟩

/-- An assignment is of a reference that nobody deleted. -/
theorem associate_single {i : Nat} {object : JavaBuffer} {ref : Nat} (hs : Single s)
    (hi : s.replies[i]? = some ⟨object, ref, .created⟩) :
    Single ((s.associate object.buffer.address ref).setReply i ⟨object, ref, .associated⟩) := by
  obtain ⟨g, hg, _, hlive, _⟩ := hs.formed.created _ (mem_of_at hi) rfl
  refine hs.of_change (associate_formed hs.formed hi) ?_ ?_ (fun _ hx _ => hx)
    (fun _ hx _ _ _ => hx) fun _ => Nat.le_refl _
  · intro r p _ x hx
    rw [associate_refs i _ hg] at hx
    by_cases hr : ref = r
    · subst r
      rw [List.getElem?_set_self (List.getElem?_eq_some_iff.mp hg).1] at hx
      cases hx
      exact ⟨g, hg, rfl⟩
    · rw [List.getElem?_set_ne hr] at hx
      exact ⟨x, hx, rfl⟩
  · intro p r x hp hx hd
    change Function.update s.shared.globalReferences object.buffer.address (some (some ref)) p =
      some (some r) at hp
    by_cases hpa : p = object.buffer.address
    · rw [hpa, Function.update_self] at hp
      cases hp
      rw [associate_refs i _ hg,
        List.getElem?_set_self (List.getElem?_eq_some_iff.mp hg).1] at hx
      cases hx
      rw [hlive] at hd
      cases hd
    · rwa [Function.update_of_ne hpa] at hp

theorem dartFinalizer_single {k memory ptr : Nat} {v : Finalizer.DartView} (hs : Single s) :
    Single { s with
      shared := { s.shared with views := s.shared.views.set k v }
      releases := s.releases ++ [⟨memory, ptr, .entered⟩] } := by
  have hback : ∀ x ∈ s.releases ++ [(⟨memory, ptr, .entered⟩ : Release)],
      (Release.object x).isSome = true → x ∈ s.releases := by
    intro x hx hobject
    rcases List.mem_append.mp hx with hx | hx
    · exact hx
    · rw [List.mem_singleton.mp hx] at hobject
      cases hobject
  refine hs.of_change ?_ (fun _ _ _ g hg => ⟨g, hg, rfl⟩) (fun _ _ _ hp _ _ => hp) hback
    (fun _ hx _ _ _ => List.mem_append.mpr (Or.inl hx)) ?_
  · refine hs.formed.of_same rfl rfl (fun _ _ h => h) ?_ fun _ _ h _ => h
    intro x hx r hr
    exact hs.formed.found x (hback x hx (by rw [hr]; rfl)) r hr
  · intro r
    simp [finders]

/-- A release that returns, with the entry of its pointer cleared. -/
theorem returned_single {j : Nat} {x : Release} {entry : Option (Option Nat)} {l : List Erasure}
    (hs : Single s) (hj : s.releases[j]? = some x) (he : entry.join = none) :
    Single { (s.setEntry x.ptr entry).setRelease j { x with phase := .returned } with
      erasures := l } := by
  have hback : ∀ y ∈ s.releases.set j { x with phase := .returned },
      (Release.object y).isSome = true → y ∈ s.releases :=
    fun y hy hobject => EraseRace.mem_setRelease_returned hy hobject
  refine hs.of_change ?_ (fun _ _ _ g hg => ⟨g, hg, rfl⟩)
    (fun _ _ _ hp _ _ => (ViewLifetime.entry_of_cleared he hp).2) hback ?_ ?_
  · refine hs.formed.of_same rfl rfl ?_ ?_ fun _ _ h _ => h
    · intro p r hp
      exact (ViewLifetime.entry_of_cleared he hp).2
    · intro y hy r hr
      exact hs.formed.found y (hback y hy (by rw [hr]; rfl)) r hr
  · intro y hy r _ hp
    refine mem_set_of_ne hj hy ?_
    intro hyx
    exact (ViewLifetime.entry_of_cleared he hp).1 (hyx ▸ rfl)
  · intro r
    have hset := finders_set (r := r) (y := { x with phase := .returned }) hj
    have hnone : Release.object { x with phase := .returned } ≠ some r := nofun
    rw [if_neg hnone] at hset
    exact Nat.le.intro hset

/-- A release that is the only one to find its reference finds it alive. -/
theorem lookUp_single {j memory ptr object : Nat} (hs : Single s)
    (hj : s.releases[j]? = some ⟨memory, ptr, .entered⟩)
    (entry : s.shared.globalReferences ptr = some (some object))
    (hc : ∀ y ∈ s.releases, Release.object y ≠ some object) :
    Single (s.setRelease j ⟨memory, ptr, .found object⟩) := by
  have hassoc := hs.formed.entries ptr object entry
  refine ⟨hs.formed.of_same rfl rfl (fun _ _ h => h) ?_ (fun _ _ h _ => h), ?_, ?_, ?_, ?_⟩
  · apply forall_mem_set hs.formed.found
    intro r hr
    cases hr
    exact hassoc
  · intro p r g hp hg hd
    obtain ⟨x, hx, hphase, hptr⟩ := hs.current p r g hp hg hd
    refine ⟨x, mem_set_of_ne hj hx ?_, hphase, hptr⟩
    intro he
    rw [he] at hphase
    cases hphase
  · apply forall_mem_set hs.gone
    intro r hphase
    cases hphase
  · intro r
    have hset := finders_set (r := r) (y := ⟨memory, ptr, .found object⟩) hj
    have hold := hs.alone r
    change (s.releases.set j _).countP _ ≤ 1
    by_cases hr : object = r
    · subst r
      have hnone : finders s object = 0 :=
        List.countP_eq_zero.mpr fun y hy hobject => hc y hy (beq_iff_eq.mp hobject)
      simp only [object_entered, object_found, reduceCtorEq, if_false, if_true] at hset
      omega
    · simp only [object_entered, object_found, reduceCtorEq, if_false, Option.some.injEq, hr] at hset
      omega
  · apply forall_mem_set hs.live
    intro r hphase g hg
    cases hphase
    by_contra hd
    obtain ⟨x, hx, hphase, _⟩ := hs.current ptr object g entry hg (by simpa using hd)
    exact hc x hx (by rw [Release.object, hphase])

/-- Who deletes a reference is the only one to have found it. -/
theorem deleteGlobalRef_single {j memory ptr object : Nat} (hs : Single s)
    (hj : s.releases[j]? = some ⟨memory, ptr, .found object⟩) :
    Single ({ s with shared := s.shared.deleteGlobalRef object }.setRelease j
      ⟨memory, ptr, .deleted object⟩) := by
  have hmem : (⟨memory, ptr, .found object⟩ : Release) ∈ s.releases := mem_of_at hj
  have hfound := hs.formed.found _ hmem object rfl
  obtain ⟨g, hg, hassoc⟩ := hfound
  refine ⟨deleteGlobalRef_formed hs.formed hj, ?_, ?_, ?_, ?_⟩
  · intro p r x hp hx hd
    rcases deleted_at hg hx with ⟨rfl, _⟩ | ⟨hr, hx⟩
    · have hpp := (hs.formed.entries p r hp).unique ⟨g, hg, hassoc⟩
      exact ⟨_, mem_set_at hj, rfl, hpp.symm⟩
    · obtain ⟨y, hy, hphase, hptr⟩ := hs.current p r x hp hx hd
      refine ⟨y, mem_set_of_ne hj hy ?_, hphase, hptr⟩
      intro he
      rw [he] at hphase
      cases hphase
  · have hold : ∀ x ∈ s.releases, ∀ r, x.phase = .deleted r → ∀ y,
        (s.shared.deleteGlobalRef object).globalRefs[r]? = some y → y.deleted = true := by
      intro x hx r hphase y hy
      rcases deleted_at hg hy with ⟨_, rfl⟩ | ⟨_, hy⟩
      · rfl
      · exact hs.gone x hx r hphase y hy
    apply forall_mem_set hold
    intro r hphase y hy
    cases hphase
    rcases deleted_at hg hy with ⟨_, rfl⟩ | ⟨hr, _⟩
    · rfl
    · exact absurd rfl hr
  · intro r
    have hset := finders_set (r := r) (y := ⟨memory, ptr, .deleted object⟩) hj
    simp only [object_found, object_deleted] at hset
    have hsame := Nat.add_right_cancel hset
    change (s.releases.set j _).countP _ ≤ 1
    rw [hsame]
    exact hs.alone r
  · intro x hx r hphase y hy
    obtain ⟨i, hi⟩ := List.mem_iff_getElem?.mp hx
    have hne : x ≠ ⟨memory, ptr, .deleted object⟩ := by
      intro he
      rw [he] at hphase
      cases hphase
    obtain ⟨hij, hi⟩ := at_of_set hi hne
    rcases deleted_at hg hy with ⟨rfl, _⟩ | ⟨_, hy⟩
    · -- two releases would have found it
      have hset := finders_set (r := r) (y := ⟨memory, ptr, .returned⟩) hj
      simp only [object_found, object_returned, reduceCtorEq, if_false, if_true] at hset
      have hother : 0 < (s.releases.set j ⟨memory, ptr, .returned⟩).countP
          (fun x => Release.object x == some r) :=
        countP_pos_at ((List.getElem?_set_ne hij).trans hi) (by simp [Release.object, hphase])
      have hold := hs.alone r
      omega
    · exact hs.live x (mem_of_at hi) r hphase y hy

theorem step_single {t : Process} {e : Event} (hs : Single s) (hc : FindsAlone s e)
    (h : step s e = some t) : Single t := by
  have hsame : ∀ {t : Process}, t.shared.allocations = s.shared.allocations →
      t.shared.globalRefs = s.shared.globalRefs →
      t.shared.globalReferences = s.shared.globalReferences → t.releases = s.releases →
      (∀ (i : Nat) (x : Reply), t.replies[i]? = some x → x.phase = .created →
        s.replies[i]? = some x) → Single t := by
    intro t ha hg he hr hcreated
    refine hs.of_same (hs.formed.of_same ha hg (fun _ _ hp => he ▸ hp) ?_ hcreated) hg he hr
    rw [hr]
    exact hs.formed.found
  cases step_moves h with
  | allocate apart => exact hs.of_same (allocate_formed hs.formed apart) rfl rfl rfl
  | collect unused => exact hs.of_same (collect_formed hs.formed unused) rfl rfl rfl
  | newGlobalRef held => exact newGlobalRef_single hs held
  | associate hi => exact associate_single hs hi
  | handOver hi =>
    exact hsame rfl rfl rfl rfl fun j x hj hx => EraseRace.not_created_set (by simp) j x hj hx
  | receive => exact hsame rfl rfl rfl rfl fun _ _ h _ => h
  | receiveNull => exact hsame rfl rfl rfl rfl fun _ _ h _ => h
  | dartFinalizer => exact dartFinalizer_single hs
  | lookUpNull hj => exact returned_single (l := s.erasures) hs hj rfl
  | lookUp hj entry =>
    exact lookUp_single hs hj entry (hc _ hj _ (Option.join_eq_some_iff.mpr entry))
  | deleteGlobalRef hj => exact deleteGlobalRef_single hs hj
  | erase hj => exact returned_single hs hj rfl

theorem initial_single : Single Process.initial := by
  refine ⟨EraseRace.initial_safe.formed, EraseRace.initial_safe.current, ?_, ?_, ?_⟩
  · intro x hx
    cases hx
  · exact fun _ => Nat.zero_le 1
  · intro x hx
    cases hx

/-- Once a second release has found it, the reference is deleted twice. -/
theorem lookUp_twice {t : Process} {e : Event} (hs : Single s) (h : step s e = some t)
    (hc : ¬ FindsAlone s e) :
    ∃ xs, (∀ x ∈ xs, Finishes x) ∧ ∃ u, run step t xs = some u ∧ ¬ DeletesLive u := by
  cases step_moves h with
  | lookUpNull hj absent =>
    refine absurd ?_ hc
    intro x hx r hr
    rw [hj] at hx
    cases hx
    rw [absent] at hr
    cases hr
  | @lookUp j memory ptr object hj entry =>
    have hother : ∃ y ∈ s.releases, Release.object y = some object := by
      by_contra hno
      refine hc ?_
      intro x hx r hr y hy hobject
      rw [hj] at hx
      cases hx
      rw [entry] at hr
      cases hr
      exact hno ⟨y, hy, hobject⟩
    obtain ⟨⟨memory', ptr', phase⟩, hy, hobject⟩ := hother
    obtain ⟨i, hi⟩ := List.mem_iff_getElem?.mp hy
    have hij : j ≠ i := by
      intro he
      rw [← he, hj] at hi
      cases hi
      cases hobject
    obtain ⟨g, hg, _⟩ := hs.formed.found _ hy object hobject
    let t := s.setRelease j ⟨memory, ptr, .found object⟩
    have hjt : t.releases[j]? = some ⟨memory, ptr, .found object⟩ :=
      List.getElem?_set_self (List.getElem?_eq_some_iff.mp hj).1
    have hit : t.releases[i]? = some ⟨memory', ptr', phase⟩ := (List.getElem?_set_ne hij).trans hi
    cases phase with
    | found found =>
      cases hobject
      let u := t.deleteGlobalRef i ⟨memory', ptr', .found object⟩ object
      have hu : step t (.deleteGlobalRef i) = some u := by simp [step, hit, u]
      have hju : u.releases[j]? = some ⟨memory, ptr, .found object⟩ :=
        (List.getElem?_set_ne (Ne.symm hij)).trans hjt
      have hgu : u.shared.globalRefs[object]? = some { g with deleted := true } := by
        change (s.shared.deleteGlobalRef object).globalRefs[object]? = _
        rw [deleteGlobalRef_refs hg,
          List.getElem?_set_self (List.getElem?_eq_some_iff.mp hg).1]
      refine ⟨[.deleteGlobalRef i], by simp [Finishes], u, by simpa using hu, ?_⟩
      intro hlive
      exact absurd (hlive _ (mem_of_at hju) object rfl _ hgu) (by simp)
    | deleted deleted =>
      cases hobject
      refine ⟨[], by simp, t, rfl, ?_⟩
      intro hlive
      have hdead := hs.gone _ hy object rfl g hg
      rw [hlive _ (mem_of_at hjt) object rfl g hg] at hdead
      cases hdead
    | entered => cases hobject
    | returned => cases hobject
  | _ => exact absurd trivial hc

end Single

/-- In a run, and whatever the releases under way do next, no reference is passed to
`DeleteGlobalRef` twice exactly when no lookup finds a reference that another release
under way has found. -/
theorem deletesLive_iff (es : List Event) (hr : (run step Process.initial es).isSome = true) :
    Through step Finishes DeletesLive Process.initial es ↔
      AllSteps step FindsAlone Process.initial es := by
  obtain ⟨s, hs⟩ := Option.isSome_iff_exists.mp hr
  apply through_iff_of_breaks (I := Single) ?_ ?_ ?_ ?_ initial_single hs
  · intro s e t hi hc h
    exact step_single hi hc h
  · intro s e he
    cases e with
    | deleteGlobalRef => trivial
    | erase => trivial
    | _ => cases he
  · intro s hi
    exact hi.live
  · intro s e t hi h hc
    exact lookUp_twice hi h hc

/-- One buffer in two replies, with the second view finalized after the first. -/
theorem deletesLive_shared_buffer :
    Through step Finishes DeletesLive Process.initial
      [.allocate 4096 16,
        .newGlobalRef ⟨0, 4096, 16, by decide, by decide⟩,
        .newGlobalRef ⟨0, 4096, 16, by decide, by decide⟩, .associate 0, .associate 1,
        .handOver 0 (.message 1 ⟨0, 0, 0⟩), .handOver 1 (.message 2 ⟨0, 0, 0⟩),
        .receive 0, .receive 1, .dartFinalizer 0, .dartFinalizer 1, .lookUp 0,
        .deleteGlobalRef 0, .erase 0, .lookUp 1] :=
  (deletesLive_iff _ (by decide)).mpr (by decide)

end NativeChannel.DeletedOnce
