import NativeChannel.Proofs.EraseRace

namespace NativeChannel.ViewsHeld
open Runs Counts FinalizerSteps ReleaseSteps EraseRace
open Finalizer (JavaBuffer DartView Wrapped GlobalRef)
open ViewLifetime (Inside keepers)

/-- What no race takes away. An address in use is in the memory that any entry under that
address keeps, so a release deletes a reference to its own memory, be it its own or not. -/
structure Held (s : Process) : Prop where
  formed : Formed s
  inside : ∀ u ∈ users s, Inside s.shared u.1 u.2
  counted : ∀ m, (users s).countP (fun u => u.1 == m) ≤ keepers s.shared m
  named : ∀ p r g, s.shared.globalReferences p = some (some r) →
    s.shared.globalRefs[r]? = some g → ∀ u ∈ users s, u.2 = p → u.1 = g.object.memory
  own : ∀ x ∈ s.releases, ∀ r, Release.object x = some r →
    ∀ g, s.shared.globalRefs[r]? = some g → g.object.memory = x.memory

section Held
variable {s : Process}

/-- Users that pass something on or go away, and entries that go away. -/
theorem Held.handed (hs : Held s) {wrappers : List Wrapped} {views : List DartView}
    {replies : List Reply} {releases : List Release} {erasures : List Erasure}
    {entries : Nat → Option (Option Nat)}
    (hu : UsersWithin { s with
      shared := { s.shared with wrappers, views, globalReferences := entries }
      replies, releases, erasures } s)
    (hr : ∀ x ∈ releases, (Release.object x).isSome = true → x ∈ s.releases)
    (he : ∀ p r, entries p = some (some r) → s.shared.globalReferences p = some (some r))
    (hc : ∀ (i : Nat) (x : Reply), replies[i]? = some x → x.phase = .created →
      s.replies[i]? = some x) :
    Held { s with
      shared := { s.shared with wrappers, views, globalReferences := entries }
      replies, releases, erasures } := by
  refine ⟨hs.formed.of_same rfl rfl he ?_ hc, ?_, ?_, ?_, ?_⟩
  · intro x hx r hobject
    exact hs.formed.found x (hr x hx (by rw [hobject]; rfl)) r hobject
  · intro u hmem
    exact hs.inside u (hu.mem hmem)
  · intro m
    exact Nat.le_trans (hu _) (hs.counted m)
  · intro p r g hp hg u hmem
    exact hs.named p r g (he p r hp) hg u (hu.mem hmem)
  · intro x hx r hobject
    exact hs.own x (hr x hx (by rw [hobject]; rfl)) r hobject

theorem allocate_held {start size : Nat} (hs : Held s)
    (apart : ∀ x ∈ s.shared.allocations, x.apart start size = true) :
    Held { s with shared := { s.shared with
      allocations := s.shared.allocations ++ [⟨start, size, false⟩] } } := by
  refine ⟨allocate_formed hs.formed apart, ?_, hs.counted, hs.named, hs.own⟩
  intro u hu
  exact ViewLifetime.inside_allocate.mpr (Or.inl (hs.inside u hu))

/-- The collector takes memory without a reference, which has no user either. -/
theorem collect_held {m : Nat} (hs : Held s)
    (unused : ∀ g ∈ s.shared.globalRefs, g.deleted = true ∨ g.object.memory ≠ m) :
    Held { s with shared := { s.shared with
      allocations := s.shared.allocations.modify m fun x => { x with collected := true } } } := by
  refine ⟨collect_formed hs.formed unused, ?_, hs.counted, hs.named, hs.own⟩
  intro u hu
  refine ViewLifetime.inside_collect.mpr ⟨?_, hs.inside u hu⟩
  intro hm
  have hnone := Nat.le_zero.mp (ViewLifetime.keepers_unused unused ▸ hs.counted m)
  exact List.countP_eq_zero.mp hnone u hu (by simp [hm])

theorem newGlobalRef_held {reply : JavaBuffer} (hs : Held s) (held : s.shared.holds reply = true) :
    Held { s with
      shared := s.shared.newGlobalRef reply
      replies := s.replies ++ [⟨reply, s.shared.globalRefs.length, .created⟩] } := by
  have husers : users { s with
      shared := s.shared.newGlobalRef reply
      replies := s.replies ++ [⟨reply, s.shared.globalRefs.length, .created⟩] } = users s := by
    simp [users, Finalizer.Process.newGlobalRef, Reply.user]
  have hold : ∀ {r p : Nat} {g g' : GlobalRef}, AssociatedWith s r p →
      (s.shared.globalRefs ++ [g'])[r]? = some g → s.shared.globalRefs[r]? = some g := by
    intro r p g g' ha hg
    obtain ⟨x, hx, _⟩ := ha
    rwa [List.getElem?_append_left (List.getElem?_eq_some_iff.mp hx).1] at hg
  refine ⟨newGlobalRef_formed hs.formed held, ?_, ?_, ?_, ?_⟩
  · rw [husers]
    exact hs.inside
  · intro m
    rw [husers]
    refine Nat.le_trans (hs.counted m) ?_
    change s.shared.globalRefs.countP _ ≤ (s.shared.globalRefs ++ [_]).countP _
    rw [List.countP_append]
    exact Nat.le_add_right _ _
  · rw [husers]
    intro p r g hp hg
    exact hs.named p r g hp (hold (hs.formed.entries p r hp) hg)
  · intro x hx r hr g hg
    exact hs.own x hx r hr g (hold (hs.formed.found x hx r hr) hg)

/-- A new entry is for the memory at its address, and that is the memory of everything
that uses the address. -/
theorem associate_held {i : Nat} {object : JavaBuffer} {ref : Nat} (hs : Held s)
    (hi : s.replies[i]? = some ⟨object, ref, .created⟩) :
    Held ((s.associate object.buffer.address ref).setReply i ⟨object, ref, .associated⟩) := by
  obtain ⟨g, hg, hnone, hlive, hobject⟩ := hs.formed.created _ (mem_of_at hi) rfl
  have hobject : g.object = object := hobject
  have hin : Inside s.shared object.memory object.buffer.address :=
    hobject ▸ hs.formed.referenced g (mem_of_at hg) hlive
  have hinside : ∀ u ∈ users ((s.associate object.buffer.address ref).setReply i
      ⟨object, ref, .associated⟩), Inside s.shared u.1 u.2 := by
    intro u hu
    rcases mem_users_associate hi hu with hu | rfl
    · exact hs.inside u hu
    · exact hin
  have hfresh : ∀ {r p : Nat}, AssociatedWith s r p → ref ≠ r := by
    intro r p ha he
    obtain ⟨x, hx, hassoc⟩ := ha
    rw [← he, hg] at hx
    cases hx
    rw [hnone] at hassoc
    cases hassoc
  refine ⟨associate_formed hs.formed hi, hinside, ?_, ?_, ?_⟩
  · intro m
    rw [keepers_associate hs.formed hi, users_associate hi]
    exact Nat.add_le_add_right (hs.counted m) _
  · intro p r x hp hx u hu hup
    rw [associate_refs i _ hg] at hx
    change Function.update s.shared.globalReferences object.buffer.address (some (some ref)) p =
      some (some r) at hp
    by_cases hpa : p = object.buffer.address
    · rw [hpa, Function.update_self] at hp
      cases hp
      rw [List.getElem?_set_self (List.getElem?_eq_some_iff.mp hg).1] at hx
      cases hx
      have hu := hinside u hu
      rw [hup, hpa] at hu
      rw [hobject]
      exact hs.formed.disjoint _ _ _ hu hin
    · rw [Function.update_of_ne hpa] at hp
      rw [List.getElem?_set_ne (hfresh (hs.formed.entries p r hp))] at hx
      rcases mem_users_associate hi hu with hu | rfl
      · exact hs.named p r x hp hx u hu hup
      · exact absurd hup.symm hpa
  · intro x hx r hr y hy
    rw [associate_refs i _ hg,
      List.getElem?_set_ne (hfresh (hs.formed.found x hx r hr))] at hy
    exact hs.own x hx r hr y hy

/-- What a release finds under the address of its view is a reference to its memory. -/
theorem lookUp_held {j memory ptr object : Nat} (hs : Held s)
    (hj : s.releases[j]? = some ⟨memory, ptr, .entered⟩)
    (entry : s.shared.globalReferences ptr = some (some object)) :
    Held (s.setRelease j ⟨memory, ptr, .found object⟩) := by
  have hwithin : UsersWithin (s.setRelease j ⟨memory, ptr, .found object⟩) s := by
    intro p
    have hset := users_setRelease (y := ⟨memory, ptr, .found object⟩) hj p
    simp only [Release.user] at hset
    omega
  have huser : (memory, ptr) ∈ users s := by
    refine List.mem_append.mpr (Or.inr ?_)
    exact List.mem_filterMap.mpr ⟨_, mem_of_at hj, rfl⟩
  refine ⟨hs.formed.of_same rfl rfl (fun _ _ h => h) ?_ (fun _ _ h _ => h), ?_, ?_, ?_, ?_⟩
  · apply forall_mem_set hs.formed.found
    intro r hr
    cases hr
    exact hs.formed.entries ptr object entry
  · intro u hu
    exact hs.inside u (hwithin.mem hu)
  · intro m
    exact Nat.le_trans (hwithin _) (hs.counted m)
  · intro p r g hp hg u hu
    exact hs.named p r g hp hg u (hwithin.mem hu)
  · apply forall_mem_set hs.own
    intro r hr g hg
    cases hr
    exact (hs.named ptr object g entry hg _ huser rfl).symm

/-- One user goes, and at most one reference to its memory. It may be none: a race can
have deleted that reference already. -/
theorem deleteGlobalRef_held {j memory ptr object : Nat} (hs : Held s)
    (hj : s.releases[j]? = some ⟨memory, ptr, .found object⟩) :
    Held ({ s with shared := s.shared.deleteGlobalRef object }.setRelease j
      ⟨memory, ptr, .deleted object⟩) := by
  have hmem : (⟨memory, ptr, .found object⟩ : Release) ∈ s.releases := mem_of_at hj
  obtain ⟨g, hg, _⟩ := hs.formed.found _ hmem object rfl
  have hown : g.object.memory = memory := hs.own _ hmem object rfl g hg
  have hset := fun p => users_setRelease (y := ⟨memory, ptr, .deleted object⟩) hj p
  have hwithin : UsersWithin ({ s with shared := s.shared.deleteGlobalRef object }.setRelease j
      ⟨memory, ptr, .deleted object⟩) s := by
    intro p
    have hp := hset p
    simp only [Release.user, Option.toList, List.countP_nil] at hp
    exact Nat.le.intro hp
  have hobject : ∀ {r : Nat} {x : GlobalRef},
      (s.shared.deleteGlobalRef object).globalRefs[r]? = some x →
      ∃ y, s.shared.globalRefs[r]? = some y ∧ x.object = y.object := by
    intro r x hx
    rcases deleted_at hg hx with ⟨rfl, rfl⟩ | ⟨_, hx⟩
    · exact ⟨g, hg, rfl⟩
    · exact ⟨x, hx, rfl⟩
  refine ⟨deleteGlobalRef_formed hs.formed hj, ?_, ?_, ?_, ?_⟩
  · intro u hu
    exact hs.inside u (hwithin.mem hu)
  · intro m
    have hcount := hset fun u => u.1 == m
    simp only [Release.user, Option.toList, List.countP_cons, List.countP_nil] at hcount
    have hkeep := keepers_delete_le hg m
    rw [hown] at hkeep
    have hold := hs.counted m
    change (users (s.setRelease j ⟨memory, ptr, .deleted object⟩)).countP _ ≤
      keepers (s.shared.deleteGlobalRef object) m
    omega
  · intro p r x hp hx u hu hup
    obtain ⟨y, hy, hxy⟩ := hobject hx
    rw [hxy]
    exact hs.named p r y hp hy u (hwithin.mem hu) hup
  · have hold : ∀ x ∈ s.releases, ∀ r, Release.object x = some r → ∀ y,
        (s.shared.deleteGlobalRef object).globalRefs[r]? = some y → y.object.memory = x.memory := by
      intro x hx r hr y hy
      obtain ⟨z, hz, hyz⟩ := hobject hy
      rw [hyz]
      exact hs.own x hx r hr z hz
    apply forall_mem_set hold
    exact hold ⟨memory, ptr, .found object⟩ hmem

theorem step_held {t : Process} {e : Event} (hs : Held s) (h : step s e = some t) : Held t := by
  have hsame : ∀ x ∈ s.releases, (Release.object x).isSome = true → x ∈ s.releases :=
    fun _ hx _ => hx
  have hreturned : ∀ {j memory ptr : Nat}, ∀ x ∈ s.releases.set j ⟨memory, ptr, .returned⟩,
      (Release.object x).isSome = true → x ∈ s.releases := by
    intro j memory ptr x hx hobject
    exact mem_setRelease_returned (x := ⟨memory, ptr, .returned⟩) hx hobject
  cases step_moves h with
  | allocate apart => exact allocate_held hs apart
  | collect unused => exact collect_held hs unused
  | newGlobalRef held => exact newGlobalRef_held hs held
  | associate hi => exact associate_held hs hi
  | handOver hi =>
    have hu := (users_handOver hi).within
    rw [fresh_received]
    exact hs.handed hu hsame (fun _ _ h => h) fun j x hj hx => not_created_set (by simp) j x hj hx
  | receive hk hf hv =>
    exact hs.handed (users_receive hk hf hv).within hsame (fun _ _ h => h) fun _ _ h _ => h
  | receiveNull hk _ hv =>
    exact hs.handed (users_receiveNull hk hv).within hsame (fun _ _ h => h) fun _ _ h _ => h
  | dartFinalizer hk hf =>
    refine hs.handed (users_dartFinalizer hk hf).within ?_ (fun _ _ h => h) fun _ _ h _ => h
    intro x hx hobject
    rcases List.mem_append.mp hx with hx | hx
    · exact hx
    · rw [List.mem_singleton.mp hx] at hobject
      cases hobject
  | lookUpNull hj =>
    refine hs.handed (users_returned hj) hreturned ?_ fun _ _ h _ => h
    exact fun p r hp => (ViewLifetime.entry_of_cleared rfl hp).2
  | lookUp hj entry => exact lookUp_held hs hj entry
  | deleteGlobalRef hj => exact deleteGlobalRef_held hs hj
  | erase hj =>
    refine hs.handed (users_returned hj) hreturned ?_ fun _ _ h _ => h
    exact fun p r hp => (ViewLifetime.entry_of_cleared rfl hp).2

theorem initial_held : Held Process.initial := by
  refine ⟨initial_safe.formed, initial_safe.inside, initial_safe.counted, ?_, initial_safe.own⟩
  intro p r g hp
  cases hp

/-- The views in use count among the users of their memory. -/
theorem views_le_keepers (hs : Held s) (m : Nat) :
    s.shared.views.countP (ViewLifetime.DartView.uses m) ≤ keepers s.shared m := by
  refine Nat.le_trans ?_ (hs.counted m)
  have hviews : s.shared.views.countP (ViewLifetime.DartView.uses m) =
      (s.shared.views.filterMap DartView.user).countP (fun u => u.1 == m) := by
    induction s.shared.views with
    | nil => rfl
    | cons v vs ih =>
      cases hf : v.fired <;>
        simp [ViewLifetime.DartView.uses, DartView.user, hf, List.countP_cons, ← ih]
  rw [countP_users, hviews]
  omega

/-- The finalized views of `m` whose release has returned. -/
def returned (s : Process) (m : Nat) : Nat :=
  s.releases.countP fun x => x.memory == m && x.phase == .returned

/-- Those whose release found a reference, and erased an entry in the end. -/
def erased (s : Process) (m : Nat) : Nat := s.erasures.countP fun x => x.memory == m

/-- Each recorded and undeleted reference to a memory has one user there, or a release that
found none left it behind. -/
def Balanced (s : Process) : Prop :=
  ∀ m, keepers s.shared m + erased s m = (users s).countP (fun u => u.1 == m) + returned s m

/-- The reference that a step deletes was not deleted before. What a second deletion does,
JNI leaves open. -/
def DeletesOnce (s : Process) : Event → Prop
  | .deleteGlobalRef j => ∀ x ∈ s.releases[j]?, ∀ r ∈ Release.object x,
      ∀ g ∈ s.shared.globalRefs[r]?, g.deleted = false
  | _ => True

instance (s : Process) : (e : Event) → Decidable (DeletesOnce s e)
  | .deleteGlobalRef j =>
    (inferInstance : Decidable (∀ x ∈ s.releases[j]?, ∀ r ∈ Release.object x,
      ∀ g ∈ s.shared.globalRefs[r]?, g.deleted = false))
  | .allocate _ _ | .collect _ | .newGlobalRef _ | .associate _ | .handOver _ _ | .receive _
  | .dartFinalizer _ | .lookUp _ | .erase _ => isTrue trivial

theorem Balanced.of_same {t : Process} (hb : Balanced s)
    (hk : ∀ m, keepers t.shared m = keepers s.shared m) (hu : UsersSame t s)
    (hr : ∀ m, returned t m = returned s m) (he : t.erasures = s.erasures) : Balanced t := by
  intro m
  rw [hk m, hu, hr m, erased, he]
  exact hb m

theorem returned_setRelease {j : Nat} {x y : Release} (hj : s.releases[j]? = some x) (m : Nat) :
    returned (s.setRelease j y) m + (if x.memory == m && x.phase == .returned then 1 else 0) =
      returned s m + if y.memory == m && y.phase == .returned then 1 else 0 :=
  countP_set_add _ y hj

/-- A release that deletes a live reference stops using its memory. -/
theorem deleteGlobalRef_balanced {j memory ptr object : Nat} (hs : Held s) (hb : Balanced s)
    (hj : s.releases[j]? = some ⟨memory, ptr, .found object⟩)
    (hc : DeletesOnce s (.deleteGlobalRef j)) :
    Balanced ({ s with shared := s.shared.deleteGlobalRef object }.setRelease j
      ⟨memory, ptr, .deleted object⟩) := by
  have hmem : (⟨memory, ptr, .found object⟩ : Release) ∈ s.releases := mem_of_at hj
  obtain ⟨g, hg, hassoc⟩ := hs.formed.found _ hmem object rfl
  have hlive : g.deleted = false := hc _ hj object rfl g hg
  have hown : g.object.memory = memory := hs.own _ hmem object rfl g hg
  intro m
  have hkeep := ViewLifetime.keepers_delete hg hassoc hlive m
  have husers := users_setRelease (y := ⟨memory, ptr, .deleted object⟩) hj fun u => u.1 == m
  have hreturned := returned_setRelease (y := ⟨memory, ptr, .deleted object⟩) hj m
  have hold := hb m
  simp only [Release.user, Option.toList, List.countP_cons, List.countP_nil, beq_iff_eq,
    Nat.zero_add, reduceCtorEq, Bool.and_eq_true, and_false, if_false, hown]
    at hkeep husers hreturned
  change keepers (s.shared.deleteGlobalRef object) m + erased s m =
    (users (s.setRelease j ⟨memory, ptr, .deleted object⟩)).countP _ +
      returned (s.setRelease j ⟨memory, ptr, .deleted object⟩) m
  omega

/-- A release that returns without a reference leaves one behind. -/
theorem lookUpNull_balanced {j memory ptr : Nat} (hb : Balanced s)
    (hj : s.releases[j]? = some ⟨memory, ptr, .entered⟩) :
    Balanced ((s.setEntry ptr (some none)).setRelease j ⟨memory, ptr, .returned⟩) := by
  intro m
  have husers := users_setRelease (y := ⟨memory, ptr, .returned⟩) hj fun u => u.1 == m
  have hreturned := returned_setRelease (y := ⟨memory, ptr, .returned⟩) hj m
  have hold := hb m
  simp only [Release.user, Option.toList, List.countP_cons, List.countP_nil, beq_iff_eq,
    Nat.zero_add, reduceCtorEq, Bool.and_eq_true, and_false, and_true, if_false]
    at husers hreturned
  change keepers s.shared m + erased s m =
    (users (s.setRelease j ⟨memory, ptr, .returned⟩)).countP _ +
      returned (s.setRelease j ⟨memory, ptr, .returned⟩) m
  omega

/-- The user of a release that erases went with the reference it deleted. -/
theorem erase_balanced {j memory ptr object : Nat} {removed : Option Nat} (hb : Balanced s)
    (hj : s.releases[j]? = some ⟨memory, ptr, .deleted object⟩) :
    Balanced { (s.setEntry ptr none).setRelease j ⟨memory, ptr, .returned⟩ with
      erasures := s.erasures ++ [⟨memory, object, removed⟩] } := by
  intro m
  have husers := users_setRelease (y := ⟨memory, ptr, .returned⟩) hj fun u => u.1 == m
  have hreturned := returned_setRelease (y := ⟨memory, ptr, .returned⟩) hj m
  have herased : erased { s with erasures := s.erasures ++ [⟨memory, object, removed⟩] } m =
      erased s m + if memory == m then 1 else 0 := by
    rw [erased, List.countP_append, List.countP_singleton]
    rfl
  have hold := hb m
  simp only [Release.user, Option.toList, List.countP_nil, beq_iff_eq, reduceCtorEq,
    Bool.and_eq_true, and_false, and_true, if_false] at husers hreturned herased
  change keepers s.shared m +
      erased { s with erasures := s.erasures ++ [⟨memory, object, removed⟩] } m =
    (users (s.setRelease j ⟨memory, ptr, .returned⟩)).countP _ +
      returned (s.setRelease j ⟨memory, ptr, .returned⟩) m
  omega

theorem step_balanced {t : Process} {e : Event} (hs : Held s) (hb : Balanced s)
    (hc : DeletesOnce s e) (h : step s e = some t) : Balanced t := by
  cases step_moves h with
  | allocate => exact hb
  | collect => exact hb
  | newGlobalRef =>
    apply hb.of_same
    · intro m
      simp [keepers, Finalizer.Process.newGlobalRef, List.countP_append, Finalizer.GlobalRef.keeps]
    · intro p
      simp [countP_users, Finalizer.Process.newGlobalRef, Reply.user]
    · intro m
      rfl
    · rfl
  | @associate i object ref hi =>
    intro m
    have hold := hb m
    rw [keepers_associate hs.formed hi, users_associate hi]
    change keepers s.shared m + (if object.memory == m then 1 else 0) + erased s m =
      (users s).countP _ + (if object.memory == m then 1 else 0) + returned s m
    omega
  | handOver hi =>
    have hu := users_handOver hi
    rw [fresh_received]
    exact hb.of_same (fun _ => rfl) hu (fun _ => rfl) rfl
  | receive hk hf hv =>
    exact hb.of_same (fun _ => rfl) (users_receive hk hf hv) (fun _ => rfl) rfl
  | receiveNull hk _ hv =>
    exact hb.of_same (fun _ => rfl) (users_receiveNull hk hv) (fun _ => rfl) rfl
  | dartFinalizer hk hf =>
    refine hb.of_same (fun _ => rfl) (users_dartFinalizer hk hf) ?_ rfl
    intro m
    simp [returned]
  | lookUpNull hj => exact lookUpNull_balanced hb hj
  | @lookUp j memory ptr object hj =>
    refine hb.of_same (fun _ => rfl) ?_ ?_ rfl
    · intro p
      have hset := users_setRelease (y := ⟨memory, ptr, .found object⟩) hj p
      exact Nat.add_right_cancel hset
    · intro m
      have hset := returned_setRelease (y := ⟨memory, ptr, .found object⟩) hj m
      simpa using hset
  | deleteGlobalRef hj => exact deleteGlobalRef_balanced hs hb hj hc
  | erase hj => exact erase_balanced hb hj

end Held

/-- What keeps the memory of the views there. -/
structure Backed (s : Process) : Prop where
  inside : ∀ v ∈ s.shared.views, v.fired = false → Inside s.shared v.memory v.view.address
  enough : ∀ m, s.shared.views.countP (ViewLifetime.DartView.uses m) ≤ keepers s.shared m
  balanced : Balanced s

/-- However replies and finalizers interleave, operation by operation: as long as no
reference is deleted twice, each memory has one recorded and undeleted reference for every
unfired view, for everything else under way that uses it, and for every release that found
none. -/
theorem views_held (es : List Event) (hc : AllSteps step DeletesOnce Process.initial es)
    {s : Process} (hr : run step Process.initial es = some s) : Backed s := by
  obtain ⟨hs, hb⟩ : Held s ∧ Balanced s := by
    refine run_invariant_when (J := fun s => Held s ∧ Balanced s) ?_ ⟨initial_held, ?_⟩ hc hr
    · intro s e t hs hc h
      exact ⟨step_held hs.1 h, step_balanced hs.1 hs.2 hc h⟩
    · intro m
      rfl
  refine ⟨?_, views_le_keepers hs, hb⟩
  intro v hv hf
  refine hs.inside (v.memory, v.view.address) ?_
  refine List.mem_append.mpr (Or.inl (List.mem_append.mpr (Or.inr ?_)))
  exact List.mem_filterMap.mpr ⟨v, hv, by simp [DartView.user, hf]⟩

/-- Three replies with one buffer. The release of the first view erases the entry that the
third reply made, so that the release of the second finds none, and the last view has two
references. -/
theorem views_held_entry_erased :
    Backed ((run step Process.initial
      [.allocate 4096 16,
        .newGlobalRef ⟨0, 4096, 16, by decide, by decide⟩,
        .newGlobalRef ⟨0, 4096, 16, by decide, by decide⟩,
        .newGlobalRef ⟨0, 4096, 16, by decide, by decide⟩,
        .associate 0, .associate 1, .handOver 0 (.message 1 ⟨0, 0, 0⟩),
        .handOver 1 (.message 2 ⟨0, 0, 0⟩), .receive 0, .receive 1, .dartFinalizer 0, .lookUp 0,
        .associate 2, .handOver 2 (.result ⟨0, 0⟩), .receive 2, .deleteGlobalRef 0, .erase 0,
        .dartFinalizer 1, .lookUp 1]).get (by decide)) :=
  views_held _ (by decide) (Option.some_get _).symm

end NativeChannel.ViewsHeld
