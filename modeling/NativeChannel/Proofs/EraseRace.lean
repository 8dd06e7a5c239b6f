import NativeChannel.Proofs.ReleaseSteps

namespace NativeChannel.EraseRace
open Runs Counts FinalizerSteps ReleaseSteps Wrapper
open Finalizer (JavaBuffer DartView Wrapped GlobalRef Allocation)
open ViewLifetime (Inside keepers)

/-- What became of the `k`-th assignment, of the reference `r` to the entry of `p`, where
`r` is to memory `m`: it is there, or one of the same memory took its place, or it was
erased for a view of that memory. -/
def Kept (s : Process) (k p r m : Nat) : Prop :=
  s.shared.globalReferences p = some (some r) ∨
    (∃ k' r', ∃ g : GlobalRef, k < k' ∧ s.associations[k']? = some (p, r') ∧
      s.shared.globalRefs[r']? = some g ∧ g.object.memory = m) ∨
    ∃ e ∈ s.erasures, e.removed = some r ∧ e.memory = m

/-- Each `erase` removes nothing, or the association of the reference that the same call
deleted. So an association stays until the finalizer of its own buffer removes it. -/
structure Undropped (s : Process) : Prop where
  erased : ∀ e ∈ s.erasures, ∀ r, e.removed = some r → r = e.deleted
  stays : ∀ k p r, s.associations[k]? = some (p, r) →
    ∃ g, s.shared.globalRefs[r]? = some g ∧ Kept s k p r g.object.memory

/-- No assignment to an entry happens while a release of that pointer stands between
finding a reference there and erasing the entry. -/
def NotBetween (s : Process) : Event → Prop
  | .associate i => ∀ x, s.replies[i]? = some x → ∀ y ∈ s.releases,
      (Release.object y).isSome = true → y.ptr ≠ x.object.buffer.address
  | _ => True

instance (s : Process) (e : Event) : Decidable (NotBetween s e) := by
  cases e with
  | associate i =>
    exact inferInstanceAs (Decidable (∀ x ∈ s.replies[i]?, ∀ y ∈ s.releases,
      (Release.object y).isSome = true → y.ptr ≠ x.object.buffer.address))
  | _ => exact inferInstanceAs (Decidable True)

/-- The rest of a release that found a reference. -/
def Finishes : Event → Prop
  | .deleteGlobalRef _ => True
  | .erase _ => True
  | _ => False

/-- While no release is overtaken: it still finds its own entry, an entry of a deleted
reference has a release that is about to erase it, and everything that uses an address
uses the memory that is there. -/
structure Safe (s : Process) : Prop where
  formed : Formed s
  undropped : Undropped s
  single : ∀ x ∈ s.releases, ∀ r, Release.object x = some r →
    ∀ r', s.shared.globalReferences x.ptr = some (some r') → r' = r
  current : ∀ p r g, s.shared.globalReferences p = some (some r) →
    s.shared.globalRefs[r]? = some g → g.deleted = true →
    ∃ x ∈ s.releases, x.phase = .deleted r ∧ x.ptr = p
  own : ∀ x ∈ s.releases, ∀ r, Release.object x = some r →
    ∀ g, s.shared.globalRefs[r]? = some g → g.object.memory = x.memory
  sole : ∀ x ∈ s.releases, (Release.object x).isSome = true →
    ∀ u ∈ users s, u.2 = x.ptr → u.1 = x.memory
  inside : ∀ u ∈ users s, Inside s.shared u.1 u.2
  counted : ∀ m, (users s).countP (fun u => u.1 == m) ≤ keepers s.shared m

section Safe
variable {s : Process}

/-- Two uses of an address are uses of one memory. -/
theorem Safe.memory_unique (hs : Safe s) {m m' p : Nat} (hm : Inside s.shared m p)
    (hm' : Inside s.shared m' p) : m = m' :=
  hs.formed.disjoint m m' p hm hm'

/-- What became of an association is still so, unless its own entry changes. -/
theorem Kept.of_change {t : Process} {k p r m : Nat} (h : Kept s k p r m)
    (hassoc : ∀ (i : Nat) (x : Nat × Nat), s.associations[i]? = some x →
      t.associations[i]? = some x)
    (hrefs : ∀ (i : Nat) (g : GlobalRef), s.shared.globalRefs[i]? = some g →
      ∃ g', t.shared.globalRefs[i]? = some g' ∧ g'.object = g.object)
    (herased : ∀ e ∈ s.erasures, e ∈ t.erasures)
    (hentry : s.shared.globalReferences p = some (some r) → Kept t k p r m) : Kept t k p r m := by
  rcases h with hp | ⟨k', r', g, hk, ha, hg, hm⟩ | ⟨e, he, hremoved, hm⟩
  · exact hentry hp
  · obtain ⟨g', hg', hobject⟩ := hrefs r' g hg
    exact Or.inr (Or.inl ⟨k', r', g', hk, hassoc k' _ ha, hg', by rw [hobject, hm]⟩)
  · exact Or.inr (Or.inr ⟨e, herased e he, hremoved, hm⟩)

theorem Undropped.of_change {t : Process} (hs : Undropped s)
    (hassoc : ∀ (i : Nat) (x : Nat × Nat), s.associations[i]? = some x →
      t.associations[i]? = some x)
    (hrefs : ∀ (i : Nat) (g : GlobalRef), s.shared.globalRefs[i]? = some g →
      ∃ g', t.shared.globalRefs[i]? = some g' ∧ g'.object = g.object)
    (herased : ∀ e ∈ s.erasures, e ∈ t.erasures)
    (hentry : ∀ (k p r : Nat) (g : GlobalRef), s.associations[k]? = some (p, r) →
      s.shared.globalRefs[r]? = some g → s.shared.globalReferences p = some (some r) →
      Kept t k p r g.object.memory)
    {k p r : Nat} (hk : s.associations[k]? = some (p, r)) :
    ∃ g, t.shared.globalRefs[r]? = some g ∧ Kept t k p r g.object.memory := by
  obtain ⟨g, hg, hkept⟩ := hs.stays k p r hk
  obtain ⟨g', hg', hobject⟩ := hrefs r g hg
  refine ⟨g', hg', ?_⟩
  rw [hobject]
  exact hkept.of_change hassoc hrefs herased (hentry k p r g hk hg)

/-- Users that pass something on, while references, memory and the map stay. -/
theorem Safe.handed (hs : Safe s) {wrappers : List Wrapped} {views : List DartView}
    {replies : List Reply} {releases : List Release}
    (hu : UsersWithin { s with shared := { s.shared with wrappers, views }, replies, releases } s)
    (hr : ∀ x, (Release.object x).isSome = true → (x ∈ releases ↔ x ∈ s.releases))
    (hc : ∀ (i : Nat) (x : Reply), replies[i]? = some x → x.phase = .created →
      s.replies[i]? = some x) :
    Safe { s with shared := { s.shared with wrappers, views }, replies, releases } := by
  have hfound : ∀ x ∈ releases, ∀ r, Release.object x = some r → x ∈ s.releases := by
    intro x hx r hobject
    exact (hr x (by rw [hobject]; rfl)).mp hx
  refine ⟨hs.formed.of_same rfl rfl (fun _ _ h => h) ?_ hc, ⟨hs.undropped.erased,
    hs.undropped.stays⟩, ?_, ?_, ?_, ?_, ?_, ?_⟩
  · intro x hx r hobject
    exact hs.formed.found x (hfound x hx r hobject) r hobject
  · intro x hx r hobject
    exact hs.single x (hfound x hx r hobject) r hobject
  · intro p r g hp hg hd
    obtain ⟨x, hx, hphase, hptr⟩ := hs.current p r g hp hg hd
    exact ⟨x, (hr x (by rw [Release.object, hphase]; rfl)).mpr hx, hphase, hptr⟩
  · intro x hx r hobject
    exact hs.own x (hfound x hx r hobject) r hobject
  · intro x hx hobject u hmem
    exact hs.sole x ((hr x hobject).mp hx) hobject u (hu.mem hmem)
  · intro u hmem
    exact hs.inside u (hu.mem hmem)
  · intro m
    exact Nat.le_trans (hu _) (hs.counted m)

theorem not_created_set {i : Nat} {y : Reply} (hy : y.phase ≠ .created) (j : Nat) (x : Reply)
    (hj : (s.replies.set i y)[j]? = some x) (hx : x.phase = .created) : s.replies[j]? = some x := by
  refine (at_of_set hj ?_).2
  intro he
  exact hy (he ▸ hx)

theorem allocate_safe {start size : Nat} (hs : Safe s)
    (apart : ∀ x ∈ s.shared.allocations, x.apart start size = true) :
    Safe { s with shared := { s.shared with
      allocations := s.shared.allocations ++ [⟨start, size, false⟩] } } := by
  refine ⟨allocate_formed hs.formed apart, ⟨hs.undropped.erased, hs.undropped.stays⟩, hs.single,
    hs.current, hs.own, hs.sole, ?_, hs.counted⟩
  intro u hu
  exact ViewLifetime.inside_allocate.mpr (Or.inl (hs.inside u hu))

theorem collect_safe {m : Nat} (hs : Safe s)
    (unused : ∀ g ∈ s.shared.globalRefs, g.deleted = true ∨ g.object.memory ≠ m) :
    Safe { s with shared := { s.shared with
      allocations := s.shared.allocations.modify m fun x => { x with collected := true } } } := by
  refine ⟨collect_formed hs.formed unused, ⟨hs.undropped.erased, hs.undropped.stays⟩, hs.single,
    hs.current, hs.own, hs.sole, ?_, hs.counted⟩
  intro u hu
  refine ViewLifetime.inside_collect.mpr ⟨?_, hs.inside u hu⟩
  intro hm
  have hnone := Nat.le_zero.mp (ViewLifetime.keepers_unused unused ▸ hs.counted m)
  exact List.countP_eq_zero.mp hnone u hu (by simp [hm])

/-- A new reference is not recorded yet, so it keeps nothing and is found by nobody. -/
theorem newGlobalRef_safe {reply : JavaBuffer} (hs : Safe s) (held : s.shared.holds reply = true) :
    Safe { s with
      shared := s.shared.newGlobalRef reply
      replies := s.replies ++ [⟨reply, s.shared.globalRefs.length, .created⟩] } := by
  have husers : users { s with
      shared := s.shared.newGlobalRef reply
      replies := s.replies ++ [⟨reply, s.shared.globalRefs.length, .created⟩] } = users s := by
    simp [users, Finalizer.Process.newGlobalRef, Reply.user]
  have hold : ∀ {r : Nat} {g g' : GlobalRef} {p : Nat}, AssociatedWith s r p →
      (s.shared.globalRefs ++ [g'])[r]? = some g → s.shared.globalRefs[r]? = some g := by
    intro r g g' p ha hg
    obtain ⟨x, hx, _⟩ := ha
    rwa [List.getElem?_append_left (List.getElem?_eq_some_iff.mp hx).1] at hg
  refine ⟨newGlobalRef_formed hs.formed held, ⟨hs.undropped.erased, ?_⟩, hs.single, ?_, ?_, ?_,
    ?_, ?_⟩
  · intro k p r hk
    refine hs.undropped.of_change ?_ ?_ ?_ ?_ hk
    · exact fun _ _ h => h
    · intro i g hg
      exact ⟨g, at_concat.mpr (Or.inl hg), rfl⟩
    · exact fun _ h => h
    · intro k p r g _ _ hp
      exact Or.inl hp
  · intro p r g hp hg hd
    exact hs.current p r g hp (hold (hs.formed.entries p r hp) hg) hd
  · intro x hx r hr g hg
    exact hs.own x hx r hr g (hold (hs.formed.found x hx r hr) hg)
  · rw [husers]
    exact hs.sole
  · rw [husers]
    exact hs.inside
  · intro m
    rw [husers]
    refine Nat.le_trans (hs.counted m) ?_
    change (s.shared.globalRefs).countP _ ≤ (s.shared.globalRefs ++ [_]).countP _
    rw [List.countP_append]
    exact Nat.le_add_right _ _

theorem mem_users_associate {i : Nat} {object : JavaBuffer} {ref : Nat} {u : Nat × Nat}
    (hi : s.replies[i]? = some ⟨object, ref, .created⟩)
    (hu : u ∈ users ((s.associate object.buffer.address ref).setReply i
      ⟨object, ref, .associated⟩)) :
    u ∈ users s ∨ u = (object.memory, object.buffer.address) := by
  have hpos : 0 < (users ((s.associate object.buffer.address ref).setReply i
      ⟨object, ref, .associated⟩)).countP (fun v => v == u) :=
    List.countP_pos_iff.mpr ⟨u, hu, by simp⟩
  rw [users_associate hi] at hpos
  by_cases he : (object.memory, object.buffer.address) = u
  · exact Or.inr he.symm
  · left
    simp only [beq_iff_eq, he, if_false, Nat.add_zero] at hpos
    obtain ⟨v, hv, hvu⟩ := List.countP_pos_iff.mp hpos
    rwa [beq_iff_eq.mp hvu] at hv

/-- While no release of the pointer is under way, the entry that an assignment replaces
is of a reference to the same memory, or there is none. -/
theorem replaced_memory {i : Nat} {object : JavaBuffer} {ref r : Nat} {g : GlobalRef}
    (hs : Safe s) (hi : s.replies[i]? = some ⟨object, ref, .created⟩)
    (hc : NotBetween s (.associate i)) (hg : s.shared.globalRefs[r]? = some g)
    (hp : s.shared.globalReferences object.buffer.address = some (some r)) :
    g.object.memory = object.memory := by
  have hlive : g.deleted = false := by
    by_contra hd
    obtain ⟨x, hx, hphase, hptr⟩ := hs.current _ r g hp hg (by simpa using hd)
    exact hc _ hi x hx (by rw [Release.object, hphase]; rfl) hptr
  obtain ⟨g', hg', hassoc⟩ := hs.formed.entries _ r hp
  rw [hg] at hg'
  cases hg'
  have haddress := hs.formed.addressed g (mem_of_at hg) _ hassoc
  have hin := hs.formed.referenced g (mem_of_at hg) hlive
  obtain ⟨gnew, hgnew, _, hnewlive, hobject⟩ := hs.formed.created _ (mem_of_at hi) rfl
  have hinnew := hs.formed.referenced gnew (mem_of_at hgnew) hnewlive
  rw [← haddress] at hin
  rw [hobject] at hinnew
  exact hs.memory_unique hin hinnew

theorem associate_stays {i : Nat} {object : JavaBuffer} {ref : Nat} (hs : Safe s)
    (hi : s.replies[i]? = some ⟨object, ref, .created⟩) (hc : NotBetween s (.associate i)) :
    Undropped ((s.associate object.buffer.address ref).setReply i ⟨object, ref, .associated⟩) := by
  obtain ⟨g, hg, _, _, hobject⟩ := hs.formed.created _ (mem_of_at hi) rfl
  have hobject : g.object = object := hobject
  have hnew : (s.shared.globalRefs.set ref
      { g with association := some object.buffer.address })[ref]? =
        some { g with association := some object.buffer.address } :=
    List.getElem?_set_self (List.getElem?_eq_some_iff.mp hg).1
  refine ⟨hs.undropped.erased, ?_⟩
  intro k p r hk
  rcases at_concat.mp hk with hk | ⟨rfl, hlast⟩
  · refine hs.undropped.of_change ?_ ?_ ?_ ?_ hk
    · intro j x hj
      exact at_concat.mpr (Or.inl hj)
    · intro j x hj
      rw [associate_refs i _ hg]
      exact object_set hg rfl hj
    · exact fun _ h => h
    · intro k p r g' hk hg' hp
      by_cases hpa : p = object.buffer.address
      · subst p
        refine Or.inr (Or.inl ⟨s.associations.length, ref,
          { g with association := some object.buffer.address }, ?_, ?_, ?_, ?_⟩)
        · exact (List.getElem?_eq_some_iff.mp hk).1
        · exact at_concat.mpr (Or.inr ⟨rfl, rfl⟩)
        · rw [associate_refs i _ hg]
          exact hnew
        · exact (congrArg JavaBuffer.memory hobject).trans
            (replaced_memory hs hi hc hg' hp).symm
      · left
        change Function.update s.shared.globalReferences object.buffer.address _ p = _
        rw [Function.update_of_ne hpa]
        exact hp
  · cases hlast
    rw [associate_refs i _ hg]
    refine ⟨_, hnew, Or.inl ?_⟩
    change Function.update s.shared.globalReferences object.buffer.address _
      object.buffer.address = _
    rw [Function.update_self]

theorem keepers_associate {i : Nat} {object : JavaBuffer} {ref m : Nat} (hs : Formed s)
    (hi : s.replies[i]? = some ⟨object, ref, .created⟩) :
    keepers ((s.associate object.buffer.address ref).setReply i ⟨object, ref, .associated⟩).shared m =
      keepers s.shared m + if object.memory == m then 1 else 0 := by
  obtain ⟨g, hg, hnone, hlive, hobject⟩ := hs.created _ (mem_of_at hi) rfl
  have hobject : g.object = object := hobject
  have hset := countP_set_add (GlobalRef.keeps m)
    { g with association := some object.buffer.address } hg
  have hbefore : GlobalRef.keeps m g = false := by simp [GlobalRef.keeps, hnone]
  have hafter : GlobalRef.keeps m { g with association := some object.buffer.address } =
      (object.memory == m) := by
    simp [GlobalRef.keeps, hlive, hobject]
  rw [hbefore, hafter] at hset
  unfold keepers
  rw [associate_refs i _ hg]
  simpa using hset

theorem associate_safe {i : Nat} {object : JavaBuffer} {ref : Nat} (hs : Safe s)
    (hi : s.replies[i]? = some ⟨object, ref, .created⟩) (hc : NotBetween s (.associate i)) :
    Safe ((s.associate object.buffer.address ref).setReply i ⟨object, ref, .associated⟩) := by
  obtain ⟨g, hg, hnone, hlive, hobject⟩ := hs.formed.created _ (mem_of_at hi) rfl
  have hobject : g.object = object := hobject
  have hrefs : ((s.associate object.buffer.address ref).setReply i
      ⟨object, ref, .associated⟩).shared.globalRefs =
        s.shared.globalRefs.set ref { g with association := some object.buffer.address } :=
    associate_refs i _ hg
  have hfresh : ∀ {r p : Nat}, AssociatedWith s r p → ref ≠ r := by
    intro r p ha he
    obtain ⟨x, hx, hassoc⟩ := ha
    rw [← he, hg] at hx
    cases hx
    rw [hnone] at hassoc
    cases hassoc
  have hother : ∀ {p : Nat}, p ≠ object.buffer.address →
      ((s.associate object.buffer.address ref).setReply i
        ⟨object, ref, .associated⟩).shared.globalReferences p = s.shared.globalReferences p :=
    fun hp => Function.update_of_ne hp _ _
  refine ⟨associate_formed hs.formed hi, associate_stays hs hi hc, ?_, ?_, ?_, ?_, ?_, ?_⟩
  · intro x hx r hr r' hp
    rw [hother (hc _ hi x hx (by rw [hr]; rfl))] at hp
    exact hs.single x hx r hr r' hp
  · intro p r g' hp hg' hd
    rw [hrefs] at hg'
    by_cases hpa : p = object.buffer.address
    · subst p
      change Function.update s.shared.globalReferences object.buffer.address _ _ = _ at hp
      rw [Function.update_self] at hp
      cases hp
      rw [List.getElem?_set_self (List.getElem?_eq_some_iff.mp hg).1] at hg'
      cases hg'
      rw [hlive] at hd
      cases hd
    · rw [hother hpa] at hp
      rw [List.getElem?_set_ne (hfresh (hs.formed.entries p r hp))] at hg'
      exact hs.current p r g' hp hg' hd
  · intro x hx r hr g' hg'
    rw [hrefs, List.getElem?_set_ne (hfresh (hs.formed.found x hx r hr))] at hg'
    exact hs.own x hx r hr g' hg'
  · intro x hx hobj u hu hptr
    rcases mem_users_associate hi hu with hu | rfl
    · exact hs.sole x hx hobj u hu hptr
    · exact absurd hptr.symm (hc _ hi x hx hobj)
  · intro u hu
    rcases mem_users_associate hi hu with hu | rfl
    · exact hs.inside u hu
    · have hin := hs.formed.referenced g (mem_of_at hg) hlive
      rw [hobject] at hin
      exact hin
  · intro m
    rw [keepers_associate hs.formed hi, users_associate hi]
    exact Nat.add_le_add_right (hs.counted m) _

theorem users_returned {j : Nat} {x : Release} (hj : s.releases[j]? = some x) :
    UsersWithin (s.setRelease j { x with phase := .returned }) s := by
  intro p
  have hset := users_setRelease (y := { x with phase := .returned }) hj p
  simp only [Release.user, Option.toList, List.countP_nil] at hset
  omega

theorem mem_setRelease_returned {j : Nat} {x y : Release} (hy : y ∈ s.releases.set j
    { x with phase := .returned }) (hobject : (Release.object y).isSome = true) :
    y ∈ s.releases := by
  rcases List.mem_or_eq_of_mem_set hy with hy | rfl
  · exact hy
  · cases hobject

/-- A release that returns leaves no entry under its pointer. -/
theorem returned_safe {j : Nat} {x : Release} {entry : Option (Option Nat)} {l : List Erasure}
    (hs : Safe s) (hj : s.releases[j]? = some x) (he : entry.join = none)
    (hu : Undropped { (s.setEntry x.ptr entry).setRelease j { x with phase := .returned } with
      erasures := l }) :
    Safe { (s.setEntry x.ptr entry).setRelease j { x with phase := .returned } with
      erasures := l } := by
  have hwithin := users_returned hj
  refine ⟨hs.formed.of_same rfl rfl ?_ ?_ (fun _ _ h _ => h), hu, ?_, ?_, ?_, ?_, ?_, ?_⟩
  · intro p r hp
    exact (ViewLifetime.entry_of_cleared he hp).2
  · intro y hy r hr
    exact hs.formed.found y (mem_setRelease_returned hy (by rw [hr]; rfl)) r hr
  · intro y hy r hr r' hp
    exact hs.single y (mem_setRelease_returned hy (by rw [hr]; rfl)) r hr r'
      (ViewLifetime.entry_of_cleared he hp).2
  · intro p r g hp hg hd
    obtain ⟨hpx, hp⟩ := ViewLifetime.entry_of_cleared he hp
    obtain ⟨y, hy, hphase, hptr⟩ := hs.current p r g hp hg hd
    refine ⟨y, mem_set_of_ne hj hy ?_, hphase, hptr⟩
    intro hyx
    exact hpx (hptr ▸ hyx ▸ rfl)
  · intro y hy r hr
    exact hs.own y (mem_setRelease_returned hy (by rw [hr]; rfl)) r hr
  · intro y hy hobject u hmem
    exact hs.sole y (mem_setRelease_returned hy hobject) hobject u (hwithin.mem hmem)
  · intro u hmem
    exact hs.inside u (hwithin.mem hmem)
  · intro m
    exact Nat.le_trans (hwithin _) (hs.counted m)

theorem lookUpNull_safe {j memory ptr : Nat} (hs : Safe s)
    (hj : s.releases[j]? = some ⟨memory, ptr, .entered⟩)
    (absent : (s.shared.globalReferences ptr).join = none) :
    Safe ((s.setEntry ptr (some none)).setRelease j ⟨memory, ptr, .returned⟩) := by
  refine returned_safe (l := s.erasures) hs hj rfl ⟨hs.undropped.erased, ?_⟩
  intro k p r hk
  refine hs.undropped.of_change ?_ ?_ ?_ ?_ hk
  · exact fun _ _ h => h
  · exact fun _ g hg => ⟨g, hg, rfl⟩
  · exact fun _ h => h
  · intro k p r g _ _ hp
    have hne : p ≠ ptr := by
      intro h
      rw [h] at hp
      rw [hp] at absent
      cases absent
    exact Or.inl ((Function.update_of_ne hne _ _).trans hp)

/-- The entry that a release erases is of the reference it deleted, and that one is to
the memory of the release's own view. -/
theorem erase_safe {j memory ptr object : Nat} (hs : Safe s)
    (hj : s.releases[j]? = some ⟨memory, ptr, .deleted object⟩) :
    Safe { (s.setEntry ptr none).setRelease j ⟨memory, ptr, .returned⟩ with
      erasures := s.erasures ++ [⟨memory, object, (s.shared.globalReferences ptr).join⟩] } := by
  have hsingle := hs.single _ (mem_of_at hj) object rfl
  refine returned_safe hs hj rfl ⟨?_, ?_⟩
  · intro e he r hr
    rcases List.mem_append.mp he with he | he
    · exact hs.undropped.erased e he r hr
    · rw [List.mem_singleton.mp he] at hr ⊢
      exact hsingle r (Option.join_eq_some_iff.mp hr)
  · intro k p r hk
    refine hs.undropped.of_change ?_ ?_ ?_ ?_ hk
    · exact fun _ _ h => h
    · exact fun _ g hg => ⟨g, hg, rfl⟩
    · intro e he
      exact List.mem_append.mpr (Or.inl he)
    · intro k p r g _ hg hp
      by_cases hpp : p = ptr
      · right; right
        subst p
        refine ⟨_, List.mem_append.mpr (Or.inr (List.mem_singleton.mpr rfl)), ?_, ?_⟩
        · exact Option.join_eq_some_iff.mpr hp
        · have hr := hsingle r hp
          subst r
          exact (hs.own _ (mem_of_at hj) object rfl g hg).symm
      · exact Or.inl ((Function.update_of_ne hpp _ _).trans hp)

/-- The reference found under the address of a view is to the memory of that view. -/
theorem entry_memory {j memory ptr object : Nat} {g : GlobalRef} (hs : Safe s)
    (hj : s.releases[j]? = some ⟨memory, ptr, .entered⟩)
    (entry : s.shared.globalReferences ptr = some (some object))
    (hg : s.shared.globalRefs[object]? = some g) : g.object.memory = memory := by
  have huser : (memory, ptr) ∈ users s := by
    refine List.mem_append.mpr (Or.inr ?_)
    exact List.mem_filterMap.mpr ⟨_, mem_of_at hj, rfl⟩
  cases hd : g.deleted with
  | false =>
    obtain ⟨g', hg', hassoc⟩ := hs.formed.entries ptr object entry
    rw [hg] at hg'
    cases hg'
    have haddress := hs.formed.addressed g (mem_of_at hg) ptr hassoc
    have hin := hs.formed.referenced g (mem_of_at hg) hd
    rw [← haddress] at hin
    exact hs.memory_unique hin (hs.inside _ huser)
  | true =>
    -- another release of the same pointer is about to erase this entry
    obtain ⟨y, hy, hphase, hptr⟩ := hs.current ptr object g entry hg hd
    have hobject : Release.object y = some object := by rw [Release.object, hphase]
    rw [hs.own y hy object hobject g hg]
    exact (hs.sole y hy (by rw [hobject]; rfl) _ huser hptr.symm).symm

theorem lookUp_safe {j memory ptr object : Nat} (hs : Safe s)
    (hj : s.releases[j]? = some ⟨memory, ptr, .entered⟩)
    (entry : s.shared.globalReferences ptr = some (some object)) :
    Safe (s.setRelease j ⟨memory, ptr, .found object⟩) := by
  have hwithin : UsersWithin (s.setRelease j ⟨memory, ptr, .found object⟩) s := by
    intro p
    have hset := users_setRelease (y := ⟨memory, ptr, .found object⟩) hj p
    simp only [Release.user] at hset
    omega
  have huser : (memory, ptr) ∈ users s :=
    List.mem_append.mpr (Or.inr (List.mem_filterMap.mpr ⟨_, mem_of_at hj, rfl⟩))
  refine ⟨hs.formed.of_same rfl rfl (fun _ _ h => h) ?_ (fun _ _ h _ => h),
    ⟨hs.undropped.erased, hs.undropped.stays⟩, ?_, ?_, ?_, ?_, ?_, ?_⟩
  · apply forall_mem_set hs.formed.found
    intro r hr
    cases hr
    exact hs.formed.entries ptr object entry
  · apply forall_mem_set hs.single
    intro r hr r' hp
    cases hr
    exact Option.some.inj (Option.some.inj (hp.symm.trans entry))
  · intro p r g hp hg hd
    obtain ⟨y, hy, hphase, hptr⟩ := hs.current p r g hp hg hd
    refine ⟨y, mem_set_of_ne hj hy ?_, hphase, hptr⟩
    intro he
    rw [he] at hphase
    cases hphase
  · apply forall_mem_set hs.own
    intro r hr g hg
    cases hr
    exact entry_memory hs hj entry hg
  · apply forall_mem_set fun y hy hobject u hu => hs.sole y hy hobject u (hwithin.mem hu)
    intro _ u hu hptr
    have hin := hs.inside u (hwithin.mem hu)
    rw [hptr] at hin
    exact hs.memory_unique hin (hs.inside _ huser)
  · intro u hu
    exact hs.inside u (hwithin.mem hu)
  · intro m
    exact Nat.le_trans (hwithin _) (hs.counted m)

/-- A reference keeps one memory, if it still does. -/
theorem keepers_delete_le {object : Nat} {g : GlobalRef}
    (hg : s.shared.globalRefs[object]? = some g) (m : Nat) : keepers s.shared m ≤
      keepers (s.shared.deleteGlobalRef object) m + if g.object.memory == m then 1 else 0 := by
  have hset := countP_set_add (GlobalRef.keeps m) { g with deleted := true } hg
  have hafter : GlobalRef.keeps m { g with deleted := true } = false := by
    simp [GlobalRef.keeps]
  have hbefore : GlobalRef.keeps m g = true → (g.object.memory == m) = true := by
    intro h
    simp only [GlobalRef.keeps, Bool.and_eq_true] at h
    exact h.2
  unfold keepers
  rw [deleteGlobalRef_refs hg]
  rw [hafter] at hset
  cases hk : GlobalRef.keeps m g with
  | true =>
    rw [hbefore hk]
    simp only [hk, if_true, Bool.false_eq_true, if_false] at hset ⊢
    omega
  | false =>
    simp only [hk, Bool.false_eq_true, if_false] at hset
    omega

/-- The view of a release goes away together with the reference it found. -/
theorem deleteGlobalRef_safe {j memory ptr object : Nat} (hs : Safe s)
    (hj : s.releases[j]? = some ⟨memory, ptr, .found object⟩) :
    Safe ({ s with shared := s.shared.deleteGlobalRef object }.setRelease j
      ⟨memory, ptr, .deleted object⟩) := by
  have hmem : (⟨memory, ptr, .found object⟩ : Release) ∈ s.releases := mem_of_at hj
  have hfound : AssociatedWith s object ptr := hs.formed.found _ hmem object rfl
  obtain ⟨g, hg, hassoc⟩ := hfound
  have hown : g.object.memory = memory := hs.own _ hmem object rfl g hg
  have hrefs := deleteGlobalRef_refs hg
  have hset := fun p => users_setRelease (y := ⟨memory, ptr, .deleted object⟩) hj p
  have hwithin : UsersWithin ({ s with shared := s.shared.deleteGlobalRef object }.setRelease j
      ⟨memory, ptr, .deleted object⟩) s := by
    intro p
    have hp := hset p
    simp only [Release.user, Option.toList, List.countP_nil] at hp
    exact Nat.le.intro hp
  have hmemory : ∀ {r : Nat} {x : GlobalRef},
      (s.shared.deleteGlobalRef object).globalRefs[r]? = some x →
      ∃ y, s.shared.globalRefs[r]? = some y ∧ x.object = y.object ∧
        (r ≠ object → x = y) := by
    intro r x hx
    rw [hrefs] at hx
    by_cases hr : object = r
    · subst r
      rw [List.getElem?_set_self (List.getElem?_eq_some_iff.mp hg).1] at hx
      cases hx
      exact ⟨g, hg, rfl, fun h => absurd rfl h⟩
    · rw [List.getElem?_set_ne hr] at hx
      exact ⟨x, hx, rfl, fun _ => rfl⟩
  refine ⟨deleteGlobalRef_formed hs.formed hj, ⟨hs.undropped.erased, ?_⟩, ?_, ?_, ?_, ?_, ?_, ?_⟩
  · intro k p r hk
    refine hs.undropped.of_change ?_ ?_ ?_ ?_ hk
    · exact fun _ _ h => h
    · intro i x hx
      change ∃ y, (s.shared.deleteGlobalRef object).globalRefs[i]? = some y ∧ _
      rw [hrefs]
      exact object_set hg rfl hx
    · exact fun _ h => h
    · intro k p r x _ _ hp
      exact Or.inl hp
  · apply forall_mem_set hs.single
    exact hs.single ⟨memory, ptr, .found object⟩ hmem
  · intro p r x hp hx hd
    by_cases hr : r = object
    · subst r
      have hpp := (hs.formed.entries p object hp).unique ⟨g, hg, hassoc⟩
      exact ⟨_, mem_set_at hj, rfl, hpp.symm⟩
    · obtain ⟨y, hy, _, hsame⟩ := hmemory hx
      rw [hsame hr] at hd
      obtain ⟨z, hz, hphase, hptr⟩ := hs.current p r y hp hy hd
      refine ⟨z, mem_set_of_ne hj hz ?_, hphase, hptr⟩
      intro he
      rw [he] at hphase
      cases hphase
  · have hold : ∀ x ∈ s.releases, ∀ r, Release.object x = some r → ∀ y,
        (s.shared.deleteGlobalRef object).globalRefs[r]? = some y → y.object.memory = x.memory := by
      intro x hx r hr y hy
      obtain ⟨z, hz, hyz, _⟩ := hmemory hy
      rw [hyz]
      exact hs.own x hx r hr z hz
    apply forall_mem_set hold
    exact hold ⟨memory, ptr, .found object⟩ hmem
  · apply forall_mem_set fun y hy hobject u hu => hs.sole y hy hobject u (hwithin.mem hu)
    intro _ u hu
    exact hs.sole _ hmem rfl u (hwithin.mem hu)
  · intro u hu
    exact hs.inside u (hwithin.mem hu)
  · intro m
    have hcount := hset fun u => u.1 == m
    simp only [Release.user, Option.toList, List.countP_cons, List.countP_nil] at hcount
    have hkeep := keepers_delete_le hg m
    rw [hown] at hkeep
    have hold := hs.counted m
    change (users (s.setRelease j ⟨memory, ptr, .deleted object⟩)).countP _ ≤
      keepers (s.shared.deleteGlobalRef object) m
    omega

/-- Dart reads of either wrapper the buffer that was answered. -/
theorem fresh_received (fresh : Fresh) (b : DirectByteBuffer) : fresh.received b = some b.view := by
  cases fresh with
  | message replyId fresh =>
    exact (Framing.received_fill fresh replyId (some b)).mpr (Or.inl rfl)
  | result fresh => exact (Framing.received_fill_result fresh (some b)).mpr (Or.inl rfl)

theorem step_safe {t : Process} {e : Event} (hs : Safe s) (hc : NotBetween s e)
    (h : step s e = some t) : Safe t := by
  have hnone : ∀ x, (Release.object x).isSome = true → (x ∈ s.releases ↔ x ∈ s.releases) :=
    fun _ _ => Iff.rfl
  cases step_moves h with
  | allocate apart => exact allocate_safe hs apart
  | collect unused => exact collect_safe hs unused
  | newGlobalRef held => exact newGlobalRef_safe hs held
  | associate hi => exact associate_safe hs hi hc
  | @handOver i object ref fresh hi =>
    have hu := (users_handOver hi).within
    rw [fresh_received]
    exact hs.handed hu hnone fun j x hj hx => not_created_set (by simp) j x hj hx
  | receive hk hf hv => exact hs.handed (users_receive hk hf hv).within hnone fun _ _ h _ => h
  | receiveNull hk _ hv => exact hs.handed (users_receiveNull hk hv).within hnone fun _ _ h _ => h
  | dartFinalizer hk hf =>
    refine hs.handed (users_dartFinalizer hk hf).within ?_ fun _ _ h _ => h
    intro x hx
    refine ⟨?_, fun h => List.mem_append.mpr (Or.inl h)⟩
    intro h
    rcases List.mem_append.mp h with h | h
    · exact h
    · rw [List.mem_singleton.mp h] at hx
      cases hx
  | lookUpNull hj absent => exact lookUpNull_safe hs hj absent
  | lookUp hj entry => exact lookUp_safe hs hj entry
  | deleteGlobalRef hj => exact deleteGlobalRef_safe hs hj
  | erase hj => exact erase_safe hs hj

theorem initial_safe : Safe Process.initial := by
  have hformed : Formed Process.initial := by
    refine ⟨?_, ?_, ?_, ?_, ?_, ?_, ?_⟩
    · intro m m' p hm
      obtain ⟨x, hx, _⟩ := hm
      cases hx
    · intro g hg
      cases hg
    · intro g hg
      cases hg
    · intro p r hp
      cases hp
    · intro x hx
      cases hx
    · intro x hx
      cases hx
    · intro i j x y hx
      cases hx
  refine ⟨hformed, ⟨?_, ?_⟩, ?_, ?_, ?_, ?_, ?_, fun _ => Nat.le_refl 0⟩
  · intro e he
    cases he
  · intro k p r hk
    cases hk
  · intro x hx
    cases hx
  · intro p r g hp
    cases hp
  · intro x hx
    cases hx
  · intro x hx
    cases hx
  · intro u hu
    cases hu

/-- A release whose entry got a new reference removes that one. -/
theorem erase_drops {t : Process} {j memory ptr object ref : Nat}
    (hj : t.releases[j]? = some ⟨memory, ptr, .deleted object⟩)
    (entry : t.shared.globalReferences ptr = some (some ref)) (hne : ref ≠ object) :
    ∃ u, run step t [.erase j] = some u ∧ ¬ Undropped u := by
  refine ⟨t.erase j ⟨memory, ptr, .deleted object⟩ object, by simp [step, hj], ?_⟩
  intro hu
  refine hne (hu.erased ⟨memory, object, (t.shared.globalReferences ptr).join⟩ ?_ ref ?_)
  · exact List.mem_append.mpr (Or.inr (List.mem_singleton.mpr rfl))
  · rw [entry]
    rfl

/-- An assignment under the eyes of a release is lost when that release erases. -/
theorem associate_drops {t : Process} {e : Event} (hs : Safe s) (h : step s e = some t)
    (hc : ¬ NotBetween s e) :
    ∃ xs, (∀ x ∈ xs, Finishes x) ∧ ∃ u, run step t xs = some u ∧ ¬ Undropped u := by
  cases step_moves h with
  | @associate i object ref hi =>
    have hbetween : ∃ y ∈ s.releases, (Release.object y).isSome = true ∧
        y.ptr = object.buffer.address := by
      by_contra hno
      refine hc ?_
      intro x hx y hy hobject hptr
      rw [hi] at hx
      cases hx
      exact hno ⟨y, hy, hobject, hptr⟩
    obtain ⟨⟨memory, ptr, phase⟩, hy, hobject, hptr⟩ := hbetween
    obtain ⟨j, hj⟩ := List.mem_iff_getElem?.mp hy
    obtain ⟨r, hr⟩ := Option.isSome_iff_exists.mp hobject
    obtain ⟨g, hg, hassoc⟩ := hs.formed.found _ hy r hr
    obtain ⟨g', hg', hnone, _⟩ := hs.formed.created _ (mem_of_at hi) rfl
    have hne : ref ≠ r := by
      intro he
      rw [he, hg] at hg'
      cases hg'
      rw [hnone] at hassoc
      cases hassoc
    have hptr : ptr = object.buffer.address := hptr
    let t := (s.associate object.buffer.address ref).setReply i ⟨object, ref, .associated⟩
    have hj : t.releases[j]? = some ⟨memory, ptr, phase⟩ := hj
    have hentry : t.shared.globalReferences ptr = some (some ref) := by
      rw [hptr]
      exact Function.update_self ..
    cases phase with
    | found found =>
      cases hr
      let t' := { t with shared := t.shared.deleteGlobalRef r }.setRelease j ⟨memory, ptr, .deleted r⟩
      have hstep : step t (.deleteGlobalRef j) = some t' := by
        simp [step, hj, t', Process.deleteGlobalRef]
      have hj' : t'.releases[j]? = some ⟨memory, ptr, .deleted r⟩ :=
        List.getElem?_set_self (List.getElem?_eq_some_iff.mp hj).1
      obtain ⟨u, hu, hdropped⟩ := erase_drops hj' hentry hne
      refine ⟨[.deleteGlobalRef j, .erase j], ?_, u, ?_, hdropped⟩
      · simp [Finishes]
      · rw [run_cons, hstep]
        exact hu
    | deleted deleted =>
      cases hr
      obtain ⟨u, hu, hdropped⟩ := erase_drops hj hentry hne
      exact ⟨[.erase j], by simp [Finishes], u, hu, hdropped⟩
    | entered => cases hr
    | returned => cases hr
  | _ => exact absurd trivial hc

end Safe

/-- In a run, and whatever the releases under way do next, no erase drops another's
association exactly when no assignment falls between the lookup and the erase of a
release of the same pointer. -/
theorem undropped_iff (es : List Event) (hr : (run step Process.initial es).isSome = true) :
    Through step Finishes Undropped Process.initial es ↔
      AllSteps step NotBetween Process.initial es := by
  obtain ⟨s, hs⟩ := Option.isSome_iff_exists.mp hr
  apply through_iff_of_breaks (I := Safe) ?_ ?_ ?_ ?_ initial_safe hs
  · intro s e t hi hc h
    exact step_safe hi hc h
  · intro s e he
    cases e with
    | deleteGlobalRef => trivial
    | erase => trivial
    | _ => cases he
  · intro s hi
    exact hi.undropped
  · intro s e t hi h hc
    exact associate_drops hi h hc

/-- A buffer is answered, released and collected, and its address used again. -/
theorem undropped_address_reused :
    Through step Finishes Undropped Process.initial
      [.allocate 4096 16, .newGlobalRef ⟨0, 4096, 16, by decide, by decide⟩, .associate 0,
        .handOver 0 (.message 1 ⟨0, 0, 0⟩), .receive 0, .dartFinalizer 0, .lookUp 0,
        .deleteGlobalRef 0, .erase 0, .collect 0, .allocate 4096 16,
        .newGlobalRef ⟨1, 4096, 16, by decide, by decide⟩, .associate 1] :=
  (undropped_iff _ (by decide)).mpr (by decide)

/-- The address is used again before the release erases its entry: it erases the entry of
the new buffer, whose own release will find nothing. -/
theorem reused_address_dropped :
    ∃ s, run step Process.initial
        [.allocate 4096 16, .newGlobalRef ⟨0, 4096, 16, by decide, by decide⟩, .associate 0,
          .handOver 0 (.message 1 ⟨0, 0, 0⟩), .receive 0, .dartFinalizer 0, .lookUp 0,
          .deleteGlobalRef 0, .collect 0, .allocate 4096 16,
          .newGlobalRef ⟨1, 4096, 16, by decide, by decide⟩, .associate 1, .erase 0] = some s ∧
      s.erasures = [⟨0, 0, some 1⟩] ∧ s.shared.globalReferences 4096 = none ∧
      ¬ Undropped s := by
  refine ⟨_, rfl, by decide, by decide, ?_⟩
  intro h
  exact absurd (h.erased ⟨0, 0, some 1⟩ (by decide) 1 rfl) (by decide)

end NativeChannel.EraseRace
