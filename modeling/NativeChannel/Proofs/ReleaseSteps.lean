import NativeChannel.Library.Simulation
import NativeChannel.Proofs.ViewLifetime
import NativeChannel.Source.FinalizerSteps

namespace NativeChannel.ReleaseSteps
open Runs Counts Simulation FinalizerSteps Wrapper
open Finalizer (JavaBuffer DartView Wrapped GlobalRef Allocation)
open ViewLifetime (Inside keepers)

/-- The reference that a call of `ReleaseGlobalReferenceByPointer` found and has yet to
erase the entry of. -/
def Release.object (x : Release) : Option Nat :=
  match x.phase with
  | .found object => some object
  | .deleted object => some object
  | _ => none

/-- The memory and the address that something still needs, if it does: a reply that is
recorded and not handed over, a wrapper with Dart, a view, and a release that has yet to
delete its reference. -/
def Reply.user (x : Reply) : Option (Nat × Nat) :=
  match x.phase with
  | .associated => some (x.object.memory, x.object.buffer.address)
  | _ => none

def Wrapped.user (w : Wrapped) : Option (Nat × Nat) :=
  if w.freed then none else w.received.map fun v => (w.memory, v.address)

def DartView.user (v : DartView) : Option (Nat × Nat) :=
  if v.fired then none else some (v.memory, v.view.address)

def Release.user (x : Release) : Option (Nat × Nat) :=
  match x.phase with
  | .entered => some (x.memory, x.ptr)
  | .found _ => some (x.memory, x.ptr)
  | _ => none

def users (s : Process) : List (Nat × Nat) :=
  s.replies.filterMap Reply.user ++ s.shared.wrappers.filterMap Wrapped.user ++
    s.shared.views.filterMap DartView.user ++ s.releases.filterMap Release.user

/-- The reference `r` was recorded under `p`. -/
def AssociatedWith (s : Process) (r p : Nat) : Prop :=
  ∃ g, s.shared.globalRefs[r]? = some g ∧ g.association = some p

/-- What holds of references, their memory and the map, however the calls interleave. -/
structure Formed (s : Process) : Prop where
  disjoint : ∀ m m' p, Inside s.shared m p → Inside s.shared m' p → m = m'
  referenced : ∀ g ∈ s.shared.globalRefs, g.deleted = false →
    Inside s.shared g.object.memory g.object.buffer.address
  addressed : ∀ g ∈ s.shared.globalRefs, ∀ p, g.association = some p →
    p = g.object.buffer.address
  entries : ∀ p r, s.shared.globalReferences p = some (some r) → AssociatedWith s r p
  found : ∀ x ∈ s.releases, ∀ r, Release.object x = some r → AssociatedWith s r x.ptr
  created : ∀ x ∈ s.replies, x.phase = .created → ∃ g, s.shared.globalRefs[x.ref]? = some g ∧
    g.association = none ∧ g.deleted = false ∧ g.object = x.object
  distinct : ∀ (i j : Nat) (x y : Reply), s.replies[i]? = some x → s.replies[j]? = some y →
    x.phase = .created → y.phase = .created → x.ref = y.ref → i = j

/-- No user of `t` is one more than the users of `s`. -/
def UsersWithin (t s : Process) : Prop := ∀ p, (users t).countP p ≤ (users s).countP p

/-- The users of `t` are as many as those of `s`, of each kind. -/
def UsersSame (t s : Process) : Prop := ∀ p, (users t).countP p = (users s).countP p

section Users
variable {s t : Process}

theorem UsersSame.within (h : UsersSame t s) : UsersWithin t s := fun p => Nat.le_of_eq (h p)

theorem UsersWithin.mem (h : UsersWithin t s) {u : Nat × Nat} (hu : u ∈ users t) :
    u ∈ users s := by
  have hpos : 0 < (users t).countP (fun v => v == u) :=
    List.countP_pos_iff.mpr ⟨u, hu, by simp⟩
  obtain ⟨v, hv, he⟩ := List.countP_pos_iff.mp (Nat.lt_of_lt_of_le hpos (h _))
  rwa [beq_iff_eq.mp he] at hv

theorem countP_users (p : Nat × Nat → Bool) : (users s).countP p =
    (s.replies.filterMap Reply.user).countP p +
      (s.shared.wrappers.filterMap Wrapped.user).countP p +
      (s.shared.views.filterMap DartView.user).countP p +
      (s.releases.filterMap Release.user).countP p := by
  simp only [users, List.countP_append]

theorem countP_set {α β : Type} {l : List α} {i : Nat} {a : α} (f : α → Option β) (b : α)
    (h : l[i]? = some a) (p : β → Bool) :
    ((l.set i b).filterMap f).countP p + (f a).toList.countP p =
      (l.filterMap f).countP p + (f b).toList.countP p := by
  have hp := (filterMap_set_perm f b h).countP_eq p
  simpa only [List.countP_append] using hp

/-- A reply that is handed over goes on as its wrapper. -/
theorem users_handOver {i : Nat} {object : JavaBuffer} {ref : Nat}
    (hi : s.replies[i]? = some ⟨object, ref, .associated⟩) :
    UsersSame ((s.handOver ⟨object.memory, some object.buffer.view, false⟩).setReply i
      ⟨object, ref, .handedOver⟩) s := by
  intro p
  have hset := countP_set Reply.user ⟨object, ref, .handedOver⟩ hi p
  rw [countP_users, countP_users]
  simp only [Process.handOver, Process.setReply, List.filterMap_append, List.countP_append,
    List.filterMap_cons, List.filterMap_nil, Wrapped.user, Reply.user, DirectByteBuffer.view,
    Option.toList, List.countP_nil, if_false, Option.map_some, Bool.false_eq_true] at hset ⊢
  omega

/-- A wrapper that Dart read goes on as the view. -/
theorem users_receive {k : Nat} {w : Wrapped} {view : View} (hk : s.shared.wrappers[k]? = some w)
    (hf : w.freed = false) (hv : w.received = some view) :
    UsersSame { s with shared := { s.shared with
      wrappers := s.shared.wrappers.set k { w with freed := true }
      views := s.shared.views ++ [⟨w.memory, view, false⟩] } } s := by
  intro p
  have hset := countP_set Wrapped.user { w with freed := true } hk p
  rw [countP_users, countP_users]
  simp only [List.filterMap_append, List.countP_append, List.filterMap_cons, List.filterMap_nil,
    Wrapped.user, DartView.user, hf, hv, Option.toList, List.countP_nil, if_false, if_true,
    Option.map_some, Bool.false_eq_true] at hset ⊢
  omega

theorem users_receiveNull {k : Nat} {w : Wrapped} (hk : s.shared.wrappers[k]? = some w)
    (hv : w.received = none) :
    UsersSame { s with shared := { s.shared with
      wrappers := s.shared.wrappers.set k { w with freed := true } } } s := by
  intro p
  have hset := countP_set Wrapped.user { w with freed := true } hk p
  rw [countP_users, countP_users]
  simp only [Wrapped.user, hv, Option.map_none, ite_self, Option.toList, List.countP_nil] at hset ⊢
  omega

/-- A view whose finalizer fires goes on as the release. -/
theorem users_dartFinalizer {k : Nat} {v : DartView} (hk : s.shared.views[k]? = some v)
    (hf : v.fired = false) :
    UsersSame { s with
      shared := { s.shared with views := s.shared.views.set k { v with fired := true } }
      releases := s.releases ++ [⟨v.memory, v.view.address, .entered⟩] } s := by
  intro p
  have hset := countP_set DartView.user { v with fired := true } hk p
  rw [countP_users, countP_users]
  simp only [List.filterMap_append, List.countP_append, List.filterMap_cons, List.filterMap_nil,
    DartView.user, Release.user, hf, Option.toList, List.countP_nil, if_false, if_true,
    Bool.false_eq_true] at hset ⊢
  omega

theorem users_setRelease {j : Nat} {x y : Release} (hj : s.releases[j]? = some x)
    (p : Nat × Nat → Bool) :
    (users (s.setRelease j y)).countP p + (Release.user x).toList.countP p =
      (users s).countP p + (Release.user y).toList.countP p := by
  have hset := countP_set Release.user y hj p
  rw [countP_users, countP_users]
  simp only [Process.setRelease]
  omega

/-- A reply that gets recorded is a new user. -/
theorem users_associate {i : Nat} {object : JavaBuffer} {ref : Nat}
    (hi : s.replies[i]? = some ⟨object, ref, .created⟩) (p : Nat × Nat → Bool) :
    (users ((s.associate object.buffer.address ref).setReply i
      ⟨object, ref, .associated⟩)).countP p =
        (users s).countP p + if p (object.memory, object.buffer.address) then 1 else 0 := by
  have hset := countP_set Reply.user ⟨object, ref, .associated⟩ hi p
  rw [countP_users, countP_users]
  simp only [Process.associate, Process.setReply, Reply.user, Option.toList, List.countP_cons,
    Finalizer.Process.associatePointerWithGlobalReference, List.countP_nil] at hset ⊢
  omega

end Users

section Formed
variable {s : Process}

/-- The same references in the same memory, and no entry, release or reply that was not
there before. -/
theorem Formed.of_same {t : Process} (hs : Formed s)
    (ha : t.shared.allocations = s.shared.allocations)
    (hg : t.shared.globalRefs = s.shared.globalRefs)
    (he : ∀ p r, t.shared.globalReferences p = some (some r) →
      s.shared.globalReferences p = some (some r))
    (hf : ∀ x ∈ t.releases, ∀ r, Release.object x = some r → AssociatedWith s r x.ptr)
    (hc : ∀ (i : Nat) (x : Reply), t.replies[i]? = some x → x.phase = .created →
      s.replies[i]? = some x) : Formed t := by
  have hi : ∀ m p, Inside t.shared m p ↔ Inside s.shared m p := by
    intro m p
    unfold Inside
    rw [ha]
  have hassoc : ∀ r p, AssociatedWith t r p ↔ AssociatedWith s r p := by
    intro r p
    unfold AssociatedWith
    rw [hg]
  refine ⟨?_, ?_, ?_, ?_, ?_, ?_, ?_⟩
  · intro m m' p hm hm'
    exact hs.disjoint m m' p ((hi m p).mp hm) ((hi m' p).mp hm')
  · intro g hm hd
    rw [hg] at hm
    exact (hi _ _).mpr (hs.referenced g hm hd)
  · intro g hm
    rw [hg] at hm
    exact hs.addressed g hm
  · intro p r hp
    exact (hassoc r p).mpr (hs.entries p r (he p r hp))
  · intro x hx r hr
    exact (hassoc r _).mpr (hf x hx r hr)
  · intro x hx hphase
    obtain ⟨i, hi'⟩ := List.mem_iff_getElem?.mp hx
    rw [hg]
    exact hs.created x (mem_of_at (hc i x hi' hphase)) hphase
  · intro i j x y hx hy hpx hpy href
    exact hs.distinct i j x y (hc i x hx hpx) (hc j y hy hpy) hpx hpy href

theorem allocate_formed {start size : Nat} (hs : Formed s)
    (apart : ∀ x ∈ s.shared.allocations, x.apart start size = true) :
    Formed { s with shared := { s.shared with
      allocations := s.shared.allocations ++ [⟨start, size, false⟩] } } := by
  refine ⟨ViewLifetime.disjoint_allocate hs.disjoint apart, ?_, hs.addressed, hs.entries,
    hs.found, hs.created, hs.distinct⟩
  intro g hg hd
  exact ViewLifetime.inside_allocate.mpr (Or.inl (hs.referenced g hg hd))

theorem collect_formed {m : Nat} (hs : Formed s)
    (unused : ∀ g ∈ s.shared.globalRefs, g.deleted = true ∨ g.object.memory ≠ m) :
    Formed { s with shared := { s.shared with
      allocations := s.shared.allocations.modify m fun x => { x with collected := true } } } := by
  refine ⟨?_, ?_, hs.addressed, hs.entries, hs.found, hs.created, hs.distinct⟩
  · intro n n' p hn hn'
    exact hs.disjoint n n' p (ViewLifetime.inside_collect.mp hn).2
      (ViewLifetime.inside_collect.mp hn').2
  · intro g hg hd
    refine ViewLifetime.inside_collect.mpr ⟨?_, hs.referenced g hg hd⟩
    rcases unused g hg with hdel | hm
    · rw [hd] at hdel
      cases hdel
    · exact hm

theorem AssociatedWith.more {r p : Nat} {g : GlobalRef} (h : AssociatedWith s r p) :
    ∃ g', (s.shared.globalRefs ++ [g])[r]? = some g' ∧ g'.association = some p := by
  obtain ⟨g', hg, hp⟩ := h
  exact ⟨g', at_concat.mpr (Or.inl hg), hp⟩

theorem newGlobalRef_formed {reply : JavaBuffer} (hs : Formed s)
    (held : s.shared.holds reply = true) :
    Formed { s with
      shared := s.shared.newGlobalRef reply
      replies := s.replies ++ [⟨reply, s.shared.globalRefs.length, .created⟩] } := by
  have hold : ∀ x ∈ s.replies, x.phase = .created → x.ref < s.shared.globalRefs.length := by
    intro x hx hphase
    obtain ⟨g, hg, _⟩ := hs.created x hx hphase
    exact (List.getElem?_eq_some_iff.mp hg).1
  refine ⟨hs.disjoint, ?_, ?_, ?_, ?_, ?_, ?_⟩
  · intro g hg hd
    rcases List.mem_append.mp hg with hg | hg
    · exact hs.referenced g hg hd
    · rw [List.mem_singleton.mp hg]
      exact ViewLifetime.holds_inside held
  · intro g hg p hp
    rcases List.mem_append.mp hg with hg | hg
    · exact hs.addressed g hg p hp
    · rw [List.mem_singleton.mp hg] at hp
      cases hp
  · intro p r hp
    exact (hs.entries p r hp).more
  · intro x hx r hr
    exact (hs.found x hx r hr).more
  · intro x hx hphase
    rcases List.mem_append.mp hx with hx | hx
    · obtain ⟨g, hg, hrest⟩ := hs.created x hx hphase
      exact ⟨g, at_concat.mpr (Or.inl hg), hrest⟩
    · rw [List.mem_singleton.mp hx]
      exact ⟨_, at_concat.mpr (Or.inr ⟨rfl, rfl⟩), rfl, rfl, rfl⟩
  · intro i j x y hx hy hpx hpy href
    rcases at_concat.mp hx with hx | ⟨hi, rfl⟩
    · rcases at_concat.mp hy with hy | ⟨_, rfl⟩
      · exact hs.distinct i j x y hx hy hpx hpy href
      · exact absurd href (Nat.ne_of_lt (hold x (mem_of_at hx) hpx))
    · rcases at_concat.mp hy with hy | ⟨hj, _⟩
      · exact absurd href.symm (Nat.ne_of_lt (hold y (mem_of_at hy) hpy))
      · rw [hi, hj]

/-- A change to one reference that keeps what is recorded of it. -/
theorem AssociatedWith.set {r p k : Nat} {g g' : GlobalRef} (h : AssociatedWith s r p)
    (hk : s.shared.globalRefs[k]? = some g) (hsame : g.association = some p →
      g'.association = some p) :
    ∃ x, (s.shared.globalRefs.set k g')[r]? = some x ∧ x.association = some p := by
  obtain ⟨x, hx, hp⟩ := h
  by_cases hkr : k = r
  · subst r
    rw [hk] at hx
    cases hx
    exact ⟨g', by rw [List.getElem?_set_self (List.getElem?_eq_some_iff.mp hk).1], hsame hp⟩
  · exact ⟨x, by rw [List.getElem?_set_ne hkr, hx], hp⟩

/-- A reference is recorded under one pointer only. -/
theorem AssociatedWith.unique {r p q : Nat} (h : AssociatedWith s r p) (h' : AssociatedWith s r q) :
    p = q := by
  obtain ⟨g, hg, hp⟩ := h
  obtain ⟨g', hg', hq⟩ := h'
  rw [hg] at hg'
  cases hg'
  rw [hp] at hq
  exact Option.some.inj hq

/-- Looking up a reference after one other was changed. -/
theorem object_set {refs : List GlobalRef} {k r : Nat} {g x y : GlobalRef}
    (hk : refs[k]? = some g) (hsame : y.object = g.object) (hr : refs[r]? = some x) :
    ∃ z, (refs.set k y)[r]? = some z ∧ z.object = x.object := by
  by_cases hkr : k = r
  · subst r
    rw [hk] at hr
    cases hr
    exact ⟨y, List.getElem?_set_self (List.getElem?_eq_some_iff.mp hk).1, hsame⟩
  · exact ⟨x, by rw [List.getElem?_set_ne hkr, hr], rfl⟩

theorem associate_refs {object : JavaBuffer} {ref : Nat} {g : GlobalRef} (i : Nat) (x : Reply)
    (hg : s.shared.globalRefs[ref]? = some g) :
    ((s.associate object.buffer.address ref).setReply i x).shared.globalRefs =
      s.shared.globalRefs.set ref { g with association := some object.buffer.address } :=
  modify_at _ hg

theorem associate_formed {i : Nat} {object : JavaBuffer} {ref : Nat} (hs : Formed s)
    (hi : s.replies[i]? = some ⟨object, ref, .created⟩) :
    Formed ((s.associate object.buffer.address ref).setReply i ⟨object, ref, .associated⟩) := by
  obtain ⟨g, hg, hnone, hlive, hobject⟩ := hs.created _ (mem_of_at hi) rfl
  have hobject : g.object = object := hobject
  have hkeep : ∀ r p, AssociatedWith s r p → AssociatedWith
      ((s.associate object.buffer.address ref).setReply i ⟨object, ref, .associated⟩) r p := by
    intro r p h
    unfold AssociatedWith
    rw [associate_refs i _ hg]
    exact h.set hg (by rw [hnone]; exact fun h => by cases h)
  have hother : ∀ (j : Nat) (x : Reply),
      (s.replies.set i ⟨object, ref, .associated⟩)[j]? = some x → x.phase = .created →
      i ≠ j ∧ s.replies[j]? = some x := by
    intro j x hj hx
    refine at_of_set hj ?_
    intro he
    rw [he] at hx
    cases hx
  refine ⟨hs.disjoint, ?_, ?_, ?_, ?_, ?_, ?_⟩
  · rw [associate_refs i _ hg]
    exact forall_mem_set hs.referenced fun _ => hs.referenced g (mem_of_at hg) hlive
  · rw [associate_refs i _ hg]
    apply forall_mem_set hs.addressed
    intro p hp
    rw [← Option.some.inj hp, ← hobject]
  · intro p r hp
    change Function.update s.shared.globalReferences object.buffer.address (some (some ref)) p =
      some (some r) at hp
    by_cases hpa : p = object.buffer.address
    · subst p
      rw [Function.update_self] at hp
      cases hp
      unfold AssociatedWith
      rw [associate_refs i _ hg]
      exact ⟨_, List.getElem?_set_self (List.getElem?_eq_some_iff.mp hg).1, rfl⟩
    · rw [Function.update_of_ne hpa] at hp
      exact hkeep r p (hs.entries p r hp)
  · intro x hx r hr
    exact hkeep r x.ptr (hs.found x hx r hr)
  · intro x hx hphase
    obtain ⟨j, hj⟩ := List.mem_iff_getElem?.mp hx
    obtain ⟨hij, hj⟩ := hother j x hj hphase
    obtain ⟨g', hg', hrest⟩ := hs.created x (mem_of_at hj) hphase
    have hne : ref ≠ x.ref := fun he => hij (hs.distinct i j _ x hi hj rfl hphase he)
    rw [associate_refs i _ hg]
    exact ⟨g', by rw [List.getElem?_set_ne hne, hg'], hrest⟩
  · intro j k x y hx hy hpx hpy href
    exact hs.distinct j k x y (hother j x hx hpx).2 (hother k y hy hpy).2 hpx hpy href

theorem deleteGlobalRef_refs {object : Nat} {g : GlobalRef}
    (hg : s.shared.globalRefs[object]? = some g) :
    (s.shared.deleteGlobalRef object).globalRefs =
      s.shared.globalRefs.set object { g with deleted := true } :=
  modify_at _ hg

/-- The references once one was deleted. -/
theorem deleted_at {object r : Nat} {g x : GlobalRef}
    (hg : s.shared.globalRefs[object]? = some g)
    (hx : (s.shared.deleteGlobalRef object).globalRefs[r]? = some x) :
    r = object ∧ x = { g with deleted := true } ∨ r ≠ object ∧ s.shared.globalRefs[r]? = some x := by
  rw [deleteGlobalRef_refs hg] at hx
  by_cases hr : object = r
  · subst r
    rw [List.getElem?_set_self (List.getElem?_eq_some_iff.mp hg).1] at hx
    cases hx
    exact Or.inl ⟨rfl, rfl⟩
  · rw [List.getElem?_set_ne hr] at hx
    exact Or.inr ⟨Ne.symm hr, hx⟩

/-- The reference that a release deletes is recorded, so no reply is about to record it. -/
theorem deleteGlobalRef_formed {j memory ptr object : Nat} (hs : Formed s)
    (hj : s.releases[j]? = some ⟨memory, ptr, .found object⟩) :
    Formed ({ s with shared := s.shared.deleteGlobalRef object }.setRelease j
      ⟨memory, ptr, .deleted object⟩) := by
  have hfound : AssociatedWith s object ptr := hs.found _ (mem_of_at hj) object rfl
  obtain ⟨g, hg, hassoc⟩ := hfound
  have hrefs := deleteGlobalRef_refs hg
  have hkeep : ∀ r p, AssociatedWith s r p → AssociatedWith
      ({ s with shared := s.shared.deleteGlobalRef object }.setRelease j
        ⟨memory, ptr, .deleted object⟩) r p := by
    intro r p h
    unfold AssociatedWith
    change ∃ x, (s.shared.deleteGlobalRef object).globalRefs[r]? = some x ∧ _
    rw [hrefs]
    exact h.set hg fun h => h
  refine ⟨hs.disjoint, ?_, ?_, ?_, ?_, ?_, hs.distinct⟩
  · change ∀ x ∈ (s.shared.deleteGlobalRef object).globalRefs, _
    rw [hrefs]
    exact forall_mem_set hs.referenced nofun
  · change ∀ x ∈ (s.shared.deleteGlobalRef object).globalRefs, _
    rw [hrefs]
    exact forall_mem_set hs.addressed (hs.addressed g (mem_of_at hg))
  · intro p r hp
    exact hkeep r p (hs.entries p r hp)
  · apply forall_mem_set fun x hx r hr => hkeep r x.ptr (hs.found x hx r hr)
    intro r hr
    cases hr
    exact hkeep object ptr ⟨g, hg, hassoc⟩
  · intro x hx hphase
    obtain ⟨g', hg', hnone, hrest⟩ := hs.created x hx hphase
    have hne : object ≠ x.ref := by
      intro he
      rw [he, hg'] at hg
      cases hg
      rw [hnone] at hassoc
      cases hassoc
    change ∃ y, (s.shared.deleteGlobalRef object).globalRefs[x.ref]? = some y ∧ _
    rw [hrefs]
    exact ⟨g', by rw [List.getElem?_set_ne hne, hg'], hnone, hrest⟩

end Formed

section Atomic

/-- The operations of a reply, and of a release with a pointer of `s`, that nothing
interrupts. -/
def replyOperations (s : Process) (reply : JavaBuffer) (fresh : Fresh) : List Event :=
  [.newGlobalRef reply, .associate s.replies.length, .handOver s.replies.length fresh]

def releaseOperations (s : Process) (ptr : Nat) : List Event :=
  match (s.shared.globalReferences ptr).join with
  | none => [.lookUp s.releases.length]
  | some _ =>
    [.lookUp s.releases.length, .deleteGlobalRef s.releases.length, .erase s.releases.length]

/-- Those of each call. -/
def operations (s : Process) : Finalizer.Event → List Event
  | .allocate start size => [.allocate start size]
  | .collect m => [.collect m]
  | .replyMessageToDart replyId reply fresh => replyOperations s reply (.message replyId fresh)
  | .sendSynchronousMessageToPlatform result fresh => replyOperations s result (.result fresh)
  | .receive k => [.receive k]
  | .dartFinalizer k =>
    .dartFinalizer k :: (s.shared.views[k]?.map fun v => releaseOperations s v.view.address).getD []

/-- A call that nothing interrupts. -/
def call (s : Process) (e : Finalizer.Event) : Option Process := run step s (operations s e)

variable {s : Process}

theorem reply_run (b : JavaBuffer) (fresh : Fresh) :
    (run step s (replyOperations s b fresh)).map Process.shared =
      if s.shared.holds b then some (s.shared.wrap b (fresh.received b.buffer)) else none := by
  let ref := s.shared.globalRefs.length
  let s₁ : Process := { s with
    shared := s.shared.newGlobalRef b
    replies := s.replies ++ [⟨b, ref, .created⟩] }
  let s₂ := (s₁.associate b.buffer.address ref).setReply s.replies.length ⟨b, ref, .associated⟩
  let s₃ := (s₂.handOver ⟨b.memory, fresh.received b.buffer, false⟩).setReply s.replies.length
    ⟨b, ref, .handedOver⟩
  have hi : s₁.replies[s.replies.length]? = some ⟨b, ref, .created⟩ :=
    at_concat.mpr (Or.inr ⟨rfl, rfl⟩)
  have hi' : s₂.replies[s.replies.length]? = some ⟨b, ref, .associated⟩ :=
    List.getElem?_set_self (List.getElem?_eq_some_iff.mp hi).1
  by_cases held : s.shared.holds b = true
  · have h₁ : step s (.newGlobalRef b) = some s₁ := by simp [step, held, s₁, ref]
    have h₂ : step s₁ (.associate s.replies.length) = some s₂ := by simp [step, hi, s₂]
    have h₃ : step s₂ (.handOver s.replies.length fresh) = some s₃ := by simp [step, hi', s₃]
    rw [replyOperations, run_cons, h₁, Option.bind_some, run_cons, h₂, Option.bind_some, run_cons,
      h₃, if_pos held]
    rfl
  · simp [replyOperations, step, held]

theorem release_run {t : Process} (memory : Nat) {ptr : Nat}
    (hj : t.releases = s.releases ++ [⟨memory, ptr, .entered⟩])
    (hentries : t.shared.globalReferences = s.shared.globalReferences) :
    (run step t (releaseOperations s ptr)).map Process.shared =
      some (t.shared.releaseGlobalReferenceByPointer ptr) := by
  let j := s.releases.length
  have hj : t.releases[j]? = some ⟨memory, ptr, .entered⟩ := by
    rw [hj]
    exact at_concat.mpr (Or.inr ⟨rfl, rfl⟩)
  have hlt : j < t.releases.length := (List.getElem?_eq_some_iff.mp hj).1
  unfold Finalizer.Process.releaseGlobalReferenceByPointer releaseOperations
  rw [← hentries]
  cases hentry : (t.shared.globalReferences ptr).join with
  | none =>
    simp only [run_cons, run_nil, step, hj, j, Process.lookUp, hentry, Option.bind_some,
      Option.map_some]
    rfl
  | some object =>
    let t₁ := t.setRelease j ⟨memory, ptr, .found object⟩
    let t₂ := t₁.deleteGlobalRef j ⟨memory, ptr, .found object⟩ object
    have hj₁ : t₁.releases[j]? = some ⟨memory, ptr, .found object⟩ := List.getElem?_set_self hlt
    have hj₂ : t₂.releases[j]? = some ⟨memory, ptr, .deleted object⟩ :=
      List.getElem?_set_self (List.getElem?_eq_some_iff.mp hj₁).1
    have h₁ : step t (.lookUp j) = some t₁ := by simp [step, hj, Process.lookUp, hentry, t₁]
    have h₂ : step t₁ (.deleteGlobalRef j) = some t₂ := by simp [step, hj₁, t₂]
    have h₃ : step t₂ (.erase j) = some (t₂.erase j ⟨memory, ptr, .deleted object⟩ object) := by
      simp [step, hj₂]
    change (run step t [.lookUp j, .deleteGlobalRef j, .erase j]).map _ = _
    rw [run_cons, h₁, Option.bind_some, run_cons, h₂, Option.bind_some, run_cons, h₃]
    rfl

/-- A call moves the shared state as its operations do in a row. -/
theorem call_shared (s : Process) (e : Finalizer.Event) :
    (call s e).map Process.shared = Finalizer.step s.shared e := by
  unfold call
  cases e with
  | allocate start size =>
    simp only [operations, run_cons, run_nil, step]
    cases Finalizer.step s.shared (.allocate start size) <;> rfl
  | collect m =>
    simp only [operations, run_cons, run_nil, step]
    cases Finalizer.step s.shared (.collect m) <;> rfl
  | receive k =>
    simp only [operations, run_cons, run_nil, step]
    cases Finalizer.step s.shared (.receive k) <;> rfl
  | replyMessageToDart replyId reply fresh => exact reply_run reply (.message replyId fresh)
  | sendSynchronousMessageToPlatform result fresh => exact reply_run result (.result fresh)
  | dartFinalizer k =>
    simp only [operations, run_cons, step, Finalizer.step]
    cases s.shared.views[k]? with
    | none => rfl
    | some v =>
      simp only [Option.map_some, Option.getD_some]
      split
      · rfl
      · exact release_run (s := s) v.memory rfl rfl

/-- A run of whole calls is the run of their operations, and leaves the same shared state. -/
theorem atomic_run (s : Process) (es : List Finalizer.Event) :
    (run step s (trace call operations s es)).map Process.shared =
      run Finalizer.step s.shared es := by
  have hcalls : run step s (trace call operations s es) = run call s es :=
    run_trace (fun _ _ => rfl) es
  rw [hcalls]
  exact run_map Process.shared call_shared s es

/-- One buffer replied with on both channels, and the finalizers of its two views. -/
example : trace call operations Process.initial
    [.allocate 4096 16,
      .replyMessageToDart 1 ⟨0, 4096, 16, by decide, by decide⟩ ⟨0, 0, 0⟩,
      .sendSynchronousMessageToPlatform ⟨0, 4096, 16, by decide, by decide⟩ ⟨0, 0⟩,
      .receive 0, .receive 1, .dartFinalizer 0, .dartFinalizer 1] =
    [.allocate 4096 16,
      .newGlobalRef ⟨0, 4096, 16, by decide, by decide⟩, .associate 0,
      .handOver 0 (.message 1 ⟨0, 0, 0⟩),
      .newGlobalRef ⟨0, 4096, 16, by decide, by decide⟩, .associate 1,
      .handOver 1 (.result ⟨0, 0⟩),
      .receive 0, .receive 1, .dartFinalizer 0, .lookUp 0, .deleteGlobalRef 0, .erase 0,
      .dartFinalizer 1, .lookUp 1] := by rfl

end Atomic

end NativeChannel.ReleaseSteps
