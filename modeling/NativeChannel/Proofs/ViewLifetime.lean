import NativeChannel.Library.Counts
import NativeChannel.Library.Runs
import NativeChannel.Proofs.Framing
import NativeChannel.Source.Finalizer

namespace NativeChannel.ViewLifetime
open Runs Counts Finalizer Wrapper

/-- The memory at `p` belongs to the allocation `m`, which is still there. -/
def Inside (s : Process) (m p : Nat) : Prop :=
  ∃ x, s.allocations[m]? = some x ∧ x.contains p = true

/-- A view in use has a recorded reference that keeps its memory, and it shows
that memory. -/
structure KeptAlive (s : Process) (v : DartView) : Prop where
  reference : ∃ g ∈ s.globalRefs, g.association.isSome = true ∧ g.deleted = false ∧
    g.object.memory = v.memory
  inside : Inside s v.memory v.view.address

def ViewsKept (s : Process) : Prop := ∀ v ∈ s.views, v.fired = false → KeptAlive s v

def Wrapped.uses (m : Nat) (w : Wrapped) : Bool := !w.freed && w.memory == m

def DartView.uses (m : Nat) (v : DartView) : Bool := !v.fired && v.memory == m

/-- The wrappers and views that still need the allocation `m`. -/
def users (s : Process) (m : Nat) : Nat :=
  s.wrappers.countP (Wrapped.uses m) + s.views.countP (DartView.uses m)

def keepers (s : Process) (m : Nat) : Nat := s.globalRefs.countP (GlobalRef.keeps m)

/-- Every wrapper or view brought a reference of its own, and a finalizer deletes
one at most. The pointer of an entry tells which memory its reference keeps. -/
structure Sound (s : Process) : Prop where
  disjoint : ∀ m m' p, Inside s m p → Inside s m' p → m = m'
  entries : ∀ p r, s.globalReferences p = some (some r) →
    ∃ g, s.globalRefs[r]? = some g ∧ g.association = some p ∧ g.deleted = false ∧
      Inside s g.object.memory p
  posted : ∀ w ∈ s.wrappers, w.freed = false → ∀ v, w.received = some v →
    Inside s w.memory v.address
  viewed : ∀ v ∈ s.views, v.fired = false → Inside s v.memory v.view.address
  counted : ∀ m, users s m ≤ keepers s m

theorem contains_bounds {x : Allocation} {p : Nat} (h : x.contains p = true) :
    x.collected = false ∧ x.start ≤ p ∧ p < x.start + x.size := by
  simpa [Allocation.contains, and_assoc] using h

/-- Fresh memory shares no address with memory in use. -/
theorem apart_contains {x : Allocation} {start size p : Nat} (ha : x.apart start size = true)
    (hx : x.contains p = true) : Allocation.contains ⟨start, size, false⟩ p = false := by
  obtain ⟨hc, hl, hu⟩ := contains_bounds hx
  have ha : x.start + x.size ≤ start ∨ start + size ≤ x.start := by
    simpa [Allocation.apart, hc] using ha
  by_contra hp
  obtain ⟨_, hl', hu'⟩ := contains_bounds (by simpa using hp)
  change start ≤ p at hl'
  change p < start + size at hu'
  omega

theorem inside_allocate {s : Process} {start size m p : Nat} :
    Inside { s with allocations := s.allocations ++ [⟨start, size, false⟩] } m p ↔
      Inside s m p ∨
        m = s.allocations.length ∧ Allocation.contains ⟨start, size, false⟩ p = true := by
  constructor
  · intro h
    obtain ⟨x, hx, hc⟩ := h
    rcases at_concat.mp hx with hx | ⟨hm, rfl⟩
    · exact Or.inl ⟨x, hx, hc⟩
    · exact Or.inr ⟨hm, hc⟩
  · intro h
    rcases h with ⟨x, hx, hc⟩ | ⟨hm, hc⟩
    · exact ⟨x, at_concat.mpr (Or.inl hx), hc⟩
    · exact ⟨_, at_concat.mpr (Or.inr ⟨hm, rfl⟩), hc⟩

theorem inside_collect {s : Process} {m n p : Nat} :
    Inside { s with allocations := s.allocations.modify n fun x => { x with collected := true } }
      m p ↔ m ≠ n ∧ Inside s m p := by
  unfold Inside
  by_cases hn : n = m
  · subst n
    refine iff_of_false ?_ fun h => h.1 rfl
    intro h
    obtain ⟨x, hx, hc⟩ := h
    rw [List.getElem?_modify_eq] at hx
    obtain ⟨y, _, rfl⟩ := Option.map_eq_some_iff.mp hx
    cases (contains_bounds hc).1
  · rw [List.getElem?_modify_ne _ _ hn]
    exact (and_iff_right fun h => hn h.symm).symm

/-- What Dart reads of a reply is the reply. -/
theorem reply_view {e : Event} {b : JavaBuffer} {received : Option View}
    (h : e.reply = some (b, received)) : received = some b.buffer.view := by
  cases e with
  | replyMessageToDart replyId reply fresh =>
    cases h
    exact (Framing.received_fill fresh replyId (some b.buffer)).mpr (Or.inl rfl)
  | sendSynchronousMessageToPlatform result fresh =>
    cases h
    exact (Framing.received_fill_result fresh (some b.buffer)).mpr (Or.inl rfl)
  | _ => cases h

theorem wrap_globalRefs (s : Process) (b : JavaBuffer) (received : Option View) :
    (s.wrap b received).globalRefs = s.globalRefs ++ [⟨b, some b.buffer.address, false⟩] := by
  have hat : (s.globalRefs ++ [(⟨b, none, false⟩ : GlobalRef)])[s.globalRefs.length]? =
      some ⟨b, none, false⟩ := at_concat.mpr (Or.inr ⟨rfl, rfl⟩)
  change (s.globalRefs ++ [(⟨b, none, false⟩ : GlobalRef)]).modify _ _ = _
  rw [modify_at _ hat]
  simp

theorem holds_inside {s : Process} {b : JavaBuffer} (h : s.holds b = true) :
    Inside s b.memory b.buffer.address := by
  unfold Process.holds at h
  cases hx : s.allocations[b.memory]? with
  | none => simp [hx] at h
  | some x =>
    rw [hx] at h
    exact ⟨x, hx, h⟩

theorem wrap_sound {s : Process} {b : JavaBuffer} (hs : Sound s)
    (hb : Inside s b.memory b.buffer.address) : Sound (s.wrap b (some b.buffer.view)) := by
  refine ⟨hs.disjoint, ?_, ?_, hs.viewed, ?_⟩
  · intro p r hp
    rw [wrap_globalRefs]
    change Function.update s.globalReferences b.buffer.address (some (some s.globalRefs.length)) p =
      some (some r) at hp
    by_cases hpb : p = b.buffer.address
    · subst p
      rw [Function.update_self] at hp
      cases hp
      exact ⟨_, at_concat.mpr (Or.inr ⟨rfl, rfl⟩), rfl, rfl, hb⟩
    · rw [Function.update_of_ne hpb] at hp
      obtain ⟨g, hg, hrest⟩ := hs.entries p r hp
      exact ⟨g, at_concat.mpr (Or.inl hg), hrest⟩
  · intro w hw hf v hv
    rcases List.mem_append.mp hw with hw | hw
    · exact hs.posted w hw hf v hv
    · rw [List.mem_singleton.mp hw] at hv ⊢
      cases hv
      exact hb
  · intro m
    have hold := hs.counted m
    unfold keepers
    rw [wrap_globalRefs]
    change (s.wrappers ++ [_]).countP (Wrapped.uses m) + s.views.countP (DartView.uses m) ≤ _
    simp only [users, keepers, List.countP_append, List.countP_singleton, Wrapped.uses,
      GlobalRef.keeps, Option.isSome_some, Bool.not_false, Bool.true_and] at hold ⊢
    omega

/-- A reference that is found under a pointer into `m` keeps `m`. -/
theorem entry_keeps {s : Process} (hs : Sound s) {m p r : Nat} (hm : Inside s m p)
    (hp : s.globalReferences p = some (some r)) :
    ∃ g, s.globalRefs[r]? = some g ∧ g.association = some p ∧ g.deleted = false ∧
      g.object.memory = m := by
  obtain ⟨g, hg, ha, hd, hi⟩ := hs.entries p r hp
  exact ⟨g, hg, ha, hd, hs.disjoint _ _ p hi hm⟩

theorem keepers_delete {s : Process} {r p : Nat} {g : GlobalRef} (hg : s.globalRefs[r]? = some g)
    (ha : g.association = some p) (hd : g.deleted = false) (n : Nat) :
    keepers (s.deleteGlobalRef r) n + (if g.object.memory = n then 1 else 0) = keepers s n := by
  have hset := countP_set_add (GlobalRef.keeps n) { g with deleted := true } hg
  have hkeeps : GlobalRef.keeps n g = (g.object.memory == n) := by
    simp [GlobalRef.keeps, ha, hd]
  have hafter : GlobalRef.keeps n { g with deleted := true } = false := by
    simp [GlobalRef.keeps]
  rw [hkeeps, hafter] at hset
  unfold keepers Process.deleteGlobalRef
  rw [modify_at _ hg]
  simpa using hset

/-- An entry that is left after one was cleared. -/
theorem entry_of_cleared {f : Nat → Option (Option Nat)} {p q r : Nat} {x : Option (Option Nat)}
    (hx : x.join = none) (h : Function.update f p x q = some (some r)) :
    q ≠ p ∧ f q = some (some r) := by
  by_cases hq : q = p
  · subst q
    rw [Function.update_self] at h
    rw [h] at hx
    cases hx
  · rw [Function.update_of_ne hq] at h
    exact ⟨hq, h⟩

/-- Deleting the reference found under the address of a view that went away. -/
theorem release_sound {s : Process} {p m : Nat} (hs : Sound s) (hm : Inside s m p)
    (hroom : ∀ n, users s n + (if m = n then 1 else 0) ≤ keepers s n) :
    Sound (s.releaseGlobalReferenceByPointer p) := by
  unfold Process.releaseGlobalReferenceByPointer
  split
  · -- nothing is recorded there any more: only a null entry appears
    refine ⟨hs.disjoint, ?_, hs.posted, hs.viewed, ?_⟩
    · intro q r hq
      exact hs.entries q r (entry_of_cleared rfl hq).2
    · intro n
      exact hs.counted n
  · rename_i r hr
    have hentry : s.globalReferences p = some (some r) := Option.join_eq_some_iff.mp hr
    obtain ⟨g, hg, ha, hd, hgm⟩ := entry_keeps hs hm hentry
    refine ⟨hs.disjoint, ?_, hs.posted, hs.viewed, ?_⟩
    · intro q r' hq
      obtain ⟨hqp, hq⟩ := entry_of_cleared rfl hq
      obtain ⟨g', hg', ha', hrest⟩ := hs.entries q r' hq
      have hne : r ≠ r' := by
        intro he
        subst r'
        rw [hg] at hg'
        cases hg'
        rw [ha] at ha'
        exact hqp (Option.some.inj ha').symm
      refine ⟨g', ?_, ha', hrest⟩
      exact (List.getElem?_modify_ne _ _ hne).trans hg'
    · intro n
      have hdel := keepers_delete hg ha hd n
      have hn := hroom n
      rw [hgm] at hdel
      change users s n ≤ keepers (s.deleteGlobalRef r) n
      omega

/-- Memory handed out is nobody else's. -/
theorem disjoint_allocate {s : Process} {start size : Nat}
    (hd : ∀ m m' p, Inside s m p → Inside s m' p → m = m')
    (apart : ∀ x ∈ s.allocations, x.apart start size = true) (m m' p : Nat)
    (hm : Inside { s with allocations := s.allocations ++ [⟨start, size, false⟩] } m p)
    (hm' : Inside { s with allocations := s.allocations ++ [⟨start, size, false⟩] } m' p) :
    m = m' := by
  have hnew : ∀ m p, Inside s m p → Allocation.contains ⟨start, size, false⟩ p = false := by
    intro m p hm
    obtain ⟨x, hx, hc⟩ := hm
    exact apart_contains (apart x (mem_of_at hx)) hc
  rcases inside_allocate.mp hm with hm | ⟨hm, hc⟩
  · rcases inside_allocate.mp hm' with hm' | ⟨_, hc'⟩
    · exact hd m m' p hm hm'
    · rw [hnew m p hm] at hc'
      cases hc'
  · rcases inside_allocate.mp hm' with hm' | ⟨hm', _⟩
    · rw [hnew m' p hm'] at hc
      cases hc
    · rw [hm, hm']

theorem allocate_sound {s : Process} {start size : Nat} (hs : Sound s)
    (apart : ∀ x ∈ s.allocations, x.apart start size = true) :
    Sound { s with allocations := s.allocations ++ [⟨start, size, false⟩] } := by
  have hold : ∀ m p, Inside s m p →
      Inside { s with allocations := s.allocations ++ [⟨start, size, false⟩] } m p :=
    fun m p hm => inside_allocate.mpr (Or.inl hm)
  refine ⟨disjoint_allocate hs.disjoint apart, ?_, ?_, ?_, hs.counted⟩
  · intro p r hp
    obtain ⟨g, hg, ha, hd, hi⟩ := hs.entries p r hp
    exact ⟨g, hg, ha, hd, hold _ _ hi⟩
  · intro w hw hf v hv
    exact hold _ _ (hs.posted w hw hf v hv)
  · intro v hv hf
    exact hold _ _ (hs.viewed v hv hf)

theorem keepers_unused {s : Process} {m : Nat}
    (unused : ∀ g ∈ s.globalRefs, g.deleted = true ∨ g.object.memory ≠ m) : keepers s m = 0 := by
  unfold keepers
  rw [List.countP_eq_zero]
  intro g hg
  rcases unused g hg with hd | hm
  · simp [GlobalRef.keeps, hd]
  · simp [GlobalRef.keeps, hm]

/-- Memory without a reference has no user either, so its loss harms nobody. -/
theorem collect_sound {s : Process} {m : Nat} (hs : Sound s)
    (unused : ∀ g ∈ s.globalRefs, g.deleted = true ∨ g.object.memory ≠ m) :
    Sound { s with
      allocations := s.allocations.modify m fun x => { x with collected := true } } := by
  have huse : users s m = 0 := Nat.le_zero.mp (keepers_unused unused ▸ hs.counted m)
  obtain ⟨hwrap, hview⟩ := Nat.add_eq_zero_iff.mp huse
  refine ⟨?_, ?_, ?_, ?_, hs.counted⟩
  · intro n n' p hn hn'
    exact hs.disjoint n n' p (inside_collect.mp hn).2 (inside_collect.mp hn').2
  · intro p r hp
    obtain ⟨g, hg, ha, hd, hi⟩ := hs.entries p r hp
    refine ⟨g, hg, ha, hd, inside_collect.mpr ⟨?_, hi⟩⟩
    rcases unused g (mem_of_at hg) with hdel | hm
    · rw [hd] at hdel
      cases hdel
    · exact hm
  · intro w hw hf v hv
    refine inside_collect.mpr ⟨?_, hs.posted w hw hf v hv⟩
    intro hm
    exact List.countP_eq_zero.mp hwrap w hw (by simp [Wrapped.uses, hf, hm])
  · intro v hv hf
    refine inside_collect.mpr ⟨?_, hs.viewed v hv hf⟩
    intro hm
    exact List.countP_eq_zero.mp hview v hv (by simp [DartView.uses, hf, hm])

theorem free_count {s : Process} {k : Nat} {w : Wrapped} (hk : s.wrappers[k]? = some w)
    (hf : w.freed = false) (m : Nat) :
    (s.wrappers.set k { w with freed := true }).countP (Wrapped.uses m) +
        (if w.memory = m then 1 else 0) = s.wrappers.countP (Wrapped.uses m) := by
  have hset := countP_set_add (Wrapped.uses m) { w with freed := true } hk
  have hafter : Wrapped.uses m { w with freed := true } = false := rfl
  have hbefore : Wrapped.uses m w = (w.memory == m) := by simp [Wrapped.uses, hf]
  rw [hafter, hbefore] at hset
  simpa using hset

theorem fire_count {s : Process} {k : Nat} {v : DartView} (hk : s.views[k]? = some v)
    (hf : v.fired = false) (m : Nat) :
    (s.views.set k { v with fired := true }).countP (DartView.uses m) +
        (if v.memory = m then 1 else 0) = s.views.countP (DartView.uses m) := by
  have hset := countP_set_add (DartView.uses m) { v with fired := true } hk
  have hafter : DartView.uses m { v with fired := true } = false := rfl
  have hbefore : DartView.uses m v = (v.memory == m) := by simp [DartView.uses, hf]
  rw [hafter, hbefore] at hset
  simpa using hset

/-- The wrapper hands its reference over to the view. -/
theorem receive_sound {s : Process} {k : Nat} {w : Wrapped} (hs : Sound s)
    (hk : s.wrappers[k]? = some w) (hf : w.freed = false) (seen : List DartView)
    (hseen : seen = [] ∨ ∃ view, w.received = some view ∧ seen = [⟨w.memory, view, false⟩]) :
    Sound { s with
      wrappers := s.wrappers.set k { w with freed := true }
      views := s.views ++ seen } := by
  refine ⟨hs.disjoint, hs.entries, forall_mem_set hs.posted nofun, ?_, ?_⟩
  · intro x hx hfx
    rcases List.mem_append.mp hx with hx | hx
    · exact hs.viewed x hx hfx
    · rcases hseen with rfl | ⟨view, hv, rfl⟩
      · cases hx
      · rw [List.mem_singleton.mp hx]
        exact hs.posted w (mem_of_at hk) hf view hv
  · intro m
    have hold := hs.counted m
    have hfree := free_count hk hf m
    have hadd : seen.countP (DartView.uses m) ≤ if w.memory = m then 1 else 0 := by
      rcases hseen with rfl | ⟨view, _, rfl⟩
      · exact Nat.zero_le _
      · simp [DartView.uses, List.countP_singleton]
    change (s.wrappers.set k _).countP _ + (s.views ++ seen).countP _ ≤ keepers s m
    rw [List.countP_append]
    simp only [users] at hold
    omega

theorem finalize_sound {s : Process} {k : Nat} {v : DartView} (hs : Sound s)
    (hk : s.views[k]? = some v) (hf : v.fired = false) :
    Sound (Process.releaseGlobalReferenceByPointer
      { s with views := s.views.set k { v with fired := true } } v.view.address) := by
  have hin := hs.viewed v (mem_of_at hk) hf
  have hcount : ∀ n, users { s with views := s.views.set k { v with fired := true } } n +
      (if v.memory = n then 1 else 0) = users s n := by
    intro n
    have hfire := fire_count hk hf n
    simp only [users]
    omega
  refine release_sound (m := v.memory) ⟨hs.disjoint, hs.entries, hs.posted,
    forall_mem_set hs.viewed nofun, ?_⟩ hin ?_
  · intro n
    have hold := hs.counted n
    have hn := hcount n
    change users _ n ≤ keepers s n
    omega
  · intro n
    rw [hcount n]
    exact hs.counted n

theorem step_sound {s t : Process} {e : Event} (hs : Sound s) (h : step s e = some t) :
    Sound t := by
  cases step_moves h with
  | allocate apart => exact allocate_sound hs apart
  | collect unused => exact collect_sound hs unused
  | reply is held =>
    rw [reply_view is]
    exact wrap_sound hs (holds_inside held)
  | @receive k w view hk hf hv =>
    exact receive_sound hs hk hf [⟨w.memory, view, false⟩] (Or.inr ⟨view, hv, rfl⟩)
  | @receiveNull k w hk hf =>
    have hnull := receive_sound hs hk hf [] (Or.inl rfl)
    rwa [List.append_nil] at hnull
  | finalize hk hf => exact finalize_sound hs hk hf

theorem initial_sound : Sound Process.initial := by
  have none_inside : ∀ m p, ¬ Inside Process.initial m p := by
    intro m p hm
    obtain ⟨x, hx, _⟩ := hm
    simp [Process.initial] at hx
  refine ⟨?_, nofun, nofun, nofun, fun _ => Nat.le_refl 0⟩
  intro m _ p hm
  exact absurd hm (none_inside m p)

theorem Sound.kept {s : Process} (hs : Sound s) : ViewsKept s := by
  intro v hv hf
  refine ⟨?_, hs.viewed v hv hf⟩
  have huse : 0 < users s v.memory := by
    have := List.countP_pos_iff.mpr ⟨v, hv, (show DartView.uses v.memory v = true by
      simp [DartView.uses, hf])⟩
    unfold users
    omega
  obtain ⟨g, hg, hk⟩ := List.countP_pos_iff.mp (Nat.lt_of_lt_of_le huse (hs.counted v.memory))
  simp only [GlobalRef.keeps, Bool.and_eq_true, Bool.not_eq_true', beq_iff_eq] at hk
  exact ⟨g, hg, hk.1.1, hk.1.2, hk.2⟩

/-- In every state of a run, each view whose finalizer has not fired lies in
memory that some recorded reference keeps from the collector. -/
theorem views_kept (es : List Event) {s : Process}
    (hr : run step Process.initial es = some s) : ViewsKept s :=
  (run_invariant (fun _ _ _ hs h => step_sound hs h) initial_sound hr).kept

/-- One buffer in two replies: the finalizer of the first view deletes the
reference of the second reply, and that of the first keeps the buffer. -/
theorem views_kept_shared_buffer :
    ViewsKept ((run step Process.initial
      [.allocate 4096 16,
        .replyMessageToDart 1 ⟨0, 4096, 16, by decide, by decide⟩ ⟨0, 0, 0⟩,
        .sendSynchronousMessageToPlatform ⟨0, 4096, 16, by decide, by decide⟩ ⟨0, 0⟩,
        .receive 0, .receive 1, .dartFinalizer 0]).get (by decide)) :=
  views_kept _ (Option.some_get _).symm

end NativeChannel.ViewLifetime
