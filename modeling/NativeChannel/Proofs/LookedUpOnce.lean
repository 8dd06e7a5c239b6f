import NativeChannel.Library.Counts
import NativeChannel.Source.HandlerLookup

namespace NativeChannel.LookedUpOnce
open Runs Counts HandlerLookup
open MessageHandlers (Kind)

/-- No null static was used, and no reference to the class was made in vain. -/
structure Sound (s : Process) : Prop where
  set : s.unset = false
  single : s.classRefs ≤ 1

/-- A call enters when `JNI_OnLoad` has stored the class loader, and either the method of
the handler is known or no call came before. `TriggerGC` comes after `JNI_OnLoad`. -/
def Orderly (s : Process) : Event → Prop
  | .enter => .findClassMethod ∉ s.pending ∧
      (s.handleMessageFromDartMethod.isSome = true ∨ s.calls = [])
  | .triggerGC => .gcMethod ∉ s.pending
  | _ => True

instance (s : Process) : (e : Event) → Decidable (Orderly s e)
  | .enter => inferInstanceAs (Decidable (_ ∧ _))
  | .triggerGC => inferInstanceAs (Decidable (¬ _))
  | .onLoad | .test _ | .storeClass _ | .storeMethod _ | .call _ => isTrue trivial

/-- What happens when nobody calls the library anew. -/
def Continues : Event → Prop
  | .enter => False
  | .triggerGC => False
  | _ => True

/-- The first call on its way to the method, while it is the only one. -/
inductive Looking : Process → Prop where
  | nobody {s : Process} (none_ : s.calls = []) (class_ : s.handleMessageFromDartClass = none)
      (refs : s.classRefs = 0) : Looking s
  | entered {s : Process} (one : s.calls = [.entered])
      (class_ : s.handleMessageFromDartClass = none) (refs : s.classRefs = 0) : Looking s
  | missing {s : Process} (one : s.calls = [.missing])
      (class_ : s.handleMessageFromDartClass = none) (refs : s.classRefs = 0) : Looking s
  | stored {s : Process} (one : s.calls = [.stored])
      (class_ : s.handleMessageFromDartClass.isSome = true) (refs : s.classRefs = 1) : Looking s

/-- Everything is known, and no call is inside the block any more. -/
structure Known (s : Process) : Prop where
  loaded : .findClassMethod ∉ s.pending
  class_ : s.handleMessageFromDartClass.isSome = true
  refs : s.classRefs = 1
  outside : ∀ x ∈ s.calls, x ≠ .missing ∧ x ≠ .stored

structure Once (s : Process) : Prop where
  set : s.unset = false
  order : ∃ done, done ++ s.pending = jniOnLoad
  loaded : s.calls ≠ [] → .findClassMethod ∉ s.pending
  looking : s.handleMessageFromDartMethod = none → Looking s
  known : s.handleMessageFromDartMethod.isSome = true → Known s

section Statics
variable {pending : List Static}

/-- `JNI_OnLoad` is somewhere in its six assignments. -/
theorem pending_drop (h : ∃ done, done ++ pending = jniOnLoad) :
    ∃ n < 7, pending = jniOnLoad.drop n := by
  obtain ⟨done, h⟩ := h
  refine ⟨done.length, ?_, ?_⟩
  · have hlen := congrArg List.length h
    simp only [List.length_append, jniOnLoad, List.length_cons, List.length_nil] at hlen
    omega
  · rw [← h, List.drop_left]

/-- The method of the class loader is set after what `FindClass` reads besides. -/
theorem findClassMethod_last (h : ∃ done, done ++ pending = jniOnLoad)
    (hf : .findClassMethod ∉ pending) : .jvm ∉ pending ∧ .classLoader ∉ pending := by
  have hall : ∀ n < 7, .findClassMethod ∉ jniOnLoad.drop n →
      .jvm ∉ jniOnLoad.drop n ∧ .classLoader ∉ jniOnLoad.drop n := by decide
  obtain ⟨n, hn, rfl⟩ := pending_drop h
  exact hall n hn hf

theorem gcMethod_last (h : ∃ done, done ++ pending = jniOnLoad) (hg : .gcMethod ∉ pending) :
    pending = [] := by
  have hall : ∀ n < 7, .gcMethod ∉ jniOnLoad.drop n → jniOnLoad.drop n = [] := by decide
  obtain ⟨n, hn, rfl⟩ := pending_drop h
  exact hall n hn hg

/-- `JNI_OnLoad` reads only what it has set before. -/
theorem reads_before {x : Static} {rest : List Static}
    (h : ∃ done, done ++ (x :: rest) = jniOnLoad) : ∀ y ∈ x.reads, y ∉ x :: rest := by
  have hall : ∀ n < 7, ∀ x ∈ (jniOnLoad.drop n).head?, ∀ y ∈ x.reads, y ∉ jniOnLoad.drop n := by
    decide
  obtain ⟨n, hn, he⟩ := pending_drop h
  rw [he]
  exact hall n hn x (by rw [← he]; rfl)

end Statics

section Steps
variable {kind : Kind} {s t : Process}

theorem read_of_set {statics : List Static} (h : ∀ x ∈ statics, x ∉ s.pending) :
    s.read statics = s := by
  have hany : (statics.any fun x => x ∈ s.pending) = false := by
    simpa using h
  unfold Process.read
  rw [hany, Bool.or_false]

theorem Once.lookup_read (hs : Once s) (hne : s.calls ≠ []) : s.read (lookupReads kind) = s := by
  have hf := hs.loaded hne
  obtain ⟨hj, hc⟩ := findClassMethod_last hs.order hf
  apply read_of_set
  cases kind <;> simp [lookupReads, hj, hc, hf]

theorem Once.call_read (hs : Once s) (hne : s.calls ≠ []) : s.read (callReads kind) = s := by
  obtain ⟨hj, _⟩ := findClassMethod_last hs.order (hs.loaded hne)
  apply read_of_set
  cases kind <;> simp [callReads, hj]

theorem entry_read (hs : Once s) (hf : .findClassMethod ∉ s.pending) :
    s.read (entryReads kind) = s := by
  obtain ⟨hj, _⟩ := findClassMethod_last hs.order hf
  apply read_of_set
  cases kind <;> simp [entryReads, hj]

theorem ne_nil_of_at {j : Nat} {x : Phase} (hj : s.calls[j]? = some x) : s.calls ≠ [] := by
  intro h
  rw [h] at hj
  cases hj

/-- The one call there is. -/
theorem single_at {j : Nat} {x y : Phase} (hone : s.calls = [x]) (hj : s.calls[j]? = some y) :
    j = 0 ∧ x = y := by
  rw [hone] at hj
  cases j with
  | zero => exact ⟨rfl, Option.some.inj hj⟩
  | succ j => cases hj

theorem onLoad_once {x : Static} {rest : List Static} (hs : Once s) (hp : s.pending = x :: rest) :
    Once { s.read x.reads with pending := rest } := by
  have horder := hs.order
  rw [hp] at horder
  rw [read_of_set (hp ▸ reads_before horder)]
  obtain ⟨done, hdone⟩ := horder
  have hrest : ∀ {y : Static}, y ∉ s.pending → y ∉ rest :=
    fun hy hm => hy (hp ▸ List.mem_cons_of_mem _ hm)
  refine ⟨hs.set, ⟨done ++ [x], by simpa using hdone⟩, fun hne => hrest (hs.loaded hne), ?_, ?_⟩
  · intro hnone
    cases hs.looking hnone with
    | nobody h hc hr => exact .nobody h hc hr
    | entered h hc hr => exact .entered h hc hr
    | missing h hc hr => exact .missing h hc hr
    | stored h hc hr => exact .stored h hc hr
  · intro hsome
    have hk := hs.known hsome
    exact ⟨hrest hk.loaded, hk.class_, hk.refs, hk.outside⟩

theorem enter_once (hs : Once s) (hf : .findClassMethod ∉ s.pending)
    (hfirst : s.handleMessageFromDartMethod.isSome = true ∨ s.calls = []) :
    Once { s with calls := s.calls ++ [.entered] } := by
  refine ⟨hs.set, hs.order, fun _ => hf, ?_, ?_⟩
  · intro hnone
    have hnil : s.calls = [] := by
      rcases hfirst with hsome | hnil
      · rw [hnone] at hsome
        cases hsome
      · exact hnil
    cases hs.looking hnone with
    | nobody _ hc hr => exact .entered (by simp [hnil]) hc hr
    | entered h => rw [hnil] at h; cases h
    | missing h => rw [hnil] at h; cases h
    | stored h => rw [hnil] at h; cases h
  · intro hsome
    have hk := hs.known hsome
    refine ⟨hf, hk.class_, hk.refs, ?_⟩
    intro x hx
    rcases List.mem_append.mp hx with hx | hx
    · exact hk.outside x hx
    · rw [List.mem_singleton.mp hx]
      exact ⟨nofun, nofun⟩

/-- A call that goes on outside the block, while everything is known. -/
theorem Known.set_call (hk : Known s) (j : Nat) {y : Phase} (hm : y ≠ .missing) (hst : y ≠ .stored) :
    Known (s.setCall j y) :=
  ⟨hk.loaded, hk.class_, hk.refs, forall_mem_set hk.outside ⟨hm, hst⟩⟩

theorem testNull_once {j : Nat} (hs : Once s) (hj : s.calls[j]? = some .entered)
    (hnull : s.handleMessageFromDartClass = none) : Once (s.setCall j .missing) := by
  have hne := ne_nil_of_at hj
  refine ⟨hs.set, hs.order, fun _ => hs.loaded hne, ?_, ?_⟩
  · intro hnone
    cases hs.looking hnone with
    | nobody h => exact absurd h hne
    | entered h hc hr =>
      obtain ⟨rfl, _⟩ := single_at h hj
      exact .missing (by simp [Process.setCall, h]) hc hr
    | missing h => cases (single_at h hj).2
    | stored h => cases (single_at h hj).2
  · intro hsome
    have hc := (hs.known hsome).class_
    rw [hnull] at hc
    cases hc

theorem test_once {j : Nat} (hs : Once s) (hj : s.calls[j]? = some .entered)
    (hknown : s.handleMessageFromDartClass.isSome = true) : Once (s.setCall j .ready) := by
  have hne := ne_nil_of_at hj
  refine ⟨hs.set, hs.order, fun _ => hs.loaded hne, ?_, ?_⟩
  · intro hnone
    cases hs.looking hnone with
    | nobody h => exact absurd h hne
    | entered h hc =>
      rw [hc] at hknown
      cases hknown
    | missing h => cases (single_at h hj).2
    | stored h => cases (single_at h hj).2
  · intro hsome
    exact (hs.known hsome).set_call j nofun nofun

theorem storeClass_once {j : Nat} (hs : Once s) (hj : s.calls[j]? = some .missing) :
    Once { s.setCall j .stored with
      handleMessageFromDartClass := some s.classRefs
      classRefs := s.classRefs + 1 } := by
  have hne := ne_nil_of_at hj
  refine ⟨hs.set, hs.order, fun _ => hs.loaded hne, ?_, ?_⟩
  · intro hnone
    cases hs.looking hnone with
    | nobody h => exact absurd h hne
    | entered h => cases (single_at h hj).2
    | missing h _ hr =>
      obtain ⟨rfl, _⟩ := single_at h hj
      exact .stored (by simp [Process.setCall, h]) rfl (by simp [hr])
    | stored h => cases (single_at h hj).2
  · intro hsome
    exact absurd rfl ((hs.known hsome).outside _ (mem_of_at hj)).1

theorem storeMethod_once {j : Nat} (hs : Once s) (hj : s.calls[j]? = some .stored) :
    Once { s.setCall j .ready with
      handleMessageFromDartMethod := s.handleMessageFromDartClass
      unset := s.handleMessageFromDartClass.isNone } := by
  have hne := ne_nil_of_at hj
  cases hm : s.handleMessageFromDartMethod with
  | some r => exact absurd rfl ((hs.known (by simp [hm])).outside _ (mem_of_at hj)).2
  | none =>
    cases hs.looking hm with
    | nobody h => exact absurd h hne
    | entered h => cases (single_at h hj).2
    | missing h => cases (single_at h hj).2
    | stored h hc hr =>
      obtain ⟨rfl, _⟩ := single_at h hj
      obtain ⟨r, hr'⟩ := Option.isSome_iff_exists.mp hc
      refine ⟨by simp [hr'], hs.order, fun _ => hs.loaded hne, ?_, ?_⟩
      · intro hnone
        have hnone : s.handleMessageFromDartClass = none := hnone
        rw [hr'] at hnone
        cases hnone
      · intro _
        refine ⟨hs.loaded hne, hc, hr, ?_⟩
        simp [Process.setCall, h]

/-- What a call of Java needs. -/
theorem Once.ready (hs : Once s) {j : Nat} (hj : s.calls[j]? = some .ready) :
    s.handleMessageFromDartMethod.isSome = true := by
  cases hm : s.handleMessageFromDartMethod with
  | some r => rfl
  | none =>
    cases hs.looking hm with
    | nobody h => exact absurd h (ne_nil_of_at hj)
    | entered h => cases (single_at h hj).2
    | missing h => cases (single_at h hj).2
    | stored h => cases (single_at h hj).2

theorem call_once {j : Nat} (hs : Once s) (hj : s.calls[j]? = some .ready) :
    Once { s.setCall j (afterCall kind) with
      unset := s.unset || s.handleMessageFromDartClass.isNone ||
        s.handleMessageFromDartMethod.isNone } := by
  have hm := hs.ready hj
  have hk := hs.known hm
  obtain ⟨c, hc⟩ := Option.isSome_iff_exists.mp hk.class_
  obtain ⟨m, hm'⟩ := Option.isSome_iff_exists.mp hm
  refine ⟨by simp [hs.set, hc, hm'], hs.order, fun _ => hs.loaded (ne_nil_of_at hj), ?_, ?_⟩
  · intro hnone
    have hnone : s.handleMessageFromDartMethod = none := hnone
    rw [hm'] at hnone
    cases hnone
  · intro _
    have hafter : afterCall kind ≠ .missing ∧ afterCall kind ≠ .stored := by
      cases kind <;> exact ⟨nofun, nofun⟩
    have hset := hk.set_call j hafter.1 hafter.2
    exact ⟨hset.loaded, hset.class_, hset.refs, hset.outside⟩

theorem step_once {e : Event} (hs : Once s) (hc : Orderly s e) (h : step kind s e = some t) :
    Once t := by
  obtain ⟨_, hm⟩ := step_moves h
  cases hm with
  | onLoad hp => exact onLoad_once hs hp
  | triggerGC =>
    have hnil := gcMethod_last hs.order hc
    rw [read_of_set (by simp [hnil])]
    exact hs
  | enter =>
    rw [entry_read hs hc.1]
    exact enter_once hs hc.1 hc.2
  | testNull hj hnull => exact testNull_once hs hj hnull
  | test hj hknown => exact test_once hs hj hknown
  | storeClass hj =>
    rw [hs.lookup_read (ne_nil_of_at hj)]
    exact storeClass_once hs hj
  | storeMethod hj => exact storeMethod_once hs hj
  | call hj =>
    rw [hs.call_read (ne_nil_of_at hj)]
    exact call_once hs hj

theorem Once.sound (hs : Once s) : Sound s := by
  refine ⟨hs.set, ?_⟩
  cases hm : s.handleMessageFromDartMethod with
  | some r => exact Nat.le_of_eq (hs.known (by simp [hm])).refs
  | none =>
    cases hs.looking hm with
    | nobody _ _ hr => omega
    | entered _ _ hr => omega
    | missing _ _ hr => omega
    | stored _ _ hr => omega

theorem initial_once : Once Process.initial :=
  ⟨rfl, ⟨[], rfl⟩, fun h => absurd rfl h, fun _ => .nobody rfl rfl rfl, nofun⟩

end Steps

/-- The calls under way can go on until something is wrong. -/
abbrev Fails (kind : Kind) (s : Process) : Prop := Breaks (step kind) Continues Sound s

section Fails
variable {kind : Kind} {s t : Process}

theorem unset_fails (h : s.unset = true) : Fails kind s := by
  apply Breaks.now
  intro hs
  rw [hs.set] at h
  cases h

/-- A call inside the block before the class loader is there. -/
theorem lookup_fails {j : Nat} (hu : s.unset = false) (hj : s.calls[j]? = some .missing)
    (hf : .findClassMethod ∈ s.pending) : Fails kind s := by
  refine Breaks.before (unset_fails ?_) (e := .storeClass j) trivial
    (by simp only [step, hu, hj]; rfl)
  have hany : ((lookupReads kind).any fun x => x ∈ s.pending) = true :=
    List.any_eq_true.mpr ⟨.findClassMethod, by cases kind <;> simp [lookupReads], by simpa using hf⟩
  change (s.unset || _) = true
  rw [hany, Bool.or_true]

/-- Two calls inside the block make two references to the class. -/
theorem missing_twice_fails {i j : Nat} (hu : s.unset = false)
    (hread : s.read (lookupReads kind) = s) (hij : i ≠ j) (hi : s.calls[i]? = some .missing)
    (hj : s.calls[j]? = some .missing) : Fails kind s := by
  let m : Process := { s.setCall i .stored with
    handleMessageFromDartClass := some s.classRefs
    classRefs := s.classRefs + 1 }
  have hm : step kind s (.storeClass i) = some m := by simp [step, hu, hi, hread, m]
  have hjm : m.calls[j]? = some .missing := (List.getElem?_set_ne hij).trans hj
  have hum : m.unset = false := hu
  refine Breaks.before (Breaks.before (Breaks.now ?_) (s := m) (e := .storeClass j) trivial
    (by simp only [step, hum, hjm]; rfl)) (e := .storeClass i) trivial hm
  intro h
  have hsingle : s.classRefs + 1 + 1 ≤ 1 := h.single
  omega

theorem test_null {j : Nat} (hu : s.unset = false) (hj : s.calls[j]? = some .entered)
    (hc : s.handleMessageFromDartClass = none) :
    step kind s (.test j) = some (s.setCall j .missing) := by
  simp [step, hu, hj, hc]

/-- A call that finds the class and not the method. -/
theorem stored_fails {j : Nat} (hu : s.unset = false) (hj : s.calls[j]? = some .entered)
    (hc : s.handleMessageFromDartClass.isSome = true)
    (hm : s.handleMessageFromDartMethod = none) : Fails kind s := by
  obtain ⟨r, hr⟩ := Option.isSome_iff_exists.mp hc
  let t := s.setCall j .ready
  have ht : step kind s (.test j) = some t := by simp [step, hu, hj, hr, t]
  have hjt : t.calls[j]? = some .ready :=
    List.getElem?_set_self (List.getElem?_eq_some_iff.mp hj).1
  have hut : t.unset = false := hu
  refine Breaks.before (Breaks.before (unset_fails ?_) (s := t) (e := .call j) trivial
    (by simp only [step, hut, hjt]; rfl)) (e := .test j) trivial ht
  change (_ || _ || s.handleMessageFromDartMethod.isNone) = true
  rw [hm, Option.isNone_none, Bool.or_true]

/-- The first call enters before the class loader is there. -/
theorem early_fails (hs : Once s) (hf : .findClassMethod ∈ s.pending) :
    Fails kind { s.read (entryReads kind) with calls := s.calls ++ [.entered] } := by
  have hnil : s.calls = [] := by
    by_contra hne
    exact hs.loaded hne hf
  have hclass : s.handleMessageFromDartClass = none := by
    cases hm : s.handleMessageFromDartMethod with
    | some r => exact absurd hf (hs.known (by simp [hm])).loaded
    | none =>
      cases hs.looking hm with
      | nobody _ hc => exact hc
      | entered _ hc => exact hc
      | missing _ hc => exact hc
      | stored h => rw [hnil] at h; cases h
  let t : Process := { s.read (entryReads kind) with calls := s.calls ++ [.entered] }
  cases hu : t.unset with
  | true => exact unset_fails hu
  | false =>
    have hj : t.calls[0]? = some .entered := by simp [t, hnil]
    refine Breaks.before (lookup_fails (s := t.setCall 0 .missing) (j := 0) hu ?_ hf)
      (e := .test 0) trivial (test_null hu hj hclass)
    exact List.getElem?_set_self (List.getElem?_eq_some_iff.mp hj).1

/-- A second call enters while the first is on its way to the method. -/
theorem second_fails (hs : Once s) (hf : .findClassMethod ∉ s.pending)
    (hm : s.handleMessageFromDartMethod = none) (hne : s.calls ≠ []) :
    Fails kind { s with calls := s.calls ++ [.entered] } := by
  let t : Process := { s with calls := s.calls ++ [.entered] }
  have hu : t.unset = false := hs.set
  have hread : ∀ {l : List Phase}, Process.read { s with calls := l } (lookupReads kind) =
      { s with calls := l } := by
    intro l
    obtain ⟨hj, hc⟩ := findClassMethod_last hs.order hf
    apply read_of_set
    cases kind <;> simp [lookupReads, hj, hc, hf]
  cases hs.looking hm with
  | nobody h => exact absurd h hne
  | entered h hc =>
    have h0 : t.calls[0]? = some .entered := by simp [t, h]
    have h1 : (t.setCall 0 .missing).calls[1]? = some .entered := by simp [t, Process.setCall, h]
    refine Breaks.before (Breaks.before (missing_twice_fails (i := 0) (j := 1)
      (s := (t.setCall 0 .missing).setCall 1 .missing) hu hread (by omega) ?_ ?_) (e := .test 1)
      trivial (test_null hu h1 hc)) (e := .test 0) trivial (test_null hu h0 hc)
    · simp [t, Process.setCall, h]
    · simp [t, Process.setCall, h]
  | missing h hc =>
    have h1 : t.calls[1]? = some .entered := by simp [t, h]
    refine Breaks.before (missing_twice_fails (i := 0) (j := 1) (s := t.setCall 1 .missing) hu hread
      (by omega) ?_ ?_) (e := .test 1) trivial (test_null hu h1 hc)
    · simp [t, Process.setCall, h]
    · simp [t, Process.setCall, h]
  | stored h hc =>
    have h1 : t.calls[1]? = some .entered := by simp [t, h]
    exact stored_fails hu h1 hc hm

theorem disorder_fails {e : Event} (hs : Once s) (h : step kind s e = some t)
    (hc : ¬ Orderly s e) : Fails kind t := by
  obtain ⟨_, hm⟩ := step_moves h
  cases hm with
  | enter =>
    by_cases hf : .findClassMethod ∈ s.pending
    · exact early_fails hs hf
    · have hfirst := fun hor => hc ⟨hf, hor⟩
      rw [entry_read hs hf]
      refine second_fails hs hf ?_ fun hnil => hfirst (Or.inr hnil)
      cases hmethod : s.handleMessageFromDartMethod with
      | none => rfl
      | some r => exact absurd (Or.inl (by simp [hmethod])) hfirst
  | triggerGC =>
    apply unset_fails
    have hin : .gcMethod ∈ s.pending := Classical.not_not.mp hc
    simp [Process.read, hin]
  | _ => exact absurd trivial hc

end Fails

/-- In a run of one channel, and whatever the calls under way do next, no null static is
used and one reference to the class made at most, exactly when calls enter after
`JNI_OnLoad` has stored the class loader, and none enters while the first is on its way
through the block. -/
theorem looked_up_once_iff (kind : Kind) (es : List Event)
    (hr : (run (step kind) Process.initial es).isSome = true) :
    Through (step kind) Continues Sound Process.initial es ↔
      AllSteps (step kind) Orderly Process.initial es := by
  obtain ⟨t, ht⟩ := Option.isSome_iff_exists.mp hr
  apply through_iff_of_breaks (I := Once) ?_ ?_ ?_ ?_ initial_once ht
  · intro s e t hs hc h
    exact step_once hs hc h
  · intro s e he
    cases e with
    | enter => cases he
    | triggerGC => cases he
    | _ => trivial
  · intro s hs
    exact hs.sound
  · intro s e t hs h hc
    exact disorder_fails hs h hc

/-- The second isolate enters after the first has come through, while `JNI_OnLoad` goes on. -/
theorem looked_up_once_two_isolates :
    Through (step .concurrent) Continues Sound Process.initial
      [.onLoad, .onLoad, .onLoad, .enter, .onLoad, .test 0, .storeClass 0, .storeMethod 0, .enter,
        .test 1, .call 1, .onLoad, .onLoad, .triggerGC, .call 0] :=
  (looked_up_once_iff .concurrent _ (by decide)).mpr (by decide)

/-- Two isolates send their first synchronous messages at one time, and the second finds
the class and not the method. -/
example : (run (step .synchronous) Process.initial
    [.onLoad, .onLoad, .onLoad, .enter, .enter, .test 0, .storeClass 0, .test 1, .call 1]).map
      Process.unset = some true := by decide

end NativeChannel.LookedUpOnce
