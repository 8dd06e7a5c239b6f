import NativeChannel.Library.Runs
import NativeChannel.Proofs.ReplyOwnership

namespace NativeChannel.ReplyLeaks
open Runs Counts ReplyResources ReplyOwnership Wrapper
open Finalizer (JavaBuffer GlobalRef)

/-- Every wrapper, every reference and every entry of the map has somebody who will see
to it, and no block was freed or read that is not there. -/
structure NothingLeaked (s : Process) : Prop where
  defined : s.undefined = false
  wrappers : ∀ p x, s.wrappers.lookup p = some x → InFlight s p
  references : ∀ r g, s.references.globalRefs[r]? = some g → g.deleted = false →
    (∃ p x, s.wrappers.lookup p = some x ∧ x.ref = some r ∧ InFlight s p) ∨
      ∃ v ∈ s.views, v.ref = some r ∧ v.fired = false
  entries : Exactly s.references

/-- A request of the isolate waits for a reply with this seq, and none is on its way. -/
def Expected (s : Process) (a : Nat) (seq : Int) : Prop :=
  seq ∈ completers s a ∧ ∀ p ∈ port s a, ∀ x, s.wrappers.lookup p = some x → x.wrapper.seq ≠ seq

/-- What Dart still does when nothing more is sent to it. -/
def Drains : Event → Prop
  | .onReply _ => True
  | .dartFinalizer _ => True
  | _ => False

instance (s : Process) (a : Nat) (seq : Int) : Decidable (Expected s a seq) :=
  inferInstanceAs (Decidable (seq ∈ completers s a ∧
    ∀ p ∈ port s a, ∀ x ∈ s.wrappers.lookup p, x.wrapper.seq ≠ seq))

section Delivered
variable [Vm]

/-- The message is freed for the first time, the post succeeds, a null reply goes out in
memory that shows no data and any other is of a length that `asTypedList` takes, and where the
assert of `onReply` is on, the reply is one it lets pass. -/
def Delivered (asserts : Bool) (s : Process) : Event → Prop
  | .replyMessageToDart replyId reply message _ fresh posted =>
    s.Frees message ∧ posted = true ∧ (reply = none → fresh.data = 0) ∧
      (∀ b, reply = some b → Vm.Takes b.buffer.capacity) ∧
        (asserts = true → ∀ a, s.replyPort = some a → Expected s a replyId)
  | _ => True

instance (asserts : Bool) (s : Process) : (e : Event) → Decidable (Delivered asserts s e)
  | .replyMessageToDart replyId reply message _ fresh posted =>
    inferInstanceAs (Decidable (s.Frees message ∧ posted = true ∧
      (reply = none → fresh.data = 0) ∧ (∀ b ∈ reply, Vm.Takes b.buffer.capacity) ∧
        (asserts = true → ∀ a ∈ s.replyPort, Expected s a replyId)))
  | .initializeChannel _ | .send _ _ | .onReply _ | .dartFinalizer _ => isTrue trivial

end Delivered

/-- While every reply is delivered: whatever shows data has a reference of its own, and
`onReply` gets to the end of each wrapper. -/
structure Safe [Vm] (asserts : Bool) (s : Process) : Prop where
  formed : Formed s
  kept : NothingLeaked s
  backed : ∀ p x, s.wrappers.lookup p = some x → x.wrapper.data ≠ 0 → x.ref.isSome = true
  readable : ∀ p x, s.wrappers.lookup p = some x → x.wrapper.throws = false
  viewsBacked : ∀ v ∈ s.views, v.fired = false → v.ref.isSome = true
  live : ∀ r ∈ owned s, ∃ g, s.references.globalRefs[r]? = some g ∧ g.deleted = false
  unshared : (owned s).Nodup
  expected : asserts = true → ∀ a, ∀ p ∈ port s a, ∀ x, s.wrappers.lookup p = some x →
    x.wrapper.seq ∈ completers s a
  distinct : asserts = true → ∀ a, ∀ p ∈ port s a, ∀ q ∈ port s a, ∀ x y,
    s.wrappers.lookup p = some x → s.wrappers.lookup q = some y →
      x.wrapper.seq = y.wrapper.seq → p = q

section Safe
variable [Vm] {asserts : Bool} {s : Process}

theorem send_safe (hs : Safe asserts s) {a : Nat} {copy : Option Nat}
    (hnew : ∀ p ∈ copy, p ∉ s.wrappers) : Safe asserts (s.send a copy) := by
  have hinFlight : ∀ p, InFlight s p → InFlight (s.send a copy) p := by
    intro p hp
    obtain ⟨b, hb⟩ := hp
    exact ⟨b, by rwa [port_send]⟩
  refine ⟨send_formed hs.formed hnew, ⟨hs.kept.defined, ?_, ?_, hs.kept.entries⟩, hs.backed,
    hs.readable, hs.viewsBacked, hs.live, hs.unshared, ?_, ?_⟩
  · intro p x hx
    exact hinFlight p (hs.kept.wrappers p x hx)
  · intro r g hg hd
    rcases hs.kept.references r g hg hd with ⟨p, x, hx, hr, hp⟩ | hv
    · exact Or.inl ⟨p, x, hx, hr, hinFlight p hp⟩
    · exact Or.inr hv
  · intro hon b p hp x hx
    rw [port_send] at hp
    have hmem := hs.expected hon b p hp x hx
    unfold completers at hmem ⊢
    unfold Process.send Process.setIsolate
    by_cases hb : b = a
    · subst b
      simpa [Isolate.send] using Or.inr hmem
    · simpa [hb] using hmem
  · intro hon b p hp q hq
    rw [port_send] at hp hq
    exact hs.distinct hon b p hp q hq

/-- A reply that is delivered: its wrapper is in the port, and its reference is new. -/
theorem reply_safe {a : Nat} {replyId : Int} {reply : Option JavaBuffer} {message : Option Nat}
    {ret : Nat} {fresh : MessageWrapper} {posted : Bool} (hs : Safe asserts s)
    (ha : s.replyPort = some a)
    (new : ret ≠ 0 ∧ ret ∉ (s.freeMessage message).messages ∧ ret ∉ s.wrappers)
    (vacant : ∀ b, reply = some b → ∀ g ∈ s.references.globalRefs,
      g.deleted = true ∨ g.object.buffer.address ≠ b.buffer.address)
    (hc : Delivered asserts s (.replyMessageToDart replyId reply message ret fresh posted)) :
    Safe asserts ((s.freeMessage message).replyMessageToDart a replyId reply ret fresh posted) := by
  obtain ⟨_, rfl, hnull, htakes, hexpected⟩ := hc
  have hformed := reply_formed (freeMessage_formed hs.formed message) a replyId reply fresh true
    new.2.1 new.2.2
  let x := outgoing s replyId fresh reply
  let refs := reply.elim s.references (associated s.references)
  let t := Process.post { s.freeMessage message with
    references := refs, wrappers := s.wrappers.insert ret x } a ret
  have heq : (s.freeMessage message).replyMessageToDart a replyId reply ret fresh true = t := by
    change ((s.freeMessage message).wrap replyId ret fresh reply).post a ret = _
    rw [wrap_eq]
    rfl
  rw [heq] at hformed ⊢
  have hmem : ∀ {b p : Nat}, p ∈ port t b ↔ p ∈ port s b ∨ b = a ∧ p = ret := mem_post
  have hcompleters : ∀ b, completers t b = completers s b := fun b => completers_post a b _
  have hnew : t.wrappers.lookup ret = some x := AList.lookup_insert s.wrappers
  have hold : ∀ {p : Nat}, p ≠ ret → t.wrappers.lookup p = s.wrappers.lookup p :=
    fun hp => AList.lookup_insert_ne hp
  have hat : ∀ {b p : Nat}, p ∈ port s b → t.wrappers.lookup p = s.wrappers.lookup p := by
    intro b p hp
    exact hold fun he => hs.formed.not_ported new.2.2 b (he ▸ hp)
  have hkept : ∀ {p : Nat} {y : Allocated}, s.wrappers.lookup p = some y →
      t.wrappers.lookup p = some y := by
    intro p y hy
    refine (hold ?_).trans hy
    intro he
    rw [he, AList.lookup_eq_none.mpr new.2.2] at hy
    cases hy
  have hinFlight : ∀ p, InFlight s p → InFlight t p := by
    intro p hp
    obtain ⟨b, hb⟩ := hp
    exact ⟨b, hmem.mpr (Or.inl hb)⟩
  have hposted : InFlight t ret := ⟨a, hmem.mpr (Or.inr ⟨rfl, rfl⟩)⟩
  have howned : owned t = x.ref.toList ++ owned s := by
    have h := wrap_owned (s := s.freeMessage message) replyId fresh reply new.2.2
    rwa [wrap_eq] at h
  have hcases : ∀ {P : Nat → Allocated → Prop}, P ret x →
      (∀ p y, s.wrappers.lookup p = some y → P p y) →
      ∀ p y, t.wrappers.lookup p = some y → P p y := by
    intro P hx hrest p y hy
    by_cases hp : p = ret
    · subst p
      obtain rfl := Option.some.inj (hnew.symm.trans hy)
      exact hx
    · exact hrest p y ((hold hp).symm.trans hy)
  refine ⟨hformed, ⟨hs.kept.defined, ?_, ?_, ?_⟩, ?_, ?_, hs.viewsBacked, ?_, ?_, ?_, ?_⟩
  · exact hcases hposted fun p y hy => hinFlight p (hs.kept.wrappers p y hy)
  · intro r g hg hd
    rcases replied_at.mp hg with hg | ⟨b, hb, hr, _⟩
    · rcases hs.kept.references r g hg hd with ⟨p, y, hy, hr, hp⟩ | hv
      · exact Or.inl ⟨p, y, hkept hy, hr, hinFlight p hp⟩
      · exact Or.inr hv
    · exact Or.inl ⟨ret, x, hnew, outgoing_ref.mpr ⟨b, hb, hr⟩, hposted⟩
  · cases reply with
    | none => exact hs.kept.entries
    | some b => exact hs.kept.entries.associated (vacant b rfl)
  · refine hcases ?_ hs.backed
    intro hdata
    cases reply with
    | none => exact absurd (hnull rfl) hdata
    | some b => rfl
  · refine hcases ?_ hs.readable
    by_contra hthrows
    obtain ⟨hdata, hlength⟩ := MessageWrapper.throws_iff.mp (Bool.not_eq_false _ ▸ hthrows)
    cases reply with
    | none => exact hdata (hnull rfl)
    | some b => exact hlength (htakes b rfl)
  · intro r hr
    rw [howned] at hr
    rcases List.mem_append.mp hr with hr | hr
    · obtain ⟨b, hb, hlen⟩ := outgoing_ref.mp (Option.mem_toList.mp hr)
      exact ⟨_, replied_at.mpr (Or.inr ⟨b, hb, hlen, rfl⟩), rfl⟩
    · obtain ⟨g, hg, hd⟩ := hs.live r hr
      exact ⟨g, replied_at.mpr (Or.inl hg), hd⟩
  · rw [howned]
    refine List.nodup_append.mpr ⟨?_, hs.unshared, ?_⟩
    · cases x.ref <;> simp
    · intro r hr r' hr' he
      obtain ⟨g, hg, _⟩ := hs.live r' hr'
      obtain ⟨_, _, hlen⟩ := outgoing_ref.mp (Option.mem_toList.mp hr)
      rw [← he, hlen] at hg
      exact Nat.lt_irrefl _ (List.getElem?_eq_some_iff.mp hg).1
  · intro hon b p hp y hy
    rw [hcompleters]
    rcases hmem.mp hp with hp | ⟨rfl, rfl⟩
    · exact hs.expected hon b p hp y ((hat hp).symm.trans hy)
    · obtain rfl := Option.some.inj (hnew.symm.trans hy)
      rw [outgoing_seq]
      exact (hexpected hon b ha).1
  · intro hon b p hp q hq y z hy hz hseq
    have hfirst : ∀ {p : Nat} {y : Allocated}, p ∈ port s a → t.wrappers.lookup p = some y →
        y.wrapper.seq ≠ x.wrapper.seq := by
      intro p y hp hy
      rw [outgoing_seq]
      exact (hexpected hon a ha).2 p hp y ((hat hp).symm.trans hy)
    rcases hmem.mp hp with hps | ⟨hb, rfl⟩
    · rcases hmem.mp hq with hqs | ⟨hb, rfl⟩
      · exact hs.distinct hon b p hps q hqs y z ((hat hps).symm.trans hy) ((hat hqs).symm.trans hz)
          hseq
      · obtain rfl := Option.some.inj (hnew.symm.trans hz)
        exact absurd hseq (hfirst (hb ▸ hps) hy)
    · rcases hmem.mp hq with hqs | ⟨_, rfl⟩
      · obtain rfl := Option.some.inj (hnew.symm.trans hy)
        exact absurd hseq.symm (hfirst (hb ▸ hqs) hz)
      · rfl

theorem onReply_safe {a ptr : Nat} {rest : List Nat} {x : Allocated} (hs : Safe asserts s)
    (hp : port s a = ptr :: rest) (hx : s.wrappers.lookup ptr = some x) :
    Safe asserts ((s.received a rest).onReply a ptr x) := by
  have hmem : ∀ {b p : Nat}, p ∈ port ((s.received a rest).onReply a ptr x) b ↔
      p ∈ port s b ∧ p ≠ ptr := by
    intro b p
    rw [port_onReply]
    exact mem_received hs.formed hp
  have hinFlight : ∀ {p : Nat}, p ≠ ptr → InFlight s p →
      InFlight ((s.received a rest).onReply a ptr x) p := by
    intro p hne hi
    obtain ⟨b, hb⟩ := hi
    exact ⟨b, hmem.mpr ⟨hb, hne⟩⟩
  have hat : ∀ {p : Nat} {y : Allocated},
      ((s.received a rest).onReply a ptr x).wrappers.lookup p = some y →
        p ≠ ptr ∧ s.wrappers.lookup p = some y := by
    intro p y hy
    rw [onReply_wrappers] at hy
    exact lookup_of_erase hy
  have hthrows := hs.readable ptr x hx
  have howned : (owned ((s.received a rest).onReply a ptr x)).Perm (owned s) :=
    onReply_owned hs.formed hx hthrows
  refine ⟨onReply_formed hs.formed hp hx, ⟨?_, ?_, ?_, ?_⟩, ?_, ?_, ?_, ?_, ?_, ?_, ?_⟩
  · rw [onReply_undefined]
    exact hs.kept.defined
  · intro p y hy
    obtain ⟨hne, hy⟩ := hat hy
    exact hinFlight hne (hs.kept.wrappers p y hy)
  · intro r g hg hd
    rw [onReply_references] at hg
    rcases hs.kept.references r g hg hd with ⟨p, y, hy, hr, hi⟩ | ⟨v, hv, hr, hfv⟩
    · by_cases hip : p = ptr
      · -- the view takes over
        subst p
        obtain rfl := Option.some.inj (hx.symm.trans hy)
        have hdata := hs.formed.shows_data hx (by rw [hr]; rfl)
        refine Or.inr ⟨⟨x.wrapper.view, x.ref, false⟩, ?_, hr, rfl⟩
        rw [onReply_views, seen_of_data hdata hthrows]
        exact List.mem_append.mpr (Or.inr (List.mem_singleton.mpr rfl))
      · refine Or.inl ⟨p, y, ?_, hr, hinFlight hip hi⟩
        rw [onReply_wrappers]
        exact (AList.lookup_erase_ne hip).trans hy
    · refine Or.inr ⟨v, ?_, hr, hfv⟩
      rw [onReply_views]
      exact List.mem_append.mpr (Or.inl hv)
  · rw [onReply_references]
    exact hs.kept.entries
  · intro p y hy
    exact hs.backed p y (hat hy).2
  · intro p y hy
    exact hs.readable p y (hat hy).2
  · rw [onReply_views]
    intro v hv hfv
    rcases List.mem_append.mp hv with hv | hv
    · exact hs.viewsBacked v hv hfv
    · obtain ⟨hdata, _, href, _⟩ := mem_seen hv
      rw [href]
      exact hs.backed ptr x hx hdata
  · intro r hr
    rw [onReply_references]
    exact hs.live r (howned.mem_iff.mp hr)
  · rw [howned.nodup_iff]
    exact hs.unshared
  · intro hon b p hi y hy
    obtain ⟨hi, hne⟩ := hmem.mp hi
    have hy := (hat hy).2
    rw [mem_completers_onReply, completers_received]
    refine ⟨hs.expected hon b p hi y hy, ?_⟩
    intro hb hseq
    subst b
    exact hne (hs.distinct hon a p hi ptr (by simp [hp]) y x hy hx hseq)
  · intro hon b p hi q hj y z hy hz
    exact hs.distinct hon b p (hmem.mp hi).1 q (hmem.mp hj).1 y z (hat hy).2 (hat hz).2

/-- The finalizer of a view finds the view's own reference. -/
theorem Safe.entry (hs : Safe asserts s) {k : Nat} {v : ReplyView} (hk : s.views[k]? = some v)
    (hf : v.fired = false) :
    ∃ r, v.ref = some r ∧ s.references.globalReferences v.view.address = some (some r) := by
  obtain ⟨r, hr⟩ := Option.isSome_iff_exists.mp (hs.viewsBacked v (mem_of_at hk) hf)
  have howned : r ∈ owned s := by
    refine List.mem_append.mpr (Or.inr (List.mem_filterMap.mpr ⟨v, mem_of_at hk, ?_⟩))
    rw [ReplyView.owned, hf]
    exact hr
  obtain ⟨g, hg, hd⟩ := hs.live r howned
  obtain ⟨g', hg', haddress⟩ := hs.formed.viewed v (mem_of_at hk) r hr
  rw [hg] at hg'
  cases hg'
  exact ⟨r, hr, (hs.kept.entries _ _).mpr ⟨r, g, rfl, hg, hd, haddress⟩⟩

theorem dartFinalizer_safe {k : Nat} {v : ReplyView} (hs : Safe asserts s)
    (hk : s.views[k]? = some v) (hf : v.fired = false) : Safe asserts { s with
      views := s.views.set k { v with fired := true }
      references := s.references.releaseGlobalReferenceByPointer v.view.address } := by
  obtain ⟨r, hr, hentry⟩ := hs.entry hk hf
  have hset := filterMap_set_perm ReplyView.owned { v with fired := true } hk
  have hbefore : ReplyView.owned v = some r := by rw [ReplyView.owned, hf]; exact hr
  have hafter : ReplyView.owned { v with fired := true } = none := rfl
  rw [hbefore, hafter, Option.toList_none, Option.toList_some, List.append_nil] at hset
  have howned : (owned s).Perm (r :: owned { s with
      views := s.views.set k { v with fired := true }
      references := s.references.releaseGlobalReferenceByPointer v.view.address }) := by
    unfold owned
    refine (hset.symm.append_left _).trans ?_
    rw [← List.append_assoc]
    exact List.perm_append_singleton r _
  have hunshared := hs.unshared
  rw [howned.nodup_iff, List.nodup_cons] at hunshared
  have hrefs : (s.references.releaseGlobalReferenceByPointer v.view.address).globalRefs =
      s.references.globalRefs.modify r fun g => { g with deleted := true } := by
    rw [release_found hentry]
    rfl
  refine ⟨dartFinalizer_formed hs.formed hk,
    ⟨hs.kept.defined, hs.kept.wrappers, ?_, hs.kept.entries.release hentry⟩, hs.backed, hs.readable,
    ?_, ?_, hunshared.2, hs.expected, hs.distinct⟩
  · intro r' g hg hd
    change (s.references.releaseGlobalReferenceByPointer v.view.address).globalRefs[r']? = _ at hg
    rw [hrefs] at hg
    by_cases hrr : r = r'
    · subst r'
      rw [List.getElem?_modify_eq] at hg
      obtain ⟨g', _, rfl⟩ := Option.map_eq_some_iff.mp hg
      cases hd
    · rw [List.getElem?_modify_ne _ _ hrr] at hg
      rcases hs.kept.references r' g hg hd with hw | ⟨u, hu, hur, huf⟩
      · exact Or.inl hw
      · refine Or.inr ⟨u, mem_set_of_ne hk hu ?_, hur, huf⟩
        intro he
        rw [he, hr] at hur
        exact hrr (Option.some.inj hur)
  · apply forall_mem_set hs.viewsBacked
    intro hlive
    cases hlive
  · intro r' hr'
    obtain ⟨g, hg, hd⟩ := hs.live r' (howned.mem_iff.mpr (List.mem_cons_of_mem _ hr'))
    have hrr : r ≠ r' := fun he => hunshared.1 (he ▸ hr')
    refine ⟨g, ?_, hd⟩
    change (s.references.releaseGlobalReferenceByPointer v.view.address).globalRefs[r']? = _
    rw [hrefs, List.getElem?_modify_ne _ _ hrr]
    exact hg

/-- `onReply` gets to the end of every wrapper. -/
theorem Safe.passes (hs : Safe asserts s) {a ptr : Nat} {rest : List Nat} {x : Allocated}
    (hp : (s.isolates a).replyPort = ptr :: rest) (hx : s.wrappers.lookup ptr = some x) :
    s.Passes asserts a x := by
  refine ⟨?_, hs.readable ptr x hx⟩
  intro hon
  exact hs.expected hon a ptr (by simp [port, hp]) x hx

theorem step_safe {t : Process} {e : Event} (hs : Safe asserts s) (hc : Delivered asserts s e)
    (h : step asserts s e = some t) : Safe asserts t := by
  cases (step_moves h).2 with
  | initializeChannel a =>
    exact ⟨hs.formed.of_ports rfl rfl rfl (fun _ => rfl) (Finset.Subset.refl _),
      ⟨hs.kept.defined, hs.kept.wrappers, hs.kept.references, hs.kept.entries⟩, hs.backed,
      hs.readable, hs.viewsBacked, hs.live, hs.unshared, hs.expected, hs.distinct⟩
  | send new => exact send_safe hs fun p hp => (new p hp).2.2
  | reply ha _ new vacant => exact reply_safe hs ha new vacant hc
  | freesOther _ other => exact absurd hc.1 other
  | stops hp hx stops => exact absurd (hs.passes hp hx) stops
  | onReply hp hx => exact onReply_safe hs hp hx
  | readsOther hp gone => exact absurd gone (hs.formed.found hp)
  | dartFinalizer hk hf => exact dartFinalizer_safe hs hk hf

theorem initial_safe : Safe asserts Process.initial := by
  have hentries : Exactly Process.initial.references := by
    intro p e
    constructor
    · nofun
    · intro h
      obtain ⟨r, g, _, hg, _⟩ := h
      cases hg
  have hnone : ∀ {P : Nat → Allocated → Prop},
      ∀ p x, Process.initial.wrappers.lookup p = some x → P p x := by
    intro P p x hx
    cases (AList.lookup_empty p).symm.trans hx
  refine ⟨initial_formed, ⟨rfl, hnone, nofun, hentries⟩, hnone, hnone, nofun, nofun,
    List.nodup_nil, ?_, ?_⟩
  · intro _ a i hi
    cases hi
  · intro _ a i hi
    cases hi

end Safe

/-- Dart can go on until something is leaked. -/
def Fails [Vm] (asserts : Bool) (s : Process) : Prop :=
  Breaks (step asserts) Drains NothingLeaked s

section Fails
variable [Vm] {asserts : Bool} {s : Process}

theorem Fails.of_defined (h : s.undefined = false → Fails asserts s) : Fails asserts s := by
  cases hd : s.undefined with
  | false => exact h hd
  | true =>
    refine Breaks.now ?_
    intro hkept
    rw [hkept.defined] at hd
    cases hd

theorem fire (hd : s.undefined = false) {k : Nat} {v : ReplyView} (hk : s.views[k]? = some v)
    (hf : v.fired = false) :
    step asserts s (.dartFinalizer k) = some { s with
      views := s.views.set k { v with fired := true }
      references := s.references.releaseGlobalReferenceByPointer v.view.address } := by
  simp [step, hd, hk, hf]

/-- The lookup of a pointer that is not recorded leaves a null entry. -/
theorem view_fails {k : Nat} {v : ReplyView} (hk : s.views[k]? = some v) (hf : v.fired = false)
    (habsent : s.references.globalReferences v.view.address = none) : Fails asserts s := by
  apply Fails.of_defined
  intro hd
  refine Breaks.before (Breaks.now ?_) (e := .dartFinalizer k) trivial (fire hd hk hf)
  intro h
  have hnull : (s.references.releaseGlobalReferenceByPointer v.view.address).globalReferences
      v.view.address = some none := by
    rw [release_nothing habsent]
    exact Function.update_self ..
  obtain ⟨r, _, hr, _⟩ := (h.entries _ _).mp hnull
  cases hr

/-- Processing the first pointer of a port either leaves its wrapper behind, when the
assert or `asTypedList` throws, or goes on. -/
theorem processes_or_fails {a ptr : Nat} {rest : List Nat} {x : Allocated} (hs : Formed s)
    (hp : port s a = ptr :: rest) (hx : s.wrappers.lookup ptr = some x)
    (hgo : s.Passes asserts a x → Fails asserts ((s.received a rest).onReply a ptr x)) :
    Fails asserts s := by
  have hport : (s.isolates a).replyPort = ptr :: rest := hp
  apply Fails.of_defined
  intro hd
  by_cases hpass : s.Passes asserts a x
  · refine Breaks.before (hgo hpass) (e := .onReply a) trivial ?_
    simp [step, hd, hport, hx, hpass]
  · refine Breaks.before (t := s.received a rest) (Breaks.now ?_) (e := .onReply a) trivial ?_
    · intro h
      obtain ⟨b, hb⟩ := h.wrappers ptr x hx
      exact ((mem_received hs hp).mp hb).2 rfl
    · simp [step, hd, hport, hx, hpass]

/-- What is true while the pointers before `n` are taken from its port, and after. -/
theorem drain {P : Process → List Nat → Prop} {a n : Nat} {rest : List Nat}
    (keeps : ∀ s p l x, Formed s → P s (p :: l) → port s a = p :: (l ++ n :: rest) → p ≠ n →
      s.wrappers.lookup p = some x → P ((s.received a (l ++ n :: rest)).onReply a p x) l)
    (last : ∀ s x, Formed s → P s [] → port s a = n :: rest → s.wrappers.lookup n = some x →
      s.Passes asserts a x → Fails asserts ((s.received a rest).onReply a n x))
    (l : List Nat) (hs : Formed s) (hP : P s l) (hp : port s a = l ++ n :: rest) :
    Fails asserts s := by
  induction l generalizing s with
  | nil =>
    obtain ⟨x, hx⟩ := hs.ported a n (by simp [hp])
    exact processes_or_fails hs hp hx (last s x hs hP hp hx)
  | cons i l ih =>
    have hp : port s a = i :: (l ++ n :: rest) := hp
    obtain ⟨x, hx⟩ := hs.ported a i (by simp [hp])
    have hne : i ≠ n := by
      have hnodup := hs.nodup a
      rw [hp, List.nodup_cons] at hnodup
      intro he
      exact hnodup.1 (by simp [he])
    refine processes_or_fails hs hp hx ?_
    intro _
    apply ih (onReply_formed hs hp hx) (keeps s i l x hs hP hp hne hx)
    rw [port_onReply, port_received]

theorem onReply_at {a i n : Nat} {rest : List Nat} {x y : Allocated} (hne : i ≠ n)
    (hy : s.wrappers.lookup n = some y) :
    ((s.received a rest).onReply a i x).wrappers.lookup n = some y := by
  rw [onReply_wrappers]
  exact (AList.lookup_erase_ne hne.symm).trans hy

/-- The view that the last wrapper becomes. -/
theorem onReply_view {a n : Nat} {rest : List Nat} {x : Allocated} (hdata : x.wrapper.data ≠ 0)
    (hpass : s.Passes asserts a x) :
    ((s.received a rest).onReply a n x).views[s.views.length]? =
      some ⟨x.wrapper.view, x.ref, false⟩ := by
  rw [onReply_views, seen_of_data hdata hpass.2]
  exact at_concat.mpr (Or.inr ⟨rfl, rfl⟩)

/-- A wrapper under way shows a pointer that is not recorded. -/
theorem wrapper_fails {a n : Nat} {y : Allocated} (hs : Formed s) (hn : n ∈ port s a)
    (hy : s.wrappers.lookup n = some y) (hdata : y.wrapper.data ≠ 0)
    (habsent : s.references.globalReferences y.wrapper.data = none) : Fails asserts s := by
  obtain ⟨l, rest, hp⟩ := List.append_of_mem hn
  apply drain (P := fun s _ => s.wrappers.lookup n = some y ∧
    s.references.globalReferences y.wrapper.data = none) ?_ ?_ l hs ⟨hy, habsent⟩ hp
  · intro s i l x _ hP _ hne _
    exact ⟨onReply_at hne hP.1, by rw [onReply_references]; exact hP.2⟩
  · intro s x _ hP _ hx hpass
    rw [hP.1] at hx
    cases hx
    refine view_fails (onReply_view hdata hpass) rfl ?_
    rw [onReply_references]
    exact hP.2

/-- A view without a reference of its own: it releases that of another, which then finds
nothing. -/
theorem unbacked_view_fails {k : Nat} {v : ReplyView} (hs : Formed s) (hk : s.views[k]? = some v)
    (hf : v.fired = false) (href : v.ref = none) : Fails asserts s := by
  by_cases hkept : NothingLeaked s
  · cases hentry : s.references.globalReferences v.view.address with
    | none => exact view_fails hk hf hentry
    | some e =>
      obtain ⟨r, g, rfl, hg, hd, haddress⟩ := (hkept.entries _ _).mp hentry
      refine Breaks.before ?_ (e := .dartFinalizer k) trivial (fire hkept.defined hk hf)
      have hformed := dartFinalizer_formed hs hk
      have habsent : (s.references.releaseGlobalReferenceByPointer v.view.address).globalReferences
          v.view.address = none := by
        rw [release_found hentry]
        exact Function.update_self ..
      have hshows : ∀ {p : Nat}, Shows s.references r p → p = v.view.address := by
        intro p hp
        obtain ⟨g', hg', hp⟩ := hp
        rw [hg] at hg'
        cases hg'
        exact hp.symm.trans haddress
      rcases hkept.references r g hg hd with ⟨p, x, hx, hr, b, hb⟩ | ⟨u, hu, hur, huf⟩
      · have hdata := hshows (hs.wrapped p x hx r hr)
        refine wrapper_fails hformed hb hx (hs.shows_data hx (by rw [hr]; rfl)) ?_
        rw [hdata]
        exact habsent
      · have hne : u ≠ v := by
          intro he
          rw [he, href] at hur
          cases hur
        obtain ⟨j, hj⟩ := List.mem_iff_getElem?.mp (mem_set_of_ne
          (b := { v with fired := true }) hk hu hne)
        refine view_fails hj huf ?_
        rw [hshows (hs.viewed u hu r hur)]
        exact habsent
  · exact Breaks.now hkept

theorem unbacked_wrapper_fails {a n : Nat} {y : Allocated} (hs : Formed s) (hn : n ∈ port s a)
    (hy : s.wrappers.lookup n = some y) (hdata : y.wrapper.data ≠ 0) (href : y.ref = none) :
    Fails asserts s := by
  obtain ⟨l, rest, hp⟩ := List.append_of_mem hn
  apply drain (P := fun s _ => s.wrappers.lookup n = some y) ?_ ?_ l hs hy hp
  · intro s i l x _ hP _ hne _
    exact onReply_at hne hP
  · intro s x hs hP hp hx hpass
    have hx' := hx
    rw [hP] at hx
    cases hx
    exact unbacked_view_fails (onReply_formed hs hp hx') (onReply_view hdata hpass) rfl href

/-- `asTypedList` throws for a wrapper under way, which is then left behind. -/
theorem unreadable_fails {a n : Nat} {y : Allocated} (hs : Formed s) (hn : n ∈ port s a)
    (hy : s.wrappers.lookup n = some y) (hthrows : y.wrapper.throws = true) : Fails asserts s := by
  obtain ⟨l, rest, hp⟩ := List.append_of_mem hn
  apply drain (P := fun s _ => s.wrappers.lookup n = some y) ?_ ?_ l hs hy hp
  · intro s i l x _ hP _ hne _
    exact onReply_at hne hP
  · intro s x _ hP _ hx hpass
    rw [hP] at hx
    cases hx
    rw [hpass.2] at hthrows
    cases hthrows

/-- The assert stops a reply for which there is no completer when its turn comes. -/
theorem unexpected_fails {a n : Nat} {y : Allocated} {l : List Nat} (hon : asserts = true)
    (hs : Formed s) (hp : port s a = l ++ [n]) (hy : s.wrappers.lookup n = some y)
    (hunexpected : y.wrapper.seq ∉ completers s a ∨
      ∃ i ∈ l, ∃ x, s.wrappers.lookup i = some x ∧ x.wrapper.seq = y.wrapper.seq) :
    Fails asserts s := by
  apply drain (P := fun s l => s.wrappers.lookup n = some y ∧ (y.wrapper.seq ∉ completers s a ∨
    ∃ i ∈ l, ∃ x, s.wrappers.lookup i = some x ∧ x.wrapper.seq = y.wrapper.seq)) ?_ ?_ l hs
    ⟨hy, hunexpected⟩ hp
  · intro s i l x hs hP hp hne hx
    refine ⟨onReply_at hne hP.1, ?_⟩
    rw [mem_completers_onReply, completers_received]
    rcases hP.2 with hmissing | ⟨j, hj, z, hz, hseq⟩
    · exact Or.inl fun h => hmissing h.1
    · rcases List.mem_cons.mp hj with rfl | hj
      · -- the completer goes to the earlier reply
        rw [hx] at hz
        cases hz
        exact Or.inl fun h => h.2 rfl hseq.symm
      · have hij : i ≠ j := by
          have hnodup := hs.nodup a
          rw [hp, List.nodup_cons] at hnodup
          intro he
          exact hnodup.1 (by simp [he, hj])
        exact Or.inr ⟨j, hj, z, onReply_at hij hz, hseq⟩
  · intro s x _ hP _ hx hpass
    rw [hP.1] at hx
    cases hx
    rcases hP.2 with hmissing | ⟨j, hj, _⟩
    · exact absurd (hpass.1 hon) hmissing
    · cases hj

/-- A reply that was posted, though it is not one that is delivered. -/
theorem posted_fails {a : Nat} {replyId : Int} {reply : Option JavaBuffer} {message : Option Nat}
    {ret : Nat} {fresh : MessageWrapper} (hs : Formed s) (ha : s.replyPort = some a)
    (frees : s.Frees message)
    (new : ret ≠ 0 ∧ ret ∉ (s.freeMessage message).messages ∧ ret ∉ s.wrappers)
    (hc : ¬ Delivered asserts s (.replyMessageToDart replyId reply message ret fresh true)) :
    Fails asserts
      ((s.freeMessage message).replyMessageToDart a replyId reply ret fresh true) := by
  have hformed := reply_formed (freeMessage_formed hs message) a replyId reply fresh true
    new.2.1 new.2.2
  let y := outgoing s replyId fresh reply
  let t := (s.freeMessage message).wrap replyId ret fresh reply
  have hwrap : t = { s.freeMessage message with
      references := reply.elim s.references (associated s.references)
      wrappers := s.wrappers.insert ret y } := wrap_eq replyId ret fresh reply
  have hy : t.wrappers.lookup ret = some y := by
    rw [hwrap]
    exact AList.lookup_insert s.wrappers
  have hport : port (t.post a ret) a = port s a ++ [ret] := by
    rw [port_post, hwrap]
    rfl
  have hin : ret ∈ port (t.post a ret) a := by
    rw [hport]
    exact List.mem_append.mpr (Or.inr (List.mem_singleton.mpr rfl))
  change Fails asserts (t.post a ret)
  change Formed (t.post a ret) at hformed
  by_cases hnull : reply = none → fresh.data = 0
  · by_cases htakes : ∀ b, reply = some b → Vm.Takes b.buffer.capacity
    · have hunexpected : asserts = true ∧ ¬ Expected s a replyId := by
        by_contra hno
        refine hc ⟨frees, rfl, hnull, htakes, ?_⟩
        intro hon b hb
        rw [ha] at hb
        cases hb
        by_contra hexpected
        exact hno ⟨hon, hexpected⟩
      have hcompleters : completers (t.post a ret) a = completers s a := by
        rw [completers_post, hwrap]
        rfl
      refine unexpected_fails hunexpected.1 hformed hport hy ?_
      by_contra hno
      obtain ⟨hmem, hfirst⟩ := not_or.mp hno
      refine hunexpected.2 ⟨?_, ?_⟩
      · have hmem := Classical.not_not.mp hmem
        rw [outgoing_seq] at hmem
        rw [← hcompleters]
        exact hmem
      · intro p hp x hx hseq
        have hne : p ≠ ret := fun he => hs.not_ported new.2.2 a (he ▸ hp)
        refine hfirst ⟨p, hp, x, ?_, ?_⟩
        · change t.wrappers.lookup p = some x
          rw [hwrap]
          exact (AList.lookup_insert_ne hne).trans hx
        · rw [outgoing_seq]
          exact hseq
    · obtain ⟨b, hb⟩ := not_forall.mp htakes
      obtain ⟨rfl, hlength⟩ := Classical.not_imp.mp hb
      exact unreadable_fails hformed hin hy
        (MessageWrapper.throws_iff.mpr ⟨b.buffer.nonNull, hlength⟩)
  · obtain ⟨rfl, hdata⟩ := Classical.not_imp.mp hnull
    exact unbacked_wrapper_fails hformed hin hy hdata rfl

/-- A reply that is not delivered. -/
theorem undelivered_fails {t : Process} {e : Event} (hs : Formed s) (h : step asserts s e = some t)
    (hc : ¬ Delivered asserts s e) : Fails asserts t := by
  cases (step_moves h).2 with
  | @reply a replyId reply message ret fresh posted ha frees new vacant =>
    cases posted with
    | true => exact posted_fails hs ha frees new hc
    | false =>
      refine Breaks.now ?_
      intro hkept
      have hwrap := wrap_eq (s := s.freeMessage message) replyId ret fresh reply
      have hlost : ((s.freeMessage message).wrap replyId ret fresh reply).wrappers.lookup ret =
          some (outgoing s replyId fresh reply) := by
        rw [hwrap]
        exact AList.lookup_insert s.wrappers
      obtain ⟨b, hb⟩ := hkept.wrappers _ _ hlost
      change ret ∈ port ((s.freeMessage message).wrap replyId ret fresh reply) b at hb
      rw [hwrap] at hb
      exact hs.not_ported new.2.2 b hb
  | freesOther =>
    refine Breaks.now ?_
    intro hkept
    cases hkept.defined
  | _ => exact absurd trivial hc

end Fails

/-- In every state of a run, and of what Dart does with it next, nothing is leaked
exactly when every reply of the run is delivered. -/
theorem nothing_leaked_iff [Vm] (asserts : Bool) (es : List Event)
    (hr : (run (step asserts) Process.initial es).isSome = true) :
    Through (step asserts) Drains NothingLeaked Process.initial es ↔
      AllSteps (step asserts) (Delivered asserts) Process.initial es := by
  obtain ⟨s, hs⟩ := Option.isSome_iff_exists.mp hr
  apply through_iff_of_breaks (I := Safe asserts) ?_ ?_ ?_ ?_ initial_safe hs
  · intro s e t hi hc h
    exact step_safe hi hc h
  · intro s e he
    cases e with
    | onReply => trivial
    | dartFinalizer => trivial
    | _ => cases he
  · intro s hi
    exact hi.kept
  · intro s e t hi h hc
    exact undelivered_fails hi.formed h hc

section Lp64
attribute [local instance] Vm.lp64

/-- The second wrapper is allocated where the first message was. -/
theorem nothing_leaked_two_replies :
    Through (step true) Drains NothingLeaked Process.initial
      [.initializeChannel 0, .send 0 (some 64), .send 0 none,
        .replyMessageToDart 1 (some ⟨0, 4096, 16, by decide, by decide⟩) (some 64) 64 ⟨7, 7, 7⟩
          true,
        .replyMessageToDart 2 none none 96 ⟨7, 7, 0⟩ true, .onReply 0, .dartFinalizer 0] :=
  (nothing_leaked_iff true _ (by decide)).mpr (by decide)

/-- The port is closed when the reply is posted: nobody will ever see its wrapper, or
the reference of the buffer. -/
theorem failed_post_leaks :
    ∃ s, run (step false) Process.initial
        [.initializeChannel 0, .send 0 none,
          .replyMessageToDart 1 (some ⟨0, 4096, 16, by decide, by decide⟩) none 64 ⟨0, 0, 0⟩
            false] = some s ∧
      s.wrappers.lookup 64 = some ⟨⟨1, 16, 4096⟩, some 0⟩ ∧ (s.isolates 0).replyPort = [] ∧
      s.references.globalReferences 4096 = some (some 0) ∧ ¬ NothingLeaked s := by
  refine ⟨_, rfl, by decide, by decide, by decide, ?_⟩
  intro h
  obtain ⟨a, ha⟩ := h.wrappers 64 ⟨⟨1, 16, 4096⟩, some 0⟩ rfl
  cases a with
  | zero => cases ha
  | succ a => cases ha

end Lp64

end NativeChannel.ReplyLeaks
