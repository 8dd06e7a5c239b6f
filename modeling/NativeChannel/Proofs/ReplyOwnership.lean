import NativeChannel.Proofs.ViewLifetime
import NativeChannel.Source.ReplyResources

namespace NativeChannel.ReplyOwnership
open Counts ReplyResources Wrapper
open Finalizer (JavaBuffer GlobalRef)

def port (s : Process) (a : Nat) : List Nat := (s.isolates a).replyPort

def completers (s : Process) (a : Nat) : Finset Int := (s.isolates a).resultCompleters

/-- The wrapper was posted, and `onReply` has not processed it yet. -/
def InFlight (s : Process) (p : Nat) : Prop := ∃ a, p ∈ port s a

/-- The map holds the pointers of the references that are not deleted, and nothing else. -/
def Exactly (f : Finalizer.Process) : Prop :=
  ∀ p e, f.globalReferences p = some e ↔
    ∃ r g, e = some r ∧ f.globalRefs[r]? = some g ∧ g.deleted = false ∧
      g.object.buffer.address = p

/-- The reference is to a buffer at this address. -/
def Shows (f : Finalizer.Process) (r p : Nat) : Prop :=
  ∃ g, f.globalRefs[r]? = some g ∧ g.object.buffer.address = p

/-- What holds while only messages are freed for messages: a pointer in a port is that of a
wrapper, and there once; no message is in the block of one; a wrapper and its view show the
buffer of their reference. -/
structure Formed (s : Process) : Prop where
  ported : ∀ a, ∀ p ∈ port s a, ∃ x, s.wrappers.lookup p = some x
  single : ∀ a b, ∀ p ∈ port s a, p ∈ port s b → a = b
  nodup : ∀ a, (port s a).Nodup
  apart : ∀ p ∈ s.messages, p ∉ s.wrappers
  wrapped : ∀ p x, s.wrappers.lookup p = some x → ∀ r, x.ref = some r →
    Shows s.references r x.wrapper.data
  viewed : ∀ v ∈ s.views, ∀ r, v.ref = some r → Shows s.references r v.view.address

/-- The reference that a view has yet to hand on. -/
def ReplyView.owned (v : ReplyView) : Option Nat := if v.fired then none else v.ref

/-- The references of the wrappers, and those of the views. -/
def owned (s : Process) : List Nat :=
  s.wrappers.entries.filterMap (fun e => e.2.ref) ++ s.views.filterMap ReplyView.owned

section Map
variable {f : Finalizer.Process}

/-- The reference of a reply, as the map then has it. -/
def associated (f : Finalizer.Process) (b : JavaBuffer) : Finalizer.Process :=
  (f.newGlobalRef b).associatePointerWithGlobalReference b.buffer.address f.globalRefs.length

theorem associated_globalRefs (b : JavaBuffer) : (associated f b).globalRefs =
    f.globalRefs ++ [⟨b, some b.buffer.address, false⟩] :=
  ViewLifetime.wrap_globalRefs f b none

/-- The references after a reply: those before, and that of the buffer of a reply. -/
theorem replied_at {reply : Option JavaBuffer} {r : Nat} {g : GlobalRef} :
    (reply.elim f (associated f)).globalRefs[r]? = some g ↔
      f.globalRefs[r]? = some g ∨
        ∃ b, reply = some b ∧ r = f.globalRefs.length ∧
          g = ⟨b, some b.buffer.address, false⟩ := by
  cases reply with
  | none => simp
  | some b =>
    rw [Option.elim_some, associated_globalRefs, at_concat]
    simp [eq_comm]

theorem Shows.replied {r p : Nat} (h : Shows f r p) (reply : Option JavaBuffer) :
    Shows (reply.elim f (associated f)) r p := by
  obtain ⟨g, hg, hp⟩ := h
  exact ⟨g, replied_at.mpr (Or.inl hg), hp⟩

theorem Exactly.associated (h : Exactly f) {b : JavaBuffer}
    (vacant : ∀ g ∈ f.globalRefs, g.deleted = true ∨ g.object.buffer.address ≠ b.buffer.address) :
    Exactly (associated f b) := by
  intro p e
  rw [associated_globalRefs]
  change Function.update f.globalReferences b.buffer.address (some (some f.globalRefs.length)) p =
    some e ↔ _
  by_cases hp : p = b.buffer.address
  · subst p
    rw [Function.update_self]
    constructor
    · intro he
      cases he
      exact ⟨_, _, rfl, at_concat.mpr (Or.inr ⟨rfl, rfl⟩), rfl, rfl⟩
    · intro he
      obtain ⟨r, g, rfl, hg, hd, hp⟩ := he
      rcases at_concat.mp hg with hg | ⟨rfl, _⟩
      · rcases vacant g (mem_of_at hg) with hdel | hne
        · rw [hd] at hdel
          cases hdel
        · exact absurd hp hne
      · rfl
  · rw [Function.update_of_ne hp, h p e]
    constructor
    · intro he
      obtain ⟨r, g, hr, hg, hrest⟩ := he
      exact ⟨r, g, hr, at_concat.mpr (Or.inl hg), hrest⟩
    · intro he
      obtain ⟨r, g, hr, hg, hd, hpg⟩ := he
      rcases at_concat.mp hg with hg | ⟨_, rfl⟩
      · exact ⟨r, g, hr, hg, hd, hpg⟩
      · exact absurd hpg.symm hp

/-- A release that finds a reference. -/
theorem release_found {p r : Nat} (h : f.globalReferences p = some (some r)) :
    f.releaseGlobalReferenceByPointer p = { f.deleteGlobalRef r with
      globalReferences := Function.update f.globalReferences p none } := by
  simp [Finalizer.Process.releaseGlobalReferenceByPointer, h, Finalizer.Process.deleteGlobalRef]

theorem release_nothing {p : Nat} (h : f.globalReferences p = none) :
    f.releaseGlobalReferenceByPointer p = { f with
      globalReferences := Function.update f.globalReferences p (some none) } := by
  simp [Finalizer.Process.releaseGlobalReferenceByPointer, h]

theorem Shows.release {r p q : Nat} (h : Shows f r p) :
    Shows (f.releaseGlobalReferenceByPointer q) r p := by
  obtain ⟨g, hg, hp⟩ := h
  unfold Finalizer.Process.releaseGlobalReferenceByPointer
  split
  · exact ⟨g, hg, hp⟩
  · rename_i object _
    by_cases hr : object = r
    · subst r
      refine ⟨{ g with deleted := true }, ?_, hp⟩
      exact (List.getElem?_modify_eq ..).trans (by rw [hg]; rfl)
    · exact ⟨g, (List.getElem?_modify_ne _ _ hr).trans hg, hp⟩

theorem Exactly.release (h : Exactly f) {p r : Nat} (hp : f.globalReferences p = some (some r)) :
    Exactly (f.releaseGlobalReferenceByPointer p) := by
  obtain ⟨r', g, hr, hg, hd, haddress⟩ := (h p (some r)).mp hp
  cases hr
  intro q e
  rw [release_found hp]
  change Function.update f.globalReferences p none q = some e ↔
    ∃ r' g', e = some r' ∧ (f.globalRefs.modify r _)[r']? = some g' ∧ _
  rw [modify_at _ hg]
  constructor
  · intro he
    have hq : q ≠ p := by
      intro hq
      rw [hq, Function.update_self] at he
      cases he
    rw [Function.update_of_ne hq] at he
    obtain ⟨r', g', he', hg', hrest⟩ := (h q e).mp he
    have hne : r ≠ r' := by
      intro hrr
      rw [← hrr, hg] at hg'
      cases hg'
      exact hq (hrest.2.symm.trans haddress)
    exact ⟨r', g', he', (List.getElem?_set_ne hne).trans hg', hrest⟩
  · intro he
    obtain ⟨r', g', rfl, hg', hd', hq⟩ := he
    have hne : g' ≠ { g with deleted := true } := by
      intro hgg
      rw [hgg] at hd'
      cases hd'
    obtain ⟨hrr, hg'⟩ := at_of_set hg' hne
    have hentry := (h q (some r')).mpr ⟨r', g', rfl, hg', hd', hq⟩
    have hqp : q ≠ p := by
      intro hqp
      rw [hqp, hp] at hentry
      exact hrr (Option.some.inj (Option.some.inj hentry))
    rw [Function.update_of_ne hqp]
    exact hentry

end Map

section Ports
variable {s : Process}

theorem mem_post {a b ptr i : Nat} :
    i ∈ port (s.post a ptr) b ↔ i ∈ port s b ∨ b = a ∧ i = ptr := by
  unfold port Process.post Process.setIsolate
  by_cases hb : b = a
  · subst b
    simp
  · simp [hb]

theorem port_setIsolate {a : Nat} {iso : Isolate} (h : iso.replyPort = port s a) (b : Nat) :
    port (s.setIsolate a iso) b = port s b := by
  unfold port Process.setIsolate
  by_cases hb : b = a
  · subst b
    simpa [port] using h
  · simp [hb]

theorem port_post {a ptr : Nat} : port (s.post a ptr) a = port s a ++ [ptr] := by
  simp [port, Process.post, Process.setIsolate]

theorem completers_post (a b ptr : Nat) : completers (s.post a ptr) b = completers s b := by
  unfold completers Process.post Process.setIsolate
  by_cases hb : b = a
  · subst b
    simp
  · simp [hb]

theorem port_received {a : Nat} {rest : List Nat} : port (s.received a rest) a = rest := by
  simp [port, Process.received, Process.setIsolate]

theorem completers_received (a b : Nat) (rest : List Nat) :
    completers (s.received a rest) b = completers s b := by
  unfold completers Process.received Process.setIsolate
  by_cases hb : b = a
  · subst b
    simp
  · simp [hb]

theorem mem_received {a b ptr i : Nat} {rest : List Nat} (hs : Formed s)
    (hp : port s a = ptr :: rest) :
    i ∈ port (s.received a rest) b ↔ i ∈ port s b ∧ i ≠ ptr := by
  by_cases hb : b = a
  · subst b
    rw [port_received, hp, List.mem_cons]
    have hnot : ptr ∉ rest := by
      have hn := hs.nodup a
      rw [hp] at hn
      exact (List.nodup_cons.mp hn).1
    constructor
    · intro hi
      exact ⟨Or.inr hi, fun he => hnot (he ▸ hi)⟩
    · intro hi
      exact hi.1.resolve_left hi.2
  · have hport : port (s.received a rest) b = port s b := by
      simp [port, Process.received, Process.setIsolate, hb]
    rw [hport]
    refine ⟨fun hi => ⟨hi, ?_⟩, fun hi => hi.1⟩
    intro he
    subst i
    exact hb (hs.single a b ptr (by simp [hp]) hi).symm

/-- The wrapper of a reply, as it is filled. -/
def outgoing (s : Process) (replyId : Int) (fresh : MessageWrapper) (reply : Option JavaBuffer) :
    Allocated :=
  ⟨fresh.fill replyId (reply.map JavaBuffer.buffer),
    reply.map fun _ => s.references.globalRefs.length⟩

theorem wrap_eq (replyId : Int) (ret : Nat) (fresh : MessageWrapper) (reply : Option JavaBuffer) :
    s.wrap replyId ret fresh reply = { s with
      references := reply.elim s.references (associated s.references)
      wrappers := s.wrappers.insert ret (outgoing s replyId fresh reply) } := by
  cases reply <;> rfl

theorem outgoing_seq (replyId : Int) (fresh : MessageWrapper) (reply : Option JavaBuffer) :
    (outgoing s replyId fresh reply).wrapper.seq = replyId := by
  cases reply <;> rfl

theorem outgoing_ref {replyId : Int} {fresh : MessageWrapper} {reply : Option JavaBuffer}
    {r : Nat} : (outgoing s replyId fresh reply).ref = some r ↔
      ∃ b, reply = some b ∧ r = s.references.globalRefs.length := by
  cases reply <;> simp [outgoing, eq_comm]

/-- The new wrapper has the reference of its reply to hand on. -/
theorem wrap_owned (replyId : Int) {ret : Nat} (fresh : MessageWrapper)
    (reply : Option JavaBuffer) (hnew : ret ∉ s.wrappers) :
    owned (s.wrap replyId ret fresh reply) =
      (outgoing s replyId fresh reply).ref.toList ++ owned s := by
  rw [wrap_eq, owned, AList.entries_insert_of_notMem hnew, filterMap_cons_toList, List.append_assoc]
  rfl

end Ports

section OnReply
variable [Vm] {s : Process}

/-- The view that a wrapper becomes. -/
def seen (x : Allocated) : List ReplyView := x.wrapper.built.toList.map fun v => ⟨v, x.ref, false⟩

theorem registerFinalizer_eq (x : Allocated) :
    s.registerFinalizer x = { s with views := s.views ++ seen x } := by
  unfold Process.registerFinalizer seen
  cases x.wrapper.built with
  | none => simp
  | some view => rfl

/-- The completer, the view and the wrapper: nothing else changes. -/
theorem onReply_eq (a ptr : Nat) (x : Allocated) :
    s.onReply a ptr x = { s.setIsolate a { s.isolates a with
        resultCompleters := (s.isolates a).resultCompleters.erase x.wrapper.seq } with
      views := s.views ++ seen x
      wrappers := s.wrappers.erase ptr } := by
  simp only [Process.onReply, registerFinalizer_eq]
  rfl

theorem port_onReply (a ptr b : Nat) (x : Allocated) :
    port (s.onReply a ptr x) b = port s b := by
  rw [onReply_eq]
  change port (s.setIsolate a { s.isolates a with
    resultCompleters := (s.isolates a).resultCompleters.erase x.wrapper.seq }) b = port s b
  apply port_setIsolate
  rfl

theorem mem_completers_onReply {a ptr : Nat} {x : Allocated} {b : Nat} {seq : Int} :
    seq ∈ completers (s.onReply a ptr x) b ↔
      seq ∈ completers s b ∧ (b = a → seq ≠ x.wrapper.seq) := by
  rw [onReply_eq]
  unfold completers Process.setIsolate
  by_cases hb : b = a
  · subst b
    simp [and_comm]
  · simp [hb]

@[simp] theorem onReply_references (a ptr : Nat) (x : Allocated) :
    (s.onReply a ptr x).references = s.references := by
  rw [onReply_eq]
  rfl

@[simp] theorem onReply_wrappers (a ptr : Nat) (x : Allocated) :
    (s.onReply a ptr x).wrappers = s.wrappers.erase ptr := by
  rw [onReply_eq]

@[simp] theorem onReply_messages (a ptr : Nat) (x : Allocated) :
    (s.onReply a ptr x).messages = s.messages := by
  rw [onReply_eq]
  rfl

@[simp] theorem onReply_undefined (a ptr : Nat) (x : Allocated) :
    (s.onReply a ptr x).undefined = s.undefined := by
  rw [onReply_eq]
  rfl

@[simp] theorem onReply_views (a ptr : Nat) (x : Allocated) :
    (s.onReply a ptr x).views = s.views ++ seen x := by
  rw [onReply_eq]

theorem mem_seen {x : Allocated} {v : ReplyView} (h : v ∈ seen x) :
    x.wrapper.data ≠ 0 ∧ v.view.address = x.wrapper.data ∧ v.ref = x.ref ∧ v.fired = false := by
  obtain ⟨w, hw, rfl⟩ := List.mem_map.mp h
  have hr : x.wrapper.received = some w :=
    (Option.filter_eq_some_iff.mp (Option.mem_toList.mp hw)).1
  unfold MessageWrapper.received at hr
  split at hr
  · cases hr
  · rename_i hnull
    cases hr
    exact ⟨by simpa [MessageWrapper.isNull] using hnull, rfl, rfl, rfl⟩

theorem seen_of_data {x : Allocated} (h : x.wrapper.data ≠ 0) (ht : x.wrapper.throws = false) :
    seen x = [⟨x.wrapper.view, x.ref, false⟩] := by
  have htakes : Vm.Takes x.wrapper.length := by
    by_contra hno
    rw [MessageWrapper.throws_iff.mpr ⟨h, hno⟩] at ht
    cases ht
  simp [seen, MessageWrapper.built, MessageWrapper.received, MessageWrapper.isNull, h,
    MessageWrapper.view, htakes]

end OnReply

section Formed
variable {s : Process}

/-- Nothing in a port, a wrapper or a view changes, and no message is new. -/
theorem Formed.of_ports {t : Process} (hs : Formed s) (hr : t.references = s.references)
    (hw : t.wrappers = s.wrappers) (hv : t.views = s.views) (hp : ∀ a, port t a = port s a)
    (hm : t.messages ⊆ s.messages) : Formed t := by
  refine ⟨?_, ?_, ?_, ?_, ?_, ?_⟩
  · intro a
    rw [hp, hw]
    exact hs.ported a
  · intro a b
    rw [hp, hp]
    exact hs.single a b
  · intro a
    rw [hp]
    exact hs.nodup a
  · intro p hmem
    rw [hw]
    exact hs.apart p (hm hmem)
  · rw [hw, hr]
    exact hs.wrapped
  · rw [hv, hr]
    exact hs.viewed

theorem initial_formed : Formed Process.initial := by
  refine ⟨nofun, nofun, fun _ => List.nodup_nil, ?_, ?_, nofun⟩
  · intro p hp
    exact absurd hp (Finset.notMem_empty p)
  · intro p x hx
    cases (AList.lookup_empty p).symm.trans hx

/-- An address that is not a wrapper's is in no port. -/
theorem Formed.not_ported (hs : Formed s) {p : Nat} (hp : p ∉ s.wrappers) (a : Nat) :
    p ∉ port s a := by
  intro hi
  obtain ⟨x, hx⟩ := hs.ported a p hi
  exact hp (AList.lookup_isSome.mp (by rw [hx]; rfl))

/-- The pointer that `onReply` takes from a port leads to a wrapper. -/
theorem Formed.found (hs : Formed s) {a ptr : Nat} {rest : List Nat}
    (hp : (s.isolates a).replyPort = ptr :: rest) : s.wrappers.lookup ptr ≠ none := by
  obtain ⟨x, hx⟩ := hs.ported a ptr (by simp [port, hp])
  rw [hx]
  exact Option.some_ne_none x

theorem port_send (a b : Nat) (copy : Option Nat) : port (s.send a copy) b = port s b := by
  change port (s.setIsolate a (s.isolates a).send) b = port s b
  apply port_setIsolate
  rfl

theorem send_formed (hs : Formed s) {a : Nat} {copy : Option Nat}
    (hnew : ∀ p ∈ copy, p ∉ s.wrappers) : Formed (s.send a copy) := by
  refine ⟨?_, ?_, ?_, ?_, hs.wrapped, hs.viewed⟩
  · intro b
    rw [port_send]
    exact hs.ported b
  · intro b c
    rw [port_send, port_send]
    exact hs.single b c
  · intro b
    rw [port_send]
    exact hs.nodup b
  · intro p hp
    cases copy with
    | none => exact hs.apart p hp
    | some q =>
      rcases Finset.mem_insert.mp hp with rfl | hp
      · exact hnew p rfl
      · exact hs.apart p hp

theorem freeMessage_subset (s : Process) (message : Option Nat) :
    (s.freeMessage message).messages ⊆ s.messages := by
  cases message with
  | none => exact Finset.Subset.refl _
  | some p => exact Finset.erase_subset p s.messages

theorem freeMessage_formed (hs : Formed s) (message : Option Nat) :
    Formed (s.freeMessage message) :=
  hs.of_ports rfl rfl rfl (fun _ => rfl) (freeMessage_subset s message)

theorem wrap_formed (hs : Formed s) (replyId : Int) {ret : Nat} (fresh : MessageWrapper)
    (reply : Option JavaBuffer) (hm : ret ∉ s.messages) (hw : ret ∉ s.wrappers) :
    Formed (s.wrap replyId ret fresh reply) := by
  rw [wrap_eq]
  refine ⟨?_, hs.single, hs.nodup, ?_, ?_, ?_⟩
  · intro a p hp
    obtain ⟨x, hx⟩ := hs.ported a p hp
    have hne : p ≠ ret := fun he => hs.not_ported hw a (he ▸ hp)
    exact ⟨x, (AList.lookup_insert_ne hne).trans hx⟩
  · intro p hp hin
    rcases (AList.mem_insert _).mp hin with rfl | hin
    · exact hm hp
    · exact hs.apart p hp hin
  · intro p x hx r hr
    by_cases hp : p = ret
    · subst p
      obtain rfl := Option.some.inj ((AList.lookup_insert s.wrappers).symm.trans hx)
      cases reply with
      | none => cases hr
      | some b =>
        cases hr
        exact ⟨_, replied_at.mpr (Or.inr ⟨b, rfl, rfl, rfl⟩), rfl⟩
    · exact (hs.wrapped p x ((AList.lookup_insert_ne hp).symm.trans hx) r hr).replied reply
  · intro v hv r hr
    exact (hs.viewed v hv r hr).replied reply

theorem post_formed {a ptr : Nat} (hs : Formed s) (hx : ptr ∈ s.wrappers)
    (hnew : ∀ b, ptr ∉ port s b) : Formed (s.post a ptr) := by
  refine ⟨?_, ?_, ?_, hs.apart, hs.wrapped, hs.viewed⟩
  · intro b i hi
    rcases mem_post.mp hi with hi | ⟨_, rfl⟩
    · exact hs.ported b i hi
    · exact Option.isSome_iff_exists.mp (AList.lookup_isSome.mpr hx)
  · intro b c i hi hj
    rcases mem_post.mp hi with hb | ⟨hb, he⟩
    · rcases mem_post.mp hj with hc | ⟨_, he⟩
      · exact hs.single b c i hb hc
      · exact absurd (he ▸ hb) (hnew b)
    · rcases mem_post.mp hj with hc | ⟨hc, _⟩
      · exact absurd (he ▸ hc) (hnew c)
      · rw [hb, hc]
  · intro b
    by_cases hb : b = a
    · subst b
      rw [port_post]
      refine List.nodup_append.mpr ⟨hs.nodup a, List.nodup_singleton ptr, ?_⟩
      intro i hi j hj he
      rw [List.mem_singleton] at hj
      exact hnew a (hj ▸ he ▸ hi)
    · have hport : port (s.post a ptr) b = port s b := by
        simp [port, Process.post, Process.setIsolate, hb]
      rw [hport]
      exact hs.nodup b

theorem reply_formed (hs : Formed s) (a : Nat) (replyId : Int) (reply : Option JavaBuffer)
    {ret : Nat} (fresh : MessageWrapper) (posted : Bool) (hm : ret ∉ s.messages)
    (hw : ret ∉ s.wrappers) : Formed (s.replyMessageToDart a replyId reply ret fresh posted) := by
  have hwrap := wrap_formed hs replyId fresh reply hm hw
  cases posted with
  | false => exact hwrap
  | true =>
    refine post_formed hwrap ?_ ?_
    · rw [wrap_eq]
      exact (AList.mem_insert _).mpr (Or.inl rfl)
    · intro b hb
      rw [wrap_eq] at hb
      exact hs.not_ported hw b hb

theorem received_formed {a ptr : Nat} {rest : List Nat} (hs : Formed s)
    (hp : port s a = ptr :: rest) : Formed (s.received a rest) := by
  refine ⟨?_, ?_, ?_, hs.apart, hs.wrapped, hs.viewed⟩
  · intro b i hi
    exact hs.ported b i ((mem_received hs hp).mp hi).1
  · intro b c i hi hj
    exact hs.single b c i ((mem_received hs hp).mp hi).1 ((mem_received hs hp).mp hj).1
  · intro b
    by_cases hb : b = a
    · subst b
      have hn := hs.nodup a
      rw [hp] at hn
      rw [port_received]
      exact (List.nodup_cons.mp hn).2
    · have hport : port (s.received a rest) b = port s b := by
        simp [port, Process.received, Process.setIsolate, hb]
      rw [hport]
      exact hs.nodup b

theorem lookup_of_erase {w : AList fun _ : Nat => Allocated} {p q : Nat} {x : Allocated}
    (h : (w.erase q).lookup p = some x) : p ≠ q ∧ w.lookup p = some x := by
  have hne : p ≠ q := by
    intro he
    rw [he, AList.lookup_erase] at h
    cases h
  exact ⟨hne, (AList.lookup_erase_ne hne).symm.trans h⟩

theorem onReply_formed [Vm] {a ptr : Nat} {rest : List Nat} {x : Allocated} (hs : Formed s)
    (hp : port s a = ptr :: rest) (hx : s.wrappers.lookup ptr = some x) :
    Formed ((s.received a rest).onReply a ptr x) := by
  have hrec := received_formed hs hp
  refine ⟨?_, ?_, ?_, ?_, ?_, ?_⟩
  · intro b i hi
    rw [port_onReply] at hi
    obtain ⟨hin, hne⟩ := (mem_received hs hp).mp hi
    obtain ⟨y, hy⟩ := hs.ported b i hin
    refine ⟨y, ?_⟩
    rw [onReply_wrappers]
    exact (AList.lookup_erase_ne hne).trans hy
  · intro b c i
    rw [port_onReply, port_onReply]
    exact hrec.single b c i
  · intro b
    rw [port_onReply]
    exact hrec.nodup b
  · rw [onReply_messages, onReply_wrappers]
    intro p hm hin
    exact hs.apart p hm (AList.mem_erase.mp hin).2
  · rw [onReply_wrappers, onReply_references]
    intro p y hy
    exact hs.wrapped p y (lookup_of_erase hy).2
  · rw [onReply_views, onReply_references]
    intro v hv r hr
    rcases List.mem_append.mp hv with hv | hv
    · exact hs.viewed v hv r hr
    · obtain ⟨_, haddress, href, _⟩ := mem_seen hv
      rw [haddress]
      exact hs.wrapped ptr x hx r (href ▸ hr)

theorem dartFinalizer_formed {k : Nat} {v : ReplyView} (hs : Formed s)
    (hk : s.views[k]? = some v) : Formed { s with
      views := s.views.set k { v with fired := true }
      references := s.references.releaseGlobalReferenceByPointer v.view.address } := by
  refine ⟨hs.ported, hs.single, hs.nodup, hs.apart, ?_, ?_⟩
  · intro p x hx r hr
    exact (hs.wrapped p x hx r hr).release
  · have hold : ∀ u ∈ s.views, ∀ r, u.ref = some r →
        Shows (s.references.releaseGlobalReferenceByPointer v.view.address) r u.view.address :=
      fun u hu r hr => (hs.viewed u hu r hr).release
    exact forall_mem_set hold (hold v (mem_of_at hk))

theorem Formed.shows_data (hs : Formed s) {p : Nat} {x : Allocated}
    (hx : s.wrappers.lookup p = some x) (href : x.ref.isSome = true) : x.wrapper.data ≠ 0 := by
  obtain ⟨r, hr⟩ := Option.isSome_iff_exists.mp href
  obtain ⟨g, _, haddress⟩ := hs.wrapped p x hx r hr
  rw [← haddress]
  exact g.object.buffer.nonNull

/-- The reference goes over from the wrapper to the view. -/
theorem seen_owned [Vm] {x : Allocated} (h : x.ref.isSome = true → x.wrapper.data ≠ 0)
    (ht : x.wrapper.throws = false) : (seen x).filterMap ReplyView.owned = x.ref.toList := by
  cases hr : x.ref with
  | some r =>
    rw [seen_of_data (h (by rw [hr]; rfl)) ht, hr]
    rfl
  | none =>
    rw [Option.toList_none, List.filterMap_eq_nil_iff]
    intro v hv
    obtain ⟨_, _, href, hf⟩ := mem_seen hv
    rw [ReplyView.owned, hf, href, hr]
    rfl

theorem onReply_owned [Vm] {a ptr : Nat} {rest : List Nat} {x : Allocated} (hs : Formed s)
    (hx : s.wrappers.lookup ptr = some x) (ht : x.wrapper.throws = false) :
    (owned ((s.received a rest).onReply a ptr x)).Perm (owned s) := by
  have herase := (perm_erase_of_lookup hx).filterMap fun e => e.2.ref
  rw [filterMap_cons_toList] at herase
  have hseen := seen_owned (hs.shows_data hx) ht
  unfold owned
  rw [onReply_wrappers, onReply_views, List.filterMap_append, hseen]
  refine List.Perm.trans ?_ (herase.symm.append_right _)
  change (List.filterMap _ (s.wrappers.erase ptr).entries ++
    (s.views.filterMap ReplyView.owned ++ x.ref.toList)).Perm _
  rw [← List.append_assoc, List.append_assoc x.ref.toList]
  exact List.perm_append_comm

end Formed

end NativeChannel.ReplyOwnership
