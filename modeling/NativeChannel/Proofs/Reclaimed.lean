import NativeChannel.Library.Quiescence
import NativeChannel.Proofs.ReplyLeaks

namespace NativeChannel.Reclaimed
open Runs Counts ReplyResources ReplyOwnership Wrapper
open ReplyLeaks (Safe Delivered)

/-- What Dart reads and frees is still there, and nothing else is in its block. -/
structure WrappersOwned (s : Process) : Prop where
  defined : s.undefined = false
  ported : ∀ a, ∀ p ∈ port s a, ∃ x, s.wrappers.lookup p = some x
  single : ∀ a b, ∀ p ∈ port s a, p ∈ port s b → a = b
  nodup : ∀ a, (port s a).Nodup
  apart : ∀ p ∈ s.messages, p ∉ s.wrappers

/-- No reply frees what is not a message. -/
def FreesMessages (s : Process) : Event → Prop
  | .replyMessageToDart _ _ message _ _ _ => s.Frees message
  | _ => True

instance (s : Process) : (e : Event) → Decidable (FreesMessages s e)
  | .replyMessageToDart _ _ message _ _ _ => inferInstanceAs (Decidable (s.Frees message))
  | .initializeChannel _ | .send _ _ | .onReply _ | .dartFinalizer _ => isTrue trivial

section Owned
variable [Vm] {asserts : Bool} {s : Process}

theorem step_formed {t : Process} {e : Event} (hs : Formed s) (hc : FreesMessages s e)
    (h : step asserts s e = some t) : Formed t ∧ t.undefined = false := by
  obtain ⟨hd, hm⟩ := step_moves h
  cases hm with
  | initializeChannel =>
    exact ⟨hs.of_ports rfl rfl rfl (fun _ => rfl) (Finset.Subset.refl _), hd⟩
  | send new => exact ⟨send_formed hs fun p hp => (new p hp).2.2, hd⟩
  | @reply a replyId reply message ret fresh posted _ _ new _ =>
    refine ⟨reply_formed (freeMessage_formed hs message) _ _ _ _ _ new.2.1 new.2.2, ?_⟩
    unfold Process.replyMessageToDart
    rw [wrap_eq]
    cases posted <;> exact hd
  | freesOther _ other => exact absurd hc other
  | stops hp => exact ⟨received_formed hs hp, hd⟩
  | onReply hp hx =>
    refine ⟨onReply_formed hs hp hx, ?_⟩
    rw [onReply_undefined]
    exact hd
  | readsOther hp gone => exact absurd gone (hs.found hp)
  | dartFinalizer hk => exact ⟨dartFinalizer_formed hs hk, hd⟩

end Owned

/-- In every run in which no reply frees anything but a message, though posts fail, replies
reach another isolate, asserts and `asTypedList` throw and blocks are used again: each message
on a port is the only one to its wrapper, whose block is that of nothing else, and no block is
read or freed that is not there. -/
theorem wrappers_owned [Vm] (asserts : Bool) (es : List Event)
    (hc : AllSteps (step asserts) FreesMessages Process.initial es) {s : Process}
    (hr : run (step asserts) Process.initial es = some s) : WrappersOwned s := by
  have hs : Formed s ∧ s.undefined = false :=
    run_invariant_when (J := fun s => Formed s ∧ s.undefined = false)
      (fun _ _ _ hs hc h => step_formed hs.1 hc h) ⟨initial_formed, rfl⟩ hc hr
  exact ⟨hs.2, hs.1.ported, hs.1.single, hs.1.nodup, hs.1.apart⟩

/-- Nothing that replies allocated or recorded is left. -/
structure AllReclaimed (s : Process) : Prop where
  wrappers : ∀ p, p ∉ s.wrappers
  views : ∀ v ∈ s.views, v.fired = true
  references : ∀ g ∈ s.references.globalRefs, g.deleted = true
  entries : ∀ p, s.references.globalReferences p = none

/-- Each wrapper can still become a view, which is finalized once. -/
def weight (s : Process) : Nat :=
  2 * s.wrappers.entries.length + s.views.countP fun v => !v.fired

theorem dartFinalizer_weight {s : Process} {k : Nat} {v : ReplyView} (f : Finalizer.Process)
    (hk : s.views[k]? = some v) (hf : v.fired = false) :
    weight { s with views := s.views.set k { v with fired := true }, references := f } <
      weight s := by
  have hset := countP_set_add (fun v : ReplyView => !v.fired) { v with fired := true } hk
  simp only [hf, Bool.not_true, Bool.not_false, Bool.false_eq_true, if_false, if_true] at hset
  unfold weight
  change 2 * s.wrappers.entries.length + (s.views.set k _).countP _ < _
  omega

section Drains
variable [Vm] {asserts : Bool} {s : Process}

/-- Dart does nothing that a reply would have to be delivered for. -/
theorem drains_delivered {e : Event} (he : ReplyLeaks.Drains e) : Delivered asserts s e := by
  cases e with
  | onReply => trivial
  | dartFinalizer => trivial
  | _ => cases he

theorem onReply_weight {a ptr : Nat} {rest : List Nat} {x : Allocated}
    (hx : s.wrappers.lookup ptr = some x) :
    weight ((s.received a rest).onReply a ptr x) < weight s := by
  have herase := (perm_erase_of_lookup hx).length_eq
  have hseen : (seen x).countP (fun v => !v.fired) ≤ 1 := by
    refine Nat.le_trans List.countP_le_length ?_
    unfold seen
    cases x.wrapper.built <;> simp
  rw [List.length_cons] at herase
  unfold weight
  rw [onReply_wrappers, onReply_views, List.countP_append]
  change 2 * (s.wrappers.erase ptr).entries.length + (s.views.countP _ + _) < _
  omega

theorem reclaiming_settles :
    Settles (step asserts) (Safe asserts) ReplyLeaks.Drains weight where
  keeps _ _ _ hs he h := ReplyLeaks.step_safe hs (drains_delivered he) h
  uses s e t hs he h := by
    cases (step_moves h).2 with
    | stops hp hx stops => exact absurd (hs.passes hp hx) stops
    | onReply _ hx => exact onReply_weight hx
    | readsOther hp gone => exact absurd gone (hs.formed.found hp)
    | dartFinalizer hk hf => exact dartFinalizer_weight _ hk hf
    | _ => cases he

/-- Where Dart has nothing to do, the ports are empty and the views finalized, so nobody is
left to see to a wrapper, a reference or an entry. -/
theorem quiet_reclaimed (hs : Safe asserts s) (hq : Quiet (step asserts) ReplyLeaks.Drains s) :
    AllReclaimed s := by
  have hports : ∀ p, ¬ InFlight s p := by
    intro p hi
    obtain ⟨a, ha⟩ := hi
    cases hp : port s a with
    | nil =>
      rw [hp] at ha
      cases ha
    | cons ptr rest =>
      obtain ⟨x, hx⟩ := hs.formed.ported a ptr (by simp [hp])
      have hnone := hq (.onReply a) trivial
      have hport : (s.isolates a).replyPort = ptr :: rest := hp
      have hpass := hs.passes hport hx
      simp [step, hs.kept.defined, hport, hx, hpass] at hnone
  have hviews : ∀ v ∈ s.views, v.fired = true := by
    intro v hv
    obtain ⟨k, hk⟩ := List.mem_iff_getElem?.mp hv
    by_contra hf
    have hnone := hq (.dartFinalizer k) trivial
    rw [ReplyLeaks.fire hs.kept.defined hk (by simpa using hf)] at hnone
    cases hnone
  have hrefs : ∀ g ∈ s.references.globalRefs, g.deleted = true := by
    intro g hg
    obtain ⟨r, hr⟩ := List.mem_iff_getElem?.mp hg
    by_contra hd
    rcases hs.kept.references r g hr (by simpa using hd) with ⟨p, _, _, _, hi⟩ | ⟨v, hv, _, hf⟩
    · exact hports p hi
    · rw [hviews v hv] at hf
      cases hf
  refine ⟨?_, hviews, hrefs, ?_⟩
  · intro p hp
    obtain ⟨x, hx⟩ := Option.isSome_iff_exists.mp (AList.lookup_isSome.mpr hp)
    exact hports p (hs.kept.wrappers p x hx)
  · intro p
    cases he : s.references.globalReferences p with
    | none => rfl
    | some e =>
      obtain ⟨r, g, _, hg, hd, _⟩ := (hs.kept.entries p e).mp he
      rw [hrefs g (mem_of_at hg)] at hd
      cases hd

end Drains

/-- After a run whose replies were all delivered, Dart on its own comes to an end, in any
order of the ports and the finalizers, and then every wrapper is freed, every reference
deleted and the map empty. -/
theorem everything_reclaimed [Vm] (asserts : Bool) (es : List Event)
    (hc : AllSteps (step asserts) (Delivered asserts) Process.initial es) {s : Process}
    (hr : run (step asserts) Process.initial es = some s) :
    Drains (step asserts) ReplyLeaks.Drains AllReclaimed (weight s) s :=
  reclaiming_settles.drains (fun _ hs hq => quiet_reclaimed hs hq)
    (run_invariant_when (fun _ _ _ hs hc h => ReplyLeaks.step_safe hs hc h)
      ReplyLeaks.initial_safe hc hr)

section Lp64
attribute [local instance] Vm.lp64

/-- Two isolates. A wrapper is in the block that was a message's, as is a later message, and
request 2, whose message is null, is replied to twice. -/
theorem wrappers_owned_reused_block :
    WrappersOwned ((run (step true) Process.initial
      [.initializeChannel 0, .send 0 (some 64), .send 0 none,
        .replyMessageToDart 1 none (some 64) 64 ⟨7, 7, 0⟩ true, .onReply 0, .initializeChannel 1,
        .send 1 (some 64), .replyMessageToDart 2 none none 96 ⟨7, -7, 7⟩ true,
        .replyMessageToDart 2 none none 128 ⟨7, 7, 7⟩ true, .onReply 1]).get (by decide)) :=
  wrappers_owned true
    [.initializeChannel 0, .send 0 (some 64), .send 0 none,
      .replyMessageToDart 1 none (some 64) 64 ⟨7, 7, 0⟩ true, .onReply 0, .initializeChannel 1,
      .send 1 (some 64), .replyMessageToDart 2 none none 96 ⟨7, -7, 7⟩ true,
      .replyMessageToDart 2 none none 128 ⟨7, 7, 7⟩ true, .onReply 1] (by decide)
    (Option.some_get _).symm

theorem everything_reclaimed_two_replies :
    let s := (run (step true) Process.initial
      [.initializeChannel 0, .send 0 (some 64), .send 0 none,
        .replyMessageToDart 1 (some ⟨0, 4096, 16, by decide, by decide⟩) (some 64) 64 ⟨7, 7, 7⟩
          true,
        .replyMessageToDart 2 none none 96 ⟨7, 7, 0⟩ true]).get (by decide)
    Drains (step true) ReplyLeaks.Drains AllReclaimed (weight s) s :=
  everything_reclaimed true
    [.initializeChannel 0, .send 0 (some 64), .send 0 none,
      .replyMessageToDart 1 (some ⟨0, 4096, 16, by decide, by decide⟩) (some 64) 64 ⟨7, 7, 7⟩ true,
      .replyMessageToDart 2 none none 96 ⟨7, 7, 0⟩ true] (by decide) (Option.some_get _).symm

end Lp64

end NativeChannel.Reclaimed
