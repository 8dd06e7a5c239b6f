import Mathlib.Data.List.Forall2
import NativeChannel.Proofs.PayloadPlaces
import NativeChannel.Proofs.Reclaimed

namespace NativeChannel.WrappersByValue
open Runs Counts ProcessInvariants
open ConcurrentChannel (Handling Tagged)
open Finalizer (JavaBuffer)
open PayloadPlaces (tasks)
open Reclaimed (FreesMessages)
open ReplyOwnership (Formed port)
open ReplyResources (Allocated)
open Wrapper (DirectByteBuffer MessageWrapper Vm)

/-- The concurrent channel, whose messages to Dart are wrappers by value, and beside it what
these wrappers are: blocks that Dart is sent pointers to, allocated where the copies of
messages were. -/
structure Process where
  channel : ConcurrentChannel.Process
  resources : ReplyResources.Process

/-- `memory` is the allocation that Java has a reply in, and `ret` what `new` returns. -/
inductive Event where
  | channel (e : ConcurrentChannel.Event) (memory ret : Nat)
  | dartFinalizer (k : Nat)

def Process.initial : Process := ⟨ConcurrentChannel.Process.initial, ReplyResources.Process.initial⟩

/-- What a step of the channel does to the blocks. -/
def onWrappers (s : ConcurrentChannel.Process) (e : ConcurrentChannel.Event) (memory ret : Nat) :
    List ReplyResources.Event :=
  match e with
  | .newConcurrentMethodChannel a messenger _ =>
    if messenger || (s.isolates a).constructed then [] else [.initializeChannel a]
  | .instance_ a _ => if (s.isolates a).constructed then [] else [.initializeChannel a]
  | .send a _ message allocated => [.send a (message.map fun _ => allocated)]
  | .handle k e fresh => (s.replies (.handle k e fresh)).map fun c =>
      .replyMessageToDart c.replyId (c.reply.map (JavaBuffer.mk memory)) c.message ret fresh true
  | .onReply a => [.onReply a]
  | _ => []

/-- The pointer leads to the wrapper. -/
def LeadsTo (wrappers : AList fun _ : Nat => Allocated) (ptr : Nat) (w : Tagged MessageWrapper) :
    Prop :=
  ∃ x, wrappers.lookup ptr = some x ∧ x.wrapper = w.val

/-- Isolates are the same in both, up to what the pointers on their ports lead to. -/
structure SameIsolates (s : Process) : Prop where
  replyPort : s.resources.replyPort = s.channel.replyPort
  seq : ∀ a, (s.resources.isolates a).seq = (s.channel.isolates a).seq
  keys : ∀ a, (s.resources.isolates a).resultCompleters = (s.channel.isolates a).resultCompleters
  ports : ∀ a, List.Forall₂ (LeadsTo s.resources.wrappers) (port s.resources a)
    (s.channel.isolates a).replyPort

/-- The allocator gives out a block that nobody has, and a reply lies where no other does. -/
def Placed (s : Process) (ret : Nat) : ConcurrentChannel.Event → Prop
  | .send _ _ message allocated =>
    message.isSome = true → s.resources.allocatable allocated = true
  | .handle k e fresh => ∀ c ∈ s.channel.replies (.handle k e fresh),
      (s.resources.freeMessage c.message).allocatable ret = true ∧
        ∀ b ∈ c.reply, s.resources.vacant b.address = true
  | _ => True

/-- The pointer that a request frees with its reply. -/
def Handling.pointer (h : Handling) : Option Nat :=
  if h.request.calls.isEmpty then h.request.message else none

/-- The pointers that the first replies to come will free. -/
def pointers (c : ConcurrentChannel.Process) : List Nat :=
  (tasks c.pool).map (fun task => task.val.message.data) ++ c.handlings.filterMap Handling.pointer

/-- Each is null or the block of a message, which no other frees. -/
structure Pending (s : Process) : Prop where
  there : ∀ p ∈ pointers s.channel, p = 0 ∨ p ∈ s.resources.messages
  once : ((pointers s.channel).filter (· ≠ 0)).Nodup

structure Matches (s : Process) : Prop where
  lazy : LazyInit s.channel
  formed : Formed s.resources
  defined : s.resources.undefined = false
  same : SameIsolates s
  pending : Pending s

theorem initial_matches : Matches Process.initial where
  lazy := initial_lazyInit
  formed := ReplyOwnership.initial_formed
  defined := rfl
  same := ⟨rfl, fun _ => rfl, fun _ => rfl, fun _ => .nil⟩
  pending := ⟨nofun, List.nodup_nil⟩

section Vm
variable [Vm]

/-- A step that both descriptions can take, or a finalizer. -/
def step (asserts : Bool) (s : Process) : Event → Option Process
  | .channel e memory ret =>
    (ConcurrentChannel.step s.channel e).bind fun channel =>
      (run (ReplyResources.step asserts) s.resources (onWrappers s.channel e memory ret)).map
        fun r => ⟨channel, r⟩
  | .dartFinalizer k =>
    (ReplyResources.step asserts s.resources (.dartFinalizer k)).map fun r =>
      { s with resources := r }

/-- Whatever the channel does next without freeing a message again can be done with the
blocks. -/
def Followed (asserts : Bool) (s : Process) : Prop :=
  ∀ e memory ret channel, ConcurrentChannel.step s.channel e = some channel →
    channel.freedTwice = false → Placed s ret e →
      ∃ r, step asserts s (.channel e memory ret) = some ⟨channel, r⟩

end Vm

section Pending
variable {s : Process} {c : ConcurrentChannel.Process} {r : ReplyResources.Process}

theorem Pending.of_perm (hs : Pending s) (hp : (pointers c).Perm (pointers s.channel))
    (hm : r.messages = s.resources.messages) : Pending ⟨c, r⟩ := by
  refine ⟨?_, ?_⟩
  · intro p hin
    rw [hm]
    exact hs.there p (hp.mem_iff.mp hin)
  · exact ((hp.filter _).nodup_iff).mpr hs.once

/-- Nothing changes in the requests, and the tasks only in their order. -/
theorem Pending.of_tasks (hs : Pending s) (ht : (tasks c.pool).Perm (tasks s.channel.pool))
    (hh : c.handlings = s.channel.handlings) (hm : r.messages = s.resources.messages) :
    Pending ⟨c, r⟩ := by
  refine hs.of_perm ?_ hm
  unfold pointers
  rw [hh]
  exact (ht.map _).append_right _

/-- The pointer of a new message. -/
theorem send_pending {a : Nat} {tag : ConcurrentChannel.Tag} {channel seq : Int}
    {message : Option (List UInt8)} {allocated : Nat} (hs : Pending s)
    (hc : c.handlings = s.channel.handlings)
    (ht : (tasks c.pool).Perm
      (⟨tag, ConcurrentChannel.sendTask channel seq message allocated⟩ :: tasks s.channel.pool))
    (hplaced : message.isSome = true → s.resources.allocatable allocated = true) :
    Pending ⟨c, s.resources.send a (message.map fun _ => allocated)⟩ := by
  have hp : (pointers c).Perm
      ((ConcurrentChannel.sendTask channel seq message allocated).message.data ::
        pointers s.channel) := by
    unfold pointers
    rw [hc]
    exact (ht.map _).append_right _
  cases message with
  | none =>
    refine ⟨?_, ?_⟩
    · intro p hin
      rcases List.mem_cons.mp (hp.mem_iff.mp hin) with hzero | hin
      · exact Or.inl hzero
      · exact hs.there p hin
    · refine ((hp.filter _).nodup_iff).mpr ?_
      exact hs.once
  | some bytes =>
    obtain ⟨hzero, hmessages, _⟩ := of_decide_eq_true (hplaced rfl)
    refine ⟨?_, ?_⟩
    · intro p hin
      rcases List.mem_cons.mp (hp.mem_iff.mp hin) with rfl | hin
      · exact Or.inr (Finset.mem_insert_self ..)
      · exact (hs.there p hin).imp_right Finset.mem_insert_of_mem
    · refine ((hp.filter _).nodup_iff).mpr ?_
      have hfilter : List.filter (· ≠ 0) (allocated :: pointers s.channel) =
          allocated :: (pointers s.channel).filter (· ≠ 0) :=
        List.filter_cons_of_pos (by simpa using hzero)
      change (List.filter (· ≠ 0) (allocated :: pointers s.channel)).Nodup
      rw [hfilter, List.nodup_cons]
      refine ⟨?_, hs.once⟩
      intro hin
      rcases hs.there allocated (List.mem_of_mem_filter hin) with h | h
      · exact hzero h
      · exact hmessages h

/-- A request that frees no message again frees one that is there. -/
theorem Pending.frees (hs : Pending s) {k : Nat} {h : Handling}
    (hk : s.channel.handlings[k]? = some h) (hf : h.freesAgain = false) :
    s.resources.Frees h.request.message := by
  intro p hp
  cases hc : h.request.calls.isEmpty with
  | true =>
    refine hs.there p (List.mem_append.mpr (Or.inr (List.mem_filterMap.mpr ⟨h, mem_of_at hk, ?_⟩)))
    rw [Handling.pointer, if_pos hc]
    exact hp
  | false =>
    rw [Option.mem_def] at hp
    simp only [Handling.freesAgain, hp, hc, Option.any_some, Bool.not_false, Bool.and_true,
      bne_eq_false_iff_eq] at hf
    exact Or.inl hf

/-- Its pointer is gone with the message. -/
theorem reply_pending {k : Nat} {h : Handling}
    (request : ConcurrentMessenger.Request DirectByteBuffer) (hs : Pending s)
    (hk : s.channel.handlings[k]? = some h) (hf : h.freesAgain = false)
    (hcalls : request.calls ≠ []) (hpool : c.pool = s.channel.pool)
    (hh : c.handlings = s.channel.handlings.set k { h with request })
    (hm : r.messages = (s.resources.freeMessage h.request.message).messages) :
    Pending ⟨c, r⟩ := by
  have hset := filterMap_set_perm Handling.pointer { h with request } hk
  have hafter : Handling.pointer { h with request } = none := by
    rw [Handling.pointer, if_neg]
    exact fun hc => hcalls (List.isEmpty_iff.mp hc)
  rw [hafter, Option.toList_none, List.append_nil] at hset
  have hp : (pointers c ++ (Handling.pointer h).toList).Perm (pointers s.channel) := by
    unfold pointers
    rw [hh, hpool, List.append_assoc]
    exact hset.append_left _
  have honce := ((hp.filter (· ≠ 0)).nodup_iff).mpr hs.once
  rw [List.filter_append] at honce
  refine ⟨?_, (List.nodup_append.mp honce).1⟩
  intro p hin
  by_cases hzero : p = 0
  · exact Or.inl hzero
  · refine Or.inr ?_
    have hthere := (hs.there p (hp.mem_iff.mp (List.mem_append_left _ hin))).resolve_left hzero
    rw [hm]
    unfold ReplyResources.Process.freeMessage
    cases hmessage : h.request.message with
    | none => exact hthere
    | some q =>
      refine Finset.mem_erase.mpr ⟨?_, hthere⟩
      rintro rfl
      cases hc : h.request.calls.isEmpty with
      | true =>
        have hpointer : Handling.pointer h = some p := by
          rw [Handling.pointer, if_pos hc, hmessage]
        rw [hpointer] at honce
        have hfirst : p ∈ (pointers c).filter (· ≠ 0) :=
          List.mem_filter.mpr ⟨hin, by simpa using hzero⟩
        have hsecond : p ∈ List.filter (· ≠ 0) (some p).toList :=
          List.mem_filter.mpr ⟨List.mem_singleton_self p, by simpa using hzero⟩
        exact (List.nodup_append.mp honce).2.2 p hfirst p hsecond rfl
      | false =>
        simp only [Handling.freesAgain, hmessage, hc, Option.any_some, Bool.not_false,
          Bool.and_true, bne_eq_false_iff_eq] at hf
        exact hzero hf

end Pending

section Same
variable {s : Process} {c : ConcurrentChannel.Process}

/-- One isolate changes, alike in both. -/
theorem SameIsolates.update {r : ReplyResources.Process} {a : Nat}
    {iso : ConcurrentChannel.Isolate} {iso' : ReplyResources.Isolate} (hs : SameIsolates s)
    (hport : r.replyPort = c.replyPort)
    (hc : c.isolates = Function.update s.channel.isolates a iso)
    (hr : r.isolates = Function.update s.resources.isolates a iso')
    (hseq : iso'.seq = iso.seq) (hkeys : iso'.resultCompleters = iso.resultCompleters)
    (hown : List.Forall₂ (LeadsTo r.wrappers) iso'.replyPort iso.replyPort)
    (hother : ∀ b, b ≠ a → List.Forall₂ (LeadsTo r.wrappers) (port s.resources b)
      (s.channel.isolates b).replyPort) : SameIsolates ⟨c, r⟩ := by
  refine ⟨hport, ?_, ?_, ?_⟩
  · intro b
    by_cases hb : b = a
    · subst b
      simpa [hc, hr] using hseq
    · simpa [hc, hr, hb] using hs.seq b
  · intro b
    by_cases hb : b = a
    · subst b
      simpa [hc, hr] using hkeys
    · simpa [hc, hr, hb] using hs.keys b
  · intro b
    by_cases hb : b = a
    · subst b
      simpa [port, hc, hr] using hown
    · simpa [port, hc, hr, hb] using hother b hb

/-- The isolates stay as they are. -/
theorem SameIsolates.of_same {r : ReplyResources.Process} (hs : SameIsolates s)
    (hport : r.replyPort = c.replyPort) (hc : c.isolates = s.channel.isolates)
    (hr : r.isolates = s.resources.isolates) (hw : r.wrappers = s.resources.wrappers) :
    SameIsolates ⟨c, r⟩ := by
  refine ⟨hport, ?_, ?_, ?_⟩
  · intro a
    simpa [hc, hr] using hs.seq a
  · intro a
    simpa [hc, hr] using hs.keys a
  · intro a
    simpa [port, hc, hr, hw] using hs.ports a

/-- A pointer leads to the same wrapper where that is still the one there. -/
theorem leadsTo_of {wrappers wrappers' : AList fun _ : Nat => Allocated} {ps : List Nat}
    {ws : List (Tagged MessageWrapper)} (h : List.Forall₂ (LeadsTo wrappers) ps ws)
    (hp : ∀ p ∈ ps, wrappers'.lookup p = wrappers.lookup p) :
    List.Forall₂ (LeadsTo wrappers') ps ws := by
  induction h with
  | nil => exact .nil
  | cons hfirst _ ih =>
    obtain ⟨x, hx, hrest⟩ := hfirst
    obtain ⟨hp, hps⟩ := List.forall_mem_cons.mp hp
    exact .cons ⟨x, hp.trans hx, hrest⟩ (ih hps)

/-- A reply fills a new wrapper, and its pointer joins the port. -/
theorem reply_same {k : Nat} {h : Handling} (fresh : MessageWrapper)
    (request : ConcurrentMessenger.Request DirectByteBuffer) (hs : Matches s)
    (at_ : s.channel.handlings[k]? = some h) (r : Option DirectByteBuffer) (memory : Nat)
    {ret : Nat} (hnew : ret ∉ s.resources.wrappers) :
    ∃ a, s.resources.replyPort = some a ∧
      SameIsolates ⟨((s.channel.setHandling k { h with request }).freeMessage h).post
          ⟨h.tag, fresh.fill h.request.seq r⟩,
        (s.resources.freeMessage h.request.message).replyMessageToDart a h.request.seq
          (r.map (JavaBuffer.mk memory)) ret fresh true⟩ := by
  have hset : s.channel.replyPort.isSome = true :=
    hs.lazy.port.trans (apiDL_of_handling hs.lazy at_)
  obtain ⟨a, ha⟩ := Option.isSome_iff_exists.mp hset
  let u := s.resources.freeMessage h.request.message
  let reply := r.map (JavaBuffer.mk memory)
  let x := ReplyOwnership.outgoing u h.request.seq fresh reply
  have hreplied : u.replyMessageToDart a h.request.seq reply ret fresh true =
      (u.wrap h.request.seq ret fresh reply).post a ret := rfl
  have hwrap := ReplyOwnership.wrap_eq (s := u) h.request.seq ret fresh reply
  have hvalue : x.wrapper = fresh.fill h.request.seq r := by
    cases r <;> rfl
  have hmore : ∀ b, List.Forall₂ (LeadsTo (u.wrappers.insert ret x)) (port s.resources b)
      (s.channel.isolates b).replyPort := by
    intro b
    refine leadsTo_of (hs.same.ports b) ?_
    intro p hp
    exact AList.lookup_insert_ne fun he => hs.formed.not_ported hnew b (he ▸ hp)
  refine ⟨a, hs.same.replyPort.trans ha, ?_⟩
  change SameIsolates ⟨_, u.replyMessageToDart a h.request.seq reply ret fresh true⟩
  rw [hreplied, hwrap]
  refine hs.same.update (a := a) ?_ (ConcurrentChannel.post_isolates _ ha) rfl ?_ ?_ ?_ ?_
  · rw [ConcurrentChannel.post_replyPort]
    exact hs.same.replyPort
  · exact hs.same.seq a
  · exact hs.same.keys a
  · exact List.rel_append (hmore a) (.cons ⟨x, AList.lookup_insert u.wrappers, hvalue⟩ .nil)
  · exact fun b _ => hmore b

end Same

section OnReply
variable [Vm] {s : Process}

/-- `onReply` past its assert and `asTypedList`, on a pointer just taken from the port. -/
theorem onReply_fields {r : ReplyResources.Process} (a ptr : Nat) (ps : List Nat) (x : Allocated) :
    ((r.received a ps).onReply a ptr x).replyPort = r.replyPort ∧
      ((r.received a ps).onReply a ptr x).isolates = Function.update r.isolates a
        ⟨(r.isolates a).seq, (r.isolates a).resultCompleters.erase x.wrapper.seq, ps⟩ := by
  rw [ReplyOwnership.onReply_eq]
  simp [ReplyResources.Process.received, ReplyResources.Process.setIsolate]

/-- The completers that `onReply` leaves by value. -/
theorem onReply_keys {iso : ConcurrentChannel.Isolate} {w : Tagged MessageWrapper} :
    (iso.onReply w).resultCompleters =
      if w.val.throws then iso.resultCompleters else iso.resultCompleters.erase w.val.seq := by
  unfold ConcurrentChannel.Isolate.onReply
  by_cases hin : w.val.seq ∈ iso.resultCompleters
  · rw [if_pos hin]
    split <;> rfl
  · rw [if_neg hin, Finset.erase_eq_of_notMem hin, ite_self]

variable (asserts : Bool) in
/-- `onReply` finds the wrapper behind the pointer, and frees it if it gets there. -/
theorem onReply_same {a : Nat} {w : Tagged MessageWrapper} {rest : List (Tagged MessageWrapper)}
    (hs : Matches s) (hp : (s.channel.isolates a).replyPort = w :: rest) :
    ∃ r, ReplyResources.step asserts s.resources (.onReply a) = some r ∧
      r.messages = s.resources.messages ∧
      SameIsolates ⟨(s.channel.setIsolate a
        ({ s.channel.isolates a with replyPort := rest }.onReply w)).registerFinalizer
          w.val.built, r⟩ := by
  have hports := hs.same.ports a
  rw [hp] at hports
  obtain ⟨ptr, ps, hfirst, hrest, hport⟩ := List.forall₂_cons_right_iff.mp hports
  obtain ⟨x, hx, hvalue⟩ := hfirst
  have hport : (s.resources.isolates a).replyPort = ptr :: ps := hport
  let iso := { s.channel.isolates a with replyPort := rest }.onReply w
  let c := (s.channel.setIsolate a iso).registerFinalizer w.val.built
  have hc : c.isolates = Function.update s.channel.isolates a iso :=
    ConcurrentChannel.registerFinalizer_isolates _ _
  have hcport : c.replyPort = s.channel.replyPort :=
    ConcurrentChannel.registerFinalizer_replyPort _ _
  obtain ⟨_, hisoport, hisoseq⟩ :=
    ConcurrentChannel.onReply_fields { s.channel.isolates a with replyPort := rest } w
  have hkeys : iso.resultCompleters = if x.wrapper.throws then
      (s.resources.isolates a).resultCompleters else
        (s.resources.isolates a).resultCompleters.erase x.wrapper.seq := by
    rw [hs.same.keys a, hvalue]
    exact onReply_keys
  by_cases hpasses : s.resources.Passes asserts a x
  · obtain ⟨hrport, hr⟩ := onReply_fields (r := s.resources) a ptr ps x
    have hnodup := hs.formed.nodup a
    have hout : ptr ∉ ps := (List.nodup_cons.mp (hport ▸ hnodup : (ptr :: ps).Nodup)).1
    refine ⟨(s.resources.received a ps).onReply a ptr x, ?_, ?_, ?_⟩
    · simp [ReplyResources.step, hs.defined, hport, hx, hpasses]
    · rw [ReplyOwnership.onReply_messages]
      rfl
    · refine hs.same.update (a := a) (hrport.trans (hs.same.replyPort.trans hcport.symm)) hc hr
        ?_ ?_ ?_ ?_
      · exact (hs.same.seq a).trans hisoseq.symm
      · rw [hkeys, hpasses.2]
        rfl
      · rw [hisoport, ReplyOwnership.onReply_wrappers]
        refine leadsTo_of hrest ?_
        intro p hp
        exact AList.lookup_erase_ne fun he => hout (he ▸ hp)
      · intro b hb
        rw [ReplyOwnership.onReply_wrappers]
        refine leadsTo_of (hs.same.ports b) ?_
        intro p hp
        apply AList.lookup_erase_ne
        intro he
        exact hb (hs.formed.single b a p hp (by simp [port, hport, he]))
  · -- the assert or `asTypedList` stops `onReply` before it frees the wrapper
    refine ⟨s.resources.received a ps, ?_, rfl, ?_⟩
    · simp [ReplyResources.step, hs.defined, hport, hx, hpasses]
    · refine hs.same.update (a := a) (hs.same.replyPort.trans hcport.symm) hc rfl ?_ ?_ ?_ ?_
      · exact (hs.same.seq a).trans hisoseq.symm
      · rw [hkeys]
        split
        · rfl
        · rename_i hthrows
          refine (Finset.erase_eq_of_notMem ?_).symm
          intro hin
          exact hpasses ⟨fun _ => hin, by simpa using hthrows⟩
      · exact hisoport ▸ hrest
      · exact fun b _ => hs.same.ports b

end OnReply

section Events
variable {s : Process}

theorem onWrappers_touches {e : ConcurrentChannel.Event} {a : Nat} (he : e.Touches a)
    (memory ret : Nat) : onWrappers s.channel e memory ret =
      if (s.channel.isolates a).constructed then [] else [.initializeChannel a] := by
  cases e with
  | newConcurrentMethodChannel b messenger hw =>
    obtain ⟨rfl, rfl⟩ := he
    simp [onWrappers]
  | instance_ b hw =>
    cases he
    rfl
  | _ => cases he

theorem onWrappers_scheduling {e : ConcurrentChannel.Event}
    {f : WorkerPool.Event (Tagged ConcurrentChannel.TaskMessageWrapper)}
    (he : e.scheduling = some f) (memory ret : Nat) : onWrappers s.channel e memory ret = [] := by
  cases e <;> first | rfl | cases he

end Events

section Together
variable [Vm] {asserts : Bool} {s t : Process} {c : ConcurrentChannel.Process}

/-- The pointer that a reply frees is one that is pending. -/
theorem onWrappers_frees {e : ConcurrentChannel.Event} (hs : Matches s)
    (hm : ConcurrentChannel.Moves s.channel e c) (hfree : c.freedTwice = false)
    (memory ret : Nat) :
    AllSteps (ReplyResources.step asserts) FreesMessages s.resources
      (onWrappers s.channel e memory ret) := by
  cases hm with
  | newSynchronous => trivial
  | withMessenger => trivial
  | touched he hdone =>
    rw [onWrappers_touches he, if_pos hdone]
    trivial
  | construct he hfirst _ =>
    rw [onWrappers_touches he, hfirst]
    exact ⟨trivial, fun _ _ => trivial⟩
  | send => exact ⟨trivial, fun _ _ => trivial⟩
  | sendSynchronous => trivial
  | schedule he _ =>
    rw [onWrappers_scheduling he]
    trivial
  | call => trivial
  | @handle k _ fresh h request at_ moves _ calls =>
    rw [onWrappers, ConcurrentChannel.replies_handle [] fresh at_ moves (by simpa using calls)]
    trivial
  | @reply k _ fresh h request r at_ moves _ calls =>
    rw [onWrappers, ConcurrentChannel.replies_handle _ fresh at_ moves calls]
    rw [ConcurrentChannel.post_freedTwice] at hfree
    exact ⟨hs.pending.frees at_ (Bool.or_eq_false_iff.mp hfree).2, fun _ _ => trivial⟩
  | onReply => exact ⟨trivial, fun _ _ => trivial⟩

variable (asserts) in
/-- One step of the channel, and what it does to the blocks. -/
theorem moves_same {e : ConcurrentChannel.Event} (hs : Matches s)
    (hm : ConcurrentChannel.Moves s.channel e c) (hfree : c.freedTwice = false)
    (memory : Nat) {ret : Nat} (hplaced : Placed s ret e) :
    ∃ r, run (ReplyResources.step asserts) s.resources (onWrappers s.channel e memory ret) =
      some r ∧ SameIsolates ⟨c, r⟩ ∧ Pending ⟨c, r⟩ := by
  cases hm with
  | newSynchronous => exact ⟨s.resources, rfl, hs.same, hs.pending⟩
  | withMessenger => exact ⟨s.resources, rfl, hs.same, hs.pending⟩
  | touched he hdone =>
    refine ⟨s.resources, ?_, hs.same, hs.pending⟩
    rw [onWrappers_touches he, if_pos hdone]
    rfl
  | @construct a n _ pool he hfirst start =>
    refine ⟨{ s.resources with replyPort := some a }, ?_, ?_, ?_⟩
    · rw [onWrappers_touches he, hfirst]
      simp [ReplyResources.step, hs.defined]
    · exact hs.same.update (a := a) rfl rfl (Function.update_eq_self a _).symm (hs.same.seq a)
        (hs.same.keys a) (hs.same.ports a) fun b _ => hs.same.ports b
    · exact hs.pending.of_tasks (PayloadPlaces.start_unmoved start) rfl rfl
  | @send a channel message allocated pool _ push =>
    have hnew : (message.map fun _ => allocated).all s.resources.allocatable = true := by
      cases message with
      | none => rfl
      | some bytes => exact hplaced rfl
    refine ⟨s.resources.send a (message.map fun _ => allocated), ?_, ?_, ?_⟩
    · simp [onWrappers, ReplyResources.step, hs.defined, hnew]
    · refine hs.same.update (a := a) hs.same.replyPort rfl rfl ?_ ?_ (hs.same.ports a) fun b _ =>
        hs.same.ports b
      · simp [ReplyResources.Isolate.send, ConcurrentChannel.Isolate.send, hs.same.seq a]
      · simp [ReplyResources.Isolate.send, ConcurrentChannel.Isolate.send, hs.same.seq a,
          hs.same.keys a]
    · have htasks : (tasks pool).Perm (⟨⟨a, (s.channel.isolates a).seq⟩,
          ConcurrentChannel.sendTask channel (s.channel.isolates a).seq message allocated⟩ ::
            tasks s.channel.pool) := by
        cases (WorkerPool.step_moves push).2
        exact PayloadPlaces.push_tasks _
      exact send_pending hs.pending rfl htasks hplaced
  | sendSynchronous a result fresh =>
    refine ⟨s.resources, rfl, ?_, ?_⟩
    · exact hs.same.of_same (by simpa using hs.same.replyPort) (by simp) rfl rfl
    · have hun := PayloadPlaces.registerFinalizer_unmoved s.channel (fresh.fill result).built
      exact hs.pending.of_tasks hun.tasks hun.handlings rfl
  | schedule he moves =>
    refine ⟨s.resources, ?_, hs.same.of_same hs.same.replyPort rfl rfl rfl,
      hs.pending.of_tasks (PayloadPlaces.scheduling_unmoved he moves) rfl rfl⟩
    rw [onWrappers_scheduling he]
    rfl
  | @call i handler task pool held moves =>
    refine ⟨s.resources, rfl, hs.same.of_same hs.same.replyPort rfl rfl rfl, ?_⟩
    have htasks : (task :: tasks pool).Perm (tasks s.channel.pool) := by
      cases (WorkerPool.step_moves moves).2 with
      | @call _ task' at_ =>
        rw [held] at at_
        cases at_
        exact PayloadPlaces.call_tasks held
    refine hs.pending.of_perm ?_ rfl
    unfold pointers
    rw [List.filterMap_append, ← List.append_assoc]
    refine List.perm_append_comm.trans ?_
    rw [← List.append_assoc]
    exact (htasks.map fun task => task.val.message.data).append_right _
  | @handle k _ fresh h request at_ moves _ calls =>
    refine ⟨s.resources, ?_, hs.same.of_same hs.same.replyPort rfl rfl rfl, ?_⟩
    · rw [onWrappers, ConcurrentChannel.replies_handle [] fresh at_ moves (by simpa using calls)]
      rfl
    · refine hs.pending.of_perm ?_ rfl
      have hset := filterMap_set_perm Handling.pointer { h with request } at_
      have hkeeps : Handling.pointer { h with request } = Handling.pointer h := by
        simp only [Handling.pointer, calls, (ConcurrentMessenger.step_calls moves).2.1]
      rw [hkeeps] at hset
      exact ((List.perm_append_right_iff _).mp hset).append_left _
  | @reply k _ fresh h request r at_ moves _ calls =>
    have hnew := ConcurrentChannel.replies_handle _ fresh at_ moves calls
    rw [ConcurrentChannel.post_freedTwice] at hfree
    have hfirst := (Bool.or_eq_false_iff.mp hfree).2
    have hfrees := hs.pending.frees at_ hfirst
    obtain ⟨hret, hvacant⟩ := hplaced _ (by rw [hnew]; exact List.mem_singleton_self _)
    obtain ⟨a, hport, hsame⟩ := reply_same fresh request hs at_ r memory
      (of_decide_eq_true hret).2.2
    refine ⟨_, ?_, hsame, ?_⟩
    · have hall : (r.map (JavaBuffer.mk memory)).all
          (fun b => s.resources.vacant b.buffer.address) = true := by
        cases r with
        | none => rfl
        | some b => exact hvacant b rfl
      have hall' : (r.map (JavaBuffer.mk memory)).all (fun b =>
          (s.resources.freeMessage h.request.message).vacant b.buffer.address) = true := hall
      simp [onWrappers, hnew, ReplyResources.step, hs.defined, hport, hfrees, hret, hall']
    · refine reply_pending request hs.pending at_ hfirst ?_ ?_ ?_ ?_
      · rw [calls]
        exact List.append_ne_nil_of_right_ne_nil _ (List.cons_ne_nil _ _)
      · rw [ConcurrentChannel.post_pool]
        rfl
      · rw [ConcurrentChannel.post_handlings]
        rfl
      · simp only [ReplyResources.Process.replyMessageToDart, if_true, ReplyOwnership.wrap_eq]
        rfl
  | @onReply a w rest hport =>
    obtain ⟨r, hr, hmessages, hsame⟩ := onReply_same asserts hs hport
    refine ⟨r, by simp [onWrappers, hr], hsame, ?_⟩
    have hun := PayloadPlaces.registerFinalizer_unmoved
      (s.channel.setIsolate a ({ s.channel.isolates a with replyPort := rest }.onReply w))
      w.val.built
    exact hs.pending.of_tasks hun.tasks hun.handlings hmessages

/-- The allocator saw to what a step that both took needed of it. -/
theorem placed_of_run {e : ConcurrentChannel.Event} {memory ret : Nat}
    {r : ReplyResources.Process} (hs : Matches s) (hm : ConcurrentChannel.Moves s.channel e c)
    (hfree : c.freedTwice = false)
    (hr : run (ReplyResources.step asserts) s.resources (onWrappers s.channel e memory ret) =
      some r) : Placed s ret e := by
  cases e with
  | send a channel message allocated =>
    intro hmessage
    obtain ⟨u, hu, -⟩ := Option.bind_eq_some_iff.mp hr
    cases (ReplyResources.step_moves hu).2 with
    | send new =>
      refine decide_eq_true (new allocated ?_)
      obtain ⟨bytes, rfl⟩ := Option.isSome_iff_exists.mp hmessage
      rfl
  | handle k e fresh =>
    cases hm with
    | touched he => cases he
    | construct he => cases he
    | schedule he => cases he
    | handle at_ moves _ calls =>
      intro d hd
      rw [ConcurrentChannel.replies_handle [] fresh at_ moves (by simpa using calls)] at hd
      cases hd
    | reply at_ moves _ calls =>
      have hnew := ConcurrentChannel.replies_handle _ fresh at_ moves calls
      rw [ConcurrentChannel.post_freedTwice] at hfree
      intro d hd
      rw [hnew, List.mem_singleton] at hd
      subst d
      rw [onWrappers, hnew] at hr
      obtain ⟨u, hu, -⟩ := Option.bind_eq_some_iff.mp hr
      cases (ReplyResources.step_moves hu).2 with
      | freesOther _ other =>
        exact absurd (hs.pending.frees at_ (Bool.or_eq_false_iff.mp hfree).2) other
      | reply _ _ new vacant =>
        refine ⟨decide_eq_true new, ?_⟩
        intro b hb
        rw [Option.mem_def] at hb
        refine List.all_eq_true.mpr ?_
        intro g hg
        simpa using vacant (JavaBuffer.mk memory b) (by rw [hb]; rfl) g hg
  | _ => trivial

theorem step_matches {e : Event} (hs : Matches s) (h : step asserts s e = some t)
    (hfree : t.channel.freedTwice = false) : Matches t := by
  cases e with
  | channel e memory ret =>
    obtain ⟨c, hc, hrest⟩ := Option.bind_eq_some_iff.mp h
    obtain ⟨r, hr, rfl⟩ := Option.map_eq_some_iff.mp hrest
    have hm := (ConcurrentChannel.step_moves hc).2
    obtain ⟨u, hu, hsame, hpending⟩ :=
      moves_same asserts hs hm hfree memory (placed_of_run hs hm hfree hr)
    obtain rfl : u = r := Option.some.inj (hu.symm.trans hr)
    obtain ⟨hformed, hdefined⟩ := run_invariant_when
      (J := fun r => Formed r ∧ r.undefined = false)
      (fun _ _ _ hf hc h => Reclaimed.step_formed hf.1 hc h) ⟨hs.formed, hs.defined⟩
      (onWrappers_frees hs hm hfree memory ret) hr
    exact ⟨step_lazyInit hs.lazy hc, hformed, hdefined, hsame, hpending⟩
  | dartFinalizer k =>
    obtain ⟨r, hr, rfl⟩ := Option.map_eq_some_iff.mp h
    obtain ⟨hformed, hdefined⟩ :=
      Reclaimed.step_formed (e := .dartFinalizer k) hs.formed trivial hr
    cases (ReplyResources.step_moves hr).2 with
    | dartFinalizer =>
      exact ⟨hs.lazy, hformed, hdefined, hs.same.of_same hs.same.replyPort rfl rfl rfl,
        hs.pending.of_tasks (List.Perm.refl _) rfl rfl⟩

/-- A message that was freed twice stays so. -/
theorem step_freedTwice {e : Event} (h : step asserts s e = some t)
    (hfree : t.channel.freedTwice = false) : s.channel.freedTwice = false := by
  cases e with
  | channel e memory ret =>
    obtain ⟨c, hc, -⟩ := Option.bind_eq_some_iff.mp h
    have hdefined := (ConcurrentChannel.step_moves hc).1
    exact (Bool.or_eq_false_iff.mp hdefined).2
  | dartFinalizer k =>
    obtain ⟨r, -, rfl⟩ := Option.map_eq_some_iff.mp h
    exact hfree

end Together

/-- In every run in which no message is freed twice, with replies that reach another isolate
and wrappers that `asTypedList` throws for: no block is freed or read that is not there, each
pointer on a port leads to the very wrapper that was posted, and whatever the channel does with
wrappers by value can be done with the pointers. -/
theorem wrappers_by_value [Vm] (asserts : Bool) (es : List Event) {s : Process}
    (hr : run (step asserts) Process.initial es = some s) (hfree : s.channel.freedTwice = false) :
    s.resources.undefined = false ∧ SameIsolates s ∧ Followed asserts s := by
  have hs : s.channel.freedTwice = false → Matches s :=
    run_invariant (J := fun s => s.channel.freedTwice = false → Matches s)
      (fun _ _ _ hs h hfree => step_matches (hs (step_freedTwice h hfree)) h hfree)
      (fun _ => initial_matches) hr
  have hs := hs hfree
  refine ⟨hs.defined, hs.same, ?_⟩
  intro e memory ret channel hc hfree hplaced
  have hm := (ConcurrentChannel.step_moves hc).2
  obtain ⟨r, hrun, -⟩ := moves_same asserts hs hm hfree memory hplaced
  exact ⟨r, by simp [step, hc, hrun]⟩

section Lp64
attribute [local instance] Vm.lp64

/-- Two isolates, where the second gets the reply to a message of the first, in the block that
was the message's. -/
theorem wrappers_by_value_reused_block :
    let s := (run (step true) Process.initial
      [.channel (.instance_ 0 2) 0 0, .channel (.send 0 9 (some [7]) 32) 0 0,
        .channel (.instance_ 1 2) 0 0, .channel (.notifyOne none) 0 0, .channel (.test 0) 0 0,
        .channel (.frontPop 0) 0 0, .channel (.call 0 .binary) 0 0,
        .channel (.handle 0 (.reply true (some ⟨64, 8, by decide, by decide⟩)) ⟨0, 0, 0⟩) 0 0,
        .channel (.handle 0 .native ⟨7, 7, 7⟩) 5 32]).get (by decide)
    s.resources.undefined = false ∧ SameIsolates s ∧ Followed true s :=
  wrappers_by_value true _ (Option.some_get _).symm (by decide)

end Lp64

end NativeChannel.WrappersByValue
