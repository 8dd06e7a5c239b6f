import NativeChannel.Proofs.ProcessInvariants

namespace NativeChannel.ReplyRouting
open Runs ConcurrentChannel Wrapper ProcessInvariants

/-- Everything on an isolate's reply port answers a request of that isolate, and
each completer was completed by the reply to its own request. -/
structure IsolateAtHome (a : Nat) (iso : Isolate) : Prop where
  posted : ∀ w ∈ iso.replyPort, w.tag.isolate = a
  completed : ∀ p ∈ iso.completed, p.2.tag = ⟨a, p.1⟩

/-- Nothing is known of the replies once a message was freed twice. -/
structure RepliesAtHome (s : Process) : Prop where
  defined : s.freedTwice = false
  isolates : ∀ a, IsolateAtHome a (s.isolates a)

/-- When a reply is submitted to native code, the isolate that sent the request
is the one that ran `InitializeChannel` last. -/
def AskerInitializedLast (s : Process) : Event → Prop
  | .handle k e _ =>
    match s.handlings[k]? with
    | some h => e.isNative = true → s.replyPort = some h.tag.isolate
    | none => True
  | _ => True

instance (s : Process) (e : Event) : Decidable (AskerInitializedLast s e) := by
  unfold AskerInitializedLast
  split
  · split
    · infer_instance
    · exact isTrue trivial
  · exact isTrue trivial

/-- Besides, the reply is not a second one to a request with a message. -/
def Addressed (s : Process) (e : Event) : Prop := AskerInitializedLast s e ∧ FreesOnce s e

instance (s : Process) (e : Event) : Decidable (Addressed s e) :=
  inferInstanceAs (Decidable (_ ∧ _))

theorem IsolateAtHome.congr {a : Nat} {iso iso' : Isolate} (h : IsolateAtHome a iso)
    (hp : iso'.replyPort = iso.replyPort) (hc : iso'.completed = iso.completed) :
    IsolateAtHome a iso' :=
  ⟨hp ▸ h.posted, hc ▸ h.completed⟩

theorem IsolateAtHome.deliver {a : Nat} {iso : Isolate} {w : Tagged MessageWrapper}
    (h : IsolateAtHome a iso) (hw : w.tag.isolate = a) :
    IsolateAtHome a (Isolate.deliver iso w) := by
  refine ⟨?_, h.completed⟩
  intro x hx
  rcases List.mem_append.mp hx with hm | hm
  · exact h.posted x hm
  · rw [List.mem_singleton.mp hm]
    exact hw

/-- `onReply` completes the completer of the wrapper's seq, and the wrapper stems
from the request of that seq. -/
theorem IsolateAtHome.onReply [Vm] {a : Nat} {iso : Isolate} {w : Tagged MessageWrapper}
    {rest : List (Tagged MessageWrapper)} (h : IsolateAtHome a iso)
    (hp : iso.replyPort = w :: rest) (hq : w.val.seq = w.tag.seq) :
    IsolateAtHome a ({ iso with replyPort := rest }.onReply w) := by
  have hw : w.tag.isolate = a := h.posted w (by simp [hp])
  have hrest : ∀ x ∈ rest, x.tag.isolate = a := fun x hx => h.posted x (by simp [hp, hx])
  unfold Isolate.onReply
  split
  · split
    · exact ⟨hrest, h.completed⟩
    · refine ⟨hrest, ?_⟩
      intro p hm
      rcases List.mem_append.mp hm with hm | hm
      · exact h.completed p hm
      · rw [List.mem_singleton.mp hm]
        change w.tag = ⟨a, w.val.seq⟩
        rw [hq, ← hw]
  · exact ⟨hrest, h.completed⟩

theorem touches_addressed {s : Process} {e : Event} {a : Nat} (he : e.Touches a) :
    Addressed s e := by
  cases e <;> first | exact ⟨trivial, trivial⟩ | cases he

theorem scheduling_addressed {s : Process} {e : Event}
    {f : WorkerPool.Event (Tagged TaskMessageWrapper)} (he : e.scheduling = some f) :
    Addressed s e := by
  cases e <;> first | exact ⟨trivial, trivial⟩ | cases he

section Steps
variable [Vm]

/-- Only posting a reply can bring it to a strange port, and it does exactly when
another isolate initialised the channel in the meantime. -/
theorem step_atHome {s t : Process} {e : Event} (hj : Traced s ∧ LazyInit s)
    (hs : RepliesAtHome s) (h : step s e = some t) : RepliesAtHome t ↔ Addressed s e := by
  obtain ⟨_, hm⟩ := step_moves h
  cases hm with
  | newSynchronous => exact iff_of_true hs ⟨trivial, trivial⟩
  | withMessenger => exact iff_of_true hs ⟨trivial, trivial⟩
  | touched he => exact iff_of_true hs (touches_addressed he)
  | @construct a n e pool he =>
    refine iff_of_true ⟨hs.defined, ?_⟩ (touches_addressed he)
    exact forall_update hs.isolates ((hs.isolates a).congr rfl rfl)
  | @send a =>
    refine iff_of_true ⟨hs.defined, ?_⟩ ⟨trivial, trivial⟩
    exact forall_update hs.isolates ((hs.isolates a).congr rfl rfl)
  | sendSynchronous =>
    refine iff_of_true ⟨?_, ?_⟩ ⟨trivial, trivial⟩
    · rw [registerFinalizer_freedTwice]
      exact hs.defined
    · rw [registerFinalizer_isolates]
      exact hs.isolates
  | schedule he => exact iff_of_true ⟨hs.defined, hs.isolates⟩ (scheduling_addressed he)
  | call => exact iff_of_true ⟨hs.defined, hs.isolates⟩ ⟨trivial, trivial⟩
  | @handle k e fresh hd request hk hr hq =>
    refine iff_of_true ⟨hs.defined, hs.isolates⟩ ?_
    simp [Addressed, AskerInitializedLast, FreesOnce, hk, hq]
  | @reply k e fresh hd request r hk hr hn =>
    have hport : s.replyPort.isSome = true := hj.2.port.trans (apiDL_of_handling hj.2 hk)
    obtain ⟨a, ha⟩ := Option.isSome_iff_exists.mp hport
    have hcond : Addressed s (.handle k e fresh) ↔
        a = hd.tag.isolate ∧ hd.freesAgain = false := by
      simp [Addressed, AskerInitializedLast, FreesOnce, hk, hn, ha]
    have hfreed : (((s.setHandling k { hd with request }).freeMessage hd).post
        ⟨hd.tag, fresh.fill hd.request.seq r⟩).freedTwice = hd.freesAgain := by
      rw [post_freedTwice, Process.freeMessage, setHandling_freedTwice, hs.defined, Bool.false_or]
    rw [hcond]
    constructor
    · intro ht
      refine ⟨?_, hfreed.symm.trans ht.defined⟩
      have hposted := (ht.isolates a).posted ⟨hd.tag, fresh.fill hd.request.seq r⟩
      rw [post_isolates _ (by simpa using ha), Function.update_self] at hposted
      exact (hposted (List.mem_append_right _ List.mem_cons_self)).symm
    · intro hc
      refine ⟨hfreed.trans hc.2, forall_post (P := IsolateAtHome) hs.isolates ?_⟩
      intro b hb
      have hab : a = b := Option.some.inj (ha.symm.trans (by simpa using hb))
      exact (hs.isolates b).deliver (by rw [← hab, hc.1])
  | @onReply a w rest hp =>
    refine iff_of_true ⟨?_, ?_⟩ ⟨trivial, trivial⟩
    · rw [registerFinalizer_freedTwice]
      exact hs.defined
    · rw [registerFinalizer_isolates]
      have hback := (hs.isolates a).onReply hp (hj.1.posted a w (by simp [hp]))
      exact forall_update hs.isolates hback

theorem atHome_exact : Exact step (fun s => Traced s ∧ LazyInit s) RepliesAtHome Addressed where
  keeps _ _ _ hs h := ⟨step_traced hs.1 h, step_lazyInit hs.2 h⟩
  meets _ _ _ hj hs h := step_atHome hj hs h

/-- Along a run every reply reaches the isolate that asked, and its own completer
there, exactly when each is submitted while that isolate was the last to
initialise the channel, and to a request whose message was not freed before. -/
theorem replies_at_home_iff (es : List Event) (hr : (run step Process.initial es).isSome) :
    Along step RepliesAtHome Process.initial es ↔ AllSteps step Addressed Process.initial es := by
  obtain ⟨t, ht⟩ := Option.isSome_iff_exists.mp hr
  refine atHome_exact.along_iff ⟨initial_traced, initial_lazyInit⟩ ⟨rfl, ?_⟩ ht
  intro a
  exact ⟨nofun, nofun⟩

end Steps

attribute [local instance] Vm.lp64

/-- Two isolates that take turns, the first with a request to no handler. -/
theorem replies_at_home_two_isolates :
    Along step RepliesAtHome Process.initial
      [.instance_ 0 2, .send 0 9 none 0, .notifyOne none, .test 0, .frontPop 0, .call 0 .absent,
        .handle 0 .replyNull ⟨0, 0, 0⟩, .instance_ 1 2, .send 1 9 (some [7]) 4096,
        .notifyOne none, .test 1, .frontPop 1, .call 1 .binary,
        .handle 1 (.reply true (some ⟨8192, 3, by decide, by decide⟩)) ⟨0, 0, 0⟩, .onReply 0,
        .handle 1 .native ⟨0, 0, 0⟩, .onReply 1] :=
  (replies_at_home_iff _ (by decide)).mpr (by decide)

/-- Isolate 1 initialises the channel while the request of isolate 0 is in the
queue. The reply completes the completer that isolate 1 has under the same seq. -/
theorem reply_to_other_isolate :
    ∃ s, run step Process.initial
        [.instance_ 0 2, .send 0 9 none 0, .instance_ 1 2, .send 1 9 none 0, .notifyOne none,
          .test 0, .frontPop 0, .call 0 .binary,
          .handle 0 (.reply true (some ⟨4096, 3, by decide, by decide⟩)) ⟨0, 0, 0⟩,
          .handle 0 .native ⟨0, 0, 0⟩, .onReply 1] = some s ∧
      s.freedTwice = false ∧ (s.isolates 1).completed = [(1, ⟨⟨0, 1⟩, ⟨1, 3, 4096⟩⟩)] ∧
      ¬ RepliesAtHome s := by
  refine ⟨_, rfl, by decide, by decide, fun h => ?_⟩
  have hc := (h.isolates 1).completed (1, ⟨⟨0, 1⟩, ⟨1, 3, 4096⟩⟩) (by decide)
  exact absurd hc (by decide)

end NativeChannel.ReplyRouting
