import NativeChannel.Proofs.Conservation

namespace NativeChannel.FuturesOnce
open Runs ConcurrentChannel ProcessInvariants
open Conservation (Completers)
open Wrapper (MessageWrapper Vm)

/-- Every completed future got a wrapper with its own seq, that stems from a request with
this seq, of some isolate. -/
def CompletedTraced (iso : Isolate) : Prop :=
  ∀ p ∈ iso.completed, p.2.val.seq = p.1 ∧ p.2.tag.seq = p.1

/-- A future is open or completed, not both, and completed once. -/
structure Settled (iso : Isolate) : Prop where
  opened : ∀ q ∈ iso.resultCompleters, q < iso.seq
  closed : ∀ p ∈ iso.completed, p.1 < iso.seq ∧ p.1 ∉ iso.resultCompleters
  once : (iso.completed.map Prod.fst).Nodup
  traced : CompletedTraced iso

section Steps
variable [Vm] {s t : Process}

theorem onReply_completed {iso : Isolate} {w : Tagged MessageWrapper} (hi : CompletedTraced iso)
    (hw : w.val.seq = w.tag.seq) : CompletedTraced (iso.onReply w) := by
  unfold Isolate.onReply
  split
  · split
    · exact hi
    · intro p hp
      rcases List.mem_append.mp hp with hp | hp
      · exact hi p hp
      · rw [List.mem_singleton.mp hp]
        exact ⟨rfl, hw.symm⟩
  · exact hi

theorem step_completed {e : Event} (ht : Traced s) (hs : ∀ a, CompletedTraced (s.isolates a))
    (h : step s e = some t) : ∀ a, CompletedTraced (t.isolates a) := by
  obtain ⟨_, hm⟩ := step_moves h
  cases hm with
  | @construct a => exact forall_update (P := fun _ => CompletedTraced) hs (hs a)
  | @send a => exact forall_update (P := fun _ => CompletedTraced) hs (hs a)
  | sendSynchronous =>
    rw [registerFinalizer_isolates]
    exact hs
  | reply => exact forall_post (P := fun _ => CompletedTraced) hs fun b _ => hs b
  | @onReply a w rest hp =>
    rw [registerFinalizer_isolates]
    have hw : w.val.seq = w.tag.seq := ht.posted a w (by simp [hp])
    have hrest : CompletedTraced { s.isolates a with replyPort := rest } := hs a
    exact forall_update (P := fun _ => CompletedTraced) hs (onReply_completed hrest hw)
  | _ => exact hs

end Steps

/-- Whatever the handlers do, up to a second free of a message, and whichever isolate the
replies go to: no future is completed twice, or by a reply to a request of another seq. -/
theorem futures_once [Vm] (es : List Event) {s : Process}
    (hr : run step Process.initial es = some s) (a : Nat) : Settled (s.isolates a) := by
  have hs := run_invariant (J := fun s => Traced s ∧ (∀ b, Completers (s.isolates b)) ∧
      ∀ b, CompletedTraced (s.isolates b))
    (fun _ _ _ hs h => ⟨step_traced hs.1 h, Conservation.step_completers hs.2.1 h,
      step_completed hs.1 hs.2.2 h⟩)
    ⟨initial_traced, (Conservation.initial_kept a).completers, fun _ => nofun⟩ hr
  exact ⟨(hs.2.1 a).fresh, (hs.2.1 a).past, (hs.2.1 a).once, hs.2.2 a⟩

attribute [local instance] Vm.lp64

/-- Two isolates send with the same seq, and one of them gets both replies to the first
request, which has no message. -/
theorem futures_once_two_isolates :
    Settled (((run step Process.initial
      [.instance_ 0 2, .send 0 9 none 0, .instance_ 1 2, .send 1 9 none 0, .notifyOne none,
        .test 0, .frontPop 0, .call 0 .binary, .handle 0 (.reply true none) ⟨0, 0, 0⟩,
        .handle 0 .native ⟨0, 0, 0⟩, .handle 0 (.throws (.other none)) ⟨0, 0, 0⟩,
        .handle 0 .replyNull ⟨0, 0, 0⟩, .onReply 1, .onReply 1]).get (by decide)).isolates 1) :=
  futures_once [.instance_ 0 2, .send 0 9 none 0, .instance_ 1 2, .send 1 9 none 0,
    .notifyOne none, .test 0, .frontPop 0, .call 0 .binary, .handle 0 (.reply true none) ⟨0, 0, 0⟩,
    .handle 0 .native ⟨0, 0, 0⟩, .handle 0 (.throws (.other none)) ⟨0, 0, 0⟩,
    .handle 0 .replyNull ⟨0, 0, 0⟩, .onReply 1, .onReply 1] (Option.some_get _).symm 1

end NativeChannel.FuturesOnce
