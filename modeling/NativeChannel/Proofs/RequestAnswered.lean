import NativeChannel.Library.Quiescence
import NativeChannel.Proofs.SingleReply

namespace NativeChannel.RequestAnswered
open Runs ConcurrentMessenger SingleReply

variable {ρ : Type}

/-- What the library does with a request on its own: it decodes the call, encodes the error
for an exception, and makes the native calls that are due. -/
def Own : Event ρ → Prop
  | .decode _ | .native | .encodeError _ | .replyNull => True
  | _ => False

def Frame.weight : Frame → Nat
  | .decoding => 2
  | .runtimeCatch => 2
  | .exceptionCatch => 1
  | .noHandler => 1
  | _ => 0

/-- What the library still has to do for a request. -/
def weight (s : Request ρ) : Nat := Frame.weight s.frame + s.submitting.isSome.toNat

/-- The error reply of a method channel is submitted before the native call for it. -/
def ErrorSubmitted (s : Request ρ) : Prop :=
  s.frame = .catchReply → s.done = true ∧ ∃ r, s.submitting = some (true, r)

/-- The native calls are for this request. -/
def OwnCalls (s : Request ρ) : Prop := ∀ c ∈ s.calls, c.replyId = s.seq ∧ c.message = s.message

/-- What holds of a request in every state of it. -/
structure Sound (s : Request ρ) : Prop where
  accounted : Accounted s
  submitted : ErrorSubmitted s
  own : OwnCalls s

/-- The handler runs or the call is over, and the native calls are all made: one if the
`Reply` was used, and one if the messenger answered by itself. -/
structure Answered (s : Request ρ) : Prop where
  rests : s.frame = .body ∨ s.frame = .returned
  submitted : s.submitting = none
  replies : s.calls.length = s.done.toNat + (escaped s).toNat
  own : OwnCalls s

section Step
variable {s t : Request ρ} {e : Event ρ}

theorem step_submitted (hs : ErrorSubmitted s) (h : step s e = some t) : ErrorSubmitted t := by
  cases step_moves h with
  | replyRefused => exact hs
  | reply _ fresh =>
    intro hf
    have hdone := (hs hf).1
    rw [fresh] at hdone
    cases hdone
  | @native w r pending =>
    intro hafter
    have hf : (if w && s.frame == .catchReply then Frame.returned else s.frame) = .catchReply :=
      hafter
    split at hf
    · cases hf
    · rename_i hno
      obtain ⟨_, r', hr'⟩ := hs hf
      rw [pending] at hr'
      cases hr'
      exact absurd (by rw [hf]; rfl) hno
  | encodeReply => exact fun _ => ⟨rfl, _, rfl⟩
  | _ => nofun

theorem step_own (hs : OwnCalls s) (h : step s e = some t) : OwnCalls t := by
  obtain ⟨hseq, hmessage, ⟨_, hcalls⟩ | ⟨_, r, hcalls⟩⟩ := step_calls h
  · unfold OwnCalls
    rw [hcalls, hseq, hmessage]
    exact hs
  · unfold OwnCalls
    rw [hcalls, hseq, hmessage]
    intro c hc
    rcases List.mem_append.mp hc with hc | hc
    · exact hs c hc
    · rw [List.mem_singleton.mp hc]
      exact ⟨rfl, rfl⟩

theorem step_sound (hs : Sound s) (h : step s e = some t) : Sound t :=
  ⟨step_accounted hs.accounted h, step_submitted hs.submitted h, step_own hs.own h⟩

theorem start_sound (seq : Int) (message : Option Nat) (handler : Handler) :
    Sound (handleMessageFromDart seq message handler : Request ρ) := by
  refine ⟨start_accounted seq message handler, ?_, nofun⟩
  cases handler <;> nofun

/-- Each own step comes nearer to the end of the call. -/
theorem step_weight (hs : Sound s) (he : Own e) (h : step s e = some t) : weight t < weight s := by
  unfold weight
  cases step_moves h with
  | decoded at_ =>
    rw [at_]
    simp [Frame.weight]
  | decodeThrows at_ =>
    rw [at_]
    simp [Frame.weight, Request.uncaught]
  | @native w r pending =>
    rw [pending]
    have hframe : Frame.weight (if w && s.frame == .catchReply then .returned else s.frame) ≤
        Frame.weight s.frame := by
      split
      · exact Nat.zero_le _
      · exact Nat.le_refl _
    simpa using Nat.lt_succ_of_le hframe
  | encodeThrows at_ =>
    rw [at_]
    simp [Frame.weight, Request.uncaught]
  | encodeRefused at_ =>
    rw [at_]
    simp [Frame.weight, Request.uncaught]
  | encodeReply at_ fresh =>
    rw [at_, hs.accounted.pending fresh]
    simp [Frame.weight]
  | replyNull at_ =>
    rcases at_ with at_ | at_ <;> rw [at_] <;> simp [Frame.weight, Request.replyMessageToDart]
  | replyRefused => cases he
  | reply => cases he
  | throwsRuntime => cases he
  | throwsOut => cases he
  | returns => cases he

end Step

theorem settles : Settles (@step ρ) Sound Own weight where
  keeps _ _ _ hs _ h := step_sound hs h
  uses _ _ _ hs he h := step_weight hs he h

/-- A request for which the library has nothing to do is answered as far as can be. -/
theorem Sound.answered {s : Request ρ} (hs : Sound s) (hq : Quiet step Own s) : Answered s := by
  have hsubmitting : s.submitting = none := by
    cases hp : s.submitting with
    | none => rfl
    | some pair =>
      have hstep := hq .native trivial
      simp [step, hp] at hstep
  have hrests : s.frame = .body ∨ s.frame = .returned := by
    cases hf : s.frame with
    | body => exact Or.inl rfl
    | returned => exact Or.inr rfl
    | decoding =>
      have hstep := hq (.decode none) trivial
      simp [step, hf] at hstep
    | runtimeCatch =>
      have hstep := hq (.encodeError (.error (.other none))) trivial
      simp [step, hf] at hstep
    | catchReply =>
      obtain ⟨_, r, hr⟩ := hs.submitted hf
      rw [hsubmitting] at hr
      cases hr
    | exceptionCatch =>
      have hstep := hq .replyNull trivial
      simp [step, hf] at hstep
    | noHandler =>
      have hstep := hq .replyNull trivial
      simp [step, hf] at hstep
  refine ⟨hrests, hsubmitting, ?_, hs.own⟩
  have hcount := hs.accounted.count
  rcases hrests with hf | hf
  · simpa [owed, hsubmitting, hf, Frame.owesNull] using hcount
  · simpa [owed, hsubmitting, hf, Frame.owesNull] using hcount

/-- No request is dropped. Whatever handler and other threads did, the library's own steps
come to an end, and then every use of the `Reply` and every exception that left the handler
has its native call; so a call that is over without one left an unused `Reply` behind. -/
theorem request_answered (seq : Int) (message : Option Nat) (handler : Handler)
    (es : List (Event ρ)) {s : Request ρ}
    (hr : run step (handleMessageFromDart seq message handler) es = some s) :
    Drains step Own Answered (weight s) s :=
  settles.drains (fun _ hs hq => hs.answered hq)
    (run_invariant (fun _ _ _ hs h => step_sound hs h) (start_sound seq message handler) hr)

/-- A method handler replies, throws, and its error reply is refused. -/
theorem request_answered_twice : Drains step Own Answered 2
    (((run step (handleMessageFromDart 5 (some 4096) .method : Request Nat)
      [.decode none, .reply true (some 1), .native, .throws (.runtime none)]).get (by decide))) :=
  request_answered 5 (some 4096) .method
    [.decode none, .reply true (some 1), .native, .throws (.runtime none)] (Option.some_get _).symm

end NativeChannel.RequestAnswered
