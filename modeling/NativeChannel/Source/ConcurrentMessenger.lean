import NativeChannel.Library.Runs

namespace NativeChannel.ConcurrentMessenger

/-- Kotlin exceptions, told apart as the one narrow catch clause tells them. -/
inductive Exception where
  | runtime (message : Option String)
  | other (message : Option String)
  deriving DecidableEq

def Exception.isRuntime : Exception → Bool
  | .runtime _ => true
  | .other _ => false

def Exception.message : Exception → Option String
  | .runtime m | .other m => m

/-- What `messageHandlers[channel]` holds: nothing, a `BinaryMessageHandler` of
the application, or the `IncomingMethodCallHandler` of a method channel. -/
inductive Handler where
  | absent
  | binary
  | method
  deriving DecidableEq

/-- Where the worker's call of `handleMessageFromDart` stands. -/
inductive Frame where
  | decoding
  | body
  | runtimeCatch
  | catchReply
  | exceptionCatch
  | noHandler
  | returned
  deriving DecidableEq

/-- The arguments of one call of `replyMessageToDart`. The buffers are direct
ones, `message` being known by its address. -/
structure NativeReply (ρ : Type) where
  replyId : Int
  reply : Option ρ
  message : Option Nat
  deriving DecidableEq

/-- A request while it is handled. `handed` says that application code holds the
`Reply`, `done` is its flag, and `submitting` a submission past the flag whose
native call is still to come, with whether the worker itself makes it. `caught`
and `calls` are history: an exception left `onMessage`, and the native calls. -/
structure Request (ρ : Type) where
  seq : Int
  message : Option Nat
  handler : Handler
  frame : Frame
  handed : Bool
  done : Bool
  submitting : Option (Bool × Option ρ)
  caught : Bool
  calls : List (NativeReply ρ)
  deriving DecidableEq

/-- The atomic steps of the worker's call and of threads that keep the `Reply`. -/
inductive Event (ρ : Type) where
  | decode (thrown : Option Exception)
  | reply (byWorker : Bool) (reply : Option ρ)
  | native
  | throws (e : Exception)
  | returns
  | encodeError (envelope : Except Exception ρ)
  | replyNull
  deriving DecidableEq

variable {ρ : Type}

def Handler.frame : Handler → Frame
  | .absent => .noHandler
  | .binary => .body
  | .method => .decoding

/-- Entering `handleMessageFromDart`: the lookup of the handler and the branch. -/
def handleMessageFromDart (seq : Int) (message : Option Nat) (handler : Handler) : Request ρ :=
  { seq, message, handler
    frame := handler.frame
    handed := handler == .binary
    done := false
    submitting := none
    caught := false
    calls := [] }

def Request.replyMessageToDart (s : Request ρ) (reply : Option ρ) : Request ρ :=
  { s with calls := s.calls ++ [⟨s.seq, reply, s.message⟩] }

/-- `check(!done.getAndSet(true))` of `Reply.reply`. A later caller gets the
IllegalStateException, which changes nothing here: what the caller does with it
is the caller's next step. -/
def Request.submit (s : Request ρ) (byWorker : Bool) (reply : Option ρ) : Request ρ :=
  if s.done then s else { s with done := true, submitting := some (byWorker, reply) }

/-- An exception leaves `onMessage` and reaches the messenger's catch clause. -/
def Request.uncaught (s : Request ρ) : Request ρ :=
  { s with frame := .exceptionCatch, caught := true }

/-- The worker is inside `Reply.reply`, past the flag. -/
def Request.workerReplying (s : Request ρ) : Bool :=
  match s.submitting with
  | some (byWorker, _) => byWorker
  | none => false

/-- The handler's code runs on the worker, outside `Reply.reply`. -/
def Request.inBody (s : Request ρ) : Bool := s.frame == .body && !s.workerReplying

/-- The worker can call `Reply.reply` from the handler's code, another thread
whenever the application has the `Reply`. -/
def Request.mayReply (s : Request ρ) (byWorker : Bool) : Bool :=
  if byWorker then s.inBody else s.handed

def step (s : Request ρ) : Event ρ → Option (Request ρ)
  | .decode thrown =>
    if s.frame = .decoding then
      match thrown with
      | none => some { s with frame := .body, handed := true }
      | some _ => some s.uncaught
    else none
  | .reply byWorker reply =>
    if s.mayReply byWorker then some (s.submit byWorker reply) else none
  | .native =>
    match s.submitting with
    | some (byWorker, reply) =>
      some { s.replyMessageToDart reply with
        submitting := none
        frame := if byWorker && s.frame == .catchReply then .returned else s.frame }
    | none => none
  | .throws e =>
    if s.inBody then
      -- only the method channel has a catch clause of its own, for RuntimeException
      if s.handler == .method && e.isRuntime then some { s with frame := .runtimeCatch }
      else some s.uncaught
    else none
  | .returns => if s.inBody then some { s with frame := .returned } else none
  | .encodeError envelope =>
    if s.frame = .runtimeCatch then
      match envelope with
      | .error _ => some s.uncaught
      | .ok envelope =>
        if s.done then some s.uncaught
        else some { s.submit true (some envelope) with frame := .catchReply }
    else none
  | .replyNull =>
    if s.frame = .exceptionCatch ∨ s.frame = .noHandler then
      some { s.replyMessageToDart none with frame := .returned }
    else none

/-- Everything one step can do, with what was true before it. -/
inductive Moves (s : Request ρ) : Event ρ → Request ρ → Prop where
  | decoded (at_ : s.frame = .decoding) :
      Moves s (.decode none) { s with frame := .body, handed := true }
  | decodeThrows {e : Exception} (at_ : s.frame = .decoding) :
      Moves s (.decode (some e)) s.uncaught
  | replyRefused {w : Bool} {r : Option ρ} (may : s.mayReply w = true) (done : s.done = true) :
      Moves s (.reply w r) s
  | reply {w : Bool} {r : Option ρ} (may : s.mayReply w = true) (fresh : s.done = false) :
      Moves s (.reply w r) { s with done := true, submitting := some (w, r) }
  | native {w : Bool} {r : Option ρ} (pending : s.submitting = some (w, r)) :
      Moves s .native { s.replyMessageToDart r with
        submitting := none
        frame := if w && s.frame == .catchReply then .returned else s.frame }
  | throwsRuntime {e : Exception} (at_ : s.inBody = true) (method : s.handler = .method)
      (runtime : e.isRuntime = true) : Moves s (.throws e) { s with frame := .runtimeCatch }
  | throwsOut {e : Exception} (at_ : s.inBody = true)
      (passes : ¬ (s.handler = .method ∧ e.isRuntime = true)) : Moves s (.throws e) s.uncaught
  | returns (at_ : s.inBody = true) : Moves s .returns { s with frame := .returned }
  | encodeThrows {e : Exception} (at_ : s.frame = .runtimeCatch) :
      Moves s (.encodeError (.error e)) s.uncaught
  | encodeRefused {r : ρ} (at_ : s.frame = .runtimeCatch) (done : s.done = true) :
      Moves s (.encodeError (.ok r)) s.uncaught
  | encodeReply {r : ρ} (at_ : s.frame = .runtimeCatch) (fresh : s.done = false) :
      Moves s (.encodeError (.ok r))
        { s with done := true, submitting := some (true, some r), frame := .catchReply }
  | replyNull (at_ : s.frame = .exceptionCatch ∨ s.frame = .noHandler) :
      Moves s .replyNull { s.replyMessageToDart none with frame := .returned }

theorem inBody_frame {s : Request ρ} (h : s.inBody = true) : s.frame = .body := by
  simp only [Request.inBody, Bool.and_eq_true, beq_iff_eq] at h
  exact h.1

theorem step_moves {s t : Request ρ} {e : Event ρ} (h : step s e = some t) : Moves s e t := by
  cases e with
  | decode thrown =>
    simp only [step] at h
    split at h
    · rename_i hf
      cases thrown with
      | none => cases h; exact .decoded hf
      | some e => cases h; exact .decodeThrows hf
    · cases h
  | reply w r =>
    simp only [step] at h
    split at h
    · rename_i hg
      cases h
      unfold Request.submit
      split
      · exact .replyRefused hg ‹_›
      · rename_i hd
        exact .reply hg (by simpa using hd)
    · cases h
  | native =>
    simp only [step] at h
    split at h
    · cases h; exact .native ‹_›
    · cases h
  | throws e =>
    simp only [step] at h
    split at h
    · rename_i hb
      split at h
      · rename_i hm
        cases h
        simp only [Bool.and_eq_true, beq_iff_eq] at hm
        exact .throwsRuntime hb hm.1 hm.2
      · rename_i hm
        cases h
        exact .throwsOut hb (by simpa using hm)
    · cases h
  | returns =>
    simp only [step] at h
    split at h
    · cases h; exact .returns ‹_›
    · cases h
  | encodeError envelope =>
    simp only [step] at h
    split at h
    · rename_i hf
      cases envelope with
      | error e => cases h; exact .encodeThrows hf
      | ok r =>
        simp only at h
        split at h
        · cases h; exact .encodeRefused hf ‹_›
        · rename_i hd
          cases h
          have hd : s.done = false := by simpa using hd
          have hs : s.submit true (some r) =
              { s with done := true, submitting := some (true, some r) } := by
            simp [Request.submit, hd]
          rw [hs]
          exact .encodeReply hf hd
    · cases h
  | replyNull =>
    simp only [step] at h
    split at h
    · cases h; exact .replyNull ‹_›
    · cases h

/-- The steps that call `replyMessageToDart`. -/
def Event.isNative : Event ρ → Bool
  | .native | .replyNull => true
  | _ => false

/-- Such a step makes one call, for the request's own seq and message, and no
other step makes any. -/
theorem step_calls {s t : Request ρ} {e : Event ρ} (h : step s e = some t) :
    t.seq = s.seq ∧ t.message = s.message ∧
      (e.isNative = false ∧ t.calls = s.calls ∨
        e.isNative = true ∧ ∃ r, t.calls = s.calls ++ [⟨s.seq, r, s.message⟩]) := by
  cases step_moves h with
  | native => exact ⟨rfl, rfl, Or.inr ⟨rfl, _, rfl⟩⟩
  | replyNull => exact ⟨rfl, rfl, Or.inr ⟨rfl, _, rfl⟩⟩
  | _ => exact ⟨rfl, rfl, Or.inl ⟨rfl, rfl⟩⟩

end NativeChannel.ConcurrentMessenger
