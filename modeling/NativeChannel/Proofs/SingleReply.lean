import NativeChannel.Source.ConcurrentMessenger

namespace NativeChannel.SingleReply
open Runs ConcurrentMessenger

variable {ρ : Type}

/-- `replyMessageToDart` ran at most once for the request, so its buffer was
freed at most once and at most one wrapper with its seq was posted. -/
structure RepliedOnce (s : Request ρ) : Prop where
  calls : s.calls.length ≤ 1
  frees : (s.calls.filterMap NativeReply.message).length ≤ 1
  posts : (s.calls.filter fun c => c.replyId == s.seq).length ≤ 1

/-- An exception leaves the handler only while its `Reply` is unused, and the
`Reply` is not used after an exception left. A method channel catches runtime
exceptions itself, and answers them through the same `Reply`. -/
def ReplyOrThrow (s : Request ρ) : Event ρ → Prop
  | .reply _ _ => s.done = true ∨ s.caught = false
  | .throws e => s.handler = .method ∧ e.isRuntime = true ∨ s.done = false
  | .encodeError _ => s.done = false
  | _ => True

instance (s : Request ρ) (e : Event ρ) : Decidable (ReplyOrThrow s e) := by
  cases e with
  | reply w r => exact inferInstanceAs (Decidable (_ ∨ _))
  | throws e => exact inferInstanceAs (Decidable (_ ∧ _ ∨ _))
  | encodeError r => exact inferInstanceAs (Decidable (_ = _))
  | _ => exact isTrue trivial

def Frame.owesNull : Frame → Bool
  | .exceptionCatch | .noHandler => true
  | _ => false

/-- The handler was called and has not been left. -/
def Frame.isRunning : Frame → Bool
  | .body | .runtimeCatch | .catchReply => true
  | _ => false

/-- Native calls that a thread is already bound to make. -/
def owed (s : Request ρ) : Nat := s.submitting.isSome.toNat + (Frame.owesNull s.frame).toNat

/-- The messenger answers this request with null on its own account. -/
def escaped (s : Request ρ) : Bool := s.caught || s.handler == .absent

/-- Every native call, made or owed, comes from the flag or from the messenger's
own null reply. The other fields say which frames and fields occur together. -/
structure Accounted (s : Request ρ) : Prop where
  count : s.calls.length + owed s = s.done.toNat + (escaped s).toNat
  pending : s.done = false → s.submitting = none
  unhanded : s.handed = false → s.done = false
  decoding : s.frame = .decoding → s.handed = false ∧ escaped s = false
  running : Frame.isRunning s.frame = true → s.handed = true ∧ escaped s = false
  absent : s.handler = .absent → s.handed = false

/-- At most one of the two sources of replies is in use. -/
def OneSource (s : Request ρ) : Prop := s.done = false ∨ escaped s = false

theorem start_accounted (seq : Int) (message : Option Nat) (handler : Handler) :
    Accounted (handleMessageFromDart seq message handler : Request ρ) := by
  cases handler
  case absent => exact ⟨rfl, fun _ => rfl, fun _ => rfl, nofun, nofun, fun _ => rfl⟩
  case binary => exact ⟨rfl, fun _ => rfl, fun _ => rfl, nofun, fun _ => ⟨rfl, rfl⟩, nofun⟩
  case method => exact ⟨rfl, fun _ => rfl, fun _ => rfl, fun _ => ⟨rfl, rfl⟩, nofun, nofun⟩

/-- An exception that leaves `onMessage` takes a place of its own in the count. -/
theorem Accounted.uncaught {s : Request ρ} (h : Accounted s)
    (hf : Frame.owesNull s.frame = false) (he : escaped s = false) : Accounted s.uncaught := by
  have hcount := h.count
  simp only [owed, hf, he, Bool.toNat_false, Nat.add_zero] at hcount
  refine ⟨?_, h.pending, h.unhanded, nofun, nofun, h.absent⟩
  change s.calls.length + (s.submitting.isSome.toNat + 1) = s.done.toNat + 1
  omega

/-- A first submission sets the flag and owes one native call for it. -/
theorem Accounted.submit {s : Request ρ} (h : Accounted s) (w : Bool) (r : Option ρ)
    (hd : s.done = false) (hh : s.handed = true) :
    Accounted { s with done := true, submitting := some (w, r) } := by
  have hcount := h.count
  simp only [owed, h.pending hd, hd, Option.isSome_none, Bool.toNat_false, Nat.zero_add] at hcount
  refine ⟨?_, nofun, ?_, h.decoding, h.running, h.absent⟩
  · change s.calls.length + (1 + (Frame.owesNull s.frame).toNat) = 1 + (escaped s).toNat
    omega
  · intro hn
    rw [hh] at hn
    cases hn

/-- Moving on from a running handler to a frame that owes nothing. -/
theorem Accounted.frame {s : Request ρ} (h : Accounted s) (f : Frame)
    (hr : Frame.isRunning s.frame = true) (hg : f = .returned ∨ Frame.isRunning f = true) :
    Accounted { s with frame := f } := by
  have hs : Frame.owesNull s.frame = false := by
    cases hf : s.frame <;> simp_all [Frame.isRunning, Frame.owesNull]
  have ht : Frame.owesNull f = false := by
    cases f <;> simp_all [Frame.isRunning, Frame.owesNull]
  have hcount := h.count
  simp only [owed, hs] at hcount
  refine ⟨?_, h.pending, h.unhanded, ?_, fun _ => h.running hr, h.absent⟩
  · change s.calls.length + (s.submitting.isSome.toNat + (Frame.owesNull f).toNat) =
      s.done.toNat + (escaped s).toNat
    rw [ht]
    exact hcount
  · rintro rfl
    rcases hg with hg | hg <;> cases hg

/-- The native call of a submission was owed before it is made. -/
theorem Accounted.native {s : Request ρ} (h : Accounted s) {w : Bool} {r : Option ρ}
    (hp : s.submitting = some (w, r)) :
    Accounted { s.replyMessageToDart r with submitting := none } := by
  have hcount := h.count
  simp only [owed, hp, Option.isSome_some, Bool.toNat_true] at hcount
  refine ⟨?_, fun _ => rfl, h.unhanded, h.decoding, h.running, h.absent⟩
  change (s.calls ++ [_]).length + (0 + (Frame.owesNull s.frame).toNat) =
    s.done.toNat + (escaped s).toNat
  simp only [List.length_append, List.length_singleton]
  omega

/-- So was the null reply of the messenger. -/
theorem Accounted.replyNull {s : Request ρ} (h : Accounted s)
    (hf : Frame.owesNull s.frame = true) :
    Accounted { s.replyMessageToDart none with frame := .returned } := by
  have hcount := h.count
  simp only [owed, hf, Bool.toNat_true] at hcount
  refine ⟨?_, h.pending, h.unhanded, nofun, nofun, h.absent⟩
  change (s.calls ++ [_]).length + (s.submitting.isSome.toNat + 0) =
    s.done.toNat + (escaped s).toNat
  simp only [List.length_append, List.length_singleton]
  omega

theorem Accounted.may_handed {s : Request ρ} (h : Accounted s) {w : Bool}
    (hm : s.mayReply w = true) : s.handed = true := by
  cases w with
  | true =>
    have hb : s.inBody = true := hm
    exact (h.running (by rw [inBody_frame hb]; rfl)).1
  | false => exact hm

theorem step_accounted {s t : Request ρ} {e : Event ρ} (hs : Accounted s)
    (h : step s e = some t) : Accounted t := by
  cases step_moves h with
  | decoded hf =>
    have he := (hs.decoding hf).2
    have hcount := hs.count
    simp only [owed, hf, Frame.owesNull] at hcount
    refine ⟨hcount, hs.pending, nofun, nofun, fun _ => ⟨rfl, he⟩, ?_⟩
    intro ha
    simp [escaped, show s.handler = .absent from ha] at he
  | decodeThrows hf => exact hs.uncaught (by rw [hf]; rfl) (hs.decoding hf).2
  | replyRefused => exact hs
  | reply hm hd => exact hs.submit _ _ hd (hs.may_handed hm)
  | @native w r hp =>
    by_cases hc : (w && s.frame == .catchReply) = true
    · simp only [hc, if_true]
      have hf : s.frame = .catchReply := by simpa using (Bool.and_eq_true_iff.mp hc).2
      exact (hs.native hp).frame .returned (by change Frame.isRunning s.frame = true; rw [hf]; rfl)
        (Or.inl rfl)
    · simp only [hc]
      exact hs.native hp
  | throwsRuntime hb =>
    exact hs.frame .runtimeCatch (by rw [inBody_frame hb]; rfl) (Or.inr rfl)
  | throwsOut hb =>
    have hf := inBody_frame hb
    exact hs.uncaught (by rw [hf]; rfl) (hs.running (by rw [hf]; rfl)).2
  | returns hb => exact hs.frame .returned (by rw [inBody_frame hb]; rfl) (Or.inl rfl)
  | encodeThrows hf => exact hs.uncaught (by rw [hf]; rfl) (hs.running (by rw [hf]; rfl)).2
  | encodeRefused hf => exact hs.uncaught (by rw [hf]; rfl) (hs.running (by rw [hf]; rfl)).2
  | encodeReply hf hd =>
    have hr : Frame.isRunning s.frame = true := by rw [hf]; rfl
    exact (hs.submit true (some _) hd (hs.running hr).1).frame .catchReply hr (Or.inr rfl)
  | replyNull hf => exact hs.replyNull (by rcases hf with hf | hf <;> rw [hf] <;> rfl)

/-- A step brings the second source of replies into use exactly when it breaks
the rule that a handler replies or throws. -/
theorem step_oneSource {s t : Request ρ} {e : Event ρ} (hj : Accounted s) (hs : OneSource s)
    (h : step s e = some t) : OneSource t ↔ ReplyOrThrow s e := by
  cases step_moves h with
  | decoded => exact iff_of_true hs trivial
  | decodeThrows hf => exact iff_of_true (Or.inl (hj.unhanded (hj.decoding hf).1)) trivial
  | replyRefused _ hd => exact iff_of_true hs (Or.inl hd)
  | reply hm hd =>
    have hp : s.handler ≠ .absent := by
      intro ha
      have hh := hj.may_handed hm
      rw [hj.absent ha] at hh
      cases hh
    have he : escaped s = s.caught := by simp [escaped, hp]
    change (true = false ∨ escaped s = false) ↔ (s.done = true ∨ s.caught = false)
    simp [he, hd]
  | native => exact iff_of_true hs trivial
  | throwsRuntime _ hm hr => exact iff_of_true hs (Or.inl ⟨hm, hr⟩)
  | throwsOut hb hn =>
    change (s.done = false ∨ (true || _) = false) ↔ (_ ∨ s.done = false)
    simp [hn]
  | returns => exact iff_of_true hs trivial
  | encodeThrows =>
    change (s.done = false ∨ (true || _) = false) ↔ s.done = false
    simp
  | encodeRefused =>
    change (s.done = false ∨ (true || _) = false) ↔ s.done = false
    simp
  | encodeReply hf hd => exact iff_of_true (Or.inr (hj.running (by rw [hf]; rfl)).2) hd
  | replyNull => exact iff_of_true hs trivial

theorem oneSource_exact : Exact (@step ρ) Accounted OneSource ReplyOrThrow where
  keeps _ _ _ hs h := step_accounted hs h
  meets _ _ _ hj hs h := step_oneSource hj hs h

theorem OneSource.replied_once {s : Request ρ} (hj : Accounted s) (hs : OneSource s) :
    RepliedOnce s := by
  have hl : s.calls.length ≤ 1 := by
    have hcount := hj.count
    have hdone := Bool.toNat_le s.done
    have hesc := Bool.toNat_le (escaped s)
    rcases hs with hd | he
    · rw [hd, Bool.toNat_false] at hcount
      omega
    · rw [he, Bool.toNat_false] at hcount
      omega
  exact ⟨hl, Nat.le_trans (List.length_filterMap_le _ _) hl,
    Nat.le_trans (List.length_filter_le _ _) hl⟩

/-- The owed native calls can be made, and none of them owes another. -/
theorem owed_runs (s : Request ρ) :
    ∃ xs, (∀ x ∈ xs, x.isNative = true) ∧ ∃ t, run step s xs = some t ∧
      t.calls.length = s.calls.length + owed s := by
  have null : ∀ s : Request ρ, s.submitting = none →
      ∃ xs, (∀ x ∈ xs, x.isNative = true) ∧ ∃ t, run step s xs = some t ∧
        t.calls.length = s.calls.length + owed s := by
    intro s hp
    cases hf : Frame.owesNull s.frame with
    | false => exact ⟨[], nofun, s, rfl, by simp [owed, hp, hf]⟩
    | true =>
      have hfr : s.frame = .exceptionCatch ∨ s.frame = .noHandler := by
        cases hc : s.frame <;> simp_all [Frame.owesNull]
      refine ⟨[.replyNull], by simp [Event.isNative], { s.replyMessageToDart none with frame := .returned },
        by simp [step, hfr], ?_⟩
      simp [owed, hp, hf, Request.replyMessageToDart]
  cases hp : s.submitting with
  | none => exact null s hp
  | some pair =>
    obtain ⟨w, r⟩ := pair
    let u : Request ρ := { s.replyMessageToDart r with
      submitting := none
      frame := if w && s.frame == .catchReply then .returned else s.frame }
    have hu : step s .native = some u := by simp [step, hp, u]
    have hframe : Frame.owesNull u.frame = Frame.owesNull s.frame := by
      change Frame.owesNull (if w && s.frame == .catchReply then .returned else s.frame) = _
      split
      · rename_i hc
        have hf : s.frame = .catchReply := by simpa using (Bool.and_eq_true_iff.mp hc).2
        rw [hf]
        rfl
      · rfl
    obtain ⟨xs, hx, t, ht, hl⟩ := null u rfl
    refine ⟨.native :: xs, ?_, t, by simp [hu, ht], ?_⟩
    · intro x hm
      rcases List.mem_cons.mp hm with rfl | hm
      · rfl
      · exact hx x hm
    · have huc : u.calls.length = s.calls.length + 1 := by
        simp [u, Request.replyMessageToDart]
      have huo : owed u = (Frame.owesNull s.frame).toNat := by
        simp only [owed, hframe, show u.submitting = none from rfl, Option.isSome_none,
          Bool.toNat_false, Nat.zero_add]
      rw [hl, huc, huo]
      simp only [owed, hp, Option.isSome_some, Bool.toNat_true]
      omega

theorem second_source_replies {s : Request ρ} (hj : Accounted s) (hs : ¬ OneSource s) :
    ∃ xs, (∀ x ∈ xs, x.isNative = true) ∧ ∃ t, run step s xs = some t ∧ ¬ RepliedOnce t := by
  simp only [OneSource, not_or, Bool.not_eq_false] at hs
  obtain ⟨xs, hx, t, ht, hl⟩ := owed_runs s
  refine ⟨xs, hx, t, ht, fun hr => ?_⟩
  have hcount := hj.count
  simp only [hs.1, hs.2, Bool.toNat_true] at hcount
  have := hr.calls
  omega

/-- In a run, and in the native calls it leaves open, the request is answered at
most once exactly when its handler replies or throws, and does not do both. -/
theorem replied_once_iff (seq : Int) (message : Option Nat) (handler : Handler)
    (es : List (Event ρ)) (hr : (run step (handleMessageFromDart seq message handler) es).isSome) :
    Through step (fun e => e.isNative = true) RepliedOnce (handleMessageFromDart seq message handler) es ↔
      AllSteps step ReplyOrThrow (handleMessageFromDart seq message handler) es := by
  obtain ⟨t, ht⟩ := Option.isSome_iff_exists.mp hr
  apply oneSource_exact.through_iff ?_ ?_ ?_ (start_accounted seq message handler) ?_ ht
  · intro s e he
    cases e <;> trivial
  · intro s hj hs
    exact hs.replied_once hj
  · intro s hj hs
    exact second_source_replies hj hs
  · exact Or.inl rfl

theorem replied_once_method :
    Through step (fun e => e.isNative = true) RepliedOnce (handleMessageFromDart 5 (some 4096) .method)
      [.decode none, .throws (.runtime none), .encodeError (.ok 1), .native, .reply false none] :=
  (replied_once_iff 5 (some 4096) .method _ (by decide)).mpr (by decide)

/-- A handler that replies and then throws: the catch clause replies again, and
the request buffer at the same address is freed again. -/
theorem reply_then_throw :
    ∃ s, run step (handleMessageFromDart 5 (some 4096) .binary)
        [.reply true (some 1), .native, .throws (.other none), .replyNull] = some s ∧
      ¬ RepliedOnce s := by
  refine ⟨_, rfl, fun h => ?_⟩
  have hc := h.calls
  simp [Request.replyMessageToDart, Request.submit, Request.uncaught, handleMessageFromDart] at hc

end NativeChannel.SingleReply
