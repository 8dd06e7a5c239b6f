import NativeChannel.Source.DartApiDl

namespace NativeChannel.ApiPointers
open Runs DartApiDl
open ConcurrentChannel (Event)

/-- What the native code calls in the VM. -/
def used : List String := ["Dart_PostInteger", "Dart_NewWeakPersistentHandle"]

/-- The VM has the major version that the library was compiled against, and all that the
native code calls. -/
def Provides (data : DartApi) : Prop :=
  data.major = majorVersion ∧ ∀ name ∈ used, (findFunctionPointer data.functions name).isSome = true

/-- The channel by itself says what is called through null. -/
structure Agrees (s : Process) : Prop where
  pointers : ∀ name ∈ used, (s.pointers name).isSome = s.channel.apiDL
  calledNull : s.calledNull = s.channel.nullCall

theorem used_symbols : ∀ name ∈ used, name ∈ allDLSymbols := by
  simp [used, allDLSymbols]

theorem any_same {α : Type} {l : List α} {p : α → Bool} {b : Bool} (h : ∀ x ∈ l, p x = b) :
    l.any p = (!l.isEmpty && b) := by
  induction l with
  | nil => rfl
  | cons x l ih =>
    have hrest := ih fun y hy => h y (List.mem_cons_of_mem x hy)
    rw [List.any_cons, h x List.mem_cons_self, hrest]
    cases b <;> simp

theorem touches_runs {s : ConcurrentChannel.Process} {e : Event} {a : Nat} (he : e.Touches a) :
    runsInitializeChannel s e = !(s.isolates a).constructed := by
  cases e with
  | newConcurrentMethodChannel b messenger hw =>
    obtain ⟨rfl, rfl⟩ := he
    rfl
  | instance_ b hw =>
    cases he
    rfl
  | _ => cases he

theorem registerFinalizer_nullCall {s : ConcurrentChannel.Process} (v : Option Wrapper.View) :
    (s.registerFinalizer v).nullCall =
      (s.nullCall || (!(registerFinalizerCalls v).isEmpty && !s.apiDL)) := by
  cases v <;> simp [ConcurrentChannel.Process.registerFinalizer, registerFinalizerCalls,
    ConcurrentChannel.Process.callDL]

theorem post_nullCall {s : ConcurrentChannel.Process}
    (w : ConcurrentChannel.Tagged Wrapper.MessageWrapper) :
    (s.post w).nullCall = (s.nullCall || !s.apiDL) := by
  unfold ConcurrentChannel.Process.post
  split <;> rfl

theorem registerFinalizerCalls_used (v : Option Wrapper.View) :
    ∀ name ∈ registerFinalizerCalls v, name ∈ used := by
  cases v <;> simp [registerFinalizerCalls, used]

section Channel
variable [Wrapper.Vm] {s t : ConcurrentChannel.Process} {e : Event}

theorem touches_calls {a : Nat} (he : e.Touches a) : calls s e = [] := by
  cases e <;> first | rfl | cases he

theorem scheduling_runs {f : WorkerPool.Event _} (he : e.scheduling = some f) :
    runsInitializeChannel s e = false ∧ calls s e = [] := by
  cases e <;> first | exact ⟨rfl, rfl⟩ | cases he

/-- The flag is up once `InitializeChannel` ran. -/
theorem moves_apiDL (hm : ConcurrentChannel.Moves s e t) :
    t.apiDL = (s.apiDL || runsInitializeChannel s e) := by
  cases hm with
  | touched he done => simp [touches_runs he, done]
  | construct he first => simp [touches_runs he, first, ConcurrentChannel.Process.constructed]
  | schedule he => simp [(scheduling_runs he).1]
  | _ => simp [runsInitializeChannel]

/-- Before that, each call is one through null. -/
theorem moves_nullCall (hm : ConcurrentChannel.Moves s e t) :
    t.nullCall = (s.nullCall || (!(calls s e).isEmpty && !s.apiDL)) := by
  cases hm with
  | touched he => simp [touches_calls he]
  | construct he => simp [touches_calls he, ConcurrentChannel.Process.constructed]
  | schedule he => simp [(scheduling_runs he).2]
  | sendSynchronous => exact registerFinalizer_nullCall _
  | handle hk moves _ calls =>
    simp [DartApiDl.calls, ConcurrentChannel.replies_handle [] _ hk moves (by simpa using calls),
      ConcurrentChannel.Process.setHandling]
  | reply hk moves _ calls =>
    simp [DartApiDl.calls, ConcurrentChannel.replies_handle _ _ hk moves calls, post_nullCall,
      ConcurrentChannel.Process.setHandling, ConcurrentChannel.Process.freeMessage]
  | onReply hp =>
    simp only [DartApiDl.calls, hp]
    exact registerFinalizer_nullCall _
  | _ => simp [DartApiDl.calls, ConcurrentChannel.Process.setIsolate]

theorem calls_used (s : ConcurrentChannel.Process) (e : Event) :
    ∀ name ∈ calls s e, name ∈ used := by
  cases e with
  | sendSynchronous => exact registerFinalizerCalls_used _
  | handle => simp [calls, used]
  | onReply a =>
    simp only [calls]
    split
    · exact registerFinalizerCalls_used _
    · simp
  | _ => simp [calls]

end Channel

section Steps
variable {data : DartApi} {s t : Process}

/-- `Dart_InitializeApiDL` sets what is used, or nothing. -/
theorem initializeApiDL_used (pointers : Pointers) {name : String} (hn : name ∈ used) :
    (initializeApiDL data pointers).2 name =
      if data.major = majorVersion then findFunctionPointer data.functions name
      else pointers name := by
  by_cases hm : data.major = majorVersion
  · simp [initializeApiDL, hm, used_symbols name hn]
  · simp [initializeApiDL, hm]

theorem step_agrees [Wrapper.Vm] (hp : Provides data) (hs : Agrees s) {e : Event}
    (h : step data s e = some t) : Agrees t := by
  unfold step at h
  split at h
  · cases h
  rename_i hn
  obtain ⟨channel, hc, rfl⟩ := Option.map_eq_some_iff.mp h
  obtain ⟨_, hm⟩ := ConcurrentChannel.step_moves hc
  refine ⟨?_, ?_⟩
  · intro name hname
    change Option.isSome _ = channel.apiDL
    rw [moves_apiDL hm]
    cases hruns : runsInitializeChannel s.channel e with
    | false => simpa using hs.pointers name hname
    | true => simp [initializeApiDL_used _ hname, hp.1, hp.2 name hname]
  · have hnull : ∀ name ∈ calls s.channel e, (s.pointers name).isNone = !s.channel.apiDL := by
      intro name hname
      rw [← hs.pointers name (calls_used _ _ name hname), Option.not_isSome]
    change List.any _ _ = channel.nullCall
    rw [moves_nullCall hm, ← hs.calledNull, any_same hnull]
    simp [hn]

theorem initial_agrees : Agrees Process.initial := ⟨fun _ _ => rfl, rfl⟩

/-- A request to no handler, whose answer is posted. -/
def postsOnce : List Event :=
  [.instance_ 0 2, .send 0 9 none 0, .notifyOne none, .test 0, .frontPop 0, .call 0 .absent,
    .handle 0 .replyNull ⟨0, 0, 0⟩]

/-- A synchronous reply that gets a finalizer. Every VM makes empty lists. -/
def registersOnce : List Event :=
  [.instance_ 0 2, .sendSynchronous 0 (some ⟨28672, 0, by decide, by decide⟩) ⟨0, 0⟩]

theorem provides_of_set
    (h : ∀ name ∈ used, ((initializeApiDL data fun _ => none).2 name).isNone = false) :
    Provides data := by
  have hset : ∀ name ∈ used, data.major = majorVersion ∧
      (findFunctionPointer data.functions name).isSome = true := by
    intro name hname
    have hfound := h name hname
    rw [initializeApiDL_used _ hname] at hfound
    split at hfound
    · rename_i hmajor
      exact ⟨hmajor, by simpa [Option.isSome_iff_ne_none] using hfound⟩
    · cases hfound
  exact ⟨(hset "Dart_PostInteger" (by simp [used])).1, fun name hname => (hset name hname).2⟩

end Steps

/-- The concurrent channel calls null pointers of dart_api_dl.c only where they are not yet set,
exactly in the VMs that have its major version and what it calls. -/
theorem null_calls_iff [Wrapper.Vm] (data : DartApi) :
    (∀ es s, run (step data) Process.initial es = some s →
      s.calledNull = s.channel.nullCall) ↔ Provides data := by
  constructor
  · intro h
    apply provides_of_set
    intro name hname
    simp only [used, List.mem_cons, List.not_mem_nil, or_false] at hname
    rcases hname with rfl | rfl
    · have hposted := h postsOnce _ rfl
      change (((initializeApiDL data fun _ => none).2 "Dart_PostInteger").isNone || false) = false
        at hposted
      simpa using hposted
    · have hregistered := h registersOnce _ rfl
      change (((initializeApiDL data fun _ => none).2 "Dart_NewWeakPersistentHandle").isNone ||
        false) = false at hregistered
      simpa using hregistered
  · intro hp es s hr
    exact (run_invariant (fun _ _ _ hs h => step_agrees hp hs h) initial_agrees hr).calledNull

end NativeChannel.ApiPointers
