import Mathlib.Data.Finset.Basic
import Mathlib.Logic.Function.Basic
import NativeChannel.Source.ConcurrentMessenger
import NativeChannel.Source.WorkerPool
import NativeChannel.Source.Wrapper

namespace NativeChannel.ConcurrentChannel
open ConcurrentMessenger (Handler Request NativeReply)
open WorkerPool (Pool)
open Wrapper

/-- `struct TaskMessageWrapper`. -/
structure TaskMessageWrapper where
  channel : Int
  message : MessageWrapper
  deriving DecidableEq

/-- Which `send` a message stems from. No code reads this. -/
structure Tag where
  isolate : Nat
  seq : Int
  deriving DecidableEq

structure Tagged (α : Type) where
  tag : Tag
  val : α
  deriving DecidableEq

/-- The Dart side in one isolate: whether `instance` was touched, `_seq`, the
keys of `_resultCompleters`, and the messages waiting on `_replyPort`. The last
two are history: which wrapper completed which seq, and a failed assert. -/
structure Isolate where
  constructed : Bool
  seq : Int
  resultCompleters : Finset Int
  replyPort : List (Tagged MessageWrapper)
  completed : List (Int × Tagged MessageWrapper)
  assertFailed : Bool
  deriving DecidableEq

def Isolate.initial : Isolate := ⟨false, 1, ∅, [], [], false⟩

/-- A request in a worker's call of `handleMessageFromDart`. -/
structure Handling where
  tag : Tag
  worker : Nat
  request : Request DirectByteBuffer
  deriving DecidableEq

/-- One process. `apiDL` says that the pointers of dart_api_dl.c are set, and
`replyPort` whose port `replyPort_` is. `nullCall` is a call through a pointer
that was not set, and `freedTwice` a second `free` of one message. -/
structure Process where
  pool : Pool (Tagged TaskMessageWrapper)
  apiDL : Bool
  replyPort : Option Nat
  handlings : List Handling
  isolates : Nat → Isolate
  nullCall : Bool
  freedTwice : Bool

/-- `fresh` is a wrapper as `new` left it, `allocated` the address of a copy. -/
inductive Event where
  | newSynchronousMethodChannel (a : Nat)
  | newConcurrentMethodChannel (a : Nat) (messenger : Bool) (hardwareConcurrency : Nat)
  | instance_ (a : Nat) (hardwareConcurrency : Nat)
  | send (a : Nat) (channel : Int) (message : Option (List UInt8)) (allocated : Nat)
  | sendSynchronous (a : Nat) (result : Option DirectByteBuffer) (fresh : SynchronousResultWrapper)
  | notifyOne (woken : Option Nat)
  | test (i : Nat)
  | block (i : Nat)
  | wake (i : Nat)
  | frontPop (i : Nat)
  | call (i : Nat) (handler : Handler)
  | handle (k : Nat) (e : ConcurrentMessenger.Event DirectByteBuffer) (fresh : MessageWrapper)
  | finish (i : Nat)
  | onReply (a : Nat)

def Process.initial : Process :=
  ⟨WorkerPool.initial 0, false, none, [], fun _ => Isolate.initial, false, false⟩

def Process.setIsolate (s : Process) (a : Nat) (iso : Isolate) : Process :=
  { s with isolates := Function.update s.isolates a iso }

/-- A call through one of the `_DL` pointers. -/
def Process.callDL (s : Process) : Process := { s with nullCall := s.nullCall || !s.apiDL }

/-- The workers `InitializeChannel` starts. -/
def concurrency (hardwareConcurrency : Nat) : Nat := max (hardwareConcurrency / 2) 1

def Process.initializeChannel (s : Process) (a hardwareConcurrency : Nat) :
    Option Process :=
  (WorkerPool.step s.pool (.start (concurrency hardwareConcurrency))).map fun pool =>
    { s with apiDL := true, replyPort := some a, pool }

/-- `ConcurrentNativeBinaryMessenger.instance`, a lazy static of each isolate. -/
def Process.touchInstance (s : Process) (a hardwareConcurrency : Nat) : Option Process :=
  if (s.isolates a).constructed then some s
  else (s.initializeChannel a hardwareConcurrency).map fun s =>
    s.setIsolate a { s.isolates a with constructed := true }

/-- `_seq++` and the new completer. -/
def Isolate.send (iso : Isolate) : Isolate :=
  { iso with seq := iso.seq + 1, resultCompleters := insert iso.seq iso.resultCompleters }

/-- The task of one `send`, with the message copied to `allocated`. -/
def sendTask (channel seq : Int) (message : Option (List UInt8)) (allocated : Nat) :
    TaskMessageWrapper :=
  match message with
  | none => ⟨channel, ⟨seq, 0, 0⟩⟩
  | some bytes => ⟨channel, ⟨seq, bytes.length, allocated⟩⟩

/-- `onReply`. Both branches remove the completer and complete it, if there is
one; a missing one fails the assert of debug builds. -/
def Isolate.onReply [Vm] (iso : Isolate) (w : Tagged MessageWrapper) : Isolate :=
  if w.val.seq ∈ iso.resultCompleters then
    -- an error of `asTypedList` comes before the completer is removed
    if w.val.throws then iso
    else
      { iso with
        resultCompleters := iso.resultCompleters.erase w.val.seq
        completed := iso.completed ++ [(w.val.seq, w)] }
  else { iso with assertFailed := true }

/-- `Dart_PostInteger_DL(replyPort_, ret)`. -/
def Process.post (s : Process) (w : Tagged MessageWrapper) : Process :=
  match s.replyPort with
  | none => s.callDL
  | some a =>
    s.callDL.setIsolate a { s.isolates a with replyPort := (s.isolates a).replyPort ++ [w] }

/-- A view is registered with the finalizer through a `_DL` pointer. -/
def Process.registerFinalizer (s : Process) (view : Option View) : Process :=
  match view with
  | none => s
  | some _ => s.callDL

/-- The calls of `replyMessageToDart` that a step of a request added. -/
def newCalls (before after : Request DirectByteBuffer) : List (NativeReply DirectByteBuffer) :=
  after.calls.drop before.calls.length

/-- `replyMessageToDart` would free the message once more. -/
def Handling.freesAgain (h : Handling) : Bool :=
  h.request.message.any (· != 0) && !h.request.calls.isEmpty

/-- `free(env->GetDirectBufferAddress(message))`. After the first time the block is that
of whoever allocated it since. -/
def Process.freeMessage (s : Process) (h : Handling) : Process :=
  { s with freedTwice := s.freedTwice || h.freesAgain }

def Process.replyMessageToDart (s : Process) (h : Handling) (fresh : MessageWrapper)
    (c : NativeReply DirectByteBuffer) : Process :=
  (s.freeMessage h).post ⟨h.tag, fresh.fill c.replyId c.reply⟩

def Process.setHandling (s : Process) (k : Nat) (h : Handling) : Process :=
  { s with handlings := s.handlings.set k h }

def Process.poolStep (s : Process) (e : WorkerPool.Event (Tagged TaskMessageWrapper)) :
    Option Process :=
  (WorkerPool.step s.pool e).map fun pool => { s with pool }

theorem sendTask_seq (channel seq : Int) (message : Option (List UInt8)) (allocated : Nat) :
    (sendTask channel seq message allocated).message.seq = seq := by
  cases message <;> rfl

@[simp] theorem registerFinalizer_isolates (s : Process) (v : Option View) :
    (s.registerFinalizer v).isolates = s.isolates := by
  cases v <;> rfl

@[simp] theorem registerFinalizer_pool (s : Process) (v : Option View) :
    (s.registerFinalizer v).pool = s.pool := by
  cases v <;> rfl

@[simp] theorem registerFinalizer_handlings (s : Process) (v : Option View) :
    (s.registerFinalizer v).handlings = s.handlings := by
  cases v <;> rfl

@[simp] theorem registerFinalizer_apiDL (s : Process) (v : Option View) :
    (s.registerFinalizer v).apiDL = s.apiDL := by
  cases v <;> rfl

@[simp] theorem registerFinalizer_replyPort (s : Process) (v : Option View) :
    (s.registerFinalizer v).replyPort = s.replyPort := by
  cases v <;> rfl

@[simp] theorem post_pool (s : Process) (w : Tagged MessageWrapper) :
    (s.post w).pool = s.pool := by
  unfold Process.post
  split <;> rfl

@[simp] theorem post_handlings (s : Process) (w : Tagged MessageWrapper) :
    (s.post w).handlings = s.handlings := by
  unfold Process.post
  split <;> rfl

@[simp] theorem post_apiDL (s : Process) (w : Tagged MessageWrapper) :
    (s.post w).apiDL = s.apiDL := by
  unfold Process.post
  split <;> rfl

@[simp] theorem post_replyPort (s : Process) (w : Tagged MessageWrapper) :
    (s.post w).replyPort = s.replyPort := by
  unfold Process.post
  split <;> simp_all [Process.callDL, Process.setIsolate]

@[simp] theorem registerFinalizer_freedTwice (s : Process) (v : Option View) :
    (s.registerFinalizer v).freedTwice = s.freedTwice := by
  cases v <;> rfl

@[simp] theorem post_freedTwice (s : Process) (w : Tagged MessageWrapper) :
    (s.post w).freedTwice = s.freedTwice := by
  unfold Process.post
  split <;> rfl

@[simp] theorem freeMessage_pool (s : Process) (h : Handling) :
    (s.freeMessage h).pool = s.pool := rfl

@[simp] theorem freeMessage_handlings (s : Process) (h : Handling) :
    (s.freeMessage h).handlings = s.handlings := rfl

@[simp] theorem freeMessage_isolates (s : Process) (h : Handling) :
    (s.freeMessage h).isolates = s.isolates := rfl

@[simp] theorem freeMessage_apiDL (s : Process) (h : Handling) :
    (s.freeMessage h).apiDL = s.apiDL := rfl

@[simp] theorem freeMessage_replyPort (s : Process) (h : Handling) :
    (s.freeMessage h).replyPort = s.replyPort := rfl

@[simp] theorem setHandling_pool (s : Process) (k : Nat) (h : Handling) :
    (s.setHandling k h).pool = s.pool := rfl

@[simp] theorem setHandling_isolates (s : Process) (k : Nat) (h : Handling) :
    (s.setHandling k h).isolates = s.isolates := rfl

@[simp] theorem setHandling_replyPort (s : Process) (k : Nat) (h : Handling) :
    (s.setHandling k h).replyPort = s.replyPort := rfl

@[simp] theorem setHandling_apiDL (s : Process) (k : Nat) (h : Handling) :
    (s.setHandling k h).apiDL = s.apiDL := rfl

@[simp] theorem setHandling_freedTwice (s : Process) (k : Nat) (h : Handling) :
    (s.setHandling k h).freedTwice = s.freedTwice := rfl

@[simp] theorem setIsolate_pool (s : Process) (a : Nat) (iso : Isolate) :
    (s.setIsolate a iso).pool = s.pool := rfl

@[simp] theorem setIsolate_handlings (s : Process) (a : Nat) (iso : Isolate) :
    (s.setIsolate a iso).handlings = s.handlings := rfl

@[simp] theorem setIsolate_apiDL (s : Process) (a : Nat) (iso : Isolate) :
    (s.setIsolate a iso).apiDL = s.apiDL := rfl

@[simp] theorem setIsolate_freedTwice (s : Process) (a : Nat) (iso : Isolate) :
    (s.setIsolate a iso).freedTwice = s.freedTwice := rfl

@[simp] theorem setIsolate_replyPort (s : Process) (a : Nat) (iso : Isolate) :
    (s.setIsolate a iso).replyPort = s.replyPort := rfl

def Isolate.deliver (iso : Isolate) (w : Tagged MessageWrapper) : Isolate :=
  { iso with replyPort := iso.replyPort ++ [w] }

/-- A posted wrapper joins the port of `replyPort_`, and nothing else changes in
any isolate. -/
theorem post_isolates {s : Process} {a : Nat} (w : Tagged MessageWrapper)
    (hp : s.replyPort = some a) :
    (s.post w).isolates = Function.update s.isolates a (Isolate.deliver (s.isolates a) w) := by
  simp [Process.post, hp, Process.setIsolate, Process.callDL, Isolate.deliver]

theorem post_nowhere {s : Process} (w : Tagged MessageWrapper) (hp : s.replyPort = none) :
    (s.post w).isolates = s.isolates := by
  simp [Process.post, hp, Process.callDL]

/-- A process that called a null pointer, popped an empty queue or freed a message
twice. It takes no further step here. -/
def Process.undefined (s : Process) : Bool := s.nullCall || s.pool.poppedEmpty || s.freedTwice

section Vm
variable [Vm]

theorem onReply_fields (iso : Isolate) (w : Tagged MessageWrapper) :
    (iso.onReply w).constructed = iso.constructed ∧ (iso.onReply w).replyPort = iso.replyPort ∧
      (iso.onReply w).seq = iso.seq := by
  unfold Isolate.onReply
  split
  · split <;> exact ⟨rfl, rfl, rfl⟩
  · exact ⟨rfl, rfl, rfl⟩

def step (s : Process) (e : Event) : Option Process :=
  if s.undefined then none else
  match e with
  | .newSynchronousMethodChannel _ => some s
  | .newConcurrentMethodChannel a messenger hw =>
    if messenger then some s else s.touchInstance a hw
  | .instance_ a hw => s.touchInstance a hw
  | .send a channel message allocated =>
    let iso := s.isolates a
    if iso.constructed then
      (s.setIsolate a iso.send).poolStep
        (.push ⟨⟨a, iso.seq⟩, sendTask channel iso.seq message allocated⟩)
    else none
  | .sendSynchronous _ result fresh => some (s.registerFinalizer (fresh.fill result).built)
  | .notifyOne woken => s.poolStep (.notifyOne woken)
  | .test i => s.poolStep (.test i)
  | .block i => s.poolStep (.block i)
  | .wake i => s.poolStep (.wake i)
  | .frontPop i => s.poolStep (.frontPop i)
  | .call i handler =>
    match s.pool.threads[i]? with
    | some (.holding task) =>
      let request := ConcurrentMessenger.handleMessageFromDart task.val.message.seq
        (some task.val.message.data) handler
      (s.poolStep (.call i)).map fun s =>
        { s with handlings := s.handlings ++ [⟨task.tag, i, request⟩] }
    | _ => none
  | .handle k e fresh =>
    match s.handlings[k]? with
    | some h =>
      (ConcurrentMessenger.step h.request e).map fun request =>
        (newCalls h.request request).foldl (fun s c => s.replyMessageToDart h fresh c)
          (s.setHandling k { h with request })
    | none => none
  | .finish i =>
    if s.handlings.all fun h => h.worker != i || h.request.frame == .returned then
      s.poolStep (.finish i)
    else none
  | .onReply a =>
    match (s.isolates a).replyPort with
    | w :: rest =>
      some ((s.setIsolate a ({ s.isolates a with replyPort := rest }.onReply w)).registerFinalizer
        w.val.built)
    | [] => none

/-- The events in which Dart code of isolate `a` reads `instance`. -/
def Event.Touches (a : Nat) : Event → Prop
  | .newConcurrentMethodChannel b messenger _ => b = a ∧ messenger = false
  | .instance_ b _ => b = a
  | _ => False

/-- The steps of the pool that no other event stands for. -/
def Event.scheduling : Event → Option (WorkerPool.Event (Tagged TaskMessageWrapper))
  | .notifyOne woken => some (.notifyOne woken)
  | .test i => some (.test i)
  | .block i => some (.block i)
  | .wake i => some (.wake i)
  | .frontPop i => some (.frontPop i)
  | .finish i => some (.finish i)
  | _ => none

/-- What the first use of `instance` in isolate `a` leaves behind. -/
def Process.constructed (s : Process) (a : Nat) (pool : Pool (Tagged TaskMessageWrapper)) : Process :=
  { s with
    apiDL := true
    replyPort := some a
    pool
    isolates := Function.update s.isolates a { s.isolates a with constructed := true } }

/-- Everything one step can do, with what was true before it. -/
inductive Moves (s : Process) : Event → Process → Prop where
  | newSynchronous (a : Nat) : Moves s (.newSynchronousMethodChannel a) s
  | withMessenger (a hw : Nat) : Moves s (.newConcurrentMethodChannel a true hw) s
  | touched {a : Nat} {e : Event} (reads : e.Touches a)
      (done : (s.isolates a).constructed = true) : Moves s e s
  | construct {a n : Nat} {e : Event} {pool : Pool (Tagged TaskMessageWrapper)}
      (reads : e.Touches a) (first : (s.isolates a).constructed = false)
      (start : WorkerPool.step s.pool (.start n) = some pool) : Moves s e (s.constructed a pool)
  | send {a : Nat} {channel : Int} {message : Option (List UInt8)} {allocated : Nat}
      {pool : Pool (Tagged TaskMessageWrapper)} (ready : (s.isolates a).constructed = true)
      (push : WorkerPool.step s.pool (.push ⟨⟨a, (s.isolates a).seq⟩,
        sendTask channel (s.isolates a).seq message allocated⟩) = some pool) :
      Moves s (.send a channel message allocated)
        { s.setIsolate a (s.isolates a).send with pool }
  | sendSynchronous (a : Nat) (result : Option DirectByteBuffer)
      (fresh : SynchronousResultWrapper) :
      Moves s (.sendSynchronous a result fresh) (s.registerFinalizer (fresh.fill result).built)
  | schedule {e : Event} {f : WorkerPool.Event (Tagged TaskMessageWrapper)}
      {pool : Pool (Tagged TaskMessageWrapper)} (is : e.scheduling = some f)
      (moves : WorkerPool.step s.pool f = some pool) : Moves s e { s with pool }
  | call {i : Nat} {handler : Handler} {task : Tagged TaskMessageWrapper}
      {pool : Pool (Tagged TaskMessageWrapper)}
      (held : s.pool.threads[i]? = some (.holding task))
      (moves : WorkerPool.step s.pool (.call i) = some pool) :
      Moves s (.call i handler)
        { s with
          pool
          handlings := s.handlings ++ [⟨task.tag, i,
            ConcurrentMessenger.handleMessageFromDart task.val.message.seq
              (some task.val.message.data) handler⟩] }
  | handle {k : Nat} {e : ConcurrentMessenger.Event DirectByteBuffer} {fresh : MessageWrapper}
      {h : Handling} {request : Request DirectByteBuffer} (at_ : s.handlings[k]? = some h)
      (moves : ConcurrentMessenger.step h.request e = some request)
      (quiet : e.isNative = false) (calls : request.calls = h.request.calls) :
      Moves s (.handle k e fresh) (s.setHandling k { h with request })
  | reply {k : Nat} {e : ConcurrentMessenger.Event DirectByteBuffer} {fresh : MessageWrapper}
      {h : Handling} {request : Request DirectByteBuffer} {r : Option DirectByteBuffer}
      (at_ : s.handlings[k]? = some h)
      (moves : ConcurrentMessenger.step h.request e = some request) (native : e.isNative = true)
      (calls : request.calls = h.request.calls ++ [⟨h.request.seq, r, h.request.message⟩]) :
      Moves s (.handle k e fresh)
        (((s.setHandling k { h with request }).freeMessage h).post
          ⟨h.tag, fresh.fill h.request.seq r⟩)
  | onReply {a : Nat} {w : Tagged MessageWrapper} {rest : List (Tagged MessageWrapper)}
      (port : (s.isolates a).replyPort = w :: rest) :
      Moves s (.onReply a)
        ((s.setIsolate a ({ s.isolates a with replyPort := rest }.onReply w)).registerFinalizer
          w.val.built)

theorem touch_moves {s t : Process} {a hw : Nat} {e : Event} (he : e.Touches a)
    (h : s.touchInstance a hw = some t) : Moves s e t := by
  unfold Process.touchInstance at h
  split at h
  · rename_i hc
    cases h
    exact .touched he hc
  · rename_i hc
    simp only [Process.initializeChannel, Option.map_map, Option.map_eq_some_iff] at h
    obtain ⟨pool, hp, rfl⟩ := h
    exact .construct he (by simpa using hc) hp

theorem schedule_moves {s t : Process} {e : Event}
    {f : WorkerPool.Event (Tagged TaskMessageWrapper)} (he : e.scheduling = some f)
    (h : s.poolStep f = some t) : Moves s e t := by
  obtain ⟨pool, hp, rfl⟩ := Option.map_eq_some_iff.mp h
  exact .schedule he hp

theorem step_moves {s t : Process} {e : Event} (h : step s e = some t) :
    s.undefined = false ∧ Moves s e t := by
  unfold step at h
  split at h
  · cases h
  rename_i hg
  refine ⟨by simpa using hg, ?_⟩
  cases e with
  | newSynchronousMethodChannel a => cases h; exact .newSynchronous a
  | newConcurrentMethodChannel a messenger hw =>
    cases messenger with
    | true => cases h; exact .withMessenger a hw
    | false => exact touch_moves ⟨rfl, rfl⟩ h
  | instance_ a hw => exact touch_moves (a := a) rfl h
  | send a channel message allocated =>
    simp only at h
    split at h
    · rename_i hc
      obtain ⟨pool, hp, rfl⟩ := Option.map_eq_some_iff.mp h
      exact .send hc hp
    · cases h
  | sendSynchronous a result fresh => cases h; exact .sendSynchronous a result fresh
  | notifyOne woken => exact schedule_moves rfl h
  | test i => exact schedule_moves rfl h
  | block i => exact schedule_moves rfl h
  | wake i => exact schedule_moves rfl h
  | frontPop i => exact schedule_moves rfl h
  | call i handler =>
    simp only at h
    split at h
    · rename_i task ht
      simp only [Process.poolStep, Option.map_map, Option.map_eq_some_iff] at h
      obtain ⟨pool, hp, rfl⟩ := h
      exact .call ht hp
    · cases h
  | handle k e fresh =>
    simp only at h
    split at h
    · rename_i hd hk
      obtain ⟨request, hr, rfl⟩ := Option.map_eq_some_iff.mp h
      obtain ⟨_, _, ⟨he, hq⟩ | ⟨he, r, hc⟩⟩ := ConcurrentMessenger.step_calls hr
      · have hn : newCalls hd.request request = [] := by simp [newCalls, hq]
        rw [hn]
        exact .handle hk hr he hq
      · have hn : newCalls hd.request request = [⟨hd.request.seq, r, hd.request.message⟩] := by
          simp [newCalls, hc]
        rw [hn]
        exact .reply hk hr he hc
    · cases h
  | finish i =>
    simp only at h
    split at h
    · exact schedule_moves rfl h
    · cases h
  | onReply a =>
    simp only at h
    split at h
    · rename_i hp
      cases h
      exact .onReply hp
    · cases h

end Vm

/-- The calls of `replyMessageToDart` in a step. -/
def Process.replies (s : Process) : Event → List (NativeReply DirectByteBuffer)
  | .handle k e _ =>
    match s.handlings[k]? with
    | some h => ((ConcurrentMessenger.step h.request e).map (newCalls h.request)).getD []
    | none => []
  | _ => []

theorem replies_handle {s : Process} {k : Nat} {h : Handling}
    {e : ConcurrentMessenger.Event DirectByteBuffer} {request : Request DirectByteBuffer}
    (new : List (NativeReply DirectByteBuffer)) (fresh : MessageWrapper)
    (at_ : s.handlings[k]? = some h) (moves : ConcurrentMessenger.step h.request e = some request)
    (calls : request.calls = h.request.calls ++ new) : s.replies (.handle k e fresh) = new := by
  simp [Process.replies, at_, moves, newCalls, calls]

end NativeChannel.ConcurrentChannel
