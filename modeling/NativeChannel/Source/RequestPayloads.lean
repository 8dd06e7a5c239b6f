import NativeChannel.Library.BlockHeap
import NativeChannel.Source.ConcurrentChannel
import NativeChannel.Source.MessageHandlers

namespace NativeChannel.RequestPayloads
open BlockHeap (Heap Block)
open ConcurrentChannel (Tag TaskMessageWrapper Handling)
open ConcurrentMessenger (Handler)
open MessageHandlers (Kind)
open Wrapper (DirectByteBuffer SynchronousResultWrapper MessageWrapper Vm)

/-- Whose a block of native memory is: one send's, on either channel, or of any other code
of the process, the wrappers of replies included. -/
inductive Owner where
  | request (tag : Tag)
  | synchronous (j : Nat)
  | other
  deriving DecidableEq

/-- A ByteBuffer of Java over native memory. -/
structure ByteBuffer where
  address : Nat
  capacity : Int
  deriving DecidableEq

/-- The arguments of a Java call made through JNI, which go by their position. -/
inductive JValue where
  | jlong (value : Int)
  | jobject (object : Option ByteBuffer)
  deriving DecidableEq

/-- The parameters of either `handleMessageFromDart`. Only the concurrent one has a seq. -/
structure Incoming where
  channel : Int
  message : Option ByteBuffer
  seq : Option Int
  deriving DecidableEq

/-- An object in a `messageHandlers` map. `method` says that it is the one of a method
channel. -/
structure MessageHandler where
  id : Nat
  method : Bool
  deriving DecidableEq

/-- History: what a `send` was called with, as the list was at that time. -/
structure Sent where
  channel : Int
  message : Option (List UInt8)
  deriving DecidableEq

/-- A call of `handleMessageFromDart`: its parameters and the handler whose `onMessage` it
runs. `registered` is history, of the map as it was. -/
structure Dispatch where
  incoming : Incoming
  handler : Option MessageHandler
  registered : Int → Option MessageHandler

/-- A call of `SynchronousNativeBinaryMessenger.send`, with its `msgPtr`. -/
structure SynchronousCall where
  sent : Sent
  msgPtr : Nat
  dispatch : Dispatch
  returned : Bool

/-- `lists` are the Uint8Lists of the Dart side, and `dispatches` belong to the handlings
of `channel`, one to each. `sent` is history. -/
structure Process where
  channel : ConcurrentChannel.Process
  heap : Heap Owner
  lists : List (List UInt8)
  messageHandlers : Kind → Int → Option MessageHandler
  sent : Tag → Option Sent
  dispatches : List Dispatch
  synchronousCalls : List SynchronousCall

/-- A message is null or the index of a list. `allocated` is what `allocate` returns. -/
inductive Event where
  | newUint8List (bytes : List UInt8)
  | mutate (l i : Nat) (byte : UInt8)
  | setMessageHandler (kind : Kind) (channel : Int) (handler : Option MessageHandler)
  | send (a : Nat) (channel : Int) (message : Option Nat) (allocated : Nat)
  | call (i : Nat)
  | handle (k : Nat) (e : ConcurrentMessenger.Event DirectByteBuffer) (fresh : MessageWrapper)
  | sendSynchronous (channel : Int) (message : Option Nat) (allocated : Nat)
  | returnSynchronous (j a : Nat) (result : Option DirectByteBuffer)
      (fresh : SynchronousResultWrapper)
  | channel (e : ConcurrentChannel.Event)
  | malloc (allocated size : Nat)
  | write (b : Block Owner) (address : Nat) (bytes : List UInt8)
  | free (b : Block Owner)

def Process.initial (memory : ByteMemory.Memory) : Process :=
  ⟨ConcurrentChannel.Process.initial, Heap.empty memory, [], fun _ _ => none, fun _ => none, [], []⟩

/-- `NewDirectByteBuffer`, which gives a buffer for any pointer and size. -/
def newDirectByteBuffer (address : Nat) (capacity : Int) : Option ByteBuffer :=
  some ⟨address, capacity⟩

/-- The arguments that the worker passes to `CallStaticVoidMethod`. -/
def workerArguments (msg : TaskMessageWrapper) : List JValue :=
  [.jlong msg.channel, .jobject (newDirectByteBuffer msg.message.data msg.message.length),
    .jlong msg.message.seq]

/-- The arguments that `SendSynchronousMessageToPlatform` passes to
`CallStaticObjectMethod`. -/
def synchronousArguments (channel length : Int) (data : Nat) : List JValue :=
  [.jlong channel, .jobject (newDirectByteBuffer data length)]

/-- `handleMessageFromDart(channel: Long, message: ByteBuffer?, seq: Long)`. -/
def concurrentParameters : List JValue → Option Incoming
  | [.jlong channel, .jobject message, .jlong seq] => some ⟨channel, message, some seq⟩
  | _ => none

/-- `handleMessageFromDart(channel: Long, message: ByteBuffer?)`. -/
def synchronousParameters : List JValue → Option Incoming
  | [.jlong channel, .jobject message] => some ⟨channel, message, none⟩
  | _ => none

/-- What the requests of the concurrent channel tell handlers apart by. -/
def MessageHandler.kind : Option MessageHandler → Handler
  | none => .absent
  | some handler => if handler.method then .method else .binary

/-- `setMessageHandler` of either messenger. -/
def Process.setMessageHandler (s : Process) (kind : Kind) (channel : Int)
    (handler : Option MessageHandler) : Process :=
  { s with
    messageHandlers :=
      Function.update s.messageHandlers kind
        (Function.update (s.messageHandlers kind) channel handler) }

/-- `messageHandlers[channel]`. -/
def Process.dispatch (s : Process) (kind : Kind) (incoming : Incoming) : Dispatch :=
  ⟨incoming, s.messageHandlers kind incoming.channel, s.messageHandlers kind⟩

/-- The bytes of the message as they are now. -/
def Process.read (s : Process) : Option Nat → Option (Option (List UInt8))
  | none => some none
  | some l => (s.lists[l]?).map some

/-- Both `send`s copy a message that is not null: they allocate as many bytes as it has
and set them. -/
def Process.copy (s : Process) (owner : Owner) (message : Option (List UInt8)) (allocated : Nat) :
    Option (Heap Owner) :=
  match message with
  | none => some s.heap
  | some bytes =>
    (s.heap.malloc allocated bytes.length owner).map fun heap => heap.write allocated bytes

/-- `msgPtr` and `length` of the synchronous `send`. -/
def msgPtr (message : Option (List UInt8)) (allocated : Nat) : Nat :=
  if message.isSome then allocated else 0

def length (message : Option (List UInt8)) : Nat := (message.map List.length).getD 0

/-- `free(env->GetDirectBufferAddress(message))` in `replyMessageToDart`. -/
def Process.freeMessage (s : Process) (message : Option Nat) : Option (Heap Owner) :=
  match message with
  | none => some s.heap
  | some address => s.heap.free address

/-- `free(msgPtr)` of the synchronous `send`, which an error of `asTypedList` leaves out. -/
def Process.freeMsgPtr [Vm] (s : Process) (msgPtr : Nat) (w : SynchronousResultWrapper) :
    Option (Heap Owner) :=
  if w.throws then some s.heap else s.heap.free msgPtr

/-- The other events of the channel neither read nor write a message. -/
def touchesMessage : ConcurrentChannel.Event → Bool
  | .send .. | .call .. | .handle .. | .sendSynchronous .. => true
  | _ => false

section Vm
variable [Vm]

/-- Nothing is known of a process that is undefined, nor of one that frees what is not
allocated. -/
def step (s : Process) (e : Event) : Option Process :=
  if s.channel.undefined then none else
  match e with
  | .newUint8List bytes => some { s with lists := s.lists ++ [bytes] }
  | .mutate l i byte => some { s with lists := s.lists.modify l fun bytes => bytes.set i byte }
  | .setMessageHandler kind channel handler =>
    some (s.setMessageHandler kind channel handler)
  | .send a channel message allocated =>
    let tag : Tag := ⟨a, (s.channel.isolates a).seq⟩
    (s.read message).bind fun bytes =>
      (s.copy (.request tag) bytes allocated).bind fun heap =>
        (ConcurrentChannel.step s.channel (.send a channel bytes allocated)).map fun channels =>
          { s with
            channel := channels
            heap
            sent := Function.update s.sent tag (some ⟨channel, bytes⟩) }
  | .call i =>
    match s.channel.pool.threads[i]? with
    | some (.holding task) =>
      (concurrentParameters (workerArguments task.val)).bind fun incoming =>
        let dispatch := s.dispatch .concurrent incoming
        (ConcurrentChannel.step s.channel (.call i (MessageHandler.kind dispatch.handler))).map
          fun channel => { s with channel, dispatches := s.dispatches ++ [dispatch] }
    | _ => none
  | .handle k e fresh =>
    match s.channel.handlings[k]? with
    | some h =>
      (if e.isNative then s.freeMessage h.request.message else some s.heap).bind fun heap =>
        (ConcurrentChannel.step s.channel (.handle k e fresh)).map fun channel =>
          { s with channel, heap }
    | none => none
  | .sendSynchronous channel message allocated =>
    (s.read message).bind fun bytes =>
      (s.copy (.synchronous s.synchronousCalls.length) bytes allocated).bind fun heap =>
        (synchronousParameters (synchronousArguments channel (length bytes)
          (msgPtr bytes allocated))).map fun incoming =>
          { s with
            heap
            synchronousCalls := s.synchronousCalls ++ [⟨⟨channel, bytes⟩, msgPtr bytes allocated,
              s.dispatch .synchronous incoming, false⟩] }
  | .returnSynchronous j a result fresh =>
    match s.synchronousCalls[j]? with
    | some c =>
      if c.returned then none
      else
        (s.freeMsgPtr c.msgPtr (fresh.fill result)).bind fun heap =>
          (ConcurrentChannel.step s.channel (.sendSynchronous a result fresh)).map fun channel =>
            { s with
              channel
              heap
              synchronousCalls := s.synchronousCalls.set j { c with returned := true } }
    | none => none
  | .channel e =>
    if touchesMessage e then none
    else (ConcurrentChannel.step s.channel e).map fun channel => { s with channel }
  | .malloc allocated size =>
    (s.heap.malloc allocated size .other).map fun heap => { s with heap }
  | .write b address bytes =>
    if b ∈ s.heap.blocks ∧ b.owner = .other ∧ b.start ≤ address ∧
        address + bytes.length ≤ b.start + b.size then
      some { s with heap := s.heap.write address bytes }
    else none
  | .free b =>
    if b ∈ s.heap.blocks ∧ b.owner = .other then
      (s.heap.free b.start).map fun heap => { s with heap }
    else none

end Vm

/-- What the worker's arguments arrive as. -/
def incomingTask (msg : TaskMessageWrapper) : Incoming :=
  ⟨msg.channel, some ⟨msg.message.data, msg.message.length⟩, some msg.message.seq⟩

def incomingSynchronous (channel : Int) (message : Option (List UInt8)) (allocated : Nat) :
    Incoming :=
  ⟨channel, some ⟨msgPtr message allocated, length message⟩, none⟩

section Moves
variable [Vm]

/-- Everything one step can do, with what was true before it. -/
inductive Moves (s : Process) : Event → Process → Prop where
  | newUint8List (bytes : List UInt8) :
      Moves s (.newUint8List bytes) { s with lists := s.lists ++ [bytes] }
  | mutate (l i : Nat) (byte : UInt8) :
      Moves s (.mutate l i byte) { s with lists := s.lists.modify l fun bytes => bytes.set i byte }
  | setMessageHandler (kind : Kind) (channel : Int) (handler : Option MessageHandler) :
      Moves s (.setMessageHandler kind channel handler)
        (s.setMessageHandler kind channel handler)
  | send {a : Nat} {channel : Int} {message : Option Nat} {allocated : Nat}
      {bytes : Option (List UInt8)} {heap : Heap Owner} {t : ConcurrentChannel.Process}
      (read : s.read message = some bytes)
      (copied : s.copy (.request ⟨a, (s.channel.isolates a).seq⟩) bytes allocated = some heap)
      (moves : ConcurrentChannel.Moves s.channel (.send a channel bytes allocated) t) :
      Moves s (.send a channel message allocated) { s with
        channel := t
        heap
        sent := Function.update s.sent ⟨a, (s.channel.isolates a).seq⟩ (some ⟨channel, bytes⟩) }
  | call {i : Nat} {task : ConcurrentChannel.Tagged TaskMessageWrapper}
      {t : ConcurrentChannel.Process} (held : s.channel.pool.threads[i]? = some (.holding task))
      (moves : ConcurrentChannel.Moves s.channel (.call i (MessageHandler.kind
        (s.dispatch .concurrent (incomingTask task.val)).handler)) t) :
      Moves s (.call i) { s with
        channel := t
        dispatches := s.dispatches ++ [s.dispatch .concurrent (incomingTask task.val)] }
  | handle {k : Nat} {e : ConcurrentMessenger.Event DirectByteBuffer} {fresh : MessageWrapper}
      {h : Handling} {heap : Heap Owner} {t : ConcurrentChannel.Process}
      (at_ : s.channel.handlings[k]? = some h)
      (freed : (if e.isNative then s.freeMessage h.request.message else some s.heap) = some heap)
      (moves : ConcurrentChannel.Moves s.channel (.handle k e fresh) t) :
      Moves s (.handle k e fresh) { s with channel := t, heap }
  | sendSynchronous {channel : Int} {message : Option Nat} {allocated : Nat}
      {bytes : Option (List UInt8)} {heap : Heap Owner} (read : s.read message = some bytes)
      (copied : s.copy (.synchronous s.synchronousCalls.length) bytes allocated = some heap) :
      Moves s (.sendSynchronous channel message allocated) { s with
        heap
        synchronousCalls := s.synchronousCalls ++ [⟨⟨channel, bytes⟩, msgPtr bytes allocated,
          s.dispatch .synchronous (incomingSynchronous channel bytes allocated), false⟩] }
  | returnSynchronous {j a : Nat} {result : Option DirectByteBuffer}
      {fresh : SynchronousResultWrapper} {c : SynchronousCall} {heap : Heap Owner}
      {t : ConcurrentChannel.Process} (at_ : s.synchronousCalls[j]? = some c)
      (running : c.returned = false)
      (freed : s.freeMsgPtr c.msgPtr (fresh.fill result) = some heap)
      (moves : ConcurrentChannel.Moves s.channel (.sendSynchronous a result fresh) t) :
      Moves s (.returnSynchronous j a result fresh) { s with
        channel := t
        heap
        synchronousCalls := s.synchronousCalls.set j { c with returned := true } }
  | channel {e : ConcurrentChannel.Event} {t : ConcurrentChannel.Process}
      (apart : touchesMessage e = false) (moves : ConcurrentChannel.Moves s.channel e t) :
      Moves s (.channel e) { s with channel := t }
  | malloc {allocated size : Nat} {heap : Heap Owner}
      (allocates : s.heap.malloc allocated size .other = some heap) :
      Moves s (.malloc allocated size) { s with heap }
  | write {b : Block Owner} {address : Nat} {bytes : List UInt8} (has : b ∈ s.heap.blocks)
      (own : b.owner = .other) (from_ : b.start ≤ address)
      (fits : address + bytes.length ≤ b.start + b.size) :
      Moves s (.write b address bytes) { s with heap := s.heap.write address bytes }
  | free {b : Block Owner} {heap : Heap Owner} (has : b ∈ s.heap.blocks) (own : b.owner = .other)
      (frees : s.heap.free b.start = some heap) : Moves s (.free b) { s with heap }

theorem step_moves {s t : Process} {e : Event} (h : step s e = some t) : Moves s e t := by
  unfold step at h
  split at h
  · cases h
  cases e with
  | newUint8List bytes =>
    cases h
    exact .newUint8List bytes
  | mutate l i byte =>
    cases h
    exact .mutate l i byte
  | setMessageHandler kind channel handler =>
    cases h
    exact .setMessageHandler kind channel handler
  | send a channel message allocated =>
    obtain ⟨bytes, hr, h⟩ := Option.bind_eq_some_iff.mp h
    obtain ⟨heap, hc, h⟩ := Option.bind_eq_some_iff.mp h
    obtain ⟨u, hu, rfl⟩ := Option.map_eq_some_iff.mp h
    exact .send hr hc (ConcurrentChannel.step_moves hu).2
  | call i =>
    simp only at h
    split at h
    · rename_i task ht
      obtain ⟨incoming, hi, h⟩ := Option.bind_eq_some_iff.mp h
      cases hi
      obtain ⟨u, hu, rfl⟩ := Option.map_eq_some_iff.mp h
      exact .call ht (ConcurrentChannel.step_moves hu).2
    · cases h
  | handle k e fresh =>
    simp only at h
    split at h
    · rename_i hd hk
      obtain ⟨heap, hf, h⟩ := Option.bind_eq_some_iff.mp h
      obtain ⟨u, hu, rfl⟩ := Option.map_eq_some_iff.mp h
      exact .handle hk hf (ConcurrentChannel.step_moves hu).2
    · cases h
  | sendSynchronous channel message allocated =>
    obtain ⟨bytes, hr, h⟩ := Option.bind_eq_some_iff.mp h
    obtain ⟨heap, hc, h⟩ := Option.bind_eq_some_iff.mp h
    obtain ⟨incoming, hi, rfl⟩ := Option.map_eq_some_iff.mp h
    cases hi
    exact .sendSynchronous hr hc
  | returnSynchronous j a result fresh =>
    simp only at h
    split at h
    · rename_i c hj
      split at h
      · cases h
      rename_i hrun
      obtain ⟨heap, hf, h⟩ := Option.bind_eq_some_iff.mp h
      obtain ⟨u, hu, rfl⟩ := Option.map_eq_some_iff.mp h
      exact .returnSynchronous hj (by simpa using hrun) hf (ConcurrentChannel.step_moves hu).2
    · cases h
  | channel e =>
    simp only at h
    split at h
    · cases h
    rename_i he
    obtain ⟨u, hu, rfl⟩ := Option.map_eq_some_iff.mp h
    exact .channel (by simpa using he) (ConcurrentChannel.step_moves hu).2
  | malloc allocated size =>
    obtain ⟨heap, hm, rfl⟩ := Option.map_eq_some_iff.mp h
    exact .malloc hm
  | write b address bytes =>
    simp only at h
    split at h
    · rename_i hb
      cases h
      exact .write hb.1 hb.2.1 hb.2.2.1 hb.2.2.2
    · cases h
  | free b =>
    simp only at h
    split at h
    · rename_i hb
      obtain ⟨heap, hf, rfl⟩ := Option.map_eq_some_iff.mp h
      exact .free hb.1 hb.2 hf
    · cases h

end Moves

end NativeChannel.RequestPayloads
