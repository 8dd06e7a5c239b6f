import Mathlib.Logic.Function.Basic

namespace NativeChannel.MessageHandlers

/-- Which of the two messengers, and of the two method channels over them. -/
inductive Kind where
  | concurrent
  | synchronous
  deriving DecidableEq

/-- An MD5 digest. -/
structure Digest where
  bytes : List (BitVec 8)
  length : bytes.length = 16
  deriving DecidableEq

/-- A Kotlin method channel once `init` has run, so that its id is never null. -/
structure MethodChannel where
  kind : Kind
  id : BitVec 64
  deriving DecidableEq

/-- The inner class of a method channel that holds the application's handler. -/
structure IncomingMethodCallHandler (η : Type) where
  handler : η

/-- The `messageHandlers` maps of the two messengers. -/
structure Messengers (η : Type) where
  messageHandlers : Kind → BitVec 64 → Option (IncomingMethodCallHandler η)

section Ids
variable {ν : Type} (utf8 : ν → List (BitVec 8)) (md5 : List (BitVec 8) → Digest)

/-- The loop of the Kotlin init blocks. `toLong` keeps the sign of a Byte. -/
def channelDigest (name : ν) : BitVec 64 :=
  ((md5 (utf8 name)).bytes.take 8).foldl
    (fun channelDigest i => channelDigest <<< 8 ||| i.signExtend 64) 0

def MethodChannel.init (kind : Kind) (name : ν) (id : Option (BitVec 64)) : MethodChannel :=
  match id with
  | none => ⟨kind, channelDigest utf8 md5 name⟩
  | some id => ⟨kind, id⟩

def concurrentMethodChannel (name : ν) (id : Option (BitVec 64)) : MethodChannel :=
  MethodChannel.init utf8 md5 .concurrent name id

def synchronousMethodChannel (name : ν) (id : Option (BitVec 64)) : MethodChannel :=
  MethodChannel.init utf8 md5 .synchronous name id

/-- `int.toSigned` of Dart. -/
def toSigned (x : BitVec 64) (width : Nat) : BitVec 64 :=
  let signMask := 1#64 <<< (width - 1)
  (x &&& (signMask - 1)) - (x &&& signMask)

/-- `_computeChannelId`, the same in both Dart channels. The bytes of a digest are
ints from 0 to 255 here. -/
def computeChannelId (name : ν) : BitVec 64 :=
  ((md5 (utf8 name)).bytes.take 8).foldl
    (fun channelDigest i => channelDigest <<< 8 ||| toSigned (i.setWidth 64) 8) 0

/-- A Dart method channel with the id it sends to. -/
structure DartMethodChannel where
  kind : Kind
  id : BitVec 64
  deriving DecidableEq

/-- `id ?? _computeChannelId(name)` of the Dart constructors. -/
def DartMethodChannel.init (kind : Kind) (name : ν) (id : Option (BitVec 64)) : DartMethodChannel :=
  ⟨kind, id.getD (computeChannelId utf8 md5 name)⟩

def dartConcurrentMethodChannel (name : ν) (id : Option (BitVec 64)) : DartMethodChannel :=
  DartMethodChannel.init utf8 md5 .concurrent name id

def dartSynchronousMethodChannel (name : ν) (id : Option (BitVec 64)) : DartMethodChannel :=
  DartMethodChannel.init utf8 md5 .synchronous name id

end Ids

section Maps
variable {η : Type}

def Messengers.initial : Messengers η := ⟨fun _ _ => none⟩

/-- `setMessageHandler` of either messenger. -/
def Messengers.setMessageHandler (s : Messengers η) (kind : Kind) (channel : BitVec 64)
    (handler : Option (IncomingMethodCallHandler η)) : Messengers η :=
  { s with
    messageHandlers :=
      Function.update s.messageHandlers kind
        (Function.update (s.messageHandlers kind) channel handler) }

/-- `setMethodCallHandler` of either method channel. -/
def MethodChannel.setMethodCallHandler (c : MethodChannel) (s : Messengers η)
    (handler : Option η) : Messengers η :=
  let msgHandler := handler.map IncomingMethodCallHandler.mk
  s.setMessageHandler c.kind c.id msgHandler

/-- The handler whose `onMessage` runs in `handleMessageFromDart`, if any. -/
def Messengers.handleMessageFromDart (s : Messengers η) (kind : Kind) (channel : BitVec 64) :
    Option (IncomingMethodCallHandler η) := s.messageHandlers kind channel

end Maps

end NativeChannel.MessageHandlers
