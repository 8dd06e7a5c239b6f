import NativeChannel.Source.Wrapper

namespace NativeChannel.Framing
open ByteMemory Wrapper

theorem view_bytes (b : DirectByteBuffer) (m : Memory) : b.view.bytes m = b.bytes m := by
  simp [View.bytes, DirectByteBuffer.view, DirectByteBuffer.bytes]

/-- A filled wrapper shows its reply, unless the reply is null and the memory of
the wrapper held some other data before. -/
theorem received_fill (w : MessageWrapper) (replyId : Int) (reply : Option DirectByteBuffer) :
    (w.fill replyId reply).received = reply.map DirectByteBuffer.view ↔
      reply.isSome = true ∨ w.data = 0 := by
  cases reply with
  | none =>
    by_cases hz : w.data = 0 <;>
      simp [MessageWrapper.fill, MessageWrapper.received, MessageWrapper.isNull, hz]
  | some b =>
    have hb := b.nonNull
    simp [MessageWrapper.fill, MessageWrapper.received, MessageWrapper.isNull, hb,
      MessageWrapper.view, DirectByteBuffer.view]

theorem received_fill_result (w : SynchronousResultWrapper) (result : Option DirectByteBuffer) :
    (w.fill result).received = result.map DirectByteBuffer.view ↔
      result.isSome = true ∨ w.data = 0 := by
  cases result with
  | none =>
    by_cases hz : w.data = 0 <;>
      simp [SynchronousResultWrapper.fill, SynchronousResultWrapper.received,
        SynchronousResultWrapper.isNull, hz]
  | some b =>
    have hb := b.nonNull
    simp [SynchronousResultWrapper.fill, SynchronousResultWrapper.received,
      SynchronousResultWrapper.isNull, hb, SynchronousResultWrapper.view, DirectByteBuffer.view]

end NativeChannel.Framing
