import Mathlib.Data.List.Pairwise
import NativeChannel.Library.ByteMemory

namespace BlockHeap
open ByteMemory

variable {ω : Type*}

/-- A block that `malloc` handed out. `owner` is history, of who asked for it. -/
structure Block (ω : Type*) where
  start : Nat
  size : Nat
  owner : ω
  deriving DecidableEq

/-- The addresses a block takes up. An empty one takes up an address too, so that no two
blocks start at the same. -/
def Block.extent (b : Block ω) : Nat := max b.size 1

def Block.Apart (b c : Block ω) : Prop := ByteMemory.Apart b.start b.extent c.start c.extent

instance (b c : Block ω) : Decidable (b.Apart c) :=
  inferInstanceAs (Decidable (ByteMemory.Apart ..))

/-- The memory and the blocks in use. -/
structure Heap (ω : Type*) where
  memory : Memory
  blocks : List (Block ω)
  nonNull : ∀ b ∈ blocks, b.start ≠ 0
  apart : blocks.Pairwise Block.Apart

def Heap.empty (memory : Memory) : Heap ω := ⟨memory, [], nofun, .nil⟩

/-- `malloc`, which returns `start`. -/
def Heap.malloc (h : Heap ω) (start size : Nat) (owner : ω) : Option (Heap ω) :=
  if hb : start ≠ 0 ∧ ∀ b ∈ h.blocks, Block.Apart ⟨start, size, owner⟩ b then
    some {
      memory := h.memory
      blocks := ⟨start, size, owner⟩ :: h.blocks
      nonNull := List.forall_mem_cons.mpr ⟨hb.1, h.nonNull⟩
      apart := List.pairwise_cons.mpr ⟨hb.2, h.apart⟩ }
  else none

/-- `free`. Where no block starts at the pointer, what it does is undefined. -/
def Heap.free (h : Heap ω) (p : Nat) : Option (Heap ω) :=
  if p = 0 then some h
  else if h.blocks.any fun b => b.start == p then
    some {
      memory := h.memory
      blocks := h.blocks.filter fun b => b.start != p
      nonNull := fun b hb => h.nonNull b (List.mem_filter.mp hb).1
      apart := h.apart.filter _ }
  else none

def Heap.write (h : Heap ω) (a : Nat) (bytes : List UInt8) : Heap ω :=
  { h with memory := storeBytes h.memory a bytes }

/-- The owner has a block at `p` with these bytes in it. -/
structure Heap.Holds (h : Heap ω) (owner : ω) (p : Nat) (bytes : List UInt8) : Prop where
  block : ⟨p, bytes.length, owner⟩ ∈ h.blocks
  content : bytesAt h.memory p bytes.length = bytes

/-- Whatever the owner has in its blocks stays there. -/
def Heap.Keeps (h h' : Heap ω) (owner : ω) : Prop :=
  ∀ p bytes, h.Holds owner p bytes → h'.Holds owner p bytes

theorem Heap.Keeps.refl (h : Heap ω) (owner : ω) : h.Keeps h owner := fun _ _ hp => hp

theorem Heap.Keeps.trans {h h' h'' : Heap ω} {owner : ω} (hk : h.Keeps h' owner)
    (hk' : h'.Keeps h'' owner) : h.Keeps h'' owner :=
  fun p bytes hp => hk' p bytes (hk p bytes hp)

theorem Block.Apart.symm {b c : Block ω} (h : b.Apart c) : c.Apart b := Or.symm h

instance : Std.Symm (@Block.Apart ω) := ⟨fun _ _ h => h.symm⟩

theorem Heap.apart_of_ne (h : Heap ω) {b c : Block ω} (hb : b ∈ h.blocks) (hc : c ∈ h.blocks)
    (hne : b ≠ c) : b.Apart c :=
  h.apart.forall hb hc hne

/-- A block is known by where it starts. -/
theorem Heap.block_unique (h : Heap ω) {b c : Block ω} (hb : b ∈ h.blocks) (hc : c ∈ h.blocks)
    (hstart : b.start = c.start) : b = c := by
  by_contra hne
  have hapart := h.apart_of_ne hb hc hne
  unfold Block.Apart ByteMemory.Apart Block.extent at hapart
  omega

section Operations
variable {h h' : Heap ω} {start size : Nat} {owner : ω}

theorem malloc_spec (hm : h.malloc start size owner = some h') :
    h'.memory = h.memory ∧ h'.blocks = ⟨start, size, owner⟩ :: h.blocks ∧
      ∀ b ∈ h.blocks, Block.Apart ⟨start, size, owner⟩ b := by
  unfold Heap.malloc at hm
  split at hm
  · rename_i hb
    cases hm
    exact ⟨rfl, rfl, hb.2⟩
  · cases hm

theorem malloc_keeps (hm : h.malloc start size owner = some h') (other : ω) :
    h.Keeps h' other := by
  obtain ⟨hmemory, hblocks, _⟩ := malloc_spec hm
  intro p bytes hp
  refine ⟨?_, ?_⟩
  · rw [hblocks]
    exact List.mem_cons_of_mem _ hp.block
  · rw [hmemory]
    exact hp.content

/-- Bytes written inside one owner's block are not another owner's. -/
theorem write_keeps {b : Block ω} {a : Nat} {bytes : List UInt8} {other : ω} (hb : b ∈ h.blocks)
    (ha : b.start ≤ a) (hfits : a + bytes.length ≤ b.start + b.size) (hne : b.owner ≠ other) :
    h.Keeps (h.write a bytes) other := by
  intro p content hp
  refine ⟨hp.block, ?_⟩
  have hbc : b ≠ ⟨p, content.length, other⟩ := fun he => hne (he ▸ rfl)
  have hapart := h.apart_of_ne hb hp.block hbc
  refine (bytesAt_storeBytes_apart h.memory ?_).trans hp.content
  unfold Block.Apart ByteMemory.Apart Block.extent at hapart
  unfold ByteMemory.Apart
  simp only at hapart
  omega

/-- Allocating a block and filling it. -/
theorem copy_holds {bytes : List UInt8} (hm : h.malloc start bytes.length owner = some h') :
    (h'.write start bytes).Holds owner start bytes := by
  obtain ⟨_, hblocks, _⟩ := malloc_spec hm
  refine ⟨?_, bytesAt_storeBytes _ _ _⟩
  change _ ∈ h'.blocks
  rw [hblocks]
  exact List.mem_cons_self

theorem copy_keeps {bytes : List UInt8} {other : ω}
    (hm : h.malloc start bytes.length owner = some h') (hne : owner ≠ other) :
    h.Keeps (h'.write start bytes) other := by
  obtain ⟨_, hblocks, _⟩ := malloc_spec hm
  have hb : ⟨start, bytes.length, owner⟩ ∈ h'.blocks := by
    rw [hblocks]
    exact List.mem_cons_self
  exact (malloc_keeps hm other).trans (write_keeps hb (Nat.le_refl _) (Nat.le_refl _) hne)

theorem free_null : h.free 0 = some h := if_pos rfl

/-- Freeing one owner's block leaves those of the others. -/
theorem free_keeps {b : Block ω} {other : ω} (hf : h.free b.start = some h') (hb : b ∈ h.blocks)
    (hne : b.owner ≠ other) : h.Keeps h' other := by
  unfold Heap.free at hf
  rw [if_neg (h.nonNull b hb)] at hf
  split at hf
  · cases hf
    intro p bytes hp
    refine ⟨List.mem_filter.mpr ⟨hp.block, ?_⟩, hp.content⟩
    simp only [bne_iff_ne]
    intro hstart
    have hsame := h.block_unique hp.block hb hstart
    exact hne (by rw [← hsame])
  · cases hf

end Operations

end BlockHeap
