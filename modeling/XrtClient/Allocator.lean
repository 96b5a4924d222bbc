import XrtClient.Basic
import Mathlib.Data.List.Perm.Basic
import Mathlib.Algebra.Order.BigOperators.Group.List
import Mathlib.Order.Interval.Finset.Nat
import Mathlib.Algebra.Order.Ring.Nat

/-! # The tensor allocator

`TensorAllocator` caches host tensor buffers by `AllocKey`, their alignment and rounded size.
`AllocateRaw` hands out a cached block of the key if there is one and otherwise trims the cache
and makes a new block; `DeallocateRaw` finds the block's node through the header stored before
the user memory and caches the block, or frees it when the key's size reaches `max_size_`.
The nodes of `alloc_list_` are kept in least-recently-used order and are never erased. A block
given back is the first one the next `AllocateRaw` of its key hands out.

The model is a state machine over every sequence of calls. Besides the allocator's fields it
keeps the allocations of `TensorAllocatorTraits` not yet freed, each with the node pointer
`NewBlock` stored in it, and a run keeps the pointers handed out and not yet given back.
Modelled from the spec: `aligned_alloc` (the C library, not in this repository) returns memory
of the size asked, at the alignment asked, within the 64-bit address space and apart from every
live allocation, a request of zero bytes getting an address of its own; the address it returns
is an argument of the call. `size_` and the sums `NewBlock` and `TrimCache` compute are
`size_t`s, taken modulo `2^64` as the code takes them. A request whose header area and rounded
size reach `2^64` (`AllocatorEvent.fitsSizeT`) makes `NewBlock` ask for their sum modulo
`2^64`, an allocation too small for the block.
-/

namespace XrtClient

/-- `TensorAllocator::AllocKey`. -/
structure AllocKey where
  alignment : Nat
  numBytes : Nat
  deriving DecidableEq, Repr

/-- `TensorAllocator::AllocBlocks`, a node of `alloc_list_`: its key and its cached blocks, the
back of the vector first. `id` names the node, which `allocs_` and the block headers point to. -/
structure AllocBlocks where
  id : Nat
  allocKey : AllocKey
  blocks : List Nat
  deriving DecidableEq, Repr

/-- A live allocation of `TensorAllocatorTraits::allocate`: its address, the key of the node
whose `NewBlock` made it, and the node pointer `NewBlock` stored right before the user memory. -/
structure SystemBlock where
  base : Nat
  allocKey : AllocKey
  header : Nat
  deriving DecidableEq, Repr

/-- `alloc_blocks->blocks.push_back(ptr)`, where `alloc_blocks` is the node named `id`. -/
def AllocBlocks.pushBlock (id ptr : Nat) (entry : AllocBlocks) : AllocBlocks :=
  if entry.id = id then { entry with blocks := ptr :: entry.blocks } else entry

/-- `sizeof(void*)`. -/
def pointerSize : Nat := 8

/-- `size_t` addition. -/
def sizeTAdd (a b : Nat) : Nat := (a + b) % 2 ^ 64

/-- `size_t` subtraction. -/
def sizeTSub (a b : Nat) : Nat := (a + (2 ^ 64 - b % 2 ^ 64)) % 2 ^ 64

theorem sizeTAdd_of_lt {a b : Nat} (h : a + b < 2 ^ 64) : sizeTAdd a b = a + b :=
  Nat.mod_eq_of_lt h

theorem sizeTSub_of_le {a b : Nat} (hb : b ≤ a) (ha : a < 2 ^ 64) : sizeTSub a b = a - b := by
  unfold sizeTSub
  omega

namespace SystemBlock

/-- The size `NewBlock` asks for: the header area, then the user memory. -/
def size (block : SystemBlock) : Nat := sizeTAdd block.allocKey.alignment block.allocKey.numBytes

/-- The pointer `NewBlock` hands out, past the header area. -/
def ptr (block : SystemBlock) : Nat := block.base + block.allocKey.alignment

/-- Two allocations that do not overlap. -/
def Apart (first second : SystemBlock) : Prop :=
  first.base + first.size ≤ second.base ∨ second.base + second.size ≤ first.base

/-- An allocation `NewBlock` made for a request that fits `size_t`: at a nonzero address, at its
alignment of at least a pointer, holding the header area and the rounded size, within the
address space. -/
def Placed (block : SystemBlock) : Prop :=
  0 < block.base ∧ pointerSize ≤ block.allocKey.alignment ∧ block.base % block.allocKey.alignment = 0 ∧
    block.allocKey.alignment + block.allocKey.numBytes < 2 ^ 64 ∧ block.base + block.size ≤ 2 ^ 64

end SystemBlock

/-- What `NewBlock` and `FreeBlock` change: `size_`, and the live allocations. -/
structure Heap where
  size : Nat
  live : List SystemBlock
  deriving DecidableEq, Repr

/-- The allocator's fields `max_size_`, `alloc_list_` (most recently used first) and `allocs_`,
with its `size_` beside the live allocations. -/
structure AllocatorState where
  maxSize : Nat
  allocList : List AllocBlocks
  allocs : List (AllocKey × Nat)
  heap : Heap
  deriving DecidableEq, Repr

/-- Modelled from XLA's `RoundUpTo` (not under src/): `CeilOfRatio(value, divisor) * divisor`
in `size_t`. -/
def roundUpTo (value divisor : Nat) : Nat :=
  ((value / divisor + if value % divisor = 0 then 0 else 1) * divisor) % 2 ^ 64

namespace Heap

/-- Whether `TensorAllocatorTraits::allocate(size, alignment)` may return `base`: a nonzero
address at the alignment, for a size that is a multiple of it, within the address space and
apart from every live allocation; a zero size is taken as some bytes. -/
def allocatable (heap : Heap) (base size alignment : Nat) : Bool :=
  decide (0 < base ∧ base % alignment = 0 ∧ size % alignment = 0 ∧ base + max size 1 ≤ 2 ^ 64 ∧
    ∀ block ∈ heap.live, base + max size 1 ≤ block.base ∨ block.base + max block.size 1 ≤ base)

/-- `NewBlock` for the node `entry`, `TensorAllocatorTraits::allocate` returning `base`. -/
def newBlock (heap : Heap) (entry : AllocBlocks) (base : Nat) : Option (Heap × Nat) :=
  if heap.allocatable base (sizeTAdd entry.allocKey.alignment entry.allocKey.numBytes)
      entry.allocKey.alignment then
    some (⟨sizeTAdd heap.size entry.allocKey.numBytes, heap.live ++ [⟨base, entry.allocKey, entry.id⟩]⟩,
      base + entry.allocKey.alignment)
  else none

/-- `FreeBlock(ptr, alloc_blocks)`, `allocKey` being the node's key. -/
def freeBlock (heap : Heap) (ptr : Nat) (allocKey : AllocKey) : Heap :=
  ⟨sizeTSub heap.size allocKey.numBytes, heap.live.filter (·.base ≠ ptr - allocKey.alignment)⟩

end Heap

/-- The inner loop of `TrimCache` over one node's blocks, the back first. -/
def trimBlocks (maxSize numBytes : Nat) (allocKey : AllocKey) : Heap → List Nat → Heap × List Nat
  | heap, [] => (heap, [])
  | heap, ptr :: rest =>
      if sizeTAdd heap.size numBytes > maxSize then
        trimBlocks maxSize numBytes allocKey (heap.freeBlock ptr allocKey) rest
      else (heap, ptr :: rest)

/-- `TrimCache(num_bytes)`: the nodes from the least recently used on, while the cache is too
big. -/
def trimCache (maxSize numBytes : Nat) (heap : Heap) (allocList : List AllocBlocks) :
    Heap × List AllocBlocks :=
  allocList.foldr (fun entry acc =>
    if sizeTAdd acc.1.size numBytes > maxSize then
      let trimmed := trimBlocks maxSize numBytes entry.allocKey acc.1 entry.blocks
      (trimmed.1, { entry with blocks := trimmed.2 } :: acc.2)
    else (acc.1, entry :: acc.2)) (heap, [])

namespace AllocatorState

/-- The end of `AllocateRaw` without a cached block: `TrimCache(num_bytes)`, then `NewBlock` for
the node `entry`, which stands at the front of `alloc_list_` ahead of `rest`. -/
def refill (s : AllocatorState) (entry : AllocBlocks) (rest : List AllocBlocks) (base : Nat) :
    Option (AllocatorState × Nat) :=
  let trimmed := trimCache s.maxSize entry.allocKey.numBytes s.heap (entry :: rest)
  (trimmed.1.newBlock entry base).map fun result =>
    ({ s with allocList := trimmed.2, heap := result.1 }, result.2)

/-- `AllocateRaw(alignment, num_bytes)`; `base` is what `TensorAllocatorTraits::allocate`
returns if the call makes a new block. -/
def allocateRaw (s : AllocatorState) (alignment numBytes base : Nat) :
    Option (AllocatorState × Nat) :=
  let alignment := max alignment pointerSize
  let numBytes := roundUpTo numBytes alignment
  let allocKey : AllocKey := ⟨alignment, numBytes⟩
  match s.allocs.lookup allocKey with
  | some id =>
      match s.allocList.find? (·.id = id) with
      | some entry =>
          let rest := s.allocList.filter (·.id ≠ id)
          match entry.blocks with
          | ptr :: blocks => some ({ s with allocList := { entry with blocks := blocks } :: rest }, ptr)
          | [] => s.refill entry rest base
      | none => none
  | none =>
      let entry : AllocBlocks := ⟨s.allocList.length, allocKey, []⟩
      { s with allocs := s.allocs ++ [(allocKey, entry.id)] }.refill entry s.allocList base

/-- `DeallocateRaw(ptr)`. The node pointer before the user memory is the header of the live
allocation whose pointer `ptr` is; reading it for any other pointer is undefined. -/
def deallocateRaw (s : AllocatorState) (ptr : Nat) : Option AllocatorState :=
  if ptr = 0 then some s
  else match s.heap.live.find? (·.ptr = ptr) with
    | none => none
    | some block =>
        match s.allocList.find? (·.id = block.header) with
        | none => none
        | some entry =>
            if entry.allocKey.numBytes < s.maxSize then
              some { s with allocList := s.allocList.map (AllocBlocks.pushBlock entry.id ptr) }
            else some { s with heap := s.heap.freeBlock ptr entry.allocKey }

end AllocatorState

/-- A call of the allocator: `AllocateRaw`, with the address `TensorAllocatorTraits::allocate`
returns should it be called, or `DeallocateRaw`. -/
inductive AllocatorEvent where
  | allocateRaw (alignment numBytes base : Nat)
  | deallocateRaw (ptr : Nat)
  deriving DecidableEq, Repr

/-- Whether the block `NewBlock` would make for the call has a size `size_t` holds: its header
area and rounded size below `2^64`. -/
def AllocatorEvent.fitsSizeT : AllocatorEvent → Bool
  | .allocateRaw alignment numBytes _ =>
      decide (max alignment pointerSize + roundUpTo numBytes (max alignment pointerSize) < 2 ^ 64)
  | .deallocateRaw _ => true

/-- The allocator and the pointers it has handed out and not had back. -/
structure AllocatorRun where
  state : AllocatorState
  outstanding : List Nat
  deriving DecidableEq, Repr

namespace AllocatorRun

/-- The allocator of `TensorAllocator::Get`, before any call. -/
def init (maxSize : Nat) : AllocatorRun := ⟨⟨maxSize, [], [], ⟨0, []⟩⟩, []⟩

/-- One call; a `DeallocateRaw` is of a pointer handed out and not yet given back. -/
def step (r : AllocatorRun) : AllocatorEvent → Option AllocatorRun
  | .allocateRaw alignment numBytes base =>
      (r.state.allocateRaw alignment numBytes base).map fun result => ⟨result.1, result.2 :: r.outstanding⟩
  | .deallocateRaw ptr =>
      if ptr ∈ r.outstanding then (r.state.deallocateRaw ptr).map fun s => ⟨s, r.outstanding.erase ptr⟩
      else none

/-- A sequence of calls. -/
def run (r : AllocatorRun) : List AllocatorEvent → Option AllocatorRun
  | [] => some r
  | event :: events => (r.step event).bind fun r' => r'.run events

/-- A `DeallocateRaw` call is of a pointer handed out, and gives it back. -/
theorem step_deallocateRaw {r r' : AllocatorRun} {ptr : Nat} (hstep : r.step (.deallocateRaw ptr) = some r') :
    ptr ∈ r.outstanding ∧ ∃ s', r.state.deallocateRaw ptr = some s' ∧ r' = ⟨s', r.outstanding.erase ptr⟩ := by
  by_cases hmem : ptr ∈ r.outstanding
  · simp only [step, hmem, if_true] at hstep
    obtain ⟨s', hdeallocate, rfl⟩ := Option.map_eq_some'.mp hstep
    exact ⟨hmem, s', hdeallocate, rfl⟩
  · simp [step, hmem] at hstep

end AllocatorRun

/-! ## The ledger of the live allocations -/

namespace SystemBlock

theorem size_of_fits {block : SystemBlock}
    (h : block.allocKey.alignment + block.allocKey.numBytes < 2 ^ 64) :
    block.size = block.allocKey.alignment + block.allocKey.numBytes :=
  sizeTAdd_of_lt h

theorem Apart.symm {first second : SystemBlock} (h : Apart first second) : Apart second first :=
  Or.symm h

theorem Apart.ptr_ne {first second : SystemBlock} (h : Apart first second) (hfirst : first.Placed)
    (hsecond : second.Placed) : first.ptr ≠ second.ptr := by
  obtain ⟨-, halign, -, hfits, -⟩ := hfirst
  obtain ⟨-, halign', -, hfits', -⟩ := hsecond
  unfold Apart at h
  rw [size_of_fits hfits, size_of_fits hfits'] at h
  unfold ptr
  unfold pointerSize at halign halign'
  omega

theorem Apart.base_ne {first second : SystemBlock} (h : Apart first second) (hfirst : first.Placed)
    (hsecond : second.Placed) : first.base ≠ second.base := by
  obtain ⟨-, halign, -, hfits, -⟩ := hfirst
  obtain ⟨-, halign', -, hfits', -⟩ := hsecond
  unfold Apart at h
  rw [size_of_fits hfits, size_of_fits hfits'] at h
  unfold pointerSize at halign halign'
  omega

/-- The addresses the allocations occupy. -/
def occupied : List SystemBlock → Finset Nat
  | [] => ∅
  | block :: rest => Finset.Ico block.base (block.base + block.size) ∪ occupied rest

theorem mem_occupied {x : Nat} : ∀ {blocks : List SystemBlock},
    x ∈ occupied blocks ↔ ∃ block ∈ blocks, block.base ≤ x ∧ x < block.base + block.size
  | [] => by simp [occupied]
  | block :: rest => by simp [occupied, mem_occupied]

theorem card_occupied : ∀ {blocks : List SystemBlock}, blocks.Pairwise Apart →
    (occupied blocks).card = (blocks.map size).sum
  | [], _ => rfl
  | block :: rest, h => by
      obtain ⟨hblock, hrest⟩ := List.pairwise_cons.mp h
      have hdisjoint : Disjoint (Finset.Ico block.base (block.base + block.size)) (occupied rest) :=
        Finset.disjoint_left.mpr fun x hx hx' => by
          obtain ⟨other, hother, hlo, hhi⟩ := mem_occupied.mp hx'
          have hapart := hblock other hother
          rw [Finset.mem_Ico] at hx
          unfold Apart at hapart
          omega
      rw [occupied, Finset.card_union_of_disjoint hdisjoint, Nat.card_Ico, card_occupied hrest,
        List.map_cons, List.sum_cons, Nat.add_sub_cancel_left]

/-- Allocations that do not overlap, at nonzero addresses of the 64-bit address space, have
sizes summing below `2^64`, and so do their rounded sizes. -/
theorem sum_numBytes_lt {blocks : List SystemBlock} (h : blocks.Pairwise Apart)
    (hplaced : ∀ block ∈ blocks, block.Placed) :
    (blocks.map fun block => block.allocKey.numBytes).sum < 2 ^ 64 := by
  have hsub : occupied blocks ⊆ Finset.Ico 1 (2 ^ 64) := fun x hx => by
    obtain ⟨block, hblock, hlo, hhi⟩ := mem_occupied.mp hx
    obtain ⟨hpos, -, -, -, hend⟩ := hplaced block hblock
    rw [Finset.mem_Ico]
    omega
  calc (blocks.map fun block => block.allocKey.numBytes).sum
      ≤ (blocks.map size).sum := List.sum_le_sum fun block hblock => by
        rw [size_of_fits (hplaced block hblock).2.2.2.1]
        exact Nat.le_add_left _ _
    _ = (occupied blocks).card := (card_occupied h).symm
    _ ≤ (Finset.Ico 1 (2 ^ 64)).card := Finset.card_le_card hsub
    _ < 2 ^ 64 := by simp

end SystemBlock

/-- The pointers held, by the cache or by the callers, are those of the live allocations, each
once; `size_` is the sum of their sizes; the allocations do not overlap and each is placed as
`NewBlock` places it. -/
structure Ledger (held : List Nat) (heap : Heap) : Prop where
  held : held.Perm (heap.live.map SystemBlock.ptr)
  size : heap.size = (heap.live.map fun block => block.allocKey.numBytes).sum
  apart : heap.live.Pairwise SystemBlock.Apart
  placed : ∀ block ∈ heap.live, block.Placed

namespace Ledger

variable {held : List Nat} {heap : Heap}

theorem size_lt (h : Ledger held heap) : heap.size < 2 ^ 64 :=
  h.size ▸ SystemBlock.sum_numBytes_lt h.apart h.placed

theorem nodup_ptr (h : Ledger held heap) : (heap.live.map SystemBlock.ptr).Nodup :=
  List.pairwise_map.mpr (h.apart.imp_of_mem fun ha hb hab => hab.ptr_ne (h.placed _ ha) (h.placed _ hb))

theorem nodup (h : Ledger held heap) : held.Nodup := h.held.nodup_iff.mpr h.nodup_ptr

theorem perm {held' : List Nat} (h : Ledger held heap) (hperm : held'.Perm held) : Ledger held' heap :=
  ⟨hperm.trans h.held, h.size, h.apart, h.placed⟩

/-- Two live allocations with one pointer are one. -/
theorem eq_of_ptr_eq (h : Ledger held heap) {first second : SystemBlock} (hfirst : first ∈ heap.live)
    (hsecond : second ∈ heap.live) (hptr : first.ptr = second.ptr) : first = second := by
  by_contra hne
  exact (h.apart.forall (fun _ _ => SystemBlock.Apart.symm) hfirst hsecond hne).ptr_ne
    (h.placed _ hfirst) (h.placed _ hsecond) hptr

theorem nodup_live (h : Ledger held heap) : heap.live.Nodup := h.nodup_ptr.of_map _

/-- `FreeBlock` of a held pointer, with its allocation's key, gives the allocation back. -/
theorem free {ptr : Nat} (h : Ledger (ptr :: held) heap) {allocKey : AllocKey}
    (hkey : ∀ block ∈ heap.live, block.ptr = ptr → block.allocKey = allocKey) :
    Ledger held (heap.freeBlock ptr allocKey) := by
  obtain ⟨block, hblock, hptr⟩ := List.mem_map.mp (h.held.subset (List.mem_cons_self _ _))
  have hbase : ptr - allocKey.alignment = block.base := by
    rw [← hptr, ← hkey block hblock hptr, SystemBlock.ptr, Nat.add_sub_cancel]
  have hfilter : heap.live.filter (·.base ≠ ptr - allocKey.alignment) = heap.live.erase block := by
    rw [h.nodup_live.erase_eq_filter, hbase]
    refine List.filter_congr fun other hother => ?_
    by_cases hsame : other = block
    · simp [hsame]
    · have hne := (h.apart.forall (fun _ _ => SystemBlock.Apart.symm) hother hblock hsame).base_ne
        (h.placed _ hother) (h.placed _ hblock)
      simp [hsame, hne]
  have hperm := List.perm_cons_erase hblock
  have hsum : (heap.live.map fun block => block.allocKey.numBytes).sum =
      allocKey.numBytes + ((heap.live.erase block).map fun block => block.allocKey.numBytes).sum := by
    rw [(hperm.map _).sum_eq, List.map_cons, List.sum_cons, hkey block hblock hptr]
  refine ⟨?_, ?_, h.apart.sublist (by rw [Heap.freeBlock, hfilter]; exact List.erase_sublist _ _),
    fun other hother => h.placed other (by
      rw [Heap.freeBlock, hfilter] at hother
      exact List.mem_of_mem_erase hother)⟩
  · simp only [Heap.freeBlock, hfilter]
    have := h.held.trans (hperm.map SystemBlock.ptr)
    rw [List.map_cons, hptr] at this
    exact this.cons_inv
  · simp only [Heap.freeBlock, hfilter]
    rw [sizeTSub_of_le (by rw [h.size, hsum]; exact Nat.le_add_right _ _) h.size_lt, h.size, hsum,
      Nat.add_sub_cancel_left]

/-- `NewBlock` for a key that fits `size_t`: a fresh pointer, held, of a new allocation apart
from the others. -/
theorem newBlock (h : Ledger held heap) {entry : AllocBlocks} {base : Nat} {heap' : Heap} {ptr : Nat}
    (hnew : heap.newBlock entry base = some (heap', ptr)) (halign : pointerSize ≤ entry.allocKey.alignment)
    (hfits : entry.allocKey.alignment + entry.allocKey.numBytes < 2 ^ 64) :
    Ledger (held ++ [ptr]) heap' ∧ ptr ∉ held ∧
      heap'.live = heap.live ++ [⟨base, entry.allocKey, entry.id⟩] ∧
      ptr = (⟨base, entry.allocKey, entry.id⟩ : SystemBlock).ptr := by
  unfold Heap.newBlock at hnew
  split at hnew
  · next hallocatable =>
      simp only [Heap.allocatable, decide_eq_true_eq, sizeTAdd_of_lt hfits] at hallocatable
      obtain ⟨hpos, haligned, -, hend, hapart⟩ := hallocatable
      obtain ⟨rfl, rfl⟩ := Option.some.inj hnew
      have hplaced : SystemBlock.Placed ⟨base, entry.allocKey, entry.id⟩ :=
        ⟨hpos, halign, haligned, hfits, by
          rw [SystemBlock.size_of_fits hfits]
          exact le_trans (Nat.add_le_add_left (le_max_left _ _) _) hend⟩
      have hfresh : ∀ block ∈ heap.live, SystemBlock.Apart block ⟨base, entry.allocKey, entry.id⟩ := by
        intro block hblock
        have hsize : (⟨base, entry.allocKey, entry.id⟩ : SystemBlock).size = _ := SystemBlock.size_of_fits hfits
        have := le_max_left (entry.allocKey.alignment + entry.allocKey.numBytes) 1
        have := le_max_left block.size 1
        unfold SystemBlock.Apart
        dsimp only at hsize ⊢
        rcases hapart block hblock with hle | hle <;> omega
      have hnotin : base + entry.allocKey.alignment ∉ heap.live.map SystemBlock.ptr := by
        simp only [List.mem_map, not_exists, not_and]
        intro block hblock hptr
        exact (hfresh block hblock).ptr_ne (h.placed _ hblock) hplaced hptr
      have happart : (heap.live ++ [(⟨base, entry.allocKey, entry.id⟩ : SystemBlock)]).Pairwise
          SystemBlock.Apart :=
        List.pairwise_append.mpr ⟨h.apart, List.pairwise_singleton _ _,
          fun block hblock other hother => by rw [List.mem_singleton.mp hother]; exact hfresh block hblock⟩
      have hplaced' : ∀ block ∈ heap.live ++ [(⟨base, entry.allocKey, entry.id⟩ : SystemBlock)],
          block.Placed :=
        List.forall_mem_append.mpr ⟨h.placed, List.forall_mem_singleton.mpr hplaced⟩
      have hsum := SystemBlock.sum_numBytes_lt happart hplaced'
      simp only [List.map_append, List.map_singleton, List.sum_append, List.sum_singleton] at hsum
      refine ⟨⟨?_, ?_, happart, hplaced'⟩, fun hmem => hnotin (h.held.subset hmem), rfl, rfl⟩
      · simpa using h.held.append_right [base + entry.allocKey.alignment]
      · simp only [List.map_append, List.map_singleton, List.sum_append, List.sum_singleton]
        rw [sizeTAdd_of_lt (h.size ▸ hsum), h.size]
  · cases hnew

end Ledger

theorem Heap.freeBlock_live_subset (heap : Heap) (ptr : Nat) (allocKey : AllocKey) :
    (heap.freeBlock ptr allocKey).live ⊆ heap.live :=
  List.filter_subset' _

/-! ## `TrimCache` -/

section Trim

variable (maxSize numBytes : Nat)

/-- The inner loop of `TrimCache` frees some of a node's blocks, from the back, and keeps the
rest cached. -/
theorem trimBlocks_ledger (allocKey : AllocKey) :
    ∀ (blocks : List Nat) {others : List Nat} {heap : Heap}, Ledger (blocks ++ others) heap →
      (∀ ptr ∈ blocks, ∀ block ∈ heap.live, block.ptr = ptr → block.allocKey = allocKey) →
      Ledger ((trimBlocks maxSize numBytes allocKey heap blocks).2 ++ others)
          (trimBlocks maxSize numBytes allocKey heap blocks).1 ∧
        (trimBlocks maxSize numBytes allocKey heap blocks).2 <:+ blocks ∧
        (trimBlocks maxSize numBytes allocKey heap blocks).1.live ⊆ heap.live
  | [], _, _, h, _ => ⟨h, List.suffix_refl _, List.Subset.refl _⟩
  | ptr :: rest, others, heap, h, hkey => by
      unfold trimBlocks
      split
      · have hfree := Ledger.free h (hkey ptr (List.mem_cons_self _ _))
        obtain ⟨hledger, hsuffix, hsubset⟩ := trimBlocks_ledger allocKey rest hfree
          fun p hp block hblock => hkey p (List.mem_cons_of_mem _ hp) block
            (heap.freeBlock_live_subset ptr allocKey hblock)
        exact ⟨hledger, hsuffix.trans (List.suffix_cons _ _),
          hsubset.trans (heap.freeBlock_live_subset ptr allocKey)⟩
      · exact ⟨h, List.suffix_refl _, List.Subset.refl _⟩

/-- What `TrimCache` keeps of a node: its name and key, and the back of its blocks. -/
def Trimmed (after before : AllocBlocks) : Prop :=
  after.id = before.id ∧ after.allocKey = before.allocKey ∧ after.blocks <:+ before.blocks

/-- `TrimCache` frees some cached blocks, each node keeping the others. -/
theorem trimCache_ledger :
    ∀ (entries : List AllocBlocks) {others : List Nat} {heap : Heap},
      Ledger (entries.flatMap AllocBlocks.blocks ++ others) heap →
      (∀ entry ∈ entries, ∀ ptr ∈ entry.blocks, ∀ block ∈ heap.live, block.ptr = ptr →
        block.allocKey = entry.allocKey) →
      Ledger ((trimCache maxSize numBytes heap entries).2.flatMap AllocBlocks.blocks ++ others)
          (trimCache maxSize numBytes heap entries).1 ∧
        List.Forall₂ Trimmed (trimCache maxSize numBytes heap entries).2 entries ∧
        (trimCache maxSize numBytes heap entries).1.live ⊆ heap.live
  | [], _, _, h, _ => ⟨h, List.Forall₂.nil, List.Subset.refl _⟩
  | entry :: rest, others, heap, h, hkey => by
      have hperm : (rest.flatMap AllocBlocks.blocks ++ (entry.blocks ++ others)).Perm
          ((entry :: rest).flatMap AllocBlocks.blocks ++ others) := by
        rw [List.flatMap_cons, List.append_assoc]
        exact List.perm_append_comm_assoc _ _ _
      have hrest := trimCache_ledger rest (h.perm hperm) fun e he => hkey e (List.mem_cons_of_mem _ he)
      unfold trimCache at hrest ⊢
      rw [List.foldr_cons]
      generalize List.foldr _ (heap, []) rest = acc at hrest ⊢
      obtain ⟨hledger, htrimmed, hsubset⟩ := hrest
      have hledger' : Ledger (entry.blocks ++ (acc.2.flatMap AllocBlocks.blocks ++ others)) acc.1 :=
        hledger.perm (List.perm_append_comm_assoc _ _ _)
      dsimp only
      split
      · obtain ⟨hledger'', hsuffix, hsubset'⟩ := trimBlocks_ledger maxSize numBytes entry.allocKey entry.blocks
          hledger' fun ptr hptr block hblock => hkey entry (List.mem_cons_self _ _) ptr hptr block (hsubset hblock)
        refine ⟨by simpa [List.flatMap_cons, List.append_assoc] using hledger'',
          .cons ⟨rfl, rfl, hsuffix⟩ htrimmed, hsubset'.trans hsubset⟩
      · exact ⟨by simpa [List.flatMap_cons, List.append_assoc] using hledger', .cons ⟨rfl, rfl, List.suffix_refl _⟩ htrimmed,
          hsubset⟩

theorem trimCache_cons (heap : Heap) (entry : AllocBlocks) (rest : List AllocBlocks) :
    trimCache maxSize numBytes heap (entry :: rest) =
      if sizeTAdd (trimCache maxSize numBytes heap rest).1.size numBytes > maxSize then
        ((trimBlocks maxSize numBytes entry.allocKey (trimCache maxSize numBytes heap rest).1 entry.blocks).1,
          { entry with blocks := (trimBlocks maxSize numBytes entry.allocKey
            (trimCache maxSize numBytes heap rest).1 entry.blocks).2 } :: (trimCache maxSize numBytes heap rest).2)
      else ((trimCache maxSize numBytes heap rest).1, entry :: (trimCache maxSize numBytes heap rest).2) :=
  rfl

end Trim

/-- `TrimCache` keeps what depends on the nodes' names and keys only. -/
theorem Forall₂_trimmed_map {β : Type} {f : AllocBlocks → β}
    (hf : ∀ a b, a.id = b.id → a.allocKey = b.allocKey → f a = f b) {after before : List AllocBlocks}
    (h : List.Forall₂ Trimmed after before) : after.map f = before.map f := by
  induction h with
  | nil => rfl
  | cons hhead _ ih => simp [hf _ _ hhead.1 hhead.2.1, ih]

theorem Forall₂_trimmed_mem {after before : List AllocBlocks} (h : List.Forall₂ Trimmed after before)
    {entry : AllocBlocks} (hentry : entry ∈ after) : ∃ old ∈ before, Trimmed entry old := by
  induction h with
  | nil => nomatch hentry
  | cons hhead _ ih =>
      rcases List.mem_cons.mp hentry with rfl | hentry
      · exact ⟨_, List.mem_cons_self _ _, hhead⟩
      · obtain ⟨old, hold, htrimmed⟩ := ih hentry
        exact ⟨old, List.mem_cons_of_mem _ hold, htrimmed⟩

theorem Forall₂_trimmed_mem_rev {after before : List AllocBlocks} (h : List.Forall₂ Trimmed after before)
    {entry : AllocBlocks} (hentry : entry ∈ before) : ∃ new ∈ after, Trimmed new entry := by
  induction h with
  | nil => nomatch hentry
  | cons hhead _ ih =>
      rcases List.mem_cons.mp hentry with rfl | hentry
      · exact ⟨_, List.mem_cons_self _ _, hhead⟩
      · obtain ⟨new, hnew, htrimmed⟩ := ih hentry
        exact ⟨new, List.mem_cons_of_mem _ hnew, htrimmed⟩

/-- The inner loop of `TrimCache` keeps the back of the node's blocks. -/
theorem trimBlocks_suffix (maxSize numBytes : Nat) (allocKey : AllocKey) :
    ∀ (heap : Heap) (blocks : List Nat), (trimBlocks maxSize numBytes allocKey heap blocks).2 <:+ blocks
  | _, [] => List.suffix_refl _
  | heap, ptr :: rest => by
      unfold trimBlocks
      split
      · exact (trimBlocks_suffix maxSize numBytes allocKey _ rest).trans (List.suffix_cons _ _)
      · exact List.suffix_refl _

/-- `TrimCache` keeps each node's name and key and the back of its blocks. -/
theorem trimCache_trimmed (maxSize numBytes : Nat) (heap : Heap) :
    ∀ entries : List AllocBlocks, List.Forall₂ Trimmed (trimCache maxSize numBytes heap entries).2 entries
  | [] => .nil
  | entry :: rest => by
      rw [trimCache_cons]
      split
      · exact .cons ⟨rfl, rfl, trimBlocks_suffix _ _ _ _ _⟩ (trimCache_trimmed maxSize numBytes heap rest)
      · exact .cons ⟨rfl, rfl, List.suffix_refl _⟩ (trimCache_trimmed maxSize numBytes heap rest)

/-- The end of `AllocateRaw` without a cached block leaves the node at the front, and changes
neither `max_size_` nor `allocs_`. -/
theorem AllocatorState.refill_front {s : AllocatorState} {entry : AllocBlocks} {rest : List AllocBlocks}
    {base : Nat} {s' : AllocatorState} {ptr : Nat} (hrefill : s.refill entry rest base = some (s', ptr)) :
    s'.maxSize = s.maxSize ∧ s'.allocs = s.allocs ∧
      List.Forall₂ Trimmed s'.allocList (entry :: rest) ∧
      ∃ blocks rest', s'.allocList = { entry with blocks := blocks } :: rest' := by
  unfold AllocatorState.refill at hrefill
  obtain ⟨⟨heap', ptr'⟩, -, heq⟩ := Option.map_eq_some'.mp hrefill
  cases heq
  refine ⟨rfl, rfl, trimCache_trimmed _ _ _ _, ?_⟩
  dsimp only
  rw [trimCache_cons]
  split
  · exact ⟨_, _, rfl⟩
  · exact ⟨_, _, rfl⟩

/-! ## The nodes -/

@[simp] theorem AllocBlocks.pushBlock_id (id ptr : Nat) (e : AllocBlocks) :
    (AllocBlocks.pushBlock id ptr e).id = e.id := by
  unfold AllocBlocks.pushBlock; split <;> rfl

@[simp] theorem AllocBlocks.pushBlock_allocKey (id ptr : Nat) (e : AllocBlocks) :
    (AllocBlocks.pushBlock id ptr e).allocKey = e.allocKey := by
  unfold AllocBlocks.pushBlock; split <;> rfl

/-- What every state of the allocator keeps of its nodes, over every sequence of calls: they are
named `0, 1, ...`, one per key, and `allocs_` maps each key to the name of its node. -/
structure NodesInv (s : AllocatorState) : Prop where
  ids : (s.allocList.map AllocBlocks.id).Perm (List.range s.allocList.length)
  keys : (s.allocList.map AllocBlocks.allocKey).Nodup
  allocs : s.allocs.Perm (s.allocList.map fun entry => (entry.allocKey, entry.id))

namespace NodesInv

variable {s : AllocatorState}

theorem init (maxSize : Nat) : NodesInv (AllocatorRun.init maxSize).state :=
  ⟨List.Perm.refl _, List.nodup_nil, List.Perm.refl _⟩

theorem nodup_ids (h : NodesInv s) : (s.allocList.map AllocBlocks.id).Nodup :=
  h.ids.nodup_iff.mpr (List.nodup_range _)

theorem eq_of_id_eq (h : NodesInv s) {first second : AllocBlocks} (hfirst : first ∈ s.allocList)
    (hsecond : second ∈ s.allocList) (hid : first.id = second.id) : first = second :=
  List.inj_on_of_nodup_map h.nodup_ids hfirst hsecond hid

/-- The node `allocs_` maps a key to is of that key. -/
theorem key_of_lookup (h : NodesInv s) {allocKey : AllocKey} {id : Nat}
    (hlookup : s.allocs.lookup allocKey = some id) {entry : AllocBlocks}
    (hentry : entry ∈ s.allocList) (hid : entry.id = id) : entry.allocKey = allocKey := by
  obtain ⟨l₁, l₂, hsplit, -⟩ := List.lookup_eq_some_iff.mp hlookup
  obtain ⟨owner, howner, hpair⟩ := List.mem_map.mp
    (h.allocs.subset (by rw [hsplit]; exact List.mem_append_right _ (List.mem_cons_self _ _)))
  obtain ⟨hkey, hownerid⟩ := Prod.mk.inj hpair
  rw [h.eq_of_id_eq hentry howner (hid.trans hownerid.symm), hkey]

/-- `allocs_` maps the key of every node to the node. -/
theorem lookup_allocs (h : NodesInv s) {entry : AllocBlocks} (hentry : entry ∈ s.allocList) :
    s.allocs.lookup entry.allocKey = some entry.id :=
  lookup_of_mem ((h.allocs.map Prod.fst).nodup_iff.mpr (by simpa [Function.comp_def] using h.keys))
    (h.allocs.symm.subset (List.mem_map_of_mem _ hentry))

/-- The nodes behind the front node are other nodes. -/
theorem id_ne_of_front (h : NodesInv s) {entry : AllocBlocks} {rest : List AllocBlocks}
    (hlist : s.allocList = entry :: rest) : ∀ e ∈ rest, e.id ≠ entry.id := by
  have hnodup := h.nodup_ids
  rw [hlist, List.map_cons, List.nodup_cons] at hnodup
  exact fun e he hid => hnodup.1 (hid ▸ List.mem_map_of_mem _ he)

/-- The nodes' names and keys are all the invariant reads. -/
theorem of_nodes (h : NodesInv s) {s' : AllocatorState} (hallocs : s'.allocs = s.allocs)
    (hnodes : s'.allocList.map (fun entry => (entry.allocKey, entry.id)) =
      s.allocList.map fun entry => (entry.allocKey, entry.id)) : NodesInv s' := by
  have hids : s'.allocList.map AllocBlocks.id = s.allocList.map AllocBlocks.id := by
    simpa [Function.comp_def] using congrArg (List.map Prod.snd) hnodes
  have hkeys : s'.allocList.map AllocBlocks.allocKey = s.allocList.map AllocBlocks.allocKey := by
    simpa [Function.comp_def] using congrArg (List.map Prod.fst) hnodes
  have hlength : s'.allocList.length = s.allocList.length := by
    simpa using congrArg List.length hnodes
  exact ⟨hids ▸ hlength ▸ h.ids, hkeys ▸ h.keys, hallocs ▸ hnodes ▸ h.allocs⟩

/-- The invariant does not depend on the order of `alloc_list_`. -/
theorem perm (h : NodesInv s) {allocList : List AllocBlocks} (hperm : allocList.Perm s.allocList) :
    NodesInv { s with allocList := allocList } where
  ids := by
    rw [hperm.length_eq]
    exact (hperm.map _).trans h.ids
  keys := (hperm.map _).nodup_iff.mpr h.keys
  allocs := h.allocs.trans (hperm.map _).symm

/-- A new node for a key no node has, named by the number of nodes, at the front of the list. -/
theorem insert (h : NodesInv s) {allocKey : AllocKey} (hfresh : s.allocs.lookup allocKey = none) :
    NodesInv { s with
      allocs := s.allocs ++ [(allocKey, s.allocList.length)]
      allocList := ⟨s.allocList.length, allocKey, []⟩ :: s.allocList } where
  ids := by
    rw [List.length_cons, List.range_succ, List.map_cons]
    exact (h.ids.cons _).trans (List.perm_append_singleton _ _).symm
  keys := by
    refine List.nodup_cons.mpr ⟨fun hmem => ?_, h.keys⟩
    obtain ⟨entry, hentry, hkey⟩ := List.mem_map.mp hmem
    have hall := List.lookup_eq_none_iff.mp hfresh
    have hmem' := h.allocs.symm.subset (List.mem_map_of_mem (fun entry => (entry.allocKey, entry.id)) hentry)
    simpa [hkey] using hall _ hmem'
  allocs := by
    rw [List.map_cons]
    exact (List.perm_append_singleton _ _).trans (h.allocs.cons _)

/-- The LRU splice: a node moved to the front of the list. -/
theorem perm_splice {allocList : List AllocBlocks} (hnodup : (allocList.map AllocBlocks.id).Nodup)
    {entry : AllocBlocks} (hentry : entry ∈ allocList) :
    (entry :: allocList.filter (·.id ≠ entry.id)).Perm allocList := by
  have herase : allocList.filter (·.id ≠ entry.id) = allocList.erase entry := by
    rw [(hnodup.of_map _).erase_eq_filter]
    refine List.filter_congr fun other hother => ?_
    by_cases hsame : other = entry
    · simp [hsame]
    · have hne : other.id ≠ entry.id := fun hid => hsame (List.inj_on_of_nodup_map hnodup hother hentry hid)
      simp [hsame, hne]
  rw [herase]
  exact (List.perm_cons_erase hentry).symm

/-- The end of `AllocateRaw` without a cached block keeps the nodes. -/
theorem refill {entry : AllocBlocks} {rest : List AllocBlocks}
    (h : NodesInv { s with allocList := entry :: rest }) {base : Nat} {s' : AllocatorState} {ptr : Nat}
    (hrefill : s.refill entry rest base = some (s', ptr)) : NodesInv s' := by
  obtain ⟨-, hallocs, htrimmed, -⟩ := AllocatorState.refill_front hrefill
  exact h.of_nodes hallocs (Forall₂_trimmed_map (fun a b hid hkey => by simp only [hid, hkey]) htrimmed)

/-- `AllocateRaw` keeps the nodes. -/
theorem allocateRaw (h : NodesInv s) {alignment numBytes base : Nat} {s' : AllocatorState} {ptr : Nat}
    (hallocate : s.allocateRaw alignment numBytes base = some (s', ptr)) : NodesInv s' := by
  unfold AllocatorState.allocateRaw at hallocate
  dsimp only at hallocate
  split at hallocate
  · next id _ =>
      split at hallocate
      · next entry hfind =>
          have hentry := List.mem_of_find?_eq_some hfind
          have hid : entry.id = id := by simpa using List.find?_some hfind
          have hspliced := h.perm (perm_splice h.nodup_ids hentry)
          rw [hid] at hspliced
          split at hallocate
          · obtain ⟨rfl, rfl⟩ := Prod.mk.inj (Option.some.inj hallocate)
            exact hspliced.of_nodes rfl rfl
          · exact hspliced.refill hallocate
      · cases hallocate
  · next hlookup => exact (h.insert hlookup).refill hallocate

/-- `DeallocateRaw` keeps the nodes. -/
theorem deallocateRaw (h : NodesInv s) {ptr : Nat} {s' : AllocatorState}
    (hdeallocate : s.deallocateRaw ptr = some s') : NodesInv s' := by
  unfold AllocatorState.deallocateRaw at hdeallocate
  split at hdeallocate
  · cases hdeallocate
    exact h.of_nodes rfl rfl
  · split at hdeallocate
    · cases hdeallocate
    · split at hdeallocate
      · cases hdeallocate
      · split at hdeallocate
        · cases hdeallocate
          refine h.of_nodes rfl ?_
          rw [List.map_map]
          exact List.map_congr_left fun e _ => by simp
        · cases hdeallocate
          exact h.of_nodes rfl rfl

theorem step {r r' : AllocatorRun} (h : NodesInv r.state) {event : AllocatorEvent}
    (hstep : r.step event = some r') : NodesInv r'.state := by
  cases event with
  | allocateRaw alignment numBytes base =>
      obtain ⟨⟨s', ptr⟩, hallocate, rfl⟩ := Option.map_eq_some'.mp hstep
      exact h.allocateRaw hallocate
  | deallocateRaw ptr =>
      obtain ⟨-, s', hdeallocate, rfl⟩ := AllocatorRun.step_deallocateRaw hstep
      exact h.deallocateRaw hdeallocate

/-- Every sequence of calls keeps the nodes. -/
theorem run : ∀ {r : AllocatorRun} {events : List AllocatorEvent} {r' : AllocatorRun},
    NodesInv r.state → r.run events = some r' → NodesInv r'.state
  | _, [], _, h, hrun => by cases hrun; exact h
  | _, _ :: _, _, h, hrun => by
      obtain ⟨r'', hstep, hrest⟩ := Option.bind_eq_some.mp hrun
      exact run (h.step hstep) hrest

end NodesInv

/-! ## The invariant -/

/-- What every state of the allocator keeps over a sequence of calls whose blocks fit `size_t`.
Besides the nodes (`NodesInv`): the pointers the nodes cache and the pointers handed out are
those of the live allocations, each once (`Ledger`). Every allocation's header names a node of
its key, and a cached pointer is cached by the node its header names. -/
structure AllocatorInv (r : AllocatorRun) extends NodesInv r.state : Prop where
  ledger : Ledger (r.state.allocList.flatMap AllocBlocks.blocks ++ r.outstanding) r.state.heap
  headers : ∀ block ∈ r.state.heap.live, ∃ entry ∈ r.state.allocList,
    entry.id = block.header ∧ entry.allocKey = block.allocKey
  cached : ∀ entry ∈ r.state.allocList, ∀ block ∈ r.state.heap.live, block.ptr ∈ entry.blocks →
    block.header = entry.id

namespace AllocatorInv

variable {r : AllocatorRun}

theorem init (maxSize : Nat) : AllocatorInv (AllocatorRun.init maxSize) where
  toNodesInv := NodesInv.init maxSize
  ledger := ⟨List.Perm.refl _, rfl, List.Pairwise.nil, fun _ h => nomatch h⟩
  headers := fun _ h => nomatch h
  cached := fun _ h => nomatch h

/-- The invariant does not depend on the order of `alloc_list_`. -/
theorem perm {s : AllocatorState} {outstanding : List Nat} (h : AllocatorInv ⟨s, outstanding⟩)
    {allocList : List AllocBlocks} (hperm : allocList.Perm s.allocList) :
    AllocatorInv ⟨{ s with allocList := allocList }, outstanding⟩ where
  toNodesInv := h.toNodesInv.perm hperm
  ledger := h.ledger.perm ((hperm.flatMap_right _).append_right _)
  headers := fun block hblock => by
    obtain ⟨entry, hentry, hid⟩ := h.headers block hblock
    exact ⟨entry, hperm.symm.subset hentry, hid⟩
  cached := fun entry hentry => h.cached entry (hperm.subset hentry)

/-- Handing out the back of the front node's blocks. -/
theorem pop {s : AllocatorState} {outstanding : List Nat} {entry : AllocBlocks} {rest : List AllocBlocks}
    (h : AllocatorInv ⟨{ s with allocList := entry :: rest }, outstanding⟩) {ptr : Nat} {blocks : List Nat}
    (hblocks : entry.blocks = ptr :: blocks) :
    AllocatorInv ⟨{ s with allocList := { entry with blocks := blocks } :: rest }, ptr :: outstanding⟩ where
  toNodesInv := h.toNodesInv.of_nodes rfl rfl
  ledger := h.ledger.perm (by
    simp only [List.flatMap_cons, hblocks, List.cons_append]
    rw [List.append_assoc, ← List.append_assoc blocks]
    exact List.perm_middle)
  headers := fun block hblock => by
    obtain ⟨e, he, hid⟩ := h.headers block hblock
    rcases List.mem_cons.mp he with rfl | he
    · exact ⟨_, List.mem_cons_self _ _, hid⟩
    · exact ⟨e, List.mem_cons_of_mem _ he, hid⟩
  cached := fun e he block hblock hptr => by
    rcases List.mem_cons.mp he with rfl | he
    · exact h.cached entry (List.mem_cons_self _ _) block hblock (by rw [hblocks]; exact List.mem_cons_of_mem _ hptr)
    · exact h.cached e (List.mem_cons_of_mem _ he) block hblock hptr

/-- A cached pointer's allocation has its node's key. -/
theorem key_of_cached (h : AllocatorInv r) {entry : AllocBlocks} (hentry : entry ∈ r.state.allocList)
    {block : SystemBlock} (hblock : block ∈ r.state.heap.live) (hptr : block.ptr ∈ entry.blocks) :
    block.allocKey = entry.allocKey := by
  obtain ⟨owner, howner, hid, hkey⟩ := h.headers block hblock
  rw [← hkey, h.eq_of_id_eq howner hentry (hid.trans (h.cached entry hentry block hblock hptr))]

/-- The end of `AllocateRaw` without a cached block, for a node at the front with no blocks
cached and a key that fits `size_t`: the new block's pointer is fresh and of the node's key. -/
theorem refill {s : AllocatorState} {outstanding : List Nat} {entry : AllocBlocks}
    {rest : List AllocBlocks} (h : AllocatorInv ⟨{ s with allocList := entry :: rest }, outstanding⟩)
    (halign : pointerSize ≤ entry.allocKey.alignment)
    (hfits : entry.allocKey.alignment + entry.allocKey.numBytes < 2 ^ 64) {base : Nat}
    {s' : AllocatorState} {ptr : Nat} (hrefill : s.refill entry rest base = some (s', ptr)) :
    AllocatorInv ⟨s', ptr :: outstanding⟩ ∧ ptr ∉ outstanding ∧
      ∃ block ∈ s'.heap.live, block.ptr = ptr ∧ block.allocKey = entry.allocKey := by
  have hnodes := h.toNodesInv.refill hrefill
  unfold AllocatorState.refill at hrefill
  obtain ⟨⟨heap', ptr'⟩, hnew, heq⟩ := Option.map_eq_some'.mp hrefill
  cases heq
  obtain ⟨hledger, htrimmed, hsubset⟩ := trimCache_ledger s.maxSize entry.allocKey.numBytes (entry :: rest)
    h.ledger fun e he ptr hptr block hblock hblockptr => h.key_of_cached he hblock (hblockptr ▸ hptr)
  generalize trimCache s.maxSize entry.allocKey.numBytes s.heap (entry :: rest) = trimmed
    at hledger htrimmed hsubset hnew hnodes
  obtain ⟨hledger', hfresh, hlive, hptr⟩ := hledger.newBlock hnew halign hfits
  refine ⟨⟨hnodes, ?_, ?_, ?_⟩, fun hmem => hfresh (List.mem_append_right _ hmem), _,
    by rw [hlive]; exact List.mem_append_right _ (List.mem_singleton_self _), hptr.symm, rfl⟩
  · rw [List.append_assoc] at hledger'
    exact hledger'.perm ((List.perm_append_singleton _ _).symm.append_left _)
  · intro block hblock
    rw [hlive] at hblock
    rcases List.mem_append.mp hblock with hblock | hblock
    · obtain ⟨e, he, hid, hkey⟩ := h.headers block (hsubset hblock)
      obtain ⟨e', he', hid', hkey', -⟩ := Forall₂_trimmed_mem_rev htrimmed he
      exact ⟨e', he', hid'.trans hid, hkey'.trans hkey⟩
    · obtain ⟨e', he', hid', hkey', -⟩ := Forall₂_trimmed_mem_rev htrimmed (List.mem_cons_self entry rest)
      rw [List.mem_singleton.mp hblock]
      exact ⟨e', he', hid', hkey'⟩
  · intro e' he' block hblock hblockptr
    obtain ⟨e, he, hid, -, hsuffix⟩ := Forall₂_trimmed_mem htrimmed he'
    rw [hlive] at hblock
    rcases List.mem_append.mp hblock with hblock | hblock
    · rw [hid]
      exact h.cached e he block (hsubset hblock) (hsuffix.subset hblockptr)
    · rw [List.mem_singleton.mp hblock, ← hptr] at hblockptr
      exact absurd (List.mem_append_left _ (List.mem_flatMap.mpr ⟨e', he', hblockptr⟩)) hfresh

/-- A new node for a key no node has, named by the number of nodes, at the front of the list. -/
theorem insert {s : AllocatorState} {outstanding : List Nat} (h : AllocatorInv ⟨s, outstanding⟩)
    {allocKey : AllocKey} (hfresh : s.allocs.lookup allocKey = none) :
    AllocatorInv ⟨{ s with
      allocs := s.allocs ++ [(allocKey, s.allocList.length)]
      allocList := ⟨s.allocList.length, allocKey, []⟩ :: s.allocList }, outstanding⟩ where
  toNodesInv := h.toNodesInv.insert hfresh
  ledger := by simpa using h.ledger
  headers := fun block hblock => by
    obtain ⟨entry, hentry, hid⟩ := h.headers block hblock
    exact ⟨entry, List.mem_cons_of_mem _ hentry, hid⟩
  cached := fun entry hentry block hblock hptr => by
    rcases List.mem_cons.mp hentry with rfl | hentry
    · nomatch hptr
    · exact h.cached entry hentry block hblock hptr

/-- `AllocateRaw` of a request that fits `size_t` keeps the invariant and hands out a pointer not
handed out, of a live allocation of its key. -/
theorem allocateRaw {s : AllocatorState} {outstanding : List Nat} (h : AllocatorInv ⟨s, outstanding⟩)
    {alignment numBytes base : Nat}
    (hfits : max alignment pointerSize + roundUpTo numBytes (max alignment pointerSize) < 2 ^ 64)
    {s' : AllocatorState} {ptr : Nat}
    (hallocate : s.allocateRaw alignment numBytes base = some (s', ptr)) :
    AllocatorInv ⟨s', ptr :: outstanding⟩ ∧ ptr ∉ outstanding ∧
      ∃ block ∈ s'.heap.live, block.ptr = ptr ∧ block.allocKey =
        ⟨max alignment pointerSize, roundUpTo numBytes (max alignment pointerSize)⟩ := by
  unfold AllocatorState.allocateRaw at hallocate
  dsimp only at hallocate
  split at hallocate
  · next id hlookup =>
      split at hallocate
      · next entry hfind =>
          have hentry := List.mem_of_find?_eq_some hfind
          have hid : entry.id = id := by simpa using List.find?_some hfind
          have hkey' := h.key_of_lookup hlookup hentry hid
          have hspliced := h.perm (NodesInv.perm_splice h.nodup_ids hentry)
          rw [hid] at hspliced
          split at hallocate
          · next ptr' blocks hblocks =>
              obtain ⟨rfl, rfl⟩ := Prod.mk.inj (Option.some.inj hallocate)
              refine ⟨hspliced.pop hblocks, fun hmem => ?_, ?_⟩
              · have hnodup := hspliced.ledger.nodup
                simp only [List.flatMap_cons, hblocks] at hnodup
                exact (List.nodup_append.mp hnodup).2.2 (List.mem_append_left _ (List.mem_cons_self _ _)) hmem
              · obtain ⟨block, hblock, hptr⟩ := List.mem_map.mp (hspliced.ledger.held.subset
                  (List.mem_append_left _ (List.mem_flatMap.mpr ⟨entry, List.mem_cons_self _ _,
                    by rw [hblocks]; exact List.mem_cons_self _ _⟩)))
                refine ⟨block, hblock, hptr, ?_⟩
                rw [← hkey', hspliced.key_of_cached (List.mem_cons_self _ _) hblock
                  (by rw [hptr, hblocks]; exact List.mem_cons_self _ _)]
          · obtain ⟨hinv, hfresh, block, hblock, hptr, hblockkey⟩ := hspliced.refill
                (by rw [hkey']; exact le_max_right _ _) (by rw [hkey']; exact hfits) hallocate
            exact ⟨hinv, hfresh, block, hblock, hptr, hblockkey.trans hkey'⟩
      · cases hallocate
  · next hlookup =>
      exact (h.insert hlookup).refill (le_max_right _ _) hfits hallocate

theorem flatMap_pushBlock {id ptr : Nat} :
    ∀ {allocList : List AllocBlocks}, (allocList.map AllocBlocks.id).Nodup → id ∈ allocList.map AllocBlocks.id →
      ((allocList.map (AllocBlocks.pushBlock id ptr)).flatMap AllocBlocks.blocks).Perm
        (ptr :: allocList.flatMap AllocBlocks.blocks)
  | [], _, hmem => nomatch hmem
  | e :: rest, hnodup, hmem => by
      obtain ⟨hnotin, hrest⟩ := List.nodup_cons.mp hnodup
      by_cases hid : e.id = id
      · have hsame : rest.map (AllocBlocks.pushBlock id ptr) = rest := by
          refine (List.map_congr_left fun other hother => ?_).trans (List.map_id rest)
          have : other.id ≠ id := fun h => hnotin (hid ▸ h ▸ List.mem_map_of_mem _ hother)
          simp [AllocBlocks.pushBlock, this]
        simp [AllocBlocks.pushBlock, hid, hsame]
      · have hmem' : id ∈ rest.map AllocBlocks.id := by
          rcases List.mem_cons.mp hmem with h | h
          · exact absurd h.symm hid
          · exact h
        simp only [List.map_cons, List.flatMap_cons, AllocBlocks.pushBlock, hid, if_false]
        exact ((flatMap_pushBlock hrest hmem').append_left _).trans List.perm_middle

/-- `DeallocateRaw` of a pointer handed out keeps the invariant. -/
theorem deallocateRaw {s : AllocatorState} {outstanding : List Nat} (h : AllocatorInv ⟨s, outstanding⟩)
    {ptr : Nat} (hptr : ptr ∈ outstanding) {s' : AllocatorState} (hdeallocate : s.deallocateRaw ptr = some s') :
    AllocatorInv ⟨s', outstanding.erase ptr⟩ := by
  have hnodes := h.toNodesInv.deallocateRaw hdeallocate
  obtain ⟨block, hblock, hblockptr⟩ := List.mem_map.mp (h.ledger.held.subset (List.mem_append_right _ hptr))
  have hheld := (List.perm_cons_erase hptr).append_left (s.allocList.flatMap AllocBlocks.blocks)
  unfold AllocatorState.deallocateRaw at hdeallocate
  split at hdeallocate
  · next hzero =>
      have := (h.ledger.placed block hblock).1
      unfold SystemBlock.ptr at hblockptr
      omega
  · split at hdeallocate
    · cases hdeallocate
    · next found hfound =>
        have hfoundmem := List.mem_of_find?_eq_some hfound
        have hfoundptr : found.ptr = ptr := by simpa using List.find?_some hfound
        obtain rfl := h.ledger.eq_of_ptr_eq hfoundmem hblock (hfoundptr.trans hblockptr.symm)
        split at hdeallocate
        · cases hdeallocate
        · next entry hentryfind =>
            have hentry := List.mem_of_find?_eq_some hentryfind
            have hentryid : entry.id = found.header := by simpa using List.find?_some hentryfind
            obtain ⟨owner, howner, hownerid, hownerkey⟩ := h.headers found hfoundmem
            obtain rfl := h.eq_of_id_eq howner hentry (hownerid.trans hentryid.symm)
            have hheld' : (ptr :: (s.allocList.flatMap AllocBlocks.blocks ++ outstanding.erase ptr)).Perm
                (s.allocList.flatMap AllocBlocks.blocks ++ outstanding) := List.perm_middle.symm.trans hheld.symm
            split at hdeallocate
            · cases hdeallocate
              refine ⟨hnodes, ?_, fun b hb => ?_, fun e' he' b hb hbptr => ?_⟩
              · exact h.ledger.perm (((flatMap_pushBlock h.nodup_ids (List.mem_map_of_mem _ hentry)).append_right _).trans hheld')
              · obtain ⟨e, he, hid⟩ := h.headers b hb
                exact ⟨_, List.mem_map_of_mem _ he, by simpa using hid⟩
              · obtain ⟨e, he, rfl⟩ := List.mem_map.mp he'
                unfold AllocBlocks.pushBlock at hbptr ⊢
                split at hbptr
                · next hid =>
                    rcases List.mem_cons.mp hbptr with hbptr | hbptr
                    · rw [h.ledger.eq_of_ptr_eq hb hfoundmem (hbptr.trans hfoundptr.symm), ← hentryid, if_pos hid, hid]
                    · rw [if_pos hid]
                      exact h.cached e he b hb hbptr
                · next hid =>
                    rw [if_neg hid]
                    exact h.cached e he b hb hbptr
            · cases hdeallocate
              refine ⟨hnodes, (h.ledger.perm hheld').free fun b hb hbptr => ?_,
                fun b hb => h.headers b (s.heap.freeBlock_live_subset _ _ hb),
                fun e he b hb => h.cached e he b (s.heap.freeBlock_live_subset _ _ hb)⟩
              rw [h.ledger.eq_of_ptr_eq hb hfoundmem (hbptr.trans hfoundptr.symm), hownerkey]

/-- Every call whose block fits `size_t` keeps the invariant. -/
theorem step (h : AllocatorInv r) {event : AllocatorEvent} (hfits : event.fitsSizeT = true)
    {r' : AllocatorRun} (hstep : r.step event = some r') : AllocatorInv r' := by
  cases event with
  | allocateRaw alignment numBytes base =>
      obtain ⟨⟨s', ptr⟩, hallocate, rfl⟩ := Option.map_eq_some'.mp hstep
      exact (h.allocateRaw (of_decide_eq_true hfits) hallocate).1
  | deallocateRaw ptr =>
      obtain ⟨hmem, s', hdeallocate, rfl⟩ := AllocatorRun.step_deallocateRaw hstep
      exact h.deallocateRaw hmem hdeallocate

/-- Every sequence of calls whose blocks fit `size_t` keeps the invariant. -/
theorem run : ∀ {r : AllocatorRun} {events : List AllocatorEvent} {r' : AllocatorRun},
    AllocatorInv r → (∀ event ∈ events, event.fitsSizeT = true) → r.run events = some r' →
      AllocatorInv r'
  | _, [], _, h, _, hrun => by cases hrun; exact h
  | r, event :: events, r', h, hfits, hrun => by
      obtain ⟨r'', hstep, hrest⟩ := Option.bind_eq_some.mp hrun
      exact run (h.step (hfits event (List.mem_cons_self _ _)) hstep)
        (fun e he => hfits e (List.mem_cons_of_mem _ he)) hrest

end AllocatorInv


/-- An allocation of 10 bytes at 1, given back, then one of 12 bytes at 4: both round to the
key of 16 bytes at 8, so the second call reuses the cached block. -/
def reuseEvents : List AllocatorEvent :=
  [.allocateRaw 1 10 16, .deallocateRaw 24, .allocateRaw 4 12 999]

/-- The allocator after `reuseEvents` under a cache of 100 bytes. -/
def reusedAllocator : AllocatorRun :=
  ⟨⟨100, [⟨0, ⟨8, 16⟩, []⟩], [(⟨8, 16⟩, 0)], ⟨16, [⟨16, ⟨8, 16⟩, 0⟩]⟩⟩, [24]⟩

/-- The first call of `reuseEvents` hands out 24, and after the second and third 24 is again the
one pointer handed out. -/
example : ((AllocatorRun.init 100).run [.allocateRaw 1 10 16]).map AllocatorRun.outstanding = some [24] ∧
    ((AllocatorRun.init 100).run reuseEvents).map AllocatorRun.outstanding = some [24] := by
  decide

/-- No call changes `max_size_`. -/
theorem AllocatorState.maxSize_allocateRaw {s s' : AllocatorState} {alignment numBytes base ptr : Nat}
    (hallocate : s.allocateRaw alignment numBytes base = some (s', ptr)) : s'.maxSize = s.maxSize := by
  unfold AllocatorState.allocateRaw at hallocate
  dsimp only at hallocate
  split at hallocate
  · split at hallocate
    · split at hallocate
      · cases hallocate
        rfl
      · exact (AllocatorState.refill_front hallocate).1
    · cases hallocate
  · exact (AllocatorState.refill_front hallocate).1

theorem AllocatorState.maxSize_deallocateRaw {s s' : AllocatorState} {ptr : Nat}
    (hdeallocate : s.deallocateRaw ptr = some s') : s'.maxSize = s.maxSize := by
  unfold AllocatorState.deallocateRaw at hdeallocate
  split at hdeallocate
  · cases hdeallocate
    rfl
  · split at hdeallocate
    · cases hdeallocate
    · split at hdeallocate
      · cases hdeallocate
      · split at hdeallocate <;> cases hdeallocate <;> rfl

theorem AllocatorRun.maxSize_step {r r' : AllocatorRun} {event : AllocatorEvent}
    (hstep : r.step event = some r') : r'.state.maxSize = r.state.maxSize := by
  cases event with
  | allocateRaw alignment numBytes base =>
      obtain ⟨⟨s, ptr⟩, hallocate, rfl⟩ := Option.map_eq_some'.mp hstep
      exact AllocatorState.maxSize_allocateRaw hallocate
  | deallocateRaw ptr =>
      obtain ⟨-, s, hdeallocate, rfl⟩ := AllocatorRun.step_deallocateRaw hstep
      exact AllocatorState.maxSize_deallocateRaw hdeallocate

theorem AllocatorRun.maxSize_run : ∀ {r : AllocatorRun} {events : List AllocatorEvent} {r' : AllocatorRun},
    r.run events = some r' → r'.state.maxSize = r.state.maxSize
  | _, [], _, hrun => by cases hrun; rfl
  | _, _ :: _, _, hrun => by
      obtain ⟨r'', hstep, hrest⟩ := Option.bind_eq_some.mp hrun
      rw [maxSize_run hrest, maxSize_step hstep]

namespace NodesInv

variable {s : AllocatorState}

/-- After `AllocateRaw` the node of the request's key is at the front of `alloc_list_`. -/
theorem allocateRaw_front (h : NodesInv s) {alignment numBytes base : Nat}
    {s' : AllocatorState} {ptr : Nat} (hallocate : s.allocateRaw alignment numBytes base = some (s', ptr)) :
    ∃ entry rest, s'.allocList = entry :: rest ∧
      entry.allocKey = ⟨max alignment pointerSize, roundUpTo numBytes (max alignment pointerSize)⟩ := by
  unfold AllocatorState.allocateRaw at hallocate
  dsimp only at hallocate
  split at hallocate
  · next id hlookup =>
      split at hallocate
      · next entry hfind =>
          have hkey := h.key_of_lookup hlookup (List.mem_of_find?_eq_some hfind)
            (by simpa using List.find?_some hfind)
          split at hallocate
          · obtain ⟨rfl, rfl⟩ := Prod.mk.inj (Option.some.inj hallocate)
            exact ⟨_, _, rfl, hkey⟩
          · obtain ⟨-, -, -, blocks, rest', hlist⟩ := AllocatorState.refill_front hallocate
            exact ⟨_, _, hlist, hkey⟩
      · cases hallocate
  · obtain ⟨-, -, -, blocks, rest', hlist⟩ := AllocatorState.refill_front hallocate
    exact ⟨_, _, hlist, rfl⟩

/-- `AllocateRaw` of the front node's key, the node caching `ptr` at the back of its blocks, hands
out `ptr` and leaves the node as it was before `ptr` was cached. -/
theorem allocateRaw_of_cached (h : NodesInv s) {entry : AllocBlocks}
    {rest : List AllocBlocks} (hlist : s.allocList = entry :: rest) {alignment numBytes : Nat}
    (hkey : entry.allocKey = ⟨max alignment pointerSize, roundUpTo numBytes (max alignment pointerSize)⟩)
    (ptr base : Nat) :
    { s with allocList := { entry with blocks := ptr :: entry.blocks } :: rest }.allocateRaw
      alignment numBytes base = some (s, ptr) := by
  have hlookup := h.lookup_allocs (hlist ▸ List.mem_cons_self entry rest)
  have hrest : rest.filter (·.id ≠ entry.id) = rest :=
    List.filter_eq_self.mpr fun e he => by simpa using h.id_ne_of_front hlist e he
  rw [hkey] at hlookup
  unfold AllocatorState.allocateRaw
  dsimp only
  rw [hlookup]
  dsimp only
  rw [List.find?_cons_of_pos _ (by simp), List.filter_cons_of_neg (by simp), hrest]
  show some ({ s with allocList := entry :: rest }, ptr) = some (s, ptr)
  rw [← hlist]

end NodesInv

namespace AllocatorInv

/-- `DeallocateRaw` of a pointer handed out from the front node, of a size below `max_size_`,
caches it at the back of the node's blocks and changes nothing else. -/
theorem deallocateRaw_of_front {s : AllocatorState} {outstanding : List Nat} {ptr : Nat}
    (h : AllocatorInv ⟨s, ptr :: outstanding⟩) {entry : AllocBlocks}
    {rest : List AllocBlocks} (hlist : s.allocList = entry :: rest) (hsmall : entry.allocKey.numBytes < s.maxSize)
    {block : SystemBlock} (hblock : block ∈ s.heap.live) (hptr : block.ptr = ptr)
    (hkey : block.allocKey = entry.allocKey) :
    s.deallocateRaw ptr = some { s with allocList := { entry with blocks := ptr :: entry.blocks } :: rest } := by
  have hentry : entry ∈ s.allocList := hlist ▸ List.mem_cons_self _ _
  obtain ⟨owner, howner, hheader, hownerkey⟩ := h.headers block hblock
  obtain rfl : owner = entry := List.inj_on_of_nodup_map h.keys howner hentry (hownerkey.trans hkey)
  have hpos : ptr ≠ 0 := by
    have := (h.ledger.placed block hblock).1
    rw [← hptr, SystemBlock.ptr]
    omega
  have hfound : s.heap.live.find? (·.ptr = ptr) = some block := by
    cases hfind : s.heap.live.find? (·.ptr = ptr) with
    | none => exact absurd hptr (by simpa using List.find?_eq_none.mp hfind block hblock)
    | some found =>
        have hfoundptr : found.ptr = ptr := by simpa using List.find?_some hfind
        rw [h.ledger.eq_of_ptr_eq (List.mem_of_find?_eq_some hfind) hblock (hfoundptr.trans hptr.symm)]
  have hrest := h.id_ne_of_front hlist
  have hmap : rest.map (AllocBlocks.pushBlock owner.id ptr) = rest :=
    (List.map_congr_left fun e he => by simp [AllocBlocks.pushBlock, hrest e he]).trans (List.map_id rest)
  unfold AllocatorState.deallocateRaw
  rw [if_neg hpos, hfound]
  dsimp only
  rw [hlist, List.find?_cons_of_pos _ (by simpa using hheader)]
  dsimp only
  rw [if_pos hsmall, List.map_cons, hmap]
  simp [AllocBlocks.pushBlock]

end AllocatorInv

/-- Over every reachable state of the tensor allocator, a block given back is the block the next
`AllocateRaw` of its key hands out: after an `AllocateRaw` whose rounded size is below
`max_size_`, the `DeallocateRaw` of the pointer it handed out followed by the same `AllocateRaw`
hands out that pointer again and leaves the allocator, cache and `size_` alike, as the first call
left it, whatever `TensorAllocatorTraits::allocate` would return. -/
theorem allocateRaw_reuses_freed (maxSize : Nat) (events : List AllocatorEvent) {r r' : AllocatorRun}
    (hfits : ∀ event ∈ events, event.fitsSizeT = true)
    (hrun : (AllocatorRun.init maxSize).run events = some r) {alignment numBytes base : Nat}
    (hfit : (AllocatorEvent.allocateRaw alignment numBytes base).fitsSizeT = true)
    (hsmall : roundUpTo numBytes (max alignment pointerSize) < maxSize)
    (hstep : r.step (.allocateRaw alignment numBytes base) = some r') (base' : Nat) :
    ∃ ptr, r'.outstanding = ptr :: r.outstanding ∧
      r'.run [.deallocateRaw ptr, .allocateRaw alignment numBytes base'] = some r' := by
  have h := (AllocatorInv.init maxSize).run hfits hrun
  obtain ⟨⟨s', ptr⟩, hallocate, rfl⟩ := Option.map_eq_some'.mp hstep
  obtain ⟨hinv, -, block, hblock, hptr, hkey⟩ := h.allocateRaw (of_decide_eq_true hfit) hallocate
  obtain ⟨entry, rest, hlist, hentrykey⟩ := h.toNodesInv.allocateRaw_front hallocate
  have hsmall' : entry.allocKey.numBytes < s'.maxSize := by
    rw [hentrykey, AllocatorState.maxSize_allocateRaw hallocate, AllocatorRun.maxSize_run hrun]
    exact hsmall
  refine ⟨ptr, rfl, ?_⟩
  simp only [AllocatorRun.run, AllocatorRun.step, List.mem_cons_self, if_true,
    hinv.deallocateRaw_of_front hlist hsmall' hblock hptr (hkey.trans hentrykey.symm), Option.map_some',
    Option.some_bind, List.erase_cons_head, hinv.toNodesInv.allocateRaw_of_cached hlist hentrykey ptr base']

/-- After `reuseEvents`, a second block of the key while the first is still handed out, at
address 48. -/
def secondBlockRun : AllocatorRun :=
  ⟨⟨100, [⟨0, ⟨8, 16⟩, []⟩], [(⟨8, 16⟩, 0)], ⟨32, [⟨16, ⟨8, 16⟩, 0⟩, ⟨48, ⟨8, 16⟩, 0⟩]⟩⟩, [56, 24]⟩

theorem allocateRaw_reuses_freed_second :
    (∀ event ∈ reuseEvents, event.fitsSizeT = true) ∧
    (AllocatorRun.init 100).run reuseEvents = some reusedAllocator ∧
    (AllocatorEvent.allocateRaw 8 16 48).fitsSizeT = true ∧
    roundUpTo 16 (max 8 pointerSize) < 100 ∧
    reusedAllocator.step (.allocateRaw 8 16 48) = some secondBlockRun ∧
    ∃ ptr, secondBlockRun.outstanding = ptr :: reusedAllocator.outstanding ∧
      secondBlockRun.run [.deallocateRaw ptr, .allocateRaw 8 16 0] = some secondBlockRun :=
  ⟨by decide, by decide, by decide, by decide, by decide,
    @allocateRaw_reuses_freed 100 reuseEvents reusedAllocator secondBlockRun (by decide) (by decide)
      8 16 48 (by decide) (by decide) (by decide) 0⟩

/-! ## Blocks too large to cache -/

/-- Every node that caches a block is of a key below `max_size_`. -/
def SmallCached (maxSize : Nat) (allocList : List AllocBlocks) : Prop :=
  ∀ entry ∈ allocList, entry.blocks ≠ [] → entry.allocKey.numBytes < maxSize

namespace SmallCached

variable {maxSize : Nat}

theorem cons_empty {allocList : List AllocBlocks} (h : SmallCached maxSize allocList) {entry : AllocBlocks}
    (hempty : entry.blocks = []) : SmallCached maxSize (entry :: allocList) := fun e he hblocks => by
  rcases List.mem_cons.mp he with rfl | he
  · exact absurd hempty hblocks
  · exact h e he hblocks

theorem trimCache {entries : List AllocBlocks} (h : SmallCached maxSize entries) (numBytes : Nat)
    (heap : Heap) : SmallCached maxSize (XrtClient.trimCache maxSize numBytes heap entries).2 :=
  fun e he hblocks => by
    obtain ⟨old, hold, -, hkey, hsuffix⟩ := Forall₂_trimmed_mem (trimCache_trimmed maxSize numBytes heap entries) he
    rw [hkey]
    exact h old hold fun hnil => hblocks (List.eq_nil_of_suffix_nil (hnil ▸ hsuffix))

end SmallCached

namespace AllocatorState

theorem refill_smallCached {s : AllocatorState} {entry : AllocBlocks} {rest : List AllocBlocks}
    {base : Nat} {s' : AllocatorState} {ptr : Nat} (hrefill : s.refill entry rest base = some (s', ptr))
    (h : SmallCached s.maxSize (entry :: rest)) :
    SmallCached s'.maxSize s'.allocList ∧ ptr = base + entry.allocKey.alignment := by
  unfold AllocatorState.refill at hrefill
  obtain ⟨⟨heap', ptr'⟩, hnew, heq⟩ := Option.map_eq_some'.mp hrefill
  cases heq
  unfold Heap.newBlock at hnew
  split at hnew
  · cases hnew
    exact ⟨h.trimCache _ _, rfl⟩
  · cases hnew

/-- `AllocateRaw` keeps every caching node below `max_size_`; a request of `max_size_` bytes or
more makes a new block. -/
theorem allocateRaw_smallCached {s : AllocatorState} (h : SmallCached s.maxSize s.allocList)
    (hinv : NodesInv s) {alignment numBytes base : Nat}
    {s' : AllocatorState} {ptr : Nat} (hallocate : s.allocateRaw alignment numBytes base = some (s', ptr)) :
    SmallCached s'.maxSize s'.allocList ∧
      (s.maxSize ≤ roundUpTo numBytes (max alignment pointerSize) → ptr = base + max alignment pointerSize) := by
  unfold AllocatorState.allocateRaw at hallocate
  dsimp only at hallocate
  split at hallocate
  · next id hlookup =>
      split at hallocate
      · next entry hfind =>
          have hentry := List.mem_of_find?_eq_some hfind
          have hkey := hinv.key_of_lookup hlookup hentry (by simpa using List.find?_some hfind)
          have hrest : SmallCached s.maxSize (s.allocList.filter (·.id ≠ id)) :=
            fun e he => h e (List.mem_of_mem_filter he)
          split at hallocate
          · next ptr' blocks hblocks =>
              obtain ⟨rfl, rfl⟩ := Prod.mk.inj (Option.some.inj hallocate)
              have hsmall := h entry hentry (by rw [hblocks]; exact List.cons_ne_nil _ _)
              refine ⟨fun e he hne => ?_, fun hlarge => absurd hsmall (by simp only [hkey]; omega)⟩
              rcases List.mem_cons.mp he with rfl | he
              · exact hsmall
              · exact hrest e he hne
          · next hblocks =>
              obtain ⟨hsmall, hptr⟩ := refill_smallCached hallocate (hrest.cons_empty hblocks)
              exact ⟨hsmall, fun _ => by rw [hptr, hkey]⟩
      · cases hallocate
  · obtain ⟨hsmall, hptr⟩ := refill_smallCached hallocate (h.cons_empty rfl)
    exact ⟨hsmall, fun _ => hptr⟩

end AllocatorState

/-- `DeallocateRaw` caches a block only below `max_size_`. -/
theorem NodesInv.deallocateRaw_smallCached {s : AllocatorState}
    (hinv : NodesInv s) (h : SmallCached s.maxSize s.allocList) {ptr : Nat}
    {s' : AllocatorState} (hdeallocate : s.deallocateRaw ptr = some s') : SmallCached s'.maxSize s'.allocList := by
  unfold AllocatorState.deallocateRaw at hdeallocate
  split at hdeallocate
  · cases hdeallocate
    exact h
  · split at hdeallocate
    · cases hdeallocate
    · split at hdeallocate
      · cases hdeallocate
      · next entry hfind =>
          have hentry := List.mem_of_find?_eq_some hfind
          split at hdeallocate
          · next hsmall =>
              cases hdeallocate
              intro e' he' hne
              obtain ⟨e, he, rfl⟩ := List.mem_map.mp he'
              unfold AllocBlocks.pushBlock at hne ⊢
              split at hne
              · next hid =>
                  rw [if_pos hid, hinv.eq_of_id_eq he hentry hid]
                  exact hsmall
              · rw [if_neg (by assumption)]
                exact h e he hne
          · cases hdeallocate
            exact h

/-- Every call keeps the caching nodes below `max_size_`. -/
theorem smallCached_step {r r' : AllocatorRun} (hinv : NodesInv r.state) (h : SmallCached r.state.maxSize r.state.allocList)
    {event : AllocatorEvent} (hstep : r.step event = some r') : SmallCached r'.state.maxSize r'.state.allocList := by
  cases event with
  | allocateRaw alignment numBytes base =>
      obtain ⟨⟨s', ptr⟩, hallocate, rfl⟩ := Option.map_eq_some'.mp hstep
      exact (AllocatorState.allocateRaw_smallCached h hinv hallocate).1
  | deallocateRaw ptr =>
      obtain ⟨-, s', hdeallocate, rfl⟩ := AllocatorRun.step_deallocateRaw hstep
      exact hinv.deallocateRaw_smallCached h hdeallocate

theorem smallCached_run : ∀ {r : AllocatorRun} {events : List AllocatorEvent} {r' : AllocatorRun},
    NodesInv r.state → SmallCached r.state.maxSize r.state.allocList → r.run events = some r' →
      SmallCached r'.state.maxSize r'.state.allocList
  | _, [], _, _, h, hrun => by cases hrun; exact h
  | _, _ :: _, _, hinv, h, hrun => by
      obtain ⟨r'', hstep, hrest⟩ := Option.bind_eq_some.mp hrun
      exact smallCached_run (hinv.step hstep) (smallCached_step hinv h hstep) hrest

/-- Over every run of the tensor allocator, no node of a key of `max_size_` bytes or more caches a
block: `DeallocateRaw` frees such a block at once. An `AllocateRaw` of such a size is therefore
never served from the cache: it makes a new block, and hands out the address
`TensorAllocatorTraits::allocate` returns past the header area. -/
theorem allocator_never_caches_large (maxSize : Nat) (events : List AllocatorEvent) {r : AllocatorRun}
    (hrun : (AllocatorRun.init maxSize).run events = some r) :
    (∀ entry ∈ r.state.allocList, maxSize ≤ entry.allocKey.numBytes → entry.blocks = []) ∧
    ∀ alignment numBytes base r', maxSize ≤ roundUpTo numBytes (max alignment pointerSize) →
      r.step (.allocateRaw alignment numBytes base) = some r' →
      r'.outstanding = (base + max alignment pointerSize) :: r.outstanding := by
  have hinv := (NodesInv.init maxSize).run hrun
  have h := smallCached_run (NodesInv.init maxSize) (fun _ he => nomatch he) hrun
  have hmax : r.state.maxSize = maxSize := AllocatorRun.maxSize_run hrun
  rw [hmax] at h
  refine ⟨fun entry hentry hlarge => ?_, fun alignment numBytes base r' hlarge hstep => ?_⟩
  · by_contra hne
    exact absurd (h entry hentry hne) (by omega)
  · obtain ⟨⟨s', ptr⟩, hallocate, rfl⟩ := Option.map_eq_some'.mp hstep
    rw [← hmax] at h hlarge
    rw [(AllocatorState.allocateRaw_smallCached h hinv hallocate).2 hlarge]

/-- A block of 40 bytes under a cache of 16, given back: `DeallocateRaw` frees it, and the node
of its key caches nothing. -/
def largeFreedRun : AllocatorRun :=
  ⟨⟨16, [⟨0, ⟨8, 40⟩, []⟩], [(⟨8, 40⟩, 0)], ⟨0, []⟩⟩, []⟩

theorem allocator_never_caches_large_freed :
    (AllocatorRun.init 16).run [.allocateRaw 8 40 16, .deallocateRaw 24] = some largeFreedRun ∧
    (∀ entry ∈ largeFreedRun.state.allocList, 16 ≤ entry.allocKey.numBytes → entry.blocks = []) ∧
    ∀ alignment numBytes base r', 16 ≤ roundUpTo numBytes (max alignment pointerSize) →
      largeFreedRun.step (.allocateRaw alignment numBytes base) = some r' →
      r'.outstanding = (base + max alignment pointerSize) :: largeFreedRun.outstanding :=
  ⟨by decide, allocator_never_caches_large 16 [.allocateRaw 8 40 16, .deallocateRaw 24] (by decide)⟩

end XrtClient
