import XrtClient.Basic
import Mathlib.Data.List.Perm.Basic
import Mathlib.Data.List.Range
import Mathlib.Data.List.Nodup
import Mathlib.Algebra.BigOperators.Group.List
import Mathlib.Algebra.Order.Ring.Nat

/-! # Transfers to the server

`XrtDevice::TransferToServer` cuts the tensors into partitions of bounded byte size
(`PartitionTransferToServer`) and sends each partition from its own closure; a single
partition goes straight to `TransferToServerInternal`. There one converter closure per tensor
fills its staging buffer and, under a lock, feeds it to the next allocate node of the session;
the session's runner runs the batch and stores each returned handle at its tensor's position.

The closures run in any order: the model takes the order in which the senders run and the
order in which the converters take the lock as functions that permute their closures. The node
cache hands out a distinct node on each call within a transfer and the session cache a distinct
session to each `SessionMap`, so the `k`-th allocation of partition `p` goes through node
`⟨p, k⟩`.
-/

namespace XrtClient

/-- `ComputationClient::TensorSource`: the shape of a host tensor and the contents its
`populate_fn` writes into the staging buffer. -/
structure TensorSource (Buffer : Type) where
  shape : Shape
  populateFn : Buffer

/-- The `index`-th allocate node the node cache of session `session` hands out. -/
structure AllocNode where
  session : Nat
  index : Nat
  deriving DecidableEq, Repr

/-- `SessionWork`: the feeds, fetched outputs and caller positions batched for one session. -/
structure SessionWork (Node Feed : Type) where
  feedInputs : List (Node × Feed)
  outputsHandles : List Node
  indexMapping : List Nat

variable {Buffer H : Type}

/-- The locked section of a converter closure: feed the buffer to the next cached node. -/
def SessionWork.addAllocation (work : SessionWork AllocNode Buffer) (session index : Nat)
    (buffer : Buffer) : SessionWork AllocNode Buffer :=
  let node : AllocNode := ⟨session, work.outputsHandles.length⟩
  { feedInputs := emplace work.feedInputs node buffer
    outputsHandles := work.outputsHandles ++ [node]
    indexMapping := work.indexMapping ++ [index] }

/-! ## `TransferToServerInternal` -/

section Internal

variable (opts : Options) (allocate : AllocNode → Buffer → H) (device : DeviceId)

/-- One converter closure, which captured its index and tensor: it resolves the device's
session (`SwiftDeviceToXrtDevice`, `GetSessionForXrtDevice`) and feeds the populated buffer. -/
def convertTensor (session : Nat) (work : SessionWork AllocNode Buffer)
    (closure : Nat × TensorSource Buffer) : Except Fault (SessionWork AllocNode Buffer) := do
  let _ ← opts.sessionTarget device
  pure (work.addAllocation session closure.1 closure.2.populateFn)

/-- `session->Run(feed_inputs, outputs_handles)` on allocate nodes: each fetched node returns
the handle the server allocates for the buffer fed to its placeholder. -/
def runAllocate (work : SessionWork AllocNode Buffer) : Except Fault (List H) :=
  work.outputsHandles.mapM fun node =>
    match work.feedInputs.lookup node with
    | some buffer => .ok (allocate node buffer)
    | none => .error (.checkFailed "placeholder not fed")

/-- The runner's stores `results[index_mapping[i]] = XrtData(device, tensors[li].shape, h)`. -/
def storeAllocations (tensors : List (TensorSource Buffer)) (work : SessionWork AllocNode Buffer)
    (outputs : List H) : Except Fault (List (Nat × Option (XrtData H))) :=
  (work.indexMapping.zip outputs).mapM fun (li, handle) => do
    let tensor ← vectorAt "tensors" tensors li
    pure (li, some ⟨device, tensor.shape, handle⟩)

/-- `TransferToServerInternal` on a session of its own: `converters` is the order in which the
converter closures take the lock. All tensors go to one device, hence one session. -/
def transferToServerInternal (session : Nat)
    (converters : List (Nat × TensorSource Buffer) → List (Nat × TensorSource Buffer))
    (tensors : List (TensorSource Buffer)) : Except Fault (List (Option (XrtData H))) := do
  let work ← (converters tensors.enum).foldlM (convertTensor opts device session) ⟨[], [], []⟩
  let outputs ← runAllocate allocate work
  let writes ← storeAllocations device tensors work outputs
  pure (scatter (List.replicate tensors.length none) writes)

end Internal

/-! ## Partitions -/

/-- The loop of `PartitionTransferToServer` over the tensors' byte sizes. `current_size` is a
`uint64`, and the comparison converts the `int64` ceiling to `uint64`. -/
def partitionLoop (ceiling : Nat) : Nat → Nat → List Nat → List Nat → List Nat
  | _, _, partitions, [] => partitions
  | i, currentSize, partitions, size :: rest =>
      if ceiling < (currentSize + size) % 2 ^ 64 then
        let partitions := if partitions = [] ∧ 0 < i then partitions ++ [0] else partitions
        partitionLoop ceiling (i + 1) (size % 2 ^ 64) (partitions ++ [i]) rest
      else partitionLoop ceiling (i + 1) ((currentSize + size) % 2 ^ 64) partitions rest

/-- `PartitionTransferToServer`: the start index of each partition. -/
def partitionTransferToServer (maxPartitionSize : Int) (sizes : List Nat) : List Nat :=
  match partitionLoop (maxPartitionSize % 2 ^ 64).toNat 0 0 [] sizes with
  | [] => [0]
  | partitions => partitions

/-- `base_index` of the sender closure of partition `i`. -/
def partitionBase (partitions : List Nat) (i : Nat) : Nat :=
  partitions.getD i 0

/-- `length` of the sender closure of partition `i` among `count` tensors. -/
def partitionLength (partitions : List Nat) (count i : Nat) : Nat :=
  if i + 1 < partitions.length then partitions.getD (i + 1) 0 - partitionBase partitions i
  else count - partitionBase partitions i

/-- Start indices of a partition of `count` tensors: `0` first, increasing, and below `count`
(just `[0]` when there is no tensor). -/
def PartitionStarts (count : Nat) (starts : List Nat) : Prop :=
  starts.head? = some 0 ∧ starts.Pairwise (· < ·) ∧ ∀ p ∈ starts, p = 0 ∨ p < count

theorem partitionLoop_starts (ceiling : Nat) :
    ∀ (sizes : List Nat) (i current : Nat) (partitions : List Nat),
      (partitions = [] ∨ partitions.head? = some 0) → partitions.Pairwise (· < ·) →
      (∀ p ∈ partitions, p < i) →
      (partitionLoop ceiling i current partitions sizes = [] ∨
          (partitionLoop ceiling i current partitions sizes).head? = some 0) ∧
        (partitionLoop ceiling i current partitions sizes).Pairwise (· < ·) ∧
        ∀ p ∈ partitionLoop ceiling i current partitions sizes, p < i + sizes.length
  | [], i, _, partitions, hhead, hsorted, hbound => ⟨hhead, hsorted, by simpa using hbound⟩
  | size :: rest, i, current, partitions, hhead, hsorted, hbound => by
      unfold partitionLoop
      split
      · apply (partitionLoop_starts ceiling rest (i + 1) _ _ _ _ _).imp_right
        · exact fun h => ⟨h.1, fun p hp => by simpa [Nat.add_assoc, Nat.add_comm 1] using h.2 p hp⟩
        · split
          · next h => simp [h.1]
          · next h =>
              rcases hhead with rfl | hhead
              · right
                have : i = 0 := by simp at h; omega
                simp [this]
              · right
                cases partitions with
                | nil => simp at hhead
                | cons q qs => simpa using hhead
        · split
          · next h => simp [h.1, h.2]
          · exact List.pairwise_append.mpr ⟨hsorted, by simp, fun p hp q hq => by
              simp only [List.mem_singleton] at hq
              exact hq ▸ hbound p hp⟩
        · intro p hp
          split at hp
          · next h =>
              simp only [h.1, List.nil_append, List.cons_append, List.mem_cons,
                List.mem_singleton, List.not_mem_nil, or_false] at hp
              omega
          · simp only [List.mem_append, List.mem_singleton] at hp
            rcases hp with hp | rfl
            · exact Nat.lt_succ_of_lt (hbound p hp)
            · exact Nat.lt_succ_self _
      · obtain ⟨h1, h2, h3⟩ := partitionLoop_starts ceiling rest (i + 1) _ partitions hhead hsorted
          (fun p hp => Nat.lt_succ_of_lt (hbound p hp))
        exact ⟨h1, h2, fun p hp => by simpa [Nat.add_assoc, Nat.add_comm 1] using h3 p hp⟩

theorem partitionTransferToServer_starts (maxPartitionSize : Int) (sizes : List Nat) :
    PartitionStarts sizes.length (partitionTransferToServer maxPartitionSize sizes) := by
  obtain ⟨hhead, hsorted, hbound⟩ :=
    partitionLoop_starts (maxPartitionSize % 2 ^ 64).toNat sizes 0 0 [] (by simp) (by simp)
      (by simp)
  unfold partitionTransferToServer
  split
  · simp [PartitionStarts]
  · next partitions hne =>
      refine ⟨hhead.resolve_left hne, hsorted, fun p hp => .inr (by simpa using hbound p hp)⟩

example : partitionTransferToServer 8 [8, 8, 8] = [0, 1, 2] := by decide

/-! ## The greedy rule of the partitions -/

/-- The bytes of the tensors `[first, last)`. -/
def segmentSize (sizes : List Nat) (first last : Nat) : Nat :=
  ((sizes.drop first).take (last - first)).sum

/-- Neighbouring starts `p` and `q` of the greedy rule: the partition `[p, q)` fits under the
ceiling or is a single tensor, and it would not fit with tensor `q` added. -/
def ClosedPartition (sizes : List Nat) (ceiling p q : Nat) : Prop :=
  (segmentSize sizes p q ≤ ceiling ∨ q = p + 1) ∧ ceiling < segmentSize sizes p (q + 1)

/-- The partition `[p, count)` fits under the ceiling or is a single tensor. -/
def OpenPartition (sizes : List Nat) (ceiling p count : Nat) : Prop :=
  segmentSize sizes p count ≤ ceiling ∨ count = p + 1

/-- The starts a loop state stands for: `PartitionTransferToServer` pushes the start `0` only
at the first split, and returns `[0]` when there was none. -/
def startsOrZero : List Nat → List Nat
  | [] => [0]
  | partitions => partitions

@[simp] theorem startsOrZero_append_singleton (partitions : List Nat) (i : Nat) :
    startsOrZero (partitions ++ [i]) = partitions ++ [i] := by
  cases partitions <;> rfl

theorem partitionTransferToServer_eq (maxPartitionSize : Int) (sizes : List Nat) :
    partitionTransferToServer maxPartitionSize sizes =
      startsOrZero (partitionLoop (maxPartitionSize % 2 ^ 64).toNat 0 0 [] sizes) := rfl

theorem segmentSize_succ {sizes : List Nat} {p i s : Nat} (hp : p ≤ i) (hs : sizes[i]? = some s) :
    segmentSize sizes p (i + 1) = segmentSize sizes p i + s := by
  have hget : (sizes.drop p)[i - p]? = some s := by
    rw [List.getElem?_drop, Nat.add_sub_cancel' hp, hs]
  simp [segmentSize, show i + 1 - p = i - p + 1 by omega, List.take_succ, hget, List.sum_append]

@[simp] theorem segmentSize_self (sizes : List Nat) (p : Nat) : segmentSize sizes p p = 0 := by
  simp [segmentSize]

/-- What the loop of `PartitionTransferToServer` keeps after the first `i` tensors: the closed
partitions follow the greedy rule, and `current` is the size of the open one, which fits or is
a single tensor. -/
structure GreedyState (sizes : List Nat) (ceiling i current : Nat) (partitions : List Nat) :
    Prop where
  le_length : i ≤ sizes.length
  chain : (startsOrZero partitions).Chain' (ClosedPartition sizes ceiling)
  last : ∀ p ∈ (startsOrZero partitions).getLast?,
    p ≤ i ∧ current = segmentSize sizes p i ∧ OpenPartition sizes ceiling p i

section Greedy

variable {sizes : List Nat} {ceiling : Nat}

theorem GreedyState.extend {i current s : Nat} {partitions : List Nat}
    (h : GreedyState sizes ceiling i current partitions) (hs : sizes[i]? = some s)
    (hfit : current + s ≤ ceiling) : GreedyState sizes ceiling (i + 1) (current + s) partitions where
  le_length := (List.getElem?_eq_some_iff.mp hs).1
  chain := h.chain
  last p hp := by
    obtain ⟨hpi, rfl, -⟩ := h.last p hp
    exact ⟨by omega, (segmentSize_succ hpi hs).symm, .inl (by rwa [segmentSize_succ hpi hs])⟩

theorem GreedyState.split {i current s : Nat} {partitions : List Nat}
    (h : GreedyState sizes ceiling i current partitions) (hs : sizes[i]? = some s)
    (hover : ceiling < current + s) :
    GreedyState sizes ceiling (i + 1) s
      ((if partitions = [] ∧ 0 < i then partitions ++ [0] else partitions) ++ [i]) := by
  have hi : i < sizes.length := (List.getElem?_eq_some_iff.mp hs).1
  have hsingle : s = segmentSize sizes i (i + 1) := by simp [segmentSize_succ le_rfl hs]
  by_cases hfirst : partitions = [] ∧ i = 0
  · obtain ⟨rfl, rfl⟩ := hfirst
    exact ⟨hi, List.chain'_singleton _, by simpa [startsOrZero] using ⟨hsingle, .inr rfl⟩⟩
  have hstarts : (if partitions = [] ∧ 0 < i then partitions ++ [0] else partitions) ++ [i] =
      startsOrZero partitions ++ [i] := by
    cases partitions with
    | nil =>
        simp only [true_and] at hfirst
        simp [startsOrZero, Nat.pos_of_ne_zero hfirst]
    | cons => simp [startsOrZero]
  rw [hstarts]
  refine ⟨hi, ?_, ?_⟩ <;> rw [startsOrZero_append_singleton]
  · refine h.chain.append (List.chain'_singleton _) fun p hp q hq => ?_
    obtain ⟨hpi, rfl, hopen⟩ := h.last p hp
    obtain rfl : i = q := by simpa using hq
    exact ⟨hopen, by rwa [segmentSize_succ hpi hs]⟩
  · intro p hp
    obtain rfl : i = p := by simpa using hp
    exact ⟨by omega, hsingle, .inr rfl⟩

theorem exists_mem_getLast?_startsOrZero (partitions : List Nat) :
    ∃ p, p ∈ (startsOrZero partitions).getLast? := by
  cases partitions with
  | nil => exact ⟨0, rfl⟩
  | cons q rest => exact ⟨_, List.getLast?_eq_getLast (q :: rest) (List.cons_ne_nil q rest)⟩

/-- The loop of `PartitionTransferToServer` from a state that keeps `GreedyState` ends in starts
that follow the greedy rule. Byte sizes are `int64`s and so below `2 ^ 63`, as is the ceiling:
the `uint64` sums of the loop never wrap. -/
theorem partitionLoop_greedy (hceiling : ceiling < 2 ^ 63) (hsizes : ∀ s ∈ sizes, s < 2 ^ 63) :
    ∀ (rest : List Nat) (i current : Nat) (partitions : List Nat), sizes.drop i = rest →
      GreedyState sizes ceiling i current partitions →
      (startsOrZero (partitionLoop ceiling i current partitions rest)).Chain'
          (ClosedPartition sizes ceiling) ∧
        ∀ p ∈ (startsOrZero (partitionLoop ceiling i current partitions rest)).getLast?,
          OpenPartition sizes ceiling p sizes.length
  | [], i, _, _, hrest, h => by
      obtain rfl : i = sizes.length := le_antisymm h.le_length (List.drop_eq_nil_iff.mp hrest)
      exact ⟨h.chain, fun p hp => (h.last p hp).2.2⟩
  | s :: rest, i, current, partitions, hrest, h => by
      have hs : sizes[i]? = some s := by
        rw [← Nat.add_zero i, ← List.getElem?_drop, hrest, List.getElem?_cons_zero]
      have hnext : sizes.drop (i + 1) = rest := by
        rw [← List.drop_drop, hrest, List.drop_one, List.tail_cons]
      have hs63 : s < 2 ^ 63 := hsizes s (List.getElem?_mem hs)
      have hcurrent : current < 2 ^ 63 := by
        obtain ⟨p, hp⟩ := exists_mem_getLast?_startsOrZero partitions
        obtain ⟨hpi, rfl, hopen | rfl⟩ := h.last p hp
        · omega
        · have hp' : p < sizes.length := by have := (List.getElem?_eq_some_iff.mp hs).1; omega
          have hx : sizes[p]? = some sizes[p] := List.getElem?_eq_getElem hp'
          rw [segmentSize_succ le_rfl hx, segmentSize_self, zero_add]
          exact hsizes _ (List.getElem_mem _)
      simp only [partitionLoop, Nat.mod_eq_of_lt (show current + s < 2 ^ 64 by omega),
        Nat.mod_eq_of_lt (show s < 2 ^ 64 by omega)]
      split
      · exact partitionLoop_greedy hceiling hsizes rest (i + 1) s _ hnext (h.split hs (by omega))
      · exact partitionLoop_greedy hceiling hsizes rest (i + 1) (current + s) partitions hnext
          (h.extend hs (by omega))

end Greedy

/-- `PartitionTransferToServer` is the greedy first-fit partition: the starts begin at `0`,
increase and stay below the tensor count; each partition fits under the ceiling or is a single
tensor, and each but the last would not fit with the next tensor added. -/
theorem partitionTransferToServer_greedy (maxPartitionSize : Int) (sizes : List Nat)
    (hceiling : 0 ≤ maxPartitionSize ∧ maxPartitionSize < 2 ^ 63)
    (hsizes : ∀ s ∈ sizes, s < 2 ^ 63) (hne : sizes ≠ []) :
    (partitionTransferToServer maxPartitionSize sizes).head? = some 0 ∧
      (partitionTransferToServer maxPartitionSize sizes).Pairwise (· < ·) ∧
      (∀ p ∈ partitionTransferToServer maxPartitionSize sizes, p < sizes.length) ∧
      (partitionTransferToServer maxPartitionSize sizes).Chain'
        (ClosedPartition sizes maxPartitionSize.toNat) ∧
      ∀ p ∈ (partitionTransferToServer maxPartitionSize sizes).getLast?,
        OpenPartition sizes maxPartitionSize.toNat p sizes.length := by
  obtain ⟨hhead, hsorted, hbound⟩ := partitionTransferToServer_starts maxPartitionSize sizes
  have hlength : 0 < sizes.length := List.length_pos.mpr hne
  refine ⟨hhead, hsorted, fun p hp => (hbound p hp).elim (· ▸ hlength) id, ?_⟩
  have hceiling' : (maxPartitionSize % 2 ^ 64).toNat = maxPartitionSize.toNat := by
    rw [Int.emod_eq_of_lt hceiling.1 (by omega)]
  rw [partitionTransferToServer_eq, hceiling']
  refine partitionLoop_greedy (by omega) hsizes sizes 0 0 [] rfl ⟨Nat.zero_le _, List.chain'_singleton _, ?_⟩
  simp [startsOrZero, OpenPartition]

/-- Five tensors of 40% of the ceiling go out as partitions of two, two and one. -/
theorem partitionTransferToServer_greedy_fortyPercent :
    partitionTransferToServer 100 [40, 40, 40, 40, 40] = [0, 2, 4] ∧
      (partitionTransferToServer 100 [40, 40, 40, 40, 40]).Chain'
        (ClosedPartition [40, 40, 40, 40, 40] (100 : Int).toNat) :=
  ⟨by decide, (partitionTransferToServer_greedy 100 [40, 40, 40, 40, 40] (by decide)
    (by decide) (by decide)).2.2.2.1⟩

@[simp] theorem partitionBase_cons_succ (p : Nat) (partitions : List Nat) (i : Nat) :
    partitionBase (p :: partitions) (i + 1) = partitionBase partitions i := rfl

@[simp] theorem partitionLength_cons_succ (p : Nat) (partitions : List Nat) (count i : Nat) :
    partitionLength (p :: partitions) count (i + 1) = partitionLength partitions count i := by
  simp [partitionLength]

/-- The slices of increasing starts up to `count` tile the positions from the first start on. -/
theorem flatMap_partitionSlices (count : Nat) :
    ∀ (p : Nat) (rest : List Nat), (p :: rest).Pairwise (· < ·) → (∀ q ∈ p :: rest, q ≤ count) →
      (List.range (rest.length + 1)).flatMap (fun i =>
          List.range' (partitionBase (p :: rest) i) (partitionLength (p :: rest) count i)) =
        List.range' p (count - p)
  | p, [], _, _ => by simp [partitionBase, partitionLength, show List.range 1 = [0] from rfl]
  | p, q :: rest, hsorted, hbound => by
      have hpq : p < q := List.rel_of_pairwise_cons hsorted (List.mem_cons_self _ _)
      have hq : q ≤ count := hbound q (by simp)
      rw [List.range_succ_eq_map, List.flatMap_cons, List.flatMap_map]
      simp only [Nat.succ_eq_add_one, partitionBase_cons_succ, partitionLength_cons_succ]
      rw [List.length_cons, flatMap_partitionSlices count q rest hsorted.of_cons
        (fun r hr => hbound r (List.mem_cons_of_mem _ hr))]
      have hsplit := List.range'_append p (q - p) (count - q) 1
      rw [show p + 1 * (q - p) = q by omega, show count - q + (q - p) = count - p by omega]
        at hsplit
      simpa [partitionBase, partitionLength] using hsplit

/-- The senders' slices, in partition order, are the tensor positions in order. -/
theorem partitionSlices_cover {count : Nat} {partitions : List Nat}
    (hstarts : PartitionStarts count partitions) :
    (List.range partitions.length).flatMap (fun i =>
        List.range' (partitionBase partitions i) (partitionLength partitions count i)) =
      List.range count := by
  obtain ⟨hhead, hsorted, hbound⟩ := hstarts
  cases partitions with
  | nil => simp at hhead
  | cons p rest =>
      obtain rfl : p = 0 := by simpa using hhead
      rw [List.length_cons, flatMap_partitionSlices count 0 rest hsorted
        (fun q hq => by rcases hbound q hq with h | h <;> omega), List.range_eq_range']
      rfl

/-- Every position a sender stores to is a tensor position. -/
theorem partitionBase_add_lt {count : Nat} {partitions : List Nat}
    (hstarts : PartitionStarts count partitions) {i r : Nat} (hi : i < partitions.length)
    (hr : r < partitionLength partitions count i) : partitionBase partitions i + r < count := by
  rw [← List.mem_range, ← partitionSlices_cover hstarts]
  exact List.mem_flatMap.mpr ⟨i, List.mem_range.mpr hi, List.mem_range'_1.mpr ⟨by omega, by omega⟩⟩

/-! ## `XrtDevice::TransferToServer` -/

/-- The slice `tensors.subspan(base_index, length)` that the sender of partition `i` transfers. -/
def partitionSlice {α : Type} (tensors : List α) (partitions : List Nat) (i : Nat) : List α :=
  (tensors.drop (partitionBase partitions i)).take (partitionLength partitions tensors.length i)

/-- The stores of a sender closure: `results[base_index + r] = partitions_results[r]`. -/
def senderWrites (base length : Nat) (partitionsResults : List (Option (XrtData H))) :
    Except Fault (List (Nat × Option (XrtData H))) :=
  (List.range length).mapM fun r => do
    let result ← vectorAt "partitions_results" partitionsResults r
    pure (base + r, result)

section Partitioned

variable (opts : Options) (allocate : AllocNode → Buffer → H) (device : DeviceId)

/-- The sender closure of partition `i`: it transfers its slice on a session of its own (each
call of `TransferToServerInternal` makes its own `SessionMap`) and stores the results. -/
def sendPartition (tensors : List (TensorSource Buffer)) (partitions : List Nat)
    (converters : Nat → List (Nat × TensorSource Buffer) → List (Nat × TensorSource Buffer))
    (results : List (Option (XrtData H))) (i : Nat) : Except Fault (List (Option (XrtData H))) := do
  let partitionsResults ← transferToServerInternal opts allocate device i (converters i)
    (partitionSlice tensors partitions i)
  let writes ← senderWrites (partitionBase partitions i)
    (partitionLength partitions tensors.length i) partitionsResults
  pure (scatter results writes)

/-- `XrtDevice::TransferToServer`: `senders` is the order in which the sender closures run and
`converters i` the lock order of partition `i`'s converter closures. -/
def transferToServer (maxPartitionSize : Int) (senders : List Nat → List Nat)
    (converters : Nat → List (Nat × TensorSource Buffer) → List (Nat × TensorSource Buffer))
    (tensors : List (TensorSource Buffer)) : Except Fault (List (Option (XrtData H))) := do
  let sizes ← tensors.mapM fun tensor => tensor.shape.byteSizeOfElements
  let partitions := partitionTransferToServer maxPartitionSize sizes
  if partitions.length = 1 then
    transferToServerInternal opts allocate device 0 (converters 0) tensors
  else
    (senders (List.range partitions.length)).foldlM
      (sendPartition opts allocate device tensors partitions converters)
      (List.replicate tensors.length none)

end Partitioned

/-! ## What `TransferToServerInternal` returns -/

/-- The result of a transfer in which tensor `j` went through allocate node `node j`. -/
def allocated (device : DeviceId) (allocate : AllocNode → Buffer → H) (node : Nat → AllocNode)
    (tensors : List (TensorSource Buffer)) : List (Option (XrtData H)) :=
  tensors.mapIdx fun j tensor => some ⟨device, tensor.shape, allocate (node j) tensor.populateFn⟩

@[simp] theorem length_allocated (device : DeviceId) (allocate : AllocNode → Buffer → H)
    (node : Nat → AllocNode) (tensors : List (TensorSource Buffer)) :
    (allocated device allocate node tensors).length = tensors.length := by
  simp [allocated]

@[simp] theorem getElem?_allocated (device : DeviceId) (allocate : AllocNode → Buffer → H)
    (node : Nat → AllocNode) (tensors : List (TensorSource Buffer)) (j : Nat) :
    (allocated device allocate node tensors)[j]? =
      tensors[j]?.map fun tensor => some ⟨device, tensor.shape, allocate (node j) tensor.populateFn⟩ := by
  simp [allocated, List.getElem?_mapIdx]

/-- A lock order of the converter closures holds each tensor position once. -/
theorem lockOrder_keys {α : Type} {tensors : List α} {order : List (Nat × α)}
    (hperm : order.Perm tensors.enum) : (order.map Prod.fst).Perm (List.range tensors.length) := by
  simpa using hperm.map Prod.fst

/-- Closures that took the lock at the same place are the same closure. -/
theorem indexOf_injective_of_keys {α : Type} {order : List (Nat × α)} {count : Nat}
    (hkeys : (order.map Prod.fst).Perm (List.range count)) {r₁ r₂ : Nat} (h₁ : r₁ < count)
    (h₂ : r₂ < count) (h : (order.map Prod.fst).indexOf r₁ = (order.map Prod.fst).indexOf r₂) :
    r₁ = r₂ :=
  (List.indexOf_inj (hkeys.symm.subset (List.mem_range.mpr h₁))
    (hkeys.symm.subset (List.mem_range.mpr h₂))).mp h

section InternalSpec

variable {opts : Options} {allocate : AllocNode → Buffer → H} {device : DeviceId} {target : String}

/-- The converter closures, in lock order, give node `⟨session, k⟩` to the `k`-th of them. -/
theorem foldlM_convertTensor (hdevice : opts.sessionTarget device = .ok target) (session : Nat) :
    ∀ (closures : List (Nat × TensorSource Buffer)) (feeds : List (AllocNode × Buffer))
      (outputs : List AllocNode) (mapping : List Nat),
      (∀ e ∈ feeds, e.1.index < outputs.length) →
      closures.foldlM (convertTensor opts device session) ⟨feeds, outputs, mapping⟩ =
        .ok ⟨feeds ++ (closures.enumFrom outputs.length).map
              (fun c => (⟨session, c.1⟩, c.2.2.populateFn)),
            outputs ++ (closures.enumFrom outputs.length).map (fun c => ⟨session, c.1⟩),
            mapping ++ closures.map Prod.fst⟩
  | [], feeds, outputs, mapping, _ => by simp; rfl
  | closure :: rest, feeds, outputs, mapping, hfresh => by
      have hnew : ∀ e ∈ feeds, e.1 ≠ ⟨session, outputs.length⟩ :=
        fun e he h => by simpa [h] using hfresh e he
      simp only [List.foldlM_cons, convertTensor, hdevice, bind, Except.bind, pure,
        Except.pure, SessionWork.addAllocation, emplace_of_fresh hnew]
      rw [foldlM_convertTensor hdevice session rest _ _ _ (fun e he => by
        simp only [List.mem_append, List.mem_singleton] at he
        rcases he with he | rfl
        · simpa using Nat.lt_succ_of_lt (hfresh e he)
        · simp)]
      simp [List.enumFrom_cons]

/-- `TransferToServerInternal` returns one value per tensor, in tensor order: tensor `j` is
allocated from its own buffer through the node it took from the cache in lock order. -/
theorem transferToServerInternal_eq (hdevice : opts.sessionTarget device = .ok target)
    (session : Nat)
    (converters : List (Nat × TensorSource Buffer) → List (Nat × TensorSource Buffer))
    (tensors : List (TensorSource Buffer)) (hperm : (converters tensors.enum).Perm tensors.enum) :
    transferToServerInternal opts allocate device session converters tensors =
      .ok (allocated device allocate
        (fun j => ⟨session, ((converters tensors.enum).map Prod.fst).indexOf j⟩) tensors) := by
  set order := converters tensors.enum with horder
  have hkeys := lockOrder_keys hperm
  have hnodup : (order.map Prod.fst).Nodup := hkeys.nodup_iff.mpr (List.nodup_range _)
  have hsource : ∀ c ∈ order, tensors[c.1]? = some c.2 :=
    fun c hc => List.mem_enum_iff_getElem?.mp (hperm.subset hc)
  have hfst : order.enum.map (fun c => c.2.1) = order.map Prod.fst := by
    rw [show (fun c : Nat × (Nat × TensorSource Buffer) => c.2.1) = Prod.fst ∘ Prod.snd from rfl,
      ← List.map_map, List.enum_map_snd]
  have hfold := foldlM_convertTensor hdevice session order [] [] [] (by simp)
  simp only [List.nil_append, List.length_nil,
    show List.enumFrom 0 order = order.enum from rfl] at hfold
  have hruns : runAllocate allocate ⟨order.enum.map (fun c => (⟨session, c.1⟩, c.2.2.populateFn)),
      order.enum.map (fun c => ⟨session, c.1⟩), order.map Prod.fst⟩ =
      .ok (order.enum.map fun c => allocate ⟨session, c.1⟩ c.2.2.populateFn) := by
    unfold runAllocate
    rw [mapM_map]
    apply mapM_eq_ok_map
    intro c hc
    have hnodes : order.enum.map (fun c => (⟨session, c.1⟩ : AllocNode)) =
        (List.range order.length).map (AllocNode.mk session) := by
      rw [← List.enum_map_fst, List.map_map]; rfl
    have hfeeds : ((order.enum.map fun c => ((⟨session, c.1⟩ : AllocNode), c.2.2.populateFn)).map
        Prod.fst).Nodup := by
      simpa [List.map_map, Function.comp_def, hnodes] using
        (List.nodup_range order.length).map (f := AllocNode.mk session)
          (fun a b h => by cases h; rfl)
    simp [lookup_of_mem hfeeds (List.mem_map_of_mem _ hc)]
  have hstores : storeAllocations device tensors ⟨order.enum.map
      (fun c => (⟨session, c.1⟩, c.2.2.populateFn)), order.enum.map (fun c => ⟨session, c.1⟩),
      order.map Prod.fst⟩ (order.enum.map fun c => allocate ⟨session, c.1⟩ c.2.2.populateFn) =
      .ok (order.enum.map fun c =>
        (c.2.1, some ⟨device, c.2.2.shape, allocate ⟨session, c.1⟩ c.2.2.populateFn⟩)) := by
    unfold storeAllocations
    rw [← hfst, List.zip_map', mapM_map]
    apply mapM_eq_ok_map
    intro c hc
    have hc' := hsource c.2 (List.mem_enum hc |>.2 ▸ List.getElem_mem _)
    simp [vectorAt, hc']
  simp only [transferToServerInternal, hfold, bind, Except.bind, hruns, hstores, pure,
    Except.pure]
  congr 1
  apply scatter_eq_of_cover
  · simp
  · simpa [List.map_map, Function.comp_def, hfst] using hkeys
  · intro w hw
    obtain ⟨c, hc, rfl⟩ := List.mem_map.mp hw
    obtain ⟨hk, hck⟩ := List.mem_enum hc
    have hget : tensors[c.2.1]? = some c.2.2 := hsource c.2 (hck ▸ List.getElem_mem _)
    have hindex : (order.map Prod.fst).indexOf c.2.1 = c.1 := by
      have := List.indexOf_getElem hnodup c.1 (by simpa using hk)
      simpa [hck] using this
    simp [allocated, List.getElem?_mapIdx, hget, hindex]

end InternalSpec

/-! ## What `XrtDevice::TransferToServer` returns -/

theorem senderWrites_eq (base : Nat) {length : Nat} {partitionsResults : List (Option (XrtData H))}
    (hlength : partitionsResults.length = length) :
    senderWrites base length partitionsResults = .ok (partitionsResults.enumFrom base) := by
  subst hlength
  rw [senderWrites, mapM_eq_ok_map (g := fun r => (base + r, partitionsResults.getD r none))]
  · congr 1
    refine List.ext_getElem (by simp) fun m _ hm => ?_
    simp [List.getElem_enumFrom, List.getElem?_eq_getElem (show m < partitionsResults.length by
      simpa using hm)]
  · intro r hr
    simp [List.mem_range.mp hr, List.getD_eq_getElem?_getD]

theorem length_partitionSlice {α : Type} {tensors : List α} {partitions : List Nat}
    (hstarts : PartitionStarts tensors.length partitions) {i : Nat} (hi : i < partitions.length) :
    (partitionSlice tensors partitions i).length = partitionLength partitions tensors.length i := by
  simp only [partitionSlice, List.length_take, List.length_drop]
  rcases Nat.eq_zero_or_pos (partitionLength partitions tensors.length i) with h | h
  · simp [h]
  · have := partitionBase_add_lt hstarts hi (Nat.sub_lt h Nat.one_pos)
    omega

theorem getElem?_partitionSlice {α : Type} (tensors : List α) (partitions : List Nat) {i r : Nat}
    (hr : r < partitionLength partitions tensors.length i) :
    (partitionSlice tensors partitions i)[r]? = tensors[partitionBase partitions i + r]? := by
  simp [partitionSlice, List.getElem?_take, hr, List.getElem?_drop]

/-- The allocate node that position `r` of partition `i` goes through: the partition's own
session, at the place its converter closure took the lock. -/
def partitionNode
    (converters : Nat → List (Nat × TensorSource Buffer) → List (Nat × TensorSource Buffer))
    (tensors : List (TensorSource Buffer)) (partitions : List Nat) (i r : Nat) : AllocNode :=
  ⟨i, ((converters i (partitionSlice tensors partitions i).enum).map Prod.fst).indexOf r⟩

/-- The node of every tensor position on the partitioned path, keyed by the position. -/
def partitionNodes
    (converters : Nat → List (Nat × TensorSource Buffer) → List (Nat × TensorSource Buffer))
    (tensors : List (TensorSource Buffer)) (partitions : List Nat) : List (Nat × AllocNode) :=
  (List.range partitions.length).flatMap fun i =>
    (List.range (partitionLength partitions tensors.length i)).map fun r =>
      (partitionBase partitions i + r, partitionNode converters tensors partitions i r)

section PartitionedSpec

variable {opts : Options} {allocate : AllocNode → Buffer → H} {device : DeviceId} {target : String}
  {converters : Nat → List (Nat × TensorSource Buffer) → List (Nat × TensorSource Buffer)}
  {tensors : List (TensorSource Buffer)} {partitions : List Nat}

/-- A sender stores the allocations of its slice at the slice's positions. -/
theorem sendPartition_eq (hdevice : opts.sessionTarget device = .ok target)
    (hconverters : ∀ i l, (converters i l).Perm l)
    (hstarts : PartitionStarts tensors.length partitions) {i : Nat} (hi : i < partitions.length)
    (results : List (Option (XrtData H))) :
    sendPartition opts allocate device tensors partitions converters results i =
      .ok (scatter results ((allocated device allocate (partitionNode converters tensors partitions i)
        (partitionSlice tensors partitions i)).enumFrom (partitionBase partitions i))) := by
  have hlength : ∀ node, (allocated device allocate node (partitionSlice tensors partitions i)).length =
      partitionLength partitions tensors.length i := fun node => by
    rw [length_allocated, length_partitionSlice hstarts hi]
  rw [sendPartition, transferToServerInternal_eq hdevice i (converters i) _ (hconverters i _)]
  simp only [bind, Except.bind, pure, Except.pure]
  rw [senderWrites_eq _ (hlength _)]
  rfl

theorem partitionNodes_keys (hstarts : PartitionStarts tensors.length partitions) :
    (partitionNodes converters tensors partitions).map Prod.fst = List.range tensors.length := by
  rw [partitionNodes, List.map_flatMap, ← partitionSlices_cover hstarts]
  simp [List.map_map, Function.comp_def, List.range'_eq_map_range]

/-- No two tensor positions go through the same node: partitions have sessions of their own and
the converters of one partition take the lock one at a time. -/
theorem partitionNodes_values_nodup (hconverters : ∀ i l, (converters i l).Perm l)
    (hstarts : PartitionStarts tensors.length partitions) :
    ((partitionNodes converters tensors partitions).map Prod.snd).Nodup := by
  rw [partitionNodes, List.map_flatMap, List.nodup_flatMap]
  refine ⟨fun i hi => ?_, (List.nodup_range _).imp fun hne => ?_⟩
  · have hkeys := lockOrder_keys (hconverters i (partitionSlice tensors partitions i).enum)
    rw [length_partitionSlice hstarts (List.mem_range.mp hi)] at hkeys
    simp only [List.map_map, Function.comp_def]
    exact (List.nodup_range _).map_on fun r₁ h₁ r₂ h₂ h =>
      indexOf_injective_of_keys hkeys (List.mem_range.mp h₁) (List.mem_range.mp h₂)
        (AllocNode.mk.inj h).2
  · intro node h₁ h₂
    simp only [List.map_map, Function.comp_def, List.mem_map] at h₁ h₂
    obtain ⟨r₁, -, rfl⟩ := h₁
    obtain ⟨r₂, -, h⟩ := h₂
    exact hne (congrArg AllocNode.session h).symm

theorem lookup_partitionNodes (hstarts : PartitionStarts tensors.length partitions) {i r : Nat}
    (hi : i < partitions.length) (hr : r < partitionLength partitions tensors.length i) :
    (partitionNodes converters tensors partitions).lookup (partitionBase partitions i + r) =
      some (partitionNode converters tensors partitions i r) :=
  lookup_of_mem (by rw [partitionNodes_keys hstarts]; exact List.nodup_range _)
    (List.mem_flatMap.mpr ⟨i, List.mem_range.mpr hi, List.mem_map.mpr ⟨r, List.mem_range.mpr hr, rfl⟩⟩)

/-- A sender's stores agree with the whole result wherever the node of each position is the one
the sender's partition gave it. -/
theorem allocated_of_mem_partition (hstarts : PartitionStarts tensors.length partitions) {i : Nat}
    (hi : i < partitions.length) {node : Nat → AllocNode}
    (hnode : ∀ r < partitionLength partitions tensors.length i,
      node (partitionBase partitions i + r) = partitionNode converters tensors partitions i r)
    {w : Nat × Option (XrtData H)}
    (hw : w ∈ (allocated device allocate (partitionNode converters tensors partitions i)
      (partitionSlice tensors partitions i)).enumFrom (partitionBase partitions i)) :
    (allocated device allocate node tensors)[w.1]? = some w.2 := by
  obtain ⟨r, hr⟩ := List.mem_iff_getElem?.mp hw
  rw [List.getElem?_enumFrom, getElem?_allocated] at hr
  cases hs : (partitionSlice tensors partitions i)[r]? with
  | none => simp [hs] at hr
  | some tensor =>
      have hlt : r < partitionLength partitions tensors.length i := by
        rw [← length_partitionSlice hstarts hi]
        exact (List.getElem?_eq_some_iff.mp hs).1
      rw [hs] at hr
      cases hr
      rw [getElem?_partitionSlice tensors partitions hlt] at hs
      simp [hs, hnode r hlt]

end PartitionedSpec

/-- `TransferToServer` returns one handle per tensor, in tensor order, on the fast path and on
the partitioned path alike and whatever order the senders and the converters run in: the
handle at `j` is allocated from `tensors[j]`'s buffer through a node no other tensor uses, and
carries `tensors[j]`'s shape. -/
theorem transferToServer_eq_allocated {opts : Options} {device : DeviceId} {target : String}
    (hdevice : opts.sessionTarget device = .ok target) (allocate : AllocNode → Buffer → H)
    (maxPartitionSize : Int) (senders : List Nat → List Nat) (hsenders : ∀ l, (senders l).Perm l)
    (converters : Nat → List (Nat × TensorSource Buffer) → List (Nat × TensorSource Buffer))
    (hconverters : ∀ i l, (converters i l).Perm l) (tensors : List (TensorSource Buffer))
    (harray : ∀ tensor ∈ tensors, tensor.shape.isArray) :
    ∃ node : Nat → AllocNode,
      (∀ j₁ < tensors.length, ∀ j₂ < tensors.length, node j₁ = node j₂ → j₁ = j₂) ∧
        transferToServer opts allocate device maxPartitionSize senders converters tensors =
          .ok (allocated device allocate node tensors) := by
  obtain ⟨sizes, hsizes, hlength⟩ := mapM_ok_of_forall fun tensor htensor =>
    Shape.byteSizeOfElements_of_isArray (harray tensor htensor)
  have hstarts : PartitionStarts tensors.length (partitionTransferToServer maxPartitionSize sizes) :=
    hlength ▸ partitionTransferToServer_starts maxPartitionSize sizes
  simp only [transferToServer, hsizes, bind, Except.bind]
  split
  · -- the fast path: one session for all tensors
    have hkeys := lockOrder_keys (hconverters 0 tensors.enum)
    exact ⟨fun j => ⟨0, ((converters 0 tensors.enum).map Prod.fst).indexOf j⟩,
      fun j₁ h₁ j₂ h₂ h => indexOf_injective_of_keys hkeys h₁ h₂ (AllocNode.mk.inj h).2,
      transferToServerInternal_eq hdevice 0 (converters 0) tensors (hconverters 0 _)⟩
  · -- the partitioned path: each tensor takes the node its partition gave it
    set partitions := partitionTransferToServer maxPartitionSize sizes
    set nodes := partitionNodes converters tensors partitions
    have hkeys : nodes.map Prod.fst = List.range tensors.length := partitionNodes_keys hstarts
    have hnode : ∀ i < partitions.length, ∀ r < partitionLength partitions tensors.length i,
        (nodes.lookup (partitionBase partitions i + r)).getD ⟨0, 0⟩ =
          partitionNode converters tensors partitions i r :=
      fun i hi r hr => by rw [lookup_partitionNodes hstarts hi hr]; rfl
    have hentry : ∀ j < tensors.length, (j, (nodes.lookup j).getD ⟨0, 0⟩) ∈ nodes := by
      intro j hj
      obtain ⟨e, he, rfl⟩ := List.mem_map.mp (hkeys ▸ List.mem_range.mpr hj)
      rw [lookup_of_mem (hkeys ▸ List.nodup_range _) he]
      exact he
    have hsender : ∀ i ∈ senders (List.range partitions.length), i < partitions.length :=
      fun i hi => List.mem_range.mp ((hsenders _).subset hi)
    refine ⟨fun j => (nodes.lookup j).getD ⟨0, 0⟩, fun j₁ h₁ j₂ h₂ h => ?_, ?_⟩
    · exact congrArg Prod.fst (List.inj_on_of_nodup_map
        (partitionNodes_values_nodup hconverters hstarts) (hentry j₁ h₁) (hentry j₂ h₂) h)
    rw [foldlM_scatter fun i hi results =>
      sendPartition_eq hdevice hconverters hstarts (hsender i hi) results]
    congr 1
    apply scatter_eq_of_cover
    · simp
    · rw [List.map_flatMap, List.flatMap_congr fun i hi => by
        rw [List.enumFrom_map_fst, length_allocated, length_partitionSlice hstarts (hsender i hi)]]
      simpa [partitionSlices_cover hstarts] using
        (hsenders (List.range partitions.length)).flatMap_right fun i =>
          List.range' (partitionBase partitions i) (partitionLength partitions tensors.length i)
    · intro w hw
      obtain ⟨i, hi, hw⟩ := List.mem_flatMap.mp hw
      exact allocated_of_mem_partition hstarts (hsender i hi) (hnode i (hsender i hi)) hw

/-- Three eight-byte tensors under an eight-byte ceiling: one partition each. -/
def threeTensors : List (TensorSource Nat) :=
  [⟨.array .F32 [2] [0], 10⟩, ⟨.array .F32 [2] [0], 11⟩, ⟨.array .F32 [2] [0], 12⟩]

theorem transferToServer_eq_allocated_three :
    ∃ node : Nat → AllocNode,
      (∀ j₁ < threeTensors.length, ∀ j₂ < threeTensors.length, node j₁ = node j₂ → j₁ = j₂) ∧
        transferToServer sharedWorkerOptions Prod.mk ⟨"TPU", 0⟩ 8 List.reverse
            (fun _ => List.reverse) threeTensors =
          .ok (allocated ⟨"TPU", 0⟩ Prod.mk node threeTensors) :=
  transferToServer_eq_allocated (show sharedWorkerOptions.sessionTarget ⟨"TPU", 0⟩ =
      .ok "grpc://localhost:8470" from rfl) Prod.mk 8 List.reverse List.reverse_perm
    (fun _ => List.reverse) (fun _ => List.reverse_perm) threeTensors (by decide)

end XrtClient
