import XrtClient.Layout
import Mathlib.Algebra.BigOperators.Group.List
import Mathlib.Algebra.Order.BigOperators.GroupWithZero.List
import Mathlib.Data.List.GetD
import Mathlib.Tactic.Ring

/-! # Copying a tensor between two layouts

`CopyTensors` copies the `ElementsIn` elements of a buffer of one array shape into a buffer of
another with the same dimensions. When the two layouts agree it copies the buffer as it lies
(`CopyData`). Otherwise it cuts the largest dimension other than the first iteration dimension
into partitions, and one thread per partition walks the partition's index tuples with an
odometer over the other iteration dimensions, copying a run of the first iteration dimension
with `StridedCopy` at each. Both paths write, for every index of the dimension box, the
destination element at the offset the destination strides give the index, from the source
element at the offset the source strides give it, and no other element, each once.

A buffer is indexed by elements: the source is a function from element offsets, and a copy is
the log of `(offset, value)` writes it makes to the destination, one log per thread; the threads
run concurrently, so their writes reach the destination in any interleaving. Offsets are exact
naturals: the buffers hold `ElementsIn` elements, so no offset inside the box overflows
`int64_t`. A layout is a permutation of the dimension indices, as XLA gives every shape; the
model reads a dimension at such an index with `getD`. The number of hardware threads is an
argument. Every conversion `CopyData` and `StridedCopy` make (`std::copy`, the `Caster`, the
`memcpy` between the two `bfloat16` types of one representation) is the function `cast`.
-/

namespace XrtClient

variable {S D : Type}

/-! ## Strides and offsets -/

/-- `xla::ShapeUtil::ElementsIn`. -/
def elementsIn (shape : ArrayShape) : Nat :=
  shape.dimensions.prod

/-- `GetFlatTensorOffset`: the offset of the element at `indices`. -/
def getFlatTensorOffset (strides indices : List Nat) : Nat :=
  ((List.range indices.length).map fun i => indices.getD i 0 * strides.getD i 0).sum

/-- The loop of `ComputeShapeStrides` over the layout, from the strides set so far and the
running stride. -/
def stridesLoop (dimensions : List Nat) : List Nat × Nat → List Nat → List Nat × Nat :=
  List.foldl fun state dim => (state.1.set dim state.2, state.2 * dimensions.getD dim 0)

/-- `ComputeShapeStrides`: along the layout, the stride of a dimension is the product of the
sizes of the more minor ones. -/
def computeShapeStrides (shape : ArrayShape) : List Nat :=
  (stridesLoop shape.dimensions (List.replicate shape.dimensions.length 0, 1)
    shape.minorToMajor).1

/-! ## The copies -/

/-- `StridedCopy`: `n` elements from `source` on by `sourceStride`, converted, into `dest` on by
`destStride`. The loop runs while the source pointer is below `source + n * sourceStride`, so it
copies nothing at source stride `0`. -/
def stridedCopy (cast : S → D) (src : Nat → S) (dest destStride source sourceStride n : Nat) :
    List (Nat × D) :=
  ((List.range n).takeWhile fun k => source + k * sourceStride < source + n * sourceStride).map
    fun k => (dest + k * destStride, cast (src (source + k * sourceStride)))

/-- `CopyData`: the first `n` elements in order, whichever of `std::copy`, `StridedCopy` with
step `1` and `memcpy` the element types select. -/
def copyData (cast : S → D) (src : Nat → S) (n : Nat) : List (Nat × D) :=
  stridedCopy cast src 0 1 0 1 n

/-- `kMinorDimScale`. -/
def kMinorDimScale : Nat := 8

/-- `GetIterationDimensions`: the layout, with one dimension swapped to the front: the most minor
one, unless a later one is more than `kMinorDimScale` times larger (then the last of the later
ones that is larger than every one picked before it). -/
def getIterationDimensions (shape : ArrayShape) : Except Fault (List Nat) := do
  let iterDims := shape.minorToMajor
  let first ← vectorAt "iter_dims" iterDims 0
  let index := ((iterDims.enum.drop 1).foldl (fun (state : Nat × Nat) entry =>
      if shape.dimensions.getD entry.2 0 > state.2 then (entry.1, shape.dimensions.getD entry.2 0)
      else state)
    (0, kMinorDimScale * shape.dimensions.getD first 0)).1
  pure ((iterDims.set 0 (iterDims.getD index 0)).set index first)

/-- `CopyPartition`: the box `base ≤ indices < limit` one thread copies. -/
structure CopyPartition where
  base : List Nat
  limit : List Nat
  deriving DecidableEq, Repr

/-- `CopyPartition(dimensions)`: the whole dimension box. -/
def CopyPartition.ofDimensions (dimensions : List Nat) : CopyPartition :=
  ⟨List.replicate dimensions.length 0, dimensions⟩

/-- `kMinThreadElements`. -/
def kMinThreadElements : Nat := 100000

/-- The search of `CreateCopyPartitions` for `max_dim`, the first of the largest dimensions
other than the strided copy one; `none` for `-1`, when there is none. -/
def findMaxDim (dimensions : List Nat) (stridedCopyDimension : Nat) : Option Nat :=
  (List.range dimensions.length).foldl (fun maxDim i =>
    if i ≠ stridedCopyDimension ∧ maxDim.all (fun m => dimensions.getD i 0 > dimensions.getD m 0)
    then some i else maxDim) none

/-- The `while` loop of `CreateCopyPartitions`, cutting `[csize, maxDimSize)` of dimension
`maxDim` into parts of `partSize` indices. `fuel` bounds its iterations; each advances `csize` by
at least one when `partSize` is positive. -/
def copyPartitionsLoop (dimensions : List Nat) (maxDim partSize maxDimSize : Nat) :
    Nat → Nat → List CopyPartition
  | 0, _ => []
  | fuel + 1, csize =>
      if csize < maxDimSize then
        let n := min partSize (maxDimSize - csize)
        let p := CopyPartition.ofDimensions dimensions
        ⟨p.base.set maxDim csize, p.limit.set maxDim (csize + n)⟩ ::
          copyPartitionsLoop dimensions maxDim partSize maxDimSize fuel (csize + n)
      else []

/-- `CreateCopyPartitions` on a machine of `hardwareConcurrency` threads. With `max_dim = -1`,
`dimensions[max_dim]` reads the span at `size_t(-1) = 2^64 - 1`. -/
def createCopyPartitions (hardwareConcurrency : Nat) (dimensions : List Nat)
    (stridedCopyDimension : Nat) : Except Fault (List CopyPartition) := do
  let maxParts := max (hardwareConcurrency / 2) 1
  let maxDim := (findMaxDim dimensions stridedCopyDimension).getD (2 ^ 64 - 1)
  let numElements := dimensions.prod
  let maxDimSize ← vectorAt "dimensions" dimensions maxDim
  let maxDimUnitElements := numElements / maxDimSize
  let partSize := max (max (maxDimSize / maxParts) 1) (kMinThreadElements / maxDimUnitElements)
  pure (copyPartitionsLoop dimensions maxDim partSize maxDimSize maxDimSize 0)

/-- The `for` loop of `SlicedCopy` over the iteration dimensions after the first: the odometer
step from `indices` to the next index tuple of the partition, `none` past the last one. -/
def nextIndices (part : CopyPartition) : List Nat → List Nat → Option (List Nat)
  | [], _ => none
  | dim :: dims, indices =>
      let indices := indices.set dim (indices.getD dim 0 + 1)
      if indices.getD dim 0 < part.limit.getD dim 0 then some indices
      else nextIndices part dims (indices.set dim (part.base.getD dim 0))

/-- The `while` loop of `SlicedCopy`: the index tuples it copies at from `indices` on, or `none`
when `fuel` iterations do not reach the end. -/
def visitIndices (part : CopyPartition) (dims : List Nat) : Nat → List Nat → Option (List (List Nat))
  | 0, _ => none
  | fuel + 1, indices =>
      match nextIndices part dims indices with
      | none => some [indices]
      | some next => (visitIndices part dims fuel next).map (indices :: ·)

/-- The iterations of the `while` loop of `SlicedCopy` from `part.base` when the dimensions `dims`
are distinct: each counts `limit - base` values, or one when that is empty. -/
def CopyPartition.rows (part : CopyPartition) (dims : List Nat) : Nat :=
  (dims.map fun dim => max (part.limit.getD dim 0 - part.base.getD dim 0) 1).prod

/-- `SlicedCopy`: a `StridedCopy` of the first iteration dimension at each index tuple of the
partition; `none` when its loop does not end. -/
def slicedCopy (cast : S → D) (dimensions : List Nat) (src : Nat → S)
    (srcStrides destStrides iterDims : List Nat) (part : CopyPartition) :
    Option (List (Nat × D)) :=
  let inner := iterDims.headD 0
  if part.base.length = 0 then some []
  else (visitIndices part iterDims.tail (part.rows iterDims.tail) part.base).map fun visited =>
    visited.flatMap fun indices =>
      stridedCopy cast src (getFlatTensorOffset destStrides indices) (destStrides.getD inner 0)
        (getFlatTensorOffset srcStrides indices) (srcStrides.getD inner 0)
        (dimensions.getD inner 0)

/-- The transposing path of `CopyTensors`: one `SlicedCopy` thread per partition, scheduled
together and waited for. -/
def stridedCopyTensors (cast : S → D) (hardwareConcurrency : Nat) (src : Nat → S)
    (srcShape destShape : ArrayShape) : Except Fault (Option (List (List (Nat × D)))) := do
  let srcStrides := computeShapeStrides srcShape
  let destStrides := computeShapeStrides destShape
  let iterDims ← getIterationDimensions destShape
  let parts ← createCopyPartitions hardwareConcurrency destShape.dimensions (iterDims.headD 0)
  pure (parts.mapM (slicedCopy cast destShape.dimensions src srcStrides destStrides iterDims))

/-- `CopyTensors<SType, DType>` from a buffer of `srcShape` into one of `destBufferSize` bytes of
`destShape`, with `sizeof(DType) = elementSize`: each thread's writes, or `none` when a loop does
not end. -/
def copyTensors (cast : S → D) (hardwareConcurrency elementSize : Nat) (src : Nat → S)
    (srcShape : ArrayShape) (destBufferSize : Nat) (destShape : ArrayShape) :
    Except Fault (Option (List (List (Nat × D)))) := do
  xlaCheck (srcShape.dimensions = destShape.dimensions)
    "xla::ShapeUtil::SameDimensions(src_shape, dest_shape)"
  let totalElements := elementsIn srcShape
  xlaCheck (destBufferSize = totalElements * elementSize)
    "dest_buffer_size == total_elements * sizeof(DType)"
  if srcShape.minorToMajor = destShape.minorToMajor then
    pure (some [copyData cast src totalElements])
  else if 0 < totalElements then stridedCopyTensors cast hardwareConcurrency src srcShape destShape
  else pure (some [])

/-! ## What a copy is for -/

/-- The multi-indices of the box of `dimensions`, the last dimension fastest. -/
def boxIndices : List Nat → List (List Nat)
  | [] => [[]]
  | size :: sizes => (List.range size).flatMap fun i => (boxIndices sizes).map (i :: ·)

/-- The write of a copy from `srcShape` to `destShape` at the index `idx` of the box: at its
destination offset, the converted source element at its source offset. -/
def copyEntry (cast : S → D) (src : Nat → S) (srcShape destShape : ArrayShape) (idx : List Nat) :
    Nat × D :=
  (getFlatTensorOffset (computeShapeStrides destShape) idx,
    cast (src (getFlatTensorOffset (computeShapeStrides srcShape) idx)))

/-- The writes of a copy from `srcShape` to `destShape`, one for each index of the box. -/
def copySpec (cast : S → D) (src : Nat → S) (srcShape destShape : ArrayShape) : List (Nat × D) :=
  (boxIndices destShape.dimensions).map (copyEntry cast src srcShape destShape)

/-- The destination buffer after a log of writes. -/
def applyWrites (dest : Nat → D) (writes : List (Nat × D)) : Nat → D :=
  writes.foldl (fun dest write => Function.update dest write.1 write.2) dest

/-! ## Index lists -/

section Lists

@[simp] theorem getD_set_self {l : List Nat} {i : Nat} (x : Nat) (h : i < l.length) :
    (l.set i x).getD i 0 = x := by
  simp [List.getD_eq_getElem?_getD, List.getElem?_set_self h]

theorem getD_set_ne {l : List Nat} {i j : Nat} (x : Nat) (h : i ≠ j) :
    (l.set i x).getD j 0 = l.getD j 0 := by
  simp [List.getD_eq_getElem?_getD, List.getElem?_set_ne h]

theorem ext_getD {l l' : List Nat} (hlength : l.length = l'.length)
    (h : ∀ i, l.getD i 0 = l'.getD i 0) : l = l' := by
  refine List.ext_getElem hlength fun i h₁ h₂ => ?_
  have := h i
  rwa [List.getD_eq_getElem _ _ h₁, List.getD_eq_getElem _ _ h₂] at this

theorem map_getD_range (l : List Nat) : (List.range l.length).map (l.getD · 0) = l :=
  List.ext_getElem (by simp) fun i _ h₂ => by
    simp only [List.getElem_map, List.getElem_range]
    exact List.getD_eq_getElem _ _ h₂

theorem foldl_invariant {σ α : Type} {f : σ → α → σ} {P : σ → Prop} :
    ∀ {l : List α} {s : σ}, P s → (∀ s x, x ∈ l → P s → P (f s x)) → P (l.foldl f s)
  | [], _, hs, _ => hs
  | x :: _, s, hs, hf => by
      rw [List.foldl_cons]
      exact foldl_invariant (hf s x (List.mem_cons_self _ _) hs)
        fun s' y hy => hf s' y (List.mem_cons_of_mem _ hy)

/-- A sum over `range n` after changing the summand at one `i < n`. -/
theorem sum_range_update {f g : Nat → Nat} {i : Nat} (hfg : ∀ j, j ≠ i → g j = f j) :
    ∀ {n}, i < n → ((List.range n).map g).sum + f i = ((List.range n).map f).sum + g i
  | 0, h => absurd h (Nat.not_lt_zero _)
  | n + 1, h => by
      simp only [List.sum_range_succ]
      rcases Nat.lt_succ_iff_lt_or_eq.mp h with hlt | rfl
      · rw [hfg n (Nat.ne_of_gt hlt), Nat.add_right_comm, sum_range_update hfg hlt]; omega
      · rw [List.map_congr_left fun j hj => hfg j (Nat.ne_of_lt (List.mem_range.mp hj))]; omega

theorem swap_perm {l : List Nat} {i j : Nat} (hi : i < l.length) (hj : j < l.length) :
    ((l.set i (l.getD j 0)).set j (l.getD i 0)).Perm l := by
  rw [List.perm_iff_count]
  intro a
  have hmem : 0 < l.count l[i] := List.count_pos_iff.mpr (List.getElem_mem hi)
  rw [List.getD_eq_getElem _ _ hi, List.getD_eq_getElem _ _ hj,
    List.count_set _ _ _ _ (by simpa using hj), List.count_set _ _ _ _ hi, List.getElem_set, ite_self]
  by_cases hia : l[i] = a
  · subst hia
    simp only [beq_self_eq_true, if_true]
    omega
  · simp only [beq_iff_eq, hia, if_false]
    omega

end Lists

/-! ## Mixed-radix values

An offset along a layout, and the place of an index tuple in the odometer order, are values of
digits in a mixed radix: below the product of the radices, and determined by their digits. -/

/-- The value of digits, each with its radix, the first digit least significant. -/
def radixValue : List (Nat × Nat) → Nat
  | [] => 0
  | (digit, radix) :: rest => digit + radix * radixValue rest

theorem radixValue_lt : ∀ {digits : List (Nat × Nat)}, (∀ d ∈ digits, d.1 < d.2) →
    radixValue digits < (digits.map Prod.snd).prod
  | [], _ => Nat.one_pos
  | (digit, radix) :: rest, h => by
      have hrest := radixValue_lt fun d hd => h d (List.mem_cons_of_mem _ hd)
      have hdigit : digit < radix := h _ (List.mem_cons_self _ _)
      simp only [radixValue, List.map_cons, List.prod_cons]
      calc digit + radix * radixValue rest < radix + radix * radixValue rest := by omega
        _ = radix * (radixValue rest + 1) := by ring
        _ ≤ radix * (rest.map Prod.snd).prod := Nat.mul_le_mul_left _ hrest

theorem radixValue_inj : ∀ {digits digits' : List (Nat × Nat)},
    digits.map Prod.snd = digits'.map Prod.snd → (∀ d ∈ digits, d.1 < d.2) →
    (∀ d ∈ digits', d.1 < d.2) → radixValue digits = radixValue digits' → digits = digits'
  | [], [], _, _, _, _ => rfl
  | (x, r) :: rest, (y, r') :: rest', hradix, h, h', hvalue => by
      simp only [List.map_cons, List.cons.injEq] at hradix
      obtain ⟨rfl, hradix⟩ := hradix
      have hx : x < r := h _ (List.mem_cons_self _ _)
      have hy : y < r := h' _ (List.mem_cons_self _ _)
      simp only [radixValue] at hvalue
      have hdigit : x = y := by
        have := congrArg (· % r) hvalue
        simpa [Nat.add_mul_mod_self_left, Nat.mod_eq_of_lt hx, Nat.mod_eq_of_lt hy] using this
      subst hdigit
      have hr : 0 < r := by omega
      rw [radixValue_inj hradix (fun d hd => h d (List.mem_cons_of_mem _ hd))
        (fun d hd => h' d (List.mem_cons_of_mem _ hd))
        (Nat.eq_of_mul_eq_mul_left hr (Nat.add_left_cancel hvalue))]

/-! ## Strides -/

section Strides

variable {dimensions : List Nat}

@[simp] theorem stridesLoop_nil (state : List Nat × Nat) : stridesLoop dimensions state [] = state :=
  rfl

@[simp] theorem stridesLoop_cons (state : List Nat × Nat) (d : Nat) (rest : List Nat) :
    stridesLoop dimensions state (d :: rest) =
      stridesLoop dimensions (state.1.set d state.2, state.2 * dimensions.getD d 0) rest :=
  rfl

theorem length_stridesLoop : ∀ {layout : List Nat} {state : List Nat × Nat},
    (stridesLoop dimensions state layout).1.length = state.1.length
  | [], _ => rfl
  | _ :: _, _ => by rw [stridesLoop_cons, length_stridesLoop, List.length_set]

theorem stridesLoop_getD_of_not_mem : ∀ {layout : List Nat} {state : List Nat × Nat} {e : Nat},
    e ∉ layout → (stridesLoop dimensions state layout).1.getD e 0 = state.1.getD e 0
  | [], _, _, _ => rfl
  | d :: _, _, _, he => by
      rw [List.mem_cons, not_or] at he
      exact (stridesLoop_getD_of_not_mem he.2).trans (getD_set_ne _ (Ne.symm he.1))

/-- Along distinct dimensions, the offset the loop's strides give an index tuple is the running
stride times the index tuple's value in the radix of the dimensions. -/
theorem sum_stridesLoop (idx : Nat → Nat) : ∀ {layout : List Nat} {state : List Nat × Nat},
    layout.Nodup → (∀ d ∈ layout, d < state.1.length) →
    (layout.map fun d => idx d * (stridesLoop dimensions state layout).1.getD d 0).sum =
      state.2 * radixValue (layout.map fun d => (idx d, dimensions.getD d 0))
  | [], _, _, _ => by simp [radixValue]
  | d :: rest, state, hnodup, hlt => by
      obtain ⟨hd, hrest⟩ := List.nodup_cons.mp hnodup
      have hlength : ∀ e ∈ rest, e < (state.1.set d state.2).length := fun e he => by
        simpa using hlt e (List.mem_cons_of_mem _ he)
      have hstride : (stridesLoop dimensions state (d :: rest)).1.getD d 0 = state.2 :=
        (stridesLoop_getD_of_not_mem hd).trans (getD_set_self _ (hlt d (List.mem_cons_self _ _)))
      rw [List.map_cons, List.sum_cons, hstride, stridesLoop_cons, sum_stridesLoop idx hrest hlength]
      simp only [List.map_cons, radixValue]
      ring

theorem stridesLoop_pos (hdims : ∀ d ∈ dimensions, 0 < d) :
    ∀ {layout : List Nat} {state : List Nat × Nat}, 0 < state.2 →
      (∀ d ∈ layout, d < state.1.length) → (∀ d ∈ layout, d < dimensions.length) →
      ∀ d ∈ layout, 0 < (stridesLoop dimensions state layout).1.getD d 0
  | [], _, _, _, _, _, hd => absurd hd (List.not_mem_nil _)
  | d :: rest, state, hpos, hlt, hdim, e, he => by
      have hsize : 0 < dimensions.getD d 0 := by
        rw [List.getD_eq_getElem _ _ (hdim d (List.mem_cons_self _ _))]
        exact hdims _ (List.getElem_mem _)
      by_cases hrest : e ∈ rest
      · exact stridesLoop_pos hdims (Nat.mul_pos hpos hsize)
          (fun e he => by simpa using hlt e (List.mem_cons_of_mem _ he))
          (fun e he => hdim e (List.mem_cons_of_mem _ he)) e hrest
      · obtain rfl : e = d := by simpa [hrest] using he
        rw [stridesLoop_cons, stridesLoop_getD_of_not_mem hrest,
          getD_set_self _ (hlt e (List.mem_cons_self _ _))]
        exact hpos

end Strides

/-! ## The dimension box -/

section Box

theorem mem_boxIndices : ∀ {dimensions idx : List Nat},
    idx ∈ boxIndices dimensions ↔ List.Forall₂ (· < ·) idx dimensions
  | [], idx => by cases idx <;> simp [boxIndices]
  | size :: sizes, idx => by
      cases idx with
      | nil => simp [boxIndices]
      | cons i t => simp [boxIndices, mem_boxIndices]

theorem nodup_boxIndices : ∀ (dimensions : List Nat), (boxIndices dimensions).Nodup
  | [] => List.nodup_singleton _
  | size :: sizes => by
      rw [boxIndices, List.nodup_flatMap]
      refine ⟨fun i _ => (nodup_boxIndices sizes).map List.cons_injective,
        (List.nodup_range size).pairwise_of_forall_ne fun i _ j _ hij => ?_⟩
      simp only [Function.onFun, List.disjoint_left, List.mem_map]
      rintro _ ⟨t, -, rfl⟩ ⟨t', -, heq⟩
      exact hij (List.cons.inj heq).1.symm

theorem length_boxIndices : ∀ (dimensions : List Nat),
    (boxIndices dimensions).length = dimensions.prod
  | [] => rfl
  | size :: sizes => by
      simp only [boxIndices, List.length_flatMap, Function.comp_def, List.length_map,
        length_boxIndices sizes, List.map_const', List.sum_replicate, smul_eq_mul, List.length_range,
        List.prod_cons]

theorem forall₂_lt_iff {idx dimensions : List Nat} :
    List.Forall₂ (· < ·) idx dimensions ↔
      idx.length = dimensions.length ∧ ∀ i < dimensions.length, idx.getD i 0 < dimensions.getD i 0 := by
  rw [List.forall₂_iff_get]
  refine and_congr_right fun hlength => ⟨fun h i hi => ?_, fun h i h₁ h₂ => ?_⟩
  · rw [List.getD_eq_getElem _ _ (hlength ▸ hi), List.getD_eq_getElem _ _ hi]
    exact h i (hlength ▸ hi) hi
  · have := h i h₂
    rw [List.getD_eq_getElem _ _ h₁, List.getD_eq_getElem _ _ h₂] at this
    simpa using this

end Box

/-! ## Offsets

Along a layout that permutes the dimension indices, `ComputeShapeStrides` makes the offset of an
index of the box its value in the radix of the dimension sizes, most minor first: the offsets of
the box are exactly the offsets below `ElementsIn`, each once. -/

section Offsets

variable {shape : ArrayShape}
  (hlayout : shape.minorToMajor.Perm (List.range shape.dimensions.length))
include hlayout

theorem getFlatTensorOffset_eq_radixValue {idx : List Nat}
    (hlength : idx.length = shape.dimensions.length) :
    getFlatTensorOffset (computeShapeStrides shape) idx =
      radixValue (shape.minorToMajor.map fun d => (idx.getD d 0, shape.dimensions.getD d 0)) := by
  have hsum : (shape.minorToMajor.map fun d => idx.getD d 0 * (computeShapeStrides shape).getD d 0).sum
      = 1 * radixValue (shape.minorToMajor.map fun d => (idx.getD d 0, shape.dimensions.getD d 0)) :=
    sum_stridesLoop _ (hlayout.nodup_iff.mpr (List.nodup_range _))
      fun d hd => by simpa using List.mem_range.mp (hlayout.subset hd)
  rw [one_mul] at hsum
  rw [getFlatTensorOffset, hlength, ← hsum]
  exact (hlayout.map _).sum_eq.symm

theorem lt_of_mem_layout {d : Nat} (hd : d ∈ shape.minorToMajor) : d < shape.dimensions.length :=
  List.mem_range.mp (hlayout.subset hd)

theorem getFlatTensorOffset_lt {idx : List Nat} (hidx : idx ∈ boxIndices shape.dimensions) :
    getFlatTensorOffset (computeShapeStrides shape) idx < elementsIn shape := by
  obtain ⟨hlength, hlt⟩ := forall₂_lt_iff.mp (mem_boxIndices.mp hidx)
  rw [getFlatTensorOffset_eq_radixValue hlayout hlength]
  have hprod : ((shape.minorToMajor.map fun d => (idx.getD d 0, shape.dimensions.getD d 0)).map
      Prod.snd).prod = elementsIn shape := by
    rw [List.map_map, elementsIn, (hlayout.map _).prod_eq]
    exact congrArg List.prod (map_getD_range _)
  exact hprod ▸ radixValue_lt fun p hp => by
    obtain ⟨d, hd, rfl⟩ := List.mem_map.mp hp
    exact hlt d (lt_of_mem_layout hlayout hd)

theorem getFlatTensorOffset_inj {idx idx' : List Nat} (hidx : idx ∈ boxIndices shape.dimensions)
    (hidx' : idx' ∈ boxIndices shape.dimensions)
    (heq : getFlatTensorOffset (computeShapeStrides shape) idx =
      getFlatTensorOffset (computeShapeStrides shape) idx') : idx = idx' := by
  obtain ⟨hlength, hlt⟩ := forall₂_lt_iff.mp (mem_boxIndices.mp hidx)
  obtain ⟨hlength', hlt'⟩ := forall₂_lt_iff.mp (mem_boxIndices.mp hidx')
  rw [getFlatTensorOffset_eq_radixValue hlayout hlength,
    getFlatTensorOffset_eq_radixValue hlayout hlength'] at heq
  have hdigits := radixValue_inj (by simp only [List.map_map]; rfl)
    (fun p hp => by
      obtain ⟨d, hd, rfl⟩ := List.mem_map.mp hp
      exact hlt d (lt_of_mem_layout hlayout hd))
    (fun p hp => by
      obtain ⟨d, hd, rfl⟩ := List.mem_map.mp hp
      exact hlt' d (lt_of_mem_layout hlayout hd)) heq
  refine ext_getD (hlength.trans hlength'.symm) fun i => ?_
  by_cases hi : i < shape.dimensions.length
  · exact (Prod.mk.inj (List.map_inj_left.mp hdigits i
      (hlayout.symm.subset (List.mem_range.mpr hi)))).1
  · rw [List.getD_eq_default _ _ (by omega), List.getD_eq_default _ _ (by omega)]

/-- The box's offsets are those below `ElementsIn`, each once. -/
theorem map_getFlatTensorOffset_perm :
    ((boxIndices shape.dimensions).map (getFlatTensorOffset (computeShapeStrides shape))).Perm
      (List.range (elementsIn shape)) :=
  (List.subperm_of_subset
      ((nodup_boxIndices _).map_on fun _ hx _ hy => getFlatTensorOffset_inj hlayout hx hy)
      fun o ho => by
        obtain ⟨idx, hidx, rfl⟩ := List.mem_map.mp ho
        exact List.mem_range.mpr (getFlatTensorOffset_lt hlayout hidx)).perm_of_length_le
    (by simp [length_boxIndices, elementsIn])

end Offsets

/-! ## The odometer of `SlicedCopy`

Over distinct dimensions, each with `base < limit` in the partition, `nextIndices` counts in the
mixed radix of the partition's extents, the first dimension fastest: it moves to the index tuple
one place further on, or ends at the last place. So from `part.base` the `while` loop of
`SlicedCopy` visits each index tuple of the partition once and then ends. -/

namespace CopyPartition

variable (part : CopyPartition) (dims : List Nat)

/-- The place of `indices` in the odometer order of the partition over `dims`. -/
def place (indices : List Nat) : Nat :=
  radixValue (dims.map fun d =>
    (indices.getD d 0 - part.base.getD d 0, part.limit.getD d 0 - part.base.getD d 0))

/-- The number of index tuples of the partition over `dims`. -/
def extent : Nat :=
  (dims.map fun d => part.limit.getD d 0 - part.base.getD d 0).prod

/-- `indices` lies in the partition along `dims`. -/
def Within (indices : List Nat) : Prop :=
  ∀ d ∈ dims, part.base.getD d 0 ≤ indices.getD d 0 ∧ indices.getD d 0 < part.limit.getD d 0

/-- What an odometer step from `indices` can give: the index tuple one place on, of the same
length, in the partition and equal to `indices` off `dims`; or the end, from the last place. -/
def Steps (indices : List Nat) : Option (List Nat) → Prop
  | none => part.place dims indices + 1 = part.extent dims
  | some next => next.length = indices.length ∧ part.Within dims next ∧
      (∀ e ∉ dims, next.getD e 0 = indices.getD e 0) ∧
      part.place dims next = part.place dims indices + 1

variable {part dims}

@[simp] theorem place_cons (d : Nat) (indices : List Nat) :
    part.place (d :: dims) indices = indices.getD d 0 - part.base.getD d 0 +
      (part.limit.getD d 0 - part.base.getD d 0) * part.place dims indices :=
  rfl

@[simp] theorem extent_cons (d : Nat) :
    part.extent (d :: dims) = (part.limit.getD d 0 - part.base.getD d 0) * part.extent dims :=
  List.prod_cons

theorem place_base : part.place dims part.base = 0 := by
  induction dims with
  | nil => rfl
  | cons d rest ih => rw [place_cons, ih]; simp

theorem place_lt {indices : List Nat} (h : part.Within dims indices) :
    part.place dims indices < part.extent dims := by
  refine lt_of_lt_of_eq (radixValue_lt fun p hp => ?_) (by rw [List.map_map]; rfl)
  obtain ⟨d, hd, rfl⟩ := List.mem_map.mp hp
  have := h d hd
  dsimp only
  omega

theorem eq_of_place_eq {indices indices' : List Nat} (h : part.Within dims indices)
    (h' : part.Within dims indices') (heq : part.place dims indices = part.place dims indices') :
    ∀ d ∈ dims, indices.getD d 0 = indices'.getD d 0 := by
  have hdigits := radixValue_inj (by simp only [List.map_map]; rfl)
    (fun p hp => by
      obtain ⟨d, hd, rfl⟩ := List.mem_map.mp hp
      have := h d hd
      dsimp only
      omega)
    (fun p hp => by
      obtain ⟨d, hd, rfl⟩ := List.mem_map.mp hp
      have := h' d hd
      dsimp only
      omega) heq
  intro d hd
  have := (Prod.mk.inj (List.map_inj_left.mp hdigits d hd)).1
  have := h d hd
  have := h' d hd
  omega

theorem place_set_of_not_mem {d : Nat} (hd : d ∉ dims) (indices : List Nat) (x : Nat) :
    part.place dims (indices.set d x) = part.place dims indices := by
  refine congrArg radixValue (List.map_congr_left fun e he => ?_)
  rw [getD_set_ne _ (ne_of_mem_of_not_mem he hd).symm]

theorem within_set_of_not_mem {d : Nat} (hd : d ∉ dims) {indices : List Nat} (x : Nat)
    (h : part.Within dims indices) : part.Within dims (indices.set d x) := fun e he => by
  rw [getD_set_ne _ (ne_of_mem_of_not_mem he hd).symm]
  exact h e he

end CopyPartition

open CopyPartition in
/-- One odometer step, over distinct dimensions inside `indices`. -/
theorem nextIndices_steps {part : CopyPartition} : ∀ {dims indices : List Nat}, dims.Nodup →
    (∀ d ∈ dims, d < indices.length) → part.Within dims indices →
    part.Steps dims indices (nextIndices part dims indices) := by
  intro dims
  induction dims with
  | nil => intro _ _ _ _; rfl
  | cons d rest ih =>
      intro indices hnodup hlt hwithin
      obtain ⟨hd, hrest⟩ := List.nodup_cons.mp hnodup
      have hdlt : d < indices.length := hlt d (List.mem_cons_self _ _)
      obtain ⟨hlo, hhi⟩ := hwithin d (List.mem_cons_self _ _)
      have hwithinRest : part.Within rest indices := fun e he => hwithin e (List.mem_cons_of_mem _ he)
      have hne : ∀ {e}, e ∉ d :: rest → d ≠ e := fun he h => he (h ▸ List.mem_cons_self _ _)
      simp only [nextIndices, getD_set_self _ hdlt]
      split_ifs with hnext
      · -- the first dimension moves on
        refine ⟨List.length_set _ _ _, fun e he => ?_, fun e he => getD_set_ne _ (hne he), ?_⟩
        · rcases List.mem_cons.mp he with rfl | he
          · rw [getD_set_self _ hdlt]
            omega
          · exact within_set_of_not_mem hd _ hwithinRest e he
        · rw [place_cons, place_cons, getD_set_self _ hdlt, place_set_of_not_mem hd]
          omega
      · -- it wraps to its base, and the rest carries
        rw [List.set_set]
        have hlength : ∀ e ∈ rest, e < (indices.set d (part.base.getD d 0)).length := fun e he => by
          simpa using hlt e (List.mem_cons_of_mem _ he)
        have hstep := ih hrest hlength (within_set_of_not_mem hd _ hwithinRest)
        have hlast : indices.getD d 0 + 1 = part.limit.getD d 0 := by omega
        revert hstep
        cases nextIndices part rest (indices.set d (part.base.getD d 0)) with
        | none =>
            intro hstep
            show part.place (d :: rest) indices + 1 = part.extent (d :: rest)
            rw [place_cons, extent_cons, ← hstep, place_set_of_not_mem hd, Nat.mul_succ]
            omega
        | some next =>
            rintro ⟨hlength', hwithin', hframe, hplace⟩
            have hnext_d : next.getD d 0 = part.base.getD d 0 := by
              rw [hframe d hd, getD_set_self _ hdlt]
            refine ⟨by simpa using hlength', fun e he => ?_, fun e he => ?_, ?_⟩
            · rcases List.mem_cons.mp he with rfl | he
              · rw [hnext_d]
                omega
              · exact hwithin' e he
            · rw [hframe e fun h => he (List.mem_cons_of_mem _ h), getD_set_ne _ (hne he)]
            · rw [place_cons, place_cons, hnext_d, hplace, place_set_of_not_mem hd, Nat.mul_succ]
              omega

namespace CopyPartition

variable {part : CopyPartition} {dims : List Nat}

/-- The run of the `while` loop from `indices` with fuel for the places left: it visits the
places from `indices` on, in order, in the partition and off `dims` equal to `indices`. -/
theorem visitIndices_eq (hnodup : dims.Nodup) : ∀ {fuel : Nat} {indices : List Nat},
    (∀ d ∈ dims, d < indices.length) → part.Within dims indices →
    part.extent dims ≤ part.place dims indices + fuel →
    ∃ visited, visitIndices part dims fuel indices = some visited ∧
      visited.map (part.place dims) =
        List.range' (part.place dims indices) (part.extent dims - part.place dims indices) ∧
      ∀ t ∈ visited, t.length = indices.length ∧ part.Within dims t ∧
        ∀ e ∉ dims, t.getD e 0 = indices.getD e 0
  | 0, _, _, hwithin, hfuel => absurd hfuel (by have := place_lt hwithin; omega)
  | fuel + 1, indices, hlt, hwithin, hfuel => by
      have hstep := nextIndices_steps hnodup hlt hwithin
      have hplace := place_lt hwithin
      rw [visitIndices]
      revert hstep
      cases nextIndices part dims indices with
      | none =>
          intro hlast
          refine ⟨[indices], rfl, ?_, fun t ht => ?_⟩
          · rw [← hlast, Nat.add_sub_cancel_left]
            rfl
          · obtain rfl := List.eq_of_mem_singleton ht
            exact ⟨rfl, hwithin, fun _ _ => rfl⟩
      | some next =>
          rintro ⟨hlength, hwithin', hframe, hnext⟩
          have hfuel' : part.extent dims ≤ part.place dims next + fuel := by omega
          obtain ⟨visited, hvisit, hmap, hmem⟩ := visitIndices_eq hnodup (hlength ▸ hlt) hwithin' hfuel'
          refine ⟨indices :: visited, by simp only [hvisit]; rfl, ?_, fun t ht => ?_⟩
          · rw [List.map_cons, hmap, hnext, show part.extent dims - part.place dims indices =
              part.extent dims - (part.place dims indices + 1) + 1 by omega, List.range'_succ]
          · rcases List.mem_cons.mp ht with rfl | ht
            · exact ⟨rfl, hwithin, fun _ _ => rfl⟩
            · obtain ⟨htlength, htwithin, htframe⟩ := hmem t ht
              exact ⟨htlength.trans hlength, htwithin, fun e he => (htframe e he).trans (hframe e he)⟩

/-- From `part.base`, with `base < limit` along distinct dimensions `dims`, the `while` loop of
`SlicedCopy` ends within `part.rows dims` iterations, having visited each index tuple of the
partition once. -/
theorem visitIndices_base (hnodup : dims.Nodup) (hlt : ∀ d ∈ dims, d < part.base.length)
    (hbase : ∀ d ∈ dims, part.base.getD d 0 < part.limit.getD d 0) :
    ∃ visited, visitIndices part dims (part.rows dims) part.base = some visited ∧ visited.Nodup ∧
      ∀ t, t ∈ visited ↔ t.length = part.base.length ∧ part.Within dims t ∧
        ∀ e ∉ dims, t.getD e 0 = part.base.getD e 0 := by
  have hrows : part.rows dims = part.extent dims :=
    congrArg List.prod (List.map_congr_left fun d hd => by have := hbase d hd; omega)
  have hwithin : part.Within dims part.base := fun d hd => ⟨le_refl _, hbase d hd⟩
  obtain ⟨visited, hvisit, hmap, hmem⟩ := visitIndices_eq hnodup hlt hwithin (Nat.le_add_left _ _)
  rw [place_base, Nat.sub_zero] at hmap
  refine ⟨visited, hrows ▸ hvisit, List.Nodup.of_map _ (hmap ▸ List.nodup_range' _ _),
    fun t => ⟨hmem t, fun ⟨htlength, htwithin, htframe⟩ => ?_⟩⟩
  have hplace : part.place dims t ∈ visited.map (part.place dims) := by
    rw [hmap, List.mem_range']
    exact ⟨_, place_lt htwithin, by omega⟩
  obtain ⟨t', ht', heq⟩ := List.mem_map.mp hplace
  obtain ⟨ht'length, ht'within, ht'frame⟩ := hmem t' ht'
  have hsame := eq_of_place_eq ht'within htwithin heq
  refine (ext_getD (ht'length.trans htlength.symm) fun i => ?_) ▸ ht'
  by_cases hi : i ∈ dims
  · exact hsame i hi
  · rw [ht'frame i hi, htframe i hi]

end CopyPartition

/-! ## The iteration dimensions and the partitions -/

section Partitions

theorem getIterationDimensions_perm {shape : ArrayShape}
    (hlayout : shape.minorToMajor.Perm (List.range shape.dimensions.length))
    (hrank : 0 < shape.dimensions.length) :
    ∃ iterDims, getIterationDimensions shape = .ok iterDims ∧
      iterDims.Perm (List.range shape.dimensions.length) := by
  have hpos : 0 < shape.minorToMajor.length := by rw [hlayout.length_eq, List.length_range]; exact hrank
  simp only [getIterationDimensions, vectorAt_of_lt _ _ _ hpos, ok_bind]
  rw [← List.getD_eq_getElem _ 0 hpos]
  refine ⟨_, rfl, (swap_perm hpos (foldl_invariant (P := fun state : Nat × Nat =>
    state.1 < shape.minorToMajor.length) hpos fun state entry hentry hstate => ?_)).trans hlayout⟩
  split_ifs
  · exact (List.fst_lt_of_mem_enum (List.mem_of_mem_drop hentry) : entry.1 < _)
  · exact hstate

/-- The partition of the indices `[range.1, range.2)` of dimension `maxDim`, each other dimension
whole. -/
def slicePartition (dimensions : List Nat) (maxDim : Nat) (range : Nat × Nat) : CopyPartition :=
  ⟨(List.replicate dimensions.length 0).set maxDim range.1, dimensions.set maxDim range.2⟩

variable {dimensions : List Nat} {maxDim : Nat}

theorem slicePartition_base_getD (hmax : maxDim < dimensions.length) (range : Nat × Nat) (e : Nat) :
    (slicePartition dimensions maxDim range).base.getD e 0 = if e = maxDim then range.1 else 0 := by
  split_ifs with he
  · subst he
    exact getD_set_self _ (by simpa using hmax)
  · rw [slicePartition, getD_set_ne _ (Ne.symm he)]
    simp [List.getD_eq_getElem?_getD, List.getElem?_replicate]
    split_ifs <;> rfl

theorem slicePartition_limit_getD (hmax : maxDim < dimensions.length) (range : Nat × Nat) (e : Nat) :
    (slicePartition dimensions maxDim range).limit.getD e 0 =
      if e = maxDim then range.2 else dimensions.getD e 0 := by
  split_ifs with he
  · subst he
    exact getD_set_self _ hmax
  · exact getD_set_ne _ (Ne.symm he)

theorem length_slicePartition_base (range : Nat × Nat) :
    (slicePartition dimensions maxDim range).base.length = dimensions.length := by
  simp [slicePartition]

/-- With positive parts, the loop of `CreateCopyPartitions` cuts `[csize, maxDimSize)` into
consecutive nonempty ranges. -/
theorem copyPartitionsLoop_eq (dimensions : List Nat) (maxDim : Nat) {partSize maxDimSize : Nat}
    (hpart : 0 < partSize) :
    ∀ {fuel csize : Nat}, maxDimSize ≤ csize + fuel →
      ∃ ranges : List (Nat × Nat), copyPartitionsLoop dimensions maxDim partSize maxDimSize fuel
          csize = ranges.map (slicePartition dimensions maxDim) ∧
        (∀ r ∈ ranges, csize ≤ r.1 ∧ r.1 < r.2 ∧ r.2 ≤ maxDimSize) ∧
        ranges.Pairwise (fun r r' => r.2 ≤ r'.1) ∧
        ∀ x, csize ≤ x → x < maxDimSize → ∃ r ∈ ranges, r.1 ≤ x ∧ x < r.2 := by
  intro fuel
  induction fuel with
  | zero => exact fun _ => ⟨[], rfl, by simp, .nil, fun _ _ _ => by omega⟩
  | succ fuel ih =>
      intro csize hfuel
      rw [copyPartitionsLoop]
      split_ifs with hlt
      · dsimp only
        have hfuel' : maxDimSize ≤ csize + min partSize (maxDimSize - csize) + fuel := by omega
        obtain ⟨ranges, heq, hbounds, hpairwise, hcover⟩ := ih hfuel'
        refine ⟨(csize, csize + min partSize (maxDimSize - csize)) :: ranges, by rw [heq]; rfl,
          fun r hr => ?_, List.pairwise_cons.mpr ⟨fun r hr => (hbounds r hr).1, hpairwise⟩,
          fun x hx hxlt => ?_⟩
        · rcases List.mem_cons.mp hr with rfl | hr
          · dsimp only
            omega
          · have := hbounds r hr
            omega
        · by_cases hhead : x < csize + min partSize (maxDimSize - csize)
          · exact ⟨_, List.mem_cons_self _ _, hx, hhead⟩
          · obtain ⟨r, hr, hrx⟩ := hcover x (by omega) hxlt
            exact ⟨r, List.mem_cons_of_mem _ hr, hrx⟩
      · exact ⟨[], rfl, by simp, .nil, fun _ _ _ => by omega⟩

/-- With positive parts the loop ends by its condition within its fuel: more iterations change
nothing. -/
theorem copyPartitionsLoop_add_fuel (dimensions : List Nat) (maxDim : Nat) {partSize maxDimSize : Nat}
    (hpart : 0 < partSize) : ∀ {fuel csize : Nat}, maxDimSize ≤ csize + fuel → ∀ extra,
      copyPartitionsLoop dimensions maxDim partSize maxDimSize (fuel + extra) csize =
        copyPartitionsLoop dimensions maxDim partSize maxDimSize fuel csize := by
  intro fuel
  induction fuel with
  | zero =>
      intro csize hfuel extra
      cases extra with
      | zero => rfl
      | succ extra =>
          rw [Nat.zero_add, copyPartitionsLoop.eq_2, if_neg (by omega)]
          rfl
  | succ fuel ih =>
      intro csize hfuel extra
      rw [Nat.succ_add, copyPartitionsLoop, copyPartitionsLoop]
      split_ifs with hlt
      · dsimp only
        rw [ih (by omega) extra]
      · rfl

/-- Once `max_dim` is set it stays set, to a dimension other than the strided copy one; and the
search sets it at the first such dimension. -/
theorem findMaxDim_loop {s : Nat} : ∀ {candidates : List Nat} {maxDim : Option Nat},
    (maxDim.isSome ∨ ∃ i ∈ candidates, i ≠ s) →
    ((candidates.foldl (fun maxDim i =>
      if i ≠ s ∧ maxDim.all (fun m => dimensions.getD i 0 > dimensions.getD m 0) then some i
      else maxDim) maxDim).isSome)
  | [], _, h => by simpa using h
  | i :: rest, maxDim, h => by
      rw [List.foldl_cons]
      refine findMaxDim_loop ?_
      by_cases hi : i = s
      · rcases h with h | ⟨j, hj, hjs⟩
        · exact .inl (by simpa [hi] using h)
        · rcases List.mem_cons.mp hj with rfl | hj
          · exact absurd hi hjs
          · exact .inr ⟨j, hj, hjs⟩
      · left
        split
        · rfl
        · next hcond =>
          cases maxDim with
          | none => exact absurd ⟨hi, rfl⟩ hcond
          | some _ => rfl

theorem findMaxDim_spec {s : Nat} (hrank : 2 ≤ dimensions.length) :
    ∃ m, findMaxDim dimensions s = some m ∧ m < dimensions.length ∧ m ≠ s := by
  have hsome : (findMaxDim dimensions s).isSome := findMaxDim_loop (.inr (by
    by_cases hs : s = 0
    · exact ⟨1, List.mem_range.mpr (by omega), by omega⟩
    · exact ⟨0, List.mem_range.mpr (by omega), Ne.symm hs⟩))
  obtain ⟨m, hm⟩ := Option.isSome_iff_exists.mp hsome
  refine ⟨m, hm, foldl_invariant (P := fun maxDim : Option Nat => ∀ m, maxDim = some m →
    m < dimensions.length ∧ m ≠ s) (fun _ h => by cases h) (fun maxDim i hi hmax m hm => ?_) m hm⟩
  split_ifs at hm with hcond
  · cases hm
    exact ⟨List.mem_range.mp hi, hcond.1⟩
  · exact hmax m hm

/-- Over rank at least two, `CreateCopyPartitions` finds a `max_dim` other than the strided copy
dimension and runs its loop on it from `0`. -/
theorem createCopyPartitions_eq_loop (hardwareConcurrency : Nat) (hrank : 2 ≤ dimensions.length)
    (s : Nat) :
    ∃ m, m < dimensions.length ∧ m ≠ s ∧
      createCopyPartitions hardwareConcurrency dimensions s = .ok (copyPartitionsLoop dimensions m
        (max (max (dimensions.getD m 0 / max (hardwareConcurrency / 2) 1) 1)
          (kMinThreadElements / (dimensions.prod / dimensions.getD m 0)))
        (dimensions.getD m 0) (dimensions.getD m 0) 0) := by
  obtain ⟨m, hfind, hm, hms⟩ := findMaxDim_spec (s := s) hrank
  refine ⟨m, hm, hms, ?_⟩
  simp only [createCopyPartitions, hfind, Option.getD_some, vectorAt_of_lt _ _ _ hm, ok_bind]
  rw [← List.getD_eq_getElem _ 0 hm]
  rfl

/-- `CreateCopyPartitions` over dimensions of rank at least two cuts a dimension other
than the strided copy one into consecutive nonempty ranges covering it. -/
theorem createCopyPartitions_eq (hardwareConcurrency : Nat) (hrank : 2 ≤ dimensions.length)
    (s : Nat) :
    ∃ (maxDim : Nat) (ranges : List (Nat × Nat)), maxDim < dimensions.length ∧ maxDim ≠ s ∧
      createCopyPartitions hardwareConcurrency dimensions s =
        .ok (ranges.map (slicePartition dimensions maxDim)) ∧
      (∀ r ∈ ranges, r.1 < r.2 ∧ r.2 ≤ dimensions.getD maxDim 0) ∧
      ranges.Pairwise (fun r r' => r.2 ≤ r'.1) ∧
      ∀ x < dimensions.getD maxDim 0, ∃ r ∈ ranges, r.1 ≤ x ∧ x < r.2 := by
  obtain ⟨m, hm, hms, hcreate⟩ := createCopyPartitions_eq_loop hardwareConcurrency hrank s
  have hpart : 0 < max (max (dimensions.getD m 0 / max (hardwareConcurrency / 2) 1) 1)
      (kMinThreadElements / (dimensions.prod / dimensions.getD m 0)) := by omega
  obtain ⟨ranges, heq, hbounds, hpairwise, hcover⟩ :=
    copyPartitionsLoop_eq dimensions m hpart (Nat.le_add_left (dimensions.getD m 0) 0)
  refine ⟨m, ranges, hm, hms, heq ▸ hcreate, fun r hr => ?_, hpairwise,
    fun x hx => hcover x (Nat.zero_le _) hx⟩
  have := hbounds r hr
  omega

/-- `CreateCopyPartitions` over positive dimensions of rank at least two, for every strided copy
dimension and hardware concurrency: it divides by positive numbers only, its loop ends by its
condition, and it cuts one dimension `max_dim`, other than the strided copy one, into nonempty
ranges, disjoint and in order, that cover it, each part spanning every other dimension whole. -/
theorem createCopyPartitions_cuts_max_dim (hardwareConcurrency : Nat) (hrank : 2 ≤ dimensions.length)
    (hpos : ∀ d ∈ dimensions, 0 < d) (s : Nat) :
    ∃ maxDim parts, maxDim < dimensions.length ∧ maxDim ≠ s ∧
      0 < max (hardwareConcurrency / 2) 1 ∧ 0 < dimensions.getD maxDim 0 ∧
      0 < dimensions.prod / dimensions.getD maxDim 0 ∧
      createCopyPartitions hardwareConcurrency dimensions s = .ok parts ∧
      (∀ extra, copyPartitionsLoop dimensions maxDim
        (max (max (dimensions.getD maxDim 0 / max (hardwareConcurrency / 2) 1) 1)
          (kMinThreadElements / (dimensions.prod / dimensions.getD maxDim 0)))
        (dimensions.getD maxDim 0) (dimensions.getD maxDim 0 + extra) 0 = parts) ∧
      (∀ p ∈ parts, p.base.length = dimensions.length ∧ p.limit.length = dimensions.length ∧
        (∀ k < dimensions.length, k ≠ maxDim →
          p.base.getD k 0 = 0 ∧ p.limit.getD k 0 = dimensions.getD k 0) ∧
        p.base.getD maxDim 0 < p.limit.getD maxDim 0 ∧
        p.limit.getD maxDim 0 ≤ dimensions.getD maxDim 0) ∧
      parts.Pairwise (fun p q => p.limit.getD maxDim 0 ≤ q.base.getD maxDim 0) ∧
      ∀ x < dimensions.getD maxDim 0, ∃ p ∈ parts,
        p.base.getD maxDim 0 ≤ x ∧ x < p.limit.getD maxDim 0 := by
  obtain ⟨m, hm, hms, hcreate⟩ := createCopyPartitions_eq_loop hardwareConcurrency hrank s
  have hd : 0 < dimensions.getD m 0 := by
    rw [List.getD_eq_getElem _ _ hm]
    exact hpos _ (List.getElem_mem _)
  have hunit : 0 < dimensions.prod / dimensions.getD m 0 := by
    refine Nat.div_pos (Nat.le_of_dvd (List.prod_pos hpos) ?_) hd
    rw [List.getD_eq_getElem _ _ hm]
    exact List.dvd_prod (List.getElem_mem _)
  have hpart : 0 < max (max (dimensions.getD m 0 / max (hardwareConcurrency / 2) 1) 1)
      (kMinThreadElements / (dimensions.prod / dimensions.getD m 0)) := by omega
  obtain ⟨ranges, heq, hbounds, hpairwise, hcover⟩ :=
    copyPartitionsLoop_eq dimensions m hpart (Nat.le_add_left (dimensions.getD m 0) 0)
  have hbase : ∀ r : Nat × Nat, (slicePartition dimensions m r).base.getD m 0 = r.1 := fun r => by
    rw [slicePartition_base_getD hm, if_pos rfl]
  have hlimit : ∀ r : Nat × Nat, (slicePartition dimensions m r).limit.getD m 0 = r.2 := fun r => by
    rw [slicePartition_limit_getD hm, if_pos rfl]
  refine ⟨m, _, hm, hms, by omega, hd, hunit, hcreate,
    fun extra => copyPartitionsLoop_add_fuel dimensions m hpart (Nat.le_add_left _ 0) extra, ?_, ?_, ?_⟩
  · rw [heq]
    intro p hp
    obtain ⟨r, hr, rfl⟩ := List.mem_map.mp hp
    have := hbounds r hr
    refine ⟨length_slicePartition_base r, by simp [slicePartition], fun k _ hkm => ⟨?_, ?_⟩,
      by rw [hbase, hlimit]; omega, by rw [hlimit]; omega⟩
    · rw [slicePartition_base_getD hm, if_neg hkm]
    · rw [slicePartition_limit_getD hm, if_neg hkm]
  · rw [heq, List.pairwise_map]
    exact hpairwise.imp fun {r r'} h => by rw [hlimit, hbase]; exact h
  · intro x hx
    obtain ⟨r, hr, hlo, hhi⟩ := hcover x (Nat.zero_le _) hx
    exact ⟨_, heq ▸ List.mem_map_of_mem _ hr, by rwa [hbase], by rwa [hlimit]⟩

theorem createCopyPartitions_cuts_max_dim_transposed :
    2 ≤ [2, 3].length ∧ (∀ d ∈ [2, 3], 0 < d) ∧
    ∃ maxDim parts, maxDim < [2, 3].length ∧ maxDim ≠ 0 ∧
      0 < max (4 / 2) 1 ∧ 0 < [2, 3].getD maxDim 0 ∧
      0 < [2, 3].prod / [2, 3].getD maxDim 0 ∧
      createCopyPartitions 4 [2, 3] 0 = .ok parts ∧
      (∀ extra, copyPartitionsLoop [2, 3] maxDim
        (max (max ([2, 3].getD maxDim 0 / max (4 / 2) 1) 1)
          (kMinThreadElements / ([2, 3].prod / [2, 3].getD maxDim 0)))
        ([2, 3].getD maxDim 0) ([2, 3].getD maxDim 0 + extra) 0 = parts) ∧
      (∀ p ∈ parts, p.base.length = [2, 3].length ∧ p.limit.length = [2, 3].length ∧
        (∀ k < [2, 3].length, k ≠ maxDim →
          p.base.getD k 0 = 0 ∧ p.limit.getD k 0 = [2, 3].getD k 0) ∧
        p.base.getD maxDim 0 < p.limit.getD maxDim 0 ∧
        p.limit.getD maxDim 0 ≤ [2, 3].getD maxDim 0) ∧
      parts.Pairwise (fun p q => p.limit.getD maxDim 0 ≤ q.base.getD maxDim 0) ∧
      ∀ x < [2, 3].getD maxDim 0, ∃ p ∈ parts,
        p.base.getD maxDim 0 ≤ x ∧ x < p.limit.getD maxDim 0 :=
  ⟨by decide, by decide, createCopyPartitions_cuts_max_dim 4 (by decide) (by decide) 0⟩

/-- On `[2, 3]` with strided copy dimension `0`, the one part spans both dimensions. -/
example : createCopyPartitions 4 [2, 3] 0 = .ok [⟨[0, 0], [2, 3]⟩] := by decide

end Partitions

/-! ## The writes of a thread -/

section Rows

theorem set_getD_self (l : List Nat) (i : Nat) : l.set i (l.getD i 0) = l := by
  refine ext_getD (List.length_set _ _ _) fun j => ?_
  by_cases hij : i = j
  · subst hij
    by_cases hi : i < l.length
    · exact getD_set_self _ hi
    · rw [List.set_eq_of_length_le (by omega)]
  · exact getD_set_ne _ hij

theorem getFlatTensorOffset_set {strides indices : List Nat} {i : Nat} (k : Nat)
    (hi : i < indices.length) (hzero : indices.getD i 0 = 0) :
    getFlatTensorOffset strides (indices.set i k) =
      getFlatTensorOffset strides indices + k * strides.getD i 0 := by
  have hsum := sum_range_update (f := fun j => indices.getD j 0 * strides.getD j 0)
    (g := fun j => (indices.set i k).getD j 0 * strides.getD j 0)
    (fun j hj => by dsimp only; rw [getD_set_ne _ (Ne.symm hj)]) hi
  simp only [hzero, zero_mul, add_zero, getD_set_self _ hi] at hsum
  rw [getFlatTensorOffset, List.length_set, hsum, getFlatTensorOffset]

theorem stridedCopy_eq_map (cast : S → D) (src : Nat → S) {dest destStride source sourceStride n : Nat}
    (hstride : 0 < sourceStride) :
    stridedCopy cast src dest destStride source sourceStride n =
      (List.range n).map fun k => (dest + k * destStride, cast (src (source + k * sourceStride))) := by
  rw [stridedCopy, List.takeWhile_eq_self_iff.mpr fun k hk =>
    decide_eq_true (Nat.add_lt_add_left (Nat.mul_lt_mul_of_pos_right (List.mem_range.mp hk) hstride) _)]

theorem copyData_eq (cast : S → D) (src : Nat → S) (n : Nat) :
    copyData cast src n = (List.range n).map fun k => (k, cast (src k)) := by
  simp [copyData, stridedCopy_eq_map cast src Nat.one_pos]

/-- The index tuples `SlicedCopy` copies at for a partition along the iteration dimensions after
`inner`, each with every value of `inner` below `size`. -/
def sliceIndices (size inner : Nat) (dims : List Nat) (part : CopyPartition) : List (List Nat) :=
  ((visitIndices part dims (part.rows dims) part.base).getD []).flatMap fun t =>
    (List.range size).map (t.set inner ·)

variable {dimensions dims : List Nat} {inner maxDim : Nat}

/-- A range of the partitioned dimension, and a layout of iteration dimensions `inner :: dims`. -/
structure SliceSetting (dimensions : List Nat) (inner : Nat) (dims : List Nat) (maxDim : Nat)
    (range : Nat × Nat) : Prop where
  positive : ∀ d ∈ dimensions, 0 < d
  iterDims : (inner :: dims).Perm (List.range dimensions.length)
  maxDim_lt : maxDim < dimensions.length
  maxDim_ne : maxDim ≠ inner
  nonempty : range.1 < range.2
  bounded : range.2 ≤ dimensions.getD maxDim 0

namespace SliceSetting

variable {range : Nat × Nat} (h : SliceSetting dimensions inner dims maxDim range)
include h

theorem nodup : dims.Nodup := (List.nodup_cons.mp (h.iterDims.nodup_iff.mpr (List.nodup_range _))).2

theorem inner_not_mem : inner ∉ dims :=
  (List.nodup_cons.mp (h.iterDims.nodup_iff.mpr (List.nodup_range _))).1

theorem inner_lt : inner < dimensions.length :=
  List.mem_range.mp (h.iterDims.subset (List.mem_cons_self _ _))

theorem lt_of_mem {d : Nat} (hd : d ∈ dims) : d < dimensions.length :=
  List.mem_range.mp (h.iterDims.subset (List.mem_cons_of_mem _ hd))

theorem mem_of_lt {d : Nat} (hd : d < dimensions.length) (hne : d ≠ inner) : d ∈ dims :=
  (List.mem_cons.mp (h.iterDims.symm.subset (List.mem_range.mpr hd))).resolve_left hne

theorem dimension_pos {d : Nat} (hd : d < dimensions.length) : 0 < dimensions.getD d 0 := by
  rw [List.getD_eq_getElem _ _ hd]
  exact h.positive _ (List.getElem_mem _)

theorem base_lt_limit {d : Nat} (hd : d ∈ dims) :
    (slicePartition dimensions maxDim range).base.getD d 0 <
      (slicePartition dimensions maxDim range).limit.getD d 0 := by
  rw [slicePartition_base_getD h.maxDim_lt, slicePartition_limit_getD h.maxDim_lt]
  split_ifs
  · exact h.nonempty
  · exact h.dimension_pos (h.lt_of_mem hd)

/-- The partition's index tuples along `dims`, which the `while` loop of `SlicedCopy` visits. -/
theorem visitIndices_slice : ∃ visited,
    visitIndices (slicePartition dimensions maxDim range) dims
      ((slicePartition dimensions maxDim range).rows dims)
      (slicePartition dimensions maxDim range).base = some visited ∧ visited.Nodup ∧
    ∀ t, t ∈ visited ↔ t.length = dimensions.length ∧
      (slicePartition dimensions maxDim range).Within dims t ∧
      ∀ e ∉ dims, t.getD e 0 = (slicePartition dimensions maxDim range).base.getD e 0 := by
  rw [← @length_slicePartition_base dimensions maxDim range]
  exact CopyPartition.visitIndices_base h.nodup
    (fun d hd => (length_slicePartition_base range).symm ▸ h.lt_of_mem hd) fun d hd => h.base_lt_limit hd

theorem getD_inner_of_frame {t : List Nat}
    (hframe : ∀ e ∉ dims, t.getD e 0 = (slicePartition dimensions maxDim range).base.getD e 0) :
    t.getD inner 0 = 0 := by
  rw [hframe inner h.inner_not_mem, slicePartition_base_getD h.maxDim_lt, if_neg h.maxDim_ne.symm]

/-- The index tuples of a partition's thread are those of the box within the partition's range
of `maxDim`. -/
theorem mem_sliceIndices {idx : List Nat} :
    idx ∈ sliceIndices (dimensions.getD inner 0) inner dims (slicePartition dimensions maxDim range) ↔
      List.Forall₂ (· < ·) idx dimensions ∧ range.1 ≤ idx.getD maxDim 0 ∧
        idx.getD maxDim 0 < range.2 := by
  obtain ⟨visited, hvisit, -, hmem⟩ := h.visitIndices_slice
  simp only [sliceIndices, hvisit, Option.getD_some, List.mem_flatMap, List.mem_map, List.mem_range,
    forall₂_lt_iff]
  constructor
  · rintro ⟨t, ht, k, hk, rfl⟩
    obtain ⟨htlength, htwithin, -⟩ := (hmem t).mp ht
    have hmaxDim := htwithin maxDim (h.mem_of_lt h.maxDim_lt h.maxDim_ne)
    rw [slicePartition_base_getD h.maxDim_lt, slicePartition_limit_getD h.maxDim_lt, if_pos rfl,
      if_pos rfl, ← getD_set_ne k h.maxDim_ne.symm] at hmaxDim
    refine ⟨⟨by rw [List.length_set, htlength], fun i hi => ?_⟩, hmaxDim⟩
    by_cases hinner : i = inner
    · subst hinner
      rw [getD_set_self _ (htlength ▸ hi)]
      exact hk
    · have := htwithin i (h.mem_of_lt hi hinner)
      rw [slicePartition_limit_getD h.maxDim_lt] at this
      rw [getD_set_ne _ (Ne.symm hinner)]
      split_ifs at this with hmax
      · exact Nat.lt_of_lt_of_le this.2 (hmax ▸ h.bounded)
      · exact this.2
  · rintro ⟨⟨hlength, hlt⟩, hlo, hhi⟩
    refine ⟨idx.set inner 0, (hmem _).mpr ⟨by rw [List.length_set, hlength], fun d hd => ?_,
      fun e he => ?_⟩, idx.getD inner 0, hlt inner h.inner_lt, ?_⟩
    · have hne : inner ≠ d := fun hid => h.inner_not_mem (hid ▸ hd)
      rw [getD_set_ne _ hne, slicePartition_base_getD h.maxDim_lt,
        slicePartition_limit_getD h.maxDim_lt]
      split_ifs with hmax
      · exact ⟨hmax ▸ hlo, hmax ▸ hhi⟩
      · exact ⟨Nat.zero_le _, hlt d (h.lt_of_mem hd)⟩
    · by_cases hinner : e = inner
      · subst hinner
        rw [getD_set_self _ (hlength ▸ h.inner_lt), slicePartition_base_getD h.maxDim_lt,
          if_neg h.maxDim_ne.symm]
      · have hge : dimensions.length ≤ e := by
          by_contra hlt'
          exact he (h.mem_of_lt (by omega) hinner)
        rw [List.getD_eq_default _ _ (by simp [hlength, hge]),
          List.getD_eq_default _ _ (by simpa [length_slicePartition_base] using hge)]
    · rw [List.set_set, set_getD_self]

theorem nodup_sliceIndices :
    (sliceIndices (dimensions.getD inner 0) inner dims (slicePartition dimensions maxDim range)).Nodup := by
  obtain ⟨visited, hvisit, hnodup, hmem⟩ := h.visitIndices_slice
  have hrow : ∀ t ∈ visited, (t.set inner 0) = t ∧ inner < t.length := fun t ht => by
    obtain ⟨htlength, -, htframe⟩ := (hmem t).mp ht
    refine ⟨?_, htlength ▸ h.inner_lt⟩
    rw [← h.getD_inner_of_frame htframe, set_getD_self]
  simp only [sliceIndices, hvisit, Option.getD_some]
  refine List.nodup_flatMap.mpr ⟨fun t ht => (List.nodup_range _).map_on fun k _ k' _ hkk' => ?_,
    hnodup.pairwise_of_forall_ne fun t ht t' ht' hne => ?_⟩
  · have := congrArg (List.getD · inner 0) hkk'
    dsimp only at this
    rwa [getD_set_self _ (hrow t ht).2, getD_set_self _ (hrow t ht).2] at this
  · simp only [Function.onFun, List.disjoint_left, List.mem_map]
    rintro _ ⟨k, -, rfl⟩ ⟨k', -, hkk'⟩
    have := congrArg (List.set · inner 0) hkk'
    simp only [List.set_set, (hrow t ht).1, (hrow t' ht').1] at this
    exact hne this.symm

end SliceSetting

/-- A thread's `SlicedCopy`, under any strides with a positive source stride along the first
iteration dimension, writes for each index tuple of its partition the converted source element at
the tuple's source offset to the tuple's destination offset. -/
theorem SliceSetting.slicedCopy_eq {range : Nat × Nat} (cast : S → D) (src : Nat → S)
    (h : SliceSetting dimensions inner dims maxDim range) {srcStrides destStrides : List Nat}
    (hstride : 0 < srcStrides.getD inner 0) :
    slicedCopy cast dimensions src srcStrides destStrides (inner :: dims)
        (slicePartition dimensions maxDim range) =
      some ((sliceIndices (dimensions.getD inner 0) inner dims
        (slicePartition dimensions maxDim range)).map fun idx =>
          (getFlatTensorOffset destStrides idx, cast (src (getFlatTensorOffset srcStrides idx)))) := by
  obtain ⟨visited, hvisit, -, hmem⟩ := h.visitIndices_slice
  have hbase : (slicePartition dimensions maxDim range).base.length ≠ 0 := by
    rw [length_slicePartition_base]
    exact Nat.pos_iff_ne_zero.mp (Nat.zero_lt_of_lt h.inner_lt)
  simp only [slicedCopy, List.headD_cons, List.tail_cons, if_neg hbase, hvisit, Option.map_some',
    sliceIndices, Option.getD_some, List.map_flatMap]
  refine congrArg some (List.flatMap_congr fun t ht => ?_)
  obtain ⟨htlength, -, htframe⟩ := (hmem t).mp ht
  have hzero := h.getD_inner_of_frame htframe
  rw [stridedCopy_eq_map cast src hstride, List.map_map]
  refine List.map_congr_left fun k _ => ?_
  simp only [Function.comp, getFlatTensorOffset_set k (htlength ▸ h.inner_lt) hzero]

/-- A thread's `SlicedCopy` writes, for each index tuple of its partition, what the copy writes
for that index. -/
theorem SliceSetting.slicedCopy_slice {range : Nat × Nat} (cast : S → D) (src : Nat → S) {srcShape destShape : ArrayShape}
    (h : SliceSetting destShape.dimensions inner dims maxDim range)
    (hdims : srcShape.dimensions = destShape.dimensions)
    (hsrc : srcShape.minorToMajor.Perm (List.range srcShape.dimensions.length)) :
    slicedCopy cast destShape.dimensions src (computeShapeStrides srcShape)
        (computeShapeStrides destShape) (inner :: dims) (slicePartition destShape.dimensions maxDim range) =
      some ((sliceIndices (destShape.dimensions.getD inner 0) inner dims
        (slicePartition destShape.dimensions maxDim range)).map (copyEntry cast src srcShape destShape)) := by
  have hinner : inner ∈ srcShape.minorToMajor :=
    hsrc.symm.subset (List.mem_range.mpr (hdims ▸ h.inner_lt))
  exact h.slicedCopy_eq cast src (stridesLoop_pos (hdims ▸ h.positive) Nat.one_pos
    (fun d hd => by simpa using lt_of_mem_layout hsrc hd) (fun d hd => lt_of_mem_layout hsrc hd)
    inner hinner)

theorem mapM_eq_some_map {α β : Type} {f : α → Option β} {g : α → β} :
    ∀ {l : List α}, (∀ a ∈ l, f a = some (g a)) → l.mapM f = some (l.map g)
  | [], _ => rfl
  | a :: l, h => by
      rw [List.mapM_cons, h a (List.mem_cons_self _ _),
        mapM_eq_some_map fun b hb => h b (List.mem_cons_of_mem _ hb)]
      rfl

end Rows

/-- `SlicedCopy` of a part `CreateCopyPartitions` makes over positive dimensions, along iteration
dimensions that permute the dimension indices and start with the strided copy dimension `s`,
under any strides with a positive source stride along `s`: its loop ends, and it writes once at
each index tuple of the part's box, `s` over its whole range and every other dimension over the
part's `[base, limit)`, the converted source element at the tuple's source offset to the tuple's
destination offset. -/
theorem slicedCopy_visits_part (cast : S → D) (src : Nat → S) (hardwareConcurrency : Nat)
    {dimensions : List Nat} (hpos : ∀ d ∈ dimensions, 0 < d) {s : Nat} {dims : List Nat}
    (hiter : (s :: dims).Perm (List.range dimensions.length)) {parts : List CopyPartition}
    (hparts : createCopyPartitions hardwareConcurrency dimensions s = .ok parts)
    {srcStrides destStrides : List Nat} (hstride : 0 < srcStrides.getD s 0)
    {part : CopyPartition} (hpart : part ∈ parts) :
    ∃ visited : List (List Nat), slicedCopy cast dimensions src srcStrides destStrides (s :: dims) part =
        some (visited.map fun idx => (getFlatTensorOffset destStrides idx,
          cast (src (getFlatTensorOffset srcStrides idx)))) ∧
      visited.Nodup ∧
      ∀ idx, idx ∈ visited ↔ idx.length = dimensions.length ∧ idx.getD s 0 < dimensions.getD s 0 ∧
        ∀ k < dimensions.length, k ≠ s →
          part.base.getD k 0 ≤ idx.getD k 0 ∧ idx.getD k 0 < part.limit.getD k 0 := by
  have hrank : 2 ≤ dimensions.length := by
    by_contra hlt
    have hlength := hiter.length_eq
    rw [List.length_cons, List.length_range] at hlength
    obtain ⟨d, rfl⟩ := List.length_eq_one.mp (show dimensions.length = 1 by omega)
    obtain rfl : s = 0 := by simpa using hiter.subset (List.mem_cons_self s dims)
    have hnone : findMaxDim [d] 0 = none := rfl
    simp only [createCopyPartitions, hnone, Option.getD_none,
      vectorAt_of_le _ [d] (2 ^ 64 - 1) (by simp), error_bind] at hparts
    cases hparts
  obtain ⟨maxDim, ranges, hmax, hne, hcreate, hbounds, -, -⟩ :=
    createCopyPartitions_eq hardwareConcurrency hrank s
  rw [hcreate, Except.ok.injEq] at hparts
  subst hparts
  obtain ⟨r, hr, rfl⟩ := List.mem_map.mp hpart
  have hset : SliceSetting dimensions s dims maxDim r :=
    ⟨hpos, hiter, hmax, hne, (hbounds r hr).1, (hbounds r hr).2⟩
  refine ⟨_, hset.slicedCopy_eq cast src hstride, hset.nodup_sliceIndices, fun idx => ?_⟩
  rw [hset.mem_sliceIndices, forall₂_lt_iff]
  constructor
  · rintro ⟨⟨hlength, hlt⟩, hlo, hhi⟩
    refine ⟨hlength, hlt s hset.inner_lt, fun k hk hks => ?_⟩
    simp only [slicePartition_base_getD hmax, slicePartition_limit_getD hmax]
    split_ifs with hkm
    · subst hkm
      exact ⟨hlo, hhi⟩
    · exact ⟨Nat.zero_le _, hlt k hk⟩
  · rintro ⟨hlength, hs, hk⟩
    have hm := hk maxDim hmax hne
    simp only [slicePartition_base_getD hmax, slicePartition_limit_getD hmax, if_true] at hm
    refine ⟨⟨hlength, fun i hi => ?_⟩, hm⟩
    by_cases his : i = s
    · subst his
      exact hs
    · have := hk i hi his
      simp only [slicePartition_base_getD hmax, slicePartition_limit_getD hmax] at this
      split_ifs at this with him
      · subst him
        exact Nat.lt_of_lt_of_le this.2 (hbounds r hr).2
      · exact this.2

/-- The one part of `[2, 3]` with strided copy dimension `0`; the witness copies it from
column-major strides `[1, 2]` to row-major strides `[3, 1]`. -/
def wholePart : CopyPartition := ⟨[0, 0], [2, 3]⟩

theorem slicedCopy_visits_part_transposed :
    (∀ d ∈ [2, 3], 0 < d) ∧ ([0, 1] : List Nat).Perm (List.range [2, 3].length) ∧
    createCopyPartitions 4 [2, 3] 0 = .ok [wholePart] ∧
    0 < [1, 2].getD 0 0 ∧ wholePart ∈ [wholePart] ∧
    ∃ visited : List (List Nat), slicedCopy (fun x : Nat => x) [2, 3] (fun o => 10 * o) [1, 2]
        [3, 1] [0, 1] wholePart =
        some (visited.map fun idx => (getFlatTensorOffset [3, 1] idx,
          10 * getFlatTensorOffset [1, 2] idx)) ∧
      visited.Nodup ∧
      ∀ idx, idx ∈ visited ↔ idx.length = [2, 3].length ∧ idx.getD 0 0 < [2, 3].getD 0 0 ∧
        ∀ k < [2, 3].length, k ≠ 0 →
          wholePart.base.getD k 0 ≤ idx.getD k 0 ∧ idx.getD k 0 < wholePart.limit.getD k 0 :=
  ⟨by decide, by decide, by decide, by decide, List.mem_singleton_self _,
    slicedCopy_visits_part (fun x : Nat => x) (fun o => 10 * o) 4 (by decide) (by decide)
      (show createCopyPartitions 4 [2, 3] 0 = .ok [wholePart] by decide)
      (show 0 < [1, 2].getD 0 0 by decide) (List.mem_singleton_self _)⟩

/-! ## The copy -/

theorem length_pos_of_perm_range {l : List Nat} {n : Nat} (h : l.Perm (List.range n)) (hn : 0 < n) :
    ∃ first rest, l = first :: rest := by
  cases l with
  | nil =>
      have := h.length_eq
      simp only [List.length_nil, List.length_range] at this
      omega
  | cons first rest => exact ⟨first, rest, rfl⟩

/-- The transposing path, over every layout pair of rank at least two and positive dimensions,
writes what the copy is for: the partitions' threads together write each index of the box once. -/
theorem stridedCopyTensors_perm (cast : S → D) (hardwareConcurrency : Nat) (src : Nat → S)
    {srcShape destShape : ArrayShape} (hdims : srcShape.dimensions = destShape.dimensions)
    (hsrc : srcShape.minorToMajor.Perm (List.range srcShape.dimensions.length))
    (hdest : destShape.minorToMajor.Perm (List.range destShape.dimensions.length))
    (hpos : 0 < elementsIn destShape) (hrank : 2 ≤ destShape.dimensions.length) :
    ∃ threads, stridedCopyTensors cast hardwareConcurrency src srcShape destShape = .ok (some threads) ∧
      threads.flatten.Perm (copySpec cast src srcShape destShape) := by
  have hpositive : ∀ d ∈ destShape.dimensions, 0 < d := fun d hd => Nat.pos_of_ne_zero fun h0 =>
    absurd (Nat.eq_zero_of_zero_dvd (h0 ▸ List.dvd_prod hd)) (Nat.pos_iff_ne_zero.mp hpos)
  obtain ⟨iterDims, hiter, hperm⟩ := getIterationDimensions_perm hdest (by omega)
  obtain ⟨inner, dims, rfl⟩ := length_pos_of_perm_range hperm (by omega)
  obtain ⟨maxDim, ranges, hmax, hne, hparts, hbounds, hpairwise, hcover⟩ :=
    createCopyPartitions_eq hardwareConcurrency hrank inner
  have hsetting : ∀ r ∈ ranges, SliceSetting destShape.dimensions inner dims maxDim r :=
    fun r hr => ⟨hpositive, hperm, hmax, hne, (hbounds r hr).1, (hbounds r hr).2⟩
  have hthreads := mapM_eq_some_map (l := ranges.map (slicePartition destShape.dimensions maxDim))
    (f := slicedCopy cast destShape.dimensions src (computeShapeStrides srcShape)
      (computeShapeStrides destShape) (inner :: dims))
    (g := fun p => (sliceIndices (destShape.dimensions.getD inner 0) inner dims p).map
      (copyEntry cast src srcShape destShape))
    fun p hp => by
      obtain ⟨r, hr, rfl⟩ := List.mem_map.mp hp
      exact (hsetting r hr).slicedCopy_slice cast src hdims hsrc
  refine ⟨_, by simp only [stridedCopyTensors, hiter, hparts, ok_bind, List.headD_cons, hthreads]; rfl, ?_⟩
  rw [← List.flatMap_def, ← List.map_flatMap, copySpec]
  refine List.Perm.map _ ((List.perm_ext_iff_of_nodup ?_ (nodup_boxIndices _)).mpr fun idx => ?_)
  · refine List.nodup_flatMap.mpr ⟨fun p hp => ?_, List.pairwise_map.mpr (hpairwise.imp_of_mem
      fun {r r'} hr hr' hle => List.disjoint_left.mpr fun idx hidx hidx' => ?_)⟩
    · obtain ⟨r, hr, rfl⟩ := List.mem_map.mp hp
      exact (hsetting r hr).nodup_sliceIndices
    · have := ((hsetting r hr).mem_sliceIndices.mp hidx).2
      have := ((hsetting r' hr').mem_sliceIndices.mp hidx').2
      omega
  · simp only [List.mem_flatMap, List.mem_map, mem_boxIndices]
    constructor
    · rintro ⟨_, ⟨r, hr, rfl⟩, hidx⟩
      exact ((hsetting r hr).mem_sliceIndices.mp hidx).1
    · intro hbox
      obtain ⟨r, hr, hlo, hhi⟩ := hcover _ ((forall₂_lt_iff.mp hbox).2 maxDim hmax)
      exact ⟨_, ⟨r, hr, rfl⟩, (hsetting r hr).mem_sliceIndices.mpr ⟨hbox, hlo, hhi⟩⟩

theorem layout_eq_of_rank_le_one {layout layout' : List Nat} {rank : Nat} (hrank : rank ≤ 1)
    (h : layout.Perm (List.range rank)) (h' : layout'.Perm (List.range rank)) : layout = layout' := by
  rcases Nat.le_one_iff_eq_zero_or_eq_one.mp hrank with rfl | rfl
  · rw [List.range_zero, List.perm_nil] at h h'
    rw [h, h']
  · rw [show List.range 1 = [0] from rfl, List.perm_singleton] at h h'
    rw [h, h']

/-! ## The destination buffer -/

@[simp] theorem applyWrites_cons (dest : Nat → D) (write : Nat × D) (writes : List (Nat × D)) :
    applyWrites dest (write :: writes) = applyWrites (Function.update dest write.1 write.2) writes :=
  rfl

theorem applyWrites_of_not_mem {o : Nat} : ∀ {writes : List (Nat × D)} {dest : Nat → D},
    o ∉ writes.map Prod.fst → applyWrites dest writes o = dest o
  | [], _, _ => rfl
  | _ :: _, _, h => by
      rw [List.map_cons, List.mem_cons, not_or] at h
      rw [applyWrites_cons, applyWrites_of_not_mem h.2, Function.update_noteq h.1]

theorem applyWrites_of_mem {o : Nat} {v : D} : ∀ {writes : List (Nat × D)} {dest : Nat → D},
    (writes.map Prod.fst).Nodup → (o, v) ∈ writes → applyWrites dest writes o = v
  | [], _, _, h => absurd h (List.not_mem_nil _)
  | _ :: _, _, hnodup, h => by
      rw [List.map_cons, List.nodup_cons] at hnodup
      rw [applyWrites_cons]
      rcases List.mem_cons.mp h with rfl | h
      · rw [applyWrites_of_not_mem hnodup.1, Function.update_same]
      · exact applyWrites_of_mem hnodup.2 h

/-- What `CopyTensors` writes, on each of its paths: the flat copy when the layouts agree, no
copy for an empty box, and the threads of the transposing path otherwise. -/
theorem copyTensors_perm_copySpec (cast : S → D) (hardwareConcurrency elementSize : Nat)
    (src : Nat → S) {srcShape destShape : ArrayShape} (hdims : srcShape.dimensions = destShape.dimensions)
    (hsrc : srcShape.minorToMajor.Perm (List.range srcShape.dimensions.length))
    (hdest : destShape.minorToMajor.Perm (List.range destShape.dimensions.length)) :
    ∃ threads, copyTensors cast hardwareConcurrency elementSize src srcShape
        (elementsIn srcShape * elementSize) destShape = .ok (some threads) ∧
      threads.flatten.Perm (copySpec cast src srcShape destShape) := by
  have hN : elementsIn srcShape = elementsIn destShape := by rw [elementsIn, elementsIn, hdims]
  simp only [copyTensors, xlaCheck_of_true _ hdims, xlaCheck_of_true _ rfl, ok_bind]
  split_ifs with hlayout hpos
  · -- the layouts agree: the flat copy
    have hstrides : computeShapeStrides srcShape = computeShapeStrides destShape := by
      rw [computeShapeStrides, computeShapeStrides, hdims, hlayout]
    refine ⟨_, rfl, ?_⟩
    rw [List.flatten_singleton, copyData_eq, copySpec, hN]
    have hmap : (boxIndices destShape.dimensions).map (copyEntry cast src srcShape destShape) =
        ((boxIndices destShape.dimensions).map (getFlatTensorOffset (computeShapeStrides destShape))).map
          fun o => (o, cast (src o)) := by
      rw [List.map_map]
      exact List.map_congr_left fun idx _ => by simp only [copyEntry, hstrides, Function.comp]
    rw [hmap]
    exact ((map_getFlatTensorOffset_perm hdest).map _).symm
  · -- the transposing path, of rank at least two since the layouts differ
    have hrank : 2 ≤ destShape.dimensions.length := by
      by_contra hrank
      exact hlayout (layout_eq_of_rank_le_one (by omega) (hdims ▸ hsrc) hdest)
    exact stridedCopyTensors_perm cast hardwareConcurrency src hdims hsrc hdest (hN ▸ hpos) hrank
  · -- no element
    refine ⟨[], rfl, ?_⟩
    rw [List.eq_nil_of_length_eq_zero (l := copySpec cast src srcShape destShape) (by
      rw [copySpec, List.length_map, length_boxIndices, ← elementsIn, ← hN]
      omega)]
    rfl

/-- `CopyTensors` between two shapes of the same dimensions whose layouts permute the dimension
indices ends, and its threads write, for every index of the box, the destination element at the
destination strides' offset of the index from the converted source element at the source strides'
offset, reading and writing only offsets below `ElementsIn` and writing each once. However their
writes interleave, the destination ends with those elements, and nothing else changes. Whenever
the transposing path applies (a nonempty box of rank at least two), it writes the same as the
path taken, so on equal layouts the flat copy and the partitioned strided copy agree. -/
theorem copyTensors_copies_box (cast : S → D) (hardwareConcurrency elementSize : Nat)
    (src : Nat → S) {srcShape destShape : ArrayShape} (hdims : srcShape.dimensions = destShape.dimensions)
    (hsrc : srcShape.minorToMajor.Perm (List.range srcShape.dimensions.length))
    (hdest : destShape.minorToMajor.Perm (List.range destShape.dimensions.length)) :
    ∃ threads, copyTensors cast hardwareConcurrency elementSize src srcShape
        (elementsIn srcShape * elementSize) destShape = .ok (some threads) ∧
      threads.flatten.Perm (copySpec cast src srcShape destShape) ∧
      (threads.flatten.map Prod.fst).Perm (List.range (elementsIn srcShape)) ∧
      (∀ idx ∈ boxIndices destShape.dimensions,
        getFlatTensorOffset (computeShapeStrides srcShape) idx < elementsIn srcShape) ∧
      (∀ writes, writes.Perm threads.flatten → ∀ dest : Nat → D,
        (∀ idx ∈ boxIndices destShape.dimensions,
          applyWrites dest writes (getFlatTensorOffset (computeShapeStrides destShape) idx) =
            cast (src (getFlatTensorOffset (computeShapeStrides srcShape) idx))) ∧
        ∀ o, elementsIn srcShape ≤ o → applyWrites dest writes o = dest o) ∧
      (0 < elementsIn srcShape → 2 ≤ srcShape.dimensions.length →
        ∃ strided, stridedCopyTensors cast hardwareConcurrency src srcShape destShape =
          .ok (some strided) ∧ strided.flatten.Perm threads.flatten) := by
  have hN : elementsIn srcShape = elementsIn destShape := by rw [elementsIn, elementsIn, hdims]
  have hoffsets : ((copySpec cast src srcShape destShape).map Prod.fst).Perm
      (List.range (elementsIn srcShape)) := by
    rw [copySpec, List.map_map, hN]
    exact map_getFlatTensorOffset_perm hdest
  obtain ⟨threads, hrun, hperm⟩ :=
    copyTensors_perm_copySpec cast hardwareConcurrency elementSize src hdims hsrc hdest
  refine ⟨threads, hrun, hperm, (hperm.map _).trans hoffsets,
    fun idx hidx => getFlatTensorOffset_lt hsrc (hdims ▸ hidx),
    fun writes hwrites dest => ⟨fun idx hidx => ?_, fun o ho => ?_⟩, fun hpos hrank => ?_⟩
  · have hall := hwrites.trans hperm
    exact applyWrites_of_mem ((hall.map Prod.fst).nodup_iff.mpr (hoffsets.nodup_iff.mpr
      (List.nodup_range _))) (hall.symm.subset (List.mem_map_of_mem _ hidx))
  · refine applyWrites_of_not_mem fun ho' => ?_
    have := List.mem_range.mp (((hwrites.trans hperm).map Prod.fst).trans hoffsets |>.subset ho')
    omega
  · obtain ⟨strided, hstrided, hsperm⟩ := stridedCopyTensors_perm cast hardwareConcurrency src hdims
      hsrc hdest (hN ▸ hpos) (hdims ▸ hrank)
    exact ⟨strided, hstrided, hsperm.trans hperm.symm⟩

/-- A `2 × 3` shape, dimension `0` most minor. -/
def columnMajorShape : ArrayShape := ⟨.F32, [2, 3], [0, 1], []⟩

/-- The `2 × 3` shape, dimension `1` most minor. -/
def rowMajorShape : ArrayShape := ⟨.F32, [2, 3], [1, 0], []⟩

theorem copyTensors_copies_box_transposed :
    columnMajorShape.dimensions = rowMajorShape.dimensions ∧
    columnMajorShape.minorToMajor.Perm (List.range columnMajorShape.dimensions.length) ∧
    rowMajorShape.minorToMajor.Perm (List.range rowMajorShape.dimensions.length) ∧
    ∃ threads, copyTensors (fun x : Nat => x) 4 4 (fun o => o) columnMajorShape
        (elementsIn columnMajorShape * 4) rowMajorShape = .ok (some threads) ∧
      threads.flatten.Perm (copySpec (fun x : Nat => x) (fun o => o) columnMajorShape rowMajorShape) ∧
      (threads.flatten.map Prod.fst).Perm (List.range (elementsIn columnMajorShape)) ∧
      (∀ idx ∈ boxIndices rowMajorShape.dimensions,
        getFlatTensorOffset (computeShapeStrides columnMajorShape) idx < elementsIn columnMajorShape) ∧
      (∀ writes, writes.Perm threads.flatten → ∀ dest : Nat → Nat,
        (∀ idx ∈ boxIndices rowMajorShape.dimensions,
          applyWrites dest writes (getFlatTensorOffset (computeShapeStrides rowMajorShape) idx) =
            getFlatTensorOffset (computeShapeStrides columnMajorShape) idx) ∧
        ∀ o, elementsIn columnMajorShape ≤ o → applyWrites dest writes o = dest o) ∧
      (0 < elementsIn columnMajorShape → 2 ≤ columnMajorShape.dimensions.length →
        ∃ strided, stridedCopyTensors (fun x : Nat => x) 4 (fun o => o) columnMajorShape
          rowMajorShape = .ok (some strided) ∧ strided.flatten.Perm threads.flatten) :=
  ⟨rfl, by decide, by decide,
    copyTensors_copies_box (fun x : Nat => x) 4 4 (fun o => o) rfl (by decide) (by decide)⟩

/-- The transposing copy of the `2 × 3` shapes, in one partition: the element at `(i, j)` moves
from the source offset `i + 2 * j` to the destination offset `3 * i + j`. -/
example : copyTensors (fun x : Nat => x) 4 4 (fun o => 10 * o) columnMajorShape 24 rowMajorShape =
    .ok (some [[(0, 0), (1, 20), (2, 40), (3, 10), (4, 30), (5, 50)]]) := by
  rfl

end XrtClient
