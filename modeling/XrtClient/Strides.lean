import XrtClient.Copy

/-! # The strides of a layout

`ComputeShapeStrides` walks a shape's layout from the most minor dimension on and gives each
dimension the product of the sizes of the dimensions before it along the layout;
`ComputeArrayStrides` gives each dimension of a row-major array the product of the sizes after
it. On the descending layout `[rank - 1, ..., 0]` the two agree. Along every layout that permutes
the dimension indices, the offsets `GetFlatTensorOffset` computes from the strides number the
dimension box without gap or repeat.
-/

namespace XrtClient

/-- `ComputeArrayStrides`: stride `1` everywhere, then `strides[i - 2] = strides[i - 1] *
sizes[i - 1]` for `i` from the rank down to `2`. -/
def computeArrayStrides (sizes : List Nat) : List Nat :=
  (List.range' 2 (sizes.length - 1)).reverse.foldl (fun strides i =>
    strides.set (i - 2) (strides.getD (i - 1) 0 * sizes.getD (i - 1) 0))
    (List.replicate sizes.length 1)

/-- The strides of a row-major array: each dimension's is the product of the sizes after it. -/
def rowMajorStrides (sizes : List Nat) : List Nat :=
  (List.range sizes.length).map fun i => (sizes.drop (i + 1)).prod

section RowMajor

variable {sizes : List Nat}

theorem prod_drop_of_lt {i : Nat} (hi : i < sizes.length) :
    (sizes.drop i).prod = sizes.getD i 0 * (sizes.drop (i + 1)).prod := by
  rw [List.drop_eq_getElem_cons hi, List.prod_cons, List.getD_eq_getElem _ _ hi]

theorem getD_rowMajorStrides {i : Nat} (hi : i < sizes.length) :
    (rowMajorStrides sizes).getD i 0 = (sizes.drop (i + 1)).prod := by
  simp [rowMajorStrides, List.getD_eq_getElem?_getD, hi]

theorem eq_rowMajorStrides {strides : List Nat} (hlength : strides.length = sizes.length)
    (h : ∀ i < sizes.length, strides.getD i 0 = (sizes.drop (i + 1)).prod) :
    strides = rowMajorStrides sizes :=
  ext_getD (by simp [rowMajorStrides, hlength]) fun i => by
    by_cases hi : i < sizes.length
    · rw [h i hi, getD_rowMajorStrides hi]
    · rw [List.getD_eq_default _ _ (by omega), List.getD_eq_default _ _ (by simp [rowMajorStrides]; omega)]

/-- After the passes `i = rank, ..., rank + 1 - k` of its loop, `ComputeArrayStrides` holds the
row-major stride at every position from `rank - 1 - k` on and `1` before. -/
theorem foldr_arrayStrides (k : Nat) (hk : k ≤ sizes.length - 1) :
    let strides := (List.range' (sizes.length + 1 - k) k).foldr (fun i strides =>
      strides.set (i - 2) (strides.getD (i - 1) 0 * sizes.getD (i - 1) 0))
      (List.replicate sizes.length 1)
    strides.length = sizes.length ∧ ∀ j < sizes.length,
      strides.getD j 0 = if sizes.length - 1 - k ≤ j then (sizes.drop (j + 1)).prod else 1 := by
  induction k with
  | zero =>
      refine ⟨List.length_replicate _ _, fun j hj => ?_⟩
      rw [List.range'_zero, List.foldr_nil, List.getD_eq_getElem?_getD,
        List.getElem?_replicate_of_lt hj, Option.getD_some]
      split_ifs with hlast
      · rw [List.drop_eq_nil_of_le (by omega), List.prod_nil]
      · rfl
  | succ k ih =>
      obtain ⟨hlength, hvalues⟩ := ih (by omega)
      dsimp only at hlength hvalues ⊢
      rw [show sizes.length + 1 - (k + 1) = sizes.length - k by omega, List.range'_succ,
        show sizes.length - k + 1 = sizes.length + 1 - k by omega, List.foldr_cons]
      generalize (List.range' (sizes.length + 1 - k) k).foldr _ _ = strides at hlength hvalues
      refine ⟨by rw [List.length_set, hlength], fun j hj => ?_⟩
      by_cases hset : j = sizes.length - k - 2
      · subst hset
        rw [show sizes.length - k - 1 = sizes.length - k - 2 + 1 by omega, getD_set_self _ (by omega),
          hvalues _ (by omega), if_pos (by omega), if_pos (by omega),
          prod_drop_of_lt (i := sizes.length - k - 2 + 1) (by omega), Nat.mul_comm]
      · rw [getD_set_ne _ (Ne.symm hset), hvalues j hj]
        split_ifs <;> first | rfl | omega

theorem computeArrayStrides_eq_rowMajor (sizes : List Nat) :
    computeArrayStrides sizes = rowMajorStrides sizes := by
  obtain ⟨hlength, hvalues⟩ := @foldr_arrayStrides sizes (sizes.length - 1) le_rfl
  have hrange : List.range' (sizes.length + 1 - (sizes.length - 1)) (sizes.length - 1) =
      List.range' 2 (sizes.length - 1) := by
    rcases Nat.eq_zero_or_pos sizes.length with h | h
    · simp [h]
    · rw [show sizes.length + 1 - (sizes.length - 1) = 2 by omega]
  rw [hrange] at hlength hvalues
  rw [computeArrayStrides, List.foldl_reverse]
  exact eq_rowMajorStrides hlength fun j hj => by rw [hvalues j hj, if_pos (by omega)]

/-- Along the descending layout, the loop of `ComputeShapeStrides` sets each dimension's stride
to the product of the sizes after it, the running stride being the product from the next
dimension on. -/
theorem stridesLoop_descending : ∀ m ≤ sizes.length, ∀ {strides : List Nat},
    strides.length = sizes.length →
    (∀ j, m ≤ j → j < sizes.length → strides.getD j 0 = (sizes.drop (j + 1)).prod) →
    (stridesLoop sizes (strides, (sizes.drop m).prod) (List.range m).reverse).1 =
      rowMajorStrides sizes
  | 0, _, _, hlength, h => eq_rowMajorStrides hlength fun j hj => h j (Nat.zero_le _) hj
  | m + 1, hm, strides, hlength, h => by
      rw [List.range_succ, List.reverse_append, List.reverse_singleton, List.singleton_append,
        stridesLoop_cons]
      dsimp only
      rw [Nat.mul_comm, ← prod_drop_of_lt (by omega)]
      refine stridesLoop_descending m (by omega) (by rw [List.length_set, hlength]) fun j hj hjn => ?_
      by_cases hjm : j = m
      · subst hjm
        exact getD_set_self _ (by omega)
      · rw [getD_set_ne _ (Ne.symm hjm)]
        exact h j (by omega) hjn

theorem computeShapeStrides_descending (elementType : PrimitiveType) (sizes : List Nat)
    (dynamicDimensions : List Bool) :
    computeShapeStrides ⟨elementType, sizes, (List.range sizes.length).reverse, dynamicDimensions⟩ =
      rowMajorStrides sizes := by
  have h := @stridesLoop_descending sizes sizes.length le_rfl (List.replicate sizes.length 0)
    (by simp) fun j hj hjn => absurd hjn (by omega)
  rwa [List.drop_length, List.prod_nil] at h

end RowMajor

/-- `ComputeArrayStrides` is `ComputeShapeStrides` on the descending layout: the stride of
dimension `i` of a row-major array is the product of the sizes after it. -/
theorem computeArrayStrides_eq_descending (sizes : List Nat) (elementType : PrimitiveType)
    (dynamicDimensions : List Bool) :
    computeArrayStrides sizes =
        computeShapeStrides ⟨elementType, sizes, (List.range sizes.length).reverse, dynamicDimensions⟩ ∧
      ∀ i < sizes.length, (computeArrayStrides sizes)[i]? = some (sizes.drop (i + 1)).prod := by
  rw [computeArrayStrides_eq_rowMajor, computeShapeStrides_descending]
  exact ⟨rfl, fun i hi => by simp [rowMajorStrides, hi]⟩

/-! ## Strides along a layout -/

/-- Along distinct dimensions, the loop of `ComputeShapeStrides` gives the `j`-th dimension of
the layout the running stride times the sizes of the dimensions before it. -/
theorem getD_stridesLoop {dimensions : List Nat} : ∀ {layout : List Nat} {state : List Nat × Nat},
    layout.Nodup → (∀ d ∈ layout, d < state.1.length) → ∀ j (hj : j < layout.length),
    (stridesLoop dimensions state layout).1.getD layout[j] 0 =
      state.2 * ((layout.take j).map (dimensions.getD · 0)).prod
  | [], _, _, _, j, hj => absurd hj (Nat.not_lt_zero j)
  | d :: rest, state, hnodup, hlt, 0, _ => by
      rw [List.getElem_cons_zero, stridesLoop_cons, stridesLoop_getD_of_not_mem (List.nodup_cons.mp hnodup).1,
        getD_set_self _ (hlt d (List.mem_cons_self _ _))]
      simp
  | d :: rest, state, hnodup, hlt, j + 1, hj => by
      rw [List.getElem_cons_succ, stridesLoop_cons, getD_stridesLoop (List.nodup_cons.mp hnodup).2
        (fun e he => by simpa using hlt e (List.mem_cons_of_mem _ he)) j (by simpa using hj)]
      simp [Nat.mul_assoc]

/-- Along a layout that permutes the dimension indices, `ComputeShapeStrides` gives the most
minor dimension stride `1` and each next dimension along the layout the stride of the one before
times that one's size; `GetFlatTensorOffset` under these strides is a bijection from the
dimension box onto the offsets below `ElementsIn`. -/
theorem computeShapeStrides_mixed_radix {shape : ArrayShape}
    (hlayout : shape.minorToMajor.Perm (List.range shape.dimensions.length)) :
    (∀ m, shape.minorToMajor.head? = some m → (computeShapeStrides shape).getD m 0 = 1) ∧
    (∀ j m m', shape.minorToMajor[j]? = some m → shape.minorToMajor[j + 1]? = some m' →
      (computeShapeStrides shape).getD m' 0 =
        (computeShapeStrides shape).getD m 0 * shape.dimensions.getD m 0) ∧
    (∀ idx, List.Forall₂ (· < ·) idx shape.dimensions →
      getFlatTensorOffset (computeShapeStrides shape) idx < elementsIn shape) ∧
    (∀ idx idx', List.Forall₂ (· < ·) idx shape.dimensions →
      List.Forall₂ (· < ·) idx' shape.dimensions →
      getFlatTensorOffset (computeShapeStrides shape) idx =
        getFlatTensorOffset (computeShapeStrides shape) idx' → idx = idx') ∧
    ∀ o < elementsIn shape, ∃ idx, List.Forall₂ (· < ·) idx shape.dimensions ∧
      getFlatTensorOffset (computeShapeStrides shape) idx = o := by
  have hstride : ∀ j (hj : j < shape.minorToMajor.length),
      (computeShapeStrides shape).getD shape.minorToMajor[j] 0 =
        ((shape.minorToMajor.take j).map (shape.dimensions.getD · 0)).prod := fun j hj => by
    have h := @getD_stridesLoop shape.dimensions shape.minorToMajor
      (List.replicate shape.dimensions.length 0, 1) (hlayout.nodup_iff.mpr (List.nodup_range _))
      (fun d hd => by simpa using lt_of_mem_layout hlayout hd) j hj
    rwa [one_mul] at h
  refine ⟨fun m hm => ?_, fun j m m' hm hm' => ?_,
    fun idx h => getFlatTensorOffset_lt hlayout (mem_boxIndices.mpr h),
    fun idx idx' h h' => getFlatTensorOffset_inj hlayout (mem_boxIndices.mpr h) (mem_boxIndices.mpr h'),
    fun o ho => ?_⟩
  · rw [List.head?_eq_getElem?] at hm
    obtain ⟨h0, rfl⟩ := List.getElem?_eq_some_iff.mp hm
    rw [hstride 0 h0]
    rfl
  · obtain ⟨hj, rfl⟩ := List.getElem?_eq_some_iff.mp hm
    obtain ⟨hj', rfl⟩ := List.getElem?_eq_some_iff.mp hm'
    rw [hstride _ hj', hstride _ hj, List.take_succ, List.getElem?_eq_getElem hj, Option.toList_some,
      List.map_append, List.prod_append, List.map_singleton, List.prod_singleton]
  · obtain ⟨idx, hidx, rfl⟩ := List.mem_map.mp
      ((map_getFlatTensorOffset_perm hlayout).symm.subset (List.mem_range.mpr ho))
    exact ⟨idx, mem_boxIndices.mp hidx, rfl⟩

theorem computeShapeStrides_mixed_radix_rowMajor :
    rowMajorShape.minorToMajor.Perm (List.range rowMajorShape.dimensions.length) ∧
    (∀ m, rowMajorShape.minorToMajor.head? = some m → (computeShapeStrides rowMajorShape).getD m 0 = 1) ∧
    (∀ j m m', rowMajorShape.minorToMajor[j]? = some m → rowMajorShape.minorToMajor[j + 1]? = some m' →
      (computeShapeStrides rowMajorShape).getD m' 0 =
        (computeShapeStrides rowMajorShape).getD m 0 * rowMajorShape.dimensions.getD m 0) ∧
    (∀ idx, List.Forall₂ (· < ·) idx rowMajorShape.dimensions →
      getFlatTensorOffset (computeShapeStrides rowMajorShape) idx < elementsIn rowMajorShape) ∧
    (∀ idx idx', List.Forall₂ (· < ·) idx rowMajorShape.dimensions →
      List.Forall₂ (· < ·) idx' rowMajorShape.dimensions →
      getFlatTensorOffset (computeShapeStrides rowMajorShape) idx =
        getFlatTensorOffset (computeShapeStrides rowMajorShape) idx' → idx = idx') ∧
    ∀ o < elementsIn rowMajorShape, ∃ idx, List.Forall₂ (· < ·) idx rowMajorShape.dimensions ∧
      getFlatTensorOffset (computeShapeStrides rowMajorShape) idx = o :=
  ⟨by decide, computeShapeStrides_mixed_radix (by decide)⟩

/-- The row-major `2 × 3` shape: strides `3` and `1`. -/
example : computeShapeStrides rowMajorShape = [3, 1] := rfl

end XrtClient
