import XrtClient.Basic
import Mathlib.Data.List.Perm.Basic
import Mathlib.Data.List.Dedup

/-! # Layouts of the array shapes of tensors

`MakeArrayShapeFromDimensions` gives a tensor's dimensions their layout: a layout registered
for those dimensions in `XLA_LAYOUTS`, on a TPU for ranks above one a layout that keeps the
padding small, and the descending layout otherwise. A registered layout gets in only through
`ParseLayout`, which accepts a list of ints exactly when it is a permutation of the dimension
indices, so every layout the function gives is one. The `XLA_LAYOUTS` string enters as the int
lists `ParseIntList` reads from it; the string split and `std::stol` are not modelled.
-/

namespace XrtClient

/-- x10's `DeviceType`, the kind of hardware of a device. -/
inductive DeviceType where
  | CPU | GPU | TPU | REMOTE_TPU
  deriving DecidableEq, Repr

/-- An array shape with its layout and the dimensions marked dynamic. -/
structure ArrayShape where
  elementType : PrimitiveType
  dimensions : List Nat
  minorToMajor : List Nat
  dynamicDimensions : List Bool
  deriving DecidableEq, Repr

/-! ## The XLA shape constructors

Modelled from XLA's `ShapeUtil` (not under src/). A shape it makes has no dynamic dimension;
`MakeShapeWithLayout` validates the layout and the caller's `ValueOrDie` ends the call on an
invalid one. -/

namespace ShapeUtil

/-- `ShapeUtil::MakeShapeWithLayout`. -/
def makeShapeWithLayout (type : PrimitiveType) (dimensions minorToMajor : List Nat) :
    Except Fault ArrayShape :=
  if minorToMajor.Perm (List.range dimensions.length) then
    .ok ⟨type, dimensions, minorToMajor, List.replicate dimensions.length false⟩
  else .error (.checkFailed "ValidateShape(shape)")

/-- `ShapeUtil::MakeShapeWithDescendingLayout`: the most minor dimension is the last one. -/
def makeShapeWithDescendingLayout (type : PrimitiveType) (dimensions : List Nat) : ArrayShape :=
  ⟨type, dimensions, (List.range dimensions.length).reverse,
    List.replicate dimensions.length false⟩

end ShapeUtil

/-! ## `LayoutManager` -/

/-- `LayoutManager::ParseLayout` on the ints `ParseIntList` read: as many as the rank, each in
`[0, rank)`, and as many distinct ones as the rank. -/
def parseLayout (ints : List Int) (rank : Nat) : Except Fault (List Nat) := do
  xlaCheck (ints.length = rank) "ints.size() == rank"
  ints.forM fun dim => do
    xlaCheck (0 ≤ dim) "dim >= 0"
    xlaCheck (dim < rank) "dim < rank"
  xlaCheck (ints.dedup.length = rank) "unique_ints.size() == rank"
  pure (ints.map Int.toNat)

/-- `LayoutManager::PopulateLayouts` over the entries `SHAPE=LAYOUT` of `XLA_LAYOUTS`, each as
the two int lists `ParseIntList` reads: the layouts registered by dimensions, first entry first. -/
def populateLayouts (entries : List (List Int × List Int)) :
    Except Fault (List (List Int × List Nat)) :=
  entries.foldlM (fun layouts entry => do
    let layout ← parseLayout entry.2 entry.1.length
    pure (emplace layouts entry.1 layout)) []

/-- `LayoutManager::GetLayout`. -/
def getLayout (layouts : List (List Int × List Nat)) (dimensions : List Nat) : Option (List Nat) :=
  layouts.lookup (dimensions.map Int.ofNat)

/-! ## Shapes with layouts -/

/-- `PaddingFactor`: how much padding `size` to a multiple of `padding` grows it, in `double`. -/
def paddingFactor (size : Nat) (padding : Nat) : Float :=
  let rem := size % padding
  1.0 + (if rem > 0 then Float.ofNat (padding - rem) / Float.ofNat size else 0.0)

/-- `SetDynamicDimensions`: mark the dimensions given as dynamic, if any are given. -/
def setDynamicDimensions (shape : ArrayShape) (dynamicDimensions : List Bool) :
    Except Fault ArrayShape := do
  if dynamicDimensions.isEmpty then return shape
  xlaCheck (dynamicDimensions.length = shape.dimensions.length) "dynamic_dimensions.size() == rank"
  pure { shape with dynamicDimensions := dynamicDimensions }

/-- `MakeShapeWithSortedLayout`: the dimension indices from the last down, sorted so that the
bigger dimensions are the more minor. `std::sort` leaves the order of equal dimensions open; the
model takes the stable one. -/
def makeShapeWithSortedLayout (dimensions : List Nat) (type : PrimitiveType) :
    Except Fault ArrayShape :=
  let layout := (List.range dimensions.length).reverse.mergeSort fun a b =>
    decide (dimensions.getD b 0 ≤ dimensions.getD a 0)
  ShapeUtil.makeShapeWithLayout type dimensions layout

/-- `MakeTpuShape`, with `XLA_MAX_PADDING_FACTOR` (by default 1.25): the descending layout when
padding the two most minor dimensions to the TPU tile of 8 by 128 costs little, the sorted
layout otherwise. -/
def makeTpuShape (dimensions : List Nat) (dynamicDimensions : List Bool) (type : PrimitiveType)
    (maxPaddingFactor : Float) : Except Fault ArrayShape := do
  let shape ←
    if paddingFactor (dimensions.getD (dimensions.length - 1) 0) 128 *
        paddingFactor (dimensions.getD (dimensions.length - 2) 0) 8 < maxPaddingFactor then
      pure (ShapeUtil.makeShapeWithDescendingLayout type dimensions)
    else makeShapeWithSortedLayout dimensions type
  setDynamicDimensions shape dynamicDimensions

/-- The local `MakeShapeWithLayout`. -/
def makeShapeWithLayout (type : PrimitiveType) (dimensions : List Nat)
    (dynamicDimensions : List Bool) (layout : List Nat) : Except Fault ArrayShape := do
  let shape ← ShapeUtil.makeShapeWithLayout type dimensions layout
  setDynamicDimensions shape dynamicDimensions

/-- `MakeSwiftTensorLayout`. -/
def makeSwiftTensorLayout (dimensions : List Nat) (dynamicDimensions : List Bool)
    (type : PrimitiveType) : Except Fault ArrayShape :=
  setDynamicDimensions (ShapeUtil.makeShapeWithDescendingLayout type dimensions) dynamicDimensions

/-- `MakeArrayShapeFromDimensions` over the registered layouts. -/
def makeArrayShapeFromDimensions (layouts : List (List Int × List Nat)) (dimensions : List Nat)
    (dynamicDimensions : List Bool) (type : PrimitiveType) (deviceType : DeviceType)
    (maxPaddingFactor : Float) : Except Fault ArrayShape :=
  match getLayout layouts dimensions with
  | some layout => makeShapeWithLayout type dimensions dynamicDimensions layout
  | none =>
      if dimensions.length > 1 ∧ deviceType = .TPU then
        makeTpuShape dimensions dynamicDimensions type maxPaddingFactor
      else makeSwiftTensorLayout dimensions dynamicDimensions type

/-! ## Every layout is a permutation -/

theorem foldlM_invariant_of_ok {σ α ε : Type} {f : σ → α → Except ε σ} {inv : σ → Prop} :
    ∀ {l : List α}, (∀ s a s', a ∈ l → inv s → f s a = .ok s' → inv s') →
      ∀ {s s'}, inv s → l.foldlM f s = .ok s' → inv s'
  | [], _, _, _, hs, h => by cases h; exact hs
  | a :: rest, hf, s, s', hs, h => by
      rw [List.foldlM_cons] at h
      obtain ⟨t, ht, hrest⟩ := bind_eq_ok h
      exact foldlM_invariant_of_ok (fun u b u' hb => hf u b u' (List.mem_cons_of_mem _ hb))
        (hf s a t (List.mem_cons_self _ _) hs ht) hrest

theorem forM_dims_eq_ok {rank : Nat} : ∀ {ints : List Int},
    (ints.forM fun dim => do
        xlaCheck (0 ≤ dim) "dim >= 0"
        xlaCheck (dim < rank) "dim < rank" : Except Fault Unit) = .ok () ↔
      ∀ dim ∈ ints, 0 ≤ dim ∧ dim < (rank : Int)
  | [] => by simp; rfl
  | dim :: rest => by
      rw [List.forM, List.forall_mem_cons, ← forM_dims_eq_ok]
      by_cases h0 : 0 ≤ dim <;> by_cases hr : dim < (rank : Int) <;>
        simp [xlaCheck, h0, hr, bind, Except.bind]

/-- A list of ints is a permutation of the indices below `rank` exactly when it has `rank`
entries, each in `[0, rank)`, and `rank` distinct ones. -/
theorem perm_range_iff {ints : List Int} {rank : Nat} :
    ints.Perm ((List.range rank).map Int.ofNat) ↔
      ints.length = rank ∧ (∀ dim ∈ ints, 0 ≤ dim ∧ dim < (rank : Int)) ∧
        ints.dedup.length = rank := by
  have hnodup : ((List.range rank).map Int.ofNat).Nodup :=
    (List.nodup_range rank).map fun _ _ h => Int.ofNat.inj h
  constructor
  · intro hperm
    have hints := hperm.nodup_iff.mpr hnodup
    refine ⟨by simpa using hperm.length_eq, fun dim hdim => ?_, by rw [hints.dedup]; simpa using hperm.length_eq⟩
    obtain ⟨k, hk, rfl⟩ := List.mem_map.mp (hperm.subset hdim)
    exact ⟨Int.ofNat_nonneg k, Int.ofNat_lt.mpr (List.mem_range.mp hk)⟩
  · rintro ⟨hlength, hrange, hdistinct⟩
    have hints : ints.Nodup := List.dedup_eq_self.mp
      ((List.dedup_sublist ints).eq_of_length (by rw [hdistinct, hlength]))
    refine (List.subperm_of_subset hints fun dim hdim => ?_).perm_of_length_le (by simp [hlength])
    obtain ⟨h0, hlt⟩ := hrange dim hdim
    exact List.mem_map.mpr ⟨dim.toNat, List.mem_range.mpr (by omega), Int.toNat_of_nonneg h0⟩

/-- `ParseLayout` accepts exactly the permutations of the dimension indices. -/
theorem parseLayout_eq_ok_iff {ints : List Int} {rank : Nat} {layout : List Nat} :
    parseLayout ints rank = .ok layout ↔
      ints.Perm ((List.range rank).map Int.ofNat) ∧ layout = ints.map Int.toNat := by
  rw [perm_range_iff]
  constructor
  · intro h
    obtain ⟨_, hlength, h⟩ := bind_eq_ok h
    obtain ⟨_, hrange, h⟩ := bind_eq_ok h
    obtain ⟨_, hdistinct, h⟩ := bind_eq_ok h
    exact ⟨⟨of_xlaCheck_eq_ok hlength, forM_dims_eq_ok.mp hrange, of_xlaCheck_eq_ok hdistinct⟩,
      (Except.ok.inj h).symm⟩
  · rintro ⟨⟨hlength, hrange, hdistinct⟩, rfl⟩
    rw [parseLayout, xlaCheck_of_true _ hlength, ok_bind, forM_dims_eq_ok.mpr hrange, ok_bind,
      xlaCheck_of_true _ hdistinct, ok_bind]
    rfl

/-- Every layout `PopulateLayouts` registers is a permutation of the indices of its dimensions. -/
theorem populateLayouts_perm {entries : List (List Int × List Int)}
    {layouts : List (List Int × List Nat)} (h : populateLayouts entries = .ok layouts) :
    ∀ entry ∈ layouts, entry.2.Perm (List.range entry.1.length) := by
  refine @foldlM_invariant_of_ok _ _ _ _
    (fun layouts => ∀ entry ∈ layouts, entry.2.Perm (List.range entry.1.length)) entries
    (fun registered entry registered' _ hinv hstep => ?_) [] layouts (fun _ h => by simp at h) h
  obtain ⟨layout, hlayout, hstep⟩ := bind_eq_ok hstep
  obtain ⟨hperm, rfl⟩ := parseLayout_eq_ok_iff.mp hlayout
  cases hstep
  intro e he
  unfold emplace at he
  split at he
  · exact hinv e he
  · rcases List.mem_append.mp he with hold | hnew
    · exact hinv e hold
    · obtain rfl := List.mem_singleton.mp hnew
      simpa [Function.comp_def] using hperm.map Int.toNat

theorem mem_of_lookup_eq_some {κ ν : Type} [BEq κ] [LawfulBEq κ] {entries : List (κ × ν)} {key : κ}
    {value : ν} (h : entries.lookup key = some value) : (key, value) ∈ entries := by
  obtain ⟨l₁, l₂, rfl, -⟩ := List.lookup_eq_some_iff.mp h
  simp

theorem setDynamicDimensions_eq (shape : ArrayShape) {dynamicDimensions : List Bool}
    (h : dynamicDimensions = [] ∨ dynamicDimensions.length = shape.dimensions.length) :
    setDynamicDimensions shape dynamicDimensions =
      .ok { shape with dynamicDimensions :=
        if dynamicDimensions = [] then shape.dynamicDimensions else dynamicDimensions } := by
  rcases h with rfl | hlength
  · rfl
  · by_cases hnil : dynamicDimensions = []
    · subst hnil; rfl
    · simp [setDynamicDimensions, hnil, hlength, xlaCheck]

/-- What a shape of `MakeArrayShapeFromDimensions` is: of the given type and dimensions, with a
layout that permutes the dimension indices, and the given dynamic dimensions. -/
def LaidOut (type : PrimitiveType) (dimensions : List Nat) (dynamicDimensions : List Bool)
    (shape : ArrayShape) : Prop :=
  shape.elementType = type ∧ shape.dimensions = dimensions ∧
    shape.minorToMajor.Perm (List.range dimensions.length) ∧
    shape.dynamicDimensions =
      if dynamicDimensions = [] then List.replicate dimensions.length false else dynamicDimensions

section Shapes

variable {type : PrimitiveType} {dimensions : List Nat} {dynamicDimensions : List Bool}

theorem laidOut_of_layout {layout : List Nat} (hperm : layout.Perm (List.range dimensions.length))
    (hdynamic : dynamicDimensions = [] ∨ dynamicDimensions.length = dimensions.length) :
    ∃ shape, makeShapeWithLayout type dimensions dynamicDimensions layout = .ok shape ∧
      shape.minorToMajor = layout ∧ LaidOut type dimensions dynamicDimensions shape := by
  simp only [makeShapeWithLayout, ShapeUtil.makeShapeWithLayout, hperm, if_true, ok_bind,
    setDynamicDimensions_eq ⟨type, dimensions, layout, _⟩ hdynamic]
  exact ⟨_, rfl, rfl, rfl, rfl, hperm, by split <;> rfl⟩

theorem laidOut_descending
    (hdynamic : dynamicDimensions = [] ∨ dynamicDimensions.length = dimensions.length) :
    ∃ shape, setDynamicDimensions (ShapeUtil.makeShapeWithDescendingLayout type dimensions)
        dynamicDimensions = .ok shape ∧
      shape.minorToMajor = (List.range dimensions.length).reverse ∧
      LaidOut type dimensions dynamicDimensions shape := by
  rw [setDynamicDimensions_eq _ hdynamic]
  exact ⟨_, rfl, rfl, rfl, rfl, List.reverse_perm _, by split <;> rfl⟩

/-- The sorted layout permutes the indices, with the dimension sizes non-increasing along it. -/
theorem makeShapeWithSortedLayout_eq :
    ∃ shape, makeShapeWithSortedLayout dimensions type = .ok shape ∧
      shape.minorToMajor.Perm (List.range dimensions.length) ∧
      shape.minorToMajor.Pairwise (fun a b => dimensions.getD b 0 ≤ dimensions.getD a 0) ∧
      shape.dimensions = dimensions ∧ shape.elementType = type ∧
      shape.dynamicDimensions = List.replicate dimensions.length false := by
  have hperm := ((List.range dimensions.length).reverse.mergeSort_perm fun a b =>
    decide (dimensions.getD b 0 ≤ dimensions.getD a 0)).trans (List.reverse_perm _)
  have hsorted := @List.sorted_mergeSort _ (fun a b =>
    decide (dimensions.getD b 0 ≤ dimensions.getD a 0))
    (fun a b c hab hbc => by simp only [decide_eq_true_eq] at *; omega)
    (fun a b => by simp only [Bool.or_eq_true, decide_eq_true_eq]; omega)
    (List.range dimensions.length).reverse
  simp only [makeShapeWithSortedLayout, ShapeUtil.makeShapeWithLayout, hperm, if_true]
  exact ⟨_, rfl, hperm, by simpa using hsorted, rfl, rfl, rfl⟩

end Shapes

/-- The TPU shape of dimensions without a registered layout: the descending layout, or the
sorted one. -/
theorem makeTpuShape_laidOut {type : PrimitiveType} {dimensions : List Nat}
    {dynamicDimensions : List Bool}
    (hdynamic : dynamicDimensions = [] ∨ dynamicDimensions.length = dimensions.length)
    (maxPaddingFactor : Float) :
    ∃ shape, makeTpuShape dimensions dynamicDimensions type maxPaddingFactor = .ok shape ∧
      LaidOut type dimensions dynamicDimensions shape ∧
      (shape.minorToMajor = (List.range dimensions.length).reverse ∨
        shape.minorToMajor.Pairwise fun a b => dimensions.getD b 0 ≤ dimensions.getD a 0) := by
  unfold makeTpuShape
  split
  · obtain ⟨shape, hshape, hlayout, hlaid⟩ := @laidOut_descending type _ _ hdynamic
    exact ⟨shape, hshape, hlaid, .inl hlayout⟩
  · obtain ⟨sorted, hsorted, hperm, hpairwise, hdims, htype, hfalse⟩ :=
      @makeShapeWithSortedLayout_eq type dimensions
    rw [hsorted, ok_bind]
    dsimp only
    rw [setDynamicDimensions_eq _ (hdims ▸ hdynamic)]
    exact ⟨_, rfl, ⟨htype, hdims, hperm, by split <;> simp_all⟩, .inr hpairwise⟩

/-- `MakeArrayShapeFromDimensions` gives every dimension list, every dynamic-dimension list that
is empty or of the same length and every device type a shape with exactly those dimensions and a
layout that permutes their indices, over every registry `PopulateLayouts` builds: a registered
layout is one because `ParseLayout` accepts exactly the permutations. Without a registered layout
a TPU shape of rank above one has the descending layout or one along which the dimension sizes do
not increase. -/
theorem makeArrayShapeFromDimensions_permutes {entries : List (List Int × List Int)}
    {layouts : List (List Int × List Nat)} (hlayouts : populateLayouts entries = .ok layouts)
    (dimensions : List Nat) (dynamicDimensions : List Bool)
    (hdynamic : dynamicDimensions = [] ∨ dynamicDimensions.length = dimensions.length)
    (type : PrimitiveType) (deviceType : DeviceType) (maxPaddingFactor : Float) :
    (∀ (ints : List Int) (rank : Nat), (∃ layout, parseLayout ints rank = .ok layout) ↔
      ints.Perm ((List.range rank).map Int.ofNat)) ∧
    ∃ shape, makeArrayShapeFromDimensions layouts dimensions dynamicDimensions type deviceType
        maxPaddingFactor = .ok shape ∧ LaidOut type dimensions dynamicDimensions shape ∧
      (getLayout layouts dimensions = none → 1 < dimensions.length → deviceType = .TPU →
        shape.minorToMajor = (List.range dimensions.length).reverse ∨
          shape.minorToMajor.Pairwise fun a b => dimensions.getD b 0 ≤ dimensions.getD a 0) := by
  refine ⟨fun ints rank => ⟨fun ⟨_, h⟩ => (parseLayout_eq_ok_iff.mp h).1,
    fun h => ⟨_, parseLayout_eq_ok_iff.mpr ⟨h, rfl⟩⟩⟩, ?_⟩
  unfold makeArrayShapeFromDimensions
  cases hget : getLayout layouts dimensions with
  | some layout =>
      have hperm := populateLayouts_perm hlayouts _ (mem_of_lookup_eq_some hget)
      rw [List.length_map] at hperm
      obtain ⟨shape, hshape, -, hlaid⟩ := @laidOut_of_layout type _ _ _ hperm hdynamic
      exact ⟨shape, hshape, hlaid, fun h => by cases h⟩
  | none =>
      dsimp only
      split
      · obtain ⟨shape, hshape, hlaid, hlayout⟩ := @makeTpuShape_laidOut type _ _ hdynamic
          maxPaddingFactor
        exact ⟨shape, hshape, hlaid, fun _ _ _ => hlayout⟩
      · next hnot =>
          obtain ⟨shape, hshape, -, hlaid⟩ := @laidOut_descending type _ _ hdynamic
          exact ⟨shape, hshape, hlaid, fun _ hrank htpu => absurd ⟨hrank, htpu⟩ hnot⟩

theorem makeArrayShapeFromDimensions_permutes_registered :
    populateLayouts [([2, 3], [0, 1])] = .ok [([2, 3], [0, 1])] ∧
      ∃ shape, makeArrayShapeFromDimensions [([2, 3], [0, 1])] [2, 3] [] .F32 .TPU 1.25 =
        .ok shape ∧ LaidOut .F32 [2, 3] [] shape := by
  have hlayouts : populateLayouts [([2, 3], [0, 1])] = .ok [([2, 3], [0, 1])] := by decide
  obtain ⟨-, shape, hshape, hlaid, -⟩ :=
    makeArrayShapeFromDimensions_permutes hlayouts [2, 3] [] (.inl rfl) .F32 .TPU 1.25
  exact ⟨hlayouts, shape, hshape, hlaid⟩

/-- A registered layout wins over the TPU choice. -/
example : makeArrayShapeFromDimensions [([2, 3], [0, 1])] [2, 3] [] .F32 .TPU 1.25 =
    .ok ⟨.F32, [2, 3], [0, 1], [false, false]⟩ := by decide

end XrtClient
