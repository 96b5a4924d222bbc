import XrtClient.Strides

/-! # Tensors to and from literals

`PopulateTensorBuffer` fills the buffer of a device shape from a host tensor: `TensorToBuffer`
lays the tensor out as Swift does (`MakeSwiftTensorLayout`, the descending layout) and copies
it into the shape's layout with `CopyTensors`, converting each element to the shape's element
type. `GetTensorLiteral`, and each converter closure of `TransferToServerInternal`, populate a
buffer of the shape's `ByteSizeOf` bytes this way, and `CreateComputationShapeFromTensor` gives
an uploaded tensor its device shape. `MakeTensorFromXlaLiteral` copies a literal back into a
host tensor of the descending layout.

The template dispatches of these functions choose the C++ element types of a copy, and with
them its conversion and `sizeof(DType)`. The model keeps every element in one type `E` and takes
the conversion from the C++ type of one XLA element type to that of another as `cast`: the
`static_cast` of `Caster`, through `float` from a half type. A host type is read as the C++
type of the XLA type `TensorTypeToRawXlaType` gives it. The copy's threads write concurrently;
`interleave` is the order in which their writes reach the buffer, any permutation of them.
An error that streams a shape or a type after its text keeps the text only.
-/

namespace XrtClient

/-! ## Element types -/

/-- x10's `at::ScalarType` (not under src/), with the ten types the switches of
`tensor_util.cpp` handle. -/
inductive ScalarType where
  | Bool | Byte | Char | Short | Int | Long | Half | BFloat16 | Float | Double
  deriving DecidableEq, Repr

/-- The element-type switches of the environment, each read once: `XLA_USE_BF16`,
`XLA_USE_FP16` and `XLA_USE_32BIT_LONG`. -/
structure TypeFlags where
  useBF16 : Bool
  useF16 : Bool
  use32BitLong : Bool
  deriving DecidableEq, Repr

/-- The two complex types, which no copy of `tensor_util.cpp` handles. -/
def PrimitiveType.isComplex : PrimitiveType → Bool
  | .C64 | .C128 => true
  | _ => false

/-- `XlaTypeFromTensorType`: the element type of a host tensor laid out for `TensorToBuffer`. -/
def xlaTypeFromTensorType (scalarType : ScalarType) (deviceType : DeviceType) : PrimitiveType :=
  match scalarType with
  | .Double => if deviceType ≠ .TPU then .F64 else .F32
  | .Float => .F32
  | .BFloat16 => .BF16
  | .Half => .F16
  | .Bool => .PRED
  | .Byte => .U8
  | .Char => .S8
  | .Short => .S16
  | .Int => .S32
  | .Long => .S64

/-- `TensorTypeToRawXlaType`. -/
def tensorTypeToRawXlaType : ScalarType → PrimitiveType
  | .Double => .F64
  | .Float => .F32
  | .BFloat16 => .BF16
  | .Half => .F16
  | .Bool => .PRED
  | .Byte => .U8
  | .Char => .S8
  | .Short => .S16
  | .Int => .S32
  | .Long => .S64

/-- `TensorTypeFromXlaType`. -/
def tensorTypeFromXlaType (flags : TypeFlags) : PrimitiveType → Except Fault ScalarType
  | .BF16 => .ok (if flags.useBF16 then .Float else .BFloat16)
  | .F16 => .ok (if flags.useF16 then .Float else .Half)
  | .F32 => .ok .Float
  | .F64 => .ok .Double
  | .PRED => .ok .Bool
  | .U8 => .ok .Byte
  | .S8 => .ok .Char
  | .S16 | .U16 => .ok .Short
  | .S32 | .U32 => .ok .Int
  | .S64 | .U64 => .ok .Long
  | .C64 | .C128 => .error (.checkFailed "XLA type not supported: ")

/-- `GetDevicePrimitiveType`: the type a device holds elements of `type` in. -/
def getDevicePrimitiveType (flags : TypeFlags) (type : PrimitiveType) (deviceType : DeviceType) :
    PrimitiveType :=
  match type with
  | .F64 =>
      if flags.useF16 then .F16
      else if flags.useBF16 then .BF16
      else if deviceType ≠ .TPU then .F64 else .F32
  | .F32 => if flags.useF16 then .F16 else if flags.useBF16 then .BF16 else .F32
  | .U16 => if deviceType ≠ .TPU then .U16 else .U32
  | .S16 => if deviceType ≠ .TPU then .S16 else .S32
  | .S64 => if flags.use32BitLong then .S32 else .S64
  | .U64 => if flags.use32BitLong then .U32 else .U64
  | .C128 => if deviceType ≠ .TPU then .C128 else .C64
  | type => type

/-- `MakeXlaPrimitiveType`. -/
def makeXlaPrimitiveType (flags : TypeFlags) (scalarType : ScalarType) (deviceType : DeviceType) :
    PrimitiveType :=
  match scalarType with
  | .Double => getDevicePrimitiveType flags .F64 deviceType
  | .Float => getDevicePrimitiveType flags .F32 deviceType
  | .BFloat16 => getDevicePrimitiveType flags .BF16 deviceType
  | .Half => getDevicePrimitiveType flags .F16 deviceType
  | .Bool => getDevicePrimitiveType flags .PRED deviceType
  | .Byte => getDevicePrimitiveType flags .U8 deviceType
  | .Char => getDevicePrimitiveType flags .S8 deviceType
  | .Short => getDevicePrimitiveType flags .S16 deviceType
  | .Int => getDevicePrimitiveType flags .S32 deviceType
  | .Long => getDevicePrimitiveType flags .S64 deviceType

/-! ## Tensors and literals -/

variable {E : Type}

/-- x10's host `at::Tensor` (not under src/): its element type, its dimensions and its elements
in the descending layout, as many as the dimensions hold. -/
structure Tensor (E : Type) where
  scalarType : ScalarType
  shape : List Nat
  data : List E
  length_data : data.length = shape.prod

/-- An `xla::Literal` of an array shape: its elements at the offsets of the shape's layout. -/
structure Literal (E : Type) where
  shape : ArrayShape
  data : List E
  length_data : data.length = elementsIn shape

variable [Inhabited E]

/-- The element at an offset of the tensor's buffer. -/
def Tensor.read (tensor : Tensor E) (offset : Nat) : E :=
  tensor.data.getD offset default

/-- The element at an offset of the literal's buffer. -/
def Literal.read (literal : Literal E) (offset : Nat) : E :=
  literal.data.getD offset default

/-- A tensor wrapping a buffer of as many elements as its dimensions hold. -/
def Tensor.ofBuffer (scalarType : ScalarType) (shape : List Nat) (buffer : Nat → E) : Tensor E :=
  ⟨scalarType, shape, (List.range shape.prod).map buffer, by simp⟩

/-- A literal of `shape` over a buffer. -/
def Literal.ofBuffer (shape : ArrayShape) (buffer : Nat → E) : Literal E :=
  ⟨shape, (List.range (elementsIn shape)).map buffer, by simp⟩

/-! ## Host tensors into device buffers -/

/-- `TensorToBuffer<SType, DType>`, with `sizeof(DType) = elementSize`: `CopyTensors` from the
tensor in the descending layout of its dimensions into `destShape`. -/
def tensorToBuffer (cast : E → E) (elementSize hardwareConcurrency : Nat) (tensor : Tensor E)
    (destShape : ArrayShape) (destBufferSize : Nat) (deviceType : DeviceType) :
    Except Fault (Option (List (List (Nat × E)))) := do
  let srcShape ← makeSwiftTensorLayout tensor.shape []
    (xlaTypeFromTensorType tensor.scalarType deviceType)
  copyTensors cast hardwareConcurrency elementSize tensor.read srcShape destBufferSize destShape

/-- `TensorToBufferSType<SType>`: its switch on the destination element type picks `DType`, the
C++ type of that XLA type, for every type but the complex ones. -/
def tensorToBufferSType (cast : PrimitiveType → PrimitiveType → E → E) (hardwareConcurrency : Nat)
    (tensor : Tensor E) (destShape : ArrayShape) (destBufferSize : Nat) (deviceType : DeviceType) :
    Except Fault (Option (List (List (Nat × E)))) :=
  match destShape.elementType with
  | .C64 | .C128 => .error (.checkFailed "Destination shape type not supported: ")
  | destType =>
      tensorToBuffer (cast (tensorTypeToRawXlaType tensor.scalarType) destType) destType.byteSize
        hardwareConcurrency tensor destShape destBufferSize deviceType

/-- `PopulateTensorBuffer`: its switch on the tensor's type picks `SType`, and each of the ten
types has a case. -/
def populateTensorBuffer (cast : PrimitiveType → PrimitiveType → E → E) (hardwareConcurrency : Nat)
    (tensor : Tensor E) (destShape : ArrayShape) (destBufferSize : Nat) (deviceType : DeviceType) :
    Except Fault (Option (List (List (Nat × E)))) :=
  tensorToBufferSType cast hardwareConcurrency tensor destShape destBufferSize deviceType

/-- `GetTensorLiteral`: a literal of `shape`, or of the tensor's Swift layout when no shape is
given, whose `size_bytes()` bytes `PopulateTensorBuffer` fills. The literal's elements start as
`default`; `none` when the copy does not end. -/
def getTensorLiteral (cast : PrimitiveType → PrimitiveType → E → E) (hardwareConcurrency : Nat)
    (interleave : List (List (Nat × E)) → List (Nat × E)) (tensor : Tensor E)
    (shape : Option ArrayShape) (deviceType : DeviceType) : Except Fault (Option (Literal E)) := do
  let shape ← match shape with
    | some shape => pure shape
    | none => makeSwiftTensorLayout tensor.shape [] (xlaTypeFromTensorType tensor.scalarType deviceType)
  let threads ← populateTensorBuffer cast hardwareConcurrency tensor shape
    (elementsIn shape * shape.elementType.byteSize) deviceType
  pure (threads.map fun threads => Literal.ofBuffer shape (applyWrites (fun _ => default)
    (interleave threads)))

/-- `CreateComputationShapeFromTensor`: the tensor's dimensions in the device's layout, of the
type the device holds the tensor's elements in. -/
def createComputationShapeFromTensor (layouts : List (List Int × List Nat)) (flags : TypeFlags)
    (maxPaddingFactor : Float) (tensor : Tensor E) (deviceType : DeviceType) :
    Except Fault ArrayShape :=
  makeArrayShapeFromDimensions layouts tensor.shape [] (makeXlaPrimitiveType flags tensor.scalarType deviceType)
    deviceType maxPaddingFactor

/-! ## Literals into host tensors -/

/-- `XlaLiteralToTensor<SType, DType>`, with `sizeof(DType) = elementSize`: `CopyTensors` from the
literal into a buffer of `ElementsIn` elements in the descending layout of the literal's
dimensions, wrapped as a tensor of those dimensions. -/
def xlaLiteralToTensor (cast : E → E) (elementSize hardwareConcurrency : Nat)
    (interleave : List (List (Nat × E)) → List (Nat × E)) (literal : Literal E)
    (destElementType : ScalarType) : Except Fault (Option (Tensor E)) := do
  let swiftShape ← makeSwiftTensorLayout literal.shape.dimensions [] literal.shape.elementType
  let totalElements := elementsIn swiftShape
  let threads ← copyTensors cast hardwareConcurrency elementSize literal.read literal.shape
    (totalElements * elementSize) swiftShape
  pure (threads.map fun threads => Tensor.ofBuffer destElementType literal.shape.dimensions
    (applyWrites (fun _ => default) (interleave threads)))

/-- `XlaLiteralToTensorHelper<SType>`: its switch on the destination type picks `DType`, the C++
type of the XLA type `TensorTypeToRawXlaType` gives it, and each of the ten types has a case. -/
def xlaLiteralToTensorHelper (cast : PrimitiveType → PrimitiveType → E → E) (sourceType : PrimitiveType)
    (hardwareConcurrency : Nat) (interleave : List (List (Nat × E)) → List (Nat × E))
    (literal : Literal E) (destElementType : ScalarType) : Except Fault (Option (Tensor E)) :=
  xlaLiteralToTensor (cast sourceType (tensorTypeToRawXlaType destElementType))
    (tensorTypeToRawXlaType destElementType).byteSize hardwareConcurrency interleave literal
    destElementType

/-- `MakeTensorFromXlaLiteral`: its switch on the literal's element type picks `SType`, the C++
type of that XLA type, for every type but the complex ones. -/
def makeTensorFromXlaLiteral (cast : PrimitiveType → PrimitiveType → E → E) (hardwareConcurrency : Nat)
    (interleave : List (List (Nat × E)) → List (Nat × E)) (literal : Literal E)
    (destElementType : ScalarType) : Except Fault (Option (Tensor E)) :=
  match literal.shape.elementType with
  | .C64 | .C128 => .error (.checkFailed "Unsupported literal type: ")
  | sourceType =>
      xlaLiteralToTensorHelper cast sourceType hardwareConcurrency interleave literal destElementType

/-! ## The spec lemmas -/

theorem makeXlaPrimitiveType_not_complex (flags : TypeFlags) (scalarType : ScalarType)
    (deviceType : DeviceType) : (makeXlaPrimitiveType flags scalarType deviceType).isComplex = false := by
  cases scalarType <;> simp only [makeXlaPrimitiveType, getDevicePrimitiveType] <;> (try split_ifs) <;> rfl

@[simp] theorem makeSwiftTensorLayout_nil (dimensions : List Nat) (type : PrimitiveType) :
    makeSwiftTensorLayout dimensions [] type =
      .ok (ShapeUtil.makeShapeWithDescendingLayout type dimensions) :=
  rfl

theorem Tensor.getElem?_eq_read (tensor : Tensor E) {offset : Nat} (h : offset < tensor.shape.prod) :
    tensor.data[offset]? = some (tensor.read offset) := by
  rw [Tensor.read, List.getD_eq_getElem?_getD, List.getElem?_eq_getElem (tensor.length_data ▸ h)]
  rfl

theorem Literal.getElem?_eq_read (literal : Literal E) {offset : Nat} (h : offset < elementsIn literal.shape) :
    literal.data[offset]? = some (literal.read offset) := by
  rw [Literal.read, List.getD_eq_getElem?_getD, List.getElem?_eq_getElem (literal.length_data ▸ h)]
  rfl

theorem Literal.read_ofBuffer (shape : ArrayShape) (buffer : Nat → E) {offset : Nat}
    (h : offset < elementsIn shape) : (Literal.ofBuffer shape buffer).read offset = buffer offset := by
  simp [Literal.read, Literal.ofBuffer, h]

theorem Tensor.read_ofBuffer (scalarType : ScalarType) (shape : List Nat) (buffer : Nat → E)
    {offset : Nat} (h : offset < shape.prod) :
    (Tensor.ofBuffer scalarType shape buffer).read offset = buffer offset := by
  simp [Tensor.read, Tensor.ofBuffer, h]

/-- After a copy's writes, in any order, the destination holds at the destination offset of each
index of the box the converted source element at the index's source offset. -/
theorem applyWrites_copySpec {S D : Type} {cast : S → D} {src : Nat → S}
    {srcShape destShape : ArrayShape}
    (hdest : destShape.minorToMajor.Perm (List.range destShape.dimensions.length))
    {writes : List (Nat × D)} (hwrites : writes.Perm (copySpec cast src srcShape destShape))
    (dest : Nat → D) {idx : List Nat} (hidx : idx ∈ boxIndices destShape.dimensions) :
    applyWrites dest writes (getFlatTensorOffset (computeShapeStrides destShape) idx) =
      cast (src (getFlatTensorOffset (computeShapeStrides srcShape) idx)) := by
  have hoffsets : ((copySpec cast src srcShape destShape).map Prod.fst).Nodup := by
    rw [copySpec, List.map_map]
    exact (map_getFlatTensorOffset_perm hdest).nodup_iff.mpr (List.nodup_range _)
  exact applyWrites_of_mem ((hwrites.map Prod.fst).nodup_iff.mpr hoffsets)
    (hwrites.symm.subset (List.mem_map_of_mem _ hidx))

theorem computeShapeStrides_descendingLayout (type : PrimitiveType) (dimensions : List Nat) :
    computeShapeStrides (ShapeUtil.makeShapeWithDescendingLayout type dimensions) =
      rowMajorStrides dimensions :=
  computeShapeStrides_descending _ _ _

theorem descendingLayout_perm (type : PrimitiveType) (dimensions : List Nat) :
    (ShapeUtil.makeShapeWithDescendingLayout type dimensions).minorToMajor.Perm
      (List.range (ShapeUtil.makeShapeWithDescendingLayout type dimensions).dimensions.length) :=
  List.reverse_perm _

theorem rowMajor_offset_lt {dimensions idx : List Nat} (hidx : idx ∈ boxIndices dimensions) :
    getFlatTensorOffset (rowMajorStrides dimensions) idx < dimensions.prod := by
  have h := getFlatTensorOffset_lt (descendingLayout_perm .PRED dimensions) hidx
  rwa [computeShapeStrides_descendingLayout] at h

/-- The row-major offsets of the box are all the offsets below its size. -/
theorem exists_rowMajor_offset {dimensions : List Nat} {offset : Nat} (h : offset < dimensions.prod) :
    ∃ idx ∈ boxIndices dimensions, getFlatTensorOffset (rowMajorStrides dimensions) idx = offset := by
  have hperm := map_getFlatTensorOffset_perm (descendingLayout_perm .PRED dimensions)
  obtain ⟨idx, hidx, heq⟩ := List.mem_map.mp (hperm.symm.subset (List.mem_range.mpr h))
  exact ⟨idx, hidx, computeShapeStrides_descendingLayout .PRED dimensions ▸ heq⟩

omit [Inhabited E] in
/-- Two lists of the size of a box that agree, up to `f`, at the row-major offset of every index
of the box are equal, up to `f`. -/
theorem eq_map_of_rowMajor {dimensions : List Nat} {xs ys : List E} (f : E → E)
    (hxs : xs.length = dimensions.prod) (hys : ys.length = dimensions.prod)
    (h : ∀ idx ∈ boxIndices dimensions, xs[getFlatTensorOffset (rowMajorStrides dimensions) idx]? =
      (ys[getFlatTensorOffset (rowMajorStrides dimensions) idx]?).map f) : xs = ys.map f := by
  refine List.ext_getElem? fun n => ?_
  rw [List.getElem?_map]
  by_cases hn : n < dimensions.prod
  · obtain ⟨idx, hidx, rfl⟩ := exists_rowMajor_offset hn
    exact h idx hidx
  · rw [List.getElem?_eq_none (by omega), List.getElem?_eq_none (by omega)]
    rfl

section Copies

variable (cast : PrimitiveType → PrimitiveType → E → E) (hardwareConcurrency : Nat)
  (interleave : List (List (Nat × E)) → List (Nat × E))

theorem tensorToBufferSType_eq (tensor : Tensor E) {destShape : ArrayShape}
    (htype : destShape.elementType.isComplex = false) (destBufferSize : Nat) (deviceType : DeviceType) :
    tensorToBufferSType cast hardwareConcurrency tensor destShape destBufferSize deviceType =
      tensorToBuffer (cast (tensorTypeToRawXlaType tensor.scalarType) destShape.elementType)
        destShape.elementType.byteSize hardwareConcurrency tensor destShape destBufferSize deviceType := by
  unfold tensorToBufferSType
  cases hty : destShape.elementType <;> simp_all [PrimitiveType.isComplex]

theorem makeTensorFromXlaLiteral_eq (literal : Literal E) (htype : literal.shape.elementType.isComplex = false)
    (destElementType : ScalarType) :
    makeTensorFromXlaLiteral cast hardwareConcurrency interleave literal destElementType =
      xlaLiteralToTensor (cast literal.shape.elementType (tensorTypeToRawXlaType destElementType))
        (tensorTypeToRawXlaType destElementType).byteSize hardwareConcurrency interleave literal
        destElementType := by
  unfold makeTensorFromXlaLiteral
  cases hty : literal.shape.elementType <;> simp_all [PrimitiveType.isComplex, xlaLiteralToTensorHelper]

/-- `GetTensorLiteral` into a shape of the tensor's dimensions, of a layout that permutes them and
not of a complex type, ends with a literal of that shape which holds, at the shape's offset of
each index of the box, the tensor's element at its row-major offset, converted to the shape's
type. -/
theorem getTensorLiteral_spec (hinterleave : ∀ threads, (interleave threads).Perm threads.flatten)
    (tensor : Tensor E) {shape : ArrayShape} (hdims : shape.dimensions = tensor.shape)
    (hlayout : shape.minorToMajor.Perm (List.range shape.dimensions.length))
    (htype : shape.elementType.isComplex = false) (deviceType : DeviceType) :
    ∃ literal, getTensorLiteral cast hardwareConcurrency interleave tensor (some shape) deviceType =
        .ok (some literal) ∧ literal.shape = shape ∧
      ∀ idx ∈ boxIndices tensor.shape,
        literal.read (getFlatTensorOffset (computeShapeStrides shape) idx) =
          cast (tensorTypeToRawXlaType tensor.scalarType) shape.elementType
            (tensor.read (getFlatTensorOffset (rowMajorStrides tensor.shape) idx)) := by
  let srcShape := ShapeUtil.makeShapeWithDescendingLayout
    (xlaTypeFromTensorType tensor.scalarType deviceType) tensor.shape
  have hsize : elementsIn shape = elementsIn srcShape := by rw [elementsIn, hdims]; rfl
  obtain ⟨threads, hrun, hperm⟩ := @copyTensors_perm_copySpec E E
    (cast (tensorTypeToRawXlaType tensor.scalarType) shape.elementType) hardwareConcurrency
    shape.elementType.byteSize tensor.read srcShape shape hdims.symm (List.reverse_perm _) hlayout
  refine ⟨Literal.ofBuffer shape (applyWrites (fun _ => default) (interleave threads)), ?_, rfl,
    fun idx hidx => ?_⟩
  · simp only [getTensorLiteral, pure_bind, populateTensorBuffer, tensorToBufferSType_eq cast _ tensor htype,
      tensorToBuffer, makeSwiftTensorLayout_nil, ok_bind, hsize, hrun]
    rfl
  · rw [Literal.read_ofBuffer _ _ (getFlatTensorOffset_lt hlayout (hdims ▸ hidx)),
      applyWrites_copySpec hlayout ((hinterleave threads).trans hperm) _ (hdims ▸ hidx),
      computeShapeStrides_descendingLayout]

/-- `MakeTensorFromXlaLiteral` from a literal of a layout that permutes its dimensions and not of a
complex type ends with a tensor of the literal's dimensions and the type asked for, which holds at
the row-major offset of each index of the box the literal's element at the literal's offset of
the index, converted. -/
theorem makeTensorFromXlaLiteral_spec (hinterleave : ∀ threads, (interleave threads).Perm threads.flatten)
    (literal : Literal E)
    (hlayout : literal.shape.minorToMajor.Perm (List.range literal.shape.dimensions.length))
    (htype : literal.shape.elementType.isComplex = false) (destElementType : ScalarType) :
    ∃ tensor, makeTensorFromXlaLiteral cast hardwareConcurrency interleave literal destElementType =
        .ok (some tensor) ∧ tensor.scalarType = destElementType ∧
      tensor.shape = literal.shape.dimensions ∧
      ∀ idx ∈ boxIndices literal.shape.dimensions,
        tensor.read (getFlatTensorOffset (rowMajorStrides literal.shape.dimensions) idx) =
          cast literal.shape.elementType (tensorTypeToRawXlaType destElementType)
            (literal.read (getFlatTensorOffset (computeShapeStrides literal.shape) idx)) := by
  let swiftShape := ShapeUtil.makeShapeWithDescendingLayout literal.shape.elementType
    literal.shape.dimensions
  obtain ⟨threads, hrun, hperm⟩ := @copyTensors_perm_copySpec E E
    (cast literal.shape.elementType (tensorTypeToRawXlaType destElementType)) hardwareConcurrency
    (tensorTypeToRawXlaType destElementType).byteSize literal.read literal.shape swiftShape rfl hlayout
    (List.reverse_perm _)
  refine ⟨Tensor.ofBuffer destElementType literal.shape.dimensions
    (applyWrites (fun _ => default) (interleave threads)), ?_, rfl, rfl, fun idx hidx => ?_⟩
  · rw [makeTensorFromXlaLiteral_eq cast _ _ literal htype]
    simp only [xlaLiteralToTensor, makeSwiftTensorLayout_nil, ok_bind]
    exact congrArg (fun r => r >>= _) hrun
  · rw [Tensor.read_ofBuffer destElementType literal.shape.dimensions _ (rowMajor_offset_lt hidx),
      ← computeShapeStrides_descendingLayout literal.shape.elementType,
      applyWrites_copySpec (List.reverse_perm _) ((hinterleave threads).trans hperm) _ hidx]

end Copies

omit [Inhabited E] in
/-- `CreateComputationShapeFromTensor` gives every tensor, over every registry `PopulateLayouts`
builds, a shape of its dimensions and of the type the device holds its elements in, with a layout
that permutes the dimensions. -/
theorem createComputationShapeFromTensor_laidOut {entries : List (List Int × List Int)}
    {layouts : List (List Int × List Nat)} (hlayouts : populateLayouts entries = .ok layouts)
    (flags : TypeFlags) (maxPaddingFactor : Float) (tensor : Tensor E) (deviceType : DeviceType) :
    ∃ shape, createComputationShapeFromTensor layouts flags maxPaddingFactor tensor deviceType = .ok shape ∧
      LaidOut (makeXlaPrimitiveType flags tensor.scalarType deviceType) tensor.shape [] shape := by
  unfold createComputationShapeFromTensor makeArrayShapeFromDimensions
  cases hget : getLayout layouts tensor.shape with
  | some layout =>
      have hperm := populateLayouts_perm hlayouts _ (mem_of_lookup_eq_some hget)
      rw [List.length_map] at hperm
      obtain ⟨shape, hshape, -, hlaid⟩ := laidOut_of_layout hperm (.inl rfl)
      exact ⟨shape, hshape, hlaid⟩
  | none =>
      dsimp only
      split
      · obtain ⟨shape, hshape, hlaid, -⟩ := makeTpuShape_laidOut (.inl rfl) maxPaddingFactor
        exact ⟨shape, hshape, hlaid⟩
      · obtain ⟨shape, hshape, -, hlaid⟩ := laidOut_descending (.inl rfl)
        exact ⟨shape, hshape, hlaid⟩

/-- A tensor uploaded into the shape `CreateComputationShapeFromTensor` gives it and read back
with `MakeTensorFromXlaLiteral` comes back with its dimensions, the type asked for and every
element in its place, converted to the device's type and back: over every registry of layouts,
every device, every element type and every order in which the copies' threads write. The literal
in between holds each element of the box at the device layout's offset of its index. -/
theorem makeTensorFromXlaLiteral_getTensorLiteral {entries : List (List Int × List Int)}
    {layouts : List (List Int × List Nat)} (hlayouts : populateLayouts entries = .ok layouts)
    (flags : TypeFlags) (maxPaddingFactor : Float) (cast : PrimitiveType → PrimitiveType → E → E)
    (hardwareConcurrency : Nat) (interleave interleave' : List (List (Nat × E)) → List (Nat × E))
    (hinterleave : ∀ threads, (interleave threads).Perm threads.flatten)
    (hinterleave' : ∀ threads, (interleave' threads).Perm threads.flatten)
    (tensor : Tensor E) (deviceType : DeviceType) (destElementType : ScalarType) :
    ∃ shape literal result,
      createComputationShapeFromTensor layouts flags maxPaddingFactor tensor deviceType = .ok shape ∧
      LaidOut (makeXlaPrimitiveType flags tensor.scalarType deviceType) tensor.shape [] shape ∧
      getTensorLiteral cast hardwareConcurrency interleave tensor (some shape) deviceType =
        .ok (some literal) ∧ literal.shape = shape ∧
      (∀ idx ∈ boxIndices tensor.shape,
        literal.data[getFlatTensorOffset (computeShapeStrides shape) idx]? =
          (tensor.data[getFlatTensorOffset (rowMajorStrides tensor.shape) idx]?).map
            (cast (tensorTypeToRawXlaType tensor.scalarType) shape.elementType)) ∧
      makeTensorFromXlaLiteral cast hardwareConcurrency interleave' literal destElementType =
        .ok (some result) ∧
      result.scalarType = destElementType ∧ result.shape = tensor.shape ∧
      result.data = tensor.data.map (cast shape.elementType (tensorTypeToRawXlaType destElementType) ∘
        cast (tensorTypeToRawXlaType tensor.scalarType) shape.elementType) := by
  obtain ⟨shape, hshape, hlaid⟩ :=
    createComputationShapeFromTensor_laidOut hlayouts flags maxPaddingFactor tensor deviceType
  have ⟨htype, hdims, hlaidOut, _⟩ := hlaid
  have hlayout : shape.minorToMajor.Perm (List.range shape.dimensions.length) := hdims ▸ hlaidOut
  have hcomplex : shape.elementType.isComplex = false :=
    htype ▸ makeXlaPrimitiveType_not_complex flags tensor.scalarType deviceType
  obtain ⟨literal, hliteral, rfl, hup⟩ := getTensorLiteral_spec cast hardwareConcurrency interleave
    hinterleave tensor hdims hlayout hcomplex deviceType
  obtain ⟨result, hresult, hdest, hshape', hdown⟩ := makeTensorFromXlaLiteral_spec cast
    hardwareConcurrency interleave' hinterleave' literal hlayout hcomplex destElementType
  rw [hdims] at hshape' hdown
  have hlt : ∀ {idx}, idx ∈ boxIndices tensor.shape →
      getFlatTensorOffset (computeShapeStrides literal.shape) idx < elementsIn literal.shape :=
    fun hidx => getFlatTensorOffset_lt hlayout (hdims ▸ hidx)
  refine ⟨literal.shape, literal, result, hshape, hlaid, hliteral, rfl,
    fun idx hidx => ?_, hresult, hdest, hshape', ?_⟩
  · rw [literal.getElem?_eq_read (hlt hidx), tensor.getElem?_eq_read (rowMajor_offset_lt hidx), hup idx hidx]
    rfl
  · refine eq_map_of_rowMajor _ (by rw [result.length_data, hshape']) tensor.length_data
      fun idx hidx => ?_
    have hoffset := rowMajor_offset_lt hidx
    rw [result.getElem?_eq_read (hshape' ▸ hoffset), tensor.getElem?_eq_read hoffset,
      hdown idx hidx, hup idx hidx]
    rfl

/-- A `2 × 3` host tensor of floats. -/
def sixFloats : Tensor Nat := ⟨.Float, [2, 3], [0, 1, 2, 3, 4, 5], rfl⟩

theorem makeTensorFromXlaLiteral_getTensorLiteral_sixFloats :
    populateLayouts [] = .ok [] ∧
      (∀ threads : List (List (Nat × Nat)), (List.flatten threads).Perm threads.flatten) ∧
      ∃ shape literal result,
        createComputationShapeFromTensor [] ⟨false, false, false⟩ 1.25 sixFloats .TPU = .ok shape ∧
        getTensorLiteral (fun _ _ x => x) 1 List.flatten sixFloats (some shape) .TPU =
          .ok (some literal) ∧
        makeTensorFromXlaLiteral (fun _ _ x => x) 1 List.flatten literal .Float = .ok (some result) ∧
        result.data = [0, 1, 2, 3, 4, 5] := by
  obtain ⟨shape, literal, result, hshape, -, hliteral, -, -, hresult, -, -, hdata⟩ :=
    makeTensorFromXlaLiteral_getTensorLiteral (show populateLayouts [] = .ok [] from rfl)
      ⟨false, false, false⟩ 1.25
      (fun _ _ (x : Nat) => x) 1 List.flatten List.flatten (fun _ => List.Perm.refl _)
      (fun _ => List.Perm.refl _) sixFloats .TPU .Float
  exact ⟨rfl, fun _ => List.Perm.refl _, shape, literal, result, hshape, hliteral, hresult, hdata⟩

end XrtClient
