import XrtClient.Basic
import Mathlib.Algebra.Order.Ring.Nat

/-! # Narrowing to the raw element type

A device may store a tensor in a narrower integral type than its logical one (`raw_to`).
`ConvertToRaw` converts to the logical type and then `ConvertData` is meant to bring every
element into the range of the raw type: it ands it with a mask of the raw type's bits, a mask
that `CreateRawMask` sign-extends for signed types. Elements are modelled one at a time, as the
bits of their XLA element type: the ops are elementwise, and the mask is broadcast to the
operand's shape. The XLA ops are modelled from XLA's operation semantics (not under src/): two's
complement bit operations, and shape inference that rejects a binary op whose operands have
different element types.
-/

namespace XrtClient

namespace PrimitiveType

/-- `primitive_util::IsSignedIntegralType`. -/
def isSignedIntegralType : PrimitiveType → Bool
  | .S8 | .S16 | .S32 | .S64 => true
  | _ => false

/-- `primitive_util::IsUnsignedIntegralType`. -/
def isUnsignedIntegralType : PrimitiveType → Bool
  | .U8 | .U16 | .U32 | .U64 => true
  | _ => false

/-- `primitive_util::IsIntegralType`. -/
def isIntegralType (type : PrimitiveType) : Bool :=
  type.isUnsignedIntegralType || type.isSignedIntegralType

/-- The bits of an element of the type. -/
def bitWidth (type : PrimitiveType) : Nat := 8 * type.byteSize

end PrimitiveType

/-- `XlaHelpers::ScalarValue(value, type)` of a `uint64`: the C++ conversion to the element type
of `type`, which keeps the low bits. -/
def scalarValue (type : PrimitiveType) (value : BitVec 64) : BitVec type.bitWidth :=
  BitVec.ofNat type.bitWidth value.toNat

/-- XLA's `ShiftLeft`. -/
def xlaShiftLeft (type : PrimitiveType) (x : BitVec type.bitWidth) (amountType : PrimitiveType)
    (amount : BitVec amountType.bitWidth) : Except Fault (BitVec type.bitWidth) :=
  if type = amountType then .ok (x <<< amount.toNat)
  else .error (.checkFailed "Binary op shift-left with different element types")

/-- `operator>>` on XLA ops: `ShiftRightArithmetic` on a signed element type,
`ShiftRightLogical` otherwise. -/
def xlaShiftRight (type : PrimitiveType) (x : BitVec type.bitWidth) (amountType : PrimitiveType)
    (amount : BitVec amountType.bitWidth) : Except Fault (BitVec type.bitWidth) :=
  if type = amountType then
    .ok (if type.isSignedIntegralType then x.sshiftRight amount.toNat else x >>> amount.toNat)
  else .error (.checkFailed "Binary op shift-right with different element types")

/-- `CreateRawMask`: the low `raw_to_size` bytes set, as a value of `type`; for a signed type the
mask is shifted up by the bytes it lacks and back down arithmetically, with the shift amount an
`int32` constant. -/
def createRawMask (type : PrimitiveType) (toSize rawToSize : Nat) :
    Except Fault (BitVec type.bitWidth) := do
  let maskValue : BitVec 64 := (1#64 <<< (rawToSize * 8)) - 1#64
  let mask := scalarValue type maskValue
  if type.isSignedIntegralType then
    let shift : BitVec PrimitiveType.S32.bitWidth := BitVec.ofNat 32 ((toSize - rawToSize) * 8)
    let shifted ← xlaShiftLeft type mask .S32 shift
    xlaShiftRight type shifted .S32 shift
  else pure mask

/-- `ConvertData` on one element `x` of type `to` (`toType`). -/
def convertData (toType rawTo : PrimitiveType) (x : BitVec toType.bitWidth) :
    Except Fault (BitVec toType.bitWidth) := do
  if !toType.isIntegralType || !rawTo.isIntegralType then return x
  let toSize := toType.byteSize
  let rawToSize := rawTo.byteSize
  xlaCheck (rawToSize ≤ toSize) "to_size >= raw_to_size"
  if toSize = rawToSize then return x
  let mask ← createRawMask toType toSize rawToSize
  pure (x &&& mask)

/-- `ConvertToRaw` on an element `converted` that `ConvertTo` produced in type `to`. -/
def convertToRaw (toType rawTo : PrimitiveType) (converted : BitVec toType.bitWidth) :
    Except Fault (BitVec toType.bitWidth) :=
  if toType = rawTo then .ok converted else convertData toType rawTo converted

/-- A narrowing between integral types ands each element with the raw mask, when the mask
builds. -/
theorem convertData_narrowing {toType rawTo : PrimitiveType}
    (hintegral : toType.isIntegralType = true ∧ rawTo.isIntegralType = true)
    (hsize : rawTo.byteSize < toType.byteSize) (x : BitVec toType.bitWidth) :
    convertData toType rawTo x =
      (createRawMask toType toType.byteSize rawTo.byteSize).map (x &&& ·) := by
  simp only [convertData, hintegral, Bool.not_true, Bool.or_self, Bool.false_eq_true, if_false,
    xlaCheck_of_true _ hsize.le, ok_bind, Nat.ne_of_gt hsize, ite_false]
  cases createRawMask toType toType.byteSize rawTo.byteSize <;> rfl

/-- The pairs of integral types of one signedness whose raw type is narrower. -/
def narrowingPairs : List (PrimitiveType × PrimitiveType) :=
  [(.S16, .S8), (.S32, .S8), (.S32, .S16), (.S64, .S8), (.S64, .S16), (.S64, .S32),
    (.U16, .U8), (.U32, .U8), (.U32, .U16), (.U64, .U8), (.U64, .U16), (.U64, .U32)]

theorem mem_narrowingPairs {toType rawTo : PrimitiveType}
    (hintegral : toType.isIntegralType = true ∧ rawTo.isIntegralType = true)
    (hsign : toType.isSignedIntegralType = rawTo.isSignedIntegralType)
    (hsize : rawTo.byteSize < toType.byteSize) : (toType, rawTo) ∈ narrowingPairs := by
  revert hintegral hsign hsize
  cases toType <;> cases rawTo <;> decide

section Masks

variable {w : Nat} (x : BitVec w)

theorem exists_map_and_mask {k : Nat} {mask : BitVec w} (hmask : mask.toNat = 2 ^ k - 1) :
    ∃ y, Except.map (x &&& ·) (.ok mask : Except Fault (BitVec w)) = .ok y ∧
      y.toNat = x.toNat % 2 ^ k :=
  ⟨_, rfl, by rw [BitVec.toNat_and, hmask, Nat.and_pow_two_sub_one_eq_mod]⟩

theorem map_and_allOnes {mask : Except Fault (BitVec w)} (h : mask = .ok (BitVec.allOnes w)) :
    mask.map (x &&& ·) = .ok x := by
  rw [h]
  exact congrArg Except.ok BitVec.and_allOnes

theorem map_and_error {mask : Except Fault (BitVec w)} {e : Fault} (h : mask = .error e) :
    mask.map (x &&& ·) = .error e := by
  rw [h]
  rfl

end Masks

/-- `ConvertData` wraps into the raw range only for unsigned types. For an unsigned pair the mask
keeps the raw type's bits, so an element becomes its value modulo `2 ^ bits`. For a signed pair
the mask is sign-extended into all ones: with `to = S32` the element comes back unchanged, and
for any other signed `to` the shift of the mask by an `int32` amount mixes element types, which
XLA rejects. -/
theorem convertData_wraps_only_unsigned (toType rawTo : PrimitiveType)
    (hintegral : toType.isIntegralType = true ∧ rawTo.isIntegralType = true)
    (hsign : toType.isSignedIntegralType = rawTo.isSignedIntegralType)
    (hsize : rawTo.byteSize < toType.byteSize) (x : BitVec toType.bitWidth) :
    (toType.isSignedIntegralType = false →
      ∃ y, convertData toType rawTo x = .ok y ∧ y.toNat = x.toNat % 2 ^ rawTo.bitWidth) ∧
    (toType.isSignedIntegralType = true →
      convertData toType rawTo x = .ok x ∨
        convertData toType rawTo x =
          .error (.checkFailed "Binary op shift-left with different element types")) := by
  have hpair := mem_narrowingPairs hintegral hsign hsize
  rw [convertData_narrowing hintegral hsize]
  simp only [narrowingPairs, List.mem_cons, Prod.mk.injEq, List.mem_nil_iff, or_false] at hpair
  rcases hpair with ⟨rfl, rfl⟩ | ⟨rfl, rfl⟩ | ⟨rfl, rfl⟩ | ⟨rfl, rfl⟩ | ⟨rfl, rfl⟩ | ⟨rfl, rfl⟩ |
    ⟨rfl, rfl⟩ | ⟨rfl, rfl⟩ | ⟨rfl, rfl⟩ | ⟨rfl, rfl⟩ | ⟨rfl, rfl⟩ | ⟨rfl, rfl⟩
  all_goals first
    | exact ⟨fun _ => exists_map_and_mask x (by decide), fun h => absurd h (by decide)⟩
    | exact ⟨fun h => absurd h (by decide), fun _ => .inl (map_and_allOnes x (by decide))⟩
    | exact ⟨fun h => absurd h (by decide), fun _ => .inr (map_and_error x (by decide))⟩

/-- An `int32` element of 40000 narrowed to a raw `S16` comes back as 40000, where the `S16`
range would give -25536. -/
theorem convertData_wraps_only_unsigned_s32 :
    convertData .S32 .S16 (BitVec.ofInt _ 40000) = .ok (BitVec.ofInt _ 40000) ∧
      (40000 : Int).bmod (2 ^ PrimitiveType.S16.bitWidth) = -25536 ∧
      (convertData .S32 .S16 (BitVec.ofInt _ 40000) = .ok (BitVec.ofInt _ 40000) ∨
        convertData .S32 .S16 (BitVec.ofInt _ 40000) =
          .error (.checkFailed "Binary op shift-left with different element types")) :=
  ⟨by decide, by decide, (convertData_wraps_only_unsigned .S32 .S16 (by decide) (by decide)
    (by decide) _).2 rfl⟩

end XrtClient
