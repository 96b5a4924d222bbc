import Mathlib.Data.List.Basic
import Mathlib.Data.List.Nodup

/-! # Devices, workers, shapes and faults of the XRT computation client

The client names a device twice: by its global name `KIND:ORDINAL` (`DeviceId`) and by the
full name of the TensorFlow device that serves it (`ParsedName`). Every call resolves a device
through `Options` down to the RPC target of its worker, and a session is keyed by that target.
Names are kept in parsed form: the client renders them with `absl::StrCat` and reads them back
with `DeviceId`'s constructor and `DeviceNameUtils::ParseFullName`, which invert each other on
the names it renders. A call that breaks one of the client's checks ends in a `Fault`.
-/

namespace XrtClient

/-! ## Shapes -/

/-- The XLA element types the client moves. -/
inductive PrimitiveType where
  | PRED | S8 | S16 | S32 | S64 | U8 | U16 | U32 | U64 | F16 | BF16 | F32 | F64 | C64 | C128
  deriving DecidableEq, Repr

/-- `ShapeUtil::ByteSizeOfPrimitiveType`. -/
def PrimitiveType.byteSize : PrimitiveType → Nat
  | .PRED | .S8 | .U8 => 1
  | .S16 | .U16 | .F16 | .BF16 => 2
  | .S32 | .U32 | .F32 => 4
  | .S64 | .U64 | .F64 | .C64 => 8
  | .C128 => 16

/-- An XLA shape: an array with its layout, or a tuple of shapes. -/
inductive Shape where
  | array (elementType : PrimitiveType) (dimensions : List Nat) (minorToMajor : List Nat)
  | tuple (elements : List Shape)
  deriving Repr, Inhabited

mutual

/-- Equality of shapes, by recursion through the elements of tuples. -/
def Shape.decEq : (a b : Shape) → Decidable (a = b)
  | .array t d m, .array t' d' m' =>
      if h : t = t' ∧ d = d' ∧ m = m' then isTrue (by obtain ⟨rfl, rfl, rfl⟩ := h; rfl)
      else isFalse fun e => by cases e; exact h ⟨rfl, rfl, rfl⟩
  | .tuple es, .tuple es' =>
      match Shape.decEqList es es' with
      | isTrue h => isTrue (h ▸ rfl)
      | isFalse h => isFalse fun e => by cases e; exact h rfl
  | .array .., .tuple _ => isFalse fun e => by cases e
  | .tuple _, .array .. => isFalse fun e => by cases e

def Shape.decEqList : (as bs : List Shape) → Decidable (as = bs)
  | [], [] => isTrue rfl
  | a :: as, b :: bs =>
      match Shape.decEq a b, Shape.decEqList as bs with
      | isTrue h₁, isTrue h₂ => isTrue (h₁ ▸ h₂ ▸ rfl)
      | isFalse h₁, _ => isFalse fun e => by cases e; exact h₁ rfl
      | _, isFalse h₂ => isFalse fun e => by cases e; exact h₂ rfl
  | [], _ :: _ => isFalse fun e => by cases e
  | _ :: _, [] => isFalse fun e => by cases e

end

instance : DecidableEq Shape := Shape.decEq

/-- `xla::ProgramShape`: the shapes of the parameters and of the result. -/
structure ProgramShape where
  parameters : List Shape
  result : Shape
  deriving DecidableEq, Repr

/-- An `xla::XlaComputation`: its HLO module, by identity, and its program shape. -/
structure XlaComputation where
  hlo : Nat
  programShape : ProgramShape
  deriving DecidableEq, Repr

/-- How a call of the client ends when it does not return: an `XLA_CHECK` that throws, an
index past the end of a `std::vector` or `absl::Span`, which the C++ code does not guard, a
`std::map::at` on a key the map lacks, which throws `std::out_of_range`, a `session->Run` whose
status `util::CheckComputationStatus` rejects, or a compile `session->Run` that
`util::ReportComputationError` reports with the computations and output shapes it carried. -/
inductive Fault where
  | checkFailed (message : String)
  | outOfRange (container : String) (index : Nat)
  | missingKey (container : String) (key : String)
  | runFailed (message : String)
  | compileFailed (programs : List (XlaComputation × Option Shape))
  deriving DecidableEq, Repr

/-- Results compare by their constructor and contents, so a run's outcome can be decided. -/
instance instDecidableEqExcept {ε α : Type} [DecidableEq ε] [DecidableEq α] :
    DecidableEq (Except ε α)
  | .error a, .error b => if h : a = b then isTrue (h ▸ rfl) else isFalse fun h' => h (Except.error.inj h')
  | .ok a, .ok b => if h : a = b then isTrue (h ▸ rfl) else isFalse fun h' => h (Except.ok.inj h')
  | .error _, .ok _ => isFalse fun h => Except.noConfusion h
  | .ok _, .error _ => isFalse fun h => Except.noConfusion h

/-- `XLA_CHECK(condition)`, which fails with the condition's text. -/
def xlaCheck (condition : Prop) [Decidable condition] (message : String) : Except Fault Unit :=
  if condition then .ok () else .error (.checkFailed message)

@[simp] theorem xlaCheck_of_true {condition : Prop} [Decidable condition] (message : String)
    (h : condition) : xlaCheck condition message = .ok () := by
  simp [xlaCheck, h]

theorem xlaCheck_of_false {condition : Prop} [Decidable condition] (message : String)
    (h : ¬ condition) : xlaCheck condition message = .error (.checkFailed message) := by
  simp [xlaCheck, h]

theorem of_xlaCheck_eq_ok {condition : Prop} [Decidable condition] {message : String}
    (h : xlaCheck condition message = .ok ()) : condition := by
  by_contra hc
  rw [xlaCheck_of_false message hc] at h
  cases h

/-- `container[index]` on a `std::vector` or an `absl::Span`. -/
def vectorAt {α : Type} (container : String) (xs : List α) (index : Nat) : Except Fault α :=
  match xs[index]? with
  | some x => .ok x
  | none => .error (.outOfRange container index)

@[simp] theorem vectorAt_of_lt {α : Type} (container : String) (xs : List α) (index : Nat)
    (h : index < xs.length) : vectorAt container xs index = .ok xs[index] := by
  simp [vectorAt, h]

theorem vectorAt_of_le {α : Type} (container : String) (xs : List α) (index : Nat)
    (h : xs.length ≤ index) : vectorAt container xs index = .error (.outOfRange container index) := by
  simp [vectorAt, List.getElem?_eq_none h]

/-! ## Device names -/

/-- `XrtComputationClient::DeviceId`, a global device name `KIND:ORDINAL` split at its colon. -/
structure DeviceId where
  kind : String
  ordinal : Int
  deriving DecidableEq, Repr, Inhabited

/-- The name as `absl::StrCat(kind, ":", ordinal)` renders it. -/
def DeviceId.render (device : DeviceId) : String :=
  device.kind ++ ":" ++ toString device.ordinal

/-- The fields of a full device name `/job:J/replica:0/task:T/device:TYPE:ID` that the client
reads after `DeviceNameUtils::ParseFullName`. -/
structure ParsedName where
  job : String
  task : Int
  type : String
  id : Int
  deriving DecidableEq, Repr

def ParsedName.render (name : ParsedName) : String :=
  "/job:" ++ name.job ++ "/replica:0/task:" ++ toString name.task ++ "/device:" ++ name.type ++
    ":" ++ toString name.id

/-- `GetXrtDevicePath`. -/
def getXrtDevicePath (worker : String) (taskNo : Int) (deviceType : String) (ordinal : Int) :
    ParsedName :=
  ⟨worker, taskNo, deviceType, ordinal⟩

/-- `XrtComputationClient::Worker`: a job name and a task number. -/
structure Worker where
  name : String
  taskNo : Int
  deriving DecidableEq, Repr

/-- `XrtComputationClient::Options`. The two maps are `std::map`s, kept as lists with one
entry per key; `devices` is the `std::set` of devices this process serves. -/
structure Options where
  globalDeviceMap : List (DeviceId × ParsedName)
  workersMap : List (Worker × String)
  devices : List DeviceId
  defaultDevice : Option DeviceId

theorem lookup_isSome_iff_mem_keys {κ ν : Type} [DecidableEq κ] {entries : List (κ × ν)} {k : κ} :
    (entries.lookup k).isSome ↔ k ∈ entries.map Prod.fst := by
  simp only [List.lookup_isSome_iff, List.mem_map, beq_iff_eq]
  exact ⟨fun ⟨p, hp, hk⟩ => ⟨p, hp, hk.symm⟩, fun ⟨p, hp, hk⟩ => ⟨p, hp, hk.symm⟩⟩

/-- `std::map::emplace`: insert unless the key is already there. -/
def emplace {κ ν : Type} [DecidableEq κ] (map : List (κ × ν)) (key : κ) (value : ν) :
    List (κ × ν) :=
  if (map.lookup key).isSome then map else map ++ [(key, value)]

theorem emplace_of_fresh {κ ν : Type} [DecidableEq κ] {map : List (κ × ν)} {key : κ}
    (hfresh : ∀ e ∈ map, e.1 ≠ key) (value : ν) : emplace map key value = map ++ [(key, value)] := by
  have : map.lookup key = none :=
    List.lookup_eq_none_iff.mpr fun e he => by simpa using Ne.symm (hfresh e he)
  simp [emplace, this]

theorem keys_subset_emplace {κ ν : Type} [DecidableEq κ] (map : List (κ × ν)) (key : κ) (value : ν) :
    map.map Prod.fst ⊆ (emplace map key value).map Prod.fst := by
  unfold emplace
  split <;> simp

theorem mem_keys_emplace {κ ν : Type} [DecidableEq κ] (map : List (κ × ν)) (key : κ) (value : ν) :
    key ∈ (emplace map key value).map Prod.fst := by
  unfold emplace
  split
  · next h => exact lookup_isSome_iff_mem_keys.mp h
  · simp

theorem keys_subset_foldl_emplace {κ ν α : Type} [DecidableEq κ] (key : α → κ) (value : α → ν) :
    ∀ (xs : List α) (map : List (κ × ν)),
      map.map Prod.fst ⊆ (xs.foldl (fun map x => emplace map (key x) (value x)) map).map Prod.fst
  | [], _ => List.Subset.refl _
  | _ :: xs, map => (keys_subset_emplace map _ _).trans (keys_subset_foldl_emplace key value xs _)

/-- `map[session].push_back(x)` on a map keyed by the session of a target. Groups appear in
the order their target first appears; the `std::map` walks them in pointer order, which the
callers leave free. -/
def addToGroup {α : Type} (target : String) (x : α) :
    List (String × List α) → List (String × List α)
  | [] => [(target, [x])]
  | (t, xs) :: rest =>
      if t = target then (t, xs ++ [x]) :: rest
      else (t, xs) :: addToGroup target x rest

section Groups

variable {α : Type}

theorem addToGroup_flatMap (target : String) (x : α) (groups : List (String × List α)) :
    ((addToGroup target x groups).flatMap Prod.snd).Perm (groups.flatMap Prod.snd ++ [x]) := by
  induction groups with
  | nil => simp [addToGroup]
  | cons g rest ih =>
      simp only [addToGroup]
      split
      · simpa using (List.perm_append_singleton x _).symm.append_left _
      · simpa using ih.append_left _

theorem addToGroup_keys (target : String) (x : α) (groups : List (String × List α)) :
    (addToGroup target x groups).map Prod.fst =
      if target ∈ groups.map Prod.fst then groups.map Prod.fst
      else groups.map Prod.fst ++ [target] := by
  induction groups with
  | nil => simp [addToGroup]
  | cons g rest ih =>
      simp only [addToGroup]
      split
      · simp_all
      · by_cases hmem : target ∈ rest.map Prod.fst <;> simp_all [Ne.symm]

theorem addToGroup_nodup (target : String) (x : α) {groups : List (String × List α)}
    (hnodup : (groups.map Prod.fst).Nodup) : ((addToGroup target x groups).map Prod.fst).Nodup := by
  rw [addToGroup_keys]
  split
  · exact hnodup
  · next hnot => exact hnodup.append (List.nodup_singleton _) (List.disjoint_singleton.mpr hnot)

theorem addToGroup_ne_nil (target : String) (x : α) {groups : List (String × List α)}
    (hgroups : ∀ g ∈ groups, g.2 ≠ []) : ∀ g ∈ addToGroup target x groups, g.2 ≠ [] := by
  induction groups with
  | nil => simp [addToGroup]
  | cons g rest ih =>
      rw [List.forall_mem_cons] at hgroups
      simp only [addToGroup]
      split
      · exact List.forall_mem_cons.mpr ⟨by simp, hgroups.2⟩
      · exact List.forall_mem_cons.mpr ⟨hgroups.1, ih hgroups.2⟩

/-- The group of a target gains `x` at its end; the other groups are unchanged. -/
theorem lookup_addToGroup (target : String) (x : α) (groups : List (String × List α))
    (t : String) : (addToGroup target x groups).lookup t =
      if t = target then some ((groups.lookup t).getD [] ++ [x]) else groups.lookup t := by
  induction groups with
  | nil => by_cases h : t = target <;> simp [addToGroup, List.lookup_cons, h, beq_false_of_ne]
  | cons g rest ih =>
      obtain ⟨t', xs⟩ := g
      by_cases h' : t' = target
      · subst h'
        by_cases h : t = t' <;> simp [addToGroup, List.lookup_cons, h, beq_false_of_ne]
      · by_cases h : t = t'
        · subst h
          simp [addToGroup, h']
        · simp [addToGroup, List.lookup_cons, h, h', ih, beq_false_of_ne]

/-- Adding to the one group of its target keeps one group. -/
theorem foldl_addToGroup_self {β : Type} (target : String) (f : β → α) :
    ∀ (xs : List β) (ys : List α),
      xs.foldl (fun w x => addToGroup target (f x) w) [(target, ys)] = [(target, ys ++ xs.map f)]
  | [], ys => by simp
  | x :: rest, ys => by
      simp only [List.foldl_cons, addToGroup, if_true]
      rw [foldl_addToGroup_self target f rest]
      simp

/-- Items of one target, added to no groups, form one group in their order, or none. -/
theorem foldl_addToGroup_nil {β : Type} [DecidableEq β] (target : String) (f : β → α) :
    ∀ xs : List β, xs.foldl (fun w x => addToGroup target (f x) w) [] =
      if xs = [] then [] else [(target, xs.map f)]
  | [] => rfl
  | x :: rest => foldl_addToGroup_self target f rest [f x]

end Groups

namespace Options

variable (opts : Options)

/-- `SwiftDeviceToXrtDevice`. -/
def swiftDeviceToXrtDevice (device : DeviceId) : Except Fault ParsedName :=
  match opts.globalDeviceMap.lookup device with
  | some name => .ok name
  | none => .error (.checkFailed ("Unable to find device: " ++ device.render))

/-- `GetWorkerForXrtDevice`: the worker of a full device name and its RPC target. -/
def getWorkerForXrtDevice (xrtDevice : ParsedName) : Except Fault (Worker × String) :=
  match opts.workersMap.lookup ⟨xrtDevice.job, xrtDevice.task⟩ with
  | some target => .ok (⟨xrtDevice.job, xrtDevice.task⟩, target)
  | none => .error (.checkFailed xrtDevice.render)

/-- `GetWorkerForDevice`. -/
def getWorkerForDevice (device : DeviceId) : Except Fault (Worker × String) := do
  opts.getWorkerForXrtDevice (← opts.swiftDeviceToXrtDevice device)

/-- The RPC target that `GetSessionForDevice` keys a device's session by: within one
`SessionMap` the cache hands out one session per target. -/
def sessionTarget (device : DeviceId) : Except Fault String :=
  (opts.getWorkerForDevice device).map Prod.snd

end Options

/-- Two TPU cores of one worker task: both resolve to the same RPC target. -/
def sharedWorkerOptions : Options where
  globalDeviceMap := [(⟨"TPU", 0⟩, ⟨"tpu_worker", 0, "TPU", 0⟩),
    (⟨"TPU", 1⟩, ⟨"tpu_worker", 0, "TPU", 1⟩)]
  workersMap := [(⟨"tpu_worker", 0⟩, "grpc://localhost:8470")]
  devices := [⟨"TPU", 0⟩, ⟨"TPU", 1⟩]
  defaultDevice := some ⟨"TPU", 0⟩

/-! ## Shape functions -/

namespace Shape

/-- `ShapeUtil::ByteSizeOfElements`, which `CHECK`s that the shape is an array. -/
def byteSizeOfElements : Shape → Except Fault Nat
  | .array elementType dimensions _ => .ok (dimensions.foldl (· * ·) 1 * elementType.byteSize)
  | .tuple _ => .error (.checkFailed "shape.IsArray()")

def isArray : Shape → Bool
  | .array .. => true
  | .tuple _ => false

theorem byteSizeOfElements_of_isArray {shape : Shape} (h : shape.isArray) :
    ∃ size, shape.byteSizeOfElements = .ok size := by
  cases shape with
  | array => exact ⟨_, rfl⟩
  | tuple => cases h

/-- `ShapeUtil::TupleElementCount`. -/
def tupleElementCount : Shape → Except Fault Nat
  | .tuple elements => .ok elements.length
  | .array .. => .error (.checkFailed "shape.IsTuple()")

/-- `ShapeUtil::GetTupleElementShape`, which `CHECK`s that the index is below the arity. -/
def getTupleElementShape : Shape → Nat → Except Fault Shape
  | .tuple elements, index =>
      if h : index < elements.length then .ok elements[index]
      else .error (.checkFailed "TupleElementCount(shape) > index")
  | .array .., _ => .error (.checkFailed "shape.IsTuple()")

end Shape

/-- `XrtComputationClient::XrtData`: a value of shape `shape` on `device`, named on the server
by `handle`. The handle type is left open: each component fixes what the server hands back. -/
structure XrtData (H : Type) where
  device : DeviceId
  shape : Shape
  handle : H

/-- `XrtComputationClient::XrtComputation`: the server handle of a compiled program and the
result shape of its program shape. -/
structure XrtComputation where
  handle : Int
  resultShape : Shape

/-! ## Demultiplexing session outputs

Every runner of the client stores the outputs of one session batch back at the callers'
positions with `results[index_mapping[i]] = make(outputs[i])`. `scatter` is that loop. -/

/-- Apply the writes `results[i] = x` in order. -/
def scatter {α : Type} (results : List α) : List (Nat × α) → List α
  | [] => results
  | (i, x) :: rest => scatter (results.set i x) rest

section Scatter

variable {α : Type}

@[simp] theorem scatter_nil (results : List α) : scatter results [] = results := rfl

@[simp] theorem scatter_length (results : List α) (writes : List (Nat × α)) :
    (scatter results writes).length = results.length := by
  induction writes generalizing results with
  | nil => rfl
  | cons w rest ih => simp [scatter, ih]

theorem scatter_append (results : List α) (first second : List (Nat × α)) :
    scatter results (first ++ second) = scatter (scatter results first) second := by
  induction first generalizing results with
  | nil => rfl
  | cons w rest ih => exact ih _

theorem scatter_getElem?_of_not_mem (results : List α) (writes : List (Nat × α))
    {i : Nat} (hi : i ∉ writes.map Prod.fst) : (scatter results writes)[i]? = results[i]? := by
  induction writes generalizing results with
  | nil => rfl
  | cons w rest ih =>
      simp only [List.map_cons, List.mem_cons, not_or] at hi
      rw [scatter, ih _ hi.2, List.getElem?_set, if_neg (Ne.symm hi.1)]

/-- A write whose position no other write touches survives the whole loop. -/
theorem scatter_getElem?_of_mem (results : List α) (writes : List (Nat × α))
    (hnodup : (writes.map Prod.fst).Nodup) {i : Nat} {x : α} (hmem : (i, x) ∈ writes)
    (hi : i < results.length) : (scatter results writes)[i]? = some x := by
  induction writes generalizing results with
  | nil => simp at hmem
  | cons w rest ih =>
      simp only [List.map_cons, List.nodup_cons] at hnodup
      rcases List.mem_cons.mp hmem with rfl | hrest
      · rw [scatter, scatter_getElem?_of_not_mem _ _ hnodup.1, List.getElem?_set_self]
        simpa using hi
      · exact ih _ hnodup.2 hrest (by simpa using hi)

/-- Writes that hit every position once, each with the value `target` has there, rebuild
`target`, whatever their order. -/
theorem scatter_eq_of_cover (results target : List α) (writes : List (Nat × α))
    (hlength : target.length = results.length)
    (hcover : (writes.map Prod.fst).Perm (List.range results.length))
    (hvalue : ∀ w ∈ writes, target[w.1]? = some w.2) : scatter results writes = target := by
  apply List.ext_getElem?
  intro j
  by_cases hj : j < results.length
  · obtain ⟨w, hw, rfl⟩ := List.mem_map.mp (hcover.symm.subset (List.mem_range.mpr hj))
    rw [scatter_getElem?_of_mem _ _ (hcover.nodup_iff.mpr (List.nodup_range _)) hw hj,
      hvalue w hw]
  · rw [List.getElem?_eq_none (by simpa using hj), List.getElem?_eq_none (by omega)]

/-- Writes at distinct positions, each with the value `target` has there, over a list that
agrees with `target` wherever nothing is written, give `target`. -/
theorem scatter_eq_of_agree (results target : List α) (writes : List (Nat × α))
    (hlength : target.length = results.length) (hnodup : (writes.map Prod.fst).Nodup)
    (hvalue : ∀ w ∈ writes, target[w.1]? = some w.2)
    (hrest : ∀ j, j ∉ writes.map Prod.fst → results[j]? = target[j]?) :
    scatter results writes = target := by
  apply List.ext_getElem?
  intro j
  by_cases hj : j ∈ writes.map Prod.fst
  · obtain ⟨w, hw, rfl⟩ := List.mem_map.mp hj
    have hlt : w.1 < results.length := by
      have hsome := hvalue w hw
      rw [← hlength]
      exact (List.getElem?_eq_some_iff.mp hsome).1
    rw [scatter_getElem?_of_mem _ _ hnodup hw hlt, hvalue w hw]
  · rw [scatter_getElem?_of_not_mem _ _ hj, hrest j hj]

/-- Passes that each write at most their own position write at positions of the loop. -/
theorem flatMap_map_fst_sublist {β : Type} {w : Nat × β → List (Nat × α)} :
    ∀ {l : List (Nat × β)}, (∀ e ∈ l, List.Sublist ((w e).map Prod.fst) [e.1]) →
      List.Sublist ((l.flatMap w).map Prod.fst) (l.map Prod.fst)
  | [], _ => List.Sublist.slnil
  | e :: rest, h => by
      rw [List.flatMap_cons, List.map_append, List.map_cons]
      exact (h e (List.mem_cons_self _ _)).append
        (flatMap_map_fst_sublist fun e' he' => h e' (List.mem_cons_of_mem _ he'))

end Scatter

theorem zip_range'_map {α β : Type} (f : Nat → β) :
    ∀ (l : List α) (start : Nat), l.zip ((List.range' start l.length).map f) =
      (l.enumFrom start).map fun entry => (entry.2, f entry.1)
  | [], _ => rfl
  | x :: rest, start => by
      simp only [List.length_cons, List.range'_succ, List.map_cons, List.zip_cons_cons,
        List.enumFrom_cons, zip_range'_map f rest (start + 1)]

/-- Pairing a list with consecutive outputs pairs each element with the output at its position. -/
theorem zip_range_map {α β : Type} (f : Nat → β) (l : List α) :
    l.zip ((List.range l.length).map f) = l.enum.map fun entry => (entry.2, f entry.1) := by
  rw [List.range_eq_range', zip_range'_map, List.enum]

/-! ## Loops in `Except` -/

@[simp] theorem ok_bind {ε α β : Type} (a : α) (f : α → Except ε β) :
    (Except.ok a >>= f) = f a := rfl

@[simp] theorem error_bind {ε α β : Type} (e : ε) (f : α → Except ε β) :
    (Except.error e >>= f) = .error e := rfl

theorem bind_eq_ok {ε α β : Type} {x : Except ε α} {f : α → Except ε β} {b : β}
    (h : x >>= f = .ok b) : ∃ a, x = .ok a ∧ f a = .ok b := by
  cases x with
  | error e => cases h
  | ok a => exact ⟨a, rfl, h⟩

theorem mapM_eq_ok_map {α β ε : Type} {f : α → Except ε β} {g : α → β} :
    ∀ {l : List α}, (∀ x ∈ l, f x = .ok (g x)) → l.mapM f = .ok (l.map g)
  | [], _ => rfl
  | x :: rest, h => by
      simp only [List.mapM_cons, h x (List.mem_cons_self _ _), List.map_cons]
      rw [mapM_eq_ok_map (fun y hy => h y (List.mem_cons_of_mem _ hy))]
      rfl

/-- A loop of checks that all hold passes. -/
theorem forM_xlaCheck_eq_ok {α : Type} (p : α → Prop) [DecidablePred p] (message : α → String) :
    ∀ {l : List α}, (∀ x ∈ l, p x) → l.forM (fun x => xlaCheck (p x) (message x)) = .ok ()
  | [], _ => rfl
  | x :: l, h => by
      rw [List.forM, xlaCheck_of_true _ (h x (List.mem_cons_self _ _)), ok_bind]
      exact forM_xlaCheck_eq_ok p message fun y hy => h y (List.mem_cons_of_mem _ hy)

theorem mapM_map {α β γ ε : Type} (f : β → Except ε γ) (g : α → β) :
    ∀ l : List α, (l.map g).mapM f = l.mapM (f ∘ g)
  | [] => rfl
  | x :: rest => by simp only [List.map_cons, List.mapM_cons, mapM_map f g rest]; rfl

theorem mapM_ok_of_forall {α β ε : Type} {f : α → Except ε β} {l : List α}
    (h : ∀ x ∈ l, ∃ y, f x = .ok y) : ∃ ys, l.mapM f = .ok ys ∧ ys.length = l.length := by
  induction l with
  | nil => exact ⟨[], rfl, rfl⟩
  | cons x rest ih =>
      obtain ⟨y, hy⟩ := h x (List.mem_cons_self _ _)
      obtain ⟨ys, hys, hlen⟩ := ih (fun z hz => h z (List.mem_cons_of_mem _ hz))
      refine ⟨y :: ys, ?_, by simp [hlen]⟩
      simp only [List.mapM_cons, hy, hys]
      rfl

/-- A loop whose every pass succeeds returns what the passes return: its image under `g` is the
inputs' image under `h`, and each value satisfies `P`. -/
theorem mapM_ok_of_forall_map {α β γ ε : Type} {f : α → Except ε β} {g : β → γ} {h : α → γ}
    {P : β → Prop} : ∀ {l : List α}, (∀ x ∈ l, ∃ y, f x = .ok y ∧ g y = h x ∧ P y) →
      ∃ ys, l.mapM f = .ok ys ∧ ys.map g = l.map h ∧ ∀ y ∈ ys, P y
  | [], _ => ⟨[], rfl, rfl, fun _ h => nomatch h⟩
  | x :: rest, hall => by
      obtain ⟨y, hy, hg, hP⟩ := hall x (List.mem_cons_self _ _)
      obtain ⟨ys, hys, hmap, hPs⟩ := mapM_ok_of_forall_map fun z hz => hall z (List.mem_cons_of_mem _ hz)
      refine ⟨y :: ys, by simp only [List.mapM_cons, hy, hys]; rfl, by simp [hg, hmap], ?_⟩
      intro z hz
      rcases List.mem_cons.mp hz with rfl | hz
      · exact hP
      · exact hPs z hz

/-- A loop whose every pass applies writes of its own applies them all, in loop order. -/
theorem foldl_append_singleton {ι α : Type} (f : ι → α) :
    ∀ (items : List ι) (log : List α), items.foldl (fun log i => log ++ [f i]) log = log ++ items.map f
  | [], _ => by simp
  | i :: rest, log => by simp [foldl_append_singleton f rest]

theorem foldlM_scatter {ι α ε : Type} {f : List α → ι → Except ε (List α)}
    {writes : ι → List (Nat × α)} :
    ∀ {order : List ι}, (∀ i ∈ order, ∀ results, f results i = .ok (scatter results (writes i))) →
      ∀ results, order.foldlM f results = .ok (scatter results (order.flatMap writes))
  | [], _, _ => rfl
  | i :: rest, h, results => by
      rw [List.foldlM_cons, h i (List.mem_cons_self _ _), List.flatMap_cons, scatter_append]
      exact foldlM_scatter (fun j hj => h j (List.mem_cons_of_mem _ hj)) _

/-- A key of a list whose keys are distinct finds its own entry. -/
theorem lookup_of_mem {κ ν : Type} [DecidableEq κ] {entries : List (κ × ν)}
    (hnodup : (entries.map Prod.fst).Nodup) {key : κ} {value : ν} (hmem : (key, value) ∈ entries) :
    entries.lookup key = some value := by
  induction entries with
  | nil => simp at hmem
  | cons e rest ih =>
      simp only [List.map_cons, List.nodup_cons] at hnodup
      rcases List.mem_cons.mp hmem with rfl | hrest
      · exact List.lookup_cons_self
      · have hne : e.1 ≠ key := fun h => hnodup.1 (h ▸ List.mem_map_of_mem _ hrest)
        have hkey : (key == e.1) = false := by simpa using Ne.symm hne
        rw [List.lookup_cons, hkey]
        exact ih hnodup.2 hrest

/-! ## Failures by a check -/

section Checks

variable {α β σ : Type}

/-- `x` fails, if at all, by a failed check. -/
def ChecksOnly (x : Except Fault α) : Prop :=
  ∀ e, x = .error e → ∃ message, e = .checkFailed message

/-- `x` fails by a failed check. -/
def FailsCheck (x : Except Fault α) : Prop :=
  ∃ message, x = .error (.checkFailed message)

theorem checksOnly_ok (a : α) : ChecksOnly (.ok a : Except Fault α) :=
  fun _ h => nomatch h

theorem checksOnly_checkFailed (message : String) :
    ChecksOnly (.error (.checkFailed message) : Except Fault α) :=
  fun _ h => ⟨message, by injection h with h; exact h.symm⟩

theorem checksOnly_map {x : Except Fault α} (f : α → β) (hx : ChecksOnly x) :
    ChecksOnly (x.map f) := by
  intro e h
  cases x with
  | error e' => exact hx e (by injection h with h; rw [h])
  | ok a => nomatch h

theorem checksOnly_bind {x : Except Fault α} {f : α → Except Fault β} (hx : ChecksOnly x)
    (hf : ∀ a, x = .ok a → ChecksOnly (f a)) : ChecksOnly (x >>= f) := by
  intro e h
  cases x with
  | error e' => exact hx e (by injection h with h; rw [h])
  | ok a => exact hf a rfl e h

theorem checksOnly_xlaCheck (condition : Prop) [Decidable condition] (message : String) :
    ChecksOnly (xlaCheck condition message) := by
  unfold xlaCheck
  split
  · exact checksOnly_ok ()
  · exact checksOnly_checkFailed message

theorem checksOnly_mapM {f : α → Except Fault β} :
    ∀ {l : List α}, (∀ a ∈ l, ChecksOnly (f a)) → ChecksOnly (l.mapM f)
  | [], _ => checksOnly_ok []
  | a :: rest, h => by
      rw [List.mapM_cons]
      exact checksOnly_bind (h a (List.mem_cons_self _ _)) fun _ _ =>
        checksOnly_bind (checksOnly_mapM fun b hb => h b (List.mem_cons_of_mem _ hb)) fun _ _ =>
          checksOnly_ok _

theorem checksOnly_foldlM {f : σ → α → Except Fault σ} :
    ∀ {l : List α}, (∀ s, ∀ a ∈ l, ChecksOnly (f s a)) → ∀ s, ChecksOnly (l.foldlM f s)
  | [], _, s => checksOnly_ok s
  | a :: rest, hf, s => by
      rw [List.foldlM_cons]
      exact checksOnly_bind (hf s a (List.mem_cons_self _ _)) fun s' _ =>
        checksOnly_foldlM (fun t b hb => hf t b (List.mem_cons_of_mem _ hb)) s'

theorem checksOnly_vectorAt {container : String} {xs : List α} {index : Nat}
    (h : index < xs.length) : ChecksOnly (vectorAt container xs index) := by
  rw [vectorAt_of_lt _ _ _ h]
  exact checksOnly_ok _

/-- A loop whose every pass succeeds and keeps `inv` succeeds and keeps `inv`. -/
theorem foldlM_ok_of_invariant {ε : Type} {f : σ → α → Except ε σ} {inv : σ → Prop} :
    ∀ {l : List α}, (∀ s a, a ∈ l → inv s → ∃ s', f s a = .ok s' ∧ inv s') →
      ∀ s, inv s → ∃ s', l.foldlM f s = .ok s' ∧ inv s'
  | [], _, s, hs => ⟨s, rfl, hs⟩
  | a :: rest, hf, s, hs => by
      obtain ⟨s', hs', hinv⟩ := hf s a (List.mem_cons_self _ _) hs
      rw [List.foldlM_cons, hs']
      exact foldlM_ok_of_invariant (fun t b hb => hf t b (List.mem_cons_of_mem _ hb)) s' hinv

theorem FailsCheck.bind {x : Except Fault α} (hx : FailsCheck x) (f : α → Except Fault β) :
    FailsCheck (x >>= f) := by
  obtain ⟨message, rfl⟩ := hx
  exact ⟨message, rfl⟩

/-- A loop whose pass at `a` fails by a check fails by a check, if no pass fails otherwise. -/
theorem mapM_failsCheck_of_mem {f : α → Except Fault β} {a : α} (hfail : FailsCheck (f a)) :
    ∀ {l : List α}, (∀ b ∈ l, ChecksOnly (f b)) → a ∈ l → FailsCheck (l.mapM f)
  | [], _, ha => nomatch ha
  | b :: rest, hchecks, ha => by
      rw [List.mapM_cons]
      cases hb : f b with
      | error e =>
          obtain ⟨message, rfl⟩ := hchecks b (List.mem_cons_self _ _) e hb
          exact ⟨message, rfl⟩
      | ok y =>
          rcases List.mem_cons.mp ha with rfl | ha
          · obtain ⟨message, hmessage⟩ := hfail
            rw [hmessage] at hb
            cases hb
          · exact (mapM_failsCheck_of_mem hfail (fun c hc => hchecks c (List.mem_cons_of_mem _ hc))
              ha).bind _

theorem foldlM_failsCheck_of_mem {f : σ → α → Except Fault σ} {a : α}
    (hchecks : ∀ s b, ChecksOnly (f s b)) (hfail : ∀ s, FailsCheck (f s a)) :
    ∀ {l : List α} (s : σ), a ∈ l → FailsCheck (l.foldlM f s)
  | [], _, ha => nomatch ha
  | b :: rest, s, ha => by
      rw [List.foldlM_cons]
      rcases List.mem_cons.mp ha with rfl | ha
      · exact (hfail s).bind _
      · cases hb : f s b with
        | error e =>
            obtain ⟨message, rfl⟩ := hchecks s b e hb
            exact ⟨message, rfl⟩
        | ok s' => exact foldlM_failsCheck_of_mem hchecks hfail s' ha

theorem Shape.checksOnly_getTupleElementShape (shape : Shape) (index : Nat) :
    ChecksOnly (shape.getTupleElementShape index) := by
  unfold Shape.getTupleElementShape
  split
  · split
    · exact checksOnly_ok _
    · exact checksOnly_checkFailed _
  · exact checksOnly_checkFailed _

theorem Options.checksOnly_swiftDeviceToXrtDevice (opts : Options) (device : DeviceId) :
    ChecksOnly (opts.swiftDeviceToXrtDevice device) := by
  unfold Options.swiftDeviceToXrtDevice
  split
  · exact checksOnly_ok _
  · exact checksOnly_checkFailed _

theorem Options.checksOnly_getWorkerForXrtDevice (opts : Options) (xrtDevice : ParsedName) :
    ChecksOnly (opts.getWorkerForXrtDevice xrtDevice) := by
  unfold Options.getWorkerForXrtDevice
  split
  · exact checksOnly_ok _
  · exact checksOnly_checkFailed _

/-- Resolving a device fails, if at all, by a check: an unknown device or worker. -/
theorem Options.checksOnly_sessionTarget (opts : Options) (device : DeviceId) :
    ChecksOnly (opts.sessionTarget device) :=
  checksOnly_map _ (checksOnly_bind (opts.checksOnly_swiftDeviceToXrtDevice device) fun name _ =>
    opts.checksOnly_getWorkerForXrtDevice name)

/-- A device that resolves has a full name and a worker whose target is the session's. -/
theorem Options.sessionTarget_eq_ok {opts : Options} {device : DeviceId} {target : String}
    (h : opts.sessionTarget device = .ok target) :
    ∃ xrtDevice, opts.swiftDeviceToXrtDevice device = .ok xrtDevice ∧
      ∃ worker, opts.getWorkerForXrtDevice xrtDevice = .ok worker ∧ worker.2 = target := by
  unfold Options.sessionTarget Options.getWorkerForDevice at h
  cases hname : opts.swiftDeviceToXrtDevice device with
  | error e => simp [hname] at h; cases h
  | ok xrtDevice =>
      cases hworker : opts.getWorkerForXrtDevice xrtDevice with
      | error e => simp [hname, hworker] at h; cases h
      | ok worker =>
          exact ⟨xrtDevice, rfl, worker, hworker, by simpa [hname, hworker, Except.map] using h⟩

end Checks

/-! ## Calls that issue `session->Run`s -/

/-- A call that may fail, threading the state `σ` it reads and changes: the `session->Run`s it
issues, and for `Compile` the compilation cache. -/
abbrev SessionM (σ : Type) := ExceptT Fault (StateM σ)

/-- Issue a `session->Run`. -/
def issueRun {R : Type} (run : R) : SessionM (List R) Unit :=
  modify (· ++ [run])

namespace SessionM

variable {σ α β : Type}

def ofExcept : Except Fault α → SessionM σ α
  | .ok a => pure a
  | .error e => throw e

@[simp] theorem run_pure (a : α) (s : σ) :
    (pure a : SessionM σ α).run.run s = (.ok a, s) := rfl

@[simp] theorem run_ofExcept (x : Except Fault α) (s : σ) :
    (ofExcept x : SessionM σ α).run.run s = (x, s) := by
  cases x <;> rfl

@[simp] theorem run_issueRun {R : Type} (run : R) (log : List R) :
    (issueRun run).run.run log = (.ok (), log ++ [run]) := rfl

theorem run_bind (m : SessionM σ α) (f : α → SessionM σ β) (s : σ) :
    (m >>= f).run.run s = match m.run.run s with
      | (.ok a, s') => (f a).run.run s'
      | (.error e, s') => (.error e, s') := by
  simp only [ExceptT.run_bind, StateT.run_bind]
  rcases m.run.run s with ⟨_ | _, _⟩ <;> rfl

@[simp] theorem run_throw (e : Fault) (s : σ) :
    (throw e : SessionM σ α).run.run s = (.error e, s) := rfl

theorem run_tryCatch (m : SessionM σ α) (handler : Fault → SessionM σ α) (s : σ) :
    (tryCatch m handler).run.run s = match m.run.run s with
      | (.ok a, s') => (.ok a, s')
      | (.error e, s') => (handler e).run.run s' := by
  simp only [tryCatch, tryCatchThe, MonadExceptOf.tryCatch, ExceptT.tryCatch, ExceptT.run,
    ExceptT.mk, StateT.run_bind]
  rcases StateT.run m s with ⟨_ | _, _⟩ <;> rfl

/-- A loop whose every pass returns, from every state, returns what the passes return and
leaves the passes' updates, in order. -/
theorem run_mapM {f : α → SessionM σ β} (w : α → β) (next : α → σ → σ) :
    ∀ {l : List α}, (∀ x ∈ l, ∀ s, (f x).run.run s = (.ok (w x), next x s)) →
      ∀ s, (l.mapM f).run.run s = (.ok (l.map w), l.foldl (fun s x => next x s) s)
  | [], _, _ => rfl
  | x :: rest, h, s => by
      rw [List.mapM_cons, run_bind, h x (List.mem_cons_self _ _)]
      dsimp only
      rw [run_bind, run_mapM w next (fun y hy => h y (List.mem_cons_of_mem _ hy))]
      rfl

end SessionM

/-! ## `util::MultiWait` -/

section MultiWait

variable {σ ι α : Type}

/-- Modelled from the spec: `util::MultiWait::Complete` (not under src/) runs one closure and
keeps the fault it throws; the closure's writes land when it returns. -/
def completeClosure (state : List α × Option Fault) (closure : SessionM σ (List (Nat × α))) :
    SessionM σ (List α × Option Fault) :=
  tryCatch (do
    let writes ← closure
    pure (scatter state.1 writes, state.2)) fun fault => pure (state.1, some fault)

/-- Modelled from the spec: `util::MultiWait` (not under src/) over closures, in the order they
run: every closure runs to its end, and `Wait` rethrows the fault of the last closure to fail.
A closure that fails leaves its slots unwritten, which no caller sees, since the call then
throws. -/
def multiWait (closures : List (SessionM σ (List (Nat × α)))) (results : List α) :
    SessionM σ (List α) := do
  let state ← closures.foldlM completeClosure (results, none)
  match state.2 with
  | some fault => throw fault
  | none => pure state.1

variable (closure : ι → SessionM σ (List (Nat × α))) (writes : ι → List (Nat × α))
  (next : ι → σ → σ) (Inv : σ → Prop)

theorem foldlM_completeClosure {items : List ι}
    (h : ∀ i ∈ items, ∀ s, Inv s → (closure i).run.run s = (.ok (writes i), next i s) ∧
      Inv (next i s)) :
    ∀ (results : List α) (s : σ), Inv s →
      ((items.map closure).foldlM completeClosure (results, none)).run.run s =
        (.ok (scatter results (items.flatMap writes), none), items.foldl (fun s i => next i s) s) := by
  induction items with
  | nil => intro results s _; rfl
  | cons i rest ih =>
      intro results s hs
      obtain ⟨hrun, hnext⟩ := h i (List.mem_cons_self _ _) s hs
      rw [List.map_cons, List.foldlM_cons, SessionM.run_bind]
      simp only [completeClosure, SessionM.run_tryCatch, SessionM.run_bind, hrun, SessionM.run_pure]
      rw [ih (fun j hj => h j (List.mem_cons_of_mem _ hj)) _ _ hnext]
      simp [scatter_append]

/-- Closures that each return their writes, from every state of an invariant, all run in order,
and their writes land. -/
theorem multiWait_eq {items : List ι}
    (h : ∀ i ∈ items, ∀ s, Inv s → (closure i).run.run s = (.ok (writes i), next i s) ∧
      Inv (next i s))
    (results : List α) (s : σ) (hs : Inv s) :
    (multiWait (items.map closure) results).run.run s =
      (.ok (scatter results (items.flatMap writes)), items.foldl (fun s i => next i s) s) := by
  rw [multiWait, SessionM.run_bind, foldlM_completeClosure closure writes next Inv h results s hs]
  rfl

/-- Under `MultiWait`, closures that fail only by checks leave only check faults. -/
theorem foldlM_completeClosure_checksOnly {closures : List (SessionM σ (List (Nat × α)))}
    (h : ∀ c ∈ closures, ∀ s, ChecksOnly (c.run.run s).1) :
    ∀ (state : List α × Option Fault), (∀ fault, state.2 = some fault →
      ∃ message, fault = .checkFailed message) → ∀ s, ∃ state' s',
        (closures.foldlM completeClosure state).run.run s = (.ok state', s') ∧
        ∀ fault, state'.2 = some fault → ∃ message, fault = .checkFailed message := by
  induction closures with
  | nil => exact fun state hstate s => ⟨state, s, rfl, hstate⟩
  | cons c rest ih =>
      intro state hstate s
      rw [List.foldlM_cons, SessionM.run_bind]
      simp only [completeClosure, SessionM.run_tryCatch, SessionM.run_bind]
      have hc := h c (List.mem_cons_self _ _) s
      rcases hrun : c.run.run s with ⟨_ | writes, s'⟩
      · rw [hrun] at hc
        obtain ⟨message, rfl⟩ := hc _ rfl
        exact ih (fun c' hc' => h c' (List.mem_cons_of_mem _ hc')) _
          (fun fault hfault => ⟨message, (Option.some.inj hfault).symm⟩) s'
      · exact ih (fun c' hc' => h c' (List.mem_cons_of_mem _ hc')) (scatter state.1 writes, state.2)
          hstate s'

theorem multiWait_checksOnly {closures : List (SessionM σ (List (Nat × α)))}
    (h : ∀ c ∈ closures, ∀ s, ChecksOnly (c.run.run s).1) (results : List α) (s : σ) :
    ChecksOnly ((multiWait closures results).run.run s).1 := by
  obtain ⟨state, s', hloop, hfault⟩ :=
    foldlM_completeClosure_checksOnly h (results, none) (fun _ h => nomatch h) s
  rw [multiWait, SessionM.run_bind, hloop]
  rcases hstate : state.2 with _ | fault
  · simp only [hstate]
    exact checksOnly_ok _
  · obtain ⟨message, rfl⟩ := hfault _ hstate
    simp only [hstate, SessionM.run_throw]
    exact checksOnly_checkFailed message

theorem foldlM_completeClosure_preserves {closures : List (SessionM σ (List (Nat × α)))}
    (h : ∀ c ∈ closures, ∀ s, Inv s → Inv (c.run.run s).2) :
    ∀ (state : List α × Option Fault) (s : σ), Inv s →
      Inv ((closures.foldlM completeClosure state).run.run s).2 := by
  induction closures with
  | nil => exact fun _ _ hs => hs
  | cons c rest ih =>
      intro state s hs
      have hc := h c (List.mem_cons_self _ _) s hs
      rw [List.foldlM_cons, SessionM.run_bind]
      simp only [completeClosure, SessionM.run_tryCatch, SessionM.run_bind]
      rcases hrun : c.run.run s with ⟨_ | writes, s'⟩ <;> rw [hrun] at hc <;>
        exact ih (fun c' hc' => h c' (List.mem_cons_of_mem _ hc')) _ s' hc

/-- Closures that each keep an invariant of the state, whether they return or throw, keep it
under `MultiWait`. -/
theorem multiWait_preserves {closures : List (SessionM σ (List (Nat × α)))}
    (h : ∀ c ∈ closures, ∀ s, Inv s → Inv (c.run.run s).2) (results : List α) (s : σ)
    (hs : Inv s) : Inv ((multiWait closures results).run.run s).2 := by
  have hloop := foldlM_completeClosure_preserves Inv h (results, none) s hs
  rw [multiWait, SessionM.run_bind]
  rcases hrun : (closures.foldlM completeClosure (results, none)).run.run s with
    ⟨_ | ⟨r, _ | fault⟩, s'⟩ <;> rw [hrun] at hloop <;> exact hloop

/-- One closure under `MultiWait` is the closure with its writes applied. -/
theorem multiWait_singleton (c : SessionM σ (List (Nat × α))) (results : List α) (s : σ) :
    (multiWait [c] results).run.run s = match c.run.run s with
      | (.ok writes, s') => (.ok (scatter results writes), s')
      | (.error e, s') => (.error e, s') := by
  rw [multiWait, SessionM.run_bind, List.foldlM_cons, SessionM.run_bind]
  simp only [completeClosure, SessionM.run_tryCatch, SessionM.run_bind]
  rcases c.run.run s with ⟨_ | writes, s'⟩ <;> rfl

end MultiWait

end XrtClient
