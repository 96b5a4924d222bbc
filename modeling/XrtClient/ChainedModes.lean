import XrtClient.Chained

/-! # The chained and split paths agree

The two paths of `ExecuteChained` read a reference without `output_index` differently: the plan
encodes it as `0`, the whole output of the op, while split mode reads
`output_index.value_or(0)` from the list of outputs it keeps, and keeps a tuple result as its
elements. They also differ in what they check: split mode checks that every argument lives on
the device, the chained path checks nothing of device data.

This module states the lists on which the difference cannot show (`ReadsAlike`), gives the
meaning of such a list (`Server.chainedMeaning`: the value of each op and the shape and value
of each result slot), and proves that each path computes that meaning.
-/

namespace XrtClient

variable {V : Type}

/-- The shape of an op's whole output. -/
def ExecuteChainedOp.shape (op : ExecuteChainedOp V) : Shape :=
  match op.source with
  | .deviceData data => data.shape
  | .computation computation => computation.resultShape

/-- Whether a reference with this `output_index` reads the same output of the op in both
paths: an element below the arity of a computation's tuple result, or the whole output of any
other op. -/
def ExecuteChainedOp.readsAlike (op : ExecuteChainedOp V) (outputIndex : Option Nat) : Bool :=
  match op.source, outputIndex with
  | .computation ⟨_, .tuple elements⟩, some k => k < elements.length
  | .computation ⟨_, .tuple _⟩, none => false
  | _, none => true
  | _, some _ => false

/-- Whether the op, if device data, lives on the device. -/
def ExecuteChainedOp.onDevice (device : DeviceId) (op : ExecuteChainedOp V) : Bool :=
  match op.source with
  | .deviceData data => data.device = device
  | .computation _ => true

/-- An op after the ops `pre` that both paths read alike: a device-data op has no inputs, every
input names an op of `pre` that lives on the device and reads it alike, and every output reads
the op itself alike. -/
structure OpReadsAlike (device : DeviceId) (pre : List (ExecuteChainedOp V))
    (op : ExecuteChainedOp V) : Prop where
  data_inputs : op.isComputation = false → op.inputs = []
  inputs : ∀ input ∈ op.inputs, ∃ producer, pre[input.opIndex]? = some producer ∧
    producer.onDevice device = true ∧ producer.readsAlike input.outputIndex = true
  outputs : ∀ output ∈ op.outputs, op.readsAlike output.outputIndex = true

/-- The op lists whose ops all read alike, built op by op. -/
inductive ReadsAlike (device : DeviceId) : List (ExecuteChainedOp V) → Prop
  | nil : ReadsAlike device []
  | snoc {pre : List (ExecuteChainedOp V)} {op : ExecuteChainedOp V} :
      ReadsAlike device pre → OpReadsAlike device pre op → ReadsAlike device (pre ++ [op])

/-- One more than the largest `result_index` of the ops' outputs: the number of result slots. -/
def slotCount (ops : List (ExecuteChainedOp V)) : Nat :=
  (ops.flatMap ExecuteChainedOp.outputs).foldl (fun count output => max count (output.resultIndex + 1)) 0

theorem ReadsAlike.opReadsAlike {device : DeviceId} {ops : List (ExecuteChainedOp V)}
    (h : ReadsAlike device ops) {k : Nat} {op : ExecuteChainedOp V} (hop : ops[k]? = some op) :
    OpReadsAlike device (ops.take k) op := by
  induction h with
  | nil => simp at hop
  | @snoc pre last _ hlast ih =>
      rcases Nat.lt_or_ge k pre.length with hk | hk
      · rw [List.getElem?_append_left hk] at hop
        rw [List.take_append_of_le_length hk.le]
        exact ih hop
      · rw [List.getElem?_append_right hk] at hop
        obtain ⟨hlt, rfl⟩ := List.getElem?_eq_some_iff.mp hop
        obtain rfl : k = pre.length := by simp at hlt; omega
        rw [List.take_left]
        simpa using hlast

/-- Every input of a list both paths read alike names an op of the list. -/
theorem ReadsAlike.opIndex_lt {device : DeviceId} {ops : List (ExecuteChainedOp V)}
    (h : ReadsAlike device ops) : ∀ op ∈ ops, ∀ input ∈ op.inputs, input.opIndex < ops.length := by
  intro op hop input hinput
  obtain ⟨k, hk⟩ := List.mem_iff_getElem?.mp hop
  obtain ⟨_, hproducer, -⟩ := (h.opReadsAlike hk).inputs input hinput
  have hlt := (List.getElem?_eq_some_iff.mp hproducer).1
  simp only [List.length_take] at hlt
  omega

/-! ## Result slots -/

section Slots

variable {α β : Type}

/-- `slots[index] = x` after growing the slots, as both paths store a result. -/
def storeSlot (slots : List (Option α)) (index : Nat) (x : α) : List (Option α) :=
  (growSlots none slots index).set index (some x)

@[simp] theorem length_growSlots (fill : α) (slots : List α) (index : Nat) :
    (growSlots fill slots index).length = max slots.length (index + 1) := by
  unfold growSlots
  split
  · simp only [List.length_append, List.length_replicate]
    omega
  · omega

theorem map_growSlots (f : α → β) (fill : α) (slots : List α) (index : Nat) :
    (growSlots fill slots index).map f = growSlots (f fill) (slots.map f) index := by
  unfold growSlots
  by_cases h : slots.length ≤ index <;> simp [h]

@[simp] theorem length_storeSlot (slots : List (Option α)) (index : Nat) (x : α) :
    (storeSlot slots index x).length = max slots.length (index + 1) := by
  simp [storeSlot]

theorem map_storeSlot (f : α → β) (slots : List (Option α)) (index : Nat) (x : α) :
    (storeSlot slots index x).map (Option.map f) = storeSlot (slots.map (Option.map f)) index (f x) := by
  simp [storeSlot, List.map_set, map_growSlots]

/-- A stored slot stays filled, and the slot written last is filled. -/
theorem isSome_storeSlot {slots : List (Option α)} {index r : Nat} (x : α)
    (h : r = index ∨ ∃ y, slots[r]? = some (some y)) :
    ∃ y, (storeSlot slots index x)[r]? = some (some y) := by
  unfold storeSlot
  rw [List.getElem?_set]
  by_cases hr : index = r
  · subst hr
    exact ⟨x, by simp⟩
  · obtain ⟨y, hy⟩ := h.resolve_left (Ne.symm hr)
    refine ⟨y, ?_⟩
    rw [if_neg hr]
    unfold growSlots
    split
    · rw [List.getElem?_append_left (List.getElem?_eq_some_iff.mp hy).1, hy]
    · exact hy

end Slots

/-! ## What an op list means -/

/-- The shape a reference with this `output_index` reads from an output of shape `shape`. -/
def pickShape (shape : Shape) : Option Nat → Shape
  | none => shape
  | some k =>
      match shape with
      | .tuple elements => elements.getD k unsetShape
      | .array .. => unsetShape

/-- The value a reference with this `output_index` reads from an op's value `v`. -/
def Server.pick (server : Server V) (v : V) : Option Nat → V
  | none => v
  | some k => server.element v k

/-- The outputs an op of `ops` stores, in order, each with its shape and value. -/
def ExecuteChainedOp.stores (server : Server V) (op : ExecuteChainedOp V) (value : V) :
    List (Nat × (Shape × V)) :=
  op.outputs.map fun output =>
    (output.resultIndex, pickShape op.shape output.outputIndex, server.pick value output.outputIndex)

section Meaning

variable (server : Server V) [Inhabited V]

/-- The value of an op, from the values of the ops before it. -/
def Server.opMeaning (values : List V) (op : ExecuteChainedOp V) : V :=
  match op.source with
  | .deviceData data => data.handle
  | .computation computation => server.run computation.handle
      (op.inputs.map fun input => server.pick (values.getD input.opIndex default) input.outputIndex)

/-- What one op adds to the meaning: its value, and its outputs stored in the result slots. -/
def Server.meaningStep (state : List V × List (Option (Shape × V))) (op : ExecuteChainedOp V) :
    List V × List (Option (Shape × V)) :=
  let value := server.opMeaning state.1 op
  (state.1 ++ [value], (op.stores server value).foldl (fun slots w => storeSlot slots w.1 w.2) state.2)

/-- The meaning of an op list: the value of each op, and the shape and value in each result
slot, as the last output stored there gives them. -/
def Server.chainedMeaning (ops : List (ExecuteChainedOp V)) : List V × List (Option (Shape × V)) :=
  ops.foldl server.meaningStep ([], [])

theorem Server.chainedMeaning_snoc (pre : List (ExecuteChainedOp V)) (op : ExecuteChainedOp V) :
    server.chainedMeaning (pre ++ [op]) = server.meaningStep (server.chainedMeaning pre) op := by
  simp [chainedMeaning, List.foldl_append]

theorem Server.length_chainedMeaning_values (ops : List (ExecuteChainedOp V)) :
    (server.chainedMeaning ops).1.length = ops.length := by
  induction ops using List.reverseRecOn with
  | nil => rfl
  | append_singleton pre op ih => simp [chainedMeaning_snoc, meaningStep, ih]

theorem length_foldl_storeSlot {α : Type} (writes : List (Nat × α)) :
    ∀ slots : List (Option α), (writes.foldl (fun slots w => storeSlot slots w.1 w.2) slots).length =
      writes.foldl (fun count w => max count (w.1 + 1)) slots.length := by
  induction writes with
  | nil => intro _; rfl
  | cons w rest ih => intro slots; simp [ih]

theorem Server.length_chainedMeaning_slots (ops : List (ExecuteChainedOp V)) :
    (server.chainedMeaning ops).2.length = slotCount ops := by
  induction ops using List.reverseRecOn with
  | nil => rfl
  | append_singleton pre op ih =>
      rw [chainedMeaning_snoc, meaningStep, length_foldl_storeSlot, ih]
      simp only [slotCount, List.flatMap_append, List.flatMap_singleton, List.foldl_append,
        ExecuteChainedOp.stores, List.foldl_map]

/-- Every slot some output writes is filled. -/
theorem isSome_foldl_storeSlot {α : Type} (writes : List (Nat × α)) :
    ∀ (slots : List (Option α)) (r : Nat), (r ∈ writes.map Prod.fst ∨ ∃ y, slots[r]? = some (some y)) →
      ∃ y, (writes.foldl (fun slots w => storeSlot slots w.1 w.2) slots)[r]? = some (some y) := by
  induction writes with
  | nil => intro slots r h; simpa using h
  | cons w rest ih =>
      intro slots r h
      refine ih _ r ?_
      by_cases hr : r ∈ rest.map Prod.fst
      · exact .inl hr
      · refine .inr (isSome_storeSlot w.2 ?_)
        simp only [List.map_cons, List.mem_cons] at h
        tauto

theorem Server.isSome_chainedMeaning_slots (ops : List (ExecuteChainedOp V)) {r : Nat}
    (hr : ∃ op ∈ ops, ∃ output ∈ op.outputs, output.resultIndex = r) :
    ∃ y, (server.chainedMeaning ops).2[r]? = some (some y) := by
  induction ops using List.reverseRecOn with
  | nil => simp at hr
  | append_singleton pre op ih =>
      rw [chainedMeaning_snoc]
      apply isSome_foldl_storeSlot
      simp only [List.mem_append, List.mem_singleton] at hr
      obtain ⟨op', hop' | rfl, output, houtput, rfl⟩ := hr
      · exact .inr (ih ⟨op', hop', output, houtput, rfl⟩)
      · exact .inl (by simp [ExecuteChainedOp.stores]; exact ⟨output, houtput, rfl⟩)

end Meaning

theorem map_foldl_storeSlot {α β : Type} (f : α → β) (writes : List (Nat × α)) :
    ∀ slots : List (Option α), (writes.foldl (fun slots w => storeSlot slots w.1 w.2) slots).map
        (Option.map f) =
      (writes.map fun w => (w.1, f w.2)).foldl (fun slots w => storeSlot slots w.1 w.2)
        (slots.map (Option.map f)) := by
  induction writes with
  | nil => intro _; rfl
  | cons w rest ih => intro slots; simp [ih, map_storeSlot]

/-! ## The chained path computes the meaning -/

/-- How the plan encodes an `output_index`: `0` for none, `k + 1` for element `k`. -/
def encodeOutputIndex (outputIndex : Option Nat) : Nat :=
  (outputIndex.map (· + 1)).getD 0

/-- The plan op the chained path builds for an op. -/
def ExecuteChainedOp.planOp (op : ExecuteChainedOp V) : PlanOp V :=
  ⟨match op.source with
    | .deviceData data => .dataHandle data.handle
    | .computation computation => .computationHandle computation.handle
        (op.inputs.map fun input => ⟨input.opIndex, encodeOutputIndex input.outputIndex⟩),
   op.outputs.map fun output => ⟨output.resultIndex, encodeOutputIndex output.outputIndex⟩⟩

/-- The entry `result_shapes` has for a result slot: its shape, or a default-constructed one. -/
def slotShape (slot : Option (Shape × V)) : Shape :=
  (slot.map Prod.fst).getD unsetShape

theorem Server.planPick_encodeOutputIndex (server : Server V) (v : V) (outputIndex : Option Nat) :
    server.planPick v (encodeOutputIndex outputIndex) = server.pick v outputIndex := by
  cases outputIndex <;> rfl

theorem getTupleElementShape_of_readsAlike {op : ExecuteChainedOp V} {k : Nat}
    (h : op.readsAlike (some k) = true) :
    op.shape.getTupleElementShape k = .ok (pickShape op.shape (some k)) := by
  obtain ⟨source, inputs, outputs⟩ := op
  cases source with
  | deviceData data => simp [ExecuteChainedOp.readsAlike] at h
  | computation computation =>
      obtain ⟨handle, resultShape⟩ := computation
      cases resultShape with
      | array => simp [ExecuteChainedOp.readsAlike] at h
      | tuple elements =>
          have hk : k < elements.length := by simpa [ExecuteChainedOp.readsAlike] using h
          simp [ExecuteChainedOp.shape, Shape.getTupleElementShape, pickShape, hk]

theorem planOutput_eq {op : ExecuteChainedOp V} {output : ChainedOutput}
    (h : op.readsAlike output.outputIndex = true) (plan : List PlanOutput)
    (slots : List (Option (Shape × V))) (value : V) :
    planOutput op.shape (plan, slots.map slotShape) output =
      .ok (plan ++ [⟨output.resultIndex, encodeOutputIndex output.outputIndex⟩],
        (storeSlot slots output.resultIndex (pickShape op.shape output.outputIndex, value)).map
          slotShape) := by
  obtain ⟨resultIndex, outputIndex⟩ := output
  have hshapes : ∀ shape, (growSlots unsetShape (slots.map slotShape) resultIndex).set resultIndex
      shape = (storeSlot slots resultIndex (shape, value)).map slotShape := fun shape => by
    simp [storeSlot, List.map_set, map_growSlots, slotShape]
  cases outputIndex with
  | none => simp [planOutput, hshapes, pickShape]; rfl
  | some k => simp [planOutput, getTupleElementShape_of_readsAlike h, hshapes]; rfl

theorem foldlM_planOutput {op : ExecuteChainedOp V} (server : Server V) (value : V) :
    ∀ {outputs : List ChainedOutput}, (∀ output ∈ outputs, op.readsAlike output.outputIndex = true) →
      ∀ plan (slots : List (Option (Shape × V))),
        outputs.foldlM (planOutput op.shape) (plan, slots.map slotShape) =
          .ok (plan ++ outputs.map fun output => ⟨output.resultIndex, encodeOutputIndex output.outputIndex⟩,
            ((outputs.map fun output => (output.resultIndex, pickShape op.shape output.outputIndex,
              server.pick value output.outputIndex)).foldl (fun slots w => storeSlot slots w.1 w.2)
                slots).map slotShape)
  | [], _, plan, slots => by simp; rfl
  | output :: rest, h, plan, slots => by
      rw [List.foldlM_cons, planOutput_eq (h output (List.mem_cons_self _ _)) plan slots
        (server.pick value output.outputIndex), ok_bind,
        foldlM_planOutput server value (fun o ho => h o (List.mem_cons_of_mem _ ho))]
      simp

theorem planSource_eq {i : Nat} {op : ExecuteChainedOp V}
    (hinputs : ∀ input ∈ op.inputs, input.opIndex < i) :
    planSource i op = .ok (op.planOp.source, op.shape) := by
  obtain ⟨source, inputs, outputs⟩ := op
  cases source with
  | deviceData data => rfl
  | computation computation =>
      simp only [planSource, planInputs]
      rw [mapM_eq_ok_map fun input hinput => by
        rw [xlaCheck_of_true _ (hinputs input hinput)]; rfl]
      rfl

section ChainedPath

variable (server : Server V) [Inhabited V] {device : DeviceId}

/-- The plan the chained path builds is the ops' plan ops, with `result_shapes` the shapes of
the meaning's result slots. -/
theorem foldlM_planChainedOp {ops : List (ExecuteChainedOp V)} (hreads : ReadsAlike device ops) :
    ops.enum.foldlM planChainedOp ([], []) =
      .ok (ops.map ExecuteChainedOp.planOp, (server.chainedMeaning ops).2.map slotShape) := by
  induction hreads with
  | nil => rfl
  | @snoc pre op _ hop ih =>
      have hinputs : ∀ input ∈ op.inputs, input.opIndex < pre.length := fun input hinput => by
        obtain ⟨_, hproducer, -⟩ := hop.inputs input hinput
        exact (List.getElem?_eq_some_iff.mp hproducer).1
      rw [List.enum_append, List.enumFrom_singleton, List.foldlM_append, ih, ok_bind,
        List.foldlM_cons]
      simp only [planChainedOp, planSource_eq hinputs, ok_bind]
      rw [foldlM_planOutput server (server.opMeaning (server.chainedMeaning pre).1 op) hop.outputs]
      simp [Server.chainedMeaning_snoc, Server.meaningStep, ExecuteChainedOp.stores]
      rfl

theorem Server.opValue_planOp {pre : List (ExecuteChainedOp V)} {op : ExecuteChainedOp V}
    (hop : OpReadsAlike device pre op) {values : List V} (hvalues : values.length = pre.length) :
    server.opValue values op.planOp.source = .ok (server.opMeaning values op) := by
  obtain ⟨source, inputs, outputs⟩ := op
  cases source with
  | deviceData data => rfl
  | computation computation =>
      simp only [ExecuteChainedOp.planOp, opValue, mapM_map]
      rw [mapM_eq_ok_map fun input hinput => ?_]
      · rfl
      obtain ⟨_, hproducer, -⟩ := hop.inputs input hinput
      have hlt : input.opIndex < values.length :=
        hvalues ▸ (List.getElem?_eq_some_iff.mp hproducer).1
      simp [List.getElem?_eq_getElem hlt, List.getD_eq_getElem?_getD, planPick_encodeOutputIndex]

/-- The server runs the plan ops to the meaning's values, and fills the meaning's slots with
their values. -/
theorem Server.foldlM_chainedStep {ops : List (ExecuteChainedOp V)} (hreads : ReadsAlike device ops) :
    (ops.map ExecuteChainedOp.planOp).foldlM server.chainedStep ([], []) =
      .ok ((server.chainedMeaning ops).1, (server.chainedMeaning ops).2.map (Option.map Prod.snd)) := by
  induction hreads with
  | nil => rfl
  | @snoc pre op _ hop ih =>
      rw [List.map_append, List.map_singleton, List.foldlM_append, ih, ok_bind, List.foldlM_cons]
      simp only [chainedStep, server.opValue_planOp hop (server.length_chainedMeaning_values pre),
        ok_bind, chainedMeaning_snoc, meaningStep, map_foldl_storeSlot]
      simp [ExecuteChainedOp.planOp, ExecuteChainedOp.stores, List.foldl_map, storeSlot,
        planPick_encodeOutputIndex]
      rfl

end ChainedPath

/-- `handles_vec` read back with `result_shapes`, one `XrtData` per slot. -/
theorem mapM_resultShapes (device : DeviceId) (ys : List (Shape × V)) :
    (ys.map Prod.snd).enum.mapM (fun entry => do
        let shape ← vectorAt "result_shapes" ((ys.map some).map slotShape) entry.1
        pure (⟨device, shape, entry.2⟩ : XrtData V)) =
      .ok (ys.map fun y => ⟨device, y.1, y.2⟩) := by
  rw [List.enum_map, mapM_map, mapM_eq_ok_map (g := fun e => ⟨device, e.2.1, e.2.2⟩)]
  · rw [show (fun e : Nat × (Shape × V) => (⟨device, e.2.1, e.2.2⟩ : XrtData V)) =
      (fun y : Shape × V => ⟨device, y.1, y.2⟩) ∘ Prod.snd from rfl, ← List.map_map, List.enum_map_snd]
  · intro e he
    have hget : ys[e.1]? = some e.2 := List.mem_enum_iff_getElem?.mp he
    simp [vectorAt, hget, slotShape]

theorem exists_eq_map_some {α : Type} :
    ∀ {slots : List (Option α)}, (∀ slot ∈ slots, ∃ y, slot = some y) → ∃ ys : List α, slots = ys.map some
  | [], _ => ⟨[], rfl⟩
  | slot :: rest, h => by
      obtain ⟨y, rfl⟩ := h slot (List.mem_cons_self _ _)
      obtain ⟨ys, rfl⟩ := exists_eq_map_some fun s hs => h s (List.mem_cons_of_mem _ hs)
      exact ⟨y :: ys, rfl⟩

/-- Without a result slot that no output writes, the meaning fills every slot. -/
theorem Server.chainedMeaning_filled (server : Server V) [Inhabited V] {ops : List (ExecuteChainedOp V)}
    (hfilled : ∀ r < slotCount ops, ∃ op ∈ ops, ∃ output ∈ op.outputs, output.resultIndex = r) :
    ∃ ys : List (Shape × V), (server.chainedMeaning ops).2 = ys.map some := by
  refine exists_eq_map_some fun slot hslot => ?_
  obtain ⟨r, hr⟩ := List.mem_iff_getElem?.mp hslot
  have hlt : r < slotCount ops :=
    server.length_chainedMeaning_slots ops ▸ (List.getElem?_eq_some_iff.mp hr).1
  obtain ⟨y, hy⟩ := server.isSome_chainedMeaning_slots ops (hfilled r hlt)
  rw [hr] at hy
  exact ⟨y, Option.some.inj hy⟩

/-- On a list both paths read alike and with no empty result slot, the chained path issues its
one `session->Run` and returns, slot by slot, the shape and value of the meaning. -/
theorem executeChainedXrt_eq_meaning (opts : Options) (server : Server V) [Inhabited V]
    {device : DeviceId} {target : String} (hdevice : opts.sessionTarget device = .ok target)
    {ops : List (ExecuteChainedOp V)} (hreads : ReadsAlike device ops)
    (hfilled : ∀ r < slotCount ops, ∃ op ∈ ops, ∃ output ∈ op.outputs, output.resultIndex = r)
    (log : List (SessionRun V)) :
    ∃ chained : List (XrtData V), (executeChainedXrt opts server ops device).run.run log =
        (.ok chained, log ++ [.executeChained (ops.map ExecuteChainedOp.planOp)]) ∧
      chained.map (fun data => some (data.shape, data.handle)) = (server.chainedMeaning ops).2 := by
  obtain ⟨ys, hys⟩ := server.chainedMeaning_filled hfilled
  have hserver : server.executeChained (ops.map ExecuteChainedOp.planOp) = .ok (ys.map Prod.snd) := by
    rw [Server.executeChained, server.foldlM_chainedStep hreads, ok_bind, hys, List.map_map,
      mapM_map]
    exact mapM_eq_ok_map fun _ _ => rfl
  refine ⟨ys.map fun y => ⟨device, y.1, y.2⟩, ?_, by simp [hys]⟩
  simp only [executeChainedXrt, SessionM.run_bind, SessionM.run_ofExcept, hdevice,
    foldlM_planChainedOp server hreads, SessionM.run_issueRun, hserver, hys, mapM_resultShapes]

/-! ## Split mode computes the meaning -/

section Succeeds

variable {α β : Type}

/-- From every log, `m` returns a value satisfying `post`. -/
def Succeeds (post : α → Prop) (m : ChainedM V α) : Prop :=
  ∀ log, ∃ a, (m.run.run log).1 = .ok a ∧ post a

theorem succeeds_ofExcept {post : α → Prop} {x : Except Fault α} {a : α} (hx : x = .ok a)
    (ha : post a) : Succeeds post (SessionM.ofExcept x : ChainedM V α) :=
  fun _ => ⟨a, by simp [hx], ha⟩

theorem succeeds_pure {post : α → Prop} {a : α} (ha : post a) :
    Succeeds post (pure a : ChainedM V α) :=
  fun _ => ⟨a, rfl, ha⟩

theorem succeeds_issueRun (run : SessionRun V) : Succeeds (fun _ => True) (issueRun run) :=
  fun _ => ⟨(), rfl, trivial⟩

theorem succeeds_bind {P : α → Prop} {Q : β → Prop} {m : ChainedM V α} {f : α → ChainedM V β}
    (hm : Succeeds P m) (hf : ∀ a, P a → Succeeds Q (f a)) : Succeeds Q (m >>= f) := by
  intro log
  obtain ⟨a, ha, hP⟩ := hm log
  rw [SessionM.run_bind]
  rcases hrun : m.run.run log with ⟨result, log'⟩
  rw [hrun] at ha
  cases ha
  exact hf a hP log'

end Succeeds

/-- How many inputs of the ops from position `k` on name op `j`: the count split mode keeps in
`uses[j]` before op `k`. -/
def useCount (ops : List (ExecuteChainedOp V)) (k j : Nat) : Int :=
  ((ops.drop k).flatMap ExecuteChainedOp.inputs).countP (·.opIndex == j)

theorem useCount_succ {ops : List (ExecuteChainedOp V)} {k : Nat} (hk : k < ops.length) (j : Nat) :
    useCount ops k j = useCount ops (k + 1) j + ops[k].inputs.countP (·.opIndex == j) := by
  simp only [useCount, List.drop_eq_getElem_cons hk, List.flatMap_cons, List.countP_append]
  omega

theorem useCount_pos {ops : List (ExecuteChainedOp V)} {k : Nat} {op : ExecuteChainedOp V}
    (hop : ops[k]? = some op) {input : ChainedInput} (hinput : input ∈ op.inputs) :
    0 < useCount ops k input.opIndex := by
  obtain ⟨hk, rfl⟩ := List.getElem?_eq_some_iff.mp hop
  have : 0 < ((ops.drop k).flatMap ExecuteChainedOp.inputs).countP (·.opIndex == input.opIndex) :=
    List.countP_pos_iff.mpr ⟨input, List.mem_flatMap.mpr ⟨ops[k], by
      rw [List.drop_eq_getElem_cons hk]; exact List.mem_cons_self _ _, hinput⟩, by simp⟩
  simp only [useCount]
  omega

/-- `countUses` counts, for each op, the inputs that name it. -/
theorem foldlM_countUses {count : Nat} :
    ∀ (inputs : List ChainedInput) (uses : List Int), (∀ input ∈ inputs, input.opIndex < count) →
      uses.length = count →
      ∃ uses', inputs.foldlM (fun uses input => do
          let n ← vectorAt "uses" uses input.opIndex
          pure (uses.set input.opIndex (n + 1))) uses = .ok uses' ∧ uses'.length = count ∧
        ∀ j < count, uses'[j]? = uses[j]?.map fun n : Int => n + (inputs.countP (·.opIndex == j) : Nat)
  | [], uses, _, hlength => ⟨uses, rfl, hlength, fun j _ => by cases uses[j]? <;> simp⟩
  | input :: rest, uses, hinputs, hlength => by
      have hlt : input.opIndex < uses.length := hlength ▸ hinputs input (List.mem_cons_self _ _)
      obtain ⟨uses', hfold, hlength', hcounts⟩ := foldlM_countUses rest
        (uses.set input.opIndex (uses[input.opIndex] + 1))
        (fun i hi => hinputs i (List.mem_cons_of_mem _ hi)) (by simpa using hlength)
      refine ⟨uses', by rw [List.foldlM_cons, vectorAt_of_lt _ _ _ hlt]; exact hfold, hlength',
        fun j hj => ?_⟩
      rw [hcounts j hj, List.getElem?_set]
      by_cases hij : input.opIndex = j
      · subst hij
        simp [List.getElem?_eq_getElem hlt, List.countP_cons]
        omega
      · simp [hij, List.countP_cons]

theorem countUses_eq {ops : List (ExecuteChainedOp V)}
    (hrange : ∀ op ∈ ops, ∀ input ∈ op.inputs, input.opIndex < ops.length) :
    ∃ uses, countUses ops = .ok uses ∧ uses.length = ops.length ∧
      ∀ j < ops.length, uses[j]? = some (useCount ops 0 j) := by
  obtain ⟨uses, hfold, hlength, hcounts⟩ := foldlM_countUses (ops.flatMap ExecuteChainedOp.inputs)
    (List.replicate ops.length 0)
    (fun input hinput => by
      obtain ⟨op, hop, hinput⟩ := List.mem_flatMap.mp hinput
      exact hrange op hop input hinput) (by simp)
  exact ⟨uses, hfold, hlength, fun j hj => by simp [hcounts j hj, hj, useCount]⟩

theorem dropUse_eq {uses : List Int} {opsOutputs : List (List (XrtData V))} {input : ChainedInput}
    {u : Int} (hu : uses[input.opIndex]? = some u) (ho : input.opIndex < opsOutputs.length) :
    dropUse (uses, opsOutputs) input = .ok (uses.set input.opIndex (u - 1),
      if u - 1 = 0 then opsOutputs.set input.opIndex [] else opsOutputs) := by
  have hvec : vectorAt "uses" uses input.opIndex = .ok u := by simp [vectorAt, hu]
  simp only [dropUse, hvec, ok_bind]
  by_cases h : u - 1 = 0
  · simp [h, vectorAt_of_lt _ _ _ ho]
  · simp [h]
    rfl

/-- The drops after op `k`: each named op loses one use per input naming it, and an op that
some input names loses its outputs exactly when that many uses were left, its count reaching
zero at the last of them. -/
theorem foldlM_dropUse {count : Nat} (inputs : List ChainedInput) :
    ∀ (uses : List Int) (opsOutputs : List (List (XrtData V))),
      (∀ input ∈ inputs, input.opIndex < count) → uses.length = count →
      opsOutputs.length = count →
      (∀ j < count, ∃ u, uses[j]? = some u ∧ ((inputs.countP (·.opIndex == j) : Nat) : Int) ≤ u) →
      ∃ kept, inputs.foldlM dropUse (uses, opsOutputs) = .ok kept ∧
        kept.1.length = count ∧ kept.2.length = count ∧
        (∀ j < count, kept.1[j]? = uses[j]?.map fun u : Int => u - (inputs.countP (·.opIndex == j) : Nat)) ∧
        ∀ j < count, kept.2[j]? = if inputs.countP (·.opIndex == j) ≠ 0 ∧
          uses[j]? = some ((inputs.countP (·.opIndex == j) : Nat) : Int) then some [] else opsOutputs[j]? := by
  induction inputs with
  | nil => exact fun uses opsOutputs _ hu ho _ =>
      ⟨(uses, opsOutputs), rfl, hu, ho, fun j _ => by cases uses[j]? <;> simp, fun j _ => by simp⟩
  | cons input rest ih =>
      intro uses opsOutputs hinputs hu ho hcount
      have hi : input.opIndex < count := hinputs input (List.mem_cons_self _ _)
      obtain ⟨u, hui, hle⟩ := hcount input.opIndex hi
      have hcons : ∀ j, (input :: rest).countP (·.opIndex == j) =
          rest.countP (·.opIndex == j) + if input.opIndex = j then 1 else 0 := fun j => by
        by_cases h : input.opIndex = j <;> simp [List.countP_cons, h]
      have huses' : ∀ j, (uses.set input.opIndex (u - 1))[j]? =
          if input.opIndex = j then some (u - 1) else uses[j]? := fun j => by
        rw [List.getElem?_set]
        by_cases h : input.opIndex = j
        · rw [if_pos h, if_pos h, if_pos (hu ▸ hi)]
        · rw [if_neg h, if_neg h]
      have houts' : ∀ j, (if u - 1 = 0 then opsOutputs.set input.opIndex [] else opsOutputs)[j]? =
          if input.opIndex = j ∧ u - 1 = 0 then some [] else opsOutputs[j]? := fun j => by
        by_cases hij : input.opIndex = j
        · subst j
          by_cases h : u - 1 = 0 <;> simp [h, List.getElem?_set, ho ▸ hi]
        · by_cases h : u - 1 = 0 <;> simp [h, hij, List.getElem?_set]
      obtain ⟨kept, hfold, h1, h2, hkuses, hkouts⟩ := ih (uses.set input.opIndex (u - 1))
        (if u - 1 = 0 then opsOutputs.set input.opIndex [] else opsOutputs)
        (fun x hx => hinputs x (List.mem_cons_of_mem _ hx)) (by simpa using hu)
        (by split <;> simpa using ho) fun j hj => by
          rw [huses']
          split
          · subst j
            rw [hcons, if_pos rfl] at hle
            exact ⟨u - 1, rfl, by omega⟩
          · obtain ⟨u', hu', hle'⟩ := hcount j hj
            exact ⟨u', hu', by rwa [hcons, if_neg ‹_›, Nat.add_zero] at hle'⟩
      refine ⟨kept, by rw [List.foldlM_cons, dropUse_eq hui (ho ▸ hi), ok_bind]; exact hfold,
        h1, h2, fun j hj => ?_, fun j hj => ?_⟩
      · rw [hkuses j hj, huses', hcons j]
        split
        · subst j
          simp [hui]
          omega
        · simp
      · rw [hkouts j hj, huses', houts', hcons j]
        by_cases hij : input.opIndex = j
        · subst j
          rw [hcons, if_pos rfl] at hle
          simp only [if_true, true_and, Option.some.injEq, hui]
          split_ifs <;> first | rfl | omega
        · simp only [hij, false_and, ↓reduceIte, Nat.add_zero]

/-- The outputs split mode keeps for an op of value `v`: the device data itself, the elements of
a tuple result as `GetComputationResults` builds them, or the whole result. -/
def ExecuteChainedOp.splitOutputs (server : Server V) (device : DeviceId) (op : ExecuteChainedOp V)
    (v : V) : List (XrtData V) :=
  match op.source with
  | .deviceData data => [data]
  | .computation computation =>
      match computation.resultShape with
      | .tuple elements => (List.range elements.length).map fun k =>
          ⟨device, elements.getD k unsetShape, server.element v k⟩
      | .array .. => [⟨device, computation.resultShape, v⟩]

theorem getComputationResults_execute (server : Server V) (device : DeviceId)
    (computation : XrtComputation) (handles : List V) :
    getComputationResults (server.execute computation handles) computation.resultShape device =
      .ok ((⟨.computation computation, [], []⟩ : ExecuteChainedOp V).splitOutputs server device
        (server.run computation.handle handles)) := by
  obtain ⟨handle, resultShape⟩ := computation
  cases resultShape with
  | array => rfl
  | tuple elements =>
      simp only [Server.execute, getComputationResults]
      rw [mapM_eq_ok_map (g := fun e => ⟨device, elements.getD e.1 unsetShape, e.2⟩)]
      · congr 1
        refine List.ext_getElem (by simp [ExecuteChainedOp.splitOutputs]) fun k _ hk => ?_
        simp [ExecuteChainedOp.splitOutputs, List.getElem_enum]
      · intro e he
        have hlt : e.1 < elements.length := by simpa using (List.mem_enum he).1
        simp [Shape.getTupleElementShape, hlt, List.getD_eq_getElem?_getD,
          List.getElem?_eq_getElem hlt]

section SplitPath

variable (server : Server V) [Inhabited V] (device : DeviceId)

/-- A reference that reads alike finds, among the outputs split mode keeps for the op, the
shape and value the meaning gives it, on the device if the op is. -/
theorem splitOutputs_read {op : ExecuteChainedOp V} {outputIndex : Option Nat}
    (h : op.readsAlike outputIndex = true) (values : List V) :
    ∃ data, (op.splitOutputs server device (server.opMeaning values op))[outputIndex.getD 0]? =
        some data ∧ (data.shape, data.handle) =
          (pickShape op.shape outputIndex, server.pick (server.opMeaning values op) outputIndex) ∧
      (op.onDevice device = true → data.device = device) := by
  obtain ⟨source, inputs, outputs⟩ := op
  cases source with
  | deviceData data =>
      cases outputIndex with
      | none => exact ⟨data, rfl, rfl, by simp [ExecuteChainedOp.onDevice]⟩
      | some k => simp [ExecuteChainedOp.readsAlike] at h
  | computation computation =>
      obtain ⟨handle, resultShape⟩ := computation
      cases resultShape with
      | array =>
          cases outputIndex with
          | none => exact ⟨_, rfl, rfl, fun _ => rfl⟩
          | some k => simp [ExecuteChainedOp.readsAlike] at h
      | tuple elements =>
          cases outputIndex with
          | none => simp [ExecuteChainedOp.readsAlike] at h
          | some k =>
              have hk : k < elements.length := by simpa [ExecuteChainedOp.readsAlike] using h
              exact ⟨_, by simp [ExecuteChainedOp.splitOutputs, hk]; rfl, by
                simp [pickShape, ExecuteChainedOp.shape, Server.pick, List.getElem?_eq_getElem hk],
                fun _ => rfl⟩

/-- The value the meaning gives op `j` stays among the values of every longer prefix. -/
theorem Server.getElem?_chainedMeaning_values {ops : List (ExecuteChainedOp V)} {j : Nat}
    {op : ExecuteChainedOp V} (hop : ops[j]? = some op) :
    ∀ {k : Nat}, j < k → k ≤ ops.length →
      (server.chainedMeaning (ops.take k)).1[j]? =
        some (server.opMeaning (server.chainedMeaning (ops.take j)).1 op) := by
  intro k
  induction k with
  | zero => exact fun hj => absurd hj (Nat.not_lt_zero j)
  | succ k ih =>
    intro hj hk
    have hlength := server.length_chainedMeaning_values (ops.take k)
    rw [List.length_take, min_eq_left (by omega)] at hlength
    rw [List.take_succ, List.getElem?_eq_getElem (by omega : k < ops.length), Option.toList_some,
      chainedMeaning_snoc, meaningStep]
    rcases Nat.lt_succ_iff_lt_or_eq.mp hj with hj | rfl
    · rw [List.getElem?_append_left (by omega), ih hj (by omega)]
    · obtain ⟨_, rfl⟩ := List.getElem?_eq_some_iff.mp hop
      simp [hlength]

/-- One output stored from the kept outputs of its op. -/
theorem storeChainedOutput_eq {op : ExecuteChainedOp V} {output : ChainedOutput}
    (h : op.readsAlike output.outputIndex = true) (values : List V)
    (results : List (Option (XrtData V))) :
    ∃ data, storeChainedOutput (op.splitOutputs server device (server.opMeaning values op)) results
        output = .ok (storeSlot results output.resultIndex data) ∧ (data.shape, data.handle) =
          (pickShape op.shape output.outputIndex,
            server.pick (server.opMeaning values op) output.outputIndex) := by
  obtain ⟨data, hdata, hvalue, -⟩ := splitOutputs_read server device h values
  have hlt := (List.getElem?_eq_some_iff.mp hdata).1
  refine ⟨data, ?_, hvalue⟩
  simp only [storeChainedOutput, xlaCheck_of_true _ hlt, ok_bind, vectorAt, hdata]
  rfl

theorem foldlM_storeChainedOutput {op : ExecuteChainedOp V} (values : List V) :
    ∀ {outputs : List ChainedOutput}, (∀ output ∈ outputs, op.readsAlike output.outputIndex = true) →
      ∀ results : List (Option (XrtData V)), ∃ results',
        outputs.foldlM (storeChainedOutput (op.splitOutputs server device
          (server.opMeaning values op))) results = .ok results' ∧
        results'.map (Option.map fun data => (data.shape, data.handle)) =
          (outputs.map fun output => (output.resultIndex, pickShape op.shape output.outputIndex,
            server.pick (server.opMeaning values op) output.outputIndex)).foldl
            (fun slots w => storeSlot slots w.1 w.2)
            (results.map (Option.map fun data => (data.shape, data.handle)))
  | [], _, results => ⟨results, rfl, rfl⟩
  | output :: rest, h, results => by
      obtain ⟨data, hstore, hvalue⟩ :=
        storeChainedOutput_eq server device (h output (List.mem_cons_self _ _)) values results
      obtain ⟨results', hfold, hmap⟩ := foldlM_storeChainedOutput values
        (fun o ho => h o (List.mem_cons_of_mem _ ho)) (storeSlot results output.resultIndex data)
      refine ⟨results', by rw [List.foldlM_cons, hstore, ok_bind]; exact hfold, ?_⟩
      rw [hmap, map_storeSlot, hvalue]
      rfl

/-- What split mode holds before op `k`: the uses of every op by the inputs of ops `k` on, the
outputs of every earlier op that still has a use, no outputs of later ops, and the result slots
of the meaning of the ops before `k`. -/
structure SplitInvariant (ops : List (ExecuteChainedOp V)) (k : Nat) (state : SplitState V) :
    Prop where
  uses_length : state.uses.length = ops.length
  outputs_length : state.opsOutputs.length = ops.length
  uses : ∀ j < ops.length, state.uses[j]? = some (useCount ops k j)
  kept : ∀ j < k, useCount ops k j ≠ 0 → ∃ producer, ops[j]? = some producer ∧
    state.opsOutputs[j]? = some (producer.splitOutputs server device
      (server.opMeaning (server.chainedMeaning (ops.take j)).1 producer))
  fresh : ∀ j, k ≤ j → j < ops.length → state.opsOutputs[j]? = some []
  results : state.results.map (Option.map fun data => (data.shape, data.handle)) =
    (server.chainedMeaning (ops.take k)).2

variable {server device}

/-- An input of op `k` finds its argument among the kept outputs, on the device, with the value
the meaning gives it. -/
theorem chainedArgument_eq {ops : List (ExecuteChainedOp V)} {k : Nat} {state : SplitState V}
    (hinv : SplitInvariant server device ops k state) {op : ExecuteChainedOp V}
    (hop : ops[k]? = some op) (hreads : OpReadsAlike device (ops.take k) op) {input : ChainedInput}
    (hinput : input ∈ op.inputs) :
    ∃ data, chainedArgument k state.opsOutputs input = .ok data ∧
      data.handle = server.pick ((server.chainedMeaning (ops.take k)).1.getD input.opIndex default)
        input.outputIndex ∧ data.device = device := by
  obtain ⟨producer, hproducer, hdevice, hreadsAlike⟩ := hreads.inputs input hinput
  rw [List.getElem?_take] at hproducer
  split at hproducer
  case isFalse => cases hproducer
  case isTrue hlt =>
    have hk : k ≤ ops.length := (List.getElem?_eq_some_iff.mp hop).1.le
    obtain ⟨producer', hproducer', hkept⟩ :=
      hinv.kept input.opIndex hlt (by have := useCount_pos hop hinput; omega)
    rw [hproducer] at hproducer'
    cases hproducer'
    obtain ⟨data, hdata, hvalue, hon⟩ := splitOutputs_read server device hreadsAlike
      (server.chainedMeaning (ops.take input.opIndex)).1
    obtain ⟨-, hhandle⟩ := Prod.mk.inj hvalue
    refine ⟨data, ?_, ?_, hon hdevice⟩
    · have hout := (List.getElem?_eq_some_iff.mp hdata).1
      simp only [chainedArgument, xlaCheck_of_true _ hlt, ok_bind, vectorAt, hkept,
        xlaCheck_of_true _ hout, hdata]
    · rw [hhandle, List.getD_eq_getElem?_getD,
        server.getElem?_chainedMeaning_values hproducer hlt hk]
      rfl

/-- Op `k` yields the outputs split mode keeps for its meaning: device data pushes itself onto
its empty list, a computation runs on the arguments the meaning gives it. -/
theorem runChainedOp_succeeds {ops : List (ExecuteChainedOp V)} {k : Nat} {state : SplitState V}
    (hinv : SplitInvariant server device ops k state) {op : ExecuteChainedOp V}
    (hop : ops[k]? = some op) (hreads : OpReadsAlike device (ops.take k) op) :
    Succeeds (· = op.splitOutputs server device
        (server.opMeaning (server.chainedMeaning (ops.take k)).1 op))
      (runChainedOp server device state.opsOutputs k op) := by
  have hk := (List.getElem?_eq_some_iff.mp hop).1
  obtain ⟨source, inputs, outputs⟩ := op
  cases source with
  | deviceData data =>
      have hfresh : vectorAt "ops_outputs" state.opsOutputs k = .ok [] := by
        simp [vectorAt, hinv.fresh k le_rfl hk]
      exact succeeds_bind (succeeds_ofExcept hfresh rfl) fun _ h => succeeds_pure (by subst h; rfl)
  | computation computation =>
      obtain ⟨arguments, harguments, hhandles, hdevices⟩ := mapM_ok_of_forall_map
        (g := XrtData.handle) (P := fun data : XrtData V => data.device = device)
        fun input hinput => chainedArgument_eq hinv hop hreads hinput
      have hinputs : getArgumentsInputs arguments device = .ok (arguments.map XrtData.handle) :=
        mapM_eq_ok_map fun data hdata => by
          rw [xlaCheck_of_true _ (hdevices data hdata).symm]; rfl
      refine succeeds_bind (succeeds_ofExcept harguments rfl) fun _ h => ?_
      subst h
      refine succeeds_bind (succeeds_ofExcept hinputs rfl) fun _ h => ?_
      subst h
      refine succeeds_bind (succeeds_issueRun _) fun _ _ =>
        succeeds_ofExcept (getComputationResults_execute server device computation _) ?_
      rw [hhandles]
      rfl

/-- One op of split mode keeps the invariant: the uses drop by the op's inputs, the op's outputs
are kept while they have a use, and its outputs are stored as the meaning stores them. -/
theorem splitStep_succeeds {ops : List (ExecuteChainedOp V)} {k : Nat} {state : SplitState V}
    (hinv : SplitInvariant server device ops k state) {op : ExecuteChainedOp V}
    (hop : ops[k]? = some op) (hreads : OpReadsAlike device (ops.take k) op)
    (hrange : ∀ input ∈ op.inputs, input.opIndex < ops.length) :
    Succeeds (SplitInvariant server device ops (k + 1)) (splitStep server device state (k, op)) := by
  obtain ⟨hk, rfl⟩ := List.getElem?_eq_some_iff.mp hop
  have hcount : ∀ j, useCount ops k j = useCount ops (k + 1) j +
      (ops[k].inputs.countP (·.opIndex == j) : Nat) := useCount_succ hk
  have hnonneg : ∀ j, 0 ≤ useCount ops (k + 1) j := fun j => by simp only [useCount]; omega
  refine succeeds_bind (runChainedOp_succeeds hinv hop hreads) fun outputs houtputs => ?_
  subst houtputs
  obtain ⟨results, hresults, hmap⟩ := foldlM_storeChainedOutput server device
    (server.chainedMeaning (ops.take k)).1 hreads.outputs state.results
  refine succeeds_bind (succeeds_ofExcept hresults rfl) fun _ h => ?_
  subst h
  obtain ⟨kept, hkept, h1, h2, huses, houts⟩ := foldlM_dropUse ops[k].inputs state.uses
    (state.opsOutputs.set k _) hrange hinv.uses_length (by simp [hinv.outputs_length])
    fun j hj => ⟨_, hinv.uses j hj, by have := hcount j; have := hnonneg j; omega⟩
  refine succeeds_bind (succeeds_ofExcept hkept rfl) fun _ h => succeeds_pure ?_
  subst h
  have hmeaning : server.chainedMeaning (ops.take (k + 1)) =
      server.meaningStep (server.chainedMeaning (ops.take k)) ops[k] := by
    rw [List.take_succ, List.getElem?_eq_getElem hk, Option.toList_some, Server.chainedMeaning_snoc]
  refine ⟨h1, h2, fun j hj => ?_, fun j hj hne => ?_, fun j hj hj' => ?_, ?_⟩
  · rw [huses j hj, hinv.uses j hj]
    simp [hcount j]
  · have hstay : ¬(ops[k].inputs.countP (·.opIndex == j) ≠ 0 ∧
        state.uses[j]? = some ((ops[k].inputs.countP (·.opIndex == j) : Nat) : Int)) :=
      fun ⟨_, h⟩ => hne (by rw [hinv.uses j (by omega), Option.some.injEq, hcount j] at h; omega)
    rw [houts j (by omega), if_neg hstay, List.getElem?_set]
    rcases Nat.lt_succ_iff_lt_or_eq.mp hj with hj | rfl
    · rw [if_neg (Nat.ne_of_gt hj)]
      exact hinv.kept j hj (by have := hcount j; have := hnonneg j; omega)
    · exact ⟨ops[j], List.getElem?_eq_getElem hk, by simp [hinv.outputs_length, hk]⟩
  · rw [houts j hj', List.getElem?_set_ne (by omega), hinv.fresh j (by omega) hj', ite_self]
  · rw [hmap, hinv.results, hmeaning]
    rfl

theorem foldlM_splitStep {ops : List (ExecuteChainedOp V)} (hreads : ReadsAlike device ops)
    (init : SplitState V) (hinit : SplitInvariant server device ops 0 init) :
    ∀ k ≤ ops.length, Succeeds (SplitInvariant server device ops k)
      ((ops.take k).enum.foldlM (splitStep server device) init)
  | 0, _ => succeeds_pure hinit
  | k + 1, hk => by
      have hget := List.getElem?_eq_getElem (show k < ops.length by omega)
      rw [List.take_succ, hget, Option.toList_some, List.enum_append, List.enumFrom_singleton,
        List.length_take, min_eq_left (by omega), List.foldlM_append]
      exact succeeds_bind (foldlM_splitStep hreads init hinit k (by omega)) fun _ hs =>
        succeeds_bind (splitStep_succeeds hs hget (hreads.opReadsAlike hget)
          (hreads.opIndex_lt _ (List.getElem_mem _))) fun _ hs' => succeeds_pure hs'

variable (server device)

/-- On a list both paths read alike, split mode returns the meaning's result slots, slot by
slot in shape and value. -/
theorem executeChainedSplit_eq_meaning (opts : Options) {target : String}
    (hdevice : opts.sessionTarget device = .ok target) {ops : List (ExecuteChainedOp V)}
    (hreads : ReadsAlike device ops) (log : List (SessionRun V)) :
    ∃ split, ((executeChainedSplit opts server ops device).run.run log).1 = .ok split ∧
      split.map (Option.map fun data => (data.shape, data.handle)) = (server.chainedMeaning ops).2 := by
  obtain ⟨uses, huses, hlength, hcounts⟩ := countUses_eq hreads.opIndex_lt
  have hinit : SplitInvariant server device ops 0 ⟨uses, List.replicate ops.length [], []⟩ :=
    ⟨hlength, by simp, hcounts, fun j hj => absurd hj (Nat.not_lt_zero j),
      fun j _ hj => by simp [hj], rfl⟩
  have hloop := foldlM_splitStep hreads _ hinit ops.length le_rfl
  rw [List.take_length] at hloop
  refine succeeds_bind (succeeds_ofExcept huses rfl) (fun _ h => ?_) log
  subst h
  exact succeeds_bind (succeeds_ofExcept hdevice rfl) fun _ _ =>
    succeeds_bind hloop fun _ hs => succeeds_pure (by rw [hs.results, List.take_length])

end SplitPath

/-- On an op list both paths read alike and with no empty result slot, the chained path and
split mode both succeed and return `slotCount ops` results that agree slot by slot in shape and
value. -/
theorem executeChained_modes_agree (opts : Options) (server : Server V)
    (ops : List (ExecuteChainedOp V)) (device : DeviceId) {target : String}
    (hdevice : opts.sessionTarget device = .ok target) (hreads : ReadsAlike device ops)
    (hfilled : ∀ r < slotCount ops, ∃ op ∈ ops, ∃ output ∈ op.outputs, output.resultIndex = r)
    (log : List (SessionRun V)) :
    ∃ chained split, ((executeChainedXrt opts server ops device).run.run log).1 = .ok chained ∧
      ((executeChainedSplit opts server ops device).run.run log).1 = .ok split ∧
      chained.length = slotCount ops ∧
      chained.map (fun data => some (data.shape, data.handle)) =
        split.map (Option.map fun data => (data.shape, data.handle)) := by
  letI : Inhabited V := ⟨server.run 0 []⟩
  obtain ⟨chained, hchained, hmeaning⟩ :=
    executeChainedXrt_eq_meaning opts server hdevice hreads hfilled log
  obtain ⟨split, hsplit, hmeaning'⟩ :=
    executeChainedSplit_eq_meaning server device opts hdevice hreads log
  refine ⟨chained, split, by rw [hchained], hsplit, ?_, hmeaning.trans hmeaning'.symm⟩
  rw [← List.length_map chained, hmeaning, server.length_chainedMeaning_slots]

/-- Device data on `TPU:0`, a computation that returns a pair from it, and a computation on the
pair's second element: each input and output reads alike and both result slots are written. -/
def pairChain : List (ExecuteChainedOp Nat) :=
  [⟨.deviceData ⟨⟨"TPU", 0⟩, .array .F32 [2] [0], 7⟩, [], []⟩,
    ⟨.computation ⟨5, .tuple [.array .F32 [2] [0], .array .F32 [3] [0]]⟩, [⟨0, none⟩], [⟨0, some 1⟩]⟩,
    ⟨.computation ⟨6, .array .F32 [3] [0]⟩, [⟨1, some 1⟩], [⟨1, none⟩]⟩]

theorem readsAlike_pairChain : ReadsAlike ⟨"TPU", 0⟩ pairChain := by
  show ReadsAlike _ (([] ++ [_]) ++ [_] ++ [_])
  refine .snoc (.snoc (.snoc .nil ?_) ?_) ?_ <;>
  refine ⟨by decide, fun input hinput => ?_, by decide⟩ <;>
  simp only [List.mem_cons, List.mem_singleton, List.not_mem_nil, or_false] at hinput <;> subst hinput <;> exact ⟨_, rfl, rfl, rfl⟩

theorem executeChained_modes_agree_pairChain :
    ∃ chained split, ((executeChainedXrt sharedWorkerOptions numberServer pairChain
        ⟨"TPU", 0⟩).run.run []).1 = .ok chained ∧
      ((executeChainedSplit sharedWorkerOptions numberServer pairChain ⟨"TPU", 0⟩).run.run []).1 =
        .ok split ∧ chained.length = slotCount pairChain ∧
      chained.map (fun data => some (data.shape, data.handle)) =
        split.map (Option.map fun data => (data.shape, data.handle)) :=
  executeChained_modes_agree sharedWorkerOptions numberServer pairChain ⟨"TPU", 0⟩
    rfl readsAlike_pairChain (by decide) []

/-- A computation whose tuple result is read whole, without an `output_index`. -/
def tupleReadWhole : List (ExecuteChainedOp Nat) :=
  [⟨.computation ⟨5, .tuple [.array .F32 [2] [0], .array .F32 [3] [0]]⟩, [], [⟨0, none⟩]⟩]

/-- A device-data op read with an `output_index`. -/
def dataReadByIndex : List (ExecuteChainedOp Nat) :=
  [⟨.deviceData ⟨⟨"TPU", 0⟩, .tuple [.array .F32 [2] [0], .array .F32 [3] [0]], 7⟩, [], [⟨0, some 1⟩]⟩]

/-- An op list that writes result slot 1 and leaves slot 0 unwritten. -/
def gapChain : List (ExecuteChainedOp Nat) :=
  [⟨.computation ⟨5, .array .F32 [2] [0]⟩, [], [⟨1, none⟩]⟩]

/-- A computation that reads device data living on `TPU:1` while the chain runs on `TPU:0`. -/
def otherDeviceData : List (ExecuteChainedOp Nat) :=
  [⟨.deviceData ⟨⟨"TPU", 1⟩, .array .F32 [2] [0], 7⟩, [], []⟩,
    ⟨.computation ⟨5, .array .F32 [2] [0]⟩, [⟨0, none⟩], [⟨0, none⟩]⟩]

/-- Each condition of the agreement is needed: the whole tuple against its first element, an
`output_index` on device data, an unwritten slot, and device data from another device each make
the two paths part ways. -/
theorem executeChained_modes_diverge :
    (∃ chained split,
        ((executeChainedXrt sharedWorkerOptions numberServer tupleReadWhole ⟨"TPU", 0⟩).run.run
          []).1 = .ok chained ∧
        ((executeChainedSplit sharedWorkerOptions numberServer tupleReadWhole ⟨"TPU", 0⟩).run.run
          []).1 = .ok split ∧
        chained.map (fun data => some data.handle) ≠ split.map (Option.map XrtData.handle)) ∧
      ((∃ chained, ((executeChainedXrt sharedWorkerOptions numberServer dataReadByIndex
          ⟨"TPU", 0⟩).run.run []).1 = .ok chained) ∧
        ∃ fault, ((executeChainedSplit sharedWorkerOptions numberServer dataReadByIndex
          ⟨"TPU", 0⟩).run.run []).1 = .error fault) ∧
      ((∃ fault, ((executeChainedXrt sharedWorkerOptions numberServer gapChain
          ⟨"TPU", 0⟩).run.run []).1 = .error fault) ∧
        ∃ split, ((executeChainedSplit sharedWorkerOptions numberServer gapChain
          ⟨"TPU", 0⟩).run.run []).1 = .ok split) ∧
      ((∃ chained, ((executeChainedXrt sharedWorkerOptions numberServer otherDeviceData
          ⟨"TPU", 0⟩).run.run []).1 = .ok chained) ∧
        ∃ fault, ((executeChainedSplit sharedWorkerOptions numberServer otherDeviceData
          ⟨"TPU", 0⟩).run.run []).1 = .error fault) :=
  ⟨⟨_, _, rfl, rfl, by decide⟩, ⟨⟨_, rfl⟩, _, rfl⟩, ⟨⟨_, rfl⟩, _, rfl⟩, ⟨⟨_, rfl⟩, _, rfl⟩⟩

/-! ## Use counts of split mode

On every op list whose inputs name earlier ops, whatever the ops compute: at the start of
iteration `k` of `ExecuteChainedSplit`, `uses[p]` counts the inputs of ops `k` on that name `p`.
So `ops_outputs[p]` holds the outputs `p` produced until the end of the last op that names it,
and is cleared then; every input of op `k` reads its producer's outputs. -/

theorem SessionM.run_bind_eq_ok {σ α β : Type} {m : SessionM σ α} {f : α → SessionM σ β}
    {s s' : σ} {b : β} (h : (m >>= f).run.run s = (.ok b, s')) :
    ∃ a s₁, m.run.run s = (.ok a, s₁) ∧ (f a).run.run s₁ = (.ok b, s') := by
  rw [SessionM.run_bind] at h
  rcases hm : m.run.run s with ⟨_ | a, s₁⟩
  · rw [hm] at h
    cases congrArg Prod.fst h
  · exact ⟨a, s₁, rfl, by simpa [hm] using h⟩

theorem useCount_le {ops : List (ExecuteChainedOp V)} {j k : Nat} (h : j ≤ k) (p : Nat) :
    useCount ops k p ≤ useCount ops j p := by
  have hsplit : ops.drop j = (ops.drop j).take (k - j) ++ ops.drop k := by
    rw [show ops.drop k = (ops.drop j).drop (k - j) by rw [List.drop_drop, Nat.add_sub_cancel' h],
      List.take_append_drop]
  simp only [useCount]
  rw [hsplit, List.flatMap_append, List.countP_append]
  omega

section UseCounts

variable (server : Server V) (device : DeviceId) (ops : List (ExecuteChainedOp V)) (uses : List Int)
  (log : List (SessionRun V))

/-- The state of `ExecuteChainedSplit`'s loop at the start of iteration `k`, from the counts
`uses` and the log `log`, with the log of the `session->Run`s issued until then. -/
def splitRunTo (k : Nat) : Except Fault (SplitState V) × List (SessionRun V) :=
  ((ops.take k).enum.foldlM (splitStep server device)
    ⟨uses, List.replicate ops.length [], []⟩).run.run log

/-- What the loop holds at the start of iteration `k`: the counts of the inputs of ops `k` on;
for each earlier op, the outputs it produced in its own iteration, cleared once the last op
naming it has run; no outputs of later ops. -/
structure UseInvariant (k : Nat) (state : SplitState V) : Prop where
  uses_length : state.uses.length = ops.length
  outputs_length : state.opsOutputs.length = ops.length
  counts : ∀ p < ops.length, state.uses[p]? = some (useCount ops k p)
  produced : ∀ p < k, ∃ op pre logp outputs logr, ops[p]? = some op ∧
    splitRunTo server device ops uses log p = (.ok pre, logp) ∧
    (runChainedOp server device pre.opsOutputs p op).run.run logp = (.ok outputs, logr) ∧
    state.opsOutputs[p]? =
      some (if useCount ops k p = 0 ∧ useCount ops (p + 1) p ≠ 0 then [] else outputs)
  fresh : ∀ p, k ≤ p → p < ops.length → state.opsOutputs[p]? = some []

variable {server device ops uses log}

/-- Iteration `k` of the loop, taken apart: op `k` produces its outputs, stores them into the
results and drops the uses of its inputs. -/
theorem splitRunTo_succ {k : Nat} {op : ExecuteChainedOp V} (hop : ops[k]? = some op)
    {state' : SplitState V} {log' : List (SessionRun V)}
    (h : splitRunTo server device ops uses log (k + 1) = (.ok state', log')) :
    ∃ state logk outputs logr results kept,
      splitRunTo server device ops uses log k = (.ok state, logk) ∧
      (runChainedOp server device state.opsOutputs k op).run.run logk = (.ok outputs, logr) ∧
      op.outputs.foldlM (storeChainedOutput outputs) state.results = .ok results ∧
      op.inputs.foldlM dropUse (state.uses, state.opsOutputs.set k outputs) = .ok kept ∧
      state' = ⟨kept.1, kept.2, results⟩ := by
  have hk := (List.getElem?_eq_some_iff.mp hop).1
  rw [splitRunTo, List.take_succ, hop, Option.toList_some, List.enum_append, List.enumFrom_singleton,
    List.length_take, min_eq_left hk.le, List.foldlM_append] at h
  obtain ⟨state, logk, hstate, h⟩ := SessionM.run_bind_eq_ok h
  simp only [List.foldlM_cons, List.foldlM_nil, bind_pure] at h
  dsimp only [splitStep] at h
  have hstep := h
  obtain ⟨outputs, logr, hrun, hstep⟩ := SessionM.run_bind_eq_ok hstep
  obtain ⟨results, log₂, hresults, hstep⟩ := SessionM.run_bind_eq_ok hstep
  obtain ⟨kept, log₃, hkept, hstep⟩ := SessionM.run_bind_eq_ok hstep
  rw [SessionM.run_ofExcept] at hresults hkept
  exact ⟨state, logk, outputs, logr, results, kept, hstate, hrun, (Prod.mk.inj hresults).1,
    (Prod.mk.inj hkept).1, (Except.ok.inj (Prod.mk.inj hstep).1).symm⟩

/-- Under the forward rule no op names itself or a later op. -/
theorem countP_opIndex_eq_zero {ops : List (ExecuteChainedOp V)}
    (hforward : ∀ i (hi : i < ops.length), ∀ input ∈ ops[i].inputs, input.opIndex < i) {k : Nat}
    (hk : k < ops.length) {p : Nat} (hp : k ≤ p) : ops[k].inputs.countP (·.opIndex == p) = 0 :=
  List.countP_eq_zero.mpr fun input hinput => by
    simpa using (Nat.lt_of_lt_of_le (hforward k hk input hinput) hp).ne

variable (server device) in
/-- Every state the loop reaches keeps `UseInvariant`. -/
theorem useInvariant_splitRunTo
    (hforward : ∀ i (hi : i < ops.length), ∀ input ∈ ops[i].inputs, input.opIndex < i)
    (huses : countUses ops = .ok uses) :
    ∀ k ≤ ops.length, ∀ {state : SplitState V} {logk : List (SessionRun V)},
      splitRunTo server device ops uses log k = (.ok state, logk) →
      UseInvariant server device ops uses log k state := by
  intro k
  induction k with
  | zero =>
      intro _ state logk h
      have h0 : splitRunTo server device ops uses log 0 =
          (.ok ⟨uses, List.replicate ops.length [], []⟩, log) := rfl
      rw [h0] at h
      cases h
      have hrange : ∀ op ∈ ops, ∀ input ∈ op.inputs, input.opIndex < ops.length :=
        fun op hop input hinput => by
          obtain ⟨i, hi, rfl⟩ := List.getElem_of_mem hop
          exact (hforward i hi input hinput).trans hi
      obtain ⟨uses', huses', hlength, hcounts⟩ := countUses_eq hrange
      rw [huses] at huses'
      cases huses'
      exact ⟨hlength, by simp, hcounts, fun p hp => absurd hp (Nat.not_lt_zero p),
        fun p _ hp => by simp [hp]⟩
  | succ k ih =>
      intro hk state' log' h
      have hk' : k < ops.length := hk
      obtain ⟨state, logk, outputs, logr, results, kept, hstate, hrun, -, hkept, rfl⟩ :=
        splitRunTo_succ (List.getElem?_eq_getElem hk') h
      have hinv := ih hk'.le hstate
      have hcount : ∀ p, useCount ops k p =
          useCount ops (k + 1) p + (ops[k].inputs.countP (·.opIndex == p) : Nat) := useCount_succ hk'
      have hnonneg : ∀ p, 0 ≤ useCount ops (k + 1) p := fun p => by simp only [useCount]; omega
      obtain ⟨kept', hkept', h1, h2, hkuses, houts⟩ :=
        foldlM_dropUse ops[k].inputs state.uses (state.opsOutputs.set k outputs)
          (fun input hinput => (hforward k hk' input hinput).trans hk') hinv.uses_length
          (by simp [hinv.outputs_length])
          fun j hj => ⟨_, hinv.counts j hj, by have := hcount j; have := hnonneg j; omega⟩
      rw [hkept] at hkept'
      cases hkept'
      have hself : ∀ p, k ≤ p → ops[k].inputs.countP (·.opIndex == p) = 0 :=
        fun p hp => countP_opIndex_eq_zero hforward hk' hp
      have huses' : ∀ p < ops.length, kept.1[p]? = some (useCount ops (k + 1) p) := fun p hp => by
        rw [hkuses p hp, hinv.counts p hp]
        simp [hcount p]
      have hkouts : ∀ p < ops.length, kept.2[p]? =
          if ops[k].inputs.countP (·.opIndex == p) ≠ 0 ∧ useCount ops (k + 1) p = 0 then some []
          else (state.opsOutputs.set k outputs)[p]? := fun p hp => by
        rw [houts p hp]
        exact if_congr (by rw [hinv.counts p hp, Option.some.injEq, hcount p]; omega) rfl rfl
      refine ⟨h1, h2, huses', fun p hp => ?_, fun p hp hp' => ?_⟩
      · rcases Nat.lt_succ_iff_lt_or_eq.mp hp with hp | hp
        · obtain ⟨op, pre, logp, outs, logr', hop, hpre, hrunp, hout⟩ := hinv.produced p hp
          refine ⟨op, pre, logp, outs, logr', hop, hpre, hrunp, ?_⟩
          have hpk : k ≠ p := by omega
          by_cases hc : ops[k].inputs.countP (·.opIndex == p) = 0
          · rw [hkouts p (by omega), if_neg fun h => h.1 hc, List.getElem?_set_ne hpk, hout]
            simp [hcount p, hc]
          have hused : 0 < useCount ops k p := by have := hcount p; have := hnonneg p; omega
          have hnamed : useCount ops (p + 1) p ≠ 0 := by
            have : useCount ops k p ≤ useCount ops (p + 1) p := useCount_le (by omega) p
            omega
          rw [if_neg fun h => hused.ne' h.1] at hout
          by_cases hzero : useCount ops (k + 1) p = 0
          · rw [if_pos ⟨hzero, hnamed⟩, hkouts p (by omega), if_pos ⟨hc, hzero⟩]
          · rw [if_neg fun h => hzero h.1, hkouts p (by omega), if_neg fun h => hzero h.2,
              List.getElem?_set_ne hpk, hout]
        · subst p
          refine ⟨ops[k], state, logk, outputs, logr, List.getElem?_eq_getElem hk', hstate, hrun, ?_⟩
          rw [if_neg fun h => h.2 h.1, hkouts k hk', if_neg fun h => h.1 (hself k le_rfl),
            List.getElem?_set_self (by rw [hinv.outputs_length]; exact hk')]
      · rw [hkouts p hp', if_neg fun h => h.1 (hself p (by omega)), List.getElem?_set_ne (by omega)]
        exact hinv.fresh p (by omega) hp'

end UseCounts

/-- Split mode on any op list whose inputs name earlier ops: at the start of iteration `k`,
`uses[p]` counts the inputs of ops `k` on that name `p`; an earlier op holds the outputs it
produced in its own iteration until the last op naming it has run, and has them cleared from
then on; a later op has none yet; and every input of op `k` finds the outputs its producer
produced. -/
theorem executeChainedSplit_use_counts (server : Server V) (device : DeviceId)
    {ops : List (ExecuteChainedOp V)}
    (hforward : ∀ i (hi : i < ops.length), ∀ input ∈ ops[i].inputs, input.opIndex < i)
    {uses : List Int} (huses : countUses ops = .ok uses) (log : List (SessionRun V)) {k : Nat}
    (hk : k ≤ ops.length) {state : SplitState V} {logk : List (SessionRun V)}
    (hstate : splitRunTo server device ops uses log k = (.ok state, logk)) :
    (∀ p < ops.length, state.uses[p]? = some (useCount ops k p)) ∧
    (∀ p < k, ∃ op pre logp outputs logr, ops[p]? = some op ∧
      splitRunTo server device ops uses log p = (.ok pre, logp) ∧
      (runChainedOp server device pre.opsOutputs p op).run.run logp = (.ok outputs, logr) ∧
      state.opsOutputs[p]? =
        some (if useCount ops k p = 0 ∧ useCount ops (p + 1) p ≠ 0 then [] else outputs)) ∧
    (∀ p, k ≤ p → p < ops.length → state.opsOutputs[p]? = some []) ∧
    ∀ (hk' : k < ops.length), ∀ input ∈ ops[k].inputs, ∃ producer pre logp outputs logr,
      ops[input.opIndex]? = some producer ∧
      splitRunTo server device ops uses log input.opIndex = (.ok pre, logp) ∧
      (runChainedOp server device pre.opsOutputs input.opIndex producer).run.run logp =
        (.ok outputs, logr) ∧
      state.opsOutputs[input.opIndex]? = some outputs := by
  have hinv := useInvariant_splitRunTo server device hforward huses k hk hstate
  refine ⟨hinv.counts, hinv.produced, hinv.fresh, fun hk' input hinput => ?_⟩
  obtain ⟨producer, pre, logp, outputs, logr, hop, hpre, hrun, hout⟩ :=
    hinv.produced _ (hforward k hk' input hinput)
  have hused := useCount_pos (List.getElem?_eq_getElem hk') hinput
  exact ⟨producer, pre, logp, outputs, logr, hop, hpre, hrun,
    by rwa [if_neg fun h => hused.ne' h.1] at hout⟩

theorem executeChainedSplit_use_counts_pairChain :
    (∀ i (hi : i < pairChain.length), ∀ input ∈ pairChain[i].inputs, input.opIndex < i) ∧
      countUses pairChain = .ok [1, 1, 0] ∧ 2 ≤ pairChain.length ∧
      ∃ state logk, splitRunTo numberServer ⟨"TPU", 0⟩ pairChain [1, 1, 0] [] 2 = (.ok state, logk) ∧
        ∀ p < pairChain.length, state.uses[p]? = some (useCount pairChain 2 p) :=
  ⟨by decide, rfl, by decide, _, _, rfl,
    (@executeChainedSplit_use_counts Nat numberServer ⟨"TPU", 0⟩ pairChain (by decide) [1, 1, 0] rfl []
      2 (by decide) _ _ rfl).1⟩

end XrtClient
