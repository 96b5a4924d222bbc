import XrtClient.Basic
import Mathlib.Algebra.Order.Ring.Nat

/-! # Chained execution

`ExecuteChained` runs a list of ops on one device: device data, or a computation applied to
outputs of earlier ops, each op storing some of its outputs in result slots. By default
(`ExecuteChainedXrt`) the client compiles the list into one `XRTChainedExecutePlan` that the
server runs in a single `session->Run`; with `XRT_SPLIT_CHAINED_EXEC` set
(`ExecuteChainedSplit`) the client runs each computation in a `session->Run` of its own, keeps
every op's outputs until its last consumer has run, and fills the result slots as it goes.

The server is left abstract (`Server`): a handle stands for the value it names, a compiled
program maps argument values to its result value, and a tuple value has elements. Every call
logs the `session->Run`s it issues, so that what a call does before it fails can be read off
the log.
-/

namespace XrtClient

/-- `ExecuteChainedOp::Input`: output `output_index` of op `op_index`. -/
structure ChainedInput where
  opIndex : Nat
  outputIndex : Option Nat
  deriving DecidableEq, Repr

/-- `ExecuteChainedOp::Output`: an output of the op goes to result slot `result_index`. -/
structure ChainedOutput where
  resultIndex : Nat
  outputIndex : Option Nat
  deriving DecidableEq, Repr

/-- What an `ExecuteChainedOp` runs: its `device_data`, or its `computation` when that is
null. -/
inductive ChainedSource (V : Type) where
  | deviceData (data : XrtData V)
  | computation (computation : XrtComputation)

/-- `ComputationClient::ExecuteChainedOp`. -/
structure ExecuteChainedOp (V : Type) where
  source : ChainedSource V
  inputs : List ChainedInput
  outputs : List ChainedOutput

/-- `xrt::XRTChainedExecuteOp::Input`: an `output_index` of `0` names the whole output of op
`op_index` and `k + 1` its element `k`. -/
structure PlanInput where
  opIndex : Nat
  outputIndex : Nat
  deriving DecidableEq, Repr

/-- `xrt::XRTChainedExecuteOp::Output`, its `output_index` read as in `PlanInput`. -/
structure PlanOutput where
  resultIndex : Nat
  outputIndex : Nat
  deriving DecidableEq, Repr

/-- The `op_oneof` of `xrt::XRTChainedExecuteOp`. -/
inductive PlanSource (V : Type) where
  | dataHandle (handle : V)
  | computationHandle (handle : Int) (inputs : List PlanInput)
  deriving DecidableEq, Repr

/-- `xrt::XRTChainedExecuteOp`. -/
structure PlanOp (V : Type) where
  source : PlanSource V
  outputs : List PlanOutput
  deriving DecidableEq, Repr

/-- A `session->Run` of the chained paths: the whole plan, or one computation. -/
inductive SessionRun (V : Type) where
  | executeChained (plan : List (PlanOp V))
  | execute (computation : Int) (arguments : List V)
  deriving DecidableEq, Repr

/-- A call that may fail, logging the `session->Run`s it issues. -/
abbrev ChainedM (V : Type) := SessionM (List (SessionRun V))

/-- What `XRTExecute` with `return_exploded_tuple` hands back: a vector with one handle per
element of a tuple result, or a scalar with the handle of any other result. -/
inductive ExecuteOutput (V : Type) where
  | vector (handles : List V)
  | scalar (handle : V)

/-- The server side of the calls: what a program computes from its arguments' values, and
element `k` of a tuple value. -/
structure Server (V : Type) where
  run : Int → List V → V
  element : V → Nat → V

/-- `if (index >= slots.size()) slots.resize(index + 1)`, new slots holding `fill`. -/
def growSlots {α : Type} (fill : α) (slots : List α) (index : Nat) : List α :=
  if slots.length ≤ index then slots ++ List.replicate (index + 1 - slots.length) fill else slots

/-- A default-constructed `xla::Shape`, which a resize puts in the new slots of
`result_shapes`. -/
def unsetShape : Shape := .tuple []

variable {V : Type}

/-! ## The server -/

namespace Server

variable (server : Server V)

/-- Modelled from the spec: `XRTExecute` with `return_exploded_tuple` (TensorFlow's XRT, not
in this repository) returns the elements of a tuple result and any other result whole. -/
def execute (computation : XrtComputation) (arguments : List V) : ExecuteOutput V :=
  match computation.resultShape with
  | .tuple elements =>
      .vector ((List.range elements.length).map (server.element (server.run computation.handle arguments)))
  | .array .. => .scalar (server.run computation.handle arguments)

/-- How the server reads a plan's `output_index` on the value `v` of an op. -/
def planPick (v : V) : Nat → V
  | 0 => v
  | k + 1 => server.element v k

/-- The value of a plan op, from the values of the ops before it. -/
def opValue (values : List V) : PlanSource V → Except Fault V
  | .dataHandle handle => .ok handle
  | .computationHandle handle inputs => do
      let arguments ← inputs.mapM fun input =>
        match values[input.opIndex]? with
        | some v => .ok (server.planPick v input.outputIndex)
        | none => .error (.runFailed "Invalid op_index")
      pure (server.run handle arguments)

/-- One plan op on the server: its value, from the values of the ops before it, and the result
slots after its outputs. -/
def chainedStep (state : List V × List (Option V)) (op : PlanOp V) :
    Except Fault (List V × List (Option V)) := do
  let value ← server.opValue state.1 op.source
  pure (state.1 ++ [value], op.outputs.foldl (fun slots output =>
    (growSlots none slots output.resultIndex).set output.resultIndex
      (some (server.planPick value output.outputIndex))) state.2)

/-- Modelled from the spec: `XRTExecuteChained` (TensorFlow's XRT, not in this repository) runs
the plan's ops in order and returns one handle per result slot; a slot that no output writes
fails the run. -/
def executeChained (plan : List (PlanOp V)) : Except Fault (List V) := do
  let state ← plan.foldlM server.chainedStep ([], [])
  state.2.mapM fun slot =>
    match slot with
    | some v => .ok v
    | none => .error (.runFailed "Missing result slot")

end Server

/-! ## `ExecuteChainedXrt` -/

/-- The plan inputs of computation op `i`, each checked to name an earlier op. -/
def planInputs (i : Nat) (inputs : List ChainedInput) : Except Fault (List PlanInput) :=
  inputs.mapM fun input => do
    xlaCheck (input.opIndex < i) "input.op_index < i"
    pure ⟨input.opIndex, (input.outputIndex.map (· + 1)).getD 0⟩

/-- One output of an op of shape `opShape`: its plan output, and `result_shapes` after it. -/
def planOutput (opShape : Shape) (state : List PlanOutput × List Shape) (output : ChainedOutput) :
    Except Fault (List PlanOutput × List Shape) :=
  let resultShapes := growSlots unsetShape state.2 output.resultIndex
  match output.outputIndex with
  | some k => do
      let shape ← opShape.getTupleElementShape k
      pure (state.1 ++ [⟨output.resultIndex, k + 1⟩], resultShapes.set output.resultIndex shape)
  | none => pure (state.1 ++ [⟨output.resultIndex, 0⟩], resultShapes.set output.resultIndex opShape)

/-- The plan source of op `i` and the shape of its whole output. The inputs of a device-data op
are neither checked nor sent. -/
def planSource (i : Nat) (op : ExecuteChainedOp V) : Except Fault (PlanSource V × Shape) :=
  match op.source with
  | .deviceData data => .ok (.dataHandle data.handle, data.shape)
  | .computation computation => do
      let inputs ← planInputs i op.inputs
      pure (.computationHandle computation.handle inputs, computation.resultShape)

/-- The body of `ExecuteChainedXrt`'s loop over the ops: the plan op of op `entry.1`, and
`result_shapes` after its outputs. -/
def planChainedOp (state : List (PlanOp V) × List Shape) (entry : Nat × ExecuteChainedOp V) :
    Except Fault (List (PlanOp V) × List Shape) := do
  let source ← planSource entry.1 entry.2
  let outputs ← entry.2.outputs.foldlM (planOutput source.2) ([], state.2)
  pure (state.1 ++ [⟨source.1, outputs.1⟩], outputs.2)

/-- `XrtComputationClient::ExecuteChainedXrt`. -/
def executeChainedXrt (opts : Options) (server : Server V) (ops : List (ExecuteChainedOp V))
    (device : DeviceId) : ChainedM V (List (XrtData V)) := do
  let _ ← SessionM.ofExcept (opts.sessionTarget device)
  let plan ← SessionM.ofExcept (ops.enum.foldlM planChainedOp ([], []))
  issueRun (.executeChained plan.1)
  let handles ← SessionM.ofExcept (server.executeChained plan.1)
  SessionM.ofExcept (handles.enum.mapM fun entry => do
    let shape ← vectorAt "result_shapes" plan.2 entry.1
    pure ⟨device, shape, entry.2⟩)

/-! ## `ExecuteChainedSplit` -/

/-- `GetComputationResults`: one value per element of a vector output, each with its element
shape, or the one value of a scalar output with the whole result shape. -/
def getComputationResults (xrtResult : ExecuteOutput V) (resultShape : Shape) (device : DeviceId) :
    Except Fault (List (XrtData V)) :=
  match xrtResult with
  | .vector handles => handles.enum.mapM fun entry => do
      let shape ← resultShape.getTupleElementShape entry.1
      pure ⟨device, shape, entry.2⟩
  | .scalar handle => pure [⟨device, resultShape, handle⟩]

/-- `GetArgumentsInputs`: the arguments' handles, each argument checked to live on the device. -/
def getArgumentsInputs (arguments : List (XrtData V)) (device : DeviceId) : Except Fault (List V) :=
  arguments.mapM fun argument => do
    xlaCheck (device = argument.device) "device == xrt_data.device()->name()"
    pure argument.handle

/-- The count of uses of each op by the inputs of all ops; `uses[input.op_index] += 1` is not
guarded. -/
def countUses (ops : List (ExecuteChainedOp V)) : Except Fault (List Int) :=
  (ops.flatMap ExecuteChainedOp.inputs).foldlM (fun uses input => do
    let count ← vectorAt "uses" uses input.opIndex
    pure (uses.set input.opIndex (count + 1))) (List.replicate ops.length 0)

/-- The argument an input of op `i` reads from the outputs kept so far. -/
def chainedArgument (i : Nat) (opsOutputs : List (List (XrtData V))) (input : ChainedInput) :
    Except Fault (XrtData V) := do
  xlaCheck (input.opIndex < i) "input.op_index < i"
  let producer ← vectorAt "ops_outputs" opsOutputs input.opIndex
  xlaCheck (input.outputIndex.getD 0 < producer.length)
    "input.output_index.value_or(0) < ops_outputs[input.op_index].size()"
  vectorAt "ops_outputs[input.op_index]" producer (input.outputIndex.getD 0)

/-- The outputs of op `i`: a device-data op pushes its data, a computation runs in a
`session->Run` of its own. -/
def runChainedOp (server : Server V) (device : DeviceId) (opsOutputs : List (List (XrtData V)))
    (i : Nat) (op : ExecuteChainedOp V) : ChainedM V (List (XrtData V)) :=
  match op.source with
  | .deviceData data => do
      let current ← SessionM.ofExcept (vectorAt "ops_outputs" opsOutputs i)
      pure (current ++ [data])
  | .computation computation => do
      let arguments ← SessionM.ofExcept (op.inputs.mapM (chainedArgument i opsOutputs))
      let handles ← SessionM.ofExcept (getArgumentsInputs arguments device)
      issueRun (.execute computation.handle handles)
      SessionM.ofExcept (getComputationResults (server.execute computation handles)
        computation.resultShape device)

/-- `results[output.result_index] = ops_outputs[i][output.output_index.value_or(0)]`. -/
def storeChainedOutput (outputs : List (XrtData V)) (results : List (Option (XrtData V)))
    (output : ChainedOutput) : Except Fault (List (Option (XrtData V))) := do
  let results := growSlots none results output.resultIndex
  xlaCheck (output.outputIndex.getD 0 < outputs.length)
    "output.output_index.value_or(0) < ops_outputs[i].size()"
  let result ← vectorAt "ops_outputs[i]" outputs (output.outputIndex.getD 0)
  pure (results.set output.resultIndex (some result))

/-- One use of a producer is over; its outputs are dropped after its last use. -/
def dropUse (state : List Int × List (List (XrtData V))) (input : ChainedInput) :
    Except Fault (List Int × List (List (XrtData V))) := do
  let count ← vectorAt "uses" state.1 input.opIndex
  let uses := state.1.set input.opIndex (count - 1)
  if count - 1 = 0 then do
    let _ ← vectorAt "ops_outputs" state.2 input.opIndex
    pure (uses, state.2.set input.opIndex [])
  else pure (uses, state.2)

/-- The state of `ExecuteChainedSplit`'s loop. -/
structure SplitState (V : Type) where
  uses : List Int
  opsOutputs : List (List (XrtData V))
  results : List (Option (XrtData V))

/-- The body of `ExecuteChainedSplit`'s loop over the ops. -/
def splitStep (server : Server V) (device : DeviceId) (state : SplitState V)
    (entry : Nat × ExecuteChainedOp V) : ChainedM V (SplitState V) := do
  let outputs ← runChainedOp server device state.opsOutputs entry.1 entry.2
  let results ← SessionM.ofExcept
    (entry.2.outputs.foldlM (storeChainedOutput outputs) state.results)
  let kept ← SessionM.ofExcept
    (entry.2.inputs.foldlM dropUse (state.uses, state.opsOutputs.set entry.1 outputs))
  pure ⟨kept.1, kept.2, results⟩

/-- `XrtComputationClient::ExecuteChainedSplit`. -/
def executeChainedSplit (opts : Options) (server : Server V) (ops : List (ExecuteChainedOp V))
    (device : DeviceId) : ChainedM V (List (Option (XrtData V))) := do
  let uses ← SessionM.ofExcept (countUses ops)
  let _ ← SessionM.ofExcept (opts.sessionTarget device)
  let state ← ops.enum.foldlM (splitStep server device) ⟨uses, List.replicate ops.length [], []⟩
  pure state.results

/-- `XrtComputationClient::ExecuteChained`: `splitMode` is `XRT_SPLIT_CHAINED_EXEC`. The split
path's results may hold empty slots; the chained path's never do. -/
def executeChained (opts : Options) (server : Server V) (splitMode : Int)
    (ops : List (ExecuteChainedOp V)) (device : DeviceId) : ChainedM V (List (Option (XrtData V))) :=
  if splitMode ≠ 0 then executeChainedSplit opts server ops device
  else (executeChainedXrt opts server ops device).map (List.map some)

/-- Whether the op runs a computation, which split mode sends in a `session->Run` of its own. -/
def ExecuteChainedOp.isComputation (op : ExecuteChainedOp V) : Bool :=
  match op.source with
  | .deviceData _ => false
  | .computation _ => true

/-! ## Runs issued before a failure -/

section Logic

variable {α β σ : Type}

/-- From every log, `m` issues at most `n` `session->Run`s, and then fails by a check or returns
a value satisfying `post`. -/
def RunsWithin (n : Nat) (post : α → Prop) (m : ChainedM V α) : Prop :=
  ∀ log, ∃ new, (m.run.run log).2 = log ++ new ∧ new.length ≤ n ∧
    (FailsCheck (m.run.run log).1 ∨ ∃ a, (m.run.run log).1 = .ok a ∧ post a)

/-- From every log, `m` fails by a check after issuing at most `n` `session->Run`s. -/
def FailsWithin (n : Nat) (m : ChainedM V α) : Prop :=
  RunsWithin n (fun _ => False) m

theorem RunsWithin.mono {n n' : Nat} {post post' : α → Prop} {m : ChainedM V α}
    (h : RunsWithin n post m) (hn : n ≤ n') (hpost : ∀ a, post a → post' a) :
    RunsWithin n' post' m := fun log => by
  obtain ⟨new, hlog, hlen, hres⟩ := h log
  exact ⟨new, hlog, by omega, hres.imp_right fun ⟨a, ha, hp⟩ => ⟨a, ha, hpost a hp⟩⟩

theorem runsWithin_pure {post : α → Prop} {a : α} (h : post a) :
    RunsWithin 0 post (pure a : ChainedM V α) :=
  fun log => ⟨[], by simp, by simp, .inr ⟨a, rfl, h⟩⟩

theorem runsWithin_ofExcept {post : α → Prop} {x : Except Fault α} (hx : ChecksOnly x)
    (hpost : ∀ a, x = .ok a → post a) : RunsWithin 0 post (SessionM.ofExcept x : ChainedM V α) := by
  intro log
  refine ⟨[], by simp, by simp, ?_⟩
  cases x with
  | error e =>
      obtain ⟨message, rfl⟩ := hx e rfl
      exact .inl ⟨message, by simp⟩
  | ok a => exact .inr ⟨a, by simp, hpost a rfl⟩

theorem failsWithin_ofExcept {x : Except Fault α} (hx : FailsCheck x) :
    FailsWithin 0 (SessionM.ofExcept x : ChainedM V α) := by
  obtain ⟨message, rfl⟩ := hx
  exact runsWithin_ofExcept (checksOnly_checkFailed message) fun _ h => nomatch h

theorem runsWithin_issueRun (run : SessionRun V) : RunsWithin 1 (fun _ => True) (issueRun run) :=
  fun log => ⟨[run], by simp, by simp, .inr ⟨(), rfl, trivial⟩⟩

theorem runsWithin_bind {a b : Nat} {P : α → Prop} {Q : β → Prop} {m : ChainedM V α}
    {f : α → ChainedM V β} (hm : RunsWithin a P m) (hf : ∀ x, P x → RunsWithin b Q (f x)) :
    RunsWithin (a + b) Q (m >>= f) := by
  intro log
  obtain ⟨new, hlog, hlen, hres⟩ := hm log
  rw [SessionM.run_bind]
  rcases hrun : m.run.run log with ⟨result, log'⟩
  simp only [hrun] at hlog hres
  subst hlog
  rcases hres with ⟨message, rfl⟩ | ⟨x, rfl, hx⟩
  · exact ⟨new, rfl, by omega, .inl ⟨message, rfl⟩⟩
  · obtain ⟨new', hlog', hlen', hres'⟩ := hf x hx (log ++ new)
    exact ⟨new ++ new', by simp [hlog'], by simp; omega, hres'⟩

theorem FailsWithin.bind {n : Nat} {m : ChainedM V α} (hm : FailsWithin n m)
    (f : α → ChainedM V β) : FailsWithin n (m >>= f) :=
  runsWithin_bind (b := 0) hm fun _ h => h.elim

/-- A loop whose passes keep `inv` issues at most the passes' Runs together. -/
theorem runsWithin_foldlM {f : σ → α → ChainedM V σ} {inv : σ → Prop} {cost : α → Nat} :
    ∀ {l : List α}, (∀ s x, x ∈ l → inv s → RunsWithin (cost x) inv (f s x)) →
      ∀ s, inv s → RunsWithin (l.map cost).sum inv (l.foldlM f s)
  | [], _, s, hs => runsWithin_pure hs
  | x :: rest, hf, s, hs => by
      rw [List.foldlM_cons, List.map_cons, List.sum_cons]
      exact runsWithin_bind (hf s x (List.mem_cons_self _ _) hs) fun s' hs' =>
        runsWithin_foldlM (fun t y hy => hf t y (List.mem_cons_of_mem _ hy)) s' hs'

/-- A loop whose pass at `x` fails by a check fails within the Runs of the passes before it. -/
theorem failsWithin_foldlM {f : σ → α → ChainedM V σ} {inv : σ → Prop} {cost : α → Nat}
    {pre post : List α} {x : α} (hf : ∀ s y, y ∈ pre → inv s → RunsWithin (cost y) inv (f s y))
    (hx : ∀ s, inv s → FailsWithin 0 (f s x)) (s : σ) (hs : inv s) :
    FailsWithin (pre.map cost).sum ((pre ++ x :: post).foldlM f s) := by
  rw [List.foldlM_append]
  exact (runsWithin_bind (runsWithin_foldlM hf s hs) fun s' hs' =>
    (hx s' hs').bind _).mono (by omega) fun _ h => h

end Logic

/-! ## Inputs that do not name an earlier op -/

/-- Computation op `i` lists an input that does not name an earlier op. -/
def ForwardInputAt (ops : List (ExecuteChainedOp V)) (i : Nat) : Prop :=
  ∃ op computation input, ops[i]? = some op ∧ op.source = .computation computation ∧
    input ∈ op.inputs ∧ i ≤ input.opIndex

theorem checksOnly_planInputs (i : Nat) (inputs : List ChainedInput) :
    ChecksOnly (planInputs i inputs) :=
  checksOnly_mapM fun _ _ => checksOnly_bind (checksOnly_xlaCheck _ _) fun _ _ => checksOnly_ok _

theorem failsCheck_planInputs {i : Nat} {inputs : List ChainedInput} {input : ChainedInput}
    (hinput : input ∈ inputs) (hforward : i ≤ input.opIndex) : FailsCheck (planInputs i inputs) :=
  mapM_failsCheck_of_mem
    ⟨_, by simp only [xlaCheck_of_false _ (Nat.not_lt.mpr hforward)]; rfl⟩
    (fun _ _ => checksOnly_bind (checksOnly_xlaCheck _ _) fun _ _ => checksOnly_ok _) hinput

theorem checksOnly_planOutput (opShape : Shape) (state : List PlanOutput × List Shape)
    (output : ChainedOutput) : ChecksOnly (planOutput opShape state output) := by
  unfold planOutput
  split
  · exact checksOnly_bind (opShape.checksOnly_getTupleElementShape _) fun _ _ => checksOnly_ok _
  · exact checksOnly_ok _

theorem checksOnly_planSource (i : Nat) (op : ExecuteChainedOp V) :
    ChecksOnly (planSource i op) := by
  unfold planSource
  split
  · exact checksOnly_ok _
  · exact checksOnly_bind (checksOnly_planInputs i op.inputs) fun _ _ => checksOnly_ok _

theorem checksOnly_planChainedOp (state : List (PlanOp V) × List Shape)
    (entry : Nat × ExecuteChainedOp V) : ChecksOnly (planChainedOp state entry) :=
  checksOnly_bind (checksOnly_planSource _ _) fun _ _ =>
    checksOnly_bind (checksOnly_foldlM (fun s a _ => checksOnly_planOutput _ s a) _) fun _ _ => checksOnly_ok _

/-- The chained path checks every input of every computation op before it sends the plan, so an
input that does not name an earlier op fails the call before any `session->Run`. -/
theorem executeChainedXrt_failsWithin {ops : List (ExecuteChainedOp V)} {i : Nat}
    (hforward : ForwardInputAt ops i) (opts : Options) (server : Server V) (device : DeviceId) :
    FailsWithin 0 (executeChainedXrt opts server ops device) := by
  obtain ⟨op, computation, input, hop, hsource, hinput, hle⟩ := hforward
  have hplan : FailsCheck (ops.enum.foldlM planChainedOp ([], [])) := by
    refine foldlM_failsCheck_of_mem checksOnly_planChainedOp (fun state => ?_) _
      (show (i, op) ∈ ops.enum from List.mem_enum_iff_getElem?.mpr hop)
    have hsource : FailsCheck (planSource i op) := by
      unfold planSource
      rw [hsource]
      exact (failsCheck_planInputs hinput hle).bind _
    exact hsource.bind _
  exact runsWithin_bind (b := 0) (runsWithin_ofExcept (opts.checksOnly_sessionTarget device)
    fun _ _ => trivial) fun _ _ => (failsWithin_ofExcept hplan).bind _

/-- The lengths `ExecuteChainedSplit` keeps: one use count and one output list per op. -/
def SplitShape (count : Nat) (state : SplitState V) : Prop :=
  state.uses.length = count ∧ state.opsOutputs.length = count

/-- The `session->Run`s split mode issues for an op: one for a computation. -/
def ExecuteChainedOp.splitRuns (op : ExecuteChainedOp V) : Nat :=
  if op.isComputation then 1 else 0

theorem sum_splitRuns (ops : List (ExecuteChainedOp V)) :
    (ops.enum.map fun entry => entry.2.splitRuns).sum =
      (ops.filter ExecuteChainedOp.isComputation).length := by
  rw [show (fun entry : Nat × ExecuteChainedOp V => entry.2.splitRuns) =
    ExecuteChainedOp.splitRuns ∘ Prod.snd from rfl, ← List.map_map, List.enum_map_snd]
  induction ops with
  | nil => rfl
  | cons op rest ih =>
      cases h : op.isComputation <;>
        simp [List.filter_cons, h, ih, ExecuteChainedOp.splitRuns, Nat.add_comm]

theorem checksOnly_chainedArgument {i : Nat} {opsOutputs : List (List (XrtData V))}
    (hi : i ≤ opsOutputs.length) (input : ChainedInput) :
    ChecksOnly (chainedArgument i opsOutputs input) :=
  checksOnly_bind (checksOnly_xlaCheck _ _) fun _ hcheck =>
    checksOnly_bind (checksOnly_vectorAt (by have := of_xlaCheck_eq_ok hcheck; omega))
      fun _ _ => checksOnly_bind (checksOnly_xlaCheck _ _) fun _ hcheck =>
        checksOnly_vectorAt (of_xlaCheck_eq_ok hcheck)

theorem checksOnly_getArgumentsInputs (arguments : List (XrtData V)) (device : DeviceId) :
    ChecksOnly (getArgumentsInputs arguments device) :=
  checksOnly_mapM fun _ _ => checksOnly_bind (checksOnly_xlaCheck _ _) fun _ _ => checksOnly_ok _

theorem checksOnly_getComputationResults (xrtResult : ExecuteOutput V) (resultShape : Shape)
    (device : DeviceId) : ChecksOnly (getComputationResults xrtResult resultShape device) := by
  cases xrtResult with
  | vector handles =>
      exact checksOnly_mapM fun _ _ =>
        checksOnly_bind (resultShape.checksOnly_getTupleElementShape _) fun _ _ => checksOnly_ok _
  | scalar handle => exact checksOnly_ok _

theorem checksOnly_storeChainedOutput (outputs : List (XrtData V))
    (results : List (Option (XrtData V))) (output : ChainedOutput) :
    ChecksOnly (storeChainedOutput outputs results output) :=
  checksOnly_bind (checksOnly_xlaCheck _ _) fun _ hcheck =>
    checksOnly_bind (checksOnly_vectorAt (of_xlaCheck_eq_ok hcheck)) fun _ _ => checksOnly_ok _

theorem runsWithin_runChainedOp (server : Server V) (device : DeviceId)
    {opsOutputs : List (List (XrtData V))} {i : Nat} (hi : i < opsOutputs.length)
    (op : ExecuteChainedOp V) :
    RunsWithin op.splitRuns (fun _ => True) (runChainedOp server device opsOutputs i op) := by
  obtain ⟨source, inputs, outputs⟩ := op
  cases source with
  | deviceData data =>
      exact runsWithin_bind (runsWithin_ofExcept (checksOnly_vectorAt hi) fun _ _ => trivial)
        fun _ _ => runsWithin_pure trivial
  | computation computation =>
      exact (runsWithin_bind (runsWithin_ofExcept
        (checksOnly_mapM fun _ _ => checksOnly_chainedArgument hi.le _) fun _ _ => trivial)
        fun _ _ => runsWithin_bind (runsWithin_ofExcept (checksOnly_getArgumentsInputs _ _)
          fun _ _ => trivial) fun _ _ => runsWithin_bind (runsWithin_issueRun _) fun _ _ =>
            runsWithin_ofExcept (checksOnly_getComputationResults _ _ _) fun _ _ => trivial).mono
        (by simp [ExecuteChainedOp.splitRuns, ExecuteChainedOp.isComputation]) fun _ h => h

theorem dropUse_ok {uses : List Int} {opsOutputs : List (List (XrtData V))} {input : ChainedInput}
    (hu : input.opIndex < uses.length) (ho : input.opIndex < opsOutputs.length) :
    ∃ kept, dropUse (uses, opsOutputs) input = .ok kept ∧ kept.1.length = uses.length ∧
      kept.2.length = opsOutputs.length := by
  simp only [dropUse, vectorAt_of_lt _ _ _ hu, ok_bind]
  split
  · simp only [vectorAt_of_lt _ _ _ ho, ok_bind]
    exact ⟨_, rfl, by simp, by simp⟩
  · exact ⟨_, rfl, by simp, rfl⟩

/-- One op of split mode keeps the lengths and issues at most its own `session->Run`. -/
theorem runsWithin_splitStep (server : Server V) (device : DeviceId) {count : Nat}
    {entry : Nat × ExecuteChainedOp V} (hi : entry.1 < count)
    (hinputs : ∀ input ∈ entry.2.inputs, input.opIndex < count) (state : SplitState V)
    (hstate : SplitShape count state) :
    RunsWithin entry.2.splitRuns (SplitShape count) (splitStep server device state entry) := by
  obtain ⟨huses, houtputs⟩ := hstate
  have hkeep : ∀ outputs results, RunsWithin 0 (SplitShape count)
      (SessionM.ofExcept (entry.2.inputs.foldlM dropUse
        (state.uses, state.opsOutputs.set entry.1 outputs)) >>= fun kept =>
          (pure ⟨kept.1, kept.2, results⟩ : ChainedM V (SplitState V))) := by
    intro outputs results
    have hfold : ∃ kept, entry.2.inputs.foldlM dropUse
        (state.uses, state.opsOutputs.set entry.1 outputs) = .ok kept ∧
          kept.1.length = count ∧ kept.2.length = count :=
      foldlM_ok_of_invariant (fun kept input hinput (hlen : kept.1.length = count ∧ _) => by
        obtain ⟨kept', hkept', h1, h2⟩ := @dropUse_ok V kept.1 kept.2 input
          (by rw [hlen.1]; exact hinputs input hinput) (by rw [hlen.2]; exact hinputs input hinput)
        exact ⟨kept', hkept', h1.trans hlen.1, h2.trans hlen.2⟩) _ ⟨huses, by simpa using houtputs⟩
    obtain ⟨kept, hkept, hlength⟩ := hfold
    rw [hkept]
    exact runsWithin_bind (runsWithin_ofExcept (checksOnly_ok _) fun _ h => by cases h; exact hlength)
      fun _ hlen => runsWithin_pure hlen
  exact (runsWithin_bind (runsWithin_runChainedOp server device (houtputs ▸ hi) entry.2)
    fun outputs _ => runsWithin_bind (runsWithin_ofExcept
      (checksOnly_foldlM (fun s a _ => checksOnly_storeChainedOutput outputs s a) _) fun _ _ => trivial)
      fun results _ => hkeep outputs results).mono (by simp) fun _ h => h

theorem failsWithin_splitStep (server : Server V) (device : DeviceId)
    {entry : Nat × ExecuteChainedOp V} {computation : XrtComputation} {input : ChainedInput}
    (hsource : entry.2.source = .computation computation) (hinput : input ∈ entry.2.inputs)
    (hforward : entry.1 ≤ input.opIndex) (state : SplitState V)
    (hi : entry.1 ≤ state.opsOutputs.length) :
    FailsWithin 0 (splitStep server device state entry) := by
  have hrun : FailsWithin 0 (runChainedOp server device state.opsOutputs entry.1 entry.2) := by
    unfold runChainedOp
    rw [hsource]
    exact (failsWithin_ofExcept (mapM_failsCheck_of_mem
      ⟨_, by simp only [chainedArgument, xlaCheck_of_false _ (Nat.not_lt.mpr hforward)]; rfl⟩
      (fun _ _ => checksOnly_chainedArgument hi _) hinput)).bind _
  exact hrun.bind _

theorem countUses_ok {ops : List (ExecuteChainedOp V)}
    (hrange : ∀ op ∈ ops, ∀ input ∈ op.inputs, input.opIndex < ops.length) :
    ∃ uses, countUses ops = .ok uses ∧ uses.length = ops.length :=
  foldlM_ok_of_invariant (fun uses input hinput (hlen : uses.length = ops.length) => by
    obtain ⟨op, hop, hinput⟩ := List.mem_flatMap.mp hinput
    have hlt : input.opIndex < uses.length := hlen ▸ hrange op hop input hinput
    exact ⟨_, by rw [vectorAt_of_lt _ _ _ hlt]; rfl, by simpa using hlen⟩) _ (by simp)

/-- Split mode checks an op's inputs only when it reaches the op: an input of computation op `i`
that does not name an earlier op fails the call after at most the `session->Run`s of the
computations before `i`. -/
theorem executeChainedSplit_failsWithin {ops : List (ExecuteChainedOp V)} {i : Nat}
    (hforward : ForwardInputAt ops i)
    (hrange : ∀ op ∈ ops, ∀ input ∈ op.inputs, input.opIndex < ops.length) (opts : Options)
    (server : Server V) (device : DeviceId) :
    FailsWithin ((ops.take i).filter ExecuteChainedOp.isComputation).length
      (executeChainedSplit opts server ops device) := by
  obtain ⟨op, computation, input, hop, hsource, hinput, hforward⟩ := hforward
  obtain ⟨hi, rfl⟩ := List.getElem?_eq_some_iff.mp hop
  obtain ⟨uses, huses, hlength⟩ := countUses_ok hrange
  have hsplit : ops.enum = (ops.take i).enum ++ (i, ops[i]) :: (ops.drop (i + 1)).enumFrom (i + 1) := by
    conv_lhs => rw [← List.take_append_drop i ops]
    rw [List.enum_append, List.drop_eq_getElem_cons hi, List.enumFrom_cons, List.length_take,
      min_eq_left hi.le]
  have hstep : ∀ s entry, entry ∈ (ops.take i).enum → SplitShape ops.length s →
      RunsWithin entry.2.splitRuns (SplitShape ops.length) (splitStep server device s entry) := by
    intro s entry hentry hs
    have hmem : entry ∈ ops.enum := hsplit ▸ List.mem_append_left _ hentry
    have hget := List.mem_enum_iff_getElem?.mp hmem
    exact runsWithin_splitStep server device (List.getElem?_eq_some_iff.mp hget).1
      (hrange _ (List.getElem?_mem hget)) s hs
  have hloop : FailsWithin (((ops.take i).enum.map fun entry => entry.2.splitRuns).sum)
      (((ops.take i).enum ++ (i, ops[i]) :: (ops.drop (i + 1)).enumFrom (i + 1)).foldlM
        (splitStep server device) ⟨uses, List.replicate ops.length [], []⟩) :=
    failsWithin_foldlM (f := splitStep server device) (x := (i, ops[i])) hstep
      (fun s hs => @failsWithin_splitStep V server device (i, ops[i])
      computation input hsource hinput hforward s (by rw [hs.2]; exact hi.le)) _ ⟨hlength, by simp⟩
  rw [executeChainedSplit, hsplit, ← sum_splitRuns]
  refine (runsWithin_bind (b := 0 + ((ops.take i).enum.map fun entry => entry.2.splitRuns).sum)
    (P := fun u => u = uses)
    (runsWithin_ofExcept (huses ▸ checksOnly_ok uses) fun u hu => Except.ok.inj (hu.symm.trans huses))
    fun u hu => ?_).mono (by simp) fun _ h => h
  subst hu
  exact runsWithin_bind (runsWithin_ofExcept (opts.checksOnly_sessionTarget device) fun _ _ => trivial)
    fun _ _ => hloop.bind _

/-- An op list that names a later op in an input of computation op `i` fails by a check: in
the chained path before the plan's `session->Run`; in split mode, when every `op_index` is below
the number of ops, after at most the `session->Run`s of the computations before `i`. -/
theorem executeChained_rejects_forward_input (opts : Options) (server : Server V)
    (ops : List (ExecuteChainedOp V)) (device : DeviceId) (i : Nat)
    (hforward : ForwardInputAt ops i) :
    FailsWithin 0 (executeChainedXrt opts server ops device) ∧
      ((∀ op ∈ ops, ∀ input ∈ op.inputs, input.opIndex < ops.length) →
        FailsWithin ((ops.take i).filter ExecuteChainedOp.isComputation).length
          (executeChainedSplit opts server ops device)) :=
  ⟨executeChainedXrt_failsWithin hforward opts server device,
    fun hrange => executeChainedSplit_failsWithin hforward hrange opts server device⟩

/-- A server on numbers: a program adds its handle to its arguments, element `k` of `v` is
`10 * v + k`. -/
def numberServer : Server Nat :=
  ⟨fun handle arguments => handle.toNat + arguments.sum, fun v k => v * 10 + k⟩

/-- A computation on `TPU:0` whose second op reads its own output. -/
def selfReadingChain : List (ExecuteChainedOp Nat) :=
  [⟨.computation ⟨5, .array .F32 [2] [0]⟩, [], [⟨0, none⟩]⟩,
    ⟨.computation ⟨6, .array .F32 [2] [0]⟩, [⟨1, none⟩], [⟨1, none⟩]⟩]

theorem executeChained_rejects_forward_input_self_reading :
    FailsWithin 0 (executeChainedXrt sharedWorkerOptions numberServer selfReadingChain ⟨"TPU", 0⟩) ∧
      FailsWithin 1 (executeChainedSplit sharedWorkerOptions numberServer selfReadingChain ⟨"TPU", 0⟩) :=
  have hrejects := executeChained_rejects_forward_input sharedWorkerOptions numberServer
    selfReadingChain ⟨"TPU", 0⟩ 1 ⟨⟨.computation ⟨6, .array .F32 [2] [0]⟩, [⟨1, none⟩], [⟨1, none⟩]⟩,
      _, ⟨1, none⟩, rfl, rfl, List.mem_singleton_self _, le_refl 1⟩
  ⟨hrejects.1, hrejects.2 (by decide)⟩

/-- Two lists that name a later op in an input and still reach a `session->Run`: a device-data
op reading itself goes through the chained path unchecked, and split mode runs op `0` of
`selfReadingChain` before it checks op `1`. -/
theorem executeChained_runs_before_rejecting :
    (∃ results, (executeChainedXrt sharedWorkerOptions numberServer
        [⟨.deviceData ⟨⟨"TPU", 0⟩, .array .F32 [2] [0], 7⟩, [⟨0, none⟩], [⟨0, none⟩]⟩]
        ⟨"TPU", 0⟩).run.run [] =
      (.ok results, [.executeChained [⟨.dataHandle 7, [⟨0, 0⟩]⟩]])) ∧
    (executeChainedSplit sharedWorkerOptions numberServer selfReadingChain ⟨"TPU", 0⟩).run.run [] =
      (.error (.checkFailed "input.op_index < i"), [.execute 5 []]) :=
  ⟨⟨_, rfl⟩, rfl⟩

end XrtClient
