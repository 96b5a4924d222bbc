import XrtClient.Chained
import Mathlib.Data.List.Perm.Basic
import Mathlib.Data.List.OfFn

/-! # Executing a computation on several devices

`ExecuteReplicated` (one computation on every device) and `ExecuteParallel` (a computation per
device) first build one `XRTExecute` node per device with `CreateExecuteOps`, feeding it the
computation's handle, the execution config and the arguments' handles. `RunComputations` then
groups the devices by the session of their worker target and fetches each session's nodes in
one `session->Run`, the sessions' runners running concurrently, each writing the results of
its own replicas. `ExecuteComputation`, one computation on one device, builds its node the same
way and runs it in a `session->Run` of its own.

Neither `CreateExecuteOps` nor `RunComputations` checks that the lists it is handed are as long
as the loop that walks them: the only length check compares `computations` with `devices`,
which `ExecuteReplicated` builds equal.
-/

namespace XrtClient

variable {V : Type}

/-- An `XRTExecute` node of one call with the feeds `CreateExecuteOps` puts in front of it: the
computation's handle (the server holds its compiled program, result shape included), the
config's `return_exploded_tuple` and the arguments' handles. Within one call the session's
node cache hands out a fresh node at every `GetExecuteNode`, so a node's feeds are its own. -/
structure ExecNode (V : Type) where
  computation : XrtComputation
  explodeTuple : Bool
  inputs : List V

/-- A `session->Run` of `RunComputations`: the session of `target` fetching `nodes`. -/
structure ExecuteRun (V : Type) where
  target : String
  nodes : List (ExecNode V)

/-- A call of the execute paths, logging the `session->Run`s it issues. -/
abbrev ExecuteM (V : Type) := SessionM (List (ExecuteRun V))

/-- Modelled from the spec: `XRTExecute` (TensorFlow's XRT, not in this repository) returns the
elements of a tuple result when `return_exploded_tuple` is set, and the whole result otherwise. -/
def Server.executeNode (server : Server V) (node : ExecNode V) : ExecuteOutput V :=
  if node.explodeTuple then server.execute node.computation node.inputs
  else .scalar (server.run node.computation.handle node.inputs)

/-! ## `CreateExecuteOps` -/

/-- `XrtSessionCache::GetSession(target, session_map)`: the call's session of a target, opened
on first use. The map is kept as the targets it holds. -/
def getSession (sessionMap : List String) (target : String) : List String :=
  if target ∈ sessionMap then sessionMap else sessionMap ++ [target]

/-- What a pass of `CreateExecuteOps` reads: a computation, its arguments and its device. -/
abbrev ExecuteOp (V : Type) := XrtComputation × List (XrtData V) × DeviceId

/-- One pass of `CreateExecuteOps`' loop: the node running `op.1` on the arguments `op.2.1` on
the device `op.2.2`, in the session of the device's worker. -/
def createExecuteOp (opts : Options) (explodeTuple : Bool) (state : List String × List (ExecNode V))
    (op : ExecuteOp V) :
    Except Fault (List String × List (ExecNode V)) := do
  let inputs ← getArgumentsInputs op.2.1 op.2.2
  let xrtDevice ← opts.swiftDeviceToXrtDevice op.2.2
  let worker ← opts.getWorkerForXrtDevice xrtDevice
  pure (getSession state.1 worker.2, state.2 ++ [⟨op.1, explodeTuple, inputs⟩])

/-- The loop both `CreateExecuteOps` share: pass `i` walks `items[i]` and reads with `read` what
it runs, on which arguments and on which device. Returns the session map and the nodes. -/
def createExecuteOpsWith {α : Type} (opts : Options) (explodeTuple : Bool) (items : List α)
    (read : Nat × α → Except Fault (ExecuteOp V)) :
    Except Fault (List String × List (ExecNode V)) :=
  items.enum.foldlM (fun state entry => read entry >>= createExecuteOp opts explodeTuple state)
    ([], [])

/-- What pass `i` of `CreateExecuteOps` for a computation per device reads: `computations[i]`,
and `arguments[i]` and `devices[i]` unchecked (C++ leaves the order of the two reads open; the
model reads them left to right). -/
def readParallelOp (arguments : List (List (XrtData V))) (devices : List DeviceId)
    (entry : Nat × XrtComputation) : Except Fault (ExecuteOp V) := do
  let argumentsI ← vectorAt "arguments" arguments entry.1
  let device ← vectorAt "devices" devices entry.1
  pure (entry.2, argumentsI, device)

/-- `CreateExecuteOps` for a computation per device: the loop walks `computations`. -/
def createExecuteOps (opts : Options) (computations : List XrtComputation)
    (arguments : List (List (XrtData V))) (explodeTuple : Bool) (devices : List DeviceId) :
    Except Fault (List String × List (ExecNode V)) :=
  createExecuteOpsWith opts explodeTuple computations (readParallelOp arguments devices)

/-- What pass `i` of `CreateExecuteOps` for one computation reads: `arguments[i]`, and
`devices[i]` unchecked. -/
def readReplicatedOp (computation : XrtComputation) (devices : List DeviceId)
    (entry : Nat × List (XrtData V)) : Except Fault (ExecuteOp V) := do
  let device ← vectorAt "devices" devices entry.1
  pure (computation, entry.2, device)

/-- `CreateExecuteOps` for one computation on every device: the loop walks `arguments`. -/
def createReplicatedExecuteOps (opts : Options) (computation : XrtComputation)
    (arguments : List (List (XrtData V))) (explodeTuple : Bool) (devices : List DeviceId) :
    Except Fault (List String × List (ExecNode V)) :=
  createExecuteOpsWith opts explodeTuple arguments (readReplicatedOp computation devices)

/-! ## `RunComputations` -/

/-- The first loop of `RunComputations`: `session_replicas[session].push_back(i)`, the session
being `session_map.at` the worker target of `devices[i]`. -/
def groupReplicas (opts : Options) (sessionMap : List String) (devices : List DeviceId) :
    Except Fault (List (String × List Nat)) :=
  devices.enum.foldlM (fun groups entry => do
    let target ← opts.sessionTarget entry.2
    if target ∈ sessionMap then pure (addToGroup target entry.1 groups)
    else .error (.missingKey "session_map" target)) []

/-- `exec_nodes.push_back(exec_ops[replica])`, with the read of `computations[replica]` that
goes with it. -/
def fetchReplica (execOps : List (ExecNode V)) (computations : List XrtComputation)
    (replica : Nat) : Except Fault (ExecNode V) := do
  let node ← vectorAt "exec_ops" execOps replica
  let _ ← vectorAt "computations" computations replica
  pure node

/-- `results[replica] = GetComputationResults(outputs[i], ...)` for the output `entry` = `(i,
outputs[i])` of a runner's `session->Run`, `replica` being `replicas[i]`. -/
def readReplicaResults (computations : List XrtComputation) (devices : List DeviceId)
    (replicas : List Nat) (entry : Nat × ExecuteOutput V) : Except Fault (Nat × List (XrtData V)) := do
  let replica ← vectorAt "replicas" replicas entry.1
  let computation ← vectorAt "computations" computations replica
  let device ← vectorAt "devices" devices replica
  let data ← getComputationResults entry.2 computation.resultShape device
  pure (replica, data)

/-- A session runner of `RunComputations`: fetch the replicas' nodes in one `session->Run` on
the group's session, and read each replica's output back into its results. Returns the writes
`results[replica] = ...` it makes. -/
def sessionRunner (server : Server V) (execOps : List (ExecNode V))
    (computations : List XrtComputation) (devices : List DeviceId) (group : String × List Nat) :
    ExecuteM V (List (Nat × List (XrtData V))) := do
  let execNodes ← SessionM.ofExcept (group.2.mapM (fetchReplica execOps computations))
  issueRun ⟨group.1, execNodes⟩
  let outputs := execNodes.map server.executeNode
  SessionM.ofExcept (xlaCheck (outputs.length = execNodes.length)
    "outputs.size() == exec_nodes.size()")
  SessionM.ofExcept (outputs.enum.mapM (readReplicaResults computations devices group.2))

/-- `RunComputations`: `order` is the order in which the session runners run, which the
`std::map` keyed by session pointers and the thread pool leave free. -/
def runComputations (opts : Options) (server : Server V)
    (order : List (String × List Nat) → List (String × List Nat)) (sessionMap : List String)
    (execOps : List (ExecNode V)) (computations : List XrtComputation) (devices : List DeviceId) :
    ExecuteM V (List (List (XrtData V))) := do
  let sessionReplicas ← SessionM.ofExcept (groupReplicas opts sessionMap devices)
  SessionM.ofExcept (xlaCheck (computations.length = devices.length)
    "computations.size() == devices.size()")
  multiWait ((order sessionReplicas).map (sessionRunner server execOps computations devices))
    (List.replicate devices.length [])

/-- `ExecuteReplicated`: one computation on every device. -/
def executeReplicated (opts : Options) (server : Server V)
    (order : List (String × List Nat) → List (String × List Nat)) (computation : XrtComputation)
    (arguments : List (List (XrtData V))) (devices : List DeviceId) (explodeTuple : Bool) :
    ExecuteM V (List (List (XrtData V))) := do
  let execOps ← SessionM.ofExcept
    (createReplicatedExecuteOps opts computation arguments explodeTuple devices)
  runComputations opts server order execOps.1 execOps.2
    (List.replicate devices.length computation) devices

/-- `ExecuteParallel`: computation `i` on device `i`. -/
def executeParallel (opts : Options) (server : Server V)
    (order : List (String × List Nat) → List (String × List Nat))
    (computations : List XrtComputation) (arguments : List (List (XrtData V)))
    (devices : List DeviceId) (explodeTuple : Bool) : ExecuteM V (List (List (XrtData V))) := do
  let execOps ← SessionM.ofExcept
    (createExecuteOps opts computations arguments explodeTuple devices)
  runComputations opts server order execOps.1 execOps.2 computations devices

/-- The node `CreateExecuteOps` builds for an op. -/
def ExecuteOp.node (explodeTuple : Bool) (op : ExecuteOp V) : ExecNode V :=
  ⟨op.1, explodeTuple, op.2.1.map XrtData.handle⟩

/-- An op whose node `CreateExecuteOps` builds: its arguments live on its device, which
resolves to a worker. -/
def ExecuteOp.Placed (opts : Options) (op : ExecuteOp V) : Prop :=
  (∀ argument ∈ op.2.1, argument.device = op.2.2) ∧ ∃ target, opts.sessionTarget op.2.2 = .ok target

theorem getArgumentsInputs_of_placed {arguments : List (XrtData V)} {device : DeviceId}
    (hplaced : ∀ argument ∈ arguments, argument.device = device) :
    getArgumentsInputs arguments device = .ok (arguments.map XrtData.handle) :=
  mapM_eq_ok_map fun argument hargument => by simp [hplaced argument hargument]

theorem mem_getSession {sessionMap : List String} {target t : String} :
    t ∈ getSession sessionMap target ↔ t ∈ sessionMap ∨ t = target := by
  unfold getSession
  split
  · next h => exact ⟨.inl, fun h' => h'.elim id fun ht => ht ▸ h⟩
  · simp

theorem createExecuteOp_eq (opts : Options) (explodeTuple : Bool)
    (state : List String × List (ExecNode V)) {op : ExecuteOp V} {target : String}
    (hplaced : ∀ argument ∈ op.2.1, argument.device = op.2.2)
    (htarget : opts.sessionTarget op.2.2 = .ok target) :
    createExecuteOp opts explodeTuple state op =
      .ok (getSession state.1 target, state.2 ++ [op.node explodeTuple]) := by
  obtain ⟨xrtDevice, hname, worker, hworker, rfl⟩ := opts.sessionTarget_eq_ok htarget
  simp [createExecuteOp, getArgumentsInputs_of_placed hplaced, hname, hworker, ExecuteOp.node]

/-- The loop of `CreateExecuteOps`, when pass `j` reads `ops[j]` and every op is placed: one
node per pass, in order, and a session for the device of every op. -/
theorem createExecuteOpsWith_eq {α : Type} (opts : Options) (explodeTuple : Bool) (items : List α)
    (read : Nat × α → Except Fault (ExecuteOp V)) (ops : List (ExecuteOp V))
    (hlength : ops.length = items.length)
    (hread : ∀ j (hj : j < items.length), read (j, items[j]) = .ok ops[j] ∧ ops[j].Placed opts) :
    ∃ sessionMap, createExecuteOpsWith opts explodeTuple items read =
        .ok (sessionMap, ops.map (ExecuteOp.node explodeTuple)) ∧
      ∀ op ∈ ops, ∃ target, opts.sessionTarget op.2.2 = .ok target ∧ target ∈ sessionMap := by
  suffices h : ∀ k ≤ items.length, ∃ sessionMap, (items.enum.take k).foldlM
      (fun state entry => read entry >>= createExecuteOp opts explodeTuple state) ([], []) =
        .ok (sessionMap, (ops.take k).map (ExecuteOp.node explodeTuple)) ∧
      ∀ op ∈ ops.take k, ∃ target, opts.sessionTarget op.2.2 = .ok target ∧ target ∈ sessionMap by
    obtain ⟨sessionMap, hloop, hsessions⟩ := h items.length le_rfl
    rw [List.take_of_length_le (by simp), List.take_of_length_le hlength.le] at hloop
    rw [List.take_of_length_le hlength.le] at hsessions
    exact ⟨sessionMap, hloop, hsessions⟩
  intro k hk
  induction k with
  | zero => exact ⟨[], rfl, by simp⟩
  | succ k ih =>
      obtain ⟨sessionMap, hloop, hsessions⟩ := ih (by omega)
      have hk' : k < items.length := by omega
      obtain ⟨hreadk, hplaced, target, htarget⟩ := hread k hk'
      refine ⟨getSession sessionMap target, ?_, ?_⟩
      · rw [List.take_succ, List.getElem?_enum, List.getElem?_eq_getElem hk', Option.map_some',
          Option.toList_some, List.foldlM_append, hloop, ok_bind, List.foldlM_cons, hreadk,
          ok_bind, createExecuteOp_eq opts explodeTuple _ hplaced htarget, List.take_succ,
          List.getElem?_eq_getElem (by omega), Option.toList_some, List.map_append]
        rfl
      · intro op hop
        rw [List.take_succ, List.getElem?_eq_getElem (by omega)] at hop
        simp only [Option.toList_some, List.mem_append, List.mem_singleton] at hop
        rcases hop with hop | rfl
        · obtain ⟨t, ht, hmem⟩ := hsessions op hop
          exact ⟨t, ht, mem_getSession.mpr (.inl hmem)⟩
        · exact ⟨target, htarget, mem_getSession.mpr (.inr rfl)⟩

/-- `CreateExecuteOps` for a computation per device, on lists of one length whose arguments live
on their devices: node `j` runs `computations[j]` on `arguments[j]`, and every device has its
session. -/
theorem createExecuteOps_eq (opts : Options) (explodeTuple : Bool)
    {computations : List XrtComputation} {arguments : List (List (XrtData V))}
    {devices : List DeviceId} (hcomputations : computations.length = devices.length)
    (harguments : arguments.length = devices.length)
    (hplaced : ∀ j (hj : j < devices.length), ∀ argument ∈ arguments[j], argument.device = devices[j])
    (hresolve : ∀ device ∈ devices, ∃ target, opts.sessionTarget device = .ok target) :
    ∃ sessionMap, createExecuteOps opts computations arguments explodeTuple devices =
        .ok (sessionMap, ((computations.zip arguments).zip devices).map fun p =>
          ExecuteOp.node explodeTuple (p.1.1, p.1.2, p.2)) ∧
      ∀ device ∈ devices, ∃ target, opts.sessionTarget device = .ok target ∧ target ∈ sessionMap := by
  obtain ⟨sessionMap, hops, hsessions⟩ := createExecuteOpsWith_eq opts explodeTuple computations
    (readParallelOp arguments devices) (((computations.zip arguments).zip devices).map fun p => (p.1.1, p.1.2, p.2))
    (by simp [hcomputations, harguments]) fun j hj => by
      refine ⟨by simp [readParallelOp, vectorAt_of_lt _ arguments j (by omega),
        vectorAt_of_lt _ devices j (by omega)], by simpa using hplaced j (by omega),
        by simpa using hresolve devices[j] (List.getElem_mem _)⟩
  refine ⟨sessionMap, by simpa using hops, fun device hdevice => ?_⟩
  obtain ⟨j, hj, rfl⟩ := List.getElem_of_mem hdevice
  simpa using hsessions (computations[j], arguments[j], devices[j])
    (List.mem_map.mpr ⟨_, List.getElem_mem (by simp [hcomputations, harguments, hj] : j < ((computations.zip arguments).zip devices).length), by simp⟩)

/-- `CreateExecuteOps` for one computation, on at least as many devices as argument lists, each
list living on its device: node `j` runs the computation on `arguments[j]`, and the device of
every list has its session. -/
theorem createReplicatedExecuteOps_eq (opts : Options) (explodeTuple : Bool)
    (computation : XrtComputation) {arguments : List (List (XrtData V))} {devices : List DeviceId}
    (hlength : arguments.length ≤ devices.length)
    (hplaced : ∀ j (hj : j < arguments.length), ∀ argument ∈ arguments[j],
      argument.device = devices[j])
    (hresolve : ∀ device ∈ devices, ∃ target, opts.sessionTarget device = .ok target) :
    ∃ sessionMap, createReplicatedExecuteOps opts computation arguments explodeTuple devices =
        .ok (sessionMap, (arguments.zip devices).map fun p =>
          ExecuteOp.node explodeTuple (computation, p.1, p.2)) ∧
      ∀ j (hj : j < arguments.length), ∃ target, opts.sessionTarget devices[j] = .ok target ∧
        target ∈ sessionMap := by
  obtain ⟨sessionMap, hops, hsessions⟩ := createExecuteOpsWith_eq opts explodeTuple arguments
    (readReplicatedOp computation devices) ((arguments.zip devices).map fun p => (computation, p.1, p.2))
    (by simp [hlength]) fun j hj => by
      refine ⟨by simp [readReplicatedOp, vectorAt_of_lt _ devices j (by omega)],
        by simpa using hplaced j hj, by simpa using hresolve devices[j] (List.getElem_mem _)⟩
  refine ⟨sessionMap, by simpa using hops, fun j hj => ?_⟩
  simpa using hsessions (computation, arguments[j], devices[j])
    (List.mem_map.mpr ⟨_, List.getElem_mem (by simp [hlength, hj] : j < (arguments.zip devices).length),
      by simp⟩)

/-- A pass of `CreateExecuteOps` that returns resolved its device and opened its session. -/
theorem sessionTarget_of_createExecuteOp {opts : Options} {explodeTuple : Bool}
    {state state' : List String × List (ExecNode V)} {op : ExecuteOp V}
    (h : createExecuteOp opts explodeTuple state op = .ok state') :
    ∃ target, opts.sessionTarget op.2.2 = .ok target ∧ state'.1 = getSession state.1 target ∧
      state'.2.length = state.2.length + 1 := by
  unfold createExecuteOp at h
  obtain ⟨_, -, h⟩ := bind_eq_ok h
  obtain ⟨xrtDevice, hname, h⟩ := bind_eq_ok h
  obtain ⟨worker, hworker, h⟩ := bind_eq_ok h
  cases h
  exact ⟨worker.2, by simp [Options.sessionTarget, Options.getWorkerForDevice, hname, hworker,
    Except.map], rfl, by simp⟩

/-- A `CreateExecuteOps` loop that returns built a node per pass and opened the session of the
device of every pass. -/
theorem createExecuteOpsWith_ok {α : Type} {opts : Options} {explodeTuple : Bool}
    {read : Nat × α → Except Fault (ExecuteOp V)} {items : List α} {sessionMap : List String}
    {nodes : List (ExecNode V)}
    (h : createExecuteOpsWith opts explodeTuple items read = .ok (sessionMap, nodes)) :
    nodes.length = items.length ∧ ∀ entry ∈ items.enum, ∀ op, read entry = .ok op →
      ∃ target, opts.sessionTarget op.2.2 = .ok target ∧ target ∈ sessionMap := by
  induction items using List.reverseRecOn generalizing sessionMap nodes with
  | nil =>
      cases h
      exact ⟨rfl, fun _ h => absurd h (List.not_mem_nil _)⟩
  | append_singleton pre x ih =>
      unfold createExecuteOpsWith at h ih
      rw [List.enum_append, List.enumFrom_singleton, List.foldlM_append] at h
      obtain ⟨⟨sessionMap', nodes'⟩, hpre, h⟩ := bind_eq_ok h
      simp only [List.foldlM_cons, List.foldlM_nil, bind_pure] at h
      obtain ⟨op, hread, hop⟩ := bind_eq_ok h
      obtain ⟨target, htarget, hsessions, hnodes⟩ := sessionTarget_of_createExecuteOp hop
      obtain ⟨hlength, hmem⟩ := ih hpre
      simp only at hsessions hnodes
      subst hsessions
      refine ⟨by simp [hnodes, hlength], fun entry hentry op' hread' => ?_⟩
      rw [List.enum_append, List.enumFrom_singleton, List.mem_append, List.mem_singleton] at hentry
      rcases hentry with hentry | rfl
      · obtain ⟨t, ht, htmem⟩ := hmem entry hentry op' hread'
        exact ⟨t, ht, mem_getSession.mpr (.inl htmem)⟩
      · obtain rfl : op = op' := by simpa [hread] using hread'
        exact ⟨target, htarget, mem_getSession.mpr (.inr rfl)⟩

theorem checksOnly_createExecuteOpsWith {α : Type} (opts : Options) (explodeTuple : Bool)
    (items : List α) {read : Nat × α → Except Fault (ExecuteOp V)}
    (hread : ∀ entry ∈ items.enum, ChecksOnly (read entry)) :
    ChecksOnly (createExecuteOpsWith opts explodeTuple items read) :=
  checksOnly_foldlM (fun _ entry hentry => checksOnly_bind (hread entry hentry) fun _ _ =>
    checksOnly_bind (checksOnly_getArgumentsInputs _ _) fun _ _ =>
      checksOnly_bind (opts.checksOnly_swiftDeviceToXrtDevice _) fun _ _ =>
        checksOnly_bind (opts.checksOnly_getWorkerForXrtDevice _) fun _ _ => checksOnly_ok _) _

/-! ## Grouping the replicas by session -/

/-- The replicas whose device resolves to `target`, in increasing order. -/
def replicasOf (opts : Options) (devices : List DeviceId) (target : String) : List Nat :=
  (devices.enum.filter fun entry => opts.sessionTarget entry.2 = .ok target).map Prod.fst

theorem replicasOf_snoc (opts : Options) (pre : List DeviceId) (device : DeviceId)
    (target : String) : replicasOf opts (pre ++ [device]) target = replicasOf opts pre target ++
      if opts.sessionTarget device = .ok target then [pre.length] else [] := by
  unfold replicasOf
  rw [List.enum_append, List.enumFrom_singleton, List.filter_append, List.map_append]
  split <;> simp_all

theorem mem_replicasOf {opts : Options} {devices : List DeviceId} {target : String} {j : Nat} :
    j ∈ replicasOf opts devices target ↔
      ∃ device, devices[j]? = some device ∧ opts.sessionTarget device = .ok target := by
  simp [replicasOf, List.mem_enum_iff_getElem?]

/-- The groups `RunComputations` forms over `devices`: distinct targets, none empty, each with
the replicas on it, and together every replica once. -/
structure ReplicaGroups (opts : Options) (devices : List DeviceId)
    (groups : List (String × List Nat)) : Prop where
  nodup : (groups.map Prod.fst).Nodup
  ne_nil : ∀ g ∈ groups, g.2 ≠ []
  lookup : ∀ target, (groups.lookup target).getD [] = replicasOf opts devices target
  cover : (groups.flatMap Prod.snd).Perm (List.range devices.length)

/-- When every device's target has a session, the first loop of `RunComputations` groups the
replicas by target. -/
theorem groupReplicas_eq (opts : Options) (sessionMap : List String) (devices : List DeviceId)
    (htargets : ∀ device ∈ devices, ∃ target, opts.sessionTarget device = .ok target ∧
      target ∈ sessionMap) :
    ∃ groups, groupReplicas opts sessionMap devices = .ok groups ∧
      ReplicaGroups opts devices groups := by
  induction devices using List.reverseRecOn with
  | nil => exact ⟨[], rfl, ⟨List.nodup_nil, by simp, by simp [replicasOf], by simp⟩⟩
  | append_singleton pre device ih =>
      obtain ⟨groups, hgroups, hinv⟩ := ih fun d hd => htargets d (List.mem_append_left _ hd)
      obtain ⟨target, htarget, hmem⟩ := htargets device (by simp)
      refine ⟨addToGroup target pre.length groups, ?_, ?_⟩
      · unfold groupReplicas at hgroups ⊢
        rw [List.enum_append, List.enumFrom_singleton, List.foldlM_append, hgroups, ok_bind,
          List.foldlM_cons]
        simp [htarget, hmem]
        rfl
      · refine ⟨addToGroup_nodup _ _ hinv.nodup, addToGroup_ne_nil _ _ hinv.ne_nil, fun t => ?_, ?_⟩
        · rw [lookup_addToGroup, replicasOf_snoc, ← hinv.lookup]
          by_cases h : t = target
          · simp [h, htarget]
          · simp [h, htarget, Ne.symm h]
        · rw [List.length_append, List.length_singleton, List.range_succ]
          exact (addToGroup_flatMap _ _ _).trans (hinv.cover.append_right _)

section Groups

variable {opts : Options} {devices : List DeviceId} {groups : List (String × List Nat)}

theorem ReplicaGroups.eq_of_mem (h : ReplicaGroups opts devices groups) {g : String × List Nat}
    (hg : g ∈ groups) : g.2 = replicasOf opts devices g.1 := by
  have hlookup := h.lookup g.1
  rwa [lookup_of_mem h.nodup hg, Option.getD_some] at hlookup

theorem ReplicaGroups.lt_of_mem (h : ReplicaGroups opts devices groups) {g : String × List Nat}
    (hg : g ∈ groups) {j : Nat} (hj : j ∈ g.2) : j < devices.length := by
  rw [h.eq_of_mem hg, mem_replicasOf] at hj
  obtain ⟨_, hdevice, -⟩ := hj
  exact (List.getElem?_eq_some_iff.mp hdevice).1

/-- Every device's target has a group. -/
theorem ReplicaGroups.exists_mem (h : ReplicaGroups opts devices groups) {device : DeviceId}
    (hdevice : device ∈ devices) {target : String} (htarget : opts.sessionTarget device = .ok target) :
    ∃ g ∈ groups, g.1 = target := by
  obtain ⟨j, hj, rfl⟩ := List.getElem_of_mem hdevice
  have hmem : j ∈ (groups.lookup target).getD [] := by
    rw [h.lookup, mem_replicasOf]
    exact ⟨_, List.getElem?_eq_getElem hj, htarget⟩
  obtain ⟨g, hg, hkey⟩ : ∃ g ∈ groups, target == g.1 := by
    rw [← List.lookup_isSome_iff]
    cases hl : groups.lookup target <;> simp_all
  exact ⟨g, hg, (beq_iff_eq.mp hkey).symm⟩

end Groups

/-! ## Session runners -/

/-- Reading through indices that all hit keeps one entry per index. -/
theorem filterMap_map_some {α β : Type} {f : α → Option β} {l : List α}
    (h : ∀ a ∈ l, (f a).isSome) : (l.filterMap f).map some = l.map f := by
  induction l with
  | nil => rfl
  | cons a rest ih =>
      obtain ⟨b, hb⟩ := Option.isSome_iff_exists.mp (h a (List.mem_cons_self _ _))
      simp [List.filterMap_cons, hb, ih fun x hx => h x (List.mem_cons_of_mem _ hx)]

section Runner

variable (server : Server V) {execOps : List (ExecNode V)} {computations : List XrtComputation}
  {devices : List DeviceId}

theorem mapM_fetchReplica {replicas : List Nat}
    (h : ∀ j ∈ replicas, j < execOps.length ∧ j < computations.length) :
    replicas.mapM (fetchReplica execOps computations) =
      .ok (replicas.filterMap fun j => execOps[j]?) := by
  induction replicas with
  | nil => rfl
  | cons j rest ih =>
      obtain ⟨h₁, h₂⟩ := h j (List.mem_cons_self _ _)
      rw [List.mapM_cons, ih fun k hk => h k (List.mem_cons_of_mem _ hk)]
      simp [fetchReplica, vectorAt_of_lt _ _ _ h₁, vectorAt_of_lt _ _ _ h₂, List.filterMap_cons,
        List.getElem?_eq_getElem h₁]

/-- Fetching the replicas `0, ..., n - 1` from an `exec_ops` shorter than `n` reads past its end,
at index `exec_ops.size()`. -/
theorem mapM_fetchReplica_of_short {n : Nat} (hshort : execOps.length < n)
    (hcomputations : n ≤ computations.length) :
    (List.range n).mapM (fetchReplica execOps computations) =
      .error (.outOfRange "exec_ops" execOps.length) := by
  obtain ⟨m, rfl⟩ : ∃ m, n = m + 1 + execOps.length := ⟨n - execOps.length - 1, by omega⟩
  rw [List.range_eq_range', ← List.range'_append_1, List.range'_succ, List.mapM_append,
    ← List.range_eq_range', mapM_fetchReplica fun j hj => by simp at hj; omega, List.mapM_cons]
  simp [fetchReplica, vectorAt_of_le]

/-- A runner whose replicas are in range fails, if at all, by a check. -/
theorem sessionRunner_checksOnly (hexecOps : execOps.length = devices.length)
    (hcomputations : computations.length = devices.length) (group : String × List Nat)
    (hgroup : ∀ j ∈ group.2, j < devices.length) (log : List (ExecuteRun V)) :
    ChecksOnly ((sessionRunner server execOps computations devices group).run.run log).1 := by
  have hfetch : group.2.mapM (fetchReplica execOps computations) =
      .ok (group.2.filterMap fun j => execOps[j]?) :=
    mapM_fetchReplica fun j hj => by have := hgroup j hj; omega
  have hlen : (group.2.filterMap fun j => execOps[j]?).length = group.2.length := by
    simpa using congrArg List.length (filterMap_map_some fun j hj => by
      have := hgroup j hj
      simp [List.getElem?_eq_getElem (show j < execOps.length by omega)] :
      (group.2.filterMap fun j => execOps[j]?).map some = group.2.map fun j => execOps[j]?)
  simp only [sessionRunner, SessionM.run_bind, hfetch, SessionM.run_ofExcept, SessionM.run_issueRun,
    List.length_map, xlaCheck_of_true]
  refine checksOnly_mapM fun entry hentry => ?_
  have hi : entry.1 < group.2.length := by simpa [hlen] using (List.mem_enum hentry).1
  have hj := hgroup _ (List.getElem_mem hi)
  rw [readReplicaResults, vectorAt_of_lt _ _ _ hi, ok_bind,
    vectorAt_of_lt _ computations _ (by omega), ok_bind, vectorAt_of_lt _ devices _ hj, ok_bind]
  exact checksOnly_bind (checksOnly_getComputationResults _ _ _) fun _ _ => checksOnly_ok _

variable (hexecOps : execOps.length = devices.length)
  (hcomputations : computations.length = devices.length) {results : List (List (XrtData V))}
  (hlength : results.length = devices.length)
  (hresults : ∀ j (hj : j < devices.length),
    getComputationResults (server.executeNode execOps[j]) computations[j].resultShape devices[j] =
      .ok results[j])

include hexecOps hcomputations hlength hresults

/-- A runner's outputs, output `i` being that of `replicas[i]`, read back into the results of
every replica. -/
theorem mapM_readReplicaResults {replicas : List Nat} (hreplicas : ∀ j ∈ replicas, j < devices.length) :
    ((replicas.filterMap fun j => execOps[j]?).map server.executeNode).enum.mapM
        (readReplicaResults computations devices replicas) =
      .ok (replicas.map fun j => (j, results.getD j [])) := by
  have hnodes : (replicas.filterMap fun j => execOps[j]?).map some = replicas.map fun j => execOps[j]? :=
    filterMap_map_some fun j hj => by
      have := hreplicas j hj
      simp [List.getElem?_eq_getElem (show j < execOps.length by omega)]
  have hlen : (replicas.filterMap fun j => execOps[j]?).length = replicas.length := by
    simpa using congrArg List.length hnodes
  rw [mapM_eq_ok_map (g := fun e => (replicas.getD e.1 0, results.getD (replicas.getD e.1 0) []))]
  · congr 1
    refine List.ext_getElem (by simp [hlen]) fun i h₁ h₂ => ?_
    simp [List.getElem_enum, List.getD_eq_getElem?_getD, List.getElem?_eq_getElem (by simpa [hlen] using h₁ : i < replicas.length)]
  · rintro ⟨i, output⟩ he
    rw [List.mem_enum_iff_getElem?, List.getElem?_map] at he
    obtain ⟨node, hnode, rfl⟩ := Option.map_eq_some'.mp he
    have hi := congrArg (·[i]?) hnodes
    simp only [List.getElem?_map, hnode, Option.map_some'] at hi
    obtain ⟨j, hj, hexec⟩ := Option.map_eq_some'.mp hi.symm
    have hjn := hreplicas j (List.getElem?_mem hj)
    obtain rfl : execOps[j] = node := by
      rw [List.getElem?_eq_getElem (by omega)] at hexec
      exact Option.some.inj hexec
    have hi' : i < replicas.length := (List.getElem?_eq_some_iff.mp hj).1
    obtain rfl : replicas[i] = j := (List.getElem?_eq_some_iff.mp hj).2
    simp [readReplicaResults, vectorAt_of_lt _ _ _ hi', vectorAt_of_lt _ computations _ (by omega : replicas[i] < computations.length),
      vectorAt_of_lt _ devices _ hjn, hresults _ hjn, List.getD_eq_getElem?_getD, List.getElem?_eq_getElem hi',
      List.getElem?_eq_getElem (by omega : replicas[i] < results.length)]

/-- A runner whose replicas are in range issues its one `session->Run`, fetching its replicas'
nodes in order, and writes every replica's results. -/
theorem sessionRunner_eq (group : String × List Nat) (hgroup : ∀ j ∈ group.2, j < devices.length)
    (log : List (ExecuteRun V)) :
    (sessionRunner server execOps computations devices group).run.run log =
      (.ok (group.2.map fun j => (j, results.getD j [])),
        log ++ [⟨group.1, group.2.filterMap fun j => execOps[j]?⟩]) := by
  have hfetch : group.2.mapM (fetchReplica execOps computations) =
      .ok (group.2.filterMap fun j => execOps[j]?) :=
    mapM_fetchReplica fun j hj => by have := hgroup j hj; omega
  simp only [sessionRunner, SessionM.run_bind, hfetch, SessionM.run_ofExcept, SessionM.run_issueRun,
    List.length_map, xlaCheck_of_true, mapM_readReplicaResults server hexecOps hcomputations hlength
      hresults hgroup]

end Runner

/-! ## `RunComputations` -/

/-- `RunComputations` on devices that resolve to sessions of the map, with a node and a
computation per device whose results read back: one `session->Run` per worker target, fetching
the nodes of the replicas on that target in increasing order, and slot `j` holding the results of
node `j` read with `computations[j]`'s result shape on `devices[j]`, whatever the order of the
runners. -/
theorem runComputations_runs_per_target (opts : Options) (server : Server V)
    (order : List (String × List Nat) → List (String × List Nat)) (horder : ∀ l, (order l).Perm l)
    (sessionMap : List String) (execOps : List (ExecNode V)) (computations : List XrtComputation)
    (devices : List DeviceId)
    (htargets : ∀ device ∈ devices, ∃ target, opts.sessionTarget device = .ok target ∧
      target ∈ sessionMap)
    (hexecOps : execOps.length = devices.length)
    (hcomputations : computations.length = devices.length)
    (hresults : ∀ j (hj : j < devices.length), ∃ data, getComputationResults
      (server.executeNode execOps[j]) computations[j].resultShape devices[j] = .ok data)
    (log : List (ExecuteRun V)) :
    ∃ runs results,
      (runComputations opts server order sessionMap execOps computations devices).run.run log =
        (.ok results, log ++ runs) ∧
      (runs.map ExecuteRun.target).Nodup ∧
      (∀ device ∈ devices, ∃ run ∈ runs, opts.sessionTarget device = .ok run.target) ∧
      (∀ run ∈ runs, run.nodes ≠ [] ∧
        run.nodes.map some = (replicasOf opts devices run.target).map fun j => execOps[j]?) ∧
      results.length = devices.length ∧
      ∀ j (hj : j < devices.length), ∃ data, results[j]? = some data ∧ getComputationResults
        (server.executeNode execOps[j]) computations[j].resultShape devices[j] = .ok data := by
  choose data hdata using hresults
  set results := List.ofFn fun j : Fin devices.length => data j j.2
  have hlength : results.length = devices.length := List.length_ofFn _
  have hread : ∀ j (hj : j < devices.length), getComputationResults (server.executeNode execOps[j])
      computations[j].resultShape devices[j] = .ok results[j] := fun j hj => by
    simp [results, hdata, List.getElem_ofFn]
  obtain ⟨groups, hgroups, hinv⟩ := groupReplicas_eq opts sessionMap devices htargets
  have hperm := horder groups
  have hin : ∀ g ∈ order groups, ∀ j ∈ g.2, j < devices.length := fun g hg _ hj =>
    hinv.lt_of_mem (hperm.subset hg) hj
  have hnodes : ∀ g ∈ order groups, (g.2.filterMap fun j => execOps[j]?).map some =
      g.2.map fun j => execOps[j]? := fun g hg => filterMap_map_some fun j hj => by
    have := hin g hg j hj
    simp [List.getElem?_eq_getElem (show j < execOps.length by omega)]
  let runOf : String × List Nat → ExecuteRun V := fun g => ⟨g.1, g.2.filterMap fun j => execOps[j]?⟩
  have hscatter : scatter (List.replicate devices.length [])
      ((order groups).flatMap fun g => g.2.map fun j => (j, results.getD j [])) = results := by
    refine scatter_eq_of_cover _ _ _ (by simp [hlength]) ?_ ?_
    · simpa [List.map_flatMap, Function.comp_def] using
        ((hperm.flatMap_right Prod.snd).trans hinv.cover)
    · intro w hw
      obtain ⟨g, hg, hw⟩ := List.mem_flatMap.mp hw
      obtain ⟨j, hj, rfl⟩ := List.mem_map.mp hw
      simp [List.getD_eq_getElem?_getD, List.getElem?_eq_getElem (hlength ▸ hin g hg j hj)]
  refine ⟨(order groups).map runOf, results, ?_, ?_, fun device hdevice => ?_, fun run hrun => ?_,
    hlength, fun j hj => ⟨results[j], List.getElem?_eq_getElem _, hread j hj⟩⟩
  · simp only [runComputations, SessionM.run_bind, SessionM.run_ofExcept, hgroups,
      xlaCheck_of_true _ hcomputations]
    rw [multiWait_eq _ _ (fun g log => log ++ [runOf g]) (fun _ => True) (fun g hg log _ =>
      ⟨sessionRunner_eq server hexecOps hcomputations hlength hread g (hin g hg) log, trivial⟩) _ _
      trivial, hscatter, foldl_append_singleton]
  · simpa [runOf] using (hperm.map Prod.fst).nodup_iff.mpr hinv.nodup
  · obtain ⟨target, htarget, -⟩ := htargets device hdevice
    obtain ⟨g, hg, rfl⟩ := hinv.exists_mem hdevice htarget
    exact ⟨runOf g, List.mem_map_of_mem _ (hperm.mem_iff.mpr hg), htarget⟩
  · obtain ⟨g, hg, rfl⟩ := List.mem_map.mp hrun
    have hsome := hnodes g hg
    refine ⟨fun hnil => hinv.ne_nil g (hperm.subset hg) ?_, ?_⟩
    · have hnil : (g.2.filterMap fun j => execOps[j]?) = [] := hnil
      simpa [hnil] using hsome.symm
    · rw [← hinv.eq_of_mem (hperm.subset hg)]
      exact hsome

/-- The two cores of one worker, each with a node of one computation. -/
def twoCores : List DeviceId := [⟨"TPU", 0⟩, ⟨"TPU", 1⟩]

/-- A computation returning an `F32[2]`. -/
def vectorComputation : XrtComputation := ⟨5, .array .F32 [2] [0]⟩

/-- One vector argument on each of the two cores. -/
def twoCoreArguments : List (List (XrtData Nat)) :=
  [[⟨⟨"TPU", 0⟩, .array .F32 [2] [0], 1⟩], [⟨⟨"TPU", 1⟩, .array .F32 [2] [0], 2⟩]]

theorem twoCores_resolve :
    ∀ device ∈ twoCores, ∃ target, sharedWorkerOptions.sessionTarget device = .ok target :=
  fun device hdevice => by
    simp only [twoCores, List.mem_cons, List.mem_singleton, List.not_mem_nil, or_false] at hdevice
    rcases hdevice with rfl | rfl <;> exact ⟨_, rfl⟩

theorem runComputations_runs_per_target_two_cores :
    ∃ runs results, (runComputations sharedWorkerOptions numberServer id ["grpc://localhost:8470"]
        [⟨vectorComputation, true, []⟩, ⟨vectorComputation, true, [3]⟩]
        [vectorComputation, vectorComputation] twoCores).run.run [] = (.ok results, [] ++ runs) ∧
      (runs.map ExecuteRun.target).Nodup ∧
      (∀ device ∈ twoCores, ∃ run ∈ runs,
        sharedWorkerOptions.sessionTarget device = .ok run.target) ∧
      (∀ run ∈ runs, run.nodes ≠ [] ∧ run.nodes.map some =
        (replicasOf sharedWorkerOptions twoCores run.target).map fun j =>
          ([⟨vectorComputation, true, []⟩, ⟨vectorComputation, true, [3]⟩] : List (ExecNode Nat))[j]?) ∧
      results.length = twoCores.length ∧
      ∀ j (hj : j < twoCores.length), ∃ data, results[j]? = some data ∧ getComputationResults
        (numberServer.executeNode
          ([⟨vectorComputation, true, []⟩, ⟨vectorComputation, true, [3]⟩] : List (ExecNode Nat))[j])
        ([vectorComputation, vectorComputation] : List XrtComputation)[j].resultShape twoCores[j] =
          .ok data :=
  runComputations_runs_per_target sharedWorkerOptions numberServer id (fun l => List.Perm.refl l)
    ["grpc://localhost:8470"] [⟨vectorComputation, true, []⟩, ⟨vectorComputation, true, [3]⟩]
    [vectorComputation, vectorComputation] twoCores
    (fun device hdevice => ⟨"grpc://localhost:8470", by
      simp only [twoCores, List.mem_cons, List.mem_singleton, List.not_mem_nil, or_false] at hdevice
      rcases hdevice with rfl | rfl <;> rfl, List.mem_singleton_self _⟩) rfl rfl
    (fun j hj => match j, hj with
      | 0, _ => ⟨_, rfl⟩
      | 1, _ => ⟨_, rfl⟩) []

/-! ## `ExecuteParallel` and `ExecuteReplicated` -/

/-- A node's output reads back with its own computation's result shape. -/
theorem getComputationResults_executeNode (server : Server V) (node : ExecNode V)
    (device : DeviceId) : ∃ data, getComputationResults (server.executeNode node)
      node.computation.resultShape device = .ok data := by
  obtain ⟨⟨handle, resultShape⟩, explodeTuple, inputs⟩ := node
  cases explodeTuple with
  | false => exact ⟨_, rfl⟩
  | true =>
      cases resultShape with
      | array => exact ⟨_, rfl⟩
      | tuple elements =>
          obtain ⟨data, hdata, -⟩ := mapM_ok_of_forall (f := fun entry => do
              let shape ← (Shape.tuple elements).getTupleElementShape entry.1
              pure (⟨device, shape, entry.2⟩ : XrtData V))
            (l := ((List.range elements.length).map
              (server.element (server.run handle inputs))).enum) fun entry hentry => by
            have hlt : entry.1 < elements.length := by simpa using (List.mem_enum hentry).1
            exact ⟨_, by simp [Shape.getTupleElementShape, hlt]; rfl⟩
          exact ⟨data, hdata⟩

/-- `ExecuteParallel` on lists of one length whose arguments live on their devices, each device
resolving to a worker: one `session->Run` per worker target, and slot `j` of the result holds
the results of `computations[j]` on `arguments[j]` on `devices[j]`, in the caller's order. -/
theorem executeParallel_in_caller_order (opts : Options) (server : Server V)
    (order : List (String × List Nat) → List (String × List Nat)) (horder : ∀ l, (order l).Perm l)
    (computations : List XrtComputation) (arguments : List (List (XrtData V)))
    (devices : List DeviceId) (explodeTuple : Bool)
    (hcomputations : computations.length = devices.length)
    (harguments : arguments.length = devices.length)
    (hplaced : ∀ j (hj : j < devices.length), ∀ argument ∈ arguments[j], argument.device = devices[j])
    (hresolve : ∀ device ∈ devices, ∃ target, opts.sessionTarget device = .ok target)
    (log : List (ExecuteRun V)) :
    ∃ runs results, (executeParallel opts server order computations arguments devices
        explodeTuple).run.run log = (.ok results, log ++ runs) ∧
      (runs.map ExecuteRun.target).Nodup ∧
      (∀ device ∈ devices, ∃ run ∈ runs, opts.sessionTarget device = .ok run.target) ∧
      results.length = devices.length ∧
      ∀ j (hj : j < devices.length), ∃ data, results[j]? = some data ∧ getComputationResults
        (server.executeNode ⟨computations[j], explodeTuple, arguments[j].map XrtData.handle⟩)
        computations[j].resultShape devices[j] = .ok data := by
  obtain ⟨sessionMap, hops, hsessions⟩ :=
    createExecuteOps_eq opts explodeTuple hcomputations harguments hplaced hresolve
  set execOps := ((computations.zip arguments).zip devices).map fun p =>
    ExecuteOp.node explodeTuple (p.1.1, p.1.2, p.2)
  have hexecOps : execOps.length = devices.length := by simp [execOps, hcomputations, harguments]
  have hnode : ∀ j (hj : j < devices.length),
      execOps[j] = ⟨computations[j], explodeTuple, arguments[j].map XrtData.handle⟩ := fun j hj => by
    simp [execOps, ExecuteOp.node]
  obtain ⟨runs, results, hrun, hnodup, htargets, -, hlength, hresults⟩ :=
    runComputations_runs_per_target opts server order horder sessionMap execOps computations devices
      hsessions hexecOps hcomputations (fun j hj => by
        rw [hnode j hj]
        exact getComputationResults_executeNode server _ devices[j]) log
  refine ⟨runs, results, ?_, hnodup, htargets, hlength, fun j hj => ?_⟩
  · simp only [executeParallel, SessionM.run_bind, SessionM.run_ofExcept, hops]
    exact hrun
  · rw [← hnode j hj]
    exact hresults j hj

theorem executeParallel_in_caller_order_two_cores :
    ∃ runs results, (executeParallel sharedWorkerOptions numberServer id
        [vectorComputation, vectorComputation] twoCoreArguments twoCores true).run.run [] =
        (.ok results, [] ++ runs) ∧
      (runs.map ExecuteRun.target).Nodup ∧
      (∀ device ∈ twoCores, ∃ run ∈ runs, sharedWorkerOptions.sessionTarget device = .ok run.target) ∧
      results.length = twoCores.length ∧
      ∀ j (hj : j < twoCores.length), ∃ data, results[j]? = some data ∧ getComputationResults
        (numberServer.executeNode ⟨([vectorComputation, vectorComputation] : List XrtComputation)[j],
          true, twoCoreArguments[j].map XrtData.handle⟩)
        ([vectorComputation, vectorComputation] : List XrtComputation)[j].resultShape twoCores[j] =
          .ok data :=
  executeParallel_in_caller_order sharedWorkerOptions numberServer id (fun l => List.Perm.refl l)
    [vectorComputation, vectorComputation] twoCoreArguments twoCores true rfl rfl (by decide)
    twoCores_resolve []

/-- `ExecuteReplicated` on as many argument lists as devices, each list living on its device,
each device resolving to a worker: one `session->Run` per worker target, and slot `j` of the
result holds the results of the computation on `arguments[j]` on `devices[j]`, in the caller's
order. -/
theorem executeReplicated_in_caller_order (opts : Options) (server : Server V)
    (order : List (String × List Nat) → List (String × List Nat)) (horder : ∀ l, (order l).Perm l)
    (computation : XrtComputation) (arguments : List (List (XrtData V)))
    (devices : List DeviceId) (explodeTuple : Bool)
    (harguments : arguments.length = devices.length)
    (hplaced : ∀ j (hj : j < arguments.length), ∀ argument ∈ arguments[j],
      argument.device = devices[j])
    (hresolve : ∀ device ∈ devices, ∃ target, opts.sessionTarget device = .ok target)
    (log : List (ExecuteRun V)) :
    ∃ runs results, (executeReplicated opts server order computation arguments devices
        explodeTuple).run.run log = (.ok results, log ++ runs) ∧
      (runs.map ExecuteRun.target).Nodup ∧
      (∀ device ∈ devices, ∃ run ∈ runs, opts.sessionTarget device = .ok run.target) ∧
      results.length = devices.length ∧
      ∀ j (hj : j < devices.length), ∃ data, results[j]? = some data ∧ getComputationResults
        (server.executeNode ⟨computation, explodeTuple, arguments[j].map XrtData.handle⟩)
        computation.resultShape devices[j] = .ok data := by
  obtain ⟨sessionMap, hops, hsessions⟩ :=
    createReplicatedExecuteOps_eq opts explodeTuple computation harguments.le hplaced hresolve
  set execOps := (arguments.zip devices).map fun p => ExecuteOp.node explodeTuple (computation, p.1, p.2)
  have hexecOps : execOps.length = devices.length := by simp [execOps, harguments]
  have hnode : ∀ j (hj : j < devices.length),
      execOps[j] = ⟨computation, explodeTuple, arguments[j].map XrtData.handle⟩ := fun j hj => by
    simp [execOps, ExecuteOp.node]
  have htargets : ∀ device ∈ devices, ∃ target, opts.sessionTarget device = .ok target ∧
      target ∈ sessionMap := fun device hdevice => by
    obtain ⟨j, hj, rfl⟩ := List.getElem_of_mem hdevice
    exact hsessions j (by omega)
  obtain ⟨runs, results, hrun, hnodup, htargets, -, hlength, hresults⟩ :=
    runComputations_runs_per_target opts server order horder sessionMap execOps
      (List.replicate devices.length computation) devices htargets hexecOps (by simp)
      (fun j hj => by
        simpa [hnode j hj] using getComputationResults_executeNode server execOps[j] devices[j]) log
  refine ⟨runs, results, ?_, hnodup, htargets, hlength, fun j hj => ?_⟩
  · simp only [executeReplicated, SessionM.run_bind, SessionM.run_ofExcept, hops]
    exact hrun
  · simpa [hnode j hj] using hresults j hj

theorem executeReplicated_in_caller_order_two_cores :
    ∃ runs results, (executeReplicated sharedWorkerOptions numberServer id vectorComputation
        twoCoreArguments twoCores true).run.run [] = (.ok results, [] ++ runs) ∧
      (runs.map ExecuteRun.target).Nodup ∧
      (∀ device ∈ twoCores, ∃ run ∈ runs, sharedWorkerOptions.sessionTarget device = .ok run.target) ∧
      results.length = twoCores.length ∧
      ∀ j (hj : j < twoCores.length), ∃ data, results[j]? = some data ∧ getComputationResults
        (numberServer.executeNode ⟨vectorComputation, true, twoCoreArguments[j].map XrtData.handle⟩)
        vectorComputation.resultShape twoCores[j] = .ok data :=
  executeReplicated_in_caller_order sharedWorkerOptions numberServer id (fun l => List.Perm.refl l)
    vectorComputation twoCoreArguments twoCores true rfl (by decide) twoCores_resolve []

/-! ## Indices in range -/

/-- `RunComputations` on devices whose targets all have sessions, with a node and a computation
per device, fails, if at all, by a check. -/
theorem runComputations_checksOnly (opts : Options) (server : Server V)
    (order : List (String × List Nat) → List (String × List Nat)) (horder : ∀ l, (order l).Perm l)
    (sessionMap : List String) (execOps : List (ExecNode V)) (computations : List XrtComputation)
    (devices : List DeviceId)
    (htargets : ∀ device ∈ devices, ∃ target, opts.sessionTarget device = .ok target ∧
      target ∈ sessionMap)
    (hexecOps : execOps.length = devices.length)
    (hcomputations : computations.length = devices.length) (log : List (ExecuteRun V)) :
    ChecksOnly ((runComputations opts server order sessionMap execOps computations
      devices).run.run log).1 := by
  obtain ⟨groups, hgroups, hinv⟩ := groupReplicas_eq opts sessionMap devices htargets
  simp only [runComputations, SessionM.run_bind, SessionM.run_ofExcept, hgroups,
    xlaCheck_of_true _ hcomputations]
  refine multiWait_checksOnly (fun runner hrunner log => ?_) _ _
  obtain ⟨g, hg, rfl⟩ := List.mem_map.mp hrunner
  exact sessionRunner_checksOnly server hexecOps hcomputations g
    (fun j hj => hinv.lt_of_mem ((horder groups).subset hg) hj) log

/-- The fault of a step that fails only by checks, passed on by the call, is a check. -/
theorem checksOnly_error_of {α β : Type} {x : Except Fault α} (hx : ChecksOnly x) {e : Fault}
    (he : x = .error e) : ChecksOnly (.error e : Except Fault β) :=
  fun _ h => by cases h; exact hx _ he

/-- With lists of one length, every index `CreateExecuteOps` and `RunComputations` read is in
range and every `session_map.at` finds its session: `ExecuteParallel` fails, if at all, by a
check. -/
theorem executeParallel_checksOnly (opts : Options) (server : Server V)
    (order : List (String × List Nat) → List (String × List Nat)) (horder : ∀ l, (order l).Perm l)
    (computations : List XrtComputation) (arguments : List (List (XrtData V)))
    (devices : List DeviceId) (explodeTuple : Bool)
    (hcomputations : computations.length = devices.length)
    (harguments : arguments.length = devices.length) (log : List (ExecuteRun V)) :
    ChecksOnly ((executeParallel opts server order computations arguments devices
      explodeTuple).run.run log).1 := by
  have hread : ∀ entry ∈ computations.enum, readParallelOp arguments devices entry =
      .ok (entry.2, arguments.getD entry.1 [], devices[entry.1]?.getD ⟨"", 0⟩) := fun entry hentry => by
    have := (List.mem_enum hentry).1
    simp [readParallelOp, vectorAt_of_lt _ arguments _ (show entry.1 < arguments.length by omega),
      vectorAt_of_lt _ devices _ (show entry.1 < devices.length by omega),
      List.getD_eq_getElem?_getD, List.getElem?_eq_getElem (show entry.1 < arguments.length by omega),
      List.getElem?_eq_getElem (show entry.1 < devices.length by omega)]
  unfold executeParallel
  rw [SessionM.run_bind, SessionM.run_ofExcept]
  rcases hops : createExecuteOps opts computations arguments explodeTuple devices with
    e | ⟨sessionMap, execOps⟩
  · dsimp only
    exact checksOnly_error_of (checksOnly_createExecuteOpsWith opts explodeTuple computations
      fun entry hentry => hread entry hentry ▸ checksOnly_ok _) hops
  · obtain ⟨hlength, hsessions⟩ := createExecuteOpsWith_ok hops
    refine runComputations_checksOnly opts server order horder sessionMap execOps computations
      devices (fun device hdevice => ?_) (by omega) hcomputations _
    obtain ⟨j, hj, rfl⟩ := List.getElem_of_mem hdevice
    have hentry : (j, computations[j]) ∈ computations.enum :=
      List.mem_enum_iff_getElem?.mpr (List.getElem?_eq_getElem (by omega))
    simpa [List.getElem?_eq_getElem hj] using hsessions _ hentry _ (hread _ hentry)

theorem executeParallel_checksOnly_two_cores :
    ChecksOnly ((executeParallel sharedWorkerOptions numberServer id
      [vectorComputation, vectorComputation] twoCoreArguments twoCores true).run.run []).1 :=
  executeParallel_checksOnly sharedWorkerOptions numberServer id (fun l => List.Perm.refl l)
    [vectorComputation, vectorComputation] twoCoreArguments twoCores true rfl rfl []

/-- With as many argument lists as devices, every index `CreateExecuteOps` and `RunComputations`
read is in range and every `session_map.at` finds its session: `ExecuteReplicated` fails, if at
all, by a check. -/
theorem executeReplicated_checksOnly (opts : Options) (server : Server V)
    (order : List (String × List Nat) → List (String × List Nat)) (horder : ∀ l, (order l).Perm l)
    (computation : XrtComputation) (arguments : List (List (XrtData V))) (devices : List DeviceId)
    (explodeTuple : Bool) (harguments : arguments.length = devices.length)
    (log : List (ExecuteRun V)) :
    ChecksOnly ((executeReplicated opts server order computation arguments devices
      explodeTuple).run.run log).1 := by
  have hread : ∀ entry ∈ arguments.enum, readReplicatedOp computation devices entry =
      .ok (computation, entry.2, devices[entry.1]?.getD ⟨"", 0⟩) := fun entry hentry => by
    have := (List.mem_enum hentry).1
    simp [readReplicatedOp, vectorAt_of_lt _ devices _ (show entry.1 < devices.length by omega),
      List.getElem?_eq_getElem (show entry.1 < devices.length by omega)]
  unfold executeReplicated
  rw [SessionM.run_bind, SessionM.run_ofExcept]
  rcases hops : createReplicatedExecuteOps opts computation arguments explodeTuple devices with
    e | ⟨sessionMap, execOps⟩
  · dsimp only
    exact checksOnly_error_of (checksOnly_createExecuteOpsWith opts explodeTuple arguments
      fun entry hentry => hread entry hentry ▸ checksOnly_ok _) hops
  · obtain ⟨hlength, hsessions⟩ := createExecuteOpsWith_ok hops
    refine runComputations_checksOnly opts server order horder sessionMap execOps _ devices
      (fun device hdevice => ?_) (by omega) (List.length_replicate _ _) _
    obtain ⟨j, hj, rfl⟩ := List.getElem_of_mem hdevice
    have hentry : (j, arguments[j]) ∈ arguments.enum :=
      List.mem_enum_iff_getElem?.mpr (List.getElem?_eq_getElem (by omega))
    simpa [List.getElem?_eq_getElem hj] using hsessions _ hentry _ (hread _ hentry)

theorem executeReplicated_checksOnly_two_cores :
    ChecksOnly ((executeReplicated sharedWorkerOptions numberServer id vectorComputation
      twoCoreArguments twoCores true).run.run []).1 :=
  executeReplicated_checksOnly sharedWorkerOptions numberServer id (fun l => List.Perm.refl l)
    vectorComputation twoCoreArguments twoCores true rfl []

/-! ## Lists of different lengths -/

theorem groupReplicas_of_one_target (opts : Options) {sessionMap : List String} {target : String}
    (hmem : target ∈ sessionMap) {devices : List DeviceId} (hdevices : devices ≠ [])
    (htarget : ∀ device ∈ devices, opts.sessionTarget device = .ok target) :
    groupReplicas opts sessionMap devices = .ok [(target, List.range devices.length)] := by
  induction devices using List.reverseRecOn with
  | nil => exact absurd rfl hdevices
  | append_singleton pre device ih =>
      have hdevice := htarget device (by simp)
      unfold groupReplicas at ih ⊢
      rw [List.enum_append, List.enumFrom_singleton, List.foldlM_append]
      by_cases hpre : pre = []
      · subst hpre
        simp [hdevice, hmem, addToGroup]
        rfl
      · rw [ih hpre fun d hd => htarget d (List.mem_append_left _ hd), ok_bind, List.foldlM_cons]
        simp [hdevice, hmem, addToGroup, List.range_succ]
        rfl

/-- `ExecuteReplicated` with fewer argument lists than devices, all on one worker target: the
session runner reads `exec_ops` past its end, at `exec_ops[arguments.size()]`, before its
`session->Run`, and no check fires first. -/
theorem executeReplicated_reads_past_exec_ops (opts : Options) (server : Server V)
    (order : List (String × List Nat) → List (String × List Nat)) (horder : ∀ l, (order l).Perm l)
    (computation : XrtComputation) (arguments : List (List (XrtData V))) (devices : List DeviceId)
    (explodeTuple : Bool) {target : String} (harguments : arguments ≠ [])
    (hshort : arguments.length < devices.length)
    (hplaced : ∀ j (hj : j < arguments.length), ∀ argument ∈ arguments[j],
      argument.device = devices[j])
    (htarget : ∀ device ∈ devices, opts.sessionTarget device = .ok target)
    (log : List (ExecuteRun V)) :
    (executeReplicated opts server order computation arguments devices explodeTuple).run.run log =
      (.error (.outOfRange "exec_ops" arguments.length), log) := by
  obtain ⟨sessionMap, hops, hsessions⟩ := createReplicatedExecuteOps_eq opts explodeTuple
    computation hshort.le hplaced fun device hdevice => ⟨target, htarget device hdevice⟩
  have hmem : target ∈ sessionMap := by
    obtain ⟨t, ht, hmem⟩ := hsessions 0 (List.length_pos.mpr harguments)
    rw [htarget _ (List.getElem_mem _), Except.ok.injEq] at ht
    exact ht ▸ hmem
  have hgroups := groupReplicas_of_one_target opts hmem (List.ne_nil_of_length_pos (by omega)) htarget
  have hsingle := List.perm_singleton.mp (horder [(target, List.range devices.length)])
  have hfetch : (List.range devices.length).mapM (fetchReplica ((arguments.zip devices).map fun p =>
      ExecuteOp.node explodeTuple (computation, p.1, p.2)) (List.replicate devices.length computation)) =
      .error (.outOfRange "exec_ops" arguments.length) := by
    rw [mapM_fetchReplica_of_short (by simp; omega) (by simp)]
    simp [Nat.min_eq_left hshort.le]
  simp only [executeReplicated, runComputations, multiWait, completeClosure, sessionRunner,
    SessionM.run_bind, SessionM.run_ofExcept, SessionM.run_tryCatch, hops, hgroups, hsingle,
    List.length_replicate, xlaCheck_of_true, List.map_cons, List.map_nil, List.foldlM_cons,
    List.foldlM_nil, hfetch]
  rfl

theorem executeReplicated_reads_past_exec_ops_two_cores :
    (executeReplicated sharedWorkerOptions numberServer id vectorComputation [[]] twoCores
      true).run.run [] = (.error (.outOfRange "exec_ops" 1), []) :=
  executeReplicated_reads_past_exec_ops sharedWorkerOptions numberServer id
    (fun l => List.Perm.refl l) vectorComputation [[]] twoCores true (by simp) (by decide)
    (fun j hj argument hargument => by
      obtain rfl : j = 0 := by simpa using hj
      simp at hargument)
    (fun device hdevice => by
      simp only [twoCores, List.mem_cons, List.mem_singleton, List.not_mem_nil, or_false] at hdevice
      rcases hdevice with rfl | rfl <;> rfl) []

/-! ## One device -/

end XrtClient
