import XrtClient.Mesh

/-! # Starting the client

`ComputationClient::Create` takes the client's options from the first source that has them: a TPU
cluster in `XRT_TPU_CONFIG`, device counts in `XRT_NUM_TPU` and `XRT_NUM_GPU` for a local service,
the device and worker maps of `XRT_DEVICE_MAP` and `XRT_WORKERS` (both have defaults), or the
mesh service; `PopulateLocalDevices` then picks the devices this process serves. The constructor
of `XrtComputationClient` builds the sessions' config (`CreateConfigProto`: with more than one
worker, a cluster of one job per worker name, each task at its target without the `grpc://`
scheme), and their local target (`GetLocalTarget`), checks that the default device and every
served device are in the global device map, and starts an in-process XRT server for the local
worker (`MaybeCreateLocalService`). With a TPU cluster configured, the devices of each kind are
numbered one after another across the cluster's hosts; with device counts only, the client
starts as the one host `localservice:0`.

The maps of the environment enter as their parsers split them and `ParseWorker` and the
`DeviceId` constructor read them; the splits and `std::stoi` are not modelled. `XRT_LOCAL_WORKER`
enters, when set, as its text and the worker `ParseWorker` reads from it. Each call of
`PickUnusedPortOrDie` that a run makes gives `port`. The device counts `GetEnvInt` reads are
narrowed to `int` as the code does (`castToInt`). The parsers' `std::map`s are kept in insertion
order, so the results about what the client serves are stated for every order of the parsed maps,
the code's key order among them.
-/

namespace XrtClient

/-- `kLocalService`. -/
def kLocalService : String := "localservice"

/-- `StripPrefix`: `value` without `start`, if it starts with it. -/
def stripPrefix (value start : String) : String :=
  if value.startsWith start then value.drop start.length else value

/-- `XRT_LOCAL_WORKER` when set: its text and the worker `ParseWorker` reads from it. -/
structure LocalWorkerEnv where
  text : String
  worker : Worker
  deriving DecidableEq, Repr

/-- The worker `PopulateLocalDevices` and `MaybeCreateLocalService` match devices and workers
against: the local one, or `Worker("", -1)` when none is set. -/
def LocalWorkerEnv.workerOrNone (localWorker : Option LocalWorkerEnv) : Worker :=
  (localWorker.map LocalWorkerEnv.worker).getD ⟨"", -1⟩

/-! ## The cluster of the sessions' config -/

/-- A `tensorflow::JobDef`: its name and its tasks, a protobuf map from task number to target. -/
structure JobDef where
  name : String
  tasks : List (Int × String)
  deriving DecidableEq, Repr

/-- `(*job->mutable_tasks())[task_no] = target`. -/
def setTask (tasks : List (Int × String)) (taskNo : Int) (target : String) : List (Int × String) :=
  if (tasks.lookup taskNo).isSome then
    tasks.map fun task => if task.1 = taskNo then (taskNo, target) else task
  else tasks ++ [(taskNo, target)]

/-- The lookup of `CreateConfigProto` in `jobs`, the place in the cluster of the job of each
name seen so far: the place of the job named `name`, which is added at the end of the cluster
when the name is new. -/
def findOrAddJob (state : List JobDef × List (String × Nat)) (name : String) :
    (List JobDef × List (String × Nat)) × Nat :=
  match state.2.lookup name with
  | some index => (state, index)
  | none => ((state.1 ++ [⟨name, []⟩], emplace state.2 name state.1.length), state.1.length)

/-- One pass of the loop of `CreateConfigProto` over the workers map: the worker's task, at its
target without the `grpc://` scheme, in the job of its name. -/
def addWorkerTask (state : List JobDef × List (String × Nat)) (workerTarget : Worker × String) :
    List JobDef × List (String × Nat) :=
  let (state, index) := findOrAddJob state workerTarget.1.name
  let target := stripPrefix workerTarget.2 "grpc://"
  (state.1.modify (fun job => { job with tasks := setTask job.tasks workerTarget.1.taskNo target })
    index, state.2)

/-- `CreateConfigProto`: the cluster of the config, set only when there is more than one worker. -/
def createConfigProto (options : Options) : Option (List JobDef) :=
  if options.workersMap.length > 1 then
    some (options.workersMap.foldl addWorkerTask ([], [])).1
  else none

/-- The tasks of a cluster, job by job, as the worker and target each stands for. -/
def clusterTasks (clusterDef : List JobDef) : List (Worker × String) :=
  clusterDef.flatMap fun job => job.tasks.map fun task => (⟨job.name, task.1⟩, task.2)

theorem setTask_of_fresh {tasks : List (Int × String)} {taskNo : Int}
    (hfresh : taskNo ∉ tasks.map Prod.fst) (target : String) :
    setTask tasks taskNo target = tasks ++ [(taskNo, target)] := by
  have : tasks.lookup taskNo = none := List.lookup_eq_none_iff.mpr fun task htask =>
    bne_iff_ne.mpr fun h => hfresh (h ▸ List.mem_map_of_mem Prod.fst htask)
  simp [setTask, this]

/-- Adding a fresh task to the job at `index` keeps the jobs' names and adds one task to the
cluster. -/
theorem clusterTasks_modify {clusterDef : List JobDef} {index : Nat} {job : JobDef}
    (hjob : clusterDef[index]? = some job) {taskNo : Int} (hfresh : taskNo ∉ job.tasks.map Prod.fst)
    (target : String) :
    (clusterDef.modify (fun job => { job with tasks := setTask job.tasks taskNo target }) index).map
        JobDef.name = clusterDef.map JobDef.name ∧
      (clusterTasks (clusterDef.modify (fun job => { job with tasks := setTask job.tasks taskNo target })
        index)).Perm (clusterTasks clusterDef ++ [(⟨job.name, taskNo⟩, target)]) := by
  obtain ⟨hindex, hget⟩ := List.getElem?_eq_some_iff.mp hjob
  obtain ⟨pre, post, rfl, rfl⟩ : ∃ pre post, clusterDef = pre ++ job :: post ∧ pre.length = index :=
    ⟨_, _, by rw [← hget, ← List.drop_eq_getElem_cons hindex, List.take_append_drop],
      List.length_take_of_le hindex.le⟩
  rw [List.modify_eq_take_cons_drop hindex]
  simp only [List.take_left', List.getElem_append_right (le_refl _), Nat.sub_self,
    List.getElem_cons_zero]
  rw [show pre.length + 1 = (pre ++ [job]).length by simp, List.append_cons pre job post,
    List.drop_left]
  constructor
  · simp
  · simp only [clusterTasks, setTask_of_fresh hfresh, List.flatMap_append, List.flatMap_cons,
      List.flatMap_nil, List.map_append, List.append_assoc, List.map_cons, List.map_nil, List.append_nil,
      List.singleton_append]
    exact List.Perm.append_left _ (List.Perm.append_left _ (List.perm_append_singleton _ _).symm)

/-- What the loop of `CreateConfigProto` keeps after the entries `done`: each job name once, `jobs`
pointing at the job of each name it holds and holding every name of the cluster, and the cluster
listing the entries' workers at their targets without the `grpc://` scheme. -/
structure ClusterBuilt (done : List (Worker × String)) (state : List JobDef × List (String × Nat)) :
    Prop where
  names_nodup : (state.1.map JobDef.name).Nodup
  index_some : ∀ name index, state.2.lookup name = some index →
    (state.1[index]?).map JobDef.name = some name
  index_none : ∀ name, state.2.lookup name = none → name ∉ state.1.map JobDef.name
  tasks_perm : (clusterTasks state.1).Perm (done.map fun entry => (entry.1, stripPrefix entry.2 "grpc://"))

theorem findOrAddJob_of_some {state : List JobDef × List (String × Nat)} {name : String}
    {index : Nat} (h : state.2.lookup name = some index) : findOrAddJob state name = (state, index) := by
  simp [findOrAddJob, h]

theorem findOrAddJob_of_none {state : List JobDef × List (String × Nat)} {name : String}
    (h : state.2.lookup name = none) :
    findOrAddJob state name = ((state.1 ++ [⟨name, []⟩], state.2 ++ [(name, state.1.length)]),
      state.1.length) := by
  have hfresh : ∀ entry ∈ state.2, entry.1 ≠ name := fun entry hentry heq => by
    simpa [heq] using List.lookup_eq_none_iff.mp h entry hentry
  simp [findOrAddJob, h, emplace_of_fresh hfresh]

theorem ClusterBuilt.findOrAddJob {done : List (Worker × String)}
    {state : List JobDef × List (String × Nat)} (h : ClusterBuilt done state) (name : String) :
    ClusterBuilt done (findOrAddJob state name).1 ∧
      ((findOrAddJob state name).1.1[(findOrAddJob state name).2]?).map JobDef.name = some name := by
  cases hlookup : state.2.lookup name with
  | some index =>
      rw [findOrAddJob_of_some hlookup]
      exact ⟨h, h.index_some name index hlookup⟩
  | none =>
      rw [findOrAddJob_of_none hlookup]
      have hnew := h.index_none name hlookup
      have hadded : ((state.1 ++ [⟨name, []⟩])[state.1.length]?).map JobDef.name = some name := by
        rw [List.getElem?_append_right le_rfl, Nat.sub_self]
        rfl
      refine ⟨⟨?_, fun name' index hsome => ?_, fun name' hnone => ?_, ?_⟩, hadded⟩
      · rw [List.map_append, List.map_singleton]
        exact h.names_nodup.append (List.nodup_singleton _) (List.disjoint_singleton.mpr hnew)
      · rw [List.lookup_append] at hsome
        cases hold : state.2.lookup name' with
        | some old =>
            rw [hold, Option.or_some, Option.some.injEq] at hsome
            subst hsome
            obtain ⟨job, hjob, hname⟩ := Option.map_eq_some'.mp (h.index_some name' old hold)
            rw [List.getElem?_append_left (List.getElem?_eq_some_iff.mp hjob).1, hjob]
            exact congrArg some hname
        | none =>
            rw [hold, Option.none_or, lookup_cons_eq_ite, List.lookup_nil] at hsome
            split_ifs at hsome with hname
            · cases hsome
              exact hname ▸ hadded
      · rw [List.lookup_append, lookup_cons_eq_ite, List.lookup_nil] at hnone
        split_ifs at hnone with hname
        · rw [Option.or_eq_none] at hnone
          cases hnone.2
        · rw [Option.or_none] at hnone
          rw [List.map_append, List.map_singleton, List.mem_append, List.mem_singleton, not_or]
          exact ⟨h.index_none name' hnone, hname⟩
      · rw [clusterTasks, List.flatMap_append]
        simpa using h.tasks_perm

/-- One pass of the loop keeps what it keeps, with one more entry done, when that entry's worker
is new. -/
theorem ClusterBuilt.addWorkerTask {done : List (Worker × String)}
    {state : List JobDef × List (String × Nat)} (h : ClusterBuilt done state)
    {workerTarget : Worker × String} (hnew : workerTarget.1 ∉ done.map Prod.fst) :
    ClusterBuilt (done ++ [workerTarget]) (addWorkerTask state workerTarget) := by
  obtain ⟨hfound, hname⟩ := h.findOrAddJob workerTarget.1.name
  unfold XrtClient.addWorkerTask
  generalize XrtClient.findOrAddJob state workerTarget.1.name = found at hfound hname
  obtain ⟨⟨clusterDef, jobs⟩, index⟩ := found
  obtain ⟨job, hjob, hjobName⟩ := Option.map_eq_some'.mp hname
  have hfresh : workerTarget.1.taskNo ∉ job.tasks.map Prod.fst := fun hmem => by
    obtain ⟨task, htask, htaskNo⟩ := List.mem_map.mp hmem
    have hin : ((⟨job.name, task.1⟩ : Worker), task.2) ∈ clusterTasks clusterDef :=
      List.mem_flatMap.mpr ⟨job, List.mem_iff_getElem?.mpr ⟨_, hjob⟩, List.mem_map_of_mem _ htask⟩
    obtain ⟨entry, hentry, heq⟩ := List.mem_map.mp (hfound.tasks_perm.subset hin)
    refine hnew (List.mem_map.mpr ⟨entry, hentry, ?_⟩)
    rw [(Prod.mk.inj heq).1, hjobName, htaskNo]
  obtain ⟨hnames, htasks⟩ := clusterTasks_modify hjob hfresh (stripPrefix workerTarget.2 "grpc://")
  refine ⟨?_, fun name i hsome => ?_, fun name hnone => ?_, ?_⟩
  · exact hnames ▸ hfound.names_nodup
  · rw [← List.getElem?_map, hnames, List.getElem?_map]
    exact hfound.index_some name i hsome
  · exact hnames ▸ hfound.index_none name hnone
  · refine htasks.trans ?_
    rw [List.map_append, List.map_singleton, hjobName]
    exact hfound.tasks_perm.append_right _

theorem clusterBuilt_foldl : ∀ {entries done : List (Worker × String)}
    {state : List JobDef × List (String × Nat)}, ((done ++ entries).map Prod.fst).Nodup →
    ClusterBuilt done state → ClusterBuilt (done ++ entries) (entries.foldl addWorkerTask state)
  | [], _, _, _, h => by rw [List.append_nil]; exact h
  | entry :: rest, done, _, hnodup, h => by
      have hnew : entry.1 ∉ done.map Prod.fst := fun hmem =>
        (List.nodup_append.mp (List.map_append _ _ _ ▸ hnodup)).2.2 hmem (List.mem_cons_self _ _)
      rw [List.append_cons] at hnodup ⊢
      exact clusterBuilt_foldl hnodup (h.addWorkerTask hnew)

theorem clusterBuilt_nil : ClusterBuilt [] ([], []) :=
  ⟨List.nodup_nil, (fun _ _ h => by cases h), fun _ _ => List.not_mem_nil _, List.Perm.nil⟩

/-- `CreateConfigProto` over a workers map that holds each worker once sets no cluster for at most
one worker. Otherwise its cluster has one job per worker name, and the jobs' tasks are the
workers map regrouped: each worker once, at its target without the `grpc://` scheme. -/
theorem createConfigProto_regroups_workers (options : Options)
    (hkeys : (options.workersMap.map Prod.fst).Nodup) :
    (options.workersMap.length ≤ 1 → createConfigProto options = none) ∧
    (1 < options.workersMap.length → ∃ clusterDef, createConfigProto options = some clusterDef ∧
      (clusterDef.map JobDef.name).Nodup ∧
      (clusterTasks clusterDef).Perm
        (options.workersMap.map fun entry => (entry.1, stripPrefix entry.2 "grpc://"))) := by
  have hbuilt := clusterBuilt_foldl
    (show (([] ++ options.workersMap).map Prod.fst).Nodup by simpa using hkeys) clusterBuilt_nil
  refine ⟨fun h => if_neg (by omega), fun h => ⟨_, if_pos h, hbuilt.names_nodup, ?_⟩⟩
  simpa using hbuilt.tasks_perm

/-- Two tasks of the `localservice` job and one of a `trainer` job. -/
def threeWorkers : Options :=
  ⟨[], [(⟨"localservice", 0⟩, "a:1"), (⟨"trainer", 0⟩, "c:3"), (⟨"localservice", 1⟩, "b:2")], [], none⟩

theorem createConfigProto_regroups_workers_three :
    (threeWorkers.workersMap.map Prod.fst).Nodup ∧ 1 < threeWorkers.workersMap.length ∧
      ∃ clusterDef, createConfigProto threeWorkers = some clusterDef ∧
        (clusterDef.map JobDef.name).Nodup :=
  have hkeys : (threeWorkers.workersMap.map Prod.fst).Nodup := by decide
  have hlength : 1 < threeWorkers.workersMap.length := by decide
  let ⟨clusterDef, hconfig, hnames, _⟩ := (createConfigProto_regroups_workers threeWorkers hkeys).2 hlength
  ⟨hkeys, hlength, clusterDef, hconfig, hnames⟩

example : createConfigProto threeWorkers =
    some [⟨"localservice", [(0, "a:1"), (1, "b:2")]⟩, ⟨"trainer", [(0, "c:3")]⟩] := by decide

/-! ## The local service -/

/-- An `XrtLocalService`: its cluster spec `JOB|HOST;HOST...`, its job and its task. -/
structure LocalService where
  clusterSpec : String
  jobName : String
  taskIndex : Int
  deriving DecidableEq, Repr

/-- One pass of the loop of `MaybeCreateLocalService` over the workers map, on `task_index`,
`job_name` and `hosts`: a `localservice` worker with a `grpc://` target adds its host, and takes
the task when it matches the local worker, which every such worker does when none is set. -/
def localServiceStep (localWorker : Option LocalWorkerEnv) (state : Int × String × List String)
    (workerTarget : Worker × String) : Except Fault (Int × String × List String) :=
  if workerTarget.1.name = kLocalService ∧ workerTarget.2.startsWith "grpc://" then do
    let hosts := state.2.2 ++ [workerTarget.2.drop "grpc://".length]
    let worker := LocalWorkerEnv.workerOrNone localWorker
    if worker.taskNo < 0 ∨ workerTarget.1 = worker then
      xlaCheck (state.1 = -1) ("Multiple workers matching the local one: '" ++
        ((localWorker.map LocalWorkerEnv.text).getD "") ++ "'")
      pure (workerTarget.1.taskNo, workerTarget.1.name, hosts)
    else pure (state.1, state.2.1, hosts)
  else pure state

/-- `MaybeCreateLocalService`: the service it starts, if any. -/
def maybeCreateLocalService (localWorker : Option LocalWorkerEnv) (options : Options) :
    Except Fault (Option LocalService) := do
  let (taskIndex, jobName, hosts) ←
    options.workersMap.foldlM (localServiceStep localWorker) (-1, "", [])
  pure (if 0 ≤ taskIndex ∧ jobName ≠ "" then
    some ⟨jobName ++ "|" ++ String.intercalate ";" hosts, jobName, taskIndex⟩
  else none)

/-- `GetLocalTarget`: the target of the local worker, when it is a `localservice` worker of the
workers map. -/
def getLocalTarget (localWorker : Option LocalWorkerEnv) (options : Options) : String :=
  match localWorker with
  | some localWorker =>
      if localWorker.worker.name = kLocalService then
        (options.workersMap.lookup localWorker.worker).getD ""
      else ""
  | none => ""

/-- Whether `MaybeCreateLocalService` takes a worker as a host of the local service: a
`localservice` worker with a `grpc://` target. -/
def isLocalServiceHost (workerTarget : Worker × String) : Bool :=
  workerTarget.1.name = kLocalService ∧ workerTarget.2.startsWith "grpc://"

theorem name_of_isLocalServiceHost {entry : Worker × String} (h : isLocalServiceHost entry = true) :
    entry.1.name = kLocalService := by
  simp only [isLocalServiceHost, decide_eq_true_eq] at h
  exact h.1

theorem kLocalService_ne_empty : kLocalService ≠ "" := by decide

/-- Whether a host of the local service matches the local worker, as every one does when none is
set. -/
def matchesLocalWorker (localWorker : Option LocalWorkerEnv) (workerTarget : Worker × String) : Bool :=
  (LocalWorkerEnv.workerOrNone localWorker).taskNo < 0 ∨
    workerTarget.1 = LocalWorkerEnv.workerOrNone localWorker

/-- The error of the check of `MaybeCreateLocalService`. -/
def multipleWorkersError (localWorker : Option LocalWorkerEnv) : Fault :=
  .checkFailed ("Multiple workers matching the local one: '" ++
    ((localWorker.map LocalWorkerEnv.text).getD "") ++ "'")

/-- What the loop of `MaybeCreateLocalService` computes over `entries`: it fails when a matching
host other than the last has a task other than `-1`, since the check compares `task_index`
against `-1` only; otherwise `task_index` and `job_name` are those of the last matching host, if
any, and `hosts` the hosts' targets without the scheme. -/
def localServiceLoop (localWorker : Option LocalWorkerEnv) (entries : List (Worker × String)) :
    Except Fault (Int × String × List String) :=
  let matching := (entries.filter isLocalServiceHost).filter (matchesLocalWorker localWorker)
  if matching.dropLast.any fun entry => entry.1.taskNo ≠ -1 then .error (multipleWorkersError localWorker)
  else .ok ((matching.getLast?.map (·.1.taskNo)).getD (-1), (matching.getLast?.map (·.1.name)).getD "",
    (entries.filter isLocalServiceHost).map fun entry => entry.2.drop "grpc://".length)

theorem any_eq_dropLast_or_getLast {α : Type} (p : α → Bool) (xs : List α) :
    xs.any p = (xs.dropLast.any p || (xs.getLast?.map p).getD false) := by
  cases hlast : xs.getLast? with
  | none => simp [List.getLast?_eq_none_iff.mp hlast]
  | some a =>
      conv_lhs => rw [← List.dropLast_append_getLast? a hlast]
      simp

/-- One pass of the loop of `MaybeCreateLocalService`, case by case. -/
theorem localServiceStep_eq (localWorker : Option LocalWorkerEnv) (state : Int × String × List String)
    (entry : Worker × String) :
    localServiceStep localWorker state entry =
      if isLocalServiceHost entry then
        if matchesLocalWorker localWorker entry then
          if state.1 = -1 then .ok (entry.1.taskNo, entry.1.name, state.2.2 ++ [entry.2.drop "grpc://".length])
          else .error (multipleWorkersError localWorker)
        else .ok (state.1, state.2.1, state.2.2 ++ [entry.2.drop "grpc://".length])
      else .ok state := by
  simp only [localServiceStep, isLocalServiceHost, matchesLocalWorker, decide_eq_true_eq]
  split_ifs with hhost hmatch hfirst
  · rw [xlaCheck_of_true _ hfirst]; rfl
  · rw [xlaCheck_of_false _ hfirst]; rfl
  · rfl
  · rfl

theorem foldlM_localServiceStep (localWorker : Option LocalWorkerEnv) :
    ∀ entries : List (Worker × String),
      entries.foldlM (localServiceStep localWorker) (-1, "", []) = localServiceLoop localWorker entries := by
  intro entries
  induction entries using List.reverseRecOn with
  | nil => rfl
  | append_singleton entries entry ih =>
      rw [List.foldlM_append, ih]
      simp only [List.foldlM_cons, List.foldlM_nil, bind_pure, localServiceLoop, List.filter_append,
        List.filter_cons, List.filter_nil, localServiceStep_eq]
      generalize (entries.filter isLocalServiceHost).filter (matchesLocalWorker localWorker) = matching
      by_cases hhost : isLocalServiceHost entry
      · by_cases hmatch : matchesLocalWorker localWorker entry
        · -- a matching host, checked against the last matching host so far
          simp only [hhost, hmatch, if_true, List.filter_cons, List.filter_nil, List.map_append,
            List.map_singleton, List.dropLast_concat, List.getLast?_concat, Option.map_some', Option.getD_some,
            any_eq_dropLast_or_getLast _ matching]
          cases matching.dropLast.any fun entry => decide (entry.1.taskNo ≠ -1)
          · cases matching.getLast? with
            | none => rfl
            | some last => by_cases hlast : last.1.taskNo = -1 <;> simp [hlast]
          · rfl
        · simp only [hhost, hmatch, if_true, if_false, List.filter_cons, List.filter_nil, List.append_nil,
            List.map_append, List.map_singleton, Bool.false_eq_true]
          split <;> rfl
      · simp only [hhost, if_false, List.filter_cons, List.filter_nil, List.append_nil, Bool.false_eq_true]
        split <;> rfl

/-- `MaybeCreateLocalService` over every workers map. Its check compares `task_index` with `-1`
only, so it fails exactly when a host matching the local worker, other than the last, has a task
other than `-1`. Otherwise it starts a service exactly when the last matching host has a task of
at least `0`: that task of `localservice`, over every `localservice` host with a `grpc://` target. -/
theorem maybeCreateLocalService_eq (localWorker : Option LocalWorkerEnv) (options : Options) :
    let hosts := options.workersMap.filter isLocalServiceHost
    let matching := hosts.filter (matchesLocalWorker localWorker)
    maybeCreateLocalService localWorker options =
      if matching.dropLast.any (fun entry => entry.1.taskNo ≠ -1) then
        .error (multipleWorkersError localWorker)
      else .ok (match matching.getLast? with
        | some last =>
            if 0 ≤ last.1.taskNo then
              some ⟨kLocalService ++ "|" ++ String.intercalate ";"
                (hosts.map fun entry => entry.2.drop "grpc://".length), kLocalService, last.1.taskNo⟩
            else none
        | none => none) := by
  intro hosts matching
  rw [maybeCreateLocalService, foldlM_localServiceStep, localServiceLoop]
  split_ifs
  · rfl
  · cases hlast : matching.getLast? with
    | none => rfl
    | some last =>
        have hname := name_of_isLocalServiceHost
          (List.mem_filter.mp (List.mem_filter.mp (List.mem_of_getLast?_eq_some hlast)).1).2
        simp only [ok_bind, hlast, Option.map_some', Option.getD_some, hname, kLocalService_ne_empty,
          ne_eq, not_false_eq_true, and_true]
        rfl

theorem length_le_one_of_nodup {α : Type} {l : List α} {a : α} (hnodup : l.Nodup)
    (heq : ∀ b ∈ l, b = a) : l.length ≤ 1 := by
  rw [List.eq_replicate_iff.mpr ⟨rfl, heq⟩] at hnodup
  exact List.nodup_replicate.mp hnodup

/-- With `XRT_LOCAL_WORKER` set to a worker of task at least `0`, and the workers map holding
each worker once, only the local worker's own entry matches: `MaybeCreateLocalService` never
fails, and starts a service for the local worker's task exactly when the local worker is a
`localservice` host with a `grpc://` target. -/
theorem maybeCreateLocalService_of_localWorker (localWorker : LocalWorkerEnv) (options : Options)
    (htask : 0 ≤ localWorker.worker.taskNo) (hkeys : (options.workersMap.map Prod.fst).Nodup) :
    let hosts := options.workersMap.filter isLocalServiceHost
    maybeCreateLocalService (some localWorker) options =
      .ok (if localWorker.worker ∈ hosts.map Prod.fst then
        some ⟨kLocalService ++ "|" ++ String.intercalate ";"
          (hosts.map fun entry => entry.2.drop "grpc://".length), kLocalService, localWorker.worker.taskNo⟩
      else none) := by
  intro hosts
  have hmatches : ∀ entry, matchesLocalWorker (some localWorker) entry = decide (entry.1 = localWorker.worker) := by
    intro entry
    simp [matchesLocalWorker, LocalWorkerEnv.workerOrNone, not_lt.mpr htask]
  have hmatching : ∀ entry, entry ∈ hosts.filter (matchesLocalWorker (some localWorker)) ↔
      entry ∈ hosts ∧ entry.1 = localWorker.worker := by
    intro entry
    simp [hmatches]
  have hlength : (hosts.filter (matchesLocalWorker (some localWorker))).length ≤ 1 := by
    rw [← List.length_map _ Prod.fst]
    exact length_le_one_of_nodup
      (hkeys.sublist (((List.filter_sublist _).trans (List.filter_sublist _)).map Prod.fst))
      fun worker hworker => by
        obtain ⟨entry, hentry, rfl⟩ := List.mem_map.mp hworker
        exact ((hmatching entry).mp hentry).2
  rw [maybeCreateLocalService, foldlM_localServiceStep, localServiceLoop]
  generalize hmatched : hosts.filter (matchesLocalWorker (some localWorker)) = matching at hmatching hlength
  match matching, hlength with
  | [], _ =>
      have hnone : localWorker.worker ∉ hosts.map Prod.fst := fun hmem => by
        obtain ⟨entry, hentry, hworker⟩ := List.mem_map.mp hmem
        simpa using (hmatching entry).mpr ⟨hentry, hworker⟩
      simp [hnone]
  | [last], _ =>
      obtain ⟨hlast, hworker⟩ := (hmatching last).mp (List.mem_singleton_self _)
      have hname : localWorker.worker.name = kLocalService :=
        hworker ▸ name_of_isLocalServiceHost (List.mem_filter.mp hlast).2
      have hsome : localWorker.worker ∈ hosts.map Prod.fst := hworker ▸ List.mem_map_of_mem _ hlast
      simp [hsome, hworker, hname, htask, kLocalService_ne_empty]

/-- Two `localservice` hosts with `grpc://` targets, which make `MaybeCreateLocalService` fail when
no local worker is set. -/
def twoLocalHosts : Options :=
  ⟨[], [(⟨"localservice", 0⟩, "grpc://a:1"), (⟨"localservice", 1⟩, "grpc://b:2")], [], none⟩

theorem maybeCreateLocalService_of_localWorker_second :
    0 ≤ (⟨"localservice:1", ⟨"localservice", 1⟩⟩ : LocalWorkerEnv).worker.taskNo ∧
      (twoLocalHosts.workersMap.map Prod.fst).Nodup ∧
      let hosts := twoLocalHosts.workersMap.filter isLocalServiceHost
      maybeCreateLocalService (some ⟨"localservice:1", ⟨"localservice", 1⟩⟩) twoLocalHosts =
        .ok (if (⟨"localservice", 1⟩ : Worker) ∈ hosts.map Prod.fst then
          some ⟨kLocalService ++ "|" ++ String.intercalate ";"
            (hosts.map fun entry => entry.2.drop "grpc://".length), kLocalService, 1⟩
        else none) :=
  ⟨by decide, by decide, maybeCreateLocalService_of_localWorker _ _ (by decide) (by decide)⟩

/-! ## The sources of the configuration -/

/-- `ParseEnvDeviceCounts`, with `XRT_NUM_TPU`, `XRT_NUM_GPU` and `XRT_NUM_CPU` if set: a
`localservice` host at `localhost:port` with the devices the counts give, when the `int` of the
TPU or the GPU count is positive; whether the global device map is then nonempty. -/
def parseEnvDeviceCounts (numTpus numGpus numCpus : Option Int) (port : Nat) (options : Options) :
    Bool × Options :=
  let options := if castToInt (numTpus.getD (-1)) > 0 ∨ castToInt (numGpus.getD (-1)) > 0 then
      (addXrtHostDevices kLocalService 0 ("localhost:" ++ toString port)
        (hostDeviceTable (numTpus.getD 0) (numGpus.getD 0) (numCpus.getD 1)) (fun _ => 0) options).2
    else options
  (!options.globalDeviceMap.isEmpty, options)

/-- `ParseEnvDevices` over the entries of `XRT_DEVICE_MAP` and `XRT_WORKERS`, if set, as it splits
them: by default the device `CPU:0` of the `localservice` worker `localservice:0` at
`grpc://localhost:port`. Whether the global device map is then nonempty. -/
def parseEnvDevices (deviceMap : Option (List (DeviceId × ParsedName)))
    (workers : Option (List (Worker × String))) (port : Nat) (options : Options) :
    Bool × Options :=
  let deviceSpec := deviceMap.getD [(⟨"CPU", 0⟩, ⟨kLocalService, 0, "XLA_CPU", 0⟩)]
  let workersSpec := workers.getD [(⟨kLocalService, 0⟩, "grpc://localhost:" ++ toString port)]
  let options := if deviceSpec ≠ [] ∧ workersSpec ≠ [] then
      { options with
        globalDeviceMap := deviceSpec.foldl (fun map entry => emplace map entry.1 entry.2)
          options.globalDeviceMap
        workersMap := workersSpec.foldl (fun map entry => emplace map entry.1 (makeGrpcEndPoint entry.2))
          options.workersMap }
    else options
  (!options.globalDeviceMap.isEmpty, options)

/-- The environment the client starts from, each variable as its parser reads it: the hosts of
`XRT_TPU_CONFIG` (none when unset), the device counts, the maps of `XRT_DEVICE_MAP` and
`XRT_WORKERS` if set, the config of the mesh service if there is a mesh client, the local worker,
the multi-processing device, and the port `PickUnusedPortOrDie` picks. -/
structure ClientEnv where
  tpuConfig : List HostSpec
  numTpus : Option Int
  numGpus : Option Int
  numCpus : Option Int
  deviceMap : Option (List (DeviceId × ParsedName))
  workers : Option (List (Worker × String))
  mesh : Option MeshConfig
  localWorker : Option LocalWorkerEnv
  mpDevice : Option DeviceId
  port : Nat

/-- `ParseMeshConfig` on the options so far: it needs `XRT_LOCAL_WORKER`. -/
def parseMeshConfigOn (localWorker : Option LocalWorkerEnv) (mpDevice : Option DeviceId)
    (config : MeshConfig) (options : Options) : Except Fault (Options × TopologyProto) :=
  match localWorker with
  | some localWorker =>
      .ok (config.workers.foldl (addMeshWorker localWorker.worker mpDevice) options, config.proto)
  | none => .error (.checkFailed "In a mesh client setup the XRT_LOCAL_WORKER must be specified")

/-- The parsers of `ComputationClient::Create`, each tried while none has found a configuration:
the options they read, and the topology the mesh service gave. -/
def ComputationClient.parseConfiguration (env : ClientEnv) :
    Except Fault (Options × Option TopologyProto) :=
  if env.tpuConfig ≠ [] then
    pure (parseEnvBasedTpuClusterConfig env.numTpus env.numGpus env.numCpus env.tpuConfig
      emptyOptions, none)
  else
    let (found, options) := parseEnvDeviceCounts env.numTpus env.numGpus env.numCpus env.port
      emptyOptions
    if found then pure (options, none) else
    let (found, options) := parseEnvDevices env.deviceMap env.workers env.port options
    if found then pure (options, none) else
    match env.mesh with
    | some config => do
        let (options, topology) ← parseMeshConfigOn env.localWorker env.mpDevice config options
        pure (options, some topology)
    | none => .error (.checkFailed "Missing XLA configuration")

/-- `ComputationClient::Create` up to the constructor: the options the parsers read, with the
devices this process serves. -/
def ComputationClient.create (env : ClientEnv) : Except Fault (Options × Option TopologyProto) := do
  let (options, topology) ← ComputationClient.parseConfiguration env
  pure (populateLocalDevices (env.localWorker.map LocalWorkerEnv.worker) env.mpDevice options,
    topology)

/-! ## The constructor -/

/-- What the constructor of `XrtComputationClient` sets up before it initializes the devices: the
sessions' cluster, their local target and the local service it started. -/
structure ClientSetup where
  config : Option (List JobDef)
  localTarget : String
  localService : Option LocalService
  deriving DecidableEq, Repr

/-- The constructor of `XrtComputationClient` up to `InitializeDevices`. -/
def xrtComputationClient (localWorker : Option LocalWorkerEnv) (options : Options) :
    Except Fault ClientSetup := do
  let config := createConfigProto options
  let localTarget := getLocalTarget localWorker options
  xlaCheck ((options.defaultDevice.bind options.globalDeviceMap.lookup).isSome)
    ((options.defaultDevice.map DeviceId.render).getD "")
  options.devices.forM fun device =>
    xlaCheck ((options.globalDeviceMap.lookup device).isSome)
      ("Missing device in global map: " ++ device.render)
  let localService ← maybeCreateLocalService localWorker options
  pure ⟨config, localTarget, localService⟩

/-- `ComputationClient::Create`: the options, then the constructor. -/
def clientStartup (env : ClientEnv) : Except Fault ClientSetup := do
  let (options, _) ← ComputationClient.create env
  xrtComputationClient env.localWorker options

/-! ## The devices of an env-configured cluster -/

/-- The devices `AddXrtHostDevices` numbers for one kind of its table on a host, from the kind's
next global ordinal `first`: device `j` of the kind on the host is the kind's device `first + j`,
at local id `j` of the host's worker and task. -/
def kindBlock (workerName : String) (taskNo : Int) (first : Int) (kind : String × String × Int) :
    List (DeviceId × ParsedName) :=
  (List.range kind.2.2.toNat).map fun (j : Nat) =>
    (⟨kind.1, first + j⟩, getXrtDevicePath workerName taskNo kind.2.1 j)

/-- The count the table gives a kind, `0` for a kind it does not list. -/
def countOf (table : List (String × String × Int)) (name : String) : Nat :=
  ((table.lookup name).map fun count => count.2.toNat).getD 0

/-- What `device_ordinals` and the global device map keep between the passes of
`AddXrtHostDevices`: the map holds each device once, each below the next ordinal of its kind. -/
structure OrdinalsAhead (ordinals : String → Int) (map : List (DeviceId × ParsedName)) : Prop where
  nodup : (map.map Prod.fst).Nodup
  lt : ∀ d ∈ map.map Prod.fst, d.ordinal < ordinals d.kind

theorem nodup_kindBlock (workerName : String) (taskNo first : Int) (kind : String × String × Int) :
    ((kindBlock workerName taskNo first kind).map Prod.fst).Nodup := by
  rw [kindBlock, List.map_map]
  exact (List.nodup_range _).map fun j j' h => by
    simpa using congrArg DeviceId.ordinal h

theorem mem_kindBlock {workerName : String} {taskNo first : Int} {kind : String × String × Int}
    {d : DeviceId} (h : d ∈ (kindBlock workerName taskNo first kind).map Prod.fst) :
    d.kind = kind.1 ∧ first ≤ d.ordinal ∧ d.ordinal < first + kind.2.2.toNat := by
  rw [kindBlock, List.map_map] at h
  obtain ⟨j, hj, rfl⟩ := List.mem_map.mp h
  have := List.mem_range.mp hj
  exact ⟨rfl, by simp, by simp; omega⟩

theorem OrdinalsAhead.nodup_append_kindBlock {ordinals : String → Int}
    {map : List (DeviceId × ParsedName)} (h : OrdinalsAhead ordinals map) (workerName : String)
    (taskNo : Int) (kind : String × String × Int) :
    ((map ++ kindBlock workerName taskNo (ordinals kind.1) kind).map Prod.fst).Nodup := by
  rw [List.map_append]
  refine h.nodup.append (nodup_kindBlock _ _ _ _) fun d hd hblock => ?_
  obtain ⟨hkind, hfirst, -⟩ := mem_kindBlock hblock
  have := h.lt d hd
  rw [hkind] at this
  omega

/-- One kind of one host: with every device of the map below the next ordinal of its kind, each
`emplace` inserts, so the kind's devices land at the end of the map and its next ordinal moves on
by its count. -/
theorem addHostKind_eq {ordinals : String → Int} {map : List (DeviceId × ParsedName)}
    (h : OrdinalsAhead ordinals map) (workerName : String) (taskNo : Int) (kind : String × String × Int) :
    addHostKind workerName taskNo (ordinals, map) kind =
      (fun name => if name = kind.1 then ordinals kind.1 + kind.2.2.toNat else ordinals name,
        map ++ kindBlock workerName taskNo (ordinals kind.1) kind) := by
  have hfold := foldl_emplaceEntry_of_nodup _ map (h.nodup_append_kindBlock workerName taskNo kind)
  rw [kindBlock, List.foldl_map] at hfold
  simp only [addHostKind, emplaceEntry, bind_pure_comp, List.map_eq_map, List.foldl_map] at hfold ⊢
  rw [hfold]
  rfl

theorem OrdinalsAhead.addHostKind {ordinals : String → Int} {map : List (DeviceId × ParsedName)}
    (h : OrdinalsAhead ordinals map) (workerName : String) (taskNo : Int) (kind : String × String × Int) :
    OrdinalsAhead (XrtClient.addHostKind workerName taskNo (ordinals, map) kind).1
      (XrtClient.addHostKind workerName taskNo (ordinals, map) kind).2 := by
  rw [addHostKind_eq h]
  refine ⟨h.nodup_append_kindBlock workerName taskNo kind, fun d hd => ?_⟩
  rw [List.map_append, List.mem_append] at hd
  rcases hd with hd | hd
  · have := h.lt d hd
    dsimp only
    split_ifs with hkind
    · rw [hkind] at this
      omega
    · exact this
  · obtain ⟨hkind, -, hlt⟩ := mem_kindBlock hd
    simp only [hkind, if_true]
    exact hlt

theorem countOf_cons (kind : String × String × Int) (table : List (String × String × Int))
    (name : String) :
    countOf (kind :: table) name = if name = kind.1 then kind.2.2.toNat else countOf table name := by
  unfold countOf
  rw [lookup_cons_eq_ite]
  split_ifs <;> rfl

theorem countOf_of_not_mem {table : List (String × String × Int)} {name : String}
    (h : name ∉ table.map Prod.fst) : countOf table name = 0 := by
  unfold countOf
  rw [List.lookup_eq_none_iff.mpr fun kind hkind => bne_iff_ne.mpr fun heq =>
    h (by rw [heq]; exact List.mem_map_of_mem _ hkind)]
  rfl

theorem countOf_of_mem {table : List (String × String × Int)} (hnames : (table.map Prod.fst).Nodup)
    {kind : String × String × Int} (h : kind ∈ table) : countOf table kind.1 = kind.2.2.toNat := by
  unfold countOf
  rw [lookup_of_mem hnames h]
  rfl

/-- One host: over a table that names each kind once, the host's devices land at the end of the
map, kind after kind, and the next ordinal of each kind moves on by the kind's count. -/
theorem foldl_addHostKind_eq (workerName : String) (taskNo : Int) :
    ∀ (table : List (String × String × Int)) {ordinals : String → Int}
      {map : List (DeviceId × ParsedName)}, (table.map Prod.fst).Nodup → OrdinalsAhead ordinals map →
      (∀ name, (table.foldl (addHostKind workerName taskNo) (ordinals, map)).1 name =
        ordinals name + countOf table name) ∧
      (table.foldl (addHostKind workerName taskNo) (ordinals, map)).2 =
        map ++ table.flatMap (fun kind => kindBlock workerName taskNo (ordinals kind.1) kind) ∧
      OrdinalsAhead (table.foldl (addHostKind workerName taskNo) (ordinals, map)).1
        (table.foldl (addHostKind workerName taskNo) (ordinals, map)).2
  | [], ordinals, map, _, h => ⟨fun name => by simp [countOf], by simp, h⟩
  | kind :: table, ordinals, map, hnames, h => by
      rw [List.map_cons, List.nodup_cons] at hnames
      have hahead := h.addHostKind workerName taskNo kind
      rw [List.foldl_cons, addHostKind_eq h]
      rw [addHostKind_eq h] at hahead
      obtain ⟨hords, hmap, hahead'⟩ := foldl_addHostKind_eq workerName taskNo table hnames.2 hahead
      refine ⟨fun name => ?_, ?_, hahead'⟩
      · rw [hords, countOf_cons]
        split_ifs with hname
        · simp [hname, countOf_of_not_mem hnames.1]
        · simp [hname]
      · rw [hmap, List.flatMap_cons, List.append_assoc]
        congr 2
        refine List.flatMap_congr fun kind' hkind' => ?_
        have hne : kind'.1 ≠ kind.1 := fun heq => hnames.1 (heq ▸ List.mem_map_of_mem _ hkind')
        simp only [hne, if_false]

/-- The hosts of `XRT_TPU_CONFIG` one after another, over a table that names each kind once: after
`i` hosts the next ordinal of each kind is `i` times its count, and host `i` holds the kind's
devices from `i` times its count on. -/
theorem foldl_addXrtHostDevices_eq (table : List (String × String × Int))
    (hnames : (table.map Prod.fst).Nodup) :
    ∀ hostSpecs : List HostSpec,
      let state := hostSpecs.foldl (fun state spec =>
        addXrtHostDevices spec.worker spec.taskNo spec.server table state.1 state.2)
        (fun (_ : String) => (0 : Int), emptyOptions)
      (∀ name, state.1 name = hostSpecs.length * countOf table name) ∧
      state.2.globalDeviceMap = hostSpecs.enum.flatMap (fun host => table.flatMap fun kind =>
        kindBlock host.2.worker host.2.taskNo (host.1 * countOf table kind.1) kind) ∧
      OrdinalsAhead state.1 state.2.globalDeviceMap := by
  intro hostSpecs
  induction hostSpecs using List.reverseRecOn with
  | nil => exact ⟨fun _ => by simp, rfl, ⟨List.nodup_nil, fun _ hd => absurd hd (List.not_mem_nil _)⟩⟩
  | append_singleton hostSpecs host ih =>
      obtain ⟨hords, hmap, hahead⟩ := ih
      rw [List.foldl_append, List.foldl_cons, List.foldl_nil]
      generalize hostSpecs.foldl _ (fun (_ : String) => (0 : Int), emptyOptions) = state at hords hmap hahead
      obtain ⟨hords', hmap', hahead'⟩ := foldl_addHostKind_eq host.worker host.taskNo table hnames hahead
      refine ⟨fun name => ?_, ?_, hahead'⟩
      · rw [addXrtHostDevices, hords', hords, List.length_append, List.length_singleton]
        push_cast
        ring
      · rw [addXrtHostDevices, hmap', hmap, List.enum_append, List.enumFrom_singleton, List.flatMap_append,
          List.flatMap_singleton]
        dsimp only
        congr 1
        refine List.flatMap_congr fun kind _ => ?_
        rw [hords]

/-- Host `i` of `n` hosts, each kind of whose table has a last ordinal `n` times its count that
fits an `int`, names its devices by ordinals the code's `int` holds. -/
theorem ordinal_range_of_mem_hostBlock {table : List (String × String × Int)} {n : Nat}
    (hordinals : ∀ kind ∈ table, n * kind.2.2.toNat < 2 ^ 31) {i : Nat} (hi : i < n)
    {workerName : String} {taskNo : Int} {d : DeviceId}
    (hd : d ∈ (table.flatMap fun kind => kindBlock workerName taskNo (i * kind.2.2.toNat) kind).map
      Prod.fst) :
    0 ≤ d.ordinal ∧ d.ordinal < 2 ^ 31 := by
  obtain ⟨entry, hentry, rfl⟩ := List.mem_map.mp hd
  obtain ⟨kind, hkind, hblock⟩ := List.mem_flatMap.mp hentry
  obtain ⟨-, hle, hlt⟩ := mem_kindBlock (List.mem_map_of_mem Prod.fst hblock)
  have hlast : i * kind.2.2.toNat + kind.2.2.toNat < 2 ^ 31 :=
    calc i * kind.2.2.toNat + kind.2.2.toNat = (i + 1) * kind.2.2.toNat := (Nat.succ_mul _ _).symm
      _ ≤ n * kind.2.2.toNat := Nat.mul_le_mul_right _ hi
      _ < 2 ^ 31 := hordinals kind hkind
  omega

/-- `ParseEnvBasedTpuClusterConfig` numbers the devices of each kind one after another across the
hosts of `XRT_TPU_CONFIG`: on host `i`, device `j` of a kind of count `n`, the `int` of the count
read, is the kind's global device `i * n + j`, at local id `j` of the host's worker and task. The
map holds exactly these devices, each once, in some order: the code's `std::map` keeps them in
key order. While the last ordinal of each kind fits an `int`, as the code's `++device_ordinal`
needs, every ordinal of the map is one the code's `int` holds. -/
theorem parseEnvBasedTpuClusterConfig_numbers_devices (numTpus numGpus numCpus : Option Int)
    (hostSpecs : List HostSpec)
    (hordinals : ∀ kind ∈ hostDeviceTable (numTpus.getD 8) (numGpus.getD 0) (numCpus.getD 1),
      hostSpecs.length * kind.2.2.toNat < 2 ^ 31) :
    let cluster := hostSpecs.enum.flatMap fun host =>
      (hostDeviceTable (numTpus.getD 8) (numGpus.getD 0) (numCpus.getD 1)).flatMap fun kind =>
        kindBlock host.2.worker host.2.taskNo (host.1 * kind.2.2.toNat) kind
    (parseEnvBasedTpuClusterConfig numTpus numGpus numCpus hostSpecs emptyOptions).globalDeviceMap.Perm
        cluster ∧
      (cluster.map Prod.fst).Nodup ∧ ∀ d ∈ cluster.map Prod.fst, 0 ≤ d.ordinal ∧ d.ordinal < 2 ^ 31 := by
  intro cluster
  have hnames : ((hostDeviceTable (numTpus.getD 8) (numGpus.getD 0) (numCpus.getD 1)).map Prod.fst).Nodup :=
    show ["TPU", "GPU", "CPU"].Nodup by decide
  obtain ⟨-, hmap, hahead⟩ := foldl_addXrtHostDevices_eq _ hnames hostSpecs
  have hcluster : (parseEnvBasedTpuClusterConfig numTpus numGpus numCpus hostSpecs
      emptyOptions).globalDeviceMap = cluster := by
    rw [parseEnvBasedTpuClusterConfig, hmap]
    refine List.flatMap_congr fun host _ => List.flatMap_congr fun kind hkind => ?_
    rw [countOf_of_mem hnames hkind]
  refine ⟨.of_eq hcluster, hcluster ▸ hahead.nodup, fun d hd => ?_⟩
  obtain ⟨entry, hentry, rfl⟩ := List.mem_map.mp hd
  obtain ⟨host, hhost, hblock⟩ := List.mem_flatMap.mp hentry
  exact ordinal_range_of_mem_hostBlock hordinals (List.fst_lt_of_mem_enum hhost)
    (List.mem_map_of_mem Prod.fst hblock)

/-- Two hosts of `XRT_TPU_CONFIG`, each a task of the worker `w`. -/
def twoHostSpecs : List HostSpec := [⟨"w", 0, "grpc://a:1"⟩, ⟨"w", 1, "grpc://b:1"⟩]

/-- The global device map of the two hosts with `XRT_NUM_TPU=2`, in the key order of the code's
`std::map`: the second host holds `TPU:2`, `TPU:3` and `CPU:1`, at local ids from 0. -/
def twoHostClusterMap : List (DeviceId × ParsedName) :=
  [(⟨"CPU", 0⟩, ⟨"w", 0, "XLA_CPU", 0⟩), (⟨"CPU", 1⟩, ⟨"w", 1, "XLA_CPU", 0⟩),
    (⟨"TPU", 0⟩, ⟨"w", 0, "TPU", 0⟩), (⟨"TPU", 1⟩, ⟨"w", 0, "TPU", 1⟩),
    (⟨"TPU", 2⟩, ⟨"w", 1, "TPU", 0⟩), (⟨"TPU", 3⟩, ⟨"w", 1, "TPU", 1⟩)]

theorem parseEnvBasedTpuClusterConfig_numbers_devices_twoHosts :
    (∀ kind ∈ hostDeviceTable ((some 2 : Option Int).getD 8) ((none : Option Int).getD 0)
      ((none : Option Int).getD 1), twoHostSpecs.length * kind.2.2.toNat < 2 ^ 31) ∧
    (parseEnvBasedTpuClusterConfig (some 2) none none twoHostSpecs emptyOptions).globalDeviceMap.Perm
      twoHostClusterMap ∧
    ∀ d ∈ twoHostClusterMap.map Prod.fst, 0 ≤ d.ordinal ∧ d.ordinal < 2 ^ 31 := by
  obtain ⟨hperm, -, hrange⟩ :=
    parseEnvBasedTpuClusterConfig_numbers_devices (some 2) none none twoHostSpecs (by decide)
  have hsorted : (twoHostSpecs.enum.flatMap fun host =>
      (hostDeviceTable 2 0 1).flatMap fun kind =>
        kindBlock host.2.worker host.2.taskNo (host.1 * kind.2.2.toNat) kind).Perm twoHostClusterMap := by
    decide
  exact ⟨by decide, hperm.trans hsorted, fun d hd => hrange d ((hsorted.map Prod.fst).symm.subset hd)⟩

/-- A loop over a list indexed by position whose body runs only for the items of one key: with the
keys distinct, only the item at its own position runs. -/
theorem flatMap_enumFrom_of_key {α β κ : Type} [DecidableEq κ] (key : α → κ) (body : Nat × α → List β)
    {x : α} : ∀ {l : List α} {i : Nat} (n : Nat), (l.map key).Nodup → l[i]? = some x →
      (l.enumFrom n).flatMap (fun a => if key a.2 = key x then body a else []) = body (n + i, x)
  | [], _, _, _, hi => by cases hi
  | a :: l, 0, n, hnodup, hi => by
      rw [List.getElem?_cons_zero, Option.some.injEq] at hi
      subst hi
      rw [List.map_cons, List.nodup_cons] at hnodup
      rw [List.enumFrom_cons, List.flatMap_cons, if_pos rfl,
        List.flatMap_eq_nil_iff.mpr fun b hb => if_neg fun (heq : key b.2 = key a) =>
          hnodup.1 (heq ▸ List.mem_map_of_mem key (List.snd_mem_of_mem_enumFrom hb)),
        List.append_nil]
      rfl
  | a :: l, i + 1, n, hnodup, hi => by
      rw [List.getElem?_cons_succ] at hi
      rw [List.map_cons, List.nodup_cons] at hnodup
      have hx : key x ∈ l.map key := List.mem_map_of_mem key (List.mem_iff_getElem?.mpr ⟨i, hi⟩)
      rw [List.enumFrom_cons, List.flatMap_cons, if_neg fun (heq : key a = key x) => hnodup.1 (heq ▸ hx),
        List.nil_append, flatMap_enumFrom_of_key key body (n + 1) hnodup.2 hi, Nat.add_right_comm,
        Nat.add_assoc]

/-- The devices of one host carry the host's worker and task. -/
theorem job_of_mem_hostBlock {workerName : String} {taskNo : Int}
    {first : String × String × Int → Int} {table : List (String × String × Int)}
    {entry : DeviceId × ParsedName}
    (h : entry ∈ table.flatMap fun kind => kindBlock workerName taskNo (first kind) kind) :
    entry.2.job = workerName ∧ entry.2.task = taskNo := by
  obtain ⟨kind, -, hentry⟩ := List.mem_flatMap.mp h
  obtain ⟨j, -, rfl⟩ := List.mem_map.mp hentry
  exact ⟨rfl, rfl⟩

/-- A host's devices of one worker and task: all of them when the host is that worker and task,
none otherwise. -/
theorem filter_hostBlock (table : List (String × String × Int)) (first : String × String × Int → Int)
    (workerName : String) (taskNo : Int) (worker : String) (task : Int) :
    ((table.flatMap fun kind => kindBlock workerName taskNo (first kind) kind).filter fun entry =>
        decide (worker = entry.2.job ∧ task = entry.2.task)) =
      if (workerName, taskNo) = (worker, task) then
        table.flatMap fun kind => kindBlock workerName taskNo (first kind) kind
      else [] := by
  split_ifs with hkey
  · obtain ⟨rfl, rfl⟩ := Prod.mk.inj hkey
    refine List.filter_eq_self.mpr fun entry hentry => ?_
    obtain ⟨hjob, htaskNo⟩ := job_of_mem_hostBlock hentry
    simp [hjob, htaskNo]
  · refine List.filter_eq_nil_iff.mpr fun entry hentry hsame => hkey ?_
    obtain ⟨hjob, htaskNo⟩ := job_of_mem_hostBlock hentry
    obtain ⟨rfl, rfl⟩ := of_decide_eq_true hsame
    rw [hjob, htaskNo]

/-- On a TPU cluster whose hosts are distinct workers, `PopulateLocalDevices` marks local, for
host `i` as local worker, exactly host `i`'s devices. -/
theorem markedLocal_tpuCluster (numTpus numGpus numCpus : Option Int) {hostSpecs : List HostSpec}
    (hhosts : (hostSpecs.map fun host => (host.worker, host.taskNo)).Nodup) {i : Nat} {host : HostSpec}
    (hi : hostSpecs[i]? = some host) (htask : 0 ≤ host.taskNo) :
    markedLocal (some ⟨host.worker, host.taskNo⟩) none
        (parseEnvBasedTpuClusterConfig numTpus numGpus numCpus hostSpecs emptyOptions) =
      ((hostDeviceTable (numTpus.getD 8) (numGpus.getD 0) (numCpus.getD 1)).flatMap fun kind =>
        kindBlock host.worker host.taskNo (i * kind.2.2.toNat) kind).map Prod.fst := by
  have hnames : ((hostDeviceTable (numTpus.getD 8) (numGpus.getD 0) (numCpus.getD 1)).map Prod.fst).Nodup :=
    show ["TPU", "GPU", "CPU"].Nodup by decide
  rw [markedLocal_of_worker htask, parseEnvBasedTpuClusterConfig,
    (foldl_addXrtHostDevices_eq _ hnames hostSpecs).2.1, List.filter_flatMap]
  simp only [filter_hostBlock]
  rw [List.enum, flatMap_enumFrom_of_key (fun host : HostSpec => (host.worker, host.taskNo)) _ 0 hhosts hi,
    Nat.zero_add]
  refine congrArg (List.map Prod.fst) (List.flatMap_congr fun kind hkind => ?_)
  rw [countOf_of_mem hnames hkind]

/-- Over a table that names each kind once, the least ordinal of a kind with devices among the
devices of one host is where the kind's block starts. -/
theorem lookup_minOrdinals_kindBlocks {table : List (String × String × Int)}
    (hnames : (table.map Prod.fst).Nodup) (workerName : String) (taskNo : Int)
    (first : String × String × Int → Int) {kind : String × String × Int} (hkind : kind ∈ table)
    (hpos : 0 < kind.2.2) :
    (minOrdinals ((table.flatMap fun kind => kindBlock workerName taskNo (first kind) kind).map
      Prod.fst)).lookup kind.1 = some (first kind) := by
  refine lookup_minOrdinals_of_least (List.mem_map.mpr ⟨(⟨kind.1, first kind⟩,
    getXrtDevicePath workerName taskNo kind.2.1 0), List.mem_flatMap.mpr ⟨_, hkind, ?_⟩, rfl⟩) ?_
  · rw [kindBlock]
    exact List.mem_map.mpr ⟨0, List.mem_range.mpr (Int.lt_toNat.mpr hpos), by simp⟩
  · intro d hd hsame
    obtain ⟨entry, hentry, rfl⟩ := List.mem_map.mp hd
    obtain ⟨kind', hkind', hblock⟩ := List.mem_flatMap.mp hentry
    obtain ⟨hname, hle, -⟩ := mem_kindBlock (List.mem_map_of_mem Prod.fst hblock)
    rwa [List.inj_on_of_nodup_map hnames hkind' hkind (hname.symm.trans hsame)] at hle

/-- A kind no entry of the table gives devices has no entry in `min_ordinals`. -/
theorem lookup_minOrdinals_kindBlocks_none {table : List (String × String × Int)} (workerName : String)
    (taskNo : Int) (first : String × String × Int → Int) {name : String}
    (hnone : ∀ kind ∈ table, kind.1 = name → kind.2.2 ≤ 0) :
    (minOrdinals ((table.flatMap fun kind => kindBlock workerName taskNo (first kind) kind).map
      Prod.fst)).lookup name = none := by
  refine (lookup_minOrdinals_eq_none name _).mpr fun d hd hsame => ?_
  obtain ⟨entry, hentry, rfl⟩ := List.mem_map.mp hd
  obtain ⟨kind, hkind, hblock⟩ := List.mem_flatMap.mp hentry
  obtain ⟨hname, hle, hlt⟩ := mem_kindBlock (List.mem_map_of_mem Prod.fst hblock)
  have hzero : kind.2.2.toNat = 0 := Int.toNat_eq_zero.mpr (hnone kind hkind (hname.symm.trans hsame))
  omega

/-- Host `i`'s least TPU is its first, the cluster's `TPU:i*n`, when the hosts have TPUs. -/
theorem lookup_minOrdinals_hostBlock (workerName : String) (taskNo : Int) (i : Nat) {numTpus : Int}
    (numGpus numCpus : Int) (htpus : 0 < castToInt numTpus) :
    (minOrdinals (((hostDeviceTable numTpus numGpus numCpus).flatMap fun kind =>
      kindBlock workerName taskNo (i * kind.2.2.toNat) kind).map Prod.fst)).lookup "TPU" =
        some (i * (castToInt numTpus).toNat : Int) := by
  have hnames : ((hostDeviceTable numTpus numGpus numCpus).map Prod.fst).Nodup :=
    show ["TPU", "GPU", "CPU"].Nodup by decide
  exact lookup_minOrdinals_kindBlocks hnames workerName taskNo (fun kind => i * kind.2.2.toNat)
    (List.mem_cons_self _ _) htpus

/-- On a TPU cluster whose hosts are distinct workers, a process whose `XRT_LOCAL_WORKER` is host
`i`, with no multi-processing device, serves exactly host `i`'s devices, each once, whatever the
order of the global device map (the code's `std::map` keeps key order). While the last ordinal of
each kind fits an `int`, each device it serves has an ordinal the code's `int` holds, and, when
the hosts have TPUs, it takes the host's first TPU, the cluster's `TPU:i*n`, as its default
device. -/
theorem populateLocalDevices_tpuCluster (numTpus numGpus numCpus : Option Int)
    {hostSpecs : List HostSpec} (hhosts : (hostSpecs.map fun host => (host.worker, host.taskNo)).Nodup)
    (hordinals : ∀ kind ∈ hostDeviceTable (numTpus.getD 8) (numGpus.getD 0) (numCpus.getD 1),
      hostSpecs.length * kind.2.2.toNat < 2 ^ 31)
    {i : Nat} {host : HostSpec} (hi : hostSpecs[i]? = some host) (htask : 0 ≤ host.taskNo)
    {globalDeviceMap : List (DeviceId × ParsedName)}
    (hmap : globalDeviceMap.Perm
      (parseEnvBasedTpuClusterConfig numTpus numGpus numCpus hostSpecs emptyOptions).globalDeviceMap) :
    let table := hostDeviceTable (numTpus.getD 8) (numGpus.getD 0) (numCpus.getD 1)
    let served := populateLocalDevices (some ⟨host.worker, host.taskNo⟩) none
      { parseEnvBasedTpuClusterConfig numTpus numGpus numCpus hostSpecs emptyOptions with
        globalDeviceMap := globalDeviceMap }
    served.devices.Perm ((table.flatMap fun kind =>
        kindBlock host.worker host.taskNo (i * kind.2.2.toNat) kind).map Prod.fst) ∧
      (∀ d ∈ served.devices, 0 ≤ d.ordinal ∧ d.ordinal < 2 ^ 31) ∧
      (0 < castToInt (numTpus.getD 8) →
        served.defaultDevice = some ⟨"TPU", i * (castToInt (numTpus.getD 8)).toNat⟩) := by
  intro table served
  have hnames : (table.map Prod.fst).Nodup := show ["TPU", "GPU", "CPU"].Nodup by decide
  have hmarked := markedLocal_tpuCluster numTpus numGpus numCpus hhosts hi htask
  obtain ⟨hdevices, hdefault⟩ := devices_parseEnvBasedTpuClusterConfig numTpus numGpus numCpus hostSpecs
    emptyOptions
  obtain ⟨hperm, hsame⟩ := populateLocalDevices_perm (some ⟨host.worker, host.taskNo⟩) hdevices
    (foldl_addXrtHostDevices_eq table hnames hostSpecs).2.2.nodup hmap
  rw [hmarked] at hperm
  refine ⟨hperm, fun d hd => ordinal_range_of_mem_hostBlock hordinals
    (List.getElem?_eq_some_iff.mp hi).1 (hperm.subset hd), fun htpus => ?_⟩
  rw [hsame, populateLocalDevices_eq, hmarked, hdefault, List.findSome?_cons,
    lookup_minOrdinals_hostBlock _ _ _ _ _ htpus]
  rfl

/-- The two hosts of `twoHostSpecs`, the map in the code's key order: the process of the second
serves `TPU:2`, `TPU:3` and `CPU:1`, with `TPU:2` as its default device. -/
theorem populateLocalDevices_tpuCluster_second :
    (twoHostSpecs.map fun host => (host.worker, host.taskNo)).Nodup ∧
    (∀ kind ∈ hostDeviceTable ((some 2 : Option Int).getD 8) ((none : Option Int).getD 0)
      ((none : Option Int).getD 1), twoHostSpecs.length * kind.2.2.toNat < 2 ^ 31) ∧
    twoHostSpecs[1]? = some ⟨"w", 1, "grpc://b:1"⟩ ∧ (0 : Int) ≤ 1 ∧
    twoHostClusterMap.Perm
      (parseEnvBasedTpuClusterConfig (some 2) none none twoHostSpecs emptyOptions).globalDeviceMap ∧
    let served := populateLocalDevices (some ⟨"w", 1⟩) none
      { parseEnvBasedTpuClusterConfig (some 2) none none twoHostSpecs emptyOptions with
        globalDeviceMap := twoHostClusterMap }
    served.devices.Perm [⟨"TPU", 2⟩, ⟨"TPU", 3⟩, ⟨"CPU", 1⟩] ∧ served.defaultDevice = some ⟨"TPU", 2⟩ := by
  have hmap : twoHostClusterMap.Perm
      (parseEnvBasedTpuClusterConfig (some 2) none none twoHostSpecs emptyOptions).globalDeviceMap := by
    decide
  obtain ⟨hdevices, -, hdefault⟩ := @populateLocalDevices_tpuCluster (some 2) none none twoHostSpecs
    (by decide) (by decide) 1 _ rfl (by decide) _ hmap
  exact ⟨by decide, by decide, rfl, by decide, hmap, hdevices.trans (.of_eq (by decide)),
    (hdefault (by decide)).trans rfl⟩

/-! ## Every configuration the parsers find -/

/-- Options as the parsers of `ComputationClient::Create` leave them: every device they mark
served is in the global device map, and no default device is set. -/
structure Unpopulated (options : Options) : Prop where
  devices_mem : ∀ d ∈ options.devices, d ∈ options.globalDeviceMap.map Prod.fst
  default_none : options.defaultDevice = none

theorem Unpopulated.grow {options options' : Options} (h : Unpopulated options)
    (hdevices : options'.devices = options.devices) (hdefault : options'.defaultDevice = options.defaultDevice)
    (hkeys : options.globalDeviceMap.map Prod.fst ⊆ options'.globalDeviceMap.map Prod.fst) :
    Unpopulated options' :=
  ⟨fun d hd => hkeys (h.devices_mem d (hdevices ▸ hd)), hdefault.trans h.default_none⟩

/-- The parsers' maps in another order: the code's `std::map`s hold the entries in key order. -/
theorem Unpopulated.perm {options : Options} (h : Unpopulated options)
    {globalDeviceMap : List (DeviceId × ParsedName)} (hperm : globalDeviceMap.Perm options.globalDeviceMap)
    (workersMap : List (Worker × String)) :
    Unpopulated { options with globalDeviceMap := globalDeviceMap, workersMap := workersMap } :=
  h.grow rfl rfl (hperm.map Prod.fst).symm.subset

theorem keys_subset_addHostKind (workerName : String) (taskNo : Int)
    (state : (String → Int) × List (DeviceId × ParsedName)) (kind : String × String × Int) :
    state.2.map Prod.fst ⊆ (addHostKind workerName taskNo state kind).2.map Prod.fst := by
  unfold addHostKind
  exact keys_subset_foldl_emplace _ _ _ _

theorem keys_subset_foldl_addHostKind (workerName : String) (taskNo : Int) :
    ∀ (table : List (String × String × Int)) (state : (String → Int) × List (DeviceId × ParsedName)),
      state.2.map Prod.fst ⊆ (table.foldl (addHostKind workerName taskNo) state).2.map Prod.fst
  | [], _ => List.Subset.refl _
  | kind :: table, state => (keys_subset_addHostKind workerName taskNo state kind).trans
      (keys_subset_foldl_addHostKind workerName taskNo table _)

theorem unpopulated_addXrtHostDevices {options : Options} (h : Unpopulated options)
    (workerName : String) (taskNo : Int) (server : String) (table : List (String × String × Int))
    (deviceOrdinals : String → Int) :
    Unpopulated (addXrtHostDevices workerName taskNo server table deviceOrdinals options).2 :=
  h.grow rfl rfl (keys_subset_foldl_addHostKind workerName taskNo table (deviceOrdinals, _))

theorem unpopulated_parseEnvBasedTpuClusterConfig (table : List (String × String × Int)) :
    ∀ (hostSpecs : List HostSpec) {state : (String → Int) × Options}, Unpopulated state.2 →
      Unpopulated (hostSpecs.foldl (fun state spec =>
        addXrtHostDevices spec.worker spec.taskNo spec.server table state.1 state.2) state).2
  | [], _, h => h
  | _ :: hostSpecs, _, h =>
      unpopulated_parseEnvBasedTpuClusterConfig table hostSpecs (unpopulated_addXrtHostDevices h _ _ _ _ _)

theorem unpopulated_parseEnvDeviceCounts {options : Options} (h : Unpopulated options)
    (numTpus numGpus numCpus : Option Int) (port : Nat) :
    Unpopulated (parseEnvDeviceCounts numTpus numGpus numCpus port options).2 := by
  unfold parseEnvDeviceCounts
  split
  · exact unpopulated_addXrtHostDevices h _ _ _ _ _
  · exact h

theorem unpopulated_parseEnvDevices {options : Options} (h : Unpopulated options)
    (deviceMap : Option (List (DeviceId × ParsedName))) (workers : Option (List (Worker × String)))
    (port : Nat) : Unpopulated (parseEnvDevices deviceMap workers port options).2 := by
  unfold parseEnvDevices
  dsimp only
  split
  · exact h.grow rfl rfl (keys_subset_foldl_emplace _ _ _ _)
  · exact h

theorem unpopulated_addMeshDevice {options : Options} (h : Unpopulated options) (localWorker : Worker)
    (mpDevice : Option DeviceId) (worker : Worker) (device : MeshDevice) :
    Unpopulated (addMeshDevice localWorker mpDevice worker options device) := by
  refine ⟨fun d hd => ?_, h.default_none⟩
  simp only [addMeshDevice] at hd ⊢
  split at hd
  · rcases mem_setInsert.mp hd with hd | rfl
    · exact keys_subset_emplace _ _ _ (h.devices_mem d hd)
    · exact mem_keys_emplace _ _ _
  · exact keys_subset_emplace _ _ _ (h.devices_mem d hd)

theorem unpopulated_foldl_addMeshDevice (localWorker : Worker) (mpDevice : Option DeviceId)
    (worker : Worker) : ∀ (devices : List MeshDevice) {options : Options}, Unpopulated options →
      Unpopulated (devices.foldl (addMeshDevice localWorker mpDevice worker) options)
  | [], _, h => h
  | _ :: devices, _, h =>
      unpopulated_foldl_addMeshDevice localWorker mpDevice worker devices (unpopulated_addMeshDevice h _ _ _ _)

theorem unpopulated_foldl_addMeshWorker (localWorker : Worker) (mpDevice : Option DeviceId) :
    ∀ (workers : List MeshWorker) {options : Options}, Unpopulated options →
      Unpopulated (workers.foldl (addMeshWorker localWorker mpDevice) options)
  | [], _, h => h
  | _ :: workers, _, h => unpopulated_foldl_addMeshWorker localWorker mpDevice workers
      (unpopulated_foldl_addMeshDevice _ _ _ _ (h.grow rfl rfl fun _ hkey => hkey))

theorem unpopulated_parseMeshConfigOn {localWorker : Option LocalWorkerEnv} {mpDevice : Option DeviceId}
    {config : MeshConfig} {options : Options} {result : Options × TopologyProto} (h : Unpopulated options)
    (hparse : parseMeshConfigOn localWorker mpDevice config options = .ok result) : Unpopulated result.1 := by
  unfold parseMeshConfigOn at hparse
  split at hparse
  · cases hparse
    exact unpopulated_foldl_addMeshWorker _ _ _ h
  · cases hparse

theorem emptyOptions_unpopulated : Unpopulated emptyOptions :=
  ⟨fun _ hd => absurd hd (List.not_mem_nil _), rfl⟩

/-- Whichever parser finds the configuration, it leaves the options unpopulated. -/
theorem parseConfiguration_unpopulated {env : ClientEnv} {options : Options}
    {topology : Option TopologyProto}
    (h : ComputationClient.parseConfiguration env = .ok (options, topology)) : Unpopulated options := by
  unfold ComputationClient.parseConfiguration at h
  have hcounts := unpopulated_parseEnvDeviceCounts emptyOptions_unpopulated env.numTpus env.numGpus
    env.numCpus env.port
  have hdevices := unpopulated_parseEnvDevices hcounts env.deviceMap env.workers env.port
  split at h
  · cases h
    exact unpopulated_parseEnvBasedTpuClusterConfig _ env.tpuConfig emptyOptions_unpopulated
  · simp only at h
    split at h
    · cases h; exact hcounts
    · split at h
      · cases h; exact hdevices
      · split at h
        · obtain ⟨result, hresult, hpure⟩ := bind_eq_ok h
          cases hpure
          exact unpopulated_parseMeshConfigOn hdevices hresult
        · cases h

theorem markedLocal_subset_keys (localWorker : Option Worker) (mpDevice : Option DeviceId)
    (options : Options) : markedLocal localWorker mpDevice options ⊆ options.globalDeviceMap.map Prod.fst :=
  fun _ hd => by
    obtain ⟨entry, hentry, rfl⟩ := List.mem_map.mp hd
    exact List.mem_map_of_mem _ (List.mem_filter.mp hentry).1

/-- `PopulateLocalDevices` on unpopulated options serves devices of the global device map only,
and sets a default device, one it marks local, exactly when it marks a TPU, GPU or CPU local. -/
theorem populateLocalDevices_of_unpopulated {options : Options} (h : Unpopulated options)
    (localWorker : Option Worker) (mpDevice : Option DeviceId) :
    (∀ d ∈ (populateLocalDevices localWorker mpDevice options).devices,
      d ∈ options.globalDeviceMap.map Prod.fst) ∧
    (populateLocalDevices localWorker mpDevice options).globalDeviceMap = options.globalDeviceMap ∧
    ((populateLocalDevices localWorker mpDevice options).defaultDevice = none ↔
      ∀ d ∈ markedLocal localWorker mpDevice options, d.kind ∉ ["TPU", "GPU", "CPU"]) ∧
    ∀ d, (populateLocalDevices localWorker mpDevice options).defaultDevice = some d →
      d ∈ markedLocal localWorker mpDevice options := by
  have hmarked := markedLocal_subset_keys localWorker mpDevice options
  rw [populateLocalDevices_eq, h.default_none]
  generalize markedLocal localWorker mpDevice options = marked at hmarked ⊢
  have horElse : ∀ x : Option DeviceId, x.orElse (fun _ => none) = x := fun x => by cases x <;> rfl
  simp only [horElse]
  refine ⟨fun d hd => ?_, trivial, ?_, fun d hd => ?_⟩
  · rcases (mem_foldl_setInsert_self _ _ _).mp hd with hd | hd
    · exact h.devices_mem d hd
    · exact hmarked hd
  · simp only [List.findSome?_eq_none_iff, Option.map_eq_none', lookup_minOrdinals_eq_none]
    exact ⟨fun h d hd hkind => h _ hkind d hd rfl, fun h kind hkind d hd hd' => h d hd (hd' ▸ hkind)⟩
  · obtain ⟨kind, -, hkind⟩ := List.exists_of_findSome?_eq_some hd
    obtain ⟨m, hm, rfl⟩ := Option.map_eq_some'.mp hkind
    exact (lookup_minOrdinals_eq_some hm).1

/-- The constructor on options whose devices and default device are in the global device map
fails its first check when no default device is set, and otherwise ends as the local service
does. -/
theorem xrtComputationClient_eq (localWorker : Option LocalWorkerEnv) {options : Options}
    (hdevices : ∀ d ∈ options.devices, d ∈ options.globalDeviceMap.map Prod.fst)
    (hdefault : ∀ d, options.defaultDevice = some d → d ∈ options.globalDeviceMap.map Prod.fst) :
    xrtComputationClient localWorker options =
      match options.defaultDevice with
      | none => .error (.checkFailed "")
      | some _ => (fun service => ⟨createConfigProto options, getLocalTarget localWorker options, service⟩) <$>
          maybeCreateLocalService localWorker options := by
  unfold xrtComputationClient
  cases hd : options.defaultDevice with
  | none => rfl
  | some d =>
      simp only [hd, Option.some_bind, Option.map_some', Option.getD_some]
      rw [xlaCheck_of_true _ (lookup_isSome_iff_mem_keys.mpr (hdefault d hd)), ok_bind,
        forM_xlaCheck_eq_ok _ _ fun device hdevice => lookup_isSome_iff_mem_keys.mpr (hdevices device hdevice),
        ok_bind, bind_pure_comp]

/-- `ComputationClient::Create` and the checks of the constructor, over every environment whose
parsers find a configuration, whatever the order of the parsed global device map and whatever
workers map the options carry (the code's `std::map`s keep key order): every device the client
serves is in the global device map, so the check for a device missing from it never fails, and
the check of the default device fails exactly when `PopulateLocalDevices` marks no TPU, GPU or CPU
local. Past the checks the client starts as `MaybeCreateLocalService` does, with the cluster and
local target of its options. -/
theorem clientStartup_eq (env : ClientEnv) {options : Options} {topology : Option TopologyProto}
    (hparse : ComputationClient.parseConfiguration env = .ok (options, topology))
    {globalDeviceMap : List (DeviceId × ParsedName)} (hmap : globalDeviceMap.Perm options.globalDeviceMap)
    (workersMap : List (Worker × String)) :
    let ordered := { options with globalDeviceMap := globalDeviceMap, workersMap := workersMap }
    let served := populateLocalDevices (env.localWorker.map LocalWorkerEnv.worker) env.mpDevice ordered
    (∀ d ∈ served.devices, (served.globalDeviceMap.lookup d).isSome) ∧
    xrtComputationClient env.localWorker served =
      if ∃ d ∈ markedLocal (env.localWorker.map LocalWorkerEnv.worker) env.mpDevice ordered,
          d.kind ∈ ["TPU", "GPU", "CPU"] then
        (fun service => ⟨createConfigProto served, getLocalTarget env.localWorker served, service⟩) <$>
          maybeCreateLocalService env.localWorker served
      else .error (.checkFailed "") := by
  intro ordered served
  obtain ⟨hdevices, hsame, hnone, hsome⟩ := populateLocalDevices_of_unpopulated
    ((parseConfiguration_unpopulated hparse).perm hmap workersMap)
    (env.localWorker.map LocalWorkerEnv.worker) env.mpDevice
  have hkeys : ∀ d ∈ served.devices, d ∈ served.globalDeviceMap.map Prod.fst := fun d hd =>
    hsame ▸ hdevices d hd
  refine ⟨fun d hd => lookup_isSome_iff_mem_keys.mpr (hkeys d hd), ?_⟩
  rw [xrtComputationClient_eq _ hkeys fun d hd => hsame ▸ markedLocal_subset_keys _ _ _ (hsome d hd)]
  split_ifs with hmarked
  · obtain ⟨d, hd, hkind⟩ := hmarked
    cases hdefault : served.defaultDevice with
    | none => exact absurd hkind (hnone.mp hdefault d hd)
    | some _ => rfl
  · rw [show served.defaultDevice = none from hnone.mpr fun d hd hkind => hmarked ⟨d, hd, hkind⟩]

/-- The environment with nothing set: the default device and worker maps of `ParseEnvDevices`. -/
def unsetEnv : ClientEnv := ⟨[], none, none, none, none, none, none, none, none, 8470⟩

theorem clientStartup_eq_unsetEnv :
    ∃ options topology, ComputationClient.parseConfiguration unsetEnv = .ok (options, topology) ∧
      options.globalDeviceMap.Perm options.globalDeviceMap ∧
      let ordered := { options with globalDeviceMap := options.globalDeviceMap, workersMap := options.workersMap }
      let served := populateLocalDevices none none ordered
      (∀ d ∈ served.devices, (served.globalDeviceMap.lookup d).isSome) ∧
      xrtComputationClient none served =
        if ∃ d ∈ markedLocal none none ordered, d.kind ∈ ["TPU", "GPU", "CPU"] then
          (fun service => ⟨createConfigProto served, getLocalTarget none served, service⟩) <$>
            maybeCreateLocalService none served
        else .error (.checkFailed "") :=
  ⟨_, _, rfl, .refl _, clientStartup_eq unsetEnv rfl (.refl _) _⟩

/-! ## A single host from the device counts -/

/-- A count read with default `-1` whose `int` is positive is the count read with default `0`. -/
theorem pos_castToInt_getD {count : Option Int} (h : 0 < castToInt (count.getD (-1))) :
    0 < castToInt (count.getD 0) := by
  cases count with
  | none => exact absurd h (by decide)
  | some n => exact h

/-- On one host's devices numbered from 0, with TPUs or GPUs, `PopulateLocalDevices` takes
`TPU:0` as default device, or `GPU:0` when there are no TPUs. -/
theorem findSome_minOrdinals_localHost {numTpus numGpus : Int} (numCpus : Int)
    (hcount : 0 < castToInt numTpus ∨ 0 < castToInt numGpus) :
    (["TPU", "GPU", "CPU"].findSome? fun kind =>
      ((minOrdinals (((hostDeviceTable numTpus numGpus numCpus).flatMap
        (kindBlock kLocalService 0 0)).map Prod.fst)).lookup kind).map fun ordinal =>
          (⟨kind, ordinal⟩ : DeviceId)) =
      some (if 0 < castToInt numTpus then ⟨"TPU", 0⟩ else ⟨"GPU", 0⟩) := by
  have hnames : ((hostDeviceTable numTpus numGpus numCpus).map Prod.fst).Nodup :=
    show ["TPU", "GPU", "CPU"].Nodup by decide
  rw [List.findSome?_cons]
  split_ifs with htpu
  · rw [lookup_minOrdinals_kindBlocks hnames kLocalService 0 (fun _ => 0) (List.mem_cons_self _ _) htpu]
    rfl
  · rw [lookup_minOrdinals_kindBlocks_none kLocalService 0 (fun _ => 0) fun kind hkind hname => ?_,
      List.findSome?_cons, lookup_minOrdinals_kindBlocks hnames kLocalService 0 (fun _ => 0)
        (List.mem_cons_of_mem _ (List.mem_cons_self _ _)) (hcount.resolve_left htpu)]
    · rfl
    · simp only [hostDeviceTable, List.mem_cons, List.mem_singleton, List.not_mem_nil, or_false] at hkind
      rcases hkind with rfl | rfl | rfl
      · exact not_lt.mp htpu
      · exact absurd hname (by decide : ("GPU" : String) ≠ "TPU")
      · exact absurd hname (by decide : ("CPU" : String) ≠ "TPU")

/-- With no `XRT_TPU_CONFIG`, the `int` of `XRT_NUM_TPU` or `XRT_NUM_GPU` positive, and neither a
local worker nor a multi-processing device, the client starts as the one host `localservice:0`:
the global device map holds that host's devices, numbered from 0, each once. Whatever the order of
that map (the code's `std::map` keeps key order), the client serves all of them, the options
handed to the constructor have `TPU:0` as default device, or `GPU:0` when there are no TPUs, and
every check of the constructor passes: it sets no cluster and no local target and starts as
`MaybeCreateLocalService` does. -/
theorem clientStartup_deviceCounts (env : ClientEnv) (hconfig : env.tpuConfig = [])
    (hcount : 0 < castToInt (env.numTpus.getD (-1)) ∨ 0 < castToInt (env.numGpus.getD (-1)))
    (hlocal : env.localWorker = none) (hmp : env.mpDevice = none) :
    let table := hostDeviceTable (env.numTpus.getD 0) (env.numGpus.getD 0) (env.numCpus.getD 1)
    ∃ options, ComputationClient.parseConfiguration env = .ok (options, none) ∧
      options.globalDeviceMap.Perm (table.flatMap (kindBlock kLocalService 0 0)) ∧
      ((table.flatMap (kindBlock kLocalService 0 0)).map Prod.fst).Nodup ∧
      ∀ globalDeviceMap : List (DeviceId × ParsedName), globalDeviceMap.Perm options.globalDeviceMap →
        let served := populateLocalDevices (env.localWorker.map LocalWorkerEnv.worker) env.mpDevice
          { options with globalDeviceMap := globalDeviceMap }
        served.devices.Perm ((table.flatMap (kindBlock kLocalService 0 0)).map Prod.fst) ∧
        served.defaultDevice =
          some (if 0 < castToInt (env.numTpus.getD 0) then ⟨"TPU", 0⟩ else ⟨"GPU", 0⟩) ∧
        xrtComputationClient env.localWorker served =
          (fun service => ⟨none, "", service⟩) <$> maybeCreateLocalService none served := by
  intro table
  have hnames : (table.map Prod.fst).Nodup := show ["TPU", "GPU", "CPU"].Nodup by decide
  obtain ⟨-, hmap, hahead⟩ := foldl_addHostKind_eq kLocalService 0 table hnames
    (⟨List.nodup_nil, fun _ hd => nomatch hd⟩ : OrdinalsAhead (fun _ => 0) [])
  set host := (addXrtHostDevices kLocalService 0 ("localhost:" ++ toString env.port) table (fun _ => 0)
    emptyOptions).2 with hhost
  have hhostMap : host.globalDeviceMap = table.flatMap (kindBlock kLocalService 0 0) := hmap
  have hkeys : (host.globalDeviceMap.map Prod.fst).Nodup := hahead.nodup
  have hfirst := findSome_minOrdinals_localHost (env.numCpus.getD 1)
    (hcount.imp pos_castToInt_getD pos_castToInt_getD)
  rw [← hhostMap] at hfirst
  have hmem : (if 0 < castToInt (env.numTpus.getD 0) then (⟨"TPU", 0⟩ : DeviceId) else ⟨"GPU", 0⟩) ∈
      host.globalDeviceMap.map Prod.fst := by
    obtain ⟨kind, -, hkind⟩ := List.exists_of_findSome?_eq_some hfirst
    obtain ⟨m, hm, hd⟩ := Option.map_eq_some'.mp hkind
    exact hd ▸ (lookup_minOrdinals_eq_some hm).1
  have hfound : host.globalDeviceMap.isEmpty = false := by
    obtain ⟨d, hd, -⟩ := List.mem_map.mp hmem
    exact List.isEmpty_eq_false_iff_exists_mem.mpr ⟨d, hd⟩
  have hparse : ComputationClient.parseConfiguration env = .ok (host, none) := by
    simp only [ComputationClient.parseConfiguration, hconfig, ne_eq, not_true_eq_false, if_false,
      parseEnvDeviceCounts, gt_iff_lt, hcount, if_true, hfound, Bool.not_false]
    rfl
  refine ⟨host, hparse, .of_eq hhostMap, hhostMap ▸ hkeys, fun globalDeviceMap hperm => ?_⟩
  obtain ⟨hserved, hsame⟩ := populateLocalDevices_perm none rfl hkeys hperm
  rw [markedLocal_none, hhostMap] at hserved
  have hdefault : (populateLocalDevices none none host).defaultDevice =
      some (if 0 < castToInt (env.numTpus.getD 0) then ⟨"TPU", 0⟩ else ⟨"GPU", 0⟩) := by
    rw [populateLocalDevices_eq, markedLocal_none, hfirst]
    rfl
  obtain ⟨hin, hsameMap, -, hsome⟩ := populateLocalDevices_of_unpopulated
    ((parseConfiguration_unpopulated hparse).perm hperm host.workersMap) none none
  simp only [hlocal, hmp, Option.map_none']
  refine ⟨hserved, hsame.trans hdefault, ?_⟩
  rw [xrtComputationClient_eq none (fun d hd => hsameMap ▸ hin d hd)
    fun d hd => hsameMap ▸ markedLocal_subset_keys _ _ _ (hsome d hd), hsame, hdefault]
  rfl

/-- `XRT_NUM_TPU=2`, and nothing else set. -/
def twoTpusEnv : ClientEnv := ⟨[], some 2, none, none, none, none, none, none, none, 1234⟩

theorem clientStartup_deviceCounts_twoTpus :
    twoTpusEnv.tpuConfig = [] ∧
    (0 < castToInt (twoTpusEnv.numTpus.getD (-1)) ∨ 0 < castToInt (twoTpusEnv.numGpus.getD (-1))) ∧
    twoTpusEnv.localWorker = none ∧ twoTpusEnv.mpDevice = none ∧
    let table := hostDeviceTable (twoTpusEnv.numTpus.getD 0) (twoTpusEnv.numGpus.getD 0)
      (twoTpusEnv.numCpus.getD 1)
    ∃ options, ComputationClient.parseConfiguration twoTpusEnv = .ok (options, none) ∧
      options.globalDeviceMap.Perm (table.flatMap (kindBlock kLocalService 0 0)) ∧
      ((table.flatMap (kindBlock kLocalService 0 0)).map Prod.fst).Nodup ∧
      ∀ globalDeviceMap : List (DeviceId × ParsedName), globalDeviceMap.Perm options.globalDeviceMap →
        let served := populateLocalDevices (twoTpusEnv.localWorker.map LocalWorkerEnv.worker)
          twoTpusEnv.mpDevice { options with globalDeviceMap := globalDeviceMap }
        served.devices.Perm ((table.flatMap (kindBlock kLocalService 0 0)).map Prod.fst) ∧
        served.defaultDevice =
          some (if 0 < castToInt (twoTpusEnv.numTpus.getD 0) then ⟨"TPU", 0⟩ else ⟨"GPU", 0⟩) ∧
        xrtComputationClient twoTpusEnv.localWorker served =
          (fun service => ⟨none, "", service⟩) <$> maybeCreateLocalService none served :=
  ⟨rfl, by decide, rfl, rfl, clientStartup_deviceCounts twoTpusEnv rfl (by decide) rfl rfl⟩

end XrtClient
