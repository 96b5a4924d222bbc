import XrtClient.Basic
import Mathlib.Algebra.Group.Nat.Basic

/-! # The topology of an env-configured TPU cluster

`ParseEnvBasedTpuClusterConfig` reads `XRT_TPU_CONFIG`, host specs `worker;task;server` joined
by `|`, and for each host `AddXrtHostDevices` registers its worker and numbers its devices: the
devices of one kind take global ordinals one after another across the hosts, and local ids from
0 on each host. `PopulateLocalDevices` then keeps, as the devices this process serves, the
devices of the local worker (`XRT_LOCAL_WORKER`) that `IsLocalDevice` accepts: with a
multi-processing device `XRT_MP_DEVICE`, those whose local id plus the first ordinal of the
device's kind on the task equals the device's ordinal.

The host specs enter as `ParseEnvBasedTpuClusterConfig` splits them; the split and `std::stoi`
are not modelled. The device counts enter as the `int64`s `GetEnvInt` reads, and the table of
`AddXrtHostDevices` holds their `static_cast<int>`. The maps are kept in insertion order, `emplace`
keeping the first entry of a key as `std::map::emplace` does; the code's maps hold the same
entries in key order, so what depends on the order is stated for every order of them.
-/

namespace XrtClient

/-- Modelled from the spec: `util::InsertCombined` (not under src/), as its callers use it,
inserts `value` under a new `key` and combines it with the value already under the key
otherwise. -/
def insertCombined {κ : Type} [DecidableEq κ] (map : List (κ × Int)) (key : κ) (value : Int)
    (combine : Int → Int → Int) : List (κ × Int) :=
  match map.lookup key with
  | some old => map.map fun entry => if entry.1 = key then (key, combine old value) else entry
  | none => map ++ [(key, value)]

/-- `MakeGrpcEndPoint`. -/
def makeGrpcEndPoint (server : String) : String :=
  if server.startsWith "grpc://" then server else "grpc://" ++ server

/-- `static_cast<int>` of the `int64` that `GetEnvInt` returns: the value modulo `2^32`, in the
range of `int`. -/
def castToInt (value : Int) : Int := value.bmod (2 ^ 32)

/-- The table of `AddXrtHostDevices`: each kind, its TensorFlow device type and its count, the
`int` of the count `GetEnvInt` reads. -/
def hostDeviceTable (numTpus numGpus numCpus : Int) : List (String × String × Int) :=
  [("TPU", "TPU", castToInt numTpus), ("GPU", "XLA_GPU", castToInt numGpus),
    ("CPU", "XLA_CPU", castToInt numCpus)]

/-- One kind of one host in `AddXrtHostDevices`: `count` devices numbered on from the kind's
next ordinal, with local ids from 0. -/
def addHostKind (workerName : String) (taskNo : Int)
    (state : (String → Int) × List (DeviceId × ParsedName)) (kind : String × String × Int) :
    (String → Int) × List (DeviceId × ParsedName) :=
  let first := state.1 kind.1
  (fun name => if name = kind.1 then first + kind.2.2.toNat else state.1 name,
    (List.range kind.2.2.toNat).foldl (fun map j =>
      emplace map ⟨kind.1, first + j⟩ (getXrtDevicePath workerName taskNo kind.2.1 j)) state.2)

/-- `AddXrtHostDevices`: the host's worker and target, and its devices of every kind of the
table. -/
def addXrtHostDevices (workerName : String) (taskNo : Int) (server : String)
    (table : List (String × String × Int)) (deviceOrdinals : String → Int) (opts : Options) :
    (String → Int) × Options :=
  let devices := table.foldl (addHostKind workerName taskNo) (deviceOrdinals, opts.globalDeviceMap)
  (devices.1, { opts with
    workersMap := emplace opts.workersMap ⟨workerName, taskNo⟩ (makeGrpcEndPoint server)
    globalDeviceMap := devices.2 })

/-- A host of `XRT_TPU_CONFIG`. -/
structure HostSpec where
  worker : String
  taskNo : Int
  server : String
  deriving DecidableEq, Repr

/-- `ParseEnvBasedTpuClusterConfig` over the host specs of `XRT_TPU_CONFIG`, with the device
counts of the environment (`XRT_NUM_TPU`, `XRT_NUM_GPU`, `XRT_NUM_CPU`), if set, over the defaults
8 TPUs, 0 GPUs and 1 CPU. -/
def parseEnvBasedTpuClusterConfig (numTpus numGpus numCpus : Option Int)
    (hostSpecs : List HostSpec) (opts : Options) : Options :=
  let table := hostDeviceTable (numTpus.getD 8) (numGpus.getD 0) (numCpus.getD 1)
  (hostSpecs.foldl (fun state spec =>
    addXrtHostDevices spec.worker spec.taskNo spec.server table state.1 state.2)
    (fun _ => 0, opts)).2

/-- `ParseEnvBasedTpuClusterConfig` leaves the served devices and the default device as it finds
them. -/
theorem devices_parseEnvBasedTpuClusterConfig (numTpus numGpus numCpus : Option Int)
    (hostSpecs : List HostSpec) (opts : Options) :
    (parseEnvBasedTpuClusterConfig numTpus numGpus numCpus hostSpecs opts).devices = opts.devices ∧
      (parseEnvBasedTpuClusterConfig numTpus numGpus numCpus hostSpecs opts).defaultDevice =
        opts.defaultDevice := by
  unfold parseEnvBasedTpuClusterConfig
  generalize (fun _ => 0 : String → Int) = ordinals
  induction hostSpecs generalizing ordinals opts with
  | nil => exact ⟨rfl, rfl⟩
  | cons spec hostSpecs ih => exact ih _ _

/-- `BuildTaskDeviceKey`: the key `TASK:KIND`, kept as the pair it renders. -/
def buildTaskDeviceKey (taskNo : Int) (kind : String) : Int × String :=
  (taskNo, kind)

/-- `BuildDeviceTaskMap`: the least global ordinal of each kind on each task. -/
def buildDeviceTaskMap (opts : Options) : List ((Int × String) × Int) :=
  opts.globalDeviceMap.foldl (fun map entry =>
    insertCombined map (buildTaskDeviceKey entry.2.task entry.1.kind) entry.1.ordinal min) []

/-- `IsLocalDevice`: the device lives on the worker's job and task, and, when there is a
multi-processing device, the device's local id added to the first ordinal, on the device's task,
of the kind of the multi-processing device gives the multi-processing device's ordinal. -/
def isLocalDevice (mpDevice : Option DeviceId) (worker : Worker) (parsedDevice : ParsedName)
    (devTaskMap : List ((Int × String) × Int)) : Bool :=
  if worker.name ≠ parsedDevice.job ∨ worker.taskNo ≠ parsedDevice.task then false
  else match mpDevice with
    | none => true
    | some device =>
        match devTaskMap.lookup (buildTaskDeviceKey parsedDevice.task device.kind) with
        | some base => device.ordinal = base + parsedDevice.id
        | none => false

theorem isLocalDevice_none (worker : Worker) (parsedDevice : ParsedName)
    (devTaskMap : List ((Int × String) × Int)) :
    isLocalDevice none worker parsedDevice devTaskMap =
      decide (worker.name = parsedDevice.job ∧ worker.taskNo = parsedDevice.task) := by
  unfold isLocalDevice
  by_cases h : worker.name = parsedDevice.job ∧ worker.taskNo = parsedDevice.task
  · rw [if_neg (by rintro (h' | h') <;> simp_all), decide_eq_true h]
  · rw [if_pos (by rw [not_and_or] at h; exact h), decide_eq_false h]

/-- `std::set::insert`. -/
def setInsert (devices : List DeviceId) (device : DeviceId) : List DeviceId :=
  if device ∈ devices then devices else devices ++ [device]

theorem mem_setInsert {devices : List DeviceId} {device d : DeviceId} :
    d ∈ setInsert devices device ↔ d ∈ devices ∨ d = device := by
  unfold setInsert
  split
  · next h => exact ⟨.inl, fun h' => h'.elim id (· ▸ h)⟩
  · simp

theorem nodup_setInsert {devices : List DeviceId} (h : devices.Nodup) (device : DeviceId) :
    (setInsert devices device).Nodup := by
  unfold setInsert
  split
  · exact h
  · next hnot => exact h.append (List.nodup_singleton _) (List.disjoint_singleton.mpr hnot)

section SetInsert

variable {β : Type} (serve : β → Prop) [DecidablePred serve] (name : β → DeviceId)

/-- A loop that inserts the name of each item it serves into a `std::set`. -/
theorem mem_foldl_setInsert : ∀ (xs : List β) (devices : List DeviceId) (d : DeviceId),
    d ∈ xs.foldl (fun ds x => if serve x then setInsert ds (name x) else ds) devices ↔
      d ∈ devices ∨ ∃ x ∈ xs, serve x ∧ name x = d
  | [], _, _ => by simp
  | x :: rest, devices, d => by
      rw [List.foldl_cons, mem_foldl_setInsert rest]
      by_cases hx : serve x
      · simp only [hx, if_true, mem_setInsert, List.mem_cons, exists_eq_or_imp, true_and]
        constructor
        · rintro ((h | rfl) | h) <;> simp_all
        · rintro (h | rfl | h) <;> simp_all
      · simp [hx]

theorem nodup_foldl_setInsert : ∀ (xs : List β) {devices : List DeviceId}, devices.Nodup →
    (xs.foldl (fun ds x => if serve x then setInsert ds (name x) else ds) devices).Nodup
  | [], _, h => h
  | x :: rest, _, h => nodup_foldl_setInsert rest (by dsimp only; split <;> simp_all [nodup_setInsert])

end SetInsert

/-- `PopulateLocalDevices` with `XRT_LOCAL_WORKER` as `ParseWorker` reads it and
`XRT_MP_DEVICE`, each if set: the local devices, and as default device the least ordinal of the
first kind among TPU, GPU and CPU that has one. -/
def populateLocalDevices (localWorker : Option Worker) (mpDevice : Option DeviceId)
    (opts : Options) : Options :=
  let worker := localWorker.getD ⟨"", -1⟩
  let devTaskMap := buildDeviceTaskMap opts
  let served := opts.globalDeviceMap.foldl (fun state entry =>
    if 0 ≤ worker.taskNo ∧ isLocalDevice mpDevice worker entry.2 devTaskMap = false then state
    else (setInsert state.1 entry.1, insertCombined state.2 entry.1.kind entry.1.ordinal min))
    (opts.devices, [])
  { opts with
    devices := served.1
    defaultDevice := (["TPU", "GPU", "CPU"].findSome? fun kind =>
      (served.2.lookup kind).map fun ordinal => (⟨kind, ordinal⟩ : DeviceId)).orElse
        fun _ => opts.defaultDevice }

/-! ## The default device

`PopulateLocalDevices` keeps, in `min_ordinals`, the least ordinal of each kind among the devices
it marks local; the default device is the entry of the first of TPU, GPU and CPU that has one. -/

section DefaultDevice

/-- The devices `PopulateLocalDevices` marks local, in the order of the global device map: those
`IsLocalDevice` accepts for the local worker, or all of them when the worker's task number is
negative, as it is when no local worker is set. -/
def markedLocal (localWorker : Option Worker) (mpDevice : Option DeviceId) (opts : Options) :
    List DeviceId :=
  (opts.globalDeviceMap.filter fun entry => !decide (0 ≤ (localWorker.getD ⟨"", -1⟩).taskNo ∧
    isLocalDevice mpDevice (localWorker.getD ⟨"", -1⟩) entry.2 (buildDeviceTaskMap opts) = false)).map
      Prod.fst

/-- With a local worker of task at least `0` and no multi-processing device, `PopulateLocalDevices`
marks local the devices of the local worker's job and task. -/
theorem markedLocal_of_worker {worker : Worker} (htask : 0 ≤ worker.taskNo) (options : Options) :
    markedLocal (some worker) none options =
      (options.globalDeviceMap.filter fun entry =>
        decide (worker.name = entry.2.job ∧ worker.taskNo = entry.2.task)).map Prod.fst := by
  unfold markedLocal
  congr 2
  funext entry
  simp [isLocalDevice_none, htask]

/-- With no local worker every device of the global device map is marked local. -/
theorem markedLocal_none (mpDevice : Option DeviceId) (opts : Options) :
    markedLocal none mpDevice opts = opts.globalDeviceMap.map Prod.fst := by
  simp [markedLocal]

/-- The devices `PopulateLocalDevices` marks local are distinct when the global device map's keys
are. -/
theorem nodup_markedLocal (localWorker : Option Worker) (mpDevice : Option DeviceId) {opts : Options}
    (h : (opts.globalDeviceMap.map Prod.fst).Nodup) : (markedLocal localWorker mpDevice opts).Nodup :=
  h.sublist ((List.filter_sublist _).map Prod.fst)

/-- The `min_ordinals` map that `PopulateLocalDevices` builds from the devices it marks local. -/
def minOrdinals (devices : List DeviceId) : List (String × Int) :=
  devices.foldl (fun map device => insertCombined map device.kind device.ordinal min) []

theorem lookup_cons_eq_ite {κ ν : Type} [DecidableEq κ] (k a : κ) (b : ν) (rest : List (κ × ν)) :
    ((a, b) :: rest).lookup k = if k = a then some b else rest.lookup k := by
  by_cases h : k = a <;> simp [List.lookup_cons, h, beq_eq_false_iff_ne.mpr]

theorem lookup_map_replace {κ : Type} [DecidableEq κ] (key k : κ) (value : Int) :
    ∀ map : List (κ × Int),
      (map.map fun entry => if entry.1 = key then (key, value) else entry).lookup k =
        if k = key then (map.lookup key).map fun _ => value else map.lookup k
  | [] => by simp
  | (a, b) :: rest => by
      have ih := lookup_map_replace key k value rest
      by_cases ha : a = key
      · subst ha
        by_cases hk : k = a <;> simp [lookup_cons_eq_ite, hk, ih]
      · by_cases hk : k = key
        · subst hk
          simp [lookup_cons_eq_ite, ha, Ne.symm ha, ih]
        · simp [lookup_cons_eq_ite, ha, hk, ih]

/-- `util::InsertCombined` changes the entry of its key only. -/
theorem lookup_insertCombined {κ : Type} [DecidableEq κ] (map : List (κ × Int)) (key k : κ)
    (value : Int) (combine : Int → Int → Int) :
    (insertCombined map key value combine).lookup k =
      if k = key then some (((map.lookup key).map (combine · value)).getD value) else map.lookup k := by
  unfold insertCombined
  cases hold : map.lookup key with
  | some old => simp [lookup_map_replace, hold]
  | none => by_cases hk : k = key <;> simp [List.lookup_append, lookup_cons_eq_ite, hk, hold]

theorem minOrdinals_append (devices : List DeviceId) (device : DeviceId) :
    minOrdinals (devices ++ [device]) =
      insertCombined (minOrdinals devices) device.kind device.ordinal min := by
  simp [minOrdinals]

theorem lookup_minOrdinals_eq_none (kind : String) :
    ∀ devices : List DeviceId, (minOrdinals devices).lookup kind = none ↔ ∀ d ∈ devices, d.kind ≠ kind := by
  intro devices
  induction devices using List.reverseRecOn with
  | nil => simp [minOrdinals]
  | append_singleton devices device ih =>
    rw [minOrdinals_append, lookup_insertCombined]
    by_cases hk : kind = device.kind
    · simp only [hk, if_true, reduceCtorEq, false_iff, not_forall, not_not]
      exact ⟨device, by simp, rfl⟩
    · simp [hk, ih, Ne.symm hk, or_imp, forall_and]

/-- The entry of a kind in `min_ordinals` is the least ordinal of the kind among the devices. -/
theorem lookup_minOrdinals_eq_some {kind : String} :
    ∀ {devices : List DeviceId} {m : Int}, (minOrdinals devices).lookup kind = some m →
      ⟨kind, m⟩ ∈ devices ∧ ∀ d ∈ devices, d.kind = kind → m ≤ d.ordinal := by
  intro devices
  induction devices using List.reverseRecOn with
  | nil => simp [minOrdinals]
  | append_singleton devices device ih =>
    intro m h
    rw [minOrdinals_append, lookup_insertCombined] at h
    split_ifs at h with hk
    · subst hk
      cases hold : (minOrdinals devices).lookup device.kind with
      | none =>
        have hnone := (lookup_minOrdinals_eq_none device.kind devices).mp hold
        simp only [hold, Option.map_none', Option.getD_none, Option.some.injEq] at h
        subst h
        refine ⟨by simp, fun d hd hkind => ?_⟩
        rcases List.mem_append.mp hd with hd | hd
        · exact absurd hkind (hnone d hd)
        · simp [List.mem_singleton.mp hd]
      | some old =>
        obtain ⟨hmem, hle⟩ := ih hold
        simp only [hold, Option.map_some', Option.getD_some, Option.some.injEq] at h
        subst h
        refine ⟨?_, fun d hd hkind => ?_⟩
        · by_cases h : old ≤ device.ordinal <;> simp [Int.min_def, h, hmem]
        · rcases List.mem_append.mp hd with hd | hd
          · exact (min_le_left _ _).trans (hle d hd hkind)
          · simp [List.mem_singleton.mp hd]
    · obtain ⟨hmem, hle⟩ := ih h
      refine ⟨List.mem_append_left _ hmem, fun d hd hkind => ?_⟩
      rcases List.mem_append.mp hd with hd | hd
      · exact hle d hd hkind
      · exact absurd (List.mem_singleton.mp hd ▸ hkind).symm hk

theorem lookup_minOrdinals_of_least {devices : List DeviceId} {kind : String} {m : Int}
    (hmem : ⟨kind, m⟩ ∈ devices) (hle : ∀ d ∈ devices, d.kind = kind → m ≤ d.ordinal) :
    (minOrdinals devices).lookup kind = some m := by
  obtain ⟨m', hm'⟩ := Option.ne_none_iff_exists'.mp
    fun h => (lookup_minOrdinals_eq_none kind devices).mp h _ hmem rfl
  obtain ⟨hmem', hle'⟩ := lookup_minOrdinals_eq_some hm'
  rw [hm', le_antisymm (hle' _ hmem rfl) (hle _ hmem' rfl)]

/-- `min_ordinals` does not depend on the order the devices come in. -/
theorem lookup_minOrdinals_perm {devices devices' : List DeviceId} (h : devices.Perm devices')
    (kind : String) : (minOrdinals devices).lookup kind = (minOrdinals devices').lookup kind := by
  cases hm : (minOrdinals devices').lookup kind with
  | none => exact (lookup_minOrdinals_eq_none kind devices).mpr fun d hd =>
      (lookup_minOrdinals_eq_none kind devices').mp hm d (h.subset hd)
  | some m =>
      obtain ⟨hmem, hle⟩ := lookup_minOrdinals_eq_some hm
      exact lookup_minOrdinals_of_least (h.symm.subset hmem) fun d hd => hle d (h.subset hd)

/-- A loop that skips some items and feeds the others to two accumulators is the two loops over
the items it keeps. -/
theorem foldl_skip_pair {α β γ : Type} (skip : α → Prop) [DecidablePred skip] (f : β → α → β)
    (g : γ → α → γ) : ∀ (xs : List α) (b : β) (c : γ),
      xs.foldl (fun state x => if skip x then state else (f state.1 x, g state.2 x)) (b, c) =
        ((xs.filter fun x => !decide (skip x)).foldl f b, (xs.filter fun x => !decide (skip x)).foldl g c)
  | [], _, _ => rfl
  | x :: rest, b, c => by
      by_cases hx : skip x <;> simp [hx, foldl_skip_pair skip f g rest]

theorem mem_foldl_setInsert_self (devices : List DeviceId) :
    ∀ (init : List DeviceId) (d : DeviceId), d ∈ devices.foldl setInsert init ↔ d ∈ init ∨ d ∈ devices := by
  simpa using mem_foldl_setInsert (fun _ : DeviceId => True) id devices

/-- Inserting devices none of which is already in the set appends them in order. -/
theorem foldl_setInsert_of_nodup :
    ∀ (devices init : List DeviceId), (init ++ devices).Nodup → devices.foldl setInsert init = init ++ devices
  | [], init, _ => by simp
  | d :: devices, init, h => by
      have hfresh : d ∉ init := fun hd => (List.nodup_append.mp h).2.2 hd (List.mem_cons_self _ _)
      rw [List.foldl_cons, setInsert, if_neg hfresh,
        foldl_setInsert_of_nodup devices (init ++ [d]) (by simpa using h)]
      simp

/-- `PopulateLocalDevices` as the devices it marks local and their least ordinals. -/
theorem populateLocalDevices_eq (localWorker : Option Worker) (mpDevice : Option DeviceId)
    (opts : Options) :
    populateLocalDevices localWorker mpDevice opts =
      { opts with
        devices := (markedLocal localWorker mpDevice opts).foldl setInsert opts.devices
        defaultDevice := (["TPU", "GPU", "CPU"].findSome? fun kind =>
          ((minOrdinals (markedLocal localWorker mpDevice opts)).lookup kind).map
            fun ordinal => (⟨kind, ordinal⟩ : DeviceId)).orElse fun _ => opts.defaultDevice } := by
  dsimp only [populateLocalDevices]
  rw [foldl_skip_pair _ (fun devices (entry : DeviceId × ParsedName) => setInsert devices entry.1)
    fun map (entry : DeviceId × ParsedName) => insertCombined map entry.1.kind entry.1.ordinal min]
  simp only [markedLocal, minOrdinals, List.foldl_map]

/-- With no multi-processing device, `PopulateLocalDevices` of options serving nothing yet does not
depend on the order of the global device map: over any reordering of it, the `std::map`'s key
order among them, it serves the devices it marks local on the map as given, and picks the same
default device. -/
theorem populateLocalDevices_perm (localWorker : Option Worker) {opts : Options}
    (hdevices : opts.devices = []) (hnodup : (opts.globalDeviceMap.map Prod.fst).Nodup)
    {globalDeviceMap : List (DeviceId × ParsedName)} (hperm : globalDeviceMap.Perm opts.globalDeviceMap) :
    (populateLocalDevices localWorker none { opts with globalDeviceMap := globalDeviceMap }).devices.Perm
        (markedLocal localWorker none opts) ∧
      (populateLocalDevices localWorker none { opts with globalDeviceMap := globalDeviceMap }).defaultDevice =
        (populateLocalDevices localWorker none opts).defaultDevice := by
  have hmarked : (markedLocal localWorker none { opts with globalDeviceMap := globalDeviceMap }).Perm
      (markedLocal localWorker none opts) := by
    unfold markedLocal
    simp only [isLocalDevice_none]
    exact (hperm.filter _).map _
  have hnodup' := hmarked.nodup_iff.mpr (nodup_markedLocal _ _ hnodup)
  rw [populateLocalDevices_eq, populateLocalDevices_eq]
  refine ⟨?_, by simp only [lookup_minOrdinals_perm hmarked]⟩
  generalize markedLocal localWorker none { opts with globalDeviceMap := globalDeviceMap } = marked
    at hmarked hnodup' ⊢
  dsimp only
  rw [hdevices, foldl_setInsert_of_nodup _ [] hnodup', List.nil_append]
  exact hmarked

/-- `PopulateLocalDevices` serves the devices it marks local, and its default device is the one of
least ordinal of the first kind among TPU, GPU and CPU of which it marks one local: a local device
itself. It keeps the default it was given, unset or not, exactly when it marks none of those
kinds local. -/
theorem populateLocalDevices_default_least (localWorker : Option Worker)
    (mpDevice : Option DeviceId) (opts : Options) :
    (∀ d, d ∈ (populateLocalDevices localWorker mpDevice opts).devices ↔
      d ∈ opts.devices ∨ d ∈ markedLocal localWorker mpDevice opts) ∧
    (∀ pre kind post, ["TPU", "GPU", "CPU"] = pre ++ kind :: post →
      (∀ d ∈ markedLocal localWorker mpDevice opts, d.kind ∉ pre) →
      (∃ d ∈ markedLocal localWorker mpDevice opts, d.kind = kind) →
      ∃ m, (populateLocalDevices localWorker mpDevice opts).defaultDevice = some ⟨kind, m⟩ ∧
        ⟨kind, m⟩ ∈ markedLocal localWorker mpDevice opts ∧
        ∀ d ∈ markedLocal localWorker mpDevice opts, d.kind = kind → m ≤ d.ordinal) ∧
    ((∀ d ∈ markedLocal localWorker mpDevice opts, d.kind ∉ ["TPU", "GPU", "CPU"]) →
      (populateLocalDevices localWorker mpDevice opts).defaultDevice = opts.defaultDevice) ∧
    ((populateLocalDevices localWorker mpDevice opts).defaultDevice = none →
      ∀ d ∈ markedLocal localWorker mpDevice opts, d.kind ∉ ["TPU", "GPU", "CPU"]) := by
  rw [populateLocalDevices_eq]
  generalize markedLocal localWorker mpDevice opts = marked
  have hfind : ∀ kinds : List String, (kinds.findSome? fun kind =>
      ((minOrdinals marked).lookup kind).map fun ordinal => (⟨kind, ordinal⟩ : DeviceId)) = none ↔
        ∀ d ∈ marked, d.kind ∉ kinds := by
    simp only [List.findSome?_eq_none_iff, Option.map_eq_none', lookup_minOrdinals_eq_none]
    exact fun kinds => ⟨fun h d hd hkind => h _ hkind d hd rfl, fun h kind hkind d hd hd' => h d hd (hd' ▸ hkind)⟩
  refine ⟨fun d => mem_foldl_setInsert_self _ _ _, fun pre kind post hsplit hpre ⟨d, hd, hkind⟩ => ?_,
    fun h => ?_, fun h => ?_⟩
  · obtain ⟨m, hm⟩ := Option.ne_none_iff_exists'.mp
      fun h => (lookup_minOrdinals_eq_none kind marked).mp h d hd hkind
    refine ⟨m, ?_, lookup_minOrdinals_eq_some hm⟩
    rw [hsplit, List.findSome?_append, (hfind pre).mpr hpre, List.findSome?_cons, hm]
    rfl
  · rw [(hfind _).mpr h]
    rfl
  · refine (hfind _).mp ?_
    revert h
    cases List.findSome? _ _ <;> simp [Option.orElse]

end DefaultDevice

/-- Options before any topology is read. -/
def emptyOptions : Options := ⟨[], [], [], none⟩

/-- One host `w;0;grpc://w:8470` with the default device counts, eight TPU cores and a CPU: with
`w:0` as local worker and `TPU:0` as multi-processing device, `CPU:0` is served too, since
`IsLocalDevice` compares its local id 0 against the first TPU ordinal without comparing kinds.
The set of devices is compared up to the order it is kept in. -/
theorem populateLocalDevices_serves_other_kind :
    (populateLocalDevices (some ⟨"w", 0⟩) (some ⟨"TPU", 0⟩)
      (parseEnvBasedTpuClusterConfig none none none [⟨"w", 0, "grpc://w:8470"⟩]
        emptyOptions)).devices.Perm [⟨"CPU", 0⟩, ⟨"TPU", 0⟩] := by
  decide

end XrtClient
