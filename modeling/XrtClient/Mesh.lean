import XrtClient.Topology
import Mathlib.Data.List.Perm.Basic
import Mathlib.Tactic.Ring
import Mathlib.Tactic.Linarith

/-! # The mesh service

A master process serves the topology it was configured with: `CreateMeshService` lists each
worker of its workers map with the devices of its global device map that live there, by local
name `TYPE:ID`, together with the TPU topology proto. Every other process fetches that config
and rebuilds its options from it (`ParseMeshConfig`): the global device map and the workers map
come back as they were, and the process serves the devices of its own worker. `InitializeDevices`
reads the mesh coordinates of each TPU device from the flat coordinate list of the topology proto,
at the place its task and id give it.
-/

namespace XrtClient

/-- The fields of `tensorflow::tpu::TopologyProto` the client reads: the task count, the TPU
devices per task, the mesh shape and the flat list of device coordinates. -/
structure TopologyProto where
  numTasks : Int
  numTpuDevicesPerTask : Int
  meshShape : List Int
  deviceCoordinates : List Int
  deriving DecidableEq, Repr

/-- A default-constructed proto. -/
def TopologyProto.empty : TopologyProto := ⟨0, 0, [], []⟩

/-- A device of `service::grpc::Config`: its local name `TYPE:ID` on its worker, and its global
name. -/
structure MeshDevice where
  localName : DeviceId
  globalName : DeviceId
  deriving DecidableEq, Repr

/-- A worker of `service::grpc::Config`. -/
structure MeshWorker where
  name : String
  taskNo : Int
  address : String
  devices : List MeshDevice
  deriving DecidableEq, Repr

/-- `service::grpc::Config`, the mesh configuration the master serves. -/
structure MeshConfig where
  proto : TopologyProto
  workers : List MeshWorker
  meshSize : Int
  deriving DecidableEq, Repr

/-- The worker of a full device name. -/
def ParsedName.worker (name : ParsedName) : Worker := ⟨name.job, name.task⟩

/-- What `workers_devices[worker]` holds after the loop of `CreateMeshService` over the global
device map: the devices whose full name is on `worker`, in map order, each with its local name
`absl::StrCat(type, ":", id)`. -/
def workerDevices (opts : Options) (worker : Worker) : List MeshDevice :=
  (opts.globalDeviceMap.filter fun entry => entry.2.worker = worker).map fun entry =>
    ⟨⟨entry.2.type, entry.2.id⟩, entry.1⟩

/-- `CreateMeshService`: one config worker per entry of the workers map, with its devices, the
topology if there is one, and the world size `XRT_WORLD_SIZE`. -/
def createMeshService (opts : Options) (topology : Option TopologyProto) (worldSize : Int) :
    MeshConfig where
  proto := topology.getD TopologyProto.empty
  workers := opts.workersMap.map fun entry =>
    ⟨entry.1.name, entry.1.taskNo, entry.2, workerDevices opts entry.1⟩
  meshSize := worldSize

/-- The inner loop of `ParseMeshConfig`: register a device of `worker` under its global name, and
serve it when `worker` is the local worker and the device is the multi-processing device, if one
is set. -/
def addMeshDevice (localWorker : Worker) (mpDevice : Option DeviceId) (worker : Worker)
    (opts : Options) (device : MeshDevice) : Options :=
  { opts with
    globalDeviceMap := emplace opts.globalDeviceMap device.globalName
      (getXrtDevicePath worker.name worker.taskNo device.localName.kind device.localName.ordinal)
    devices :=
      if localWorker = worker ∧ (mpDevice = none ∨ mpDevice = some device.globalName) then
        setInsert opts.devices device.globalName
      else opts.devices }

/-- The outer loop of `ParseMeshConfig`: register a worker and its devices. -/
def addMeshWorker (localWorker : Worker) (mpDevice : Option DeviceId) (opts : Options)
    (configWorker : MeshWorker) : Options :=
  let worker : Worker := ⟨configWorker.name, configWorker.taskNo⟩
  configWorker.devices.foldl (addMeshDevice localWorker mpDevice worker)
    { opts with workersMap := emplace opts.workersMap worker configWorker.address }

/-- `ParseMeshConfig` on a fresh `Options`, with `XRT_LOCAL_WORKER` as `ParseWorker` reads it and
`XRT_MP_DEVICE` if set: the options and the topology it fetched from the mesh service. -/
def parseMeshConfig (localWorker : Worker) (mpDevice : Option DeviceId) (config : MeshConfig) :
    Options × TopologyProto :=
  (config.workers.foldl (addMeshWorker localWorker mpDevice) emptyOptions, config.proto)

/-! ## The loops of `ParseMeshConfig` -/

/-- The global map entry `ParseMeshConfig` registers for a device of `worker`. -/
def meshEntry (worker : Worker) (device : MeshDevice) : DeviceId × ParsedName :=
  (device.globalName,
    getXrtDevicePath worker.name worker.taskNo device.localName.kind device.localName.ordinal)

/-- Every device of the config with its worker, in config order. -/
def meshDevices (workers : List MeshWorker) : List (Worker × MeshDevice) :=
  workers.flatMap fun configWorker =>
    configWorker.devices.map fun device => (⟨configWorker.name, configWorker.taskNo⟩, device)

/-- `std::map::emplace` of an entry. -/
def emplaceEntry {κ ν : Type} [DecidableEq κ] (map : List (κ × ν)) (entry : κ × ν) :
    List (κ × ν) :=
  emplace map entry.1 entry.2

section Loops

variable (localWorker : Worker) (mpDevice : Option DeviceId)

/-- Whether `ParseMeshConfig` serves a device of `worker`. -/
def ServesMeshDevice (entry : Worker × MeshDevice) : Prop :=
  localWorker = entry.1 ∧ (mpDevice = none ∨ mpDevice = some entry.2.globalName)

instance : DecidablePred (ServesMeshDevice localWorker mpDevice) :=
  fun _ => inferInstanceAs (Decidable (_ ∧ _))

theorem foldl_addMeshDevice (worker : Worker) :
    ∀ (devices : List MeshDevice) (opts : Options),
      devices.foldl (addMeshDevice localWorker mpDevice worker) opts =
        { opts with
          globalDeviceMap := (devices.map (meshEntry worker)).foldl emplaceEntry opts.globalDeviceMap
          devices := (devices.map (worker, ·)).foldl (fun ds entry =>
            if ServesMeshDevice localWorker mpDevice entry then setInsert ds entry.2.globalName
            else ds) opts.devices }
  | [], _ => rfl
  | device :: rest, opts => by
      rw [List.foldl_cons, foldl_addMeshDevice worker rest]
      rfl

/-- The loops of `ParseMeshConfig`, field by field: the workers map and the global map are
emplaced in config order, and each served device is inserted into the devices. -/
theorem foldl_addMeshWorker : ∀ (workers : List MeshWorker) (opts : Options),
    workers.foldl (addMeshWorker localWorker mpDevice) opts =
      { opts with
        globalDeviceMap := ((meshDevices workers).map fun entry => meshEntry entry.1 entry.2).foldl
          emplaceEntry opts.globalDeviceMap
        workersMap := (workers.map fun configWorker =>
          ((⟨configWorker.name, configWorker.taskNo⟩ : Worker), configWorker.address)).foldl
            emplaceEntry opts.workersMap
        devices := (meshDevices workers).foldl (fun ds entry =>
          if ServesMeshDevice localWorker mpDevice entry then setInsert ds entry.2.globalName
          else ds) opts.devices }
  | [], _ => rfl
  | configWorker :: rest, opts => by
      rw [List.foldl_cons, addMeshWorker, foldl_addMeshDevice, foldl_addMeshWorker rest]
      simp only [meshDevices, List.flatMap_cons, List.map_append, List.foldl_append, List.map_map,
        List.map_cons, List.foldl_cons, Function.comp_def]
      rfl

end Loops

/-! ## The round trip through the mesh service -/

/-- Emplacing entries with distinct keys, none in the map yet, appends them. -/
theorem foldl_emplaceEntry_of_nodup {κ ν : Type} [DecidableEq κ] :
    ∀ (entries map : List (κ × ν)), ((map ++ entries).map Prod.fst).Nodup →
      entries.foldl emplaceEntry map = map ++ entries
  | [], map, _ => by simp
  | entry :: rest, map, hnodup => by
      have hfresh : ∀ e ∈ map, e.1 ≠ entry.1 := fun e he heq => by
        simp only [List.map_append, List.map_cons, List.nodup_append, List.nodup_cons] at hnodup
        exact hnodup.2.2 (List.mem_map_of_mem _ he) (heq ▸ List.mem_cons_self _ _)
      rw [List.foldl_cons, emplaceEntry, emplace_of_fresh hfresh, foldl_emplaceEntry_of_nodup rest]
      · simp
      · simpa using hnodup

/-- Cutting a list by a key that every element maps into a list of distinct keys, and joining
the pieces in key order, gives the list back up to order. -/
theorem flatMap_filter_perm {β κ : Type} [DecidableEq κ] (key : β → κ) :
    ∀ (keys : List κ) (l : List β), keys.Nodup → (∀ x ∈ l, key x ∈ keys) →
      (keys.flatMap fun k => l.filter fun x => key x = k).Perm l
  | [], l, _, hl => by
      obtain rfl : l = [] := List.eq_nil_iff_forall_not_mem.mpr fun x hx => by simpa using hl x hx
      rfl
  | k :: ks, l, hnodup, hl => by
      obtain ⟨hk, hks⟩ := List.nodup_cons.mp hnodup
      have hrest : (ks.flatMap fun k' => l.filter fun x => key x = k') =
          ks.flatMap fun k' => (l.filter fun x => !decide (key x = k)).filter fun x => key x = k' :=
        List.flatMap_congr fun k' hk' => by
          rw [List.filter_filter]
          refine List.filter_congr fun x _ => ?_
          by_cases hx : key x = k' <;> simp [hx, show k' ≠ k from fun h => hk (h ▸ hk')]
      rw [List.flatMap_cons, hrest]
      refine ((flatMap_filter_perm key ks _ hks fun x hx => ?_).append_left _).trans
        (List.filter_append_perm _ l)
      obtain ⟨hxl, hxk⟩ := List.mem_filter.mp hx
      exact (List.mem_cons.mp (hl x hxl)).resolve_left (by simpa using hxk)

/-- The devices the config of `CreateMeshService` lists, read back as global map entries: the
entries of each worker of the workers map, in map order. -/
theorem meshEntries_createMeshService (opts : Options) (topology : Option TopologyProto)
    (worldSize : Int) :
    (meshDevices (createMeshService opts topology worldSize).workers).map
        (fun entry => meshEntry entry.1 entry.2) =
      opts.workersMap.flatMap fun worker =>
        opts.globalDeviceMap.filter fun entry => entry.2.worker = worker.1 := by
  simp only [createMeshService, meshDevices, workerDevices, List.flatMap_map, List.map_flatMap,
    List.map_map]
  refine List.flatMap_congr fun worker _ => ?_
  conv => rhs; rw [← List.map_id (List.filter _ _)]
  refine List.map_congr_left fun entry hentry => ?_
  have hworker : entry.2.worker = worker.1 := of_decide_eq_true (List.mem_filter.mp hentry).2
  rw [← hworker]
  rfl

/-- Every process that fetches the mesh config derives the master's topology: `ParseMeshConfig`
on the config `CreateMeshService` builds from options whose map keys are distinct and whose
devices live on workers of the workers map gives back the global device map (as a map) and the
workers map, the master's topology proto, and as devices exactly the global names on the local
worker that are the multi-processing device, when one is set. -/
theorem parseMeshConfig_createMeshService (opts : Options) (topology : Option TopologyProto)
    (worldSize : Int) (localWorker : Worker) (mpDevice : Option DeviceId)
    (hdevices : (opts.globalDeviceMap.map Prod.fst).Nodup)
    (hworkers : (opts.workersMap.map Prod.fst).Nodup)
    (hknown : ∀ entry ∈ opts.globalDeviceMap, entry.2.worker ∈ opts.workersMap.map Prod.fst) :
    (parseMeshConfig localWorker mpDevice
        (createMeshService opts topology worldSize)).1.globalDeviceMap.Perm opts.globalDeviceMap ∧
      (parseMeshConfig localWorker mpDevice
        (createMeshService opts topology worldSize)).1.workersMap = opts.workersMap ∧
      (∀ device, device ∈ (parseMeshConfig localWorker mpDevice
          (createMeshService opts topology worldSize)).1.devices ↔
        ∃ name, (device, name) ∈ opts.globalDeviceMap ∧ name.worker = localWorker ∧
          (mpDevice = none ∨ mpDevice = some device)) ∧
      (parseMeshConfig localWorker mpDevice
        (createMeshService opts topology worldSize)).1.devices.Nodup ∧
      (parseMeshConfig localWorker mpDevice (createMeshService opts topology worldSize)).2 =
        topology.getD TopologyProto.empty := by
  have hperm := flatMap_filter_perm (fun entry : DeviceId × ParsedName => entry.2.worker)
    (opts.workersMap.map Prod.fst) opts.globalDeviceMap hworkers hknown
  rw [List.flatMap_map] at hperm
  have hworkersMap : ((createMeshService opts topology worldSize).workers.map fun configWorker =>
      ((⟨configWorker.name, configWorker.taskNo⟩ : Worker), configWorker.address)) =
      opts.workersMap := by
    simp [createMeshService, Function.comp_def]
  simp only [parseMeshConfig, foldl_addMeshWorker, emptyOptions, meshEntries_createMeshService,
    hworkersMap]
  refine ⟨?_, ?_, fun device => ?_, nodup_foldl_setInsert _ _ _ List.nodup_nil, rfl⟩
  · rw [foldl_emplaceEntry_of_nodup _ _ (by simpa using (hperm.map Prod.fst).nodup_iff.mpr hdevices)]
    simpa using hperm
  · rw [foldl_emplaceEntry_of_nodup _ _ (by simpa using hworkers)]
    rfl
  · rw [mem_foldl_setInsert]
    simp only [List.not_mem_nil, false_or, meshDevices, createMeshService, workerDevices,
      List.flatMap_map, List.mem_flatMap, List.mem_map, List.mem_filter, decide_eq_true_eq,
      ServesMeshDevice]
    constructor
    · rintro ⟨_, ⟨worker, -, _, ⟨entry, ⟨hentry, hworker⟩, rfl⟩, rfl⟩, ⟨hlocal, hmp⟩, rfl⟩
      exact ⟨entry.2, hentry, hworker.trans hlocal.symm, hmp⟩
    · rintro ⟨name, hentry, hworker, hmp⟩
      obtain ⟨worker, hmem, hkey⟩ := List.mem_map.mp (hknown _ hentry)
      refine ⟨(worker.1, ⟨⟨name.type, name.id⟩, device⟩), ⟨worker, hmem, _,
        ⟨(device, name), ⟨hentry, hkey.symm⟩, rfl⟩, rfl⟩, ⟨?_, hmp⟩, rfl⟩
      exact hworker.symm.trans hkey.symm

theorem parseMeshConfig_createMeshService_shared :
    (sharedWorkerOptions.globalDeviceMap.map Prod.fst).Nodup ∧
      (sharedWorkerOptions.workersMap.map Prod.fst).Nodup ∧
      (∀ entry ∈ sharedWorkerOptions.globalDeviceMap,
        entry.2.worker ∈ sharedWorkerOptions.workersMap.map Prod.fst) ∧
      (parseMeshConfig ⟨"tpu_worker", 0⟩ (some ⟨"TPU", 0⟩)
        (createMeshService sharedWorkerOptions none 1)).1.workersMap = sharedWorkerOptions.workersMap :=
  ⟨by decide, by decide, by decide, (parseMeshConfig_createMeshService sharedWorkerOptions none 1
    ⟨"tpu_worker", 0⟩ (some ⟨"TPU", 0⟩) (by decide) (by decide) (by decide)).2.1⟩

/-! ## Mesh coordinates of the TPU devices -/

/-- `ParseFullXrtDevice`: `DeviceNameUtils::ParseFullName` reads the task and the id of a full
name as digit strings, so a name with a negative one does not parse. -/
def parseFullXrtDevice (name : ParsedName) : Except Fault ParsedName := do
  xlaCheck (0 ≤ name.task ∧ 0 ≤ name.id) name.render
  pure name

/-- `topology_proto->device_coordinates(index)`. The repeated field does not guard the index: a
read past its end is out of range. -/
def TopologyProto.deviceCoordinate (topology : TopologyProto) (index : Int) : Except Fault Int :=
  vectorAt "device_coordinates" topology.deviceCoordinates index.toNat

/-- The body of the mesh-coordinate loop of `InitializeDevices` for one TPU device: the checks,
then the `mesh_shape_size` coordinates from `base_index` on. -/
def deviceMeshCoordsOf (topology : TopologyProto) (parsed : ParsedName) :
    Except Fault (List Int) := do
  xlaCheck (parsed.task ≤ topology.numTasks) "parsed_device.task <= topology_proto->num_tasks()"
  xlaCheck (parsed.id ≤ topology.numTpuDevicesPerTask)
    "parsed_device.id <= topology_proto->num_tpu_devices_per_task()"
  let meshShapeSize : Int := topology.meshShape.length
  let baseIndex := parsed.task * topology.numTpuDevicesPerTask * meshShapeSize +
    parsed.id * meshShapeSize
  (List.range topology.meshShape.length).mapM fun (i : Nat) =>
    topology.deviceCoordinate (baseIndex + i)

/-- The mesh-coordinate loop of `InitializeDevices` over the global device map: the coordinates of
every TPU device, keyed by its full name (`device_mesh_coords_`). -/
def initializeDeviceMeshCoords (topology : TopologyProto)
    (globalDeviceMap : List (DeviceId × ParsedName)) :
    Except Fault (List (ParsedName × List Int)) :=
  globalDeviceMap.foldlM (fun coords entry => do
    let parsed ← parseFullXrtDevice entry.2
    if parsed.type ≠ "TPU" then pure coords
    else pure (emplace coords entry.2 (← deviceMeshCoordsOf topology parsed))) []

/-- Reading `count` entries from `first` on gives the slice there, or fails at the first index
past the end. -/
theorem mapM_vectorAt_range' {α : Type} (container : String) (xs : List α) :
    ∀ (count first : Nat), (List.range' first count).mapM (vectorAt container xs) =
      if count = 0 ∨ first + count ≤ xs.length then .ok ((xs.drop first).take count)
      else .error (.outOfRange container (max first xs.length))
  | 0, first => by simp; rfl
  | count + 1, first => by
      rw [List.range'_succ, List.mapM_cons]
      by_cases hfirst : first < xs.length
      · rw [vectorAt_of_lt container xs first hfirst, mapM_vectorAt_range' container xs count (first + 1)]
        by_cases hfit : count = 0 ∨ first + 1 + count ≤ xs.length
        · rw [if_pos hfit, if_pos (by omega), List.drop_eq_getElem_cons hfirst]
          rfl
        · rw [if_neg hfit, if_neg (by omega), max_eq_right (by omega), max_eq_right (by omega)]
          rfl
      · rw [vectorAt_of_le container xs first (by omega), if_neg (by omega), max_eq_left (by omega)]
        rfl

/-- Where the slice of a device starts in `device_coordinates`: `base_index`. -/
def meshBase (topology : TopologyProto) (parsed : ParsedName) : Nat :=
  ((parsed.task * topology.numTpuDevicesPerTask + parsed.id) * topology.meshShape.length).toNat

/-- A device the checks accept reads the `mesh_shape_size` entries from its `base_index` on. -/
theorem deviceMeshCoordsOf_accepted (topology : TopologyProto) {parsed : ParsedName}
    (htask : 0 ≤ parsed.task ∧ parsed.task ≤ topology.numTasks)
    (hid : 0 ≤ parsed.id ∧ parsed.id ≤ topology.numTpuDevicesPerTask) :
    deviceMeshCoordsOf topology parsed =
      (List.range' (meshBase topology parsed) topology.meshShape.length).mapM
        (vectorAt "device_coordinates" topology.deviceCoordinates) := by
  have hbase : 0 ≤ (parsed.task * topology.numTpuDevicesPerTask + parsed.id) *
      (topology.meshShape.length : Int) :=
    Int.mul_nonneg (Int.add_nonneg (Int.mul_nonneg htask.1 (hid.1.trans hid.2)) hid.1)
      (Int.ofNat_nonneg _)
  simp only [deviceMeshCoordsOf, xlaCheck_of_true _ htask.2, xlaCheck_of_true _ hid.2, ok_bind,
    List.range'_eq_map_range, mapM_map]
  congr 1
  funext i
  simp only [Function.comp_apply, TopologyProto.deviceCoordinate, meshBase]
  congr 1
  rw [show parsed.task * topology.numTpuDevicesPerTask * (topology.meshShape.length : Int) +
      parsed.id * topology.meshShape.length =
      (parsed.task * topology.numTpuDevicesPerTask + parsed.id) * topology.meshShape.length by ring]
  omega

/-- The loop over a map of one TPU device with a full name that parses. -/
theorem initializeDeviceMeshCoords_single (topology : TopologyProto) (device : DeviceId)
    {parsed : ParsedName} (htpu : parsed.type = "TPU") (hparse : 0 ≤ parsed.task ∧ 0 ≤ parsed.id) :
    initializeDeviceMeshCoords topology [(device, parsed)] =
      (deviceMeshCoordsOf topology parsed).map fun coords => [(parsed, coords)] := by
  simp only [initializeDeviceMeshCoords, List.foldlM_cons, List.foldlM_nil, parseFullXrtDevice,
    xlaCheck_of_true _ hparse, htpu]
  cases h : deviceMeshCoordsOf topology parsed <;> simp [htpu, h, emplace, Functor.map, Except.map]

/-- The checks of the mesh-coordinate loop compare with `<=`: over every topology whose
`device_coordinates` holds `num_tasks * num_tpu_devices_per_task * mesh_shape_size` entries, a
TPU device on task `num_tasks` passes them and reads past the end of the coordinates, and the
device with id `num_tpu_devices_per_task` on a task passes them and reads the coordinates of
device 0 of the next task. -/
theorem initializeDeviceMeshCoords_admits_boundary (topology : TopologyProto)
    (hlength : (topology.deviceCoordinates.length : Int) =
      topology.numTasks * topology.numTpuDevicesPerTask * topology.meshShape.length)
    (hmesh : 0 < topology.meshShape.length) (device device' : DeviceId) (job job' : String) :
    (∀ id, 0 ≤ id → id ≤ topology.numTpuDevicesPerTask → 0 ≤ topology.numTasks →
      ∃ index, topology.deviceCoordinates.length ≤ index ∧
        initializeDeviceMeshCoords topology [(device, ⟨job, topology.numTasks, "TPU", id⟩)] =
          .error (.outOfRange "device_coordinates" index)) ∧
    (∀ task, 0 ≤ task → task + 1 < topology.numTasks → 0 < topology.numTpuDevicesPerTask →
      ∃ coords,
        initializeDeviceMeshCoords topology
            [(device, ⟨job, task, "TPU", topology.numTpuDevicesPerTask⟩)] =
          .ok [(⟨job, task, "TPU", topology.numTpuDevicesPerTask⟩, coords)] ∧
        initializeDeviceMeshCoords topology [(device', ⟨job', task + 1, "TPU", 0⟩)] =
          .ok [(⟨job', task + 1, "TPU", 0⟩, coords)]) := by
  constructor
  · intro id hid hidD htasks
    have hbase : (topology.deviceCoordinates.length : Int) ≤
        (topology.numTasks * topology.numTpuDevicesPerTask + id) * topology.meshShape.length := by
      rw [hlength, Int.add_mul]
      exact Int.le_add_of_nonneg_right (Int.mul_nonneg hid (Int.ofNat_nonneg _))
    refine ⟨_, le_max_right (meshBase topology ⟨job, topology.numTasks, "TPU", id⟩) _, ?_⟩
    rw [initializeDeviceMeshCoords_single topology device rfl ⟨htasks, hid⟩,
      deviceMeshCoordsOf_accepted topology ⟨htasks, le_rfl⟩ ⟨hid, hidD⟩, mapM_vectorAt_range',
      if_neg (by simp only [meshBase]; omega)]
    rfl
  · intro task htask hnext hdevices
    have hbase : meshBase topology ⟨job, task, "TPU", topology.numTpuDevicesPerTask⟩ =
        meshBase topology ⟨job', task + 1, "TPU", 0⟩ := by
      simp only [meshBase]
      congr 1
      ring
    have hfit : meshBase topology ⟨job', task + 1, "TPU", 0⟩ + topology.meshShape.length ≤
        topology.deviceCoordinates.length := by
      have hle : ((task + 1) * topology.numTpuDevicesPerTask + 1) * (topology.meshShape.length : Int) ≤
          topology.numTasks * topology.numTpuDevicesPerTask * topology.meshShape.length :=
        Int.mul_le_mul_of_nonneg_right (by nlinarith) (Int.ofNat_nonneg _)
      have hsucc : ((task + 1) * topology.numTpuDevicesPerTask + 1) *
          (topology.meshShape.length : Int) =
          ((task + 1) * topology.numTpuDevicesPerTask + 0) * topology.meshShape.length +
            topology.meshShape.length := by ring
      have hnonneg : 0 ≤ ((task + 1) * topology.numTpuDevicesPerTask + 0) *
          (topology.meshShape.length : Int) := Int.mul_nonneg (by nlinarith) (Int.ofNat_nonneg _)
      simp only [meshBase]
      omega
    refine ⟨(topology.deviceCoordinates.drop (meshBase topology ⟨job', task + 1, "TPU", 0⟩)).take
      topology.meshShape.length, ?_, ?_⟩
    · rw [initializeDeviceMeshCoords_single topology _ rfl (by simp; omega),
        deviceMeshCoordsOf_accepted topology (by simp; omega) (by simp; omega), hbase,
        mapM_vectorAt_range', if_pos (.inr hfit)]
      rfl
    · rw [initializeDeviceMeshCoords_single topology _ rfl (by simp; omega),
        deviceMeshCoordsOf_accepted topology (by simp; omega) (by simp; omega),
        mapM_vectorAt_range', if_pos (.inr hfit)]
      rfl

/-- Two tasks of one TPU core each, on a mesh of four dimensions. -/
def twoTaskTopology : TopologyProto := ⟨2, 1, [1, 2, 1, 1], [0, 0, 0, 0, 0, 1, 0, 0]⟩

/-- Core 0 of a third task passes the checks of that topology and reads past its eight
coordinates. -/
theorem initializeDeviceMeshCoords_admits_boundary_twoTasks :
    (twoTaskTopology.deviceCoordinates.length : Int) = twoTaskTopology.numTasks *
        twoTaskTopology.numTpuDevicesPerTask * twoTaskTopology.meshShape.length ∧
      0 < twoTaskTopology.meshShape.length ∧
      ∃ index, 8 ≤ index ∧ initializeDeviceMeshCoords twoTaskTopology
        [(⟨"TPU", 2⟩, ⟨"tpu_worker", 2, "TPU", 0⟩)] = .error (.outOfRange "device_coordinates" index) :=
  ⟨by decide, by decide, (initializeDeviceMeshCoords_admits_boundary twoTaskTopology (by decide)
    (by decide) ⟨"TPU", 2⟩ ⟨"TPU", 1⟩ "tpu_worker" "tpu_worker").1 0 le_rfl (by decide) (by decide)⟩

end XrtClient
