import XrtClient.Basic
import Mathlib.Data.List.Perm.Basic

/-! # Compiling through the compilation cache

`Compile` builds, for every instance, the `xrt::XLAComputation` of its computation and looks its
`CompilationCacheKey` (the resource domain of the device and the serialized computation) up in
the client's bounded LRU cache `compilation_cache_`. The builder closures run concurrently: all
the lookups come before any insertion, in any order, and the misses join, in the order they take
the lock, one batch on the session of the device's worker. The batch goes out in one compile
`session->Run`; when it succeeds, each missed instance gets an `XrtComputation` around the handle
at its position in the batch, which is added to the cache under its key.

A sequence of calls threads the cache and the server's handles through; the compile runs issued
and the keys the cache evicts are logged beside them.
-/

namespace XrtClient

/-! ## The compilation cache -/

section Lru

variable {κ ν : Type} [DecidableEq κ]

/-- `DoLRU`: the entry of `key` moved to the front. -/
def promote (entries : List (κ × ν)) (key : κ) (value : ν) : List (κ × ν) :=
  (key, value) :: entries.filter fun entry => entry.1 ≠ key

theorem promote_nodup {entries : List (κ × ν)} (hnodup : (entries.map Prod.fst).Nodup) (key : κ)
    (value : ν) : ((promote entries key value).map Prod.fst).Nodup := by
  refine List.nodup_cons.mpr ⟨by simp, ?_⟩
  exact hnodup.sublist ((List.filter_sublist _).map _)

theorem length_filter_ne_key {entries : List (κ × ν)} (hnodup : (entries.map Prod.fst).Nodup)
    {key : κ} (hkey : key ∈ entries.map Prod.fst) :
    (entries.filter fun entry => entry.1 ≠ key).length + 1 = entries.length := by
  induction entries with
  | nil => simp at hkey
  | cons e rest ih =>
      rw [List.map_cons, List.nodup_cons] at hnodup
      by_cases he : e.1 = key
      · have hrest : (rest.filter fun entry => entry.1 ≠ key) = rest := by
          refine List.filter_eq_self.mpr fun entry hentry => ?_
          have hne : entry.1 ≠ key := fun h =>
            hnodup.1 (by rw [he, ← h]; exact List.mem_map_of_mem _ hentry)
          simpa using hne
        rw [List.filter_cons_of_neg (by simp [he]), hrest, List.length_cons]
      · have hkey' : key ∈ rest.map Prod.fst := by
          simpa [Ne.symm he, eq_comm] using hkey
        rw [List.filter_cons_of_pos (by simp [he]), List.length_cons, List.length_cons,
          ih hnodup.2 hkey']

theorem lookup_filter_ne_key (entries : List (κ × ν)) {key k : κ} (hk : k ≠ key) :
    (entries.filter fun entry => entry.1 ≠ key).lookup k = entries.lookup k := by
  induction entries with
  | nil => rfl
  | cons e rest ih =>
      obtain ⟨a, b⟩ := e
      by_cases ha : a = key
      · rw [List.filter_cons_of_neg (by simp [ha]), ih, List.lookup_cons,
          beq_false_of_ne (ha ▸ hk : k ≠ a)]
      · rw [List.filter_cons_of_pos (by simp [ha]), List.lookup_cons, List.lookup_cons, ih]

theorem lookup_promote {entries : List (κ × ν)} {key : κ} {value : ν}
    (h : entries.lookup key = some value) (k : κ) :
    (promote entries key value).lookup k = entries.lookup k := by
  by_cases hk : k = key
  · subst hk
    simp [promote, h]
  · rw [promote, List.lookup_cons, beq_false_of_ne hk, lookup_filter_ne_key _ hk]

theorem mem_keys_of_lookup {entries : List (κ × ν)} {key : κ} {value : ν}
    (h : entries.lookup key = some value) : key ∈ entries.map Prod.fst :=
  lookup_isSome_iff_mem_keys.mp (by rw [h]; rfl)

theorem not_mem_keys_of_lookup {entries : List (κ × ν)} {key : κ}
    (h : entries.lookup key = none) : key ∉ entries.map Prod.fst :=
  fun hmem => by simpa [h] using lookup_isSome_iff_mem_keys.mpr hmem

omit [DecidableEq κ] in
/-- Dropping the last entry keeps every key but the last one. -/
theorem mem_keys_dropLast {entries : List (κ × ν)} {k : κ} (hk : k ∈ entries.map Prod.fst) :
    k ∈ entries.dropLast.map Prod.fst ∨ entries.getLast?.map Prod.fst = some k := by
  have hne : entries ≠ [] := by rintro rfl; simp at hk
  have hsplit := List.dropLast_concat_getLast hne
  rw [← hsplit, List.map_append, List.mem_append] at hk
  rw [List.getLast?_eq_getLast entries hne]
  simpa [eq_comm] using hk

end Lru

/-- Modelled from the spec: `util::Cache` (not under src/), the bounded LRU map behind
`compilation_cache_`: entries most recently used first, keys distinct, at most `capacity` of
them. -/
structure LruCache (κ ν : Type) where
  capacity : Nat
  entries : List (κ × ν)
  nodup : (entries.map Prod.fst).Nodup
  bounded : entries.length ≤ capacity

namespace LruCache

variable {κ ν : Type} [DecidableEq κ]

/-- The cache as a map. -/
def find? (cache : LruCache κ ν) (key : κ) : Option ν :=
  cache.entries.lookup key

/-- `Cache::Get`: the value under `key`, whose entry becomes the most recently used. -/
def get (cache : LruCache κ ν) (key : κ) : Option ν × LruCache κ ν :=
  match h : cache.entries.lookup key with
  | some value => (some value, ⟨cache.capacity, promote cache.entries key value,
      promote_nodup cache.nodup key value, by
        have := length_filter_ne_key cache.nodup (mem_keys_of_lookup h)
        have := cache.bounded
        simp only [promote, List.length_cons]
        omega⟩)
  | none => (none, cache)

/-- `Cache::Add`: a key already present keeps its value and becomes the most recently used; a
new key goes in front, and when that passes the capacity the least recently used entry is
evicted. Returns the evicted key. -/
def add (cache : LruCache κ ν) (key : κ) (value : ν) : LruCache κ ν × Option κ :=
  match h : cache.entries.lookup key with
  | some old => (⟨cache.capacity, promote cache.entries key old,
      promote_nodup cache.nodup key old, by
        have := length_filter_ne_key cache.nodup (mem_keys_of_lookup h)
        have := cache.bounded
        simp only [promote, List.length_cons]
        omega⟩, none)
  | none =>
      have hnodup : (((key, value) :: cache.entries).map Prod.fst).Nodup :=
        List.nodup_cons.mpr ⟨not_mem_keys_of_lookup h, cache.nodup⟩
      if hroom : cache.entries.length < cache.capacity then
        (⟨cache.capacity, (key, value) :: cache.entries, hnodup, by simp; omega⟩, none)
      else
        (⟨cache.capacity, ((key, value) :: cache.entries).dropLast,
          hnodup.sublist ((List.dropLast_sublist _).map _), by
            have := cache.bounded
            simp only [List.length_dropLast_cons]
            omega⟩,
          (((key, value) :: cache.entries).getLast?).map Prod.fst)

theorem find?_mk (capacity : Nat) (entries : List (κ × ν)) nodup bounded (k : κ) :
    find? ⟨capacity, entries, nodup, bounded⟩ k = entries.lookup k := rfl

@[simp] theorem get_fst (cache : LruCache κ ν) (key : κ) :
    (cache.get key).1 = cache.find? key := by
  unfold get find?
  split <;> next h => exact h.symm

/-- `Get` only reorders the entries: the cache maps every key as before. -/
@[simp] theorem find?_get (cache : LruCache κ ν) (key k : κ) :
    (cache.get key).2.find? k = cache.find? k := by
  unfold get
  split
  · next value h => exact lookup_promote h k
  · rfl

@[simp] theorem capacity_get (cache : LruCache κ ν) (key : κ) :
    (cache.get key).2.capacity = cache.capacity := by
  unfold get
  split <;> rfl

theorem get_of_find?_eq_none {cache : LruCache κ ν} {key : κ} (h : cache.find? key = none) :
    cache.get key = (none, cache) := by
  unfold get
  split <;> simp_all [find?]

@[simp] theorem capacity_add (cache : LruCache κ ν) (key : κ) (value : ν) :
    (cache.add key value).1.capacity = cache.capacity := by
  unfold add
  split
  · rfl
  · split <;> rfl

/-- A key of the cache, or the key added, is in the cache after an `Add` unless the `Add`
evicted it. -/
theorem find?_add_isSome (cache : LruCache κ ν) (key : κ) (value : ν) {k : κ}
    (hk : (cache.find? k).isSome ∨ key = k) :
    ((cache.add key value).1.find? k).isSome ∨ (cache.add key value).2 = some k := by
  have hmem : k ∈ ((key, value) :: cache.entries).map Prod.fst := by
    rcases hk with hk | rfl
    · exact List.mem_cons_of_mem _ (lookup_isSome_iff_mem_keys.mp hk)
    · exact List.mem_cons_self _ _
  unfold add
  split
  · next old h =>
      have hkeys : k ∈ cache.entries.map Prod.fst := by
        rcases List.mem_cons.mp hmem with rfl | hrest
        · exact mem_keys_of_lookup h
        · exact hrest
      left
      rw [find?_mk, lookup_promote h, lookup_isSome_iff_mem_keys]
      exact hkeys
  · split
    · exact .inl (lookup_isSome_iff_mem_keys.mpr hmem)
    · simpa only [find?_mk, lookup_isSome_iff_mem_keys] using mem_keys_dropLast hmem

/-- A new key stays after its `Add` when the capacity is not zero. -/
theorem find?_add_self {cache : LruCache κ ν} {key : κ} (value : ν)
    (hnew : cache.find? key = none) (hcapacity : 1 ≤ cache.capacity) :
    (cache.add key value).1.find? key = some value := by
  unfold add
  split
  · next old h => simp_all [find?]
  · split
    · simp [find?_mk]
    · have hlength : 1 ≤ cache.entries.length := by omega
      obtain ⟨e, rest, hentries⟩ := List.exists_cons_of_length_pos hlength
      simp [find?_mk, hentries]

/-- `Add` of each entry in turn, with the keys evicted on the way. -/
def addAll (cache : LruCache κ ν) : List (κ × ν) → LruCache κ ν × List κ
  | [] => (cache, [])
  | (key, value) :: rest =>
      (((cache.add key value).1.addAll rest).1,
        (cache.add key value).2.toList ++ ((cache.add key value).1.addAll rest).2)

/-- After the `Add`s, a key that was in the cache or was added is in the cache or was
evicted. -/
theorem addAll_isSome (cache : LruCache κ ν) (entries : List (κ × ν)) {k : κ}
    (hk : (cache.find? k).isSome ∨ k ∈ entries.map Prod.fst) :
    ((cache.addAll entries).1.find? k).isSome ∨ k ∈ (cache.addAll entries).2 := by
  induction entries generalizing cache with
  | nil => exact .inl (by simpa using hk)
  | cons entry rest ih =>
      obtain ⟨key, value⟩ := entry
      simp only [addAll, List.mem_append, Option.mem_toList, Option.mem_def]
      by_cases hrest : k ∈ rest.map Prod.fst
      · exact (ih _ (.inr hrest)).imp_right .inr
      · have hfirst : (cache.find? k).isSome ∨ key = k := by
          simp only [List.map_cons, List.mem_cons, hrest, or_false] at hk
          exact hk.imp_right Eq.symm
        rcases find?_add_isSome cache key value hfirst with h | h
        · exact (ih _ (.inl h)).imp_right .inr
        · exact .inr (.inl h)

end LruCache

/-! ## The computations `Compile` builds -/

/-- `CompileInstance`: a computation and the shape its result is compiled to, if not its own. -/
structure CompileInstance where
  computation : XlaComputation
  outputShape : Option Shape
  deriving DecidableEq, Repr

/-- The `xrt::XLAComputation` message that `CreateXrtComputation` fills in: the coordinates of
the replica devices and their number when there is more than one device, the program shape, and
the HLO snapshot (`num_cores_per_replica` is always 1 and left out). The message stands for its
serialization, which the cache key holds. -/
structure XrtComputationProto where
  replicaDevices : Option (List (List Int))
  numReplicas : Nat
  programShape : ProgramShape
  hloSnapshot : Nat
  deriving DecidableEq, Repr

/-- `CompilationCacheKey`: the resource domain and the serialized computation. -/
structure CompilationCacheKey where
  domain : String
  serializedComputation : XrtComputationProto
  deriving DecidableEq, Repr

/-- The `XrtComputation` that `Compile` makes of a compile output: the computation, its program
shape, the devices it runs on, the server handle, and the device it was compiled for. Each one
is a fresh allocation, and the server hands out a fresh handle for each, so the handle tells the
pointers apart. -/
structure CompiledComputation where
  computation : XlaComputation
  programShape : ProgramShape
  devices : List DeviceId
  handle : Int
  compilationDevice : DeviceId
  deriving DecidableEq, Repr

/-- The view of a compiled computation that the execute paths read. -/
def CompiledComputation.toXrtComputation (computation : CompiledComputation) : XrtComputation :=
  ⟨computation.handle, computation.programShape.result⟩

/-- `GetDeviceMeshCoords`. -/
def getDeviceMeshCoords (deviceMeshCoords : List (ParsedName × List Int)) (xrtDevice : ParsedName) :
    Except Fault (List Int) :=
  match deviceMeshCoords.lookup xrtDevice with
  | some coords => .ok coords
  | none => .error (.checkFailed ("Missing mesh coordinates for device: " ++ xrtDevice.render))

/-- One `replica_devices` entry of `CreateXrtComputation`: the mesh coordinates of a TPU core,
`0, 0, 0, ordinal` for a GPU. -/
def replicaDevice (opts : Options) (deviceMeshCoords : List (ParsedName × List Int))
    (device : DeviceId) : Except Fault (List Int) :=
  if device.kind = "TPU" then do
    getDeviceMeshCoords deviceMeshCoords (← opts.swiftDeviceToXrtDevice device)
  else if device.kind = "GPU" then .ok [0, 0, 0, device.ordinal]
  else .error (.checkFailed ("Unsupported replication device type: " ++ device.kind))

/-- `CreateXrtComputation`: an output shape replaces the result of the program shape. -/
def createXrtComputation (opts : Options) (deviceMeshCoords : List (ParsedName × List Int))
    (computation : XlaComputation) (devices : List DeviceId) (outputShape : Option Shape) :
    Except Fault XrtComputationProto := do
  let replicaDevices ← if 1 < devices.length then
      some <$> devices.mapM (replicaDevice opts deviceMeshCoords) else pure none
  pure ⟨replicaDevices, if 1 < devices.length then devices.length else 0,
    ⟨computation.programShape.parameters, outputShape.getD computation.programShape.result⟩,
    computation.hlo⟩

/-- A compile for one device is not replicated, whichever the device. -/
theorem createXrtComputation_singleton (opts : Options) (deviceMeshCoords : List (ParsedName × List Int))
    (computation : XlaComputation) (device : DeviceId) (outputShape : Option Shape) :
    createXrtComputation opts deviceMeshCoords computation [device] outputShape =
      .ok ⟨none, 0, ⟨computation.programShape.parameters,
        outputShape.getD computation.programShape.result⟩, computation.hlo⟩ :=
  rfl

/-- `GetResourceDomain`: the RPC target of the device's worker. -/
def getResourceDomain (opts : Options) (device : DeviceId) : Except Fault String :=
  (opts.getWorkerForDevice device).map Prod.snd

/-! ## Compile -/

/-- A compile `session->Run`: the session's target and the computations it compiles, in batch
order, and whether it succeeded. -/
structure CompileRun where
  target : String
  computations : List XrtComputationProto
  succeeded : Bool
  deriving DecidableEq, Repr

/-- Modelled from the spec: the `XRTCompile` ops of one `session->Run` (not under src/) either all
return a handle or the run fails. Whether a run fails is the server's: it may depend on the batch
and on every run before it. -/
structure CompileServer where
  succeeds : List CompileRun → List XrtComputationProto → Bool

/-- What outlives a call: the compilation cache, the server's next fresh handle, and, beside
them, the compile runs issued and the keys the cache evicted. -/
structure CompileState where
  compilationCache : LruCache CompilationCacheKey CompiledComputation
  nextHandle : Int
  runs : List CompileRun
  evicted : List CompilationCacheKey

/-- A miss of the builder of instance `index`, as it joins its session's batch: the instance, and
what the builder wrote to `cache_keys[index]` and `program_shapes[index]`, which only that
builder writes. -/
structure CompileMiss where
  index : Nat
  compileInstance : CompileInstance
  cacheKey : CompilationCacheKey
  programShape : ProgramShape

/-- The call's `session_work_map`: the misses of each session, keyed by its target, in the order
the builders took the lock. -/
abbrev SessionWorkMap := List (String × List CompileMiss)

/-- Run `m` with a variable of the call beside the state, starting at `init`, and return its last
value with the result. -/
def SessionM.withLocal {σ τ α : Type} (init : τ) (m : SessionM (σ × τ) α) : SessionM σ (α × τ) :=
  ExceptT.mk fun s => match m.run.run (s, init) with
    | (.ok a, s', value) => (.ok (a, value), s')
    | (.error e, s', _) => (.error e, s')

theorem SessionM.run_withLocal {σ τ α : Type} (init : τ) (m : SessionM (σ × τ) α) (s : σ) :
    (SessionM.withLocal init m).run.run s = match m.run.run (s, init) with
      | (.ok a, s', value) => (.ok (a, value), s')
      | (.error e, s', _) => (.error e, s') := rfl

/-- `compilation_cache_.Get`. -/
def cacheGet (key : CompilationCacheKey) :
    SessionM (CompileState × SessionWorkMap) (Option CompiledComputation) :=
  modifyGet fun (s, work) => ((s.compilationCache.get key).1,
    ({ s with compilationCache := (s.compilationCache.get key).2 }, work))

theorem run_cacheGet (key : CompilationCacheKey) (s : CompileState) (work : SessionWorkMap) :
    (cacheGet key).run.run (s, work) = (.ok (s.compilationCache.find? key),
      ({ s with compilationCache := (s.compilationCache.get key).2 }, work)) := by
  rw [← LruCache.get_fst]
  rfl

/-- `compilation_cache_.Add`, logging the key it evicts. -/
def cacheAdd (key : CompilationCacheKey) (computationPtr : CompiledComputation) :
    SessionM CompileState Unit :=
  modify fun s => { s with
    compilationCache := (s.compilationCache.add key computationPtr).1
    evicted := s.evicted ++ (s.compilationCache.add key computationPtr).2.toList }

/-- The builder closure of instance `entry.2` at index `entry.1`: it looks the instance's key up
and on a hit writes `results[i]`; on a miss it joins the batch of the device's session. -/
def compileBuilder (opts : Options) (deviceMeshCoords : List (ParsedName × List Int))
    (device : DeviceId) (devices : List DeviceId) (entry : Nat × CompileInstance) :
    SessionM (CompileState × SessionWorkMap) (List (Nat × Option CompiledComputation)) := do
  let xrtComputation ← SessionM.ofExcept (createXrtComputation opts deviceMeshCoords
    entry.2.computation devices entry.2.outputShape)
  let cacheKey : CompilationCacheKey :=
    ⟨← SessionM.ofExcept (getResourceDomain opts device), xrtComputation⟩
  match ← cacheGet cacheKey with
  | some computationPtr => pure [(entry.1, some computationPtr)]
  | none =>
      let xrtDevice ← SessionM.ofExcept (opts.swiftDeviceToXrtDevice device)
      let worker ← SessionM.ofExcept (opts.getWorkerForXrtDevice xrtDevice)
      modify fun (s, work) => (s, addToGroup worker.2
        ⟨entry.1, entry.2, cacheKey, xrtComputation.programShape⟩ work)
      pure []

/-- Modelled from the spec: the compile `session->Run` of a batch, which returns one fresh handle
per computation when it succeeds. -/
def sessionRunCompile (server : CompileServer) (target : String)
    (computations : List XrtComputationProto) : SessionM CompileState (Bool × List Int) :=
  modifyGet fun s =>
    let succeeded := server.succeeds s.runs computations
    ((succeeded, if succeeded then (List.range computations.length).map fun (k : Nat) => s.nextHandle + (k : Int) else []),
      { s with
        runs := s.runs ++ [⟨target, computations, succeeded⟩]
        nextHandle := if succeeded then s.nextHandle + computations.length else s.nextHandle })

/-- `CheckCompileStatus`: a failed run reports the computation and output shape of every
instance of its batch, in batch order. -/
def checkCompileStatus (succeeded : Bool) (work : List CompileMiss) : Except Fault Unit :=
  if succeeded then .ok ()
  else .error (.compileFailed (work.map fun miss =>
    (miss.compileInstance.computation, miss.compileInstance.outputShape)))

/-- `std::make_shared<XrtComputation>` of the runner: the instance's computation, the program
shape its builder wrote, the devices, the output handle and the compilation device. -/
def CompileMiss.toComputation (miss : CompileMiss) (devices : List DeviceId) (handle : Int)
    (device : DeviceId) : CompiledComputation :=
  ⟨miss.compileInstance.computation, miss.programShape, devices, handle, device⟩

/-- One pass of the runner's loop over `index_mapping` and the outputs: `results[li]` is the
new computation, which is added to the cache under the miss's key. -/
def storeCompiled (devices : List DeviceId) (device : DeviceId) (output : CompileMiss × Int) :
    SessionM CompileState (Nat × Option CompiledComputation) := do
  let computationPtr := output.1.toComputation devices output.2 device
  cacheAdd output.1.cacheKey computationPtr
  pure (output.1.index, some computationPtr)

/-- The session runner of one batch: compile it, then store each output at the position of its
instance. -/
def compileRunner (server : CompileServer) (device : DeviceId) (devices : List DeviceId)
    (entry : String × List CompileMiss) :
    SessionM CompileState (List (Nat × Option CompiledComputation)) := do
  let (succeeded, outputs) ← sessionRunCompile server entry.1
    (entry.2.map fun miss => miss.cacheKey.serializedComputation)
  SessionM.ofExcept (checkCompileStatus succeeded entry.2)
  SessionM.ofExcept (xlaCheck (outputs.length = entry.2.length)
    "outputs.size() == session_work.outputs_handles.size()")
  (entry.2.zip outputs).mapM (storeCompiled devices device)

/-- `XrtComputationClient::Compile`: the builders run in `builderOrder` under one `MultiWait`,
then the session runners under another. -/
def compile (opts : Options) (deviceMeshCoords : List (ParsedName × List Int))
    (server : CompileServer)
    (builderOrder : List (Nat × CompileInstance) → List (Nat × CompileInstance))
    (device : DeviceId) (devices : List DeviceId) (instances : List CompileInstance) :
    SessionM CompileState (List (Option CompiledComputation)) := do
  let (results, sessionWorkMap) ← SessionM.withLocal [] (multiWait
    ((builderOrder instances.enum).map (compileBuilder opts deviceMeshCoords device devices))
    (List.replicate instances.length none))
  multiWait (sessionWorkMap.map (compileRunner server device devices)) results

/-! ## The pieces of a call, run -/

section Pieces

variable (server : CompileServer) (device : DeviceId) (devices : List DeviceId)
  (opts : Options) (deviceMeshCoords : List (ParsedName × List Int))

theorem run_storeCompiled (output : CompileMiss × Int) (s : CompileState) :
    (storeCompiled devices device output).run.run s =
      (.ok (output.1.index, some (output.1.toComputation devices output.2 device)), { s with
        compilationCache :=
          (s.compilationCache.add output.1.cacheKey (output.1.toComputation devices output.2 device)).1
        evicted := s.evicted ++ (s.compilationCache.add output.1.cacheKey
          (output.1.toComputation devices output.2 device)).2.toList }) := rfl

theorem foldl_storeCompiled (outputs : List (CompileMiss × Int)) (s : CompileState) :
    outputs.foldl (fun s output => { s with
        compilationCache :=
          (s.compilationCache.add output.1.cacheKey (output.1.toComputation devices output.2 device)).1
        evicted := s.evicted ++ (s.compilationCache.add output.1.cacheKey
          (output.1.toComputation devices output.2 device)).2.toList }) s =
      let added := s.compilationCache.addAll
        (outputs.map fun output => (output.1.cacheKey, output.1.toComputation devices output.2 device))
      { s with compilationCache := added.1, evicted := s.evicted ++ added.2 } := by
  induction outputs generalizing s with
  | nil => simp [LruCache.addAll]
  | cons output rest ih =>
      rw [List.foldl_cons, ih]
      simp [LruCache.addAll]

theorem run_sessionRunCompile (target : String) (computations : List XrtComputationProto)
    (s : CompileState) :
    (sessionRunCompile server target computations).run.run s =
      let succeeded := server.succeeds s.runs computations
      (.ok (succeeded,
          if succeeded then (List.range computations.length).map fun (k : Nat) => s.nextHandle + (k : Int) else []),
        { s with
          runs := s.runs ++ [⟨target, computations, succeeded⟩]
          nextHandle := if succeeded then s.nextHandle + computations.length else s.nextHandle }) :=
  rfl

theorem compileRunner_run (target : String) (misses : List CompileMiss) (s : CompileState) :
    (compileRunner server device devices (target, misses)).run.run s =
      let computations := misses.map fun miss => miss.cacheKey.serializedComputation
      let succeeded := server.succeeds s.runs computations
      let logged : CompileState :=
        { s with runs := s.runs ++ [⟨target, computations, succeeded⟩] }
      let outputs := misses.enum.map fun entry => (entry.2, s.nextHandle + entry.1)
      let added := s.compilationCache.addAll
        (outputs.map fun output => (output.1.cacheKey, output.1.toComputation devices output.2 device))
      if succeeded then
        (.ok (outputs.map fun output =>
            (output.1.index, some (output.1.toComputation devices output.2 device))),
          { logged with
            compilationCache := added.1
            nextHandle := s.nextHandle + misses.length
            evicted := s.evicted ++ added.2 })
      else
        (.error (.compileFailed (misses.map fun miss =>
          (miss.compileInstance.computation, miss.compileInstance.outputShape))), logged) := by
  rw [compileRunner, SessionM.run_bind]
  dsimp only
  rw [run_sessionRunCompile]
  dsimp only
  cases hsucceeds : server.succeeds s.runs (misses.map fun miss => miss.cacheKey.serializedComputation)
  · rfl
  · have houtputs : misses.zip ((List.range misses.length).map fun (k : Nat) =>
        s.nextHandle + (k : Int)) = misses.enum.map fun entry => (entry.2, s.nextHandle + entry.1) :=
      zip_range_map _ misses
    simp only [if_true, checkCompileStatus, xlaCheck, List.length_map, List.length_range, if_pos,
      houtputs, SessionM.run_bind, SessionM.run_ofExcept]
    rw [SessionM.run_mapM _ _ (fun output _ s => run_storeCompiled device devices output s),
      foldl_storeCompiled]

theorem compileBuilder_run {domain : String} {proto : XrtComputationProto}
    {entry : Nat × CompileInstance} (hdomain : getResourceDomain opts device = .ok domain)
    (hproto : createXrtComputation opts deviceMeshCoords entry.2.computation devices
      entry.2.outputShape = .ok proto) (s : CompileState) (work : SessionWorkMap) :
    (compileBuilder opts deviceMeshCoords device devices entry).run.run (s, work) =
      match s.compilationCache.find? ⟨domain, proto⟩ with
      | some computationPtr => (.ok [(entry.1, some computationPtr)],
          ({ s with compilationCache := (s.compilationCache.get ⟨domain, proto⟩).2 }, work))
      | none => (.ok [], (s, addToGroup domain
          ⟨entry.1, entry.2, ⟨domain, proto⟩, proto.programShape⟩ work)) := by
  obtain ⟨xrtDevice, hswift, worker, hworker, rfl⟩ := Options.sessionTarget_eq_ok hdomain
  simp only [compileBuilder, SessionM.run_bind, SessionM.run_ofExcept, hproto, hdomain, run_cacheGet]
  cases hfind : s.compilationCache.find? ⟨worker.2, proto⟩ with
  | some computationPtr => rfl
  | none =>
      simp only [SessionM.run_bind, SessionM.run_ofExcept, hswift, hworker, LruCache.get_of_find?_eq_none hfind]
      rfl

end Pieces

/-! ## A call whose computations resolve -/

/-- The builders that miss the cache, in the order they run: the batch their misses form, in the
order they take the lock. -/
def missedBatch (cache : LruCache CompilationCacheKey CompiledComputation) (domain : String)
    (proto : CompileInstance → XrtComputationProto) (entries : List (Nat × CompileInstance)) :
    List (Nat × CompileInstance) :=
  entries.filter fun entry => (cache.find? ⟨domain, proto entry.2⟩).isNone

theorem foldl_builders (domain : String) (proto : CompileInstance → XrtComputationProto)
    (cache₀ : LruCache CompilationCacheKey CompiledComputation) :
    ∀ (items : List (Nat × CompileInstance)) (s : CompileState) (work : SessionWorkMap),
    (∀ k, s.compilationCache.find? k = cache₀.find? k) →
    ∃ cache₁ : LruCache CompilationCacheKey CompiledComputation,
      (∀ k, cache₁.find? k = cache₀.find? k) ∧
      cache₁.capacity = s.compilationCache.capacity ∧
      items.foldl (fun x e => match cache₀.find? ⟨domain, proto e.2⟩ with
        | some _ => ({ x.1 with compilationCache :=
            (x.1.compilationCache.get ⟨domain, proto e.2⟩).2 }, x.2)
        | none => (x.1, addToGroup domain
            ⟨e.1, e.2, ⟨domain, proto e.2⟩, (proto e.2).programShape⟩ x.2)) (s, work) =
        ({ s with compilationCache := cache₁ },
          (items.filter fun e => (cache₀.find? ⟨domain, proto e.2⟩).isNone).foldl
            (fun w e => addToGroup domain ⟨e.1, e.2, ⟨domain, proto e.2⟩, (proto e.2).programShape⟩ w)
            work)
  | [], s, _, hs => ⟨s.compilationCache, hs, rfl, rfl⟩
  | e :: rest, s, work, hs => by
      cases hfind : cache₀.find? ⟨domain, proto e.2⟩ with
      | some p =>
          obtain ⟨cache₁, hcache₁, hcapacity, hfold⟩ :=
            foldl_builders domain proto cache₀ rest { s with compilationCache :=
              (s.compilationCache.get ⟨domain, proto e.2⟩).2 } work
              (fun k => by rw [← hs k]; exact LruCache.find?_get _ _ _)
          refine ⟨cache₁, hcache₁, by rw [hcapacity]; exact LruCache.capacity_get _ _, ?_⟩
          simp only [List.foldl_cons, hfind, List.filter_cons, Option.isNone_some]
          exact hfold
      | none =>
          obtain ⟨cache₁, hcache₁, hcapacity, hfold⟩ := foldl_builders domain proto cache₀ rest s
            (addToGroup domain ⟨e.1, e.2, ⟨domain, proto e.2⟩, (proto e.2).programShape⟩ work) hs
          refine ⟨cache₁, hcache₁, hcapacity, ?_⟩
          simp only [List.foldl_cons, hfind, List.filter_cons, Option.isNone_none]
          exact hfold

/-- The hits of builders over all the instances, scattered over a result per instance, give
every instance its cache lookup. -/
theorem scatter_cacheHits (cache : LruCache CompilationCacheKey CompiledComputation)
    (domain : String) (proto : CompileInstance → XrtComputationProto) {instances : List CompileInstance}
    {items : List (Nat × CompileInstance)} (hitems : items.Perm instances.enum) :
    scatter (List.replicate instances.length none) (items.flatMap fun e =>
        match cache.find? ⟨domain, proto e.2⟩ with
        | some p => [(e.1, some p)]
        | none => []) = instances.map fun entry => cache.find? ⟨domain, proto entry⟩ := by
  have hmem : ∀ e ∈ items, instances[e.1]? = some e.2 := fun e he =>
    List.mem_enum_iff_getElem?.mp (hitems.subset he)
  have hitemsFst : (items.map Prod.fst).Nodup :=
    (hitems.map Prod.fst).nodup_iff.mpr (by simpa using List.nodup_range instances.length)
  refine scatter_eq_of_agree _ _ _ (by simp) ((flatMap_map_fst_sublist fun e _ => ?_).nodup hitemsFst) ?_ ?_
  · split <;> simp
  · intro w hw
    obtain ⟨e, he, hwe⟩ := List.mem_flatMap.mp hw
    split at hwe
    · next p hp =>
        rw [List.mem_singleton.mp hwe]
        simp [hmem e he, hp]
    · cases hwe
  · intro j hj
    rw [List.getElem?_replicate, List.getElem?_map]
    cases hinst : instances[j]? with
    | none => simp [List.getElem?_eq_none_iff.mp hinst]
    | some entry =>
        have hentry : (j, entry) ∈ items :=
          hitems.symm.subset (List.mem_enum_iff_getElem?.mpr hinst)
        cases hfind : cache.find? ⟨domain, proto entry⟩ with
        | none => simp [(List.getElem?_eq_some_iff.mp hinst).1, hfind]
        | some p =>
            refine absurd (List.mem_map.mpr ⟨(j, some p), List.mem_flatMap.mpr
              ⟨(j, entry), hentry, ?_⟩, rfl⟩) hj
            simp [hfind]

section Resolved

variable (server : CompileServer) (device : DeviceId) (devices : List DeviceId)
  (opts : Options) (deviceMeshCoords : List (ParsedName × List Int))
  (instances : List CompileInstance) {domain : String}
  {proto : CompileInstance → XrtComputationProto}
  (hdomain : getResourceDomain opts device = .ok domain)
  (hproto : ∀ entry ∈ instances, createXrtComputation opts deviceMeshCoords entry.computation
    devices entry.outputShape = .ok (proto entry))

include hdomain hproto in
theorem builders_run (items : List (Nat × CompileInstance)) (hitems : items.Perm instances.enum)
    (s : CompileState) :
    ∃ cache₁ : LruCache CompilationCacheKey CompiledComputation,
      (∀ k, cache₁.find? k = s.compilationCache.find? k) ∧
      cache₁.capacity = s.compilationCache.capacity ∧
      (SessionM.withLocal [] (multiWait (items.map (compileBuilder opts deviceMeshCoords device devices))
          (List.replicate instances.length none))).run.run s =
        (.ok (instances.map fun entry => s.compilationCache.find? ⟨domain, proto entry⟩,
            if missedBatch s.compilationCache domain proto items = [] then [] else
              [(domain, (missedBatch s.compilationCache domain proto items).map fun e =>
                ⟨e.1, e.2, ⟨domain, proto e.2⟩, (proto e.2).programShape⟩)]),
          { s with compilationCache := cache₁ }) := by
  have hrun := @multiWait_eq _ _ _ (compileBuilder opts deviceMeshCoords device devices)
    (fun e => match s.compilationCache.find? ⟨domain, proto e.2⟩ with
      | some p => [(e.1, some p)]
      | none => [])
    (fun e x => match s.compilationCache.find? ⟨domain, proto e.2⟩ with
      | some _ => ({ x.1 with compilationCache :=
          (x.1.compilationCache.get ⟨domain, proto e.2⟩).2 }, x.2)
      | none => (x.1, addToGroup domain
          ⟨e.1, e.2, ⟨domain, proto e.2⟩, (proto e.2).programShape⟩ x.2))
    (fun x => ∀ k, x.1.compilationCache.find? k = s.compilationCache.find? k)
    items ?_ (List.replicate instances.length none) (s, []) (fun _ => rfl)
  · obtain ⟨cache₁, hcache₁, hcapacity, hfold⟩ :=
      foldl_builders domain proto s.compilationCache items s [] (fun _ => rfl)
    refine ⟨cache₁, hcache₁, hcapacity, ?_⟩
    simp only at hrun hfold
    rw [SessionM.run_withLocal, hrun, hfold, foldl_addToGroup_nil,
      scatter_cacheHits s.compilationCache domain proto hitems]
    rfl
  · intro e he x hx
    obtain ⟨s', work⟩ := x
    have hp := hproto e.2 (List.getElem?_mem (List.mem_enum_iff_getElem?.mp (hitems.subset he)))
    rw [compileBuilder_run _ _ _ _ hdomain hp s' work, hx]
    dsimp only
    cases s.compilationCache.find? ⟨domain, proto e.2⟩ with
    | some p => exact ⟨rfl, fun k => by simp [hx k]⟩
    | none => exact ⟨rfl, hx⟩

include hdomain hproto in
theorem compile_run (builderOrder : List (Nat × CompileInstance) → List (Nat × CompileInstance))
    (horder : ∀ l, (builderOrder l).Perm l) (s : CompileState) :
    ∃ cache₁ : LruCache CompilationCacheKey CompiledComputation,
      (∀ k, cache₁.find? k = s.compilationCache.find? k) ∧
      cache₁.capacity = s.compilationCache.capacity ∧
      (compile opts deviceMeshCoords server builderOrder device devices instances).run.run s =
        if missedBatch s.compilationCache domain proto (builderOrder instances.enum) = [] then
          (.ok (instances.map fun entry => s.compilationCache.find? ⟨domain, proto entry⟩),
            { s with compilationCache := cache₁ })
        else match (compileRunner server device devices (domain,
            (missedBatch s.compilationCache domain proto (builderOrder instances.enum)).map fun e =>
              (⟨e.1, e.2, ⟨domain, proto e.2⟩, (proto e.2).programShape⟩ : CompileMiss))).run.run
            { s with compilationCache := cache₁ } with
          | (.ok writes, s') =>
            (.ok (scatter (instances.map fun entry => s.compilationCache.find? ⟨domain, proto entry⟩)
              writes), s')
          | (.error e, s') => (.error e, s') := by
  obtain ⟨cache₁, hcache₁, hcapacity, hbuild⟩ :=
    builders_run device devices opts deviceMeshCoords instances hdomain hproto
      (builderOrder instances.enum) (horder _) s
  refine ⟨cache₁, hcache₁, hcapacity, ?_⟩
  rw [compile, SessionM.run_bind, hbuild]
  dsimp only
  split
  · rfl
  · rw [List.map_singleton, multiWait_singleton]
    split <;> next h => simp only [h]

include hdomain hproto in
/-- `Compile` over any cache, in any order of its builders. An instance whose key the cache holds
gets the cached computation and is in no batch. The misses form one batch on the domain's
session, in the order the builders run; when its compile run succeeds, the miss at position `k`
gets the computation around handle `nextHandle + k` with its own program shape, added to the
cache under its key, and when it fails the fault names the batch's computations and output shapes
in batch order. -/
theorem compile_results_of_lookup (builderOrder : List (Nat × CompileInstance) → List (Nat × CompileInstance))
    (horder : ∀ l, (builderOrder l).Perm l) (s : CompileState) :
    let key := fun entry : CompileInstance => (⟨domain, proto entry⟩ : CompilationCacheKey)
    let batch := missedBatch s.compilationCache domain proto (builderOrder instances.enum)
    let computations := batch.map fun e => proto e.2
    let succeeded := server.succeeds s.runs computations
    let outcome := (compile opts deviceMeshCoords server builderOrder device devices instances).run.run s
    outcome.2.runs = s.runs ++ (if batch = [] then [] else [⟨domain, computations, succeeded⟩]) ∧
    (batch ≠ [] → succeeded = false →
      outcome.1 = .error (.compileFailed (batch.map fun e => (e.2.computation, e.2.outputShape)))) ∧
    (batch = [] ∨ succeeded = true →
      ∃ results : List (Option CompiledComputation), outcome.1 = .ok results ∧
        results.length = instances.length ∧
        (∀ (i : Nat) (entry : CompileInstance), instances[i]? = some entry →
          (∀ cached, s.compilationCache.find? (key entry) = some cached →
            results[i]? = some (some cached)) ∧
          (s.compilationCache.find? (key entry) = none → ∃ k : Nat, batch[k]? = some (i, entry) ∧
            results[i]? = some (some ⟨entry.computation, (proto entry).programShape, devices,
              s.nextHandle + k, device⟩))) ∧
        ∃ cache₁ : LruCache CompilationCacheKey CompiledComputation,
          (∀ k, cache₁.find? k = s.compilationCache.find? k) ∧
          outcome.2.compilationCache = (cache₁.addAll (batch.enum.map fun e =>
            (key e.2.2, ⟨e.2.2.computation, (proto e.2.2).programShape, devices,
              s.nextHandle + e.1, device⟩))).1) := by
  intro key batch computations succeeded outcome
  obtain ⟨cache₁, hcache₁, -, hrun⟩ :=
    compile_run server device devices opts deviceMeshCoords instances hdomain hproto builderOrder horder s
  have hitems : ∀ e ∈ builderOrder instances.enum, instances[e.1]? = some e.2 := fun e he =>
    List.mem_enum_iff_getElem?.mp ((horder _).subset he)
  have hmissed : ∀ i entry, instances[i]? = some entry →
      s.compilationCache.find? (key entry) = none → (i, entry) ∈ batch := fun i entry hentry hnone =>
    List.mem_filter.mpr ⟨(horder _).symm.subset (List.mem_enum_iff_getElem?.mpr hentry), by simp [hnone]⟩
  have hbatch_nodup : (batch.map Prod.fst).Nodup :=
    (((horder _).map Prod.fst).nodup_iff.mpr (by simpa using List.nodup_range instances.length)).sublist
      ((List.filter_sublist _).map _)
  change outcome = _ at hrun
  have hb : missedBatch s.compilationCache domain proto (builderOrder instances.enum) = batch := rfl
  rw [hb] at hrun
  by_cases hbatch : batch = []
  · rw [if_pos hbatch] at hrun
    rw [hrun]
    refine ⟨by simp [hbatch], fun h => absurd hbatch h, fun _ => ⟨_, rfl, by simp,
      fun i entry hentry => ⟨fun cached hcached => ?_, fun hnone => ?_⟩, cache₁, hcache₁,
      by simp [hbatch, LruCache.addAll]⟩⟩
    · simpa [hentry] using hcached
    · exact absurd (hmissed i entry hentry hnone) (by simp [hbatch])
  · rw [if_neg hbatch, compileRunner_run] at hrun
    simp only [List.enum_map, List.map_map, Function.comp_def, Prod.map, id, List.length_map] at hrun
    have hs : server.succeeds s.runs (batch.map fun e => proto e.2) = succeeded := rfl
    rw [hs] at hrun
    cases hsucceeded : succeeded <;> rw [hsucceeded] at hrun
    · simp only [Bool.false_eq_true, ↓reduceIte] at hrun
      rw [hrun]
      exact ⟨by simp [hbatch, computations], fun _ _ => rfl, fun h => by simp [hbatch] at h⟩
    · simp only [↓reduceIte] at hrun
      rw [hrun]
      have hwrites : (batch.enum.map fun x => (x.2.1, some ((⟨x.2.1, x.2.2, ⟨domain, proto x.2.2⟩,
          (proto x.2.2).programShape⟩ : CompileMiss).toComputation devices (s.nextHandle + x.1)
          device))).map Prod.fst = batch.map Prod.fst := by
        rw [List.map_map, show (Prod.fst ∘ fun x : Nat × Nat × CompileInstance => (x.2.1, some
          ((⟨x.2.1, x.2.2, ⟨domain, proto x.2.2⟩, (proto x.2.2).programShape⟩ : CompileMiss).toComputation
            devices (s.nextHandle + x.1) device))) = Prod.fst ∘ Prod.snd from rfl, ← List.map_map,
          List.enum_map_snd]
      refine ⟨by simp [hbatch, computations], fun _ h => absurd h (by decide), fun _ =>
        ⟨_, rfl, by simp, fun i entry hentry => ⟨fun cached hcached => ?_, fun hnone => ?_⟩,
          cache₁, hcache₁, rfl⟩⟩
      · have hi : i ∉ batch.map Prod.fst := by
          intro hmem
          obtain ⟨e, he, rfl⟩ := List.mem_map.mp hmem
          simp only [batch, missedBatch, List.mem_filter] at he
          rw [Option.some.inj ((hitems e he.1).symm.trans hentry)] at he
          simp [key, hcached] at he
        rw [scatter_getElem?_of_not_mem _ _ (hwrites ▸ hi)]
        simpa [hentry] using hcached
      · obtain ⟨k, hk⟩ := List.mem_iff_getElem?.mp (hmissed i entry hentry hnone)
        refine ⟨k, hk, scatter_getElem?_of_mem _ _ (hwrites ▸ hbatch_nodup)
          (List.mem_map.mpr ⟨(k, (i, entry)), List.mem_enum_iff_getElem?.mpr hk, rfl⟩) ?_⟩
        simpa using (List.getElem?_eq_some_iff.mp hentry).1

end Resolved

/-- An instance of one computation of vectors. -/
def vectorInstance : CompileInstance := ⟨⟨5, ⟨[], .array .F32 [2] [0]⟩⟩, none⟩

/-- Its key on the TPU worker of `sharedWorkerOptions`. -/
def vectorKey : CompilationCacheKey :=
  ⟨"grpc://localhost:8470", ⟨none, 0, ⟨[], .array .F32 [2] [0]⟩, 5⟩⟩

/-- A client with an empty cache of the given capacity. -/
def freshCompileState (capacity : Nat) : CompileState :=
  ⟨⟨capacity, [], List.nodup_nil, Nat.zero_le _⟩, 1, [], []⟩

/-- A server that accepts every batch. -/
def acceptingServer : CompileServer := ⟨fun _ _ => true⟩

theorem compile_results_of_lookup_twice :
    getResourceDomain sharedWorkerOptions ⟨"TPU", 0⟩ = .ok vectorKey.domain ∧
    (∀ entry ∈ [vectorInstance, vectorInstance], createXrtComputation sharedWorkerOptions []
      entry.computation [⟨"TPU", 0⟩] entry.outputShape = .ok vectorKey.serializedComputation) ∧
    let key := fun _ : CompileInstance => vectorKey
    let s := freshCompileState 64
    let batch := missedBatch s.compilationCache vectorKey.domain
      (fun _ => vectorKey.serializedComputation) [vectorInstance, vectorInstance].enum
    let computations := batch.map fun _ => vectorKey.serializedComputation
    let succeeded := acceptingServer.succeeds s.runs computations
    let outcome := (compile sharedWorkerOptions [] acceptingServer id ⟨"TPU", 0⟩ [⟨"TPU", 0⟩]
      [vectorInstance, vectorInstance]).run.run s
    outcome.2.runs = s.runs ++
      (if batch = [] then [] else [⟨vectorKey.domain, computations, succeeded⟩]) ∧
    (batch ≠ [] → succeeded = false →
      outcome.1 = .error (.compileFailed (batch.map fun e => (e.2.computation, e.2.outputShape)))) ∧
    (batch = [] ∨ succeeded = true →
      ∃ results : List (Option CompiledComputation), outcome.1 = .ok results ∧
        results.length = [vectorInstance, vectorInstance].length ∧
        (∀ (i : Nat) (entry : CompileInstance), [vectorInstance, vectorInstance][i]? = some entry →
          (∀ cached, s.compilationCache.find? (key entry) = some cached →
            results[i]? = some (some cached)) ∧
          (s.compilationCache.find? (key entry) = none → ∃ k : Nat, batch[k]? = some (i, entry) ∧
            results[i]? = some (some ⟨entry.computation, vectorKey.serializedComputation.programShape,
              [⟨"TPU", 0⟩], s.nextHandle + k, ⟨"TPU", 0⟩⟩))) ∧
        ∃ cache₁ : LruCache CompilationCacheKey CompiledComputation,
          (∀ k, cache₁.find? k = s.compilationCache.find? k) ∧
          outcome.2.compilationCache = (cache₁.addAll (batch.enum.map fun e =>
            (key e.2.2, ⟨e.2.2.computation, vectorKey.serializedComputation.programShape,
              [⟨"TPU", 0⟩], s.nextHandle + e.1, ⟨"TPU", 0⟩⟩))).1) :=
  have hproto : ∀ entry ∈ [vectorInstance, vectorInstance], createXrtComputation
      sharedWorkerOptions [] entry.computation [⟨"TPU", 0⟩] entry.outputShape =
        .ok vectorKey.serializedComputation := by decide
  ⟨rfl, hproto, compile_results_of_lookup acceptingServer ⟨"TPU", 0⟩ [⟨"TPU", 0⟩]
    sharedWorkerOptions [] [vectorInstance, vectorInstance] rfl hproto id
    (fun l => List.Perm.refl l) (freshCompileState 64)⟩

end XrtClient
