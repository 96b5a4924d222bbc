import XrtClient.Compile

/-! # Compile requests against the compilation cache

Over calls of `Compile` made one after another, a key goes to the server again only after the
cache evicted it or after a request carrying it failed. A successful request carrying a key puts
the key in the cache, since the key missed in that call; the key leaves the cache only by an
eviction, which the cache reports. So the successful requests carrying a key never outnumber its
evictions plus its presence in the cache (`Balanced`), an invariant that every call keeps,
whether it returns or throws.
-/

namespace XrtClient

/-- One for a key in the cache. -/
def LruCache.presence {κ ν : Type} [DecidableEq κ] (cache : LruCache κ ν) (key : κ) : Nat :=
  if (cache.find? key).isSome then 1 else 0

/-- `Add`s keep a key that was in the cache or was added, or report its eviction. -/
theorem LruCache.presence_addAll {κ ν : Type} [DecidableEq κ] (cache : LruCache κ ν)
    (entries : List (κ × ν)) (key : κ) :
    (if (cache.find? key).isSome ∨ key ∈ entries.map Prod.fst then 1 else 0) ≤
      (cache.addAll entries).2.count key + (cache.addAll entries).1.presence key := by
  unfold presence
  split_ifs with hk hafter
  · omega
  · have hcount := List.count_pos_iff.mpr ((addAll_isSome cache entries hk).resolve_left hafter)
    omega
  · omega
  · omega

/-- A compile run carries `key` when it ran on the session of the key's domain with the key's
computation in its batch. -/
def CompileRun.carries (run : CompileRun) (key : CompilationCacheKey) : Bool :=
  decide (run.target = key.domain ∧ key.serializedComputation ∈ run.computations)

/-- The compile requests among `runs` that carry `key`. -/
def compileRequests (key : CompilationCacheKey) (runs : List CompileRun) : Nat :=
  runs.countP (·.carries key)

/-- The failed compile requests among `runs` that carry `key`. -/
def failedRequests (key : CompilationCacheKey) (runs : List CompileRun) : Nat :=
  runs.countP fun run => run.carries key && !run.succeeded

/-- One call of `Compile`: its device, its replica devices, its instances, and the order its
builders run in. -/
structure CompileCall where
  device : DeviceId
  devices : List DeviceId
  instances : List CompileInstance
  builderOrder : List (Nat × CompileInstance) → List (Nat × CompileInstance)

/-- Calls of `Compile` one after another. A call that throws leaves the state it reached, and the
caller goes on with the next. -/
def runCompiles (opts : Options) (deviceMeshCoords : List (ParsedName × List Int))
    (server : CompileServer) (calls : List CompileCall) (s : CompileState) : CompileState :=
  calls.foldl (fun s call => ((compile opts deviceMeshCoords server call.builderOrder call.device
    call.devices call.instances).run.run s).2) s

/-- The successful requests carrying `key` are at most its evictions, plus one while it is in the
cache. -/
def Balanced (key : CompilationCacheKey) (s : CompileState) : Prop :=
  s.runs.countP (fun run => run.carries key && run.succeeded) ≤
    s.evicted.count key + s.compilationCache.presence key

/-- What the builders of a call started in `s₀` keep: the cache maps as in `s₀`, and the runs
and the evictions are those of `s₀`; the call's session work has at most one session, of a
domain the device resolves to, and each miss in it has a key of that domain that the cache of
`s₀` lacks. -/
structure BuildInv (opts : Options) (device : DeviceId) (s₀ : CompileState)
    (x : CompileState × SessionWorkMap) : Prop where
  find? : ∀ k, x.1.compilationCache.find? k = s₀.compilationCache.find? k
  runs : x.1.runs = s₀.runs
  evicted : x.1.evicted = s₀.evicted
  sessions : x.2.length ≤ 1
  domain : ∀ group ∈ x.2, getResourceDomain opts device = .ok group.1
  misses : ∀ group ∈ x.2, ∀ miss ∈ group.2,
    miss.cacheKey.domain = group.1 ∧ s₀.compilationCache.find? miss.cacheKey = none

theorem BuildInv.balanced {opts : Options} {device : DeviceId} {s₀ : CompileState}
    {x : CompileState × SessionWorkMap} (hx : BuildInv opts device s₀ x) {key : CompilationCacheKey}
    (hs₀ : Balanced key s₀) : Balanced key x.1 := by
  have hpresence : x.1.compilationCache.presence key = s₀.compilationCache.presence key := by
    simp only [LruCache.presence, hx.find?]
  rw [Balanced, hx.runs, hx.evicted, hpresence]
  exact hs₀

/-- A work map of at most one session, of `target`, gains `x` in that session. -/
theorem addToGroup_of_one {α : Type} {target : String} {x : α} :
    ∀ {groups : List (String × List α)}, groups.length ≤ 1 → (∀ g ∈ groups, g.1 = target) →
      addToGroup target x groups = [(target, groups.flatMap Prod.snd ++ [x])]
  | [], _, _ => rfl
  | [g], _, h => by
      obtain ⟨t, xs⟩ := g
      obtain rfl : t = target := h _ (List.mem_singleton_self _)
      simp [addToGroup]
  | _ :: _ :: _, hlength, _ => by simp at hlength

section Builders

variable (opts : Options) (deviceMeshCoords : List (ParsedName × List Int)) (device : DeviceId)
  (devices : List DeviceId) (s₀ : CompileState)

theorem compileBuilder_buildInv (entry : Nat × CompileInstance) (x : CompileState × SessionWorkMap)
    (hx : BuildInv opts device s₀ x) :
    BuildInv opts device s₀ ((compileBuilder opts deviceMeshCoords device devices entry).run.run x).2 := by
  obtain ⟨s, work⟩ := x
  simp only [compileBuilder, SessionM.run_bind, SessionM.run_ofExcept]
  cases hproto : createXrtComputation opts deviceMeshCoords entry.2.computation devices
    entry.2.outputShape with
  | error e => exact hx
  | ok proto =>
  cases hdomain : getResourceDomain opts device with
  | error e => exact hx
  | ok domain =>
  simp only [run_cacheGet]
  cases hfind : s.compilationCache.find? ⟨domain, proto⟩ with
  | some computationPtr =>
      exact ⟨fun k => by simp [hx.find? k], hx.runs, hx.evicted, hx.sessions, hx.domain, hx.misses⟩
  | none =>
  rw [LruCache.get_of_find?_eq_none hfind]
  simp only [SessionM.run_bind, SessionM.run_ofExcept]
  cases hswift : opts.swiftDeviceToXrtDevice device with
  | error e => exact hx
  | ok xrtDevice =>
  dsimp only
  cases hworker : opts.getWorkerForXrtDevice xrtDevice with
  | error e => exact hx
  | ok worker =>
  dsimp only
  have hworker_domain : worker.2 = domain := by
    have h : getResourceDomain opts device = .ok worker.2 := by
      simp [getResourceDomain, Options.getWorkerForDevice, hswift, hworker, Except.map]
    exact Except.ok.inj (h.symm.trans hdomain)
  have hgroups : ∀ g ∈ work, g.1 = domain := fun g hg =>
    Except.ok.inj ((hx.domain g hg).symm.trans hdomain)
  show BuildInv opts device s₀ (s, addToGroup worker.2 _ work)
  rw [hworker_domain, addToGroup_of_one hx.sessions hgroups]
  refine ⟨hx.find?, hx.runs, hx.evicted, by simp, by simp [hdomain], ?_⟩
  simp only [List.mem_singleton, List.mem_append, List.mem_flatMap, forall_eq]
  rintro miss (⟨g, hg, hmiss⟩ | rfl)
  · exact hgroups g hg ▸ hx.misses g hg miss hmiss
  · exact ⟨rfl, (hx.find? _).symm.trans hfind⟩

end Builders

/-- A run of the batch of one domain carries exactly the keys of the batch. -/
theorem carries_iff {target : String} {misses : List CompileMiss}
    (hdomain : ∀ miss ∈ misses, miss.cacheKey.domain = target) (key : CompilationCacheKey)
    (succeeded : Bool) :
    CompileRun.carries ⟨target, misses.map fun miss => miss.cacheKey.serializedComputation,
      succeeded⟩ key = true ↔ key ∈ misses.map CompileMiss.cacheKey := by
  simp only [CompileRun.carries, decide_eq_true_eq, List.mem_map]
  constructor
  · rintro ⟨rfl, miss, hmiss, hkey⟩
    refine ⟨miss, hmiss, ?_⟩
    obtain ⟨domain, computation⟩ := key
    obtain ⟨index, compileInstance, ⟨domain', computation'⟩, programShape⟩ := miss
    simp only at hkey
    have := hdomain _ hmiss
    simp_all
  · rintro ⟨miss, hmiss, rfl⟩
    exact ⟨(hdomain miss hmiss).symm, miss, hmiss, rfl⟩

section Runner

variable (server : CompileServer) (device : DeviceId) (devices : List DeviceId)

theorem compileRunner_balanced (key : CompilationCacheKey) (target : String)
    (misses : List CompileMiss) (s : CompileState)
    (hmisses : ∀ miss ∈ misses,
      miss.cacheKey.domain = target ∧ s.compilationCache.find? miss.cacheKey = none)
    (hs : Balanced key s) :
    Balanced key ((compileRunner server device devices (target, misses)).run.run s).2 := by
  have hcarries := carries_iff (fun miss hmiss => (hmisses miss hmiss).1) key
  rw [compileRunner_run]
  dsimp only
  split
  · next hsucceeded =>
      have hkeys : (((misses.enum.map fun entry => (entry.2, s.nextHandle + (entry.1 : Int))).map
          fun output => (output.1.cacheKey, output.1.toComputation devices output.2 device)).map
          Prod.fst) = misses.map CompileMiss.cacheKey := by
        rw [List.map_map, List.map_map]
        show List.map (CompileMiss.cacheKey ∘ Prod.snd) misses.enum = _
        rw [← List.map_map, List.enum_map_snd]
      have hpresence := LruCache.presence_addAll s.compilationCache
        ((misses.enum.map fun entry => (entry.2, s.nextHandle + (entry.1 : Int))).map fun output =>
          (output.1.cacheKey, output.1.toComputation devices output.2 device)) key
      rw [hkeys] at hpresence
      unfold Balanced at hs ⊢
      simp only [hsucceeded, List.countP_append, List.countP_singleton, Bool.and_true,
        List.count_append]
      by_cases hmem : key ∈ misses.map CompileMiss.cacheKey
      · have hnone : s.compilationCache.presence key = 0 := by
          obtain ⟨miss, hmiss, rfl⟩ := List.mem_map.mp hmem
          simp [LruCache.presence, (hmisses miss hmiss).2]
        simp only [(hcarries true).mpr hmem, hmem, or_true, if_true] at hpresence ⊢
        omega
      · have hcarried : CompileRun.carries ⟨target, misses.map fun miss =>
            miss.cacheKey.serializedComputation, true⟩ key = false :=
          Bool.eq_false_iff.mpr fun h => hmem ((hcarries true).mp h)
        have hbefore : s.compilationCache.presence key =
            if (s.compilationCache.find? key).isSome then 1 else 0 := rfl
        simp only [hcarried, Bool.false_eq_true, if_false, hmem, or_false] at hpresence ⊢
        omega
  · next hfailed =>
      unfold Balanced at hs ⊢
      simp only [List.countP_append, List.countP_singleton, eq_false_of_ne_true hfailed,
        Bool.and_false]
      simpa using hs

end Runner

section Calls

variable (opts : Options) (deviceMeshCoords : List (ParsedName × List Int))
  (server : CompileServer)

/-- A call of `Compile` keeps the balance of every key, whether it returns or throws. -/
theorem compile_balanced
    (builderOrder : List (Nat × CompileInstance) → List (Nat × CompileInstance))
    (device : DeviceId) (devices : List DeviceId) (instances : List CompileInstance)
    (key : CompilationCacheKey) (s : CompileState) (hs : Balanced key s) :
    Balanced key ((compile opts deviceMeshCoords server builderOrder device devices
      instances).run.run s).2 := by
  have hstart : BuildInv opts device s (s, []) :=
    ⟨fun _ => rfl, rfl, rfl, by simp, by simp, by simp⟩
  have hbuilders : ∀ c ∈ (builderOrder instances.enum).map
      (compileBuilder opts deviceMeshCoords device devices), ∀ x,
      BuildInv opts device s x → BuildInv opts device s (c.run.run x).2 := fun c hc x hx => by
    obtain ⟨entry, -, rfl⟩ := List.mem_map.mp hc
    exact compileBuilder_buildInv opts deviceMeshCoords device devices s entry x hx
  have hbuild := multiWait_preserves (BuildInv opts device s) hbuilders
    (List.replicate instances.length none) (s, []) hstart
  rw [compile, SessionM.run_bind, SessionM.run_withLocal]
  rcases hrun : (multiWait ((builderOrder instances.enum).map
      (compileBuilder opts deviceMeshCoords device devices))
      (List.replicate instances.length none)).run.run (s, []) with ⟨_ | results, x, work⟩ <;>
    rw [hrun] at hbuild
  · exact hbuild.balanced hs
  · dsimp only
    match work, hbuild with
    | [], hbuild => exact hbuild.balanced hs
    | [group], hbuild =>
        have hgroup := hbuild.misses group (List.mem_singleton_self _)
        have hrunner := compileRunner_balanced server device devices key group.1 group.2 x
          (fun miss hmiss => ⟨(hgroup miss hmiss).1, (hbuild.find? _).trans (hgroup miss hmiss).2⟩)
          (hbuild.balanced hs)
        rw [List.map_singleton, multiWait_singleton]
        split <;> next h => simpa only [h] using hrunner
    | _ :: _ :: _, hbuild => exact absurd hbuild.sessions (by simp)

/-- Calls one after another keep the balance of every key. -/
theorem runCompiles_balanced (key : CompilationCacheKey) :
    ∀ (calls : List CompileCall) (s : CompileState), Balanced key s →
      Balanced key (runCompiles opts deviceMeshCoords server calls s)
  | [], _, hs => hs
  | call :: rest, s, hs => runCompiles_balanced key rest _
      (compile_balanced opts deviceMeshCoords server call.builderOrder call.device call.devices
        call.instances key s hs)

end Calls

theorem compileRequests_eq (key : CompilationCacheKey) (runs : List CompileRun) :
    compileRequests key runs =
      runs.countP (fun run => run.carries key && run.succeeded) + failedRequests key runs := by
  induction runs with
  | nil => rfl
  | cons run rest ih =>
      simp only [compileRequests, failedRequests, List.countP_cons] at ih ⊢
      cases run.carries key <;> cases run.succeeded <;> simp <;> omega

section Single

variable (opts : Options) (deviceMeshCoords : List (ParsedName × List Int))
  (server : CompileServer) (device : DeviceId) (devices : List DeviceId)
  (builderOrder : List (Nat × CompileInstance) → List (Nat × CompileInstance))
  (horder : ∀ l, (builderOrder l).Perm l) {entry : CompileInstance} {domain : String}
  {proto : XrtComputationProto} (hdomain : getResourceDomain opts device = .ok domain)
  (hproto : createXrtComputation opts deviceMeshCoords entry.computation devices
    entry.outputShape = .ok proto)

include horder hdomain hproto in
theorem compile_single (s : CompileState) :
    ∃ cache₁ : LruCache CompilationCacheKey CompiledComputation,
      (∀ k, cache₁.find? k = s.compilationCache.find? k) ∧
      cache₁.capacity = s.compilationCache.capacity ∧
      (compile opts deviceMeshCoords server builderOrder device devices [entry]).run.run s =
        match s.compilationCache.find? ⟨domain, proto⟩ with
        | some cached => (.ok [some cached], { s with compilationCache := cache₁ })
        | none =>
            let computationPtr : CompiledComputation :=
              ⟨entry.computation, proto.programShape, devices, s.nextHandle, device⟩
            let added := cache₁.add ⟨domain, proto⟩ computationPtr
            if server.succeeds s.runs [proto] then
              (.ok [some computationPtr], { s with
                compilationCache := added.1
                nextHandle := s.nextHandle + 1
                runs := s.runs ++ [⟨domain, [proto], true⟩]
                evicted := s.evicted ++ added.2.toList })
            else
              (.error (.compileFailed [(entry.computation, entry.outputShape)]), { s with
                compilationCache := cache₁
                runs := s.runs ++ [⟨domain, [proto], false⟩] }) := by
  have hprotos : ∀ e ∈ [entry], createXrtComputation opts deviceMeshCoords e.computation devices
      e.outputShape = .ok ((fun _ => proto) e) := fun e he => List.mem_singleton.mp he ▸ hproto
  obtain ⟨cache₁, hcache₁, hcapacity, hrun⟩ := compile_run server device devices opts
    deviceMeshCoords [entry] hdomain hprotos builderOrder horder s
  refine ⟨cache₁, hcache₁, hcapacity, ?_⟩
  have horder₁ : builderOrder [entry].enum = [(0, entry)] := List.perm_singleton.mp (horder _)
  rw [hrun, horder₁]
  cases hfind : s.compilationCache.find? ⟨domain, proto⟩ with
  | some cached => simp [missedBatch, hfind]
  | none =>
      simp only [missedBatch, List.filter_cons, List.filter_nil, hfind, Option.isNone_none,
        if_true, List.map_cons, List.map_nil, reduceCtorEq, if_false, compileRunner_run]
      cases server.succeeds s.runs [proto] <;>
        simp [scatter, LruCache.addAll, CompileMiss.toComputation]

include horder hdomain hproto in
/-- Two calls of `Compile` on one instance in a row, the first compiling it if it misses, for
devices of one resource domain whose computations agree: the second call finds what the first
returned and issues no request. -/
theorem compile_twice (device₂ : DeviceId) (devices₂ : List DeviceId)
    (hdomain₂ : getResourceDomain opts device₂ = .ok domain)
    (hproto₂ : createXrtComputation opts deviceMeshCoords entry.computation devices₂
      entry.outputShape = .ok proto)
    (s : CompileState) (hcapacity : 1 ≤ s.compilationCache.capacity)
    (hsucceeds : s.compilationCache.find? ⟨domain, proto⟩ = none →
      server.succeeds s.runs [proto] = true) :
    let first := (compile opts deviceMeshCoords server builderOrder device devices [entry]).run.run s
    let second :=
      (compile opts deviceMeshCoords server builderOrder device₂ devices₂ [entry]).run.run first.2
    second.2.runs = first.2.runs ∧ second.1 = first.1 ∧
      ∃ computationPtr, first.1 = .ok [some computationPtr] := by
  obtain ⟨cache₁, hcache₁, hcapacity₁, hfirst⟩ :=
    compile_single opts deviceMeshCoords server device devices builderOrder horder hdomain hproto s
  intro first second
  cases hfind : s.compilationCache.find? ⟨domain, proto⟩ with
  | some cached =>
      rw [hfind] at hfirst
      obtain ⟨cache₂, -, -, hsecond⟩ := compile_single opts deviceMeshCoords server device₂ devices₂
        builderOrder horder hdomain₂ hproto₂ { s with compilationCache := cache₁ }
      simp only [(hcache₁ _).trans hfind] at hsecond
      simp [first, second, hfirst, hsecond]
  | none =>
      rw [hfind] at hfirst
      simp only [hsucceeds hfind, if_true] at hfirst
      obtain ⟨cache₂, -, -, hsecond⟩ := compile_single opts deviceMeshCoords server device₂ devices₂
        builderOrder horder hdomain₂ hproto₂ _
      simp only [first, second, hfirst]
      rw [hsecond, LruCache.find?_add_self _ ((hcache₁ _).trans hfind) (hcapacity₁ ▸ hcapacity)]
      exact ⟨rfl, rfl, _, rfl⟩

end Single

/-- Over calls of `Compile` one after another, from a client that has sent no compile request
yet, the requests carrying a key are at most one, plus the times the cache evicted the key, plus
the failed requests that carried it. Two calls in a row on one instance for devices of one
resource domain, the first compiling it if it misses, send no second request and return the same
computation, when the cache holds at least one entry and the two calls build the same
`XrtComputation`, as every compile for a single device does, whichever the device. -/
theorem compileRequests_bounded (opts : Options) (deviceMeshCoords : List (ParsedName × List Int))
    (server : CompileServer) :
    (∀ (calls : List CompileCall) (s : CompileState) (key : CompilationCacheKey), s.runs = [] →
      let final := runCompiles opts deviceMeshCoords server calls s
      compileRequests key final.runs ≤
        1 + final.evicted.count key + failedRequests key final.runs) ∧
    (∀ (builderOrder : List (Nat × CompileInstance) → List (Nat × CompileInstance)),
      (∀ l, (builderOrder l).Perm l) →
      ∀ (device₁ device₂ : DeviceId) (devices₁ devices₂ : List DeviceId) (entry : CompileInstance)
        (domain : String) (proto : XrtComputationProto) (s : CompileState),
      getResourceDomain opts device₁ = .ok domain → getResourceDomain opts device₂ = .ok domain →
      createXrtComputation opts deviceMeshCoords entry.computation devices₁ entry.outputShape =
        .ok proto →
      createXrtComputation opts deviceMeshCoords entry.computation devices₂ entry.outputShape =
        .ok proto →
      1 ≤ s.compilationCache.capacity →
      (s.compilationCache.find? ⟨domain, proto⟩ = none → server.succeeds s.runs [proto] = true) →
      let first :=
        (compile opts deviceMeshCoords server builderOrder device₁ devices₁ [entry]).run.run s
      let second :=
        (compile opts deviceMeshCoords server builderOrder device₂ devices₂ [entry]).run.run first.2
      second.2.runs = first.2.runs ∧ second.1 = first.1 ∧
        ∃ computationPtr, first.1 = .ok [some computationPtr]) ∧
    ∀ (computation : XlaComputation) (outputShape : Option Shape) (device₁ device₂ : DeviceId),
      createXrtComputation opts deviceMeshCoords computation [device₁] outputShape =
        createXrtComputation opts deviceMeshCoords computation [device₂] outputShape := by
  refine ⟨fun calls s key hs => ?_, fun builderOrder horder device₁ device₂ devices₁ devices₂ entry
    domain proto s hdomain₁ hdomain₂ hproto₁ hproto₂ hcapacity hsucceeds => compile_twice opts
      deviceMeshCoords server device₁ devices₁ builderOrder horder hdomain₁ hproto₁ device₂ devices₂
      hdomain₂ hproto₂ s hcapacity hsucceeds,
    fun computation outputShape device₁ device₂ => by
      rw [createXrtComputation_singleton, createXrtComputation_singleton]⟩
  have hbalanced := runCompiles_balanced opts deviceMeshCoords server key calls s
    (by simp [Balanced, hs])
  have hpresence : (runCompiles opts deviceMeshCoords server calls s).compilationCache.presence
      key ≤ 1 := by
    unfold LruCache.presence
    split <;> omega
  unfold Balanced at hbalanced
  dsimp only
  rw [compileRequests_eq]
  omega

/-- A server whose first compile run fails and whose later runs succeed. -/
def retryingServer : CompileServer := ⟨fun runs _ => !runs.isEmpty⟩

/-- A call compiling `vectorInstance` for `TPU:0`. -/
def vectorCall : CompileCall := ⟨⟨"TPU", 0⟩, [⟨"TPU", 0⟩], [vectorInstance], id⟩

theorem compileRequests_bounded_vectorCall :
    compileRequests vectorKey (runCompiles sharedWorkerOptions [] acceptingServer
        [vectorCall, vectorCall] (freshCompileState 64)).runs ≤
      1 + (runCompiles sharedWorkerOptions [] acceptingServer [vectorCall, vectorCall]
        (freshCompileState 64)).evicted.count vectorKey +
        failedRequests vectorKey (runCompiles sharedWorkerOptions [] acceptingServer
          [vectorCall, vectorCall] (freshCompileState 64)).runs ∧
    (let first := (compile sharedWorkerOptions [] acceptingServer id ⟨"TPU", 0⟩ [⟨"TPU", 0⟩]
        [vectorInstance]).run.run (freshCompileState 64)
      let second := (compile sharedWorkerOptions [] acceptingServer id ⟨"TPU", 1⟩ [⟨"TPU", 1⟩]
        [vectorInstance]).run.run first.2
      second.2.runs = first.2.runs ∧ second.1 = first.1 ∧
        ∃ computationPtr, first.1 = .ok [some computationPtr]) :=
  ⟨(compileRequests_bounded sharedWorkerOptions [] acceptingServer).1 _ _ _ rfl,
    (compileRequests_bounded sharedWorkerOptions [] acceptingServer).2.1 id (fun l => List.Perm.refl l)
      ⟨"TPU", 0⟩ ⟨"TPU", 1⟩ [⟨"TPU", 0⟩] [⟨"TPU", 1⟩] vectorInstance _
      vectorKey.serializedComputation (freshCompileState 64) rfl rfl rfl rfl (by decide) fun _ => rfl⟩

/-- A request that fails and its retry both carry the key, with no eviction between them; and
with a cache of capacity 0, two calls in a row both compile and return different computations. -/
theorem compileRequests_exceed_evictions :
    (compileRequests vectorKey (runCompiles sharedWorkerOptions [] retryingServer
        [vectorCall, vectorCall] (freshCompileState 64)).runs = 2 ∧
      (runCompiles sharedWorkerOptions [] retryingServer [vectorCall, vectorCall]
        (freshCompileState 64)).evicted.count vectorKey = 0) ∧
    (let first := (compile sharedWorkerOptions [] acceptingServer id ⟨"TPU", 0⟩ [⟨"TPU", 0⟩]
        [vectorInstance]).run.run (freshCompileState 0)
      let second := (compile sharedWorkerOptions [] acceptingServer id ⟨"TPU", 0⟩ [⟨"TPU", 0⟩]
        [vectorInstance]).run.run first.2
      compileRequests vectorKey second.2.runs = 2 ∧ second.1 ≠ first.1) := by
  decide

end XrtClient
