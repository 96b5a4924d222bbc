import XrtClient.Transfer
import XrtClient.Chained

/-! # Reading values back from the server

`TransferFromServerImpl` reads each handle's literal through an `XRTReadLiteral` node, and
`DeconstructTuple` takes each tuple handle apart through one `XRTSubTuple` node per element.
Both batch their nodes by session in a `std::map` keyed by the session pointer, fetch each
session's batch in one `session->Run`, and walk its `index_mapping` to put the outputs back at
the callers' positions. `TransferFromServerImpl` also cuts the handles into batches of bounded
byte size, each with a `SessionMap` of its own.

Modelled from the spec: the session cache (`XrtSessionCache`, not in this repository) hands each
`SessionMap` a session of its own per target, and the node cache a fresh node at every call
within a call of the client, so that the `k`-th node fetched by a session is `⟨session, k⟩`. The
`std::map` walks its sessions in pointer order, which the model leaves free (`order`).
-/

namespace XrtClient

/-- The `index`-th node the node cache of `session` hands out within one call. -/
structure SessionNode (S : Type) where
  session : S
  index : Nat
  deriving DecidableEq, Repr

/-! ## The work of a session -/

section Works

variable {S F : Type} [DecidableEq S]

/-- Feed the session's next node with `feed` and fetch the node's output. -/
def SessionWork.feedNode (work : SessionWork (SessionNode S) F) (session : S) (feed : F) :
    SessionWork (SessionNode S) F :=
  let node : SessionNode S := ⟨session, work.outputsHandles.length⟩
  { work with
    feedInputs := emplace work.feedInputs node feed
    outputsHandles := work.outputsHandles ++ [node] }

/-- `SessionWork* session_work = &session_work_map[session]` and the updates made through it; the
session's first use inserts an empty work. -/
def updateWork (session : S) (update : SessionWork (SessionNode S) F → SessionWork (SessionNode S) F) :
    List (S × SessionWork (SessionNode S) F) → List (S × SessionWork (SessionNode S) F)
  | [] => [(session, update ⟨[], [], []⟩)]
  | (s, work) :: rest =>
      if s = session then (s, update work) :: rest else (s, work) :: updateWork session update rest

/-- `session->Run(feed_inputs, outputs_handles)`: each fetched node outputs `eval` of what its
placeholders were fed. -/
def SessionWork.fetch {R : Type} (eval : F → R) (work : SessionWork (SessionNode S) F) :
    Except Fault (List R) :=
  work.outputsHandles.mapM fun node =>
    match work.feedInputs.lookup node with
    | some feed => .ok (eval feed)
    | none => .error (.checkFailed "placeholder not fed")

/-- The work of `session` once `feeds` have gone to fresh nodes, for the callers `indexMapping`. -/
def workOf (session : S) (feeds : List F) (indexMapping : List Nat) : SessionWork (SessionNode S) F :=
  ⟨feeds.enum.map fun entry => (⟨session, entry.1⟩, entry.2),
    (List.range feeds.length).map (SessionNode.mk session), indexMapping⟩

omit [DecidableEq S] in
@[simp] theorem workOf_indexMapping (session : S) (feeds : List F) (indexMapping : List Nat) :
    (workOf session feeds indexMapping).indexMapping = indexMapping := rfl

omit [DecidableEq S] in
@[simp] theorem length_workOf_outputsHandles (session : S) (feeds : List F) (indexMapping : List Nat) :
    (workOf session feeds indexMapping).outputsHandles.length = feeds.length := by
  simp [workOf]

theorem feedNode_workOf (session : S) (feeds : List F) (indexMapping : List Nat) (feed : F) :
    (workOf session feeds indexMapping).feedNode session feed =
      workOf session (feeds ++ [feed]) indexMapping := by
  have hfresh : ∀ e ∈ (workOf session feeds indexMapping).feedInputs,
      e.1 ≠ ⟨session, feeds.length⟩ := by
    simp only [workOf, List.mem_map]
    rintro _ ⟨entry, hentry, rfl⟩ h
    have := List.fst_lt_of_mem_enum hentry
    simp only [SessionNode.mk.injEq, true_and] at h
    omega
  have hlength : (workOf session feeds indexMapping).outputsHandles.length = feeds.length := by
    simp [workOf]
  simp only [SessionWork.feedNode, hlength, emplace_of_fresh hfresh]
  simp [workOf, List.enum_append, List.range_succ]

theorem foldl_feedNode_workOf (session : S) (indexMapping : List Nat) :
    ∀ (more feeds : List F), more.foldl (fun work feed => work.feedNode session feed)
      (workOf session feeds indexMapping) = workOf session (feeds ++ more) indexMapping
  | [], feeds => by simp
  | feed :: more, feeds => by
      rw [List.foldl_cons, feedNode_workOf, foldl_feedNode_workOf session indexMapping more]
      simp

theorem fetch_workOf {R : Type} (eval : F → R) (session : S) (feeds : List F)
    (indexMapping : List Nat) : (workOf session feeds indexMapping).fetch eval = .ok (feeds.map eval) := by
  have hkeys : (feeds.enum.map fun entry => ((⟨session, entry.1⟩ : SessionNode S), entry.2)).map
      Prod.fst = (feeds.enum.map Prod.fst).map (SessionNode.mk session) := by
    simp only [List.map_map]
    rfl
  have hnodup : ((feeds.enum.map fun entry => ((⟨session, entry.1⟩ : SessionNode S), entry.2)).map
      Prod.fst).Nodup := by
    rw [hkeys, List.enum_map_fst]
    exact (List.nodup_range _).map fun _ _ h => (SessionNode.mk.inj h).2
  rw [SessionWork.fetch, workOf, ← List.enum_map_fst, List.map_map, mapM_map,
    @mapM_eq_ok_map _ _ _ _ (eval ∘ Prod.snd) _ fun entry hentry => ?_, ← List.map_map,
    List.enum_map_snd]
  dsimp only [Function.comp_apply]
  rw [lookup_of_mem hnodup (List.mem_map_of_mem
    (fun entry : Nat × F => ((⟨session, entry.1⟩ : SessionNode S), entry.2)) hentry)]

/-! ### `session_work_map` -/

variable {session : S} {update : SessionWork (SessionNode S) F → SessionWork (SessionNode S) F}

theorem map_fst_updateWork (works : List (S × SessionWork (SessionNode S) F)) :
    (updateWork session update works).map Prod.fst =
      if session ∈ works.map Prod.fst then works.map Prod.fst
      else works.map Prod.fst ++ [session] := by
  induction works with
  | nil => simp [updateWork]
  | cons p rest ih =>
      simp only [updateWork]
      split
      · simp_all
      · by_cases hmem : session ∈ rest.map Prod.fst <;> simp_all [Ne.symm]

theorem nodup_updateWork {works : List (S × SessionWork (SessionNode S) F)}
    (hnodup : (works.map Prod.fst).Nodup) : ((updateWork session update works).map Prod.fst).Nodup := by
  rw [map_fst_updateWork]
  split
  · exact hnodup
  · next hmem => exact hnodup.append (List.nodup_singleton _) (by simpa using hmem)

/-- A property of every work that the update keeps, and the fresh work has, holds of every work
after the update. -/
theorem forall_mem_updateWork {P : S × SessionWork (SessionNode S) F → Prop}
    (hupdate : ∀ work, P (session, work) → P (session, update work)) (hempty : P (session, ⟨[], [], []⟩)) :
    ∀ {works : List (S × SessionWork (SessionNode S) F)}, (∀ p ∈ works, P p) →
      ∀ p ∈ updateWork session update works, P p
  | [], _, p, hp => by
      rw [updateWork, List.mem_singleton] at hp
      exact hp ▸ hupdate _ hempty
  | (s, work) :: rest, hworks, p, hp => by
      rw [updateWork] at hp
      split at hp
      · next hs =>
          subst hs
          rcases List.mem_cons.mp hp with rfl | hp
          · exact hupdate work (hworks _ (List.mem_cons_self _ _))
          · exact hworks p (List.mem_cons_of_mem _ hp)
      · rcases List.mem_cons.mp hp with rfl | hp
        · exact hworks _ (List.mem_cons_self _ _)
        · exact forall_mem_updateWork hupdate hempty (fun q hq => hworks q (List.mem_cons_of_mem _ hq)) p hp

/-- An update that appends caller `index` to the work it updates appends it to the callers of
the map. -/
theorem flatMap_updateWork {P : S × SessionWork (SessionNode S) F → Prop} {index : Nat}
    (hupdate : ∀ work, P (session, work) → (update work).indexMapping = work.indexMapping ++ [index])
    (hempty : P (session, ⟨[], [], []⟩)) :
    ∀ {works : List (S × SessionWork (SessionNode S) F)}, (∀ p ∈ works, P p) →
      ((updateWork session update works).flatMap fun p => p.2.indexMapping).Perm
        ((works.flatMap fun p => p.2.indexMapping) ++ [index])
  | [], _ => by simp [updateWork, hupdate _ hempty]
  | (s, work) :: rest, hworks => by
      rw [updateWork]
      split
      · next hs =>
          subst hs
          rw [List.flatMap_cons, List.flatMap_cons, hupdate work (hworks _ (List.mem_cons_self _ _)),
            List.append_assoc, List.append_assoc]
          exact (List.perm_append_comm.append_left _)
      · rw [List.flatMap_cons, List.flatMap_cons, List.append_assoc]
        exact (flatMap_updateWork hupdate hempty fun q hq => hworks q (List.mem_cons_of_mem _ hq)).append_left _

/-- The work of session `p.1` holds the nodes fed for its callers, in order, and each caller's
session is `p.1`. -/
def WorkFor (keyed : Nat → S → Prop) (feedsAt : Nat → List F)
    (p : S × SessionWork (SessionNode S) F) : Prop :=
  p.2 = workOf p.1 (p.2.indexMapping.flatMap feedsAt) p.2.indexMapping ∧
    ∀ i ∈ p.2.indexMapping, keyed i p.1

/-- The works once the first loop of a call has walked the callers below `count`: one work per
session, every caller in exactly one. -/
structure Grouped (keyed : Nat → S → Prop) (feedsAt : Nat → List F) (count : Nat)
    (works : List (S × SessionWork (SessionNode S) F)) : Prop where
  nodup : (works.map Prod.fst).Nodup
  cover : (works.flatMap fun p => p.2.indexMapping).Perm (List.range count)
  work : ∀ p ∈ works, WorkFor keyed feedsAt p

omit [DecidableEq S] in
theorem grouped_nil (keyed : Nat → S → Prop) (feedsAt : Nat → List F) :
    Grouped keyed feedsAt 0 [] :=
  ⟨List.nodup_nil, List.Perm.refl _, fun _ h => nomatch h⟩

/-- One pass of the first loop: the caller `count` goes to the work of its session. -/
theorem Grouped.add {keyed : Nat → S → Prop} {feedsAt : Nat → List F} {count : Nat}
    {works : List (S × SessionWork (SessionNode S) F)} (h : Grouped keyed feedsAt count works)
    (hkey : keyed count session)
    (hupdate : ∀ feeds indexMapping, update (workOf session feeds indexMapping) =
      workOf session (feeds ++ feedsAt count) (indexMapping ++ [count])) :
    Grouped keyed feedsAt (count + 1) (updateWork session update works) := by
  have hstep : ∀ work, WorkFor keyed feedsAt (session, work) →
      WorkFor keyed feedsAt (session, update work) ∧
        (update work).indexMapping = work.indexMapping ++ [count] := by
    rintro work ⟨hwork, hkeys⟩
    have hnext := hupdate (work.indexMapping.flatMap feedsAt) work.indexMapping
    rw [← hwork] at hnext
    refine ⟨⟨?_, ?_⟩, by rw [hnext]; rfl⟩
    · rw [hnext]
      simp [workOf, List.flatMap_append]
    · rw [hnext]
      simp only [workOf, List.mem_append, List.mem_singleton]
      rintro i (hi | rfl)
      exacts [hkeys i hi, hkey]
  have hempty : WorkFor keyed feedsAt (session, ⟨[], [], []⟩) := ⟨rfl, fun _ h => nomatch h⟩
  refine ⟨nodup_updateWork h.nodup, ?_, forall_mem_updateWork (fun w hw => (hstep w hw).1) hempty h.work⟩
  rw [List.range_succ]
  exact (flatMap_updateWork (fun w hw => (hstep w hw).2) hempty h.work).trans (h.cover.append_right _)

/-! ### The second loop -/

/-- Session runs that each log their run and return their writes, from every log. -/
theorem run_mapM_sessions {W α : Type} {run : W → SessionM (List W) α} (writes : W → α)
    {works : List W} (h : ∀ p ∈ works, ∀ log, (run p).run.run log = (.ok (writes p), log ++ [p])) :
    (works.mapM run).run.run [] = (.ok (works.map writes), works) := by
  rw [SessionM.run_mapM writes (fun p log => log ++ [p]) h, show works.foldl (fun s x => s ++ [x]) [] = works by
    simpa using foldl_append_singleton (fun p : W => p) works []]

omit [DecidableEq S] in
/-- Each session writing each of its callers' values, in whatever order the sessions go, gives
every caller its value when the sessions' callers are all the callers, once each. -/
theorem scatter_sessions {α : Type} {works works' : List (S × SessionWork (SessionNode S) F)}
    {count : Nat} (hcover : (works.flatMap fun p => p.2.indexMapping).Perm (List.range count))
    (horder : works'.Perm works) {target : List α} (hlength : target.length = count) (fill : α)
    (value : Nat → α) (hvalue : ∀ i < count, target[i]? = some (value i)) :
    scatter (List.replicate count fill)
      (works'.map fun p => p.2.indexMapping.map fun i => (i, value i)).flatten = target := by
  have hfst : (works'.map fun p => p.2.indexMapping.map fun i => (i, value i)).flatten.map Prod.fst =
      works'.flatMap fun p => p.2.indexMapping := by
    simp [List.flatMap_def, Function.comp_def]
  have hcover' := (horder.flatMap_right _).trans hcover
  apply scatter_eq_of_cover _ _ _ (by simp [hlength]) (by rw [hfst, List.length_replicate]; exact hcover')
  intro w hw
  obtain ⟨i, hi, rfl⟩ : ∃ i ∈ works'.flatMap (fun p => p.2.indexMapping), (i, value i) = w := by
    simp only [List.mem_flatten, List.mem_map] at hw
    obtain ⟨_, ⟨p, hp, rfl⟩, hw⟩ := hw
    obtain ⟨i, hi, rfl⟩ := List.mem_map.mp hw
    exact ⟨i, List.mem_flatMap.mpr ⟨p, hp, hi⟩, rfl⟩
  exact hvalue i (List.mem_range.mp (hcover'.subset hi))

end Works

/-- A loop over the callers in order whose every pass succeeds and takes `inv` at the callers
walked so far to `inv` at one more succeeds, with `inv` at all of them. -/
theorem foldlM_enum_of_step {σ α ε : Type} {f : σ → Nat × α → Except ε σ} {inv : Nat → σ → Prop}
    (l : List α) (hstep : ∀ k x s, l[k]? = some x → inv k s → ∃ s', f s (k, x) = .ok s' ∧ inv (k + 1) s')
    {s : σ} (hs : inv 0 s) : ∃ s', l.enum.foldlM f s = .ok s' ∧ inv l.length s' := by
  suffices h : ∀ (rest : List α) (start : Nat) (s : σ), (∀ k x s, rest[k]? = some x →
      inv (start + k) s → ∃ s', f s (start + k, x) = .ok s' ∧ inv (start + k + 1) s') →
      inv start s → ∃ s', (rest.enumFrom start).foldlM f s = .ok s' ∧ inv (start + rest.length) s' by
    simpa [List.enum] using h l 0 s (fun k x s hk hs => by simpa using hstep k x s hk (by simpa using hs)) hs
  intro rest
  induction rest with
  | nil => exact fun start s _ hs => ⟨s, rfl, hs⟩
  | cons x rest ih =>
      intro start s hstep hs
      obtain ⟨s', hs', hinv⟩ := hstep 0 x s (List.getElem?_cons_zero) (by simpa using hs)
      simp only [Nat.add_zero] at hs' hinv
      rw [List.enumFrom_cons, List.foldlM_cons, hs', ok_bind]
      obtain ⟨s'', hs'', hinv'⟩ := ih (start + 1) s' (fun k y t hk ht => by
        have e : start + 1 + k = start + (k + 1) := by omega
        rw [e] at ht ⊢
        exact hstep (k + 1) y t (by rwa [List.getElem?_cons_succ]) ht) hinv
      have e : start + (x :: rest).length = start + 1 + rest.length := by simp only [List.length_cons]; omega
      exact ⟨s'', hs'', e ▸ hinv'⟩

theorem length_of_mapM_eq_ok {α β ε : Type} {f : α → Except ε β} :
    ∀ {l : List α} {ys : List β}, l.mapM f = .ok ys → ys.length = l.length
  | [], _, h => by cases h; rfl
  | a :: rest, ys, h => by
      rw [List.mapM_cons] at h
      obtain ⟨y, -, h⟩ := bind_eq_ok h
      obtain ⟨ys', hys', h⟩ := bind_eq_ok h
      cases h
      simp [length_of_mapM_eq_ok hys']

theorem getElem?_of_mapM_eq_ok {α β ε : Type} {f : α → Except ε β} :
    ∀ {l : List α} {ys : List β}, l.mapM f = .ok ys → ∀ {k : Nat} {x : α}, l[k]? = some x →
      ∃ y, ys[k]? = some y ∧ f x = .ok y
  | [], _, _, _, _, hk => nomatch hk
  | a :: rest, ys, h, k, x, hk => by
      rw [List.mapM_cons] at h
      obtain ⟨y, hy, h⟩ := bind_eq_ok h
      obtain ⟨ys', hys', h⟩ := bind_eq_ok h
      cases h
      cases k with
      | zero =>
          rw [List.getElem?_cons_zero, Option.some.injEq] at hk
          exact ⟨y, List.getElem?_cons_zero, hk ▸ hy⟩
      | succ k =>
          rw [List.getElem?_cons_succ] at hk
          obtain ⟨z, hz, hf⟩ := getElem?_of_mapM_eq_ok hys' hk
          exact ⟨z, by rwa [List.getElem?_cons_succ], hf⟩

/-! ## `TransferFromServerImpl` -/

/-- The size-batch cut of `TransferFromServerImpl`: a handle of `shapeSize` bytes opens a new
`SessionMap` when it would bring the current batch to `max_partition_size` or past it. The state
is the index of `session_maps.back()` and `current_size`; the sum is taken exactly, the `int64`
overflow it could reach being undefined. -/
def cutReadBatch (maxPartitionSize : Int) (state : Nat × Int) (shapeSize : Nat) : Nat × Int :=
  let state := if state.2 + shapeSize ≥ maxPartitionSize then (state.1 + 1, 0) else state
  (state.1, state.2 + shapeSize)

/-! ### The size batches -/

/-- The batch the cut puts each handle in, given the handles' byte sizes. -/
def cutReadBatches (maxPartitionSize : Int) (sizes : List Nat) : (Nat × Int) × List Nat :=
  sizes.foldl (fun acc size =>
    let state := cutReadBatch maxPartitionSize acc.1 size
    (state, acc.2 ++ [state.1])) ((0, 0), [])

def readBatches (maxPartitionSize : Int) (sizes : List Nat) : List Nat :=
  (cutReadBatches maxPartitionSize sizes).2

/-- The byte sizes of the handles of batch `batch`. -/
def batchSizes (sizes batches : List Nat) (batch : Nat) : List Nat :=
  ((sizes.zip batches).filter fun entry => entry.2 = batch).map Prod.fst

section Batches

variable {maxPartitionSize : Int}

@[simp] theorem cutReadBatches_append_singleton (sizes : List Nat) (size : Nat) :
    cutReadBatches maxPartitionSize (sizes ++ [size]) =
      (cutReadBatch maxPartitionSize (cutReadBatches maxPartitionSize sizes).1 size,
        (cutReadBatches maxPartitionSize sizes).2 ++
          [(cutReadBatch maxPartitionSize (cutReadBatches maxPartitionSize sizes).1 size).1]) := by
  simp only [cutReadBatches, List.foldl_append, List.foldl_cons, List.foldl_nil]

theorem batchSizes_append_singleton {sizes batches : List Nat} (hlength : sizes.length = batches.length)
    (size batch' batch : Nat) :
    batchSizes (sizes ++ [size]) (batches ++ [batch']) batch =
      batchSizes sizes batches batch ++ if batch' = batch then [size] else [] := by
  simp only [batchSizes, List.zip_append hlength, List.zip_cons_cons, List.zip_nil_left,
    List.filter_append, List.map_append]
  split <;> simp_all

theorem batchSizes_of_lt {sizes batches : List Nat} {batch : Nat} (hlt : ∀ b ∈ batches, b < batch) :
    batchSizes sizes batches batch = [] := by
  simp only [batchSizes, List.map_eq_nil_iff, List.filter_eq_nil_iff, decide_eq_true_eq]
  exact fun entry hentry => (hlt _ (List.of_mem_zip hentry).2).ne

/-- What the cut keeps: a batch for each handle, none past the open one, the open one's sum as
`current_size`, and every batch of one handle or below the ceiling. -/
theorem cutReadBatches_invariant (sizes : List Nat) :
    (cutReadBatches maxPartitionSize sizes).2.length = sizes.length ∧
      (∀ b ∈ (cutReadBatches maxPartitionSize sizes).2, b ≤ (cutReadBatches maxPartitionSize sizes).1.1) ∧
      ((batchSizes sizes (cutReadBatches maxPartitionSize sizes).2
        (cutReadBatches maxPartitionSize sizes).1.1).sum : Int) = (cutReadBatches maxPartitionSize sizes).1.2 ∧
      ∀ batch, (batchSizes sizes (cutReadBatches maxPartitionSize sizes).2 batch).length ≤ 1 ∨
        ((batchSizes sizes (cutReadBatches maxPartitionSize sizes).2 batch).sum : Int) < maxPartitionSize := by
  induction sizes using List.reverseRecOn with
  | nil => simp [cutReadBatches, batchSizes]
  | append_singleton sizes size ih =>
      obtain ⟨hlength, hle, hsum, hbound⟩ := ih
      rw [cutReadBatches_append_singleton]
      generalize cutReadBatches maxPartitionSize sizes = acc at hlength hle hsum hbound
      obtain ⟨⟨open_, current⟩, batches⟩ := acc
      dsimp only at hlength hle hsum hbound ⊢
      simp only [List.length_append, List.length_singleton, hlength, batchSizes_append_singleton hlength.symm,
        true_and]
      simp only [cutReadBatch]
      split
      · next hcut =>
          have hfresh : batchSizes sizes batches (open_ + 1) = [] :=
            batchSizes_of_lt fun b hb => Nat.lt_succ_of_le (hle b hb)
          refine ⟨fun b hb => ?_, by simp [hfresh], fun batch => ?_⟩
          · rcases List.mem_append.mp hb with hb | hb
            · exact Nat.le_succ_of_le (hle b hb)
            · simp_all
          · by_cases hbatch : open_ + 1 = batch
            · subst hbatch
              simp [hfresh]
            · simpa [hbatch] using hbound batch
      · next hcut =>
          refine ⟨fun b hb => ?_, by simp [hsum], fun batch => ?_⟩
          · rcases List.mem_append.mp hb with hb | hb
            · exact hle b hb
            · simp_all
          · by_cases hbatch : open_ = batch
            · subst hbatch
              right
              simp only [if_true, List.sum_append, List.sum_singleton, Nat.cast_add, hsum]
              omega
            · simpa [hbatch] using hbound batch

theorem readBatches_bounded (sizes : List Nat) (batch : Nat) :
    (batchSizes sizes (readBatches maxPartitionSize sizes) batch).length ≤ 1 ∨
      ((batchSizes sizes (readBatches maxPartitionSize sizes) batch).sum : Int) < maxPartitionSize :=
  (cutReadBatches_invariant sizes).2.2.2 batch

theorem mem_batchSizes {sizes batches : List Nat} {i size batch : Nat} (hsize : sizes[i]? = some size)
    (hbatch : batches[i]? = some batch) : size ∈ batchSizes sizes batches batch := by
  have hzip : (size, batch) ∈ sizes.zip batches :=
    List.getElem?_mem (List.getElem?_zip_eq_some.mpr ⟨hsize, hbatch⟩)
  exact List.mem_map.mpr ⟨(size, batch), List.mem_filter.mpr ⟨hzip, by simp⟩, rfl⟩

end Batches

/-! ### The cut against the upload partitions

`PartitionTransferToServer` cuts before a tensor when the open partition would grow past the
ceiling (`>`), `TransferFromServerImpl` before a handle when the open batch would reach it (`>=`).
Where the `uint64` sums of the upload cannot wrap, the read batches with ceiling `C ≥ 1` therefore
start where the upload partitions with ceiling `C - 1` do, and with ceiling `0` every handle has a
batch of its own. -/

/-- The positions at which the cut opens the batch of a handle: the first handle's, whether or not
an empty batch `0` stands before it, and each handle's whose batch is not its predecessor's. -/
def batchStarts (batches : List Nat) : List Nat :=
  (List.range batches.length).filter fun i => i = 0 ∨ batches[i]? ≠ batches[i - 1]?

theorem batchStarts_append_singleton {batches : List Nat} {last : Nat}
    (hlast : batches.getLast? = some last) (batch : Nat) :
    batchStarts (batches ++ [batch]) =
      batchStarts batches ++ if batch = last then [] else [batches.length] := by
  have hpos : 0 < batches.length := List.length_pos.mpr (by rintro rfl; simp at hlast)
  have hprev : batches[batches.length - 1]? = some last := by rwa [← List.getLast?_eq_getElem?]
  rw [batchStarts, List.length_append, List.length_singleton, List.range_succ, List.filter_append,
    batchStarts]
  congr 1
  · refine List.filter_congr fun i hi => ?_
    have hi := List.mem_range.mp hi
    rw [List.getElem?_append_left hi, List.getElem?_append_left (by omega)]
  · rw [List.filter_singleton, List.getElem?_concat_length, List.getElem?_append_left (by omega), hprev]
    by_cases hbatch : batch = last <;> simp [hbatch, hpos.ne']

section Batches

variable {maxPartitionSize : Int}

theorem getLast?_readBatches {sizes : List Nat} (hne : sizes ≠ []) :
    (readBatches maxPartitionSize sizes).getLast? = some (cutReadBatches maxPartitionSize sizes).1.1 := by
  obtain ⟨pre, size, rfl⟩ := (List.eq_nil_or_concat sizes).resolve_left hne
  simp [readBatches]

theorem cutReadBatch_eq (state : Nat × Int) (size : Nat) :
    cutReadBatch maxPartitionSize state size =
      if maxPartitionSize ≤ state.2 + size then (state.1 + 1, (size : Int))
      else (state.1, state.2 + size) := by
  unfold cutReadBatch
  split <;> simp_all

@[simp] theorem batchStarts_singleton (batch : Nat) : batchStarts [batch] = [0] := rfl

/-- With ceiling `0` every handle opens a batch. -/
theorem batchStarts_readBatches_zero (sizes : List Nat) :
    batchStarts (readBatches 0 sizes) = List.range sizes.length := by
  induction sizes using List.reverseRecOn with
  | nil => rfl
  | append_singleton sizes size ih =>
      rcases eq_or_ne sizes [] with rfl | hne
      · rfl
      have hcurrent : 0 ≤ (cutReadBatches 0 sizes).1.2 := by
        rw [← (cutReadBatches_invariant sizes).2.2.1]
        exact Int.natCast_nonneg _
      have hlast : (cutReadBatches 0 sizes).2.getLast? = some (cutReadBatches 0 sizes).1.1 :=
        getLast?_readBatches hne
      rw [readBatches, cutReadBatches_append_singleton]
      dsimp only
      have hlength : (readBatches 0 sizes).length = sizes.length := (cutReadBatches_invariant sizes).1
      rw [batchStarts_append_singleton hlast, ← readBatches, ih, hlength, List.length_append,
        List.length_singleton, List.range_succ, cutReadBatch_eq,
        if_pos (show (0 : Int) ≤ (cutReadBatches 0 sizes).1.2 + size by omega)]
      simp

/-- The read cut of a prefix `pre` of the handles with ceiling `maxPartitionSize`, against the
upload loop at the same point with ceiling `maxPartitionSize - 1`: the same open size, below
`2 ^ 63`, and the same starts. -/
structure CutSimulation (maxPartitionSize : Int) (pre : List Nat) (current : Nat)
    (partitions : List Nat) : Prop where
  nonempty : pre ≠ []
  current_eq : (cutReadBatches maxPartitionSize pre).1.2 = current
  current_lt : current < 2 ^ 63
  starts_eq : batchStarts (readBatches maxPartitionSize pre) = startsOrZero partitions

theorem startsOrZero_cut (partitions : List Nat) {i : Nat} (hi : 0 < i) :
    startsOrZero ((if partitions = [] ∧ 0 < i then partitions ++ [0] else partitions) ++ [i]) =
      startsOrZero partitions ++ [i] := by
  cases partitions <;> simp [startsOrZero, hi]

theorem ceiling_pred {maxPartitionSize : Int} (hceil : 1 ≤ maxPartitionSize)
    (hmax : maxPartitionSize < 2 ^ 63) :
    (((maxPartitionSize - 1) % 2 ^ 64).toNat : Int) = maxPartitionSize - 1 := by
  rw [Int.emod_eq_of_lt (by omega) (by omega), Int.toNat_of_nonneg (by omega)]

/-- The first handle: the upload loop has not cut yet, or has cut before it, and either way both
start at `0`. -/
theorem CutSimulation.first {size : Nat} (hsize : size < 2 ^ 63) (rest : List Nat) :
    ∃ current partitions,
      partitionLoop ((maxPartitionSize - 1) % 2 ^ 64).toNat 0 0 [] (size :: rest) =
        partitionLoop ((maxPartitionSize - 1) % 2 ^ 64).toNat [size].length current partitions rest ∧
      CutSimulation maxPartitionSize [size] current partitions := by
  have hread : readBatches maxPartitionSize [size] = [(cutReadBatch maxPartitionSize (0, 0) size).1] :=
    rfl
  have hcurrent : (cutReadBatches maxPartitionSize [size]).1.2 = size := by
    simp only [cutReadBatches, List.foldl_cons, List.foldl_nil, cutReadBatch_eq]
    split <;> simp
  simp only [partitionLoop, Nat.zero_add, Nat.mod_eq_of_lt (show size < 2 ^ 64 by omega)]
  split <;> exact ⟨size, _, rfl, List.cons_ne_nil _ _, hcurrent, hsize, by simp [hread, startsOrZero]⟩

/-- One more handle: both loops cut before it or neither does. -/
theorem CutSimulation.step {pre : List Nat} {current : Nat} {partitions : List Nat}
    (h : CutSimulation maxPartitionSize pre current partitions) (hceil : 1 ≤ maxPartitionSize)
    (hmax : maxPartitionSize < 2 ^ 63) {size : Nat} (hsize : size < 2 ^ 63) (rest : List Nat) :
    ∃ current' partitions',
      partitionLoop ((maxPartitionSize - 1) % 2 ^ 64).toNat pre.length current partitions (size :: rest) =
        partitionLoop ((maxPartitionSize - 1) % 2 ^ 64).toNat (pre ++ [size]).length current'
          partitions' rest ∧
      CutSimulation maxPartitionSize (pre ++ [size]) current' partitions' := by
  obtain ⟨hne, hcurrent, hlt, hstarts⟩ := h
  have hceiling := ceiling_pred hceil hmax
  have hpos : 0 < pre.length := List.length_pos.mpr hne
  have hlength : (readBatches maxPartitionSize pre).length = pre.length :=
    (cutReadBatches_invariant pre).1
  have hnext : ∀ (current' : Nat) partitions',
      (cutReadBatch maxPartitionSize (cutReadBatches maxPartitionSize pre).1 size).2 = current' →
      current' < 2 ^ 63 →
      batchStarts (readBatches maxPartitionSize pre ++
        [(cutReadBatch maxPartitionSize (cutReadBatches maxPartitionSize pre).1 size).1]) =
        startsOrZero partitions' →
      CutSimulation maxPartitionSize (pre ++ [size]) current' partitions' :=
    fun _ _ h1 h2 h3 => ⟨by simp, by simpa using h1, h2, by simpa [readBatches] using h3⟩
  rw [batchStarts_append_singleton (getLast?_readBatches hne), hstarts, hlength, cutReadBatch_eq,
    hcurrent] at hnext
  simp only [partitionLoop, Nat.mod_eq_of_lt (show current + size < 2 ^ 64 by omega),
    Nat.mod_eq_of_lt (show size < 2 ^ 64 by omega), List.length_append, List.length_singleton]
  by_cases hcut : maxPartitionSize ≤ current + size
  · rw [if_pos (by omega)]
    simp only [if_pos hcut, Nat.succ_ne_self, if_false] at hnext
    exact ⟨size, _, rfl, hnext size _ rfl hsize (startsOrZero_cut partitions hpos).symm⟩
  · rw [if_neg (by omega)]
    simp only [if_neg hcut, if_true, List.append_nil] at hnext
    exact ⟨current + size, partitions, rfl, hnext _ _ (by simp) (by omega) rfl⟩

/-- From a simulated prefix on, the read starts of the whole list are the upload's. -/
theorem CutSimulation.run (hceil : 1 ≤ maxPartitionSize) (hmax : maxPartitionSize < 2 ^ 63)
    (rest : List Nat) (hrest : ∀ s ∈ rest, s < 2 ^ 63) {pre : List Nat} {current : Nat}
    {partitions : List Nat} (h : CutSimulation maxPartitionSize pre current partitions) :
    batchStarts (readBatches maxPartitionSize (pre ++ rest)) =
      startsOrZero (partitionLoop ((maxPartitionSize - 1) % 2 ^ 64).toNat pre.length current
        partitions rest) := by
  induction rest generalizing pre current partitions with
  | nil => simpa [partitionLoop] using h.starts_eq
  | cons size rest ih =>
      obtain ⟨current', partitions', hloop, h'⟩ := h.step hceil hmax (hrest size (.head _)) rest
      rw [hloop, ← ih (fun s hs => hrest s (.tail _ hs)) h', List.append_assoc, List.singleton_append]

end Batches

/-- The read batches of `TransferFromServerImpl` with ceiling `C` start where the partitions of
`PartitionTransferToServer` with ceiling `C - 1` do, or, with ceiling `0`, at every handle. Sizes
and ceiling are `int64`s, below `2 ^ 63`. -/
theorem readBatches_starts_eq_partitions (maxPartitionSize : Int) (sizes : List Nat)
    (hceil : 0 ≤ maxPartitionSize) (hmax : maxPartitionSize < 2 ^ 63)
    (hsizes : ∀ s ∈ sizes, s < 2 ^ 63) (hne : sizes ≠ []) :
    batchStarts (readBatches maxPartitionSize sizes) =
      if maxPartitionSize = 0 then List.range sizes.length
      else partitionTransferToServer (maxPartitionSize - 1) sizes := by
  split_ifs with hzero
  · subst hzero
    exact batchStarts_readBatches_zero sizes
  · obtain ⟨size, rest, rfl⟩ := List.exists_cons_of_ne_nil hne
    obtain ⟨current, partitions, hloop, h⟩ :=
      @CutSimulation.first maxPartitionSize size (hsizes size (.head _)) rest
    rw [partitionTransferToServer_eq, hloop,
      ← CutSimulation.run (by omega) hmax rest (fun s hs => hsizes s (.tail _ hs)) h]
    rfl

theorem readBatches_starts_eq_partitions_two :
    0 ≤ (2 : Int) ∧ (2 : Int) < 2 ^ 63 ∧ (∀ s ∈ [1, 1], s < 2 ^ 63) ∧ [1, 1] ≠ [] ∧
      batchStarts (readBatches 2 [1, 1]) = partitionTransferToServer 1 [1, 1] :=
  ⟨by decide, by decide, by decide, by decide,
    readBatches_starts_eq_partitions 2 [1, 1] (by decide) (by decide) (by decide) (by decide)⟩

/-- Two handles of one byte each under a ceiling of two: the second one's sum reaches the
ceiling, so the download opens a batch at it, while the upload, whose sum only reaches the
ceiling, keeps both tensors in one partition. -/
theorem readBatches_starts_ne_partitions :
    batchStarts (readBatches 2 [1, 1]) = [0, 1] ∧ partitionTransferToServer 2 [1, 1] = [0] := by
  decide

/-! ### The model -/

/-- A session of `TransferFromServerImpl`: the one the cache hands the `SessionMap` of batch
`batch` for `target`. -/
structure ReadSession where
  batch : Nat
  target : String
  deriving DecidableEq, Repr

/-- A session's `XRTReadLiteral` nodes, each fed a handle. -/
abbrev ReadWork (V : Type) := SessionWork (SessionNode ReadSession) V

/-- What the first loop of `TransferFromServerImpl` carries: the index of `session_maps.back()`,
`current_size` and `session_work_map`. -/
structure ReadLoop (V : Type) where
  batch : Nat
  currentSize : Int
  works : List (ReadSession × ReadWork V)

/-- A call of `TransferFromServerImpl`, logging the `session->Run`s it issues. -/
abbrev ReadM (V : Type) := SessionM (List (ReadSession × ReadWork V))

variable {V L : Type}

/-- One pass of the first loop of `TransferFromServerImpl`, on the handle `entry.2` at `entry.1`. -/
def readHandle (opts : Options) (maxPartitionSize : Int) (loop : ReadLoop V)
    (entry : Nat × XrtData V) : Except Fault (ReadLoop V) := do
  let shapeSize ← entry.2.shape.byteSizeOfElements
  let state := cutReadBatch maxPartitionSize (loop.batch, loop.currentSize) shapeSize
  let target ← opts.sessionTarget entry.2.device
  let session : ReadSession := ⟨state.1, target⟩
  pure ⟨state.1, state.2, updateWork session (fun work =>
    { work.feedNode session entry.2.handle with indexMapping := work.indexMapping ++ [entry.1] })
    loop.works⟩

/-- A pass of the second loop: run the session's read nodes and decode each output into its
caller's literal. `decode` is `LiteralProto::ParseFromString` then
`Literal::CreateFromProto(...).ValueOrDie()`, both outside this repository, which end the call
on a malformed response. -/
def readSession (readLiteral : V → String) (decode : String → Except Fault L)
    (run : ReadSession × ReadWork V) : ReadM V (List (Nat × Option L)) := do
  issueRun run
  let outputs ← SessionM.ofExcept (run.2.fetch readLiteral)
  SessionM.ofExcept (xlaCheck (outputs.length = run.2.outputsHandles.length)
    "outputs.size() == session_work.second.outputs_handles.size()")
  SessionM.ofExcept (outputs.enum.mapM fun entry => do
    let li ← vectorAt "index_mapping" run.2.indexMapping entry.1
    let literal ← decode entry.2
    pure (li, some literal))

/-- `TransferFromServerImpl`. `readLiteral` is what an `XRTReadLiteral` node outputs for a
handle, the serialized `LiteralProto` of its value, and `order` the order in which the
`std::map` walks the sessions. A result no pass writes stays a default literal, `none`. -/
def transferFromServerImpl (opts : Options) (readLiteral : V → String)
    (decode : String → Except Fault L)
    (order : List (ReadSession × ReadWork V) → List (ReadSession × ReadWork V))
    (maxPartitionSize : Int) (handles : List (XrtData V)) : ReadM V (List (Option L)) := do
  let loop ← SessionM.ofExcept (handles.enum.foldlM (readHandle opts maxPartitionSize) ⟨0, 0, []⟩)
  let writes ← (order loop.works).mapM (readSession readLiteral decode)
  pure (scatter (List.replicate handles.length none) writes.flatten)

/-! ### Every handle read once, in a batch of bounded size -/

theorem cutReadBatches_prefix (maxPartitionSize : Int) (l : List Nat) :
    ∀ r : List Nat, ∃ rest, (cutReadBatches maxPartitionSize (l ++ r)).2 =
      (cutReadBatches maxPartitionSize l).2 ++ rest := by
  intro r
  induction r using List.reverseRecOn with
  | nil => exact ⟨[], by simp⟩
  | append_singleton r x ih =>
      obtain ⟨rest, hrest⟩ := ih
      exact ⟨rest ++ _, by rw [← List.append_assoc, cutReadBatches_append_singleton, hrest,
        List.append_assoc]⟩

/-- Handle `k`'s batch is the one the cut opens or keeps at it. -/
theorem getElem?_readBatches {maxPartitionSize : Int} {sizes : List Nat} {k size : Nat}
    (hsize : sizes[k]? = some size) : (readBatches maxPartitionSize sizes)[k]? =
      some (cutReadBatch maxPartitionSize (cutReadBatches maxPartitionSize (sizes.take k)).1 size).1 := by
  obtain ⟨rest, hrest⟩ := cutReadBatches_prefix maxPartitionSize (sizes.take (k + 1)) (sizes.drop (k + 1))
  have hk := (List.getElem?_eq_some_iff.mp hsize).1
  have hlength : (cutReadBatches maxPartitionSize (sizes.take k)).2.length = k := by
    rw [(cutReadBatches_invariant _).1, List.length_take]
    omega
  rw [List.take_append_drop] at hrest
  rw [readBatches, hrest, List.take_succ, hsize, Option.toList_some, cutReadBatches_append_singleton,
    List.append_assoc, List.getElem?_append_right (by omega), hlength, Nat.sub_self]
  simp

section Reads

variable (opts : Options) (maxPartitionSize : Int) (handles : List (XrtData V)) (sizes : List Nat)

/-- Handle `i` belongs to `session`: the session of its target in its size batch. -/
def ReadKeyed (i : Nat) (session : ReadSession) : Prop :=
  ∃ handle, handles[i]? = some handle ∧ opts.sessionTarget handle.device = .ok session.target ∧
    (readBatches maxPartitionSize sizes)[i]? = some session.batch

/-- What handle `i` feeds its read node. -/
def readFeeds (i : Nat) : List V := (handles[i]?.map XrtData.handle).toList

/-- What the first loop of `TransferFromServerImpl` keeps after `count` handles. -/
def ReadInv (count : Nat) (loop : ReadLoop V) : Prop :=
  (loop.batch, loop.currentSize) = (cutReadBatches maxPartitionSize (sizes.take count)).1 ∧
    Grouped (ReadKeyed opts maxPartitionSize handles sizes) (readFeeds handles) count loop.works

variable {opts maxPartitionSize handles sizes}

theorem readHandle_step
    (hsizes : handles.mapM (fun handle => handle.shape.byteSizeOfElements) = .ok sizes)
    (hdevices : ∀ handle ∈ handles, ∃ target, opts.sessionTarget handle.device = .ok target)
    {k : Nat} {handle : XrtData V} (hk : handles[k]? = some handle) {loop : ReadLoop V}
    (hinv : ReadInv opts maxPartitionSize handles sizes k loop) :
    ∃ loop', readHandle opts maxPartitionSize loop (k, handle) = .ok loop' ∧
      ReadInv opts maxPartitionSize handles sizes (k + 1) loop' := by
  obtain ⟨size, hsize, hbytes⟩ := getElem?_of_mapM_eq_ok hsizes hk
  obtain ⟨target, htarget⟩ := hdevices handle (List.getElem?_mem hk)
  have hcut : (cutReadBatches maxPartitionSize (sizes.take (k + 1))).1 =
      cutReadBatch maxPartitionSize (loop.batch, loop.currentSize) size := by
    rw [List.take_succ, hsize, Option.toList_some, cutReadBatches_append_singleton, hinv.1]
  refine ⟨_, by simp only [readHandle, hbytes, htarget, ok_bind]; rfl, hcut.symm, hinv.2.add ?_ ?_⟩
  · exact ⟨handle, hk, htarget, by rw [getElem?_readBatches hsize, ← hinv.1]⟩
  · intro feeds indexMapping
    rw [feedNode_workOf]
    simp [readFeeds, hk, workOf]

/-- The literal each handle should read back: its read output, decoded. -/
def readResults (readLiteral : V → String) (decode : String → Except Fault L)
    (handles : List (XrtData V)) : List (Option L) :=
  handles.map fun handle => (decode (readLiteral handle.handle)).toOption

/-- A session's run reads back the literal of each of its callers. -/
theorem readSession_workOf {readLiteral : V → String} {decode : String → Except Fault L}
    (hdecode : ∀ handle ∈ handles, ∃ literal, decode (readLiteral handle.handle) = .ok literal)
    {session : ReadSession} {indexMapping : List Nat}
    (hvalid : ∀ i ∈ indexMapping, ∃ handle, handles[i]? = some handle)
    (log : List (ReadSession × ReadWork V)) :
    (readSession readLiteral decode
        (session, workOf session (indexMapping.flatMap (readFeeds handles)) indexMapping)).run.run log =
      (.ok (indexMapping.map fun li => (li, (readResults readLiteral decode handles)[li]?.join)),
        log ++ [(session, workOf session (indexMapping.flatMap (readFeeds handles)) indexMapping)]) := by
  have houtputs : (indexMapping.flatMap (readFeeds handles)).map readLiteral =
      indexMapping.map fun i => ((handles[i]?).map fun handle => readLiteral handle.handle).getD "" := by
    rw [List.map_flatMap, ← List.flatMap_pure_eq_map]
    refine List.flatMap_congr fun i hi => ?_
    obtain ⟨handle, hk⟩ := hvalid i hi
    simp [readFeeds, hk]
  have hlength := congrArg List.length houtputs
  simp only [List.length_map] at hlength
  simp only [readSession, SessionM.run_bind, SessionM.run_issueRun, fetch_workOf, SessionM.run_ofExcept,
    houtputs, List.length_map, length_workOf_outputsHandles, hlength, xlaCheck_of_true, ok_bind,
    workOf_indexMapping, List.enum_map, mapM_map]
  rw [@mapM_eq_ok_map _ _ _ _ (fun entry => (entry.2, (readResults readLiteral decode handles)[entry.2]?.join))
    _ fun entry hentry => ?_]
  · rw [show (fun entry : Nat × Nat => (entry.2, (readResults readLiteral decode handles)[entry.2]?.join)) =
      (fun li => (li, (readResults readLiteral decode handles)[li]?.join)) ∘ Prod.snd from rfl,
      ← List.map_map, List.enum_map_snd]
  · have hentry := List.mem_enum_iff_getElem?.mp hentry
    obtain ⟨handle, hk⟩ := hvalid _ (List.getElem?_mem hentry)
    obtain ⟨literal, hliteral⟩ := hdecode handle (List.getElem?_mem hk)
    simp [vectorAt, hentry, hk, hliteral, readResults, Except.toOption]

end Reads

/-- `TransferFromServerImpl` returns, for every list of handles on any devices and every
ceiling, the decoded read output of each handle at the handle's position. Each handle is read
by exactly one `session->Run`, no two runs share a session, and the handles of a run are all
on its session's target and in its size batch, a batch whose byte sizes sum below the ceiling
unless it holds a single handle. -/
theorem transferFromServerImpl_reads_batched (opts : Options) (readLiteral : V → String)
    (decode : String → Except Fault L)
    {order : List (ReadSession × ReadWork V) → List (ReadSession × ReadWork V)}
    (horder : ∀ works, (order works).Perm works) (maxPartitionSize : Int)
    (handles : List (XrtData V)) (sizes : List Nat)
    (hsizes : handles.mapM (fun handle => handle.shape.byteSizeOfElements) = .ok sizes)
    (hdevices : ∀ handle ∈ handles, ∃ target, opts.sessionTarget handle.device = .ok target)
    (hdecode : ∀ handle ∈ handles, ∃ literal, decode (readLiteral handle.handle) = .ok literal) :
    ∃ log, (transferFromServerImpl opts readLiteral decode order maxPartitionSize handles).run.run [] =
        (.ok (readResults readLiteral decode handles), log) ∧
      (log.map Prod.fst).Nodup ∧
      (log.flatMap fun run => run.2.indexMapping).Perm (List.range handles.length) ∧
      ∀ run ∈ log, ∀ i ∈ run.2.indexMapping, ∃ handle, handles[i]? = some handle ∧
        opts.sessionTarget handle.device = .ok run.1.target ∧
        (readBatches maxPartitionSize sizes)[i]? = some run.1.batch ∧
        ((batchSizes sizes (readBatches maxPartitionSize sizes) run.1.batch).length = 1 ∨
          ((batchSizes sizes (readBatches maxPartitionSize sizes) run.1.batch).sum : Int) <
            maxPartitionSize) := by
  obtain ⟨loop, hloop, -, hgrouped⟩ := foldlM_enum_of_step handles
    (fun k handle loop hk hinv => readHandle_step hsizes hdevices hk hinv)
    (⟨rfl, grouped_nil _ _⟩ : ReadInv opts maxPartitionSize handles sizes 0 ⟨0, 0, []⟩)
  have hrun : ∀ p ∈ order loop.works, ∀ log, (readSession readLiteral decode p).run.run log =
      (.ok (p.2.indexMapping.map fun li => (li, (readResults readLiteral decode handles)[li]?.join)),
        log ++ [p]) := by
    rintro ⟨session, work⟩ hp log
    obtain ⟨hwork, hkeys⟩ := hgrouped.work _ ((horder _).subset hp)
    dsimp only at hwork hkeys
    rw [hwork]
    exact readSession_workOf hdecode (fun i hi => (hkeys i hi).imp fun _ h => h.1) log
  refine ⟨order loop.works, ?_, ((horder _).map Prod.fst).nodup_iff.mpr hgrouped.nodup,
    ((horder _).flatMap_right _).trans hgrouped.cover, fun run hrun i hi => ?_⟩
  · have hscatter : scatter (List.replicate handles.length none) ((order loop.works).map fun p =>
        p.2.indexMapping.map fun li => (li, (readResults readLiteral decode handles)[li]?.join)).flatten =
        readResults readLiteral decode handles := by
      refine scatter_sessions hgrouped.cover (horder _) (by simp [readResults]) none _ fun i hi => ?_
      have hk : handles[i]? = some handles[i] := List.getElem?_eq_getElem hi
      obtain ⟨literal, hliteral⟩ := hdecode handles[i] (List.getElem?_mem hk)
      simp [readResults, hk, hliteral, Except.toOption]
    simp only [transferFromServerImpl, SessionM.run_bind, SessionM.run_ofExcept, hloop,
      run_mapM_sessions _ hrun, SessionM.run_pure, hscatter]
  · obtain ⟨-, hkeys⟩ := hgrouped.work run ((horder _).subset hrun)
    obtain ⟨handle, hk, htarget, hbatch⟩ := hkeys i hi
    obtain ⟨size, hsize, -⟩ := getElem?_of_mapM_eq_ok hsizes hk
    refine ⟨handle, hk, htarget, hbatch, ?_⟩
    have hmem := mem_batchSizes hsize hbatch
    rcases @readBatches_bounded maxPartitionSize sizes run.1.batch with h | h
    · exact .inl (le_antisymm h (List.length_pos_of_mem hmem))
    · exact .inr h

/-- Three handles on the two cores of one worker under a ceiling of 10 bytes: an `F32[2]`, then
two `F32[1]`; the second opens a new batch and the third joins it. -/
def threeReads : List (XrtData Nat) :=
  [⟨⟨"TPU", 0⟩, .array .F32 [2] [0], 1⟩, ⟨⟨"TPU", 1⟩, .array .F32 [1] [0], 2⟩,
    ⟨⟨"TPU", 0⟩, .array .F32 [1] [0], 3⟩]

theorem transferFromServerImpl_reads_batched_threeReads :
    readBatches 10 [8, 4, 4] = [0, 1, 1] ∧
      ∃ log, (transferFromServerImpl sharedWorkerOptions toString Except.ok id 10 threeReads).run.run [] =
          (.ok (readResults toString Except.ok threeReads), log) ∧
        (log.map Prod.fst).Nodup ∧
        (log.flatMap fun run => run.2.indexMapping).Perm (List.range threeReads.length) ∧
        ∀ run ∈ log, ∀ i ∈ run.2.indexMapping, ∃ handle, threeReads[i]? = some handle ∧
          sharedWorkerOptions.sessionTarget handle.device = .ok run.1.target ∧
          (readBatches 10 [8, 4, 4])[i]? = some run.1.batch ∧
          ((batchSizes [8, 4, 4] (readBatches 10 [8, 4, 4]) run.1.batch).length = 1 ∨
            ((batchSizes [8, 4, 4] (readBatches 10 [8, 4, 4]) run.1.batch).sum : Int) < 10) :=
  ⟨by decide, transferFromServerImpl_reads_batched sharedWorkerOptions toString Except.ok
    (fun works => List.Perm.refl works) 10 threeReads [8, 4, 4] rfl
    (fun handle hhandle => ⟨"grpc://localhost:8470", by
      simp only [threeReads, List.mem_cons, List.mem_singleton, List.not_mem_nil, or_false] at hhandle
      rcases hhandle with rfl | rfl | rfl <;> rfl⟩)
    (fun _ _ => ⟨_, rfl⟩)⟩

/-! ## `DeconstructTuple` -/

/-- A session's `XRTSubTuple` nodes, each fed a tuple handle and an element index. The two
placeholders of a node are fed together, so the model feeds the node the pair. -/
abbrev TupleWork (V : Type) := SessionWork (SessionNode String) (V × Nat)

/-- A call of `DeconstructTuple`, logging the `session->Run`s it issues. -/
abbrev TupleM (V : Type) := SessionM (List (String × TupleWork V))

/-- One pass of the first loop of `DeconstructTuple`, on the tuple `entry.2` at `entry.1`: its
session, its arity in `tuple_elements_count` (which the loop fills in order), and a sub-tuple
node per element. -/
def deconstructStep (opts : Options) (state : List (String × TupleWork V) × List Nat)
    (entry : Nat × XrtData V) : Except Fault (List (String × TupleWork V) × List Nat) := do
  let session ← opts.sessionTarget entry.2.device
  let count ← entry.2.shape.tupleElementCount
  pure (updateWork session (fun work => (List.range count).foldl
      (fun work j => work.feedNode session (entry.2.handle, j))
      { work with indexMapping := work.indexMapping ++ [entry.1] }) state.1,
    state.2 ++ [count])

/-- The inner loops of a session's pass over caller `li`: the outputs from `state.1` on are the
elements of tuple `li`, in order. -/
def cutTupleResults (tuples : List (XrtData V)) (counts : List Nat) (outputs : List V)
    (state : Nat × List (Nat × List (XrtData V))) (li : Nat) :
    Except Fault (Nat × List (Nat × List (XrtData V))) := do
  let tuple ← vectorAt "tuples" tuples li
  let count ← vectorAt "tuple_elements_count" counts li
  let tupleResults ← (List.range count).mapM fun (i : Nat) => do
    let shape ← tuple.shape.getTupleElementShape i
    let output ← vectorAt "outputs" outputs (state.1 + i)
    pure (⟨tuple.device, shape, output⟩ : XrtData V)
  pure (state.1 + count, state.2 ++ [(li, tupleResults)])

/-- A pass of the second loop of `DeconstructTuple`: run the session's sub-tuple nodes and cut
the outputs back into its callers' tuples. Modelled from the spec: `XRTSubTuple` (TensorFlow's
XRT, not in this repository) outputs the handle of the element its node was fed. -/
def deconstructSession (server : Server V) (tuples : List (XrtData V)) (counts : List Nat)
    (run : String × TupleWork V) : TupleM V (List (Nat × List (XrtData V))) := do
  issueRun run
  let outputs ← SessionM.ofExcept (run.2.fetch fun feed => server.element feed.1 feed.2)
  SessionM.ofExcept (xlaCheck (outputs.length = run.2.outputsHandles.length)
    "outputs.size() == session_work.second.outputs_handles.size()")
  let cut ← SessionM.ofExcept
    (run.2.indexMapping.foldlM (cutTupleResults tuples counts outputs) (0, []))
  pure cut.2

/-- `DeconstructTuple`: `order` is the order in which the `std::map` walks the sessions. -/
def deconstructTuple (opts : Options) (server : Server V)
    (order : List (String × TupleWork V) → List (String × TupleWork V))
    (tuples : List (XrtData V)) : TupleM V (List (List (XrtData V))) := do
  let state ← SessionM.ofExcept (tuples.enum.foldlM (deconstructStep opts) ([], []))
  let writes ← (order state.1).mapM (deconstructSession server tuples state.2)
  pure (scatter (List.replicate tuples.length []) writes.flatten)

/-- What `DeconstructTuple` should give for a tuple: per element, in order, the handle
`XRTSubTuple` returns for it, with the element's shape, on the tuple's device. -/
def Server.subTuples (server : Server V) (tuple : XrtData V) : List (XrtData V) :=
  match tuple.shape with
  | .tuple elements =>
      elements.enum.map fun element => ⟨tuple.device, element.2, server.element tuple.handle element.1⟩
  | .array .. => []

section Tuples

variable (opts : Options) (tuples : List (XrtData V)) (counts : List Nat)

/-- Tuple `i` belongs to the session of its target. -/
def TupleKeyed (i : Nat) (session : String) : Prop :=
  ∃ tuple, tuples[i]? = some tuple ∧ opts.sessionTarget tuple.device = .ok session

/-- What tuple `i` feeds its sub-tuple nodes: its handle with each element index. -/
def tupleFeeds (i : Nat) : List (V × Nat) :=
  ((tuples[i]?).map fun tuple => (List.range (counts.getD i 0)).map (tuple.handle, ·)).getD []

/-- What the first loop of `DeconstructTuple` keeps after `count` tuples. -/
def TupleInv (count : Nat) (state : List (String × TupleWork V) × List Nat) : Prop :=
  state.2 = counts.take count ∧ Grouped (TupleKeyed opts tuples) (tupleFeeds tuples counts) count state.1

/-- The outputs of tuple `i`'s sub-tuple nodes. -/
def tupleOutputs (server : Server V) (i : Nat) : List V :=
  (tupleFeeds tuples counts i).map fun feed => server.element feed.1 feed.2

variable {opts tuples counts}

theorem deconstructStep_step
    (hcounts : tuples.mapM (fun tuple => tuple.shape.tupleElementCount) = .ok counts)
    (hdevices : ∀ tuple ∈ tuples, ∃ target, opts.sessionTarget tuple.device = .ok target)
    {k : Nat} {tuple : XrtData V} (hk : tuples[k]? = some tuple)
    {state : List (String × TupleWork V) × List Nat} (hinv : TupleInv opts tuples counts k state) :
    ∃ state', deconstructStep opts state (k, tuple) = .ok state' ∧
      TupleInv opts tuples counts (k + 1) state' := by
  obtain ⟨count, hcount, harity⟩ := getElem?_of_mapM_eq_ok hcounts hk
  obtain ⟨target, htarget⟩ := hdevices tuple (List.getElem?_mem hk)
  refine ⟨_, by simp only [deconstructStep, htarget, harity, ok_bind]; rfl,
    by rw [List.take_succ, hcount, Option.toList_some, hinv.1], hinv.2.add ⟨tuple, hk, htarget⟩ ?_⟩
  intro feeds indexMapping
  have hfold := foldl_feedNode_workOf target (indexMapping ++ [k])
    ((List.range count).map (tuple.handle, ·)) feeds
  rw [List.foldl_map] at hfold
  have hfeeds : tupleFeeds tuples counts k = (List.range count).map (tuple.handle, ·) := by
    simp [tupleFeeds, hk, hcount]
  exact hfeeds ▸ hfold

theorem tupleElementCount_eq_ok {shape : Shape} {count : Nat} (h : shape.tupleElementCount = .ok count) :
    ∃ elements, shape = .tuple elements ∧ elements.length = count := by
  cases shape with
  | tuple elements => exact ⟨elements, rfl, by injection h⟩
  | array => cases h

/-- The inner loop over a tuple's elements, its outputs from `offset` on, gives its sub-tuples. -/
theorem mapM_subTuples (server : Server V) {tuple : XrtData V} {elements : List Shape}
    (hshape : tuple.shape = .tuple elements) {outputs : List V} {offset : Nat}
    (houtputs : ∀ j < elements.length, outputs[offset + j]? = some (server.element tuple.handle j)) :
    (List.range elements.length).mapM (fun (i : Nat) => do
      let shape ← tuple.shape.getTupleElementShape i
      let output ← vectorAt "outputs" outputs (offset + i)
      pure (⟨tuple.device, shape, output⟩ : XrtData V)) = .ok (server.subTuples tuple) := by
  rw [← List.enum_map_fst elements, mapM_map, @mapM_eq_ok_map _ _ _ _
    (fun element => ⟨tuple.device, element.2, server.element tuple.handle element.1⟩) _ ?_]
  · simp [Server.subTuples, hshape]
  · intro element helement
    have hget := List.mem_enum_iff_getElem?.mp helement
    have hlt := List.fst_lt_of_mem_enum helement
    simp only [Function.comp_apply, hshape, Shape.getTupleElementShape, dif_pos hlt, ok_bind,
      vectorAt, houtputs _ hlt]
    rw [List.getElem?_eq_getElem hlt, Option.some.injEq] at hget
    rw [hget]
    rfl

/-- The inner loops of a session's pass cut its outputs back into its callers' sub-tuples. -/
theorem foldlM_cutTupleResults (server : Server V)
    (hcounts : tuples.mapM (fun tuple => tuple.shape.tupleElementCount) = .ok counts) :
    ∀ (indexMapping : List Nat) (pre : List V) (acc : List (Nat × List (XrtData V))),
      (∀ li ∈ indexMapping, ∃ tuple, tuples[li]? = some tuple) →
      indexMapping.foldlM (cutTupleResults tuples counts
          (pre ++ indexMapping.flatMap (tupleOutputs tuples counts server))) (pre.length, acc) =
        .ok (pre.length + (indexMapping.flatMap (tupleOutputs tuples counts server)).length,
          acc ++ indexMapping.map fun li => (li, ((tuples[li]?).map server.subTuples).getD []))
  | [], pre, acc, _ => by
      simp only [List.foldlM_nil, List.flatMap_nil, List.length_nil, Nat.add_zero, List.map_nil,
        List.append_nil]
      rfl
  | li :: rest, pre, acc, hvalid => by
      obtain ⟨tuple, hk⟩ := hvalid li (List.mem_cons_self _ _)
      obtain ⟨count, hcount, harity⟩ := getElem?_of_mapM_eq_ok hcounts hk
      obtain ⟨elements, hshape, rfl⟩ := tupleElementCount_eq_ok harity
      have hout : tupleOutputs tuples counts server li =
          (List.range elements.length).map (server.element tuple.handle) := by
        simp [tupleOutputs, tupleFeeds, hk, hcount]
      have hcut : cutTupleResults tuples counts
          (pre ++ (li :: rest).flatMap (tupleOutputs tuples counts server)) (pre.length, acc) li =
          .ok (pre.length + elements.length, acc ++ [(li, server.subTuples tuple)]) := by
        have htuple : vectorAt "tuples" tuples li = .ok tuple := by simp [vectorAt, hk]
        have hcountAt : vectorAt "tuple_elements_count" counts li = .ok elements.length := by
          simp [vectorAt, hcount]
        rw [cutTupleResults, htuple, ok_bind, hcountAt, ok_bind, mapM_subTuples server hshape fun j hj => ?_]
        · rfl
        · rw [List.flatMap_cons, List.getElem?_append_right (by omega), Nat.add_sub_cancel_left,
            List.getElem?_append_left (by simpa [hout] using hj), hout]
          simp [hj]
      have hrest := foldlM_cutTupleResults server hcounts rest (pre ++ tupleOutputs tuples counts server li)
        (acc ++ [(li, server.subTuples tuple)]) fun l hl => hvalid l (List.mem_cons_of_mem _ hl)
      have hlength : (pre ++ tupleOutputs tuples counts server li).length = pre.length + elements.length := by
        simp [hout]
      rw [hlength, List.append_assoc] at hrest
      rw [List.foldlM_cons, hcut, ok_bind, List.flatMap_cons, hrest]
      simp [hk, hout, Nat.add_assoc]

/-- A session's run gives each of its callers the sub-tuples of its tuple. -/
theorem deconstructSession_workOf (server : Server V)
    (hcounts : tuples.mapM (fun tuple => tuple.shape.tupleElementCount) = .ok counts)
    {session : String} {indexMapping : List Nat}
    (hvalid : ∀ li ∈ indexMapping, ∃ tuple, tuples[li]? = some tuple)
    (log : List (String × TupleWork V)) :
    (deconstructSession server tuples counts
        (session, workOf session (indexMapping.flatMap (tupleFeeds tuples counts)) indexMapping)).run.run log =
      (.ok (indexMapping.map fun li => (li, ((tuples[li]?).map server.subTuples).getD [])),
        log ++ [(session, workOf session (indexMapping.flatMap (tupleFeeds tuples counts)) indexMapping)]) := by
  have hcut := foldlM_cutTupleResults server hcounts indexMapping [] [] hvalid
  simp only [List.nil_append, List.length_nil, Nat.zero_add] at hcut
  have houtputs : (indexMapping.flatMap (tupleFeeds tuples counts)).map (fun feed => server.element feed.1 feed.2) =
      indexMapping.flatMap (tupleOutputs tuples counts server) := List.map_flatMap _ _ _
  have hlength : (indexMapping.flatMap (tupleOutputs tuples counts server)).length =
      (indexMapping.flatMap (tupleFeeds tuples counts)).length := by
    rw [← houtputs, List.length_map]
  simp only [deconstructSession, SessionM.run_bind, SessionM.run_issueRun, fetch_workOf,
    SessionM.run_ofExcept, houtputs, hlength, length_workOf_outputsHandles, xlaCheck_of_true, ok_bind,
    workOf_indexMapping, hcut, SessionM.run_pure]

end Tuples

/-- `DeconstructTuple` gives, for every list of tuple handles on any devices, in whatever order
its sessions go, each tuple's list of exactly `TupleElementCount` handles, the `j`-th being the
output of the sub-tuple node fed the tuple's handle and `j`, of shape
`GetTupleElementShape(shape, j)` and on the tuple's device. -/
theorem deconstructTuple_eq_subTuples (opts : Options) (server : Server V)
    {order : List (String × TupleWork V) → List (String × TupleWork V)}
    (horder : ∀ works, (order works).Perm works) (tuples : List (XrtData V)) (counts : List Nat)
    (hcounts : tuples.mapM (fun tuple => tuple.shape.tupleElementCount) = .ok counts)
    (hdevices : ∀ tuple ∈ tuples, ∃ target, opts.sessionTarget tuple.device = .ok target) :
    (∃ log, (deconstructTuple opts server order tuples).run.run [] =
        (.ok (tuples.map server.subTuples), log)) ∧
      ∀ tuple ∈ tuples, tuple.shape.tupleElementCount = .ok (server.subTuples tuple).length ∧
        ∀ j (element : XrtData V), (server.subTuples tuple)[j]? = some element →
          element.device = tuple.device ∧ tuple.shape.getTupleElementShape j = .ok element.shape ∧
            element.handle = server.element tuple.handle j := by
  refine ⟨?_, fun tuple htuple => ?_⟩
  · obtain ⟨state, hstate, hcounted, hgrouped⟩ := foldlM_enum_of_step tuples
      (fun k tuple state hk hinv => deconstructStep_step hcounts hdevices hk hinv)
      (⟨rfl, grouped_nil _ _⟩ : TupleInv opts tuples counts 0 ([], []))
    have hrun : ∀ p ∈ order state.1, ∀ log, (deconstructSession server tuples state.2 p).run.run log =
        (.ok (p.2.indexMapping.map fun li => (li, ((tuples[li]?).map server.subTuples).getD [])),
          log ++ [p]) := by
      rintro ⟨session, work⟩ hp log
      obtain ⟨hwork, hkeys⟩ := hgrouped.work _ ((horder _).subset hp)
      dsimp only at hwork hkeys
      rw [hwork, hcounted, List.take_of_length_le (length_of_mapM_eq_ok hcounts).le]
      exact deconstructSession_workOf server hcounts (fun i hi => (hkeys i hi).imp fun _ h => h.1) log
    have hscatter : scatter (List.replicate tuples.length []) ((order state.1).map fun p =>
        p.2.indexMapping.map fun li => (li, ((tuples[li]?).map server.subTuples).getD [])).flatten =
        tuples.map server.subTuples :=
      scatter_sessions hgrouped.cover (horder _) (by simp) [] _ fun i hi => by
        simp [List.getElem?_eq_getElem hi]
    exact ⟨order state.1, by simp only [deconstructTuple, SessionM.run_bind, SessionM.run_ofExcept,
      hstate, run_mapM_sessions _ hrun, SessionM.run_pure, hscatter]⟩
  · obtain ⟨k, hk⟩ := List.mem_iff_getElem?.mp htuple
    obtain ⟨count, -, harity⟩ := getElem?_of_mapM_eq_ok hcounts hk
    obtain ⟨elements, hshape, rfl⟩ := tupleElementCount_eq_ok harity
    refine ⟨by simp [Server.subTuples, hshape, Shape.tupleElementCount], fun j element hj => ?_⟩
    simp only [Server.subTuples, hshape, List.getElem?_map, List.getElem?_enum, Option.map_map] at hj
    obtain ⟨shape, hshapeAt, rfl⟩ := Option.map_eq_some'.mp hj
    obtain ⟨hlt, hget⟩ := List.getElem?_eq_some_iff.mp hshapeAt
    simp [Shape.getTupleElementShape, hshape, hlt, hget]

/-- Tuples of arities two, zero and one on the two cores of one worker. -/
def mixedTuples : List (XrtData Nat) :=
  [⟨⟨"TPU", 0⟩, .tuple [.array .F32 [2] [0], .array .S32 [] []], 1⟩, ⟨⟨"TPU", 1⟩, .tuple [], 2⟩,
    ⟨⟨"TPU", 0⟩, .tuple [.array .F32 [1] [0]], 3⟩]

theorem deconstructTuple_eq_subTuples_mixed :
    (∃ log, (deconstructTuple sharedWorkerOptions numberServer id mixedTuples).run.run [] =
        (.ok (mixedTuples.map numberServer.subTuples), log)) ∧
      ∀ tuple ∈ mixedTuples, tuple.shape.tupleElementCount = .ok (numberServer.subTuples tuple).length ∧
        ∀ j (element : XrtData Nat), (numberServer.subTuples tuple)[j]? = some element →
          element.device = tuple.device ∧ tuple.shape.getTupleElementShape j = .ok element.shape ∧
            element.handle = numberServer.element tuple.handle j :=
  deconstructTuple_eq_subTuples sharedWorkerOptions numberServer (fun works => List.Perm.refl works)
    mixedTuples [2, 0, 1] rfl (fun tuple htuple => ⟨"grpc://localhost:8470", by
      simp only [mixedTuples, List.mem_cons, List.mem_singleton, List.not_mem_nil, or_false] at htuple
      rcases htuple with rfl | rfl | rfl <;> rfl⟩)

/-- The sub-tuples of the tuples of arities two, zero and one. -/
example : mixedTuples.map numberServer.subTuples =
    [[⟨⟨"TPU", 0⟩, .array .F32 [2] [0], 10⟩, ⟨⟨"TPU", 0⟩, .array .S32 [] [], 11⟩], [],
      [⟨⟨"TPU", 0⟩, .array .F32 [1] [0], 30⟩]] := rfl

end XrtClient
