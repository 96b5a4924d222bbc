import XrtClient.Basic
import Mathlib.Data.Multiset.Basic
import Mathlib.Algebra.BigOperators.Group.List
import Mathlib.Tactic.Abel

/-! # Asynchronous handle release

Dropping the last reference to a device value or a compiled program appends its
`{device, handle}` pair to a pending list under `lock_` (`ReleaseXrtData`,
`ReleaseXrtComputation`). A `HandleReleaser` run, started by the triggered task, swaps each
pending list out under the same lock and releases the swapped pairs with one RPC per session
group (`ReleaseHandles`). Any number of producers and runs interleave; `step` is one atomic
action of one of them, and `run` replays a schedule of such actions.

The pairs are conserved: at every state each enqueued pair is counted once, in its pending
list, in the groups a run still holds, or in exactly one issued release RPC (`ledger`).
-/

namespace XrtClient

/-- The two pending lists: `released_data_handles_` and `released_compile_handles_`. -/
inductive HandleKind where
  | data
  | compile
  deriving DecidableEq, Repr

/-- `XrtComputationClient::DeviceHandle`. -/
structure DeviceHandle where
  device : DeviceId
  handle : Int
  deriving DecidableEq, Repr

/-- The release nodes `XRTReleaseAllocationHandle` and `XRTReleaseCompilationHandle`. -/
inductive ReleaseOp where
  | releaseAllocationHandle
  | releaseCompilationHandle
  deriving DecidableEq, Repr

/-- The op generator `HandleReleaser` hands to `ReleaseHandles` for each pending list. -/
def HandleKind.releaseOp : HandleKind → ReleaseOp
  | .data => .releaseAllocationHandle
  | .compile => .releaseCompilationHandle

theorem HandleKind.releaseOp_injective {k k' : HandleKind} (h : k.releaseOp = k'.releaseOp) :
    k = k' := by
  cases k <;> cases k' <;> first | rfl | cases h

/-- One release RPC: the release node of `op`, placed on `device`, fed the handles of
`handles` and run on the session of `target`. -/
structure ReleaseRpc where
  op : ReleaseOp
  target : String
  device : DeviceId
  handles : List DeviceHandle

/-! ## Grouping a drained list by session -/

/-- The grouping loop of `ReleaseHandles`, which looks up each handle's session with
`GetSessionForDevice`. -/
def groupBySession (opts : Options) (handles : List DeviceHandle) :
    Except Fault (List (String × List DeviceHandle)) :=
  handles.foldlM (fun groups handle => do
    let target ← opts.sessionTarget handle.device
    pure (addToGroup target handle groups)) []

/-- A group as `ReleaseHandles` builds it: nonempty, and every handle's session is the
group's target. -/
def GroupedBy (opts : Options) (group : String × List DeviceHandle) : Prop :=
  group.2 ≠ [] ∧ ∀ h ∈ group.2, opts.sessionTarget h.device = .ok group.1

section Grouping

variable {opts : Options}

theorem addToGroup_groupedBy {target : String} {handle : DeviceHandle}
    (htarget : opts.sessionTarget handle.device = .ok target)
    {groups : List (String × List DeviceHandle)} (hgroups : ∀ g ∈ groups, GroupedBy opts g) :
    ∀ g ∈ addToGroup target handle groups, GroupedBy opts g := by
  induction groups with
  | nil => simp [addToGroup, GroupedBy, htarget]
  | cons g rest ih =>
      simp only [addToGroup]
      split
      · next heq =>
          obtain ⟨-, hall⟩ := hgroups g (List.mem_cons_self _ _)
          rintro g' hg'
          rcases List.mem_cons.mp hg' with rfl | hrest
          · refine ⟨by simp, ?_⟩
            simp only [List.mem_append, List.mem_singleton]
            rintro h (hh | rfl)
            · exact hall h hh
            · exact heq ▸ htarget
          · exact hgroups g' (List.mem_cons_of_mem _ hrest)
      · rintro g' hg'
        rcases List.mem_cons.mp hg' with rfl | hrest
        · exact hgroups _ (List.mem_cons_self _ _)
        · exact ih (fun g'' h'' => hgroups g'' (List.mem_cons_of_mem _ h'')) g' hrest

/-- What the grouping loop of `ReleaseHandles` builds from a drained list: one group per
session target, each handle in the group of its own target, and no handle lost or repeated. -/
theorem groupBySession_spec {handles : List DeviceHandle}
    {groups : List (String × List DeviceHandle)}
    (hgroup : groupBySession opts handles = .ok groups) :
    (groups.map Prod.fst).Nodup ∧ (∀ g ∈ groups, GroupedBy opts g) ∧
      (groups.flatMap Prod.snd).Perm handles := by
  suffices ∀ (acc : List (String × List DeviceHandle)) (handles : List DeviceHandle),
      (acc.map Prod.fst).Nodup → (∀ g ∈ acc, GroupedBy opts g) →
      handles.foldlM (fun groups handle => do
        let target ← opts.sessionTarget handle.device
        pure (addToGroup target handle groups)) acc = .ok groups →
      (groups.map Prod.fst).Nodup ∧ (∀ g ∈ groups, GroupedBy opts g) ∧
        (groups.flatMap Prod.snd).Perm (acc.flatMap Prod.snd ++ handles) by
    simpa using this [] handles (by simp) (by simp) hgroup
  intro acc handles
  induction handles generalizing acc with
  | nil =>
      intro hnodup hall h
      cases h
      exact ⟨hnodup, hall, by simp⟩
  | cons handle rest ih =>
      intro hnodup hall h
      simp only [List.foldlM_cons, bind, Except.bind] at h
      cases htarget : opts.sessionTarget handle.device with
      | error e => simp [htarget] at h
      | ok target =>
          simp only [htarget, pure, Except.pure] at h
          obtain ⟨h1, h2, h3⟩ := ih _ (addToGroup_nodup target handle hnodup)
            (addToGroup_groupedBy htarget hall) h
          refine ⟨h1, h2, h3.trans ?_⟩
          simpa using (addToGroup_flatMap target handle acc).append_right rest

end Grouping

/-! ## The releaser system -/

/-- Where one `HandleReleaser` run is. `send` holds the session groups of the list it swapped
that it has not released yet; `failed` is a run that an exception left holding pairs: an
uncaught exception on a triggered-task thread ends the process. -/
inductive ReleaserPc where
  | swap (kind : HandleKind)
  | send (kind : HandleKind) (groups : List (String × List DeviceHandle))
  | done
  | failed (kind : HandleKind) (held : List DeviceHandle)

namespace ReleaserPc

def isFailed : ReleaserPc → Bool
  | .failed .. => true
  | _ => false

/-- `HandleReleaser` releases the data list, then the compile list. -/
def afterRelease : HandleKind → ReleaserPc
  | .data => .swap .compile
  | .compile => .done

/-- `ReleaseHandles` sends nothing when it swapped an empty list. -/
def sending (kind : HandleKind) (groups : List (String × List DeviceHandle)) : ReleaserPc :=
  if groups = [] then afterRelease kind else .send kind groups

/-- The pairs of kind `kind` that the run has swapped out and not yet sent. -/
def holding (kind : HandleKind) : ReleaserPc → List DeviceHandle
  | .send k groups => if k = kind then groups.flatMap Prod.snd else []
  | .failed k held => if k = kind then held else []
  | _ => []

@[simp] theorem holding_swap (kind k : HandleKind) : (swap k).holding kind = [] := rfl

theorem holding_send (kind k : HandleKind) (groups : List (String × List DeviceHandle)) :
    (send k groups).holding kind = if k = kind then groups.flatMap Prod.snd else [] := rfl

theorem holding_failed (kind k : HandleKind) (held : List DeviceHandle) :
    (failed k held).holding kind = if k = kind then held else [] := rfl

theorem holding_sending (kind k : HandleKind) (groups : List (String × List DeviceHandle)) :
    (sending k groups).holding kind = if k = kind then groups.flatMap Prod.snd else [] := by
  unfold sending
  split
  · next h => subst h; cases k <;> simp [afterRelease, holding]
  · rfl

end ReleaserPc

/-- The shared state: the two pending lists, the runs started so far, and the release RPCs
issued so far in issue order. -/
structure Releaser where
  releasedDataHandles : List DeviceHandle
  releasedCompileHandles : List DeviceHandle
  runs : List ReleaserPc
  rpcs : List ReleaseRpc

/-- One atomic action of a producer or of a `HandleReleaser` run. -/
inductive ReleaseEvent where
  | releaseXrtData (device : DeviceId) (handle : Int)
  | releaseXrtComputation (device : DeviceId) (handle : Int)
  | activate
  | swap (run : Nat)
  | send (run : Nat) (group : Nat) (ok : Bool)

namespace Releaser

def init : Releaser := ⟨[], [], [], []⟩

def pending (s : Releaser) : HandleKind → List DeviceHandle
  | .data => s.releasedDataHandles
  | .compile => s.releasedCompileHandles

def setPending (s : Releaser) : HandleKind → List DeviceHandle → Releaser
  | .data, handles => { s with releasedDataHandles := handles }
  | .compile, handles => { s with releasedCompileHandles := handles }

@[simp] theorem pending_setPending (s : Releaser) (k k' : HandleKind) (l : List DeviceHandle) :
    (s.setPending k l).pending k' = if k = k' then l else s.pending k' := by
  cases k <;> cases k' <;> rfl

@[simp] theorem runs_setPending (s : Releaser) (k : HandleKind) (l : List DeviceHandle) :
    (s.setPending k l).runs = s.runs := by
  cases k <;> rfl

@[simp] theorem rpcs_setPending (s : Releaser) (k : HandleKind) (l : List DeviceHandle) :
    (s.setPending k l).rpcs = s.rpcs := by
  cases k <;> rfl

def setRun (s : Releaser) (r : Nat) (pc : ReleaserPc) : Releaser :=
  { s with runs := s.runs.set r pc }

def logRpc (s : Releaser) (rpc : ReleaseRpc) : Releaser :=
  { s with rpcs := s.rpcs ++ [rpc] }

@[simp] theorem pending_setRun (s : Releaser) (r : Nat) (pc : ReleaserPc) (k : HandleKind) :
    (s.setRun r pc).pending k = s.pending k := by
  cases k <;> rfl

@[simp] theorem runs_setRun (s : Releaser) (r : Nat) (pc : ReleaserPc) :
    (s.setRun r pc).runs = s.runs.set r pc := rfl

@[simp] theorem rpcs_setRun (s : Releaser) (r : Nat) (pc : ReleaserPc) :
    (s.setRun r pc).rpcs = s.rpcs := rfl

@[simp] theorem pending_logRpc (s : Releaser) (rpc : ReleaseRpc) (k : HandleKind) :
    (s.logRpc rpc).pending k = s.pending k := by
  cases k <;> rfl

@[simp] theorem runs_logRpc (s : Releaser) (rpc : ReleaseRpc) : (s.logRpc rpc).runs = s.runs :=
  rfl

@[simp] theorem rpcs_logRpc (s : Releaser) (rpc : ReleaseRpc) :
    (s.logRpc rpc).rpcs = s.rpcs ++ [rpc] := rfl

/-- The triggered task starts a `HandleReleaser` run. -/
def startRun (s : Releaser) : Releaser :=
  { s with runs := s.runs ++ [.swap .data] }

/-- No run has died: every action needs a live process. -/
def live (s : Releaser) : Bool := s.runs.all fun pc => !pc.isFailed

/-- `ReleaseHandle`: append the pair to its list under `lock_`. -/
def releaseHandle (s : Releaser) (kind : HandleKind) (handle : DeviceHandle) : Releaser :=
  s.setPending kind (s.pending kind ++ [handle])

/-- The first half of `ReleaseHandles` for run `r`: swap the list out under `lock_`, then
group the swapped pairs by session outside the lock. -/
def drain (opts : Options) (s : Releaser) (r : Nat) (kind : HandleKind) : Releaser :=
  match groupBySession opts (s.pending kind) with
  | .ok groups => (s.setPending kind []).setRun r (.sending kind groups)
  | .error _ => (s.setPending kind []).setRun r (.failed kind (s.pending kind))

/-- The release RPC of group `g` of run `r`; when it fails, `XLA_CHECK_OK` throws and the run
dies holding the groups it has not sent. -/
def sendGroup (s : Releaser) (r : Nat) (kind : HandleKind)
    (groups : List (String × List DeviceHandle)) (g : Nat) (ok : Bool) : Option Releaser :=
  match groups[g]? with
  | some (target, handle :: rest) =>
      let remaining := groups.eraseIdx g
      some ((s.logRpc ⟨kind.releaseOp, target, handle.device, handle :: rest⟩).setRun r
        (if ok then .sending kind remaining else .failed kind (remaining.flatMap Prod.snd)))
  | _ => none

/-- One action. `swap r` and `send r g ok` need run `r` at that point of its code. -/
def step (opts : Options) (s : Releaser) (event : ReleaseEvent) : Option Releaser :=
  if s.live then
    match event with
    | .releaseXrtData device handle => some (s.releaseHandle .data ⟨device, handle⟩)
    | .releaseXrtComputation device handle => some (s.releaseHandle .compile ⟨device, handle⟩)
    | .activate => some s.startRun
    | .swap r =>
        match s.runs[r]? with
        | some (.swap kind) => some (s.drain opts r kind)
        | _ => none
    | .send r g ok =>
        match s.runs[r]? with
        | some (.send kind groups) => s.sendGroup r kind groups g ok
        | _ => none
  else none

/-- Replay a schedule; `none` when some action of it is not enabled. -/
def run (opts : Options) : Releaser → List ReleaseEvent → Option Releaser
  | s, [] => some s
  | s, event :: rest => (s.step opts event).bind (run opts · rest)

/-- The pairs of kind `kind` that went out in a release RPC of that kind's op. -/
def released (s : Releaser) (kind : HandleKind) : List DeviceHandle :=
  (s.rpcs.filter (·.op = kind.releaseOp)).flatMap ReleaseRpc.handles

/-- The swapped-out pairs of kind `kind`: held by a run or gone out in an RPC. -/
def inFlight (s : Releaser) (kind : HandleKind) : Multiset DeviceHandle :=
  (s.runs.map fun pc => (pc.holding kind : Multiset DeviceHandle)).sum + ↑(s.released kind)

/-- Every pair of kind `kind` the state knows of, counted once per place it is in. -/
def ledger (s : Releaser) (kind : HandleKind) : Multiset DeviceHandle :=
  ↑(s.pending kind) + s.inFlight kind

end Releaser

/-- The pair an action enqueues on the list of kind `kind`. -/
def ReleaseEvent.enqueued (kind : HandleKind) : ReleaseEvent → List DeviceHandle
  | .releaseXrtData device handle => if kind = .data then [⟨device, handle⟩] else []
  | .releaseXrtComputation device handle => if kind = .compile then [⟨device, handle⟩] else []
  | _ => []

/-! ## Conservation of the enqueued pairs -/

section Ledger

variable {α β : Type}

theorem sum_set {M : Type} [AddCommMonoid M] (l : List M) {r : Nat} {x : M}
    (hx : l[r]? = some x) (y : M) : (l.set r y).sum + x = l.sum + y := by
  induction l generalizing r with
  | nil => simp at hx
  | cons a t ih =>
      cases r with
      | zero =>
          simp only [List.getElem?_cons_zero, Option.some.injEq] at hx
          subst hx
          simp only [List.set_cons_zero, List.sum_cons]
          abel
      | succ r =>
          simp only [List.getElem?_cons_succ] at hx
          simp only [List.set_cons_succ, List.sum_cons, add_assoc, ih hx]

theorem flatMap_eraseIdx (l : List α) (f : α → List β) {g : Nat} {x : α} (hx : l[g]? = some x) :
    (((l.eraseIdx g).flatMap f : List β) : Multiset β) + ↑(f x) = ↑(l.flatMap f) := by
  induction l generalizing g with
  | nil => simp at hx
  | cons a t ih =>
      cases g with
      | zero =>
          simp only [List.getElem?_cons_zero, Option.some.injEq] at hx
          subst hx
          simp only [List.eraseIdx_cons_zero, List.flatMap_cons, ← Multiset.coe_add]
          abel
      | succ g =>
          simp only [List.getElem?_cons_succ] at hx
          simp only [List.eraseIdx_cons_succ, List.flatMap_cons, ← Multiset.coe_add]
          rw [add_assoc, ih hx]

end Ledger

namespace Releaser

variable {opts : Options}

@[simp] theorem ledger_init (k : HandleKind) : init.ledger k = 0 := by
  cases k <;> rfl

@[simp] theorem inFlight_setPending (s : Releaser) (kind : HandleKind) (l : List DeviceHandle)
    (k : HandleKind) : (s.setPending kind l).inFlight k = s.inFlight k := by
  simp [inFlight, released]

theorem inFlight_setRun (s : Releaser) {r : Nat} {pc : ReleaserPc} (hrun : s.runs[r]? = some pc)
    (pc' : ReleaserPc) (k : HandleKind) :
    (s.setRun r pc').inFlight k + ↑(pc.holding k) = s.inFlight k + ↑(pc'.holding k) := by
  have hset := sum_set (s.runs.map fun pc => (pc.holding k : Multiset DeviceHandle))
    (r := r) (x := ↑(pc.holding k)) (by simp [hrun]) (↑(pc'.holding k))
  simp only [inFlight, released, runs_setRun, rpcs_setRun, List.map_set]
  rw [add_right_comm, hset, add_right_comm]

theorem inFlight_logRpc (s : Releaser) (rpc : ReleaseRpc) (k : HandleKind) :
    (s.logRpc rpc).inFlight k =
      s.inFlight k + if rpc.op = k.releaseOp then ↑rpc.handles else 0 := by
  simp only [inFlight, released, runs_logRpc, rpcs_logRpc, List.filter_append,
    List.flatMap_append, ← Multiset.coe_add, add_assoc]
  split <;> simp [*]

theorem ledger_releaseHandle (s : Releaser) (kind k : HandleKind) (handle : DeviceHandle) :
    (s.releaseHandle kind handle).ledger k =
      s.ledger k + ↑(if kind = k then [handle] else []) := by
  simp only [ledger, releaseHandle, pending_setPending, inFlight_setPending]
  split
  · next h => subst h; simp only [← Multiset.coe_add]; abel
  · simp

theorem ledger_startRun (s : Releaser) (k : HandleKind) : s.startRun.ledger k = s.ledger k := by
  cases k <;> simp [startRun, ledger, inFlight, released, pending]

/-- The swap moves the whole pending list into the run, or into the run that dies. -/
theorem ledger_drain (s : Releaser) {r : Nat} {kind : HandleKind}
    (hrun : s.runs[r]? = some (.swap kind)) (k : HandleKind) :
    (s.drain opts r kind).ledger k = s.ledger k := by
  have hmoved : ∀ pc' : ReleaserPc, (pc'.holding k : Multiset DeviceHandle) =
      (if kind = k then ↑(s.pending kind) else 0) →
      ((s.setPending kind []).setRun r pc').ledger k = s.ledger k := by
    intro pc' hpc
    have hset := inFlight_setRun (s.setPending kind []) (by simpa using hrun) pc' k
    simp only [ReleaserPc.holding_swap, Multiset.coe_nil, add_zero, hpc,
      inFlight_setPending] at hset
    simp only [ledger, pending_setRun, pending_setPending, hset]
    split
    · next h => subst h; simp [add_comm]
    · simp
  unfold drain
  split
  · next groups hgroup =>
      apply hmoved
      rw [ReleaserPc.holding_sending]
      split <;> simp [Multiset.coe_eq_coe.mpr (groupBySession_spec hgroup).2.2]
  · apply hmoved
    simp only [ReleaserPc.holding_failed]
    split <;> simp

/-- A release RPC moves one group out of the run into the RPC log, sent or not. -/
theorem ledger_sendGroup (s : Releaser) {r : Nat} {kind : HandleKind}
    {groups : List (String × List DeviceHandle)} (hrun : s.runs[r]? = some (.send kind groups))
    {g : Nat} {ok : Bool} {s' : Releaser} (hsend : s.sendGroup r kind groups g ok = some s')
    (k : HandleKind) : s'.ledger k = s.ledger k := by
  unfold sendGroup at hsend
  split at hsend
  · next target handle rest hg =>
      cases hsend
      have herase := flatMap_eraseIdx groups Prod.snd hg
      set pc' : ReleaserPc := if ok then .sending kind (groups.eraseIdx g)
        else .failed kind ((groups.eraseIdx g).flatMap Prod.snd)
      have hpc : (pc'.holding k : Multiset DeviceHandle) =
          if kind = k then ↑((groups.eraseIdx g).flatMap Prod.snd) else 0 := by
        cases ok
        · simp only [pc', Bool.false_eq_true, if_false, ReleaserPc.holding_failed]
          split <;> simp
        · simp only [pc', if_true, ReleaserPc.holding_sending]
          split <;> simp
      have hset := inFlight_setRun (s.logRpc ⟨kind.releaseOp, target, handle.device,
        handle :: rest⟩) (by simpa using hrun) pc' k
      simp only [ledger, pending_setRun, pending_logRpc, inFlight_logRpc, hpc,
        ReleaserPc.holding_send] at hset ⊢
      rw [← add_right_cancel_iff (a := ↑(if kind = k then groups.flatMap Prod.snd else [])),
        add_assoc, hset]
      by_cases hk : kind = k
      · subst hk; simp [← herase, ← Multiset.coe_add]; abel
      · have hop : ¬ kind.releaseOp = k.releaseOp := fun h => hk (HandleKind.releaseOp_injective h)
        simp [hk, hop]
  · cases hsend

theorem ledger_step {s s' : Releaser} {event : ReleaseEvent} (hstep : s.step opts event = some s')
    (k : HandleKind) : s'.ledger k = s.ledger k + ↑(event.enqueued k) := by
  unfold step at hstep
  split at hstep
  · cases event with
    | releaseXrtData device handle =>
        cases hstep
        rw [ledger_releaseHandle]
        cases k <;> rfl
    | releaseXrtComputation device handle =>
        cases hstep
        rw [ledger_releaseHandle]
        cases k <;> rfl
    | activate =>
        cases hstep
        simp [ledger_startRun, ReleaseEvent.enqueued]
    | swap r =>
        dsimp only at hstep
        split at hstep
        · next kind hrun =>
            cases hstep
            simp [ledger_drain s hrun, ReleaseEvent.enqueued]
        · cases hstep
    | send r g ok =>
        dsimp only at hstep
        split at hstep
        · next kind groups hrun =>
            simp [ledger_sendGroup s hrun hstep, ReleaseEvent.enqueued]
        · cases hstep
  · cases hstep

theorem ledger_run {s s' : Releaser} {events : List ReleaseEvent}
    (hrun : s.run opts events = some s') (k : HandleKind) :
    s'.ledger k = s.ledger k + ↑(events.flatMap (ReleaseEvent.enqueued k)) := by
  induction events generalizing s with
  | nil => cases hrun; simp
  | cons event rest ih =>
      simp only [run, Option.bind_eq_some] at hrun
      obtain ⟨middle, hstep, hrest⟩ := hrun
      rw [ih hrest, ledger_step hstep, List.flatMap_cons, ← Multiset.coe_add, add_assoc]

theorem pending_drain (s : Releaser) (r : Nat) (kind : HandleKind) :
    (s.drain opts r kind).pending kind = [] := by
  unfold drain
  split <;> simp

end Releaser

/-- Every schedule of producers and releaser runs conserves the enqueued pairs: each pair of
kind `k` is, with its multiplicity, in the pending list of `k`, in the groups of one run, or in
one release RPC of `k`'s op, so none is lost or released twice, and a data pair only ever goes
out through `XRTReleaseAllocationHandle`. A swap leaves the list it swapped empty. -/
theorem releaser_conserves_pairs (opts : Options) (events : List ReleaseEvent) (s : Releaser)
    (hrun : Releaser.init.run opts events = some s) :
    (∀ k, s.ledger k = ↑(events.flatMap (ReleaseEvent.enqueued k))) ∧
      ∀ r kind s', s.runs[r]? = some (.swap kind) → s.step opts (.swap r) = some s' →
        s'.pending kind = [] := by
  refine ⟨fun k => by simpa using Releaser.ledger_run hrun k, ?_⟩
  intro r kind s' hrun' hstep
  simp only [Releaser.step, hrun'] at hstep
  split at hstep
  · cases hstep
    exact Releaser.pending_drain s r kind
  · cases hstep

/-! ## Session groups of the release RPCs -/

namespace Releaser

variable {opts : Options}

/-- A process whose releaser run died does nothing more: every schedule stops at once. -/
theorem run_of_live_eq_false {s s' : Releaser} (hlive : s.live = false) :
    ∀ {events : List ReleaseEvent}, s.run opts events = some s' → events = [] ∧ s' = s
  | [], h => ⟨rfl, (Option.some.inj h).symm⟩
  | _ :: _, h => by simp [run, step, hlive] at h

theorem live_setRun_failed (s : Releaser) {r : Nat} (hr : r < s.runs.length) (kind : HandleKind)
    (held : List DeviceHandle) : (s.setRun r (.failed kind held)).live = false := by
  simp only [live, setRun, List.all_eq_false]
  exact ⟨_, List.getElem_mem (by simpa using hr), by simp [ReleaserPc.isFailed]⟩

theorem live_of_step {s s' : Releaser} {event : ReleaseEvent} (hstep : s.step opts event = some s') :
    s.live = true := by
  by_contra h
  simp [step, h] at hstep

/-- A send step of run `r` issues the release RPC of one whole group, with the op of the run's
list, and keeps the groups it has not sent; a failed RPC kills the run holding their pairs. -/
theorem step_send {s s' : Releaser} {r g : Nat} {ok : Bool} {kind : HandleKind}
    {groups : List (String × List DeviceHandle)} (hrun : s.runs[r]? = some (.send kind groups))
    (hstep : s.step opts (.send r g ok) = some s') :
    ∃ target handle rest, groups[g]? = some (target, handle :: rest) ∧
      s' = (s.logRpc ⟨kind.releaseOp, target, handle.device, handle :: rest⟩).setRun r
        (if ok then .sending kind (groups.eraseIdx g)
          else .failed kind ((groups.eraseIdx g).flatMap Prod.snd)) := by
  simp only [step, live_of_step hstep, hrun, if_true, sendGroup] at hstep
  split at hstep
  · next target handle rest hg => exact ⟨target, handle, rest, hg, (Option.some.inj hstep).symm⟩
  · cases hstep

end Releaser

/-- One value dropped on each core, then one releaser run. -/
def sharedWorkerSchedule : List ReleaseEvent :=
  [.releaseXrtData ⟨"TPU", 0⟩ 1, .releaseXrtData ⟨"TPU", 1⟩ 2, .activate, .swap 0, .send 0 0 true]

theorem releaser_conserves_pairs_shared :
    ∃ s, Releaser.init.run sharedWorkerOptions sharedWorkerSchedule = some s ∧
      (∀ k, s.ledger k = ↑(sharedWorkerSchedule.flatMap (ReleaseEvent.enqueued k))) ∧
      ∀ r kind s', s.runs[r]? = some (.swap kind) → s.step sharedWorkerOptions (.swap r) = some s' →
        s'.pending kind = [] :=
  ⟨_, rfl, releaser_conserves_pairs sharedWorkerOptions sharedWorkerSchedule _ rfl⟩

/-! ## A failed release RPC -/

/-- A failed release RPC is fatal: `XLA_CHECK_OK` throws out of `ReleaseHandles`, so the run dies
holding the pairs of the groups it had not sent, and with it the process. No later action
happens: neither the rest of the drain, nor the drain of the other list, nor any producer. -/
theorem releaseRpc_failure_stops_releaser (opts : Options) {s s' : Releaser} {r g : Nat}
    {kind : HandleKind} {groups : List (String × List DeviceHandle)}
    (hrun : s.runs[r]? = some (.send kind groups)) (hstep : s.step opts (.send r g false) = some s') :
    s'.runs[r]? = some (.failed kind ((groups.eraseIdx g).flatMap Prod.snd)) ∧ s'.live = false ∧
      ∀ events s'', s'.run opts events = some s'' → events = [] ∧ s'' = s' := by
  have hr : r < s.runs.length := (List.getElem?_eq_some_iff.mp hrun).1
  obtain ⟨target, handle, rest, -, rfl⟩ := Releaser.step_send hrun hstep
  have hlive := Releaser.live_setRun_failed (s.logRpc ⟨kind.releaseOp, target, handle.device,
    handle :: rest⟩) (by simpa using hr) kind ((groups.eraseIdx g).flatMap Prod.snd)
  exact ⟨by simp [hr], hlive, fun _ _ h => Releaser.run_of_live_eq_false hlive h⟩

/-- Two worker tasks, one TPU core each: their devices resolve to different RPC targets. -/
def twoWorkerOptions : Options where
  globalDeviceMap := [(⟨"TPU", 0⟩, ⟨"tpu_worker", 0, "TPU", 0⟩),
    (⟨"TPU", 1⟩, ⟨"tpu_worker", 1, "TPU", 0⟩)]
  workersMap := [(⟨"tpu_worker", 0⟩, "grpc://host0:8470"), (⟨"tpu_worker", 1⟩, "grpc://host1:8470")]
  devices := [⟨"TPU", 0⟩]
  defaultDevice := some ⟨"TPU", 0⟩

/-- A value dropped on each worker and a compiled program dropped, then one releaser run up to
its swap of the data list. -/
def twoWorkerSchedule : List ReleaseEvent :=
  [.releaseXrtData ⟨"TPU", 0⟩ 1, .releaseXrtData ⟨"TPU", 1⟩ 2,
    .releaseXrtComputation ⟨"TPU", 0⟩ 3, .activate, .swap 0]

/-- The data list of that schedule drained into one group per worker. -/
def twoWorkerGroups : List (String × List DeviceHandle) :=
  [("grpc://host0:8470", [⟨⟨"TPU", 0⟩, 1⟩]), ("grpc://host1:8470", [⟨⟨"TPU", 1⟩, 2⟩])]

/-- The state after that schedule: the run holds both groups, the compiled program's pair is
pending. -/
def twoWorkerDrained : Releaser := ⟨[], [⟨⟨"TPU", 0⟩, 3⟩], [.send .data twoWorkerGroups], []⟩

/-- When the release RPC of the first worker's group fails, one RPC has gone out; the second
worker's pair stays held by the dead run and the compiled program's pair stays pending. -/
theorem releaseRpc_failure_stops_releaser_twoWorkers :
    Releaser.init.run twoWorkerOptions twoWorkerSchedule = some twoWorkerDrained ∧
      ∃ s', twoWorkerDrained.step twoWorkerOptions (.send 0 0 false) = some s' ∧
        s'.rpcs.length = 1 ∧ s'.pending .compile = [⟨⟨"TPU", 0⟩, 3⟩] ∧
        s'.runs[0]? = some (.failed .data [⟨⟨"TPU", 1⟩, 2⟩]) ∧ s'.live = false ∧
        ∀ events s'', s'.run twoWorkerOptions events = some s'' → events = [] ∧ s'' = s' :=
  ⟨rfl, _, rfl, rfl, rfl, @releaseRpc_failure_stops_releaser twoWorkerOptions twoWorkerDrained _ 0 0
    .data twoWorkerGroups rfl rfl⟩

/-- After the first worker's release RPC fails, no schedule releases anything more: the second
worker's pair never goes out and the compiled program's pair stays pending, so the drain neither
goes on with its other group nor with the compile list. -/
theorem releaseRpc_failure_skips_later_releases :
    ∃ s', Releaser.init.run twoWorkerOptions (twoWorkerSchedule ++ [.send 0 0 false]) = some s' ∧
      ∀ events s'', s'.run twoWorkerOptions events = some s'' →
        s''.released .data = [⟨⟨"TPU", 0⟩, 1⟩] ∧ s''.released .compile = [] ∧
          s''.pending .compile = [⟨⟨"TPU", 0⟩, 3⟩] := by
  refine ⟨_, rfl, fun events s'' hrun => ?_⟩
  obtain ⟨-, rfl⟩ := Releaser.run_of_live_eq_false (by rfl) hrun
  exact ⟨rfl, rfl, rfl⟩

end XrtClient
