import Drivebound.Desktop.Events
import Drivebound.Sync.Resolution
import Mathlib

/-! Convergence. When the clients of a root have pulled all there is, the entries of each
agree with the items of the server, as long as the standing operation of each item was withheld
from no client. A client skips the operations under its own name, also the one that `keep_local`
re-issues for it; a remote change that it refuses, or that a page or the answer of a push
passes over, it does not see again. -/
namespace Drivebound.Desktop
open Sync Run Latest

variable {ι π : Type} [DecidableEq ι] [DecidableEq π]

/-- What happens on a root: the clients run, and its owner resolves conflicts. `conflict` is the
instance that the endpoint has loaded. -/
inductive Action (ι π : Type) where
  | client (event : Event ι π)
  | resolve (conflict : SyncConflict) (choice : Choice) (fresh : FreshIds) (now : Timestamp)

def Clients.act (env : Env π) (relative : π → Option String) (s : Clients ι π) :
    Action ι π → Option (Clients ι π)
  | .client event => s.step env relative event
  | .resolve conflict choice fresh now =>
    if (s.network.db.conflict? conflict.id).any
        fun row => row.localOperationId = conflict.localOperationId then
      (resolveConflict s.network.db conflict choice fresh now).toOption.map fun db =>
        { s with network := { s.network with db } }
    else none

/-- The operations that an action withholds from a client: also the one that `keep_local`
re-issues under the name of its client. -/
def Action.Withholds (env : Env π) (s : Clients ι π) : Action ι π → UUID → Prop
  | .client event, id => s.Withholds env event id
  | .resolve conflict .keepLocal _ _, id =>
    conflict.status = .unresolved ∧ id = conflict.localOperationId
  | _, _ => False

instance (env : Env π) (s : Clients ι π) (action : Action ι π) :
    DecidablePred (action.Withholds env s) := fun id => by
  unfold Action.Withholds
  split <;> infer_instance

/-- The events are in order, and a resolution has loaded the conflict as it is. -/
def Action.Orderly (env : Env π) (relative : π → Option String) (s : Clients ι π) :
    Action ι π → Prop
  | .client event => Desktop.Orderly env relative s event
  | .resolve conflict choice _ _ => StatusCurrent s.network.db (.resolve conflict choice)

instance [Fintype ι] (env : Env π) (relative : π → Option String) (s : Clients ι π) :
    DecidablePred (Action.Orderly env relative s) := fun action => by
  unfold Action.Orderly
  split <;> infer_instance

/-- No action withholds what stands in the end. -/
structure Lossless (env : Env π) (relative : π → Option String) (final : SyncDb) (s : Clients ι π)
    (action : Action ι π) : Prop where
  orderly : action.Orderly env relative s
  replaced : ∀ operation ∈ final.effective, Standing final operation.logicalId operation →
    ¬ action.Withholds env s operation.id

instance [Fintype ι] (env : Env π) (relative : π → Option String) (final : SyncDb)
    (s : Clients ι π) : DecidablePred (Lossless env relative final s) := fun action =>
  decidable_of_iff (action.Orderly env relative s ∧ ∀ operation ∈ final.effective,
    Standing final operation.logicalId operation → ¬ action.Withholds env s operation.id)
    ⟨fun ⟨orderly, replaced⟩ => ⟨orderly, replaced⟩,
      fun lossless => ⟨lossless.orderly, lossless.replaced⟩⟩

/-- The entry of the item has its revision, its path and its content, or is gone with it. -/
def Agrees (db : SyncDb) (state : ClientState) (logicalId : UUID) : Prop :=
  match db.item? logicalId with
  | none => state.entries.get? logicalId = none
  | some item =>
    if item.deletedAt.isSome then state.entries.get? logicalId = none
    else ∃ entry ∈ state.entries.get? logicalId, entry.revision = some item.revision ∧
      entry.relativePath = item.relativePath ∧
        HasContent db.assets item.assetId entry.fingerprint.checksum

instance (db : SyncDb) (state : ClientState) : DecidablePred (Agrees db state) := fun logicalId => by
  unfold Agrees HasContent
  split
  · infer_instance
  · split
    · infer_instance
    · refine @Option.decidableExistsMem _ _ (fun entry => ?_) _
      infer_instance

/-- The operation does not stand in the end. -/
def Replaced (final : SyncDb) (id : UUID) : Prop :=
  ∀ operation ∈ final.effective, operation.id = id → ¬ Standing final operation.logicalId operation

theorem act_converging {env : Env π} {relative : π → Option String} {final : SyncDb}
    (s : Clients ι π) (action : Action ι π) (t : Clients ι π)
    (converging : ∃ names, Converging names (Replaced final) s.network)
    (lossless : Lossless env relative final s action) (stepped : s.act env relative action = some t) :
    ∃ names, Converging names (Replaced final) t.network := by
  obtain ⟨names, converging⟩ := converging
  have replaced : ∀ id, action.Withholds env s id → Replaced final id := by
    rintro id withheld operation member rfl stands
    exact lossless.replaced operation member stands withheld
  have orderly := lossless.orderly
  cases action with
  | client event => exact event_converging converging orderly replaced stepped
  | resolve conflict choice fresh now =>
    simp only [Clients.act] at stepped
    split at stepped
    · rename_i about
      obtain ⟨db, result, rfl⟩ := Option.map_eq_some_iff.mp stepped
      obtain ⟨row, found, about⟩ := (Option.any_eq_true _ _).mp about
      obtain ⟨member, same⟩ := Rows.find?_key found
      have status : (s.network.db.conflict? conflict.id).map SyncConflict.status = some conflict.status :=
        orderly
      rw [found] at status
      refine ⟨names, resolve_converging converging
        ⟨row, member, same, Option.some.inj status, of_decide_eq_true about⟩ (fun unresolved kept => ?_)
        (Checked.toOption_some_iff.mp result)⟩
      subst kept
      exact replaced _ ⟨unresolved, rfl⟩
    · contradiction

omit [DecidableEq ι] [DecidableEq π] in
/-- A client that is at the end of the journal agrees with the items. -/
theorem Follows.agrees {db : SyncDb} {name : String} {state : ClientState}
    (mirrored : Mirrored db db.root.cursor) (follows : Follows db (Replaced db) name state state.cursor [])
    (pulled : state.cursor = db.root.cursor) (logicalId : UUID) : Agrees db state logicalId := by
  unfold Agrees
  split
  · rename_i missing
    cases tracked : state.entries.get? logicalId with
    | none => rfl
    | some entry =>
      obtain ⟨operation, member, named, _⟩ := follows.traced _ (Dict.get?_mem tracked)
      have known := mirrored.found member
      rw [named] at known
      exact absurd missing known
  · rename_i item found
    obtain ⟨operation, standing⟩ := mirrored.covered logicalId item found
    obtain ⟨shown, there, revision, shows⟩ := mirrored.shown logicalId operation standing
    cases Option.some.inj (there.symm.trans found)
    have named := standing.named
    cases follows.kept logicalId operation standing with
    | replaced replaced => exact absurd (named ▸ standing) (replaced operation standing.member rfl)
    | ahead foreign beyond =>
      obtain ⟨member, root, _⟩ := mem_effective.mp standing.member
      have bounded := mirrored.issued.bounded operation member root
      omega
    | pending foreign member => exact absurd member List.not_mem_nil
    | shown showing own last =>
      subst named
      by_cases delete : operation.kind = .delete
      · rw [if_pos (Option.isSome_iff_ne_none.mpr (shows.deleted delete))]
        exact showing.deleted delete
      · obtain ⟨live, path, content⟩ := shows.live delete
        obtain ⟨entry, tracked, left⟩ := showing.live delete
        rw [live]
        refine ⟨entry, tracked, left.revision.trans revision, ?_, left.content ▸ content⟩
        exact Option.some.inj (left.path.symm.trans path)

/-- In every run in which no step withholds what stands in the end, a client that has pulled all
there is agrees with the server on every item. -/
theorem lossless_runs_converge {env : Env π} {relative : π → Option String} {s t : Clients ι π}
    {actions : List (Action ι π)} (begins : Begins s)
    (reached : run (Clients.act env relative) s actions = some t)
    (lossless : Along (Clients.act env relative) (Lossless env relative t.network.db) s actions) (i : ι)
    (stopped : (t.network.machines i).process = .stopped)
    (pulled : (t.network.machines i).saved.state.cursor = t.network.db.root.cursor) (logicalId : UUID) :
    Agrees t.network.db (t.network.machines i).saved.state logicalId := by
  obtain ⟨names, converging⟩ := invariant
    (I := fun s : Clients ι π => ∃ names, Converging names (Replaced t.network.db) s.network)
    act_converging ⟨_, begins.converging _⟩ lossless reached
  have settled : (t.network.machines i).process.unsaved = false := by
    rw [stopped]
    rfl
  exact ((converging.machines i).settledFile settled).agrees converging.mirrored pulled logicalId

/-- Two computers on a root that nobody has pushed to. -/
def sharedRoot : Clients Computer String where
  network := { twoComputers with db := registeredRoot }
  origins := []

theorem sharedRoot_begins : Begins sharedRoot where
  operations := fun _ member => absurd member List.not_mem_nil
  items := fun _ member => absurd member List.not_mem_nil
  keys := List.nodup_nil
  itemIds := List.nodup_nil
  assetIds := List.nodup_nil
  undecided := ⟨fun _ member => absurd member List.not_mem_nil,
    fun _ member => absurd member List.not_mem_nil, fun _ member => absurd member List.not_mem_nil⟩
  apart := by rintro (_ | _) (_ | _) same <;> first | rfl | exact absurd same (by decide)
  stopped := by rintro (_ | _) <;> rfl
  entries := by rintro (_ | _) <;> rfl
  cursors := by rintro (_ | _) <;> exact Nat.le_refl _
  idle := rfl

def net (label : NetLabel Computer String) : Action Computer String := .client (.net label)

/-- A pull that passes an operation, or delivers its file. -/
def pulls (i : Computer) (files : List (Option LocalFile)) : List (Action Computer String) :=
  [net (.client i (.load 1 "new")), net (.readRoot i), net (.readPage i)] ++
    files.flatMap (fun file => net (.client i .examine) ::
      (file.map fun file => net (.client i (.deliver file))).toList) ++
    [net (.client i .finishPull)]

/-- The file is changed and pushed, with ids from `base` on. -/
def pushes (i : Computer) (base : Nat) (file : LocalFile) (asset : UUID) :
    List (Action Computer String) :=
  [.client (.upload (stored asset file.content)), net (.client i (.edit "a.txt" (some file))),
    .client (.push i ["a.txt"] (fun n => ⟨base + n, base + 20 + n, some asset⟩)
      fun n => ⟨base + 40 + n, base + 50 + n, base + 60 + n, base + 70 + n⟩),
    net (.commit 0 base), net (.client i .acknowledge), net (.client i .save)]

def rests (i : Computer) : List (Action Computer String) :=
  [net (.client i .save), net (.client i .stop)]

/-- Both computers change the file of the laptop, which is pushed first. -/
def contest : List (Action Computer String) :=
  pulls .laptop [] ++ pushes .laptop 100 ⟨[1], 10⟩ 4 ++ pulls .desk [some ⟨[1], 10⟩] ++ rests .desk ++
    pulls .desk [] ++ pulls .laptop [] ++ pushes .laptop 200 ⟨[2, 2], 20⟩ 5 ++
    pushes .desk 300 ⟨[3, 3, 3], 30⟩ 6

/-- The conflict that the push of the desk ends in, as the endpoint loads it. -/
def contestedPush : SyncConflict where
  id := 371
  rootId := 1
  logicalId := 121
  localOperationId := 341
  conflictingOperationId := some 242
  kind := .concurrentChange
  expectedRevision := some "r1-000000000000"
  actualRevision := some "r2-000000000000"
  status := .unresolved
  resolution := none
  resolvedAt := none

def settle (choice : Choice) : Action Computer String := .resolve contestedPush choice ⟨900, 901, 902, 903⟩ 900

/-- The desk takes its change back, and the laptop changes the file once more. -/
def reconciled : List (Action Computer String) :=
  contest ++ [settle .keepRemote] ++ [net (.client .desk (.edit "a.txt" (some ⟨[1], 10⟩)))] ++
    pulls .laptop [none] ++ pushes .laptop 400 ⟨[4], 40⟩ 7 ++ pulls .desk [some ⟨[4], 40⟩] ++ rests .desk

/-- Every conflict is resolved, and the clients have stopped with all there is. -/
def AtRest (s : Clients Computer String) : Prop :=
  s.network.db.openConflicts = [] ∧ ∀ i ∈ [Computer.desk, .laptop],
    (s.network.machines i).process = .stopped ∧
      (s.network.machines i).saved.state.cursor = s.network.db.root.cursor

instance : DecidablePred AtRest := fun _ => inferInstanceAs (Decidable (_ = [] ∧ ∀ i ∈ _, _))

theorem lossless_runs_converge_reconciled :
    ∃ t, run (Clients.act byteEnv some) sharedRoot reconciled = some t ∧ AtRest t ∧
      (t.network.db.item? 121).map SyncItem.revision = some "r4-000000000000" ∧
      Agrees t.network.db (t.network.machines .desk).saved.state 121 := by
  have finishes : (run (Clients.act byteEnv some) sharedRoot reconciled).any fun t =>
      (AtRest t ∧ (t.network.db.item? 121).map SyncItem.revision = some "r4-000000000000") ∧
        Along (Clients.act byteEnv some) (Lossless byteEnv some t.network.db) sharedRoot reconciled := by
    decide +kernel
  obtain ⟨t, reached, found⟩ := (Option.any_eq_true _ _).mp finishes
  obtain ⟨⟨rest, revision⟩, lossless⟩ := of_decide_eq_true found
  obtain ⟨stopped, pulled⟩ := rest.2 .desk List.mem_cons_self
  exact ⟨t, reached, rest, revision,
    lossless_runs_converge sharedRoot_begins reached lossless .desk stopped pulled 121⟩

/-- Kept local, the change of the desk comes back under its own name, which it skips; kept
remote, the change of the laptop is behind the answer that the desk got. Either way the entry of
the desk has the revision before both. -/
theorem resolved_conflict_leaves_client_behind :
    (∃ t, run (Clients.act byteEnv some) sharedRoot
        (contest ++ [settle .keepLocal] ++ pulls .desk [none] ++ rests .desk ++
          pulls .laptop [some ⟨[3, 3, 3], 30⟩] ++ rests .laptop) = some t ∧ AtRest t ∧
      ¬ Agrees t.network.db (t.network.machines .desk).saved.state 121) ∧
    ∃ t, run (Clients.act byteEnv some) sharedRoot
        (contest ++ [settle .keepRemote] ++ pulls .desk [] ++ rests .desk ++
          pulls .laptop [none] ++ rests .laptop) = some t ∧ AtRest t ∧
      ¬ Agrees t.network.db (t.network.machines .desk).saved.state 121 := by
  have kept : (run (Clients.act byteEnv some) sharedRoot
      (contest ++ [settle .keepLocal] ++ pulls .desk [none] ++ rests .desk ++
        pulls .laptop [some ⟨[3, 3, 3], 30⟩] ++ rests .laptop)).any fun t =>
      AtRest t ∧ ¬ Agrees t.network.db (t.network.machines .desk).saved.state 121 := by
    decide
  have rejected : (run (Clients.act byteEnv some) sharedRoot
      (contest ++ [settle .keepRemote] ++ pulls .desk [] ++ rests .desk ++
        pulls .laptop [none] ++ rests .laptop)).any fun t =>
      AtRest t ∧ ¬ Agrees t.network.db (t.network.machines .desk).saved.state 121 := by
    decide
  obtain ⟨s, left, behind⟩ := (Option.any_eq_true _ _).mp kept
  obtain ⟨t, right, passed⟩ := (Option.any_eq_true _ _).mp rejected
  exact ⟨⟨s, left, of_decide_eq_true behind⟩, t, right, of_decide_eq_true passed⟩

end Drivebound.Desktop
