import Drivebound.Desktop.Follow
import Drivebound.Desktop.Settling
import Drivebound.Sync.Cursors

/-! Complete runs of the client. A run that pushed nothing back of what it pulled, and whose own
push was applied, leaves nothing for the next one: neither a remote operation to apply nor a
local change to push. A refused push is made again by every run, and a remote move leaves the
old file behind, which is then taken for a change of the user's. -/
namespace Drivebound.Desktop
open Sync Run

variable {π : Type} [DecidableEq π]

/-- The steps on the operations of a page. -/
def Label.fetches : Label π → Bool
  | .examine | .unlink | .deliver _ => true
  | _ => false

/-- What a complete run does not decide by itself. -/
structure Round (π : Type) where
  rootId : UUID
  /-- The client id of a new template. -/
  drawn : String
  /-- With the downloads they receive. -/
  pulls : List (Label π)
  order : List π
  draw : Nat → Draw
  /-- How often `resume_or_create` saves the state. -/
  uploads : Nat
  fresh : Nat → FreshIds
  now : Timestamp

/-- The state with which the run starts. -/
def Round.loaded (r : Round π) (m : Machine π) : ClientState := (m.loadState r.drawn).saved.state

def Round.fetchLabels (r : Round π) (db : SyncDb) (cursor : Nat) : List (Label π) :=
  [.readRoot db.root.cursor, .readPage (db.page cursor) db.openConflicts] ++
    (r.pulls ++ [.finishPull])

def Round.pullLabels (r : Round π) (db : SyncDb) (m : Machine π) : List (Label π) :=
  .load r.rootId r.drawn :: r.fetchLabels db (r.loaded m).cursor

/-- A run after `local_changes`. -/
structure Scanned (π : Type) where
  machine : Machine π
  memory : Memory π
  files : Dict String LocalFile
  operations : List SyncOperationInput
  proposed : Dict UUID Proposal

/-- `main` up to `local_changes`, where the user leaves the folder alone. -/
def Round.scanned (env : Env π) (relative : π → Option String) (db : SyncDb) (m : Machine π)
    (r : Round π) : Option (Scanned π) :=
  (run (step env) m (r.pullLabels db m)).bind fun machine =>
    match machine.process with
    | .pulled memory =>
      if (∀ label ∈ r.pulls, label.fetches) ∧ ∀ entry ∈ machine.folder, entry.1 ∈ r.order then
        let files := scan relative machine.folder r.order
        (localChanges env memory.state files r.draw).map fun found =>
          ⟨machine, memory, files, found.1, found.2⟩
      else none
    | _ => none

/-- What the server answers to the push, if its schema takes it, with the journal as other
clients may have left it. -/
def Scanned.answer (p : Scanned π) (r : Round π) (later : SyncDb) : Option Batch :=
  (p.operations.mapM parse).bind fun inputs =>
    (applyOperations later later.root.cursor p.memory.state.clientId
      (inputs.map fun input => (input, r.fresh input.clientSequence)) r.now).toOption

/-- The rest of `main`: the client it leaves, and the journal after its last request. -/
def Scanned.finish (env : Env π) (r : Round π) (db later : SyncDb) (p : Scanned π) :
    Option (Machine π × SyncDb) :=
  let saves := List.replicate r.uploads .save
  if p.operations = [] then
    (run (step env) p.machine (saves ++ [.skipPush, .save])).map fun after => (after, db)
  else
    match p.answer r later with
    | some b =>
      let result : PushResult :=
        { cursor := b.cursor, operations := b.operations
          conflicts := b.conflicts.map SyncConflict.id }
      (run (step env) p.machine (saves ++ [.readPushRoot p.operations p.proposed later.root.cursor,
        .answerPush result, .acknowledge, .save])).map fun after => (after, b.db)
    | none => none

/-- The next run has no operation to apply and finds nothing to push. -/
structure Quiet (env : Env π) (relative : π → Option String) (db : SyncDb) (m : Machine π) :
    Prop where
  page : db.page m.saved.state.cursor = []
  scans : ∀ r : Round π, r.pulls = [] → (∀ entry ∈ m.folder, entry.1 ∈ r.order) →
    ∃ p, r.scanned env relative db m = some p ∧ p.operations = [] ∧ p.machine.folder = m.folder ∧
      p.memory.state.entries = m.saved.state.entries

section Pull

variable {env : Env π} {limit : Nat}

/-- The root that a pull reads has this cursor. -/
def Label.Reads (limit : Nat) : Label π → Prop
  | .readRoot cursor => cursor = limit
  | _ => True

/-- During a pull: the items of the state are distinct, and its cursor ends at the root's. -/
def Machine.Pulling (limit : Nat) (m : Machine π) : Prop :=
  match m.process with
  | .ready memory => (memory.state.entries.map Prod.fst).Nodup
  | .asked memory cursor | .pulling memory _ cursor _ | .unlinking memory _ _ _ cursor _
  | .downloading memory _ _ _ _ cursor _ =>
    (memory.state.entries.map Prod.fst).Nodup ∧ cursor = limit
  | .pulled memory => (memory.state.entries.map Prod.fst).Nodup ∧ limit ≤ memory.state.cursor
  | .stopped | .pushing _ _ _ _ | .answered _ _ _ _ | .acknowledged _ => True

theorem pull_pulling {m m' : Machine π} {label : Label π} (pulling : m.Pulling limit)
    (pulls : label.pulls = true) (reads : label.Reads limit) (stepped : step env m label = some m') :
    m'.Pulling limit := by
  cases label with
  | readRoot cursor =>
    simp only [step] at stepped
    split at stepped
    · rename_i same
      cases stepped
      simp only [Machine.Pulling, same] at pulling
      exact ⟨pulling, reads⟩
    · contradiction
  | readPage operations conflicts =>
    simp only [step] at stepped
    split at stepped
    · rename_i same
      cases stepped
      simpa only [Machine.Pulling, same] using pulling
    · contradiction
  | examine =>
    simp only [step] at stepped
    split at stepped
    · rename_i memory operation pending cursor conflicts same
      cases stepped
      simp only [Machine.Pulling, same] at pulling
      unfold examine
      dsimp only
      split <;> exact pulling
    · contradiction
  | unlink =>
    simp only [step] at stepped
    split at stepped
    · rename_i same
      cases stepped
      simp only [Machine.Pulling, same] at pulling
      exact ⟨Dict.nodup_pop pulling.1 _, pulling.2⟩
    · contradiction
  | deliver file =>
    simp only [step] at stepped
    split at stepped
    · rename_i same
      cases stepped
      simp only [Machine.Pulling, same] at pulling
      exact ⟨Dict.nodup_set pulling.1 _ _, pulling.2⟩
    · contradiction
  | finishPull =>
    simp only [step] at stepped
    split at stepped
    · rename_i same
      cases stepped
      simp only [Machine.Pulling, same] at pulling
      exact ⟨pulling.1, pulling.2 ▸ Nat.le_max_right _ _⟩
    · contradiction
  | load | save | skipPush | readPushRoot | answerPush | acknowledge | stop | edit => contradiction

omit [DecidableEq π] in
theorem Round.fetchLabels_pull {r : Round π} (fetches : ∀ label ∈ r.pulls, label.fetches = true)
    (db : SyncDb) (cursor : Nat) :
    ∀ label ∈ r.fetchLabels db cursor, label.pulls = true ∧ label.Reads db.root.cursor := by
  intro label member
  simp only [Round.fetchLabels, List.mem_append, List.mem_cons, List.not_mem_nil, or_false] at member
  rcases member with (rfl | rfl) | inner | rfl
  · exact ⟨rfl, rfl⟩
  · exact ⟨rfl, trivial⟩
  · have fetched := fetches label inner
    cases label with
    | examine | unlink | deliver => exact ⟨rfl, trivial⟩
    | load | readRoot | readPage | finishPull | save | skipPush | readPushRoot | answerPush
    | acknowledge | stop | edit => contradiction
  · exact ⟨rfl, trivial⟩

end Pull

section Scanned

variable {env : Env π} {relative : π → Option String} {db later final : SyncDb} {m after : Machine π}
  {r : Round π} {p : Scanned π}

/-- What a run has after `local_changes`. -/
structure Scans (env : Env π) (relative : π → Option String) (db : SyncDb) (m : Machine π)
    (r : Round π) (p : Scanned π) : Prop where
  reached : run (step env) m (r.pullLabels db m) = some p.machine
  process : p.machine.process = .pulled p.memory
  fetches : ∀ label ∈ r.pulls, label.fetches = true
  covers : ∀ entry ∈ p.machine.folder, entry.1 ∈ r.order
  files : p.files = scan relative p.machine.folder r.order
  computed : localChanges env p.memory.state p.files r.draw = some (p.operations, p.proposed)

theorem Round.scanned_scans (scanned : r.scanned env relative db m = some p) :
    Scans env relative db m r p := by
  obtain ⟨machine, reached, found⟩ := Option.bind_eq_some_iff.mp scanned
  split at found
  · rename_i memory process
    split_ifs at found with allowed
    obtain ⟨changes, computed, same⟩ := Option.map_eq_some_iff.mp found
    cases same
    exact ⟨reached, process, allowed.1, allowed.2, rfl, computed⟩
  · contradiction

/-- The client once it has loaded its state. -/
def Round.started (r : Round π) (m : Machine π) : Machine π :=
  { m.loadState r.drawn with
    process := .ready { (m.loadState r.drawn).saved with
      state := { r.loaded m with rootId := some r.rootId } } }

/-- The pull, once the state is loaded. -/
theorem Scans.fetched (scans : Scans env relative db m r p) (stopped : m.process = .stopped) :
    step env m (.load r.rootId r.drawn) = some (r.started m) ∧
      run (step env) (r.started m) (r.fetchLabels db (r.loaded m).cursor) = some p.machine := by
  have loads : step env m (.load r.rootId r.drawn) = some (r.started m) := by
    simp only [step, stopped, Round.started, Round.loaded]
  have reached := scans.reached
  rw [Round.pullLabels, run_cons, loads] at reached
  exact ⟨loads, reached⟩

/-- The steps of the pull, all in their place. -/
theorem Scans.clean (scans : Scans env relative db m r p) (canonical : Canonical env relative)
    (stopped : m.process = .stopped)
    (inPlace : Along (step env) (InPlace env relative) m (r.pullLabels db m))
    {name : String}
    (clean : Clean (r.loaded m).entries name (fileAt env relative m.folder name)) :
    Clean p.memory.state.entries name (fileAt env relative p.machine.folder name) := by
  obtain ⟨loads, reached⟩ := scans.fetched stopped
  have pulls : Along (step env) (fun _ label => label.pulls = true) (r.started m)
      (r.fetchLabels db (r.loaded m).cursor) := along_of_forall _ fun label member =>
    (Round.fetchLabels_pull scans.fetches db _ label member).1
  have start : (r.started m).CleanAt env relative name := by
    simpa only [Machine.CleanAt, Round.started, Machine.loadState_folder] using clean
  have kept := invariant (fun _ _ _ clean both stepped => pull_clean canonical clean both.1 both.2 stepped)
    start (pulls.and (inPlace.2 _ loads)) reached
  simpa only [Machine.CleanAt, scans.process] using kept

theorem Scans.pulling (scans : Scans env relative db m r p) (stopped : m.process = .stopped)
    (keys : ((r.loaded m).entries.map Prod.fst).Nodup) :
    (p.memory.state.entries.map Prod.fst).Nodup ∧ db.root.cursor ≤ p.memory.state.cursor := by
  obtain ⟨_, reached⟩ := scans.fetched stopped
  have labels : Along (step env) (fun _ label => label.pulls = true ∧ label.Reads db.root.cursor)
      (r.started m) (r.fetchLabels db (r.loaded m).cursor) :=
    along_of_forall _ (Round.fetchLabels_pull scans.fetches db _)
  have start : (r.started m).Pulling db.root.cursor := keys
  have kept := invariant (fun _ _ _ pulling both stepped => pull_pulling pulling both.1 both.2 stepped)
    start labels reached
  simpa only [Machine.Pulling, scans.process] using kept

theorem Scans.file (scans : Scans env relative db m r p) (canonical : Canonical env relative)
    (name : String) : p.files.get? name = fileAt env relative p.machine.folder name := by
  rw [scans.files, scan_get? canonical scans.covers]

theorem Scans.distinct (scans : Scans env relative db m r p) : (p.files.map Prod.fst).Nodup := by
  rw [scans.files]
  exact scan_distinct ..

theorem run_saves (env : Env π) {memory : Memory π} (process : m.process = .pulled memory) (count : Nat) :
    ∃ saved filed, run (step env) m (List.replicate count .save) = some { m with saved, filed } := by
  induction count generalizing m with
  | zero => exact ⟨m.saved, m.filed, rfl⟩
  | succ count ih =>
    have stepped : step env m .save = some { m with saved := memory, filed := true } := by
      simp only [step, process]
    obtain ⟨saved, filed, reached⟩ := ih (m := { m with saved := memory, filed := true }) process
    refine ⟨saved, filed, ?_⟩
    rw [List.replicate_succ, run_cons, stepped]
    exact reached

/-- The state that a run saves, and the journal it has last seen. -/
theorem Scanned.finish_cases (process : p.machine.process = .pulled p.memory)
    (finished : p.finish env r db later = some (after, final)) :
    (p.operations = [] ∧ final = db ∧
      after = { p.machine with saved := p.memory, filed := true, process := .stopped }) ∨
    ∃ b conflicts, p.answer r later = some b ∧ final = b.db ∧
      after = { p.machine with
        saved := { p.memory with
          state := applyPushResult p.memory.state p.operations p.proposed
            { cursor := b.cursor, operations := b.operations, conflicts } }
        filed := true
        process := .stopped } := by
  obtain ⟨saved, filed, saves⟩ := run_saves env process r.uploads
  unfold Scanned.finish at finished
  dsimp only at finished
  split at finished
  · rename_i nothing
    obtain ⟨machine, reached, same⟩ := Option.map_eq_some_iff.mp finished
    cases same
    rw [run_append, saves] at reached
    simp only [Option.bind_some, run_cons, run_nil, step, process, Option.some.injEq] at reached
    exact .inl ⟨nothing, rfl, reached.symm⟩
  · split at finished
    · rename_i b answered
      obtain ⟨machine, reached, same⟩ := Option.map_eq_some_iff.mp finished
      cases same
      rw [run_append, saves] at reached
      simp only [Option.bind_some, run_cons, run_nil, step, process, Option.some.injEq] at reached
      exact .inr ⟨b, _, answered, rfl, reached.symm⟩
    · contradiction

omit [DecidableEq π] in
/-- An answer is that of a batch of the server. -/
theorem Scanned.answer_batch {b : Batch} (answered : p.answer r later = some b) :
    ∃ inputs, applyOperations later later.root.cursor p.memory.state.clientId inputs r.now = .ok b := by
  obtain ⟨inputs, _, applied⟩ := Option.bind_eq_some_iff.mp answered
  exact ⟨_, Checked.toOption_some_iff.mp applied⟩

/-- A client that is as far as the journal, with every path clean. -/
theorem quiet_of_clean (canonical : Canonical env relative) (ordered : CursorInv db)
    (stopped : m.process = .stopped) (filed : m.filed = true)
    (reached : db.root.cursor ≤ m.saved.state.cursor)
    (keys : (m.saved.state.entries.map Prod.fst).Nodup)
    (clean : ∀ name, Clean m.saved.state.entries name (fileAt env relative m.folder name)) :
    Quiet env relative db m := by
  have page : db.page m.saved.state.cursor = [] := by
    refine List.eq_nil_iff_forall_not_mem.mpr fun operation member => ?_
    obtain ⟨listed, root, beyond⟩ := mem_page member
    have bound := ordered.bounded operation listed root
    omega
  refine ⟨page, fun r pulls covers => ?_⟩
  let loaded := { m.saved.state with rootId := some r.rootId }
  let memory : Memory π :=
    { m.saved with state := loaded.finishPull db.root.cursor db.openConflicts }
  have entries : memory.state.entries = m.saved.state.entries := rfl
  have finishes : run (step env) m (r.pullLabels db m) =
      some { m with process := .pulled memory } := by
    simp only [Round.pullLabels, Round.fetchLabels, Round.loaded, m.loadState_filed filed, pulls,
      page, List.cons_append, List.nil_append, run_cons, run_nil, step, stopped, Option.bind_some,
      memory, loaded]
  have quiet : localChanges env memory.state (scan relative m.folder r.order) r.draw =
      some ([], []) := by
    refine localChanges_clean (entries ▸ keys) (scan_distinct ..) fun name => ?_
    rw [scan_get? canonical covers, entries]
    exact clean name
  refine ⟨⟨{ m with process := .pulled memory }, memory, scan relative m.folder r.order, [], []⟩, ?_,
    rfl, rfl, entries⟩
  have allowed : (∀ label ∈ r.pulls, label.fetches = true) ∧ ∀ entry ∈ m.folder, entry.1 ∈ r.order := by
    refine ⟨?_, covers⟩
    rw [pulls]
    intro _ member
    cases member
  simp only [Round.scanned, finishes, Option.bind_some, if_pos allowed, quiet, Option.map_some]

end Scanned

/-- A run whose pull puts every remote change in its place pushes only changes that the user had
made before. If the server then applies all of them, and no item was taken for two files, the
next run on the same folder and journal does nothing. -/
theorem complete_run_reaches_fixpoint {env : Env π} {relative : π → Option String}
    (canonical : Canonical env relative) {db later final : SyncDb} {m after : Machine π}
    {r : Round π} {p : Scanned π} (ordered : CursorInv db) (current : CursorInv later)
    (stopped : m.process = .stopped) (keys : ((r.loaded m).entries.map Prod.fst).Nodup)
    (scanned : r.scanned env relative db m = some p) (fresh : Fresh p.memory.state.entries r.draw)
    (finished : p.finish env r db later = some (after, final)) :
    (Along (step env) (InPlace env relative) m (r.pullLabels db m) →
      ∀ operation ∈ p.operations, ∃ name, operation.relativePath = some name ∧
        ¬ Clean (r.loaded m).entries name (fileAt env relative m.folder name)) ∧
    ((∀ b, p.answer r later = some b → AllApplied p.operations b.operations) →
      Along (visit env p.memory.state r.draw) (Untaken env p.memory.state)
        ⟨p.memory.state.entries, [], [], p.memory.state.sequence⟩ p.files →
      Quiet env relative final after) := by
  have scans := Round.scanned_scans scanned
  obtain ⟨distinct, read⟩ := scans.pulling stopped keys
  refine ⟨fun inPlace operation member => ?_, fun applied untaken => ?_⟩
  · obtain ⟨name, path, dirty⟩ := localChanges_departs distinct scans.distinct scans.computed
      operation member
    refine ⟨name, path, fun clean => dirty ?_⟩
    rw [scans.file canonical]
    exact scans.clean canonical stopped inPlace clean
  · rcases Scanned.finish_cases scans.process finished with ⟨nothing, rfl, rfl⟩ |
      ⟨b, conflicts, answered, rfl, rfl⟩
    · refine quiet_of_clean canonical ordered rfl rfl read distinct fun name => ?_
      have settled : AllApplied p.operations [] := by
        rw [nothing]
        exact nofun
      have clean := acknowledged_clean distinct scans.distinct fresh untaken scans.computed settled name
      rwa [scans.file canonical] at clean
    · obtain ⟨inputs, batch⟩ := Scanned.answer_batch answered
      have advances := applyOperations_advances current (.inl rfl) batch
      have cursor : b.db.root.cursor = b.cursor := by
        rcases applyOperations_cases (.inl rfl) batch with ⟨_, _, _, same, _, root⟩ |
          ⟨_, same, _, root⟩
        · rw [root, same]
        · rw [root, same]
      refine quiet_of_clean canonical advances.1 rfl rfl ?_ (acknowledge_keys distinct) fun name => ?_
      · rw [cursor]
        exact Nat.le_max_right _ _
      · have clean := acknowledged_clean distinct scans.distinct fresh untaken scans.computed
          (applied b answered) name
        rwa [scans.file canonical] at clean

/-- The server of a root on which the desk has pushed a file and then its second operation. -/
def pushedTwice (kind : OperationKind) (relativePath : String) : SyncDb :=
  { registeredRoot with
    root := { registeredRoot.root with cursor := 2 }
    assets := [{ uploadedAsset 4 with logicalId := 3 }, uploadedAsset 5]
    items :=
      [{ id := 7, rootId := 1, logicalId := 3, assetId := some 4, relativePath, revision := "r2"
         deletedAt := none }]
    operations :=
      [remoteUpsert,
        { remoteUpsert with
          id := 2, cursor := 2, clientSequence := 2, operationId := 3, kind
          baseRevision := some "r1", revision := some "r2"
          payload :=
            { relativePath := some relativePath
              originalUrl := some "/api/v1/assets/4/original" } }] }

/-- The laptop, which has pulled the first of the desk's operations. -/
def followingLaptop (folder : Folder String) : Machine String :=
  { joining folder with
    saved :=
      { state := { (joining []).saved.state with
          rootId := some 1, cursor := 1
          entries := [(3, { relativePath := "a.txt", revision := some "r1"
                            fingerprint := remoteFile.fingerprint (some "[1, 2]") })] }
        handled := [] }
    filed := true }

def plainRound (pulls : List (Label String)) : Round String where
  rootId := 1
  drawn := "new"
  pulls
  order := ["a.txt", "b.txt"]
  draw number := ⟨100 + number, 200 + number, some 5⟩
  uploads := 1
  fresh number := ⟨300 + number, 400 + number, 500 + number, 600 + number⟩
  now := 5

/-- The desk has changed its file, and the user of the laptop has added another one. -/
theorem complete_run_reaches_fixpoint_changed :
    ∃ p after final,
      (plainRound [.examine, .deliver ⟨[4], 30⟩]).scanned plainEnv some (pushedTwice .upsert "a.txt")
        (followingLaptop [("a.txt", remoteFile), ("b.txt", ⟨[7], 5⟩)]) = some p ∧
      p.operations.map (·.relativePath) = [some "b.txt"] ∧
      p.finish plainEnv (plainRound [.examine, .deliver ⟨[4], 30⟩]) (pushedTwice .upsert "a.txt")
        (pushedTwice .upsert "a.txt") = some (after, final) ∧
      Quiet plainEnv some final after := by
  have finishes : ((plainRound [.examine, .deliver ⟨[4], 30⟩]).scanned plainEnv some
      (pushedTwice .upsert "a.txt")
      (followingLaptop [("a.txt", remoteFile), ("b.txt", ⟨[7], 5⟩)])).any fun p =>
        p.operations.map (·.relativePath) = [some "b.txt"] ∧
        p.memory.state.entries.map Prod.fst = [3] ∧
        Along (visit plainEnv p.memory.state (plainRound []).draw) (Untaken plainEnv p.memory.state)
          ⟨p.memory.state.entries, [], [], p.memory.state.sequence⟩ p.files ∧
        (p.answer (plainRound []) (pushedTwice .upsert "a.txt")).all
          (fun b => AllApplied p.operations b.operations) ∧
        (p.finish plainEnv (plainRound [.examine, .deliver ⟨[4], 30⟩]) (pushedTwice .upsert "a.txt")
          (pushedTwice .upsert "a.txt")).isSome := by
    decide
  obtain ⟨p, scanned, met⟩ := (Option.any_eq_true _ _).mp finishes
  obtain ⟨pushed, keys, untaken, applied, finished⟩ := of_decide_eq_true met
  obtain ⟨⟨after, final⟩, finished⟩ := Option.isSome_iff_exists.mp finished
  have fresh : Fresh p.memory.state.entries (plainRound []).draw := by
    refine ⟨fun a b same => ?_, fun a b same => ?_, fun number member => ?_⟩
    · exact Nat.add_left_cancel same
    · exact Nat.add_left_cancel same
    · rw [keys] at member
      have same : 200 + number = 3 := List.mem_singleton.mp member
      omega
  have ordered : CursorInv (pushedTwice .upsert "a.txt") := ⟨by decide, by decide, by decide⟩
  refine ⟨p, after, final, scanned, pushed, finished, ?_⟩
  refine (complete_run_reaches_fixpoint (fun _ _ same => (Option.some.inj same).symm) ordered ordered
    rfl (by decide) scanned fresh finished).2 (fun b answered => ?_) untaken
  have all : (some b).all fun b => AllApplied p.operations b.operations := by
    rw [← show p.answer (plainRound []) (pushedTwice .upsert "a.txt") = some b from answered]
    exact applied
  exact of_decide_eq_true all

theorem not_quiet {env : Env π} {relative : π → Option String} {db : SyncDb} {m : Machine π}
    {r : Round π} {p : Scanned π} (pulls : r.pulls = []) (covers : ∀ entry ∈ m.folder, entry.1 ∈ r.order)
    (scanned : r.scanned env relative db m = some p) (pushes : p.operations ≠ []) :
    ¬ Quiet env relative db m := by
  intro quiet
  obtain ⟨other, again, nothing, _⟩ := quiet.scans r pulls covers
  cases scanned.symm.trans again
  exact pushes nothing

/-- The desk has changed the file that the laptop's user has deleted. The server answers the
delete with a conflict, and the next run pushes it again. -/
theorem refused_push_is_repeated :
    ∃ p after final,
      (plainRound [.examine]).scanned plainEnv some (pushedTwice .upsert "a.txt")
        (followingLaptop []) = some p ∧
      p.finish plainEnv (plainRound [.examine]) (pushedTwice .upsert "a.txt")
        (pushedTwice .upsert "a.txt") = some (after, final) ∧
      final.openConflicts = [601] ∧ ¬ Quiet plainEnv some final after := by
  have repeats : ((plainRound [.examine]).scanned plainEnv some (pushedTwice .upsert "a.txt")
      (followingLaptop [])).any fun p =>
        (p.finish plainEnv (plainRound [.examine]) (pushedTwice .upsert "a.txt")
          (pushedTwice .upsert "a.txt")).any fun left =>
            left.2.openConflicts = [601] ∧
            (∀ entry ∈ left.1.folder, entry.1 ∈ (plainRound []).order) ∧
            ((plainRound []).scanned plainEnv some left.2 left.1).any fun next => next.operations ≠ [] := by
    decide
  obtain ⟨p, scanned, met⟩ := (Option.any_eq_true _ _).mp repeats
  obtain ⟨⟨after, final⟩, finished, met⟩ := (Option.any_eq_true _ _).mp met
  obtain ⟨conflict, covers, pushes⟩ := of_decide_eq_true met
  obtain ⟨next, again, pushes⟩ := (Option.any_eq_true _ _).mp pushes
  exact ⟨p, after, final, scanned, finished, conflict,
    not_quiet rfl covers again (of_decide_eq_true pushes)⟩

/-- The desk has moved the file. The laptop downloads it under the new path, finds the old file
still there and moves the item back. -/
theorem remote_move_is_echoed :
    ∃ p after final,
      (plainRound [.examine, .deliver ⟨[1, 2], 30⟩]).scanned plainEnv some (pushedTwice .move "b.txt")
        (followingLaptop [("a.txt", remoteFile)]) = some p ∧
      p.finish plainEnv (plainRound [.examine, .deliver ⟨[1, 2], 30⟩]) (pushedTwice .move "b.txt")
        (pushedTwice .move "b.txt") = some (after, final) ∧
      final.items.map (·.relativePath) = ["a.txt"] ∧ ¬ Quiet plainEnv some final after := by
  have echoes : ((plainRound [.examine, .deliver ⟨[1, 2], 30⟩]).scanned plainEnv some
      (pushedTwice .move "b.txt") (followingLaptop [("a.txt", remoteFile)])).any fun p =>
        (p.finish plainEnv (plainRound [.examine, .deliver ⟨[1, 2], 30⟩]) (pushedTwice .move "b.txt")
          (pushedTwice .move "b.txt")).any fun left =>
            left.2.items.map (·.relativePath) = ["a.txt"] ∧
            (∀ entry ∈ left.1.folder, entry.1 ∈ (plainRound []).order) ∧
            ((plainRound []).scanned plainEnv some left.2 left.1).any fun next => next.operations ≠ [] := by
    decide
  obtain ⟨p, scanned, met⟩ := (Option.any_eq_true _ _).mp echoes
  obtain ⟨⟨after, final⟩, finished, met⟩ := (Option.any_eq_true _ _).mp met
  obtain ⟨moved, covers, pushes⟩ := of_decide_eq_true met
  obtain ⟨next, again, pushes⟩ := (Option.any_eq_true _ _).mp pushes
  exact ⟨p, after, final, scanned, finished, moved,
    not_quiet rfl covers again (of_decide_eq_true pushes)⟩

end Drivebound.Desktop
