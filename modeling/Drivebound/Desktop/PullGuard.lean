import Drivebound.Core.Run
import Drivebound.Desktop.Client

/-! Which files a pull may replace or unlink. Its guard compares the file at the
recorded path of the operation's logical id, while a download is put in place at
the path the operation names. The two are the same file exactly when the
destination is that recorded path; a vacant destination loses nothing, and where
the item's own file has changed, a conflict is recorded instead. -/
namespace Drivebound.Desktop
open Sync Run

variable {π : Type} [DecidableEq π]

/-- A path that is to be unlinked or replaced, for which item and under which entries. -/
structure Overwrite (π : Type) where
  entries : Dict UUID Entry
  logicalId : UUID
  path : π
  deriving DecidableEq, Repr

/-- What the guard has let through. -/
def Process.overwrite? : Process π → Option (Overwrite π)
  | .unlinking memory operation path _ _ _ =>
    some ⟨memory.state.entries, operation.logicalId, path⟩
  | .downloading memory operation _ destination _ _ _ =>
    some ⟨memory.state.entries, operation.logicalId, destination⟩
  | .stopped | .ready _ | .asked _ _ | .pulling _ _ _ _ | .pulled _ | .pushing _ _ _ _
  | .answered _ _ _ _ | .acknowledged _ => none

def Machine.overwrites (m : Machine π) : Label π → Option (Overwrite π)
  | .unlink | .deliver _ => m.process.overwrite?
  | _ => none

/-- The user's own change of the folder. -/
def Label.edits (path : π) : Label π → Prop
  | .edit other _ => other = path
  | _ => False

/-- A file changes only where a step overwrites or where the user edits. -/
theorem step_frame {env : Env π} {m m' : Machine π} (stepped : step env m label = some m')
    (untouched : ∀ overwrite ∈ m.overwrites label, overwrite.path ≠ path)
    (unedited : ¬ label.edits path) : m'.folder.get? path = m.folder.get? path := by
  cases label with
  | unlink =>
    simp only [step] at stepped
    split at stepped
    · rename_i same
      cases stepped
      simp only [Machine.overwrites, Process.overwrite?, same] at untouched
      exact Dict.get?_pop_other _ (Ne.symm (untouched _ rfl))
    · contradiction
  | deliver file =>
    simp only [step] at stepped
    split at stepped
    · rename_i same
      cases stepped
      simp only [Machine.overwrites, Process.overwrite?, same] at untouched
      exact Dict.get?_set_other _ _ (Ne.symm (untouched _ rfl))
    · contradiction
  | edit other file =>
    cases stepped
    cases file with
    | none => exact Dict.get?_pop_other _ (Ne.symm unedited)
    | some file => exact Dict.get?_set_other _ _ (Ne.symm unedited)
  | stop =>
    cases stepped
    rfl
  | load rootId drawn =>
    simp only [step] at stepped
    split at stepped
    · cases stepped
      simp only [Machine.loadState_folder]
    · contradiction
  | readRoot | readPage | examine | finishPull | save | skipPush | readPushRoot | answerPush
  | acknowledge =>
    simp only [step] at stepped
    split at stepped <;> first | (cases stepped; rfl) | contradiction

/-- The file is the one recorded for this item at this path. -/
def Overwrite.Recorded (env : Env π) (overwrite : Overwrite π) (file : LocalFile) : Prop :=
  ∃ entry ∈ overwrite.entries.get? overwrite.logicalId,
    env.resolve entry.relativePath = overwrite.path ∧ entry.matches file

/-- The path is the one recorded for this item. -/
def Overwrite.OwnPath (env : Env π) (overwrite : Overwrite π) : Prop :=
  ∃ entry ∈ overwrite.entries.get? overwrite.logicalId,
    env.resolve entry.relativePath = overwrite.path

/-- The path in the folder at which an upsert or a move puts its file. -/
def contentTarget (env : Env π) (payload : Payload) : Option π :=
  match payload.relativePath, payload.originalUrl with
  | some relativePath, some _ =>
    if env.inside (env.resolve relativePath) then some (env.resolve relativePath) else none
  | _, _ => none

/-- The path of the folder that a remote operation is about. -/
def target (env : Env π) (state : ClientState) (operation : SyncOperation) : Option π :=
  if operation.status ≠ .applied ∨ operation.clientId = state.clientId then none
  else
    match operation.kind with
    | .delete =>
      (state.entries.get? operation.logicalId).map fun entry => env.resolve entry.relativePath
    | .upsert | .move => contentTarget env operation.payload

/-- What the operation would do to the folder. -/
def aim (env : Env π) (state : ClientState) (operation : SyncOperation) : Option (Overwrite π) :=
  (target env state operation).map fun path => ⟨state.entries, operation.logicalId, path⟩

/-- A file that a step replaces or removes, and not its user, is the recorded one. -/
def OverwritesRecorded (env : Env π) (m : Machine π) (label : Label π) : Prop :=
  ∀ m', step env m label = some m' → ∀ path, ¬ label.edits path → ∀ file ∈ m.folder.get? path,
    m'.folder.get? path = some file ∨
      ∃ overwrite ∈ m.overwrites label, overwrite.path = path ∧ overwrite.Recorded env file

/-- The run has recorded one more conflict, which is about the operation. -/
def Process.Reports (before : Memory π) (operation : SyncOperation) : Process π → Prop
  | .pulling memory _ _ _ => ∃ conflict ∈ memory.state.conflicts.getLast?,
    memory.state.conflicts = before.state.conflicts ++ [conflict] ∧
      conflict.logicalId = some operation.logicalId ∧
        conflict.operationId = some operation.operationId
  | _ => False

/-- Where an operation is about a file that is not the recorded one, a conflict is recorded. -/
def RecordsConflict (env : Env π) (m : Machine π) : Label π → Prop
  | .examine =>
    match m.process with
    | .pulling memory (operation :: _) _ _ =>
      ∀ aimed ∈ aim env memory.state operation, ∀ file ∈ m.folder.get? aimed.path,
        aimed.Recorded env file ∨
          ∀ m', step env m .examine = some m' → m'.process.Reports memory operation
    | _ => True
  | _ => True

/-- The step spares the files that are not recorded. -/
def SparesFiles (env : Env π) (m : Machine π) (label : Label π) : Prop :=
  OverwritesRecorded env m label ∧ RecordsConflict env m label

/-- The path that a remote operation is about is vacant, or the recorded one of its item, or
the item's own file has changed. -/
def MeetsOwnFile (env : Env π) (m : Machine π) : Label π → Prop
  | .examine =>
    match m.process with
    | .pulling memory (operation :: _) _ _ =>
      ∀ aimed ∈ aim env memory.state operation, m.folder.get? aimed.path = none ∨
        aimed.OwnPath env ∨ ∃ entry ∈ memory.state.entries.get? operation.logicalId,
          unchangedFromState env m.folder entry = false
    | _ => True
  | _ => True

/-- Between a guard and the change that it lets through, the user leaves the file alone. -/
def Undisturbed (m : Machine π) (label : Label π) : Prop :=
  ∀ overwrite ∈ m.process.overwrite?, ¬ label.edits overwrite.path

instance (env : Env π) (overwrite : Overwrite π) : Decidable (overwrite.OwnPath env) :=
  inferInstanceAs (Decidable (∃ entry ∈ overwrite.entries.get? overwrite.logicalId, _))

instance (env : Env π) (m : Machine π) : DecidablePred (MeetsOwnFile env m) := fun label => by
  unfold MeetsOwnFile
  split
  · split
    · refine @Option.decidableForallMem _ _ (fun aimed => ?_) _
      refine @instDecidableOr _ _ _ (@instDecidableOr _ _ _ ?_)
      exact Option.decidableExistsMem ..
    · infer_instance
  · infer_instance

instance (path : π) : DecidablePred (Label.edits path)
  | .edit other _ => inferInstanceAs (Decidable (other = path))
  | .load .. | .readRoot _ | .readPage .. | .examine | .unlink | .deliver _ | .finishPull | .save
  | .skipPush | .readPushRoot .. | .answerPush _ | .acknowledge | .stop => isFalse id

instance (m : Machine π) : DecidablePred (Undisturbed m) := fun _ =>
  Option.decidableForallMem ..

theorem unchanged_matches {env : Env π} {folder : Folder π} {entry : Entry}
    (unchanged : unchangedFromState env folder entry = true)
    (here : folder.get? (env.resolve entry.relativePath) = some file) : entry.matches file := by
  rw [unchangedFromState, here] at unchanged
  exact of_decide_eq_true unchanged

theorem planDelete_unlink {env : Env π} {folder : Folder π}
    (planned : planDelete env folder current = .unlink path) :
    ∃ entry, current = some entry ∧ env.resolve entry.relativePath = path ∧
      unchangedFromState env folder entry = true := by
  unfold planDelete at planned
  split at planned
  · contradiction
  · rename_i entry
    split at planned
    · rename_i unchanged
      cases planned
      exact ⟨entry, rfl, rfl, unchanged⟩
    · contradiction

theorem planDelete_download {env : Env π} {folder : Folder π} :
    planDelete env folder current ≠ .download relativePath destination := by
  unfold planDelete
  split
  · simp
  · split <;> simp

theorem planContent_unlink {env : Env π} {folder : Folder π} :
    planContent env folder current payload ≠ .unlink path := by
  unfold planContent
  split
  · split_ifs <;> simp
  · simp

theorem planContent_download {env : Env π} {folder : Folder π}
    (planned : planContent env folder current payload = .download relativePath destination) :
    ∀ entry ∈ current, unchangedFromState env folder entry = true := by
  intro entry tracked
  unfold planContent at planned
  split at planned
  · split_ifs at planned with outside changed
    cases Option.mem_def.mp tracked
    simpa using changed
  · contradiction

/-- An unlink is planned only at the recorded path of an unchanged file. -/
theorem plan_unlink {env : Env π} {folder : Folder π} {state : ClientState}
    (planned : plan env folder state operation = .unlink path) :
    ∃ entry, state.entries.get? operation.logicalId = some entry ∧
      env.resolve entry.relativePath = path ∧ unchangedFromState env folder entry = true := by
  unfold plan at planned
  split at planned
  · contradiction
  · split at planned
    · exact planDelete_unlink planned
    · exact absurd planned planContent_unlink
    · exact absurd planned planContent_unlink

/-- A download is planned only where the tracked file, if any, is unchanged. -/
theorem plan_download {env : Env π} {folder : Folder π} {state : ClientState}
    (planned : plan env folder state operation = .download relativePath destination) :
    ∀ entry ∈ state.entries.get? operation.logicalId,
      unchangedFromState env folder entry = true := by
  unfold plan at planned
  split at planned
  · contradiction
  · split at planned
    · exact absurd planned planDelete_download
    · exact planContent_download planned
    · exact planContent_download planned

/-- A conflict is planned only where the tracked file has changed, and always there. -/
theorem plan_conflict {env : Env π} {folder : Folder π} {state : ClientState} {aimed : Overwrite π}
    (aims : aim env state operation = some aimed) :
    (∃ message, plan env folder state operation = .conflict message) ↔
      ∃ entry ∈ state.entries.get? operation.logicalId,
        unchangedFromState env folder entry = false := by
  simp only [aim, target, Option.map_eq_some_iff] at aims
  obtain ⟨path, aims, rfl⟩ := aims
  unfold plan
  split_ifs at aims ⊢ with passed
  cases kind : operation.kind with
  | delete =>
    rw [kind] at aims
    obtain ⟨entry, tracked, _⟩ := Option.map_eq_some_iff.mp aims
    simp only [planDelete, tracked]
    cases unchanged : unchangedFromState env folder entry <;> simp [unchanged]
  | upsert | move =>
    rw [kind] at aims
    simp only [contentTarget] at aims
    simp only [planContent]
    split at aims
    · rename_i relativePath url named linked
      split_ifs at aims with inside
      simp only [named, linked, inside]
      cases tracked : state.entries.get? operation.logicalId with
      | none => simp
      | some entry => cases unchanged : unchangedFromState env folder entry <;> simp [unchanged]
    · contradiction

/-- What is planned for the folder is what the operation is about. -/
theorem plan_aims {env : Env π} {folder : Folder π} {state : ClientState}
    (planned : plan env folder state operation = .unlink path ∨
      ∃ relativePath, plan env folder state operation = .download relativePath path) :
    aim env state operation = some ⟨state.entries, operation.logicalId, path⟩ := by
  unfold plan at planned
  unfold aim target
  split_ifs at planned ⊢ with passed
  · simp at planned
  cases kind : operation.kind with
  | delete =>
    rw [kind] at planned
    rcases planned with unlinks | ⟨relativePath, downloads⟩
    · obtain ⟨entry, tracked, rfl, _⟩ := planDelete_unlink unlinks
      simp only [tracked, Option.map_some]
    · exact absurd downloads planDelete_download
  | upsert | move =>
    rw [kind] at planned
    rcases planned with unlinks | ⟨relativePath, downloads⟩
    · exact absurd unlinks planContent_unlink
    · simp only [planContent] at downloads
      split at downloads
      · rename_i named linked
        split_ifs at downloads with outside changed
        cases downloads
        simp only [Bool.not_eq_true', Bool.not_eq_false] at outside
        simp only [contentTarget, named, linked, outside, if_true, Option.map_some]
      · contradiction

/-- What the guard has let through is still the recorded file. -/
def Guarded (env : Env π) (m : Machine π) : Prop :=
  ∀ overwrite ∈ m.process.overwrite?, ∀ file ∈ m.folder.get? overwrite.path,
    overwrite.Recorded env file

theorem examine_guarded {env : Env π} {m : Machine π} {memory : Memory π}
    {pending : List SyncOperation} {cursor : Nat} {conflicts : List UUID}
    (process : m.process = .pulling memory (operation :: pending) cursor conflicts)
    (meets : MeetsOwnFile env m .examine) :
    Guarded env { m with
      process := examine env m.folder memory operation pending cursor conflicts } := by
  simp only [MeetsOwnFile, process] at meets
  intro overwrite happens file here
  simp only [examine] at happens
  split at happens
  all_goals try contradiction
  · rename_i path planned
    cases happens
    obtain ⟨entry, tracked, rfl, unchanged⟩ := plan_unlink planned
    exact ⟨entry, tracked, rfl, unchanged_matches unchanged here⟩
  · rename_i relativePath destination planned
    cases happens
    have unchanged := plan_download planned
    rcases meets _ (plan_aims (.inr ⟨_, planned⟩)) with vacant | ⟨entry, tracked, own⟩ |
      ⟨entry, tracked, changed⟩
    · rw [vacant] at here
      contradiction
    · exact ⟨entry, tracked, own, unchanged_matches (unchanged entry tracked) (own ▸ here)⟩
    · rw [unchanged entry tracked] at changed
      contradiction

theorem step_guarded {env : Env π} (m : Machine π) (label : Label π) (m' : Machine π)
    (guarded : Guarded env m) (met : Undisturbed m label ∧ MeetsOwnFile env m label)
    (stepped : step env m label = some m') : Guarded env m' := by
  obtain ⟨undisturbed, meets⟩ := met
  cases label with
  | examine =>
    simp only [step] at stepped
    split at stepped
    · rename_i same
      cases stepped
      exact examine_guarded same meets
    · contradiction
  | edit path file =>
    intro overwrite happens other here
    have frame (unedited : ¬ (Label.edit path file).edits overwrite.path) :=
      step_frame stepped (fun _ none => by cases none) unedited
    cases stepped
    exact guarded overwrite happens other (frame (undisturbed overwrite happens) ▸ here)
  | stop =>
    cases stepped
    intro overwrite happens
    contradiction
  | save =>
    simp only [step] at stepped
    split at stepped
    · rename_i same
      cases stepped
      intro overwrite happens
      simp only [same, Process.overwrite?] at happens
      contradiction
    · cases stepped
      intro overwrite happens
      contradiction
    · contradiction
  | load | readRoot | readPage | unlink | deliver | finishPull | skipPush | readPushRoot | answerPush
  | acknowledge =>
    simp only [step] at stepped
    split at stepped
    · cases stepped
      intro overwrite happens
      contradiction
    · contradiction

theorem guarded_spares {env : Env π} (m : Machine π) (label : Label π) (guarded : Guarded env m)
    (meets : MeetsOwnFile env m label) : SparesFiles env m label := by
  constructor
  · intro m' stepped path unedited file here
    by_cases overwritten : ∃ overwrite ∈ m.overwrites label, overwrite.path = path
    · obtain ⟨overwrite, happens, rfl⟩ := overwritten
      have through : overwrite ∈ m.process.overwrite? := by
        cases label with
        | unlink | deliver => exact happens
        | _ => contradiction
      exact .inr ⟨overwrite, happens, rfl, guarded overwrite through file here⟩
    · refine .inl ((step_frame stepped (fun overwrite happens same => ?_) unedited).trans here)
      exact overwritten ⟨overwrite, happens, same⟩
  · cases label with
    | examine =>
      unfold RecordsConflict
      dsimp only
      split
      · rename_i memory operation pending cursor conflicts same
        simp only [MeetsOwnFile, same] at meets
        intro aimed aims file here
        by_cases changed : ∃ entry ∈ memory.state.entries.get? operation.logicalId,
            unchangedFromState env m.folder entry = false
        · right
          intro m' stepped
          obtain ⟨message, planned⟩ := (plan_conflict aims).mpr changed
          simp only [step, same, examine, planned] at stepped
          cases stepped
          refine ⟨_, List.getLast?_concat, rfl, rfl, rfl⟩
        · left
          rcases meets aimed aims with vacant | ⟨entry, tracked, own⟩ | other
          · rw [vacant] at here
            contradiction
          · obtain ⟨_, _, rfl⟩ := Option.map_eq_some_iff.mp aims
            refine ⟨entry, tracked, own, unchanged_matches ?_ (own ▸ here)⟩
            by_contra unrecorded
            exact changed ⟨entry, tracked, by simpa using unrecorded⟩
          · exact absurd other changed
      · trivial
    | _ => trivial

/-- A step that spares the files meets only its own, or leaves a changed one alone. -/
theorem spares_meets {env : Env π} (m : Machine π) (label : Label π)
    (spares : SparesFiles env m label) : MeetsOwnFile env m label := by
  have records := spares.2
  cases label with
  | examine =>
    unfold MeetsOwnFile
    dsimp only
    split
    · rename_i memory operation pending cursor conflicts same
      simp only [RecordsConflict, same] at records
      intro aimed aims
      cases here : m.folder.get? aimed.path with
      | none => exact .inl rfl
      | some file =>
        rcases records aimed aims file here with ⟨entry, tracked, own, _⟩ | reports
        · exact .inr (.inl ⟨entry, tracked, own⟩)
        · refine .inr (.inr ((plan_conflict aims).mp ?_))
          have reports := reports { m with
              process := examine env m.folder memory operation pending cursor conflicts }
            (by simp only [step, same])
          simp only [examine] at reports
          split at reports
          case h_4 message planned => exact ⟨message, planned⟩
          all_goals first
            | contradiction
            | obtain ⟨conflict, _, grown, _⟩ := reports
              simp [Memory.handle] at grown
    · trivial
  | _ => trivial

/-- A run of the client, whatever the server answers and the user edits elsewhere,
replaces and unlinks only files that its state records for the same item at the
same path, and records a conflict where a remote operation is about another file,
exactly if what its operations are about is vacant, so recorded or changed. -/
theorem pull_overwrites_recorded_files {env : Env π} {m : Machine π}
    (stopped : m.process = .stopped) (undisturbed : Along (step env) Undisturbed m labels) :
    Along (step env) (SparesFiles env) m labels ↔
      Along (step env) (MeetsOwnFile env) m labels := by
  constructor
  · exact Along.mono spares_meets
  · intro meets
    refine along_of_invariant step_guarded (fun m label guarded met => ?_) ?_
      (undisturbed.and meets)
    · exact guarded_spares m label guarded met.2
    · intro overwrite happens
      simp only [stopped, Process.overwrite?] at happens
      contradiction

/-- A folder without links, where a relative path names itself. -/
def plainEnv : Env String where
  resolve path := path
  inside _ := true
  sha256 content := toString content

def remoteUpsert : SyncOperation where
  id := 1
  rootId := 1
  cursor := 1
  clientId := "desk"
  clientSequence := 1
  operationId := 2
  kind := .upsert
  logicalId := 3
  baseRevision := none
  revision := some "r1"
  payload := { relativePath := some "a.txt", originalUrl := some "/api/v1/assets/4/original" }
  status := .applied

def remoteFile : LocalFile := ⟨[1, 2], 20⟩

/-- A second computer that joins the root with a folder of its own. -/
def joining (folder : Folder String) : Machine String where
  folder
  saved := ⟨stateTemplate "laptop", []⟩
  filed := false
  names := []
  process := .stopped

theorem pull_overwrites_recorded_files_twice :
    Along (step plainEnv) (SparesFiles plainEnv) (joining [])
      [.load 1 "laptop", .readRoot 1, .readPage [remoteUpsert, remoteUpsert] [], .examine,
        .edit "b.txt" (some ⟨[7], 5⟩), .deliver remoteFile, .examine, .deliver ⟨[3], 30⟩,
        .finishPull, .save] :=
  (pull_overwrites_recorded_files rfl (by decide)).mpr (by decide)

/-- The first pull of the second computer replaces its own, untracked file and
records no conflict. -/
theorem pull_overwrites_untracked_file :
    ¬ Along (step plainEnv) (SparesFiles plainEnv) (joining [("a.txt", ⟨[9], 10⟩)])
      [.load 1 "laptop", .readRoot 1, .readPage [remoteUpsert] [], .examine,
        .deliver remoteFile] ∧
    (run (step plainEnv) (joining [("a.txt", ⟨[9], 10⟩)])
      [.load 1 "laptop", .readRoot 1, .readPage [remoteUpsert] [], .examine, .deliver remoteFile,
        .finishPull, .save]).map
      (fun m => (m.folder.get? "a.txt", m.saved.state.conflicts)) =
        some (some remoteFile, []) := by
  constructor
  · intro spares
    exact absurd (spares.mono spares_meets) (by decide)
  · decide

end Drivebound.Desktop
