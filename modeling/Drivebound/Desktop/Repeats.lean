import Drivebound.Desktop.Push
import Mathlib

/-! A push of which the server may have recorded a part before. The server knows a repeated
operation by its number; a client that starts again from its state file numbers its operations as
before, but finds them by scanning the folder again. Where the client knows each change of its own
that stands on the server, or repeats it, no turn drops a change or is in conflict with the client
itself, and the items that the client has changed last end as the files of its folder. -/
namespace Drivebound.Desktop
open Sync Checked Run Latest

variable {π : Type}

/-- The content that a recorded operation is for: of a refused one, that of its upload. -/
def content? (db : SyncDb) (operation : SyncOperation) : Option String :=
  operation.payload.checksum.or (operation.payload.assetId.bind fun id =>
    (db.assets.find? fun asset => asset.id = id).map Asset.checksum)

/-- The recorded operation is for the change that the input is for: the same file at the same
path, or the same item moved there or deleted. -/
def SameChange (env : Env π) (db : SyncDb) (files : Dict String LocalFile) (operation : SyncOperation)
    (input : SyncOperationInput) : Prop :=
  operation.kind = input.kind ∧
  (input.kind ≠ .upsert → operation.logicalId = input.logicalId) ∧
  (input.kind ≠ .delete → operation.payload.relativePath = input.relativePath ∧
    ∃ name ∈ input.relativePath, ∃ file ∈ files.get? name,
      ∀ checksum ∈ content? db operation, checksum = env.sha256 file.content)

/-- The change of the item that stands is the client's own. `names` are the ids under which its
runs have gone. -/
def Own (db : SyncDb) (names : List String) (logicalId : UUID) : Prop :=
  ∃ operation ∈ db.effective, Standing db logicalId operation ∧ operation.clientId ∈ names

/-- The change of the item that stands is another client's. -/
def Contested (db : SyncDb) (names : List String) (logicalId : UUID) : Prop :=
  ∃ operation ∈ db.effective, Standing db logicalId operation ∧ operation.clientId ∉ names

/-- The item of its logical id, which is not deleted. -/
def Live (db : SyncDb) (item : SyncItem) : Prop :=
  db.item? item.logicalId = some item ∧ item.deletedAt = none

/-- The item has the content of the file, by its digest or as its entry records it. -/
def Holds (env : Env π) (db : SyncDb) (entries : Dict UUID Entry) (file : LocalFile)
    (item : SyncItem) : Prop :=
  HasContent db.assets item.assetId (some (env.sha256 file.content)) ∨
    ∃ tracked ∈ entries, tracked.1 = item.logicalId ∧ tracked.2.matches file ∧
      HasContent db.assets item.assetId tracked.2.fingerprint.checksum

/-- What the turn of an input in a push must not do. -/
structure Faithful (env : Env π) (db : SyncDb) (names : List String) (clientId : String)
    (files : Dict String LocalFile) (b : Batch) (input : SyncOperationInput) : Prop where
  /-- Where the number or the id was used already, it was for this change. -/
  answered : ∀ operation ∈ duplicate? b.db clientId input, SameChange env db files operation input
  /-- A base revision in conflict is not one that the client has replaced itself. -/
  unopposed : duplicate? b.db clientId input = none →
    (baseConflict input (b.db.item? input.logicalId)).isSome = true →
      ¬ Own b.db names input.logicalId
  /-- A file that has an item of the client gets no second one. -/
  single : duplicate? b.db clientId input = none → input.kind = .upsert →
    b.db.item? input.logicalId = none →
      ∀ item, Live b.db item → some item.relativePath = input.relativePath →
        ¬ Own b.db names item.logicalId

/-- The operation is recorded under the number of the input. -/
def Numbered (db : SyncDb) (clientId : String) (input : SyncOperationInput)
    (operation : SyncOperation) : Prop :=
  operation ∈ db.operations ∧ operation.rootId = db.root.id ∧ operation.clientId = clientId ∧
    operation.clientSequence = input.clientSequence

/-- A live item that the client has changed last, unless its push has an operation on it that
the server has refused. -/
structure Remains (db : SyncDb) (names : List String) (clientId : String)
    (inputs : List SyncOperationInput) (item : SyncItem) : Prop where
  live : Live db item
  own : Own db names item.logicalId
  accepted : ∀ input ∈ inputs, input.logicalId = item.logicalId →
    ∀ operation, Numbered db clientId input operation → operation.status = .applied

/-- The items of the client are the files of its folder, each once, as after one push of the
folder: a file without its item is one whose operation the server has refused, or whose item
another client has changed. -/
structure Reflects (env : Env π) (db : SyncDb) (names : List String) (state : ClientState)
    (files : Dict String LocalFile) (inputs : List SyncOperationInput) : Prop where
  held : ∀ item, Remains db names state.clientId inputs item →
    ∃ file ∈ files.get? item.relativePath, Holds env db state.entries file item
  single : ∀ a b, Remains db names state.clientId inputs a →
    Remains db names state.clientId inputs b → a.relativePath = b.relativePath → a = b
  stored : ∀ name, ∀ file ∈ files.get? name,
    (∃ item, Live db item ∧ item.relativePath = name ∧ Holds env db state.entries file item) ∨
    (∃ tracked ∈ state.byPath.get? name, Contested db names tracked.1) ∨
    ∃ input ∈ inputs, input.kind ≠ .delete ∧ input.relativePath = some name ∧
      ∃ operation, Numbered db state.clientId input operation ∧
        (operation.status ≠ .applied ∨ Contested db names operation.logicalId)

/-- The state has an entry for the item. -/
def Tracked (state : ClientState) (logicalId : UUID) : Prop :=
  ∃ tracked ∈ state.entries, tracked.1 = logicalId

/-- The push is for the recorded change again, under the same number and for the same item, or
for a file whose item the client does not know. The change stands, or another client's does. -/
structure Repeats (env : Env π) (db : SyncDb) (names : List String) (state : ClientState)
    (files : Dict String LocalFile) (operation : SyncOperation) (input : SyncOperationInput) :
    Prop where
  found : duplicate? db state.clientId input = some operation
  change : SameChange env db files operation input
  item : operation.logicalId = input.logicalId ∨
    ¬ Tracked state operation.logicalId ∧ ¬ Tracked state input.logicalId
  stands : operation.status = .applied →
    Standing db operation.logicalId operation ∨ Contested db names operation.logicalId

/-- The state has no other revision of the item, and finds a live one at its path. -/
structure Acknowledged (state : ClientState) (operation : SyncOperation) : Prop where
  revision : ∀ tracked ∈ state.entries, tracked.1 = operation.logicalId →
    tracked.2.revision = operation.revision
  found : operation.kind ≠ .delete → ∃ name ∈ operation.payload.relativePath,
    ∃ tracked ∈ state.byPath.get? name, tracked.1 = operation.logicalId

/-- The client knows its own changes that stand on the server, or repeats them. -/
structure Informed (env : Env π) (db : SyncDb) (names : List String) (state : ClientState)
    (files : Dict String LocalFile) (draw : Nat → Draw) (inputs : List SyncOperationInput) :
    Prop where
  numbers : ∀ operation ∈ db.operations, operation.rootId = db.root.id →
    operation.clientId = state.clientId → operation.clientSequence < state.sequence ∨
      ∃ input ∈ inputs, Repeats env db names state files operation input
  known : ∀ operation ∈ db.effective, Standing db operation.logicalId operation →
    operation.clientId ∈ names → Acknowledged state operation ∨
      ∃ input ∈ inputs, Repeats env db names state files operation input
  /-- No item is taken for two files. -/
  distinct : (inputs.map SyncOperationInput.logicalId).Nodup
  apart : ∀ file ∈ files, ∀ tracked ∈ state.byPath.get? file.1, tracked.2.matches file.2 →
    ∀ input ∈ inputs, input.logicalId ≠ tracked.1
  /-- The ids that are drawn for items are new. -/
  unused : ∀ input ∈ inputs, ∀ operation ∈ db.operations,
    operation.logicalId ≠ (draw input.clientSequence).logicalId

instance (env : Env π) (db : SyncDb) (files : Dict String LocalFile) (operation : SyncOperation) :
    DecidablePred (SameChange env db files operation) := fun input =>
  have : Decidable (∃ name ∈ input.relativePath, ∃ file ∈ files.get? name,
      ∀ checksum ∈ content? db operation, checksum = env.sha256 file.content) :=
    @Option.decidableExistsMem _ _ (fun _ => @Option.decidableExistsMem _ _ (fun _ =>
      Option.decidableForallMem ..) _) _
  inferInstanceAs (Decidable (_ ∧ _ ∧ (input.kind ≠ .delete → _ ∧ ∃ name ∈ input.relativePath, _)))

instance (db : SyncDb) (names : List String) : DecidablePred (Contested db names) := fun _ =>
  inferInstanceAs (Decidable (∃ operation ∈ db.effective, _))

instance (state : ClientState) : DecidablePred (Tracked state) := fun _ =>
  inferInstanceAs (Decidable (∃ tracked ∈ state.entries, _))

instance (env : Env π) (db : SyncDb) (names : List String) (state : ClientState)
    (files : Dict String LocalFile) (operation : SyncOperation) :
    DecidablePred (Repeats env db names state files operation) := fun input =>
  decidable_of_iff (duplicate? db state.clientId input = some operation ∧
      SameChange env db files operation input ∧
      (operation.logicalId = input.logicalId ∨
        ¬ Tracked state operation.logicalId ∧ ¬ Tracked state input.logicalId) ∧
      (operation.status = .applied →
        Standing db operation.logicalId operation ∨ Contested db names operation.logicalId))
    ⟨fun ⟨found, change, item, stands⟩ => ⟨found, change, item, stands⟩,
      fun repeats => ⟨repeats.found, repeats.change, repeats.item, repeats.stands⟩⟩

instance (state : ClientState) : DecidablePred (Acknowledged state) := fun operation =>
  have : Decidable (∃ name ∈ operation.payload.relativePath,
      ∃ tracked ∈ state.byPath.get? name, tracked.1 = operation.logicalId) :=
    @Option.decidableExistsMem _ _ (fun _ => Option.decidableExistsMem ..) _
  decidable_of_iff ((∀ tracked ∈ state.entries, tracked.1 = operation.logicalId →
      tracked.2.revision = operation.revision) ∧ (operation.kind ≠ .delete →
      ∃ name ∈ operation.payload.relativePath,
        ∃ tracked ∈ state.byPath.get? name, tracked.1 = operation.logicalId))
    ⟨fun ⟨revision, found⟩ => ⟨revision, found⟩, fun known => ⟨known.revision, known.found⟩⟩

instance (env : Env π) (db : SyncDb) (names : List String) (state : ClientState)
    (files : Dict String LocalFile) (draw : Nat → Draw) :
    DecidablePred (Informed env db names state files draw) := fun inputs =>
  have : Decidable (∀ file ∈ files, ∀ tracked ∈ state.byPath.get? file.1,
      tracked.2.matches file.2 → ∀ input ∈ inputs, input.logicalId ≠ tracked.1) :=
    @List.decidableBAll _ _ (fun _ => Option.decidableForallMem ..) files
  decidable_of_iff
    ((∀ operation ∈ db.operations, operation.rootId = db.root.id →
      operation.clientId = state.clientId → operation.clientSequence < state.sequence ∨
        ∃ input ∈ inputs, Repeats env db names state files operation input) ∧
      (∀ operation ∈ db.effective, Standing db operation.logicalId operation →
        operation.clientId ∈ names → Acknowledged state operation ∨
          ∃ input ∈ inputs, Repeats env db names state files operation input) ∧
      (inputs.map SyncOperationInput.logicalId).Nodup ∧
      (∀ file ∈ files, ∀ tracked ∈ state.byPath.get? file.1, tracked.2.matches file.2 →
        ∀ input ∈ inputs, input.logicalId ≠ tracked.1) ∧
      ∀ input ∈ inputs, ∀ operation ∈ db.operations,
        operation.logicalId ≠ (draw input.clientSequence).logicalId)
    ⟨fun ⟨numbers, known, distinct, apart, unused⟩ => ⟨numbers, known, distinct, apart, unused⟩,
      fun informed => ⟨informed.numbers, informed.known, informed.distinct, informed.apart,
        informed.unused⟩⟩

/-- A push of what `local_changes` has found, from a state whose entries the server has left. -/
structure Pushed (env : Env π) (db : SyncDb) (state : ClientState) (files : Dict String LocalFile)
    (draw : Nat → Draw) (inputs : List SyncOperationInput) : Prop where
  computed : Computed state draw inputs
  accounts : Accounts state files (files.map Prod.fst) [] inputs
  traced : Traced db state.entries
  backed : (inputs.map SyncOperationInput.operationId).Nodup → ∀ input ∈ inputs,
    ∃ proposal, Suits env state files input proposal ∧ Backed db input proposal

namespace Pushed

variable {env : Env π} {db after : SyncDb} {state : ClientState} {files : Dict String LocalFile}
  {draw : Nat → Draw} {inputs : List SyncOperationInput}

theorem grows {new : SyncOperation → Prop} (pushed : Pushed env db state files draw inputs)
    (grows : Grows db after new) : Pushed env after state files draw inputs := by
  refine ⟨pushed.computed, pushed.accounts, pushed.traced.grows grows, fun ids input member => ?_⟩
  obtain ⟨proposal, suits, backed⟩ := pushed.backed ids input member
  exact ⟨proposal, suits, backed.grows grows⟩

theorem deletes (pushed : Pushed env db state files draw inputs) {cursor : Nat}
    (mirrored : Mirrored db cursor) : DeletesItems db inputs := by
  intro input member delete
  rcases pushed.computed.tracks input member with ⟨entry, tracked, _⟩ | ⟨upsert, _⟩
  · obtain ⟨before, effective, named, _⟩ := pushed.traced _ tracked
    have known := mirrored.found effective
    rw [named] at known
    exact known
  · rw [delete] at upsert
    contradiction

end Pushed

/-- What the server records for an input of the push. -/
structure Records (env : Env π) (db : SyncDb) (clientId : String) (files : Dict String LocalFile)
    (input : SyncOperationInput) (operation : SyncOperation) : Prop where
  rootId : operation.rootId = db.root.id
  author : operation.clientId = clientId
  sequence : operation.clientSequence = input.clientSequence
  operationId : operation.operationId = input.operationId
  kind : operation.kind = input.kind
  logicalId : operation.logicalId = input.logicalId
  file : operation.status = .applied → input.kind ≠ .delete → ∃ name file,
    input.relativePath = some name ∧ files.get? name = some file ∧
      operation.payload.relativePath = some name ∧
        operation.payload.checksum = some (env.sha256 file.content)

/-- The turn comes after those of other numbers, ids, items and paths. -/
structure Apart (done : List SyncOperationInput) (input : SyncOperationInput) : Prop where
  sequence : ∀ other ∈ done, other.clientSequence ≠ input.clientSequence
  operationId : ∀ other ∈ done, other.operationId ≠ input.operationId
  logicalId : ∀ other ∈ done, other.logicalId ≠ input.logicalId
  path : ∀ other ∈ done, other.kind ≠ .delete → input.kind ≠ .delete →
    other.relativePath ≠ input.relativePath

/-- What the turns before have left. -/
structure Progress (env : Env π) (db : SyncDb) (clientId : String) (files : Dict String LocalFile)
    (done : List SyncOperationInput) (b : Batch) : Prop where
  grows : Grows db b.db fun _ => True
  mirrored : ∃ cursor, Mirrored b.db cursor
  rows : ∃ added, b.db.operations = db.operations ++ added ∧ ∀ operation ∈ added,
    ∃ input ∈ done, duplicate? db clientId input = none ∧
      Records env db clientId files input operation
  /-- An item whose inputs are all recorded before is as before. -/
  untouched : ∀ logicalId,
    (∀ input ∈ done, input.logicalId = logicalId → duplicate? db clientId input ≠ none) →
      (∀ operation, Standing b.db logicalId operation ↔ Standing db logicalId operation) ∧
        b.db.item? logicalId = db.item? logicalId
  outcome : ∀ input ∈ done, duplicate? db clientId input = none → ∃ operation ∈ b.db.operations,
    Records env db clientId files input operation ∧
      (operation.status = .applied → Standing b.db input.logicalId operation)

section Turns

variable {env : Env π} {db : SyncDb} {clientId : String} {files : Dict String LocalFile}
  {state : ClientState} {draw : Nat → Draw} {inputs done : List SyncOperationInput}
  {b after : Batch} {input : SyncOperationInput} {fresh : FreshIds} {operation : SyncOperation}

/-- Of the other items, a turn changes nothing. -/
theorem turn_others (turn : Turn b after clientId input fresh operation)
    (mirrored : Mirrored b.db b.cursor) {logicalId : UUID} (different : logicalId ≠ input.logicalId) :
    (∀ other, Standing after.db logicalId other ↔ Standing b.db logicalId other) ∧
      after.db.item? logicalId = b.db.item? logicalId := by
  by_cases applied : operation.status = .applied
  · have effect := turn.effect mirrored rfl applied
    have apart : logicalId ≠ operation.logicalId := turn.logicalId ▸ different
    exact ⟨effect.standing_other apart, effect.others logicalId apart⟩
  · rw [standing_congr (turn.same applied)]
    exact ⟨fun _ => Iff.rfl, item?_congr (congrArg SyncRoot.id turn.root) (turn.refused applied).1 _⟩

theorem turn_record (turn : Turn b after clientId input fresh operation)
    (pushed : Pushed env db state files draw inputs)
    (ids : (inputs.map SyncOperationInput.operationId).Nodup) (member : input ∈ inputs)
    (grows : Grows db b.db fun _ => True) (mirrored : Mirrored b.db b.cursor) :
    Records env db clientId files input operation := by
  obtain ⟨payload, status, made⟩ := turn.made
  refine ⟨turn.rootId.trans grows.rootId, ?_, ?_, ?_, turn.kind, turn.logicalId, fun applied present => ?_⟩
  · rw [made, newOperation]
  · rw [made, newOperation]
  · rw [made, newOperation]
  · obtain ⟨proposal, suits, backed⟩ := pushed.backed ids input member
    have path := turn.path applied present
    cases suits with
    | move entry tracked file kind _ _ named found digest =>
      refine ⟨_, file, named, found, path.trans named, ?_⟩
      exact ((turn_content turn mirrored applied).1 (backed.grows grows) kind).symm.trans digest
    | upsert entry file kind named found digest =>
      refine ⟨_, file, named, found, path.trans named, ?_⟩
      exact ((turn_content turn mirrored applied).2 (backed.grows grows) kind).symm.trans digest
    | delete _ kind => exact absurd kind present

namespace Progress

theorem start (mirrored : Mirrored db cursor) (loaded : Nat) :
    Progress env db clientId files [] ⟨loaded, db, [], []⟩ :=
  ⟨.same ⟨rfl, rfl, .refl _⟩ rfl, ⟨cursor, mirrored⟩,
    ⟨[], (List.append_nil _).symm, fun _ none => absurd none List.not_mem_nil⟩,
    fun _ _ => ⟨fun _ => Iff.rfl, rfl⟩, fun _ none => absurd none List.not_mem_nil⟩

/-- What was recorded before the push is still found. -/
theorem duplicate? (progress : Progress env db clientId files done b) (apart : Apart done input) :
    Sync.duplicate? b.db clientId input = Sync.duplicate? db clientId input := by
  obtain ⟨added, rows, records⟩ := progress.rows
  have noId : added.find? (fun operation => operation.operationId = input.operationId) = none := by
    refine List.find?_eq_none.mpr fun operation member same => ?_
    obtain ⟨other, there, _, record⟩ := records operation member
    exact apart.operationId other there (record.operationId.symm.trans (of_decide_eq_true same))
  have noNumber : added.find? (fun operation => operation.rootId = b.db.root.id ∧
      operation.clientId = clientId ∧ operation.clientSequence = input.clientSequence) = none := by
    refine List.find?_eq_none.mpr fun operation member same => ?_
    obtain ⟨other, there, _, record⟩ := records operation member
    exact apart.sequence other there (record.sequence.symm.trans (of_decide_eq_true same).2.2)
  unfold Sync.duplicate?
  rw [rows, List.find?_append, List.find?_append, noId, noNumber, Option.or_none, Option.or_none,
    progress.grows.rootId]

theorem repeated (progress : Progress env db clientId files done b)
    (recorded : Sync.duplicate? db clientId input ≠ none) (operations : List SyncOperation) :
    Progress env db clientId files (done ++ [input]) { b with operations } := by
  obtain ⟨added, rows, records⟩ := progress.rows
  refine ⟨progress.grows, progress.mirrored, ⟨added, rows, fun operation member => ?_⟩,
    fun logicalId all => progress.untouched logicalId fun other member =>
      all other (List.mem_append_left _ member), fun other member missing => ?_⟩
  · obtain ⟨other, there, rest⟩ := records operation member
    exact ⟨other, List.mem_append_left _ there, rest⟩
  · rcases List.mem_append.mp member with before | here
    · exact progress.outcome other before missing
    · rw [List.mem_singleton.mp here] at missing
      exact absurd missing recorded

theorem appended (progress : Progress env db clientId files done b)
    (turn : Turn b after clientId input fresh operation) (mirrored : Mirrored b.db b.cursor)
    (still : Mirrored after.db after.cursor) (apart : Apart done input)
    (missing : Sync.duplicate? db clientId input = none)
    (record : Records env db clientId files input operation) :
    Progress env db clientId files (done ++ [input]) after := by
  have last : input ∈ done ++ [input] := List.mem_append_right _ List.mem_cons_self
  obtain ⟨added, rows, records⟩ := progress.rows
  refine ⟨progress.grows.trans (turn.grows mirrored trivial), ⟨_, still⟩,
    ⟨added ++ [operation], ?_, fun other member => ?_⟩, fun logicalId all => ?_,
    fun other member absent => ?_⟩
  · rw [turn.rows, rows, List.append_assoc]
  · rcases List.mem_append.mp member with before | here
    · obtain ⟨earlier, there, rest⟩ := records other before
      exact ⟨earlier, List.mem_append_left _ there, rest⟩
    · rw [List.mem_singleton.mp here]
      exact ⟨input, last, missing, record⟩
  · have different : logicalId ≠ input.logicalId := fun same => all input last same.symm missing
    obtain ⟨standing, item⟩ := turn_others turn mirrored different
    obtain ⟨before, same⟩ := progress.untouched logicalId fun other member =>
      all other (List.mem_append_left _ member)
    exact ⟨fun other => (standing other).trans (before other), item.trans same⟩
  · rcases List.mem_append.mp member with before | here
    · obtain ⟨earlier, there, record, stands⟩ := progress.outcome other before absent
      refine ⟨earlier, turn.rows ▸ List.mem_append_left _ there, record, fun applied => ?_⟩
      exact ((turn_others turn mirrored (apart.logicalId other before)).1 earlier).mpr (stands applied)
    · rw [List.mem_singleton.mp here]
      refine ⟨operation, turn.rows ▸ List.mem_append_right _ List.mem_cons_self, record, fun applied => ?_⟩
      exact turn.logicalId ▸ (turn.effect mirrored rfl applied).standing

/-- A turn of the push. Its cursor counts from the others, or the push is recorded already. -/
theorem turn (progress : Progress env db clientId files done b)
    (pushed : Pushed env db state files draw inputs)
    (ids : (inputs.map SyncOperationInput.operationId).Nodup) (apart : Apart done input)
    (member : input ∈ inputs)
    (counts : Mirrored b.db b.cursor ∨ ∀ input ∈ inputs, Sync.duplicate? db clientId input ≠ none)
    (result : applyOne clientId now b (input, fresh) = .ok after) :
    Progress env db clientId files (done ++ [input]) after ∧
      (Mirrored after.db after.cursor ∨ ∀ input ∈ inputs, Sync.duplicate? db clientId input ≠ none) := by
  have found := progress.duplicate? apart
  rcases applyOne_cases result with ⟨duplicate, recorded, rfl⟩ | ⟨new, _⟩
  · rw [found] at recorded
    exact ⟨progress.repeated (by rw [recorded]; exact Option.some_ne_none _) _, counts⟩
  · have missing := found.symm.trans new
    have mirrored := counts.resolve_right fun all => all input member missing
    have deletes := (pushed.grows progress.grows).deletes mirrored input member
    obtain ⟨operation, turn⟩ := applyOne_turn mirrored deletes new result
    have still := turn.mirrored mirrored deletes
    have record := turn_record turn pushed ids member progress.grows mirrored
    exact ⟨progress.appended turn mirrored still apart missing record, .inl still⟩

/-- What was recorded under the number of an input still is. -/
theorem numbered (progress : Progress env db clientId files done b)
    (numbered : Numbered db clientId input operation) : Numbered b.db clientId input operation := by
  obtain ⟨member, root, rest⟩ := numbered
  obtain ⟨added, rows, _⟩ := progress.rows
  exact ⟨rows ▸ List.mem_append_left _ member, root.trans progress.grows.rootId.symm, rest⟩

end Progress

end Turns

/-- A live item is at the path of the operation that stands. -/
theorem mirrored_live {db : SyncDb} {cursor : Nat} {logicalId : UUID} {operation : SyncOperation}
    {item : SyncItem} (mirrored : Mirrored db cursor) (stands : Standing db logicalId operation)
    (found : db.item? logicalId = some item) (live : item.deletedAt = none) :
    operation.kind ≠ .delete ∧ operation.payload.relativePath = some item.relativePath ∧
      HasContent db.assets item.assetId operation.payload.checksum := by
  obtain ⟨shown, there, _, shows⟩ := mirrored.shown _ operation stands
  cases there.symm.trans found
  have present : operation.kind ≠ .delete := fun delete => shows.deleted delete live
  exact ⟨present, (shows.live present).2⟩

/-- A push that is about to be applied. -/
structure Ready (env : Env π) (db : SyncDb) (names : List String) (state : ClientState)
    (files : Dict String LocalFile) (draw : Nat → Draw) (inputs : List SyncOperationInput) :
    Prop where
  mirrored : Mirrored db db.root.cursor
  pushed : Pushed env db state files draw inputs
  informed : Informed env db names state files draw inputs
  ids : (inputs.map SyncOperationInput.operationId).Nodup
  new : ∀ input ∈ inputs, ∀ operation ∈ db.operations, operation.operationId ≠ input.operationId

namespace Ready

variable {env : Env π} {db : SyncDb} {names : List String} {state : ClientState}
  {files : Dict String LocalFile} {draw : Nat → Draw} {inputs done : List SyncOperationInput}
  {b : Batch} {input other : SyncOperationInput} {operation : SyncOperation}

/-- What is recorded for an input has its number. -/
theorem numbered (ready : Ready env db names state files draw inputs) (member : input ∈ inputs)
    (found : duplicate? db state.clientId input = some operation) :
    Numbered db state.clientId input operation := by
  obtain ⟨there, same⟩ := duplicate?_found found
  exact ⟨there, same.resolve_left (ready.new input member operation there)⟩

/-- An operation that is recorded under the number of an input is repeated by it. -/
theorem repeats (ready : Ready env db names state files draw inputs) (member : input ∈ inputs)
    (found : duplicate? db state.clientId input = some operation) :
    Repeats env db names state files operation input := by
  obtain ⟨there, root, author, number⟩ := ready.numbered member found
  rcases ready.informed.numbers operation there root author with old | ⟨other, present, repeats⟩
  · have recent := ready.pushed.computed.recent member
    omega
  · have same := (ready.numbered present repeats.found).2.2.2
    exact ready.pushed.computed.unique present member (same.symm.trans number) ▸ repeats

/-- An operation without a record before is not under a number that is recorded. -/
theorem unnumbered (missing : duplicate? db state.clientId input = none) :
    ¬ Numbered db state.clientId input operation := by
  rintro ⟨there, same⟩
  exact List.find?_eq_none.mp (Option.or_eq_none_iff.mp missing).2 operation there (decide_eq_true same)

/-- The entry that an operation of an input builds on, unless its item is drawn. -/
theorem tracked (ready : Ready env db names state files draw inputs) (member : input ∈ inputs)
    (there : operation ∈ db.operations) (same : operation.logicalId = input.logicalId) :
    ∃ entry, (input.logicalId, entry) ∈ state.entries ∧ input.baseRevision = entry.revision := by
  rcases ready.pushed.computed.tracks input member with ⟨entry, tracked, base, _⟩ | ⟨_, drawn, _⟩
  · exact ⟨entry, tracked, base⟩
  · exact absurd (same.trans drawn) (ready.informed.unused input member operation there)

/-- What stands after some turns stood before, or is of one of them. -/
theorem origin (progress : Progress env db clientId files done b)
    (stands : Standing b.db logicalId operation) :
    Standing db logicalId operation ∨ ∃ input ∈ done, duplicate? db clientId input = none ∧
      Records env db clientId files input operation := by
  obtain ⟨member, root, applied⟩ := mem_effective.mp stands.member
  obtain ⟨added, rows, records⟩ := progress.rows
  rw [rows] at member
  rcases List.mem_append.mp member with before | new
  · refine .inl (stands.of_subset progress.grows.kept ?_)
    exact mem_effective.mpr ⟨before, root.trans progress.grows.rootId, applied⟩
  · exact .inr (records operation new)

theorem answered (ready : Ready env db names state files draw inputs)
    (progress : Progress env db state.clientId files done b) (apart : Apart done input)
    (member : input ∈ inputs) :
    ∀ operation ∈ duplicate? b.db state.clientId input, SameChange env db files operation input := by
  intro operation found
  rw [progress.duplicate? apart] at found
  exact (ready.repeats member found).change

theorem unopposed (ready : Ready env db names state files draw inputs)
    (progress : Progress env db state.clientId files done b) (apart : Apart done input)
    (member : input ∈ inputs) (new : duplicate? b.db state.clientId input = none)
    (conflicts : (baseConflict input (b.db.item? input.logicalId)).isSome = true) :
    ¬ Own b.db names input.logicalId := by
  rintro ⟨operation, _, stands, own⟩
  rw [progress.duplicate? apart] at new
  obtain ⟨same, item⟩ := progress.untouched input.logicalId fun other there equal =>
    absurd equal (apart.logicalId other there)
  have before := (same operation).mp stands
  obtain ⟨shown, found, revision, _⟩ := ready.mirrored.shown _ operation before
  obtain ⟨entry, tracked, base⟩ := ready.tracked member (mem_effective.mp before.member).1 before.named
  rcases ready.informed.known operation before.member (before.named.symm ▸ before) own with
    known | ⟨other, present, repeats⟩
  · have agreed : input.baseRevision = some shown.revision :=
      base.trans ((known.revision _ tracked before.named.symm).trans revision)
    rw [item, found] at conflicts
    simp [baseConflict, agreed] at conflicts
  · rcases repeats.item with equal | ⟨untracked, _⟩
    · obtain rfl : other = input := List.inj_on_of_nodup_map ready.informed.distinct present member
        (equal.symm.trans before.named)
      rw [repeats.found] at new
      contradiction
    · exact untracked ⟨_, tracked, before.named.symm⟩

theorem single (ready : Ready env db names state files draw inputs)
    (progress : Progress env db state.clientId files done b) (apart : Apart done input)
    (member : input ∈ inputs) (new : duplicate? b.db state.clientId input = none)
    (upsert : input.kind = .upsert) (missing : b.db.item? input.logicalId = none) (item : SyncItem)
    (live : Live b.db item) (path : some item.relativePath = input.relativePath) :
    ¬ Own b.db names item.logicalId := by
  rintro ⟨operation, _, stands, own⟩
  rw [progress.duplicate? apart] at new
  have stays : input.kind ≠ .delete := by
    rw [upsert]
    exact fun same => by cases same
  obtain ⟨cursor, mirrored⟩ := progress.mirrored
  obtain ⟨present, named, _⟩ := mirrored_live mirrored stands live.1 live.2
  rcases origin progress stands with before | ⟨earlier, there, _, record⟩
  · rcases ready.informed.known operation before.member (before.named.symm ▸ before) own with
      known | ⟨other, isInput, repeats⟩
    · obtain ⟨name, here, tracked, direct, mine⟩ := known.found present
      obtain rfl : item.relativePath = name := Option.some.inj (named.symm.trans here)
      rcases ready.pushed.computed.tracks input member with ⟨entry, _, _, direct'⟩ |
        ⟨_, _, name, named', absent⟩
      · obtain ⟨name, named', direct'⟩ := direct' upsert
        obtain rfl : item.relativePath = name := Option.some.inj (path.trans named')
        obtain rfl := Option.some.inj ((Option.mem_def.mp direct).symm.trans direct')
        have same : input.logicalId = item.logicalId := mine.trans before.named
        rw [same, live.1] at missing
        contradiction
      · obtain rfl : item.relativePath = name := Option.some.inj (path.trans named')
        rw [Option.mem_def.mp direct] at absent
        contradiction
    · obtain ⟨kind, _, file⟩ := repeats.change
      have visible : other.kind ≠ .delete := kind ▸ present
      have same := (file visible).1.symm.trans (named.trans path)
      obtain rfl := ready.pushed.computed.apart isInput member visible stays same
      rw [repeats.found] at new
      contradiction
  · have visible : earlier.kind ≠ .delete := record.kind ▸ present
    obtain ⟨name, _, here, _, there', _⟩ :=
      record.file (mem_effective.mp stands.member).2.2 visible
    exact apart.path earlier there visible stays (here.trans (there'.symm.trans (named.trans path)))

theorem faithful (ready : Ready env db names state files draw inputs)
    (progress : Progress env db state.clientId files done b) (apart : Apart done input)
    (member : input ∈ inputs) : Faithful env db names state.clientId files b input :=
  ⟨ready.answered progress apart member, ready.unopposed progress apart member,
    ready.single progress apart member⟩

end Ready

/-- Where the file is from that the standing operation of an own item is for: an operation of the
push, which is this one or records it, or an entry that the client kept. -/
inductive Source (env : Env π) (db : SyncDb) (state : ClientState) (files : Dict String LocalFile)
    (inputs : List SyncOperationInput) (name : String) (operation : SyncOperation) : Prop
  | pushed (input : SyncOperationInput) (file : LocalFile) (member : input ∈ inputs)
      (present : input.kind ≠ .delete) (path : input.relativePath = some name)
      (found : files.get? name = some file)
      (content : operation.payload.checksum = some (env.sha256 file.content))
      (recorded : (duplicate? db state.clientId input = none ∧
          input.logicalId = operation.logicalId) ∨
        duplicate? db state.clientId input = some operation) :
      Source env db state files inputs name operation
  | kept (tracked : UUID × Entry) (file : LocalFile) (found : files.get? name = some file)
      (keeps : Keeps state name file tracked) (named : tracked.1 = operation.logicalId)
      (content : operation.payload.checksum = tracked.2.fingerprint.checksum) :
      Source env db state files inputs name operation

namespace Ready

variable {env : Env π} {db : SyncDb} {names : List String} {state : ClientState}
  {files : Dict String LocalFile} {draw : Nat → Draw} {inputs : List SyncOperationInput}
  {b : Batch} {input : SyncOperationInput} {operation : SyncOperation} {item : SyncItem}
  {logicalId : UUID}

/-- The source of an operation that the push repeats. -/
theorem repeated (repeats : Repeats env db names state files operation input)
    (member : input ∈ inputs) (present : operation.kind ≠ .delete)
    (path : operation.payload.relativePath = some name)
    (content : ∃ checksum, operation.payload.checksum = some checksum) :
    Source env db state files inputs name operation := by
  obtain ⟨kind, _, change⟩ := repeats.change
  have visible : input.kind ≠ .delete := kind ▸ present
  obtain ⟨same, name', named, file, found, digest⟩ := change visible
  have at' : input.relativePath = some name := same.symm.trans path
  obtain rfl : name' = name := Option.some.inj ((Option.mem_def.mp named).symm.trans at')
  obtain ⟨checksum, has⟩ := content
  refine .pushed input file member visible at' found ?_ (.inr repeats.found)
  rw [has, digest checksum (by rw [content?, has]; rfl)]

/-- An item of which the client's own change stands is not touched, if that was there before. -/
theorem untouched (progress : Progress env db state.clientId files inputs b) {cursor : Nat}
    (mirrored : Mirrored b.db cursor)
    (remains : Remains b.db names state.clientId inputs item)
    (before : Standing db item.logicalId operation) (stands : Standing b.db item.logicalId operation)
    (member : input ∈ inputs) (named : input.logicalId = item.logicalId) :
    duplicate? db state.clientId input ≠ none := by
  intro missing
  obtain ⟨other, there, record, standing⟩ := progress.outcome input member missing
  have numbered : Numbered b.db state.clientId input other :=
    ⟨there, record.rootId.trans progress.grows.rootId.symm, record.author, record.sequence⟩
  have last := standing (remains.accepted input member named other numbered)
  obtain rfl := last.unique (effective_distinct mirrored.issued) (named ▸ stands)
  obtain ⟨recorded, root, _⟩ := mem_effective.mp before.member
  exact unnumbered missing ⟨recorded, root, record.author, record.sequence⟩

/-- An own item that the client knows has its file where it kept it, or is pushed again. -/
theorem acknowledged (ready : Ready env db names state files draw inputs)
    (progress : Progress env db state.clientId files inputs b) {cursor : Nat}
    (mirrored : Mirrored b.db cursor) (remains : Remains b.db names state.clientId inputs item)
    (own : operation.clientId ∈ names) (before : Standing db item.logicalId operation)
    (stands : Standing b.db item.logicalId operation) (known : Acknowledged state operation) :
    Source env db state files inputs item.relativePath operation := by
  obtain ⟨present, path, asset, _, _, content⟩ :=
    mirrored_live mirrored stands remains.live.1 remains.live.2
  obtain ⟨name, here, tracked, direct, mine⟩ := known.found present
  have member := ClientState.byPath_found direct
  rcases ready.pushed.accounts.entries tracked member with none | ⟨input, isInput, same⟩ |
    ⟨name', file, other, found, keeps, same⟩
  · exact absurd none List.not_mem_nil
  · have named : input.logicalId = operation.logicalId := same.trans mine
    have recorded := untouched progress mirrored remains before stands isInput
      (named.trans before.named)
    obtain ⟨last, found⟩ := Option.ne_none_iff_exists'.mp recorded
    have repeats := ready.repeats isInput found
    have sameItem : last.logicalId = item.logicalId :=
      (repeats.item.resolve_right fun untracked => untracked.2 ⟨tracked, member, same.symm⟩).trans
        (named.trans before.named)
    have distinct := effective_distinct ready.mirrored.issued
    have applied := remains.accepted input isInput (named.trans before.named) last
      (progress.numbered (ready.numbered isInput found))
    rcases repeats.stands applied with standing | ⟨other, _, standing, foreign⟩
    · obtain rfl := before.unique distinct (sameItem ▸ standing)
      exact repeated repeats isInput present path ⟨_, content⟩
    · obtain rfl := before.unique distinct (sameItem ▸ standing)
      exact absurd own foreign
  · have agrees := known.revision other (ClientState.byPath_found keeps.1) (same.trans mine)
    obtain ⟨left, effective, _, entry⟩ := ready.pushed.traced _ (ClientState.byPath_found keeps.1)
    obtain rfl : left = operation :=
      ready.mirrored.revised effective before.member (entry.revision.symm.trans agrees)
    have at' : other.2.relativePath = item.relativePath :=
      Option.some.inj (entry.path.symm.trans path)
    obtain rfl : name' = item.relativePath := (ClientState.byPath_path keeps.1).symm.trans at'
    exact .kept other file found keeps (same.trans mine) entry.content.symm

theorem source (ready : Ready env db names state files draw inputs)
    (progress : Progress env db state.clientId files inputs b) {cursor : Nat}
    (mirrored : Mirrored b.db cursor) (remains : Remains b.db names state.clientId inputs item) :
    ∃ operation, operation.logicalId = item.logicalId ∧
      HasContent b.db.assets item.assetId operation.payload.checksum ∧
        Source env db state files inputs item.relativePath operation := by
  obtain ⟨operation, _, stands, own⟩ := remains.own
  obtain ⟨present, path, has⟩ := mirrored_live mirrored stands remains.live.1 remains.live.2
  refine ⟨operation, stands.named, has, ?_⟩
  rcases origin progress stands with before | ⟨input, member, missing, record⟩
  · rcases ready.informed.known operation before.member (before.named.symm ▸ before) own with
      known | ⟨input, member, repeats⟩
    · exact ready.acknowledged progress mirrored remains own before stands known
    · obtain ⟨asset, _, _, content⟩ := has
      exact repeated repeats member present path ⟨_, content⟩
  · have visible : input.kind ≠ .delete := record.kind ▸ present
    obtain ⟨name, file, named, found, shown, content⟩ :=
      record.file (mem_effective.mp stands.member).2.2 visible
    obtain rfl : name = item.relativePath := Option.some.inj (shown.symm.trans path)
    exact .pushed input file member visible named found content (.inl ⟨missing, record.logicalId.symm⟩)

theorem held (ready : Ready env db names state files draw inputs)
    (progress : Progress env db state.clientId files inputs b)
    (remains : Remains b.db names state.clientId inputs item) :
    ∃ file ∈ files.get? item.relativePath, Holds env b.db state.entries file item := by
  obtain ⟨cursor, mirrored⟩ := progress.mirrored
  obtain ⟨operation, named, has, source⟩ := ready.source progress mirrored remains
  cases source with
  | pushed input file member present path found content =>
    exact ⟨file, found, .inl (content ▸ has)⟩
  | kept tracked file found keeps same content =>
    exact ⟨file, found, .inr ⟨tracked, ClientState.byPath_found keeps.1, same.trans named, keeps.2,
      content ▸ has⟩⟩

theorem once (ready : Ready env db names state files draw inputs)
    (progress : Progress env db state.clientId files inputs b) {other : SyncItem}
    (first : Remains b.db names state.clientId inputs item)
    (second : Remains b.db names state.clientId inputs other)
    (path : item.relativePath = other.relativePath) : item = other := by
  obtain ⟨cursor, mirrored⟩ := progress.mirrored
  obtain ⟨a, namedA, _, sourceA⟩ := ready.source progress mirrored first
  obtain ⟨b', namedB, _, sourceB⟩ := ready.source progress mirrored second
  rw [← path] at sourceB
  suffices same : a.logicalId = b'.logicalId by
    have found := first.live.1
    rw [← namedA, same, namedB, second.live.1] at found
    exact (Option.some.inj found).symm
  cases sourceA with
  | pushed input file member present named found content recorded =>
    cases sourceB with
    | pushed input' file' member' present' named' found' content' recorded' =>
      obtain rfl := ready.pushed.computed.apart member member' present present'
        (named.trans named'.symm)
      rcases recorded with ⟨missing, same⟩ | recorded <;> rcases recorded' with ⟨missing', same'⟩ | recorded'
      · exact same.symm.trans same'
      · rw [missing] at recorded'
        contradiction
      · rw [missing'] at recorded
        contradiction
      · rw [Option.some.inj (recorded.symm.trans recorded')]
    | kept tracked file' found' keeps =>
      exact absurd keeps (ready.pushed.accounts.changed input member present _ _ _ named found')
  | kept tracked file found keeps same =>
    cases sourceB with
    | pushed input' file' member' present' named' =>
      exact absurd keeps (ready.pushed.accounts.changed input' member' present' _ _ _ named' found)
    | kept tracked' file' found' keeps' same' =>
      cases keeps.1.symm.trans keeps'.1
      exact same.symm.trans same'

/-- The item that an operation in effect leaves. -/
theorem shown {cursor : Nat} (mirrored : Mirrored db cursor) (stands : Standing db logicalId operation)
    (present : operation.kind ≠ .delete) (path : operation.payload.relativePath = some name) :
    ∃ item, Live db item ∧ item.logicalId = logicalId ∧ item.relativePath = name ∧
      HasContent db.assets item.assetId operation.payload.checksum := by
  obtain ⟨item, found, _, shows⟩ := mirrored.shown _ operation stands
  obtain ⟨live, at', has⟩ := shows.live present
  have named : item.logicalId = logicalId := shows.logicalId.trans stands.named
  exact ⟨item, ⟨named.symm ▸ found, live⟩, named, Option.some.inj (at'.symm.trans path), has⟩

/-- A file that the client kept is on the server, unless another client has changed its item. -/
theorem kept_stored (ready : Ready env db names state files draw inputs)
    (progress : Progress env db state.clientId files inputs b) {file : LocalFile}
    {tracked : UUID × Entry} (found : files.get? name = some file)
    (keeps : Keeps state name file tracked) :
    (∃ item, Live b.db item ∧ item.relativePath = name ∧ Holds env b.db state.entries file item) ∨
      Contested b.db names tracked.1 := by
  obtain ⟨cursor, mirrored⟩ := progress.mirrored
  have member := ClientState.byPath_found keeps.1
  obtain ⟨left, effective, named, entry⟩ := ready.pushed.traced tracked member
  have apart := ready.informed.apart (name, file) (Dict.get?_mem found) tracked keeps.1 keeps.2
  obtain ⟨same, _⟩ := progress.untouched tracked.1 fun input there equal =>
    absurd equal (apart input there)
  obtain ⟨operation, before⟩ := exists_last effective named
  have stands := (same operation).mpr before
  by_cases own : operation.clientId ∈ names
  · rcases ready.informed.known operation before.member (before.named.symm ▸ before) own with
      known | ⟨input, there, repeats⟩
    · obtain rfl : left = operation := ready.mirrored.revised effective before.member
        (entry.revision.symm.trans (known.revision tracked member before.named.symm))
      have path := entry.path
      rw [ClientState.byPath_path keeps.1] at path
      obtain ⟨item, live, mine, at', has⟩ := shown mirrored stands entry.present path
      refine .inl ⟨item, live, at', .inr ⟨tracked, member, mine.symm, keeps.2, ?_⟩⟩
      exact entry.content ▸ has
    · rcases repeats.item with equal | ⟨untracked, _⟩
      · exact absurd (equal.symm.trans before.named) (apart input there)
      · exact absurd ⟨tracked, member, before.named.symm⟩ untracked
  · exact .inr ⟨operation, stands.member, stands, own⟩

/-- An item on which the push repeats an operation is not touched. -/
theorem repeated_untouched (ready : Ready env db names state files draw inputs)
    (progress : Progress env db state.clientId files inputs b) (member : input ∈ inputs)
    (repeats : Repeats env db names state files operation input) :
    ∀ other, Standing b.db operation.logicalId other ↔ Standing db operation.logicalId other := by
  refine (progress.untouched operation.logicalId fun other there same missing => ?_).1
  obtain ⟨recorded, _⟩ := ready.numbered member repeats.found
  rcases repeats.item with equal | ⟨untracked, _⟩
  · obtain rfl := List.inj_on_of_nodup_map ready.informed.distinct there member (same.trans equal)
    rw [repeats.found] at missing
    contradiction
  · obtain ⟨entry, tracked, _⟩ := ready.tracked there recorded same.symm
    exact untracked ⟨_, tracked, same⟩

/-- A file that is pushed is on the server, unless its operation is refused or contested. -/
theorem pushed_stored (ready : Ready env db names state files draw inputs)
    (progress : Progress env db state.clientId files inputs b) {file : LocalFile}
    (found : files.get? name = some file) (member : input ∈ inputs) (present : input.kind ≠ .delete)
    (path : input.relativePath = some name) :
    (∃ item, Live b.db item ∧ item.relativePath = name ∧ Holds env b.db state.entries file item) ∨
      ∃ operation, Numbered b.db state.clientId input operation ∧
        (operation.status ≠ .applied ∨ Contested b.db names operation.logicalId) := by
  obtain ⟨cursor, mirrored⟩ := progress.mirrored
  cases recorded : duplicate? db state.clientId input with
  | none =>
    obtain ⟨operation, there, record, stands⟩ := progress.outcome input member recorded
    by_cases applied : operation.status = .applied
    · obtain ⟨name', file', named, found', shows, content⟩ := record.file applied present
      obtain rfl : name' = name := Option.some.inj (named.symm.trans path)
      obtain rfl : file' = file := Option.some.inj (found'.symm.trans found)
      obtain ⟨item, live, _, at', has⟩ :=
        shown mirrored (stands applied) (record.kind ▸ present) shows
      exact .inl ⟨item, live, at', .inl (content ▸ has)⟩
    · refine .inr ⟨operation, ⟨there, ?_, record.author, record.sequence⟩, .inl applied⟩
      exact record.rootId.trans progress.grows.rootId.symm
  | some operation =>
    have repeats := ready.repeats member recorded
    have numbered := progress.numbered (ready.numbered member recorded)
    have same := ready.repeated_untouched progress member repeats
    by_cases applied : operation.status = .applied
    · rcases repeats.stands applied with before | ⟨other, _, before, foreign⟩
      · obtain ⟨kind, _, change⟩ := repeats.change
        obtain ⟨at', name', named, file', found', digest⟩ := change present
        obtain rfl : name' = name := Option.some.inj ((Option.mem_def.mp named).symm.trans path)
        obtain rfl : file' = file := Option.some.inj ((Option.mem_def.mp found').symm.trans found)
        obtain ⟨item, live, _, here, has⟩ :=
          shown mirrored ((same operation).mpr before) (kind ▸ present) (at'.trans path)
        obtain ⟨asset, there, assetId, content⟩ := has
        refine .inl ⟨item, live, here, .inl ⟨asset, there, assetId, ?_⟩⟩
        rw [← digest asset.checksum (by rw [content?, content]; rfl)]
      · have stands := (same other).mpr before
        exact .inr ⟨operation, numbered, .inr ⟨other, stands.member, stands, foreign⟩⟩
    · exact .inr ⟨operation, numbered, .inl applied⟩

/-- The items of the client end as its files. -/
theorem reflects (ready : Ready env db names state files draw inputs)
    (progress : Progress env db state.clientId files inputs b) :
    Reflects env b.db names state files inputs := by
  refine ⟨fun item => ready.held progress, fun a b => ready.once progress, fun name file found => ?_⟩
  have listed := List.mem_map_of_mem (f := Prod.fst) (Dict.get?_mem found)
  rcases ready.pushed.accounts.found name listed file found with ⟨tracked, keeps⟩ |
    ⟨input, member, present, path⟩
  · exact (ready.kept_stored progress found keeps).imp_right fun contested =>
      .inl ⟨tracked, keeps.1, contested⟩
  · exact (ready.pushed_stored progress found member present path).imp_right fun settled =>
      .inr ⟨input, member, present, path, settled⟩

end Ready

/-- The turns of a batch. -/
abbrev turn (clientId : String) (now : Timestamp) (b : Batch) (entry : SyncOperationInput × FreshIds) :
    Option Batch := (applyOne clientId now b entry).toOption

section Batches

variable {env : Env π} {db : SyncDb} {names : List String} {state : ClientState}
  {files : Dict String LocalFile} {draw : Nat → Draw} {inputs done : List SyncOperationInput}
  {b after : Batch} {rest : List (SyncOperationInput × FreshIds)} {now : Timestamp}

theorem Ready.apart_of_split (ready : Ready env db names state files draw inputs)
    {rest : List SyncOperationInput} {input : SyncOperationInput} (split : inputs = done ++ input :: rest) :
    Apart done input := by
  have computed := ready.pushed.computed
  have mine : input ∈ inputs := split ▸ List.mem_append_right _ List.mem_cons_self
  have theirs : ∀ other ∈ done, other ∈ inputs := fun other member =>
    split ▸ List.mem_append_left _ member
  have logical : ∀ other ∈ done, other.logicalId ≠ input.logicalId := by
    intro other member same
    have distinct := ready.informed.distinct
    rw [split, List.map_append, List.map_cons] at distinct
    exact (List.nodup_append.mp distinct).2.2 _ (List.mem_map_of_mem member) _ List.mem_cons_self same
  refine ⟨fun other member same => ?_, fun other member same => ?_, logical,
    fun other member visible stays same => ?_⟩
  · exact logical other member (congrArg _ (computed.unique (theirs other member) mine same))
  · have equal := List.inj_on_of_nodup_map ready.ids (theirs other member) mine same
    exact logical other member (congrArg _ equal)
  · exact logical other member (congrArg _ (computed.apart (theirs other member) mine visible stays same))

theorem Ready.turns (ready : Ready env db names state files draw inputs)
    (progress : Progress env db state.clientId files done b) (split : inputs = done ++ rest.map Prod.fst)
    (counts : Mirrored b.db b.cursor ∨ ∀ input ∈ inputs, duplicate? db state.clientId input ≠ none) :
    Along (turn state.clientId now)
      (fun b entry => Faithful env db names state.clientId files b entry.1) b rest := by
  induction rest generalizing done b with
  | nil => trivial
  | cons entry rest ih =>
    have member : entry.1 ∈ inputs := split ▸ List.mem_append_right _ List.mem_cons_self
    have apart := ready.apart_of_split split
    refine ⟨ready.faithful progress apart member, fun after stepped => ?_⟩
    obtain ⟨next, counts⟩ := progress.turn ready.pushed ready.ids apart member counts
      (toOption_some_iff.mp stepped)
    refine ih next ?_ counts
    rw [split, List.append_assoc]
    rfl

theorem Ready.finishes (ready : Ready env db names state files draw inputs)
    (progress : Progress env db state.clientId files done b) (split : inputs = done ++ rest.map Prod.fst)
    (counts : Mirrored b.db b.cursor ∨ ∀ input ∈ inputs, duplicate? db state.clientId input ≠ none)
    (result : applyAll state.clientId now b rest = .ok after) :
    Progress env db state.clientId files inputs after := by
  induction rest generalizing done b with
  | nil =>
    cases result
    rwa [split, List.map_nil, List.append_nil]
  | cons entry rest ih =>
    obtain ⟨middle, one, later⟩ := bind_ok_iff.mp result
    have member : entry.1 ∈ inputs := split ▸ List.mem_append_right _ List.mem_cons_self
    obtain ⟨next, counts⟩ := progress.turn ready.pushed ready.ids (ready.apart_of_split split) member
      counts one
    refine ih next ?_ counts later
    rw [split, List.append_assoc]
    rfl

/-- The root that the push stores changes nothing of this. -/
theorem Progress.stored (progress : Progress env db clientId files done b) {root : SyncRoot}
    (rootId : root.id = db.root.id) :
    Progress env db clientId files done { b with db := { b.db with root } } := by
  have beside : SameItems b.db { b.db with root } :=
    ⟨rootId.trans progress.grows.rootId.symm, rfl, .refl _⟩
  have effective : SyncDb.effective { b.db with root } = b.db.effective := by
    unfold SyncDb.effective
    dsimp only
    rw [beside.rootId]
  obtain ⟨cursor, mirrored⟩ := progress.mirrored
  refine ⟨progress.grows.trans (.same beside effective),
    ⟨cursor, mirrored.beside beside rfl rfl mirrored.assetIds⟩, progress.rows, fun logicalId all => ?_, ?_⟩
  · rw [standing_congr effective, beside.item?]
    exact progress.untouched logicalId all
  · rw [standing_congr effective]
    exact progress.outcome

/-- An informed push: each turn is faithful, and the items of the client end as its files. -/
theorem Ready.push {inputs : List (SyncOperationInput × FreshIds)} {loaded : Nat}
    (ready : Ready env db names state files draw (inputs.map Prod.fst))
    (counts : loaded = db.root.cursor ∨ AllRecorded db state.clientId inputs) :
    Along (turn state.clientId now)
      (fun b entry => Faithful env db names state.clientId files b entry.1)
      ⟨loaded, db, [], []⟩ inputs ∧
    ∀ b, applyOperations db loaded state.clientId inputs now = .ok b →
      Reflects env b.db names state files (inputs.map Prod.fst) := by
  have start : Progress env db state.clientId files [] ⟨loaded, db, [], []⟩ :=
    .start ready.mirrored loaded
  have counts : Mirrored db loaded ∨
      ∀ input ∈ inputs.map Prod.fst, duplicate? db state.clientId input ≠ none := by
    rcases counts with rfl | recorded
    · exact .inl ready.mirrored
    · refine .inr fun input member => ?_
      obtain ⟨entry, there, rfl⟩ := List.mem_map.mp member
      exact Option.isSome_iff_ne_none.mp (recorded entry there)
  refine ⟨ready.turns start rfl counts, fun after result => ?_⟩
  obtain ⟨b, root, applied, rfl, rootId, _⟩ := applyOperations_loop result
  exact ready.reflects ((ready.finishes start rfl counts applied).stored rootId)

/-- So they are where there is nothing to push. -/
theorem Ready.idle (ready : Ready env db names state files draw []) :
    Reflects env db names state files [] :=
  ready.reflects (b := ⟨db.root.cursor, db, [], []⟩) (.start ready.mirrored db.root.cursor)

end Batches

end Drivebound.Desktop
