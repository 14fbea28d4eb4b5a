import Drivebound.Core.JsonSize
import Drivebound.Desktop.Changes
import Drivebound.Nodes.Transport
import Drivebound.Sync.Paths
import Mathlib

/-! The request with which a desktop client pushes its changes, and the bounds that the server
sets it: the middleware's on the body, and the schema's on the batch and on its paths. The
client makes one batch of all its changes. -/
namespace Drivebound.Desktop
open Sync Json Nodes Passkeys

/-! ### The request -/

/-- The 32 digits of an identifier. -/
def uuidOf (id : UUID) : Uuid where
  nibbles := (List.range 32).map fun place => Fin.ofNat 16 (id / 16 ^ (31 - place))
  length_eq := by rw [List.length_map, List.length_range]

def uuidText (id : UUID) : String := (uuidOf id).str

def kindText : OperationKind → String
  | .upsert => "upsert"
  | .move => "move"
  | .delete => "delete"

def nullable : Option String → Value
  | none => .null
  | some text => .string text

def operationValue (operation : SyncOperationInput) : Value :=
  .object [
    ("operation_id", .string (uuidText operation.operationId)),
    ("client_sequence", .number (.ofNat operation.clientSequence)),
    ("kind", .string (kindText operation.kind)),
    ("logical_id", .string (uuidText operation.logicalId)),
    ("base_revision", nullable operation.baseRevision),
    ("relative_path", nullable operation.relativePath),
    ("asset_id", nullable (operation.assetId.map uuidText))]

def batchValue (clientId : String) (operations : List SyncOperationInput) : Value :=
  .object [("client_id", .string clientId), ("operations", .array (operations.map operationValue))]

/-- `json.dumps` without options. -/
def plainStyle : Style := ⟨true, true⟩

/-- `json.dumps(payload).encode()` -/
def pushBody (clientId : String) (operations : List SyncOperationInput) : Bytes :=
  encodeUtf8 (plainStyle.spell (batchValue clientId operations))

/-- The request of a run; without operations there is none. -/
def pushRequest (state : ClientState) (operations : List SyncOperationInput) : Option Bytes :=
  if operations = [] then none else some (pushBody state.clientId operations)

/-! ### What the server takes -/

/-- `limit` of `BoundedRequestBodyMiddleware`. -/
def bodyLimit : Nat := 128 * 1024

/-- `max_length` of `SyncOperationBatch.operations`. -/
def maxOperations : Nat := 500

def field (name : String) : Value → Option Value
  | .object members => (members.find? (·.1 = name)).map (·.2)
  | _ => none

/-- The bound of `SyncOperationInput.relative_path`. -/
def pathFits : Option Value → Bool
  | none | some .null => true
  | some (.string path) => path.length ≤ maxRelativePath
  | _ => false

def batchFits (batch : Value) : Bool :=
  match field "operations" batch with
  | some (.array operations) => 1 ≤ operations.length && operations.length ≤ maxOperations &&
      operations.all fun operation => pathFits (field "relative_path" operation)
  | _ => false

def admits (body : Bytes) : Bool :=
  body.length ≤ bodyLimit && ((decodeUtf8 body).bind loads).any batchFits

/-! ### The size of a request -/

theorem length_encodeUtf8 {text : List Char} (ascii : ∀ c ∈ text, c.toNat < 128) :
    (encodeUtf8 text).length = text.length := by
  have whole : encodeUtf8 text = text.flatMap String.utf8EncodeChar := by
    show (text.flatMap String.utf8EncodeChar).toByteArray.data.toList = _
    rw [List.toList_data_toByteArray]
  have one : ∀ c ∈ text, (String.utf8EncodeChar c).length = 1 := by
    intro c member
    rw [String.length_utf8EncodeChar, Char.utf8Size, if_pos]
    exact UInt32.le_iff_toNat_le.mpr (Nat.le_of_lt_succ (ascii c member))
  rw [whole, List.length_flatMap, List.map_congr_left one, List.map_const', List.sum_replicate, Nat.nsmul_eq_mul,
    Nat.mul_one]

theorem length_groups {text : List Char} (whole : text.length = 32) : (Uuid.groups text).length = 36 := by
  simp only [Uuid.groups, List.length_append, List.length_cons, List.length_take, List.length_drop, whole]
  rfl

theorem quotedLength_of_plain {s : String} (plain : ∀ c ∈ s.toList, escapedLength c = 1) :
    quotedLength s = 2 + s.length := by
  rw [quotedLength, List.map_congr_left plain, List.map_const', List.sum_replicate, Nat.nsmul_eq_mul, Nat.mul_one,
    String.length_toList]

theorem quotedLength_uuidText (id : UUID) : quotedLength (uuidText id) = 38 := by
  have digits : ∀ nibble : Fin 16, escapedLength (hexDigit nibble.val) = 1 := by decide +kernel
  rw [quotedLength_of_plain]
  · rw [uuidText, Uuid.str, String.length_ofList, length_groups]
    rw [Uuid.hex, List.length_map, (uuidOf id).length_eq]
  · intro c member
    rw [uuidText, Uuid.str, String.toList_ofList] at member
    rcases Uuid.mem_groups member with rfl | digit
    · decide
    · obtain ⟨nibble, -, rfl⟩ := List.mem_map.mp digit
      exact digits nibble

theorem quotedLength_kindText (kind : OperationKind) : quotedLength (kindText kind) = 2 + (kindText kind).length := by
  cases kind <;> decide +kernel

def nullableLength : Option String → Nat
  | none => 4
  | some text => quotedLength text

theorem length_nullable (text : Option String) : (plainStyle.spell (nullable text)).length = nullableLength text := by
  cases text with
  | none => rw [nullable, Style.spell]; rfl
  | some text => rw [nullable, Style.spell, Style.length_text rfl, nullableLength]

theorem length_operationValue (operation : SyncOperationInput) :
    (plainStyle.spell (operationValue operation)).length =
      195 + (Nat.toDigits 10 operation.clientSequence).length + (kindText operation.kind).length +
        nullableLength operation.baseRevision + nullableLength operation.relativePath +
        nullableLength (operation.assetId.map uuidText) := by
  have number : (plainStyle.spell (.number (.ofNat operation.clientSequence))).length =
      (Nat.toDigits 10 operation.clientSequence).length := by rw [Style.spell, Number.ofNat]
  have string : ∀ s, (plainStyle.spell (.string s)).length = quotedLength s := fun s => by
    rw [Style.spell, Style.length_text rfl]
  have gap : plainStyle.gap.length = 1 := rfl
  have names : quotedLength "operation_id" = 14 ∧ quotedLength "client_sequence" = 17 ∧ quotedLength "kind" = 6 ∧
      quotedLength "logical_id" = 12 ∧ quotedLength "base_revision" = 15 ∧ quotedLength "relative_path" = 15 ∧
      quotedLength "asset_id" = 10 := by decide +kernel
  obtain ⟨operationId, clientSequence, kind, logicalId, baseRevision, relativePath, assetId⟩ := names
  have ascii : plainStyle.ascii = true := rfl
  rw [operationValue, Style.length_object ascii]
  simp only [List.map_cons, List.map_nil, List.sum_cons, List.sum_nil, gap, number, string, length_nullable,
    quotedLength_uuidText, quotedLength_kindText, operationId, clientSequence, kind, logicalId, baseRevision,
    relativePath, assetId]
  omega

theorem length_pushBody (clientId : String) (operations : List SyncOperationInput) (filled : operations ≠ []) :
    (pushBody clientId operations).length = 31 + quotedLength clientId +
      (operations.map fun operation => 2 + (plainStyle.spell (operationValue operation)).length).sum := by
  have ascii : plainStyle.ascii = true := rfl
  have gap : plainStyle.gap.length = 1 := rfl
  have names : quotedLength "client_id" = 11 ∧ quotedLength "operations" = 12 := by decide +kernel
  obtain ⟨first, rest, rfl⟩ := List.exists_cons_of_ne_nil filled
  rw [pushBody, length_encodeUtf8 (Style.spell_ascii ascii _), batchValue, Style.length_object ascii]
  simp only [List.map_cons, List.map_nil, List.sum_cons, List.sum_nil, Style.length_array, List.map_map, gap, names]
  rw [Style.spell, Style.length_text ascii]
  simp only [Function.comp_def, Nat.reduceAdd]
  omega

/-! ### What a folder has changed -/

/-- A difference between the folder and the state: a file that is new, changed or moved, or an
item whose file is gone. -/
structure Change where
  kind : OperationKind
  revision : Option String
  path : String
  deriving DecidableEq

variable {π : Type}

/-- One file, and the items that are without a file after it. -/
def compareFile (env : Env π) (state : ClientState) (unmatched : Dict UUID Entry) (path : String) (file : LocalFile) :
    Dict UUID Entry × List Change :=
  let direct := state.byPath.get? path
  let taken := match direct with
    | some tracked => unmatched.pop tracked.1
    | none => unmatched
  if direct.any (fun tracked => tracked.2.matches file) then (taken, [])
  else
    match unmatched.find? fun tracked => tracked.2.fingerprint.checksum = some (env.sha256 file.content) with
    | some (logicalId, entry) => (unmatched.pop logicalId, [⟨.move, entry.revision, path⟩])
    | none => (taken, [⟨.upsert, direct.bind fun tracked => tracked.2.revision, path⟩])

def compareFiles (env : Env π) (state : ClientState) : Dict UUID Entry → Dict String LocalFile → List Change
  | unmatched, [] => unmatched.map fun tracked => ⟨.delete, tracked.2.revision, tracked.2.relativePath⟩
  | unmatched, (path, file) :: rest =>
    let (later, changes) := compareFile env state unmatched path file
    changes ++ compareFiles env state later rest

/-- The operations with these numbers are those of these changes. -/
inductive Lists : Nat → List SyncOperationInput → List Change → Prop
  | nil (number : Nat) : Lists number [] []
  | cons {number : Nat} {operation : SyncOperationInput} {change : Change} {operations : List SyncOperationInput}
      {changes : List Change} (numbered : operation.clientSequence = number) (kind : operation.kind = change.kind)
      (base : operation.baseRevision = change.revision) (path : operation.relativePath = some change.path)
      (asset : operation.assetId.isSome ↔ change.kind = .upsert) (rest : Lists (number + 1) operations changes) :
      Lists number (operation :: operations) (change :: changes)

namespace Lists
variable {number : Nat} {operations others : List SyncOperationInput} {changes later : List Change}

theorem length_eq (lists : Lists number operations changes) : operations.length = changes.length := by
  induction lists with
  | nil => rfl
  | cons _ _ _ _ _ _ ih => rw [List.length_cons, List.length_cons, ih]

theorem append (lists : Lists number operations changes) (more : Lists (number + operations.length) others later) :
    Lists number (operations ++ others) (changes ++ later) := by
  induction lists with
  | nil => exact more
  | cons numbered kind base path asset _ ih =>
    rw [List.length_cons] at more
    exact .cons numbered kind base path asset (ih (by rwa [Nat.add_right_comm]))

/-- A list that one operation goes behind. -/
theorem snoc (lists : Lists number operations changes) {operation : SyncOperationInput} {change : Change}
    (numbered : operation.clientSequence = number + operations.length) (kind : operation.kind = change.kind)
    (base : operation.baseRevision = change.revision) (path : operation.relativePath = some change.path)
    (asset : operation.assetId.isSome ↔ change.kind = .upsert) :
    Lists number (operations ++ [operation]) (changes ++ [change]) :=
  lists.append (.cons numbered kind base path asset (.nil _))

end Lists

/-- The loops have listed these changes. -/
structure Listed (state : ClientState) (found : List Change) (changes : Changes) : Prop where
  lists : Lists state.sequence changes.operations found
  sequence : changes.sequence = state.sequence + changes.operations.length
  unmatched : ∀ tracked ∈ changes.unmatched, tracked ∈ state.entries

section Comparison
variable {env : Env π} {state : ClientState} {draw : Nat → Draw} {found : List Change} {changes after : Changes}
  {path : String} {file : LocalFile}

theorem Listed.add (listed : Listed state found changes) {operation : SyncOperationInput} {change : Change}
    (proposal : Proposal) (numbered : operation.clientSequence = changes.sequence)
    (kind : operation.kind = change.kind) (base : operation.baseRevision = change.revision)
    (path : operation.relativePath = some change.path) (asset : operation.assetId.isSome ↔ change.kind = .upsert)
    {unmatched : Dict UUID Entry} (kept : ∀ tracked ∈ unmatched, tracked ∈ state.entries) :
    Listed state (found ++ [change]) ({ changes with unmatched := unmatched }.add operation proposal) where
  lists := listed.lists.snoc (numbered.trans listed.sequence) kind base path asset
  sequence := by
    simp only [Changes.add, List.length_append, List.length_singleton, listed.sequence]
    omega
  unmatched := kept

/-- A turn of the loop over the files does what the comparison says. -/
theorem changeFile_listed (fresh : ∀ number, ∀ tracked ∈ state.entries, tracked.1 ≠ (draw number).logicalId)
    (listed : Listed state found changes) (changed : changeFile env state draw changes path file = some after) :
    Listed state (found ++ (compareFile env state changes.unmatched path file).2) after ∧
      after.unmatched = (compareFile env state changes.unmatched path file).1 := by
  unfold changeFile at changed
  unfold compareFile
  dsimp only at changed ⊢
  generalize state.byPath.get? path = direct at changed ⊢
  have kept : ∀ id, ∀ tracked ∈ changes.unmatched.pop id, tracked ∈ state.entries :=
    fun id tracked among => listed.unmatched tracked (Dict.mem_pop among)
  by_cases same : direct.any (fun tracked => tracked.2.matches file) = true
  · rw [if_pos same] at changed ⊢
    cases changed
    rw [List.append_nil]
    cases direct with
    | none => exact ⟨⟨listed.lists, listed.sequence, listed.unmatched⟩, rfl⟩
    | some tracked => exact ⟨⟨listed.lists, listed.sequence, kept tracked.1⟩, rfl⟩
  · rw [if_neg same] at changed ⊢
    cases moved : changes.unmatched.find? fun tracked =>
        tracked.2.fingerprint.checksum = some (env.sha256 file.content) with
    | some tracked =>
      rw [moved] at changed
      cases changed
      exact ⟨listed.add _ rfl rfl rfl rfl (by simp [makeOperation]) (kept tracked.1), rfl⟩
    | none =>
      rw [moved] at changed
      dsimp only at changed ⊢
      cases drawn : (draw changes.sequence).assetId with
      | none =>
        rw [drawn] at changed
        cases changed
      | some assetId =>
        rw [drawn] at changed
        cases changed
        refine ⟨listed.add _ rfl rfl rfl rfl (by simp [makeOperation]) (kept _), ?_⟩
        cases direct with
        | some tracked => rfl
        | none =>
          exact Dict.pop_of_absent fun tracked among => fresh changes.sequence tracked (listed.unmatched tracked among)

theorem deleteItems_listed (listed : Listed state found changes) (unmatched : Dict UUID Entry) :
    Lists state.sequence (unmatched.foldl (deleteItem draw) changes).operations
      (found ++ unmatched.map fun tracked => ⟨.delete, tracked.2.revision, tracked.2.relativePath⟩) := by
  induction unmatched generalizing changes found with
  | nil =>
    rw [List.map_nil, List.append_nil]
    exact listed.lists
  | cons tracked rest ih =>
    have deleted : Listed state (found ++ [⟨.delete, tracked.2.revision, tracked.2.relativePath⟩])
        (deleteItem draw changes tracked) :=
      listed.add _ rfl rfl rfl rfl (by simp [makeOperation]) listed.unmatched
    have later := ih deleted
    rwa [List.append_assoc] at later

theorem changeFiles_listed (fresh : ∀ number, ∀ tracked ∈ state.entries, tracked.1 ≠ (draw number).logicalId)
    {files : Dict String LocalFile} (listed : Listed state found changes)
    (changed : changeFiles env state draw changes files = some after) :
    Lists state.sequence (after.unmatched.foldl (deleteItem draw) after).operations
      (found ++ compareFiles env state changes.unmatched files) := by
  induction files generalizing changes found with
  | nil =>
    cases changed
    exact deleteItems_listed listed _
  | cons entry rest ih =>
    obtain ⟨path, file⟩ := entry
    obtain ⟨middle, first, later⟩ := Option.bind_eq_some_iff.mp changed
    obtain ⟨next, same⟩ := changeFile_listed fresh listed first
    have all := ih next later
    rwa [same, List.append_assoc] at all

/-- The operations of a run are the differences between the folder and the state. -/
theorem localChanges_lists (fresh : ∀ number, ∀ tracked ∈ state.entries, tracked.1 ≠ (draw number).logicalId)
    {files : Dict String LocalFile} {operations : List SyncOperationInput} {proposed : Dict UUID Proposal}
    (computed : localChanges env state files draw = some (operations, proposed)) :
    Lists state.sequence operations (compareFiles env state state.entries files) := by
  obtain ⟨changes, changed, same⟩ := Option.map_eq_some_iff.mp computed
  cases same
  have start : Listed state [] ⟨state.entries, [], [], state.sequence⟩ :=
    ⟨.nil _, rfl, fun _ among => among⟩
  exact changeFiles_listed fresh start changed

end Comparison

/-! ### The changes that can be pushed -/

/-- The length of an operation's spelling. -/
def changeSize (number : Nat) (change : Change) : Nat :=
  195 + (Nat.toDigits 10 number).length + (kindText change.kind).length + nullableLength change.revision +
    quotedLength change.path + if change.kind = .upsert then 38 else 4

def changesSize : Nat → List Change → Nat
  | _, [] => 0
  | number, change :: rest => 2 + changeSize number change + changesSize (number + 1) rest

def requestSize (state : ClientState) (changes : List Change) : Nat :=
  31 + quotedLength state.clientId + changesSize state.sequence changes

structure Pushable (state : ClientState) (changes : List Change) : Prop where
  few : changes.length ≤ maxOperations
  paths : ∀ change ∈ changes, change.path.length ≤ maxRelativePath
  small : requestSize state changes ≤ bodyLimit

theorem nullable_valid (text : Option String) : (nullable text).Valid := by
  cases text <;> trivial

theorem batchValue_valid (clientId : String) (operations : List SyncOperationInput) :
    (batchValue clientId operations).Valid := by
  have each : ∀ operation, (operationValue operation).Valid := by
    intro operation
    have keys : ["operation_id", "client_sequence", "kind", "logical_id", "base_revision", "relative_path",
      "asset_id"].Nodup := by decide
    exact ⟨keys, trivial, isNumber_ofNat _, trivial, trivial, nullable_valid _, nullable_valid _,
      nullable_valid _, trivial⟩
  have all : ValidItems (operations.map operationValue) := by
    induction operations with
    | nil => trivial
    | cons operation rest ih => exact ⟨each operation, ih⟩
  have keys : ["client_id", "operations"].Nodup := by decide
  exact ⟨keys, trivial, all, trivial⟩

theorem pathFits_nullable (path : Option String) :
    pathFits (some (nullable path)) = true ↔ ∀ text ∈ path, text.length ≤ maxRelativePath := by
  cases path with
  | none => exact ⟨fun _ text same => absurd same (Option.not_mem_none text), fun _ => rfl⟩
  | some text =>
    rw [nullable, pathFits, decide_eq_true_eq]
    exact ⟨fun short _ same => Option.some.inj same ▸ short, fun all => all text rfl⟩

/-- What the server reads of a push is what the client has put into it. -/
theorem admits_pushBody {clientId : String} {operations : List SyncOperationInput} (filled : operations ≠ []) :
    admits (pushBody clientId operations) = true ↔ operations.length ≤ maxOperations ∧
      (∀ operation ∈ operations, ∀ path ∈ operation.relativePath, path.length ≤ maxRelativePath) ∧
      (pushBody clientId operations).length ≤ bodyLimit := by
  have read : (decodeUtf8 (pushBody clientId operations)).bind loads = some (batchValue clientId operations) := by
    rw [pushBody, decodeUtf8_encodeUtf8, Option.bind_some,
      loads_spell plainStyle _ (batchValue_valid clientId operations)]
  have listed : field "operations" (batchValue clientId operations) = some (.array (operations.map operationValue)) :=
    rfl
  have path : ∀ operation, field "relative_path" (operationValue operation) = some (nullable operation.relativePath) :=
    fun _ => rfl
  have one : 1 ≤ operations.length := List.length_pos_iff.mpr filled
  rw [admits, read, Option.any_some, batchFits, listed]
  simp only [List.length_map, List.all_map, Bool.and_eq_true, decide_eq_true_eq, List.all_eq_true,
    Function.comp_apply, path, pathFits_nullable, one, true_and]
  rw [and_comm, and_assoc]

theorem Lists.size {number : Nat} {operations : List SyncOperationInput} {changes : List Change}
    (lists : Lists number operations changes) :
    (operations.map fun operation => 2 + (plainStyle.spell (operationValue operation)).length).sum =
      changesSize number changes := by
  induction lists with
  | nil => rfl
  | @cons number operation change operations changes numbered kind base path asset _ ih =>
    have assets : nullableLength (operation.assetId.map uuidText) = if change.kind = .upsert then 38 else 4 := by
      cases id : operation.assetId with
      | none =>
        rw [if_neg fun upsert => by simp [id, upsert] at asset]
        rfl
      | some id_ =>
        rw [if_pos (asset.mp (by rw [id]; rfl)), Option.map_some, nullableLength, quotedLength_uuidText]
    rw [List.map_cons, List.sum_cons, ih, length_operationValue, changesSize, changeSize, numbered, kind, base, path,
      assets, nullableLength]

theorem Lists.paths {number : Nat} {operations : List SyncOperationInput} {changes : List Change}
    (lists : Lists number operations changes) :
    (∀ operation ∈ operations, ∀ path ∈ operation.relativePath, path.length ≤ maxRelativePath) ↔
      ∀ change ∈ changes, change.path.length ≤ maxRelativePath := by
  induction lists with
  | nil => exact ⟨fun _ _ among => absurd among List.not_mem_nil, fun _ _ among => absurd among List.not_mem_nil⟩
  | cons _ _ _ path _ _ ih =>
    rw [List.forall_mem_cons, List.forall_mem_cons, ih, path]
    exact and_congr_left fun _ => ⟨fun all => all _ rfl, fun short _ same => Option.some.inj same ▸ short⟩

/-- The bounds of a push, from the changes that it lists. -/
theorem Lists.admitted {state : ClientState} {operations : List SyncOperationInput} {changes : List Change}
    (lists : Lists state.sequence operations changes) :
    (∀ body ∈ pushRequest state operations, admits body = true) ↔ changes = [] ∨ Pushable state changes := by
  have length := lists.length_eq
  by_cases none_ : operations = []
  · rw [none_, List.length_nil] at length
    rw [pushRequest, if_pos none_]
    exact ⟨fun _ => .inl (List.length_eq_zero_iff.mp length.symm), fun _ _ same => nomatch same⟩
  · have filled : changes ≠ [] := by
      rintro rfl
      exact none_ (List.length_eq_zero_iff.mp length)
    have size := length_pushBody state.clientId operations none_
    rw [lists.size] at size
    rw [pushRequest, if_neg none_, or_iff_right filled]
    constructor
    · intro all
      obtain ⟨few, paths, small⟩ := (admits_pushBody none_).mp (all _ rfl)
      rw [size] at small
      exact ⟨length ▸ few, lists.paths.mp paths, small⟩
    · rintro ⟨few, paths, small⟩ body same
      cases same
      rw [requestSize, ← size] at small
      exact (admits_pushBody none_).mpr ⟨length ▸ few, lists.paths.mpr paths, small⟩

/-- A run's push is within the server's bounds exactly when it has few, short and small changes
to push; what it draws makes no difference, so a folder that is refused once is refused again. -/
theorem push_is_admitted_iff {env : Env π} {state : ClientState} {files : Dict String LocalFile} {draw : Nat → Draw}
    {operations : List SyncOperationInput} {proposed : Dict UUID Proposal}
    (fresh : ∀ number, ∀ tracked ∈ state.entries, tracked.1 ≠ (draw number).logicalId)
    (computed : localChanges env state files draw = some (operations, proposed)) :
    (∀ body ∈ pushRequest state operations, admits body = true) ↔
      compareFiles env state state.entries files = [] ∨
        Pushable state (compareFiles env state state.entries files) :=
  (localChanges_lists fresh computed).admitted

/-- A state with so many items. -/
def tracking (count : Nat) : ClientState where
  clientId := "2c1f6a52-7b1e-4a53-9a38-51a0a3b7f6aa"
  rootId := none
  cursor := 0
  entries := (List.range count).map fun id =>
    (id, { relativePath := "a", revision := none, fingerprint := ⟨0, 0, none⟩ })
  conflicts := []
  recentOperations := []

def bareEnv : Env Unit := ⟨fun _ => (), fun _ => true, fun _ => ""⟩

/-- Identifiers that come after those of the items. -/
def laterDraws (count : Nat) (number : Nat) : Draw := ⟨count + number, count + number, none⟩

theorem laterDraws_fresh (count : Nat) :
    ∀ number, ∀ tracked ∈ (tracking count).entries, tracked.1 ≠ (laterDraws count number).logicalId := by
  intro number tracked among same
  obtain ⟨id, below, rfl⟩ := List.mem_map.mp among
  rw [List.mem_range] at below
  have beyond : count + number < count := lt_of_eq_of_lt (Eq.symm same) below
  omega

/-- The delete of the one file that was there. -/
theorem push_is_admitted_delete : ∃ operations proposed,
    localChanges bareEnv (tracking 1) [] (laterDraws 1) = some (operations, proposed) ∧ operations ≠ [] ∧
      ∀ body ∈ pushRequest (tracking 1) operations, admits body = true := by
  obtain ⟨⟨operations, proposed⟩, computed⟩ :
      ∃ result, localChanges bareEnv (tracking 1) [] (laterDraws 1) = some result := ⟨_, rfl⟩
  refine ⟨operations, proposed, computed, ?_, (push_is_admitted_iff (laterDraws_fresh 1) computed).mpr (.inr ?_)⟩
  · rintro rfl
    have length := (localChanges_lists (laterDraws_fresh 1) computed).length_eq
    exact absurd length (by decide)
  · exact ⟨by decide, by decide, by decide +kernel⟩

/-- A folder that 501 files were taken out of. -/
theorem emptied_folder_is_refused : ∃ operations proposed,
    localChanges bareEnv (tracking 501) [] (laterDraws 501) = some (operations, proposed) ∧
      ∃ body ∈ pushRequest (tracking 501) operations, admits body = false := by
  obtain ⟨⟨operations, proposed⟩, computed⟩ :
      ∃ result, localChanges bareEnv (tracking 501) [] (laterDraws 501) = some result := ⟨_, rfl⟩
  refine ⟨operations, proposed, computed, ?_⟩
  have lists := localChanges_lists (laterDraws_fresh 501) computed
  by_contra all
  push Not at all
  have count : (compareFiles bareEnv (tracking 501) (tracking 501).entries []).length = 501 := by
    rw [compareFiles, List.length_map, tracking, List.length_map, List.length_range]
  rcases lists.admitted.mp fun body among => Bool.eq_true_of_not_eq_false (all body among) with empty | pushable
  · rw [empty] at count
    cases count
  · have few := pushable.few
    rw [count] at few
    exact absurd few (by decide)

end Drivebound.Desktop
