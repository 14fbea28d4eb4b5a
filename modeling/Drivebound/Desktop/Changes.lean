import Drivebound.Desktop.Network

/-! `local_changes` of `tools/drivebound_sync.py`, and the clients of a root whose pushes
it computes. Every file that was added or changed becomes an operation under the next
sequence number, every item whose file is gone a delete; the identifiers are drawn anew by
each run, the numbers go on from the operations of the last push that was saved. -/
namespace Drivebound.Desktop
open Sync

/-- What `uuid.uuid4()` draws for an operation and, where it needs one, for its item, with
the asset that `resume_or_create` answers for the file. -/
structure Draw where
  operationId : UUID
  logicalId : UUID
  assetId : Option UUID
  deriving DecidableEq, Repr

variable {π : Type}

/-- `scan`: the files by their relative path, in the order of `rglob`. `relative` is
`safe_relative`, with `none` for what the scan skips. -/
def scan [DecidableEq π] (relative : π → Option String) (folder : Folder π) (order : List π) :
    Dict String LocalFile :=
  order.foldl
    (fun results path =>
      match relative path, folder.get? path with
      | some name, some file => results.set name file
      | _, _ => results)
    []

def makeOperation (operationId : UUID) (kind : OperationKind) (logicalId : UUID)
    (baseRevision relativePath : Option String) (assetId : Option UUID) (sequence : Nat) :
    SyncOperationInput where
  operationId := operationId
  clientSequence := sequence
  kind := kind
  logicalId := logicalId
  baseRevision := baseRevision
  relativePath := relativePath
  assetId := assetId

/-- The number of the first operation. -/
def ClientState.sequence (state : ClientState) : Nat := state.recentOperations.foldr max 0 + 1

/-- `by_path`: of two entries with one path, the later one. -/
def ClientState.byPath (state : ClientState) : Dict String (UUID × Entry) :=
  state.entries.foldl (fun found entry => found.set entry.2.relativePath entry) []

structure Changes where
  unmatched : Dict UUID Entry
  operations : List SyncOperationInput
  proposed : Dict UUID Proposal
  sequence : Nat
  deriving DecidableEq, Repr

def Changes.add (changes : Changes) (operation : SyncOperationInput) (proposal : Proposal) : Changes :=
  { changes with
    operations := changes.operations ++ [operation]
    proposed := changes.proposed.set operation.operationId proposal
    sequence := changes.sequence + 1 }

/-- One iteration over the files; `none` is the `RuntimeError` of an upload without an asset. -/
def changeFile (env : Env π) (state : ClientState) (draw : Nat → Draw) (changes : Changes)
    (relativePath : String) (file : LocalFile) : Option Changes :=
  let direct := state.byPath.get? relativePath
  if direct.any (fun tracked => tracked.2.matches file) then
    some { changes with
      unmatched := match direct with
        | some tracked => changes.unmatched.pop tracked.1
        | none => changes.unmatched }
  else
    let checksum := env.sha256 file.content
    let basic := file.fingerprint (some checksum)
    let drawn := draw changes.sequence
    match changes.unmatched.find? fun tracked => tracked.2.fingerprint.checksum = some checksum with
    | some (logicalId, entry) =>
      let operation := makeOperation drawn.operationId .move logicalId entry.revision
        (some relativePath) none changes.sequence
      some ({ changes with unmatched := changes.unmatched.pop logicalId }.add operation
        (.move logicalId { entry with relativePath, fingerprint := basic }))
    | none =>
      match drawn.assetId with
      | none => none
      | some assetId =>
        let logicalId := match direct with
          | some tracked => tracked.1
          | none => drawn.logicalId
        let revision := direct.bind fun tracked => tracked.2.revision
        let operation := makeOperation drawn.operationId .upsert logicalId revision
          (some relativePath) (some assetId) changes.sequence
        some ({ changes with unmatched := changes.unmatched.pop logicalId }.add operation
          (.upsert logicalId { relativePath, revision, fingerprint := basic }))

def changeFiles (env : Env π) (state : ClientState) (draw : Nat → Draw) :
    Changes → Dict String LocalFile → Option Changes
  | changes, [] => some changes
  | changes, (relativePath, file) :: rest =>
    (changeFile env state draw changes relativePath file).bind (changeFiles env state draw · rest)

/-- An item whose file is gone. -/
def deleteItem (draw : Nat → Draw) (changes : Changes) (tracked : UUID × Entry) : Changes :=
  changes.add
    (makeOperation (draw changes.sequence).operationId .delete tracked.1 tracked.2.revision
      (some tracked.2.relativePath) none changes.sequence)
    (.delete tracked.1)

def localChanges (env : Env π) (state : ClientState) (files : Dict String LocalFile)
    (draw : Nat → Draw) : Option (List SyncOperationInput × Dict UUID Proposal) :=
  (changeFiles env state draw
    { unmatched := state.entries, operations := [], proposed := [], sequence := state.sequence }
    files).map fun changes =>
      let changes := changes.unmatched.foldl (deleteItem draw) changes
      (changes.operations, changes.proposed)

theorem scan_distinct [DecidableEq π] (relative : π → Option String) (folder : Folder π) (order : List π) :
    ((scan relative folder order).map Prod.fst).Nodup := by
  have keeps : ∀ found : Dict String LocalFile, (found.map Prod.fst).Nodup →
      ((order.foldl (fun results path =>
        match relative path, folder.get? path with
        | some name, some file => results.set name file
        | _, _ => results) found).map Prod.fst).Nodup := by
    induction order with
    | nil => exact fun _ distinct => distinct
    | cons path rest ih =>
      intro found distinct
      refine ih _ ?_
      dsimp only
      split
      · exact Dict.nodup_set distinct _ _
      · exact distinct
  exact keeps [] List.nodup_nil

/-- What is found under a path is an entry of the state. -/
theorem ClientState.byPath_found {state : ClientState} {name : String} {tracked : UUID × Entry}
    (found : state.byPath.get? name = some tracked) : tracked ∈ state.entries := by
  have collects : ∀ (entries : Dict UUID Entry) (known : Dict String (UUID × Entry)),
      (entries.foldl (fun found entry => found.set entry.2.relativePath entry) known).get? name =
        some tracked → known.get? name = some tracked ∨ tracked ∈ entries := by
    intro entries
    induction entries with
    | nil => exact fun _ found => .inl found
    | cons entry rest ih =>
      intro known found
      rcases ih _ found with before | later
      · by_cases same : name = entry.2.relativePath
        · subst same
          rw [Dict.get?_set_self] at before
          cases before
          exact .inr List.mem_cons_self
        · rw [Dict.get?_set_other _ _ same] at before
          exact .inl before
      · exact .inr (List.mem_cons_of_mem entry later)
  exact (collects state.entries [] found).resolve_left nofun

/-- What is found under a path has that path. -/
theorem ClientState.byPath_path {state : ClientState} {name : String} {tracked : UUID × Entry}
    (found : state.byPath.get? name = some tracked) : tracked.2.relativePath = name := by
  have collects : ∀ (entries : Dict UUID Entry) (known : Dict String (UUID × Entry)),
      (∀ tracked, known.get? name = some tracked → tracked.2.relativePath = name) →
      ∀ tracked, (entries.foldl (fun found entry => found.set entry.2.relativePath entry) known).get?
        name = some tracked → tracked.2.relativePath = name := by
    intro entries
    induction entries with
    | nil => exact fun _ named => named
    | cons entry rest ih =>
      intro known named
      refine ih _ fun tracked there => ?_
      dsimp only at there
      by_cases same : name = entry.2.relativePath
      · rw [← same, Dict.get?_set_self] at there
        cases there
        exact same.symm
      · rw [Dict.get?_set_other _ _ same] at there
        exact named tracked there
  exact collects state.entries [] (fun _ => nofun) tracked found

/-- Where an operation comes from: an entry of the state whose revision it builds on, or a
file at a path that no entry has. -/
def Tracks (state : ClientState) (draw : Nat → Draw) (operation : SyncOperationInput) : Prop :=
  (∃ entry, (operation.logicalId, entry) ∈ state.entries ∧
    operation.baseRevision = entry.revision ∧
    (operation.kind = .upsert → ∃ name, operation.relativePath = some name ∧
      state.byPath.get? name = some (operation.logicalId, entry))) ∨
  (operation.kind = .upsert ∧ operation.logicalId = (draw operation.clientSequence).logicalId ∧
    ∃ name, operation.relativePath = some name ∧ state.byPath.get? name = none)

/-- The operations that the loops have found. -/
structure Found (state : ClientState) (draw : Nat → Draw) (names : List String)
    (changes : Changes) : Prop where
  sequence : changes.sequence = state.sequence + changes.operations.length
  numbered : changes.operations.map (·.clientSequence) =
    List.range' state.sequence changes.operations.length
  drawn : ∀ operation ∈ changes.operations,
    operation.operationId = (draw operation.clientSequence).operationId
  unmatched : ∀ tracked ∈ changes.unmatched, tracked ∈ state.entries
  tracks : ∀ operation ∈ changes.operations, Tracks state draw operation
  named : ((changes.operations.filter (·.kind ≠ .delete)).map (·.relativePath)).Sublist
    (names.map some)

namespace Found

variable {state : ClientState} {draw : Nat → Draw} {names : List String} {changes after : Changes}

theorem start (state : ClientState) (draw : Nat → Draw) :
    Found state draw [] ⟨state.entries, [], [], state.sequence⟩ :=
  ⟨rfl, rfl, nofun, fun _ member => member, nofun, .refl _⟩

/-- A path that gives no operation. -/
theorem skip (found : Found state draw names changes) (name : String)
    (unmatched : ∀ tracked ∈ after.unmatched, tracked ∈ changes.unmatched)
    (same : after.operations = changes.operations) (sequence : after.sequence = changes.sequence) :
    Found state draw (names ++ [name]) after := by
  refine ⟨?_, ?_, ?_, fun tracked member => found.unmatched tracked (unmatched tracked member), ?_, ?_⟩
  · rw [same, sequence]
    exact found.sequence
  · rw [same]
    exact found.numbered
  · rw [same]
    exact found.drawn
  · rw [same]
    exact found.tracks
  · rw [same, List.map_append]
    exact found.named.trans (List.sublist_append_left ..)

theorem add (found : Found state draw names changes) {operation : SyncOperationInput}
    (proposal : Proposal) (number : operation.clientSequence = changes.sequence)
    (drawn : operation.operationId = (draw operation.clientSequence).operationId)
    (tracks : Tracks state draw operation) {later : List String}
    (named : ((operation :: []).filter (·.kind ≠ .delete)).map (·.relativePath) =
      later.map some) :
    Found state draw (names ++ later) (changes.add operation proposal) := by
  refine ⟨?_, ?_, ?_, found.unmatched, ?_, ?_⟩
  · simp only [Changes.add, List.length_append, List.length_singleton, found.sequence]
    omega
  · simp only [Changes.add, List.map_append, List.map_singleton, List.length_append,
      List.length_singleton, List.range'_1_concat, found.numbered, number, found.sequence]
  · intro other member
    rcases List.mem_append.mp member with before | new
    · exact found.drawn other before
    · rw [List.mem_singleton.mp new]
      exact drawn
  · intro other member
    rcases List.mem_append.mp member with before | new
    · exact found.tracks other before
    · rw [List.mem_singleton.mp new]
      exact tracks
  · simp only [Changes.add, List.filter_append, List.map_append, named]
    exact found.named.append_right _

/-- Entries that are taken out of the unmatched ones. -/
theorem pop (found : Found state draw names changes) (logicalId : UUID) :
    Found state draw names { changes with unmatched := changes.unmatched.pop logicalId } :=
  ⟨found.sequence, found.numbered, found.drawn,
    fun tracked member => found.unmatched tracked (Dict.mem_pop member), found.tracks, found.named⟩

end Found

theorem changeFile_found {env : Env π} {state : ClientState} {draw : Nat → Draw}
    {names : List String} {changes after : Changes} {name : String} {file : LocalFile}
    (found : Found state draw names changes)
    (changed : changeFile env state draw changes name file = some after) :
    Found state draw (names ++ [name]) after := by
  unfold changeFile at changed
  dsimp only at changed
  split at changed
  · cases changed
    refine found.skip name (fun tracked member => ?_) rfl rfl
    dsimp only at member
    split at member
    · exact Dict.mem_pop member
    · exact member
  · split at changed
    · rename_i logicalId entry moved
      cases changed
      refine (found.pop logicalId).add _ rfl rfl (.inl ⟨entry, ?_, rfl, fun move => ?_⟩) rfl
      · exact found.unmatched _ (List.mem_of_find?_eq_some moved)
      · contradiction
    · split at changed
      · contradiction
      · cases changed
        refine (found.pop _).add _ rfl rfl ?_ rfl
        cases direct : state.byPath.get? name with
        | none => exact .inr ⟨rfl, rfl, name, rfl, direct⟩
        | some tracked =>
          exact .inl ⟨tracked.2, ClientState.byPath_found direct, rfl, fun _ => ⟨name, rfl, direct⟩⟩

theorem changeFiles_found {env : Env π} {state : ClientState} {draw : Nat → Draw}
    {names : List String} {changes after : Changes} {files : Dict String LocalFile}
    (found : Found state draw names changes)
    (changed : changeFiles env state draw changes files = some after) :
    Found state draw (names ++ files.map Prod.fst) after := by
  induction files generalizing names changes with
  | nil =>
    cases changed
    rwa [List.map_nil, List.append_nil]
  | cons file rest ih =>
    obtain ⟨name, content⟩ := file
    obtain ⟨middle, first, later⟩ := Option.bind_eq_some_iff.mp changed
    have step := ih (changeFile_found found first) later
    rwa [List.append_assoc] at step

theorem deleteItems_found {state : ClientState} {draw : Nat → Draw} {names : List String}
    {changes : Changes} {unmatched : Dict UUID Entry} (found : Found state draw names changes)
    (entries : ∀ tracked ∈ unmatched, tracked ∈ state.entries) :
    Found state draw names (unmatched.foldl (deleteItem draw) changes) := by
  induction unmatched generalizing changes with
  | nil => exact found
  | cons tracked rest ih =>
    refine ih ?_ fun other member => entries other (List.mem_cons_of_mem tracked member)
    have tracks : Tracks state draw (makeOperation (draw changes.sequence).operationId .delete
        tracked.1 tracked.2.revision (some tracked.2.relativePath) none changes.sequence) :=
      .inl ⟨tracked.2, entries tracked List.mem_cons_self, rfl, fun upsert => by contradiction⟩
    have deleted : Found state draw (names ++ []) (deleteItem draw changes tracked) :=
      found.add (.delete tracked.1) rfl rfl tracks rfl
    rwa [List.append_nil] at deleted

/-- What `uuid.uuid4()` draws is new. -/
structure Fresh (entries : Dict UUID Entry) (draw : Nat → Draw) : Prop where
  operations : Function.Injective fun number => (draw number).operationId
  items : Function.Injective fun number => (draw number).logicalId
  new : ∀ number, (draw number).logicalId ∉ entries.map Prod.fst

/-- What a push is made of. -/
structure Computed (state : ClientState) (draw : Nat → Draw) (operations : List SyncOperationInput) :
    Prop where
  numbered : operations.map (·.clientSequence) = List.range' state.sequence operations.length
  drawn : ∀ operation ∈ operations,
    operation.operationId = (draw operation.clientSequence).operationId
  tracks : ∀ operation ∈ operations, Tracks state draw operation
  named : ((operations.filter (·.kind ≠ .delete)).map (·.relativePath)).Nodup

theorem localChanges_computed {env : Env π} {state : ClientState} {files : Dict String LocalFile}
    {draw : Nat → Draw} {proposed : Dict UUID Proposal} {operations : List SyncOperationInput}
    (distinct : (files.map Prod.fst).Nodup)
    (computed : localChanges env state files draw = some (operations, proposed)) :
    Computed state draw operations := by
  obtain ⟨changes, changed, same⟩ := Option.map_eq_some_iff.mp computed
  cases same
  have files := changeFiles_found (.start state draw) changed
  have found := deleteItems_found files files.unmatched
  exact ⟨found.numbered, found.drawn, found.tracks,
    found.named.nodup (distinct.map (Option.some_injective _))⟩

namespace Computed

variable {state : ClientState} {draw : Nat → Draw} {operations : List SyncOperationInput}
  {a b : SyncOperationInput}

theorem unique (computed : Computed state draw operations) (first : a ∈ operations)
    (second : b ∈ operations) (same : a.clientSequence = b.clientSequence) : a = b := by
  refine List.inj_on_of_nodup_map ?_ first second same
  rw [computed.numbered]
  exact List.nodup_range' ..

theorem recent (computed : Computed state draw operations) (member : a ∈ operations) :
    state.sequence ≤ a.clientSequence := by
  have number := List.mem_map_of_mem (f := (·.clientSequence)) member
  rw [computed.numbered, List.mem_range'_1] at number
  exact number.1

/-- Two files have two paths. -/
theorem apart (computed : Computed state draw operations) (first : a ∈ operations)
    (second : b ∈ operations) (present : a.kind ≠ .delete) (stays : b.kind ≠ .delete)
    (same : a.relativePath = b.relativePath) : a = b := by
  refine List.inj_on_of_nodup_map computed.named ?_ ?_ same
  · exact List.mem_filter.mpr ⟨first, decide_eq_true present⟩
  · exact List.mem_filter.mpr ⟨second, decide_eq_true stays⟩

end Computed

/-- What a push was computed from. -/
structure Origin where
  state : ClientState
  files : Dict String LocalFile
  draw : Nat → Draw

/-- The network, and the origin of each push that is under way. -/
structure Clients (ι π : Type) where
  network : Network ι π
  origins : List Origin

inductive Event (ι π : Type) where
  | net (label : NetLabel ι π)
  /-- An upload stores an asset. -/
  | upload (asset : Asset)
  /-- `local_changes` on the folder as it is, and the push, where there is something to push. -/
  | push (i : ι) (order : List π) (draw : Nat → Draw) (fresh : Nat → FreshIds)

variable {ι : Type} [DecidableEq ι] [DecidableEq π]

/-- The upload of a file has answered with an asset of this content. -/
def Uploaded (env : Env π) (db : SyncDb) (files : Dict String LocalFile)
    (operation : SyncOperationInput) : Prop :=
  ∀ id ∈ operation.assetId, ∃ name ∈ operation.relativePath, ∃ file ∈ files.get? name,
    ∃ asset ∈ db.assets, asset.id = id ∧ asset.userId = db.root.userId ∧
      asset.checksum = env.sha256 file.content

instance (env : Env π) (db : SyncDb) (files : Dict String LocalFile) :
    DecidablePred (Uploaded env db files) := fun operation =>
  inferInstanceAs (Decidable (∀ id ∈ operation.assetId, ∃ name ∈ operation.relativePath,
    ∃ file ∈ files.get? name, ∃ asset ∈ db.assets, _))

/-- A download delivers the content of its asset. -/
def Delivers (env : Env π) (m : Machine π) : Label π → Prop
  | .deliver file =>
    match m.process with
    | .downloading _ operation _ _ _ _ _ =>
      some (env.sha256 file.content) = operation.payload.checksum
    | _ => True
  | _ => True

instance (env : Env π) (m : Machine π) : DecidablePred (Delivers env m)
  | .deliver file => by
    unfold Delivers
    generalize m.process = process
    exact match process with
      | .downloading _ operation .. =>
        inferInstanceAs (Decidable (some (env.sha256 file.content) = operation.payload.checksum))
      | .stopped | .ready _ | .asked .. | .pulling .. | .unlinking .. | .pulled _ | .pushing ..
      | .answered .. | .acknowledged _ => isTrue trivial
  | .load .. | .readRoot _ | .readPage .. | .examine | .unlink | .finishPull | .save | .skipPush
  | .readPushRoot .. | .answerPush _ | .acknowledge | .stop | .edit .. => isTrue trivial

namespace Clients

def step (env : Env π) (relative : π → Option String) (s : Clients ι π) :
    Event ι π → Option (Clients ι π)
  | .net (.push _ _ _) => none
  | .net (.client i label) =>
    if Delivers env (s.network.machines i) label then
      (s.network.step env (.client i label)).map fun network => ⟨network, s.origins⟩
    else none
  | .net (.commit index now) =>
    (s.network.step env (.commit index now)).map fun network =>
      ⟨network, s.origins.eraseIdx index⟩
  | .net (.drop index) =>
    (s.network.step env (.drop index)).map fun network => ⟨network, s.origins.eraseIdx index⟩
  | .net label => (s.network.step env label).map fun network => ⟨network, s.origins⟩
  | .upload asset =>
    (insertRow Asset.id s.network.db.assets asset).toOption.map fun assets =>
      { s with network := { s.network with db := { s.network.db with assets } } }
  | .push i order draw fresh =>
    match (s.network.machines i).process with
    | .pulled memory =>
      let folder := (s.network.machines i).folder
      let files := scan relative folder order
      match localChanges env memory.state files draw with
      | none => none
      | some (operations, proposed) =>
        if (∀ entry ∈ folder, entry.1 ∈ order) ∧
            ∀ operation ∈ operations, Uploaded env s.network.db files operation then
          if operations = [] then
            (s.network.step env (.client i .skipPush)).map fun network => { s with network }
          else
            match operations.mapM parse with
            -- The schema refuses the request, which ends the run.
            | none => (s.network.step env (.client i .stop)).map fun network => { s with network }
            | some inputs =>
              let inputs := inputs.map fun input => (input, fresh input.clientSequence)
              (s.network.step env (.push i inputs proposed)).map fun network =>
                ⟨network, s.origins ++ [⟨memory.state, files, draw⟩]⟩
        else none
    | _ => none

end Clients

/-- The schema takes the names of the files that are pushed as they are. -/
def NamesAccepted (env : Env π) (relative : π → Option String) (s : Clients ι π) : Event ι π → Prop
  | .push i order draw _ =>
    match (s.network.machines i).process with
    | .pulled memory =>
      ∀ found ∈ localChanges env memory.state (scan relative (s.network.machines i).folder order) draw,
        ∀ operation ∈ found.1, Parsed operation
    | _ => True
  | _ => True

instance (env : Env π) (relative : π → Option String) (s : Clients ι π) :
    DecidablePred (NamesAccepted env relative s)
  | .push i order draw _ => by
    unfold NamesAccepted
    dsimp only
    generalize (s.network.machines i).process = process
    exact match process with
      | .pulled memory => @Option.decidableForallMem _ _ (fun _ => inferInstance) _
      | .stopped | .ready _ | .asked .. | .pulling .. | .unlinking .. | .downloading .. | .pushing ..
      | .answered .. | .acknowledged _ => isTrue trivial
  | .net _ | .upload _ => isTrue trivial

theorem mapM_parse {operations : List SyncOperationInput}
    (parsed : ∀ operation ∈ operations, Parsed operation) : operations.mapM parse = some operations := by
  induction operations with
  | nil => rfl
  | cons operation rest ih =>
    have here := (parsed operation List.mem_cons_self).parse
    have later := ih fun other member => parsed other (List.mem_cons_of_mem operation member)
    simp [List.mapM_cons, here, later]

/-- What a client does after `local_changes`, where the names are accepted. -/
structure Pushes (env : Env π) (relative : π → Option String) (s : Clients ι π) (i : ι)
    (order : List π) (draw : Nat → Draw) (memory : Memory π) (operations : List SyncOperationInput)
    (proposed : Dict UUID Proposal) : Prop where
  process : (s.network.machines i).process = .pulled memory
  computed : localChanges env memory.state (scan relative (s.network.machines i).folder order) draw =
    some (operations, proposed)
  covers : ∀ entry ∈ (s.network.machines i).folder, entry.1 ∈ order
  uploaded : ∀ operation ∈ operations,
    Uploaded env s.network.db (scan relative (s.network.machines i).folder order) operation

theorem push_cases {env : Env π} {relative : π → Option String} {s t : Clients ι π} {i : ι}
    {order : List π} {draw : Nat → Draw} {fresh : Nat → FreshIds}
    (stepped : s.step env relative (.push i order draw fresh) = some t)
    (accepted : NamesAccepted env relative s (.push i order draw fresh)) :
    ∃ memory operations proposed network,
      Pushes env relative s i order draw memory operations proposed ∧
      ((operations = [] ∧ s.network.step env (.client i .skipPush) = some network ∧
          t = ⟨network, s.origins⟩) ∨
        (s.network.step env (.push i (operations.map fun operation =>
            (operation, fresh operation.clientSequence)) proposed) = some network ∧
          t = ⟨network, s.origins ++
            [⟨memory.state, scan relative (s.network.machines i).folder order, draw⟩]⟩)) := by
  simp only [Clients.step] at stepped
  split at stepped
  · rename_i memory pulled
    split at stepped
    · contradiction
    · rename_i operations proposed computed
      split_ifs at stepped with allowed nothing
      · obtain ⟨network, skipped, rfl⟩ := Option.map_eq_some_iff.mp stepped
        exact ⟨memory, operations, proposed, network, ⟨pulled, computed, allowed.1, allowed.2⟩,
          .inl ⟨nothing, skipped, rfl⟩⟩
      · simp only [NamesAccepted, pulled] at accepted
        rw [mapM_parse (accepted _ computed)] at stepped
        obtain ⟨network, pushed, rfl⟩ := Option.map_eq_some_iff.mp stepped
        exact ⟨memory, operations, proposed, network, ⟨pulled, computed, allowed.1, allowed.2⟩,
          .inr ⟨pushed, rfl⟩⟩
  · contradiction

end Drivebound.Desktop
