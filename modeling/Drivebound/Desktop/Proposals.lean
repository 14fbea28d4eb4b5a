import Drivebound.Desktop.Changes

/-! What `local_changes` proposes for each operation that it finds: the entry that the client
records once the server has applied the operation. And what it finds: every file of the scan and
every item that is tracked is either as recorded or has an operation. -/
namespace Drivebound.Desktop
open Sync

/-- The proposal for an operation. An entry that is moved keeps its content, that of a new or
changed file is the content of the file. -/
inductive Suits (env : Env π) (state : ClientState) (files : Dict String LocalFile)
    (operation : SyncOperationInput) : Proposal → Prop
  | move (entry tracked : Entry) (file : LocalFile) (kind : operation.kind = .move)
      (member : (operation.logicalId, tracked) ∈ state.entries)
      (base : operation.baseRevision = tracked.revision)
      (path : operation.relativePath = some entry.relativePath)
      (found : files.get? entry.relativePath = some file)
      (digest : entry.fingerprint.checksum = some (env.sha256 file.content))
      (content : entry.fingerprint.checksum = tracked.fingerprint.checksum) :
      Suits env state files operation (.move operation.logicalId entry)
  | upsert (entry : Entry) (file : LocalFile) (kind : operation.kind = .upsert)
      (path : operation.relativePath = some entry.relativePath)
      (found : files.get? entry.relativePath = some file)
      (content : entry.fingerprint.checksum = some (env.sha256 file.content)) :
      Suits env state files operation (.upsert operation.logicalId entry)
  | delete (tracked : Entry) (kind : operation.kind = .delete)
      (member : (operation.logicalId, tracked) ∈ state.entries) :
      Suits env state files operation (.delete operation.logicalId)

def Proposes (env : Env π) (state : ClientState) (files : Dict String LocalFile)
    (proposed : Dict UUID Proposal) (operation : SyncOperationInput) : Prop :=
  ∃ proposal, proposed.get? operation.operationId = some proposal ∧ Suits env state files operation proposal

/-- What the loops have found and proposed, where the ids they drew differ. -/
structure Proposing (env : Env π) (state : ClientState) (files : Dict String LocalFile)
    (changes : Changes) : Prop where
  unmatched : ∀ tracked ∈ changes.unmatched, tracked ∈ state.entries
  keys : ∀ id proposal, changes.proposed.get? id = some proposal →
    ∃ operation ∈ changes.operations, operation.operationId = id
  proposes : (changes.operations.map SyncOperationInput.operationId).Nodup →
    ∀ operation ∈ changes.operations, Proposes env state files changes.proposed operation

namespace Proposing

variable {env : Env π} {state : ClientState} {files : Dict String LocalFile} {changes after : Changes}

theorem start (env : Env π) (state : ClientState) (files : Dict String LocalFile) (sequence : Nat) :
    Proposing env state files ⟨state.entries, [], [], sequence⟩ :=
  ⟨fun _ member => member, fun _ _ => nofun, fun _ => nofun⟩

theorem pop (proposing : Proposing env state files changes) (logicalId : UUID) :
    Proposing env state files { changes with unmatched := changes.unmatched.pop logicalId } :=
  ⟨fun tracked member => proposing.unmatched tracked (Dict.mem_pop member), proposing.keys,
    proposing.proposes⟩

theorem add (proposing : Proposing env state files changes) {operation : SyncOperationInput}
    {proposal : Proposal} (suits : Suits env state files operation proposal) :
    Proposing env state files (changes.add operation proposal) := by
  refine ⟨proposing.unmatched, fun id found there => ?_, fun distinct other member => ?_⟩
  · by_cases same : id = operation.operationId
    · exact ⟨operation, List.mem_append_right _ List.mem_cons_self, same.symm⟩
    · obtain ⟨before, here, named⟩ := proposing.keys id found
        ((Dict.get?_set_other _ _ same).symm.trans there)
      exact ⟨before, List.mem_append_left _ here, named⟩
  have apart : (changes.operations.map SyncOperationInput.operationId).Nodup ∧
      ∀ other ∈ changes.operations, other.operationId ≠ operation.operationId := by
    simp only [Changes.add, List.map_append, List.nodup_append] at distinct
    refine ⟨distinct.1, fun other here => ?_⟩
    exact distinct.2.2 _ (List.mem_map_of_mem here) _ List.mem_cons_self
  rcases List.mem_append.mp member with before | new
  · obtain ⟨proposal, found, suits⟩ := proposing.proposes apart.1 other before
    exact ⟨proposal, (Dict.get?_set_other _ _ (apart.2 other before)).trans found, suits⟩
  · rw [List.mem_singleton.mp new]
    exact ⟨proposal, Dict.get?_set_self .., suits⟩

end Proposing

theorem changeFile_proposing {env : Env π} {state : ClientState} {files : Dict String LocalFile}
    {draw : Nat → Draw} {changes after : Changes} {name : String} {file : LocalFile}
    (proposing : Proposing env state files changes) (present : files.get? name = some file)
    (changed : changeFile env state draw changes name file = some after) :
    Proposing env state files after := by
  unfold changeFile at changed
  dsimp only at changed
  split at changed
  · cases changed
    refine ⟨fun tracked member => proposing.unmatched tracked ?_, proposing.keys, proposing.proposes⟩
    dsimp only at member
    split at member
    · exact Dict.mem_pop member
    · exact member
  · split at changed
    · rename_i logicalId entry moved
      cases changed
      have member := proposing.unmatched _ (List.mem_of_find?_eq_some moved)
      have content := List.find?_some moved
      simp only [decide_eq_true_eq] at content
      exact (proposing.pop logicalId).add (.move _ entry file rfl member rfl rfl present rfl content.symm)
    · split at changed
      · contradiction
      · cases changed
        exact (proposing.pop _).add (.upsert _ file rfl rfl present rfl)

theorem changeFiles_proposing {env : Env π} {state : ClientState} {files rest : Dict String LocalFile}
    {draw : Nat → Draw} {changes after : Changes} (proposing : Proposing env state files changes)
    (present : ∀ entry ∈ rest, files.get? entry.1 = some entry.2)
    (changed : changeFiles env state draw changes rest = some after) :
    Proposing env state files after := by
  induction rest generalizing changes with
  | nil =>
    cases changed
    exact proposing
  | cons file rest ih =>
    obtain ⟨name, content⟩ := file
    obtain ⟨middle, first, later⟩ := Option.bind_eq_some_iff.mp changed
    have here := changeFile_proposing proposing (present _ List.mem_cons_self) first
    exact ih here (fun entry member => present entry (List.mem_cons_of_mem _ member)) later

theorem deleteItems_proposing {env : Env π} {state : ClientState} {files : Dict String LocalFile}
    (draw : Nat → Draw) {changes : Changes} {unmatched : Dict UUID Entry}
    (proposing : Proposing env state files changes)
    (entries : ∀ tracked ∈ unmatched, tracked ∈ state.entries) :
    Proposing env state files (unmatched.foldl (deleteItem draw) changes) := by
  induction unmatched generalizing changes with
  | nil => exact proposing
  | cons tracked rest ih =>
    refine ih ?_ fun other member => entries other (List.mem_cons_of_mem tracked member)
    exact proposing.add (.delete tracked.2 rfl (entries tracked List.mem_cons_self))

/-- Every operation that is pushed has its proposal, and every proposal its operation. -/
theorem localChanges_proposes {env : Env π} {state : ClientState} {files : Dict String LocalFile}
    {draw : Nat → Draw} {proposed : Dict UUID Proposal} {operations : List SyncOperationInput}
    (names : (files.map Prod.fst).Nodup)
    (computed : localChanges env state files draw = some (operations, proposed)) :
    (∀ id proposal, proposed.get? id = some proposal →
      ∃ operation ∈ operations, operation.operationId = id) ∧
    ((operations.map SyncOperationInput.operationId).Nodup →
      ∀ operation ∈ operations, Proposes env state files proposed operation) := by
  obtain ⟨changes, changed, same⟩ := Option.map_eq_some_iff.mp computed
  cases same
  have found := changeFiles_proposing (.start env state files _) (fun entry member =>
    Dict.get?_of_mem names member) changed
  have whole := deleteItems_proposing draw found found.unmatched
  exact ⟨whole.keys, whole.proposes⟩

/-- The file at the path is the one that its entry records. -/
def Keeps (state : ClientState) (name : String) (file : LocalFile) (tracked : UUID × Entry) : Prop :=
  state.byPath.get? name = some tracked ∧ tracked.2.matches file

/-- Each file that was visited is kept or has an operation, and so has each item that is tracked,
unless its entry is still unmatched. -/
structure Accounts (state : ClientState) (files : Dict String LocalFile) (names : List String)
    (unmatched : Dict UUID Entry) (operations : List SyncOperationInput) : Prop where
  found : ∀ name ∈ names, ∀ file, files.get? name = some file →
    (∃ tracked, Keeps state name file tracked) ∨
      ∃ operation ∈ operations, operation.kind ≠ .delete ∧ operation.relativePath = some name
  changed : ∀ operation ∈ operations, operation.kind ≠ .delete → ∀ name file tracked,
    operation.relativePath = some name → files.get? name = some file → ¬ Keeps state name file tracked
  entries : ∀ tracked ∈ state.entries, tracked ∈ unmatched ∨
    (∃ operation ∈ operations, operation.logicalId = tracked.1) ∨
      ∃ name file other, files.get? name = some file ∧ Keeps state name file other ∧
        other.1 = tracked.1

namespace Accounts

variable {state : ClientState} {files : Dict String LocalFile} {names : List String}
  {unmatched left : Dict UUID Entry} {operations : List SyncOperationInput} {name : String}
  {file : LocalFile}

theorem start (state : ClientState) (files : Dict String LocalFile) :
    Accounts state files [] state.entries [] :=
  ⟨fun _ none => absurd none List.not_mem_nil, fun _ none => absurd none List.not_mem_nil,
    fun _ member => .inl member⟩

/-- A file whose entry records it. -/
theorem keep (accounts : Accounts state files names unmatched operations)
    (present : files.get? name = some file) {tracked : UUID × Entry}
    (keeps : Keeps state name file tracked) :
    Accounts state files (names ++ [name]) (unmatched.pop tracked.1) operations := by
  refine ⟨fun other member content held => ?_, accounts.changed, fun other member => ?_⟩
  · rcases List.mem_append.mp member with before | now
    · exact accounts.found other before content held
    · rw [List.mem_singleton.mp now, present] at held
      cases held
      exact .inl ⟨tracked, List.mem_singleton.mp now ▸ keeps⟩
  · rcases accounts.entries other member with remains | known
    · by_cases same : other.1 = tracked.1
      · exact .inr (.inr ⟨name, file, tracked, present, keeps, same.symm⟩)
      · exact .inl (Dict.mem_pop_of_ne remains same)
    · exact .inr known

/-- An operation for a file, or for an item that has none. -/
theorem add (accounts : Accounts state files names unmatched operations)
    {operation : SyncOperationInput}
    (remain : ∀ tracked ∈ unmatched, tracked ∈ left ∨ tracked.1 = operation.logicalId)
    (changed : operation.kind ≠ .delete → ∀ name file tracked, operation.relativePath = some name →
      files.get? name = some file → ¬ Keeps state name file tracked)
    {later : List String} (visited : ∀ name ∈ later, operation.kind ≠ .delete ∧
      operation.relativePath = some name) :
    Accounts state files (names ++ later) left (operations ++ [operation]) := by
  have here : operation ∈ operations ++ [operation] := List.mem_append_right _ List.mem_cons_self
  refine ⟨fun path member content held => ?_, fun other member => ?_, fun other member => ?_⟩
  · rcases List.mem_append.mp member with before | now
    · refine (accounts.found path before content held).imp_right ?_
      rintro ⟨other, there, rest⟩
      exact ⟨other, List.mem_append_left _ there, rest⟩
    · exact .inr ⟨operation, here, visited path now⟩
  · rcases List.mem_append.mp member with before | new
    · exact accounts.changed other before
    · exact List.mem_singleton.mp new ▸ changed
  · rcases accounts.entries other member with remains | ⟨before, there, same⟩ | kept
    · rcases remain other remains with still | same
      · exact .inl still
      · exact .inr (.inl ⟨operation, here, same.symm⟩)
    · exact .inr (.inl ⟨before, List.mem_append_left _ there, same⟩)
    · exact .inr (.inr kept)

end Accounts

section Completeness

variable {env : Env π} {state : ClientState} {files : Dict String LocalFile} {draw : Nat → Draw}
  {names : List String} {changes after : Changes} {name : String} {file : LocalFile}

theorem changeFile_accounts (accounts : Accounts state files names changes.unmatched changes.operations)
    (present : files.get? name = some file)
    (changed : changeFile env state draw changes name file = some after) :
    Accounts state files (names ++ [name]) after.unmatched after.operations := by
  have remain : ∀ id, ∀ tracked ∈ changes.unmatched, tracked ∈ changes.unmatched.pop id ∨ tracked.1 = id := by
    intro id tracked member
    by_cases same : tracked.1 = id
    · exact .inr same
    · exact .inl (Dict.mem_pop_of_ne member same)
  unfold changeFile at changed
  dsimp only at changed
  split at changed
  · rename_i matched
    cases changed
    obtain ⟨direct, held, recorded⟩ := (Option.any_eq_true _ _).mp matched
    simp only [held]
    exact accounts.keep present ⟨held, of_decide_eq_true recorded⟩
  · rename_i unmatched
    have unkept : ∀ content tracked, files.get? name = some content →
        ¬ Keeps state name content tracked := by
      intro content tracked held keeps
      cases held.symm.trans present
      exact unmatched (by simp [keeps.1, keeps.2])
    split at changed
    · cases changed
      refine accounts.add ?_ ?_ fun path here => ?_
      · exact remain _
      · rintro _ path content tracked ⟨⟩
        exact unkept content tracked
      · rw [List.mem_singleton.mp here]
        exact ⟨(fun same => by cases same), rfl⟩
    · split at changed
      · contradiction
      · cases changed
        refine accounts.add ?_ ?_ fun path here => ?_
        · exact remain _
        · rintro _ path content tracked ⟨⟩
          exact unkept content tracked
        · rw [List.mem_singleton.mp here]
          exact ⟨(fun same => by cases same), rfl⟩

theorem changeFiles_accounts {rest : Dict String LocalFile}
    (accounts : Accounts state files names changes.unmatched changes.operations)
    (present : ∀ entry ∈ rest, files.get? entry.1 = some entry.2)
    (changed : changeFiles env state draw changes rest = some after) :
    Accounts state files (names ++ rest.map Prod.fst) after.unmatched after.operations := by
  induction rest generalizing names changes with
  | nil =>
    cases changed
    rwa [List.map_nil, List.append_nil]
  | cons entry rest ih =>
    obtain ⟨middle, first, later⟩ := Option.bind_eq_some_iff.mp changed
    have here := changeFile_accounts accounts (present entry List.mem_cons_self) first
    have whole := ih here (fun other member => present other (List.mem_cons_of_mem _ member)) later
    rwa [List.append_assoc] at whole

theorem deleteItems_accounts {unmatched : Dict UUID Entry}
    (accounts : Accounts state files names unmatched changes.operations) :
    Accounts state files names [] (unmatched.foldl (deleteItem draw) changes).operations := by
  induction unmatched generalizing changes with
  | nil => exact accounts
  | cons tracked rest ih =>
    have deleted : Accounts state files (names ++ []) rest
        (deleteItem draw changes tracked).operations := by
      refine accounts.add (fun other member => ?_) (fun present => absurd rfl present)
        fun _ none => absurd none List.not_mem_nil
      rcases List.mem_cons.mp member with rfl | later
      · exact .inr rfl
      · exact .inl later
    rw [List.append_nil] at deleted
    exact ih deleted

/-- Every file of the scan is kept or pushed, and every item that is tracked too. -/
theorem localChanges_accounts {proposed : Dict UUID Proposal} {operations : List SyncOperationInput}
    (distinct : (files.map Prod.fst).Nodup)
    (computed : localChanges env state files draw = some (operations, proposed)) :
    Accounts state files (files.map Prod.fst) [] operations := by
  obtain ⟨changes, changed, same⟩ := Option.map_eq_some_iff.mp computed
  cases same
  exact deleteItems_accounts (changeFiles_accounts (.start state files)
    (fun entry member => Dict.get?_of_mem distinct member) changed)

end Completeness

end Drivebound.Desktop
