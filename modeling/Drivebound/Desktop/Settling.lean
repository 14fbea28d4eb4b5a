import Drivebound.Desktop.Proposals
import Drivebound.Desktop.Rest

/-! What `local_changes` finds and what its acknowledged push leaves behind. It finds nothing
at a clean path; once every operation that it found has been applied, every path is clean,
as long as no file was kept or uploaded for an item that had been taken for another file. -/
namespace Drivebound.Desktop
open Sync Run

/-- The loops have found something only at paths that are not clean. -/
structure Departing (state : ClientState) (files : Dict String LocalFile) (names : List String)
    (changes : Changes) : Prop where
  departs : ∀ operation ∈ changes.operations, ∃ name, operation.relativePath = some name ∧
    ¬ Clean state.entries name (files.get? name)
  unmatched : ∀ tracked ∈ changes.unmatched, tracked ∈ state.entries
  visited : ∀ tracked ∈ changes.unmatched, tracked.2.relativePath ∈ names →
    ¬ Clean state.entries tracked.2.relativePath (files.get? tracked.2.relativePath)

section Departing

variable {env : Env π} {state : ClientState} {files : Dict String LocalFile} {draw : Nat → Draw}
  {names : List String} {changes after : Changes} {name : String} {file : LocalFile}

theorem not_clean_of_unmatched (keys : (state.entries.map Prod.fst).Nodup)
    (present : files.get? name = some file)
    (unmatched : ¬ ((state.byPath.get? name).any fun tracked => tracked.2.matches file) = true) :
    ¬ Clean state.entries name (files.get? name) := by
  intro clean
  rw [present] at clean
  obtain ⟨tracked, found, recorded, _⟩ := clean.byPath keys
  exact unmatched (by simp [found, recorded])

theorem Departing.add (departing : Departing state files names changes)
    {operation : SyncOperationInput} (proposal : Proposal) (logicalId : UUID)
    (path : operation.relativePath = some name)
    (departs : ¬ Clean state.entries name (files.get? name)) :
    Departing state files (names ++ [name])
      ({ changes with unmatched := changes.unmatched.pop logicalId }.add operation proposal) := by
  refine ⟨fun other member => ?_, fun tracked member => departing.unmatched tracked (Dict.mem_pop member),
    fun tracked member here => ?_⟩
  · rcases List.mem_append.mp member with before | new
    · exact departing.departs other before
    · rw [List.mem_singleton.mp new]
      exact ⟨name, path, departs⟩
  · rcases List.mem_append.mp here with before | now
    · exact departing.visited tracked (Dict.mem_pop member) before
    · rw [List.mem_singleton.mp now]
      exact departs

theorem changeFile_departing (keys : (state.entries.map Prod.fst).Nodup)
    (departing : Departing state files names changes) (present : files.get? name = some file)
    (changed : changeFile env state draw changes name file = some after) :
    Departing state files (names ++ [name]) after := by
  unfold changeFile at changed
  dsimp only at changed
  split at changed
  · rename_i matched
    cases changed
    obtain ⟨direct, found, _⟩ := (Option.any_eq_true _ _).mp matched
    simp only [found]
    refine ⟨departing.departs, fun tracked member => departing.unmatched tracked (Dict.mem_pop member),
      fun tracked member here => ?_⟩
    rcases List.mem_append.mp here with before | now
    · exact departing.visited tracked (Dict.mem_pop member) before
    · intro clean
      rw [List.mem_singleton.mp now, present] at clean
      obtain ⟨own, _, _, only⟩ := clean.byPath keys
      have first := only tracked (departing.unmatched tracked (Dict.mem_pop member))
        (List.mem_singleton.mp now)
      have second := only direct (ClientState.byPath_found found) (ClientState.byPath_path found)
      exact Dict.ne_of_mem_pop member (by rw [first, second])
  · rename_i unmatched
    have departs := not_clean_of_unmatched keys present unmatched
    split at changed
    · cases changed
      exact departing.add _ _ rfl departs
    · split at changed
      · contradiction
      · cases changed
        exact departing.add _ _ rfl departs

theorem changeFiles_departing {rest : Dict String LocalFile}
    (keys : (state.entries.map Prod.fst).Nodup) (departing : Departing state files names changes)
    (present : ∀ entry ∈ rest, files.get? entry.1 = some entry.2)
    (changed : changeFiles env state draw changes rest = some after) :
    Departing state files (names ++ rest.map Prod.fst) after := by
  induction rest generalizing names changes with
  | nil =>
    cases changed
    rwa [List.map_nil, List.append_nil]
  | cons entry rest ih =>
    obtain ⟨middle, first, later⟩ := Option.bind_eq_some_iff.mp changed
    have here := changeFile_departing keys departing (present entry List.mem_cons_self) first
    have whole := ih here (fun other member => present other (List.mem_cons_of_mem _ member)) later
    rwa [List.append_assoc] at whole

theorem deleteItems_departs {unmatched : Dict UUID Entry}
    (departs : ∀ operation ∈ changes.operations, ∃ name, operation.relativePath = some name ∧
      ¬ Clean state.entries name (files.get? name))
    (gone : ∀ tracked ∈ unmatched,
      ¬ Clean state.entries tracked.2.relativePath (files.get? tracked.2.relativePath)) :
    ∀ operation ∈ (unmatched.foldl (deleteItem draw) changes).operations,
      ∃ name, operation.relativePath = some name ∧ ¬ Clean state.entries name (files.get? name) := by
  induction unmatched generalizing changes with
  | nil => exact departs
  | cons tracked rest ih =>
    refine ih (fun operation member => ?_) fun other member => gone other (List.mem_cons_of_mem _ member)
    rcases List.mem_append.mp member with before | new
    · exact departs operation before
    · rw [List.mem_singleton.mp new]
      exact ⟨_, rfl, gone tracked List.mem_cons_self⟩

/-- Nothing is found at a clean path. -/
theorem localChanges_departs {proposed : Dict UUID Proposal} {operations : List SyncOperationInput}
    (keys : (state.entries.map Prod.fst).Nodup) (distinct : (files.map Prod.fst).Nodup)
    (computed : localChanges env state files draw = some (operations, proposed)) :
    ∀ operation ∈ operations, ∃ name, operation.relativePath = some name ∧
      ¬ Clean state.entries name (files.get? name) := by
  obtain ⟨changes, changed, same⟩ := Option.map_eq_some_iff.mp computed
  cases same
  have start : Departing state files [] ⟨state.entries, [], [], state.sequence⟩ :=
    ⟨nofun, fun _ member => member, fun _ _ => nofun⟩
  have found := changeFiles_departing keys start
    (fun entry member => Dict.get?_of_mem distinct member) changed
  refine deleteItems_departs found.departs fun tracked member clean => ?_
  cases present : files.get? tracked.2.relativePath with
  | none =>
    rw [present] at clean
    have held := Dict.get?_of_mem keys (found.unmatched tracked member)
    exact clean _ _ held rfl
  | some file =>
    exact found.visited tracked member (List.mem_map_of_mem (Dict.get?_mem present)) clean

theorem changeFiles_clean (env : Env π) (draw : Nat → Draw) (changes : Changes)
    {rest : Dict String LocalFile} (keys : (state.entries.map Prod.fst).Nodup)
    (clean : ∀ entry ∈ rest, Clean state.entries entry.1 (some entry.2)) :
    ∃ unmatched, changeFiles env state draw changes rest = some { changes with unmatched } := by
  induction rest generalizing changes with
  | nil => exact ⟨changes.unmatched, rfl⟩
  | cons entry rest ih =>
    obtain ⟨tracked, found, recorded, _⟩ := (clean entry List.mem_cons_self).byPath keys
    have kept : changeFile env state draw changes entry.1 entry.2 =
        some { changes with unmatched := changes.unmatched.pop tracked.1 } := by
      simp only [changeFile, found, Option.any_some, recorded, decide_true, if_true]
    obtain ⟨unmatched, later⟩ := ih { changes with unmatched := changes.unmatched.pop tracked.1 }
      fun other member => clean other (List.mem_cons_of_mem _ member)
    refine ⟨unmatched, ?_⟩
    rw [changeFiles, kept]
    exact later

theorem deleteItems_length (unmatched : Dict UUID Entry) :
    (unmatched.foldl (deleteItem draw) changes).operations.length =
      changes.operations.length + unmatched.length := by
  induction unmatched generalizing changes with
  | nil => rfl
  | cons tracked rest ih =>
    rw [List.foldl_cons, ih, deleteItem, Changes.add, List.length_append, List.length_cons,
      List.length_cons, List.length_nil]
    omega

/-- With every path clean there is nothing to push. -/
theorem localChanges_clean (keys : (state.entries.map Prod.fst).Nodup)
    (distinct : (files.map Prod.fst).Nodup)
    (clean : ∀ name, Clean state.entries name (files.get? name)) :
    localChanges env state files draw = some ([], []) := by
  obtain ⟨unmatched, changed⟩ := changeFiles_clean env draw
    ⟨state.entries, [], [], state.sequence⟩ keys fun entry (member : entry ∈ files) =>
      Dict.get?_of_mem distinct member ▸ clean entry.1
  let deleted := unmatched.foldl (deleteItem draw) ⟨unmatched, [], [], state.sequence⟩
  have computed : localChanges env state files draw = some (deleted.operations, deleted.proposed) := by
    rw [localChanges, changed]
    rfl
  have quiet : deleted.operations = [] := by
    refine List.eq_nil_iff_forall_not_mem.mpr fun operation member => ?_
    obtain ⟨name, _, dirty⟩ := localChanges_departs keys distinct computed operation member
    exact dirty (clean name)
  have nothing : unmatched = [] := by
    have found : deleted.operations.length = 0 + unmatched.length := deleteItems_length unmatched
    rw [quiet, Nat.zero_add] at found
    exact List.length_eq_zero_iff.mp found.symm
  subst nothing
  exact computed

end Departing

/-- The proposal for an operation: the entry of a file that no entry recorded, or none. -/
inductive Places (state : ClientState) (files : Dict String LocalFile)
    (operation : SyncOperationInput) : Proposal → Prop
  | move (entry : Entry) (file : LocalFile) (kind : operation.kind ≠ .delete)
      (path : operation.relativePath = some entry.relativePath)
      (present : files.get? entry.relativePath = some file) (recorded : entry.matches file)
      (unkept : ∀ tracked, ¬ Keeps state entry.relativePath file tracked) :
      Places state files operation (.move operation.logicalId entry)
  | upsert (entry : Entry) (file : LocalFile) (kind : operation.kind ≠ .delete)
      (path : operation.relativePath = some entry.relativePath)
      (present : files.get? entry.relativePath = some file) (recorded : entry.matches file)
      (unkept : ∀ tracked, ¬ Keeps state entry.relativePath file tracked) :
      Places state files operation (.upsert operation.logicalId entry)
  | delete (kind : operation.kind = .delete) :
      Places state files operation (.delete operation.logicalId)

/-- Each file that was visited has its own item, kept or proposed. -/
structure Placing (state : ClientState) (files : Dict String LocalFile) (names : List String)
    (unmatched : Dict UUID Entry) (operations : List SyncOperationInput)
    (proposed : Dict UUID Proposal) : Prop where
  keys : (unmatched.map Prod.fst).Nodup
  listed : ∀ tracked ∈ unmatched, tracked ∈ state.entries
  places : ∀ operation ∈ operations, ∃ proposal,
    proposed.get? operation.operationId = some proposal ∧ Places state files operation proposal
  apart : (operations.map (·.logicalId)).Nodup
  taken : ∀ operation ∈ operations, operation.logicalId ∉ unmatched.map Prod.fst
  kept : ∀ name ∈ names, ∀ file, files.get? name = some file → ∀ tracked,
    Keeps state name file tracked → tracked.1 ∉ unmatched.map Prod.fst ∧
      ∀ operation ∈ operations, operation.logicalId ≠ tracked.1

/-- The item of the path of a file that is kept or uploaded has not been taken for an earlier
file of the scan. -/
def Untaken (env : Env π) (state : ClientState) (changes : Changes) (file : String × LocalFile) :
    Prop :=
  ∀ tracked ∈ state.byPath.get? file.1,
    (tracked.2.matches file.2 ∨ changes.unmatched.find? (fun other =>
      other.2.fingerprint.checksum = some (env.sha256 file.2.content)) = none) →
    tracked.1 ∈ changes.unmatched.map Prod.fst

instance (env : Env π) (state : ClientState) (changes : Changes) :
    DecidablePred (Untaken env state changes) := fun file =>
  inferInstanceAs (Decidable (∀ tracked ∈ state.byPath.get? file.1, _ → _))

/-- `changeFile` as a step of the loop over the files. -/
def visit (env : Env π) (state : ClientState) (draw : Nat → Draw) (changes : Changes)
    (file : String × LocalFile) : Option Changes :=
  changeFile env state draw changes file.1 file.2

namespace Placing

variable {state : ClientState} {files : Dict String LocalFile} {names : List String}
  {unmatched left : Dict UUID Entry} {operations : List SyncOperationInput}
  {proposed : Dict UUID Proposal} {name : String} {file : LocalFile}

/-- A file whose entry records it. -/
theorem keep (placing : Placing state files names unmatched operations proposed)
    {tracked : UUID × Entry} (keeps : Keeps state name file tracked)
    (untaken : tracked.1 ∈ unmatched.map Prod.fst) :
    Placing state files (names ++ [name]) (unmatched.pop tracked.1) operations proposed := by
  have gone : tracked.1 ∉ (unmatched.pop tracked.1).map Prod.fst := by
    intro here
    obtain ⟨other, member, same⟩ := List.mem_map.mp here
    exact Dict.ne_of_mem_pop member same
  have fewer : ∀ id, id ∉ unmatched.map Prod.fst → id ∉ (unmatched.pop tracked.1).map Prod.fst := by
    intro id absent here
    obtain ⟨other, member, same⟩ := List.mem_map.mp here
    exact absent (List.mem_map.mpr ⟨other, Dict.mem_pop member, same⟩)
  refine ⟨Dict.nodup_pop placing.keys _, fun other member => placing.listed other (Dict.mem_pop member),
    placing.places, placing.apart, fun operation member => fewer _ (placing.taken operation member),
    fun other member content held own owns => ?_⟩
  rcases List.mem_append.mp member with before | now
  · obtain ⟨absent, others⟩ := placing.kept other before content held own owns
    exact ⟨fewer _ absent, others⟩
  · rw [List.mem_singleton.mp now] at owns
    cases owns.1.symm.trans keeps.1
    exact ⟨gone, fun operation there same => placing.taken operation there (same ▸ untaken)⟩

/-- An operation on an item that no earlier file has. -/
theorem add (placing : Placing state files names unmatched operations proposed) {operation : SyncOperationInput}
    {proposal : Proposal} (places : Places state files operation proposal)
    (new : ∀ other ∈ operations, other.operationId ≠ operation.operationId)
    (unowned : ∀ other ∈ operations, other.logicalId ≠ operation.logicalId)
    (unkept : ∀ name ∈ names, ∀ file, files.get? name = some file → ∀ tracked,
      Keeps state name file tracked → tracked.1 ≠ operation.logicalId)
    (nodup : (left.map Prod.fst).Nodup)
    (remain : ∀ tracked, tracked ∈ left ↔ tracked ∈ unmatched ∧ tracked.1 ≠ operation.logicalId)
    {later : List String} (visited : ∀ name ∈ later, ∀ file tracked,
      files.get? name = some file → ¬ Keeps state name file tracked) :
    Placing state files (names ++ later) left (operations ++ [operation])
      (proposed.set operation.operationId proposal) := by
  have fewer : ∀ id, id ∉ unmatched.map Prod.fst → id ∉ left.map Prod.fst := by
    intro id absent there
    obtain ⟨other, member, same⟩ := List.mem_map.mp there
    exact absent (List.mem_map.mpr ⟨other, ((remain other).mp member).1, same⟩)
  refine ⟨nodup, fun other member => placing.listed other ((remain other).mp member).1,
    fun other member => ?_, ?_, fun other member => ?_, fun path member content held own owns => ?_⟩
  · rcases List.mem_append.mp member with before | now
    · obtain ⟨proposal, known, places⟩ := placing.places other before
      exact ⟨proposal, (Dict.get?_set_other _ _ (new other before)).trans known, places⟩
    · rw [List.mem_singleton.mp now]
      exact ⟨proposal, Dict.get?_set_self .., places⟩
  · simp only [List.map_append, List.nodup_append]
    refine ⟨placing.apart, List.nodup_singleton _, fun id before other now => ?_⟩
    obtain ⟨earlier, member, rfl⟩ := List.mem_map.mp before
    rw [List.map_singleton, List.mem_singleton] at now
    exact now ▸ unowned earlier member
  · rcases List.mem_append.mp member with before | now
    · exact fewer _ (placing.taken other before)
    · rw [List.mem_singleton.mp now]
      intro there
      obtain ⟨tracked, member, same⟩ := List.mem_map.mp there
      exact ((remain tracked).mp member).2 same
  · rcases List.mem_append.mp member with before | now
    · obtain ⟨absent, others⟩ := placing.kept path before content held own owns
      refine ⟨fewer _ absent, fun other member => ?_⟩
      rcases List.mem_append.mp member with earlier | last
      · exact others other earlier
      · rw [List.mem_singleton.mp last]
        exact (unkept path before content held own owns).symm
    · exact absurd owns (visited path now content own held)

end Placing

section Loops

variable {env : Env π} {state : ClientState} {files : Dict String LocalFile} {draw : Nat → Draw}
  {names : List String} {changes after : Changes} {name : String} {file : LocalFile}

theorem Found.earlier (found : Found state draw names changes) {operation : SyncOperationInput}
    (member : operation ∈ changes.operations) : operation.clientSequence < changes.sequence := by
  have number := List.mem_map_of_mem (f := (·.clientSequence)) member
  rw [found.numbered, List.mem_range'_1] at number
  rw [found.sequence]
  exact number.2

theorem Found.newOperation (found : Found state draw names changes) (fresh : Fresh state.entries draw) :
    ∀ other ∈ changes.operations, other.operationId ≠ (draw changes.sequence).operationId := by
  intro other member same
  rw [found.drawn other member] at same
  exact Nat.ne_of_lt (found.earlier member) (fresh.operations same)

/-- A drawn item is no entry's and no earlier operation's. -/
theorem Found.newItem (found : Found state draw names changes) (fresh : Fresh state.entries draw) :
    ∀ other ∈ changes.operations, other.logicalId ≠ (draw changes.sequence).logicalId := by
  intro other member same
  rcases found.tracks other member with ⟨entry, there, _⟩ | ⟨_, drawn, _⟩
  · exact fresh.new _ (same ▸ List.mem_map_of_mem there)
  · rw [drawn] at same
    exact Nat.ne_of_lt (found.earlier member) (fresh.items same)

theorem changeFile_placing (fresh : Fresh state.entries draw) (found : Found state draw names changes)
    (placing : Placing state files names changes.unmatched changes.operations changes.proposed)
    (present : files.get? name = some file) (untaken : Untaken env state changes (name, file))
    (changed : changeFile env state draw changes name file = some after) :
    Placing state files (names ++ [name]) after.unmatched after.operations after.proposed := by
  unfold changeFile at changed
  dsimp only at changed
  split at changed
  · rename_i matched
    cases changed
    obtain ⟨direct, held, recorded⟩ := (Option.any_eq_true _ _).mp matched
    simp only [held]
    have owned := untaken direct held (.inl (of_decide_eq_true recorded))
    exact placing.keep ⟨held, of_decide_eq_true recorded⟩ owned
  · rename_i unmatched
    have unkept : ∀ tracked, ¬ Keeps state name file tracked := fun tracked keeps =>
      unmatched (by simp [keeps.1, keeps.2])
    have remain : ∀ (id : UUID) tracked, tracked ∈ changes.unmatched.pop id ↔
        tracked ∈ changes.unmatched ∧ tracked.1 ≠ id := by
      intro id tracked
      constructor
      · intro member
        exact ⟨Dict.mem_pop member, Dict.ne_of_mem_pop member⟩
      · rintro ⟨member, different⟩
        exact Dict.mem_pop_of_ne member different
    -- An item whose entry is unmatched has not been taken.
    have free : ∀ id, id ∈ changes.unmatched.map Prod.fst →
        (∀ other ∈ changes.operations, other.logicalId ≠ id) ∧
        ∀ name ∈ names, ∀ file, files.get? name = some file → ∀ tracked,
          Keeps state name file tracked → tracked.1 ≠ id := fun id member =>
      ⟨fun other there same => placing.taken other there (same ▸ member),
        fun path here content held own owns same =>
          (placing.kept path here content held own owns).1 (same ▸ member)⟩
    split at changed
    · rename_i logicalId entry moved
      cases changed
      have member := List.mem_map_of_mem (f := Prod.fst) (List.mem_of_find?_eq_some moved)
      obtain ⟨unowned, apart⟩ := free logicalId member
      refine placing.add (.move _ file ?_ rfl present ⟨rfl, rfl⟩ unkept)
        (found.newOperation fresh) unowned apart (Dict.nodup_pop placing.keys _) (remain logicalId) ?_
      · intro same
        cases same
      · intro path here
        rw [List.mem_singleton.mp here]
        intro content tracked held keeps
        cases held.symm.trans present
        exact unkept tracked keeps
    · rename_i missing
      split at changed
      · contradiction
      · cases changed
        refine placing.add ?_ (found.newOperation fresh) ?_ ?_ ?_ ?_ ?_
        · exact .upsert _ file (fun same => by cases same) rfl present ⟨rfl, rfl⟩ unkept
        · cases direct : state.byPath.get? name with
          | none => exact found.newItem fresh
          | some tracked => exact (free tracked.1 (untaken tracked direct (.inr missing))).1
        · cases direct : state.byPath.get? name with
          | none =>
            intro path here content held own owns same
            refine fresh.new changes.sequence ?_
            dsimp only [makeOperation] at same
            rw [← same]
            exact List.mem_map_of_mem (ClientState.byPath_found owns.1)
          | some tracked => exact (free tracked.1 (untaken tracked direct (.inr missing))).2
        · exact Dict.nodup_pop placing.keys _
        · exact remain _
        · intro path here
          rw [List.mem_singleton.mp here]
          intro content tracked held keeps
          cases held.symm.trans present
          exact unkept tracked keeps

theorem changeFiles_placing {rest : Dict String LocalFile} (fresh : Fresh state.entries draw)
    (found : Found state draw names changes)
    (placing : Placing state files names changes.unmatched changes.operations changes.proposed)
    (present : ∀ entry ∈ rest, files.get? entry.1 = some entry.2)
    (untaken : Along (visit env state draw) (Untaken env state) changes rest)
    (changed : changeFiles env state draw changes rest = some after) :
    Placing state files (names ++ rest.map Prod.fst) after.unmatched after.operations after.proposed := by
  induction rest generalizing names changes with
  | nil =>
    cases changed
    rwa [List.map_nil, List.append_nil]
  | cons entry rest ih =>
    obtain ⟨middle, first, later⟩ := Option.bind_eq_some_iff.mp changed
    have here := changeFile_placing fresh found placing (present entry List.mem_cons_self)
      untaken.1 first
    have whole := ih (changeFile_found found first) here
      (fun other member => present other (List.mem_cons_of_mem _ member)) (untaken.2 middle first) later
    rwa [List.append_assoc] at whole

theorem deleteItems_placing {unmatched : Dict UUID Entry} (fresh : Fresh state.entries draw)
    (found : Found state draw names changes)
    (placing : Placing state files names unmatched changes.operations changes.proposed) :
    Placing state files names [] (unmatched.foldl (deleteItem draw) changes).operations
      (unmatched.foldl (deleteItem draw) changes).proposed := by
  induction unmatched generalizing changes with
  | nil => exact placing
  | cons tracked rest ih =>
    have first : tracked.1 ∈ (tracked :: rest).map Prod.fst := List.mem_cons_self
    obtain ⟨absent, distinct⟩ := List.nodup_cons.mp placing.keys
    have deleted : Placing state files (names ++ []) rest (deleteItem draw changes tracked).operations
        (deleteItem draw changes tracked).proposed := by
      refine placing.add (.delete rfl) (found.newOperation fresh)
        (fun other member same => placing.taken other member (same ▸ first))
        (fun path here content held own owns same =>
          (placing.kept path here content held own owns).1 (same ▸ first)) distinct
        (fun other => ⟨fun member => ⟨List.mem_cons_of_mem _ member, fun same => absent ?_⟩,
          fun ⟨member, different⟩ => (List.mem_cons.mp member).resolve_left ?_⟩) nofun
      · exact List.mem_map.mpr ⟨other, member, same⟩
      · rintro rfl
        exact different rfl
    rw [List.append_nil] at deleted
    refine ih ?_ deleted
    have member := placing.listed tracked List.mem_cons_self
    have single : ∀ other ∈ [tracked], other ∈ state.entries := fun other here =>
      List.mem_singleton.mp here ▸ member
    have once := deleteItems_found found single
    exact once

/-- What is pushed, where no item is taken for two files. -/
theorem localChanges_placing {proposed : Dict UUID Proposal} {operations : List SyncOperationInput}
    (keys : (state.entries.map Prod.fst).Nodup) (distinct : (files.map Prod.fst).Nodup)
    (fresh : Fresh state.entries draw)
    (untaken : Along (visit env state draw) (Untaken env state)
      ⟨state.entries, [], [], state.sequence⟩ files)
    (computed : localChanges env state files draw = some (operations, proposed)) :
    Placing state files (files.map Prod.fst) [] operations proposed := by
  obtain ⟨changes, changed, same⟩ := Option.map_eq_some_iff.mp computed
  cases same
  have start : Placing state files [] state.entries [] [] :=
    ⟨keys, fun _ member => member, nofun, List.nodup_nil, nofun, nofun⟩
  have found := changeFiles_found (.start state draw) changed
  have placing := changeFiles_placing fresh (.start state draw) start
    (fun entry member => Dict.get?_of_mem distinct member) untaken changed
  exact deleteItems_placing fresh found placing

end Loops

section Acknowledging

variable {proposed : Dict UUID Proposal} {state : ClientState} {answer : SyncOperation}

/-- What the entries hold of a proposal that was acknowledged. -/
def Recorded : Proposal → Option Entry → Prop
  | .delete _, held => held = none
  | .move _ entry, held | .upsert _ entry, held => ∃ record, held = some record ∧
      record.relativePath = entry.relativePath ∧ record.fingerprint = entry.fingerprint

theorem acknowledgeOne_other {key : UUID}
    (others : ∀ proposal, proposed.get? answer.operationId = some proposal → proposal.logicalId ≠ key) :
    (acknowledgeOne proposed state answer).entries.get? key = state.entries.get? key := by
  unfold acknowledgeOne
  split
  · rfl
  · rename_i proposal found
    have different := (others proposal found).symm
    split
    · rfl
    · cases proposal with
      | delete logicalId => exact Dict.get?_pop_other _ different
      | move logicalId entry => exact Dict.get?_set_other _ _ different
      | upsert logicalId entry => exact Dict.get?_set_other _ _ different

theorem acknowledgeOne_own {proposal : Proposal}
    (found : proposed.get? answer.operationId = some proposal) (applied : answer.status = .applied) :
    Recorded proposal ((acknowledgeOne proposed state answer).entries.get? proposal.logicalId) := by
  unfold acknowledgeOne
  simp only [found, applied, ne_eq, not_true_eq_false, if_false]
  cases proposal with
  | delete logicalId => exact Dict.get?_pop_self ..
  | move logicalId entry => exact ⟨_, Dict.get?_set_self .., rfl, rfl⟩
  | upsert logicalId entry => exact ⟨_, Dict.get?_set_self .., rfl, rfl⟩

theorem acknowledgeOne_keys (keys : (state.entries.map Prod.fst).Nodup) :
    ((acknowledgeOne proposed state answer).entries.map Prod.fst).Nodup := by
  unfold acknowledgeOne
  split
  · exact keys
  · rename_i proposal found
    split
    · exact keys
    · cases proposal with
      | delete logicalId => exact Dict.nodup_pop keys _
      | move logicalId entry => exact Dict.nodup_set keys _ _
      | upsert logicalId entry => exact Dict.nodup_set keys _ _

variable {answers : List SyncOperation}

theorem acknowledge_keys (keys : (state.entries.map Prod.fst).Nodup) :
    ((answers.foldl (acknowledgeOne proposed) state).entries.map Prod.fst).Nodup := by
  induction answers generalizing state with
  | nil => exact keys
  | cons answer rest ih => exact ih (acknowledgeOne_keys keys)

theorem acknowledge_other {key : UUID} (others : ∀ id proposal,
    proposed.get? id = some proposal → proposal.logicalId ≠ key) :
    (answers.foldl (acknowledgeOne proposed) state).entries.get? key = state.entries.get? key := by
  induction answers generalizing state with
  | nil => rfl
  | cons answer rest ih => exact ih.trans (acknowledgeOne_other (others answer.operationId))

/-- An operation that was answered as applied, when no other one has its item. -/
theorem acknowledge_own {id : UUID} {proposal : Proposal} (found : proposed.get? id = some proposal)
    (alone : ∀ other another, proposed.get? other = some another →
      another.logicalId = proposal.logicalId → other = id)
    (applied : ∀ answer ∈ answers, answer.operationId = id → answer.status = .applied)
    (answered : Recorded proposal (state.entries.get? proposal.logicalId) ∨
      ∃ answer ∈ answers, answer.operationId = id) :
    Recorded proposal
      ((answers.foldl (acknowledgeOne proposed) state).entries.get? proposal.logicalId) := by
  induction answers generalizing state with
  | nil => exact answered.resolve_right fun ⟨_, never, _⟩ => absurd never List.not_mem_nil
  | cons answer rest ih =>
    refine ih (fun other member => applied other (List.mem_cons_of_mem _ member)) ?_
    by_cases own : answer.operationId = id
    · left
      exact acknowledgeOne_own (own ▸ found) (applied answer List.mem_cons_self own)
    · rw [acknowledgeOne_other fun another there same => own (alone _ another there same)]
      refine answered.imp_right fun ⟨other, member, same⟩ => ⟨other, ?_, same⟩
      refine (List.mem_cons.mp member).resolve_left ?_
      rintro rfl
      exact own same

end Acknowledging

/-- Every operation is answered, and as applied. -/
def AllApplied (operations : List SyncOperationInput) (answers : List SyncOperation) : Prop :=
  ∀ operation ∈ operations, (∃ answer ∈ answers, answer.operationId = operation.operationId) ∧
    ∀ answer ∈ answers, answer.operationId = operation.operationId → answer.status = .applied

instance (operations : List SyncOperationInput) : DecidablePred (AllApplied operations) := fun _ =>
  inferInstanceAs (Decidable (∀ operation ∈ operations, _ ∧ _))

section Settling

variable {env : Env π} {state : ClientState} {files : Dict String LocalFile} {draw : Nat → Draw}
  {proposed : Dict UUID Proposal} {operations : List SyncOperationInput}
  {answers : List SyncOperation}

/-- The entries after the push: those of its operations, and those that no operation names. -/
theorem acknowledged_entries (placing : Placing state files (files.map Prod.fst) [] operations proposed)
    (known : ∀ id proposal, proposed.get? id = some proposal →
      ∃ operation ∈ operations, operation.operationId = id)
    (applied : AllApplied operations answers) :
    (∀ operation ∈ operations, ∃ proposal, Places state files operation proposal ∧
      Recorded proposal ((answers.foldl (acknowledgeOne proposed) state).entries.get?
        operation.logicalId)) ∧
    ∀ id, (∀ operation ∈ operations, operation.logicalId ≠ id) →
      (answers.foldl (acknowledgeOne proposed) state).entries.get? id = state.entries.get? id := by
  have named : ∀ id proposal, proposed.get? id = some proposal →
      ∃ operation ∈ operations, operation.operationId = id ∧ proposal.logicalId = operation.logicalId := by
    intro id proposal found
    obtain ⟨operation, member, rfl⟩ := known id proposal found
    obtain ⟨own, held, places⟩ := placing.places operation member
    cases held.symm.trans found
    refine ⟨operation, member, rfl, ?_⟩
    cases places <;> rfl
  constructor
  · intro operation member
    obtain ⟨proposal, found, places⟩ := placing.places operation member
    have own : proposal.logicalId = operation.logicalId := by cases places <;> rfl
    refine ⟨proposal, places, own ▸ acknowledge_own found (fun other another there same => ?_)
      (applied operation member).2 (.inr (applied operation member).1)⟩
    obtain ⟨origin, here, rfl, origins⟩ := named other another there
    have equal := List.inj_on_of_nodup_map placing.apart here member
      (origins.symm.trans (same.trans own))
    rw [equal]
  · intro id others
    refine acknowledge_other fun key proposal found same => ?_
    obtain ⟨operation, member, _, own⟩ := named key proposal found
    exact others operation member (own.symm.trans same)

/-- What an entry says of its path after the push: its file is there and was kept, or was
pushed for the entry. -/
theorem acknowledged_entry (placing : Placing state files (files.map Prod.fst) [] operations proposed)
    (accounts : Accounts state files (files.map Prod.fst) [] operations)
    (keys : (state.entries.map Prod.fst).Nodup)
    (known : ∀ id proposal, proposed.get? id = some proposal →
      ∃ operation ∈ operations, operation.operationId = id)
    (applied : AllApplied operations answers) {id : UUID} {entry : Entry}
    (held : (answers.foldl (acknowledgeOne proposed) state).entries.get? id = some entry) :
    ∃ file, files.get? entry.relativePath = some file ∧ entry.matches file ∧
      (Keeps state entry.relativePath file (id, entry) ∨
        (∀ tracked, ¬ Keeps state entry.relativePath file tracked) ∧
          ∃ operation ∈ operations, operation.kind ≠ .delete ∧ operation.logicalId = id ∧
            operation.relativePath = some entry.relativePath) := by
  obtain ⟨own, others⟩ := acknowledged_entries placing known applied
  by_cases pushed : ∃ operation ∈ operations, operation.logicalId = id
  · obtain ⟨operation, member, rfl⟩ := pushed
    obtain ⟨proposal, places, recorded⟩ := own operation member
    rw [held] at recorded
    cases places with
    | delete => contradiction
    | move record file kind path present matched unkept
    | upsert record file kind path present matched unkept =>
      obtain ⟨_, same, relativePath, fingerprint⟩ := recorded
      cases same
      rw [← relativePath] at path present unkept
      refine ⟨file, present, ?_, .inr ⟨unkept, operation, member, kind, rfl, path⟩⟩
      unfold Entry.matches
      rw [fingerprint]
      exact matched
  · have unpushed : ∀ operation ∈ operations, operation.logicalId ≠ id := fun operation member same =>
      pushed ⟨operation, member, same⟩
    rw [others id unpushed] at held
    rcases accounts.entries _ (Dict.get?_mem held) with never | ⟨operation, member, same⟩ |
      ⟨path, file, other, present, keeps, same⟩
    · exact absurd never List.not_mem_nil
    · exact absurd same (unpushed operation member)
    · have single := List.inj_on_of_nodup_map keys (ClientState.byPath_found keeps.1)
        (Dict.get?_mem held) same
      subst single
      have same := ClientState.byPath_path keeps.1
      subst same
      exact ⟨file, present, keeps.2, .inl keeps⟩

/-- A push whose operations were all applied leaves every path clean. -/
theorem acknowledged_clean (keys : (state.entries.map Prod.fst).Nodup)
    (distinct : (files.map Prod.fst).Nodup) (fresh : Fresh state.entries draw)
    (untaken : Along (visit env state draw) (Untaken env state)
      ⟨state.entries, [], [], state.sequence⟩ files)
    (computed : localChanges env state files draw = some (operations, proposed))
    (applied : AllApplied operations answers) (name : String) :
    Clean (answers.foldl (acknowledgeOne proposed) state).entries name (files.get? name) := by
  have placing := localChanges_placing keys distinct fresh untaken computed
  have accounts := localChanges_accounts distinct computed
  have whole := localChanges_computed distinct computed
  have known := (localChanges_proposes distinct computed).1
  obtain ⟨own, others⟩ := acknowledged_entries placing known applied
  cases present : files.get? name with
  | none =>
    intro id entry held path
    obtain ⟨file, there, _⟩ := acknowledged_entry placing accounts keys known applied held
    rw [path, present] at there
    contradiction
  | some file =>
    have listed := List.mem_map_of_mem (f := Prod.fst) (Dict.get?_mem present)
    rcases accounts.found name listed file present with ⟨tracked, keeps⟩ | ⟨operation, member, kind, path⟩
    · obtain ⟨_, unpushed⟩ := placing.kept name listed file present tracked keeps
      have held := Dict.get?_of_mem keys (ClientState.byPath_found keeps.1)
      refine ⟨tracked.1, tracked.2, (others _ unpushed).trans held,
        ClientState.byPath_path keeps.1, keeps.2, fun other found there here => ?_⟩
      obtain ⟨content, held', _, kept | ⟨unkept, _⟩⟩ :=
          acknowledged_entry placing accounts keys known applied there
      · rw [here] at kept
        cases kept.1.symm.trans keeps.1
        rfl
      · rw [here] at held' unkept
        cases held'.symm.trans present
        exact absurd keeps (unkept tracked)
    · obtain ⟨proposal, places, recorded⟩ := own operation member
      cases places with
      | delete deletes => exact absurd deletes kind
      | move record content _ path' present' matched unkept
      | upsert record content _ path' present' matched unkept =>
        cases path.symm.trans path'
        cases present.symm.trans present'
        obtain ⟨entry, held, relativePath, fingerprint⟩ := recorded
        refine ⟨operation.logicalId, entry, held, relativePath, ?_, fun other found there here => ?_⟩
        · unfold Entry.matches
          rw [fingerprint]
          exact matched
        · obtain ⟨content', held', _, kept | ⟨_, another, member', kind', rfl, path''⟩⟩ :=
            acknowledged_entry placing accounts keys known applied there
          · rw [here] at kept held'
            cases held'.symm.trans present
            exact absurd kept (unkept _)
          · rw [here] at path''
            rw [whole.apart member' member kind' kind (path''.trans path.symm)]

end Settling

end Drivebound.Desktop
