import Drivebound.Desktop.Follow

/-! The answer of a push. Turn by turn, the client records the operations that the server has
applied with the revisions it gave them, so that it shows each item as the server left it. -/
namespace Drivebound.Desktop
open Sync Latest Checked

/-- The proposal is right, should the server apply the operation. -/
inductive Backed (db : SyncDb) (input : SyncOperationInput) : Proposal → Prop
  | move (entry : Entry) (tracked : SyncOperation) (kind : input.kind = .move)
      (path : input.relativePath = some entry.relativePath) (member : tracked ∈ db.effective)
      (named : tracked.logicalId = input.logicalId) (present : tracked.kind ≠ .delete)
      (base : tracked.revision = input.baseRevision)
      (content : entry.fingerprint.checksum = tracked.payload.checksum) :
      Backed db input (.move input.logicalId entry)
  | upsert (entry : Entry) (kind : input.kind = .upsert)
      (path : input.relativePath = some entry.relativePath)
      (content : ∀ id ∈ input.assetId, HasContent db.assets (some id) entry.fingerprint.checksum) :
      Backed db input (.upsert input.logicalId entry)
  | delete (kind : input.kind = .delete) : Backed db input (.delete input.logicalId)

theorem Backed.grows {db after : SyncDb} {new : SyncOperation → Prop} {input : SyncOperationInput}
    {proposal : Proposal} (backed : Backed db input proposal) (grows : Grows db after new) :
    Backed after input proposal := by
  cases backed with
  | move entry tracked kind path member named present base content =>
    exact .move entry tracked kind path (grows.kept tracked member) named present base content
  | upsert entry kind path content =>
    exact .upsert entry kind path fun id there => (content id there).kept grows.content
  | delete kind => exact .delete kind

/-- A push under way, with the proposal of each operation. -/
structure Carries (db : SyncDb) (proposed : Dict UUID Proposal) (inputs : List SyncOperationInput) :
    Prop where
  backed : ∀ input ∈ inputs, ∃ proposal, proposed.get? input.operationId = some proposal ∧
    Backed db input proposal
  keys : ∀ id proposal, proposed.get? id = some proposal → ∃ input ∈ inputs, input.operationId = id

theorem Carries.grows {db after : SyncDb} {new : SyncOperation → Prop}
    {proposed : Dict UUID Proposal} {inputs : List SyncOperationInput}
    (carries : Carries db proposed inputs) (grows : Grows db after new) :
    Carries after proposed inputs := by
  refine ⟨fun input member => ?_, carries.keys⟩
  obtain ⟨proposal, found, backed⟩ := carries.backed input member
  exact ⟨proposal, found, backed.grows grows⟩

/-- What the client shows in the course of a push. -/
structure Acknowledges (db : SyncDb) (replaced : UUID → Prop) (state : ClientState) : Prop where
  traced : Traced db state.entries
  kept : ∀ logicalId operation, Standing db logicalId operation →
    replaced operation.id ∨ Showing state operation

section Turns

variable {b after : Batch} {clientId : String} {input : SyncOperationInput} {fresh : FreshIds}
  {operation : SyncOperation} {proposed : Dict UUID Proposal} {state : ClientState}
  {replaced : UUID → Prop} {proposal : Proposal}

/-- The entry that an applied operation leaves, if its proposal records one. -/
theorem turn_records (turn : Turn b after clientId input fresh operation) (applied : operation.status = .applied)
    {entry : Entry} (present : input.kind ≠ .delete)
    (path : input.relativePath = some entry.relativePath)
    (content : entry.fingerprint.checksum = operation.payload.checksum) :
    EntryOf operation
      { entry with
        revision := operation.revision, uploadId := none, pendingFingerprint := none } := by
  refine ⟨?_, rfl, (turn.path applied present).trans path, content⟩
  rw [turn.kind]
  exact present

/-- The proposed content is that of the operation. -/
theorem turn_content (turn : Turn b after clientId input fresh operation)
    (mirrored : Mirrored b.db b.cursor) (applied : operation.status = .applied) {entry : Entry} :
    (Backed b.db input (.move input.logicalId entry) → input.kind = .move →
      entry.fingerprint.checksum = operation.payload.checksum) ∧
    (Backed b.db input (.upsert input.logicalId entry) → input.kind = .upsert →
      entry.fingerprint.checksum = operation.payload.checksum) := by
  obtain ⟨agreed, _, takes⟩ := turn.applied applied
  refine ⟨fun backed move => ?_, fun backed upsert => ?_⟩
  · cases backed with
    | move _ tracked _ _ member named present base content =>
      obtain ⟨item, found, has⟩ := takes.moved move
      -- The revision the client built on is the item's, so it stands.
      obtain ⟨standing, stands⟩ := mirrored.covered _ item found
      obtain ⟨shown, there, revision, shows⟩ := mirrored.shown _ standing stands
      cases Option.some.inj (there.symm.trans found)
      have current : input.baseRevision = some item.revision := by
        simp only [baseConflict, found] at agreed
        split at agreed
        · assumption
        · split at agreed <;> contradiction
      have same : tracked = standing :=
        mirrored.revised member stands.member (base.trans (current.trans revision.symm))
      obtain ⟨_, _, content'⟩ := shows.live (same ▸ present)
      rw [content, same]
      exact content'.unique mirrored.assetIds has
  · cases backed with
    | upsert _ _ _ content =>
      obtain ⟨asset, _, same, _⟩ := takes.uploaded upsert
      have proposed := content asset.id same
      rw [← same] at proposed
      exact proposed.unique mirrored.assetIds (takes.uploaded upsert)

theorem acknowledge_refused (refused : operation.status ≠ .applied) :
    (acknowledgeOne proposed state operation).entries = state.entries := by
  unfold acknowledgeOne
  split
  · rfl
  · rw [if_pos refused]

/-- The client records what the turn has done to its item. -/
theorem turn_acknowledges (turn : Turn b after clientId input fresh operation)
    (mirrored : Mirrored b.db b.cursor) (still : Mirrored after.db after.cursor)
    (found : proposed.get? input.operationId = some proposal) (backed : Backed b.db input proposal)
    (acknowledges : Acknowledges b.db replaced state) :
    Acknowledges after.db replaced (acknowledgeOne proposed state operation) := by
  have grows : Grows b.db after.db fun _ => True := turn.grows mirrored trivial
  by_cases applied : operation.status = .applied
  · have effect := turn.effect mirrored rfl applied
    have own : operation.operationId = input.operationId := by
      obtain ⟨payload, status, rfl⟩ := turn.made
      rfl
    have acknowledged (other : ClientState) (traced : Traced after.db other.entries)
        (showing : Showing other operation)
        (others : ∀ logicalId ≠ input.logicalId,
          other.entries.get? logicalId = state.entries.get? logicalId) :
        Acknowledges after.db replaced other := by
      refine ⟨traced, fun logicalId standing stands => ?_⟩
      by_cases same : logicalId = operation.logicalId
      · subst same
        rw [stands.unique (effective_distinct still.issued) effect.standing]
        exact .inr showing
      · refine (acknowledges.kept logicalId standing
          ((effect.standing_other same standing).mp stands)).imp_right fun showing => ?_
        refine showing.congr (others _ ?_)
        rw [stands.named, ← turn.logicalId]
        exact same
    have member : operation ∈ after.db.effective := effect.standing.member
    have traced := acknowledges.traced.grows grows
    have records {entry : Entry} (present : input.kind ≠ .delete)
        (path : input.relativePath = some entry.relativePath)
        (content : entry.fingerprint.checksum = operation.payload.checksum) :
        Acknowledges after.db replaced { state with
          entries := state.entries.set input.logicalId { entry with
            revision := operation.revision, uploadId := none, pendingFingerprint := none } } := by
      have recorded := turn_records turn applied present path content
      rw [← turn.logicalId]
      refine acknowledged _ (traced.set member recorded) ⟨fun delete => absurd delete recorded.present,
        fun _ => ⟨_, Dict.get?_set_self .., recorded⟩⟩ fun logicalId different => ?_
      exact Dict.get?_set_other _ _ (turn.logicalId ▸ different)
    unfold acknowledgeOne
    rw [own, found]
    dsimp only
    rw [if_neg (not_not.mpr applied)]
    cases backed with
    | move entry tracked kind path there named present base content =>
      refine records (by rw [kind]; exact nofun) path ((turn_content turn mirrored applied).1 ?_ kind)
      exact .move entry tracked kind path there named present base content
    | upsert entry kind path content =>
      refine records (by rw [kind]; exact nofun) path ((turn_content turn mirrored applied).2 ?_ kind)
      exact .upsert entry kind path content
    | delete kind =>
      refine acknowledged _ (traced.pop _) ⟨fun _ => ?_, fun stays => absurd (turn.kind.trans kind) stays⟩
        fun logicalId different => Dict.get?_pop_other _ different
      rw [turn.logicalId]
      exact Dict.get?_pop_self ..
  · have entries : (acknowledgeOne proposed state operation).entries = state.entries :=
      acknowledge_refused applied
    refine ⟨entries ▸ acknowledges.traced.grows grows, fun logicalId standing stands => ?_⟩
    rw [standing_congr (turn.same applied)] at stands
    exact (acknowledges.kept logicalId standing stands).imp_right fun showing =>
      showing.congr (by rw [entries])

theorem acknowledge_unknown (unknown : proposed.get? operation.operationId = none) :
    acknowledgeOne proposed state operation = state := by
  unfold acknowledgeOne
  rw [unknown]

theorem acknowledge_unknowns {operations : List SyncOperation}
    (unknown : ∀ operation ∈ operations, proposed.get? operation.operationId = none) :
    operations.foldl (acknowledgeOne proposed) state = state := by
  induction operations generalizing state with
  | nil => rfl
  | cons operation rest ih =>
    rw [List.foldl_cons, acknowledge_unknown (unknown operation List.mem_cons_self)]
    exact ih fun other member => unknown other (List.mem_cons_of_mem operation member)

end Turns

/-- No operation that is recorded is one of those to come, by its id or its number, unless the
client does not know it. -/
def Awaits (db : SyncDb) (proposed : Dict UUID Proposal) (inputs : List SyncOperationInput) : Prop :=
  ∀ operation ∈ db.operations, proposed.get? operation.operationId = none ∨
    ∀ input ∈ inputs, operation.operationId ≠ input.operationId ∧
      operation.clientSequence ≠ input.clientSequence

/-- The inputs have ids and numbers of their own. -/
structure Distinct (inputs : List SyncOperationInput) : Prop where
  ids : (inputs.map SyncOperationInput.operationId).Nodup
  numbers : (inputs.map SyncOperationInput.clientSequence).Nodup

section Loop

variable {b after : Batch} {clientId : String} {now : Timestamp} {proposed : Dict UUID Proposal}
  {state : ClientState} {replaced : UUID → Prop} {inputs : List (SyncOperationInput × FreshIds)}

theorem applyAll_acknowledges (mirrored : Mirrored b.db b.cursor)
    (backed : ∀ input ∈ inputs.map Prod.fst, ∃ proposal,
      proposed.get? input.operationId = some proposal ∧ Backed b.db input proposal)
    (deletes : DeletesItems b.db (inputs.map Prod.fst)) (distinct : Distinct (inputs.map Prod.fst))
    (awaits : Awaits b.db proposed (inputs.map Prod.fst))
    (acknowledges : Acknowledges b.db replaced (b.operations.foldl (acknowledgeOne proposed) state))
    (result : applyAll clientId now b inputs = .ok after) :
    Acknowledges after.db replaced (after.operations.foldl (acknowledgeOne proposed) state) := by
  induction inputs generalizing b with
  | nil =>
    cases result
    exact acknowledges
  | cons entry rest ih =>
    obtain ⟨input, fresh⟩ := entry
    obtain ⟨middle, first, remaining⟩ := bind_ok_iff.mp result
    have listed : fresh.operation ∈ [fresh.operation] := List.mem_cons_self
    obtain ⟨still, _, grows⟩ := applyOne_mirrored mirrored (deletes _ List.mem_cons_self)
      (Nat.zero_le _) listed first
    obtain ⟨otherIds, ids⟩ := List.nodup_cons.mp distinct.ids
    obtain ⟨otherNumbers, numbers⟩ := List.nodup_cons.mp distinct.numbers
    have later : ∀ other ∈ rest.map Prod.fst, ∃ proposal,
        proposed.get? other.operationId = some proposal ∧ Backed middle.db other proposal := by
      intro other member
      obtain ⟨proposal, found, backed⟩ := backed other (List.mem_cons_of_mem _ member)
      exact ⟨proposal, found, backed.grows grows⟩
    have deletesLater : DeletesItems middle.db (rest.map Prod.fst) := fun other member delete =>
      grows.finds _ (deletes other (List.mem_cons_of_mem _ member) delete)
    have spared : ∀ operation ∈ b.db.operations, proposed.get? operation.operationId = none ∨
        ∀ other ∈ rest.map Prod.fst, operation.operationId ≠ other.operationId ∧
          operation.clientSequence ≠ other.clientSequence := fun operation member =>
      (awaits operation member).imp_right fun apart other there =>
        apart other (List.mem_cons_of_mem _ there)
    rcases applyOne_cases first with ⟨duplicate, found, rfl⟩ | ⟨new, _⟩
    · refine ih still later deletesLater ⟨ids, numbers⟩ spared ?_ remaining
      obtain ⟨member, same⟩ := duplicate?_found found
      have unknown := (awaits duplicate member).resolve_right fun apart => by
        obtain ⟨otherId, otherNumber⟩ := apart input List.mem_cons_self
        exact same.elim otherId fun same => otherNumber same.2.2
      rw [List.foldl_append, List.foldl_cons, List.foldl_nil, acknowledge_unknown unknown]
      exact acknowledges
    · obtain ⟨operation, turn⟩ := applyOne_turn mirrored (deletes _ List.mem_cons_self) new first
      obtain ⟨proposal, known, right⟩ := backed input List.mem_cons_self
      refine ih still later deletesLater ⟨ids, numbers⟩ (fun other member => ?_) ?_ remaining
      · rw [turn.rows] at member
        rcases List.mem_append.mp member with before | here
        · exact spared other before
        · obtain ⟨payload, status, rfl⟩ := turn.made
          rw [List.mem_singleton.mp here]
          refine .inr fun next there => ⟨fun same => otherIds ?_, fun same => otherNumbers ?_⟩
          · exact List.mem_map.mpr ⟨next, there, same.symm⟩
          · exact List.mem_map.mpr ⟨next, there, same.symm⟩
      · rw [turn.answers, List.foldl_append, List.foldl_cons, List.foldl_nil]
        exact turn_acknowledges turn mirrored still known right acknowledges

/-- A batch that is recorded already answers with operations of the journal. -/
theorem applyAll_repeats (recorded : AllRecorded b.db clientId inputs)
    (result : applyAll clientId now b inputs = .ok after) :
    ∀ operation ∈ after.operations, operation ∈ b.operations ∨ operation ∈ b.db.operations := by
  induction inputs generalizing b with
  | nil =>
    cases result
    exact fun _ member => .inl member
  | cons entry rest ih =>
    obtain ⟨middle, first, remaining⟩ := bind_ok_iff.mp result
    have known := recorded entry List.mem_cons_self
    rcases applyOne_cases first with ⟨duplicate, found, rfl⟩ | ⟨missing, _⟩
    · intro operation member
      rcases ih (b := { b with operations := b.operations ++ [duplicate] })
        (fun other there => recorded other (List.mem_cons_of_mem _ there)) remaining operation member with
        here | there
      · rcases List.mem_append.mp here with before | new
        · exact .inl before
        · exact .inr (List.mem_singleton.mp new ▸ (duplicate?_found found).1)
      · exact .inr there
    · rw [missing] at known
      contradiction

section Answers

variable {db : SyncDb} {loaded : Nat} {answer : ClientState}

/-- A push that counts from the committed cursor leaves the client where the server is. -/
theorem counted_follows (mirrored : Mirrored db db.root.cursor)
    (follows : Follows db replaced clientId state state.cursor [])
    (carries : Carries db proposed (inputs.map Prod.fst))
    (deletes : DeletesItems db (inputs.map Prod.fst)) (distinct : Distinct (inputs.map Prod.fst))
    (unknown : ∀ operation ∈ db.operations, proposed.get? operation.operationId = none)
    (passes : ∀ operation ∈ db.operations, Foreign db clientId operation →
      state.cursor < operation.cursor → replaced operation.id)
    (applied : applyAll clientId now ⟨db.root.cursor, db, [], []⟩ inputs = .ok b)
    (named : answer.clientId = state.clientId) (cursor : answer.cursor = max state.cursor b.cursor)
    (entries : answer.entries = (b.operations.foldl (acknowledgeOne proposed) state).entries)
    (stored : after.db.root.cursor = b.cursor)
    (advances : db.root.cursor ≤ after.db.root.cursor)
    (effective : after.db.effective = b.db.effective)
    (whole : Mirrored after.db after.db.root.cursor) :
    Follows after.db replaced clientId answer answer.cursor [] := by
  have start : Acknowledges db replaced state := by
    refine ⟨follows.traced, fun logicalId operation standing => ?_⟩
    obtain ⟨member, root, status⟩ := mem_effective.mp standing.member
    cases follows.kept logicalId operation standing with
    | replaced replaced => exact .inl replaced
    | ahead foreign beyond => exact .inl (passes operation member ⟨root, status, foreign⟩ beyond)
    | pending foreign member => exact absurd member List.not_mem_nil
    | shown showing own last => exact .inr showing
  have finish := applyAll_acknowledges (b := ⟨db.root.cursor, db, [], []⟩) mirrored carries.backed deletes
    distinct (fun operation member => .inl (unknown operation member)) start applied
  have bounded := follows.bounded
  refine ⟨named.trans follows.named, by omega, ?_, .nil,
    fun _ member => absurd member List.not_mem_nil, fun logicalId operation standing => ?_⟩
  · rw [entries]
    intro tracked member
    rw [effective]
    exact finish.traced tracked member
  · obtain ⟨here, rootOther, _⟩ := mem_effective.mp standing.member
    have reached := whole.issued.bounded operation here rootOther
    rw [standing_congr effective] at standing
    rcases finish.kept logicalId operation standing with withheld | showing
    · exact .replaced withheld
    · exact .shown (showing.congr (by rw [entries])) (fun _ => by omega) fun _ member =>
        absurd member List.not_mem_nil

/-- So does one that is recorded already, of which the client hears nothing new. -/
theorem repeated_follows (follows : Follows db replaced clientId state state.cursor [])
    (passes : ∀ operation ∈ db.operations, Foreign db clientId operation →
      state.cursor < operation.cursor → operation.cursor ≤ loaded → replaced operation.id)
    (named : answer.clientId = state.clientId) (cursor : answer.cursor = max state.cursor loaded)
    (entries : answer.entries = state.entries) (below : loaded ≤ db.root.cursor)
    (advances : db.root.cursor ≤ after.db.root.cursor)
    (effective : after.db.effective = db.effective) :
    Follows after.db replaced clientId answer answer.cursor [] := by
  have bounded := follows.bounded
  refine ⟨named.trans follows.named, by omega, ?_, .nil,
    fun _ member => absurd member List.not_mem_nil, fun logicalId operation standing => ?_⟩
  · rw [entries]
    intro tracked member
    rw [effective]
    exact follows.traced tracked member
  · rw [standing_congr effective] at standing
    obtain ⟨member, root, status⟩ := mem_effective.mp standing.member
    cases follows.kept logicalId operation standing with
    | replaced replaced => exact .replaced replaced
    | ahead foreign beyond =>
      by_cases passed : operation.cursor ≤ loaded
      · exact .replaced (passes operation member ⟨root, status, foreign⟩ beyond passed)
      · exact .ahead foreign (by omega)
    | pending foreign member => exact absurd member List.not_mem_nil
    | shown showing own last =>
      refine .shown (showing.congr (by rw [entries])) (fun mine => ?_) last
      have known := own mine
      omega

/-- The answer leaves the client where the server is, unless what it passes is replaced. -/
theorem answer_follows {conflicts : List UUID} (mirrored : Mirrored db db.root.cursor)
    (follows : Follows db replaced clientId state state.cursor [])
    (counts : loaded = db.root.cursor ∨ AllRecorded db clientId inputs)
    (below : loaded ≤ db.root.cursor) (carries : Carries db proposed (inputs.map Prod.fst))
    (deletes : DeletesItems db (inputs.map Prod.fst)) (distinct : Distinct (inputs.map Prod.fst))
    (unused : ∀ input ∈ inputs.map Prod.fst, ∀ operation ∈ db.operations,
      operation.operationId ≠ input.operationId)
    (passes : ∀ operation ∈ db.operations, Foreign db clientId operation →
      state.cursor < operation.cursor → (AllRecorded db clientId inputs → operation.cursor ≤ loaded) →
        replaced operation.id)
    (result : applyOperations db loaded clientId inputs now = .ok after)
    (answered : applyPushResult state (inputs.map Prod.fst) proposed
      { cursor := after.cursor, operations := after.operations, conflicts } = answer) :
    Follows after.db replaced clientId answer answer.cursor [] := by
  obtain ⟨whole, advances, _⟩ := applyOperations_mirrored mirrored counts deletes result
  obtain ⟨b, root, applied, rfl, rootId, stored⟩ := applyOperations_loop result
  have unknown : ∀ operation ∈ db.operations, proposed.get? operation.operationId = none := by
    intro operation member
    cases found : proposed.get? operation.operationId with
    | none => rfl
    | some proposal =>
      obtain ⟨input, there, same⟩ := carries.keys _ proposal found
      exact absurd same.symm (unused input there operation member)
  have keeps := acknowledge_keeps proposed b.operations state
  have entries : answer.entries = (b.operations.foldl (acknowledgeOne proposed) state).entries := by
    rw [← answered, applyPushResult]
  have named : answer.clientId = state.clientId := by
    rw [← answered, applyPushResult, ← keeps.1]
  have cursor : answer.cursor = max state.cursor b.cursor := by
    rw [← answered, applyPushResult, ← keeps.2]
  have effective : SyncDb.effective { b.db with root } = b.db.effective := by
    unfold SyncDb.effective
    dsimp only
    rw [rootId, (applyAll_appends applied).root]
  rcases counts with rfl | recorded
  · have committed : root.cursor = b.cursor := by
      rw [stored]
      unfold writeColumn
      split
      · rename_i same
        exact same.symm
      · rfl
    refine counted_follows mirrored follows carries deletes distinct unknown ?_ applied named cursor
      entries committed advances effective whole
    intro operation member foreign beyond
    exact passes operation member foreign beyond fun _ =>
      mirrored.issued.bounded operation member foreign.1
  · obtain ⟨same, rows⟩ := applyAll_recorded recorded applied
    have still : b.operations.foldl (acknowledgeOne proposed) state = state :=
      acknowledge_unknowns fun operation member =>
        unknown operation ((applyAll_repeats recorded applied operation member).resolve_left
          List.not_mem_nil)
    have reached : b.cursor = loaded := same
    rw [reached] at cursor
    refine repeated_follows follows ?_ named cursor (entries.trans (congrArg _ still)) below advances ?_
    · intro operation member foreign beyond passed
      exact passes operation member foreign beyond fun _ => passed
    · rw [effective, rows]

end Answers

end Loop

end Drivebound.Desktop
