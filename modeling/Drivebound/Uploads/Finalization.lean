import Drivebound.Uploads.Session

/-! What a response of the upload endpoints tells about the session. The rows
only advance: an offset that has reached the size stays there, and a finished
session that expects no checksum stays finished, since only a checksum mismatch
can write over its status. A response to a PATCH that reports every byte is sent
after the status was committed. -/
namespace Drivebound.Uploads
open Sessions

/-- The row is there with this size and expected checksum. -/
def Row (r : Server) (upload : UploadSession) : Prop :=
  ∃ row, r.uploads.get? upload.id = some row ∧ row.totalSize = upload.totalSize ∧
    row.expectedChecksum = upload.expectedChecksum

/-- Every byte of the session is stored. -/
def Full (r : Server) (upload : UploadSession) : Prop :=
  ∃ row, r.uploads.get? upload.id = some row ∧ row.offset = row.totalSize ∧
    row.totalSize = upload.totalSize ∧ row.expectedChecksum = upload.expectedChecksum

/-- The session is finalized for good. -/
def Done (r : Server) (id : UUID) : Prop :=
  ∃ row, r.uploads.get? id = some row ∧ row.status = .complete ∧ row.expectedChecksum = none

instance (r : Server) (id : UUID) : Decidable (Done r id) :=
  decidable_of_iff
    ((r.uploads.get? id).any fun row => row.status = .complete ∧ row.expectedChecksum = none)
    (by simp [Done, Option.any_eq_true])

structure Consistent (r : Server) : Prop where
  keyed : ∀ id row, r.uploads.get? id = some row → row.id = id
  bounded : ∀ id row, r.uploads.get? id = some row → row.offset ≤ row.totalSize
  finished : ∀ id row, r.uploads.get? id = some row → row.status = .complete →
    ∃ asset, (id, asset) ∈ r.finalized
  committed : ∀ entry ∈ r.finalized, ∃ asset ∈ r.assets, asset.id = entry.2

def Knows (r : Server) : Handler → Prop
  | .writing upload _ written => r.uploads.get? upload.id = some upload ∧
    upload.offset < upload.totalSize ∧ upload.offset + written ≤ upload.totalSize
  | .stored upload | .rejected upload | .hashed upload _ => Full r upload
  | .persisted upload asset _ => Full r upload ∧ (upload.id, asset) ∈ r.finalized
  | .answered (.status upload) => Row r upload
  | .answered (.created upload _ duplicate) =>
    duplicate = false → Row r upload ∧ upload.offset < upload.totalSize
  | .answered (.appended upload _ _) => Row r upload ∧
    (upload.expectedChecksum = none → upload.totalSize ≤ upload.offset → Done r upload.id)
  | .idle | .received _ | .locked _ _ _ _ | .answered (.error _ _) | .lost => True

/-- What any request may do to the rows behind another one's back. -/
structure Advances (r r' : Server) : Prop where
  rows : ∀ id row, r.uploads.get? id = some row → ∃ row', r'.uploads.get? id = some row' ∧
    row'.totalSize = row.totalSize ∧ row'.expectedChecksum = row.expectedChecksum ∧
    (row.offset = row.totalSize → row'.offset = row.totalSize) ∧
    (row.status = .complete → row.expectedChecksum = none → row'.status = .complete)
  finalized : ∀ entry ∈ r.finalized, entry ∈ r'.finalized

theorem Advances.refl (r : Server) : Advances r r where
  rows _ row here := ⟨row, here, rfl, rfl, id, fun finished _ => finished⟩
  finalized _ := id

/-- The rows are the same and nothing finalized is forgotten. -/
theorem Advances.of_uploads {r r' : Server} (same : r'.uploads = r.uploads)
    (finalized : ∀ entry ∈ r.finalized, entry ∈ r'.finalized) : Advances r r' where
  rows id row here := by
    refine ⟨row, ?_, rfl, rfl, fun full => full, fun finished _ => finished⟩
    rw [same]
    exact here
  finalized := finalized

variable {r r' : Server} {env : Env}

theorem update_get?_self {id : UUID} {change : UploadSession → UploadSession}
    (here : r.uploads.get? id = some row) :
    (r.update id change).uploads.get? id = some (change row) := by
  simp only [Server.update, here, Dict.get?_set_self]

theorem update_get?_other {id other : UUID} {change : UploadSession → UploadSession}
    (different : other ≠ id) : (r.update id change).uploads.get? other = r.uploads.get? other := by
  unfold Server.update
  split
  · rfl
  · exact Dict.get?_set_other _ _ different

@[simp] theorem update_finalized (r : Server) (id : UUID)
    (change : UploadSession → UploadSession) : (r.update id change).finalized = r.finalized := by
  unfold Server.update
  split <;> rfl

@[simp] theorem update_assets (r : Server) (id : UUID)
    (change : UploadSession → UploadSession) : (r.update id change).assets = r.assets := by
  unfold Server.update
  split <;> rfl

@[simp] theorem update_staged (r : Server) (id : UUID)
    (change : UploadSession → UploadSession) : (r.update id change).staged = r.staged := by
  unfold Server.update
  split <;> rfl

theorem unlink_staged {id other : UUID} {bytes : Bytes}
    (here : (r.unlink id).staged other = some bytes) : r.staged other = some bytes := by
  by_cases same : other = id
  · subst same
    simp only [Server.unlink, Function.update_self] at here
    contradiction
  · simpa only [Server.unlink, Function.update_of_ne same] using here

theorem write_staged {id other : UUID} {position : Nat} {bytes content' : Bytes}
    (here : (r.write id position bytes).staged other = some content') :
    ∃ content, r.staged other = some content ∧
      (other ≠ id ∧ content' = content ∨ other = id ∧ content' = overwrite content position bytes) := by
  by_cases same : other = id
  · subst same
    simp only [Server.write, Function.update_self, Option.map_eq_some_iff] at here
    obtain ⟨content, found, rfl⟩ := here
    exact ⟨content, found, .inr ⟨rfl, rfl⟩⟩
  · simp only [Server.write, Function.update_of_ne same] at here
    exact ⟨content', here, .inl ⟨same, rfl⟩⟩

/-- A row of an updated table is the changed one or an old one. -/
theorem update_row {id other : UUID} {change : UploadSession → UploadSession}
    (here : (r.update id change).uploads.get? other = some row') :
    ∃ row, r.uploads.get? other = some row ∧ (row' = row ∨ other = id ∧ row' = change row) := by
  by_cases same : other = id
  · subst same
    cases found : r.uploads.get? other with
    | none =>
      have unchanged : r.update other change = r := by simp only [Server.update, found]
      rw [unchanged, found] at here
      contradiction
    | some row =>
      rw [update_get?_self found] at here
      exact ⟨row, rfl, .inr ⟨rfl, (Option.some.inj here).symm⟩⟩
  · rw [update_get?_other same] at here
    exact ⟨row', here, .inl rfl⟩

/-- An update that keeps what a row has reached. -/
theorem Advances.update {id : UUID} {change : UploadSession → UploadSession}
    (keeps : ∀ row, r.uploads.get? id = some row →
      (change row).totalSize = row.totalSize ∧
      (change row).expectedChecksum = row.expectedChecksum ∧
      (row.offset = row.totalSize → (change row).offset = row.totalSize) ∧
      (row.status = .complete → row.expectedChecksum = none → (change row).status = .complete)) :
    Advances r (r.update id change) where
  rows other row here := by
    by_cases same : other = id
    · subst same
      exact ⟨change row, update_get?_self here, keeps row here⟩
    · rw [update_get?_other same]
      exact (Advances.refl r).rows other row here
  finalized entry member := by rwa [update_finalized]

theorem Row.advance (row : Row r upload) (advances : Advances r r') : Row r' upload := by
  obtain ⟨old, here, size, expected⟩ := row
  obtain ⟨new, there, size', expected', _⟩ := advances.rows _ old here
  exact ⟨new, there, size'.trans size, expected'.trans expected⟩

theorem Full.advance (full : Full r upload) (advances : Advances r r') : Full r' upload := by
  obtain ⟨old, here, reached, size, expected⟩ := full
  obtain ⟨new, there, size', expected', reached', _⟩ := advances.rows _ old here
  exact ⟨new, there, (reached' reached).trans size'.symm, size'.trans size,
    expected'.trans expected⟩

theorem Done.advance {id : UUID} (done : Done r id) (advances : Advances r r') : Done r' id := by
  obtain ⟨old, here, finished, expected⟩ := done
  obtain ⟨new, there, _, expected', _, finished'⟩ := advances.rows _ old here
  exact ⟨new, there, finished' finished expected, expected'.trans expected⟩

/-- A request that does not hold its row locked stands any advance. -/
theorem Knows.advance {phase : Handler} (knows : Knows r phase) (advances : Advances r r')
    (untouched : ∀ upload body written, phase = .writing upload body written →
      r'.uploads.get? upload.id = r.uploads.get? upload.id) : Knows r' phase := by
  cases phase with
  | writing upload body written =>
    obtain ⟨here, room⟩ := knows
    exact ⟨(untouched upload body written rfl).trans here, room⟩
  | stored upload | rejected upload | hashed upload checksum => exact Full.advance knows advances
  | persisted upload asset duplicate =>
    exact ⟨knows.1.advance advances, advances.finalized _ knows.2⟩
  | answered reply =>
    cases reply with
    | status upload => exact Row.advance knows advances
    | created upload chunkSize duplicate =>
      intro fresh
      exact ⟨(knows fresh).1.advance advances, (knows fresh).2⟩
    | appended upload asset duplicate =>
      refine ⟨Row.advance knows.1 advances, fun expected reached => ?_⟩
      exact (knows.2 expected reached).advance advances
    | error code detail => trivial
  | idle | received | locked | lost => trivial

/-- The locks a request relies on. -/
def Holding : Handler → LockKey → Prop
  | .locked _ id _ _, k => k = .upload id
  | .writing upload _ _, k => k = .upload upload.id
  | _, _ => False

/-- The new consistency when one row changes and nothing else. -/
theorem Consistent.update (consistent : Consistent r) {id : UUID}
    {change : UploadSession → UploadSession}
    (sane : ∀ row, r.uploads.get? id = some row → (change row).id = row.id ∧
      (change row).offset ≤ (change row).totalSize ∧
      ((change row).status = .complete → row.status = .complete ∨
        ∃ asset, (id, asset) ∈ r.finalized)) :
    Consistent (r.update id change) where
  keyed other row' here := by
    obtain ⟨row, found, rfl | ⟨rfl, rfl⟩⟩ := update_row here
    · exact consistent.keyed other row' found
    · rw [(sane row found).1]
      exact consistent.keyed other row found
  bounded other row' here := by
    obtain ⟨row, found, rfl | ⟨rfl, rfl⟩⟩ := update_row here
    · exact consistent.bounded other row' found
    · exact (sane row found).2.1
  finished other row' here complete := by
    rw [update_finalized]
    obtain ⟨row, found, rfl | ⟨rfl, rfl⟩⟩ := update_row here
    · exact consistent.finished other row' found complete
    · rcases (sane row found).2.2 complete with before | finalized
      · exact consistent.finished other row found before
      · exact finalized
  committed entry member := by
    rw [update_finalized] at member
    rw [update_assets]
    exact consistent.committed entry member

theorem Consistent.of_staged (consistent : Consistent r)
    (staged : UUID → Option Bytes) : Consistent { r with staged } :=
  ⟨consistent.keyed, consistent.bounded, consistent.finished, consistent.committed⟩

/-- An outcome keeps the invariant and only advances the rows. -/
structure Pays (r : Server) (phase : Handler) (outcome : Step) : Prop where
  owes : Owes Holding Consistent Knows r phase outcome
  advances : Advances r (outcome.result r)

/-- A response that changes nothing. -/
theorem pays_answer {phase : Handler} (consistent : Consistent r)
    (known : Knows r (.answered reply)) : Pays r phase (answer r reply) where
  owes := Owes.rollback consistent known (fun _ held => held)
  advances := .refl r

/-- A transaction that ends after an advance of the rows. A request in the middle
of its body keeps the row that it has locked. -/
theorem pays_finish {phase after : Handler} (consistent : Consistent r') (known : Knows r' after)
    (unlocked : ∀ k, ¬ Holding after k) (advances : Advances r r')
    (untouched : ∀ upload body written, ¬ Holding phase (.upload upload.id) →
      Knows r (.writing upload body written) →
      r'.uploads.get? upload.id = r.uploads.get? upload.id) :
    Pays r phase (.finish r' after) where
  owes := by
    refine ⟨consistent, known, unlocked, fun m apart knows => ?_⟩
    refine knows.advance advances fun upload body written writing => ?_
    subst writing
    exact untouched upload body written (fun held => apart _ held rfl) knows
  advances := advances

/-- A step within the transaction: the rows stay as they are. -/
theorem pays_stay {phase after : Handler} (consistent : Consistent r') (known : Knows r' after)
    (kept : ∀ k, Holding after k → Holding phase k) (same : r'.uploads = r.uploads)
    (finalized : r'.finalized = r.finalized) : Pays r phase (.stay r' after) := by
  have advances : Advances r r' := .of_uploads same fun entry member => finalized ▸ member
  refine ⟨⟨consistent, known, kept, fun m _ knows => ?_⟩, advances⟩
  refine knows.advance advances fun upload body written _ => ?_
  rw [same]

theorem find?_some {user id : UUID} (found : r.find? user id = some upload) :
    r.uploads.get? id = some upload ∧ upload.userId = user := by
  have ⟨here, owner⟩ := Option.filter_eq_some_iff.mp found
  exact ⟨here, of_decide_eq_true owner⟩

/-- A session in the middle of a body is not full. -/
theorem Full.not_writing (full : Full r upload) (writing : Knows r (.writing other body written)) :
    other.id ≠ upload.id := by
  intro same
  obtain ⟨row, here, reached, _, _⟩ := full
  have equal : row = other := Option.some.inj (here.symm.trans (same ▸ writing.1))
  have room := writing.2.1
  rw [equal] at reached
  omega

theorem createUpload_pays {id : UUID} {phase : Handler} (consistent : Consistent r)
    (chosen : createUpload env r user checksum totalSize id now = some outcome) :
    Pays r phase outcome := by
  unfold createUpload at chosen
  split at chosen
  · cases chosen
    exact pays_answer consistent trivial
  rename_i empty
  split at chosen
  · cases chosen
    exact pays_answer consistent trivial
  split at chosen
  · cases chosen
    exact pays_answer consistent (fun fresh => nomatch fresh)
  · split at chosen
    · contradiction
    rename_i taken
    cases chosen
    have fresh : r.uploads.get? id = none := by simpa using taken
    have others : ∀ other row, r.uploads.get? other = some row → other ≠ id := by
      rintro other row here rfl
      rw [fresh] at here
      contradiction
    refine pays_finish ⟨?_, ?_, ?_, consistent.committed⟩ ?_ (fun _ held => held) ⟨?_, ?_⟩ ?_
    · intro other row here
      by_cases same : other = id
      · subst same
        rw [Dict.get?_set_self] at here
        cases here
        rfl
      · rw [Dict.get?_set_other _ _ same] at here
        exact consistent.keyed other row here
    · intro other row here
      by_cases same : other = id
      · subst same
        rw [Dict.get?_set_self] at here
        cases here
        exact Nat.zero_le _
      · rw [Dict.get?_set_other _ _ same] at here
        exact consistent.bounded other row here
    · intro other row here complete
      by_cases same : other = id
      · subst same
        rw [Dict.get?_set_self] at here
        cases here
        contradiction
      · rw [Dict.get?_set_other _ _ same] at here
        exact consistent.finished other row here complete
    · intro _
      exact ⟨⟨_, Dict.get?_set_self .., rfl, rfl⟩, Nat.pos_of_ne_zero empty⟩
    · intro other row here
      refine ⟨row, ?_, rfl, rfl, fun full => full, fun finished _ => finished⟩
      exact (Dict.get?_set_other _ _ (others other row here)).trans here
    · exact fun entry member => member
    · intro upload body written _ writing
      exact Dict.get?_set_other _ _ (others upload.id upload writing.1)

theorem uploadStatus_pays {id : UUID} {phase : Handler} (consistent : Consistent r) :
    Pays r phase (uploadStatus r user id) := by
  unfold uploadStatus
  split
  · exact pays_answer consistent trivial
  · rename_i upload found
    obtain ⟨here, _⟩ := find?_some found
    have key := consistent.keyed _ _ here
    exact pays_answer consistent ⟨upload, key ▸ here, rfl, rfl⟩

theorem checkAppend_pays {id : UUID} {offset : Nat} (consistent : Consistent r) :
    Pays r (.locked user id offset body) (checkAppend r user id offset body now) := by
  unfold checkAppend
  split
  · exact pays_answer consistent trivial
  rename_i upload found
  obtain ⟨here, _⟩ := find?_some found
  have key := consistent.keyed _ _ here
  have bounded := consistent.bounded _ _ here
  split_ifs with inactive expired mismatch unavailable room
  · exact pays_answer consistent trivial
  · -- The row is active, so no finished session expires.
    have active : upload.status = .active := by simpa using inactive
    refine pays_finish (consistent.update ?_) trivial (fun _ held => held) (Advances.update ?_) ?_
    · intro row found
      have bounded := consistent.bounded _ _ found
      exact ⟨rfl, bounded, fun complete => nomatch complete⟩
    · intro row found
      cases here.symm.trans found
      refine ⟨rfl, rfl, fun full => full, fun finished _ => ?_⟩
      rw [active] at finished
      contradiction
    · intro other body written unheld _
      exact update_get?_other (fun same => unheld (congrArg LockKey.upload same))
  · exact pays_answer consistent trivial
  · exact pays_answer consistent trivial
  · have row : r.uploads.get? upload.id = some upload := key ▸ here
    refine pays_stay consistent ⟨row, room, bounded⟩ ?_ rfl rfl
    intro k held
    rw [Holding, key] at held
    exact held
  · have reached : upload.offset = upload.totalSize := by omega
    exact ⟨Owes.rollback consistent ⟨upload, key ▸ here, reached, rfl, rfl⟩ (fun _ held => held),
      .refl r⟩

theorem writeChunk_pays (consistent : Consistent r)
    (knows : Knows r (.writing upload body written)) :
    Pays r (.writing upload body written) (writeChunk r upload body written count) := by
  obtain ⟨here, room, bounded⟩ := knows
  simp only [writeChunk]
  split_ifs with large
  · exact pays_answer consistent trivial
  · refine pays_stay (consistent.of_staged _) ⟨here, room, ?_⟩ (fun k held => held) rfl rfl
    omega

theorem commitOffset_pays (consistent : Consistent r)
    (knows : Knows r (.writing upload body written)) :
    Pays r (.writing upload body written) (commitOffset r upload written) := by
  obtain ⟨here, room, bounded⟩ := knows
  simp only [commitOffset]
  split_ifs with empty short
  · exact pays_answer consistent trivial
  all_goals
    refine pays_finish (consistent.update ?_) ?_ (fun _ held => held) (Advances.update ?_) ?_
  · intro row found
    cases here.symm.trans found
    exact ⟨rfl, bounded, fun complete => .inl complete⟩
  · refine ⟨⟨_, update_get?_self here, rfl, rfl⟩, fun _ reached => ?_⟩
    exact absurd reached (Nat.not_le_of_lt short)
  · intro row found
    cases here.symm.trans found
    exact ⟨rfl, rfl, fun full => by omega, fun finished _ => finished⟩
  · intro other body count unheld _
    exact update_get?_other (fun same => unheld (congrArg LockKey.upload same))
  · intro row found
    cases here.symm.trans found
    exact ⟨rfl, bounded, fun complete => .inl complete⟩
  · refine ⟨_, update_get?_self here, ?_, rfl, rfl⟩
    simp only at short ⊢
    omega
  · intro row found
    cases here.symm.trans found
    exact ⟨rfl, rfl, fun full => by omega, fun finished _ => finished⟩
  · intro other body count unheld _
    exact update_get?_other (fun same => unheld (congrArg LockKey.upload same))

theorem hashUpload_pays (consistent : Consistent r) (full : Full r upload) :
    Pays r (.stored upload) (hashUpload env r upload) := by
  unfold hashUpload
  split
  · exact pays_answer consistent trivial
  split_ifs with mismatch
  · -- Only a session that expects a checksum can fail.
    have advances : Advances r (r.update upload.id fun row => { row with status := .failed }) := by
      refine Advances.update fun row found => ⟨rfl, rfl, fun full => full, ?_⟩
      intro _ unexpected
      obtain ⟨known, here, _, _, expected⟩ := full
      cases here.symm.trans found
      rw [← expected, unexpected] at mismatch
      simp at mismatch
    refine pays_finish (consistent.update ?_) (full.advance advances) (fun _ held => held)
      advances ?_
    · intro row found
      have bounded := consistent.bounded _ _ found
      exact ⟨rfl, bounded, fun complete => nomatch complete⟩
    · intro other body written _ writing
      exact update_get?_other (full.not_writing writing)
  · exact pays_stay consistent full (fun k held => held) rfl rfl

theorem existing_mem {user : UUID} {checksum : String}
    (found : r.existing user checksum = some asset) : asset ∈ r.assets :=
  List.mem_of_find?_eq_some found

theorem persistUpload_pays (consistent : Consistent r) (full : Full r upload)
    (chosen : persistUpload r upload checksum asset = some outcome) :
    Pays r (.hashed upload checksum) outcome := by
  unfold persistUpload at chosen
  split at chosen
  · rename_i known found
    cases chosen
    have grown : ∀ entry ∈ r.finalized, entry ∈ r.finalized ++ [(upload.id, known.id)] :=
      fun entry member => List.mem_append_left _ member
    refine pays_finish ⟨consistent.keyed, consistent.bounded, ?_, ?_⟩
      ⟨full, List.mem_append_right _ (List.mem_singleton.mpr rfl)⟩ (fun _ held => held)
      (.of_uploads rfl grown) (fun _ _ _ _ _ => rfl)
    · intro id row here complete
      obtain ⟨other, member⟩ := consistent.finished id row here complete
      exact ⟨other, grown _ member⟩
    · intro entry member
      rcases List.mem_append.mp member with old | new
      · exact consistent.committed entry old
      · rw [List.mem_singleton.mp new]
        exact ⟨known, existing_mem found, rfl⟩
  · split_ifs at chosen
    cases chosen
    have grown : ∀ entry ∈ r.finalized, entry ∈ r.finalized ++ [(upload.id, asset.id)] :=
      fun entry member => List.mem_append_left _ member
    refine pays_finish ⟨consistent.keyed, consistent.bounded, ?_, ?_⟩
      ⟨full, List.mem_append_right _ (List.mem_singleton.mpr rfl)⟩ (fun _ held => held)
      (.of_uploads rfl grown) (fun _ _ _ _ _ => rfl)
    · intro id row here complete
      obtain ⟨other, member⟩ := consistent.finished id row here complete
      exact ⟨other, grown _ member⟩
    · intro entry member
      rcases List.mem_append.mp member with old | new
      · obtain ⟨known, present, same⟩ := consistent.committed entry old
        exact ⟨known, List.mem_append_left _ present, same⟩
      · rw [List.mem_singleton.mp new]
        exact ⟨asset, List.mem_append_right _ (List.mem_singleton.mpr rfl), rfl⟩

/-- The status is committed before the response, for a session that has an asset. -/
theorem complete_pays (consistent : Consistent r)
    (knows : Knows r (.persisted upload asset duplicate)) :
    Pays r (.persisted upload asset duplicate)
      (answer (r.update upload.id fun row => { row with status := .complete })
        (.appended { upload with status := .complete } (some asset) duplicate)) := by
  obtain ⟨full, finalized⟩ := knows
  refine pays_finish (consistent.update ?_) ?_ (fun _ held => held) (Advances.update ?_) ?_
  · intro row found
    have bounded := consistent.bounded _ _ found
    exact ⟨rfl, bounded, fun _ => .inr ⟨asset, finalized⟩⟩
  · obtain ⟨row, here, _, size, expected⟩ := full
    refine ⟨⟨_, update_get?_self here, size, expected⟩, fun unexpected _ => ?_⟩
    exact ⟨_, update_get?_self here, rfl, expected.trans unexpected⟩
  · intro row _
    exact ⟨rfl, rfl, fun full => full, fun _ _ => rfl⟩
  · intro other body written _ writing
    exact update_get?_other (full.not_writing writing)

theorem program_pays {phase : Handler} (consistent : Consistent r) (knows : Knows r phase)
    (chosen : program env r phase action = some outcome) : Pays r phase outcome := by
  cases action with
  | receive request =>
    simp only [program] at chosen
    split at chosen
    · cases chosen
      exact pays_stay consistent trivial (fun k held => held) rfl rfl
    · contradiction
  | create id now =>
    simp only [program] at chosen
    split at chosen
    · exact createUpload_pays consistent chosen
    · contradiction
  | read =>
    simp only [program] at chosen
    split at chosen
    · cases chosen
      exact uploadStatus_pays consistent
    · contradiction
  | lockUpload =>
    simp only [program] at chosen
    split at chosen
    · cases chosen
      exact ⟨⟨trivial, fun k held => .inl held⟩, .refl r⟩
    · contradiction
  | check now =>
    simp only [program] at chosen
    split at chosen
    · cases chosen
      exact checkAppend_pays consistent
    · contradiction
  | chunk count =>
    simp only [program] at chosen
    split at chosen
    · cases chosen
      exact writeChunk_pays consistent knows
    · contradiction
  | endBody =>
    simp only [program] at chosen
    split at chosen
    · split_ifs at chosen
      cases chosen
      exact commitOffset_pays consistent knows
    · contradiction
  | hash =>
    simp only [program] at chosen
    split at chosen
    · cases chosen
      exact hashUpload_pays consistent knows
    · contradiction
  | unlinkRejected =>
    simp only [program] at chosen
    split at chosen
    · cases chosen
      exact pays_finish (consistent.of_staged _) trivial (fun _ held => held)
        (.of_uploads rfl fun _ member => member) (fun _ _ _ _ _ => rfl)
    · contradiction
  | consume =>
    simp only [program] at chosen
    split at chosen
    · cases chosen
      exact pays_stay (consistent.of_staged _) knows (fun k held => held) rfl rfl
    · contradiction
  | persist asset =>
    simp only [program] at chosen
    split at chosen
    · exact persistUpload_pays consistent knows chosen
    · contradiction
  | failPersist error exception =>
    simp only [program] at chosen
    split at chosen
    · cases chosen
      exact pays_answer consistent trivial
    · contradiction
  | complete =>
    simp only [program] at chosen
    split at chosen
    · cases chosen
      exact complete_pays consistent knows
    · contradiction
  | refuse code detail =>
    simp only [program] at chosen
    split at chosen
    all_goals try contradiction
    split_ifs at chosen
    cases chosen
    exact pays_answer consistent trivial
  | crash =>
    simp only [program] at chosen
    split at chosen
    · contradiction
    · cases chosen
      exact ⟨Owes.rollback consistent trivial (fun _ held => held), .refl r⟩

/-- The handler is at some point of this request: it works on the row the request
names and answers in the form the request expects. -/
def Serves (request : Request) : Handler → Prop
  | .idle => False
  | .received received => received = request
  | .locked user id offset body => request = .append user id offset body
  | .writing upload _ _ | .stored upload | .rejected upload | .hashed upload _
  | .persisted upload _ _ | .answered (.appended upload _ _) =>
    ∃ user offset body, request = .append user upload.id offset body
  | .answered (.status upload) => ∃ user, request = .head user upload.id
  | .answered (.created upload _ _) =>
    ∃ user, request = .create user upload.expectedChecksum upload.totalSize
  | .answered (.error _ _) | .lost => True

theorem createUpload_serves {id : UUID}
    (chosen : createUpload env r user checksum totalSize id now = some outcome) :
    Serves (.create user checksum totalSize) outcome.arrival := by
  unfold createUpload at chosen
  split at chosen
  · cases chosen
    trivial
  split at chosen
  · cases chosen
    trivial
  split at chosen
  · cases chosen
    exact ⟨user, rfl⟩
  · split at chosen
    · contradiction
    · cases chosen
      exact ⟨user, rfl⟩

theorem checkAppend_serves {id : UUID} {offset : Nat} (consistent : Consistent r) :
    Serves (.append user id offset body) (checkAppend r user id offset body now).arrival := by
  unfold checkAppend
  split
  · trivial
  rename_i upload found
  have key := consistent.keyed _ _ (find?_some found).1
  split_ifs
  · trivial
  · trivial
  · trivial
  · trivial
  · exact ⟨user, offset, body, by rw [key]⟩
  · exact ⟨user, offset, body, by rw [key]⟩

theorem program_serves {phase : Handler} (consistent : Consistent r)
    (serves : Serves request phase) (chosen : program env r phase action = some outcome) :
    Serves request outcome.arrival := by
  cases action with
  | receive received =>
    simp only [program] at chosen
    split at chosen
    · exact serves.elim
    · contradiction
  | create id now =>
    simp only [program] at chosen
    split at chosen
    · cases serves
      exact createUpload_serves chosen
    · contradiction
  | read =>
    simp only [program] at chosen
    split at chosen
    · rename_i user id
      cases chosen
      cases serves
      unfold uploadStatus
      split
      · trivial
      · rename_i upload found
        have key := consistent.keyed _ _ (find?_some found).1
        exact ⟨user, by rw [key]⟩
    · contradiction
  | lockUpload =>
    simp only [program] at chosen
    split at chosen
    · cases chosen
      cases serves
      rfl
    · contradiction
  | check now =>
    simp only [program] at chosen
    split at chosen
    · cases chosen
      cases serves
      exact checkAppend_serves consistent
    · contradiction
  | chunk count =>
    simp only [program] at chosen
    split at chosen
    · cases chosen
      simp only [writeChunk]
      split_ifs
      · trivial
      · exact serves
    · contradiction
  | endBody =>
    simp only [program] at chosen
    split at chosen
    · split_ifs at chosen
      cases chosen
      simp only [commitOffset]
      split_ifs
      · trivial
      · exact serves
      · exact serves
    · contradiction
  | hash =>
    simp only [program] at chosen
    split at chosen
    · cases chosen
      unfold hashUpload
      split
      · trivial
      · split_ifs
        · exact serves
        · exact serves
    · contradiction
  | persist asset =>
    simp only [program] at chosen
    split at chosen
    · unfold persistUpload at chosen
      split at chosen
      · cases chosen
        exact serves
      · split_ifs at chosen
        cases chosen
        exact serves
    · contradiction
  | consume | complete =>
    simp only [program] at chosen
    split at chosen
    · cases chosen
      exact serves
    · contradiction
  | unlinkRejected | failPersist =>
    simp only [program] at chosen
    split at chosen
    · cases chosen
      trivial
    · contradiction
  | refuse code detail =>
    simp only [program] at chosen
    split at chosen
    all_goals try contradiction
    split_ifs at chosen
    cases chosen
    trivial
  | crash =>
    simp only [program] at chosen
    split at chosen
    · contradiction
    · cases chosen
      trivial

abbrev Serving : Requests → Prop := Sound Holding Consistent Knows

theorem step_serving {s s' : Requests} {label : Nat × Action} (serving : Serving s)
    (stepped : step env s label = some s') : Serving s' ∧ Advances s.shared s'.shared := by
  have pays : ∀ outcome, program env s.shared (s.locals label.1) label.2 = some outcome →
      Pays s.shared (s.locals label.1) outcome := fun _ chosen =>
    program_pays serving.global (serving.session label.1) chosen
  refine ⟨serving.step stepped fun outcome chosen => (pays outcome chosen).owes, ?_⟩
  obtain ⟨outcome, chosen, acted⟩ := Option.bind_eq_some_iff.mp stepped
  rw [Store.act_shared acted]
  exact (pays outcome chosen).advances

theorem step_serves {s s' : Requests} {label : Nat × Action} {q : Nat} (serving : Serving s)
    (stepped : step env s label = some s') (serves : Serves request (s.locals q)) :
    Serves request (s'.locals q) := by
  obtain ⟨outcome, chosen, acted⟩ := Option.bind_eq_some_iff.mp stepped
  rw [Store.act_locals acted]
  by_cases same : q = label.1
  · subst same
    rw [Function.update_self]
    exact program_serves serving.global serves chosen
  · rwa [Function.update_of_ne same]

end Drivebound.Uploads
