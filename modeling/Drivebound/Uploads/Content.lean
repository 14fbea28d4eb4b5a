import Drivebound.Core.History
import Drivebound.Core.Run
import Drivebound.Uploads.Finalization

/-! What a staged file holds. Its first `offset` bytes are the bodies of the PATCHes
that committed an offset; bytes behind them are left over from requests that were
rejected or died in the middle of a body, and the next accepted body overwrites them.
A session whose last byte is stored has no room for such bytes, so what is hashed is
the upload. -/
namespace Drivebound.Uploads
open Sessions Run

/-- History: the concatenated bodies that were accepted for a session, and what each
finalization has hashed. -/
structure Trace where
  bodies : UUID → Bytes
  hashed : List (UUID × Bytes)

def Trace.empty : Trace := ⟨fun _ => [], []⟩

/-- A body is accepted when its offset is committed. -/
def Trace.note (r : Server) (phase : Handler) (action : Action) (h : Trace) : Trace :=
  match action, phase with
  | .endBody, .writing upload body written =>
    if written = 0 then h
    else { h with bodies := Function.update h.bodies upload.id (h.bodies upload.id ++ body) }
  | .hash, .stored upload =>
    match r.staged upload.id with
    | some content => { h with hashed := h.hashed ++ [(upload.id, content)] }
    | none => h
  | _, _ => h

abbrev Traced := Store (Server × Trace) Handler LockKey Nat

abbrev tracedStep (env : Env) : Traced → Nat × Action → Option Traced :=
  Store.step (recorded (program env) Trace.note)

theorem overwrite_length {content bytes : Bytes} {position : Nat} (inside : position ≤ content.length) :
    (overwrite content position bytes).length = max content.length (position + bytes.length) := by
  simp only [overwrite, List.length_append, List.length_take, List.length_drop]
  omega

theorem prefix_overwrite_end {content bytes start : Bytes} (stored : start <+: content) :
    start ++ bytes <+: overwrite content start.length bytes := by
  obtain ⟨rest, rfl⟩ := stored
  simp only [overwrite, List.take_left]
  exact List.prefix_append _ _

/-- The rows and files agree with the history. -/
structure Intact (r : Server × Trace) : Prop where
  offset : ∀ id row, r.1.uploads.get? id = some row → row.offset = (r.2.bodies id).length
  absent : ∀ id, r.1.uploads.get? id = none → r.2.bodies id = []
  content : ∀ id row, r.1.uploads.get? id = some row → ∀ bytes, r.1.staged id = some bytes →
    r.2.bodies id <+: bytes ∧ bytes.length ≤ row.totalSize
  hashed : ∀ entry ∈ r.2.hashed, ∃ row, r.1.uploads.get? entry.1 = some row ∧
    row.offset = row.totalSize ∧ entry.2 = r.2.bodies entry.1

/-- So far the request has written the beginning of its body behind the offset. -/
def Fits (r : Server × Trace) : Handler → Prop
  | .writing upload body written => written ≤ body.length ∧
    ∀ bytes, r.1.staged upload.id = some bytes →
      r.2.bodies upload.id ++ body.take written <+: bytes
  | _ => True

variable {r r' : Server} {h h' : Trace} {env : Env}

/-- The rows keep what concerns the content, and files are only removed. -/
structure Keeps (r r' : Server) : Prop where
  row : ∀ id row', r'.uploads.get? id = some row' → ∃ row, r.uploads.get? id = some row ∧
    row'.offset = row.offset ∧ row'.totalSize = row.totalSize
  back : ∀ id row, r.uploads.get? id = some row → ∃ row', r'.uploads.get? id = some row' ∧
    row'.offset = row.offset ∧ row'.totalSize = row.totalSize
  staged : ∀ id bytes, r'.staged id = some bytes → r.staged id = some bytes

theorem Keeps.of_uploads (same : r'.uploads = r.uploads)
    (staged : ∀ id bytes, r'.staged id = some bytes → r.staged id = some bytes) : Keeps r r' where
  row _ row' here := ⟨row', same ▸ here, rfl, rfl⟩
  back _ row here := ⟨row, same ▸ here, rfl, rfl⟩
  staged := staged

theorem Keeps.refl (r : Server) : Keeps r r := .of_uploads rfl fun _ _ here => here

theorem Keeps.update {id : UUID} {change : UploadSession → UploadSession}
    (offset : ∀ row, (change row).offset = row.offset)
    (size : ∀ row, (change row).totalSize = row.totalSize) : Keeps r (r.update id change) where
  row other row' here := by
    obtain ⟨row, found, rfl | ⟨rfl, rfl⟩⟩ := update_row here
    · exact ⟨row', found, rfl, rfl⟩
    · exact ⟨row, found, offset row, size row⟩
  back other row here := by
    by_cases same : other = id
    · subst same
      exact ⟨change row, update_get?_self here, offset row, size row⟩
    · exact ⟨row, (update_get?_other same).trans here, rfl, rfl⟩
  staged other bytes here := by rwa [update_staged] at here

theorem Keeps.unlink (r : Server) (id : UUID) : Keeps r (r.unlink id) :=
  .of_uploads rfl fun _ _ here => unlink_staged here

theorem Intact.keep (intact : Intact (r, h)) (keeps : Keeps r r') : Intact (r', h) where
  offset id row' here := by
    obtain ⟨row, found, same, _⟩ := keeps.row id row' here
    exact same.trans (intact.offset id row found)
  absent id gone := by
    cases found : r.uploads.get? id with
    | none => exact intact.absent id found
    | some row =>
      obtain ⟨row', here, _⟩ := keeps.back id row found
      rw [gone] at here
      contradiction
  content id row' here bytes staged := by
    obtain ⟨row, found, _, same⟩ := keeps.row id row' here
    obtain ⟨stored, room⟩ := intact.content id row found bytes (keeps.staged id bytes staged)
    exact ⟨stored, same ▸ room⟩
  hashed entry member := by
    obtain ⟨row, found, full, same⟩ := intact.hashed entry member
    obtain ⟨row', here, offset, size⟩ := keeps.back _ row found
    exact ⟨row', here, offset.trans (full.trans size.symm), same⟩

/-- What a step owes the history: agreement afterwards, also for the requests that
rely on none of the locks of the one that moves. -/
structure Agrees (r : Server) (h h' : Trace) (phase : Handler) (outcome : Step) : Prop where
  intact : Intact ((outcome.recorded h').result (r, h))
  fits : Fits ((outcome.recorded h').result (r, h)) outcome.arrival
  others : ∀ m, (∀ k, Holding phase k → ¬ Holding m k) → Knows r m → Fits (r, h) m →
    Fits ((outcome.recorded h').result (r, h)) m
  grows : ∀ id row row', r.uploads.get? id = some row →
    (outcome.result r).uploads.get? id = some row' → row.offset ≤ row'.offset

/-- A request in the middle of a body stands whatever does not touch its file. -/
theorem fits_keep {phase : Handler} (keeps : Keeps r r') (fits : Fits (r, h) phase) :
    Fits (r', h) phase := by
  cases phase with
  | writing upload body written =>
    exact ⟨fits.1, fun bytes staged => fits.2 bytes (keeps.staged _ bytes staged)⟩
  | _ => trivial

theorem Keeps.grows {id : UUID} {row row' : UploadSession} (keeps : Keeps r r') (here : r.uploads.get? id = some row)
    (there : r'.uploads.get? id = some row') : row.offset ≤ row'.offset := by
  obtain ⟨old, found, same, _⟩ := keeps.row id row' there
  cases here.symm.trans found
  exact Nat.le_of_eq same.symm

/-- A step that keeps rows and content, into any place but the middle of a body. -/
theorem agrees_keep {phase : Handler} {outcome : Step} (intact : Intact (r, h))
    (keeps : Keeps r (outcome.result r))
    (fits : Fits (outcome.result r, h) outcome.arrival) : Agrees r h h phase outcome := by
  have same : (outcome.recorded h).result (r, h) = (outcome.result r, h) := by
    cases outcome <;> rfl
  refine ⟨?_, ?_, fun m _ _ held => ?_, fun id row row' here there => keeps.grows here there⟩
  · rw [same]
    exact intact.keep keeps
  · rw [same]
    exact fits
  · rw [same]
    exact fits_keep keeps held

theorem createUpload_agrees {id : UUID} {phase : Handler} (intact : Intact (r, h))
    (chosen : createUpload env r user checksum totalSize id now = some outcome) :
    Agrees r h h phase outcome := by
  unfold createUpload at chosen
  split at chosen
  · cases chosen
    exact agrees_keep intact (.refl r) trivial
  split at chosen
  · cases chosen
    exact agrees_keep intact (.refl r) trivial
  split at chosen
  · cases chosen
    exact agrees_keep intact (.refl r) trivial
  · split at chosen
    · contradiction
    rename_i taken
    cases chosen
    have fresh : r.uploads.get? id = none := by simpa using taken
    have others : ∀ other row, r.uploads.get? other = some row → other ≠ id := by
      rintro other row here rfl
      rw [fresh] at here
      contradiction
    have empty : h.bodies id = [] := intact.absent id fresh
    refine ⟨⟨?_, ?_, ?_, ?_⟩, trivial, ?_, ?_⟩
    · intro other row here
      by_cases same : other = id
      · subst same
        simp only [answer, Outcome.recorded, Outcome.result, Dict.get?_set_self,
          Option.some.injEq] at here
        subst here
        simp only [answer, Outcome.recorded, Outcome.result, empty, List.length_nil, UploadSession.opened_offset]
      · exact intact.offset other row ((Dict.get?_set_other _ _ same).symm.trans here)
    · intro other gone
      by_cases same : other = id
      · subst same
        exact empty
      · exact intact.absent other ((Dict.get?_set_other _ _ same).symm.trans gone)
    · intro other row here bytes staged
      by_cases same : other = id
      · subst same
        simp only [answer, Outcome.recorded, Outcome.result, Function.update_self,
          Option.some.injEq] at staged
        subst staged
        simp only [answer, Outcome.recorded, Outcome.result, empty]
        exact ⟨List.prefix_rfl, Nat.zero_le _⟩
      · simp only [answer, Outcome.recorded, Outcome.result, Function.update_of_ne same] at staged
        exact intact.content other row ((Dict.get?_set_other _ _ same).symm.trans here) bytes staged
    · intro entry member
      obtain ⟨row, here, full⟩ := intact.hashed entry member
      exact ⟨row, (Dict.get?_set_other _ _ (others _ row here)).trans here, full⟩
    · intro m _ knows fits
      cases m with
      | writing upload body written =>
        refine ⟨fits.1, fun bytes staged => fits.2 bytes ?_⟩
        have different := others upload.id upload knows.1
        simpa only [answer, Outcome.recorded, Outcome.result, Function.update_of_ne different]
          using staged
      | _ => trivial
    · intro other row row' here there
      have same : some row' = some row :=
        there.symm.trans ((Dict.get?_set_other _ _ (others other row here)).trans here)
      cases same
      exact Nat.le_refl _

theorem checkAppend_agrees {id : UUID} {offset : Nat} (consistent : Consistent r)
    (intact : Intact (r, h)) :
    Agrees r h h (.locked user id offset body) (checkAppend r user id offset body now) := by
  unfold checkAppend
  split
  · exact agrees_keep intact (.refl r) trivial
  rename_i upload found
  obtain ⟨here, _⟩ := find?_some found
  have key := consistent.keyed _ _ here
  split_ifs
  · exact agrees_keep intact (.refl r) trivial
  · exact agrees_keep intact (.update (fun _ => rfl) fun _ => rfl) trivial
  · exact agrees_keep intact (.refl r) trivial
  · exact agrees_keep intact (.refl r) trivial
  · refine agrees_keep intact (.refl r) ⟨Nat.zero_le _, fun bytes staged => ?_⟩
    rw [List.take_zero, List.append_nil]
    exact (intact.content _ upload (key ▸ here) bytes staged).1
  · exact agrees_keep intact (.refl r) trivial

/-- The next piece of a body follows what was taken from it so far. -/
theorem take_piece (body : Bytes) (written count : Nat) :
    body.take (written + ((body.drop written).take count).length) =
      body.take written ++ (body.drop written).take count := by
  rw [List.take_add, List.length_take, ← List.take_take, List.take_length]

theorem writeChunk_agrees (intact : Intact (r, h)) (knows : Knows r (.writing upload body written))
    (fits : Fits (r, h) (.writing upload body written)) :
    Agrees r h h (.writing upload body written) (writeChunk r upload body written count) := by
  obtain ⟨here, room, _⟩ := knows
  obtain ⟨inside, stored⟩ := fits
  have offset := intact.offset _ _ here
  simp only [writeChunk]
  split
  · exact agrees_keep intact (.refl r) trivial
  rename_i small
  have long : (h.bodies upload.id ++ body.take written).length = upload.offset + written := by
    rw [List.length_append, List.length_take, ← offset]
    omega
  have piece : ((body.drop written).take count).length ≤ body.length - written := by
    simp only [List.length_take, List.length_drop]
    omega
  -- The piece goes right behind what is accepted and written so far.
  have behind : ∀ content, r.staged upload.id = some content →
      h.bodies upload.id ++ body.take (written + ((body.drop written).take count).length) <+:
        overwrite content (upload.offset + written) ((body.drop written).take count) := by
    intro content found
    rw [take_piece, ← List.append_assoc, ← long]
    exact prefix_overwrite_end (stored content found)
  refine ⟨⟨intact.offset, intact.absent, ?_, intact.hashed⟩, ⟨by omega, ?_⟩, ?_, ?_⟩
  · intro id row found bytes staged
    obtain ⟨content, before, ⟨_, rfl⟩ | ⟨rfl, rfl⟩⟩ := write_staged staged
    · exact intact.content id row found bytes before
    · cases here.symm.trans found
      obtain ⟨_, size⟩ := intact.content _ _ here content before
      have reaches : (h.bodies upload.id ++ body.take written).length ≤ content.length :=
        (stored content before).length_le
      refine ⟨(List.prefix_append _ _).trans (behind content before), ?_⟩
      rw [overwrite_length (long ▸ reaches)]
      exact Nat.max_le.mpr ⟨size, Nat.le_of_not_lt small⟩
  · intro bytes staged
    obtain ⟨content, before, ⟨different, _⟩ | ⟨_, rfl⟩⟩ := write_staged staged
    · exact absurd rfl different
    · exact behind content before
  · intro m apart knows fits
    cases m with
    | writing other otherBody otherWritten =>
      have different : other.id ≠ upload.id := fun same =>
        apart (.upload upload.id) rfl (congrArg LockKey.upload same.symm)
      refine ⟨fits.1, fun bytes staged => ?_⟩
      obtain ⟨content, before, ⟨_, rfl⟩ | ⟨same, _⟩⟩ := write_staged staged
      · exact fits.2 bytes before
      · exact absurd same different
    | _ => trivial
  · intro id row row' before after
    cases before.symm.trans after
    exact Nat.le_refl _

theorem commitOffset_agrees (intact : Intact (r, h)) (whole : body.length ≤ written)
    (knows : Knows r (.writing upload body written))
    (fits : Fits (r, h) (.writing upload body written)) :
    Agrees r h (h.note r (.writing upload body written) .endBody) (.writing upload body written)
      (commitOffset r upload written) := by
  obtain ⟨here, room, _⟩ := knows
  obtain ⟨inside, stored⟩ := fits
  have offset := intact.offset _ _ here
  simp only [commitOffset, Trace.note]
  by_cases empty : written = 0
  · rw [if_pos empty, if_pos empty]
    exact agrees_keep intact (.refl r) trivial
  rw [if_neg empty, if_neg empty]
  have accepted : Intact (r.update upload.id fun row => { row with offset := upload.offset + written },
      { h with bodies := Function.update h.bodies upload.id (h.bodies upload.id ++ body) }) := by
    refine ⟨?_, ?_, ?_, ?_⟩
    · intro id row' there
      obtain ⟨row, found, _⟩ := update_row there
      by_cases same : id = upload.id
      · subst same
        cases (update_get?_self here).symm.trans there
        simp only [Function.update_self, List.length_append]
        have before : upload.offset = (h.bodies upload.id).length := offset
        omega
      · rw [update_get?_other same] at there
        simp only [Function.update_of_ne same]
        exact intact.offset id row' there
    · intro id gone
      by_cases same : id = upload.id
      · subst same
        rw [update_get?_self here] at gone
        contradiction
      · rw [update_get?_other same] at gone
        simp only [Function.update_of_ne same]
        exact intact.absent id gone
    · intro id row' there bytes staged
      rw [update_staged] at staged
      by_cases same : id = upload.id
      · subst same
        cases (update_get?_self here).symm.trans there
        have behind := stored bytes staged
        rw [List.take_of_length_le whole] at behind
        simp only [Function.update_self]
        exact ⟨behind, (intact.content _ _ here bytes staged).2⟩
      · rw [update_get?_other same] at there
        simp only [Function.update_of_ne same]
        exact intact.content id row' there bytes staged
    · intro entry member
      obtain ⟨row, found, full, same⟩ := intact.hashed entry member
      -- What was hashed was full; this session is not.
      have different : entry.1 ≠ upload.id := by
        intro equal
        rw [equal] at found
        cases here.symm.trans found
        omega
      refine ⟨row, (update_get?_other different).trans found, full, ?_⟩
      simp only [Function.update_of_ne different]
      exact same
  have others : ∀ m, (∀ k, Holding (.writing upload body written) k → ¬ Holding m k) → Knows r m →
      Fits (r, h) m → Fits (r.update upload.id fun row => { row with offset := upload.offset + written },
        { h with bodies := Function.update h.bodies upload.id (h.bodies upload.id ++ body) }) m := by
    intro m apart _ fits
    cases m with
    | writing other otherBody otherWritten =>
      have different : other.id ≠ upload.id := fun same =>
        apart (.upload upload.id) rfl (congrArg LockKey.upload same.symm)
      refine ⟨fits.1, fun bytes staged => ?_⟩
      rw [update_staged] at staged
      simp only [Function.update_of_ne different]
      exact fits.2 bytes staged
    | _ => trivial
  have grows : ∀ id row row', r.uploads.get? id = some row →
      (r.update upload.id fun row => { row with offset := upload.offset + written }).uploads.get? id =
        some row' → row.offset ≤ row'.offset := by
    intro id row row' before after
    by_cases same : id = upload.id
    · subst same
      cases here.symm.trans before
      cases (update_get?_self here).symm.trans after
      exact Nat.le_add_right _ _
    · cases before.symm.trans ((update_get?_other same).symm.trans after)
      exact Nat.le_refl _
  split
  · exact ⟨accepted, trivial, others, grows⟩
  · exact ⟨accepted, trivial, others, grows⟩

theorem hashUpload_agrees (intact : Intact (r, h)) (full : Full r upload) :
    Agrees r h (h.note r (.stored upload) .hash) (.stored upload) (hashUpload env r upload) := by
  obtain ⟨row, here, reached, _, _⟩ := full
  cases found : r.staged upload.id with
  | none =>
    simp only [hashUpload, Trace.note, found]
    exact agrees_keep intact (.refl r) trivial
  | some content =>
    obtain ⟨stored, room⟩ := intact.content _ row here content found
    have offset := intact.offset _ row here
    have same : content = h.bodies upload.id :=
      (stored.eq_of_length (Nat.le_antisymm stored.length_le (by omega))).symm
    have noted : Intact (r, { h with hashed := h.hashed ++ [(upload.id, content)] }) := by
      refine ⟨intact.offset, intact.absent, intact.content, fun entry member => ?_⟩
      rcases List.mem_append.mp member with old | new
      · exact intact.hashed entry old
      · rw [List.mem_singleton.mp new]
        exact ⟨row, here, reached, same⟩
    simp only [hashUpload, Trace.note, found]
    split
    · have keeps : Keeps r (r.update upload.id fun row => { row with status := .failed }) :=
        .update (fun _ => rfl) fun _ => rfl
      refine ⟨noted.keep keeps, trivial, fun m _ _ fits => ?_, fun id row row' => keeps.grows⟩
      exact fits_keep keeps fits
    · refine ⟨noted, trivial, fun m _ _ fits => fits, fun id row row' before after => ?_⟩
      cases before.symm.trans after
      exact Nat.le_refl _

theorem persistUpload_agrees (intact : Intact (r, h))
    (chosen : persistUpload r upload checksum asset = some outcome) :
    Agrees r h h (.hashed upload checksum) outcome := by
  unfold persistUpload at chosen
  split at chosen
  · cases chosen
    exact agrees_keep intact (.of_uploads rfl fun _ _ here => unlink_staged here) trivial
  · split at chosen
    · cases chosen
      exact agrees_keep intact (.of_uploads rfl fun _ _ here => unlink_staged here) trivial
    · contradiction

theorem program_agrees {phase : Handler} (consistent : Consistent r) (knows : Knows r phase)
    (intact : Intact (r, h)) (fits : Fits (r, h) phase)
    (chosen : program env r phase action = some outcome) :
    Agrees r h (h.note r phase action) phase outcome := by
  cases action with
  | receive request =>
    simp only [program] at chosen
    split at chosen
    · cases chosen
      exact agrees_keep intact (.refl r) trivial
    · contradiction
  | create id now =>
    simp only [program] at chosen
    split at chosen
    · exact createUpload_agrees intact chosen
    · contradiction
  | read =>
    simp only [program] at chosen
    split at chosen
    · cases chosen
      unfold uploadStatus
      split
      · exact agrees_keep intact (.refl r) trivial
      · exact agrees_keep intact (.refl r) trivial
    · contradiction
  | lockUpload =>
    simp only [program] at chosen
    split at chosen
    · cases chosen
      exact agrees_keep intact (.refl r) trivial
    · contradiction
  | check now =>
    simp only [program] at chosen
    split at chosen
    · cases chosen
      exact checkAppend_agrees consistent intact
    · contradiction
  | chunk count =>
    simp only [program] at chosen
    split at chosen
    · cases chosen
      exact writeChunk_agrees intact knows fits
    · contradiction
  | endBody =>
    simp only [program] at chosen
    split at chosen
    · split at chosen
      · rename_i whole
        cases chosen
        exact commitOffset_agrees intact whole knows fits
      · contradiction
    · contradiction
  | hash =>
    simp only [program] at chosen
    split at chosen
    · cases chosen
      exact hashUpload_agrees intact knows
    · contradiction
  | unlinkRejected | consume =>
    simp only [program] at chosen
    split at chosen
    · cases chosen
      exact agrees_keep intact (.unlink r _) trivial
    · contradiction
  | persist asset =>
    simp only [program] at chosen
    split at chosen
    · exact persistUpload_agrees intact chosen
    · contradiction
  | failPersist error exception =>
    simp only [program] at chosen
    split at chosen
    · cases chosen
      exact agrees_keep intact (.refl r) trivial
    · contradiction
  | complete =>
    simp only [program] at chosen
    split at chosen
    · cases chosen
      exact agrees_keep intact (.update (fun _ => rfl) fun _ => rfl) trivial
    · contradiction
  | refuse code detail =>
    simp only [program] at chosen
    split at chosen
    all_goals try contradiction
    split at chosen
    · cases chosen
      exact agrees_keep intact (.refl r) trivial
    · contradiction
  | crash =>
    simp only [program] at chosen
    split at chosen
    · contradiction
    · cases chosen
      exact agrees_keep intact (.refl r) trivial

abbrev Tracing : Traced → Prop :=
  Sound Holding (fun r => Consistent r.1 ∧ Intact r) (fun r phase => Knows r.1 phase ∧ Fits r phase)

/-- The offsets of the sessions only grow. -/
def OffsetsGrow (s t : Traced) : Prop :=
  ∀ id row, s.shared.1.uploads.get? id = some row →
    ∃ row', t.shared.1.uploads.get? id = some row' ∧ row.offset ≤ row'.offset

theorem step_tracing {s s' : Traced} {label : Nat × Action} (tracing : Tracing s)
    (stepped : tracedStep env s label = some s') : Tracing s' ∧ OffsetsGrow s s' := by
  obtain ⟨consistent, intact⟩ := tracing.global
  obtain ⟨knows, fits⟩ := tracing.session label.1
  have parts : ∀ outcome, program env s.shared.1 (s.locals label.1) label.2 = some outcome →
      Pays s.shared.1 (s.locals label.1) outcome ∧
      Agrees s.shared.1 s.shared.2 (s.shared.2.note s.shared.1 (s.locals label.1) label.2)
        (s.locals label.1) outcome := fun outcome chosen =>
    ⟨program_pays consistent knows chosen, program_agrees consistent knows intact fits chosen⟩
  refine ⟨tracing.step stepped ?_, fun id row here => ?_⟩
  · intro outcome chosen
    obtain ⟨plain, decided, rfl⟩ := Option.map_eq_some_iff.mp chosen
    obtain ⟨pays, agrees⟩ := parts plain decided
    exact Owes.recorded pays.owes agrees.intact agrees.fits agrees.others
  · obtain ⟨outcome, chosen, acted⟩ := Option.bind_eq_some_iff.mp stepped
    obtain ⟨plain, decided, rfl⟩ := Option.map_eq_some_iff.mp chosen
    obtain ⟨pays, agrees⟩ := parts plain decided
    rw [Store.act_shared acted, recorded_result]
    obtain ⟨row', there, _⟩ := pays.advances.rows id row here
    exact ⟨row', there, agrees.grows id row row' here there⟩

/-- The staged bytes of every session are what its row and its history say. -/
def Faithful (t : Traced) : Prop :=
  ∀ id row, t.shared.1.uploads.get? id = some row →
    row.offset ≤ row.totalSize ∧ row.offset = (t.shared.2.bodies id).length ∧
    (∀ content, t.shared.1.staged id = some content →
      content.take row.offset = t.shared.2.bodies id ∧ content.length ≤ row.totalSize) ∧
    ∀ bytes, (id, bytes) ∈ t.shared.2.hashed →
      bytes = t.shared.2.bodies id ∧ bytes.length = row.totalSize

theorem faithful_of_tracing {t : Traced} (tracing : Tracing t) : Faithful t := by
  obtain ⟨consistent, intact⟩ := tracing.global
  intro id row here
  have offset := intact.offset id row here
  refine ⟨consistent.bounded id row here, offset, fun content staged => ?_, fun bytes member => ?_⟩
  · obtain ⟨stored, room⟩ := intact.content id row here content staged
    rw [offset]
    exact ⟨(List.prefix_iff_eq_take.mp stored).symm, room⟩
  · obtain ⟨found, there, full, same⟩ := intact.hashed _ member
    cases here.symm.trans there
    have equal : bytes = t.shared.2.bodies id := same
    exact ⟨equal, by rw [equal, ← offset, full]⟩

/-- A server that has no upload session yet, and no request in flight. -/
def begin (assets : List Asset) : Traced :=
  Store.idle (⟨[], fun _ => none, assets, []⟩, Trace.empty) .idle

theorem begin_tracing (assets : List Asset) : Tracing (begin assets) :=
  Sound.idle ⟨⟨nofun, nofun, nofun, nofun⟩, nofun, fun _ _ => rfl, nofun, nofun⟩
    ⟨trivial, trivial⟩ fun _ held => held

/-- At every point of every run of uploads the first `offset` bytes of a staged file
are the bodies whose offsets were committed, nothing lies beyond the size, every hash
read exactly these bytes, and offsets never decrease from one point to a later one. -/
theorem staged_bytes_are_the_accepted_bodies {assets : List Asset}
    {earlier later : List (Nat × Action)} {s t : Traced}
    (reached : run (tracedStep env) (begin assets) earlier = some s)
    (following : run (tracedStep env) s later = some t) : Faithful t ∧ OffsetsGrow s t := by
  have preserves : ∀ (s : Traced) (label : Nat × Action) (s' : Traced), Tracing s → True →
      tracedStep env s label = some s' → Tracing s' := fun _ _ _ tracing _ stepped =>
    (step_tracing tracing stepped).1
  have tracing := invariant preserves (begin_tracing assets) (along_true _ _) reached
  refine ⟨faithful_of_tracing (invariant preserves tracing (along_true _ _) following), ?_⟩
  refine relation (fun s id row here => ⟨row, here, Nat.le_refl _⟩) ?_ preserves
    (fun _ _ _ tracing _ stepped => (step_tracing tracing stepped).2) tracing
    (along_true _ _) following
  intro s t u first second id row here
  obtain ⟨row', there, grown⟩ := first id row here
  obtain ⟨row'', final, grown'⟩ := second id row' there
  exact ⟨row'', final, Nat.le_trans grown grown'⟩

def smallChunks : Env :=
  { sha256 := fun _ => "digest", maxUploadSize := 100, uploadSessionHours := 24
    resumableChunkSize := 2 }

def newAsset (id : UUID) (size : Nat) : Asset :=
  { id, userId := 7, logicalId := id, version := 1, lifecycleState := .active
    supersededAt := none, trashedAt := none, purgeAfter := none, deletedBy := none
    originalPath := "/originals/a.jpg", checksum := "digest", storageChecksum := "digest"
    encryptionVersion := 0, fileSize := size, thumbnailPath := none, previewPath := none
    storageSource := .managed, originalFilename := none }

/-- A PATCH up to its body. -/
def openBody (q offset : Nat) (body : Bytes) : List (Nat × Action) :=
  [(q, .receive (.append 7 1 offset body)), (q, .lockUpload), (q, .check 0)]

def createSession (size : Nat) : List (Nat × Action) :=
  [(0, .receive (.create 7 none size)), (0, .create 1 0)]

/-- A body that dies behind its second byte, then three bytes in two requests. -/
def resumedUpload : List (Nat × Action) :=
  createSession 3 ++ openBody 1 0 [7, 7, 7] ++ [(1, .chunk 2), (1, .crash)] ++
    openBody 2 0 [10] ++ [(2, .chunk 1), (2, .endBody)] ++
    openBody 3 1 [11, 12] ++ [(3, .chunk 1), (3, .chunk 1), (3, .endBody), (3, .hash)]

/-- What the dead request left behind the offset is overwritten before it is hashed. -/
theorem staged_bytes_are_the_accepted_bodies_resumed :
    ∃ s t, run (tracedStep smallChunks) (begin []) (resumedUpload.take 11) = some s ∧
      run (tracedStep smallChunks) s (resumedUpload.drop 11) = some t ∧
      s.shared.1.staged 1 = some [10, 7] ∧ t.shared.2.hashed = [(1, [10, 11, 12])] ∧
      Faithful t ∧ OffsetsGrow s t := by
  have writes : (run (tracedStep smallChunks) (begin []) (resumedUpload.take 11)).any fun s =>
      s.shared.1.staged 1 = some [10, 7] ∧
        (run (tracedStep smallChunks) s (resumedUpload.drop 11)).any fun t =>
          t.shared.2.hashed = [(1, [10, 11, 12])] := by decide
  obtain ⟨s, reached, after⟩ := (Option.any_eq_true _ _).mp writes
  obtain ⟨left, rest⟩ := of_decide_eq_true after
  obtain ⟨t, following, hashed⟩ := (Option.any_eq_true _ _).mp rest
  refine ⟨s, t, reached, following, left, of_decide_eq_true hashed, ?_⟩
  exact staged_bytes_are_the_accepted_bodies reached following

/-- The bodies of the PATCHes for a session that are answered with success. -/
def answeredBodies (id : UUID) (labels : List (Nat × Action)) (t : Traced) : Bytes :=
  labels.flatMap fun label =>
    match label.2, t.locals label.1 with
    | .receive (.append _ session _ body), .answered (.appended _ _ _) =>
      if session = id then body else []
    | _, _ => []

/-- A PATCH at the end of a session only retries its finalization: it is accepted,
its body is not read. -/
def bodyAtTheEnd : List (Nat × Action) :=
  createSession 2 ++ openBody 1 0 [10, 11] ++ [(1, .chunk 2), (1, .endBody)] ++
    openBody 2 2 [9] ++ [(1, .hash), (2, .hash), (2, .persist (newAsset 50 2)), (2, .complete),
      (1, .persist (newAsset 51 2)), (1, .complete)]

theorem body_at_the_end_is_accepted_unread :
    ∃ t, run (tracedStep smallChunks) (begin []) bodyAtTheEnd = some t ∧
      (1, [10, 11]) ∈ t.shared.2.hashed ∧ answeredBodies 1 bodyAtTheEnd t = [10, 11, 9] := by
  have accepts : (run (tracedStep smallChunks) (begin []) bodyAtTheEnd).any fun t =>
      (1, [10, 11]) ∈ t.shared.2.hashed ∧ answeredBodies 1 bodyAtTheEnd t = [10, 11, 9] := by
    decide
  obtain ⟨t, reached, found⟩ := (Option.any_eq_true _ _).mp accepts
  exact ⟨t, reached, of_decide_eq_true found⟩

end Drivebound.Uploads
