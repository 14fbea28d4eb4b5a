import Drivebound.Uploads.Finalization

/-! The offsets of upload sessions only grow, and no answer is ahead of its row: whatever
requests do to a session, the offset that one of them was told is reached for good. -/
namespace Drivebound.Uploads
open Sessions

/-- The row has got to this offset. -/
def Reached (r : Server) (id : UUID) (size offset : Nat) : Prop :=
  ∃ row, r.uploads.get? id = some row ∧ row.totalSize = size ∧ offset ≤ row.offset

/-- Rows stay, with their sizes, and their offsets only grow. -/
def Forward (r r' : Server) : Prop :=
  ∀ id row, r.uploads.get? id = some row → Reached r' id row.totalSize row.offset

/-- An answer is not ahead of the row it is about. -/
def Told (r : Server) : Handler → Prop
  | .stored upload | .rejected upload | .hashed upload _ | .persisted upload _ _ =>
    upload.offset ≤ upload.totalSize
  | .answered (.status upload) | .answered (.appended upload _ _) =>
    Reached r upload.id upload.totalSize upload.offset
  | .answered (.created upload _ duplicate) =>
    duplicate = false → Reached r upload.id upload.totalSize upload.offset
  | _ => True

variable {r r' : Server} {env : Env} {phase : Handler} {outcome : Step} {id : UUID} {size offset : Nat}

theorem Reached.forward (reached : Reached r id size offset) (forward : Forward r r') :
    Reached r' id size offset := by
  obtain ⟨row, here, same, behind⟩ := reached
  obtain ⟨row', there, same', behind'⟩ := forward id row here
  exact ⟨row', there, same'.trans same, Nat.le_trans behind behind'⟩

theorem Forward.of_uploads (same : r'.uploads = r.uploads) : Forward r r' := by
  intro id row here
  rw [← same] at here
  exact ⟨row, here, rfl, Nat.le_refl _⟩

theorem Forward.refl (r : Server) : Forward r r := .of_uploads rfl

theorem Forward.update {change : UploadSession → UploadSession}
    (keeps : ∀ row, r.uploads.get? id = some row →
      (change row).totalSize = row.totalSize ∧ row.offset ≤ (change row).offset) :
    Forward r (r.update id change) := by
  intro other row here
  by_cases same : other = id
  · subst same
    exact ⟨change row, update_get?_self here, keeps row here⟩
  · exact ⟨row, (update_get?_other same).trans here, rfl, Nat.le_refl _⟩

theorem Told.forward (told : Told r phase) (forward : Forward r r') : Told r' phase := by
  cases phase with
  | answered reply =>
    cases reply with
    | status upload => exact Reached.forward told forward
    | appended upload asset duplicate => exact Reached.forward told forward
    | created upload chunkSize duplicate => exact fun fresh => (told fresh).forward forward
    | error code detail => trivial
  | stored | rejected | hashed | persisted => exact told
  | idle | received | locked | writing | lost => trivial

/-- What a step owes: it only moves offsets on, and what it arrives at tells the truth. -/
def Tells (r : Server) (outcome : Step) : Prop :=
  Forward r (outcome.result r) ∧ Told (outcome.result r) outcome.arrival

theorem createUpload_tells {checksum : Option String} {user : UUID}
    (chosen : createUpload env r user checksum size id now = some outcome) : Tells r outcome := by
  unfold createUpload at chosen
  split at chosen
  · cases chosen
    exact ⟨.refl r, trivial⟩
  split at chosen
  · cases chosen
    exact ⟨.refl r, trivial⟩
  split at chosen
  · cases chosen
    exact ⟨.refl r, fun fresh => nomatch fresh⟩
  · split at chosen
    · contradiction
    rename_i taken
    cases chosen
    have fresh : r.uploads.get? id = none := by simpa using taken
    constructor
    · intro other row here
      have different : other ≠ id := by
        rintro rfl
        rw [fresh] at here
        contradiction
      exact ⟨row, (Dict.get?_set_other _ _ different).trans here, rfl, Nat.le_refl _⟩
    · intro _
      exact ⟨_, Dict.get?_set_self .., rfl, Nat.le_refl _⟩

theorem uploadStatus_tells {user : UUID} (consistent : Consistent r) : Tells r (uploadStatus r user id) := by
  unfold uploadStatus
  split
  · exact ⟨.refl r, trivial⟩
  · next upload found =>
    have here := (find?_some found).1
    have key := consistent.keyed _ _ here
    exact ⟨.refl r, upload, key ▸ here, rfl, Nat.le_refl _⟩

theorem checkAppend_tells {user : UUID} (consistent : Consistent r) :
    Tells r (checkAppend r user id offset body now) := by
  unfold checkAppend
  split
  · exact ⟨.refl r, trivial⟩
  · next upload found =>
    have bounded := consistent.bounded _ _ (find?_some found).1
    split_ifs
    · exact ⟨.refl r, trivial⟩
    · exact ⟨.update fun row _ => ⟨rfl, Nat.le_refl _⟩, trivial⟩
    · exact ⟨.refl r, trivial⟩
    · exact ⟨.refl r, trivial⟩
    · exact ⟨.refl r, trivial⟩
    · exact ⟨.refl r, bounded⟩

theorem commitOffset_tells {upload : UploadSession} {written : Nat}
    (knows : Knows r (.writing upload body written)) : Tells r (commitOffset r upload written) := by
  obtain ⟨here, -, room⟩ := knows
  have moved : Forward r (r.update upload.id fun row => { row with offset := upload.offset + written }) := by
    refine .update fun row there => ⟨rfl, ?_⟩
    cases here.symm.trans there
    exact Nat.le_add_right _ _
  unfold commitOffset
  split
  · exact ⟨.refl r, trivial⟩
  · dsimp only
    split
    · exact ⟨moved, _, update_get?_self here, rfl, Nat.le_refl _⟩
    · exact ⟨moved, room⟩

theorem hashUpload_tells {upload : UploadSession} (told : Told r (.stored upload)) :
    Tells r (hashUpload env r upload) := by
  unfold hashUpload
  split
  · exact ⟨.refl r, trivial⟩
  · split
    · exact ⟨.update fun row _ => ⟨rfl, Nat.le_refl _⟩, told⟩
    · exact ⟨.refl r, told⟩

theorem persistUpload_tells {upload : UploadSession} (told : Told r (.hashed upload checksum))
    (chosen : persistUpload r upload checksum asset = some outcome) : Tells r outcome := by
  unfold persistUpload at chosen
  split at chosen
  · cases chosen
    exact ⟨.of_uploads rfl, told⟩
  · split at chosen
    · cases chosen
      exact ⟨.of_uploads rfl, told⟩
    · contradiction

theorem complete_tells {upload : UploadSession} {asset : UUID} (knows : Knows r (.persisted upload asset duplicate))
    (told : Told r (.persisted upload asset duplicate)) :
    Tells r (answer (r.update upload.id fun row => { row with status := .complete })
      (.appended { upload with status := .complete } (some asset) duplicate)) := by
  obtain ⟨⟨row, here, full, same, -⟩, -⟩ := knows
  refine ⟨.update fun row _ => ⟨rfl, Nat.le_refl _⟩, _, update_get?_self here, same, ?_⟩
  dsimp only
  rw [full, same]
  exact told

theorem program_tells (consistent : Consistent r) (knows : Knows r phase) (told : Told r phase)
    (chosen : program env r phase action = some outcome) : Tells r outcome := by
  cases action with
  | receive request =>
    simp only [program] at chosen
    split at chosen
    · cases chosen
      exact ⟨.refl r, trivial⟩
    · contradiction
  | create id now =>
    simp only [program] at chosen
    split at chosen
    · exact createUpload_tells chosen
    · contradiction
  | read =>
    simp only [program] at chosen
    split at chosen
    · cases chosen
      exact uploadStatus_tells consistent
    · contradiction
  | lockUpload =>
    simp only [program] at chosen
    split at chosen
    · cases chosen
      exact ⟨.refl r, trivial⟩
    · contradiction
  | check now =>
    simp only [program] at chosen
    split at chosen
    · cases chosen
      exact checkAppend_tells consistent
    · contradiction
  | chunk count =>
    simp only [program] at chosen
    split at chosen
    · cases chosen
      unfold writeChunk
      dsimp only
      split
      · exact ⟨.refl r, trivial⟩
      · exact ⟨.of_uploads rfl, trivial⟩
    · contradiction
  | endBody =>
    simp only [program] at chosen
    split at chosen
    · split_ifs at chosen
      cases chosen
      exact commitOffset_tells knows
    · contradiction
  | hash =>
    simp only [program] at chosen
    split at chosen
    · cases chosen
      exact hashUpload_tells told
    · contradiction
  | unlinkRejected =>
    simp only [program] at chosen
    split at chosen
    · cases chosen
      exact ⟨.of_uploads rfl, trivial⟩
    · contradiction
  | consume =>
    simp only [program] at chosen
    split at chosen
    · cases chosen
      exact ⟨.of_uploads rfl, told⟩
    · contradiction
  | persist asset =>
    simp only [program] at chosen
    split at chosen
    · exact persistUpload_tells told chosen
    · contradiction
  | failPersist error exception =>
    simp only [program] at chosen
    split at chosen
    · cases chosen
      exact ⟨.refl r, trivial⟩
    · contradiction
  | complete =>
    simp only [program] at chosen
    split at chosen
    · cases chosen
      exact complete_tells knows told
    · contradiction
  | refuse code detail =>
    simp only [program] at chosen
    split at chosen
    all_goals try contradiction
    split_ifs at chosen
    cases chosen
    exact ⟨.refl r, trivial⟩
  | crash =>
    simp only [program] at chosen
    split at chosen
    · contradiction
    · cases chosen
      exact ⟨.refl r, trivial⟩

/-- The requests in flight, with what each has been told. -/
structure Truthful (s : Requests) : Prop where
  serving : Serving s
  told : ∀ q, Told s.shared (s.locals q)

theorem Truthful.idle (consistent : Consistent r) : Truthful (Store.idle r .idle) :=
  ⟨Sound.idle consistent trivial (fun _ held => held), fun _ => trivial⟩

theorem Truthful.step {s s' : Requests} {label : Nat × Action} (truthful : Truthful s)
    (stepped : step env s label = some s') : Truthful s' ∧ Forward s.shared s'.shared := by
  obtain ⟨outcome, chosen, acted⟩ := Option.bind_eq_some_iff.mp stepped
  obtain ⟨forward, told⟩ := program_tells truthful.serving.global (truthful.serving.session label.1)
    (truthful.told label.1) chosen
  rw [← Store.act_shared acted] at forward told
  refine ⟨⟨(step_serving truthful.serving stepped).1, fun q => ?_⟩, forward⟩
  rw [Store.act_locals acted]
  by_cases same : q = label.1
  · subst same
    rw [Function.update_self]
    exact told
  · rw [Function.update_of_ne same]
    exact (truthful.told q).forward forward

end Drivebound.Uploads
