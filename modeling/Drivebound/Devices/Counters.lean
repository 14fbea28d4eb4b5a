import Drivebound.Core.History
import Drivebound.Devices.Finalizing
import Mathlib

/-! What the finalizing PATCHes add to the counters of a device. A ledger keeps the sessions
whose content was not a duplicate, that is, which an asset was committed for, and what became
of the request that had committed it. The counters agree with it as long as every request adds
to what is stored, and no session is completed by a retry alone. -/
namespace Drivebound.Devices
open Sessions Run

inductive Credit where
  /-- Its request goes on. -/
  | pending
  | counted
  /-- Its request was lost. -/
  | abandoned
  deriving DecidableEq, Repr

structure Entry where
  upload : UploadSession
  credit : Credit
  deriving DecidableEq, Repr

abbrev Ledger := List Entry

/-- The session that a request has committed an asset for, and not yet completed. -/
def Phase.owes : Phase → Option UploadSession
  | .persisted _ upload false | .counting _ upload false | .flushed _ upload false
  | .completing _ upload false => some upload
  | _ => none

def Ledger.settle (ledger : Ledger) (id : UUID) (credit : Credit) : Ledger :=
  Rows.updateKey (fun entry => entry.upload.id) id (fun entry => { entry with credit }) ledger

def Action.credit : Action → Credit
  | .complete _ => .counted
  | _ => .abandoned

def Ledger.after (ledger : Ledger) (action : Action) (before after : Phase) : Ledger :=
  match before.owes, after.owes with
  | none, some upload => ledger ++ [⟨upload, .pending⟩]
  | some upload, none => ledger.settle upload.id action.credit
  | _, _ => ledger

def ledgerAfter (s : Service) (label : Nat × Action) (t : Service) (ledger : Ledger) : Ledger :=
  ledger.after label.2 (s.locals label.1) (t.locals label.1)

abbrev ledgerStep (digest : UUID → String) : Service × Ledger → Nat × Action → Option (Service × Ledger) :=
  noted (step digest) ledgerAfter

/-- The session is complete. -/
def Database.finished (db : Database) (id : UUID) : Bool := (db.upload? id).any (·.status = .complete)

/-- The completed sessions of a device whose content was not a duplicate. -/
def originals (db : Database) (ledger : Ledger) (device : UUID) : List UploadSession :=
  (ledger.map (·.upload)).filter fun upload => upload.deviceId = some device ∧ db.finished upload.id = true

def Counts (initial : Database) (s : Service × Ledger) : Prop :=
  ∀ id row, s.1.shared.device? id = some row → ∃ first, initial.device? id = some first ∧
    row.filesBackedUp = first.filesBackedUp + (originals s.1.shared s.2 id).length ∧
    row.bytesBackedUp = first.bytesBackedUp + ((originals s.1.shared s.2 id).map (·.totalSize)).sum

/-- A request adds to the counters as they are stored. -/
def Phase.Current (db : Database) : Phase → Prop
  | .completing (some device) _ false => ∀ row ∈ db.device? device.id,
    row.filesBackedUp = device.filesBackedUp ∧ row.bytesBackedUp = device.bytesBackedUp
  | _ => True

/-- A retry does not complete a session whose first request was lost. -/
def Phase.Attended (ledger : Ledger) : Phase → Prop
  | .completing _ upload true => ∀ entry ∈ ledger, entry.upload.id = upload.id → entry.credit ≠ .abandoned
  | _ => True

/-- A request is not lost when a retry has completed its session. -/
def Phase.Open (db : Database) (phase : Phase) : Prop :=
  ∀ upload ∈ phase.owes, db.finished upload.id = false

def Regular (s : Service × Ledger) (label : Nat × Action) : Prop :=
  match label.2 with
  | .complete _ => (s.1.locals label.1).Current s.1.shared ∧ (s.1.locals label.1).Attended s.2
  | .stop => (s.1.locals label.1).Open s.1.shared
  | _ => True

instance (db : Database) (phase : Phase) : Decidable (phase.Current db) := by
  unfold Phase.Current
  split <;> infer_instance

instance (ledger : Ledger) (phase : Phase) : Decidable (phase.Attended ledger) := by
  unfold Phase.Attended
  split <;> infer_instance

instance (db : Database) (phase : Phase) : Decidable (phase.Open db) :=
  inferInstanceAs (Decidable (∀ upload ∈ phase.owes, db.finished upload.id = false))

instance (s : Service × Ledger) (label : Nat × Action) : Decidable (Regular s label) := by
  unfold Regular
  split <;> infer_instance

/-- What a request has loaded of its session. -/
def Phase.upload? : Phase → Option UploadSession
  | .stored _ upload | .rejected upload | .hashed _ upload | .owning _ upload | .published _ upload
  | .persisted _ upload _ | .counting _ upload _ | .flushed _ upload _ | .completing _ upload _ => some upload
  | _ => none

/-- The columns that do not change. -/
structure Same (row upload : UploadSession) : Prop where
  id : row.id = upload.id
  userId : row.userId = upload.userId
  deviceId : row.deviceId = upload.deviceId
  totalSize : row.totalSize = upload.totalSize
  expectedChecksum : row.expectedChecksum = upload.expectedChecksum

def Database.Lists (db : Database) (upload : UploadSession) : Prop :=
  ∃ row, db.upload? upload.id = some row ∧ Same row upload

/-- The session expects no other content. -/
def Fits (digest : UUID → String) (upload : UploadSession) : Prop :=
  upload.expectedChecksum.any (· ≠ digest upload.id) = false

/-- What an entry stands for. -/
structure Backed (digest : UUID → String) (db : Database) (entry : Entry) : Prop where
  listed : db.Lists entry.upload
  fits : Fits digest entry.upload
  asset : (db.existing entry.upload.userId (digest entry.upload.id)).isSome = true
  counted : entry.credit = .counted → db.finished entry.upload.id = true
  abandoned : entry.credit = .abandoned → db.finished entry.upload.id = false

/-- The device that is loaded is the one of the session. -/
def Matches (db : Database) (upload : UploadSession) : Option Device → Prop
  | some device => upload.deviceId = some device.id
  | none => ∀ id, upload.deviceId = some id → db.device? id = none

def Phase.Facts (digest : UUID → String) (db : Database) : Phase → Prop
  | .hashed _ upload | .owning _ upload | .persisted _ upload _ => Fits digest upload
  | .published _ upload => Fits digest upload ∧ db.existing upload.userId (digest upload.id) = none
  | .counting device upload _ | .flushed device upload _ | .completing device upload _ =>
    Fits digest upload ∧ Matches db upload device
  | _ => True

structure Knows (digest : UUID → String) (db : Database) (phase : Phase) : Prop where
  listed : ∀ upload, phase.upload? = some upload → db.Lists upload
  facts : phase.Facts digest db

/-- The lock that a program point relies on. -/
def Phase.Holds : Phase → LockKey → Prop
  | .owning _ upload, k | .published _ upload, k => k = .user upload.userId
  | _, _ => False

def locks : Locks Phase LockKey := ⟨Phase.Holds, fun _ _ => False⟩

/-- An `UPDATE` of a session that leaves the complete ones, unless it expects another content. -/
structure Spares (digest : UUID → String) (db : Database) (id : UUID)
    (change : UploadSession → UploadSession) : Prop where
  keeps : ∀ row, Same (change row) row
  status : (∀ row, (change row).status = row.status) ∨
    (db.finished id = false ∧ ∀ row, (change row).status ≠ .complete) ∨
    ∀ upload, db.Lists upload → upload.id = id → ¬ Fits digest upload

/-- What a step does, and where it leads. -/
inductive Moves (digest : UUID → String) (db : Database) : Phase → Action → Database → Phase → Prop where
  | quiet (point next : Phase) (action : Action) (staged : List UUID) (owes : next.owes = point.owes) :
      Moves digest db point action { db with staged } next
  | updated (point next : Phase) (action : Action) (id : UUID) (change : UploadSession → UploadSession)
      (nothing : point.owes = none) (owes : next.owes = none) (spares : Spares digest db id change) :
      Moves digest db point action (db.setUpload id change) next
  | persisted (device : Option Device) (upload : UploadSession) (asset : UUID) :
      Moves digest db (.published device upload) (.persist asset)
        { db with assets := db.assets ++ [⟨asset, upload.userId, digest upload.id, true⟩] }
        (.persisted device upload false)
  | completed (device : Option Device) (upload : UploadSession) (duplicate : Bool) (now : Timestamp) :
      Moves digest db (.completing device upload duplicate) (.complete now)
        (db.complete device upload duplicate now) .idle
  | lost (point : Phase) : Moves digest db point .stop db .idle

variable {digest : UUID → String} {db db' : Database} {phase next m : Phase} {action : Action} {outcome : Step}
  {upload : UploadSession} {ledger : Ledger}

theorem Same.refl (row : UploadSession) : Same row row := ⟨rfl, rfl, rfl, rfl, rfl⟩

theorem Same.trans {a b c : UploadSession} (first : Same a b) (second : Same b c) : Same a c :=
  ⟨first.id.trans second.id, first.userId.trans second.userId, first.deviceId.trans second.deviceId,
    first.totalSize.trans second.totalSize, first.expectedChecksum.trans second.expectedChecksum⟩

/-- What a session expects does not change. -/
theorem Same.fits {row : UploadSession} (same : Same row upload) : Fits digest row ↔ Fits digest upload := by
  unfold Fits
  rw [same.expectedChecksum, same.id]

theorem upload?_setUpload {change : UploadSession → UploadSession} {id : UUID}
    (keeps : ∀ row, Same (change row) row) (other : UUID) :
    (db.setUpload id change).upload? other =
      (db.upload? other).map fun row => if row.id = id then change row else row :=
  Rows.find?_updateKey fun row same => (keeps row).id.trans same

theorem Database.Lists.setUpload {change : UploadSession → UploadSession} {id : UUID}
    (keeps : ∀ row, Same (change row) row) (listed : db.Lists upload) : (db.setUpload id change).Lists upload := by
  obtain ⟨row, found, same⟩ := listed
  refine ⟨if row.id = id then change row else row, ?_, ?_⟩
  · rw [upload?_setUpload keeps, found, Option.map_some]
  · split
    · exact (keeps row).trans same
    · exact same

/-- Two listings of one session agree. -/
theorem Database.Lists.same {other : UploadSession} (one : db.Lists upload) (two : db.Lists other)
    (id : upload.id = other.id) : Same upload other := by
  obtain ⟨row, found, first⟩ := one
  obtain ⟨row', found', second⟩ := two
  rw [id] at found
  obtain rfl := Option.some.inj (found.symm.trans found')
  exact ⟨id, first.userId.symm.trans second.userId, first.deviceId.symm.trans second.deviceId,
    first.totalSize.symm.trans second.totalSize, first.expectedChecksum.symm.trans second.expectedChecksum⟩

theorem complete_upload? (device : Option Device) (duplicate : Bool) (now : Timestamp) (other : UUID) :
    (db.complete device upload duplicate now).upload? other =
      (db.upload? other).map fun row =>
        if row.id = upload.id then { row with status := .complete } else row := by
  have keeps : ∀ row : UploadSession, Same { row with status := .complete } row :=
    fun _ => ⟨rfl, rfl, rfl, rfl, rfl⟩
  have moved := @upload?_setUpload (device.elim db fun device => db.countDevice device upload duplicate now)
    (fun row => { row with status := .complete }) upload.id keeps other
  rw [Database.complete, moved]
  cases device <;> rfl

theorem moves_lists (moves : Moves digest db phase action db' next) (listed : db.Lists upload) :
    db'.Lists upload := by
  cases moves with
  | quiet | persisted | lost => exact listed
  | updated point next action id change nothing owes spares => exact listed.setUpload spares.keeps
  | completed device other duplicate now =>
    obtain ⟨row, found, same⟩ := listed
    refine ⟨if row.id = other.id then { row with status := .complete } else row, ?_, ?_⟩
    · rw [complete_upload?, found, Option.map_some]
    · split
      · exact ⟨same.id, same.userId, same.deviceId, same.totalSize, same.expectedChecksum⟩
      · exact same

theorem complete_assets (device : Option Device) (duplicate : Bool) (now : Timestamp) :
    (db.complete device upload duplicate now).assets = db.assets := by
  cases device <;> rfl

/-- An active asset stays. -/
theorem moves_existing (moves : Moves digest db phase action db' next) {user : UUID} {checksum : String}
    (there : (db.existing user checksum).isSome = true) : (db'.existing user checksum).isSome = true := by
  cases moves with
  | quiet | updated | lost => exact there
  | persisted device upload asset =>
    rw [Database.existing, List.find?_append]
    obtain ⟨known, found⟩ := Option.isSome_iff_exists.mp there
    rw [Database.existing] at found
    rw [found]
    rfl
  | completed device upload duplicate now =>
    rw [Database.existing, complete_assets]
    exact there

/-- The row of a device after its counters were written. -/
def counted (device : Device) (upload : UploadSession) (duplicate : Bool) (now : Timestamp) (row : Device) :
    Device :=
  if duplicate = true then { row with lastBackupAt := some now }
  else
    { row with
      lastBackupAt := some now
      filesBackedUp := device.filesBackedUp + 1
      bytesBackedUp := device.bytesBackedUp + upload.totalSize }

theorem counted_id (device : Device) (duplicate : Bool) (now : Timestamp) (row : Device) :
    (counted device upload duplicate now row).id = row.id := by
  unfold counted
  split <;> rfl

theorem complete_device? (device : Device) (duplicate : Bool) (now : Timestamp) (id : UUID) :
    (db.complete (some device) upload duplicate now).device? id =
      (db.device? id).map fun row => if row.id = device.id then counted device upload duplicate now row else row :=
  Rows.find?_updateKey fun row same => (counted_id device duplicate now row).trans same

/-- No device is inserted. -/
theorem moves_noDevice (moves : Moves digest db phase action db' next) {id : UUID} (absent : db.device? id = none) :
    db'.device? id = none := by
  cases moves with
  | quiet | updated | persisted | lost => exact absent
  | completed device upload duplicate now =>
    cases device with
    | none => exact absent
    | some device =>
      rw [complete_device?, absent]
      rfl

theorem stopped (phase : Phase) : Moves digest db phase .stop ((rollback db).result db) (rollback db).arrival :=
  .lost phase

/-- A request that owes nothing ends without a commit. -/
theorem refused (nothing : phase.owes = none) :
    Moves digest db phase action ((rollback db).result db) (rollback db).arrival :=
  .quiet phase .idle action db.staged nothing.symm

theorem append_moves {userId : UUID} {device : Option Device} {patch : Patch} {written : Nat} {now : Timestamp} :
    Moves digest db (.locked userId device patch) action
      ((append db userId device patch written now).result db)
      (append db userId device patch written now).arrival := by
  unfold append
  split
  · exact refused rfl
  · rename_i upload found
    split
    · exact refused rfl
    · rename_i active
      split
      · refine .updated _ _ _ upload.id _ rfl rfl ⟨fun _ => ⟨rfl, rfl, rfl, rfl, rfl⟩, .inr (.inl ⟨?_, nofun⟩)⟩
        obtain ⟨loaded, _⟩ := Option.filter_eq_some_iff.mp found
        obtain ⟨_, key⟩ := Rows.find?_key loaded
        rw [Database.finished, key, loaded]
        have unfinished : upload.status ≠ .complete := fun finished => active (by rw [finished]; nofun)
        exact decide_eq_false unfinished
      · split
        · exact refused rfl
        · split
          · split
            · exact refused rfl
            · refine .updated _ _ _ upload.id _ rfl ?_ ⟨fun _ => ⟨rfl, rfl, rfl, rfl, rfl⟩, .inl fun _ => rfl⟩
              simp only [Outcome.arrival]
              split <;> rfl
          · exact .quiet _ (.stored device upload) _ db.staged rfl

/-- Only a session that expects another content fails. -/
theorem hash_moves {device : Option Device} (listed : db.Lists upload) :
    Moves digest db (.stored device upload) action ((hash digest db device upload).result db)
      (hash digest db device upload).arrival := by
  unfold hash
  split
  · exact refused rfl
  · split
    · rename_i mismatch
      refine .updated _ _ _ upload.id _ rfl rfl ⟨fun _ => ⟨rfl, rfl, rfl, rfl, rfl⟩, .inr (.inr ?_)⟩
      intro other there id fits
      have own : Fits digest upload := (there.same listed id).fits.mp fits
      rw [Fits, mismatch] at own
      contradiction
    · exact .quiet _ (.hashed device upload) _ db.staged rfl

theorem publish_moves {device : Option Device} : Moves digest db (.owning device upload) action
    ((publish digest db device upload).result db) (publish digest db device upload).arrival := by
  unfold publish
  split
  · exact .quiet _ (.persisted device upload true) _ _ rfl
  · split
    · exact .quiet _ (.published device upload) _ _ rfl
    · exact refused rfl

theorem persist_moves {device : Option Device} {asset : UUID} :
    Moves digest db (.published device upload) (.persist asset)
      ((persist digest db device upload asset).result db) (persist digest db device upload asset).arrival := by
  unfold persist
  split
  · exact refused rfl
  · exact .persisted device upload asset

theorem lockDevice_moves {device : Option Device} (owes : next.owes = phase.owes) :
    Moves digest db phase action ((lockDevice db device next).result db) (lockDevice db device next).arrival := by
  cases device <;> exact .quiet phase next action db.staged owes

theorem receive_moves {credential : Credential} {patch : Patch}
    (chosen : program digest db .idle (.receive credential patch) = some outcome) :
    Moves digest db .idle (.receive credential patch) (outcome.result db) outcome.arrival := by
  cases credential with
  | account userId =>
    cases chosen
    exact .quiet _ _ _ db.staged rfl
  | deviceToken tokenHash =>
    simp only [program] at chosen
    split at chosen
    · cases chosen
      exact refused rfl
    · split at chosen
      · cases chosen
        exact .quiet _ _ _ db.staged rfl
      · cases chosen
        exact refused rfl

theorem program_moves (knows : Knows digest db phase) (chosen : program digest db phase action = some outcome) :
    Moves digest db phase action (outcome.result db) outcome.arrival := by
  cases action with
  | stop =>
    cases chosen
    exact stopped phase
  | receive credential patch =>
    cases phase with
    | idle => exact receive_moves chosen
    | _ => contradiction
  | flushSeen =>
    cases phase with
    | authenticated =>
      cases chosen
      exact lockDevice_moves rfl
    | _ => contradiction
  | shareOwner =>
    cases phase with
    | seen =>
      simp only [program] at chosen
      split at chosen
      · cases chosen
        exact .quiet _ _ _ db.staged rfl
      · cases chosen
        exact refused rfl
    | _ => contradiction
  | lockUpload =>
    cases phase with
    | shared =>
      cases chosen
      exact .quiet _ _ _ db.staged rfl
    | _ => contradiction
  | append =>
    cases phase with
    | locked =>
      cases chosen
      exact append_moves
    | _ => contradiction
  | hash =>
    cases phase with
    | stored device upload =>
      cases chosen
      exact hash_moves (knows.listed upload rfl)
    | _ => contradiction
  | unlinkRejected =>
    cases phase with
    | rejected =>
      cases chosen
      exact .quiet _ _ _ _ rfl
    | _ => contradiction
  | lockOwner =>
    cases phase with
    | hashed =>
      simp only [program] at chosen
      split at chosen
      · cases chosen
        exact .quiet _ _ _ db.staged rfl
      · cases chosen
        exact .quiet _ _ _ _ rfl
    | _ => contradiction
  | initializeKey =>
    cases phase with
    | owning =>
      cases chosen
      exact .quiet _ _ _ db.staged rfl
    | _ => contradiction
  | publish =>
    cases phase with
    | owning =>
      cases chosen
      exact publish_moves
    | _ => contradiction
  | persist asset =>
    cases phase with
    | published =>
      cases chosen
      exact persist_moves
    | _ => contradiction
  | loadDevice cached =>
    cases phase with
    | persisted device upload duplicate =>
      cases chosen
      exact .quiet _ _ _ db.staged (by cases duplicate <;> rfl)
    | _ => contradiction
  | flushDevice =>
    cases phase with
    | counting device upload duplicate =>
      cases chosen
      exact lockDevice_moves (by cases duplicate <;> rfl)
    | _ => contradiction
  | flushUpload =>
    cases phase with
    | flushed device upload duplicate =>
      cases chosen
      exact .quiet _ _ _ db.staged (by cases duplicate <;> rfl)
    | _ => contradiction
  | complete now =>
    cases phase with
    | completing device upload duplicate =>
      cases chosen
      exact .completed device upload duplicate now
    | _ => contradiction

theorem idle_knows : Knows digest db .idle := ⟨nofun, trivial⟩

theorem Matches.mono {device : Option Device} (matched : Matches db upload device)
    (kept : ∀ id, db.device? id = none → db'.device? id = none) : Matches db' upload device := by
  cases device with
  | none => exact fun id same => kept id (matched id same)
  | some device => exact matched

/-- What is loaded is the device of the session. -/
theorem loadDevice_matches (cached : Bool) (device : Option Device) :
    Matches db upload (loadDevice db cached device upload) := by
  unfold loadDevice
  cases bound : upload.deviceId with
  | none => exact fun id same => absurd (bound.symm.trans same) nofun
  | some id =>
    rw [Option.bind_some]
    split
    · rename_i reused
      cases device with
      | none => exact absurd reused.2 nofun
      | some device =>
        have key : device.id = id := of_decide_eq_true reused.2
        rw [Matches, key]
        exact bound
    · cases found : db.device? id with
      | none =>
        intro other same
        obtain rfl := Option.some.inj (bound.symm.trans same)
        exact found
      | some device =>
        rw [Matches, (Rows.find?_key found).2]
        exact bound

theorem append_knows {userId : UUID} {device : Option Device} {patch : Patch} {written : Nat} {now : Timestamp} :
    Knows digest ((append db userId device patch written now).result db)
      (append db userId device patch written now).arrival := by
  unfold append
  split
  · exact idle_knows
  · rename_i upload found
    obtain ⟨loaded, _⟩ := Option.filter_eq_some_iff.mp found
    obtain ⟨_, key⟩ := Rows.find?_key loaded
    rw [← key] at loaded
    have listed : db.Lists upload := ⟨upload, loaded, .refl upload⟩
    split
    · exact idle_knows
    · split
      · exact idle_knows
      · split
        · exact idle_knows
        · split
          · split
            · exact idle_knows
            · simp only [Outcome.arrival, Outcome.result]
              split
              · exact idle_knows
              · refine ⟨fun other has => ?_, trivial⟩
                cases has
                have advanced : db.Lists { upload with offset := upload.offset + written } :=
                  ⟨upload, loaded, rfl, rfl, rfl, rfl, rfl⟩
                exact advanced.setUpload fun _ => ⟨rfl, rfl, rfl, rfl, rfl⟩
          · refine ⟨fun other has => ?_, trivial⟩
            cases has
            exact listed

theorem hash_knows {device : Option Device} (knows : Knows digest db (.stored device upload)) :
    Knows digest ((hash digest db device upload).result db) (hash digest db device upload).arrival := by
  unfold hash
  split
  · exact idle_knows
  · split
    · refine ⟨fun other has => ?_, trivial⟩
      cases has
      exact Database.Lists.setUpload (fun _ => ⟨rfl, rfl, rfl, rfl, rfl⟩) (knows.listed upload rfl)
    · rename_i fits
      exact ⟨knows.listed, eq_false_of_ne_true fits⟩

theorem publish_knows {device : Option Device} (knows : Knows digest db (.owning device upload)) :
    Knows digest ((publish digest db device upload).result db) (publish digest db device upload).arrival := by
  unfold publish
  split
  · exact ⟨knows.listed, knows.facts⟩
  · rename_i fresh
    split
    · exact ⟨knows.listed, knows.facts, fresh⟩
    · exact idle_knows

theorem persist_knows {device : Option Device} {asset : UUID}
    (knows : Knows digest db (.published device upload)) :
    Knows digest ((persist digest db device upload asset).result db)
      (persist digest db device upload asset).arrival := by
  unfold persist
  split
  · exact idle_knows
  · exact ⟨knows.listed, knows.facts.1⟩

theorem lockDevice_knows {device : Option Device} (knows : Knows digest db next) :
    Knows digest ((lockDevice db device next).result db) (lockDevice db device next).arrival := by
  cases device <;> exact knows

/-- A program point in front of the session's row knows nothing of it. -/
theorem early_knows {point : Phase} (unloaded : point.upload? = none) (facts : point.Facts digest db) :
    Knows digest db point :=
  ⟨fun _ has => absurd (unloaded.symm.trans has) nofun, facts⟩

theorem receive_knows {credential : Credential} {patch : Patch}
    (chosen : program digest db .idle (.receive credential patch) = some outcome) :
    Knows digest (outcome.result db) outcome.arrival := by
  cases credential with
  | account userId =>
    cases chosen
    exact early_knows rfl trivial
  | deviceToken tokenHash =>
    simp only [program] at chosen
    split at chosen
    · cases chosen
      exact idle_knows
    · split at chosen
      · cases chosen
        exact early_knows rfl trivial
      · cases chosen
        exact idle_knows

theorem program_knows (knows : Knows digest db phase) (chosen : program digest db phase action = some outcome) :
    Knows digest (outcome.result db) outcome.arrival := by
  cases action with
  | stop =>
    cases chosen
    exact idle_knows
  | receive credential patch =>
    cases phase with
    | idle => exact receive_knows chosen
    | _ => contradiction
  | flushSeen =>
    cases phase with
    | authenticated =>
      cases chosen
      exact lockDevice_knows (early_knows rfl trivial)
    | _ => contradiction
  | shareOwner =>
    cases phase with
    | seen =>
      simp only [program] at chosen
      split at chosen
      · cases chosen
        exact early_knows rfl trivial
      · cases chosen
        exact idle_knows
    | _ => contradiction
  | lockUpload =>
    cases phase with
    | shared =>
      cases chosen
      exact early_knows rfl trivial
    | _ => contradiction
  | append =>
    cases phase with
    | locked =>
      cases chosen
      exact append_knows
    | _ => contradiction
  | hash =>
    cases phase with
    | stored =>
      cases chosen
      exact hash_knows knows
    | _ => contradiction
  | unlinkRejected =>
    cases phase with
    | rejected =>
      cases chosen
      exact idle_knows
    | _ => contradiction
  | lockOwner =>
    cases phase with
    | hashed =>
      simp only [program] at chosen
      split at chosen
      · cases chosen
        exact ⟨knows.listed, knows.facts⟩
      · cases chosen
        exact idle_knows
    | _ => contradiction
  | initializeKey =>
    cases phase with
    | owning =>
      cases chosen
      exact ⟨knows.listed, knows.facts⟩
    | _ => contradiction
  | publish =>
    cases phase with
    | owning =>
      cases chosen
      exact publish_knows knows
    | _ => contradiction
  | persist asset =>
    cases phase with
    | published =>
      cases chosen
      exact persist_knows knows
    | _ => contradiction
  | loadDevice cached =>
    cases phase with
    | persisted device upload duplicate =>
      cases chosen
      exact ⟨knows.listed, knows.facts, loadDevice_matches cached device⟩
    | _ => contradiction
  | flushDevice =>
    cases phase with
    | counting =>
      cases chosen
      exact lockDevice_knows ⟨knows.listed, knows.facts⟩
    | _ => contradiction
  | flushUpload =>
    cases phase with
    | flushed =>
      cases chosen
      exact ⟨knows.listed, knows.facts⟩
    | _ => contradiction
  | complete now =>
    cases phase with
    | completing =>
      cases chosen
      exact idle_knows
    | _ => contradiction

/-- Where a request goes on without a lock that it relies on. -/
theorem keeps_unlocked (unlocked : ∀ k, ¬ outcome.arrival.Holds k) : locks.Keeps phase outcome := by
  cases outcome with
  | stay | finish => exact ⟨fun k held => absurd held (unlocked k), fun _ never => never⟩
  | lock => exact ⟨fun k held => absurd held (unlocked k), fun _ never => never⟩
  | share => exact ⟨fun k held => absurd held (unlocked k), fun _ never => absurd never nofun⟩

theorem program_keeps (chosen : program digest db phase action = some outcome) :
    locks.Keeps phase outcome := by
  cases action with
  | stop =>
    cases chosen
    exact keeps_unlocked fun _ never => never
  | receive credential patch =>
    cases phase with
    | idle =>
      cases credential with
      | account =>
        cases chosen
        exact keeps_unlocked fun _ never => never
      | deviceToken =>
        simp only [program] at chosen
        split at chosen
        · cases chosen
          exact keeps_unlocked fun _ never => never
        · split at chosen
          · cases chosen
            exact keeps_unlocked fun _ never => never
          · cases chosen
            exact keeps_unlocked fun _ never => never
    | _ => contradiction
  | flushSeen =>
    cases phase with
    | authenticated userId device patch =>
      cases chosen
      cases device with
      | none => exact keeps_unlocked fun _ never => never
      | some device => exact keeps_unlocked fun _ never => never
    | _ => contradiction
  | shareOwner =>
    cases phase with
    | seen =>
      simp only [program] at chosen
      split at chosen
      · cases chosen
        exact keeps_unlocked fun _ never => never
      · cases chosen
        exact keeps_unlocked fun _ never => never
    | _ => contradiction
  | lockUpload =>
    cases phase with
    | shared =>
      cases chosen
      exact keeps_unlocked fun _ never => never
    | _ => contradiction
  | append written now =>
    cases phase with
    | locked userId device patch =>
      cases chosen
      simp only [append]
      split
      · exact keeps_unlocked fun _ never => never
      · split
        · exact keeps_unlocked fun _ never => never
        · split
          · exact keeps_unlocked fun _ never => never
          · split
            · exact keeps_unlocked fun _ never => never
            · split
              · split
                · exact keeps_unlocked fun _ never => never
                · split
                  · exact keeps_unlocked fun _ never => never
                  · exact keeps_unlocked fun _ never => never
              · exact keeps_unlocked fun _ never => never
    | _ => contradiction
  | hash =>
    cases phase with
    | stored =>
      cases chosen
      simp only [hash]
      split
      · exact keeps_unlocked fun _ never => never
      · split
        · exact keeps_unlocked fun _ never => never
        · exact keeps_unlocked fun _ never => never
    | _ => contradiction
  | unlinkRejected =>
    cases phase with
    | rejected =>
      cases chosen
      exact keeps_unlocked fun _ never => never
    | _ => contradiction
  | lockOwner =>
    cases phase with
    | hashed =>
      simp only [program] at chosen
      split at chosen
      · cases chosen
        exact ⟨fun k held => .inl held, fun _ never => never⟩
      · cases chosen
        exact keeps_unlocked fun _ never => never
    | _ => contradiction
  | initializeKey =>
    cases phase with
    | owning =>
      cases chosen
      exact keeps_unlocked fun _ never => never
    | _ => contradiction
  | publish =>
    cases phase with
    | owning =>
      cases chosen
      simp only [publish]
      split
      · exact keeps_unlocked fun _ never => never
      · split
        · exact ⟨fun k held => held, fun _ never => never⟩
        · exact keeps_unlocked fun _ never => never
    | _ => contradiction
  | persist asset =>
    cases phase with
    | published =>
      cases chosen
      simp only [persist]
      split
      · exact keeps_unlocked fun _ never => never
      · exact keeps_unlocked fun _ never => never
    | _ => contradiction
  | loadDevice cached =>
    cases phase with
    | persisted =>
      cases chosen
      exact keeps_unlocked fun _ never => never
    | _ => contradiction
  | flushDevice =>
    cases phase with
    | counting device upload duplicate =>
      cases chosen
      cases device with
      | none => exact keeps_unlocked fun _ never => never
      | some device => exact keeps_unlocked fun _ never => never
    | _ => contradiction
  | flushUpload =>
    cases phase with
    | flushed =>
      cases chosen
      exact keeps_unlocked fun _ never => never
    | _ => contradiction
  | complete now =>
    cases phase with
    | completing =>
      cases chosen
      exact keeps_unlocked fun _ never => never
    | _ => contradiction

/-- Behind the lock of its owner, a content stays new. -/
theorem moves_unpublished (moves : Moves digest db phase action db' next) {user : UUID} {checksum : String}
    (unlocked : ¬ phase.Holds (.user user)) (fresh : db.existing user checksum = none) :
    db'.existing user checksum = none := by
  cases moves with
  | quiet | updated | lost => exact fresh
  | persisted device upload asset =>
    have foreign : upload.userId ≠ user := fun same => unlocked (congrArg LockKey.user same.symm)
    rw [Database.existing] at fresh ⊢
    rw [List.find?_append, fresh, Option.none_or, List.find?_singleton,
      if_neg fun fits => foreign (of_decide_eq_true fits).1]
  | completed device upload duplicate now =>
    rw [Database.existing, complete_assets]
    exact fresh

theorem knows_others (moves : Moves digest db phase action db' next) (apart : locks.Apart phase m)
    (other : Knows digest db m) : Knows digest db' m := by
  refine ⟨fun upload has => moves_lists moves (other.listed upload has), ?_⟩
  have facts := other.facts
  have devices : ∀ id, db.device? id = none → db'.device? id = none := fun id => moves_noDevice moves
  cases m with
  | published device upload =>
    exact ⟨facts.1, moves_unpublished moves (fun mine => ((apart _).1 mine).1 rfl) facts.2⟩
  | counting | flushed | completing => exact ⟨facts.1, facts.2.mono devices⟩
  | _ => exact facts

theorem step_guarded {s t : Service} {label : Nat × Action}
    (guarded : Guarded locks (fun _ => True) (Knows digest) s) (stepped : step digest s label = some t) :
    Guarded locks (fun _ => True) (Knows digest) t := by
  apply guarded.step stepped
  intro outcome chosen
  have moves := program_moves (guarded.session label.1) chosen
  exact ⟨program_keeps chosen, trivial, program_knows (guarded.session label.1) chosen,
    fun m apart other => knows_others moves apart other⟩

section Tallies

/-- The entries of a device that were counted, by a measure of their sessions. -/
def tally (measure : UploadSession → Nat) (device : UUID) (ledger : Ledger) : Nat :=
  (ledger.map fun entry =>
    if entry.credit = .counted ∧ entry.upload.deviceId = some device then measure entry.upload else 0).sum

variable {measure : UploadSession → Nat} {device : UUID} {credit : Credit}

theorem tally_append_pending : tally measure device (ledger ++ [⟨upload, .pending⟩]) =
    tally measure device ledger := by
  simp [tally]

theorem settle_absent {id : UUID} (absent : ∀ entry ∈ ledger, entry.upload.id ≠ id) :
    ledger.settle id credit = ledger := by
  rw [Ledger.settle, Rows.updateKey]
  refine (List.map_congr_left fun entry member => ?_).trans (List.map_id _)
  exact if_neg (absent entry member)

/-- The entry of a session is counted once. -/
theorem tally_settle (unique : (ledger.map (·.upload.id)).Nodup) (member : ⟨upload, .pending⟩ ∈ ledger) :
    tally measure device (ledger.settle upload.id credit) = tally measure device ledger +
      if credit = .counted ∧ upload.deviceId = some device then measure upload else 0 := by
  induction ledger with
  | nil => contradiction
  | cons entry rest ih =>
    obtain ⟨apart, unique⟩ := List.nodup_cons.mp unique
    have others : ∀ other ∈ rest, other.upload.id ≠ entry.upload.id := fun other there same =>
      apart (List.mem_map.mpr ⟨other, there, same⟩)
    rcases List.mem_cons.mp member with rfl | later
    · have settled : Ledger.settle (⟨upload, .pending⟩ :: rest) upload.id credit =
          ⟨upload, credit⟩ :: rest := by
        have kept := @settle_absent rest credit upload.id others
        rw [Ledger.settle, Rows.updateKey] at kept ⊢
        rw [List.map_cons, if_pos rfl, kept]
      rw [settled]
      simp [tally, Nat.add_comm]
    · have other : entry.upload.id ≠ upload.id := (others _ later).symm
      have settled : Ledger.settle (entry :: rest) upload.id credit = entry :: Ledger.settle rest upload.id credit := by
        simp only [Ledger.settle, Rows.updateKey, List.map_cons, if_neg other]
      rw [settled]
      have step := ih unique later
      simp only [tally, List.map_cons, List.sum_cons] at step ⊢
      rw [step, Nat.add_assoc]

theorem mem_settle {id : UUID} {entry : Entry} (member : entry ∈ ledger.settle id credit) :
    (∃ old ∈ ledger, old.upload.id = id ∧ entry = ⟨old.upload, credit⟩) ∨
      entry ∈ ledger ∧ entry.upload.id ≠ id := by
  obtain ⟨old, there, rfl⟩ := List.mem_map.mp member
  by_cases same : old.upload.id = id
  · rw [if_pos same]
    exact .inl ⟨old, there, same, rfl⟩
  · rw [if_neg same]
    exact .inr ⟨there, same⟩

theorem settle_ids {id : UUID} : (ledger.settle id credit).map (·.upload.id) = ledger.map (·.upload.id) :=
  Rows.updateKey_keys fun _ same => same

end Tallies

/-- What is finished stays so, and nothing else becomes it. -/
theorem finished_setUpload {id : UUID} {change : UploadSession → UploadSession} (spares : Spares digest db id change)
    (listed : db.Lists upload) (fits : Fits digest upload) :
    (db.setUpload id change).finished upload.id = db.finished upload.id := by
  have whole := listed
  obtain ⟨row, found, same⟩ := listed
  simp only [Database.finished]
  rw [upload?_setUpload spares.keeps, found, Option.map_some]
  split
  · rename_i here
    rcases spares.status with kept | ⟨unfinished, never⟩ | refuted
    · rw [Option.any_some, Option.any_some, kept row]
    · rw [← here, same.id, Database.finished, found] at unfinished
      rw [unfinished]
      exact decide_eq_false (never row)
    · exact absurd fits (refuted upload whole (same.id.symm.trans here))
  · rfl

theorem finished_complete_self {device : Option Device} {duplicate : Bool} {now : Timestamp}
    (listed : db.Lists upload) : (db.complete device upload duplicate now).finished upload.id = true := by
  obtain ⟨row, found, same⟩ := listed
  rw [Database.finished, complete_upload?, found, Option.map_some, if_pos same.id]
  rfl

theorem finished_complete_other {device : Option Device} {duplicate : Bool} {now : Timestamp} {id : UUID}
    (other : id ≠ upload.id) : (db.complete device upload duplicate now).finished id = db.finished id := by
  rw [Database.finished, complete_upload?, Database.finished]
  cases found : db.upload? id with
  | none => rfl
  | some row =>
    have key := (Rows.find?_key found).2
    rw [Option.map_some, if_neg (key ▸ other)]

/-- The counters are what the ledger says, and the ledger is what the requests are doing. -/
structure Tallied (digest : UUID → String) (initial : Database) (s : Service × Ledger) : Prop where
  guarded : Guarded locks (fun _ => True) (Knows digest) s.1
  backed : ∀ entry ∈ s.2, Backed digest s.1.shared entry
  unique : (s.2.map (·.upload.id)).Nodup
  owed : ∀ r upload, (s.1.locals r).owes = some upload → ⟨upload, .pending⟩ ∈ s.2
  single : ∀ r q upload, (s.1.locals r).owes = some upload → (s.1.locals q).owes = some upload → r = q
  pending : ∀ entry ∈ s.2, entry.credit = .pending → ∃ r, (s.1.locals r).owes = some entry.upload
  devices : ∀ id row, s.1.shared.device? id = some row → ∃ first, initial.device? id = some first ∧
    row.filesBackedUp = first.filesBackedUp + tally (fun _ => 1) id s.2 ∧
    row.bytesBackedUp = first.bytesBackedUp + tally (·.totalSize) id s.2

section Steps

variable {initial : Database} {s t : Service × Ledger} {label : Nat × Action}

/-- A step that leaves the ledger and the counters alone. -/
theorem Tallied.keep (tallied : Tallied digest initial s) (guarded : Guarded locks (fun _ => True) (Knows digest) t.1)
    (owes : ∀ r, (t.1.locals r).owes = (s.1.locals r).owes) (ledger : t.2 = s.2)
    (backed : ∀ entry ∈ s.2, Backed digest t.1.shared entry)
    (devices : ∀ id row, t.1.shared.device? id = some row → ∃ old, s.1.shared.device? id = some old ∧
      row.filesBackedUp = old.filesBackedUp ∧ row.bytesBackedUp = old.bytesBackedUp) :
    Tallied digest initial t := by
  refine ⟨guarded, ?_, ?_, ?_, ?_, ?_, ?_⟩
  · rw [ledger]
    exact backed
  · rw [ledger]
    exact tallied.unique
  · intro r upload has
    rw [owes] at has
    rw [ledger]
    exact tallied.owed r upload has
  · intro r q upload one two
    rw [owes] at one two
    exact tallied.single r q upload one two
  · intro entry member waiting
    rw [ledger] at member
    obtain ⟨r, has⟩ := tallied.pending entry member waiting
    exact ⟨r, (owes r).trans has⟩
  · intro id row found
    obtain ⟨old, there, files, bytes⟩ := devices id row found
    obtain ⟨first, known, before, sizes⟩ := tallied.devices id old there
    rw [files, bytes, ledger]
    exact ⟨first, known, before, sizes⟩

/-- The request that has committed an asset ends, and its entry is settled. -/
theorem Tallied.settle (tallied : Tallied digest initial s)
    (guarded : Guarded locks (fun _ => True) (Knows digest) t.1) {r : Nat} {credit : Credit}
    (owed : (s.1.locals r).owes = some upload) (ended : (t.1.locals r).owes = none)
    (others : ∀ q, q ≠ r → t.1.locals q = s.1.locals q) (settled : credit ≠ .pending)
    (ledger : t.2 = s.2.settle upload.id credit) (backed : ∀ entry ∈ t.2, Backed digest t.1.shared entry)
    (devices : ∀ id row, t.1.shared.device? id = some row → ∃ old, s.1.shared.device? id = some old ∧
      row.filesBackedUp = old.filesBackedUp +
        (if credit = .counted ∧ upload.deviceId = some id then 1 else 0) ∧
      row.bytesBackedUp = old.bytesBackedUp +
        if credit = .counted ∧ upload.deviceId = some id then upload.totalSize else 0) :
    Tallied digest initial t := by
  have member := tallied.owed r upload owed
  have still : ∀ q other, (t.1.locals q).owes = some other → q ≠ r ∧ (s.1.locals q).owes = some other := by
    intro q other has
    have different : q ≠ r := by
      rintro rfl
      rw [ended] at has
      contradiction
    rw [others q different] at has
    exact ⟨different, has⟩
  refine ⟨guarded, backed, ?_, ?_, ?_, ?_, ?_⟩
  · rw [ledger, settle_ids]
    exact tallied.unique
  · intro q other has
    obtain ⟨different, before⟩ := still q other has
    have entry := tallied.owed q other before
    have apart : other.id ≠ upload.id := by
      intro same
      obtain rfl : other = upload :=
        congrArg Entry.upload (List.inj_on_of_nodup_map tallied.unique entry member same)
      exact different (tallied.single q r other before owed)
    rw [ledger]
    exact List.mem_map.mpr ⟨_, entry, if_neg apart⟩
  · intro q p other one two
    exact tallied.single q p other (still q other one).2 (still p other two).2
  · intro entry among waiting
    rw [ledger] at among
    rcases mem_settle among with ⟨old, _, _, rfl⟩ | ⟨there, apart⟩
    · exact absurd waiting settled
    · obtain ⟨q, has⟩ := tallied.pending entry there waiting
      refine ⟨q, ?_⟩
      have different : q ≠ r := by
        rintro rfl
        rw [owed] at has
        exact apart (congrArg UploadSession.id (Option.some.inj has)).symm
      rw [others q different]
      exact has
  · intro id row found
    obtain ⟨old, there, files, bytes⟩ := devices id row found
    obtain ⟨first, known, before, sizes⟩ := tallied.devices id old there
    refine ⟨first, known, ?_, ?_⟩
    · rw [files, before, ledger, tally_settle tallied.unique member, Nat.add_assoc]
    · rw [bytes, sizes, ledger, tally_settle tallied.unique member, Nat.add_assoc]

/-- The ledger notes a session for which an asset is committed; its content is new. -/
theorem Tallied.append (tallied : Tallied digest initial s)
    (guarded : Guarded locks (fun _ => True) (Knows digest) t.1) {r : Nat}
    (nothing : (s.1.locals r).owes = none) (owes : (t.1.locals r).owes = some upload)
    (others : ∀ q, q ≠ r → t.1.locals q = s.1.locals q) (ledger : t.2 = s.2 ++ [⟨upload, .pending⟩])
    (fresh : ∀ entry ∈ s.2, entry.upload.id ≠ upload.id) (backed : ∀ entry ∈ t.2, Backed digest t.1.shared entry)
    (devices : ∀ id, t.1.shared.device? id = s.1.shared.device? id) : Tallied digest initial t := by
  have known : ∀ q other, (t.1.locals q).owes = some other →
      q = r ∧ other = upload ∨ q ≠ r ∧ (s.1.locals q).owes = some other := by
    intro q other has
    by_cases same : q = r
    · subst same
      exact .inl ⟨rfl, Option.some.inj (has.symm.trans owes)⟩
    · rw [others q same] at has
      exact .inr ⟨same, has⟩
  have strange : ∀ q, (s.1.locals q).owes ≠ some upload := fun q has => fresh _ (tallied.owed q upload has) rfl
  refine ⟨guarded, backed, ?_, ?_, ?_, ?_, ?_⟩
  · rw [ledger]
    exact Rows.nodup_map_append tallied.unique fresh
  · intro q other has
    rw [ledger]
    rcases known q other has with ⟨_, rfl⟩ | ⟨_, before⟩
    · exact List.mem_append_right _ List.mem_cons_self
    · exact List.mem_append_left _ (tallied.owed q other before)
  · intro q p other one two
    rcases known q other one with ⟨rfl, rfl⟩ | ⟨_, before⟩
    · rcases known p other two with ⟨rfl, _⟩ | ⟨_, too⟩
      · rfl
      · exact absurd too (strange p)
    · rcases known p other two with ⟨_, rfl⟩ | ⟨_, too⟩
      · exact absurd before (strange q)
      · exact tallied.single q p other before too
  · intro entry among waiting
    rw [ledger] at among
    rcases List.mem_append.mp among with before | new
    · obtain ⟨q, has⟩ := tallied.pending entry before waiting
      refine ⟨q, ?_⟩
      have different : q ≠ r := by
        rintro rfl
        rw [nothing] at has
        contradiction
      rw [others q different]
      exact has
    · rw [List.mem_singleton.mp new]
      exact ⟨r, owes⟩
  · intro id row found
    rw [devices] at found
    rw [ledger, tally_append_pending, tally_append_pending]
    exact tallied.devices id row found

theorem after_kept {before after : Phase} (same : after.owes = before.owes) :
    ledger.after action before after = ledger := by
  rw [Ledger.after, same]
  cases before.owes <;> rfl

/-- What a completion leaves of a device. -/
theorem complete_device {device : Option Device} {duplicate : Bool} {now : Timestamp} {id : UUID} {row : Device}
    (matched : Matches db upload device) (current : (Phase.completing device upload duplicate).Current db)
    (found : (db.complete device upload duplicate now).device? id = some row) :
    ∃ old, db.device? id = some old ∧
      row.filesBackedUp = old.filesBackedUp +
        (if duplicate = false ∧ upload.deviceId = some id then 1 else 0) ∧
      row.bytesBackedUp = old.bytesBackedUp +
        if duplicate = false ∧ upload.deviceId = some id then upload.totalSize else 0 := by
  cases device with
  | none =>
    have there : db.device? id = some row := found
    have foreign : upload.deviceId ≠ some id := fun same =>
      absurd ((matched id same).symm.trans there) nofun
    refine ⟨row, there, ?_, ?_⟩
    · rw [if_neg fun both => foreign both.2, Nat.add_zero]
    · rw [if_neg fun both => foreign both.2, Nat.add_zero]
  | some device =>
    rw [complete_device?] at found
    obtain ⟨old, there, rfl⟩ := Option.map_eq_some_iff.mp found
    have key := (Rows.find?_key there).2
    refine ⟨old, there, ?_⟩
    have own : upload.deviceId = some device.id := matched
    rw [own]
    by_cases same : old.id = device.id
    · rw [if_pos same]
      cases duplicate with
      | true => exact ⟨rfl, rfl⟩
      | false =>
        obtain ⟨files, bytes⟩ := current old (by rw [← same, key]; exact there)
        have named : some device.id = some id := by rw [← same, key]
        rw [if_pos ⟨rfl, named⟩, if_pos ⟨rfl, named⟩, files, bytes]
        exact ⟨rfl, rfl⟩
    · have foreign : some device.id ≠ some id := fun named =>
        same (key.trans (Option.some.inj named).symm)
      rw [if_neg same, if_neg fun both => foreign both.2, if_neg fun both => foreign both.2]
      exact ⟨rfl, rfl⟩

/-- What is behind an entry stays behind it, as long as its session is not written. -/
theorem Backed.moves {entry : Entry} (backed : Backed digest db entry)
    (moves : Moves digest db phase action db' next)
    (finished : db'.finished entry.upload.id = db.finished entry.upload.id) : Backed digest db' entry where
  listed := moves_lists moves backed.listed
  fits := backed.fits
  asset := moves_existing moves backed.asset
  counted known := finished.trans (backed.counted known)
  abandoned known := finished.trans (backed.abandoned known)

theorem persisted_tallied {device : Option Device} {asset : UUID} (tallied : Tallied digest initial s)
    (guarded : Guarded locks (fun _ => True) (Knows digest) t.1)
    (here : s.1.locals label.1 = .published device upload)
    (there : t.1.locals label.1 = .persisted device upload false)
    (others : ∀ q, q ≠ label.1 → t.1.locals q = s.1.locals q)
    (shared : t.1.shared = { s.1.shared with
      assets := s.1.shared.assets ++ [⟨asset, upload.userId, digest upload.id, true⟩] })
    (ledger : t.2 = s.2 ++ [⟨upload, .pending⟩]) : Tallied digest initial t := by
  have knows := tallied.guarded.session label.1
  rw [here] at knows
  obtain ⟨fits, unpublished⟩ := knows.facts
  have listed := knows.listed upload rfl
  have moves : Moves digest s.1.shared (.published device upload) (.persist asset) t.1.shared
      (.persisted device upload false) := by
    rw [shared]
    exact .persisted device upload asset
  have fresh : ∀ entry ∈ s.2, entry.upload.id ≠ upload.id := by
    intro entry member same
    have backed := tallied.backed entry member
    have asset := backed.asset
    rw [same, (backed.listed.same listed same).userId, unpublished] at asset
    contradiction
  refine tallied.append guarded (by rw [here]; rfl) (by rw [there]; rfl) others ledger fresh ?_ ?_
  · intro entry member
    rw [ledger] at member
    rcases List.mem_append.mp member with before | new
    · exact (tallied.backed entry before).moves moves (by rw [shared]; rfl)
    · rw [List.mem_singleton.mp new]
      refine ⟨moves_lists moves listed, fits, ?_, nofun, nofun⟩
      rw [shared, Database.existing, List.find?_append]
      have own : [(⟨asset, upload.userId, digest upload.id, true⟩ : Asset)].find? (fun asset =>
          asset.userId = upload.userId ∧ asset.checksum = digest upload.id ∧ asset.active = true) =
          some ⟨asset, upload.userId, digest upload.id, true⟩ := by
        rw [List.find?_singleton, if_pos (decide_eq_true ⟨rfl, rfl, rfl⟩)]
      rw [own, Option.isSome_or]
      exact Bool.or_true _
  · intro id
    rw [shared]
    rfl

/-- The first request of a session ends with it, and its counters with what was stored. -/
theorem completed_tallied {device : Option Device} {now : Timestamp} (tallied : Tallied digest initial s)
    (guarded : Guarded locks (fun _ => True) (Knows digest) t.1)
    (here : s.1.locals label.1 = .completing device upload false) (there : t.1.locals label.1 = .idle)
    (others : ∀ q, q ≠ label.1 → t.1.locals q = s.1.locals q)
    (shared : t.1.shared = s.1.shared.complete device upload false now)
    (ledger : t.2 = s.2.settle upload.id .counted)
    (current : (Phase.completing device upload false).Current s.1.shared) : Tallied digest initial t := by
  have knows := tallied.guarded.session label.1
  rw [here] at knows
  have moves : Moves digest s.1.shared (.completing device upload false) (.complete now) t.1.shared .idle := by
    rw [shared]
    exact .completed device upload false now
  have settled : Credit.counted ≠ .pending := nofun
  refine tallied.settle guarded (by rw [here]; rfl) (by rw [there]; rfl) others settled ledger ?_ ?_
  · intro entry member
    rw [ledger] at member
    rcases mem_settle member with ⟨old, before, same, rfl⟩ | ⟨before, apart⟩
    · have backed := tallied.backed old before
      refine ⟨moves_lists moves backed.listed, backed.fits, moves_existing moves backed.asset, fun _ => ?_, nofun⟩
      rw [shared, same]
      exact finished_complete_self (knows.listed upload rfl)
    · exact (tallied.backed entry before).moves moves (by rw [shared]; exact finished_complete_other apart)
  · intro id row found
    rw [shared] at found
    obtain ⟨old, before, files, bytes⟩ := complete_device knows.facts.2 current found
    exact ⟨old, before, by simpa using files, by simpa using bytes⟩

/-- A retry ends with the session; the first request goes on or has ended before. -/
theorem retried_tallied {device : Option Device} {now : Timestamp} (tallied : Tallied digest initial s)
    (guarded : Guarded locks (fun _ => True) (Knows digest) t.1)
    (here : s.1.locals label.1 = .completing device upload true) (there : t.1.locals label.1 = .idle)
    (others : ∀ q, q ≠ label.1 → t.1.locals q = s.1.locals q)
    (shared : t.1.shared = s.1.shared.complete device upload true now) (ledger : t.2 = s.2)
    (attended : (Phase.completing device upload true).Attended s.2) : Tallied digest initial t := by
  have knows := tallied.guarded.session label.1
  rw [here] at knows
  have moves : Moves digest s.1.shared (.completing device upload true) (.complete now) t.1.shared .idle := by
    rw [shared]
    exact .completed device upload true now
  refine tallied.keep guarded (fun q => ?_) ledger (fun entry member => ?_) fun id row found => ?_
  · by_cases same : q = label.1
    · rw [same, here, there]
      rfl
    · rw [others q same]
  · have backed := tallied.backed entry member
    by_cases same : entry.upload.id = upload.id
    · refine ⟨moves_lists moves backed.listed, backed.fits, moves_existing moves backed.asset, fun _ => ?_,
        fun lost => absurd lost (attended entry member same)⟩
      rw [shared, same]
      exact finished_complete_self (knows.listed upload rfl)
    · exact backed.moves moves (by rw [shared]; exact finished_complete_other same)
  · rw [shared] at found
    have current : (Phase.completing device upload true).Current s.1.shared := by cases device <;> trivial
    obtain ⟨old, before, files, bytes⟩ := complete_device knows.facts.2 current found
    exact ⟨old, before, by simpa using files, by simpa using bytes⟩

/-- A request that is lost leaves its entry behind. -/
theorem lost_tallied (tallied : Tallied digest initial s)
    (guarded : Guarded locks (fun _ => True) (Knows digest) t.1) (there : t.1.locals label.1 = .idle)
    (others : ∀ q, q ≠ label.1 → t.1.locals q = s.1.locals q) (shared : t.1.shared = s.1.shared)
    (ledger : t.2 = s.2.after .stop (s.1.locals label.1) .idle)
    (opened : (s.1.locals label.1).Open s.1.shared) : Tallied digest initial t := by
  cases owes : (s.1.locals label.1).owes with
  | none =>
    refine tallied.keep guarded (fun q => ?_) ?_ ?_ ?_
    · by_cases same : q = label.1
      · rw [same, there, owes]
        rfl
      · rw [others q same]
    · rw [ledger, Ledger.after, owes]
      rfl
    · rw [shared]
      exact tallied.backed
    · rw [shared]
      exact fun id row found => ⟨row, found, rfl, rfl⟩
  | some upload =>
    have left : t.2 = s.2.settle upload.id .abandoned := by
      rw [ledger, Ledger.after, owes]
      rfl
    have settled : Credit.abandoned ≠ .pending := nofun
    refine tallied.settle guarded owes (by rw [there]; rfl) others settled left ?_ ?_
    · intro entry member
      rw [shared]
      rw [left] at member
      rcases mem_settle member with ⟨old, before, same, rfl⟩ | ⟨before, apart⟩
      · have backed := tallied.backed old before
        refine ⟨backed.listed, backed.fits, backed.asset, nofun, fun _ => ?_⟩
        rw [same]
        exact opened upload owes
      · exact tallied.backed entry before
    · rw [shared]
      exact fun id row found => ⟨row, found, rfl, rfl⟩

theorem step_tallied (tallied : Tallied digest initial s) (regular : Regular s label)
    (stepped : ledgerStep digest s label = some t) : Tallied digest initial t := by
  obtain ⟨moved, history⟩ := noted_iff.mp stepped
  have guarded := step_guarded tallied.guarded moved
  obtain ⟨outcome, chosen, acted⟩ := Option.bind_eq_some_iff.mp moved
  have moves := program_moves (tallied.guarded.session label.1) chosen
  have shared := Store.act_shared acted
  have there : t.1.locals label.1 = outcome.arrival := by
    rw [Store.act_locals acted, Function.update_self]
  have others : ∀ q, q ≠ label.1 → t.1.locals q = s.1.locals q := by
    intro q different
    rw [Store.act_locals acted, Function.update_of_ne different]
  rw [ledgerAfter, there] at history
  rw [← shared, ← there] at moves
  rw [← there] at history
  unfold Regular at regular
  generalize here : s.1.locals label.1 = phase at moves history regular
  generalize there : t.1.locals label.1 = next at moves history
  generalize stored : t.1.shared = db' at moves
  generalize acting : label.2 = action at moves history regular
  cases moves with
  | quiet point next action staged owes =>
    have kept := history.trans (after_kept owes)
    refine tallied.keep guarded (fun q => ?_) kept ?_ ?_
    · by_cases same : q = label.1
      · rw [same, here, there, owes]
      · rw [others q same]
    · rw [stored]
      intro entry member
      have backed := tallied.backed entry member
      exact ⟨backed.listed, backed.fits, backed.asset, backed.counted, backed.abandoned⟩
    · rw [stored]
      exact fun id row found => ⟨row, found, rfl, rfl⟩
  | updated point next action id change nothing owes spares =>
    have kept := history.trans (after_kept (owes.trans nothing.symm))
    refine tallied.keep guarded (fun q => ?_) kept ?_ ?_
    · by_cases same : q = label.1
      · rw [same, here, there, owes, nothing]
      · rw [others q same]
    · rw [stored]
      intro entry member
      have backed := tallied.backed entry member
      exact backed.moves (.updated phase next action id change nothing owes spares)
        (finished_setUpload spares backed.listed backed.fits)
    · rw [stored]
      exact fun id row found => ⟨row, found, rfl, rfl⟩
  | persisted device upload asset =>
    exact persisted_tallied tallied guarded here there others stored history
  | completed device upload duplicate now =>
    cases duplicate with
    | false => exact completed_tallied tallied guarded here there others stored history regular.1
    | true => exact retried_tallied tallied guarded here there others stored history regular.2
  | lost =>
    rw [← here] at history regular
    exact lost_tallied tallied guarded there others stored history regular

end Steps

/-- When no request is on its way, every entry is settled. -/
theorem originals_of_idle {initial : Database} {s : Service × Ledger} (tallied : Tallied digest initial s)
    (idle : ∀ r, s.1.locals r = .idle) (device : UUID) : originals s.1.shared s.2 device =
      (s.2.filter fun entry => entry.credit = .counted ∧ entry.upload.deviceId = some device).map (·.upload) := by
  rw [originals, List.filter_map]
  congr 1
  refine List.filter_congr fun entry member => ?_
  have backed := tallied.backed entry member
  simp only [Function.comp_apply]
  cases credit : entry.credit with
  | pending =>
    obtain ⟨r, owes⟩ := tallied.pending entry member credit
    rw [idle r] at owes
    contradiction
  | counted => simp [backed.counted credit]
  | abandoned => simp [backed.abandoned credit]

/-- A tally is a sum over the entries that were counted. -/
theorem tally_eq (measure : UploadSession → Nat) (device : UUID) (ledger : Ledger) :
    tally measure device ledger = (((ledger.filter fun entry => entry.credit = .counted ∧
      entry.upload.deviceId = some device).map (·.upload)).map measure).sum := by
  induction ledger with
  | nil => rfl
  | cons entry rest ih =>
    rw [tally] at ih ⊢
    rw [List.map_cons, List.sum_cons, ih]
    by_cases own : entry.credit = .counted ∧ entry.upload.deviceId = some device
    · rw [if_pos own, List.filter_cons_of_pos (by simpa using own)]
      rfl
    · rw [if_neg own, List.filter_cons_of_neg (by simpa using own), Nat.zero_add]

theorem sum_ones (rows : List UploadSession) : (rows.map fun _ => 1).sum = rows.length := by
  induction rows with
  | nil => rfl
  | cons row rest ih => rw [List.map_cons, List.sum_cons, ih, List.length_cons, Nat.add_comm]

theorem tallied_counts {initial : Database} {s : Service × Ledger} (tallied : Tallied digest initial s)
    (idle : ∀ r, s.1.locals r = .idle) : Counts initial s := by
  intro id row found
  obtain ⟨first, known, files, bytes⟩ := tallied.devices id row found
  rw [tally_eq] at files bytes
  rw [originals_of_idle tallied idle]
  rw [sum_ones] at files
  exact ⟨first, known, files, bytes⟩

/-- A request that takes no step stays where it is. -/
theorem run_locals {labels : List (Nat × Action)} {s t : Service × Ledger} {r : Nat}
    (reached : run (ledgerStep digest) s labels = some t) (absent : ∀ label ∈ labels, label.1 ≠ r) :
    t.1.locals r = s.1.locals r := by
  induction labels generalizing s with
  | nil =>
    cases reached
    rfl
  | cons label rest ih =>
    obtain ⟨middle, stepped, following⟩ := run_cons_iff.mp reached
    obtain ⟨moved, _⟩ := noted_iff.mp stepped
    obtain ⟨outcome, _, acted⟩ := Option.bind_eq_some_iff.mp moved
    rw [ih following fun other member => absent other (List.mem_cons_of_mem label member),
      Store.act_locals acted, Function.update_of_ne (absent label List.mem_cons_self).symm]

theorem start_tallied (db : Database) : Tallied digest db (start db, []) := by
  refine ⟨Guarded.idle trivial idle_knows (fun _ never => never) fun _ never => never, nofun, List.nodup_nil,
    nofun, nofun, nofun, fun id row found => ⟨row, found, rfl, rfl⟩⟩

/-- Every request that has taken a step is over. -/
def Over (labels : List (Nat × Action)) (t : Service × Ledger) : Prop :=
  ∀ label ∈ labels, t.1.locals label.1 = .idle

instance (labels : List (Nat × Action)) (t : Service × Ledger) : Decidable (Over labels t) :=
  inferInstanceAs (Decidable (∀ label ∈ labels, t.1.locals label.1 = .idle))

/-- In every run in which the counters of a device are written on top of what is stored, no
session is completed by a retry whose first request was lost, and no first request is lost
after a retry has completed its session, the counters of every device have grown by the
number and the size of its completed sessions whose content was new, whenever all requests
are settled. -/
theorem counters_count_originals (digest : UUID → String) (db : Database) (labels : List (Nat × Action))
    {t : Service × Ledger} (regular : Along (ledgerStep digest) Regular (start db, []) labels)
    (reached : run (ledgerStep digest) (start db, []) labels = some t) (settled : Over labels t) :
    Counts db t := by
  have tallied : Tallied digest db t := by
    refine invariant (I := Tallied digest db) ?_ (start_tallied db) regular reached
    exact fun _ _ _ tallied regular stepped => step_tallied tallied regular stepped
  refine tallied_counts tallied fun r => ?_
  by_cases acts : ∃ label ∈ labels, label.1 = r
  · obtain ⟨label, member, rfl⟩ := acts
    exact settled label member
  · exact run_locals reached fun label member same => acts ⟨label, member, same⟩

/-- Two photos of one phone, all of whose bytes are still to come. -/
def twoPhotos : Database where
  accounts := [1]
  devices := [⟨7, 1, "T", none, 4, 100⟩]
  uploads := [⟨11, 1, some 7, 5, 0, none, .active, 900⟩, ⟨12, 1, some 7, 6, 0, none, .active, 900⟩]
  staged := [11, 12]
  assets := []

def contents (id : UUID) : String := if id = 11 then "a" else "b"

/-- A PATCH up to the commit of its asset. -/
def publishing (r : Nat) (upload : UUID) (size : Nat) (asset : UUID) : List (Nat × Action) :=
  [(r, .receive (.deviceToken "T") ⟨upload, 0⟩), (r, .flushSeen), (r, .shareOwner), (r, .lockUpload),
    (r, .append size 10), (r, .hash), (r, .lockOwner), (r, .publish), (r, .persist asset)]

def committing (r : Nat) : List (Nat × Action) := [(r, .flushDevice), (r, .flushUpload), (r, .complete 20)]

def oneByOne : List (Nat × Action) :=
  publishing 1 11 5 31 ++ [(1, .loadDevice false)] ++ committing 1 ++
    (publishing 2 12 6 32 ++ [(2, .loadDevice false)] ++ committing 2)

/-- Both load the device before one of them commits. -/
def together : List (Nat × Action) :=
  publishing 1 11 5 31 ++ publishing 2 12 6 32 ++ [(1, .loadDevice false), (2, .loadDevice false)] ++
    committing 1 ++ committing 2

theorem uploads_one_by_one_are_counted : ∃ t, run (ledgerStep contents) (start twoPhotos, []) oneByOne = some t ∧
    t.1.shared.device? 7 = some ⟨7, 1, "T", some 20, 6, 111⟩ ∧ Counts twoPhotos t := by
  have ends : (run (ledgerStep contents) (start twoPhotos, []) oneByOne).any (fun t => t.1.shared.device? 7 =
      some ⟨7, 1, "T", some 20, 6, 111⟩ ∧ Over oneByOne t) = true := by decide +kernel
  obtain ⟨t, reached, both⟩ := (Option.any_eq_true _ _).mp ends
  obtain ⟨device, settled⟩ := of_decide_eq_true both
  exact ⟨t, reached, device, counters_count_originals contents twoPhotos oneByOne (by decide +kernel) reached settled⟩

/-- Two new photos, and one more file. -/
theorem uploads_together_lose_a_count : ¬ ∀ (digest : UUID → String) (db : Database)
    (labels : List (Nat × Action)) (t : Service × Ledger),
    run (ledgerStep digest) (start db, []) labels = some t → Over labels t → Counts db t := by
  intro always
  have ends : (run (ledgerStep contents) (start twoPhotos, []) together).any (fun t => t.1.shared.device? 7 =
      some ⟨7, 1, "T", some 20, 5, 106⟩ ∧ Over together t ∧ (originals t.1.shared t.2 7).length = 2) = true := by
    decide +kernel
  obtain ⟨t, reached, all⟩ := (Option.any_eq_true _ _).mp ends
  obtain ⟨device, settled, two⟩ := of_decide_eq_true all
  obtain ⟨first, known, files, _⟩ := always contents twoPhotos together t reached settled 7 _ device
  cases known
  rw [two] at files
  contradiction

end Drivebound.Devices
