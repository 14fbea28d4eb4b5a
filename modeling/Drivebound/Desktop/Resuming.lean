import Drivebound.Core.Effects
import Drivebound.Desktop.Client

/-! `resume_or_create` of `tools/drivebound_sync.py` against the endpoints of the upload sessions.
A run may be interrupted before each request and before each save of the state; the next run has
what was saved. -/
namespace Drivebound.Desktop.Resuming
open Effects

/-! ### The server -/

structure UploadSession where
  offset : Nat
  totalSize : Nat
  status : UploadStatus
  deriving DecidableEq

/-- The upload sessions of an account, and the checksums of its active assets. -/
structure Server where
  sessions : UUID → Option UploadSession
  assets : List String

/-- What a PATCH meets. -/
inductive Fortune where
  | fine
  /-- `expires_at` has passed. -/
  | late
  /-- The staged bytes do not have the declared checksum. -/
  | mismatched
  /-- All bytes are there, and the asset cannot be saved. -/
  | unsaved
  deriving DecidableEq

inductive Request where
  | head (id : UUID)
  /-- A POST, with the session that it has created where the file was not there already. -/
  | create (id : Option UUID)
  | patch (id : UUID) (offset count : Nat)
  deriving DecidableEq

inductive Failure where
  | interrupted
  /-- `HTTPError` -/
  | http (status : Nat)
  /-- `Upload did not return an asset for …` -/
  | noAsset
  deriving DecidableEq

/-! ### A run -/

structure World where
  server : Server
  /-- The state file. -/
  saved : ClientState
  memory : ClientState
  /-- `upload_id` and `pending_fingerprint` in the dict of a file that is not tracked. -/
  loose : Option UUID × Option Fingerprint
  requests : List Request
  /-- The steps before the run is interrupted, where it is. -/
  left : Option Nat
  fortunes : List Fortune
  /-- The identifiers that the server draws. -/
  drawn : List UUID

abbrev Client := Act World Failure

/-- What the client knows of a session; `asset` tells whether the answer has one. -/
structure Upload where
  id : UUID
  offset : Nat
  asset : Bool
  duplicate : Bool
  deriving DecidableEq

/-- An upload: the file, the item that it is tracked as, and the sizes of the chunks. -/
structure Job where
  sha256 : List UInt8 → String
  file : LocalFile
  tracked : Option UUID
  /-- `--chunk-size` -/
  chunkSize : Nat
  /-- `resumable_chunk_size` of the server. -/
  serverChunkSize : Nat

def tick : Client Unit := do
  let w ← get
  match w.left with
  | none => pure ()
  | some 0 => throw .interrupted
  | some (n + 1) => set { w with left := some n }

def log (request : Request) : Client Unit := modify fun w => { w with requests := w.requests ++ [request] }

def fortune : Client Fortune := do
  let w ← get
  match w.fortunes with
  | [] => pure .fine
  | next :: later =>
    set { w with fortunes := later }
    pure next

def storeSession (id : UUID) (session : UploadSession) : Client Unit :=
  modify fun w => { w with server := { w.server with sessions := Function.update w.server.sessions id (some session) } }

/-- `upload_status` -/
def head (id : UUID) : Client Nat := do
  tick
  log (.head id)
  match (← get).server.sessions id with
  | none => throw (.http 404)
  | some session => pure session.offset

/-- `create_upload` -/
def create (checksum : String) (totalSize : Nat) : Client Upload := do
  tick
  let w ← get
  if checksum ∈ w.server.assets then
    log (.create none)
    pure ⟨w.drawn.headD 0, totalSize, true, true⟩
  else
    let id := w.drawn.headD 0
    log (.create (some id))
    modify fun w => { w with drawn := w.drawn.tail }
    storeSession id ⟨0, totalSize, .active⟩
    pure ⟨id, 0, false, false⟩

/-- The end of `append_upload`, with all bytes there. -/
def finalize (checksum : String) (id : UUID) (session : UploadSession) : Fortune → Client Upload
  | .mismatched => do
    storeSession id { session with status := .failed }
    throw (.http 422)
  | .unsaved => throw (.http 503)
  | _ => do
    storeSession id { session with status := .complete }
    modify fun w => { w with server := { w.server with assets := checksum :: w.server.assets } }
    pure ⟨id, session.offset, true, false⟩

/-- `append_upload` -/
def patch (checksum : String) (id : UUID) (offset count : Nat) : Client Upload := do
  tick
  log (.patch id offset count)
  match (← get).server.sessions id with
  | none => throw (.http 404)
  | some session =>
    if session.status ≠ .active then throw (.http 409)
    else
      let met ← fortune
      if met = .late then
        storeSession id { session with status := .expired }
        throw (.http 410)
      else if offset ≠ session.offset then throw (.http 409)
      else if session.offset < session.totalSize ∧ session.totalSize < session.offset + count then throw (.http 413)
      else if session.offset < session.totalSize ∧ count = 0 then throw (.http 400)
      else
        let session :=
          if session.offset < session.totalSize then { session with offset := session.offset + count } else session
        storeSession id session
        if session.offset < session.totalSize then pure ⟨id, session.offset, false, false⟩
        else finalize checksum id session met

/-! ### The client -/

/-- `save_state` -/
def saveState : Client Unit := do
  tick
  modify fun w => { w with saved := w.memory }

/-- `upload_id` and `pending_fingerprint` of the entry. -/
def World.pending (w : World) : Option UUID → Option UUID × Option Fingerprint
  | none => w.loose
  | some id =>
    match w.memory.entries.get? id with
    | none => (none, none)
    | some entry => (entry.uploadId, entry.pendingFingerprint)

/-- Only the entry of a tracked file is part of the state. -/
def World.setPending (w : World) (uploadId : Option UUID) (pending : Option Fingerprint) : Option UUID → World
  | none => { w with loose := (uploadId, pending) }
  | some id =>
    match w.memory.entries.get? id with
    | none => w
    | some entry =>
      { w with
        memory := { w.memory with
          entries := w.memory.entries.set id { entry with uploadId, pendingFingerprint := pending } } }

section Upload
variable (job : Job)

/-- `while offset < path.stat().st_size`: every passage sends at least one byte. -/
def sendChunks (chunkSize : Nat) (current : Fingerprint) (id : UUID) : Nat → Nat → Upload → Client Upload
  | 0, _, upload => pure upload
  | fuel + 1, offset, upload =>
    if offset < job.file.content.length then do
      let result ← patch (job.sha256 job.file.content) id offset (min chunkSize (job.file.content.length - offset))
      modify fun w => w.setPending (some id) (some current) job.tracked
      saveState
      sendChunks chunkSize current id fuel result.offset
        (if result.offset = job.file.content.length then result else upload)
    else pure upload

/-- The session of the last attempt, where the file is still the one that it was begun for. -/
def resume (current : Fingerprint) : Client (Option Upload) := do
  match (← get).pending job.tracked with
  | (some id, pending) =>
    if pending = some current then
      tryCatchThe Failure (do
        let offset ← head id
        pure (some ⟨id, offset, false, false⟩)) fun
        | .http _ => do
          modify fun w => w.setPending none pending job.tracked
          pure none
        | failure => throw failure
    else pure none
  | _ => pure none

def resumeOrCreate : Client (Upload × Fingerprint) := do
  let current := job.file.fingerprint none
  match ← resume job current with
  | some upload =>
    let upload ← sendChunks job job.chunkSize current upload.id job.file.content.length upload.offset upload
    pure (upload, current)
  | none =>
    let checksum := job.sha256 job.file.content
    let upload ← create checksum job.file.content.length
    let current := { current with checksum := some checksum }
    if upload.duplicate then pure (upload, current)
    else
      modify fun w => w.setPending (some upload.id) (some current) job.tracked
      saveState
      let upload ← sendChunks job job.serverChunkSize current upload.id job.file.content.length upload.offset upload
      pure (upload, current)

/-- What `local_changes` does with the upload of a file. -/
def uploadFile : Client (Upload × Fingerprint) := do
  let (upload, fingerprint) ← resumeOrCreate job
  if upload.asset then pure (upload, fingerprint) else throw .noAsset

end Upload

/-- What a run meets: the server, and how long it is let run. -/
structure Circumstances where
  server : Server
  left : Option Nat
  fortunes : List Fortune
  drawn : List UUID

/-- The upload in a run of the client whose state file and memory are these. -/
def runUpload (job : Job) (met : Circumstances) (saved memory : ClientState) :
    Except Failure (Upload × Fingerprint) × World :=
  (uploadFile job).run.run ⟨met.server, saved, memory, (none, none), [], met.left, met.fortunes, met.drawn⟩

/-! ### What is stored of an upload -/

/-- Every fingerprint of an upload that was stored has the checksum. -/
def Complete (state : ClientState) : Prop :=
  ∀ tracked ∈ state.entries, ∀ print ∈ tracked.2.pendingFingerprint, print.checksum.isSome = true

/-- In a run nothing else is stored, and no session is asked for. -/
structure Unasked (w : World) : Prop where
  saved : Complete w.saved
  memory : Complete w.memory
  loose : ∀ print ∈ w.loose.2, print.checksum.isSome = true
  requests : ∀ id, .head id ∉ w.requests

theorem Unasked.setPending {w : World} (unasked : Unasked w) (uploadId : Option UUID) {print : Fingerprint}
    (whole : print.checksum.isSome = true) (tracked : Option UUID) :
    Unasked (w.setPending uploadId (some print) tracked) := by
  unfold World.setPending
  cases tracked with
  | none => exact ⟨unasked.saved, unasked.memory, fun other same => Option.some.inj same ▸ whole, unasked.requests⟩
  | some id =>
    dsimp only
    cases w.memory.entries.get? id with
    | none => exact unasked
    | some entry =>
      refine ⟨unasked.saved, fun tracked member other same => ?_, unasked.loose, unasked.requests⟩
      rcases Dict.mem_set member with rfl | before
      · exact Option.some.inj same ▸ whole
      · exact unasked.memory tracked before other same

theorem Unasked.pending {w : World} (unasked : Unasked w) (tracked : Option UUID) :
    ∀ print ∈ (w.pending tracked).2, print.checksum.isSome = true := by
  unfold World.pending
  cases tracked with
  | none => exact unasked.loose
  | some id =>
    dsimp only
    cases found : w.memory.entries.get? id with
    | none => exact fun print none_ => absurd none_ (Option.not_mem_none print)
    | some entry => exact unasked.memory _ (Dict.get?_mem found)

/-- A program that keeps it so, however it ends. -/
def Keeps {α : Type} (act : Client α) : Prop := Does Unasked act (fun _ => Unasked) (fun _ => Unasked)

theorem keeps_bind {α β : Type} {act : Client α} {next : α → Client β} (first : Keeps act)
    (later : ∀ a, Keeps (next a)) : Keeps (act >>= next) := Does.bind first later

theorem keeps_pure {α : Type} (a : α) : Keeps (pure a : Client α) := Does.pure fun _ unasked => unasked

theorem keeps_throw {α : Type} (failure : Failure) : Keeps (throw failure : Client α) :=
  Does.throw fun _ unasked => unasked

theorem keeps_get : Keeps (get : Client World) := Does.get fun _ unasked => unasked

theorem keeps_modify {f : World → World} (keeps : ∀ w, Unasked w → Unasked (f w)) : Keeps (modify f : Client Unit) :=
  Does.modify keeps

theorem keeps_ite {α : Type} {c : Prop} [Decidable c] {yes no : Client α} (first : Keeps yes) (second : Keeps no) :
    Keeps (if c then yes else no) := Does.ite (fun _ => first) fun _ => second

/-- What is read of the world before it is written back. -/
theorem keeps_read {α : Type} {next : World → Client α}
    (later : ∀ w, Unasked w → Does (· = w) (next w) (fun _ => Unasked) (fun _ => Unasked)) :
    Keeps (get >>= next : Client α) := by
  refine Does.bind (Q := fun w t => Unasked w ∧ t = w) (Does.get fun w unasked => ⟨unasked, rfl⟩) fun w => ?_
  exact Does.pull (later w)

theorem keeps_tick : Keeps tick := by
  refine keeps_read fun w unasked => ?_
  cases w.left with
  | none => exact Does.pure fun t same => same ▸ unasked
  | some n =>
    cases n with
    | zero => exact Does.throw fun t same => same ▸ unasked
    | succ n => exact Does.set fun _ _ => ⟨unasked.saved, unasked.memory, unasked.loose, unasked.requests⟩

theorem keeps_fortune : Keeps fortune := by
  refine keeps_read fun w unasked => ?_
  cases w.fortunes with
  | nil => exact Does.pure fun t same => same ▸ unasked
  | cons next later =>
    refine Does.bind (Q := fun _ => Unasked) (Does.set fun _ _ => ?_) fun _ => keeps_pure _
    exact ⟨unasked.saved, unasked.memory, unasked.loose, unasked.requests⟩

theorem keeps_log {request : Request} (other : ∀ id, request ≠ .head id) : Keeps (log request) := by
  refine keeps_modify fun w unasked => ⟨unasked.saved, unasked.memory, unasked.loose, fun id member => ?_⟩
  rcases List.mem_append.mp member with before | new
  · exact unasked.requests id before
  · exact other id (List.mem_singleton.mp new).symm

theorem keeps_storeSession (id : UUID) (session : UploadSession) : Keeps (storeSession id session) :=
  keeps_modify fun _ unasked => ⟨unasked.saved, unasked.memory, unasked.loose, unasked.requests⟩

theorem keeps_saveState : Keeps saveState :=
  keeps_bind keeps_tick fun _ =>
    keeps_modify fun _ unasked => ⟨unasked.memory, unasked.memory, unasked.loose, unasked.requests⟩

theorem keeps_create (checksum : String) (totalSize : Nat) : Keeps (create checksum totalSize) := by
  refine keeps_bind keeps_tick fun _ => keeps_bind keeps_get fun w => keeps_ite ?_ ?_
  · exact keeps_bind (keeps_log fun id same => nomatch same) fun _ => keeps_pure _
  · refine keeps_bind (keeps_log fun id same => nomatch same) fun _ => keeps_bind (keeps_modify ?_) fun _ =>
      keeps_bind (keeps_storeSession _ _) fun _ => keeps_pure _
    exact fun _ unasked => ⟨unasked.saved, unasked.memory, unasked.loose, unasked.requests⟩

theorem keeps_finalize (checksum : String) (id : UUID) (session : UploadSession) (met : Fortune) :
    Keeps (finalize checksum id session met) := by
  have saved : Keeps (do
      storeSession id { session with status := .complete }
      modify fun w => { w with server := { w.server with assets := checksum :: w.server.assets } }
      pure (⟨id, session.offset, true, false⟩ : Upload)) := by
    refine keeps_bind (keeps_storeSession _ _) fun _ => keeps_bind (keeps_modify ?_) fun _ => keeps_pure _
    exact fun _ unasked => ⟨unasked.saved, unasked.memory, unasked.loose, unasked.requests⟩
  cases met with
  | fine => exact saved
  | late => exact saved
  | mismatched => exact keeps_bind (keeps_storeSession _ _) fun _ => keeps_throw _
  | unsaved => exact keeps_throw _

theorem keeps_patch (checksum : String) (id : UUID) (offset count : Nat) : Keeps (patch checksum id offset count) := by
  refine keeps_bind keeps_tick fun _ => keeps_bind (keeps_log fun id same => nomatch same) fun _ =>
    keeps_bind keeps_get fun w => ?_
  cases w.server.sessions id with
  | none => exact keeps_throw _
  | some session =>
    refine keeps_ite (keeps_throw _) (keeps_bind keeps_fortune fun met => ?_)
    refine keeps_ite (keeps_bind (keeps_storeSession _ _) fun _ => keeps_throw _) (keeps_ite (keeps_throw _) ?_)
    refine keeps_ite (keeps_throw _) (keeps_ite (keeps_throw _) ?_)
    exact keeps_bind (keeps_storeSession _ _) fun _ => keeps_ite (keeps_pure _) (keeps_finalize _ _ _ _)

theorem keeps_sendChunks {job : Job} {chunkSize : Nat} {current : Fingerprint} (whole : current.checksum.isSome = true)
    (id : UUID) (fuel offset : Nat) (upload : Upload) :
    Keeps (sendChunks job chunkSize current id fuel offset upload) := by
  induction fuel generalizing offset upload with
  | zero => exact keeps_pure _
  | succ fuel ih =>
    refine keeps_ite (keeps_bind (keeps_patch _ _ _ _) fun result => ?_) (keeps_pure _)
    refine keeps_bind (keeps_modify fun w unasked => unasked.setPending _ whole _) fun _ => ?_
    exact keeps_bind keeps_saveState fun _ => ih _ _

/-- A stored fingerprint has a checksum and the one it is compared with has none. -/
theorem resume_none (job : Job) : Does Unasked (resume job (job.file.fingerprint none))
    (fun resumed w => resumed = none ∧ Unasked w) (fun _ => Unasked) := by
  refine Does.bind (Q := fun w t => Unasked w ∧ t = w) (Does.get fun w unasked => ⟨unasked, rfl⟩) fun w => ?_
  refine Does.pull fun unasked => ?_
  have whole := unasked.pending job.tracked
  generalize w.pending job.tracked = pending at whole
  obtain ⟨id, print⟩ := pending
  cases id with
  | none => exact Does.pure fun t same => ⟨rfl, same ▸ unasked⟩
  | some id =>
    refine Does.ite (fun same => ?_) fun _ => Does.pure fun t same => ⟨rfl, same ▸ unasked⟩
    exact absurd (whole _ same) Bool.false_ne_true

theorem keeps_resumeOrCreate (job : Job) : Keeps (resumeOrCreate job) := by
  refine Does.bind (resume_none job) fun resumed => Does.pull ?_
  rintro rfl
  refine keeps_bind (keeps_create _ _) fun upload => keeps_ite (keeps_pure _) ?_
  refine keeps_bind (keeps_modify fun w unasked => unasked.setPending _ rfl _) fun _ => ?_
  exact keeps_bind keeps_saveState fun _ => keeps_bind (keeps_sendChunks rfl _ _ _ _) fun _ => keeps_pure _

theorem keeps_uploadFile (job : Job) : Keeps (uploadFile job) :=
  keeps_bind (keeps_resumeOrCreate job) fun _ => keeps_ite (keeps_pure _) (keeps_throw _)

/-! ### Interrupted runs -/

/-- A change of the state that begins no upload: each entry is from before, or has no upload. -/
def Works (before after : ClientState) : Prop :=
  ∀ tracked ∈ after.entries, tracked.2.pendingFingerprint = none ∨ tracked ∈ before.entries

/-- The state files and the states in memory of a client, whose runs may end at every point. -/
inductive Reached : ClientState → ClientState → Prop
  /-- `state_template` -/
  | template (clientId : String) (root : Option UUID) :
      Reached ⟨clientId, root, 0, [], [], []⟩ ⟨clientId, root, 0, [], [], []⟩
  | load {saved memory : ClientState} : Reached saved memory → Reached saved saved
  /-- What a pull or the answer of a push makes of the state. -/
  | work {saved memory after : ClientState} : Reached saved memory → Works memory after → Reached saved after
  | save {saved memory : ClientState} : Reached saved memory → Reached memory memory
  | upload {saved memory : ClientState} (job : Job) (met : Circumstances) : Reached saved memory →
      Reached (runUpload job met saved memory).2.saved (runUpload job met saved memory).2.memory

theorem works_pop (state : ClientState) (logicalId : UUID) :
    Works state { state with entries := state.entries.pop logicalId } :=
  fun _ member => .inr (Dict.mem_pop member)

theorem works_finishPull (state : ClientState) (cursor : Nat) (conflicts : List UUID) :
    Works state (state.finishPull cursor conflicts) := fun _ member => .inr member

theorem works_recordDownload {π : Type} (env : Env π) (state : ClientState) (operation : Sync.SyncOperation)
    (relativePath : String) (file : LocalFile) :
    Works state (state.recordDownload env operation relativePath file) := by
  intro tracked member
  rcases Dict.mem_set member with rfl | before
  · exact .inl rfl
  · exact .inr before

theorem works_acknowledgeOne (proposed : Dict UUID Proposal) (state : ClientState) (operation : Sync.SyncOperation) :
    Works state (acknowledgeOne proposed state operation) := by
  intro tracked member
  unfold acknowledgeOne at member
  generalize proposed.get? operation.operationId = proposal at member
  cases proposal with
  | none => exact .inr member
  | some proposal =>
    dsimp only at member
    split at member
    · exact .inr member
    · cases proposal with
      | delete logicalId => exact works_pop state logicalId tracked member
      | move logicalId entry | upsert logicalId entry =>
        rcases Dict.mem_set member with rfl | before
        · exact .inl rfl
        · exact .inr before

theorem works_applyPushResult (state : ClientState) (operations : List Sync.SyncOperationInput)
    (proposed : Dict UUID Proposal) (result : PushResult) :
    Works state (applyPushResult state operations proposed result) := by
  have all : ∀ (answers : List Sync.SyncOperation) (state : ClientState),
      Works state (answers.foldl (acknowledgeOne proposed) state) := by
    intro answers
    induction answers with
    | nil => exact fun _ _ member => .inr member
    | cons operation rest ih =>
      intro state tracked member
      rcases ih (acknowledgeOne proposed state operation) tracked member with blank | middle
      · exact .inl blank
      · exact works_acknowledgeOne proposed state operation tracked middle
  exact all result.operations state

/-- A run of an upload, from and to what is complete. -/
theorem runUpload_unasked (job : Job) (met : Circumstances) {saved memory : ClientState} (first : Complete saved)
    (second : Complete memory) : Unasked (runUpload job met saved memory).2 := by
  have start : Unasked ⟨met.server, saved, memory, (none, none), [], met.left, met.fortunes, met.drawn⟩ :=
    ⟨first, second, fun print none_ => absurd none_ (Option.not_mem_none print), fun _ => List.not_mem_nil⟩
  have ended := keeps_uploadFile job _ start
  unfold runUpload
  generalize (uploadFile job).run.run
    ⟨met.server, saved, memory, (none, none), [], met.left, met.fortunes, met.drawn⟩ = result at ended
  obtain ⟨value, w⟩ := result
  cases value <;> exact ended

theorem Reached.complete {saved memory : ClientState} (reached : Reached saved memory) :
    Complete saved ∧ Complete memory := by
  induction reached with
  | template clientId root => exact ⟨fun _ none_ => absurd none_ List.not_mem_nil, fun _ none_ => absurd none_ List.not_mem_nil⟩
  | load _ ih => exact ⟨ih.1, ih.1⟩
  | work _ works ih =>
    refine ⟨ih.1, fun tracked member print same => ?_⟩
    rcases works tracked member with blank | before
    · rw [blank] at same
      exact absurd same (Option.not_mem_none print)
    · exact ih.2 tracked before print same
  | save _ ih => exact ⟨ih.2, ih.2⟩
  | upload job met _ ih =>
    have unasked := runUpload_unasked job met ih.1 ih.2
    exact ⟨unasked.saved, unasked.memory⟩

/-- The session that the bytes of a run went to, created by it or asked for. -/
def Used (requests : List Request) (id : UUID) : Prop := .create (some id) ∈ requests ∨ .head id ∈ requests

/-- A run goes on with a session: it asks for its offset, sends nothing but what is missing, and
gets an asset. -/
structure Resumes (id : UUID) (session : UploadSession) (run : Except Failure (Upload × Fingerprint) × World) :
    Prop where
  asset : ∃ upload print, run.1 = .ok (upload, print)
  asks : .head id ∈ run.2.requests
  missing : ∀ request ∈ run.2.requests, request = .head id ∨
    ∃ start count, request = .patch id start count ∧ session.offset ≤ start ∧ start + count ≤ session.totalSize

/-- The run after an interrupted one goes on with its session, should it be active still. -/
def GoesOn (interrupted next : Except Failure (Upload × Fingerprint) × World) (server : Server) : Prop :=
  ∀ id session, Used interrupted.2.requests id → server.sessions id = some session → session.status = .active →
    Resumes id session next

theorem Works.complete {before after : ClientState} (works : Works before after) (whole : Complete before) :
    Complete after := by
  intro tracked member print same
  rcases works tracked member with blank | kept
  · rw [blank] at same
    exact absurd same (Option.not_mem_none print)
  · exact whole tracked kept print same

/-- Wherever a run is interrupted, and whatever the next one pulls before it comes to the file, it
does what is promised exactly when there is no session to go on with: it goes on with none. -/
theorem next_run_goes_on_iff {job : Job} {first second : Circumstances} {saved memory loaded : ClientState}
    (reached : Reached saved memory) (works : Works (runUpload job first saved memory).2.saved loaded) :
    GoesOn (runUpload job first saved memory)
        (runUpload job second (runUpload job first saved memory).2.saved loaded) second.server ↔
      ∀ id session, Used (runUpload job first saved memory).2.requests id →
        second.server.sessions id = some session → session.status ≠ .active := by
  have stored := (Reached.upload job first reached).complete.1
  have unasked := runUpload_unasked job second stored (works.complete stored)
  constructor
  · intro goes id session used found active
    exact unasked.requests id (goes id session used found active).asks
  · intro ended id session used found active
    exact absurd active (ended id session used found)

/-! ### Two runs of a file of eight bytes -/

def sampleState : ClientState where
  clientId := "2c1f6a52-7b1e-4a53-9a38-51a0a3b7f6aa"
  rootId := none
  cursor := 0
  entries := [(7, { relativePath := "a", revision := none, fingerprint := ⟨0, 0, none⟩ })]
  conflicts := []
  recentOperations := []

def sampleJob : Job where
  sha256 _ := "b3d92eab795159bb58986d0617fcb13c724d145208c1b0dea8133ef1d9428428"
  file := ⟨[98, 97, 99, 107, 45, 117, 112, 10], 5⟩
  tracked := some 7
  chunkSize := 4
  serverChunkSize := 4

/-- A run from here, ended after some steps. -/
def firstRun (left : Option Nat) : Except Failure (Upload × Fingerprint) × World :=
  runUpload sampleJob ⟨⟨fun _ => none, []⟩, left, [], [1]⟩ sampleState sampleState

theorem sampleState_reached : ∃ template, Reached template sampleState := by
  refine ⟨_, .work (.template "2c1f6a52-7b1e-4a53-9a38-51a0a3b7f6aa" none) fun tracked member => ?_⟩
  rw [List.mem_singleton.mp member]
  exact .inl rfl

/-- After a run that was not interrupted there is no session left. -/
theorem next_run_goes_on_finished :
    GoesOn (firstRun none)
      (runUpload sampleJob ⟨(firstRun none).2.server, none, [], [2]⟩ (firstRun none).2.saved (firstRun none).2.saved)
      (firstRun none).2.server := by
  obtain ⟨template, reached⟩ := sampleState_reached
  refine (next_run_goes_on_iff reached.save fun _ member => .inr member).mpr ?_
  intro id session used found active
  have sent : (firstRun none).2.requests = [.create (some 1), .patch 1 0 4, .patch 1 4 4] := by decide +kernel
  have complete : (firstRun none).2.server.sessions 1 = some ⟨8, 8, .complete⟩ := by decide +kernel
  have only : id = 1 := by
    change Used (firstRun none).2.requests id at used
    rw [sent] at used
    simpa [Used] using used
  subst only
  cases complete.symm.trans found
  cases active

/-- The first chunk is there and the state is saved; the next run begins anew. -/
theorem next_run_begins_anew :
    ¬GoesOn (firstRun (some 4))
      (runUpload sampleJob ⟨(firstRun (some 4)).2.server, none, [], [2]⟩ (firstRun (some 4)).2.saved
        (firstRun (some 4)).2.saved)
      (firstRun (some 4)).2.server := by
  intro goes
  have resumes := goes 1 ⟨4, 8, .active⟩ (.inl (by decide +kernel)) (by decide +kernel) rfl
  have anew : (runUpload sampleJob ⟨(firstRun (some 4)).2.server, none, [], [2]⟩ (firstRun (some 4)).2.saved
      (firstRun (some 4)).2.saved).2.requests = [.create (some 2), .patch 2 0 4, .patch 2 4 4] := by decide +kernel
  have asks := resumes.asks
  rw [anew] at asks
  exact absurd asks (by decide)

end Drivebound.Desktop.Resuming
