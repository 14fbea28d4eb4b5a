import Drivebound.Core.Run
import Drivebound.Mobile.Transfer
import Drivebound.Uploads.Finalization

/-! When a transfer of the phone is finished. A PATCH that reports every byte is
answered after finalization, but a HEAD may report every byte while the session
is not finalized; a worker that goes on from such a HEAD leaves its loop at once
and puts the transfer in state `complete`. -/
namespace Drivebound.Mobile
open Uploads Sessions Run

/-- The server has finalized the session: its status is committed and so is an asset. -/
def Finalized (r : Server) (id : UUID) : Prop :=
  (∃ row, r.uploads.get? id = some row ∧ row.status = .complete) ∧
    ∃ asset ∈ r.assets, (id, asset.id) ∈ r.finalized

/-- The worker was answered that the content of this transfer is a duplicate of an active asset. -/
def AnsweredDuplicate (w : World) (owner localVersion : String) : Prop :=
  ∃ record fileSize q upload chunkSize, record.localVersion = localVersion ∧
    w.workers owner = .working record (.create fileSize) (some q) ∧
      w.requests.locals q = .answered (.created upload chunkSize true)

/-- Every transfer that the step puts in state `complete` is finalized by the
server, in the session that its row names, or was answered to be a duplicate. -/
def FinishesFinalized (env : Env) (w : World) (label : Label) : Prop :=
  ∀ w', step env w label = some w' → ∀ row ∈ w'.queue.transfers, row.state = .complete →
    (∃ old ∈ w.queue.transfers, old.localVersion = row.localVersion ∧ old.state = .complete) ∨
    (∃ id ∈ row.uploadId, Finalized w'.requests.shared id) ∨
    ∃ owner now delay, label = .receive owner now delay ∧ AnsweredDuplicate w owner row.localVersion

/-- The worker goes on with this HEAD response, and it reports every byte. -/
def TakenAsWhole (job : Job) (upload : UploadSession) : Prop :=
  match job with
  | .resume _ fileSize => upload.status = .active ∧ upload.totalSize = fileSize ∧
    upload.offset = fileSize
  | .reconcile session _ _ => upload.offset = session.totalSize
  | .create _ | .append _ _ => False

instance (job : Job) (upload : UploadSession) : Decidable (TakenAsWhole job upload) := by
  unfold TakenAsWhole
  split <;> infer_instance

/-- A HEAD response that a worker goes on with reports every byte only of a
session whose status is `complete`. -/
def ResumesUnfinished (w : World) (label : Label) : Prop :=
  match label with
  | .receive owner _ _ =>
    match w.workers owner with
    | .working _ job (some q) =>
      match w.requests.locals q with
      | .answered (.status upload) => TakenAsWhole job upload →
        (w.requests.shared.uploads.get? upload.id).any (·.status = .complete)
      | _ => True
    | _ => True
  | _ => True

instance (w : World) : DecidablePred (ResumesUnfinished w) := fun label => by
  unfold ResumesUnfinished
  repeat' split
  all_goals infer_instance

/-- The session expects no checksum: a phone has created it. -/
def Ours (r : Server) (id : UUID) : Prop :=
  ∃ row, r.uploads.get? id = some row ∧ row.expectedChecksum = none

/-- The session the worker uploads to, as it knows it. -/
def Reaches (r : Server) (session : Target) : Prop :=
  ∃ row, r.uploads.get? session.id = some row ∧ row.totalSize = session.totalSize ∧
    row.expectedChecksum = none

def Job.Known (r : Server) : Job → Prop
  | .resume id _ => Ours r id
  | .create _ => True
  | .append session offset => Reaches r session ∧ (session.totalSize ≤ offset → Done r session.id)
  | .reconcile session _ _ => Reaches r session

/-- The upload session of a job, which the transfer's row names. -/
def Job.upload : Job → Option UUID
  | .resume id _ => some id
  | .create _ => none
  | .append session _ | .reconcile session _ _ => some session.id

def WorkerSane (requests : Requests) (queue : Queue) (owner : String) : Worker → Prop
  | .stopped | .looping _ | .closing _ => True
  | .claimed record => Link record.localVersion owner record.uploadId queue ∧
    ∀ id ∈ record.uploadId, Ours requests.shared id
  | .working record job awaits =>
    (∀ id, job.upload = some id → Link record.localVersion owner (some id) queue) ∧
    job.Known requests.shared ∧
    ∀ q ∈ awaits, ∃ user body, Serves (job.request user body) (requests.locals q)

structure Sane (w : World) : Prop where
  serving : Serving w.requests
  keyed : w.queue.Keyed
  named : Named (Ours w.requests.shared) w.queue
  worker : ∀ owner, WorkerSane w.requests w.queue owner (w.workers owner)

variable {env : Env} {w w' : World}

theorem Ours.advance {id : UUID} (ours : Ours r id) (advances : Advances r r') : Ours r' id := by
  obtain ⟨row, here, expected⟩ := ours
  obtain ⟨row', there, _, expected', _⟩ := advances.rows id row here
  exact ⟨row', there, expected'.trans expected⟩

theorem Reaches.advance (reaches : Reaches r session) (advances : Advances r r') :
    Reaches r' session := by
  obtain ⟨row, here, size, expected⟩ := reaches
  obtain ⟨row', there, size', expected', _⟩ := advances.rows _ row here
  exact ⟨row', there, size'.trans size, expected'.trans expected⟩

theorem Job.Known.advance {job : Job} (known : job.Known r) (advances : Advances r r') :
    job.Known r' := by
  cases job with
  | resume id fileSize => exact Ours.advance known advances
  | create fileSize => trivial
  | append session offset =>
    exact ⟨known.1.advance advances, fun reached => (known.2 reached).advance advances⟩
  | reconcile session offset conflict => exact Reaches.advance known advances

theorem Reaches.ours (reaches : Reaches r session) : Ours r session.id := by
  obtain ⟨row, here, _, expected⟩ := reaches
  exact ⟨row, here, expected⟩

/-- A finished session of a consistent server has its asset. -/
theorem finalized_of_done {r : Server} {id : UUID} (consistent : Consistent r) (done : Done r id) :
    Finalized r id := by
  obtain ⟨row, here, complete, _⟩ := done
  obtain ⟨entry, member⟩ := consistent.finished id row here complete
  obtain ⟨asset, present, same⟩ := consistent.committed _ member
  refine ⟨⟨row, here, complete⟩, asset, present, ?_⟩
  rw [same]
  exact member

/-- The server's steps leave what a worker knows. -/
theorem WorkerSane.serve {requests requests' : Requests} {worker : Worker}
    (sane : WorkerSane requests queue owner worker)
    (advances : Advances requests.shared requests'.shared)
    (serves : ∀ q request, Serves request (requests.locals q) → Serves request (requests'.locals q)) :
    WorkerSane requests' queue owner worker := by
  cases worker with
  | stopped | looping | closing => trivial
  | claimed record => exact ⟨sane.1, fun id here => (sane.2 id here).advance advances⟩
  | working record job awaits =>
    obtain ⟨link, known, attends⟩ := sane
    refine ⟨link, known.advance advances, fun q awaited => ?_⟩
    obtain ⟨user, body, serving⟩ := attends q awaited
    exact ⟨user, body, serves q _ serving⟩

/-- What leaves the owner's links leaves what the worker knows. -/
theorem WorkerSane.relink {requests : Requests} {worker : Worker}
    (sane : WorkerSane requests queue owner worker)
    (links : ∀ version upload, Link version owner upload queue → Link version owner upload queue') :
    WorkerSane requests queue' owner worker := by
  cases worker with
  | stopped | looping | closing => trivial
  | claimed record => exact ⟨links _ _ sane.1, sane.2⟩
  | working record job awaits =>
    exact ⟨fun id here => links _ _ (sane.1 id here), sane.2⟩

theorem Sane.serve {requests : Requests} {label : Nat × Action} (sane : Sane w)
    (stepped : Uploads.step env w.requests label = some requests) : Sane { w with requests } := by
  obtain ⟨serving, advances⟩ := step_serving sane.serving stepped
  refine ⟨serving, sane.keyed, ?_, fun owner => ?_⟩
  · intro row member id here
    exact (sane.named row member id here).advance advances
  · refine (sane.worker owner).serve advances fun q request serves => ?_
    exact step_serves sane.serving stepped serves

/-- The queue changes by an operation of nobody. -/
theorem Sane.follow (sane : Sane w) (follows : Follows none w.queue queue) :
    Sane { w with queue } :=
  ⟨sane.serving, follows.keyed sane.keyed, sane.named.follows follows, fun owner =>
    (sane.worker owner).relink fun _ _ link => link.follows follows (by simp)⟩

/-- A worker moves and changes the queue under its own name. -/
theorem Sane.set {worker : Worker} (sane : Sane w) (keyed : queue.Keyed)
    (named : Named (Ours w.requests.shared) queue)
    (links : ∀ other version upload, other ≠ owner → Link version other upload w.queue →
      Link version other upload queue)
    (own : WorkerSane w.requests queue owner worker) : Sane (w.set owner queue worker) := by
  refine ⟨sane.serving, keyed, named, fun other => ?_⟩
  by_cases same : other = owner
  · subst same
    simpa only [World.set, Function.update_self] using own
  · simp only [World.set, Function.update_of_ne same]
    exact (sane.worker other).relink fun version upload => links other version upload same

theorem Sane.setFollowing {worker : Worker} (sane : Sane w)
    (follows : Follows (some owner) w.queue queue)
    (own : WorkerSane w.requests queue owner worker) : Sane (w.set owner queue worker) := by
  refine sane.set (follows.keyed sane.keyed) (sane.named.follows follows) ?_ own
  intro other version upload different link
  exact link.follows follows fun same => different (Option.some.inj same)

theorem Sane.update {worker : Worker} {record : Transfer} {changes : Changes} {now : Nat}
    (sane : Sane w)
    (sets : ∀ id, changes.uploadId = some (some id) → Ours w.requests.shared id)
    (releases : ∀ other, changes.leaseOwner ≠ some (some other))
    (own : WorkerSane w.requests
      (w.queue.updateTransfer record.localVersion changes owner now).1 owner worker) :
    Sane (w.updateTransfer owner record changes now worker) := by
  refine sane.set (updateTransfer_keyed sane.keyed) (sane.named.updateTransfer sets) ?_ own
  intro other version upload different link
  exact link.updateTransfer_other different releases

theorem Sane.catch_ {record : Transfer} {failure : TransferFailure} {now delay : Nat}
    (sane : Sane w) : Sane (w.catch_ owner record failure now delay) := by
  refine sane.update nofun (fun other => ?_) ?_
  · simp [caught]
  · split <;> trivial

theorem keepAlive_follows {record : Transfer} {owner : String} {now : Nat}
    (alive : keepAlive queue record owner now = some queue') : Follows none queue queue' := by
  obtain ⟨renewed, run, lease⟩ := Option.bind_eq_some_iff.mp alive
  have follows : Follows none renewed
      (renewed.renewTransferLease record.localVersion owner now).1 := renewTransferLease_follows
  split at lease
  · rename_i kept found
    cases lease
    rw [found] at follows
    exact (renewBackupRun_follows run).trans follows
  · contradiction

theorem beforeSend_follows {record : Transfer} {owner : String} {now : Nat} {job : Job}
    (alive : beforeSend queue record owner now job = some queue') : Follows none queue queue' := by
  cases job with
  | append session offset => exact keepAlive_follows alive
  | resume | create | reconcile =>
    cases alive
    exact .refl queue

/-- The worker goes on with a job after an update that keeps the lease. -/
theorem Sane.goOn {record : Transfer} {changes : Changes} {now : Nat} {job : Job} (sane : Sane w)
    (sets : ∀ id, changes.uploadId = some (some id) → Ours w.requests.shared id)
    (keeps : changes.leaseOwner = none) (known : job.Known w.requests.shared)
    (link : ∀ id, job.upload = some id → Link record.localVersion owner (some id)
      (w.queue.updateTransfer record.localVersion changes owner now).1) :
    Sane (w.updateTransfer owner record changes now (.working record job none)) := by
  refine sane.update sets (fun other => ?_) ⟨link, known, nofun⟩
  rw [keeps]
  nofun

/-- A row that is known by a response is the one the worker reaches. -/
theorem reaches_of_row {r : Server} {upload : UploadSession} (row : Row r upload)
    (expected : upload.expectedChecksum = none) {chunkSize : Nat} :
    Reaches r ⟨upload.id, upload.totalSize, chunkSize⟩ := by
  obtain ⟨known, here, size, same⟩ := row
  exact ⟨known, here, size, same.trans expected⟩

theorem expects_of_row {r : Server} {upload : UploadSession} (row : Row r upload)
    (ours : Ours r upload.id) : upload.expectedChecksum = none := by
  obtain ⟨known, here, _, same⟩ := row
  obtain ⟨other, there, expected⟩ := ours
  cases here.symm.trans there
  exact same.symm.trans expected

theorem size_of_row {r : Server} {upload : UploadSession} {session : Target} (row : Row r upload)
    (reaches : Reaches r session) (same : session.id = upload.id) :
    upload.totalSize = session.totalSize := by
  obtain ⟨known, here, size, _⟩ := row
  obtain ⟨other, there, size', _⟩ := reaches
  cases here.symm.trans (same ▸ there)
  exact size.symm.trans size'

theorem Ours.done {r : Server} {id : UUID} (ours : Ours r id)
    (complete : (r.uploads.get? id).any (·.status = .complete)) : Done r id := by
  obtain ⟨row, here, expected⟩ := ours
  rw [here] at complete
  exact ⟨row, here, by simpa using complete, expected⟩

section Responses

variable {record : Transfer} {now delay q : Nat} {owner : String}

/-- After the HEAD of `resumeOrCreate`. -/
theorem resume_sane {id : UUID} {fileSize : Nat} {upload : UploadSession} (sane : Sane w)
    (working : w.workers owner = .working record (.resume id fileSize) (some q))
    (answered : w.requests.locals q = .answered (.status upload))
    (whole : TakenAsWhole (.resume id fileSize) upload →
      (w.requests.shared.uploads.get? upload.id).any (·.status = .complete)) :
    Sane (applyReaction w owner record now delay (resumeOrCreate record id fileSize upload)) := by
  have worker := sane.worker owner
  rw [working] at worker
  obtain ⟨link, ours, attends⟩ := worker
  obtain ⟨user, body, serves⟩ := attends q rfl
  have row := sane.serving.session q
  rw [answered] at serves row
  obtain ⟨_, same⟩ := serves
  cases same
  unfold resumeOrCreate
  split
  · rename_i resumed
    obtain ⟨active, size, bounded⟩ := resumed
    refine sane.goOn nofun rfl ⟨reaches_of_row row (expects_of_row row ours), fun reached => ?_⟩ ?_
    · refine ours.done (whole ⟨active, size, ?_⟩)
      simp only at reached
      omega
    · intro id named
      exact (link id named).updateTransfer rfl
  · exact sane.goOn (fun _ set => nomatch set) rfl trivial nofun

/-- After the POST of `resumeOrCreate`. -/
theorem create_sane {fileSize chunkSize : Nat} {upload : UploadSession} (sane : Sane w)
    (working : w.workers owner = .working record (.create fileSize) (some q))
    (answered : w.requests.locals q = .answered (.created upload chunkSize false)) :
    Sane (w.updateTransfer owner record
      { uploadId := some (some upload.id), offset := some upload.offset
        chunkSize := some (some chunkSize) } now
      (.working record (.append ⟨upload.id, upload.totalSize, chunkSize⟩ upload.offset) none)) := by
  have worker := sane.worker owner
  rw [working] at worker
  obtain ⟨user, body, serves⟩ := worker.2.2 q rfl
  have knows := sane.serving.session q
  rw [answered] at serves knows
  obtain ⟨row, room⟩ := knows rfl
  obtain ⟨_, same⟩ := serves
  have expected : upload.expectedChecksum = none := (Request.create.inj same).2.1.symm
  have reaches : Reaches w.requests.shared ⟨upload.id, upload.totalSize, chunkSize⟩ :=
    reaches_of_row row expected
  refine sane.goOn ?_ rfl ⟨reaches, fun reached => ?_⟩ ?_
  · intro id set
    cases set
    exact reaches.ours
  · simp only at reached
    omega
  · intro id named
    exact Link.updateTransfer_set (congrArg some named)

/-- After an accepted PATCH: every byte is reported by a finalized session only. -/
theorem append_sane {session : Target} {offset : Nat} {upload : UploadSession} (sane : Sane w)
    (working : w.workers owner = .working record (.append session offset) (some q))
    (answered : w.requests.locals q = .answered (.appended upload asset duplicate)) :
    Sane (applyReaction w owner record now delay
      (advanceOffset session offset upload.offset now)) := by
  have worker := sane.worker owner
  rw [working] at worker
  obtain ⟨link, ⟨reaches, _⟩, attends⟩ := worker
  obtain ⟨user, body, serves⟩ := attends q rfl
  have knows := sane.serving.session q
  rw [answered] at serves knows
  obtain ⟨row, finished⟩ := knows
  obtain ⟨_, _, _, same⟩ := serves
  have key : session.id = upload.id := (Request.append.inj same).2.1
  unfold advanceOffset
  split
  · exact sane.catch_
  · have ours : Ours w.requests.shared upload.id := key ▸ reaches.ours
    have size := size_of_row row reaches key
    refine sane.goOn nofun rfl ⟨reaches, fun reached => ?_⟩ ?_
    · rw [key]
      exact finished (expects_of_row row ours) (size ▸ reached)
    · intro id named
      exact (link id named).updateTransfer rfl

/-- After the HEAD that follows a 409. -/
theorem reconcile_sane {session : Target} {offset : Nat} {upload : UploadSession} (sane : Sane w)
    (working : w.workers owner = .working record (.reconcile session offset conflict) (some q))
    (answered : w.requests.locals q = .answered (.status upload))
    (whole : TakenAsWhole (.reconcile session offset conflict) upload →
      (w.requests.shared.uploads.get? upload.id).any (·.status = .complete))
    (bounded : upload.offset ≤ session.totalSize) :
    Sane (w.updateTransfer owner record
      { offset := some upload.offset, lastError := some none } now
      (.working record (.append session upload.offset) none)) := by
  have worker := sane.worker owner
  rw [working] at worker
  obtain ⟨link, reaches, attends⟩ := worker
  obtain ⟨user, body, serves⟩ := attends q rfl
  rw [answered] at serves
  obtain ⟨_, same⟩ := serves
  have key : session.id = upload.id := (Request.head.inj same).2
  refine sane.goOn nofun rfl ⟨reaches, fun reached => ?_⟩ ?_
  · have whole := whole (Nat.le_antisymm bounded reached)
    rw [← key] at whole
    exact reaches.ours.done whole
  · intro id named
    exact (link id named).updateTransfer rfl

/-- The reactions to errors: the session is forgotten, reconciled or the transfer
is put off. -/
theorem receive_sane {job : Job} {answer : Answer} (sane : Sane w)
    (working : w.workers owner = .working record job (some q))
    (answered : w.requests.locals q = .answered answer)
    (unfinished : ResumesUnfinished w (.receive owner now delay))
    (reacts : react record now job answer = some reaction) :
    Sane (applyReaction w owner record now delay reaction) := by
  have whole : ∀ upload, answer = .status upload → TakenAsWhole job upload →
      (w.requests.shared.uploads.get? upload.id).any (·.status = .complete) := by
    rintro upload rfl
    simpa only [ResumesUnfinished, working, answered] using unfinished
  have worker := sane.worker owner
  rw [working] at worker
  cases job with
  | resume id fileSize =>
    cases answer with
    | status upload =>
      cases reacts
      exact resume_sane sane working answered (whole upload rfl)
    | error code detail =>
      simp only [react] at reacts
      split at reacts
      · cases reacts
        exact sane.goOn (fun _ set => nomatch set) rfl trivial nofun
      · cases reacts
        exact sane.catch_
    | created | appended => contradiction
  | create fileSize =>
    cases answer with
    | created upload chunkSize duplicate =>
      cases duplicate with
      | false =>
        cases reacts
        exact create_sane sane working answered
      | true =>
        cases reacts
        exact sane.update nofun nofun trivial
    | error code detail =>
      cases reacts
      exact sane.catch_
    | status | appended => contradiction
  | append session offset =>
    cases answer with
    | appended upload asset duplicate =>
      cases reacts
      exact append_sane sane working answered
    | error code detail =>
      simp only [react] at reacts
      split at reacts
      · -- A 409: the worker asks for the session's offset, knowing what it knew.
        cases reacts
        refine sane.set sane.keyed sane.named (fun _ _ _ _ link => link) ?_
        exact ⟨worker.1, worker.2.1.1, nofun⟩
      · split at reacts
        · cases reacts
          exact Sane.catch_ (sane.update (fun _ set => nomatch set) nofun trivial)
        · cases reacts
          exact sane.catch_
    | status | created => contradiction
  | reconcile session offset conflict =>
    cases answer with
    | status upload =>
      simp only [react] at reacts
      split at reacts
      · rename_i bounded
        cases reacts
        exact reconcile_sane sane working answered (whole upload rfl) bounded
      · cases reacts
        exact sane.catch_
    | error code detail =>
      cases reacts
      exact sane.catch_
    | created | appended => contradiction

end Responses

theorem prepare_sane {record : Transfer} {fileSize now : Nat} (sane : Sane w)
    (claimed : w.workers owner = .claimed record)
    (prepared : prepare w owner record fileSize now = some w') : Sane w' := by
  obtain ⟨queue, alive, rfl⟩ := Option.map_eq_some_iff.mp prepared
  have renewed := sane.follow (keepAlive_follows alive)
  have worker := renewed.worker owner
  simp only [claimed] at worker
  obtain ⟨link, ours⟩ := worker
  cases named : record.uploadId with
  | none => exact renewed.goOn nofun rfl trivial nofun
  | some id =>
    refine renewed.goOn nofun rfl (ours id named) fun other same => ?_
    cases same
    rw [named] at link
    exact link.updateTransfer rfl

theorem claim_sane {scope : String} {now : Nat} (sane : Sane w)
    (found : w.queue.claimNextTransfer scope owner now = (queue, some record)) :
    Sane (w.set owner queue (.claimed record)) := by
  have follows : Follows (some owner) w.queue (w.queue.claimNextTransfer scope owner now).1 :=
    claimNextTransfer_follows
  have member := claimNextTransfer_mem (congrArg Prod.snd found)
  rw [found] at follows member
  refine sane.setFollowing follows ⟨?_, ?_⟩
  · intro row there same _
    rw [(follows.keyed sane.keyed).unique there member same]
  · exact sane.named.follows follows record member

theorem send_sane {record : Transfer} {job : Job} {requests : Requests} {q : Nat} (sane : Sane w)
    (working : w.workers owner = .working record job none)
    (alive : beforeSend w.queue record owner now job = some queue)
    (sent : Uploads.step env w.requests (q, .receive (job.request user body)) = some requests) :
    Sane ({ w with requests }.set owner queue (.working record job (some q))) := by
  have served := sane.serve sent
  have follows := beforeSend_follows alive
  have worker := (served.follow follows).worker owner
  simp only [working] at worker
  refine served.setFollowing follows.weaken ⟨worker.1, worker.2.1, ?_⟩
  rintro _ ⟨⟩
  obtain ⟨outcome, chosen, acted⟩ := Option.bind_eq_some_iff.mp sent
  refine ⟨user, body, ?_⟩
  simp only [Store.act_locals acted, Function.update_self]
  simp only [program] at chosen
  split at chosen
  · cases chosen
    rfl
  · contradiction

theorem step_sane (w : World) (label : Label) (w' : World) (sane : Sane w)
    (unfinished : ResumesUnfinished w label) (stepped : step env w label = some w') : Sane w' := by
  cases label with
  | server q action =>
    obtain ⟨requests, served, rfl⟩ := Option.map_eq_some_iff.mp stepped
    exact sane.serve served
  | openDatabase =>
    cases stepped
    exact sane.follow openDatabase_follows
  | enqueue input now =>
    cases stepped
    exact sane.follow enqueueTransfer_follows
  | retryFailed scope now =>
    cases stepped
    exact sane.follow retryFailedTransfers_follows
  | cancelPending scope =>
    cases stepped
    exact sane.follow cancelPendingTransfers_follows
  | renewLease owner version now =>
    cases stepped
    exact sane.follow renewTransferLease_follows
  | renewRun owner scope now =>
    obtain ⟨queue, renewed, rfl⟩ := Option.map_eq_some_iff.mp stepped
    exact sane.follow (renewBackupRun_follows renewed)
  | begin owner scope now =>
    simp only [step] at stepped
    split at stepped
    · obtain ⟨queue, acquired, rfl⟩ := Option.map_eq_some_iff.mp stepped
      exact sane.setFollowing (acquireBackupRun_follows acquired).weaken trivial
    · contradiction
  | claim owner now =>
    simp only [step] at stepped
    split at stepped
    · rename_i scope looping
      have follows : Follows (some owner) w.queue (w.queue.claimNextTransfer scope owner now).1 :=
        claimNextTransfer_follows
      split at stepped
      · rename_i queue found
        cases stepped
        rw [found] at follows
        exact sane.setFollowing follows trivial
      · rename_i queue record found
        cases stepped
        exact claim_sane sane found
    · contradiction
  | prepare owner fileSize now =>
    simp only [step] at stepped
    split at stepped
    · rename_i record claimed
      exact prepare_sane sane claimed stepped
    · contradiction
  | send owner q user body now =>
    simp only [step] at stepped
    split at stepped
    · rename_i record job working
      split_ifs at stepped
      obtain ⟨queue, alive, sending⟩ := Option.bind_eq_some_iff.mp stepped
      obtain ⟨requests, sent, rfl⟩ := Option.map_eq_some_iff.mp sending
      exact send_sane sane working alive sent
    · contradiction
  | receive owner now delay =>
    simp only [step] at stepped
    split at stepped
    · rename_i record job q working
      split at stepped
      · rename_i answer answered
        obtain ⟨reaction, reacts, rfl⟩ := Option.map_eq_some_iff.mp stepped
        exact receive_sane sane working answered unfinished reacts
      · contradiction
    · contradiction
  | block owner blocker now =>
    simp only [step] at stepped
    split at stepped
    · split_ifs at stepped
      cases stepped
      exact sane.update (fun _ same => by cases same) (fun _ same => by cases same) trivial
    · contradiction
  | complete owner now =>
    simp only [step] at stepped
    split at stepped
    · split_ifs at stepped
      cases stepped
      exact sane.update (fun _ same => by cases same) (fun _ same => by cases same) trivial
    · contradiction
  | fail owner failure now delay =>
    simp only [step] at stepped
    split at stepped
    · cases stepped
      exact sane.catch_
    · cases stepped
      exact sane.catch_
    · contradiction
  | stop owner now =>
    simp only [step] at stepped
    split at stepped
    · contradiction
    all_goals
      cases stepped
      exact sane.setFollowing releaseBackupRun_follows.weaken trivial
  | kill owner =>
    cases stepped
    exact sane.setFollowing (.refl _) trivial

theorem NoneFinishes.refl (queue : Queue) : NoneFinishes queue queue :=
  fun row member finished => ⟨row, member, rfl, finished⟩

theorem NoneFinishes.trans (first : NoneFinishes a b) (second : NoneFinishes b c) :
    NoneFinishes a c := by
  intro row member finished
  obtain ⟨middle, there, same, before⟩ := second row member finished
  obtain ⟨old, here, key, earlier⟩ := first middle there before
  exact ⟨old, here, key.trans same, earlier⟩

/-- A step that finishes no transfer. -/
theorem NoneFinishes.finishes (none : ∀ w', step env w label = some w' →
    NoneFinishes w.queue w'.queue) : FinishesFinalized env w label :=
  fun w' stepped row member finished => .inl (none w' stepped row member finished)

theorem catch_noneFinishes {record : Transfer} {failure : TransferFailure} {now delay : Nat} :
    NoneFinishes w.queue (w.catch_ owner record failure now delay).queue := by
  refine noneFinishes_updateTransfer ?_
  simp only [caught]
  split <;> nofun

/-- The changes of a reaction leave the state alone. -/
def Reaction.Unfinished : Reaction → Prop
  | .goOn (some changes) _ | .throw (some changes) _ => changes.state = none
  | .goOn none _ | .throw none _ => True
  | .skip _ => False

/-- Only the answer that the content is a duplicate finishes a transfer at once. -/
theorem react_unfinished {record : Transfer} {job : Job} {answer : Answer}
    (reacts : react record now job answer = some reaction) :
    reaction.Unfinished ∨ ∃ fileSize upload chunkSize changes,
      job = .create fileSize ∧ answer = .created upload chunkSize true ∧ reaction = .skip changes := by
  unfold react at reacts
  split at reacts
  · cases reacts
    left
    unfold resumeOrCreate
    split <;> rfl
  · split at reacts
    all_goals
      cases reacts
      exact .inl (by trivial)
  · rename_i fileSize upload chunkSize duplicate
    cases duplicate with
    | true =>
      cases reacts
      exact .inr ⟨fileSize, upload, chunkSize, _, rfl, rfl, rfl⟩
    | false =>
      cases reacts
      exact .inl rfl
  · cases reacts
    exact .inl trivial
  · cases reacts
    left
    unfold advanceOffset
    split
    · trivial
    · rfl
  · split at reacts
    · cases reacts
      exact .inl trivial
    · split at reacts
      · cases reacts
        exact .inl rfl
      · cases reacts
        exact .inl trivial
  · split at reacts
    · cases reacts
      exact .inl rfl
    · cases reacts
      exact .inl trivial
  · cases reacts
    exact .inl trivial
  · contradiction

theorem applyReaction_noneFinishes {record : Transfer} {reaction : Reaction} {now delay : Nat}
    (unfinished : reaction.Unfinished) :
    NoneFinishes w.queue (applyReaction w owner record now delay reaction).queue := by
  have quiet : ∀ changes : Changes, changes.state = none →
      NoneFinishes w.queue (w.queue.updateTransfer record.localVersion changes owner now).1 := by
    intro changes same
    refine noneFinishes_updateTransfer ?_
    rw [same]
    nofun
  cases reaction with
  | skip changes => exact unfinished.elim
  | goOn changes job =>
    cases changes with
    | none => exact .refl _
    | some changes => exact quiet changes unfinished
  | throw changes failure =>
    cases changes with
    | none => exact catch_noneFinishes
    | some changes => exact (quiet changes unfinished).trans catch_noneFinishes

/-- Besides the transfer of the worker, none is finished by an answer. -/
theorem skip_finishes {record : Transfer} {changes : Changes} {now delay : Nat}
    (member : row ∈ (applyReaction w owner record now delay (.skip changes)).queue.transfers)
    (finished : row.state = .complete) :
    (∃ old ∈ w.queue.transfers, old.localVersion = row.localVersion ∧ old.state = .complete) ∨
      record.localVersion = row.localVersion := by
  obtain ⟨old, there, rfl | ⟨key, _, rfl⟩⟩ := mem_updateTransfer member
  · exact .inl ⟨row, there, rfl, finished⟩
  · exact .inr key.symm

/-- The end of the loop: the row names the session the worker has uploaded to. -/
theorem complete_finishes {record : Transfer} {session : Target} {offset : Nat} (sane : Sane w)
    (working : w.workers owner = .working record (.append session offset) none)
    (reached : session.totalSize ≤ offset)
    (member : row ∈ (w.queue.updateTransfer record.localVersion (completion offset) owner
      now).1.transfers) (finished : row.state = .complete) :
    (∃ old ∈ w.queue.transfers, old.localVersion = row.localVersion ∧ old.state = .complete) ∨
      ∃ id ∈ row.uploadId, Finalized w.requests.shared id := by
  have worker := sane.worker owner
  rw [working] at worker
  obtain ⟨link, ⟨_, done⟩, _⟩ := worker
  obtain ⟨old, there, rfl | ⟨key, lease, rfl⟩⟩ := mem_updateTransfer member
  · exact .inl ⟨row, there, rfl, finished⟩
  · refine .inr ⟨session.id, ?_, finalized_of_done sane.serving.global (done reached)⟩
    -- The completing update leaves the upload that the row names.
    have named : old.uploadId = some session.id := link _ rfl old there key lease
    exact named

theorem step_finishes (w : World) (label : Label) (sane : Sane w) :
    FinishesFinalized env w label := by
  cases label with
  | server q action =>
    refine NoneFinishes.finishes fun w' stepped => ?_
    obtain ⟨requests, served, rfl⟩ := Option.map_eq_some_iff.mp stepped
    exact .refl _
  | openDatabase =>
    refine NoneFinishes.finishes fun w' stepped => ?_
    cases stepped
    exact openDatabase_follows.noneFinishes
  | enqueue input now =>
    refine NoneFinishes.finishes fun w' stepped => ?_
    cases stepped
    exact enqueueTransfer_follows.noneFinishes
  | retryFailed scope now =>
    refine NoneFinishes.finishes fun w' stepped => ?_
    cases stepped
    exact retryFailedTransfers_follows.noneFinishes
  | cancelPending scope =>
    refine NoneFinishes.finishes fun w' stepped => ?_
    cases stepped
    exact cancelPendingTransfers_follows.noneFinishes
  | renewLease owner version now =>
    refine NoneFinishes.finishes fun w' stepped => ?_
    cases stepped
    exact renewTransferLease_follows.noneFinishes
  | renewRun owner scope now =>
    refine NoneFinishes.finishes fun w' stepped => ?_
    obtain ⟨queue, renewed, rfl⟩ := Option.map_eq_some_iff.mp stepped
    exact (renewBackupRun_follows renewed).noneFinishes
  | begin owner scope now =>
    refine NoneFinishes.finishes fun w' stepped => ?_
    simp only [step] at stepped
    split at stepped
    · obtain ⟨queue, acquired, rfl⟩ := Option.map_eq_some_iff.mp stepped
      exact (acquireBackupRun_follows acquired).noneFinishes
    · contradiction
  | claim owner now =>
    refine NoneFinishes.finishes fun w' stepped => ?_
    simp only [step] at stepped
    split at stepped
    · rename_i scope looping
      have follows : Follows (some owner) w.queue (w.queue.claimNextTransfer scope owner now).1 :=
        claimNextTransfer_follows
      split at stepped
      all_goals
        rename_i found
        cases stepped
        rw [found] at follows
        exact follows.noneFinishes
    · contradiction
  | prepare owner fileSize now =>
    refine NoneFinishes.finishes fun w' stepped => ?_
    simp only [step] at stepped
    split at stepped
    · obtain ⟨queue, alive, rfl⟩ := Option.map_eq_some_iff.mp stepped
      exact (keepAlive_follows alive).noneFinishes.trans (noneFinishes_updateTransfer (fun same => by cases same))
    · contradiction
  | send owner q user body now =>
    refine NoneFinishes.finishes fun w' stepped => ?_
    simp only [step] at stepped
    split at stepped
    · split_ifs at stepped
      obtain ⟨queue, alive, sending⟩ := Option.bind_eq_some_iff.mp stepped
      obtain ⟨requests, sent, rfl⟩ := Option.map_eq_some_iff.mp sending
      exact (beforeSend_follows alive).noneFinishes
    · contradiction
  | receive owner now delay =>
    intro w' stepped row member finished
    simp only [step] at stepped
    split at stepped
    · rename_i record job q working
      split at stepped
      · rename_i answer answered
        obtain ⟨reaction, reacts, rfl⟩ := Option.map_eq_some_iff.mp stepped
        rcases react_unfinished reacts with quiet | ⟨fileSize, upload, chunkSize, changes, rfl, rfl, rfl⟩
        · exact .inl (applyReaction_noneFinishes quiet row member finished)
        · rcases skip_finishes member finished with before | own
          · exact .inl before
          · exact .inr (.inr ⟨owner, now, delay, rfl, record, fileSize, q, upload, chunkSize, own,
              working, answered⟩)
      · contradiction
    · contradiction
  | block owner blocker now =>
    refine NoneFinishes.finishes fun w' stepped => ?_
    simp only [step] at stepped
    split at stepped
    · split_ifs at stepped
      cases stepped
      exact noneFinishes_updateTransfer (fun same => by cases same)
    · contradiction
  | complete owner now =>
    intro w' stepped row member finished
    simp only [step] at stepped
    split at stepped
    · rename_i record session offset working
      split_ifs at stepped with reached
      cases stepped
      rcases complete_finishes sane working reached member finished with before | finalized
      · exact .inl before
      · exact .inr (.inl finalized)
    · contradiction
  | fail owner failure now delay =>
    refine NoneFinishes.finishes fun w' stepped => ?_
    simp only [step] at stepped
    split at stepped
    · cases stepped
      exact catch_noneFinishes
    · cases stepped
      exact catch_noneFinishes
    · contradiction
  | stop owner now =>
    refine NoneFinishes.finishes fun w' stepped => ?_
    simp only [step] at stepped
    split at stepped
    · contradiction
    all_goals
      cases stepped
      exact releaseBackupRun_follows.noneFinishes
  | kill owner =>
    refine NoneFinishes.finishes fun w' stepped => ?_
    cases stepped
    exact .refl _

/-- No request is in flight and no backup is running. -/
def start (r : Server) (queue : Queue) : World :=
  ⟨Store.idle r .idle, queue, fun _ => .stopped⟩

theorem start_sane {r : Server} {queue : Queue} (consistent : Consistent r)
    (keyed : queue.Keyed) (named : Named (Ours r) queue) : Sane (start r queue) :=
  ⟨Sound.idle consistent trivial (fun _ held => held), keyed, named, fun _ => trivial⟩

/-- In every run of backups, other clients, failures, lost responses and crashes in
which a worker goes on from a HEAD that reports every byte only when the session's
status is `complete`, every transfer that is put in state `complete` is finalized. -/
theorem finished_transfer_is_finalized {r : Server} {queue : Queue} (consistent : Consistent r)
    (keyed : queue.Keyed) (named : Named (Ours r) queue) {labels : List Label}
    (unfinished : Along (step env) ResumesUnfinished (start r queue) labels) :
    Along (step env) (FinishesFinalized env) (start r queue) labels :=
  along_of_invariant step_sane (fun w label sane _ => step_finishes w label sane)
    (start_sane consistent keyed named) unfinished

/-- A server without uploads. -/
def newServer : Server := ⟨[], fun _ => none, [], []⟩

theorem newServer_consistent : Consistent newServer :=
  ⟨nofun, nofun, nofun, nofun⟩

def shownEnv : Env :=
  { sha256 := fun _ => "digest", maxUploadSize := 100, uploadSessionHours := 24
    resumableChunkSize := 2 }

def photo : NewTransfer :=
  { localVersion := "s:1:1", connectionScope := "s", localId := "1", filename := "a.jpg"
    fileSize := 0 }

def photoAsset : Asset :=
  { id := 50, userId := 7, logicalId := 50, version := 1, lifecycleState := .active
    supersededAt := none, trashedAt := none, purgeAfter := none, deletedBy := none
    originalPath := "/originals/a.jpg", checksum := "digest", storageChecksum := "digest"
    encryptionVersion := 0, fileSize := 4, thumbnailPath := none, previewPath := none
    storageSource := .managed, originalFilename := some "a.jpg" }

/-- A run of `owner` takes the transfer and makes its first request. -/
def takeUp (owner : String) (q now : Nat) : List Label :=
  [.begin owner "s" now, .claim owner now, .prepare owner 4 now, .send owner q 7 [] now]

/-- The server stores a chunk of two bytes. -/
def storeChunk (q now : Nat) : List Label :=
  [.server q .lockUpload, .server q (.check now), .server q (.chunk 2), .server q .endBody]

/-- The first two bytes of the photo are stored. -/
def halfUploaded : List Label :=
  [.enqueue photo 1] ++ takeUp "a" 0 2 ++ [.server 0 (.create 1 2), .receive "a" 3 0,
    .send "a" 1 7 [10, 11] 3] ++ storeChunk 1 3

/-- The response to the first chunk is lost; the next run resumes behind it. -/
theorem finished_transfer_is_finalized_resumed :
    ∃ w, run (step shownEnv) (start newServer ⟨[], []⟩)
        (halfUploaded ++ [.server 1 .crash, .kill "a"] ++ takeUp "b" 2 400000 ++
          [.server 2 .read, .receive "b" 400000 0, .send "b" 3 7 [12, 13] 400000] ++
          storeChunk 3 400 ++ [.server 3 .hash, .server 3 (.persist photoAsset),
          .server 3 .complete, .receive "b" 400001 0, .complete "b" 400001]) = some w ∧
      (∃ row ∈ w.queue.transfers, row.state = .complete) ∧
      Along (step shownEnv) (FinishesFinalized shownEnv) (start newServer ⟨[], []⟩)
        (halfUploaded ++ [.server 1 .crash, .kill "a"] ++ takeUp "b" 2 400000 ++
          [.server 2 .read, .receive "b" 400000 0, .send "b" 3 7 [12, 13] 400000] ++
          storeChunk 3 400 ++ [.server 3 .hash, .server 3 (.persist photoAsset),
          .server 3 .complete, .receive "b" 400001 0, .complete "b" 400001]) := by
  have finishes : (run (step shownEnv) (start newServer ⟨[], []⟩)
      (halfUploaded ++ [.server 1 .crash, .kill "a"] ++ takeUp "b" 2 400000 ++
        [.server 2 .read, .receive "b" 400000 0, .send "b" 3 7 [12, 13] 400000] ++
        storeChunk 3 400 ++ [.server 3 .hash, .server 3 (.persist photoAsset),
        .server 3 .complete, .receive "b" 400001 0, .complete "b" 400001])).any
      fun w => ∃ row ∈ w.queue.transfers, row.state = .complete := by decide
  obtain ⟨w, reached, finished⟩ := (Option.any_eq_true _ _).mp finishes
  have keyed : Queue.Keyed ⟨[], []⟩ := List.nodup_nil
  have named : Named (Ours newServer) ⟨[], []⟩ := fun row member =>
    absurd member List.not_mem_nil
  refine ⟨w, reached, of_decide_eq_true finished, ?_⟩
  exact finished_transfer_is_finalized newServer_consistent keyed named (by decide)

/-- Every byte is stored but the drive is full. The next run of the phone finds the
active session at its full size, sends nothing and finishes the transfer; the
server has no asset at all. -/
theorem unfinalized_upload_is_taken_as_finished :
    ∃ w, run (step shownEnv) (start newServer ⟨[], []⟩)
        (halfUploaded ++ [.receive "a" 4 0, .send "a" 2 7 [12, 13] 4] ++ storeChunk 2 4 ++
          [.server 2 .hash, .server 2 (.failPersist .noSpace "OSError"), .receive "a" 5 1,
            .stop "a" 5] ++ takeUp "b" 3 10 ++ [.server 3 .read, .receive "b" 11 0,
            .complete "b" 11]) = some w ∧
      (∃ row ∈ w.queue.transfers, row.state = .complete ∧ ∃ id ∈ row.uploadId,
        ∃ upload ∈ w.requests.shared.uploads.get? id, upload.status = .active) ∧
      w.requests.shared.assets = [] := by
  have violated : (run (step shownEnv) (start newServer ⟨[], []⟩)
      (halfUploaded ++ [.receive "a" 4 0, .send "a" 2 7 [12, 13] 4] ++ storeChunk 2 4 ++
        [.server 2 .hash, .server 2 (.failPersist .noSpace "OSError"), .receive "a" 5 1,
          .stop "a" 5] ++ takeUp "b" 3 10 ++ [.server 3 .read, .receive "b" 11 0,
          .complete "b" 11])).any fun w =>
      (∃ row ∈ w.queue.transfers, row.state = .complete ∧ ∃ id ∈ row.uploadId,
        ∃ upload ∈ w.requests.shared.uploads.get? id, upload.status = .active) ∧
      w.requests.shared.assets = [] := by decide
  obtain ⟨w, reached, violated⟩ := (Option.any_eq_true _ _).mp violated
  exact ⟨w, reached, of_decide_eq_true violated⟩

end Drivebound.Mobile
