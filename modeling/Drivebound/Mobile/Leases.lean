import Drivebound.Core.Leases
import Drivebound.Core.Rows
import Drivebound.Core.Run
import Drivebound.Mobile.Transfer

/-! The queue between any number of run owners. Every statement or transaction of `queue.ts` is
a step of its own, with the instant at which its caller has read the clock; a run that is
killed goes on with none of them. A lease is what a row of `transfers` or of
`backup_run_locks` says. -/
namespace Drivebound.Mobile
open Run Leases

/-- The updates of `backup.ts`, each with the owner's name. -/
inductive Update where
  | clearError
  | measure (fileSize : Nat)
  | resume (offset chunkSize : Nat)
  | forget
  | create (uploadId : UUID) (offset chunkSize : Nat)
  | reconcile (offset : Nat)
  | advance (offset : Nat)
  | block (offset : Nat) (blocker : String)
  | complete (offset : Nat)
  | caught (record : Transfer) (failure : TransferFailure) (delay : Nat)
  deriving DecidableEq, Repr

def Update.changes (now : Nat) : Update → Changes
  | .clearError => { lastError := some none }
  | .measure fileSize => { fileSize := some fileSize }
  | .resume offset chunkSize => { offset := some offset, chunkSize := some (some chunkSize) }
  | .forget => Mobile.forget
  | .create uploadId offset chunkSize =>
    { uploadId := some (some uploadId), offset := some offset, chunkSize := some (some chunkSize) }
  | .reconcile offset => { offset := some offset, lastError := some none }
  | .advance offset => { offset := some offset, leaseExpiresAt := some (now + transferLeaseMs) }
  | .block offset blocker =>
    { state := some .retry, offset := some offset, retryAt := some 0, lastError := some (some blocker)
      leaseOwner := some none, leaseExpiresAt := some 0 }
  | .complete offset => completion offset
  | .caught record failure delay => Mobile.caught record failure now delay

namespace Queue

/-- The statements of `openDatabase` that write. -/
def dropUnscoped (queue : Queue) : Queue := queue.delete (·.connectionScope = "")

def recoverLeases (queue : Queue) : Queue :=
  queue.update (fun row => row.state = .uploading ∧ row.leaseExpiresAt = 0)
    fun row => { row with state := .retry, retryAt := 0, leaseOwner := none, leaseExpiresAt := 0 }

theorem openDatabase_eq (queue : Queue) : queue.openDatabase = queue.dropUnscoped.recoverLeases := rfl

/-- The second statement of `releaseBackupRun`. -/
def releaseTransfers (queue : Queue) (connectionScope owner : String) (now : Nat) : Queue :=
  queue.update
    (fun row => row.connectionScope = connectionScope ∧ row.state = .uploading ∧ row.leaseOwner = some owner)
    fun row => { row with state := .retry, leaseOwner := none, leaseExpiresAt := 0, updatedAt := now }

def expireRunLocks (queue : Queue) (now : Nat) : Queue :=
  { queue with runLocks := queue.runLocks.filter (now < ·.expiresAt) }

end Queue

inductive Operation where
  | tick (elapsed : Nat)
  | dropUnscoped
  | recoverLeases
  | enqueue (input : NewTransfer) (now : Nat)
  | acquire (scope owner : String) (now : Nat)
  | renewRun (scope owner : String) (now : Nat)
  | deleteRunLock (scope owner : String)
  | releaseTransfers (scope owner : String) (now : Nat)
  | claim (scope owner : String) (now : Nat)
  | renewLease (version owner : String) (now : Nat)
  | update (version owner : String) (kind : Update) (now : Nat)
  | retryFailed (scope : String) (now : Nat)
  | cancelPending (scope : String)
  deriving DecidableEq, Repr

namespace Operation

/-- When the caller has read the clock. -/
def now : Operation → Nat
  | .enqueue _ now | .acquire _ _ now | .renewRun _ _ now | .releaseTransfers _ _ now | .claim _ _ now
  | .renewLease _ _ now | .update _ _ _ now | .retryFailed _ now => now
  | _ => 0

/-- The run owner on whose behalf it is. -/
def actor : Operation → Option String
  | .acquire _ owner _ | .renewRun _ owner _ | .deleteRunLock _ owner | .releaseTransfers _ owner _
  | .claim _ owner _ | .renewLease _ owner _ | .update _ owner _ _ => some owner
  | _ => none

/-- `connectionScope` has the id of a device, and the name of an owner its mode. -/
def named : Operation → Bool
  | .enqueue input _ => input.connectionScope ≠ ""
  | .renewLease _ owner _ | .update _ owner _ _ => owner ≠ ""
  | _ => true

def apply (queue : Queue) : Operation → Queue
  | .tick _ => queue
  | .dropUnscoped => queue.dropUnscoped
  | .recoverLeases => queue.recoverLeases
  | .enqueue input now => queue.enqueueTransfer input now
  | .acquire scope owner now => (queue.acquireBackupRun scope owner now).getD (queue.expireRunLocks now)
  | .renewRun scope owner now => (queue.renewBackupRun scope owner now).getD queue
  | .deleteRunLock scope owner => queue.deleteRunLock scope owner
  | .releaseTransfers scope owner now => queue.releaseTransfers scope owner now
  | .claim scope owner now => (queue.claimNextTransfer scope owner now).1
  | .renewLease version owner now => (queue.renewTransferLease version owner now).1
  | .update version owner kind now => (queue.updateTransfer version (kind.changes now) owner now).1
  | .retryFailed scope now => queue.retryFailedTransfers scope now
  | .cancelPending scope => queue.cancelPendingTransfers scope

end Operation

structure Phone where
  queue : Queue
  clock : Nat
  deriving DecidableEq, Repr

def operate (s : Phone) (operation : Operation) : Option Phone :=
  match operation with
  | .tick elapsed => some { s with clock := s.clock + elapsed }
  | operation =>
    if operation.now ≤ s.clock ∧ operation.named = true then some { s with queue := operation.apply s.queue }
    else none

def Transfer.lease (row : Transfer) : Option (Lease String) := row.leaseOwner.map (⟨·, row.leaseExpiresAt⟩)

def RunLock.lease (lock : RunLock) : Lease String := ⟨lock.owner, lock.expiresAt⟩

def Queue.lease (queue : Queue) (version : String) : Option (Lease String) :=
  (queue.find? version).bind Transfer.lease

def Queue.runLease (queue : Queue) (scope : String) : Option (Lease String) :=
  (queue.runLocks.find? (·.connectionScope = scope)).map RunLock.lease

/-- A row has a lease while it is uploading. -/
def Leased (row : Transfer) : Prop := row.leaseOwner.isSome = true ↔ row.state = .uploading

/-- The tables after a step. -/
structure Sound (queue : Queue) : Prop where
  keyed : queue.Keyed
  scopes : (queue.runLocks.map (·.connectionScope)).Nodup
  scope : ∀ row ∈ queue.transfers, row.connectionScope ≠ ""
  leased : ∀ row ∈ queue.transfers, Leased row

/-- A database as it is found by this build: rows of an earlier one have the defaults of the
lease's columns. -/
structure Found (queue : Queue) : Prop where
  keyed : queue.Keyed
  scopes : (queue.runLocks.map (·.connectionScope)).Nodup
  leased : ∀ row ∈ queue.transfers, Leased row ∨ row.leaseOwner = none ∧ row.leaseExpiresAt = 0

/-- Another version of the photo of a row is enqueued. -/
def Operation.Replaces (row : Transfer) : Operation → Prop
  | .enqueue input _ => row.connectionScope = input.connectionScope ∧ row.localId = input.localId ∧
    row.localVersion ≠ input.localVersion
  | _ => False

/-- The transfer that an update with an owner is about. -/
def Operation.updates : Operation → Option (String × String)
  | .renewLease version owner _ | .update version owner _ _ => some (version, owner)
  | _ => none

/-- What a step may do to the tables. -/
structure Orderly (s : Phone) (operation : Operation) (t : Phone) : Prop where
  leased : ∀ row ∈ t.queue.transfers, row.leaseOwner.isSome = true ↔ row.state = .uploading
  one : ∀ a ∈ t.queue.transfers, ∀ b ∈ t.queue.transfers, a.localVersion = b.localVersion → a = b
  oneRun : ∀ a ∈ t.queue.runLocks, ∀ b ∈ t.queue.runLocks, a.connectionScope = b.connectionScope → a = b
  lost : ∀ version owner, operation.updates = some (version, owner) →
    (∀ row ∈ s.queue.transfers, row.localVersion = version → row.leaseOwner ≠ some owner) →
      t.queue = s.queue
  complete : ∀ row ∈ s.queue.transfers, row.state = .complete →
    row ∈ t.queue.transfers ∨
      operation.Replaces row ∧ ∀ other ∈ t.queue.transfers, other.localVersion ≠ row.localVersion
  lease : ∀ version, Turns operation.actor s.clock (s.queue.lease version) (t.queue.lease version)
  run : ∀ scope, Turns operation.actor s.clock (s.queue.runLease scope) (t.queue.runLease scope)

variable {queue : Queue} {actor : Option String} {clock : Nat} {where_ : Transfer → Bool}
  {change : Transfer → Transfer}

theorem Leased.none {row : Transfer} (leased : Leased row) (idle : row.state ≠ .uploading) :
    row.leaseOwner = none := by
  cases owner : row.leaseOwner with
  | none => rfl
  | some owned => exact absurd (leased.mp (by rw [owner]; rfl)) idle

theorem leased_idle {row : Transfer} (free : row.leaseOwner = none) (idle : row.state ≠ .uploading) :
    Leased row := by
  unfold Leased
  rw [free]
  exact ⟨nofun, fun uploading => absurd uploading idle⟩

/-- The row under a version after an `UPDATE`. -/
theorem find?_update (key : ∀ row, (change row).localVersion = row.localVersion) (version : String) :
    (queue.update where_ change).find? version =
      (queue.find? version).map fun row => if where_ row then change row else row := by
  apply Rows.find?_map_stable
  intro row _
  split
  · rw [key row]
  · rfl

/-- What an `UPDATE` does to the leases of its rows is what it does to all. -/
theorem turns_update (key : ∀ row, (change row).localVersion = row.localVersion)
    (moves : ∀ row ∈ queue.transfers, where_ row = true → Turns actor clock row.lease (change row).lease)
    (version : String) :
    Turns actor clock (queue.lease version) ((queue.update where_ change).lease version) := by
  simp only [Queue.lease]
  rw [find?_update key]
  cases found : queue.find? version with
  | none => exact .kept none
  | some row =>
    simp only [Option.map_some, Option.bind_some]
    split
    · exact moves row (List.mem_of_find?_eq_some found) ‹_›
    · exact .kept row.lease

/-- An `UPDATE` of other columns. -/
theorem lease_update (key : ∀ row, (change row).localVersion = row.localVersion)
    (same : ∀ row, (change row).lease = row.lease) (version : String) :
    (queue.update where_ change).lease version = queue.lease version := by
  simp only [Queue.lease]
  rw [find?_update key]
  cases queue.find? version with
  | none => rfl
  | some row =>
    simp only [Option.map_some, Option.bind_some]
    split
    · exact same row
    · rfl

/-- An `UPDATE` that ends expired leases. -/
theorem lapse_update (key : ∀ row, (change row).localVersion = row.localVersion)
    (ends : ∀ row, where_ row = true → (change row).lease = none ∧ Free clock row.lease) (version : String) :
    (queue.update where_ change).lease version = queue.lease version ∨
      (queue.update where_ change).lease version = none ∧ Free clock (queue.lease version) := by
  simp only [Queue.lease]
  rw [find?_update key]
  cases found : queue.find? version with
  | none => exact .inl rfl
  | some row =>
    simp only [Option.map_some, Option.bind_some]
    split
    · exact .inr (ends row ‹_›)
    · exact .inl rfl

/-- Rows without a lease can be deleted. -/
theorem lease_delete (keyed : queue.Keyed) (free : ∀ row ∈ queue.transfers, where_ row = true → row.leaseOwner = none)
    (version : String) : (queue.delete where_).lease version = queue.lease version := by
  have found : (queue.delete where_).find? version = (queue.find? version).filter (!where_ ·) :=
    Rows.find?_key_filter keyed _
  simp only [Queue.lease]
  rw [found]
  cases here : queue.find? version with
  | none => rfl
  | some row =>
    cases deleted : where_ row with
    | false => rw [Option.filter_some_pos (by simp [deleted])]
    | true =>
      have none := free row (List.mem_of_find?_eq_some here) deleted
      rw [Option.filter_some_neg (by simp [deleted]), Option.bind_some, Transfer.lease, none]
      rfl

/-- An `UPDATE` that leaves the versions, and a lease to the rows that are uploading. -/
theorem Sound.update (sound : Sound queue) (key : ∀ row, (change row).localVersion = row.localVersion)
    (scope : ∀ row, row.connectionScope ≠ "" → (change row).connectionScope ≠ "")
    (leased : ∀ row, where_ row = true → Leased row → Leased (change row)) :
    Sound (queue.update where_ change) := by
  refine ⟨sound.keyed.update key, sound.scopes, fun row member => ?_, fun row member => ?_⟩
  · obtain ⟨old, there, ⟨_, rfl⟩ | ⟨_, rfl⟩⟩ := mem_update member
    · exact scope old (sound.scope old there)
    · exact sound.scope row there
  · obtain ⟨old, there, ⟨chosen, rfl⟩ | ⟨_, rfl⟩⟩ := mem_update member
    · exact leased old chosen (sound.leased old there)
    · exact sound.leased row there

theorem Sound.delete (sound : Sound queue) (where_ : Transfer → Bool) : Sound (queue.delete where_) :=
  ⟨sound.keyed.delete where_, sound.scopes, fun row member => sound.scope row (List.mem_of_mem_filter member),
    fun row member => sound.leased row (List.mem_of_mem_filter member)⟩

/-- The transfers that an operation on the run locks leaves alone. -/
theorem Sound.of_transfers {queue' : Queue} (sound : Sound queue) (same : queue'.transfers = queue.transfers)
    (scopes : (queue'.runLocks.map (·.connectionScope)).Nodup) : Sound queue' := by
  refine ⟨?_, scopes, ?_, ?_⟩
  · rw [Queue.Keyed, same]
    exact sound.keyed
  · rw [same]
    exact sound.scope
  · rw [same]
    exact sound.leased

/-- The leases of the transfers are in the rows. -/
theorem lease_of_transfers {queue' : Queue} (same : queue'.transfers = queue.transfers) (version : String) :
    queue'.lease version = queue.lease version := by
  simp only [Queue.lease, Queue.find?, same]

theorem mem_update_spared {row : Transfer} (member : row ∈ queue.transfers) (spared : where_ row = false) :
    row ∈ (queue.update where_ change).transfers :=
  List.mem_map.mpr ⟨row, member, by rw [spared]; rfl⟩

theorem Leased.state {old row : Transfer} (leased : Leased old) (owner : row.leaseOwner = old.leaseOwner)
    (state : row.state = old.state) : Leased row := by
  unfold Leased
  rw [owner, state]
  exact leased

/-- An update goes on with the transfer under its lease, or ends it and gives the lease up. -/
theorem Update.changes_cases (kind : Update) (now : Nat) :
    ((kind.changes now).state = none ∧ (kind.changes now).leaseOwner = none) ∨
      ∃ state, (kind.changes now).state = some state ∧ state ≠ .uploading ∧
        (kind.changes now).leaseOwner = some none := by
  cases kind with
  | block offset blocker => exact .inr ⟨.retry, rfl, nofun, rfl⟩
  | complete offset => exact .inr ⟨.complete, rfl, nofun, rfl⟩
  | caught record failure delay =>
    refine .inr ⟨_, rfl, ?_, rfl⟩
    split <;> nofun
  | _ => exact .inl ⟨rfl, rfl⟩

theorem Update.leased (kind : Update) {now : Nat} {row : Transfer} (leased : Leased row) :
    Leased ((kind.changes now).apply now row) := by
  rcases kind.changes_cases now with ⟨state, owner⟩ | ⟨ended, state, idle, owner⟩
  · exact leased.state (by simp only [Changes.apply, owner, Option.getD_none])
      (by simp only [Changes.apply, state, Option.getD_none])
  · apply leased_idle
    · simp only [Changes.apply, owner, Option.getD_some]
    · simpa only [Changes.apply, state, Option.getD_some] using idle

/-- An owner renews or surrenders what it has. -/
theorem Update.turns (kind : Update) {now : Nat} {row : Transfer} {owner : String}
    (own : row.leaseOwner = some owner) :
    Turns (some owner) clock row.lease ((kind.changes now).apply now row).lease := by
  rcases kind.changes_cases now with ⟨state, kept⟩ | ⟨ended, state, idle, given⟩
  · simp only [Transfer.lease, Changes.apply, kept, Option.getD_none, own, Option.map_some]
    exact .renewed owner _ _ rfl
  · simp only [Transfer.lease, Changes.apply, given, Option.getD_some, own, Option.map_some, Option.map_none]
    exact .surrendered owner _ rfl

section Claims

variable {scope owner : String} {now : Nat}

/-- A row that becomes a retry. -/
theorem retry_leased {row : Transfer} (free : row.leaseOwner = none) (state : row.state = .retry) :
    Leased row :=
  leased_idle free (by rw [state]; nofun)

theorem expireLeases_sound (sound : Sound queue) : Sound (queue.expireLeases scope now) :=
  sound.update (fun _ => rfl) (fun _ scope => scope) fun _ _ _ => retry_leased rfl rfl

/-- Only a lease that has expired is taken away. -/
theorem expireLeases_lapse (current : now ≤ clock) (version : String) :
    (queue.expireLeases scope now).lease version = queue.lease version ∨
      (queue.expireLeases scope now).lease version = none ∧ Free clock (queue.lease version) := by
  refine lapse_update ?_ (fun row expired => ⟨rfl, fun held has => ?_⟩) version
  · exact fun _ => rfl
  · obtain ⟨_, _, past⟩ := of_decide_eq_true expired
    obtain ⟨owner, _, rfl⟩ := Option.map_eq_some_iff.mp has
    exact Nat.le_trans past current

/-- The row that a claim picks. -/
def pending (scope : String) (picked row : Transfer) : Bool :=
  row.localVersion = picked.localVersion ∧ row.connectionScope = scope ∧
    (row.state = .queued ∨ row.state = .retry)

def grant (owner : String) (now : Nat) (row : Transfer) : Transfer :=
  { row with
    state := .uploading, leaseOwner := some owner, leaseExpiresAt := now + transferLeaseMs, updatedAt := now }

theorem claimNextTransfer_cases : (queue.claimNextTransfer scope owner now).1 = queue.expireLeases scope now ∨
    ∃ picked, (queue.claimNextTransfer scope owner now).1 =
      (queue.expireLeases scope now).update (pending scope picked) (grant owner now) := by
  unfold Queue.claimNextTransfer
  simp only
  split
  · exact .inl rfl
  · exact .inr ⟨_, rfl⟩

theorem pending_idle {picked row : Transfer} (chosen : pending scope picked row = true) :
    row.state ≠ .uploading ∧ row.state ≠ .complete := by
  obtain ⟨_, _, queued | retry⟩ := of_decide_eq_true chosen
  · rw [queued]
    exact ⟨nofun, nofun⟩
  · rw [retry]
    exact ⟨nofun, nofun⟩

theorem claimNextTransfer_sound (sound : Sound queue) : Sound (queue.claimNextTransfer scope owner now).1 := by
  have expired : Sound (queue.expireLeases scope now) := expireLeases_sound sound
  rcases @claimNextTransfer_cases queue scope owner now with same | ⟨picked, same⟩
  · rw [same]
    exact expired
  · rw [same]
    exact expired.update (fun _ => rfl) (fun _ scope => scope) fun _ _ _ => ⟨fun _ => rfl, fun _ => rfl⟩

theorem claimNextTransfer_lease (sound : Sound queue) (current : now ≤ clock) (version : String) :
    Turns (some owner) clock (queue.lease version)
      ((queue.claimNextTransfer scope owner now).1.lease version) := by
  have expired : Sound (queue.expireLeases scope now) := expireLeases_sound sound
  have lapse : (queue.expireLeases scope now).lease version = queue.lease version ∨
      (queue.expireLeases scope now).lease version = none ∧ Free clock (queue.lease version) :=
    expireLeases_lapse current version
  rcases @claimNextTransfer_cases queue scope owner now with same | ⟨picked, same⟩
  · rw [same]
    exact Turns.after_lapse lapse (.kept _)
  · rw [same]
    refine Turns.after_lapse lapse (turns_update ?_ (fun row member chosen => ?_) version)
    · exact fun _ => rfl
    have free := (expired.leased row member).none (pending_idle chosen).1
    simp only [Transfer.lease, free, Option.map_none]
    exact .granted none owner _ free_none rfl

/-- A finished row is neither expired nor claimed. -/
theorem claimNextTransfer_complete {row : Transfer} (member : row ∈ queue.transfers)
    (finished : row.state = .complete) : row ∈ (queue.claimNextTransfer scope owner now).1.transfers := by
  have kept : row ∈ (queue.expireLeases scope now).transfers := by
    refine mem_update_spared member (decide_eq_false ?_)
    rintro ⟨_, uploading, _⟩
    rw [finished] at uploading
    contradiction
  rcases @claimNextTransfer_cases queue scope owner now with same | ⟨picked, same⟩
  · rw [same]
    exact kept
  · rw [same]
    refine mem_update_spared kept (eq_false_of_ne_true fun chosen => ?_)
    exact (pending_idle chosen).2 finished

end Claims

section Enqueueing

variable {input : NewTransfer} {now : Nat}

/-- The statement of `enqueueTransfer` that inserts or updates the row. -/
def mergeTransfer (queue : Queue) (input : NewTransfer) (now : Nat) : Queue :=
  if (queue.find? input.localVersion).isSome then
    queue.update (fun row => row.localVersion = input.localVersion ∧ row.state ≠ .complete)
      fun row =>
        { row with
          connectionScope := input.connectionScope
          localId := input.localId
          filename := input.filename
          fileSize := if 0 < input.fileSize then input.fileSize else row.fileSize
          updatedAt := now }
  else
    { queue with
      transfers := queue.transfers ++
        [{ localVersion := input.localVersion, connectionScope := input.connectionScope
           localId := input.localId, filename := input.filename, fileSize := input.fileSize
           state := .queued, uploadId := none, offset := 0, chunkSize := none, attempts := 0
           retryAt := 0, lastError := none, leaseOwner := none, leaseExpiresAt := 0
           updatedAt := now }] }

theorem enqueueTransfer_eq : queue.enqueueTransfer input now = (mergeTransfer queue input now).delete
    fun row => row.connectionScope = input.connectionScope ∧ row.localId = input.localId ∧
      row.localVersion ≠ input.localVersion ∧ row.state = .complete := rfl

theorem mergeTransfer_sound (sound : Sound queue) (scope : input.connectionScope ≠ "") :
    Sound (mergeTransfer queue input now) := by
  unfold mergeTransfer
  split
  · exact sound.update (fun _ => rfl) (fun _ _ => scope) fun row _ leased => leased.state rfl rfl
  · rename_i absent
    refine ⟨Rows.nodup_map_append sound.keyed (find?_none absent), sound.scopes, fun row member => ?_,
      fun row member => ?_⟩
    · rcases List.mem_append.mp member with old | new
      · exact sound.scope row old
      · rw [List.mem_singleton.mp new]
        exact scope
    · rcases List.mem_append.mp member with old | new
      · exact sound.leased row old
      · rw [List.mem_singleton.mp new]
        exact leased_idle rfl nofun

theorem mergeTransfer_lease (version : String) :
    (mergeTransfer queue input now).lease version = queue.lease version := by
  unfold mergeTransfer
  split
  · refine lease_update ?_ ?_ version
    · exact fun _ => rfl
    · exact fun _ => rfl
  · simp only [Queue.lease, Queue.find?]
    rw [List.find?_append]
    cases queue.transfers.find? (·.localVersion = version) with
    | some row => rfl
    | none =>
      rw [Option.none_or, List.find?_singleton]
      split <;> rfl

theorem mergeTransfer_complete {row : Transfer} (member : row ∈ queue.transfers)
    (finished : row.state = .complete) : row ∈ (mergeTransfer queue input now).transfers := by
  unfold mergeTransfer
  split
  · exact mem_update_spared member (decide_eq_false fun both => both.2 finished)
  · exact List.mem_append_left _ member

theorem enqueueTransfer_sound (sound : Sound queue) (scope : input.connectionScope ≠ "") :
    Sound (queue.enqueueTransfer input now) := by
  rw [enqueueTransfer_eq]
  exact (mergeTransfer_sound sound scope).delete _

/-- The rows that give way to a newer version are finished. -/
theorem enqueueTransfer_lease (sound : Sound queue) (scope : input.connectionScope ≠ "") (version : String) :
    (queue.enqueueTransfer input now).lease version = queue.lease version := by
  have merged : Sound (mergeTransfer queue input now) := mergeTransfer_sound sound scope
  rw [enqueueTransfer_eq, lease_delete merged.keyed, mergeTransfer_lease]
  intro row member superseded
  obtain ⟨_, _, _, finished⟩ := of_decide_eq_true superseded
  exact (merged.leased row member).none (by rw [finished]; nofun)

theorem enqueueTransfer_complete (sound : Sound queue) (scope : input.connectionScope ≠ "") {row : Transfer}
    (member : row ∈ queue.transfers) (finished : row.state = .complete) :
    row ∈ (queue.enqueueTransfer input now).transfers ∨ (Operation.enqueue input now).Replaces row ∧
      ∀ other ∈ (queue.enqueueTransfer input now).transfers, other.localVersion ≠ row.localVersion := by
  have merged : Sound (mergeTransfer queue input now) := mergeTransfer_sound sound scope
  rw [enqueueTransfer_eq]
  by_cases superseded : (Operation.enqueue input now).Replaces row
  · refine .inr ⟨superseded, fun other left same => ?_⟩
    obtain ⟨there, kept⟩ := List.mem_filter.mp left
    obtain rfl := merged.keyed.unique there (mergeTransfer_complete member finished) same
    obtain ⟨scope, photo, version⟩ := superseded
    simp [scope, photo, version, finished] at kept
  · refine .inl (List.mem_filter.mpr ⟨mergeTransfer_complete member finished, ?_⟩)
    have spared : ¬ (row.connectionScope = input.connectionScope ∧ row.localId = input.localId ∧
        row.localVersion ≠ input.localVersion ∧ row.state = .complete) :=
      fun both => superseded ⟨both.1, both.2.1, both.2.2.1⟩
    simp only [decide_eq_false spared, Bool.not_false]

end Enqueueing

section Runs

variable {scope owner : String} {now : Nat}

theorem scopes_filter (sound : Sound queue) (p : RunLock → Bool) :
    ((queue.runLocks.filter p).map (·.connectionScope)).Nodup :=
  sound.scopes.sublist (List.filter_sublist.map _)

theorem runLease_filter (sound : Sound queue) (p : RunLock → Bool) (other : String) :
    Queue.runLease { queue with runLocks := queue.runLocks.filter p } other =
      ((queue.runLocks.find? (·.connectionScope = other)).filter p).map RunLock.lease := by
  simp only [Queue.runLease]
  rw [Rows.find?_key_filter sound.scopes]

/-- The locks that have expired can be deleted by anybody. -/
theorem expireRunLocks_turns (sound : Sound queue) (current : now ≤ clock) (other : String) :
    (queue.expireRunLocks now).runLease other = queue.runLease other ∨
      (queue.expireRunLocks now).runLease other = none ∧ Free clock (queue.runLease other) := by
  rw [Queue.expireRunLocks, runLease_filter sound, Queue.runLease]
  cases found : queue.runLocks.find? (·.connectionScope = other) with
  | none => exact .inl rfl
  | some lock =>
    by_cases alive : now < lock.expiresAt
    · rw [Option.filter_some_pos (by simpa using alive)]
      exact .inl rfl
    · rw [Option.filter_some_neg (by simpa using alive)]
      refine .inr ⟨rfl, fun held has => ?_⟩
      cases has
      exact Nat.le_trans (Nat.le_of_not_lt alive) current

theorem deleteRunLock_turns (sound : Sound queue) (other : String) : Turns (some owner) clock
    (queue.runLease other) ((queue.deleteRunLock scope owner).runLease other) := by
  rw [Queue.deleteRunLock, runLease_filter sound, Queue.runLease]
  cases found : queue.runLocks.find? (·.connectionScope = other) with
  | none => exact .kept none
  | some lock =>
    by_cases own : lock.connectionScope = scope ∧ lock.owner = owner
    · rw [Option.filter_some_neg (by simpa using own)]
      obtain ⟨_, rfl⟩ := own
      exact .surrendered lock.owner lock.expiresAt rfl
    · rw [Option.filter_some_pos (by simp only [decide_eq_false own, Bool.not_false])]
      exact .kept _

theorem renewBackupRun_turns (other : String) : Turns (some owner) clock (queue.runLease other)
    (((queue.renewBackupRun scope owner now).getD queue).runLease other) := by
  unfold Queue.renewBackupRun
  split
  · rw [Option.getD_some, Queue.runLease, Queue.runLease]
    have moved : (queue.runLocks.map fun lock => if lock.connectionScope = scope ∧ lock.owner = owner then
        { lock with expiresAt := now + runLeaseMs } else lock).find? (·.connectionScope = other) =
        (queue.runLocks.find? (·.connectionScope = other)).map fun lock =>
          if lock.connectionScope = scope ∧ lock.owner = owner then
            { lock with expiresAt := now + runLeaseMs } else lock := by
      apply Rows.find?_map_stable
      intro lock _
      split <;> rfl
    rw [moved]
    cases found : queue.runLocks.find? (·.connectionScope = other) with
    | none => exact .kept none
    | some lock =>
      simp only [Option.map_some]
      split
      · rename_i own
        obtain ⟨_, rfl⟩ := own
        exact .renewed lock.owner lock.expiresAt (now + runLeaseMs) rfl
      · exact .kept _
  · exact .kept _

/-- The locks after the scope's own has been taken. -/
def acquired (queue : Queue) (scope owner : String) (now : Nat) : Queue :=
  { queue with
    runLocks := (queue.runLocks.filter (now < ·.expiresAt)).filter (·.connectionScope ≠ scope) ++
      [{ connectionScope := scope, owner, expiresAt := now + runLeaseMs }] }

theorem acquireBackupRun_cases : (queue.acquireBackupRun scope owner now).getD (queue.expireRunLocks now) =
      queue.expireRunLocks now ∨
    (queue.acquireBackupRun scope owner now).getD (queue.expireRunLocks now) = acquired queue scope owner now ∧
      ∀ lock ∈ queue.runLocks, now < lock.expiresAt → lock.connectionScope = scope → lock.owner = owner := by
  unfold Queue.acquireBackupRun
  simp only
  split
  · rename_i all
    refine .inr ⟨rfl, fun lock member alive same => ?_⟩
    have allowed := List.all_eq_true.mp all lock (List.mem_filter.mpr ⟨member, decide_eq_true alive⟩)
    exact (of_decide_eq_true allowed).resolve_left (not_not_intro same)
  · exact .inl rfl

theorem acquired_self : (acquired queue scope owner now).runLease scope = some ⟨owner, now + runLeaseMs⟩ := by
  simp only [acquired, Queue.runLease]
  rw [List.find?_append]
  have others : ((queue.runLocks.filter (now < ·.expiresAt)).filter (·.connectionScope ≠ scope)).find?
      (·.connectionScope = scope) = none := by
    rw [List.find?_eq_none]
    intro lock member same
    exact of_decide_eq_true (List.mem_filter.mp member).2 (of_decide_eq_true same)
  rw [others, Option.none_or, List.find?_singleton, if_pos (decide_eq_true rfl)]
  rfl

theorem acquired_other (sound : Sound queue) {other : String} (different : other ≠ scope) :
    (acquired queue scope owner now).runLease other = (queue.expireRunLocks now).runLease other := by
  simp only [acquired, Queue.expireRunLocks, Queue.runLease]
  rw [List.find?_append, Rows.find?_key_filter (scopes_filter sound _)]
  have last : [(⟨scope, owner, now + runLeaseMs⟩ : RunLock)].find? (·.connectionScope = other) = none := by
    rw [List.find?_singleton, if_neg (by simpa using different.symm)]
  rw [last, Option.or_none]
  cases found : (queue.runLocks.filter (now < ·.expiresAt)).find? (·.connectionScope = other) with
  | none => rfl
  | some lock =>
    have same := (Rows.find?_key found).2
    rw [Option.filter_some_pos (by simpa using same ▸ different)]

theorem acquireBackupRun_turns (sound : Sound queue) (current : now ≤ clock) (other : String) :
    Turns (some owner) clock (queue.runLease other)
      (((queue.acquireBackupRun scope owner now).getD (queue.expireRunLocks now)).runLease other) := by
  rcases @acquireBackupRun_cases queue scope owner now with same | ⟨same, allowed⟩
  · rw [same]
    exact Turns.after_lapse (expireRunLocks_turns sound current other) (.kept _)
  · rw [same]
    by_cases here : other = scope
    · subst here
      rw [acquired_self, Queue.runLease]
      cases found : queue.runLocks.find? (·.connectionScope = other) with
      | none => exact .granted none owner _ free_none rfl
      | some lock =>
        obtain ⟨member, key⟩ := Rows.find?_key found
        by_cases alive : now < lock.expiresAt
        · obtain rfl := allowed lock member alive key
          exact .renewed lock.owner lock.expiresAt _ rfl
        · refine .granted _ owner _ (fun held has => ?_) rfl
          cases has
          exact Nat.le_trans (Nat.le_of_not_lt alive) current
    · rw [acquired_other sound here]
      exact Turns.after_lapse (expireRunLocks_turns sound current other) (.kept _)

theorem acquireBackupRun_sound (sound : Sound queue) :
    Sound ((queue.acquireBackupRun scope owner now).getD (queue.expireRunLocks now)) := by
  rcases @acquireBackupRun_cases queue scope owner now with same | ⟨same, _⟩
  · rw [same]
    exact sound.of_transfers rfl (scopes_filter sound _)
  · rw [same]
    refine sound.of_transfers rfl (Rows.nodup_map_append ?_ fun lock member => ?_)
    · exact (scopes_filter sound _).sublist (List.filter_sublist.map _)
    · exact of_decide_eq_true (List.mem_filter.mp member).2

theorem acquireBackupRun_transfers :
    ((queue.acquireBackupRun scope owner now).getD (queue.expireRunLocks now)).transfers = queue.transfers := by
  rcases @acquireBackupRun_cases queue scope owner now with same | ⟨same, _⟩ <;>
  · rw [same]
    rfl

theorem renewBackupRun_sound (sound : Sound queue) : Sound ((queue.renewBackupRun scope owner now).getD queue) := by
  unfold Queue.renewBackupRun
  split
  · refine sound.of_transfers rfl ?_
    have scopes : (queue.runLocks.map fun lock => if lock.connectionScope = scope ∧ lock.owner = owner then
        { lock with expiresAt := now + runLeaseMs } else lock).map (·.connectionScope) =
        queue.runLocks.map (·.connectionScope) := by
      rw [List.map_map]
      refine List.map_congr_left fun lock _ => ?_
      simp only [Function.comp_apply]
      split <;> rfl
    rw [Option.getD_some, scopes]
    exact sound.scopes
  · exact sound

theorem renewBackupRun_transfers : ((queue.renewBackupRun scope owner now).getD queue).transfers =
    queue.transfers := by
  unfold Queue.renewBackupRun
  split <;> rfl

end Runs

section Steps

variable {operation : Operation}

theorem apply_sound (sound : Sound queue) (named : operation.named = true) : Sound (operation.apply queue) := by
  cases operation with
  | tick => exact sound
  | dropUnscoped => exact sound.delete _
  | recoverLeases | retryFailed =>
    exact sound.update (fun _ => rfl) (fun _ scope => scope) fun _ _ _ => retry_leased rfl rfl
  | enqueue input now => exact enqueueTransfer_sound sound (of_decide_eq_true named)
  | acquire => exact acquireBackupRun_sound sound
  | renewRun => exact renewBackupRun_sound sound
  | deleteRunLock => exact sound.of_transfers rfl (scopes_filter sound _)
  | releaseTransfers =>
    exact sound.update (fun _ => rfl) (fun _ scope => scope) fun _ _ _ => retry_leased rfl rfl
  | claim => exact claimNextTransfer_sound sound
  | renewLease =>
    exact sound.update (fun _ => rfl) (fun _ scope => scope) fun _ _ leased => leased.state rfl rfl
  | update version owner kind now =>
    exact sound.update (fun _ => rfl) (fun _ scope => scope) fun _ _ leased => kind.leased leased
  | cancelPending => exact sound.delete _

/-- A finished row stays until another version of its photo replaces it. -/
theorem apply_complete (sound : Sound queue) (named : operation.named = true) {row : Transfer}
    (member : row ∈ queue.transfers) (finished : row.state = .complete) :
    row ∈ (operation.apply queue).transfers ∨ operation.Replaces row ∧
      ∀ other ∈ (operation.apply queue).transfers, other.localVersion ≠ row.localVersion := by
  have free : row.leaseOwner = none := (sound.leased row member).none (by rw [finished]; nofun)
  have unowned : ∀ version owner, Queue.owned version owner row = false := by
    refine fun version owner => decide_eq_false fun both => ?_
    rw [free] at both
    exact absurd both.2 nofun
  cases operation with
  | tick | deleteRunLock => exact .inl member
  | dropUnscoped =>
    refine .inl (List.mem_filter.mpr ⟨member, ?_⟩)
    simpa using sound.scope row member
  | recoverLeases | retryFailed | releaseTransfers =>
    refine .inl (mem_update_spared member (decide_eq_false ?_))
    simp [finished]
  | enqueue input now => exact enqueueTransfer_complete sound (of_decide_eq_true named) member finished
  | acquire =>
    refine .inl ?_
    rw [Operation.apply, acquireBackupRun_transfers]
    exact member
  | renewRun =>
    refine .inl ?_
    rw [Operation.apply, renewBackupRun_transfers]
    exact member
  | claim => exact .inl (claimNextTransfer_complete member finished)
  | renewLease version owner now => exact .inl (mem_update_spared member (unowned version owner))
  | update version owner kind now => exact .inl (mem_update_spared member (unowned version owner))
  | cancelPending scope =>
    refine .inl (List.mem_filter.mpr ⟨member, ?_⟩)
    simp [finished]

/-- An owner whose name is not on the row changes nothing. -/
theorem apply_lost {version owner : String} (updates : operation.updates = some (version, owner))
    (lost : ∀ row ∈ queue.transfers, row.localVersion = version → row.leaseOwner ≠ some owner) :
    operation.apply queue = queue := by
  have spared : ∀ change, queue.update (Queue.owned version owner) change = queue := by
    intro change
    have same : queue.transfers.map (fun row => if Queue.owned version owner row then change row else row) =
        queue.transfers := by
      refine (List.map_congr_left fun row member => if_neg fun own => ?_).trans (List.map_id _)
      obtain ⟨key, lease⟩ := of_decide_eq_true own
      exact lost row member key lease
    rw [Queue.update, same]
  cases operation with
  | renewLease | update =>
    cases updates
    exact spared _
  | _ => contradiction

theorem apply_lease (sound : Sound queue) (named : operation.named = true) (current : operation.now ≤ clock)
    (version : String) :
    Turns operation.actor clock (queue.lease version) ((operation.apply queue).lease version) := by
  have idle : ∀ row ∈ queue.transfers, row.state ≠ .uploading → row.leaseOwner = none :=
    fun row member => (sound.leased row member).none
  cases operation with
  | tick | deleteRunLock => exact .kept _
  | dropUnscoped =>
    have same : queue.dropUnscoped.lease version = queue.lease version := by
      refine lease_delete sound.keyed (fun row member unscoped => ?_) version
      exact absurd (of_decide_eq_true unscoped) (sound.scope row member)
    rw [Operation.apply, same]
    exact .kept _
  | recoverLeases =>
    refine turns_update ?_ (fun row member expired => .lapsed _ fun held has => ?_) version
    · exact fun _ => rfl
    · obtain ⟨owner, _, rfl⟩ := Option.map_eq_some_iff.mp has
      exact (of_decide_eq_true expired).2 ▸ Nat.zero_le clock
  | enqueue input now =>
    rw [Operation.apply, enqueueTransfer_lease sound (of_decide_eq_true named)]
    exact .kept _
  | acquire =>
    rw [Operation.apply, lease_of_transfers acquireBackupRun_transfers]
    exact .kept _
  | renewRun =>
    rw [Operation.apply, lease_of_transfers renewBackupRun_transfers]
    exact .kept _
  | releaseTransfers scope owner now =>
    refine turns_update ?_ (fun row member own => ?_) version
    · exact fun _ => rfl
    · simp only [Transfer.lease, (of_decide_eq_true own).2.2, Option.map_some, Option.map_none]
      exact .surrendered owner _ rfl
  | claim => exact claimNextTransfer_lease sound current version
  | renewLease version' owner now =>
    refine turns_update ?_ (fun row member own => ?_) version
    · exact fun _ => rfl
    · simp only [Transfer.lease, Changes.apply, Option.getD_none, (of_decide_eq_true own).2, Option.map_some]
      exact .renewed owner _ _ rfl
  | update version' owner kind now =>
    refine turns_update ?_ (fun row member own => ?_) version
    · exact fun _ => rfl
    · exact kind.turns (of_decide_eq_true own).2
  | retryFailed scope now =>
    refine turns_update ?_ (fun row member failed => ?_) version
    · exact fun _ => rfl
    · have free := idle row member (by rw [(of_decide_eq_true failed).2]; intro same; cases same)
      simp only [Transfer.lease, free, Option.map_none]
      exact .kept none
  | cancelPending scope =>
    have same : (queue.cancelPendingTransfers scope).lease version = queue.lease version := by
      refine lease_delete sound.keyed (fun row member pending => idle row member ?_) version
      rcases (of_decide_eq_true pending).2 with state | state | state <;>
      · rw [state]
        intro same
        cases same
    rw [Operation.apply, same]
    exact .kept _

theorem claimNextTransfer_runLocks {scope owner : String} {now : Nat} :
    (queue.claimNextTransfer scope owner now).1.runLocks = queue.runLocks := by
  rcases @claimNextTransfer_cases queue scope owner now with same | ⟨picked, same⟩ <;>
  · rw [same]
    rfl

theorem enqueueTransfer_runLocks {input : NewTransfer} {now : Nat} :
    (queue.enqueueTransfer input now).runLocks = queue.runLocks := by
  rw [enqueueTransfer_eq, mergeTransfer]
  split <;> rfl

theorem apply_run (sound : Sound queue) (current : operation.now ≤ clock) (scope : String) :
    Turns operation.actor clock (queue.runLease scope) ((operation.apply queue).runLease scope) := by
  cases operation with
  | acquire => exact acquireBackupRun_turns sound current scope
  | renewRun => exact renewBackupRun_turns scope
  | deleteRunLock => exact deleteRunLock_turns sound scope
  | claim =>
    rw [Operation.apply, Queue.runLease, Queue.runLease, claimNextTransfer_runLocks]
    exact .kept _
  | enqueue =>
    rw [Operation.apply, Queue.runLease, Queue.runLease, enqueueTransfer_runLocks]
    exact .kept _
  | _ => exact .kept _

theorem operate_cases {s t : Phone} (stepped : operate s operation = some t) :
    t.queue = operation.apply s.queue ∧ operation.now ≤ s.clock ∧ operation.named = true := by
  cases operation with
  | tick elapsed =>
    cases stepped
    exact ⟨rfl, Nat.zero_le _, rfl⟩
  | _ =>
    simp only [operate] at stepped
    split at stepped
    · rename_i admitted
      cases stepped
      exact ⟨rfl, admitted⟩
    · contradiction

theorem operate_sound {s t : Phone} (sound : Sound s.queue) (stepped : operate s operation = some t) :
    Sound t.queue := by
  obtain ⟨same, _, named⟩ := operate_cases stepped
  rw [same]
  exact apply_sound sound named

theorem operate_orderly {s t : Phone} (sound : Sound s.queue) (stepped : operate s operation = some t) :
    Orderly s operation t := by
  have after := operate_sound sound stepped
  obtain ⟨same, current, named⟩ := operate_cases stepped
  refine ⟨after.leased, fun a here b there key => after.keyed.unique here there key,
    fun a here b there key => List.inj_on_of_nodup_map after.scopes here there key, ?_, ?_, ?_, ?_⟩
  · intro version owner updates lost
    rw [same]
    exact apply_lost updates lost
  · intro row member finished
    rw [same]
    exact apply_complete sound named member finished
  · intro version
    rw [same]
    exact apply_lease sound named current version
  · intro scope
    rw [same]
    exact apply_run sound current scope

/-- Rows of an earlier build that were uploading become retries. -/
theorem openDatabase_sound (found : Found queue) : Sound queue.openDatabase := by
  rw [Queue.openDatabase_eq]
  refine ⟨(found.keyed.delete _).update fun _ => rfl, found.scopes, fun row member => ?_, fun row member => ?_⟩
  · obtain ⟨old, there, ⟨_, rfl⟩ | ⟨_, rfl⟩⟩ := mem_update member
    · simpa using (List.mem_filter.mp there).2
    · simpa using (List.mem_filter.mp there).2
  · obtain ⟨old, there, ⟨_, rfl⟩ | ⟨spared, rfl⟩⟩ := mem_update member
    · exact retry_leased rfl rfl
    · rcases found.leased row (List.mem_of_mem_filter there) with leased | ⟨free, unset⟩
      · exact leased
      · exact leased_idle free fun uploading => of_decide_eq_false spared ⟨uploading, unset⟩

end Steps

/-- In every run from a database that an earlier build or this one has left, a row has a lease
iff it is uploading, an update with an owner that has not got the lease changes nothing, a
finished row stays as it is until another version of its photo is enqueued, a transfer has one
lease and a scope one run lock, and neither passes to another owner before it has expired or
its owner has given it up. -/
theorem leases_are_exclusive {queue : Queue} (found : Found queue) (clock : Nat)
    (operations : List Operation) :
    Along operate (fun s operation => ∀ t, operate s operation = some t → Orderly s operation t)
      ⟨queue.openDatabase, clock⟩ operations := by
  refine along_of_invariant (C := fun _ _ => True) (I := fun s => Sound s.queue) ?_ ?_
    (openDatabase_sound found) (along_true _ _)
  · exact fun _ _ _ sound _ stepped => operate_sound sound stepped
  · exact fun _ _ sound _ _ stepped => operate_orderly sound stepped

def nextPhoto (version : String) : NewTransfer := ⟨version, "phone", "1", "a.jpg", 0⟩

/-- A photo that an earlier build was uploading. -/
def earlierBuild : Queue where
  transfers := [{
    localVersion := "phone:1:5", connectionScope := "phone", localId := "1", filename := "a.jpg", fileSize := 9
    state := .uploading, uploadId := none, offset := 0, chunkSize := none, attempts := 0, retryAt := 0
    lastError := none, leaseOwner := none, leaseExpiresAt := 0, updatedAt := 0 }]
  runLocks := []

/-- One run is killed while it uploads; another takes over when its leases have expired, and
what the first still sends changes nothing. -/
def takeover : List Operation :=
  [.acquire "phone" "manual:1" 1000, .claim "phone" "manual:1" 1000, .tick 400000,
    .acquire "phone" "background:2" 401000, .claim "phone" "background:2" 401000,
    .update "phone:1:5" "manual:1" (.advance 4) 401000, .update "phone:1:5" "background:2" (.complete 9) 401000,
    .deleteRunLock "phone" "background:2", .releaseTransfers "phone" "background:2" 401000,
    .enqueue (nextPhoto "phone:1:6") 401000]

theorem earlierBuild_found : Found earlierBuild :=
  ⟨List.nodup_singleton _, List.nodup_nil, fun row member => by
    rw [List.mem_singleton.mp member]
    exact .inr ⟨rfl, rfl⟩⟩

theorem takeover_is_orderly :
    (run operate ⟨earlierBuild.openDatabase, 1000⟩ takeover).map
        (fun t => t.queue.transfers.map fun row => (row.localVersion, row.state)) =
      some [("phone:1:6", .queued)] ∧
      Along operate (fun s operation => ∀ t, operate s operation = some t → Orderly s operation t)
        ⟨earlierBuild.openDatabase, 1000⟩ takeover :=
  ⟨by decide +kernel, leases_are_exclusive earlierBuild_found 1000 takeover⟩

end Drivebound.Mobile
