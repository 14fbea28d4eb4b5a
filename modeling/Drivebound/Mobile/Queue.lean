import Mathlib.Data.List.Nodup
import Drivebound.Catalog

/-! `mobile/src/queue.ts`: the transfer queue in the phone's database. Each
exported function is one statement or one exclusive transaction, so each is one
operation on the tables. `Stems` is what every operation but an update of the
lease's own holder guarantees about the rows it leaves. -/
namespace Drivebound.Mobile

inductive TransferState where
  | queued | uploading | retry | complete | failed
  deriving DecidableEq, Repr

structure Transfer where
  localVersion : String
  connectionScope : String
  localId : String
  filename : String
  fileSize : Nat
  state : TransferState
  uploadId : Option UUID
  offset : Nat
  chunkSize : Option Nat
  attempts : Nat
  retryAt : Nat
  lastError : Option String
  leaseOwner : Option String
  leaseExpiresAt : Nat
  updatedAt : Nat
  deriving DecidableEq, Repr

structure NewTransfer where
  localVersion : String
  connectionScope : String
  localId : String
  filename : String
  fileSize : Nat
  deriving DecidableEq, Repr

/-- A row of `backup_run_locks`. -/
structure RunLock where
  connectionScope : String
  owner : String
  expiresAt : Nat
  deriving DecidableEq, Repr

structure Queue where
  transfers : List Transfer
  runLocks : List RunLock
  deriving DecidableEq, Repr

def transferLeaseMs : Nat := 5 * 60 * 1000

def runLeaseMs : Nat := 5 * 60 * 1000

/-- `Partial<MutableTransferFields>`; an absent key is `none`. -/
structure Changes where
  state : Option TransferState := none
  uploadId : Option (Option UUID) := none
  offset : Option Nat := none
  chunkSize : Option (Option Nat) := none
  attempts : Option Nat := none
  retryAt : Option Nat := none
  lastError : Option (Option String) := none
  fileSize : Option Nat := none
  leaseOwner : Option (Option String) := none
  leaseExpiresAt : Option Nat := none
  deriving DecidableEq, Repr

def Changes.apply (changes : Changes) (now : Nat) (row : Transfer) : Transfer :=
  { row with
    state := changes.state.getD row.state
    uploadId := changes.uploadId.getD row.uploadId
    offset := changes.offset.getD row.offset
    chunkSize := changes.chunkSize.getD row.chunkSize
    attempts := changes.attempts.getD row.attempts
    retryAt := changes.retryAt.getD row.retryAt
    lastError := changes.lastError.getD row.lastError
    fileSize := changes.fileSize.getD row.fileSize
    leaseOwner := changes.leaseOwner.getD row.leaseOwner
    leaseExpiresAt := changes.leaseExpiresAt.getD row.leaseExpiresAt
    updatedAt := now }

namespace Queue

/-- `UPDATE transfers SET … WHERE …`. -/
def update (queue : Queue) (where_ : Transfer → Bool) (change : Transfer → Transfer) : Queue :=
  { queue with transfers := queue.transfers.map fun row => if where_ row then change row else row }

/-- `DELETE FROM transfers WHERE …`. -/
def delete (queue : Queue) (where_ : Transfer → Bool) : Queue :=
  { queue with transfers := queue.transfers.filter (!where_ ·) }

def find? (queue : Queue) (localVersion : String) : Option Transfer :=
  queue.transfers.find? (·.localVersion = localVersion)

/-- The upgrade and recovery statements that `database` runs when it is opened. -/
def openDatabase (queue : Queue) : Queue :=
  (queue.delete (·.connectionScope = "")).update
    (fun row => row.state = .uploading ∧ row.leaseExpiresAt = 0)
    fun row =>
      { row with state := .retry, retryAt := 0, leaseOwner := none, leaseExpiresAt := 0 }

def enqueueTransfer (queue : Queue) (input : NewTransfer) (now : Nat) : Queue :=
  let merged :=
    if (queue.find? input.localVersion).isSome then
      queue.update (fun row => row.localVersion = input.localVersion ∧ row.state ≠ .complete)
        fun row =>
          { row with
            connectionScope := input.connectionScope
            localId := input.localId
            filename := input.filename
            fileSize := if 0 < input.fileSize then input.fileSize else row.fileSize
            updatedAt := now }
    else
      { queue with
        transfers := queue.transfers ++
          [{ localVersion := input.localVersion, connectionScope := input.connectionScope
             localId := input.localId, filename := input.filename, fileSize := input.fileSize
             state := .queued, uploadId := none, offset := 0, chunkSize := none, attempts := 0
             retryAt := 0, lastError := none, leaseOwner := none, leaseExpiresAt := 0
             updatedAt := now }] }
  merged.delete fun row => row.connectionScope = input.connectionScope ∧
    row.localId = input.localId ∧ row.localVersion ≠ input.localVersion ∧ row.state = .complete

/-- `none` where another run holds the scope's lock. -/
def acquireBackupRun (queue : Queue) (connectionScope owner : String) (now : Nat) : Option Queue :=
  let locks := queue.runLocks.filter (now < ·.expiresAt)
  if locks.all fun lock => lock.connectionScope ≠ connectionScope ∨ lock.owner = owner then
    some { queue with
      runLocks := locks.filter (·.connectionScope ≠ connectionScope) ++
        [{ connectionScope, owner, expiresAt := now + runLeaseMs }] }
  else none

/-- `none` where the run does not hold its lock any more. -/
def renewBackupRun (queue : Queue) (connectionScope owner : String) (now : Nat) : Option Queue :=
  if queue.runLocks.any fun lock => lock.connectionScope = connectionScope ∧ lock.owner = owner then
    some { queue with
      runLocks := queue.runLocks.map fun lock =>
        if lock.connectionScope = connectionScope ∧ lock.owner = owner then
          { lock with expiresAt := now + runLeaseMs }
        else lock }
  else none

def deleteRunLock (queue : Queue) (connectionScope owner : String) : Queue :=
  { queue with
    runLocks := queue.runLocks.filter fun lock =>
      !(lock.connectionScope = connectionScope ∧ lock.owner = owner) }

def releaseBackupRun (queue : Queue) (connectionScope owner : String) (now : Nat) : Queue :=
  (queue.deleteRunLock connectionScope owner).update
    (fun row => row.connectionScope = connectionScope ∧ row.state = .uploading ∧
      row.leaseOwner = some owner)
    fun row =>
      { row with state := .retry, leaseOwner := none, leaseExpiresAt := 0, updatedAt := now }

/-- The order of `claimNextTransfer`: retries first, then the oldest update. -/
def precedes (a b : Transfer) : Bool :=
  if a.state = .retry ↔ b.state = .retry then a.updatedAt ≤ b.updatedAt else a.state = .retry

def first : List Transfer → Option Transfer
  | [] => none
  | row :: rest =>
    match first rest with
    | none => some row
    | some other => if precedes row other then some row else some other

/-- Transfers whose lease has expired become retries before one is picked. -/
def expireLeases (queue : Queue) (connectionScope : String) (now : Nat) : Queue :=
  queue.update
    (fun row => row.connectionScope = connectionScope ∧ row.state = .uploading ∧
      row.leaseExpiresAt ≤ now)
    fun row =>
      { row with state := .retry, leaseOwner := none, leaseExpiresAt := 0, updatedAt := now }

def claimNextTransfer (queue : Queue) (connectionScope owner : String) (now : Nat) :
    Queue × Option Transfer :=
  let queue := queue.expireLeases connectionScope now
  let pending := queue.transfers.filter fun row => row.connectionScope = connectionScope ∧
    (row.state = .queued ∨ row.state = .retry) ∧ row.retryAt ≤ now
  match first pending with
  | none => (queue, none)
  | some picked =>
    let claimed := queue.update
      (fun row => row.localVersion = picked.localVersion ∧
        row.connectionScope = connectionScope ∧ (row.state = .queued ∨ row.state = .retry))
      fun row =>
        { row with
          state := .uploading, leaseOwner := some owner
          leaseExpiresAt := now + transferLeaseMs, updatedAt := now }
    (claimed, claimed.find? picked.localVersion)

/-- The row that `updateTransfer` changes for an owner. -/
def owned (localVersion owner : String) (row : Transfer) : Bool :=
  row.localVersion = localVersion ∧ row.leaseOwner = some owner

/-- `updateTransfer` with an owner; it answers whether a row was changed. -/
def updateTransfer (queue : Queue) (localVersion : String) (changes : Changes) (owner : String)
    (now : Nat) : Queue × Bool :=
  (queue.update (owned localVersion owner) (changes.apply now),
    queue.transfers.any (owned localVersion owner))

def renewTransferLease (queue : Queue) (localVersion owner : String) (now : Nat) : Queue × Bool :=
  queue.updateTransfer localVersion { leaseExpiresAt := some (now + transferLeaseMs) } owner now

def retryFailedTransfers (queue : Queue) (connectionScope : String) (now : Nat) : Queue :=
  queue.update (fun row => row.connectionScope = connectionScope ∧ row.state = .failed)
    fun row =>
      { row with
        state := .retry, attempts := 0, retryAt := 0, lastError := none
        leaseOwner := none, leaseExpiresAt := 0, updatedAt := now }

def cancelPendingTransfers (queue : Queue) (connectionScope : String) : Queue :=
  queue.delete fun row => row.connectionScope = connectionScope ∧
    (row.state = .queued ∨ row.state = .retry ∨ row.state = .failed)

end Queue

/-- What an operation other than an update by the lease's holder makes of a row.
`actor` is the owner that may have got the lease or changed the row under it. -/
structure Stems (actor : Option String) (old row : Transfer) : Prop where
  key : row.localVersion = old.localVersion
  upload : ∀ id ∈ row.uploadId, id ∈ old.uploadId
  unfinished : row.state = .complete → old.state = .complete
  lease : ∀ owner ∈ row.leaseOwner, some owner ≠ actor →
    owner ∈ old.leaseOwner ∧ row.uploadId = old.uploadId

/-- A row that `enqueueTransfer` inserts. -/
def Fresh (row : Transfer) : Prop :=
  row.state ≠ .complete ∧ row.uploadId = none ∧ row.leaseOwner = none

/-- The primary key of `transfers`. -/
def Queue.Keyed (queue : Queue) : Prop := (queue.transfers.map Transfer.localVersion).Nodup

/-- Every row that an operation leaves is new or stems from an old one. -/
structure Follows (actor : Option String) (queue queue' : Queue) : Prop where
  rows : ∀ row ∈ queue'.transfers, Fresh row ∨ ∃ old ∈ queue.transfers, Stems actor old row
  keyed : queue.Keyed → queue'.Keyed

variable {actor : Option String} {queue queue' queue'' : Queue}

theorem Stems.refl (row : Transfer) : Stems actor row row :=
  ⟨rfl, fun _ here => here, fun finished => finished, fun _ here _ => ⟨here, rfl⟩⟩

theorem Stems.trans (first : Stems actor a b) (second : Stems actor b c) : Stems actor a c where
  key := second.key.trans first.key
  upload id here := first.upload id (second.upload id here)
  unfinished finished := first.unfinished (second.unfinished finished)
  lease owner here other := by
    obtain ⟨before, same⟩ := second.lease owner here other
    obtain ⟨earlier, same'⟩ := first.lease owner before other
    exact ⟨earlier, same.trans same'⟩

/-- A row without upload and lease has nothing that could be wrong. -/
theorem Stems.fresh (stems : Stems none old row) (fresh : Fresh old) : Fresh row := by
  obtain ⟨unfinished, noUpload, noLease⟩ := fresh
  refine ⟨fun finished => unfinished (stems.unfinished finished), ?_, ?_⟩
  · refine Option.eq_none_iff_forall_not_mem.mpr fun id here => ?_
    have there := stems.upload id here
    rw [noUpload] at there
    contradiction
  · refine Option.eq_none_iff_forall_not_mem.mpr fun owner here => ?_
    have there := (stems.lease owner here (by simp)).1
    rw [noLease] at there
    contradiction

theorem Follows.refl (queue : Queue) : Follows actor queue queue :=
  ⟨fun row member => .inr ⟨row, member, .refl row⟩, fun keyed => keyed⟩

theorem Stems.weaken (stems : Stems none old row) : Stems actor old row :=
  ⟨stems.key, stems.upload, stems.unfinished, fun owner here _ => stems.lease owner here (by simp)⟩

theorem Follows.weaken (follows : Follows none queue queue') : Follows actor queue queue' where
  rows row member := (follows.rows row member).imp_right fun ⟨old, there, stems⟩ =>
    ⟨old, there, stems.weaken⟩
  keyed := follows.keyed

theorem Follows.trans (first : Follows none queue queue') (second : Follows none queue' queue'') :
    Follows none queue queue'' where
  rows row member := by
    rcases second.rows row member with new | ⟨middle, there, stems⟩
    · exact .inl new
    · rcases first.rows middle there with new | ⟨old, here, before⟩
      · exact .inl (stems.fresh new)
      · exact .inr ⟨old, here, before.trans stems⟩
  keyed known := second.keyed (first.keyed known)

theorem mem_update {where_ : Transfer → Bool} {change : Transfer → Transfer}
    (member : row ∈ (queue.update where_ change).transfers) :
    ∃ old ∈ queue.transfers, (where_ old ∧ row = change old) ∨ (where_ old = false ∧ row = old) := by
  obtain ⟨old, there, same⟩ := List.mem_map.mp member
  refine ⟨old, there, ?_⟩
  split at same
  · rename_i chosen
    exact .inl ⟨chosen, same.symm⟩
  · rename_i spared
    exact .inr ⟨Bool.not_eq_true _ ▸ spared, same.symm⟩

theorem Queue.Keyed.update (keyed : queue.Keyed) {where_ : Transfer → Bool}
    {change : Transfer → Transfer}
    (key : ∀ row, (change row).localVersion = row.localVersion) :
    (queue.update where_ change).Keyed := by
  have same : (queue.update where_ change).transfers.map Transfer.localVersion =
      queue.transfers.map Transfer.localVersion := by
    simp only [Queue.update, List.map_map]
    refine List.map_congr_left fun row _ => ?_
    simp only [Function.comp_apply]
    split
    · exact key row
    · rfl
  rw [Queue.Keyed, same]
  exact keyed

theorem Queue.Keyed.delete (keyed : queue.Keyed) (where_ : Transfer → Bool) :
    (queue.delete where_).Keyed :=
  keyed.sublist (List.filter_sublist.map _)

/-- What an `UPDATE` does to the rows that it changes is what it does to the table. -/
theorem stems_of_update {where_ : Transfer → Bool} {change : Transfer → Transfer}
    (stems : ∀ row, where_ row → Stems actor row (change row))
    (member : row ∈ (queue.update where_ change).transfers) :
    ∃ old ∈ queue.transfers, Stems actor old row := by
  obtain ⟨old, there, ⟨chosen, rfl⟩ | ⟨_, rfl⟩⟩ := mem_update member
  · exact ⟨old, there, stems old chosen⟩
  · exact ⟨row, there, .refl row⟩

theorem Follows.update {where_ : Transfer → Bool} {change : Transfer → Transfer}
    (stems : ∀ row, where_ row → Stems actor row (change row))
    (key : ∀ row, (change row).localVersion = row.localVersion) :
    Follows actor queue (queue.update where_ change) where
  rows _ member := .inr (stems_of_update stems member)
  keyed keyed := keyed.update key

theorem Follows.delete (where_ : Transfer → Bool) : Follows actor queue (queue.delete where_) where
  rows row member := .inr ⟨row, List.mem_of_mem_filter member, .refl row⟩
  keyed keyed := keyed.delete where_

/-- A row that loses its lease and keeps its upload. -/
theorem Stems.release {old row : Transfer} (key : row.localVersion = old.localVersion)
    (upload : row.uploadId = old.uploadId) (unfinished : row.state ≠ .complete)
    (lease : row.leaseOwner = none) : Stems actor old row where
  key := key
  upload id here := upload ▸ here
  unfinished finished := absurd finished unfinished
  lease owner here := by
    rw [lease] at here
    contradiction

/-- The run locks are another table. -/
theorem Follows.of_transfers (same : queue'.transfers = queue.transfers) :
    Follows actor queue queue' where
  rows row member := .inr ⟨row, same ▸ member, .refl row⟩
  keyed keyed := by
    rw [Queue.Keyed, same]
    exact keyed

theorem openDatabase_follows : Follows none queue queue.openDatabase :=
  (Follows.delete _).trans (Follows.update (fun _ _ => .release rfl rfl nofun rfl) fun _ => rfl)

theorem releaseBackupRun_follows {scope owner : String} {now : Nat} :
    Follows none queue (queue.releaseBackupRun scope owner now) := by
  have unlocked : Follows none queue (queue.deleteRunLock scope owner) := .of_transfers rfl
  exact unlocked.trans (Follows.update (fun _ _ => .release rfl rfl nofun rfl) fun _ => rfl)

theorem retryFailedTransfers_follows {scope : String} {now : Nat} :
    Follows none queue (queue.retryFailedTransfers scope now) :=
  Follows.update (fun _ _ => .release rfl rfl nofun rfl) fun _ => rfl

theorem expireLeases_stems {scope : String} {now : Nat}
    (member : row ∈ (queue.expireLeases scope now).transfers) :
    ∃ old ∈ queue.transfers, Stems actor old row := by
  unfold Queue.expireLeases at member
  refine stems_of_update (fun old _ => ?_) member
  exact .release rfl rfl nofun rfl

theorem expireLeases_keyed {scope : String} {now : Nat} (keyed : queue.Keyed) :
    (queue.expireLeases scope now).Keyed :=
  keyed.update fun _ => rfl

theorem cancelPendingTransfers_follows {scope : String} :
    Follows none queue (queue.cancelPendingTransfers scope) :=
  Follows.delete _

theorem acquireBackupRun_follows {scope owner : String} {now : Nat}
    (acquired : queue.acquireBackupRun scope owner now = some queue') :
    Follows none queue queue' := by
  simp only [Queue.acquireBackupRun] at acquired
  split_ifs at acquired
  cases acquired
  exact .of_transfers rfl

theorem renewBackupRun_follows {scope owner : String} {now : Nat}
    (renewed : queue.renewBackupRun scope owner now = some queue') : Follows none queue queue' := by
  unfold Queue.renewBackupRun at renewed
  split_ifs at renewed
  cases renewed
  exact .of_transfers rfl

theorem find?_none {version : String} (absent : ¬ (queue.find? version).isSome) :
    ∀ row ∈ queue.transfers, row.localVersion ≠ version := by
  intro row member same
  have none : queue.find? version = none := Option.not_isSome_iff_eq_none.mp absent
  exact List.find?_eq_none.mp none row member (decide_eq_true same)

theorem enqueueTransfer_follows {input : NewTransfer} {now : Nat} :
    Follows none queue (queue.enqueueTransfer input now) := by
  unfold Queue.enqueueTransfer
  refine Follows.trans ?_ (Follows.delete _)
  split
  · refine Follows.update (fun row _ => ?_) fun _ => rfl
    exact ⟨rfl, fun _ here => here, fun finished => finished, fun _ here _ => ⟨here, rfl⟩⟩
  · rename_i absent
    refine ⟨fun row member => ?_, fun keyed => ?_⟩
    · rcases List.mem_append.mp member with old | new
      · exact .inr ⟨row, old, .refl row⟩
      · rw [List.mem_singleton.mp new]
        exact .inl ⟨nofun, rfl, rfl⟩
    · have fresh := find?_none absent
      rw [Queue.Keyed, List.map_append, List.nodup_append]
      refine ⟨keyed, List.nodup_singleton _, ?_⟩
      intro a old b new same
      obtain ⟨row, member, version⟩ := List.mem_map.mp old
      obtain rfl := List.mem_singleton.mp new
      exact fresh row member (version.trans same)

/-- One row has the key. -/
theorem Queue.Keyed.unique (keyed : queue.Keyed) (here : a ∈ queue.transfers)
    (there : b ∈ queue.transfers) (same : a.localVersion = b.localVersion) : a = b :=
  List.inj_on_of_nodup_map keyed here there same

/-- A claim gives one pending row to the owner. -/
theorem claimNextTransfer_follows {scope owner : String} {now : Nat} :
    Follows (some owner) queue (queue.claimNextTransfer scope owner now).1 := by
  unfold Queue.claimNextTransfer
  simp only
  split
  · exact ⟨fun row member => .inr (expireLeases_stems member), expireLeases_keyed⟩
  · refine ⟨fun row member => .inr ?_, fun keyed => ?_⟩
    case refine_2 => exact (expireLeases_keyed keyed).update fun _ => rfl
    have claimed : ∀ old : Transfer, Stems (some owner) old
        { old with
          state := .uploading, leaseOwner := some owner
          leaseExpiresAt := now + transferLeaseMs, updatedAt := now } := by
      intro old
      refine ⟨rfl, fun _ here => here, nofun, fun other here different => ?_⟩
      exact absurd here different.symm
    obtain ⟨middle, there, second⟩ := stems_of_update (fun old _ => claimed old) member
    obtain ⟨old, here, first⟩ := expireLeases_stems there
    exact ⟨old, here, first.trans second⟩

/-- The claimed transfer as `SELECT` reads it back. -/
theorem claimNextTransfer_mem {scope owner : String} {now : Nat}
    (claimed : (queue.claimNextTransfer scope owner now).2 = some record) :
    record ∈ (queue.claimNextTransfer scope owner now).1.transfers := by
  unfold Queue.claimNextTransfer at claimed ⊢
  simp only at claimed ⊢
  split at claimed
  · contradiction
  · exact List.mem_of_find?_eq_some claimed

/-- The row of a transfer, while the owner has its lease, names this upload. -/
def Link (version owner : String) (upload : Option UUID) (queue : Queue) : Prop :=
  ∀ row ∈ queue.transfers, row.localVersion = version → row.leaseOwner = some owner →
    row.uploadId = upload

theorem Link.follows {version owner : String} {upload : Option UUID}
    (link : Link version owner upload queue) (follows : Follows actor queue queue')
    (other : some owner ≠ actor) : Link version owner upload queue' := by
  intro row member same held
  rcases follows.rows row member with ⟨_, _, noLease⟩ | ⟨old, there, stems⟩
  · rw [noLease] at held
    contradiction
  · obtain ⟨before, kept⟩ := stems.lease owner held other
    rw [kept]
    exact link old there (stems.key.symm.trans same) before

/-- Every upload that a row names has the property. -/
def Named (known : UUID → Prop) (queue : Queue) : Prop :=
  ∀ row ∈ queue.transfers, ∀ id ∈ row.uploadId, known id

theorem Named.follows {known : UUID → Prop} (named : Named known queue)
    (follows : Follows actor queue queue') : Named known queue' := by
  intro row member id here
  rcases follows.rows row member with ⟨_, noUpload, _⟩ | ⟨old, there, stems⟩
  · rw [noUpload] at here
    contradiction
  · exact named old there id (stems.upload id here)

/-- The finished transfers of a queue are finished in an earlier one. -/
def NoneFinishes (queue queue' : Queue) : Prop :=
  ∀ row ∈ queue'.transfers, row.state = .complete →
    ∃ old ∈ queue.transfers, old.localVersion = row.localVersion ∧ old.state = .complete

theorem Follows.noneFinishes (follows : Follows actor queue queue') :
    NoneFinishes queue queue' := by
  intro row member finished
  rcases follows.rows row member with ⟨unfinished, _, _⟩ | ⟨old, there, stems⟩
  · contradiction
  · exact ⟨old, there, stems.key.symm, stems.unfinished finished⟩

section Updates

variable {version owner : String} {changes : Changes} {now : Nat}

/-- An update with an owner changes a row of that owner's lease only. -/
theorem mem_updateTransfer
    (member : row ∈ (queue.updateTransfer version changes owner now).1.transfers) :
    ∃ old ∈ queue.transfers, row = old ∨
      old.localVersion = version ∧ old.leaseOwner = some owner ∧ row = changes.apply now old := by
  obtain ⟨old, there, ⟨chosen, changed⟩ | ⟨_, same⟩⟩ := mem_update member
  · have ⟨key, lease⟩ := of_decide_eq_true chosen
    exact ⟨old, there, .inr ⟨key, lease, changed⟩⟩
  · exact ⟨old, there, .inl same⟩

/-- The lease is renewed: nothing else of the transfer changes. -/
theorem renewTransferLease_follows :
    Follows none queue (queue.renewTransferLease version owner now).1 := by
  refine Follows.update (fun row _ => ?_) fun _ => rfl
  exact ⟨rfl, fun _ here => here, fun finished => finished, fun _ here _ => ⟨here, rfl⟩⟩

theorem updateTransfer_keyed (keyed : queue.Keyed) :
    (queue.updateTransfer version changes owner now).1.Keyed :=
  keyed.update fun _ => rfl

theorem Named.updateTransfer {known : UUID → Prop} (named : Named known queue)
    (sets : ∀ id, changes.uploadId = some (some id) → known id) :
    Named known (queue.updateTransfer version changes owner now).1 := by
  intro row member id here
  obtain ⟨old, there, rfl | ⟨_, _, rfl⟩⟩ := mem_updateTransfer member
  · exact named row there id here
  · cases set : changes.uploadId with
    | none =>
      simp only [Changes.apply, set, Option.getD_none] at here
      exact named old there id here
    | some upload =>
      simp only [Changes.apply, set, Option.getD_some] at here
      exact sets id (by rw [set, here])

/-- The lease's holder leaves the upload or sets it. -/
theorem Link.updateTransfer {upload : Option UUID} (link : Link version owner upload queue)
    (keeps : changes.uploadId = none) :
    Link version owner upload (queue.updateTransfer version changes owner now).1 := by
  intro row member same held
  obtain ⟨old, there, ⟨chosen, rfl⟩ | ⟨spared, rfl⟩⟩ := mem_update member
  · have ⟨key, lease⟩ := of_decide_eq_true chosen
    simp only [Changes.apply, keeps, Option.getD_none]
    exact link old there key lease
  · exact absurd ⟨same, held⟩ (of_decide_eq_false spared)

theorem Link.updateTransfer_set {upload : Option UUID} (set : changes.uploadId = some upload) :
    Link version owner upload (queue.updateTransfer version changes owner now).1 := by
  intro row member same held
  obtain ⟨old, there, ⟨chosen, rfl⟩ | ⟨spared, rfl⟩⟩ := mem_update member
  · simp only [Changes.apply, set, Option.getD_some]
  · exact absurd ⟨same, held⟩ (of_decide_eq_false spared)

/-- An update under one owner leaves what another owner holds. -/
theorem Link.updateTransfer_other {other : String} {upload : Option UUID}
    (link : Link version' other upload queue) (different : other ≠ owner)
    (releases : ∀ o, changes.leaseOwner ≠ some (some o)) :
    Link version' other upload (queue.updateTransfer version changes owner now).1 := by
  intro row member same held
  obtain ⟨old, there, rfl | ⟨_, lease, rfl⟩⟩ := mem_updateTransfer member
  · exact link row there same held
  · cases set : changes.leaseOwner with
    | none =>
      simp only [Changes.apply, set, Option.getD_none] at held
      exact absurd (Option.some.inj (held.symm.trans lease)) different
    | some value =>
      simp only [Changes.apply, set, Option.getD_some] at held
      exact absurd (set.trans (congrArg some held)) (releases other)

theorem noneFinishes_updateTransfer (unfinished : changes.state ≠ some .complete) :
    NoneFinishes queue (queue.updateTransfer version changes owner now).1 := by
  intro row member finished
  obtain ⟨old, there, rfl | ⟨_, _, rfl⟩⟩ := mem_updateTransfer member
  · exact ⟨row, there, rfl, finished⟩
  · refine ⟨old, there, rfl, ?_⟩
    cases set : changes.state with
    | none => simpa only [Changes.apply, set, Option.getD_none] using finished
    | some state =>
      simp only [Changes.apply, set, Option.getD_some] at finished
      exact absurd (set.trans (congrArg some finished)) unfinished

end Updates

end Drivebound.Mobile
