import Drivebound.Purging.Items

/-! Accounts with legacy paths. A deletion job that meets a noncanonical path of an asset
ends in `manual_review`; the same path of an upload session is an exception like any other,
and so is a path that leaves its root. -/
namespace Drivebound.Purging
open Cleanup (AccountDeletionJob IsOpen Point)
open Run (run run_cons_iff Along invariant)

/-- A stored path that is not its own canonical form. -/
def IsLegacy (host : Host) (path : String) : Prop :=
  isDuplicate path = false ∧ host.canonicalStoragePath path ≠ path

instance (host : Host) : DecidablePred (IsLegacy host) := fun _ => inferInstanceAs (Decidable (_ ∧ _))

def Item.Legacy (host : Host) (item : Item) : Prop := ∃ path ∈ item.paths, IsLegacy host path

instance (host : Host) : DecidablePred (Item.Legacy host) := fun _ =>
  inferInstanceAs (Decidable (∃ path ∈ _, _))

/-- A path that is canonical and below one of its roots. -/
def Clean (host : Host) (unlink : String × List Path) : Prop :=
  unlink.2.any (host.isRelativeTo (host.resolve unlink.1)) = true ∧
    host.canonicalStoragePath unlink.1 = unlink.1

instance (host : Host) : DecidablePred (Clean host) := fun _ => inferInstanceAs (Decidable (_ ∧ _))

/-- An account whose deletion has been accepted, and not concluded. -/
structure Prepared (config : Config) (user : UUID) (st : State) : Prop where
  keyed : st.catalog.Keyed
  subject : st.job.subjectId = some user
  pending : IsOpen st.job.status
  purging : ∀ asset ∈ st.catalog.assets, asset.userId = user → asset.lifecycleState = .purging ∧
    ∃ due ∈ asset.purgeAfter, due ≤ st.job.notBefore

/-- `prepare_account_deletion` as far as job and assets go. -/
def prepareAccountDeletion (config : Config) (now : Timestamp) (id user : UUID) (catalog : Catalog)
    (disk : Disk) (users : List UUID) : State where
  catalog := { catalog with assets := purgeWithAccount user now catalog.assets }
  disk := disk
  users := users
  job := Cleanup.newJob config.jobs id user now

/-- All other items succeed: what they name can be unlinked, and what was staged for an
asset as well. -/
structure OthersSucceed (config : Config) (user : UUID) (st : State) : Prop where
  items : ∀ item ∈ items st.catalog user, ¬ item.Legacy config.host →
    ∀ unlink ∈ item.unlinks config.storage, Clean config.host unlink
  staged : ∀ asset ∈ st.catalog.assets, asset.userId = user →
    ∀ staged ∈ ownedStagingPathsForAsset config.host config.storage st.disk asset,
      Clean config.host (config.host.str staged, [config.storage.stagingPath])

/-- The files behind legacy paths are there as before, their rows too, and the job is not
completed. -/
structure Keeps (config : Config) (user : UUID) (st t : State) : Prop where
  files : ∀ item ∈ items st.catalog user, ∀ path ∈ item.paths, IsLegacy config.host path →
    st.disk.hasFile config.host path = true → t.disk.hasFile config.host path = true
  rows : ∀ item ∈ items st.catalog user, item.Legacy config.host → item ∈ items t.catalog user
  unfinished : t.job.status ≠ .completed

/-- A delivery that finds the job due if it is open, and in which nothing fails by itself. -/
def Calm (config : Config) (st : State) (batch : Batch) : Prop :=
  (∀ pass ∈ batch.passes, pass.drives = .working ∧ pass.cut = none) ∧
    (IsOpen st.job.status → (claim config st batch).isSome = true)

/-- In no run is a file behind a legacy path removed, or its row, or the job completed; and
after finitely many calm batches the job is in `manual_review`. -/
structure Reviewed (config : Config) (user : UUID) (st : State) : Prop where
  keeps : ∀ batches t, run (step config) st batches = some t → Keeps config user st t
  concludes : ∃ n, ∀ batches t, n ≤ batches.length → Along (step config) (Calm config) st batches →
    run (step config) st batches = some t → t.job.status = .manualReview

def firstLegacy (config : Config) (user : UUID) (catalog : Catalog) : Option Item :=
  (items catalog user).find? (Item.Legacy config.host ·)

/-- The rows that are left when the first item with a legacy path has its turn. -/
def turn (config : Config) (user : UUID) (catalog : Catalog) : Catalog :=
  ((items catalog user).takeWhile (¬ Item.Legacy config.host ·)).foldl Catalog.dropItem catalog

/-- The first path of an asset that cannot be unlinked is below its root, and before it no
file is unlinked that a legacy path of the asset itself stands for. -/
structure Stops (config : Config) (catalog : Catalog) (disk : Disk) (asset : Asset)
    (replicas : List AssetReplica) (previewFirst : Bool) : Prop where
  below : ∃ visit ∈ (purgeVisits config.storage catalog asset previewFirst).find?
    (Visit.fails config.host), visit.inside config.host = true
  spares : ∀ visit ∈ (purgeVisits config.storage catalog asset previewFirst).takeWhile
    (!Visit.fails config.host ·), visit.referenced config.host = false →
    ∀ path ∈ (Item.asset asset replicas).paths, IsLegacy config.host path →
    disk.hasFile config.host path = true → config.host.identity path ≠ config.host.identity visit.path

/-- The first item with a legacy path is an asset, and its purge stops at such a path. -/
def Reviewable (config : Config) (user : UUID) (st : State) : Prop :=
  ∃ asset replicas, firstLegacy config user st.catalog = some (.asset asset replicas) ∧
    ∀ previewFirst, Stops config (turn config user st.catalog) st.disk asset replicas previewFirst

theorem prepareAccountDeletion_prepared {config : Config} {now : Timestamp} {id user : UUID}
    {catalog : Catalog} (keyed : catalog.Keyed) (disk : Disk) (users : List UUID) :
    Prepared config user (prepareAccountDeletion config now id user catalog disk users) := by
  refine ⟨⟨?_, keyed.replicas, keyed.uploads⟩, rfl, .inl rfl, ?_⟩
  · exact purgeWithAccount_ids user now catalog.assets ▸ keyed.assets
  · intro asset member own
    obtain ⟨stored, _, rfl⟩ := List.mem_map.mp member
    by_cases same : stored.userId = user
    · rw [if_pos same]
      exact ⟨rfl, now, rfl, Nat.le_add_right _ _⟩
    · rw [if_neg same] at own
      contradiction

section Iterations

variable {config : Config} {user : UUID} {st : State} {pass : Pass} {now : Timestamp} {token : UUID}
  {item : Item} {rest : List Item}

/-- What the assignments of an iteration leave alone in the job. -/
structure SameLease (one other : AccountDeletionJob) : Prop where
  subject : other.subjectId = one.subjectId
  ready : other.notBefore = one.notBefore
  status : other.status = one.status
  token : other.leaseToken = one.leaseToken

/-- A file that the purge of an item may unlink: no other row names it, and all paths
before it can be unlinked. -/
def Removed (config : Config) (pass : Pass) (st : State) (item : Item) (place : Path) : Prop :=
  ∃ visit : Visit, place = config.host.identity visit.path ∧ visit.referenced config.host = false ∧
    ((∃ row replicas, item = .asset row replicas ∧
        visit ∈ stagedVisits config.host config.storage st.disk st.catalog row) ∨
      visit ∈ (item.visits config.storage st.catalog pass.previewFirst).takeWhile
        (!Visit.fails config.host ·))

/-- How the purge of an item ends. -/
inductive Tried (config : Config) (pass : Pass) (st : State) (item : Item) : Ending → Prop where
  | purged (job : AccountDeletionJob) : SameLease st.job job →
      (item.visits config.storage st.catalog pass.previewFirst).find? (Visit.fails config.host) = none →
      Tried config pass st item (.purged (st.catalog.dropItem item) job)
  | retained (row : Asset) (replicas : List AssetReplica) (visit : Visit) :
      item = .asset row replicas → visit.inside config.host = true →
      (item.visits config.storage st.catalog pass.previewFirst).find? (Visit.fails config.host) =
        some visit →
      Tried config pass st item (.retained 1)
  | raised (code : String) : Tried config pass st item (.raised code)

theorem attempt_eq (first : items st.catalog user = item :: rest) : attempt config pass now st user =
    if ¬ pass.drives.ready then ([], .raised UnlinkError.storageUnavailable.typeName)
    else match item with
      | .upload row => purgeUpload config pass.drives now st row
      | .asset row _ => purgeAsset config pass now st row := by
  unfold attempt
  rcases items_cons_iff first with ⟨row, _, rfl, next, _⟩ | ⟨row, _, rfl, noUpload, next, _⟩
  · rw [next]
  · rw [noUpload, next]

theorem purgeUpload_tried (row : UploadSession) :
    (∀ place ∈ (purgeUpload config pass.drives now st row).1, Removed config pass st (.upload row) place) ∧
      Tried config pass st (.upload row) (purgeUpload config pass.drives now st row).2 := by
  unfold purgeUpload
  have among : ∀ place ∈ (unlinkAll config.host pass.drives (uploadVisits config.storage st.catalog row)).1,
      Removed config pass st (.upload row) place := by
    intro place gone
    obtain ⟨visit, member, same, free⟩ := mem_unlinkAll gone
    exact ⟨visit, same, free, .inr member⟩
  split
  · rename_i gone visit error ends
    rw [ends] at among
    exact ⟨among, .raised _⟩
  · rename_i gone ends
    rw [ends] at among
    exact ⟨among, .purged _ ⟨rfl, rfl, rfl, rfl⟩ (unlinkAll_done (congrArg Prod.snd ends))⟩

/-- What `safely_purge_asset` comes to, by the unlinks of the asset. -/
theorem safelyPurgeAsset_cases (config : Config) (pass : Pass) (st : State) (now : Timestamp) (row : Asset)
    (replicas : List AssetReplica) :
    (∀ place ∈ (safelyPurgeAsset config.host config.storage pass.drives pass.previewFirst now st.catalog row).1,
      Removed config pass st (.asset row replicas) place) ∧
    ((safelyPurgeAsset config.host config.storage pass.drives pass.previewFirst now st.catalog row).2 = .purged →
      (purgeVisits config.storage st.catalog row pass.previewFirst).find? (Visit.fails config.host) = none) ∧
    ∀ kind, (safelyPurgeAsset config.host config.storage pass.drives pass.previewFirst now st.catalog row).2 =
      .retained kind → ∃ visit, (purgeVisits config.storage st.catalog row pass.previewFirst).find?
        (Visit.fails config.host) = some visit ∧ visit.inside config.host = true := by
  unfold safelyPurgeAsset
  split
  · exact ⟨nofun, nofun, nofun⟩
  split
  · exact ⟨nofun, nofun, nofun⟩
  have among : ∀ place ∈ (unlinkAll config.host pass.drives
      (purgeVisits config.storage st.catalog row pass.previewFirst)).1,
      Removed config pass st (.asset row replicas) place := by
    intro place gone
    obtain ⟨visit, member, same, free⟩ := mem_unlinkAll gone
    exact ⟨visit, same, free, .inr member⟩
  split
  · rename_i gone ends
    rw [ends] at among
    exact ⟨among, fun _ => unlinkAll_done (congrArg Prod.snd ends), nofun⟩
  · rename_i gone visit ends
    rw [ends] at among
    exact ⟨among, nofun, fun _ _ => ⟨visit, unlinkAll_noncanonical (congrArg Prod.snd ends)⟩⟩
  · rename_i gone visit error _ ends
    rw [ends] at among
    exact ⟨among, nofun, nofun⟩

theorem purgeAsset_tried (row : Asset) (replicas : List AssetReplica) :
    (∀ place ∈ (purgeAsset config pass now st row).1, Removed config pass st (.asset row replicas) place) ∧
      Tried config pass st (.asset row replicas) (purgeAsset config pass now st row).2 := by
  have fromStage : ∀ place ∈ (unlinkAll config.host pass.drives
      (stagedVisits config.host config.storage st.disk st.catalog row)).1,
      Removed config pass st (.asset row replicas) place := by
    intro place gone
    obtain ⟨visit, member, same, free⟩ := mem_unlinkAll gone
    exact ⟨visit, same, free, .inl ⟨row, replicas, rfl, (List.takeWhile_subset _) member⟩⟩
  obtain ⟨fromPurge, purged, retained⟩ :=
    safelyPurgeAsset_cases config pass st now row replicas
  unfold purgeAsset
  split
  · rename_i staged visit error ends
    rw [ends] at fromStage
    exact ⟨fromStage, .raised _⟩
  rename_i staged ends
  rw [ends] at fromStage
  have both : ∀ gone, (∀ place ∈ gone, Removed config pass st (.asset row replicas) place) →
      ∀ place ∈ staged ++ gone, Removed config pass st (.asset row replicas) place := by
    intro gone second place member
    exact (List.mem_append.mp member).elim (fromStage place) (second place)
  split
  · rename_i gone concluded
    rw [concluded] at fromPurge purged
    exact ⟨both gone fromPurge, .purged _ ⟨rfl, rfl, rfl, rfl⟩ (purged rfl)⟩
  · rename_i gone kind concluded
    rw [concluded] at fromPurge retained
    obtain ⟨visit, found, inside⟩ := retained kind rfl
    exact ⟨both gone fromPurge, .retained row replicas visit rfl inside found⟩
  · rename_i gone kind error concluded
    rw [concluded] at fromPurge
    exact ⟨both gone fromPurge, .raised _⟩
  · rename_i gone concluded
    rw [concluded] at fromPurge
    exact ⟨both gone fromPurge, .raised _⟩
  · rename_i gone concluded
    rw [concluded] at fromPurge
    exact ⟨both gone fromPurge, .raised _⟩

theorem attempt_tried (config : Config) (pass : Pass) (now : Timestamp)
    (first : items st.catalog user = item :: rest) :
    (∀ place ∈ (attempt config pass now st user).1, Removed config pass st item place) ∧
      Tried config pass st item (attempt config pass now st user).2 := by
  rw [attempt_eq first]
  split
  · exact ⟨nofun, .raised _⟩
  cases item with
  | upload row => exact purgeUpload_tried row
  | asset row replicas => exact purgeAsset_tried row replicas

/-- The job is held by the batch. -/
structure Running (token : UUID) (st : State) : Prop where
  status : st.job.status = .running
  token : st.job.leaseToken = some token

/-- What an iteration on an item leaves: the item is gone and the loop goes on, or all rows
are as they were and the batch is over. -/
inductive Iterated (config : Config) (pass : Pass) (token : UUID) (st : State) (item : Item) :
    State × Option Answer → Prop where
  | purged (gone : List Path) (job : AccountDeletionJob) :
      (∀ place ∈ gone, Removed config pass st item place) → SameLease st.job job →
      (item.visits config.storage st.catalog pass.previewFirst).find? (Visit.fails config.host) = none →
      Iterated config pass token st item
        (⟨st.catalog.dropItem item, st.disk.unlink config.host gone, st.users, job⟩, none)
  | ended (gone : List Path) (job : AccountDeletionJob) (answer : Answer) :
      (∀ place ∈ gone, Removed config pass st item place) → job.subjectId = st.job.subjectId →
      job.notBefore = st.job.notBefore → IsOpen job.status →
      Iterated config pass token st item
        (⟨st.catalog, st.disk.unlink config.host gone, st.users, job⟩, some answer)
  | reviewed (gone : List Path) (job : AccountDeletionJob) (row : Asset) (replicas : List AssetReplica)
      (visit : Visit) :
      (∀ place ∈ gone, Removed config pass st item place) → job.subjectId = st.job.subjectId →
      job.notBefore = st.job.notBefore → job.status = .manualReview →
      item = .asset row replicas → visit.inside config.host = true →
      (item.visits config.storage st.catalog pass.previewFirst).find? (Visit.fails config.host) =
        some visit →
      Iterated config pass token st item
        (⟨st.catalog, st.disk.unlink config.host gone, st.users, job⟩, some .manualReview)

theorem fail_iterated (running : Running token st) {gone : List Path} (code : String)
    (among : ∀ place ∈ gone, Removed config pass st item place) :
    Iterated config pass token st item (fail config now token (st.unlink config gone) code) := by
  have matched : (Point.failed code).matches token (st.unlink config gone).job = true := by
    simp [Point.matches, State.unlink, running.status, running.token]
  simp only [fail, resolveState, matched, if_true, Cleanup.resolveJob, Option.map_some]
  exact .ended gone _ .retry among rfl rfl (.inr (.inr (.inl rfl)))

theorem iteration_iterated (config : Config) (pass : Pass) (now : Timestamp) (running : Running token st)
    (subject : st.job.subjectId = some user)
    (first : items st.catalog user = item :: rest) :
    Iterated config pass token st item (iteration config now token st pass) := by
  obtain ⟨among, tried⟩ :=
    attempt_tried config pass now first
  unfold iteration
  rw [if_neg (not_not.mpr running.token), subject]
  simp only
  generalize attempt config pass now st user = result at among tried
  obtain ⟨gone, ending⟩ := result
  split
  · cases tried with
    | purged job same passes => exact .purged gone job among same passes
    | retained row replicas visit own inside found =>
      have matched : (Point.retained 1).matches token (st.unlink config gone).job = true := by
        simp [Point.matches, State.unlink, running.status, running.token]
      simp only [conclude, resolveState, matched, if_true, Cleanup.resolveJob, Option.map_some]
      exact .reviewed gone _ row replicas visit among rfl rfl rfl own inside found
    | raised code => exact fail_iterated running code among
  · rename_i after code _
    exact fail_iterated running code fun place member => among place (List.mem_of_mem_take member)
  · rename_i after _
    refine .ended (gone.take after) st.job .died ?_ rfl rfl ?_
    · exact fun place member => among place (List.mem_of_mem_take member)
    · exact .inr (.inr (.inr running.status))

end Iterations

section Batches

variable {config : Config} {user : UUID} {st0 st : State} {token : UUID} {done rest : List Item}
  {item : Item}

/-- The items `done` of an account are gone, and the items `rest` are left. -/
structure Stage (config : Config) (user : UUID) (st0 : State) (done rest : List Item) (st : State) :
    Prop where
  split : items st0.catalog user = done ++ rest
  rows : st.catalog = done.foldl Catalog.dropItem st0.catalog
  regular : ∀ item ∈ done, ¬ item.Legacy config.host
  files : ∀ file ∈ st.disk.files, file ∈ st0.disk.files
  links : st.disk.links = st0.disk.links
  subject : st.job.subjectId = some user
  ready : st.job.notBefore = st0.job.notBefore

theorem Stage.listed (stage : Stage config user st0 done rest st) (keyed : st0.catalog.Keyed) :
    items st.catalog user = rest ∧ st.catalog.Keyed := by
  rw [stage.rows]
  exact items_foldl keyed stage.split

theorem Stage.stay (stage : Stage config user st0 done rest st) (gone : List Path) (users : List UUID)
    {job : AccountDeletionJob} (subject : job.subjectId = st.job.subjectId)
    (ready : job.notBefore = st.job.notBefore) :
    Stage config user st0 done rest ⟨st.catalog, st.disk.unlink config.host gone, users, job⟩ where
  split := stage.split
  rows := stage.rows
  regular := stage.regular
  files file member := stage.files file (List.mem_filter.mp member).1
  links := stage.links
  subject := subject.trans stage.subject
  ready := ready.trans stage.ready

theorem Stage.advance (stage : Stage config user st0 done (item :: rest) st)
    (regular : ¬ item.Legacy config.host) (gone : List Path) (users : List UUID)
    {job : AccountDeletionJob} (same : SameLease st.job job) :
    Stage config user st0 (done ++ [item]) rest
      ⟨st.catalog.dropItem item, st.disk.unlink config.host gone, users, job⟩ where
  split := by rw [stage.split, List.append_assoc, List.singleton_append]
  rows := by rw [List.foldl_append, ← stage.rows]; rfl
  regular other member := by
    rcases List.mem_append.mp member with before | here
    · exact stage.regular other before
    · rw [List.mem_singleton.mp here]
      exact regular
  files file member := stage.files file (List.mem_filter.mp member).1
  links := stage.links
  subject := same.subject.trans stage.subject
  ready := same.ready.trans stage.ready

/-- What the loop of a batch keeps, and what each of its ends turns it into. -/
theorem batch_rule {P : Timestamp → State → Prop} {Q : State → Prop} {now : Timestamp}
    (passes : List Pass)
    (later : ∀ now later st, now ≤ later → P now st → P later st)
    (goes : ∀ pass ∈ passes, ∀ now st, P now st →
      ((iteration config now token st pass).2 = none → P now (iteration config now token st pass).1) ∧
      ((iteration config now token st pass).2 ≠ none → Q (iteration config now token st pass).1))
    (closes : ∀ now st, P now st → Q ((resolveState config now token st .closing).getD st))
    (initial : P now st) : Q (processAccountDeletionBatch config token now st passes).1 := by
  induction passes generalizing now st with
  | nil =>
    have closed := closes now st initial
    unfold processAccountDeletionBatch
    cases resolved : resolveState config now token st .closing with
    | none => rwa [resolved] at closed
    | some other => rwa [resolved] at closed
  | cons pass rest ih =>
    have here := goes pass List.mem_cons_self (now + pass.elapsed) st
      (later now _ st (Nat.le_add_right _ _) initial)
    unfold processAccountDeletionBatch
    generalize iteration config (now + pass.elapsed) token st pass = result at here
    obtain ⟨next, answer⟩ := result
    cases answer with
    | none => exact ih (fun other member => goes other (List.mem_cons_of_mem _ member)) (here.1 rfl)
    | some answer => exact here.2 nofun

theorem closing_stage (now : Timestamp) (running : Running token st)
    (stage : Stage config user st0 done rest st) :
    Stage config user st0 done rest ((resolveState config now token st .closing).getD st) ∧
      ((resolveState config now token st .closing).getD st).disk = st.disk ∧
      IsOpen ((resolveState config now token st .closing).getD st).job.status := by
  have resolved : resolveState config now token st .closing = some { st with job := { st.job with
      status := .pending, leaseToken := none, leaseExpiresAt := none, nextAttemptAt := now } } := by
    simp [resolveState, Point.matches, Cleanup.resolveJob, running.status, running.token]
  rw [resolved]
  exact ⟨⟨stage.split, stage.rows, stage.regular, stage.files, stage.links, stage.subject, stage.ready⟩,
    rfl, .inl rfl⟩

theorem SameLease.running {job : AccountDeletionJob} {catalog : Catalog} {disk : Disk}
    {users : List UUID} (same : SameLease st.job job) (running : Running token st) :
    Running token ⟨catalog, disk, users, job⟩ :=
  ⟨same.status.trans running.status, same.token.trans running.token⟩

/-- A claimed job runs under the token of the claim, and its time has come. -/
theorem claim_running {batch : Batch} {job : AccountDeletionJob} (claimed : claim config st batch = some job) :
    Running batch.token { st with job } ∧ job.subjectId = st.job.subjectId ∧
      job.notBefore = st.job.notBefore ∧ st.job.notBefore ≤ batch.now ∧ IsOpen st.job.status := by
  obtain ⟨isOpen, _, status, token, subject⟩ := Cleanup.claim_spec claimed
  unfold claim Cleanup.claimAccountDeletionJob at claimed
  split at claimed
  · cases claimed
  rename_i allowed
  split at claimed
  · cases claimed
  cases claimed
  refine ⟨⟨rfl, rfl⟩, subject, rfl, ?_, isOpen⟩
  by_contra early
  exact allowed (.inr (.inl (Nat.lt_of_not_le early)))

theorem Stage.claimed {job : AccountDeletionJob} (stage : Stage config user st0 done rest st)
    (subject : job.subjectId = st.job.subjectId) (ready : job.notBefore = st.job.notBefore) :
    Stage config user st0 done rest { st with job } :=
  ⟨stage.split, stage.rows, stage.regular, stage.files, stage.links, subject.trans stage.subject,
    ready.trans stage.ready⟩

end Batches

end Drivebound.Purging
