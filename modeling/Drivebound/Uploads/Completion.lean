import Mathlib.Data.List.Nodup
import Drivebound.Core.Run
import Drivebound.Uploads.Persistence

/-! How a session ends. The staged bytes are consumed by one request only, so one
session commits one asset row at most. Whoever finds the bytes gone afterwards has to
find the status committed; a request that dies between the two leaves a session that
no retry can finish. -/
namespace Drivebound.Uploads
open Sessions Run

/-- The session is still open. -/
def Vault.active (v : Vault) (id : UUID) : Bool :=
  (v.server.uploads.get? id).any (·.status = .active)

/-- The asset row that the session has committed is active. -/
def Vault.committed (v : Vault) (id : UUID) : Prop :=
  ∃ entry ∈ v.created, entry.1 = id ∧
    ∃ row ∈ v.server.assets, row.id = entry.2 ∧ row.lifecycleState = .active

instance (v : Vault) (id : UUID) : Decidable (v.committed id) :=
  inferInstanceAs (Decidable (∃ entry ∈ v.created, _))

/-- Nothing comes between the end of the staged bytes and the session's status: the
request that has consumed the bytes of an open session does not fail, bytes are not
discarded, no request for the whole session passes its checks or its hash after the
asset row, and the owner has no other active asset with the content of a session that has
committed one. -/
def Undisturbed (v : Vault) (stage : Stage) (event : Event) : Prop :=
  match event, stage with
  | .request .crash, .published upload _
  | .request .crash, .request (.persisted upload _ _)
  | .request (.refuse _ _), .request (.persisted upload _ _)
  | .fail _ _, .published upload _ => v.active upload.id = false
  | .discard, .owning upload _ => v.active upload.id = false ∧ ¬ v.committed upload.id
  | .request (.check _), .request (.locked user id offset _) =>
    ∀ row ∈ v.server.find? user id, offset = row.totalSize → ¬ v.committed id
  | .hash, .request (.stored upload) => ¬ v.committed upload.id
  | .adopt _, .owning upload checksum => ∀ entry ∈ v.created, entry.1 = upload.id →
    ∀ row ∈ v.server.assets, matchesContent upload checksum row = true → row.id = entry.2
  | _, _ => True

instance (v : Vault) (stage : Stage) : DecidablePred (Undisturbed v stage) := fun event => by
  unfold Undisturbed
  split <;> infer_instance

/-- The session's row with all bytes stored, for the owner that the request has loaded. -/
def Stored (r : Server) (upload : UploadSession) : Prop :=
  ∃ row, r.uploads.get? upload.id = some row ∧ row.offset = row.totalSize ∧
    row.userId = upload.userId ∧ row.expectedChecksum = upload.expectedChecksum

/-- The request has hashed the session's content, as expected. -/
def Hashed (v : Vault) (upload : UploadSession) (checksum : String) : Prop :=
  Stored v.server upload ∧ v.digest upload.id = some checksum ∧
    upload.expectedChecksum.any (· ≠ checksum) = false

def HandlerKnows (v : Vault) : Handler → Prop
  | .stored upload => Stored v.server upload
  | .rejected upload => Stored v.server upload ∧ v.active upload.id = false ∧
    ∃ digest, v.digest upload.id = some digest ∧ upload.expectedChecksum.any (· ≠ digest) = true
  | .hashed upload checksum => Hashed v upload checksum
  | .persisted upload asset _ => Stored v.server upload ∧ (upload.id, asset) ∈ v.server.finalized ∧
    ∀ other, (upload.id, other) ∈ v.created → other = asset
  | _ => True

def StageKnows (v : Vault) : Stage → Prop
  | .request handler => Knows v.server handler ∧ HandlerKnows v handler
  | .owning upload checksum => Full v.server upload ∧ Hashed v upload checksum
  | .unmatched upload checksum => Full v.server upload ∧ Hashed v upload checksum ∧
    ∀ row ∈ v.server.assets, matchesContent upload checksum row = false
  | .published upload checksum => Full v.server upload ∧ Hashed v upload checksum ∧
    v.server.staged upload.id = none ∧ ∀ asset, (upload.id, asset) ∉ v.server.finalized
  | .administering _ => True

def StageHolding : Stage → RowKey → Prop
  | .request handler, .upload id => Holding handler (.upload id)
  | .owning upload _, .user user | .unmatched upload _, .user user | .published upload _, .user user =>
    user = upload.userId
  | .administering admin, .user user => user = admin
  | _, _ => False

/-- The asset row that the session has committed carries what the session was hashed to. -/
def Made (v : Vault) (id asset : UUID) : Prop :=
  ∃ upload digest, v.server.uploads.get? id = some upload ∧ v.digest id = some digest ∧
    upload.expectedChecksum.any (· ≠ digest) = false ∧
    ∃ row ∈ v.server.assets, row.id = asset ∧ row.userId = upload.userId ∧ row.checksum = digest

structure VaultConsistent (env : Env) (v : Vault) : Prop where
  server : Consistent v.server
  digests : ∀ id digest, v.digest id = some digest → ∃ row, v.server.uploads.get? id = some row ∧
    row.offset = row.totalSize ∧ ∀ content ∈ v.server.staged id, env.sha256 content = digest
  consumed : ∀ id asset, (id, asset) ∈ v.server.finalized →
    v.server.staged id = none ∧ ∃ row, v.server.uploads.get? id = some row
  once : (v.created.map Prod.fst).Nodup
  created : ∀ id asset, (id, asset) ∈ v.created → (id, asset) ∈ v.server.finalized ∧ Made v id asset
  assets : (v.server.assets.map Asset.id).Nodup

/-- What any step does to rows and files behind the back of another request. -/
structure Evolves (r r' : Server) : Prop where
  rows : ∀ id row, r.uploads.get? id = some row → ∃ row', r'.uploads.get? id = some row' ∧
    row'.userId = row.userId ∧ row'.expectedChecksum = row.expectedChecksum ∧
    (row.offset = row.totalSize → row'.offset = row'.totalSize) ∧
    (row.status ≠ .active → row'.status ≠ .active)
  full : ∀ id row, r.uploads.get? id = some row → row.offset = row.totalSize →
    ∀ content, r'.staged id = some content → r.staged id = some content
  gone : ∀ id row, r.uploads.get? id = some row → r.staged id = none → r'.staged id = none

variable {env : Env} {r r' : Server} {v v' : Vault}

theorem Evolves.of_uploads (same : r'.uploads = r.uploads)
    (staged : ∀ id content, r'.staged id = some content → r.staged id = some content) :
    Evolves r r' where
  rows _ row here := ⟨row, same ▸ here, rfl, rfl, fun full => full, fun open' => open'⟩
  full id _ _ _ content there := staged id content there
  gone id _ _ absent := by
    cases found : r'.staged id with
    | none => rfl
    | some content =>
      rw [staged id content found] at absent
      contradiction

theorem Evolves.refl (r : Server) : Evolves r r := .of_uploads rfl fun _ _ here => here

theorem Evolves.update {id : UUID} {change : UploadSession → UploadSession}
    (keeps : ∀ row, r.uploads.get? id = some row → (change row).userId = row.userId ∧
      (change row).expectedChecksum = row.expectedChecksum ∧
      (row.offset = row.totalSize → (change row).offset = (change row).totalSize) ∧
      (row.status ≠ .active → (change row).status ≠ .active)) :
    Evolves r (r.update id change) where
  rows other row here := by
    by_cases same : other = id
    · subst same
      exact ⟨change row, update_get?_self here, keeps row here⟩
    · rw [update_get?_other same]
      exact (Evolves.refl r).rows other row here
  full other row _ _ content there := by rwa [update_staged] at there
  gone other row _ absent := by rwa [update_staged]

theorem Evolves.unlink (r : Server) (id : UUID) : Evolves r (r.unlink id) :=
  .of_uploads rfl fun _ _ here => unlink_staged here

theorem createUpload_evolves {id : UUID}
    (chosen : createUpload env r user checksum totalSize id now = some outcome) :
    Evolves r (outcome.result r) := by
  unfold createUpload at chosen
  split at chosen
  · cases chosen
    exact .refl r
  split at chosen
  · cases chosen
    exact .refl r
  split at chosen
  · cases chosen
    exact .refl r
  · split at chosen
    · contradiction
    rename_i taken
    cases chosen
    have others : ∀ other row, r.uploads.get? other = some row → other ≠ id := by
      rintro other row here rfl
      simp [here] at taken
    refine ⟨fun other row here => ?_, fun other row here _ content there => ?_,
      fun other row here absent => ?_⟩
    · refine ⟨row, ?_, rfl, rfl, fun full => full, fun open' => open'⟩
      exact (Dict.get?_set_other _ _ (others other row here)).trans here
    · simpa only [answer, Outcome.result, Function.update_of_ne (others other row here)] using there
    · simpa only [answer, Outcome.result, Function.update_of_ne (others other row here)] using absent

theorem write_evolves {position : Nat} {bytes : Bytes}
    (here : r.uploads.get? upload.id = some upload) (room : upload.offset < upload.totalSize) :
    Evolves r (r.write upload.id position bytes) where
  rows _ row found := ⟨row, found, rfl, rfl, fun full => full, fun open' => open'⟩
  full id row found full content there := by
    obtain ⟨old, before, ⟨_, rfl⟩ | ⟨rfl, _⟩⟩ := write_staged there
    · exact before
    · cases here.symm.trans found
      omega
  gone id row found absent := by
    cases after : (r.write upload.id position bytes).staged id with
    | none => rfl
    | some content =>
      obtain ⟨old, before, _⟩ := write_staged after
      rw [absent] at before
      contradiction

/-- An open session whose staged bytes are gone. -/
def Bare (r : Server) (id : UUID) : Prop :=
  (r.uploads.get? id).any (·.status = .active) = true ∧ r.staged id = none

/-- What a step outside `persist_managed_asset` leaves to the vault. -/
structure Lifts (v : Vault) (outcome : Step) : Prop where
  evolves : Evolves v.server (outcome.result v.server)
  assets : (outcome.result v.server).assets = v.server.assets
  finalized : (outcome.result v.server).finalized = v.server.finalized
  arrives : HandlerKnows { v with server := outcome.result v.server } outcome.arrival
  bare : ∀ id, Bare (outcome.result v.server) id → Bare v.server id

/-- A step that changes nothing, to a place where nothing is known. -/
theorem lifts_same {outcome : Step} (same : outcome.result v.server = v.server)
    (arrives : HandlerKnows v outcome.arrival) : Lifts v outcome where
  evolves := by
    rw [same]
    exact .refl _
  assets := by rw [same]
  finalized := by rw [same]
  arrives := by
    rw [same]
    exact arrives
  bare id open' := by rwa [same] at open'

theorem bare_update {id other : UUID} {change : UploadSession → UploadSession}
    (closes : ∀ row, (change row).status = .active → row.status = .active)
    (open' : Bare (r.update id change) other) : Bare r other := by
  obtain ⟨active, gone⟩ := open'
  rw [update_staged] at gone
  obtain ⟨row', here, status⟩ := (Option.any_eq_true _ _).mp active
  obtain ⟨row, found, rfl | ⟨rfl, rfl⟩⟩ := update_row here
  · exact ⟨(Option.any_eq_true _ _).mpr ⟨row', found, status⟩, gone⟩
  · refine ⟨(Option.any_eq_true _ _).mpr ⟨row, found, ?_⟩, gone⟩
    exact decide_eq_true (closes row (of_decide_eq_true status))

theorem createUpload_lifts {id : UUID}
    (chosen : createUpload env v.server user checksum totalSize id now = some outcome) :
    Lifts v outcome := by
  have evolves := createUpload_evolves chosen
  unfold createUpload at chosen
  split at chosen
  · cases chosen
    exact lifts_same rfl trivial
  split at chosen
  · cases chosen
    exact lifts_same rfl trivial
  split at chosen
  · cases chosen
    exact lifts_same rfl trivial
  · split at chosen
    · contradiction
    cases chosen
    refine ⟨evolves, rfl, rfl, trivial, fun other open' => ?_⟩
    obtain ⟨active, gone⟩ := open'
    by_cases same : other = id
    · subst same
      simp only [answer, Outcome.result, Function.update_self] at gone
      contradiction
    · simp only [answer, Outcome.result, Function.update_of_ne same] at gone
      simp only [answer, Outcome.result, Dict.get?_set_other _ _ same] at active
      exact ⟨active, gone⟩

theorem checkAppend_lifts {id : UUID} {offset : Nat} (consistent : Consistent v.server) :
    Lifts v (checkAppend v.server user id offset body now) := by
  unfold checkAppend
  split
  · exact lifts_same rfl trivial
  rename_i upload found
  obtain ⟨here, _⟩ := find?_some found
  have key := consistent.keyed _ _ here
  have bounded := consistent.bounded _ _ here
  split_ifs with inactive expired mismatch unavailable room
  · exact lifts_same rfl trivial
  · refine ⟨.update fun row _ => ⟨rfl, rfl, fun full => full, fun _ => nofun⟩, update_assets _ _ _,
      update_finalized _ _ _, trivial, fun other open' => ?_⟩
    exact bare_update (by intro row active; contradiction) open'
  · exact lifts_same rfl trivial
  · exact lifts_same rfl trivial
  · exact lifts_same rfl trivial
  · refine lifts_same rfl ⟨upload, key ▸ here, ?_, rfl, rfl⟩
    omega

theorem writeChunk_lifts (knows : Knows v.server (.writing upload body written)) :
    Lifts v (writeChunk v.server upload body written count) := by
  obtain ⟨here, room, _⟩ := knows
  simp only [writeChunk]
  split
  · exact lifts_same rfl trivial
  · refine ⟨write_evolves here room, rfl, rfl, trivial, fun id open' => ⟨open'.1, ?_⟩⟩
    cases before : v.server.staged id with
    | none => rfl
    | some content =>
      have gone := open'.2
      by_cases same : id = upload.id
      · subst same
        simp only [Outcome.result, Server.write, Function.update_self, before] at gone
        contradiction
      · simp only [Outcome.result, Server.write, Function.update_of_ne same, before] at gone
        contradiction

theorem commitOffset_lifts (knows : Knows v.server (.writing upload body written)) :
    Lifts v (commitOffset v.server upload written) := by
  obtain ⟨here, room, bounded⟩ := knows
  simp only [commitOffset]
  split
  · exact lifts_same rfl trivial
  have evolves : Evolves v.server
      (v.server.update upload.id fun row => { row with offset := upload.offset + written }) := by
    refine .update fun row found => ?_
    cases here.symm.trans found
    exact ⟨rfl, rfl, fun full => by omega, fun open' => open'⟩
  split
  · exact ⟨evolves, update_assets _ _ _, update_finalized _ _ _, trivial,
      fun id open' => bare_update (by intro row active; exact active) open'⟩
  · rename_i whole
    refine ⟨evolves, update_assets _ _ _, update_finalized _ _ _,
      ⟨_, update_get?_self here, ?_, rfl, rfl⟩, fun id open' =>
        bare_update (by intro row active; exact active) open'⟩
    simp only at whole ⊢
    omega

theorem program_lifts {handler : Handler} (consistent : Consistent v.server)
    (knows : Knows v.server handler) (extra : HandlerKnows v handler)
    (other : action.persists = false)
    (chosen : program env v.server handler action = some outcome) : Lifts v outcome := by
  cases action with
  | receive request =>
    simp only [program] at chosen
    split at chosen
    · cases chosen
      exact lifts_same rfl trivial
    · contradiction
  | create id now =>
    simp only [program] at chosen
    split at chosen
    · exact createUpload_lifts chosen
    · contradiction
  | read =>
    simp only [program] at chosen
    split at chosen
    · cases chosen
      unfold uploadStatus
      split
      · exact lifts_same rfl trivial
      · exact lifts_same rfl trivial
    · contradiction
  | lockUpload =>
    simp only [program] at chosen
    split at chosen
    · cases chosen
      exact lifts_same rfl trivial
    · contradiction
  | check now =>
    simp only [program] at chosen
    split at chosen
    · cases chosen
      exact checkAppend_lifts consistent
    · contradiction
  | chunk count =>
    simp only [program] at chosen
    split at chosen
    · cases chosen
      exact writeChunk_lifts knows
    · contradiction
  | endBody =>
    simp only [program] at chosen
    split at chosen
    · split at chosen
      · cases chosen
        exact commitOffset_lifts knows
      · contradiction
    · contradiction
  | unlinkRejected =>
    simp only [program] at chosen
    split at chosen
    · rename_i upload
      cases chosen
      -- A rejected session is not open any more.
      refine ⟨.unlink _ _, rfl, rfl, trivial, fun id open' => ⟨open'.1, ?_⟩⟩
      have different : id ≠ upload.id := by
        rintro rfl
        exact absurd open'.1 (Bool.not_eq_true _ ▸ extra.2.1)
      simpa only [answer, Outcome.result, Server.unlink, Function.update_of_ne different]
        using open'.2
    · contradiction
  | complete =>
    simp only [program] at chosen
    split at chosen
    · cases chosen
      exact ⟨.update fun row _ => ⟨rfl, rfl, fun full => full, fun _ same => by cases same⟩,
        update_assets _ _ _, update_finalized _ _ _, trivial,
        fun id open' => bare_update (by intro row active; contradiction) open'⟩
    · contradiction
  | refuse code detail =>
    simp only [program] at chosen
    split at chosen
    all_goals try contradiction
    split at chosen
    · cases chosen
      exact lifts_same rfl trivial
    · contradiction
  | crash =>
    simp only [program] at chosen
    split at chosen
    · contradiction
    · cases chosen
      exact lifts_same rfl trivial
  | hash | consume | persist | failPersist => contradiction

theorem Stored.evolve (stored : Stored r upload) (evolves : Evolves r r') : Stored r' upload := by
  obtain ⟨row, here, full, owner, expected⟩ := stored
  obtain ⟨row', there, owner', expected', full', _⟩ := evolves.rows _ row here
  exact ⟨row', there, full' full, owner'.trans owner, expected'.trans expected⟩

theorem Hashed.evolve {checksum : String} (hashed : Hashed v upload checksum)
    (evolves : Evolves v.server v'.server)
    (digests : ∀ id digest, v.digest id = some digest → v'.digest id = some digest) :
    Hashed v' upload checksum :=
  ⟨hashed.1.evolve evolves, digests _ _ hashed.2.1, hashed.2.2⟩

/-- What another request may do to the vault, as far as a request at `m` is concerned. -/
structure Spares (v v' : Vault) (m : Stage) : Prop where
  advances : Advances v.server v'.server
  evolves : Evolves v.server v'.server
  digests : ∀ id digest, v.digest id = some digest → v'.digest id = some digest
  handler : ∀ handler, m = .request handler → Knows v'.server handler
  committed : ∀ upload asset duplicate, m = .request (.persisted upload asset duplicate) →
    ∀ other, (upload.id, other) ∈ v'.created → (upload.id, other) ∈ v.created
  unmatched : ∀ upload checksum, m = .unmatched upload checksum →
    ∀ row' ∈ v'.server.assets, matchesContent upload checksum row' = true →
      ∃ row ∈ v.server.assets, matchesContent upload checksum row = true
  published : ∀ upload checksum, m = .published upload checksum →
    ∀ asset, (upload.id, asset) ∈ v'.server.finalized → (upload.id, asset) ∈ v.server.finalized

theorem HandlerKnows.evolve {handler : Handler} (knows : HandlerKnows v handler)
    (evolves : Evolves v.server v'.server)
    (digests : ∀ id digest, v.digest id = some digest → v'.digest id = some digest)
    (finalized : ∀ entry ∈ v.server.finalized, entry ∈ v'.server.finalized)
    (committed : ∀ upload asset duplicate, handler = .persisted upload asset duplicate →
      ∀ other, (upload.id, other) ∈ v'.created → (upload.id, other) ∈ v.created) :
    HandlerKnows v' handler := by
  cases handler with
  | stored upload => exact Stored.evolve knows evolves
  | rejected upload =>
    obtain ⟨stored, closed, digest, hashed, mismatch⟩ := knows
    refine ⟨stored.evolve evolves, ?_, digest, digests _ _ hashed, mismatch⟩
    obtain ⟨row, here, _⟩ := stored
    obtain ⟨row', there, _, _, _, stays⟩ := evolves.rows _ row here
    have inactive : row.status ≠ .active := by simpa [Vault.active, here] using closed
    simpa [Vault.active, there] using stays inactive
  | hashed upload checksum => exact Hashed.evolve knows evolves digests
  | persisted upload asset duplicate =>
    obtain ⟨stored, finished, only⟩ := knows
    refine ⟨stored.evolve evolves, finalized _ finished, fun other made => ?_⟩
    exact only other (committed upload asset duplicate rfl other made)
  | idle | received | locked | writing | answered | lost => trivial

theorem StageKnows.spare {m : Stage} (knows : StageKnows v m) (spares : Spares v v' m) :
    StageKnows v' m := by
  cases m with
  | request handler =>
    refine ⟨spares.handler handler rfl, knows.2.evolve spares.evolves spares.digests
      spares.advances.finalized fun upload asset duplicate same => ?_⟩
    exact spares.committed upload asset duplicate (congrArg Stage.request same)
  | owning upload checksum =>
    exact ⟨knows.1.advance spares.advances, knows.2.evolve spares.evolves spares.digests⟩
  | unmatched upload checksum =>
    obtain ⟨full, hashed, none⟩ := knows
    refine ⟨full.advance spares.advances, hashed.evolve spares.evolves spares.digests, ?_⟩
    intro row' member
    by_contra found
    obtain ⟨row, before, matched⟩ :=
      spares.unmatched upload checksum rfl row' member (by simpa using found)
    rw [none row before] at matched
    contradiction
  | published upload checksum =>
    obtain ⟨full, hashed, gone, unfinished⟩ := knows
    obtain ⟨row, here, _⟩ := hashed.1
    refine ⟨full.advance spares.advances, hashed.evolve spares.evolves spares.digests,
      spares.evolves.gone _ row here gone, fun asset finished => ?_⟩
    exact unfinished asset (spares.published upload checksum rfl asset finished)
  | administering user => trivial

/-- The consistency of the vault after a change that commits no asset row. -/
theorem VaultConsistent.evolve (consistent : VaultConsistent env v)
    (server : Consistent v'.server) (evolves : Evolves v.server v'.server)
    (kept : ∀ id digest, v.digest id = some digest → v'.digest id = some digest)
    (digests : ∀ id digest, v'.digest id = some digest → v.digest id = some digest ∨
      ∃ row, v'.server.uploads.get? id = some row ∧ row.offset = row.totalSize ∧
        ∀ content ∈ v'.server.staged id, env.sha256 content = digest)
    (consumed : ∀ id asset, (id, asset) ∈ v'.server.finalized → (id, asset) ∈ v.server.finalized ∨
      v'.server.staged id = none ∧ ∃ row, v'.server.uploads.get? id = some row)
    (finalized : ∀ entry ∈ v.server.finalized, entry ∈ v'.server.finalized)
    (created : v'.created = v.created)
    (assets : ∀ row ∈ v.server.assets, ∃ row' ∈ v'.server.assets,
      row'.id = row.id ∧ row'.userId = row.userId ∧ row'.checksum = row.checksum)
    (unique : (v'.server.assets.map Asset.id).Nodup) : VaultConsistent env v' where
  server := server
  digests id digest hashed := by
    rcases digests id digest hashed with before | now
    · obtain ⟨row, here, full, same⟩ := consistent.digests id digest before
      obtain ⟨row', there, _, _, full', _⟩ := evolves.rows id row here
      refine ⟨row', there, full' full, fun content staged => ?_⟩
      exact same content (evolves.full id row here full content staged)
    · exact now
  consumed id asset member := by
    rcases consumed id asset member with before | now
    · obtain ⟨gone, row, here⟩ := consistent.consumed id asset before
      obtain ⟨row', there, _⟩ := evolves.rows id row here
      exact ⟨evolves.gone id row here gone, row', there⟩
    · exact now
  once := by
    rw [created]
    exact consistent.once
  created id asset member := by
    rw [created] at member
    obtain ⟨finished, upload, digest, here, hashed, expected, row, present, same⟩ :=
      consistent.created id asset member
    obtain ⟨upload', there, owner, expected', _⟩ := evolves.rows id upload here
    obtain ⟨row', present', same', owner', checksum'⟩ := assets row present
    refine ⟨finalized _ finished, upload', digest, there, kept id digest hashed, ?_, row', present', ?_⟩
    · rw [expected']
      exact expected
    · rw [same', owner', checksum', owner]
      exact same
  assets := unique

/-- The request has consumed the session's staged bytes and has not committed its status. -/
def Consumer (id : UUID) : Stage → Prop
  | .published upload _ | .request (.persisted upload _ _) => upload.id = id
  | _ => False

/-- A turn pays what it owes, and an open session loses its staged bytes only to a
request that goes on to commit the status. -/
structure Proceeds (env : Env) (v : Vault) (stage : Stage) (turn : Turn) : Prop where
  owes : Owes StageHolding (VaultConsistent env) StageKnows v stage turn
  bare : ∀ id, Bare (turn.result v).server id →
    Consumer id turn.arrival ∨ Bare v.server id ∧ ¬ Consumer id stage

theorem holding_request {handler other : Handler}
    (apart : ∀ k, StageHolding (.request handler) k → ¬ StageHolding (.request other) k) :
    ∀ k, Holding handler k → ¬ Holding other k := by
  rintro ⟨id⟩ mine theirs
  exact apart (.upload id) mine theirs

theorem served_consistent (consistent : VaultConsistent env v) {outcome : Step}
    (server : Consistent (outcome.result v.server)) (lifts : Lifts v outcome) :
    VaultConsistent env { v with server := outcome.result v.server } := by
  refine consistent.evolve server lifts.evolves (fun _ _ here => here) (fun _ _ here => .inl here)
    (fun _ _ here => .inl (lifts.finalized ▸ here)) (fun _ here => lifts.finalized ▸ here) rfl
    (fun row here => ⟨row, lifts.assets ▸ here, rfl, rfl, rfl⟩) ?_
  simp only [lifts.assets]
  exact consistent.assets

theorem served_spares {handler : Handler} {outcome : Step} {m : Stage}
    (pays : Pays v.server handler outcome) (lifts : Lifts v outcome)
    (others : ∀ other, m = .request other → Knows (outcome.result v.server) other) :
    Spares v { v with server := outcome.result v.server } m where
  advances := pays.advances
  evolves := lifts.evolves
  digests _ _ here := here
  handler := others
  committed _ _ _ _ _ made := made
  unmatched _ _ _ row member matched := ⟨row, lifts.assets ▸ member, matched⟩
  published _ _ _ _ finished := lifts.finalized ▸ finished

theorem served_proceeds {handler : Handler} {outcome : Step} (consistent : VaultConsistent env v)
    (pays : Pays v.server handler outcome) (lifts : Lifts v outcome)
    (leaves : ∀ id, Consumer id (.request handler) → ¬ Bare (outcome.result v.server) id) :
    Proceeds env v (.request handler) (served v outcome) := by
  have bare : ∀ id, Bare (outcome.result v.server) id →
      Bare v.server id ∧ ¬ Consumer id (.request handler) := fun id open' =>
    ⟨lifts.bare id open', fun consumer => leaves id consumer open'⟩
  have others : ∀ r, outcome.result v.server = r →
      (∀ other, (∀ k, Holding handler k → ¬ Holding other k) → Knows v.server other →
        Knows r other) →
      ∀ m, (∀ k, StageHolding (.request handler) k → ¬ StageHolding m k) → StageKnows v m →
        StageKnows { v with server := r } m := by
    rintro r rfl keeps m apart knows
    refine knows.spare (served_spares pays lifts fun other same => ?_)
    subst same
    exact keeps other (holding_request apart) knows.1
  have global : Consistent (outcome.result v.server) →
      VaultConsistent env { v with server := outcome.result v.server } := fun server =>
    served_consistent consistent server lifts
  cases outcome with
  | stay r h =>
    obtain ⟨server, arrives, kept, keeps⟩ := pays.owes
    refine ⟨⟨global server, ⟨arrives, lifts.arrives⟩, ?_,
      others r rfl keeps⟩, fun id open' => .inr (bare id open')⟩
    rintro (⟨id⟩ | ⟨user⟩) held
    · exact kept (.upload id) held
    · exact held.elim
  | lock k h =>
    obtain ⟨id⟩ := k
    obtain ⟨arrives, kept⟩ := pays.owes
    refine ⟨⟨⟨arrives, lifts.arrives⟩, ?_⟩, fun id open' => .inr (bare id open')⟩
    rintro (⟨other⟩ | ⟨user⟩) held
    · rcases kept (.upload other) held with same | before
      · cases same
        exact .inl rfl
      · exact .inr before
    · exact held.elim
  | share k h =>
    obtain ⟨id⟩ := k
    obtain ⟨arrives, kept⟩ := pays.owes
    refine ⟨⟨⟨arrives, lifts.arrives⟩, ?_⟩, fun id open' => .inr (bare id open')⟩
    rintro (⟨other⟩ | ⟨user⟩) held
    · exact kept (.upload other) held
    · exact held.elim
  | finish r h =>
    obtain ⟨server, arrives, none, keeps⟩ := pays.owes
    refine ⟨⟨global server, ⟨arrives, lifts.arrives⟩, ?_,
      others r rfl keeps⟩, fun id open' => .inr (bare id open')⟩
    rintro (⟨id⟩ | ⟨user⟩) held
    · exact none (.upload id) held
    · exact held

/-- Recording a digest that agrees with the one before is nobody's business. -/
theorem spares_digest {m : Stage} {digest : UUID → Option String} (knows : StageKnows v m)
    (kept : ∀ id hash, v.digest id = some hash → digest id = some hash) :
    Spares v { v with digest } m where
  advances := .refl _
  evolves := .refl _
  digests := kept
  handler handler same := by
    subst same
    exact knows.1
  committed _ _ _ _ _ made := made
  unmatched _ _ _ row member matched := ⟨row, member, matched⟩
  published _ _ _ _ finished := finished

/-- A hash is recorded; a mismatch closes the session. -/
theorem hash_proceeds (consistent : VaultConsistent env v)
    (knows : StageKnows v (.request (.stored upload))) :
    Proceeds env v (.request (.stored upload))
      (served (v.hash env upload) (hashUpload env v.server upload)) := by
  obtain ⟨full, stored⟩ := knows
  have ⟨row, here, whole, _⟩ : Stored v.server upload := stored
  have pays : Pays v.server (.stored upload) (hashUpload env v.server upload) :=
    hashUpload_pays consistent.server full
  cases found : v.server.staged upload.id with
  | none =>
    have same : hashUpload env v.server upload = answer v.server (.error 500 none) := by
      simp only [hashUpload, found]
    have unhashed : v.hash env upload = v := by simp only [Vault.hash, found]
    rw [unhashed]
    rw [same] at pays ⊢
    exact served_proceeds consistent pays (lifts_same rfl trivial) fun _ held => held.elim
  | some content =>
    have hashed : v.hash env upload =
        { v with digest := Function.update v.digest upload.id (some (env.sha256 content)) } := by
      simp only [Vault.hash, found]
    rw [hashed]
    generalize noted : Function.update v.digest upload.id (some (env.sha256 content)) = digest
    have own : digest upload.id = some (env.sha256 content) := by
      rw [← noted, Function.update_self]
    have differs : ∀ id, id ≠ upload.id → digest id = v.digest id := fun id different => by
      rw [← noted, Function.update_of_ne different]
    have kept : ∀ id hash, v.digest id = some hash → digest id = some hash := by
      intro id hash before
      by_cases same : id = upload.id
      · subst same
        obtain ⟨_, _, _, agrees⟩ := consistent.digests _ hash before
        rw [own, agrees content found]
      · rwa [differs id same]
    have consistent' : VaultConsistent env { v with digest } := by
      refine consistent.evolve consistent.server (.refl _) kept (fun id hash after => ?_)
        (fun _ _ here => .inl here) (fun _ here => here) rfl
        (fun row here => ⟨row, here, rfl, rfl, rfl⟩) consistent.assets
      replace after : digest id = some hash := after
      by_cases same : id = upload.id
      · subst same
        refine .inr ⟨row, here, whole, fun other staged => ?_⟩
        cases found.symm.trans staged
        exact Option.some.inj (own.symm.trans after)
      · exact .inl ((differs id same).symm.trans after)
    have others : ∀ m, StageKnows v m → StageKnows { v with digest } m := fun m held =>
      held.spare (spares_digest held kept)
    have proceeds : Proceeds env { v with digest } (.request (.stored upload))
        (served { v with digest } (hashUpload env v.server upload)) := by
      refine served_proceeds consistent' pays ?_ fun _ held => held.elim
      simp only [hashUpload, found]
      split
      · rename_i mismatch
        have evolves : Evolves v.server
            (v.server.update upload.id fun row => { row with status := .failed }) :=
          .update fun row _ => ⟨rfl, rfl, fun full => full, fun _ => nofun⟩
        refine ⟨evolves, update_assets _ _ _, update_finalized _ _ _,
          ⟨Stored.evolve stored evolves, ?_, _, own, mismatch⟩, fun id open' =>
            bare_update (by intro row active; contradiction) open'⟩
        simp [Vault.active, Outcome.result, update_get?_self here]
      · rename_i agrees
        exact lifts_same rfl ⟨stored, own, by simpa using agrees⟩
    simp only [hashUpload, found] at proceeds ⊢
    split at proceeds
    · rename_i mismatch
      rw [if_pos mismatch]
      obtain ⟨⟨global, arrives, kept', keeps⟩, bare⟩ := proceeds
      exact ⟨⟨global, arrives, kept', fun m apart held => keeps m apart (others m held)⟩, bare⟩
    · rename_i agrees
      rw [if_neg agrees]
      obtain ⟨⟨global, arrives, kept', keeps⟩, bare⟩ := proceeds
      exact ⟨⟨global, arrives, kept', fun m apart held => keeps m apart (others m held)⟩, bare⟩

/-- Two requests that rely on the owner's row of one session are the same. -/
theorem owner_unique {m : Stage} {one two : UploadSession} {checksum : String}
    (stored : Stored v.server one) (knows : StageKnows v m) (same : two.id = one.id)
    (published : m = .published two checksum) (apart : ¬ StageHolding m (.user one.userId)) :
    False := by
  subst published
  obtain ⟨row, here, _, owner, _⟩ := stored
  obtain ⟨row', there, _, owner', _⟩ := knows.2.1.1
  rw [same] at there
  cases here.symm.trans there
  exact apart (owner.symm.trans owner')

/-- A turn that leaves rows, files and histories alone. -/
theorem proceeds_quiet {stage after : Stage} {keyed disabled : UUID → Bool}
    (consistent : VaultConsistent env v) (arrives : StageKnows v after)
    (unheld : ∀ k, ¬ StageHolding after k)
    (closed : ∀ id, Consumer id stage → ¬ Bare v.server id) :
    Proceeds env v stage (.finish { v with keyed, disabled } after) := by
  have moved : ∀ m, StageKnows v m → StageKnows { v with keyed, disabled } m := fun m knows =>
    knows.spare
      { advances := .refl _
        evolves := .refl _
        digests := fun _ _ here => here
        handler := fun handler same => by
          subst same
          exact knows.1
        committed := fun _ _ _ _ _ made => made
        unmatched := fun _ _ _ row member matched => ⟨row, member, matched⟩
        published := fun _ _ _ _ finished => finished }
  refine ⟨⟨?_, moved after arrives, unheld, fun m _ knows => moved m knows⟩,
    fun id open' => .inr ⟨open', fun consumer => closed id consumer open'⟩⟩
  exact consistent.evolve consistent.server (.refl _) (fun _ _ here => here)
    (fun _ _ here => .inl here) (fun _ _ here => .inl here) (fun _ here => here) rfl
    (fun row here => ⟨row, here, rfl, rfl, rfl⟩) consistent.assets

theorem failed_proceeds {stage : Stage} (consistent : VaultConsistent env v)
    (closed : ∀ id, Consumer id stage → ¬ Bare v.server id) :
    Proceeds env v stage (failed v upload error exception) :=
  proceeds_quiet consistent ⟨trivial, trivial⟩ (by rintro (⟨id⟩ | ⟨user⟩) held <;> exact held) closed

/-- Removing the staged bytes of a session is the business of the requests that rely
on them. -/
theorem knows_unlink {m : Stage} {id : UUID} (knows : StageKnows v m) :
    StageKnows { v with server := v.server.unlink id } m :=
  knows.spare
    { advances := .of_uploads rfl fun _ member => member
      evolves := .unlink _ _
      digests := fun _ _ here => here
      handler := fun handler same => by
        subst same
        exact knows.1.advance (.of_uploads rfl fun _ member => member) fun _ _ _ _ => rfl
      committed := fun _ _ _ _ _ made => made
      unmatched := fun _ _ _ row member matched => ⟨row, member, matched⟩
      published := fun _ _ _ _ finished => finished }

theorem unlink_consistent {id : UUID} (consistent : VaultConsistent env v) :
    VaultConsistent env { v with server := v.server.unlink id } :=
  consistent.evolve (consistent.server.of_staged _) (.unlink _ _) (fun _ _ here => here)
    (fun _ _ here => .inl here) (fun _ _ here => .inl here) (fun _ here => here) rfl
    (fun row here => ⟨row, here, rfl, rfl, rfl⟩) consistent.assets

theorem bare_unlink {id other : UUID} (open' : Bare (r.unlink id) other) (different : other ≠ id) :
    Bare r other :=
  ⟨open'.1, by simpa only [Server.unlink, Function.update_of_ne different] using open'.2⟩

theorem publishOriginal_proceeds {checksum : String} (consistent : VaultConsistent env v)
    (knows : StageKnows v (.unmatched upload checksum)) :
    Proceeds env v (.unmatched upload checksum) (publishOriginal v upload checksum) := by
  unfold publishOriginal
  split
  · rename_i content staged
    obtain ⟨full, hashed, _⟩ := knows
    have unfinished : ∀ asset, (upload.id, asset) ∉ v.server.finalized := fun asset finished => by
      rw [(consistent.consumed _ _ finished).1] at staged
      contradiction
    refine ⟨⟨unlink_consistent consistent, ⟨full, hashed.evolve (.unlink _ _) fun _ _ here => here,
      ?_, unfinished⟩, fun k held => ?_, fun m _ held => knows_unlink held⟩, fun id open' => ?_⟩
    · simp only [Server.unlink, Function.update_self]
    · cases k with
      | upload id => exact held
      | user id => exact held
    · by_cases same : upload.id = id
      · exact .inl same
      · exact .inr ⟨bare_unlink open' (Ne.symm same), fun held => held⟩
  · exact failed_proceeds consistent fun _ held => held.elim

theorem adoptExisting_proceeds {checksum : String} {asset : UUID}
    (consistent : VaultConsistent env v) (knows : StageKnows v (.owning upload checksum))
    (alone : ∀ entry ∈ v.created, entry.1 = upload.id → ∀ row ∈ v.server.assets,
      matchesContent upload checksum row = true → row.id = entry.2)
    (chosen : adoptExisting v upload checksum asset = some turn) :
    Proceeds env v (.owning upload checksum) turn := by
  obtain ⟨full, hashed⟩ := knows
  unfold adoptExisting at chosen
  split at chosen
  · rename_i allowed
    cases chosen
    obtain ⟨row, here, whole, owner, _⟩ := hashed.1
    obtain ⟨known, member, found⟩ := List.any_eq_true.mp allowed.2
    obtain ⟨named, matched⟩ := of_decide_eq_true found
    have own : ∀ entry ∈ v.created, entry.1 = upload.id → asset = entry.2 :=
      fun entry made same => named.symm.trans (alone entry made same known member matched)
    have grown : ∀ entry ∈ v.server.finalized, entry ∈ v.server.finalized ++ [(upload.id, asset)] :=
      fun entry member => List.mem_append_left _ member
    have evolves : Evolves v.server { v.server.unlink upload.id with
        finalized := v.server.finalized ++ [(upload.id, asset)] } :=
      .of_uploads rfl fun _ _ here => unlink_staged here
    have advances : Advances v.server { v.server.unlink upload.id with
        finalized := v.server.finalized ++ [(upload.id, asset)] } := .of_uploads rfl grown
    have server : Consistent { v.server.unlink upload.id with
        finalized := v.server.finalized ++ [(upload.id, asset)] } := by
      refine ⟨consistent.server.keyed, consistent.server.bounded, fun id row found done => ?_,
        fun entry there => ?_⟩
      · obtain ⟨other, finished⟩ := consistent.server.finished id row found done
        exact ⟨other, grown _ finished⟩
      · rcases List.mem_append.mp there with old | new
        · exact consistent.server.committed entry old
        · rw [List.mem_singleton.mp new]
          exact ⟨known, member, named⟩
    have last : (upload.id, asset) ∈ v.server.finalized ++ [(upload.id, asset)] :=
      List.mem_append_right _ (List.mem_singleton.mpr rfl)
    refine ⟨⟨?_, ⟨⟨full.advance advances, last⟩, hashed.1.evolve evolves, last, ?_⟩, ?_, ?_⟩, ?_⟩
    · refine consistent.evolve server evolves (fun _ _ here => here) (fun _ _ here => .inl here)
        (fun id other there => ?_) grown rfl (fun row here => ⟨row, here, rfl, rfl, rfl⟩)
        consistent.assets
      rcases List.mem_append.mp there with old | new
      · exact .inl old
      · cases List.mem_singleton.mp new
        exact .inr ⟨by simp only [Server.unlink, Function.update_self], row, here⟩
    · intro other made
      exact (own _ made rfl).symm
    · rintro (⟨id⟩ | ⟨user⟩) held
      · exact held
      · exact held
    · intro m apart held
      refine held.spare
        { advances
          evolves
          digests := fun _ _ here => here
          handler := fun handler same => ?_
          committed := fun _ _ _ _ _ made => made
          unmatched := fun _ _ _ row member matched => ⟨row, member, matched⟩
          published := fun two hash same other there => ?_ }
      · subst same
        exact held.1.advance advances fun _ _ _ _ => rfl
      · rcases List.mem_append.mp there with old | new
        · exact old
        · have equal : two.id = upload.id := congrArg Prod.fst (List.mem_singleton.mp new)
          exact (owner_unique hashed.1 held equal same (apart _ rfl)).elim
    · intro id open'
      by_cases same : upload.id = id
      · exact .inl same
      · exact .inr ⟨bare_unlink open' (Ne.symm same), fun held => held⟩
  · contradiction

theorem insertAsset_proceeds {checksum : String} {asset : Asset}
    (consistent : VaultConsistent env v) (knows : StageKnows v (.published upload checksum))
    (chosen : insertAsset v upload checksum asset = some turn) :
    Proceeds env v (.published upload checksum) turn := by
  obtain ⟨full, hashed, gone, unfinished⟩ := knows
  unfold insertAsset at chosen
  split at chosen
  · rename_i fits
    obtain ⟨owner, content, _, active, fresh⟩ := fits
    cases chosen
    obtain ⟨row, here, whole, owns, expects⟩ := hashed.1
    have grown : ∀ entry ∈ v.server.finalized,
        entry ∈ v.server.finalized ++ [(upload.id, asset.id)] :=
      fun entry member => List.mem_append_left _ member
    have last : (upload.id, asset.id) ∈ v.server.finalized ++ [(upload.id, asset.id)] :=
      List.mem_append_right _ (List.mem_singleton.mpr rfl)
    have advances : Advances v.server { v.server with
        assets := v.server.assets ++ [asset]
        finalized := v.server.finalized ++ [(upload.id, asset.id)] } := .of_uploads rfl grown
    have evolves : Evolves v.server { v.server with
        assets := v.server.assets ++ [asset]
        finalized := v.server.finalized ++ [(upload.id, asset.id)] } :=
      .of_uploads rfl fun _ _ here => here
    -- No row was committed for the session before: it would be finalized.
    have uncommitted : ∀ other, (upload.id, other) ∉ v.created := fun other made =>
      unfinished other (consistent.created _ _ made).1
    refine ⟨⟨⟨?_, ?_, ?_, ?_, ?_, ?_⟩, ⟨⟨full.advance advances, last⟩,
      hashed.1.evolve evolves, last, ?_⟩, ?_, ?_⟩, ?_⟩
    · refine ⟨consistent.server.keyed, consistent.server.bounded, fun id row found done => ?_,
        fun entry there => ?_⟩
      · obtain ⟨other, finished⟩ := consistent.server.finished id row found done
        exact ⟨other, grown _ finished⟩
      · rcases List.mem_append.mp there with old | new
        · obtain ⟨known, member, same⟩ := consistent.server.committed entry old
          exact ⟨known, List.mem_append_left _ member, same⟩
        · rw [List.mem_singleton.mp new]
          exact ⟨asset, List.mem_append_right _ (List.mem_singleton.mpr rfl), rfl⟩
    · exact consistent.digests
    · intro id other there
      rcases List.mem_append.mp there with old | new
      · exact consistent.consumed id other old
      · cases List.mem_singleton.mp new
        exact ⟨gone, row, here⟩
    · rw [List.map_append, List.nodup_append]
      refine ⟨consistent.once, List.pairwise_singleton _ _, fun id old other new same => ?_⟩
      obtain ⟨⟨first, one⟩, made, rfl⟩ := List.mem_map.mp old
      have equal : first = upload.id := same.trans (List.mem_singleton.mp new)
      exact uncommitted one (equal ▸ made)
    · intro id other there
      rcases List.mem_append.mp there with old | new
      · obtain ⟨finished, upload', digest, found, hash, expected, known, member, same⟩ :=
          consistent.created id other old
        exact ⟨grown _ finished, upload', digest, found, hash, expected, known,
          List.mem_append_left _ member, same⟩
      · cases List.mem_singleton.mp new
        refine ⟨last, row, checksum, here, hashed.2.1, ?_, asset,
          List.mem_append_right _ (List.mem_singleton.mpr rfl), rfl, owner.trans owns.symm, content⟩
        rw [expects]
        exact hashed.2.2
    · rw [List.map_append, List.nodup_append]
      refine ⟨consistent.assets, List.pairwise_singleton _ _, fun id old other new same => ?_⟩
      obtain ⟨known, member, rfl⟩ := List.mem_map.mp old
      rw [List.mem_singleton.mp new] at same
      exact of_decide_eq_true (List.all_eq_true.mp fresh known member) same
    · intro other there
      rcases List.mem_append.mp there with old | new
      · exact absurd old (uncommitted other)
      · exact congrArg Prod.snd (List.mem_singleton.mp new)
    · rintro (⟨id⟩ | ⟨user⟩) held
      · exact held
      · exact held
    · intro m apart held
      refine held.spare
        { advances
          evolves
          digests := fun _ _ here => here
          handler := fun handler same => ?_
          committed := fun two other duplicate same made there => ?_
          unmatched := fun two hash same known member matched => ?_
          published := fun two hash same other there => ?_ }
      · subst same
        exact held.1.advance advances fun _ _ _ _ => rfl
      · rcases List.mem_append.mp there with old | new
        · exact old
        · subst same
          have equal : two.id = upload.id := congrArg Prod.fst (List.mem_singleton.mp new)
          exact absurd (equal ▸ held.2.2.1) (unfinished other)
      · rcases List.mem_append.mp member with old | new
        · exact ⟨known, old, matched⟩
        · subst same
          have theirs := (of_decide_eq_true matched).1
          rw [List.mem_singleton.mp new] at theirs
          exact absurd (owner.symm.trans theirs) (apart (.user upload.userId) rfl)
      · rcases List.mem_append.mp there with old | new
        · exact old
        · have equal : two.id = upload.id := congrArg Prod.fst (List.mem_singleton.mp new)
          exact (owner_unique hashed.1 held equal same (apart _ rfl)).elim
    · intro id open'
      by_cases same : upload.id = id
      · exact .inl same
      · exact .inr ⟨open', same⟩
  · contradiction

/-- A change of an asset's state keeps who and what the assets are. -/
theorem lifecycle_consistent {asset : UUID} {state : LifecycleState}
    (consistent : VaultConsistent env v) : VaultConsistent env (v.setLifecycle asset state) := by
  have kept : ∀ row ∈ v.server.assets, ∃ row' ∈ (v.setLifecycle asset state).server.assets,
      row'.id = row.id ∧ row'.userId = row.userId ∧ row'.checksum = row.checksum := by
    intro row member
    refine ⟨_, List.mem_map_of_mem member, ?_⟩
    split
    · exact ⟨rfl, rfl, rfl⟩
    · exact ⟨rfl, rfl, rfl⟩
  refine consistent.evolve ⟨consistent.server.keyed, consistent.server.bounded,
    consistent.server.finished, fun entry member => ?_⟩ (.of_uploads rfl fun _ _ here => here)
    (fun _ _ here => here) (fun _ _ here => .inl here) (fun _ _ here => .inl here)
    (fun _ here => here) rfl kept ?_
  · obtain ⟨row, there, same⟩ := consistent.server.committed entry member
    obtain ⟨row', there', same', _⟩ := kept row there
    exact ⟨row', there', same'.trans same⟩
  · have ids : (v.setLifecycle asset state).server.assets.map Asset.id =
        v.server.assets.map Asset.id := by
      simp only [Vault.setLifecycle, List.map_map]
      refine List.map_congr_left fun row _ => ?_
      simp only [Function.comp_apply]
      split <;> rfl
    rw [ids]
    exact consistent.assets

theorem lifecycle_proceeds {stage : Stage} {asset : UUID} {state : LifecycleState}
    (consistent : VaultConsistent env v) (closed : ∀ id, ¬ Consumer id stage)
    (activates : state = .active → ∀ row ∈ v.server.assets, row.id = asset →
      StageHolding stage (.user row.userId)) :
    Proceeds env v stage (.finish (v.setLifecycle asset state) (.request .idle)) := by
  refine ⟨⟨lifecycle_consistent consistent, ⟨trivial, trivial⟩,
    by rintro (⟨id⟩ | ⟨user⟩) held <;> exact held, fun m apart held => ?_⟩,
    fun id open' => .inr ⟨open', closed id⟩⟩
  refine held.spare
    { advances := .of_uploads rfl fun _ member => member
      evolves := .of_uploads rfl fun _ _ here => here
      digests := fun _ _ here => here
      handler := fun handler same => ?_
      committed := fun _ _ _ _ _ made => made
      unmatched := fun two hash same row' member matched => ?_
      published := fun _ _ _ _ finished => finished }
  · subst same
    exact held.1.advance (.of_uploads rfl fun _ member => member) fun _ _ _ _ => rfl
  · obtain ⟨row, there, rfl⟩ := List.mem_map.mp member
    by_cases changed : row.id = asset
    · rw [if_pos changed] at matched
      obtain ⟨owner, _, active⟩ := of_decide_eq_true matched
      -- Only the owner's lock lets an asset become active.
      subst same
      exact absurd owner (apart _ (activates active row there changed))
    · rw [if_neg changed] at matched
      exact ⟨row, there, matched⟩

theorem closed_of_inactive {id : UUID} (closed : v.active id = false) : ¬ Bare v.server id :=
  fun open' => absurd open'.1 (Bool.not_eq_true _ ▸ closed)

/-- What takes a request out of `persisted`. -/
theorem persisted_leaves {upload : UploadSession} {duplicate : Bool} {asset : UUID}
    {outcome : Step} (knows : HandlerKnows v (.persisted upload asset duplicate))
    (undisturbed : Undisturbed v (.request (.persisted upload asset duplicate)) (.request action))
    (chosen : program env v.server (.persisted upload asset duplicate) action = some outcome)
    (other : action.persists = false) : ¬ Bare (outcome.result v.server) upload.id := by
  obtain ⟨row, here, _⟩ := knows.1
  cases action with
  | complete =>
    cases chosen
    rintro ⟨open', _⟩
    simp [answer, Outcome.result, update_get?_self here] at open'
  | refuse code detail =>
    simp only [program] at chosen
    split at chosen
    · cases chosen
      exact closed_of_inactive undisturbed
    · contradiction
  | crash =>
    cases chosen
    exact closed_of_inactive undisturbed
  | hash | consume | persist | failPersist => contradiction
  | receive | create | read | lockUpload | check | chunk | endBody | unlinkRejected =>
    contradiction

theorem vaultProgram_proceeds {stage : Stage} {event : Event} (consistent : VaultConsistent env v)
    (knows : StageKnows v stage) (undisturbed : Undisturbed v stage event)
    (chosen : vaultProgram env v stage event = some turn) : Proceeds env v stage turn := by
  cases event with
  | request action =>
    simp only [vaultProgram] at chosen
    split at chosen
    · rename_i handler
      split at chosen
      · contradiction
      rename_i other
      obtain ⟨outcome, decided, rfl⟩ := Option.map_eq_some_iff.mp chosen
      have other : action.persists = false := by simpa using other
      refine served_proceeds consistent (program_pays consistent.server knows.1 decided)
        (program_lifts consistent.server knows.1 knows.2 other decided) ?_
      intro id consumer
      cases handler with
      | persisted upload asset duplicate =>
        obtain rfl : upload.id = id := consumer
        exact persisted_leaves knows.2 undisturbed decided other
      | _ => exact consumer.elim
    · split at chosen
      · cases chosen
        exact proceeds_quiet consistent ⟨trivial, trivial⟩
          (by rintro (⟨id⟩ | ⟨user⟩) held <;> exact held) fun _ held => held.elim
      · contradiction
    · split at chosen
      · cases chosen
        exact proceeds_quiet consistent ⟨trivial, trivial⟩
          (by rintro (⟨id⟩ | ⟨user⟩) held <;> exact held) fun _ held => held.elim
      · contradiction
    · split at chosen
      · rename_i crashes
        subst crashes
        cases chosen
        refine proceeds_quiet consistent ⟨trivial, trivial⟩
          (by rintro (⟨id⟩ | ⟨user⟩) held <;> exact held) fun id consumer => ?_
        obtain rfl := consumer
        exact closed_of_inactive undisturbed
      · contradiction
    · split at chosen
      · cases chosen
        exact proceeds_quiet consistent ⟨trivial, trivial⟩
          (by rintro (⟨id⟩ | ⟨user⟩) held <;> exact held) fun _ held => held.elim
      · contradiction
  | hash =>
    simp only [vaultProgram] at chosen
    split at chosen
    · cases chosen
      exact hash_proceeds consistent knows
    · contradiction
  | lockOwner =>
    simp only [vaultProgram] at chosen
    split at chosen
    · cases chosen
      refine ⟨⟨⟨knows.1, knows.2⟩, fun k held => ?_⟩, fun id open' => .inr ⟨open', fun held => held⟩⟩
      cases k with
      | upload id => exact held.elim
      | user id => exact .inl (congrArg RowKey.user held)
    · contradiction
  | initializeKey =>
    simp only [vaultProgram] at chosen
    split at chosen
    · split at chosen
      · contradiction
      · cases chosen
        exact proceeds_quiet consistent knows
          (by rintro (⟨id⟩ | ⟨user⟩) held <;> exact held) fun _ held => held.elim
    · contradiction
  | adopt asset =>
    simp only [vaultProgram] at chosen
    split at chosen
    · exact adoptExisting_proceeds consistent knows undisturbed chosen
    · contradiction
  | discard =>
    simp only [vaultProgram] at chosen
    split at chosen
    · rename_i upload checksum
      split at chosen
      · cases chosen
        refine ⟨⟨unlink_consistent consistent, ⟨trivial, trivial⟩,
          by rintro (⟨id⟩ | ⟨user⟩) held <;> exact held, fun m _ held => knows_unlink held⟩,
          fun id open' => ?_⟩
        have different : id ≠ upload.id := by
          rintro rfl
          exact absurd open'.1 (Bool.not_eq_true _ ▸ undisturbed.1)
        exact .inr ⟨bare_unlink open' different, fun held => held⟩
      · contradiction
    · contradiction
  | noneExisting =>
    simp only [vaultProgram] at chosen
    split at chosen
    · split at chosen
      · contradiction
      · rename_i none
        cases chosen
        refine ⟨Owes.quiet consistent ⟨knows.1, knows.2, fun row member => ?_⟩ fun k held => ?_,
          fun id open' => .inr ⟨open', fun held => held⟩⟩
        · by_contra matched
          exact none (.inr (List.any_eq_true.mpr ⟨row, member, by simpa using matched⟩))
        · cases k with
          | upload id => exact held
          | user id => exact held
    · contradiction
  | publish =>
    simp only [vaultProgram] at chosen
    split at chosen
    · cases chosen
      exact publishOriginal_proceeds consistent knows
    · contradiction
  | insert asset =>
    simp only [vaultProgram] at chosen
    split at chosen
    · exact insertAsset_proceeds consistent knows chosen
    · contradiction
  | fail error exception =>
    simp only [vaultProgram] at chosen
    split at chosen
    · cases chosen
      exact failed_proceeds consistent fun _ held => held.elim
    · cases chosen
      exact failed_proceeds consistent fun _ held => held.elim
    · cases chosen
      exact failed_proceeds consistent fun _ held => held.elim
    · cases chosen
      refine failed_proceeds consistent fun id consumer => ?_
      obtain rfl := consumer
      exact closed_of_inactive undisturbed
    · contradiction
  | administer user =>
    simp only [vaultProgram] at chosen
    split at chosen
    · cases chosen
      refine ⟨⟨trivial, fun k held => ?_⟩, fun id open' => .inr ⟨open', fun held => held⟩⟩
      cases k with
      | upload id => exact held.elim
      | user id => exact .inl (congrArg RowKey.user held)
    · contradiction
  | disable =>
    simp only [vaultProgram] at chosen
    split at chosen
    · cases chosen
      exact proceeds_quiet consistent ⟨trivial, trivial⟩
        (by rintro (⟨id⟩ | ⟨user⟩) held <;> exact held) fun _ held => held.elim
    · contradiction
  | activate asset =>
    simp only [vaultProgram] at chosen
    split at chosen
    · split at chosen
      · rename_i owned
        cases chosen
        refine lifecycle_proceeds consistent (fun _ held => held) fun _ row member same => ?_
        exact of_decide_eq_true (List.all_eq_true.mp owned row member) same
      · contradiction
    · contradiction
  | retire asset state =>
    simp only [vaultProgram] at chosen
    split at chosen
    · split at chosen
      · contradiction
      · rename_i inactive
        cases chosen
        exact lifecycle_proceeds consistent (fun _ held => held) fun active => absurd active inactive
    · contradiction

/-- The request is a PATCH for the end of the session, from its checks on. -/
def Finalizing (v : Vault) (id : UUID) : Stage → Prop
  | .request (.locked user session offset _) =>
    session = id ∧ ∃ row, v.server.find? user id = some row ∧ offset = row.totalSize
  | .request (.stored upload) | .request (.rejected upload) | .request (.hashed upload _)
  | .request (.persisted upload _ _) | .owning upload _ | .unmatched upload _
  | .published upload _ => upload.id = id
  | _ => False

/-- The request itself dies or an exception ends it. -/
def Event.fails : Event → Bool
  | .request .crash | .request (.refuse _ _) | .fail _ _ => true
  | _ => false

/-- The reply of a finalized session that returns this asset. -/
def Returns (v : Vault) (id asset : UUID) (reply : Answer) : Prop :=
  (∃ row duplicate, reply = .appended row (some asset) duplicate ∧ row.id = id ∧
    row.status = .complete) ∧
  ∃ row, v.server.uploads.get? id = some row ∧ row.status = .complete

/-- The asset row that the session has committed, while it is active. -/
def Vault.CommittedAs (v : Vault) (id asset : UUID) : Prop :=
  (id, asset) ∈ v.created ∧
    ∃ row ∈ v.server.assets, row.id = asset ∧ row.lifecycleState = .active

theorem committed_of {id asset : UUID} (committed : v.CommittedAs id asset) : v.committed id := by
  obtain ⟨made, row, member, same, active⟩ := committed
  exact ⟨(id, asset), made, rfl, row, member, same, active⟩

/-- A committed asset that is active is found by its content. -/
theorem committed_matches {asset : UUID} {checksum : String} (consistent : VaultConsistent env v)
    (hashed : Hashed v upload checksum) (committed : v.CommittedAs upload.id asset) :
    ∃ row ∈ v.server.assets, matchesContent upload checksum row = true := by
  obtain ⟨made, row, member, same, active⟩ := committed
  obtain ⟨_, found, digest, here, hash, _, known, present, equal, owner, content⟩ :=
    consistent.created _ _ made
  have one : row = known := List.inj_on_of_nodup_map consistent.assets member present
    (same.trans equal.symm)
  obtain ⟨stored, there, _, owns, _⟩ := hashed.1
  cases here.symm.trans there
  cases hash.symm.trans hashed.2.1
  subst one
  refine ⟨row, member, decide_eq_true ⟨owner.trans owns, content, active⟩⟩

/-- Every answer that a request for the end of a session gets while the session's asset
row is committed and active returns this asset. -/
theorem vaultProgram_returns {stage : Stage} {event : Event} {id asset : UUID}
    (consistent : VaultConsistent env v) (knows : StageKnows v stage)
    (undisturbed : Undisturbed v stage event) (finalizing : Finalizing v id stage)
    (committed : v.CommittedAs id asset) (alive : event.fails = false)
    (chosen : vaultProgram env v stage event = some turn)
    (answers : turn.arrival = .request (.answered reply)) : Returns (turn.result v) id asset reply := by
  cases event with
  | request action =>
    simp only [vaultProgram] at chosen
    split at chosen
    · rename_i handler
      split at chosen
      · contradiction
      rename_i other
      obtain ⟨outcome, decided, rfl⟩ := Option.map_eq_some_iff.mp chosen
      cases handler with
      | locked user session offset body =>
        cases action with
        | check now =>
          obtain ⟨rfl, row, found, whole⟩ := finalizing
          exact absurd (committed_of committed) (undisturbed row found whole)
        | refuse | crash => contradiction
        | hash | consume | persist | failPersist => contradiction
        | receive | create | read | lockUpload | chunk | endBody | unlinkRejected | complete =>
          contradiction
      | rejected upload =>
        cases action with
        | unlinkRejected =>
          -- The session's asset row says that the content was as expected.
          obtain rfl : upload.id = id := finalizing
          obtain ⟨_, row, digest, here, hash, expected, _⟩ := consistent.created _ _ committed.1
          obtain ⟨⟨stored, there, _, _, expects⟩, _, other, hash', mismatch⟩ := knows.2
          cases here.symm.trans there
          cases hash.symm.trans hash'
          rw [expects, mismatch] at expected
          contradiction
        | refuse | crash => contradiction
        | hash | consume | persist | failPersist => contradiction
        | receive | create | read | lockUpload | check | chunk | endBody | complete =>
          contradiction
      | persisted upload known duplicate =>
        cases action with
        | complete =>
          obtain rfl : upload.id = id := finalizing
          cases decided
          cases answers
          obtain ⟨⟨row, here, _⟩, _, only⟩ := knows.2
          rw [only asset committed.1]
          exact ⟨⟨_, duplicate, rfl, rfl, rfl⟩, _, update_get?_self here, rfl⟩
        | refuse | crash => contradiction
        | hash | consume | persist | failPersist => contradiction
        | receive | create | read | lockUpload | check | chunk | endBody | unlinkRejected =>
          contradiction
      | stored upload | hashed upload checksum =>
        cases action with
        | refuse | crash => contradiction
        | hash | consume | persist | failPersist => contradiction
        | receive | create | read | lockUpload | check | chunk | endBody | unlinkRejected
        | complete => contradiction
      | idle | received | writing | answered | lost => exact finalizing.elim
    all_goals
      split at chosen
      · rename_i crashes
        subst crashes
        contradiction
      · contradiction
  | hash =>
    simp only [vaultProgram] at chosen
    split at chosen
    · obtain rfl := finalizing
      exact absurd (committed_of committed) undisturbed
    · contradiction
  | lockOwner | administer =>
    simp only [vaultProgram] at chosen
    split at chosen
    · cases chosen
      contradiction
    · contradiction
  | initializeKey | noneExisting =>
    simp only [vaultProgram] at chosen
    split at chosen
    · split at chosen
      · contradiction
      · cases chosen
        cases answers
    · contradiction
  | adopt | insert =>
    simp only [vaultProgram] at chosen
    split at chosen
    · simp only [adoptExisting, insertAsset] at chosen
      split at chosen
      · cases chosen
        cases answers
      · contradiction
    · contradiction
  | discard =>
    simp only [vaultProgram] at chosen
    split at chosen
    · obtain rfl := finalizing
      exact absurd (committed_of committed) undisturbed.2
    · contradiction
  | publish =>
    simp only [vaultProgram] at chosen
    split at chosen
    · obtain rfl := finalizing
      obtain ⟨row, member, matched⟩ := committed_matches consistent knows.2.1 committed
      rw [knows.2.2 row member] at matched
      contradiction
    · contradiction
  | fail error exception => contradiction
  | disable | activate | retire =>
    simp only [vaultProgram] at chosen
    split at chosen
    · exact finalizing.elim
    · contradiction

/-- One asset row at most comes out of a session. -/
def OneAssetEach (t : Publishers) : Prop := (t.shared.created.map Prod.fst).Nodup

/-- While an open session has no staged bytes, some request has consumed them and goes
on to commit the status. -/
def NoneStuck (t : Publishers) : Prop :=
  ∀ id, Bare t.shared.server id → ∃ q, Consumer id (t.locals q)

/-- A request for the end of a session is answered with the session's asset row as long
as it is committed and active. -/
def AnswersWithAsset (env : Env) (s : Publishers) (label : Nat × Event) : Prop :=
  ∀ s', vaultStep env s label = some s' → label.2.fails = false → ∀ id asset,
    Finalizing s.shared id (s.locals label.1) → s.shared.CommittedAs id asset →
    ∀ reply, s'.locals label.1 = .request (.answered reply) → Returns s'.shared id asset reply

abbrev Publishing (env : Env) : Publishers → Prop :=
  Sound StageHolding (VaultConsistent env) StageKnows

/-- The condition on the steps of a run. -/
abbrev StepUndisturbed (s : Publishers) (label : Nat × Event) : Prop :=
  Undisturbed s.shared (s.locals label.1) label.2

theorem step_publishing {s s' : Publishers} {label : Nat × Event} (publishing : Publishing env s)
    (free : NoneStuck s) (undisturbed : StepUndisturbed s label)
    (stepped : vaultStep env s label = some s') : Publishing env s' ∧ NoneStuck s' := by
  have proceeds : ∀ turn, vaultProgram env s.shared (s.locals label.1) label.2 = some turn →
      Proceeds env s.shared (s.locals label.1) turn := fun turn chosen =>
    vaultProgram_proceeds publishing.global (publishing.session label.1) undisturbed chosen
  refine ⟨publishing.step stepped fun turn chosen => (proceeds turn chosen).owes, fun id open' => ?_⟩
  obtain ⟨turn, chosen, acted⟩ := Option.bind_eq_some_iff.mp stepped
  rw [Store.act_shared acted] at open'
  rw [Store.act_locals acted]
  rcases (proceeds turn chosen).bare id open' with mine | ⟨before, notMine⟩
  · exact ⟨label.1, by rwa [Function.update_self]⟩
  · obtain ⟨q, theirs⟩ := free id before
    have different : q ≠ label.1 := by
      rintro rfl
      exact notMine theirs
    exact ⟨q, by rwa [Function.update_of_ne different]⟩

theorem step_answers {s : Publishers} {label : Nat × Event} (publishing : Publishing env s)
    (undisturbed : StepUndisturbed s label) : AnswersWithAsset env s label := by
  intro s' stepped alive id asset finalizing committed reply answered
  obtain ⟨turn, chosen, acted⟩ := Option.bind_eq_some_iff.mp stepped
  rw [Store.act_shared acted]
  rw [Store.act_locals acted, Function.update_self] at answered
  exact vaultProgram_returns publishing.global (publishing.session label.1) undisturbed finalizing
    committed alive chosen answered

/-- A server without upload sessions and requests. -/
def openVault (assets : List Asset) (disabled keyed : UUID → Bool) : Publishers :=
  Store.idle ⟨⟨[], fun _ => none, assets, []⟩, disabled, keyed, [], fun _ => none⟩ (.request .idle)

theorem openVault_publishing {assets : List Asset} {disabled keyed : UUID → Bool}
    (unique : (assets.map Asset.id).Nodup) :
    Publishing env (openVault assets disabled keyed) := by
  refine Sound.idle ⟨⟨nofun, nofun, nofun, nofun⟩, nofun, nofun, List.nodup_nil, nofun, unique⟩
    ⟨trivial, trivial⟩ ?_
  rintro (⟨id⟩ | ⟨user⟩) held
  · exact held
  · exact held

/-- In every run in which nothing comes between the end of a session's staged bytes and
its status, a session commits one asset row at most, its retries return this row while
it is active, and no session is left open without its bytes. -/
theorem finalization_returns_its_asset {assets : List Asset} {disabled keyed : UUID → Bool}
    (unique : (assets.map Asset.id).Nodup) {labels : List (Nat × Event)}
    (undisturbed : Along (vaultStep env) StepUndisturbed (openVault assets disabled keyed) labels)
    (reached : run (vaultStep env) (openVault assets disabled keyed) labels = some t) :
    OneAssetEach t ∧ NoneStuck t ∧
      Along (vaultStep env) (AnswersWithAsset env) (openVault assets disabled keyed) labels := by
  have preserves : ∀ s label s', Publishing env s ∧ NoneStuck s → StepUndisturbed s label →
      vaultStep env s label = some s' → Publishing env s' ∧ NoneStuck s' :=
    fun _ _ _ sound undisturbed stepped => step_publishing sound.1 sound.2 undisturbed stepped
  have initial : Publishing env (openVault assets disabled keyed) ∧
      NoneStuck (openVault assets disabled keyed) :=
    ⟨openVault_publishing unique, fun _ open' => nomatch open'.1⟩
  have final := invariant preserves initial undisturbed reached
  refine ⟨final.1.global.once, final.2, ?_⟩
  exact along_of_invariant preserves (fun _ _ sound undisturbed => step_answers sound.1 undisturbed)
    initial undisturbed

def tinyEnv : Env :=
  { sha256 := fun _ => "digest", maxUploadSize := 100, uploadSessionHours := 24
    resumableChunkSize := 4 }

def noUploads : Publishers := openVault [] (fun _ => false) (fun _ => true)

def uploadedAsset (id : UUID) : Asset :=
  { id, userId := 7, logicalId := id, version := 1, lifecycleState := .active
    supersededAt := none, trashedAt := none, purgeAfter := none, deletedBy := none
    originalPath := "/originals/a.jpg", checksum := "digest", storageChecksum := "digest"
    encryptionVersion := 0, fileSize := 2, thumbnailPath := none, previewPath := none
    storageSource := .managed, originalFilename := none }

/-- A request of the upload endpoints, step by step. -/
def serve (q : Nat) (actions : List Action) : List (Nat × Event) :=
  actions.map fun action => (q, .request action)

/-- The only body of a session of two bytes, hashed by the request that brings it. -/
def wholeUpload : List (Nat × Event) :=
  serve 0 [.receive (.create 7 none 2), .create 1 0] ++
    serve 1 [.receive (.append 7 1 0 [10, 11]), .lockUpload, .check 0, .chunk 2, .endBody] ++
    [(1, .hash)]

/-- The original is published and the asset row committed. -/
def commitAsset : List (Nat × Event) :=
  [(1, .lockOwner), (1, .noneExisting), (1, .publish), (1, .insert (uploadedAsset 50))]

/-- A retry that hashes the staged bytes. -/
def retry (q : Nat) : List (Nat × Event) :=
  serve q [.receive (.append 7 1 2 []), .lockUpload, .check 1] ++ [(q, .hash)]

/-- A retry overlaps with the request that publishes the original and returns the
asset row that the other one has committed. -/
theorem finalization_returns_its_asset_twice :
    ∃ t, run (vaultStep tinyEnv) noUploads (wholeUpload ++ retry 2 ++ commitAsset ++
        [(2, .lockOwner), (2, .adopt 50), (2, .request .complete), (1, .request .complete)]) =
          some t ∧
      t.shared.created = [(1, 50)] ∧ OneAssetEach t ∧ NoneStuck t ∧
      Along (vaultStep tinyEnv) (AnswersWithAsset tinyEnv) noUploads
        (wholeUpload ++ retry 2 ++ commitAsset ++
          [(2, .lockOwner), (2, .adopt 50), (2, .request .complete), (1, .request .complete)]) := by
  have finishes : (run (vaultStep tinyEnv) noUploads (wholeUpload ++ retry 2 ++ commitAsset ++
      [(2, .lockOwner), (2, .adopt 50), (2, .request .complete), (1, .request .complete)])).any
        fun t => t.shared.created = [(1, 50)] := by decide
  obtain ⟨t, reached, created⟩ := (Option.any_eq_true _ _).mp finishes
  refine ⟨t, reached, of_decide_eq_true created, ?_⟩
  have unique : (([] : List Asset).map Asset.id).Nodup := List.nodup_nil
  exact finalization_returns_its_asset unique (by decide) reached

/-- The request dies between the asset row and the status; a retry follows. -/
def diedBeforeStatus : List (Nat × Event) :=
  wholeUpload ++ commitAsset ++ serve 1 [.crash] ++
    serve 2 [.receive (.append 7 1 2 []), .lockUpload, .check 1]

/-- No request is left, the session stays open without its bytes, and the retry is
refused although the asset row is committed. -/
theorem crash_after_asset_leaves_session_open :
    ∃ t, run (vaultStep tinyEnv) noUploads diedBeforeStatus = some t ∧
      t.shared.CommittedAs 1 50 ∧ ¬ NoneStuck t ∧
      t.locals 2 = .request (.answered (.error 410 (some "Staged upload is unavailable"))) := by
  have dies : (run (vaultStep tinyEnv) noUploads diedBeforeStatus).any fun t =>
      ((1, 50) ∈ t.shared.created ∧
        ∃ row ∈ t.shared.server.assets, row.id = 50 ∧ row.lifecycleState = .active) ∧
      ((t.shared.server.uploads.get? 1).any (·.status = .active) = true ∧
        t.shared.server.staged 1 = none) ∧
      t.locals 0 = .request (.answered (.created ⟨1, 7, 2, 0, none, .active, 86400⟩ 4 false)) ∧
      t.locals 1 = .request .lost ∧
      t.locals 2 = .request (.answered (.error 410 (some "Staged upload is unavailable"))) := by
    decide
  obtain ⟨t, reached, found⟩ := (Option.any_eq_true _ _).mp dies
  obtain ⟨committed, open', first, second, third⟩ := of_decide_eq_true found
  refine ⟨t, reached, committed, fun stuck => ?_, third⟩
  obtain ⟨q, consumer⟩ := stuck 1 open'
  by_cases early : q < 3
  · have cases : q = 0 ∨ q = 1 ∨ q = 2 := by omega
    rcases cases with rfl | rfl | rfl
    · rw [first] at consumer
      exact consumer
    · rw [second] at consumer
      exact consumer
    · rw [third] at consumer
      exact consumer
  · have idle : t.locals q = .request .idle := by
      refine Store.run_locals reached fun label member => ?_
      have bound : ∀ label ∈ diedBeforeStatus, label.1 < 3 := by decide
      have := bound label member
      omega
    rw [idle] at consumer
    exact consumer

end Drivebound.Uploads
