import Drivebound.Storage.MediaKey
import Mathlib

/-! What a committed asset's file holds. A ciphertext is published complete or not
at all and is authenticated before it is adopted; a plain original is copied into
its final path and an existing file there is adopted unread. So a file found at
the final path has to be the upload already, and the account's key must not be
replaced: then every committed asset's file reads, with its account's key, as its
content, every asset that is returned is one for the upload, and staged bytes are
given up only for such a file. -/
namespace Drivebound.Storage
open Sessions Run

/-- A file that reads, with the account's key, as bytes of this digest. -/
def ReadsAs (hashes : Hashes) (v : Vault) (user : UUID) (path : String) (version : Nat)
    (checksum : String) (size : Nat) : Prop :=
  ∃ file ∈ v.files path, ∃ bytes ∈ file.read (v.users user).mediaKey version,
    hashes.sha256 bytes = checksum ∧ bytes.length = size

instance (hashes : Hashes) (v : Vault) (user : UUID) (path : String) (version : Nat)
    (checksum : String) (size : Nat) : Decidable (ReadsAs hashes v user path version checksum size) :=
  inferInstanceAs (Decidable (∃ file ∈ v.files path, ∃ bytes ∈ file.read _ version, _))

/-- The asset's file has the asset's checksum and size. -/
def Holds (hashes : Hashes) (v : Vault) (asset : Asset) : Prop :=
  ReadsAs hashes v asset.userId asset.originalPath asset.encryptionVersion asset.checksum
    asset.fileSize

instance (hashes : Hashes) (v : Vault) : DecidablePred (Holds hashes v) := fun _ =>
  inferInstanceAs (Decidable (ReadsAs hashes v _ _ _ _ _))

def AllHold (hashes : Hashes) (v : Vault) : Prop := ∀ asset ∈ v.assets, Holds hashes v asset

/-- A row for the upload: its account's, with its digest. -/
def IsFor (hashes : Hashes) (job : Job) (asset : Asset) : Prop :=
  asset.userId = job.request.userId ∧ asset.checksum = job.checksum hashes

/-- The upload is in place at its final path. -/
def InPlace (hashes : Hashes) (v : Vault) (job : Job) : Prop :=
  ReadsAs hashes v job.request.userId (job.finalPath hashes) job.encryptionVersion
    (job.checksum hashes) job.content.length

/-- What is still staged is the upload. -/
def StageIs (v : Vault) (job : Job) : Prop :=
  ∀ bytes ∈ v.staged job.request.stage, bytes = job.content

/-- The session's own partial copy, which no asset names. -/
def OwnCopy (hashes : Hashes) (v : Vault) (job : Job) (copied : Nat) : Prop :=
  ¬ job.request.encrypted ∧
    v.files (job.finalPath hashes) = some (.plain (job.content.take copied)) ∧
    ∀ asset ∈ v.assets, asset.originalPath ≠ job.finalPath hashes

def Publishes (hashes : Hashes) (v : Vault) : Phase → Prop
  | .entered job _ | .locked job _ | .keyed job _ | .contentLocked job _ | .deduplicated job _
  | .publishing job _ => StageIs v job
  | .copying job _ copied => StageIs v job ∧ OwnCopy hashes v job copied
  | .placed job _ | .consumed job _ => StageIs v job ∧ InPlace hashes v job
  | .returned job id => ∃ asset ∈ v.assets, asset.id = id ∧ IsFor hashes job asset
  | .idle | .disabling _ => True

/-- The owner is active when its row is locked, and a file that a plain upload
finds at its final path is this upload. -/
def AdoptsOwn (hashes : Hashes) (s : Ingestions τ) (label : τ × Action) : Prop :=
  match s.locals label.1, label.2 with
  | .entered job _, .lockUser | .keyed job _, .lockUser => (s.shared.user job).disabled = false
  | .publishing job _, .publish => ¬ job.request.encrypted →
    ∀ file ∈ s.shared.files (job.finalPath hashes), file = .plain job.content
  | _, _ => True

instance (hashes : Hashes) (s : Ingestions τ) : DecidablePred (AdoptsOwn hashes s)
  | (_, .lockUser) => by
    unfold AdoptsOwn
    dsimp only
    generalize s.locals _ = phase
    exact match phase with
      | .entered job _ | .keyed job _ => inferInstanceAs (Decidable ((s.shared.user job).disabled = false))
      | .idle | .locked .. | .contentLocked .. | .deduplicated .. | .publishing .. | .copying .. | .placed ..
      | .consumed .. | .returned .. | .disabling _ => isTrue trivial
  | (_, .publish) => by
    unfold AdoptsOwn
    dsimp only
    generalize s.locals _ = phase
    exact match phase with
      | .publishing job _ =>
        have : Decidable (∀ file ∈ s.shared.files (job.finalPath hashes), file = .plain job.content) :=
          Option.decidableForallMem ..
        inferInstanceAs (Decidable (_ → _))
      | .idle | .entered .. | .locked .. | .keyed .. | .contentLocked .. | .deduplicated .. | .copying .. | .placed ..
      | .consumed .. | .returned .. | .disabling _ => isTrue trivial
  | (t, .begin ..) | (t, .initializeKey _) | (t, .lockContent) | (t, .findExisting) | (t, .lockPath) | (t, .copy _)
  | (t, .sync) | (t, .consume) | (t, .insert ..) | (t, .conflict) | (t, .fail) | (t, .crash) | (t, .lockForDisable _)
  | (t, .disable) => by
    unfold AdoptsOwn
    dsimp only
    generalize s.locals t = phase
    exact match phase with
      | .idle | .entered .. | .locked .. | .keyed .. | .contentLocked .. | .deduplicated .. | .publishing ..
      | .copying .. | .placed .. | .consumed .. | .returned .. | .disabling _ => isTrue trivial

/-- What the code asks for: no key is replaced and no foreign file is adopted. -/
def Orderly (hashes : Hashes) (s : Ingestions τ) (label : τ × Action) : Prop :=
  KeyCurrent s label ∧ AdoptsOwn hashes s label

instance (hashes : Hashes) (s : Ingestions τ) : DecidablePred (Orderly hashes s) := fun _ =>
  inferInstanceAs (Decidable (_ ∧ _))

/-- The upload that a session is at. -/
def Phase.job? : Phase → Option Job
  | .entered job _ | .locked job _ | .keyed job _ | .contentLocked job _ | .deduplicated job _
  | .publishing job _ | .copying job _ _ | .placed job _ | .consumed job _ | .returned job _ =>
    some job
  | .idle | .disabling _ => none

/-- The upload can be read back: from its own final path, or from the file of an
active asset of its account with its digest. -/
def Backed (hashes : Hashes) (v : Vault) (job : Job) : Prop :=
  InPlace hashes v job ∨
    ∃ asset ∈ v.assets, IsFor hashes job asset ∧ asset.lifecycleState = .active ∧
      Holds hashes v asset

/-- What a step does with the upload its session is at. -/
structure KeepsUpload (hashes : Hashes) (s : Ingestions τ) (label : τ × Action)
    (s' : Ingestions τ) : Prop where
  /-- It is what was staged when the call began. -/
  job : ∀ job, (s'.locals label.1).job? = some job → (s.locals label.1).job? = some job ∨
    s.shared.staged job.request.stage = some job.content ∧
      ∃ loaded, label.2 = .begin job.request loaded
  /-- A committed row is for it and has its size. -/
  committed : ∀ asset ∈ s'.shared.assets, asset ∈ s.shared.assets ∨
    ∃ job, (s.locals label.1).job? = some job ∧ IsFor hashes job asset ∧
      asset.fileSize = job.content.length
  /-- Staged bytes are removed only where they are its bytes and it is backed. -/
  staged : ∀ stage, ∀ bytes ∈ s.shared.staged stage, s'.shared.staged stage = none →
    ∃ job, (s.locals label.1).job? = some job ∧ job.request.stage = stage ∧
      job.content = bytes ∧ Backed hashes s'.shared job

variable {hashes : Hashes}

theorem readsAs_same {v w : Vault} (keys : ∀ id, (w.users id).mediaKey = (v.users id).mediaKey)
    (files : w.files = v.files) (reads : ReadsAs hashes v user path version checksum size) :
    ReadsAs hashes w user path version checksum size := by
  simpa only [ReadsAs, keys, files] using reads

/-- What is read without a key is not sealed. -/
theorem read_of_none {file : Stored} (read : file.read none version = some bytes)
    (key : Option Key) : file.read key version = some bytes := by
  cases version <;> cases file <;> simp_all [Stored.read]

/-- A first key hides no file. -/
theorem readsAs_writeKey {v : Vault} {id : UUID} (none : (v.users id).mediaKey = none) (key : Key)
    (reads : ReadsAs hashes v user path version checksum size) :
    ReadsAs hashes (v.writeKey id key) user path version checksum size := by
  obtain ⟨file, here, bytes, read, rest⟩ := reads
  refine ⟨file, here, bytes, ?_, rest⟩
  by_cases same : user = id
  · subst same
    rw [none] at read
    exact read_of_none read _
  · rw [writeKey_other v key same]
    exact read

theorem readsAs_place {v : Vault} {path other : String} (file : Option Stored)
    (reads : ReadsAs hashes v user path version checksum size) (different : path ≠ other) :
    ReadsAs hashes (v.place other file) user path version checksum size := by
  obtain ⟨stored, here, rest⟩ := reads
  refine ⟨stored, ?_, rest⟩
  simpa only [Vault.place, Function.update_of_ne different] using here

theorem stageIs_discard {v : Vault} {job : Job} (stage : UUID) (is : StageIs v job) :
    StageIs (v.discard stage) job := by
  intro bytes here
  by_cases same : job.request.stage = stage
  · simp only [Vault.discard, same, Function.update_self] at here
    contradiction
  · simp only [Vault.discard, Function.update_of_ne same] at here
    exact is bytes here

theorem publishes_discard {v : Vault} (stage : UUID) (phase : Phase)
    (publishes : Publishes hashes v phase) : Publishes hashes (v.discard stage) phase := by
  cases phase with
  | entered | locked | keyed | contentLocked | deduplicated | publishing =>
    exact stageIs_discard stage publishes
  | copying | placed | consumed => exact ⟨stageIs_discard stage publishes.1, publishes.2⟩
  | returned => exact publishes
  | idle | disabling => trivial

/-- Another session's final path is not touched under this session's path lock. -/
theorem publishes_place {v : Vault} (path : String) (file : Option Stored) (phase : Phase)
    (unlocked : ¬ Holding hashes phase (.path path)) (publishes : Publishes hashes v phase) :
    Publishes hashes (v.place path file) phase := by
  cases phase with
  | copying job key copied =>
    have different : job.finalPath hashes ≠ path := fun same => unlocked (.inr (same ▸ rfl))
    obtain ⟨stage, plain, here, unnamed⟩ := publishes
    refine ⟨stage, plain, ?_, unnamed⟩
    simpa only [Vault.place, Function.update_of_ne different] using here
  | placed job key | consumed job key =>
    have different : job.finalPath hashes ≠ path := fun same => unlocked (.inr (same ▸ rfl))
    exact ⟨publishes.1, readsAs_place file publishes.2 different⟩
  | entered | locked | keyed | contentLocked | deduplicated | publishing | returned =>
    exact publishes
  | idle | disabling => trivial

/-- Rows whose keys and files stay readable leave every session where it was. -/
theorem publishes_readable {v w : Vault} {phase : Phase} (publishes : Publishes hashes v phase)
    (files : w.files = v.files) (assets : w.assets = v.assets) (staged : w.staged = v.staged)
    (readable : ∀ job, InPlace hashes v job → InPlace hashes w job) :
    Publishes hashes w phase := by
  cases phase with
  | entered | locked | keyed | contentLocked | deduplicated | publishing =>
    simpa only [Publishes, StageIs, staged] using publishes
  | copying => simpa only [Publishes, StageIs, OwnCopy, staged, files, assets] using publishes
  | placed job | consumed job =>
    refine ⟨?_, readable job publishes.2⟩
    simpa only [StageIs, staged] using publishes.1
  | returned => simpa only [Publishes, assets] using publishes
  | idle | disabling => trivial

/-- A changed path that no asset names. -/
theorem allHold_place {v : Vault} (hold : AllHold hashes v) (path : String) (file : Option Stored)
    (unnamed : ∀ asset ∈ v.assets, asset.originalPath ≠ path) :
    AllHold hashes (v.place path file) := fun asset member =>
  readsAs_place file (hold asset member) (unnamed asset member)

/-- A vacant path is no asset's. -/
theorem unnamed_of_vacant {v : Vault} (hold : AllHold hashes v) (vacant : v.files path = none) :
    ∀ asset ∈ v.assets, asset.originalPath ≠ path := by
  rintro asset member rfl
  obtain ⟨file, here, _⟩ := hold asset member
  rw [vacant] at here
  contradiction

abbrev PublishOwes (hashes : Hashes) (v : Vault) (phase : Phase) :
    Outcome Vault Phase LockKey → Prop :=
  Owes (Holding hashes) (AllHold hashes) (Publishes hashes) v phase

theorem publishEncrypted_publishes {v : Vault} {job : Job} (hold : AllHold hashes v)
    (stage : StageIs v job) (encrypted : job.request.encrypted)
    (current : key = (v.user job).mediaKey) :
    PublishOwes hashes v (.publishing job key) (publishEncrypted hashes v job key) := by
  have version : job.encryptionVersion = 1 := if_pos encrypted
  unfold publishEncrypted
  split
  · exact Owes.rollback hold trivial (fun _ held => held)
  · rename_i key
    split
    · rename_i vacant
      refine ⟨?_, ⟨stage, ?_⟩, fun k held => held, ?_⟩
      · exact allHold_place hold _ _ (unnamed_of_vacant hold vacant)
      · refine ⟨.sealed key job.content, Function.update_self .., job.content, ?_, rfl, rfl⟩
        rw [version]
        exact if_pos current.symm
      · intro m unlocked publishes
        exact publishes_place _ _ m (unlocked _ (.inr rfl)) publishes
    · rename_i file found
      split
      · rename_i authentic
        refine Owes.quiet hold ⟨stage, file, found, ?_⟩ (fun k held => held)
        cases file with
        | plain bytes => contradiction
        | sealed other bytes =>
          simp only [authenticates, Bool.and_eq_true, beq_iff_eq] at authentic
          refine ⟨bytes, ?_, authentic.2, authentic.1.2⟩
          rw [version, authentic.1.1]
          exact if_pos current.symm
      · exact Owes.rollback hold trivial (fun _ held => held)

theorem publishPlain_publishes {v : Vault} {job : Job} (hold : AllHold hashes v)
    (stage : StageIs v job) (plain : ¬ job.request.encrypted)
    (own : ∀ file ∈ v.files (job.finalPath hashes), file = .plain job.content) :
    PublishOwes hashes v (.publishing job key) (publishPlain hashes v job key) := by
  have version : job.encryptionVersion = 0 := if_neg plain
  unfold publishPlain
  split
  · rename_i vacant
    have unnamed := unnamed_of_vacant hold vacant
    refine ⟨allHold_place hold _ _ unnamed, ⟨stage, plain, ?_, unnamed⟩, fun k held => held, ?_⟩
    · exact Function.update_self ..
    · intro m unlocked publishes
      exact publishes_place _ _ m (unlocked _ (.inr rfl)) publishes
  · rename_i file found
    refine Owes.quiet hold ⟨stage, file, found, job.content, ?_, rfl, rfl⟩ (fun k held => held)
    rw [own file found, version]
    rfl

theorem insert_publishes {v : Vault} {job : Job} {id : UUID} (hold : AllHold hashes v)
    (place : InPlace hashes v job)
    (inserted : insertRow Asset.id v.assets (newAsset hashes v job id logicalId) = .ok assets) :
    PublishOwes hashes v (.consumed job key) (.finish { v with assets } (.returned job id)) := by
  obtain ⟨rfl, _⟩ := insertRow_ok inserted
  refine ⟨?_, ⟨_, List.mem_append_right _ (List.mem_singleton.mpr rfl), rfl, rfl, rfl⟩,
    fun _ held => held, ?_⟩
  · intro asset member
    rcases List.mem_append.mp member with old | new
    · exact hold asset old
    · obtain rfl := List.mem_singleton.mp new
      exact place
  · intro m unlocked publishes
    cases m with
    | copying other key copied =>
      -- The other session owns another path than the new asset's.
      obtain ⟨stage, plain, here, unnamed⟩ := publishes
      refine ⟨stage, plain, here, ?_⟩
      intro asset member
      rcases List.mem_append.mp member with old | new
      · exact unnamed asset old
      · rw [List.mem_singleton.mp new]
        intro same
        have path : job.finalPath hashes = other.finalPath hashes := same
        exact unlocked _ (.inr rfl) (.inr (congrArg LockKey.path path))
    | entered | locked | keyed | contentLocked | deduplicated | publishing | placed | consumed =>
      exact publishes
    | returned other found =>
      obtain ⟨asset, member, answers⟩ := publishes
      exact ⟨asset, List.mem_append_left _ member, answers⟩
    | idle | disabling => trivial

/-- Deduplication finds an active asset for the upload. -/
theorem existing_member {v : Vault} {job : Job} (found : v.existing hashes job = some asset) :
    asset ∈ v.assets ∧ IsFor hashes job asset ∧ asset.lifecycleState = .active := by
  have matched := List.find?_some found
  simp only [decide_eq_true_eq] at matched
  exact ⟨List.mem_of_find?_eq_some found, ⟨matched.1, matched.2.1⟩, matched.2.2⟩

theorem program_publishes {v : Vault} {phase : Phase} (hold : AllHold hashes v)
    (publishes : Publishes hashes v phase) (knows : Knows hashes v phase)
    (own : ∀ job key, phase = .publishing job key → action = .publish →
      ¬ job.request.encrypted →
        ∀ file ∈ v.files (job.finalPath hashes), file = .plain job.content)
    (chosen : program hashes v phase action = some outcome) :
    PublishOwes hashes v phase outcome := by
  have others : ∀ stage m, (∀ k, Holding hashes phase k → ¬ Holding hashes m k) →
      Publishes hashes v m → Publishes hashes (v.discard stage) m :=
    fun stage m _ publishes => publishes_discard stage m publishes
  cases action with
  | begin request loaded =>
    simp only [program] at chosen
    split at chosen
    · rename_i content staged
      cases chosen
      refine Owes.quiet hold ?_ (fun _ held => held)
      intro bytes here
      exact Option.some.inj (here.symm.trans staged)
    · contradiction
  | lockUser =>
    simp only [program] at chosen
    split at chosen
    all_goals try contradiction
    all_goals
      cases chosen
      unfold lockUser
      split
      · exact ⟨hold, trivial, fun _ held => held, others _⟩
      · exact ⟨publishes, fun k held => .inl held⟩
  | initializeKey key =>
    simp only [program] at chosen
    split at chosen
    · rename_i job
      split at chosen
      · cases chosen
        have none : (v.users job.request.userId).mediaKey = none := knows.symm
        have readable : ∀ other, InPlace hashes v other →
            InPlace hashes (v.writeKey job.request.userId key) other :=
          fun _ => readsAs_writeKey none key
        refine ⟨fun asset member => readsAs_writeKey none key (hold asset member), publishes,
          fun _ held => held, ?_⟩
        intro m _ publishes
        exact publishes_readable publishes rfl rfl rfl readable
      · contradiction
    · contradiction
  | lockContent =>
    simp only [program] at chosen
    split at chosen
    · split_ifs at chosen
      · cases chosen
        exact Owes.quiet hold publishes (fun _ held => held)
      · cases chosen
        exact ⟨publishes, fun _ held => .inr held⟩
    · contradiction
  | findExisting =>
    simp only [program] at chosen
    split at chosen
    · split at chosen
      · rename_i asset found
        cases chosen
        obtain ⟨member, answers, _⟩ := existing_member found
        exact ⟨hold, ⟨asset, member, rfl, answers⟩, fun _ held => held, others _⟩
      · cases chosen
        exact Owes.quiet hold publishes (fun _ held => held)
    · contradiction
  | lockPath =>
    simp only [program] at chosen
    split at chosen
    · cases chosen
      refine ⟨publishes, ?_⟩
      rintro k (rfl | rfl)
      · exact .inr rfl
      · exact .inl rfl
    · contradiction
  | publish =>
    simp only [program] at chosen
    split at chosen
    · rename_i job key
      split at chosen
      · cases chosen
        exact Owes.rollback hold trivial (fun _ held => held)
      · split at chosen
        · rename_i encrypted
          cases chosen
          exact publishEncrypted_publishes hold publishes encrypted knows
        · rename_i plain
          cases chosen
          exact publishPlain_publishes hold publishes plain (own job key rfl rfl plain)
    · contradiction
  | copy count =>
    simp only [program] at chosen
    split at chosen
    · rename_i job key copied
      cases chosen
      obtain ⟨stage, plain, here, unnamed⟩ := publishes
      refine ⟨allHold_place hold _ _ unnamed, ⟨stage, plain, ?_, unnamed⟩, fun _ held => held, ?_⟩
      · exact Function.update_self ..
      · intro m unlocked publishes
        exact publishes_place _ _ m (unlocked _ (.inr rfl)) publishes
    · contradiction
  | sync =>
    simp only [program] at chosen
    split at chosen
    · rename_i job key copied
      split at chosen
      · rename_i complete
        cases chosen
        obtain ⟨stage, plain, here, unnamed⟩ := publishes
        have version : job.encryptionVersion = 0 := if_neg plain
        rw [List.take_of_length_le complete] at here
        refine Owes.quiet hold ⟨stage, _, here, job.content, ?_, rfl, rfl⟩ (fun _ held => held)
        rw [version]
        rfl
      · contradiction
    · contradiction
  | consume =>
    simp only [program] at chosen
    split at chosen
    · rename_i job key
      cases chosen
      exact ⟨hold, ⟨stageIs_discard _ publishes.1, publishes.2⟩, fun _ held => held, others _⟩
    · contradiction
  | insert id logicalId =>
    simp only [program] at chosen
    split at chosen
    · split at chosen
      · rename_i assets inserted
        cases chosen
        exact insert_publishes hold publishes.2 inserted
      · contradiction
    · contradiction
  | conflict =>
    simp only [program] at chosen
    split at chosen
    · split at chosen
      · cases chosen
        exact Owes.rollback hold trivial (fun _ held => held)
      · split at chosen
        · rename_i asset found
          cases chosen
          obtain ⟨member, answers, _⟩ := existing_member found
          exact Owes.rollback hold ⟨asset, member, rfl, answers⟩ (fun _ held => held)
        · cases chosen
          exact Owes.rollback hold trivial (fun _ held => held)
    · contradiction
  | fail =>
    simp only [program] at chosen
    split at chosen
    · contradiction
    · contradiction
    · rename_i job key copied
      cases chosen
      obtain ⟨stage, plain, here, unnamed⟩ := publishes
      refine ⟨allHold_place hold _ _ unnamed, trivial, fun _ held => held, ?_⟩
      intro m unlocked publishes
      exact publishes_place _ _ m (unlocked _ (.inr rfl)) publishes
    · cases chosen
      exact Owes.rollback hold trivial (fun _ held => held)
  | crash =>
    cases chosen
    exact Owes.rollback hold trivial (fun _ held => held)
  | lockForDisable userId =>
    simp only [program] at chosen
    split at chosen
    · cases chosen
      exact ⟨trivial, fun k held => .inl held⟩
    · contradiction
  | disable =>
    simp only [program] at chosen
    split at chosen
    · rename_i userId
      cases chosen
      have keys : ∀ id, ((v.setUser userId { v.users userId with disabled := true }).users
          id).mediaKey = (v.users id).mediaKey := mediaKey_disable v userId
      refine ⟨fun asset member => readsAs_same keys rfl (hold asset member), trivial,
        fun _ held => held, ?_⟩
      intro m _ publishes
      exact publishes_readable publishes rfl rfl rfl fun _ => readsAs_same keys rfl
    · contradiction

/-- The only reasons to give up staged bytes: a disabled owner, an active asset
with this checksum, and an upload that is in place. -/
theorem program_staged {v : Vault} {phase : Phase}
    (chosen : program hashes v phase action = some outcome) :
    (outcome.result v).staged = v.staged ∨
    ∃ job, outcome.result v = v.discard job.request.stage ∧
      ((action = .lockUser ∧ (v.user job).disabled ∧
          ((∃ cached, phase = .entered job cached) ∨ ∃ key, phase = .keyed job key)) ∨
        (∃ key asset, phase = .contentLocked job key ∧ v.existing hashes job = some asset) ∨
        ∃ key, phase = .placed job key) := by
  cases action with
  | lockUser =>
    simp only [program] at chosen
    split at chosen
    · rename_i job cached
      cases chosen
      unfold lockUser
      split
      · rename_i disabled
        exact .inr ⟨job, rfl, .inl ⟨rfl, disabled, .inl ⟨cached, rfl⟩⟩⟩
      · exact .inl rfl
    · rename_i job key
      cases chosen
      unfold lockUser
      split
      · rename_i disabled
        exact .inr ⟨job, rfl, .inl ⟨rfl, disabled, .inr ⟨key, rfl⟩⟩⟩
      · exact .inl rfl
    · contradiction
  | findExisting =>
    simp only [program] at chosen
    split at chosen
    · rename_i job key
      split at chosen
      · rename_i asset found
        cases chosen
        exact .inr ⟨job, rfl, .inr (.inl ⟨key, asset, rfl, found⟩)⟩
      · cases chosen
        exact .inl rfl
    · contradiction
  | consume =>
    simp only [program] at chosen
    split at chosen
    · rename_i job key
      cases chosen
      exact .inr ⟨job, rfl, .inr (.inr ⟨key, rfl⟩)⟩
    · contradiction
  | publish =>
    simp only [program] at chosen
    split at chosen
    · split at chosen
      · cases chosen
        exact .inl rfl
      · split at chosen
        · cases chosen
          unfold publishEncrypted
          repeat' split
          all_goals exact .inl rfl
        · cases chosen
          unfold publishPlain
          split <;> exact .inl rfl
    · contradiction
  | crash =>
    cases chosen
    exact .inl rfl
  | begin | initializeKey | lockContent | lockPath | copy | sync | insert | conflict | fail
  | lockForDisable | disable =>
    left
    simp only [program] at chosen
    repeat' split at chosen
    all_goals first | contradiction | (cases chosen; rfl)

/-- A row is committed by the insertion alone. -/
theorem program_commits {v : Vault} {phase : Phase}
    (chosen : program hashes v phase action = some outcome) :
    (outcome.result v).assets = v.assets ∨
    ∃ job key id logicalId, phase = .consumed job key ∧
      (outcome.result v).assets = v.assets ++ [newAsset hashes v job id logicalId] := by
  cases action with
  | insert id logicalId =>
    simp only [program] at chosen
    split at chosen
    · rename_i job key
      split at chosen
      · rename_i assets inserted
        cases chosen
        exact .inr ⟨job, key, id, logicalId, rfl, (insertRow_ok inserted).1⟩
      · contradiction
    · contradiction
  | lockUser =>
    simp only [program] at chosen
    split at chosen
    all_goals try contradiction
    all_goals
      cases chosen
      unfold lockUser
      split <;> exact .inl rfl
  | publish =>
    simp only [program] at chosen
    split at chosen
    · split at chosen
      · cases chosen
        exact .inl rfl
      · split at chosen
        · cases chosen
          unfold publishEncrypted
          repeat' split
          all_goals exact .inl rfl
        · cases chosen
          unfold publishPlain
          split <;> exact .inl rfl
    · contradiction
  | crash =>
    cases chosen
    exact .inl rfl
  | begin | initializeKey | lockContent | findExisting | lockPath | copy | sync | consume
  | conflict | fail | lockForDisable | disable =>
    left
    simp only [program] at chosen
    repeat' split at chosen
    all_goals first | contradiction | (cases chosen; rfl)

/-- A session keeps its upload; a call begins with what is staged. -/
theorem program_job {v : Vault} {phase : Phase} {job : Job}
    (chosen : program hashes v phase action = some outcome)
    (arrived : outcome.arrival.job? = some job) : phase.job? = some job ∨
      v.staged job.request.stage = some job.content ∧ ∃ loaded, action = .begin job.request loaded := by
  cases action with
  | begin request loaded =>
    simp only [program] at chosen
    split at chosen
    · rename_i content staged
      cases chosen
      cases arrived
      exact .inr ⟨staged, loaded, rfl⟩
    · contradiction
  | lockUser =>
    simp only [program] at chosen
    split at chosen
    all_goals try contradiction
    all_goals
      cases chosen
      unfold lockUser at arrived
      split at arrived
      · contradiction
      · exact .inl arrived
  | publish =>
    simp only [program] at chosen
    split at chosen
    · split at chosen
      · cases chosen
        contradiction
      · split at chosen
        · cases chosen
          unfold publishEncrypted at arrived
          repeat' split at arrived
          all_goals first | contradiction | exact .inl arrived
        · cases chosen
          unfold publishPlain at arrived
          split at arrived <;> exact .inl arrived
    · contradiction
  | crash =>
    cases chosen
    contradiction
  | initializeKey | lockContent | findExisting | lockPath | copy | sync | consume | insert
  | conflict | fail | lockForDisable | disable =>
    left
    simp only [program] at chosen
    repeat' split at chosen
    all_goals first | contradiction | (cases chosen; first | contradiction | exact arrived)

variable {τ : Type} [DecidableEq τ]

/-- No key is replaced and every committed file can be read. -/
structure Publishing (hashes : Hashes) (s : Ingestions τ) : Prop where
  keys : Sound (Holding hashes) KeyInv (Knows hashes) s
  files : Sound (Holding hashes) (AllHold hashes) (Publishes hashes) s

theorem step_publishing (s : Ingestions τ) (label : τ × Action) (s' : Ingestions τ)
    (sound : Publishing hashes s) (orderly : Orderly hashes s label)
    (stepped : step hashes s label = some s') : Publishing hashes s' := by
  refine ⟨step_keyed s label s' sound.keys orderly.1 stepped, sound.files.step stepped ?_⟩
  intro outcome chosen
  refine program_publishes sound.files.global (sound.files.session label.1)
    (sound.keys.session label.1) ?_ chosen
  intro job key publishing publish
  simpa only [AdoptsOwn, publishing, publish] using orderly.2

/-- Staged bytes go away for an active owner, and only when they are backed. -/
theorem step_staged {s s' : Ingestions τ} {label : τ × Action} (sound : Publishing hashes s)
    (adopts : AdoptsOwn hashes s label) (stepped : step hashes s label = some s')
    (here : s.shared.staged stage = some bytes) (gone : s'.shared.staged stage = none) :
    ∃ job, (s.locals label.1).job? = some job ∧ job.request.stage = stage ∧
      job.content = bytes ∧ Backed hashes s'.shared job := by
  obtain ⟨outcome, chosen, acted⟩ := Option.bind_eq_some_iff.mp stepped
  rw [Store.act_shared acted] at gone ⊢
  have knows := sound.files.session label.1
  rcases program_staged chosen with same | ⟨job, result, reason⟩
  · rw [same] at gone
    exact absurd (here.symm.trans gone) (by simp)
  · rw [result] at gone ⊢
    have mine : stage = job.request.stage := by
      by_contra other
      simp only [Vault.discard, Function.update_of_ne other] at gone
      exact absurd (here.symm.trans gone) (by simp)
    subst mine
    rcases reason with ⟨lock, disabled, ⟨cached, entered⟩ | ⟨key, keyed⟩⟩ |
      ⟨key, asset, locked, found⟩ | ⟨key, placed⟩
    · simp only [AdoptsOwn, entered, lock] at adopts
      exact absurd disabled (by simp [adopts])
    · simp only [AdoptsOwn, keyed, lock] at adopts
      exact absurd disabled (by simp [adopts])
    · rw [locked] at knows ⊢
      obtain ⟨member, answers, active⟩ := existing_member found
      exact ⟨job, rfl, rfl, (knows bytes here).symm,
        .inr ⟨asset, member, answers, active, sound.files.global asset member⟩⟩
    · rw [placed] at knows ⊢
      exact ⟨job, rfl, rfl, (knows.1 bytes here).symm, .inl knows.2⟩

theorem step_keeps_upload (s : Ingestions τ) (label : τ × Action) (s' : Ingestions τ)
    (sound : Publishing hashes s) (adopts : AdoptsOwn hashes s label)
    (stepped : step hashes s label = some s') : KeepsUpload hashes s label s' := by
  obtain ⟨outcome, chosen, acted⟩ := Option.bind_eq_some_iff.mp stepped
  refine ⟨?_, ?_, fun stage bytes => step_staged sound adopts stepped⟩
  · intro job arrived
    rw [Store.act_locals acted, Function.update_self] at arrived
    exact program_job chosen arrived
  · intro asset member
    rw [Store.act_shared acted] at member
    rcases program_commits chosen with same | ⟨job, key, id, logicalId, consumed, inserted⟩
    · exact .inl (same ▸ member)
    · rw [inserted] at member
      rcases List.mem_append.mp member with old | new
      · exact .inl old
      · rw [List.mem_singleton.mp new, consumed]
        exact .inr ⟨job, rfl, ⟨rfl, rfl⟩, rfl⟩

/-- In every sequence and interleaving of uploads, failures, crashes and retries
in which no key is replaced and a plain upload finds no foreign file at its final
path, every committed asset's file holds its content, every call returns an asset
for the bytes it began with, and staged bytes are removed only where a file of
their account holds them. -/
theorem ingestion_keeps_content {v : Vault} (keys : KeyInv v) (hold : AllHold hashes v)
    {labels : List (τ × Action)} (orderly : Along (step hashes) (Orderly hashes) (start v) labels)
    (reached : run (step hashes) (start v) labels = some t) :
    (∀ asset ∈ t.shared.assets, Holds hashes t.shared asset) ∧
    (∀ u job id, t.locals u = .returned job id →
      ∃ asset ∈ t.shared.assets, asset.id = id ∧ IsFor hashes job asset ∧
        Holds hashes t.shared asset) ∧
    Along (step hashes) (fun s label => ∀ s', step hashes s label = some s' →
      KeepsUpload hashes s label s') (start v) labels := by
  have initial : Publishing hashes (start v : Ingestions τ) :=
    ⟨Sound.idle keys trivial (fun _ held => held), Sound.idle hold trivial (fun _ held => held)⟩
  have sound := (invariant step_publishing initial orderly reached).files
  refine ⟨sound.global, ?_, along_of_invariant step_publishing ?_ initial orderly⟩
  · intro u job id returned
    have known := sound.session u
    rw [returned] at known
    obtain ⟨asset, member, same, answers⟩ := known
    exact ⟨asset, member, same, answers, sound.global asset member⟩
  · intro s label sound orderly s' stepped
    exact step_keeps_upload s label s' sound orderly.2 stepped

/-- Two stages hold the same upload: the second is its retry. -/
def retriedUpload : Vault :=
  { newAccounts with
    staged := fun stage => if stage = 1 ∨ stage = 2 then some [1, 2, 3] else none }

/-- The first attempt crashes before it publishes; the retry copies in two pieces. -/
theorem ingestion_keeps_content_retried :
    ∃ t, run (step shownHashes) (start retriedUpload)
        [(0, .begin (uploadFrom 1 false) true), (0, .lockUser), (0, .lockContent), (0, .crash),
          (1, .begin (uploadFrom 2 false) true), (1, .lockUser), (1, .lockContent),
          (1, .findExisting), (1, .lockPath), (1, .publish), (1, .copy 2), (1, .copy 1),
          (1, .sync), (1, .consume), (1, .insert 100 100)] = some t ∧
      t.shared.assets.length = 1 ∧
      ∀ asset ∈ t.shared.assets, Holds shownHashes t.shared asset := by
  have finishes : (run (step shownHashes) (start retriedUpload)
      [(0, .begin (uploadFrom 1 false) true), (0, .lockUser), (0, .lockContent), (0, .crash),
        (1, .begin (uploadFrom 2 false) true), (1, .lockUser), (1, .lockContent),
        (1, .findExisting), (1, .lockPath), (1, .publish), (1, .copy 2), (1, .copy 1),
        (1, .sync), (1, .consume), (1, .insert 100 100)]).any
      fun t => t.shared.assets.length = 1 := by decide
  obtain ⟨t, reached, one⟩ := (Option.any_eq_true _ _).mp finishes
  have keys : KeyInv retriedUpload := keyInv_same newAccounts_keyInv (fun _ => rfl) rfl rfl rfl rfl
  have hold : AllHold shownHashes retriedUpload := by
    intro asset member
    exact absurd member List.not_mem_nil
  exact ⟨t, reached, of_decide_eq_true one,
    (ingestion_keeps_content keys hold (by decide) reached).1⟩

/-- A crash in the middle of the copy leaves one byte at the final path. The
retry adopts that file, commits an asset for it and removes its staged bytes. -/
theorem retry_adopts_partial_original :
    ∃ t, run (step shownHashes) (start retriedUpload)
        ([(0, .begin (uploadFrom 1 false) true), (0, .lockUser), (0, .lockContent),
          (0, .findExisting), (0, .lockPath), (0, .publish), (0, .copy 1), (0, .crash),
          (1, .begin (uploadFrom 2 false) true)] ++ storeSteps 1 100) = some t ∧
      (∃ asset ∈ t.shared.assets, ¬ Holds shownHashes t.shared asset) ∧
      t.shared.staged 2 = none := by
  have violated : (run (step shownHashes) (start retriedUpload)
      ([(0, .begin (uploadFrom 1 false) true), (0, .lockUser), (0, .lockContent),
        (0, .findExisting), (0, .lockPath), (0, .publish), (0, .copy 1), (0, .crash),
        (1, .begin (uploadFrom 2 false) true)] ++ storeSteps 1 100)).any fun t =>
      (∃ asset ∈ t.shared.assets, ¬ Holds shownHashes t.shared asset) ∧
        t.shared.staged 2 = none := by decide
  obtain ⟨t, reached, violated⟩ := (Option.any_eq_true _ _).mp violated
  exact ⟨t, reached, of_decide_eq_true violated⟩

end Drivebound.Storage
