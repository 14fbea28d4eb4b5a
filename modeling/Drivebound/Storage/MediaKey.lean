import Drivebound.Storage.Ingestion

/-! One media key for an account. A key is written by a session that owns the
account row and sees no key; it sees the attribute of the instance its endpoint
loaded, which the locking `SELECT` does not refresh. Where that attribute is
current when the lock is granted, the key is written once and everything that is
sealed for the account opens under the stored key. -/
namespace Drivebound.Storage
open Sessions Run

/-- The asset's file opens under the key its account has stored. -/
def Opens (v : Vault) (asset : Asset) : Prop :=
  ∃ key bytes, v.files asset.originalPath = some (.sealed key bytes) ∧
    (v.users asset.userId).mediaKey = some key

instance (v : Vault) (asset : Asset) : Decidable (Opens v asset) :=
  match file : v.files asset.originalPath with
  | some (.sealed key bytes) =>
    decidable_of_iff ((v.users asset.userId).mediaKey = some key) <| by
      simp [Opens, file]
  | some (.plain _) => isFalse (by simp [Opens, file])
  | none => isFalse (by simp [Opens, file])

structure KeyInv (v : Vault) : Prop where
  /-- An account without a key was never given one. -/
  unwritten : ∀ id, (v.users id).mediaKey = none → ∀ write ∈ v.keyWrites, write.1 ≠ id
  once : ∀ id, (v.keyWrites.filter fun write => write.1 = id).length ≤ 1
  published : ∀ id key, (id, key) ∈ v.published → (v.users id).mediaKey = some key
  opens : ∀ asset ∈ v.assets, asset.encryptionVersion = 1 → Opens v asset

/-- The ciphertext at the job's final path is sealed with the account's key. -/
def SealedFor (hashes : Hashes) (v : Vault) (job : Job) : Prop :=
  ∃ key bytes, v.files (job.finalPath hashes) = some (.sealed key bytes) ∧
    (v.user job).mediaKey = some key

/-- What a session knows about the key, given the committed rows. -/
def Knows (hashes : Hashes) (v : Vault) : Phase → Prop
  | .entered job cached => ∀ key, cached = some (some key) → (v.user job).mediaKey = some key
  | .locked job key | .contentLocked job key | .deduplicated job key | .publishing job key =>
    key = (v.user job).mediaKey
  | .keyed job key => (v.user job).mediaKey = some key
  | .copying job key _ => ¬ job.request.encrypted ∧ key = (v.user job).mediaKey ∧
    ∃ bytes, v.files (job.finalPath hashes) = some (.plain bytes)
  | .placed job _ | .consumed job _ => job.request.encrypted → SealedFor hashes v job
  | .idle | .returned .. | .disabling _ => True

/-- An instance that shows no key when its row is locked shows the committed row. -/
def KeyCurrent (s : Ingestions τ) (label : τ × Action) : Prop :=
  match s.locals label.1, label.2 with
  | .entered job cached, .lockUser => cached = some none → (s.shared.user job).mediaKey = none
  | _, _ => True

instance (s : Ingestions τ) : DecidablePred (KeyCurrent s) := fun label => by
  unfold KeyCurrent
  split <;> infer_instance

variable {hashes : Hashes}

/-- Only the account's key, the files and the account rows matter. -/
theorem knows_same {v w : Vault} (keys : ∀ id, (w.users id).mediaKey = (v.users id).mediaKey)
    (files : w.files = v.files) (phase : Phase) (knows : Knows hashes v phase) :
    Knows hashes w phase := by
  have key : ∀ job, (w.user job).mediaKey = (v.user job).mediaKey := fun job => keys _
  cases phase with
  | entered | locked | contentLocked | deduplicated | publishing | keyed =>
    simpa only [Knows, key] using knows
  | copying => simpa only [Knows, key, files] using knows
  | placed | consumed => simpa only [Knows, SealedFor, key, files] using knows
  | idle | returned | disabling => trivial

theorem keyInv_same {v w : Vault} (inv : KeyInv v)
    (keys : ∀ id, (w.users id).mediaKey = (v.users id).mediaKey)
    (files : w.files = v.files) (assets : w.assets = v.assets) (writes : w.keyWrites = v.keyWrites)
    (published : w.published = v.published) : KeyInv w := by
  refine ⟨?_, ?_, ?_, ?_⟩
  · simpa only [keys, writes] using inv.unwritten
  · simpa only [writes] using inv.once
  · simpa only [keys, published] using inv.published
  · simpa only [Opens, keys, files, assets] using inv.opens

theorem writeKey_own (v : Vault) (id : UUID) (key : Key) :
    ((v.writeKey id key).users id).mediaKey = some key := by
  simp only [Vault.writeKey, Vault.setUser, Function.update_self]

theorem writeKey_other (v : Vault) {id user : UUID} (key : Key) (different : user ≠ id) :
    (v.writeKey id key).users user = v.users user := by
  simp only [Vault.writeKey, Vault.setUser, Function.update_of_ne different]

theorem mediaKey_disable (v : Vault) (userId id : UUID) :
    ((v.setUser userId { v.users userId with disabled := true }).users id).mediaKey =
      (v.users id).mediaKey := by
  by_cases same : id = userId
  · subst same
    simp only [Vault.setUser, Function.update_self]
  · simp only [Vault.setUser, Function.update_of_ne same]

/-- Writing a first key takes no key away. -/
theorem writeKey_kept {v : Vault} {id user : UUID} (none : (v.users id).mediaKey = none)
    (key : Key) (has : (v.users user).mediaKey = some stored) :
    ((v.writeKey id key).users user).mediaKey = some stored := by
  rw [writeKey_other v key, has]
  rintro rfl
  rw [none] at has
  contradiction

theorem writeKey_inv {v : Vault} {id : UUID} (inv : KeyInv v)
    (none : (v.users id).mediaKey = none) (key : Key) : KeyInv (v.writeKey id key) := by
  refine ⟨?_, ?_, ?_, ?_⟩
  · intro user missing write member
    have different : user ≠ id := by
      rintro rfl
      rw [writeKey_own] at missing
      contradiction
    rw [writeKey_other v key different] at missing
    rcases List.mem_append.mp member with old | new
    · exact inv.unwritten user missing write old
    · rw [List.mem_singleton.mp new]
      exact different.symm
  · intro user
    simp only [Vault.writeKey, List.filter_append, List.length_append]
    by_cases same : id = user
    · subst same
      have first : v.keyWrites.filter (fun write => write.1 = id) = [] := by
        rw [List.filter_eq_nil_iff]
        intro write member
        simpa using inv.unwritten id none write member
      simp [first]
    · simpa [same] using inv.once user
  · intro user stored member
    exact writeKey_kept none key (inv.published user stored member)
  · intro asset member encrypted
    obtain ⟨stored, bytes, file, has⟩ := inv.opens asset member encrypted
    exact ⟨stored, bytes, file, writeKey_kept none key has⟩

theorem knows_writeKey {v : Vault} {id : UUID} (none : (v.users id).mediaKey = none) (key : Key)
    (phase : Phase) (unlocked : ¬ Holding hashes phase (.user id))
    (knows : Knows hashes v phase) : Knows hashes (v.writeKey id key) phase := by
  cases phase with
  | entered job cached => exact fun stored same => writeKey_kept none key (knows stored same)
  | keyed job stored => exact writeKey_kept none key knows
  | locked job held | contentLocked job held | deduplicated job held =>
    have different : job.request.userId ≠ id := fun same => unlocked (same ▸ rfl)
    simpa only [Knows, Vault.user, writeKey_other v key different] using knows
  | publishing job held =>
    have different : job.request.userId ≠ id := fun same => unlocked (.inl (same ▸ rfl))
    simpa only [Knows, Vault.user, writeKey_other v key different] using knows
  | copying job held copied =>
    have different : job.request.userId ≠ id := fun same => unlocked (.inl (same ▸ rfl))
    refine ⟨knows.1, ?_, knows.2.2⟩
    simpa only [Vault.user, writeKey_other v key different] using knows.2.1
  | placed job held | consumed job held =>
    intro encrypted
    obtain ⟨stored, bytes, file, has⟩ := knows encrypted
    exact ⟨stored, bytes, file, writeKey_kept none key has⟩
  | idle | returned | disabling => trivial

/-- Another session's final path is not touched under this session's path lock. -/
theorem knows_place {v : Vault} (path : String) (file : Option Stored) (phase : Phase)
    (unlocked : ¬ Holding hashes phase (.path path)) (knows : Knows hashes v phase) :
    Knows hashes (v.place path file) phase := by
  cases phase with
  | copying job key copied =>
    have different : job.finalPath hashes ≠ path := fun same => unlocked (.inr (same ▸ rfl))
    simpa only [Knows, Vault.place, Vault.user, Function.update_of_ne different] using knows
  | placed job key | consumed job key =>
    have different : job.finalPath hashes ≠ path := fun same => unlocked (.inr (same ▸ rfl))
    simpa only [Knows, SealedFor, Vault.place, Vault.user, Function.update_of_ne different]
      using knows
  | entered | locked | keyed | contentLocked | deduplicated | publishing => exact knows
  | idle | returned | disabling => trivial

/-- A changed path that no sealed asset uses. -/
theorem place_inv {v : Vault} (inv : KeyInv v) (path : String) (file : Option Stored)
    (unused : ∀ asset ∈ v.assets, asset.encryptionVersion = 1 → asset.originalPath ≠ path) :
    KeyInv (v.place path file) := by
  refine ⟨inv.unwritten, inv.once, inv.published, ?_⟩
  intro asset member encrypted
  obtain ⟨key, bytes, here, has⟩ := inv.opens asset member encrypted
  refine ⟨key, bytes, ?_, has⟩
  simpa only [Vault.place, Function.update_of_ne (unused asset member encrypted)] using here

/-- A path without a sealed file is no sealed asset's. -/
theorem unused_of_unsealed {v : Vault} (inv : KeyInv v)
    (unsealed : ∀ key bytes, v.files path ≠ some (.sealed key bytes)) :
    ∀ asset ∈ v.assets, asset.encryptionVersion = 1 → asset.originalPath ≠ path := by
  rintro asset member encrypted rfl
  obtain ⟨key, bytes, here, _⟩ := inv.opens asset member encrypted
  exact unsealed key bytes here

/-- What a step owes the invariant. -/
abbrev KeyOwes (hashes : Hashes) (v : Vault) (phase : Phase) :
    Outcome Vault Phase LockKey → Prop :=
  Owes (Holding hashes) KeyInv (Knows hashes) v phase

theorem discard_owes {v : Vault} (inv : KeyInv v) (phase : Phase) (stage : UUID)
    (knows : Knows hashes (v.discard stage) next) (idle : ∀ k, ¬ Holding hashes next k) :
    KeyOwes hashes v phase (.finish (v.discard stage) next) :=
  ⟨keyInv_same inv (fun _ => rfl) rfl rfl rfl rfl, knows, idle,
    fun m _ knows => knows_same (fun _ => rfl) rfl m knows⟩

theorem lockUser_owes {v : Vault} {job : Job} (inv : KeyInv v)
    (current : key = (v.user job).mediaKey) (phase : Phase) :
    KeyOwes hashes v phase (lockUser v job key) := by
  unfold lockUser
  split
  · exact discard_owes inv phase _ trivial (fun _ held => held)
  · exact ⟨current, fun k held => .inl held⟩

theorem publishEncrypted_owes {v : Vault} {job : Job} (inv : KeyInv v)
    (current : key = (v.user job).mediaKey) :
    KeyOwes hashes v (.publishing job key) (publishEncrypted hashes v job key) := by
  unfold publishEncrypted
  split
  · exact Owes.rollback inv trivial (fun _ held => held)
  · rename_i key
    split
    · rename_i vacant
      have placed := place_inv inv (job.finalPath hashes) (some (.sealed key job.content))
        (unused_of_unsealed inv (by simp [vacant]))
      refine ⟨⟨placed.unwritten, placed.once, ?_, placed.opens⟩, ?_, fun k held => held, ?_⟩
      · intro id stored member
        rcases List.mem_append.mp member with old | new
        · exact inv.published id stored old
        · cases List.mem_singleton.mp new
          exact current.symm
      · intro _
        exact ⟨key, job.content, Function.update_self .., current.symm⟩
      · intro m unlocked knows
        exact knows_place _ _ m (unlocked _ (.inr rfl)) knows
    · rename_i file found
      split
      · rename_i authentic
        refine Owes.quiet inv ?_ (fun k held => held)
        intro _
        cases file with
        | plain bytes => contradiction
        | sealed other bytes =>
          simp only [authenticates, Bool.and_eq_true, beq_iff_eq] at authentic
          exact ⟨other, bytes, found, authentic.1.1 ▸ current.symm⟩
      · exact Owes.rollback inv trivial (fun _ held => held)

theorem publishPlain_owes {v : Vault} {job : Job} (inv : KeyInv v)
    (plain : ¬ job.request.encrypted) (current : key = (v.user job).mediaKey) :
    KeyOwes hashes v (.publishing job key) (publishPlain hashes v job key) := by
  unfold publishPlain
  split
  · rename_i vacant
    refine ⟨place_inv inv _ _ (unused_of_unsealed inv (by simp [vacant])), ?_,
      fun k held => held, ?_⟩
    · exact ⟨plain, current, [], Function.update_self ..⟩
    · intro m unlocked knows
      exact knows_place _ _ m (unlocked _ (.inr rfl)) knows
  · exact Owes.quiet inv (fun encrypted => absurd encrypted plain) (fun k held => held)

/-- A session that copies may change its own final path. -/
theorem copying_owes {v : Vault} {job : Job} (inv : KeyInv v)
    (knows : Knows hashes v (.copying job key copied)) (file : Option Stored) :
    KeyInv (v.place (job.finalPath hashes) file) ∧
      ∀ m, (∀ k, Holding hashes (.copying job key copied) k → ¬ Holding hashes m k) →
        Knows hashes v m → Knows hashes (v.place (job.finalPath hashes) file) m := by
  obtain ⟨_, _, bytes, here⟩ := knows
  refine ⟨place_inv inv _ _ (unused_of_unsealed inv (by simp [here])), ?_⟩
  intro m unlocked knows
  exact knows_place _ _ m (unlocked _ (.inr rfl)) knows

theorem insert_owes {v : Vault} {job : Job} {id : UUID} (inv : KeyInv v)
    (knows : Knows hashes v (.consumed job key))
    (inserted : insertRow Asset.id v.assets (newAsset hashes v job id logicalId) = .ok assets) :
    KeyOwes hashes v (.consumed job key) (.finish { v with assets } (.returned job id)) := by
  obtain ⟨rfl, _⟩ := insertRow_ok inserted
  refine ⟨⟨inv.unwritten, inv.once, inv.published, ?_⟩, trivial, fun _ held => held, ?_⟩
  · intro asset member version
    rcases List.mem_append.mp member with old | new
    · exact inv.opens asset old version
    · obtain rfl := List.mem_singleton.mp new
      have encrypted : job.request.encrypted := by
        by_contra plain
        simp [newAsset, Job.encryptionVersion, plain] at version
      exact knows encrypted
  · intro m _ knows
    exact knows_same (fun _ => rfl) rfl m knows

theorem program_owes {v : Vault} {phase : Phase} (inv : KeyInv v)
    (knows : Knows hashes v phase)
    (current : ∀ job cached, phase = .entered job cached → action = .lockUser →
      cached = some none → (v.user job).mediaKey = none)
    (chosen : program hashes v phase action = some outcome) :
    KeyOwes hashes v phase outcome := by
  cases action with
  | begin request loaded =>
    simp only [program] at chosen
    split at chosen
    · rename_i content staged
      cases chosen
      refine Owes.quiet inv ?_ (fun _ held => held)
      intro key same
      split at same
      · exact Option.some.inj same
      · contradiction
    · contradiction
  | lockUser =>
    simp only [program] at chosen
    split at chosen
    · rename_i job cached
      cases chosen
      refine lockUser_owes inv ?_ _
      have known := current job cached rfl rfl
      cases cached with
      | none => rfl
      | some cached =>
        cases cached with
        | none => exact (known rfl).symm
        | some key => exact (knows key rfl).symm
    · rename_i job key
      cases chosen
      exact lockUser_owes inv knows.symm _
    · contradiction
  | initializeKey key =>
    simp only [program] at chosen
    split at chosen
    · rename_i job
      split at chosen
      · cases chosen
        have none : (v.users job.request.userId).mediaKey = none := knows.symm
        refine ⟨writeKey_inv inv none key, writeKey_own .., fun _ held => held, ?_⟩
        intro m unlocked knows
        exact knows_writeKey none key m (unlocked _ rfl) knows
      · contradiction
    · contradiction
  | lockContent =>
    simp only [program] at chosen
    split at chosen
    · rename_i job key
      split_ifs at chosen
      · cases chosen
        exact Owes.quiet inv knows (fun _ held => held)
      · cases chosen
        exact ⟨knows, fun _ held => .inr held⟩
    · contradiction
  | findExisting =>
    simp only [program] at chosen
    split at chosen
    · rename_i job key
      split at chosen
      · cases chosen
        exact discard_owes inv _ _ trivial (fun _ held => held)
      · cases chosen
        exact Owes.quiet inv knows (fun _ held => held)
    · contradiction
  | lockPath =>
    simp only [program] at chosen
    split at chosen
    · rename_i job key
      cases chosen
      refine ⟨knows, ?_⟩
      rintro k (rfl | rfl)
      · exact .inr rfl
      · exact .inl rfl
    · contradiction
  | publish =>
    simp only [program] at chosen
    split at chosen
    · rename_i job key
      split at chosen
      · cases chosen
        exact Owes.rollback inv trivial (fun _ held => held)
      · split at chosen
        · cases chosen
          exact publishEncrypted_owes inv knows
        · rename_i plain
          cases chosen
          exact publishPlain_owes inv plain knows
    · contradiction
  | copy count =>
    simp only [program] at chosen
    split at chosen
    · rename_i job key copied
      cases chosen
      have owes := copying_owes inv knows
        (some (.plain (job.content.take (copied + count))))
      exact ⟨owes.1, ⟨knows.1, knows.2.1, _, Function.update_self ..⟩, fun _ held => held, owes.2⟩
    · contradiction
  | sync =>
    simp only [program] at chosen
    split at chosen
    · rename_i job key copied
      split at chosen
      · cases chosen
        exact Owes.quiet inv (fun encrypted => absurd encrypted knows.1) (fun _ held => held)
      · contradiction
    · contradiction
  | consume =>
    simp only [program] at chosen
    split at chosen
    · rename_i job key
      cases chosen
      exact ⟨keyInv_same inv (fun _ => rfl) rfl rfl rfl rfl, knows, fun _ held => held,
        fun m _ knows => knows_same (fun _ => rfl) rfl m knows⟩
    · contradiction
  | insert id logicalId =>
    simp only [program] at chosen
    split at chosen
    · rename_i job key
      split at chosen
      · rename_i assets inserted
        cases chosen
        exact insert_owes inv knows inserted
      · contradiction
    · contradiction
  | conflict =>
    simp only [program] at chosen
    split at chosen
    · split at chosen
      · cases chosen
        exact Owes.rollback inv trivial (fun _ held => held)
      · split at chosen <;>
        · cases chosen
          exact Owes.rollback inv trivial (fun _ held => held)
    · contradiction
  | fail =>
    simp only [program] at chosen
    split at chosen
    · contradiction
    · contradiction
    · rename_i job key copied
      cases chosen
      have owes := copying_owes inv knows none
      exact ⟨owes.1, trivial, fun _ held => held, owes.2⟩
    · cases chosen
      exact Owes.rollback inv trivial (fun _ held => held)
  | crash =>
    cases chosen
    exact Owes.rollback inv trivial (fun _ held => held)
  | lockForDisable userId =>
    simp only [program] at chosen
    split at chosen
    · cases chosen
      exact ⟨trivial, fun k held => .inl held⟩
    · contradiction
  | disable =>
    simp only [program] at chosen
    split at chosen
    · rename_i userId
      cases chosen
      have keys := mediaKey_disable v userId
      exact ⟨keyInv_same inv keys rfl rfl rfl rfl, trivial, fun _ held => held,
        fun m _ knows => knows_same keys rfl m knows⟩
    · contradiction

variable {τ : Type} [DecidableEq τ]

/-- The committed vault before any call. -/
abbrev start (v : Vault) : Ingestions τ := Store.idle v .idle

theorem step_keyed (s : Ingestions τ) (label : τ × Action) (s' : Ingestions τ)
    (sound : Sound (Holding hashes) KeyInv (Knows hashes) s) (current : KeyCurrent s label)
    (stepped : step hashes s label = some s') :
    Sound (Holding hashes) KeyInv (Knows hashes) s' := by
  refine sound.step stepped ?_
  intro outcome chosen
  refine program_owes sound.global (sound.session label.1) ?_ chosen
  intro job cached entered locks
  simpa only [KeyCurrent, entered, locks] using current

/-- In every interleaving in which no instance hides a committed key, an account
is given one key, its ciphertexts are sealed with the stored one and every
encrypted asset opens under it. -/
theorem account_keeps_one_media_key {v : Vault} (initial : KeyInv v)
    {labels : List (τ × Action)} (current : Along (step hashes) KeyCurrent (start v) labels)
    (reached : run (step hashes) (start v) labels = some t) :
    (∀ id, (t.shared.keyWrites.filter fun write => write.1 = id).length ≤ 1) ∧
    (∀ id key, (id, key) ∈ t.shared.published → (t.shared.users id).mediaKey = some key) ∧
    ∀ asset ∈ t.shared.assets, asset.encryptionVersion = 1 → Opens t.shared asset := by
  have sound : Sound (Holding hashes) KeyInv (Knows hashes) (start v : Ingestions τ) :=
    Sound.idle initial trivial (fun _ held => held)
  have inv := (invariant step_keyed sound current reached).global
  exact ⟨inv.once, inv.published, inv.opens⟩

/-- A digest for examples, which shows the bytes. -/
def shownHashes : Hashes where
  sha256 bytes := toString bytes
  sha256File file := toString (repr file)

/-- Accounts without a key and two staged uploads. -/
def newAccounts : Vault where
  users _ := ⟨false, none⟩
  assets := []
  files _ := none
  staged stage := if stage = 1 then some [1, 2, 3] else if stage = 2 then some [4] else none
  keyWrites := []
  published := []

theorem newAccounts_keyInv : KeyInv newAccounts :=
  ⟨by simp [newAccounts], by simp [newAccounts], by simp [newAccounts], by simp [newAccounts]⟩

/-- An upload of one account from stage `stage`. -/
def uploadFrom (stage : UUID) (encrypted : Bool) : Request where
  userId := 9
  stage := stage
  filename := none
  logicalId := none
  forceNewVersion := false
  encrypted := encrypted

/-- The steps of session `t` from its lock to its row. -/
def storeSteps (t : Nat) (id : UUID) : List (Nat × Action) :=
  [(t, .lockUser), (t, .lockContent), (t, .findExisting), (t, .lockPath), (t, .publish),
    (t, .consume), (t, .insert id id)]

theorem account_keeps_one_media_key_in_turn :
    ∃ t, run (step shownHashes) (start newAccounts)
        ([(0, .begin (uploadFrom 1 true) true), (0, .lockUser), (0, .initializeKey 7)] ++
          storeSteps 0 100 ++ (1, .begin (uploadFrom 2 true) true) :: storeSteps 1 101) = some t ∧
      t.shared.assets.length = 2 ∧
      (∀ id, (t.shared.keyWrites.filter fun write => write.1 = id).length ≤ 1) ∧
      (∀ id key, (id, key) ∈ t.shared.published → (t.shared.users id).mediaKey = some key) ∧
      ∀ asset ∈ t.shared.assets, asset.encryptionVersion = 1 → Opens t.shared asset := by
  have finishes : (run (step shownHashes) (start newAccounts)
      ([(0, .begin (uploadFrom 1 true) true), (0, .lockUser), (0, .initializeKey 7)] ++
        storeSteps 0 100 ++ (1, .begin (uploadFrom 2 true) true) :: storeSteps 1 101)).any
      fun t => t.shared.assets.length = 2 := by decide
  obtain ⟨t, reached, two⟩ := (Option.any_eq_true _ _).mp finishes
  exact ⟨t, reached, of_decide_eq_true two,
    account_keeps_one_media_key newAccounts_keyInv (by decide) reached⟩

/-- Both sessions loaded the account before it had a key. The second overwrites
the first one's key, under which the first one's upload is then published. -/
theorem second_media_key_hides_upload :
    ∃ t, run (step shownHashes) (start newAccounts)
        ([(0, .begin (uploadFrom 1 true) true), (1, .begin (uploadFrom 2 true) true),
          (0, .lockUser), (0, .initializeKey 7), (1, .lockUser), (1, .initializeKey 8)] ++
          storeSteps 0 100) = some t ∧
      (t.shared.keyWrites.filter fun write => write.1 = 9).length = 2 ∧
      ∃ asset ∈ t.shared.assets, asset.encryptionVersion = 1 ∧ ¬ Opens t.shared asset := by
  have violated : (run (step shownHashes) (start newAccounts)
      ([(0, .begin (uploadFrom 1 true) true), (1, .begin (uploadFrom 2 true) true),
        (0, .lockUser), (0, .initializeKey 7), (1, .lockUser), (1, .initializeKey 8)] ++
        storeSteps 0 100)).any fun t =>
      (t.shared.keyWrites.filter fun write => write.1 = 9).length = 2 ∧
      ∃ asset ∈ t.shared.assets, asset.encryptionVersion = 1 ∧ ¬ Opens t.shared asset := by
    decide
  obtain ⟨t, reached, violated⟩ := (Option.any_eq_true _ _).mp violated
  exact ⟨t, reached, of_decide_eq_true violated⟩

end Drivebound.Storage
