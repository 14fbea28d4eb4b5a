import Drivebound.Passkeys.Ceremonies

/-! What the ceremonies keep of an account: a bounded number of credentials, each of them
registered once, and a way to sign in. The instance that `delete_passkey` reads
`password_enabled` from is older than the lock; no other request disables a password. -/
namespace Drivebound.Passkeys
open Attributes Sessions Run

variable {Document : Type}

def Database.PasswordEnabled (db : Database) (user : UUID) : Prop :=
  ∃ row ∈ db.user? user, row.passwordEnabled = true

/-- The methods that `reauthentication_methods` lists. -/
def HasMethod (settings : Settings) (db : Database) (user : UUID) : Prop :=
  db.PasswordEnabled user ∨ (settings.googleAuthEnabled && db.hasGoogleIdentity user) = true ∨
    db.credentialsOf user ≠ []

structure Allowed (db : Database) : Prop where
  limit : ∀ user, (db.credentialsOf user).length ≤ maxPasskeysPerAccount
  credentialIds : (db.credentials.map (·.credentialId)).Nodup
  ids : (db.credentials.map (·.id)).Nodup

/-- An account that can be signed in to before a step can be afterwards. -/
def KeepsMethod (webauthn : WebAuthn Document) (settings : Settings) (s : Service Document)
    (label : Nat × Action Document) : Prop :=
  ∀ t, step webauthn settings s label = some t → ∀ user,
    HasMethod settings s.shared user → HasMethod settings t.shared user

/-- What tells the credentials apart. -/
structure CredentialKey where
  id : UUID
  userId : UUID
  credentialId : Bytes
  deriving DecidableEq, Repr

def PasskeyCredential.key (credential : PasskeyCredential) : CredentialKey :=
  ⟨credential.id, credential.userId, credential.credentialId⟩

def Database.keys (db : Database) : List CredentialKey := db.credentials.map (·.key)

def Room (db : Database) (user : UUID) : Prop :=
  db.keys.countP (·.userId = user) < maxPasskeysPerAccount

/-- The instance shows no password that the row does not have. -/
def Shows (db : Database) (user : User) : Prop :=
  user.passwordEnabled = true → db.PasswordEnabled user.id

/-- The credential is one of the user's. -/
def Owned (db : Database) (id user : UUID) : Prop := ∀ key ∈ db.keys, key.id = id → key.userId = user

/-- The account has a method when the credential is gone. -/
def Spared (settings : Settings) (db : Database) (user id : UUID) : Prop :=
  db.PasswordEnabled user ∨ (settings.googleAuthEnabled && db.hasGoogleIdentity user) = true ∨
    ∃ key ∈ db.keys, key.userId = user ∧ key.id ≠ id

/-- A credential that is about to be inserted. -/
structure Awaited (db : Database) (attempt : Attempt Document) (credential : PasskeyCredential) :
    Prop where
  owner : attempt.owner = some credential.userId
  room : Room db credential.userId
  id : ∀ key ∈ db.keys, key.id ≠ credential.id

def Knows (settings : Settings) (db : Database) : Phase Document → Prop
  | .authenticated user _ _ | .locked user _ _ => Shows db user
  | .removing user passkeyId => Shows db user ∧ Owned db passkeyId user.id
  | .removable user passkeyId => Owned db passkeyId user.id ∧ Spared settings db user.id passkeyId
  | .counted attempt _ _ _ => ∀ user, attempt.owner = some user → Room db user
  | .inserting attempt _ _ credential => Awaited db attempt credential
  | .concluding attempt _ (.register credential) =>
    Awaited db attempt credential ∧ ∀ key ∈ db.keys, key.credentialId ≠ credential.credentialId
  | _ => True

variable {webauthn : WebAuthn Document} {settings : Settings} {db db' : Database}
  {phase : Phase Document} {action : Action Document} {outcome : Step Document}

theorem length_credentialsOf (user : UUID) :
    (db.credentialsOf user).length = db.keys.countP (·.userId = user) := by
  rw [Database.credentialsOf, Database.keys, List.countP_map, List.countP_eq_length_filter]
  rfl

theorem credentialsOf_ne_nil_iff (user : UUID) :
    db.credentialsOf user ≠ [] ↔ ∃ key ∈ db.keys, key.userId = user := by
  constructor
  · intro nonempty
    obtain ⟨row, member⟩ := List.exists_mem_of_ne_nil _ nonempty
    obtain ⟨there, same⟩ := List.mem_filter.mp member
    exact ⟨row.key, List.mem_map_of_mem there, of_decide_eq_true same⟩
  · rintro ⟨key, member, same⟩
    obtain ⟨row, there, rfl⟩ := List.mem_map.mp member
    exact List.ne_nil_of_mem (List.mem_filter.mpr ⟨there, decide_eq_true same⟩)

theorem any_key {p : CredentialKey → Bool} (absent : db.credentials.any (fun row => p row.key) = false) :
    ∀ key ∈ db.keys, p key = false := by
  intro key member
  obtain ⟨row, there, rfl⟩ := List.mem_map.mp member
  simpa using List.any_eq_false.mp absent row there

/-- Passwords stay enabled and identities linked. -/
structure Grants (db db' : Database) : Prop where
  password : ∀ user, db.PasswordEnabled user → db'.PasswordEnabled user
  google : ∀ user, db.hasGoogleIdentity user = true → db'.hasGoogleIdentity user = true

theorem Grants.of_eq (users : db'.users = db.users) (identities : db'.identities = db.identities) :
    Grants db db' := by
  refine ⟨fun user enabled => ?_, fun user linked => ?_⟩
  · simpa only [Database.PasswordEnabled, Database.user?, users] using enabled
  · simpa only [Database.hasGoogleIdentity, identities] using linked

theorem Grants.refl (db : Database) : Grants db db := .of_eq rfl rfl

theorem Grants.google_available (grants : Grants db db') {user : UUID}
    (available : (settings.googleAuthEnabled && db.hasGoogleIdentity user) = true) :
    (settings.googleAuthEnabled && db'.hasGoogleIdentity user) = true := by
  obtain ⟨enabled, linked⟩ := Bool.and_eq_true_iff.mp available
  exact Bool.and_eq_true_iff.mpr ⟨enabled, grants.google user linked⟩

theorem grantMethod_grants (user : UUID) (method : SignInMethod) :
    Grants db (grantMethod db user method) := by
  cases method with
  | password =>
    refine ⟨fun other enabled => ?_, fun _ linked => linked⟩
    obtain ⟨row, found, shown⟩ := enabled
    have there : (grantMethod db user .password).user? other =
        (db.user? other).map fun row => if row.id = user then { row with passwordEnabled := true } else row :=
      Rows.find?_updateKey fun _ same => same
    rw [Option.mem_def.mp found, Option.map_some] at there
    refine ⟨_, there, ?_⟩
    split
    · rfl
    · exact shown
  | google =>
    refine ⟨fun _ enabled => enabled, fun other linked => ?_⟩
    simp only [Database.hasGoogleIdentity, grantMethod, List.any_append, Bool.or_eq_true]
    exact .inl linked

@[simp] theorem spendChallenge_keys (spent : Option (WebAuthnChallenge × Timestamp)) :
    (spendChallenge db spent).keys = db.keys := by
  cases spent <;> rfl

@[simp] theorem touchCredential_keys (loaded : PasskeyCredential) (verified : VerifiedAuthentication)
    (now : Timestamp) : (touchCredential db loaded verified now).keys = db.keys := by
  simp only [Database.keys, touchCredential, Rows.updateKey, List.map_map]
  apply List.map_congr_left
  intro row _
  simp only [Function.comp_apply]
  split <;> rfl

@[simp] theorem insertSession_keys (session : AuthSession) : (db.insertSession session).keys = db.keys :=
  rfl

@[simp] theorem reauthenticate_keys (session : AuthSession) (now : Timestamp) :
    (db.reauthenticate session now).keys = db.keys := rfl

@[simp] theorem insertCredential_keys (credential : PasskeyCredential) :
    (db.insertCredential credential).keys = db.keys ++ [credential.key] := List.map_append

@[simp] theorem removeCredential_keys (id : UUID) :
    (db.removeCredential id).keys = db.keys.filter (·.id ≠ id) := by
  rw [Database.keys, Database.keys, Database.removeCredential, List.filter_map]
  rfl

theorem written_grants (written : Written settings db phase action db') : Grants db db' := by
  cases written with
  | nothing => exact .refl db
  | issued => exact .of_eq rfl rfl
  | concluded attempt spent verdict now sessionId =>
    cases spent <;> cases verdict <;> exact .of_eq rfl rfl
  | removed => exact .of_eq rfl rfl
  | granted user method => exact grantMethod_grants user method

/-- What a step does to the credentials. -/
inductive KeysChanged : Phase Document → List CredentialKey → List CredentialKey → Prop where
  | same (phase keys) : KeysChanged phase keys keys
  | inserted (attempt spent credential keys) :
    KeysChanged (.concluding attempt spent (.register credential)) keys (keys ++ [credential.key])
  | removed (user passkeyId keys) :
    KeysChanged (.removable user passkeyId) keys (keys.filter (·.id ≠ passkeyId))

theorem written_keys (written : Written settings db phase action db') :
    KeysChanged phase db.keys db'.keys := by
  cases written with
  | nothing | issued => exact .same ..
  | concluded attempt spent verdict now sessionId =>
    unfold conclude applyVerdict
    cases verdict with
    | refused | rejected | duplicate | limit =>
      simp only [spendChallenge_keys]
      exact .same ..
    | register credential =>
      simp only [insertCredential_keys, spendChallenge_keys]
      exact .inserted ..
    | signIn user stored verified =>
      simp only [insertSession_keys, touchCredential_keys, spendChallenge_keys]
      exact .same ..
    | reauthenticate session stored verified =>
      simp only [reauthenticate_keys, touchCredential_keys, spendChallenge_keys]
      exact .same ..
  | removed user passkeyId =>
    rw [removeCredential_keys]
    exact .removed ..
  | granted user method => cases method <;> exact .same ..

theorem allowed_iff : Allowed db ↔
    (∀ user, db.keys.countP (·.userId = user) ≤ maxPasskeysPerAccount) ∧
      (db.keys.map (·.credentialId)).Nodup ∧ (db.keys.map (·.id)).Nodup := by
  have credentialIds : db.keys.map (·.credentialId) = db.credentials.map (·.credentialId) := List.map_map
  have ids : db.keys.map (·.id) = db.credentials.map (·.id) := List.map_map
  rw [credentialIds, ids]
  simp only [← length_credentialsOf]
  exact ⟨fun allowed => ⟨allowed.limit, allowed.credentialIds, allowed.ids⟩, fun ⟨limit, one, two⟩ => ⟨limit, one, two⟩⟩

/-- A key that no row has can be added. -/
theorem nodup_map_concat {β : Type} {f : CredentialKey → β} {keys : List CredentialKey}
    {key : CredentialKey} (unique : (keys.map f).Nodup) (fresh : ∀ k ∈ keys, f k ≠ f key) :
    ((keys ++ [key]).map f).Nodup := by
  rw [List.map_append, List.map_singleton, List.nodup_append]
  refine ⟨unique, List.nodup_singleton _, fun a member b last => ?_⟩
  obtain ⟨k, there, rfl⟩ := List.mem_map.mp member
  rw [List.mem_singleton.mp last]
  exact fresh k there

theorem written_allowed (allowed : Allowed db) (knows : Knows settings db phase)
    (written : Written settings db phase action db') : Allowed db' := by
  obtain ⟨limit, credentialIds, ids⟩ := allowed_iff.mp allowed
  rw [allowed_iff]
  have changed := written_keys written
  revert changed
  generalize db'.keys = keys'
  intro changed
  cases changed with
  | same => exact ⟨limit, credentialIds, ids⟩
  | inserted attempt spent credential =>
    obtain ⟨awaited, fresh⟩ := knows
    refine ⟨fun user => ?_, nodup_map_concat credentialIds fresh, nodup_map_concat ids awaited.id⟩
    rw [List.countP_append, List.countP_singleton]
    split
    · rename_i same
      have here : credential.userId = user := of_decide_eq_true same
      exact here ▸ awaited.room
    · exact limit user
  | removed user passkeyId =>
    refine ⟨fun user => ?_, credentialIds.sublist (List.filter_sublist.map _),
      ids.sublist (List.filter_sublist.map _)⟩
    exact (List.filter_sublist.countP_le ..).trans (limit user)

/-- The account that signs in does so after the step as well. -/
theorem written_method (knows : Knows settings db phase) (written : Written settings db phase action db')
    {user : UUID} (method : HasMethod settings db user) : HasMethod settings db' user := by
  have grants := written_grants written
  rcases method with enabled | available | credentials
  · exact .inl (grants.password user enabled)
  · exact .inr (.inl (grants.google_available available))
  obtain ⟨key, member, own⟩ := (credentialsOf_ne_nil_iff user).mp credentials
  have there : ∀ k ∈ db'.keys, k.userId = user → HasMethod settings db' user := fun k present same =>
    .inr (.inr ((credentialsOf_ne_nil_iff user).mpr ⟨k, present, same⟩))
  have changed := written_keys written
  revert changed there
  generalize db'.keys = keys'
  intro there changed
  cases changed with
  | same => exact there key member own
  | inserted => exact there key (List.mem_append_left _ member) own
  | removed remover passkeyId =>
    obtain ⟨owned, spared⟩ := knows
    by_cases gone : key.id = passkeyId
    · have same : remover.id = user := (owned key member gone).symm.trans own
      rw [same] at spared
      rcases spared with enabled | available | ⟨k, present, mine, other⟩
      · exact .inl (grants.password user enabled)
      · exact .inr (.inl (grants.google_available available))
      · exact there k (List.mem_filter.mpr ⟨present, decide_eq_true other⟩) mine
    · exact there key (List.mem_filter.mpr ⟨member, decide_eq_true gone⟩) own

theorem Shows.grants {user : User} (shows : Shows db user) (grants : Grants db db') : Shows db' user :=
  fun enabled => grants.password user.id (shows enabled)

section Interference

variable {m : Phase Document}

theorem room_others (knows : Knows settings db phase) (changed : KeysChanged phase db.keys db'.keys)
    (apart : locks.Apart phase m) {user : UUID} (holds : m.Holds (.user user)) (room : Room db user) :
    Room db' user := by
  unfold Room at room ⊢
  revert changed
  generalize db'.keys = keys'
  intro changed
  cases changed with
  | same => exact room
  | inserted attempt spent credential =>
    have other : ¬ credential.userId = user := by
      rintro rfl
      exact ((apart _).1 (.inl ⟨_, knows.1.owner, rfl⟩)).1 holds
    have skipped : ¬ decide (credential.key.userId = user) = true := by
      rw [decide_eq_true_eq]
      exact other
    rw [List.countP_append, List.countP_singleton, if_neg skipped]
    exact room
  | removed => exact (List.filter_sublist.countP_le ..).trans_lt room

theorem id_others (changed : KeysChanged phase db.keys db'.keys) (apart : locks.Apart phase m)
    {id : UUID} (holds : m.Holds (.passkey id)) {P : CredentialKey → Prop}
    (all : ∀ key ∈ db.keys, key.id = id → P key) : ∀ key ∈ db'.keys, key.id = id → P key := by
  revert changed
  generalize db'.keys = keys'
  intro changed
  cases changed with
  | same => exact all
  | inserted attempt spent credential =>
    intro key member same
    rcases List.mem_append.mp member with before | new
    · exact all key before same
    · rw [List.mem_singleton.mp new] at same
      subst same
      exact absurd holds ((apart _).1 (.inr (.inr (.inl rfl)))).1
  | removed => exact fun key member => all key (List.mem_of_mem_filter member)

theorem credentialId_others (changed : KeysChanged phase db.keys db'.keys) (apart : locks.Apart phase m)
    {bytes : Bytes} (holds : m.Holds (.credentialId bytes))
    (absent : ∀ key ∈ db.keys, key.credentialId ≠ bytes) : ∀ key ∈ db'.keys, key.credentialId ≠ bytes := by
  revert changed
  generalize db'.keys = keys'
  intro changed
  cases changed with
  | same => exact absent
  | inserted attempt spent credential =>
    intro key member same
    rcases List.mem_append.mp member with before | new
    · exact absent key before same
    · rw [List.mem_singleton.mp new] at same
      subst same
      exact absurd holds ((apart _).1 (.inr (.inr (.inr rfl)))).1
  | removed => exact fun key member => absent key (List.mem_of_mem_filter member)

theorem spared_others (knows : Knows settings db phase) (grants : Grants db db')
    (changed : KeysChanged phase db.keys db'.keys) (apart : locks.Apart phase m) {user id : UUID}
    (holds : m.Holds (.user user)) (spared : Spared settings db user id) :
    Spared settings db' user id := by
  rcases spared with enabled | available | ⟨key, member, own, other⟩
  · exact .inl (grants.password user enabled)
  · exact .inr (.inl (grants.google_available available))
  refine .inr (.inr ⟨key, ?_, own, other⟩)
  revert changed
  generalize db'.keys = keys'
  intro changed
  cases changed with
  | same => exact member
  | inserted => exact List.mem_append_left _ member
  | removed remover passkeyId =>
    refine List.mem_filter.mpr ⟨member, decide_eq_true ?_⟩
    intro gone
    have same : remover.id = user := (knows.1 key member gone).symm.trans own
    exact ((apart _).1 (.inl (same ▸ rfl))).1 holds

theorem awaited_others (knows : Knows settings db phase) (changed : KeysChanged phase db.keys db'.keys)
    (apart : locks.Apart phase m) {attempt : Attempt Document} {credential : PasskeyCredential}
    (holds : ∀ k, attempt.Locks k ∨ k = .passkey credential.id → m.Holds k)
    (awaited : Awaited db attempt credential) : Awaited db' attempt credential := by
  refine ⟨awaited.owner, ?_, ?_⟩
  · exact room_others knows changed apart (holds _ (.inl ⟨_, awaited.owner, rfl⟩)) awaited.room
  · have absent := id_others changed apart (holds _ (.inr rfl)) (P := fun _ => False) awaited.id
    exact absent

theorem written_others (knows : Knows settings db phase) (written : Written settings db phase action db')
    (apart : locks.Apart phase m) (other : Knows settings db m) : Knows settings db' m := by
  have grants := written_grants written
  have changed := written_keys written
  cases m with
  | authenticated user session endpoint | locked user session endpoint => exact Shows.grants other grants
  | removing user passkeyId =>
    exact ⟨other.1.grants grants, id_others changed apart (.inr rfl) other.2⟩
  | removable user passkeyId =>
    exact ⟨id_others changed apart (.inr rfl) other.1,
      spared_others knows grants changed apart (.inl rfl) other.2⟩
  | counted attempt challenge usedAt registration =>
    intro user owner
    exact room_others knows changed apart (.inl ⟨user, owner, rfl⟩) (other user owner)
  | inserting attempt challenge usedAt credential =>
    refine awaited_others knows changed apart ?_ other
    rintro k (owned | rfl)
    · exact .inl owned
    · exact .inr (.inr rfl)
  | concluding attempt spent verdict =>
    cases verdict with
    | register credential =>
      refine ⟨awaited_others knows changed apart ?_ other.1, ?_⟩
      · rintro k (owned | rfl)
        · exact .inl owned
        · exact .inr (.inr (.inl rfl))
      · exact credentialId_others changed apart (.inr (.inr (.inr rfl))) other.2
    | _ => trivial
  | _ => trivial

end Interference

theorem knows_concluding {attempt : Attempt Document} {spent : Option (WebAuthnChallenge × Timestamp)}
    {verdict : Verdict} (other : ∀ credential, verdict ≠ .register credential) :
    Knows settings db (.concluding attempt spent verdict) := by
  cases verdict with
  | register credential => exact absurd rfl (other credential)
  | _ => trivial

theorem signInVerdict_ne {document : Document} {parsed : ParsedCredential} {stored : PasskeyCredential}
    {user : Option User} {challenge : WebAuthnChallenge} (credential : PasskeyCredential) :
    signInVerdict webauthn document parsed stored user challenge ≠ .register credential := by
  unfold signInVerdict
  split_ifs
  · nofun
  · nofun
  · nofun
  · split
    · split_ifs <;> nofun
    · nofun

theorem reauthenticationVerdict_ne {document : Document} {parsed : ParsedCredential}
    {stored : PasskeyCredential} {user : User} {session : AuthSession} {challenge : WebAuthnChallenge}
    (credential : PasskeyCredential) :
    reauthenticationVerdict webauthn document parsed stored user session challenge ≠
      .register credential := by
  unfold reauthenticationVerdict
  split_ifs
  · nofun
  · nofun
  · split <;> nofun

theorem begin_arrives (allowed : Allowed db) {user : User} {session : AuthSession}
    {endpoint : Endpoint Document} (shows : Shows db user) :
    Knows settings db (begin db user session endpoint).arrival := by
  cases endpoint with
  | deletePasskey passkeyId =>
    simp only [begin]
    split
    · trivial
    · rename_i row found
      refine ⟨shows, fun key member same => ?_⟩
      obtain ⟨_, _, ids⟩ := allowed_iff.mp allowed
      have here := List.find?_some found
      simp only [Bool.decide_and, Bool.and_eq_true, decide_eq_true_eq] at here
      have there : row.key ∈ db.keys := List.mem_map_of_mem (List.mem_of_find?_eq_some found)
      rw [List.inj_on_of_nodup_map ids member there (same.trans here.1.symm)]
      exact here.2
  | registrationOptions | reauthenticationOptions =>
    simp only [begin]
    split <;> trivial
  | registrationVerify challengeId document name | reauthenticationVerify challengeId document => trivial

theorem examine_arrives {attempt : Attempt Document} {challenge : WebAuthnChallenge} {usedAt : Timestamp} :
    Knows settings db (examine webauthn db attempt challenge usedAt).arrival := by
  unfold examine
  cases attempt with
  | malformed => trivial
  | signIn document parsed candidate user =>
    dsimp only
    split
    · trivial
    · exact knows_concluding signInVerdict_ne
  | register user session document name =>
    dsimp only
    split <;> trivial
  | reauthenticate user session document =>
    dsimp only
    split
    · trivial
    · split
      · trivial
      · exact knows_concluding reauthenticationVerdict_ne

theorem countRemoval_arrives {user : User} {passkeyId : UUID} (shows : Shows db user)
    (owned : Owned db passkeyId user.id) :
    Knows settings db (countRemoval settings db user passkeyId : Step Document).arrival := by
  unfold countRemoval
  split
  · trivial
  · rename_i permitted
    refine ⟨owned, ?_⟩
    by_cases enabled : user.passwordEnabled = true
    · exact .inl (shows enabled)
    by_cases available : (settings.googleAuthEnabled && db.hasGoogleIdentity user.id) = true
    · exact .inr (.inl available)
    have another : ¬ (db.credentialsOf user.id).all (·.id = passkeyId) = true := fun all =>
      permitted ⟨all, Bool.eq_false_of_not_eq_true enabled, Bool.eq_false_of_not_eq_true available⟩
    obtain ⟨row, member, other⟩ : ∃ row ∈ db.credentialsOf user.id, row.id ≠ passkeyId := by
      simpa using another
    obtain ⟨there, own⟩ := List.mem_filter.mp member
    exact .inr (.inr ⟨row.key, List.mem_map_of_mem there, of_decide_eq_true own, other⟩)

theorem program_arrives (allowed : Allowed db) (knows : Knows settings db phase)
    (chosen : program webauthn settings db phase action = some outcome) :
    Knows settings (outcome.result db) outcome.arrival := by
  cases action with
  | loginOptions email =>
    cases phase <;> cases chosen
    trivial
  | loginVerify challengeId document =>
    simp only [program] at chosen
    split at chosen
    · split at chosen
      · cases chosen
        trivial
      · split at chosen <;> (cases chosen; trivial)
    · contradiction
  | authenticate userId sessionId now endpoint =>
    simp only [program] at chosen
    split at chosen
    · rename_i user session found _
      split_ifs at chosen
      cases chosen
      intro enabled
      have same : user.id = userId := (Rows.find?_key found).2
      exact ⟨user, same ▸ found, enabled⟩
    · contradiction
  | lockUser =>
    simp only [program] at chosen
    split at chosen
    · split at chosen
      · cases chosen
        trivial
      · cases chosen
        exact knows
    · cases chosen
      trivial
    · contradiction
  | begin =>
    cases phase with
    | locked user session endpoint =>
      cases chosen
      rw [begin_result]
      exact begin_arrives allowed knows
    | _ => contradiction
  | cleanup now =>
    cases phase <;> cases chosen
    trivial
  | deleteChallenge =>
    simp only [program] at chosen
    split at chosen
    · cases chosen
      trivial
    · contradiction
  | issue id challenge createdAt =>
    simp only [program] at chosen
    split at chosen
    · split at chosen <;> (cases chosen; trivial)
    · contradiction
  | consume now =>
    cases phase with
    | attempting attempt challengeId =>
      cases chosen
      unfold Passkeys.consume
      split
      · trivial
      · simp only [Outcome.arrival]
        split <;> trivial
    | _ => contradiction
  | examine =>
    cases phase with
    | consumed attempt challenge usedAt =>
      cases chosen
      rw [examine_result]
      exact examine_arrives
    | _ => contradiction
  | count =>
    simp only [program] at chosen
    split at chosen
    · split at chosen
      · rename_i user session document name
        cases chosen
        simp only [Outcome.result, Outcome.arrival, countRegistration]
        split_ifs with duplicate full
        · trivial
        · trivial
        · rintro _ ⟨⟩
          rw [Room, ← length_credentialsOf]
          exact Nat.lt_of_not_le full
      · contradiction
    · cases chosen
      rw [countRemoval_result]
      exact countRemoval_arrives knows.1 knows.2
    · contradiction
  | insert id =>
    simp only [program] at chosen
    split at chosen
    · split at chosen
      · cases chosen
        simp only [Outcome.result, Outcome.arrival]
        split
        · trivial
        · rename_i absent
          refine ⟨rfl, knows _ rfl, fun key member => ?_⟩
          have fresh := any_key (p := (·.id = id)) (Bool.eq_false_of_not_eq_true absent) key member
          exact of_decide_eq_false fresh
      · contradiction
    · contradiction
  | flush =>
    cases phase with
    | inserting attempt challenge usedAt credential =>
      cases chosen
      simp only [Outcome.result, Outcome.arrival]
      split
      · trivial
      · rename_i absent
        refine ⟨knows, fun key member => ?_⟩
        have fresh := any_key (p := (·.credentialId = credential.credentialId))
          (Bool.eq_false_of_not_eq_true absent) key member
        exact of_decide_eq_false fresh
    | _ => contradiction
  | commit now sessionId =>
    simp only [program] at chosen
    split at chosen
    · split at chosen
      · split at chosen <;> (cases chosen; trivial)
      · cases chosen
        trivial
    · cases chosen
      trivial
    · cases chosen
      trivial
    · contradiction
  | grant user method =>
    cases phase <;> cases chosen
    trivial
  | stop =>
    cases chosen
    trivial

theorem step_guarded {s t : Service Document} {label : Nat × Action Document}
    (guarded : Guarded locks Allowed (Knows settings) s) (stepped : step webauthn settings s label = some t) :
    Guarded locks Allowed (Knows settings) t := by
  apply guarded.step stepped
  intro outcome chosen
  have knows := guarded.session label.1
  have written := program_written chosen
  exact ⟨program_keeps chosen, written_allowed guarded.global knows written,
    program_arrives guarded.global knows chosen, fun _ apart other => written_others knows written apart other⟩

theorem step_keepsMethod {s : Service Document} {label : Nat × Action Document}
    (guarded : Guarded locks Allowed (Knows settings) s) : KeepsMethod webauthn settings s label := by
  intro t stepped user method
  obtain ⟨outcome, chosen, acted⟩ := Option.bind_eq_some_iff.mp stepped
  rw [Store.act_shared acted]
  exact written_method (guarded.session label.1) (program_written chosen) method

/-- In every run, an account has at most ten credentials, a credential id belongs to one
account, and no step takes the last way to sign in. -/
theorem passkeys_are_bounded_and_spare_the_last_method (webauthn : WebAuthn Document)
    (settings : Settings) (db : Database) (allowed : Allowed db) (labels : List (Nat × Action Document)) :
    (∀ s, run (step webauthn settings) (start db) labels = some s → Allowed s.shared) ∧
      Along (step webauthn settings) (KeepsMethod webauthn settings) (start db) labels := by
  have initial : Guarded locks Allowed (Knows settings) (start db : Service Document) :=
    Guarded.idle allowed trivial (fun _ never => never) fun _ never => never
  have preserves : ∀ (s : Service Document) label t, Guarded locks Allowed (Knows settings) s → True →
      step webauthn settings s label = some t → Guarded locks Allowed (Knows settings) t :=
    fun _ _ _ guarded _ => step_guarded guarded
  constructor
  · intro s reached
    exact (invariant preserves initial (along_true _ _) reached).global
  · exact along_of_invariant preserves (fun _ _ guarded _ => step_keepsMethod guarded) initial
      (along_true _ _)

/-- An authenticator that signs a challenge under a credential id. -/
structure Signed where
  rawId : Bytes
  challenge : Bytes
  userHandle : Option Bytes
  deriving DecidableEq, Repr

def Signed.parsed (document : Signed) : ParsedCredential :=
  ⟨String.ofList (urlsafeB64 document.rawId), document.rawId, document.userHandle⟩

def signatures : WebAuthn Signed where
  parseAuthenticationCredential document := some document.parsed
  parseRegistrationCredential document := some document.parsed
  verifyRegistrationResponse document challenge :=
    if document.challenge = challenge then some ⟨document.rawId, document.rawId, 0, .multiDevice, true⟩
    else none
  verifyAuthenticationResponse document challenge _ signCount :=
    if document.challenge = challenge then some ⟨signCount + 1, .multiDevice, true⟩ else none

def defaults : Settings where
  googleAuthEnabled := true
  webauthnChallengeMinutes := 5
  recentAuthMinutes := 10
  refreshSessionDays := 30

def passkey (id user : UUID) : PasskeyCredential :=
  ⟨id, user, [id.toUInt8], [id.toUInt8], 0, "Laptop", .multiDevice, true, none⟩

/-- An account without a password, with two passkeys and two sessions. -/
def passwordless : Database where
  users := [⟨1, "owner@example.org", some 10, none, false⟩]
  sessions := [⟨11, 1, 5000, none, some 900⟩, ⟨12, 1, 5000, none, some 900⟩]
  identities := []
  credentials := [passkey 5 1, passkey 6 1]
  challenges := []

/-- Both sessions delete a passkey, each with a user that it has loaded before. -/
def racingDeletions : List (Nat × Action Signed) :=
  [(0, .authenticate 1 11 1000 (.deletePasskey 5)), (1, .authenticate 1 12 1000 (.deletePasskey 6)),
    (0, .lockUser), (0, .begin), (0, .count), (0, .commit 1001 0),
    (1, .lockUser), (1, .begin), (1, .count)]

/-- The second deletion finds the last passkey and is refused. -/
theorem racing_deletions_spare_a_passkey :
    ∃ s, run (step signatures defaults) (start passwordless) racingDeletions = some s ∧
      s.shared.credentials = [passkey 6 1] ∧ Allowed s.shared := by
  have raced : (run (step signatures defaults) (start passwordless) racingDeletions).any
      fun s => s.shared.credentials = [passkey 6 1] := by
    decide
  obtain ⟨s, reached, left⟩ := (Option.any_eq_true _ _).mp raced
  refine ⟨s, reached, of_decide_eq_true left, ?_⟩
  have allowed : Allowed passwordless := by
    refine ⟨fun user => ?_, by decide, by decide⟩
    exact (List.length_filter_le ..).trans (by decide)
  exact (passkeys_are_bounded_and_spare_the_last_method signatures defaults passwordless allowed
    racingDeletions).1 s reached

end Drivebound.Passkeys
