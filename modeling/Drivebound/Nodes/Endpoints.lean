import Drivebound.Nodes.Attestation
import Drivebound.Core.Rows
import Drivebound.Core.Sharing

/-! The endpoints of `api/v1/nodes.py` as sessions of one database under READ COMMITTED. A
request of a node locks the row that it finds by its token, a claim the row of its code;
everything that decides about it is read behind the lock. Instants are in milliseconds. -/
namespace Drivebound.Nodes
open Json Sessions

structure HttpException where
  statusCode : Nat
  detail : String
  deriving DecidableEq, Repr

inductive AttestationState where
  | legacyRepairRequired | verified
  deriving DecidableEq, Repr

inductive Status where
  | online | offline | revoked
  deriving DecidableEq, Repr

abbrev Capabilities := List (String × Value)

structure PairedNode where
  id : NodeId
  userId : UUID
  name : String
  publicKey : String
  endpointUrl : Option String
  secretHash : String
  status : Status
  version : Option String
  capabilities : Option Capabilities
  attestationState : AttestationState
  lastAttestedAt : Option Timestamp
  lastAttestationTimestampMs : Option Nat
  secretRotatedAt : Option Timestamp
  lastSeenAt : Option Timestamp
  revokedAt : Option Timestamp

structure NodePairingCode where
  userId : UUID
  codeHash : String
  expiresAt : Timestamp
  claimedAt : Option Timestamp
  deriving DecidableEq, Repr

structure Database where
  nodes : List PairedNode
  codes : List NodePairingCode

structure Settings where
  nodePairingMinutes : Nat
  remoteAccessEnabled : Bool
  deriving DecidableEq, Repr

structure NodeClaim where
  code : String
  name : String
  publicKey : String
  timestampMs : Nat
  signature : String
  endpointUrl : Option String
  deriving DecidableEq, Repr

structure NodeHeartbeat where
  nodeId : NodeId
  timestampMs : Nat
  version : Option String
  capabilities : Capabilities
  signature : String

structure NodeSecretRotation where
  nodeId : NodeId
  timestampMs : Nat
  signature : String
  deriving DecidableEq, Repr

inductive NodeRequest where
  | heartbeat (payload : NodeHeartbeat)
  | rotateSecret (payload : NodeSecretRotation)

/-- The message that the signature of a request is verified with. -/
def NodeRequest.signed : NodeRequest → Signed
  | .heartbeat payload => .heartbeat payload.nodeId payload.timestampMs payload.version payload.capabilities
  | .rotateSecret payload => .rotateSecret payload.nodeId payload.timestampMs

def NodeRequest.nodeId : NodeRequest → NodeId
  | .heartbeat payload => payload.nodeId
  | .rotateSecret payload => payload.nodeId

def NodeRequest.signature : NodeRequest → String
  | .heartbeat payload => payload.signature
  | .rotateSecret payload => payload.signature

def NodeClaim.signed (library : Library) (payload : NodeClaim) (publicKey : String) : Signed :=
  .claim (library.upper payload.code) payload.name publicKey payload.timestampMs payload.endpointUrl

inductive Phase where
  | idle
  /-- The claim has been validated in front of the lock. -/
  | claiming (payload : NodeClaim) (publicKey : String) (nowMs : Timestamp)
  | pairing (payload : NodeClaim) (publicKey : String) (nowMs : Timestamp) (code : NodePairingCode)
  | authenticated (token : String) (node : PairedNode) (request : NodeRequest)
  | attested (token : String) (node : PairedNode) (request : NodeRequest) (nowMs : Timestamp)
  | revoking (id : NodeId)

inductive LockKey where
  | node (id : NodeId)
  | code (codeHash : String)
  deriving DecidableEq, Repr

/-- `suppressed` is what `reject_suppressed_account` reads; codes, ids and secrets are drawn. -/
inductive Action where
  | createPairingCode (userId : UUID) (code : String) (nowMs : Timestamp)
  | claim (payload : NodeClaim) (nowMs : Timestamp)
  | lockCode
  | pair (suppressed : Bool) (id : NodeId) (secret : String)
  | request (token : String) (request : NodeRequest)
  | attest (suppressed : Bool) (nowMs : Timestamp)
  | commit (secret : String)
  | revoke (userId : UUID) (id : NodeId)
  | commitRevocation (nowMs : Timestamp)
  /-- Any other exception, a crash included. -/
  | stop

def checkClaim (library : Library) (payload : NodeClaim) (nowMs : Timestamp) : Except HttpException String :=
  let checked : Except String String := do
    let publicKey ← validatePublicKey library payload.publicKey
    validateTimestamp payload.timestampMs none nowMs
    verifySignature library publicKey payload.signature ((payload.signed library publicKey).message library)
    return publicKey
  checked.mapError (HttpException.mk 400)

def verifyAttestedRequest (library : Library) (node : PairedNode) (nodeId : NodeId) (timestampMs : Nat)
    (signature : String) (message : Message) (nowMs : Timestamp) : Except HttpException Unit :=
  if node.attestationState ≠ .verified then
    .error ⟨409, "Legacy node must be re-paired before signed requests are accepted"⟩
  else if nodeId ≠ node.id then .error ⟨403, "Signed node_id does not match the authenticated node"⟩
  else
    match validateTimestamp timestampMs node.lastAttestationTimestampMs nowMs with
    | .error detail => .error ⟨409, detail⟩
    | .ok () => (verifySignature library node.publicKey signature message).mapError (HttpException.mk 401)

def scheme (url : String) : String := String.ofList (url.toList.takeWhile (· ≠ ':'))

/-- A text that is not empty under `endpoint_url`. -/
def endpointOf (capabilities : Capabilities) : Option String :=
  match (capabilities.find? (·.1 = "endpoint_url")).map Prod.snd with
  | some (.string url) => if url = "" then none else some url
  | _ => none

/-- What a request assigns to its node. -/
def NodeRequest.assign (request : NodeRequest) (nowMs : Timestamp) (secretHash : String) (row : PairedNode) :
    PairedNode :=
  match request with
  | .heartbeat payload => { row with
      lastSeenAt := some nowMs
      lastAttestedAt := some nowMs
      lastAttestationTimestampMs := some payload.timestampMs
      status := .online
      version := payload.version
      capabilities := some payload.capabilities
      endpointUrl := (endpointOf payload.capabilities).or row.endpointUrl }
  | .rotateSecret payload => { row with
      secretHash
      secretRotatedAt := some nowMs
      lastAttestedAt := some nowMs
      lastAttestationTimestampMs := some payload.timestampMs }

def newNode (library : Library) (payload : NodeClaim) (publicKey : String) (nowMs : Timestamp)
    (code : NodePairingCode) (id : NodeId) (secret : String) : PairedNode where
  id
  userId := code.userId
  name := payload.name
  publicKey
  endpointUrl := payload.endpointUrl
  secretHash := library.tokenDigest secret
  status := .online
  version := none
  capabilities := none
  attestationState := .verified
  lastAttestedAt := some nowMs
  lastAttestationTimestampMs := some payload.timestampMs
  secretRotatedAt := none
  lastSeenAt := some nowMs
  revokedAt := none

namespace Database

def setNode (db : Database) (id : NodeId) (change : PairedNode → PairedNode) : Database :=
  { db with nodes := Rows.updateKey (·.id) id change db.nodes }

def claimCode (db : Database) (codeHash : String) (nowMs : Timestamp) : Database :=
  { db with
    codes := Rows.updateKey (·.codeHash) codeHash (fun row => { row with claimedAt := some nowMs }) db.codes }

def addNode (db : Database) (node : PairedNode) : Database := { db with nodes := db.nodes ++ [node] }

def addCode (db : Database) (code : NodePairingCode) : Database := { db with codes := db.codes ++ [code] }

/-- `uq_paired_nodes_active_attested_public_key`, the secret's own index and the key. -/
def admits (db : Database) (node : PairedNode) : Bool :=
  db.nodes.all fun row => row.id ≠ node.id ∧ row.secretHash ≠ node.secretHash ∧
    ¬ (row.publicKey = node.publicKey ∧ row.revokedAt = none ∧ row.attestationState = .verified)

/-- A secret that another node has breaks the index. -/
def admitsSecret (db : Database) (id : NodeId) (secretHash : String) : NodeRequest → Bool
  | .heartbeat _ => true
  | .rotateSecret _ => db.nodes.all fun row => row.id = id ∨ row.secretHash ≠ secretHash

end Database

inductive Event where
  | issued (code : NodePairingCode)
  | claimed (payload : NodeClaim) (publicKey : String) (nowMs : Timestamp) (code : NodePairingCode)
      (id : NodeId) (secret : String)
  | attested (token : String) (node : PairedNode) (request : NodeRequest) (nowMs : Timestamp)
      (secret : String)
  | revoked (id : NodeId) (nowMs : Timestamp)

def Event.apply (library : Library) (db : Database) : Event → Database
  | .issued code => db.addCode code
  | .claimed payload publicKey nowMs code id secret =>
    (db.addNode (newNode library payload publicKey nowMs code id secret)).claimCode code.codeHash nowMs
  | .attested _ node request nowMs secret =>
    db.setNode node.id (request.assign nowMs (library.tokenDigest secret))
  | .revoked id nowMs => db.setNode id fun row => { row with revokedAt := some nowMs, status := .revoked }

/-- What a step commits; `none` where it commits nothing or a constraint rolls it back. -/
def eventOf (library : Library) (settings : Settings) (db : Database) (phase : Phase) : Action → Option Event
  | .createPairingCode userId code nowMs =>
    match phase with
    | .idle =>
      let row : NodePairingCode :=
        ⟨userId, library.tokenDigest code, nowMs + settings.nodePairingMinutes * 60000, none⟩
      if db.codes.any (·.codeHash = row.codeHash) then none else some (.issued row)
    | _ => none
  | .pair suppressed id secret =>
    match phase with
    | .pairing payload publicKey nowMs code =>
      if suppressed = true ∨ (settings.remoteAccessEnabled = true ∧
          payload.endpointUrl.any (scheme · ≠ "https") = true) ∨
          db.admits (newNode library payload publicKey nowMs code id secret) = false then none
      else some (.claimed payload publicKey nowMs code id secret)
    | _ => none
  | .commit secret =>
    match phase with
    | .attested token node request nowMs =>
      if db.admitsSecret node.id (library.tokenDigest secret) request = true then
        some (.attested token node request nowMs secret)
      else none
    | _ => none
  | .commitRevocation nowMs =>
    match phase with
    | .revoking id => some (.revoked id nowMs)
    | _ => none
  | _ => none

abbrev Step := Outcome Database Phase LockKey

/-- The end of a transaction. -/
def settle (library : Library) (settings : Settings) (db : Database) (phase : Phase) (action : Action) : Step :=
  .finish ((eventOf library settings db phase action).elim db (Event.apply library db)) .idle

/-- `reject_suppressed_account` and `verify_attested_request`. -/
def attest (library : Library) (db : Database) (token : String) (node : PairedNode) (request : NodeRequest)
    (suppressed : Bool) (nowMs : Timestamp) : Step :=
  if suppressed = true then .finish db .idle
  else
    match verifyAttestedRequest library node request.nodeId request.signed.timestampMs request.signature
        (request.signed.message library) nowMs with
    | .error _ => .finish db .idle
    | .ok () => .stay db (.attested token node request nowMs)

def program (library : Library) (settings : Settings) (db : Database) (phase : Phase) : Action → Option Step
  | .createPairingCode userId code nowMs =>
    match phase with
    | .idle => some (settle library settings db phase (.createPairingCode userId code nowMs))
    | _ => none
  | .claim payload nowMs =>
    match phase with
    | .idle =>
      match checkClaim library payload nowMs with
      | .error _ => some (.finish db .idle)
      | .ok publicKey => some (.stay db (.claiming payload publicKey nowMs))
    | _ => none
  | .lockCode =>
    match phase with
    | .claiming payload publicKey nowMs =>
      match db.codes.find? (fun row => row.codeHash = library.tokenDigest (library.upper payload.code) ∧
          row.claimedAt = none ∧ nowMs < row.expiresAt) with
      | none => some (.finish db .idle)
      | some code => some (.lock (.code code.codeHash) (.pairing payload publicKey nowMs code))
    | _ => none
  | .pair suppressed id secret =>
    match phase with
    | .pairing .. => some (settle library settings db phase (.pair suppressed id secret))
    | _ => none
  | .request token request =>
    match phase with
    | .idle =>
      if token = "" then some (.finish db .idle)
      else
        match db.nodes.find? (fun row => row.secretHash = library.tokenDigest token ∧ row.revokedAt = none) with
        | none => some (.finish db .idle)
        | some node => some (.lock (.node node.id) (.authenticated token node request))
    | _ => none
  | .attest suppressed nowMs =>
    match phase with
    | .authenticated token node request => some (attest library db token node request suppressed nowMs)
    | _ => none
  | .commit secret =>
    match phase with
    | .attested .. => some (settle library settings db phase (.commit secret))
    | _ => none
  | .revoke userId id =>
    match phase with
    | .idle =>
      match db.nodes.find? (fun row => row.id = id ∧ row.userId = userId) with
      | none => some (.finish db .idle)
      | some node => some (.lock (.node node.id) (.revoking node.id))
    | _ => none
  | .commitRevocation nowMs =>
    match phase with
    | .revoking _ => some (settle library settings db phase (.commitRevocation nowMs))
    | _ => none
  | .stop => some (.finish db .idle)

abbrev Service := Store Database Phase LockKey Nat

def start (db : Database) : Service := Store.idle db .idle

def step (library : Library) (settings : Settings) : Service → Nat × Action → Option Service :=
  Store.step (program library settings)

/-- The lock that a program point relies on. -/
def Phase.Holds : Phase → LockKey → Prop
  | .pairing _ _ _ code, k => k = .code code.codeHash
  | .authenticated _ node _, k | .attested _ node _ _, k => k = .node node.id
  | .revoking id, k => k = .node id
  | _, _ => False

def locks : Locks Phase LockKey := ⟨Phase.Holds, fun _ _ => False⟩

/-- What a session may commit. -/
inductive Settles (library : Library) (db : Database) : Phase → Event → Prop where
  | issued (code : NodePairingCode) (unclaimed : code.claimedAt = none)
      (fresh : ∀ row ∈ db.codes, row.codeHash ≠ code.codeHash) : Settles library db .idle (.issued code)
  | claimed (payload : NodeClaim) (publicKey : String) (nowMs : Timestamp) (code : NodePairingCode)
      (id : NodeId) (secret : String)
      (admitted : db.admits (newNode library payload publicKey nowMs code id secret) = true) :
      Settles library db (.pairing payload publicKey nowMs code) (.claimed payload publicKey nowMs code id secret)
  | attested (token : String) (node : PairedNode) (request : NodeRequest) (nowMs : Timestamp) (secret : String)
      (admitted : db.admitsSecret node.id (library.tokenDigest secret) request = true) :
      Settles library db (.attested token node request nowMs) (.attested token node request nowMs secret)
  | revoked (id : NodeId) (nowMs : Timestamp) : Settles library db (.revoking id) (.revoked id nowMs)

/-- Where a step that commits nothing leads. -/
inductive Arrives (library : Library) (db : Database) : Phase → Phase → Prop where
  | idle (point : Phase) : Arrives library db point .idle
  | claiming (payload : NodeClaim) (publicKey : String) (nowMs : Timestamp)
      (checked : checkClaim library payload nowMs = .ok publicKey) :
      Arrives library db .idle (.claiming payload publicKey nowMs)
  | pairing (payload : NodeClaim) (publicKey : String) (nowMs : Timestamp) (code : NodePairingCode)
      (member : code ∈ db.codes) (named : code.codeHash = library.tokenDigest (library.upper payload.code))
      (unclaimed : code.claimedAt = none) (alive : nowMs < code.expiresAt) :
      Arrives library db (.claiming payload publicKey nowMs) (.pairing payload publicKey nowMs code)
  | authenticated (token : String) (node : PairedNode) (request : NodeRequest) (member : node ∈ db.nodes)
      (found : node.secretHash = library.tokenDigest token) (active : node.revokedAt = none) :
      Arrives library db .idle (.authenticated token node request)
  | attested (token : String) (node : PairedNode) (request : NodeRequest) (nowMs : Timestamp)
      (verified : verifyAttestedRequest library node request.nodeId request.signed.timestampMs
        request.signature (request.signed.message library) nowMs = .ok ()) :
      Arrives library db (.authenticated token node request) (.attested token node request nowMs)
  | revoking (id : NodeId) : Arrives library db .idle (.revoking id)

variable {library : Library} {settings : Settings} {db : Database} {phase : Phase} {action : Action}
  {event : Event} {outcome : Step}

theorem eventOf_settles (committed : eventOf library settings db phase action = some event) :
    Settles library db phase event := by
  unfold eventOf at committed
  split at committed
  · split at committed
    · dsimp only at committed
      split at committed
      · contradiction
      · rename_i fresh
        cases committed
        refine .issued _ rfl fun row member same => fresh ?_
        exact List.any_eq_true.mpr ⟨row, member, decide_eq_true same⟩
    · contradiction
  · split at committed
    · split at committed
      · contradiction
      · rename_i payload publicKey nowMs code admitted
        cases committed
        refine .claimed payload publicKey nowMs code _ _ ?_
        by_contra refused
        exact admitted (.inr (.inr (eq_false_of_ne_true refused)))
    · contradiction
  · split at committed
    · split at committed
      · rename_i admitted
        cases committed
        exact .attested _ _ _ _ _ admitted
      · contradiction
    · contradiction
  · split at committed
    · cases committed
      exact .revoked _ _
    · contradiction
  · contradiction

/-- A step commits its event and ends the request, or it changes nothing. -/
def Settled (library : Library) (settings : Settings) (db : Database) (phase : Phase) (action : Action)
    (outcome : Step) : Prop :=
  outcome.result db = (eventOf library settings db phase action).elim db (Event.apply library db) ∧
    locks.Keeps phase outcome ∧
    (outcome.arrival = .idle ∨
      eventOf library settings db phase action = none ∧ Arrives library db phase outcome.arrival)

theorem settle_settled : Settled library settings db phase action (settle library settings db phase action) :=
  ⟨rfl, ⟨fun _ never => never, fun _ never => never⟩, .inl rfl⟩

theorem rollback_settled (quiet : eventOf library settings db phase action = none) :
    Settled library settings db phase action (.finish db .idle) := by
  refine ⟨?_, ⟨fun _ never => never, fun _ never => never⟩, .inl rfl⟩
  rw [quiet]
  rfl

theorem quiet_settled {point : Phase} (quiet : eventOf library settings db phase action = none)
    (kept : ∀ k, point.Holds k → phase.Holds k) (arrives : Arrives library db phase point) :
    Settled library settings db phase action (.stay db point) := by
  refine ⟨?_, ⟨kept, fun _ never => never⟩, .inr ⟨quiet, arrives⟩⟩
  rw [quiet]
  rfl

theorem lock_settled {key : LockKey} {point : Phase} (quiet : eventOf library settings db phase action = none)
    (granted : ∀ k, point.Holds k → k = key) (arrives : Arrives library db phase point) :
    Settled library settings db phase action (.lock key point) := by
  refine ⟨?_, ⟨fun k held => .inl (granted k held), fun _ never => never⟩, .inr ⟨quiet, arrives⟩⟩
  rw [quiet]
  rfl

theorem attest_settled {token : String} {node : PairedNode} {request : NodeRequest} {suppressed : Bool}
    {nowMs : Timestamp} : Settled library settings db (.authenticated token node request)
      (.attest suppressed nowMs) (attest library db token node request suppressed nowMs) := by
  unfold attest
  split
  · exact rollback_settled rfl
  · split
    · exact rollback_settled rfl
    · rename_i verified
      exact quiet_settled rfl (fun _ held => held) (.attested token node request nowMs verified)

theorem program_settled (chosen : program library settings db phase action = some outcome) :
    Settled library settings db phase action outcome := by
  cases action with
  | createPairingCode | commit | commitRevocation | pair =>
    cases phase with
    | idle | pairing | attested | revoking =>
      first
        | contradiction
        | obtain rfl := Option.some.inj chosen
          exact settle_settled
    | _ => contradiction
  | claim payload nowMs =>
    cases phase with
    | idle =>
      simp only [program] at chosen
      split at chosen
      · cases chosen
        exact rollback_settled rfl
      · rename_i publicKey checked
        cases chosen
        exact quiet_settled rfl (fun _ never => never) (.claiming payload publicKey nowMs checked)
    | _ => contradiction
  | lockCode =>
    cases phase with
    | claiming payload publicKey nowMs =>
      simp only [program] at chosen
      split at chosen
      · cases chosen
        exact rollback_settled rfl
      · rename_i code found
        cases chosen
        have fits := List.find?_some found
        obtain ⟨named, unclaimed, alive⟩ := of_decide_eq_true fits
        exact lock_settled rfl (fun _ held => held)
          (.pairing payload publicKey nowMs code (List.mem_of_find?_eq_some found) named unclaimed alive)
    | _ => contradiction
  | request token request =>
    cases phase with
    | idle =>
      simp only [program] at chosen
      split at chosen
      · cases chosen
        exact rollback_settled rfl
      · split at chosen
        · cases chosen
          exact rollback_settled rfl
        · rename_i node found
          cases chosen
          have fits := List.find?_some found
          obtain ⟨hash, active⟩ := of_decide_eq_true fits
          exact lock_settled rfl (fun _ held => held)
            (.authenticated token node request (List.mem_of_find?_eq_some found) hash active)
    | _ => contradiction
  | attest suppressed nowMs =>
    cases phase with
    | authenticated token node request =>
      obtain rfl := Option.some.inj chosen
      exact attest_settled
    | _ => contradiction
  | revoke userId id =>
    cases phase with
    | idle =>
      simp only [program] at chosen
      split at chosen
      · cases chosen
        exact rollback_settled rfl
      · rename_i node found
        cases chosen
        exact lock_settled rfl (fun _ held => held) (.revoking node.id)
    | _ => contradiction
  | stop =>
    cases chosen
    exact rollback_settled rfl

end Drivebound.Nodes
