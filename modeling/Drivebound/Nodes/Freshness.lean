import Drivebound.Core.History
import Drivebound.Nodes.Endpoints

/-! What the endpoints accept of nodes. A ledger keeps every message that was accepted with
the node it was accepted for, the secrets that were replaced and the codes that were claimed.
The row of a node bounds the timestamps accepted for it, so the lock in front of the check
orders them; a message that says the same names the same node. -/
namespace Drivebound.Nodes
open Sessions Run

structure Ledger where
  accepted : List (NodeId × Signed)
  replaced : List String
  claimed : List String

def Ledger.empty : Ledger := ⟨[], [], []⟩

/-- A secret that is drawn once more is not a replaced one. -/
def Ledger.draw (ledger : Ledger) (secretHash : String) : Ledger :=
  { ledger with replaced := ledger.replaced.filter (· ≠ secretHash) }

def Ledger.accept (ledger : Ledger) (id : NodeId) (signed : Signed) : Ledger :=
  { ledger with accepted := (id, signed) :: ledger.accepted }

def Ledger.after (library : Library) (ledger : Ledger) : Event → Ledger
  | .claimed payload publicKey _ code id secret =>
    { ledger.accept id (payload.signed library publicKey) with claimed := code.codeHash :: ledger.claimed }.draw
      (library.tokenDigest secret)
  | .attested token node request _ secret =>
    match request with
    | .heartbeat _ => ledger.accept node.id request.signed
    | .rotateSecret _ =>
      { ledger.accept node.id request.signed with
        replaced := library.tokenDigest token :: ledger.replaced }.draw (library.tokenDigest secret)
  | _ => ledger

def ledgerAfter (library : Library) (settings : Settings) (s : Service) (label : Nat × Action) (_ : Service)
    (ledger : Ledger) : Ledger :=
  (eventOf library settings s.shared (s.locals label.1) label.2).elim ledger (ledger.after library)

abbrev ledgerStep (library : Library) (settings : Settings) :
    Service × Ledger → Nat × Action → Option (Service × Ledger) :=
  noted (step library settings) (ledgerAfter library settings)

/-- A signed message that the server has not accepted; it is for one action and one node. -/
structure Fresh (library : Library) (ledger : Ledger) (id : NodeId) (signed : Signed) : Prop where
  increasing : ∀ entry ∈ ledger.accepted, entry.1 = id → entry.2.timestampMs < signed.timestampMs
  once : ∀ entry ∈ ledger.accepted, entry.2.message library ≠ signed.message library
  action : ∀ other : Signed, other.message library = signed.message library → other.action = signed.action
  addressee : ∀ other : Signed, other.message library = signed.message library →
    ∀ named, other.nodeId = some named → named = id

/-- What the server may commit for a node or for a pairing code. -/
def Accepts (library : Library) (db : Database) (ledger : Ledger) : Event → Prop
  | .issued _ | .revoked .. => True
  | .claimed payload publicKey nowMs code id _ =>
    Fresh library ledger id (payload.signed library publicKey) ∧
      checkClaim library payload nowMs = .ok publicKey ∧ code.codeHash ∉ ledger.claimed ∧
      code.codeHash = library.tokenDigest (library.upper payload.code) ∧ ∀ row ∈ db.nodes, row.id ≠ id
  | .attested token node request nowMs _ =>
    Fresh library ledger node.id request.signed ∧ request.nodeId = node.id ∧
      library.tokenDigest token ∉ ledger.replaced ∧
      ∃ row ∈ db.nodes, row.id = node.id ∧ row.secretHash = library.tokenDigest token ∧ row.revokedAt = none ∧
        (∀ last, row.lastAttestationTimestampMs = some last → last < request.signed.timestampMs) ∧
        verifyAttestedRequest library row request.nodeId request.signed.timestampMs request.signature
          (request.signed.message library) nowMs = .ok ()

/-- Only what is accepted is committed. -/
def Honours (library : Library) (settings : Settings) (s : Service × Ledger) (label : Nat × Action) : Prop :=
  ∀ t, ledgerStep library settings s label = some t →
    match eventOf library settings s.1.shared (s.1.locals label.1) label.2 with
    | none => t.1.shared = s.1.shared
    | some event => t.1.shared = event.apply library s.1.shared ∧ Accepts library s.1.shared s.2 event

/-- The keys of the tables. -/
structure Keyed (db : Database) : Prop where
  ids : (db.nodes.map (·.id)).Nodup
  secrets : (db.nodes.map (·.secretHash)).Nodup
  codes : (db.codes.map (·.codeHash)).Nodup

/-- The rows know as much as the ledger. -/
structure Recorded (library : Library) (db : Database) (ledger : Ledger) : Prop where
  bounded : ∀ entry ∈ ledger.accepted, ∃ row ∈ db.nodes, row.id = entry.1 ∧
    ∃ last, row.lastAttestationTimestampMs = some last ∧ entry.2.timestampMs ≤ last
  named : ∀ entry ∈ ledger.accepted, ∀ id, entry.2.nodeId = some id → id = entry.1
  coded : ∀ entry ∈ ledger.accepted, ∀ code, entry.2.code library = some code →
    library.tokenDigest code ∈ ledger.claimed
  replaced : ∀ row ∈ db.nodes, row.secretHash ∉ ledger.replaced
  claimed : ∀ hash ∈ ledger.claimed, ∃ row ∈ db.codes, row.codeHash = hash ∧ row.claimedAt ≠ none

/-- The row of the node is still there as it was found by its token. -/
structure Found (library : Library) (db : Database) (token : String) (node : PairedNode) : Prop where
  member : node ∈ db.nodes
  secret : node.secretHash = library.tokenDigest token
  active : node.revokedAt = none

def Knows (library : Library) (db : Database) : Phase → Prop
  | .claiming payload publicKey nowMs => checkClaim library payload nowMs = .ok publicKey
  | .pairing payload publicKey nowMs code => checkClaim library payload nowMs = .ok publicKey ∧
    code ∈ db.codes ∧ code.codeHash = library.tokenDigest (library.upper payload.code) ∧ code.claimedAt = none
  | .authenticated token node _ => Found library db token node
  | .attested token node request nowMs => Found library db token node ∧
    verifyAttestedRequest library node request.nodeId request.signed.timestampMs request.signature
      (request.signed.message library) nowMs = .ok ()
  | _ => True

structure Audited (library : Library) (s : Service × Ledger) : Prop where
  guarded : Guarded locks Keyed (Knows library) s.1
  recorded : Recorded library s.1.shared s.2

/-- The locked row or code that an event writes. -/
def Event.Writes : Event → LockKey → Prop
  | .issued _, _ => False
  | .claimed _ _ _ code _ _, k => k = .code code.codeHash
  | .attested _ node _ _ _, k => k = .node node.id
  | .revoked id _, k => k = .node id

variable {library : Library} {settings : Settings} {db : Database} {phase m : Phase} {action : Action}
  {event : Event} {outcome : Step} {ledger : Ledger}

theorem Settles.writes (settles : Settles library db phase event) {k : LockKey} (writes : event.Writes k) :
    phase.Holds k := by
  cases settles with
  | issued => contradiction
  | claimed | attested | revoked => exact writes

@[simp] theorem assign_id (request : NodeRequest) (nowMs : Timestamp) (secretHash : String) (row : PairedNode) :
    (request.assign nowMs secretHash row).id = row.id := by
  cases request <;> rfl

@[simp] theorem assign_last (request : NodeRequest) (nowMs : Timestamp) (secretHash : String)
    (row : PairedNode) : (request.assign nowMs secretHash row).lastAttestationTimestampMs =
      some request.signed.timestampMs := by
  cases request <;> rfl

/-- The row that an event leaves for a row. -/
def Event.change (library : Library) (event : Event) (row : PairedNode) : PairedNode :=
  match event with
  | .attested _ node request nowMs secret =>
    if row.id = node.id then request.assign nowMs (library.tokenDigest secret) row else row
  | .revoked id nowMs => if row.id = id then { row with revokedAt := some nowMs, status := .revoked } else row
  | _ => row

/-- The node that an event adds. -/
def Event.added (library : Library) : Event → List PairedNode
  | .claimed payload publicKey nowMs code id secret => [newNode library payload publicKey nowMs code id secret]
  | _ => []

theorem apply_nodes : (event.apply library db).nodes =
    db.nodes.map (event.change library) ++ event.added library := by
  cases event with
  | issued code =>
    simp only [Event.added, List.append_nil]
    exact (List.map_id db.nodes).symm
  | claimed payload publicKey nowMs code id secret =>
    have same : db.nodes.map ((Event.claimed payload publicKey nowMs code id secret).change library) =
        db.nodes := List.map_id db.nodes
    rw [same]
    rfl
  | attested | revoked =>
    simp only [Event.added, List.append_nil]
    rfl

theorem change_id (row : PairedNode) : (event.change library row).id = row.id := by
  cases event with
  | issued | claimed => rfl
  | attested token node request nowMs secret =>
    simp only [Event.change]
    split
    · exact assign_id ..
    · rfl
  | revoked id nowMs =>
    simp only [Event.change]
    split <;> rfl

/-- A row that is not written stays. -/
theorem change_spared {row : PairedNode} (spared : ¬ event.Writes (.node row.id)) :
    event.change library row = row := by
  cases event with
  | issued | claimed => rfl
  | attested token node request nowMs secret => exact if_neg fun same => spared (congrArg LockKey.node same)
  | revoked id nowMs => exact if_neg fun same => spared (congrArg LockKey.node same)

theorem node_kept {node : PairedNode} (spared : ¬ event.Writes (.node node.id)) (member : node ∈ db.nodes) :
    node ∈ (event.apply library db).nodes := by
  rw [apply_nodes]
  exact List.mem_append_left _ (List.mem_map.mpr ⟨node, member, change_spared spared⟩)

theorem code_kept {code : NodePairingCode} (spared : ¬ event.Writes (.code code.codeHash))
    (member : code ∈ db.codes) : code ∈ (event.apply library db).codes := by
  cases event with
  | issued new => exact List.mem_append_left _ member
  | claimed payload publicKey nowMs other id secret =>
    exact List.mem_map.mpr ⟨code, member, if_neg fun same => spared (congrArg LockKey.code same)⟩
  | attested | revoked => exact member

theorem admits_iff {node : PairedNode} (admitted : db.admits node = true) :
    ∀ row ∈ db.nodes, row.id ≠ node.id ∧ row.secretHash ≠ node.secretHash := by
  intro row member
  obtain ⟨id, secret, _⟩ := of_decide_eq_true (List.all_eq_true.mp admitted row member)
  exact ⟨id, secret⟩

theorem nodes_ids (keyed : Keyed db) (settles : Settles library db phase event) :
    ((event.apply library db).nodes.map (·.id)).Nodup := by
  have ids : (db.nodes.map (event.change library)).map (·.id) = db.nodes.map (·.id) := by
    rw [List.map_map]
    exact List.map_congr_left fun row _ => change_id row
  rw [apply_nodes]
  cases settles with
  | claimed payload publicKey nowMs code id secret admitted =>
    apply Rows.nodup_map_append
    · rw [ids]
      exact keyed.ids
    · intro row member
      obtain ⟨before, there, rfl⟩ := List.mem_map.mp member
      rw [change_id]
      exact (admits_iff admitted before there).1
  | issued | attested | revoked =>
    simp only [Event.added, List.append_nil]
    rw [ids]
    exact keyed.ids

/-- The secrets stay apart: one that is replaced gives way to one that nobody has. -/
theorem nodes_secrets (keyed : Keyed db) (settles : Settles library db phase event) :
    ((event.apply library db).nodes.map (·.secretHash)).Nodup := by
  cases settles with
  | issued => exact keyed.secrets
  | claimed payload publicKey nowMs code id secret admitted =>
    exact Rows.nodup_map_append keyed.secrets fun row member => (admits_iff admitted row member).2
  | revoked id nowMs =>
    have same : (Rows.updateKey (·.id) id (fun row : PairedNode =>
        { row with revokedAt := some nowMs, status := .revoked }) db.nodes).map (·.secretHash) =
        db.nodes.map (·.secretHash) :=
      Rows.updateKey_values fun _ => rfl
    simp only [Event.apply, Database.setNode]
    rw [same]
    exact keyed.secrets
  | attested token node request nowMs secret admitted =>
    cases request with
    | heartbeat payload =>
      have same : (Rows.updateKey (·.id) node.id (NodeRequest.assign (.heartbeat payload) nowMs
          (library.tokenDigest secret)) db.nodes).map (·.secretHash) = db.nodes.map (·.secretHash) :=
        Rows.updateKey_values fun _ => rfl
      simp only [Event.apply, Database.setNode]
      rw [same]
      exact keyed.secrets
    | rotateSecret payload =>
      refine Rows.nodup_updateKey keyed.ids keyed.secrets (fun _ => rfl) fun row member different => ?_
      have others : row.id = node.id ∨ row.secretHash ≠ library.tokenDigest secret :=
        of_decide_eq_true (List.all_eq_true.mp admitted row member)
      exact others.resolve_left different

theorem codes_hashes (keyed : Keyed db) (settles : Settles library db phase event) :
    ((event.apply library db).codes.map (·.codeHash)).Nodup := by
  cases settles with
  | issued code unclaimed fresh => exact Rows.nodup_map_append keyed.codes fresh
  | claimed payload publicKey nowMs code id secret =>
    have same : (Rows.updateKey (·.codeHash) code.codeHash (fun row : NodePairingCode =>
        { row with claimedAt := some nowMs }) db.codes).map (·.codeHash) = db.codes.map (·.codeHash) :=
      Rows.updateKey_values fun _ => rfl
    simp only [Event.apply, Database.claimCode, Database.addNode]
    rw [same]
    exact keyed.codes
  | attested | revoked => exact keyed.codes

theorem apply_keyed (keyed : Keyed db) (settles : Settles library db phase event) :
    Keyed (event.apply library db) :=
  ⟨nodes_ids keyed settles, nodes_secrets keyed settles, codes_hashes keyed settles⟩

/-- Two rows of one node, or of one secret, are the same row. -/
theorem Keyed.node_eq (keyed : Keyed db) {row node : PairedNode} (one : row ∈ db.nodes) (two : node ∈ db.nodes)
    (same : row.id = node.id) : row = node :=
  List.inj_on_of_nodup_map keyed.ids one two same

theorem Keyed.secret_eq (keyed : Keyed db) {row node : PairedNode} (one : row ∈ db.nodes) (two : node ∈ db.nodes)
    (same : row.secretHash = node.secretHash) : row = node :=
  List.inj_on_of_nodup_map keyed.secrets one two same

theorem Keyed.code_eq (keyed : Keyed db) {row code : NodePairingCode} (one : row ∈ db.codes)
    (two : code ∈ db.codes) (same : row.codeHash = code.codeHash) : row = code :=
  List.inj_on_of_nodup_map keyed.codes one two same

/-- Only a timestamp above the last one is valid. -/
theorem validateTimestamp_last {timestampMs nowMs : Nat} {last : Option Nat}
    (valid : validateTimestamp timestampMs last nowMs = .ok ()) (stored : last = some before) :
    before < timestampMs := by
  unfold validateTimestamp at valid
  split at valid
  · contradiction
  · split at valid
    · contradiction
    · split at valid
      · contradiction
      · rename_i unused
        rw [stored] at unused
        exact Nat.lt_of_not_le fun used => unused (decide_eq_true used)

theorem verifyAttestedRequest_checks {node : PairedNode} {id : NodeId} {timestampMs : Nat}
    {signature : String} {message : Message} {nowMs : Timestamp}
    (verified : verifyAttestedRequest library node id timestampMs signature message nowMs = .ok ()) :
    id = node.id ∧ validateTimestamp timestampMs node.lastAttestationTimestampMs nowMs = .ok () := by
  unfold verifyAttestedRequest at verified
  split at verified
  · contradiction
  · split at verified
    · contradiction
    · rename_i same
      split at verified
      · contradiction
      · rename_i valid
        exact ⟨of_not_not same, valid⟩

/-- What is signed for a node names it. -/
theorem request_nodeId (request : NodeRequest) : request.signed.nodeId = some request.nodeId := by
  cases request <;> rfl

/-- The message that an event accepts. -/
def Event.accepted (library : Library) : Event → List (NodeId × Signed)
  | .claimed payload publicKey _ _ id _ => [(id, payload.signed library publicKey)]
  | .attested _ node request _ _ => [(node.id, request.signed)]
  | _ => []

def Event.claims : Event → List String
  | .claimed _ _ _ code _ _ => [code.codeHash]
  | _ => []

theorem after_accepted : (ledger.after library event).accepted = event.accepted library ++ ledger.accepted := by
  cases event with
  | attested token node request nowMs secret => cases request <;> rfl
  | _ => rfl

theorem after_claimed : (ledger.after library event).claimed = event.claims ++ ledger.claimed := by
  cases event with
  | attested token node request nowMs secret => cases request <;> rfl
  | _ => rfl

/-- The last timestamp of a node never falls. -/
theorem change_last (keyed : Keyed db) (knows : Knows library db phase)
    (settles : Settles library db phase event) {row : PairedNode} (member : row ∈ db.nodes) {last : Nat}
    (stored : row.lastAttestationTimestampMs = some last) :
    ∃ later, (event.change library row).lastAttestationTimestampMs = some later ∧ last ≤ later := by
  cases settles with
  | issued | claimed => exact ⟨last, stored, Nat.le_refl last⟩
  | revoked id nowMs =>
    refine ⟨last, ?_, Nat.le_refl last⟩
    simp only [Event.change]
    split <;> exact stored
  | attested token node request nowMs secret =>
    simp only [Event.change]
    split
    · rename_i same
      obtain ⟨found, verified⟩ := knows
      obtain rfl := keyed.node_eq member found.member same
      exact ⟨_, assign_last .., Nat.le_of_lt
        (validateTimestamp_last (verifyAttestedRequest_checks verified).2 stored)⟩
    · exact ⟨last, stored, Nat.le_refl last⟩

/-- An accepted message is not above the last timestamp of its node. -/
def Bounded (db : Database) (entry : NodeId × Signed) : Prop :=
  ∃ row ∈ db.nodes, row.id = entry.1 ∧
    ∃ last, row.lastAttestationTimestampMs = some last ∧ entry.2.timestampMs ≤ last

theorem bounded_kept (keyed : Keyed db) (knows : Knows library db phase)
    (settles : Settles library db phase event) {entry : NodeId × Signed} (bounded : Bounded db entry) :
    Bounded (event.apply library db) entry := by
  obtain ⟨row, member, same, last, stored, below⟩ := bounded
  obtain ⟨later, raised, above⟩ := change_last keyed knows settles member stored
  refine ⟨event.change library row, ?_, (change_id row).trans same, later, raised, Nat.le_trans below above⟩
  rw [apply_nodes]
  exact List.mem_append_left _ (List.mem_map_of_mem member)

theorem bounded_new (knows : Knows library db phase) (settles : Settles library db phase event)
    {entry : NodeId × Signed} (added : entry ∈ event.accepted library) :
    Bounded (event.apply library db) entry := by
  cases settles with
  | issued | revoked => contradiction
  | claimed payload publicKey nowMs code id secret =>
    rw [List.mem_singleton.mp added]
    refine ⟨newNode library payload publicKey nowMs code id secret, ?_, rfl, _, rfl, Nat.le_refl _⟩
    exact List.mem_append_right _ List.mem_cons_self
  | attested token node request nowMs secret =>
    rw [List.mem_singleton.mp added]
    refine ⟨request.assign nowMs (library.tokenDigest secret) node, ?_, assign_id .., _, assign_last ..,
      Nat.le_refl _⟩
    exact List.mem_map.mpr ⟨node, knows.1.member, if_pos rfl⟩

/-- No row has a secret that was replaced. -/
theorem replaced_after (keyed : Keyed db) (recorded : Recorded library db ledger)
    (knows : Knows library db phase) (settles : Settles library db phase event) :
    ∀ row ∈ (event.apply library db).nodes, row.secretHash ∉ (ledger.after library event).replaced := by
  intro row member
  cases settles with
  | issued => exact recorded.replaced row member
  | claimed payload publicKey nowMs code id secret =>
    intro among
    obtain ⟨before, other⟩ := List.mem_filter.mp among
    rcases List.mem_append.mp member with old | new
    · exact recorded.replaced row old before
    · rw [List.mem_singleton.mp new] at other
      exact of_decide_eq_true other rfl
  | revoked id nowMs =>
    obtain ⟨old, there, rfl⟩ := List.mem_map.mp member
    have kept := recorded.replaced old there
    split <;> exact kept
  | attested token node request nowMs secret =>
    obtain ⟨old, there, rfl⟩ := List.mem_map.mp member
    have kept := recorded.replaced old there
    cases request with
    | heartbeat payload => split <;> exact kept
    | rotateSecret payload =>
      intro among
      obtain ⟨before, other⟩ := List.mem_filter.mp among
      by_cases same : old.id = node.id
      · rw [if_pos same] at other
        exact of_decide_eq_true other rfl
      · rw [if_neg same] at before
        rcases List.mem_cons.mp before with this | earlier
        · have own := keyed.secret_eq there knows.1.member (this.trans knows.1.secret.symm)
          exact same (congrArg PairedNode.id own)
        · exact kept earlier

theorem claimed_after (recorded : Recorded library db ledger)
    (knows : Knows library db phase) (settles : Settles library db phase event) :
    ∀ hash ∈ (ledger.after library event).claimed,
      ∃ row ∈ (event.apply library db).codes, row.codeHash = hash ∧ row.claimedAt ≠ none := by
  intro hash member
  rw [after_claimed] at member
  cases settles with
  | issued =>
    obtain ⟨row, there, same⟩ := recorded.claimed hash member
    exact ⟨row, List.mem_append_left _ there, same⟩
  | attested | revoked => exact recorded.claimed hash member
  | claimed payload publicKey nowMs code id secret =>
    rcases List.mem_append.mp member with new | before
    · rw [List.mem_singleton.mp new]
      exact ⟨{ code with claimedAt := some nowMs }, List.mem_map.mpr ⟨code, knows.2.1, if_pos rfl⟩, rfl, nofun⟩
    · obtain ⟨row, there, rfl, claimed⟩ := recorded.claimed hash before
      refine ⟨_, List.mem_map_of_mem there, ?_⟩
      split
      · exact ⟨rfl, nofun⟩
      · exact ⟨rfl, claimed⟩

theorem apply_recorded (keyed : Keyed db) (recorded : Recorded library db ledger)
    (knows : Knows library db phase) (settles : Settles library db phase event) :
    Recorded library (event.apply library db) (ledger.after library event) where
  bounded entry member := by
    rw [after_accepted] at member
    rcases List.mem_append.mp member with new | before
    · exact bounded_new knows settles new
    · exact bounded_kept keyed knows settles (recorded.bounded entry before)
  named entry member id names := by
    rw [after_accepted] at member
    rcases List.mem_append.mp member with new | before
    · cases settles with
      | issued | revoked => contradiction
      | claimed =>
        rw [List.mem_singleton.mp new] at names
        contradiction
      | attested token node request nowMs secret =>
        rw [List.mem_singleton.mp new] at names ⊢
        rw [request_nodeId] at names
        exact (Option.some.inj names).symm.trans (verifyAttestedRequest_checks knows.2).1
    · exact recorded.named entry before id names
  coded entry member code names := by
    rw [after_accepted] at member
    rw [after_claimed]
    rcases List.mem_append.mp member with new | before
    · cases settles with
      | issued | revoked => contradiction
      | claimed payload publicKey nowMs row id secret =>
        rw [List.mem_singleton.mp new] at names
        obtain rfl := Option.some.inj names
        rw [library.upper_upper, ← knows.2.2.1]
        exact List.mem_append_left _ List.mem_cons_self
      | attested token node request nowMs secret =>
        rw [List.mem_singleton.mp new] at names
        cases request <;> contradiction
    · exact List.mem_append_right _ (recorded.coded entry before code names)
  replaced := replaced_after keyed recorded knows settles
  claimed := claimed_after recorded knows settles

/-- What another session has locked is left alone. -/
theorem knows_others (settles : Settles library db phase event) (apart : locks.Apart phase m)
    (other : Knows library db m) : Knows library (event.apply library db) m := by
  have spared : ∀ k, m.Holds k → ¬ event.Writes k := fun k held writes =>
    ((apart k).1 (settles.writes writes)).1 held
  cases m with
  | idle | revoking => trivial
  | claiming => exact other
  | pairing payload publicKey nowMs code =>
    exact ⟨other.1, code_kept (spared _ rfl) other.2.1, other.2.2⟩
  | authenticated token node request =>
    exact ⟨node_kept (spared _ rfl) other.member, other.secret, other.active⟩
  | attested token node request nowMs =>
    exact ⟨⟨node_kept (spared _ rfl) other.1.member, other.1.secret, other.1.active⟩, other.2⟩

theorem arrives_knows (knows : Knows library db phase) {point : Phase}
    (arrives : Arrives library db phase point) : Knows library db point := by
  cases arrives with
  | idle | revoking => trivial
  | claiming payload publicKey nowMs checked => exact checked
  | pairing payload publicKey nowMs code member named unclaimed => exact ⟨knows, member, named, unclaimed⟩
  | authenticated token node request member found active => exact ⟨member, found, active⟩
  | attested token node request nowMs verified => exact ⟨knows, verified⟩

/-- A message that says the same as one of the node is not above it, so it is not accepted. -/
theorem attested_fresh (recorded : Recorded library db ledger) (keyed : Keyed db) {token : String}
    {node : PairedNode} {request : NodeRequest} {nowMs : Timestamp}
    (knows : Knows library db (.attested token node request nowMs)) :
    Fresh library ledger node.id request.signed := by
  obtain ⟨found, verified⟩ := knows
  obtain ⟨own, valid⟩ := verifyAttestedRequest_checks verified
  have increasing : ∀ entry ∈ ledger.accepted, entry.1 = node.id →
      entry.2.timestampMs < request.signed.timestampMs := by
    intro entry member same
    obtain ⟨row, there, owner, last, stored, below⟩ := recorded.bounded entry member
    obtain rfl := keyed.node_eq there found.member (owner.trans same)
    exact Nat.lt_of_le_of_lt below (validateTimestamp_last valid stored)
  refine ⟨increasing, fun entry member same => ?_, fun other same => Signed.action_of_message same,
    fun other same named names => ?_⟩
  · have names := Signed.nodeId_of_message same.symm (request_nodeId request)
    have later := increasing entry member ((recorded.named entry member _ names).symm.trans own)
    rw [Signed.timestamp_of_message same] at later
    exact Nat.lt_irrefl _ later
  · have names := Signed.nodeId_of_message same names
    rw [request_nodeId] at names
    exact (Option.some.inj names).symm.trans own

theorem claimed_fresh (recorded : Recorded library db ledger) (keyed : Keyed db) {payload : NodeClaim}
    {publicKey : String} {nowMs : Timestamp} {code : NodePairingCode} {id : NodeId}
    (knows : Knows library db (.pairing payload publicKey nowMs code)) (new : ∀ row ∈ db.nodes, row.id ≠ id) :
    Fresh library ledger id (payload.signed library publicKey) ∧ code.codeHash ∉ ledger.claimed := by
  obtain ⟨_, member, hash, unclaimed⟩ := knows
  have unused : code.codeHash ∉ ledger.claimed := by
    intro used
    obtain ⟨row, there, same, claimed⟩ := recorded.claimed _ used
    obtain rfl := keyed.code_eq there member same
    exact claimed unclaimed
  refine ⟨⟨fun entry accepted same => ?_, fun entry accepted same => unused ?_,
    fun other same => Signed.action_of_message same, fun other same named names => ?_⟩, unused⟩
  · obtain ⟨row, there, owner, _⟩ := recorded.bounded entry accepted
    exact absurd (owner.trans same) (new row there)
  · have used := recorded.coded entry accepted _ (Signed.code_of_message same.symm rfl)
    rwa [library.upper_upper, ← hash] at used
  · have never := Signed.nodeId_of_message same names
    contradiction

theorem settles_accepts (recorded : Recorded library db ledger) (keyed : Keyed db)
    (knows : Knows library db phase) (settles : Settles library db phase event) :
    Accepts library db ledger event := by
  cases settles with
  | issued | revoked => trivial
  | claimed payload publicKey nowMs code id secret admitted =>
    have new : ∀ row ∈ db.nodes, row.id ≠ id := fun row member => (admits_iff admitted row member).1
    obtain ⟨fresh, unused⟩ := claimed_fresh recorded keyed knows new
    exact ⟨fresh, knows.1, unused, knows.2.2.1, new⟩
  | attested token node request nowMs secret =>
    obtain ⟨found, verified⟩ := knows
    obtain ⟨own, valid⟩ := verifyAttestedRequest_checks verified
    refine ⟨attested_fresh recorded keyed ⟨found, verified⟩, own, ?_, node, found.member, rfl, found.secret,
      found.active, fun last stored => validateTimestamp_last valid stored, verified⟩
    rw [← found.secret]
    exact recorded.replaced node found.member

theorem step_guarded {s t : Service} {label : Nat × Action} (guarded : Guarded locks Keyed (Knows library) s)
    (stepped : step library settings s label = some t) : Guarded locks Keyed (Knows library) t := by
  have knows := guarded.session label.1
  apply guarded.step stepped
  intro outcome chosen
  obtain ⟨result, keeps, arrival⟩ := program_settled chosen
  rw [result]
  have arrives : Knows library s.shared outcome.arrival ∨ outcome.arrival = .idle := by
    rcases arrival with ended | ⟨_, leads⟩
    · exact .inr ended
    · exact .inl (arrives_knows knows leads)
  cases committed : eventOf library settings s.shared (s.locals label.1) label.2 with
  | none =>
    refine ⟨keeps, guarded.global, ?_, fun _ _ other => other⟩
    rcases arrives with known | ended
    · exact known
    · rw [ended]
      trivial
  | some event =>
    have settles := eventOf_settles committed
    refine ⟨keeps, apply_keyed guarded.global settles, ?_, fun _ apart other => knows_others settles apart other⟩
    rcases arrival with ended | ⟨quiet, _⟩
    · rw [ended]
      trivial
    · rw [committed] at quiet
      contradiction

theorem step_audited {s t : Service × Ledger} {label : Nat × Action} (audited : Audited library s)
    (stepped : ledgerStep library settings s label = some t) : Audited library t := by
  obtain ⟨moved, history⟩ := noted_iff.mp stepped
  obtain ⟨outcome, chosen, acted⟩ := Option.bind_eq_some_iff.mp moved
  obtain ⟨result, _⟩ := program_settled chosen
  refine ⟨step_guarded audited.guarded moved, ?_⟩
  rw [history, Store.act_shared acted, result, ledgerAfter]
  cases committed : eventOf library settings s.1.shared (s.1.locals label.1) label.2 with
  | none => exact audited.recorded
  | some event =>
    exact apply_recorded audited.guarded.global audited.recorded (audited.guarded.session label.1)
      (eventOf_settles committed)

theorem step_honours {s : Service × Ledger} {label : Nat × Action} (audited : Audited library s) :
    Honours library settings s label := by
  intro t stepped
  obtain ⟨moved, _⟩ := noted_iff.mp stepped
  obtain ⟨outcome, chosen, acted⟩ := Option.bind_eq_some_iff.mp moved
  obtain ⟨result, _⟩ := program_settled chosen
  rw [Store.act_shared acted, result]
  cases committed : eventOf library settings s.1.shared (s.1.locals label.1) label.2 with
  | none => rfl
  | some event =>
    exact ⟨rfl, settles_accepts audited.recorded audited.guarded.global (audited.guarded.session label.1)
      (eventOf_settles committed)⟩

theorem start_audited (keyed : Keyed db) : Audited library (start db, Ledger.empty) :=
  ⟨Guarded.idle keyed trivial (fun _ never => never) fun _ never => never,
    nofun, nofun, nofun, fun _ _ => List.not_mem_nil, nofun⟩

/-- Every run of the endpoints from tables with their keys. -/
theorem always_honours (library : Library) (settings : Settings) {db : Database} (keyed : Keyed db)
    (labels : List (Nat × Action)) :
    Along (ledgerStep library settings) (Honours library settings) (start db, Ledger.empty) labels := by
  refine along_of_invariant (C := fun _ _ => True) (I := Audited library) ?_ ?_ (start_audited keyed)
    (along_true _ _)
  · exact fun _ _ _ audited _ stepped => step_audited audited stepped
  · exact fun _ _ audited _ => step_honours audited

end Drivebound.Nodes
