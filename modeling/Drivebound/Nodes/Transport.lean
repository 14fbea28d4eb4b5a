import Drivebound.Core.JsonEqual
import Drivebound.Core.Uuid
import Drivebound.Nodes.Capabilities
import Drivebound.Nodes.Client
import Mathlib

/-! The signed documents on their way: what the client of `tools/drivebound_node.py` signs and
sends, and what the schemas of the server make of the body. -/
namespace Drivebound.Nodes
open Json Passkeys

/-! ### The client's copies -/

namespace Tool

def canonicalPayload (action : String) (fields : List (String × Value)) : Message :=
  dumps (.object (("action", .string action) :: fields))

def heartbeatPayload (nodeId : String) (timestampMs : Nat) (version : Option String)
    (capabilities : List (String × Value)) : Option Message := do
  let id ← Uuid.ofText nodeId
  return canonicalPayload "heartbeat" [("node_id", .string id.str), ("timestamp_ms", .number (.ofNat timestampMs)),
    ("version", optional version), ("capabilities", .object capabilities)]

def claimPayload (library : Library) (code name publicKey : String) (timestampMs : Nat)
    (endpointUrl : Option String) : Message :=
  canonicalPayload "claim" [("code", .string (library.upper code)), ("name", .string name),
    ("public_key", .string publicKey), ("timestamp_ms", .number (.ofNat timestampMs)),
    ("endpoint_url", optional endpointUrl)]

def rotationPayload (nodeId : String) (timestampMs : Nat) : Option Message := do
  let id ← Uuid.ofText nodeId
  return canonicalPayload "rotate_secret" [("node_id", .string id.str), ("timestamp_ms", .number (.ofNat timestampMs))]

/-- `json.dumps(data, allow_nan=False).encode("utf-8")` -/
def request (data : List (String × Value)) : Bytes := encodeUtf8 (Style.spell ⟨true, true⟩ (.object data))

def sendHeartbeat (nodeId : String) (timestampMs : Nat) (version : Option String)
    (capabilities : List (String × Value)) (signature : String) : Bytes :=
  request [("node_id", .string nodeId), ("timestamp_ms", .number (.ofNat timestampMs)),
    ("version", optional version), ("capabilities", .object capabilities), ("signature", .string signature)]

/-- `pair_node`: the code is spelled in capitals before it is signed and sent. -/
def pairNode (library : Library) (pairCode name publicKey : String) (timestampMs : Nat) (signature : String) :
    Message × Bytes :=
  let code := library.upper pairCode
  (claimPayload library code name publicKey timestampMs none,
    request [("code", .string code), ("name", .string name), ("public_key", .string publicKey),
      ("timestamp_ms", .number (.ofNat timestampMs)), ("signature", .string signature), ("endpoint_url", .null)])

def rotateSecret (nodeId : String) (timestampMs : Nat) (signature : String) : Bytes :=
  request [("node_id", .string nodeId), ("timestamp_ms", .number (.ofNat timestampMs)),
    ("signature", .string signature)]

end Tool

/-! ### The server's schemas -/

/-- A transport document has no lone surrogates and spells its numbers. -/
def boundedCapabilities (value : List (String × Value)) : Except String (List (String × Value)) :=
  (Capabilities.verdict (Capabilities.ofMembers value)).map fun _ => value

/-- The whole numbers of JSON that are not negative. -/
def natOf : Value → Option Nat
  | .number n => if n.text.all Char.isDigit then some (Nat.ofDigitChars 10 n.text 0) else none
  | _ => none

def textOf : Value → Option String
  | .string text => some text
  | _ => none

/-- `Field(min_length=..., max_length=...)` -/
def bounded (low high : Nat) (text : String) : Option String :=
  if low ≤ text.length ∧ text.length ≤ high then some text else none

/-- A field that may be missing or null. -/
def optionalOf (members : List (String × Value)) (key : String) (validate : String → Option String) :
    Option (Option String) :=
  match Dict.get? members key with
  | none | some .null => some none
  | some a => do
    let text ← textOf a
    let valid ← validate text
    return some valid

def required {α : Type} (members : List (String × Value)) (key : String) (validate : Value → Option α) : Option α := do
  validate (← Dict.get? members key)

def positive (a : Value) : Option Nat := do
  let n ← natOf a
  if 0 < n then some n else none

def uuidOf (a : Value) : Option NodeId := do
  let id ← Uuid.validate (← textOf a)
  return id.str

def boundedOf (low high : Nat) (a : Value) : Option String := do
  bounded low high (← textOf a)

def capabilitiesOf (members : List (String × Value)) : Option Capabilities :=
  match Dict.get? members "capabilities" with
  | none => some []
  | some (.object capabilities) => (boundedCapabilities capabilities).toOption
  | some _ => none

def validateHeartbeat (members : List (String × Value)) : Option NodeHeartbeat := do
  return {
    nodeId := ← required members "node_id" uuidOf
    timestampMs := ← required members "timestamp_ms" positive
    version := ← optionalOf members "version" (bounded 0 64)
    capabilities := ← capabilitiesOf members
    signature := ← required members "signature" (boundedOf 86 86) }

/-- The URL of a claim goes through `AnyHttpUrl`. -/
def validateClaim (anyHttpUrl : String → Option String) (members : List (String × Value)) : Option NodeClaim := do
  return {
    code := ← required members "code" (boundedOf 8 16)
    name := ← required members "name" (boundedOf 1 255)
    publicKey := ← required members "public_key" (boundedOf 43 43)
    timestampMs := ← required members "timestamp_ms" positive
    signature := ← required members "signature" (boundedOf 86 86)
    endpointUrl := ← optionalOf members "endpoint_url" anyHttpUrl }

def validateRotation (members : List (String × Value)) : Option NodeSecretRotation := do
  return {
    nodeId := ← required members "node_id" uuidOf
    timestampMs := ← required members "timestamp_ms" positive
    signature := ← required members "signature" (boundedOf 86 86) }

/-- `await request.json()` and the schema. -/
def receive {α : Type} (validate : List (String × Value) → Option α) (body : Bytes) : Option α :=
  match (decodeUtf8 body).bind loads with
  | some (.object members) => validate members
  | _ => none

/-! ### What arrives is what was sent -/

theorem natOf_ofNat (n : Nat) : natOf (.number (.ofNat n)) = some n := by
  have digits : (Number.ofNat n).text.all Char.isDigit = true := by
    apply List.all_eq_true.mpr
    intro c member
    exact Nat.isDigit_of_mem_toDigits (by decide) (by decide) member
  rw [natOf, if_pos digits]
  exact congrArg some Nat.ofDigitChars_ten_toDigits

theorem receive_request {α : Type} (validate : List (String × Value) → Option α) {data : List (String × Value)}
    (valid : (Value.object data).Valid) : receive validate (Tool.request data) = validate data := by
  rw [receive, Tool.request, decodeUtf8_encodeUtf8, Option.bind_some, loads_spell _ _ valid]

theorem valid_optional (text : Option String) : (optional text).Valid := by
  cases text <;> trivial

theorem optionalOf_optional {members : List (String × Value)} {key : String} {validate : String → Option String}
    {text version : Option String} (sent : Dict.get? members key = some (optional text))
    (same : ∀ text valid, validate text = some valid → valid = text)
    (read : optionalOf members key validate = some version) : version = text := by
  unfold optionalOf at read
  rw [sent] at read
  cases text with
  | none => exact (Option.some.inj read).symm
  | some text =>
    cases valid : validate text with
    | none =>
      simp [optional, textOf, valid] at read
    | some result =>
      simp only [optional, textOf, valid, Option.bind_eq_bind, Option.bind_some, Option.pure_def, Option.some.injEq] at read
      rw [← read, same text result valid]

theorem boundedCapabilities_ok {value bound : List (String × Value)} (ok : boundedCapabilities value = .ok bound) :
    bound = value := by
  unfold boundedCapabilities at ok
  cases judged : Capabilities.verdict (Capabilities.ofMembers value) with
  | error detail =>
    rw [judged] at ok
    cases ok
  | ok _ =>
    rw [judged] at ok
    exact (Except.ok.inj ok).symm

/-- What is accepted is spelled in so many bytes. -/
theorem boundedCapabilities_bytes {value bound : List (String × Value)} (ok : boundedCapabilities value = .ok bound) :
    (encodeUtf8 (dumps (.object value))).length ≤ Capabilities.MAX_CAPABILITY_BYTES := by
  unfold boundedCapabilities at ok
  cases judged : Capabilities.verdict (Capabilities.ofMembers value) with
  | error detail =>
    rw [judged] at ok
    cases ok
  | ok _ =>
    obtain ⟨encoded, spelled, short⟩ := ((Capabilities.verdict_ok_iff _).mp judged).encoded
    rw [Capabilities.canonical_ofMembers] at spelled
    exact Option.some.inj spelled ▸ short

theorem bounded_some {low high : Nat} {text valid : String} (read : bounded low high text = some valid) :
    valid = text := by
  unfold bounded at read
  split at read
  · exact (Option.some.inj read).symm
  · cases read

section Fields
variable {members : List (String × Value)} {key : String}

theorem required_some {α : Type} {validate : Value → Option α} {a : Value} {result : α}
    (sent : Dict.get? members key = some a) (read : required members key validate = some result) :
    validate a = some result := by
  rwa [required, sent] at read

theorem uuid_arrives {nodeId : String} {id : NodeId} (sent : Dict.get? members key = some (.string nodeId))
    (read : required members key uuidOf = some id) : ∃ u, Uuid.ofText nodeId = some u ∧ u.str = id := by
  have valid := required_some sent read
  simp only [uuidOf, textOf, Option.bind_eq_bind, Option.bind_some, Option.bind_eq_some_iff, Option.pure_def,
    Option.some.injEq] at valid
  obtain ⟨u, shown, rfl⟩ := valid
  exact ⟨u, Uuid.ofText_of_validate shown, rfl⟩

theorem timestamp_arrives {timestampMs n : Nat} (sent : Dict.get? members key = some (.number (.ofNat timestampMs)))
    (read : required members key positive = some n) : n = timestampMs := by
  have valid := required_some sent read
  rw [positive, natOf_ofNat] at valid
  dsimp only [bind, Option.bind] at valid
  split at valid
  · exact (Option.some.inj valid).symm
  · cases valid

theorem text_arrives {low high : Nat} {text result : String} (sent : Dict.get? members key = some (.string text))
    (read : required members key (boundedOf low high) = some result) : result = text := by
  have valid := required_some sent read
  exact bounded_some valid

end Fields

theorem valid_heartbeat {nodeId : String} {timestampMs : Nat} {version : Option String}
    {capabilities : List (String × Value)} {signature : String} (valid : (Value.object capabilities).Valid) :
    (Value.object [("node_id", .string nodeId), ("timestamp_ms", .number (.ofNat timestampMs)),
      ("version", optional version), ("capabilities", .object capabilities), ("signature", .string signature)]).Valid := by
  have keyed : ["node_id", "timestamp_ms", "version", "capabilities", "signature"].Nodup := by decide
  exact ⟨keyed, trivial, isNumber_ofNat _, valid_optional _, valid, trivial, trivial⟩

theorem heartbeat_arrives {nodeId : String} {timestampMs : Nat} {version : Option String}
    {capabilities : List (String × Value)} {signature : String} {payload : NodeHeartbeat}
    (valid : (Value.object capabilities).Valid)
    (received : receive validateHeartbeat (Tool.sendHeartbeat nodeId timestampMs version capabilities signature) =
      some payload) :
    (∃ u, Uuid.ofText nodeId = some u ∧ u.str = payload.nodeId) ∧ payload.timestampMs = timestampMs ∧
      payload.version = version ∧ payload.capabilities = capabilities := by
  unfold Tool.sendHeartbeat at received
  rw [receive_request] at received
  · simp only [validateHeartbeat, Option.bind_eq_bind, Option.bind_eq_some_iff, Option.pure_def, Option.some.injEq]
      at received
    obtain ⟨id, shown, time, stamped, version', versioned, bound, kept, _, _, rfl⟩ := received
    refine ⟨uuid_arrives rfl shown, timestamp_arrives rfl stamped, ?_, ?_⟩
    · exact optionalOf_optional rfl (fun _ _ read => bounded_some read) versioned
    · have limited : (boundedCapabilities capabilities).toOption = some bound := kept
      cases result : boundedCapabilities capabilities with
      | error _ =>
        rw [result] at limited
        cases limited
      | ok same =>
        rw [result] at limited
        obtain rfl := Option.some.inj limited
        exact boundedCapabilities_ok result
  · exact valid_heartbeat valid

theorem rotation_arrives {nodeId : String} {timestampMs : Nat} {signature : String} {payload : NodeSecretRotation}
    (received : receive validateRotation (Tool.rotateSecret nodeId timestampMs signature) = some payload) :
    (∃ u, Uuid.ofText nodeId = some u ∧ u.str = payload.nodeId) ∧ payload.timestampMs = timestampMs := by
  unfold Tool.rotateSecret at received
  rw [receive_request] at received
  · simp only [validateRotation, Option.bind_eq_bind, Option.bind_eq_some_iff, Option.pure_def, Option.some.injEq]
      at received
    obtain ⟨id, shown, time, stamped, _, _, rfl⟩ := received
    exact ⟨uuid_arrives rfl shown, timestamp_arrives rfl stamped⟩
  · have keyed : ["node_id", "timestamp_ms", "signature"].Nodup := by decide
    exact ⟨keyed, trivial, isNumber_ofNat _, trivial, trivial⟩

theorem claim_arrives {library : Library} {anyHttpUrl : String → Option String} {pairCode name publicKey : String}
    {timestampMs : Nat} {signature : String} {payload : NodeClaim}
    (received : receive (validateClaim anyHttpUrl)
      (Tool.pairNode library pairCode name publicKey timestampMs signature).2 = some payload) :
    payload.code = library.upper pairCode ∧ payload.name = name ∧ payload.publicKey = publicKey ∧
      payload.timestampMs = timestampMs ∧ payload.endpointUrl = none := by
  unfold Tool.pairNode at received
  dsimp only at received
  rw [receive_request] at received
  · simp only [validateClaim, Option.bind_eq_bind, Option.bind_eq_some_iff, Option.pure_def, Option.some.injEq]
      at received
    obtain ⟨code, coded, name', named, key, keyed, time, stamped, _, _, url, linked, rfl⟩ := received
    exact ⟨text_arrives rfl coded, text_arrives rfl named, text_arrives rfl keyed, timestamp_arrives rfl stamped,
      (Option.some.inj linked).symm⟩
  · have keyed : ["code", "name", "public_key", "timestamp_ms", "signature", "endpoint_url"].Nodup := by decide
    exact ⟨keyed, trivial, trivial, trivial, isNumber_ofNat _, trivial, trivial, trivial⟩

/-- The key that the server spells anew is the one that it was given. -/
theorem validatePublicKey_ok {library : Library} {publicKey key : String}
    (valid : validatePublicKey library publicKey = .ok key) : key = publicKey := by
  unfold validatePublicKey decodeBase64url at valid
  dsimp only [bind, Except.bind] at valid
  split at valid
  · cases valid
  · next raw decoded =>
    split at decoded
    · cases decoded
    · next bytes _ =>
      split at decoded
      · cases decoded
      · next canonical =>
        obtain rfl := Except.ok.inj decoded
        split at valid
        · have spelled := not_or.mp canonical |>.2
          rw [not_not] at spelled
          rw [← Except.ok.inj valid, spelled, String.ofList_toList]
        · cases valid

/-! ### The canonical spelling tells the document -/

theorem SameMembers.values {members others : List (String × Value)} (same : SameMembers members others) {key : String}
    {a : Value} (member : (key, a) ∈ members) : ∃ b, (key, b) ∈ others ∧ Same a b := by
  induction members generalizing others with
  | nil => exact absurd member List.not_mem_nil
  | cons first rest ih =>
    cases same with
    | cons equal later =>
      rcases List.mem_cons.mp member with here | after
      · obtain ⟨rfl, rfl⟩ := Prod.mk.inj here
        exact ⟨_, List.mem_cons_self, equal⟩
      · obtain ⟨b, among, same⟩ := ih later after
        exact ⟨b, List.mem_cons_of_mem _ among, same⟩

/-- A member with a key of its own can be taken off both sides. -/
theorem Same.tail {key : String} {a b : Value} {members others : List (String × Value)}
    (own : key ∉ members.map Prod.fst) (same : Same (.object ((key, a) :: members)) (.object ((key, b) :: others))) :
    Same a b ∧ Same (.object members) (.object others) := by
  cases same with
  | object perm equal =>
    cases equal with
    | cons first rest =>
      next c between =>
      have among : (key, c) ∈ (key, a) :: members := perm.mem_iff.mpr List.mem_cons_self
      rcases List.mem_cons.mp among with here | after
      · obtain ⟨-, rfl⟩ := Prod.mk.inj here
        exact ⟨first, .object (List.perm_cons _ |>.mp perm) rest⟩
      · exact absurd (List.mem_map_of_mem (f := Prod.fst) after) own

theorem canonicalPayload_injective {action other : String} {fields others : List (String × Value)}
    (own : "action" ∉ fields.map Prod.fst)
    (same : encodeUtf8 (canonicalPayload action fields) = encodeUtf8 (canonicalPayload other others)) :
    action = other ∧ Same (.object fields) (.object others) := by
  obtain ⟨actions, rest⟩ := Same.tail own (same_of_dumps_eq (encodeUtf8_injective same))
  cases actions with
  | string => exact ⟨rfl, rest⟩

/-- Whatever is signed and received after its way as JSON has the same bytes on both sides. -/
def Survives (library : Library) : Prop :=
  (∀ nodeId timestampMs version capabilities signature message payload, (Value.object capabilities).Valid →
    Tool.heartbeatPayload nodeId timestampMs version capabilities = some message →
    receive validateHeartbeat (Tool.sendHeartbeat nodeId timestampMs version capabilities signature) = some payload →
    encodeUtf8 message = encodeUtf8 ((NodeRequest.heartbeat payload).signed.message library)) ∧
  (∀ nodeId timestampMs signature message payload, Tool.rotationPayload nodeId timestampMs = some message →
    receive validateRotation (Tool.rotateSecret nodeId timestampMs signature) = some payload →
    encodeUtf8 message = encodeUtf8 ((NodeRequest.rotateSecret payload).signed.message library)) ∧
  ∀ anyHttpUrl pairCode name publicKey timestampMs signature payload key,
    receive (validateClaim anyHttpUrl) (Tool.pairNode library pairCode name publicKey timestampMs signature).2 =
      some payload →
    validatePublicKey library payload.publicKey = .ok key →
    encodeUtf8 (Tool.pairNode library pairCode name publicKey timestampMs signature).1 =
      encodeUtf8 ((payload.signed library key).message library)

theorem survives (library : Library) : Survives library := by
  refine ⟨?_, ?_, ?_⟩
  · intro nodeId timestampMs version capabilities signature message payload valid signed received
    obtain ⟨⟨u, read, id⟩, time, versions, kept⟩ := heartbeat_arrives valid received
    rw [Tool.heartbeatPayload, read] at signed
    obtain rfl := Option.some.inj signed
    rw [id, ← time, ← versions, ← kept]
    rfl
  · intro nodeId timestampMs signature message payload signed received
    obtain ⟨⟨u, read, id⟩, time⟩ := rotation_arrives received
    rw [Tool.rotationPayload, read] at signed
    obtain rfl := Option.some.inj signed
    rw [id, ← time]
    rfl
  · intro anyHttpUrl pairCode name publicKey timestampMs signature payload key received valid
    obtain ⟨code, named, keyed, time, url⟩ := claim_arrives received
    obtain rfl := validatePublicKey_ok valid
    unfold NodeClaim.signed
    rw [code, named, keyed, time, url, library.upper_upper]
    rfl

theorem signed_documents_survive_transport (library : Library) :
    (∀ (action other : String) (fields others : List (String × Value)), "action" ∉ fields.map Prod.fst →
      encodeUtf8 (canonicalPayload action fields) = encodeUtf8 (canonicalPayload other others) →
      action = other ∧ Same (.object fields) (.object others)) ∧
    (∀ signed other : Signed, encodeUtf8 (signed.message library) = encodeUtf8 (other.message library) →
      signed.action = other.action) ∧
    Survives library := by
  refine ⟨fun _ _ _ _ own same => canonicalPayload_injective own same, ?_, survives library⟩
  exact fun signed other same => Signed.action_of_message (encodeUtf8_injective same)

def atticId : String := "\x7b11111111-2222-3333-4444-55555555ABCD\x7d"

def attic : List (String × Value) :=
  [("storage", .object [("volumes", .number (.ofNat 2)), ("label", .string "Büro \"1\"\n")]), ("backup", .bool true)]

theorem signed_documents_survive_transport_attic : ∃ message payload,
    Tool.heartbeatPayload atticId 4000 (some "0.2.0") attic = some message ∧
    receive validateHeartbeat (Tool.sendHeartbeat atticId 4000 (some "0.2.0") attic zeroSignature) = some payload ∧
    encodeUtf8 message = encodeUtf8 ((NodeRequest.heartbeat payload).signed.message capitals) := by
  have keyed : ["storage", "backup"].Nodup ∧ ["volumes", "label"].Nodup := by decide
  have valid : (Value.object attic).Valid := ⟨keyed.1, ⟨keyed.2, isNumber_ofNat 2, trivial, trivial⟩, trivial, trivial⟩
  have signs : (Tool.heartbeatPayload atticId 4000 (some "0.2.0") attic).isSome = true := by decide +kernel
  have arrives : (receive validateHeartbeat
      (Tool.sendHeartbeat atticId 4000 (some "0.2.0") attic zeroSignature)).isSome = true := by
    rw [Tool.sendHeartbeat, receive_request _ (valid_heartbeat valid)]
    decide +kernel
  obtain ⟨message, signed⟩ := Option.isSome_iff_exists.mp signs
  obtain ⟨payload, received⟩ := Option.isSome_iff_exists.mp arrives
  exact ⟨message, payload, signed, received,
    (signed_documents_survive_transport capitals).2.2.1 _ _ _ _ _ _ _ valid signed received⟩

end Drivebound.Nodes
