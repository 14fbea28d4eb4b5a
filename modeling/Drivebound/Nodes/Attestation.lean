import Drivebound.Core.Json
import Drivebound.Passkeys.Database

/-! The messages of `services/node_attestation.py` that a storage node signs, and how they
are validated. Their canonical spelling tells which action they are for and by which node. -/
namespace Drivebound.Nodes
open Json Passkeys

/-- `text.encode("utf-8")` -/
def encodeUtf8 (text : List Char) : Bytes := (String.ofList text).toByteArray.data.toList

def decodeUtf8 (raw : Bytes) : Option (List Char) := (String.fromUTF8? ⟨raw.toArray⟩).map String.toList

theorem decodeUtf8_encodeUtf8 (text : List Char) : decodeUtf8 (encodeUtf8 text) = some text := by
  have whole : (⟨(encodeUtf8 text).toArray⟩ : ByteArray) = (String.ofList text).toByteArray := by
    rw [encodeUtf8, Array.toArray_toList]
  unfold decodeUtf8
  rw [whole, String.fromUTF8?, dif_pos (String.ofList text).isValidUTF8]
  exact congrArg some String.toList_ofList

theorem encodeUtf8_injective : Function.Injective encodeUtf8 := by
  intro text other same
  have read := decodeUtf8_encodeUtf8 text
  rw [same, decodeUtf8_encodeUtf8] at read
  exact (Option.some.inj read).symm

/-- A UUID as `str` spells it. -/
abbrev NodeId := String

/-- A payload before it is encoded. -/
abbrev Message := List Char

/-- What is neither here nor pure: `str.upper`, `token_digest` and the Ed25519 library. -/
structure Library where
  upper : String → String
  upper_upper : ∀ text, upper (upper text) = upper text
  tokenDigest : String → String
  fromPublicBytes : Bytes → Bool
  verify : Bytes → Bytes → Message → Bool

def PUBLIC_KEY_BYTES : Nat := 32

def SIGNATURE_BYTES : Nat := 64

def MAX_ATTESTATION_AGE_MS : Nat := 5 * 60 * 1000

def MAX_ATTESTATION_FUTURE_MS : Nat := 30 * 1000

/-- The bits of a character; `b64decode` takes the plain alphabet as well as the other one. -/
def sextet (c : Char) : Option Nat :=
  let alphabet := "ABCDEFGHIJKLMNOPQRSTUVWXYZabcdefghijklmnopqrstuvwxyz0123456789-_".toList
  if c = '+' then some 62 else if c = '/' then some 63
  else if c ∈ alphabet then some (alphabet.idxOf c) else none

/-- `b64decode` of a text with its padding added; the bits that are left over are dropped. -/
def ofSextets : List Nat → Option Bytes
  | a :: b :: c :: d :: rest => (ofSextets rest).map fun raw =>
      UInt8.ofNat (a * 4 + b / 16) :: UInt8.ofNat (b % 16 * 16 + c / 4) :: UInt8.ofNat (c % 4 * 64 + d) :: raw
  | [a, b, c] => some [UInt8.ofNat (a * 4 + b / 16), UInt8.ofNat (b % 16 * 16 + c / 4)]
  | [a, b] => some [UInt8.ofNat (a * 4 + b / 16)]
  | [_] => none
  | [] => some []

def decodeBase64url (value : String) (expectedBytes : Nat) (label : String) : Except String Bytes :=
  match if value = "" then none else (value.toList.mapM sextet).bind ofSextets with
  | none => .error (label ++ " must be canonical unpadded base64url")
  | some decoded =>
    if decoded.length ≠ expectedBytes ∨ urlsafeB64 decoded ≠ value.toList then
      .error (label ++ " has an invalid Ed25519 length or encoding")
    else .ok decoded

def canonicalPayload (action : String) (fields : List (String × Value)) : Message :=
  dumps (.object (("action", .string action) :: fields))

def optional : Option String → Value
  | none => .null
  | some text => .string text

def heartbeatPayload (nodeId : NodeId) (timestampMs : Nat) (version : Option String)
    (capabilities : List (String × Value)) : Message :=
  canonicalPayload "heartbeat" [("node_id", .string nodeId), ("timestamp_ms", .number (.ofNat timestampMs)),
    ("version", optional version), ("capabilities", .object capabilities)]

def claimPayload (library : Library) (code name publicKey : String) (timestampMs : Nat)
    (endpointUrl : Option String) : Message :=
  canonicalPayload "claim" [("code", .string (library.upper code)), ("name", .string name),
    ("public_key", .string publicKey), ("timestamp_ms", .number (.ofNat timestampMs)),
    ("endpoint_url", optional endpointUrl)]

def rotationPayload (nodeId : NodeId) (timestampMs : Nat) : Message :=
  canonicalPayload "rotate_secret" [("node_id", .string nodeId), ("timestamp_ms", .number (.ofNat timestampMs))]

/-- What a payload is made of. -/
inductive Signed where
  | claim (code name publicKey : String) (timestampMs : Nat) (endpointUrl : Option String)
  | heartbeat (nodeId : NodeId) (timestampMs : Nat) (version : Option String)
      (capabilities : List (String × Value))
  | rotateSecret (nodeId : NodeId) (timestampMs : Nat)

namespace Signed

def message (library : Library) : Signed → Message
  | .claim code name publicKey timestampMs endpointUrl =>
    claimPayload library code name publicKey timestampMs endpointUrl
  | .heartbeat nodeId timestampMs version capabilities =>
    heartbeatPayload nodeId timestampMs version capabilities
  | .rotateSecret nodeId timestampMs => rotationPayload nodeId timestampMs

def action : Signed → String
  | .claim .. => "claim"
  | .heartbeat .. => "heartbeat"
  | .rotateSecret .. => "rotate_secret"

def timestampMs : Signed → Nat
  | .claim _ _ _ timestampMs _ | .heartbeat _ timestampMs _ _ | .rotateSecret _ timestampMs => timestampMs

/-- The node that a message names, which a claim has not got yet. -/
def nodeId : Signed → Option NodeId
  | .claim .. => none
  | .heartbeat nodeId .. | .rotateSecret nodeId _ => some nodeId

/-- The code that a claim names. -/
def code (library : Library) : Signed → Option String
  | .claim code .. => some (library.upper code)
  | _ => none

end Signed

def validateTimestamp (timestampMs : Nat) (lastTimestampMs : Option Nat) (nowMs : Nat) : Except String Unit :=
  if timestampMs + MAX_ATTESTATION_AGE_MS < nowMs then .error "Attestation timestamp is stale"
  else if nowMs + MAX_ATTESTATION_FUTURE_MS < timestampMs then
    .error "Attestation timestamp is too far in the future"
  else if lastTimestampMs.any (timestampMs ≤ ·) then .error "Attestation timestamp was already used"
  else .ok ()

def verifySignature (library : Library) (publicKey signature : String) (message : Message) :
    Except String Unit := do
  let rawKey ← decodeBase64url publicKey PUBLIC_KEY_BYTES "public_key"
  let rawSignature ← decodeBase64url signature SIGNATURE_BYTES "signature"
  if library.verify rawKey rawSignature message then .ok ()
  else .error "Ed25519 signature verification failed"

/-- The canonical spelling of the key is the one that was given. -/
def validatePublicKey (library : Library) (publicKey : String) : Except String String := do
  let rawKey ← decodeBase64url publicKey PUBLIC_KEY_BYTES "public_key"
  if library.fromPublicBytes rawKey then .ok (String.ofList (urlsafeB64 rawKey))
  else .error "An Ed25519 public key is 32 bytes long"

variable {library : Library}

/-- The members of a payload. -/
def Signed.fields (library : Library) : Signed → List (String × Value)
  | .claim code name publicKey timestampMs endpointUrl =>
    [("code", .string (library.upper code)), ("name", .string name), ("public_key", .string publicKey),
      ("timestamp_ms", .number (.ofNat timestampMs)), ("endpoint_url", optional endpointUrl)]
  | .heartbeat nodeId timestampMs version capabilities =>
    [("node_id", .string nodeId), ("timestamp_ms", .number (.ofNat timestampMs)),
      ("version", optional version), ("capabilities", .object capabilities)]
  | .rotateSecret nodeId timestampMs =>
    [("node_id", .string nodeId), ("timestamp_ms", .number (.ofNat timestampMs))]

theorem Signed.message_eq (s : Signed) : s.message library =
    dumps (.object (("action", .string s.action) :: s.fields library)) := by
  cases s <;> rfl

variable {s t : Signed}

/-- A message is for one action. -/
theorem Signed.action_of_message (same : s.message library = t.message library) : s.action = t.action := by
  rw [Signed.message_eq, Signed.message_eq] at same
  have member := string_of_dumps_eq same List.mem_cons_self
  cases t <;> simpa [Signed.fields, optional] using member

theorem Signed.timestamp_of_message (same : s.message library = t.message library) :
    s.timestampMs = t.timestampMs := by
  rw [Signed.message_eq, Signed.message_eq] at same
  have stamped : ("timestamp_ms", Value.number (.ofNat s.timestampMs)) ∈
      ("action", .string s.action) :: s.fields library := by
    cases s <;> simp [Signed.fields, Signed.timestampMs]
  have member := number_of_dumps_eq same stamped
  apply Number.ofNat_injective
  cases t <;> simpa [Signed.fields, Signed.timestampMs, optional] using member

/-- And for the node that it names. -/
theorem Signed.nodeId_of_message (same : s.message library = t.message library) {nodeId : NodeId}
    (names : s.nodeId = some nodeId) : t.nodeId = some nodeId := by
  rw [Signed.message_eq, Signed.message_eq] at same
  have named : ("node_id", Value.string nodeId) ∈ ("action", .string s.action) :: s.fields library := by
    cases s with
    | claim => contradiction
    | _ =>
      cases names
      simp [Signed.fields]
  have member := string_of_dumps_eq same named
  cases t with
  | claim code name publicKey timestampMs endpointUrl => simp [Signed.fields] at member
  | heartbeat other timestampMs version capabilities =>
    obtain rfl : nodeId = other := by simpa [Signed.fields] using member
    rfl
  | rotateSecret other timestampMs =>
    obtain rfl : nodeId = other := by simpa [Signed.fields] using member
    rfl

theorem Signed.code_of_message (same : s.message library = t.message library) {code : String}
    (names : s.code library = some code) : t.code library = some code := by
  rw [Signed.message_eq, Signed.message_eq] at same
  have named : ("code", Value.string code) ∈ ("action", .string s.action) :: s.fields library := by
    cases s with
    | claim =>
      cases names
      simp [Signed.fields]
    | _ => contradiction
  have member := string_of_dumps_eq same named
  cases t with
  | claim other name publicKey timestampMs endpointUrl =>
    obtain rfl : code = library.upper other := by simpa [Signed.fields] using member
    rfl
  | _ => simp [Signed.fields] at member

end Drivebound.Nodes
