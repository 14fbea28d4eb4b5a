import Drivebound.Timeline.Cursor

/-! The two copies of `decode_base64url`, of `services/node_attestation.py` and of
`drivebound_node.py`: a byte string has one spelling, and nothing else is accepted. -/
namespace Drivebound.Nodes
open Passkeys Timeline

/-- `urlsafe_b64encode` without its padding, as text. -/
def encodeBase64url (raw : Bytes) : String := String.ofList (urlsafeB64 raw)

/-- The copy of the node client, which has no label and looks for padding before it decodes. -/
def Client.decodeBase64url (value : String) (expectedBytes : Nat) : Except String Bytes :=
  if value = "" ∨ '=' ∈ value.toList then .error "Expected canonical unpadded base64url"
  else
    match b64decode value.toList with
    | none => .error "Expected canonical unpadded base64url"
    | some raw =>
      if raw.length ≠ expectedBytes ∨ encodeBase64url raw ≠ value then
        .error "Encoded Ed25519 material has an invalid length"
      else .ok raw

variable {n : Nat} {value : String} {raw : Bytes}

theorem encodeBase64url_toList (raw : Bytes) : (encodeBase64url raw).toList = urlsafeB64 raw := String.toList_ofList

theorem urlsafeB64_nonempty (filled : 0 < raw.length) : urlsafeB64 raw ≠ [] := by
  cases raw with
  | nil => exact absurd filled (Nat.lt_irrefl 0)
  | cons a rest =>
    cases rest with
    | nil => exact List.cons_ne_nil _ _
    | cons b rest =>
      cases rest with
      | nil => exact List.cons_ne_nil _ _
      | cons c rest => exact List.cons_ne_nil _ _

/-- The encoding of a byte string that is not empty has a character and no padding. -/
theorem encodeBase64url_plain (filled : 0 < raw.length) :
    encodeBase64url raw ≠ "" ∧ '=' ∉ (encodeBase64url raw).toList := by
  rw [encodeBase64url_toList]
  constructor
  · intro empty
    have nothing := congrArg String.toList empty
    rw [encodeBase64url_toList] at nothing
    exact urlsafeB64_nonempty filled nothing
  · intro padded
    exact urlsafeB64_plain raw '=' padded rfl

/-- The server accepts an encoding of the length and nothing else. -/
theorem decodeBase64url_iff (positive : 0 < n) (value label : String) (raw : Bytes) :
    decodeBase64url value n label = .ok raw ↔ raw.length = n ∧ encodeBase64url raw = value := by
  constructor
  · intro decoded
    unfold decodeBase64url at decoded
    split at decoded
    · cases decoded
    · split_ifs at decoded with refused
      cases decoded
      rw [not_or, not_not, not_not] at refused
      refine ⟨refused.1, ?_⟩
      rw [encodeBase64url, refused.2, String.ofList_toList]
  · rintro ⟨rfl, rfl⟩
    unfold decodeBase64url
    rw [if_neg (encodeBase64url_plain positive).1, encodeBase64url_toList, ofSextets_urlsafeB64]
    simp

/-- The client accepts the same. -/
theorem clientDecodeBase64url_iff (positive : 0 < n) (value : String) (raw : Bytes) :
    Client.decodeBase64url value n = .ok raw ↔ raw.length = n ∧ encodeBase64url raw = value := by
  constructor
  · intro decoded
    unfold Client.decodeBase64url at decoded
    split_ifs at decoded with padded
    split at decoded
    · cases decoded
    · split_ifs at decoded with refused
      cases decoded
      rw [not_or, not_not, not_not] at refused
      exact refused
  · rintro ⟨rfl, rfl⟩
    obtain ⟨filled, unpadded⟩ := encodeBase64url_plain positive
    unfold Client.decodeBase64url
    rw [if_neg (not_or.mpr ⟨filled, unpadded⟩), encodeBase64url_toList, b64decode_urlsafeB64]
    simp

/-- A byte string has one encoding. -/
theorem encodeBase64url_injective {other : Bytes} (same : encodeBase64url raw = encodeBase64url other) : raw = other := by
  have texts := congrArg String.toList same
  rw [encodeBase64url_toList, encodeBase64url_toList] at texts
  have decoded := ofSextets_urlsafeB64 raw
  rw [texts, ofSextets_urlsafeB64] at decoded
  exact (Option.some.inj decoded).symm

/-- For a length that is not zero, both copies accept exactly the encodings of byte strings of
that length, and return the one byte string that has the encoding. -/
theorem decodeBase64url_canonical (n : Nat) (positive : 0 < n) (value label : String) :
    ((∃ raw, decodeBase64url value n label = .ok raw) ↔ ∃ raw : Bytes, raw.length = n ∧ encodeBase64url raw = value) ∧
      (∀ raw, decodeBase64url value n label = .ok raw →
        ∀ other : Bytes, encodeBase64url other = value ↔ other = raw) ∧
      ∀ raw, Client.decodeBase64url value n = .ok raw ↔ decodeBase64url value n label = .ok raw := by
  refine ⟨exists_congr fun raw => decodeBase64url_iff positive value label raw, ?_, ?_⟩
  · intro raw decoded other
    obtain ⟨-, rfl⟩ := (decodeBase64url_iff positive value label raw).mp decoded
    exact ⟨fun same => encodeBase64url_injective same, congrArg encodeBase64url⟩
  · intro raw
    rw [clientDecodeBase64url_iff positive, decodeBase64url_iff positive]

/-- Of the spellings of one byte that differ in the bits left over, one is accepted. -/
theorem decodeBase64url_canonical_byte : decodeBase64url "_w" 1 "public_key" = .ok [255] ∧
    ∀ raw, Client.decodeBase64url "_w" 1 = .ok raw ↔ decodeBase64url "_w" 1 "public_key" = .ok raw :=
  ⟨by decide +kernel, (decodeBase64url_canonical 1 (by decide) "_w" "public_key").2.2⟩

end Drivebound.Nodes
