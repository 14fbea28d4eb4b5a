import Drivebound.Core.Effects
import Mathlib.Tactic.SplitIfs

/-! The stored form of encrypted media, and AES-GCM as the `cryptography` package offers
it: a one-shot cipher and contexts that take a text in pieces. -/
namespace Drivebound.Encryption

abbrev Bytes := List UInt8

def formatMagic : Bytes := "DRIVEBOUND-ENC-V1\x00".toList.map fun c => UInt8.ofNat c.toNat

def nonceSize : Nat := 12

def tagSize : Nat := 16

def chunkSize : Nat := 4 * 1024 * 1024

/-- The format marker and the nonce. -/
def headerSize : Nat := formatMagic.length + nonceSize

abbrev Nonce := { nonce : Bytes // nonce.length = nonceSize }

section Pieces
variable {κ : Type}

/-- What a context puts out for the pieces, and the context after them. -/
def feed (update : κ → Bytes → Bytes × κ) : κ → List Bytes → Bytes × κ
  | context, [] => ([], context)
  | context, piece :: rest =>
    let (out, next) := update context piece
    let (later, last) := feed update next rest
    (out ++ later, last)

end Pieces

/-- AES-GCM: `encrypt` gives the ciphertext and the tag, `decrypt` the plaintext of a pair that
is valid. How a text is cut into pieces makes no difference. -/
structure Gcm where
  encrypt : (key nonce plaintext : Bytes) → Bytes × Bytes
  decrypt : (key nonce ciphertext tag : Bytes) → Option Bytes
  Encryptor : Type
  encryptor : (key nonce : Bytes) → Encryptor
  encryptorUpdate : Encryptor → Bytes → Bytes × Encryptor
  /-- The last of the ciphertext, and the tag. -/
  encryptorFinalize : Encryptor → Bytes × Bytes
  Decryptor : Type
  decryptor : (key nonce tag : Bytes) → Decryptor
  decryptorUpdate : Decryptor → Bytes → Bytes × Decryptor
  /-- `none` is `InvalidTag`. -/
  decryptorFinalize : Decryptor → Option Bytes
  tag_length : ∀ key nonce plaintext, (encrypt key nonce plaintext).2.length = tagSize
  decrypt_iff : ∀ key nonce ciphertext tag plaintext,
    decrypt key nonce ciphertext tag = some plaintext ↔ encrypt key nonce plaintext = (ciphertext, tag)
  encrypts : ∀ key nonce pieces out last, feed encryptorUpdate (encryptor key nonce) pieces = (out, last) →
    encrypt key nonce pieces.flatten = (out ++ (encryptorFinalize last).1, (encryptorFinalize last).2)
  decrypts : ∀ key nonce tag pieces out last,
    feed decryptorUpdate (decryptor key nonce tag) pieces = (out, last) →
    decrypt key nonce pieces.flatten tag = (decryptorFinalize last).map (out ++ ·)

/-- What `algorithms.AES` takes. -/
def IsAesKey (key : Bytes) : Prop := key.length = 16 ∨ key.length = 24 ∨ key.length = 32

instance (key : Bytes) : Decidable (IsAesKey key) := inferInstanceAs (Decidable (_ ∨ _ ∨ _))

/-- The bytes of a stored file. -/
def stored (gcm : Gcm) (key : Bytes) (nonce : Nonce) (plaintext : Bytes) : Bytes :=
  formatMagic ++ nonce ++ (gcm.encrypt key nonce plaintext).1 ++ (gcm.encrypt key nonce plaintext).2

/-- The content is the marker, a nonce, a ciphertext and a tag that is valid for it under the
key, and they stand for the plaintext. -/
def Authentic (gcm : Gcm) (key content plaintext : Bytes) : Prop :=
  IsAesKey key ∧ ∃ nonce ciphertext tag : Bytes, nonce.length = nonceSize ∧ tag.length = tagSize ∧
    content = formatMagic ++ nonce ++ ciphertext ++ tag ∧
    gcm.decrypt key nonce ciphertext tag = some plaintext

variable {gcm : Gcm} {key content plaintext other : Bytes}

theorem authentic_stored (nonce : Nonce) (aes : IsAesKey key) :
    Authentic gcm key (stored gcm key nonce plaintext) plaintext := by
  refine ⟨aes, nonce, _, _, nonce.2, gcm.tag_length key nonce plaintext, rfl, ?_⟩
  exact (gcm.decrypt_iff _ _ _ _ _).mpr rfl

/-- `header[len(FORMAT_MAGIC):]` -/
def headerNonce (content : Bytes) : Bytes := (content.take headerSize).drop formatMagic.length

def bodyOf (content : Bytes) : Bytes :=
  (content.drop headerSize).take (content.length - headerSize - tagSize)

def tagOf (content : Bytes) : Bytes := content.drop (content.length - tagSize)

/-- The header is complete and bears the marker, and there is room for the tag. -/
def WellFormed (content : Bytes) : Prop :=
  formatMagic <+: content ∧ headerSize + tagSize ≤ content.length

theorem parts_eq (formed : WellFormed content) :
    formatMagic ++ headerNonce content ++ bodyOf content ++ tagOf content = content := by
  obtain ⟨marker, room⟩ := formed
  have head : formatMagic ++ headerNonce content = content.take headerSize := by
    have start : (content.take headerSize).take formatMagic.length = formatMagic := by
      have fits : formatMagic.length ≤ headerSize := Nat.le_add_right _ _
      rw [List.take_take, Nat.min_eq_left fits]
      exact (List.prefix_iff_eq_take.mp marker).symm
    calc formatMagic ++ headerNonce content
        = (content.take headerSize).take formatMagic.length ++ headerNonce content := by rw [start]
      _ = content.take headerSize := List.take_append_drop _ _
  have tail : bodyOf content ++ tagOf content = content.drop headerSize := by
    have place : tagOf content =
        (content.drop headerSize).drop (content.length - headerSize - tagSize) := by
      rw [List.drop_drop, tagOf]
      congr 1
      omega
    rw [place]
    exact List.take_append_drop _ _
  rw [head, List.append_assoc, tail, List.take_append_drop]

/-- The parts of a content are found from both of its ends. -/
theorem parts_unique {nonce ciphertext tag : Bytes} (size : nonce.length = nonceSize)
    (tagged : tag.length = tagSize) (split : content = formatMagic ++ nonce ++ ciphertext ++ tag) :
    WellFormed content ∧ headerNonce content = nonce ∧ bodyOf content = ciphertext ∧ tagOf content = tag := by
  have header : (formatMagic ++ nonce).length = headerSize := by
    rw [List.length_append, size, headerSize]
  have total : content.length = headerSize + ciphertext.length + tagSize := by
    rw [split, List.length_append, List.length_append, header, tagged]
  have start : content.take headerSize = formatMagic ++ nonce := by
    rw [split, List.append_assoc, ← header, List.take_left]
  have rest : content.drop headerSize = ciphertext ++ tag := by
    rw [split, List.append_assoc, ← header, List.drop_left]
  refine ⟨⟨⟨nonce ++ ciphertext ++ tag, ?_⟩, ?_⟩, ?_, ?_, ?_⟩
  · simp only [split, List.append_assoc]
  · omega
  · rw [headerNonce, start, List.drop_left]
  · rw [bodyOf, rest, total]
    have here : headerSize + ciphertext.length + tagSize - headerSize - tagSize = ciphertext.length := by omega
    rw [here, List.take_left]
  · rw [tagOf, total]
    have here : headerSize + ciphertext.length + tagSize - tagSize = headerSize + ciphertext.length := by omega
    rw [here, ← List.drop_drop, rest, List.drop_left]

theorem authentic_iff : Authentic gcm key content plaintext ↔
    IsAesKey key ∧ WellFormed content ∧
      gcm.decrypt key (headerNonce content) (bodyOf content) (tagOf content) = some plaintext := by
  constructor
  · rintro ⟨aes, nonce, ciphertext, tag, size, tagged, split, opened⟩
    obtain ⟨formed, rfl, rfl, rfl⟩ := parts_unique size tagged split
    exact ⟨aes, formed, opened⟩
  · rintro ⟨aes, formed, opened⟩
    have size : (headerNonce content).length = nonceSize := by
      have room := formed.2
      simp only [headerNonce, List.length_drop, List.length_take, headerSize] at room ⊢
      omega
    have tagged : (tagOf content).length = tagSize := by
      have room := formed.2
      rw [tagOf, List.length_drop]
      omega
    exact ⟨aes, _, _, _, size, tagged, (parts_eq formed).symm, opened⟩

theorem Authentic.unique (one : Authentic gcm key content plaintext) (two : Authentic gcm key content other) :
    plaintext = other := by
  have opened := (authentic_iff.mp one).2.2
  rw [(authentic_iff.mp two).2.2] at opened
  exact (Option.some.inj opened).symm

/-- What a reader checks first of an authentic content. -/
theorem Authentic.header (authentic : Authentic gcm key content plaintext) :
    (content.take headerSize).length = headerSize ∧ formatMagic <+: content.take headerSize := by
  obtain ⟨-, ⟨marker, room⟩, -⟩ := authentic_iff.mp authentic
  constructor
  · rw [List.length_take]
    omega
  · exact List.prefix_take_iff.mpr ⟨marker, Nat.le_add_right _ _⟩

theorem tagOf_eq (room : headerSize + tagSize ≤ content.length) :
    (content.drop (content.length - tagSize)).take tagSize = tagOf content := by
  rw [tagOf, List.take_of_length_le]
  rw [List.length_drop]
  omega

/-! The cipher under the zero key and the zero nonce, on texts of at most one block. -/

def zeroKey : Bytes := List.replicate 32 0

def zeroNonce : Nonce := ⟨List.replicate nonceSize 0, List.length_replicate⟩

def zeroBlock : Bytes := List.replicate 16 0

def zeroKeystream : Bytes :=
  [0xce, 0xa7, 0x40, 0x3d, 0x4d, 0x60, 0x6b, 0x6e, 0x07, 0x4e, 0xc5, 0xd3, 0xba, 0xf3, 0x9d, 0x18]

def zeroTag (ciphertext : Bytes) : Bytes :=
  if ciphertext = [] then
    [0x53, 0x0f, 0x8a, 0xfb, 0xc7, 0x45, 0x36, 0xb9, 0xa9, 0x63, 0xb4, 0xf1, 0xc4, 0xcb, 0x73, 0x8b]
  else if ciphertext = zeroKeystream then
    [0xd0, 0xd1, 0xc8, 0xa7, 0x99, 0x99, 0x6b, 0xf0, 0x26, 0x5b, 0x98, 0xb5, 0xd4, 0x8a, 0xb9, 0x19]
  else
    List.replicate tagSize 0

def zeroCrypt (position : Nat) (text : Bytes) : Bytes :=
  text.mapIdx fun i b => b ^^^ zeroKeystream.getD (position + i) 0

theorem zeroCrypt_append (position : Nat) (text rest : Bytes) :
    zeroCrypt position (text ++ rest) = zeroCrypt position text ++ zeroCrypt (position + text.length) rest := by
  simp only [zeroCrypt, List.mapIdx_append, Nat.add_comm, Nat.add_left_comm]

theorem zeroCrypt_length (position : Nat) (text : Bytes) : (zeroCrypt position text).length = text.length :=
  List.length_mapIdx

theorem zeroCrypt_zeroCrypt (position : Nat) (text : Bytes) :
    zeroCrypt position (zeroCrypt position text) = text := by
  apply List.ext_getElem
  · rw [zeroCrypt_length, zeroCrypt_length]
  · intro i _ _
    simp only [zeroCrypt, List.getElem_mapIdx, UInt8.xor_assoc, UInt8.xor_self, UInt8.xor_zero]

def zeroEncryptorUpdate (ciphertext piece : Bytes) : Bytes × Bytes :=
  (zeroCrypt ciphertext.length piece, ciphertext ++ zeroCrypt ciphertext.length piece)

def zeroDecryptorUpdate (context : Bytes × Bytes) (piece : Bytes) : Bytes × Bytes × Bytes :=
  (zeroCrypt context.2.length piece, context.1, context.2 ++ piece)

theorem feed_zeroEncryptor (pieces : List Bytes) (ciphertext : Bytes) :
    feed zeroEncryptorUpdate ciphertext pieces =
      (zeroCrypt ciphertext.length pieces.flatten, ciphertext ++ zeroCrypt ciphertext.length pieces.flatten) := by
  induction pieces generalizing ciphertext with
  | nil => simp [feed, zeroCrypt]
  | cons piece rest ih =>
    simp only [feed, zeroEncryptorUpdate] at ih ⊢
    simp only [ih, List.flatten_cons, zeroCrypt_append, List.length_append, zeroCrypt_length, List.append_assoc]

theorem feed_zeroDecryptor (pieces : List Bytes) (context : Bytes × Bytes) :
    feed zeroDecryptorUpdate context pieces =
      (zeroCrypt context.2.length pieces.flatten, context.1, context.2 ++ pieces.flatten) := by
  induction pieces generalizing context with
  | nil => simp [feed, zeroCrypt]
  | cons piece rest ih =>
    simp only [feed, zeroDecryptorUpdate] at ih ⊢
    simp only [ih, List.flatten_cons, zeroCrypt_append, List.length_append, List.append_assoc]

def zeroGcm : Gcm where
  encrypt _ _ plaintext := (zeroCrypt 0 plaintext, zeroTag (zeroCrypt 0 plaintext))
  decrypt _ _ ciphertext tag := if zeroTag ciphertext = tag then some (zeroCrypt 0 ciphertext) else none
  Encryptor := Bytes
  encryptor _ _ := []
  encryptorUpdate := zeroEncryptorUpdate
  encryptorFinalize ciphertext := ([], zeroTag ciphertext)
  Decryptor := Bytes × Bytes
  decryptor _ _ tag := (tag, [])
  decryptorUpdate := zeroDecryptorUpdate
  decryptorFinalize context := if zeroTag context.2 = context.1 then some [] else none
  tag_length _ _ plaintext := by
    unfold zeroTag
    split_ifs <;> rfl
  decrypt_iff _ _ ciphertext tag plaintext := by
    constructor
    · intro opened
      split_ifs at opened with valid
      obtain rfl := Option.some.inj opened
      rw [zeroCrypt_zeroCrypt, valid]
    · intro same
      obtain ⟨rfl, rfl⟩ := Prod.mk.inj same
      rw [if_pos rfl, zeroCrypt_zeroCrypt]
  encrypts _ _ pieces out last fed := by
    rw [feed_zeroEncryptor] at fed
    obtain ⟨rfl, rfl⟩ := Prod.mk.inj fed
    rw [List.append_nil, List.nil_append, List.length_nil]
  decrypts _ _ tag pieces out last fed := by
    rw [feed_zeroDecryptor] at fed
    obtain ⟨rfl, rfl⟩ := Prod.mk.inj fed
    simp only [List.nil_append]
    split_ifs with valid
    · rw [Option.map_some, List.append_nil]
      rfl
    · rfl

end Drivebound.Encryption
