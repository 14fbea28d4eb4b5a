import Drivebound.Encryption.Publishing
import Mathlib

/-! `iter_decrypted_chunks`, the second reader of the stored form, and the checksum that
ingestion takes through it. -/
namespace Drivebound.Encryption

open Effects

/-- A generator's state is what it has yielded. -/
abbrev Generator := Act (List Bytes) FileError

/-- `if chunk: yield chunk` -/
def yieldChunk (chunk : Bytes) : Generator Unit :=
  if chunk = [] then pure () else modify (· ++ [chunk])

variable (gcm : Gcm)

/-- `while remaining` over what is unread of the source. -/
def iterChunks (rest : Bytes) (remaining : Nat) (decryptor : gcm.Decryptor) : Generator gcm.Decryptor := do
  if _more : remaining = 0 then
    pure decryptor
  else
    let chunk := rest.take (min chunkSize remaining)
    if _unread : chunk = [] then
      throw (.mediaEncryption "Stored media is truncated")
    else
      let (plaintext, next) := gcm.decryptorUpdate decryptor chunk
      yieldChunk plaintext
      iterChunks (rest.drop chunk.length) (remaining - chunk.length) next
termination_by remaining
decreasing_by
  have some : 0 < (rest.take (min chunkSize remaining)).length := List.length_pos_iff.mpr _unread
  omega

def iterDecryptedChunks (files : Path → Option Bytes) (source : Path) (key : Bytes) : Generator Unit := do
  match files source with
  | none => throw (.fileNotFound source)
  | some content =>
    let header := content.take headerSize
    demand (header.length = headerSize ∧ formatMagic <+: header)
      (.mediaEncryption "Stored media has an unknown encryption format")
    let nonce := header.drop formatMagic.length
    let total := content.length
    demand (headerSize + tagSize ≤ total) (.mediaEncryption "Stored media is truncated")
    let tag := (content.drop (total - tagSize)).take tagSize
    let decryptor ← cipher key (gcm.decryptor key nonce tag)
    let remaining := total - headerSize - tagSize
    let decryptor ← iterChunks gcm (content.drop headerSize) remaining decryptor
    let final ← finalized (gcm.decryptorFinalize decryptor)
    yieldChunk final

/-- The digest takes the chunks one after the other. -/
def encryptedPlaintextChecksum (sha256 : Bytes → String) (files : Path → Option Bytes) (path : Path) (key : Bytes)
    (expectedSize : Option Nat) : Except FileError String :=
  match (iterDecryptedChunks gcm files path key).run.run [] with
  | (.error error, _) => .error error
  | (.ok _, chunks) =>
    let size := (chunks.map List.length).sum
    if expectedSize.any (size ≠ ·) then
      .error (.valueError "Existing encrypted object has an unexpected plaintext size")
    else
      .ok (sha256 chunks.flatten)

variable {gcm} {files : Path → Option Bytes} {source : Path} {key content : Bytes}

/-- The chunks come after what was yielded before, and together they are the bytes. -/
def Yields (before : List Bytes) (bytes : Bytes) (yielded : List Bytes) : Prop :=
  ∃ chunks, yielded = before ++ chunks ∧ chunks.flatten = bytes

theorem Yields.append {before middle yielded : List Bytes} {first second : Bytes}
    (one : Yields before first middle) (two : Yields middle second yielded) :
    Yields before (first ++ second) yielded := by
  obtain ⟨early, rfl, rfl⟩ := one
  obtain ⟨late, rfl, rfl⟩ := two
  exact ⟨early ++ late, List.append_assoc _ _ _, List.flatten_append⟩

theorem yieldChunk_does {E : FileError → List Bytes → Prop} (before : List Bytes) (bytes chunk : Bytes) :
    Does (Yields before bytes) (yieldChunk chunk) (fun _ => Yields before (bytes ++ chunk)) E := by
  apply Does.ite
  · rintro rfl
    exact Does.pure fun s shown => (List.append_nil bytes).symm ▸ shown
  · intro _
    exact Does.modify fun s shown => shown.append ⟨[chunk], rfl, List.flatten_singleton⟩

theorem iterChunks_does {E : FileError → List Bytes → Prop} (before : List Bytes) (rest read : Bytes)
    (remaining : Nat) (decryptor : gcm.Decryptor) (enough : remaining ≤ rest.length) :
    Does (Yields before read) (iterChunks gcm rest remaining decryptor)
      (fun last s => ∃ pieces out, (pieces.flatten = rest.take remaining ∧
        feed gcm.decryptorUpdate decryptor pieces = (out, last)) ∧ Yields before (read ++ out) s) E := by
  induction count : remaining using Nat.strongRecOn generalizing rest read remaining decryptor with
  | ind n ih =>
  subst count
  rw [iterChunks]
  split
  · next none =>
    apply Does.pure
    intro s shown
    refine ⟨[], [], ⟨?_, rfl⟩, (List.append_nil read).symm ▸ shown⟩
    rw [none, List.take_zero, List.flatten_nil]
  · next more =>
    have whole : 0 < chunkSize := by decide
    have size : (rest.take (min chunkSize remaining)).length = min chunkSize remaining := by
      rw [List.length_take]
      omega
    have unread : rest.take (min chunkSize remaining) ≠ [] := by
      apply List.length_pos_iff.mp
      omega
    rw [dif_neg unread]
    generalize fed : gcm.decryptorUpdate decryptor (rest.take (min chunkSize remaining)) = result
    obtain ⟨out, next⟩ := result
    apply Does.bind (yieldChunk_does before read out)
    intro _
    have still : remaining - (rest.take (min chunkSize remaining)).length ≤
        (rest.drop (rest.take (min chunkSize remaining)).length).length := by
      rw [List.length_drop]
      omega
    have fewer : remaining - (rest.take (min chunkSize remaining)).length < remaining := by omega
    apply Does.mono (ih _ fewer _ (read ++ out) _ next still rfl) (fun _ shown => shown)
    · rintro last s ⟨pieces, later, ⟨cut, after⟩, shown⟩
      refine ⟨rest.take (min chunkSize remaining) :: pieces, out ++ later, ⟨?_, ?_⟩, ?_⟩
      · rw [List.flatten_cons, cut, size, ← List.take_add]
        congr 1
        omega
      · simp only [feed, fed, after]
      · rw [← List.append_assoc]
        exact shown
    · exact fun _ _ raised => raised

/-- The chunks of an authentic content are its plaintext; no other content comes to its end. -/
theorem iterDecryptedChunks_does :
    Does (Yields [] []) (iterDecryptedChunks gcm files source key)
      (fun _ s => ∃ content plaintext, (files source = some content ∧ Authentic gcm key content plaintext) ∧
        Yields [] plaintext s)
      (fun _ _ => ¬ ∃ content plaintext, files source = some content ∧ Authentic gcm key content plaintext) := by
  unfold iterDecryptedChunks
  cases found : files source with
  | none =>
    apply Does.throw
    rintro s _ ⟨content, plaintext, there, -⟩
    cases there
  | some content =>
    have refuse : ∀ {p : Prop}, (∀ plaintext, Authentic gcm key content plaintext → p) →
        ¬ p → ¬ ∃ other plaintext, some content = some other ∧ Authentic gcm key other plaintext := by
      rintro p needs fails ⟨other, plaintext, there, authentic⟩
      obtain rfl := Option.some.inj there
      exact fails (needs plaintext authentic)
    dsimp only
    apply Does.bind (Does.demand fun wrong _ _ => refuse (fun _ authentic => authentic.header) wrong)
    intro _
    apply Does.pull
    rintro ⟨-, marker⟩
    apply Does.bind (Does.demand fun short _ _ => refuse (fun _ authentic => (authentic_iff.mp authentic).2.1.2) short)
    intro _
    apply Does.pull
    intro room
    have formed : WellFormed content := ⟨marker.trans (List.take_prefix _ _), room⟩
    rw [tagOf_eq room]
    apply Does.bind (cipher_rule fun bad _ _ => refuse (fun _ authentic => authentic.1) bad)
    intro decryptor
    apply Does.pull
    rintro rfl
    apply Does.pull
    intro aes
    have enough : content.length - headerSize - tagSize ≤ (content.drop headerSize).length := by
      rw [List.length_drop]
      omega
    apply Does.bind (iterChunks_does [] (content.drop headerSize) [] _ _ enough)
    intro last
    apply Does.pick
    intro pieces
    apply Does.pick
    intro out
    apply Does.pull
    rintro ⟨whole, fed⟩
    have opened := gcm.decrypts key _ _ pieces out last fed
    rw [whole] at opened
    apply Does.bind (finalized_rule fun invalid _ _ => ?_)
    · intro final
      apply Does.pull
      intro valid
      rw [valid] at opened
      apply Does.mono (yieldChunk_does [] _ final) (fun _ shown => shown)
      · intro _ s shown
        exact ⟨content, out ++ final, ⟨rfl, authentic_iff.mpr ⟨aes, formed, opened⟩⟩, shown⟩
      · exact fun _ _ raised => raised
    · rw [invalid] at opened
      refine refuse (p := False) (fun plaintext authentic => ?_) id
      have other := (authentic_iff.mp authentic).2.2
      rw [show gcm.decrypt key (headerNonce content) (bodyOf content) (tagOf content) = none from opened] at other
      cases other

/-- How the generator ends, and with which chunks. -/
theorem iterDecryptedChunks_ends (gcm : Gcm) (files : Path → Option Bytes) (source : Path) (key : Bytes) :
    ∃ result chunks, (iterDecryptedChunks gcm files source key).run.run [] = (result, chunks) ∧
      ((result = .ok () ∧ ∃ content, files source = some content ∧ Authentic gcm key content chunks.flatten) ∨
        (∃ error, result = .error error) ∧
          ¬ ∃ content plaintext, files source = some content ∧ Authentic gcm key content plaintext) := by
  have here := @iterDecryptedChunks_does gcm files source key [] ⟨[], rfl, rfl⟩
  generalize (iterDecryptedChunks gcm files source key).run.run [] = ended at here
  obtain ⟨result, yielded⟩ := ended
  refine ⟨result, yielded, rfl, ?_⟩
  cases result with
  | ok value =>
    obtain ⟨content, plaintext, ⟨found, authentic⟩, chunks, rfl, rfl⟩ := here
    exact .inl ⟨rfl, content, found, authentic⟩
  | error error => exact .inr ⟨⟨error, rfl⟩, here⟩

/-- The generator runs to its end and has yielded the chunks. -/
def Completes (gcm : Gcm) (files : Path → Option Bytes) (source : Path) (key : Bytes) (chunks : List Bytes) : Prop :=
  (iterDecryptedChunks gcm files source key).run.run [] = (.ok (), chunks)

theorem Completes.authentic {chunks : List Bytes} (completes : Completes gcm files source key chunks) :
    ∃ content, files source = some content ∧ Authentic gcm key content chunks.flatten := by
  obtain ⟨result, yielded, ran, ⟨-, shown⟩ | ⟨⟨error, rfl⟩, -⟩⟩ := iterDecryptedChunks_ends gcm files source key
  · obtain ⟨rfl, rfl⟩ := Prod.mk.inj (completes.symm.trans ran)
    exact shown
  · cases (Prod.mk.inj (completes.symm.trans ran)).1

theorem completes_of_authentic {plaintext : Bytes} (found : files source = some content)
    (authentic : Authentic gcm key content plaintext) :
    ∃ chunks, Completes gcm files source key chunks ∧ chunks.flatten = plaintext := by
  obtain ⟨result, chunks, ran, ⟨rfl, other, there, shown⟩ | ⟨-, invalid⟩⟩ :=
    iterDecryptedChunks_ends gcm files source key
  · obtain rfl := Option.some.inj (found.symm.trans there)
    exact ⟨chunks, ran, shown.unique authentic⟩
  · exact absurd ⟨content, plaintext, found, authentic⟩ invalid

theorem checksum_iff (sha256 : Bytes → String) (found : files source = some content) (expected : Option Nat)
    (digest : String) :
    encryptedPlaintextChecksum gcm sha256 files source key expected = .ok digest ↔
      ∃ plaintext, Authentic gcm key content plaintext ∧ (∀ size ∈ expected, plaintext.length = size) ∧
        digest = sha256 plaintext := by
  obtain ⟨result, chunks, ran, ⟨rfl, other, there, shown⟩ | ⟨⟨error, rfl⟩, invalid⟩⟩ :=
    iterDecryptedChunks_ends gcm files source key
  · obtain rfl := Option.some.inj (found.symm.trans there)
    have fits : expected.any ((chunks.map List.length).sum ≠ ·) = false ↔
        ∀ size ∈ expected, chunks.flatten.length = size := by
      rw [List.length_flatten]
      cases expected with
      | none => simp
      | some size => simp
    simp only [encryptedPlaintextChecksum, ran]
    split
    · next wrong =>
      constructor
      · intro claimed
        cases claimed
      · rintro ⟨plaintext, authentic, sizes, -⟩
        rw [authentic.unique shown] at sizes
        rw [fits.mpr sizes] at wrong
        cases wrong
    · next right =>
      have sizes := fits.mp (Bool.eq_false_iff.mpr right)
      constructor
      · intro claimed
        obtain rfl := Except.ok.inj claimed
        exact ⟨_, shown, sizes, rfl⟩
      · rintro ⟨plaintext, authentic, -, rfl⟩
        rw [authentic.unique shown]
  · simp only [encryptedPlaintextChecksum, ran]
    constructor
    · intro claimed
      cases claimed
    · rintro ⟨plaintext, authentic, -⟩
      exact absurd ⟨content, plaintext, found, authentic⟩ invalid

theorem streaming_agrees_with_decryption (gcm : Gcm) (sha256 : Bytes → String) (key : Bytes) (source destination : Path)
    (hex : String) (start : Storage) (content : Bytes) (found : start.files source = some content)
    (fresh : start.files (temporaryPath destination hex "decrypt") = none) (absent : start.files destination = none) :
    (∀ chunks, start.Works → Completes gcm start.files source key chunks →
      ∃ s, Returns (decryptFile gcm source destination key hex) start s) ∧
    (∀ s, Returns (decryptFile gcm source destination key hex) start s →
      ∃ chunks, Completes gcm start.files source key chunks ∧ s.files destination = some chunks.flatten) ∧
    ∀ expected digest, encryptedPlaintextChecksum gcm sha256 start.files source key expected = .ok digest ↔
      ∃ plaintext, Authentic gcm key content plaintext ∧ (∀ size ∈ expected, plaintext.length = size) ∧
        digest = sha256 plaintext := by
  refine ⟨fun chunks works completes => ?_, fun s returned => ?_, fun expected digest => ?_⟩
  · obtain ⟨other, there, authentic⟩ := completes.authentic
    have fine : ¬ ((¬ ∃ plaintext, Decrypted gcm start source key plaintext) ∨ start.files destination ≠ none) := by
      rintro (invalid | taken)
      · exact invalid ⟨_, other, there, authentic⟩
      · exact taken absent
    obtain ⟨s, returned, -⟩ := returns_of_does (decryptFile_does fresh) works fine
    exact ⟨s, returned⟩
  · obtain ⟨-, bytes, ⟨other, there, authentic⟩, after⟩ := published_of_does (decryptFile_does fresh) returned
    obtain ⟨chunks, completes, rfl⟩ := completes_of_authentic there authentic
    exact ⟨chunks, completes, by rw [after.files_eq, Function.update_self]⟩
  · exact checksum_iff sha256 found expected digest

/-- A file with a stored block beside nothing else. -/
def onlyStored : Storage :=
  { files := fun path => if path = sealedPath then some (stored zeroGcm zeroKey zeroNonce zeroBlock) else none
    faults := []
    unlinkFaults := [] }

/-- The digest of the zero block. -/
def zeroSha256 (bytes : Bytes) : String :=
  if bytes = zeroBlock then "374708fff7719dd5979ec875d56cd2286f6d3cf7ec317a3b25632aab28ec37bb" else ""

theorem streaming_agrees_with_decryption_zero_block :
    (∃ s chunks, Returns (decryptFile zeroGcm sealedPath restored zeroKey "1") onlyStored s ∧
      Completes zeroGcm onlyStored.files sealedPath zeroKey chunks ∧
      s.files restored = some chunks.flatten) ∧
    encryptedPlaintextChecksum zeroGcm zeroSha256 onlyStored.files sealedPath zeroKey (some 16) =
      .ok (zeroSha256 zeroBlock) := by
  obtain ⟨returns, agrees, checksum⟩ := streaming_agrees_with_decryption zeroGcm zeroSha256 zeroKey sealedPath restored
    "1" onlyStored (stored zeroGcm zeroKey zeroNonce zeroBlock) (by decide) (by decide) (by decide)
  have authentic : Authentic zeroGcm zeroKey (stored zeroGcm zeroKey zeroNonce zeroBlock) zeroBlock :=
    authentic_stored zeroNonce (by decide)
  have there : onlyStored.files sealedPath = some (stored zeroGcm zeroKey zeroNonce zeroBlock) := rfl
  obtain ⟨chunks, completes, -⟩ := completes_of_authentic there authentic
  obtain ⟨s, returned⟩ := returns chunks ⟨List.not_mem_nil, List.not_mem_nil⟩ completes
  obtain ⟨chunks, completes, same⟩ := agrees s returned
  refine ⟨⟨s, chunks, returned, completes, same⟩, (checksum _ _).mpr ⟨zeroBlock, authentic, ?_, rfl⟩⟩
  intro size expected
  obtain rfl := Option.some.inj expected
  rfl

end Drivebound.Encryption
