import Drivebound.Encryption.Files

/-! What `encrypt_file` and `decrypt_file` leave behind. -/
namespace Drivebound.Encryption

open Effects

variable {gcm : Gcm} {start : Storage} {files : Path → Option Bytes}
  {allowed : (Path → Option Bytes) → Prop} {reason : Prop} {source destination temporary : Path} {key : Bytes}
  {nonce : Nonce} {hex : String}

theorem encryptChunks_does (left : ∀ written, allowed (Function.update files temporary (some written)))
    (rest written : Bytes) (encryptor : gcm.Encryptor) :
    Does (At start (Function.update files temporary (some written)))
      (encryptChunks gcm destination temporary rest encryptor)
      (fun last s => ∃ pieces out, (pieces.flatten = rest ∧ feed gcm.encryptorUpdate encryptor pieces = (out, last)) ∧
        At start (Function.update files temporary (some (written ++ out))) s)
      (Raises start allowed reason) := by
  induction size : rest.length using Nat.strongRecOn generalizing rest written encryptor with
  | ind n ih =>
  rw [encryptChunks]
  apply Does.bind (read_does (left written))
  intro chunk
  apply Does.pull
  rintro rfl
  split
  · next none =>
    apply Does.pure
    intro s here
    exact ⟨[], [], ⟨none.symm, rfl⟩, (List.append_nil written).symm ▸ here⟩
  · next unread =>
    apply Does.bind (operate_does (left written))
    intro _
    generalize fed : gcm.encryptorUpdate encryptor (rest.take chunkSize) = result
    obtain ⟨out, next⟩ := result
    apply Does.bind (write_does (left _))
    intro _
    have shorter : (rest.drop chunkSize).length < n := by
      have some : 0 < rest.length := List.length_pos_iff.mpr unread
      have whole : 0 < chunkSize := by decide
      rw [List.length_drop]
      omega
    apply Does.mono (ih _ shorter (rest.drop chunkSize) (written ++ out) next rfl) (fun _ here => here)
    · rintro last s ⟨pieces, later, ⟨cut, after⟩, here⟩
      refine ⟨rest.take chunkSize :: pieces, out ++ later, ⟨?_, ?_⟩, ?_⟩
      · rw [List.flatten_cons, cut, List.take_append_drop]
      · simp only [feed, fed, after]
      · rw [← List.append_assoc]
        exact here
    · exact fun _ _ raised => raised

theorem decryptChunks_does (left : ∀ written, allowed (Function.update files temporary (some written)))
    (rest written : Bytes) (remaining : Nat) (decryptor : gcm.Decryptor) (enough : remaining ≤ rest.length) :
    Does (At start (Function.update files temporary (some written)))
      (decryptChunks gcm temporary rest remaining decryptor)
      (fun last s => ∃ pieces out,
        (pieces.flatten = rest.take remaining ∧ feed gcm.decryptorUpdate decryptor pieces = (out, last)) ∧
        At start (Function.update files temporary (some (written ++ out))) s)
      (Raises start allowed reason) := by
  induction count : remaining using Nat.strongRecOn generalizing rest written remaining decryptor with
  | ind n ih =>
  subst count
  rw [decryptChunks]
  split
  · next none =>
    apply Does.pure
    intro s here
    refine ⟨[], [], ⟨?_, rfl⟩, (List.append_nil written).symm ▸ here⟩
    rw [none, List.take_zero, List.flatten_nil]
  · next more =>
    apply Does.bind (operate_does (left written))
    intro _
    have whole : 0 < chunkSize := by decide
    have size : (rest.take (min chunkSize remaining)).length = min chunkSize remaining := by
      rw [List.length_take]
      omega
    have unread : rest.take (min chunkSize remaining) ≠ [] := by
      apply List.length_pos_iff.mp
      omega
    rw [dif_neg unread]
    generalize fed : gcm.decryptorUpdate decryptor (rest.take (min chunkSize remaining)) = result
    obtain ⟨out, next⟩ := result
    apply Does.bind (write_does (left _))
    intro _
    have still : remaining - (rest.take (min chunkSize remaining)).length ≤
        (rest.drop (rest.take (min chunkSize remaining)).length).length := by
      rw [List.length_drop]
      omega
    have fewer : remaining - (rest.take (min chunkSize remaining)).length < remaining := by omega
    apply Does.mono (ih _ fewer _ (written ++ out) _ next still rfl) (fun _ here => here)
    · rintro last s ⟨pieces, later, ⟨cut, after⟩, here⟩
      refine ⟨rest.take (min chunkSize remaining) :: pieces, out ++ later, ⟨?_, ?_⟩, ?_⟩
      · rw [List.flatten_cons, cut, size, ← List.take_add]
        congr 1
        omega
      · simp only [feed, fed, after]
      · rw [← List.append_assoc]
        exact here
    · exact fun _ _ raised => raised

/-- The files with anything or nothing at the temporary path. -/
def Loose (files : Path → Option Bytes) (temporary : Path) (left : Path → Option Bytes) : Prop :=
  ∃ rest, left = Function.update files temporary rest

theorem Loose.same : Loose files temporary files := ⟨files temporary, (Function.update_eq_self _ _).symm⟩

theorem Loose.written (rest : Option Bytes) : Loose files temporary (Function.update files temporary rest) :=
  ⟨rest, rfl⟩

theorem encryptInto_does (free : files temporary = none) :
    Does (At start files) (encryptInto gcm source destination temporary nonce (gcm.encryptor key nonce))
      (fun _ s => ∃ plaintext, files source = some plaintext ∧
        At start (Function.update files temporary (some (stored gcm key nonce plaintext))) s)
      (Raises start (Loose files temporary) (files source = none)) := by
  apply Does.bind (openRead_does Loose.same id)
  intro plaintext
  apply Does.pull
  intro found
  have full : ∀ (a : Unit) s,
      (∃ plaintext, files source = some plaintext ∧
        At start (Function.update files temporary (some (stored gcm key nonce plaintext))) s) →
      ∃ after, Loose files temporary after ∧ At start after s ∧ ∀ t, At start after t →
        ∃ plaintext, files source = some plaintext ∧
          At start (Function.update files temporary (some (stored gcm key nonce plaintext))) t := by
    rintro _ s ⟨content, there, here⟩
    exact ⟨_, Loose.written _, here, fun t later => ⟨content, there, later⟩⟩
  apply closing_does full
  apply Does.bind (openNew_does Loose.same free)
  intro _
  apply closing_does full
  apply Does.bind (write_does (Loose.written _))
  intro _
  apply Does.bind (write_does (Loose.written _))
  intro _
  apply Does.bind (encryptChunks_does (fun _ => Loose.written _) plaintext _ _)
  intro last
  apply Does.pick
  intro pieces
  apply Does.pick
  intro out
  apply Does.pull
  rintro ⟨whole, fed⟩
  have sealed := gcm.encrypts key nonce pieces out last fed
  rw [whole] at sealed
  apply Does.bind (write_does (Loose.written _))
  intro _
  apply Does.bind (write_does (Loose.written _))
  intro _
  apply Does.bind (operate_does (Loose.written _))
  intro _
  apply Does.mono (operate_does (Loose.written _)) (fun _ here => here)
  · intro _ s here
    refine ⟨plaintext, found, ?_⟩
    have same : [] ++ formatMagic ++ nonce.1 ++ out ++ (gcm.encryptorFinalize last).1 ++ (gcm.encryptorFinalize last).2 =
        stored gcm key nonce plaintext := by
      simp only [stored, sealed, List.nil_append, List.append_assoc]
    rw [← same]
    exact here
  · exact fun _ _ raised => raised

theorem decryptInto_does (free : files temporary = none) :
    Does (At start files) (decryptInto gcm source temporary key)
      (fun _ s => ∃ content plaintext, (files source = some content ∧ Authentic gcm key content plaintext) ∧
        At start (Function.update files temporary (some plaintext)) s)
      (Raises start (Loose files temporary)
        (¬ ∃ content plaintext, files source = some content ∧ Authentic gcm key content plaintext)) := by
  have full : ∀ (a : Unit) s,
      (∃ content plaintext, (files source = some content ∧ Authentic gcm key content plaintext) ∧
        At start (Function.update files temporary (some plaintext)) s) →
      ∃ after, Loose files temporary after ∧ At start after s ∧ ∀ t, At start after t →
        ∃ content plaintext, (files source = some content ∧ Authentic gcm key content plaintext) ∧
          At start (Function.update files temporary (some plaintext)) t := by
    rintro _ s ⟨content, plaintext, there, here⟩
    exact ⟨_, Loose.written _, here, fun t later => ⟨content, plaintext, there, later⟩⟩
  apply Does.bind (openRead_does Loose.same ?_)
  · intro content
    apply Does.pull
    intro found
    -- whatever is found to be wrong with the content shows that it is not authentic
    have refuse : ∀ {p : Prop}, (∀ plaintext, Authentic gcm key content plaintext → p) →
        ¬ p → ¬ ∃ content plaintext, files source = some content ∧ Authentic gcm key content plaintext := by
      rintro p needs fails ⟨other, plaintext, there, authentic⟩
      obtain rfl := Option.some.inj (found.symm.trans there)
      exact fails (needs plaintext authentic)
    apply closing_does full
    apply Does.bind (read_does Loose.same)
    intro header
    apply Does.pull
    rintro rfl
    apply Does.bind (demand_does Loose.same (refuse fun plaintext authentic => authentic.header))
    · intro _
      apply Does.pull
      rintro ⟨-, marker⟩
      apply Does.bind (statSize_does Loose.same found)
      intro total
      apply Does.pull
      rintro rfl
      apply Does.bind (demand_does Loose.same (refuse fun plaintext authentic =>
        (authentic_iff.mp authentic).2.1.2))
      intro _
      apply Does.pull
      intro room
      have formed : WellFormed content := ⟨marker.trans (List.take_prefix _ _), room⟩
      apply Does.bind (read_does Loose.same)
      intro tag
      apply Does.pull
      intro tagged
      obtain rfl := tagged.trans (tagOf_eq room)
      apply Does.bind (cipher_does Loose.same (refuse fun plaintext authentic => authentic.1))
      intro decryptor
      apply Does.pull
      rintro rfl
      apply Does.pull
      intro aes
      apply Does.bind (openNew_does Loose.same free)
      intro _
      apply closing_does full
      have enough : content.length - headerSize - tagSize ≤ (content.drop headerSize).length := by
        rw [List.length_drop]
        omega
      apply Does.bind (decryptChunks_does (fun _ => Loose.written _) (content.drop headerSize) _ _ _ enough)
      intro last
      apply Does.pick
      intro pieces
      apply Does.pick
      intro out
      apply Does.pull
      rintro ⟨whole, fed⟩
      have opened := gcm.decrypts key _ _ pieces out last fed
      rw [whole] at opened
      apply Does.bind (finalized_does (Loose.written _) ?_)
      · intro final
        apply Does.pull
        intro valid
        rw [valid] at opened
        apply Does.bind (write_does (Loose.written _))
        intro _
        apply Does.bind (operate_does (Loose.written _))
        intro _
        apply Does.mono (operate_does (Loose.written _)) (fun _ here => here)
        · intro _ s here
          exact ⟨content, out ++ final, ⟨found, authentic_iff.mpr ⟨aes, formed, opened⟩⟩, here⟩
        · exact fun _ _ raised => raised
      · intro invalid
        rw [invalid] at opened
        refine refuse (p := False) (fun plaintext authentic => ?_) id
        have other := (authentic_iff.mp authentic).2.2
        rw [show gcm.decrypt key (headerNonce content) (bodyOf content) (tagOf content) = none from opened] at other
        cases other
  · rintro absent ⟨content, plaintext, found, -⟩
    rw [absent] at found
    cases found

/-- What a failed call may leave: the files as they were, and where a removal fails, the
temporary file, or the destination complete. -/
def Left (start : Storage) (temporary destination : Path) (full : Bytes → Prop) (left : Path → Option Bytes) :
    Prop :=
  (Loose start.files temporary left ∨ start.files destination = none ∧
    ∃ bytes, full bytes ∧ Loose (Function.update start.files destination (some bytes)) temporary left) ∧
  (true ∉ start.unlinkFaults → left = start.files)

/-- The destination is new and complete, and nothing else has changed. -/
def Published (start : Storage) (destination : Path) (full : Bytes → Prop) (s : Storage) : Prop :=
  start.files destination = none ∧
    ∃ bytes, full bytes ∧ At start (Function.update start.files destination (some bytes)) s

theorem publish_does {bytes : Bytes} {full : Bytes → Prop} (holds : full bytes)
    (free : start.files temporary = none) (apart : temporary ≠ destination)
    (taken : start.files destination ≠ none → reason) :
    Does (At start (Function.update start.files temporary (some bytes))) (publish temporary destination)
      (fun _ => Published start destination full)
      (Raises start (Left start temporary destination full) reason) := by
  have there : Function.update start.files temporary (some bytes) destination = start.files destination :=
    Function.update_of_ne apart.symm _ _
  apply Does.lastly (S := fun _ s => start.files destination = none ∧
      At start (Function.update (Function.update start.files temporary (some bytes)) destination (some bytes)) s)
    (D := Raises start (· = Function.update start.files temporary (some bytes)) reason)
  · have checked : Does (At start (Function.update start.files temporary (some bytes)))
        (requireStoragePath destination)
        (fun _ => At start (Function.update start.files temporary (some bytes)))
        (Raises start (· = Function.update start.files temporary (some bytes)) reason) := operate_does rfl
    apply Does.bind checked
    intro _
    rw [← there]
    exact link_does rfl (Function.update_self _ _ _) (there ▸ taken)
  · intro _
    apply Does.pull
    intro absent
    have swapped : Function.update (Function.update start.files temporary (some bytes)) destination (some bytes) =
        Function.update (Function.update start.files destination (some bytes)) temporary (some bytes) :=
      Function.update_comm apart _ _ _
    rw [swapped]
    apply Does.mono (unlink_does ?_) (fun _ here => here)
    · intro _ s here
      refine ⟨absent, bytes, holds, ?_⟩
      rw [Function.update_idem] at here
      have gone : Function.update start.files destination (some bytes) temporary = none := by
        rw [Function.update_of_ne apart, free]
      rw [← gone, Function.update_eq_self] at here
      exact here
    · exact fun _ _ raised => raised
    · intro broken
      exact ⟨.inr ⟨absent, bytes, holds, Loose.written _⟩, fun works => absurd broken works⟩
  · rintro error s ⟨left, rfl, here, why⟩
    have removed : Does (At start (Function.update start.files temporary (some bytes))) (unlink temporary)
        (fun _ => Raises start (Left start temporary destination full) reason error)
        (Raises start (Left start temporary destination full) reason) := by
      apply Does.mono (unlink_does ?_) (fun _ here => here)
      · intro _ s here
        rw [Function.update_idem, ← free, Function.update_eq_self] at here
        exact ⟨_, ⟨.inl Loose.same, fun _ => rfl⟩, here, why⟩
      · exact fun _ _ raised => raised
      · intro broken
        exact ⟨.inl (Loose.written _), fun works => absurd broken works⟩
    exact removed s here

/-- What is left of a program whose temporary file is removed again. -/
theorem Left.unlinked {full : Bytes → Prop} {left : Path → Option Bytes} (free : start.files temporary = none)
    (before : Loose start.files temporary left ∨ Left start temporary destination full left) :
    Left start temporary destination full (Function.update left temporary none) := by
  have clean : ∀ {f : Path → Option Bytes}, f temporary = none → ∀ {left}, Loose f temporary left →
      Function.update left temporary none = f := by
    rintro f none left ⟨rest, rfl⟩
    rw [Function.update_idem, ← none, Function.update_eq_self]
  rcases before with loose | ⟨loose | ⟨absent, bytes, holds, loose⟩, calm⟩
  · rw [clean free loose]
    exact ⟨.inl Loose.same, fun _ => rfl⟩
  · rw [clean free loose]
    exact ⟨.inl Loose.same, fun _ => rfl⟩
  · refine ⟨.inr ⟨absent, bytes, holds, none, ?_⟩, fun works => ?_⟩
    · obtain ⟨rest, rfl⟩ := loose
      rw [Function.update_idem]
    · rw [calm works, ← free, Function.update_eq_self]

theorem cleaning_does {full : Bytes → Prop} {body : Program Unit} {files : Path → Option Bytes}
    (free : start.files temporary = none)
    (does : Does (At start files) body (fun _ => Published start destination full)
      (Raises start (fun left => Loose start.files temporary left ∨ Left start temporary destination full left)
        reason)) :
    Does (At start files) (cleaning temporary body) (fun _ => Published start destination full)
      (Raises start (Left start temporary destination full) reason) := by
  apply Does.caught does
  rintro error s ⟨left, before, here, why⟩
  have handled : Does (At start left) (do unlink temporary; throw error : Program Unit)
      (fun _ => Published start destination full)
      (Raises start (Left start temporary destination full) reason) := by
    apply Does.bind (@unlink_does _ _ _ _ temporary ?_)
    · intro _
      apply Does.throw
      intro t after
      exact ⟨_, Left.unlinked free before, after, why⟩
    · intro broken
      rcases before with loose | left
      · exact ⟨.inl loose, fun works => absurd broken works⟩
      · exact left
  exact handled s here

def Encrypted (gcm : Gcm) (start : Storage) (source : Path) (key : Bytes) (nonce : Nonce) (bytes : Bytes) : Prop :=
  IsAesKey key ∧ ∃ plaintext, start.files source = some plaintext ∧ bytes = stored gcm key nonce plaintext

def Decrypted (gcm : Gcm) (start : Storage) (source : Path) (key bytes : Bytes) : Prop :=
  ∃ content, start.files source = some content ∧ Authentic gcm key content bytes

theorem Left.same {full : Bytes → Prop} : Left start temporary destination full start.files :=
  ⟨.inl Loose.same, fun _ => rfl⟩

theorem encryptFile_does (free : start.files (temporaryPath destination hex "encrypt") = none) :
    Does (At start start.files) (encryptFile gcm source destination key nonce hex)
      (fun _ => Published start destination (Encrypted gcm start source key nonce))
      (Raises start (Left start (temporaryPath destination hex "encrypt") destination
        (Encrypted gcm start source key nonce))
        (¬ IsAesKey key ∨ start.files source = none ∨ start.files destination ≠ none)) := by
  apply Does.bind (operate_does Left.same)
  intro _
  apply Does.bind (operate_does Left.same)
  intro _
  apply Does.bind (operate_does Left.same)
  intro _
  apply Does.bind (cipher_does Left.same .inl)
  intro encryptor
  apply Does.pull
  rintro rfl
  apply Does.pull
  intro aes
  apply cleaning_does free
  apply Does.bind
  · apply Does.mono (encryptInto_does free) (fun _ here => here) (fun _ _ written => written)
    exact fun error s raised => raised.weaken (fun _ => .inl) fun absent => .inr (.inl absent)
  · intro _
    apply Does.pick
    intro plaintext
    apply Does.pull
    intro found
    have full : Encrypted gcm start source key nonce (stored gcm key nonce plaintext) := ⟨aes, _, found, rfl⟩
    apply Does.mono (publish_does full free (temporaryPath_ne _ _ _) id) (fun _ here => here) (fun _ _ done => done)
    exact fun error s raised => raised.weaken (fun _ => .inr) fun taken => .inr (.inr taken)

theorem decryptFile_does (free : start.files (temporaryPath destination hex "decrypt") = none) :
    Does (At start start.files) (decryptFile gcm source destination key hex)
      (fun _ => Published start destination (Decrypted gcm start source key))
      (Raises start (Left start (temporaryPath destination hex "decrypt") destination
        (Decrypted gcm start source key))
        ((¬ ∃ plaintext, Decrypted gcm start source key plaintext) ∨ start.files destination ≠ none)) := by
  apply Does.bind (operate_does Left.same)
  intro _
  apply Does.bind (operate_does Left.same)
  intro _
  apply Does.bind (operate_does Left.same)
  intro _
  apply cleaning_does free
  apply Does.bind
  · apply Does.mono (decryptInto_does free) (fun _ here => here) (fun _ _ written => written)
    refine fun error s raised => raised.weaken (fun _ => .inl) fun invalid => .inl ?_
    rintro ⟨plaintext, content, found, authentic⟩
    exact invalid ⟨content, plaintext, found, authentic⟩
  · intro _
    apply Does.pick
    intro content
    apply Does.pick
    intro plaintext
    apply Does.pull
    rintro ⟨found, authentic⟩
    have full : Decrypted gcm start source key plaintext := ⟨content, found, authentic⟩
    apply Does.mono (publish_does full free (temporaryPath_ne _ _ _) id) (fun _ here => here) (fun _ _ done => done)
    exact fun error s raised => raised.weaken (fun _ => .inr) .inr

/-! ### The two calls -/

def Returns (act : Program Unit) (start s : Storage) : Prop := act.run.run start = (.ok (), s)

/-- A call either publishes a complete destination where there was none, and changes nothing
else, or it raises. Then an existing destination is as it was, a new one is complete, and if
no removal of the temporary file failed then all files are as they were. -/
def Atomic (act : Program Unit) (temporary destination : Path) (full : Storage → Bytes → Prop) : Prop :=
  ∀ start, start.files temporary = none →
    match act.run.run start with
    | (.ok _, s) => start.files destination = none ∧
        ∃ bytes, full start bytes ∧ s.files = Function.update start.files destination (some bytes)
    | (.error _, s) =>
      (∀ bytes, start.files destination = some bytes → s.files destination = some bytes) ∧
      (∀ bytes, start.files destination = none → s.files destination = some bytes → full start bytes) ∧
      (∀ path, path ≠ temporary → path ≠ destination → s.files path = start.files path) ∧
      (true ∉ start.unlinkFaults → s.files = start.files)

theorem Left.keeps {full : Bytes → Prop} {left : Path → Option Bytes} (apart : temporary ≠ destination)
    (before : Left start temporary destination full left) :
    (∀ bytes, start.files destination = some bytes → left destination = some bytes) ∧
    (∀ bytes, start.files destination = none → left destination = some bytes → full bytes) ∧
    (∀ path, path ≠ temporary → path ≠ destination → left path = start.files path) ∧
    (true ∉ start.unlinkFaults → left = start.files) := by
  obtain ⟨⟨rest, rfl⟩ | ⟨absent, bytes, holds, rest, rfl⟩, calm⟩ := before
  · have same : Function.update start.files temporary rest destination = start.files destination :=
      Function.update_of_ne apart.symm _ _
    refine ⟨fun bytes there => same.trans there, fun bytes absent there => ?_, fun path other _ => ?_, calm⟩
    · rw [same, absent] at there
      cases there
    · exact Function.update_of_ne other _ _
  · have new : Function.update (Function.update start.files destination (some bytes)) temporary rest destination =
        some bytes := by
      rw [Function.update_of_ne apart.symm, Function.update_self]
    refine ⟨fun found there => ?_, fun found _ there => ?_, fun path other elsewhere => ?_, calm⟩
    · rw [absent] at there
      cases there
    · rw [new] at there
      obtain rfl := Option.some.inj there
      exact holds
    · rw [Function.update_of_ne other, Function.update_of_ne elsewhere]

theorem atomic_of_does {act : Program Unit} {full : Storage → Bytes → Prop} (apart : temporary ≠ destination)
    {reason : Storage → Prop}
    (does : ∀ start, start.files temporary = none → Does (At start start.files) act
      (fun _ => Published start destination (full start))
      (Raises start (Left start temporary destination (full start)) (reason start))) :
    Atomic act temporary destination full := by
  intro start free
  have here := does start free start ⟨rfl, id, id⟩
  generalize act.run.run start = result at here ⊢
  obtain ⟨value, s⟩ := result
  cases value with
  | ok _ =>
    obtain ⟨absent, bytes, holds, after⟩ := here
    exact ⟨absent, bytes, holds, after.files_eq⟩
  | error _ =>
    obtain ⟨left, before, after, -⟩ := here
    have kept := before.keeps apart
    rw [← after.files_eq] at kept
    exact kept

/-- Where the storage works and there is no reason to raise, the call returns. -/
theorem returns_of_does {act : Program Unit} {full : Bytes → Prop}
    {allowed : (Path → Option Bytes) → Prop}
    (does : Does (At start start.files) act (fun _ => Published start destination full) (Raises start allowed reason))
    (works : start.Works) (fine : ¬ reason) : ∃ s, Returns act start s ∧ Published start destination full s := by
  have here := does start ⟨rfl, id, id⟩
  generalize ran : act.run.run start = result at here
  obtain ⟨value, s⟩ := result
  cases value with
  | ok _ => exact ⟨s, ran, here⟩
  | error _ =>
    obtain ⟨left, -, -, why⟩ := here
    exact absurd (why works) fine

theorem published_of_does {act : Program Unit} {full : Bytes → Prop} {allowed : (Path → Option Bytes) → Prop}
    {s : Storage}
    (does : Does (At start start.files) act (fun _ => Published start destination full) (Raises start allowed reason))
    (returned : Returns act start s) : Published start destination full s := by
  have here := does start ⟨rfl, id, id⟩
  rw [returned] at here
  exact here

/-- What was encrypted is decrypted to the same bytes, from wherever the stored file is kept. -/
def RoundTrip (gcm : Gcm) (key : Bytes) : Prop :=
  ∀ source destination nonce hex start plaintext, start.files source = some plaintext →
    start.files (temporaryPath destination hex "encrypt") = none →
    (start.Works → IsAesKey key → start.files destination = none →
      ∃ s, Returns (encryptFile gcm source destination key nonce hex) start s) ∧
    ∀ s, Returns (encryptFile gcm source destination key nonce hex) start s →
      ∀ target hex t, t.files destination = s.files destination →
        t.files (temporaryPath target hex "decrypt") = none →
        (t.Works → t.files target = none → ∃ u, Returns (decryptFile gcm destination target key hex) t u) ∧
        ∀ u, Returns (decryptFile gcm destination target key hex) t u → u.files target = some plaintext

/-- A destination is published from the authentic contents and from no others. -/
def Accepts (gcm : Gcm) (key : Bytes) : Prop :=
  ∀ source destination hex start content, start.files source = some content →
    start.files (temporaryPath destination hex "decrypt") = none → start.files destination = none →
    (start.Works → (∃ plaintext, Authentic gcm key content plaintext) →
      ∃ s, Returns (decryptFile gcm source destination key hex) start s) ∧
    ∀ bytes, ((decryptFile gcm source destination key hex).run.run start).2.files destination = some bytes →
      Authentic gcm key content bytes

theorem roundTrip (gcm : Gcm) (key : Bytes) : RoundTrip gcm key := by
  intro source destination nonce hex start plaintext found free
  refine ⟨fun works aes absent => ?_, fun s returned target later t kept fresh => ?_⟩
  · have fine : ¬ (¬ IsAesKey key ∨ start.files source = none ∨ start.files destination ≠ none) := by
      rintro (bad | missing | taken)
      · exact bad aes
      · rw [found] at missing
        cases missing
      · exact taken absent
    obtain ⟨s, returned, -⟩ := returns_of_does (encryptFile_does free) works fine
    exact ⟨s, returned⟩
  · obtain ⟨absent, bytes, ⟨aes, content, there, rfl⟩, after⟩ := published_of_does (encryptFile_does free) returned
    obtain rfl := Option.some.inj (found.symm.trans there)
    have placed : t.files destination = some (stored gcm key nonce plaintext) := by
      rw [kept, after.files_eq, Function.update_self]
    refine ⟨fun works open_ => ?_, fun u decrypted => ?_⟩
    · have fine : ¬ ((¬ ∃ plaintext, Decrypted gcm t destination key plaintext) ∨ t.files target ≠ none) := by
        rintro (invalid | taken)
        · exact invalid ⟨plaintext, _, placed, authentic_stored nonce aes⟩
        · exact taken open_
      obtain ⟨u, decrypted, -⟩ := returns_of_does (decryptFile_does fresh) works fine
      exact ⟨u, decrypted⟩
    · obtain ⟨-, bytes, ⟨content, there, authentic⟩, after⟩ := published_of_does (decryptFile_does fresh) decrypted
      obtain rfl := Option.some.inj (placed.symm.trans there)
      rw [after.files_eq, Function.update_self, authentic.unique (authentic_stored nonce aes)]

theorem accepts (gcm : Gcm) (key : Bytes) : Accepts gcm key := by
  intro source destination hex start content found free absent
  refine ⟨fun works ⟨plaintext, authentic⟩ => ?_, fun bytes there => ?_⟩
  · have fine : ¬ ((¬ ∃ plaintext, Decrypted gcm start source key plaintext) ∨ start.files destination ≠ none) := by
      rintro (invalid | taken)
      · exact invalid ⟨plaintext, content, found, authentic⟩
      · exact taken absent
    obtain ⟨s, returned, -⟩ := returns_of_does (decryptFile_does free) works fine
    exact ⟨s, returned⟩
  · have shown : Decrypted gcm start source key bytes := by
      have atomic := atomic_of_does (temporaryPath_ne destination hex "decrypt")
        (fun start free => @decryptFile_does gcm start source destination key hex free) start free
      generalize (decryptFile gcm source destination key hex).run.run start = result at there atomic
      obtain ⟨value, s⟩ := result
      cases value with
      | ok _ =>
        obtain ⟨-, full, holds, after⟩ := atomic
        rw [show s.files = _ from after, Function.update_self] at there
        obtain rfl := Option.some.inj there
        exact holds
      | error _ => exact atomic.2.1 bytes absent there
    obtain ⟨other, there, authentic⟩ := shown
    obtain rfl := Option.some.inj (found.symm.trans there)
    exact authentic

theorem encrypted_files_are_exact_and_atomic (gcm : Gcm) (key : Bytes) :
    RoundTrip gcm key ∧ Accepts gcm key ∧
    (∀ source destination nonce hex, Atomic (encryptFile gcm source destination key nonce hex)
      (temporaryPath destination hex "encrypt") destination fun start => Encrypted gcm start source key nonce) ∧
    ∀ source destination hex, Atomic (decryptFile gcm source destination key hex)
      (temporaryPath destination hex "decrypt") destination fun start => Decrypted gcm start source key := by
  refine ⟨roundTrip gcm key, accepts gcm key, ?_, ?_⟩
  · intro source destination nonce hex
    exact atomic_of_does (temporaryPath_ne _ _ _) fun start free => encryptFile_does free
  · intro source destination hex
    exact atomic_of_does (temporaryPath_ne _ _ _) fun start free => decryptFile_does free

def plain : Path := ⟨"/media", "plain"⟩

def sealedPath : Path := ⟨"/media", "sealed"⟩

def restored : Path := ⟨"/media", "restored"⟩

/-- Only the plaintext is stored. -/
def onlyPlain (plaintext : Bytes) (unlinkFaults : List Bool) : Storage :=
  { files := fun path => if path = plain then some plaintext else none, faults := [], unlinkFaults }

theorem encrypted_files_round_trip_zero_block :
    ∃ s t u, Returns (encryptFile zeroGcm plain sealedPath zeroKey zeroNonce "0") (onlyPlain zeroBlock []) s ∧
      t.files = s.files ∧ Returns (decryptFile zeroGcm sealedPath restored zeroKey "1") t u ∧
      u.files restored = some zeroBlock := by
  obtain ⟨trip, -, encrypts, -⟩ := encrypted_files_are_exact_and_atomic zeroGcm zeroKey
  have calm : (onlyPlain zeroBlock []).Works := ⟨List.not_mem_nil, List.not_mem_nil⟩
  obtain ⟨returns, decrypts⟩ :=
    trip plain sealedPath zeroNonce "0" (onlyPlain zeroBlock []) zeroBlock (by decide) (by decide)
  obtain ⟨s, encrypted⟩ := returns calm (by decide) (by decide)
  have after := encrypts plain sealedPath zeroNonce "0" (onlyPlain zeroBlock []) (by decide)
  rw [encrypted] at after
  obtain ⟨-, bytes, -, placed⟩ := after
  have elsewhere : ∀ path, path ≠ sealedPath → s.files path = (onlyPlain zeroBlock []).files path := by
    intro path other
    rw [show s.files = _ from placed, Function.update_of_ne other]
  have fresh : s.files (temporaryPath restored "1" "decrypt") = none := by
    rw [elsewhere _ (by decide)]
    decide
  obtain ⟨again, same⟩ := decrypts s encrypted restored "1" { s with faults := [], unlinkFaults := [] } rfl fresh
  have open_ : s.files restored = none := by
    rw [elsewhere _ (by decide)]
    decide
  obtain ⟨u, decrypted⟩ := again ⟨List.not_mem_nil, List.not_mem_nil⟩ open_
  exact ⟨s, { s with faults := [], unlinkFaults := [] }, u, encrypted, rfl, decrypted, same u decrypted⟩

/-- The file has its place, but its other name cannot be removed. -/
theorem failed_removal_leaves_destination :
    let ended := (encryptFile zeroGcm plain sealedPath zeroKey zeroNonce "0").run.run (onlyPlain [] [true])
    ended.1.isOk = false ∧ (onlyPlain [] [true]).files sealedPath = none ∧
      ended.2.files sealedPath = some (stored zeroGcm zeroKey zeroNonce []) := by
  decide +kernel

end Drivebound.Encryption
