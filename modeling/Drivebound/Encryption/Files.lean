import Drivebound.Encryption.Format
import Mathlib.Logic.Function.Basic

/-! `encrypt_file` and `decrypt_file`: a temporary file beside the destination that is
linked to its place when it is complete. Every operation on the storage may fail. -/
namespace Drivebound.Encryption

open Effects

structure Path where
  parent : String
  name : String
deriving DecidableEq

/-- `destination.with_name(...)` -/
def temporaryPath (destination : Path) (hex action : String) : Path :=
  { destination with name := "." ++ destination.name ++ "." ++ hex ++ "." ++ action }

theorem temporaryPath_ne (destination : Path) (hex action : String) :
    temporaryPath destination hex action ≠ destination := by
  intro same
  have names := congrArg (fun path => path.name.length) same
  simp only [temporaryPath, String.length_append] at names
  have dot : ".".length = 1 := rfl
  omega

structure Storage where
  files : Path → Option Bytes
  /-- Which of the coming operations fail, in their order; after the last of them all work. -/
  faults : List Bool
  /-- The same for the removals of files. -/
  unlinkFaults : List Bool

inductive FileError where
  | mediaEncryption (message : String)
  | fileNotFound (path : Path)
  | fileExists (path : Path)
  | invalidKey
  | valueError (message : String)
  | osError
deriving DecidableEq

abbrev Program := Act Storage FileError

/-- An operation of the file system or the storage check, which may fail. -/
def operate : Program Unit := do
  let s ← get
  match s.faults with
  | [] => pure ()
  | fault :: later =>
    set { s with faults := later }
    if fault then throw .osError

/-- Whether the drive of the path is there is asked anew each time. -/
def requireStoragePath (_ : Path) : Program Unit := operate

/-- `path.parent.mkdir(parents=True, exist_ok=True)` -/
def makeParent (_ : Path) : Program Unit := operate

/-- `open("rb")`: nothing writes to the file while it is read. -/
def openRead (path : Path) : Program Bytes := do
  operate
  match (← get).files path with
  | none => throw (.fileNotFound path)
  | some content => pure content

def read (bytes : Bytes) : Program Bytes := do
  operate
  pure bytes

def statSize (path : Path) : Program Nat := do
  let content ← openRead path
  pure content.length

/-- `open("xb")` -/
def openNew (path : Path) : Program Unit := do
  operate
  let s ← get
  if (s.files path).isSome then
    throw (.fileExists path)
  else
    set { s with files := Function.update s.files path (some []) }

def write (path : Path) (bytes : Bytes) : Program Unit := do
  operate
  modify fun s => { s with files := Function.update s.files path ((s.files path).map (· ++ bytes)) }

/-- `flush`, `fsync` or the end of a `with`. -/
def sync : Program Unit := operate

/-- `os.link` -/
def link (existing path : Path) : Program Unit := do
  operate
  let s ← get
  if (s.files path).isSome then
    throw (.fileExists path)
  else
    set { s with files := Function.update s.files path (s.files existing) }

/-- `path.unlink(missing_ok=True)` -/
def unlink (path : Path) : Program Unit := do
  let s ← get
  match s.unlinkFaults with
  | [] => set { s with files := Function.update s.files path none }
  | true :: later =>
    set { s with unlinkFaults := later }
    throw .osError
  | false :: later => set { s with files := Function.update s.files path none, unlinkFaults := later }

def cipher {σ κ : Type} (key : Bytes) (context : κ) : Act σ FileError κ :=
  if IsAesKey key then pure context else throw .invalidKey

/-- What `finalize` gives, where it does not raise `InvalidTag`. -/
def finalized {σ : Type} (final : Option Bytes) : Act σ FileError Bytes :=
  match final with
  | none => throw (.mediaEncryption "Stored media failed authentication")
  | some out => pure out

/-- A `with` closes its file at its end. -/
def closing {α : Type} (body : Program α) : Program α := tryFinally body sync

/-- `os.replace` would overwrite; a hard link is atomic and exclusive. -/
def publish (temporary destination : Path) : Program Unit :=
  tryFinally
    (do
      requireStoragePath destination
      link temporary destination)
    (unlink temporary)

/-- `except Exception: temporary.unlink(missing_ok=True); raise` -/
def cleaning (temporary : Path) (body : Program Unit) : Program Unit :=
  tryCatchThe FileError body fun error => do
    unlink temporary
    throw error

variable (gcm : Gcm)

/-- `while chunk := input_file.read(CHUNK_SIZE)` over what is unread of the source. -/
def encryptChunks (destination temporary : Path) (rest : Bytes) (encryptor : gcm.Encryptor) :
    Program gcm.Encryptor := do
  let chunk ← read (rest.take chunkSize)
  if _unread : rest = [] then
    pure encryptor
  else
    requireStoragePath destination
    let (out, next) := gcm.encryptorUpdate encryptor chunk
    write temporary out
    encryptChunks destination temporary (rest.drop chunkSize) next
termination_by rest.length
decreasing_by
  have some : 0 < rest.length := List.length_pos_iff.mpr _unread
  have whole : 0 < chunkSize := by decide
  rw [List.length_drop]
  omega

def encryptInto (source destination temporary : Path) (nonce : Nonce) (encryptor : gcm.Encryptor) :
    Program Unit := do
  let content ← openRead source
  closing do
    openNew temporary
    closing do
      write temporary formatMagic
      write temporary nonce
      let encryptor ← encryptChunks gcm destination temporary content encryptor
      write temporary (gcm.encryptorFinalize encryptor).1
      write temporary (gcm.encryptorFinalize encryptor).2
      sync
      sync

def encryptFile (source destination : Path) (key : Bytes) (nonce : Nonce) (hex : String) : Program Unit := do
  requireStoragePath source
  requireStoragePath destination
  makeParent destination
  let temporary := temporaryPath destination hex "encrypt"
  let encryptor ← cipher key (gcm.encryptor key nonce)
  cleaning temporary do
    encryptInto gcm source destination temporary nonce encryptor
    publish temporary destination

/-- `while remaining` over what is unread of the source. -/
def decryptChunks (temporary : Path) (rest : Bytes) (remaining : Nat) (decryptor : gcm.Decryptor) :
    Program gcm.Decryptor := do
  if _more : remaining = 0 then
    pure decryptor
  else
    operate
    let chunk := rest.take (min chunkSize remaining)
    if _unread : chunk = [] then
      throw (.mediaEncryption "Stored media is truncated")
    else
      let (out, next) := gcm.decryptorUpdate decryptor chunk
      write temporary out
      decryptChunks temporary (rest.drop chunk.length) (remaining - chunk.length) next
termination_by remaining
decreasing_by
  have some : 0 < (rest.take (min chunkSize remaining)).length := List.length_pos_iff.mpr _unread
  omega

def decryptInto (source temporary : Path) (key : Bytes) : Program Unit := do
  let content ← openRead source
  closing do
    let header ← read (content.take headerSize)
    demand (header.length = headerSize ∧ formatMagic <+: header)
      (.mediaEncryption "Stored media has an unknown encryption format")
    let nonce := header.drop formatMagic.length
    let total ← statSize source
    demand (headerSize + tagSize ≤ total) (.mediaEncryption "Stored media is truncated")
    let tag ← read ((content.drop (total - tagSize)).take tagSize)
    let decryptor ← cipher key (gcm.decryptor key nonce tag)
    openNew temporary
    closing do
      let remaining := total - headerSize - tagSize
      let decryptor ← decryptChunks gcm temporary (content.drop headerSize) remaining decryptor
      let final ← finalized (gcm.decryptorFinalize decryptor)
      write temporary final
      sync
      sync

def decryptFile (source destination : Path) (key : Bytes) (hex : String) : Program Unit := do
  requireStoragePath source
  requireStoragePath destination
  makeParent destination
  let temporary := temporaryPath destination hex "decrypt"
  cleaning temporary do
    decryptInto gcm source temporary key
    publish temporary destination

section Rules
variable {σ κ : Type} {P : σ → Prop} {E : FileError → σ → Prop}

theorem cipher_rule {key : Bytes} {context : κ} (refused : ¬ IsAesKey key → ∀ s, P s → E .invalidKey s) :
    Does P (cipher key context) (fun got s => got = context ∧ IsAesKey key ∧ P s) E := by
  apply Does.ite
  · intro aes
    exact Does.pure fun s holds => ⟨rfl, aes, holds⟩
  · intro other
    exact Does.throw (refused other)

theorem finalized_rule {final : Option Bytes}
    (refused : final = none → ∀ s, P s → E (.mediaEncryption "Stored media failed authentication") s) :
    Does P (finalized final) (fun out s => final = some out ∧ P s) E := by
  cases final with
  | none => exact Does.throw (refused rfl)
  | some out => exact Does.pure fun s here => ⟨rfl, here⟩

end Rules

/-! ### What the operations do -/

/-- The storage of a program begun at `start`, with these files. -/
structure At (start : Storage) (files : Path → Option Bytes) (s : Storage) : Prop where
  files_eq : s.files = files
  faults : true ∉ start.faults → true ∉ s.faults
  unlinks : true ∉ start.unlinkFaults → true ∉ s.unlinkFaults

def Storage.Works (s : Storage) : Prop := true ∉ s.faults ∧ true ∉ s.unlinkFaults

/-- An exception leaves files that are allowed, and where the storage works it has its
reason. -/
def Raises (start : Storage) (allowed : (Path → Option Bytes) → Prop) (reason : Prop) (_ : FileError)
    (s : Storage) : Prop :=
  ∃ files, allowed files ∧ At start files s ∧ (start.Works → reason)

section Operations
variable {start : Storage} {files : Path → Option Bytes} {allowed : (Path → Option Bytes) → Prop}
  {reason : Prop} {path : Path}

theorem Raises.weaken {left : (Path → Option Bytes) → Prop} {cause : Prop} {error : FileError} {s : Storage}
    (raises : Raises start allowed reason error s) (leaves : ∀ files, allowed files → left files)
    (causes : reason → cause) : Raises start left cause error s := by
  obtain ⟨files, held, here, why⟩ := raises
  exact ⟨files, leaves files held, here, fun works => causes (why works)⟩

theorem operate_does (left : allowed files) :
    Does (At start files) operate (fun _ => At start files) (Raises start allowed reason) := by
  apply Does.bind (Q := fun t s => At start files t ∧ s = t)
  · exact Does.get fun s here => ⟨here, rfl⟩
  · intro t
    apply Does.pull
    intro here
    cases ahead : t.faults with
    | nil =>
      apply Does.pure
      rintro s rfl
      exact here
    | cons fault later =>
      have shorter : true ∉ start.faults → true ∉ later := fun works =>
        fun member => here.faults works (ahead ▸ List.mem_cons_of_mem _ member)
      have after : At start files { t with faults := later } := ⟨here.files_eq, shorter, here.unlinks⟩
      apply Does.bind (Q := fun _ => (· = { t with faults := later }))
      · exact Does.set fun _ _ => rfl
      · intro _
        apply Does.ite
        · intro failed
          apply Does.throw
          rintro s rfl
          refine ⟨files, left, after, fun works => ?_⟩
          exact absurd (ahead ▸ failed ▸ List.mem_cons_self) (here.faults works.1)
        · intro _
          apply Does.pure
          rintro s rfl
          exact after

theorem openRead_does (left : allowed files) (missing : files path = none → reason) :
    Does (At start files) (openRead path) (fun content s => files path = some content ∧ At start files s)
      (Raises start allowed reason) := by
  apply Does.bind (operate_does left)
  intro _
  apply Does.bind (Q := fun t s => At start files t ∧ s = t)
  · exact Does.get fun s here => ⟨here, rfl⟩
  · intro t
    apply Does.pull
    intro here
    cases found : t.files path with
    | none =>
      apply Does.throw
      rintro s rfl
      exact ⟨files, left, here, fun _ => missing (here.files_eq ▸ found)⟩
    | some content =>
      apply Does.pure
      rintro s rfl
      exact ⟨here.files_eq ▸ found, here⟩

theorem read_does {bytes : Bytes} (left : allowed files) :
    Does (At start files) (read bytes) (fun got s => got = bytes ∧ At start files s)
      (Raises start allowed reason) := by
  apply Does.bind (operate_does left)
  intro _
  exact Does.pure fun s here => ⟨rfl, here⟩

theorem statSize_does {content : Bytes} (left : allowed files) (stored : files path = some content) :
    Does (At start files) (statSize path) (fun size s => size = content.length ∧ At start files s)
      (Raises start allowed reason) := by
  apply Does.bind (openRead_does left fun absent => absurd absent (by rw [stored]; exact Option.some_ne_none _))
  intro got
  apply Does.pull
  intro found
  rw [stored] at found
  exact Does.pure fun s here => ⟨congrArg List.length (Option.some.inj found).symm, here⟩

theorem openNew_does (left : allowed files) (free : files path = none) :
    Does (At start files) (openNew path) (fun _ => At start (Function.update files path (some [])))
      (Raises start allowed reason) := by
  apply Does.bind (operate_does left)
  intro _
  apply Does.bind (Q := fun t s => At start files t ∧ s = t)
  · exact Does.get fun s here => ⟨here, rfl⟩
  · intro t
    apply Does.pull
    intro here
    apply Does.ite
    · intro taken
      rw [here.files_eq, free] at taken
      cases taken
    · intro _
      apply Does.set
      rintro s rfl
      exact ⟨congrArg (Function.update · path (some [])) here.files_eq, here.faults, here.unlinks⟩

theorem write_does {bytes written : Bytes} (left : allowed (Function.update files path (some written))) :
    Does (At start (Function.update files path (some written))) (write path bytes)
      (fun _ => At start (Function.update files path (some (written ++ bytes)))) (Raises start allowed reason) := by
  apply Does.bind (operate_does left)
  intro _
  apply Does.modify
  intro s here
  refine ⟨?_, here.faults, here.unlinks⟩
  simp only [here.files_eq, Function.update_self, Option.map_some, Function.update_idem]

theorem link_does {existing : Path} {bytes : Bytes} (left : allowed files) (stored : files existing = some bytes)
    (taken : files path ≠ none → reason) :
    Does (At start files) (link existing path)
      (fun _ s => files path = none ∧ At start (Function.update files path (some bytes)) s)
      (Raises start allowed reason) := by
  apply Does.bind (operate_does left)
  intro _
  apply Does.bind (Q := fun t s => At start files t ∧ s = t)
  · exact Does.get fun s here => ⟨here, rfl⟩
  · intro t
    apply Does.pull
    intro here
    apply Does.ite
    · intro some
      apply Does.throw
      rintro s rfl
      refine ⟨files, left, here, fun _ => taken ?_⟩
      rw [← here.files_eq]
      exact Option.isSome_iff_ne_none.mp some
    · intro absent
      apply Does.set
      rintro s rfl
      rw [Option.not_isSome_iff_eq_none, here.files_eq] at absent
      refine ⟨absent, ?_, here.faults, here.unlinks⟩
      rw [here.files_eq, stored]

/-- Only a removal that fails leaves the file. -/
theorem unlink_does (left : true ∈ start.unlinkFaults → allowed files) :
    Does (At start files) (unlink path) (fun _ => At start (Function.update files path none))
      (Raises start allowed reason) := by
  apply Does.bind (Q := fun t s => At start files t ∧ s = t)
  · exact Does.get fun s here => ⟨here, rfl⟩
  · intro t
    apply Does.pull
    intro here
    have gone : Function.update t.files path none = Function.update files path none := by rw [here.files_eq]
    cases ahead : t.unlinkFaults with
    | nil =>
      apply Does.set
      rintro s rfl
      exact ⟨gone, here.faults, fun _ => List.not_mem_nil⟩
    | cons fault later =>
      have shorter : true ∉ start.unlinkFaults → true ∉ later := fun works =>
        fun member => here.unlinks works (ahead ▸ List.mem_cons_of_mem _ member)
      cases fault with
      | false =>
        apply Does.set
        rintro s rfl
        exact ⟨gone, here.faults, shorter⟩
      | true =>
        have broken : true ∈ start.unlinkFaults := by
          by_contra works
          exact here.unlinks works (ahead ▸ List.mem_cons_self)
        apply Does.bind (Q := fun _ => (· = { t with unlinkFaults := later }))
        · exact Does.set fun _ _ => rfl
        · intro _
          apply Does.throw
          rintro s rfl
          exact ⟨files, left broken, ⟨here.files_eq, here.faults, shorter⟩, fun works => absurd broken works.2⟩

theorem cipher_does {κ : Type} {key : Bytes} {context : κ} (left : allowed files) (refused : ¬ IsAesKey key → reason) :
    Does (At start files) (cipher key context)
      (fun got s => got = context ∧ IsAesKey key ∧ At start files s) (Raises start allowed reason) :=
  cipher_rule fun other _ here => ⟨files, left, here, fun _ => refused other⟩

theorem demand_does {condition : Prop} [Decidable condition] {error : FileError} (left : allowed files)
    (refused : ¬ condition → reason) :
    Does (At start files) (demand condition error) (fun _ s => condition ∧ At start files s)
      (Raises start allowed reason) :=
  Does.demand fun fails _ here => ⟨files, left, here, fun _ => refused fails⟩

theorem finalized_does {final : Option Bytes} (left : allowed files) (refused : final = none → reason) :
    Does (At start files) (finalized final) (fun out s => final = some out ∧ At start files s)
      (Raises start allowed reason) :=
  finalized_rule fun invalid _ here => ⟨files, left, here, fun _ => refused invalid⟩

/-- The end of a `with`, also of one that raises. -/
theorem closing_does {α : Type} {body : Program α} {P : Storage → Prop} {Q : α → Storage → Prop}
    (done : ∀ a s, Q a s → ∃ files, allowed files ∧ At start files s ∧ ∀ t, At start files t → Q a t)
    (does : Does P body Q (Raises start allowed reason)) :
    Does P (closing body) Q (Raises start allowed reason) := by
  apply Does.lastly does
  · intro a s ended
    obtain ⟨files, left, here, stays⟩ := done a s ended
    have closed : Does (At start files) sync (fun _ => Q a) (Raises start allowed reason) :=
      Does.mono (operate_does left) (fun _ here => here) (fun _ => stays) (fun _ _ raised => raised)
    exact closed s here
  · rintro error s ⟨files, left, here, why⟩
    have closed : Does (At start files) sync (fun _ => Raises start allowed reason error)
        (Raises start allowed reason) :=
      Does.mono (operate_does left) (fun _ here => here) (fun _ t ended => ⟨files, left, ended, why⟩)
        (fun _ _ raised => raised)
    exact closed s here

end Operations

end Drivebound.Encryption
