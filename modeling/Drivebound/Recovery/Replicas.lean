import Drivebound.Core.Disks
import Drivebound.Core.Fallback
import Drivebound.Encryption.Files

/-! `restore_from_candidates`: an original is restored from the first replica that still has its
bytes. Whatever a source shows it may show otherwise when it is read again, and every operation
may fail. -/
namespace Drivebound.Recovery
open Effects Encryption Fallback

/-- `modified` is what `os.utime` has set, where it has. -/
structure File where
  content : Bytes
  modified : Option Int
  deriving DecidableEq

abbrev Disk := Path → Option File

structure ReplicaFailure where
  id : Nat
  reason : String
  deriving DecidableEq

inductive RestoreError where
  | invalidReplica (code : String)
  | noUsableReplica (failures : List ReplicaFailure)
  | storageUnavailable
  | fileNotFound
  | osError
  deriving DecidableEq

abbrev Program := Act Disk RestoreError

/-- What comes of reading a file to its end. -/
inductive Reading where
  | content (bytes : Bytes)
  | notFound
  | failed

/-- What comes of copying the source into the temporary file: all that the source gave, or an
exception, with what was left of the temporary file where it had been created. -/
inductive Copying where
  | whole (bytes : Bytes)
  | notFound (left : Option Bytes)
  | failed (left : Option Bytes)

/-- What an attempt to copy a replica meets: `hex` is the part of the temporary name that is new,
`isFile` is `none` where the file's status cannot be asked for, and the others say whether the
operation works. -/
structure Meets where
  hex : String
  sourceReady : Bool
  destinationReady : Bool
  isFile : Option Bool
  checked : Reading
  parentMade : Bool
  copied : Copying
  temporaryRead : Bool
  stillReady : Bool
  replaced : Bool
  stamped : Bool
  temporaryReady : Bool
  unlinked : Bool

/-- A candidate, and what the attempt to copy its path meets. -/
structure ReplicaCandidate where
  id : Nat
  meets : Meets

def put (path : Path) (file : Option File) : Program Unit := modify fun disk => Function.update disk path file

section Copying
variable (sha256 : Bytes → String) (expected : String) (timestamp : Option Int) (destination : Path) (m : Meets)

def temporaryOf : Path := temporaryPath destination m.hex "restore"

/-- `sha256_file(source)` -/
def readSource : Program Bytes :=
  match m.checked with
  | .content bytes => pure bytes
  | .notFound => throw .fileNotFound
  | .failed => throw .osError

def checkSource : Program Unit :=
  tryCatchThe RestoreError (do
    let content ← readSource m
    demand (sha256 content = expected) (.invalidReplica "checksum_mismatch")) fun
    | .fileNotFound => throw (.invalidReplica "missing")
    | .osError => throw (.invalidReplica "unreadable")
    | error => throw error

/-- The temporary file as far as it was written. -/
def leave (left : Option Bytes) : Program Unit :=
  match left with
  | none => pure ()
  | some bytes => put (temporaryOf destination m) (some ⟨bytes, none⟩)

def copyFile : Program Unit :=
  match m.copied with
  | .whole bytes => leave destination m (some bytes)
  | .notFound left => do
    leave destination m left
    throw .fileNotFound
  | .failed left => do
    leave destination m left
    throw .osError

def copySource : Program Unit :=
  tryCatchThe RestoreError (copyFile destination m) fun
    | .fileNotFound => throw (.invalidReplica "disappeared")
    | error => throw error

/-- `sha256_file(temporary)` -/
def readTemporary : Program Bytes := do
  demand m.temporaryRead .osError
  match (← get) (temporaryOf destination m) with
  | none => throw .fileNotFound
  | some file => pure file.content

/-- `os.replace` -/
def replace : Program Unit := do
  demand m.replaced .osError
  modify fun disk => Disks.move disk (temporaryOf destination m) destination

/-- `os.utime` -/
def stamp : Program Unit :=
  match timestamp with
  | none => pure ()
  | some time => do
    demand m.stamped .osError
    modify fun disk => Function.update disk destination ((disk destination).map fun file => { file with modified := some time })

/-- `temporary.unlink(missing_ok=True)` -/
def unlink : Program Unit := do
  demand m.unlinked .osError
  put (temporaryOf destination m) none

def copyVerifiedReplica : Program Unit := do
  demand m.sourceReady .storageUnavailable
  demand m.destinationReady .storageUnavailable
  demand m.isFile.isSome .osError
  demand (m.isFile = some true) (.invalidReplica "missing")
  checkSource sha256 expected m
  demand m.parentMade .osError
  tryFinally
    (do
      copySource destination m
      let content ← readTemporary destination m
      demand (sha256 content = expected) (.invalidReplica "copy_checksum_mismatch")
      demand m.stillReady .storageUnavailable
      replace destination m
      stamp timestamp destination m)
    (do
      demand m.temporaryReady .storageUnavailable
      unlink destination m)

end Copying

/-- What `except InvalidReplicaError` takes. -/
def RestoreError.code : RestoreError → Option String
  | .invalidReplica code => some code
  | _ => none

def failureOf (failure : ReplicaCandidate × String) : ReplicaFailure := ⟨failure.1.id, failure.2⟩

def restoreFromCandidates (sha256 : Bytes → String) (expected : String) (timestamp : Option Int) (destination : Path)
    (candidates : List ReplicaCandidate) : Program (Nat × List ReplicaFailure) := do
  let (candidate, failures) ← firstOf (fun c => copyVerifiedReplica sha256 expected timestamp destination c.meets)
    RestoreError.code (fun failures => .noUsableReplica (failures.map failureOf)) [] candidates
  pure (candidate.id, failures.map failureOf)

/-! ### What an attempt comes to -/

section Verdicts
variable (sha256 : Bytes → String) (expected : String) (timestamp : Option Int) (m : Meets)

structure Ready : Prop where
  source : m.sourceReady = true
  destination : m.destinationReady = true

/-- The source passes the first reading. -/
structure Passes : Prop extends Ready m where
  file : m.isFile = some true
  checked : ∃ content, m.checked = .content content ∧ sha256 content = expected
  parent : m.parentMade = true

structure Cleaned : Prop where
  ready : m.temporaryReady = true
  unlinked : m.unlinked = true

/-- The five codes of an invalid replica, and where they come from. -/
inductive Declined : String → Prop
  | absent (ready : Ready m) (file : m.isFile = some false) : Declined "missing"
  | missing (ready : Ready m) (file : m.isFile = some true) (checked : m.checked = .notFound) : Declined "missing"
  | unreadable (ready : Ready m) (file : m.isFile = some true) (checked : m.checked = .failed) :
      Declined "unreadable"
  | mismatch {content : Bytes} (ready : Ready m) (file : m.isFile = some true) (checked : m.checked = .content content)
      (other : sha256 content ≠ expected) : Declined "checksum_mismatch"
  | disappeared {left : Option Bytes} (passes : Passes sha256 expected m) (copied : m.copied = .notFound left)
      (cleaned : Cleaned m) : Declined "disappeared"
  | copyMismatch {bytes : Bytes} (passes : Passes sha256 expected m) (copied : m.copied = .whole bytes)
      (read : m.temporaryRead = true) (other : sha256 bytes ≠ expected) (cleaned : Cleaned m) :
      Declined "copy_checksum_mismatch"

/-- The bytes arrive, and everything about the destination works. -/
structure Delivers (bytes : Bytes) : Prop where
  passes : Passes sha256 expected m
  copied : m.copied = .whole bytes
  same : sha256 bytes = expected
  read : m.temporaryRead = true
  ready : m.stillReady = true
  replaced : m.replaced = true
  stamped : timestamp.isSome → m.stamped = true
  cleaned : Cleaned m

/-- What raises an exception that is no verdict on the replica. -/
inductive Troubled : Prop
  | drive (away : m.sourceReady = false ∨ m.destinationReady = false) : Troubled
  | status (ready : Ready m) (unknown : m.isFile = none) : Troubled
  | parent {content : Bytes} (ready : Ready m) (file : m.isFile = some true) (checked : m.checked = .content content)
      (same : sha256 content = expected) (unmade : m.parentMade = false) : Troubled
  | copying {left : Option Bytes} (passes : Passes sha256 expected m) (copied : m.copied = .failed left) : Troubled
  | rereading {bytes : Bytes} (passes : Passes sha256 expected m) (copied : m.copied = .whole bytes)
      (unread : m.temporaryRead = false) : Troubled
  | publishing {bytes : Bytes} (passes : Passes sha256 expected m) (copied : m.copied = .whole bytes)
      (same : sha256 bytes = expected)
      (failed : m.stillReady = false ∨ m.replaced = false ∨ timestamp.isSome ∧ m.stamped = false) : Troubled
  | cleaning (passes : Passes sha256 expected m) (left : m.temporaryReady = false ∨ m.unlinked = false) : Troubled

/-- The candidate has the bytes, and keeps them until they are copied. -/
structure CanDeliver (bytes : Bytes) : Prop where
  file : m.isFile = some true
  checked : ∃ content, m.checked = .content content ∧ sha256 content = expected
  copied : m.copied = .whole bytes
  same : sha256 bytes = expected

end Verdicts

/-! ### What an attempt does -/

section Attempt
variable {sha256 : Bytes → String} {expected : String} {timestamp : Option Int} {destination : Path} {m : Meets}
  {disk : Disk}

theorem put_rule {path : Path} {file : Option File} {P : Disk → Prop} {E : RestoreError → Disk → Prop} :
    Does P (put path file) (fun _ s => ∃ t, P t ∧ s = Function.update t path file) E :=
  Does.modify fun t here => ⟨t, here, rfl⟩

/-- An attempt that does not deliver: a verdict leaves the disk as it was. -/
def Fails (sha256 : Bytes → String) (expected : String) (timestamp : Option Int) (m : Meets) (disk : Disk)
    (e : RestoreError) (s : Disk) : Prop :=
  (∃ code, e = .invalidReplica code ∧ Declined sha256 expected m code ∧ s = disk) ∨
    ((e = .storageUnavailable ∨ e = .osError) ∧ Troubled sha256 expected timestamp m)

theorem checkSource_does (ready : Ready m) (file : m.isFile = some true) :
    Does (· = disk) (checkSource sha256 expected m)
      (fun _ s => (∃ content, m.checked = .content content ∧ sha256 content = expected) ∧ s = disk)
      (Fails sha256 expected timestamp m disk) := by
  unfold checkSource
  cases checked : m.checked with
  | notFound =>
    apply Does.caught (D := fun e s => e = .fileNotFound ∧ s = disk)
    · rw [readSource, checked]
      exact Does.bind (Q := fun _ _ => False) (Does.throw fun s same => ⟨rfl, same⟩) fun _ s none_ => none_.elim
    · intro e s raised
      obtain ⟨rfl, rfl⟩ := raised
      exact .inl ⟨_, rfl, .missing ready file checked, rfl⟩
  | failed =>
    apply Does.caught (D := fun e s => e = .osError ∧ s = disk)
    · rw [readSource, checked]
      exact Does.bind (Q := fun _ _ => False) (Does.throw fun s same => ⟨rfl, same⟩) fun _ s none_ => none_.elim
    · intro e s raised
      obtain ⟨rfl, rfl⟩ := raised
      exact .inl ⟨_, rfl, .unreadable ready file checked, rfl⟩
  | content content =>
    apply Does.caught (D := fun e s => e = .invalidReplica "checksum_mismatch" ∧ sha256 content ≠ expected ∧ s = disk)
    · rw [readSource, checked]
      apply Does.bind (Q := fun got s => got = content ∧ s = disk) (Does.pure fun s same => ⟨rfl, same⟩)
      intro got
      apply Does.pull
      rintro rfl
      have compared : Does (· = disk) (demand (sha256 got = expected) (RestoreError.invalidReplica "checksum_mismatch"))
          (fun _ s => sha256 got = expected ∧ s = disk)
          (fun e s => e = .invalidReplica "checksum_mismatch" ∧ sha256 got ≠ expected ∧ s = disk) :=
        Does.demand fun other s same => ⟨rfl, other, same⟩
      apply Does.mono compared (fun _ here => here)
      · intro _ s here
        exact ⟨⟨got, rfl, here.1⟩, here.2⟩
      · exact fun _ _ raised => raised
    · intro e s raised
      obtain ⟨rfl, other, rfl⟩ := raised
      exact .inl ⟨_, rfl, .mismatch ready file checked other, rfl⟩

/-- What a failed copy leaves before its temporary file is removed. -/
def Broken (sha256 : Bytes → String) (expected : String) (timestamp : Option Int) (destination : Path) (m : Meets)
    (disk : Disk) (e : RestoreError) (s : Disk) : Prop :=
  (∃ code, e = .invalidReplica code ∧ (Cleaned m → Declined sha256 expected m code) ∧
      ∃ left, s = Function.update disk (temporaryOf destination m) left) ∨
    ((e = .storageUnavailable ∨ e = .osError) ∧ Troubled sha256 expected timestamp m)

theorem leave_does (free : disk (temporaryOf destination m) = none) (left : Option Bytes)
    {E : RestoreError → Disk → Prop} : Does (· = disk) (leave destination m left)
      (fun _ s => s = Function.update disk (temporaryOf destination m) (left.map (File.mk · none))) E := by
  cases left with
  | none =>
    refine Does.pure fun s same => ?_
    rw [Option.map_none, ← free, Function.update_eq_self]
    exact same
  | some bytes =>
    apply Does.mono put_rule (fun _ here => here)
    · rintro _ s ⟨t, rfl, rfl⟩
      rfl
    · exact fun _ _ raised => raised

theorem copySource_does (free : disk (temporaryOf destination m) = none) (passes : Passes sha256 expected m) :
    Does (· = disk) (copySource destination m)
      (fun _ s => ∃ bytes, m.copied = .whole bytes ∧
        s = Function.update disk (temporaryOf destination m) (some ⟨bytes, none⟩))
      (Broken sha256 expected timestamp destination m disk) := by
  unfold copySource
  cases copied : m.copied with
  | whole bytes =>
    apply Does.caught (D := fun _ _ => False)
    · rw [copyFile, copied]
      apply Does.mono (leave_does free (some bytes)) (fun _ here => here)
      · intro _ s here
        exact ⟨bytes, rfl, here⟩
      · exact fun _ _ raised => raised
    · exact fun _ _ none_ => none_.elim
  | notFound left =>
    apply Does.caught (D := fun e s => e = .fileNotFound ∧
      s = Function.update disk (temporaryOf destination m) (left.map (File.mk · none)))
    · rw [copyFile, copied]
      exact Does.bind (leave_does free left) fun _ => Does.throw fun s here => ⟨rfl, here⟩
    · intro e s raised
      obtain ⟨rfl, here⟩ := raised
      exact .inl ⟨_, rfl, .disappeared passes copied, _, here⟩
  | failed left =>
    apply Does.caught (D := fun e _ => e = .osError)
    · rw [copyFile, copied]
      exact Does.bind (leave_does free left) fun _ => Does.throw fun s here => rfl
    · intro e s raised
      subst raised
      exact .inr ⟨.inr rfl, .copying passes copied⟩

theorem readTemporary_does {bytes : Bytes} {E : RestoreError → Disk → Prop}
    (unread : m.temporaryRead = false → ∀ s, E .osError s) :
    Does (· = Function.update disk (temporaryOf destination m) (some ⟨bytes, none⟩)) (readTemporary destination m)
      (fun got s => got = bytes ∧ m.temporaryRead = true ∧
        s = Function.update disk (temporaryOf destination m) (some ⟨bytes, none⟩)) E := by
  apply Does.bind (Does.demand fun refused s _ => unread (Bool.eq_false_iff.mpr refused) s)
  intro _
  apply Does.pull
  intro read
  apply Does.bind (Q := fun t s => t = Function.update disk (temporaryOf destination m) (some ⟨bytes, none⟩) ∧ s = t)
  · exact Does.get fun s here => ⟨here, rfl⟩
  · intro t
    apply Does.pull
    rintro rfl
    rw [Function.update_self]
    exact Does.pure fun s here => ⟨rfl, read, here⟩

/-- The destination has the copy, with its time where there is one. -/
def published (disk : Disk) (destination : Path) (bytes : Bytes) (timestamp : Option Int) : Disk :=
  Function.update disk destination (some ⟨bytes, timestamp⟩)

/-- There is no temporary file beside what is published. -/
theorem published_free {bytes : Bytes} {time : Option Int} {temporary : Path} (free : disk temporary = none)
    (apart : temporary ≠ destination) :
    Function.update (published disk destination bytes time) temporary none = published disk destination bytes time := by
  have gone : published disk destination bytes time temporary = none := by
    rw [published, Function.update_of_ne apart, free]
  rw [← gone, Function.update_eq_self]

theorem publish_does {bytes : Bytes} {E : RestoreError → Disk → Prop}
    (free : disk (temporaryOf destination m) = none)
    (failed : m.replaced = false ∨ timestamp.isSome ∧ m.stamped = false → ∀ s, E .osError s) :
    Does (· = Function.update disk (temporaryOf destination m) (some ⟨bytes, none⟩))
      (do
        replace destination m
        stamp timestamp destination m)
      (fun _ s => (m.replaced = true ∧ (timestamp.isSome → m.stamped = true)) ∧
        s = published disk destination bytes timestamp) E := by
  have apart : destination ≠ temporaryOf destination m := (temporaryPath_ne _ _ _).symm
  have moved : Does (· = Function.update disk (temporaryOf destination m) (some ⟨bytes, none⟩)) (replace destination m)
      (fun _ s => m.replaced = true ∧ s = published disk destination bytes none) E := by
    apply Does.bind (Does.demand fun refused s _ => failed (.inl (Bool.eq_false_iff.mpr refused)) s)
    intro _
    apply Does.pull
    intro replaced
    apply Does.modify
    rintro s rfl
    exact ⟨replaced, Disks.move_made apart free _⟩
  apply Does.bind moved
  intro _
  apply Does.pull
  intro replaced
  cases timestamp with
  | none => exact Does.pure fun s here => ⟨⟨replaced, fun timed => absurd timed Bool.false_ne_true⟩, here⟩
  | some time =>
    apply Does.bind (Does.demand fun refused s _ => failed (.inr ⟨rfl, Bool.eq_false_iff.mpr refused⟩) s)
    intro _
    apply Does.pull
    intro stamped
    apply Does.modify
    rintro s rfl
    refine ⟨⟨replaced, fun _ => stamped⟩, ?_⟩
    rw [published, Function.update_self, Function.update_idem]
    rfl

/-- What is done while the temporary file is there. -/
theorem body_does (free : disk (temporaryOf destination m) = none) (passes : Passes sha256 expected m) :
    Does (· = disk)
      (do
        copySource destination m
        let content ← readTemporary destination m
        demand (sha256 content = expected) (.invalidReplica "copy_checksum_mismatch")
        demand m.stillReady .storageUnavailable
        replace destination m
        stamp timestamp destination m)
      (fun _ s => ∃ bytes, (Cleaned m → Delivers sha256 expected timestamp m bytes) ∧
        s = published disk destination bytes timestamp)
      (Broken sha256 expected timestamp destination m disk) := by
  apply Does.bind (copySource_does free passes)
  intro _
  apply Does.pick
  intro bytes
  apply Does.pull
  intro copied
  apply Does.bind (readTemporary_does fun unread s => .inr ⟨.inr rfl, .rereading passes copied unread⟩)
  intro content
  apply Does.pull
  rintro rfl
  apply Does.pull
  intro read
  apply Does.bind (Does.demand fun other s here =>
    .inl ⟨_, rfl, fun cleaned => .copyMismatch passes copied read other cleaned, _, here⟩)
  intro _
  apply Does.pull
  intro same
  apply Does.bind (Does.demand fun refused s _ =>
    .inr ⟨.inl rfl, .publishing passes copied same (.inl (Bool.eq_false_iff.mpr refused))⟩)
  intro _
  apply Does.pull
  intro ready
  have trouble : m.replaced = false ∨ timestamp.isSome ∧ m.stamped = false → ∀ s,
      Broken sha256 expected timestamp destination m disk .osError s :=
    fun failed s => .inr ⟨.inr rfl, .publishing passes copied same (.inr failed)⟩
  apply Does.mono (publish_does free trouble) (fun _ here => here)
  · rintro _ s ⟨⟨replaced, stamped⟩, here⟩
    exact ⟨content, fun cleaned => ⟨passes, copied, same, read, ready, replaced, stamped, cleaned⟩, here⟩
  · exact fun _ _ raised => raised

/-- The end of the attempt removes the temporary file, or is itself in trouble. -/
theorem cleanup_does {P Q : Disk → Prop} {E : RestoreError → Disk → Prop}
    (left : m.temporaryReady = false ∨ m.unlinked = false → ∀ e s, e = .storageUnavailable ∨ e = .osError → E e s)
    (cleans : Cleaned m → ∀ s, P s → Q (Function.update s (temporaryOf destination m) none)) :
    Does P (do
      demand m.temporaryReady .storageUnavailable
      unlink destination m) (fun _ => Q) E := by
  apply Does.bind (Does.demand fun refused s _ => left (.inl (Bool.eq_false_iff.mpr refused)) _ s (.inl rfl))
  intro _
  apply Does.pull
  intro ready
  apply Does.bind (Does.demand fun refused s _ => left (.inr (Bool.eq_false_iff.mpr refused)) _ s (.inr rfl))
  intro _
  apply Does.pull
  intro unlinked
  exact Does.modify fun s here => cleans ⟨ready, unlinked⟩ s here

theorem absent_of {isFile : Option Bool} (known : isFile.isSome = true) (other : ¬isFile = some true) :
    isFile = some false := by
  cases isFile with
  | none => cases known
  | some present =>
    cases present with
    | false => rfl
    | true => exact absurd rfl other

/-- An attempt delivers, gives one of its verdicts, or is in trouble. -/
theorem copyVerifiedReplica_does (free : disk (temporaryOf destination m) = none) :
    Does (· = disk) (copyVerifiedReplica sha256 expected timestamp destination m)
      (fun _ s => ∃ bytes, Delivers sha256 expected timestamp m bytes ∧
        s = published disk destination bytes timestamp)
      (Fails sha256 expected timestamp m disk) := by
  apply Does.bind (Does.demand fun refused s _ =>
    .inr ⟨.inl rfl, .drive (.inl (Bool.eq_false_iff.mpr refused))⟩)
  intro _
  apply Does.pull
  intro source
  apply Does.bind (Does.demand fun refused s _ =>
    .inr ⟨.inl rfl, .drive (.inr (Bool.eq_false_iff.mpr refused))⟩)
  intro _
  apply Does.pull
  intro there
  have ready : Ready m := ⟨source, there⟩
  apply Does.bind (Does.demand fun unknown s _ =>
    .inr ⟨.inr rfl, .status ready (Option.not_isSome_iff_eq_none.mp unknown)⟩)
  intro _
  apply Does.pull
  intro known
  apply Does.bind (Does.demand fun other s same => .inl ⟨_, rfl, .absent ready (absent_of known other), same⟩)
  intro _
  apply Does.pull
  intro file
  apply Does.bind (checkSource_does ready file)
  intro _
  apply Does.pull
  rintro ⟨content, checked, same⟩
  apply Does.bind (Does.demand fun refused s _ =>
    .inr ⟨.inr rfl, .parent ready file checked same (Bool.eq_false_iff.mpr refused)⟩)
  intro _
  apply Does.pull
  intro parent
  have passes : Passes sha256 expected m := ⟨ready, file, ⟨content, checked, same⟩, parent⟩
  have apart : temporaryOf destination m ≠ destination := temporaryPath_ne _ _ _
  apply Does.lastly (body_does free passes)
  · intro _
    apply cleanup_does
    · exact fun left e s kind => .inr ⟨kind, .cleaning passes left⟩
    · rintro cleaned s ⟨bytes, delivers, rfl⟩
      exact ⟨bytes, delivers cleaned, published_free free apart⟩
  · intro e
    apply cleanup_does
    · exact fun left e s kind => .inr ⟨kind, .cleaning passes left⟩
    · rintro cleaned s (⟨code, rfl, declined, rest, rfl⟩ | trouble)
      · refine .inl ⟨code, rfl, declined cleaned, ?_⟩
        rw [Function.update_idem, ← free, Function.update_eq_self]
      · exact .inr trouble

theorem Declined.not_canDeliver {code : String} {bytes : Bytes} (declined : Declined sha256 expected m code) :
    ¬CanDeliver sha256 expected m bytes := by
  rintro ⟨file, ⟨content, checked, same⟩, copied, arrived⟩
  cases declined with
  | absent ready absent => exact Bool.false_ne_true (Option.some.inj (absent.symm.trans file))
  | missing ready _ missing => cases missing.symm.trans checked
  | unreadable ready _ unreadable => cases unreadable.symm.trans checked
  | mismatch ready _ read other =>
    cases read.symm.trans checked
    exact other same
  | disappeared passes gone cleaned => cases gone.symm.trans copied
  | copyMismatch passes whole read other cleaned =>
    cases whole.symm.trans copied
    exact other arrived

theorem Delivers.canDeliver {bytes : Bytes} (delivers : Delivers sha256 expected timestamp m bytes) :
    CanDeliver sha256 expected m bytes :=
  ⟨delivers.passes.file, delivers.passes.checked, delivers.copied, delivers.same⟩

theorem Troubled.not_delivers {bytes : Bytes} (troubled : Troubled sha256 expected timestamp m) :
    ¬Delivers sha256 expected timestamp m bytes := by
  rintro ⟨passes, copied, same, read, ready, replaced, stamped, cleaned⟩
  cases troubled with
  | drive away => simp [passes.source, passes.destination] at away
  | status _ unknown => cases unknown.symm.trans passes.file
  | parent _ _ _ _ unmade => cases unmade.symm.trans passes.parent
  | copying _ failed => cases failed.symm.trans copied
  | rereading _ _ unread => cases unread.symm.trans read
  | publishing _ _ _ failed =>
    rcases failed with away | unreplaced | ⟨timed, unstamped⟩
    · cases away.symm.trans ready
    · cases unreplaced.symm.trans replaced
    · cases unstamped.symm.trans (stamped timed)
  | cleaning _ left => simp [cleaned.ready, cleaned.unlinked] at left

/-- Trouble before the temporary file is there is no verdict, and a verdict after that needs a
temporary file that could be copied, read and removed. -/
theorem Troubled.not_declined {code : String} (troubled : Troubled sha256 expected timestamp m) :
    ¬Declined sha256 expected m code := by
  intro declined
  have ready : Ready m := by
    cases declined with
    | absent ready | missing ready | unreadable ready | mismatch ready => exact ready
    | disappeared passes | copyMismatch passes => exact passes.toReady
  have known : m.isFile.isSome = true := by
    cases declined with
    | absent _ file | missing _ file | unreadable _ file | mismatch _ file => exact file ▸ rfl
    | disappeared passes | copyMismatch passes => exact passes.file ▸ rfl
  -- A source that passes is declined while it is copied or never.
  have late : ∀ content, m.isFile = some true → m.checked = .content content → sha256 content = expected →
      Passes sha256 expected m ∧ Cleaned m ∧
        ((∃ left, m.copied = .notFound left) ∨
          ∃ bytes, m.copied = .whole bytes ∧ m.temporaryRead = true ∧ sha256 bytes ≠ expected) := by
    intro content file checked same
    cases declined with
    | absent _ absent => cases absent.symm.trans file
    | missing _ _ missing => cases missing.symm.trans checked
    | unreadable _ _ unreadable => cases unreadable.symm.trans checked
    | mismatch _ _ read other =>
      cases read.symm.trans checked
      exact absurd same other
    | disappeared passes copied cleaned => exact ⟨passes, cleaned, .inl ⟨_, copied⟩⟩
    | copyMismatch passes copied read other cleaned => exact ⟨passes, cleaned, .inr ⟨_, copied, read, other⟩⟩
  have passed : Passes sha256 expected m → Cleaned m ∧ ((∃ left, m.copied = .notFound left) ∨
      ∃ bytes, m.copied = .whole bytes ∧ m.temporaryRead = true ∧ sha256 bytes ≠ expected) := by
    intro passes
    obtain ⟨content, checked, same⟩ := passes.checked
    exact (late content passes.file checked same).2
  cases troubled with
  | drive away => simp [ready.source, ready.destination] at away
  | status _ unknown => simp [unknown] at known
  | parent _ file checked same unmade => cases unmade.symm.trans (late _ file checked same).1.parent
  | copying passes failed =>
    rcases (passed passes).2 with ⟨left, gone⟩ | ⟨bytes, whole, -⟩
    · cases failed.symm.trans gone
    · cases failed.symm.trans whole
  | rereading passes whole unread =>
    rcases (passed passes).2 with ⟨left, gone⟩ | ⟨bytes, -, read, -⟩
    · cases whole.symm.trans gone
    · cases unread.symm.trans read
  | publishing passes whole same _ =>
    rcases (passed passes).2 with ⟨left, gone⟩ | ⟨bytes, again, -, other⟩
    · cases whole.symm.trans gone
    · cases whole.symm.trans again
      exact other same
  | cleaning passes left =>
    have cleaned := (passed passes).1
    simp [cleaned.ready, cleaned.unlinked] at left

/-- What comes of an attempt, from what it meets. -/
theorem copyVerifiedReplica_cases (free : disk (temporaryOf destination m) = none) :
    (∃ bytes, Delivers sha256 expected timestamp m bytes ∧
      (copyVerifiedReplica sha256 expected timestamp destination m).run.run disk =
        (.ok (), published disk destination bytes timestamp)) ∨
    (∃ code, Declined sha256 expected m code ∧
      (copyVerifiedReplica sha256 expected timestamp destination m).run.run disk =
        (.error (.invalidReplica code), disk)) ∨
    Troubled sha256 expected timestamp m ∧ ∃ e s, (e = .storageUnavailable ∨ e = .osError) ∧
      (copyVerifiedReplica sha256 expected timestamp destination m).run.run disk = (.error e, s) := by
  have does := @copyVerifiedReplica_does sha256 expected timestamp destination m disk free disk rfl
  generalize (copyVerifiedReplica sha256 expected timestamp destination m).run.run disk = result at does
  obtain ⟨value, s⟩ := result
  cases value with
  | ok done =>
    obtain ⟨bytes, delivers, rfl⟩ := does
    exact .inl ⟨bytes, delivers, rfl⟩
  | error e =>
    rcases does with ⟨code, rfl, declined, rfl⟩ | ⟨kind, troubled⟩
    · exact .inr (.inl ⟨code, declined, rfl⟩)
    · exact .inr (.inr ⟨troubled, e, s, kind, rfl⟩)

end Attempt

/-! ### What a restoration comes to -/

section Restoration
variable (sha256 : Bytes → String) (expected : String) (timestamp : Option Int) (destination : Path) (disk : Disk)

/-- A failure is the candidate's, with the reason that it was declined for. -/
def Noted (failure : ReplicaFailure) (candidate : ReplicaCandidate) : Prop :=
  failure.id = candidate.id ∧ Declined sha256 expected candidate.meets failure.reason

/-- The original is there with the bytes of the first candidate that can deliver them, or every
candidate is named. No other file has changed, and none is left. -/
inductive Restored (candidates : List ReplicaCandidate) :
    Except RestoreError (Nat × List ReplicaFailure) → Disk → Prop
  | published {before after : List ReplicaCandidate} {c : ReplicaCandidate} {failures : List ReplicaFailure}
      {bytes : Bytes} (split : candidates = before ++ c :: after)
      (earlier : ∀ b ∈ before, ∀ bytes, ¬CanDeliver sha256 expected b.meets bytes)
      (delivers : CanDeliver sha256 expected c.meets bytes)
      (failed : List.Forall₂ (Noted sha256 expected) failures before) :
      Restored candidates (.ok (c.id, failures)) (published disk destination bytes timestamp)
  | exhausted {failures : List ReplicaFailure}
      (all : ∀ c ∈ candidates, ∀ bytes, ¬CanDeliver sha256 expected c.meets bytes)
      (failed : List.Forall₂ (Noted sha256 expected) failures candidates) :
      Restored candidates (.error (.noUsableReplica failures)) disk

end Restoration

section Restoring
variable {sha256 : Bytes → String} {expected : String} {timestamp : Option Int} {destination : Path} {disk : Disk}
  {candidates : List ReplicaCandidate}

/-- The declined candidates with their codes. -/
theorem declined_log (timestamp : Option Int) (free : ∀ c ∈ candidates, disk (temporaryOf destination c.meets) = none)
    (declined : ∀ c ∈ candidates, ∃ code, Declined sha256 expected c.meets code) :
    ∃ log : List (ReplicaCandidate × String), log.map Prod.fst = candidates ∧
      List.Forall₂ (Noted sha256 expected) (log.map failureOf) candidates ∧
      ∀ failure ∈ log, Declines (fun c => copyVerifiedReplica sha256 expected timestamp destination c.meets)
        RestoreError.code disk failure := by
  induction candidates with
  | nil => exact ⟨[], rfl, .nil, fun failure among => absurd among List.not_mem_nil⟩
  | cons c rest ih =>
    rw [List.forall_mem_cons] at free declined
    obtain ⟨log, firsts, noted, all⟩ := ih free.2 declined.2
    obtain ⟨code, here⟩ := declined.1
    rcases @copyVerifiedReplica_cases sha256 expected timestamp destination c.meets disk free.1 with
      ⟨bytes, delivers, -⟩ | ⟨code', again, ran⟩ | ⟨troubled, -⟩
    · exact absurd delivers.canDeliver here.not_canDeliver
    · refine ⟨(c, code') :: log, congrArg (c :: ·) firsts, .cons ⟨rfl, again⟩ noted, ?_⟩
      exact List.forall_mem_cons.mpr ⟨⟨_, ran, rfl⟩, all⟩
    · exact absurd here troubled.not_declined

/-- The run of a restoration, from the search among its candidates. -/
theorem restoreFromCandidates_run {result : Except RestoreError (ReplicaCandidate × List (ReplicaCandidate × String))}
    {s : Disk} (searched : (firstOf (fun c => copyVerifiedReplica sha256 expected timestamp destination c.meets)
      RestoreError.code (fun failures => .noUsableReplica (failures.map failureOf)) [] candidates).run.run disk =
        (result, s)) :
    (restoreFromCandidates sha256 expected timestamp destination candidates).run.run disk =
      (result.map fun found => (found.1.id, found.2.map failureOf), s) := by
  rw [restoreFromCandidates, Does.bind_run, searched]
  cases result <;> rfl

/-- A restoration does what it is for exactly when no candidate that is tried is in trouble:
then the original comes from the first that has it, whatever is wrong with the earlier ones. -/
theorem restoreFromCandidates_restores_iff
    (fresh : ∀ c ∈ candidates, disk (temporaryOf destination c.meets) = none) :
    Restored sha256 expected timestamp destination disk candidates
        ((restoreFromCandidates sha256 expected timestamp destination candidates).run.run disk).1
        ((restoreFromCandidates sha256 expected timestamp destination candidates).run.run disk).2 ↔
      ∀ before c after, candidates = before ++ c :: after →
        (∀ b ∈ before, ∃ code, Declined sha256 expected b.meets code) →
        ¬Troubled sha256 expected timestamp c.meets := by
  rcases first_without (fun c : ReplicaCandidate => ∃ code, Declined sha256 expected c.meets code) candidates with
    all | ⟨before, c, after, rfl, earlier, stop⟩
  · obtain ⟨log, rfl, noted, declines⟩ := declined_log timestamp fresh all
    have searched := firstOf_declined declines (fun failures => .noUsableReplica (failures.map failureOf)) [] []
    rw [List.append_nil, List.nil_append] at searched
    rw [restoreFromCandidates_run (searched.trans rfl)]
    constructor
    · rintro - before c after split -
      obtain ⟨code, declined⟩ := all c (split ▸ List.mem_append_right before List.mem_cons_self)
      exact fun troubled => troubled.not_declined declined
    · intro _
      refine .exhausted (fun c among => ?_) noted
      obtain ⟨code, declined⟩ := all c among
      exact fun bytes => declined.not_canDeliver
  · rw [List.forall_mem_append, List.forall_mem_cons] at fresh
    obtain ⟨log, rfl, noted, declines⟩ := declined_log timestamp fresh.1 earlier
    have searched := firstOf_declined declines (fun failures => .noUsableReplica (failures.map failureOf)) []
      (c :: after)
    rw [List.nil_append, firstOf_cons_run] at searched
    rcases @copyVerifiedReplica_cases sha256 expected timestamp destination c.meets disk fresh.2.1 with
      ⟨bytes, delivers, ran⟩ | ⟨code, declined, -⟩ | ⟨troubled, e, s, kind, ran⟩
    · rw [ran] at searched
      rw [restoreFromCandidates_run searched]
      constructor
      · rintro - before' c' after' split others
        rcases upto_first (p := fun c => ∃ code, Declined sha256 expected c.meets code) stop split others with early | rfl
        · obtain ⟨code, declined⟩ := earlier c' early
          exact fun troubled => troubled.not_declined declined
        · exact fun troubled => troubled.not_delivers delivers
      · intro _
        refine .published rfl (fun b among => ?_) delivers.canDeliver noted
        obtain ⟨code, declined⟩ := earlier b among
        exact fun bytes => declined.not_canDeliver
    · exact absurd ⟨code, declined⟩ stop
    · rw [ran] at searched
      have foreign : e.code = none := by
        rcases kind with rfl | rfl <;> rfl
      dsimp only at searched
      rw [foreign] at searched
      rw [restoreFromCandidates_run searched]
      constructor
      · intro restored
        rcases kind with rfl | rfl <;> cases restored
      · intro calm
        exact absurd troubled (calm _ c after rfl earlier)

end Restoring

section Run

/-- Two texts and their digests. -/
def sampleDigest (bytes : Bytes) : String :=
  if bytes = "abc".toUTF8.toList then "ba7816bf8f01cfea414140de5dae2223b00361a396177a9cb410ff61f20015ad"
  else "e3b0c44298fc1c149afbf4c8996fb92427ae41e4649b934ca495991b7852b855"

def sampleExpected : String := "ba7816bf8f01cfea414140de5dae2223b00361a396177a9cb410ff61f20015ad"

/-- A replica with the bytes, on a disk that works. -/
def healthy (hex : String) : Meets where
  hex := hex
  sourceReady := true
  destinationReady := true
  isFile := some true
  checked := .content [97, 98, 99]
  parentMade := true
  copied := .whole [97, 98, 99]
  temporaryRead := true
  stillReady := true
  replaced := true
  stamped := true
  temporaryReady := true
  unlinked := true

def sampleDestination : Path := ⟨"/originals", "photo"⟩

def restoration (candidates : List ReplicaCandidate) : Except RestoreError (Nat × List ReplicaFailure) × Disk :=
  (restoreFromCandidates sampleDigest sampleExpected none sampleDestination candidates).run.run fun _ => none

def lostFirst : List ReplicaCandidate := [⟨1, { healthy "a" with checked := .content [] }⟩, ⟨2, healthy "b"⟩]

/-- The second replica is restored after the first lost its bytes. -/
theorem restoreFromCandidates_restores_second :
    Restored sampleDigest sampleExpected none sampleDestination (fun _ => none) lostFirst (restoration lostFirst).1
      (restoration lostFirst).2 := by
  have lost : Declined sampleDigest sampleExpected { healthy "a" with checked := .content [] } "checksum_mismatch" :=
    .mismatch ⟨rfl, rfl⟩ rfl rfl (by decide +kernel)
  have passes : Passes sampleDigest sampleExpected (healthy "b") :=
    ⟨⟨rfl, rfl⟩, rfl, ⟨[97, 98, 99], rfl, by decide +kernel⟩, rfl⟩
  have delivers : Delivers sampleDigest sampleExpected none (healthy "b") [97, 98, 99] :=
    ⟨passes, rfl, by decide +kernel, rfl, rfl, rfl, fun _ => rfl, ⟨rfl, rfl⟩⟩
  refine (restoreFromCandidates_restores_iff fun _ _ => rfl).mpr ?_
  intro before c after split _
  have member : c ∈ lostFirst := split ▸ List.mem_append_right before List.mem_cons_self
  rcases List.mem_pair.mp member with rfl | rfl
  · exact fun troubled => troubled.not_declined lost
  · exact fun troubled => troubled.not_delivers delivers

def unreadableFirst : List ReplicaCandidate :=
  [⟨1, { healthy "a" with copied := .failed (some [97]) }⟩, ⟨2, healthy "b"⟩]

/-- The first replica fails while it is copied, and the second is not tried. -/
theorem unreadable_copy_ends_restoration :
    ¬Restored sampleDigest sampleExpected none sampleDestination (fun _ => none) unreadableFirst
      (restoration unreadableFirst).1 (restoration unreadableFirst).2 := by
  have raised : (restoration unreadableFirst).1 = .error .osError := by decide +kernel
  rw [raised]
  intro restored
  cases restored

end Run

end Drivebound.Recovery
