import Drivebound.Core.Disks
import Drivebound.Core.Effects
import Drivebound.Purging.Catalog

/-! The files of `services/replication.py`: a replica is copied into a temporary file that takes its
place, and is read again; its sidecar is written beside it. Every operation may fail, and the
process may end between any two changes. -/
namespace Drivebound.Replication
open Effects Purging

abbrev Bytes := List UInt8

abbrev Disk := Path → Option Bytes

/-- The files, and what they were before each change, the last one first. -/
structure Files where
  disk : Disk
  past : List Disk

inductive ReplicationError where
  | storageUnavailable
  | osError
  | fileNotFound
  /-- `ValueError("Replica checksum verification failed")` -/
  | checksumMismatch
  | unlink (error : UnlinkError)
  deriving DecidableEq

abbrev FileProgram := Act Files ReplicationError

/-- What comes of writing a file: all that was to be written, or an exception, with what is left
where the file had been created. -/
inductive Writing where
  | whole (bytes : Bytes)
  | failed (left : Option Bytes)

def Writing.isWhole : Writing → Bool
  | .whole _ => true
  | .failed _ => false

/-- What an attempt to copy a replica meets; the flags say whether the operation works. `statted`
and `restatted` are the two times that `exists` is asked, `hashed` and `read` the two times that the
replica is read. -/
structure Meets where
  sourceReady : Bool
  destinationReady : Bool
  parentMade : Bool
  statted : Bool
  hashed : Bool
  unlinked : Bool
  restatted : Bool
  /-- What the source gave. -/
  copied : Writing
  replaced : Bool
  cleaned : Bool
  read : Bool
  metadataReady : Bool
  metadata : Writing
  metadataReplaced : Bool

def Files.put (f : Files) (path : Path) (file : Option Bytes) : Files where
  disk := Function.update f.disk path file
  past := f.disk :: f.past

def put (path : Path) (file : Option Bytes) : FileProgram Unit := modify (·.put path file)

def write (path : Path) : Writing → FileProgram Unit
  | .whole bytes => put path (some bytes)
  | .failed none => throw .osError
  | .failed (some left) => do
    put path (some left)
    throw .osError

/-- `os.replace` -/
def replace (source target : Path) : FileProgram Unit :=
  modify fun f => ⟨Disks.move f.disk source target, f.disk :: f.past⟩

section Copying
variable (sha256 : Bytes → String) (expected : String) (m : Meets) (destination temporary : Path)

/-- An existing file with another content. -/
def dropOther : FileProgram Unit := do
  match (← get).disk destination with
  | none => pure ()
  | some content =>
    demand m.hashed .osError
    if sha256 content ≠ expected then
      demand m.unlinked .osError
      put destination none

def copyFile : FileProgram Unit :=
  tryFinally
    (do
      write temporary m.copied
      demand m.replaced .osError
      replace temporary destination)
    (do
      demand m.cleaned .osError
      put temporary none)

def copyMissing : FileProgram Unit := do
  demand m.restatted .osError
  match (← get).disk destination with
  | none => copyFile m destination temporary
  | some _ => pure ()

def verify : FileProgram String := do
  demand m.read .osError
  match (← get).disk destination with
  | none => throw .fileNotFound
  | some content =>
    demand (sha256 content = expected) .checksumMismatch
    pure (sha256 content)

def copyVerified : FileProgram String := do
  demand m.sourceReady .storageUnavailable
  demand m.destinationReady .storageUnavailable
  demand m.parentMade .osError
  demand m.statted .osError
  dropOther sha256 expected m destination
  copyMissing m destination temporary
  verify sha256 expected m destination

def writeReplicaMetadata (sidecar metadataTemporary : Path) : FileProgram Unit := do
  demand m.metadataReady .storageUnavailable
  write metadataTemporary m.metadata
  demand m.metadataReplaced .osError
  replace metadataTemporary sidecar

end Copying

/-! ### What an attempt comes to -/

section Outcome
variable (sha256 : Bytes → String) (expected : String) (m : Meets)

/-- A content with the checksum. -/
def good (content : Option Bytes) : Bool := content.any fun bytes => sha256 bytes = expected

/-- The file that is there is read, and removed where it is another one. -/
def drops (content : Option Bytes) : Bool :=
  content.isNone || m.hashed && (good sha256 expected content || m.unlinked)

def starts (content : Option Bytes) : Bool :=
  m.sourceReady && m.destinationReady && m.parentMade && m.statted && drops sha256 expected m content

def copies : Bool := m.copied.isWhole && m.replaced && m.cleaned

/-- What a copy puts to the destination. -/
def arrives : Option Bytes :=
  match m.copied with
  | .whole bytes => if m.replaced then some bytes else none
  | .failed _ => none

/-- What is at the destination after an attempt. -/
def leaves (content : Option Bytes) : Option Bytes :=
  if good sha256 expected content || !starts sha256 expected m content then content
  else if m.restatted then arrives m
  else none

/-- The attempt ends with a verified copy. -/
def copyWorks (content : Option Bytes) : Bool :=
  starts sha256 expected m content && m.restatted && (good sha256 expected content || copies m) && m.read &&
    good sha256 expected (leaves sha256 expected m content)

def sidecarWorks : Bool := m.metadataReady && m.metadata.isWhole && m.metadataReplaced

def attemptWorks (content : Option Bytes) : Bool := copyWorks sha256 expected m content && sidecarWorks m

end Outcome

/-- Only these files have changed, and no other at any moment. -/
structure Confined (S : Path → Prop) (f g : Files) : Prop where
  others : ∀ path, ¬S path → g.disk path = f.disk path
  moments : ∃ new, g.past = new ++ f.past ∧ ∀ disk ∈ new, ∀ path, ¬S path → disk path = f.disk path

namespace Confined
variable {S T : Path → Prop} {f g h : Files}

theorem refl (S : Path → Prop) (f : Files) : Confined S f f :=
  ⟨fun _ _ => rfl, [], rfl, fun _ none_ => absurd none_ List.not_mem_nil⟩

theorem trans (first : Confined S f g) (second : Confined S g h) : Confined S f h := by
  obtain ⟨early, pastEarly, momentsEarly⟩ := first.moments
  obtain ⟨late, pastLate, momentsLate⟩ := second.moments
  refine ⟨fun path other => (second.others path other).trans (first.others path other), late ++ early, ?_, ?_⟩
  · rw [pastLate, pastEarly, List.append_assoc]
  · intro disk member path other
    rcases List.mem_append.mp member with later | before
    · exact (momentsLate disk later path other).trans (first.others path other)
    · exact momentsEarly disk before path other

theorem mono (confined : Confined S f g) (wider : ∀ path, S path → T path) : Confined T f g := by
  obtain ⟨new, past, moments⟩ := confined.moments
  exact ⟨fun path other => confined.others path fun inside => other (wider path inside), new, past,
    fun disk member path other => moments disk member path fun inside => other (wider path inside)⟩

theorem change {disk : Disk} (others : ∀ path, ¬S path → disk path = f.disk path) :
    Confined S f ⟨disk, f.disk :: f.past⟩ :=
  ⟨others, [f.disk], rfl, fun _ member _ _ => by rw [List.mem_singleton.mp member]⟩

theorem put {path : Path} (inside : S path) (file : Option Bytes) : Confined S f (f.put path file) :=
  change fun other outside => Function.update_of_ne (fun same : other = path => outside (same.symm ▸ inside)) _ _

end Confined

section Spec
variable {sha256 : Bytes → String} {expected : String} {m : Meets} {destination temporary : Path} {f : Files}

/-- The files that an attempt to copy may change: a destination with the checksum stays. -/
def Touches (sha256 : Bytes → String) (expected : String) (destination temporary : Path) (content : Option Bytes)
    (path : Path) : Prop :=
  path = temporary ∨ path = destination ∧ good sha256 expected content = false

theorem write_does (path : Path) (writing : Writing) : Does (· = f) (write path writing)
    (fun _ g => ∃ bytes, writing = .whole bytes ∧ g = f.put path (some bytes))
    (fun _ g => (∃ left, writing = .failed left) ∧ Confined (· = path) f g) := by
  cases writing with
  | whole bytes =>
    apply Does.modify
    rintro s rfl
    exact ⟨bytes, rfl, rfl⟩
  | failed left =>
    cases left with
    | none =>
      apply Does.throw
      rintro s rfl
      exact ⟨⟨none, rfl⟩, .refl _ _⟩
    | some left =>
      apply Does.bind (Q := fun _ g => g = f.put path (some left))
      · apply Does.modify
        rintro s rfl
        rfl
      · intro _
        apply Does.throw
        rintro s rfl
        exact ⟨⟨_, rfl⟩, Confined.put (S := (· = path)) rfl _⟩

theorem dropOther_does : Does (· = f) (dropOther sha256 expected m destination)
    (fun _ g => drops sha256 expected m (f.disk destination) = true ∧
      g.disk destination = (if good sha256 expected (f.disk destination) then f.disk destination else none) ∧
      Confined (Touches sha256 expected destination temporary (f.disk destination)) f g)
    (fun _ g => drops sha256 expected m (f.disk destination) = false ∧ g = f) := by
  apply Does.bind (Q := fun a g => a = f ∧ g = f)
  · exact Does.get fun s same => ⟨same, same⟩
  · intro a
    apply Does.pull
    rintro rfl
    cases there : a.disk destination with
    | none =>
      apply Does.pure
      rintro s rfl
      exact ⟨rfl, there, .refl _ _⟩
    | some content =>
      dsimp only
      apply Does.bind (Does.demand fun refused s same => ⟨by simp [drops, refused], same⟩)
      intro _
      apply Does.pull
      intro hashed
      apply Does.ite
      · intro other
        have bad : good sha256 expected (some content) = false := decide_eq_false other
        apply Does.bind (Does.demand fun refused s same => ⟨by simp [drops, bad, refused], same⟩)
        intro _
        apply Does.pull
        intro unlinked
        apply Does.modify
        rintro s rfl
        refine ⟨by simp [drops, hashed, unlinked], ?_, .put (.inr ⟨rfl, bad⟩) none⟩
        rw [bad]
        exact Function.update_self ..
      · intro same
        have fine : good sha256 expected (some content) = true := decide_eq_true (not_not.mp same)
        apply Does.pure
        rintro s rfl
        refine ⟨by simp [drops, hashed, fine], ?_, .refl _ _⟩
        rw [fine, if_pos rfl, there]

theorem copyFile_does (apart : destination ≠ temporary) (missing : f.disk destination = none) :
    Does (· = f) (copyFile m destination temporary)
      (fun _ g => copies m = true ∧ g.disk destination = arrives m ∧
        Confined (fun path => path = temporary ∨ path = destination) f g)
      (fun _ g => copies m = false ∧ g.disk destination = arrives m ∧
        Confined (fun path => path = temporary ∨ path = destination) f g) := by
  apply Does.lastly
    (S := fun _ g => (m.copied.isWhole = true ∧ m.replaced = true) ∧ g.disk destination = arrives m ∧
      Confined (fun path => path = temporary ∨ path = destination) f g)
    (D := fun _ g => (m.copied.isWhole && m.replaced) = false ∧ g.disk destination = arrives m ∧
      Confined (fun path => path = temporary ∨ path = destination) f g)
  · have wrote := write_does (f := f) temporary m.copied
    apply Does.bind (Does.mono wrote (fun _ here => here) (fun _ _ here => here) ?_)
    · intro _
      apply Does.pick
      intro bytes
      apply Does.pull
      intro whole
      apply Does.bind (Does.demand fun refused s here => ?_)
      · intro _
        apply Does.pull
        intro replaced
        apply Does.modify
        rintro s rfl
        refine ⟨⟨by rw [whole]; rfl, replaced⟩, ?_, ?_⟩
        · refine (Disks.move_target apart).trans ?_
          simp [arrives, whole, replaced, Files.put]
        · have there : Confined (fun path => path = temporary ∨ path = destination) f (f.put temporary (some bytes)) :=
            .put (.inl rfl) _
          refine there.trans (.change fun path outside => ?_)
          rw [not_or] at outside
          exact Disks.move_other outside.1 outside.2
      · subst here
        refine ⟨by simp [refused], ?_, .put (.inl rfl) _⟩
        simp [arrives, whole, refused, Files.put, Function.update_of_ne apart, missing]
    · rintro _ s ⟨⟨left, failed⟩, confined⟩
      refine ⟨by rw [failed]; rfl, ?_, confined.mono fun _ same => .inl same⟩
      rw [confined.others destination apart, missing, arrives, failed]
  · intro _
    apply Does.bind (Does.demand fun refused s here => ?_)
    · intro _
      apply Does.pull
      intro cleaned
      apply Does.modify
      rintro s ⟨⟨whole, replaced⟩, there, confined⟩
      refine ⟨by simp [copies, whole, replaced, cleaned], ?_, confined.trans (.put (.inl rfl) none)⟩
      exact (Function.update_of_ne apart ..).trans there
    · exact ⟨by simp [copies, refused], here.2⟩
  · intro _
    apply Does.bind (Does.demand fun refused s here => ?_)
    · intro _
      apply Does.pull
      intro cleaned
      apply Does.modify
      rintro s ⟨failed, there, confined⟩
      refine ⟨by rw [copies, failed]; rfl, ?_, confined.trans (.put (.inl rfl) none)⟩
      exact (Function.update_of_ne apart ..).trans there
    · exact ⟨by simp [copies, refused], here.2⟩

theorem copyMissing_does (apart : destination ≠ temporary) {content : Option Bytes}
    (there : f.disk destination = if good sha256 expected content then content else none) :
    Does (· = f) (copyMissing m destination temporary)
      (fun _ g => (m.restatted = true ∧ (good sha256 expected content || copies m) = true) ∧
        g.disk destination = (if good sha256 expected content then content else arrives m) ∧
        Confined (Touches sha256 expected destination temporary content) f g)
      (fun _ g => (m.restatted && (good sha256 expected content || copies m)) = false ∧
        g.disk destination =
          (if good sha256 expected content then content else if m.restatted then arrives m else none) ∧
        Confined (Touches sha256 expected destination temporary content) f g) := by
  apply Does.bind (Does.demand fun refused s same => ?_)
  · intro _
    apply Does.pull
    intro restatted
    apply Does.bind (Q := fun a g => a = f ∧ g = f) (Does.get fun s same => ⟨same, same⟩)
    intro a
    apply Does.pull
    rintro rfl
    cases fine : good sha256 expected content with
    | true =>
      rw [fine, if_pos rfl] at there
      obtain ⟨bytes, rfl⟩ : ∃ bytes, content = some bytes := by
        cases content with
        | none => cases fine
        | some bytes => exact ⟨bytes, rfl⟩
      rw [there]
      apply Does.pure
      rintro s rfl
      exact ⟨⟨restatted, rfl⟩, there, .refl _ _⟩
    | false =>
      rw [fine, if_neg Bool.false_ne_true] at there
      rw [there]
      have wide : ∀ path, path = temporary ∨ path = destination →
          Touches sha256 expected destination temporary content path :=
        fun path inside => inside.imp_right fun same => ⟨same, fine⟩
      apply Does.mono (copyFile_does apart there) (fun _ here => here)
      · rintro _ s ⟨copied, arrived, confined⟩
        exact ⟨⟨restatted, copied⟩, arrived, confined.mono wide⟩
      · rintro _ s ⟨failed, arrived, confined⟩
        refine ⟨by rw [failed, restatted]; rfl, ?_, confined.mono wide⟩
        rw [if_neg Bool.false_ne_true, if_pos restatted, arrived]
  · subst same
    refine ⟨by simp [refused], ?_, .refl _ _⟩
    rw [there, if_neg refused]

theorem verify_does : Does (· = f) (verify sha256 expected m destination)
    (fun a g => (a = expected ∧ m.read = true ∧ good sha256 expected (f.disk destination) = true) ∧ g = f)
    (fun _ g => (m.read && good sha256 expected (f.disk destination)) = false ∧ g = f) := by
  apply Does.bind (Does.demand fun refused s same => ⟨by simp [refused], same⟩)
  intro _
  apply Does.pull
  intro read
  apply Does.bind (Q := fun a g => a = f ∧ g = f) (Does.get fun s same => ⟨same, same⟩)
  intro a
  apply Does.pull
  rintro rfl
  cases there : a.disk destination with
  | none =>
    apply Does.throw
    rintro s rfl
    exact ⟨by simp [good], rfl⟩
  | some content =>
    dsimp only
    apply Does.bind (Does.demand fun other s same => ⟨by simp [good, other], same⟩)
    intro _
    apply Does.pull
    intro same
    apply Does.pure
    rintro s rfl
    exact ⟨⟨same, read, decide_eq_true same⟩, rfl⟩

theorem leaves_of_good {content : Option Bytes} (fine : good sha256 expected content = true) :
    leaves sha256 expected m content = content := by
  rw [leaves, fine, Bool.true_or, if_pos rfl]

/-- What an attempt to copy does to the files, and when it succeeds. -/
theorem copyVerified_does (apart : destination ≠ temporary) :
    Does (· = f) (copyVerified sha256 expected m destination temporary)
      (fun a g => (a = expected ∧ copyWorks sha256 expected m (f.disk destination) = true) ∧
        g.disk destination = leaves sha256 expected m (f.disk destination) ∧
        Confined (Touches sha256 expected destination temporary (f.disk destination)) f g)
      (fun _ g => copyWorks sha256 expected m (f.disk destination) = false ∧
        g.disk destination = leaves sha256 expected m (f.disk destination) ∧
        Confined (Touches sha256 expected destination temporary (f.disk destination)) f g) := by
  generalize before : f.disk destination = content
  -- Until the first change the files are as they were.
  have early : starts sha256 expected m content = false → ∀ g, g = f →
      copyWorks sha256 expected m content = false ∧ g.disk destination = leaves sha256 expected m content ∧
        Confined (Touches sha256 expected destination temporary content) f g := by
    rintro stuck g rfl
    refine ⟨by simp [copyWorks, stuck], ?_, .refl _ _⟩
    rw [leaves, stuck, Bool.not_false, Bool.or_true, if_pos rfl, before]
  apply Does.bind (Does.demand fun refused s same => early (by simp [starts, refused]) s same)
  intro _
  apply Does.pull
  intro source
  apply Does.bind (Does.demand fun refused s same => early (by simp [starts, refused]) s same)
  intro _
  apply Does.pull
  intro ready
  apply Does.bind (Does.demand fun refused s same => early (by simp [starts, refused]) s same)
  intro _
  apply Does.pull
  intro parent
  apply Does.bind (Does.demand fun refused s same => early (by simp [starts, refused]) s same)
  intro _
  apply Does.pull
  intro statted
  have dropped := @dropOther_does sha256 expected m destination temporary f
  rw [before] at dropped
  apply Does.bind (Does.mono dropped (fun _ here => here) (fun _ _ here => here) ?_)
  · intro _
    apply Does.pull
    intro cleared
    have started : starts sha256 expected m content = true := by
      simp [starts, source, ready, parent, statted, cleared]
    have left : leaves sha256 expected m content =
        if good sha256 expected content then content else if m.restatted then arrives m else none := by
      rw [leaves, started, Bool.not_true, Bool.or_false]
    apply Does.each
    rintro g ⟨there, confined⟩
    apply Does.bind (Does.mono (copyMissing_does apart there) (fun _ here => here) (fun _ _ here => here) ?_)
    · intro _
      apply Does.each
      rintro h ⟨⟨restatted, brought⟩, arrived, later⟩
      have whole : h.disk destination = leaves sha256 expected m content := by rw [left, if_pos restatted, arrived]
      have checked := @verify_does sha256 expected m destination h
      rw [whole] at checked
      apply Does.mono checked (fun _ here => here)
      · rintro a s ⟨⟨rfl, read, fine⟩, rfl⟩
        exact ⟨⟨rfl, by simp [copyWorks, started, restatted, brought, read, fine]⟩, whole, confined.trans later⟩
      · rintro _ s ⟨failed, rfl⟩
        exact ⟨by rw [copyWorks, Bool.and_assoc, failed, Bool.and_false], whole, confined.trans later⟩
    · rintro _ s ⟨failed, arrived, later⟩
      have fails : copyWorks sha256 expected m content = false := by
        rw [copyWorks, Bool.and_assoc (starts sha256 expected m content), failed]
        simp only [Bool.and_false, Bool.false_and]
      exact ⟨fails, arrived.trans left.symm, confined.trans later⟩
  · rintro _ s ⟨stuck, same⟩
    exact early (by simp [starts, stuck]) s same

theorem writeReplicaMetadata_does (sidecar metadataTemporary : Path) :
    Does (· = f) (writeReplicaMetadata m sidecar metadataTemporary)
      (fun _ g => sidecarWorks m = true ∧ Confined (fun path => path = sidecar ∨ path = metadataTemporary) f g)
      (fun _ g => sidecarWorks m = false ∧ Confined (fun path => path = sidecar ∨ path = metadataTemporary) f g) := by
  apply Does.bind (Does.demand fun refused s same => ⟨by simp [sidecarWorks, refused], same ▸ .refl _ _⟩)
  intro _
  apply Does.pull
  intro ready
  apply Does.bind (Does.mono (write_does metadataTemporary m.metadata) (fun _ here => here) (fun _ _ here => here) ?_)
  · intro _
    apply Does.pick
    intro bytes
    apply Does.pull
    intro whole
    have there : Confined (fun path => path = sidecar ∨ path = metadataTemporary) f
        (f.put metadataTemporary (some bytes)) := .put (.inr rfl) _
    apply Does.bind (Does.demand fun refused s same => ⟨by simp [sidecarWorks, refused], same ▸ there⟩)
    intro _
    apply Does.pull
    intro replaced
    apply Does.modify
    rintro s rfl
    refine ⟨by simp [sidecarWorks, ready, replaced, whole, Writing.isWhole], there.trans (.change fun path outside => ?_)⟩
    rw [not_or] at outside
    exact Disks.move_other outside.2 outside.1
  · rintro _ s ⟨⟨left, failed⟩, confined⟩
    exact ⟨by simp [sidecarWorks, failed, Writing.isWhole], confined.mono fun _ same => .inr same⟩

end Spec

/-! ### An attempt -/

/-- The files of one attempt. -/
structure Places where
  destination : Path
  temporary : Path
  sidecar : Path
  metadataTemporary : Path

/-- The files that are made beside the replica are no replica. -/
structure Places.Apart (p : Places) (path : Path) : Prop where
  temporary : path ≠ p.temporary
  sidecar : path ≠ p.sidecar
  metadataTemporary : path ≠ p.metadataTemporary

/-- What `_upsert_replica` does to the files. -/
def attempt (sha256 : Bytes → String) (expected : String) (m : Meets) (p : Places) : FileProgram String := do
  let checksum ← copyVerified sha256 expected m p.destination p.temporary
  writeReplicaMetadata m p.sidecar p.metadataTemporary
  pure checksum

/-- The files that an attempt may change. -/
def Reaches (sha256 : Bytes → String) (expected : String) (p : Places) (content : Option Bytes) (path : Path) : Prop :=
  (path = p.destination ∧ good sha256 expected content = false) ∨ ¬p.Apart path

theorem attempt_run (sha256 : Bytes → String) (expected : String) (m : Meets) {p : Places} (f : Files)
    (apart : p.Apart p.destination) : ∃ result g, (attempt sha256 expected m p).run.run f = (result, g) ∧
      (if attemptWorks sha256 expected m (f.disk p.destination) then result = .ok expected
        else ∃ error, result = .error error) ∧
      g.disk p.destination = leaves sha256 expected m (f.disk p.destination) ∧
      Confined (Reaches sha256 expected p (f.disk p.destination)) f g := by
  generalize before : f.disk p.destination = content
  have sidecar : ∀ path, path = p.sidecar ∨ path = p.metadataTemporary → Reaches sha256 expected p content path := by
    rintro path (rfl | rfl)
    · exact .inr fun apart => apart.sidecar rfl
    · exact .inr fun apart => apart.metadataTemporary rfl
  have copy : ∀ path, Touches sha256 expected p.destination p.temporary content path →
      Reaches sha256 expected p content path := by
    rintro path (rfl | inside)
    · exact .inr fun apart => apart.temporary rfl
    · exact .inl inside
  have stays : ∀ {g h}, Confined (fun path => path = p.sidecar ∨ path = p.metadataTemporary) g h →
      h.disk p.destination = g.disk p.destination := fun confined =>
    confined.others _ fun inside => inside.elim apart.sidecar apart.metadataTemporary
  have copied := @copyVerified_does sha256 expected m p.destination p.temporary f apart.temporary
  rw [before] at copied
  have does : Does (· = f) (attempt sha256 expected m p)
      (fun a g => (a = expected ∧ attemptWorks sha256 expected m content = true) ∧
        g.disk p.destination = leaves sha256 expected m content ∧ Confined (Reaches sha256 expected p content) f g)
      (fun _ g => attemptWorks sha256 expected m content = false ∧
        g.disk p.destination = leaves sha256 expected m content ∧ Confined (Reaches sha256 expected p content) f g) := by
    apply Does.bind (Does.mono copied (fun _ here => here) (fun _ _ here => here) ?_)
    · intro a
      apply Does.each
      rintro g ⟨⟨rfl, works⟩, there, confined⟩
      have wrote := @writeReplicaMetadata_does m g p.sidecar p.metadataTemporary
      apply Does.bind (Does.mono wrote (fun _ here => here) (fun _ _ here => here) ?_)
      · intro _
        apply Does.pure
        rintro h ⟨beside, later⟩
        exact ⟨⟨rfl, by rw [attemptWorks, works, beside]; rfl⟩, (stays later).trans there,
          (confined.mono copy).trans (later.mono sidecar)⟩
      · rintro _ h ⟨failed, later⟩
        exact ⟨by rw [attemptWorks, failed, Bool.and_false], (stays later).trans there,
          (confined.mono copy).trans (later.mono sidecar)⟩
    · rintro _ g ⟨failed, there, confined⟩
      exact ⟨by rw [attemptWorks, failed, Bool.false_and], there, confined.mono copy⟩
  have done := does f rfl
  generalize (attempt sha256 expected m p).run.run f = ended at done
  obtain ⟨result, g⟩ := ended
  refine ⟨result, g, rfl, ?_⟩
  cases result with
  | ok a =>
    obtain ⟨⟨rfl, works⟩, rest⟩ := done
    exact ⟨by rw [if_pos works], rest⟩
  | error error =>
    obtain ⟨failed, rest⟩ := done
    exact ⟨by rw [failed]; exact ⟨error, rfl⟩, rest⟩

end Drivebound.Replication
