import Drivebound.Backups.Archives
import Drivebound.Core.Run

/-! What becomes of one archive in the passes after it was verified. -/
namespace Drivebound.Backups
open Effects State

/-- The file of the archive has its bytes. -/
def Intact (digest : Content → String) (archive : BackupArchive) (files : Path → Option Content) : Prop :=
  (files archive.path).any (matchesRow digest · archive) = true

/-- The archive is listed with a verification, and its file is there. -/
def Holds (digest : Content → String) (archive : BackupArchive) (status : VerificationStatus) (s : State) : Prop :=
  mark archive status ∈ s.archives ∧ Intact digest archive s.files

/-- A verification in this step does not fail where the bytes are there. -/
def Confirms (pass : Pass) (step : Step) (archive : BackupArchive) : Prop :=
  pass.validated step archive.path ∧ pass.readable step archive.path ∧ pass.restores step archive.path

section Archive
variable {digest : Content → String} {settings : Settings} {pass : Pass} {archive : BackupArchive}
  {status : VerificationStatus}

/-- Of one path there is one archive. -/
theorem Holds.only {s : State} (holds : Holds digest archive status s) {other : BackupArchive}
    (member : other ∈ s.archives) (same : other.path = archive.path) : other = mark archive status :=
  List.inj_on_of_nodup_map s.keyed member holds.1 same

theorem Holds.write {s : State} (holds : Holds digest archive status s) {path : Path} (other : path ≠ archive.path)
    (content : Option Content) : Holds digest archive status (s.write path content) := by
  refine ⟨holds.1, ?_⟩
  have same : (s.write path content).files archive.path = s.files archive.path :=
    Function.update_of_ne other.symm _ _
  rw [Intact, same]
  exact holds.2

theorem requireStorage_does {P : State → Prop} {E : Fault → State → Prop} (step : Step)
    (raised : ∀ s, P s → E .storageUnavailable s) : Does P (requireStorage pass step) (fun _ => P) E := by
  unfold requireStorage
  apply Does.ite
  · exact fun _ => Does.pure fun s holds => holds
  · exact fun _ => Does.throw raised

/-- What is left of the archive where a pass raises. -/
abbrev Left (digest : Content → String) (archive : BackupArchive) : Fault → State → Prop :=
  fun _ s => Intact digest archive s.files

theorem addArchive_does (added : BackupArchive) :
    Does (Holds digest archive status) (addArchive added) (fun _ => Holds digest archive status) (Left digest archive) := by
  unfold addArchive
  apply Does.bind (Q := fun r s => r = s ∧ Holds digest archive status s) (Does.get fun s holds => ⟨rfl, holds⟩)
  intro r
  split
  · next fresh =>
    apply Does.set
    rintro s ⟨rfl, listed, intact⟩
    exact ⟨List.mem_append_left _ listed, intact⟩
  · next taken => exact Does.throw fun s holds => holds.2.2

/-- A verification of the archive itself decides its status. -/
theorem revalidate_does (step : Step) (other : BackupArchive)
    (own : other.path = archive.path → ∃ status, other = mark archive status) :
    Does (Holds digest archive status) (revalidateArchive digest pass step other)
      (fun _ s => ∃ after, Holds digest archive after s ∧ (other.path ≠ archive.path → after = status) ∧
        (other.path = archive.path → Confirms pass step archive → after = .verified))
      (Left digest archive) := by
  unfold revalidateArchive
  apply Does.bind (Q := fun r s => r = s ∧ Holds digest archive status s) (Does.get fun s holds => ⟨rfl, holds⟩)
  intro r
  apply Does.bind (Q := fun _ s => ∃ after, Holds digest archive after s ∧ (other.path ≠ archive.path → after = status) ∧
    (other.path = archive.path → Confirms pass step archive → after = .verified))
  · apply Does.set
    rintro s ⟨rfl, listed, intact⟩
    by_cases same : other.path = archive.path
    · obtain ⟨before, rfl⟩ := own same
      refine ⟨if checkArchive digest pass step r.files (mark archive before) then .verified else .failed, ⟨?_, intact⟩,
        fun differs => absurd same differs, fun _ confirms => ?_⟩
      · exact List.mem_map.mpr ⟨mark archive status, listed, if_pos same.symm⟩
      · obtain ⟨validated, readable, restores⟩ := confirms
        have ok : checkArchive digest pass step r.files (mark archive before) = true := by
          unfold checkArchive
          unfold Intact at intact
          simp only [Bool.and_eq_true]
          exact ⟨⟨⟨validated, readable⟩, intact⟩, restores⟩
        rw [if_pos ok]
    · refine ⟨status, ⟨List.mem_map.mpr ⟨mark archive status, listed, ?_⟩, intact⟩, fun _ => rfl,
        fun equal => absurd equal same⟩
      exact if_neg (Ne.symm same)
  · exact fun _ => Does.pure fun s holds => holds

theorem revalidateAll_does (archives : List BackupArchive)
    (own : ∀ other ∈ archives, other.path = archive.path → ∃ status, other = mark archive status) :
    Does (Holds digest archive status) (revalidateAll digest pass archives)
      (fun _ s => ∃ after, Holds digest archive after s ∧
        (Confirms pass .verification archive →
          (status = .verified ∨ ∃ other ∈ archives, other.path = archive.path) → after = .verified))
      (Left digest archive) := by
  induction archives generalizing status with
  | nil =>
    apply Does.pure
    intro s holds
    refine ⟨status, holds, fun _ known => ?_⟩
    rcases known with verified | ⟨other, absent, _⟩
    · exact verified
    · exact absurd absent List.not_mem_nil
  | cons first rest ih =>
    rw [revalidateAll]
    apply Does.bind (revalidate_does .verification first (own first List.mem_cons_self))
    intro _
    apply Does.pick
    intro mid
    apply Does.mono (P := fun s => ((first.path ≠ archive.path → mid = status) ∧
        (first.path = archive.path → Confirms pass .verification archive → mid = .verified)) ∧ Holds digest archive mid s)
      (Q := fun _ s => ∃ after, Holds digest archive after s ∧ (Confirms pass .verification archive →
        (status = .verified ∨ ∃ other ∈ first :: rest, other.path = archive.path) → after = .verified))
    · apply Does.pull
      intro decided
      exact Does.mono (@ih mid fun other member => own other (List.mem_cons_of_mem _ member))
        (fun s holds => holds)
        (fun _ s ended => by
          obtain ⟨after, holds, told⟩ := ended
          refine ⟨after, holds, fun confirms known => told confirms ?_⟩
          by_cases same : first.path = archive.path
          · exact .inl (decided.2 same confirms)
          · rcases known with verified | ⟨other, member, equal⟩
            · exact .inl ((decided.1 same).trans verified)
            · rcases List.mem_cons.mp member with rfl | later
              · exact absurd equal same
              · exact .inr ⟨other, later, equal⟩)
        (fun _ _ raised => raised)
    · exact fun s holds => ⟨holds.2, holds.1⟩
    · exact fun _ _ ended => ended
    · exact fun _ _ raised => raised

theorem failedDump_does (fresh : pass.dumpPath ≠ archive.path) :
    Does (Holds digest archive status) (failedDump pass) (fun _ => Holds digest archive status) (Left digest archive) := by
  unfold failedDump
  apply Does.ite
  · intro _
    apply Does.bind (Q := fun _ => Holds digest archive status) (Does.modify fun s holds => holds.write fresh none)
    exact fun _ => addArchive_does _
  · exact fun _ => Does.throw fun s holds => holds.2

theorem writeDump_does (fresh : pass.dumpPath ≠ archive.path) :
    Does (Holds digest archive status) (writeDump digest pass) (fun _ => Holds digest archive status)
      (Left digest archive) := by
  unfold writeDump
  split
  · apply Does.bind (Q := fun _ => Holds digest archive status) (Does.modify fun s holds => holds.write fresh _)
    exact fun _ => failedDump_does fresh
  · apply Does.bind (Q := fun _ => Holds digest archive status) (Does.modify fun s holds => holds.write fresh _)
    intro _
    apply Does.ite
    · exact fun _ => addArchive_does _
    · exact fun _ => failedDump_does fresh

theorem writeConfiguration_does (fresh : pass.snapshotPath ≠ archive.path) :
    Does (Holds digest archive status) (writeConfiguration digest pass) (fun _ => Holds digest archive status)
      (Left digest archive) := by
  unfold writeConfiguration
  split
  · exact Does.throw fun s holds => holds.2
  · apply Does.bind (Q := fun _ => Holds digest archive status) (Does.modify fun s holds => holds.write fresh _)
    exact fun _ => addArchive_does _

theorem createConfigurationBackup_does (fresh : pass.snapshotPath ≠ archive.path) :
    Does (Holds digest archive status) (createConfigurationBackup digest settings pass)
      (fun _ => Holds digest archive status) (Left digest archive) := by
  unfold createConfigurationBackup
  apply Does.bind (requireStorage_does .configuration fun s holds => holds.2)
  intro _
  apply Does.bind (Q := fun _ => Holds digest archive status) (Does.get fun s holds => holds)
  intro r
  split
  · exact writeConfiguration_does fresh
  · apply Does.ite
    · exact fun _ => Does.throw fun s holds => holds.2
    · intro _
      apply Does.ite
      · exact fun _ => Does.pure fun s holds => holds
      · exact fun _ => writeConfiguration_does fresh

/-- Some verification of the archive is listed, and its file is there. -/
def Kept (digest : Content → String) (archive : BackupArchive) (s : State) : Prop :=
  ∃ status, Holds digest archive status s

/-- A choice between the best so far and the next one ends with one of them. -/
theorem mem_of_foldl {α : Type} {choose : Option α → α → Option α} {chosen : α}
    (choice : ∀ best next, choose best next = some chosen → chosen = next ∨ best = some chosen) :
    ∀ (rest : List α) (best : Option α), rest.foldl choose best = some chosen → chosen ∈ rest ∨ best = some chosen := by
  intro rest
  induction rest with
  | nil => exact fun best ended => .inr ended
  | cons next rest ih =>
    intro best ended
    rw [List.foldl_cons] at ended
    rcases ih _ ended with later | here
    · exact .inl (List.mem_cons_of_mem _ later)
    · rcases choice best next here with rfl | before
      · exact .inl List.mem_cons_self
      · exact .inr before

theorem latestOf_mem {kind : Kind} {archives : List BackupArchive} {latest : BackupArchive}
    (found : latestOf kind archives = some latest) : latest ∈ archives := by
  unfold latestOf at found
  have among := mem_of_foldl ?_ _ none found
  · rcases among with member | none_
    · exact List.mem_of_mem_filter member
    · cases none_
  · intro best next chosen
    cases best with
    | none => exact .inl (Option.some.inj chosen).symm
    | some best =>
      dsimp only at chosen
      split at chosen
      · exact .inl (Option.some.inj chosen).symm
      · exact .inr chosen

theorem createDatabaseBackup_does (fresh : pass.dumpPath ≠ archive.path) :
    Does (Holds digest archive status) (createDatabaseBackup digest settings pass) (fun _ => Kept digest archive)
      (Left digest archive) := by
  have kept : ∀ s, Holds digest archive status s → Kept digest archive s := fun s holds => ⟨status, holds⟩
  unfold createDatabaseBackup
  apply Does.bind (requireStorage_does .database fun s holds => holds.2)
  intro _
  apply Does.ite
  · exact fun _ => Does.pure kept
  · intro _
    apply Does.bind (Q := fun r s => Holds digest archive status r ∧ Holds digest archive status s)
      (Does.get fun s holds => ⟨holds, holds⟩)
    intro r
    apply Does.pull
    intro here
    split
    · exact Does.mono (writeDump_does fresh) (fun _ holds => holds) (fun _ => kept) fun _ _ raised => raised
    · next latest found =>
      have member := latestOf_mem (Option.filter_eq_some_iff.mp found).1
      apply Does.bind (revalidate_does .database latest fun same => ⟨status, here.only member same⟩)
      intro ok
      apply Does.ite
      · exact fun _ => Does.pure fun s ended => ⟨ended.choose, ended.choose_spec.1⟩
      · intro _
        apply Does.pick
        intro after
        exact Does.mono (@writeDump_does _ _ _ after fresh) (fun _ ended => ended.1) (fun _ s holds => ⟨after, holds⟩)
          fun _ _ raised => raised

/-- The archives that are pruned are others. -/
theorem pruneAll_does (archives : List BackupArchive) (others : ∀ other ∈ archives, other.path ≠ archive.path) :
    Does (Holds digest archive status) (pruneAll pass archives) (fun _ => Holds digest archive status)
      (Left digest archive) := by
  induction archives with
  | nil => exact Does.pure fun s holds => holds
  | cons first rest ih =>
    have other := others first List.mem_cons_self
    rw [pruneAll]
    apply Does.bind (Q := fun _ => Holds digest archive status)
    · unfold pruneArchive
      apply Does.ite
      · intro _
        apply Does.modify
        intro s holds
        have written := holds.write other none
        exact ⟨List.mem_filter.mpr ⟨written.1, decide_eq_true (Ne.symm other)⟩, written.2⟩
      · exact fun _ => Does.pure fun s holds => holds
    · exact fun _ => ih fun later member => others later (List.mem_cons_of_mem _ member)

/-- The retention of a pass covers the archive. -/
def Retained (settings : Settings) (pass : Pass) (archive : BackupArchive) : Prop :=
  cutoff settings pass ≤ archive.createdAt

theorem pruneOperationalBackups_does (retained : Retained settings pass archive) :
    Does (Holds digest archive status) (pruneOperationalBackups settings pass) (fun _ => Holds digest archive status)
      (Left digest archive) := by
  unfold pruneOperationalBackups
  apply Does.bind (requireStorage_does .pruning fun s holds => holds.2)
  intro _
  apply Does.bind (Q := fun r s => Holds digest archive status r ∧ Holds digest archive status s)
    (Does.get fun s holds => ⟨holds, holds⟩)
  intro r
  apply Does.pull
  intro here
  apply pruneAll_does
  intro other member same
  obtain ⟨listed, old⟩ := List.mem_filter.mp member
  rw [here.only listed same] at old
  exact absurd (of_decide_eq_true old) (Int.not_lt.mpr retained)

theorem verifyOperationalBackups_does (created : archive.status = .created) :
    Does (Holds digest archive status) (verifyOperationalBackups digest pass)
      (fun _ s => ∃ after, Holds digest archive after s ∧ (Confirms pass .verification archive → after = .verified))
      (Left digest archive) := by
  unfold verifyOperationalBackups
  apply Does.bind (requireStorage_does .verification fun s holds => holds.2)
  intro _
  apply Does.bind (Q := fun r s => Holds digest archive status r ∧ Holds digest archive status s)
    (Does.get fun s holds => ⟨holds, holds⟩)
  intro r
  apply Does.pull
  intro here
  have listed : mark archive status ∈ r.archives.filter (·.status = .created) :=
    List.mem_filter.mpr ⟨here.1, decide_eq_true created⟩
  apply Does.mono (revalidateAll_does _ fun other member same =>
    ⟨status, here.only (List.mem_of_mem_filter member) same⟩) (fun _ holds => holds)
  · rintro _ s ⟨after, holds, told⟩
    exact ⟨after, holds, fun confirms => told confirms (.inr ⟨_, listed, rfl⟩)⟩
  · exact fun _ _ raised => raised

theorem backup_does (created : archive.status = .created) (retained : Retained settings pass archive)
    (snapshot : pass.snapshotPath ≠ archive.path) (dump : pass.dumpPath ≠ archive.path) :
    Does (Holds digest archive status) (backup digest settings pass)
      (fun _ s => ∃ after, Holds digest archive after s ∧ (Confirms pass .verification archive → after = .verified))
      (Left digest archive) := by
  unfold backup
  apply Does.bind (createConfigurationBackup_does snapshot)
  intro _
  apply Does.bind (createDatabaseBackup_does dump)
  intro _
  apply Does.pick
  intro before
  apply Does.bind (verifyOperationalBackups_does created)
  intro _
  apply Does.pick
  intro after
  apply Does.mono (P := fun s => (Confirms pass .verification archive → after = .verified) ∧ Holds digest archive after s)
    (Q := fun _ s => ∃ after, Holds digest archive after s ∧
      (Confirms pass .verification archive → after = .verified))
  · apply Does.pull
    intro told
    apply Does.bind (pruneOperationalBackups_does retained)
    intro _
    unfold commit
    apply Does.ite
    · exact fun _ => Does.pure fun s holds => ⟨after, holds, told⟩
    · exact fun _ => Does.throw fun s holds => holds.2
  · exact fun s ended => ⟨ended.2, ended.1⟩
  · exact fun _ _ ended => ended
  · exact fun _ _ raised => raised

/-- A pass that raises leaves the row as it was; one that ends leaves what it verified. -/
theorem pass_holds (created : archive.status = .created) (retained : Retained settings pass archive)
    (snapshot : pass.snapshotPath ≠ archive.path) (dump : pass.dumpPath ≠ archive.path) {s : State}
    (holds : Holds digest archive status s) :
    ∃ after, Holds digest archive after (backupOperationalState digest settings pass s) ∧
      (Confirms pass .verification archive → status = .verified → after = .verified) := by
  have done := backup_does created retained snapshot dump s holds
  unfold backupOperationalState
  generalize (backup digest settings pass).run.run s = result at done
  obtain ⟨outcome, t⟩ := result
  cases outcome with
  | ok _ =>
    obtain ⟨after, kept, told⟩ := done
    exact ⟨after, kept, fun confirms _ => told confirms⟩
  | error fault => exact ⟨status, ⟨holds.1, done⟩, fun _ same => same⟩

/-! ### Runs -/

inductive Event where
  | pass (pass : Pass)
  /-- A file becomes another one, or goes. -/
  | outside (path : Path) (content : Option Content)

/-- The names of a pass are random. -/
def Pass.Fresh (pass : Pass) (s : State) : Prop :=
  ∀ archive ∈ s.archives, pass.snapshotPath ≠ archive.path ∧ pass.dumpPath ≠ archive.path

instance (pass : Pass) (s : State) : Decidable (pass.Fresh s) :=
  inferInstanceAs (Decidable (∀ archive ∈ s.archives, _ ∧ _))

def step (digest : Content → String) (settings : Settings) (s : State) : Event → Option State
  | .pass pass => if pass.Fresh s then some (backupOperationalState digest settings pass s) else none
  | .outside path content => some (s.write path content)

theorem step_pass {s : State} (fresh : pass.Fresh s) :
    step digest settings s (.pass pass) = some (backupOperationalState digest settings pass s) := if_pos fresh

/-- The archive is within the retention of the pass, and its bytes are not lost outside. -/
def Spares (settings : Settings) (archive : BackupArchive) : Event → Prop
  | .pass pass => Retained settings pass archive
  | .outside path _ => path ≠ archive.path

def Confirmed (archive : BackupArchive) : Event → Prop
  | .pass pass => Confirms pass .verification archive
  | .outside _ _ => True

theorem step_holds (created : archive.status = .created) {event : Event} (spares : Spares settings archive event)
    {s t : State} (stepped : step digest settings s event = some t) (holds : Holds digest archive status s) :
    ∃ after, Holds digest archive after t ∧ (Confirmed archive event → status = .verified → after = .verified) := by
  cases event with
  | pass pass =>
    simp only [step, Option.ite_none_right_eq_some] at stepped
    obtain ⟨fresh, ended⟩ := stepped
    obtain rfl := Option.some.inj ended
    obtain ⟨snapshot, dump⟩ := fresh _ holds.1
    exact pass_holds created spares snapshot dump holds
  | outside path content =>
    obtain rfl := Option.some.inj stepped
    exact ⟨status, holds.write spares content, fun _ same => same⟩

theorem run_holds (created : archive.status = .created) (events : List Event)
    (spares : ∀ event ∈ events, Spares settings archive event) {s t : State}
    (ran : Run.run (step digest settings) s events = some t) (holds : Holds digest archive status s) :
    ∃ after, Holds digest archive after t ∧
      ((∀ event ∈ events, Confirmed archive event) → status = .verified → after = .verified) := by
  induction events generalizing s status with
  | nil =>
    obtain rfl := Option.some.inj ran
    exact ⟨status, holds, fun _ same => same⟩
  | cons event rest ih =>
    obtain ⟨mid, stepped, later⟩ := Run.run_cons_iff.mp ran
    obtain ⟨between, kept, told⟩ := step_holds created (spares event List.mem_cons_self) stepped holds
    obtain ⟨after, ended, last⟩ := ih (fun event member => spares event (List.mem_cons_of_mem _ member)) later kept
    refine ⟨after, ended, fun confirmed same => ?_⟩
    exact last (fun event member => confirmed event (List.mem_cons_of_mem _ member))
      (told (confirmed event List.mem_cons_self) same)

end Archive

/-- A verified database archive whose bytes are there. -/
def IsRecovery (digest : Content → String) (archive : BackupArchive) (s : State) : Prop :=
  archive ∈ s.archives ∧ archive.kind = .database ∧ archive.status = .created ∧
    archive.verificationStatus = .verified ∧ Intact digest archive s.files

/-- As long as the retention covers an archive and its bytes are not lost outside, it is listed with
its bytes after every pass; and it stays verified as long as its own verification does not fail. -/
theorem verified_archive_survives_while_retained {digest : Content → String} {settings : Settings}
    {archive : BackupArchive} {events : List Event} {s t : State} (recovery : IsRecovery digest archive s)
    (ran : Run.run (step digest settings) s events = some t)
    (spares : ∀ event ∈ events, Spares settings archive event) :
    (∃ status, mark archive status ∈ t.archives ∧ Intact digest archive t.files) ∧
      ((∀ event ∈ events, Confirmed archive event) → IsRecovery digest archive t) := by
  obtain ⟨listed, database, created, verified, intact⟩ := recovery
  have own : mark archive .verified = archive := by
    rw [mark, ← verified]
  have holds : Holds digest archive .verified s := ⟨own.symm ▸ listed, intact⟩
  obtain ⟨after, kept, told⟩ := run_holds created events spares ran holds
  refine ⟨⟨after, kept⟩, fun confirmed => ?_⟩
  obtain rfl := told confirmed rfl
  exact ⟨own ▸ kept.1, database, created, verified, kept.2⟩

/-! ### Dumps that fail for longer than the retention -/

namespace Sample

def day : Time := 86400000000

def monthly : Settings := ⟨true, day, 30 * day⟩

/-- A digest that tells the lengths of contents apart. -/
def size (content : Content) : String := String.ofList (List.replicate content.length 'x')

def start : State := ⟨[], List.nodup_nil, fun _ => none⟩

/-- A pass on a day where all is well but for the dump. -/
def passAt (now : Time) (dump : Dump) (snapshotPath dumpPath : Path) : Pass where
  createdAt := now
  clock _ := now
  storage _ := true
  validated _ _ := true
  readable _ _ := true
  restores _ _ := true
  sameConfiguration _ := true
  snapshotPath := snapshotPath
  snapshot := some [1]
  dumpPath := dumpPath
  dump := dump
  unlinks _ := true
  commits := true

def first : Pass := passAt 0 (.finished [1, 2] true) "configuration-1" "database-1"

def later : Pass := passAt (31 * day) (.failed none) "configuration-2" "database-2"

def dumped : BackupArchive := ⟨.database, "database-1", "xx", 2, .created, .verified, 0⟩

/-- Within the retention. -/
def sooner : Pass := passAt (29 * day) (.failed none) "configuration-2" "database-2"

end Sample

instance (digest : Content → String) (archive : BackupArchive) (s : State) : Decidable (IsRecovery digest archive s) :=
  inferInstanceAs (Decidable (_ ∧ _ ∧ _ ∧ _ ∧ _ = true))

open Sample in
theorem verified_archive_survives_a_failed_dump :
    IsRecovery size dumped (backupOperationalState size monthly sooner
      (backupOperationalState size monthly first start)) := by
  have ran : Run.run (step size monthly) (backupOperationalState size monthly first start) [.pass sooner] =
      some (backupOperationalState size monthly sooner (backupOperationalState size monthly first start)) := by
    have fresh : sooner.Fresh (backupOperationalState size monthly first start) := by decide +kernel
    exact Run.run_cons_iff.mpr ⟨_, step_pass fresh, rfl⟩
  have spares : ∀ event ∈ [Event.pass sooner], Spares monthly dumped event := by
    intro event member
    rw [List.mem_singleton.mp member]
    exact (by decide : cutoff monthly sooner ≤ dumped.createdAt)
  refine (verified_archive_survives_while_retained (by decide +kernel) ran spares).2 fun event member => ?_
  rw [List.mem_singleton.mp member]
  exact ⟨rfl, rfl, rfl⟩

open Sample in
/-- The pass prunes the only verified archive when its dump fails. -/
theorem pruning_takes_the_last_verified_archive :
    ¬∀ (digest : Content → String) (settings : Settings) (events : List Event) (s t : State),
      Run.run (step digest settings) s events = some t → (∀ event ∈ events, ∃ pass, event = .pass pass) →
      (∃ archive, IsRecovery digest archive s) → ∃ archive, IsRecovery digest archive t := by
  intro claim
  have fresh : later.Fresh (backupOperationalState size monthly first start) := by decide +kernel
  obtain ⟨archive, listed, database, created, -⟩ := claim size monthly [.pass later]
    (backupOperationalState size monthly first start)
    (backupOperationalState size monthly later (backupOperationalState size monthly first start))
    (Run.run_cons_iff.mpr ⟨_, step_pass fresh, rfl⟩)
    (fun event member => ⟨later, List.mem_singleton.mp member⟩) ⟨dumped, by decide +kernel⟩
  have none_ : ∀ archive ∈ (backupOperationalState size monthly later
      (backupOperationalState size monthly first start)).archives,
      ¬(archive.kind = .database ∧ archive.status = .created) := by decide +kernel
  exact none_ archive listed ⟨database, created⟩

end Drivebound.Backups
