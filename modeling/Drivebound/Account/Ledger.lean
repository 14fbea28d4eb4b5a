import Mathlib.Data.List.Sort
import Drivebound.Core.Dict
import Drivebound.Catalog

/-! `services/account_deletion.py`: the suppression ledger, a directory with one
marker file for each deletion job. The directory is the list of its markers in the
order of their file names, which are the job ids. Every marker in it was written
by the program, so its authentication tag verifies and is left out. -/
namespace Drivebound.Account

structure Marker where
  jobId : UUID
  subjectFingerprint : String
  requestedAt : Timestamp
  deriving DecidableEq, Repr

abbrev Ledger := List Marker

/-- `write_suppression_marker`, up to the point where the file is in place. An
equal file is left alone, another one under this name is an error. -/
def writeSuppressionMarker (ledger : Ledger) (marker : Marker) : Option Ledger :=
  match ledger.find? (·.jobId = marker.jobId) with
  | some present => if present = marker then some ledger else none
  | none => some (ledger.orderedInsert (·.jobId ≤ ·.jobId) marker)

/-- The loop of `read_suppression_markers` with its `seen_subjects`. -/
def readMarkers (seen : Dict String UUID) : List Marker → Option (List Marker)
  | [] => some []
  | marker :: rest =>
    match seen.get? marker.subjectFingerprint with
    | none => (readMarkers (seen.set marker.subjectFingerprint marker.jobId) rest).map (marker :: ·)
    | some previousJob =>
      if previousJob = marker.jobId then (readMarkers seen rest).map (marker :: ·) else none

/-- `none` is the `RuntimeError` for an invalid ledger. -/
def readSuppressionMarkers (ledger : Ledger) : Option (List Marker) := readMarkers [] ledger

/-- `suppression_subject_is_denied`. -/
def suppressionSubjectIsDenied (ledger : Ledger) (fingerprint : String) : Option Bool :=
  (readSuppressionMarkers ledger).map fun records =>
    records.any (·.subjectFingerprint = fingerprint)

/-- One account has the markers of one job at most. -/
def Unambiguous (ledger : Ledger) : Prop :=
  ∀ m ∈ ledger, ∀ n ∈ ledger, m.subjectFingerprint = n.subjectFingerprint → m.jobId = n.jobId

/-- Every marker of the account is the one of this job. -/
def OnlyJob (ledger : Ledger) (fingerprint : String) (job : UUID) : Prop :=
  ∀ m ∈ ledger, m.subjectFingerprint = fingerprint → m.jobId = job

/-- File names are unique. -/
def FilesUnique (ledger : Ledger) : Prop := (ledger.map Marker.jobId).Nodup

theorem readMarkers_some {seen : Dict String UUID} {ledger : Ledger}
    (unambiguous : Unambiguous ledger)
    (known : ∀ m ∈ ledger, ∀ job ∈ seen.get? m.subjectFingerprint, job = m.jobId) :
    readMarkers seen ledger = some ledger := by
  induction ledger generalizing seen with
  | nil => rfl
  | cons marker rest ih =>
    have tail : Unambiguous rest := fun m here n there =>
      unambiguous m (List.mem_cons_of_mem _ here) n (List.mem_cons_of_mem _ there)
    simp only [readMarkers]
    cases found : seen.get? marker.subjectFingerprint with
    | some previous =>
      have same : previous = marker.jobId := known marker (List.mem_cons_self ..) previous found
      have later := ih tail fun m here => known m (List.mem_cons_of_mem _ here)
      simp only [if_pos same, later, Option.map_some]
    | none =>
      have recorded : ∀ m ∈ rest, ∀ job ∈
          (seen.set marker.subjectFingerprint marker.jobId).get? m.subjectFingerprint,
          job = m.jobId := by
        intro m here job entry
        by_cases same : m.subjectFingerprint = marker.subjectFingerprint
        · rw [same, Dict.get?_set_self] at entry
          have agree := unambiguous marker (List.mem_cons_self ..) m
            (List.mem_cons_of_mem _ here) same.symm
          exact (Option.some.inj entry).symm.trans agree
        · rw [Dict.get?_set_other _ _ same] at entry
          exact known m (List.mem_cons_of_mem _ here) job entry
      simp only [ih tail recorded, Option.map_some]

theorem readSuppressionMarkers_some {ledger : Ledger} (unambiguous : Unambiguous ledger) :
    readSuppressionMarkers ledger = some ledger :=
  readMarkers_some unambiguous nofun

/-- After a write the ledger holds the marker and what it held before. -/
theorem mem_writeSuppressionMarker {ledger ledger' : Ledger} {marker m : Marker}
    (written : writeSuppressionMarker ledger marker = some ledger') :
    m ∈ ledger' ↔ m = marker ∨ m ∈ ledger := by
  unfold writeSuppressionMarker at written
  split at written
  · rename_i present found
    split at written
    · rename_i same
      cases written
      refine ⟨.inr, fun either => either.elim (fun equal => ?_) (fun here => here)⟩
      rw [equal, ← same]
      exact List.mem_of_find?_eq_some found
    · contradiction
  · cases written
    exact List.mem_orderedInsert _

theorem writeSuppressionMarker_unique {ledger ledger' : Ledger} {marker : Marker}
    (unique : FilesUnique ledger)
    (written : writeSuppressionMarker ledger marker = some ledger') : FilesUnique ledger' := by
  unfold writeSuppressionMarker at written
  split at written
  · split at written
    · cases written
      exact unique
    · contradiction
  · rename_i absent
    cases written
    have rearranged := (List.perm_orderedInsert (fun a b : Marker => a.jobId ≤ b.jobId) marker
      ledger).map Marker.jobId
    refine rearranged.nodup_iff.mpr (List.nodup_cons.mpr ⟨fun taken => ?_, unique⟩)
    obtain ⟨other, here, same⟩ := List.mem_map.mp taken
    exact List.find?_eq_none.mp absent other here (decide_eq_true same)

/-- Two different files of an unambiguous ledger name two accounts. -/
theorem Unambiguous.fingerprints {ledger : Ledger} (unambiguous : Unambiguous ledger)
    (unique : FilesUnique ledger) : (ledger.map Marker.subjectFingerprint).Nodup := by
  have nodup : ledger.Nodup := List.Nodup.of_map _ unique
  refine List.Nodup.map_on (fun m here n there same => ?_) nodup
  exact List.inj_on_of_nodup_map unique here there (unambiguous m here n there same)

end Drivebound.Account
