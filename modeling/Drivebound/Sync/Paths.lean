import Drivebound.Core.Segments
import Drivebound.Sync.Answerable

/-! What `SyncOperationInput` accepts as a `relative_path`: the two dots that leave a directory
are looked for before a slash, so the last segment of a path may be one. -/
namespace Drivebound.Sync
open Segments

def maxRelativePath : Nat := 4096

/-- The field with its length and its validator; `none` is a `ValidationError`. -/
def acceptRelativePath (value : String) : Option String :=
  if maxRelativePath < value.length then none else relativePathOnly value

/-- No segment leaves a directory, and one is a name. -/
def IsRelative (path : String) : Prop :=
  parent ∉ segments path.toList ∧ ∃ segment ∈ segments path.toList, isName segment = true

instance : DecidablePred IsRelative := fun path =>
  inferInstanceAs (Decidable (_ ∧ ∃ segment ∈ segments path.toList, isName segment = true))

/-- What is promised of an accepted path: it is relative, it is inside of every root it is
joined to, also by a client on Windows, and the schema takes it again as it is. -/
def StaysInside (path : String) : Prop :=
  IsRelative path ∧ (∀ root, Inside root (resolve root (segments path.toList))) ∧
    (∀ current folder, Location.Inside folder (folder.join current path.toList)) ∧
    acceptRelativePath path = some path

/-- The text with the separators of both kinds as one. -/
def slashed (value : String) : List Char := value.toList.map fun c => if c = '\\' then '/' else c

/-- The text does not end with two dots, is not made of dots alone, and begins with no drive. -/
def EndsInside (value : String) : Prop :=
  (filled (slashed value)).getLast? ≠ some parent ∧ (∃ segment ∈ filled (slashed value), isName segment = true) ∧
    drive (stripSlashes (slashed value)) = []

instance : DecidablePred EndsInside := fun value =>
  inferInstanceAs (Decidable (_ ∧ (∃ segment ∈ filled (slashed value), isName segment = true) ∧ _))

variable {value path : String}

/-- All that an accepted path has been looked at for. -/
theorem acceptRelativePath_eq (accepted : acceptRelativePath value = some path) :
    path.toList = stripSlashes (slashed value) ∧ value.length ≤ maxRelativePath ∧
      relativePathOnly value = some path ∧
      ¬"../".toList <+: path.toList ∧ ¬"/../".toList <:+: path.toList := by
  unfold acceptRelativePath at accepted
  split_ifs at accepted with long
  have stripped := accepted
  unfold relativePathOnly at stripped
  dsimp only at stripped
  split_ifs at stripped with refused
  have same : path.toList = stripSlashes (slashed value) := by
    rw [← Option.some.inj stripped]
    exact String.toList_ofList
  rw [not_or, not_or] at refused
  rw [same]
  exact ⟨rfl, Nat.le_of_not_lt long, accepted, refused.2⟩

theorem acceptRelativePath_length (accepted : acceptRelativePath value = some path) : path.length ≤ value.length := by
  rw [← String.length_toList, (acceptRelativePath_eq accepted).1]
  have strip := (List.rdropWhile_prefix (· == '/') ((slashed value).dropWhile (· == '/'))).length_le
  have lead := (List.dropWhile_suffix (l := slashed value) (· == '/')).length_le
  have slashes : (slashed value).length = value.length := by
    rw [slashed, List.length_map, String.length_toList]
  rw [slashes] at lead
  exact strip.trans lead

/-- The accepted value is accepted again. -/
theorem acceptRelativePath_again (accepted : acceptRelativePath value = some path) :
    acceptRelativePath path = some path := by
  obtain ⟨-, short, checked, -⟩ := acceptRelativePath_eq accepted
  have shorter := acceptRelativePath_length accepted
  rw [acceptRelativePath, if_neg (by omega)]
  exact relativePathOnly_again checked

/-- Two dots are no segment of an accepted path but its last. -/
theorem parent_only_last (accepted : acceptRelativePath value = some path)
    (last : (segments path.toList).getLast? ≠ some parent) : parent ∉ segments path.toList := by
  obtain ⟨-, -, -, start, middle⟩ := acceptRelativePath_eq accepted
  intro member
  obtain ⟨front, back, split⟩ := List.append_of_mem member
  have more : back ≠ [] := by
    rintro rfl
    rw [split, List.getLast?_append_of_ne_nil _ (List.cons_ne_nil _ _)] at last
    exact last rfl
  obtain ⟨first, later⟩ := segments_split split more
  by_cases empty : front = []
  · exact start (first empty)
  · exact middle (later empty)

/-- What is accepted has the segments that were sent. -/
theorem filled_accepted (accepted : acceptRelativePath value = some path) :
    filled path.toList = filled (slashed value) := by
  rw [(acceptRelativePath_eq accepted).1]
  exact (filled_rdropWhile _).trans (filled_dropWhile _)

theorem mem_segments_of_filled {segment : Segment} {text : List Char} (member : segment ∈ filled text) :
    segment ∈ segments text :=
  List.mem_of_mem_filter member

/-- On Windows an accepted path stays inside of every folder exactly when it has no drive. -/
theorem inside_on_windows_iff {path : List Char} (down : parent ∉ segments path)
    (named : ∃ segment ∈ segments path, isName segment = true) :
    (∀ current folder, Location.Inside folder (folder.join current path)) ↔ drive path = [] := by
  constructor
  · intro inside
    by_contra some_
    obtain ⟨folder, leaves⟩ := drive_leaves (fun _ => []) some_
    exact leaves (inside _ folder)
  · intro none current folder
    rw [join_of_no_drive current folder none]
    exact ⟨decide_eq_true rfl, inside_of_no_parent folder.place down named⟩

/-- An accepted path stays inside of its root exactly when it does not end with two dots, is
not made of dots alone and does not begin with a drive. -/
theorem accepted_path_stays_inside_iff (value path : String) (accepted : acceptRelativePath value = some path) :
    StaysInside path ↔ EndsInside value := by
  have same := filled_accepted accepted
  have text := (acceptRelativePath_eq accepted).1
  constructor
  · rintro ⟨⟨down, segment, member, named⟩, -, windows, -⟩
    have driveless := (inside_on_windows_iff down ⟨segment, member, named⟩).mp windows
    rw [EndsInside, ← same, ← text]
    refine ⟨fun last => down (mem_segments_of_filled (List.mem_of_getLast? last)), ⟨segment, ?_, named⟩, driveless⟩
    have nonempty : segment ≠ [] := by
      rintro rfl
      exact absurd named (by decide)
    exact List.mem_filter.mpr ⟨member, decide_eq_true nonempty⟩
  · rintro ⟨last, ⟨segment, member, name⟩, driveless⟩
    rw [← same] at last member
    rw [← text] at driveless
    have down : parent ∉ segments path.toList := by
      apply parent_only_last accepted
      intro ends
      obtain ⟨front, split⟩ := List.getLast?_eq_some_iff.mp ends
      apply last
      rw [filled, split, List.filter_append]
      exact List.getLast?_append_of_ne_nil _ (List.cons_ne_nil _ _)
    have named : ∃ segment ∈ segments path.toList, isName segment = true :=
      ⟨segment, mem_segments_of_filled member, name⟩
    exact ⟨⟨down, named⟩, fun root => inside_of_no_parent root down named,
      (inside_on_windows_iff down named).mpr driveless, acceptRelativePath_again accepted⟩

theorem accepted_album_stays_inside : acceptRelativePath "\\Album/2026\\a..b.jpg/" = some "Album/2026/a..b.jpg" ∧
    StaysInside "Album/2026/a..b.jpg" := by
  have accepted : acceptRelativePath "\\Album/2026\\a..b.jpg/" = some "Album/2026/a..b.jpg" := by decide +kernel
  have inside : EndsInside "\\Album/2026\\a..b.jpg/" := by decide +kernel
  exact ⟨accepted, (accepted_path_stays_inside_iff _ _ accepted).mpr inside⟩

theorem trailing_dots_leave_album : ¬∀ value path : String, acceptRelativePath value = some path → StaysInside path := by
  intro always
  have stays := always "Album/.." "Album/.." (by decide +kernel)
  exact absurd stays.1 (by decide +kernel)

/-- A folder on another drive is left for the path itself. -/
example : acceptRelativePath "C:\\Windows\\win.ini" = some "C:/Windows/win.ini" ∧
    Location.join (fun _ => []) ⟨"D:".toList, ["Pictures".toList]⟩ "C:/Windows/win.ini".toList =
      ⟨"C:".toList, ["Windows".toList, "win.ini".toList]⟩ := by decide +kernel

end Drivebound.Sync
