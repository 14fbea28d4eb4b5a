import Mathlib.Data.List.DropRight

/-! Paths by the segments between their slashes, and the lexical resolution of one below a
root: a dot and an empty segment stay, two dots leave. On Windows a path may name a drive too. -/
namespace Drivebound.Segments

abbrev Segment := List Char

def segments (path : List Char) : List Segment := path.splitOn '/'

def parent : Segment := ['.', '.']

/-- A segment that stands for a step down. -/
def isName (segment : Segment) : Bool := segment ≠ [] ∧ segment ≠ ['.']

def enter (place : List Segment) (segment : Segment) : List Segment :=
  if isName segment then (if segment = parent then place.dropLast else place ++ [segment]) else place

def resolve (root : List Segment) (path : List Segment) : List Segment := path.foldl enter root

/-- The segments with something in them. -/
def filled (path : List Char) : List Segment := (segments path).filter (· ≠ [])

/-- Below a root, and not the root itself. -/
def Inside (root place : List Segment) : Prop := ∃ names, names ≠ [] ∧ place = root ++ names

theorem resolve_of_no_parent (root : List Segment) {path : List Segment} (down : parent ∉ path) :
    resolve root path = root ++ path.filter isName := by
  induction path generalizing root with
  | nil => exact (List.append_nil root).symm
  | cons segment rest ih =>
    rw [List.mem_cons, not_or] at down
    have later := ih (enter root segment) down.2
    rw [resolve, List.foldl_cons, ← resolve, later]
    cases named : isName segment with
    | false => rw [List.filter_cons_of_neg (by simp [named]), enter, named, if_neg Bool.false_ne_true]
    | true =>
      rw [List.filter_cons_of_pos named, enter, if_pos named, if_neg (Ne.symm down.1), List.append_assoc]
      rfl

theorem inside_of_no_parent (root : List Segment) {path : List Segment} (down : parent ∉ path)
    (named : ∃ segment ∈ path, isName segment = true) : Inside root (resolve root path) := by
  refine ⟨path.filter isName, ?_, resolve_of_no_parent root down⟩
  obtain ⟨segment, member, name⟩ := named
  exact List.ne_nil_of_mem (List.mem_filter.mpr ⟨member, name⟩)

/-! ### Drives -/

/-- A place on Windows: its drive, and the segments below the root of the drive. -/
structure Location where
  drive : List Char
  place : List Segment
  deriving DecidableEq, Repr

/-- `ntpath.splitroot` of a path that begins with no separator: its drive, whether the rest begins at the root of the
drive, and the rest. -/
def splitRoot : List Char → List Char × Bool × List Char
  | letter :: ':' :: '/' :: rest => ([letter, ':'], true, rest)
  | letter :: ':' :: rest => ([letter, ':'], false, rest)
  | path => ([], false, path)

def drive (path : List Char) : List Char := (splitRoot path).1

def sameDrive (one two : List Char) : Bool := one.map Char.toLower = two.map Char.toLower

namespace Location

/-- A path joined to a folder on Windows and made absolute. A drive replaces that of the folder; without a slash behind
it, another drive goes on from the directory that is `current` on it. -/
def join (current : List Char → List Segment) (folder : Location) (path : List Char) : Location :=
  match splitRoot path with
  | ([], _, rest) => ⟨folder.drive, resolve folder.place (segments rest)⟩
  | (drive, true, rest) => ⟨drive, resolve [] (segments rest)⟩
  | (drive, false, rest) =>
    ⟨drive, resolve (if sameDrive drive folder.drive then folder.place else current drive) (segments rest)⟩

def Inside (folder location : Location) : Prop :=
  sameDrive location.drive folder.drive = true ∧ Segments.Inside folder.place location.place

end Location

variable {path : List Char} (current : List Char → List Segment)

theorem splitRoot_of_no_drive (none : drive path = []) : splitRoot path = ([], false, path) := by
  unfold drive at none
  unfold splitRoot at none ⊢
  split at none <;> simp_all

theorem join_of_no_drive (folder : Location) (none : drive path = []) :
    folder.join current path = ⟨folder.drive, resolve folder.place (segments path)⟩ := by
  rw [Location.join, splitRoot_of_no_drive none]

theorem join_drive (folder : Location) (named : drive path ≠ []) : (folder.join current path).drive = drive path := by
  unfold Location.join
  unfold drive at named ⊢
  split
  · next none => exact absurd (congrArg Prod.fst none) named
  · next split => rw [split]
  · next split => rw [split]

/-- A path with a drive leaves a folder on another one. -/
theorem drive_leaves (named : drive path ≠ []) :
    ∃ folder : Location, ¬folder.Inside (folder.join current path) := by
  by_cases first : sameDrive (drive path) ['c', ':'] = true
  · refine ⟨⟨['d', ':'], []⟩, fun inside => ?_⟩
    have second := inside.1
    rw [join_drive current _ named] at second
    have equal := (of_decide_eq_true second).symm.trans (of_decide_eq_true first)
    exact absurd equal (by decide)
  · refine ⟨⟨['c', ':'], []⟩, fun inside => first ?_⟩
    rw [← join_drive current ⟨['c', ':'], []⟩ named]
    exact inside.1

theorem intercalate_append {α : Type*} (separator : α) (front back : List (List α)) (some_ : back ≠ []) :
    [separator].intercalate (front ++ back) =
      front.flatMap (· ++ [separator]) ++ [separator].intercalate back := by
  induction front with
  | nil => rfl
  | cons first rest ih =>
    have filled : rest ++ back ≠ [] := List.append_ne_nil_of_right_ne_nil rest some_
    rw [List.cons_append, List.intercalate_cons_of_ne_nil filled, ih, List.flatMap_cons]
    simp only [List.append_assoc]

/-- A segment before others is followed by a slash, and one behind others by one. -/
theorem segments_split {path : List Char} {front back : List Segment} {segment : Segment}
    (split : segments path = front ++ segment :: back) (more : back ≠ []) :
    (front = [] → segment ++ ['/'] <+: path) ∧ (front ≠ [] → '/' :: segment ++ ['/'] <:+: path) := by
  have whole : ['/'].intercalate (front ++ segment :: back) = path := by
    rw [← split]
    exact List.intercalate_splitOn '/'
  rw [intercalate_append '/' front (segment :: back) (List.cons_ne_nil _ _),
    List.intercalate_cons_of_ne_nil more] at whole
  constructor
  · rintro rfl
    exact ⟨['/'].intercalate back, by simpa using whole⟩
  · intro some_
    obtain ⟨early, last, rfl⟩ := (List.eq_nil_or_concat front).resolve_left some_
    refine ⟨early.flatMap (· ++ ['/']) ++ last, ['/'].intercalate back, ?_⟩
    simpa using whole

@[simp] theorem filled_slash_append (path : List Char) : filled ('/' :: path) = filled path := by
  have split := List.splitOn_append_cons_self (a := '/') [] path
  rw [List.nil_append, List.splitOn_nil] at split
  simp [filled, segments, split]

@[simp] theorem filled_append_slash (path : List Char) : filled (path ++ ['/']) = filled path := by
  simp [filled, segments, List.splitOn_append_cons_self]

theorem filled_dropWhile (path : List Char) : filled (path.dropWhile (· == '/')) = filled path := by
  induction path with
  | nil => rfl
  | cons c rest ih =>
    by_cases slash : c = '/'
    · subst slash
      simpa using ih
    · simp [slash]

theorem filled_rdropWhile (path : List Char) : filled (path.rdropWhile (· == '/')) = filled path := by
  induction path using List.reverseRecOn with
  | nil => rfl
  | append_singleton front c ih =>
    by_cases slash : c = '/'
    · subst slash
      simpa [List.rdropWhile_concat] using ih
    · simp [slash]

end Drivebound.Segments
