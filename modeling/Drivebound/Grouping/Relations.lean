import Drivebound.Timeline.Pages
import Mathlib

/-! What `services/media_groups.py` finds out about an asset and its neighbours: the groups that
`group_asset` asks for, with their keys, members and roles. -/
namespace Drivebound.Grouping
open Calendar Timeline

scoped instance lawfulChars : LawfulBEq (List Char) := inferInstance

/-- What Unicode says of a text: `str.lower` and the digits of `\d`. -/
structure Unicode where
  lower : List Char → List Char
  isDecimal : Char → Bool

structure Asset where
  id : Uuid
  userId : Uuid
  lifecycleState : LifecycleState
  originalFilename : Option String
  mimeType : String
  takenAt : Option Timeline.Timestamp
  cameraModel : Option String
  /-- The digits of the hexadecimal hash. -/
  perceptualHash : Option (List (Fin 16))
deriving DecidableEq

/-! ### Names -/

def RAW_EXTENSIONS : List (List Char) :=
  [".arw", ".cr2", ".cr3", ".dng", ".nef", ".orf", ".raf", ".rw2", ".pef"].map String.toList

def STILL_EXTENSIONS : List (List Char) := [".jpg", ".jpeg", ".heic", ".heif", ".png", ".webp"].map String.toList

def VIDEO_EXTENSIONS : List (List Char) := [".mov", ".mp4", ".m4v"].map String.toList

/-- `Path(filename).name` -/
def pathName (filename : List Char) : List Char :=
  ((filename.splitOn '/').filter fun part => part ≠ [] ∧ part ≠ ['.']).getLastD []

/-- `stem` and `suffix` of a path. -/
def splitName (name : List Char) : List Char × List Char :=
  let after := (name.reverse.takeWhile (· ≠ '.')).reverse
  let before := name.take (name.length - after.length - 1)
  if before ≠ [] ∧ after ≠ [] then (before, '.' :: after) else (name, [])

/-- One of the marks that a copy is told by. -/
def readMark (unicode : Unicode) : List Char → Option (List Char)
  | [] => none
  | c :: rest =>
    if c = '_' ∨ c = ' ' ∨ c = '-' then
      (["edited", "copy", "small", "large"].map String.toList).findSome? fun word =>
        if word.isPrefixOf rest then some (rest.drop word.length) else none
    else if c = '(' ∧ rest.takeWhile unicode.isDecimal ≠ [] ∧ (rest.dropWhile unicode.isDecimal).head? = some ')' then
      some (rest.dropWhile unicode.isDecimal).tail
    else none

/-- Marks up to the end, or up to a line end that is the last character. -/
def readMarks (unicode : Unicode) : Nat → List Char → Option (List Char)
  | 0, _ => none
  | fuel + 1, text =>
    (readMark unicode text).bind fun rest =>
      if rest = [] ∨ rest = ['\n'] then some rest else readMarks unicode fuel rest

/-- The first of the substitutions of `normalized_stem`. -/
def dropMarks (unicode : Unicode) : List Char → List Char
  | [] => []
  | c :: rest =>
    match readMarks unicode (rest.length + 1) (c :: rest) with
    | some remainder => remainder
    | none => c :: dropMarks unicode rest

def nameOf (filename : Option String) : List Char := pathName (filename.getD "").toList

def normalizedStem (unicode : Unicode) (filename : Option String) : List Char :=
  (dropMarks unicode (unicode.lower (splitName (nameOf filename)).1)).filter fun c =>
    ('a' ≤ c ∧ c ≤ 'z') ∨ c.isDigit

def extension (unicode : Unicode) (asset : Asset) : List Char :=
  unicode.lower (splitName (nameOf asset.originalFilename)).2

/-! ### Distances -/

def bitCount (nibble : Nat) : Nat := nibble % 2 + nibble / 2 % 2 + nibble / 4 % 2 + nibble / 8 % 2

def hammingDistance (first second : List (Fin 16)) : Nat :=
  if first.length ≠ second.length then max first.length second.length * 4
  else ((first.zip second).map fun pair => bitCount (pair.1.val ^^^ pair.2.val)).sum

/-- `1 - distance / 64` -/
def similarity (distance : Nat) : ℚ := 1 - distance / 64

/-! ### The groups that are asked for -/

inductive Kind where
  | rawJpeg
  | livePhoto
  | burst
  | nearDuplicate
deriving DecidableEq

inductive Role where
  | raw
  | render
  | motion
  | still
  | member
  | candidate
deriving DecidableEq

/-- A call of `_group`. -/
structure Use where
  userId : Uuid
  kind : Kind
  key : List Char
  members : List (Uuid × Role × Option ℚ)
  confidence : ℚ

/-- A still and its counterpart of the same stem. -/
structure Pairing where
  kind : Kind
  lead : String
  extensions : List (List Char)
  counterpart : Role
  still : Role

def rawPair : Pairing := ⟨.rawJpeg, "raw:", RAW_EXTENSIONS, .raw, .render⟩

def livePair : Pairing := ⟨.livePhoto, "live:", VIDEO_EXTENSIONS, .motion, .still⟩

section Assets
variable (unicode : Unicode)

def stemOf (asset : Asset) : List Char := normalizedStem unicode asset.originalFilename

namespace Pairing

def pairs (pairing : Pairing) (asset candidate : Asset) : Bool :=
  stemOf unicode candidate = stemOf unicode asset &&
    ((extension unicode asset ∈ pairing.extensions && extension unicode candidate ∈ STILL_EXTENSIONS) ||
      (extension unicode asset ∈ STILL_EXTENSIONS && extension unicode candidate ∈ pairing.extensions))

def uses (pairing : Pairing) (asset : Asset) (candidates : List Asset) : List Use :=
  let pair := candidates.filter (pairing.pairs unicode asset)
  let isCounterpart := decide (extension unicode asset ∈ pairing.extensions)
  if pair = [] then []
  else [{
    userId := asset.userId
    kind := pairing.kind
    key := pairing.lead.toList ++ stemOf unicode asset
    members := (asset.id, (if isCounterpart then pairing.counterpart else pairing.still), none) ::
      pair.map fun candidate => (candidate.id, (if isCounterpart then pairing.still else pairing.counterpart), none)
    confidence := 1 }]

end Pairing

/-- `strftime('%Y%m%d%H%M%S')` -/
def stamp (t : Timeline.Timestamp) : List Char :=
  let date := dateOf (t.val / dayLength)
  let time := t.val % dayLength / second
  pad 4 date.year ++ pad 2 date.month ++ pad 2 date.day ++ pad 2 (time / 3600) ++ pad 2 (time / 60 % 60) ++
    pad 2 (time % 60)

def isImage (asset : Asset) : Bool := "image/".toList.isPrefixOf asset.mimeType.toList

def nearTime (asset candidate : Asset) : Bool :=
  match candidate.takenAt, asset.takenAt with
  | some taken, some own =>
    isImage candidate && isImage asset && ((taken.val : Int) - own.val).natAbs ≤ 3 * second
  | _, _ => false

def mayBurst (asset : Asset) : Bool :=
  "burst".toList <:+: stemOf unicode asset || "img".toList <:+: stemOf unicode asset

def burstUses (asset : Asset) (candidates : List Asset) : List Use :=
  match asset.takenAt with
  | none => []
  | some own =>
    let near := candidates.filter (nearTime asset)
    if mayBurst unicode asset = false ∨ near = [] then []
    else [{
      userId := asset.userId
      kind := .burst
      key := "burst:".toList ++ stamp own ++ ':' :: (asset.cameraModel.getD "").toList
      members := (asset.id, .member, none) :: near.map fun candidate => (candidate.id, .member, none)
      confidence := 85 / 100 }]

def similarKey (first second : Uuid) : List Char :=
  "similar:".toList ++ (min first.str second.str).toList ++ ':' :: (max first.str second.str).toList

def hashOf (asset : Asset) : List (Fin 16) := asset.perceptualHash.getD []

/-- An empty hash counts as none. -/
def isNear (asset candidate : Asset) : Bool :=
  hashOf asset ≠ [] && hashOf candidate ≠ [] && hammingDistance (hashOf asset) (hashOf candidate) ≤ 8

def similarUse (asset candidate : Asset) : Use where
  userId := asset.userId
  kind := .nearDuplicate
  key := similarKey asset.id candidate.id
  members :=
    let alike := similarity (hammingDistance (hashOf asset) (hashOf candidate))
    [(asset.id, .candidate, some alike), (candidate.id, .candidate, some alike)]
  confidence := similarity (hammingDistance (hashOf asset) (hashOf candidate))

def candidatesOf (catalogue : List Asset) (asset : Asset) : List Asset :=
  catalogue.filter fun candidate =>
    candidate.userId = asset.userId ∧ candidate.id ≠ asset.id ∧ candidate.lifecycleState ≠ .trashed

/-- The calls of `_group` that `group_asset` makes for an asset. -/
def uses (catalogue : List Asset) (asset : Asset) : List Use :=
  let candidates := candidatesOf catalogue asset
  if asset.lifecycleState = .trashed ∨ stemOf unicode asset = [] then []
  else rawPair.uses unicode asset candidates ++ livePair.uses unicode asset candidates ++
    burstUses unicode asset candidates ++ (candidates.filter (isNear asset)).map (similarUse asset)

end Assets

end Drivebound.Grouping
