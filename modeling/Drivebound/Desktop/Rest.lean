import Drivebound.Desktop.Changes
import Drivebound.Desktop.PullGuard
import Mathlib

/-! Where the folder and the state agree. A path is clean when it has neither a file nor an
entry, or a file that its one entry records. `local_changes` finds something at a path only
where it is not clean, and a pull that puts every remote change in its place leaves the clean
paths clean. -/
namespace Drivebound.Desktop
open Sync Run

variable {π : Type} [DecidableEq π]

/-- The name under which the scan lists a file leads back to it. -/
def Canonical (env : Env π) (relative : π → Option String) : Prop :=
  ∀ path name, relative path = some name → env.resolve name = path

/-- The file that the scan lists under the name. -/
def fileAt (env : Env π) (relative : π → Option String) (folder : Folder π) (name : String) :
    Option LocalFile :=
  if relative (env.resolve name) = some name then folder.get? (env.resolve name) else none

section Scan

variable {env : Env π} {relative : π → Option String} {folder : Folder π}

theorem fileAt_of_relative (canonical : Canonical env relative) {path : π} {name : String}
    (named : relative path = some name) : fileAt env relative folder name = folder.get? path := by
  have same := canonical path name named
  simp only [fileAt, same, named, if_true]

theorem fileAt_set_self (canonical : Canonical env relative) {path : π} {name : String}
    (named : relative path = some name) (file : LocalFile) :
    fileAt env relative (folder.set path file) name = some file := by
  rw [fileAt_of_relative canonical named, Dict.get?_set_self]

theorem fileAt_pop_self (canonical : Canonical env relative) {path : π} {name : String}
    (named : relative path = some name) : fileAt env relative (folder.pop path) name = none := by
  rw [fileAt_of_relative canonical named, Dict.get?_pop_self]

/-- Another name names another file. -/
theorem fileAt_congr {changed : Folder π} {path : π} {own name : String}
    (named : relative path = some own) (different : name ≠ own)
    (same : ∀ other, other ≠ path → changed.get? other = folder.get? other) :
    fileAt env relative changed name = fileAt env relative folder name := by
  unfold fileAt
  split
  · rename_i listed
    refine same _ fun equal => different ?_
    rw [equal, named] at listed
    exact (Option.some.inj listed).symm
  · rfl

/-- One path of the scan. -/
theorem scanned_get? (canonical : Canonical env relative) (found : Dict String LocalFile) (path : π)
    (name : String) :
    (match relative path, folder.get? path with
      | some name, some file => found.set name file
      | _, _ => found).get? name =
      (if env.resolve name = path then fileAt env relative folder name else none).or
        (found.get? name) := by
  split_ifs with here
  · by_cases named : relative path = some name
    · rw [fileAt_of_relative canonical named, named]
      cases folder.get? path with
      | none => rfl
      | some file => exact Dict.get?_set_self ..
    · have absent : fileAt env relative folder name = none := by
        unfold fileAt
        rw [here, if_neg named]
      rw [absent, Option.none_or]
      split
      · rename_i other file listed _
        refine Dict.get?_set_other _ _ fun same => named ?_
        rw [listed, same]
      · rfl
  · rw [Option.none_or]
    split
    · rename_i other file listed _
      refine Dict.get?_set_other _ _ fun same => here ?_
      exact same ▸ canonical path other listed
    · rfl

theorem scan_get? (canonical : Canonical env relative) {order : List π}
    (covers : ∀ entry ∈ folder, entry.1 ∈ order) (name : String) :
    (scan relative folder order).get? name = fileAt env relative folder name := by
  have lists : ∀ (order : List π) (found : Dict String LocalFile),
      (order.foldl (fun results path =>
        match relative path, folder.get? path with
        | some name, some file => results.set name file
        | _, _ => results) found).get? name =
        ((if env.resolve name ∈ order then fileAt env relative folder name else none).or
          (found.get? name)) := by
    intro order
    induction order with
    | nil => exact fun _ => rfl
    | cons path rest ih =>
      intro found
      rw [List.foldl_cons, ih, scanned_get? canonical]
      by_cases here : env.resolve name = path
      · rw [if_pos here, if_pos (List.mem_cons.mpr (.inl here)), ← Option.or_assoc]
        split
        · rw [Option.or_self]
        · rw [Option.none_or]
      · have unlisted : env.resolve name ∈ path :: rest ↔ env.resolve name ∈ rest :=
          ⟨fun member => (List.mem_cons.mp member).resolve_left here, List.mem_cons_of_mem path⟩
        simp only [unlisted, if_neg here, Option.none_or]
  have listed := lists order []
  rw [show (Dict.get? ([] : Dict String LocalFile) name) = none from rfl, Option.or_none] at listed
  refine listed.trans ?_
  split
  · rfl
  · rename_i outside
    unfold fileAt
    split
    · cases found : folder.get? (env.resolve name) with
      | none => rfl
      | some file => exact absurd (covers _ (Dict.get?_mem found)) outside
    · rfl

end Scan

/-- The folder and the state agree about the path. -/
def Clean (entries : Dict UUID Entry) (name : String) : Option LocalFile → Prop
  | none => ∀ id entry, entries.get? id = some entry → entry.relativePath ≠ name
  | some file => ∃ id entry, entries.get? id = some entry ∧ entry.relativePath = name ∧
      entry.matches file ∧
        ∀ other found, entries.get? other = some found → found.relativePath = name → other = id

namespace Clean

variable {entries : Dict UUID Entry} {name : String} {file : Option LocalFile}

/-- An entry that leaves another path. -/
theorem pop {id : UUID} {entry : Entry} (clean : Clean entries name file)
    (tracked : entries.get? id = some entry) (different : entry.relativePath ≠ name) :
    Clean (entries.pop id) name file := by
  have before : ∀ other found, (entries.pop id).get? other = some found →
      entries.get? other = some found := by
    intro other found kept
    by_cases same : other = id
    · rw [same, Dict.get?_pop_self] at kept
      contradiction
    · rwa [Dict.get?_pop_other _ same] at kept
  cases file with
  | none => exact fun other found kept => clean other found (before other found kept)
  | some file =>
    obtain ⟨own, record, held, path, recorded, only⟩ := clean
    have apart : own ≠ id := by
      rintro rfl
      cases held.symm.trans tracked
      exact different path
    refine ⟨own, record, (Dict.get?_pop_other _ apart).trans held, path, recorded, ?_⟩
    exact fun other found kept => only other found (before other found kept)

/-- An entry that is recorded at another path and was not at this one. -/
theorem set {id : UUID} {entry : Entry} (clean : Clean entries name file)
    (different : entry.relativePath ≠ name)
    (elsewhere : ∀ before, entries.get? id = some before → before.relativePath ≠ name) :
    Clean (entries.set id entry) name file := by
  have before : ∀ other found, (entries.set id entry).get? other = some found →
      found.relativePath = name → entries.get? other = some found := by
    intro other found kept path
    by_cases same : other = id
    · rw [same, Dict.get?_set_self] at kept
      cases kept
      exact absurd path different
    · rwa [Dict.get?_set_other _ _ same] at kept
  cases file with
  | none =>
    intro other found kept path
    exact clean other found (before other found kept path) path
  | some file =>
    obtain ⟨own, record, held, path, recorded, only⟩ := clean
    have apart : own ≠ id := by
      rintro rfl
      exact elsewhere record held path
    refine ⟨own, record, (Dict.get?_set_other _ _ apart).trans held, path, recorded, ?_⟩
    exact fun other found kept here => only other found (before other found kept here) here

/-- The path takes the file that its item's new entry records. -/
theorem record {id : UUID} {entry : Entry} {content : LocalFile} (path : entry.relativePath = name)
    (recorded : entry.matches content)
    (only : ∀ other found, other ≠ id → entries.get? other = some found → found.relativePath ≠ name) :
    Clean (entries.set id entry) name (some content) := by
  refine ⟨id, entry, Dict.get?_set_self .., path, recorded, fun other found kept here => ?_⟩
  by_contra different
  rw [Dict.get?_set_other _ _ different] at kept
  exact only other found different kept here

end Clean

section ByPath

variable {state : ClientState} {name : String}

/-- The path of an entry is found, if not for this entry. -/
theorem ClientState.byPath_isSome {tracked : UUID × Entry} (member : tracked ∈ state.entries)
    (path : tracked.2.relativePath = name) : (state.byPath.get? name).isSome := by
  have collects : ∀ (entries : Dict UUID Entry) (known : Dict String (UUID × Entry)),
      (known.get? name).isSome ∨ tracked ∈ entries →
      ((entries.foldl (fun found entry => found.set entry.2.relativePath entry) known).get?
        name).isSome := by
    intro entries
    induction entries with
    | nil => exact fun _ known => known.resolve_right List.not_mem_nil
    | cons entry rest ih =>
      intro known there
      apply ih
      dsimp only
      by_cases same : name = entry.2.relativePath
      · rw [← same, Dict.get?_set_self]
        exact .inl rfl
      · rw [Dict.get?_set_other _ _ same]
        refine there.imp_right fun member => (List.mem_cons.mp member).resolve_left ?_
        rintro rfl
        exact same path.symm
  exact collects state.entries [] (.inr member)

/-- At a clean path with a file, its entry is found and records the file. -/
theorem Clean.byPath {file : LocalFile} (clean : Clean state.entries name (some file))
    (keys : (state.entries.map Prod.fst).Nodup) :
    ∃ tracked, state.byPath.get? name = some tracked ∧ tracked.2.matches file ∧
      ∀ other ∈ state.entries, other.2.relativePath = name → other = tracked := by
  obtain ⟨id, entry, held, path, recorded, only⟩ := clean
  have single : ∀ other ∈ state.entries, other.2.relativePath = name → other = (id, entry) := by
    intro other member here
    have found := Dict.get?_of_mem keys member
    have same := only other.1 other.2 found here
    rw [same, held] at found
    exact Prod.ext same (Option.some.inj found).symm
  obtain ⟨tracked, found⟩ := Option.isSome_iff_exists.mp
    (ClientState.byPath_isSome (Dict.get?_mem held) path)
  have same := single tracked (ClientState.byPath_found found) (ClientState.byPath_path found)
  subst same
  exact ⟨_, found, recorded, single⟩

end ByPath

section Pull

/-- The download goes to the recorded path of its item, or to a path that no entry has. -/
def OwnPlace (entries : Dict UUID Entry) (logicalId : UUID) (relativePath : String) : Prop :=
  match entries.get? logicalId with
  | some entry => entry.relativePath = relativePath
  | none => ∀ tracked ∈ entries, tracked.2.relativePath ≠ relativePath

instance (entries : Dict UUID Entry) (logicalId : UUID) :
    DecidablePred (OwnPlace entries logicalId) := fun relativePath => by
  unfold OwnPlace
  split <;> infer_instance

/-- A remote change moves no item, meets no other one, and has a path that the scan lists. -/
def InPlace (env : Env π) (relative : π → Option String) (m : Machine π) : Label π → Prop
  | .examine =>
    match m.process with
    | .pulling memory (operation :: _) _ _ =>
      match plan env m.folder memory.state operation with
      | .unlink path => ∀ entry ∈ memory.state.entries.get? operation.logicalId,
          relative path = some entry.relativePath
      | .download relativePath destination => relative destination = some relativePath ∧
          OwnPlace memory.state.entries operation.logicalId relativePath
      | _ => True
    | _ => True
  | _ => True

instance (env : Env π) (relative : π → Option String) (m : Machine π) :
    DecidablePred (InPlace env relative m)
  | .examine => by
    unfold InPlace
    generalize m.process = process
    exact match process with
      | .pulling memory (operation :: _) .. => by
        dsimp only
        generalize plan env m.folder memory.state operation = planned
        exact match planned with
          | .unlink path =>
            have : Decidable (∀ entry ∈ memory.state.entries.get? operation.logicalId,
              relative path = some entry.relativePath) := Option.decidableForallMem ..
            this
          | .download relativePath destination => inferInstanceAs (Decidable (_ ∧ _))
          | .passed | .untracked | .ignored | .conflict _ => isTrue trivial
      | .pulling _ [] .. | .stopped | .ready _ | .asked .. | .unlinking .. | .downloading .. | .pulled _
      | .pushing .. | .answered .. | .acknowledged _ => isTrue trivial
  | .load .. | .readRoot _ | .readPage .. | .unlink | .deliver _ | .finishPull | .save | .skipPush
  | .readPushRoot .. | .answerPush _ | .acknowledge | .stop | .edit .. => isTrue trivial

/-- The labels of a pull, once the state is loaded. -/
def Label.pulls : Label π → Bool
  | .readRoot _ | .readPage _ _ | .examine | .unlink | .deliver _ | .finishPull => true
  | .load _ _ | .save | .skipPush | .readPushRoot _ _ _ | .answerPush _ | .acknowledge | .stop
  | .edit _ _ => false

variable {env : Env π} {relative : π → Option String}

/-- The path is clean in the state that the pull has. -/
def Machine.CleanAt (env : Env π) (relative : π → Option String) (name : String) (m : Machine π) :
    Prop :=
  match m.process with
  | .ready memory | .asked memory _ | .pulling memory _ _ _ | .pulled memory =>
    Clean memory.state.entries name (fileAt env relative m.folder name)
  | .downloading memory operation relativePath destination _ _ _ =>
    Clean memory.state.entries name (fileAt env relative m.folder name) ∧
      relative destination = some relativePath ∧
        OwnPlace memory.state.entries operation.logicalId relativePath
  | .unlinking memory operation path _ _ _ =>
    Clean memory.state.entries name (fileAt env relative m.folder name) ∧
      ∃ entry, memory.state.entries.get? operation.logicalId = some entry ∧
        relative path = some entry.relativePath
  | .stopped | .pushing _ _ _ _ | .answered _ _ _ _ | .acknowledged _ => True

theorem deliver_clean (canonical : Canonical env relative) {folder : Folder π}
    {entries : Dict UUID Entry} {name relativePath : String} {logicalId : UUID} {destination : π}
    {entry : Entry} {file : LocalFile}
    (clean : Clean entries name (fileAt env relative folder name))
    (named : relative destination = some relativePath)
    (own : OwnPlace entries logicalId relativePath) (path : entry.relativePath = relativePath)
    (recorded : entry.matches file) :
    Clean (entries.set logicalId entry) name
      (fileAt env relative (folder.set destination file) name) := by
  unfold OwnPlace at own
  by_cases here : name = relativePath
  · subst here
    rw [fileAt_set_self canonical named]
    refine .record path recorded fun other found different held same => ?_
    split at own
    · rename_i before tracked
      cases listed : fileAt env relative folder name with
      | none =>
        rw [listed] at clean
        exact clean logicalId before tracked own
      | some content =>
        rw [listed] at clean
        obtain ⟨id, _, _, _, _, only⟩ := clean
        exact different ((only other found held same).trans (only logicalId before tracked own).symm)
    · exact own _ (Dict.get?_mem held) same
  · rw [fileAt_congr named here fun other apart => Dict.get?_set_other _ _ apart]
    refine clean.set (fun same => here (same.symm.trans path)) fun before tracked same => ?_
    rw [tracked] at own
    exact here (same.symm.trans own)

theorem unlink_clean (canonical : Canonical env relative) {folder : Folder π}
    {entries : Dict UUID Entry} {name : String} {logicalId : UUID} {path : π} {entry : Entry}
    (clean : Clean entries name (fileAt env relative folder name))
    (tracked : entries.get? logicalId = some entry) (named : relative path = some entry.relativePath) :
    Clean (entries.pop logicalId) name (fileAt env relative (folder.pop path) name) := by
  by_cases here : name = entry.relativePath
  · subst here
    rw [fileAt_pop_self canonical named]
    intro other found kept path
    by_cases same : other = logicalId
    · rw [same, Dict.get?_pop_self] at kept
      contradiction
    rw [Dict.get?_pop_other _ same] at kept
    cases listed : fileAt env relative folder entry.relativePath with
    | none =>
      rw [listed] at clean
      exact clean logicalId entry tracked rfl
    | some content =>
      rw [listed] at clean
      obtain ⟨id, _, _, _, _, only⟩ := clean
      exact same ((only other found kept path).trans (only logicalId entry tracked rfl).symm)
  · rw [fileAt_congr named here fun other apart => Dict.get?_pop_other _ apart]
    exact clean.pop tracked (Ne.symm here)

/-- What a pull does with the operation it examines. -/
theorem examine_clean {m : Machine π} {memory : Memory π}
    {operation : SyncOperation} {pending : List SyncOperation} {cursor : Nat}
    {conflicts : List UUID} {name : String}
    (process : m.process = .pulling memory (operation :: pending) cursor conflicts)
    (inPlace : InPlace env relative m .examine) (clean : m.CleanAt env relative name) :
    Machine.CleanAt env relative name
      { m with process := examine env m.folder memory operation pending cursor conflicts } := by
  simp only [InPlace, process] at inPlace
  simp only [Machine.CleanAt, process] at clean
  unfold examine
  dsimp only
  cases planned : plan env m.folder memory.state operation with
  | passed | untracked | ignored | conflict => exact clean
  | unlink path =>
    rw [planned] at inPlace
    obtain ⟨entry, tracked, _⟩ := plan_unlink planned
    exact ⟨clean, entry, tracked, inPlace entry tracked⟩
  | download relativePath destination =>
    rw [planned] at inPlace
    exact ⟨clean, inPlace⟩

/-- A pull leaves clean what was clean. -/
theorem pull_clean (canonical : Canonical env relative) {m m' : Machine π} {label : Label π}
    {name : String} (clean : m.CleanAt env relative name) (pulls : label.pulls = true)
    (inPlace : InPlace env relative m label) (stepped : step env m label = some m') :
    m'.CleanAt env relative name := by
  cases label with
  | readRoot cursor | readPage operations conflicts | finishPull =>
    simp only [step] at stepped
    split at stepped
    · rename_i same
      cases stepped
      simpa only [Machine.CleanAt, same, ClientState.finishPull] using clean
    · contradiction
  | examine =>
    simp only [step] at stepped
    split at stepped
    · rename_i same
      cases stepped
      exact examine_clean same inPlace clean
    · contradiction
  | unlink =>
    simp only [step] at stepped
    split at stepped
    · rename_i memory operation path pending cursor conflicts same
      cases stepped
      simp only [Machine.CleanAt, same] at clean
      obtain ⟨clean, entry, tracked, named⟩ := clean
      exact unlink_clean canonical clean tracked named
    · contradiction
  | deliver file =>
    simp only [step] at stepped
    split at stepped
    · rename_i memory operation relativePath destination pending cursor conflicts same
      cases stepped
      simp only [Machine.CleanAt, same] at clean
      exact deliver_clean canonical clean.1 clean.2.1 clean.2.2 rfl ⟨rfl, rfl⟩
    · contradiction
  | load | save | skipPush | readPushRoot | answerPush | acknowledge | stop | edit => contradiction

end Pull

end Drivebound.Desktop
