import Drivebound.Desktop.Batches

/-! What a client tracks once the server has applied all that it has pushed. The scan is walked
file by file: a file takes the item of its path, or one that has its content and is still without a
file. -/
namespace Drivebound.Desktop.Tracking
open Sync

variable {π : Type}

/-- What an entry says of a file: its path and its fingerprint. -/
abbrev Item := String × Fingerprint

def itemOf (entry : Entry) : Item := (entry.relativePath, entry.fingerprint)

def items (entries : Dict UUID Entry) : Dict UUID Item := entries.map fun tracked => (tracked.1, itemOf tracked.2)

def shot (env : Env π) (file : LocalFile) : Fingerprint := file.fingerprint (some (env.sha256 file.content))

/-- The server has answered the operations in their order, each as applied. -/
abbrev AppliedInOrder (operations : List SyncOperationInput) (answers : List SyncOperation) : Prop :=
  List.Forall₂ (fun operation answer => answer.operationId = operation.operationId ∧ answer.status = .applied)
    operations answers

/-- The entries are those of the files, each path has one identifier, and a file that is where it
was with the content that it had has kept its own. -/
structure Tracks (env : Env π) (files : Dict String LocalFile) (before after : ClientState) : Prop where
  shown : ∀ id entry, after.entries.get? id = some entry →
    ∃ file, files.get? entry.relativePath = some file ∧ entry.fingerprint = shot env file
  tracked : ∀ path file, files.get? path = some file →
    ∃ id entry, after.entries.get? id = some entry ∧ entry.relativePath = path
  single : ∀ id other entry entry', after.entries.get? id = some entry → after.entries.get? other = some entry' →
    entry.relativePath = entry'.relativePath → id = other
  kept : ∀ path file, files.get? path = some file → ∀ tracked ∈ before.byPath.get? path,
    tracked.2.fingerprint.checksum = some (env.sha256 file.content) →
    ∃ entry, after.entries.get? tracked.1 = some entry ∧ entry.relativePath = path

/-! ### The walk -/

/-- An item that a file with this content can take. -/
def hasContent (env : Env π) (file : LocalFile) (tracked : UUID × Entry) : Bool :=
  tracked.2.fingerprint.checksum = some (env.sha256 file.content)

/-- When the walk comes to a file, the item of its path is still there for it, with the content of
the file where it looks unchanged; or the file has other content, and takes the item of that. -/
def Minds (env : Env π) (state : ClientState) (unmatched : Dict UUID Entry) (path : String) (file : LocalFile) :
    Prop :=
  ∀ tracked ∈ state.byPath.get? path,
    if tracked.2.matches file then
      (unmatched.get? tracked.1).isSome ∧ tracked.2.fingerprint.checksum = some (env.sha256 file.content)
    else
      match unmatched.find? (hasContent env file) with
      | some other => tracked.2.fingerprint.checksum = some (env.sha256 file.content) → other.1 = tracked.1
      | none => (unmatched.get? tracked.1).isSome

def Calm (env : Env π) (state : ClientState) : Dict UUID Entry → Dict String LocalFile → Prop
  | _, [] => True
  | unmatched, (path, file) :: rest =>
    Minds env state unmatched path file ∧ Calm env state (compareFile env state unmatched path file).1 rest

/-- What a turn of the loop does to the items without a file, and to the entries as they will be. -/
inductive Turn (env : Env π) (state : ClientState) (path : String) (file : LocalFile) (unmatched : Dict UUID Entry)
    (shown : Dict UUID Item) : Dict UUID Entry → Dict UUID Item → Prop
  | settled {id : UUID} {entry : Entry} (direct : state.byPath.get? path = some (id, entry))
      (same : entry.matches file) : Turn env state path file unmatched shown (unmatched.pop id) shown
  | move {id : UUID} {entry : Entry} (changed : ∀ tracked ∈ state.byPath.get? path, ¬tracked.2.matches file)
      (taken : unmatched.find? (hasContent env file) = some (id, entry)) :
      Turn env state path file unmatched shown (unmatched.pop id) (shown.set id (path, shot env file))
  | upsert {id : UUID} {entry : Entry} (direct : state.byPath.get? path = some (id, entry))
      (changed : ¬entry.matches file) (free : unmatched.find? (hasContent env file) = none) :
      Turn env state path file unmatched shown (unmatched.pop id) (shown.set id (path, shot env file))
  | create {id : UUID} (direct : state.byPath.get? path = none)
      (free : unmatched.find? (hasContent env file) = none) (new : shown.get? id = none)
      (unknown : unmatched.get? id = none) :
      Turn env state path file unmatched shown unmatched (shown.set id (path, shot env file))

inductive Walk (env : Env π) (state : ClientState) :
    Dict UUID Entry → Dict UUID Item → Dict String LocalFile → Dict UUID Entry → Dict UUID Item → Prop
  | nil (unmatched : Dict UUID Entry) (shown : Dict UUID Item) : Walk env state unmatched shown [] unmatched shown
  | cons {path : String} {file : LocalFile} {rest : Dict String LocalFile} {unmatched middle last : Dict UUID Entry}
      {shown shown' shown'' : Dict UUID Item} (turn : Turn env state path file unmatched shown middle shown')
      (walk : Walk env state middle shown' rest last shown'') :
      Walk env state unmatched shown ((path, file) :: rest) last shown''

/-- What holds of every walk: an item without a file is shown as it was. -/
structure Open (state : ClientState) (unmatched : Dict UUID Entry) (shown : Dict UUID Item) : Prop where
  keyed : (unmatched.map Prod.fst).Nodup
  known : ∀ id entry, unmatched.get? id = some entry → (id, entry) ∈ state.entries
  original : ∀ id entry, unmatched.get? id = some entry → shown.get? id = some (itemOf entry)
  present : ∀ tracked ∈ state.entries, (shown.get? tracked.1).isSome

/-- The files behind the walk have their items, and no other file has one of these. -/
structure Settled (env : Env π) (state : ClientState) (done : Dict String LocalFile) (unmatched : Dict UUID Entry)
    (shown : Dict UUID Item) : Prop where
  placed : ∀ id item, shown.get? id = some item → unmatched.get? id = none →
    ∃ file, (item.1, file) ∈ done ∧ item.2 = shot env file
  covered : ∀ entry ∈ done, ∃ id item, shown.get? id = some item ∧ unmatched.get? id = none ∧ item.1 = entry.1
  single : ∀ id other item item', shown.get? id = some item → unmatched.get? id = none →
    shown.get? other = some item' → unmatched.get? other = none → item.1 = item'.1 → id = other
  kept : ∀ entry ∈ done, ∀ tracked ∈ state.byPath.get? entry.1,
    tracked.2.fingerprint.checksum = some (env.sha256 entry.2.content) →
    unmatched.get? tracked.1 = none ∧ ∃ item, shown.get? tracked.1 = some item ∧ item.1 = entry.1

section Turns
variable {env : Env π} {state : ClientState} {path : String} {file : LocalFile}
  {unmatched unmatched' : Dict UUID Entry} {shown shown' : Dict UUID Item} {done : Dict String LocalFile}

theorem byPath_path {tracked : UUID × Entry} (found : state.byPath.get? path = some tracked) :
    tracked ∈ state.entries ∧ tracked.2.relativePath = path := by
  refine ⟨ClientState.byPath_found found, ?_⟩
  have collects : ∀ (entries : Dict UUID Entry) (known : Dict String (UUID × Entry)),
      (∀ name tracked, known.get? name = some tracked → tracked.2.relativePath = name) →
      ∀ name tracked, (entries.foldl (fun found entry => found.set entry.2.relativePath entry) known).get? name =
        some tracked → tracked.2.relativePath = name := by
    intro entries
    induction entries with
    | nil => exact fun _ holds => holds
    | cons entry rest ih =>
      intro known holds
      refine ih _ fun name tracked found => ?_
      by_cases same : name = entry.2.relativePath
      · subst same
        rw [Dict.get?_set_self] at found
        cases found
        rfl
      · rw [Dict.get?_set_other _ _ same] at found
        exact holds name tracked found
  exact collects state.entries [] (fun name tracked none_ => nomatch none_) path tracked found

theorem Turn.unmatched_eq (turn : Turn env state path file unmatched shown unmatched' shown') :
    unmatched' = (compareFile env state unmatched path file).1 := by
  unfold compareFile
  cases turn with
  | settled direct same => simp [direct, same]
  | move changed taken =>
    have unsettled : (state.byPath.get? path).any (fun tracked => tracked.2.matches file) = false := by
      cases direct : state.byPath.get? path with
      | none => rfl
      | some tracked => exact decide_eq_false (changed tracked direct)
    simp only [unsettled, Bool.false_eq_true, if_false]
    unfold hasContent at taken
    rw [taken]
  | upsert direct changed free =>
    unfold hasContent at free
    simp [direct, changed, free]
  | create direct free =>
    unfold hasContent at free
    simp [direct, free]

/-- The identifier that a turn puts to the path. -/
structure Places (env : Env π) (path : String) (file : LocalFile) (unmatched : Dict UUID Entry)
    (shown : Dict UUID Item) (unmatched' : Dict UUID Entry) (shown' : Dict UUID Item) (id : UUID) : Prop where
  here : shown'.get? id = some (path, shot env file)
  gone : unmatched'.get? id = none
  others : ∀ other, other ≠ id → shown'.get? other = shown.get? other ∧ unmatched'.get? other = unmatched.get? other

theorem places_pop (id : UUID) :
    Places env path file unmatched shown (unmatched.pop id) (shown.set id (path, shot env file)) id where
  here := Dict.get?_set_self _ _ _
  gone := Dict.get?_pop_self _ _
  others _ different := ⟨Dict.get?_set_other _ _ different, Dict.get?_pop_other _ different⟩

theorem find?_get? {id : UUID} {entry : Entry} (keyed : (unmatched.map Prod.fst).Nodup)
    (taken : unmatched.find? (hasContent env file) = some (id, entry)) : unmatched.get? id = some entry :=
  Dict.get?_of_mem keyed (List.mem_of_find?_eq_some taken)

/-- Where a turn does no harm it puts an identifier to the path that no other path has. -/
theorem Turn.places (turn : Turn env state path file unmatched shown unmatched' shown')
    (opens : Open state unmatched shown) (keyed : (state.entries.map Prod.fst).Nodup)
    (minds : Minds env state unmatched path file) :
    ∃ id, Places env path file unmatched shown unmatched' shown' id ∧
      ((unmatched.get? id).isSome ∨ shown.get? id = none) ∧
      ∀ tracked ∈ state.byPath.get? path, tracked.2.fingerprint.checksum = some (env.sha256 file.content) →
        id = tracked.1 := by
  cases turn with
  | @settled id entry direct same =>
    have mind := minds _ direct
    rw [if_pos same] at mind
    obtain ⟨there, content⟩ := mind
    obtain ⟨entry', found⟩ := Option.isSome_iff_exists.mp there
    obtain ⟨member, named⟩ := byPath_path direct
    have own : entry' = entry := congrArg Prod.snd
      (List.inj_on_of_nodup_map keyed (opens.known id entry' found) member rfl)
    have item : itemOf entry = (path, shot env file) := by
      have print : entry.fingerprint = shot env file := by
        obtain ⟨size, time⟩ := same
        generalize entry.fingerprint = print at size time content
        cases print
        cases size
        cases time
        cases content
        rfl
      rw [itemOf, print, named]
    refine ⟨id, ⟨?_, Dict.get?_pop_self _ _, fun other different => ⟨rfl, Dict.get?_pop_other _ different⟩⟩,
      .inl there, fun tracked among _ => ?_⟩
    · rw [opens.original id entry' found, own, item]
    · cases direct.symm.trans among
      rfl
  | @move id entry changed taken =>
    refine ⟨id, places_pop id, .inl (by rw [find?_get? opens.keyed taken]; rfl), fun tracked among content => ?_⟩
    have mind := minds tracked among
    rw [if_neg (changed tracked among), taken] at mind
    exact mind content
  | @upsert id entry direct changed free =>
    refine ⟨id, places_pop id, .inl ?_, fun tracked among _ => ?_⟩
    · have mind := minds _ direct
      rw [if_neg changed, free] at mind
      exact mind
    · cases direct.symm.trans among
      rfl
  | @create id direct free new unknown =>
    refine ⟨id, ⟨Dict.get?_set_self _ _ _, unknown, fun other different => ⟨Dict.get?_set_other _ _ different, rfl⟩⟩,
      .inr new, fun tracked among => ?_⟩
    cases direct.symm.trans among

theorem Turn.opens (turn : Turn env state path file unmatched shown unmatched' shown')
    (opens : Open state unmatched shown) : Open state unmatched' shown' := by
  have pops : ∀ id item, Open state (unmatched.pop id) (shown.set id item) := by
    intro id item
    have other : ∀ {key entry}, (unmatched.pop id).get? key = some entry → key ≠ id := by
      rintro key entry found rfl
      rw [Dict.get?_pop_self] at found
      cases found
    refine ⟨Dict.nodup_pop opens.keyed id, fun key entry found => ?_, fun key entry found => ?_, fun tracked member => ?_⟩
    · rw [Dict.get?_pop_other _ (other found)] at found
      exact opens.known key entry found
    · rw [Dict.get?_set_other _ _ (other found)]
      rw [Dict.get?_pop_other _ (other found)] at found
      exact opens.original key entry found
    · by_cases same : tracked.1 = id
      · rw [same, Dict.get?_set_self]
        rfl
      · rw [Dict.get?_set_other _ _ same]
        exact opens.present tracked member
  cases turn with
  | @settled id entry direct same =>
    refine ⟨Dict.nodup_pop opens.keyed id, fun key entry found => ?_, fun key entry found => ?_, opens.present⟩
    all_goals
      have other : key ≠ id := by
        rintro rfl
        rw [Dict.get?_pop_self] at found
        cases found
      rw [Dict.get?_pop_other _ other] at found
    · exact opens.known key entry found
    · exact opens.original key entry found
  | @move id entry changed taken => exact pops id _
  | @upsert id entry direct changed free => exact pops id _
  | @create id direct free new unknown =>
    have other : ∀ {key}, (∃ entry, unmatched.get? key = some entry) → key ≠ id := by
      rintro key ⟨entry, found⟩ rfl
      rw [unknown] at found
      cases found
    refine ⟨opens.keyed, opens.known, fun key entry found => ?_, fun tracked member => ?_⟩
    · rw [Dict.get?_set_other _ _ (other ⟨entry, found⟩)]
      exact opens.original key entry found
    · by_cases same : tracked.1 = id
      · rw [same, Dict.get?_set_self]
        rfl
      · rw [Dict.get?_set_other _ _ same]
        exact opens.present tracked member

/-- One more file has its item. -/
theorem Settled.step {id : UUID} (settled : Settled env state done unmatched shown)
    (places : Places env path file unmatched shown unmatched' shown' id)
    (free : (unmatched.get? id).isSome ∨ shown.get? id = none) (new : ∀ entry ∈ done, entry.1 ≠ path)
    (own : ∀ tracked ∈ state.byPath.get? path, tracked.2.fingerprint.checksum = some (env.sha256 file.content) →
      id = tracked.1) : Settled env state (done ++ [(path, file)]) unmatched' shown' := by
  -- An identifier that was at a path is not the new one.
  have apart : ∀ {other item}, shown.get? other = some item → unmatched.get? other = none → other ≠ id := by
    rintro other item there gone rfl
    rcases free with waits | absent
    · rw [gone] at waits
      cases waits
    · rw [absent] at there
      cases there
  have before : ∀ {other item}, other ≠ id → shown'.get? other = some item → unmatched'.get? other = none →
      shown.get? other = some item ∧ unmatched.get? other = none := by
    intro other item different there gone
    obtain ⟨shows, waits⟩ := places.others other different
    exact ⟨shows ▸ there, waits ▸ gone⟩
  refine ⟨fun other item there gone => ?_, fun entry member => ?_, fun one other item item' there gone there' gone' same => ?_,
    fun entry member tracked among content => ?_⟩
  · by_cases here : other = id
    · subst here
      cases places.here.symm.trans there
      exact ⟨file, List.mem_append_right done List.mem_cons_self, rfl⟩
    · obtain ⟨shows, waits⟩ := before here there gone
      obtain ⟨file, member, print⟩ := settled.placed other item shows waits
      exact ⟨file, List.mem_append_left _ member, print⟩
  · rcases List.mem_append.mp member with early | late
    · obtain ⟨other, item, there, gone, named⟩ := settled.covered entry early
      obtain ⟨shows, waits⟩ := places.others other (apart there gone)
      exact ⟨other, item, shows.trans there, waits.trans gone, named⟩
    · rw [List.mem_singleton.mp late]
      exact ⟨id, _, places.here, places.gone, rfl⟩
  · by_cases first : one = id
    · by_cases second : other = id
      · exact first.trans second.symm
      · subst first
        obtain ⟨shows, waits⟩ := before second there' gone'
        obtain ⟨file', member, -⟩ := settled.placed other item' shows waits
        cases places.here.symm.trans there
        exact absurd same.symm (new _ member)
    · obtain ⟨shows, waits⟩ := before first there gone
      by_cases second : other = id
      · subst second
        obtain ⟨file', member, -⟩ := settled.placed one item shows waits
        cases places.here.symm.trans there'
        exact absurd same (new _ member)
      · obtain ⟨shows', waits'⟩ := before second there' gone'
        exact settled.single one other item item' shows waits shows' waits' same
  · rcases List.mem_append.mp member with early | late
    · obtain ⟨gone, item, there, named⟩ := settled.kept entry early tracked among content
      obtain ⟨shows, waits⟩ := places.others tracked.1 (apart there gone)
      exact ⟨waits.trans gone, item, shows.trans there, named⟩
    · cases List.mem_singleton.mp late
      cases own tracked among content
      exact ⟨places.gone, _, places.here, rfl⟩

end Turns

/-! ### What the rest of a walk leaves -/

section Rest
variable {env : Env π} {state after : ClientState} {path : String} {rest : Dict String LocalFile}
  {unmatched unmatched' last : Dict UUID Entry} {shown shown' ended : Dict UUID Item} {id : UUID}

/-- The identifier is not at the path, or it will not be. -/
def Lost (unmatched : Dict UUID Entry) (shown : Dict UUID Item) (path : String) (id : UUID) : Prop :=
  unmatched.get? id ≠ none ∨ ∀ item, shown.get? id = some item → item.1 ≠ path

theorem Turn.lost {name : String} {file : LocalFile}
    (turn : Turn env state name file unmatched shown unmatched' shown') (opens : Open state unmatched shown)
    (keyed : (state.entries.map Prod.fst).Nodup) (other : name ≠ path) (lost : Lost unmatched shown path id) :
    Lost unmatched' shown' path id := by
  have put : ∀ {key item}, (shown.set key (name, shot env file)).get? key = some item → item.1 ≠ path := by
    intro key item there
    rw [Dict.get?_set_self] at there
    cases there
    exact other
  cases turn with
  | @settled key entry direct same =>
    by_cases here : id = key
    · subst here
      refine .inr fun item there => ?_
      cases found : unmatched.get? id with
      | none => exact lost.resolve_left (fun some_ => some_ found) item there
      | some entry' =>
        obtain ⟨member, named⟩ := byPath_path direct
        have own : entry' = entry := congrArg Prod.snd
          (List.inj_on_of_nodup_map keyed (opens.known id entry' found) member rfl)
        cases (opens.original id entry' found).symm.trans there
        rw [own]
        exact fun same => other (named.symm.trans same)
    · rw [Lost, Dict.get?_pop_other _ here]
      exact lost
  | @move key entry changed taken =>
    by_cases here : id = key
    · subst here
      exact .inr fun item => put
    · rw [Lost, Dict.get?_pop_other _ here, Dict.get?_set_other _ _ here]
      exact lost
  | @upsert key entry direct changed free =>
    by_cases here : id = key
    · subst here
      exact .inr fun item => put
    · rw [Lost, Dict.get?_pop_other _ here, Dict.get?_set_other _ _ here]
      exact lost
  | @create key direct free new unknown =>
    by_cases here : id = key
    · subst here
      exact .inr fun item => put
    · rw [Lost, Dict.get?_set_other _ _ here]
      exact lost

/-- An item that was given to its own path stays there. -/
theorem Turn.stays {name : String} {file : LocalFile} {entry : Entry} {item : Item}
    (turn : Turn env state name file unmatched shown unmatched' shown') (keyed : (state.entries.map Prod.fst).Nodup)
    (other : name ≠ path) (opens : Open state unmatched shown) (direct : state.byPath.get? path = some (id, entry))
    (gone : unmatched.get? id = none) (there : shown.get? id = some item) :
    unmatched'.get? id = none ∧ shown'.get? id = some item := by
  have popped : ∀ key, (unmatched.pop key).get? id = none := by
    intro key
    by_cases here : id = key
    · rw [here, Dict.get?_pop_self]
    · rw [Dict.get?_pop_other _ here, gone]
  cases turn with
  | settled => exact ⟨popped _, there⟩
  | @move key entry' changed taken =>
    have apart : id ≠ key := by
      rintro rfl
      rw [find?_get? opens.keyed taken] at gone
      cases gone
    rw [Dict.get?_set_other _ _ apart]
    exact ⟨popped _, there⟩
  | @upsert key entry' direct' changed free =>
    have apart : id ≠ key := by
      rintro rfl
      obtain ⟨member, named⟩ := byPath_path direct
      obtain ⟨member', named'⟩ := byPath_path direct'
      have own : entry' = entry := congrArg Prod.snd (List.inj_on_of_nodup_map keyed member' member rfl)
      rw [own] at named'
      exact other (named'.symm.trans named)
    rw [Dict.get?_set_other _ _ apart]
    exact ⟨popped _, there⟩
  | @create key direct' free new unknown =>
    have apart : id ≠ key := by
      rintro rfl
      rw [new] at there
      cases there
    rw [Dict.get?_set_other _ _ apart]
    exact ⟨gone, there⟩

theorem Walk.lost (walk : Walk env state unmatched shown rest last ended) (opens : Open state unmatched shown)
    (keyed : (state.entries.map Prod.fst).Nodup) (others : ∀ entry ∈ rest, entry.1 ≠ path)
    (lost : Lost unmatched shown path id) : Lost last ended path id := by
  induction walk with
  | nil => exact lost
  | cons turn _ ih =>
    rw [List.forall_mem_cons] at others
    exact ih (turn.opens opens) others.2 (turn.lost opens keyed others.1 lost)

theorem Walk.stays {entry : Entry} {item : Item} (walk : Walk env state unmatched shown rest last ended)
    (opens : Open state unmatched shown) (keyed : (state.entries.map Prod.fst).Nodup)
    (others : ∀ entry ∈ rest, entry.1 ≠ path) (direct : state.byPath.get? path = some (id, entry))
    (gone : unmatched.get? id = none) (there : shown.get? id = some item) :
    last.get? id = none ∧ ended.get? id = some item := by
  induction walk with
  | nil => exact ⟨gone, there⟩
  | cons turn _ ih =>
    rw [List.forall_mem_cons] at others
    obtain ⟨gone', there'⟩ := turn.stays keyed others.1 opens direct gone there
    exact ih (turn.opens opens) others.2 gone' there'

/-- What the client has after the walk: items that are still without a file are deleted. -/
def Ends (after : ClientState) (last : Dict UUID Entry) (ended : Dict UUID Item) : Prop :=
  ∀ id, (after.entries.get? id).map itemOf = if (last.get? id).isSome then none else ended.get? id

theorem Ends.item (ends : Ends after last ended) {entry : Entry} (found : after.entries.get? id = some entry) :
    last.get? id = none ∧ ended.get? id = some (itemOf entry) := by
  have here := ends id
  rw [found, Option.map_some] at here
  split at here
  · cases here
  · next absent => exact ⟨Option.not_isSome_iff_eq_none.mp absent, here.symm⟩

theorem Ends.entry (ends : Ends after last ended) {item : Item} (gone : last.get? id = none)
    (there : ended.get? id = some item) : ∃ entry, after.entries.get? id = some entry ∧ itemOf entry = item := by
  have here := ends id
  rw [gone, there] at here
  exact Option.map_eq_some_iff.mp here

/-- What was lost to a path is not at the path in the end. -/
theorem Walk.lost_ended (walk : Walk env state unmatched shown rest last ended) (ends : Ends after last ended)
    (opens : Open state unmatched shown) (keyed : (state.entries.map Prod.fst).Nodup)
    (others : ∀ entry ∈ rest, entry.1 ≠ path) (lost : Lost unmatched shown path id) :
    ∀ entry, after.entries.get? id = some entry → entry.relativePath ≠ path := by
  intro entry found
  obtain ⟨gone, there⟩ := ends.item found
  rcases walk.lost opens keyed others lost with waits | elsewhere
  · exact absurd gone waits
  · exact elsewhere _ there

/-- A turn that minds nothing spoils what is tracked, whatever comes after it. -/
theorem Turn.spoils {file : LocalFile} {done : Dict String LocalFile}
    (turn : Turn env state path file unmatched shown unmatched' shown')
    (walk : Walk env state unmatched' shown' rest last ended) (ends : Ends after last ended)
    (opens : Open state unmatched shown) (settled : Settled env state done unmatched shown)
    (keyed : (state.entries.map Prod.fst).Nodup) (distinct : ((done ++ (path, file) :: rest).map Prod.fst).Nodup)
    (careless : ¬Minds env state unmatched path file) : ¬Tracks env (done ++ (path, file) :: rest) state after := by
  intro tracks
  have here : (done ++ (path, file) :: rest).get? path = some file :=
    Dict.get?_of_mem distinct (List.mem_append_right done List.mem_cons_self)
  have parts := distinct
  rw [List.map_append, List.map_cons, List.nodup_append] at parts
  obtain ⟨-, later, before⟩ := parts
  obtain ⟨fresh, -⟩ := List.nodup_cons.mp later
  have behind : ∀ entry ∈ rest, entry.1 ≠ path := fun entry member same =>
    fresh (List.mem_map.mpr ⟨entry, member, same⟩)
  have earlier : ∀ {name file}, (name, file) ∈ done → name ≠ path ∧ ∀ entry ∈ rest, entry.1 ≠ name := by
    intro name file member
    have apart := before name (List.mem_map_of_mem member)
    exact ⟨apart path List.mem_cons_self, fun entry among same =>
      apart entry.1 (List.mem_cons_of_mem _ (List.mem_map_of_mem among)) same.symm⟩
  have placed : ∀ {key item}, shown.get? key = some item → unmatched.get? key = none → item.1 ≠ path := by
    intro key item there gone
    obtain ⟨file', member, -⟩ := settled.placed key item there gone
    exact (earlier member).1
  have opened := turn.opens opens
  cases turn with
  | @settled id entry direct same =>
    by_cases waits : (unmatched.get? id).isSome = true
    · -- The size and the time are the recorded ones, and the content is not.
      obtain ⟨entry', found⟩ := Option.isSome_iff_exists.mp waits
      obtain ⟨member, named⟩ := byPath_path direct
      have own : entry' = entry := congrArg Prod.snd
        (List.inj_on_of_nodup_map keyed (opens.known id entry' found) member rfl)
      have there := opens.original id entry' found
      obtain ⟨gone, stays⟩ := walk.stays opened keyed behind direct (Dict.get?_pop_self _ _) there
      obtain ⟨left, foundAfter, item⟩ := ends.entry gone stays
      obtain ⟨file', at_, print⟩ := tracks.shown id left foundAfter
      rw [own] at item
      have pathEq : left.relativePath = path := (congrArg Prod.fst item).trans named
      have printEq : left.fingerprint = entry.fingerprint := congrArg Prod.snd item
      rw [pathEq, here] at at_
      cases at_
      refine careless fun tracked among => ?_
      cases direct.symm.trans among
      rw [if_pos same]
      refine ⟨waits, ?_⟩
      rw [← printEq, print]
      rfl
    · -- Another file has taken the item.
      have gone := Option.not_isSome_iff_eq_none.mp waits
      have lost : ∀ key, Lost (unmatched.pop id) shown path key := by
        intro key
        by_cases waiting : (unmatched.pop id).get? key = none
        · refine .inr fun item there => placed there ?_
          by_cases same : key = id
          · rw [same, gone]
          · rwa [Dict.get?_pop_other _ same] at waiting
        · exact .inl waiting
      obtain ⟨key, found, inside, named⟩ := tracks.tracked path file here
      exact walk.lost_ended ends opened keyed behind (lost key) found inside named
  | @move id entry changed taken =>
    -- The file has its own content still, and takes another item of that content.
    refine careless fun tracked among => ?_
    rw [if_neg (changed tracked among), taken]
    intro content
    by_contra apart
    have lost : Lost (unmatched.pop id) (shown.set id (path, shot env file)) path tracked.1 := by
      have different : tracked.1 ≠ id := fun same => apart same.symm
      rw [Lost, Dict.get?_pop_other _ different, Dict.get?_set_other _ _ different]
      by_cases waiting : unmatched.get? tracked.1 = none
      · exact .inr fun item there => placed there waiting
      · exact .inl waiting
    obtain ⟨found, inside, named⟩ := tracks.kept path file here tracked among content
    exact walk.lost_ended ends opened keyed behind lost found inside named
  | @upsert id entry direct changed free =>
    refine careless fun tracked among => ?_
    cases direct.symm.trans among
    rw [if_neg changed, free]
    -- Where another file has taken the item, it loses it again.
    by_contra absent
    have gone : unmatched.get? id = none := Option.not_isSome_iff_eq_none.mp absent
    obtain ⟨item, there⟩ := Option.isSome_iff_exists.mp (opens.present _ (byPath_path direct).1)
    obtain ⟨file', member, -⟩ := settled.placed id item there gone
    obtain ⟨apart, others⟩ := earlier member
    have lost : ∀ key, Lost (unmatched.pop id) (shown.set id (path, shot env file)) item.1 key := by
      intro key
      by_cases same : key = id
      · refine .inr fun item' there' => ?_
        rw [same, Dict.get?_set_self] at there'
        cases there'
        exact fun named => apart named.symm
      · rw [Lost, Dict.get?_pop_other _ same, Dict.get?_set_other _ _ same]
        by_cases waiting : unmatched.get? key = none
        · exact .inr fun item' there' named => same (settled.single key id item' item there' waiting there gone named)
        · exact .inl waiting
    have inFiles : (done ++ (path, file) :: rest).get? item.1 = some file' :=
      Dict.get?_of_mem distinct (List.mem_append_left _ member)
    obtain ⟨key, found, inside, named⟩ := tracks.tracked item.1 file' inFiles
    exact walk.lost_ended ends opened keyed others (lost key) found inside named
  | create direct =>
    refine careless fun tracked among => ?_
    cases direct.symm.trans among

/-- In the end of a walk the client tracks the files exactly when the walk was calm. -/
theorem Walk.tracks_iff {done : Dict String LocalFile} (walk : Walk env state unmatched shown rest last ended)
    (ends : Ends after last ended) (opens : Open state unmatched shown)
    (settled : Settled env state done unmatched shown) (keyed : (state.entries.map Prod.fst).Nodup)
    (distinct : ((done ++ rest).map Prod.fst).Nodup) :
    Tracks env (done ++ rest) state after ↔ Calm env state unmatched rest := by
  induction walk generalizing done with
  | nil unmatched shown =>
    rw [List.append_nil] at distinct ⊢
    refine ⟨fun _ => trivial, fun _ => ⟨fun id entry found => ?_, fun path file here => ?_,
      fun one other entry entry' found found' same => ?_, fun path file here tracked among content => ?_⟩⟩
    · obtain ⟨gone, there⟩ := ends.item found
      obtain ⟨file, member, print⟩ := settled.placed id _ there gone
      exact ⟨file, Dict.get?_of_mem distinct member, print⟩
    · obtain ⟨id, item, there, gone, named⟩ := settled.covered _ (Dict.get?_mem here)
      obtain ⟨entry, found, rfl⟩ := ends.entry gone there
      exact ⟨id, entry, found, named⟩
    · obtain ⟨gone, there⟩ := ends.item found
      obtain ⟨gone', there'⟩ := ends.item found'
      exact settled.single one other _ _ there gone there' gone' same
    · obtain ⟨gone, item, there, named⟩ := settled.kept _ (Dict.get?_mem here) tracked among content
      obtain ⟨entry, found, rfl⟩ := ends.entry gone there
      exact ⟨entry, found, named⟩
  | @cons path file rest unmatched middle last shown shown' ended turn walk ih =>
    by_cases minds : Minds env state unmatched path file
    · obtain ⟨id, places, free, own⟩ := turn.places opens keyed minds
      have new : ∀ entry ∈ done, entry.1 ≠ path := by
        intro entry member same
        rw [List.map_append, List.nodup_append] at distinct
        exact distinct.2.2 entry.1 (List.mem_map_of_mem member) path List.mem_cons_self same
      have whole : done ++ (path, file) :: rest = (done ++ [(path, file)]) ++ rest := by
        rw [List.append_assoc]
        rfl
      rw [whole] at distinct ⊢
      rw [ih ends (turn.opens opens) (settled.step places free new own) distinct, Calm, ← turn.unmatched_eq]
      exact (and_iff_right minds).symm
    · refine iff_of_false (turn.spoils walk ends opens settled keyed distinct minds) fun calm => ?_
      exact minds calm.1

end Rest

/-! ### The walk of `local_changes` -/

section Recording
variable {env : Env π} {state : ClientState} {draw : Nat → Draw} {path : String} {file : LocalFile}
  {changes after : Changes} {shown : Dict UUID Item}

theorem get?_items (entries : Dict UUID Entry) (id : UUID) : (items entries).get? id = (entries.get? id).map itemOf := by
  induction entries with
  | nil => rfl
  | cons tracked rest ih =>
    simp only [items, List.map_cons, Dict.get?] at ih ⊢
    split
    · rfl
    · exact ih

theorem items_set (entries : Dict UUID Entry) (id : UUID) (entry : Entry) :
    items (entries.set id entry) = (items entries).set id (itemOf entry) := by
  induction entries with
  | nil => rfl
  | cons tracked rest ih =>
    simp only [items, List.map_cons, Dict.set] at ih ⊢
    split
    · rfl
    · rw [List.map_cons, ih]

theorem items_pop (entries : Dict UUID Entry) (id : UUID) : items (entries.pop id) = (items entries).pop id := by
  induction entries with
  | nil => rfl
  | cons tracked rest ih =>
    simp only [items, List.map_cons, Dict.pop] at ih ⊢
    split
    · exact ih
    · rw [List.map_cons, ih]

/-- What a proposal makes of the items once it is applied. -/
def shownBy (shown : Dict UUID Item) : Option Proposal → Dict UUID Item
  | none => shown
  | some (.delete id) => shown.pop id
  | some (.move id entry) | some (.upsert id entry) => shown.set id (itemOf entry)

def showAll (proposed : Dict UUID Proposal) (operations : List SyncOperationInput) (shown : Dict UUID Item) :
    Dict UUID Item :=
  operations.foldl (fun shown operation => shownBy shown (proposed.get? operation.operationId)) shown

theorem acknowledgeOne_items {proposed : Dict UUID Proposal} {operation : SyncOperation}
    (applied : operation.status = .applied) (state : ClientState) :
    items (acknowledgeOne proposed state operation).entries =
      shownBy (items state.entries) (proposed.get? operation.operationId) := by
  unfold acknowledgeOne
  cases proposed.get? operation.operationId with
  | none => rfl
  | some proposal =>
    simp only [applied, ne_eq, not_true, if_false]
    cases proposal with
    | delete id => exact items_pop _ id
    | move id entry => exact items_set _ id _
    | upsert id entry => exact items_set _ id _

/-- The entries of a client whose operations were all applied. -/
theorem applyPushResult_items {operations : List SyncOperationInput} {proposed : Dict UUID Proposal}
    {result : PushResult} (applied : AppliedInOrder operations result.operations) (state : ClientState) :
    items (applyPushResult state operations proposed result).entries =
      showAll proposed operations (items state.entries) := by
  have each : ∀ {operations : List SyncOperationInput} {answers : List SyncOperation},
      AppliedInOrder operations answers → ∀ state : ClientState,
        items (answers.foldl (acknowledgeOne proposed) state).entries =
          showAll proposed operations (items state.entries) := by
    intro operations answers applied
    induction applied with
    | nil => exact fun _ => rfl
    | cons answered _ ih =>
      intro state
      rw [List.foldl_cons, ih, acknowledgeOne_items answered.2, answered.1]
      rfl
  exact each applied state

/-- What the operations so far show of the items, once they are applied. -/
structure Records (state : ClientState) (draw : Nat → Draw) (changes : Changes) (shown : Dict UUID Item) : Prop where
  drawn : ∀ operation ∈ changes.operations, ∃ number < changes.sequence,
    operation.operationId = (draw number).operationId
  shows : showAll changes.proposed changes.operations (items state.entries) = shown
  keys : ∀ id item, shown.get? id = some item →
    (∃ entry, (id, entry) ∈ state.entries) ∨ ∃ number < changes.sequence, id = (draw number).logicalId
  unmatched : ∀ tracked ∈ changes.unmatched, tracked ∈ state.entries

theorem showAll_set {proposed : Dict UUID Proposal} {operations : List SyncOperationInput} {id : UUID}
    (others : ∀ operation ∈ operations, operation.operationId ≠ id) (proposal : Proposal) (shown : Dict UUID Item) :
    showAll (proposed.set id proposal) operations shown = showAll proposed operations shown := by
  induction operations generalizing shown with
  | nil => rfl
  | cons operation rest ih =>
    rw [List.forall_mem_cons] at others
    simp only [showAll, List.foldl_cons, Dict.get?_set_other _ _ others.1] at ih ⊢
    exact ih others.2 _

/-- An operation that is put behind the others. -/
theorem Records.add (records : Records state draw changes shown) (fresh : Fresh state.entries draw)
    {operation : SyncOperationInput} {proposal : Proposal} {unmatched : Dict UUID Entry} {shown' : Dict UUID Item}
    (drawn : operation.operationId = (draw changes.sequence).operationId) (shows : shownBy shown (some proposal) = shown')
    (keys : ∀ id item, shown'.get? id = some item →
      (∃ item, shown.get? id = some item) ∨ (∃ entry, (id, entry) ∈ state.entries) ∨
        id = (draw changes.sequence).logicalId)
    (kept : ∀ tracked ∈ unmatched, tracked ∈ changes.unmatched) :
    Records state draw ({ changes with unmatched := unmatched }.add operation proposal) shown' where
  drawn other member := by
    rcases List.mem_append.mp member with before | new
    · obtain ⟨number, less, same⟩ := records.drawn other before
      exact ⟨number, Nat.lt_succ_of_lt less, same⟩
    · rw [List.mem_singleton.mp new]
      exact ⟨changes.sequence, Nat.lt_succ_self _, drawn⟩
  shows := by
    have others : ∀ other ∈ changes.operations, other.operationId ≠ operation.operationId := by
      intro other member same
      obtain ⟨number, less, named⟩ := records.drawn other member
      exact Nat.ne_of_lt less (fresh.operations (named.symm.trans (same.trans drawn)))
    have before : showAll (changes.proposed.set operation.operationId proposal) changes.operations
        (items state.entries) = shown := (showAll_set others proposal _).trans records.shows
    simp only [Changes.add, showAll, List.foldl_append, List.foldl_cons, List.foldl_nil, Dict.get?_set_self] at before ⊢
    rw [before, shows]
  keys id item found := by
    rcases keys id item found with ⟨item', there⟩ | known | new
    · rcases records.keys id item' there with known | ⟨number, less, same⟩
      · exact .inl known
      · exact .inr ⟨number, Nat.lt_succ_of_lt less, same⟩
    · exact .inl known
    · exact .inr ⟨changes.sequence, Nat.lt_succ_self _, new⟩
  unmatched tracked among := records.unmatched tracked (kept tracked among)

/-- An item that is put to a path. -/
theorem Records.put (records : Records state draw changes shown) (fresh : Fresh state.entries draw)
    {operation : SyncOperationInput} {proposal : Proposal} {id : UUID} {item : Item}
    (drawn : operation.operationId = (draw changes.sequence).operationId)
    (shows : shownBy shown (some proposal) = shown.set id item)
    (origin : (∃ entry, (id, entry) ∈ state.entries) ∨ id = (draw changes.sequence).logicalId) :
    Records state draw ({ changes with unmatched := changes.unmatched.pop id }.add operation proposal)
      (shown.set id item) := by
  refine records.add fresh drawn shows (fun other item found => ?_) fun tracked among => Dict.mem_pop among
  by_cases same : other = id
  · exact .inr (same ▸ origin)
  · rw [Dict.get?_set_other _ _ same] at found
    exact .inl ⟨item, found⟩

/-- A turn of the loop over the files. -/
theorem changeFile_turn (records : Records state draw changes shown) (fresh : Fresh state.entries draw)
    (changed : changeFile env state draw changes path file = some after) :
    ∃ shown', Turn env state path file changes.unmatched shown after.unmatched shown' ∧
      Records state draw after shown' := by
  unfold changeFile at changed
  dsimp only at changed
  by_cases same : (state.byPath.get? path).any (fun tracked => tracked.2.matches file) = true
  · rw [if_pos same] at changed
    cases changed
    refine ⟨shown, ?_⟩
    cases direct : state.byPath.get? path with
    | none =>
      rw [direct] at same
      cases same
    | some tracked =>
      rw [direct, Option.any_some, decide_eq_true_eq] at same
      exact ⟨.settled direct same, records.drawn, records.shows, records.keys,
        fun other among => records.unmatched other (Dict.mem_pop among)⟩
  · rw [if_neg same] at changed
    have differs : ∀ tracked ∈ state.byPath.get? path, ¬tracked.2.matches file := by
      intro tracked direct matches_
      rw [Option.mem_def.mp direct, Option.any_some, decide_eq_true_eq] at same
      exact same matches_
    cases moved : changes.unmatched.find? fun tracked =>
        tracked.2.fingerprint.checksum = some (env.sha256 file.content) with
    | some tracked =>
      rw [moved] at changed
      cases changed
      exact ⟨_, .move differs moved,
        records.put fresh rfl rfl (.inl ⟨tracked.2, records.unmatched _ (List.mem_of_find?_eq_some moved)⟩)⟩
    | none =>
      rw [moved] at changed
      dsimp only at changed
      cases drawn : (draw changes.sequence).assetId with
      | none =>
        rw [drawn] at changed
        cases changed
      | some assetId =>
        rw [drawn] at changed
        cases changed
        cases direct : state.byPath.get? path with
        | some tracked =>
          exact ⟨_, .upsert direct (differs tracked direct) moved,
            records.put fresh rfl rfl (.inl ⟨tracked.2, (byPath_path direct).1⟩)⟩
        | none =>
          have new : shown.get? (draw changes.sequence).logicalId = none := by
            rw [Option.eq_none_iff_forall_ne_some]
            intro item found
            rcases records.keys _ item found with ⟨entry, known⟩ | ⟨number, less, same⟩
            · exact fresh.new changes.sequence (List.mem_map_of_mem known)
            · exact Nat.ne_of_gt less (fresh.items same)
          have absent : ∀ tracked ∈ changes.unmatched, tracked.1 ≠ (draw changes.sequence).logicalId :=
            fun tracked among same => fresh.new changes.sequence
              (same ▸ List.mem_map_of_mem (records.unmatched tracked among))
          have unknown : changes.unmatched.get? (draw changes.sequence).logicalId = none := by
            rw [Option.eq_none_iff_forall_ne_some]
            exact fun entry found => absent _ (Dict.get?_mem found) rfl
          refine ⟨shown.set (draw changes.sequence).logicalId (path, shot env file), ?_,
            records.put fresh rfl rfl (.inr rfl)⟩
          have kept := Dict.pop_of_absent absent
          exact kept.symm ▸ .create direct moved new unknown

theorem changeFiles_walk {files : Dict String LocalFile} (records : Records state draw changes shown)
    (fresh : Fresh state.entries draw) (changed : changeFiles env state draw changes files = some after) :
    ∃ ended, Walk env state changes.unmatched shown files after.unmatched ended ∧ Records state draw after ended := by
  induction files generalizing changes shown with
  | nil =>
    cases changed
    exact ⟨shown, .nil _ _, records⟩
  | cons entry rest ih =>
    obtain ⟨path, file⟩ := entry
    obtain ⟨middle, first, later⟩ := Option.bind_eq_some_iff.mp changed
    obtain ⟨shown', turn, between⟩ := changeFile_turn records fresh first
    obtain ⟨ended, walk, all⟩ := ih between later
    exact ⟨ended, .cons turn walk, all⟩

/-- Deletes take the items away that are without a file. -/
theorem deleteItems_records (unmatched : Dict UUID Entry) (records : Records state draw changes shown)
    (fresh : Fresh state.entries draw) :
    Records state draw (unmatched.foldl (deleteItem draw) changes)
      (unmatched.foldl (fun shown tracked => shown.pop tracked.1) shown) := by
  induction unmatched generalizing changes shown with
  | nil => exact records
  | cons tracked rest ih =>
    refine ih (records.add fresh rfl rfl (fun id item found => .inl ⟨item, ?_⟩) fun _ among => among)
    by_cases same : id = tracked.1
    · rw [same, Dict.get?_pop_self] at found
      cases found
    · rwa [Dict.get?_pop_other _ same] at found

theorem get?_foldl_pop (unmatched : Dict UUID Entry) (shown : Dict UUID Item) (id : UUID) :
    (unmatched.foldl (fun shown tracked => shown.pop tracked.1) shown).get? id =
      if (unmatched.get? id).isSome then none else shown.get? id := by
  induction unmatched generalizing shown with
  | nil => rfl
  | cons tracked rest ih =>
    obtain ⟨key, entry⟩ := tracked
    rw [List.foldl_cons, ih, Dict.get?]
    by_cases same : key = id
    · subst same
      simp
    · simp [same, Dict.get?_pop_other _ (Ne.symm same)]

/-- After a push that the server has applied wholly, the client tracks exactly what it has scanned,
under the identifiers of before, if and only if the comparison met no copy before its original. -/
theorem push_tracks_iff [DecidableEq π] {relative : π → Option String} {folder : Folder π} {order : List π}
    {operations : List SyncOperationInput} {proposed : Dict UUID Proposal} {result : PushResult}
    (keyed : (state.entries.map Prod.fst).Nodup) (fresh : Fresh state.entries draw)
    (computed : localChanges env state (scan relative folder order) draw = some (operations, proposed))
    (applied : AppliedInOrder operations result.operations) :
    Tracks env (scan relative folder order) state (applyPushResult state operations proposed result) ↔
      Calm env state state.entries (scan relative folder order) := by
  have distinct := scan_distinct relative folder order
  generalize scan relative folder order = files at computed distinct ⊢
  obtain ⟨changes, changed, same⟩ := Option.map_eq_some_iff.mp computed
  cases same
  have start : Records state draw ⟨state.entries, [], [], state.sequence⟩ (items state.entries) := by
    refine ⟨fun _ none_ => absurd none_ List.not_mem_nil, rfl, fun id item found => .inl ?_, fun _ among => among⟩
    rw [get?_items] at found
    obtain ⟨entry, there, -⟩ := Option.map_eq_some_iff.mp found
    exact ⟨entry, Dict.get?_mem there⟩
  obtain ⟨ended, walk, found⟩ := changeFiles_walk start fresh changed
  have all := deleteItems_records changes.unmatched found fresh
  have ends : Ends (applyPushResult state (changes.unmatched.foldl (deleteItem draw) changes).operations
      (changes.unmatched.foldl (deleteItem draw) changes).proposed result) changes.unmatched ended := by
    intro id
    rw [← get?_items, applyPushResult_items applied, all.shows, get?_foldl_pop]
  have opens : Open state state.entries (items state.entries) := by
    refine ⟨keyed, fun id entry found => Dict.get?_mem found, fun id entry found => ?_, fun tracked member => ?_⟩
    · rw [get?_items, found]
      rfl
    · rw [get?_items, Dict.get?_of_mem keyed member]
      rfl
  have absent : ∀ {id item}, (items state.entries).get? id = some item → state.entries.get? id ≠ none := by
    intro id item there gone
    rw [get?_items, gone] at there
    cases there
  have settled : Settled env state [] state.entries (items state.entries) :=
    ⟨fun id item there gone => absurd gone (absent there), fun entry none_ => absurd none_ List.not_mem_nil,
      fun id other item item' there gone => absurd gone (absent there), fun entry none_ => absurd none_ List.not_mem_nil⟩
  exact walk.tracks_iff ends opens settled keyed distinct

end Recording

/-! A file and its copy, which is in the folder since the last push. -/

/-- A digest that tells contents apart. -/
def twinEnv : Env String where
  resolve := id
  inside _ := true
  sha256 content := String.ofList (content.map fun byte => Char.ofNat byte.toNat)

def twinState : ClientState where
  clientId := "desk"
  rootId := none
  cursor := 1
  entries := [(7, { relativePath := "b.txt", revision := some "r", fingerprint := ⟨1, 10, some "X"⟩ })]
  conflicts := []
  recentOperations := []

def twinFolder : Folder String := [("a.txt", ⟨[88], 20⟩), ("b.txt", ⟨[88], 10⟩)]

def twinDraw (number : Nat) : Draw := ⟨100 + number, 200 + number, some (300 + number)⟩

/-- The server's answer where it has applied what it was sent. -/
def twinAnswer (operation : SyncOperationInput) : SyncOperation where
  id := operation.operationId
  rootId := 1
  cursor := operation.clientSequence
  clientId := "desk"
  clientSequence := operation.clientSequence
  operationId := operation.operationId
  kind := operation.kind
  logicalId := operation.logicalId
  baseRevision := operation.baseRevision
  revision := some "s"
  payload := { relativePath := operation.relativePath, assetId := operation.assetId }
  status := .applied

def twinResult (operations : List SyncOperationInput) : PushResult := ⟨2, operations.map twinAnswer, []⟩

theorem twinResult_applied (operations : List SyncOperationInput) :
    AppliedInOrder operations (twinResult operations).operations := by
  induction operations with
  | nil => exact .nil
  | cons operation rest ih => exact .cons ⟨rfl, rfl⟩ ih

theorem twinDraw_fresh : Fresh twinState.entries twinDraw where
  operations _ _ same := Nat.add_left_cancel same
  items _ _ same := Nat.add_left_cancel same
  new number among := by
    have same : 200 + number = 7 := List.mem_singleton.mp among
    omega

/-- The original is scanned first. -/
theorem push_tracks_original : ∃ operations proposed,
    localChanges twinEnv twinState (scan some twinFolder ["b.txt", "a.txt"]) twinDraw = some (operations, proposed) ∧
      Tracks twinEnv (scan some twinFolder ["b.txt", "a.txt"]) twinState
        (applyPushResult twinState operations proposed (twinResult operations)) := by
  obtain ⟨operations, proposed, computed⟩ : ∃ operations proposed,
      localChanges twinEnv twinState (scan some twinFolder ["b.txt", "a.txt"]) twinDraw =
        some (operations, proposed) := ⟨_, _, rfl⟩
  refine ⟨operations, proposed, computed, ?_⟩
  refine (push_tracks_iff (by decide) twinDraw_fresh computed (twinResult_applied operations)).mpr ?_
  refine ⟨fun tracked among => ?_, fun tracked among => ?_, trivial⟩
  · cases among
    rw [if_pos (by decide)]
    decide +kernel
  · cases among

/-- The copy is scanned first and takes the identifier; its original, which looks unchanged, is
left without one. -/
theorem copy_takes_identity : ∃ operations proposed,
    localChanges twinEnv twinState (scan some twinFolder ["a.txt", "b.txt"]) twinDraw = some (operations, proposed) ∧
      AppliedInOrder operations (twinResult operations).operations ∧
      ¬Tracks twinEnv (scan some twinFolder ["a.txt", "b.txt"]) twinState
        (applyPushResult twinState operations proposed (twinResult operations)) := by
  have moved : (localChanges twinEnv twinState (scan some twinFolder ["a.txt", "b.txt"]) twinDraw).any (fun push =>
      (applyPushResult twinState push.1 push.2 (twinResult push.1)).entries.all fun tracked =>
        tracked.2.relativePath = "a.txt") = true := by decide +kernel
  obtain ⟨⟨operations, proposed⟩, computed, only⟩ := (Option.any_eq_true _ _).mp moved
  refine ⟨operations, proposed, computed, twinResult_applied operations, fun tracks => ?_⟩
  obtain ⟨id, entry, found, named⟩ := tracks.tracked "b.txt" _ rfl
  have other := of_decide_eq_true (List.all_eq_true.mp only _ (Dict.get?_mem found))
  rw [named] at other
  exact absurd other (by decide)

end Drivebound.Desktop.Tracking
