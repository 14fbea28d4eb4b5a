import Drivebound.Core.Keyset
import Drivebound.Timeline.Cursor
import Mathlib

/-! The timeline of `api/v1/assets.py`: `list_assets` page by page, while the catalogue may
change between the requests. -/
namespace Drivebound.Timeline
open Keyset

inductive LifecycleState where
  | active
  | superseded
  | trashed
  | purging
deriving DecidableEq

structure Asset where
  id : Uuid
  userId : Uuid
  takenAt : Option Timestamp
  createdAt : Timestamp
  lifecycleState : LifecycleState
deriving DecidableEq

/-- The assets by their primary key. -/
structure Catalogue where
  assets : List Asset
  keyed : (assets.map (·.id)).Nodup

/-- `coalesce(taken_at, created_at)` -/
def Asset.timelineAt (asset : Asset) : Timestamp := asset.takenAt.getD asset.createdAt

/-- What the timeline is ordered by. -/
abbrev Position := Lex (Timestamp × Uuid)

def Asset.position (asset : Asset) : Position := toLex (asset.timelineAt, asset.id)

def Catalogue.active (catalogue : Catalogue) (userId : Uuid) : List Asset :=
  catalogue.assets.filter fun asset => asset.userId = userId ∧ asset.lifecycleState = .active

/-- `Query(ge=1, le=200)` -/
abbrev Limit := { limit : Nat // 1 ≤ limit ∧ limit ≤ 200 }

/-- The condition of a cursor; the driver sends its timestamp in UTC. -/
def TimelineCursor.allows (cursor : TimelineCursor) (asset : Asset) : Bool :=
  cursor.timelineAt.instant.any fun timelineAt =>
    asset.timelineAt < timelineAt ∨ asset.timelineAt = timelineAt ∧ asset.id < cursor.assetId

def timelineStatement (catalogue : Catalogue) (userId : Uuid) (limit : Nat) (cursor : Option TimelineCursor) :
    List Asset :=
  let statement := (catalogue.active userId).filter fun asset => cursor.all fun cursor => cursor.allows asset
  (statement.insertionSort fun a b => b.position ≤ a.position).take (limit + 1)

structure TimelineAssetResponse where
  id : Uuid
  takenAt : Option Timestamp
  timelineAt : Timestamp
  day : Calendar.Date
deriving DecidableEq

def timelineItem (asset : Asset) : TimelineAssetResponse where
  id := asset.id
  takenAt := asset.takenAt
  timelineAt := asset.timelineAt
  day := Calendar.dateOf (asset.timelineAt.val / dayLength)

structure TimelineResponse where
  items : List TimelineAssetResponse
  nextCursor : Option String
  hasMore : Bool
deriving DecidableEq

/-- The cursor behind an asset, which `encode_cursor` may fail to spell. -/
def cursorBehind (last : Asset) : Except Fault (Option String) :=
  match encodeCursor ⟨⟨last.timelineAt, some Offset.utc⟩, last.id⟩ with
  | some text => .ok (some text)
  | none => .error .uncaught

def listAssets (catalogue : Catalogue) (userId : Uuid) (limit : Limit) (cursor : Option String) :
    Except Fault TimelineResponse := do
  let decodedCursor ← cursor.mapM decodeCursor
  let assets := timelineStatement catalogue userId limit decodedCursor
  let hasMore := decide (limit < assets.length)
  let page := assets.take limit
  let nextCursor ← match hasMore, page.getLast? with
    | true, some last => cursorBehind last
    | _, _ => .ok none
  return ⟨page.map timelineItem, nextCursor, hasMore⟩

/-- A client that follows the cursors while there is more; each of its requests finds the
catalogue as it is by then. -/
def follow (userId : Uuid) (limit : Limit) : List Catalogue → Option String → Except Fault (List TimelineResponse)
  | [], _ => .ok []
  | catalogue :: later, cursor => do
    let page ← listAssets catalogue userId limit cursor
    if page.hasMore then do
      let pages ← follow userId limit later page.nextCursor
      return page :: pages
    else return [page]

/-! ### The timeline is a keyset -/

/-- What a page of assets is answered with. -/
def response (page : List Asset × Bool) : TimelineResponse where
  items := page.1.map timelineItem
  nextCursor := if page.2 then page.1.getLast?.map fun last => spellCursor last.timelineAt last.id else none
  hasMore := page.2

def cursorAt (position : Position) : String := spellCursor (ofLex position).1 (ofLex position).2

theorem active_keyed (catalogue : Catalogue) (userId : Uuid) :
    ((catalogue.active userId).map Asset.position).Nodup := by
  have ids : ((catalogue.active userId).map (·.id)).Nodup :=
    catalogue.keyed.sublist (List.filter_sublist.map _)
  have shown : (catalogue.active userId).map (·.id) =
      ((catalogue.active userId).map Asset.position).map fun position => (ofLex position).2 := by
    rw [List.map_map]
    rfl
  rw [shown] at ids
  exact ids.of_map _

theorem allows_iff {position : Position} {asset : Asset} :
    (TimelineCursor.mk ⟨(ofLex position).1, some Offset.utc⟩ (ofLex position).2).allows asset = true ↔
      asset.position < position := by
  rw [TimelineCursor.allows, instant_utc, Option.any_some, decide_eq_true_eq]
  exact (Prod.Lex.toLex_lt_toLex (x := (asset.timelineAt, asset.id)) (y := ofLex position)).symm

theorem timelineStatement_eq (catalogue : Catalogue) (userId : Uuid) (limit : Nat) (cursor : Option Position) :
    timelineStatement catalogue userId limit
        (cursor.map fun position => ⟨⟨(ofLex position).1, some Offset.utc⟩, (ofLex position).2⟩) =
      (ahead Asset.position (catalogue.active userId) cursor).take (limit + 1) := by
  have chosen : ((catalogue.active userId).filter fun asset =>
      (cursor.map fun position => (⟨⟨(ofLex position).1, some Offset.utc⟩, (ofLex position).2⟩ : TimelineCursor)).all
        fun cursor => cursor.allows asset) =
      (catalogue.active userId).filter (isBelow Asset.position cursor) := by
    apply List.filter_congr
    intro asset _
    cases cursor with
    | none => rfl
    | some position =>
      rw [Option.map_some, Option.all_some, isBelow, Option.all_some, Bool.eq_iff_iff, allows_iff, decide_eq_true_eq]
  rw [timelineStatement, chosen, ahead]

theorem decode_cursorAt (cursor : Option Position) :
    (cursor.map cursorAt).mapM decodeCursor =
      .ok (cursor.map fun position => ⟨⟨(ofLex position).1, some Offset.utc⟩, (ofLex position).2⟩) := by
  cases cursor with
  | none => rfl
  | some position =>
    have decoded := decodeCursor_spellCursor (ofLex position).1 (ofLex position).2
    rw [Option.map_some, Option.mapM_some, cursorAt, decoded]
    rfl

theorem cursorBehind_eq (last : Asset) :
    cursorBehind last = .ok (some (spellCursor last.timelineAt last.id)) := by
  rw [cursorBehind, encodeCursor, instant_utc, Option.map_some]

theorem listAssets_eq (catalogue : Catalogue) (userId : Uuid) (limit : Limit) (cursor : Option Position) :
    listAssets catalogue userId limit (cursor.map cursorAt) =
      .ok (response ((ahead Asset.position (catalogue.active userId) cursor).take limit,
        decide (limit < (ahead Asset.position (catalogue.active userId) cursor).length))) := by
  let left := ahead Asset.position (catalogue.active userId) cursor
  have more : decide (limit.val < (left.take (limit + 1)).length) = decide (limit.val < left.length) := by
    rw [decide_eq_decide, List.length_take]
    omega
  have page : (left.take (limit + 1)).take limit.val = left.take limit := by
    rw [List.take_take, Nat.min_eq_left (Nat.le_succ _)]
  rw [listAssets, decode_cursorAt]
  dsimp only [bind, Except.bind]
  rw [timelineStatement_eq, more, page]
  cases follows : decide (limit.val < left.length) with
  | false => rfl
  | true =>
    obtain ⟨last, ends, -⟩ := getLast?_take limit.2.1 (of_decide_eq_true follows)
    rw [ends]
    dsimp only
    rw [cursorBehind_eq]
    dsimp only
    rw [response, if_pos rfl, ends]
    rfl

/-- The requests of a client are a walk along the active assets. -/
theorem follow_eq (userId : Uuid) (limit : Limit) (catalogues : List Catalogue) (cursor : Option Position) :
    follow userId limit catalogues (cursor.map cursorAt) =
      .ok ((walk Asset.position limit (catalogues.map (·.active userId)) cursor).map response) := by
  induction catalogues generalizing cursor with
  | nil => rfl
  | cons catalogue later ih =>
    rw [follow, listAssets_eq, List.map_cons, walk]
    dsimp only [bind, Except.bind]
    by_cases more : limit.val < (ahead Asset.position (catalogue.active userId) cursor).length
    · obtain ⟨last, ends, -⟩ := getLast?_take limit.2.1 more
      have behind : (response ((ahead Asset.position (catalogue.active userId) cursor).take limit, true)).nextCursor =
          (some last.position).map cursorAt := by
        rw [response, if_pos rfl, ends]
        rfl
      have shown : (response ((ahead Asset.position (catalogue.active userId) cursor).take limit, true)).hasMore =
          true := rfl
      rw [if_pos more, decide_eq_true more, shown, if_pos rfl, behind, ih (some last.position), ends]
      rfl
    · have shown : (response ((ahead Asset.position (catalogue.active userId) cursor).take limit, false)).hasMore =
          false := rfl
      rw [if_neg more, decide_eq_false more, shown, if_neg Bool.false_ne_true]
      rfl

/-! ### Every active asset is listed once -/

def listed (pages : List TimelineResponse) : List TimelineAssetResponse := pages.flatMap (·.items)

def TimelineAssetResponse.position (item : TimelineAssetResponse) : Position := toLex (item.timelineAt, item.id)

/-- The last answer has no more behind it. -/
def Exhausted (pages : List TimelineResponse) : Prop := ∃ page, pages.getLast? = some page ∧ page.hasMore = false

def Descending (pages : List TimelineResponse) : Prop :=
  (listed pages).Pairwise fun item later => later.position < item.position

/-- Wherever the asset is in the catalogue, its timestamp is the same. -/
def PlaceKept (catalogues : List Catalogue) (asset : Asset) : Prop :=
  ∀ catalogue ∈ catalogues, ∀ row ∈ catalogue.assets, row.id = asset.id → row.timelineAt = asset.timelineAt

/-- What changes is which assets there are, and their states. -/
def PlacesKept (catalogues : List Catalogue) : Prop :=
  ∀ catalogue ∈ catalogues, ∀ asset ∈ catalogue.assets, PlaceKept catalogues asset

instance (catalogues : List Catalogue) (asset : Asset) : Decidable (PlaceKept catalogues asset) :=
  inferInstanceAs (Decidable (∀ catalogue ∈ catalogues, ∀ row ∈ catalogue.assets, _ → _))

instance (catalogues : List Catalogue) : Decidable (PlacesKept catalogues) :=
  inferInstanceAs (Decidable (∀ catalogue ∈ catalogues, ∀ asset ∈ catalogue.assets, PlaceKept catalogues asset))

theorem listed_response (pages : List (List Asset × Bool)) :
    listed (pages.map response) = (items pages).map timelineItem := by
  rw [listed, items, List.flatMap_map, List.map_flatMap]
  rfl

theorem descending_response {pages : List (List Asset × Bool)} :
    Descending (pages.map response) ↔ (items pages).Pairwise fun a b => b.position < a.position := by
  rw [Descending, listed_response, List.pairwise_map]
  rfl

theorem exhausted_response {pages : List (List Asset × Bool)} : Exhausted (pages.map response) ↔ Finished pages := by
  constructor
  · rintro ⟨page, ends, done⟩
    rw [List.getLast?_map, Option.map_eq_some_iff] at ends
    obtain ⟨⟨items, more⟩, ends, rfl⟩ := ends
    exact ⟨items, ends.trans (congrArg some (Prod.ext rfl done))⟩
  · rintro ⟨items, ends⟩
    exact ⟨response (items, false), by rw [List.getLast?_map, ends, Option.map_some], rfl⟩

/-- How often an asset is listed. -/
def timesListed (pages : List TimelineResponse) (id : Uuid) : Nat := ((listed pages).map (·.id)).count id

section Runs
variable (userId : Uuid) (limit : Limit)

theorem active_changes (catalogues : List Catalogue) :
    ∀ rows ∈ catalogues.map (·.active userId), (rows.map Asset.position).Nodup := by
  intro rows member
  obtain ⟨catalogue, -, rfl⟩ := List.mem_map.mp member
  exact active_keyed catalogue userId

/-- Every item listed is an active asset of one of the catalogues. -/
theorem mem_walk (changes : List (List Asset)) (cursor : Option Position) :
    ∀ asset ∈ items (walk Asset.position limit changes cursor), ∃ rows ∈ changes, asset ∈ rows := by
  induction changes generalizing cursor with
  | nil => exact fun asset absent => absurd absent List.not_mem_nil
  | cons rows later ih =>
    have here : ∀ asset ∈ (ahead Asset.position rows cursor).take limit, asset ∈ rows :=
      fun asset member => (mem_ahead.mp (List.mem_of_mem_take member)).1
    rw [walk]
    intro asset member
    split at member
    · rw [items, List.flatMap_cons, List.mem_append] at member
      rcases member with first | after
      · exact ⟨rows, List.mem_cons_self, here asset first⟩
      · obtain ⟨others, among, row⟩ := ih _ asset after
        exact ⟨others, List.mem_cons_of_mem _ among, row⟩
    · rw [items, List.flatMap_cons, List.flatMap_nil, List.append_nil] at member
      exact ⟨rows, List.mem_cons_self, here asset member⟩

/-- Where an asset keeps its place, its identifier is listed at that place only. -/
theorem position_of_id {catalogues : List Catalogue} {asset item : Asset} (kept : PlaceKept catalogues asset)
    {cursor : Option Position}
    (member : item ∈ items (walk Asset.position limit (catalogues.map (·.active userId)) cursor))
    (same : item.id = asset.id) : item.position = asset.position := by
  obtain ⟨rows, among, row⟩ := mem_walk limit _ cursor item member
  obtain ⟨catalogue, at_, rfl⟩ := List.mem_map.mp among
  have place := kept catalogue at_ item (List.mem_of_mem_filter row) same
  rw [Asset.position, Asset.position, place, same]

theorem follow_complete (catalogue : Catalogue) :
    ∃ pages, (∀ requests, (catalogue.active userId).length < requests →
        follow userId limit (List.replicate requests catalogue) none = .ok pages) ∧
      Exhausted pages ∧ Descending pages ∧
      ((listed pages).map (·.id)).Perm ((catalogue.active userId).map (·.id)) := by
  have keyed := active_keyed catalogue userId
  obtain ⟨pages, reached, shown, finished⟩ := walk_complete keyed limit.2.1 none
  have everything : (catalogue.active userId).filter (isBelow Asset.position none) = catalogue.active userId :=
    List.filter_eq_self.mpr fun asset _ => rfl
  have whole : (ahead Asset.position (catalogue.active userId) none).Perm
      ((catalogue.active userId).filter (isBelow Asset.position none)) := ahead_perm _ none
  rw [everything] at whole
  refine ⟨pages.map response, fun requests enough => ?_, exhausted_response.mpr finished, ?_, ?_⟩
  · have walked := follow_eq userId limit (List.replicate requests catalogue) none
    rw [List.map_replicate, reached requests (whole.length_eq.trans_lt enough)] at walked
    exact walked
  · rw [descending_response, shown]
    exact ahead_descending keyed none
  · rw [listed_response, shown, List.map_map]
    exact whole.map _

theorem follow_changing (catalogues : List Catalogue) :
    ∃ pages, follow userId limit catalogues none = .ok pages ∧ Descending pages ∧
      (PlacesKept catalogues → ((listed pages).map (·.id)).Nodup) ∧
      (Exhausted pages → ∀ passed < pages.length, ∀ asset : Asset, PlaceKept catalogues asset →
        (∀ catalogue ∈ catalogues.drop passed, ∃ row ∈ catalogue.active userId, row.id = asset.id) →
        (∀ item ∈ listed (pages.take passed), asset.position < item.position) →
        timesListed pages asset.id = 1) := by
  have keyed := active_changes userId catalogues
  have ordered := (walk_descending limit.2.1 _ keyed none).1
  refine ⟨_, follow_eq userId limit catalogues none, descending_response.mpr ordered, fun kept => ?_,
    fun finished passed requested asset kept stays waits => ?_⟩
  · rw [listed_response, List.map_map, List.Nodup, List.pairwise_map]
    refine ordered.imp_of_mem fun {item later} member among less same => ?_
    obtain ⟨rows, first, row⟩ := mem_walk limit _ none later among
    obtain ⟨catalogue, at_, rfl⟩ := List.mem_map.mp first
    have place := position_of_id userId limit (kept catalogue at_ later (List.mem_of_mem_filter row)) member same
    exact ne_of_gt less place
  · rw [List.length_map] at requested
    have once := walk_once limit.2.1 _ keyed (exhausted_response.mp finished) requested (k := asset.position)
      (fun rows member => by
        rw [← List.map_drop] at member
        obtain ⟨catalogue, among, rfl⟩ := List.mem_map.mp member
        obtain ⟨row, active, id⟩ := stays catalogue among
        have place := kept catalogue (List.mem_of_mem_drop among) row (List.mem_of_mem_filter active) id
        exact List.mem_map.mpr ⟨row, active, by rw [Asset.position, Asset.position, id, place]⟩)
      (fun item member => by
        apply waits (timelineItem item)
        rw [← List.map_take, listed_response]
        exact List.mem_map_of_mem member)
    -- the identifier is listed as often as the place
    rw [timesListed, listed_response, List.map_map]
    refine Eq.trans ?_ once
    rw [List.count_eq_countP, List.countP_map, List.count_eq_countP, List.countP_map]
    apply List.countP_congr
    intro item member
    simp only [Function.comp_apply, beq_iff_eq]
    exact ⟨position_of_id userId limit kept member, fun same => congrArg (fun position => (ofLex position).2) same⟩

end Runs

/-- Following the cursors of the timeline lists every active asset of a catalogue that stays
exactly once and in strictly descending order. While the catalogue changes nothing is listed
twice, and an asset that stays ahead of the cursor is listed exactly once. A cursor is decoded to
the instant and the asset that it was encoded from. -/
theorem timeline_lists_each_active_asset_once (userId : Uuid) (limit : Limit) :
    (∀ catalogue : Catalogue, ∃ pages,
      (∀ requests, (catalogue.active userId).length < requests →
        follow userId limit (List.replicate requests catalogue) none = .ok pages) ∧
      Exhausted pages ∧ Descending pages ∧
      ((listed pages).map (·.id)).Perm ((catalogue.active userId).map (·.id))) ∧
    (∀ catalogues : List Catalogue, ∃ pages, follow userId limit catalogues none = .ok pages ∧ Descending pages ∧
      (PlacesKept catalogues → ((listed pages).map (·.id)).Nodup) ∧
      (Exhausted pages → ∀ passed < pages.length, ∀ asset : Asset, PlaceKept catalogues asset →
        (∀ catalogue ∈ catalogues.drop passed, ∃ row ∈ catalogue.active userId, row.id = asset.id) →
        (∀ item ∈ listed (pages.take passed), asset.position < item.position) →
        timesListed pages asset.id = 1)) ∧
    (∀ cursor : TimelineCursor, cursor.timelineAt.instant.isSome → ∃ text t, encodeCursor cursor = some text ∧
      cursor.timelineAt.instant = some t ∧ decodeCursor text = .ok ⟨⟨t, some Offset.utc⟩, cursor.assetId⟩) := by
  refine ⟨follow_complete userId limit, follow_changing userId limit, fun cursor instant => ?_⟩
  obtain ⟨t, at_⟩ := Option.isSome_iff_exists.mp instant
  refine ⟨spellCursor t cursor.assetId, t, ?_, at_, decodeCursor_spellCursor t cursor.assetId⟩
  rw [encodeCursor, at_, Option.map_some]

namespace Sample

def uuid (digit : Fin 16) : Uuid := ⟨List.replicate 32 digit, List.length_replicate⟩

def photo (digit : Fin 16) (takenAt : Option Timestamp) (state : LifecycleState) : Asset :=
  ⟨uuid digit, uuid 0, takenAt, ⟨5, by decide +kernel⟩, state⟩

/-- One asset. -/
def before : Catalogue := ⟨[photo 1 none .active], by decide +kernel⟩

/-- One more asset of the same moment, and the trashed first one. -/
def after : Catalogue := ⟨[photo 1 none .trashed, photo 2 (some ⟨5, by decide +kernel⟩) .active], by decide +kernel⟩

/-- Four hours behind UTC. -/
def west : Offset := ⟨-14400000000, by decide⟩

def noon : Datetime := ⟨⟨43200000000, by decide +kernel⟩, some west⟩

end Sample

open Sample in
theorem timeline_lists_assets_that_change :
    (∃ pages, follow (uuid 0) ⟨1, by decide⟩ [before, after] none = .ok pages ∧ Descending pages ∧
      ((listed pages).map (·.id)).Nodup) ∧
    ∃ text t, encodeCursor ⟨noon, uuid 3⟩ = some text ∧ noon.instant = some t ∧
      decodeCursor text = .ok ⟨⟨t, some Offset.utc⟩, uuid 3⟩ := by
  obtain ⟨-, changing, decoded⟩ := timeline_lists_each_active_asset_once (uuid 0) ⟨1, by decide⟩
  obtain ⟨pages, followed, descending, once, -⟩ := changing [before, after]
  exact ⟨⟨pages, followed, descending, once (by decide +kernel)⟩, decoded ⟨noon, uuid 3⟩ (by decide +kernel)⟩

end Drivebound.Timeline
