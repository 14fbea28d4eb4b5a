import Drivebound.Core.Gather
import Drivebound.Core.Rows
import Drivebound.Grouping.Relations
import Mathlib

/-! The tables of media groups and `group_asset`: whether the groups of an account depend on the
order in which its assets are grouped, and on how often. -/
namespace Drivebound.Grouping
open Timeline

/-- The unique key of a group, which stands here for its random identifier. -/
structure GroupName where
  userId : Uuid
  kind : Kind
  groupKey : List Char
deriving DecidableEq

structure MediaGroup where
  name : GroupName
  confidence : ℚ
deriving DecidableEq

structure MediaGroupMember where
  group : GroupName
  assetId : Uuid
  role : Role
  similarity : Option ℚ
deriving DecidableEq

inductive DatabaseError where
  | uniqueViolation (constraint : String)
deriving DecidableEq

/-- The width of `group_key`. -/
def keyWidth : Nat := 255

structure Tables where
  groups : List MediaGroup
  members : List MediaGroupMember
  groupsKeyed : (groups.map (·.name)).Nodup
  membersKeyed : (members.map fun member => (member.group, member.assetId)).Nodup
  fits : ∀ group ∈ groups, group.name.groupKey.length ≤ keyWidth
deriving DecidableEq

def Use.name (use : Use) : GroupName := ⟨use.userId, use.kind, use.key⟩

/-- The name under which the group is inserted, its key cut off. -/
def Use.inserted (use : Use) : GroupName := ⟨use.userId, use.kind, use.key.take keyWidth⟩

def Use.memberRows (use : Use) (name : GroupName) : List MediaGroupMember :=
  use.members.map fun member => ⟨name, member.1, member.2.1, member.2.2⟩

namespace Tables

def empty : Tables := ⟨[], [], List.nodup_nil, List.nodup_nil, fun _ absent => absurd absent List.not_mem_nil⟩

/-- `session.add` of a group, and the flush behind it. -/
def addGroup (tables : Tables) (use : Use) : Except DatabaseError Tables :=
  if fresh : ∀ group ∈ tables.groups, group.name ≠ use.inserted then
    .ok {
      groups := tables.groups ++ [⟨use.inserted, use.confidence⟩]
      members := tables.members
      groupsKeyed := Rows.nodup_map_append tables.groupsKeyed fresh
      membersKeyed := tables.membersKeyed
      fits := fun group member => by
        rcases List.mem_append.mp member with before | new
        · exact tables.fits group before
        · rw [List.mem_singleton.mp new]
          exact List.length_take_le _ _ }
  else .error (.uniqueViolation "uq_media_groups_key")

/-- A member that is present is left as it is. -/
def addMember (tables : Tables) (member : MediaGroupMember) : Except DatabaseError Tables :=
  if fresh : ∀ other ∈ tables.members, (other.group, other.assetId) ≠ (member.group, member.assetId) then
    .ok {
      groups := tables.groups
      members := tables.members ++ [member]
      groupsKeyed := tables.groupsKeyed
      membersKeyed := Rows.nodup_map_append tables.membersKeyed fresh
      fits := tables.fits }
  else .ok tables

/-- The group is looked up by the whole key. -/
def ensureGroup (tables : Tables) (use : Use) : Except DatabaseError (Tables × GroupName) :=
  if ∃ group ∈ tables.groups, group.name = use.name then .ok (tables, use.name)
  else (tables.addGroup use).map fun tables => (tables, use.inserted)

/-- `_group` -/
def group (tables : Tables) (use : Use) : Except DatabaseError Tables :=
  match tables.ensureGroup use with
  | .error fault => .error fault
  | .ok (tables, name) => (use.memberRows name).foldlM addMember tables

end Tables

section Runs
variable (unicode : Unicode) (catalogue : List Asset)

def groupAsset (tables : Tables) (asset : Asset) : Except DatabaseError Tables :=
  (uses unicode catalogue asset).foldlM Tables.group tables

def groupAssets (tables : Tables) (order : List Asset) : Except DatabaseError Tables :=
  order.foldlM (groupAsset unicode catalogue) tables

end Runs

/-! ### What a call adds -/

abbrev Row := MediaGroup ⊕ MediaGroupMember

def Tables.rows (tables : Tables) : Set Row :=
  { row | row.elim (· ∈ tables.groups) (· ∈ tables.members) }

def Use.rows (use : Use) : Set Row :=
  { row | row.elim (· = ⟨use.name, use.confidence⟩) (· ∈ use.memberRows use.name) }

/-- Rows of one key are one row. -/
structure Coherent (rows : Set Row) : Prop where
  groups : ∀ group other, .inl group ∈ rows → .inl other ∈ rows → group.name = other.name → group = other
  members : ∀ member other, .inr member ∈ rows → .inr other ∈ rows → member.group = other.group →
    member.assetId = other.assetId → member = other

theorem Use.inserted_of_fits {use : Use} (fits : use.key.length ≤ keyWidth) : use.inserted = use.name := by
  rw [Use.inserted, List.take_of_length_le fits]
  rfl

namespace Tables

/-- One more row. -/
theorem addMember_gathers {rows : Set Row} (coherent : Coherent rows) :
    Gathers addMember (·.rows ⊆ rows) Tables.rows (fun member => {.inr member}) (fun member => .inr member ∈ rows) where
  gather tables member within allowed := by
    unfold addMember
    split
    · next fresh =>
      have shown : ∀ row : Row, row.elim (· ∈ tables.groups) (· ∈ tables.members ++ [member]) ↔
          row ∈ tables.rows ∪ {.inr member} := by
        rintro (group | other)
        · simp [Tables.rows]
        · simp [Tables.rows, or_comm]
      refine ⟨_, rfl, fun row among => ?_, Set.ext shown⟩
      rcases (shown row).mp among with before | rfl
      · exact within before
      · exact allowed
    · next present =>
      push Not at present
      obtain ⟨other, among, same⟩ := present
      obtain ⟨group, asset⟩ := Prod.mk.inj same
      have row : (.inr other : Row) ∈ tables.rows := among
      have equal := coherent.members other member (within row) allowed group asset
      refine ⟨tables, rfl, within, ?_⟩
      rw [← equal, Set.union_eq_left.mpr (Set.singleton_subset_iff.mpr row)]
  settled tables member within allowed known := by
    have row : (.inr member : Row) ∈ tables.rows := Set.singleton_subset_iff.mp known
    exact dif_neg fun fresh => fresh member row rfl

theorem ensureGroup_adds {rows : Set Row} (coherent : Coherent rows) {tables : Tables} {use : Use}
    (within : tables.rows ⊆ rows) (fits : use.key.length ≤ keyWidth) (allowed : use.rows ⊆ rows) :
    ∃ t, tables.ensureGroup use = .ok (t, use.name) ∧ t.rows = tables.rows ∪ {.inl ⟨use.name, use.confidence⟩} := by
  have own : (.inl ⟨use.name, use.confidence⟩ : Row) ∈ rows := allowed rfl
  unfold ensureGroup
  split
  · next present =>
    obtain ⟨group, among, same⟩ := present
    have row : (.inl group : Row) ∈ tables.rows := among
    have equal := coherent.groups group _ (within row) own same
    refine ⟨tables, rfl, ?_⟩
    rw [← equal, Set.union_eq_left.mpr (Set.singleton_subset_iff.mpr row)]
  · next absent =>
    unfold addGroup
    rw [dif_pos fun group among same => absent ⟨group, among, same.trans (Use.inserted_of_fits fits)⟩]
    refine ⟨_, congrArg (fun name => Except.ok (_, name)) (Use.inserted_of_fits fits), Set.ext ?_⟩
    rintro (group | member)
    · simp [Tables.rows, Use.inserted_of_fits fits, or_comm]
    · simp [Tables.rows]

/-- A call adds its group and its members. -/
theorem group_gathers {rows : Set Row} (coherent : Coherent rows) :
    Gathers group (·.rows ⊆ rows) Tables.rows Use.rows (fun use => use.key.length ≤ keyWidth ∧ use.rows ⊆ rows) where
  gather tables use within allowed := by
    obtain ⟨mid, ensured, added⟩ := ensureGroup_adds coherent within allowed.1 allowed.2
    have kept : mid.rows ⊆ rows := by
      rw [added]
      exact Set.union_subset within (Set.singleton_subset_iff.mpr (allowed.2 rfl))
    obtain ⟨t, ran, last, whole⟩ := (addMember_gathers coherent).run (use.memberRows use.name)
      (fun member among => allowed.2 among) kept
    refine ⟨t, ?_, last, ?_⟩
    · rw [group, ensured]
      exact ran
    · rw [whole, added, Set.union_assoc]
      congr 1
      apply Set.ext
      rintro (group | member)
      · simp [Use.rows]
      · simp [Use.rows]
  settled tables use within allowed known := by
    have row : (.inl ⟨use.name, use.confidence⟩ : Row) ∈ tables.rows := known rfl
    have present : ∃ group ∈ tables.groups, group.name = use.name := ⟨_, row, rfl⟩
    rw [group, ensureGroup, if_pos present]
    exact (addMember_gathers coherent).run_settled _ (fun member among => allowed.2 among) within
      fun member among => Set.singleton_subset_iff.mpr (known among)

end Tables

/-! ### The calls of an account agree -/

/-- The assets by their primary key. -/
structure Catalogue where
  assets : List Asset
  keyed : (assets.map (·.id)).Nodup

theorem Catalogue.eq_of_id (catalogue : Catalogue) {asset other : Asset} (member : asset ∈ catalogue.assets)
    (among : other ∈ catalogue.assets) (same : asset.id = other.id) : asset = other :=
  List.inj_on_of_nodup_map catalogue.keyed member among same

theorem hammingDistance_comm (first second : List (Fin 16)) :
    hammingDistance first second = hammingDistance second first := by
  have swapped : ((first.zip second).map fun pair => bitCount (pair.1.val ^^^ pair.2.val)) =
      (second.zip first).map fun pair => bitCount (pair.1.val ^^^ pair.2.val) := by
    induction first generalizing second with
    | nil => cases second <;> rfl
    | cons a rest ih =>
      cases second with
      | nil => rfl
      | cons b later =>
        rw [List.zip_cons_cons, List.zip_cons_cons, List.map_cons, List.map_cons, ih later, Nat.xor_comm]
  rw [hammingDistance, hammingDistance, swapped, Nat.max_comm]
  by_cases same : first.length = second.length
  · rw [if_neg (not_not.mpr same), if_neg (not_not.mpr same.symm)]
  · rw [if_pos same, if_pos (Ne.symm same)]

theorem length_str (id : Uuid) : id.str.toList.length = 36 := by
  have size : id.hex.length = 32 := (List.length_map _).trans id.length_eq
  rw [Uuid.str, String.toList_ofList, Uuid.groups]
  simp only [List.length_append, List.length_cons, List.length_take, List.length_drop, size]
  rfl

/-- The key of a pair tells the pair, but not which of it was grouped first. -/
theorem similarKey_inj {a b c d : Uuid} (same : similarKey a b = similarKey c d) :
    (a = c ∧ b = d) ∨ (a = d ∧ b = c) := by
  have least : ∀ x y : Uuid, (min x.str y.str).toList.length = 36 := by
    intro x y
    rcases min_choice x.str y.str with first | second
    · rw [first, length_str]
    · rw [second, length_str]
  unfold similarKey at same
  rw [List.append_assoc, List.append_assoc] at same
  obtain ⟨low, rest⟩ := List.append_inj (List.append_cancel_left same) ((least a b).trans (least c d).symm)
  have high := String.toList_inj.mp (List.cons.inj rest).2
  have lower := String.toList_inj.mp low
  rcases le_total a.str b.str with ab | ba
  · rcases le_total c.str d.str with cd | dc
    · rw [min_eq_left ab, min_eq_left cd] at lower
      rw [max_eq_right ab, max_eq_right cd] at high
      exact .inl ⟨Uuid.str_injective lower, Uuid.str_injective high⟩
    · rw [min_eq_left ab, min_eq_right dc] at lower
      rw [max_eq_right ab, max_eq_left dc] at high
      exact .inr ⟨Uuid.str_injective lower, Uuid.str_injective high⟩
  · rcases le_total c.str d.str with cd | dc
    · rw [min_eq_right ba, min_eq_left cd] at lower
      rw [max_eq_left ba, max_eq_right cd] at high
      exact .inr ⟨Uuid.str_injective high, Uuid.str_injective lower⟩
    · rw [min_eq_right ba, min_eq_right dc] at lower
      rw [max_eq_left ba, max_eq_left dc] at high
      exact .inl ⟨Uuid.str_injective high, Uuid.str_injective lower⟩

def confidenceBy : Kind → ℚ
  | .burst => 85 / 100
  | _ => 1

/-- The role of an asset, whoever is grouped with it. -/
def roleBy (unicode : Unicode) : Kind → Asset → Role
  | .rawJpeg, asset => if extension unicode asset ∈ RAW_EXTENSIONS then .raw else .render
  | .livePhoto, asset => if extension unicode asset ∈ VIDEO_EXTENSIONS then .motion else .still
  | .burst, _ => .member
  | .nearDuplicate, _ => .candidate

section Agreement
variable {unicode : Unicode} {catalogue : List Asset}

/-- A call whose roles depend on the members alone. -/
structure Plain (unicode : Unicode) (catalogue : List Asset) (use : Use) : Prop where
  kind : use.kind ≠ .nearDuplicate
  confidence : use.confidence = confidenceBy use.kind
  roles : ∀ member ∈ use.members, member.2.2 = none ∧
    ∃ asset ∈ catalogue, asset.id = member.1 ∧ member.2.1 = roleBy unicode use.kind asset

theorem pairing_plain {pairing : Pairing} (kind : pairing.kind ≠ .nearDuplicate) (sure : confidenceBy pairing.kind = 1)
    (roles : ∀ asset, roleBy unicode pairing.kind asset =
      if extension unicode asset ∈ pairing.extensions then pairing.counterpart else pairing.still)
    (apart : ∀ suffix ∈ STILL_EXTENSIONS, suffix ∉ pairing.extensions) {asset : Asset} {candidates : List Asset}
    (own : asset ∈ catalogue) (near : ∀ candidate ∈ candidates, candidate ∈ catalogue) {use : Use}
    (used : use ∈ pairing.uses unicode asset candidates) : Plain unicode catalogue use := by
  unfold Pairing.uses at used
  dsimp only at used
  split at used
  · cases used
  · rw [List.mem_singleton] at used
    subst used
    refine ⟨kind, sure.symm, fun member among => ?_⟩
    rcases List.mem_cons.mp among with rfl | other
    · refine ⟨rfl, asset, own, rfl, ?_⟩
      dsimp only
      rw [roles]
      simp only [decide_eq_true_eq]
    · obtain ⟨candidate, paired, rfl⟩ := List.mem_map.mp other
      obtain ⟨present, pairs⟩ := List.mem_filter.mp paired
      refine ⟨rfl, candidate, near candidate present, rfl, ?_⟩
      dsimp only
      rw [roles]
      simp only [Pairing.pairs, Bool.and_eq_true, Bool.or_eq_true, decide_eq_true_eq] at pairs
      rcases pairs.2 with ⟨counterpart, still⟩ | ⟨still, counterpart⟩
      · rw [decide_eq_true counterpart, if_pos rfl, if_neg (apart _ still)]
      · rw [decide_eq_false (apart _ still), if_neg Bool.false_ne_true, if_pos counterpart]

theorem burst_plain {asset : Asset} {candidates : List Asset} (own : asset ∈ catalogue)
    (near : ∀ candidate ∈ candidates, candidate ∈ catalogue) {use : Use}
    (used : use ∈ burstUses unicode asset candidates) : Plain unicode catalogue use := by
  unfold burstUses at used
  cases taken : asset.takenAt with
  | none =>
    rw [taken] at used
    cases used
  | some own_ =>
    rw [taken] at used
    dsimp only at used
    split at used
    · cases used
    · rw [List.mem_singleton] at used
      subst used
      refine ⟨fun same => Kind.noConfusion same, rfl, fun member among => ?_⟩
      rcases List.mem_cons.mp among with rfl | other
      · exact ⟨rfl, asset, own, rfl, rfl⟩
      · obtain ⟨candidate, present, rfl⟩ := List.mem_map.mp other
        exact ⟨rfl, candidate, near candidate (List.mem_of_mem_filter present), rfl, rfl⟩

/-- A call is plain, or it is about a pair of alike images. -/
theorem uses_cases {asset : Asset} (own : asset ∈ catalogue) {use : Use} (used : use ∈ uses unicode catalogue asset) :
    Plain unicode catalogue use ∨ ∃ candidate ∈ catalogue, use = similarUse asset candidate := by
  have near : ∀ candidate ∈ candidatesOf catalogue asset, candidate ∈ catalogue :=
    fun candidate member => List.mem_of_mem_filter member
  have raws : ∀ suffix ∈ STILL_EXTENSIONS, suffix ∉ RAW_EXTENSIONS := by decide
  have videos : ∀ suffix ∈ STILL_EXTENSIONS, suffix ∉ VIDEO_EXTENSIONS := by decide
  unfold uses at used
  dsimp only at used
  split at used
  · cases used
  · rcases List.mem_append.mp used with first | alike
    · rcases List.mem_append.mp first with pairs | burst
      · rcases List.mem_append.mp pairs with raw | live
        · exact .inl (pairing_plain (fun same => Kind.noConfusion same) rfl (fun _ => rfl) raws own near raw)
        · exact .inl (pairing_plain (fun same => Kind.noConfusion same) rfl (fun _ => rfl) videos own near live)
      · exact .inl (burst_plain own near burst)
    · obtain ⟨candidate, present, rfl⟩ := List.mem_map.mp alike
      exact .inr ⟨candidate, near candidate (List.mem_of_mem_filter present), rfl⟩

/-- Two calls for one group give it one confidence, and their common members one role. -/
theorem uses_agree {catalogue : Catalogue} {asset other : Asset} (own : asset ∈ catalogue.assets)
    (among : other ∈ catalogue.assets) {use again : Use} (used : use ∈ uses unicode catalogue.assets asset)
    (repeated : again ∈ uses unicode catalogue.assets other) (same : use.name = again.name) :
    use.confidence = again.confidence ∧
      ∀ member ∈ use.members, ∀ twin ∈ again.members, member.1 = twin.1 → member = twin := by
  have kind : use.kind = again.kind := congrArg GroupName.kind same
  have key : use.key = again.key := congrArg GroupName.groupKey same
  rcases uses_cases own used with plain | ⟨candidate, near, rfl⟩
  · rcases uses_cases among repeated with plain' | ⟨candidate, -, rfl⟩
    · refine ⟨?_, fun member here twin there id => ?_⟩
      · rw [plain.confidence, plain'.confidence, kind]
      · obtain ⟨alike, asset, at_, shown, role⟩ := plain.roles member here
        obtain ⟨alike', asset', at', shown', role'⟩ := plain'.roles twin there
        obtain rfl := catalogue.eq_of_id at_ at' (shown.trans (id.trans shown'.symm))
        rw [kind, ← role'] at role
        exact Prod.ext id (Prod.ext role (alike.trans alike'.symm))
    · exact absurd kind plain.kind
  · rcases uses_cases among repeated with plain | ⟨candidate', near', rfl⟩
    · exact absurd kind.symm plain.kind
    · have distance : hammingDistance (hashOf asset) (hashOf candidate) =
          hammingDistance (hashOf other) (hashOf candidate') := by
        rcases similarKey_inj key with ⟨first, second⟩ | ⟨first, second⟩
        · rw [catalogue.eq_of_id own among first, catalogue.eq_of_id near near' second]
        · rw [catalogue.eq_of_id own near' first, catalogue.eq_of_id near among second, hammingDistance_comm]
      refine ⟨congrArg similarity distance, fun member here twin there id => ?_⟩
      have alike : ∀ {first second : Asset}, ∀ member ∈ (similarUse first second).members,
          member.2 = (.candidate, some (similarity (hammingDistance (hashOf first) (hashOf second)))) := by
        intro first second member among
        rcases List.mem_cons.mp among with rfl | later
        · rfl
        · rw [List.mem_singleton.mp later]
      exact Prod.ext id (by rw [alike member here, alike twin there, distance])

end Agreement

/-! ### Which keys fit -/

section Account
variable (unicode : Unicode) (catalogue : Catalogue) (userId : Uuid)

/-- The assets that a run over the account groups. -/
def activeOf : List Asset := catalogue.assets.filter fun asset => asset.userId = userId ∧ asset.lifecycleState = .active

/-- The parts of the keys are no longer than the width of the column allows. -/
def KeysFit : Prop :=
  ∀ asset ∈ activeOf catalogue userId, ∀ candidate ∈ candidatesOf catalogue.assets asset,
    (rawPair.pairs unicode asset candidate → (stemOf unicode asset).length ≤ 251) ∧
    (livePair.pairs unicode asset candidate → (stemOf unicode asset).length ≤ 250) ∧
    (mayBurst unicode asset → nearTime asset candidate → (asset.cameraModel.getD "").length ≤ 234)

instance : Decidable (KeysFit unicode catalogue userId) :=
  inferInstanceAs (Decidable (∀ asset ∈ _, ∀ candidate ∈ _, _ ∧ _ ∧ _))

/-- Every order in which the active assets are grouped leads to the same rows, and grouping any
of them again, as often as one likes, changes nothing. -/
def Deterministic : Prop :=
  ∃ rows : Set Row, ∀ order : List Asset, order.Perm (activeOf catalogue userId) →
    ∃ tables, groupAssets unicode catalogue.assets .empty order = .ok tables ∧ tables.rows = rows ∧
      ∀ later : List Asset, (∀ asset ∈ later, asset ∈ activeOf catalogue userId) →
        groupAssets unicode catalogue.assets tables later = .ok tables

variable {unicode catalogue userId}

theorem pairing_keys (unicode : Unicode) (pairing : Pairing) (asset : Asset) (candidates : List Asset) (bound : Nat) :
    (∀ use ∈ pairing.uses unicode asset candidates, use.key.length ≤ bound) ↔
      ∀ candidate ∈ candidates, pairing.pairs unicode asset candidate →
        pairing.lead.length + (stemOf unicode asset).length ≤ bound := by
  unfold Pairing.uses
  dsimp only
  split
  · next none_ =>
    refine ⟨fun _ candidate member pairs => ?_, fun _ use absent => absurd absent List.not_mem_nil⟩
    have present : candidate ∈ candidates.filter (pairing.pairs unicode asset) := List.mem_filter.mpr ⟨member, pairs⟩
    rw [none_] at present
    cases present
  · next some_ =>
    obtain ⟨first, member⟩ := List.exists_mem_of_ne_nil _ some_
    obtain ⟨there, pairs⟩ := List.mem_filter.mp member
    simp only [List.mem_singleton, forall_eq, List.length_append, String.length_toList]
    exact ⟨fun fits _ _ _ => fits, fun fits => fits first there pairs⟩

theorem stamp_length (t : Timeline.Timestamp) : (stamp t).length = 14 := by
  simp only [stamp, List.length_append, Calendar.pad_length]

theorem burst_keys (unicode : Unicode) (asset : Asset) (candidates : List Asset) :
    (∀ use ∈ burstUses unicode asset candidates, use.key.length ≤ keyWidth) ↔
      ∀ candidate ∈ candidates, mayBurst unicode asset → nearTime asset candidate →
        (asset.cameraModel.getD "").length ≤ 234 := by
  unfold burstUses
  cases taken : asset.takenAt with
  | none =>
    refine ⟨fun _ candidate _ _ near => ?_, fun _ use absent => absurd absent List.not_mem_nil⟩
    have never : nearTime asset candidate = false := by
      rw [nearTime, taken]
      cases candidate.takenAt <;> rfl
    rw [never] at near
    cases near
  | some own =>
    dsimp only
    split
    · next none_ =>
      refine ⟨fun _ candidate member may near => ?_, fun _ use absent => absurd absent List.not_mem_nil⟩
      rcases none_ with never | empty
      · rw [never] at may
        cases may
      · have present : candidate ∈ candidates.filter (nearTime asset) := List.mem_filter.mpr ⟨member, near⟩
        rw [empty] at present
        cases present
    · next some_ =>
      rw [not_or, Bool.not_eq_false] at some_
      obtain ⟨first, member⟩ := List.exists_mem_of_ne_nil _ some_.2
      obtain ⟨there, near⟩ := List.mem_filter.mp member
      have lead : "burst:".toList.length = 6 := by decide
      simp only [List.mem_singleton, forall_eq, List.length_append, List.length_cons, stamp_length, lead,
        String.length_toList, keyWidth]
      exact ⟨fun fits _ _ _ _ => by omega, fun fits => by have short := fits first there some_.1 near; omega⟩

theorem similarKey_length (a b : Uuid) : (similarKey a b).length ≤ keyWidth := by
  have least : (min a.str b.str).toList.length = 36 := by
    rcases min_choice a.str b.str with first | second
    · rw [first, length_str]
    · rw [second, length_str]
  have most : (max a.str b.str).toList.length = 36 := by
    rcases max_choice a.str b.str with first | second
    · rw [first, length_str]
    · rw [second, length_str]
  have lead : "similar:".toList.length = 8 := by decide
  unfold similarKey
  rw [List.length_append, List.length_append, List.length_cons, least, most, lead]
  decide

/-- A burst has a stem. -/
theorem stem_of_burst {asset : Asset} (may : mayBurst unicode asset = true) : stemOf unicode asset ≠ [] := by
  intro empty
  rw [mayBurst, empty] at may
  exact absurd may (by decide)

theorem keysFit_iff :
    KeysFit unicode catalogue userId ↔
      ∀ asset ∈ activeOf catalogue userId, ∀ use ∈ uses unicode catalogue.assets asset, use.key.length ≤ keyWidth := by
  apply forall₂_congr
  intro asset member
  have active : asset.lifecycleState = .active := (of_decide_eq_true (List.mem_filter.mp member).2).2
  have raws := pairing_keys unicode rawPair asset (candidatesOf catalogue.assets asset) keyWidth
  have lives := pairing_keys unicode livePair asset (candidatesOf catalogue.assets asset) keyWidth
  have bursts := burst_keys unicode asset (candidatesOf catalogue.assets asset)
  have raw : rawPair.lead.length = 4 := by decide
  have live : livePair.lead.length = 5 := by decide
  unfold uses
  dsimp only
  by_cases empty : stemOf unicode asset = []
  · rw [if_pos (.inr empty)]
    refine ⟨fun _ use absent => absurd absent List.not_mem_nil, fun _ candidate _ => ?_⟩
    rw [empty]
    exact ⟨fun _ => by decide, fun _ => by decide, fun may => absurd empty (stem_of_burst may)⟩
  · rw [if_neg (by rw [active, or_iff_right (fun same => LifecycleState.noConfusion same)]; exact empty)]
    rw [raw] at raws
    rw [live] at lives
    constructor
    · intro fits use used
      rcases List.mem_append.mp used with first | alike
      · rcases List.mem_append.mp first with pairs | burst
        · rcases List.mem_append.mp pairs with paired | paired
          · refine raws.mpr (fun c m p => ?_) use paired
            have short := (fits c m).1 p
            exact Nat.add_le_add_left short 4
          · refine lives.mpr (fun c m p => ?_) use paired
            have short := (fits c m).2.1 p
            exact Nat.add_le_add_left short 5
        · exact bursts.mpr (fun c m => (fits c m).2.2) use burst
      · obtain ⟨candidate, -, rfl⟩ := List.mem_map.mp alike
        exact similarKey_length _ _
    · intro fits candidate near
      refine ⟨fun pairs => ?_, fun pairs => ?_, ?_⟩
      · have short := raws.mp (fun use paired =>
          fits use (List.mem_append_left _ (List.mem_append_left _ (List.mem_append_left _ paired)))) candidate near pairs
        exact Nat.le_of_add_le_add_left (a := 4) short
      · have short := lives.mp (fun use paired =>
          fits use (List.mem_append_left _ (List.mem_append_left _ (List.mem_append_right _ paired)))) candidate near pairs
        exact Nat.le_of_add_le_add_left (a := 5) short
      · exact bursts.mp (fun use burst =>
          fits use (List.mem_append_left _ (List.mem_append_right _ burst))) candidate near

/-- The rows of all calls for the account. -/
def accountRows (unicode : Unicode) (catalogue : Catalogue) (userId : Uuid) : Set Row :=
  ⋃ asset ∈ activeOf catalogue userId, ⋃ use ∈ uses unicode catalogue.assets asset, use.rows

theorem mem_accountRows {row : Row} (among : row ∈ accountRows unicode catalogue userId) :
    ∃ asset ∈ catalogue.assets, ∃ use ∈ uses unicode catalogue.assets asset, row ∈ use.rows := by
  simp only [accountRows, Set.mem_iUnion, exists_prop] at among
  obtain ⟨asset, member, use, used, row⟩ := among
  exact ⟨asset, List.mem_of_mem_filter member, use, used, row⟩

theorem accountRows_coherent (unicode : Unicode) (catalogue : Catalogue) (userId : Uuid) :
    Coherent (accountRows unicode catalogue userId) where
  groups group other among again same := by
    obtain ⟨asset, own, use, used, rfl⟩ := mem_accountRows among
    obtain ⟨twin, own', use', used', rfl⟩ := mem_accountRows again
    rw [MediaGroup.mk.injEq]
    exact ⟨same, (uses_agree own own' used used' same).1⟩
  members member other among again group id := by
    obtain ⟨asset, own, use, used, row⟩ := mem_accountRows among
    obtain ⟨twin, own', use', used', row'⟩ := mem_accountRows again
    obtain ⟨entry, here, rfl⟩ := List.mem_map.mp row
    obtain ⟨entry', there, rfl⟩ := List.mem_map.mp row'
    have equal := (uses_agree own own' used used' group).2 entry here entry' there id
    have name : use.name = use'.name := group
    rw [equal, name]

theorem deterministic_of_fits (fits : KeysFit unicode catalogue userId) : Deterministic unicode catalogue userId := by
  have calls := ((Tables.group_gathers (accountRows_coherent unicode catalogue userId)).lists).comap
    (uses unicode catalogue.assets)
  have allowed : ∀ asset ∈ activeOf catalogue userId, ∀ use ∈ uses unicode catalogue.assets asset,
      use.key.length ≤ keyWidth ∧ use.rows ⊆ accountRows unicode catalogue userId := by
    intro asset member use used
    refine ⟨keysFit_iff.mp fits asset member use used, fun row among => ?_⟩
    simp only [accountRows, Set.mem_iUnion, exists_prop]
    exact ⟨asset, member, use, used, among⟩
  have none_ : Tables.empty.rows ⊆ accountRows unicode catalogue userId := by
    rintro (group | member) absent
    · exact absurd absent List.not_mem_nil
    · exact absurd absent List.not_mem_nil
  exact ⟨_, calls.deterministic allowed none_⟩

/-! ### A key that does not fit -/

theorem addMember_groups {tables t : Tables} {member : MediaGroupMember} (added : tables.addMember member = .ok t) :
    t.groups = tables.groups := by
  unfold Tables.addMember at added
  split at added
  · rw [← Except.ok.inj added]
  · rw [← Except.ok.inj added]

theorem addMembers_groups (members : List MediaGroupMember) {tables t : Tables}
    (added : members.foldlM Tables.addMember tables = .ok t) : t.groups = tables.groups := by
  induction members generalizing tables with
  | nil => rw [← Except.ok.inj added]
  | cons member rest ih =>
    rw [List.foldlM_cons] at added
    cases first : tables.addMember member with
    | error fault =>
      rw [first] at added
      cases added
    | ok mid =>
      rw [first] at added
      rw [ih added, addMember_groups first]

/-- A call never takes a group away, and where its key is too long it adds one each time. -/
theorem group_grows {tables t : Tables} {use : Use} (grouped : tables.group use = .ok t) :
    tables.groups.length + (if use.key.length ≤ keyWidth then 0 else 1) ≤ t.groups.length := by
  unfold Tables.group at grouped
  cases ensured : tables.ensureGroup use with
  | error fault =>
    rw [ensured] at grouped
    cases grouped
  | ok found =>
    obtain ⟨mid, name⟩ := found
    rw [ensured] at grouped
    rw [addMembers_groups _ grouped]
    unfold Tables.ensureGroup at ensured
    split at ensured
    · next present =>
      obtain ⟨rfl, -⟩ := Prod.mk.inj (Except.ok.inj ensured)
      obtain ⟨group, among, same⟩ := present
      have short : use.key.length ≤ keyWidth := by
        have width := tables.fits group among
        rwa [same] at width
      rw [if_pos short, Nat.add_zero]
    · unfold Tables.addGroup at ensured
      split at ensured
      · obtain ⟨rfl, -⟩ := Prod.mk.inj (Except.ok.inj ensured)
        rw [List.length_append]
        split
        · exact Nat.le_add_right _ _
        · exact Nat.le_refl _
      · cases ensured

theorem groups_grow (calls : List Use) {tables t : Tables} (grouped : calls.foldlM Tables.group tables = .ok t) :
    tables.groups.length ≤ t.groups.length ∧
      ((∃ use ∈ calls, ¬use.key.length ≤ keyWidth) → tables.groups.length < t.groups.length) := by
  induction calls generalizing tables with
  | nil =>
    rw [← Except.ok.inj grouped]
    exact ⟨Nat.le_refl _, fun ⟨use, absent, _⟩ => absurd absent List.not_mem_nil⟩
  | cons use rest ih =>
    rw [List.foldlM_cons] at grouped
    cases first : tables.group use with
    | error fault =>
      rw [first] at grouped
      cases grouped
    | ok mid =>
      rw [first] at grouped
      obtain ⟨later, more⟩ := ih grouped
      have grown := group_grows first
      refine ⟨by omega, fun ⟨again, member, long⟩ => ?_⟩
      rcases List.mem_cons.mp member with rfl | after
      · rw [if_neg long] at grown
        omega
      · have behind := more ⟨again, after, long⟩
        omega

theorem fits_of_deterministic (deterministic : Deterministic unicode catalogue userId) :
    KeysFit unicode catalogue userId := by
  obtain ⟨rows, runs⟩ := deterministic
  obtain ⟨tables, -, -, settled⟩ := runs _ (List.Perm.refl _)
  rw [keysFit_iff]
  intro asset member use used
  by_contra long
  have again := settled [asset] fun other among => by rwa [List.mem_singleton.mp among]
  have once : (uses unicode catalogue.assets asset).foldlM Tables.group tables = .ok tables := by
    have step : groupAssets unicode catalogue.assets tables [asset] =
        (groupAsset unicode catalogue.assets tables asset) >>= fun t => .ok t := rfl
    rw [step] at again
    unfold groupAsset at again
    cases ran : (uses unicode catalogue.assets asset).foldlM Tables.group tables with
    | error fault =>
      rw [ran] at again
      cases again
    | ok t =>
      rw [ran] at again
      exact again
  exact absurd ((groups_grow _ once).2 ⟨use, used, long⟩) (Nat.lt_irrefl _)

end Account

/-- Grouping an account does not depend on the order of its assets, nor on what is repeated, exactly
when every key fits into its column: the lookup takes the whole key, and the insert cuts it off. -/
theorem grouping_deterministic_iff_keys_fit (unicode : Unicode) (catalogue : Catalogue) (userId : Uuid) :
    Deterministic unicode catalogue userId ↔ KeysFit unicode catalogue userId :=
  ⟨fits_of_deterministic, deterministic_of_fits⟩

/-! ### A camera of a long name -/

namespace Sample

open Timeline.Sample (uuid photo)

/-- Names of plain letters: lower case by case. -/
def ascii : Unicode := ⟨fun text => text.map Char.toLower, Char.isDigit⟩

def shot (digit : Fin 16) (name : String) : Asset where
  id := uuid digit
  userId := uuid 0
  lifecycleState := .active
  originalFilename := some name
  mimeType := "image/jpeg"
  takenAt := some (photo digit none .active).createdAt
  cameraModel := some (String.ofList (List.replicate 240 'x'))
  perceptualHash := none

/-- Two shots of one moment. -/
def burst : Catalogue := ⟨[shot 1 "IMG_1.jpg", shot 2 "IMG_2.jpg"], by decide +kernel⟩

end Sample

open Sample in
/-- The second of the two shots violates the unique key of the group of the first. -/
theorem long_camera_model_violates_key :
    groupAssets ascii burst.assets .empty burst.assets = .error (.uniqueViolation "uq_media_groups_key") ∧
      ¬Deterministic ascii burst (Timeline.Sample.uuid 0) := by
  have failed : groupAssets ascii burst.assets .empty burst.assets =
      .error (.uniqueViolation "uq_media_groups_key") := by decide +kernel
  have whole : activeOf burst (Timeline.Sample.uuid 0) = burst.assets := by decide +kernel
  refine ⟨failed, fun ⟨rows, runs⟩ => ?_⟩
  obtain ⟨tables, ran, -⟩ := runs burst.assets (List.Perm.of_eq whole.symm)
  rw [failed] at ran
  cases ran

end Drivebound.Grouping
