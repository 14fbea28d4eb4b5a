import Drivebound.Core.JsonEqual
import Drivebound.Core.Worklist
import Drivebound.Nodes.Attestation
import Mathlib

/-! What a heartbeat may say of its node: `bounded_capabilities` of `schemas/node.py` walks the
document with a list of pending values, and accepts what the recursive reading of its bounds does,
in whatever order it walks and whatever order the keys are in. -/
namespace Drivebound.Nodes.Capabilities
open Json Passkeys Worklist

def MAX_CAPABILITY_KEYS : Nat := 64

def MAX_CAPABILITY_BYTES : Nat := 16 * 1024

def MAX_CAPABILITY_DEPTH : Nat := 8

def MAX_CAPABILITY_MEMBERS : Nat := 256

/-- A `str`. One with a lone surrogate has a length but no UTF-8. -/
inductive Text where
  | wellFormed (text : String)
  | illFormed (length : Nat)
  deriving DecidableEq

def Text.length : Text → Nat
  | .wellFormed text => text.length
  | .illFormed length => length

/-- What `json.loads` gives. A finite float comes as it is spelled; infinities and `NaN` are the
other ones. -/
inductive Document where
  | null
  | bool (b : Bool)
  | int (n : Int)
  | float (spelled : Number)
  | nonfinite
  | string (text : Text)
  | array (items : List Document)
  | object (members : List (Text × Document))

def fitsKey (key : Text) : Bool := 0 < key.length && key.length ≤ 128

/-- A value with its depth below the root. -/
abbrev Node := Document × Nat

/-- The members that a value adds and its children, where its keys and its kind are right. -/
def contents (depth : Nat) : Document → Except String (Nat × List Node)
  | .object members =>
    if members.all (fitsKey ·.1) then .ok (members.length, members.map fun member => (member.2, depth + 1))
    else .error "capability keys must contain 1 to 128 characters"
  | .array items => .ok (items.length, items.map (·, depth + 1))
  | .nonfinite => .error "capabilities must contain only JSON objects, arrays, and scalar values"
  | _ => .ok (0, [])

/-- One pass of the loop: what it pushes, the last of it to be taken first. -/
def visit (total : Nat) (node : Node) : Except String (Nat × List Node) :=
  if MAX_CAPABILITY_DEPTH < node.2 then .error "capabilities may be nested at most 8 levels"
  else
    (contents node.2 node.1).bind fun (added, children) =>
      if MAX_CAPABILITY_MEMBERS < total + added then .error "capabilities may contain at most 256 members"
      else .ok (total + added, children.reverse)

/-! ### The canonical encoding -/

/-- Digits beyond which `str` of an integer raises a `ValueError`. -/
def maxStrDigits : Nat := 4300

def Number.ofInt (n : Int) : Number where
  text := if n < 0 then '-' :: Nat.toDigits 10 n.natAbs else Nat.toDigits 10 n.natAbs
  nonempty := by
    split
    · exact List.cons_ne_nil _ _
    · exact Nat.toDigits_ne_nil
  numeric := by
    have digits : ∀ c ∈ Nat.toDigits 10 n.natAbs, isNumeric c = true := (Number.ofNat n.natAbs).numeric
    split
    · exact List.forall_mem_cons.mpr ⟨by decide, digits⟩
    · exact digits

def Text.text? : Text → Option String
  | .wellFormed text => some text
  | .illFormed _ => none

mutual
/-- The value that is spelled; `none` where its spelling raises. -/
def Document.value? : Document → Option Value
  | .null => some .null
  | .bool b => some (.bool b)
  | .int n => if 10 ^ maxStrDigits ≤ n.natAbs then none else some (.number (Number.ofInt n))
  | .float spelled => some (.number spelled)
  | .nonfinite => none
  | .string text => text.text?.map .string
  | .array items => (itemValues? items).map .array
  | .object members => (memberValues? members).map .object

def itemValues? : List Document → Option (List Value)
  | [] => some []
  | d :: rest => d.value?.bind fun a => (itemValues? rest).map (a :: ·)

def memberValues? : List (Text × Document) → Option (List (String × Value))
  | [] => some []
  | (key, d) :: rest => key.text?.bind fun name => d.value?.bind fun a => (memberValues? rest).map ((name, a) :: ·)
end

/-- `json.dumps(value, sort_keys=True, …).encode("utf-8")` -/
def Document.canonical (d : Document) : Option Bytes := d.value?.map fun a => encodeUtf8 (dumps a)

/-- `bounded_capabilities`, with the order in which pending values are taken and a bound on the
passes; the source takes the last one first. -/
def boundedCapabilities (arrange : List Node → List Node) (passes : Nat) (value : List (Text × Document)) :
    Option (Except String Unit) :=
  if MAX_CAPABILITY_KEYS < value.length then
    some (.error "capabilities may contain at most 64 top-level keys")
  else
    (loop visit arrange passes 0 [(.object value, 0)]).map fun walked => walked.bind fun _ =>
      match (Document.object value).canonical with
      | none => .error "capabilities must contain finite JSON values"
      | some encoded =>
        if MAX_CAPABILITY_BYTES < encoded.length then
          .error "canonical capabilities may be at most 16384 bytes"
        else .ok ()

/-! ### The recursive reading -/

mutual
/-- The depth of the deepest value below this one. -/
def Document.height : Document → Nat
  | .array items => itemsHeight items
  | .object members => membersHeight members
  | _ => 0

def itemsHeight : List Document → Nat
  | [] => 0
  | d :: rest => max (d.height + 1) (itemsHeight rest)

def membersHeight : List (Text × Document) → Nat
  | [] => 0
  | (_, d) :: rest => max (d.height + 1) (membersHeight rest)
end

mutual
/-- Keys of 1 to 128 characters, and no float that is not finite. -/
def Document.proper : Document → Bool
  | .nonfinite => false
  | .array items => itemsProper items
  | .object members => membersProper members
  | _ => true

def itemsProper : List Document → Bool
  | [] => true
  | d :: rest => d.proper && itemsProper rest

def membersProper : List (Text × Document) → Bool
  | [] => true
  | (key, d) :: rest => fitsKey key && d.proper && membersProper rest
end

mutual
/-- Members of objects and elements of arrays. -/
def Document.count : Document → Nat
  | .array items => itemsCount items
  | .object members => membersCount members
  | _ => 0

def itemsCount : List Document → Nat
  | [] => 0
  | d :: rest => 1 + d.count + itemsCount rest

def membersCount : List (Text × Document) → Nat
  | [] => 0
  | (_, d) :: rest => 1 + d.count + membersCount rest
end

structure Bounded (value : List (Text × Document)) : Prop where
  keys : value.length ≤ MAX_CAPABILITY_KEYS
  depth : (Document.object value).height ≤ MAX_CAPABILITY_DEPTH
  proper : (Document.object value).proper = true
  members : (Document.object value).count ≤ MAX_CAPABILITY_MEMBERS
  encoded : ∃ encoded ∈ (Document.object value).canonical, encoded.length ≤ MAX_CAPABILITY_BYTES

/-! ### The walk and the recursive reading -/

mutual
/-- The values in a value, with their depths. -/
def Document.nodes (depth : Nat) : Document → List Node
  | .array items => (.array items, depth) :: itemsNodes (depth + 1) items
  | .object members => (.object members, depth) :: membersNodes (depth + 1) members
  | d => [(d, depth)]

def itemsNodes (depth : Nat) : List Document → List Node
  | [] => []
  | d :: rest => d.nodes depth ++ itemsNodes depth rest

def membersNodes (depth : Nat) : List (Text × Document) → List Node
  | [] => []
  | (_, d) :: rest => d.nodes depth ++ membersNodes depth rest
end

def nodesOf (node : Node) : List Node := node.1.nodes node.2

/-- What is looked for in one value. -/
def Good (node : Node) : Prop :=
  node.2 ≤ MAX_CAPABILITY_DEPTH ∧ ∃ added children, contents node.2 node.1 = .ok (added, children)

def added (node : Node) : Nat :=
  match node.1 with
  | .object members => members.length
  | .array items => items.length
  | _ => 0

theorem contents_ok {depth n : Nat} {d : Document} {children : List Node} (ok : contents depth d = .ok (n, children)) :
    n = added (d, depth) ∧ d.nodes depth = (d, depth) :: children.flatMap nodesOf := by
  cases d with
  | object members =>
    simp only [contents] at ok
    split at ok
    · cases ok
      refine ⟨rfl, congrArg ((Document.object members, depth) :: ·) ?_⟩
      clear * -
      induction members with
      | nil => rfl
      | cons member rest ih => rw [membersNodes, ih, List.map_cons, List.flatMap_cons, nodesOf]
    · cases ok
  | array items =>
    cases ok
    refine ⟨rfl, congrArg ((Document.array items, depth) :: ·) ?_⟩
    induction items with
    | nil => rfl
    | cons d rest ih => rw [itemsNodes, ih, List.map_cons, List.flatMap_cons, nodesOf]
  | nonfinite => cases ok
  | _ =>
    cases ok
    exact ⟨rfl, rfl⟩

theorem visit_ok_iff {total : Nat} {node : Node} {sum : Nat} {more : List Node} :
    visit total node = .ok (sum, more) ↔ node.2 ≤ MAX_CAPABILITY_DEPTH ∧ ∃ n children,
      contents node.2 node.1 = .ok (n, children) ∧ total + n ≤ MAX_CAPABILITY_MEMBERS ∧
        sum = total + n ∧ more = children.reverse := by
  unfold visit
  by_cases deep : MAX_CAPABILITY_DEPTH < node.2
  · rw [if_pos deep]
    constructor
    · intro same
      cases same
    · rintro ⟨shallow, -⟩
      exact absurd shallow (Nat.not_le_of_lt deep)
  · rw [if_neg deep]
    cases held : contents node.2 node.1 with
    | error detail =>
      constructor
      · intro same
        cases same
      · rintro ⟨-, _, _, same, -⟩
        cases same
    | ok found =>
      obtain ⟨n, children⟩ := found
      simp only [Except.bind]
      by_cases many : MAX_CAPABILITY_MEMBERS < total + n
      · rw [if_pos many]
        constructor
        · intro same
          cases same
        · rintro ⟨-, _, _, same, few, -⟩
          cases same
          exact absurd few (Nat.not_le_of_lt many)
      · rw [if_neg many]
        constructor
        · intro same
          cases same
          exact ⟨Nat.le_of_not_lt deep, n, children, rfl, Nat.le_of_not_lt many, rfl, rfl⟩
        · rintro ⟨-, _, _, same, -, rfl, rfl⟩
          cases same
          rfl

theorem explores : Explores visit nodesOf Good added MAX_CAPABILITY_MEMBERS where
  root := by
    rintro ⟨d, depth⟩
    cases d <;> exact List.mem_cons_self
  accepts total node := by
    constructor
    · rintro ⟨⟨sum, more⟩, ok⟩
      obtain ⟨shallow, n, children, held, few, -⟩ := visit_ok_iff.mp ok
      rw [(contents_ok held).1] at few
      exact ⟨⟨shallow, n, children, held⟩, few⟩
    · rintro ⟨⟨shallow, n, children, held⟩, few⟩
      rw [← (contents_ok held).1] at few
      exact ⟨_, visit_ok_iff.mpr ⟨shallow, n, children, held, few, rfl, rfl⟩⟩
  follows total node sum more ok := by
    obtain ⟨-, n, children, held, -, rfl, rfl⟩ := visit_ok_iff.mp ok
    obtain ⟨counted, nodes⟩ := contents_ok held
    refine ⟨congrArg (total + ·) counted, ?_⟩
    rw [nodesOf, nodes]
    exact ((List.reverse_perm children).flatMap_right nodesOf).cons _

theorem good_array {items : List Document} {depth : Nat} :
    Good (.array items, depth) ↔ depth ≤ MAX_CAPABILITY_DEPTH :=
  and_iff_left ⟨_, _, rfl⟩

theorem good_object {members : List (Text × Document)} {depth : Nat} : Good (.object members, depth) ↔
    depth ≤ MAX_CAPABILITY_DEPTH ∧ members.all (fitsKey ·.1) = true := by
  refine and_congr_right fun _ => ?_
  rw [contents]
  cases members.all (fitsKey ·.1) with
  | true => exact ⟨fun _ => rfl, fun _ => ⟨_, _, rfl⟩⟩
  | false =>
    constructor
    · rintro ⟨_, _, same⟩
      cases same
    · intro same
      cases same

mutual
/-- The nodes of a value are good when it is not too high and is proper. -/
theorem nodes_good (d : Document) (depth : Nat) : (∀ node ∈ d.nodes depth, Good node) ↔
    depth + d.height ≤ MAX_CAPABILITY_DEPTH ∧ d.proper = true := by
  cases d with
  | null | bool | int | float | string =>
    simp [Document.nodes, Good, contents, Document.height, Document.proper]
  | nonfinite => simp [Document.nodes, Good, contents, Document.proper]
  | array items =>
    rw [Document.nodes, List.forall_mem_cons, good_array, Document.height, Document.proper]
    constructor
    · rintro ⟨shallow, all⟩
      exact (itemsNodes_good items shallow).mp all
    · rintro ⟨low, proper⟩
      have shallow := Nat.le_of_add_right_le low
      exact ⟨shallow, (itemsNodes_good items shallow).mpr ⟨low, proper⟩⟩
  | object members =>
    rw [Document.nodes, List.forall_mem_cons, good_object, Document.height, Document.proper]
    constructor
    · rintro ⟨⟨shallow, keys⟩, all⟩
      exact (membersNodes_good members shallow).mp ⟨keys, all⟩
    · rintro ⟨low, proper⟩
      have shallow := Nat.le_of_add_right_le low
      obtain ⟨keys, all⟩ := (membersNodes_good members shallow).mpr ⟨low, proper⟩
      exact ⟨⟨shallow, keys⟩, all⟩
termination_by structural d

theorem itemsNodes_good (items : List Document) {depth : Nat} (shallow : depth ≤ MAX_CAPABILITY_DEPTH) :
    (∀ node ∈ itemsNodes (depth + 1) items, Good node) ↔
      depth + itemsHeight items ≤ MAX_CAPABILITY_DEPTH ∧ itemsProper items = true := by
  cases items with
  | nil => exact ⟨fun _ => ⟨shallow, rfl⟩, fun _ node member => absurd member List.not_mem_nil⟩
  | cons d rest =>
    rw [itemsNodes, List.forall_mem_append, nodes_good d, itemsNodes_good rest shallow, itemsHeight, itemsProper,
      Bool.and_eq_true]
    constructor
    · rintro ⟨⟨low, proper⟩, later, others⟩
      exact ⟨by omega, proper, others⟩
    · rintro ⟨low, proper, others⟩
      exact ⟨⟨by omega, proper⟩, by omega, others⟩
termination_by structural items

theorem membersNodes_good (members : List (Text × Document)) {depth : Nat} (shallow : depth ≤ MAX_CAPABILITY_DEPTH) :
    (members.all (fitsKey ·.1) = true ∧ ∀ node ∈ membersNodes (depth + 1) members, Good node) ↔
      depth + membersHeight members ≤ MAX_CAPABILITY_DEPTH ∧ membersProper members = true := by
  cases members with
  | nil => exact ⟨fun _ => ⟨shallow, rfl⟩, fun _ => ⟨rfl, fun node member => absurd member List.not_mem_nil⟩⟩
  | cons member rest =>
    obtain ⟨key, d⟩ := member
    have later := membersNodes_good rest shallow
    rw [membersNodes, List.forall_mem_append, nodes_good d, membersHeight, membersProper, List.all_cons,
      Bool.and_eq_true, Bool.and_eq_true, Bool.and_eq_true]
    constructor
    · rintro ⟨⟨fits, keys⟩, ⟨low, proper⟩, all⟩
      obtain ⟨lower, others⟩ := later.mp ⟨keys, all⟩
      exact ⟨by omega, ⟨fits, proper⟩, others⟩
    · rintro ⟨low, ⟨fits, proper⟩, others⟩
      obtain ⟨keys, all⟩ := later.mpr ⟨by omega, others⟩
      exact ⟨⟨fits, keys⟩, ⟨by omega, proper⟩, all⟩
termination_by structural members
end

mutual
/-- What the nodes of a value add is its count. -/
theorem nodes_added (d : Document) (depth : Nat) : ((d.nodes depth).map added).sum = d.count := by
  cases d with
  | null | bool | int | float | string | nonfinite => rfl
  | array items =>
    have later := itemsNodes_added items (depth + 1)
    rw [Document.nodes, List.map_cons, List.sum_cons, Document.count, ← later, Nat.add_comm]
    rfl
  | object members =>
    have later := membersNodes_added members (depth + 1)
    rw [Document.nodes, List.map_cons, List.sum_cons, Document.count, ← later, Nat.add_comm]
    rfl
termination_by structural d

theorem itemsNodes_added (items : List Document) (depth : Nat) :
    ((itemsNodes depth items).map added).sum + items.length = itemsCount items := by
  cases items with
  | nil => rfl
  | cons d rest =>
    have later := itemsNodes_added rest depth
    rw [itemsNodes, List.map_append, List.sum_append, nodes_added d, List.length_cons, itemsCount]
    omega
termination_by structural items

theorem membersNodes_added (members : List (Text × Document)) (depth : Nat) :
    ((membersNodes depth members).map added).sum + members.length = membersCount members := by
  cases members with
  | nil => rfl
  | cons member rest =>
    obtain ⟨key, d⟩ := member
    have later := membersNodes_added rest depth
    rw [membersNodes, List.map_append, List.sum_append, nodes_added d, List.length_cons, membersCount]
    omega
termination_by structural members
end

/-- The walk over a document accepts exactly what the recursive reading of the bounds does. -/
theorem walk_iff {arrange : List Node → List Node} (reorders : ∀ l, (arrange l).Perm l) (d : Document) :
    ∃ verdict, loop visit arrange ((d.nodes 0).length + 1) 0 [(d, 0)] = some verdict ∧
      ((∃ sum, verdict = .ok sum) ↔
        d.height ≤ MAX_CAPABILITY_DEPTH ∧ d.proper = true ∧ d.count ≤ MAX_CAPABILITY_MEMBERS) := by
  have whole : [(d, 0)].flatMap nodesOf = d.nodes 0 := List.append_nil _
  have short : ([(d, 0)].flatMap nodesOf).length < (d.nodes 0).length + 1 := by
    rw [whole]
    exact Nat.lt_succ_self _
  obtain ⟨verdict, judged, iff⟩ := loop_iff explores reorders short (Nat.zero_le _)
  refine ⟨verdict, judged, iff.trans ?_⟩
  rw [whole, Within, nodes_good, nodes_added, Nat.zero_add, Nat.zero_add, and_assoc]

theorem boundedCapabilities_iff {arrange : List Node → List Node} (reorders : ∀ l, (arrange l).Perm l)
    (value : List (Text × Document)) : ∃ verdict,
    (∀ passes > ((Document.object value).nodes 0).length, boundedCapabilities arrange passes value = some verdict) ∧
      (verdict = .ok () ↔ Bounded value) := by
  by_cases keys : MAX_CAPABILITY_KEYS < value.length
  · refine ⟨_, fun passes _ => if_pos keys, ?_⟩
    constructor
    · intro same
      cases same
    · intro bounded
      exact absurd bounded.keys (Nat.not_le_of_lt keys)
  · obtain ⟨walked, judged, iff⟩ := walk_iff reorders (.object value)
    have runs : ∀ passes > ((Document.object value).nodes 0).length, boundedCapabilities arrange passes value =
        some (walked.bind fun _ => match (Document.object value).canonical with
          | none => .error "capabilities must contain finite JSON values"
          | some encoded =>
            if MAX_CAPABILITY_BYTES < encoded.length then
              .error "canonical capabilities may be at most 16384 bytes"
            else .ok ()) := by
      intro passes enough
      rw [boundedCapabilities, if_neg keys, loop_stable judged enough]
      rfl
    refine ⟨_, runs, ?_⟩
    cases walked with
    | error detail =>
      constructor
      · intro same
        cases same
      · intro bounded
        obtain ⟨sum, same⟩ := iff.mpr ⟨bounded.depth, bounded.proper, bounded.members⟩
        cases same
    | ok sum =>
      obtain ⟨depth, proper, members⟩ := iff.mp ⟨sum, rfl⟩
      simp only [Except.bind]
      split
      · next none_ =>
        constructor
        · intro same
          cases same
        · rintro ⟨-, -, -, -, encoded, found, -⟩
          rw [none_] at found
          cases found
      · next encoded found =>
        split
        · next large =>
          constructor
          · intro same
            cases same
          · rintro ⟨-, -, -, -, other, again, small⟩
            cases found.symm.trans again
            exact absurd small (Nat.not_le_of_lt large)
        · next small =>
          refine ⟨fun _ => ?_, fun _ => rfl⟩
          exact ⟨Nat.le_of_not_lt keys, depth, proper, members, encoded, found, Nat.le_of_not_lt small⟩

/-! ### The order of the keys -/

mutual
/-- Python's `==`: the members of an object may be in another order. -/
inductive Same : Document → Document → Prop
  | null : Same .null .null
  | bool (b : Bool) : Same (.bool b) (.bool b)
  | int (n : Int) : Same (.int n) (.int n)
  | float (spelled : Number) : Same (.float spelled) (.float spelled)
  | nonfinite : Same .nonfinite .nonfinite
  | string (text : Text) : Same (.string text) (.string text)
  | array {items others : List Document} : SameItems items others → Same (.array items) (.array others)
  | object {members between others : List (Text × Document)} :
      members.Perm between → SameMembers between others → Same (.object members) (.object others)

inductive SameItems : List Document → List Document → Prop
  | nil : SameItems [] []
  | cons {d e : Document} {rest others : List Document} :
      Same d e → SameItems rest others → SameItems (d :: rest) (e :: others)

inductive SameMembers : List (Text × Document) → List (Text × Document) → Prop
  | nil : SameMembers [] []
  | cons {key : Text} {d e : Document} {rest others : List (Text × Document)} :
      Same d e → SameMembers rest others → SameMembers ((key, d) :: rest) ((key, e) :: others)
end

mutual
/-- A document as Python holds it: each key once, and each float spelled as a number. -/
def Document.Valid : Document → Prop
  | .float spelled => isNumber spelled.text = true
  | .array items => ItemsValid items
  | .object members => (members.map Prod.fst).Nodup ∧ MembersValid members
  | _ => True

def ItemsValid : List Document → Prop
  | [] => True
  | d :: rest => d.Valid ∧ ItemsValid rest

def MembersValid : List (Text × Document) → Prop
  | [] => True
  | (_, d) :: rest => d.Valid ∧ MembersValid rest
end

theorem membersHeight_perm {members others : List (Text × Document)} (perm : members.Perm others) :
    membersHeight members = membersHeight others := by
  induction perm with
  | nil => rfl
  | cons member _ ih => rw [membersHeight, membersHeight, ih]
  | swap one two rest =>
    rw [membersHeight, membersHeight, membersHeight, membersHeight]
    omega
  | trans _ _ first second => rw [first, second]

theorem membersCount_perm {members others : List (Text × Document)} (perm : members.Perm others) :
    membersCount members = membersCount others := by
  induction perm with
  | nil => rfl
  | cons member _ ih => rw [membersCount, membersCount, ih]
  | swap one two rest =>
    rw [membersCount, membersCount, membersCount, membersCount]
    omega
  | trans _ _ first second => rw [first, second]

theorem membersProper_perm {members others : List (Text × Document)} (perm : members.Perm others) :
    membersProper members = membersProper others := by
  induction perm with
  | nil => rfl
  | cons member _ ih => rw [membersProper, membersProper, ih]
  | swap one two rest =>
    rw [membersProper, membersProper, membersProper, membersProper]
    exact Bool.and_left_comm _ _ _
  | trans _ _ first second => rw [first, second]

theorem rel_map {α β γ δ : Type*} {r : α → β → Prop} {q : γ → δ → Prop} {f : α → γ} {g : β → δ}
    (keeps : ∀ a b, r a b → q (f a) (g b)) {x : Option α} {y : Option β} (related : Option.Rel r x y) :
    Option.Rel q (x.map f) (y.map g) := by
  cases related with
  | none => exact .none
  | some here => exact .some (keeps _ _ here)

theorem rel_bind {α β γ δ : Type*} {r : α → β → Prop} {q : γ → δ → Prop} {f : α → Option γ} {g : β → Option δ}
    (keeps : ∀ a b, r a b → Option.Rel q (f a) (g b)) {x : Option α} {y : Option β} (related : Option.Rel r x y) :
    Option.Rel q (x.bind f) (y.bind g) := by
  cases related with
  | none => exact .none
  | some here => exact keeps _ _ here

theorem rel_trans {α β γ : Type*} {r : α → β → Prop} {q : β → γ → Prop} {p : α → γ → Prop}
    (joins : ∀ a b c, r a b → q b c → p a c) {x : Option α} {y : Option β} {z : Option γ}
    (first : Option.Rel r x y) (second : Option.Rel q y z) : Option.Rel p x z := by
  cases first with
  | none =>
    cases second
    exact .none
  | some here =>
    cases second with
    | some next => exact .some (joins _ _ _ here next)

theorem memberValues?_perm {members others : List (Text × Document)} (perm : members.Perm others) :
    Option.Rel List.Perm (memberValues? members) (memberValues? others) := by
  induction perm with
  | nil => exact .some (.refl _)
  | cons member _ ih =>
    obtain ⟨key, d⟩ := member
    simp only [memberValues?]
    cases key.text? with
    | none => exact .none
    | some name =>
      cases d.value? with
      | none => exact .none
      | some a => exact rel_map (fun _ _ perm => perm.cons (name, a)) ih
  | swap one two rest =>
    obtain ⟨key, d⟩ := one
    obtain ⟨key', e⟩ := two
    simp only [memberValues?]
    cases key.text? <;> cases d.value? <;> cases key'.text? <;> cases e.value? <;> cases memberValues? rest <;>
      first | exact .none | exact .some (.swap _ _ _)
  | trans _ _ first second => exact rel_trans (fun _ _ _ perm perm' => perm.trans perm') first second

/-- What the bounds are about, for values that are equal. -/
structure Alike (d e : Document) : Prop where
  height : d.height = e.height
  proper : d.proper = e.proper
  count : d.count = e.count
  value : Option.Rel Json.Same d.value? e.value?

structure ItemsAlike (items others : List Document) : Prop where
  height : itemsHeight items = itemsHeight others
  proper : itemsProper items = itemsProper others
  count : itemsCount items = itemsCount others
  values : Option.Rel Json.SameItems (itemValues? items) (itemValues? others)

structure MembersAlike (members others : List (Text × Document)) : Prop where
  height : membersHeight members = membersHeight others
  proper : membersProper members = membersProper others
  count : membersCount members = membersCount others
  values : Option.Rel Json.SameMembers (memberValues? members) (memberValues? others)

theorem itemsAlike_cons {d e : Document} {rest others : List Document} (first : Alike d e)
    (later : ItemsAlike rest others) : ItemsAlike (d :: rest) (e :: others) where
  height := by rw [itemsHeight, itemsHeight, first.height, later.height]
  proper := by rw [itemsProper, itemsProper, first.proper, later.proper]
  count := by rw [itemsCount, itemsCount, first.count, later.count]
  values := by
    rw [itemValues?, itemValues?]
    exact rel_bind (fun _ _ same => rel_map (fun _ _ others => .cons same others) later.values) first.value

theorem membersAlike_cons {key : Text} {d e : Document} {rest others : List (Text × Document)} (first : Alike d e)
    (later : MembersAlike rest others) : MembersAlike ((key, d) :: rest) ((key, e) :: others) where
  height := by rw [membersHeight, membersHeight, first.height, later.height]
  proper := by rw [membersProper, membersProper, first.proper, later.proper]
  count := by rw [membersCount, membersCount, first.count, later.count]
  values := by
    rw [memberValues?, memberValues?]
    cases key.text? with
    | none => exact .none
    | some name =>
      exact rel_bind (fun _ _ same => rel_map (fun _ _ others => .cons same others) later.values) first.value

theorem alike_object {members between others : List (Text × Document)} (perm : members.Perm between)
    (alike : MembersAlike between others) : Alike (.object members) (.object others) where
  height := (membersHeight_perm perm).trans alike.height
  proper := (membersProper_perm perm).trans alike.proper
  count := (membersCount_perm perm).trans alike.count
  value := by
    have reordered : Option.Rel (fun members others => Json.Same (.object members) (.object others))
        (memberValues? members) (memberValues? others) :=
      rel_trans (q := Json.SameMembers) (fun _ _ _ perm same => .object perm same) (memberValues?_perm perm)
        alike.values
    exact rel_map (f := Value.object) (g := Value.object) (fun _ _ same => same) reordered

/-- Equal values are within the same bounds. -/
theorem alike_of_same {d e : Document} (same : Same d e) : Alike d e := by
  refine @Same.rec (fun d e _ => Alike d e) (fun items others _ => ItemsAlike items others)
    (fun members others _ => MembersAlike members others) ?null ?bool ?int ?float ?nonfinite ?string ?array ?object
    ?itemsNil ?itemsCons ?membersNil ?membersCons d e same
  case null => exact ⟨rfl, rfl, rfl, .some .null⟩
  case bool =>
    intro b
    exact ⟨rfl, rfl, rfl, .some (.bool b)⟩
  case int =>
    intro n
    refine ⟨rfl, rfl, rfl, ?_⟩
    rw [Document.value?]
    split
    · exact .none
    · exact .some (.number _)
  case float =>
    intro spelled
    exact ⟨rfl, rfl, rfl, .some (.number spelled)⟩
  case nonfinite => exact ⟨rfl, rfl, rfl, .none⟩
  case string =>
    intro text
    cases text with
    | wellFormed text => exact ⟨rfl, rfl, rfl, .some (.string text)⟩
    | illFormed length => exact ⟨rfl, rfl, rfl, .none⟩
  case array =>
    intro items others _ alike
    exact ⟨alike.height, alike.proper, alike.count, rel_map (fun _ _ same => .array same) alike.values⟩
  case object =>
    intro members between others perm _ alike
    exact alike_object perm alike
  case itemsNil => exact ⟨rfl, rfl, rfl, .some .nil⟩
  case itemsCons =>
    intro d e rest others _ _ first later
    exact itemsAlike_cons first later
  case membersNil => exact ⟨rfl, rfl, rfl, .some .nil⟩
  case membersCons =>
    intro key d e rest others _ _ first later
    exact membersAlike_cons first later

theorem isNumber_ofInt (n : Int) : isNumber (Number.ofInt n).text = true := by
  have unsigned := isUnsigned_toDigits n.natAbs
  unfold Number.ofInt
  dsimp only
  split
  · exact unsigned
  · exact isNumber_ofNat n.natAbs

theorem value?_valid_int {n : Int} {a : Value} (spelled : (Document.int n).value? = some a) : a.Valid := by
  rw [Document.value?] at spelled
  split at spelled
  · cases spelled
  · cases spelled
    exact isNumber_ofInt n

theorem memberValues?_keys {members : List (Text × Document)} {values : List (String × Value)}
    (spelled : memberValues? members = some values) :
    members.map Prod.fst = values.map fun member => .wellFormed member.1 := by
  induction members generalizing values with
  | nil =>
    cases spelled
    rfl
  | cons member rest ih =>
    obtain ⟨key, d⟩ := member
    rw [memberValues?, Option.bind_eq_some_iff] at spelled
    obtain ⟨name, named, spelled⟩ := spelled
    obtain ⟨a, -, spelled⟩ := Option.bind_eq_some_iff.mp spelled
    obtain ⟨later, others, rfl⟩ := Option.map_eq_some_iff.mp spelled
    cases key with
    | wellFormed text =>
      cases named
      rw [List.map_cons, List.map_cons, ih others]
    | illFormed length => cases named

mutual
theorem value?_valid (d : Document) (valid : d.Valid) {a : Value} (spelled : d.value? = some a) : a.Valid := by
  cases d with
  | int n => exact value?_valid_int spelled
  | float text =>
    cases spelled
    exact valid
  | string text =>
    obtain ⟨text, -, rfl⟩ := Option.map_eq_some_iff.mp spelled
    trivial
  | array items =>
    obtain ⟨values, found, rfl⟩ := Option.map_eq_some_iff.mp spelled
    exact itemValues?_valid items valid found
  | object members =>
    obtain ⟨values, found, rfl⟩ := Option.map_eq_some_iff.mp spelled
    refine ⟨?_, memberValues?_valid members valid.2 found⟩
    have keyed := valid.1
    rw [memberValues?_keys found] at keyed
    refine List.Nodup.of_map Text.wellFormed ?_
    rwa [List.map_map]
  | nonfinite => cases spelled
  | _ =>
    cases spelled
    trivial
termination_by structural d

theorem itemValues?_valid (items : List Document) (valid : ItemsValid items) {values : List Value}
    (spelled : itemValues? items = some values) : Json.ValidItems values := by
  cases items with
  | nil =>
    cases spelled
    trivial
  | cons d rest =>
    obtain ⟨a, first, spelled⟩ := Option.bind_eq_some_iff.mp spelled
    obtain ⟨later, others, rfl⟩ := Option.map_eq_some_iff.mp spelled
    exact ⟨value?_valid d valid.1 first, itemValues?_valid rest valid.2 others⟩
termination_by structural items

theorem memberValues?_valid (members : List (Text × Document)) (valid : MembersValid members)
    {values : List (String × Value)} (spelled : memberValues? members = some values) :
    Json.ValidMembers values := by
  cases members with
  | nil =>
    cases spelled
    trivial
  | cons member rest =>
    obtain ⟨key, d⟩ := member
    obtain ⟨name, -, spelled⟩ := Option.bind_eq_some_iff.mp spelled
    obtain ⟨a, first, spelled⟩ := Option.bind_eq_some_iff.mp spelled
    obtain ⟨later, others, rfl⟩ := Option.map_eq_some_iff.mp spelled
    exact ⟨value?_valid d valid.1 first, memberValues?_valid rest valid.2 others⟩
termination_by structural members
end

/-- Equal values have one canonical encoding, or none. -/
theorem canonical_same {d e : Document} (valid : d.Valid) (same : Same d e) : d.canonical = e.canonical := by
  have related := (alike_of_same same).value
  unfold Document.canonical
  generalize spelled : d.value? = x at related
  generalize e.value? = y at related
  cases related with
  | none => rfl
  | some equal =>
    exact congrArg (fun text => some (encodeUtf8 text)) ((dumps_eq_iff_same (value?_valid d valid spelled)).mpr equal)

theorem sameMembers_length {members others : List (Text × Document)} (same : SameMembers members others) :
    members.length = others.length := by
  induction members generalizing others with
  | nil =>
    cases same
    rfl
  | cons member rest ih =>
    cases same with
    | cons _ later => rw [List.length_cons, List.length_cons, ih later]

theorem bounded_same {value other : List (Text × Document)} (valid : (Document.object value).Valid)
    (same : Same (.object value) (.object other)) : Bounded other ↔ Bounded value := by
  have alike := alike_of_same same
  have length : value.length = other.length := by
    cases same with
    | object perm equal => exact perm.length_eq.trans (sameMembers_length equal)
  constructor
  · rintro ⟨keys, depth, proper, members, encoded⟩
    rw [← length] at keys
    rw [← alike.height] at depth
    rw [← alike.proper] at proper
    rw [← alike.count] at members
    rw [← canonical_same valid same] at encoded
    exact ⟨keys, depth, proper, members, encoded⟩
  · rintro ⟨keys, depth, proper, members, encoded⟩
    rw [length] at keys
    rw [alike.height] at depth
    rw [alike.proper] at proper
    rw [alike.count] at members
    rw [canonical_same valid same] at encoded
    exact ⟨keys, depth, proper, members, encoded⟩

/-- The loop ends after as many passes as there are values, and the document is accepted exactly
when it is within the bounds; so is every document with the same members in another order, and in
whatever order the pending values are taken. -/
theorem boundedCapabilities_iff_bounded {arrange : List Node → List Node} (reorders : ∀ l, (arrange l).Perm l)
    {value other : List (Text × Document)} (valid : (Document.object value).Valid)
    (same : Same (.object value) (.object other)) : ∃ verdict,
    (∀ passes > ((Document.object other).nodes 0).length, boundedCapabilities arrange passes other = some verdict) ∧
      (verdict = .ok () ↔ Bounded value) := by
  obtain ⟨verdict, judged, iff⟩ := boundedCapabilities_iff reorders other
  exact ⟨verdict, judged, iff.trans (bounded_same valid same)⟩

/-- The source's order, and a document with its keys turned round. -/
theorem boundedCapabilities_iff_bounded_pair : ∃ verdict,
    (∀ passes > 3, boundedCapabilities id passes
      [(.wellFormed "b", .array []), (.wellFormed "a", .int 1)] = some verdict) ∧
      (verdict = .ok () ↔ Bounded [(.wellFormed "a", .int 1), (.wellFormed "b", .array [])]) := by
  have reorders : ∀ l : List Node, (id l).Perm l := fun l => .refl l
  have valid : (Document.object [(.wellFormed "a", .int 1), (.wellFormed "b", .array [])]).Valid :=
    ⟨by decide, trivial, trivial, trivial⟩
  have same : Same (.object [(.wellFormed "a", .int 1), (.wellFormed "b", .array [])])
      (.object [(.wellFormed "b", .array []), (.wellFormed "a", .int 1)]) :=
    .object (.swap _ _ _) (.cons (.array .nil) (.cons (.int 1) .nil))
  exact boundedCapabilities_iff_bounded reorders valid same

/-! ### The values of a transport document -/

mutual
/-- A number stays as it is spelled. -/
def ofValue : Value → Document
  | .null => .null
  | .bool b => .bool b
  | .number spelled => .float spelled
  | .string text => .string (.wellFormed text)
  | .array items => .array (ofItems items)
  | .object members => .object (ofMembers members)

def ofItems : List Value → List Document
  | [] => []
  | a :: rest => ofValue a :: ofItems rest

def ofMembers : List (String × Value) → List (Text × Document)
  | [] => []
  | (key, a) :: rest => (.wellFormed key, ofValue a) :: ofMembers rest
end

mutual
theorem value?_ofValue (a : Value) : (ofValue a).value? = some a := by
  cases a with
  | array items => rw [ofValue, Document.value?, itemValues?_ofItems items, Option.map_some]
  | object members => rw [ofValue, Document.value?, memberValues?_ofMembers members, Option.map_some]
  | _ => rfl
termination_by structural a

theorem itemValues?_ofItems (items : List Value) : itemValues? (ofItems items) = some items := by
  cases items with
  | nil => rfl
  | cons a rest =>
    rw [ofItems, itemValues?, value?_ofValue a, Option.bind_some, itemValues?_ofItems rest, Option.map_some]
termination_by structural items

theorem memberValues?_ofMembers (members : List (String × Value)) :
    memberValues? (ofMembers members) = some members := by
  cases members with
  | nil => rfl
  | cons member rest =>
    obtain ⟨key, a⟩ := member
    rw [ofMembers, memberValues?, Text.text?, Option.bind_some, value?_ofValue a, Option.bind_some,
      memberValues?_ofMembers rest, Option.map_some]
termination_by structural members
end

/-- `bounded_capabilities`, the last pending value first. A document has no more passes than
values. -/
def verdict (value : List (Text × Document)) : Except String Unit :=
  (boundedCapabilities id (((Document.object value).nodes 0).length + 1) value).getD (.error "")

theorem verdict_ok_iff (value : List (Text × Document)) : verdict value = .ok () ↔ Bounded value := by
  have reorders : ∀ l : List Node, (id l).Perm l := fun l => .refl l
  obtain ⟨result, judged, iff⟩ := boundedCapabilities_iff reorders value
  rw [verdict, judged _ (Nat.lt_succ_self _), Option.getD_some, iff]

theorem canonical_ofMembers (value : List (String × Value)) :
    (Document.object (ofMembers value)).canonical = some (encodeUtf8 (dumps (.object value))) := by
  have read := value?_ofValue (.object value)
  rw [ofValue] at read
  rw [Document.canonical, read, Option.map_some]

end Drivebound.Nodes.Capabilities
