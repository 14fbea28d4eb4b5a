import Drivebound.Desktop.Steady
import Mathlib

/-! The events of a root keep its clients following the journal, whatever they withhold from
them, as long as the pushes count from the committed cursor and what is drawn is new. -/
namespace Drivebound.Desktop
open Sync Run Latest

variable {ι π : Type} [DecidableEq ι] [DecidableEq π]

/-- The operations that an event withholds from a client: also those that a page leaves out, those
that the answer of a push passes, and those of a push whose answer nobody waits for. -/
def Clients.Withholds (env : Env π) (s : Clients ι π) : Event ι π → UUID → Prop
  | .net (.client i label), id => (s.network.machines i).Withholds env s.network.db label id
  | .net (.readPage i), id =>
    match (s.network.machines i).process with
    | .asked memory cursor => ∃ operation ∈ s.network.db.operations, operation.id = id ∧
      Foreign s.network.db memory.state.clientId operation ∧
        memory.state.cursor < operation.cursor ∧ operation.cursor ≤ cursor ∧
          operation ∉ s.network.db.page memory.state.cursor
    | _ => False
  | .net (.commit index _), id => ∃ flight ∈ s.network.flights[index]?,
    if flight.live then
      match (s.network.machines flight.client).process with
      | .pushing memory _ _ _ => ∃ operation ∈ s.network.db.operations, operation.id = id ∧
        Foreign s.network.db memory.state.clientId operation ∧
          memory.state.cursor < operation.cursor ∧
            (AllRecorded s.network.db flight.clientId flight.inputs →
              operation.cursor ≤ flight.loaded)
      | _ => False
    else id ∈ flight.inputs.map fun entry => entry.2.operation
  | _, _ => False

instance (env : Env π) (s : Clients ι π) (event : Event ι π) :
    DecidablePred (s.Withholds env event) := fun id => by
  unfold Clients.Withholds
  split
  · infer_instance
  · split <;> infer_instance
  · refine @Option.decidableExistsMem _ _ (fun flight => ?_) _
    split
    · split <;> infer_instance
    · infer_instance
  · infer_instance

/-- The push counts from the committed cursor, or repeats what is recorded, and its ids are new. -/
structure Counted (db : SyncDb) (flight : Flight ι) : Prop where
  counts : CountsFrom db (.push flight.clientId flight.inputs flight.loaded)
  ids : (flight.inputs.map fun entry => entry.1.operationId).Nodup
  unused : ∀ entry ∈ flight.inputs, ∀ operation ∈ db.operations,
    operation.operationId ≠ entry.1.operationId

/-- A client without a state file draws an id of its own, a push names its files as the schema
takes them, and it is counted when it commits. -/
def Orderly (env : Env π) (relative : π → Option String) (s : Clients ι π) : Event ι π → Prop
  | .net (.client i (.load _ drawn)) =>
    (s.network.machines i).filed = false → Unborn s.network drawn
  | .net (.commit index _) => ∀ flight ∈ s.network.flights[index]?, Counted s.network.db flight
  | .push i order draw fresh => NamesAccepted env relative s (.push i order draw fresh)
  | _ => True

omit [DecidableEq ι] in
instance (db : SyncDb) : DecidablePred (Counted db : Flight ι → Prop) := fun flight =>
  decidable_of_iff (CountsFrom db (.push flight.clientId flight.inputs flight.loaded) ∧
      (flight.inputs.map fun entry => entry.1.operationId).Nodup ∧
      ∀ entry ∈ flight.inputs, ∀ operation ∈ db.operations,
        operation.operationId ≠ entry.1.operationId)
    ⟨fun ⟨counts, ids, unused⟩ => ⟨counts, ids, unused⟩,
      fun counted => ⟨counted.counts, counted.ids, counted.unused⟩⟩

instance [Fintype ι] (s : Network ι π) : DecidablePred (Unborn s) := fun drawn =>
  decidable_of_iff ((∀ i, (s.machines i).name ≠ drawn) ∧
      ∀ operation ∈ s.db.operations, operation.clientId ≠ drawn)
    ⟨fun ⟨machines, operations⟩ => ⟨machines, operations⟩,
      fun unborn => ⟨unborn.machines, unborn.operations⟩⟩

instance [Fintype ι] (env : Env π) (relative : π → Option String) (s : Clients ι π) :
    DecidablePred (Orderly env relative s) := fun event => by
  unfold Orderly
  split <;> infer_instance

section Events

variable {env : Env π} {relative : π → Option String} {names : ι → String} {replaced : UUID → Prop}
  {s t : Clients ι π} {index : Nat} {now : Timestamp}

theorem commit_follows {network : Network ι π} (converging : Converging names replaced s.network)
    (orderly : Orderly env relative s (.net (.commit index now)))
    (lossless : ∀ id, s.Withholds env (.net (.commit index now)) id → replaced id)
    (stepped : s.network.step env (.commit index now) = some network) :
    Converging names replaced network := by
  refine commit_converging converging (fun flight found => ?_) (fun flight found dead entry
    member => lossless _ ?_) (fun flight found live memory operations proposed loaded pushing
    operation member foreign beyond short => lossless _ ?_) stepped
  · have counted := orderly flight found
    refine ⟨counted.counts, by rw [List.map_map]; exact counted.ids, fun input there => ?_⟩
    obtain ⟨entry, here, rfl⟩ := List.mem_map.mp there
    exact counted.unused entry here
  · refine ⟨flight, found, ?_⟩
    rw [if_neg (by rw [dead]; exact Bool.false_ne_true)]
    exact List.mem_map_of_mem member
  · refine ⟨flight, found, ?_⟩
    rw [if_pos live, pushing]
    exact ⟨operation, member, rfl, foreign, beyond, short⟩

theorem readPage_follows {i : ι} {network : Network ι π}
    (converging : Converging names replaced s.network)
    (lossless : ∀ id, s.Withholds env (.net (.readPage i)) id → replaced id)
    (stepped : s.network.step env (.readPage i) = some network) :
    Converging names replaced network := by
  refine readPage_converging converging (fun memory cursor asked => ?_) stepped
  intro operation member foreign beyond reached
  by_cases listed : operation ∈ s.network.db.page memory.state.cursor
  · exact .inl listed
  · refine .inr (lossless _ ?_)
    simp only [Clients.Withholds, asked]
    exact ⟨operation, member, rfl, foreign, beyond, reached, listed⟩

/-- An event keeps the clients following, unless it withholds what is not replaced. -/
theorem event_converging {event : Event ι π} (converging : Converging names replaced s.network)
    (orderly : Orderly env relative s event) (lossless : ∀ id, s.Withholds env event id → replaced id)
    (stepped : s.step env relative event = some t) :
    ∃ names, Converging names replaced t.network := by
  cases event with
  | upload asset =>
    obtain ⟨assets, inserted, rfl⟩ := Option.map_eq_some_iff.mp stepped
    exact ⟨names, upload_converging converging (Checked.toOption_some_iff.mp inserted)⟩
  | push i order draw fresh =>
    obtain ⟨memory, operations, proposed, network, pushes, ⟨_, skipped, rfl⟩ | ⟨pushed, rfl⟩⟩ :=
      push_cases stepped orderly
    · have delivers : Delivers env (s.network.machines i) .skipPush := trivial
      have nothing : ∀ id, (s.network.machines i).Withholds env s.network.db .skipPush id → replaced id :=
        fun _ withheld => withheld.elim
      exact client_converging converging delivers nothing (fun _ _ same => by cases same) skipped
    · exact ⟨names, push_converging converging pushes.process (scan_distinct ..) pushes.computed
        pushes.uploaded pushed⟩
  | net label =>
    cases label with
    | push i inputs proposed => contradiction
    | client i label =>
      simp only [Clients.step] at stepped
      split at stepped
      · rename_i delivers
        obtain ⟨network, moved, rfl⟩ := Option.map_eq_some_iff.mp stepped
        refine client_converging converging delivers lossless (fun rootId drawn same => ?_) moved
        subst same
        exact orderly
      · contradiction
    | readRoot i =>
      obtain ⟨network, moved, rfl⟩ := Option.map_eq_some_iff.mp stepped
      exact ⟨names, readRoot_converging converging moved⟩
    | readPage i =>
      obtain ⟨network, moved, rfl⟩ := Option.map_eq_some_iff.mp stepped
      exact ⟨names, readPage_follows converging lossless moved⟩
    | commit index now =>
      obtain ⟨network, moved, rfl⟩ := Option.map_eq_some_iff.mp stepped
      exact ⟨names, commit_follows converging orderly lossless moved⟩
    | drop index =>
      obtain ⟨network, moved, rfl⟩ := Option.map_eq_some_iff.mp stepped
      exact ⟨names, drop_converging converging moved⟩

end Events

/-- A root that is registered and that nobody has pushed to, with clients of their own names. -/
structure Begins (s : Clients ι π) : Prop where
  operations : ∀ operation ∈ s.network.db.operations, operation.rootId ≠ s.network.db.root.id
  items : ∀ item ∈ s.network.db.items, item.rootId ≠ s.network.db.root.id
  keys : (s.network.db.operations.map SyncOperation.id).Nodup
  itemIds : (s.network.db.items.map SyncItem.id).Nodup
  assetIds : (s.network.db.assets.map Asset.id).Nodup
  undecided : Undecided s.network.db
  apart : ∀ i j, (s.network.machines i).saved.state.clientId =
    (s.network.machines j).saved.state.clientId → i = j
  stopped : ∀ i, (s.network.machines i).process = .stopped
  entries : ∀ i, (s.network.machines i).saved.state.entries = []
  cursors : ∀ i, (s.network.machines i).saved.state.cursor ≤ s.network.db.root.cursor
  idle : s.network.flights = []

omit [DecidableEq ι] [DecidableEq π] in
theorem Begins.converging {s : Clients ι π} (begins : Begins s) (replaced : UUID → Prop) :
    Converging (fun i => (s.network.machines i).saved.state.clientId) replaced s.network := by
  have effective : s.network.db.effective = [] :=
    List.filter_eq_nil_iff.mpr fun operation member holds =>
      begins.operations operation member (of_decide_eq_true holds).1
  have none : ∀ logicalId operation, ¬ Standing s.network.db logicalId operation := by
    intro logicalId operation standing
    have member := standing.member
    rw [effective] at member
    exact List.not_mem_nil member
  refine ⟨⟨⟨begins.keys, fun a here b there root => absurd root (begins.operations a here),
      fun a here root => absurd root (begins.operations a here)⟩,
      fun operation member root => absurd root (begins.operations operation member), begins.itemIds,
      begins.assetIds, fun logicalId operation standing => absurd standing (none _ _),
      fun logicalId item found => ?_, fun operation member root => absurd root (begins.operations operation member),
      begins.undecided⟩, fun operation member => ?_, begins.apart,
    fun i => ⟨⟨rfl, begins.cursors i, ?_, .nil, fun _ member => absurd member List.not_mem_nil,
      fun logicalId operation standing => absurd standing (none _ _)⟩, ?_⟩, ?_, ?_⟩
  · obtain ⟨member, root, _⟩ := item?_found found
    exact absurd root (begins.items item member)
  · rw [effective] at member
    exact absurd member List.not_mem_nil
  · rw [begins.entries i]
    exact fun _ member => absurd member List.not_mem_nil
  · rw [begins.stopped i]
    trivial
  · rw [begins.idle]
    exact fun _ member => absurd member List.not_mem_nil
  · rw [begins.idle]
    exact .nil

/-- A digest that keeps the bytes apart. -/
def byteEnv : Env String where
  resolve path := path
  inside _ := true
  sha256 content := String.ofList (content.map fun byte => Char.ofNat byte.toNat)

/-- The asset that the upload of the content gives. -/
def stored (id : UUID) (content : List UInt8) : Asset :=
  { uploadedAsset id with checksum := byteEnv.sha256 content, fileSize := content.length }

end Drivebound.Desktop
