import Drivebound.Desktop.Delivery
import Drivebound.Desktop.Proposals
import Drivebound.Sync.Standing

/-! What the entries of a client say of the journal. The client follows it up to a cursor: of
each item it shows the standing operation, unless that is still to be pulled, or is one that
another one has to replace because it was withheld from some client. -/
namespace Drivebound.Desktop
open Sync Latest Checked

/-- The entry that the operation leaves. -/
structure EntryOf (operation : SyncOperation) (entry : Entry) : Prop where
  present : operation.kind ≠ .delete
  revision : entry.revision = operation.revision
  path : operation.payload.relativePath = some entry.relativePath
  content : entry.fingerprint.checksum = operation.payload.checksum

structure Showing (state : ClientState) (operation : SyncOperation) : Prop where
  deleted : operation.kind = .delete → state.entries.get? operation.logicalId = none
  live : operation.kind ≠ .delete → ∃ entry,
    state.entries.get? operation.logicalId = some entry ∧ EntryOf operation entry

theorem Showing.congr {state after : ClientState} {operation : SyncOperation}
    (showing : Showing state operation)
    (same : after.entries.get? operation.logicalId = state.entries.get? operation.logicalId) :
    Showing after operation :=
  ⟨fun delete => same.trans (showing.deleted delete), fun stays => same ▸ showing.live stays⟩

/-- Every entry is left by an operation that is in effect. -/
def Traced (db : SyncDb) (entries : Dict UUID Entry) : Prop :=
  ∀ tracked ∈ entries, ∃ operation ∈ db.effective, operation.logicalId = tracked.1 ∧
    EntryOf operation tracked.2

namespace Traced

variable {db after : SyncDb} {entries : Dict UUID Entry} {operation : SyncOperation} {entry : Entry}

theorem grows {new : SyncOperation → Prop} (traced : Traced db entries) (grows : Grows db after new) :
    Traced after entries := by
  intro tracked member
  obtain ⟨operation, here, same⟩ := traced tracked member
  exact ⟨operation, grows.kept operation here, same⟩

theorem pop (traced : Traced db entries) (logicalId : UUID) : Traced db (entries.pop logicalId) :=
  fun tracked member => traced tracked (Dict.mem_pop member)

theorem set (traced : Traced db entries) (member : operation ∈ db.effective)
    (recorded : EntryOf operation entry) : Traced db (entries.set operation.logicalId entry) := by
  intro tracked here
  rcases Dict.mem_set here with rfl | before
  · exact ⟨operation, member, rfl, recorded⟩
  · exact traced tracked before

end Traced

/-- An operation that a pull passes on to the folder. -/
def Arrives (name : String) (operation : SyncOperation) : Prop :=
  operation.status = .applied ∧ operation.clientId ≠ name

/-- Of each item, what the state of the client says of its standing operation. -/
inductive Kept (replaced : UUID → Prop) (name : String) (state : ClientState) (limit : Nat)
    (pending : List SyncOperation) (operation : SyncOperation) : Prop
  | replaced (other : replaced operation.id)
  | ahead (foreign : operation.clientId ≠ name) (beyond : limit < operation.cursor)
  | pending (foreign : operation.clientId ≠ name) (member : operation ∈ pending)
  | shown (showing : Showing state operation)
      (own : operation.clientId = name → operation.cursor ≤ limit)
      (last : ∀ other ∈ pending, Arrives name other → other.logicalId ≠ operation.logicalId)

structure Follows (db : SyncDb) (replaced : UUID → Prop) (name : String) (state : ClientState)
    (limit : Nat) (pending : List SyncOperation) : Prop where
  named : state.clientId = name
  bounded : limit ≤ db.root.cursor
  traced : Traced db state.entries
  ordered : pending.Pairwise fun a b => a.cursor < b.cursor
  effective : ∀ operation ∈ pending, operation.status = .applied → operation ∈ db.effective
  kept : ∀ logicalId operation, Standing db logicalId operation →
    Kept replaced name state limit pending operation

variable {db after : SyncDb} {replaced : UUID → Prop} {name : String} {state : ClientState}
  {limit : Nat} {pending : List SyncOperation} {operation : SyncOperation}

theorem Kept.mono {other : UUID → Prop} (kept : Kept replaced name state limit pending operation)
    (more : replaced operation.id → other operation.id) :
    Kept other name state limit pending operation := by
  cases kept with
  | replaced replaced => exact .replaced (more replaced)
  | ahead foreign beyond => exact .ahead foreign beyond
  | pending foreign member => exact .pending foreign member
  | shown showing own last => exact .shown showing own last

namespace Follows

/-- A state with the same entries. -/
theorem restate (follows : Follows db replaced name state limit pending) {other : ClientState}
    (named : other.clientId = state.clientId) (entries : other.entries = state.entries) :
    Follows db replaced name other limit pending := by
  refine ⟨named.trans follows.named, follows.bounded, entries ▸ follows.traced, follows.ordered,
    follows.effective, fun logicalId operation standing => ?_⟩
  cases follows.kept logicalId operation standing with
  | replaced replaced => exact .replaced replaced
  | ahead foreign beyond => exact .ahead foreign beyond
  | pending foreign member => exact .pending foreign member
  | shown showing own last => exact .shown (showing.congr (by rw [entries])) own last

/-- Operations that come into effect are ahead of the client, or have to be replaced. -/
theorem grows {other : UUID → Prop} {new : SyncOperation → Prop}
    (follows : Follows db replaced name state limit pending) (grows : Grows db after new)
    (advances : db.root.cursor ≤ after.root.cursor) (more : ∀ id, replaced id → other id)
    (ahead : ∀ operation ∈ after.effective, new operation → db.root.cursor < operation.cursor ∧
      (other operation.id ∨ operation.clientId ≠ name)) :
    Follows after other name state limit pending := by
  refine ⟨follows.named, follows.bounded.trans advances, follows.traced.grows grows, follows.ordered,
    fun operation member applied => grows.kept operation (follows.effective operation member applied),
    fun logicalId operation standing => ?_⟩
  rcases grows.new operation standing.member with before | here
  · exact (follows.kept logicalId operation (standing.of_subset grows.kept before)).mono (more _)
  · obtain ⟨beyond, withheld | foreign⟩ := ahead operation standing.member here
    · exact .replaced withheld
    · exact .ahead foreign (follows.bounded.trans_lt beyond)

/-- The first pending operation is dealt with. -/
theorem next {other : ClientState}
    (follows : Follows db replaced name state limit (operation :: pending))
    (named : other.clientId = state.clientId) (traced : Traced db other.entries)
    (others : ∀ logicalId, ¬ (Arrives name operation ∧ operation.logicalId = logicalId) →
      other.entries.get? logicalId = state.entries.get? logicalId)
    (arrives : Arrives name operation → replaced operation.id ∨ Showing other operation) :
    Follows db replaced name other limit pending := by
  obtain ⟨first, ordered⟩ := List.pairwise_cons.mp follows.ordered
  refine ⟨named.trans follows.named, follows.bounded, traced, ordered, fun later member =>
    follows.effective later (List.mem_cons_of_mem _ member), fun logicalId standing stands => ?_⟩
  cases follows.kept logicalId standing stands with
  | replaced replaced => exact .replaced replaced
  | ahead foreign beyond => exact .ahead foreign beyond
  | pending foreign member =>
    rcases List.mem_cons.mp member with rfl | later
    · rcases arrives ⟨(mem_effective.mp stands.member).2.2, foreign⟩ with withheld | showing
      · exact .replaced withheld
      · refine .shown showing (fun own => absurd own foreign) fun later member arrives same => ?_
        -- A later pending operation of the item would stand in its place.
        have effective := follows.effective later (List.mem_cons_of_mem _ member) arrives.1
        have below := stands.greatest later effective (same.trans stands.named)
        exact absurd (first later member) (Nat.not_lt.mpr below)
    · exact .pending foreign later
  | shown showing own last =>
    refine .shown (showing.congr (others _ fun ⟨here, same⟩ => ?_)) own fun later member =>
      last later (List.mem_cons_of_mem _ member)
    exact last operation List.mem_cons_self here same

end Follows

theorem mem_page {cursor count : Nat} (member : operation ∈ db.page cursor count) :
    operation ∈ db.operations ∧ operation.rootId = db.root.id ∧ cursor < operation.cursor := by
  have sorted := List.mem_of_mem_take member
  rw [List.mem_insertionSort, List.mem_filter, decide_eq_true_eq] at sorted
  exact sorted

/-- A page has the operations in the order of their cursors. -/
theorem page_ordered {bound : Nat} (issued : Issued db.root.id db.operations bound)
    (cursor count : Nat) : (db.page cursor count).Pairwise fun a b => a.cursor < b.cursor := by
  have total : Std.Total fun a b : SyncOperation => a.cursor ≤ b.cursor :=
    ⟨fun a b => Nat.le_total a.cursor b.cursor⟩
  have trans : IsTrans SyncOperation fun a b => a.cursor ≤ b.cursor :=
    ⟨fun _ _ _ => Nat.le_trans⟩
  have sublist : (db.page cursor count).Sublist _ := List.take_sublist ..
  have nodup : (db.page cursor count).Nodup := by
    refine sublist.nodup ((List.perm_insertionSort _ _).nodup_iff.mpr ?_)
    exact (List.Nodup.of_map _ issued.keys).filter _
  have sorted : (db.page cursor count).Pairwise fun a b => a.cursor ≤ b.cursor :=
    (List.pairwise_insertionSort _ _).sublist sublist
  refine (sorted.and nodup).imp_of_mem fun {a b} here there both => ?_
  obtain ⟨first, root, _⟩ := mem_page here
  obtain ⟨second, root', _⟩ := mem_page there
  refine Nat.lt_of_le_of_ne both.1 fun same => both.2 ?_
  exact issued.unique first second root root' same

/-- A pull begins with the page that it reads, unless what the page leaves out is replaced. -/
theorem Follows.read {bound cursor count : Nat} (follows : Follows db replaced name state state.cursor [])
    (issued : Issued db.root.id db.operations bound) (below : cursor ≤ db.root.cursor)
    (reaches : ∀ operation ∈ db.operations, Foreign db name operation →
      state.cursor < operation.cursor → operation.cursor ≤ cursor →
        operation ∈ db.page state.cursor count ∨ replaced operation.id) :
    Follows db replaced name state (max state.cursor cursor) (db.page state.cursor count) := by
  refine ⟨follows.named, Nat.max_le.mpr ⟨follows.bounded, below⟩, follows.traced,
    page_ordered issued _ _, fun operation member applied => ?_, fun logicalId operation standing => ?_⟩
  · obtain ⟨here, root, _⟩ := mem_page member
    exact mem_effective.mpr ⟨here, root, applied⟩
  · obtain ⟨here, root, applied⟩ := mem_effective.mp standing.member
    have later (foreign : operation.clientId ≠ name) (beyond : state.cursor < operation.cursor) :
        Kept replaced name state (max state.cursor cursor) (db.page state.cursor count) operation := by
      by_cases reached : operation.cursor ≤ cursor
      · rcases reaches operation here ⟨root, applied, foreign⟩ beyond reached with member | withheld
        · exact .pending foreign member
        · exact .replaced withheld
      · exact .ahead foreign (Nat.max_lt.mpr ⟨beyond, Nat.lt_of_not_le reached⟩)
    cases follows.kept logicalId operation standing with
    | replaced replaced => exact .replaced replaced
    | ahead foreign beyond => exact later foreign beyond
    | pending foreign member => exact absurd member List.not_mem_nil
    | shown showing own _ =>
      by_cases known : operation.cursor ≤ state.cursor
      · refine .shown showing (fun _ => known.trans (Nat.le_max_left ..)) fun other member arrives same => ?_
        obtain ⟨present, rootOther, beyond⟩ := mem_page member
        have below := standing.greatest other (mem_effective.mpr ⟨present, rootOther, arrives.1⟩)
          (same.trans standing.named)
        omega
      · exact later (fun mine => known (own mine)) (Nat.lt_of_not_le known)

section Pulls

variable {π : Type} [DecidableEq π]

/-- What a plan says of the operation that it is for. -/
inductive Plans (state : ClientState) (operation : SyncOperation) : Plan π → Prop
  | passed (own : ¬ Arrives state.clientId operation) : Plans state operation .passed
  | untracked (delete : operation.kind = .delete)
      (missing : state.entries.get? operation.logicalId = none) : Plans state operation .untracked
  | ignored : Plans state operation .ignored
  | conflict (message : String) : Plans state operation (.conflict message)
  | unlink (path : π) (arrives : Arrives state.clientId operation) (delete : operation.kind = .delete) :
      Plans state operation (.unlink path)
  | download (relativePath : String) (destination : π) (arrives : Arrives state.clientId operation)
      (stays : operation.kind ≠ .delete) (path : operation.payload.relativePath = some relativePath) :
      Plans state operation (.download relativePath destination)

theorem planContent_plans (env : Env π) (folder : Folder π) (state : ClientState)
    (operation : SyncOperation) (current : Option Entry) (arrives : Arrives state.clientId operation)
    (stays : operation.kind ≠ .delete) :
    Plans state operation (planContent env folder current operation.payload) := by
  unfold planContent
  split
  · rename_i relativePath url path _
    split_ifs
    · exact .ignored
    · exact .conflict _
    · exact .download relativePath _ arrives stays path
  · exact .ignored

theorem plan_plans (env : Env π) (folder : Folder π) (state : ClientState) (operation : SyncOperation) :
    Plans state operation (plan env folder state operation) := by
  unfold plan
  split_ifs with passed
  · exact .passed fun arrives => passed.elim (fun other => other arrives.1) arrives.2
  · obtain ⟨applied, foreign⟩ := not_or.mp passed
    have arrives : Arrives state.clientId operation := ⟨not_not.mp applied, foreign⟩
    split
    · rename_i delete
      unfold planDelete
      split
      · rename_i missing
        exact .untracked delete missing
      · split_ifs
        · exact .unlink _ arrives delete
        · exact .conflict _
    · rename_i kind
      exact planContent_plans _ _ _ _ _ arrives (by rw [kind]; intro same; cases same)
    · rename_i kind
      exact planContent_plans _ _ _ _ _ arrives (by rw [kind]; intro same; cases same)

/-- The operation that is downloaded. -/
structure Downloads (name : String) (operation : SyncOperation) (relativePath : String) : Prop where
  arrives : Arrives name operation
  stays : operation.kind ≠ .delete
  path : operation.payload.relativePath = some relativePath

/-- The running client follows the journal. -/
def Process.Steady (db : SyncDb) (replaced : UUID → Prop) (name : String) : Process π → Prop
  | .stopped => True
  | .ready memory | .pulled memory | .acknowledged memory | .pushing memory _ _ _ =>
    Follows db replaced name memory.state memory.state.cursor []
  | .asked memory cursor =>
    Follows db replaced name memory.state memory.state.cursor [] ∧ cursor ≤ db.root.cursor
  | .pulling memory pending cursor _ =>
    Follows db replaced name memory.state (max memory.state.cursor cursor) pending
  | .unlinking memory operation _ pending cursor _ =>
    Follows db replaced name memory.state (max memory.state.cursor cursor) (operation :: pending) ∧
      Arrives name operation ∧ operation.kind = .delete
  | .downloading memory operation relativePath _ pending cursor _ =>
    Follows db replaced name memory.state (max memory.state.cursor cursor) (operation :: pending) ∧
      Downloads name operation relativePath
  | .answered memory operations proposed result =>
    Follows db replaced name (applyPushResult memory.state operations proposed result)
      (applyPushResult memory.state operations proposed result).cursor []

/-- The examined operation is not refused, or has to be replaced. -/
def Admits (env : Env π) (folder : Folder π) (state : ClientState) (operation : SyncOperation) : Prop :=
  match plan env folder state operation with
  | .ignored | .conflict _ => False
  | .passed | .untracked | .unlink _ | .download _ _ => True

theorem examine_steady {env : Env π} {folder : Folder π} {memory : Memory π} {cursor : Nat}
    {conflicts : List UUID}
    (follows : Follows db replaced name memory.state (max memory.state.cursor cursor)
      (operation :: pending))
    (admits : Admits env folder memory.state operation ∨ replaced operation.id) :
    (examine env folder memory operation pending cursor conflicts).Steady db replaced name := by
  have plans := plan_plans env folder memory.state operation
  unfold Admits at admits
  simp only [examine]
  have same (state : ClientState) (named : state.clientId = memory.state.clientId)
      (entries : state.entries = memory.state.entries)
      (arrives : Arrives name operation → replaced operation.id ∨ Showing memory.state operation) :
      Follows db replaced name state (max memory.state.cursor cursor) pending :=
    (follows.next rfl follows.traced (fun _ _ => rfl) arrives).restate named entries
  cases planned : plan env folder memory.state operation with
  | passed =>
    rw [planned] at plans
    cases plans with
    | passed own =>
      rw [follows.named] at own
      exact same _ rfl rfl fun arrives => absurd arrives own
  | untracked =>
    rw [planned] at plans
    cases plans with
    | untracked delete missing =>
      exact same _ rfl rfl fun _ => .inr ⟨fun _ => missing, fun stays => absurd delete stays⟩
  | ignored =>
    rw [planned] at admits
    exact same _ rfl rfl fun _ => .inl (admits.resolve_left id)
  | conflict message =>
    rw [planned] at admits
    exact same _ rfl rfl fun _ => .inl (admits.resolve_left id)
  | unlink path =>
    rw [planned] at plans
    cases plans with
    | unlink _ arrives delete =>
      rw [follows.named] at arrives
      exact ⟨follows, arrives, delete⟩
  | download relativePath destination =>
    rw [planned] at plans
    cases plans with
    | download _ _ arrives stays path =>
      rw [follows.named] at arrives
      exact ⟨follows, arrives, stays, path⟩

omit [DecidableEq π] in
/-- An item that is deleted leaves the state with its file. -/
theorem unlink_steady {memory : Memory π} {cursor : Nat}
    (follows : Follows db replaced name memory.state (max memory.state.cursor cursor)
      (operation :: pending))
    (arrives : Arrives name operation) (delete : operation.kind = .delete) :
    Follows db replaced name
      { memory.state with entries := memory.state.entries.pop operation.logicalId }
      (max memory.state.cursor cursor) pending := by
  refine follows.next rfl (follows.traced.pop _) (fun logicalId other => ?_) fun _ => .inr ?_
  · exact Dict.get?_pop_other _ fun same => other ⟨arrives, same.symm⟩
  · exact ⟨fun _ => Dict.get?_pop_self .., fun stays => absurd delete stays⟩

omit [DecidableEq π] in
/-- A download that delivers the content of its operation. -/
theorem deliver_steady {env : Env π} {memory : Memory π} {cursor : Nat} {relativePath : String}
    {file : LocalFile}
    (follows : Follows db replaced name memory.state (max memory.state.cursor cursor)
      (operation :: pending))
    (downloads : Downloads name operation relativePath)
    (content : some (env.sha256 file.content) = operation.payload.checksum) :
    Follows db replaced name (memory.state.recordDownload env operation relativePath file)
      (max memory.state.cursor cursor) pending := by
  obtain ⟨arrives, stays, path⟩ := downloads
  have effective := follows.effective operation List.mem_cons_self arrives.1
  have recorded : EntryOf operation
      { relativePath, revision := operation.revision
        fingerprint := file.fingerprint (some (env.sha256 file.content)) } :=
    ⟨stays, rfl, path, content⟩
  refine follows.next rfl (follows.traced.set effective recorded) (fun logicalId other => ?_)
    fun _ => .inr ⟨fun delete => absurd delete stays, fun _ => ⟨_, Dict.get?_set_self .., recorded⟩⟩
  exact Dict.get?_set_other _ _ fun same => other ⟨arrives, same.symm⟩

end Pulls

end Drivebound.Desktop
