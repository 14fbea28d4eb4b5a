import Drivebound.Desktop.Network
import Drivebound.Desktop.PullGuard
import Drivebound.Sync.Cursors

/-! Which operations a client has dealt with when it stores a cursor. Everything
below the cursor must have gone through `pull_remote`; a pull answers with a page
but with the cursor of the whole root, and so does a push, which may pass
operations that other clients committed meanwhile. -/
namespace Drivebound.Desktop
open Sync Run

variable {ι π : Type} [DecidableEq ι] [DecidableEq π]

/-- An applied operation of the root by another client. -/
def Foreign (db : SyncDb) (name : String) (operation : SyncOperation) : Prop :=
  operation.rootId = db.root.id ∧ operation.status = .applied ∧ operation.clientId ≠ name

instance (db : SyncDb) (name : String) : DecidablePred (Foreign db name) := fun operation =>
  inferInstanceAs (Decidable (operation.rootId = db.root.id ∧ _ ∧ _))

/-- The operation was applied, was void for this client or became a conflict. -/
def Plan.settles : Plan π → Bool
  | .passed | .ignored => false
  | .untracked | .conflict _ | .unlink _ | .download _ _ => true

def Handled (memory : Memory π) (operation : SyncOperation) : Prop :=
  ∃ how, (operation, how) ∈ memory.handled ∧ how.settles

/-- Every foreign operation up to `limit` is handled or still pending. -/
structure Covered (db : SyncDb) (name : String) (memory : Memory π) (limit : Nat)
    (pending : List SyncOperation) : Prop where
  named : memory.state.clientId = name
  bounded : limit ≤ db.root.cursor
  reached : ∀ operation ∈ db.operations, Foreign db name operation → operation.cursor ≤ limit →
    Handled memory operation ∨ operation ∈ pending

/-- What a client has in memory is covered up to its cursor. -/
abbrev Safe (db : SyncDb) (name : String) (memory : Memory π) : Prop :=
  Covered db name memory memory.state.cursor []

/-- No operation of the root is at cursor 0, where a new state begins. -/
def Positive (db : SyncDb) : Prop :=
  ∀ operation ∈ db.operations, operation.rootId = db.root.id → 0 < operation.cursor

def Process.Sane (db : SyncDb) (name : String) : Process π → Prop
  | .stopped => True
  | .ready memory | .pulled memory | .acknowledged memory | .pushing memory _ _ _ =>
    Safe db name memory
  | .asked memory cursor => Safe db name memory ∧ cursor ≤ db.root.cursor
  | .pulling memory pending cursor _ =>
    Covered db name memory (max memory.state.cursor cursor) pending
  | .unlinking memory operation _ pending cursor _
  | .downloading memory operation _ _ pending cursor _ =>
    Covered db name memory (max memory.state.cursor cursor) (operation :: pending)
  | .answered memory _ _ result =>
    Covered db name memory (max memory.state.cursor result.cursor) []

/-- The client id of the state file, or of the last run where there is none. -/
abbrev Machine.name (m : Machine π) : String := m.saved.state.clientId

structure Machine.Sane (db : SyncDb) (m : Machine π) : Prop where
  saved : Safe db m.name m.saved
  process : m.process.Sane db m.name
  unfiled : m.filed = false → Positive db

/-- What a step needs from the answer it receives, and an examined operation that
can be delivered. -/
def Honest (env : Env π) (db : SyncDb) (name : String) (m : Machine π) : Label π → Prop
  | .readRoot cursor => cursor ≤ db.root.cursor
  | .readPage operations _ =>
    match m.process with
    | .asked memory cursor => ∀ operation ∈ db.operations, Foreign db name operation →
      memory.state.cursor < operation.cursor → operation.cursor ≤ cursor → operation ∈ operations
    | _ => True
  | .examine =>
    match m.process with
    | .pulling memory (operation :: _) _ _ =>
      plan env m.folder memory.state operation ≠ .ignored
    | _ => True
  | .answerPush result =>
    match m.process with
    | .pushing memory _ _ _ => Covered db name memory (max memory.state.cursor result.cursor) []
    | _ => True
  | _ => True

omit [DecidableEq π] in
instance (memory : Memory π) : DecidablePred (Handled memory) := fun operation =>
  decidable_of_iff (∃ entry ∈ memory.handled, entry.1 = operation ∧ entry.2.settles) <| by
    constructor
    · rintro ⟨⟨_, how⟩, member, rfl, settles⟩
      exact ⟨how, member, settles⟩
    · rintro ⟨how, member, settles⟩
      exact ⟨_, member, rfl, settles⟩

omit [DecidableEq π] in
theorem Handled.handle {memory : Memory π} (handled : Handled memory operation)
    (other : SyncOperation) (how : Plan π) (state : ClientState) :
    Handled (memory.handle other how state) operation := by
  obtain ⟨chosen, member, settles⟩ := handled
  exact ⟨chosen, List.mem_append_left _ member, settles⟩

omit [DecidableEq π] in
/-- The first pending operation is dealt with. -/
theorem Covered.handle {memory : Memory π} {state : ClientState} {how : Plan π}
    (covered : Covered db name memory limit (operation :: pending))
    (settles : Foreign db name operation → how.settles)
    (same : state.clientId = memory.state.clientId) :
    Covered db name (memory.handle operation how state) limit pending := by
  refine ⟨same.trans covered.named, covered.bounded, ?_⟩
  intro other member foreign below
  rcases covered.reached other member foreign below with handled | pending
  · exact .inl (handled.handle ..)
  · rcases List.mem_cons.mp pending with rfl | later
    · refine .inl ⟨how, ?_, settles foreign⟩
      exact List.mem_append_right _ (List.mem_singleton.mpr rfl)
    · exact .inr later

theorem planDelete_settles (env : Env π) (folder : Folder π) (current : Option Entry) :
    (planDelete env folder current).settles := by
  unfold planDelete
  split
  · rfl
  · split <;> rfl

theorem planContent_settles (env : Env π) (folder : Folder π) (current : Option Entry)
    (payload : Payload) (deliverable : planContent env folder current payload ≠ .ignored) :
    (planContent env folder current payload).settles := by
  revert deliverable
  unfold planContent
  split
  · split_ifs <;> simp [Plan.settles]
  · simp

theorem plan_settles {env : Env π} {folder : Folder π} {state : ClientState}
    (deliverable : plan env folder state operation ≠ .ignored)
    (foreign : Foreign db state.clientId operation) :
    (plan env folder state operation).settles := by
  unfold plan at *
  split
  · rename_i passed
    rcases passed with unapplied | own
    · exact absurd foreign.2.1 unapplied
    · exact absurd own foreign.2.2
  · rename_i passed
    rw [if_neg passed] at deliverable
    split
    · exact planDelete_settles ..
    · rename_i kind
      rw [kind] at deliverable
      exact planContent_settles _ _ _ _ deliverable
    · rename_i kind
      rw [kind] at deliverable
      exact planContent_settles _ _ _ _ deliverable

/-- One examined operation keeps the pull covered. -/
theorem examine_sane {env : Env π} {folder : Folder π} {memory : Memory π}
    (covered : Covered db name memory (max memory.state.cursor cursor) (operation :: pending))
    (deliverable : plan env folder memory.state operation ≠ .ignored) :
    (examine env folder memory operation pending cursor conflicts).Sane db name := by
  have settles : Foreign db name operation →
      (plan env folder memory.state operation).settles = true := by
    intro foreign
    rw [← covered.named] at foreign
    exact plan_settles deliverable foreign
  simp only [examine]
  split
  all_goals
    rename_i planned
    rw [planned] at settles
  · exact planned ▸ covered.handle settles rfl
  · exact planned ▸ covered.handle settles rfl
  · exact planned ▸ covered.handle settles rfl
  · exact planned ▸ covered.handle settles rfl
  · exact covered
  · exact covered

theorem acknowledgeOne_keeps (proposed : Dict UUID Proposal) (state : ClientState)
    (operation : SyncOperation) :
    (acknowledgeOne proposed state operation).clientId = state.clientId ∧
      (acknowledgeOne proposed state operation).cursor = state.cursor := by
  unfold acknowledgeOne
  split
  · exact ⟨rfl, rfl⟩
  · split
    · exact ⟨rfl, rfl⟩
    · split <;> exact ⟨rfl, rfl⟩

theorem acknowledge_keeps (proposed : Dict UUID Proposal) (operations : List SyncOperation)
    (state : ClientState) :
    (operations.foldl (acknowledgeOne proposed) state).clientId = state.clientId ∧
      (operations.foldl (acknowledgeOne proposed) state).cursor = state.cursor := by
  induction operations generalizing state with
  | nil => exact ⟨rfl, rfl⟩
  | cons operation rest ih =>
    obtain ⟨named, cursor⟩ := acknowledgeOne_keeps proposed state operation
    obtain ⟨laterNamed, laterCursor⟩ := ih (acknowledgeOne proposed state operation)
    exact ⟨laterNamed.trans named, laterCursor.trans cursor⟩

omit [DecidableEq π] in
theorem applyPushResult_covered {memory : Memory π}
    (covered : Covered db name memory (max memory.state.cursor result.cursor) []) :
    Safe db name { memory with
      state := applyPushResult memory.state operations proposed result } := by
  obtain ⟨named, cursor⟩ := acknowledge_keeps proposed result.operations memory.state
  have same : (applyPushResult memory.state operations proposed result).cursor =
      max memory.state.cursor result.cursor := by
    simp only [applyPushResult, cursor]
  refine ⟨named.trans covered.named, ?_, ?_⟩
  · simp only [same]
    exact covered.bounded
  · simp only [same]
    exact covered.reached

omit [DecidableEq π] in
/-- A template has nothing behind its cursor. -/
theorem loadState_sane {m : Machine π} (sane : m.Sane db) (drawn : String) :
    Safe db (m.loadState drawn).name (m.loadState drawn).saved := by
  unfold Machine.loadState
  split
  · exact sane.saved
  · rename_i unfiled
    refine ⟨rfl, Nat.zero_le _, fun operation member foreign below => ?_⟩
    have positive := sane.unfiled (Bool.not_eq_true _ ▸ unfiled) operation member foreign.1
    have first : operation.cursor ≤ 0 := below
    omega

theorem step_sane {env : Env π} {m m' : Machine π} (stepped : step env m label = some m')
    (sane : m.Sane db) (honest : Honest env db m.name m label) : m'.Sane db := by
  have process := sane.process
  have saved := sane.saved
  cases label with
  | load rootId drawn =>
    simp only [step] at stepped
    split at stepped
    · cases stepped
      have loaded := loadState_sane sane drawn
      refine ⟨loaded, ⟨loaded.named, loaded.bounded, loaded.reached⟩, fun unfiled => ?_⟩
      exact sane.unfiled (m.loadState_filing drawn ▸ unfiled)
    · contradiction
  | readRoot cursor =>
    simp only [step] at stepped
    split at stepped
    · rename_i memory same
      cases stepped
      rw [same] at process
      exact ⟨saved, ⟨process, honest⟩, sane.unfiled⟩
    · contradiction
  | readPage operations conflicts =>
    simp only [step] at stepped
    split at stepped
    · rename_i memory cursor same
      cases stepped
      rw [same] at process
      simp only [Honest, same] at honest
      obtain ⟨safe, below⟩ := process
      refine ⟨saved, ⟨safe.named, Nat.max_le.mpr ⟨safe.bounded, below⟩, ?_⟩, sane.unfiled⟩
      intro operation member foreign reaches
      by_cases old : operation.cursor ≤ memory.state.cursor
      · rcases safe.reached operation member foreign old with handled | none
        · exact .inl handled
        · exact absurd none (List.not_mem_nil)
      · exact .inr (honest operation member foreign (by omega) (by omega))
    · contradiction
  | examine =>
    simp only [step] at stepped
    split at stepped
    · rename_i memory operation pending cursor conflicts same
      cases stepped
      rw [same] at process
      simp only [Honest, same] at honest
      exact ⟨saved, examine_sane process honest, sane.unfiled⟩
    · contradiction
  | unlink =>
    simp only [step] at stepped
    split at stepped
    · rename_i memory operation path pending cursor conflicts same
      cases stepped
      rw [same] at process
      exact ⟨saved, process.handle (fun _ => rfl) rfl, sane.unfiled⟩
    · contradiction
  | deliver file =>
    simp only [step] at stepped
    split at stepped
    · rename_i memory operation relativePath destination pending cursor conflicts same
      cases stepped
      rw [same] at process
      exact ⟨saved, process.handle (fun _ => rfl) rfl, sane.unfiled⟩
    · contradiction
  | finishPull =>
    simp only [step] at stepped
    split at stepped
    · rename_i memory cursor conflicts same
      cases stepped
      rw [same] at process
      exact ⟨saved, ⟨process.named, process.bounded, process.reached⟩, sane.unfiled⟩
    · contradiction
  | save =>
    simp only [step] at stepped
    split at stepped
    · rename_i memory same
      cases stepped
      rw [same] at process
      have safe : Safe db memory.state.clientId memory := process.named ▸ process
      exact ⟨safe, same ▸ safe, fun filed => by cases filed⟩
    · rename_i memory same
      cases stepped
      rw [same] at process
      have safe : Safe db memory.state.clientId memory := process.named ▸ process
      exact ⟨safe, trivial, fun filed => by cases filed⟩
    · contradiction
  | readPushRoot operations proposed cursor =>
    simp only [step] at stepped
    split at stepped
    · rename_i memory same
      cases stepped
      rw [same] at process
      exact ⟨saved, process, sane.unfiled⟩
    · contradiction
  | skipPush =>
    simp only [step] at stepped
    split at stepped
    · rename_i memory same
      cases stepped
      rw [same] at process
      exact ⟨saved, process, sane.unfiled⟩
    · contradiction
  | answerPush result =>
    simp only [step] at stepped
    split at stepped
    · rename_i memory operations proposed loaded same
      cases stepped
      simp only [Honest, same] at honest
      exact ⟨saved, honest, sane.unfiled⟩
    · contradiction
  | acknowledge =>
    simp only [step] at stepped
    split at stepped
    · rename_i memory operations proposed result same
      cases stepped
      rw [same] at process
      exact ⟨saved, applyPushResult_covered process, sane.unfiled⟩
    · contradiction
  | stop =>
    cases stepped
    exact ⟨saved, trivial, sane.unfiled⟩
  | edit path file =>
    cases stepped
    exact ⟨saved, process, sane.unfiled⟩

/-- A client keeps its id, unless it starts. -/
theorem step_name {env : Env π} {m m' : Machine π} (stepped : step env m label = some m')
    (sane : m.Sane db) (starts : ∀ rootId drawn, label ≠ .load rootId drawn) : m'.name = m.name := by
  have process := sane.process
  cases label with
  | load rootId drawn => exact absurd rfl (starts rootId drawn)
  | save =>
    simp only [step] at stepped
    split at stepped
    · rename_i same
      cases stepped
      rw [same] at process
      exact process.named
    · rename_i same
      cases stepped
      rw [same] at process
      exact process.named
    · contradiction
  | stop | edit =>
    cases stepped
    rfl
  | readRoot | readPage | examine | unlink | deliver | finishPull | skipPush | readPushRoot | answerPush
  | acknowledge =>
    simp only [step] at stepped
    split at stepped
    · cases stepped
      rfl
    · contradiction

/-- What a push changes in the journal: operations of its client are appended
beyond the cursor the root had. -/
structure Extends (clientId : String) (db after : SyncDb) : Prop where
  added : ∃ new, after.operations = db.operations ++ new ∧
    ∀ operation ∈ new, db.root.cursor < operation.cursor ∧ operation.clientId = clientId
  rootId : after.root.id = db.root.id
  cursor : db.root.cursor ≤ after.root.cursor

theorem applyOperations_extends {db : SyncDb} {after : Batch}
    (counts : loaded = db.root.cursor ∨ AllRecorded db clientId inputs)
    (result : applyOperations db loaded clientId inputs now = .ok after) :
    Extends clientId db after.db := by
  rcases applyOperations_cases counts result with ⟨_, b, applied, _, operations, root⟩ |
    ⟨_, _, operations, root⟩
  · have appends := applyAll_appends applied
    obtain ⟨new, added, beyond⟩ := appends.added
    refine ⟨⟨new, operations.trans added, beyond⟩, ?_, ?_⟩
    · rw [root]
    · rw [root]
      exact appends.cursor
  · refine ⟨⟨[], ?_, by simp⟩, ?_, ?_⟩
    · rw [operations, List.append_nil]
    · rw [root]
    · exact Nat.le_of_eq (by rw [root])

omit [DecidableEq π] in
/-- New operations lie beyond every limit that was covered before. -/
theorem Covered.extends {memory : Memory π} (covered : Covered db name memory limit pending)
    (extended : Extends clientId db after) : Covered after name memory limit pending := by
  refine ⟨covered.named, Nat.le_trans covered.bounded extended.cursor, ?_⟩
  intro operation member foreign below
  obtain ⟨new, added, beyond⟩ := extended.added
  rw [added] at member
  rcases List.mem_append.mp member with old | recent
  · exact covered.reached operation old ⟨foreign.1.trans extended.rootId, foreign.2⟩ below
  · have above := (beyond operation recent).1
    have bounded := covered.bounded
    omega

theorem Positive.extends (positive : Positive db) (extended : Extends clientId db after) :
    Positive after := by
  intro operation member root
  obtain ⟨new, added, beyond⟩ := extended.added
  rw [added] at member
  rcases List.mem_append.mp member with old | recent
  · exact positive operation old (root.trans extended.rootId)
  · exact Nat.zero_lt_of_lt (beyond operation recent).1

omit [DecidableEq π] in
theorem Machine.Sane.extends {m : Machine π} (sane : m.Sane db)
    (extended : Extends clientId db after) : m.Sane after := by
  obtain ⟨saved, process, unfiled⟩ := sane
  refine ⟨saved.extends extended, ?_, fun none => (unfiled none).extends extended⟩
  cases running : m.process with
  | stopped => trivial
  | asked memory cursor =>
    rw [running] at process
    exact ⟨process.1.extends extended, Nat.le_trans process.2 extended.cursor⟩
  | ready | pulled | acknowledged | pushing | pulling | unlinking | downloading | answered =>
    rw [running] at process
    exact Covered.extends process extended

/-- No other client has committed beyond the cursor of a client whose push
commits, except beyond the cursor its answer will carry. -/
def Unpassed (db : SyncDb) (memory : Memory π) (flight : Flight ι) : Prop :=
  ∀ operation ∈ db.operations, Foreign db memory.state.clientId operation →
    memory.state.cursor < operation.cursor →
      AllRecorded db flight.clientId flight.inputs ∧ flight.loaded < operation.cursor

/-- The steps at which an operation can be passed over: a page that does not
reach the root's cursor, an operation that cannot be delivered, a push that
counts from an outdated cursor or commits beyond operations not yet pulled. -/
def PassesNothing (env : Env π) (s : Network ι π) : NetLabel ι π → Prop
  | .readPage i =>
    match (s.machines i).process with
    | .asked memory cursor => ∀ operation ∈ s.db.operations,
      Foreign s.db memory.state.clientId operation → memory.state.cursor < operation.cursor →
        operation.cursor ≤ cursor → operation ∈ s.db.page memory.state.cursor
    | _ => True
  | .client i .examine =>
    match (s.machines i).process with
    | .pulling memory (operation :: _) _ _ =>
      plan env (s.machines i).folder memory.state operation ≠ .ignored
    | _ => True
  | .commit index _ =>
    ∀ flight ∈ s.flights[index]?,
      CountsFrom s.db (.push flight.clientId flight.inputs flight.loaded) ∧
      (flight.live →
        match (s.machines flight.client).process with
        | .pushing memory _ _ _ => Unpassed s.db memory flight
        | _ => True)
  | _ => True

instance (db : SyncDb) (memory : Memory π) (flight : Flight ι) :
    Decidable (Unpassed db memory flight) :=
  inferInstanceAs (Decidable (∀ operation ∈ db.operations, _))

instance (env : Env π) (s : Network ι π) : DecidablePred (PassesNothing env s) := fun label => by
  unfold PassesNothing
  split
  · split <;> infer_instance
  · split <;> infer_instance
  · refine @Option.decidableForallMem _ _ (fun flight => ?_) _
    refine @instDecidableAnd _ _ _ ?_
    refine @instDecidableForall _ _ _ ?_
    split <;> infer_instance
  · infer_instance

structure Inv (s : Network ι π) : Prop where
  machines : ∀ i, (s.machines i).Sane s.db
  flights : ∀ flight ∈ s.flights, flight.loaded ≤ s.db.root.cursor ∧
    (flight.live → flight.clientId = (s.machines flight.client).name)

omit [DecidableEq π] in
theorem setMachine_inv {s : Network ι π} (inv : Inv s) (sane : m.Sane s.db)
    (named : ∀ flight ∈ s.flights, flight.client = i → flight.live → m.name = (s.machines i).name) :
    Inv (s.setMachine i m) := by
  refine ⟨fun j => ?_, fun flight member => ⟨(inv.flights flight member).1, fun live => ?_⟩⟩
  · by_cases same : j = i
    · subst same
      simpa only [Network.setMachine, Function.update_self] using sane
    · simpa only [Network.setMachine, Function.update_of_ne same] using inv.machines j
  · have author := (inv.flights flight member).2 live
    by_cases same : flight.client = i
    · simp only [Network.setMachine, same, Function.update_self]
      exact author.trans (same ▸ (named flight member same live).symm)
    · simpa only [Network.setMachine, Function.update_of_ne same] using author

omit [DecidableEq π] in
theorem release_db (s : Network ι π) (i : ι) (label : Label π) :
    (s.release i label).db = s.db := by
  cases label <;> rfl

omit [DecidableEq π] in
theorem release_machines (s : Network ι π) (i : ι) (label : Label π) :
    (s.release i label).machines = s.machines := by
  cases label <;> rfl

omit [DecidableEq π] in
theorem release_inv {s : Network ι π} (inv : Inv s) (i : ι) (label : Label π) :
    Inv (s.release i label) := by
  cases label with
  | stop | load =>
    refine ⟨inv.machines, ?_⟩
    intro flight member
    obtain ⟨before, found, rfl⟩ := List.mem_map.mp member
    have kept := inv.flights before found
    split
    · exact ⟨kept.1, fun live => by cases live⟩
    · exact kept
  | _ => exact inv

omit [DecidableEq π] in
/-- A client that starts waits for no push. -/
theorem release_load {s : Network ι π} {i : ι} {rootId : UUID} {drawn : String} {flight : Flight ι}
    (member : flight ∈ (s.release i (.load rootId drawn)).flights) (mine : flight.client = i) :
    flight.live = false := by
  obtain ⟨before, found, rfl⟩ := List.mem_map.mp member
  split at mine
  · rename_i same
    rw [if_pos same]
  · rename_i other
    exact absurd mine other

theorem answer_inv {s : Network ι π} (inv : Inv s) (quiet : ∀ rootId drawn, label ≠ .load rootId drawn)
    (honest : flight.live →
      Honest env s.db (s.machines flight.client).name (s.machines flight.client) label) :
    Inv (s.answer env flight label) := by
  unfold Network.answer
  split
  · rename_i live
    split
    · rename_i m stepped
      have sane := inv.machines flight.client
      exact setMachine_inv inv (step_sane stepped sane (honest live))
        fun _ _ _ _ => step_name stepped sane quiet
    · exact inv
  · exact inv

omit [DecidableEq π] [DecidableEq ι] in
/-- The answer of a push passes nothing that its client has not handled. -/
theorem push_covered {memory : Memory π} {flight : Flight ι} {b : Batch}
    (safe : Safe db flight.clientId memory) (below : flight.loaded ≤ db.root.cursor)
    (counts : CountsFrom db (.push flight.clientId flight.inputs flight.loaded))
    (unpassed : Unpassed db memory flight)
    (result : applyOperations db flight.loaded flight.clientId flight.inputs now = .ok b) :
    Covered b.db flight.clientId memory (max memory.state.cursor b.cursor) [] := by
  have extended := applyOperations_extends counts result
  obtain ⟨new, added, beyond⟩ := extended.added
  have cases := applyOperations_cases counts result
  have bounded : b.cursor ≤ b.db.root.cursor := by
    rcases cases with ⟨_, inner, _, cursor, _, root⟩ | ⟨_, cursor, _, root⟩
    · rw [cursor, root]
    · rw [cursor, root]
      exact below
  refine ⟨safe.named, ?_, ?_⟩
  · exact Nat.max_le.mpr ⟨Nat.le_trans safe.bounded extended.cursor, bounded⟩
  · intro operation member foreign reaches
    rw [added] at member
    rcases List.mem_append.mp member with old | recent
    · have foreignBefore : Foreign db flight.clientId operation :=
        ⟨foreign.1.trans extended.rootId, foreign.2⟩
      by_cases known : operation.cursor ≤ memory.state.cursor
      · exact safe.reached operation old foreignBefore known
      · -- The condition leaves only a repeated push, whose answer stops short.
        obtain ⟨recorded, short⟩ := unpassed operation old (safe.named ▸ foreignBefore)
          (Nat.lt_of_not_le known)
        have answered : b.cursor = flight.loaded := by
          rcases cases with ⟨fresh, inner, applied, cursor, _, _⟩ | ⟨_, cursor, _, _⟩
          · rw [cursor, (applyAll_recorded recorded applied).1, fresh]
          · exact cursor
        omega
    · exact absurd (beyond operation recent).2 foreign.2.2

theorem client_inv {env : Env π} {s s' : Network ι π} {i : ι} {label : Label π} (inv : Inv s)
    (passes : PassesNothing env s (.client i label))
    (stepped : s.step env (.client i label) = some s') : Inv s' := by
  simp only [Network.step] at stepped
  split at stepped
  · rename_i internal
    obtain ⟨m, moved, rfl⟩ := Option.map_eq_some_iff.mp stepped
    have sane := inv.machines i
    have honest : Honest env s.db (s.machines i).name (s.machines i) label := by
      cases label with
      | examine => exact passes
      | readRoot | readPage | readPushRoot | answerPush => contradiction
      | load | unlink | deliver | finishPull | save | skipPush | acknowledge | stop | edit => trivial
    refine setMachine_inv (release_inv inv i label) ?_ fun flight member mine live => ?_
    · rw [release_db]
      exact step_sane moved sane honest
    · rw [release_machines]
      cases label with
      | load rootId drawn =>
        rw [release_load member mine] at live
        contradiction
      | _ => exact step_name moved sane fun _ _ same => by cases same
  · contradiction

theorem step_inv {env : Env π} (s : Network ι π) (label : NetLabel ι π) (s' : Network ι π)
    (inv : Inv s) (passes : PassesNothing env s label) (stepped : s.step env label = some s') :
    Inv s' := by
  cases label with
  | client i label => exact client_inv inv passes stepped
  | readRoot i =>
    obtain ⟨m, moved, rfl⟩ := Option.map_eq_some_iff.mp stepped
    have sane := inv.machines i
    exact setMachine_inv inv (step_sane moved sane (Nat.le_refl _))
      fun _ _ _ _ => step_name moved sane fun _ _ same => by cases same
  | readPage i =>
    simp only [Network.step] at stepped
    split at stepped
    · rename_i memory cursor asked
      obtain ⟨m, moved, rfl⟩ := Option.map_eq_some_iff.mp stepped
      have sane := inv.machines i
      simp only [PassesNothing, asked] at passes
      refine setMachine_inv inv (step_sane moved sane ?_)
        fun _ _ _ _ => step_name moved sane fun _ _ same => by cases same
      have safe := sane.process
      rw [asked] at safe
      simp only [Honest, asked]
      rw [safe.1.named] at passes
      exact passes
    · contradiction
  | push i inputs proposed =>
    simp only [Network.step] at stepped
    split at stepped
    · rename_i memory pulled
      obtain ⟨m, moved, rfl⟩ := Option.map_eq_some_iff.mp stepped
      have sane := inv.machines i
      have named := step_name moved sane fun _ _ same => by cases same
      have kept := setMachine_inv inv (step_sane moved sane trivial) fun _ _ _ _ => named
      have safe := sane.process
      rw [pulled] at safe
      refine ⟨kept.machines, ?_⟩
      intro flight member
      rcases List.mem_append.mp member with old | recent
      · exact kept.flights flight old
      · rw [List.mem_singleton.mp recent]
        refine ⟨Nat.le_refl _, fun _ => safe.named.trans ?_⟩
        simp only [Network.setMachine, Function.update_self]
        exact named.symm
    · contradiction
  | commit index now =>
    simp only [Network.step] at stepped
    split at stepped
    · contradiction
    · rename_i flight found
      obtain ⟨counts, unpassed⟩ := passes flight found
      have mine := inv.flights flight (List.mem_of_getElem? found)
      have others : ∀ other ∈ s.flights.eraseIdx index, other.loaded ≤ s.db.root.cursor ∧
          (other.live → other.clientId = (s.machines other.client).name) :=
        fun other member => inv.flights other (List.mem_of_mem_eraseIdx member)
      split at stepped
      · rename_i b result
        cases stepped
        have extended := applyOperations_extends counts result
        refine answer_inv ⟨fun i => (inv.machines i).extends extended, ?_⟩ (fun _ _ same => by cases same) ?_
        · intro other member
          obtain ⟨below, named⟩ := others other member
          exact ⟨Nat.le_trans below extended.cursor, named⟩
        · intro live
          have sane := (inv.machines flight.client).process
          simp only [Honest]
          split
          · rename_i memory operations proposed loaded pushing
            have unpassed := unpassed live
            rw [pushing] at sane
            simp only [pushing] at unpassed
            rw [← mine.2 live] at sane ⊢
            exact push_covered sane mine.1 counts unpassed result
          · trivial
      · cases stepped
        exact answer_inv ⟨inv.machines, others⟩ (fun _ _ same => by cases same) (fun _ => trivial)
  | drop index =>
    simp only [Network.step] at stepped
    split at stepped
    · contradiction
    · rename_i flight found
      cases stepped
      refine answer_inv ⟨inv.machines, ?_⟩ (fun _ _ same => by cases same) (fun _ => trivial)
      intro other member
      exact inv.flights other (List.mem_of_mem_eraseIdx member)

/-- Every applied operation of another client up to the stored cursor went
through `pull_remote` and was applied, void or recorded as a conflict. -/
def Delivered (db : SyncDb) (m : Machine π) : Prop :=
  ∀ operation ∈ db.operations, Foreign db m.saved.state.clientId operation →
    operation.cursor ≤ m.saved.state.cursor → Handled m.saved operation

instance (db : SyncDb) (m : Machine π) : Decidable (Delivered db m) :=
  inferInstanceAs (Decidable (∀ operation ∈ db.operations, _))

/-- The clients are stopped and what they stored is delivered; a new client finds the whole
journal beyond cursor 0. -/
structure Settled (s : Network ι π) : Prop where
  stopped : ∀ i, (s.machines i).process = .stopped
  delivered : ∀ i, Delivered s.db (s.machines i)
  bounded : ∀ i, (s.machines i).saved.state.cursor ≤ s.db.root.cursor
  unfiled : ∀ i, (s.machines i).filed = false → Positive s.db
  idle : s.flights = []

/-- In every interleaving of pulls and pushes of any clients in which no step
passes an operation, what a client stores never passes one. -/
theorem stored_cursor_passes_nothing {env : Env π} {s t : Network ι π} (settled : Settled s)
    (passes : Along (Network.step env) (PassesNothing env) s labels)
    (reached : run (Network.step env) s labels = some t) (i : ι) :
    Delivered t.db (t.machines i) := by
  have initial : Inv s := by
    refine ⟨fun i => ⟨⟨rfl, settled.bounded i, ?_⟩, ?_, settled.unfiled i⟩, ?_⟩
    · intro operation member foreign below
      exact .inl (settled.delivered i operation member foreign below)
    · rw [settled.stopped i]
      trivial
    · simp [settled.idle]
  have inv := invariant step_inv initial passes reached
  have safe := (inv.machines i).saved
  intro operation member foreign below
  rcases safe.reached operation member foreign below with handled | none
  · exact handled
  · exact absurd none List.not_mem_nil

inductive Computer where
  | desk | laptop
  deriving DecidableEq, Repr

instance : Fintype Computer where
  elems := {.desk, .laptop}
  complete := by rintro (_ | _) <;> decide

def uploadedAsset (id : UUID) : Asset where
  id := id
  userId := 1
  logicalId := id
  version := 1
  lifecycleState := .active
  supersededAt := none
  trashedAt := none
  purgeAfter := none
  deletedBy := none
  originalPath := ""
  checksum := ""
  storageChecksum := ""
  encryptionVersion := 0
  fileSize := 1
  thumbnailPath := none
  previewPath := none
  storageSource := .managed
  originalFilename := none

/-- Two computers on a root that nobody has pushed to, with two uploaded files. -/
def twoComputers : Network Computer String where
  db := { registeredRoot with assets := [uploadedAsset 4, uploadedAsset 5] }
  machines
    | .desk => { joining [] with saved := ⟨stateTemplate "desk", []⟩, filed := true, names := ["desk"] }
    | .laptop => { joining [] with filed := true, names := ["laptop"] }
  flights := []

theorem twoComputers_settled : Settled twoComputers := by
  refine ⟨?_, ?_, ?_, fun _ _ operation member => ?_, rfl⟩
  · rintro (_ | _) <;> rfl
  · intro i operation member
    exact absurd member List.not_mem_nil
  · rintro (_ | _) <;> exact Nat.le_refl _
  · exact absurd member List.not_mem_nil

def addition (asset : UUID) (relativePath : String) : SyncOperationInput × FreshIds :=
  ({ operationId := asset, clientSequence := 1, kind := .upsert, logicalId := asset
     baseRevision := none, relativePath := some relativePath, assetId := some asset },
    { operation := 10 * asset, item := 10 * asset + 1, asset := 10 * asset + 2
      conflict := 10 * asset + 3 })

/-- A pull that finds no operation. -/
def emptyPull (i : Computer) : List (NetLabel Computer String) :=
  [.client i (.load 1 "new"), .readRoot i, .readPage i, .client i .finishPull]

theorem stored_cursor_passes_nothing_in_turn :
    ∃ t, run (Network.step plainEnv) twoComputers
        (emptyPull .laptop ++ [.push .laptop [addition 4 "a.txt"] [], .commit 0 5,
          .client .laptop .acknowledge, .client .laptop .save,
          .client .desk (.load 1 "new"), .readRoot .desk, .readPage .desk, .client .desk .examine,
          .client .desk (.deliver remoteFile), .client .desk .finishPull,
          .client .desk .save]) = some t ∧
      (t.machines .desk).saved.state.cursor = 1 ∧ Delivered t.db (t.machines .desk) := by
  have finishes : (run (Network.step plainEnv) twoComputers
      (emptyPull .laptop ++ [.push .laptop [addition 4 "a.txt"] [], .commit 0 5,
        .client .laptop .acknowledge, .client .laptop .save,
        .client .desk (.load 1 "new"), .readRoot .desk, .readPage .desk, .client .desk .examine,
        .client .desk (.deliver remoteFile), .client .desk .finishPull,
        .client .desk .save])).any fun t => (t.machines .desk).saved.state.cursor = 1 := by
    decide
  obtain ⟨t, reached, cursor⟩ := (Option.any_eq_true _ _).mp finishes
  exact ⟨t, reached, of_decide_eq_true cursor,
    stored_cursor_passes_nothing twoComputers_settled (by decide) reached .desk⟩

/-- The desk pulls before the laptop commits and pushes after it: the answer
carries cursor 2, which passes the laptop's operation. -/
theorem push_answer_passes_operation :
    ∃ t, run (Network.step plainEnv) twoComputers
        (emptyPull .desk ++ emptyPull .laptop ++ [.push .laptop [addition 4 "a.txt"] [],
          .commit 0 5, .push .desk [addition 5 "b.txt"] [], .commit 0 6,
          .client .desk .acknowledge, .client .desk .save]) = some t ∧
      (t.machines .desk).saved.state.cursor = 2 ∧ ¬ Delivered t.db (t.machines .desk) := by
  have violated : (run (Network.step plainEnv) twoComputers
      (emptyPull .desk ++ emptyPull .laptop ++ [.push .laptop [addition 4 "a.txt"] [],
        .commit 0 5, .push .desk [addition 5 "b.txt"] [], .commit 0 6,
        .client .desk .acknowledge, .client .desk .save])).any fun t =>
      (t.machines .desk).saved.state.cursor = 2 ∧ ¬ Delivered t.db (t.machines .desk) := by
    decide
  obtain ⟨t, reached, violated⟩ := (Option.any_eq_true _ _).mp violated
  exact ⟨t, reached, of_decide_eq_true violated⟩

end Drivebound.Desktop
