import Drivebound.Desktop.Push
import Mathlib

/-! Clients that follow the journal of their root, step by step. What a step withholds from its
client, and what comes into effect under the client's own name, has to be replaced; everything
else it shows, or is still to pull. -/
namespace Drivebound.Desktop
open Sync Run Latest

variable {ι π : Type} [DecidableEq ι] [DecidableEq π]

/-- The state file does not know the last answer yet. -/
def Process.unsaved : Process π → Bool
  | .answered _ _ _ _ | .acknowledged _ => true
  | .stopped | .ready _ | .asked _ _ | .pulling _ _ _ _ | .unlinking _ _ _ _ _ _
  | .downloading _ _ _ _ _ _ _ | .pulled _ | .pushing _ _ _ _ => false

/-- An operation of the client beyond the cursor of its state file. -/
def Unsaved (db : SyncDb) (name : String) (cursor : Nat) (id : UUID) : Prop :=
  ∃ operation ∈ db.effective, operation.id = id ∧ operation.clientId = name ∧
    cursor < operation.cursor

instance (db : SyncDb) (name : String) (cursor : Nat) : DecidablePred (Unsaved db name cursor) :=
  fun _ => inferInstanceAs (Decidable (∃ operation ∈ db.effective, _))

instance (env : Env π) (folder : Folder π) (state : ClientState) :
    DecidablePred (Admits env folder state) := fun operation => by
  unfold Admits
  split <;> infer_instance

/-- The operations that a step withholds from its client: one that it refuses or cannot place,
and those of its own whose answer it forgets. -/
def Machine.Withholds (env : Env π) (db : SyncDb) (m : Machine π) (label : Label π) (id : UUID) :
    Prop :=
  match label with
  | .examine =>
    match m.process with
    | .pulling memory (operation :: _) _ _ =>
      ¬ Admits env m.folder memory.state operation ∧ operation.id = id
    | _ => False
  | .stop =>
    m.process.unsaved ∧ Unsaved db m.saved.state.clientId m.saved.state.cursor id
  | _ => False

instance (env : Env π) (db : SyncDb) (m : Machine π) (label : Label π) :
    DecidablePred (m.Withholds env db label) := fun id =>
  match label with
  | .examine => by
    unfold Machine.Withholds
    generalize m.process = process
    exact match process with
      | .pulling memory (operation :: _) .. =>
        inferInstanceAs (Decidable (¬ Admits env m.folder memory.state operation ∧ operation.id = id))
      | .pulling _ [] .. | .stopped | .ready _ | .asked .. | .unlinking .. | .downloading .. | .pulled _ | .pushing ..
      | .answered .. | .acknowledged _ => inferInstanceAs (Decidable False)
  | .stop =>
    inferInstanceAs (Decidable (m.process.unsaved ∧ Unsaved db m.saved.state.clientId m.saved.state.cursor id))
  | .load .. | .readRoot _ | .readPage .. | .unlink | .deliver _ | .finishPull | .save | .skipPush | .readPushRoot ..
  | .answerPush _ | .acknowledge | .edit .. => inferInstanceAs (Decidable False)

section Machines

variable {db after : SyncDb} {replaced : UUID → Prop} {name : String} {m m' : Machine π}

/-- What the state file may lack: what is replaced, or not saved yet. -/
def Spared (db : SyncDb) (replaced : UUID → Prop) (name : String) (m : Machine π) (id : UUID) : Prop :=
  replaced id ∨ (m.process.unsaved = true ∧ Unsaved db name m.saved.state.cursor id)

/-- The state file and the running client follow the journal. -/
structure Machine.Steady (db : SyncDb) (replaced : UUID → Prop) (name : String) (m : Machine π) :
    Prop where
  saved : Follows db (Spared db replaced name m) name m.saved.state m.saved.state.cursor []
  process : m.process.Steady db replaced name

omit [DecidableEq π] in
/-- A state follows whatever is spared, if it follows what is replaced. -/
theorem Follows.spared {state : ClientState} (follows : Follows db replaced name state state.cursor [])
    (m : Machine π) : Follows db (Spared db replaced name m) name state state.cursor [] :=
  ⟨follows.named, follows.bounded, follows.traced, follows.ordered, follows.effective,
    fun logicalId operation standing => (follows.kept logicalId operation standing).mono .inl⟩

omit [DecidableEq π] in
/-- The state file where nothing is unsaved. -/
theorem Machine.Steady.file (steady : m.Steady db replaced name)
    (known : ∀ id, Spared db replaced name m id → replaced id) :
    Follows db replaced name m.saved.state m.saved.state.cursor [] :=
  ⟨steady.saved.named, steady.saved.bounded, steady.saved.traced, steady.saved.ordered,
    steady.saved.effective, fun logicalId operation standing =>
      (steady.saved.kept logicalId operation standing).mono (known _)⟩

omit [DecidableEq π] in
theorem Machine.Steady.settledFile (steady : m.Steady db replaced name)
    (settled : m.process.unsaved = false) :
    Follows db replaced name m.saved.state m.saved.state.cursor [] := by
  refine steady.file fun id spared => spared.resolve_right fun unsaved => ?_
  rw [settled] at unsaved
  exact absurd unsaved.1 Bool.false_ne_true

omit [DecidableEq π] in
/-- A step of the client between settled points keeps the state file. -/
theorem Machine.Steady.move (steady : m.Steady db replaced name) (settled : m.process.unsaved = false)
    (process : m'.process.Steady db replaced name) (saved : m'.saved = m.saved) :
    m'.Steady db replaced name :=
  ⟨saved ▸ (steady.settledFile settled).spared m', process⟩

omit [DecidableEq π] in
theorem Process.Steady.grows {new : SyncOperation → Prop} {process : Process π}
    (steady : process.Steady db replaced name) (grows : Grows db after new)
    (advances : db.root.cursor ≤ after.root.cursor)
    (ahead : ∀ operation ∈ after.effective, new operation → db.root.cursor < operation.cursor ∧
      (replaced operation.id ∨ operation.clientId ≠ name)) :
    process.Steady after replaced name := by
  cases process with
  | stopped => trivial
  | asked memory cursor =>
    exact ⟨steady.1.grows grows advances (fun _ known => known) ahead, steady.2.trans advances⟩
  | unlinking memory operation path pending cursor conflicts =>
    exact ⟨steady.1.grows grows advances (fun _ known => known) ahead, steady.2⟩
  | downloading memory operation relativePath destination pending cursor conflicts =>
    exact ⟨steady.1.grows grows advances (fun _ known => known) ahead, steady.2⟩
  | ready | pulled | acknowledged | pushing | pulling | answered =>
    exact Follows.grows steady grows advances (fun _ known => known) ahead

omit [DecidableEq π] in
theorem Machine.Steady.grows {new : SyncOperation → Prop} (steady : m.Steady db replaced name)
    (grows : Grows db after new) (advances : db.root.cursor ≤ after.root.cursor)
    (ahead : ∀ operation ∈ after.effective, new operation → db.root.cursor < operation.cursor ∧
      (replaced operation.id ∨ operation.clientId ≠ name)) : m.Steady after replaced name := by
  refine ⟨?_, steady.process.grows grows advances ahead⟩
  refine steady.saved.grows grows advances (fun id spared => ?_) fun operation member here => ?_
  · refine spared.imp_right fun unsaved => ⟨unsaved.1, ?_⟩
    obtain ⟨operation, member, rest⟩ := unsaved.2
    exact ⟨operation, grows.kept operation member, rest⟩
  · exact (ahead operation member here).imp_right fun known => known.imp_left .inl

/-- A client starts from its state file, or under a new name. -/
theorem load_steady {env : Env π} {rootId : UUID} {drawn : String}
    (stepped : step env m (.load rootId drawn) = some m') (steady : m.Steady db replaced name)
    (new : m.filed = false → ∀ operation ∈ db.effective,
      operation.clientId ≠ drawn ∧ 0 < operation.cursor) :
    m'.Steady db replaced (if m.filed then name else drawn) := by
  simp only [step] at stepped
  split at stepped
  · rename_i stopped
    cases stepped
    have settled : m.process.unsaved = false := by rw [stopped]; rfl
    by_cases filed : m.filed = true
    · rw [if_pos filed, m.loadState_filed filed]
      exact steady.move settled ((steady.settledFile settled).restate rfl rfl) rfl
    · have template : Follows db replaced drawn (stateTemplate drawn) 0 [] := by
        refine ⟨rfl, Nat.zero_le _, fun _ member => absurd member List.not_mem_nil, .nil,
          fun _ member => absurd member List.not_mem_nil, fun logicalId operation standing => ?_⟩
        obtain ⟨foreign, beyond⟩ := new (by simpa using filed) operation standing.member
        exact .ahead foreign beyond
      unfold Machine.loadState
      rw [if_neg filed, if_neg filed]
      exact ⟨Follows.spared template _, template.restate rfl rfl⟩
  · contradiction

/-- The steps that a client takes without an answer keep it steady, unless they withhold what is
not replaced. -/
theorem step_steady {env : Env π} {label : Label π} (stepped : step env m label = some m')
    (internal : label.internal = true) (steady : m.Steady db replaced name)
    (starts : ∀ rootId drawn, label ≠ .load rootId drawn) (delivers : Delivers env m label)
    (lossless : ∀ id, m.Withholds env db label id → replaced id) : m'.Steady db replaced name := by
  have process := steady.process
  cases label with
  | readRoot | readPage | readPushRoot | answerPush => contradiction
  | load rootId drawn => exact absurd rfl (starts rootId drawn)
  | examine =>
    simp only [step] at stepped
    split at stepped
    · rename_i memory operation pending cursor conflicts pulling
      cases stepped
      have settled : m.process.unsaved = false := by rw [pulling]; rfl
      rw [pulling] at process
      refine steady.move settled (examine_steady process ?_) rfl
      by_cases admits : Admits env m.folder memory.state operation
      · exact .inl admits
      · refine .inr (lossless _ ?_)
        simp only [Machine.Withholds, pulling]
        exact ⟨admits, trivial⟩
    · contradiction
  | unlink =>
    simp only [step] at stepped
    split at stepped
    · rename_i memory operation path pending cursor conflicts unlinking
      cases stepped
      have settled : m.process.unsaved = false := by rw [unlinking]; rfl
      rw [unlinking] at process
      exact steady.move settled (unlink_steady process.1 process.2.1 process.2.2) rfl
    · contradiction
  | deliver file =>
    simp only [step] at stepped
    split at stepped
    · rename_i memory operation relativePath destination pending cursor conflicts downloading
      cases stepped
      have settled : m.process.unsaved = false := by rw [downloading]; rfl
      rw [downloading] at process
      simp only [Delivers, downloading] at delivers
      exact steady.move settled (deliver_steady process.1 process.2 delivers) rfl
    · contradiction
  | finishPull =>
    simp only [step] at stepped
    split at stepped
    · rename_i memory cursor conflicts pulling
      cases stepped
      have settled : m.process.unsaved = false := by rw [pulling]; rfl
      rw [pulling] at process
      exact steady.move settled (process.restate rfl rfl) rfl
    · contradiction
  | save =>
    simp only [step] at stepped
    split at stepped
    · rename_i memory pulled
      cases stepped
      rw [pulled] at process
      have follows : Follows db replaced name memory.state memory.state.cursor [] := process
      refine ⟨follows.spared _, ?_⟩
      dsimp only
      rw [pulled]
      exact follows
    · rename_i memory acknowledged
      cases stepped
      rw [acknowledged] at process
      have follows : Follows db replaced name memory.state memory.state.cursor [] := process
      exact ⟨follows.spared _, trivial⟩
    · contradiction
  | skipPush =>
    simp only [step] at stepped
    split at stepped
    · rename_i memory pulled
      cases stepped
      have settled : m.process.unsaved = false := by rw [pulled]; rfl
      rw [pulled] at process
      exact steady.move settled process rfl
    · contradiction
  | acknowledge =>
    simp only [step] at stepped
    split at stepped
    · rename_i memory operations proposed result answered
      cases stepped
      rw [answered] at process
      refine ⟨?_, process⟩
      have saved := steady.saved
      unfold Spared at saved ⊢
      rw [answered] at saved
      exact saved
    · contradiction
  | stop =>
    cases stepped
    refine ⟨(steady.file fun id spared => ?_).spared _, trivial⟩
    rcases spared with known | unsaved
    · exact known
    · refine lossless id ?_
      rw [← steady.saved.named] at unsaved
      exact unsaved
  | edit path file =>
    cases stepped
    exact ⟨steady.saved, process⟩

end Machines

/-- A client that waits for its push goes on waiting, unless it stops. -/
theorem step_pushing {env : Env π} {m m' : Machine π} {label : Label π} {memory : Memory π}
    {operations : List SyncOperationInput} {proposed : Dict UUID Proposal} {loaded : Nat}
    (stepped : step env m label = some m') (internal : label.internal = true) (goes : label ≠ .stop)
    (pushing : m.process = .pushing memory operations proposed loaded) : m'.process = m.process := by
  cases label with
  | readRoot | readPage | readPushRoot | answerPush => contradiction
  | stop => exact absurd rfl goes
  | edit path file =>
    cases stepped
    rfl
  | load | examine | unlink | deliver | finishPull | save | skipPush | acknowledge =>
    simp only [step, pushing] at stepped
    contradiction

section Networks

/-- A push that is under way. -/
structure Underway (names : ι → String) (s : Network ι π) (flight : Flight ι) : Prop where
  loaded : flight.loaded ≤ s.db.root.cursor
  author : flight.live = true → flight.clientId = names flight.client
  deletes : DeletesItems s.db (flight.inputs.map Prod.fst)
  numbers : ((flight.inputs.map Prod.fst).map SyncOperationInput.clientSequence).Nodup
  awaited : flight.live = true → ∃ memory proposed loaded, (s.machines flight.client).process =
      .pushing memory (flight.inputs.map Prod.fst) proposed loaded ∧
    (((flight.inputs.map Prod.fst).map SyncOperationInput.operationId).Nodup →
      Carries s.db proposed (flight.inputs.map Prod.fst))

structure Converging (names : ι → String) (replaced : UUID → Prop) (s : Network ι π) : Prop where
  mirrored : Mirrored s.db s.db.root.cursor
  positive : ∀ operation ∈ s.db.effective, 0 < operation.cursor
  apart : ∀ i j, names i = names j → i = j
  machines : ∀ i, (s.machines i).Steady s.db replaced (names i)
  flights : ∀ flight ∈ s.flights, Underway names s flight
  single : s.flights.Pairwise fun a b => a.live = true → b.live = true → a.client ≠ b.client

namespace Underway

variable {names : ι → String} {s : Network ι π} {flight : Flight ι}

omit [DecidableEq ι] [DecidableEq π] in
theorem grows {db : SyncDb} {new : SyncOperation → Prop} (underway : Underway names s flight)
    (grows : Grows s.db db new) (advances : s.db.root.cursor ≤ db.root.cursor) :
    Underway names { s with db } flight := by
  obtain ⟨loaded, author, deletes, numbers, awaited⟩ := underway
  refine ⟨loaded.trans advances, author, fun input there delete =>
    grows.finds _ (deletes input there delete), numbers, fun live => ?_⟩
  obtain ⟨memory, proposed, read, pushing, carries⟩ := awaited live
  exact ⟨memory, proposed, read, pushing, fun distinct => (carries distinct).grows grows⟩

omit [DecidableEq π] in
theorem machine {i : ι} {m : Machine π} (underway : Underway names s flight)
    (waits : flight.live = true → flight.client = i → m.process = (s.machines i).process) :
    Underway names (s.setMachine i m) flight := by
  obtain ⟨loaded, author, deletes, numbers, awaited⟩ := underway
  refine ⟨loaded, author, deletes, numbers, fun live => ?_⟩
  obtain ⟨memory, proposed, read, pushing, carries⟩ := awaited live
  refine ⟨memory, proposed, read, ?_, carries⟩
  by_cases same : flight.client = i
  · rw [same] at pushing ⊢
    simp only [Network.setMachine, Function.update_self]
    exact (waits live same).trans pushing
  · simpa only [Network.setMachine, Function.update_of_ne same] using pushing

end Underway

namespace Converging

variable {names : ι → String} {replaced : UUID → Prop} {s : Network ι π} {db : SyncDb} {i : ι}
  {m : Machine π}

omit [DecidableEq ι] [DecidableEq π] in
theorem positive_grows {after : SyncDb} {new : SyncOperation → Prop}
    (positive : ∀ operation ∈ db.effective, 0 < operation.cursor) (grows : Grows db after new)
    (beyond : ∀ operation ∈ after.effective, new operation → db.root.cursor < operation.cursor) :
    ∀ operation ∈ after.effective, 0 < operation.cursor := by
  intro operation member
  rcases grows.new operation member with before | here
  · exact positive operation before
  · exact Nat.zero_lt_of_lt (beyond operation member here)

omit [DecidableEq ι] [DecidableEq π] in
/-- Rows that change under the clients. -/
theorem rows {new : SyncOperation → Prop} (converging : Converging names replaced s)
    (mirrored : Mirrored db db.root.cursor) (grows : Grows s.db db new)
    (advances : s.db.root.cursor ≤ db.root.cursor)
    (beyond : ∀ operation ∈ db.effective, new operation → s.db.root.cursor < operation.cursor)
    (ahead : ∀ i, ∀ operation ∈ db.effective, new operation →
      s.db.root.cursor < operation.cursor ∧ (replaced operation.id ∨ operation.clientId ≠ names i)) :
    Converging names replaced { s with db } := by
  refine ⟨mirrored, positive_grows converging.positive grows beyond, converging.apart,
    fun i => (converging.machines i).grows grows advances (ahead i),
    fun flight member => (converging.flights flight member).grows grows advances, converging.single⟩

omit [DecidableEq π] in
/-- A client that does not wait for a push, or goes on waiting. -/
theorem machine (converging : Converging names replaced s) (steady : m.Steady s.db replaced (names i))
    (waits : ∀ flight ∈ s.flights, flight.live = true → flight.client = i →
      m.process = (s.machines i).process) : Converging names replaced (s.setMachine i m) := by
  refine ⟨converging.mirrored, converging.positive, converging.apart, fun j => ?_, fun flight member =>
    (converging.flights flight member).machine (waits flight member), converging.single⟩
  by_cases same : j = i
  · subst same
    simpa only [Network.setMachine, Function.update_self] using steady
  · simpa only [Network.setMachine, Function.update_of_ne same] using converging.machines j

omit [DecidableEq π] in
/-- A client that waits for no push and takes another name. -/
theorem rename {name : String} (converging : Converging names replaced s)
    (steady : m.Steady s.db replaced name) (other : ∀ j, j ≠ i → names j ≠ name)
    (idle : ∀ flight ∈ s.flights, flight.live = true → flight.client ≠ i) :
    Converging (Function.update names i name) replaced (s.setMachine i m) := by
  refine ⟨converging.mirrored, converging.positive, fun j k same => ?_, fun j => ?_,
    fun flight member => ?_, converging.single⟩
  · by_cases first : j = i
    · by_cases second : k = i
      · exact first.trans second.symm
      · rw [first, Function.update_self, Function.update_of_ne second] at same
        exact absurd same.symm (other k second)
    · by_cases second : k = i
      · rw [second, Function.update_self, Function.update_of_ne first] at same
        exact absurd same (other j first)
      · rw [Function.update_of_ne first, Function.update_of_ne second] at same
        exact converging.apart j k same
  · by_cases same : j = i
    · subst same
      simpa only [Network.setMachine, Function.update_self] using steady
    · simpa only [Network.setMachine, Function.update_of_ne same] using converging.machines j
  · have underway := (converging.flights flight member).machine (m := m) (i := i)
      fun live same => absurd same (idle flight member live)
    refine ⟨underway.loaded, fun live => ?_, underway.deletes, underway.numbers, underway.awaited⟩
    rw [Function.update_of_ne (idle flight member live)]
    exact underway.author live

omit [DecidableEq ι] [DecidableEq π] in
/-- A client that is not pushing waits for no push. -/
theorem unawaited (converging : Converging names replaced s)
    (idle : ∀ memory operations proposed loaded,
      (s.machines i).process ≠ .pushing memory operations proposed loaded) :
    ∀ flight ∈ s.flights, flight.live = true → flight.client = i →
      m.process = (s.machines i).process := by
  rintro flight member live rfl
  obtain ⟨memory, proposed, read, pushing, _⟩ := (converging.flights flight member).awaited live
  exact absurd pushing (idle _ _ _ _)

omit [DecidableEq π] in
/-- A client that stops or starts waits for nothing. -/
theorem release (converging : Converging names replaced s) (i : ι) :
    Converging names replaced (s.release i (.stop : Label π)) ∧
      ∀ flight ∈ (s.release i (.stop : Label π)).flights, flight.live = true →
        flight.client ≠ i := by
  have flights : ∀ flight ∈ (s.release i (.stop : Label π)).flights, ∃ before ∈ s.flights,
      flight = (if before.client = i then { before with live := false } else before) := by
    intro flight member
    obtain ⟨before, there, rfl⟩ := List.mem_map.mp member
    exact ⟨before, there, rfl⟩
  refine ⟨⟨converging.mirrored, converging.positive, converging.apart, converging.machines,
      fun flight member => ?_, ?_⟩,
    fun flight member live same => ?_⟩
  · obtain ⟨before, there, rfl⟩ := flights flight member
    obtain ⟨loaded, author, deletes, numbers, awaited⟩ := converging.flights before there
    split
    · exact ⟨loaded, fun live => by contradiction, deletes, numbers, fun live => by contradiction⟩
    · exact ⟨loaded, author, deletes, numbers, awaited⟩
  · refine List.pairwise_map.mpr (converging.single.imp fun {a b} apart left right => ?_)
    split at left
    · contradiction
    · split at right
      · contradiction
      · rw [if_neg ‹_›, if_neg ‹_›]
        exact apart left right
  · obtain ⟨before, there, rfl⟩ := flights flight member
    split at live
    · contradiction
    · rename_i other
      rw [if_neg other] at same
      exact other same

omit [DecidableEq ι] [DecidableEq π] in
/-- A push that has come to its end. -/
theorem erase (converging : Converging names replaced s) (index : Nat) :
    Converging names replaced { s with flights := s.flights.eraseIdx index } :=
  ⟨converging.mirrored, converging.positive, converging.apart, converging.machines, fun flight member =>
    have ⟨loaded, author, deletes, numbers, awaited⟩ :=
      converging.flights flight (List.mem_of_mem_eraseIdx member)
    ⟨loaded, author, deletes, numbers, awaited⟩,
    converging.single.sublist (List.eraseIdx_sublist ..)⟩

end Converging

variable {names : ι → String} {replaced : UUID → Prop} {s : Network ι π} {env : Env π}

/-- The client id has not been used on the root before. -/
structure Unborn (s : Network ι π) (drawn : String) : Prop where
  machines : ∀ i, (s.machines i).name ≠ drawn
  operations : ∀ operation ∈ s.db.operations, operation.clientId ≠ drawn

theorem client_converging {i : ι} {label : Label π} {network : Network ι π}
    (converging : Converging names replaced s) (delivers : Delivers env (s.machines i) label)
    (lossless : ∀ id, (s.machines i).Withholds env s.db label id → replaced id)
    (new : ∀ rootId drawn, label = .load rootId drawn → (s.machines i).filed = false → Unborn s drawn)
    (stepped : s.step env (.client i label) = some network) :
    ∃ names, Converging names replaced network := by
  simp only [Network.step] at stepped
  split at stepped
  · rename_i internal
    obtain ⟨m, moved, rfl⟩ := Option.map_eq_some_iff.mp stepped
    obtain ⟨released, none⟩ := converging.release i
    cases label with
    | load rootId drawn =>
      have steady := load_steady moved (converging.machines i) fun unfiled operation member =>
        ⟨(new rootId drawn rfl unfiled).operations operation (mem_effective.mp member).1,
          converging.positive operation member⟩
      refine ⟨_, released.rename steady (fun j different same => ?_) none⟩
      split at same
      · exact different (converging.apart j i same)
      · rename_i unfiled
        have fresh := (new rootId drawn rfl (by simpa using unfiled)).machines j
        exact fresh ((converging.machines j).saved.named.trans same)
    | stop =>
      have steady := step_steady moved internal (converging.machines i)
        (fun _ _ same => by cases same) delivers lossless
      exact ⟨names, released.machine steady fun flight member live same =>
        absurd same (none flight member live)⟩
    | readRoot | readPage | readPushRoot | answerPush => contradiction
    | examine | unlink | deliver | finishPull | save | skipPush | acknowledge | edit =>
      have steady := step_steady moved internal (converging.machines i)
        (fun _ _ same => by cases same) delivers lossless
      refine ⟨names, converging.machine steady fun flight member live same => ?_⟩
      subst same
      obtain ⟨memory, proposed, read, pushing, _⟩ := (converging.flights flight member).awaited live
      exact step_pushing moved internal (fun same => by cases same) pushing
  · contradiction

theorem readRoot_converging {i : ι} {network : Network ι π} (converging : Converging names replaced s)
    (stepped : s.step env (.readRoot i) = some network) : Converging names replaced network := by
  obtain ⟨m, moved, rfl⟩ := Option.map_eq_some_iff.mp stepped
  have steady := converging.machines i
  simp only [step] at moved
  split at moved
  · rename_i memory ready
    cases moved
    have process := steady.process
    rw [ready] at process
    refine converging.machine (steady.move (by rw [ready]; rfl) ⟨process, Nat.le_refl _⟩ rfl) ?_
    refine converging.unawaited fun _ _ _ _ pushing => ?_
    rw [ready] at pushing
    contradiction
  · contradiction

theorem readPage_converging {i : ι} {network : Network ι π} (converging : Converging names replaced s)
    (reaches : ∀ memory cursor, (s.machines i).process = .asked memory cursor →
      ∀ operation ∈ s.db.operations, Foreign s.db memory.state.clientId operation →
        memory.state.cursor < operation.cursor → operation.cursor ≤ cursor →
          operation ∈ s.db.page memory.state.cursor ∨ replaced operation.id)
    (stepped : s.step env (.readPage i) = some network) : Converging names replaced network := by
  simp only [Network.step] at stepped
  split at stepped
  · rename_i memory cursor asked
    obtain ⟨m, moved, rfl⟩ := Option.map_eq_some_iff.mp stepped
    simp only [step, asked] at moved
    cases moved
    have steady := converging.machines i
    have process := steady.process
    rw [asked] at process
    obtain ⟨follows, below⟩ := process
    have reaches := reaches memory cursor asked
    rw [follows.named] at reaches
    have read := follows.read converging.mirrored.issued below reaches
    refine converging.machine (steady.move (by rw [asked]; rfl) read rfl) ?_
    refine converging.unawaited fun _ _ _ _ pushing => ?_
    rw [asked] at pushing
    contradiction
  · contradiction

theorem pairwise_eraseIdx {α : Type*} {R : α → α → Prop} {as : List α} {index : Nat} {a : α}
    (symmetric : ∀ a b, R a b → R b a) (pairwise : as.Pairwise R) (found : as[index]? = some a) :
    ∀ b ∈ as.eraseIdx index, R a b := by
  induction as generalizing index with
  | nil => contradiction
  | cons first rest ih =>
    obtain ⟨here, later⟩ := List.pairwise_cons.mp pairwise
    intro b member
    cases index with
    | zero =>
      cases found
      exact here b member
    | succ index =>
      rcases List.mem_cons.mp member with rfl | there
      · exact symmetric _ _ (here a (List.mem_of_getElem? found))
      · exact ih later found b there

omit [DecidableEq ι] [DecidableEq π] in
/-- The other pushes that clients wait for are those of other clients. -/
theorem Converging.alone {index : Nat} {flight : Flight ι} (converging : Converging names replaced s)
    (found : s.flights[index]? = some flight) (live : flight.live = true) :
    ∀ other ∈ s.flights.eraseIdx index, other.live = true → other.client ≠ flight.client := by
  intro other member alive same
  have apart := pairwise_eraseIdx (fun a b apart right left same => apart left right same.symm)
    converging.single found other member
  exact apart live alive same.symm

/-- A push that has failed stops its client, if it waits. -/
theorem fail_converging {index : Nat} {flight : Flight ι} (converging : Converging names replaced s)
    (found : s.flights[index]? = some flight) :
    Converging names replaced
      ({ s with flights := s.flights.eraseIdx index }.answer env flight .stop) := by
  have erased := converging.erase index
  unfold Network.answer
  split
  · rename_i live
    obtain ⟨memory, proposed, read, pushing, _⟩ :=
      (converging.flights flight (List.mem_of_getElem? found)).awaited live
    simp only [step]
    refine erased.machine ?_ fun other member alive same =>
      absurd same (converging.alone found live other member alive)
    have stops : step env (s.machines flight.client) .stop =
      some { s.machines flight.client with process := .stopped } := rfl
    refine step_steady stops rfl (converging.machines flight.client)
      (fun _ _ same => by cases same) trivial fun id withheld => ?_
    simp only [Machine.Withholds, pushing, Process.unsaved] at withheld
    exact absurd withheld.1 Bool.false_ne_true
  · exact erased

theorem commit_converging {index : Nat} {now : Timestamp} {network : Network ι π}
    (converging : Converging names replaced s)
    (orderly : ∀ flight ∈ s.flights[index]?,
      CountsFrom s.db (.push flight.clientId flight.inputs flight.loaded) ∧
      ((flight.inputs.map Prod.fst).map SyncOperationInput.operationId).Nodup ∧
      ∀ input ∈ flight.inputs.map Prod.fst, ∀ operation ∈ s.db.operations,
        operation.operationId ≠ input.operationId)
    (unheard : ∀ flight ∈ s.flights[index]?, flight.live = false →
      ∀ entry ∈ flight.inputs, replaced entry.2.operation)
    (passed : ∀ flight ∈ s.flights[index]?, flight.live = true →
      ∀ memory operations proposed loaded,
        (s.machines flight.client).process = .pushing memory operations proposed loaded →
      ∀ operation ∈ s.db.operations, Foreign s.db memory.state.clientId operation →
        memory.state.cursor < operation.cursor →
          (AllRecorded s.db flight.clientId flight.inputs → operation.cursor ≤ flight.loaded) →
            replaced operation.id)
    (stepped : s.step env (.commit index now) = some network) : Converging names replaced network := by
  simp only [Network.step] at stepped
  split at stepped
  · contradiction
  · rename_i flight found
    obtain ⟨counts, ids, unused⟩ := orderly flight found
    obtain ⟨loaded, author, deletes, numbers, awaited⟩ :=
      converging.flights flight (List.mem_of_getElem? found)
    split at stepped
    · rename_i b result
      cases stepped
      obtain ⟨mirrored, advances, grows⟩ := applyOperations_mirrored converging.mirrored counts deletes
        result
      unfold Network.answer
      split
      · rename_i live
        obtain ⟨memory, proposed, read, pushing, carries⟩ := awaited live
        have steady := converging.machines flight.client
        have process := steady.process
        rw [pushing] at process
        have author := author live
        have follows : Follows s.db replaced flight.clientId memory.state memory.state.cursor [] :=
          author ▸ process
        simp only [step, pushing]
        refine ⟨mirrored, Converging.positive_grows converging.positive grows
            (fun operation _ issued => issued.beyond), converging.apart, fun j => ?_,
          fun other member => ?_, converging.single.sublist (List.eraseIdx_sublist ..)⟩
        · by_cases same : j = flight.client
          · subst same
            simp only [Network.setMachine, Function.update_self]
            refine ⟨steady.saved.grows grows advances (fun id spared => .inl ?_)
              fun operation member issued => ⟨issued.beyond, .inl (.inr ⟨rfl, operation, member, rfl, ?_, ?_⟩)⟩, ?_⟩
            · exact spared.resolve_right fun unsaved => by
                rw [pushing] at unsaved
                exact Bool.false_ne_true unsaved.1
            · exact issued.author.trans author
            · exact steady.saved.bounded.trans_lt issued.beyond
            · rw [← author]
              refine answer_follows converging.mirrored follows counts loaded (carries ids) deletes
                ⟨ids, numbers⟩ unused (fun operation member foreign beyond => ?_) result rfl
              rw [← follows.named] at foreign
              exact passed flight found live memory _ proposed read pushing operation member foreign beyond
          · simp only [Network.setMachine, Function.update_of_ne same]
            refine (converging.machines j).grows grows advances fun operation _ issued => ⟨issued.beyond, .inr ?_⟩
            rw [issued.author, author]
            exact fun equal => same (converging.apart _ _ equal).symm
        · refine (((converging.erase index).flights other member).grows grows advances).machine ?_
          exact fun alive same => absurd same (converging.alone found live other member alive)
      · rename_i dead
        refine (converging.erase index).rows mirrored grows advances
          (fun operation _ issued => issued.beyond) fun i operation _ issued => ⟨issued.beyond, .inl ?_⟩
        obtain ⟨entry, member, same⟩ := List.mem_map.mp issued.listed
        rw [← same]
        exact unheard flight found (by simpa using dead) entry member
    · cases stepped
      exact fail_converging converging found

theorem drop_converging {index : Nat} {network : Network ι π} (converging : Converging names replaced s)
    (stepped : s.step env (.drop index) = some network) : Converging names replaced network := by
  simp only [Network.step] at stepped
  split at stepped
  · contradiction
  · rename_i flight found
    cases stepped
    exact fail_converging converging found

omit [DecidableEq ι] [DecidableEq π] in
theorem upload_converging {asset : Asset} {assets : List Asset} (converging : Converging names replaced s)
    (inserted : insertRow Asset.id s.db.assets asset = .ok assets) :
    Converging names replaced { s with db := { s.db with assets } } := by
  obtain ⟨rfl, unused⟩ := insertRow_ok inserted
  have same : SameItems s.db { s.db with assets := s.db.assets ++ [asset] } :=
    ⟨rfl, rfl, fun row member => ⟨row, List.mem_append_left _ member, rfl, rfl⟩⟩
  have ids : ((s.db.assets ++ [asset]).map Asset.id).Nodup := by
    rw [List.map_append, List.nodup_append]
    refine ⟨converging.mirrored.assetIds, List.nodup_singleton _, fun id here new there => ?_⟩
    obtain ⟨row, present, rfl⟩ := List.mem_map.mp here
    rw [List.map_singleton, List.mem_singleton] at there
    exact there ▸ unused row present
  have nothing : Grows s.db { s.db with assets := s.db.assets ++ [asset] } fun _ => False :=
    .same same rfl
  exact converging.rows (converging.mirrored.beside same rfl rfl ids) nothing (Nat.le_refl _)
    (fun _ _ none => none.elim) fun _ _ _ none => none.elim

omit [DecidableEq ι] [DecidableEq π] in
theorem resolve_converging {conflict : SyncConflict} {choice : Choice} {fresh : FreshIds}
    {now : Timestamp} {db : SyncDb} (converging : Converging names replaced s)
    (current : Current s.db conflict)
    (reissued : conflict.status = .unresolved → choice = .keepLocal → replaced conflict.localOperationId)
    (result : resolveConflict s.db conflict choice fresh now = .ok db) :
    Converging names replaced { s with db } := by
  by_cases unresolved : conflict.status = .unresolved
  · obtain ⟨mirrored, same | ⟨operation, member, named, refused, chosen⟩⟩ :=
      resolveConflict_mirrored converging.mirrored current result
    · exact same ▸ converging
    · have advances := (resolveConflict_advances converging.mirrored.issued result).2
      refine converging.rows mirrored chosen.grows advances (fun other _ kept => kept.2.1)
        fun i other _ kept => ⟨kept.2.1, .inl ?_⟩
      obtain ⟨kept, beyond, id, _⟩ := kept
      rw [id, named]
      exact reissued unresolved kept
  · rcases resolveConflict_cases result with ⟨_, rfl⟩ | ⟨still, _⟩
    · exact converging
    · exact absurd still unresolved

omit [DecidableEq ι] [DecidableEq π] in
/-- A proposal is right where the state is left by the journal and the file is uploaded. -/
theorem proposes_backed {db : SyncDb} {state : ClientState} {files : Dict String LocalFile}
    {proposed : Dict UUID Proposal} {operation : SyncOperationInput} (traced : Traced db state.entries)
    (uploaded : Uploaded env db files operation) (proposes : Proposes env state files proposed operation) :
    ∃ proposal, proposed.get? operation.operationId = some proposal ∧ Backed db operation proposal := by
  obtain ⟨proposal, found, suits⟩ := proposes
  refine ⟨proposal, found, ?_⟩
  cases suits with
  | move entry tracked file kind member base path found digest content =>
    obtain ⟨before, effective, named, left⟩ := traced _ member
    exact .move entry before kind path effective named left.present (left.revision.symm.trans base.symm)
      (content.trans left.content)
  | upsert entry file kind path present content =>
    refine .upsert entry kind path fun id here => ?_
    obtain ⟨name, named, other, there, asset, member, same, _, digest⟩ := uploaded id here
    obtain rfl : entry.relativePath = name := Option.some.inj (path.symm.trans named)
    obtain rfl : file = other := Option.some.inj (present.symm.trans there)
    exact ⟨asset, member, congrArg some same.symm, content.trans (congrArg some digest.symm)⟩
  | delete tracked kind member => exact .delete kind

/-- The push of what `local_changes` has found. -/
theorem push_converging {i : ι} {memory : Memory π} {files : Dict String LocalFile}
    {draw : Nat → Draw} {operations : List SyncOperationInput} {proposed : Dict UUID Proposal}
    {fresh : Nat → FreshIds} {network : Network ι π} (converging : Converging names replaced s)
    (pulled : (s.machines i).process = .pulled memory) (distinct : (files.map Prod.fst).Nodup)
    (computed : localChanges env memory.state files draw = some (operations, proposed))
    (uploaded : ∀ operation ∈ operations, Uploaded env s.db files operation)
    (stepped : s.step env (.push i (operations.map fun operation =>
      (operation, fresh operation.clientSequence)) proposed) = some network) :
    Converging names replaced network := by
  have steady := converging.machines i
  have process := steady.process
  rw [pulled] at process
  have follows : Follows s.db replaced (names i) memory.state memory.state.cursor [] := process
  have inputs : (operations.map fun operation =>
      (operation, fresh operation.clientSequence)).map Prod.fst = operations := by
    rw [List.map_map]
    exact List.map_id operations
  have found := localChanges_computed distinct computed
  obtain ⟨keys, proposes⟩ := localChanges_proposes distinct computed
  simp only [Network.step, pulled, step, inputs, Option.map_some] at stepped
  cases stepped
  have idle : ∀ flight ∈ s.flights, flight.live = true → flight.client = i → False := by
    rintro flight member live rfl
    obtain ⟨_, _, _, pushing, _⟩ := (converging.flights flight member).awaited live
    rw [pulled] at pushing
    contradiction
  have goes : Machine.Steady s.db replaced (names i) { s.machines i with
      process := .pushing memory operations proposed s.db.root.cursor } :=
    steady.move (by rw [pulled]; rfl) follows rfl
  have moved := converging.machine goes fun flight member live same =>
    (idle flight member live same).elim
  refine ⟨moved.mirrored, moved.positive, moved.apart, moved.machines, fun flight member => ?_, ?_⟩
  · rcases List.mem_append.mp member with before | new
    · obtain ⟨loaded, author, deletes, numbers, awaited⟩ := moved.flights flight before
      exact ⟨loaded, author, deletes, numbers, awaited⟩
    · rw [List.mem_singleton.mp new]
      refine ⟨Nat.le_refl _, fun _ => follows.named, ?_, ?_, fun _ => ⟨memory, proposed, s.db.root.cursor, ?_, ?_⟩⟩
      · dsimp only
        rw [inputs]
        intro operation there delete
        rcases found.tracks operation there with ⟨entry, tracked, _⟩ | ⟨upsert, _⟩
        · obtain ⟨before, effective, named, _⟩ := follows.traced _ tracked
          have known := converging.mirrored.found effective
          rw [named] at known
          exact known
        · rw [delete] at upsert
          contradiction
      · dsimp only
        rw [inputs, found.numbered]
        exact List.nodup_range' ..
      · dsimp only [Network.setMachine]
        rw [inputs, Function.update_self]
      · dsimp only
        rw [inputs]
        exact fun ids => ⟨fun operation there =>
          proposes_backed follows.traced (uploaded operation there) (proposes ids operation there), keys⟩
  · refine List.pairwise_append.mpr ⟨converging.single, List.pairwise_singleton _ _, ?_⟩
    intro flight member other new live _ same
    rw [List.mem_singleton.mp new] at same
    exact idle flight member live same

end Networks

end Drivebound.Desktop
