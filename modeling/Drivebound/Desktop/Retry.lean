import Drivebound.Desktop.Events
import Drivebound.Desktop.Repeats
import Mathlib

/-! Pushes whose answer is lost, in the runs of the clients of a root. A push can commit after its
client has stopped, and a client that has no state file yet goes under another id in its next run.
What the client knows of its own changes is settled when its push commits, or when it finds nothing
to push. -/
namespace Drivebound.Desktop
open Sync Checked Run Latest

variable {ι π : Type} [DecidableEq ι] [DecidableEq π]

/-- The ids under which the runs of the client have gone. -/
def Clients.names (s : Clients ι π) (i : ι) (clientId : String) : List String :=
  clientId :: (s.network.machines i).names

/-- The push that commits is faithful to the folder it was computed from, and so is the server
where a run finds nothing to push. -/
def StepFaithful (env : Env π) (relative : π → Option String) (s : Clients ι π) : Event ι π → Prop
  | .net (.commit index now) => ∀ flight ∈ s.network.flights[index]?, ∃ origin ∈ s.origins[index]?,
    let names := s.names flight.client flight.clientId
    Along (turn flight.clientId now)
      (fun b entry => Faithful env s.network.db names flight.clientId origin.files b entry.1)
      ⟨flight.loaded, s.network.db, [], []⟩ flight.inputs ∧
    ∀ b, applyOperations s.network.db flight.loaded flight.clientId flight.inputs now = .ok b →
      Reflects env b.db names origin.state origin.files (flight.inputs.map Prod.fst)
  | .push i order draw _ =>
    match (s.network.machines i).process with
    | .pulled memory =>
      let files := scan relative (s.network.machines i).folder order
      ∀ found ∈ localChanges env memory.state files draw, found.1 = [] →
        Reflects env s.network.db (s.names i memory.state.clientId) memory.state files []
    | _ => True
  | _ => True

/-- The push that commits was computed from a state that is informed, and so is the run that finds
nothing to push. -/
def StepInformed (env : Env π) (relative : π → Option String) (s : Clients ι π) : Event ι π → Prop
  | .net (.commit index _) => ∀ flight ∈ s.network.flights[index]?, ∀ origin ∈ s.origins[index]?,
    Informed env s.network.db (s.names flight.client flight.clientId) origin.state origin.files
      origin.draw (flight.inputs.map Prod.fst)
  | .push i order draw _ =>
    match (s.network.machines i).process with
    | .pulled memory =>
      let files := scan relative (s.network.machines i).folder order
      ∀ found ∈ localChanges env memory.state files draw, found.1 = [] →
        Informed env s.network.db (s.names i memory.state.clientId) memory.state files draw []
    | _ => True
  | _ => True

instance (env : Env π) (relative : π → Option String) (s : Clients ι π) :
    DecidablePred (StepInformed env relative s)
  | .net (.commit _ _) => @Option.decidableForallMem _ _ (fun _ => Option.decidableForallMem ..) _
  | .push i order draw _ => by
    unfold StepInformed
    dsimp only
    generalize (s.network.machines i).process = process
    exact match process with
      | .pulled memory => Option.decidableForallMem ..
      | .stopped | .ready _ | .asked .. | .pulling .. | .unlinking .. | .downloading .. | .pushing ..
      | .answered .. | .acknowledged _ => isTrue trivial
  | .net (.client ..) | .net (.readRoot _) | .net (.readPage _) | .net (.push ..) | .net (.drop _)
  | .upload _ => isTrue trivial

/-- The events are in order, and the pushes informed. -/
structure InformedOrderly (env : Env π) (relative : π → Option String) (s : Clients ι π)
    (event : Event ι π) : Prop where
  orderly : Orderly env relative s event
  informed : StepInformed env relative s event

instance [Fintype ι] (env : Env π) (relative : π → Option String) (s : Clients ι π) :
    DecidablePred (InformedOrderly env relative s) := fun event =>
  decidable_of_iff (Orderly env relative s event ∧ StepInformed env relative s event)
    ⟨fun ⟨orderly, informed⟩ => ⟨orderly, informed⟩, fun both => ⟨both.orderly, both.informed⟩⟩

/-- Every push under way is what its origin gives. -/
structure Sent (env : Env π) (db : SyncDb) (flight : Flight ι) (origin : Origin) : Prop where
  author : flight.clientId = origin.state.clientId
  pushed : Pushed env db origin.state origin.files origin.draw (flight.inputs.map Prod.fst)

structure Aligned (env : Env π) (s : Clients ι π) : Prop where
  converging : ∃ names, Converging names (fun _ => True) s.network
  sent : List.Forall₂ (Sent env s.network.db) s.network.flights s.origins

/-- The push at an index and its origin. -/
theorem forall₂_at {α β : Type*} {R : α → β → Prop} {as : List α} {bs : List β}
    (related : List.Forall₂ R as bs) {index : Nat} {a : α} (found : as[index]? = some a) :
    ∃ b, bs[index]? = some b ∧ R a b := by
  induction related generalizing index with
  | nil => contradiction
  | cons first _ ih =>
    cases index with
    | zero =>
      cases found
      exact ⟨_, rfl, first⟩
    | succ index => exact ih found

theorem forall₂_eraseIdx {α β : Type*} {R : α → β → Prop} {as : List α} {bs : List β}
    (related : List.Forall₂ R as bs) (index : Nat) :
    List.Forall₂ R (as.eraseIdx index) (bs.eraseIdx index) := by
  rw [List.eraseIdx_eq_take_drop_succ, List.eraseIdx_eq_take_drop_succ]
  exact List.rel_append (List.forall₂_take index related) (List.forall₂_drop (index + 1) related)

section Events

variable {env : Env π} {relative : π → Option String} {s t : Clients ι π} {network : Network ι π}
  {origins : List Origin} {names : ι → String} {replaced : UUID → Prop}

omit [DecidableEq ι] [DecidableEq π] in
theorem sent_grows {flights : List (Flight ι)} {db after : SyncDb} {new : SyncOperation → Prop}
    (sent : List.Forall₂ (Sent env db) flights origins) (grows : Grows db after new) :
    List.Forall₂ (Sent env after) flights origins :=
  sent.imp fun _ _ same => ⟨same.author, same.pushed.grows grows⟩

omit [DecidableEq π] in
/-- A client that no longer waits has sent what it has sent. -/
theorem release_sent {db : SyncDb} (i : ι) (label : Label π)
    (sent : List.Forall₂ (Sent env db) network.flights origins) :
    List.Forall₂ (Sent env db) (network.release i label).flights origins := by
  cases label with
  | stop | load =>
    refine List.forall₂_map_left_iff.mpr (sent.imp fun flight origin same => ?_)
    split
    · exact ⟨same.author, same.pushed⟩
    · exact same
  | _ => exact sent

theorem answer_keeps (network : Network ι π) (env : Env π) (flight : Flight ι) (label : Label π) :
    (network.answer env flight label).db = network.db ∧
      (network.answer env flight label).flights = network.flights := by
  unfold Network.answer
  split
  · split <;> exact ⟨rfl, rfl⟩
  · exact ⟨rfl, rfl⟩

theorem client_sent {i : ι} {label : Label π}
    (sent : List.Forall₂ (Sent env s.network.db) s.network.flights s.origins)
    (stepped : s.network.step env (.client i label) = some network) :
    List.Forall₂ (Sent env network.db) network.flights s.origins := by
  simp only [Network.step] at stepped
  split at stepped
  · obtain ⟨m, _, rfl⟩ := Option.map_eq_some_iff.mp stepped
    have same : (s.network.release i label).db = s.network.db := release_db ..
    exact same ▸ release_sent i label sent
  · contradiction

theorem commit_sent {index : Nat} {now : Timestamp}
    (converging : Converging names replaced s.network)
    (orderly : Orderly env relative s (.net (.commit index now)))
    (sent : List.Forall₂ (Sent env s.network.db) s.network.flights s.origins)
    (stepped : s.network.step env (.commit index now) = some network) :
    List.Forall₂ (Sent env network.db) network.flights (s.origins.eraseIdx index) := by
  have remaining := forall₂_eraseIdx sent index
  simp only [Network.step] at stepped
  split at stepped
  · contradiction
  · rename_i flight found
    split at stepped
    · rename_i b result
      cases stepped
      obtain ⟨db, flights⟩ := answer_keeps
        ({ s.network with flights := s.network.flights.eraseIdx index, db := b.db }) env flight
        (.answerPush { cursor := b.cursor, operations := b.operations, conflicts := b.conflicts.map SyncConflict.id })
      rw [db, flights]
      have underway := converging.flights flight (List.mem_of_getElem? found)
      obtain ⟨_, _, grows⟩ := applyOperations_mirrored converging.mirrored (orderly flight found).counts
        underway.deletes result
      exact sent_grows remaining grows
    · cases stepped
      obtain ⟨db, flights⟩ := answer_keeps
        ({ s.network with flights := s.network.flights.eraseIdx index }) env flight .stop
      rw [db, flights]
      exact remaining

theorem drop_sent {index : Nat}
    (sent : List.Forall₂ (Sent env s.network.db) s.network.flights s.origins)
    (stepped : s.network.step env (.drop index) = some network) :
    List.Forall₂ (Sent env network.db) network.flights (s.origins.eraseIdx index) := by
  simp only [Network.step] at stepped
  split at stepped
  · contradiction
  · rename_i flight found
    cases stepped
    obtain ⟨db, flights⟩ := answer_keeps
      ({ s.network with flights := s.network.flights.eraseIdx index }) env flight .stop
    rw [db, flights]
    exact forall₂_eraseIdx sent index

omit [DecidableEq ι] in
/-- What a client finds in its folder is computed from a state that the server has left. -/
theorem found_pushed {i : ι} {memory : Memory π} {order : List π} {draw : Nat → Draw}
    {operations : List SyncOperationInput} {proposed : Dict UUID Proposal}
    (converging : Converging names replaced s.network)
    (pulled : (s.network.machines i).process = .pulled memory)
    (computed : localChanges env memory.state (scan relative (s.network.machines i).folder order) draw =
      some (operations, proposed))
    (uploaded : ∀ operation ∈ operations, Uploaded env s.network.db
      (scan relative (s.network.machines i).folder order) operation) :
    Pushed env s.network.db memory.state (scan relative (s.network.machines i).folder order) draw
      operations := by
  have process := (converging.machines i).process
  rw [pulled] at process
  have follows : Follows s.network.db replaced (names i) memory.state memory.state.cursor [] := process
  have distinct := scan_distinct relative (s.network.machines i).folder order
  obtain ⟨_, proposes⟩ := localChanges_proposes distinct computed
  refine ⟨localChanges_computed distinct computed, localChanges_accounts distinct computed,
    follows.traced, fun ids operation member => ?_⟩
  have proposed := proposes ids operation member
  obtain ⟨proposal, found, backed⟩ := proposes_backed follows.traced (uploaded operation member) proposed
  obtain ⟨other, same, suits⟩ := proposed
  cases same.symm.trans found
  exact ⟨_, suits, backed⟩

theorem push_sent {i : ι} {order : List π} {draw : Nat → Draw} {memory : Memory π}
    {operations : List SyncOperationInput} {proposed : Dict UUID Proposal} {fresh : Nat → FreshIds}
    (converging : Converging names replaced s.network)
    (pushes : Pushes env relative s i order draw memory operations proposed)
    (sent : List.Forall₂ (Sent env s.network.db) s.network.flights s.origins)
    (stepped : s.network.step env (.push i (operations.map fun operation =>
      (operation, fresh operation.clientSequence)) proposed) = some network) :
    List.Forall₂ (Sent env network.db) network.flights (s.origins ++
      [⟨memory.state, scan relative (s.network.machines i).folder order, draw⟩]) := by
  have inputs : (operations.map fun operation =>
      (operation, fresh operation.clientSequence)).map Prod.fst = operations := by
    rw [List.map_map]
    exact List.map_id operations
  have pushed := found_pushed converging pushes.process pushes.computed pushes.uploaded
  simp only [Network.step, pushes.process] at stepped
  obtain ⟨m, _, rfl⟩ := Option.map_eq_some_iff.mp stepped
  refine List.rel_append sent (.cons ⟨rfl, ?_⟩ .nil)
  dsimp only
  rw [inputs]
  exact pushed

theorem step_sent {event : Event ι π} (converging : Converging names replaced s.network)
    (orderly : Orderly env relative s event)
    (sent : List.Forall₂ (Sent env s.network.db) s.network.flights s.origins)
    (stepped : s.step env relative event = some t) :
    List.Forall₂ (Sent env t.network.db) t.network.flights t.origins := by
  cases event with
  | net label =>
    cases label with
    | client i label =>
      simp only [Clients.step] at stepped
      split at stepped
      · obtain ⟨network, moved, rfl⟩ := Option.map_eq_some_iff.mp stepped
        exact client_sent (s := s) sent moved
      · contradiction
    | readRoot i =>
      obtain ⟨network, moved, rfl⟩ := Option.map_eq_some_iff.mp stepped
      obtain ⟨m, _, rfl⟩ := Option.map_eq_some_iff.mp moved
      exact sent
    | readPage i =>
      obtain ⟨network, moved, rfl⟩ := Option.map_eq_some_iff.mp stepped
      simp only [Network.step] at moved
      split at moved
      · obtain ⟨m, _, rfl⟩ := Option.map_eq_some_iff.mp moved
        exact sent
      · contradiction
    | push i inputs proposed => contradiction
    | commit index now =>
      obtain ⟨network, moved, rfl⟩ := Option.map_eq_some_iff.mp stepped
      exact commit_sent converging orderly sent moved
    | drop index =>
      obtain ⟨network, moved, rfl⟩ := Option.map_eq_some_iff.mp stepped
      exact drop_sent sent moved
  | upload asset =>
    obtain ⟨assets, inserted, rfl⟩ := Option.map_eq_some_iff.mp stepped
    obtain ⟨rfl, _⟩ := insertRow_ok (toOption_some_iff.mp inserted)
    have same : SameItems s.network.db { s.network.db with assets := s.network.db.assets ++ [asset] } :=
      ⟨rfl, rfl, fun row member => ⟨row, List.mem_append_left _ member, rfl, rfl⟩⟩
    exact sent_grows sent (.same same rfl : Grows _ _ fun _ => True)
  | push i order draw fresh =>
    obtain ⟨memory, operations, proposed, network, pushes, ⟨_, skipped, rfl⟩ | ⟨pushed, rfl⟩⟩ :=
      push_cases stepped orderly
    · exact client_sent (s := s) sent skipped
    · exact push_sent converging pushes sent pushed

theorem step_aligned (s : Clients ι π) (event : Event ι π) (t : Clients ι π) (aligned : Aligned env s)
    (informed : InformedOrderly env relative s event) (stepped : s.step env relative event = some t) :
    Aligned env t := by
  obtain ⟨names, converging⟩ := aligned.converging
  exact ⟨event_converging converging informed.orderly (fun _ _ => trivial) stepped,
    step_sent converging informed.orderly aligned.sent stepped⟩

omit [DecidableEq ι] in
/-- The push that commits: it is ready, as its origin is informed. -/
theorem commit_faithful {index : Nat} {now : Timestamp} (aligned : Aligned env s)
    (informed : InformedOrderly env relative s (.net (.commit index now))) :
    StepFaithful env relative s (.net (.commit index now)) := by
  intro flight found
  obtain ⟨names, converging⟩ := aligned.converging
  obtain ⟨origin, there, ⟨author, pushed⟩⟩ := forall₂_at aligned.sent found
  have counted := informed.orderly flight found
  have known := informed.informed flight found origin there
  obtain ⟨client, clientId, inputs, loaded, live⟩ := flight
  obtain rfl : clientId = origin.state.clientId := author
  have ready : Ready env s.network.db (s.names client origin.state.clientId) origin.state origin.files
      origin.draw (inputs.map Prod.fst) := by
    refine ⟨converging.mirrored, pushed, known, ?_, fun input member => ?_⟩
    · rw [List.map_map]
      exact counted.ids
    · obtain ⟨entry, here, rfl⟩ := List.mem_map.mp member
      exact counted.unused entry here
  exact ⟨origin, there, ready.push counted.counts⟩

omit [DecidableEq ι] in
/-- A run that finds nothing to push. -/
theorem idle_faithful {i : ι} {order : List π} {draw : Nat → Draw} {fresh : Nat → FreshIds}
    (aligned : Aligned env s)
    (informed : StepInformed env relative s (.push i order draw fresh)) :
    StepFaithful env relative s (.push i order draw fresh) := by
  obtain ⟨names, converging⟩ := aligned.converging
  simp only [StepInformed, StepFaithful] at informed ⊢
  split
  · rename_i memory pulled
    rw [pulled] at informed
    rintro ⟨operations, proposed⟩ computed rfl
    have none : ∀ input ∈ ([] : List SyncOperationInput), False := fun _ member => List.not_mem_nil member
    have ready : Ready env s.network.db (s.names i memory.state.clientId) memory.state
        (scan relative (s.network.machines i).folder order) draw [] :=
      ⟨converging.mirrored, found_pushed converging pulled computed fun _ member => (none _ member).elim,
        informed _ computed rfl, List.nodup_nil, fun _ member => (none _ member).elim⟩
    exact ready.idle
  · trivial

omit [DecidableEq ι] in
theorem step_faithful (s : Clients ι π) (event : Event ι π) (aligned : Aligned env s)
    (informed : InformedOrderly env relative s event) : StepFaithful env relative s event := by
  cases event with
  | net label =>
    cases label with
    | commit index now => exact commit_faithful aligned informed
    | client | readRoot | readPage | push | drop => trivial
  | upload asset => trivial
  | push i order draw fresh => exact idle_faithful aligned informed.informed

omit [DecidableEq ι] [DecidableEq π] in
theorem Begins.aligned (begins : Begins s) (unsent : s.origins = []) : Aligned env s := by
  refine ⟨⟨_, begins.converging _⟩, ?_⟩
  rw [begins.idle, unsent]
  exact .nil

end Events

/-- In every run of the clients of a new root in which each push that commits, and each run without
a push, knows its own changes on the server or repeats them, no change is dropped for its number, no
conflict is one with the client itself, no file gets a second item, and the items of the client end
as the files of its folder. -/
theorem informed_pushes_are_faithful {env : Env π} {relative : π → Option String}
    {s : Clients ι π} {events : List (Event ι π)} (begins : Begins s) (unsent : s.origins = [])
    (informed : Along (Clients.step env relative) (InformedOrderly env relative) s events) :
    Along (Clients.step env relative) (StepFaithful env relative) s events :=
  along_of_invariant step_aligned step_faithful (begins.aligned unsent) informed

/-- A computer alone on a root that nobody has pushed to. -/
def oneComputer (folder : Folder String) : Clients Unit String where
  network := { db := registeredRoot, machines := fun _ => joining folder, flights := [] }
  origins := []

theorem oneComputer_begins (folder : Folder String) : Begins (oneComputer folder) where
  operations := fun _ member => absurd member List.not_mem_nil
  items := fun _ member => absurd member List.not_mem_nil
  keys := List.nodup_nil
  itemIds := List.nodup_nil
  assetIds := List.nodup_nil
  undecided := ⟨fun _ member => absurd member List.not_mem_nil,
    fun _ member => absurd member List.not_mem_nil, fun _ member => absurd member List.not_mem_nil⟩
  apart := fun _ _ _ => rfl
  stopped := fun _ => rfl
  entries := fun _ => rfl
  cursors := fun _ => Nat.le_refl _
  idle := rfl

/-- A run up to its push, with the operations that its pull passes. -/
def pullPassing (drawn : String) (own : Nat) : List (Event Unit String) :=
  [.net (.client () (.load 1 drawn)), .net (.readRoot ()), .net (.readPage ())] ++
    List.replicate own (.net (.client () .examine)) ++ [.net (.client () .finishPull)]

/-- A file is uploaded; the session of the upload goes to the state file. -/
def uploads (id : UUID) (content : List UInt8) : List (Event Unit String) :=
  [.upload (stored id content), .net (.client () .save)]

/-- The push of a run, with ids from `base` on and the assets its uploads give. -/
def pushFrom (base : Nat) (order : List String) (assets : Nat → Option UUID) : Event Unit String :=
  .push () order (fun n => ⟨base + n, base + 20 + n, assets n⟩)
    fun n => ⟨base + 40 + n, base + 50 + n, base + 60 + n, base + 70 + n⟩

def answered : List (Event Unit String) :=
  [.net (.client () .acknowledge), .net (.client () .save)]

def lost : List (Event Unit String) := [.net (.client () .stop)]

/-- A new file is uploaded and pushed. -/
def addFile : List (Event Unit String) :=
  pullPassing "new" 0 ++ uploads 4 [1] ++ [pushFrom 100 ["a.txt"] fun _ => some 4, .net (.commit 0 5)]

/-- After a new file, a run finds nothing to push. -/
def idle : List (Event Unit String) :=
  addFile ++ answered ++ pullPassing "other" 0 ++
    [pushFrom 200 ["a.txt"] fun _ => none, .net (.client () .save)]

/-- The file is changed; the push is lost and repeated as it was. -/
def repeatFile : List (Event Unit String) :=
  idle ++ [.net (.client () (.edit "a.txt" (some ⟨[2, 2], 20⟩)))] ++
    pullPassing "other" 0 ++ uploads 5 [2, 2] ++
    [pushFrom 300 ["a.txt"] fun _ => some 5, .net (.commit 0 6)] ++ lost ++ pullPassing "other" 1 ++
    [pushFrom 500 ["a.txt"] fun _ => some 5, .net (.commit 0 7)] ++ answered

/-- The items of the root with their assets. -/
def placed (s : Clients Unit String) : List (String × Option UUID) :=
  s.network.db.items.map fun item => (item.relativePath, item.assetId)

theorem informed_pushes_are_faithful_repeated :
    Along (Clients.step byteEnv some) (StepFaithful byteEnv some)
        (oneComputer [("a.txt", ⟨[1], 10⟩)]) repeatFile ∧
      ∃ t, run (Clients.step byteEnv some) (oneComputer [("a.txt", ⟨[1], 10⟩)]) repeatFile = some t ∧
        placed t = [("a.txt", some 5)] := by
  refine ⟨informed_pushes_are_faithful (oneComputer_begins _) rfl (by decide), ?_⟩
  have repeats : (run (Clients.step byteEnv some) (oneComputer [("a.txt", ⟨[1], 10⟩)])
      repeatFile).any fun t => placed t = [("a.txt", some 5)] := by
    decide
  obtain ⟨t, reached, items⟩ := (Option.any_eq_true _ _).mp repeats
  exact ⟨t, reached, of_decide_eq_true items⟩

/-- The file is changed after the push that is lost; the next push is acknowledged. -/
def changeFileMeanwhile : List (Event Unit String) :=
  addFile ++ lost ++ [.net (.client () (.edit "a.txt" (some ⟨[2, 2], 20⟩)))] ++
    pullPassing "other" 1 ++ uploads 5 [2, 2] ++
    [pushFrom 300 ["a.txt"] fun _ => some 5, .net (.commit 0 6)] ++ answered

/-- The push of a change of the file is lost; a second file is found before it. -/
def addFileMeanwhile : List (Event Unit String) :=
  addFile ++ answered ++ [.net (.client () (.edit "a.txt" (some ⟨[2, 2], 20⟩)))] ++
    pullPassing "other" 0 ++ uploads 5 [2, 2] ++
    [pushFrom 300 ["a.txt"] fun _ => some 5, .net (.commit 0 6)] ++ lost ++
    [.net (.client () (.edit "b.txt" (some ⟨[3], 30⟩)))] ++
    pullPassing "other" 1 ++ uploads 6 [3] ++
    [pushFrom 500 ["b.txt", "a.txt"] fun n => if n = 2 then some 6 else some 5, .net (.commit 0 7)] ++
    answered

/-- Nothing is written before the first push, as its file has been uploaded before; it commits when
the next run has pulled. -/
def startAnew : List (Event Unit String) :=
  pullPassing "new" 0 ++ [.upload (stored 4 [1]), pushFrom 100 ["a.txt"] fun _ => some 4] ++ lost ++
    pullPassing "other" 0 ++
    [.net (.commit 0 5), pushFrom 300 ["a.txt"] fun _ => some 4, .net (.commit 0 6)] ++ answered

/-- The file is deleted after the push that is lost. -/
def deleteFileMeanwhile : List (Event Unit String) :=
  addFile ++ lost ++ [.net (.client () (.edit "a.txt" none))] ++ pullPassing "other" 1 ++
    [pushFrom 300 [] fun _ => none, .net (.client () .save)]

/-- The number of the lost push takes the change of the file, which the next push gives a
second item; and it takes the second file, while the first is in conflict with itself. Without a
state file, the file gets two items at once; and the item of a file that is deleted stays. -/
theorem lost_push_drops_change :
    (∃ s t, run (Clients.step byteEnv some) (oneComputer [("a.txt", ⟨[1], 10⟩)])
        changeFileMeanwhile = some s ∧
      (s.network.machines ()).folder = [("a.txt", ⟨[2, 2], 20⟩)] ∧
      (s.network.machines ()).saved.state.recentOperations = [1] ∧
      placed s = [("a.txt", some 4)] ∧
      run (Clients.step byteEnv some) s
        (pullPassing "other" 0 ++ [pushFrom 500 ["a.txt"] fun _ => some 5, .net (.commit 0 7)]) = some t ∧
      placed t = [("a.txt", some 4), ("a.txt", some 5)]) ∧
    (∃ s, run (Clients.step byteEnv some) (oneComputer [("a.txt", ⟨[1], 10⟩)])
        addFileMeanwhile = some s ∧
      (s.network.machines ()).folder = [("a.txt", ⟨[2, 2], 20⟩), ("b.txt", ⟨[3], 30⟩)] ∧
      (s.network.machines ()).saved.state.recentOperations = [2, 3] ∧
      placed s = [("a.txt", some 5)] ∧
      s.network.db.conflicts.map (fun conflict => conflict.conflictingOperationId) = [some 342] ∧
      s.network.db.operations.map (fun operation => (operation.id, operation.clientId)) =
        [(141, "new"), (342, "new"), (543, "new")]) ∧
    (∃ s, run (Clients.step byteEnv some) (oneComputer [("a.txt", ⟨[1], 10⟩)]) startAnew = some s ∧
      placed s = [("a.txt", some 4), ("a.txt", some 361)]) ∧
    ∃ s, run (Clients.step byteEnv some) (oneComputer [("a.txt", ⟨[1], 10⟩)])
        deleteFileMeanwhile = some s ∧
      (s.network.machines ()).folder = [] ∧
      s.network.db.items.map SyncItem.deletedAt = [none] := by
  have drops : (run (Clients.step byteEnv some) (oneComputer [("a.txt", ⟨[1], 10⟩)])
      changeFileMeanwhile).any fun s =>
        (s.network.machines ()).folder = [("a.txt", ⟨[2, 2], 20⟩)] ∧
        (s.network.machines ()).saved.state.recentOperations = [1] ∧
        placed s = [("a.txt", some 4)] ∧
        (run (Clients.step byteEnv some) s
          (pullPassing "other" 0 ++ [pushFrom 500 ["a.txt"] fun _ => some 5, .net (.commit 0 7)])).any
            fun t => placed t = [("a.txt", some 4), ("a.txt", some 5)] := by
    decide
  have opposes : (run (Clients.step byteEnv some) (oneComputer [("a.txt", ⟨[1], 10⟩)])
      addFileMeanwhile).any fun s =>
        (s.network.machines ()).folder = [("a.txt", ⟨[2, 2], 20⟩), ("b.txt", ⟨[3], 30⟩)] ∧
        (s.network.machines ()).saved.state.recentOperations = [2, 3] ∧
        placed s = [("a.txt", some 5)] ∧
        s.network.db.conflicts.map (fun conflict => conflict.conflictingOperationId) = [some 342] ∧
        s.network.db.operations.map (fun operation => (operation.id, operation.clientId)) =
          [(141, "new"), (342, "new"), (543, "new")] := by
    decide
  have doubles : (run (Clients.step byteEnv some) (oneComputer [("a.txt", ⟨[1], 10⟩)])
      startAnew).any fun s => placed s = [("a.txt", some 4), ("a.txt", some 361)] := by
    decide
  have leaves : (run (Clients.step byteEnv some) (oneComputer [("a.txt", ⟨[1], 10⟩)])
      deleteFileMeanwhile).any fun s => (s.network.machines ()).folder = [] ∧
        s.network.db.items.map SyncItem.deletedAt = [none] := by
    decide
  obtain ⟨s, reached, found⟩ := (Option.any_eq_true _ _).mp drops
  obtain ⟨folder, saved, items, later⟩ := of_decide_eq_true found
  obtain ⟨t, following, twice⟩ := (Option.any_eq_true _ _).mp later
  obtain ⟨u, done, conflicts⟩ := (Option.any_eq_true _ _).mp opposes
  obtain ⟨v, anew, both⟩ := (Option.any_eq_true _ _).mp doubles
  obtain ⟨w, gone, stays⟩ := (Option.any_eq_true _ _).mp leaves
  exact ⟨⟨s, t, reached, folder, saved, items, following, of_decide_eq_true twice⟩,
    ⟨u, done, of_decide_eq_true conflicts⟩, ⟨v, anew, of_decide_eq_true both⟩,
    w, gone, of_decide_eq_true stays⟩

end Drivebound.Desktop
