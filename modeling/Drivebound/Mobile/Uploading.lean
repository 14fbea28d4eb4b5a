import Drivebound.Mobile.Finished
import Drivebound.Uploads.Offsets
import Mathlib

/-! How long the loop of `uploadTransfer` can go on. An accepted chunk moves its offset on, and
so does the HEAD after a 409 for an offset that is behind the session's; a session that is no
longer active answers every PATCH with 409, whatever its offset is. -/
namespace Drivebound.Mobile
open Uploads Sessions Run

def Label.sends (owner : String) : Label → Bool
  | .send other _ _ _ _ => other = owner
  | _ => false

/-- What a step does to the requests and the workers. -/
inductive Moves (env : Env) (w w' : World) : Label → Prop where
  | serve {q : Nat} {action : Action}
      (served : Uploads.step env w.requests (q, action) = some w'.requests)
      (workers : w'.workers = w.workers) : Moves env w w' (.server q action)
  | quiet {label : Label} (unsent : ∀ owner, label.sends owner = false)
      (requests : w'.requests = w.requests) (workers : w'.workers = w.workers) : Moves env w w' label
  /-- A worker is in no transfer any more, or in none yet. -/
  | rest {label : Label} {owner : String} {worker : Worker} (unsent : ∀ owner, label.sends owner = false)
      (requests : w'.requests = w.requests)
      (workers : w'.workers = Function.update w.workers owner worker)
      (resting : ∀ record job awaits, worker ≠ .working record job awaits) : Moves env w w' label
  | prepare {owner : String} {fileSize now : Nat} {record : Transfer} {job : Job}
      (requests : w'.requests = w.requests)
      (workers : w'.workers = Function.update w.workers owner (.working record job none))
      (opening : (∃ id, job = .resume id fileSize) ∨ job = .create fileSize) :
      Moves env w w' (.prepare owner fileSize now)
  | send {owner : String} {q now : Nat} {user : UUID} {body : Bytes} {record : Transfer} {job : Job}
      (working : w.workers owner = .working record job none) (sends : job.sends body = true)
      (sent : Uploads.step env w.requests (q, .receive (job.request user body)) = some w'.requests)
      (workers : w'.workers = Function.update w.workers owner (.working record job (some q))) :
      Moves env w w' (.send owner q user body now)
  | goOn {owner : String} {q now delay : Nat} {record : Transfer} {job next : Job} {answer : Answer}
      {changes : Option Changes} (working : w.workers owner = .working record job (some q))
      (answered : w.requests.locals q = .answered answer)
      (reacts : react record now job answer = some (.goOn changes next))
      (requests : w'.requests = w.requests)
      (workers : w'.workers = Function.update w.workers owner (.working record next none)) :
      Moves env w w' (.receive owner now delay)

variable {env : Env} {w w' : World} {label : Label} {owner : String}

theorem catch_moves {record : Transfer} {failure : TransferFailure} {now delay : Nat} {u : World}
    (unsent : ∀ owner, label.sends owner = false) (requests : u.requests = w.requests)
    (workers : ∀ worker, Function.update u.workers owner worker = Function.update w.workers owner worker) :
    Moves env w (u.catch_ owner record failure now delay) label := by
  refine .rest unsent requests (workers _) ?_
  intro record job awaits
  split <;> exact Worker.noConfusion

theorem receive_moves {record : Transfer} {job : Job} {q now delay : Nat} {answer : Answer} {reaction : Reaction}
    (working : w.workers owner = .working record job (some q)) (answered : w.requests.locals q = .answered answer)
    (reacts : react record now job answer = some reaction) :
    Moves env w (applyReaction w owner record now delay reaction) (.receive owner now delay) := by
  have unsent : ∀ other, (Label.receive owner now delay).sends other = false := fun _ => rfl
  cases reaction with
  | goOn changes next =>
    cases changes with
    | none => exact .goOn working answered reacts rfl rfl
    | some changes => exact .goOn working answered reacts rfl rfl
  | skip changes => exact .rest unsent rfl rfl fun _ _ _ => Worker.noConfusion
  | throw changes failure =>
    cases changes with
    | none => exact catch_moves unsent rfl fun _ => rfl
    | some changes => exact catch_moves unsent rfl fun _ => Function.update_idem ..

theorem step_moves (w : World) (label : Label) (w' : World) (stepped : step env w label = some w') :
    Moves env w w' label := by
  have rests : ∀ {scope : String} record job awaits, Worker.looping scope ≠ .working record job awaits :=
    fun _ _ _ => Worker.noConfusion
  cases label with
  | server q action =>
    obtain ⟨requests, served, rfl⟩ := Option.map_eq_some_iff.mp stepped
    exact .serve served rfl
  | openDatabase | enqueue | retryFailed | cancelPending | renewLease =>
    cases stepped
    exact .quiet (fun _ => rfl) rfl rfl
  | renewRun owner scope now =>
    obtain ⟨queue, renewed, rfl⟩ := Option.map_eq_some_iff.mp stepped
    exact .quiet (fun _ => rfl) rfl rfl
  | begin owner scope now =>
    simp only [step] at stepped
    split at stepped
    · obtain ⟨queue, acquired, rfl⟩ := Option.map_eq_some_iff.mp stepped
      exact .rest (fun _ => rfl) rfl rfl rests
    · contradiction
  | claim owner now =>
    simp only [step] at stepped
    split at stepped
    · split at stepped
      all_goals
        cases stepped
        exact .rest (fun _ => rfl) rfl rfl fun _ _ _ => Worker.noConfusion
    · contradiction
  | prepare owner fileSize now =>
    simp only [step] at stepped
    split at stepped
    · next record claimed =>
      obtain ⟨queue, alive, rfl⟩ := Option.map_eq_some_iff.mp stepped
      refine .prepare rfl rfl ?_
      cases record.uploadId with
      | none => exact .inr rfl
      | some id => exact .inl ⟨id, rfl⟩
    · contradiction
  | send owner q user body now =>
    simp only [step] at stepped
    split at stepped
    · next record job working =>
      split_ifs at stepped with sends
      obtain ⟨queue, alive, sending⟩ := Option.bind_eq_some_iff.mp stepped
      obtain ⟨requests, sent, rfl⟩ := Option.map_eq_some_iff.mp sending
      exact .send working sends sent rfl
    · contradiction
  | receive owner now delay =>
    simp only [step] at stepped
    split at stepped
    · next record job q working =>
      split at stepped
      · next answer answered =>
        obtain ⟨reaction, reacts, rfl⟩ := Option.map_eq_some_iff.mp stepped
        exact receive_moves working answered reacts
      · contradiction
    · contradiction
  | block owner blocker now =>
    simp only [step] at stepped
    split at stepped
    · split_ifs at stepped
      cases stepped
      exact .rest (fun _ => rfl) rfl rfl fun _ _ _ => Worker.noConfusion
    · contradiction
  | complete owner now =>
    simp only [step] at stepped
    split at stepped
    · split_ifs at stepped
      cases stepped
      exact .rest (fun _ => rfl) rfl rfl rests
    · contradiction
  | fail owner failure now delay =>
    simp only [step] at stepped
    split at stepped
    · cases stepped
      exact catch_moves (fun _ => rfl) rfl fun _ => rfl
    · cases stepped
      exact catch_moves (fun _ => rfl) rfl fun _ => rfl
    · contradiction
  | stop owner now =>
    simp only [step] at stepped
    split at stepped
    · contradiction
    all_goals
      cases stepped
      exact .rest (fun _ => rfl) rfl rfl fun _ _ _ => Worker.noConfusion
  | kill owner =>
    cases stepped
    exact .rest (fun _ => rfl) rfl rfl fun _ _ _ => Worker.noConfusion

/-- The server has got to where the worker is. -/
def Job.Behind (r : Server) : Job → Prop
  | .append session offset | .reconcile session offset _ => Reached r session.id session.totalSize offset
  | .resume _ _ | .create _ => True

def WorkerInformed (requests : Requests) : Worker → Prop
  | .working _ job awaits => job.Behind requests.shared ∧
    ∀ q ∈ awaits, ∃ user body, Serves (job.request user body) (requests.locals q)
  | _ => True

structure Informed (w : World) : Prop where
  truthful : Truthful w.requests
  worker : ∀ owner, WorkerInformed w.requests (w.workers owner)

theorem Job.Behind.forward {job : Job} (behind : job.Behind r) (forward : Forward r r') : job.Behind r' := by
  cases job with
  | append | reconcile => exact Reached.forward behind forward
  | resume | create => trivial

/-- A row has one size. -/
theorem Reached.size_eq {id : UUID} {size other offset bound : Nat} (reached : Reached r id size offset)
    (again : Reached r id other bound) : size = other := by
  obtain ⟨row, here, rfl, -⟩ := reached
  obtain ⟨same, there, rfl, -⟩ := again
  cases here.symm.trans there
  rfl

theorem WorkerInformed.serve {requests : Requests} {worker : Worker} {label : Nat × Action}
    (truthful : Truthful w.requests) (informed : WorkerInformed w.requests worker)
    (stepped : Uploads.step env w.requests label = some requests) : WorkerInformed requests worker := by
  cases worker with
  | working record job awaits =>
    obtain ⟨behind, attends⟩ := informed
    refine ⟨behind.forward (truthful.step stepped).2, fun q awaited => ?_⟩
    obtain ⟨user, body, serves⟩ := attends q awaited
    exact ⟨user, body, step_serves truthful.serving stepped serves⟩
  | stopped | looping | closing | claimed => trivial

/-- A request that has just been sent is served. -/
theorem receive_serves {requests : Requests} {q : Nat} {request : Request}
    (sent : Uploads.step env w.requests (q, .receive request) = some requests) :
    requests.locals q = .received request := by
  obtain ⟨outcome, chosen, acted⟩ := Option.bind_eq_some_iff.mp sent
  rw [Store.act_locals acted, Function.update_self]
  simp only [program] at chosen
  split at chosen
  · cases chosen
    rfl
  · contradiction

/-- Where the worker goes on after an answer, the server has got as far as it knows. -/
theorem goOn_behind {record : Transfer} {job next : Job} {q now : Nat} {answer : Answer} {changes : Option Changes}
    (informed : Informed w) (working : w.workers owner = .working record job (some q))
    (answered : w.requests.locals q = .answered answer)
    (reacts : react record now job answer = some (.goOn changes next)) : next.Behind w.requests.shared := by
  have worker := informed.worker owner
  rw [working] at worker
  obtain ⟨behind, attends⟩ := worker
  obtain ⟨user, body, serves⟩ := attends q rfl
  have told := informed.truthful.told q
  rw [answered] at serves told
  cases job with
  | resume id fileSize =>
    cases answer with
    | status upload =>
      simp only [react, resumeOrCreate, Option.some.injEq] at reacts
      obtain ⟨_, same⟩ := serves
      cases same
      split at reacts
      · cases reacts
        exact told
      · cases reacts
        trivial
    | error code detail =>
      simp only [react] at reacts
      split at reacts
      · cases reacts
        trivial
      · cases reacts
    | created | appended => contradiction
  | create fileSize =>
    cases answer with
    | created upload chunkSize duplicate =>
      simp only [react] at reacts
      split at reacts
      · cases reacts
      · next fresh =>
        cases reacts
        exact told (Bool.eq_false_iff.mpr fresh)
    | error code detail => cases reacts
    | status | appended => contradiction
  | append session offset =>
    cases answer with
    | appended upload asset duplicate =>
      simp only [react, advanceOffset, Option.some.injEq] at reacts
      obtain ⟨_, _, _, same⟩ := serves
      have key : session.id = upload.id := (Request.append.inj same).2.1
      split at reacts
      · cases reacts
      · cases reacts
        have row : Reached w.requests.shared session.id upload.totalSize upload.offset := by
          rw [key]
          exact told
        rw [Reached.size_eq row behind] at row
        exact row
    | error code detail =>
      simp only [react] at reacts
      split at reacts
      · cases reacts
        exact behind
      · split at reacts <;> cases reacts
    | status | created => contradiction
  | reconcile session offset conflict =>
    cases answer with
    | status upload =>
      simp only [react] at reacts
      obtain ⟨_, same⟩ := serves
      have key : session.id = upload.id := (Request.head.inj same).2
      split at reacts
      · cases reacts
        have row : Reached w.requests.shared session.id upload.totalSize upload.offset := by
          rw [key]
          exact told
        rw [Reached.size_eq row behind] at row
        exact row
      · cases reacts
    | error code detail => cases reacts
    | created | appended => contradiction

theorem Informed.serve {label : Nat × Action} (informed : Informed w)
    (stepped : Uploads.step env w.requests label = some w'.requests)
    (workers : w'.workers = w.workers) : Informed w' := by
  refine ⟨(informed.truthful.step stepped).1, fun owner => ?_⟩
  rw [workers]
  exact (informed.worker owner).serve informed.truthful stepped

/-- One worker moves. -/
theorem Informed.move {worker : Worker} (informed : Informed w) (requests : w'.requests = w.requests)
    (workers : w'.workers = Function.update w.workers owner worker)
    (own : WorkerInformed w.requests worker) : Informed w' := by
  refine ⟨requests ▸ informed.truthful, fun other => ?_⟩
  rw [requests, workers]
  by_cases same : other = owner
  · subst same
    rw [Function.update_self]
    exact own
  · rw [Function.update_of_ne same]
    exact informed.worker other

theorem step_informed (w : World) (label : Label) (w' : World) (informed : Informed w)
    (stepped : step env w label = some w') : Informed w' := by
  cases step_moves w label w' stepped with
  | serve served workers => exact informed.serve served workers
  | quiet _ requests workers =>
    refine ⟨requests ▸ informed.truthful, fun owner => ?_⟩
    rw [requests, workers]
    exact informed.worker owner
  | @rest _ _ worker _ requests workers resting =>
    refine informed.move requests workers ?_
    cases worker with
    | working record job awaits => exact absurd rfl (resting record job awaits)
    | stopped | looping | closing | claimed => trivial
  | prepare requests workers opening =>
    refine informed.move requests workers ⟨?_, fun q awaited => absurd awaited (Option.not_mem_none q)⟩
    rcases opening with ⟨id, rfl⟩ | rfl <;> trivial
  | @send owner q now user body record job working sends sent workers =>
    have served : Informed { w with requests := w'.requests } := informed.serve sent rfl
    refine served.move rfl workers ?_
    have own := served.worker owner
    rw [working] at own
    refine ⟨own.1, ?_⟩
    rintro _ ⟨⟩
    exact ⟨user, body, receive_serves sent ▸ rfl⟩
  | goOn working answered reacts requests workers =>
    exact informed.move requests workers
      ⟨goOn_behind informed working answered reacts, fun q awaited => absurd awaited (Option.not_mem_none q)⟩

theorem start_informed {r : Server} {queue : Queue} (consistent : Consistent r) : Informed (start r queue) :=
  ⟨.idle consistent, fun _ => trivial⟩

/-- The worker is in the loop of `uploadTransfer`. -/
def InLoop (owner : String) (w : World) : Prop :=
  match w.workers owner with
  | .working _ (.append _ _) _ | .working _ (.reconcile _ _ _) _ => True
  | _ => False

instance (owner : String) (w : World) : Decidable (InLoop owner w) := by
  unfold InLoop
  split <;> infer_instance

/-- The request is a PATCH that the worker awaits. -/
def Worker.awaitsAppend (q : Nat) : Worker → Bool
  | .working _ (.append _ _) (some awaited) => awaited = q
  | _ => false

/-- A PATCH of the worker is not answered with 409 by an exception of another kind: the endpoint
raises that code for the session's status and for its offset only. -/
def ConflictsAsWritten (owner : String) (w : World) : Label → Prop
  | .server q (.refuse code _) => (w.workers owner).awaitsAppend q = true → code ≠ 409
  | _ => True

instance (owner : String) (w : World) : DecidablePred (ConflictsAsWritten owner w) := fun label => by
  unfold ConflictsAsWritten
  split <;> infer_instance

/-- A PATCH of the worker does not find a session that is not active and misses bytes. -/
def FindsActive (owner : String) (w : World) : Label → Prop
  | .server q (.check _) => (w.workers owner).awaitsAppend q = true →
    match w.requests.locals q with
    | .locked user id _ _ => ∀ upload ∈ w.requests.shared.find? user id,
      upload.status ≠ .active → upload.totalSize ≤ upload.offset
    | _ => True
  | _ => True

instance (owner : String) (w : World) : DecidablePred (FindsActive owner w)
  | .server q (.check _) => by
    unfold FindsActive
    dsimp only
    generalize w.requests.locals q = handler
    exact match handler with
      | .locked user id _ _ =>
        have : Decidable (∀ upload ∈ w.requests.shared.find? user id, upload.status ≠ .active →
          upload.totalSize ≤ upload.offset) := Option.decidableForallMem ..
        inferInstanceAs (Decidable (_ → _))
      | .idle | .received _ | .writing .. | .stored _ | .rejected _ | .hashed .. | .persisted .. | .answered _
      | .lost =>
        inferInstanceAs (Decidable (_ → True))
  | .server _ (.receive _) | .server _ (.create ..) | .server _ .read | .server _ .lockUpload | .server _ (.chunk _)
  | .server _ .endBody | .server _ .hash | .server _ .unlinkRejected | .server _ .consume | .server _ (.persist _)
  | .server _ (.failPersist ..) | .server _ .complete | .server _ (.refuse ..) | .server _ .crash
  | .openDatabase | .enqueue .. | .retryFailed .. | .cancelPending _ | .begin .. | .renewRun .. | .renewLease ..
  | .claim .. | .prepare .. | .send .. | .receive .. | .block .. | .complete .. | .fail .. | .stop .. | .kill _ =>
    isTrue trivial

/-- What holds in the loop besides: an offset that was answered with 409 is behind. -/
def Turning (requests : Requests) : Worker → Prop
  | .working _ (.append session offset) (some q) => offset < session.totalSize ∧
    ∀ detail, requests.locals q = .answered (.error 409 detail) →
      Reached requests.shared session.id session.totalSize (offset + 1)
  | .working _ (.reconcile session offset _) awaits => offset < session.totalSize ∧
    Reached requests.shared session.id session.totalSize (offset + 1) ∧
    ∀ q ∈ awaits, ∀ upload, requests.locals q = .answered (.status upload) → offset < upload.offset
  | _ => True

/-- A request that was answered is only lost after that. -/
theorem program_answered {action : Action} {outcome : Step} {reply : Answer}
    (chosen : program env r (.answered reply) action = some outcome) : outcome.arrival = .lost := by
  cases action with
  | crash =>
    cases chosen
    rfl
  | _ => contradiction

/-- The check of a PATCH on its locked row answers 409 for an offset that is behind. -/
theorem checkAppend_conflict {user id : UUID} {size offset : Nat} {detail : Option String}
    (reached : Reached r id size offset) (missing : offset < size)
    (conflict : (checkAppend r user id offset body now).arrival = .answered (.error 409 detail))
    (active : ∀ upload, r.find? user id = some upload → upload.status ≠ .active → upload.totalSize ≤ upload.offset) :
    Reached r id size (offset + 1) := by
  obtain ⟨row, here, rfl, behind⟩ := reached
  unfold checkAppend at conflict
  split at conflict
  · cases conflict
  · next upload found =>
    cases here.symm.trans (find?_some found).1
    refine ⟨row, here, rfl, ?_⟩
    split_ifs at conflict with inactive expired mismatch unavailable room
    · have full := active row found inactive
      omega
    · cases conflict
    · omega
    · cases conflict
    · cases conflict
    · cases conflict

/-- No other step of a PATCH answers 409. -/
theorem program_conflict {phase : Handler} {action : Action} {outcome : Step} {user id : UUID} {body : Bytes}
    {offset : Nat} {detail : Option String} (chosen : program env r phase action = some outcome)
    (serves : Serves (.append user id offset body) phase)
    (conflict : outcome.arrival = .answered (.error 409 detail)) :
    (∃ detail, action = .refuse 409 detail) ∨ ∃ now, action = .check now ∧ phase = .locked user id offset body ∧
      outcome = checkAppend r user id offset body now := by
  cases action with
  | check now =>
    simp only [program] at chosen
    split at chosen
    · cases serves
      exact .inr ⟨now, rfl, rfl, (Option.some.inj chosen).symm⟩
    · contradiction
  | refuse code reason =>
    simp only [program] at chosen
    split at chosen
    all_goals try contradiction
    split_ifs at chosen
    cases chosen
    cases conflict
    exact .inl ⟨_, rfl⟩
  | receive request =>
    simp only [program] at chosen
    split at chosen
    · cases chosen
      cases conflict
    · contradiction
  | create id now =>
    simp only [program] at chosen
    split at chosen
    · cases serves
    · contradiction
  | read =>
    simp only [program] at chosen
    split at chosen
    · cases serves
    · contradiction
  | lockUpload =>
    simp only [program] at chosen
    split at chosen
    · cases chosen
      cases conflict
    · contradiction
  | chunk count =>
    simp only [program] at chosen
    split at chosen
    · cases chosen
      unfold writeChunk at conflict
      dsimp only at conflict
      split at conflict <;> cases conflict
    · contradiction
  | endBody =>
    simp only [program] at chosen
    split at chosen
    · split_ifs at chosen
      cases chosen
      unfold commitOffset at conflict
      dsimp only at conflict
      split at conflict
      · cases conflict
      · split at conflict <;> cases conflict
    · contradiction
  | hash =>
    simp only [program] at chosen
    split at chosen
    · cases chosen
      unfold hashUpload at conflict
      split at conflict
      · cases conflict
      · split at conflict <;> cases conflict
    · contradiction
  | unlinkRejected =>
    simp only [program] at chosen
    split at chosen
    · cases chosen
      cases conflict
    · contradiction
  | consume =>
    simp only [program] at chosen
    split at chosen
    · cases chosen
      cases conflict
    · contradiction
  | persist asset =>
    simp only [program] at chosen
    split at chosen
    · unfold persistUpload at chosen
      split at chosen
      · cases chosen
        cases conflict
      · split at chosen
        · cases chosen
          cases conflict
        · contradiction
    · contradiction
  | failPersist error exception =>
    simp only [program] at chosen
    split at chosen
    · cases chosen
      cases conflict
    · contradiction
  | complete =>
    simp only [program] at chosen
    split at chosen
    · cases chosen
      cases conflict
    · contradiction
  | crash =>
    simp only [program] at chosen
    split at chosen
    · contradiction
    · cases chosen
      cases conflict

/-- A HEAD answers with the row that it finds. -/
theorem program_status {phase : Handler} {action : Action} {outcome : Step} {user id : UUID} {upload : UploadSession}
    (chosen : program env r phase action = some outcome) (serves : Serves (.head user id) phase)
    (answered : outcome.arrival = .answered (.status upload)) : r.uploads.get? id = some upload := by
  have reading : phase = .received (.head user id) ∨ outcome.arrival ≠ .answered (.status upload) := by
    cases phase with
    | received request =>
      cases serves
      exact .inl rfl
    | answered reply =>
      rw [program_answered chosen]
      exact .inr Handler.noConfusion
    | idle => cases serves
    | lost =>
      cases action with
      | crash =>
        cases chosen
        exact .inr Handler.noConfusion
      | _ => contradiction
    | locked => cases serves
    | writing | stored | rejected | hashed | persisted =>
      obtain ⟨_, _, _, same⟩ := serves
      cases same
  rcases reading with rfl | other
  · cases action with
    | read =>
      cases chosen
      unfold uploadStatus at answered
      split at answered
      · cases answered
      · next row found =>
        cases answered
        exact (find?_some found).1
    | refuse code detail =>
      simp only [program] at chosen
      split_ifs at chosen
      cases chosen
      cases answered
    | crash =>
      cases chosen
      cases answered
    | _ => contradiction
  · exact absurd answered other

/-- The requests move on: what the worker awaits is answered as `Turning` says. -/
theorem turning_serve {action : Action} {q : Nat} {requests : Requests} (informed : Informed w)
    (turning : Turning w.requests (w.workers owner))
    (stepped : Uploads.step env w.requests (q, action) = some requests)
    (written : ConflictsAsWritten owner w (.server q action)) (active : FindsActive owner w (.server q action)) :
    Turning requests (w.workers owner) := by
  have forward := (informed.truthful.step stepped).2
  have own := informed.worker owner
  obtain ⟨outcome, chosen, acted⟩ := Option.bind_eq_some_iff.mp stepped
  have locals := Store.act_locals acted
  cases working : w.workers owner with
  | stopped | looping | closing | claimed => trivial
  | working record job awaits =>
    rw [working] at turning own
    cases job with
    | resume | create => trivial
    | append session offset =>
      cases awaits with
      | none => trivial
      | some awaited =>
        obtain ⟨missing, conflicts⟩ := turning
        refine ⟨missing, fun detail conflict => ?_⟩
        obtain ⟨user, body, serves⟩ := own.2 awaited rfl
        rw [locals] at conflict
        by_cases same : awaited = q
        · subst same
          rw [Function.update_self] at conflict
          have ours : (w.workers owner).awaitsAppend awaited = true := by
            rw [working]
            exact decide_eq_true rfl
          rcases program_conflict chosen serves conflict with ⟨_, rfl⟩ | ⟨now, rfl, phase, rfl⟩
          · exact absurd rfl (written ours)
          · have full := active ours
            simp only [phase] at full
            exact Reached.forward (checkAppend_conflict own.1 missing conflict full) forward
        · rw [Function.update_of_ne same] at conflict
          exact (conflicts detail conflict).forward forward
    | reconcile session offset conflict =>
      obtain ⟨missing, passed, answers⟩ := turning
      refine ⟨missing, passed.forward forward, fun awaited awaits_ upload answered => ?_⟩
      obtain ⟨user, body, serves⟩ := own.2 awaited awaits_
      rw [locals] at answered
      by_cases same : awaited = q
      · subst same
        rw [Function.update_self] at answered
        have found := program_status chosen serves answered
        obtain ⟨row, here, -, behind⟩ := passed
        cases here.symm.trans found
        exact behind
      · rw [Function.update_of_ne same] at answered
        exact answers awaited awaits_ upload answered

/-- Only the 409 of a PATCH is reconciled. -/
theorem react_reconcile {record : Transfer} {now : Nat} {job : Job} {answer : Answer} {changes : Option Changes}
    {session : Target} {offset : Nat} {conflict : Option String}
    (reacts : react record now job answer = some (.goOn changes (.reconcile session offset conflict))) :
    job = .append session offset ∧ answer = .error 409 conflict := by
  cases job with
  | append session' offset' =>
    cases answer with
    | error code detail =>
      simp only [react] at reacts
      split at reacts
      · next isConflict =>
        cases reacts
        subst isConflict
        exact ⟨rfl, rfl⟩
      · split at reacts <;> cases reacts
    | appended upload asset duplicate =>
      simp only [react, advanceOffset, Option.some.injEq] at reacts
      split at reacts <;> cases reacts
    | status | created => contradiction
  | resume id fileSize =>
    cases answer with
    | status upload =>
      simp only [react, resumeOrCreate, Option.some.injEq] at reacts
      split at reacts <;> cases reacts
    | error code detail =>
      simp only [react] at reacts
      split at reacts <;> cases reacts
    | created | appended => contradiction
  | create fileSize =>
    cases answer with
    | created upload chunkSize duplicate =>
      simp only [react] at reacts
      split at reacts <;> cases reacts
    | error code detail => cases reacts
    | status | appended => contradiction
  | reconcile session' offset' conflict' =>
    cases answer with
    | status upload =>
      simp only [react] at reacts
      split at reacts <;> cases reacts
    | error code detail => cases reacts
    | created | appended => contradiction

/-- A request that arrives is neither checked nor refused. -/
theorem unconstrained_receive {q : Nat} {request : Request} :
    ConflictsAsWritten owner w (.server q (.receive request)) ∧ FindsActive owner w (.server q (.receive request)) :=
  ⟨trivial, trivial⟩

theorem step_turning (informed : Informed w) (turning : Turning w.requests (w.workers owner))
    (written : ConflictsAsWritten owner w label) (active : FindsActive owner w label)
    (moves : Moves env w w' label) : Turning w'.requests (w'.workers owner) := by
  have kept : ∀ {moved : String} {worker : Worker}, w'.requests = w.requests →
      w'.workers = Function.update w.workers moved worker → (moved = owner → Turning w.requests worker) →
      Turning w'.requests (w'.workers owner) := by
    intro moved worker requests workers own
    rw [requests, workers]
    by_cases same : owner = moved
    · subst same
      rw [Function.update_self]
      exact own rfl
    · rw [Function.update_of_ne same]
      exact turning
  cases moves with
  | serve served workers =>
    rw [workers]
    exact turning_serve informed turning served written active
  | quiet _ requests workers =>
    rw [requests, workers]
    exact turning
  | @rest _ _ worker _ requests workers resting =>
    refine kept requests workers fun _ => ?_
    cases worker with
    | working record job awaits => exact absurd rfl (resting record job awaits)
    | stopped | looping | closing | claimed => trivial
  | prepare requests workers opening =>
    refine kept requests workers fun _ => ?_
    rcases opening with ⟨id, rfl⟩ | rfl <;> trivial
  | @send sender q now user body record job working sends sent workers =>
    have later := turning_serve informed turning sent unconstrained_receive.1 unconstrained_receive.2
    have received := receive_serves sent
    rw [workers]
    by_cases same : owner = sender
    · subst same
      rw [working] at later
      rw [Function.update_self]
      cases job with
      | resume | create => trivial
      | append session offset =>
        simp only [Job.sends, decide_eq_true_eq, Bool.decide_and, Bool.and_eq_true] at sends
        refine ⟨sends.1, fun detail conflict => ?_⟩
        rw [received] at conflict
        cases conflict
      | reconcile session offset conflict =>
        refine ⟨later.1, later.2.1, ?_⟩
        rintro _ ⟨⟩ upload answered
        rw [received] at answered
        cases answered
    · rw [Function.update_of_ne same]
      exact later
  | @goOn sender q now delay record job next answer changes working answered reacts requests workers =>
    refine kept requests workers ?_
    rintro rfl
    rw [working] at turning
    cases next with
    | resume | create | append => trivial
    | reconcile session offset conflict =>
      obtain ⟨rfl, rfl⟩ := react_reconcile reacts
      exact ⟨turning.1, turning.2 _ answered, fun q awaited => absurd awaited (Option.not_mem_none q)⟩

/-- The requests that the loop may still make: two for each byte that is missing. -/
def Worker.left : Worker → Nat
  | .working _ (.append session offset) none => 2 * (session.totalSize - offset)
  | .working _ (.append session offset) (some _) => 2 * (session.totalSize - offset) - 1
  | .working _ (.reconcile session offset _) none => 2 * (session.totalSize - offset) - 1
  | .working _ (.reconcile session offset _) (some _) => 2 * (session.totalSize - offset) - 2
  | _ => 0

/-- Going on after an answer leaves no more than what was left while it was awaited. -/
theorem goOn_left {record : Transfer} {job next : Job} {q now : Nat} {answer : Answer} {changes : Option Changes}
    (looping : InLoop owner w) (turning : Turning w.requests (w.workers owner))
    (working : w.workers owner = .working record job (some q))
    (answered : w.requests.locals q = .answered answer)
    (reacts : react record now job answer = some (.goOn changes next)) :
    (Worker.working record next none).left ≤ (Worker.working record job (some q)).left := by
  rw [working] at turning
  rw [InLoop, working] at looping
  cases job with
  | resume | create => contradiction
  | append session offset =>
    cases answer with
    | appended upload asset duplicate =>
      simp only [react, advanceOffset, Option.some.injEq] at reacts
      split at reacts
      · cases reacts
      · cases reacts
        simp only [Worker.left]
        omega
    | error code detail =>
      simp only [react] at reacts
      split at reacts
      · cases reacts
        exact Nat.le_refl _
      · split at reacts <;> cases reacts
    | status | created => contradiction
  | reconcile session offset conflict =>
    cases answer with
    | status upload =>
      have ahead := turning.2.2 q rfl upload answered
      simp only [react] at reacts
      split at reacts
      · cases reacts
        simp only [Worker.left]
        omega
      · cases reacts
    | error code detail => cases reacts
    | created | appended => contradiction

theorem step_left (looping : InLoop owner w) (turning : Turning w.requests (w.workers owner))
    (moves : Moves env w w' label) :
    (w'.workers owner).left + (if label.sends owner then 1 else 0) ≤ (w.workers owner).left := by
  have moved : ∀ {other : String} {worker : Worker}, w'.workers = Function.update w.workers other worker →
      (other = owner → worker.left ≤ (w.workers owner).left) → (w'.workers owner).left ≤ (w.workers owner).left := by
    intro other worker workers own
    rw [workers]
    by_cases same : owner = other
    · subst same
      rw [Function.update_self]
      exact own rfl
    · exact Nat.le_of_eq (congrArg Worker.left (Function.update_of_ne same ..))
  cases moves with
  | serve served workers =>
    rw [workers]
    exact Nat.le_refl _
  | quiet unsent requests workers =>
    rw [workers, unsent owner]
    exact Nat.le_refl _
  | @rest _ _ worker unsent requests workers resting =>
    rw [unsent owner]
    refine moved workers fun _ => ?_
    cases worker with
    | working record job awaits => exact absurd rfl (resting record job awaits)
    | stopped | looping | closing | claimed => exact Nat.zero_le _
  | prepare requests workers opening =>
    refine moved workers fun _ => ?_
    rcases opening with ⟨id, rfl⟩ | rfl <;> exact Nat.zero_le _
  | @send sender q now user body record job working sends sent workers =>
    rw [workers]
    by_cases same : owner = sender
    · subst same
      rw [InLoop, working] at looping
      rw [working] at turning
      rw [working, Function.update_self, Label.sends, decide_eq_true rfl, if_pos rfl]
      cases job with
      | resume | create => contradiction
      | append session offset =>
        simp only [Job.sends, decide_eq_true_eq, Bool.decide_and, Bool.and_eq_true] at sends
        simp only [Worker.left]
        omega
      | reconcile session offset conflict =>
        have missing := turning.1
        simp only [Worker.left]
        omega
    · rw [Function.update_of_ne same, Label.sends, decide_eq_false (Ne.symm same)]
      exact Nat.le_refl _
  | goOn working answered reacts requests workers =>
    refine moved workers ?_
    rintro rfl
    have fewer := goOn_left looping turning working answered reacts
    rwa [working]

/-- In every run of backups and of other clients in which no PATCH of the worker finds a
session that is not active and misses bytes, the loop of `uploadTransfer` makes at most two
requests for each byte that was missing when it was entered. -/
theorem transfer_loop_is_bounded {r : Server} {queue : Queue} {early labels : List Label} {w' : World}
    {record : Transfer} {session : Target} {offset : Nat} (consistent : Consistent r)
    (entered : run (step env) (start r queue) early = some w)
    (working : w.workers owner = .working record (.append session offset) none)
    (ran : run (step env) w labels = some w')
    (looping : Along (step env) (fun s _ => InLoop owner s) w labels)
    (written : Along (step env) (ConflictsAsWritten owner) w labels)
    (active : Along (step env) (FindsActive owner) w labels) :
    labels.countP (Label.sends owner) ≤ 2 * (session.totalSize - offset) := by
  have informed := invariant (I := Informed) (fun s a t holds _ => step_informed s a t holds)
    (start_informed consistent) (along_true _ _) entered
  have turning : Turning w.requests (w.workers owner) := by
    rw [working]
    trivial
  have bound : labels.countP (Label.sends owner) ≤ (w.workers owner).left := by
    clear entered working
    induction labels generalizing w with
    | nil => exact Nat.zero_le _
    | cons label rest ih =>
      obtain ⟨middle, stepped, following⟩ := run_cons_iff.mp ran
      have moves := step_moves w label middle stepped
      have later := ih following (looping.2 middle stepped) (written.2 middle stepped) (active.2 middle stepped)
        (step_informed w label middle informed stepped)
        (step_turning informed turning written.1 active.1 moves)
      have here := step_left looping.1 turning moves
      rw [List.countP_cons]
      omega
  rw [working] at bound
  exact bound

/-- The first chunk of the photo goes through and so does the second, between two requests of
another client. -/
def halfSent : List Label := halfUploaded ++ [.receive "a" 4 0]

def secondChunk : List Label :=
  [.send "a" 2 7 [12, 13] 4] ++ storeChunk 2 4 ++ [.server 2 .hash, .server 2 (.persist photoAsset),
    .server 2 .complete, .receive "a" 5 0]

/-- The transfer as the worker took it up. -/
def takenPhoto : Transfer :=
  { localVersion := "s:1:1", connectionScope := "s", localId := "1", filename := "a.jpg", fileSize := 0
    state := .uploading, uploadId := none, offset := 0, chunkSize := none, attempts := 0, retryAt := 0
    lastError := none, leaseOwner := some "a", leaseExpiresAt := 300002, updatedAt := 2 }

/-- Two bytes are missing, and one request is made for them. -/
theorem transfer_loop_is_bounded_second_chunk :
    (∃ w w', run (step shownEnv) (start newServer ⟨[], []⟩) halfSent = some w ∧
      run (step shownEnv) w secondChunk = some w') ∧ secondChunk.countP (Label.sends "a") ≤ 2 * (4 - 2) := by
  have reaches : (run (step shownEnv) (start newServer ⟨[], []⟩) halfSent).any fun w =>
      w.workers "a" = .working takenPhoto (.append ⟨1, 4, 2⟩ 2) none ∧
      (run (step shownEnv) w secondChunk).isSome ∧
      Along (step shownEnv) (fun s _ => InLoop "a" s) w secondChunk ∧
      Along (step shownEnv) (ConflictsAsWritten "a") w secondChunk ∧
      Along (step shownEnv) (FindsActive "a") w secondChunk := by decide +kernel
  obtain ⟨w, entered, facts⟩ := (Option.any_eq_true _ _).mp reaches
  obtain ⟨working, ran, looping, written, active⟩ := of_decide_eq_true facts
  obtain ⟨w', ran⟩ := Option.isSome_iff_exists.mp ran
  refine ⟨⟨w, w', entered, ran⟩, ?_⟩
  exact transfer_loop_is_bounded newServer_consistent entered working ran looping written active

/-- The request that a label is about. -/
def Label.request : Label → Option Nat
  | .server q _ | .send _ q _ _ _ => some q
  | _ => none

/-- The requests from a number on have not been made. -/
def Unused (n : Nat) (w : World) : Prop := ∀ q ≥ n, w.requests.locals q = .idle

theorem step_unused {n : Nat} (unused : Unused n w) (below : ∀ q ∈ label.request, q < n) (moves : Moves env w w' label) :
    Unused n w' := by
  have served : ∀ {q : Nat} {action : Action}, q < n →
      Uploads.step env w.requests (q, action) = some w'.requests → Unused n w' := by
    intro q action old stepped other later
    obtain ⟨outcome, chosen, acted⟩ := Option.bind_eq_some_iff.mp stepped
    rw [Store.act_locals acted, Function.update_of_ne (by omega)]
    exact unused other later
  cases moves with
  | serve stepped workers => exact served (below _ rfl) stepped
  | send working sends sent workers => exact served (below _ rfl) sent
  | quiet unsent requests workers => exact fun q later => requests ▸ unused q later
  | rest unsent requests workers resting => exact fun q later => requests ▸ unused q later
  | prepare requests workers opening => exact fun q later => requests ▸ unused q later
  | goOn working answered reacts requests workers => exact fun q later => requests ▸ unused q later

theorem run_unused {n : Nat} {labels : List Label} (unused : Unused n w)
    (below : ∀ label ∈ labels, ∀ q ∈ label.request, q < n) (ran : run (step env) w labels = some w') : Unused n w' := by
  have along : Along (step env) (fun _ label => ∀ q ∈ label.request, q < n) w labels := along_of_forall w below
  exact invariant (fun s a t holds below stepped => step_unused holds below (step_moves s a t stepped)) unused along ran

/-- The worker keeps asking for a session that another client has made expire. -/
def stuckTurn (n : Nat) : List Label :=
  [.send "a" n 7 [12, 13] 5, .server n .lockUpload, .server n (.check 100000), .receive "a" 5 0,
    .send "a" (n + 1) 7 [] 5, .server (n + 1) .read, .receive "a" 5 0]

def expiring : List Label :=
  halfSent ++ [.server 2 (.receive (.append 7 1 2 [12])), .server 2 .lockUpload, .server 2 (.check 100000)]

def expiredRow : UploadSession :=
  { id := 1, userId := 7, totalSize := 4, offset := 2, expectedChecksum := none, status := .expired
    expiresAt := 86402 }

/-- What a turn of the loop finds, and leaves. -/
structure Stuck (record : Transfer) (n : Nat) (w : World) : Prop where
  working : w.workers "a" = .working record (.append ⟨1, 4, 2⟩ 2) none
  alive : keepAlive w.queue record "a" 5 = some w.queue
  still : (w.queue.updateTransfer record.localVersion { offset := some 2, lastError := some none } "a" 5).1 = w.queue
  row : w.requests.shared.find? 7 1 = some expiredRow
  unlocked : w.requests.owner (.upload 1) = none ∧ w.requests.sharers (.upload 1) = []
  unused : Unused n w

/-- A run within the loop. -/
def Loops (w : World) (labels : List Label) (w' : World) : Prop :=
  run (step shownEnv) w labels = some w' ∧ Along (step shownEnv) (fun s _ => InLoop "a" s) w labels

theorem Loops.nil (w : World) : Loops w [] w := ⟨rfl, trivial⟩

theorem Loops.cons {middle : World} {labels : List Label} (inside : InLoop "a" w)
    (stepped : step shownEnv w label = some middle) (later : Loops middle labels w') : Loops w (label :: labels) w' := by
  refine ⟨run_cons_iff.mpr ⟨middle, stepped, later.1⟩, inside, fun t other => ?_⟩
  cases stepped.symm.trans other
  exact later.2

theorem Loops.append {middle : World} {labels more : List Label} (first : Loops w labels middle)
    (second : Loops middle more w') : Loops w (labels ++ more) w' := by
  induction labels generalizing w with
  | nil =>
    cases first.1
    exact second
  | cons label rest ih =>
    obtain ⟨⟨between, stepped, following⟩, inside, later⟩ := And.imp_left run_cons_iff.mp first
    exact .cons inside stepped (ih ⟨following, later between stepped⟩)

theorem inLoop_append {record : Transfer} {session : Target} {offset : Nat} {awaits : Option Nat}
    (working : w.workers "a" = .working record (.append session offset) awaits) : InLoop "a" w := by
  rw [InLoop, working]
  trivial

theorem inLoop_reconcile {record : Transfer} {session : Target} {offset : Nat} {conflict : Option String}
    {awaits : Option Nat} (working : w.workers "a" = .working record (.reconcile session offset conflict) awaits) :
    InLoop "a" w := by
  rw [InLoop, working]
  trivial

theorem serve_eq {q : Nat} {action : Action} {requests : Requests}
    (served : Uploads.step env w.requests (q, action) = some requests) :
    step env w (.server q action) = some { w with requests } := by
  rw [step, served]
  rfl

theorem send_eq {record : Transfer} {job : Job} {q now : Nat} {user : UUID} {body : Bytes} {requests : Requests}
    {queue : Queue} (working : w.workers owner = .working record job none) (sends : job.sends body = true)
    (alive : beforeSend w.queue record owner now job = some queue)
    (sent : Uploads.step env w.requests (q, .receive (job.request user body)) = some requests) :
    step env w (.send owner q user body now) =
      some ({ w with requests }.set owner queue (.working record job (some q))) := by
  simp only [step, working]
  rw [if_pos sends, alive, Option.bind_some, sent]
  rfl

theorem receive_eq {record : Transfer} {job : Job} {q now delay : Nat} {answer : Answer} {reaction : Reaction}
    (working : w.workers owner = .working record job (some q)) (answered : w.requests.locals q = .answered answer)
    (reacts : react record now job answer = some reaction) :
    step env w (.receive owner now delay) = some (applyReaction w owner record now delay reaction) := by
  simp only [step, working, answered]
  rw [reacts]
  rfl

/-- A PATCH for the expired session is answered with 409. -/
theorem expired_patch {s : Requests} {q : Nat} (body : Bytes) (row : s.shared.find? 7 1 = some expiredRow)
    (unlocked : s.owner (.upload 1) = none ∧ s.sharers (.upload 1) = []) (idle : s.locals q = .idle) :
    ∃ sent locked answered : Requests,
      Uploads.step shownEnv s (q, .receive (.append 7 1 2 body)) = some sent ∧
      Uploads.step shownEnv sent (q, .lockUpload) = some locked ∧
      Uploads.step shownEnv locked (q, .check 100000) = some answered ∧
      answered.shared = s.shared ∧
      (answered.owner (.upload 1) = none ∧ answered.sharers (.upload 1) = []) ∧
      answered.locals q = .answered (.error 409 (some "Upload session is expired")) ∧
      ∀ other ≠ q, answered.locals other = s.locals other := by
  let sent : Requests := s.write q s.shared (.received (.append 7 1 2 body))
  let locked : Requests := { sent with
    owner := Function.update sent.owner (.upload 1) (some q)
    locals := Function.update sent.locals q (.locked 7 1 2 body) }
  let answered : Requests :=
    locked.finish q s.shared (.answered (.error 409 (some "Upload session is expired")))
  have received : sent.locals q = .received (.append 7 1 2 body) := Function.update_self ..
  have holding : locked.locals q = .locked 7 1 2 body := Function.update_self ..
  refine ⟨sent, locked, answered, ?_, ?_, ?_, rfl, ⟨?_, ?_⟩, Function.update_self .., fun other different => ?_⟩
  · simp only [Uploads.step, Store.step, idle, program, Option.bind_some]
    rfl
  · have free : (sent.free q (.upload 1) && (sent.sharers (.upload 1)).all (· == q)) = true := by
      have owner : sent.owner (.upload 1) = none := unlocked.1
      have sharers : sent.sharers (.upload 1) = [] := unlocked.2
      rw [Store.free, owner, sharers]
      rfl
    simp only [Uploads.step, Store.step, received, program, Option.bind_some, Store.act, Store.lock]
    rw [if_pos free]
  · have found : locked.shared.find? 7 1 = some expiredRow := row
    simp only [Uploads.step, Store.step, holding, program, Option.bind_some, checkAppend]
    rw [found]
    rfl
  · have mine : locked.owner (.upload 1) = some q := Function.update_self (LockKey.upload 1) (some q) sent.owner
    exact if_pos mine
  · have sharers : locked.sharers (.upload 1) = [] := unlocked.2
    change (locked.sharers (.upload 1)).filter (· != q) = []
    rw [sharers]
    rfl
  · change Function.update (Function.update (Function.update s.locals q _) q _) q _ other = _
    rw [Function.update_of_ne different, Function.update_of_ne different, Function.update_of_ne different]

/-- The HEAD after it gives the offset as it was. -/
theorem expired_head {s : Requests} {q : Nat} (row : s.shared.find? 7 1 = some expiredRow)
    (unlocked : s.owner (.upload 1) = none ∧ s.sharers (.upload 1) = []) (idle : s.locals q = .idle) :
    ∃ sent answered : Requests,
      Uploads.step shownEnv s (q, .receive (.head 7 1)) = some sent ∧
      Uploads.step shownEnv sent (q, .read) = some answered ∧ answered.shared = s.shared ∧
      (answered.owner (.upload 1) = none ∧ answered.sharers (.upload 1) = []) ∧
      answered.locals q = .answered (.status expiredRow) ∧
      ∀ other ≠ q, answered.locals other = s.locals other := by
  let sent : Requests := s.write q s.shared (.received (.head 7 1))
  let answered : Requests := sent.finish q s.shared (.answered (.status expiredRow))
  have received : sent.locals q = .received (.head 7 1) := Function.update_self ..
  refine ⟨sent, answered, ?_, ?_, rfl, ⟨?_, ?_⟩, Function.update_self .., fun other different => ?_⟩
  · simp only [Uploads.step, Store.step, idle, program, Option.bind_some]
    rfl
  · have found : sent.shared.find? 7 1 = some expiredRow := row
    simp only [Uploads.step, Store.step, received, program, Option.bind_some, uploadStatus]
    rw [found]
    rfl
  · have owner : sent.owner (.upload 1) = none := unlocked.1
    change (if sent.owner (.upload 1) = some q then none else sent.owner (.upload 1)) = none
    rw [owner]
    rfl
  · have sharers : sent.sharers (.upload 1) = [] := unlocked.2
    change (sent.sharers (.upload 1)).filter (· != q) = []
    rw [sharers]
    rfl
  · change Function.update (Function.update s.locals q _) q _ other = _
    rw [Function.update_of_ne different, Function.update_of_ne different]

/-- The world with other requests, and with the worker at another point. -/
def World.put (w : World) (requests : Requests) (worker : Worker) : World :=
  { w with requests }.set "a" w.queue worker

@[simp] theorem put_worker (w : World) (requests : Requests) (worker : Worker) :
    (w.put requests worker).workers "a" = worker := by
  simp only [World.put, World.set, Function.update_self]

@[simp] theorem put_set (w : World) (requests : Requests) (worker other : Worker) :
    (w.put requests worker).set "a" w.queue other = w.put requests other := by
  simp only [World.put, World.set, Function.update_idem]

/-- A turn of the loop leaves it where it was. -/
theorem stuck_turn {record : Transfer} {n : Nat} (stuck : Stuck record n w) :
    ∃ w', Loops w (stuckTurn n) w' ∧ Stuck record (n + 2) w' := by
  obtain ⟨sent, locked, refused, sends, locks, checks, shared, unlocked, conflict, others⟩ :=
    expired_patch [12, 13] stuck.row stuck.unlocked (stuck.unused n (Nat.le_refl n))
  have idle : refused.locals (n + 1) = .idle := by
    rw [others (n + 1) (by omega)]
    exact stuck.unused (n + 1) (by omega)
  obtain ⟨asked, answered, asks, reads, shared', unlocked', status, others'⟩ :=
    expired_head (shared ▸ stuck.row) unlocked idle
  let appending : Worker := .working record (.append ⟨1, 4, 2⟩ 2) (some n)
  let reconciling : Worker := .working record (.reconcile ⟨1, 4, 2⟩ 2 (some "Upload session is expired")) none
  let awaiting : Worker := .working record (.reconcile ⟨1, 4, 2⟩ 2 (some "Upload session is expired")) (some (n + 1))
  refine ⟨w.put answered (.working record (.append ⟨1, 4, 2⟩ 2) none), ?_, ?_⟩
  · have first : step shownEnv w (.send "a" n 7 [12, 13] 5) = some (w.put sent appending) :=
      send_eq stuck.working (by decide) stuck.alive sends
    have second : step shownEnv (w.put sent appending) (.server n .lockUpload) = some (w.put locked appending) :=
      serve_eq locks
    have third : step shownEnv (w.put locked appending) (.server n (.check 100000)) =
        some (w.put refused appending) := serve_eq checks
    have fourth : step shownEnv (w.put refused appending) (.receive "a" 5 0) = some (w.put refused reconciling) := by
      rw [receive_eq (put_worker ..) conflict rfl]
      exact congrArg some (put_set ..)
    have fifth : step shownEnv (w.put refused reconciling) (.send "a" (n + 1) 7 [] 5) =
        some (w.put asked awaiting) := by
      rw [send_eq (put_worker ..) (by decide) rfl asks]
      exact congrArg some (put_set w asked _ _)
    have sixth : step shownEnv (w.put asked awaiting) (.server (n + 1) .read) = some (w.put answered awaiting) :=
      serve_eq reads
    have seventh : step shownEnv (w.put answered awaiting) (.receive "a" 5 0) =
        some (w.put answered (.working record (.append ⟨1, 4, 2⟩ 2) none)) := by
      rw [receive_eq (put_worker ..) status rfl]
      have moved : ∀ queue, queue = w.queue →
          some ((w.put answered awaiting).set "a" queue (.working record (.append ⟨1, 4, 2⟩ 2) none)) =
            some (w.put answered (.working record (.append ⟨1, 4, 2⟩ 2) none)) := by
        rintro _ rfl
        exact congrArg some (put_set ..)
      exact moved _ stuck.still
    exact .cons (inLoop_append stuck.working) first <| .cons (inLoop_append (put_worker ..)) second <|
      .cons (inLoop_append (put_worker ..)) third <| .cons (inLoop_append (put_worker ..)) fourth <|
      .cons (inLoop_reconcile (put_worker ..)) fifth <| .cons (inLoop_reconcile (put_worker ..)) sixth <|
      .cons (inLoop_reconcile (put_worker ..)) seventh (.nil _)
  · refine ⟨put_worker .., stuck.alive, stuck.still, ?_, unlocked', fun q later => ?_⟩
    · exact (congrArg (·.find? 7 1) (shared'.trans shared)).trans stuck.row
    · change answered.locals q = .idle
      rw [others' q (by omega), others q (by omega)]
      exact stuck.unused q (by omega)

theorem stuck_sends (n : Nat) : (stuckTurn n).countP (Label.sends "a") = 2 := rfl

/-- The loop goes on for as long as one likes. -/
theorem stuck_loops {record : Transfer} (turns n : Nat) (stuck : Stuck record n w) :
    ∃ labels w', Loops w labels w' ∧ labels.countP (Label.sends "a") = 2 * turns := by
  induction turns generalizing w n with
  | zero => exact ⟨[], w, .nil w, rfl⟩
  | succ turns ih =>
    obtain ⟨middle, loops, again⟩ := stuck_turn stuck
    obtain ⟨labels, w', later, counted⟩ := ih (n + 2) again
    refine ⟨stuckTurn n ++ labels, w', loops.append later, ?_⟩
    rw [List.countP_append, counted, stuck_sends]
    omega

theorem expiring_stuck : ∃ w, run (step shownEnv) (start newServer ⟨[], []⟩) (expiring ++ stuckTurn 3) = some w ∧
    Stuck takenPhoto 5 w := by
  have reaches : (run (step shownEnv) (start newServer ⟨[], []⟩) (expiring ++ stuckTurn 3)).any fun w =>
      w.workers "a" = .working takenPhoto (.append ⟨1, 4, 2⟩ 2) none ∧
      keepAlive w.queue takenPhoto "a" 5 = some w.queue ∧
      (w.queue.updateTransfer takenPhoto.localVersion { offset := some 2, lastError := some none } "a" 5).1 = w.queue ∧
      w.requests.shared.find? 7 1 = some expiredRow ∧
      w.requests.owner (.upload 1) = none ∧ w.requests.sharers (.upload 1) = [] := by decide +kernel
  obtain ⟨w, reached, facts⟩ := (Option.any_eq_true _ _).mp reaches
  obtain ⟨working, alive, still, row, unlocked⟩ := of_decide_eq_true facts
  refine ⟨w, reached, working, alive, still, row, unlocked, ?_⟩
  exact run_unused (fun _ _ => rfl) (by decide) reached

theorem expired_session_is_asked_for_ever : ¬∀ (env : Env) (r : Server) (queue : Queue) (early : List Label)
    (w : World) (owner : String) (record : Transfer) (session : Target) (offset : Nat), Consistent r →
    run (step env) (start r queue) early = some w →
    w.workers owner = .working record (.append session offset) none →
    ∃ bound, ∀ labels w', run (step env) w labels = some w' → Along (step env) (fun s _ => InLoop owner s) w labels →
      labels.countP (Label.sends owner) ≤ bound := by
  intro always
  obtain ⟨w, reached, stuck⟩ := expiring_stuck
  obtain ⟨bound, bounded⟩ := always _ _ _ _ w "a" _ _ _ newServer_consistent reached stuck.working
  obtain ⟨labels, w', ⟨ran, loops⟩, counted⟩ := stuck_loops (bound + 1) 5 stuck
  have few := bounded labels w' ran loops
  omega

end Drivebound.Mobile
