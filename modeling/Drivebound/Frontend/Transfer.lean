import Mathlib.Data.Int.Notation
import Drivebound.Core.Attempts

/-! `frontend/app/resumable-transfer.ts`: the browser's transfer of one file, against any
sequence of answers and lost requests. What a text reads as when it is made a number is the
language's, and nothing here depends on it. -/
namespace Drivebound.Frontend
open Attempts

/-- A number of the language: an integer, or a fraction, an infinity or `NaN`. -/
inductive Num where
  | integer (n : Int)
  | other
  deriving DecidableEq, Repr

/-- A member of an answer or of the first session. An array or an object comes with what
`Number` makes of it. -/
inductive Value where
  | undefined
  | null
  | bool (b : Bool)
  | number (n : Num)
  | string (text : String)
  | object (primitive : Num)
  deriving DecidableEq, Repr

def Value.toNumber (read : String → Num) : Value → Num
  | .undefined => .other
  | .null => .integer 0
  | .bool b => .integer (if b then 1 else 0)
  | .number n => n
  | .string text => read text
  | .object primitive => primitive

def maxSafeInteger : Int := 9007199254740991

/-- The integer that `Number.isSafeInteger` accepts. -/
def Num.safe : Num → Option Int
  | .integer n => if -maxSafeInteger ≤ n ∧ n ≤ maxSafeInteger then some n else none
  | .other => none

def Value.safe : Value → Option Int
  | .number n => n.safe
  | _ => none

structure TransferSession where
  uploadUrl : Value
  offset : Value
  chunkSize : Value
  status : Value
  deriving DecidableEq, Repr

inductive Problem where
  | premature
  | notActive (status : Value)
  | invalid
  /-- The body of an answer is no JSON; the text is the engine's. -/
  | unreadable (reason : String)
  | unfinished (detail : Option String)
  deriving DecidableEq, Repr

/-- What comes back for a PATCH. The body of a success is `null` or has the members; a
failure may say why in its `detail`. -/
inductive PatchAnswer where
  | lost
  | ok (body : Option TransferSession)
  | okUnreadable (reason : String)
  | failed (detail : Option String)

inductive HeadAnswer where
  | lost
  | ok (uploadOffset uploadStatus : Option String)
  | failed

/-- The answers to the requests that one turn of the loop may make. -/
structure Answers where
  patch : PatchAnswer
  head : HeadAnswer

inductive Event where
  /-- PATCH with the bytes from `offset` up to `stop`. -/
  | patch (url : Value) (offset stop : Int)
  | head (url : Value)
  /-- An answer gave this offset as the one the server has. -/
  | acknowledged (offset : Int)
  deriving DecidableEq, Repr

structure State where
  upload : TransferSession
  stalledAttempts : Nat

abbrev Outcome := Except Problem TransferSession

/-- The offset and the chunk size that a turn starts with. -/
def progress (read : String → Num) (size : Nat) (upload : TransferSession) : Option (Int × Int) :=
  match (upload.offset.toNumber read).safe, (upload.chunkSize.toNumber read).safe with
  | some offset, some chunkSize =>
    if offset < 0 ∨ (size : Int) < offset ∨ chunkSize ≤ 0 then none else some (offset, chunkSize)
  | _, _ => none

/-- What `status?.ok` makes of the session. -/
def recovered (read : String → Num) (upload : TransferSession) : HeadAnswer → TransferSession
  | .ok uploadOffset uploadStatus =>
    { upload with
      offset := (uploadOffset.map fun value => Value.number (read value)).getD upload.offset
      status := (uploadStatus.map Value.string).getD upload.status }
  | _ => upload

def acknowledgement (value : Value) : List Event := value.safe.toList.map .acknowledged

/-- The offset that a HEAD gives. -/
def reported (read : String → Num) : HeadAnswer → List Event
  | .ok (some value) _ => acknowledgement (.number (read value))
  | _ => []

/-- The requests of a turn and the session they leave, which may be `null`. -/
def exchange (read : String → Num) (size : Nat) (upload : TransferSession) (offset chunkSize : Int)
    (answers : Answers) : List Event × Except Problem (Option TransferSession) :=
  let patch := Event.patch upload.uploadUrl offset (min (offset + chunkSize) size)
  match answers.patch with
  | .ok none => ([patch], .ok none)
  | .ok (some answer) => (patch :: acknowledgement answer.offset, .ok (some answer))
  | .okUnreadable reason => ([patch], .error (.unreadable reason))
  | .lost | .failed _ =>
    (patch :: .head upload.uploadUrl :: reported read answers.head,
      .ok (some (recovered read upload answers.head)))

def detail : PatchAnswer → Option String
  | .failed detail => detail
  | _ => none

/-- What follows from a session that came out of an exchange at `offset`. -/
def settle (size : Nat) (offset : Int) (stalledAttempts : Nat) (patch : PatchAnswer) :
    Option TransferSession → Next State Outcome
  | none => .ended (.error .invalid)
  | some upload =>
    match upload.offset.safe with
    | none => .ended (.error .invalid)
    | some next =>
      if next < offset ∨ (size : Int) < next then .ended (.error .invalid)
      else if upload.status = .string "complete" then
        if next = size then .ended (.ok upload) else .ended (.error .premature)
      else if offset < next then .again ⟨upload, 0⟩
      else if 3 ≤ stalledAttempts + 1 then .ended (.error (.unfinished (detail patch)))
      else .again ⟨upload, stalledAttempts + 1⟩

/-- The body of the loop. -/
def turn (read : String → Num) (size : Nat) (state : State) (answers : Answers) :
    List Event × Next State Outcome :=
  if state.upload.status ≠ .string "active" then
    ([], .ended (.error (.notActive state.upload.status)))
  else
    match progress read size state.upload with
    | none => ([], .ended (.error .invalid))
    | some (offset, chunkSize) =>
      let (log, received) := exchange read size state.upload offset chunkSize answers
      match received with
      | .error problem => (log, .ended (.error problem))
      | .ok upload => (log, settle size offset state.stalledAttempts answers.patch upload)

/-- `finishTransfer` with at most so many turns of its loop; without an outcome it is still
running. -/
def finishTransfer (read : String → Num) (size : Nat) (initial : TransferSession) (turns : Nat)
    (answers : Nat → Answers) : List Event × Option Outcome :=
  if initial.status = .string "complete" then
    if initial.offset = .number (.integer size) then ([], some (.ok initial))
    else ([], some (.error .premature))
  else attempts (turn read size) turns ⟨initial, 0⟩ answers

/-- The offset that an event is about. -/
def Event.mark : Event → Option Int
  | .patch _ offset _ => some offset
  | .head _ => none
  | .acknowledged offset => some offset

def Event.isRequest : Event → Bool
  | .acknowledged _ => false
  | _ => true

/-- A PATCH does not start before the offset. -/
def StartsFrom (offset : Int) : Event → Prop
  | .patch _ start _ => offset ≤ start
  | _ => True

/-- A PATCH starts at or behind every offset that an earlier one was sent with, and behind
every byte that has been acknowledged. -/
def InOrder (early late : Event) : Prop := ∀ offset ∈ early.mark, StartsFrom offset late

theorem StartsFrom.mono {low high : Int} {event : Event} (starts : StartsFrom high event) (lower : low ≤ high) :
    StartsFrom low event := by
  cases event with
  | patch url start stop => exact Int.le_trans lower starts
  | head url => trivial
  | acknowledged offset => trivial

variable {read : String → Num} {size : Nat} {state next : State} {answers : Answers}
  {upload : TransferSession} {log : List Event} {outcome : Outcome} {offset chunkSize : Int}

theorem Num.safe_eq {n : Num} {k : Int} (exact_ : n.safe = some k) : n = .integer k := by
  cases n with
  | other => cases exact_
  | integer m =>
    simp only [Num.safe] at exact_
    split at exact_
    · cases exact_
      rfl
    · contradiction

theorem Value.safe_eq {value : Value} {k : Int} (exact_ : value.safe = some k) : value = .number (.integer k) := by
  cases value with
  | number n => rw [Num.safe_eq exact_]
  | _ => cases exact_

/-- A safe integer is read as itself. -/
theorem Value.safe_toNumber {value : Value} {k : Int} (exact_ : value.safe = some k) :
    (value.toNumber read).safe = some k := by
  cases value with
  | number n => exact exact_
  | _ => cases exact_

theorem progress_eq (start : progress read size upload = some (offset, chunkSize)) :
    (upload.offset.toNumber read).safe = some offset ∧ 0 ≤ offset ∧ offset ≤ size := by
  unfold progress at start
  split at start
  · next n k offsetIs chunkIs =>
    split at start
    · contradiction
    · next bounds =>
      cases start
      exact ⟨offsetIs, by omega, by omega⟩
  · contradiction

theorem mem_acknowledgement {value : Value} {event : Event} :
    event ∈ acknowledgement value ↔ ∃ n, value.safe = some n ∧ event = .acknowledged n := by
  simp only [acknowledgement, List.mem_map, Option.mem_toList, eq_comm]

theorem acknowledgement_count (value : Value) : (acknowledgement value).countP Event.isRequest = 0 := by
  rw [List.countP_eq_zero]
  intro event member
  obtain ⟨n, -, rfl⟩ := mem_acknowledgement.mp member
  exact Bool.false_ne_true

/-- What is logged behind the PATCH of a turn: one HEAD at most, and the offset of the session
that was received. -/
def Settled (url : Value) (received : Except Problem (Option TransferSession)) (rest : List Event) : Prop :=
  rest.countP Event.isRequest ≤ 1 ∧ ∀ event ∈ rest, event = .head url ∨
    ∃ n, event = .acknowledged n ∧ ∀ upload, received = .ok (some upload) → upload.offset.safe = some n

theorem settled_nil (url : Value) (received : Except Problem (Option TransferSession)) : Settled url received [] :=
  ⟨Nat.zero_le 1, fun _ member => absurd member List.not_mem_nil⟩

theorem settled_acknowledgement (url : Value) (upload : TransferSession) :
    Settled url (.ok (some upload)) (acknowledgement upload.offset) := by
  constructor
  · rw [acknowledgement_count]
    exact Nat.zero_le 1
  · intro event member
    obtain ⟨n, offsetIs, rfl⟩ := mem_acknowledgement.mp member
    refine .inr ⟨n, rfl, fun other same => ?_⟩
    cases same
    exact offsetIs

/-- The HEAD, and the offset it gives, which is then the session's. -/
theorem settled_reported (read : String → Num) (url : Value) (upload : TransferSession) (answer : HeadAnswer) :
    Settled url (.ok (some (recovered read upload answer))) (.head url :: reported read answer) := by
  have given : (reported read answer).countP Event.isRequest = 0 ∧
      Settled url (.ok (some (recovered read upload answer))) (reported read answer) := by
    cases answer with
    | ok value status =>
      cases value with
      | none => exact ⟨rfl, settled_nil _ _⟩
      | some value => exact ⟨acknowledgement_count _, settled_acknowledgement url _⟩
    | lost => exact ⟨rfl, settled_nil _ _⟩
    | failed => exact ⟨rfl, settled_nil _ _⟩
  constructor
  · exact Nat.le_of_eq ((List.countP_cons_of_pos rfl).trans (congrArg (· + 1) given.1))
  · intro event member
    rcases List.mem_cons.mp member with same | later
    · exact .inl same
    · exact given.2.2 event later

/-- A turn sends one PATCH, at its offset, before anything else. -/
theorem exchange_events (read : String → Num) (size : Nat) (upload : TransferSession) (offset chunkSize : Int)
    (answers : Answers) : ∃ stop rest,
    (exchange read size upload offset chunkSize answers).1 = .patch upload.uploadUrl offset stop :: rest ∧
      Settled upload.uploadUrl (exchange read size upload offset chunkSize answers).2 rest := by
  obtain ⟨patch, head⟩ := answers
  refine ⟨min (offset + chunkSize) size, ?_⟩
  cases patch with
  | ok body =>
    cases body with
    | none => exact ⟨[], rfl, settled_nil _ _⟩
    | some answer => exact ⟨_, rfl, settled_acknowledgement _ _⟩
  | okUnreadable reason => exact ⟨[], rfl, settled_nil _ _⟩
  | lost => exact ⟨_, rfl, settled_reported read _ upload head⟩
  | failed detail => exact ⟨_, rfl, settled_reported read _ upload head⟩

/-- Where the loop goes on after an exchange: further, or with one more attempt that stalled. -/
theorem settle_again {stalled : Nat} {patch : PatchAnswer} {received : Option TransferSession}
    (again : settle size offset stalled patch received = .again next) :
    received = some next.upload ∧ ∃ n, next.upload.offset.safe = some n ∧ offset ≤ n ∧ n ≤ size ∧
      (offset < n ∧ next.stalledAttempts = 0 ∨
        n = offset ∧ next.stalledAttempts = stalled + 1 ∧ next.stalledAttempts < 3) := by
  unfold settle at again
  split at again
  · contradiction
  · next upload =>
    split at again
    · contradiction
    · next n offsetIs =>
      split_ifs at again with invalid complete whole further stalls
      · cases again
        exact ⟨rfl, n, offsetIs, by omega, by omega, .inl ⟨further, rfl⟩⟩
      · cases again
        exact ⟨rfl, n, offsetIs, by omega, by omega, .inr ⟨by omega, rfl, by dsimp only; omega⟩⟩

/-- The only session that is returned is complete and has the size. -/
theorem settle_ok {stalled : Nat} {patch : PatchAnswer} {received : Option TransferSession}
    (returned : settle size offset stalled patch received = .ended (.ok upload)) :
    upload.status = .string "complete" ∧ upload.offset = .number (.integer size) := by
  unfold settle at returned
  split at returned
  · cases returned
  · next session =>
    split at returned
    · cases returned
    · next n offsetIs =>
      split at returned
      · cases returned
      · split at returned
        · next complete =>
          split at returned
          · next whole =>
            cases returned
            subst whole
            exact ⟨complete, Value.safe_eq offsetIs⟩
          · cases returned
        · split at returned
          · cases returned
          · split at returned <;> cases returned

/-- What one turn sends, and where it leaves the loop when it goes on. -/
theorem turn_cases (read : String → Num) (size : Nat) (state : State) (answers : Answers) :
    (∃ problem, turn read size state answers = ([], .ended (.error problem))) ∨
    ∃ offset chunkSize stop rest received, progress read size state.upload = some (offset, chunkSize) ∧
      Settled state.upload.uploadUrl received rest ∧
      turn read size state answers = (.patch state.upload.uploadUrl offset stop :: rest,
        match received with
        | .error problem => .ended (.error problem)
        | .ok session => settle size offset state.stalledAttempts answers.patch session) := by
  unfold turn
  split
  · exact .inl ⟨_, rfl⟩
  · split
    · exact .inl ⟨_, rfl⟩
    · next offset chunkSize start =>
      obtain ⟨stop, rest, logged, settled⟩ :=
        exchange_events read size state.upload offset chunkSize answers
      generalize exchange read size state.upload offset chunkSize answers = result at logged settled ⊢
      obtain ⟨log, received⟩ := result
      subst logged
      refine .inr ⟨offset, chunkSize, stop, rest, received, start, settled, ?_⟩
      cases received with
      | error problem => rfl
      | ok session => rfl

theorem turn_requests (read : String → Num) (size : Nat) (state : State) (answers : Answers) :
    (turn read size state answers).1.countP Event.isRequest ≤ 2 := by
  rcases turn_cases read size state answers with ⟨problem, turned⟩ | ⟨_, _, _, rest, _, _, settled, turned⟩
  · rw [turned]
    exact Nat.zero_le 2
  · rw [turned, List.countP_cons_of_pos rfl]
    have few := settled.1
    omega

theorem turn_ok (returned : turn read size state answers = (log, .ended (.ok upload))) :
    upload.status = .string "complete" ∧ upload.offset = .number (.integer size) := by
  rcases turn_cases read size state answers with ⟨problem, turned⟩ | ⟨_, _, _, _, received, _, _, turned⟩
  · rw [turned] at returned
    cases returned
  · rw [turned] at returned
    cases received with
    | error problem => cases returned
    | ok session => exact settle_ok (Prod.mk.inj returned).2

/-- A turn after which the loop goes on, with the offset it started at and the one it got. -/
theorem turn_again (again : turn read size state answers = (log, .again next)) :
    ∃ offset n : Int, (state.upload.offset.toNumber read).safe = some offset ∧
      next.upload.offset.safe = some n ∧ 0 ≤ offset ∧ offset ≤ n ∧ n ≤ size ∧
      (∀ event ∈ log, ∀ mark ∈ event.mark, mark ≤ n) ∧
      (offset < n ∧ next.stalledAttempts = 0 ∨
        n = offset ∧ next.stalledAttempts = state.stalledAttempts + 1 ∧ next.stalledAttempts < 3) := by
  rcases turn_cases read size state answers with ⟨problem, turned⟩ |
    ⟨offset, chunkSize, stop, rest, received, start, settled, turned⟩
  · rw [turned] at again
    cases again
  · rw [turned] at again
    obtain ⟨logged, goesOn⟩ := Prod.mk.inj again
    cases received with
    | error problem => cases goesOn
    | ok session =>
      obtain ⟨same, n, offsetIs, forward, bounded, moved⟩ := settle_again goesOn
      obtain ⟨startIs, nonnegative, -⟩ := progress_eq start
      refine ⟨offset, n, startIs, offsetIs, nonnegative, forward, bounded, ?_, moved⟩
      subst logged
      intro event member mark marked
      rcases List.mem_cons.mp member with rfl | later
      · cases marked
        exact forward
      · rcases settled.2 event later with rfl | ⟨m, rfl, given⟩
        · cases marked
        · cases marked
          have known := given next.upload (congrArg Except.ok same)
          rw [offsetIs] at known
          exact Int.le_of_eq (Option.some.inj known).symm

/-- How far a state is from the end: three attempts for each byte that is missing, and those
left before the third that stalls. -/
def left (read : String → Num) (size : Nat) (state : State) : Nat :=
  match (state.upload.offset.toNumber read).safe with
  | some offset => 3 * (size - offset.toNat) + (2 - state.stalledAttempts)
  | none => 0

theorem turn_shrinks (stalled : state.stalledAttempts < 3) (again : turn read size state answers = (log, .again next)) :
    next.stalledAttempts < 3 ∧ left read size next < left read size state := by
  obtain ⟨offset, n, startIs, offsetIs, nonnegative, forward, bounded, -, moved⟩ := turn_again again
  rw [left, left, startIs, Value.safe_toNumber offsetIs]
  dsimp only
  rcases moved with ⟨further, reset⟩ | ⟨rfl, attempt, few⟩
  · omega
  · omega

/-- A state whose offset is known sends nothing from before it. -/
def FromOffset (read : String → Num) (state : State) (event : Event) : Prop :=
  ∀ offset, (state.upload.offset.toNumber read).safe = some offset → StartsFrom offset event

theorem turn_ordered (read : String → Num) (size : Nat) (state : State) (answers : Answers) :
    (turn read size state answers).1.Pairwise InOrder ∧
      ∀ event ∈ (turn read size state answers).1, FromOffset read state event := by
  rcases turn_cases read size state answers with ⟨problem, turned⟩ |
    ⟨offset, chunkSize, stop, rest, received, start, settled, turned⟩
  · rw [turned]
    exact ⟨List.Pairwise.nil, fun event member => absurd member List.not_mem_nil⟩
  · have free : ∀ event ∈ rest, ∀ any, StartsFrom any event := by
      intro event member any
      rcases settled.2 event member with rfl | ⟨n, rfl, -⟩
      · trivial
      · trivial
    rw [turned]
    constructor
    · rw [List.pairwise_cons]
      refine ⟨fun event member mark _ => free event member mark, ?_⟩
      exact List.pairwise_of_forall_mem_list fun _ _ event member mark _ => free event member mark
    · intro event member any anyIs
      rcases List.mem_cons.mp member with rfl | later
      · rw [(progress_eq start).1] at anyIs
        cases anyIs
        exact Int.le_refl offset
      · exact free event later any

theorem turn_later (again : turn read size state answers = (log, .again next)) (event : Event)
    (fromNext : FromOffset read next event) :
    FromOffset read state event ∧ ∀ early ∈ log, InOrder early event := by
  obtain ⟨offset, n, startIs, offsetIs, -, forward, -, marks, -⟩ := turn_again again
  have starts := fromNext n (Value.safe_toNumber offsetIs)
  constructor
  · intro any anyIs
    rw [startIs] at anyIs
    cases anyIs
    exact starts.mono forward
  · exact fun early member mark marked => starts.mono (marks early member mark marked)

/-- Against every sequence of answers and lost requests the transfer ends, after a number of
requests that the size bounds; its PATCH requests never go back and never start before a byte
that was acknowledged, the first session's included; and it returns a session only that is
complete and has the size. -/
theorem finishTransfer_ends (read : String → Num) (size : Nat) (initial : TransferSession) (answers : Nat → Answers) :
    ∃ log outcome,
      (∀ turns ≥ 3 * size + 3, finishTransfer read size initial turns answers = (log, some outcome)) ∧
      log.countP Event.isRequest ≤ 2 * (3 * size + 3) ∧
      log.Pairwise InOrder ∧
      (∀ event ∈ log, FromOffset read ⟨initial, 0⟩ event) ∧
      ∀ upload, outcome = .ok upload →
        upload.status = .string "complete" ∧ upload.offset = .number (.integer size) := by
  by_cases complete : initial.status = .string "complete"
  · by_cases whole : initial.offset = .number (.integer size)
    · refine ⟨[], .ok initial, fun turns _ => ?_, Nat.zero_le _, List.Pairwise.nil,
        fun event member => absurd member List.not_mem_nil, fun upload same => ?_⟩
      · rw [finishTransfer, if_pos complete, if_pos whole]
      · cases same
        exact ⟨complete, whole⟩
    · refine ⟨[], .error .premature, fun turns _ => ?_, Nat.zero_le _, List.Pairwise.nil,
        fun event member => absurd member List.not_mem_nil, fun upload same => ?_⟩
      · rw [finishTransfer, if_pos complete, if_neg whole]
      · cases same
  · have started : ∀ turns, finishTransfer read size initial turns answers =
        attempts (turn read size) turns ⟨initial, 0⟩ answers := fun turns => if_neg complete
    have enough : left read size ⟨initial, 0⟩ < 3 * size + 3 := by
      unfold left
      split
      · dsimp only
        omega
      · omega
    obtain ⟨log, outcome, ended⟩ := attempts_end
      (fun _ _ _ _ stalled again => turn_shrinks stalled again) ⟨initial, 0⟩ (Nat.zero_lt_succ 2) answers enough
    have ordered := attempts_pairwise (fun s a => turn_ordered read size s a)
      (fun _ _ _ _ again => turn_later again) (3 * size + 3) ⟨initial, 0⟩ answers
    have counted := attempts_count Event.isRequest 2 (turn_requests read size) (3 * size + 3) ⟨initial, 0⟩ answers
    rw [ended] at ordered counted
    refine ⟨log, outcome, fun turns more => ?_, counted, ordered.1, ordered.2, fun upload same => ?_⟩
    · rw [started]
      exact attempts_stable _ ended more
    · have finished : ∀ s a log outcome, turn read size s a = (log, .ended outcome) → ∀ upload, outcome = .ok upload →
          upload.status = .string "complete" ∧ upload.offset = .number (.integer size) := by
        rintro s a log outcome last upload rfl
        exact turn_ok last
      exact attempts_outcome finished ended upload same

end Drivebound.Frontend
