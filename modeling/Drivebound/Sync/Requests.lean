import Drivebound.Core.Run
import Drivebound.Core.Sessions
import Drivebound.Sync.Service

/-! Concurrent requests of `app/api/v1/sync.py` on one root. A request reads what
its endpoint loads without a lock, waits for the root's row lock and then runs on
the committed rows, except that the instance it has loaded keeps its attributes:
the locking `SELECT` does not refresh them. An error, a crash or a lost
connection rolls the transaction back. -/
namespace Drivebound.Sync
open Sessions

inductive Call where
  | push (clientId : String) (inputs : List (SyncOperationInput × FreshIds))
  | resolve (conflictId : UUID) (choice : Choice)
  deriving DecidableEq, Repr

/-- A call with what its endpoint loaded: `owned_root` or the conflict row. -/
inductive Request where
  | push (clientId : String) (inputs : List (SyncOperationInput × FreshIds)) (cursor : Nat)
  | resolve (conflict : SyncConflict) (choice : Choice)
  deriving DecidableEq, Repr

inductive Phase where
  | idle
  | loaded (request : Request)
  | locked (request : Request)
  | answered (accepted : Bool)
  deriving DecidableEq, Repr

inductive Label (τ : Type) where
  | begin (t : τ) (call : Call)
  | lock (t : τ)
  | commit (t : τ) (fresh : FreshIds) (now : Timestamp)
  | abort (t : τ)
  deriving DecidableEq, Repr

/-- The endpoint's unlocked read; `none` is its 404. -/
def Call.load (db : SyncDb) : Call → Option Request
  | .push clientId inputs => some (.push clientId inputs db.root.cursor)
  | .resolve conflictId choice => (db.conflict? conflictId).map (.resolve · choice)

/-- The transaction once the root's lock is granted. -/
def Request.commit (db : SyncDb) (fresh : FreshIds) (now : Timestamp) :
    Request → Except Failure SyncDb
  | .push clientId inputs cursor => (applyOperations db cursor clientId inputs now).map Batch.db
  | .resolve conflict choice => resolveConflict db conflict choice fresh now

def Phase.resting : Phase → Bool
  | .idle | .answered _ => true
  | .loaded _ | .locked _ => false

/-- A request that waits for the root's lock. -/
def Phase.pending : Phase → Option Request
  | .loaded request => some request
  | .idle | .locked _ | .answered _ => none

variable {τ : Type} [DecidableEq τ]

/-- Requests `τ` on the root; the one lock is the root's row lock. -/
abbrev Requests (τ : Type) := Store SyncDb Phase Unit τ

def step (s : Requests τ) : Label τ → Option (Requests τ)
  | .begin t call =>
    if (s.locals t).resting then
      match call.load s.shared with
      | none => some (s.stay t (.answered false))
      | some request => some (s.stay t (.loaded request))
    else none
  | .lock t =>
    match s.locals t with
    | .loaded request => s.lock t () (.locked request)
    | _ => none
  | .commit t fresh now =>
    match s.locals t with
    | .locked request =>
      match request.commit s.shared fresh now with
      | .ok db => some (s.finish t db (.answered true))
      | .error _ => some (s.finish t s.shared (.answered false))
    | _ => none
  | .abort t =>
    if (s.locals t).resting then none else some (s.finish t s.shared (.answered false))

/-- Whenever a request is granted the lock, it meets `P` on the committed rows. -/
def Granted (P : SyncDb → Request → Prop) (s : Requests τ) : Label τ → Prop
  | .lock t => ∀ request ∈ (s.locals t).pending, P s.shared request
  | .begin _ _ | .commit _ _ _ | .abort _ => True

instance (P : SyncDb → Request → Prop) [∀ db, DecidablePred (P db)] (s : Requests τ) :
    DecidablePred (Granted P s)
  | .lock t => inferInstanceAs (Decidable (∀ request ∈ (s.locals t).pending, P s.shared request))
  | .begin _ _ | .commit _ _ _ | .abort _ => isTrue trivial

/-- The committed rows change by an accepted commit under the lock only. -/
theorem step_shared {s s' : Requests τ} (stepped : step s label = some s') :
    s'.shared = s.shared ∨ ∃ t request fresh now, s.locals t = .locked request ∧
      request.commit s.shared fresh now = .ok s'.shared := by
  cases label with
  | begin t call =>
    simp only [step] at stepped
    split at stepped
    · split at stepped <;> (cases stepped; exact .inl rfl)
    · contradiction
  | lock t =>
    simp only [step] at stepped
    split at stepped
    · exact .inl (Store.lock_shared stepped)
    · contradiction
  | commit t fresh now =>
    simp only [step] at stepped
    split at stepped
    · rename_i request phase
      split at stepped
      · rename_i db result
        cases stepped
        exact .inr ⟨t, request, fresh, now, phase, result⟩
      · cases stepped
        exact .inl rfl
    · contradiction
  | abort t =>
    simp only [step] at stepped
    split at stepped
    · contradiction
    · cases stepped
      exact .inl rfl

def Holding : Phase → Unit → Prop
  | .locked _, _ => True
  | _, _ => False

section Rule

variable {G A : SyncDb → Prop} {L : Request → Prop} {P K : SyncDb → Request → Prop}

/-- What holds of a request: `L` once it is loaded, `K` on the committed rows
while it owns the lock and `A` once it is accepted. -/
def Holds (L : Request → Prop) (K : SyncDb → Request → Prop) (A : SyncDb → Prop) (db : SyncDb) :
    Phase → Prop
  | .idle => True
  | .loaded request => L request
  | .locked request => K db request
  | .answered accepted => accepted = true → A db

theorem holds_others {db after : SyncDb} (stable : A db → A after) (phase : Phase)
    (unlocked : ∀ k, ¬ Holding phase k) (held : Holds L K A db phase) :
    Holds L K A after phase := by
  cases phase with
  | idle => trivial
  | loaded request => exact held
  | locked request => exact absurd trivial (unlocked ())
  | answered accepted => exact fun yes => stable (held yes)

/-- The rule for one step: loading establishes `L`, a lock granted under `P`
turns it into `K` and a commit under `K` keeps the global part. -/
theorem step_sound {s s' : Requests τ} (stepped : step s label = some s')
    (granted : Granted P s label) (sound : Sound Holding G (Holds L K A) s)
    (loads : ∀ t call request, label = .begin t call → call.load s.shared = some request →
      L request)
    (grants : ∀ request, P s.shared request → L request → K s.shared request)
    (commits : ∀ request fresh now db, K s.shared request →
      request.commit s.shared fresh now = .ok db → G db ∧ A db) :
    Sound Holding G (Holds L K A) s' := by
  cases label with
  | begin t call =>
    simp only [step] at stepped
    split at stepped
    · split at stepped
      · cases stepped
        exact sound.stay (fun yes => absurd yes (by simp)) (fun _ held => held.elim)
      · rename_i request found
        cases stepped
        exact sound.stay (loads t call request rfl found) (fun _ held => held.elim)
    · contradiction
  | lock t =>
    simp only [step] at stepped
    split at stepped
    · rename_i request phase
      have held := sound.session t
      rw [phase] at held
      have fresh : P s.shared request := granted request (by rw [phase]; rfl)
      exact sound.lock stepped (grants request fresh held) (fun k' _ => .inl rfl)
    · contradiction
  | commit t fresh now =>
    simp only [step] at stepped
    split at stepped
    · rename_i request phase
      have held := sound.session t
      rw [phase] at held
      split at stepped
      · rename_i db result
        cases stepped
        obtain ⟨global, accepted⟩ := commits request fresh now db held result
        refine sound.finish global (fun _ => accepted) (fun _ held => held) ?_
        intro other unlocked before
        have free : ∀ k, ¬ Holding other k := fun k => unlocked k (by rw [phase]; trivial)
        exact holds_others (fun _ => accepted) other free before
      · cases stepped
        exact sound.abandon (fun yes => absurd yes (by simp)) (fun _ held => held)
    · contradiction
  | abort t =>
    simp only [step] at stepped
    split at stepped
    · contradiction
    · cases stepped
      exact sound.abandon (fun yes => absurd yes (by simp)) (fun _ held => held)

end Rule

/-- The committed rows before any request. -/
def start (db : SyncDb) : Requests τ := Store.idle db .idle

omit [DecidableEq τ] in
theorem start_sound {G A : SyncDb → Prop} {L : Request → Prop} {K : SyncDb → Request → Prop}
    {db : SyncDb} (global : G db) : Sound Holding G (Holds L K A) (start db : Requests τ) :=
  Sound.idle global trivial (fun _ held => held)

end Drivebound.Sync
