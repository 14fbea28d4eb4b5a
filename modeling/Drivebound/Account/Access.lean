import Drivebound.Catalog

/-! Rules of `core/security.py` and `services/accounts.py` by which password, passkey and
Google sign-in go alike, each over the columns that it reads. -/
namespace Drivebound.Account

/-- `session_has_recent_auth`, of the `reauthenticated_at` of the session. -/
def sessionHasRecentAuth (recentAuthMinutes : Nat) (reauthenticatedAt : Option Timestamp)
    (now : Timestamp) : Bool :=
  match reauthenticatedAt with
  | none => false
  | some verifiedAt => now ≤ verifiedAt + recentAuthMinutes * 60 ∧ verifiedAt ≤ now + 60

/-- `create_account_token` on the rows of its table: what the new row supersedes is used up. -/
def createAccountToken {τ : Type*} (supersedes : τ → Bool) (use : τ → τ) (row : τ) (tokens : List τ) :
    List τ :=
  (tokens.map fun token => if supersedes token then use token else token) ++ [row]

end Drivebound.Account
