import Drivebound.Core.History
import Drivebound.Nodes.Freshness

/-! The command of `tools/drivebound_node.py`, one process at a time over one configuration
file. A timestamp is in the file before it is signed, so wherever the process ends the next
one starts above it; a pairing signs what the clock says, with an identity of its own. -/
namespace Drivebound.Nodes
open Run

/-- An Ed25519 key; those that `generate_identity` makes are numbered. -/
abbrev Identity := Nat

/-- A clock that is before 1970 reads less than 0. -/
abbrev ClockMs := Int

structure Config where
  nodeId : NodeId
  nodeSecret : String
  privateKey : Identity
  lastTimestampMs : Option ClockMs
  deriving DecidableEq, Repr

inductive ConfigFile where
  /-- Without a `private_key`. -/
  | legacy
  | attested (config : Config)
  deriving DecidableEq, Repr

inductive Errand where
  | rotateSecret | heartbeat
  deriving DecidableEq, Repr

/-- Where the process is, with the configuration that it has in memory; `rotate` says that
`--rotate-secret` has still to be done. -/
inductive Point where
  | stopped
  | pairing (privateKey : Identity) (timestampMs : ClockMs) (rotate : Bool)
  | paired (config : Config) (rotate : Bool)
  | ready (config : Config) (rotate : Bool)
  | reserved (config : Config) (errand : Errand)
  | persisted (config : Config) (errand : Errand)
  | sent (config : Config) (errand : Errand)
  | rotated (config : Config)
  deriving DecidableEq, Repr

structure Client where
  file : Option ConfigFile
  generated : Nat
  point : Point
  deriving DecidableEq, Repr

inductive Move where
  | pairNode (clockMs : ClockMs) (replaceExisting rotate : Bool)
  | readConfig (rotate : Bool)
  /-- The answer of the server, with the id and the secret that it gives. -/
  | respond (nodeId : NodeId) (nodeSecret : String)
  | reserveTimestamp (clockMs : ClockMs)
  | writeConfig
  | sign
  /-- An exception, a crash or the end under `--once`. -/
  | stop
  deriving DecidableEq, Repr

def Config.reserve (config : Config) (clockMs : ClockMs) : Config :=
  { config with lastTimestampMs := some (max clockMs (config.lastTimestampMs.getD 0 + 1)) }

/-- An identity is replaced only where that is asked for. -/
def refusesPairing (file : Option ConfigFile) (replaceExisting : Bool) : Bool :=
  match file with
  | some (.attested _) => !replaceExisting
  | _ => false

def clientStep (s : Client) : Move → Option Client
  | .pairNode clockMs replaceExisting rotate =>
    match s.point with
    | .stopped =>
      if refusesPairing s.file replaceExisting = true then some s
      else some { s with generated := s.generated + 1, point := .pairing s.generated clockMs rotate }
    | _ => none
  | .readConfig rotate =>
    match s.point, s.file with
    | .stopped, some (.attested config) => some { s with point := .ready config rotate }
    | .stopped, _ => some s
    | _, _ => none
  | .respond nodeId nodeSecret =>
    match s.point with
    | .pairing privateKey timestampMs rotate =>
      some { s with point := .paired ⟨nodeId, nodeSecret, privateKey, some timestampMs⟩ rotate }
    | .sent config .rotateSecret => some { s with point := .rotated { config with nodeSecret } }
    | .sent config .heartbeat => some { s with point := .ready config false }
    | _ => none
  | .reserveTimestamp clockMs =>
    match s.point with
    | .ready config rotate =>
      some { s with point := .reserved (config.reserve clockMs) (if rotate then .rotateSecret else .heartbeat) }
    | _ => none
  | .writeConfig =>
    match s.point with
    | .paired config rotate => some { s with file := some (.attested config), point := .ready config rotate }
    | .reserved config errand => some { s with file := some (.attested config), point := .persisted config errand }
    | .rotated config => some { s with file := some (.attested config), point := .ready config false }
    | _ => none
  | .sign =>
    match s.point with
    | .persisted config errand => some { s with point := .sent config errand }
    | _ => none
  | .stop => some { s with point := .stopped }

/-- The timestamp that a step signs, and with which identity. -/
def signedBy (s : Client) : Move → Option (Identity × ClockMs)
  | .pairNode clockMs replaceExisting _ =>
    match s.point with
    | .stopped => if refusesPairing s.file replaceExisting = true then none else some (s.generated, clockMs)
    | _ => none
  | .sign =>
    match s.point with
    | .persisted config _ => some (config.privateKey, config.lastTimestampMs.getD 0)
    | _ => none
  | _ => none

abbrev Signatures := List (Identity × ClockMs)

def signaturesAfter (s : Client) (move : Move) (_ : Client) (signatures : Signatures) : Signatures :=
  (signedBy s move).toList ++ signatures

abbrev signingStep : Client × Signatures → Move → Option (Client × Signatures) :=
  noted clientStep signaturesAfter

/-- The keys made later are not the one in the file. -/
def startClient (file : Option ConfigFile) : Client where
  file
  generated :=
    match file with
    | some (.attested config) => config.privateKey + 1
    | _ => 0
  point := .stopped

def identityOf : Option ConfigFile → Option Identity
  | some (.attested config) => some config.privateKey
  | _ => none

/-- The configuration file is there with its identity. -/
def KeepsConfig (file : Option ConfigFile) (s : Client × Signatures) (_ : Move) : Prop :=
  identityOf s.1.file = identityOf file ∧ identityOf file ≠ none

/-- What is signed is above everything that has been signed. -/
def SignsLater (s : Client × Signatures) (move : Move) : Prop :=
  (signingStep s move).isSome = true → ∀ signature, signedBy s.1 move = some signature →
    ∀ earlier ∈ s.2, earlier.2 < signature.2

/-- What is signed is above everything that has been signed with its identity. -/
def SignsLaterAsItself (s : Client × Signatures) (move : Move) : Prop :=
  (signingStep s move).isSome = true → ∀ signature, signedBy s.1 move = some signature →
    ∀ earlier ∈ s.2, earlier.1 = signature.1 → earlier.2 < signature.2

instance (file : Option ConfigFile) (s : Client × Signatures) (move : Move) :
    Decidable (KeepsConfig file s move) :=
  inferInstanceAs (Decidable (_ ∧ _))

instance (s : Client × Signatures) (move : Move) : Decidable (SignsLater s move) :=
  inferInstanceAs (Decidable (_ → ∀ signature, _ = some signature → _))

/-- What has been signed with an identity is not above the last timestamp of its configuration. -/
def Config.Covers (config : Config) (signatures : Signatures) : Prop :=
  ∀ earlier ∈ signatures, earlier.1 = config.privateKey → earlier.2 ≤ config.lastTimestampMs.getD 0

/-- What has been signed with an identity is below it. -/
def Config.Exceeds (config : Config) (signatures : Signatures) : Prop :=
  ∀ earlier ∈ signatures, earlier.1 = config.privateKey → earlier.2 < config.lastTimestampMs.getD 0

/-- What the process knows of its configuration. -/
def Point.Knows (s : Client) (signatures : Signatures) : Point → Prop
  | .stopped => True
  | .pairing privateKey timestampMs _ => privateKey < s.generated ∧
    ∀ earlier ∈ signatures, earlier.1 = privateKey → earlier.2 ≤ timestampMs
  | .paired config _ | .ready config _ | .sent config _ | .rotated config =>
    config.privateKey < s.generated ∧ config.Covers signatures
  | .reserved config _ => config.privateKey < s.generated ∧ config.Exceeds signatures
  | .persisted config _ => s.file = some (.attested config) ∧ config.Exceeds signatures

structure Consistent (s : Client × Signatures) : Prop where
  numbered : ∀ earlier ∈ s.2, earlier.1 < s.1.generated
  file : ∀ config, s.1.file = some (.attested config) →
    config.privateKey < s.1.generated ∧ config.Covers s.2
  point : s.1.point.Knows s.1 s.2

variable {s t : Client × Signatures} {move : Move} {config : Config} {signatures : Signatures}

theorem Config.Exceeds.covers (exceeds : config.Exceeds signatures) : config.Covers signatures :=
  fun earlier member same => Int.le_of_lt (exceeds earlier member same)

/-- A reserved timestamp is above the last one, whatever the clock says. -/
theorem Config.Covers.reserve (covers : config.Covers signatures) (clockMs : ClockMs) :
    (config.reserve clockMs).Exceeds signatures := by
  intro earlier member same
  have before := covers earlier member same
  have above : config.lastTimestampMs.getD 0 + 1 ≤ max clockMs (config.lastTimestampMs.getD 0 + 1) :=
    Int.le_max_right ..
  exact Int.lt_of_lt_of_le (Int.lt_add_one_of_le before) above

theorem Config.Covers.cons (covers : config.Covers signatures) {signature : Identity × ClockMs}
    (bounded : signature.1 = config.privateKey → signature.2 ≤ config.lastTimestampMs.getD 0) :
    config.Covers (signature :: signatures) := by
  intro earlier member same
  rcases List.mem_cons.mp member with rfl | before
  · exact bounded same
  · exact covers earlier before same

/-- A step that signs nothing, and keeps the file or replaces it by a configuration that
covers what has been signed. -/
theorem Consistent.quiet (consistent : Consistent s) {file : Option ConfigFile} {point : Point}
    (kept : ∀ config, file = some (.attested config) → s.1.file = file ∨
      config.privateKey < s.1.generated ∧ config.Covers s.2)
    (arrives : point.Knows { s.1 with file, point } s.2) : Consistent ({ s.1 with file, point }, s.2) := by
  refine ⟨consistent.numbered, fun config stored => ?_, arrives⟩
  rcases kept config stored with same | covered
  · exact consistent.file config (same.trans stored)
  · exact covered

/-- A new identity has signed nothing. -/
theorem pairNode_consistent (consistent : Consistent s) (clockMs : ClockMs) (rotate : Bool) :
    Consistent ({ s.1 with generated := s.1.generated + 1, point := .pairing s.1.generated clockMs rotate },
      (s.1.generated, clockMs) :: s.2) := by
  refine ⟨fun earlier member => ?_, fun config stored => ?_, Nat.lt_succ_self _, fun earlier member same => ?_⟩
  · rcases List.mem_cons.mp member with rfl | before
    · exact Nat.lt_succ_self _
    · exact Nat.lt_succ_of_lt (consistent.numbered earlier before)
  · obtain ⟨older, covers⟩ := consistent.file config stored
    exact ⟨Nat.lt_succ_of_lt older, covers.cons fun same => absurd same (Nat.ne_of_gt older)⟩
  · rcases List.mem_cons.mp member with rfl | before
    · exact Int.le_refl _
    · exact absurd same (Nat.ne_of_lt (consistent.numbered earlier before))

/-- The timestamp that is signed is the one in the file. -/
theorem sign_consistent (consistent : Consistent s) {errand : Errand}
    (here : s.1.point = .persisted config errand) :
    Consistent ({ s.1 with point := .sent config errand },
      (config.privateKey, config.lastTimestampMs.getD 0) :: s.2) := by
  have knows := consistent.point
  rw [here] at knows
  obtain ⟨stored, exceeds⟩ := knows
  obtain ⟨older, covers⟩ := consistent.file config stored
  have covered : config.Covers ((config.privateKey, config.lastTimestampMs.getD 0) :: s.2) :=
    covers.cons fun _ => Int.le_refl _
  refine ⟨fun earlier member => ?_, fun other same => ?_, older, covered⟩
  · rcases List.mem_cons.mp member with rfl | before
    · exact older
    · exact consistent.numbered earlier before
  · obtain rfl : config = other := by simpa using stored.symm.trans same
    exact ⟨older, covered⟩

theorem clientStep_consistent (consistent : Consistent s) (stepped : signingStep s move = some t) :
    Consistent t := by
  obtain ⟨moved, history⟩ := noted_iff.mp stepped
  obtain ⟨⟨file, generated, point⟩, signatures⟩ := s
  obtain ⟨after, later⟩ := t
  dsimp only at moved history
  subst history
  have knows := consistent.point
  cases move with
  | stop =>
    cases moved
    exact consistent.quiet (fun _ _ => .inl rfl) trivial
  | pairNode clockMs replaceExisting rotate =>
    cases point with
    | stopped =>
      simp only [clientStep] at moved
      simp only [signaturesAfter, signedBy]
      split at moved
      · rename_i refused
        cases moved
        rw [if_pos refused]
        exact consistent
      · rename_i allowed
        cases moved
        rw [if_neg allowed]
        exact pairNode_consistent consistent clockMs rotate
    | _ => contradiction
  | readConfig rotate =>
    cases point with
    | stopped =>
      cases file with
      | none =>
        cases moved
        exact consistent
      | some stored =>
        cases stored with
        | legacy =>
          cases moved
          exact consistent
        | attested config =>
          cases moved
          exact consistent.quiet (fun _ _ => .inl rfl) (consistent.file config rfl)
    | _ => contradiction
  | respond nodeId nodeSecret =>
    cases point with
    | pairing privateKey timestampMs rotate =>
      cases moved
      exact consistent.quiet (fun _ _ => .inl rfl) knows
    | sent config errand =>
      cases errand with
      | rotateSecret =>
        cases moved
        exact consistent.quiet (fun _ _ => .inl rfl) knows
      | heartbeat =>
        cases moved
        exact consistent.quiet (fun _ _ => .inl rfl) knows
    | _ => contradiction
  | reserveTimestamp clockMs =>
    cases point with
    | ready config rotate =>
      cases moved
      exact consistent.quiet (fun _ _ => .inl rfl) ⟨knows.1, knows.2.reserve clockMs⟩
    | _ => contradiction
  | writeConfig =>
    cases point with
    | paired config rotate | rotated config =>
      cases moved
      refine consistent.quiet (fun other stored => .inr ?_) knows
      cases stored
      exact knows
    | reserved config errand =>
      cases moved
      refine consistent.quiet (fun other stored => .inr ?_) ⟨rfl, knows.2⟩
      cases stored
      exact ⟨knows.1, knows.2.covers⟩
    | _ => contradiction
  | sign =>
    cases point with
    | persisted config errand =>
      cases moved
      exact sign_consistent consistent rfl
    | _ => contradiction

theorem consistent_signs (consistent : Consistent s) : SignsLaterAsItself s move := by
  intro _ signature signed earlier member same
  have knows := consistent.point
  obtain ⟨⟨file, generated, point⟩, signatures⟩ := s
  cases move with
  | pairNode clockMs replaceExisting rotate =>
    cases point with
    | stopped =>
      simp only [signedBy] at signed
      split at signed
      · contradiction
      · cases signed
        exact absurd same (Nat.ne_of_lt (consistent.numbered earlier member))
    | _ => contradiction
  | sign =>
    cases point with
    | persisted config errand =>
      cases signed
      exact knows.2 earlier member same
    | _ => contradiction
  | _ => contradiction

theorem start_consistent (file : Option ConfigFile) : Consistent (startClient file, []) := by
  refine ⟨nofun, fun config stored => ⟨?_, nofun⟩, trivial⟩
  obtain rfl : file = some (.attested config) := stored
  exact Nat.lt_succ_self _

/-- Every life of a configuration file. -/
theorem always_signs (file : Option ConfigFile) (moves : List Move) :
    Along signingStep SignsLaterAsItself (startClient file, []) moves := by
  refine along_of_invariant (C := fun _ _ => True) ?_ ?_ (start_consistent file) (along_true _ _)
  · exact fun _ _ _ consistent _ stepped => clientStep_consistent consistent stepped
  · exact fun _ _ consistent _ => consistent_signs consistent

/-- In every run of the endpoints from tables with their keys, the timestamps accepted of a
node increase, no message is accepted twice, for another node or for another action, a secret
that was replaced is not accepted again, a code is claimed once, and what is not accepted
changes nothing; and in every life of a configuration file the timestamps signed with an
identity increase. -/
theorem timestamps_are_used_once (library : Library) (settings : Settings) {db : Database}
    (keyed : Keyed db) (labels : List (Nat × Action)) (file : Option ConfigFile) (moves : List Move) :
    Along (ledgerStep library settings) (Honours library settings) (start db, Ledger.empty) labels ∧
      Along signingStep SignsLaterAsItself (startClient file, []) moves :=
  ⟨always_honours library settings keyed labels, always_signs file moves⟩

/-- Texts of capitals and digits, and signatures that are good. -/
def capitals : Library where
  upper text := text
  upper_upper _ := rfl
  tokenDigest token := token
  fromPublicBytes _ := true
  verify _ _ _ := true

/-- An account with a code that was issued. -/
def awaiting : Database := ⟨[], [⟨1, "ABCD2345", 600000, none⟩]⟩

def zeroKey : String := String.ofList (List.replicate 43 'A')

def zeroSignature : String := String.ofList (List.replicate 86 'A')

/-- A pairing, a rotation and a heartbeat with the secret that it gives. -/
def pairingRun : List (Nat × Action) :=
  [(1, .claim ⟨"ABCD2345", "attic", zeroKey, 2000, zeroSignature, none⟩ 2000), (1, .lockCode),
    (1, .pair false "n1" "S1"), (2, .request "S1" (.rotateSecret ⟨"n1", 3000, zeroSignature⟩)),
    (2, .attest false 3000), (2, .commit "S2"),
    (3, .request "S2" (.heartbeat ⟨"n1", 4000, some "1.0", [], zeroSignature⟩)), (3, .attest false 4000),
    (3, .commit "")]

/-- A heartbeat, whose configuration is kept through a pairing that fails. -/
def repairing : List Move :=
  [.readConfig false, .reserveTimestamp 2000, .writeConfig, .sign, .stop, .pairNode 500 true false, .stop]

def pairedConfig : Option ConfigFile := some (.attested ⟨"n1", "S1", 0, some 1000⟩)

theorem awaiting_keyed : Keyed awaiting := ⟨by decide, by decide, by decide⟩

theorem pairings_are_accepted :
    ((run (ledgerStep capitals ⟨10, true⟩) (start awaiting, Ledger.empty) pairingRun).map
        fun t => t.2.accepted.map fun entry => (entry.1, entry.2.timestampMs)) =
      some [("n1", 4000), ("n1", 3000), ("n1", 2000)] ∧
      (run signingStep (startClient pairedConfig, []) repairing).isSome = true ∧
      Along (ledgerStep capitals ⟨10, true⟩) (Honours capitals ⟨10, true⟩) (start awaiting, Ledger.empty)
        pairingRun ∧ Along signingStep SignsLaterAsItself (startClient pairedConfig, []) repairing :=
  ⟨by decide +kernel, by decide +kernel,
    timestamps_are_used_once capitals ⟨10, true⟩ awaiting_keyed pairingRun pairedConfig repairing⟩

/-- A pairing signs what the clock says, whatever the identity in the file has signed. -/
theorem pairing_signs_earlier : ¬ ∀ (file : Option ConfigFile) (moves : List Move),
    Along signingStep (KeepsConfig file) (startClient file, []) moves →
      Along signingStep SignsLater (startClient file, []) moves :=
  fun always => absurd (always pairedConfig repairing (by decide +kernel)) (by decide +kernel)

end Drivebound.Nodes
