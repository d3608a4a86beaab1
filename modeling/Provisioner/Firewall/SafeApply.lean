import Provisioner.Library.Steps
import Provisioner.Library.Text

/-!
# Applying a table safely

One host's firewall as `roles/firewall` finds and leaves it: the table file,
the unit, what the kernel runs, the records of `firewall_state_dir`, and the
rollbacks scheduled in transient timers. A rollback's script is not atomic:
its commands and the tasks of a run may take place in any order.
-/

namespace Provisioner.Firewall.SafeApply

open Play

/-- `adopted.nft` of a table that `nft list table` prints. -/
def adoptedContent (firewallTable listing : Text) : Text :=
  ("table inet " : Text) ++ firewallTable ++ ("\ndelete table inet " : Text) ++ firewallTable ++
    ("\n" : Text) ++ listing ++ ("\n" : Text)

/-- What the role works with: `nft -f` and `nft list table`, the checksum of a
file, and the files its template can render. -/
structure Tools (R : Type) where
  firewallTable : Text
  /-- The table a file makes, if `nft` takes the file. -/
  load : Text → Option R
  list : R → Text
  sha256 : Text → Text
  rendered : Text → Prop
  load_adopted : ∀ k, load (adoptedContent firewallTable (list k)) = some k
  rendered_ne : ∀ f, rendered f → f ≠ []
  sha256_ne : ∀ f, sha256 f ≠ []
  sha256_inj : ∀ f g, rendered f → rendered g → sha256 f = sha256 g → f = g

inductive Source where
  | applied
  | adopted
deriving DecidableEq, Repr

/-- How far a rollback is: its timer is waiting, its script is about to run the
command named, or has run them all. -/
inductive Stage where
  | waiting
  | mark
  | test
  | copy
  | restart
  | delete
  | move
  | disable
  | done
deriving DecidableEq, Repr

structure Rollback where
  unit : Text
  restore : Option Source
  stage : Stage := .waiting
deriving DecidableEq, Repr

def Rollback.waits (r : Rollback) : Bool := r.stage == .waiting

/-- The timer has elapsed and the script has not come to its end. -/
def Rollback.atWork (r : Rollback) : Bool := r.stage != .waiting && r.stage != .done

structure Machine (R : Type) where
  /-- The file at `firewall_config_file`. -/
  config : Option Text := none
  unitFile : Option Text := none
  /-- The unit as systemd has read it. -/
  loadedUnit : Option Text := none
  startedUnit : Option Text := none
  enabled : Bool := false
  active : Bool := false
  /-- The table in the kernel. -/
  running : Option R := none
  applied : Option Text := none
  appliedSha256 : Option Text := none
  adopted : Option Text := none
  rollbacks : List Rollback := []
  /-- The rollbacks with a `.fired` file. -/
  fired : List Text := []
  /-- The client port of the run's ssh connection. -/
  connection : Option Text := none
  /-- A fresh connection was made through the table since it was loaded. Kept
  for the proofs, as the fields below. -/
  fresh : Bool := false
  /-- The tables a fresh connection was made through. -/
  verified : List R := []
  /-- A task took place in the middle of a rollback's script that must not. -/
  overtaken : Bool := false

variable {R : Type}

namespace Machine

def file (m : Machine R) : Source → Option Text
  | .applied => m.applied
  | .adopted => m.adopted

/-- `systemctl restart` of the unit; `nft -f` takes the file as a whole or not
at all. -/
def restart (T : Tools R) (m : Machine R) : Machine R :=
  match m.loadedUnit, m.config.bind T.load with
  | some u, some k =>
    { m with running := some k, active := true, startedUnit := some u, fresh := false }
  | _, _ => { m with active := false }

end Machine

/-! ## `cs-firewall-rollback.sh` -/

/-- The next command of a rollback's script. -/
def script (T : Tools R) (r : Rollback) (m : Machine R) : Machine R × Stage :=
  match r.stage with
  | .waiting => (m, .waiting)
  | .mark => ({ m with fired := r.unit :: m.fired }, .test)
  | .test => (m, if (r.restore.bind m.file).any (!·.isEmpty) then .copy else .delete)
  | .copy =>
    match r.restore.bind m.file with
    | some f => ({ m with config := some f }, .restart)
    -- `set -e` is not set
    | none => (m, .restart)
  | .restart => (m.restart T, .done)
  | .delete => ({ m with running := none }, .move)
  | .move => ({ m with config := none }, .disable)
  | .disable => ({ m with enabled := false }, .done)
  | .done => (m, .done)

/-- What happens on the host whatever the run does. -/
inductive Event where
  | elapse (unit : Text)
  | script (unit : Text)
deriving DecidableEq, Repr

def Rollback.elapsed (unit : Text) (r : Rollback) : Rollback :=
  if r.unit = unit ∧ r.stage = .waiting then { r with stage := .mark } else r

def Rollback.atStage (unit : Text) (stage : Stage) (r : Rollback) : Rollback :=
  if r.unit = unit then { r with stage := stage } else r

def happens (T : Tools R) (m : Machine R) : Event → Machine R
  | .elapse unit => { m with rollbacks := m.rollbacks.map (Rollback.elapsed unit) }
  | .script unit =>
    match m.rollbacks.find? (·.unit = unit) with
    | none => m
    | some r =>
      { (script T r m).1 with
        rollbacks := m.rollbacks.map (Rollback.atStage unit (script T r m).2) }

/-! ## A run's settings and facts -/

structure Vars (T : Tools R) where
  /-- What `cs-static.nft.j2` renders. -/
  table : Text
  /-- What `cs-firewall.service.j2` renders. -/
  unit : Text
  firewallValidateConfig : Bool := true
  /-- The opt-in of `firewall_ssh_allow_this_run` holds. -/
  allowThisRun : Bool := false
  /-- The run goes through `roles/preflight` first. -/
  preflight : Bool := true
  /-- The client port the run reaches the host from. -/
  port : Text := []
  rendered : T.rendered table

inductive Reason where
  | unitChanged
  | notVerified
  | notActive
  | notLoaded
deriving DecidableEq, Repr

inductive Problem where
  | restartFailed
  | allowanceFailed
  | notBack
  | notRead
  | reused
  | notChecked
  | rolledBack
  | stillPending
deriving DecidableEq, Repr

inductive RollbackState where
  | fired
  | pending
  | cancelled
deriving DecidableEq, Repr

structure Facts (R : Type) where
  firewallPrevious : Bool := false
  firewallRollbackPending : List Rollback := []
  firewallRunningTable : Option R := none
  firewallAdopted : Bool := false
  firewallUnitRender : Bool := false
  firewallAppliedRecord : Option Text := none
  firewallTableNow : Option Text := none
  firewallServiceState : Bool := false
  firewallApplyReasons : List Reason := []
  firewallApplyProblem : Option Problem := none
  firewallRollbackUnit : Text := []
  firewallRollbackSource : Option Source := none
  firewallSshBefore : Text := []
  firewallApplyRestart : Bool := false
  firewallSshRunElement : Bool := true
  firewallVerifyConnect : Bool := false
  firewallSshAfter : Option Text := none
  firewallRollbackState : Option RollbackState := none
  /-- How far the run is, kept for the proofs: it goes through `roles/preflight`,
  wrote another unit, scheduled its rollback, took that back, recorded the
  checksum, went to its end. -/
  preflighted : Bool := false
  rewrote : Bool := false
  scheduled : Bool := false
  cancelled : Bool := false
  recorded : Bool := false
  completed : Bool := false

structure Host (R : Type) where
  machine : Machine R := {}
  facts : Facts R := {}
  /-- An earlier run ended where what it had still to do is not to be seen
  afterwards. Kept for the proofs. -/
  lost : Bool := false

def Facts.unitOpen (f : Facts R) : Bool := f.rewrote && !f.scheduled

def Facts.recordOpen (f : Facts R) : Bool := f.cancelled && !f.recorded

structure Reply where
  outcome : Outcome := .ok
  half : Bool := false
  unit : Text := []
  /-- What a clean-up that fails has got to. -/
  reached : List Text := []
  /-- `reset_connection` drops the connection. -/
  dropped : Bool := true
  /-- The client port of a connection that is opened. -/
  port : Text := []
deriving DecidableEq, Repr

instance : Answer Reply := ⟨Reply.outcome, Reply.half⟩

abbrev Item (R : Type) := Play.Item (Host R) Reply

def changes (f : Machine R → Machine R) : Item R := acts fun _ s => { s with machine := f s.machine }

def registers (f : Host R → Facts R) : Item R := observes fun _ s => { s with facts := f s }

def sets (f : Host R → Facts R) : Item R := notes fun _ s => { s with facts := f s }

def Reply.succeeds (r : Reply) : Bool := r.outcome == .ok

/-- A task with `ignore_errors` and `ignore_unreachable`: what failed may still
have had its effect, and the run goes on with what is registered. -/
def ignoring (effect : Reply → Host R → Host R) (register : Bool → Host R → Facts R) : Item R :=
  notes fun r s =>
    let s' := if r.succeeds || r.half then effect r s else s
    { s' with facts := register r.succeeds s' }

/-! ## `nftables.yml` -/

/-- A timer with a next elapse is waiting; a script at work has none. -/
def readRollbackTimers : Item R := observes fun _ s =>
  { s with
    machine := { s.machine with
      overtaken := s.machine.overtaken || s.machine.rollbacks.any Rollback.atWork }
    facts := { s.facts with
      firewallRollbackPending := s.machine.rollbacks.filter Rollback.waits } }

def adoptedFile (T : Tools R) (running : Option R) : Option Text :=
  running.map fun k => adoptedContent T.firewallTable (T.list k)

/-- The running table is kept to roll back to until a verified apply recorded one. -/
def keepRunningTable (T : Tools R) : List (Item R) :=
  [.incl (fun s => !s.facts.firewallPrevious && s.facts.firewallRollbackPending.isEmpty &&
      s.facts.firewallRunningTable.isSome)
    [acts fun _ s => { s with machine := { s.machine with
      adopted := adoptedFile T s.facts.firewallRunningTable } }],
  .incl (fun s => !s.facts.firewallPrevious && s.facts.firewallRollbackPending.isEmpty &&
      s.facts.firewallRunningTable.isNone)
    [changes fun m => { m with adopted := none }]]

def renderTable {T : Tools R} (v : Vars T) : List (Item R) :=
  [gate fun _ => !v.firewallValidateConfig || (T.load v.table).isSome,
    changes fun m => { m with
      config := some v.table
      overtaken := m.overtaken || m.rollbacks.any Rollback.atWork }]

def installUnit {T : Tools R} (v : Vars T) : List (Item R) :=
  [acts fun _ s => {
      machine := { s.machine with unitFile := some v.unit }
      facts := { s.facts with
        firewallUnitRender := s.machine.unitFile != some v.unit
        rewrote := s.machine.unitFile != some v.unit }
      lost := s.lost },
    changes fun m => { m with enabled := true, loadedUnit := m.unitFile }]

/-- `set_fact` of `firewall_apply_reasons`. -/
def applyReasons (f : Facts R) : List Reason :=
  (if f.firewallUnitRender then [.unitChanged] else []) ++
    (if f.firewallTableNow.isNone || f.firewallAppliedRecord.getD [] != f.firewallTableNow.getD []
      then [.notVerified] else []) ++
    (if !f.firewallServiceState then [.notActive] else []) ++
    (if f.firewallRunningTable.isNone then [.notLoaded] else [])

def decideApply (T : Tools R) : List (Item R) :=
  [registers fun s => { s.facts with firewallAppliedRecord := s.machine.appliedSha256 },
    registers fun s => { s.facts with firewallTableNow := s.machine.config.map T.sha256 },
    registers fun s => { s.facts with firewallServiceState := s.machine.active },
    sets fun s => { s.facts with firewallApplyReasons := applyReasons s.facts }]

/-! ## `apply.yml` -/

def noProblem (s : Host R) : Bool := s.facts.firewallApplyProblem.isNone

def noteProblem (c : Facts R → Option Problem) : Item R :=
  sets fun s => { s.facts with
    firewallApplyProblem := s.facts.firewallApplyProblem <|> c s.facts }

def prepareRollback : List (Item R) :=
  [notes fun r s => { s with facts := { s.facts with
      firewallApplyProblem := none
      firewallRollbackUnit := r.unit
      firewallRollbackSource :=
        if s.facts.firewallPrevious then some .applied
        else if s.facts.firewallAdopted then some .adopted else none } },
    registers fun s => { s.facts with firewallSshBefore := s.machine.connection.getD [] }]

def refusePending : Item R := gate fun s => s.facts.firewallRollbackPending.isEmpty

def cleanUp : Item R :=
  tries (fun _ s => { s with machine := { s.machine with
      rollbacks := s.machine.rollbacks.filter Rollback.waits } })
    fun r s => { s with machine := { s.machine with
      rollbacks := s.machine.rollbacks.filter fun b => b.waits || b.unit ∉ r.reached } }

/-- `systemd-run` refuses a name that is loaded. -/
def scheduleRollback : List (Item R) :=
  [gate fun s => s.machine.rollbacks.all (·.unit != s.facts.firewallRollbackUnit),
    acts fun _ s => {
      machine := { s.machine with
        rollbacks := s.machine.rollbacks ++
          [⟨s.facts.firewallRollbackUnit, s.facts.firewallRollbackSource, .waiting⟩] }
      facts := { s.facts with scheduled := true }
      lost := s.lost }]

def applyTable (T : Tools R) : List (Item R) :=
  [ignoring
      (fun _ s => { s with machine := { s.machine.restart T with
        overtaken := s.machine.overtaken || s.machine.rollbacks.any (·.stage == .move) } })
      (fun ok s => { s.facts with firewallApplyRestart := ok && s.machine.active }),
    noteProblem fun f => if f.firewallApplyRestart then none else some .restartFailed]

def allowThisRun {T : Tools R} (v : Vars T) : List (Item R) :=
  [.incl (fun s => noProblem s && v.allowThisRun)
    [ignoring (fun _ s => s) (fun ok s => { s.facts with firewallSshRunElement := ok }),
      noteProblem fun f => if f.firewallSshRunElement then none else some .allowanceFailed]]

/-- A task that needs a connection opens one if there is none. -/
def connect (r : Reply) (m : Machine R) : Machine R :=
  match m.connection with
  | some _ => m
  | none =>
    { m with
      connection := some r.port
      fresh := true
      verified := m.running.toList ++ m.verified }

def verifyConnection : List (Item R) :=
  [notes fun r s => { s with machine := { s.machine with
      connection := if r.dropped then none else s.machine.connection } },
    .incl noProblem
      [ignoring (fun r s => { s with machine := connect r s.machine })
          (fun ok s => { s.facts with firewallVerifyConnect := ok }),
        noteProblem fun f => if f.firewallVerifyConnect then none else some .notBack],
    .incl noProblem
      [ignoring (fun _ s => s)
          (fun ok s => { s.facts with firewallSshAfter := if ok then s.machine.connection else none }),
        noteProblem fun f =>
          match f.firewallSshAfter with
          | none => some .notRead
          | some after => if after = [] ∨ after = f.firewallSshBefore then some .reused else none]]

def ownWaiting (f : Facts R) (b : Rollback) : Bool := b.waits && b.unit == f.firewallRollbackUnit

/-- Stopping a timer that has elapsed does nothing. -/
def cancelRollback : List (Item R) :=
  [.incl noProblem
    [ignoring
      (fun _ s => {
        machine := { s.machine with
          rollbacks := s.machine.rollbacks.filter fun b => !ownWaiting s.facts b }
        facts := { s.facts with
          cancelled := s.facts.cancelled || s.machine.rollbacks.any (ownWaiting s.facts) }
        lost := s.lost })
      fun _ s => s.facts]]

def rollbackState (s : Host R) : RollbackState :=
  if s.facts.firewallRollbackUnit ∈ s.machine.fired ∨
      ∃ b ∈ s.machine.rollbacks, b.unit = s.facts.firewallRollbackUnit ∧ b.waits = false then
    .fired
  else if ∃ b ∈ s.machine.rollbacks, b.unit = s.facts.firewallRollbackUnit then .pending
  else .cancelled

def checkRollback : List (Item R) :=
  [.incl noProblem
    [ignoring (fun _ s => s)
        (fun ok s => { s.facts with
          firewallRollbackState := if ok then some (rollbackState s) else none }),
      noteProblem fun f =>
        match f.firewallRollbackState with
        | none => some .notChecked
        | some .fired => some .rolledBack
        | some .pending => some .stillPending
        | some .cancelled => none]]

def recordTable : List (Item R) :=
  [.incl noProblem
      [gate fun s => s.machine.config.isSome, changes fun m => { m with applied := m.config }],
    .incl noProblem
      [gate fun s => s.facts.firewallTableNow.isSome,
        acts fun _ s => {
          machine := { s.machine with appliedSha256 := s.facts.firewallTableNow }
          facts := { s.facts with recorded := true }
          lost := s.lost }],
    .incl noProblem [changes fun m => { m with adopted := none }],
    gate noProblem]

def apply {T : Tools R} (v : Vars T) : List (Item R) :=
  prepareRollback ++ [refusePending, cleanUp] ++ scheduleRollback ++ applyTable T ++
    allowThisRun v ++ verifyConnection ++ cancelRollback ++ checkRollback ++ recordTable

def nftables {T : Tools R} (v : Vars T) : List (Item R) :=
  [registers fun s => { s.facts with firewallPrevious := s.machine.applied.isSome },
    readRollbackTimers,
    registers fun s => { s.facts with firewallRunningTable := s.machine.running }] ++
  keepRunningTable T ++
  [registers fun s => { s.facts with firewallAdopted := s.machine.adopted.isSome }] ++
  renderTable v ++ installUnit v ++ decideApply T ++
  [.incl (fun s => !s.facts.firewallApplyReasons.isEmpty) (apply v),
    sets fun s => { s.facts with completed := true }]

/-- `roles/preflight` refuses a run while a rollback of an earlier one is waiting. -/
def play {T : Tools R} (v : Vars T) : List (Item R) :=
  .incl (fun _ => v.preflight) [gate fun s => !s.machine.rollbacks.any Rollback.waits] :: nftables v

def boot {T : Tools R} (v : Vars T) (s : Host R) : Host R where
  machine := { s.machine with connection := some v.port }
  facts := { preflighted := v.preflight }
  lost := s.lost || s.facts.unitOpen || s.facts.recordOpen

def system (T : Tools R) : Play.System (Host R) Reply (Vars T) Event where
  boot := boot
  play := play
  outside e s := { s with machine := happens T s.machine e }

end Provisioner.Firewall.SafeApply
