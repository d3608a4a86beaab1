import Provisioner.Library.Steps
import Provisioner.Library.Text

/-!
# The controller and its `cstacks` script

What the portal's image, container and database are at a moment, and the
subcommands of `cstacks` as the commands they run: with `set -e` the first one
that fails ends the subcommand. The history is bookkeeping for the proofs; no
command reads it.
-/

namespace Provisioner.Controller

open Play

structure Container where
  image : Text
  content : ℕ
  running : Bool := true
deriving DecidableEq, Repr

inductive Event where
  | schemaLoad (content : ℕ)
  | migrate (content : ℕ)
  | started (content : ℕ)
  | seeded
deriving DecidableEq, Repr

/-- Steps that leave what keeps the schema and the portal together. -/
inductive Slip where
  /-- No container over a loaded database, and the configured image is another. -/
  | imageChanged
  /-- A container of another image, and no automatic upgrade. -/
  | upgradeOff
  /-- An upgrade removed the container and ended before its migrations had. -/
  | migrationCut
  /-- `docker inspect` failed on a container of another image. -/
  | inspectFailed
  /-- `docker ps` failed on the container an upgrade was to remove. -/
  | upgradeBlind
  /-- Without a sentinel, the container was removed and no other started. -/
  | containerLost
  /-- A manifest was applied with neither a sentinel nor a container. -/
  | earlySeed
  /-- `docker ps` failed on the container that `bootstrap-db` looked for. -/
  | bootstrapBlind
deriving DecidableEq, Repr

structure History where
  log : List Event := []
  replacing : Bool := false
  /-- An upgrade removed the portal container and has not migrated since. -/
  unmigrated : Bool := false
  slips : List Slip := []

structure Machine where
  /-- `CS_REG` of the environment file. -/
  envFile : Option Text := none
  /-- The content each image name has on this host. -/
  images : Text → Option ℕ := fun _ => none
  container : Option Container := none
  sentinel : Bool := false
  /-- The content whose schema load or migration the database went through last;
  none once another's was left half done. -/
  schema : Option ℕ := none
  /-- A portal was started on the database or a manifest applied to it. -/
  populated : Bool := false
  history : History := {}

namespace Machine

def note (m : Machine) (e : Event) : Machine :=
  { m with history := { m.history with log := e :: m.history.log } }

def slip (m : Machine) (c : Bool) (s : Slip) : Machine :=
  if c then { m with history := { m.history with slips := s :: m.history.slips } } else m

@[simp] theorem sentinel_slip (m : Machine) (c : Bool) (s : Slip) :
    (m.slip c s).sentinel = m.sentinel := by
  cases c <;> rfl

@[simp] theorem container_slip (m : Machine) (c : Bool) (s : Slip) :
    (m.slip c s).container = m.container := by
  cases c <;> rfl

@[simp] theorem populated_slip (m : Machine) (c : Bool) (s : Slip) :
    (m.slip c s).populated = m.populated := by
  cases c <;> rfl

@[simp] theorem replacing_slip (m : Machine) (c : Bool) (s : Slip) :
    (m.slip c s).history.replacing = m.history.replacing := by
  cases c <;> rfl

@[simp] theorem log_slip (m : Machine) (c : Bool) (s : Slip) :
    (m.slip c s).history.log = m.history.log := by
  cases c <;> rfl

def pulled (m : Machine) (tag : Text) (content : ℕ) : Machine :=
  { m with images := fun t => if t = tag then some content else m.images t }

end Machine

structure Reply where
  outcome : Outcome := .ok
  half : Bool := false
  content : ℕ := 0
  changed : Bool := false

instance : Answer Reply := ⟨Reply.outcome, Reply.half⟩

structure Vars where
  existingEnv : Bool := false
  /-- `controller_image_repo ~ ':' ~ controller_image_tag`. -/
  controllerImage : Text
  controllerAutoUpgrade : Bool := true
deriving Repr

structure Facts where
  vars : Vars := { controllerImage := [] }
  csReg : Text := []
  found : Bool := false
  notified : Bool := false
  runningImage : Option Text := none
  portalRunning : Bool := false

structure Host where
  machine : Machine := {}
  facts : Facts := {}

namespace Host

/-- The content `docker run` uses: what the name has here, or else what it pulls. -/
def content (s : Host) (r : Reply) : ℕ := (s.machine.images s.facts.csReg).getD r.content

def used (s : Host) (r : Reply) : Machine := s.machine.pulled s.facts.csReg (s.content r)

end Host

abbrev Item := Play.Item Host Reply

namespace Cstacks

/-- The script reads its settings before anything else. -/
def source : List Item :=
  [gate fun s => s.machine.envFile.isSome,
    notes fun _ s => { s with facts := { s.facts with csReg := s.machine.envFile.getD [] } }]

/-- Who asks `docker ps` for the portal container. -/
inductive Caller where
  | run
  | upgrade
  | bootstrapDb
deriving DecidableEq, Repr

def Caller.blind : Caller → Option Slip
  | .run => none
  | .upgrade => some .upgradeBlind
  | .bootstrapDb => some .bootstrapBlind

/-- `container_exists` in a condition: a `docker ps` that fails lists nothing. -/
def containerExists (caller : Caller) : Item :=
  notes fun r s =>
    let answered := decide (r.outcome = .ok)
    { machine :=
        match caller.blind with
        | none => s.machine
        | some slip => s.machine.slip (!answered && s.machine.container.isSome) slip
      facts := { s.facts with found := answered && s.machine.container.isSome } }

def dockerStop : Item :=
  acts fun _ s => { s with machine := { s.machine with
    container := s.machine.container.map fun c => { c with running := false } } }

def dockerRm (caller : Caller) : Item :=
  acts fun _ s => { s with machine := { s.machine with
    container := none
    history := { s.machine.history with
      replacing := true
      unmigrated := s.machine.history.unmigrated || caller = .upgrade } } }

def removeContainer (caller : Caller) : List Item :=
  [containerExists caller, .incl (fun s => s.facts.found) [dockerStop, dockerRm caller]]

def dockerPull : Item :=
  acts fun r s => { s with machine := s.machine.pulled s.facts.csReg r.content }

def start (r : Reply) (s : Host) : Machine :=
  { s.used r with
    container := some { image := s.facts.csReg, content := s.content r }
    populated := true
    history := { s.machine.history with
      log := .started (s.content r) :: s.machine.history.log
      replacing := false } }

/-- `docker run -d --name`, which refuses a name that is taken. -/
def dockerRun : List Item :=
  [gate fun s => s.machine.container.isNone, acts fun r s => { s with machine := start r s }]

def runPortal : List Item := removeContainer .run ++ dockerRun

def run : List Item := source ++ runPortal

def stop : List Item :=
  source ++
  [notes fun r s => { s with facts := { s.facts with
      found := decide (r.outcome = .ok) && s.machine.container.any Container.running } },
    .incl (fun s => s.facts.found) [dockerStop]]

def migrated (r : Reply) (s : Host) : Machine :=
  { s.used r with
    schema := some (s.content r)
    history := { s.machine.history with
      log := .migrate (s.content r) :: s.machine.history.log
      unmigrated := false } }

def halfMigrated (r : Reply) (s : Host) : Machine :=
  { s.used r with
    schema := if s.machine.schema = some (s.content r) then s.machine.schema else none
    history := { s.machine.history with
      log := .migrate (s.content r) :: s.machine.history.log } }

def dbMigrate : Item :=
  tries (fun r s => { s with machine := migrated r s })
    fun r s => { s with machine := halfMigrated r s }

def migrate : List Item := source ++ [dbMigrate]

def upgrade : List Item :=
  source ++ [command, command, dockerPull] ++ removeContainer .upgrade ++ [dbMigrate] ++
    runPortal

def loaded (schema : Option ℕ) (r : Reply) (s : Host) : Machine :=
  { s.used r with
    schema := schema
    history := { s.machine.history with
      log := .schemaLoad (s.content r) :: s.machine.history.log } }

def schemaLoad : Item :=
  tries (fun r s => { s with machine := loaded (some (s.content r)) r s })
    fun r s => { s with machine := loaded none r s }

def bootstrapDb : List Item :=
  source ++
  [gate fun s => !s.machine.sentinel,
    containerExists .bootstrapDb,
    gate fun s => !s.facts.found,
    dockerPull,
    schemaLoad,
    command,
    acts fun _ s => { s with machine := { s.machine with sentinel := true } }]

def seeded (r : Reply) (s : Host) : Machine :=
  { (s.used r).slip (!s.machine.sentinel && s.machine.container.isNone) .earlySeed with
    populated := true }.note .seeded

/-- `seed` of a manifest; with `DRY_RUN=1` it only prints. -/
def seed (dryRun : Bool) : List Item :=
  source ++
  [command,
    if dryRun then acts fun r s => { s with machine := s.used r }
    else acts fun r s => { s with machine := seeded r s }]

end Cstacks

end Provisioner.Controller
