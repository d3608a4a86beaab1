import Provisioner.Library.Steps
import Provisioner.Library.Text

/-!
# The portal container and what it was created from

`tasks/main.yml` and `tasks/attach_prep.yml` as far as they change the
environment file, the installed `cstacks` or the record of the docker client
certificate, or create the portal anew. The machine counts the changes and the
creations as they come; no task reads the count.
-/

namespace Provisioner.Controller.Portal

open Play
open Text (startswith)

inductive Entry where
  | main
  | attachPrep
deriving DecidableEq, Repr

/-- What `cstacks` sources: the image it names, and its other lines. -/
structure EnvFile where
  csReg : Text := []
  lines : List Text := []
deriving DecidableEq, Repr

/-- A container keeps what `docker run` gave it. -/
structure Container where
  envFile : EnvFile
  script : Text
  certificate : ℕ
  running : Bool := true
  created : ℕ
deriving DecidableEq, Repr

structure Machine where
  envFile : Option EnvFile := none
  script : Option Text := none
  /-- The docker client certificate, numbered as `roles/vault` issues them; 0 is none. -/
  certificate : ℕ := 0
  /-- The certificate whose fingerprint was recorded. -/
  recorded : ℕ := 0
  sentinel : Bool := false
  container : Option Container := none
  now : ℕ := 1
  lastChange : Option ℕ := none
deriving DecidableEq, Repr

def Machine.changed (m : Machine) (c : Bool) : Machine :=
  if c then { m with lastChange := some m.now, now := m.now + 1 } else m

structure Reply where
  outcome : Outcome := .ok
  half : Bool := false
  changed : Bool := false
  /-- `docker run` failed after the container had started. -/
  started : Bool := false

instance : Answer Reply := ⟨Reply.outcome, Reply.half⟩

structure Vars where
  entry : Entry := .main
  existingEnv : Bool := false
  /-- `default-computestacks.j2` as it renders. -/
  envFile : EnvFile := {}
  /-- `files/cstacks.sh` of this checkout. -/
  script : Text := []
  nodeEnrollmentToken : Text := []
  controllerProxyIpsDir : Text := []
  controllerAutoUpgrade : Bool := true
  /-- `roles/vault` has issued a certificate ahead of this run. -/
  rotated : Bool := false
deriving Repr

structure Facts where
  vars : Vars := {}
  sourced : EnvFile := {}
  found : Bool := false
  notified : Bool := false
  dockerCert : ℕ := 0
  runningImage : Option Text := none
  portalRunning : Bool := false
  envLines : List Text := []
  completed : Option Entry := none

structure Host where
  machine : Machine := {}
  facts : Facts := {}

abbrev Item := Play.Item Host Reply

namespace Cstacks

/-- The script has to be there, and reads its settings before anything else. -/
def source : List Item :=
  [gate fun s => s.machine.script.isSome && s.machine.envFile.isSome,
    observes fun _ s => { s with facts := { s.facts with
      sourced := s.machine.envFile.getD {} } }]

/-- A `docker ps` that fails lists nothing. -/
def containerExists : Item :=
  notes fun r s => { s with facts := { s.facts with
    found := decide (r.outcome = .ok) && s.machine.container.isSome } }

def dockerStop : Item :=
  acts fun _ s => { s with machine := { s.machine with
    container := s.machine.container.map fun c => { c with running := false } } }

def dockerRm : Item := acts fun _ s => { s with machine := { s.machine with container := none } }

def removeContainer : List Item :=
  [containerExists, .incl (fun s => s.facts.found) [dockerStop, dockerRm]]

def created (running : Bool) (s : Host) : Machine :=
  { s.machine with
    container := some {
      envFile := s.facts.sourced
      script := s.machine.script.getD []
      certificate := s.machine.certificate
      running := running
      created := s.machine.now }
    now := s.machine.now + 1 }

/-- `docker run -d --name`, which refuses a name that is taken. -/
def dockerRun : List Item :=
  [gate fun s => s.machine.container.isNone,
    tries (fun _ s => { s with machine := created true s })
      fun r s => { s with machine := created r.started s }]

def runPortal : List Item := removeContainer ++ dockerRun

def run : List Item := source ++ runPortal

/-- The backup, the pull and the migrations leave the portal alone. -/
def upgrade : List Item :=
  source ++ [command, command, command] ++ removeContainer ++ [command] ++ runPortal

def bootstrapDb : List Item :=
  source ++
  [gate fun s => !s.machine.sentinel,
    containerExists,
    gate fun s => !s.facts.found,
    command,
    command,
    command,
    acts fun _ s => { s with machine := { s.machine with sentinel := true } }]

end Cstacks

namespace Tasks

/-- A task with `notify: Recreate the portal container`. -/
def notifies (changes : Reply → Host → Bool) (update : Host → Machine) : Item :=
  acts fun r s =>
    { machine := (update s).changed (changes r s)
      facts := { s.facts with notified := s.facts.notified || changes r s } }

def installCli : Item :=
  notifies (fun r s => r.changed || s.machine.script ≠ some s.facts.vars.script)
    fun s => { s.machine with script := some s.facts.vars.script }

def renderEnvFile : Item :=
  notifies (fun r s => r.changed || s.machine.envFile ≠ some s.facts.vars.envFile)
    fun s => { s.machine with envFile := some s.facts.vars.envFile }

def statDockerCert : Item :=
  observes fun _ s => { s with facts := { s.facts with dockerCert := s.machine.certificate } }

def recordFingerprint : Item :=
  .incl (fun s => s.facts.dockerCert ≠ 0)
    [notifies (fun r s => r.changed || s.machine.recorded ≠ s.facts.dockerCert)
      fun s => { s.machine with recorded := s.facts.dockerCert }]

/-- `failed_when: false`: an inspection that fails reads as no image. -/
def readRunningImage : Item :=
  notes fun r s => { s with facts := { s.facts with
    runningImage :=
      if r.outcome = .ok then s.machine.container.map fun c => c.envFile.csReg else none } }

def upgradeDue (s : Host) : Bool :=
  s.facts.vars.controllerAutoUpgrade && s.facts.runningImage.isSome &&
    s.facts.runningImage ≠ some s.facts.vars.envFile.csReg

/-- `flush_handlers`: a handler that has run is no longer notified. -/
def flushHandlers : Item :=
  .incl (fun s => s.facts.notified)
    (Cstacks.run ++ [notes fun _ s => { s with facts := { s.facts with notified := false } }])

def readPortalState : Item :=
  notes fun r s => { s with facts := { s.facts with
    portalRunning := decide (r.outcome = .ok) && s.machine.container.any Container.running } }

def finish (e : Entry) : Item :=
  notes fun _ s => { s with facts := { s.facts with completed := some e } }

/-- The steps before the script is installed and after the portal is started,
the bash completion and the postgres setup, only succeed or fail here. -/
def main : List Item :=
  [gate fun s => !s.facts.vars.existingEnv,
    command,
    installCli,
    command,
    renderEnvFile,
    command,
    statDockerCert,
    recordFingerprint,
    .incl (fun s => !s.machine.sentinel) Cstacks.bootstrapDb,
    readRunningImage,
    .incl upgradeDue Cstacks.upgrade,
    flushHandlers,
    readPortalState,
    .incl (fun s => !s.facts.portalRunning) Cstacks.run,
    command,
    finish .main]

def lacks (key : Text) (s : Host) : Bool := !s.facts.envLines.any fun line => startswith line key

/-- `lineinfile` without a pattern: at the end, unless the file has the line. -/
def appended (line : Text) (file : EnvFile) : EnvFile :=
  if line ∈ file.lines then file else { file with lines := file.lines ++ [line] }

def appendKey (key : Text) (value : Vars → Text) : Item :=
  .incl (lacks key)
    [notifies
      (fun r s => r.changed || s.machine.envFile ≠
        s.machine.envFile.map (appended (key ++ value s.facts.vars)))
      fun s => { s.machine with
        envFile := s.machine.envFile.map (appended (key ++ value s.facts.vars)) }]

def attachPrep : List Item :=
  [gate fun s => s.machine.envFile.isSome,
    observes fun _ s => { s with facts := { s.facts with
      envLines := (s.machine.envFile.map EnvFile.lines).getD [] } },
    command,
    gate fun s => s.machine.script.isSome,
    observes fun _ s => { s with facts := { s.facts with
      portalRunning := s.machine.container.any Container.running } },
    gate fun s => s.facts.portalRunning,
    -- the probes of the image, the mounts, the certificates, the backup
    command,
    command,
    appendKey "NODE_ENROLLMENT_TOKEN=" Vars.nodeEnrollmentToken,
    appendKey "CS_PROXY_IPS_PATH=" Vars.controllerProxyIpsDir,
    installCli,
    command,
    flushHandlers,
    finish .attachPrep]

def boot (vars : Vars) (s : Host) : Host where
  machine := { s.machine with
    certificate := if vars.rotated then s.machine.certificate + 1 else s.machine.certificate }
  facts := { vars := vars }

def system : Play.System Host Reply Vars Empty where
  boot := boot
  play vars :=
    match vars.entry with
    | .main => main
    | .attachPrep => attachPrep
  outside e _ := e.elim

end Tasks

end Provisioner.Controller.Portal
