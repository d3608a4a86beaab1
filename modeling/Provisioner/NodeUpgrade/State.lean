import Provisioner.Library.Play
import Provisioner.NodeUpgrade.Containers
import Provisioner.NodeUpgrade.Decide

/-!
# The node, its state file and the facts of a run

What survives a run is on the node: the state file, the local maintenance hold
and what the host itself keeps. What a run knows is in its facts, which are
gone when it stops. The history of a node is bookkeeping for the proofs; no
task reads it.
-/

namespace Provisioner.NodeUpgrade

open Play (Outcome)

inductive Playbook where
  | upgradeDocker
  | maintainNodes
deriving DecidableEq, Repr

inductive Phase where
  | held
  | converged
  | recorded
  | stopped
  | packages
  | dockerRestarted
  | rebooted
  | started
  | released
deriving DecidableEq, Repr

/-- `state.json`. -/
structure UpgradeState where
  playbook : Option Playbook := none
  phasesDone : List Phase := []
  recorded : List Entry := []
  acceptDown : List Text := []
  convergeStarted : Bool := false
  decision : Option Decision := none
  releasing : Bool := false
deriving DecidableEq, Repr

def stateOwner (state : UpgradeState) : Playbook := state.playbook.getD .upgradeDocker

/-! ## The converged roles and their handlers -/

inductive Handler where
  | commonRestartSsh
  | dockerConfigReloadDocker
  | dockerTlsRestartDocker
  | nodeKernelLoadModules
  | nodeKernelReloadSysctl
  | nodeKernelReloadNetworkd
  | nodeObservabilityRestartCadvisor
  | nodeObservabilityRestartFluentd
  | firewallReloadSystemd
  | firewallApply
  | csAgentRestart
deriving DecidableEq, Repr

inductive Role where
  | common
  | nodeExporter
  | tailscale
  | ubuntuPro
  | dockerConfig
  | dockerTls
  | nodeKernel
  | haproxy
  | nodeObservability
  | firewall
  | csAgent
deriving DecidableEq, Repr

/-- The handlers the tasks of a role notify. -/
def Role.handlers : Role → List Handler
  | .common => [.commonRestartSsh]
  | .dockerConfig => [.dockerConfigReloadDocker]
  | .dockerTls => [.dockerTlsRestartDocker]
  | .nodeKernel =>
    [.nodeKernelLoadModules, .nodeKernelReloadSysctl, .nodeKernelReloadNetworkd]
  | .nodeObservability =>
    [.nodeObservabilityRestartCadvisor, .nodeObservabilityRestartFluentd]
  | .firewall => [.firewallReloadSystemd, .firewallApply]
  | .csAgent => [.csAgentRestart]
  | .nodeExporter | .tailscale | .ubuntuPro | .haproxy => []

/-- `docker_tls_restart_files`. -/
inductive RestartFile where
  | cert
  | ca
  | key
  | dropin
deriving DecidableEq, Repr

def RestartFile.path : RestartFile → Text
  | .cert => "/etc/docker/certs/server.crt"
  | .ca => "/etc/docker/certs/ca.crt"
  | .key => "/etc/docker/certs/server.key"
  | .dropin => "/etc/systemd/system/docker.service.d/startup.conf"

def dockerTlsRestartFiles : List RestartFile := [.cert, .ca, .key, .dropin]

theorem mem_dockerTlsRestartFiles (file : RestartFile) : file ∈ dockerTlsRestartFiles := by
  cases file <;> decide

/-! ## The node -/

inductive Holder where
  | byHand
  | run (number : ℕ)
deriving DecidableEq, Repr

/-- A local maintenance hold; `serial` counts the holds placed on the node. -/
structure Hold where
  holder : Holder
  serial : ℕ
deriving DecidableEq, Repr

/-- What the role did or learnt, as far as the properties speak of it. -/
inductive Event where
  | began
  | sawNone
  | on
  | opened
  | sawHeld
  | foundHeld
  | converge
  | stop (ids : List Text)
  | packages
  | dockerRestart
  | reboot
  | start (ids : List Text)
  | releasing
  | off
  | autoOff
  | closed
deriving DecidableEq, Repr

/-- The fresh run a state file comes from, and how many holds had been placed
when it saw that there was none. -/
structure Origin where
  run : ℕ := 0
  seen : ℕ := 0
deriving DecidableEq, Repr

structure History where
  log : List Event := []
  placed : ℕ := 0
  runs : ℕ := 0
  lives : ℕ := 0
  origin : Origin := {}
  pending : Handler → Bool := fun _ => false
  /-- Since that change it had its turn, and its own `when` was false. -/
  declined : Handler → Bool := fun _ => false
  /-- When a converge last wrote the file. -/
  written : RestartFile → Option ℕ := fun _ => none

structure Node where
  stateFile : Option UpgradeState := none
  hold : Option Hold := none
  rebootRequired : Bool := false
  clock : ℕ := 0
  dockerStarted : Option ℕ := none
  restartFiles : RestartFile → Option ℕ := fun _ => none
  history : History := {}

namespace Node

def note (n : Node) (e : Event) : Node :=
  { n with history := { n.history with log := e :: n.history.log } }

def place (n : Node) (holder : Holder) : Node :=
  { n with
    hold := some ⟨holder, n.history.placed⟩
    history := { n.history with placed := n.history.placed + 1 } }

def release (n : Node) : Node := { n with hold := none }

def startDocker (n : Node) : Node := { n with dockerStarted := some n.clock }

def reboot (n : Node) : Node := { n.startDocker with rebootRequired := false }

def askReboot (n : Node) : Node := { n with rebootRequired := true }

def save (n : Node) (state : UpgradeState) : Node := { n with stateFile := some state }

def openLife (n : Node) (state : UpgradeState) (origin : Origin) : Node :=
  { n.save state with
    history := { n.history with
      origin := origin
      lives := n.history.lives + 1 } }

def remove (n : Node) : Node := { n with stateFile := none }

def changed (n : Node) (handlers : List Handler) (files : List RestartFile) : Node :=
  { n with
    restartFiles := fun f => if f ∈ files then some n.clock else n.restartFiles f
    history := { n.history with
      pending := fun h => decide (h ∈ handlers) || n.history.pending h
      declined := fun h => h ∉ handlers && n.history.declined h
      written := fun f => if f ∈ files then some n.clock else n.history.written f } }

def handled (n : Node) (handler : Handler) : Node :=
  { n with history := { n.history with
      pending := fun h => h ≠ handler && n.history.pending h } }

def declined (n : Node) (handler : Handler) : Node :=
  { n with history := { n.history with
      declined := fun h => h = handler || n.history.declined h } }

def life (n : Node) : List Event := n.history.log.takeWhile (· ≠ .opened)

def run (n : Node) : List Event := n.history.log.takeWhile (· ≠ .began)

/-- The file was written after dockerd last started, in whole seconds. -/
def Stale (n : Node) (file : RestartFile) : Prop :=
  ∃ t, n.restartFiles file = some t ∧ n.dockerStarted.elim 0 seconds < seconds t

def Loaded (n : Node) : Prop := ∀ file, ¬ n.Stale file

end Node

/-! ## What others may do to the node -/

inductive Outside where
  | maintenanceOn
  | maintenanceOff
  | time (elapsed : ℕ)
  | dockerStarts
  | nodeReboots
  | rebootAsked
deriving DecidableEq, Repr

def Outside.act : Outside → Node → Node
  | .maintenanceOn, n => n.place .byHand
  | .maintenanceOff, n => n.release
  | .time elapsed, n => { n with clock := n.clock + elapsed }
  | .dockerStarts, n => n.startDocker
  | .nodeReboots, n => n.reboot
  | .rebootAsked, n => n.askReboot

/-! ## What a task is told, and what a run knows -/

/-- The shape of a `cs-agent` JSON document. -/
inductive Shape where
  | status
  | error
  | none
deriving DecidableEq, Repr

structure StatusDoc where
  rc : ℕ := 0
  shape : Shape := .none
  held : Bool := false
  controller : Bool := false
  agentActive : Bool := false
  controllerAcked : Bool := false
  paused : Bool := true
deriving DecidableEq, Repr

structure Reply where
  outcome : Outcome := .ok
  half : Bool := false
  doc : StatusDoc := { shape := .status, agentActive := true, controllerAcked := true,
                       paused := false }
  places : Bool := true
  keeps : Bool := false
  dockerAnswers : Bool := true
  containers : List Container := []
  drift : List Drift := []
  asksReboot : Bool := false
  restartsDocker : Bool := false
  handlers : List Handler := []
  files : List RestartFile := []
  pick : ℕ := 0

/-- `cs-agent maintenance status --json`: the local hold is the node's own. -/
def Node.maintenanceStatus (n : Node) (r : Reply) : StatusDoc :=
  { r.doc with held := n.hold.isSome }

structure AgentVerdict where
  finished : Bool := false
  ready : Bool := false
deriving DecidableEq, Repr

def agentStatus (doc : StatusDoc) : AgentVerdict :=
  match doc.shape with
  | .error => { finished := doc.rc ≠ 3 }
  | .none => {}
  | .status =>
    if !doc.held then { finished := true }
    else if doc.agentActive then { finished := true, ready := true }
    else {}

/-- `ok` of `node_upgrade_classify_on`. -/
def classifyOnOk (doc : StatusDoc) : Bool :=
  doc.shape = .status && doc.rc = 0 && doc.held

/-- What a run is started with. -/
structure Vars where
  playbook : Playbook := .upgradeDocker
  force : Bool := false
  maintainForceRestart : Bool := false
  applyOsUpdates : Bool := true
  acceptDown : AcceptSpec := .unset
  tailscaleEnabled : Bool := false
  ubuntuProToken : Bool := false
  nodeKernelUplinkRaReload : Bool := true
deriving Repr

/-- The `when` of a handler itself. -/
def Handler.when (vars : Vars) : Handler → Bool
  -- `docker_tls_restart_deferred` is set wherever the roles are converged under a hold
  | .dockerTlsRestartDocker => false
  | .nodeKernelReloadNetworkd => vars.nodeKernelUplinkRaReload
  | _ => true

structure Facts where
  vars : Vars := {}
  resume : Bool := false
  state : UpgradeState := {}
  phasesDone : List Phase := []
  driftList : List Drift := []
  rebootPending : Bool := false
  run : Bool := false
  holdStatus : StatusDoc := {}
  holdDockerInfo : Bool := false
  onResult : StatusDoc := {}
  holdCheck : StatusDoc := {}
  selected : List Entry := []
  ps : List Container := []
  stopIds : List Text := []
  startAcceptedNames : List Text := []
  startAcceptChanged : Bool := false
  startSplit : Split := ⟨[], []⟩
  rebootRequired : Bool := false
  dockerRestartReboot : Bool := false
  releaseStatus : StatusDoc := {}
  convergeResumed : Bool := false
  notified : List Handler := []
  restartDeferredReasons : List Text := []
  agentVerdict : AgentVerdict := {}
  maintainReboot : Bool := false
  dockerStartedLines : List Text := []
  restartStats : List FileStat := []
  maintainDecision : Option Decision := none
  rescueState : Bool := false
  rescueRelease : Bool := false
  rescueOff : StatusDoc := { rc := 1 }
  rescueReleased : Bool := false
  origin : Origin := {}

structure Host where
  node : Node := {}
  facts : Facts := {}

end Provisioner.NodeUpgrade
