import Provisioner.Library.Casing
import Provisioner.Library.Jinja
import Provisioner.NodeUpgrade.State

/-!
# The task files of the role

Each task file under its own name, its tasks in the order of the file. A task
that only reads the node changes the facts of the run; a command that reports
a failure may still have had its effect. Tasks whose effect no property speaks
of (downloads, package holds, reports) only succeed or fail here.
-/

namespace Provisioner.NodeUpgrade.Tasks

open Play (Outcome)

abbrev Item := Play.Item Host Reply

/-! ## Kinds of tasks -/

/-- A task that has its effect when it succeeds, and none otherwise. -/
def observes (f : Reply → Host → Host) : Item :=
  .task fun r s =>
    match r.outcome with
    | .ok => (f r s, .ok)
    | other => (s, other)

def reads (f : Reply → Host → Facts) : Item := observes fun r s => { s with facts := f r s }

/-- A task whose effect may have taken place although it failed. -/
def acts (f : Reply → Host → Host) : Item :=
  .task fun r s =>
    match r.outcome with
    | .ok => (f r s, .ok)
    | _ => (if r.half then f r s else s, .failed)

/-- A task that is tried again until it is done. -/
def retries (f : Reply → Host → Host) : Item :=
  .task fun r s =>
    match r.outcome with
    | .failed => (if r.half then f r s else s, .failed)
    | other => (f r s, other)

def command : Item := observes fun _ s => s

def gate (c : Host → Bool) : Item :=
  .task fun _ s => (s, if c s then .ok else .failed)

def undone (p : Phase) (s : Host) : Bool := p ∉ s.facts.phasesDone

/-! ## The state file -/

def stateLoad : List Item :=
  [reads fun _ s => { s.facts with
      resume := s.node.stateFile.isSome
      state := s.node.stateFile.getD {}
      origin := if s.node.stateFile.isSome then s.node.history.origin else s.facts.origin },
    gate fun s => !s.facts.resume || stateOwner s.facts.state = s.facts.vars.playbook,
    reads fun _ s => { s.facts with phasesDone := s.facts.state.phasesDone }]

def writeState (s : Host) : Host :=
  match s.node.stateFile with
  | none => { s with node := (s.node.openLife s.facts.state s.facts.origin).note .opened }
  | some _ => { s with node := s.node.save s.facts.state }

def stateSave : List Item := [command, command, acts fun _ s => writeState s]

def mark (p : Phase) (update : Facts → UpgradeState → UpgradeState) (facts : Facts) : Facts :=
  let phasesDone := Jinja.unique id (facts.state.phasesDone ++ [p])
  { facts with
    state := { update facts facts.state with phasesDone := phasesDone }
    phasesDone := phasesDone }

def statePhase (p : Phase)
    (update : Facts → UpgradeState → UpgradeState := fun _ state => state) : List Item :=
  reads (fun _ s => mark p update s.facts) :: stateSave

/-! ## The hold -/

def readHoldCheck (r : Reply) (s : Host) : Host :=
  let doc := s.node.maintenanceStatus r
  { node := if doc.shape = .status ∧ doc.held then s.node.note .sawHeld else s.node
    facts := { s.facts with holdCheck := doc } }

def holdCheck : List Item :=
  [observes readHoldCheck,
    gate fun s => s.facts.holdCheck.shape = .status && s.facts.holdCheck.held]

def readHoldStatus (r : Reply) (s : Host) : Host :=
  let doc := s.node.maintenanceStatus r
  let facts := { s.facts with holdStatus := doc }
  if !facts.resume ∧ doc.rc = 0 ∧ doc.shape = .status ∧ !doc.held then
    { node := s.node.note .sawNone
      facts := { facts with origin := { facts.origin with seen := s.node.history.placed } } }
  else
    { node :=
        if facts.resume ∧ doc.rc = 0 ∧ doc.shape = .status ∧ doc.held then
          s.node.note .foundHeld
        else s.node
      facts := facts }

/-- `cs-agent maintenance on`: where a hold is there already, the agent may keep it. -/
def maintenanceOn (r : Reply) (s : Host) : Host :=
  let node :=
    if r.places && !(s.node.hold.isSome && r.keeps) then s.node.place (.run s.facts.origin.run)
    else s.node
  { node := node.note .on
    facts := { s.facts with onResult := node.maintenanceStatus r } }

def takeHold : List Item :=
  [gate fun s => !s.facts.holdStatus.held,
    gate fun s => !s.facts.holdStatus.controller,
    reads fun r s => { s.facts with holdDockerInfo := r.dockerAnswers },
    gate fun s => s.facts.holdDockerInfo,
    retries maintenanceOn,
    gate fun s => classifyOnOk s.facts.onResult] ++
  statePhase .held fun facts state =>
    { state with playbook := some facts.vars.playbook, recorded := [], acceptDown := [] }

def hold : List Item :=
  [observes readHoldStatus,
    gate fun s => s.facts.holdStatus.rc = 0 && s.facts.holdStatus.shape = .status,
    .incl (fun s => s.facts.resume)
      [gate fun s => s.facts.holdStatus.held || decide (.released ∈ s.facts.phasesDone) ||
        s.facts.state.releasing],
    .incl (fun s => !s.facts.resume) takeHold]

/-! ## The stopped window -/

def record : List Item :=
  reads (fun r s => { s.facts with selected := selectRunningTenants r.containers }) ::
    statePhase .recorded fun facts state => { state with recorded := facts.selected }

def list : Item := reads fun r s => { s.facts with ps := r.containers }

def runningRecorded (facts : Facts) : List Resolved :=
  (resolveRecorded facts.state.recorded facts.ps).filter Resolved.running

def stop : List Item :=
  holdCheck ++
  [command,
    list,
    reads fun _ s => { s.facts with stopIds := (runningRecorded s.facts).filterMap Resolved.currentId },
    .incl (fun s => !s.facts.stopIds.isEmpty) [command],
    .incl (fun s => !s.facts.stopIds.isEmpty)
      [acts fun _ s => { s with node := s.node.note (.stop s.facts.stopIds) }],
    list,
    gate fun s => (runningRecorded s.facts).isEmpty] ++
  statePhase .stopped

def osUpgrade (live : Bool) : List Item :=
  [command,
    .incl (fun s => s.facts.vars.applyOsUpdates)
      [acts fun r s => { s with
        node := (if r.asksReboot then s.node.askReboot else s.node).note
          (if live then .converge else .packages) }],
    .incl (fun s => s.facts.vars.applyOsUpdates && live) [command]]

def packages : List Item :=
  holdCheck ++ osUpgrade false ++
  [command,
    acts fun r s => { s with
      node := (if r.restartsDocker then s.node.startDocker else s.node).note .packages },
    command,
    reads fun r s => { s.facts with driftList := r.drift },
    gate fun s => s.facts.driftList.isEmpty] ++
  statePhase .packages

def dockerRestart : List Item :=
  [reads fun _ s => { s.facts with dockerRestartReboot := s.node.rebootRequired },
    .incl (fun s => !s.facts.dockerRestartReboot) holdCheck,
    .incl (fun s => !s.facts.dockerRestartReboot)
      [acts fun _ s => { s with node := s.node.startDocker.note .dockerRestart }]] ++
  statePhase .dockerRestarted

def reboot : List Item :=
  [reads fun _ s => { s.facts with rebootRequired := s.node.rebootRequired },
    .incl (fun s => s.facts.rebootRequired) holdCheck,
    .incl (fun s => s.facts.rebootRequired)
      [acts fun _ s => { s with node := s.node.reboot.note .reboot }]] ++
  statePhase .rebooted

def services : List Item := [command, command, command] ++ holdCheck

def acceptedNames (facts : Facts) : List Text :=
  Jinja.unique Text.lower (facts.state.acceptDown ++ acceptDownList facts.vars.acceptDown)

def workOutStart (facts : Facts) : Facts :=
  { facts with
    startAcceptedNames := acceptedNames facts
    startSplit := partitionAccepted (resolveRecorded facts.state.recorded facts.ps)
      (acceptedNames facts) }

def rememberAccepted (facts : Facts) : Facts :=
  { facts with
    startAcceptChanged := facts.startAcceptedNames ≠ facts.state.acceptDown
    state := { facts.state with acceptDown := facts.startAcceptedNames } }

def foundIds (entries : List Resolved) : List Text :=
  (entries.filter Resolved.found).filterMap Resolved.currentId

/-- The helper starts the required ids, then the optional ones. -/
def startIds (facts : Facts) : List Text :=
  foundIds facts.startSplit.required ++ foundIds facts.startSplit.accepted

def start : List Item :=
  [command,
    list,
    reads fun _ s => workOutStart s.facts,
    reads fun _ s => rememberAccepted s.facts,
    .incl (fun s => s.facts.startAcceptChanged) stateSave,
    command,
    acts fun _ s => { s with node := s.node.note (.start (startIds s.facts)) },
    list,
    gate fun s => startGate s.facts.state.recorded s.facts.ps s.facts.startAcceptedNames] ++
  statePhase .started

/-! ## The release -/

def release : List Item :=
  [observes fun _ s =>
    { node := s.node.note .releasing
      facts := { s.facts with state := { s.facts.state with releasing := true } } }] ++
  stateSave ++
  [acts fun _ s => { s with node := s.node.release.note .off },
    reads fun r s => { s.facts with releaseStatus := s.node.maintenanceStatus r },
    gate fun s => s.facts.releaseStatus.controllerAcked && !s.facts.releaseStatus.paused] ++
  statePhase .released

def setAside (s : Host) : Host :=
  match s.node.stateFile with
  | none => s
  | some _ => { s with node := s.node.remove.note .closed }

def archive : List Item := [acts fun _ s => setAside s, command, command, command]

/-! ## upgrade-docker -/

def cycle : Item :=
  .block
    [.incl (undone .packages) [command],
      .incl (fun _ => true) hold,
      .incl (undone .recorded) record,
      .incl (fun s => undone .stopped s && undone .packages s && undone .started s) stop,
      .incl (undone .packages) packages,
      .incl (undone .rebooted) reboot,
      .incl (undone .started) services,
      .incl (undone .started) start,
      .incl (undone .released) release,
      .incl (fun _ => true) archive,
      command]
    [reads fun _ s => { s.facts with rescueState := s.node.stateFile.isSome },
      gate fun _ => false]

def preflight : List Item :=
  [reads fun r s => { s.facts with driftList := r.drift }] ++ stateLoad ++ [command]

def main : List Item :=
  preflight ++
  [reads fun _ s => { s.facts with rebootPending := s.node.rebootRequired },
    reads fun _ s => { s.facts with
      run := !s.facts.driftList.isEmpty || s.facts.rebootPending || s.facts.resume ||
        s.facts.vars.force },
    .incl (fun s => s.facts.run) [cycle]]

/-! ## maintain-nodes -/

def notify (handlers : List Handler) (facts : Facts) : Facts :=
  { facts with notified := facts.notified ++ handlers.filter (· ∉ facts.notified) }

/-- What one task of a converged role notifies: a file of the daemon certificate
set always notifies its role's handler. -/
def notifiedBy (role : Role) (r : Reply) : List Handler :=
  if role = .dockerTls ∧ r.files ≠ [] then role.handlers
  else r.handlers.filter (· ∈ role.handlers)

def writtenBy (role : Role) (r : Reply) : List RestartFile :=
  if role = .dockerTls then r.files else []

def convergeTask (role : Role) (r : Reply) (s : Host) : Host :=
  { node := (s.node.changed (notifiedBy role r) (writtenBy role r)).note .converge
    facts := notify (notifiedBy role r) s.facts }

/-- The tasks of a role, as many as there are: each may change something. -/
def includeRole (role : Role) : Item := retries (convergeTask role)

def maintainConverge : List Item :=
  [includeRole .common,
    includeRole .nodeExporter,
    .incl (fun s => s.facts.vars.tailscaleEnabled) [includeRole .tailscale],
    .incl (fun s => s.facts.vars.ubuntuProToken) [includeRole .ubuntuPro],
    includeRole .dockerConfig,
    includeRole .dockerTls,
    includeRole .nodeKernel,
    includeRole .haproxy,
    includeRole .nodeObservability,
    includeRole .firewall,
    includeRole .csAgent]

def reapplied : List Handler :=
  [.commonRestartSsh, .dockerConfigReloadDocker, .nodeKernelLoadModules,
    .nodeKernelReloadSysctl, .nodeKernelReloadNetworkd,
    .nodeObservabilityRestartCadvisor, .nodeObservabilityRestartFluentd,
    .firewallReloadSystemd, .csAgentRestart]

def deferredReason : Text := "docker_tls changed the daemon certificate or its ExecStart drop-in"

def runHandler (h : Handler) (s : Host) : Host :=
  { node := if h.when s.facts.vars then s.node.handled h else s.node.declined h
    facts :=
      if h = .dockerTlsRestartDocker then
        { s.facts with restartDeferredReasons :=
            Jinja.unique Text.lower (s.facts.restartDeferredReasons ++ [deferredReason]) }
      else s.facts }

/-- Runs the notified handlers one after another. -/
def flushHandlers : Item :=
  .task fun r s =>
    match s.facts.notified[r.pick % s.facts.notified.length]? with
    | none => (s, .ok)
    | some h =>
      match r.outcome with
      | .failed => (s, .failed)
      | _ =>
        let s' := runHandler h s
        ({ s' with facts := { s'.facts with notified := s'.facts.notified.erase h } }, .again)

def agentWait : List Item :=
  [reads fun r s => { s.facts with agentVerdict := agentStatus (s.node.maintenanceStatus r) },
    gate fun s => s.facts.agentVerdict.ready]

def restartStats (n : Node) : List FileStat :=
  dockerTlsRestartFiles.map fun f =>
    { path := f.path
      present := (n.restartFiles f).isSome
      mtime := (n.restartFiles f).getD 0 }

def newerReason (path : Text) : Text := path ++ (" is newer than the running dockerd" : Text)

def decisionInputs (facts : Facts) : DecisionInputs :=
  { dockerDrift := facts.driftList
    dockerRestartReasons := facts.restartDeferredReasons ++
      (filesNewerThan facts.restartStats
        (systemdUnixTs facts.dockerStartedLines)).map newerReason
    rebootPending := facts.maintainReboot
    force := facts.vars.maintainForceRestart }

def decideStop : List Item :=
  [reads fun r s => { s.facts with driftList := r.drift },
    reads fun _ s => { s.facts with maintainReboot := s.node.rebootRequired },
    reads fun _ s => { s.facts with dockerStartedLines := systemctlShow s.node.dockerStarted },
    reads fun _ s => { s.facts with restartStats := restartStats s.node },
    reads fun _ s => { s.facts with
      maintainDecision := some (maintainDecide (decisionInputs s.facts)) }]

def maintainConvergePhase : List Item :=
  [reads fun _ s => { s.facts with convergeResumed := s.facts.state.convergeStarted },
    reads fun _ s => { s.facts with state := { s.facts.state with convergeStarted := true } }] ++
  stateSave ++ maintainConverge ++
  [.incl (fun s => s.facts.convergeResumed) [reads fun _ s => notify reapplied s.facts],
    flushHandlers] ++
  agentWait ++ [command, command] ++ osUpgrade true ++ agentWait ++ decideStop ++
  statePhase .converged fun facts state => { state with decision := facts.maintainDecision }

def stopDecided (s : Host) : Bool := s.facts.maintainDecision.any Decision.stop

def restartDecided (s : Host) : Bool :=
  s.facts.maintainDecision.any Decision.dockerRestartRequired

def stoppedWindow : List Item :=
  [.incl (undone .recorded) record,
    .incl (fun s => undone .stopped s && undone .packages s && undone .started s) stop,
    .incl (undone .packages) packages,
    .incl (fun s => restartDecided s && undone .dockerRestarted s && undone .started s)
      dockerRestart,
    .incl (undone .rebooted) reboot,
    .incl (undone .started) services,
    .incl (undone .started) start]

def rescueOff (r : Reply) (s : Host) : Host :=
  { node := (if r.doc.rc = 0 || r.half then s.node.release else s.node).note .autoOff
    facts := { s.facts with rescueOff := r.doc } }

def maintainRescue : List Item :=
  [reads fun _ s => { s.facts with rescueState := s.node.stateFile.isSome },
    reads fun _ s => { s.facts with
      rescueRelease := s.facts.rescueState && !s.facts.state.convergeStarted &&
        !s.facts.state.releasing && (s.facts.phasesDone.filter (· ≠ .held)).isEmpty },
    .incl (fun s => s.facts.rescueRelease) [acts rescueOff],
    reads fun _ s => { s.facts with
      rescueReleased := s.facts.rescueRelease && s.facts.rescueOff.rc = 0 &&
        s.facts.rescueOff.shape = .status },
    .incl (fun s => s.facts.rescueReleased) [acts fun _ s => setAside s],
    gate fun _ => false]

def maintainCycle : Item :=
  .block
    ([.incl (undone .packages) [command],
      .incl (fun _ => true) hold,
      .incl (undone .converged) maintainConvergePhase,
      .incl (fun s => s.facts.maintainDecision.isNone)
        [reads fun _ s => { s.facts with maintainDecision := s.facts.state.decision }],
      command,
      command,
      .incl stopDecided stoppedWindow,
      flushHandlers,
      .incl (undone .released) release,
      .incl (fun _ => true) archive,
      command])
    maintainRescue

def maintain : List Item := preflight ++ [command, maintainCycle]

/-! ## Runs on a node -/

def play (vars : Vars) : List Item :=
  match vars.playbook with
  | .upgradeDocker => main
  | .maintainNodes => maintain

def boot (vars : Vars) (s : Host) : Host :=
  let runs := s.node.history.runs + 1
  { node := { s.node with history := { s.node.history with runs := runs } }.note .began
    facts := { vars := vars, origin := { run := runs } } }

/-- Runs of both playbooks on one node, with what others do to it. -/
def system : Play.System Host Reply Vars Outside where
  boot := boot
  play := play
  outside := fun o s => { s with node := o.act s.node }

end Provisioner.NodeUpgrade.Tasks
