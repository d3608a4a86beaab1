import Provisioner.ControllerSeed.LbAddresses
import Provisioner.ControllerSeed.Preview
import Provisioner.Library.Steps

/-!
# The seed of the controller

`controller_seed` from its first check to its last task, with the switches it
reads. A command in check mode is skipped and registers no output. Ending the
play is a fact that guards every task after it.
-/

namespace Provisioner.ControllerSeed

open Play Text

structure Vars where
  existingEnv : Bool := false
  controllerSeedUpdateAddresses : Bool := false
  controllerSeedStopAfterPreview : Bool := false
  controllerSeedStopAfterPreviewSupported : Bool := false
  controllerSeedExpectPreviewSha256 : Text := []
  controllerSeedDryRunFirst : Bool := true
  controllerSeedConfirm : Bool := true
  controllerSeedRemoveManifest : Bool := true
  ansibleCheckMode : Bool := false
  /-- The new nodes with a `public_ipv6`. -/
  controllerSeedLbIpv6Wanted : List LbIpv6.Wanted := []
deriving DecidableEq, Repr

namespace Vars

def expects (v : Vars) : Bool := !v.controllerSeedExpectPreviewSha256.isEmpty

def previews (v : Vars) : Bool :=
  v.existingEnv || v.controllerSeedUpdateAddresses || v.controllerSeedStopAfterPreview ||
    v.expects

def fingerprints (v : Vars) : Bool := v.controllerSeedStopAfterPreview || v.expects

def plans (v : Vars) : Bool :=
  !v.controllerSeedLbIpv6Wanted.isEmpty && !v.ansibleCheckMode

end Vars

def isHex (c : Char) : Bool := c.isDigit || ('a' ≤ c && c ≤ 'f')

/-- `is match('^[0-9a-f]{64}$')`, where `$` is also before a last line break. -/
def isFingerprint (t : Text) : Bool :=
  let line := if t.getLast? = some '\n' then t.dropLast else t
  line.length = 64 && line.all isHex

/-- A call of `cstacks seed`: the manifest it read, what it was told, and how it ended. -/
structure Call where
  manifest : Option Text
  updateAddresses : Bool
  rc : ℕ
  stdoutLines : List Text
deriving DecidableEq, Repr

structure Plan where
  rc : ℕ
  stdoutLines : List Text
deriving DecidableEq, Repr

structure Machine where
  /-- The file at `controller_seed_manifest_path`. -/
  manifest : Option Text := none
  /-- The calls without `DRY_RUN`, the last one first. -/
  applies : List Call := []
deriving DecidableEq, Repr

structure Facts where
  vars : Vars := {}
  controllerSeedManifestContent : Text := []
  controllerSeedDryRun : Option Call := none
  controllerSeedLbDomainDrift : List Text := []
  controllerSeedLbIpv6Cmd : Option Plan := none
  controllerSeedPreviewSha256 : Option Text := none
  controllerSeedPreviewStopped : Bool := false

structure Host where
  machine : Machine := {}
  facts : Facts := {}

namespace Host

def stdoutLines (s : Host) : List Text :=
  match s.facts.controllerSeedDryRun with
  | some call => call.stdoutLines
  | none => []

end Host

structure Reply where
  outcome : Outcome := .ok
  half : Bool := false
  rc : ℕ := 0
  stdoutLines : List Text := []
  manifest : Text := []
deriving DecidableEq, Repr

instance : Answer Reply := ⟨Reply.outcome, Reply.half⟩

abbrev Item := Play.Item Host Reply

def registers (f : Reply → Host → Facts) : Item := observes fun r s => { s with facts := f r s }

/-- A command whose result is registered and decides by its exit code. -/
def runs (c : Reply → Host → Host) : Item :=
  .task fun r s =>
    match Answer.outcome r with
    | .ok => (c r s, if r.rc = 0 then .ok else .failed)
    | _ => (s, .failed)

def unlessCheck (items : List Item) : Item :=
  .incl (fun s => !s.facts.vars.ansibleCheckMode) items

def twoStepUsable (v : Vars) : Bool :=
  (!v.controllerSeedStopAfterPreview || v.controllerSeedStopAfterPreviewSupported) &&
    (!v.controllerSeedStopAfterPreview || !v.expects) &&
    (!v.expects || isFingerprint v.controllerSeedExpectPreviewSha256) &&
    (!(v.controllerSeedStopAfterPreview || v.expects) || !v.ansibleCheckMode)

def entryChecks : List Item := [gate fun s => twoStepUsable s.facts.vars, command]

def renderManifest : List Item :=
  [registers fun r s => { s.facts with controllerSeedManifestContent := r.manifest }, command]

def writeManifest : Item :=
  unlessCheck [acts fun _ s => { s with machine := { s.machine with
    manifest := some s.facts.controllerSeedManifestContent } }]

def called (r : Reply) (s : Host) : Call where
  manifest := s.machine.manifest
  updateAddresses := s.facts.vars.controllerSeedUpdateAddresses
  rc := r.rc
  stdoutLines := r.stdoutLines

def preview : Item :=
  .incl (fun s => s.facts.vars.previews) [unlessCheck [runs fun r s => { s with
    facts := { s.facts with controllerSeedDryRun := some (called r s) } }]]

def showPreview : Item :=
  .incl (fun s => (s.facts.vars.controllerSeedDryRunFirst ||
    s.facts.vars.controllerSeedStopAfterPreview) && !s.stdoutLines.isEmpty) [command]

def domainGate : List Item :=
  [registers fun _ s => { s.facts with
      controllerSeedLbDomainDrift := ControllerSeed.controllerSeedLbDomainDrift s.stdoutLines },
    gate fun s => s.facts.controllerSeedLbDomainDrift.isEmpty]

/-- `lb_public_ipv6.yml`; its command never fails, and the assertion reads it. -/
def lbPublicIpv6 (apply : Bool) : List Item :=
  [registers fun r s => { s.facts with
      controllerSeedLbIpv6Cmd := some ⟨r.rc, r.stdoutLines⟩ },
    command,
    gate fun s => s.facts.controllerSeedLbIpv6Cmd.any fun cmd =>
      let result := LbIpv6.controllerSeedLbIpv6Result cmd.stdoutLines
      cmd.rc = 0 && result.done && result.conflict.isEmpty && (result.missing.isEmpty || !apply)]

def planIpv6 : Item := .incl (fun s => s.facts.vars.plans) (lbPublicIpv6 false)

section

variable (sha256 : Text → Text)

/-- A preview without a fingerprint makes the filter raise. -/
def fingerprint : Item :=
  .incl (fun s => s.facts.vars.fingerprints)
    [gate fun s => (ControllerSeed.controllerSeedPreviewSha256 sha256 s.stdoutLines).isSome,
      registers fun _ s => { s.facts with controllerSeedPreviewSha256 :=
        ControllerSeed.controllerSeedPreviewSha256 sha256 s.stdoutLines }]

def removeManifest : Item :=
  unlessCheck [acts fun _ s => { s with machine := { s.machine with manifest := none } }]

def stopAfterPreview : Item :=
  .incl (fun s => s.facts.vars.controllerSeedStopAfterPreview)
    [command, removeManifest,
      registers fun _ s => { s.facts with controllerSeedPreviewStopped := true }]

def refuseOther : Item :=
  .incl (fun s => s.facts.vars.expects)
    [gate fun s => s.facts.controllerSeedPreviewSha256 =
      some s.facts.vars.controllerSeedExpectPreviewSha256]

def confirm : Item :=
  .incl (fun s => (s.facts.vars.existingEnv || s.facts.vars.controllerSeedUpdateAddresses) &&
    s.facts.vars.controllerSeedConfirm) [command]

/-- The call goes to the database whatever comes of it. -/
def applyManifest : Item :=
  unlessCheck [.task fun r s =>
    ({ s with machine := { s.machine with applies := called r s :: s.machine.applies } },
      if Answer.outcome r = .ok ∧ r.rc = 0 then .ok else .failed)]

def applyTasks : List Item :=
  [refuseOther, confirm, applyManifest, command,
    .incl (fun s => s.facts.vars.controllerSeedRemoveManifest) [removeManifest]]

def unlessStopped (items : List Item) : Item :=
  .incl (fun s => !s.facts.controllerSeedPreviewStopped) items

def seedTasks : List Item :=
  [writeManifest, preview, showPreview] ++ domainGate ++
    [planIpv6, fingerprint sha256, stopAfterPreview, unlessStopped applyTasks]

def main : List Item :=
  entryChecks ++ renderManifest ++
    [.block (seedTasks sha256) [command, gate fun _ => false],
      unlessStopped [.incl (fun s => s.facts.vars.plans) (lbPublicIpv6 true)]]

def system : Play.System Host Reply Vars Empty where
  boot v s := { machine := s.machine, facts := { vars := v } }
  play _ := main sha256
  outside e _ := e.elim

end

end Provisioner.ControllerSeed
