import Provisioner.Controller.Cstacks

/-!
# The converge of the controller and its schema

`tasks/main.yml` as far as it touches the portal, and what its runs keep: as
long as no step slips, the portal is only started from the content that the
database was last loaded or migrated with.
-/

namespace Provisioner.Controller

open Play

namespace Tasks

open Cstacks (bootstrapDb upgrade)

def installCli : Item :=
  observes fun r s => { s with facts := { s.facts with notified := r.changed } }

/-- The environment file names the configured image before any upgrade is tried. -/
def renderEnvFile : Item :=
  acts fun r s =>
    let image := s.facts.vars.controllerImage
    { machine := { s.machine with envFile := some image }
      facts := { s.facts with
        notified := s.facts.notified || r.changed || s.machine.envFile ≠ some image } }

def recordFingerprint : Item :=
  observes fun r s => { s with facts := { s.facts with notified := s.facts.notified || r.changed } }

def anotherImage (s : Host) : Bool :=
  s.machine.container.any fun c => c.image ≠ s.facts.vars.controllerImage

/-- `failed_when: false`: an inspection that fails reads as no image. -/
def readRunningImage : Item :=
  notes fun r s =>
    let answered := decide (r.outcome = .ok)
    { machine := s.machine.slip (!answered && anotherImage s) .inspectFailed
      facts := { s.facts with
        runningImage := if answered then s.machine.container.map Container.image else none } }

def upgradeDue (s : Host) : Bool :=
  s.facts.vars.controllerAutoUpgrade && s.facts.runningImage.isSome &&
    s.facts.runningImage ≠ some s.facts.vars.controllerImage

def readPortalState : Item :=
  notes fun r s => { s with facts := { s.facts with
    portalRunning := decide (r.outcome = .ok) && s.machine.container.any Container.running } }

def main : List Item :=
  [gate fun s => !s.facts.vars.existingEnv,
    command,
    installCli,
    renderEnvFile,
    command,
    recordFingerprint,
    .incl (fun s => !s.machine.sentinel) bootstrapDb,
    readRunningImage,
    .incl upgradeDue upgrade,
    .incl (fun s => s.facts.notified) Cstacks.run,
    readPortalState,
    .incl (fun s => !s.facts.portalRunning) Cstacks.run,
    command]

/-- What a converge finds to its conditions: with the container gone, the
configured image is still the one in the environment file; and where there is a
container of another image, the upgrade is automatic. -/
def finds (vars : Vars) (m : Machine) : Machine :=
  let image := vars.controllerImage
  let fresh := m.slip m.history.unmigrated .migrationCut
  match m.container with
  | none => fresh.slip (m.sentinel && m.envFile ≠ some image) .imageChanged
  | some c => fresh.slip (c.image ≠ image && !vars.controllerAutoUpgrade) .upgradeOff

def boot (vars : Vars) (s : Host) : Host where
  machine := finds vars s.machine
  facts := { vars := vars }

def system : Play.System Host Reply Vars Empty where
  boot := boot
  play _ := main
  outside e _ := e.elim

end Tasks

open Cstacks

/-! ## The schema under the portal -/

/-- What a slip spoils: the schema under the portal, or the guard of `bootstrap-db`. -/
def Slip.ofSchema : Slip → Bool
  | .imageChanged | .upgradeOff | .migrationCut | .inspectFailed | .upgradeBlind => true
  | .containerLost | .earlySeed | .bootstrapBlind => false

namespace Machine

def Clean (m : Machine) : Prop := ∀ s ∈ m.history.slips, s.ofSchema = false

end Machine

structure Migrated (m : Machine) : Prop where
  portal : ∀ c, m.container = some c → m.sentinel = true ∧ m.schema = some c.content ∧
    m.images c.image = some c.content
  bare : m.container = none → m.sentinel = true → m.history.unmigrated = false →
    ∃ t c, m.envFile = some t ∧ m.images t = some c ∧ m.schema = some c

/-- The step from `m` to `m'` logs the event. -/
def Emits (m m' : Machine) (e : Event) : Prop := m'.history.log = e :: m.history.log

def StartedMigrated (s s' : Host) : Prop :=
  ∀ c, Emits s.machine s'.machine (.started c) → s'.machine.Clean → s.machine.schema = some c

theorem StartedMigrated.of_log {s s' : Host}
    (h : s'.machine.history.log = s.machine.history.log) : StartedMigrated s s' := by
  intro c hemits
  rw [Emits, h] at hemits
  exact absurd hemits.symm (List.cons_ne_self _ _)

theorem StartedMigrated.of_event {s s' : Host} {e : Event} (h : Emits s.machine s'.machine e)
    (he : ∀ c, e = .started c → s.machine.schema = some c) : StartedMigrated s s' := by
  intro c hemits _
  have hcons : Event.started c :: _ = e :: _ := hemits.symm.trans h
  exact he c (List.cons.inj hcons).1.symm

theorem StartedMigrated.refl (s : Host) : StartedMigrated s s := .of_log rfl

/-! ## Proof rules -/

def When (P : Machine → Prop) (s : Host) : Prop := s.machine.Clean → P s.machine

abbrev Runs (P : Host → Prop) (items : List Item) (Q : Host → Prop) : Prop :=
  Leads (When Migrated) StartedMigrated StartedMigrated.refl P items Q

theorem clean_slip {m : Machine} {c : Bool} {x : Slip} :
    (m.slip c x).Clean ↔ m.Clean ∧ (c = true → x.ofSchema = false) := by
  cases c with
  | false => simp [Machine.slip]
  | true => simp [Machine.slip, Machine.Clean, and_comm]

theorem Migrated.slip {m : Machine} (h : Migrated m) (c : Bool) (x : Slip) :
    Migrated (m.slip c x) := by
  cases c with
  | false => exact h
  | true => exact ⟨h.portal, h.bare⟩

variable {P Q : Host → Prop}

theorem runs_facts {f : Reply → Host → Facts}
    (h : ∀ s r, P s → Q { s with facts := f r s }) :
    Runs P [notes fun r s => { s with facts := f r s }] Q :=
  leads_notes fun s r hinv hs => ⟨hinv, .of_log rfl, h s r hs⟩

theorem runs_observed {f : Reply → Host → Facts}
    (h : ∀ s r, P s → Q { s with facts := f r s }) :
    Runs P [observes fun r s => { s with facts := f r s }] Q :=
  leads_observes fun s r hinv hs => ⟨hinv, .of_log rfl, h s r hs⟩

/-! ## The commands of `cstacks` -/

/-- The environment file names the image, which is the one the database was
last migrated with, and a portal runs no other. -/
structure Ready (image : Text) (m : Machine) : Prop where
  envFile : m.envFile = some image
  sentinel : m.sentinel = true
  unmigrated : m.history.unmigrated = false
  current : ∃ c, m.images image = some c ∧ m.schema = some c
  portal : ∀ c, m.container = some c → c.image = image

/-- In a run with these variables; `P` is about the configured image. -/
structure Under (vars : Vars) (P : Text → Machine → Prop) (s : Host) : Prop where
  same : s.facts.vars = vars
  machine : When (P vars.controllerImage) s

structure Sourced (vars : Vars) (P : Text → Machine → Prop) (s : Host) : Prop
    extends Under vars P s where
  csReg : s.machine.Clean → s.facts.csReg = vars.controllerImage

theorem runs_source {vars : Vars} {P : Text → Machine → Prop}
    (h : ∀ image m, P image m → m.envFile = some image) :
    Runs (Under vars P) source (Sourced vars P) := by
  have hgate : Runs (Under vars P) [gate fun s => s.machine.envFile.isSome] (Under vars P) :=
    leads_gate fun _ _ hs _ => hs
  have hread : Runs (Under vars P)
      [notes fun _ s => { s with facts := { s.facts with csReg := s.machine.envFile.getD [] } }]
      (Sourced vars P) := by
    refine runs_facts fun s _ hs => ⟨⟨hs.same, hs.machine⟩, fun hclean => ?_⟩
    simp only [h _ _ (hs.machine hclean), Option.getD_some]
  exact hgate.cons hread

theorem Migrated.stopped {m : Machine} (h : Migrated m) :
    Migrated { m with container := m.container.map fun c => { c with running := false } } := by
  constructor
  · intro c hc
    obtain ⟨k, hk, rfl⟩ := Option.map_eq_some_iff.mp hc
    exact h.portal k hk
  · intro hc
    exact h.bare (Option.map_eq_none_iff.mp hc)

theorem Ready.stopped {image : Text} {m : Machine} (h : Ready image m) :
    Ready image { m with container := m.container.map fun c => { c with running := false } } where
  envFile := h.envFile
  sentinel := h.sentinel
  unmigrated := h.unmigrated
  current := h.current
  portal c hc := by
    obtain ⟨k, hk, rfl⟩ := Option.map_eq_some_iff.mp hc
    exact h.portal k hk

theorem Ready.removed {image : Text} {m : Machine} (h : Ready image m) :
    Ready image { m with
      container := none
      history := { m.history with
        replacing := true
        unmigrated := m.history.unmigrated || Caller.run = Caller.upgrade } } where
  envFile := h.envFile
  sentinel := h.sentinel
  unmigrated := by simp [h.unmigrated]
  current := h.current
  portal c hc := by cases hc

theorem Ready.migrated {image : Text} {m : Machine} (h : Ready image m)
    (hportal : m.container = none) : Migrated m where
  portal c hc := by
    rw [hportal] at hc
    cases hc
  bare _ _ _ := by
    obtain ⟨c, himage, hschema⟩ := h.current
    exact ⟨image, c, h.envFile, himage, hschema⟩

theorem runs_removeContainer {vars : Vars} :
    Runs (Sourced vars Ready) (removeContainer .run) (Sourced vars Ready) := by
  have hexists : Runs (Sourced vars Ready) [containerExists .run]
      (Sourced vars Ready) :=
    leads_notes fun s r hinv hs => ⟨hinv, .of_log rfl, ⟨⟨hs.same, hs.machine⟩, hs.csReg⟩⟩
  have hstop : Runs (Sourced vars Ready) [dockerStop] (Sourced vars Ready) :=
    leads_acts fun s r hinv hs => ⟨fun hclean => (hinv hclean).stopped, .of_log rfl,
      ⟨⟨hs.same, fun hclean => (hs.machine hclean).stopped⟩, hs.csReg⟩⟩
  have hrm : Runs (Sourced vars Ready) [dockerRm .run] (Sourced vars Ready) :=
    leads_acts fun s r hinv hs => ⟨fun hclean => (hs.machine hclean).removed.migrated rfl,
      .of_log rfl, ⟨⟨hs.same, fun hclean => (hs.machine hclean).removed⟩, hs.csReg⟩⟩
  refine hexists.cons (.incl ?_ fun _ _ hs _ => hs)
  exact (hstop.cons hrm).pre fun _ _ hs => hs.1

theorem Ready.content {image : Text} {s : Host} (h : Ready image s.machine)
    (hreg : s.facts.csReg = image) (r : Reply) :
    s.machine.schema = some (s.content r) ∧ s.machine.images image = some (s.content r) := by
  obtain ⟨c, himage, hschema⟩ := h.current
  have hcontent : s.content r = c := by
    rw [Host.content, hreg, himage]
    rfl
  rw [hcontent]
  exact ⟨hschema, himage⟩

theorem runs_dockerRun {vars : Vars} :
    Runs (Sourced vars Ready) dockerRun (Sourced vars Ready) := by
  have hgate : Runs (Sourced vars Ready) [gate fun s => s.machine.container.isNone]
      (Sourced vars Ready) := leads_gate fun _ _ hs _ => hs
  refine hgate.cons (leads_acts fun s r _ hs => ?_)
  have hready : s.machine.Clean → Ready vars.controllerImage (Cstacks.start r s) := by
    intro hclean
    have h := hs.machine hclean
    have hreg := hs.csReg hclean
    obtain ⟨hschema, himage⟩ := h.content hreg r
    refine ⟨h.envFile, h.sentinel, h.unmigrated, ⟨s.content r, ?_, hschema⟩, ?_⟩
    · simp [Cstacks.start, Host.used, Machine.pulled, hreg]
    · intro c hc
      cases hc
      exact hreg
  refine ⟨fun hclean => ?_, ?_, ⟨⟨hs.same, hready⟩, hs.csReg⟩⟩
  · obtain ⟨hschema, himage⟩ := (hs.machine hclean).content (hs.csReg hclean) r
    constructor
    · intro c hc
      cases hc
      exact ⟨(hs.machine hclean).sentinel, hschema, by
        simp [Cstacks.start, Host.used, Machine.pulled]⟩
    · intro hc
      cases hc
  · intro c hemits hclean
    have hcons : Event.started c :: s.machine.history.log =
        .started (s.content r) :: s.machine.history.log := hemits.symm
    have heq : c = s.content r := by
      injection hcons with hcons
      injection hcons
    rw [heq]
    exact ((hs.machine hclean).content (hs.csReg hclean) r).1

theorem runs_runPortal {vars : Vars} :
    Runs (Sourced vars Ready) runPortal (Under vars Ready) :=
  (runs_removeContainer.append runs_dockerRun).post fun _ _ hs => hs.toUnder

theorem runs_run {vars : Vars} : Runs (Under vars Ready) Cstacks.run (Under vars Ready) :=
  (runs_source fun _ _ h => h.envFile).append runs_runPortal

/-! ## The upgrade -/

/-- The portal is of another image than the one the environment file names. -/
structure Outdated (image : Text) (m : Machine) : Prop where
  envFile : m.envFile = some image
  sentinel : m.sentinel = true
  unmigrated : m.history.unmigrated = false
  portal : ∃ c, m.container = some c ∧ c.image ≠ image

structure Pulled (image : Text) (m : Machine) : Prop extends Outdated image m where
  pulled : ∃ c, m.images image = some c

/-- The upgrade has removed the portal, and the migrations are still to come. -/
structure Removed (image : Text) (m : Machine) : Prop where
  envFile : m.envFile = some image
  sentinel : m.sentinel = true
  pulled : ∃ c, m.images image = some c
  portal : m.container = none
  unmigrated : m.history.unmigrated = true

theorem Removed.migrated {image : Text} {m : Machine} (h : Removed image m) : Migrated m where
  portal c hc := by
    rw [h.portal] at hc
    cases hc
  bare _ _ hmigrated := by
    rw [h.unmigrated] at hmigrated
    cases hmigrated

theorem runs_pull {vars : Vars} :
    Runs (Sourced vars Outdated) [dockerPull] (Sourced vars Pulled) := by
  refine leads_acts fun s r hinv hs => ⟨fun hclean => ?_, .of_log rfl,
    ⟨hs.same, fun hclean => ?_⟩, hs.csReg⟩
  · obtain ⟨c, hc, hne⟩ := (hs.machine hclean).portal
    have hmigrated := hinv hclean
    constructor
    · intro k hk
      obtain ⟨hsentinel, hschema, himage⟩ := hmigrated.portal k hk
      cases hc.symm.trans hk
      refine ⟨hsentinel, hschema, ?_⟩
      rw [← himage]
      exact if_neg (by rwa [hs.csReg hclean])
    · intro hnone
      cases hc.symm.trans hnone
  · have h := hs.machine hclean
    refine ⟨⟨h.envFile, h.sentinel, h.unmigrated, h.portal⟩, r.content, ?_⟩
    exact if_pos (hs.csReg hclean).symm

theorem Pulled.removed {image : Text} {m : Machine} (h : Pulled image m) :
    Removed image { m with
      container := none
      history := { m.history with
        replacing := true
        unmigrated := m.history.unmigrated || Caller.upgrade = Caller.upgrade } } where
  envFile := h.envFile
  sentinel := h.sentinel
  pulled := h.pulled
  portal := rfl
  unmigrated := by simp

theorem Pulled.stopped {image : Text} {m : Machine} (h : Pulled image m) :
    Pulled image { m with container := m.container.map fun c => { c with running := false } } where
  envFile := h.envFile
  sentinel := h.sentinel
  unmigrated := h.unmigrated
  portal := by
    obtain ⟨c, hc, hne⟩ := h.portal
    exact ⟨{ c with running := false }, by rw [hc]; rfl, hne⟩
  pulled := h.pulled

theorem Pulled.slip {image : Text} {m : Machine} (h : Pulled image m) (c : Bool) (x : Slip) :
    Pulled image (m.slip c x) := by
  cases c with
  | false => exact h
  | true => exact ⟨⟨h.envFile, h.sentinel, h.unmigrated, h.portal⟩, h.pulled⟩

theorem runs_remove_outdated {vars : Vars} :
    Runs (Sourced vars Pulled) (removeContainer .upgrade)
      (Sourced vars Removed) := by
  have hexists : Runs (Sourced vars Pulled) [containerExists .upgrade]
      (fun s => Sourced vars Pulled s ∧ (s.machine.Clean → s.facts.found = true)) := by
    refine leads_notes fun s r hinv hs => ⟨?_, .of_log ?_, ⟨⟨hs.same, ?_⟩, ?_⟩, ?_⟩
    · exact fun hclean => (hinv (clean_slip.mp hclean).1).slip _ _
    · exact Machine.log_slip _ _ _
    · exact fun hclean => (hs.machine (clean_slip.mp hclean).1).slip _ _
    · exact fun hclean => hs.csReg (clean_slip.mp hclean).1
    · intro hclean
      obtain ⟨hclean, hslip⟩ := clean_slip.mp hclean
      obtain ⟨c, hc, -⟩ := (hs.machine hclean).portal
      by_contra hfound
      have hanswered : decide (r.outcome = .ok) = false := by simpa [hc] using hfound
      have hof : Slip.upgradeBlind.ofSchema = false := hslip (by rw [hanswered, hc]; rfl)
      cases hof
  have hstop : Runs (Sourced vars Pulled) [dockerStop] (Sourced vars Pulled) :=
    leads_acts fun s r hinv hs => ⟨fun hclean => (hinv hclean).stopped, .of_log rfl,
      ⟨⟨hs.same, fun hclean => (hs.machine hclean).stopped⟩, hs.csReg⟩⟩
  have hrm : Runs (Sourced vars Pulled) [dockerRm .upgrade]
      (Sourced vars Removed) :=
    leads_acts fun s r hinv hs => ⟨fun hclean => (hs.machine hclean).removed.migrated,
      .of_log rfl, ⟨⟨hs.same, fun hclean => (hs.machine hclean).removed⟩, hs.csReg⟩⟩
  refine hexists.cons (.incl ?_ ?_)
  · exact (hstop.cons hrm).pre fun _ _ hs => hs.1.1
  · intro s _ hs hnot
    have hdirty : ¬ s.machine.Clean := by
      intro hclean
      rw [hs.2 hclean] at hnot
      cases hnot
    exact ⟨⟨hs.1.same, fun hclean => absurd hclean hdirty⟩, hs.1.csReg⟩

theorem runs_dbMigrate {vars : Vars} :
    Runs (Sourced vars Removed) [dbMigrate] (Sourced vars Ready) := by
  have hcontent : ∀ (s : Host) (r : Reply), Sourced vars Removed s →
      s.machine.Clean → s.machine.images vars.controllerImage = some (s.content r) := by
    intro s r hs hclean
    obtain ⟨c, hc⟩ := (hs.machine hclean).pulled
    rw [Host.content, hs.csReg hclean, hc]
    rfl
  apply leads_tries
  · intro s r _ hs
    have hready : s.machine.Clean → Ready vars.controllerImage (migrated r s) := by
      intro hclean
      have h := hs.machine hclean
      refine ⟨h.envFile, h.sentinel, rfl, ⟨s.content r, ?_, rfl⟩, fun c hc => ?_⟩
      · simp [Cstacks.migrated, Host.used, Machine.pulled, hs.csReg hclean]
      · have hnone : (none : Option Container) = some c := h.portal.symm.trans hc
        cases hnone
    refine ⟨fun hclean => (hready hclean).migrated (hs.machine hclean).portal, ?_,
      ⟨hs.same, hready⟩, hs.csReg⟩
    exact .of_event (e := .migrate (s.content r)) rfl fun c hc => (nomatch hc)
  · intro s r _ hs
    refine ⟨fun hclean => ?_, .of_event (e := .migrate (s.content r)) rfl fun c hc => (nomatch hc)⟩
    have h := hs.machine hclean
    have hremoved : Removed vars.controllerImage (halfMigrated r s) :=
      ⟨h.envFile, h.sentinel, ⟨s.content r, by
        simp [halfMigrated, Host.used, Machine.pulled, hs.csReg hclean]⟩, h.portal, h.unmigrated⟩
    exact hremoved.migrated

theorem runs_upgrade {vars : Vars} : Runs (Under vars Outdated) upgrade (Under vars Ready) := by
  have hsource : Runs (Under vars Outdated) source (Sourced vars Outdated) :=
    runs_source fun _ _ h => h.envFile
  have hpull : Runs (Sourced vars Outdated) [command, command, dockerPull]
      (Sourced vars Pulled) := leads_command.cons (leads_command.cons runs_pull)
  exact (((hsource.append hpull).append runs_remove_outdated).append runs_dbMigrate).append
    runs_runPortal

/-! ## The first load -/

structure Unloaded (image : Text) (m : Machine) : Prop where
  envFile : m.envFile = some image
  sentinel : m.sentinel = false
  unmigrated : m.history.unmigrated = false
  portal : m.container = none

theorem Unloaded.migrated {image : Text} {m : Machine} (h : Unloaded image m) : Migrated m where
  portal c hc := by
    rw [h.portal] at hc
    cases hc
  bare _ hsentinel _ := by
    rw [h.sentinel] at hsentinel
    cases hsentinel

structure Loaded (image : Text) (m : Machine) : Prop extends Unloaded image m where
  current : ∃ c, m.images image = some c ∧ m.schema = some c

theorem Unloaded.slip {image : Text} {m : Machine} (h : Unloaded image m) (c : Bool) (x : Slip) :
    Unloaded image (m.slip c x) := by
  cases c with
  | false => exact h
  | true => exact ⟨h.envFile, h.sentinel, h.unmigrated, h.portal⟩

theorem runs_schemaLoad {vars : Vars} :
    Runs (Sourced vars Unloaded) [schemaLoad] (Sourced vars Loaded) := by
  have hunloaded : ∀ (s : Host) (r : Reply) (schema : Option ℕ),
      Sourced vars Unloaded s → s.machine.Clean → Unloaded vars.controllerImage (loaded schema r s) := by
    intro s r schema hs hclean
    have h := hs.machine hclean
    exact ⟨h.envFile, h.sentinel, h.unmigrated, h.portal⟩
  apply leads_tries
  · intro s r _ hs
    refine ⟨fun hclean => (hunloaded s r _ hs hclean).migrated,
      .of_event (e := .schemaLoad (s.content r)) rfl fun c hc => (nomatch hc),
      ⟨hs.same, fun hclean => ⟨hunloaded s r _ hs hclean, s.content r, ?_, rfl⟩⟩, hs.csReg⟩
    simp [loaded, Host.used, Machine.pulled, hs.csReg hclean]
  · intro s r _ hs
    exact ⟨fun hclean => (hunloaded s r _ hs hclean).migrated,
      .of_event (e := .schemaLoad (s.content r)) rfl fun c hc => (nomatch hc)⟩

theorem runs_bootstrapDb {vars : Vars} :
    Runs (Under vars Unloaded) bootstrapDb (Under vars Ready) := by
  have hsource : Runs (Under vars Unloaded) source (Sourced vars Unloaded) :=
    runs_source fun _ _ h => h.envFile
  have hgate : ∀ c : Host → Bool, Runs (Sourced vars Unloaded) [gate c]
      (Sourced vars Unloaded) := fun _ => leads_gate fun _ _ hs _ => hs
  have hexists : Runs (Sourced vars Unloaded) [containerExists .bootstrapDb]
      (Sourced vars Unloaded) := by
    refine leads_notes fun s r hinv hs => ⟨?_, .of_log ?_, ⟨hs.same, ?_⟩, ?_⟩
    · exact fun hclean => (hinv (clean_slip.mp hclean).1).slip _ _
    · exact Machine.log_slip _ _ _
    · exact fun hclean => (hs.machine (clean_slip.mp hclean).1).slip _ _
    · exact fun hclean => hs.csReg (clean_slip.mp hclean).1
  have hpull : Runs (Sourced vars Unloaded) [dockerPull]
      (Sourced vars Unloaded) := by
    refine leads_acts fun s r _ hs => ?_
    have hunloaded : s.machine.Clean →
        Unloaded vars.controllerImage (s.machine.pulled s.facts.csReg r.content) := by
      intro hclean
      have h := hs.machine hclean
      exact ⟨h.envFile, h.sentinel, h.unmigrated, h.portal⟩
    exact ⟨fun hclean => (hunloaded hclean).migrated, .of_log rfl, ⟨hs.same, hunloaded⟩, hs.csReg⟩
  have hsentinel : Runs (Sourced vars Loaded)
      [acts fun _ s => { s with machine := { s.machine with sentinel := true } }]
      (Under vars Ready) := by
    refine leads_acts fun s r _ hs => ?_
    have hready : s.machine.Clean → Ready vars.controllerImage { s.machine with sentinel := true } := by
      intro hclean
      have h := hs.machine hclean
      refine ⟨h.envFile, rfl, h.unmigrated, h.current, fun c hc => ?_⟩
      cases h.portal.symm.trans hc
    exact ⟨fun hclean => (hready hclean).migrated (hs.machine hclean).portal, .of_log rfl,
      ⟨hs.same, hready⟩⟩
  exact hsource.append ((hgate _).cons (hexists.cons ((hgate _).cons (hpull.cons
    (runs_schemaLoad.cons (leads_command.cons hsentinel))))))

/-! ## The converge -/

open Tasks

structure Fit (vars : Vars) (m : Machine) : Prop where
  unmigrated : m.history.unmigrated = false
  bare : m.container = none → m.sentinel = true → m.envFile = some vars.controllerImage
  portal : ∀ c, m.container = some c →
    c.image = vars.controllerImage ∨ vars.controllerAutoUpgrade = true

structure Named (vars : Vars) (m : Machine) : Prop where
  envFile : m.envFile = some vars.controllerImage
  unmigrated : m.history.unmigrated = false
  portal : ∀ c, m.container = some c →
    c.image = vars.controllerImage ∨ vars.controllerAutoUpgrade = true

structure Provisioned (vars : Vars) (m : Machine) : Prop extends Named vars m where
  sentinel : m.sentinel = true

variable {vars : Vars}

theorem fit_boot (s : Host) : Under vars (fun _ => Fit vars) (boot vars s) := by
  refine ⟨rfl, fun hclean => ?_⟩
  change (finds vars s.machine).Clean at hclean
  change Fit vars (finds vars s.machine)
  have hmigrated : ∀ {c : Bool}, (c = true → Slip.migrationCut.ofSchema = false) → c = false := by
    intro c hc
    cases c with
    | false => rfl
    | true => exact absurd (hc rfl) (by decide)
  rw [finds] at hclean ⊢
  cases hcontainer : s.machine.container with
  | none =>
    simp only [hcontainer] at hclean ⊢
    obtain ⟨hclean, himage⟩ := clean_slip.mp hclean
    have hcut := hmigrated (clean_slip.mp hclean).2
    simp only [hcut, Machine.slip, Bool.false_eq_true, if_false] at hclean himage ⊢
    split
    · rename_i hslip
      cases himage hslip
    · rename_i hsame
      refine ⟨hcut, fun _ hsentinel => ?_, fun c hc => ?_⟩
      · by_contra hne
        exact hsame (by simp [hsentinel, hne])
      · rw [hcontainer] at hc
        cases hc
  | some k =>
    simp only [hcontainer] at hclean ⊢
    obtain ⟨hclean, hupgrade⟩ := clean_slip.mp hclean
    have hcut := hmigrated (clean_slip.mp hclean).2
    simp only [hcut, Machine.slip, Bool.false_eq_true, if_false] at hclean hupgrade ⊢
    split
    · rename_i hslip
      cases hupgrade hslip
    · rename_i hsame
      refine ⟨hcut, fun hnone => ?_, fun c hc => ?_⟩
      · rw [hcontainer] at hnone
        cases hnone
      · have hk : c = k := Option.some.inj (hc.symm.trans hcontainer)
        rw [hk]
        by_cases himage : k.image = vars.controllerImage
        · exact .inl himage
        · right
          by_contra hauto
          exact hsame (by simp [himage, hauto])

theorem migrated_boot {s : Host} (h : When Migrated s) : When Migrated (boot vars s) := by
  intro hclean
  change (finds vars s.machine).Clean at hclean
  change Migrated (finds vars s.machine)
  rw [finds] at hclean ⊢
  cases hcontainer : s.machine.container with
  | none =>
    simp only [hcontainer] at hclean ⊢
    exact ((h (clean_slip.mp (clean_slip.mp hclean).1).1).slip _ _).slip _ _
  | some c =>
    simp only [hcontainer] at hclean ⊢
    exact ((h (clean_slip.mp (clean_slip.mp hclean).1).1).slip _ _).slip _ _

theorem runs_render : Runs (Under vars fun _ => Fit vars) [renderEnvFile]
    (Under vars fun _ => Named vars) := by
  refine leads_acts fun s r hinv hs => ⟨fun hclean => ?_, .of_log rfl, hs.same, fun hclean => ?_⟩
  · have hfit := hs.machine hclean
    have hmigrated := hinv hclean
    refine ⟨hmigrated.portal, fun hnone hsentinel hcut => ?_⟩
    obtain ⟨t, c, henv, hrest⟩ := hmigrated.bare hnone hsentinel hcut
    refine ⟨t, c, ?_, hrest⟩
    rw [← henv, hfit.bare hnone hsentinel, ← hs.same]
  · have hfit := hs.machine hclean
    exact ⟨congrArg some (congrArg Vars.controllerImage hs.same), hfit.unmigrated, hfit.portal⟩

theorem runs_bootstrap_step : Runs (Under vars fun _ => Named vars)
    [.incl (fun s => !s.machine.sentinel) bootstrapDb]
    (Under vars fun _ => Provisioned vars) := by
  apply Triple.incl
  · refine (@runs_bootstrapDb vars).conseq ?_ ?_ fun _ _ h => h
    · rintro s hinv ⟨hs, hsentinel⟩
      have hfalse : s.machine.sentinel = false := by simpa using hsentinel
      refine ⟨hs.same, fun hclean => ⟨(hs.machine hclean).envFile, hfalse,
        (hs.machine hclean).unmigrated, ?_⟩⟩
      cases hcontainer : s.machine.container with
      | none => rfl
      | some c =>
        have htrue := ((hinv hclean).portal c hcontainer).1
        rw [hfalse] at htrue
        cases htrue
    · intro s _ hs
      refine ⟨hs.same, fun hclean => ?_⟩
      have hready := hs.machine hclean
      exact ⟨⟨hready.envFile, hready.unmigrated, fun c hc => .inl (hready.portal c hc)⟩,
        hready.sentinel⟩
  · intro s _ hs hsentinel
    have htrue : s.machine.sentinel = true := by simpa using hsentinel
    exact ⟨hs.same, fun hclean => ⟨hs.machine hclean, htrue⟩⟩

structure Inspected (vars : Vars) (s : Host) : Prop where
  same : s.facts.vars = vars
  due : s.machine.Clean → upgradeDue s = true → Outdated vars.controllerImage s.machine
  current : s.machine.Clean → upgradeDue s = false → Ready vars.controllerImage s.machine

theorem Provisioned.slip {m : Machine} (h : Provisioned vars m) (c : Bool) (x : Slip) :
    Provisioned vars (m.slip c x) := by
  cases c with
  | false => exact h
  | true => exact ⟨⟨h.envFile, h.unmigrated, h.portal⟩, h.sentinel⟩

theorem Provisioned.outdated {m : Machine} (h : Provisioned vars m) {c : Container}
    (hc : m.container = some c) (hne : c.image ≠ vars.controllerImage) :
    Outdated vars.controllerImage m :=
  ⟨h.envFile, h.sentinel, h.unmigrated, c, hc, hne⟩

theorem Provisioned.ready {m : Machine} (h : Provisioned vars m) (hmigrated : Migrated m)
    (hsame : ∀ c, m.container = some c → c.image = vars.controllerImage) :
    Ready vars.controllerImage m := by
  refine ⟨h.envFile, h.sentinel, h.unmigrated, ?_, hsame⟩
  cases hcontainer : m.container with
  | none =>
    obtain ⟨t, c, henv, himage, hschema⟩ := hmigrated.bare hcontainer h.sentinel h.unmigrated
    cases henv.symm.trans h.envFile
    exact ⟨c, himage, hschema⟩
  | some c =>
    obtain ⟨-, hschema, himage⟩ := hmigrated.portal c hcontainer
    exact ⟨c.content, hsame c hcontainer ▸ himage, hschema⟩

theorem runs_inspect : Runs (Under vars fun _ => Provisioned vars) [readRunningImage]
    (Inspected vars) := by
  refine leads_notes fun s r hinv hs => ⟨?_, .of_log ?_, hs.same, ?_, ?_⟩
  · exact fun hclean => (hinv (clean_slip.mp hclean).1).slip _ _
  · exact Machine.log_slip _ _ _
  · intro hclean hdue
    have hprovisioned := (hs.machine (clean_slip.mp hclean).1).slip
      (!decide (r.outcome = .ok) && anotherImage s) .inspectFailed
    simp only [upgradeDue, Bool.and_eq_true, hs.same] at hdue
    obtain ⟨⟨-, hsome⟩, hne⟩ := hdue
    cases hcontainer : s.machine.container with
    | none => simp [hcontainer] at hsome
    | some c =>
      refine hprovisioned.outdated ((Machine.container_slip _ _ _).trans hcontainer) ?_
      intro himage
      by_cases hanswered : r.outcome = .ok
      · simp [hanswered, hcontainer, himage] at hne
      · simp [hanswered] at hsome
  · intro hclean hdue
    obtain ⟨hclean', hslip⟩ := clean_slip.mp hclean
    have hprovisioned := hs.machine hclean'
    refine (hprovisioned.slip _ _).ready ((hinv hclean').slip _ _) fun c hc => ?_
    rw [Machine.container_slip] at hc
    by_contra hne
    have hauto := (hprovisioned.portal c hc).resolve_left hne
    by_cases hanswered : r.outcome = .ok
    · simp [upgradeDue, hs.same, hauto, hanswered, hc, hne] at hdue
    · have hblind : Slip.inspectFailed.ofSchema = false := by
        apply hslip
        simp [hanswered, anotherImage, hc, hs.same, hne]
      cases hblind

theorem runs_upgrade_step : Runs (Inspected vars) [.incl upgradeDue upgrade]
    (Under vars Ready) := by
  apply Triple.incl
  · refine runs_upgrade.pre ?_
    rintro s _ ⟨hs, hdue⟩
    exact ⟨hs.same, fun hclean => hs.due hclean hdue⟩
  · intro s _ hs hdue
    exact ⟨hs.same, fun hclean => hs.current hclean hdue⟩

theorem runs_run_step (c : Host → Bool) :
    Runs (Under vars Ready) [.incl c Cstacks.run] (Under vars Ready) :=
  .incl (runs_run.pre fun _ _ hs => hs.1) fun _ _ hs _ => hs

theorem safe_main (vars : Vars) (s : Host) :
    Safe (Contract.alone (When Migrated) StartedMigrated StartedMigrated.refl) (boot vars s)
      [⟨main, none⟩] := by
  have hgate : Runs (Under vars fun _ => Fit vars) [gate fun s => !s.facts.vars.existingEnv]
      (Under vars fun _ => Fit vars) := leads_gate fun _ _ hs _ => hs
  have hcli : Runs (Under vars fun _ => Fit vars) [installCli] (Under vars fun _ => Fit vars) :=
    runs_observed fun _ _ hs => ⟨hs.same, hs.machine⟩
  have hfingerprint : Runs (Under vars fun _ => Named vars) [recordFingerprint]
      (Under vars fun _ => Named vars) :=
    runs_observed fun _ _ hs => ⟨hs.same, hs.machine⟩
  have hstate : Runs (Under vars Ready) [readPortalState] (Under vars Ready) :=
    runs_facts fun _ _ hs => ⟨hs.same, hs.machine⟩
  have hmain : Runs (Under vars fun _ => Fit vars) main (Under vars Ready) :=
    hgate.cons (leads_command.cons (hcli.cons (runs_render.cons (leads_command.cons
      (hfingerprint.cons (runs_bootstrap_step.cons (runs_inspect.cons (runs_upgrade_step.cons
        ((runs_run_step _).cons (hstate.cons ((runs_run_step _).cons leads_command)))))))))))
  exact hmain.safe (fit_boot s)

theorem system_keeps : Tasks.system.Keeps
    (Contract.alone (When Migrated) StartedMigrated StartedMigrated.refl) where
  boot_inv _ _ h := migrated_boot h
  boot_safe vars s _ := safe_main vars s
  outside_rely e _ := e.elim

/-! ## All converges -/

abbrev Move := Play.Move Reply Vars Empty

def converges (moves : List Move) : Machine :=
  (Tasks.system.run moves ⟨{}, []⟩).state.machine

theorem good_greenfield : System.Good
    (Contract.alone (When Migrated) StartedMigrated StartedMigrated.refl)
    (⟨{}, []⟩ : World Host Reply) :=
  ⟨fun _ => ⟨fun _ hc => (nomatch hc), fun _ hsentinel => (nomatch hsentinel)⟩, safe_nil _⟩

/-- As long as no step slips, the portal is started only from the content that
the database was last loaded or migrated with. -/
theorem portal_on_migrated (moves : List Move) (m : Move)
    (hclean : (converges (moves ++ [m])).Clean) (c : ℕ)
    (hstarted : Emits (converges moves) (converges (moves ++ [m])) (.started c)) :
    (converges moves).schema = some c := by
  have hchange := (System.change_run system_keeps good_greenfield moves m).2
  rw [converges] at hclean hstarted ⊢
  rw [converges] at hstarted
  generalize (Tasks.system.run (moves ++ [m]) ⟨{}, []⟩).state = s' at hchange hclean hstarted
  cases hchange with
  | same => exact StartedMigrated.refl _ c hstarted hclean
  | boot vars =>
    refine StartedMigrated.of_log ?_ c hstarted hclean
    change (finds vars _).history.log = _
    rw [finds]
    split <;> simp
  | play hstep => exact hstep.2 c hstarted hclean
  | outside e => exact e.elim

def converge (image : Text) : Move := .start { controllerImage := image }

def ticks (content k : ℕ) : List Move := List.replicate k (.tick { content := content })

instance (m : Machine) : Decidable m.Clean :=
  inferInstanceAs (Decidable (∀ s ∈ m.history.slips, s.ofSchema = false))

instance (m m' : Machine) (e : Event) : Decidable (Emits m m' e) :=
  inferInstanceAs (Decidable (m'.history.log = e :: m.history.log))

/-- An upgrade is cut once the database is migrated, and the next converge gets
as far as the start of the new image. -/
def migratedCut : List Move :=
  [converge "portal:9.7"] ++ ticks 0 30 ++ [.interrupt, converge "portal:9.8"] ++ ticks 1 20 ++
    [.interrupt, converge "portal:9.8"] ++ ticks 1 17

theorem upgrade_start_on_migrated : (converges migratedCut).schema = some 1 :=
  portal_on_migrated migratedCut (.tick { content := 1 }) (by decide) 1 (by decide)

/-- An upgrade to a new image is cut after it has removed the old container; the
next converge finds no container to upgrade and starts the new image. -/
def upgradeCut : List Move :=
  [converge "portal:9.7"] ++ ticks 0 30 ++ [.interrupt, converge "portal:9.8"] ++ ticks 1 18 ++
    [.interrupt, converge "portal:9.8"] ++ ticks 1 17

theorem started_unmigrated :
    Emits (converges upgradeCut) (converges (upgradeCut ++ [.tick { content := 1 }]))
      (.started 1) ∧ (converges upgradeCut).schema = some 0 := by
  decide

end Provisioner.Controller
