import Provisioner.NodeUpgrade.Invariants

/-!
# Proof rules for the task files

Assertions at the points of a task file, and what each kind of task does to
them. `At` is the usual one: the state file is there, the run knows what is in
it, and it belongs to the playbook of the run.
-/

namespace Provisioner.NodeUpgrade

open Play (Stable)
open Tasks

/-- The steps of a run are legal steps of the protocol, in any surroundings, and
it goes on only past its hold step. -/
def contract : Play.Contract Host where
  rely s s' := ∃ o : Outside, s' = { s with node := o.act s.node }
  guar s s' := Legal s.node s'.node ∧ (Proceeds s.node s'.node → s.node.Entered)
  inv s := Ok s.node
  guar_refl _ := ⟨.quiet, fun h => absurd h (not_proceeds_self _)⟩
  inv_rely := by
    rintro s _ hok ⟨o, rfl⟩
    exact hok.outside o
  inv_guar _ _ hok h := hok.legal h.1

/-- What a rescue relies on: the run knows of everything in the state file. -/
def Kept (s : Host) : Prop :=
  ∀ f, s.node.stateFile = some f →
    (f.convergeStarted = true → s.facts.state.convergeStarted = true) ∧
      ∀ p ∈ f.phasesDone, p ∈ s.facts.phasesDone

abbrev Runs (P : Host → Prop) (items : List Item) (Q : Host → Prop) : Prop :=
  Play.Triple contract P items Q Kept

abbrev Lasting (X : Host → Prop) : Prop := Stable contract X

/-- An assertion that can stand before a task. -/
class Point (P : Host → Prop) : Prop where
  lasting : Lasting P
  kept : ∀ s, P s → Kept s

/-- An assertion that only holds past the hold step. -/
class Under (P : Host → Prop) : Prop extends Point P where
  entered : ∀ s, P s → s.node.Entered

instance {P : Host → Prop} [h : Point P] : Stable contract P := h.lasting

instance {P X : Host → Prop} [Point P] [Lasting X] : Point fun s => P s ∧ X s where
  lasting := inferInstance
  kept s hs := Point.kept s hs.1

instance {P X : Host → Prop} [Under P] [Lasting X] : Under fun s => P s ∧ X s where
  entered s hs := Under.entered s hs.1

theorem lasting_of_outside {X : Host → Prop}
    (h : ∀ s o, Ok s.node → X s → X { s with node := Outside.act o s.node }) : Lasting X where
  stable := by
    rintro s _ hok ⟨o, rfl⟩ hs
    exact h s o hok hs

instance : Point Kept where
  lasting := lasting_of_outside fun s o _ hs f hf => hs f (by cases o <;> exact hf)
  kept _ hs := hs

/-! ## Kinds of tasks -/

section Kinds

variable {P Q : Host → Prop}

theorem runs_observes_of [Point P] {f : Reply → Host → Host}
    (h : ∀ s r, Ok s.node → P s → contract.guar s (f r s) ∧ Q (f r s)) :
    Runs P [observes f] Q := by
  apply Play.Triple.task
  intro s r hok hs
  obtain ⟨hguar, hQ⟩ := h s r hok hs
  cases r.outcome with
  | ok => exact ⟨hguar, hQ⟩
  | again => exact ⟨contract.guar_refl s, hs⟩
  | failed => exact ⟨contract.guar_refl s, Point.kept s hs⟩

theorem runs_observes [Under P] {f : Reply → Host → Host}
    (h : ∀ s r, Ok s.node → P s → Legal s.node (f r s).node ∧ Q (f r s)) :
    Runs P [observes f] Q := by
  refine runs_observes_of fun s r hok hs => ?_
  obtain ⟨hlegal, hQ⟩ := h s r hok hs
  exact ⟨⟨hlegal, fun _ => Under.entered s hs⟩, hQ⟩

theorem runs_reads [Point P] {f : Reply → Host → Facts}
    (h : ∀ s r, Ok s.node → P s → Q { s with facts := f r s }) : Runs P [reads f] Q :=
  runs_observes_of fun s r hok hs =>
    ⟨⟨.quiet, fun hgo => absurd hgo (not_proceeds_self _)⟩, h s r hok hs⟩

theorem runs_command [Point P] : Runs P [command] P :=
  runs_observes_of fun s _ _ hs => ⟨contract.guar_refl s, hs⟩

theorem runs_gate [Point P] {c : Host → Bool} (h : ∀ s, Ok s.node → P s → c s = true → Q s) :
    Runs P [gate c] Q := by
  apply Play.Triple.task
  intro s r hok hs
  cases hc : c s with
  | true =>
    refine ⟨contract.guar_refl s, ?_⟩
    rw [if_pos rfl]
    exact h s hok hs hc
  | false => exact ⟨contract.guar_refl s, Point.kept s hs⟩

theorem runs_acts_of [Point P] [Point Q] {f : Reply → Host → Host}
    (h : ∀ s r, Ok s.node → P s → contract.guar s (f r s) ∧ Q (f r s)) :
    Runs P [acts f] Q := by
  apply Play.Triple.task
  intro s r hok hs
  obtain ⟨hguar, hQ⟩ := h s r hok hs
  have hfailed : contract.guar s (if r.half then f r s else s) ∧
      Kept (if r.half then f r s else s) := by
    cases r.half with
    | true => exact ⟨hguar, Point.kept _ hQ⟩
    | false => exact ⟨contract.guar_refl s, Point.kept s hs⟩
  cases r.outcome with
  | ok => exact ⟨hguar, hQ⟩
  | again => exact hfailed
  | failed => exact hfailed

theorem runs_acts [Under P] [Point Q] {f : Reply → Host → Host}
    (h : ∀ s r, Ok s.node → P s → Legal s.node (f r s).node ∧ Q (f r s)) :
    Runs P [acts f] Q := by
  refine runs_acts_of fun s r hok hs => ?_
  obtain ⟨hlegal, hQ⟩ := h s r hok hs
  exact ⟨⟨hlegal, fun _ => Under.entered s hs⟩, hQ⟩

theorem runs_retries [Under P] {f : Reply → Host → Host}
    (h : ∀ s r, Ok s.node → P s → Legal s.node (f r s).node ∧ P (f r s) ∧ Q (f r s)) :
    Runs P [retries f] Q := by
  apply Play.Triple.task
  intro s r hok hs
  obtain ⟨hlegal, hP, hQ⟩ := h s r hok hs
  have hguar : contract.guar s (f r s) := ⟨hlegal, fun _ => Under.entered s hs⟩
  cases r.outcome with
  | ok => exact ⟨hguar, hQ⟩
  | again => exact ⟨hguar, hP⟩
  | failed =>
    cases r.half with
    | true => exact ⟨hguar, Point.kept _ hP⟩
    | false => exact ⟨contract.guar_refl s, Point.kept s hs⟩

end Kinds

/-! ## The usual assertion -/

structure Known (s : Host) (f : UpgradeState) : Prop where
  file : s.node.stateFile = some f
  state : s.facts.state = f
  done : s.facts.phasesDone = f.phasesDone
  owner : stateOwner f = s.facts.vars.playbook

structure Synced (s : Host) (f : UpgradeState) : Prop extends Known s f where
  entered : s.node.Entered

def At (p : Facts → UpgradeState → Prop) (s : Host) : Prop := ∃ f, Synced s f ∧ p s.facts f

variable {p q : Facts → UpgradeState → Prop} {s : Host}

theorem Node.entered_of_none {n : Node} (hnone : n.stateFile = none) : n.Entered :=
  .inr (.inr fun _ hf => by cases hnone.symm.trans hf)

theorem Node.Entered.outside {n : Node} (h : n.Entered) (o : Outside) : (o.act n).Entered := by
  cases o <;> exact h.same rfl rfl

theorem Known.outside {f : UpgradeState} (h : Known s f) (o : Outside) :
    Known { s with node := o.act s.node } f :=
  ⟨by cases o <;> exact h.file, h.state, h.done, h.owner⟩

theorem Known.kept {f : UpgradeState} (h : Known s f) : Kept s := by
  intro g hg
  cases h.file.symm.trans hg
  rw [h.state, h.done]
  exact ⟨fun h => h, fun _ h => h⟩

instance : Under (At p) where
  lasting := lasting_of_outside fun _ o _ ⟨f, hsync, hp⟩ =>
    ⟨f, ⟨hsync.toKnown.outside o, hsync.entered.outside o⟩, hp⟩
  kept _ := fun ⟨_, hsync, _⟩ => hsync.toKnown.kept
  entered _ := fun ⟨_, hsync, _⟩ => hsync.entered

theorem Known.reads {f : UpgradeState} {facts : Facts} (h : Known s f)
    (hsame : facts.vars = s.facts.vars ∧ facts.state = s.facts.state ∧
      facts.phasesDone = s.facts.phasesDone) : Known { s with facts := facts } f :=
  ⟨h.file, hsame.2.1.trans h.state, hsame.2.2.trans h.done,
    h.owner.trans (congrArg Vars.playbook hsame.1.symm)⟩

theorem At.mono (h : At p s) (hpq : ∀ f, Synced s f → p s.facts f → q s.facts f) : At q s := by
  obtain ⟨f, hsync, hp⟩ := h
  exact ⟨f, hsync, hpq f hsync hp⟩

/-- A task that only reads leaves the state file and what is known of it. -/
theorem At.reads {facts : Facts} (h : At p s)
    (hsame : facts.vars = s.facts.vars ∧ facts.state = s.facts.state ∧
      facts.phasesDone = s.facts.phasesDone)
    (hpq : ∀ f, Synced s f → p s.facts f → q facts f) : At q { s with facts := facts } := by
  obtain ⟨f, hsync, hp⟩ := h
  exact ⟨f, ⟨hsync.toKnown.reads hsame, hsync.entered⟩, hpq f hsync hp⟩

theorem Synced.acts {f : UpgradeState} {node : Node} (h : Synced s f) (hlegal : Legal s.node node)
    (hfile : node.stateFile = s.node.stateFile) : Synced { s with node := node } f :=
  ⟨⟨hfile.trans h.file, h.state, h.done, h.owner⟩, h.entered.legal hlegal⟩

theorem At.acts {node : Node} (h : At p s) (hlegal : Legal s.node node)
    (hfile : node.stateFile = s.node.stateFile) : At p { s with node := node } := by
  obtain ⟨f, hsync, hp⟩ := h
  exact ⟨f, hsync.acts hlegal hfile, hp⟩

theorem runs_at_reads {f : Reply → Host → Facts}
    (hsame : ∀ s r, (f r s).vars = s.facts.vars ∧ (f r s).state = s.facts.state ∧
      (f r s).phasesDone = s.facts.phasesDone)
    (hpq : ∀ s r g, Ok s.node → Synced s g → p s.facts g → q (f r s) g) :
    Runs (At p) [reads f] (At q) :=
  runs_reads fun s r hok hs => hs.reads (hsame s r) fun g hg hp => hpq s r g hok hg hp

/-! ## Writing the state file -/

def Ready (q : Facts → UpgradeState → Prop) (s : Host) : Prop :=
  ∃ f, s.node.stateFile = some f ∧ Advance s.node f s.facts.state ∧
    s.facts.phasesDone = s.facts.state.phasesDone ∧
      stateOwner s.facts.state = s.facts.vars.playbook ∧ s.node.Entered ∧ q s.facts s.facts.state

theorem Node.loaded_outside {n : Node} (hok : Ok n) (h : n.Loaded) (o : Outside) :
    (o.act n).Loaded := by
  cases o with
  | dockerStarts => exact Node.loaded_startDocker n hok.past
  | nodeReboots => exact Node.loaded_startDocker n hok.past
  | maintenanceOn => exact h
  | maintenanceOff => exact h
  | time elapsed => exact h
  | rebootAsked => exact h

theorem rebooting_outside {n : Node} (hok : Ok n) (h : ¬ n.Loaded → n.rebootRequired = true)
    (o : Outside) : ¬ (o.act n).Loaded → (o.act n).rebootRequired = true := by
  intro hstale
  have hstale' : ¬ n.Loaded := fun hl => hstale (Node.loaded_outside hok hl o)
  cases o with
  | dockerStarts => exact absurd (Node.loaded_startDocker n hok.past) hstale
  | nodeReboots => exact absurd (Node.loaded_startDocker n hok.past) hstale
  | maintenanceOn => exact h hstale'
  | maintenanceOff => exact h hstale'
  | time elapsed => exact h hstale'
  | rebootAsked => rfl

theorem Verified.outside {n : Node} {f : UpgradeState} {ph : Phase} (hok : Ok n)
    (h : Verified n f ph) (o : Outside) : Verified (o.act n) f ph := by
  cases ph with
  | converged =>
    obtain ⟨hstarted, hhandled, d, hd, hstop, hrequired⟩ := h
    refine ⟨hstarted, ?_, d, hd, hstop, fun hstale => hrequired fun hl =>
      hstale (Node.loaded_outside hok hl o)⟩
    cases o <;> exact hhandled
  | dockerRestarted => exact rebooting_outside hok h o
  | rebooted => exact fun hp => Node.loaded_outside hok (h hp) o
  | held => trivial
  | recorded => trivial
  | stopped => trivial
  | packages => trivial
  | started => trivial
  | released => trivial

theorem Advance.outside {n : Node} {f f' : UpgradeState} (hok : Ok n) (h : Advance n f f')
    (o : Outside) : Advance (o.act n) f f' := by
  cases h with
  | phase ph hcont hdue hdone hd hconv hrel hverified =>
    exact .phase ph hcont hdue hdone hd hconv hrel (hverified.outside hok o)
  | amend hcont hdone hd hconv hrel => exact .amend hcont hdone hd hconv hrel

theorem Advance.continues {n : Node} {f f' : UpgradeState} (h : Advance n f f') :
    Continues f f' := by
  cases h with
  | phase ph hcont => exact hcont
  | amend hcont => exact hcont

instance : Under (Ready q) where
  lasting := lasting_of_outside fun s o hok ⟨f, hfile, hadv, hdone, howner, hentered, hq⟩ =>
    ⟨f, by cases o <;> exact hfile, hadv.outside hok o, hdone, howner, hentered.outside o, hq⟩
  entered _ := fun ⟨_, _, _, _, _, hentered, _⟩ => hentered
  kept s := by
    rintro ⟨f, hfile, hadv, hdone, -⟩ g hg
    cases hfile.symm.trans hg
    refine ⟨hadv.continues.convergeStarted, fun ph hph => ?_⟩
    rw [hdone]
    exact hadv.continues.done ph hph

theorem runs_save {X : Host → Prop} [Lasting X]
    (hX : ∀ s state, X s → X { s with node := s.node.save state }) :
    Runs (fun s => Ready q s ∧ X s) stateSave (fun s => At q s ∧ X s) := by
  refine runs_command.cons (runs_command.cons (runs_acts fun s r hok hs => ?_))
  obtain ⟨⟨f, hfile, hadv, hdone, howner, hentered, hq⟩, hx⟩ := hs
  have hwrite : writeState s = { s with node := s.node.save s.facts.state } := by
    rw [writeState, hfile]
  rw [hwrite]
  have hlegal : Legal s.node (s.node.save s.facts.state) := .save f _ hfile hadv
  exact ⟨hlegal, ⟨s.facts.state, ⟨⟨rfl, rfl, hdone, howner⟩, hentered.legal hlegal⟩, hq⟩,
    hX s _ hx⟩

theorem runs_stateSave : Runs (Ready q) stateSave (At q) :=
  (runs_save (X := fun _ => True) fun _ _ h => h).conseq (fun _ _ hs => ⟨hs, trivial⟩)
    (fun _ _ hs => hs.1) fun _ _ hs => hs

end Provisioner.NodeUpgrade
