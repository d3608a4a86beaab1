import Provisioner.NodeUpgrade.Reach

/-!
# The order of the phases and the one decision

What every run keeps to of the order of its phases: when containers are
stopped and which, when they are started, and that nothing is disturbed any
more once the release has begun. A maintained node is decided on once.
-/

namespace Provisioner.NodeUpgrade

variable {n n' : Node} {f : UpgradeState} {p : Phase} {e : Event}

/-! ## What is done when a phase is due -/

theorem plan_of_window (hp : p ∈ plan f)
    (hwindow : p ≠ .held ∧ p ≠ .converged ∧ p ≠ .released) :
    ∃ first restart, plan f = first ++ stopPlan restart ++ [.released] ∧
      (first = [.held] ∨ first = [.held, .converged]) := by
  cases howner : stateOwner f with
  | upgradeDocker => exact ⟨_, _, plan_upgrade howner, .inl rfl⟩
  | maintainNodes =>
    obtain ⟨d, hd, hstop⟩ := stop_of_mem_plan howner hp hwindow
    refine ⟨_, d.dockerRestartRequired, ?_, .inr rfl⟩
    rw [plan_decided howner hd, if_pos hstop]

theorem Due.stopped (h : Due f .stopped) :
    .recorded ∈ f.phasesDone ∧ .packages ∉ f.phasesDone ∧ .started ∉ f.phasesDone := by
  obtain ⟨first, restart, hplan, hfirst⟩ := plan_of_window h.mem (by decide)
  have hdone : f.phasesDone = first ++ [.recorded] := by
    apply h.before
    rw [hplan, stopPlan]
    simp
    rfl
  rw [hdone]
  rcases hfirst with rfl | rfl <;> decide

theorem Due.started (h : Due f .started) : .recorded ∈ f.phasesDone := by
  obtain ⟨first, restart, hplan, -⟩ := plan_of_window h.mem (by decide)
  have hdone : f.phasesDone = first ++ [.recorded, .stopped, .packages] ++
      (if restart then [.dockerRestarted] else []) ++ [.rebooted] := by
    apply h.before
    rw [hplan, stopPlan]
    simp
    rfl
  rw [hdone]
  simp

theorem AtRelease.due (h : AtRelease f) (hp : Due f p) : p = .released := by
  rcases h with hdue | hreleased
  · exact hp.unique hdue
  · exact absurd hp (not_due_of_released hreleased)

/-! ## Steps that disturb the node -/

def Event.disturbs : Event → Option Phase
  | .stop _ => some .stopped
  | .packages => some .packages
  | .dockerRestart => some .dockerRestarted
  | .reboot => some .rebooted
  | _ => none

theorem due_of_disturbs (hguard : Guard n e) (he : e.disturbs = some p) :
    ∃ f, n.stateFile = some f ∧ Due f p := by
  cases e with
  | stop ids =>
    cases he
    obtain ⟨f, -, hf, hdue, -⟩ := hguard
    exact ⟨f, hf, hdue⟩
  | packages | dockerRestart | reboot =>
    cases he
    exact hguard
  | _ => cases he

theorem window_of_disturbs (he : e.disturbs = some p) :
    p ≠ .held ∧ p ≠ .converged ∧ p ≠ .released := by
  cases e <;> cases he <;> decide

/-! ## The order of the phases -/

structure PhaseOrder (n n' : Node) : Prop where
  in_order : ∀ f, n.stateFile = some f → stateOwner f = .upgradeDocker →
    f.phasesDone <+:
      [.held, .recorded, .stopped, .packages, .rebooted, .started, .released]
  sawHeld : Emits n n' .sawHeld → n.hold.isSome = true
  stop : ∀ ids, Emits n n' (.stop ids) → ∃ f ps, n.stateFile = some f ∧
    .recorded ∈ f.phasesDone ∧ .packages ∉ f.phasesDone ∧ .started ∉ f.phasesDone ∧
      n.history.log.head? = some .sawHeld ∧ ids = stopRequest f ps
  start : ∀ ids, Emits n n' (.start ids) → ∃ f ps accepted, n.stateFile = some f ∧
    .recorded ∈ f.phasesDone ∧ ids = startRequest f ps accepted
  releasing : .releasing ∈ n.life → ∀ e p, e.disturbs = some p → ¬ Emits n n' e

theorem PhaseOrder.ofGuard (hok : Ok n) (hguard : ∀ e, Emits n n' e → Guard n e) :
    PhaseOrder n n' where
  in_order f hf howner := by
    have hplanned := (hok.file f hf).planned
    rw [plan_upgrade howner] at hplanned
    exact hplanned
  sawHeld h := hguard _ h
  stop ids h := by
    obtain ⟨f, ps, hf, hdue, hheld, hids⟩ := hguard _ h
    obtain ⟨hrecorded, hpackages, hstarted⟩ := hdue.stopped
    exact ⟨f, ps, hf, hrecorded, hpackages, hstarted, hheld, hids⟩
  start ids h := by
    obtain ⟨f, ps, accepted, hf, hdue, hids⟩ := hguard _ h
    exact ⟨f, ps, accepted, hf, hdue.started, hids⟩
  releasing hreleasing e p he h := by
    obtain ⟨f, hf, hdue⟩ := due_of_disturbs (hguard e h) he
    have hp : p = .released := ((hok.life f hf).releasing hreleasing).due hdue
    exact (window_of_disturbs he).2.2 hp

def KeepsRecorded (n n' : Node) : Prop :=
  ∀ f f', n.stateFile = some f → n'.stateFile = some f' →
    n'.history.lives = n.history.lives → .recorded ∈ f.phasesDone → f'.recorded = f.recorded

theorem phase_order (start : Start) (moves later : List Move) (m : Move) :
    PhaseOrder (reach start moves) (reach start (moves ++ [m])) ∧
      KeepsRecorded (reach start moves) (reach start (moves ++ later)) := by
  constructor
  · exact .ofGuard (ok_reach start moves) fun e h => guard_of_emits h
  · intro f f' hf hf' hlives hrecorded
    exact (continues_reach hf hf' hlives).recorded hrecorded

/-! ## The decision -/

structure DecidesOnce (n n' : Node) : Prop where
  decided : ∀ f, n.stateFile = some f → stateOwner f = .maintainNodes →
    (.converged ∈ f.phasesDone ↔ f.decision.isSome = true)
  disturbs : ∀ e p, e.disturbs = some p → Emits n n' e → ∃ f, n.stateFile = some f ∧
    (stateOwner f = .maintainNodes → ∃ d, f.decision = some d ∧ d.stop = true)
  autoOff : Emits n n' .autoOff → .converge ∉ n.life

theorem DecidesOnce.ofGuard (hok : Ok n) (hguard : ∀ e, Emits n n' e → Guard n e) :
    DecidesOnce n n' where
  decided f hf := (hok.file f hf).decided
  disturbs e p he h := by
    obtain ⟨f, hf, hdue⟩ := due_of_disturbs (hguard e h) he
    exact ⟨f, hf, fun howner => stop_of_mem_plan howner hdue.mem (window_of_disturbs he)⟩
  autoOff h := by
    obtain ⟨f, hf, -, hfresh⟩ := hguard _ h
    intro hmem
    have hstarted : f.convergeStarted = true := (hok.life f hf).converge hmem
    rw [hfresh] at hstarted
    cases hstarted

def KeepsDecision (n n' : Node) : Prop :=
  ∀ f f', n.stateFile = some f → n'.stateFile = some f' →
    n'.history.lives = n.history.lives → .converged ∈ f.phasesDone →
      .converged ∈ f'.phasesDone ∧ f'.decision = f.decision

theorem decides_once (start : Start) (moves later : List Move) (m : Move) :
    DecidesOnce (reach start moves) (reach start (moves ++ [m])) ∧
      KeepsDecision (reach start moves) (reach start (moves ++ later)) := by
  constructor
  · exact .ofGuard (ok_reach start moves) fun e h => guard_of_emits h
  · intro f f' hf hf' hlives hconverged
    have hcont := continues_reach hf hf' hlives
    exact ⟨hcont.done _ hconverged, hcont.decision hconverged⟩

end Provisioner.NodeUpgrade
