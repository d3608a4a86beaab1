import Provisioner.NodeUpgrade.Maintain

/-!
# Runs on a node

Every state a node can reach by any runs of the two playbooks, each stopped
anywhere, with others acting on the node in between; what each step of such a
run may log, and what a state file keeps for its life.
-/

namespace Provisioner.NodeUpgrade

open Tasks

/-- A node before the first run: maybe held by hand, with files no later than now. -/
structure Start where
  held : Bool := false
  rebootRequired : Bool := false
  clock : ℕ := 0
  dockerStarted : Option ℕ := none
  restartFiles : RestartFile → Option ℕ := fun _ => none
  past : ∀ file t, restartFiles file = some t → t ≤ clock

def Start.node (start : Start) : Node :=
  { hold := if start.held then some ⟨.byHand, 0⟩ else none
    rebootRequired := start.rebootRequired
    clock := start.clock
    dockerStarted := start.dockerStarted
    restartFiles := start.restartFiles
    history := { placed := if start.held then 1 else 0 } }

abbrev Move := Play.Move Reply Vars Outside

def world (start : Start) (moves : List Move) : Play.World Host Reply :=
  system.run moves ⟨{ node := start.node }, []⟩

def reach (start : Start) (moves : List Move) : Node := (world start moves).state.node

theorem Start.ok (start : Start) : Ok start.node where
  past := start.past
  written _ _ h := by cases h
  seen _ hf := by cases hf
  idle _ := ⟨fun _ _ => rfl, fun _ _ h => by cases h⟩
  file _ hf := by cases hf
  life _ hf := by cases hf
  hold _ hf := by cases hf
  load _ hf := by cases hf

theorem good_world (start : Start) (moves : List Move) :
    Play.System.Good contract (world start moves) := by
  have hgood : Play.System.Good contract (⟨{ node := start.node }, []⟩ : Play.World Host Reply) :=
    ⟨start.ok, Play.safe_nil _⟩
  exact Play.System.good_run system_keeps hgood moves

theorem ok_reach (start : Start) (moves : List Move) : Ok (reach start moves) :=
  (good_world start moves).1

theorem world_append (start : Start) (moves later : List Move) :
    world start (moves ++ later) = system.run later (world start moves) :=
  List.foldl_append

/-! ## What a step may log -/

/-- The step from `n` to `n'` logs the event. -/
def Emits (n n' : Node) (e : Event) : Prop := n'.history.log = e :: n.history.log

/-- What has to hold of the node for an event to be logged. -/
def Guard (n : Node) : Event → Prop
  | .began => True
  | .sawNone => n.stateFile = none ∧ n.hold = none
  | .sawHeld | .foundHeld => n.hold.isSome = true
  | .on => n.stateFile = none ∧ ∃ k, n.Asked k
  | .opened => n.stateFile = none ∧ ∃ k, n.Asked (k + 1)
  | .converge => ∃ f, n.stateFile = some f ∧ f.convergeStarted = true ∧ Due f .converged
  | .stop ids => ∃ f ps, n.stateFile = some f ∧ Due f .stopped ∧
      n.history.log.head? = some .sawHeld ∧ ids = stopRequest f ps
  | .packages => ∃ f, n.stateFile = some f ∧ Due f .packages
  | .dockerRestart => ∃ f, n.stateFile = some f ∧ Due f .dockerRestarted
  | .reboot => ∃ f, n.stateFile = some f ∧ Due f .rebooted
  | .start ids => ∃ f ps accepted, n.stateFile = some f ∧ Due f .started ∧
      ids = startRequest f ps accepted
  | .releasing => ∃ f, n.stateFile = some f ∧ Due f .released
  | .off => ∃ f, n.stateFile = some f ∧ Due f .released
  | .autoOff => ∃ f, n.stateFile = some f ∧ f.phasesDone = [.held] ∧
      f.convergeStarted = false
  | .closed => ∃ f, n.stateFile = some f

theorem file_ofGuard {n : Node} {e : Event} (he : e.underHold = true) (h : Guard n e) :
    ∃ f, n.stateFile = some f := by
  cases e <;> simp only [Event.underHold, Bool.false_eq_true] at he <;>
    dsimp only [Guard] at h
  case converge | packages | dockerRestart | reboot | releasing | off =>
    obtain ⟨f, h⟩ := h
    first
      | exact ⟨f, h⟩
      | exact ⟨f, h.1⟩
  case stop | start =>
    obtain ⟨f, _, h⟩ := h
    first
      | exact ⟨f, h.1⟩
      | exact ⟨f, h.choose_spec.1⟩

theorem Legal.log {n n' : Node} (h : Legal n n') :
    n'.history.log = n.history.log ∨ ∃ e, Emits n n' e ∧ Guard n e := by
  cases h with
  | quiet => exact .inl rfl
  | save f f' hf hadv => exact .inl rfl
  | handled h => exact .inl rfl
  | declined h honly => exact .inl rfl
  | sawNone hnone hhold => exact .inr ⟨_, rfl, hnone, hhold⟩
  | sawHeld hhold => exact .inr ⟨_, rfl, hhold⟩
  | foundHeld hhold => exact .inr ⟨_, rfl, hhold⟩
  | on k number n' hnone hasked hn' =>
    refine .inr ⟨.on, ?_, hnone, k, hasked⟩
    rcases hn' with rfl | rfl <;> rfl
  | opened k o book hnone hasked hlater hseen => exact .inr ⟨_, rfl, hnone, k, hasked⟩
  | converge f n' hf hstarted hdue hn' =>
    refine .inr ⟨.converge, ?_, f, hf, hstarted, hdue⟩
    rcases hn' with rfl | rfl | ⟨handlers, files, rfl⟩ <;> rfl
  | stop f ps hf hdue hheld => exact .inr ⟨_, rfl, f, ps, hf, hdue, hheld, rfl⟩
  | packages f n' hf hdue hn' =>
    refine .inr ⟨.packages, ?_, f, hf, hdue⟩
    rcases hn' with rfl | rfl | rfl <;> rfl
  | dockerRestart f hf hdue => exact .inr ⟨_, rfl, f, hf, hdue⟩
  | reboot f hf hdue => exact .inr ⟨_, rfl, f, hf, hdue⟩
  | start f ps accepted hf hdue => exact .inr ⟨_, rfl, f, ps, accepted, hf, hdue, rfl⟩
  | releasing f hf hdue => exact .inr ⟨_, rfl, f, hf, hdue⟩
  | off f hf hdue hreleasing => exact .inr ⟨_, rfl, f, hf, hdue⟩
  | autoOff f n' hf hdone hfresh hn' =>
    refine .inr ⟨.autoOff, ?_, f, hf, hdone, hfresh⟩
    rcases hn' with rfl | rfl <;> rfl
  | closed f hf hend => exact .inr ⟨_, rfl, f, hf⟩

/-- Whatever the next move is, what it logs was allowed. -/
theorem guard_of_emits {start : Start} {moves : List Move} {m : Move} {e : Event}
    (h : Emits (reach start moves) (reach start (moves ++ [m])) e) :
    Guard (reach start moves) e := by
  have hchange := Play.System.step_change (S := system) (good_world start moves) m
  have hnext : reach start (moves ++ [m]) = (system.step (world start moves) m).state.node := by
    rw [reach, world_append]
    rfl
  rw [hnext] at h
  have hsame : ∀ s' : Host, s'.node.history.log = (world start moves).state.node.history.log →
      ¬ Emits (reach start moves) s'.node e := by
    intro s' hlog hemits
    rw [Emits, hlog] at hemits
    exact List.cons_ne_self _ _ hemits.symm
  have hsole : ∀ (s' : Host) (e' : Event), Emits (reach start moves) s'.node e' →
      Emits (reach start moves) s'.node e → e = e' := by
    intro s' e' hemits' hemits
    have hcons : e :: _ = e' :: _ := hemits.symm.trans hemits'
    exact (List.cons.inj hcons).1
  generalize (system.step (world start moves) m).state = s' at h hchange
  cases hchange with
  | same => exact absurd h (hsame _ rfl)
  | boot vars =>
    have hbegan : Emits (reach start moves) (boot vars (world start moves).state).node .began := rfl
    rw [hsole _ .began hbegan h]
    trivial
  | outside o => exact absurd h (hsame _ (by cases o <;> rfl))
  | play hguar =>
    rcases hguar.1.log with hlog | ⟨e', hemits, hguard⟩
    · exact absurd h (hsame _ hlog)
    · rw [hsole _ e' hemits h]
      exact hguard

/-- Whatever the next move is, it goes on only past the hold step. -/
theorem entered_of_proceeds {start : Start} {moves : List Move} {m : Move}
    (h : Proceeds (reach start moves) (reach start (moves ++ [m]))) :
    (reach start moves).Entered := by
  have hchange := Play.System.step_change (S := system) (good_world start moves) m
  have hnext : reach start (moves ++ [m]) = (system.step (world start moves) m).state.node := by
    rw [reach, world_append]
    rfl
  rw [hnext] at h
  generalize (system.step (world start moves) m).state = s' at h hchange
  cases hchange with
  | same => exact absurd h (not_proceeds_self _)
  | boot vars => exact absurd h (not_proceeds_note (e := .began) rfl rfl (.inl rfl))
  | outside o =>
    rcases h with ⟨e, -, hlog⟩ | ⟨f, f', hf, hf', hne⟩
    · have hsame : (o.act (reach start moves)).history.log = (reach start moves).history.log := by
        cases o <;> rfl
      exact absurd (hsame.symm.trans hlog).symm (List.cons_ne_self _ _)
    · have hsame : (o.act (reach start moves)).stateFile = (reach start moves).stateFile := by
        cases o <;> rfl
      exact absurd (Option.some.inj (hf'.symm.trans (hsame.trans hf))) hne
  | play hguar => exact hguar.2 h

/-! ## The life of a state file -/

theorem Continues.refl (f : UpgradeState) : Continues f f :=
  ⟨rfl, fun _ => rfl, fun _ => rfl, fun _ h => h, fun h => h, fun h => h⟩

theorem Continues.trans {f g h : UpgradeState} (hfg : Continues f g) (hgh : Continues g h) :
    Continues f h where
  playbook := hgh.playbook.trans hfg.playbook
  recorded hp := (hgh.recorded (hfg.done _ hp)).trans (hfg.recorded hp)
  decision hp := (hgh.decision (hfg.done _ hp)).trans (hfg.decision hp)
  done p hp := hgh.done p (hfg.done p hp)
  convergeStarted hs := hgh.convergeStarted (hfg.convergeStarted hs)
  releasing hs := hgh.releasing (hfg.releasing hs)

def LifeFrom (lives : ℕ) (f : UpgradeState) (n : Node) : Prop :=
  lives ≤ n.history.lives ∧
    (n.history.lives = lives → ∀ f', n.stateFile = some f' → Continues f f')

theorem LifeFrom.keep {lives : ℕ} {f : UpgradeState} {n n' : Node} (h : LifeFrom lives f n)
    (hlives : n'.history.lives = n.history.lives) (hfile : n'.stateFile = n.stateFile) :
    LifeFrom lives f n' := by
  rw [LifeFrom, hlives, hfile]
  exact h

theorem LifeFrom.legal {lives : ℕ} {f : UpgradeState} {n n' : Node} (h : LifeFrom lives f n)
    (hlegal : Legal n n') : LifeFrom lives f n' := by
  cases hlegal with
  | quiet => exact h
  | save g f' hg hadv =>
    refine ⟨h.1, fun hlives f'' hf'' => ?_⟩
    cases hf''
    exact (h.2 hlives g hg).trans hadv.continues
  | opened k o book hnone hasked hlater hseen =>
    refine ⟨h.1.trans (Nat.le_succ _), fun hlives => ?_⟩
    have hle := h.1
    change n.history.lives + 1 = lives at hlives
    omega
  | closed g hg hend => exact ⟨h.1, fun _ _ hf' => (nomatch hf')⟩
  | on k number n' hnone hasked hn' => rcases hn' with rfl | rfl <;> exact h.keep rfl rfl
  | converge g n' hg hstarted hdue hn' =>
    rcases hn' with rfl | rfl | ⟨handlers, files, rfl⟩ <;> exact h.keep rfl rfl
  | packages g n' hg hdue hn' => rcases hn' with rfl | rfl | rfl <;> exact h.keep rfl rfl
  | autoOff g n' hg hdone hfresh hn' => rcases hn' with rfl | rfl <;> exact h.keep rfl rfl
  | sawNone => exact h.keep rfl rfl
  | sawHeld => exact h.keep rfl rfl
  | foundHeld => exact h.keep rfl rfl
  | handled => exact h.keep rfl rfl
  | declined => exact h.keep rfl rfl
  | stop => exact h.keep rfl rfl
  | dockerRestart => exact h.keep rfl rfl
  | reboot => exact h.keep rfl rfl
  | start => exact h.keep rfl rfl
  | releasing => exact h.keep rfl rfl
  | off => exact h.keep rfl rfl

/-- A state file that is still the same one later has only been continued. -/
theorem continues_reach {start : Start} {moves later : List Move} {f f' : UpgradeState}
    (hf : (reach start moves).stateFile = some f)
    (hf' : (reach start (moves ++ later)).stateFile = some f')
    (hlives : (reach start (moves ++ later)).history.lives = (reach start moves).history.lives) :
    Continues f f' := by
  have hlife : LifeFrom (reach start moves).history.lives f (reach start (moves ++ later)) := by
    have hrun : reach start (moves ++ later) =
        (system.run later (world start moves)).state.node := by rw [reach, world_append]
    rw [hrun]
    refine Play.System.run_induction (R := fun s => LifeFrom _ f s.node) system_keeps
      (good_world start moves) ?_ ⟨le_refl _, fun _ g hg => ?_⟩ later
    · intro s s' _ hchange h
      cases hchange with
      | same => exact h
      | boot b => exact h
      | outside o => cases o <;> exact h
      | play hguar => exact h.legal hguar.1
    · cases hf.symm.trans hg
      exact Continues.refl f
  exact hlife.2 hlives f' hf'

end Provisioner.NodeUpgrade
