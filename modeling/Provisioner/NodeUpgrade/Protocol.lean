import Mathlib.Data.List.Infix
import Mathlib.Data.List.Nodup
import Mathlib.Data.List.Perm.Subperm
import Provisioner.NodeUpgrade.Tasks

/-!
# The protocol of a state file

What a state file stands for: the phases it still has to go through, in order,
and what may be done to the node while a phase is due. `Legal` is every step
the role may take on a node; what always holds of a node follows from it
alone, whatever the playbooks do between the steps.
-/

namespace Provisioner.NodeUpgrade

open Tasks (reapplied foundIds)

/-! ## The phases of a state file -/

def stopPlan (restart : Bool) : List Phase :=
  [.recorded, .stopped, .packages] ++ (if restart then [.dockerRestarted] else []) ++
    [.rebooted, .started]

/-- The phases of a state file in their order. A maintained node's are known
once its decision is. -/
def plan (f : UpgradeState) : List Phase :=
  match stateOwner f with
  | .upgradeDocker => [.held] ++ stopPlan false ++ [.released]
  | .maintainNodes =>
    match f.decision with
    | none => [.held, .converged]
    | some d =>
      [.held, .converged] ++ (if d.stop then stopPlan d.dockerRestartRequired else []) ++
        [.released]

/-- `p` is the next phase to be done. -/
def Due (f : UpgradeState) (p : Phase) : Prop := f.phasesDone ++ [p] <+: plan f

section Lists

variable {α : Type} {l before after : List α} {p : α}

theorem eq_of_prefix_of_not_mem (h : l <+: before ++ p :: after) (hnodup : before.Nodup)
    (hbefore : before ⊆ l) (hp : p ∉ l) : l = before := by
  by_cases hlen : l.length ≤ before.length
  · have hpre : l <+: before := List.prefix_of_prefix_length_le h (List.prefix_append _ _) hlen
    have hsub : before.length ≤ l.length := (List.subperm_of_subset hnodup hbefore).length_le
    exact hpre.eq_of_length (by omega)
  · have hlong : before ++ [p] <+: l := by
      apply List.prefix_of_prefix_length_le _ h
      · simp only [List.length_append, List.length_singleton]
        omega
      · exact ⟨after, by simp⟩
    exact absurd (hlong.subset (List.mem_append_right _ List.mem_cons_self)) hp

theorem eq_of_append_prefix (h : l ++ [p] <+: before ++ p :: after)
    (hnodup : (before ++ p :: after).Nodup) : l = before := by
  have hl : p ∉ l := by
    intro hp
    have hn : (l ++ [p]).Nodup := hnodup.sublist h.sublist
    exact (List.nodup_append.mp hn).2.2 p hp p List.mem_cons_self rfl
  have hb : before.Nodup := (List.nodup_append.mp hnodup).1
  apply eq_of_prefix_of_not_mem ((List.prefix_append l [p]).trans h) hb _ hl
  intro q hq
  by_cases hlen : l.length < before.length
  · have hpre : l ++ [p] <+: before :=
      List.prefix_of_prefix_length_le h (List.prefix_append _ _)
        (by simp only [List.length_append, List.length_singleton]; omega)
    have hp : p ∈ before := hpre.subset (List.mem_append_right _ List.mem_cons_self)
    exact absurd rfl ((List.nodup_append.mp hnodup).2.2 p hp p List.mem_cons_self)
  · have hpre : before <+: l :=
      List.prefix_of_prefix_length_le (List.prefix_append _ _)
        ((List.prefix_append l [p]).trans h) (by omega)
    exact hpre.subset hq

theorem eq_of_prefix_of_last_mem (h : l <+: before ++ [p]) (hnodup : (before ++ [p]).Nodup)
    (hp : p ∈ l) : l = before ++ [p] := by
  by_cases hlen : l.length ≤ before.length
  · have hpre : l <+: before := List.prefix_of_prefix_length_le h (List.prefix_append _ _) hlen
    exact absurd rfl ((List.nodup_append.mp hnodup).2.2 p (hpre.subset hp) p List.mem_cons_self)
  · apply h.eq_of_length
    have hle := h.length_le
    simp only [List.length_append, List.length_singleton] at hle ⊢
    omega

end Lists

variable {f f' : UpgradeState} {p q : Phase} {d : Decision}

theorem plan_upgrade (h : stateOwner f = .upgradeDocker) :
    plan f = [.held] ++ stopPlan false ++ [.released] := by
  rw [plan, h]

theorem plan_undecided (h : stateOwner f = .maintainNodes) (hd : f.decision = none) :
    plan f = [.held, .converged] := by
  rw [plan, h, hd]

theorem plan_decided (h : stateOwner f = .maintainNodes) (hd : f.decision = some d) :
    plan f = [.held, .converged] ++ (if d.stop then stopPlan d.dockerRestartRequired else []) ++
      [.released] := by
  rw [plan, h, hd]

theorem plan_nodup (f : UpgradeState) : (plan f).Nodup := by
  cases howner : stateOwner f with
  | upgradeDocker =>
    rw [plan_upgrade howner]
    decide
  | maintainNodes =>
    cases hd : f.decision with
    | none =>
      rw [plan_undecided howner hd]
      decide
    | some d =>
      rw [plan_decided howner hd]
      cases d.stop <;> cases d.dockerRestartRequired <;> decide

theorem plan_shape (f : UpgradeState) :
    (stateOwner f = .maintainNodes ∧ f.decision = none ∧ plan f = [.held, .converged]) ∨
      ∃ l, plan f = l ++ [.released] := by
  cases howner : stateOwner f with
  | upgradeDocker => exact .inr ⟨_, plan_upgrade howner⟩
  | maintainNodes =>
    cases hd : f.decision with
    | none => exact .inl ⟨rfl, rfl, plan_undecided howner hd⟩
    | some d => exact .inr ⟨_, plan_decided howner hd⟩

theorem Due.mem (h : Due f p) : p ∈ plan f :=
  h.subset (List.mem_append_right _ List.mem_cons_self)

theorem Due.not_mem (h : Due f p) : p ∉ f.phasesDone := by
  intro hp
  have hnodup : (f.phasesDone ++ [p]).Nodup := (plan_nodup f).sublist h.sublist
  exact (List.nodup_append.mp hnodup).2.2 p hp p List.mem_cons_self rfl

theorem Due.before (h : Due f p) {before after : List Phase}
    (hplan : plan f = before ++ p :: after) : f.phasesDone = before := by
  apply eq_of_append_prefix
  · rw [← hplan]
    exact h
  · rw [← hplan]
    exact plan_nodup f

theorem Due.unique (h : Due f p) (h' : Due f q) : p = q := by
  have hlen : (f.phasesDone ++ [p]).length = (f.phasesDone ++ [q]).length := by simp
  have heq : f.phasesDone ++ [p] = f.phasesDone ++ [q] :=
    (List.prefix_of_prefix_length_le h h' hlen.le).eq_of_length hlen
  exact List.singleton_inj.mp (List.append_cancel_left heq)

theorem due_of_before {before after : List Phase} (hplanned : f.phasesDone <+: plan f)
    (hplan : plan f = before ++ p :: after) (hbefore : before ⊆ f.phasesDone)
    (hp : p ∉ f.phasesDone) : f.phasesDone = before ∧ Due f p := by
  have hnodup : before.Nodup := by
    have hn := plan_nodup f
    rw [hplan] at hn
    exact (List.nodup_append.mp hn).1
  have heq : f.phasesDone = before :=
    eq_of_prefix_of_not_mem (hplan ▸ hplanned) hnodup hbefore hp
  refine ⟨heq, ?_⟩
  rw [Due, heq, hplan]
  exact ⟨after, by simp⟩

theorem not_due_of_released (h : .released ∈ f.phasesDone) : ¬ Due f p := by
  intro hdue
  rcases plan_shape f with ⟨-, -, hplan⟩ | ⟨l, hplan⟩
  · have hmem : Phase.released ∈ plan f :=
      hdue.subset (List.mem_append_left _ h)
    rw [hplan] at hmem
    revert hmem
    decide
  · have hpre : f.phasesDone ++ [p] <+: l ++ [.released] := hplan ▸ hdue
    have heq : f.phasesDone = l ++ [.released] :=
      eq_of_prefix_of_last_mem ((List.prefix_append _ _).trans hpre) (hplan ▸ plan_nodup f) h
    have hlen := hpre.length_le
    rw [heq] at hlen
    simp at hlen

theorem stop_of_mem_plan (howner : stateOwner f = .maintainNodes) (hp : p ∈ plan f)
    (hwindow : p ≠ .held ∧ p ≠ .converged ∧ p ≠ .released) :
    ∃ d, f.decision = some d ∧ d.stop = true := by
  obtain ⟨hheld, hconverged, hreleased⟩ := hwindow
  cases hd : f.decision with
  | none =>
    rw [plan_undecided howner hd] at hp
    simp [hheld, hconverged] at hp
  | some d =>
    refine ⟨d, rfl, ?_⟩
    by_contra hstop
    rw [plan_decided howner hd, if_neg hstop] at hp
    simp [hheld, hconverged, hreleased] at hp

/-! ## What the role may do -/

namespace Node

def awaits (n : Node) (h : Handler) : Bool :=
  n.history.pending h && !(h = .nodeKernelReloadNetworkd && n.history.declined h)

def Handled (n : Node) : Prop := ∀ h ∈ reapplied, n.awaits h = false

theorem awaits_changed (n : Node) (handlers : List Handler) (files : List RestartFile)
    (h : Handler) :
    (n.changed handlers files).awaits h = (decide (h ∈ handlers) || n.awaits h) := by
  by_cases hmem : h ∈ handlers <;> simp [awaits, changed, hmem]

theorem awaits_handled (n : Node) (handler h : Handler) :
    (n.handled handler).awaits h = (decide (h ≠ handler) && n.awaits h) := by
  by_cases hsame : h = handler <;> simp [awaits, handled, hsame]

theorem awaits_declined {n : Node} {handler : Handler}
    (honly : handler ∈ reapplied → handler = .nodeKernelReloadNetworkd) {h : Handler}
    (hmem : h ∈ reapplied) (hawaits : (n.declined handler).awaits h = true) :
    h ≠ handler ∧ n.awaits h = true := by
  by_cases hsame : h = handler
  · subst hsame
    simp [awaits, declined, honly hmem] at hawaits
  · simpa [awaits, declined, hsame] using hawaits

def WrittenLoaded (n : Node) : Prop :=
  ∀ file t, n.history.written file = some t → seconds t ≤ n.dockerStarted.elim 0 seconds

def Clean (n : Node) : Prop := n.Handled ∧ n.WrittenLoaded

/-- The hold in place was put there by the run that opened the state file, or
by hand after that run had seen that there was none. -/
def Later (n : Node) (o : Origin) : Prop :=
  ∀ h, n.hold = some h → o.seen ≤ h.serial ∧ (h.holder = .byHand ∨ h.holder = .run o.run)

/-- The log ends with a fresh run seeing no hold and asking for one `k` times. -/
def Asked (n : Node) (k : ℕ) : Prop :=
  ∃ older, n.history.log = List.replicate k .on ++ .sawNone :: older

end Node

/-- What has to be true of the node when a phase is written down. -/
def Verified (n : Node) (f' : UpgradeState) : Phase → Prop
  | .converged => f'.convergeStarted = true ∧ n.Handled ∧
      ∃ d, f'.decision = some d ∧ (d.dockerRestartRequired = true → d.stop = true) ∧
        (¬ n.Loaded → d.dockerRestartRequired = true)
  | .dockerRestarted => ¬ n.Loaded → n.rebootRequired = true
  | .rebooted => .dockerRestarted ∈ f'.phasesDone → n.Loaded
  | _ => True

structure Continues (f f' : UpgradeState) : Prop where
  playbook : f'.playbook = f.playbook
  recorded : .recorded ∈ f.phasesDone → f'.recorded = f.recorded
  decision : .converged ∈ f.phasesDone → f'.decision = f.decision
  done : ∀ p ∈ f.phasesDone, p ∈ f'.phasesDone
  convergeStarted : f.convergeStarted = true → f'.convergeStarted = true
  releasing : f.releasing = true → f'.releasing = true

inductive Advance (n : Node) (f f' : UpgradeState) : Prop where
  | phase (p : Phase) : Continues f f' → Due f p → f'.phasesDone = f.phasesDone ++ [p] →
      (p ≠ .converged → f'.decision = f.decision) → f'.convergeStarted = f.convergeStarted →
      f'.releasing = f.releasing → Verified n f' p → Advance n f f'
  | amend : Continues f f' → f'.phasesDone = f.phasesDone → f'.decision = f.decision →
      (f'.convergeStarted = true → f.convergeStarted = true ∨ Due f .converged) →
      (f'.releasing = true → f.releasing = true ∨ Due f .released) → Advance n f f'

def stopRequest (f : UpgradeState) (ps : List Container) : List Text :=
  ((resolveRecorded f.recorded ps).filter Resolved.running).filterMap Resolved.currentId

/-- The ids of a start request: what of the recorded list is there, the
accepted ones last. -/
def startRequest (f : UpgradeState) (ps : List Container) (accepted : List Text) : List Text :=
  let split := partitionAccepted (resolveRecorded f.recorded ps) accepted
  foundIds split.required ++ foundIds split.accepted

inductive Legal (n : Node) : Node → Prop where
  | quiet : Legal n n
  | sawNone : n.stateFile = none → n.hold = none → Legal n (n.note .sawNone)
  | sawHeld : n.hold.isSome → Legal n (n.note .sawHeld)
  | foundHeld : n.hold.isSome → Legal n (n.note .foundHeld)
  | on (k number : ℕ) (n' : Node) : n.stateFile = none → n.Asked k →
      n' = n ∨ n' = n.place (.run number) → Legal n (n'.note .on)
  | opened (k : ℕ) (o : Origin) (book : Playbook) : n.stateFile = none → n.Asked (k + 1) →
      n.Later o → o.seen ≤ n.history.placed →
      Legal n ((n.openLife { playbook := some book, phasesDone := [.held] } o).note .opened)
  | save (f f' : UpgradeState) : n.stateFile = some f → Advance n f f' → Legal n (n.save f')
  | converge (f : UpgradeState) (n' : Node) : n.stateFile = some f → f.convergeStarted = true →
      Due f .converged → n' = n ∨ n' = n.askReboot ∨ (∃ hs fs, n' = n.changed hs fs) →
      Legal n (n'.note .converge)
  | handled (h : Handler) : Legal n (n.handled h)
  | declined (h : Handler) : (h ∈ reapplied → h = .nodeKernelReloadNetworkd) →
      Legal n (n.declined h)
  | stop (f : UpgradeState) (ps : List Container) : n.stateFile = some f → Due f .stopped →
      n.history.log.head? = some .sawHeld → Legal n (n.note (.stop (stopRequest f ps)))
  | packages (f : UpgradeState) (n' : Node) : n.stateFile = some f → Due f .packages →
      n' = n ∨ n' = n.askReboot ∨ n' = n.startDocker → Legal n (n'.note .packages)
  | dockerRestart (f : UpgradeState) : n.stateFile = some f → Due f .dockerRestarted →
      Legal n (n.startDocker.note .dockerRestart)
  | reboot (f : UpgradeState) : n.stateFile = some f → Due f .rebooted →
      Legal n (n.reboot.note .reboot)
  | start (f : UpgradeState) (ps : List Container) (accepted : List Text) :
      n.stateFile = some f → Due f .started →
      Legal n (n.note (.start (startRequest f ps accepted)))
  | releasing (f : UpgradeState) : n.stateFile = some f → Due f .released →
      Legal n (n.note .releasing)
  | off (f : UpgradeState) : n.stateFile = some f → Due f .released → f.releasing = true →
      Legal n (n.release.note .off)
  | autoOff (f : UpgradeState) (n' : Node) : n.stateFile = some f → f.phasesDone = [.held] →
      f.convergeStarted = false → n' = n ∨ n' = n.release → Legal n (n'.note .autoOff)
  | closed (f : UpgradeState) : n.stateFile = some f →
      .released ∈ f.phasesDone ∨ f.convergeStarted = false → Legal n (n.remove.note .closed)

/-! ## Past the hold step -/

/-- What a run only does to a node once it is past its hold step. -/
def Event.underHold : Event → Bool
  | .converge | .stop _ | .packages | .dockerRestart | .reboot | .start _ | .releasing | .off =>
    true
  | _ => false

def Rewrites (n n' : Node) : Prop :=
  ∃ f f', n.stateFile = some f ∧ n'.stateFile = some f' ∧ f' ≠ f

def Proceeds (n n' : Node) : Prop :=
  (∃ e : Event, e.underHold = true ∧ n'.history.log = e :: n.history.log) ∨ Rewrites n n'

/-- The run has taken the hold or found one at its hold step, or the state file
says that it has been given back. -/
def Node.Entered (n : Node) : Prop :=
  .opened ∈ n.run ∨ .foundHeld ∈ n.run ∨
    ∀ f, n.stateFile = some f → .released ∈ f.phasesDone ∨ f.releasing = true

theorem not_proceeds_self (n : Node) : ¬ Proceeds n n := by
  rintro (⟨e, -, hlog⟩ | ⟨f, f', hf, hf', hne⟩)
  · exact List.cons_ne_self _ _ hlog.symm
  · exact hne (Option.some.inj (hf'.symm.trans hf))

theorem not_proceeds_note {n n' : Node} {e : Event} (he : e.underHold = false)
    (hlog : n'.history.log = e :: n.history.log)
    (hfile : n'.stateFile = n.stateFile ∨ n'.stateFile = none ∨ n.stateFile = none) :
    ¬ Proceeds n n' := by
  rintro (⟨e', he', hlog'⟩ | ⟨f, f', hf, hf', hne⟩)
  · obtain ⟨rfl, -⟩ := List.cons.inj (hlog.symm.trans hlog')
    rw [he] at he'
    cases he'
  · rcases hfile with hsame | hnone | hnone
    · exact hne (Option.some.inj (hf'.symm.trans (hsame.trans hf)))
    · cases hf'.symm.trans hnone
    · cases hf.symm.trans hnone

theorem Node.Entered.same {n n' : Node} (hn : n.Entered) (hlog : n'.history.log = n.history.log)
    (hfile : n'.stateFile = n.stateFile) : n'.Entered := by
  rw [Entered, run, hlog, hfile]
  exact hn

theorem Node.Entered.noted {n n' : Node} {e : Event} (hn : n.Entered) (he : e ≠ .began)
    (hlog : n'.history.log = e :: n.history.log)
    (hfile : n'.stateFile = n.stateFile ∨ n'.stateFile = none) : n'.Entered := by
  have hrun : n'.run = e :: n.run := by
    rw [run, hlog, List.takeWhile_cons_of_pos (by simpa using he)]
    rfl
  rw [Entered, hrun]
  rcases hn with hopened | hfound | hgiven
  · exact .inl (List.mem_cons_of_mem _ hopened)
  · exact .inr (.inl (List.mem_cons_of_mem _ hfound))
  · refine .inr (.inr fun f hf => ?_)
    rcases hfile with hsame | hnone
    · exact hgiven f (hsame.symm.trans hf)
    · cases hf.symm.trans hnone

theorem Node.Entered.legal {n n' : Node} (hn : n.Entered) (h : Legal n n') : n'.Entered := by
  cases h with
  | quiet => exact hn
  | handled => exact hn.same rfl rfl
  | declined => exact hn.same rfl rfl
  | save f f' hf hadv =>
    rcases hn with hopened | hfound | hgiven
    · exact .inl hopened
    · exact .inr (.inl hfound)
    · refine .inr (.inr fun g hg => ?_)
      cases hg
      obtain hcont : Continues f f' := by cases hadv <;> assumption
      exact (hgiven f hf).imp (hcont.done _) hcont.releasing
  | opened k o book hnone hasked hlater hseen => exact .inl (by simp [Node.run, Node.note])
  | on k number n' hnone hasked hn' =>
    rcases hn' with rfl | rfl <;> exact hn.noted (by decide) rfl (.inl rfl)
  | converge f n' hf hstarted hdue hn' =>
    rcases hn' with rfl | rfl | ⟨handlers, files, rfl⟩ <;>
      exact hn.noted (by decide) rfl (.inl rfl)
  | packages f n' hf hdue hn' =>
    rcases hn' with rfl | rfl | rfl <;> exact hn.noted (by decide) rfl (.inl rfl)
  | autoOff f n' hf hdone hfresh hn' =>
    rcases hn' with rfl | rfl <;> exact hn.noted (by decide) rfl (.inl rfl)
  | closed f hf hend => exact hn.noted (by decide) rfl (.inr rfl)
  | stop f ps hf hdue hheld => exact hn.noted (by simp) rfl (.inl rfl)
  | start f ps accepted hf hdue => exact hn.noted (by simp) rfl (.inl rfl)
  | sawNone => exact hn.noted (by decide) rfl (.inl rfl)
  | sawHeld => exact hn.noted (by decide) rfl (.inl rfl)
  | foundHeld => exact hn.noted (by decide) rfl (.inl rfl)
  | dockerRestart => exact hn.noted (by decide) rfl (.inl rfl)
  | reboot => exact hn.noted (by decide) rfl (.inl rfl)
  | releasing => exact hn.noted (by decide) rfl (.inl rfl)
  | off => exact hn.noted (by decide) rfl (.inl rfl)

end Provisioner.NodeUpgrade
