import Provisioner.NodeUpgrade.Rules

/-!
# The stopped window and the release

Each task file that does a phase takes a state file where that phase is due to
one where it is done, by legal steps only.
-/

namespace Provisioner.NodeUpgrade

open Play (Stable)
open Tasks

structure Course where
  phases : List Phase
  book : Playbook
  decision : Option Decision

def Course.Holds (c : Course) (facts : Facts) (f : UpgradeState) : Prop :=
  plan f = c.phases ∧ facts.vars.playbook = c.book ∧ facts.maintainDecision = c.decision

variable {c : Course} {l : List Phase} {p : Phase}

def Next (c : Course) (l : List Phase) (p : Phase) (facts : Facts) (f : UpgradeState) : Prop :=
  c.Holds facts f ∧ f.phasesDone = l ∧ Due f p

def Finished (c : Course) (l : List Phase) (facts : Facts) (f : UpgradeState) : Prop :=
  c.Holds facts f ∧ f.phasesDone = l

/-! ## Marking a phase -/

/-- An update of the state file that comes with marking `p` done. -/
structure PlainUpdate (p : Phase) (update : Facts → UpgradeState → UpgradeState) : Prop where
  playbook : ∀ facts f, (update facts f).playbook = f.playbook
  recorded : ∀ facts f, p ≠ .recorded → (update facts f).recorded = f.recorded
  decision : ∀ facts f, (update facts f).decision = f.decision
  convergeStarted : ∀ facts f, (update facts f).convergeStarted = f.convergeStarted
  releasing : ∀ facts f, (update facts f).releasing = f.releasing

theorem plainUpdate_id (p : Phase) : PlainUpdate p fun _ state => state :=
  ⟨fun _ _ => rfl, fun _ _ _ => rfl, fun _ _ => rfl, fun _ _ => rfl, fun _ _ => rfl⟩

theorem Due.unique_append {f : UpgradeState} (h : Due f p) :
    Jinja.unique id (f.phasesDone ++ [p]) = f.phasesDone ++ [p] := by
  apply Jinja.unique_eq_self
  rw [List.map_id]
  exact (plan_nodup f).sublist h.sublist

theorem runs_phase {update : Facts → UpgradeState → UpgradeState} (hplain : PlainUpdate p update)
    {X : Host → Prop} [Lasting X]
    (hverified : ∀ s f f', Synced s f → f.phasesDone = l → X s →
      f'.phasesDone = l ++ [p] → Verified s.node f' p) :
    Runs (fun s => At (Next c l p) s ∧ X s) (statePhase p update) (At (Finished c (l ++ [p]))) := by
  apply Play.Triple.cons (M := Ready (Finished c (l ++ [p])))
  · apply runs_reads
    rintro s r - ⟨⟨f, hsync, hholds, hl, hdue⟩, hx⟩
    have hunique : Jinja.unique id (s.facts.state.phasesDone ++ [p]) = l ++ [p] := by
      rw [hsync.state, hdue.unique_append, hl]
    have hdone : (mark p update s.facts).state.phasesDone = l ++ [p] := hunique
    have hcont : Continues f (mark p update s.facts).state := by
      refine ⟨?_, fun hrec => ?_, fun _ => ?_, fun q hq => ?_, fun h => ?_, fun h => ?_⟩
      · exact (hplain.playbook _ _).trans (congrArg _ hsync.state)
      · have hne : p ≠ .recorded := fun heq => hdue.not_mem (heq ▸ hrec)
        exact (hplain.recorded _ _ hne).trans (congrArg _ hsync.state)
      · exact (hplain.decision _ _).trans (congrArg _ hsync.state)
      · rw [hdone, ← hl]
        exact List.mem_append_left _ hq
      · exact (hplain.convergeStarted _ _).trans ((congrArg _ hsync.state).trans h)
      · exact (hplain.releasing _ _).trans ((congrArg _ hsync.state).trans h)
    refine ⟨f, hsync.file, ?_, rfl, ?_, hsync.entered, ?_, hdone⟩
    · refine .phase p hcont hdue (hdone.trans (by rw [hl])) (fun _ => ?_) ?_ ?_
        (hverified s f _ hsync hl hx hdone)
      · exact (hplain.decision _ _).trans (congrArg _ hsync.state)
      · exact (hplain.convergeStarted _ _).trans (congrArg _ hsync.state)
      · exact (hplain.releasing _ _).trans (congrArg _ hsync.state)
    · exact hcont.owner.trans hsync.owner
    · have hd : (mark p update s.facts).state.decision = f.decision :=
        (hplain.decision _ _).trans (congrArg _ hsync.state)
      exact ⟨(plan_congr hcont.owner hd).trans hholds.1, hholds.2⟩
  · exact runs_stateSave

theorem runs_plain_phase {update : Facts → UpgradeState → UpgradeState}
    (hplain : PlainUpdate p update)
    (hp : p ≠ .converged ∧ p ≠ .dockerRestarted ∧ p ≠ .rebooted) :
    Runs (At (Next c l p)) (statePhase p update) (At (Finished c (l ++ [p]))) := by
  refine (runs_phase (X := fun _ => True) hplain ?_).pre fun _ _ hs => ⟨hs, trivial⟩
  intro s f f' _ _ _ _
  obtain ⟨hconverged, hrestarted, hrebooted⟩ := hp
  cases p with
  | converged => exact absurd rfl hconverged
  | dockerRestarted => exact absurd rfl hrestarted
  | rebooted => exact absurd rfl hrebooted
  | held => trivial
  | recorded => trivial
  | stopped => trivial
  | packages => trivial
  | started => trivial
  | released => trivial

/-! ## The hold check -/

def JustHeld (s : Host) : Prop := s.node.history.log.head? = some .sawHeld

instance : Lasting JustHeld := lasting_of_outside fun s o _ hs => by cases o <;> exact hs

theorem legal_readHoldCheck (r : Reply) (s : Host) :
    Legal s.node (readHoldCheck r s).node := by
  by_cases hdoc : (s.node.maintenanceStatus r).shape = .status ∧
      (s.node.maintenanceStatus r).held = true
  · simp only [readHoldCheck, if_pos hdoc]
    exact .sawHeld hdoc.2
  · simp only [readHoldCheck, if_neg hdoc]
    exact .quiet

theorem runs_holdCheck {P : Host → Prop} [Under P] (hP : ∀ s r, P s → P (readHoldCheck r s)) :
    Runs P holdCheck fun s => P s ∧ JustHeld s := by
  let Seen : Host → Prop := fun s =>
    s.facts.holdCheck.shape = .status ∧ s.facts.holdCheck.held = true → JustHeld s
  have : Lasting Seen := lasting_of_outside fun s o _ hs hdoc => by
    have hheld : JustHeld s := hs hdoc
    cases o <;> exact hheld
  apply Play.Triple.cons (M := fun s => P s ∧ Seen s)
  · refine runs_observes fun s r hok hs => ⟨legal_readHoldCheck r s, hP s r hs, fun hdoc => ?_⟩
    change (s.node.maintenanceStatus r).shape = .status ∧
      (s.node.maintenanceStatus r).held = true at hdoc
    simp only [JustHeld, readHoldCheck, if_pos hdoc]
    rfl
  · apply runs_gate
    rintro s - ⟨hs, hseen⟩ hc
    rw [Bool.and_eq_true, decide_eq_true_eq] at hc
    exact ⟨hs, hseen hc⟩

theorem At.readHoldCheck {q : Facts → UpgradeState → Prop}
    (hq : ∀ facts doc f, q facts f → q { facts with holdCheck := doc } f) {s : Host} (r : Reply)
    (hs : At q s) : At q (Tasks.readHoldCheck r s) := by
  have hfile : (Tasks.readHoldCheck r s).node.stateFile = s.node.stateFile := by
    simp only [Tasks.readHoldCheck]
    split <;> rfl
  have hlegal : Legal s.node (Tasks.readHoldCheck r s).node := legal_readHoldCheck r s
  have hread : At q { s with facts := { s.facts with holdCheck := s.node.maintenanceStatus r } } :=
    hs.reads ⟨rfl, rfl, rfl⟩ fun f _ h => hq _ _ f h
  exact hread.acts hlegal hfile

theorem runs_next_holdCheck :
    Runs (At (Next c l p)) holdCheck fun s => At (Next c l p) s ∧ JustHeld s :=
  runs_holdCheck fun _ r hs => hs.readHoldCheck (fun _ _ _ h => h) r

/-! ## The task files -/

theorem runs_record :
    Runs (At (Next c l .recorded)) record (At (Finished c (l ++ [.recorded]))) := by
  apply Play.Triple.cons (M := At (Next c l .recorded))
  · exact runs_at_reads (fun _ _ => ⟨rfl, rfl, rfl⟩) fun _ _ _ _ _ h => h
  · apply runs_plain_phase _ (by decide)
    exact ⟨fun _ _ => rfl, fun _ _ h => absurd rfl h, fun _ _ => rfl, fun _ _ => rfl,
      fun _ _ => rfl⟩

theorem runs_stop : Runs (At (Next c l .stopped)) stop (At (Finished c (l ++ [.stopped]))) := by
  let Requested : Facts → UpgradeState → Prop := fun facts f =>
    Next c l .stopped facts f ∧ ∃ ps, facts.stopIds = stopRequest f ps
  have hlist : Runs (fun s => At (Next c l .stopped) s ∧ JustHeld s) [list]
      (fun s => At (Next c l .stopped) s ∧ JustHeld s) :=
    runs_reads fun s r _ hs => ⟨hs.1.reads ⟨rfl, rfl, rfl⟩ fun _ _ h => h, hs.2⟩
  have hids : Runs (fun s => At (Next c l .stopped) s ∧ JustHeld s)
      [reads fun _ s =>
        { s.facts with stopIds := (runningRecorded s.facts).filterMap Resolved.currentId }]
      (fun s => At Requested s ∧ JustHeld s) := by
    refine runs_reads fun s r _ hs => ⟨hs.1.reads ⟨rfl, rfl, rfl⟩ fun f hsync h => ?_, hs.2⟩
    refine ⟨h, s.facts.ps, ?_⟩
    rw [stopRequest, ← hsync.state]
    rfl
  have hrequest : Runs (fun s => At Requested s ∧ JustHeld s)
      [.incl (fun s => !s.facts.stopIds.isEmpty) [command]]
      (fun s => At Requested s ∧ JustHeld s) :=
    .incl (runs_command.pre fun _ _ hs => hs.1) fun _ _ hs _ => hs
  have hstop : Runs (fun s => At Requested s ∧ JustHeld s)
      [.incl (fun s => !s.facts.stopIds.isEmpty)
        [acts fun _ s => { s with node := s.node.note (.stop s.facts.stopIds) }]]
      (At (Next c l .stopped)) := by
    apply Play.Triple.incl
    · refine Play.Triple.pre (P := fun s => At Requested s ∧ JustHeld s) (runs_acts ?_)
        fun _ _ hs => hs.1
      rintro s r - ⟨⟨f, hsync, hnext, ps, hps⟩, hheld⟩
      have hlegal : Legal s.node (s.node.note (.stop s.facts.stopIds)) := by
        rw [hps]
        exact .stop f ps hsync.file hnext.2.2 hheld
      exact ⟨hlegal, f, hsync.acts hlegal rfl, hnext⟩
    · exact fun s _ hs _ => hs.1.mono fun f _ h => h.1
  have hgate : Runs (At (Next c l .stopped)) [list, gate fun s => (runningRecorded s.facts).isEmpty]
      (At (Next c l .stopped)) := by
    apply Play.Triple.cons (M := At (Next c l .stopped))
    · exact runs_at_reads (fun _ _ => ⟨rfl, rfl, rfl⟩) fun _ _ _ _ _ h => h
    · exact runs_gate fun _ _ hs _ => hs
  refine (runs_next_holdCheck.append ?_).append
    (runs_plain_phase (plainUpdate_id _) (by decide))
  exact runs_command.cons (hlist.cons (hids.cons (hrequest.cons (hstop.cons hgate))))

theorem runs_osUpgrade {live : Bool} {P : Host → Prop} [Under P]
    (h : ∀ s n', Ok s.node → P s → n' = s.node ∨ n' = s.node.askReboot →
      Legal s.node (n'.note (if live then .converge else .packages)) ∧
        P { s with node := n'.note (if live then .converge else .packages) }) :
    Runs P (osUpgrade live) P := by
  refine runs_command.cons (Play.Triple.cons (M := P) ?_ ?_)
  · refine .incl (Play.Triple.pre (P := P) (runs_acts fun s r hok hs => ?_) fun _ _ hs => hs.1)
      fun _ _ hs _ => hs
    apply h s _ hok hs
    split
    · exact .inr rfl
    · exact .inl rfl
  · exact .incl (runs_command.pre fun _ _ hs => hs.1) fun _ _ hs _ => hs

theorem runs_packages :
    Runs (At (Next c l .packages)) packages (At (Finished c (l ++ [.packages]))) := by
  have hact : ∀ (s : Host) (n' : Node), At (Next c l .packages) s →
      n' = s.node ∨ n' = s.node.askReboot ∨ n' = s.node.startDocker →
        Legal s.node (n'.note .packages) ∧
          At (Next c l .packages) { s with node := n'.note .packages } := by
    intro s n' hs hn'
    obtain ⟨f, hsync, hnext⟩ := id hs
    have hlegal : Legal s.node (n'.note .packages) := .packages f n' hsync.file hnext.2.2 hn'
    refine ⟨hlegal, hs.acts hlegal ?_⟩
    rcases hn' with rfl | rfl | rfl <;> rfl
  have hos : Runs (At (Next c l .packages)) (osUpgrade false) (At (Next c l .packages)) :=
    runs_osUpgrade fun s n' _ hs hn' => hact s n' hs (hn'.imp_right .inl)
  have hinstall : Runs (At (Next c l .packages))
      [acts fun r s => { s with
        node := (if r.restartsDocker then s.node.startDocker else s.node).note .packages }]
      (At (Next c l .packages)) := by
    refine runs_acts fun s r _ hs => hact s _ hs ?_
    split
    · exact .inr (.inr rfl)
    · exact .inl rfl
  have hdrift : Runs (At (Next c l .packages))
      [reads fun r s => { s.facts with driftList := r.drift },
        gate fun s => s.facts.driftList.isEmpty] (At (Next c l .packages)) := by
    apply Play.Triple.cons (M := At (Next c l .packages))
    · exact runs_at_reads (fun _ _ => ⟨rfl, rfl, rfl⟩) fun _ _ _ _ _ h => h
    · exact runs_gate fun _ _ hs _ => hs
  refine (((runs_next_holdCheck.post fun _ _ hs => hs.1).append hos).append ?_).append
    (runs_plain_phase (plainUpdate_id _) (by decide))
  exact runs_command.cons (hinstall.cons (runs_command.cons hdrift))

def LeftToReboot (s : Host) : Prop :=
  s.facts.dockerRestartReboot = true → ¬ s.node.Loaded → s.node.rebootRequired = true

def LoadedOrReboot (s : Host) : Prop := ¬ s.node.Loaded → s.node.rebootRequired = true

instance : Lasting LoadedOrReboot :=
  lasting_of_outside fun _ o hok hs => rebooting_outside hok hs o

instance : Lasting LeftToReboot :=
  lasting_of_outside fun _ o hok hs hflag => rebooting_outside hok (hs hflag) o

theorem runs_dockerRestart :
    Runs (At (Next c l .dockerRestarted)) dockerRestart
      (At (Finished c (l ++ [.dockerRestarted]))) := by
  have hread : Runs (At (Next c l .dockerRestarted))
      [reads fun _ s => { s.facts with dockerRestartReboot := s.node.rebootRequired }]
      (fun s => At (Next c l .dockerRestarted) s ∧ LeftToReboot s) :=
    runs_reads fun s r _ hs => ⟨hs.reads ⟨rfl, rfl, rfl⟩ fun _ _ h => h, fun hflag _ => hflag⟩
  have hcheck : Runs (fun s => At (Next c l .dockerRestarted) s ∧ LeftToReboot s)
      [.incl (fun s => !s.facts.dockerRestartReboot) holdCheck]
      (fun s => At (Next c l .dockerRestarted) s ∧ LeftToReboot s) := by
    refine .incl ((runs_holdCheck ?_).conseq (fun _ _ hs => hs.1) (fun _ _ hs => hs.1)
      fun _ _ hs => hs) fun _ _ hs _ => hs
    rintro s r ⟨hs, hleft⟩
    refine ⟨hs.readHoldCheck (fun _ _ _ h => h) r, ?_⟩
    simp only [LeftToReboot, readHoldCheck]
    split <;> exact hleft
  have hrestart : Runs (fun s => At (Next c l .dockerRestarted) s ∧ LeftToReboot s)
      [.incl (fun s => !s.facts.dockerRestartReboot)
        [acts fun _ s => { s with node := s.node.startDocker.note .dockerRestart }]]
      (fun s => At (Next c l .dockerRestarted) s ∧ LoadedOrReboot s) := by
    apply Play.Triple.incl
    · refine Play.Triple.pre (P := At (Next c l .dockerRestarted)) (runs_acts ?_)
        fun _ _ hs => hs.1.1
      rintro s r hok hs
      obtain ⟨f, hsync, hnext⟩ := id hs
      have hlegal : Legal s.node (s.node.startDocker.note .dockerRestart) :=
        .dockerRestart f hsync.file hnext.2.2
      refine ⟨hlegal, hs.acts hlegal rfl, fun hstale => ?_⟩
      exact absurd (Node.loaded_startDocker s.node hok.past) hstale
    · rintro s - ⟨hs, hleft⟩ hflag
      exact ⟨hs, hleft (by simpa using hflag)⟩
  refine (hread.cons (hcheck.cons hrestart)).append (runs_phase (plainUpdate_id _) ?_)
  exact fun s f f' _ _ hx _ => hx

def NoRebootNeeded (s : Host) : Prop :=
  s.facts.rebootRequired = false → .dockerRestarted ∈ s.facts.state.phasesDone → s.node.Loaded

def RebootDone (s : Host) : Prop :=
  .dockerRestarted ∈ s.facts.state.phasesDone → s.node.Loaded

instance : Lasting NoRebootNeeded :=
  lasting_of_outside fun _ o hok hs hflag hp => Node.loaded_outside hok (hs hflag hp) o

instance : Lasting RebootDone :=
  lasting_of_outside fun _ o hok hs hp => Node.loaded_outside hok (hs hp) o

theorem runs_reboot : Runs (At (Next c l .rebooted)) reboot (At (Finished c (l ++ [.rebooted]))) := by
  have hread : Runs (At (Next c l .rebooted))
      [reads fun _ s => { s.facts with rebootRequired := s.node.rebootRequired }]
      (fun s => At (Next c l .rebooted) s ∧ NoRebootNeeded s) := by
    refine runs_reads fun s r hok hs => ⟨hs.reads ⟨rfl, rfl, rfl⟩ fun _ _ h => h, ?_⟩
    intro hflag hp
    obtain ⟨f, hsync, -⟩ := hs
    by_contra hstale
    have hp' : .dockerRestarted ∈ f.phasesDone := hsync.state ▸ hp
    have hreboot : s.node.rebootRequired = true :=
      ((hok.load f hsync.file).rebooting hp' hstale).1
    exact absurd (hreboot.symm.trans hflag) (by decide)
  have hcheck : Runs (fun s => At (Next c l .rebooted) s ∧ NoRebootNeeded s)
      [.incl (fun s => s.facts.rebootRequired) holdCheck]
      (fun s => At (Next c l .rebooted) s ∧ NoRebootNeeded s) := by
    refine .incl ((runs_holdCheck ?_).conseq (fun _ _ hs => hs.1) (fun _ _ hs => hs.1)
      fun _ _ hs => hs) fun _ _ hs _ => hs
    rintro s r ⟨hs, hneed⟩
    refine ⟨hs.readHoldCheck (fun _ _ _ h => h) r, ?_⟩
    simp only [NoRebootNeeded, readHoldCheck]
    split <;> exact hneed
  have hreboot : Runs (fun s => At (Next c l .rebooted) s ∧ NoRebootNeeded s)
      [.incl (fun s => s.facts.rebootRequired)
        [acts fun _ s => { s with node := s.node.reboot.note .reboot }]]
      (fun s => At (Next c l .rebooted) s ∧ RebootDone s) := by
    apply Play.Triple.incl
    · refine Play.Triple.pre (P := At (Next c l .rebooted)) (runs_acts ?_) fun _ _ hs => hs.1.1
      rintro s r hok hs
      obtain ⟨f, hsync, hnext⟩ := id hs
      have hlegal : Legal s.node (s.node.reboot.note .reboot) := .reboot f hsync.file hnext.2.2
      exact ⟨hlegal, hs.acts hlegal rfl, fun _ => Node.loaded_startDocker s.node hok.past⟩
    · rintro s - ⟨hs, hneed⟩ hflag
      exact ⟨hs, hneed hflag⟩
  refine (hread.cons (hcheck.cons hreboot)).append (runs_phase (plainUpdate_id _) ?_)
  intro s f f' hsync hl hx hdone hp
  rw [hdone, List.mem_append, List.mem_singleton, or_iff_left (by decide), ← hl, ← hsync.state]
    at hp
  exact hx hp

theorem runs_services : Runs (At (Next c l p)) services (At (Next c l p)) :=
  (runs_command.cons (runs_command.cons runs_command)).append
    (runs_next_holdCheck.post fun _ _ hs => hs.1)

def SplitOf (facts : Facts) (recorded : List Entry) : Prop :=
  ∃ ps, facts.startSplit =
    partitionAccepted (resolveRecorded recorded ps) facts.startAcceptedNames

/-- The accepted names are in the run's state, and not in the file yet. -/
def Amended (c : Course) (l : List Phase) (s : Host) : Prop :=
  ∃ f, s.node.stateFile = some f ∧
    s.facts.state = { f with acceptDown := s.facts.startAcceptedNames } ∧
      s.facts.phasesDone = f.phasesDone ∧ stateOwner f = s.facts.vars.playbook ∧
        Next c l .started s.facts f ∧ SplitOf s.facts f.recorded ∧
          (s.facts.startAcceptChanged = false → s.facts.startAcceptedNames = f.acceptDown) ∧
            s.node.Entered

instance : Point (Amended c l) where
  lasting := lasting_of_outside fun s o _ ⟨f, hfile, hstate, hdone, howner, hnext, hsplit, hsame, h⟩ =>
    ⟨f, by cases o <;> exact hfile, hstate, hdone, howner, hnext, hsplit, hsame, h.outside o⟩
  kept s := by
    rintro ⟨f, hfile, hstate, hdone, -⟩ g hg
    cases hfile.symm.trans hg
    rw [hstate, hdone]
    exact ⟨fun h => h, fun _ h => h⟩

theorem runs_start : Runs (At (Next c l .started)) start (At (Finished c (l ++ [.started]))) := by
  let Split : Facts → UpgradeState → Prop := fun facts f =>
    Next c l .started facts f ∧ SplitOf facts f.recorded
  have hlist : Runs (At (Next c l .started)) [list] (At (Next c l .started)) :=
    runs_at_reads (fun _ _ => ⟨rfl, rfl, rfl⟩) fun _ _ _ _ _ h => h
  have hwork : Runs (At (Next c l .started)) [reads fun _ s => workOutStart s.facts] (At Split) := by
    refine runs_at_reads (fun _ _ => ⟨rfl, rfl, rfl⟩) fun s r f _ hsync h => ⟨h, s.facts.ps, ?_⟩
    rw [← hsync.state]
    rfl
  have hremember : Runs (At Split) [reads fun _ s => rememberAccepted s.facts] (Amended c l) := by
    apply runs_reads
    rintro s r - ⟨f, hsync, hnext, hsplit⟩
    refine ⟨f, hsync.file, ?_, hsync.done, hsync.owner, hnext, hsplit, fun hsame => ?_,
      hsync.entered⟩
    · simp only [rememberAccepted, hsync.state]
    · simpa [rememberAccepted, hsync.state] using hsame
  have hsave : Runs (Amended c l) [.incl (fun s => s.facts.startAcceptChanged) stateSave]
      (At Split) := by
    apply Play.Triple.incl
    · refine runs_stateSave.pre ?_
      rintro s - ⟨⟨f, hfile, hstate, hdone, howner, hnext, hsplit, -, hentered⟩, -⟩
      refine ⟨f, hfile, ?_, ?_, ?_, hentered, ?_⟩ <;> rw [hstate]
      · refine .amend ⟨rfl, fun _ => rfl, fun _ => rfl, fun _ h => h, fun h => h, fun h => h⟩ rfl rfl
          .inl .inl
      · exact hdone
      · exact howner
      · exact ⟨hnext, hsplit⟩
    · rintro s - ⟨f, hfile, hstate, hdone, howner, hnext, hsplit, hsame, hentered⟩ hflag
      refine ⟨f, ⟨⟨hfile, ?_, hdone, howner⟩, hentered⟩, hnext, hsplit⟩
      rw [hstate, hsame hflag]
  have hstart : Runs (At Split)
      [acts fun _ s => { s with node := s.node.note (.start (startIds s.facts)) }]
      (At (Next c l .started)) := by
    apply runs_acts
    rintro s r - ⟨f, hsync, hnext, ps, hps⟩
    have hlegal : Legal s.node (s.node.note (.start (startIds s.facts))) := by
      rw [startIds, hps]
      exact .start f ps _ hsync.file hnext.2.2
    exact ⟨hlegal, f, hsync.acts hlegal rfl, hnext⟩
  have hgate : Runs (At (Next c l .started))
      [list, gate fun s => startGate s.facts.state.recorded s.facts.ps s.facts.startAcceptedNames]
      (At (Next c l .started)) :=
    hlist.cons (runs_gate fun _ _ hs _ => hs)
  exact (runs_command.cons (hlist.cons (hwork.cons (hremember.cons (hsave.cons
    (runs_command.cons (hstart.cons hgate))))))).append
      (runs_plain_phase (plainUpdate_id _) (by decide))

theorem runs_release : Runs (At (Next c l .released)) release (At (Finished c (l ++ [.released]))) := by
  let Releasing : Facts → UpgradeState → Prop := fun facts f =>
    Next c l .released facts f ∧ f.releasing = true
  have hnote : Runs (At (Next c l .released))
      [observes fun _ s =>
        { node := s.node.note .releasing
          facts := { s.facts with state := { s.facts.state with releasing := true } } }]
      (Ready Releasing) := by
    apply runs_observes
    rintro s r - ⟨f, hsync, hnext⟩
    have hlegal : Legal s.node (s.node.note .releasing) := .releasing f hsync.file hnext.2.2
    refine ⟨hlegal, f, hsync.file, ?_, ?_, ?_, hsync.entered.legal hlegal, ?_⟩
    · rw [hsync.state]
      exact .amend ⟨rfl, fun _ => rfl, fun _ => rfl, fun _ h => h, fun h => h, fun _ => rfl⟩ rfl rfl
        .inl fun _ => .inr hnext.2.2
    · rw [hsync.state]
      exact hsync.done
    · rw [hsync.state]
      exact hsync.owner
    · rw [hsync.state]
      exact ⟨hnext, rfl⟩
  have hoff : Runs (At Releasing) [acts fun _ s => { s with node := s.node.release.note .off }]
      (At (Next c l .released)) := by
    apply runs_acts
    rintro s r - ⟨f, hsync, hnext, hreleasing⟩
    have hlegal : Legal s.node (s.node.release.note .off) :=
      .off f hsync.file hnext.2.2 hreleasing
    exact ⟨hlegal, f, hsync.acts hlegal rfl, hnext⟩
  have hconfirm : Runs (At (Next c l .released))
      [reads fun r s => { s.facts with releaseStatus := s.node.maintenanceStatus r },
        gate fun s => s.facts.releaseStatus.controllerAcked && !s.facts.releaseStatus.paused]
      (At (Next c l .released)) := by
    apply Play.Triple.cons (M := At (Next c l .released))
    · exact runs_at_reads (fun _ _ => ⟨rfl, rfl, rfl⟩) fun _ _ _ _ _ h => h
    · exact runs_gate fun _ _ hs _ => hs
  exact ((hnote.append runs_stateSave).append (hoff.cons hconfirm)).append
    (runs_plain_phase (plainUpdate_id _) (by decide))

def NoFile (s : Host) : Prop := s.node.stateFile = none

instance : Under NoFile where
  lasting := lasting_of_outside fun s o _ hs => by cases o <;> exact hs
  kept _ hs _ hf := by cases hs.symm.trans hf
  entered _ hs := Node.entered_of_none hs

theorem runs_archive : Runs (At fun _ f => .released ∈ f.phasesDone) archive NoFile := by
  have hmove : Runs (At fun _ f => .released ∈ f.phasesDone) [acts fun _ s => setAside s]
      NoFile := by
    apply runs_acts
    rintro s r - ⟨f, hsync, hp⟩
    rw [show setAside s = { s with node := s.node.remove.note .closed } by
      rw [setAside, hsync.file]]
    exact ⟨.closed f hsync.file (.inl hp), rfl⟩
  exact hmove.cons (runs_command.cons (runs_command.cons runs_command))

end Provisioner.NodeUpgrade
