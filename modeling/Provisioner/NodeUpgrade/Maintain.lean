import Provisioner.NodeUpgrade.Cycles

/-!
# The maintained node

The converge phase notes every handler that a change left to run, loads or
records what dockerd has to load, and writes its decision down once; the rest
of the run follows that decision.
-/

namespace Provisioner.NodeUpgrade

open Play (Stable)
open Tasks

variable {c : Course}

/-! ## The converge -/

def Converging (facts : Facts) (f : UpgradeState) : Prop :=
  Unused .maintainNodes facts f ∧ Due f .converged ∧ f.convergeStarted = true

def Noted (s : Host) : Prop :=
  ∀ h ∈ reapplied, s.node.awaits h = true → h ∈ s.facts.notified

def NotedUnlessResumed (s : Host) : Prop := s.facts.convergeResumed = false → Noted s

def AllHandled (s : Host) : Prop := s.node.Handled

instance : Lasting Noted := lasting_of_outside fun s o _ hs => by cases o <;> exact hs

instance : Lasting NotedUnlessResumed := lasting_of_outside fun s o _ hs => by cases o <;> exact hs

instance : Lasting AllHandled := lasting_of_outside fun s o _ hs => by cases o <;> exact hs

theorem noted_of_handled {s : Host} (h : s.node.Handled) : Noted s := by
  intro handler hmem hawaits
  rw [h handler hmem] at hawaits
  cases hawaits

theorem mem_notify {handlers : List Handler} {facts : Facts} {h : Handler} :
    h ∈ (notify handlers facts).notified ↔ h ∈ facts.notified ∨ h ∈ handlers := by
  simp only [notify, List.mem_append, List.mem_filter, decide_eq_true_eq]
  constructor
  · exact Or.imp_right And.left
  · rintro (h' | h')
    · exact .inl h'
    · by_cases hmem : h ∈ facts.notified
      · exact .inl hmem
      · exact .inr ⟨h', hmem⟩

theorem Noted.convergeTask {s : Host} (hs : Noted s) (role : Role) (r : Reply) :
    Noted (Tasks.convergeTask role r s) := by
  intro h hmem hawaits
  change h ∈ (notify (notifiedBy role r) s.facts).notified
  change (s.node.changed (notifiedBy role r) (writtenBy role r)).awaits h = true at hawaits
  rw [Node.awaits_changed, Bool.or_eq_true, decide_eq_true_eq] at hawaits
  rw [mem_notify]
  rcases hawaits with hnotified | hawaits
  · exact .inr hnotified
  · exact .inl (hs h hmem hawaits)

theorem runs_includeRole (role : Role) :
    Runs (fun s => At Converging s ∧ NotedUnlessResumed s) [includeRole role]
      (fun s => At Converging s ∧ NotedUnlessResumed s) := by
  apply runs_retries
  rintro s r - ⟨hs, hnoted⟩
  obtain ⟨f, hsync, hconverging⟩ := id hs
  have hread : At Converging { s with facts := notify (notifiedBy role r) s.facts } :=
    hs.reads ⟨rfl, rfl, rfl⟩ fun _ _ h => h
  have hlegal : Legal s.node (convergeTask role r s).node :=
    .converge f _ hsync.file hconverging.2.2 hconverging.2.1 (.inr (.inr ⟨_, _, rfl⟩))
  have hat : At Converging (convergeTask role r s) := hread.acts hlegal rfl
  have hpost : At Converging (convergeTask role r s) ∧
      NotedUnlessResumed (convergeTask role r s) :=
    ⟨hat, fun hresumed => (hnoted hresumed).convergeTask role r⟩
  exact ⟨hlegal, hpost, hpost⟩

theorem runs_maintainConverge :
    Runs (fun s => At Converging s ∧ NotedUnlessResumed s) maintainConverge
      (fun s => At Converging s ∧ NotedUnlessResumed s) := by
  have hwhen : ∀ (cond : Host → Bool) (role : Role),
      Runs (fun s => At Converging s ∧ NotedUnlessResumed s) [.incl cond [includeRole role]]
        (fun s => At Converging s ∧ NotedUnlessResumed s) :=
    fun cond role => .incl ((runs_includeRole role).pre fun _ _ hs => hs.1) fun _ _ hs _ => hs
  exact (runs_includeRole _).cons ((runs_includeRole _).cons ((hwhen _ _).cons
    ((hwhen _ _).cons ((runs_includeRole _).cons ((runs_includeRole _).cons
      ((runs_includeRole _).cons ((runs_includeRole _).cons ((runs_includeRole _).cons
        ((runs_includeRole _).cons (runs_includeRole _))))))))))

/-! ## The handlers -/

theorem when_of_reapplied {vars : Vars} {h : Handler} (hwhen : h.when vars = false) :
    h ∈ reapplied → h = .nodeKernelReloadNetworkd := by
  intro hmem
  cases h with
  | dockerTlsRestartDocker => exact absurd hmem (by decide)
  | nodeKernelReloadNetworkd => rfl
  | _ => cases hwhen

theorem legal_runHandler (h : Handler) (s : Host) : Legal s.node (runHandler h s).node := by
  rw [runHandler]
  dsimp only
  split
  · exact .handled h
  · rename_i hwhen
    exact .declined h (when_of_reapplied (by simpa using hwhen))

theorem awaits_runHandler {h h' : Handler} {s : Host} (hmem : h' ∈ reapplied)
    (hawaits : (runHandler h s).node.awaits h' = true) : h' ≠ h ∧ s.node.awaits h' = true := by
  rw [runHandler] at hawaits
  dsimp only at hawaits
  split at hawaits
  · rwa [Node.awaits_handled, Bool.and_eq_true, decide_eq_true_eq] at hawaits
  · rename_i hwhen
    exact Node.awaits_declined (when_of_reapplied (by simpa using hwhen)) hmem hawaits

theorem runs_flush {P Q : Host → Prop} [Under P]
    (hstep : ∀ s h, P s → h ∈ s.facts.notified →
      P { node := (runHandler h s).node
          facts := { (runHandler h s).facts with
            notified := (runHandler h s).facts.notified.erase h } })
    (hdone : ∀ s, P s → s.facts.notified = [] → Q s) : Runs P [flushHandlers] Q := by
  apply Play.Triple.task
  intro s r _ hs
  by_cases hnil : s.facts.notified = []
  · have hget : s.facts.notified[r.pick % s.facts.notified.length]? = none := by simp [hnil]
    simp only [hget]
    exact ⟨contract.guar_refl s, hdone s hs hnil⟩
  · have hlt : r.pick % s.facts.notified.length < s.facts.notified.length :=
      Nat.mod_lt _ (List.length_pos_iff.mpr hnil)
    have hget := List.getElem?_eq_getElem hlt
    have hmem := List.getElem_mem hlt
    simp only [hget]
    cases r.outcome with
    | failed => exact ⟨contract.guar_refl s, Point.kept s hs⟩
    | ok => exact ⟨⟨legal_runHandler _ s, fun _ => Under.entered s hs⟩, hstep s _ hs hmem⟩
    | again => exact ⟨⟨legal_runHandler _ s, fun _ => Under.entered s hs⟩, hstep s _ hs hmem⟩

theorem runHandler_same (h : Handler) (s : Host) :
    (runHandler h s).facts.vars = s.facts.vars ∧ (runHandler h s).facts.state = s.facts.state ∧
      (runHandler h s).facts.phasesDone = s.facts.phasesDone := by
  rw [runHandler]
  dsimp only
  split <;> exact ⟨rfl, rfl, rfl⟩

theorem runHandler_decision (h : Handler) (s : Host) :
    (runHandler h s).facts.maintainDecision = s.facts.maintainDecision ∧
      (runHandler h s).facts.notified = s.facts.notified := by
  rw [runHandler]
  dsimp only
  split <;> exact ⟨rfl, rfl⟩

theorem At.handled {q : Facts → UpgradeState → Prop}
    (hq : ∀ facts facts' f, facts'.vars = facts.vars →
      facts'.maintainDecision = facts.maintainDecision → q facts f → q facts' f)
    {s : Host} (h : Handler) (hs : At q s) :
    At q { node := (runHandler h s).node
           facts := { (runHandler h s).facts with
             notified := (runHandler h s).facts.notified.erase h } } := by
  obtain ⟨hvars, hstate, hdone⟩ := runHandler_same h s
  have hread : At q { s with facts := { (runHandler h s).facts with
      notified := (runHandler h s).facts.notified.erase h } } :=
    hs.reads ⟨hvars, hstate, hdone⟩ fun f _ hf => hq _ _ f hvars (runHandler_decision h s).1 hf
  refine hread.acts (legal_runHandler h s) ?_
  rw [runHandler]
  dsimp only
  split <;> rfl

theorem runs_converge_handlers :
    Runs (fun s => At Converging s ∧ Noted s) [flushHandlers]
      (fun s => At Converging s ∧ AllHandled s) := by
  apply runs_flush
  · rintro s h ⟨hs, hnoted⟩ hmem
    refine ⟨hs.handled (fun facts facts' f hvars hdecision hf => ?_) h, ?_⟩
    · exact ⟨⟨(congrArg Vars.playbook hvars).trans hf.1.1, hdecision.trans hf.1.2⟩, hf.2⟩
    · intro h' hmem' hawaits
      obtain ⟨hother, hwas⟩ := awaits_runHandler hmem' hawaits
      simp only [(runHandler_decision h s).2]
      exact (List.mem_erase_of_ne hother).mpr (hnoted h' hmem' hwas)
  · rintro s ⟨hs, hnoted⟩ hnil
    refine ⟨hs, fun h hmem => ?_⟩
    cases hawaits : s.node.awaits h with
    | false => rfl
    | true =>
      have hnotified := hnoted h hmem hawaits
      rw [hnil] at hnotified
      cases hnotified

/-! ## The decision -/

/-- The start of dockerd the run has read is not later than the last one. -/
def ReadStart (s : Host) : Prop :=
  ∃ started, s.facts.dockerStartedLines = systemctlShow started ∧
    ∀ file, s.node.Stale file →
      ∃ t, s.node.restartFiles file = some t ∧ started.elim 0 seconds < seconds t

def ReadFiles (s : Host) : Prop := ReadStart s ∧ s.facts.restartStats = restartStats s.node

/-- The decision asks for a restart wherever one is needed. -/
def Decided (s : Host) : Prop :=
  ∃ d, s.facts.maintainDecision = some d ∧
    (d.dockerRestartRequired = true → d.stop = true) ∧
      (¬ s.node.Loaded → d.dockerRestartRequired = true)

theorem stale_of_outside {n : Node} (hok : Ok n) (o : Outside) {file : RestartFile}
    (h : (o.act n).Stale file) : n.Stale file := by
  cases o with
  | dockerStarts => exact absurd h (Node.loaded_startDocker n hok.past file)
  | nodeReboots => exact absurd h (Node.loaded_startDocker n hok.past file)
  | maintenanceOn => exact h
  | maintenanceOff => exact h
  | time elapsed => exact h
  | rebootAsked => exact h

theorem restartFiles_outside (n : Node) (o : Outside) :
    (o.act n).restartFiles = n.restartFiles := by
  cases o <;> rfl

instance : Lasting ReadStart := lasting_of_outside fun s o hok ⟨started, hlines, hstale⟩ => by
  refine ⟨started, hlines, fun file hfile => ?_⟩
  simp only [restartFiles_outside]
  exact hstale file (stale_of_outside hok o hfile)

instance : Lasting ReadFiles := lasting_of_outside fun s o hok ⟨hstart, hstats⟩ => by
  refine ⟨(inferInstance : Lasting ReadStart).stable s _ hok ⟨o, rfl⟩ hstart, ?_⟩
  simp only [restartStats, restartFiles_outside]
  exact hstats

instance : Lasting Decided :=
  lasting_of_outside fun _ o hok ⟨d, hd, hstop, hrequired⟩ =>
    ⟨d, hd, hstop, fun hstale => hrequired fun hl => hstale (Node.loaded_outside hok hl o)⟩

theorem strip_newerReason (path : Text) : Text.strip (newerReason path) ≠ [] := by
  have hmem : 'i' ∈ newerReason path := List.mem_append_right _ (by decide)
  exact Text.strip_ne_nil hmem (by decide)

theorem decided_of_read {s : Host} (hs : ReadFiles s) :
    Decided { s with facts := { s.facts with
      maintainDecision := some (maintainDecide (decisionInputs s.facts)) } } := by
  refine ⟨_, rfl, stop_of_restart_required, fun hstale => ?_⟩
  obtain ⟨⟨started, hlines, hread⟩, hstats⟩ := hs
  simp only [Node.Loaded, not_forall, not_not] at hstale
  obtain ⟨file, hfile⟩ := hstale
  obtain ⟨t, ht, hlt⟩ := hread file hfile
  have hnewer : file.path ∈ filesNewerThan s.facts.restartStats
      (systemdUnixTs s.facts.dockerStartedLines) := by
    rw [mem_filesNewerThan, hstats, hlines, systemdUnixTs_show]
    refine ⟨⟨file.path, (s.node.restartFiles file).isSome,
      (s.node.restartFiles file).getD 0⟩, ?_, ?_, ?_, rfl⟩
    · exact List.mem_map.mpr ⟨file, mem_dockerTlsRestartFiles file, rfl⟩
    · simp only [ht, Option.isSome_some]
    · simpa only [ht, Option.getD_some] using hlt
  apply restart_required (r := newerReason file.path) _ (strip_newerReason _)
  exact List.mem_append_right _ (List.mem_map_of_mem hnewer)

def Deciding (facts : Facts) (f : UpgradeState) : Prop :=
  facts.vars.playbook = .maintainNodes ∧ Due f .converged ∧ f.convergeStarted = true

def Settled (facts : Facts) (f : UpgradeState) : Prop :=
  facts.vars.playbook = .maintainNodes ∧ .converged ∈ f.phasesDone ∧
    facts.maintainDecision = f.decision

theorem runs_decideStop :
    Runs (fun s => At Converging s ∧ AllHandled s) decideStop
      (fun s => At Deciding s ∧ AllHandled s ∧ Decided s) := by
  have hread : ∀ (X Y : Host → Prop) [Lasting X] (g : Reply → Host → Facts),
      (∀ s r, (g r s).vars = s.facts.vars ∧ (g r s).state = s.facts.state ∧
        (g r s).phasesDone = s.facts.phasesDone) →
      (∀ s r, (g r s).maintainDecision = s.facts.maintainDecision) →
      (∀ s r, X s → Y { s with facts := g r s }) →
        Runs (fun s => At Converging s ∧ X s) [reads g] (fun s => At Converging s ∧ Y s) := by
    intro X Y _ g hsame hdecision hXY
    refine runs_reads fun s r _ hs => ⟨hs.1.reads (hsame s r) fun f _ h => ?_, hXY s r hs.2⟩
    exact ⟨⟨(congrArg Vars.playbook (hsame s r).1).trans h.1.1, (hdecision s r).trans h.1.2⟩, h.2⟩
  have hdrift := hread AllHandled AllHandled (fun r s => { s.facts with driftList := r.drift })
    (fun _ _ => ⟨rfl, rfl, rfl⟩) (fun _ _ => rfl) fun _ _ h => h
  have hreboot := hread AllHandled AllHandled
    (fun _ s => { s.facts with maintainReboot := s.node.rebootRequired })
    (fun _ _ => ⟨rfl, rfl, rfl⟩) (fun _ _ => rfl) fun _ _ h => h
  have hstart := hread AllHandled (fun s => AllHandled s ∧ ReadStart s)
    (fun _ s => { s.facts with dockerStartedLines := systemctlShow s.node.dockerStarted })
    (fun _ _ => ⟨rfl, rfl, rfl⟩) (fun _ _ => rfl)
    fun s _ h => ⟨h, s.node.dockerStarted, rfl, fun _ hstale => hstale⟩
  have hfiles := hread (fun s => AllHandled s ∧ ReadStart s) (fun s => AllHandled s ∧ ReadFiles s)
    (fun _ s => { s.facts with restartStats := restartStats s.node })
    (fun _ _ => ⟨rfl, rfl, rfl⟩) (fun _ _ => rfl) fun _ _ h => ⟨h.1, h.2, rfl⟩
  have hdecide : Runs (fun s => At Converging s ∧ AllHandled s ∧ ReadFiles s)
      [reads fun _ s => { s.facts with
        maintainDecision := some (maintainDecide (decisionInputs s.facts)) }]
      (fun s => At Deciding s ∧ AllHandled s ∧ Decided s) :=
    runs_reads fun s _ _ hs =>
      ⟨hs.1.reads ⟨rfl, rfl, rfl⟩ fun _ _ h => ⟨h.1.1, h.2⟩, hs.2.1, decided_of_read hs.2.2⟩
  exact hdrift.cons (hreboot.cons (hstart.cons (hfiles.cons hdecide)))

theorem runs_record_decision :
    Runs (fun s => At Deciding s ∧ AllHandled s ∧ Decided s)
      (statePhase .converged fun facts state =>
        { state with decision := facts.maintainDecision }) (At Settled) := by
  apply Play.Triple.cons (M := Ready Settled)
  · apply runs_reads
    rintro s r - ⟨⟨f, hsync, hbook, hdue, hstarted⟩, hhandled, d, hd, hstop, hrequired⟩
    have hmark : (mark .converged (fun facts state =>
        { state with decision := facts.maintainDecision }) s.facts).state =
          { f with decision := s.facts.maintainDecision
                   phasesDone := f.phasesDone ++ [.converged] } := by
      simp only [mark, hsync.state, hdue.unique_append]
    have hcont : Continues f { f with decision := s.facts.maintainDecision
                                      phasesDone := f.phasesDone ++ [.converged] } :=
      ⟨rfl, fun _ => rfl, fun h => absurd h hdue.not_mem,
        fun _ h => List.mem_append_left _ h, fun h => h, fun h => h⟩
    refine ⟨f, hsync.file, ?_, rfl, ?_, hsync.entered, ?_⟩
    · rw [hmark]
      exact .phase .converged hcont hdue rfl (fun h => absurd rfl h) rfl rfl
        ⟨hstarted, hhandled, d, hd, hstop, hrequired⟩
    · rw [hmark]
      exact hsync.owner
    · rw [hmark]
      exact ⟨hbook, List.mem_append_right _ List.mem_cons_self, rfl⟩
  · exact runs_stateSave

theorem runs_agentWait :
    Runs (fun s => At Converging s ∧ AllHandled s) agentWait
      (fun s => At Converging s ∧ AllHandled s) := by
  apply Play.Triple.cons (M := fun s => At Converging s ∧ AllHandled s)
  · exact runs_reads fun _ _ _ hs => ⟨hs.1.reads ⟨rfl, rfl, rfl⟩ fun _ _ h => h, hs.2⟩
  · exact runs_gate fun _ _ hs _ => hs

theorem runs_os_live :
    Runs (fun s => At Converging s ∧ AllHandled s) (osUpgrade true)
      (fun s => At Converging s ∧ AllHandled s) := by
  apply runs_osUpgrade
  rintro s n' - ⟨hs, hhandled⟩ hn'
  obtain ⟨f, hsync, hconverging⟩ := id hs
  have hlegal : Legal s.node (n'.note .converge) :=
    .converge f n' hsync.file hconverging.2.2 hconverging.2.1 (hn'.imp_right .inl)
  refine ⟨hlegal, ?_, ?_⟩
  · apply hs.acts hlegal
    rcases hn' with rfl | rfl <;> rfl
  · rcases hn' with rfl | rfl <;> exact hhandled

theorem runs_maintainConvergePhase :
    Runs (At fun facts f => Unused .maintainNodes facts f ∧ Due f .converged)
      maintainConvergePhase (At Settled) := by
  let Due' : Facts → UpgradeState → Prop := fun facts f =>
    Unused .maintainNodes facts f ∧ Due f .converged
  let Clean' : Host → Prop := fun s => s.facts.convergeResumed = false → AllHandled s
  have : Lasting Clean' := lasting_of_outside fun s o hok h hresumed =>
    (inferInstance : Lasting AllHandled).stable s _ hok ⟨o, rfl⟩ (h hresumed)
  have hresumed : Runs (At Due')
      [reads fun _ s => { s.facts with convergeResumed := s.facts.state.convergeStarted }]
      (fun s => At Due' s ∧ Clean' s) := by
    refine runs_reads fun s _ hok hs => ⟨hs.reads ⟨rfl, rfl, rfl⟩ fun _ _ h => h, ?_⟩
    obtain ⟨f, hsync, -⟩ := hs
    intro hfresh
    exact ((hok.load f hsync.file).fresh (hsync.state ▸ hfresh)).1
  have hnote : Runs (fun s => At Due' s ∧ Clean' s)
      [reads fun _ s => { s.facts with state := { s.facts.state with convergeStarted := true } }]
      (fun s => Ready Converging s ∧ Clean' s) := by
    apply runs_reads
    rintro s r - ⟨⟨f, hsync, hunused, hdue⟩, hclean⟩
    refine ⟨⟨f, hsync.file, ?_, ?_, ?_, hsync.entered, ?_⟩, hclean⟩
    · simp only [hsync.state]
      exact .amend ⟨rfl, fun _ => rfl, fun _ => rfl, fun _ h => h, fun _ => rfl, fun h => h⟩ rfl rfl
        (fun _ => .inr hdue) .inl
    · simp only [hsync.state]
      exact hsync.done
    · simp only [hsync.state]
      exact hsync.owner
    · simp only [hsync.state]
      exact ⟨hunused, hdue, rfl⟩
  have hconverge : Runs (fun s => At Converging s ∧ Clean' s) maintainConverge
      (fun s => At Converging s ∧ NotedUnlessResumed s) :=
    runs_maintainConverge.pre fun _ _ hs => ⟨hs.1, fun hf => noted_of_handled (hs.2 hf)⟩
  have hreapply : Runs (fun s => At Converging s ∧ NotedUnlessResumed s)
      [.incl (fun s => s.facts.convergeResumed) [reads fun _ s => notify reapplied s.facts]]
      (fun s => At Converging s ∧ Noted s) := by
    apply Play.Triple.incl
    · refine Play.Triple.pre (P := At Converging) (runs_reads fun s _ _ hs => ?_)
        fun _ _ hs => hs.1.1
      refine ⟨hs.reads ⟨rfl, rfl, rfl⟩ fun _ _ h => h, fun h hmem _ => ?_⟩
      exact mem_notify.mpr (.inr hmem)
    · exact fun _ _ hs hfresh => ⟨hs.1, hs.2 hfresh⟩
  have hcommands : Runs (fun s => At Converging s ∧ AllHandled s) [command, command]
      (fun s => At Converging s ∧ AllHandled s) :=
    runs_command.cons runs_command
  have hsave : Runs (fun s => Ready Converging s ∧ Clean' s) stateSave
      (fun s => At Converging s ∧ Clean' s) :=
    runs_save fun _ _ h => h
  exact ((((((((hresumed.cons hnote).append hsave).append hconverge).append
    (hreapply.cons runs_converge_handlers)).append runs_agentWait).append hcommands).append
      runs_os_live).append runs_agentWait).append runs_decideStop |>.append runs_record_decision

/-! ## After the decision -/

def maintainCourse (d : Decision) : Course :=
  { phases := [.held, .converged] ++ (if d.stop then stopPlan d.dockerRestartRequired else []) ++
      [.released]
    book := .maintainNodes
    decision := some d }

variable {d : Decision}

theorem decision_of_past {l : List Phase} {s : Host} (hc : c.decision = some d)
    (hs : At (Past c l) s) : s.facts.maintainDecision = some d := by
  obtain ⟨f, -, h⟩ := hs
  exact h.1.2.2.trans hc

theorem runs_stoppedWindow (hd : c.decision = some d)
    (hc : c.phases = [.held, .converged] ++ stopPlan d.dockerRestartRequired ++ [.released]) :
    Runs (At (Past c [.held, .converged])) stoppedWindow
      (At (Past c ([.held, .converged] ++ stopPlan d.dockerRestartRequired))) := by
  cases hrestart : d.dockerRestartRequired with
  | true =>
    rw [hrestart] at hc
    have hdocker : Runs (At (Past c [.held, .converged, .recorded, .stopped, .packages]))
        [.incl (fun s => restartDecided s && undone .dockerRestarted s && undone .started s)
          dockerRestart]
        (At (Past c ([.held, .converged, .recorded, .stopped, .packages] ++
          [.dockerRestarted]))) := by
      apply runs_step (by rw [hc]; rfl) _ _ runs_dockerRestart
      · intro s _ hcond
        simp only [Bool.and_eq_true] at hcond
        simpa [undone] using hcond.1.2
      · intro s hs hcond
        have hdecided : restartDecided s = true := by
          simp [restartDecided, decision_of_past hd hs, hrestart]
        simp only [hdecided, undone, Bool.true_and, Bool.and_eq_false_iff,
          decide_eq_false_iff_not, not_not] at hcond
        rcases hcond with h | h
        · exact ⟨.dockerRestarted, by simp, h⟩
        · exact ⟨.started, by simp, h⟩
    exact (runs_undone (by rw [hc]; rfl) runs_record).cons ((runs_stop_step (by rw [hc]; rfl)
      (by simp)).cons ((runs_undone (by rw [hc]; rfl) runs_packages).cons (hdocker.cons
        ((runs_undone (by rw [hc]; rfl) runs_reboot).cons ((runs_while_undone (by rw [hc]; rfl)
          runs_services).cons (runs_undone (by rw [hc]; rfl) runs_start))))))
  | false =>
    rw [hrestart] at hc
    have hdocker : Runs (At (Past c [.held, .converged, .recorded, .stopped, .packages]))
        [.incl (fun s => restartDecided s && undone .dockerRestarted s && undone .started s)
          dockerRestart] (At (Past c [.held, .converged, .recorded, .stopped, .packages])) := by
      apply Play.Triple.incl_false
      intro s hs
      simp [restartDecided, decision_of_past hd hs, hrestart]
    exact (runs_undone (by rw [hc]; rfl) runs_record).cons ((runs_stop_step (by rw [hc]; rfl)
      (by simp)).cons ((runs_undone (by rw [hc]; rfl) runs_packages).cons (hdocker.cons
        ((runs_undone (by rw [hc]; rfl) runs_reboot).cons ((runs_while_undone (by rw [hc]; rfl)
          runs_services).cons (runs_undone (by rw [hc]; rfl) runs_start))))))

theorem runs_window :
    Runs (At (Past (maintainCourse d) [.held, .converged])) [.incl stopDecided stoppedWindow]
      (At (Past (maintainCourse d)
        ([.held, .converged] ++ if d.stop then stopPlan d.dockerRestartRequired else []))) := by
  have hdecided : ∀ s, At (Past (maintainCourse d) [.held, .converged]) s →
      stopDecided s = d.stop := by
    intro s hs
    simp [stopDecided, decision_of_past (c := maintainCourse d) rfl hs]
  cases hstop : d.stop with
  | true =>
    have hc : (maintainCourse d).phases =
        [.held, .converged] ++ stopPlan d.dockerRestartRequired ++ [.released] := by
      simp only [maintainCourse, hstop, if_true]
    exact (runs_stoppedWindow rfl hc).incl_true fun s hs => (hdecided s hs).trans hstop
  | false => exact Play.Triple.incl_false fun s hs => (hdecided s hs).trans hstop

theorem runs_late_handlers {l : List Phase} :
    Runs (At (Past c l)) [flushHandlers] (At (Past c l)) := by
  apply runs_flush
  · intro s h hs _
    refine hs.handled (fun facts facts' f hvars hdecision hf => ?_) h
    exact ⟨⟨hf.1.1, (congrArg Vars.playbook hvars).trans hf.1.2.1, hdecision.trans hf.1.2.2⟩, hf.2⟩
  · exact fun _ hs _ => hs

theorem runs_release_step :
    Runs (At (Past (maintainCourse d)
        ([.held, .converged] ++ if d.stop then stopPlan d.dockerRestartRequired else [])))
      [.incl (undone .released) release] (At fun _ f => .released ∈ f.phasesDone) :=
  (@runs_undone (maintainCourse d) _ [] .released _ rfl runs_release).post fun _ _ hs =>
    hs.mono fun _ _ h => h.2 (List.mem_append_right _ List.mem_cons_self)

/-! ## The rescue -/

def Releasable (flag : Facts → Bool) (s : Host) : Prop :=
  flag s.facts = true →
    ∃ f, s.node.stateFile = some f ∧ f.phasesDone = [.held] ∧ f.convergeStarted = false

instance {flag : Facts → Bool} : Lasting (Releasable flag) :=
  lasting_of_outside fun s o _ hs hflag => by
    obtain ⟨f, hfile, hf⟩ := hs hflag
    exact ⟨f, by cases o <;> exact hfile, hf⟩

theorem FileOk.only_held {f : UpgradeState} (h : FileOk f)
    (honly : ∀ p ∈ f.phasesDone, p = .held) : f.phasesDone = [.held] := by
  have hnodup : f.phasesDone.Nodup := (plan_nodup f).sublist h.planned.sublist
  have hrep : f.phasesDone = List.replicate f.phasesDone.length .held :=
    List.eq_replicate_iff.mpr ⟨rfl, honly⟩
  have hlen : f.phasesDone.length ≤ 1 := by
    rw [hrep] at hnodup
    exact List.nodup_replicate.mp hnodup
  have hpos : 0 < f.phasesDone.length := List.length_pos_of_mem h.held
  rw [hrep, show f.phasesDone.length = 1 by omega]
  rfl

theorem releasable_of_kept {s : Host} (hok : Ok s.node) (hs : Kept s)
    (hfile : s.node.stateFile.isSome = true) (hstarted : s.facts.state.convergeStarted = false)
    (hdone : (s.facts.phasesDone.filter (· ≠ .held)).isEmpty = true) :
    ∃ f, s.node.stateFile = some f ∧ f.phasesDone = [.held] ∧ f.convergeStarted = false := by
  obtain ⟨f, hf⟩ := Option.isSome_iff_exists.mp hfile
  obtain ⟨hknown, hphases⟩ := hs f hf
  refine ⟨f, hf, (hok.file f hf).only_held fun p hp => ?_, ?_⟩
  · by_contra hne
    have hmem : p ∈ s.facts.phasesDone.filter (· ≠ .held) :=
      List.mem_filter.mpr ⟨hphases p hp, decide_eq_true hne⟩
    rw [List.isEmpty_iff.mp hdone] at hmem
    cases hmem
  · cases h : f.convergeStarted with
    | false => rfl
    | true => exact (hknown h).symm.trans hstarted

theorem runs_rescue {Q : Host → Prop} : Runs Kept maintainRescue Q := by
  have : Lasting fun s => s.facts.rescueState = true → s.node.stateFile.isSome = true :=
    lasting_of_outside fun s o _ hs => by cases o <;> exact hs
  have hstate : Runs Kept
      [reads fun _ s => { s.facts with rescueState := s.node.stateFile.isSome }]
      (fun s => Kept s ∧ (s.facts.rescueState = true → s.node.stateFile.isSome = true)) :=
    runs_reads fun _ _ _ hs => ⟨hs, fun h => h⟩
  have hdecide : Runs
      (fun s => Kept s ∧ (s.facts.rescueState = true → s.node.stateFile.isSome = true))
      [reads fun _ s => { s.facts with
        rescueRelease := s.facts.rescueState && !s.facts.state.convergeStarted &&
          !s.facts.state.releasing && (s.facts.phasesDone.filter (· ≠ .held)).isEmpty }]
      (fun s => Kept s ∧ Releasable Facts.rescueRelease s) := by
    refine runs_reads fun s _ hok hs => ⟨hs.1, fun hflag => ?_⟩
    simp only [Bool.and_eq_true, Bool.not_eq_true'] at hflag
    exact releasable_of_kept hok hs.1 (hs.2 hflag.1.1.1) hflag.1.1.2 hflag.2
  have hoff : Runs (fun s => Kept s ∧ Releasable Facts.rescueRelease s)
      [.incl (fun s => s.facts.rescueRelease) [acts rescueOff]]
      (fun s => Kept s ∧ Releasable Facts.rescueRelease s) := by
    apply Play.Triple.incl
    · have : Lasting fun s => s.facts.rescueRelease = true := lasting_of_outside fun _ _ _ h => h
      apply runs_acts_of
      rintro s r - ⟨⟨hs, hrelease⟩, hflag⟩
      obtain ⟨f, hfile, hdone, hfresh⟩ := hrelease hflag
      have hcalm : ∀ n' : Node, n'.history.log = .autoOff :: s.node.history.log →
          n'.stateFile = s.node.stateFile → Proceeds s.node n' → s.node.Entered :=
        fun n' hlog hsame hgo => absurd hgo (not_proceeds_note (e := .autoOff) rfl hlog (.inl hsame))
      by_cases hcleared : (r.doc.rc = 0 || r.half) = true
      · simp only [rescueOff, if_pos hcleared]
        exact ⟨⟨.autoOff f _ hfile hdone hfresh (.inr rfl), hcalm _ rfl rfl⟩, hs, hrelease⟩
      · simp only [rescueOff, if_neg hcleared]
        exact ⟨⟨.autoOff f _ hfile hdone hfresh (.inl rfl), hcalm _ rfl rfl⟩, hs, hrelease⟩
    · exact fun _ _ hs _ => hs
  have hreleased : Runs (fun s => Kept s ∧ Releasable Facts.rescueRelease s)
      [reads fun _ s => { s.facts with
        rescueReleased := s.facts.rescueRelease && s.facts.rescueOff.rc = 0 &&
          s.facts.rescueOff.shape = .status }]
      (fun s => Kept s ∧ Releasable Facts.rescueReleased s) := by
    refine runs_reads fun s _ _ hs => ⟨hs.1, fun hflag => hs.2 ?_⟩
    simp only [Bool.and_eq_true] at hflag
    exact hflag.1.1
  have haside : Runs (fun s => Kept s ∧ Releasable Facts.rescueReleased s)
      [.incl (fun s => s.facts.rescueReleased) [acts fun _ s => setAside s]] Kept := by
    apply Play.Triple.incl
    · have : Lasting fun s => s.facts.rescueReleased = true := lasting_of_outside fun _ _ _ h => h
      apply runs_acts_of
      rintro s r - ⟨⟨-, hrelease⟩, hflag⟩
      obtain ⟨f, hfile, -, hfresh⟩ := hrelease hflag
      rw [show setAside s = { s with node := s.node.remove.note .closed } by
        rw [setAside, hfile]]
      refine ⟨⟨.closed f hfile (.inr hfresh), fun hgo => ?_⟩, fun _ hg => ?_⟩
      · exact absurd hgo (not_proceeds_note (e := .closed) rfl rfl (.inr (.inl rfl)))
      · cases hg
    · exact fun _ _ hs _ => hs.1
  exact hstate.cons (hdecide.cons (hoff.cons (hreleased.cons (haside.cons
    (runs_gate fun _ _ _ hfalse => absurd hfalse Bool.false_ne_true)))))

/-! ## maintain-nodes -/

/-- The decision is in the state file, and the run may still have to take it
from there. -/
def Recorded (facts : Facts) (f : UpgradeState) : Prop :=
  facts.vars.playbook = .maintainNodes ∧ .converged ∈ f.phasesDone ∧
    (facts.maintainDecision = none ∨ facts.maintainDecision = f.decision)

theorem runs_converge_step :
    Runs (At (Unused .maintainNodes)) [.incl (undone .converged) maintainConvergePhase]
      (At Recorded) := by
  apply Play.Triple.incl
  · refine runs_maintainConvergePhase.conseq (fun s hok hs => ?_) ?_ fun _ _ h => h
    · obtain ⟨⟨f, hsync, hunused⟩, hundone⟩ := hs
      have hfile := hok.file f hsync.file
      have howner : stateOwner f = .maintainNodes := hsync.owner.trans hunused.1
      have hnot : .converged ∉ f.phasesDone := by simpa [undone, hsync.done] using hundone
      have hplan : plan f = [.held] ++ .converged :: [] := by
        apply plan_undecided howner
        cases hd : f.decision with
        | none => rfl
        | some d => exact absurd ((hfile.decided howner).mpr (by rw [hd]; rfl)) hnot
      have hheld : [Phase.held] ⊆ f.phasesDone :=
        List.cons_subset.mpr ⟨hfile.held, List.nil_subset _⟩
      exact ⟨f, hsync, hunused, (due_of_before hfile.planned hplan hheld hnot).2⟩
    · exact fun s _ hs => hs.mono fun _ _ h => ⟨h.1, h.2.1, .inr h.2.2⟩
  · intro s _ hs hdone
    refine hs.mono fun f hsync h => ⟨h.1, ?_, .inl h.2⟩
    simpa [undone, hsync.done] using hdone

theorem runs_use_decision :
    Runs (At Recorded)
      [.incl (fun s => s.facts.maintainDecision.isNone)
        [reads fun _ s => { s.facts with maintainDecision := s.facts.state.decision }]]
      (At Settled) := by
  apply Play.Triple.incl
  · refine Play.Triple.pre (P := At Recorded) (runs_reads fun s _ _ hs => ?_) fun _ _ hs => hs.1
    refine hs.reads ⟨rfl, rfl, rfl⟩ fun f hsync h => ⟨h.1, h.2.1, ?_⟩
    exact congrArg UpgradeState.decision hsync.state
  · intro s _ hs hsome
    refine hs.mono fun f _ h => ⟨h.1, h.2.1, h.2.2.resolve_left fun hnone => ?_⟩
    simp [hnone] at hsome

theorem past_of_settled {s : Host} (hok : Ok s.node) (hs : At Settled s) :
    ∃ d, At (Past (maintainCourse d) [.held, .converged]) s := by
  obtain ⟨f, hsync, hbook, hconverged, hdecision⟩ := hs
  have hfile := hok.file f hsync.file
  have howner : stateOwner f = .maintainNodes := hsync.owner.trans hbook
  obtain ⟨d, hd⟩ := Option.isSome_iff_exists.mp ((hfile.decided howner).mp hconverged)
  refine ⟨d, f, hsync, ⟨plan_decided howner hd, hbook, hdecision.trans hd⟩, ?_⟩
  exact List.cons_subset.mpr ⟨hfile.held, List.cons_subset.mpr ⟨hconverged, List.nil_subset _⟩⟩

theorem runs_maintainCycle : Runs (Loaded .maintainNodes) [maintainCycle] NoFile := by
  have hdownload : Runs (Loaded .maintainNodes) [.incl (undone .packages) [command]]
      (Loaded .maintainNodes) :=
    .incl (runs_command.pre fun _ _ hs => hs.1) fun _ _ hs _ => hs
  have hrest : Runs (At Settled)
      [command, command, .incl stopDecided stoppedWindow, flushHandlers,
        .incl (undone .released) release, .incl (fun _ => true) archive, command] NoFile := by
    refine runs_command.cons (runs_command.cons (Play.Triple.cases (fun d =>
      (runs_window (d := d)).cons (runs_late_handlers.cons (runs_release_step.cons
        ((runs_archive.incl_true fun _ _ => rfl).cons runs_command)))) ?_))
    exact fun s hok hs => past_of_settled hok hs
  exact Play.Triple.block (hdownload.cons ((runs_hold.incl_true fun _ _ => rfl).cons
    (runs_converge_step.cons (runs_use_decision.cons hrest)))) runs_rescue

theorem safe_maintain (vars : Vars) (hbook : vars.playbook = .maintainNodes) (s : Host) :
    Play.Safe contract (boot vars s) [⟨maintain, none⟩] :=
  (runs_preflight.append (runs_freely (runs_command.cons runs_maintainCycle))).safe ⟨hbook, rfl⟩

/-! ## All runs -/

theorem Ok.numbered {n : Node} (hok : Ok n) (runs : ℕ) :
    Ok { n with history := { n.history with runs := runs } } where
  past := hok.past
  written := hok.written
  seen := hok.seen
  idle := hok.idle
  file := hok.file
  life f hf := ⟨(hok.life f hf).converge, (hok.life f hf).releasing⟩
  hold := hok.hold
  load f hf := ⟨(hok.load f hf).fresh, (hok.load f hf).handled, (hok.load f hf).required,
    (hok.load f hf).rebooting⟩

theorem Ok.boot {s : Host} (hok : Ok s.node) (vars : Vars) : Ok (Tasks.boot vars s).node :=
  (hok.numbered _).note_plain (by decide)

/-- Every run of either playbook, however it is interrupted and whatever
others do meanwhile, takes legal steps only. -/
theorem system_keeps : system.Keeps contract where
  boot_inv vars _ hok := hok.boot vars
  boot_safe vars s _ := by
    change Play.Safe contract (boot vars s) [⟨play vars, none⟩]
    cases hbook : vars.playbook with
    | upgradeDocker =>
      rw [play, hbook]
      exact safe_main vars hbook s
    | maintainNodes =>
      rw [play, hbook]
      exact safe_maintain vars hbook s
  outside_rely o _ := ⟨o, rfl⟩

end Provisioner.NodeUpgrade
