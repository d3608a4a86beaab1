import Provisioner.NodeUpgrade.Protocol

/-!
# What always holds of a node

Four invariants of a node under the steps of the role and of others: the state
file keeps to its plan, the history of its life agrees with it, the hold is
its own or later than its start, and nothing a converge changed is forgotten.
-/

namespace Provisioner.NodeUpgrade

open Tasks (reapplied)

variable {n n' : Node} {f f' : UpgradeState}

def AtRelease (f : UpgradeState) : Prop := Due f .released ∨ .released ∈ f.phasesDone

structure FileOk (f : UpgradeState) : Prop where
  planned : f.phasesDone <+: plan f
  held : .held ∈ f.phasesDone
  convergeStarted : .converged ∈ f.phasesDone → f.convergeStarted = true
  decided : stateOwner f = .maintainNodes →
    (.converged ∈ f.phasesDone ↔ f.decision.isSome = true)
  restart_stops : ∀ d, f.decision = some d → d.dockerRestartRequired = true → d.stop = true
  maintained : f.convergeStarted = true → stateOwner f = .maintainNodes
  releasing : f.releasing = true → AtRelease f

structure LifeOk (n : Node) (f : UpgradeState) : Prop where
  converge : .converge ∈ n.life → f.convergeStarted = true
  releasing : .releasing ∈ n.life → AtRelease f

/-- What has to be loaded before the node is released is kept track of. -/
structure LoadOk (n : Node) (f : UpgradeState) : Prop where
  fresh : f.convergeStarted = false → n.Clean
  handled : .converged ∈ f.phasesDone → n.Handled
  required : .converged ∈ f.phasesDone → ¬ n.Loaded →
    ∃ d, f.decision = some d ∧ d.dockerRestartRequired = true
  rebooting : .dockerRestarted ∈ f.phasesDone → ¬ n.Loaded →
    n.rebootRequired = true ∧ .rebooted ∉ f.phasesDone

structure Ok (n : Node) : Prop where
  past : ∀ file t, n.restartFiles file = some t → t ≤ n.clock
  written : ∀ file t, n.history.written file = some t → n.restartFiles file = some t
  seen : ∀ f, n.stateFile = some f → n.history.origin.seen ≤ n.history.placed
  idle : n.stateFile = none → n.Clean
  file : ∀ f, n.stateFile = some f → FileOk f
  life : ∀ f, n.stateFile = some f → LifeOk n f
  hold : ∀ f, n.stateFile = some f → n.Later n.history.origin
  load : ∀ f, n.stateFile = some f → LoadOk n f

/-! ## The state file -/

theorem converged_mem_plan (h : .converged ∈ plan f) : stateOwner f = .maintainNodes := by
  cases howner : stateOwner f with
  | upgradeDocker =>
    rw [plan_upgrade howner] at h
    revert h
    decide
  | maintainNodes => rfl

theorem dockerRestarted_mem_plan (h : .dockerRestarted ∈ plan f) :
    stateOwner f = .maintainNodes := by
  cases howner : stateOwner f with
  | upgradeDocker =>
    rw [plan_upgrade howner] at h
    revert h
    decide
  | maintainNodes => rfl

theorem Due.converged (h : Due f .converged) : f.phasesDone = [.held] := by
  have howner : stateOwner f = .maintainNodes := converged_mem_plan h.mem
  cases hd : f.decision with
  | none => exact @Due.before _ _ h [.held] [] (plan_undecided howner hd)
  | some d => exact h.before ((plan_decided howner hd).trans (by simp; rfl))

theorem Due.dockerRestarted (h : Due f .dockerRestarted) :
    f.phasesDone = [.held, .converged, .recorded, .stopped, .packages] := by
  have howner : stateOwner f = .maintainNodes := dockerRestarted_mem_plan h.mem
  obtain ⟨d, hd, hstop⟩ := stop_of_mem_plan howner h.mem (by decide)
  cases hrestart : d.dockerRestartRequired with
  | true => exact h.before ((plan_decided howner hd).trans (by rw [hstop, hrestart]; rfl))
  | false =>
    have hmem := h.mem
    rw [plan_decided howner hd, hstop, hrestart] at hmem
    exact absurd hmem (by decide)

theorem Continues.owner (h : Continues f f') : stateOwner f' = stateOwner f := by
  rw [stateOwner, h.playbook, stateOwner]

theorem plan_congr (howner : stateOwner f' = stateOwner f) (hd : f'.decision = f.decision) :
    plan f' = plan f := by
  rw [plan, howner, hd, plan]

theorem Advance.planned (h : Advance n f f') (hok : FileOk f) : f'.phasesDone <+: plan f' := by
  cases h with
  | amend hcont hdone hd =>
    rw [hdone, plan_congr hcont.owner hd]
    exact hok.planned
  | phase p hcont hdue hdone hd _ _ hverified =>
    by_cases hp : p = .converged
    · subst hp
      have howner : stateOwner f' = .maintainNodes :=
        hcont.owner.trans (converged_mem_plan hdue.mem)
      obtain ⟨-, -, d, hd', -, -⟩ := hverified
      rw [hdone, hdue.converged, plan_decided howner hd', List.append_assoc]
      exact List.prefix_append _ _
    · rw [hdone, plan_congr hcont.owner (hd hp)]
      exact hdue

theorem AtRelease.of_advance (h : AtRelease f) (hadv : Advance n f f') : AtRelease f' := by
  cases hadv with
  | amend hcont hdone hd =>
    rw [AtRelease, Due, hdone, plan_congr hcont.owner hd]
    exact h
  | phase p hcont hdue hdone hd =>
    rcases h with h | h
    · have hp : p = .released := hdue.unique h
      right
      rw [hdone, hp]
      exact List.mem_append_right _ List.mem_cons_self
    · exact absurd hdue (not_due_of_released h)

/-- Everything before the release is done. -/
theorem AtRelease.done (h : AtRelease f) (hplanned : f.phasesDone <+: plan f)
    {before : List Phase} (hplan : plan f = before ++ [.released]) : before ⊆ f.phasesDone := by
  rcases h with hdue | hreleased
  · rw [hdue.before hplan]
    exact List.Subset.refl _
  · rw [eq_of_prefix_of_last_mem (hplan ▸ hplanned) (hplan ▸ plan_nodup f) hreleased]
    exact List.subset_append_left _ _

theorem FileOk.converged_of_released (hok : FileOk f) (howner : stateOwner f = .maintainNodes)
    (h : AtRelease f) : .converged ∈ f.phasesDone := by
  rcases plan_shape f with ⟨-, -, hplan⟩ | ⟨l, hplan⟩
  · have hmem : Phase.released ∈ plan f := by
      rcases h with hdue | hreleased
      · exact hdue.mem
      · exact hok.planned.subset hreleased
    rw [hplan] at hmem
    exact absurd hmem (by decide)
  · have hmem : Phase.converged ∈ l ++ [.released] := by
      rw [← hplan]
      cases hd : f.decision with
      | none =>
        rw [plan_undecided howner hd]
        decide
      | some d =>
        rw [plan_decided howner hd]
        exact List.mem_append_left _ (List.mem_append_left _ (by decide))
    rcases List.mem_append.mp hmem with hmem | hmem
    · exact h.done hok.planned hplan hmem
    · exact absurd hmem (by decide)

theorem FileOk.advance (hok : FileOk f) (h : Advance n f f') : FileOk f' := by
  have hplanned := h.planned hok
  have hrelease : AtRelease f → AtRelease f' := fun hr => hr.of_advance h
  cases h with
  | amend hcont hdone hd hconv hrel =>
    refine ⟨hplanned, hcont.done _ hok.held, ?_, ?_, ?_, ?_, ?_⟩
    · intro hp
      rw [hdone] at hp
      exact hcont.convergeStarted (hok.convergeStarted hp)
    · intro howner
      rw [hdone, hd]
      exact hok.decided (hcont.owner ▸ howner)
    · intro d hd'
      exact hok.restart_stops d (hd ▸ hd')
    · intro hs
      rw [hcont.owner]
      rcases hconv hs with hs | hdue
      · exact hok.maintained hs
      · exact converged_mem_plan hdue.mem
    · intro hr
      rcases hrel hr with hr | hdue
      · exact hrelease (hok.releasing hr)
      · exact hrelease (.inl hdue)
  | phase p hcont hdue hdone hd hconv hrel hverified =>
    refine ⟨hplanned, hcont.done _ hok.held, ?_, ?_, ?_, ?_, ?_⟩
    · intro hp
      rw [hdone] at hp
      rcases List.mem_append.mp hp with hp | hp
      · exact hcont.convergeStarted (hok.convergeStarted hp)
      · cases List.mem_singleton.mp hp
        exact hverified.1
    · intro howner
      rw [hdone]
      by_cases hp : p = .converged
      · subst hp
        obtain ⟨-, -, d, hd', -, -⟩ := hverified
        simp [hd']
      · rw [hd hp, ← hok.decided (hcont.owner ▸ howner), List.mem_append, List.mem_singleton,
          or_iff_left (Ne.symm hp)]
    · intro d hd'
      by_cases hp : p = .converged
      · subst hp
        obtain ⟨-, -, e, he, hstop, -⟩ := hverified
        cases he.symm.trans hd'
        exact hstop
      · exact hok.restart_stops d (hd hp ▸ hd')
    · intro hs
      rw [hcont.owner]
      exact hok.maintained (hconv ▸ hs)
    · intro hr
      exact hrelease (hok.releasing (hrel ▸ hr))

/-! ## What is loaded -/

theorem Node.loaded_startDocker (n : Node) (h : ∀ file t, n.restartFiles file = some t →
    t ≤ n.clock) : n.startDocker.Loaded := by
  rintro file ⟨t, ht, hlt⟩
  have hle : seconds t ≤ seconds n.clock := seconds_mono (h file t ht)
  exact absurd hlt (by simpa [Node.startDocker] using hle)

theorem Node.writtenLoaded_of_loaded (hloaded : n.Loaded)
    (hwritten : ∀ file t, n.history.written file = some t → n.restartFiles file = some t) :
    n.WrittenLoaded := by
  intro file t ht
  by_contra hlt
  exact hloaded file ⟨t, hwritten file t ht, by omega⟩

theorem Ok.startDocker_written (hok : Ok n) : n.startDocker.WrittenLoaded :=
  Node.writtenLoaded_of_loaded (Node.loaded_startDocker n hok.past) hok.written

theorem LoadOk.loaded (h : LoadOk n f) (hfile : FileOk f) (hconv : .converged ∈ f.phasesDone)
    (hrelease : AtRelease f) : n.Loaded := by
  by_contra hstale
  obtain ⟨d, hd, hrestart⟩ := h.required hconv hstale
  have hstop : d.stop = true := hfile.restart_stops d hd hrestart
  have howner : stateOwner f = .maintainNodes := hfile.maintained (hfile.convergeStarted hconv)
  have hplan : plan f = [.held, .converged, .recorded, .stopped, .packages, .dockerRestarted,
      .rebooted, .started] ++ .released :: [] := by
    rw [plan_decided howner hd, hstop, hrestart]
    rfl
  have hdone := hrelease.done hfile.planned hplan
  obtain ⟨-, hnot⟩ := h.rebooting (hdone (by decide)) hstale
  exact hnot (hdone (by decide))

/-! ## What each change of the node keeps -/

theorem life_note {e : Event} (he : e ≠ .opened) : (n.note e).life = e :: n.life :=
  List.takeWhile_cons_of_pos (by simpa using he)

theorem Ok.note (hok : Ok n) {e : Event} (he : e ≠ .opened)
    (hlife : ∀ f, n.stateFile = some f →
      (e = .converge → f.convergeStarted = true) ∧ (e = .releasing → AtRelease f)) :
    Ok (n.note e) where
  past := hok.past
  written := hok.written
  seen := hok.seen
  idle := hok.idle
  file := hok.file
  life f hf := by
    obtain ⟨hconverge, hreleasing⟩ := hok.life f hf
    constructor <;> rw [life_note he] <;> intro hmem
    · rcases List.mem_cons.mp hmem with heq | hmem
      · exact (hlife f hf).1 heq.symm
      · exact hconverge hmem
    · rcases List.mem_cons.mp hmem with heq | hmem
      · exact (hlife f hf).2 heq.symm
      · exact hreleasing hmem
  hold := hok.hold
  load f hf := ⟨(hok.load f hf).fresh, (hok.load f hf).handled, (hok.load f hf).required,
    (hok.load f hf).rebooting⟩

theorem Ok.note_plain (hok : Ok n) {e : Event}
    (he : e ≠ .opened ∧ e ≠ .converge ∧ e ≠ .releasing) : Ok (n.note e) := by
  apply hok.note he.1
  exact fun f hf => ⟨fun h => absurd h he.2.1, fun h => absurd h he.2.2⟩

theorem Ok.place (hok : Ok n) {holder : Holder} (h : n.stateFile = none ∨ holder = .byHand) :
    Ok (n.place holder) where
  past := hok.past
  written := hok.written
  seen f hf := (hok.seen f hf).trans (Nat.le_succ _)
  idle := hok.idle
  file := hok.file
  life f hf := ⟨(hok.life f hf).converge, (hok.life f hf).releasing⟩
  hold f hf := by
    rcases h with hnone | rfl
    · cases hnone.symm.trans hf
    · intro hold hhold
      cases hhold
      exact ⟨hok.seen f hf, .inl rfl⟩
  load f hf := ⟨(hok.load f hf).fresh, (hok.load f hf).handled, (hok.load f hf).required,
    (hok.load f hf).rebooting⟩

theorem Ok.release (hok : Ok n) : Ok n.release where
  past := hok.past
  written := hok.written
  seen := hok.seen
  idle := hok.idle
  file := hok.file
  life f hf := ⟨(hok.life f hf).converge, (hok.life f hf).releasing⟩
  hold f hf hold hhold := by cases hhold
  load f hf := ⟨(hok.load f hf).fresh, (hok.load f hf).handled, (hok.load f hf).required,
    (hok.load f hf).rebooting⟩

theorem Ok.askReboot (hok : Ok n) : Ok n.askReboot where
  past := hok.past
  written := hok.written
  seen := hok.seen
  idle := hok.idle
  file := hok.file
  life f hf := ⟨(hok.life f hf).converge, (hok.life f hf).releasing⟩
  hold := hok.hold
  load f hf := ⟨(hok.load f hf).fresh, (hok.load f hf).handled, (hok.load f hf).required,
    fun hp hstale => ⟨rfl, ((hok.load f hf).rebooting hp hstale).2⟩⟩

theorem Ok.later_time (hok : Ok n) (elapsed : ℕ) :
    Ok { n with clock := n.clock + elapsed } where
  past file t ht := (hok.past file t ht).trans (Nat.le_add_right _ _)
  written := hok.written
  seen := hok.seen
  idle := hok.idle
  file := hok.file
  life f hf := ⟨(hok.life f hf).converge, (hok.life f hf).releasing⟩
  hold := hok.hold
  load f hf := ⟨(hok.load f hf).fresh, (hok.load f hf).handled, (hok.load f hf).required,
    (hok.load f hf).rebooting⟩

theorem Ok.startDocker (hok : Ok n) : Ok n.startDocker where
  past := hok.past
  written := hok.written
  seen := hok.seen
  idle hnone := ⟨(hok.idle hnone).1, hok.startDocker_written⟩
  file := hok.file
  life f hf := ⟨(hok.life f hf).converge, (hok.life f hf).releasing⟩
  hold := hok.hold
  load f hf :=
    have hloaded := Node.loaded_startDocker n hok.past
    ⟨fun hfresh => ⟨((hok.load f hf).fresh hfresh).1, hok.startDocker_written⟩,
      (hok.load f hf).handled, fun _ hstale => absurd hloaded hstale,
      fun _ hstale => absurd hloaded hstale⟩

theorem Ok.reboot (hok : Ok n) : Ok n.reboot where
  past := hok.past
  written := hok.written
  seen := hok.seen
  idle := hok.startDocker.idle
  file := hok.file
  life f hf := ⟨(hok.life f hf).converge, (hok.life f hf).releasing⟩
  hold := hok.hold
  load f hf :=
    have hloaded : n.reboot.Loaded := Node.loaded_startDocker n hok.past
    ⟨(hok.startDocker.load f hf).fresh, (hok.load f hf).handled,
      fun _ hstale => absurd hloaded hstale, fun _ hstale => absurd hloaded hstale⟩

theorem Ok.handled (hok : Ok n) (handler : Handler) : Ok (n.handled handler) where
  past := hok.past
  written := hok.written
  seen := hok.seen
  idle hnone := ⟨fun h hh => by
    rw [Node.awaits_handled, (hok.idle hnone).1 h hh, Bool.and_false], (hok.idle hnone).2⟩
  file := hok.file
  life f hf := ⟨(hok.life f hf).converge, (hok.life f hf).releasing⟩
  hold := hok.hold
  load f hf := ⟨fun hfresh => ⟨fun h hh => by
      rw [Node.awaits_handled, ((hok.load f hf).fresh hfresh).1 h hh, Bool.and_false],
        ((hok.load f hf).fresh hfresh).2⟩,
    fun hp h hh => by
      rw [Node.awaits_handled, (hok.load f hf).handled hp h hh, Bool.and_false],
    (hok.load f hf).required, (hok.load f hf).rebooting⟩

theorem Node.Handled.declined (hn : n.Handled) {handler : Handler}
    (honly : handler ∈ reapplied → handler = .nodeKernelReloadNetworkd) :
    (n.declined handler).Handled := by
  intro h hh
  by_contra hawaits
  have hwas := (Node.awaits_declined honly hh (by simpa using hawaits)).2
  rw [hn h hh] at hwas
  cases hwas

theorem Ok.declined (hok : Ok n) {handler : Handler}
    (honly : handler ∈ reapplied → handler = .nodeKernelReloadNetworkd) :
    Ok (n.declined handler) where
  past := hok.past
  written := hok.written
  seen := hok.seen
  idle hnone := ⟨(hok.idle hnone).1.declined honly, (hok.idle hnone).2⟩
  file := hok.file
  life f hf := ⟨(hok.life f hf).converge, (hok.life f hf).releasing⟩
  hold := hok.hold
  load f hf :=
    have hload := hok.load f hf
    ⟨fun hfresh => ⟨(hload.fresh hfresh).1.declined honly, (hload.fresh hfresh).2⟩,
      fun hp => (hload.handled hp).declined honly, hload.required, hload.rebooting⟩

theorem Ok.changed (hok : Ok n) (hf : n.stateFile = some f) (hstarted : f.convergeStarted = true)
    (hdue : Due f .converged) (handlers : List Handler) (files : List RestartFile) :
    Ok (n.changed handlers files) where
  past file t ht := by
    by_cases hmem : file ∈ files
    · simp only [Node.changed, if_pos hmem, Option.some.injEq] at ht
      exact ht ▸ le_refl _
    · simp only [Node.changed, if_neg hmem] at ht
      exact hok.past file t ht
  written file t ht := by
    by_cases hmem : file ∈ files
    · simpa only [Node.changed, if_pos hmem] using ht
    · simp only [Node.changed, if_neg hmem] at ht ⊢
      exact hok.written file t ht
  seen := hok.seen
  idle hnone := by cases hnone.symm.trans hf
  file := hok.file
  life g hg := ⟨(hok.life g hg).converge, (hok.life g hg).releasing⟩
  hold := hok.hold
  load g hg := by
    cases hf.symm.trans hg
    have hnot : .converged ∉ f.phasesDone := hdue.not_mem
    have hrestarted : .dockerRestarted ∉ f.phasesDone := by
      rw [hdue.converged]
      decide
    refine ⟨fun hfresh => ?_, fun hp => absurd hp hnot, fun hp => absurd hp hnot,
      fun hp => absurd hp hrestarted⟩
    rw [hstarted] at hfresh
    cases hfresh

theorem Ok.save (hok : Ok n) (hf : n.stateFile = some f) (hadv : Advance n f f') :
    Ok (n.save f') where
  past := hok.past
  written := hok.written
  seen g _ := hok.seen f hf
  idle hnone := by cases hnone
  file g hg := by
    cases hg
    exact (hok.file f hf).advance hadv
  life g hg := by
    cases hg
    obtain ⟨hconverge, hreleasing⟩ := hok.life f hf
    refine ⟨fun hmem => ?_, fun hmem => (hreleasing hmem).of_advance hadv⟩
    cases hadv with
    | phase p hcont => exact hcont.convergeStarted (hconverge hmem)
    | amend hcont => exact hcont.convergeStarted (hconverge hmem)
  hold g _ := hok.hold f hf
  load g hg := by
    cases hg
    have hload := hok.load f hf
    cases hadv with
    | amend hcont hdone hd =>
      refine ⟨fun hfresh => hload.fresh ?_, fun hp => hload.handled (hdone ▸ hp), fun hp => ?_,
        fun hp hstale => ?_⟩
      · cases hs : f.convergeStarted with
        | false => rfl
        | true => exact (hcont.convergeStarted hs).symm.trans hfresh
      · rw [hd]
        exact hload.required (hdone ▸ hp)
      · rw [hdone]
        exact hload.rebooting (hdone ▸ hp) hstale
    | phase p hcont hdue hdone hd hconv hrel hverified =>
      refine ⟨fun hfresh => hload.fresh (hconv.symm.trans hfresh), fun hp => ?_,
        fun hp hstale => ?_, fun hp hstale => ?_⟩
      all_goals
        rw [hdone, List.mem_append, List.mem_singleton] at hp
      · rcases hp with hp | rfl
        · exact hload.handled hp
        · exact hverified.2.1
      · rcases hp with hp | rfl
        · obtain ⟨d, hd', hrequired⟩ := hload.required hp hstale
          exact ⟨d, (hcont.decision hp).trans hd', hrequired⟩
        · obtain ⟨-, -, d, hd', -, hrequired⟩ := hverified
          exact ⟨d, hd', hrequired hstale⟩
      · rw [hdone, List.mem_append, List.mem_singleton, not_or]
        rcases hp with hp | rfl
        · obtain ⟨hreboot, hnot⟩ := hload.rebooting hp hstale
          refine ⟨hreboot, hnot, ?_⟩
          rintro rfl
          have hp' : .dockerRestarted ∈ f'.phasesDone := hcont.done _ hp
          exact hstale (hverified hp')
        · refine ⟨hverified hstale, fun hrebooted => ?_, by decide⟩
          rw [hdue.dockerRestarted] at hrebooted
          revert hrebooted
          decide

theorem Ok.opened (hok : Ok n) (hnone : n.stateFile = none) {o : Origin} (hlater : n.Later o)
    (hseen : o.seen ≤ n.history.placed) (book : Playbook) :
    Ok ((n.openLife { playbook := some book, phasesDone := [.held] } o).note .opened) where
  past := hok.past
  written := hok.written
  seen _ _ := hseen
  idle h := by cases h
  file f hf := by
    cases hf
    refine ⟨?_, List.mem_cons_self, fun h => absurd h (by simp), fun _ => by simp,
      fun d hd => (nomatch hd), fun h => (nomatch h), fun h => (nomatch h)⟩
    cases book <;> exact ⟨_, rfl⟩
  life f hf := by
    cases hf
    constructor <;> intro h <;> cases h
  hold _ _ := hlater
  load f hf := by
    cases hf
    exact ⟨fun _ => hok.idle hnone, fun h => absurd h (by simp), fun h => absurd h (by simp),
      fun h => absurd h (by simp)⟩

theorem Ok.remove (hok : Ok n) (hf : n.stateFile = some f)
    (hend : .released ∈ f.phasesDone ∨ f.convergeStarted = false) : Ok n.remove where
  past := hok.past
  written := hok.written
  seen g hg := by cases hg
  idle _ := by
    have hload := hok.load f hf
    have hfile := hok.file f hf
    by_cases hfresh : f.convergeStarted = false
    · exact hload.fresh hfresh
    · have hreleased : .released ∈ f.phasesDone := hend.resolve_right hfresh
      have howner : stateOwner f = .maintainNodes := hfile.maintained (by simpa using hfresh)
      have hconv : .converged ∈ f.phasesDone := hfile.converged_of_released howner (.inr hreleased)
      exact ⟨hload.handled hconv, Node.writtenLoaded_of_loaded
        (hload.loaded hfile hconv (.inr hreleased)) hok.written⟩
  file g hg := by cases hg
  life g hg := by cases hg
  hold g hg := by cases hg
  load g hg := by cases hg

theorem Ok.legal (hok : Ok n) (h : Legal n n') : Ok n' := by
  cases h with
  | quiet => exact hok
  | sawNone hnone hhold => exact hok.note_plain (by decide)
  | sawHeld hhold => exact hok.note_plain (by decide)
  | foundHeld hhold => exact hok.note_plain (by decide)
  | on k number n' hnone hasked hn' =>
    rcases hn' with rfl | rfl
    · exact hok.note_plain (by decide)
    · exact (hok.place (.inl hnone)).note_plain (by decide)
  | opened k o book hnone hasked hlater hseen => exact hok.opened hnone hlater hseen book
  | save f f' hf hadv => exact hok.save hf hadv
  | converge f n' hf hstarted hdue hn' =>
    have hnote : ∀ g, some f = some g →
        ((Event.converge = .converge → g.convergeStarted = true) ∧
          (Event.converge = .releasing → AtRelease g)) := by
      rintro g ⟨⟩
      exact ⟨fun _ => hstarted, fun h => (nomatch h)⟩
    rcases hn' with rfl | rfl | ⟨handlers, files, rfl⟩
    · exact hok.note (by decide) (hf ▸ hnote)
    · exact hok.askReboot.note (by decide) (fun g hg => hnote g (hf ▸ hg))
    · exact (hok.changed hf hstarted hdue handlers files).note (by decide)
        (fun g hg => hnote g (hf ▸ hg))
  | handled h => exact hok.handled h
  | declined h honly => exact hok.declined honly
  | stop f ps hf hdue hheld =>
    exact hok.note_plain ⟨by simp, by simp, by simp⟩
  | packages f n' hf hdue hn' =>
    rcases hn' with rfl | rfl | rfl
    · exact hok.note_plain (by decide)
    · exact hok.askReboot.note_plain (by decide)
    · exact hok.startDocker.note_plain (by decide)
  | dockerRestart f hf hdue => exact hok.startDocker.note_plain (by decide)
  | reboot f hf hdue => exact hok.reboot.note_plain (by decide)
  | start f ps accepted hf hdue => exact hok.note_plain ⟨by simp, by simp, by simp⟩
  | releasing f hf hdue =>
    apply hok.note (by decide)
    intro g hg
    cases hf.symm.trans hg
    exact ⟨fun h => (nomatch h), fun _ => .inl hdue⟩
  | off f hf hdue hreleasing => exact hok.release.note_plain (by decide)
  | autoOff f n' hf hdone hfresh hn' =>
    rcases hn' with rfl | rfl
    · exact hok.note_plain (by decide)
    · exact hok.release.note_plain (by decide)
  | closed f hf hend => exact (hok.remove hf hend).note_plain (by decide)

/-- So does whatever others do. -/
theorem Ok.outside (hok : Ok n) (o : Outside) : Ok (o.act n) := by
  cases o with
  | maintenanceOn => exact hok.place (.inr rfl)
  | maintenanceOff => exact hok.release
  | time elapsed => exact hok.later_time elapsed
  | dockerStarts => exact hok.startDocker
  | nodeReboots => exact hok.reboot
  | rebootAsked => exact hok.askReboot

end Provisioner.NodeUpgrade
