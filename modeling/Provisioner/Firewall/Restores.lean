import Provisioner.Firewall.Applies

/-!
# What a rollback is good for

A run may end anywhere: left to itself until its timers have elapsed and their
scripts are through, a host comes to rest on a table that is accounted for.
Until then no later run comes in the way of the rollback.
-/

namespace Provisioner.Firewall.SafeApply

open Play Setting

variable {R : Type} {T : Tools R} {before : Option R} {m : Machine R} {r : Rollback}

/-! ## Left to itself -/

/-- The commands left to a script. -/
def Stage.left : Stage → ℕ
  | .waiting => 6
  | .mark => 5
  | .test => 4
  | .delete => 3
  | .move | .copy => 2
  | .disable | .restart => 1
  | .done => 0

theorem left_eq_zero {stage : Stage} : stage.left = 0 ↔ stage = .done := by
  cases stage <;> decide

theorem left_le_of_ne {stage : Stage} (h : stage ≠ .waiting) : stage.left ≤ 5 := by
  cases stage with
  | waiting => exact absurd rfl h
  | _ => decide

theorem script_left (T : Tools R) (r : Rollback) (m : Machine R) (h : r.stage ≠ .waiting) :
    (script T r m).2.left ≤ r.stage.left - 1 := by
  rw [script]
  cases hstage : r.stage with
  | waiting => exact absurd hstage h
  | test =>
    simp only
    split <;> decide
  | copy =>
    simp only
    split <;> exact Nat.le_refl _
  | _ => exact Nat.le_refl _

/-- The only rollback has `n` commands to go at the most. -/
structure Under (T : Tools R) (before : Option R) (r : Rollback) (n : ℕ) (m : Machine R)
    (stage : Stage) : Prop where
  single : m.rollbacks = [{ r with stage := stage }]
  staged : Staged T before m { r with stage := stage }
  started : stage ≠ .waiting
  left : stage.left ≤ n

theorem happens_own (hsingle : m.rollbacks = [r]) :
    happens T m (.script r.unit) =
      { (script T r m).1 with rollbacks := [{ r with stage := (script T r m).2 }] } := by
  simp only [happens, hsingle, decide_true, List.find?_cons_of_pos, List.map_cons, List.map_nil,
    Rollback.atStage, if_true]

theorem under_happens {n : ℕ} {stage : Stage} (h : Under T before r n m stage) (e : Event) :
    ∃ stage', Under T before r n (happens T m e) stage' := by
  have hgoes := happens_single (T := T) h.single e
  obtain ⟨stage', hsingle', hstarted', hstaged'⟩ := hgoes.staged h.staged h.single
  refine ⟨stage', hsingle', hstaged', hstarted' h.started, ?_⟩
  have hleft := h.left
  have hsingle := h.single
  generalize happens T m e = m' at *
  cases hgoes with
  | stays =>
    rw [hsingle] at hsingle'
    have hstage : stage = stage' := congrArg Rollback.stage (List.singleton_inj.mp hsingle')
    exact hstage ▸ hleft
  | elapses hwaiting => exact absurd hwaiting h.started
  | goesOn _ _ =>
    have hstage := congrArg Rollback.stage (List.singleton_inj.mp hsingle')
    have hscript := script_left T { r with stage := stage } m h.started
    simp only at hstage hscript
    rw [← hstage]
    omega

theorem under_script {n : ℕ} {stage : Stage} (h : Under T before r (n + 1) m stage) :
    ∃ stage', Under T before r n (happens T m (.script r.unit)) stage' := by
  obtain ⟨stage', hunder⟩ := under_happens h (.script r.unit)
  refine ⟨stage', hunder.single, hunder.staged, hunder.started, ?_⟩
  have hleft := h.left
  have hsingle := hunder.single
  have hscript := script_left T { r with stage := stage } m h.started
  rw [show r.unit = { r with stage := stage }.unit from rfl, happens_own h.single] at hsingle
  have hstage := congrArg Rollback.stage (List.singleton_inj.mp hsingle)
  simp only at hstage hscript
  rw [← hstage]
  omega

def after (T : Tools R) (m : Machine R) (events : List Event) : Machine R :=
  events.foldl (happens T) m

theorem after_frame (T : Tools R) (m : Machine R) (events : List Event) :
    Frame m (after T m events) := by
  induction events generalizing m with
  | nil => exact .refl m
  | cons e events ih => exact (happens_frame T m e).trans (ih (happens T m e))

theorem after_at_rest (h : AtRest m) (events : List Event) : after T m events = m := by
  induction events with
  | nil => rfl
  | cons e events ih =>
    rw [after, List.foldl_cons, happens_at_rest h]
    exact ih

theorem under_replicate {stage : Stage} {n : ℕ} (h : Under T before r n m stage)
    {events : List Event} (hgoes : (List.replicate n (Event.script r.unit)).Sublist events) :
    ∃ stage', Under T before r 0 (after T m events) stage' := by
  induction events generalizing m stage n with
  | nil =>
    have hn : n = 0 := by simpa using List.sublist_nil.mp hgoes
    exact ⟨stage, hn ▸ h⟩
  | cons e events ih =>
    cases n with
    | zero =>
      obtain ⟨stage', hunder⟩ := under_happens h e
      exact ih hunder (List.nil_sublist _)
    | succ n =>
      rw [List.replicate_succ] at hgoes
      cases hgoes with
      | cons _ hrest =>
        obtain ⟨stage', hunder⟩ := under_happens h e
        exact ih hunder hrest
      | cons_cons _ hrest =>
        obtain ⟨stage', hunder⟩ := under_script h
        exact ih hunder hrest

def goesOff (unit : Text) : List Event := .elapse unit :: List.replicate 5 (.script unit)

theorem under_of_started (hsingle : m.rollbacks = [r]) (hstaged : Staged T before m r)
    (hstarted : r.stage ≠ .waiting) : Under T before r 5 m r.stage :=
  ⟨hsingle, hstaged, hstarted, left_le_of_ne hstarted⟩

theorem under_after (hsingle : m.rollbacks = [r]) (hstaged : Staged T before m r)
    {events : List Event} (hgoes : (goesOff r.unit).Sublist events) :
    ∃ stage, Under T before r 0 (after T m events) stage := by
  induction events generalizing m r with
  | nil => exact absurd (List.sublist_nil.mp hgoes) (List.cons_ne_nil _ _)
  | cons e events ih =>
    by_cases hstarted : r.stage = .waiting
    · cases hgoes with
      | cons _ hrest =>
        obtain ⟨stage, hsingle', -, hstaged'⟩ :=
          (happens_single (T := T) hsingle e).staged hstaged hsingle
        obtain ⟨stage', hunder⟩ := ih hsingle' hstaged' hrest
        exact ⟨stage', hunder.single, hunder.staged, hunder.started, hunder.left⟩
      | cons_cons _ hrest =>
        have helapsed : happens T m (.elapse r.unit) =
            { m with rollbacks := [{ r with stage := .mark }] } := by
          simp only [happens, hsingle, List.map_cons, List.map_nil, Rollback.elapsed, hstarted,
            and_self, if_true]
        have hunder : Under T before r 5 (happens T m (.elapse r.unit)) .mark := by
          rw [helapsed]
          exact ⟨rfl, hstaged.elapsed.rollbacks _, by decide, Nat.le_refl 5⟩
        exact under_replicate hunder hrest
    · exact under_replicate (under_of_started hsingle hstaged hstarted)
        ((List.sublist_cons_self _ _).trans hgoes)

theorem run_outside (events : List Event) (w : World (Host R) Reply) :
    (system T).run (events.map Move.outside) w =
      ⟨{ w.state with machine := after T w.state.machine events }, w.stack⟩ := by
  induction events generalizing w with
  | nil => rfl
  | cons e events ih =>
    rw [List.map_cons, System.run, List.foldl_cons]
    exact ih _

theorem run_left_alone (moves : List (Move Reply (Vars T) Event)) (w : World (Host R) Reply)
    (events : List Event) :
    ((system T).run (moves ++ .interrupt :: events.map Move.outside) w).state.machine =
      after T ((system T).run moves w).state.machine events := by
  rw [System.run_append, System.run, List.foldl_cons]
  change ((system T).run (events.map Move.outside) _).state.machine = _
  rw [run_outside]
  rfl

structure Restored (T : Tools R) (m m' : Machine R) (restore : Option Source) : Prop where
  config : m'.config = restore.bind m.file
  running : m'.running = (restore.bind m.file).bind T.load
  table : restore.isSome → m'.running.isSome

theorem Staged.restored {stage : Stage} (h : Staged T before m { r with stage := stage })
    (hdone : stage = .done) {m₀ : Machine R} (hfile : m.file = m₀.file) :
    Restored T m₀ m r.restore := by
  obtain ⟨hrestorable, -, hreached⟩ := h
  subst hdone
  obtain ⟨hconfig, hrunning⟩ := hreached
  rw [hfile] at hconfig hrunning
  refine ⟨hconfig, hrunning, fun hsome => ?_⟩
  obtain ⟨source, hsource⟩ := Option.isSome_iff_exists.mp hsome
  simp only [hsource] at hrestorable hrunning
  obtain ⟨f, k, hf, -, hload⟩ := hrestorable.loads
  rw [hrunning, Option.bind_some, ← hfile, hf, Option.bind_some, hload]
  rfl

/-- Wherever a run ends, its host comes to rest on a table that is accounted
for, as soon as the rollbacks that are scheduled there have gone off: on what
they restore, and on no table only where there was none to restore. -/
theorem left_alone_restores {m : Machine R} (huntouched : Untouched m)
    (moves : List (Move Reply (Vars T) Event))
    (hcalm : ((system T).run moves (untouched m)).state.machine.overtaken = false)
    (events : List Event)
    (hgoes : ∀ r ∈ ((system T).run moves (untouched m)).state.machine.rollbacks,
      (goesOff r.unit).Sublist events) :
    AtRest ((system T).run (moves ++ .interrupt :: events.map Move.outside)
        (untouched m)).state.machine ∧
      Accounted T m.running ((system T).run (moves ++ .interrupt :: events.map Move.outside)
        (untouched m)).state.machine ∧
      Frame ((system T).run moves (untouched m)).state.machine
        ((system T).run (moves ++ .interrupt :: events.map Move.outside)
          (untouched m)).state.machine ∧
      ∀ r ∈ ((system T).run moves (untouched m)).state.machine.rollbacks, r.stage ≠ .done →
        Restored T ((system T).run moves (untouched m)).state.machine
          ((system T).run (moves ++ .interrupt :: events.map Move.outside)
            (untouched m)).state.machine r.restore := by
  rw [run_left_alone]
  have hkept := kept_run huntouched moves hcalm
  generalize ((system T).run moves (untouched m)).state = s at hkept hgoes
  refine and_assoc.mp ⟨?_, after_frame T s.machine events, ?_⟩
  · rcases hkept.sound.covered with ⟨hrest, -, hacc⟩ | ⟨r, hsingle, -, hstaged⟩
    · rw [after_at_rest hrest]
      exact ⟨hrest, hacc⟩
    · obtain ⟨stage, hunder⟩ := under_after hsingle hstaged (hgoes r (hsingle ▸ List.mem_cons_self))
      have hdone : stage = .done := left_eq_zero.mp (Nat.le_zero.mp hunder.left)
      refine ⟨?_, hunder.staged.done hdone⟩
      rw [AtRest, hunder.single]
      exact List.forall_mem_singleton.mpr hdone
  · intro r hr hnot
    rcases hkept.sound.covered with ⟨hrest, -, -⟩ | ⟨q, hsingle, -, hstaged⟩
    · exact absurd (hrest r hr) hnot
    · rw [hsingle, List.mem_singleton] at hr
      subst hr
      obtain ⟨stage, hunder⟩ := under_after hsingle hstaged (hgoes r (hsingle ▸ List.mem_cons_self))
      exact hunder.staged.restored (left_eq_zero.mp (Nat.le_zero.mp hunder.left))
        (after_frame T s.machine events).file

/-! ## Until its timer elapses -/

theorem happens_pending (hsingle : m.rollbacks = [r]) (hwaits : r.waits = true) {e : Event}
    (he : e ≠ .elapse r.unit) : happens T m e = m := by
  have hstage : r.stage = .waiting := by simpa [Rollback.waits] using hwaits
  have hsame : { m with rollbacks := [r] } = m := by rw [← hsingle]
  cases e with
  | elapse unit =>
    have hother : ¬ (r.unit = unit ∧ r.stage = .waiting) := fun h => he (h.1 ▸ rfl)
    rw [happens, hsingle, List.map_cons, List.map_nil, Rollback.elapsed, if_neg hother]
    exact hsame
  | script unit =>
    rcases eq_or_ne r.unit unit with hunit | hunit
    · subst hunit
      have hscript : script T r m = (m, r.stage) := by rw [script, hstage]
      rw [happens_own hsingle, hscript]
      exact hsame
    · rw [happens, hsingle]
      simp only [hunit, decide_false, Bool.false_eq_true, not_false_eq_true,
        List.find?_cons_of_neg, List.find?_nil]

section Pending

variable {K : Machine R → Prop}

/-- Anything may happen but the timer of the rollback elapsing. -/
def pending (T : Tools R) (K : Machine R → Prop) (r : Rollback) (hwaits : r.waits = true)
    (hK : ∀ m, K m → m.rollbacks = [r]) : Setting (Host R) {e : Event // e ≠ .elapse r.unit} where
  ok _ := True
  keep s := K s.machine
  others e s := (system T).outside e.1 s
  ok_others _ _ _ := trivial
  keep_others e s _ h := by
    change K (happens T s.machine e.1)
    rw [happens_pending (hK _ h) hwaits e.2]
    exact h

/-- From facts of `P`, the items run to facts of `Q`, or fail. -/
abbrev Passes (T : Tools R) (K : Machine R → Prop) (r : Rollback) (hwaits : r.waits = true)
    (hK : ∀ m, K m → m.rollbacks = [r]) (P : Facts R → Prop) (items : List (Item R))
    (Q : Facts R → Prop) : Prop :=
  (pending T K r hwaits hK).Does (fun s => P s.facts) items fun s => Q s.facts

variable {hwaits : r.waits = true} {hK : ∀ m, K m → m.rollbacks = [r]} {v : Vars T}
  {P Q : Facts R → Prop}

theorem lasts_pending (P : Facts R → Prop) : (pending T K r hwaits hK).Lasts fun s => P s.facts :=
  fun _ _ _ h => h

theorem passes_registers {f : Host R → Facts R} (h : ∀ s, P s.facts → Q (f s)) :
    Passes T K r hwaits hK P [registers f] Q :=
  does_observes (lasts_pending P) (fun _ _ _ => trivial) fun s _ _ hkeep hs => ⟨hkeep, h s hs⟩

theorem passes_notes {f : Reply → Host R → Facts R} (h : ∀ r s, P s.facts → Q (f r s)) :
    Passes T K r hwaits hK P [notes fun r s => { s with facts := f r s }] Q :=
  does_notes (lasts_pending P) (fun _ _ _ => trivial) fun s r _ hkeep hs => ⟨hkeep, h r s hs⟩

theorem passes_acts {f : Reply → Host R → Host R}
    (h : ∀ s r, K s.machine → P s.facts → K (f r s).machine ∧ P (f r s).facts) :
    Passes T K r hwaits hK P [acts f] P :=
  does_acts (lasts_pending P) (fun _ _ _ => trivial) fun s r _ hkeep hs => h s r hkeep hs

theorem passes_gate {c : Host R → Bool}
    (h : ∀ s, K s.machine → P s.facts → c s = true → Q s.facts) :
    Passes T K r hwaits hK P [gate c] Q :=
  does_gate (lasts_pending P) h

/-- A run that goes through `roles/preflight` ends there. -/
theorem passes_preflight (hpreflight : v.preflight = true) :
    Passes T K r hwaits hK (fun _ => True) (play v) fun _ => True := by
  have hgate : Passes T K r hwaits hK (fun _ => True)
      [.incl (fun _ => v.preflight) [gate fun s => !s.machine.rollbacks.any Rollback.waits]]
      fun _ => False := by
    apply does_incl (lasts_pending fun _ => True)
    · apply does_gate (lasts_pending fun _ => True ∧ v.preflight = true)
      intro s hkeep _ hopen
      rw [hK _ hkeep, List.any_cons, hwaits] at hopen
      cases hopen
    · intro s _ _ hskip
      rw [hpreflight] at hskip
      cases hskip
  exact hgate.cons (.vacuous fun _ => trivial)

/-! ### Past the preflight -/

/-- What no run changes while the rollback of an earlier one is waiting. -/
structure Spared (m m' : Machine R) : Prop where
  rollbacks : m'.rollbacks = m.rollbacks
  running : m'.running = m.running
  applied : m'.applied = m.applied
  appliedSha256 : m'.appliedSha256 = m.appliedSha256
  adopted : m'.adopted = m.adopted
  startedUnit : m'.startedUnit = m.startedUnit
  active : m'.active = m.active

def Known (r : Rollback) (f : Facts R) : Prop := f.firewallRollbackPending = [r]

theorem passes_keep : Passes T K r hwaits hK (Known r) (keepRunningTable T) (Known r) := by
  have hskips : ∀ (cond : Host R → Bool) (items : List (Item R)),
      (∀ s, cond s = true → s.facts.firewallRollbackPending.isEmpty = true) →
      Passes T K r hwaits hK (Known r) [.incl cond items] (Known r) := by
    intro cond items hcond
    apply does_incl (lasts_pending (Known r))
    · refine (Does.vacuous fun _ => trivial).pre fun s _ hs => ?_
      have hempty := hcond s hs.2
      rw [hs.1] at hempty
      cases hempty
    · exact fun _ _ hs _ => hs
  apply (hskips _ _ _).cons (hskips _ _ _)
  all_goals
    intro s hs
    simp only [Bool.and_eq_true] at hs
    exact hs.1.2

theorem passes_apply : Passes T K r hwaits hK (Known r) (apply v) (Known r) := by
  have hprepare : Passes T K r hwaits hK (Known r) prepareRollback (Known r) := by
    apply Does.cons (M := fun s => Known r s.facts)
    · exact passes_notes fun _ _ hs => hs
    · exact passes_registers fun _ hs => hs
  have hrefuse : Passes T K r hwaits hK (Known r) [refusePending] fun _ => False := by
    apply passes_gate
    intro s _ hs hopen
    rw [hs] at hopen
    cases hopen
  simp only [apply, List.append_assoc]
  exact hprepare.append (hrefuse.append (.vacuous fun _ => trivial))

variable {m₀ : Machine R}

theorem spared_single (hsingle : m₀.rollbacks = [r]) (m : Machine R) (h : Spared m₀ m) :
    m.rollbacks = [r] :=
  h.rollbacks.trans hsingle

theorem passes_timers (hsingle : m₀.rollbacks = [r]) :
    Passes T (Spared m₀) r hwaits (spared_single hsingle) (fun _ => True) [readRollbackTimers]
      (Known r) := by
  apply does_observes (lasts_pending fun _ => True) fun _ _ _ => trivial
  intro s _ _ hkeep _
  refine ⟨⟨hkeep.1, hkeep.2, hkeep.3, hkeep.4, hkeep.5, hkeep.6, hkeep.7⟩, ?_⟩
  change s.machine.rollbacks.filter Rollback.waits = [r]
  rw [hkeep.rollbacks, hsingle, List.filter_cons_of_pos hwaits, List.filter_nil]

theorem passes_nftables (hsingle : m₀.rollbacks = [r]) :
    Passes T (Spared m₀) r hwaits (spared_single hsingle) (fun _ => True) (nftables v)
      (Known r) := by
  have hrender : Passes T (Spared m₀) r hwaits (spared_single hsingle) (Known r) (renderTable v)
      (Known r) := by
    apply Does.cons (M := fun s => Known r s.facts)
    · exact passes_gate fun _ _ hs _ => hs
    · exact passes_acts fun s _ hkeep hs =>
        ⟨⟨hkeep.1, hkeep.2, hkeep.3, hkeep.4, hkeep.5, hkeep.6, hkeep.7⟩, hs⟩
  have hinstall : Passes T (Spared m₀) r hwaits (spared_single hsingle) (Known r) (installUnit v)
      (Known r) := by
    apply Does.cons (M := fun s => Known r s.facts)
    all_goals
      exact passes_acts fun s _ hkeep hs =>
        ⟨⟨hkeep.1, hkeep.2, hkeep.3, hkeep.4, hkeep.5, hkeep.6, hkeep.7⟩, hs⟩
  have hregisters : ∀ f : Host R → Facts R, (∀ s, Known r s.facts → Known r (f s)) →
      Passes T (Spared m₀) r hwaits (spared_single hsingle) (Known r) [registers f] (Known r) :=
    fun _ h => passes_registers h
  have hdecide : Passes T (Spared m₀) r hwaits (spared_single hsingle) (Known r) (decideApply T)
      (Known r) := by
    refine Does.cons (M := fun s => Known r s.facts) ?_
      (Does.cons (M := fun s => Known r s.facts) ?_
        (Does.cons (M := fun s => Known r s.facts) ?_ ?_))
    · exact hregisters _ fun _ hs => hs
    · exact hregisters _ fun _ hs => hs
    · exact hregisters _ fun _ hs => hs
    · exact passes_notes fun _ _ hs => hs
  have hread : Passes T (Spared m₀) r hwaits (spared_single hsingle) (fun _ => True)
      [registers fun s => { s.facts with firewallPrevious := s.machine.applied.isSome },
        readRollbackTimers,
        registers fun s => { s.facts with firewallRunningTable := s.machine.running }]
      (Known r) := by
    refine Does.cons (M := fun _ => True) ?_ (Does.cons (M := fun s => Known r s.facts) ?_ ?_)
    · exact does_observes (lasts_pending fun _ => True) (fun _ _ _ => trivial)
        fun _ _ _ hkeep _ => ⟨hkeep, trivial⟩
    · exact passes_timers hsingle
    · exact hregisters _ fun _ hs => hs
  have hadopted : Passes T (Spared m₀) r hwaits (spared_single hsingle) (Known r)
      [registers fun s => { s.facts with firewallAdopted := s.machine.adopted.isSome }]
      (Known r) :=
    hregisters _ fun _ hs => hs
  have hend : Passes T (Spared m₀) r hwaits (spared_single hsingle) (Known r)
      [.incl (fun s => !s.facts.firewallApplyReasons.isEmpty) (apply v),
        sets fun s => { s.facts with completed := true }] (Known r) := by
    apply Does.cons (M := fun s => Known r s.facts)
    · exact does_incl (lasts_pending (Known r)) (passes_apply.pre fun _ _ hs => hs.1)
        fun _ _ hs _ => hs
    · exact passes_notes fun _ _ hs => hs
  exact (((((hread.append passes_keep).append hadopted).append hrender).append hinstall).append
    hdecide).append hend

theorem passes_play (hsingle : m₀.rollbacks = [r]) :
    Passes T (Spared m₀) r hwaits (spared_single hsingle) (fun _ => True) (play v) (Known r) := by
  refine Does.cons (M := fun _ => True) ?_ (passes_nftables hsingle)
  apply does_incl (lasts_pending fun _ => True)
  · exact does_gate (lasts_pending fun _ => True ∧ v.preflight = true) fun _ _ _ _ => trivial
  · exact fun _ _ _ _ => trivial

end Pending

/-- A world in which no run is going on. -/
theorem good_pending {K : Machine R → Prop} (hwaits : r.waits = true)
    (hK : ∀ m, K m → m.rollbacks = [r]) {s : Host R} (h : K s.machine) :
    System.Good (pending T K r hwaits hK).contract (⟨s, []⟩ : World (Host R) Reply) :=
  ⟨fun _ => h, safe_nil _⟩

/-- Until its timer elapses, the rollback of a run that ended stays scheduled,
and no later run touches the running table or the records; one that goes
through `roles/preflight` changes nothing but its own connection. -/
theorem pending_spared {s : Host R} (hsingle : s.machine.rollbacks = [r]) (hwaits : r.waits = true)
    (moves : List (Move Reply (Vars T) Event)) (hquiet : .outside (.elapse r.unit) ∉ moves) :
    Spared s.machine ((system T).run moves ⟨s, []⟩).state.machine ∧
      ((∀ v, .start v ∈ moves → v.preflight = true) →
        ∃ c, ((system T).run moves ⟨s, []⟩).state.machine =
          { s.machine with connection := c }) := by
  have hothers : ∀ e : Event, .outside e ∈ moves → e ≠ .elapse r.unit := by
    rintro e he rfl
    exact hquiet he
  refine ⟨?_, fun hpreflight => ?_⟩
  · have hgood := good_pending (T := T) hwaits (spared_single hsingle) (s := s)
      ⟨rfl, rfl, rfl, rfl, rfl, rfl, rfl⟩
    refine (System.good_run_of_allowed (S := system T) (p := (· ∈ moves)) ?_ ?_ hgood
      fun _ h => h).1 trivial
    · intro v _ t ht
      have hspared := ht trivial
      refine ⟨fun _ => ?_, (passes_play hsingle).safe fun _ => trivial⟩
      exact ⟨hspared.1, hspared.2, hspared.3, hspared.4, hspared.5, hspared.6, hspared.7⟩
    · exact fun e he t => ⟨⟨e, hothers e he⟩, rfl⟩
  · have hK : ∀ m, (∃ c, m = { s.machine with connection := c }) → m.rollbacks = [r] := by
      rintro m ⟨c, rfl⟩
      exact hsingle
    have hgood := good_pending (T := T) hwaits hK (s := s) ⟨s.machine.connection, rfl⟩
    refine (System.good_run_of_allowed (S := system T) (p := (· ∈ moves)) ?_ ?_ hgood
      fun _ h => h).1 trivial
    · intro v hv t ht
      obtain ⟨c, hc⟩ := ht trivial
      refine ⟨fun _ => ⟨some v.port, ?_⟩,
        (passes_preflight (hpreflight v hv)).safe fun _ => trivial⟩
      change { t.machine with connection := some v.port } = _
      rw [hc]
    · exact fun e he t => ⟨⟨e, hothers e he⟩, rfl⟩

def withTable : Machine Text := { running := some ("table inet cs_static { old }" : Text) }

theorem untouched_withTable : Untouched withTable :=
  ⟨rfl, rfl, rfl, rfl, rfl, .inr (.inl rfl)⟩

def cutApply : Moves := .start (vars "unit 1") :: tasks 27

def elapses : List Event := goesOff "cs-firewall-rollback-1"

theorem left_alone_restores_cut_apply :
    Restored tools ((system tools).run cutApply (untouched withTable)).state.machine
      ((system tools).run (cutApply ++ .interrupt :: elapses.map Move.outside)
        (untouched withTable)).state.machine (some .adopted) :=
  (left_alone_restores untouched_withTable cutApply (by decide) elapses (by decide)).2.2.2
    ⟨"cs-firewall-rollback-1", some .adopted, .waiting⟩ (by decide) (by decide)

/-- A run that does not go through `roles/preflight`, with another unit. -/
def withoutPreflight : Moves := .start { vars "unit 2" with preflight := false } :: tasks 50

/-- It follows one that was cut once its table was in place. -/
theorem pending_spared_second_run :
    Spared ((system tools).run cutApply (untouched withTable)).state.machine
      ((system tools).run withoutPreflight
        ⟨((system tools).run cutApply (untouched withTable)).state, []⟩).state.machine :=
  (pending_spared (r := ⟨"cs-firewall-rollback-1", some .adopted, .waiting⟩) (by decide) (by decide)
    withoutPreflight (by simp [withoutPreflight, tasks])).1

end Provisioner.Firewall.SafeApply
