import Provisioner.Firewall.Verified

/-!
# Cancelling and recording

A run takes its rollback back, looks whether it had fired all the same, and
then records the table. A run that comes to its end leaves the host settled.
-/

namespace Provisioner.Firewall.SafeApply

open Play Setting

variable {R : Type} {T : Tools R} {before : Option R} {v : Vars T} {s : Host R} {m : Machine R}

/-! ## Taking the rollback back -/

def EndFlags (v : Vars T) (f : Facts R) : Prop :=
  f.preflighted = v.preflight ∧ f.scheduled = true ∧ f.recorded = false ∧ f.completed = false

def TakenBack (v : Vars T) (s : Host R) : Prop :=
  s.machine.rollbacks = [] ∧ s.facts.cancelled = true ∧
    (s.facts.firewallApplyProblem = none → Proven v s)

def Ended (v : Vars T) (s : Host R) : Prop :=
  (UnitRead v s.machine ∧ EndFlags v s.facts) ∧
    (s.facts.cancelled = false ∧
      (Fired s ∨ (Armed s ∧ (s.facts.firewallApplyProblem = none → Proven v s))) ∨ TakenBack v s)

theorem at_rest_nil (h : m.rollbacks = []) : AtRest m := by
  intro r hr
  rw [h] at hr
  cases hr

theorem lasts_ended : Lasts T before (Ended v) := by
  rintro s e hkeep ⟨⟨hunit, hflags⟩, hended⟩
  refine ⟨⟨lasts_unit_read s e hkeep hunit, hflags⟩, ?_⟩
  change s.facts.cancelled = false ∧ (Fired { s with machine := happens T s.machine e } ∨
      Armed { s with machine := happens T s.machine e } ∧
        (s.facts.firewallApplyProblem = none → Proven v { s with
          machine := happens T s.machine e })) ∨
    TakenBack v { s with machine := happens T s.machine e }
  rcases hended with ⟨hcancelled, hfired | ⟨harmed, hproven⟩⟩ | htaken
  · exact .inl ⟨hcancelled, .inl (happens_fired hfired e)⟩
  · rcases happens_armed (T := T) harmed e with hsame | hmark
    · rw [hsame]
      exact .inl ⟨hcancelled, .inr ⟨harmed, hproven⟩⟩
    · exact .inl ⟨hcancelled, .inl ⟨.mark, fun hwaiting => (nomatch hwaiting), hmark⟩⟩
  · rw [happens_at_rest (at_rest_nil htaken.1)]
    exact .inr htaken

theorem filter_fired {stage : Stage} (hstage : stage ≠ .waiting)
    (hsingle : s.machine.rollbacks = [own s.facts stage]) :
    s.machine.rollbacks.filter (fun b => !ownWaiting s.facts b) = s.machine.rollbacks ∧
      s.machine.rollbacks.any (ownWaiting s.facts) = false := by
  have hnot : ownWaiting s.facts (own s.facts stage) = false := by
    simp [ownWaiting, own, Rollback.waits, hstage]
  rw [hsingle]
  simp [hnot]

theorem filter_armed (harmed : Armed s) :
    s.machine.rollbacks.filter (fun b => !ownWaiting s.facts b) = [] ∧
      s.machine.rollbacks.any (ownWaiting s.facts) = true := by
  have hown : ownWaiting s.facts (own s.facts .waiting) = true := by
    simp [ownWaiting, own, Rollback.waits]
  rw [show s.machine.rollbacks = _ from harmed]
  simp [hown]

theorem InPlace.running {v : Vars T} (h : InPlace v s) : s.machine.running.isSome := by
  obtain ⟨-, k, -, hrunning, -⟩ := h
  rw [hrunning]
  rfl

theorem kept_taken_back (hkeep : Kept T before s) (hproven : Proven v s) {f : Facts R}
    (hcancelled : f.cancelled = true) (hrecorded : f.recorded = false) (hcompleted : f.completed = false) :
    Kept T before { s with machine := { s.machine with rollbacks := [] }, facts := f } := by
  have hrest : AtRest { s.machine with rollbacks := [] } := at_rest_nil rfl
  have hopen : f.recordOpen = true := by
    rw [Facts.recordOpen, hcancelled, hrecorded]
    rfl
  refine ⟨⟨⟨hkeep.sound.recorded.applied, hkeep.sound.recorded.sha256⟩, hkeep.sound.adopted,
    .inl ⟨hrest, Nat.zero_le 1, .inl ⟨hproven.1.running, hproven.2.1⟩⟩⟩, fun hlost => ⟨?_, ?_, ?_, ?_, ?_⟩⟩
  · intro hclosed
    rw [hopen] at hclosed
    cases hclosed
  · intro hclosed
    rw [hopen] at hclosed
    cases hclosed
  · obtain ⟨-, k, -, -, -, hstarted⟩ := hproven.1
    exact fun _ _ => .inr (.inr hstarted)
  · exact fun _ hnot => absurd hrest hnot
  · intro htrue
    rw [hcompleted] at htrue
    cases htrue

theorem does_cancel :
    Does T before (Held v Fired fun s => s.facts.firewallApplyProblem = none → Proven v s)
      cancelRollback (Ended v) := by
  apply does_incl lasts_held
  · apply Does.pre (P := Held v Fired (Proven v))
    · apply does_ignoring lasts_held
      · exact fun _ _ hok => hok
      · rintro s - ok - hkeep ⟨⟨hunit, hflags⟩, ⟨stage, hstage, hsingle⟩ | ⟨harmed, hproven⟩⟩
        · obtain ⟨hfilter, hany⟩ := filter_fired hstage hsingle
          have hcancelled : (s.facts.cancelled || s.machine.rollbacks.any (ownWaiting s.facts)) =
              false := by
            rw [hany, hflags.2.2.1]
            rfl
          rw [hfilter, hcancelled]
          refine ⟨hkeep.facts rfl ?_ hflags.2.2.2.2, ⟨hunit, hflags.1, hflags.2.1, hflags.2.2.2⟩,
            .inl ⟨rfl, .inl ⟨stage, hstage, hsingle⟩⟩⟩
          simp only [Facts.recordOpen, hflags.2.2.1]
        · obtain ⟨hfilter, hany⟩ := filter_armed harmed
          rw [hfilter, hany, Bool.or_true]
          exact ⟨kept_taken_back hkeep hproven rfl hflags.2.2.2.1 hflags.2.2.2.2,
            ⟨hunit, hflags.1, hflags.2.1, hflags.2.2.2⟩, .inr ⟨rfl, rfl, fun _ => hproven⟩⟩
      · rintro s hkeep ⟨⟨hunit, hflags⟩, hheld⟩
        refine ⟨hkeep, ⟨hunit, hflags.1, hflags.2.1, hflags.2.2.2⟩, .inl ⟨hflags.2.2.1, ?_⟩⟩
        rcases hheld with hfired | ⟨harmed, hproven⟩
        · exact .inl hfired
        · exact .inr ⟨harmed, fun _ => hproven⟩
    · rintro s - ⟨⟨hheld, hfired | ⟨harmed, hV⟩⟩, hcond⟩
      · exact ⟨hheld, .inl hfired⟩
      · exact ⟨hheld, .inr ⟨harmed, hV (Option.isNone_iff_eq_none.mp hcond)⟩⟩
  · rintro s - ⟨⟨hunit, hflags⟩, hheld⟩ -
    exact ⟨⟨hunit, hflags.1, hflags.2.1, hflags.2.2.2⟩, .inl ⟨hflags.2.2.1, hheld⟩⟩

/-! ## Looking whether it fired -/

theorem cancelled_taken_back (h : Ended v s) (hstate : rollbackState s = .cancelled) :
    TakenBack v s := by
  rw [rollbackState] at hstate
  split at hstate
  · cases hstate
  rename_i hnot
  split at hstate
  · cases hstate
  rename_i hnone
  rcases h.2 with ⟨-, ⟨stage, hstage, hsingle⟩ | ⟨harmed, -⟩⟩ | htaken
  · refine absurd (.inr ⟨own s.facts stage, ?_, rfl, ?_⟩) hnot
    · rw [hsingle]
      exact List.mem_cons_self
    · simp [own, Rollback.waits, hstage]
  · refine absurd ⟨own s.facts .waiting, ?_, rfl⟩ hnone
    rw [show s.machine.rollbacks = _ from harmed]
    exact List.mem_cons_self
  · exact htaken

/-- No problem is left only where the rollback is taken back and the table proven. -/
def Checked (v : Vars T) (s : Host R) : Prop :=
  (UnitRead v s.machine ∧ EndFlags v s.facts) ∧
    (s.facts.firewallApplyProblem = none →
      AtRest s.machine ∧ s.machine.rollbacks = [] ∧ s.facts.cancelled = true ∧ Proven v s)

theorem lasts_state : Lasts T before fun s => Ended v s ∧
    (s.facts.firewallRollbackState = some .cancelled → AtRest s.machine ∧ TakenBack v s) :=
  lasts_ended.and fun s e hkeep h hstate => lasts_at_rest s e hkeep (h hstate)

theorem does_check : Does T before (Ended v) checkRollback (Checked v) := by
  apply does_incl lasts_ended
  · apply Does.pre (P := Ended v)
    · apply Does.cons (M := fun s => Ended v s ∧
        (s.facts.firewallRollbackState = some .cancelled → AtRest s.machine ∧ TakenBack v s))
      · apply does_ignoring_facts lasts_ended
        · exact fun s ok hs => ⟨rfl, rfl, hs.1.2.2.2.2⟩
        · intro s ok hs
          refine ⟨hs, fun hstate => ?_⟩
          cases ok with
          | false => cases hstate
          | true =>
            have htaken := cancelled_taken_back hs (Option.some.inj hstate)
            exact ⟨at_rest_nil htaken.1, htaken⟩
      · apply does_sets lasts_state
        · exact fun s hs => ⟨rfl, rfl, hs.1.1.2.2.2.2⟩
        · rintro s - ⟨hended, hstate⟩
          refine ⟨hended.1, fun hnone => ?_⟩
          obtain ⟨hproblem, hcheck⟩ := first_problem.mp hnone
          have hcancelled : s.facts.firewallRollbackState = some .cancelled := by
            cases hs : s.facts.firewallRollbackState with
            | none => simp [hs] at hcheck
            | some state =>
              cases state with
              | cancelled => rfl
              | fired => simp [hs] at hcheck
              | pending => simp [hs] at hcheck
          obtain ⟨hrest, hempty, hcancelled, hproven⟩ := hstate hcancelled
          exact ⟨hrest, hempty, hcancelled, hproven hproblem⟩
    · exact fun s _ hs => hs.1
  · rintro s - hs hcond
    refine ⟨hs.1, fun hnone => ?_⟩
    rw [noProblem, hnone] at hcond
    cases hcond

/-! ## Recording -/

def Recording (v : Vars T) (P : Host R → Prop) (s : Host R) : Prop :=
  UnitRead v s.machine ∧ s.facts.scheduled = true ∧ s.facts.completed = false ∧
    (s.facts.firewallApplyProblem = none →
      AtRest s.machine ∧ s.machine.rollbacks = [] ∧ Proven v s ∧ P s)

theorem lasts_recording {P : Host R → Prop} : Lasts T before (Recording v P) := by
  rintro s e hkeep ⟨hunit, hscheduled, hcompleted, hnone⟩
  exact ⟨lasts_unit_read s e hkeep hunit, hscheduled, hcompleted,
    fun hproblem => lasts_at_rest (P := fun s => s.machine.rollbacks = [] ∧ Proven v s ∧ P s)
      s e hkeep (hnone hproblem)⟩

theorem does_record {items : List (Item R)} {P Q : Host R → Prop}
    (h : Does T before (fun s => (UnitRead v s.machine ∧ s.facts.scheduled = true ∧
      s.facts.completed = false) ∧ AtRest s.machine ∧ s.machine.rollbacks = [] ∧ Proven v s ∧ P s)
      items (Recording v Q)) :
    Does T before (Recording v P) [.incl noProblem items] (Recording v Q) := by
  apply does_incl lasts_recording
  · apply h.pre
    rintro s - ⟨⟨hunit, hscheduled, hcompleted, hnone⟩, hcond⟩
    exact ⟨⟨hunit, hscheduled, hcompleted⟩, hnone (Option.isNone_iff_eq_none.mp hcond)⟩
  · rintro s - ⟨hunit, hscheduled, hcompleted, -⟩ hcond
    refine ⟨hunit, hscheduled, hcompleted, fun hnone => ?_⟩
    rw [noProblem, hnone] at hcond
    cases hcond

theorem lasts_record {P : Host R → Prop} :
    Lasts T before fun s => (UnitRead v s.machine ∧ s.facts.scheduled = true ∧
      s.facts.completed = false) ∧ AtRest s.machine ∧ s.machine.rollbacks = [] ∧ Proven v s ∧ P s :=
  (lasts_unit_read.and (lasts_facts fun f => f.scheduled = true ∧ f.completed = false)).and
    lasts_at_rest

theorem accounted_proven (hproven : Proven v s) {m : Machine R}
    (hrunning : m.running = s.machine.running) (hfresh : m.fresh = s.machine.fresh) :
    Accounted T before m := by
  refine .inl ⟨?_, ?_⟩
  · rw [hrunning]
    exact hproven.1.running
  · rw [hfresh]
    exact hproven.2.1

theorem does_recordTable : Does T before
    (Recording v fun s => s.facts.cancelled = true ∧ s.facts.recorded = false)
    [.incl noProblem
      [gate fun s => s.machine.config.isSome, changes fun m => { m with applied := m.config }]]
    (Recording v fun s => (s.facts.cancelled = true ∧ s.facts.recorded = false) ∧
      s.machine.applied = some v.table) := by
  apply does_record
  apply Does.cons (does_gate lasts_record fun s _ hs _ => hs)
  apply does_acts lasts_record
  · exact fun _ _ hok => hok
  · rintro s r - hkeep ⟨⟨hunit, hscheduled, hcompleted⟩, hrest, hempty, hproven, hcancelled, hrecorded⟩
    obtain ⟨k, hk, hload⟩ := hproven.2.2
    have hconfig : s.machine.config = some v.table := hproven.1.1.1
    have hopen : s.facts.recordOpen = true := by
      rw [Facts.recordOpen, hcancelled, hrecorded]
      rfl
    have happlied : ∀ f, s.machine.config = some f → f ≠ [] ∧ ∃ k ∈ s.machine.verified,
        T.load f = some k := by
      intro f hf
      rw [hconfig] at hf
      cases hf
      exact ⟨T.rendered_ne _ v.rendered, k, hk, hload⟩
    refine ⟨⟨⟨⟨happlied, fun d hd => ⟨?_, (hkeep.sound.recorded.sha256 d hd).2⟩⟩, hkeep.sound.adopted,
      .inl ⟨hrest, (hkeep.sound.accounted hrest).1, accounted_proven hproven rfl rfl⟩⟩, fun hlost => ?_⟩,
      hunit, hscheduled, hcompleted, fun _ =>
        ⟨hrest, hempty, hproven, ⟨hcancelled, hrecorded⟩, hconfig⟩⟩
    · change s.machine.config ≠ none
      rw [hconfig]
      exact fun hnone => nomatch hnone
    · obtain ⟨-, -, hunit', hreload, -⟩ := hkeep.unlost hlost
      refine ⟨fun hclosed => ?_, fun hclosed => ?_, hunit', hreload, fun htrue => ?_⟩
      · exact absurd (hopen.symm.trans hclosed) (by decide)
      · exact absurd (hopen.symm.trans hclosed) (by decide)
      · exact absurd (hcompleted.symm.trans htrue) (by decide)

theorem does_record_sha256 : Does T before
    (Recording v fun s => (s.facts.cancelled = true ∧ s.facts.recorded = false) ∧
      s.machine.applied = some v.table)
    [.incl noProblem
      [gate fun s => s.facts.firewallTableNow.isSome,
        acts fun _ s => {
          machine := { s.machine with appliedSha256 := s.facts.firewallTableNow }
          facts := { s.facts with recorded := true }
          lost := s.lost }]]
    (Recording v fun _ => True) := by
  apply does_record
  apply Does.cons (does_gate lasts_record fun s _ hs _ => hs)
  apply does_acts lasts_record
  · exact fun _ _ hok => hok
  · rintro s r - hkeep ⟨⟨hunit, hscheduled, hcompleted⟩, hrest, hempty, hproven, -, happlied⟩
    obtain ⟨k, hk, hload⟩ := hproven.2.2
    have hnow : s.facts.firewallTableNow = some (T.sha256 v.table) := hproven.1.1.2.2
    have hsha : ∀ d, s.facts.firewallTableNow = some d → T.sha256 v.table = d := by
      intro d hd
      rw [hnow] at hd
      exact Option.some.inj hd
    have hruns : Runs T s.machine s.machine.applied := by
      obtain ⟨-, k', hload', hrunning, -⟩ := hproven.1
      exact ⟨v.table, k', happlied, hload', hrunning⟩
    refine ⟨⟨⟨⟨hkeep.sound.recorded.applied, fun d hd => ⟨?_, v.table, k, hk, hsha d hd, hload⟩⟩,
      hkeep.sound.adopted, .inl ⟨hrest, (hkeep.sound.accounted hrest).1,
        accounted_proven hproven rfl rfl⟩⟩, fun hlost => ?_⟩,
      hunit, hscheduled, hcompleted, fun _ => ⟨hrest, hempty, hproven, trivial⟩⟩
    · change s.machine.applied ≠ none
      rw [happlied]
      exact fun hnone => nomatch hnone
    · obtain ⟨-, -, hunit', hreload, -⟩ := hkeep.unlost hlost
      refine ⟨fun _ d hd => ⟨v.table, happlied, v.rendered, hsha d hd⟩, fun _ _ _ => hruns, hunit',
        hreload, fun htrue => ?_⟩
      exact absurd (hcompleted.symm.trans htrue) (by decide)

theorem does_forget : Does T before (Recording v fun _ => True)
    [.incl noProblem [changes fun m => { m with adopted := none }]]
    (Recording v fun _ => True) := by
  apply does_record
  apply does_acts lasts_record
  · exact fun _ _ hok => hok
  · rintro s r - hkeep ⟨⟨hunit, hscheduled, hcompleted⟩, hrest, hempty, hproven, -⟩
    exact ⟨hkeep.adopted hrest hcompleted (fun f hf => (nomatch hf)) (accounted_proven hproven rfl rfl),
      hunit, hscheduled, hcompleted, fun _ => ⟨hrest, hempty, hproven, trivial⟩⟩

theorem settled_proven (hunit : UnitRead v s.machine) (hproven : Proven v s) :
    Settled T s.machine := by
  obtain ⟨⟨⟨hconfig, henabled, -⟩, k, hload, hrunning, hactive, hstarted⟩, -, k', hk', hload'⟩ := hproven
  have heq : k' = k := Option.some.inj (hload'.symm.trans hload)
  rw [heq] at hk'
  exact ⟨v.table, k, v.unit, hconfig, hload, hrunning, hk', hunit.1, hunit.2.trans hunit.1,
    hstarted.trans hunit.1, henabled, hactive⟩

def Arrived (T : Tools R) (s : Host R) : Prop :=
  s.facts.completed = false ∧ (s.facts.preflighted = true → s.lost = false →
    AtRest s.machine ∧ Settled T s.machine)

theorem lasts_arrived : Lasts T before (Arrived T) := by
  rintro s e hkeep ⟨hcompleted, hsettled⟩
  exact ⟨hcompleted, fun hpreflighted hlost =>
    lasts_at_rest (P := fun s => Settled T s.machine) s e hkeep (hsettled hpreflighted hlost)⟩

theorem does_record_all : Does T before (Checked v) recordTable (Arrived T) := by
  apply Does.pre (P := Recording v fun s => s.facts.cancelled = true ∧ s.facts.recorded = false)
  · apply Does.cons does_recordTable
    apply Does.cons does_record_sha256
    apply Does.cons does_forget
    apply does_gate lasts_recording
    rintro s - ⟨hunit, -, hcompleted, hnone⟩ hgate
    obtain ⟨hrest, -, hproven, -⟩ := hnone (Option.isNone_iff_eq_none.mp hgate)
    exact ⟨hcompleted, fun _ _ => ⟨hrest, settled_proven hunit hproven⟩⟩
  · rintro s - ⟨⟨hunit, -, hscheduled, hrecorded, hcompleted⟩, hnone⟩
    refine ⟨hunit, hscheduled, hcompleted, fun hproblem => ?_⟩
    obtain ⟨hrest, hempty, hcancelled, hproven⟩ := hnone hproblem
    exact ⟨hrest, hempty, hproven, hcancelled, hrecorded⟩

/-! ## The whole run -/

theorem does_apply_all :
    Does T before (fun s => UnitRead v s.machine ∧ Early v (Decided before v) s) (apply v)
      (Arrived T) :=
  (((((((does_prepare.append (does_refuse.append does_cleanUp)).append does_schedule).append
    does_apply).append does_allow).append does_verify).append does_cancel).append
      does_check).append does_record_all

theorem settled_unneeded (hkeep : Kept T before s) (hlost : s.lost = false)
    (hunit : UnitRead v s.machine) (hflags : Flags v false s.facts) (hrest : AtRest s.machine)
    (hdecided : Decided before v s) (hnone : s.facts.firewallApplyReasons = []) :
    Settled T s.machine := by
  obtain ⟨⟨⟨⟨hloaded, hrecord⟩, hnow⟩, hactive⟩, hreasons⟩ := hdecided
  obtain ⟨⟨⟨⟨⟨⟨-, hsnapshot⟩, -⟩, -⟩, hconfig⟩, hrewrote⟩, henabled⟩ := hloaded
  have hnot := hreasons.symm.trans hnone
  simp only [applyReasons, List.append_eq_nil_iff, ite_eq_right_iff] at hnot
  obtain ⟨⟨⟨hchanged, hverified⟩, hstopped⟩, habsent⟩ := hnot
  have hunlost := hkeep.unlost hlost
  have hunit_closed : s.facts.unitOpen = false := by
    have hsame : s.facts.rewrote = false := by
      cases hr : s.facts.rewrote with
      | false => rfl
      | true => exact absurd (hchanged (hrewrote.trans hr)) (by simp)
    rw [Facts.unitOpen, hsame]
    rfl
  have hrecord_closed : s.facts.recordOpen = false := by
    rw [Facts.recordOpen, hflags.2.2.1]
    rfl
  have hrunning : s.machine.running ≠ none := by
    intro hno
    exact absurd (habsent (by rw [hsnapshot, hno]; rfl)) (by simp)
  have hon : s.machine.active = true := by
    cases ha : s.machine.active with
    | true => rfl
    | false => exact absurd (hstopped (by rw [hactive, ha]; rfl)) (by simp)
  have hsame : s.machine.appliedSha256.getD [] = T.sha256 v.table := by
    by_contra hne
    refine absurd (hverified ?_) (by simp)
    rw [hrecord, hnow]
    simp [hne]
  have hrecorded : ∃ d, s.machine.appliedSha256 = some d := by
    cases hd : s.machine.appliedSha256 with
    | none =>
      rw [hd, Option.getD_none] at hsame
      exact absurd hsame.symm (T.sha256_ne v.table)
    | some d => exact ⟨d, rfl⟩
  obtain ⟨d, hd⟩ := hrecorded
  rw [hd, Option.getD_some] at hsame
  obtain ⟨f, happlied, hrendered, hsha⟩ := hunlost.sha256 hrecord_closed d hd
  have hfile : f = v.table := T.sha256_inj f v.table hrendered v.rendered (hsha.trans hsame)
  have hsome : s.machine.appliedSha256 ≠ none := by
    rw [hd]
    exact Option.some_ne_none d
  obtain ⟨f', k, hf', hload, hruns⟩ := hunlost.running hrecord_closed hrest hsome
  rw [happlied, hfile] at hf'
  cases hf'
  obtain ⟨-, k', hk', hload'⟩ := hkeep.sound.recorded.applied f happlied
  rw [hfile] at hload'
  have heq : k' = k := Option.some.inj (hload'.symm.trans hload)
  rw [heq] at hk'
  have hstarted : s.machine.startedUnit = s.machine.unitFile := by
    rcases hunlost.unit hunit_closed hrest with hno | hoff | hstarted
    · exact absurd hno hrunning
    · rw [hon] at hoff
      cases hoff
    · exact hstarted
  exact ⟨v.table, k, v.unit, hconfig, hload, hruns, hk', hunit.1, hunit.2.trans hunit.1,
    hstarted.trans hunit.1, henabled, hon⟩

theorem does_needed :
    Does T before (fun s => UnitRead v s.machine ∧ Early v (Decided before v) s)
      [.incl (fun s => !s.facts.firewallApplyReasons.isEmpty) (apply v)] (Arrived T) := by
  apply does_incl (lasts_unit_read.and lasts_early)
  · exact does_apply_all.pre fun s _ hs => hs.1
  · rintro s hkeep ⟨hunit, hearly⟩ hskip
    have hnone : s.facts.firewallApplyReasons = [] :=
      List.isEmpty_iff.mp (by simpa using hskip)
    refine ⟨hearly.1.2.2.2.2, fun hpreflighted hlost => ?_⟩
    have hpending := hearly.2.1 (hearly.1.1.symm.trans hpreflighted)
    obtain ⟨hrest, hdecided⟩ := hearly.2.2 hpending
    exact ⟨hrest, settled_unneeded hkeep hlost hunit hearly.1 hrest hdecided hnone⟩

theorem does_completed : Does T before (Arrived T)
    [sets fun s => { s.facts with completed := true }] fun _ => True := by
  apply does_notes lasts_arrived
  · exact fun _ _ hok => hok
  · rintro s r - hkeep ⟨-, harrived⟩
    refine ⟨⟨hkeep.sound, fun hlost => ?_⟩, trivial⟩
    obtain ⟨hsha, hrunning, hunit, hreload, -⟩ := hkeep.unlost hlost
    exact ⟨hsha, hrunning, hunit, hreload, fun _ hpreflighted => harrived hpreflighted hlost⟩

theorem does_play : Does T before (Start v) (play v) fun _ => True := by
  apply Does.cons does_preflight
  have hprevious : Does T before _ _ (Previous v) := does_previous
  have hfound := hprevious.append (does_timers.append does_snapshot)
  have hdecided := (((hfound.append does_keep).append does_saved).append does_render).append
    does_install |>.append does_decide
  exact hdecided.append (does_needed.append does_completed)

end Provisioner.Firewall.SafeApply
