import Provisioner.Firewall.Decided

/-!
# The apply and its rollback

From the moment a run schedules its rollback to the moment it takes it back,
the rollback is there and has what it restores, wherever its script is. The run
takes it back, and records the table, only after a fresh connection has come
through it.
-/

namespace Provisioner.Firewall.SafeApply

open Play Setting

variable {R : Type} {T : Tools R} {before : Option R} {v : Vars T} {s : Host R}
  {m m' : Machine R} {r : Rollback}

/-! ## The run's own rollback -/

def own (f : Facts R) (stage : Stage) : Rollback :=
  ⟨f.firewallRollbackUnit, f.firewallRollbackSource, stage⟩

def Armed (s : Host R) : Prop := s.machine.rollbacks = [own s.facts .waiting]

def Fired (s : Host R) : Prop :=
  ∃ stage, stage ≠ .waiting ∧ s.machine.rollbacks = [own s.facts stage]

def Going (T : Tools R) (before : Option R) (s : Host R) : Prop :=
  ∃ stage, stage ≠ .waiting ∧ s.machine.rollbacks = [own s.facts stage] ∧
    Staged T before s.machine (own s.facts stage)

/-- The run has scheduled its rollback: it fired, or it waits and `V` holds. -/
def Held (v : Vars T) (F V : Host R → Prop) (s : Host R) : Prop :=
  (UnitRead v s.machine ∧ Flags v true s.facts) ∧ (F s ∨ (Armed s ∧ V s))

theorem Sound.staged (h : Sound T before m) (hsingle : m.rollbacks = [r]) (hnot : r.stage ≠ .done) :
    Staged T before m r := by
  rcases h.covered with ⟨hrest, -⟩ | ⟨q, hq, -, hstaged⟩
  · exact absurd (at_rest_single hsingle hrest) hnot
  · rw [hsingle] at hq
    cases hq
    exact hstaged

theorem happens_armed (harmed : Armed s) (e : Event) :
    happens T s.machine e = s.machine ∨
      (happens T s.machine e).rollbacks = [own s.facts .mark] := by
  have hgoes := happens_single (T := T) harmed e
  generalize happens T s.machine e = m' at hgoes
  cases hgoes with
  | stays => exact .inl rfl
  | elapses => exact .inr rfl
  | goesOn hstarted => exact absurd rfl hstarted

theorem happens_fired (hfired : Fired s) (e : Event) :
    Fired { s with machine := happens T s.machine e } := by
  obtain ⟨stage, hstage, hsingle⟩ := hfired
  have hgoes := happens_single (T := T) hsingle e
  rw [Fired]
  generalize happens T s.machine e = m' at hgoes
  cases hgoes with
  | stays => exact ⟨stage, hstage, hsingle⟩
  | elapses hwaiting => exact absurd hwaiting hstage
  | goesOn hstarted => exact ⟨_, script_started hstarted, rfl⟩

theorem lasts_held_going {V : Host R → Prop} : Lasts T before (Held v (Going T before) V) := by
  rintro s e hkeep ⟨⟨hunit, hflags⟩, hgoing⟩
  refine ⟨⟨lasts_unit_read s e hkeep hunit, hflags⟩, ?_⟩
  change Going T before { s with machine := happens T s.machine e } ∨ _
  rcases hgoing with ⟨stage, hstage, hsingle, hstaged⟩ | ⟨harmed, hV⟩
  · obtain ⟨stage', hsingle', hstarted, hstaged'⟩ :=
      (happens_single (T := T) hsingle e).staged hstaged hsingle
    exact .inl ⟨stage', hstarted hstage, hsingle', hstaged'⟩
  · have hstaged := hkeep.sound.staged harmed fun hdone => nomatch hdone
    obtain ⟨stage', hsingle', -, hstaged'⟩ :=
      (happens_single (T := T) harmed e).staged hstaged harmed
    rcases happens_armed (T := T) harmed e with hsame | hmark
    · refine .inr ?_
      change Armed { s with machine := happens T s.machine e } ∧
        V { s with machine := happens T s.machine e }
      rw [hsame]
      exact ⟨harmed, hV⟩
    · rw [hmark] at hsingle'
      cases hsingle'
      exact .inl ⟨.mark, fun hwaiting => (nomatch hwaiting), hmark, hstaged'⟩

theorem lasts_held {V : Host R → Prop} : Lasts T before (Held v Fired V) := by
  rintro s e hkeep ⟨⟨hunit, hflags⟩, hheld⟩
  refine ⟨⟨lasts_unit_read s e hkeep hunit, hflags⟩, ?_⟩
  change Fired { s with machine := happens T s.machine e } ∨
    Armed { s with machine := happens T s.machine e } ∧
      V { s with machine := happens T s.machine e }
  rcases hheld with hfired | ⟨harmed, hV⟩
  · exact .inl (happens_fired hfired e)
  · rcases happens_armed (T := T) harmed e with hsame | hmark
    · rw [hsame]
      exact .inr ⟨harmed, hV⟩
    · exact .inl ⟨.mark, fun hwaiting => (nomatch hwaiting), hmark⟩

/-! ## Kinds of tasks -/

theorem does_ignoring {P Q : Host R → Prop} {effect : Reply → Host R → Host R}
    {register : Bool → Host R → Facts R} (hP : Lasts T before P)
    (hok : ∀ s r, (effect r s).machine.overtaken = false → s.machine.overtaken = false)
    (h : ∀ s r ok, (effect r s).machine.overtaken = false → Kept T before s → P s →
      Kept T before { effect r s with facts := register ok (effect r s) } ∧
        Q { effect r s with facts := register ok (effect r s) })
    (h' : ∀ s, Kept T before s → P s →
      Kept T before { s with facts := register false s } ∧ Q { s with facts := register false s }) :
    Does T before P [ignoring effect register] Q := by
  apply does_notes hP
  · intro s r
    cases r.succeeds || r.half with
    | true => exact hok s r
    | false => exact id
  · intro s r
    cases hsucceeds : r.succeeds with
    | true => exact h s r true
    | false =>
      cases r.half with
      | true => exact h s r false
      | false => exact fun _ => h' s

theorem does_ignoring_facts {P Q : Host R → Prop} {register : Bool → Host R → Facts R}
    (hP : Lasts T before P)
    (hflags : ∀ s ok, P s → (register ok s).unitOpen = s.facts.unitOpen ∧
      (register ok s).recordOpen = s.facts.recordOpen ∧ (register ok s).completed = false)
    (h : ∀ s ok, P s → Q { s with facts := register ok s }) :
    Does T before P [ignoring (fun _ s => s) register] Q := by
  have hkept : ∀ s ok, Kept T before s → P s → Kept T before { s with facts := register ok s } ∧
      Q { s with facts := register ok s } := by
    intro s ok hkeep hs
    obtain ⟨hunit, hrecord, hcompleted⟩ := hflags s ok hs
    exact ⟨hkeep.facts hunit hrecord hcompleted, h s ok hs⟩
  exact does_ignoring hP (fun _ _ hok => hok) (fun s _ ok _ => hkept s ok) fun s => hkept s false

theorem first_problem {p q : Option Problem} : (p <|> q) = none ↔ p = none ∧ q = none := by
  cases p <;> simp

theorem does_note {c : Facts R → Option Problem} {V V' : Host R → Prop}
    (h : ∀ s, V s → c s.facts = none → V' s)
    (hsame : ∀ s p, V' s → V' { s with facts := { s.facts with firewallApplyProblem := p } }) :
    Does T before (Held v Fired V) [noteProblem c]
      (Held v Fired fun s => s.facts.firewallApplyProblem = none → V' s) := by
  apply does_sets lasts_held
  · exact fun s hs => ⟨rfl, rfl, hs.1.2.2.2.2.2⟩
  · rintro s - ⟨hheld, hfired | ⟨harmed, hV⟩⟩
    · exact ⟨hheld, .inl hfired⟩
    · refine ⟨hheld, .inr ⟨harmed, fun hnone => hsame s _ ?_⟩⟩
      exact h s hV (first_problem.mp hnone).2

theorem does_when {items : List (Item R)} {V V' : Host R → Prop}
    (hbody : Does T before (Held v Fired V) items
      (Held v Fired fun s => s.facts.firewallApplyProblem = none → V' s)) :
    Does T before (Held v Fired fun s => s.facts.firewallApplyProblem = none → V s)
      [.incl noProblem items]
      (Held v Fired fun s => s.facts.firewallApplyProblem = none → V' s) := by
  apply does_incl lasts_held
  · apply hbody.pre
    rintro s - ⟨⟨hheld, hfired | ⟨harmed, hV⟩⟩, hcond⟩
    · exact ⟨hheld, .inl hfired⟩
    · exact ⟨hheld, .inr ⟨harmed, hV (Option.isNone_iff_eq_none.mp hcond)⟩⟩
  · rintro s - ⟨hheld, hfired | ⟨harmed, -⟩⟩ hcond
    · exact ⟨hheld, .inl hfired⟩
    · refine ⟨hheld, .inr ⟨harmed, fun hnone => ?_⟩⟩
      rw [noProblem, hnone] at hcond
      cases hcond

/-! ## Scheduling -/

def Prepared (before : Option R) (v : Vars T) (s : Host R) : Prop :=
  (Decided before v s ∧ s.facts.firewallApplyProblem = none ∧
    Restorable T before s.machine s.facts.firewallRollbackSource) ∧
      s.machine.connection = some s.facts.firewallSshBefore

theorem restorable_source (hsound : Sound T before s.machine) (h : Saved before s) :
    Restorable T before s.machine (if s.facts.firewallPrevious then some .applied
      else if s.facts.firewallAdopted then some .adopted else none) := by
  obtain ⟨⟨⟨⟨-, hprevious⟩, -⟩, hnever⟩, hadopted⟩ := h
  rw [hprevious, hadopted]
  cases happlied : s.machine.applied with
  | some f =>
    obtain ⟨hne, k, -, hload⟩ := hsound.recorded.applied f happlied
    exact ⟨f, k, happlied, hne, hload⟩
  | none =>
    obtain ⟨hsome, hbefore⟩ := hnever happlied
    cases hfile : s.machine.adopted with
    | some f =>
      obtain ⟨hne, k, hload⟩ := hsound.adopted f hfile
      exact ⟨happlied, f, k, hfile, hne, hload⟩
    | none =>
      refine ⟨happlied, hfile, hbefore ?_⟩
      rw [hfile] at hsome
      exact Option.not_isSome_iff_eq_none.mp (by simp [← hsome])

theorem does_prepare :
    Does T before (fun s => UnitRead v s.machine ∧ Early v (Decided before v) s)
      prepareRollback fun s => UnitRead v s.machine ∧ Early v (Prepared before v) s := by
  have hlasts : ∀ P : Host R → Prop, Lasts T before fun s => UnitRead v s.machine ∧ Early v P s :=
    fun P => lasts_unit_read.and lasts_early
  apply Does.cons (M := fun s => UnitRead v s.machine ∧ Early v (fun s => Decided before v s ∧
    s.facts.firewallApplyProblem = none ∧
      Restorable T before s.machine s.facts.firewallRollbackSource) s)
  · apply does_notes (hlasts _)
    · exact fun _ _ hok => hok
    · rintro s r - hkeep ⟨hunit, hearly⟩
      refine ⟨hkeep.facts rfl rfl hearly.1.2.2.2.2, hunit, hearly.facts hearly.1 rfl fun hs => ?_⟩
      exact ⟨hs, rfl, restorable_source hkeep.sound hs.1.1.1.1.1.1.1⟩
  · apply does_registers (hlasts _)
    · exact fun s hs => ⟨rfl, rfl, hs.2.1.2.2.2.2⟩
    · refine fun s _ hs => ⟨hs.1, hs.2.facts hs.2.1 rfl fun hprepared => ⟨hprepared, ?_⟩⟩
      have hconnection : s.machine.connection ≠ none := hprepared.1.1.1.1.1.1.1.1.1.1.1.1
      obtain ⟨p, hp⟩ := Option.ne_none_iff_exists'.mp hconnection
      change s.machine.connection = some (s.machine.connection.getD [])
      rw [hp, Option.getD_some]

def Waiting (before : Option R) (v : Vars T) (s : Host R) : Prop :=
  (UnitRead v s.machine ∧ Flags v false s.facts) ∧ AtRest s.machine ∧ Prepared before v s

theorem lasts_waiting : Lasts T before (Waiting before v) :=
  (lasts_unit_read.and (lasts_facts (Flags v false))).and lasts_at_rest

theorem does_refuse :
    Does T before (fun s => UnitRead v s.machine ∧ Early v (Prepared before v) s)
      [refusePending] (Waiting before v) := by
  apply does_gate (lasts_unit_read.and lasts_early)
  rintro s - ⟨hunit, hflags, -, hprepared⟩ hempty
  exact ⟨⟨hunit, hflags⟩, hprepared (List.isEmpty_iff.mp hempty)⟩

theorem kept_cleaned {l : List Rollback} (hkeep : Kept T before s) (hrest : AtRest s.machine)
    (hcompleted : s.facts.completed = false) (hsub : l.Sublist s.machine.rollbacks) :
    Kept T before { s with machine := { s.machine with rollbacks := l } } := by
  obtain ⟨hlength, hacc⟩ := hkeep.sound.accounted hrest
  have hrest' : AtRest { s.machine with rollbacks := l } := fun r hr => hrest r (hsub.subset hr)
  refine ⟨⟨⟨hkeep.sound.recorded.applied, hkeep.sound.recorded.sha256⟩, hkeep.sound.adopted,
    .inl ⟨hrest', hsub.length_le.trans hlength, hacc⟩⟩, fun hlost => ?_⟩
  obtain ⟨hsha, hrunning, hunit, -, -⟩ := hkeep.unlost hlost
  refine ⟨hsha, fun hopen _ => hrunning hopen hrest, fun hopen _ => hunit hopen hrest,
    fun _ hnot => absurd hrest' hnot, fun htrue => ?_⟩
  rw [hcompleted] at htrue
  cases htrue

theorem does_cleanUp : Does T before (Waiting before v) [cleanUp]
    fun s => Waiting before v s ∧ s.machine.rollbacks = [] := by
  apply does_tries lasts_waiting
  · exact fun _ _ hok => hok
  · exact fun _ _ hok => hok
  · rintro s r - hkeep ⟨⟨hunit, hflags⟩, hrest, hprepared⟩
    have hempty : s.machine.rollbacks.filter Rollback.waits = [] := by
      rw [List.filter_eq_nil_iff]
      exact fun b hb => by simp [Rollback.waits, hrest b hb]
    refine ⟨kept_cleaned hkeep hrest hflags.2.2.2.2 List.filter_sublist, ?_, hempty⟩
    refine ⟨⟨hunit, hflags⟩, fun b hb => ?_, hprepared⟩
    rw [hempty] at hb
    cases hb
  · rintro s r - hkeep ⟨⟨-, hflags⟩, hrest, -⟩
    exact kept_cleaned hkeep hrest hflags.2.2.2.2 List.filter_sublist

/-- What is so of the host while the rollback waits for the apply. -/
def Scheduled (v : Vars T) (s : Host R) : Prop :=
  (s.machine.config = some v.table ∧ s.machine.enabled = true ∧
    s.facts.firewallTableNow = some (T.sha256 v.table)) ∧
    s.machine.connection = some s.facts.firewallSshBefore

theorem does_schedule :
    Does T before (fun s => Waiting before v s ∧ s.machine.rollbacks = [])
      scheduleRollback (Held v (Going T before) (Scheduled v)) := by
  have hlasts : Lasts T before fun s : Host R => Waiting before v s ∧ s.machine.rollbacks = [] := by
    rintro s e hkeep ⟨hwaiting, hempty⟩
    refine ⟨lasts_waiting s e hkeep hwaiting, ?_⟩
    change (happens T s.machine e).rollbacks = []
    rw [happens_at_rest hwaiting.2.1]
    exact hempty
  apply Does.cons (does_gate hlasts fun s _ hs _ => hs)
  apply does_acts hlasts
  · exact fun _ _ hok => hok
  · rintro s r - hkeep ⟨⟨⟨hunit, hflags⟩, hrest, hprepared⟩, hempty⟩
    obtain ⟨⟨hdecided, -, hrestorable⟩, hconnection⟩ := hprepared
    have hsingle : s.machine.rollbacks ++ [own s.facts .waiting] = [own s.facts .waiting] := by
      rw [hempty, List.nil_append]
    have hloaded : s.machine.loadedUnit ≠ none := by
      rw [hunit.2, hunit.1]
      exact fun hnone => nomatch hnone
    have hnot : ¬ AtRest { s.machine with
        rollbacks := s.machine.rollbacks ++ [own s.facts .waiting] } :=
      not_at_rest hsingle fun hdone => nomatch hdone
    refine ⟨⟨⟨⟨hkeep.sound.recorded.applied, hkeep.sound.recorded.sha256⟩, hkeep.sound.adopted,
      .inr ⟨_, hsingle, fun hdone => (nomatch hdone),
        hrestorable.frame rfl rfl, hloaded, trivial⟩⟩, fun hlost => ?_⟩,
      ⟨hunit, hflags.1, rfl, hflags.2.2⟩, .inr ⟨hsingle, ?_, hconnection⟩⟩
    · obtain ⟨hsha, hrunning, -, -, -⟩ := hkeep.unlost hlost
      refine ⟨hsha, fun _ hrest' => absurd hrest' hnot, fun _ hrest' => absurd hrest' hnot,
        fun _ _ => hunit.2, fun htrue => ?_⟩
      rw [show _ = false from hflags.2.2.2.2] at htrue
      cases htrue
    · exact ⟨hdecided.1.1.1.1.1.1.2, hdecided.1.1.1.1.2, hdecided.1.1.2⟩

/-! ## The apply -/

theorem restart_staged (h : Staged T before m r) (hmove : r.stage ≠ .move) :
    Staged T before (m.restart T) r := by
  have hframe := restart_frame T m
  refine ⟨h.restorable.frame hframe.applied hframe.adopted, ?_, ?_⟩
  · rw [hframe.loadedUnit]
    exact h.unit
  · have hreached := h.reached
    rw [Reached] at hreached ⊢
    cases hstage : r.stage with
    | waiting => trivial
    | mark => trivial
    | test => trivial
    | copy =>
      rw [hstage] at hreached
      exact hreached
    | restart =>
      rw [hstage] at hreached
      rw [hframe.file, restart_config]
      exact hreached
    | delete =>
      rw [hstage] at hreached
      exact hreached
    | move => exact absurd hstage hmove
    | disable =>
      rw [hstage] at hreached
      obtain ⟨hrestore, hrunning, hconfig⟩ := hreached
      refine ⟨hrestore, ?_, (restart_config T m).trans hconfig⟩
      rcases restart_cases T m with ⟨u, f, k, -, hfile, -, -⟩ | ⟨-, heq⟩
      · rw [hconfig] at hfile
        cases hfile
      · rw [heq]
        exact hrunning
    | done =>
      rw [hstage] at hreached
      obtain ⟨hconfig, hrunning⟩ := hreached
      rw [hframe.file, restart_config]
      refine ⟨hconfig, ?_⟩
      rcases restart_cases T m with ⟨u, f, k, -, hfile, hload, heq⟩ | ⟨-, heq⟩
      · rw [heq, ← hconfig, hfile, Option.bind_some, hload]
      · rw [heq]
        exact hrunning

theorem restart_unit (hunit : UnitRead v m) :
    (m.restart T).active = false ∨ (m.restart T).startedUnit = (m.restart T).unitFile := by
  rcases restart_cases T m with ⟨u, f, k, hu, -, -, heq⟩ | ⟨-, heq⟩
  · rw [heq]
    exact .inr (hu.symm.trans hunit.2)
  · rw [heq]
    exact .inl rfl

theorem kept_restart (hkeep : Kept T before s) (hunit : UnitRead v s.machine)
    (hflags : Flags v true s.facts) (hsingle : s.machine.rollbacks = [r])
    (hstaged : Staged T before s.machine r) (hmove : r.stage ≠ .move) :
    Kept T before { s with machine := s.machine.restart T } := by
  have hframe := restart_frame T s.machine
  have hstaged' := restart_staged hstaged hmove
  have hsingle' : (s.machine.restart T).rollbacks = [r] :=
    (restart_rollbacks T s.machine).trans hsingle
  have hadopted : ∀ f, (s.machine.restart T).adopted = some f → f ≠ [] ∧ ∃ k, T.load f = some k := by
    rw [hframe.adopted]
    exact hkeep.sound.adopted
  refine ⟨⟨hkeep.sound.recorded.frame hframe, hadopted, .of_staged hsingle' hstaged'⟩, fun hlost => ?_⟩
  have hunlost := hkeep.unlost hlost
  refine ⟨?_, ?_, ?_, ?_, ?_⟩
  · simp only [hframe.appliedSha256, hframe.applied]
    exact hunlost.sha256
  · intro _ hrest hsha
    simp only [hframe.appliedSha256] at hsha
    obtain ⟨d, hd⟩ := Option.ne_none_iff_exists'.mp hsha
    refine hstaged'.runs_applied (at_rest_single hsingle' hrest) ?_
    rw [hframe.applied]
    exact (hkeep.sound.recorded.sha256 d hd).1
  · exact fun _ _ => .inr (restart_unit hunit)
  · intro _ _
    simp only [hframe.loadedUnit, hframe.unitFile]
    exact hunit.2
  · intro htrue
    rw [show _ = false from hflags.2.2.2.2] at htrue
    cases htrue

/-- The table is on disk and in the kernel, under the unit that is on disk. -/
def InPlace (v : Vars T) (s : Host R) : Prop :=
  (s.machine.config = some v.table ∧ s.machine.enabled = true ∧
    s.facts.firewallTableNow = some (T.sha256 v.table)) ∧
  ∃ k, T.load v.table = some k ∧ s.machine.running = some k ∧ s.machine.active = true ∧
    s.machine.startedUnit = s.machine.unitFile

def Reused (v : Vars T) (s : Host R) : Prop :=
  InPlace v s ∧ s.machine.connection = some s.facts.firewallSshBefore

theorem does_apply : Does T before (Held v (Going T before) (Scheduled v)) (applyTable T)
    (Held v Fired fun s => s.facts.firewallApplyProblem = none → Reused v s) := by
  apply Does.cons (M := Held v Fired fun s => s.facts.firewallApplyRestart = true → Reused v s)
  · apply does_ignoring lasts_held_going
    · intro s _ hok
      simp only [Bool.or_eq_false_iff] at hok
      exact hok.1
    · rintro s - ok hok hkeep ⟨⟨hunit, hflags⟩, hheld⟩
      simp only [Bool.or_eq_false_iff, List.any_eq_false] at hok
      obtain ⟨-, hmove⟩ := hok
      have hstaged : ∃ stage, s.machine.rollbacks = [own s.facts stage] ∧
          Staged T before s.machine (own s.facts stage) := by
        rcases hheld with ⟨stage, -, hsingle, hstaged⟩ | ⟨harmed, -⟩
        · exact ⟨stage, hsingle, hstaged⟩
        · exact ⟨.waiting, harmed, hkeep.sound.staged harmed fun hdone => nomatch hdone⟩
      obtain ⟨stage, hsingle, hstaged⟩ := hstaged
      have hnot : stage ≠ .move := by
        have hown := hmove (own s.facts stage) (hsingle ▸ List.mem_cons_self)
        simpa [own] using hown
      have hframe := restart_frame T s.machine
      have hrollbacks := restart_rollbacks T s.machine
      have hrestarted := kept_restart hkeep hunit hflags hsingle hstaged hnot
      have hunit' : UnitRead v (s.machine.restart T) := by
        rw [UnitRead, hframe.unitFile, hframe.loadedUnit]
        exact hunit
      have hsame : Same (s.machine.restart T) { s.machine.restart T with
          overtaken := s.machine.overtaken || s.machine.rollbacks.any (·.stage == .move) } :=
        ⟨rfl, rfl, rfl, rfl, rfl, rfl, rfl, id, .inl rfl⟩
      refine ⟨⟨hsame.sound hrestarted.sound, fun hlost => ?_⟩, ⟨hunit', hflags⟩, ?_⟩
      · exact (hrestarted.unlost hlost).same hsame rfl rfl rfl (.inl rfl) rfl rfl hflags.2.2.2.2
      rcases hheld with ⟨stage, hstage, hsingle, -⟩ | ⟨harmed, hscheduled⟩
      · exact .inl ⟨stage, hstage, hrollbacks.trans hsingle⟩
      · refine .inr ⟨hrollbacks.trans harmed, fun hrestart => ?_⟩
        obtain ⟨⟨hconfig, henabled, hnow⟩, hconnection⟩ := hscheduled
        rcases restart_cases T s.machine with ⟨u, f, k, hu, hfile, hload, heq⟩ | ⟨-, heq⟩
        · rw [hconfig] at hfile
          cases hfile
          rw [heq]
          exact ⟨⟨⟨hconfig, henabled, hnow⟩, k, hload, rfl, rfl, hu.symm.trans hunit.2⟩, hconnection⟩
        · rw [heq] at hrestart
          simp at hrestart
    · rintro s hkeep ⟨⟨hunit, hflags⟩, hheld⟩
      refine ⟨hkeep.facts rfl rfl hflags.2.2.2.2, ⟨hunit, hflags⟩, ?_⟩
      rcases hheld with ⟨stage, hstage, hsingle, -⟩ | ⟨harmed, -⟩
      · exact .inl ⟨stage, hstage, hsingle⟩
      · exact .inr ⟨harmed, fun hrestart => nomatch hrestart⟩
  · apply does_note
    · intro s hs hnone
      refine hs ?_
      cases hrestart : s.facts.firewallApplyRestart with
      | true => rfl
      | false => simp [hrestart] at hnone
    · exact fun _ _ hs => hs

theorem does_allow :
    Does T before (Held v Fired fun s => s.facts.firewallApplyProblem = none → Reused v s)
      (allowThisRun v)
      (Held v Fired fun s => s.facts.firewallApplyProblem = none → Reused v s) := by
  apply does_incl lasts_held
  · apply Does.cons (M := Held v Fired (Reused v))
    · apply Does.pre (P := Held v Fired (Reused v))
      · apply does_ignoring_facts lasts_held
        · exact fun s ok hs => ⟨rfl, rfl, hs.1.2.2.2.2.2⟩
        · rintro s ok ⟨hheld, hfired | ⟨harmed, hV⟩⟩
          · exact ⟨hheld, .inl hfired⟩
          · exact ⟨hheld, .inr ⟨harmed, hV⟩⟩
      · rintro s - ⟨⟨hheld, hfired | ⟨harmed, hV⟩⟩, hcond⟩
        · exact ⟨hheld, .inl hfired⟩
        · rw [Bool.and_eq_true] at hcond
          exact ⟨hheld, .inr ⟨harmed, hV (Option.isNone_iff_eq_none.mp hcond.1)⟩⟩
    · exact does_note (fun _ hs _ => hs) fun _ _ hs => hs
  · exact fun _ _ hs _ => hs

/-! ## The verify -/

def Proven (v : Vars T) (s : Host R) : Prop :=
  InPlace v s ∧ s.machine.fresh = true ∧ ∃ k ∈ s.machine.verified, T.load v.table = some k

theorem connect_sound (r : Reply) (h : Sound T before m) : Sound T before (connect r m) := by
  rw [connect]
  split
  · exact h
  · refine ⟨⟨fun f hf => ?_, fun d hd => ?_⟩, h.adopted, ?_⟩
    · obtain ⟨hne, k, hk, hload⟩ := h.recorded.applied f hf
      exact ⟨hne, k, List.mem_append_right _ hk, hload⟩
    · obtain ⟨happlied, f, k, hk, hsha, hload⟩ := h.recorded.sha256 d hd
      exact ⟨happlied, f, k, List.mem_append_right _ hk, hsha, hload⟩
    · rcases h.covered with ⟨hrest, hlength, hacc⟩ | ⟨b, hsingle, hdone, hstaged⟩
      · refine .inl ⟨hrest, hlength, ?_⟩
        rcases hacc with ⟨hsome, -⟩ | hacc
        · exact .inl ⟨hsome, rfl⟩
        · exact .inr hacc
      · exact .inr ⟨b, hsingle, hdone, hstaged.restorable.frame rfl rfl, hstaged.unit, hstaged.reached⟩

theorem does_verify :
    Does T before (Held v Fired fun s => s.facts.firewallApplyProblem = none → Reused v s)
      verifyConnection
      (Held v Fired fun s => s.facts.firewallApplyProblem = none → Proven v s) := by
  -- the connection is dropped, or it is still the one from before the apply
  apply Does.cons (M := Held v Fired fun s => s.facts.firewallApplyProblem = none →
    InPlace v s ∧ (s.machine.connection = none ∨
      s.machine.connection = some s.facts.firewallSshBefore))
  · apply does_notes lasts_held
    · exact fun _ _ hok => hok
    · rintro s r - hkeep ⟨⟨hunit, hflags⟩, hheld⟩
      have hsame : Same s.machine { s.machine with
          connection := if r.dropped then none else s.machine.connection } :=
        ⟨rfl, rfl, rfl, rfl, rfl, rfl, rfl, id, .inl rfl⟩
      refine ⟨⟨hsame.sound hkeep.sound, fun hlost => ?_⟩, ⟨hunit, hflags⟩, ?_⟩
      · exact (hkeep.unlost hlost).same hsame rfl rfl rfl (.inl rfl) rfl rfl hflags.2.2.2.2
      · rcases hheld with hfired | ⟨harmed, hV⟩
        · exact .inl hfired
        · refine .inr ⟨harmed, fun hnone => ⟨(hV hnone).1, ?_⟩⟩
          cases r.dropped with
          | true => exact .inl rfl
          | false => exact .inr (hV hnone).2
  -- a connection that is opened now comes through the table
  apply Does.cons (M := Held v Fired fun s => s.facts.firewallApplyProblem = none →
    InPlace v s ∧ (s.machine.connection = some s.facts.firewallSshBefore ∨ Proven v s))
  · apply does_when
    apply Does.cons (M := Held v Fired fun s => s.facts.firewallVerifyConnect = true →
      InPlace v s ∧ (s.machine.connection = some s.facts.firewallSshBefore ∨ Proven v s))
    · apply does_ignoring lasts_held
      · intro s r hok
        simp only [connect] at hok
        split at hok <;> exact hok
      · rintro s r ok - hkeep ⟨⟨hunit, hflags⟩, hheld⟩
        refine ⟨⟨connect_sound r hkeep.sound, fun hlost => ?_⟩, ?_⟩
        · obtain ⟨hsha, hrunning, hunit', hreload, -⟩ := hkeep.unlost hlost
          have hcompleted : ∀ {P : Prop}, s.facts.completed = true → P := by
            intro P htrue
            rw [hflags.2.2.2.2] at htrue
            cases htrue
          simp only [connect]
          split <;> exact ⟨hsha, hrunning, hunit', hreload, hcompleted⟩
        · simp only [connect]
          rcases hheld with hfired | ⟨harmed, hplace, hconnection⟩
          · split <;> exact ⟨⟨hunit, hflags⟩, .inl hfired⟩
          · obtain ⟨hdisk, k, hload, hrunning, hstarted⟩ := hplace
            split
            · rename_i hopen
              have hbefore := hconnection.resolve_left (by simp [hopen])
              exact ⟨⟨hunit, hflags⟩, .inr ⟨harmed, fun _ =>
                ⟨⟨hdisk, k, hload, hrunning, hstarted⟩, .inl hbefore⟩⟩⟩
            · refine ⟨⟨hunit, hflags⟩, .inr ⟨harmed, fun _ =>
                ⟨⟨hdisk, k, hload, hrunning, hstarted⟩, .inr
                  ⟨⟨hdisk, k, hload, hrunning, hstarted⟩, rfl, k, ?_, hload⟩⟩⟩⟩
              rw [hrunning]
              exact List.mem_cons_self
      · rintro s hkeep ⟨⟨hunit, hflags⟩, hheld⟩
        refine ⟨hkeep.facts rfl rfl hflags.2.2.2.2, ⟨hunit, hflags⟩, ?_⟩
        rcases hheld with hfired | ⟨harmed, -⟩
        · exact .inl hfired
        · exact .inr ⟨harmed, fun hback => nomatch hback⟩
    · apply does_note
      · intro s hs hnone
        refine hs ?_
        cases hback : s.facts.firewallVerifyConnect with
        | true => rfl
        | false => simp [hback] at hnone
      · exact fun _ _ hs => hs
  -- one with another client port was opened now
  · apply does_when
    apply Does.cons (M := Held v Fired fun s => ∀ after, s.facts.firewallSshAfter = some after →
      after ≠ s.facts.firewallSshBefore → Proven v s)
    · apply does_ignoring_facts lasts_held
      · exact fun s ok hs => ⟨rfl, rfl, hs.1.2.2.2.2.2⟩
      · rintro s ok ⟨hheld, hfired | ⟨harmed, hplace, hconnection⟩⟩
        · exact ⟨hheld, .inl hfired⟩
        · refine ⟨hheld, .inr ⟨harmed, fun after hafter hother => ?_⟩⟩
          cases ok with
          | false => cases hafter
          | true =>
            rcases hconnection with hbefore | hproven
            · rw [if_pos rfl, hbefore] at hafter
              cases hafter
              exact absurd rfl hother
            · exact hproven
    · apply does_note
      · intro s hs hnone
        split at hnone
        · cases hnone
        · rename_i after hafter
          split at hnone
          · cases hnone
          · rename_i hother
            exact hs after hafter fun heq => hother (.inr heq)
      · exact fun _ _ hs => hs

end Provisioner.Firewall.SafeApply
