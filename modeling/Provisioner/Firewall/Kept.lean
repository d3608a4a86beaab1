import Provisioner.Firewall.Rollback
import Provisioner.Library.Among

/-!
# A run and the rollbacks

What is kept of a host while a run goes on and its rollbacks go off: the
records, the running table, and that what a run has not done yet can still be
seen by the next one. Each task of the role keeps it, and leads from one
assertion about the run to the next.
-/

namespace Provisioner.Firewall.SafeApply

open Play

variable {R : Type}

/-- The table file is what the kernel runs and a fresh connection came
through, and the unit file is what systemd has read, enabled and started. -/
def Settled (T : Tools R) (m : Machine R) : Prop :=
  ∃ f k u, m.config = some f ∧ T.load f = some k ∧ m.running = some k ∧ k ∈ m.verified ∧
    m.unitFile = some u ∧ m.loadedUnit = some u ∧ m.startedUnit = some u ∧
    m.enabled = true ∧ m.active = true

/-- What the next run goes by is so. -/
structure Unlost (T : Tools R) (s : Host R) : Prop where
  sha256 : s.facts.recordOpen = false → ∀ d, s.machine.appliedSha256 = some d →
    ∃ f, s.machine.applied = some f ∧ T.rendered f ∧ T.sha256 f = d
  running : s.facts.recordOpen = false → AtRest s.machine → s.machine.appliedSha256 ≠ none →
    Runs T s.machine s.machine.applied
  unit : s.facts.unitOpen = false → AtRest s.machine →
    s.machine.running = none ∨ s.machine.active = false ∨
      s.machine.startedUnit = s.machine.unitFile
  reload : s.facts.unitOpen = false → ¬ AtRest s.machine →
    s.machine.loadedUnit = s.machine.unitFile
  completed : s.facts.completed = true → s.facts.preflighted = true →
    AtRest s.machine ∧ Settled T s.machine

structure Kept (T : Tools R) (before : Option R) (s : Host R) : Prop where
  sound : Sound T before s.machine
  unlost : s.lost = false → Unlost T s

variable {T : Tools R} {before : Option R} {s : Host R} {m m' : Machine R} {r : Rollback}

/-! ## What a rollback leaves -/

theorem Staged.runs_applied (h : Staged T before m r) (hdone : r.stage = .done)
    (happlied : m.applied ≠ none) : Runs T m m.applied := by
  obtain ⟨hrestorable, -, hreached⟩ := h
  rw [Reached, hdone] at hreached
  obtain ⟨-, hrunning⟩ := hreached
  rcases hrestore : r.restore with _ | _ | _ <;> rw [hrestore] at hrestorable hrunning
  · exact absurd hrestorable.1 happlied
  · obtain ⟨f, k, hfile, -, hload⟩ := hrestorable
    refine ⟨f, k, hfile, hload, ?_⟩
    rw [hrunning, Option.bind_some, Machine.file, hfile, Option.bind_some, hload]
  · exact absurd hrestorable.1 happlied

theorem script_unit (h : Staged T before m r) (hstarted : r.stage ≠ .waiting)
    (hnotdone : r.stage ≠ .done) (hdone : (script T r m).2 = .done) :
    (script T r m).1.running = none ∨ (script T r m).1.active = false ∨
      (script T r m).1.startedUnit = m.loadedUnit := by
  obtain ⟨-, -, hreached⟩ := h
  rw [Reached] at hreached
  cases hstage : r.stage with
  | waiting => exact absurd hstage hstarted
  | done => exact absurd hstage hnotdone
  | restart =>
    simp only [script, hstage]
    rcases restart_cases T m with ⟨u, f, k, hunit, -, -, heq⟩ | ⟨-, heq⟩
    · rw [heq]
      exact .inr (.inr hunit.symm)
    · rw [heq]
      exact .inr (.inl rfl)
  | disable =>
    rw [hstage] at hreached
    simp only [script, hstage]
    exact .inl hreached.2.1
  | test =>
    simp only [script, hstage] at hdone
    split at hdone <;> cases hdone
  | copy =>
    simp only [script, hstage] at hdone
    split at hdone <;> cases hdone
  | mark => simp [script, hstage] at hdone
  | delete => simp [script, hstage] at hdone
  | move => simp [script, hstage] at hdone

theorem not_at_rest (hsingle : m.rollbacks = [r]) (h : r.stage ≠ .done) : ¬ AtRest m := by
  intro hrest
  rw [AtRest, hsingle] at hrest
  exact h (hrest r List.mem_cons_self)

theorem at_rest_single (hsingle : m.rollbacks = [r]) (h : AtRest m) : r.stage = .done := by
  rw [AtRest, hsingle] at h
  exact h r List.mem_cons_self

theorem happens_unlost (hsound : Sound T before s.machine) (h : Unlost T s) (e : Event) :
    Unlost T { s with machine := happens T s.machine e } := by
  have hframe := happens_frame T s.machine e
  rcases hsound.covered with ⟨hrest, -, -⟩ | ⟨r, hsingle, hdone, hstaged⟩
  · rw [happens_at_rest hrest]
    exact h
  · have hnot := not_at_rest hsingle hdone
    have hreload : s.facts.unitOpen = false →
        (happens T s.machine e).loadedUnit = (happens T s.machine e).unitFile := by
      rw [hframe.loadedUnit, hframe.unitFile]
      exact fun hopen => h.reload hopen hnot
    have hgoes := happens_single (T := T) hsingle e
    obtain ⟨stage, hsingle', -, hstaged'⟩ := hgoes.staged hstaged hsingle
    refine ⟨?_, ?_, ?_, fun hopen _ => hreload hopen, ?_⟩
    · simp only [hframe.appliedSha256, hframe.applied]
      exact h.sha256
    · intro hopen hrest hsha
      simp only [hframe.appliedSha256] at hsha
      obtain ⟨d, hd⟩ := Option.ne_none_iff_exists'.mp hsha
      refine hstaged'.runs_applied (at_rest_single hsingle' hrest) ?_
      rw [hframe.applied]
      exact (hsound.recorded.sha256 d hd).1
    · intro hopen hrest
      generalize happens T s.machine e = m' at *
      cases hgoes with
      | stays => exact absurd hrest hnot
      | elapses hwaiting => exact absurd (at_rest_single rfl hrest) (by simp)
      | goesOn hstarted _ =>
        have hunit := script_unit hstaged hstarted hdone (at_rest_single rfl hrest)
        rw [← (script_frame T r s.machine).loadedUnit] at hunit
        exact (hreload hopen) ▸ hunit
    · intro hcompleted hpreflighted
      exact absurd (h.completed hcompleted hpreflighted).1 hnot

variable (T before) in
/-- The runs are judged as long as no task came in the middle of a rollback's
script where it must not. -/
def setting : Setting (Host R) Event where
  ok s := s.machine.overtaken = false
  keep := Kept T before
  others := (system T).outside
  ok_others e s h := by
    rw [← h]
    exact ((happens_frame T s.machine e).overtaken).symm
  keep_others e s _ h :=
    ⟨happens_sound h.sound e, fun hlost => happens_unlost h.sound (h.unlost hlost) e⟩

abbrev Does (T : Tools R) (before : Option R) (P : Host R → Prop) (items : List (Item R))
    (Q : Host R → Prop) : Prop :=
  (setting T before).Does P items Q

abbrev Lasts (T : Tools R) (before : Option R) (P : Host R → Prop) : Prop :=
  (setting T before).Lasts P

/-! ## What a task keeps -/

/-- What `Sound` looks at. -/
structure Same (m m' : Machine R) : Prop where
  applied : m'.applied = m.applied
  appliedSha256 : m'.appliedSha256 = m.appliedSha256
  adopted : m'.adopted = m.adopted
  verified : m'.verified = m.verified
  rollbacks : m'.rollbacks = m.rollbacks
  running : m'.running = m.running
  fresh : m'.fresh = m.fresh
  loadedUnit : m.loadedUnit ≠ none → m'.loadedUnit ≠ none
  config : m'.config = m.config ∨ ∀ r ∈ m.rollbacks, r.atWork = false

theorem Accounted.same (h : Accounted T before m) (happlied : m'.applied = m.applied)
    (hadopted : m'.adopted = m.adopted) (hrunning : m'.running = m.running)
    (hfresh : m'.fresh = m.fresh) : Accounted T before m' := by
  rw [Accounted, Runs, Runs, happlied, hadopted, hrunning, hfresh]
  exact h

theorem Same.sound (hsame : Same m m') (h : Sound T before m) : Sound T before m' := by
  refine ⟨⟨?_, ?_⟩, ?_, ?_⟩
  · rw [hsame.applied, hsame.verified]
    exact h.recorded.applied
  · rw [hsame.applied, hsame.appliedSha256, hsame.verified]
    exact h.recorded.sha256
  · rw [hsame.adopted]
    exact h.adopted
  · rcases h.covered with ⟨hrest, hlength, hacc⟩ | ⟨r, hsingle, hdone, hstaged⟩
    · refine .inl ⟨?_, ?_, hacc.same hsame.applied hsame.adopted hsame.running hsame.fresh⟩
      · rw [AtRest, hsame.rollbacks]
        exact hrest
      · rw [hsame.rollbacks]
        exact hlength
    · refine .inr ⟨r, hsame.rollbacks.trans hsingle, hdone, ?_, hsame.loadedUnit hstaged.unit, ?_⟩
      · exact hstaged.restorable.frame hsame.applied hsame.adopted
      · have hfile : m'.file = m.file := by
          funext source
          cases source with
          | applied => exact hsame.applied
          | adopted => exact hsame.adopted
        have hreached := hstaged.reached
        rcases hsame.config with hconfig | hidle
        · simpa only [Reached, hsame.running, hconfig, hfile] using hreached
        · have hr := hidle r (hsingle ▸ List.mem_cons_self)
          have hstage : r.stage = .waiting := by
            simpa [Rollback.atWork, hdone] using hr
          simp only [Reached, hstage]

/-- A task that only changes what is neither judged nor gone by. -/
theorem Unlost.same (h : Unlost T s) {s' : Host R} (hsame : Same s.machine s'.machine)
    (hactive : s'.machine.active = s.machine.active)
    (hstarted : s'.machine.startedUnit = s.machine.startedUnit)
    (hfile : s'.machine.unitFile = s.machine.unitFile)
    (hloaded : s'.machine.loadedUnit = s.machine.loadedUnit ∨
      s'.machine.loadedUnit = s'.machine.unitFile)
    (hunit : s'.facts.unitOpen = s.facts.unitOpen)
    (hrecord : s'.facts.recordOpen = s.facts.recordOpen)
    (hcompleted : s'.facts.completed = false) : Unlost T s' := by
  refine ⟨?_, ?_, ?_, ?_, ?_⟩
  · rw [hrecord, hsame.appliedSha256, hsame.applied]
    exact h.sha256
  · rw [hrecord, hsame.appliedSha256, hsame.applied, AtRest, hsame.rollbacks, Runs, hsame.running]
    exact h.running
  · rw [hunit, AtRest, hsame.rollbacks, hsame.running, hactive, hstarted, hfile]
    exact h.unit
  · rw [hunit, AtRest, hsame.rollbacks]
    intro hopen hrest
    rcases hloaded with hloaded | hloaded
    · rw [hloaded, hfile]
      exact h.reload hopen hrest
    · exact hloaded
  · intro htrue
    rw [hcompleted] at htrue
    cases htrue

theorem Same.refl (m : Machine R) : Same m m :=
  ⟨rfl, rfl, rfl, rfl, rfl, rfl, rfl, id, .inl rfl⟩

/-- A task that registers something. -/
theorem Kept.facts (h : Kept T before s) {f : Facts R} (hunit : f.unitOpen = s.facts.unitOpen)
    (hrecord : f.recordOpen = s.facts.recordOpen) (hcompleted : f.completed = false) :
    Kept T before { s with facts := f } where
  sound := h.sound
  unlost hlost :=
    (h.unlost hlost).same (.refl _) rfl rfl rfl (.inl rfl) hunit hrecord hcompleted

end Provisioner.Firewall.SafeApply
