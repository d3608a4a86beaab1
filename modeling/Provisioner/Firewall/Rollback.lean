import Provisioner.Firewall.SafeApply

/-!
# What a rollback leads to

What holds of a host between any two commands, whoever runs them: at most one
rollback is loaded; while it is scheduled or at work, what it restores stays;
and with none the running table is accounted for.
-/

namespace Provisioner.Firewall.SafeApply

open Play

variable {R : Type} {T : Tools R} {before : Option R} {m m' : Machine R} {r : Rollback}

def AtRest (m : Machine R) : Prop := ∀ r ∈ m.rollbacks, r.stage = .done

instance (m : Machine R) : Decidable (AtRest m) := inferInstanceAs (Decidable (∀ r ∈ _, _))

def Runs (T : Tools R) (m : Machine R) (file : Option Text) : Prop :=
  ∃ f k, file = some f ∧ T.load f = some k ∧ m.running = some k

/-- The running table: one that a fresh connection came through, the last one
recorded as verified, or, where none was recorded, the one kept from before
the first apply. -/
def Accounted (T : Tools R) (before : Option R) (m : Machine R) : Prop :=
  (m.running.isSome ∧ m.fresh) ∨ Runs T m m.applied ∨
    (m.applied = none ∧ Runs T m m.adopted) ∨
    (m.applied = none ∧ m.adopted = none ∧ m.running = before)

/-- The records are of tables that a fresh connection came through. -/
structure Recorded (T : Tools R) (m : Machine R) : Prop where
  applied : ∀ f, m.applied = some f → f ≠ [] ∧ ∃ k ∈ m.verified, T.load f = some k
  sha256 : ∀ d, m.appliedSha256 = some d →
    m.applied ≠ none ∧ ∃ f, ∃ k ∈ m.verified, T.sha256 f = d ∧ T.load f = some k

def Loads (T : Tools R) (file : Option Text) : Prop :=
  ∃ f k, file = some f ∧ f ≠ [] ∧ T.load f = some k

/-- What a rollback restores is there, or there was nothing to restore. -/
def Restorable (T : Tools R) (before : Option R) (m : Machine R) : Option Source → Prop
  | some .applied => Loads T m.applied
  | some .adopted => m.applied = none ∧ Loads T m.adopted
  | none => m.applied = none ∧ m.adopted = none ∧ before = none

/-- Where a rollback's script is, the machine is as its commands leave it. -/
def Reached (T : Tools R) (m : Machine R) (r : Rollback) : Prop :=
  match r.stage with
  | .waiting | .mark | .test => True
  | .copy => r.restore ≠ none
  | .restart => r.restore ≠ none ∧ m.config = r.restore.bind m.file
  | .delete => r.restore = none
  | .move => r.restore = none ∧ m.running = none
  | .disable => r.restore = none ∧ m.running = none ∧ m.config = none
  | .done =>
    m.config = r.restore.bind m.file ∧ m.running = (r.restore.bind m.file).bind T.load

structure Staged (T : Tools R) (before : Option R) (m : Machine R) (r : Rollback) : Prop where
  restorable : Restorable T before m r.restore
  unit : m.loadedUnit ≠ none
  reached : Reached T m r

def Covered (T : Tools R) (before : Option R) (m : Machine R) : Prop :=
  (AtRest m ∧ m.rollbacks.length ≤ 1 ∧ Accounted T before m) ∨
    ∃ r, m.rollbacks = [r] ∧ r.stage ≠ .done ∧ Staged T before m r

structure Sound (T : Tools R) (before : Option R) (m : Machine R) : Prop where
  recorded : Recorded T m
  adopted : ∀ f, m.adopted = some f → f ≠ [] ∧ ∃ k, T.load f = some k
  covered : Covered T before m

/-! ## The script -/

/-- What no rollback touches. -/
structure Frame (m m' : Machine R) : Prop where
  unitFile : m'.unitFile = m.unitFile
  loadedUnit : m'.loadedUnit = m.loadedUnit
  applied : m'.applied = m.applied
  appliedSha256 : m'.appliedSha256 = m.appliedSha256
  adopted : m'.adopted = m.adopted
  connection : m'.connection = m.connection
  verified : m'.verified = m.verified
  overtaken : m'.overtaken = m.overtaken

theorem Frame.refl (m : Machine R) : Frame m m := ⟨rfl, rfl, rfl, rfl, rfl, rfl, rfl, rfl⟩

theorem Frame.trans {m'' : Machine R} (h : Frame m m') (h' : Frame m' m'') : Frame m m'' where
  unitFile := h'.unitFile.trans h.unitFile
  loadedUnit := h'.loadedUnit.trans h.loadedUnit
  applied := h'.applied.trans h.applied
  appliedSha256 := h'.appliedSha256.trans h.appliedSha256
  adopted := h'.adopted.trans h.adopted
  connection := h'.connection.trans h.connection
  verified := h'.verified.trans h.verified
  overtaken := h'.overtaken.trans h.overtaken

theorem Frame.file (h : Frame m m') : m'.file = m.file := by
  funext source
  cases source with
  | applied => exact h.applied
  | adopted => exact h.adopted

theorem restart_cases (T : Tools R) (m : Machine R) :
    (∃ u f k, m.loadedUnit = some u ∧ m.config = some f ∧ T.load f = some k ∧ m.restart T =
      { m with running := some k, active := true, startedUnit := some u, fresh := false }) ∨
      ((m.loadedUnit = none ∨ m.config.bind T.load = none) ∧
        m.restart T = { m with active := false }) := by
  rw [Machine.restart]
  split
  · rename_i u k hunit hload
    obtain ⟨f, hconfig, hload⟩ := Option.bind_eq_some_iff.mp hload
    exact .inl ⟨u, f, k, hunit, hconfig, hload, rfl⟩
  · rename_i hnot
    refine .inr ⟨?_, rfl⟩
    cases hunit : m.loadedUnit with
    | none => exact .inl rfl
    | some u =>
      cases hload : m.config.bind T.load with
      | none => exact .inr rfl
      | some k => exact (hnot u k hunit hload).elim

theorem restart_frame (T : Tools R) (m : Machine R) : Frame m (m.restart T) := by
  rcases restart_cases T m with ⟨u, f, k, -, -, -, heq⟩ | ⟨-, heq⟩ <;> rw [heq] <;>
    exact ⟨rfl, rfl, rfl, rfl, rfl, rfl, rfl, rfl⟩

theorem restart_config (T : Tools R) (m : Machine R) : (m.restart T).config = m.config := by
  rcases restart_cases T m with ⟨u, f, k, -, -, -, heq⟩ | ⟨-, heq⟩ <;> rw [heq]

theorem restart_rollbacks (T : Tools R) (m : Machine R) : (m.restart T).rollbacks = m.rollbacks := by
  rcases restart_cases T m with ⟨u, f, k, -, -, -, heq⟩ | ⟨-, heq⟩ <;> rw [heq]

theorem script_frame (T : Tools R) (r : Rollback) (m : Machine R) : Frame m (script T r m).1 := by
  rw [script]
  cases r.stage with
  | copy =>
    simp only
    split <;> exact ⟨rfl, rfl, rfl, rfl, rfl, rfl, rfl, rfl⟩
  | restart => exact restart_frame T m
  | _ => exact ⟨rfl, rfl, rfl, rfl, rfl, rfl, rfl, rfl⟩

theorem script_started {r : Rollback} (h : r.stage ≠ .waiting) : (script T r m).2 ≠ .waiting := by
  rw [script]
  cases hstage : r.stage with
  | waiting => exact absurd hstage h
  | test =>
    simp only
    split <;> exact fun hstage => nomatch hstage
  | copy =>
    simp only
    split <;> exact fun hstage => nomatch hstage
  | _ => exact fun hstage => nomatch hstage

theorem happens_frame (T : Tools R) (m : Machine R) (e : Event) : Frame m (happens T m e) := by
  cases e with
  | elapse unit => exact ⟨rfl, rfl, rfl, rfl, rfl, rfl, rfl, rfl⟩
  | script unit =>
    rw [happens]
    split
    · exact .refl m
    · rename_i r _
      have h := script_frame T r m
      exact ⟨h.unitFile, h.loadedUnit, h.applied, h.appliedSha256, h.adopted, h.connection,
        h.verified, h.overtaken⟩

theorem happens_none_waits (h : ∀ r ∈ m.rollbacks, r.waits = false) (e : Event) :
    ∀ r ∈ (happens T m e).rollbacks, r.waits = false := by
  have hwaits : ∀ {r : Rollback}, r.waits = false ↔ r.stage ≠ .waiting := by
    intro r
    simp [Rollback.waits]
  cases e with
  | elapse unit =>
    intro r hr
    obtain ⟨q, hq, rfl⟩ := List.mem_map.mp hr
    have hstage := hwaits.mp (h q hq)
    rw [Rollback.elapsed, if_neg fun hnow => hstage hnow.2]
    exact h q hq
  | script unit =>
    rw [happens]
    split
    · exact h
    · rename_i r hfind
      intro q hq
      obtain ⟨p, hp, rfl⟩ := List.mem_map.mp hq
      rw [Rollback.atStage]
      split
      · exact hwaits.mpr (script_started (hwaits.mp (h r (List.mem_of_find?_eq_some hfind))))
      · exact h p hp

theorem happens_at_rest (h : AtRest m) (e : Event) : happens T m e = m := by
  have hsame : ∀ f : Rollback → Rollback, (∀ r ∈ m.rollbacks, f r = r) →
      { m with rollbacks := m.rollbacks.map f } = m := by
    intro f hf
    rw [List.map_congr_left hf, List.map_id']
  cases e with
  | elapse unit =>
    refine hsame _ fun r hr => ?_
    rw [Rollback.elapsed, if_neg]
    rintro ⟨-, hwaiting⟩
    rw [h r hr] at hwaiting
    cases hwaiting
  | script unit =>
    rw [happens]
    split
    · rfl
    · rename_i r hfind
      have hdone : script T r m = (m, .done) := by
        rw [script, h r (List.mem_of_find?_eq_some hfind)]
      rw [hdone]
      refine hsame _ fun q hq => ?_
      rw [Rollback.atStage]
      split
      · rw [← h q hq]
      · rfl

inductive Goes (T : Tools R) (m : Machine R) (r : Rollback) : Machine R → Prop where
  | stays : Goes T m r m
  | elapses (h : r.stage = .waiting) :
      Goes T m r { m with rollbacks := [{ r with stage := .mark }] }
  | goesOn (h : r.stage ≠ .waiting) (hdone : r.stage ≠ .done) :
      Goes T m r { (script T r m).1 with rollbacks := [{ r with stage := (script T r m).2 }] }

theorem happens_single (h : m.rollbacks = [r]) (e : Event) : Goes T m r (happens T m e) := by
  have hsame : { m with rollbacks := [r] } = m := by rw [← h]
  cases e with
  | elapse unit =>
    rw [happens, h]
    simp only [List.map_cons, List.map_nil, Rollback.elapsed]
    split
    · rename_i hnow
      exact .elapses hnow.2
    · rw [hsame]
      exact .stays
  | script unit =>
    rw [happens, h]
    by_cases hunit : r.unit = unit
    · subst hunit
      simp only [decide_true, List.find?_cons_of_pos, List.map_cons, List.map_nil,
        Rollback.atStage, if_true]
      by_cases hwaiting : r.stage = .waiting
      · have hscript : script T r m = (m, r.stage) := by rw [script, hwaiting]
        rw [hscript]
        change Goes T m r { m with rollbacks := [r] }
        rw [hsame]
        exact .stays
      by_cases hdone : r.stage = .done
      · have hscript : script T r m = (m, r.stage) := by rw [script, hdone]
        rw [hscript]
        change Goes T m r { m with rollbacks := [r] }
        rw [hsame]
        exact .stays
      · exact .goesOn hwaiting hdone
    · simp only [hunit, decide_false, Bool.false_eq_true, not_false_eq_true,
        List.find?_cons_of_neg, List.find?_nil]
      exact .stays

/-! ## The script keeps what it needs -/

theorem Restorable.frame {source : Option Source} (h : Restorable T before m source)
    (happlied : m'.applied = m.applied) (hadopted : m'.adopted = m.adopted) :
    Restorable T before m' source := by
  rcases source with _ | _ | _ <;> simpa only [Restorable, happlied, hadopted] using h

/-- What there is to restore is a file `nft` takes. -/
theorem Restorable.loads {source : Source} (h : Restorable T before m (some source)) :
    Loads T (m.file source) := by
  cases source with
  | applied => exact h
  | adopted => exact h.2

theorem Staged.done (h : Staged T before m r) (hdone : r.stage = .done) : Accounted T before m := by
  obtain ⟨hrestorable, -, hreached⟩ := h
  rw [Reached, hdone] at hreached
  obtain ⟨-, hrunning⟩ := hreached
  rcases hrestore : r.restore with _ | source
  · rw [hrestore] at hrestorable hrunning
    obtain ⟨happlied, hadopted, hbefore⟩ := hrestorable
    exact .inr (.inr (.inr ⟨happlied, hadopted, hrunning.trans hbefore.symm⟩))
  · rw [hrestore] at hrestorable hrunning
    obtain ⟨f, k, hfile, -, hload⟩ := hrestorable.loads
    have hruns : Runs T m (m.file source) := by
      refine ⟨f, k, hfile, hload, ?_⟩
      rw [hrunning, Option.bind_some, hfile, Option.bind_some, hload]
    cases source with
    | applied => exact .inr (.inl hruns)
    | adopted => exact .inr (.inr (.inl ⟨hrestorable.1, hruns⟩))

theorem script_reached (h : Staged T before m r) (hstarted : r.stage ≠ .waiting) :
    Reached T (script T r m).1 { r with stage := (script T r m).2 } := by
  have hfile := (script_frame T r m).file
  obtain ⟨hrestorable, hunit, hreached⟩ := h
  rw [Reached] at hreached ⊢
  cases hstage : r.stage with
  | waiting => exact absurd hstage hstarted
  | mark => simp only [script, hstage]
  | test =>
    simp only [script, hstage]
    rcases hrestore : r.restore with _ | source
    · simp
    · rw [hrestore] at hrestorable
      obtain ⟨f, k, hf, hne, -⟩ := hrestorable.loads
      simp [hf, hne]
  | copy =>
    rw [hstage] at hreached
    obtain ⟨source, hrestore⟩ := Option.ne_none_iff_exists'.mp hreached
    rw [hrestore] at hrestorable
    obtain ⟨f, k, hf, -, -⟩ := hrestorable.loads
    have hscript : script T r m = ({ m with config := some f }, .restart) := by
      rw [script, hstage, hrestore, Option.bind_some, hf]
    rw [hscript] at hfile ⊢
    refine ⟨hreached, ?_⟩
    rw [hfile, hrestore, Option.bind_some, hf]
  | restart =>
    rw [hstage] at hreached
    obtain ⟨hsome, hconfig⟩ := hreached
    obtain ⟨source, hrestore⟩ := Option.ne_none_iff_exists'.mp hsome
    rw [hrestore] at hrestorable
    obtain ⟨f, k, hf, -, hload⟩ := hrestorable.loads
    have hloaded : m.config.bind T.load = some k := by
      rw [hconfig, hrestore, Option.bind_some, hf, Option.bind_some, hload]
    have hscript : script T r m = (m.restart T, .done) := by rw [script, hstage]
    rw [hscript] at hfile ⊢
    refine ⟨?_, ?_⟩
    · rw [hfile]
      exact (restart_config T m).trans hconfig
    · rw [hfile, ← hconfig, hloaded]
      obtain ⟨u, hu⟩ := Option.ne_none_iff_exists'.mp hunit
      simp only [Machine.restart, hu, hloaded]
  | delete =>
    rw [hstage] at hreached
    simp only [script, hstage]
    exact ⟨hreached, trivial⟩
  | move =>
    rw [hstage] at hreached
    simp only [script, hstage]
    exact ⟨hreached.1, hreached.2, trivial⟩
  | disable =>
    rw [hstage] at hreached
    obtain ⟨hrestore, hrunning, hconfig⟩ := hreached
    simp only [script, hstage, hrestore]
    exact ⟨hconfig, hrunning⟩
  | done =>
    rw [hstage] at hreached
    simpa only [script, hstage] using hreached

theorem script_staged (h : Staged T before m r) (hstarted : r.stage ≠ .waiting) :
    Staged T before (script T r m).1 { r with stage := (script T r m).2 } where
  restorable := h.restorable.frame (script_frame T r m).applied (script_frame T r m).adopted
  unit := by
    rw [(script_frame T r m).loadedUnit]
    exact h.unit
  reached := script_reached h hstarted

theorem Staged.rollbacks (h : Staged T before m r) (l : List Rollback) :
    Staged T before { m with rollbacks := l } r where
  restorable := h.restorable.frame rfl rfl
  unit := h.unit
  reached := h.reached

theorem Staged.elapsed (h : Staged T before m r) :
    Staged T before m { r with stage := .mark } where
  restorable := h.restorable
  unit := h.unit
  reached := trivial

/-- A scheduled rollback or one at work is what it is supposed to be wherever
the host takes it. -/
theorem Goes.staged (h : Staged T before m r) (hgoes : Goes T m r m') (hsingle : m.rollbacks = [r]) :
    ∃ stage, m'.rollbacks = [{ r with stage := stage }] ∧
      (r.stage ≠ .waiting → stage ≠ .waiting) ∧
      Staged T before m' { r with stage := stage } := by
  cases hgoes with
  | stays => exact ⟨r.stage, hsingle, id, h⟩
  | elapses hwaiting =>
    exact ⟨.mark, rfl, fun _ hstage => (nomatch hstage), h.elapsed.rollbacks _⟩
  | goesOn hstarted hdone =>
    exact ⟨_, rfl, script_started, (script_staged h hstarted).rollbacks _⟩

theorem Covered.of_staged (hsingle : m.rollbacks = [r]) (h : Staged T before m r) :
    Covered T before m := by
  by_cases hdone : r.stage = .done
  · refine .inl ⟨?_, ?_, h.done hdone⟩
    · rw [AtRest, hsingle]
      exact List.forall_mem_singleton.mpr hdone
    · rw [hsingle]
      exact Nat.le_refl 1
  · exact .inr ⟨r, hsingle, hdone, h⟩

theorem happens_covered (h : Covered T before m) (e : Event) : Covered T before (happens T m e) := by
  rcases h with ⟨hrest, hlength, hacc⟩ | ⟨r, hsingle, hdone, hstaged⟩
  · rw [happens_at_rest hrest]
    exact .inl ⟨hrest, hlength, hacc⟩
  · obtain ⟨stage, hsingle', -, hstaged'⟩ :=
      Goes.staged hstaged (happens_single hsingle e) hsingle
    exact .of_staged hsingle' hstaged'

theorem Recorded.frame (h : Recorded T m) (hframe : Frame m m') : Recorded T m' where
  applied := by
    rw [hframe.applied, hframe.verified]
    exact h.applied
  sha256 := by
    rw [hframe.applied, hframe.appliedSha256, hframe.verified]
    exact h.sha256

theorem happens_sound (h : Sound T before m) (e : Event) : Sound T before (happens T m e) where
  recorded := h.recorded.frame (happens_frame T m e)
  adopted := by
    rw [(happens_frame T m e).adopted]
    exact h.adopted
  covered := happens_covered h.covered e

end Provisioner.Firewall.SafeApply
