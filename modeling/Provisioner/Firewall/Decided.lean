import Provisioner.Firewall.Kept

/-!
# Up to the decision

From its start to the decision whether the table needs applying, a run leaves
the running table and the records alone, and what it goes by then is so,
unless a rollback of an earlier run was still waiting.
-/

namespace Provisioner.Firewall.SafeApply

open Play Setting

variable {R : Type} {T : Tools R} {before : Option R} {v : Vars T}

/-! ## Assertions -/

def Flags (v : Vars T) (scheduled : Bool) (f : Facts R) : Prop :=
  f.preflighted = v.preflight ∧ f.scheduled = scheduled ∧ f.cancelled = false ∧
    f.recorded = false ∧ f.completed = false

/-- The timers have been read: where none was waiting, no rollback is loaded
that could still do anything. -/
def Early (v : Vars T) (P : Host R → Prop) (s : Host R) : Prop :=
  Flags v false s.facts ∧
    (v.preflight = true → s.facts.firewallRollbackPending = []) ∧
    (s.facts.firewallRollbackPending = [] → AtRest s.machine ∧ P s)

theorem Early.facts {P Q : Host R → Prop} {s : Host R} (h : Early v P s) {f : Facts R}
    (hflags : Flags v false f)
    (hpending : f.firewallRollbackPending = s.facts.firewallRollbackPending)
    (himp : P s → Q { s with facts := f }) : Early v Q { s with facts := f } := by
  obtain ⟨-, hnone, hP⟩ := h
  refine ⟨hflags, fun hpreflight => hpending.trans (hnone hpreflight), fun hempty => ?_⟩
  obtain ⟨hrest, hs⟩ := hP (hpending.symm.trans hempty)
  exact ⟨hrest, himp hs⟩

theorem lasts_at_rest {P : Host R → Prop} : Lasts T before fun s => AtRest s.machine ∧ P s := by
  intro s e _ h
  change AtRest (happens T s.machine e) ∧ P { s with machine := happens T s.machine e }
  rw [happens_at_rest h.1]
  exact h

theorem lasts_early {P : Host R → Prop} : Lasts T before (Early v P) := by
  intro s e hkeep h
  exact ⟨h.1, h.2.1, fun hpending => lasts_at_rest s e hkeep (h.2.2 hpending)⟩

theorem lasts_facts (p : Facts R → Prop) : Lasts T before fun s => p s.facts :=
  fun _ _ _ h => h

theorem lasts_unitFile (u : Option Text) : Lasts T before fun s => s.machine.unitFile = u :=
  fun s e _ h => (happens_frame T s.machine e).unitFile.trans h

theorem lasts_connection : Lasts T before fun s => s.machine.connection ≠ none := by
  intro s e _ h
  change (happens T s.machine e).connection ≠ none
  rwa [(happens_frame T s.machine e).connection]

theorem lasts_none_waits :
    Lasts T before fun s => v.preflight = true → ∀ r ∈ s.machine.rollbacks, r.waits = false :=
  fun _ e _ h hpreflight => happens_none_waits (h hpreflight) e

theorem lasts_previous :
    Lasts T before fun s => s.facts.firewallPrevious = s.machine.applied.isSome := by
  intro s e _ h
  change s.facts.firewallPrevious = (happens T s.machine e).applied.isSome
  rwa [(happens_frame T s.machine e).applied]

theorem does_registers {P Q : Host R → Prop} {f : Host R → Facts R} (hP : Lasts T before P)
    (hflags : ∀ s, P s → (f s).unitOpen = s.facts.unitOpen ∧
      (f s).recordOpen = s.facts.recordOpen ∧ (f s).completed = false)
    (h : ∀ s, Kept T before s → P s → Q { s with facts := f s }) :
    Does T before P [registers f] Q := by
  apply does_observes hP
  · exact fun _ _ hok => hok
  · intro s r _ hkeep hs
    obtain ⟨hunit, hrecord, hcompleted⟩ := hflags s hs
    exact ⟨hkeep.facts hunit hrecord hcompleted, h s hkeep hs⟩

theorem does_sets {P Q : Host R → Prop} {f : Host R → Facts R} (hP : Lasts T before P)
    (hflags : ∀ s, P s → (f s).unitOpen = s.facts.unitOpen ∧
      (f s).recordOpen = s.facts.recordOpen ∧ (f s).completed = false)
    (h : ∀ s, Kept T before s → P s → Q { s with facts := f s }) :
    Does T before P [sets f] Q := by
  apply does_notes hP
  · exact fun _ _ hok => hok
  · intro s r _ hkeep hs
    obtain ⟨hunit, hrecord, hcompleted⟩ := hflags s hs
    exact ⟨hkeep.facts hunit hrecord hcompleted, h s hkeep hs⟩

/-! ## Reading -/

def Start (v : Vars T) (s : Host R) : Prop :=
  Flags v false s.facts ∧ s.facts.rewrote = false ∧ s.machine.connection ≠ none

theorem lasts_start : Lasts T before (Start v) :=
  (lasts_facts (Flags v false)).and ((lasts_facts fun f => f.rewrote = false).and lasts_connection)

theorem does_preflight : Does T before (Start v)
    [.incl (fun _ => v.preflight) [gate fun s => !s.machine.rollbacks.any Rollback.waits]]
    fun s => Start v s ∧ (v.preflight = true → ∀ r ∈ s.machine.rollbacks, r.waits = false) := by
  apply does_incl lasts_start
  · apply does_gate (lasts_start.and (lasts_facts fun _ => v.preflight = true))
    rintro s - ⟨hs, -⟩ hnone
    refine ⟨hs, fun _ r hr => ?_⟩
    simp only [Bool.not_eq_true', List.any_eq_false, Bool.not_eq_true] at hnone
    exact hnone r hr
  · intro s _ hs hskip
    refine ⟨hs, fun hpreflight => ?_⟩
    rw [hskip] at hpreflight
    cases hpreflight

def Previous (v : Vars T) (s : Host R) : Prop :=
  (Start v s ∧ (v.preflight = true → ∀ r ∈ s.machine.rollbacks, r.waits = false)) ∧
    s.facts.firewallPrevious = s.machine.applied.isSome

theorem does_previous : Does T before
    (fun s => Start v s ∧ (v.preflight = true → ∀ r ∈ s.machine.rollbacks, r.waits = false))
    [registers fun s => { s.facts with firewallPrevious := s.machine.applied.isSome }]
    (Previous v) := by
  apply does_registers (lasts_start.and lasts_none_waits)
  · exact fun s hs => ⟨rfl, rfl, hs.1.1.2.2.2.2⟩
  · exact fun s _ hs => ⟨hs, rfl⟩

def Found (s : Host R) : Prop :=
  s.machine.connection ≠ none ∧ s.facts.firewallPrevious = s.machine.applied.isSome

theorem at_rest_of {m : Machine R} (hwait : ∀ r ∈ m.rollbacks, r.waits = false)
    (hwork : ∀ r ∈ m.rollbacks, r.atWork = false) : AtRest m := by
  intro r hr
  have hidle := hwork r hr
  have hnot := hwait r hr
  simp only [Rollback.waits, beq_eq_false_iff_ne, ne_eq] at hnot
  simpa [Rollback.atWork, hnot] using hidle

theorem does_timers : Does T before (Previous v) [readRollbackTimers]
    fun s => s.facts.rewrote = false ∧ Early v Found s := by
  apply does_observes ((lasts_start.and lasts_none_waits).and lasts_previous)
  · intro s _ hok
    simp only [setting, Bool.or_eq_false_iff] at hok ⊢
    exact hok.1
  · rintro s r hok hkeep ⟨⟨⟨hflags, hrewrote, hconnection⟩, hnone⟩, hprevious⟩
    simp only [setting, Bool.or_eq_false_iff, List.any_eq_false, Bool.not_eq_true] at hok
    have hsame : Same s.machine { s.machine with
        overtaken := s.machine.overtaken || s.machine.rollbacks.any Rollback.atWork } :=
      ⟨rfl, rfl, rfl, rfl, rfl, rfl, rfl, id, .inl rfl⟩
    refine ⟨⟨hsame.sound hkeep.sound, fun hlost => ?_⟩, hrewrote, hflags, ?_, ?_⟩
    · exact (hkeep.unlost hlost).same hsame rfl rfl rfl (.inl rfl) rfl rfl hflags.2.2.2.2
    · intro hpreflight
      rw [List.filter_eq_nil_iff]
      exact fun r hr => by simp [hnone hpreflight r hr]
    · intro hpending
      rw [List.filter_eq_nil_iff] at hpending
      refine ⟨at_rest_of (fun r hr => ?_) fun r hr => ?_, hconnection, hprevious⟩
      · simpa using hpending r hr
      · simpa using hok.2 r hr

def Snapshot (s : Host R) : Prop :=
  Found s ∧ s.facts.firewallRunningTable = s.machine.running

theorem does_snapshot : Does T before (fun s => s.facts.rewrote = false ∧ Early v Found s)
    [registers fun s => { s.facts with firewallRunningTable := s.machine.running }]
    fun s => s.facts.rewrote = false ∧ Early v Snapshot s := by
  apply does_registers ((lasts_facts fun f => f.rewrote = false).and lasts_early)
  · exact fun s hs => ⟨rfl, rfl, hs.2.1.2.2.2.2⟩
  · exact fun s _ hs => ⟨hs.1, hs.2.facts hs.2.1 rfl fun hfound => ⟨hfound, rfl⟩⟩

/-! ## Keeping the running table -/

theorem adoptedContent_ne (firewallTable listing : Text) :
    adoptedContent firewallTable listing ≠ [] := by
  intro hnil
  exact absurd (List.append_eq_nil_iff.mp hnil).2 (by decide)

def Adopted (before : Option R) (s : Host R) : Prop :=
  Snapshot s ∧ (s.machine.applied = none → (s.machine.adopted.isSome = s.machine.running.isSome ∧
    (s.machine.running = none → before = none)))

theorem not_previous {s : Host R} (hfound : Found s) (hno : s.facts.firewallPrevious = false) :
    s.machine.applied = none := by
  have hprevious := hfound.2
  rw [hno] at hprevious
  exact Option.not_isSome_iff_eq_none.mp (by simp [← hprevious])

theorem Accounted.no_table {m : Machine R} (h : Accounted T before m) (happlied : m.applied = none)
    (hrunning : m.running = none) : before = none := by
  rcases h with ⟨hsome, -⟩ | ⟨f, k, hfile, -, -⟩ | ⟨-, f, k, -, -, hruns⟩ | ⟨-, -, hbefore⟩
  · rw [hrunning] at hsome
    cases hsome
  · rw [happlied] at hfile
    cases hfile
  · rw [hrunning] at hruns
    cases hruns
  · rw [← hbefore, hrunning]

theorem Sound.accounted {m : Machine R} (h : Sound T before m) (hrest : AtRest m) :
    m.rollbacks.length ≤ 1 ∧ Accounted T before m := by
  rcases h.covered with ⟨-, hlength, hacc⟩ | ⟨r, hsingle, hdone, -⟩
  · exact ⟨hlength, hacc⟩
  · exact absurd hrest (not_at_rest hsingle hdone)

/-- A task that rewrites `adopted.nft` while no rollback is loaded that reads it. -/
theorem Kept.adopted {s : Host R} (h : Kept T before s) (hrest : AtRest s.machine)
    (hcompleted : s.facts.completed = false) {file : Option Text}
    (hfile : ∀ f, file = some f → f ≠ [] ∧ ∃ k, T.load f = some k)
    (hacc : Accounted T before { s.machine with adopted := file }) :
    Kept T before { s with machine := { s.machine with adopted := file } } := by
  have hlength := (h.sound.accounted hrest).1
  refine ⟨⟨⟨h.sound.recorded.applied, h.sound.recorded.sha256⟩, hfile, .inl ⟨hrest, hlength, hacc⟩⟩,
    fun hlost => ?_⟩
  obtain ⟨hsha, hrunning, hunit, hreload, -⟩ := h.unlost hlost
  refine ⟨hsha, hrunning, hunit, hreload, fun htrue => ?_⟩
  rw [hcompleted] at htrue
  cases htrue

theorem does_keep : Does T before (fun s => s.facts.rewrote = false ∧ Early v Snapshot s)
    (keepRunningTable T) fun s => s.facts.rewrote = false ∧ Early v (Adopted before) s := by
  have hlasts : ∀ P : Host R → Prop,
      Lasts T before fun s => s.facts.rewrote = false ∧ Early v P s :=
    fun P => (lasts_facts fun f => f.rewrote = false).and lasts_early
  -- after the first of the two, a table that runs is kept
  apply Does.cons (M := fun s => s.facts.rewrote = false ∧ Early v (fun s => Snapshot s ∧
    (s.machine.applied = none → s.machine.running.isSome → s.machine.adopted.isSome)) s)
  · apply does_incl (hlasts _)
    · apply does_acts ((hlasts _).and (lasts_facts fun f => (!f.firewallPrevious &&
        f.firewallRollbackPending.isEmpty && f.firewallRunningTable.isSome) = true))
      · exact fun _ _ hok => hok
      · rintro s r - hkeep ⟨⟨hrewrote, hearly⟩, hcond⟩
        simp only [Bool.and_eq_true, Bool.not_eq_true', List.isEmpty_iff] at hcond
        obtain ⟨⟨hno, hpending⟩, hsome⟩ := hcond
        obtain ⟨hrest, hfound, hsnapshot⟩ := hearly.2.2 hpending
        obtain ⟨k, hk⟩ := Option.isSome_iff_exists.mp hsome
        have hrunning : s.machine.running = some k := hsnapshot.symm.trans hk
        have hfile : adoptedFile T s.facts.firewallRunningTable =
            some (adoptedContent T.firewallTable (T.list k)) := by
          rw [hk, adoptedFile, Option.map_some]
        have hruns : Runs T s.machine (adoptedFile T s.facts.firewallRunningTable) :=
          ⟨_, k, hfile, T.load_adopted k, hrunning⟩
        refine ⟨hkeep.adopted hrest hearly.1.2.2.2.2 ?_ ?_, hrewrote, hearly.1, hearly.2.1, ?_⟩
        · intro f hf
          rw [hfile] at hf
          cases hf
          exact ⟨adoptedContent_ne _ _, k, T.load_adopted k⟩
        · exact .inr (.inr (.inl ⟨not_previous hfound hno, hruns⟩))
        · refine fun _ => ⟨hrest, ⟨hfound, hsnapshot⟩, fun _ _ => ?_⟩
          simp [hfile]
    · rintro s - ⟨hrewrote, hearly⟩ hcond
      refine ⟨hrewrote, hearly.1, hearly.2.1, fun hpending => ?_⟩
      obtain ⟨hrest, hfound, hsnapshot⟩ := hearly.2.2 hpending
      refine ⟨hrest, ⟨hfound, hsnapshot⟩, fun happlied hsome => ?_⟩
      have hno : s.facts.firewallPrevious = false := by rw [hfound.2, happlied]; rfl
      simp [hno, hpending, hsnapshot, Option.isSome_iff_ne_none.mp hsome] at hcond
  · apply does_incl (hlasts _)
    · apply does_acts ((hlasts _).and (lasts_facts fun f => (!f.firewallPrevious &&
        f.firewallRollbackPending.isEmpty && f.firewallRunningTable.isNone) = true))
      · exact fun _ _ hok => hok
      · rintro s r - hkeep ⟨⟨hrewrote, hearly⟩, hcond⟩
        simp only [Bool.and_eq_true, Bool.not_eq_true', List.isEmpty_iff] at hcond
        obtain ⟨⟨hno, hpending⟩, hnone⟩ := hcond
        obtain ⟨hrest, ⟨hfound, hsnapshot⟩, -⟩ := hearly.2.2 hpending
        have happlied := not_previous hfound hno
        have hrunning : s.machine.running = none :=
          hsnapshot.symm.trans (Option.isNone_iff_eq_none.mp hnone)
        have hbefore := (hkeep.sound.accounted hrest).2.no_table happlied hrunning
        refine ⟨hkeep.adopted hrest hearly.1.2.2.2.2 (fun f hf => (nomatch hf)) ?_, hrewrote,
          hearly.1, hearly.2.1, fun _ => ⟨hrest, ⟨hfound, hsnapshot⟩, fun _ => ⟨?_, ?_⟩⟩⟩
        · exact .inr (.inr (.inr ⟨happlied, rfl, hrunning.trans hbefore.symm⟩))
        · simp [hrunning]
        · exact fun _ => hbefore
    · rintro s - ⟨hrewrote, hearly⟩ hcond
      refine ⟨hrewrote, hearly.1, hearly.2.1, fun hpending => ?_⟩
      obtain ⟨hrest, ⟨hfound, hsnapshot⟩, hkept⟩ := hearly.2.2 hpending
      refine ⟨hrest, ⟨hfound, hsnapshot⟩, fun happlied => ?_⟩
      have hno : s.facts.firewallPrevious = false := by rw [hfound.2, happlied]; rfl
      have hsome : s.machine.running.isSome := by
        simpa [hno, hpending, hsnapshot] using hcond
      exact ⟨(hkept happlied hsome).trans hsome.symm,
        fun hnone => absurd hnone (Option.isSome_iff_ne_none.mp hsome)⟩

/-! ## Rendering and deciding -/

def Saved (before : Option R) (s : Host R) : Prop :=
  Adopted before s ∧ s.facts.firewallAdopted = s.machine.adopted.isSome

theorem does_saved : Does T before (fun s => s.facts.rewrote = false ∧ Early v (Adopted before) s)
    [registers fun s => { s.facts with firewallAdopted := s.machine.adopted.isSome }]
    fun s => s.facts.rewrote = false ∧ Early v (Saved before) s := by
  apply does_registers ((lasts_facts fun f => f.rewrote = false).and lasts_early)
  · exact fun s hs => ⟨rfl, rfl, hs.2.1.2.2.2.2⟩
  · exact fun s _ hs => ⟨hs.1, hs.2.facts hs.2.1 rfl fun hadopted => ⟨hadopted, rfl⟩⟩

def Rendered (before : Option R) (v : Vars T) (s : Host R) : Prop :=
  Saved before s ∧ s.machine.config = some v.table

theorem does_render : Does T before (fun s => s.facts.rewrote = false ∧ Early v (Saved before) s)
    (renderTable v) fun s => s.facts.rewrote = false ∧ Early v (Rendered before v) s := by
  have hlasts : ∀ P : Host R → Prop,
      Lasts T before fun s => s.facts.rewrote = false ∧ Early v P s :=
    fun P => (lasts_facts fun f => f.rewrote = false).and lasts_early
  apply Does.cons (does_gate (hlasts _) fun s _ hs _ => hs)
  apply does_acts (hlasts _)
  · intro s _ hok
    simp only [setting, Bool.or_eq_false_iff] at hok ⊢
    exact hok.1
  · rintro s r hok hkeep ⟨hrewrote, hearly⟩
    simp only [setting, Bool.or_eq_false_iff, List.any_eq_false, Bool.not_eq_true] at hok
    have hsame : Same s.machine { s.machine with
        config := some v.table
        overtaken := s.machine.overtaken || s.machine.rollbacks.any Rollback.atWork } :=
      ⟨rfl, rfl, rfl, rfl, rfl, rfl, rfl, id, .inr hok.2⟩
    refine ⟨⟨hsame.sound hkeep.sound, fun hlost => ?_⟩, hrewrote, hearly.1, hearly.2.1, ?_⟩
    · exact (hkeep.unlost hlost).same hsame rfl rfl rfl (.inl rfl) rfl rfl hearly.1.2.2.2.2
    · intro hpending
      obtain ⟨hrest, hsaved⟩ := hearly.2.2 hpending
      exact ⟨hrest, hsaved, rfl⟩

def Installed (before : Option R) (v : Vars T) (s : Host R) : Prop :=
  Rendered before v s ∧ s.facts.firewallUnitRender = s.facts.rewrote

def Loaded (before : Option R) (v : Vars T) (s : Host R) : Prop :=
  Installed before v s ∧ s.machine.enabled = true

def UnitRead (v : Vars T) (m : Machine R) : Prop :=
  m.unitFile = some v.unit ∧ m.loadedUnit = m.unitFile

theorem lasts_unit_read : Lasts T before fun s => UnitRead v s.machine := by
  intro s e _ h
  have hframe := happens_frame T s.machine e
  exact ⟨hframe.unitFile.trans h.1, hframe.loadedUnit.trans (h.2.trans hframe.unitFile.symm)⟩

theorem does_install :
    Does T before (fun s => s.facts.rewrote = false ∧ Early v (Rendered before v) s)
      (installUnit v) fun s => UnitRead v s.machine ∧ Early v (Loaded before v) s := by
  apply Does.cons (M := fun s => s.machine.unitFile = some v.unit ∧ Early v (Installed before v) s)
  · apply does_acts ((lasts_facts fun f => f.rewrote = false).and lasts_early)
    · exact fun _ _ hok => hok
    · rintro s r - hkeep ⟨hrewrote, hearly⟩
      obtain ⟨hflags, hnone, hrendered⟩ := hearly
      have hsame : Same s.machine { s.machine with unitFile := some v.unit } :=
        ⟨rfl, rfl, rfl, rfl, rfl, rfl, rfl, id, .inl rfl⟩
      refine ⟨⟨hsame.sound hkeep.sound, fun hlost => ?_⟩, rfl, hflags, hnone, fun hpending => ?_⟩
      · have hunlost := hkeep.unlost hlost
        have hopen : s.facts.unitOpen = false := by rw [Facts.unitOpen, hrewrote]; rfl
        by_cases hfile : s.machine.unitFile = some v.unit
        · refine hunlost.same hsame ?_ ?_ hfile.symm (.inl rfl) ?_ ?_ hflags.2.2.2.2
          · rfl
          · rfl
          · rw [hopen]
            simp [Facts.unitOpen, hfile]
          · rfl
        · have hchanged : ({ s.facts with
              firewallUnitRender := s.machine.unitFile != some v.unit
              rewrote := s.machine.unitFile != some v.unit } : Facts R).unitOpen = true := by
            simp [Facts.unitOpen, hfile, hflags.2.1]
          refine ⟨hunlost.sha256, hunlost.running, ?_, ?_, ?_⟩
          · intro hclosed
            rw [hchanged] at hclosed
            cases hclosed
          · intro hclosed
            rw [hchanged] at hclosed
            cases hclosed
          · intro htrue
            rw [show _ = false from hflags.2.2.2.2] at htrue
            cases htrue
      · obtain ⟨hrest, hrendered⟩ := hrendered hpending
        exact ⟨hrest, hrendered, rfl⟩
  · apply does_acts ((lasts_unitFile _).and lasts_early)
    · exact fun _ _ hok => hok
    · rintro s r - hkeep ⟨hfile, hearly⟩
      obtain ⟨hflags, hnone, hinstalled⟩ := hearly
      have hsame : Same s.machine { s.machine with
          enabled := true
          loadedUnit := s.machine.unitFile } :=
        ⟨rfl, rfl, rfl, rfl, rfl, rfl, rfl, fun _ => by simp [hfile], .inl rfl⟩
      refine ⟨⟨hsame.sound hkeep.sound, fun hlost => ?_⟩, ⟨hfile, rfl⟩, hflags, hnone,
        fun hpending => ?_⟩
      · exact (hkeep.unlost hlost).same hsame rfl rfl rfl (.inr rfl) rfl rfl hflags.2.2.2.2
      · obtain ⟨hrest, hinstalled⟩ := hinstalled hpending
        exact ⟨hrest, hinstalled, rfl⟩

def Read (before : Option R) (v : Vars T) (s : Host R) : Prop :=
  ((Loaded before v s ∧ s.facts.firewallAppliedRecord = s.machine.appliedSha256) ∧
    s.facts.firewallTableNow = some (T.sha256 v.table)) ∧
      s.facts.firewallServiceState = s.machine.active

def Decided (before : Option R) (v : Vars T) (s : Host R) : Prop :=
  Read before v s ∧ s.facts.firewallApplyReasons = applyReasons s.facts

theorem does_decide :
    Does T before (fun s => UnitRead v s.machine ∧ Early v (Loaded before v) s)
      (decideApply T) fun s => UnitRead v s.machine ∧ Early v (Decided before v) s := by
  have hlasts : ∀ P : Host R → Prop, Lasts T before fun s => UnitRead v s.machine ∧ Early v P s :=
    fun P => lasts_unit_read.and lasts_early
  apply Does.cons (M := fun s => UnitRead v s.machine ∧ Early v (fun s => Loaded before v s ∧
    s.facts.firewallAppliedRecord = s.machine.appliedSha256) s)
  · apply does_registers (hlasts _)
    · exact fun s hs => ⟨rfl, rfl, hs.2.1.2.2.2.2⟩
    · exact fun s _ hs => ⟨hs.1, hs.2.facts hs.2.1 rfl fun hloaded => ⟨hloaded, rfl⟩⟩
  apply Does.cons (M := fun s => UnitRead v s.machine ∧ Early v (fun s => (Loaded before v s ∧
    s.facts.firewallAppliedRecord = s.machine.appliedSha256) ∧
      s.facts.firewallTableNow = some (T.sha256 v.table)) s)
  · apply does_registers (hlasts _)
    · exact fun s hs => ⟨rfl, rfl, hs.2.1.2.2.2.2⟩
    · refine fun s _ hs => ⟨hs.1, hs.2.facts hs.2.1 rfl fun hloaded => ⟨hloaded, ?_⟩⟩
      change s.machine.config.map T.sha256 = _
      rw [hloaded.1.1.1.2, Option.map_some]
  apply Does.cons (M := fun s => UnitRead v s.machine ∧ Early v (Read before v) s)
  · apply does_registers (hlasts _)
    · exact fun s hs => ⟨rfl, rfl, hs.2.1.2.2.2.2⟩
    · exact fun s _ hs => ⟨hs.1, hs.2.facts hs.2.1 rfl fun hread => ⟨hread, rfl⟩⟩
  · apply does_sets (hlasts _)
    · exact fun s hs => ⟨rfl, rfl, hs.2.1.2.2.2.2⟩
    · exact fun s _ hs => ⟨hs.1, hs.2.facts hs.2.1 rfl fun hread => ⟨hread, rfl⟩⟩

end Provisioner.Firewall.SafeApply
