import Provisioner.Controller.Schema

/-!
# The guard of the schema load

`cstacks` by hand, one subcommand after another, on a greenfield controller or
an attached one. `bootstrap-db` has two signs that a database is in use: the
sentinel, which it writes itself, and the portal container.
-/

namespace Provisioner.Controller

open Play Cstacks

inductive Subcommand where
  | run
  | stop
  | migrate
  | upgrade
  | seed (dryRun : Bool)
  | bootstrapDb
deriving DecidableEq, Repr

namespace Subcommand

def commands : Subcommand → List Item
  | .run => Cstacks.run
  | .stop => Cstacks.stop
  | .migrate => Cstacks.migrate
  | .upgrade => Cstacks.upgrade
  | .seed dryRun => Cstacks.seed dryRun
  | .bootstrapDb => Cstacks.bootstrapDb

def boot (_ : Subcommand) (s : Host) : Host where
  machine := s.machine.slip (s.machine.history.replacing && !s.machine.sentinel) .containerLost
  facts := {}

def system : Play.System Host Reply Subcommand Empty where
  boot := boot
  play := commands
  outside e _ := e.elim

end Subcommand

/-- What slips the guard of `bootstrap-db` cannot see. -/
def Slip.ofGuard : Slip → Bool
  | .containerLost | .earlySeed | .bootstrapBlind => true
  | .imageChanged | .upgradeOff | .migrationCut | .inspectFailed | .upgradeBlind => false

def Machine.Guarded (m : Machine) : Prop := ∀ s ∈ m.history.slips, s.ofGuard = false

def Shown (m : Machine) : Prop :=
  m.populated = true → m.sentinel = true ∨ m.container.isSome = true ∨ m.history.replacing = true

def Held (s : Host) : Prop := s.machine.Guarded → Shown s.machine

def LoadsEmpty (s s' : Host) : Prop :=
  ∀ c, Emits s.machine s'.machine (.schemaLoad c) → s'.machine.Guarded →
    s.machine.populated = false

theorem LoadsEmpty.of_log {s s' : Host}
    (h : s'.machine.history.log = s.machine.history.log) : LoadsEmpty s s' := by
  intro c hemits
  rw [Emits, h] at hemits
  exact absurd hemits.symm (List.cons_ne_self _ _)

theorem LoadsEmpty.of_event {s s' : Host} {e : Event} (h : Emits s.machine s'.machine e)
    (he : ∀ c, e ≠ .schemaLoad c) : LoadsEmpty s s' := by
  intro c hemits
  have hcons : Event.schemaLoad c :: _ = e :: _ := hemits.symm.trans h
  exact absurd (List.cons.inj hcons).1.symm (he c)

theorem LoadsEmpty.refl (s : Host) : LoadsEmpty s s := .of_log rfl

abbrev Obeys (P : Host → Prop) (items : List Item) (Q : Host → Prop) : Prop :=
  Leads Held LoadsEmpty LoadsEmpty.refl P items Q

theorem guarded_slip {m : Machine} {c : Bool} {x : Slip} :
    (m.slip c x).Guarded ↔ m.Guarded ∧ (c = true → x.ofGuard = false) := by
  cases c with
  | false => simp [Machine.slip]
  | true => simp [Machine.slip, Machine.Guarded, and_comm]

theorem shown_slip {m : Machine} {c : Bool} {x : Slip} : Shown (m.slip c x) ↔ Shown m := by
  cases c <;> exact Iff.rfl

/-! ## The subcommands that load nothing -/

variable {P : Host → Prop}

abbrev Harmless (items : List Item) : Prop := Obeys (fun _ => True) items fun _ => True

theorem harmless_gate (c : Host → Bool) : Harmless [gate c] := leads_gate fun _ _ hs _ => hs

theorem harmless_facts (f : Reply → Host → Facts) :
    Harmless [notes fun r s => { s with facts := f r s }] :=
  leads_notes fun _ _ hinv _ => ⟨hinv, .of_log rfl, trivial⟩

theorem harmless_source : Harmless source := (harmless_gate _).cons (harmless_facts _)

theorem harmless_containerExists (caller : Caller) : Harmless [containerExists caller] := by
  refine leads_notes fun s r hinv _ => ⟨?_, .of_log ?_, trivial⟩
  · cases hblind : caller.blind with
    | none =>
      simp only [Held]
      exact hinv
    | some x =>
      simp only [Held]
      exact fun hguarded => shown_slip.mpr (hinv (guarded_slip.mp hguarded).1)
  · cases caller with
    | run => rfl
    | upgrade => exact Machine.log_slip _ _ _
    | bootstrapDb => exact Machine.log_slip _ _ _

theorem harmless_dockerStop : Harmless [dockerStop] := by
  refine leads_acts fun s r hinv _ => ⟨fun hguarded hpopulated => ?_, .of_log rfl, trivial⟩
  simpa using hinv hguarded hpopulated

theorem harmless_dockerRm (caller : Caller) : Harmless [dockerRm caller] :=
  leads_acts fun _ _ _ _ => ⟨fun _ _ => .inr (.inr rfl), .of_log rfl, trivial⟩

theorem harmless_removeContainer (caller : Caller) : Harmless (removeContainer caller) :=
  (harmless_containerExists caller).cons
    (.incl (((harmless_dockerStop).cons (harmless_dockerRm caller)).pre fun _ _ _ => trivial)
      fun _ _ _ _ => trivial)

theorem harmless_dockerPull : Harmless [dockerPull] :=
  leads_acts fun _ _ hinv _ => ⟨hinv, .of_log rfl, trivial⟩

theorem harmless_dockerRun : Harmless dockerRun :=
  (harmless_gate _).cons (leads_acts fun _ _ _ _ => ⟨fun _ _ => .inr (.inl rfl),
    .of_event rfl fun _ hc => (nomatch hc), trivial⟩)

theorem harmless_runPortal : Harmless runPortal :=
  (harmless_removeContainer .run).append harmless_dockerRun

theorem harmless_dbMigrate : Harmless [dbMigrate] := by
  apply leads_tries
  · exact fun _ _ hinv _ => ⟨hinv, .of_event rfl fun c hc => (nomatch hc), trivial⟩
  · exact fun _ _ hinv _ => ⟨hinv, .of_event rfl fun c hc => (nomatch hc)⟩

theorem harmless_command : Harmless [command] := leads_command

theorem harmless_run : Harmless Cstacks.run := harmless_source.append harmless_runPortal

theorem harmless_stop : Harmless Cstacks.stop :=
  harmless_source.append ((harmless_facts _).cons
    (.incl (harmless_dockerStop.pre fun _ _ _ => trivial) fun _ _ _ _ => trivial))

theorem harmless_migrate : Harmless Cstacks.migrate := harmless_source.append harmless_dbMigrate

theorem harmless_upgrade : Harmless Cstacks.upgrade :=
  (((harmless_source.append (harmless_command.cons (harmless_command.cons
    harmless_dockerPull))).append (harmless_removeContainer .upgrade)).append
      harmless_dbMigrate).append harmless_runPortal

theorem harmless_seed (dryRun : Bool) : Harmless (Cstacks.seed dryRun) := by
  refine harmless_source.append (harmless_command.cons ?_)
  cases dryRun with
  | true => exact leads_acts fun _ _ hinv _ => ⟨hinv, .of_log rfl, trivial⟩
  | false =>
    refine leads_acts fun s r hinv _ => ⟨fun hguarded _ => ?_, .of_event (e := .seeded) ?_ ?_,
      trivial⟩
    · obtain ⟨-, hearly⟩ := guarded_slip.mp hguarded
      have hshows : s.machine.sentinel = true ∨ s.machine.container.isSome = true := by
        by_contra hneither
        have hslip : Slip.earlySeed.ofGuard = false := by
          apply hearly
          simpa [Option.isNone_iff_eq_none] using hneither
        cases hslip
      rcases hshows with hsentinel | hsome
      · exact .inl ((Machine.sentinel_slip _ _ _).trans hsentinel)
      · exact .inr (.inl ((congrArg _ (Machine.container_slip _ _ _)).trans hsome))
    · exact congrArg _ (Machine.log_slip _ _ _)
    · exact fun c hc => (nomatch hc)

/-! ## The schema load -/

def Settled (s : Host) : Prop := s.machine.Guarded → s.machine.sentinel = false →
  s.machine.history.replacing = false

/-- The guard has let `bootstrap-db` through. -/
def Vacant (s : Host) : Prop := s.machine.Guarded →
  s.machine.sentinel = false ∧ s.machine.populated = false

theorem obeys_bootstrapDb : Obeys Settled Cstacks.bootstrapDb fun _ => True := by
  have hsource : Obeys Settled source Settled :=
    (leads_gate fun _ _ hs _ => hs).cons (leads_notes fun _ _ hinv hs =>
      ⟨hinv, .of_log rfl, hs⟩)
  have hgate : Obeys Settled [gate fun s => !s.machine.sentinel]
      (fun s => Settled s ∧ s.machine.sentinel = false) :=
    leads_gate fun _ _ hs hnot => ⟨hs, by simpa using hnot⟩
  have hexists : Obeys (fun s => Settled s ∧ s.machine.sentinel = false)
      [containerExists .bootstrapDb]
      (fun s => s.facts.found = false → Vacant s) := by
    refine leads_notes fun s r hinv hs => ⟨?_, .of_log ?_, fun hfound hguarded => ?_⟩
    · exact fun hguarded => shown_slip.mpr (hinv (guarded_slip.mp hguarded).1)
    · exact Machine.log_slip _ _ _
    · obtain ⟨hguarded, hblind⟩ := guarded_slip.mp hguarded
      have hreplacing : s.machine.history.replacing = false := hs.1 hguarded hs.2
      have hcontainer : s.machine.container.isSome = false := by
        cases hsome : s.machine.container.isSome with
        | false => rfl
        | true =>
          have hanswered : decide (r.outcome = .ok) = false := by
            simpa only [hsome, Bool.and_true] using hfound
          have hslip : Slip.bootstrapBlind.ofGuard = false := by
            apply hblind
            rw [hsome, hanswered]
            rfl
          cases hslip
      have hpopulated : s.machine.populated = false := by
        by_contra hpopulated
        rcases hinv hguarded (by simpa using hpopulated) with h | h | h
        · rw [hs.2] at h
          cases h
        · rw [hcontainer] at h
          cases h
        · rw [hreplacing] at h
          cases h
      exact ⟨(Machine.sentinel_slip _ _ _).trans hs.2,
        (Machine.populated_slip _ _ _).trans (by simpa using hpopulated)⟩
  have hfound : Obeys (fun s => s.facts.found = false → Vacant s) [gate fun s => !s.facts.found]
      Vacant := leads_gate fun _ _ hs hnot => hs (by simpa using hnot)
  have hpull : Obeys Vacant [dockerPull] Vacant :=
    leads_acts fun _ _ hinv hs => ⟨hinv, .of_log rfl, hs⟩
  have hload : Obeys Vacant [schemaLoad] Vacant := by
    apply leads_tries
    · exact fun s _ hinv hs => ⟨hinv, fun _ _ hguarded => (hs hguarded).2, hs⟩
    · exact fun s _ hinv hs => ⟨hinv, fun _ _ hguarded => (hs hguarded).2⟩
  have hsentinel : Obeys Vacant
      [acts fun _ s => { s with machine := { s.machine with sentinel := true } }] fun _ => True :=
    leads_acts fun _ _ _ _ => ⟨fun _ _ => .inl rfl, .of_log rfl, trivial⟩
  exact hsource.append (hgate.cons (hexists.cons (hfound.cons (hpull.cons (hload.cons
    (leads_command.cons hsentinel))))))

/-! ## All sequences of subcommands -/

theorem settled_boot (c : Subcommand) (s : Host) : Settled (c.boot s) := by
  intro hguarded hsentinel
  obtain ⟨-, hlost⟩ := guarded_slip.mp hguarded
  rw [Subcommand.boot, Machine.sentinel_slip] at hsentinel
  rw [Subcommand.boot, Machine.replacing_slip]
  cases hreplacing : s.machine.history.replacing with
  | false => rfl
  | true =>
    have hslip : Slip.containerLost.ofGuard = false := by
      apply hlost
      rw [hreplacing, hsentinel]
      rfl
    cases hslip

theorem subcommands_keep : Subcommand.system.Keeps
    (Contract.alone Held LoadsEmpty LoadsEmpty.refl) where
  boot_inv _ _ h := fun hguarded => shown_slip.mpr (h (guarded_slip.mp hguarded).1)
  boot_safe c s _ := by
    have hany : ∀ items, Harmless items →
        Safe (Contract.alone Held LoadsEmpty LoadsEmpty.refl) (c.boot s) [⟨items, none⟩] :=
      fun items h => h.safe trivial
    cases c with
    | run => exact hany _ harmless_run
    | stop => exact hany _ harmless_stop
    | migrate => exact hany _ harmless_migrate
    | upgrade => exact hany _ harmless_upgrade
    | seed dryRun => exact hany _ (harmless_seed dryRun)
    | bootstrapDb => exact obeys_bootstrapDb.safe (settled_boot .bootstrapDb s)
  outside_rely e _ := e.elim

/-- A controller before the first subcommand: greenfield, or attached with a
portal over a database in use and no sentinel. -/
inductive Origin where
  | greenfield
  | attached (portal : Container)
deriving DecidableEq, Repr

def Origin.machine (origin : Origin) (envFile : Text) (images : Text → Option ℕ) : Machine :=
  match origin with
  | .greenfield => { envFile := some envFile, images := images }
  | .attached portal =>
    { envFile := some envFile
      images := images
      container := some portal
      schema := some portal.content
      populated := true }

abbrev Step := Play.Move Reply Subcommand Empty

def Origin.world (origin : Origin) (envFile : Text) (images : Text → Option ℕ) :
    World Host Reply :=
  ⟨{ machine := origin.machine envFile images }, []⟩

def used (origin : Origin) (envFile : Text) (images : Text → Option ℕ) (steps : List Step) :
    Machine :=
  (Subcommand.system.run steps (origin.world envFile images)).state.machine

theorem good_origin (origin : Origin) (envFile : Text) (images : Text → Option ℕ) :
    System.Good (Contract.alone Held LoadsEmpty LoadsEmpty.refl)
      (origin.world envFile images) := by
  refine ⟨fun _ hpopulated => ?_, safe_nil _⟩
  cases origin with
  | greenfield => cases hpopulated
  | attached portal => exact .inr (.inl rfl)

/-- As long as both signs of a database in use are kept, the schema is loaded
only over no application data. -/
theorem schema_load_on_empty (origin : Origin) (envFile : Text) (images : Text → Option ℕ)
    (steps : List Step) (m : Step)
    (hguarded : (used origin envFile images (steps ++ [m])).Guarded) (c : ℕ)
    (hload : Emits (used origin envFile images steps) (used origin envFile images (steps ++ [m]))
      (.schemaLoad c)) :
    (used origin envFile images steps).populated = false := by
  have hchange := (System.change_run subcommands_keep (good_origin origin envFile images)
    steps m).2
  rw [used] at hguarded ⊢
  rw [used, used] at hload
  generalize (Subcommand.system.run (steps ++ [m]) _).state = s' at hchange hguarded hload
  cases hchange with
  | same => exact LoadsEmpty.refl _ c hload hguarded
  | boot b => exact LoadsEmpty.of_log (Machine.log_slip _ _ _) c hload hguarded
  | play hstep => exact hstep.2 c hload hguarded
  | outside e => exact e.elim

instance (m : Machine) : Decidable m.Guarded :=
  inferInstanceAs (Decidable (∀ s ∈ m.history.slips, s.ofGuard = false))

def done (k : ℕ) : List Step := List.replicate k (.tick {})

def noImages (_ : Text) : Option ℕ := none

def release : Text := "portal:9.7"

def greenfield (steps : List Step) : Machine := used .greenfield release noImages steps

def attached (steps : List Step) : Machine :=
  used (.attached ⟨release, 0, true⟩) release noImages steps

/-- An upgrade and a first `bootstrap-db` are cut, the second of them right
before its load. -/
def loadCut : List Step :=
  .start .upgrade :: done 5 ++ [.interrupt, .start .bootstrapDb] ++ done 6 ++
    [.interrupt, .start .bootstrapDb] ++ done 6

theorem load_on_empty_after_cut : (greenfield loadCut).populated = false :=
  schema_load_on_empty .greenfield release noImages loadCut (.tick {})
    (by decide) 0 (by decide)

/-- On an attached controller an upgrade is cut after it has removed the portal;
there is no sentinel, and `bootstrap-db` is let through. -/
def attachedUpgradeCut : List Step :=
  .start .upgrade :: done 9 ++ [.interrupt, .start .bootstrapDb] ++ done 6

theorem schema_load_on_populated :
    Emits (attached attachedUpgradeCut) (attached (attachedUpgradeCut ++ [.tick {}]))
      (.schemaLoad 0) ∧ (attached attachedUpgradeCut).populated = true := by
  decide

end Provisioner.Controller
