import Provisioner.Library.Fleet
import Provisioner.Firewall.Recorded

/-!
# Runs of the safe apply

Any number of hosts, any order of their runs' tasks and of their rollbacks'
commands, runs cut anywhere.
-/

namespace Provisioner.Firewall.SafeApply

open Play Setting

variable {R : Type} {T : Tools R}

/-- A host the safe apply has not come to yet, whatever it runs; a unit that is
active there was started from its file. -/
structure Untouched (m : Machine R) : Prop where
  applied : m.applied = none
  appliedSha256 : m.appliedSha256 = none
  adopted : m.adopted = none
  rollbacks : m.rollbacks = []
  overtaken : m.overtaken = false
  unit : m.running = none ∨ m.active = false ∨ m.startedUnit = m.unitFile

def untouched (m : Machine R) : World (Host R) Reply := ⟨{ machine := m }, []⟩

theorem kept_untouched {m : Machine R} (h : Untouched m) : Kept T m.running { machine := m } := by
  have hrest : AtRest m := at_rest_nil h.rollbacks
  refine ⟨⟨⟨fun f hf => ?_, fun d hd => ?_⟩, fun f hf => ?_, .inl ⟨hrest, ?_, ?_⟩⟩, fun _ => ?_⟩
  · rw [h.applied] at hf
    cases hf
  · rw [h.appliedSha256] at hd
    cases hd
  · rw [h.adopted] at hf
    cases hf
  · rw [h.rollbacks]
    exact Nat.zero_le 1
  · exact .inr (.inr (.inr ⟨h.applied, h.adopted, rfl⟩))
  · refine ⟨fun _ d hd => ?_, fun _ _ hd => absurd h.appliedSha256 hd, fun _ _ => h.unit,
      fun _ hnot => absurd hrest hnot, fun htrue => (nomatch htrue)⟩
    rw [h.appliedSha256] at hd
    cases hd

theorem kept_boot {before : Option R} (v : Vars T) {s : Host R} (h : Kept T before s) :
    Kept T before (boot v s) ∧ Start v (boot v s) := by
  have hsame : Same s.machine { s.machine with connection := some v.port } :=
    ⟨rfl, rfl, rfl, rfl, rfl, rfl, rfl, id, .inl rfl⟩
  refine ⟨⟨hsame.sound h.sound, fun hlost => ?_⟩, ⟨rfl, rfl, rfl, rfl, rfl⟩, rfl,
    fun hnone => nomatch hnone⟩
  simp only [boot, Bool.or_eq_false_iff] at hlost
  obtain ⟨⟨hlost, hunit⟩, hrecord⟩ := hlost
  obtain ⟨hsha, hrunning, hstarted, hreload, -⟩ := h.unlost hlost
  exact ⟨fun _ => hsha hrecord, fun _ => hrunning hrecord, fun _ => hstarted hunit,
    fun _ => hreload hunit, fun htrue => (nomatch htrue)⟩

theorem keeps (before : Option R) : (system T).Keeps (setting T before).contract :=
  System.keeps_of_does rfl (fun _ _ hok => hok) (fun v _ _ hkeep => kept_boot v hkeep)
    fun _ => does_play

theorem kept_run {m : Machine R} (h : Untouched m) (moves : List (Move Reply (Vars T) Event))
    (hcalm : ((system T).run moves (untouched m)).state.machine.overtaken = false) :
    Kept T m.running ((system T).run moves (untouched m)).state := by
  have hgood : System.Good (setting T m.running).contract (untouched m) :=
    ⟨fun _ => kept_untouched h, safe_nil _⟩
  exact (System.good_run (keeps m.running) hgood moves).1 hcalm

/-- On any number of hosts, with their runs cut anywhere and their rollbacks
fired at any moment: with no rollback waiting or at work, the running table of
a host is accounted for, and its records are of tables that a fresh connection
came through. No task may have come in the middle of a rollback's script
where it must not. -/
theorem applies_accounted {ι : Type} [DecidableEq ι] (hosts : ι → Machine R)
    (huntouched : ∀ i, Untouched (hosts i)) (moves : List (ι × Move Reply (Vars T) Event)) (i : ι)
    (hcalm : ((system T).fleetRun moves (fun j => untouched (hosts j)) i).state.machine.overtaken =
      false) :
    (AtRest ((system T).fleetRun moves (fun j => untouched (hosts j)) i).state.machine →
      Accounted T (hosts i).running
        ((system T).fleetRun moves (fun j => untouched (hosts j)) i).state.machine) ∧
      Recorded T ((system T).fleetRun moves (fun j => untouched (hosts j)) i).state.machine := by
  rw [System.fleetRun_apply] at hcalm ⊢
  have hkept := kept_run (huntouched i) _ hcalm
  exact ⟨fun hrest => (hkept.sound.accounted hrest).2, hkept.sound.recorded⟩

/-- However the runs before it were cut, a run that comes to its end leaves
the host settled, unless one of them was cut where the next cannot see it. -/
theorem completed_settled {m : Machine R} (huntouched : Untouched m)
    (moves : List (Move Reply (Vars T) Event))
    (hcalm : ((system T).run moves (untouched m)).state.machine.overtaken = false)
    (hlost : ((system T).run moves (untouched m)).state.lost = false)
    (hcompleted : ((system T).run moves (untouched m)).state.facts.completed = true)
    (hpreflighted : ((system T).run moves (untouched m)).state.facts.preflighted = true) :
    Settled T ((system T).run moves (untouched m)).state.machine :=
  ((((kept_run huntouched moves hcalm).unlost hlost).completed hcompleted) hpreflighted).2

/-! ## A host, and runs on it -/

/-- A file that opens with `header` is what is between it and the last newline. -/
def unwrap (header f : Text) : Text :=
  if header.isPrefixOf f then (f.drop header.length).dropLast else f

theorem unwrap_append (a b t k : Text) (c : Char) :
    unwrap (a ++ t ++ b ++ t ++ [c]) (a ++ t ++ b ++ t ++ [c] ++ k ++ [c]) = k := by
  rw [unwrap, List.append_assoc _ k, if_pos (List.isPrefixOf_iff_prefix.mpr (List.prefix_append _ _)),
    List.drop_left, List.dropLast_concat]

theorem unwrap_adopted (firewallTable listing : Text) :
    unwrap (("table inet " : Text) ++ firewallTable ++ ("\ndelete table inet " : Text) ++
      firewallTable ++ ("\n" : Text)) (adoptedContent firewallTable listing) = listing := by
  have hend : ['\n'] = ("\n" : Text) := by decide
  have h := unwrap_append ("table inet " : Text) ("\ndelete table inet " : Text) firewallTable
    listing '\n'
  rw [hend] at h
  exact h

/-- A table is known by the text of its file. -/
def tools : Tools Text where
  firewallTable := "cs_static"
  load f := some (unwrap (("table inet " : Text) ++ ("cs_static" : Text) ++
    ("\ndelete table inet " : Text) ++ ("cs_static" : Text) ++ ("\n" : Text)) f)
  list k := k
  sha256 f := 'x' :: f
  rendered f := f ≠ []
  load_adopted k := congrArg some (unwrap_adopted _ k)
  rendered_ne _ h := h
  sha256_ne _ := fun h => nomatch h
  sha256_inj _ _ _ _ h := (List.cons.inj h).2

def vars (unit : Text) : Vars tools where
  table := "table inet cs_static { }"
  unit := unit
  port := "50001"
  rendered := fun h => absurd h (by decide)

abbrev Moves := List (Move Reply (Vars tools) Event)

def tasks (n : ℕ) : Moves :=
  List.replicate n (.tick { unit := "cs-firewall-rollback-1", port := "50002" })

def commands (n : ℕ) : Moves :=
  List.replicate n (.outside (.script "cs-firewall-rollback-1"))

theorem untouched_default : Untouched ({} : Machine Text) :=
  ⟨rfl, rfl, rfl, rfl, rfl, .inl rfl⟩

/-- The first apply on two hosts, at once: one is proven and recorded, the
rollback of the other fires before its apply and runs to its end. -/
def twoHosts : List (Bool × Move Reply (Vars tools) Event) :=
  ((.start (vars "unit 1") :: tasks 24).flatMap fun m => [(true, m), (false, m)]) ++
    ((.outside (.elapse "cs-firewall-rollback-1") :: commands 5) ++ tasks 25).map (false, ·) ++
    (tasks 25).map (true, ·)

theorem applies_accounted_two_hosts :
    (AtRest ((system tools).fleetRun twoHosts (fun _ => untouched {}) true).state.machine →
      Accounted tools none
        ((system tools).fleetRun twoHosts (fun _ => untouched {}) true).state.machine) ∧
      Recorded tools
        ((system tools).fleetRun twoHosts (fun _ => untouched {}) true).state.machine :=
  applies_accounted (fun _ => {}) (fun _ => untouched_default) twoHosts true
    (by rw [System.fleetRun_apply]; decide)

/-- The rollback of a first apply fires just before the apply, and the restart
comes between its deleting the table and its moving the file away. -/
def overtaking : Moves :=
  .start (vars "unit 1") :: tasks 24 ++ [.outside (.elapse "cs-firewall-rollback-1")] ++
    commands 3 ++ tasks 1 ++ commands 2 ++ [.interrupt]

/-- The new table stays, and nobody has come through it. -/
theorem rollback_overtaken : ¬ ∀ moves : Moves,
    AtRest ((system tools).run moves (untouched {})).state.machine →
      Accounted tools none ((system tools).run moves (untouched {})).state.machine := by
  intro h
  have hend : AtRest ((system tools).run overtaking (untouched {})).state.machine ∧
      ((system tools).run overtaking (untouched {})).state.machine.fresh = false ∧
      ((system tools).run overtaking (untouched {})).state.machine.applied = none ∧
      ((system tools).run overtaking (untouched {})).state.machine.adopted = none ∧
      ((system tools).run overtaking (untouched {})).state.machine.running ≠ none := by decide
  obtain ⟨hrest, hfresh, happlied, hadopted, hrunning⟩ := hend
  rcases h overtaking hrest with ⟨-, hf⟩ | ⟨f, k, hf, -⟩ | ⟨-, f, k, hf, -⟩ | ⟨-, -, hnone⟩
  · rw [hfresh] at hf
    cases hf
  · rw [happlied] at hf
    cases hf
  · rw [hadopted] at hf
    cases hf
  · exact hrunning hnone

def firstRun : Moves := .start (vars "unit 1") :: tasks 50

def otherTable : Vars tools where
  table := "table inet cs_static { new }"
  unit := "unit 1"
  port := "50001"
  rendered := fun h => absurd h (by decide)

/-- A run with another table is cut, and the one after it comes to its end. -/
def cutThenCompleted : Moves :=
  firstRun ++ .start otherTable :: tasks 20 ++ .interrupt :: .start otherTable :: tasks 50

set_option maxRecDepth 4000 in
theorem completed_settled_after_cut :
    Settled tools ((system tools).run cutThenCompleted (untouched {})).state.machine :=
  completed_settled untouched_default cutThenCompleted (by decide) (by decide) (by decide)
    (by decide)

/-- A second run is cut once it has written another unit, and a third one comes
to its end. -/
def cutAtUnit : Moves :=
  firstRun ++ .start (vars "unit 2") :: tasks 11 ++ .interrupt :: .start (vars "unit 2") :: tasks 18

set_option maxRecDepth 2000 in
/-- The unit that is started is not the one on disk. -/
theorem unit_change_lost : ¬ ∀ moves : Moves,
    ((system tools).run moves (untouched {})).state.facts.completed = true →
      ((system tools).run moves (untouched {})).state.facts.preflighted = true →
        Settled tools ((system tools).run moves (untouched {})).state.machine := by
  intro h
  have hend : ((system tools).run cutAtUnit (untouched {})).state.facts.completed = true ∧
      ((system tools).run cutAtUnit (untouched {})).state.facts.preflighted = true ∧
      ((system tools).run cutAtUnit (untouched {})).state.machine.unitFile ≠
        ((system tools).run cutAtUnit (untouched {})).state.machine.startedUnit := by decide
  obtain ⟨hcompleted, hpreflighted, hother⟩ := hend
  obtain ⟨f, k, u, -, -, -, -, hfile, -, hstarted, -⟩ := h cutAtUnit hcompleted hpreflighted
  exact hother (hfile.trans hstarted.symm)

end Provisioner.Firewall.SafeApply
