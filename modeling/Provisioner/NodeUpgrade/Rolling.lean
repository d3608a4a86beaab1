import Provisioner.Library.Rollout
import Provisioner.NodeUpgrade.Reach

/-!
# One node after another

`upgrade-docker.yml` and `maintain-nodes.yml` take their nodes one at a time,
and check each before the next: what a run that fails, or is cut, leaves
behind on the nodes.
-/

namespace Provisioner.NodeUpgrade

open Tasks

/-- A node's batch: its run, and then as many checks as `roles/validate` has. -/
def batch (vars : Vars) : List Item := play vars ++ [retries fun _ s => s]

def batches : Play.System Host Reply Vars Outside := { system with play := batch }

/-! ## A run that comes to its end -/

def RunIfResumed (s : Host) : Prop := s.facts.resume = true → s.facts.run = true

instance : Lasting RunIfResumed := lasting_of_outside fun _ _ _ hs => hs

theorem runs_main : Play.Triple contract (Booted .upgradeDocker) main NoFile fun _ => True := by
  have hpending : Runs (Loaded .upgradeDocker)
      [reads fun _ s => { s.facts with rebootPending := s.node.rebootRequired }]
      (Loaded .upgradeDocker) :=
    runs_reads fun _ _ _ hs => hs.reads ⟨rfl, rfl, rfl⟩ rfl rfl
  have hrun : Runs (Loaded .upgradeDocker)
      [reads fun _ s => { s.facts with
        run := !s.facts.driftList.isEmpty || s.facts.rebootPending || s.facts.resume ||
          s.facts.vars.force }] fun s => Loaded .upgradeDocker s ∧ RunIfResumed s := by
    refine runs_reads fun _ _ _ hs => ⟨hs.reads ⟨rfl, rfl, rfl⟩ rfl rfl, fun hresume => ?_⟩
    simp only at hresume ⊢
    rw [hresume, Bool.or_true, Bool.true_or]
  have hcycle : Runs (fun s => Loaded .upgradeDocker s ∧ RunIfResumed s)
      [.incl (fun s => s.facts.run) [cycle]] NoFile := by
    apply Play.Triple.incl
    · exact runs_cycle.pre fun _ _ hs => hs.1.1
    · rintro s - ⟨hloaded, hrun⟩ hskip
      rcases hloaded with hfresh | ⟨-, hresume⟩
      · exact hfresh.file
      · rw [hrun hresume] at hskip
        cases hskip
  exact runs_preflight.append (runs_freely (hpending.cons (hrun.cons hcycle)))

theorem runs_maintain :
    Play.Triple contract (Booted .maintainNodes) maintain NoFile fun _ => True :=
  runs_preflight.append (runs_freely (runs_command.cons runs_maintainCycle))

theorem runs_batch (vars : Vars) :
    Play.Triple contract (Booted vars.playbook) (batch vars) NoFile fun _ => True := by
  have hvalidate : Runs NoFile [retries fun _ s => s] NoFile :=
    runs_retries fun _ _ _ hs => ⟨.quiet, hs, hs⟩
  refine Play.Triple.append ?_ (runs_freely hvalidate)
  rw [play]
  cases vars.playbook with
  | upgradeDocker => exact runs_main
  | maintainNodes => exact runs_maintain

/-! ## The nodes a run leaves behind -/

theorem Legal.runs {n n' : Node} (h : Legal n n') : n'.history.runs = n.history.runs := by
  cases h with
  | on k number n' hnone hasked hn' => rcases hn' with rfl | rfl <;> rfl
  | converge f n' hf hstarted hdue hn' => rcases hn' with rfl | rfl | ⟨handlers, files, rfl⟩ <;> rfl
  | packages f n' hf hdue hn' => rcases hn' with rfl | rfl | rfl <;> rfl
  | autoOff f n' hf hdone hstarted hn' => rcases hn' with rfl | rfl <;> rfl
  | _ => rfl

/-- A step that is legal only where there is no state file. -/
def fileProbe (s : Host) : Host :=
  if s.node.stateFile.isNone then s
  else { s with node := { s.node with
    history := { s.node.history with runs := s.node.history.runs + 1 } } }

theorem fileProbe_noFile {s : Host} (h : NoFile s) : contract.guar s (fileProbe s) := by
  have hnone : s.node.stateFile.isNone = true := by rw [show s.node.stateFile = none from h]; rfl
  rw [fileProbe, if_pos hnone]
  exact contract.guar_refl s

theorem noFile_of_probe {s : Host} (h : contract.guar s (fileProbe s)) : NoFile s := by
  by_contra hfile
  have hsome : ¬ s.node.stateFile.isNone = true :=
    fun hnone => hfile (Option.isNone_iff_eq_none.mp hnone)
  rw [fileProbe, if_neg hsome] at h
  have hruns : s.node.history.runs + 1 = s.node.history.runs := Legal.runs h.1
  omega

def Unfinished (s : Host) : Prop := s.node.stateFile ≠ none

theorem counts_batches :
    Play.System.Counts batches contract fileProbe Unfinished where
  keeps := {
    boot_inv := system_keeps.boot_inv
    boot_safe := fun vars _ _ => (runs_batch vars).safe ⟨rfl, rfl⟩
    outside_rely := system_keeps.outside_rely }
  probed vars s _ := (runs_batch vars).probed (fun _ => fileProbe_noFile) ⟨rfl, rfl⟩
  ends _ h hunfinished := hunfinished (noFile_of_probe h)
  outside o s h := by cases o <;> exact h

variable {ι : Type} [DecidableEq ι]

def nodes (starts : ι → Start) : Play.Rollout ι Host Reply Vars where
  worlds i := ⟨{ node := (starts i).node }, []⟩

theorem bounded_batches (starts : ι → Start) (moves : List (Play.Rolling ι Reply Vars Outside)) :
    Play.System.Bounded contract fileProbe Unfinished ∅ (moves.countP Play.Rolling.starts)
      (batches.rollout moves (nodes starts)) := by
  have hstart : Play.System.Bounded contract fileProbe Unfinished ∅ 0 (nodes starts) :=
    ⟨∅, Finset.Subset.refl _, ⟨fun i => ⟨(starts i).ok, Play.safe_nil _⟩, fun _ _ => rfl,
      fun _ hnone => (nomatch hnone), fun _ hfile => absurd rfl hfile⟩, Nat.le_refl 0⟩
  have hbounded := Play.System.bounded_rollout counts_batches hstart moves
  rwa [Nat.zero_add] at hbounded

/-- What the runs leave behind on the nodes: from `w` to `w'` at most one more
unfinished node for each run begun in between and one for the run going on. -/
structure LeftBehind (runs : ℕ) (w w' : Play.Rollout ι Host Reply Vars) : Prop where
  more : ∃ more : Finset ι, more.card ≤ Play.System.going w + runs ∧
    ∀ i, Unfinished (w'.worlds i).state → Unfinished (w.worlds i).state ∨ i ∈ more
  ended : ∀ i, w'.current = some i → Play.atEnd (w'.worlds i).stack = true →
    ¬ Unfinished (w'.worlds i).state

/-- Whatever nodes the runs of both playbooks are made on, in whatever order,
and wherever they fail or are cut. -/
theorem unfinished_nodes (starts : ι → Start)
    (moves later : List (Play.Rolling ι Reply Vars Outside)) :
    LeftBehind (later.countP Play.Rolling.starts) (batches.rollout moves (nodes starts))
      (batches.rollout (moves ++ later) (nodes starts)) where
  more := by
    rw [show batches.rollout (moves ++ later) (nodes starts) =
      batches.rollout later (batches.rollout moves (nodes starts)) from List.foldl_append]
    exact (bounded_batches starts moves).more counts_batches later
  ended _ := (bounded_batches starts (moves ++ later)).ended counts_batches {}

end Provisioner.NodeUpgrade
