import Mathlib.Logic.Function.Basic
import Provisioner.Library.Play

/-!
# Fleets of systems

Many hosts go through their runs at once, each at its own pace: a fleet is
moved one host at a time, in any order. What a host goes through is a run of
its own.
-/

namespace Provisioner.Play.System

variable {ι σ ρ β ε : Type} [DecidableEq ι] (S : System σ ρ β ε)

def fleetStep (worlds : ι → World σ ρ) (m : ι × Move ρ β ε) : ι → World σ ρ :=
  Function.update worlds m.1 (S.step (worlds m.1) m.2)

def fleetRun (moves : List (ι × Move ρ β ε)) (worlds : ι → World σ ρ) : ι → World σ ρ :=
  moves.foldl S.fleetStep worlds

def movesOf (i : ι) (moves : List (ι × Move ρ β ε)) : List (Move ρ β ε) :=
  moves.filterMap fun m => if m.1 = i then some m.2 else none

variable {S}

theorem fleetRun_apply (moves : List (ι × Move ρ β ε)) (worlds : ι → World σ ρ) (i : ι) :
    S.fleetRun moves worlds i = S.run (movesOf i moves) (worlds i) := by
  induction moves generalizing worlds with
  | nil => rfl
  | cons m moves ih =>
    rw [fleetRun, List.foldl_cons]
    refine (ih (S.fleetStep worlds m)).trans ?_
    rw [movesOf, movesOf, List.filterMap_cons, fleetStep]
    by_cases hi : m.1 = i
    · subst hi
      rw [if_pos rfl, Function.update_self]
      rfl
    · rw [if_neg hi, Function.update_of_ne (Ne.symm hi)]

end Provisioner.Play.System
