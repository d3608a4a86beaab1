import Mathlib.Data.List.Basic
import Mathlib.Data.List.Nodup

/-!
# Plans that converge from any cut

A plan lists the goals that are not met yet. When each goal's action meets it
and leaves the other goals as they were, a plan that was cut short anywhere is
continued by planning again.
-/

namespace Provisioner.Converge

variable {σ γ : Type}

def todo (met : γ → σ → Bool) (goals : List γ) (s : σ) : List γ := goals.filter fun g => !met g s

def runAll (run : γ → σ → σ) (gs : List γ) (s : σ) : σ := gs.foldl (fun s g => run g s) s

/-- Each action meets its own goal and no action touches another goal. -/
structure Independent (met : γ → σ → Bool) (run : γ → σ → σ) (goals : List γ) (Inv : σ → Prop) :
    Prop where
  nodup : goals.Nodup
  inv : ∀ s, Inv s → ∀ g ∈ goals, Inv (run g s)
  met_run : ∀ s, Inv s → ∀ g ∈ goals, met g (run g s) = true
  frame : ∀ s, Inv s → ∀ g ∈ goals, ∀ h ∈ goals, h ≠ g → met h (run g s) = met h s

variable {met : γ → σ → Bool} {run : γ → σ → σ} {goals : List γ} {Inv : σ → Prop}

theorem runAll_append (gs hs : List γ) (s : σ) :
    runAll run (gs ++ hs) s = runAll run hs (runAll run gs s) :=
  List.foldl_append

theorem inv_runAll (h : Independent met run goals Inv) {gs : List γ} (hgs : ∀ g ∈ gs, g ∈ goals)
    {s : σ} (hs : Inv s) : Inv (runAll run gs s) := by
  induction gs generalizing s with
  | nil => exact hs
  | cons g gs ih =>
    rw [List.forall_mem_cons] at hgs
    exact ih hgs.2 (h.inv s hs g hgs.1)

theorem met_runAll (h : Independent met run goals Inv) {gs : List γ} (hgs : ∀ g ∈ gs, g ∈ goals)
    {s : σ} (hs : Inv s) {k : γ} (hk : k ∈ goals) :
    met k (runAll run gs s) = true ↔ k ∈ gs ∨ met k s = true := by
  induction gs generalizing s with
  | nil => simp [runAll]
  | cons g gs ih =>
    rw [List.forall_mem_cons] at hgs
    have hrest := ih hgs.2 (h.inv s hs g hgs.1)
    rw [show runAll run (g :: gs) s = runAll run gs (run g s) from rfl, hrest, List.mem_cons]
    by_cases hkg : k = g
    · subst hkg
      simp [h.met_run s hs k hk]
    · rw [h.frame s hs g hgs.1 k hk hkg]
      simp [hkg]

theorem filter_not_mem_take {l : List γ} [DecidableEq γ] (hnodup : l.Nodup) (k : ℕ) :
    l.filter (fun g => g ∉ l.take k) = l.drop k := by
  conv_lhs => rw [← List.take_append_drop k l]
  rw [List.filter_append, List.take_append_drop, List.filter_eq_nil_iff.mpr, List.nil_append,
    List.filter_eq_self.mpr]
  · intro g hg
    have hdisjoint := List.disjoint_take_drop hnodup (Nat.le_refl k)
    exact decide_eq_true fun htake => hdisjoint htake hg
  · intro g hg
    simpa using hg

/-- After any cut of the plan, what is left to do is the rest of the plan. -/
theorem todo_runAll_take [DecidableEq γ] (h : Independent met run goals Inv) {s : σ} (hs : Inv s)
    (k : ℕ) :
    todo met goals (runAll run ((todo met goals s).take k) s) = (todo met goals s).drop k := by
  have hsub : ∀ g ∈ (todo met goals s).take k, g ∈ goals := fun g hg =>
    List.mem_of_mem_filter (List.mem_of_mem_take hg)
  have hnodup : (todo met goals s).Nodup := h.nodup.filter _
  rw [← filter_not_mem_take hnodup k]
  conv_rhs => rw [todo, List.filter_filter]
  refine List.filter_congr fun g hg => ?_
  rw [Bool.eq_iff_iff, Bool.not_eq_true', ← Bool.not_eq_true, met_runAll h hsub hs hg, not_or]
  simp [todo]

/-- A plan that lists the open goals in every state it may meet resumes. -/
theorem replan [DecidableEq γ] (h : Independent met run goals Inv) {plan : σ → List γ}
    (hplan : ∀ s, Inv s → plan s = todo met goals s) {s : σ} (hs : Inv s) (k : ℕ) :
    plan (runAll run ((plan s).take k) s) = (plan s).drop k := by
  have hcut : Inv (runAll run ((todo met goals s).take k) s) :=
    inv_runAll h (fun g hg => List.mem_of_mem_filter (List.mem_of_mem_take hg)) hs
  rw [hplan s hs, hplan _ hcut, todo_runAll_take h hs]

theorem replan_runAll [DecidableEq γ] (h : Independent met run goals Inv) {plan : σ → List γ}
    (hplan : ∀ s, Inv s → plan s = todo met goals s) {s : σ} (hs : Inv s) (k : ℕ) :
    runAll run (plan (runAll run ((plan s).take k) s)) (runAll run ((plan s).take k) s) =
      runAll run (plan s) s := by
  rw [replan h hplan hs, ← runAll_append, List.take_append_drop]

theorem met_of_runAll (h : Independent met run goals Inv) {s : σ} (hs : Inv s) {g : γ}
    (hg : g ∈ goals) : met g (runAll run (todo met goals s) s) = true := by
  refine (met_runAll h (fun g hg => List.mem_of_mem_filter hg) hs hg).mpr ?_
  cases hmet : met g s with
  | true => exact .inr rfl
  | false => exact .inl (List.mem_filter.mpr ⟨hg, by rw [hmet]; rfl⟩)

end Provisioner.Converge
