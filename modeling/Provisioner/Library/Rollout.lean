import Mathlib.Data.Finset.Card
import Mathlib.Logic.Function.Basic
import Provisioner.Library.Play

/-!
# Rollouts

One host after another, each with a play of its own: the next one is begun once
the one before it has come to its end, and the first failure ends the run for
all. What a play leads to when it comes to its end is read off a probe behind
its last task.
-/

namespace Provisioner.Play

variable {σ ρ : Type}

/-! ## Where a play gets to its end -/

def probe (f : σ → σ) : Item σ ρ := .task fun _ s => (f s, .ok)

def Probed (C : Contract σ) (f : σ → σ) (s : σ) (stack : Stack σ ρ) : Prop :=
  ∃ upper todo, stack = upper ++ [⟨todo, none⟩] ∧ Safe C s (upper ++ [⟨todo ++ [probe f], none⟩])

variable {C : Contract σ} {f : σ → σ} {s s' : σ} {stack : Stack σ ρ}

/-- A failure goes up to the same rescue, whatever is to do at the bottom. -/
theorem fail_bottom (upper : Stack σ ρ) (todo todo' : List (Item σ ρ)) :
    (fail (upper ++ [⟨todo, none⟩]) = [] ∧ fail (upper ++ [⟨todo', none⟩]) = []) ∨
      ∃ rest, fail (upper ++ [⟨todo, none⟩]) = rest ++ [⟨todo, none⟩] ∧
        fail (upper ++ [⟨todo', none⟩]) = rest ++ [⟨todo', none⟩] := by
  induction upper with
  | nil => exact .inl ⟨rfl, rfl⟩
  | cons frame upper ih =>
    obtain ⟨items, rescue⟩ := frame
    cases rescue with
    | none => exact ih
    | some rescue => exact .inr ⟨⟨rescue, none⟩ :: upper, rfl, rfl⟩

theorem Probed.tick (h : Probed C f s stack) (hinv : C.inv s) (hopen : stack ≠ [⟨[], none⟩])
    (r : ρ) :
    (tick r s stack).2 = [] ∨ Probed C f (tick r s stack).1 (tick r s stack).2 := by
  obtain ⟨upper, todo, rfl, hsafe⟩ := h
  have hnext := hsafe.tick hinv r
  cases upper with
  | nil =>
    cases todo with
    | nil => exact absurd rfl hopen
    | cons item todo =>
      cases item with
      | task run =>
        simp only [List.nil_append, List.cons_append, Play.tick] at hnext ⊢
        rcases hrun : run r s with ⟨t, _ | _ | _⟩ <;> simp only [hrun] at hnext ⊢
        · exact .inr ⟨[], todo, rfl, hnext⟩
        · exact .inr ⟨[], .task run :: todo, rfl, hnext⟩
        · exact .inl rfl
      | incl cond body =>
        simp only [List.nil_append, List.cons_append, Play.tick, ← List.append_assoc] at hnext ⊢
        exact .inr ⟨[], _, rfl, hnext⟩
      | block body rescue => exact .inr ⟨[⟨body, some rescue⟩], todo, rfl, hnext⟩
  | cons frame upper =>
    obtain ⟨items, onFailure⟩ := frame
    cases items with
    | nil => exact .inr ⟨upper, todo, rfl, hnext⟩
    | cons item items =>
      cases item with
      | task run =>
        simp only [List.cons_append, Play.tick] at hnext ⊢
        rcases hrun : run r s with ⟨t, _ | _ | _⟩ <;> simp only [hrun] at hnext ⊢
        · exact .inr ⟨⟨items, onFailure⟩ :: upper, todo, rfl, hnext⟩
        · exact .inr ⟨⟨.task run :: items, onFailure⟩ :: upper, todo, rfl, hnext⟩
        · rcases fail_bottom (⟨items, onFailure⟩ :: upper) todo (todo ++ [probe f]) with
            ⟨hfail, -⟩ | ⟨rest, hfail, hfail'⟩
          · exact .inl hfail
          · rw [List.cons_append] at hfail hfail'
            rw [hfail'] at hnext
            exact .inr ⟨rest, todo, hfail, hnext⟩
      | incl cond body =>
        exact .inr ⟨⟨(if cond s then body else []) ++ items, onFailure⟩ :: upper, todo, rfl, hnext⟩
      | block body rescue =>
        exact .inr ⟨⟨body, some rescue⟩ :: ⟨items, onFailure⟩ :: upper, todo, rfl, hnext⟩

theorem Probed.rely (h : Probed C f s stack) (hinv : C.inv s) (hrely : C.rely s s') :
    Probed C f s' stack := by
  obtain ⟨upper, todo, rfl, hsafe⟩ := h
  exact ⟨upper, todo, rfl, hsafe.rely hinv hrely⟩

theorem Probed.ends (h : Probed C f s ([⟨[], none⟩] : Stack σ ρ)) (hinv : C.inv s) (r : ρ) :
    C.guar s (f s) := by
  obtain ⟨upper, todo, heq, hsafe⟩ := h
  cases upper with
  | nil =>
    have htodo : [] = todo := congrArg Frame.todo (List.singleton_inj.mp heq)
    subst htodo
    exact hsafe.guar hinv r
  | cons frame upper => simp at heq

theorem Triple.probed {P Q F : σ → Prop} {items : List (Item σ ρ)} [Stable C Q]
    (h : Triple C P items Q F) (hQ : ∀ s, Q s → C.guar s (f s)) (hs : P s) :
    Probed C f s [⟨items, none⟩] := by
  refine ⟨[], items, rfl, h [probe f] none [] (fun t ht => ?_) (fun t _ => safe_nil t) s hs⟩
  have hend : ∀ t, Safe C t ([⟨[], none⟩] : Stack σ ρ) := fun t =>
    safe_of_step (P := fun _ => True) (fun t r _ _ => ⟨C.guar_refl t, .inr (safe_nil t)⟩) trivial
  exact safe_of_step (P := Q) (fun t r _ ht => ⟨hQ t ht, .inr (hend _)⟩) ht

/-! ## One host after another -/

variable {ι β ε : Type} [DecidableEq ι]

structure Rollout (ι σ ρ β : Type) where
  worlds : ι → World σ ρ
  current : Option ι := none
  todo : List (ι × β) := []

inductive Rolling (ι ρ β ε : Type) where
  | start (targets : List (ι × β))
  | tick (r : ρ)
  | interrupt
  | outside (i : ι) (e : ε)

def Rolling.starts : Rolling ι ρ β ε → Bool
  | .start _ => true
  | _ => false

def atEnd : Stack σ ρ → Bool
  | [⟨[], none⟩] => true
  | _ => false

theorem atEnd_iff : atEnd stack = true ↔ stack = [⟨[], none⟩] := by
  constructor
  · intro h
    unfold atEnd at h
    split at h
    · rfl
    · cases h
  · rintro rfl
    rfl

namespace System

variable (S : System σ ρ β ε)

def roll (w : Rollout ι σ ρ β) : Rolling ι ρ β ε → Rollout ι σ ρ β
  | .start targets =>
    match w.current, w.todo with
    | none, [] => { w with todo := targets }
    | _, _ => w
  | .tick r =>
    match w.current, w.todo with
    | none, [] => w
    | none, (i, b) :: rest =>
      { worlds := Function.update w.worlds i (S.step (w.worlds i) (.start b))
        current := some i
        todo := rest }
    | some i, todo =>
      let next := S.step (w.worlds i) (.tick r)
      { worlds := Function.update w.worlds i next
        current := if next.stack.isEmpty then none else some i
        -- the first failure ends the run for every host
        todo := if next.stack.isEmpty && !atEnd (w.worlds i).stack then [] else todo }
  | .interrupt =>
    match w.current with
    | none => { w with todo := [] }
    | some i =>
      { worlds := Function.update w.worlds i (S.step (w.worlds i) .interrupt) }
  | .outside i e =>
    { w with worlds := Function.update w.worlds i (S.step (w.worlds i) (.outside e)) }

def rollout (moves : List (Rolling ι ρ β ε)) (w : Rollout ι σ ρ β) : Rollout ι σ ρ β :=
  moves.foldl S.roll w

variable {S} {w : Rollout ι σ ρ β}

def going (w : Rollout ι σ ρ β) : ℕ := if w.current.isNone && w.todo.isEmpty then 0 else 1

omit [DecidableEq ι] in
theorem going_le (w : Rollout ι σ ρ β) : going w ≤ 1 := by
  rw [going]
  split <;> decide

/-- The hosts on which something is left undone: those of `hosts`, and maybe
the one whose play is going on. -/
structure Left (C : Contract σ) (f : σ → σ) (undone : σ → Prop) (hosts : Finset ι)
    (w : Rollout ι σ ρ β) : Prop where
  good : ∀ i, Good C (w.worlds i)
  idle : ∀ i, w.current ≠ some i → (w.worlds i).stack = []
  probed : ∀ i, w.current = some i → Probed C f (w.worlds i).state (w.worlds i).stack
  undone : ∀ i, undone (w.worlds i).state → i ∈ hosts ∨ w.current = some i

structure Counts (S : System σ ρ β ε) (C : Contract σ) (f : σ → σ) (undone : σ → Prop) : Prop where
  keeps : S.Keeps C
  probed : ∀ b s, C.inv s → Probed C f (S.boot b s) [⟨S.play b, none⟩]
  ends : ∀ s, C.guar s (f s) → ¬ undone s
  outside : ∀ e s, undone (S.outside e s) → undone s

variable {undone : σ → Prop} {base hosts : Finset ι}

theorem Left.update (h : Left C f undone hosts w) {i : ι} {m : Move ρ β ε} (hkeeps : S.Keeps C)
    (j : ι) : Good C (Function.update w.worlds i (S.step (w.worlds i) m) j) := by
  rcases eq_or_ne j i with rfl | hj
  · rw [Function.update_self]
    exact good_step hkeeps (h.good j) m
  · rw [Function.update_of_ne hj]
    exact h.good j

theorem Left.outside (h : Left C f undone hosts w) (hcounts : Counts S C f undone) (i : ι) (e : ε) :
    Left C f undone hosts (S.roll w (.outside i e)) where
  good := h.update hcounts.keeps
  idle j hj := by
    rcases eq_or_ne j i with rfl | hij
    · simp only [roll, Function.update_self]
      exact h.idle j hj
    · simp only [roll, Function.update_of_ne hij]
      exact h.idle j hj
  probed j hj := by
    rcases eq_or_ne j i with rfl | hij
    · simp only [roll, Function.update_self]
      exact (h.probed j hj).rely (h.good j).1 (hcounts.keeps.outside_rely e _)
    · simp only [roll, Function.update_of_ne hij]
      exact h.probed j hj
  undone j hj := by
    rcases eq_or_ne j i with rfl | hij
    · simp only [roll, Function.update_self] at hj
      exact h.undone j (hcounts.outside e _ hj)
    · simp only [roll, Function.update_of_ne hij] at hj
      exact h.undone j hj

theorem Left.stopped (h : Left C f undone hosts w) {i : ι} (hi : w.current = some i)
    {world : World σ ρ} (hgood : Good C world) (hstack : world.stack = []) :
    Left C f undone (insert i hosts)
      ({ worlds := Function.update w.worlds i world } : Rollout ι σ ρ β) where
  good j := by
    rcases eq_or_ne j i with rfl | hj
    · simp only [Function.update_self]
      exact hgood
    · simp only [Function.update_of_ne hj]
      exact h.good j
  idle j _ := by
    rcases eq_or_ne j i with rfl | hj
    · simp only [Function.update_self]
      exact hstack
    · simp only [Function.update_of_ne hj]
      refine h.idle j fun hcurrent => hj ?_
      exact Option.some_inj.mp (hcurrent.symm.trans hi)
  probed _ hnone := nomatch hnone
  undone j hj := by
    rcases eq_or_ne j i with rfl | hij
    · exact .inl (Finset.mem_insert_self _ _)
    · simp only [Function.update_of_ne hij] at hj
      rcases h.undone j hj with hmem | hcurrent
      · exact .inl (Finset.mem_insert_of_mem hmem)
      · exact absurd (Option.some_inj.mp (hcurrent.symm.trans hi)) hij

theorem Left.start (h : Left C f undone hosts w) (hcounts : Counts S C f undone)
    (hcurrent : w.current = none) {i : ι} {b : β} {rest : List (ι × β)} :
    Left C f undone hosts ({
      worlds := Function.update w.worlds i (S.step (w.worlds i) (.start b))
      current := some i
      todo := rest } : Rollout ι σ ρ β) where
  good := h.update hcounts.keeps
  idle j hj := by
    have hij : j ≠ i := fun heq => hj (congrArg some heq.symm)
    simp only [Function.update_of_ne hij]
    refine h.idle j ?_
    rw [hcurrent]
    exact (Option.some_ne_none j).symm
  probed j hj := by
    have hij : j = i := (Option.some_inj.mp hj).symm
    have hidle : (w.worlds i).stack = [] := by
      refine h.idle i ?_
      rw [hcurrent]
      exact (Option.some_ne_none i).symm
    subst hij
    simp only [Function.update_self, System.step, hidle]
    exact hcounts.probed b _ (h.good j).1
  undone j hj := by
    rcases eq_or_ne j i with rfl | hij
    · exact .inr rfl
    · simp only [Function.update_of_ne hij] at hj
      rcases h.undone j hj with hmem | hnow
      · exact .inl hmem
      · rw [hcurrent] at hnow
        cases hnow

theorem Left.finished (h : Left C f undone hosts w) (hcounts : Counts S C f undone) {i : ι}
    (hi : w.current = some i) (hend : (w.worlds i).stack = [⟨[], none⟩]) (r : ρ) :
    Left C f undone hosts ({
      worlds := Function.update w.worlds i (S.step (w.worlds i) (.tick r))
      todo := w.todo } : Rollout ι σ ρ β) where
  good := h.update hcounts.keeps
  idle j _ := by
    rcases eq_or_ne j i with rfl | hij
    · simp only [Function.update_self, System.step, hend, Play.tick]
    · simp only [Function.update_of_ne hij]
      exact h.idle j fun hcurrent => hij (Option.some_inj.mp (hcurrent.symm.trans hi))
  probed _ hnone := nomatch hnone
  undone j hj := by
    rcases eq_or_ne j i with rfl | hij
    · simp only [Function.update_self, System.step, hend, Play.tick] at hj
      have hprobed := h.probed j hi
      rw [hend] at hprobed
      exact absurd hj (hcounts.ends _ (hprobed.ends (h.good j).1 r))
    · simp only [Function.update_of_ne hij] at hj
      rcases h.undone j hj with hmem | hcurrent
      · exact .inl hmem
      · exact absurd (Option.some_inj.mp (hcurrent.symm.trans hi)) hij

theorem Left.goesOn (h : Left C f undone hosts w) (hcounts : Counts S C f undone) {i : ι}
    (hi : w.current = some i) (r : ρ) (hopen : (w.worlds i).stack ≠ [⟨[], none⟩])
    (hnext : (S.step (w.worlds i) (.tick r)).stack ≠ []) :
    Left C f undone hosts ({
      worlds := Function.update w.worlds i (S.step (w.worlds i) (.tick r))
      current := some i
      todo := w.todo } : Rollout ι σ ρ β) where
  good := h.update hcounts.keeps
  idle j hj := by
    have hij : j ≠ i := fun heq => hj (congrArg some heq.symm)
    simp only [Function.update_of_ne hij]
    exact h.idle j fun hcurrent => hij (Option.some_inj.mp (hcurrent.symm.trans hi))
  probed j hj := by
    have hij : j = i := (Option.some_inj.mp hj).symm
    subst hij
    simp only [Function.update_self]
    rcases (h.probed j hi).tick (h.good j).1 hopen r with hdone | hprobed
    · exact absurd hdone hnext
    · exact hprobed
  undone j hj := by
    rcases eq_or_ne j i with rfl | hij
    · exact .inr rfl
    · simp only [Function.update_of_ne hij] at hj
      rcases h.undone j hj with hmem | hcurrent
      · exact .inl hmem
      · exact absurd (Option.some_inj.mp (hcurrent.symm.trans hi)) hij

/-- The hosts of `base` and more, at most `n` with the one whose play is going on. -/
def Bounded (C : Contract σ) (f : σ → σ) (undone : σ → Prop) (base : Finset ι) (n : ℕ)
    (w : Rollout ι σ ρ β) : Prop :=
  ∃ hosts, base ⊆ hosts ∧ Left C f undone hosts w ∧ hosts.card + going w ≤ n

theorem Bounded.tick {n : ℕ} (h : Bounded C f undone base n w) (hcounts : Counts S C f undone) (r : ρ) :
    Bounded C f undone base n (S.roll w (.tick r)) := by
  obtain ⟨hosts, hbase, hleft, hcard⟩ := h
  rw [roll]
  cases hcurrent : w.current with
  | none =>
    cases htodo : w.todo with
    | nil => exact ⟨hosts, hbase, hleft, hcard⟩
    | cons target rest =>
      refine ⟨hosts, hbase, hleft.start hcounts hcurrent, ?_⟩
      have hgoing : going w = 1 := by simp [going, htodo]
      exact (Nat.add_le_add_left (going_le _) _).trans (hgoing ▸ hcard)
  | some i =>
    have hgoing : going w = 1 := by simp [going, hcurrent]
    rw [hgoing] at hcard
    simp only
    rcases eq_or_ne (w.worlds i).stack [⟨[], none⟩] with hend | hopen
    · have hempty : (S.step (w.worlds i) (.tick r)).stack = [] := by
        rw [step, hend]
        rfl
      simp only [hempty, List.isEmpty_nil, atEnd_iff.mpr hend, Bool.not_true, Bool.and_false,
        Bool.false_eq_true, if_true, if_false]
      exact ⟨hosts, hbase, hleft.finished hcounts hcurrent hend r,
        (Nat.add_le_add_left (going_le _) _).trans hcard⟩
    · have hnot : atEnd (w.worlds i).stack = false := by
        rw [← Bool.not_eq_true, atEnd_iff]
        exact hopen
      cases hnext : (S.step (w.worlds i) (.tick r)).stack with
      | nil =>
        simp only [List.isEmpty_nil, hnot, Bool.not_false, Bool.and_self, if_true]
        have hgood := good_step hcounts.keeps (hleft.good i) (.tick r)
        refine ⟨insert i hosts, hbase.trans (Finset.subset_insert i hosts), hleft.stopped hcurrent hgood hnext, ?_⟩
        exact (Nat.add_le_add_right (Finset.card_insert_le i hosts) _).trans hcard
      | cons frame rest =>
        simp only [List.isEmpty_cons, Bool.false_and, Bool.false_eq_true, if_false]
        refine ⟨hosts, hbase, hleft.goesOn hcounts hcurrent r hopen ?_,
          (Nat.add_le_add_left (going_le _) _).trans hcard⟩
        rw [hnext]
        exact List.cons_ne_nil _ _

theorem Bounded.roll {n : ℕ} (h : Bounded C f undone base n w) (hcounts : Counts S C f undone)
    (m : Rolling ι ρ β ε) : Bounded C f undone base (n + if m.starts then 1 else 0) (S.roll w m) := by
  cases m with
  | start targets =>
    obtain ⟨hosts, hbase, hleft, hcard⟩ := h
    change Bounded C f undone base (n + 1) (S.roll w (.start targets))
    rw [System.roll]
    split
    · refine ⟨hosts, hbase, ⟨hleft.good, hleft.idle, hleft.probed, hleft.undone⟩, ?_⟩
      exact Nat.add_le_add ((Nat.le_add_right _ _).trans hcard) (going_le _)
    · exact ⟨hosts, hbase, hleft, hcard.trans (Nat.le_add_right _ _)⟩
  | tick r => exact h.tick hcounts r
  | interrupt =>
    obtain ⟨hosts, hbase, hleft, hcard⟩ := h
    change Bounded C f undone base n (S.roll w .interrupt)
    cases hcurrent : w.current with
    | none =>
      have hroll : S.roll w .interrupt = { w with todo := [] } := by
        simp only [System.roll, hcurrent]
      have hzero : going ({ w with todo := [] } : Rollout ι σ ρ β) = 0 := by simp [going, hcurrent]
      rw [hroll]
      refine ⟨hosts, hbase, ⟨hleft.good, hleft.idle, hleft.probed, hleft.undone⟩, ?_⟩
      rw [hzero]
      exact (Nat.le_add_right _ _).trans hcard
    | some i =>
      have hgoing : going w = 1 := by simp [going, hcurrent]
      rw [System.roll, hcurrent]
      rw [hgoing] at hcard
      exact ⟨insert i hosts, hbase.trans (Finset.subset_insert i hosts),
        hleft.stopped hcurrent (good_step hcounts.keeps (hleft.good i) .interrupt) rfl,
        (Nat.add_le_add_right (Finset.card_insert_le i hosts) _).trans hcard⟩
  | outside i e =>
    obtain ⟨hosts, hbase, hleft, hcard⟩ := h
    exact ⟨hosts, hbase, hleft.outside hcounts i e, hcard⟩

theorem Bounded.exists_hosts {n : ℕ} (h : Bounded C f undone base n w) :
    ∃ hosts : Finset ι, base ⊆ hosts ∧ hosts.card ≤ n ∧
      ∀ i, undone (w.worlds i).state → i ∈ hosts := by
  obtain ⟨hosts, hbase, hleft, hcard⟩ := h
  cases hcurrent : w.current with
  | none =>
    refine ⟨hosts, hbase, (Nat.le_add_right _ _).trans hcard, fun i hi => ?_⟩
    rcases hleft.undone i hi with hmem | hnow
    · exact hmem
    · rw [hcurrent] at hnow
      cases hnow
  | some j =>
    have hgoing : going w = 1 := by simp [going, hcurrent]
    rw [hgoing] at hcard
    refine ⟨insert j hosts, hbase.trans (Finset.subset_insert j hosts),
      (Finset.card_insert_le j hosts).trans hcard, fun i hi => ?_⟩
    rcases hleft.undone i hi with hmem | hnow
    · exact Finset.mem_insert_of_mem hmem
    · rw [hcurrent] at hnow
      cases hnow
      exact Finset.mem_insert_self _ _

/-- However the runs go, each of them leaves one more host undone at the most. -/
theorem bounded_rollout (hcounts : Counts S C f undone) {n : ℕ} (h : Bounded C f undone base n w)
    (moves : List (Rolling ι ρ β ε)) :
    Bounded C f undone base (n + moves.countP Rolling.starts) (S.rollout moves w) := by
  induction moves generalizing n w with
  | nil => exact h
  | cons m moves ih =>
    have hrest := ih (h.roll hcounts m)
    rw [List.countP_cons, Nat.add_comm (moves.countP _), ← Nat.add_assoc]
    exact hrest

/-- From any point of a rollout on, each run leaves one more host undone at the most. -/
theorem Bounded.more {n : ℕ} (h : Bounded C f undone base n w) (hcounts : Counts S C f undone)
    (later : List (Rolling ι ρ β ε)) :
    ∃ more : Finset ι, more.card ≤ going w + later.countP Rolling.starts ∧
      ∀ i, undone ((S.rollout later w).worlds i).state → undone (w.worlds i).state ∨ i ∈ more := by
  classical
  obtain ⟨known, -, -, hknown⟩ := h.exists_hosts
  obtain ⟨_, -, hleft, -⟩ := h
  let left := known.filter fun i => undone (w.worlds i).state
  have hmem : ∀ i, i ∈ left ↔ undone (w.worlds i).state := fun i =>
    ⟨fun hi => (Finset.mem_filter.mp hi).2, fun hi => Finset.mem_filter.mpr ⟨hknown i hi, hi⟩⟩
  have hnow : Bounded C f undone left (left.card + going w) w :=
    ⟨left, Finset.Subset.refl _, ⟨hleft.good, hleft.idle, hleft.probed,
      fun i hi => .inl ((hmem i).mpr hi)⟩, le_rfl⟩
  obtain ⟨hosts, hbase, hcard, hall⟩ := (bounded_rollout hcounts hnow later).exists_hosts
  refine ⟨hosts \ left, ?_, fun i hi => ?_⟩
  · rw [Finset.card_sdiff_of_subset hbase]
    omega
  · by_cases hi' : i ∈ left
    · exact .inl ((hmem i).mp hi')
    · exact .inr (Finset.mem_sdiff.mpr ⟨hall i hi, hi'⟩)

omit [DecidableEq ι] in
/-- A play that has come to its end leaves nothing undone. -/
theorem Bounded.ended {n : ℕ} (h : Bounded C f undone base n w) (hcounts : Counts S C f undone)
    (r : ρ) {i : ι} (hcurrent : w.current = some i)
    (hend : atEnd (w.worlds i).stack = true) : ¬ undone (w.worlds i).state := by
  obtain ⟨_, -, hleft, -⟩ := h
  have hprobed := hleft.probed i hcurrent
  rw [atEnd_iff.mp hend] at hprobed
  exact hcounts.ends _ (hprobed.ends (hleft.good i).1 r)

end System

end Provisioner.Play
