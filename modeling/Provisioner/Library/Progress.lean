import Provisioner.Library.Steps

/-!
# Plays that come to their end

A run whose answers are all successes goes on until a gate stops it. `Total`
says that no gate does; `Carries` pairs it with the invariant that a cut at any
point of the play leaves behind.
-/

namespace Provisioner.Play

variable {σ ρ : Type} [Answer ρ]

/-- Whatever successes it is answered with, the run ends in a state of `R`. -/
inductive Ends (R : σ → Prop) : σ → Stack σ ρ → Prop where
  | done (s : σ) : R s → Ends R s []
  | tick (s : σ) (stack : Stack σ ρ) :
    (∀ r, Answer.outcome r = .ok → Ends R (tick r s stack).1 (tick r s stack).2) →
      Ends R s stack

theorem Ends.step {R : σ → Prop} {s s' : σ} {stack stack' : Stack σ ρ} (h : Ends R s' stack')
    (hstep : ∀ r, Answer.outcome r = .ok → Play.tick r s stack = (s', stack')) :
    Ends R s stack := by
  apply Ends.tick
  intro r hr
  rw [hstep r hr]
  exact h

variable (inv : σ → Prop)

/-- From `P`, the items get to `Q` when every answer is a success. -/
def Total (P : σ → Prop) (items : List (Item σ ρ)) (Q : σ → Prop) : Prop :=
  ∀ (R : σ → Prop) todo rescue (rest : Stack σ ρ),
    (∀ s, inv s → Q s → Ends R s (⟨todo, rescue⟩ :: rest)) →
      ∀ s, inv s → P s → Ends R s (⟨items ++ todo, rescue⟩ :: rest)

variable {inv} in
theorem Total.append {P Q M : σ → Prop} {items items' : List (Item σ ρ)} (h : Total inv P items M)
    (h' : Total inv M items' Q) : Total inv P (items ++ items') Q := by
  intro R todo rescue rest hdone s hinv hs
  rw [List.append_assoc]
  exact h R _ rescue rest (h' R todo rescue rest hdone) s hinv hs

/-- From `P`, the items keep the invariant at every point, and get to `Q` when
every answer is a success. -/
structure Carries (P : σ → Prop) (items : List (Item σ ρ)) (Q : σ → Prop) : Prop where
  keeps : Leads inv (fun _ _ => True) (fun _ => trivial) P items Q
  total : Total inv P items Q

namespace Carries

variable {inv} {P P' Q Q' M : σ → Prop} {items items' : List (Item σ ρ)}

theorem conseq (h : Carries inv P items Q) (hP : ∀ s, inv s → P' s → P s)
    (hQ : ∀ s, inv s → Q s → Q' s) : Carries inv P' items Q' where
  keeps := h.keeps.conseq hP hQ fun _ _ hs => hs
  total R todo rescue rest hdone s hinv hs :=
    h.total R todo rescue rest (fun t ht hQt => hdone t ht (hQ t ht hQt)) s hinv (hP s hinv hs)

theorem pre (h : Carries inv P items Q) (hP : ∀ s, inv s → P' s → P s) :
    Carries inv P' items Q :=
  h.conseq hP fun _ _ hs => hs

theorem post (h : Carries inv P items Q) (hQ : ∀ s, inv s → Q s → Q' s) :
    Carries inv P items Q' :=
  h.conseq (fun _ _ hs => hs) hQ

theorem append (h : Carries inv P items M) (h' : Carries inv M items' Q) :
    Carries inv P (items ++ items') Q where
  keeps := h.keeps.append h'.keeps
  total := h.total.append h'.total

theorem cons {item : Item σ ρ} (h : Carries inv P [item] M) (h' : Carries inv M items Q) :
    Carries inv P (item :: items) Q :=
  h.append h'

theorem total_task {run : Task σ ρ} {f : ρ → σ → σ}
    (hrun : ∀ s r, inv s → P s → Answer.outcome r = .ok → run r s = (f r s, .ok))
    (h : ∀ s r, inv s → P s → inv (f r s) ∧ Q (f r s)) : Total inv P [.task run] Q := by
  intro R todo rescue rest hdone s hinv hs
  apply Ends.tick
  intro r hr
  obtain ⟨hinv', hQ⟩ := h s r hinv hs
  simp only [List.cons_append, List.nil_append, Play.tick, hrun s r hinv hs hr]
  exact hdone _ hinv' hQ

theorem observes {f : ρ → σ → σ} (h : ∀ s r, inv s → P s → inv (f r s) ∧ Q (f r s)) :
    Carries inv P [Play.observes f] Q where
  keeps := leads_observes fun s r hinv hs =>
    let ⟨hinv', hQ⟩ := h s r hinv hs
    ⟨hinv', trivial, hQ⟩
  total := total_task (fun s r _ _ hr => by simp only [hr]) h

theorem task {run : Task σ ρ} {f : ρ → σ → σ}
    (hok : ∀ s r, inv s → P s → Answer.outcome r = .ok → run r s = (f r s, .ok))
    (hfailed : ∀ s r, inv s → P s → Answer.outcome r ≠ .ok →
      (run r s).2 = .failed ∧ inv (run r s).1)
    (h : ∀ s r, inv s → P s → inv (f r s) ∧ Q (f r s)) : Carries inv P [.task run] Q where
  keeps := by
    apply Triple.task
    intro s r hinv hs
    by_cases hr : Answer.outcome r = .ok
    · obtain ⟨hinv', hQ⟩ := h s r hinv hs
      rw [hok s r hinv hs hr]
      exact ⟨⟨fun _ => hinv', trivial⟩, hQ⟩
    · obtain ⟨hrun, hinv'⟩ := hfailed s r hinv hs hr
      rw [hrun]
      exact ⟨⟨fun _ => hinv', trivial⟩, trivial⟩
  total := total_task hok h

theorem tries {f g : ρ → σ → σ} (h : ∀ s r, inv s → P s → inv (f r s) ∧ Q (f r s))
    (h' : ∀ s r, inv s → P s → inv (g r s)) : Carries inv P [Play.tries f g] Q := by
  apply task (f := f)
  · exact fun s r _ _ hr => by simp only [hr]
  · intro s r hinv hs hr
    cases hanswer : Answer.outcome r with
    | ok => exact absurd hanswer hr
    | again | failed =>
      refine ⟨rfl, ?_⟩
      cases hhalf : Answer.half r with
      | true =>
        rw [if_pos rfl]
        exact h' s r hinv hs
      | false =>
        rw [if_neg Bool.false_ne_true]
        exact hinv
  · exact h

theorem acts {f : ρ → σ → σ} (h : ∀ s r, inv s → P s → inv (f r s) ∧ Q (f r s)) :
    Carries inv P [Play.acts f] Q :=
  tries h fun s r hinv hs => (h s r hinv hs).1

theorem notes {f : ρ → σ → σ} (h : ∀ s r, inv s → P s → inv (f r s) ∧ Q (f r s)) :
    Carries inv P [Play.notes f] Q where
  keeps := leads_notes fun s r hinv hs =>
    let ⟨hinv', hQ⟩ := h s r hinv hs
    ⟨hinv', trivial, hQ⟩
  total := total_task (fun _ _ _ _ _ => rfl) h

theorem gate {c : σ → Bool} (h : ∀ s, inv s → P s → c s = true) :
    Carries inv P [(Play.gate c : Item σ ρ)] P where
  keeps := leads_gate fun _ _ hs _ => hs
  total := total_task (f := fun _ s => s)
    (fun s _ hinv hs _ => by rw [h s hinv hs, if_pos rfl]) fun _ _ hinv hs => ⟨hinv, hs⟩

theorem command : Carries inv P [(Play.command : Item σ ρ)] P :=
  observes fun _ _ hinv hs => ⟨hinv, hs⟩

theorem incl {cond : σ → Bool} (hbody : Carries inv (fun s => P s ∧ cond s = true) items Q)
    (hskip : ∀ s, inv s → P s → cond s = false → Q s) :
    Carries inv P [.incl cond items] Q where
  keeps := .incl hbody.keeps hskip
  total R todo rescue rest hdone s hinv hs := by
    cases hcond : cond s with
    | true =>
      refine (hbody.total R todo rescue rest hdone s hinv ⟨hs, hcond⟩).step fun r _ => ?_
      simp [Play.tick, hcond]
    | false =>
      refine (hdone s hinv (hskip s hinv hs hcond)).step fun r _ => ?_
      simp [Play.tick, hcond]

theorem some_of {ι : Type} {R : ι → σ → Prop} (h : ∀ i, Carries inv (R i) items Q) :
    Carries inv (fun s => ∃ i, R i s) items Q where
  keeps := .cases (fun i => (h i).keeps) fun _ _ hs => hs
  total R todo rescue rest hdone s hinv hs := by
    obtain ⟨i, hi⟩ := hs
    exact (h i).total R todo rescue rest hdone s hinv hi

theorem vacuous (h : ∀ s, inv s → ¬ P s) : Carries inv P items Q where
  keeps := .cases (ι := Empty) (R := fun _ _ => False) (fun e => e.elim) fun s hinv hs =>
    absurd hs (h s hinv)
  total _ _ _ _ _ s hinv hs := absurd hs (h s hinv)

section Loops

variable {t : Tally σ} {I : ℕ → σ → Prop} {L : σ → Prop} {f : ℕ → σ → σ × Bool} {n : ℕ}

/-- What a loop keeps to: an item that succeeds gets from `I` to the next `I`, and
`L` is what all of them keep once one has failed. -/
structure Loops (inv : σ → Prop) (t : Tally σ) (I : ℕ → σ → Prop) (L : σ → Prop)
    (f : ℕ → σ → σ × Bool) (n : ℕ) : Prop where
  step : ∀ i < n, ∀ s, inv s → I i s → (f i s).2 = true ∧ I (i + 1) (f i s).1
  loose : ∀ i s, I i s → L s ∧ t.failed s = false
  keep : ∀ i < n, ∀ s, inv s → L s →
    inv (f i s).1 ∧ L (f i s).1 ∧ (t.failed s = true → t.failed (f i s).1 = true)
  note : ∀ s, inv s → L s → inv (t.note s) ∧ L (t.note s) ∧ t.failed (t.note s) = true

/-- One item, behind items that have succeeded or one that has failed. -/
theorem Loops.leads_attempt (h : Loops inv t I L f n) {i : ℕ} (hi : i < n) :
    Leads inv (fun _ _ => True) (fun _ => trivial)
      (fun s => I i s ∨ L s ∧ t.failed s = true) [(attempt t (f i) : Item σ ρ)]
      fun s => I (i + 1) s ∨ L s ∧ t.failed s = true := by
  have hloose : ∀ s, (I i s ∨ L s ∧ t.failed s = true) → L s := fun s hs =>
    hs.elim (fun hI => (h.loose i s hI).1) And.left
  have hnoted : ∀ s, inv s → L s → inv (t.note s) ∧
      (I (i + 1) (t.note s) ∨ L (t.note s) ∧ t.failed (t.note s) = true) := by
    intro s hinv hL
    obtain ⟨hinv', hL', hfailed⟩ := h.note s hinv hL
    exact ⟨hinv', .inr ⟨hL', hfailed⟩⟩
  apply Triple.task
  intro s r hinv hs
  obtain ⟨hinv', hL', hlasts⟩ := h.keep i hi s hinv (hloose s hs)
  cases Answer.outcome r with
  | ok =>
    cases hgranted : (f i s).2 with
    | true =>
      refine ⟨⟨fun _ => hinv', trivial⟩, ?_⟩
      exact hs.imp (fun hI => (h.step i hi s hinv hI).2) fun hL => ⟨hL', hlasts hL.2⟩
    | false =>
      obtain ⟨hinv'', hout⟩ := hnoted _ hinv' hL'
      exact ⟨⟨fun _ => hinv'', trivial⟩, hout⟩
  | again | failed =>
    have hleft : inv (if Answer.half r then (f i s).1 else s) ∧
        L (if Answer.half r then (f i s).1 else s) := by
      split
      · exact ⟨hinv', hL'⟩
      · exact ⟨hinv, hloose s hs⟩
    obtain ⟨hinv'', hout⟩ := hnoted _ hleft.1 hleft.2
    exact ⟨⟨fun _ => hinv'', trivial⟩, hout⟩

theorem Loops.leads_range (h : Loops inv t I L f n) {k : ℕ} (hk : k ≤ n) :
    Leads inv (fun _ _ => True) (fun _ => trivial) (fun s => I 0 s ∨ L s ∧ t.failed s = true)
      (((List.range k).map f).map (attempt t) : List (Item σ ρ))
      fun s => I k s ∨ L s ∧ t.failed s = true := by
  induction k with
  | zero => exact .nil
  | succ k ih =>
    rw [List.range_succ, List.map_append, List.map_append]
    exact (ih (by omega)).append (h.leads_attempt hk)

theorem Loops.total_range (h : Loops inv t I L f n) {k : ℕ} (hk : k ≤ n) :
    Total inv (I 0) (((List.range k).map f).map (attempt t) : List (Item σ ρ)) (I k) := by
  induction k with
  | zero => exact fun _ _ _ _ hdone s hinv hs => hdone s hinv hs
  | succ k ih =>
    rw [List.range_succ, List.map_append, List.map_append]
    refine (ih (by omega)).append (total_task (f := fun _ s => (f k s).1) ?_ ?_)
    · intro s r hinv hs hr
      simp only [hr, (h.step k hk s hinv hs).1, if_true]
    · exact fun s r hinv hs =>
        ⟨(h.keep k hk s hinv (h.loose k s hs).1).1, (h.step k hk s hinv hs).2⟩

/-- A loop whose items would all succeed gets through, and behind it they all have. -/
theorem loops (h : Loops inv t I L f n)
    (hclear : ∀ s, inv s → P s → inv (t.clear s) ∧ I 0 (t.clear s)) :
    Carries inv P (Play.loops t ((List.range n).map f) : List (Item σ ρ)) (I n) where
  keeps := by
    have hfirst : Leads inv (fun _ _ => True) (fun _ => trivial) P
        [(Play.notes fun _ s => t.clear s : Item σ ρ)]
        fun s => I 0 s ∨ L s ∧ t.failed s = true :=
      leads_notes fun s _ hinv hs =>
        ⟨(hclear s hinv hs).1, trivial, .inl (hclear s hinv hs).2⟩
    refine (hfirst.cons (h.leads_range (Nat.le_refl n))).append (leads_gate fun s _ hs hnone => ?_)
    refine hs.resolve_right fun hL => ?_
    rw [hL.2] at hnone
    cases hnone
  total := by
    have hfirst : Total inv P [(Play.notes fun _ s => t.clear s : Item σ ρ)] (I 0) :=
      total_task (f := fun _ s => t.clear s) (fun _ _ _ _ _ => rfl) fun s _ => hclear s
    refine (hfirst.append (h.total_range (Nat.le_refl n))).append (gate fun s _ hs => ?_).total
    rw [(h.loose n s hs).2]
    rfl

end Loops

theorem safe (h : Carries inv P items Q) {s : σ} (hs : P s) :
    Safe (Contract.alone inv (fun _ _ => True) fun _ => trivial) s [⟨items, none⟩] :=
  h.keeps.safe hs

theorem ends (h : Carries inv P items Q) {s : σ} (hinv : inv s) (hs : P s) :
    Ends (fun t => inv t ∧ Q t) s ([⟨items, none⟩] : Stack σ ρ) := by
  have hstart := h.total (fun t => inv t ∧ Q t) [] none [] (fun t ht hQ => ?_) s hinv hs
  · rwa [List.append_nil] at hstart
  · exact (Ends.done t ⟨ht, hQ⟩).step fun _ _ => rfl

end Carries

namespace System

variable {β ε : Type} {S : System σ ρ β ε} {C : Contract σ} {w : World σ ρ}

/-- The first `n` of these answers, one after another. -/
def ticks (answers : ℕ → ρ) (n : ℕ) : List (Move ρ β ε) :=
  (List.range n).map fun i => .tick (answers i)

theorem ends_run {R : σ → Prop} {s : σ} {stack : Stack σ ρ} (h : Ends R s stack)
    {answers : ℕ → ρ} (hok : ∀ i, Answer.outcome (answers i) = .ok) :
    ∃ n t, S.run (ticks answers n) ⟨s, stack⟩ = ⟨t, []⟩ ∧ R t := by
  induction h generalizing answers with
  | done s hs => exact ⟨0, s, rfl, hs⟩
  | tick s stack _ ih =>
    obtain ⟨n, t, hrun, ht⟩ := ih (answers 0) (hok 0) fun i => hok (i + 1)
    refine ⟨n + 1, t, ?_, ht⟩
    rw [ticks, List.range_succ_eq_map, List.map_cons, List.map_map]
    exact hrun

omit [Answer ρ] in
theorem good_run_of_ready {ready : σ → Prop}
    (hboot : ∀ b s, C.inv s → ready s → C.inv (S.boot b s) ∧
      Safe C (S.boot b s) [⟨S.play b, none⟩])
    (houtside : ∀ e s, C.rely s (S.outside e s)) (hgood : Good C w) (moves : List (Move ρ β ε))
    (hready : ∀ n, (S.run (moves.take n) w).stack = [] → ready (S.run (moves.take n) w).state) :
    Good C (S.run moves w) := by
  induction moves generalizing w with
  | nil => exact hgood
  | cons m moves ih =>
    refine ih ?_ fun n => hready (n + 1)
    obtain ⟨hinv, hsafe⟩ := hgood
    cases m with
    | start b =>
      have hnow := hready 0
      rw [step]
      split
      · exact hboot b _ hinv (hnow ‹_›)
      · exact ⟨hinv, hsafe⟩
    | tick r => exact ⟨C.inv_guar _ _ hinv (hsafe.guar hinv r), hsafe.tick hinv r⟩
    | interrupt => exact ⟨hinv, safe_nil _⟩
    | outside e =>
      have hrely := houtside e w.state
      exact ⟨C.inv_rely _ _ hinv hrely, hsafe.rely hinv hrely⟩

end System

end Provisioner.Play
