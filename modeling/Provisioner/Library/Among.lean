import Provisioner.Library.Steps

/-!
# Plays among others

Between two tasks of a play others may act at any time. What is proved of a
play holds as long as the history stays within the condition it is proved
under; an assertion between two tasks has to outlast what the others do.
-/

namespace Provisioner.Play

/-- What the others may do, the condition on the history, and what is kept
while it is met. -/
structure Setting (σ ε : Type) where
  ok : σ → Prop
  keep : σ → Prop
  others : ε → σ → σ
  ok_others : ∀ e s, ok (others e s) → ok s
  keep_others : ∀ e s, ok s → keep s → keep (others e s)

namespace Setting

variable {σ ρ ε : Type} [Answer ρ] (S : Setting σ ε)

def contract : Contract σ where
  rely s s' := ∃ e, s' = S.others e s
  guar s s' := (S.ok s → S.keep s) → S.ok s' → S.keep s'
  inv s := S.ok s → S.keep s
  guar_refl _ h := h
  inv_rely := by
    rintro s s' h ⟨e, rfl⟩ hok
    have hbefore := S.ok_others e s hok
    exact S.keep_others e s hbefore (h hbefore)
  inv_guar _ _ h hguar := hguar h

/-- What `P` says outlasts the others. -/
def Lasts (P : σ → Prop) : Prop := ∀ s e, S.keep s → P s → P (S.others e s)

/-- While the condition is met: from `P`, the items run to `Q` if they do not fail. -/
def Does (P : σ → Prop) (items : List (Item σ ρ)) (Q : σ → Prop) : Prop :=
  Triple S.contract (fun s => S.ok s → P s) items (fun s => S.ok s → Q s) fun _ => True

variable {S} {P P' Q Q' M : σ → Prop} {items items' : List (Item σ ρ)}

theorem Lasts.and (h : S.Lasts P) (h' : S.Lasts Q) : S.Lasts fun s => P s ∧ Q s :=
  fun s e hkeep hs => ⟨h s e hkeep hs.1, h' s e hkeep hs.2⟩

theorem Lasts.stable (h : S.Lasts P) : Stable S.contract fun s => S.ok s → P s where
  stable := by
    rintro s s' hinv ⟨e, rfl⟩ hs hok
    have hbefore := S.ok_others e s hok
    exact h s e (hinv hbefore) (hs hbefore)

omit [Answer ρ] in
theorem Does.append (h : S.Does P items M) (h' : S.Does M items' Q) :
    S.Does P (items ++ items') Q :=
  Triple.append h h'

omit [Answer ρ] in
theorem Does.cons {item : Item σ ρ} (h : S.Does P [item] M) (h' : S.Does M items Q) :
    S.Does P (item :: items) Q :=
  h.append h'

omit [Answer ρ] in
theorem Does.conseq (h : S.Does P items Q) (hP : ∀ s, S.keep s → P' s → P s)
    (hQ : ∀ s, S.keep s → Q s → Q' s) : S.Does P' items Q' :=
  Triple.conseq h (fun s hinv hs hok => hP s (hinv hok) (hs hok))
    (fun s hinv hs hok => hQ s (hinv hok) (hs hok)) fun _ _ hs => hs

omit [Answer ρ] in
theorem Does.pre (h : S.Does P items Q) (hP : ∀ s, S.keep s → P' s → P s) : S.Does P' items Q :=
  h.conseq hP fun _ _ hs => hs

omit [Answer ρ] in
/-- A task whatever it answers: each state it may leave is kept, and one it
succeeds with meets `Q`. -/
theorem does_task {run : Task σ ρ} (hP : S.Lasts P)
    (hok : ∀ s r, S.ok (run r s).1 → S.ok s)
    (h : ∀ s r, S.ok (run r s).1 → S.keep s → P s → S.keep (run r s).1 ∧
      match (run r s).2 with
      | .ok => Q (run r s).1
      | .again => P (run r s).1
      | .failed => True) : S.Does P [.task run] Q := by
  have := hP.stable
  apply Triple.task
  intro s r hinv hs
  refine ⟨fun _ hok' => (h s r hok' (hinv (hok s r hok')) (hs (hok s r hok'))).1, ?_⟩
  cases hrun : (run r s).2 with
  | ok =>
    intro hok'
    have hstep := (h s r hok' (hinv (hok s r hok')) (hs (hok s r hok'))).2
    rwa [hrun] at hstep
  | again =>
    intro hok'
    have hstep := (h s r hok' (hinv (hok s r hok')) (hs (hok s r hok'))).2
    rwa [hrun] at hstep
  | failed => trivial

omit [Answer ρ] in
theorem does_notes {f : ρ → σ → σ} (hP : S.Lasts P) (hok : ∀ s r, S.ok (f r s) → S.ok s)
    (h : ∀ s r, S.ok (f r s) → S.keep s → P s → S.keep (f r s) ∧ Q (f r s)) :
    S.Does P [notes f] Q :=
  does_task hP hok h

theorem does_observes {f : ρ → σ → σ} (hP : S.Lasts P) (hok : ∀ s r, S.ok (f r s) → S.ok s)
    (h : ∀ s r, S.ok (f r s) → S.keep s → P s → S.keep (f r s) ∧ Q (f r s)) :
    S.Does P [observes f] Q := by
  apply does_task hP
  · intro s r
    cases Answer.outcome r with
    | ok => exact hok s r
    | again => exact id
    | failed => exact id
  · intro s r
    cases Answer.outcome r with
    | ok => exact h s r
    | again => exact fun _ hkeep hs => ⟨hkeep, hs⟩
    | failed => exact fun _ hkeep _ => ⟨hkeep, trivial⟩

theorem does_tries {f g : ρ → σ → σ} (hP : S.Lasts P) (hok : ∀ s r, S.ok (f r s) → S.ok s)
    (hok' : ∀ s r, S.ok (g r s) → S.ok s)
    (h : ∀ s r, S.ok (f r s) → S.keep s → P s → S.keep (f r s) ∧ Q (f r s))
    (h' : ∀ s r, S.ok (g r s) → S.keep s → P s → S.keep (g r s)) :
    S.Does P [tries f g] Q := by
  have hfailed : ∀ s r, (S.ok (if Answer.half r then g r s else s) → S.ok s) ∧
      (S.ok (if Answer.half r then g r s else s) → S.keep s → P s →
        S.keep (if Answer.half r then g r s else s)) := by
    intro s r
    cases Answer.half r with
    | true => exact ⟨hok' s r, h' s r⟩
    | false => exact ⟨id, fun _ hkeep _ => hkeep⟩
  apply does_task hP
  · intro s r
    cases Answer.outcome r with
    | ok => exact hok s r
    | again => exact (hfailed s r).1
    | failed => exact (hfailed s r).1
  · intro s r
    cases Answer.outcome r with
    | ok => exact h s r
    | again => exact fun hok' hkeep hs => ⟨(hfailed s r).2 hok' hkeep hs, trivial⟩
    | failed => exact fun hok' hkeep hs => ⟨(hfailed s r).2 hok' hkeep hs, trivial⟩

theorem does_acts {f : ρ → σ → σ} (hP : S.Lasts P) (hok : ∀ s r, S.ok (f r s) → S.ok s)
    (h : ∀ s r, S.ok (f r s) → S.keep s → P s → S.keep (f r s) ∧ Q (f r s)) :
    S.Does P [acts f] Q :=
  does_tries hP hok hok h fun s r hok' hkeep hs => (h s r hok' hkeep hs).1

omit [Answer ρ] in
theorem does_gate {c : σ → Bool} (hP : S.Lasts P)
    (h : ∀ s, S.keep s → P s → c s = true → Q s) : S.Does P [(gate c : Item σ ρ)] Q := by
  apply does_task hP
  · exact fun _ _ hok => hok
  · intro s r _ hkeep hs
    cases hc : c s with
    | true => exact ⟨hkeep, h s hkeep hs hc⟩
    | false => exact ⟨hkeep, trivial⟩

omit [Answer ρ] in
theorem does_incl {cond : σ → Bool} (hP : S.Lasts P)
    (hbody : S.Does (fun s => P s ∧ cond s = true) items Q)
    (hskip : ∀ s, S.keep s → P s → cond s = false → Q s) : S.Does P [.incl cond items] Q := by
  have := hP.stable
  apply Triple.incl
  · exact Triple.pre hbody fun s _ hs hok => ⟨hs.1 hok, hs.2⟩
  · exact fun s hinv hs hcond hok => hskip s (hinv hok) (hs hok) hcond

omit [Answer ρ] in
/-- Where no history is left out, what comes after a task that cannot succeed
never runs. -/
theorem Does.vacuous (hok : ∀ s, S.ok s) : S.Does (fun _ => False) items Q :=
  Triple.cases (ι := Empty) (R := fun _ _ => False) (fun i => i.elim)
    fun s _ hs => (hs (hok s)).elim

end Setting

theorem System.keeps_of_does {σ ρ β ε : Type} {S : System σ ρ β ε} {A : Setting σ ε}
    {P Q : β → σ → Prop} (houtside : S.outside = A.others)
    (hok : ∀ b s, A.ok (S.boot b s) → A.ok s)
    (hboot : ∀ b s, A.ok s → A.keep s → A.keep (S.boot b s) ∧ P b (S.boot b s))
    (hplay : ∀ b, A.Does (P b) (S.play b) (Q b)) : S.Keeps A.contract where
  boot_inv b s hinv hok' := (hboot b s (hok b s hok') (hinv (hok b s hok'))).1
  boot_safe b s hinv :=
    (hplay b).safe fun hok' => (hboot b s (hok b s hok') (hinv (hok b s hok'))).2
  outside_rely e s := ⟨e, by rw [houtside]⟩

/-- Runs whose moves are all allowed ones keep to what those moves keep to. -/
theorem System.good_run_of_allowed {σ ρ β ε : Type} {S : System σ ρ β ε} {C : Contract σ}
    {p : Move ρ β ε → Prop}
    (hboot : ∀ b, p (.start b) → ∀ s, C.inv s →
      C.inv (S.boot b s) ∧ Safe C (S.boot b s) [⟨S.play b, none⟩])
    (houtside : ∀ e, p (.outside e) → ∀ s, C.rely s (S.outside e s)) {w : World σ ρ}
    (hgood : Good C w) {moves : List (Move ρ β ε)} (hmoves : ∀ m ∈ moves, p m) :
    Good C (S.run moves w) := by
  induction moves generalizing w with
  | nil => exact hgood
  | cons m moves ih =>
    refine ih ?_ fun m' hm' => hmoves m' (List.mem_cons_of_mem m hm')
    have hallowed := hmoves m List.mem_cons_self
    obtain ⟨hinv, hsafe⟩ := hgood
    cases m with
    | start b =>
      rw [step]
      split
      · exact hboot b hallowed _ hinv
      · exact ⟨hinv, hsafe⟩
    | tick r => exact ⟨C.inv_guar _ _ hinv (hsafe.guar hinv r), hsafe.tick hinv r⟩
    | interrupt => exact ⟨hinv, safe_nil _⟩
    | outside e =>
      have hrely := houtside e hallowed w.state
      exact ⟨C.inv_rely _ _ hinv hrely, hsafe.rely hinv hrely⟩

end Provisioner.Play
