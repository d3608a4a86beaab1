import Mathlib.Data.List.Basic

/-!
# Effects in order, cut anywhere

A run does a list of effects one after another and may end after any of them.
What an effect leaves is a relation, since some of it is not up to the run.
-/

namespace Provisioner.Cuts

variable {ι σ : Type}

inductive Done (rel : ι → σ → σ → Prop) : List ι → σ → σ → Prop where
  | nil (s : σ) : Done rel [] s s
  | cons {i : ι} {rest : List ι} {s m s' : σ} (h : rel i s m) (hrest : Done rel rest m s') :
    Done rel (i :: rest) s s'

variable {rel : ι → σ → σ → Prop}

theorem done_nil {s s' : σ} : Done rel [] s s' ↔ s' = s := by
  constructor
  · intro h
    cases h
    rfl
  · rintro rfl
    exact .nil _

theorem done_cons {i : ι} {rest : List ι} {s s' : σ} :
    Done rel (i :: rest) s s' ↔ ∃ m, rel i s m ∧ Done rel rest m s' := by
  constructor
  · intro h
    cases h with
    | cons h hrest => exact ⟨_, h, hrest⟩
  · rintro ⟨m, h, hrest⟩
    exact .cons h hrest

theorem done_append {l l' : List ι} {s s' : σ} :
    Done rel (l ++ l') s s' ↔ ∃ m, Done rel l s m ∧ Done rel l' m s' := by
  induction l generalizing s with
  | nil => simp [done_nil]
  | cons i l ih =>
    simp only [List.cons_append, done_cons, ih]
    constructor
    · rintro ⟨m, h, m', hl, hl'⟩
      exact ⟨m', ⟨m, h, hl⟩, hl'⟩
    · rintro ⟨m', ⟨m, h, hl⟩, hl'⟩
      exact ⟨m, h, m', hl, hl'⟩

/-- From `P`, the effects lead to `Q`, and the invariant holds wherever they
are cut. -/
def Leads (rel : ι → σ → σ → Prop) (inv P : σ → Prop) (l : List ι) (Q : σ → Prop) : Prop :=
  ∀ s, inv s → P s → (∀ done rest, l = done ++ rest → ∀ s', Done rel done s s' → inv s') ∧
    ∀ s', Done rel l s s' → Q s'

variable {inv P Q R : σ → Prop} {l l' : List ι}

theorem Leads.cut (h : Leads rel inv P l Q) {s s' : σ} (hinv : inv s) (hs : P s)
    {done rest : List ι} (hl : l = done ++ rest) (hdone : Done rel done s s') : inv s' :=
  (h s hinv hs).1 done rest hl s' hdone

theorem Leads.whole (h : Leads rel inv P l Q) {s s' : σ} (hinv : inv s) (hs : P s)
    (hdone : Done rel l s s') : inv s' ∧ Q s' :=
  ⟨h.cut hinv hs (List.append_nil l).symm hdone, (h s hinv hs).2 s' hdone⟩

theorem Leads.nil : Leads rel inv P [] P := by
  intro s hinv hs
  refine ⟨?_, ?_⟩
  · intro done rest hl s' hdone
    obtain ⟨rfl, -⟩ := List.append_eq_nil_iff.mp hl.symm
    rwa [done_nil.mp hdone]
  · intro s' hdone
    rwa [done_nil.mp hdone]

theorem Leads.single {i : ι} (h : ∀ s s', inv s → P s → rel i s s' → inv s' ∧ Q s') :
    Leads rel inv P [i] Q := by
  intro s hinv hs
  have hstep : ∀ s', Done rel [i] s s' → inv s' ∧ Q s' := by
    intro s' hdone
    obtain ⟨m, hrel, hnil⟩ := done_cons.mp hdone
    rw [done_nil.mp hnil]
    exact h s m hinv hs hrel
  refine ⟨?_, fun s' hdone => (hstep s' hdone).2⟩
  intro done rest hl s' hdone
  cases done with
  | nil => rwa [done_nil.mp hdone]
  | cons j done =>
    obtain ⟨rfl, htail⟩ := List.cons.inj hl
    obtain ⟨rfl, -⟩ := List.append_eq_nil_iff.mp htail.symm
    exact (hstep s' hdone).1

theorem Leads.append (h : Leads rel inv P l Q) (h' : Leads rel inv Q l' R) :
    Leads rel inv P (l ++ l') R := by
  intro s hinv hs
  refine ⟨?_, ?_⟩
  · intro done rest hl s' hdone
    obtain ⟨mid, rfl, hmid⟩ | ⟨mid, rfl, -⟩ := List.append_eq_append_iff.mp hl
    · obtain ⟨m, hfirst, hsecond⟩ := done_append.mp hdone
      obtain ⟨hm, hq⟩ := h.whole hinv hs hfirst
      exact h'.cut hm hq hmid hsecond
    · exact h.cut hinv hs rfl hdone
  · intro s' hdone
    obtain ⟨m, hfirst, hsecond⟩ := done_append.mp hdone
    obtain ⟨hm, hq⟩ := h.whole hinv hs hfirst
    exact (h'.whole hm hq hsecond).2

theorem Leads.conseq (h : Leads rel inv P l Q) {P' Q' : σ → Prop} (hP : ∀ s, inv s → P' s → P s)
    (hQ : ∀ s, inv s → Q s → Q' s) : Leads rel inv P' l Q' := by
  intro s hinv hs
  refine ⟨fun done rest hl s' hdone => h.cut hinv (hP s hinv hs) hl hdone, fun s' hdone => ?_⟩
  obtain ⟨hinv', hq⟩ := h.whole hinv (hP s hinv hs) hdone
  exact hQ s' hinv' hq

theorem Leads.each (h : ∀ i ∈ l, Leads rel inv P [i] P) : Leads rel inv P l P := by
  induction l with
  | nil => exact .nil
  | cons i l ih =>
    rw [List.forall_mem_cons] at h
    exact h.1.append (ih h.2)

end Provisioner.Cuts
