import Provisioner.Library.Play

/-!
# Tasks of one run at a time

The usual kinds of tasks, and plays on a state that nothing else touches: an
invariant that holds between any two tasks, and what each step may do.
-/

namespace Provisioner.Play

/-- How a task ended, and whether a task that did not succeed had its effect. -/
class Answer (ρ : Type) where
  outcome : ρ → Outcome
  half : ρ → Bool

variable {σ ρ : Type} [Answer ρ]

/-- A task that has its effect when it succeeds, and none otherwise. -/
def observes (f : ρ → σ → σ) : Item σ ρ :=
  .task fun r s =>
    match Answer.outcome r with
    | .ok => (f r s, .ok)
    | other => (s, other)

/-- A task that may leave something else behind when it fails. -/
def tries (f g : ρ → σ → σ) : Item σ ρ :=
  .task fun r s =>
    match Answer.outcome r with
    | .ok => (f r s, .ok)
    | _ => (if Answer.half r then g r s else s, .failed)

def acts (f : ρ → σ → σ) : Item σ ρ := tries f f

def notes (f : ρ → σ → σ) : Item σ ρ := .task fun r s => (f r s, .ok)

def gate (c : σ → Bool) : Item σ ρ := .task fun _ s => (s, if c s then .ok else .failed)

def command : Item σ ρ := observes fun _ s => s

/-- What a task that loops keeps of its items: whether one of them failed. -/
structure Tally (σ : Type) where
  clear : σ → σ
  note : σ → σ
  failed : σ → Bool

/-- An item of a loop may be refused, and have its effect although it failed; the
items behind it are gone through all the same. -/
def attempt (t : Tally σ) (f : σ → σ × Bool) : Item σ ρ :=
  .task fun r s =>
    match Answer.outcome r with
    | .ok => (if (f s).2 then (f s).1 else t.note (f s).1, .ok)
    | _ => (t.note (if Answer.half r then (f s).1 else s), .ok)

/-- A task that loops, and fails behind its last item if one of them failed. -/
def loops (t : Tally σ) (items : List (σ → σ × Bool)) : List (Item σ ρ) :=
  notes (fun _ s => t.clear s) :: items.map (attempt t) ++ [gate fun s => !t.failed s]

/-! ## Plays on a state of their own -/

/-- Nobody else acts, the invariant holds at every step, and each step is one
of `step`. -/
def Contract.alone (inv : σ → Prop) (step : σ → σ → Prop) (hrefl : ∀ s, step s s) :
    Contract σ where
  rely _ _ := False
  guar s s' := (inv s → inv s') ∧ step s s'
  inv := inv
  guar_refl s := ⟨fun h => h, hrefl s⟩
  inv_rely _ _ _ h := h.elim
  inv_guar _ _ hs h := h.1 hs

section Alone

variable {inv : σ → Prop} {step : σ → σ → Prop} {hrefl : ∀ s, step s s}

instance {P : σ → Prop} : Stable (Contract.alone inv step hrefl) P where
  stable _ _ _ h := h.elim

variable (inv step hrefl) in
/-- From `P`, the items run to `Q` if they do not fail. -/
abbrev Leads (P : σ → Prop) (items : List (Item σ ρ)) (Q : σ → Prop) : Prop :=
  Triple (Contract.alone inv step hrefl) P items Q fun _ => True

variable {P Q : σ → Prop} {items : List (Item σ ρ)}

theorem leads_observes {f : ρ → σ → σ}
    (h : ∀ s r, inv s → P s → inv (f r s) ∧ step s (f r s) ∧ Q (f r s)) :
    Leads inv step hrefl P [observes f] Q := by
  apply Triple.task
  intro s r hinv hs
  obtain ⟨hinv', hstep, hQ⟩ := h s r hinv hs
  cases Answer.outcome r with
  | ok => exact ⟨⟨fun _ => hinv', hstep⟩, hQ⟩
  | again => exact ⟨⟨fun _ => hinv, hrefl s⟩, hs⟩
  | failed => exact ⟨⟨fun _ => hinv, hrefl s⟩, trivial⟩

theorem leads_tries {f g : ρ → σ → σ}
    (h : ∀ s r, inv s → P s → inv (f r s) ∧ step s (f r s) ∧ Q (f r s))
    (h' : ∀ s r, inv s → P s → inv (g r s) ∧ step s (g r s)) :
    Leads inv step hrefl P [tries f g] Q := by
  apply Triple.task
  intro s r hinv hs
  obtain ⟨hinv', hstep, hQ⟩ := h s r hinv hs
  have hfailed : (Contract.alone inv step hrefl).guar s (if Answer.half r then g r s else s) := by
    cases Answer.half r with
    | true =>
      obtain ⟨hinv'', hstep'⟩ := h' s r hinv hs
      exact ⟨fun _ => hinv'', hstep'⟩
    | false => exact ⟨fun _ => hinv, hrefl s⟩
  cases Answer.outcome r with
  | ok => exact ⟨⟨fun _ => hinv', hstep⟩, hQ⟩
  | again => exact ⟨hfailed, trivial⟩
  | failed => exact ⟨hfailed, trivial⟩

theorem leads_acts {f : ρ → σ → σ}
    (h : ∀ s r, inv s → P s → inv (f r s) ∧ step s (f r s) ∧ Q (f r s)) :
    Leads inv step hrefl P [acts f] Q := by
  apply leads_tries h
  intro s r hinv hs
  obtain ⟨hinv', hstep, -⟩ := h s r hinv hs
  exact ⟨hinv', hstep⟩

omit [Answer ρ] in
theorem leads_notes {f : ρ → σ → σ}
    (h : ∀ s r, inv s → P s → inv (f r s) ∧ step s (f r s) ∧ Q (f r s)) :
    Leads inv step hrefl P [notes f] Q := by
  apply Triple.task
  intro s r hinv hs
  obtain ⟨hinv', hstep, hQ⟩ := h s r hinv hs
  exact ⟨⟨fun _ => hinv', hstep⟩, hQ⟩

omit [Answer ρ] in
theorem leads_gate {c : σ → Bool} (h : ∀ s, inv s → P s → c s = true → Q s) :
    Leads inv step hrefl P [(gate c : Item σ ρ)] Q := by
  apply Triple.task
  intro s r hinv hs
  cases hc : c s with
  | true =>
    rw [if_pos rfl]
    exact ⟨⟨fun _ => hinv, hrefl s⟩, h s hinv hs hc⟩
  | false => exact ⟨⟨fun _ => hinv, hrefl s⟩, trivial⟩

theorem leads_command : Leads inv step hrefl P [(command : Item σ ρ)] P :=
  leads_observes fun s _ hinv hs => ⟨hinv, hrefl s, hs⟩

end Alone

/-! ## What the runs of a system may do -/

namespace System

variable {β ε : Type} {S : System σ ρ β ε} {C : Contract σ} {w : World σ ρ}

omit [Answer ρ] in
theorem run_append (moves later : List (Move ρ β ε)) (w : World σ ρ) :
    S.run (moves ++ later) w = S.run later (S.run moves w) :=
  List.foldl_append

omit [Answer ρ] in
/-- The next move of a run is one of the changes the contract allows. -/
theorem change_run (hkeeps : S.Keeps C) (hgood : Good C w) (moves : List (Move ρ β ε))
    (m : Move ρ β ε) :
    C.inv (S.run moves w).state ∧
      S.Change C (S.run moves w).state (S.run (moves ++ [m]) w).state := by
  have hreached := good_run hkeeps hgood moves
  rw [run_append]
  exact ⟨hreached.1, step_change hreached m⟩

end System

end Provisioner.Play
