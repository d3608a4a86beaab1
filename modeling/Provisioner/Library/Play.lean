import Mathlib.Tactic.Common

/-!
# Plays and their proof rules

A play is a list of tasks, conditional includes and blocks with a rescue. It
runs one step at a time, and between two steps anything the surroundings may
do can happen. The rules prove, for every such run, that each step of the play
keeps to a guarantee; assertions that hold at a point of the play have to be
stable under what the surroundings do.
-/

namespace Provisioner.Play

inductive Outcome where
  | ok
  | again
  | failed
deriving DecidableEq, Repr

abbrev Task (σ ρ : Type) := ρ → σ → σ × Outcome

inductive Item (σ ρ : Type) where
  | task (run : Task σ ρ)
  | incl (cond : σ → Bool) (body : List (Item σ ρ))
  | block (body rescue : List (Item σ ρ))

structure Frame (σ ρ : Type) where
  todo : List (Item σ ρ)
  rescue : Option (List (Item σ ρ))

abbrev Stack (σ ρ : Type) := List (Frame σ ρ)

variable {σ ρ : Type}

def fail : Stack σ ρ → Stack σ ρ
  | [] => []
  | ⟨_, none⟩ :: rest => fail rest
  | ⟨_, some rescue⟩ :: rest => ⟨rescue, none⟩ :: rest

def tick (r : ρ) (s : σ) : Stack σ ρ → σ × Stack σ ρ
  | [] => (s, [])
  | ⟨[], _⟩ :: rest => (s, rest)
  | ⟨.task run :: todo, rescue⟩ :: rest =>
    match run r s with
    | (s', .ok) => (s', ⟨todo, rescue⟩ :: rest)
    | (s', .again) => (s', ⟨.task run :: todo, rescue⟩ :: rest)
    | (s', .failed) => (s', fail (⟨todo, rescue⟩ :: rest))
  | ⟨.incl cond body :: todo, rescue⟩ :: rest =>
    (s, ⟨(if cond s then body else []) ++ todo, rescue⟩ :: rest)
  | ⟨.block body onFailure :: todo, rescue⟩ :: rest =>
    (s, ⟨body, some onFailure⟩ :: ⟨todo, rescue⟩ :: rest)

/-- What the surroundings may do, what each step of the play must be, and an
invariant that both keep. -/
structure Contract (σ : Type) where
  rely : σ → σ → Prop
  guar : σ → σ → Prop
  inv : σ → Prop
  guar_refl : ∀ s, guar s s
  inv_rely : ∀ s s', inv s → rely s s' → inv s'
  inv_guar : ∀ s s', inv s → guar s s' → inv s'

variable (C : Contract σ)

def SafeFor : Nat → σ → Stack σ ρ → Prop
  | 0, _, _ => True
  | n + 1, s, stack => C.inv s →
    (∀ s', C.rely s s' → SafeFor n s' stack) ∧
      ∀ r, C.guar s (tick r s stack).1 ∧ SafeFor n (tick r s stack).1 (tick r s stack).2

def Safe (s : σ) (stack : Stack σ ρ) : Prop := ∀ n, SafeFor C n s stack

variable {C}

theorem Safe.rely {s s' : σ} {stack : Stack σ ρ} (h : Safe C s stack) (hinv : C.inv s)
    (hrely : C.rely s s') : Safe C s' stack :=
  fun n => (h (n + 1) hinv).1 s' hrely

theorem Safe.guar {s : σ} {stack : Stack σ ρ} (h : Safe C s stack) (hinv : C.inv s) (r : ρ) :
    C.guar s (tick r s stack).1 :=
  ((h 1 hinv).2 r).1

theorem Safe.tick {s : σ} {stack : Stack σ ρ} (h : Safe C s stack) (hinv : C.inv s) (r : ρ) :
    Safe C (tick r s stack).1 (tick r s stack).2 :=
  fun n => ((h (n + 1) hinv).2 r).2

theorem Safe.of_inv {s : σ} {stack : Stack σ ρ} (h : C.inv s → Safe C s stack) :
    Safe C s stack := by
  intro n
  cases n with
  | zero => trivial
  | succ n => exact fun hinv => h hinv (n + 1) hinv

variable (C) in
/-- `P` is not undone by the surroundings. -/
class Stable (P : σ → Prop) : Prop where
  stable : ∀ s s', C.inv s → C.rely s s' → P s → P s'

instance {p : Prop} : Stable C fun _ => p where
  stable _ _ _ _ h := h

instance {P Q : σ → Prop} [Stable C P] [Stable C Q] : Stable C fun s => P s ∧ Q s where
  stable s s' hinv hrely h := ⟨Stable.stable s s' hinv hrely h.1, Stable.stable s s' hinv hrely h.2⟩

theorem safe_nil (s : σ) : Safe C s ([] : Stack σ ρ) := by
  intro n
  induction n generalizing s with
  | zero => trivial
  | succ n ih => exact fun _ => ⟨fun s' _ => ih s', fun _ => ⟨C.guar_refl s, ih s⟩⟩

/-- Safety of a stack from a stable assertion, by one step of it: the step may
leave the stack as it is, or lead to one that is safe. -/
theorem safe_of_step {P : σ → Prop} [Stable C P] {stack : Stack σ ρ}
    (hstep : ∀ s r, C.inv s → P s → C.guar s (tick r s stack).1 ∧
      ((tick r s stack).2 = stack ∧ P (tick r s stack).1 ∨
        Safe C (tick r s stack).1 (tick r s stack).2)) {s : σ} (hP : P s) : Safe C s stack := by
  intro n
  induction n generalizing s with
  | zero => trivial
  | succ n ih =>
    intro hinv
    refine ⟨fun s' hrely => ih (Stable.stable s s' hinv hrely hP), fun r => ?_⟩
    obtain ⟨hguar, ⟨hsame, hP'⟩ | hsafe⟩ := hstep s r hinv hP
    · refine ⟨hguar, ?_⟩
      rw [hsame]
      exact ih hP'
    · exact ⟨hguar, hsafe n⟩

variable (C) in
/-- From `P`, the items run to `Q`, or fail with `F`. -/
def Triple (P : σ → Prop) (items : List (Item σ ρ)) (Q F : σ → Prop) : Prop :=
  ∀ todo rescue (rest : Stack σ ρ),
    (∀ s, Q s → Safe C s (⟨todo, rescue⟩ :: rest)) →
      (∀ s, F s → Safe C s (fail (⟨todo, rescue⟩ :: rest))) →
        ∀ s, P s → Safe C s (⟨items ++ todo, rescue⟩ :: rest)

variable {P P' Q Q' M F F' : σ → Prop} {items items' : List (Item σ ρ)}

theorem Triple.conseq (h : Triple C P items Q F) (hP : ∀ s, C.inv s → P' s → P s)
    (hQ : ∀ s, C.inv s → Q s → Q' s) (hF : ∀ s, C.inv s → F s → F' s) :
    Triple C P' items Q' F' := by
  intro todo rescue rest hdone hfail s hs
  apply Safe.of_inv
  intro hinv
  exact h todo rescue rest (fun t ht => Safe.of_inv fun ht' => hdone t (hQ t ht' ht))
    (fun t ht => Safe.of_inv fun ht' => hfail t (hF t ht' ht)) s (hP s hinv hs)

theorem Triple.pre (h : Triple C P items Q F) (hP : ∀ s, C.inv s → P' s → P s) :
    Triple C P' items Q F :=
  h.conseq hP (fun _ _ hs => hs) fun _ _ hs => hs

theorem Triple.post (h : Triple C P items Q F) (hQ : ∀ s, C.inv s → Q s → Q' s) :
    Triple C P items Q' F :=
  h.conseq (fun _ _ hs => hs) hQ fun _ _ hs => hs

theorem Triple.nil : Triple C P ([] : List (Item σ ρ)) P F :=
  fun _ _ _ hdone _ s hs => hdone s hs

theorem Triple.append (h : Triple C P items M F) (h' : Triple C M items' Q F) :
    Triple C P (items ++ items') Q F := by
  intro todo rescue rest hdone hfail s hs
  rw [List.append_assoc]
  refine h (items' ++ todo) rescue rest (h' todo rescue rest hdone hfail) ?_ s hs
  -- the failed frame forgets its remaining items
  cases rescue <;> exact hfail

theorem Triple.cons {item : Item σ ρ} (h : Triple C P [item] M F) (h' : Triple C M items Q F) :
    Triple C P (item :: items) Q F :=
  h.append h'

/-- A case split on a fact the play cannot see. -/
theorem Triple.cases {ι : Type} {R : ι → σ → Prop} (h : ∀ i, Triple C (R i) items Q F)
    (hP : ∀ s, C.inv s → P s → ∃ i, R i s) : Triple C P items Q F := by
  intro todo rescue rest hdone hfail s hs
  apply Safe.of_inv
  intro hinv
  obtain ⟨i, hi⟩ := hP s hinv hs
  exact h i todo rescue rest hdone hfail s hi

theorem Triple.task [Stable C P] {run : Task σ ρ}
    (h : ∀ s r, C.inv s → P s → C.guar s (run r s).1 ∧
      match (run r s).2 with
      | .ok => Q (run r s).1
      | .again => P (run r s).1
      | .failed => F (run r s).1) : Triple C P [.task run] Q F := by
  intro todo rescue rest hdone hfail s hs
  refine safe_of_step (P := P) (fun s r hinv hs => ?_) hs
  have hrun := h s r hinv hs
  rcases heq : run r s with ⟨s', _ | _ | _⟩ <;> rw [heq] at hrun <;>
    simp only [List.cons_append, List.nil_append, tick, heq]
  · exact ⟨hrun.1, .inr (hdone s' hrun.2)⟩
  · exact ⟨hrun.1, .inl ⟨trivial, hrun.2⟩⟩
  · exact ⟨hrun.1, .inr (hfail s' hrun.2)⟩

theorem Triple.incl [Stable C P] {cond : σ → Bool}
    (hbody : Triple C (fun s => P s ∧ cond s = true) items Q F)
    (hskip : ∀ s, C.inv s → P s → cond s = false → Q s) :
    Triple C P [.incl cond items] Q F := by
  intro todo rescue rest hdone hfail s hs
  refine safe_of_step (P := P) (fun s r hinv hs => ⟨C.guar_refl s, .inr ?_⟩) hs
  change Safe C s (⟨(if cond s then items else []) ++ todo, rescue⟩ :: rest)
  cases hcond : cond s with
  | true => exact hbody todo rescue rest hdone hfail s ⟨hs, hcond⟩
  | false => exact hdone s (hskip s hinv hs hcond)

theorem Triple.block [Stable C P] [Stable C Q] (hbody : Triple C P items Q F')
    (hrescue : Triple C F' items' Q F) : Triple C P [.block items items'] Q F := by
  intro todo rescue rest hdone hfail s hs
  have hpop : ∀ onFailure : Option (List (Item σ ρ)), ∀ t, Q t →
      Safe C t (⟨[], onFailure⟩ :: ⟨todo, rescue⟩ :: rest) :=
    fun onFailure t ht =>
      safe_of_step (P := Q) (fun t r _ ht => ⟨C.guar_refl t, .inr (hdone t ht)⟩) ht
  refine safe_of_step (P := P) (fun s r hinv hs => ⟨C.guar_refl s, .inr ?_⟩) hs
  change Safe C s (⟨items, some items'⟩ :: ⟨todo, rescue⟩ :: rest)
  have hstart := hbody [] (some items') (⟨todo, rescue⟩ :: rest) (hpop _) ?_ s hs
  · rwa [List.append_nil] at hstart
  · intro t ht
    have hfailed := hrescue [] none (⟨todo, rescue⟩ :: rest) (hpop _) hfail t ht
    rwa [List.append_nil] at hfailed

theorem Triple.incl_true [Stable C P] {cond : σ → Bool} (h : Triple C P items Q F)
    (hcond : ∀ s, P s → cond s = true) : Triple C P [.incl cond items] Q F := by
  apply Triple.incl
  · exact h.pre fun _ _ hs => hs.1
  · intro s _ hs hskip
    rw [hcond s hs] at hskip
    cases hskip

theorem Triple.incl_false [Stable C P] {cond : σ → Bool} (hcond : ∀ s, P s → cond s = false) :
    Triple C P [.incl cond items] P F := by
  apply Triple.incl
  · intro todo rescue rest _ _ s hs
    rw [hcond s hs.1] at hs
    cases hs.2
  · exact fun _ _ hs _ => hs

/-- A whole play: from `P`, nothing it does breaks the guarantee. -/
theorem Triple.safe (h : Triple C P items Q F) {s : σ} (hs : P s) :
    Safe C s [⟨items, none⟩] := by
  have hstart := h [] none [] (fun t _ => ?_) (fun t _ => safe_nil t) s hs
  · rwa [List.append_nil] at hstart
  · exact safe_of_step (P := fun _ => True) (fun t r _ _ => ⟨C.guar_refl t, .inr (safe_nil t)⟩)
      trivial

/-! ## Systems of runs -/

/-- What a run starts from, the play it follows, and what others may do. -/
structure System (σ ρ β ε : Type) where
  boot : β → σ → σ
  play : β → List (Item σ ρ)
  outside : ε → σ → σ

structure World (σ ρ : Type) where
  state : σ
  stack : Stack σ ρ

inductive Move (ρ β ε : Type) where
  | start (b : β)
  | tick (r : ρ)
  | interrupt
  | outside (e : ε)

namespace System

variable {β ε : Type} (S : System σ ρ β ε)

/-- One run at a time: a run starts when none is going on. -/
def step (w : World σ ρ) : Move ρ β ε → World σ ρ
  | .start b =>
    match w.stack with
    | [] => ⟨S.boot b w.state, [⟨S.play b, none⟩]⟩
    | _ :: _ => w
  | .tick r => ⟨(Play.tick r w.state w.stack).1, (Play.tick r w.state w.stack).2⟩
  | .interrupt => ⟨w.state, []⟩
  | .outside e => ⟨S.outside e w.state, w.stack⟩

def run (moves : List (Move ρ β ε)) (w : World σ ρ) : World σ ρ := moves.foldl S.step w

structure Keeps (C : Contract σ) : Prop where
  boot_inv : ∀ b s, C.inv s → C.inv (S.boot b s)
  boot_safe : ∀ b s, C.inv s → Safe C (S.boot b s) [⟨S.play b, none⟩]
  outside_rely : ∀ e s, C.rely s (S.outside e s)

inductive Change (C : Contract σ) : σ → σ → Prop where
  | same (s : σ) : Change C s s
  | boot (b : β) (s : σ) : Change C s (S.boot b s)
  | play {s s' : σ} : C.guar s s' → Change C s s'
  | outside (e : ε) (s : σ) : Change C s (S.outside e s)

def Good (C : Contract σ) (w : World σ ρ) : Prop := C.inv w.state ∧ Safe C w.state w.stack

variable {S} {w : World σ ρ}

theorem step_change (hgood : Good C w) (m : Move ρ β ε) :
    S.Change C w.state (S.step w m).state := by
  obtain ⟨hinv, hsafe⟩ := hgood
  cases m with
  | start b =>
    rw [step]
    split
    · exact .boot b w.state
    · exact .same w.state
  | tick r => exact .play (hsafe.guar hinv r)
  | interrupt => exact .same w.state
  | outside e => exact .outside e w.state

theorem good_step (hkeeps : S.Keeps C) (hgood : Good C w) (m : Move ρ β ε) :
    Good C (S.step w m) := by
  obtain ⟨hinv, hsafe⟩ := hgood
  cases m with
  | start b =>
    rw [step]
    split
    · exact ⟨hkeeps.boot_inv b _ hinv, hkeeps.boot_safe b _ hinv⟩
    · exact ⟨hinv, hsafe⟩
  | tick r => exact ⟨C.inv_guar _ _ hinv (hsafe.guar hinv r), hsafe.tick hinv r⟩
  | interrupt => exact ⟨hinv, safe_nil _⟩
  | outside e =>
    have hrely := hkeeps.outside_rely e w.state
    exact ⟨C.inv_rely _ _ hinv hrely, hsafe.rely hinv hrely⟩

theorem good_run (hkeeps : S.Keeps C) (hgood : Good C w) (moves : List (Move ρ β ε)) :
    Good C (S.run moves w) := by
  induction moves generalizing w with
  | nil => exact hgood
  | cons m moves ih => exact ih (good_step hkeeps hgood m)

theorem run_induction (hkeeps : S.Keeps C) (hgood : Good C w) {R : σ → Prop}
    (hstep : ∀ s s', C.inv s → S.Change C s s' → R s → R s') (hR : R w.state)
    (moves : List (Move ρ β ε)) : R (S.run moves w).state := by
  induction moves generalizing w with
  | nil => exact hR
  | cons m moves ih =>
    exact ih (good_step hkeeps hgood m) (hstep _ _ hgood.1 (step_change hgood m) hR)

end System

end Provisioner.Play
