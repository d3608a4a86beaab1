import Mathlib.Data.List.TakeWhile
import Provisioner.Library.Text

/-!
# Patterns at the start of a line

Regular expressions without alternatives or groups, matched from the start of a
line: texts that stand for themselves, runs of a class of characters, and `$`.
-/

namespace Provisioner.Pattern

inductive Atom where
  | text (t : Text)
  | many (p : Char → Bool) (least : ℕ)
  | finish

/-- `re.match`. `$` also matches before a line end that closes the text. -/
def here : List Atom → Text → Bool
  | [], _ => true
  | .text w :: rest, t => w.isPrefixOf t && here rest (t.drop w.length)
  | .many p least :: rest, t => (List.range ((t.takeWhile p).length + 1)).any fun k =>
      least ≤ k && here rest (t.drop k)
  | .finish :: rest, t => (t.isEmpty || t == ['\n']) && here rest t

/-- What the pieces of a matched text are. -/
inductive Matches : List Atom → Text → Prop where
  | nil (t : Text) : Matches [] t
  | text (w : Text) {rest : List Atom} {t : Text} : Matches rest t →
      Matches (.text w :: rest) (w ++ t)
  | many {p : Char → Bool} {least : ℕ} {rest : List Atom} (run : Text) {t : Text} :
      (∀ c ∈ run, p c = true) → least ≤ run.length → Matches rest t →
      Matches (.many p least :: rest) (run ++ t)
  | finish {rest : List Atom} {t : Text} : (t = [] ∨ t = ['\n']) → Matches rest t →
      Matches (.finish :: rest) t

theorem here_iff {atoms : List Atom} {t : Text} : here atoms t = true ↔ Matches atoms t := by
  induction atoms generalizing t with
  | nil => exact ⟨fun _ => .nil t, fun _ => rfl⟩
  | cons atom rest ih =>
    cases atom with
    | text w =>
      rw [here, Bool.and_eq_true, List.isPrefixOf_iff_prefix, ih]
      constructor
      · rintro ⟨⟨u, rfl⟩, hrest⟩
        rw [List.drop_left] at hrest
        exact .text w hrest
      · intro hmatch
        cases hmatch with
        | text _ hrest => exact ⟨⟨_, rfl⟩, by rwa [List.drop_left]⟩
    | many p least =>
      simp only [here, List.any_eq_true, List.mem_range, Bool.and_eq_true, decide_eq_true_eq, ih]
      constructor
      · rintro ⟨k, hk, hleast, hrest⟩
        have hrun : ∀ c ∈ t.take k, p c = true := by
          intro c hc
          have htake : t.take k = (t.takeWhile p).take k := by
            conv_lhs => rw [← List.takeWhile_append_dropWhile (p := p) (l := t)]
            exact List.take_append_of_le_length (by omega)
          rw [htake] at hc
          exact List.mem_takeWhile_imp (List.mem_of_mem_take hc)
        have hlength : (t.take k).length = k := by
          have hle := (List.takeWhile_prefix (p := p) (l := t)).length_le
          rw [List.length_take]
          omega
        rw [← List.take_append_drop k t]
        exact .many (t.take k) hrun (by omega) hrest
      · intro hmatch
        cases hmatch with
        | many run hrun hleast hrest =>
          refine ⟨run.length, ?_, hleast, by rwa [List.drop_left]⟩
          rw [List.takeWhile_append_of_pos hrun, List.length_append]
          omega
    | finish =>
      rw [here, Bool.and_eq_true, ih, Bool.or_eq_true, List.isEmpty_iff, beq_iff_eq]
      constructor
      · rintro ⟨hend, hrest⟩
        exact .finish hend hrest
      · intro hmatch
        cases hmatch with
        | finish hend hrest => exact ⟨hend, hrest⟩

theorem here_around {w w' : Text} {p : Char → Bool} {t : Text} :
    here [.text w, .many p 0, .text w'] t = true ↔
      ∃ before after, (∀ c ∈ before, p c = true) ∧ t = w ++ (before ++ (w' ++ after)) := by
  rw [here_iff]
  constructor
  · intro hmatch
    cases hmatch with
    | text _ hmatch =>
      cases hmatch with
      | many before hbefore _ hmatch =>
        cases hmatch with
        | text _ _ => exact ⟨before, _, hbefore, rfl⟩
  · rintro ⟨before, after, hbefore, rfl⟩
    exact .text w (.many before hbefore (Nat.zero_le _) (.text w' (.nil after)))

/-! ## Words with blanks between them -/

section Spaced

variable (p : Char → Bool)

def words (t : Text) : List Text := (t.splitOnP p).filter fun w => !w.isEmpty

/-- The words one after the other, some blanks between two and any around them. -/
def gaps : List Text → List Atom
  | [] => [.many p 0, .finish]
  | [w] => [.text w, .many p 0, .finish]
  | w :: next :: rest => .text w :: .many p 1 :: gaps (next :: rest)

def spaced (tokens : List Text) : List Atom := .many p 0 :: gaps p tokens

def Word (w : Text) : Prop := w ≠ [] ∧ ∀ c ∈ w, p c = false

variable {p}

theorem words_blank {c : Char} (hc : p c = true) (t : Text) : words p (c :: t) = words p t := by
  rw [words, List.splitOnP_cons_eq_if_modifyHead, if_pos hc]
  exact List.filter_cons_of_neg (by simp)

theorem words_blanks {run : Text} (hrun : ∀ c ∈ run, p c = true) (t : Text) :
    words p (run ++ t) = words p t := by
  induction run with
  | nil => rfl
  | cons c run ih =>
    obtain ⟨hc, hrun⟩ := List.forall_mem_cons.mp hrun
    rw [List.cons_append, words_blank hc, ih hrun]

theorem words_word {w : Text} (hw : Word p w) {c : Char} (hc : p c = true) (t : Text) :
    words p (w ++ c :: t) = w :: words p t := by
  rw [words, List.splitOnP_append_cons _ _ hc, List.splitOnP_eq_singleton hw.2]
  exact List.filter_cons_of_pos (by simpa using hw.1)

theorem words_last {w : Text} (hw : Word p w) : words p w = [w] := by
  rw [words, List.splitOnP_eq_singleton hw.2]
  exact List.filter_cons_of_pos (by simpa using hw.1)

theorem words_last_blanks {w run : Text} (hw : Word p w) (hrun : ∀ c ∈ run, p c = true) :
    words p (w ++ run) = [w] := by
  cases run with
  | nil => rw [List.append_nil, words_last hw]
  | cons c run =>
    obtain ⟨hc, hrun⟩ := List.forall_mem_cons.mp hrun
    have hnone := words_blanks hrun []
    rw [List.append_nil] at hnone
    rw [words_word hw hc, hnone]
    rfl

theorem words_join {tokens : List Text} (htokens : ∀ w ∈ tokens, Word p w) {c : Char}
    (hc : p c = true) : words p ([c].intercalate tokens) = tokens := by
  induction tokens with
  | nil => rfl
  | cons w rest ih =>
    obtain ⟨hw, hrest⟩ := List.forall_mem_cons.mp htokens
    cases rest with
    | nil => rw [List.intercalate_singleton, words_last hw]
    | cons next rest =>
      rw [List.intercalate_cons_cons, List.append_assoc, List.singleton_append, words_word hw hc,
        ih hrest]

theorem words_inverse (t : Text) :
    (words p t = [] ∧ ∀ c ∈ t, p c = true) ∨
      ∃ run w, (∀ c ∈ run, p c = true) ∧ Word p w ∧
        (t = run ++ w ∧ words p t = [w] ∨
          ∃ c rest, p c = true ∧ t = run ++ (w ++ c :: rest) ∧ words p t = w :: words p rest) := by
  induction t with
  | nil => exact .inl ⟨rfl, fun c hc => by cases hc⟩
  | cons c t ih =>
    cases hc : p c with
    | true =>
      rw [words_blank hc]
      rcases ih with ⟨hnone, hall⟩ | ⟨run, w, hrun, hw, htail⟩
      · exact .inl ⟨hnone, List.forall_mem_cons.mpr ⟨hc, hall⟩⟩
      · refine .inr ⟨c :: run, w, List.forall_mem_cons.mpr ⟨hc, hrun⟩, hw, ?_⟩
        rcases htail with ⟨rfl, hwords⟩ | ⟨d, rest, hd, rfl, hwords⟩
        · exact .inl ⟨rfl, hwords⟩
        · exact .inr ⟨d, rest, hd, rfl, hwords⟩
    | false =>
      right
      have hone : Word p [c] := ⟨List.cons_ne_nil _ _, by simpa using hc⟩
      cases t with
      | nil =>
        exact ⟨[], [c], fun x hx => (List.not_mem_nil hx).elim, hone, .inl ⟨rfl, words_last hone⟩⟩
      | cons d t =>
        cases hd : p d with
        | true =>
          exact ⟨[], [c], fun x hx => (List.not_mem_nil hx).elim, hone,
            .inr ⟨d, t, hd, rfl, words_word hone hd t⟩⟩
        | false =>
          rcases ih with ⟨-, hall⟩ | ⟨run, w, hrun, hw, htail⟩
          · rw [hall d List.mem_cons_self] at hd
            cases hd
          · have hnil : run = [] := by
              cases run with
              | nil => rfl
              | cons e run =>
                have hhead : d = e := by
                  rcases htail with ⟨heq, -⟩ | ⟨f, rest, -, heq, -⟩
                  · exact (List.cons.inj heq).1
                  · exact (List.cons.inj heq).1
                rw [hhead, hrun e List.mem_cons_self] at hd
                cases hd
            subst hnil
            have hlong : Word p (c :: w) :=
              ⟨List.cons_ne_nil _ _, List.forall_mem_cons.mpr ⟨hc, hw.2⟩⟩
            refine ⟨[], c :: w, hrun, hlong, ?_⟩
            rcases htail with ⟨heq, -⟩ | ⟨f, rest, hf, heq, -⟩
            · rw [heq]
              exact .inl ⟨rfl, words_last hlong⟩
            · rw [heq]
              exact .inr ⟨f, rest, hf, rfl, words_word hlong hf rest⟩

theorem words_eq_nil {t : Text} (hwords : words p t = []) : ∀ c ∈ t, p c = true := by
  rcases words_inverse t with ⟨-, hall⟩ | ⟨run, w, -, -, ⟨-, hone⟩ | ⟨c, rest, -, -, hmore⟩⟩
  · exact hall
  · rw [hone] at hwords
    cases hwords
  · rw [hmore] at hwords
    cases hwords

theorem words_append_blanks (t : Text) {run : Text} (hrun : ∀ c ∈ run, p c = true) :
    words p (t ++ run) = words p t := by
  induction hn : t.length using Nat.strong_induction_on generalizing t with
  | h n ih =>
    rcases words_inverse t with ⟨hnone, hall⟩ | ⟨blanks, w, hblanks, hw, htail⟩
    · have hempty := words_blanks hrun []
      rw [List.append_nil] at hempty
      rw [words_blanks hall, hempty, hnone]
      rfl
    · rcases htail with ⟨rfl, hone⟩ | ⟨c, rest, hc, rfl, hmore⟩
      · rw [List.append_assoc, words_blanks hblanks, words_last_blanks hw hrun, hone]
      · have hlength : rest.length < n := by
          rw [← hn]
          simp only [List.length_append, List.length_cons]
          omega
        rw [hmore, ← ih rest.length hlength rest rfl, List.append_assoc, words_blanks hblanks,
          List.append_assoc, List.cons_append, words_word hw hc]

theorem words_of_gaps {tokens : List Text} (hne : tokens ≠ []) (htokens : ∀ w ∈ tokens, Word p w)
    (hend : p '\n' = true) {t : Text} (hmatch : Matches (gaps p tokens) t) :
    words p t = tokens := by
  induction tokens generalizing t with
  | nil => exact absurd rfl hne
  | cons w rest ih =>
    obtain ⟨hw, hrest⟩ := List.forall_mem_cons.mp htokens
    cases rest with
    | nil =>
      cases hmatch with
      | text _ hmatch =>
        cases hmatch with
        | many run hrun _ hmatch =>
          cases hmatch with
          | finish hfinish _ =>
            rcases hfinish with rfl | rfl
            · rw [List.append_nil]
              exact words_last_blanks hw hrun
            · refine words_last_blanks hw fun c hc => ?_
              rcases List.mem_append.mp hc with hc | hc
              · exact hrun c hc
              · rw [List.mem_singleton.mp hc]
                exact hend
    | cons next rest =>
      cases hmatch with
      | text _ hmatch =>
        cases hmatch with
        | many run hrun hleast hmatch =>
          have hwords := ih (List.cons_ne_nil _ _) hrest hmatch
          cases run with
          | nil => cases hleast
          | cons c run =>
            obtain ⟨hc, hrun⟩ := List.forall_mem_cons.mp hrun
            rw [List.cons_append, words_word hw hc, words_blanks hrun, hwords]

theorem gaps_of_words {tokens : List Text} (hne : tokens ≠ []) {t : Text}
    (hwords : words p t = tokens) :
    ∃ run t', (∀ c ∈ run, p c = true) ∧ t = run ++ t' ∧ Matches (gaps p tokens) t' := by
  induction tokens generalizing t with
  | nil => exact absurd rfl hne
  | cons token rest ih =>
    rcases words_inverse t with ⟨hnone, -⟩ | ⟨run, w, hrun, hw, htail⟩
    · rw [hnone] at hwords
      cases hwords
    · rcases htail with ⟨rfl, hone⟩ | ⟨c, behind, hc, rfl, hmore⟩
      · rw [hone] at hwords
        obtain ⟨rfl, rfl⟩ := List.cons.inj hwords
        refine ⟨run, w, hrun, rfl, ?_⟩
        have hmatch : Matches [.many p 0, .finish] [] :=
          .many [] (fun c hc => (List.not_mem_nil hc).elim) (Nat.zero_le _) (.finish (.inl rfl) (.nil _))
        have htext := Matches.text w hmatch
        rwa [List.append_nil] at htext
      · rw [hmore] at hwords
        obtain ⟨rfl, hrest⟩ := List.cons.inj hwords
        refine ⟨run, w ++ c :: behind, hrun, rfl, ?_⟩
        cases rest with
        | nil =>
          have hall := words_eq_nil hrest
          have hmatch : Matches [.many p 0, .finish] ((c :: behind) ++ []) :=
            .many (c :: behind) (List.forall_mem_cons.mpr ⟨hc, hall⟩) (Nat.zero_le _)
              (.finish (.inl rfl) (.nil _))
          rw [List.append_nil] at hmatch
          exact .text w hmatch
        | cons next rest =>
          obtain ⟨run', t', hrun', rfl, hmatch⟩ := ih (List.cons_ne_nil _ _) hrest
          exact .text w (.many (c :: run') (List.forall_mem_cons.mpr ⟨hc, hrun'⟩)
            (Nat.succ_le_succ (Nat.zero_le _)) hmatch)

/-- The expression matches the lines with these words and no others. -/
theorem here_spaced {tokens : List Text} (hne : tokens ≠ []) (htokens : ∀ w ∈ tokens, Word p w)
    (hend : p '\n' = true) {t : Text} : here (spaced p tokens) t = true ↔ words p t = tokens := by
  rw [here_iff, spaced]
  constructor
  · intro hmatch
    cases hmatch with
    | many run hrun _ hmatch => rw [words_blanks hrun, words_of_gaps hne htokens hend hmatch]
  · intro hwords
    obtain ⟨run, t', hrun, rfl, hmatch⟩ := gaps_of_words hne hwords
    exact .many run hrun (Nat.zero_le _) hmatch

end Spaced

end Provisioner.Pattern
