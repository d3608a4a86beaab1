import Mathlib.Data.List.TakeWhile
import Provisioner.Library.Text

/-!
# Keeping a line in a file

`lineinfile` replaces the last line that its expression matches and adds its
line at the end where none does. The lines are read with their line ends, so a
file is its lines joined.
-/

namespace Provisioner.LineInFile

def readlines : Text → List Text
  | [] => []
  | c :: rest =>
    if c = '\n' then ['\n'] :: readlines rest
    else
      match readlines rest with
      | [] => [[c]]
      | row :: rows => (c :: row) :: rows

def replaceLast {α : Type} (p : α → Bool) (new : α) : List α → Option (List α)
  | [] => none
  | a :: rest =>
    match replaceLast p new rest with
    | some edited => some (a :: edited)
    | none => if p a then some (new :: rest) else none

/-- `rstrip('\r\n')`. -/
def rstripEnd (row : Text) : Text :=
  (row.reverse.dropWhile fun c => c == '\r' || c == '\n').reverse

theorem rstripEnd_append (row : Text) :
    ∃ ends, (∀ c ∈ ends, c = '\r' ∨ c = '\n') ∧ row = rstripEnd row ++ ends := by
  refine ⟨(row.reverse.takeWhile fun c => c == '\r' || c == '\n').reverse, ?_, ?_⟩
  · intro c hc
    simpa using List.mem_takeWhile_imp (List.mem_reverse.mp hc)
  · rw [rstripEnd, ← List.reverse_append, List.takeWhile_append_dropWhile, List.reverse_reverse]

/-- The module with `state: present`, on the content of the file. -/
def lineinfile (regexp : Option (Text → Bool)) (line content : Text) : Text :=
  let bLines := readlines content
  let new := if line.getLast? = some '\n' then line else line ++ ['\n']
  match regexp.bind fun matching => replaceLast matching new bLines with
  | some edited => edited.flatten
  | none =>
    match replaceLast (fun row => rstripEnd row == line) new bLines with
    | some edited => edited.flatten
    | none =>
      -- no line end is put before the line where the file ends with one, or with a return
      (if content.getLast? ∈ [none, some '\n', some '\r'] then content else content ++ ['\n']) ++
        (line ++ ['\n'])

def withEnd (content : Text) : Text :=
  if content.getLast? ∈ [none, some '\n', some '\r'] then content else content ++ ['\n']

/-! ## Rows -/

def Ended (row : Text) : Prop := ∃ body, '\n' ∉ body ∧ row = body ++ ['\n']

def Unended (row : Text) : Prop := row ≠ [] ∧ '\n' ∉ row

def Rows : List Text → Prop
  | [] => True
  | row :: rows => (Ended row ∨ rows = [] ∧ Unended row) ∧ Rows rows

theorem readlines_ended {row : Text} (hrow : Ended row) (t : Text) :
    readlines (row ++ t) = row :: readlines t := by
  obtain ⟨body, hbody, rfl⟩ := hrow
  induction body with
  | nil => rfl
  | cons c body ih =>
    rw [List.mem_cons, not_or] at hbody
    rw [List.cons_append, List.cons_append, readlines, if_neg (Ne.symm hbody.1), ih hbody.2]

theorem readlines_unended {row : Text} (hrow : Unended row) : readlines row = [row] := by
  obtain ⟨hne, hrow⟩ := hrow
  induction row with
  | nil => exact absurd rfl hne
  | cons c row ih =>
    rw [List.mem_cons, not_or] at hrow
    rw [readlines, if_neg (Ne.symm hrow.1)]
    cases row with
    | nil => rfl
    | cons d row => rw [ih (List.cons_ne_nil _ _) hrow.2]

theorem readlines_flatten {rows : List Text} (hrows : Rows rows) : readlines rows.flatten = rows := by
  induction rows with
  | nil => rfl
  | cons row rows ih =>
    obtain ⟨hrow | ⟨rfl, hrow⟩, hrest⟩ := hrows
    · rw [List.flatten_cons, readlines_ended hrow, ih hrest]
    · rw [List.flatten_cons, List.flatten_nil, List.append_nil, readlines_unended hrow]

theorem flatten_readlines (t : Text) : (readlines t).flatten = t := by
  induction t with
  | nil => rfl
  | cons c t ih =>
    rw [readlines]
    split
    · rename_i hc
      rw [List.flatten_cons, ih, hc]
      rfl
    · split
      · rename_i hnone
        rw [hnone] at ih
        rw [← ih]
        rfl
      · rename_i row rows hrows
        rw [hrows] at ih
        rw [← ih]
        rfl

theorem rows_readlines (t : Text) : Rows (readlines t) := by
  induction t with
  | nil => trivial
  | cons c t ih =>
    rw [readlines]
    split
    · exact ⟨.inl ⟨[], List.not_mem_nil, rfl⟩, ih⟩
    · rename_i hc
      have hne : '\n' ≠ c := fun heq => hc heq.symm
      split
      · exact ⟨.inr ⟨rfl, List.cons_ne_nil _ _, by simpa using hne⟩, trivial⟩
      · rename_i row rows hrows
        rw [hrows] at ih
        obtain ⟨⟨body, hbody, rfl⟩ | ⟨rfl, hrow⟩, hrest⟩ := ih
        · exact ⟨.inl ⟨c :: body, by simp [hne, hbody], rfl⟩, hrest⟩
        · exact ⟨.inr ⟨rfl, List.cons_ne_nil _ _, by simp [hne, hrow.2]⟩, trivial⟩

theorem Rows.cons_of_ne_nil {row : Text} {rows : List Text} (hrows : Rows (row :: rows))
    (hne : rows ≠ []) : Ended row ∧ Rows rows := by
  obtain ⟨hrow | ⟨hnil, -⟩, hrest⟩ := hrows
  · exact ⟨hrow, hrest⟩
  · exact absurd hnil hne

theorem Rows.replace {before after : List Text} {old new : Text} (hnew : Ended new)
    (hrows : Rows (before ++ old :: after)) : Rows (before ++ new :: after) := by
  induction before with
  | nil => exact ⟨.inl hnew, hrows.2⟩
  | cons row before ih =>
    obtain ⟨hrow, hrest⟩ := hrows.cons_of_ne_nil (by simp)
    exact ⟨.inl hrow, ih hrest⟩

/-! ## The last match -/

section Last

variable {α : Type} {p : α → Bool} {new : α}

theorem replaceLast_none {l : List α} : replaceLast p new l = none ↔ ∀ a ∈ l, p a = false := by
  induction l with
  | nil => simp [replaceLast]
  | cons a l ih =>
    rw [replaceLast, List.forall_mem_cons]
    cases hrest : replaceLast p new l with
    | some edited =>
      rw [hrest] at ih
      simp only [reduceCtorEq, false_iff, not_and]
      intro _ hnone
      exact absurd (ih.mpr hnone) (by simp)
    | none =>
      rw [hrest] at ih
      cases hp : p a with
      | true => simp
      | false => simpa using ih.mp rfl

theorem replaceLast_append {before after : List α} {old : α} (hold : p old = true)
    (hafter : ∀ a ∈ after, p a = false) :
    replaceLast p new (before ++ old :: after) = some (before ++ new :: after) := by
  induction before with
  | nil =>
    rw [List.nil_append, replaceLast, replaceLast_none.mpr hafter]
    exact if_pos hold
  | cons a before ih => rw [List.cons_append, replaceLast, ih, List.cons_append]

/-- Without an expression the line is added where no row is the same. -/
theorem lineinfile_append {line content : Text}
    (hnone : ∀ row ∈ readlines content, rstripEnd row ≠ line) :
    lineinfile none line content = withEnd content ++ (line ++ ['\n']) := by
  have hlast : ∀ new, replaceLast (fun row => rstripEnd row == line) new (readlines content) = none :=
    fun new => replaceLast_none.mpr fun row hrow => by simpa using hnone row hrow
  simp only [lineinfile, Option.bind_none, hlast]
  rfl

theorem mem_readlines {row content : Text} (hrow : row ∈ readlines content) :
    ∃ before after, content = before ++ (row ++ after) ∧
      before.getLast? ∈ [none, some '\n', some '\r'] := by
  obtain ⟨rows, rest, hsplit⟩ := List.append_of_mem hrow
  have hrows := rows_readlines content
  have hflat := flatten_readlines content
  rw [hsplit] at hrows hflat
  refine ⟨rows.flatten, rest.flatten, by rw [← hflat]; simp, ?_⟩
  clear hsplit hflat
  induction rows with
  | nil => exact List.mem_cons_self
  | cons first rows ih =>
    obtain ⟨hfirst, hrest⟩ := hrows.cons_of_ne_nil (by simp)
    obtain ⟨body, -, rfl⟩ := hfirst
    rw [List.flatten_cons, List.getLast?_append]
    have hrows := ih hrest
    cases hlast : rows.flatten.getLast? with
    | none => simp
    | some c =>
      rw [hlast] at hrows
      exact hrows

def LastIs (p : α → Bool) (a : α) (l : List α) : Prop :=
  ∃ before after, l = before ++ a :: after ∧ p a = true ∧ ∀ b ∈ after, p b = false

theorem exists_last {l : List α} (hl : ¬ ∀ a ∈ l, p a = false) : ∃ a, LastIs p a l := by
  induction l with
  | nil => exact absurd (fun a ha => by cases ha) hl
  | cons a l ih =>
    by_cases hrest : ∀ b ∈ l, p b = false
    · have ha : p a = true := by
        by_contra ha
        exact hl (List.forall_mem_cons.mpr ⟨by simpa using ha, hrest⟩)
      exact ⟨a, [], l, rfl, ha, hrest⟩
    · obtain ⟨b, before, after, rfl, hb, hafter⟩ := ih hrest
      exact ⟨b, a :: before, after, rfl, hb, hafter⟩

end Last

/-! ## One edit -/

def finish : List Text → List Text
  | [] => []
  | [row] => [if row.getLast? = some '\n' then row else row ++ ['\n']]
  | row :: next :: rows => row :: finish (next :: rows)

def edit (regexp : Text → Bool) (line : Text) (rows : List Text) : List Text :=
  match replaceLast regexp (line ++ ['\n']) rows with
  | some edited => edited
  | none => finish rows ++ [line ++ ['\n']]

theorem ended_line {line : Text} (hline : '\n' ∉ line) : Ended (line ++ ['\n']) := ⟨line, hline, rfl⟩

theorem Ended.getLast? {row : Text} (hrow : Ended row) : row.getLast? = some '\n' := by
  obtain ⟨body, -, rfl⟩ := hrow
  exact List.getLast?_concat

theorem ended_finish {rows : List Text} (hrows : Rows rows) : ∀ row ∈ finish rows, Ended row := by
  induction rows with
  | nil => intro row hrow; cases hrow
  | cons first rows ih =>
    cases rows with
    | nil =>
      intro row hrow
      rw [finish, List.mem_singleton] at hrow
      rw [hrow]
      obtain ⟨hfirst | ⟨-, hfirst⟩, -⟩ := hrows
      · rw [if_pos hfirst.getLast?]
        exact hfirst
      · rw [if_neg]
        · exact ⟨first, hfirst.2, rfl⟩
        · exact fun hlast => hfirst.2 (List.mem_of_getLast? hlast)
    | cons next rows =>
      obtain ⟨hfirst, hrest⟩ := hrows.cons_of_ne_nil (List.cons_ne_nil _ _)
      intro row hrow
      rw [finish, List.mem_cons] at hrow
      rcases hrow with rfl | hrow
      · exact hfirst
      · exact ih hrest row hrow

theorem rows_of_ended {rows : List Text} (hrows : ∀ row ∈ rows, Ended row) : Rows rows := by
  induction rows with
  | nil => trivial
  | cons row rows ih =>
    obtain ⟨hrow, hrest⟩ := List.forall_mem_cons.mp hrows
    exact ⟨.inl hrow, ih hrest⟩

theorem rows_edit {regexp : Text → Bool} {line : Text} {rows : List Text} (hline : '\n' ∉ line)
    (hrows : Rows rows) : Rows (edit regexp line rows) := by
  rw [edit]
  split
  · rename_i edited hedited
    by_cases hnone : ∀ row ∈ rows, regexp row = false
    · rw [replaceLast_none.mpr hnone] at hedited
      cases hedited
    · obtain ⟨old, before, after, rfl, hold, hafter⟩ := exists_last hnone
      rw [replaceLast_append hold hafter] at hedited
      cases hedited
      exact hrows.replace (ended_line hline)
  · refine rows_of_ended fun row hrow => ?_
    rcases List.mem_append.mp hrow with hrow | hrow
    · exact ended_finish hrows row hrow
    · rw [List.mem_singleton.mp hrow]
      exact ended_line hline

theorem Rows.ne_nil {row : Text} {rows : List Text} (hrows : Rows (row :: rows)) : row ≠ [] := by
  obtain ⟨⟨body, -, rfl⟩ | ⟨-, hrow⟩, -⟩ := hrows
  · simp
  · exact hrow.1

theorem getLast_flatten {rows : List Text} (hrows : Rows rows) :
    rows.flatten.getLast? = rows.getLast?.bind List.getLast? := by
  induction rows with
  | nil => rfl
  | cons row rows ih =>
    cases rows with
    | nil => rw [List.flatten_cons, List.flatten_nil, List.append_nil]; rfl
    | cons next rows =>
      have hrest := (hrows.cons_of_ne_nil (List.cons_ne_nil _ _)).2
      have hne : (next :: rows).flatten ≠ [] := by
        rw [List.flatten_cons]
        exact fun hnil => hrest.ne_nil (List.append_eq_nil_iff.mp hnil).1
      rw [List.flatten_cons, List.getLast?_append_of_ne_nil _ hne, ih hrest,
        List.getLast?_cons_cons]

theorem flatten_finish {rows : List Text} (hrows : Rows rows) : (finish rows).flatten =
    if rows.flatten.getLast? = none ∨ rows.flatten.getLast? = some '\n' then rows.flatten
    else rows.flatten ++ ['\n'] := by
  rw [getLast_flatten hrows]
  induction rows with
  | nil => rfl
  | cons row rows ih =>
    cases rows with
    | nil =>
      have hne : row.getLast? ≠ none := by
        rw [Ne, List.getLast?_eq_none_iff]
        exact hrows.ne_nil
      simp only [finish, List.flatten_cons, List.flatten_nil, List.append_nil,
        List.getLast?_singleton, Option.bind_some, hne, false_or]
    | cons next rows =>
      rw [finish, List.flatten_cons, ih (hrows.cons_of_ne_nil (List.cons_ne_nil _ _)).2,
        List.getLast?_cons_cons, List.flatten_cons (l := row)]
      split
      · rfl
      · rw [List.append_assoc]

/-- Where the file does not end with a return, the edit is one of its lines. -/
theorem readlines_lineinfile {regexp : Text → Bool} {line content : Text} (hline : '\n' ∉ line)
    (hexact : ∀ row, rstripEnd row = line → regexp row = true)
    (hreturn : content.getLast? ≠ some '\r') :
    readlines (lineinfile (some regexp) line content) = edit regexp line (readlines content) := by
  have hnew : ¬ line.getLast? = some '\n' := fun hlast => hline (List.mem_of_getLast? hlast)
  have hrows : Rows (edit regexp line (readlines content)) := rows_edit hline (rows_readlines content)
  unfold lineinfile
  simp only [if_neg hnew, Option.bind_some]
  rw [← readlines_flatten hrows, edit]
  cases hreplace : replaceLast regexp (line ++ ['\n']) (readlines content) with
  | some edited => rfl
  | none =>
    have hother : replaceLast (fun row => rstripEnd row == line) (line ++ ['\n'])
        (readlines content) = none := by
      refine replaceLast_none.mpr fun row hrow => ?_
      have hno := replaceLast_none.mp hreplace row hrow
      have hne : rstripEnd row ≠ line := by
        intro heq
        rw [hexact row heq] at hno
        cases hno
      simpa using hne
    dsimp only
    rw [hother]
    dsimp only
    rw [List.flatten_append, flatten_finish (rows_readlines content), flatten_readlines]
    have hends : content.getLast? ∈ [none, some '\n', some '\r'] ↔
        content.getLast? = none ∨ content.getLast? = some '\n' := by
      simp [hreturn]
    simp only [hends, List.flatten_cons, List.flatten_nil, List.append_nil]

theorem getLast_edit {regexp : Text → Bool} {line : Text} {rows : List Text} (hline : '\n' ∉ line)
    (hrows : Rows rows) (hreturn : rows.flatten.getLast? ≠ some '\r') :
    (edit regexp line rows).flatten.getLast? ≠ some '\r' := by
  rw [getLast_flatten (rows_edit hline hrows)]
  rw [getLast_flatten hrows] at hreturn
  rw [edit]
  split
  · rename_i edited hedited
    by_cases hnone : ∀ row ∈ rows, regexp row = false
    · rw [replaceLast_none.mpr hnone] at hedited
      cases hedited
    · obtain ⟨old, before, after, rfl, hold, hafter⟩ := exists_last hnone
      rw [replaceLast_append hold hafter] at hedited
      cases hedited
      cases after with
      | nil => simp
      | cons next after => simpa [List.getLast?_append] using hreturn
  · simp

inductive Grown (R : Text → Text → Prop) (added : Text → Prop) : List Text → List Text → Prop where
  | nil {extra : List Text} : (∀ line ∈ extra, added line) → Grown R added [] extra
  | cons {line line' : Text} {rows rows' : List Text} : R line line' → Grown R added rows rows' →
      Grown R added (line :: rows) (line' :: rows')

theorem Grown.comp {R S T : Text → Text → Prop} {A B C : Text → Prop} {rows rows' rows'' : List Text}
    (hfirst : Grown R A rows rows') (hnext : Grown S B rows' rows'')
    (hT : ∀ line line' line'', R line line' → S line' line'' → T line line'')
    (hA : ∀ line line', A line → S line line' → C line') (hB : ∀ line, B line → C line) :
    Grown T C rows rows'' := by
  induction hfirst generalizing rows'' with
  | nil hextra =>
    refine .nil ?_
    induction hnext with
    | nil hmore => exact fun line hline => hB line (hmore line hline)
    | cons hS _ ih =>
      obtain ⟨hline, hextra⟩ := List.forall_mem_cons.mp hextra
      exact List.forall_mem_cons.mpr ⟨hA _ _ hline hS, ih hextra⟩
  | cons hR _ ih =>
    cases hnext with
    | cons hS hnext => exact .cons (hT _ _ _ hR hS) (ih hnext)

/-! ## A task that loops over keys -/

section Keyed

variable {κ : Type} (regexp : κ → Text → Bool)

def run (items : List (κ × Text)) (content : Text) : Text :=
  items.foldl (fun content item => lineinfile (some (regexp item.1)) item.2 content) content

def edits (items : List (κ × Text)) (rows : List Text) : List Text :=
  items.foldl (fun rows item => edit (regexp item.1) item.2 rows) rows

def row (item : κ × Text) : Text := item.2 ++ ['\n']

/-- An expression matches the line of its own key and of no other, whatever
ends the line. -/
structure Keyed (items : List (κ × Text)) : Prop where
  single : ∀ item ∈ items, '\n' ∉ item.2
  own : ∀ item ∈ items, regexp item.1 (row item) = true
  exactly : ∀ item ∈ items, ∀ line, rstripEnd line = item.2 → regexp item.1 line = true
  other : ∀ item ∈ items, ∀ item' ∈ items, regexp item'.1 (row item) = true → item'.1 = item.1
  finish : ∀ item ∈ items, ∀ line, regexp item.1 (line ++ ['\n']) = regexp item.1 line

/-- A line after some of the edits: as it was, with its end, or the line of a
key whose expression matched it. -/
inductive Held (items : List (κ × Text)) (line : Text) : Text → Prop where
  | kept : Held items line line
  | ended : line.getLast? ≠ some '\n' → Held items line (line ++ ['\n'])
  | replaced (item : κ × Text) : item ∈ items → regexp item.1 line = true →
      Held items line (row item)

inductive Touch (item : κ × Text) (line : Text) : Text → Prop where
  | kept : Touch item line line
  | ended : line.getLast? ≠ some '\n' → Touch item line (line ++ ['\n'])
  | replaced : regexp item.1 line = true → Touch item line (row item)

variable {regexp}

theorem edits_append (items items' : List (κ × Text)) (rows : List Text) :
    edits regexp (items ++ items') rows = edits regexp items' (edits regexp items rows) :=
  List.foldl_append

theorem touch_finish (item : κ × Text) (rows : List Text) :
    Grown (Touch regexp item) (· = row item) rows (finish rows ++ [row item]) := by
  induction rows with
  | nil => exact .nil fun line hline => List.mem_singleton.mp hline
  | cons first rows ih =>
    cases rows with
    | nil =>
      refine .cons ?_ (.nil fun line hline => List.mem_singleton.mp hline)
      split
      · exact .kept
      · rename_i hfirst
        exact .ended hfirst
    | cons next rows => exact .cons .kept ih

theorem touch_edit (item : κ × Text) (rows : List Text) :
    Grown (Touch regexp item) (· = row item) rows (edit (regexp item.1) item.2 rows) := by
  have hsame : ∀ rows : List Text,
      Grown (Touch regexp item) (· = row item) rows rows := by
    intro rows
    induction rows with
    | nil => exact .nil fun line hline => by cases hline
    | cons first rows ih => exact .cons .kept ih
  rw [edit]
  by_cases hnone : ∀ line ∈ rows, regexp item.1 line = false
  · rw [replaceLast_none.mpr hnone]
    exact touch_finish item rows
  · obtain ⟨old, before, after, rfl, hold, hafter⟩ := exists_last hnone
    rw [replaceLast_append hold hafter]
    clear hnone
    induction before with
    | nil => exact .cons (.replaced hold) (hsame after)
    | cons first before ih => exact .cons .kept ih

theorem Held.touch {items : List (κ × Text)} (hkeyed : Keyed regexp items) {item : κ × Text}
    (hitem : item ∈ items) {line line' line'' : Text} (hheld : Held regexp items line line')
    (htouch : Touch regexp item line' line'') : Held regexp items line line'' := by
  cases hheld with
  | kept =>
    cases htouch with
    | kept => exact .kept
    | ended hlast => exact .ended hlast
    | replaced hmatch => exact .replaced item hitem hmatch
  | ended hopen =>
    cases htouch with
    | kept => exact .ended hopen
    | ended hlast => exact absurd List.getLast?_concat hlast
    | replaced hmatch =>
      rw [hkeyed.finish item hitem] at hmatch
      exact .replaced item hitem hmatch
  | replaced other hother hmatched =>
    cases htouch with
    | kept => exact .replaced other hother hmatched
    | ended hlast => exact absurd List.getLast?_concat hlast
    | replaced hmatch =>
      rw [← hkeyed.other other hother item hitem hmatch] at hmatched
      exact .replaced item hitem hmatched

theorem grown_edits {items all : List (κ × Text)} (hkeyed : Keyed regexp all) (hsub : items ⊆ all)
    {rows rows' : List Text}
    (hrows : Grown (Held regexp all) (fun line => ∃ item ∈ all, line = row item) rows rows') :
    Grown (Held regexp all) (fun line => ∃ item ∈ all, line = row item) rows
      (edits regexp items rows') := by
  induction items generalizing rows' with
  | nil => exact hrows
  | cons item items ih =>
    obtain ⟨hitem, hsub⟩ := List.cons_subset.mp hsub
    refine ih hsub (hrows.comp (touch_edit item rows') ?_ ?_ ?_)
    · intro line line' line'' hheld htouch
      exact hheld.touch hkeyed hitem htouch
    · rintro line line' ⟨other, hother, rfl⟩ htouch
      cases htouch with
      | kept => exact ⟨other, hother, rfl⟩
      | ended hlast => exact absurd List.getLast?_concat hlast
      | replaced => exact ⟨item, hitem, rfl⟩
    · rintro line rfl
      exact ⟨item, hitem, rfl⟩

/-- The lines of the file stay, in order, but for those that an expression
matched; what is added are lines of the items. -/
theorem edits_keep {items : List (κ × Text)} (hkeyed : Keyed regexp items) (rows : List Text) :
    Grown (Held regexp items) (fun line => ∃ item ∈ items, line = row item) rows
      (edits regexp items rows) := by
  refine grown_edits hkeyed (List.Subset.refl _) ?_
  induction rows with
  | nil => exact .nil fun line hline => by cases hline
  | cons first rows ih => exact .cons .kept ih

theorem edit_last {item : κ × Text} {before after : List Text} {old : Text}
    (hold : regexp item.1 old = true) (hafter : ∀ line ∈ after, regexp item.1 line = false) :
    edit (regexp item.1) item.2 (before ++ old :: after) = before ++ row item :: after := by
  rw [edit, replaceLast_append hold hafter]
  rfl

theorem last_edit {items : List (κ × Text)} (hkeyed : Keyed regexp items) {item : κ × Text}
    (hitem : item ∈ items) (rows : List Text) :
    LastIs (regexp item.1) (row item) (edit (regexp item.1) item.2 rows) := by
  by_cases hnone : ∀ line ∈ rows, regexp item.1 line = false
  · rw [edit, replaceLast_none.mpr hnone]
    exact ⟨finish rows, [], rfl, hkeyed.own item hitem, fun line hline => by cases hline⟩
  · obtain ⟨old, before, after, rfl, hold, hafter⟩ := exists_last hnone
    rw [edit_last hold hafter]
    exact ⟨before, after, rfl, hkeyed.own item hitem, hafter⟩

theorem finish_middle (before : List Text) (item : κ × Text) (after : List Text) :
    finish (before ++ row item :: after) = before ++ row item :: finish after := by
  induction before with
  | nil =>
    cases after with
    | nil => exact congrArg (fun line => [line]) (if_pos List.getLast?_concat)
    | cons next after => rfl
  | cons first before ih =>
    cases before with
    | nil => exact congrArg (List.cons first) ih
    | cons second before => exact congrArg (List.cons first) ih

theorem mem_finish {rows : List Text} {line : Text} (hline : line ∈ finish rows) :
    ∃ line' ∈ rows, line = line' ∨ line = line' ++ ['\n'] := by
  induction rows with
  | nil => cases hline
  | cons first rows ih =>
    cases rows with
    | nil =>
      rw [finish, List.mem_singleton] at hline
      refine ⟨first, List.mem_cons_self, ?_⟩
      rw [hline]
      split
      · exact .inl rfl
      · exact .inr rfl
    | cons next rows =>
      rw [finish] at hline
      rcases List.mem_cons.mp hline with rfl | hline
      · exact ⟨line, List.mem_cons_self, .inl rfl⟩
      · obtain ⟨line', hline', hend⟩ := ih hline
        exact ⟨line', List.mem_cons_of_mem _ hline', hend⟩

theorem split_two {α : Type} {before after before' after' : List α} {x y : α}
    (hsplit : before ++ x :: after = before' ++ y :: after') (hne : x ≠ y) :
    (∃ middle, before' = before ++ x :: middle ∧ after = middle ++ y :: after') ∨
      ∃ middle, before = before' ++ y :: middle ∧ after' = middle ++ x :: after := by
  rcases List.append_eq_append_iff.mp hsplit with ⟨rest, rfl, hrest⟩ | ⟨rest, rfl, hrest⟩
  · cases rest with
    | nil => exact absurd (List.cons.inj hrest).1 hne
    | cons z rest =>
      obtain ⟨rfl, rfl⟩ := List.cons.inj hrest
      exact .inl ⟨rest, rfl, rfl⟩
  · cases rest with
    | nil => exact absurd (List.cons.inj hrest).1.symm hne
    | cons z rest =>
      obtain ⟨rfl, rfl⟩ := List.cons.inj hrest
      exact .inr ⟨rest, rfl, rfl⟩

/-- The edit for one key leaves the line of another one the last of its own. -/
theorem last_edit_other {items : List (κ × Text)} (hkeyed : Keyed regexp items)
    {item item' : κ × Text} (hitem : item ∈ items) (hitem' : item' ∈ items)
    (hne : item'.1 ≠ item.1) {rows : List Text}
    (hlast : LastIs (regexp item.1) (row item) rows) :
    LastIs (regexp item.1) (row item) (edit (regexp item'.1) item'.2 rows) := by
  have hapart : regexp item.1 (row item') = false := by
    by_contra hmatch
    exact hne (hkeyed.other item' hitem' item hitem (by simpa using hmatch)).symm
  have hapart' : regexp item'.1 (row item) = false := by
    by_contra hmatch
    exact hne (hkeyed.other item hitem item' hitem' (by simpa using hmatch))
  obtain ⟨before, after, rfl, hown, hafter⟩ := hlast
  by_cases hnone : ∀ line ∈ before ++ row item :: after, regexp item'.1 line = false
  · rw [edit, replaceLast_none.mpr hnone]
    change LastIs _ _ (finish (before ++ row item :: after) ++ [row item'])
    rw [finish_middle]
    refine ⟨before, finish after ++ [row item'], by simp, hown, fun line hline => ?_⟩
    rcases List.mem_append.mp hline with hline | hline
    · obtain ⟨line', hline', rfl | rfl⟩ := mem_finish hline
      · exact hafter line hline'
      · rw [hkeyed.finish item hitem]
        exact hafter line' hline'
    · rw [List.mem_singleton.mp hline]
      exact hapart
  · obtain ⟨old, before', after', hsplit, hold, hafter'⟩ := exists_last hnone
    rw [hsplit, edit_last hold hafter']
    have hdiffer : row item ≠ old := by
      rintro rfl
      rw [hapart'] at hold
      cases hold
    rcases split_two hsplit hdiffer with ⟨middle, rfl, rfl⟩ | ⟨middle, rfl, rfl⟩
    · refine ⟨before, middle ++ row item' :: after', by simp, hown, fun line hline => ?_⟩
      rcases List.mem_append.mp hline with hline | hline
      · exact hafter line (List.mem_append_left _ hline)
      · rcases List.mem_cons.mp hline with rfl | hline
        · exact hapart
        · exact hafter line (List.mem_append_right _ (List.mem_cons_of_mem _ hline))
    · exact ⟨before' ++ row item' :: middle, after, by simp, hown, hafter⟩

def Final (regexp : κ → Text → Bool) (items : List (κ × Text)) (rows : List Text) : Prop :=
  ∀ before item after, items = before ++ item :: after → (∀ other ∈ after, other.1 ≠ item.1) →
    LastIs (regexp item.1) (row item) rows

theorem last_edits_other {items all : List (κ × Text)} (hkeyed : Keyed regexp all)
    (hsub : items ⊆ all) {item : κ × Text} (hitem : item ∈ all)
    (hne : ∀ other ∈ items, other.1 ≠ item.1) {rows : List Text}
    (hlast : LastIs (regexp item.1) (row item) rows) :
    LastIs (regexp item.1) (row item) (edits regexp items rows) := by
  induction items generalizing rows with
  | nil => exact hlast
  | cons other items ih =>
    obtain ⟨hother, hsub⟩ := List.cons_subset.mp hsub
    obtain ⟨hne, hrest⟩ := List.forall_mem_cons.mp hne
    exact ih hsub hrest (last_edit_other hkeyed hitem hother hne hlast)

theorem final_edits {items : List (κ × Text)} (hkeyed : Keyed regexp items) (rows : List Text) :
    Final regexp items (edits regexp items rows) := by
  rintro before item after rfl hne
  have hitem : item ∈ before ++ item :: after := List.mem_append_right _ List.mem_cons_self
  rw [edits_append]
  refine last_edits_other hkeyed ?_ hitem hne (last_edit hkeyed hitem _)
  exact fun other hother => List.mem_append_right _ (List.mem_cons_of_mem _ hother)

def Slot (regexp : κ → Text → Bool) (items : List (κ × Text)) (item : κ × Text) (rows : List Text) :
    Prop :=
  ∃ held ∈ items, held.1 = item.1 ∧ LastIs (regexp item.1) (row held) rows

theorem Slot.edit {all : List (κ × Text)} (hkeyed : Keyed regexp all) {item item' : κ × Text}
    (hitem' : item' ∈ all) {rows : List Text} (hslot : Slot regexp all item rows) :
    Slot regexp all item (edit (regexp item'.1) item'.2 rows) := by
  obtain ⟨held, hheld, hkey, hlast⟩ := hslot
  by_cases hsame : item'.1 = item.1
  · refine ⟨item', hitem', hsame, ?_⟩
    rw [← hsame]
    exact last_edit hkeyed hitem' rows
  · refine ⟨held, hheld, hkey, ?_⟩
    rw [← hkey] at hlast hsame ⊢
    exact last_edit_other hkeyed hheld hitem' hsame hlast

theorem slot_of_final {items all : List (κ × Text)} {rows : List Text}
    (hfinal : Final regexp items rows) (hsub : items ⊆ all) {item : κ × Text} (hitem : item ∈ items) :
    Slot regexp all item rows := by
  induction items generalizing item with
  | nil => cases hitem
  | cons first items ih =>
    obtain ⟨hfirst, hothers⟩ := List.cons_subset.mp hsub
    have hrest : Final regexp items rows := by
      rintro before other after rfl hne
      exact hfinal (first :: before) other after rfl hne
    rcases List.mem_cons.mp hitem with rfl | hitem
    · by_cases hlater : ∃ other ∈ items, other.1 = item.1
      · obtain ⟨other, hother, hsame⟩ := hlater
        obtain ⟨held, hheld, hkey, hlast⟩ := ih hrest hothers hother
        refine ⟨held, hheld, hkey.trans hsame, ?_⟩
        rwa [← hsame]
      · refine ⟨item, hfirst, rfl, hfinal [] item items rfl fun other hother hsame => ?_⟩
        exact hlater ⟨other, hother, hsame⟩
    · exact ih hrest hothers hitem

theorem edit_edit {all : List (κ × Text)} (hkeyed : Keyed regexp all) {item item' : κ × Text}
    (hitem : item ∈ all) (hkey : item'.1 = item.1) {rows : List Text}
    (hslot : Slot regexp all item rows) :
    edit (regexp item'.1) item'.2 (edit (regexp item.1) item.2 rows) =
      edit (regexp item'.1) item'.2 rows := by
  obtain ⟨held, -, -, before, after, rfl, hown, hafter⟩ := hslot
  rw [edit_last hown hafter]
  rw [← hkey] at hown hafter
  rw [edit_last hown hafter]
  refine edit_last ?_ hafter
  rw [hkey]
  exact hkeyed.own item hitem

theorem edit_comm_lines {item item' : κ × Text} {before middle after : List Text} {old old' : Text}
    (hold : regexp item.1 old = true) (hold' : regexp item'.1 old' = true)
    (hfirst : ∀ line ∈ middle ++ old' :: after, regexp item.1 line = false)
    (hlast : ∀ line ∈ after, regexp item'.1 line = false)
    (hapart : regexp item.1 (row item') = false) :
    edit (regexp item'.1) item'.2
        (edit (regexp item.1) item.2 (before ++ old :: (middle ++ old' :: after))) =
      edit (regexp item.1) item.2
        (edit (regexp item'.1) item'.2 (before ++ old :: (middle ++ old' :: after))) := by
  have hbehind : ∀ line ∈ middle ++ row item' :: after, regexp item.1 line = false := by
    intro line hline
    rcases List.mem_append.mp hline with hline | hline
    · exact hfirst line (List.mem_append_left _ hline)
    · rcases List.mem_cons.mp hline with rfl | hline
      · exact hapart
      · exact hfirst line (List.mem_append_right _ (List.mem_cons_of_mem _ hline))
  have hmove : ∀ new new' : Text, before ++ new :: (middle ++ new' :: after) =
      (before ++ new :: middle) ++ new' :: after := by
    intro new new'
    rw [List.append_assoc, List.cons_append]
  rw [edit_last hold hfirst, hmove (row item), edit_last hold' hlast, hmove old,
    edit_last hold' hlast, ← hmove old, edit_last hold hbehind, hmove]

theorem edit_comm {all : List (κ × Text)} (hkeyed : Keyed regexp all) {item item' : κ × Text}
    (hitem : item ∈ all) (hitem' : item' ∈ all) (hne : item'.1 ≠ item.1) {rows : List Text}
    (hslot : Slot regexp all item rows) (hslot' : Slot regexp all item' rows) :
    edit (regexp item'.1) item'.2 (edit (regexp item.1) item.2 rows) =
      edit (regexp item.1) item.2 (edit (regexp item'.1) item'.2 rows) := by
  have hapart : regexp item.1 (row item') = false := by
    by_contra hmatch
    exact hne (hkeyed.other item' hitem' item hitem (by simpa using hmatch)).symm
  have hapart' : regexp item'.1 (row item) = false := by
    by_contra hmatch
    exact hne (hkeyed.other item hitem item' hitem' (by simpa using hmatch))
  obtain ⟨held, hheld, hkey, before, after, rfl, hown, hafter⟩ := hslot
  obtain ⟨held', -, hkey', before', after', hsplit, hown', hafter'⟩ := hslot'
  have hdiffer : row held ≠ row held' := by
    intro heq
    rw [← heq] at hown'
    exact hne ((hkeyed.other held hheld item' hitem' hown').trans hkey)
  rcases split_two hsplit hdiffer with ⟨middle, rfl, rfl⟩ | ⟨middle, rfl, rfl⟩
  · exact edit_comm_lines hown hown' hafter hafter' hapart
  · rw [List.append_assoc, List.cons_append]
    exact (edit_comm_lines hown' hown hafter' hafter hapart').symm

theorem edits_edit {items all : List (κ × Text)} (hkeyed : Keyed regexp all) (hsub : items ⊆ all)
    {item : κ × Text} (hitem : item ∈ all) (hlater : ∃ other ∈ items, other.1 = item.1)
    {rows : List Text} (hslot : Slot regexp all item rows)
    (hslots : ∀ other ∈ items, Slot regexp all other rows) :
    edits regexp items (edit (regexp item.1) item.2 rows) = edits regexp items rows := by
  induction items generalizing rows with
  | nil =>
    obtain ⟨other, hother, -⟩ := hlater
    cases hother
  | cons next items ih =>
    obtain ⟨hnext, hsub⟩ := List.cons_subset.mp hsub
    obtain ⟨hslot', hslots⟩ := List.forall_mem_cons.mp hslots
    change edits regexp items (edit (regexp next.1) next.2 (edit (regexp item.1) item.2 rows)) =
      edits regexp items (edit (regexp next.1) next.2 rows)
    by_cases hkey : next.1 = item.1
    · rw [edit_edit hkeyed hitem hkey hslot]
    · rw [edit_comm hkeyed hitem hnext hkey hslot hslot']
      refine ih hsub ?_ (hslot.edit hkeyed hnext) fun other hother =>
        (hslots other hother).edit hkeyed hnext
      obtain ⟨other, hother, hsame⟩ := hlater
      rcases List.mem_cons.mp hother with rfl | hother
      · exact absurd hsame hkey
      · exact ⟨other, hother, hsame⟩

/-- Where every key has the line of its last item, the loop changes nothing. -/
theorem edits_same {items all : List (κ × Text)} (hkeyed : Keyed regexp all) (hsub : items ⊆ all)
    {rows : List Text} (hfinal : Final regexp items rows) : edits regexp items rows = rows := by
  induction items with
  | nil => rfl
  | cons item items ih =>
    obtain ⟨hitem, hsub⟩ := List.cons_subset.mp hsub
    have hrest : Final regexp items rows := by
      rintro before other after rfl hne
      exact hfinal (item :: before) other after rfl hne
    change edits regexp items (edit (regexp item.1) item.2 rows) = rows
    by_cases hlater : ∃ other ∈ items, other.1 = item.1
    · have hslots : ∀ other ∈ items, Slot regexp all other rows :=
        fun other hother => slot_of_final hrest hsub hother
      have hslot : Slot regexp all item rows := by
        obtain ⟨other, hother, hsame⟩ := hlater
        obtain ⟨held, hheld, hkey, hlast⟩ := hslots other hother
        refine ⟨held, hheld, hkey.trans hsame, ?_⟩
        rwa [← hsame]
      rw [edits_edit hkeyed hsub hitem hlater hslot hslots, ih hsub hrest]
    · have hne : ∀ other ∈ items, other.1 ≠ item.1 := fun other hother hsame =>
        hlater ⟨other, hother, hsame⟩
      obtain ⟨before, after, rfl, hown, hafter⟩ := hfinal [] item items rfl hne
      rw [edit_last hown hafter, ih hsub hrest]

theorem edits_edits {items : List (κ × Text)} (hkeyed : Keyed regexp items) (rows : List Text) :
    edits regexp items (edits regexp items rows) = edits regexp items rows :=
  edits_same hkeyed (List.Subset.refl _) (final_edits hkeyed rows)

/-! ## The loop on the file -/

theorem readlines_run {items all : List (κ × Text)} (hkeyed : Keyed regexp all) (hsub : items ⊆ all)
    {content : Text} (hreturn : content.getLast? ≠ some '\r') :
    readlines (run regexp items content) = edits regexp items (readlines content) ∧
      (run regexp items content).getLast? ≠ some '\r' := by
  induction items generalizing content with
  | nil => exact ⟨rfl, hreturn⟩
  | cons item items ih =>
    obtain ⟨hitem, hsub⟩ := List.cons_subset.mp hsub
    have hone := readlines_lineinfile (hkeyed.single item hitem) (hkeyed.exactly item hitem) hreturn
    have hlast : (lineinfile (some (regexp item.1)) item.2 content).getLast? ≠ some '\r' := by
      rw [← flatten_readlines (lineinfile _ _ _), hone]
      refine getLast_edit (hkeyed.single item hitem) (rows_readlines content) ?_
      rwa [flatten_readlines]
    obtain ⟨hrun, hend⟩ := ih hsub hlast
    refine ⟨?_, hend⟩
    rw [hone] at hrun
    exact hrun

theorem run_run {items : List (κ × Text)} (hkeyed : Keyed regexp items) {content : Text}
    (hreturn : content.getLast? ≠ some '\r') :
    run regexp items (run regexp items content) = run regexp items content := by
  obtain ⟨hrun, hend⟩ := readlines_run hkeyed (List.Subset.refl _) hreturn
  obtain ⟨hagain, -⟩ := readlines_run hkeyed (List.Subset.refl _) hend
  rw [← flatten_readlines (run regexp items (run regexp items content)), hagain, hrun,
    edits_edits hkeyed, ← hrun, flatten_readlines]

def chomp (line : Text) : Text := if line.getLast? = some '\n' then line.dropLast else line

def lines (content : Text) : List Text := (readlines content).map chomp

theorem chomp_concat (line : Text) : chomp (line ++ ['\n']) = line := by
  rw [chomp, if_pos List.getLast?_concat, List.dropLast_concat]

theorem chomp_cases (line : Text) : line = chomp line ∨ line = chomp line ++ ['\n'] := by
  rw [chomp]
  split
  · rename_i hlast
    exact .inr (List.dropLast_append_getLast? _ hlast).symm
  · exact .inl rfl

theorem Grown.imp {R S : Text → Text → Prop} {A B : Text → Prop} {rows rows' : List Text}
    (hgrown : Grown R A rows rows') (hR : ∀ line line', R line line' → S line line')
    (hA : ∀ line, A line → B line) : Grown S B rows rows' := by
  induction hgrown with
  | nil hextra => exact .nil fun line hline => hA line (hextra line hline)
  | cons hline _ ih => exact .cons (hR _ _ hline) ih

theorem Grown.map {R S : Text → Text → Prop} {A B : Text → Prop} {f : Text → Text}
    {rows rows' : List Text} (hgrown : Grown R A rows rows')
    (hR : ∀ line line', R line line' → S (f line) (f line')) (hA : ∀ line, A line → B (f line)) :
    Grown S B (rows.map f) (rows'.map f) := by
  induction hgrown with
  | nil hextra =>
    refine .nil fun line hline => ?_
    obtain ⟨line', hline', rfl⟩ := List.mem_map.mp hline
    exact hA line' (hextra line' hline')
  | cons hline _ ih => exact .cons (hR _ _ hline) ih

/-- The lines of the file stay, in order, but for those that an expression
matched; what is added are lines of the items. -/
theorem run_keeps {items : List (κ × Text)} (hkeyed : Keyed regexp items) {content : Text}
    (hreturn : content.getLast? ≠ some '\r') :
    Grown (fun line line' => line' = line ∨
        ∃ item ∈ items, regexp item.1 line = true ∧ line' = item.2)
      (fun line => ∃ item ∈ items, line = item.2) (lines content)
      (lines (run regexp items content)) := by
  rw [lines, lines, (readlines_run hkeyed (List.Subset.refl _) hreturn).1]
  refine (edits_keep hkeyed (readlines content)).map ?_ ?_
  · intro line line' hheld
    cases hheld with
    | kept => exact .inl rfl
    | ended hlast =>
      rw [chomp_concat, chomp, if_neg hlast]
      exact .inl rfl
    | replaced item hitem hmatch =>
      refine .inr ⟨item, hitem, ?_, chomp_concat _⟩
      rcases chomp_cases line with hline | hline
      · rwa [← hline]
      · rwa [hline, hkeyed.finish item hitem] at hmatch
  · rintro line ⟨item, hitem, rfl⟩
    exact ⟨item, hitem, chomp_concat _⟩

theorem exists_mem_run {items : List (κ × Text)} (hkeyed : Keyed regexp items) {content : Text}
    (hreturn : content.getLast? ≠ some '\r') {item : κ × Text} (hitem : item ∈ items) :
    ∃ held ∈ items, held.1 = item.1 ∧ held.2 ∈ lines (run regexp items content) := by
  rw [lines, (readlines_run hkeyed (List.Subset.refl _) hreturn).1]
  obtain ⟨held, hheld, hkey, rows, rest, hedits, -, -⟩ :=
    slot_of_final (final_edits hkeyed (readlines content)) (List.Subset.refl _) hitem
  refine ⟨held, hheld, hkey, ?_⟩
  rw [hedits]
  refine List.mem_map.mpr ⟨row held, ?_, chomp_concat _⟩
  exact List.mem_append_right _ List.mem_cons_self

end Keyed

end Provisioner.LineInFile
