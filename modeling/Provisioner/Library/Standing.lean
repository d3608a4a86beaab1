import Provisioner.Library.Behind
import Provisioner.Library.Lines
import Provisioner.Library.Words

/-!
# Where a setting stands in a file

A reader of lines takes the last one that begins with `KEY=`; the shell takes
whatever was assigned last. The two agree on a setting that stands on a line of
its own, behind whole commands, with nothing about it in what follows.
-/

namespace Provisioner.Shell

open Text (splitlines startswith strip lstrip rstrip isSpace isLineBreak IsTrimmed)

/-- The lines that begin with `KEY=`. -/
def found (key : Text) (lines : List Text) : List Text :=
  lines.filter fun line => startswith line (key ++ ['='])

structure Whole (part : Text) : Prop where
  ended : part.getLast? ∈ [none, some '\n']
  idle : ∀ h vars r, read h (.after vars) part = .ok r → ∃ vars', r = .after vars'

/-- Whole commands, none of which gives the key a value, on lines that do not
begin with it. -/
structure Silent (key part : Text) : Prop where
  ended : part.getLast? ∈ [none, some '\n']
  left : ∀ h vars r, read h (.after vars) part = .ok r →
    ∃ vars', r = .after vars' ∧ vars'.lookup key = vars.lookup key
  unread : found key (splitlines part) = []

def settingOf (key value padding : Text) : Text := key ++ ['='] ++ (value ++ padding)

/-- The key is set to the value, on a line of its own, for the last time. -/
inductive Stands (key value : Text) : Text → Prop where
  | line (before padding after : Text) : Whole before → Silent key after →
      (∀ c ∈ padding, isBlank c = true) → Stands key value
        (before ++ (settingOf key value padding ++ ['\n'] ++ after))

structure OneLine (value : Text) : Prop where
  trimmed : value = [] ∨ IsTrimmed value
  unbroken : ∀ c ∈ value, isLineBreak c = false

/-! ## Parts -/

theorem found_append (key : Text) (lines lines' : List Text) :
    found key (lines ++ lines') = found key lines ++ found key lines' := List.filter_append lines lines'

theorem ended_append {part part' : Text} (h : part.getLast? ∈ [none, some '\n'])
    (h' : part'.getLast? ∈ [none, some '\n']) :
    (part ++ part').getLast? ∈ [none, some '\n'] := by
  rw [List.getLast?_append]
  cases hlast : part'.getLast? with
  | none => simpa using h
  | some c =>
    rw [hlast] at h'
    simpa using h'

theorem splitlines_ended {part : Text} (h : part.getLast? ∈ [none, some '\n']) (rest : Text) :
    splitlines (part ++ rest) = splitlines part ++ splitlines rest := by
  apply Text.splitlines_append
  · simp only [List.mem_cons, List.not_mem_nil, or_false] at h ⊢
    exact h.imp_right .inl
  · intro hreturn
    rw [hreturn] at h
    simp at h

structure Makes (part : Text) (rows : List (Text × Text)) : Prop where
  ended : part.getLast? ∈ [none, some '\n']
  read : ∀ h vars, read h (.after vars) part = .ok (.after (rows ++ vars))

theorem Makes.whole {part : Text} {rows : List (Text × Text)} (h : Makes part rows) :
    Whole part := by
  refine ⟨h.ended, fun host vars r hread => ?_⟩
  rw [h.read host vars] at hread
  cases hread
  exact ⟨rows ++ vars, rfl⟩

theorem Makes.silent {key part : Text} {rows : List (Text × Text)} (h : Makes part rows)
    (hkey : rows.lookup key = none) (hunread : found key (splitlines part) = []) :
    Silent key part := by
  refine ⟨h.ended, fun host vars r hread => ?_, hunread⟩
  rw [h.read host vars] at hread
  cases hread
  exact ⟨rows ++ vars, rfl, by rw [List.lookup_append, hkey, Option.none_or]⟩

theorem Makes.append {part part' : Text} {rows rows' : List (Text × Text)} (h : Makes part rows)
    (h' : Makes part' rows') : Makes (part ++ part') (rows' ++ rows) := by
  refine ⟨ended_append h.ended h'.ended, fun host vars => ?_⟩
  rw [read_after (h.read host vars), h'.read, List.append_assoc]

theorem makes_comment {t : Text} (ht : '\n' ∉ t) : Makes ('#' :: t ++ ['\n']) [] :=
  ⟨by simp [List.getLast?_cons], fun _ vars => read_comment ht vars⟩

theorem makes_blank : Makes ['\n'] [] := ⟨by simp, fun _ vars => read_blank vars⟩

theorem expand_quoted (h : Host) (vars : List (Text × Text)) (fresh : Bool) (t : Text) :
    expand h vars fresh 0 (t.map fun c => .char c true) = .ok t := by
  induction t generalizing fresh with
  | nil => rfl
  | cons c t ih =>
    rw [List.map_cons, expand, Bool.not_true, Bool.and_false, Bool.false_and, ih]
    rfl

theorem read_single {h : Host} {r : Reader} (hmode : r.mode = .single) {t : Text}
    (ht : ∀ c ∈ t, c ≠ '\'' ∧ c.toNat ≠ 0) :
    read h r t = .ok { r with word := { r.word with
      value := r.word.value ++ t.map fun c => .char c true } } := by
  induction t generalizing r with
  | nil => rw [List.map_nil, List.append_nil, read_nil]
  | cons c t ih =>
    obtain ⟨⟨hquote, hnul⟩, ht⟩ := List.forall_mem_cons.mp ht
    have hstep : step h r c = .ok { r with word := r.word.add (.char c true) } := by
      rw [step, if_neg fun hc => hnul hc.1, hmode]
      simp [hquote]
    have hrest := ih (r := { r with word := r.word.add (.char c true) }) hmode ht
    simp only [Word.add, List.append_assoc, List.singleton_append] at hrest hstep
    rw [read_step hstep, hrest, List.map_cons]

theorem makes_quoted {key value : Text} (hkey : isName key = true) (hspecial : key ∉ special)
    (hvalue : ∀ c ∈ value, c ≠ '\'' ∧ c.toNat ≠ 0) :
    Makes (key ++ ['='] ++ ('\'' :: value ++ ['\'', '\n'])) [(key, value)] := by
  refine ⟨by simp [List.getLast?_cons], fun h vars => ?_⟩
  have htarget : read h (.after vars) (key ++ ['=']) =
      .ok { Reader.after vars with mode := .bare, word := { name := some key } } :=
    read_target rfl rfl hkey
  have hopen : step h { Reader.after vars with mode := .bare, word := { name := some key } } '\'' =
      .ok { Reader.after vars with mode := .single, word := { name := some key, quoted := true } } :=
    rfl
  have hinner := read_single (h := h) (r := { Reader.after vars with
    mode := .single, word := { name := some key, quoted := true } }) rfl hvalue
  generalize hw : Word.mk (some key) ([] ++ value.map fun c => .char c true) true = w at hinner
  have hcommand : command h vars [w] = .ok ((key, value) :: vars) := by
    have hassigns : [w].all (fun w => w.name.isSome) = true := by
      rw [← hw]
      rfl
    rw [command, if_pos hassigns, List.foldlM_cons, ← hw]
    simp only [assign, hspecial, if_false, List.nil_append, expand_quoted]
    rfl
  have hclose : step h { Reader.after vars with mode := .single, word := w } '\'' =
      .ok { Reader.after vars with mode := .bare, word := w } := rfl
  have hline : step h { Reader.after vars with mode := .bare, word := w } '\n' =
      .ok (.after ((key, value) :: vars)) := by
    change (command h vars [w]).map _ = _
    rw [hcommand]
    rfl
  rw [read_after htarget, List.cons_append, read_step hopen, read_after hinner, read_step hclose,
    read_step hline, read_nil]
  rfl

/-! ## The line itself -/

theorem read_padding {h : Host} {r : Reader} (hopen : r.Open) {padding : Text}
    (hblank : ∀ c ∈ padding, isBlank c = true) :
    read h r (padding ++ ['\n']) = read h r ['\n'] := by
  have hneutral : ∀ c, isBlank c = true ∨ c = '\n' → c.toNat ≠ 0 ∧
      (opensExpansion c = false ∧ c ≠ '\\' ∧ c ≠ '\'' ∧ c ≠ '"') := by
    intro c hc
    have hcases : c = ' ' ∨ c = '\t' ∨ c = '\n' := by
      rcases hc with hc | hc
      · rw [isBlank, Bool.or_eq_true, beq_iff_eq, beq_iff_eq] at hc
        exact hc.imp_right .inl
      · exact .inr (.inr hc)
    rcases hcases with rfl | rfl | rfl <;> decide
  have hrest : ∀ (s : Reader) (t : Text), s.mode = .between → (∀ c ∈ t, isBlank c = true) →
      read h s (t ++ ['\n']) = read h s ['\n'] := by
    intro s t hs ht
    induction t with
    | nil => rfl
    | cons c t ih =>
      obtain ⟨hc, ht⟩ := List.forall_mem_cons.mp ht
      have hstep : step h s c = .ok s := by
        rw [step, if_neg fun hnul => (hneutral c (.inl hc)).1 hnul.1, hs]
        simp [hc]
      rw [List.cons_append, read_step hstep]
      exact ih ht
  cases padding with
  | nil => rfl
  | cons c padding =>
    obtain ⟨hc, hblank⟩ := List.forall_mem_cons.mp hblank
    have hstep : step h r c = .ok (r.settle r.mode).close := by
      obtain ⟨hnul, hnext⟩ := hneutral c (.inl hc)
      rw [step_open hopen hnul fun _ => hnext, bare, if_pos hc]
    have hline : step h r '\n' = (r.settle r.mode).close.execute h := by
      rw [step_open hopen (by decide) fun _ => by decide]
      rfl
    rw [List.cons_append, read_step hstep, hrest _ padding rfl hblank, read_cons, read_cons, hline]
    rfl

theorem read_setting {h : Host} {key value padding : Text} (hkey : isName key = true)
    (hspecial : key ∉ special) (hvalue : Plain value)
    (hpadding : ∀ c ∈ padding, isBlank c = true) (vars : List (Text × Text)) :
    read h (.after vars) (settingOf key value padding ++ ['\n']) =
      .ok (.after ((key, value) :: vars)) := by
  obtain ⟨r, hread, hopen, -⟩ := read_bare (h := h)
    (r := { Reader.after vars with mode := .bare, word := { name := some key } }) (.inl rfl)
    hvalue.bare (fun hdollar => by cases hdollar) rfl
  have htarget : read h (.after vars) (key ++ ['=']) =
      .ok { Reader.after vars with mode := .bare, word := { name := some key } } :=
    read_target rfl rfl hkey
  have hplain := read_assignment (h := h) hkey hspecial hvalue vars
  rw [List.append_assoc, read_after htarget, read_after hread] at hplain
  rw [settingOf, List.append_assoc, read_after htarget, List.append_assoc, read_after hread,
    read_padding hopen hpadding, hplain]

theorem isSpace_of_blank {c : Char} (hc : isBlank c = true) : isSpace c = true := by
  rw [isBlank, Bool.or_eq_true, beq_iff_eq, beq_iff_eq] at hc
  rcases hc with rfl | rfl <;> decide

theorem strip_padded {value padding : Text} (hvalue : value = [] ∨ IsTrimmed value)
    (hpadding : ∀ c ∈ padding, isBlank c = true) : strip (value ++ padding) = value := by
  have hspace : ∀ c ∈ padding, isSpace c = true := fun c hc => isSpace_of_blank (hpadding c hc)
  rcases hvalue with rfl | htrimmed
  · have hnil : lstrip padding = [] := List.dropWhile_eq_nil_iff.mpr hspace
    rw [List.nil_append, strip, hnil]
    rfl
  · have hhead : ∃ c ∈ (value ++ padding).head?, isSpace c = false := by
      obtain ⟨c, hc, hnot⟩ := htrimmed.1
      exact ⟨c, by rw [List.head?_append, hc]; rfl, hnot⟩
    have hback : lstrip (padding.reverse ++ value.reverse) = lstrip value.reverse :=
      List.dropWhile_append_of_pos fun c hc => hspace c (List.mem_reverse.mp hc)
    have hsame := Text.strip_eq_self htrimmed
    rw [strip, Text.lstrip_eq_self htrimmed.1] at hsame
    rw [strip, Text.lstrip_eq_self hhead, rstrip, List.reverse_append, hback]
    exact hsame

/-! ## Both readings -/

section Readings

variable {key value content : Text}

/-- The reader of lines has the value, and the blanks behind it. -/
theorem Stands.found (hstands : Stands key value content) (hkey : ∀ c ∈ key, isLineBreak c = false)
    (hvalue : OneLine value) : ∃ padding, (∀ c ∈ padding, isBlank c = true) ∧
      (found key (splitlines content)).getLast? = some (settingOf key value padding) := by
  obtain ⟨before, padding, after, hbefore, hafter, hpadding⟩ := hstands
  refine ⟨padding, hpadding, ?_⟩
  have hblank : ∀ c, isBlank c = true → isLineBreak c = false := by
    intro c hc
    rw [isBlank, Bool.or_eq_true, beq_iff_eq, beq_iff_eq] at hc
    rcases hc with rfl | rfl <;> decide
  have hone : ∀ c ∈ settingOf key value padding, isLineBreak c = false := by
    simp only [settingOf, List.forall_mem_append, List.forall_mem_singleton]
    exact ⟨⟨hkey, by decide⟩, hvalue.unbroken, fun c hc => hblank c (hpadding c hc)⟩
  have hbegins : startswith (settingOf key value padding) (key ++ ['=']) = true :=
    List.isPrefixOf_iff_prefix.mpr (List.prefix_append _ _)
  have hline : (settingOf key value padding ++ ['\n']).getLast? ∈ [none, some '\n'] := by simp
  have hfound : Shell.found key [settingOf key value padding] = [settingOf key value padding] :=
    List.filter_cons_of_pos hbegins
  rw [splitlines_ended hbefore.ended, splitlines_ended hline, Text.splitlines_line hone,
    found_append, found_append, hafter.unread, List.append_nil, hfound, List.getLast?_concat]

/-- The shell has the value, and not the blanks. -/
theorem Stands.lookup (hstands : Stands key value content) (hkey : isName key = true)
    (hspecial : key ∉ special) (hvalue : Plain value) {h : Host} {r : Reader}
    (hread : read h {} content = .ok r) : ∃ vars, r = .after vars ∧ vars.lookup key = some value := by
  obtain ⟨before, padding, after, hbefore, hafter, hpadding⟩ := hstands
  rw [read_append] at hread
  obtain ⟨mid, hmid, hread⟩ := except_bind_eq_ok.mp hread
  obtain ⟨vars, rfl⟩ := hbefore.idle h [] mid hmid
  rw [read_after (read_setting hkey hspecial hvalue hpadding vars)] at hread
  obtain ⟨vars', rfl, hsame⟩ := hafter.left h _ r hread
  exact ⟨vars', rfl, by rw [hsame]; simp⟩

theorem Silent.lookup (hsilent : Silent key content) {h : Host} {r : Reader}
    (hread : read h {} content = .ok r) : ∃ vars, r = .after vars ∧ vars.lookup key = none := by
  obtain ⟨vars, hr, hsame⟩ := hsilent.left h [] r hread
  exact ⟨vars, hr, by rw [hsame]; rfl⟩

end Readings

/-! ## Files of such lines -/

inductive Piece where
  | blank
  | comment (t : Text)
  | setting (key value padding : Text)
  | quoted (key value : Text)
deriving DecidableEq, Repr

def Piece.text : Piece → Text
  | .blank => ['\n']
  | .comment t => '#' :: t ++ ['\n']
  | .setting key value padding => settingOf key value padding ++ ['\n']
  | .quoted key value => key ++ ['='] ++ ('\'' :: value ++ ['\'', '\n'])

def Piece.rows : Piece → List (Text × Text)
  | .blank | .comment _ => []
  | .setting key value _ | .quoted key value => [(key, value)]

def Piece.Valid : Piece → Prop
  | .blank => True
  | .comment t => '\n' ∉ t
  | .setting key value padding => isName key = true ∧ key ∉ special ∧ Plain value ∧
      ∀ c ∈ padding, isBlank c = true
  | .quoted key value => isName key = true ∧ key ∉ special ∧
      ∀ c ∈ value, c ≠ '\'' ∧ c.toNat ≠ 0

instance : (p : Piece) → Decidable p.Valid
  | .blank => .isTrue trivial
  | .comment t => inferInstanceAs (Decidable ('\n' ∉ t))
  | .setting _ value _ => inferInstanceAs (Decidable (_ ∧ _ ∧ Plain value ∧ _))
  | .quoted _ _ => inferInstanceAs (Decidable (_ ∧ _ ∧ _))

theorem Piece.makes {p : Piece} (h : p.Valid) : Makes p.text p.rows := by
  cases p with
  | blank => exact makes_blank
  | comment t => exact makes_comment h
  | setting key value padding =>
    obtain ⟨hkey, hspecial, hvalue, hpadding⟩ := h
    exact ⟨by simp [Piece.text], fun _ vars => read_setting hkey hspecial hvalue hpadding vars⟩
  | quoted key value =>
    obtain ⟨hkey, hspecial, hvalue⟩ := h
    exact makes_quoted hkey hspecial hvalue

theorem makes_pieces {pieces : List Piece} (h : ∀ p ∈ pieces, p.Valid) :
    Makes (pieces.flatMap Piece.text) (pieces.reverse.flatMap Piece.rows) := by
  induction pieces with
  | nil => exact ⟨by simp, fun _ _ => rfl⟩
  | cons p pieces ih =>
    obtain ⟨hp, hpieces⟩ := List.forall_mem_cons.mp h
    have happend := (Piece.makes hp).append (ih hpieces)
    rwa [← List.flatMap_cons, ← List.flatMap_singleton Piece.rows p, ← List.flatMap_append,
      ← List.reverse_cons] at happend

def Last (key : Text) (after : List Piece) : Prop :=
  (after.reverse.flatMap Piece.rows).lookup key = none ∧
    found key (splitlines (after.flatMap Piece.text)) = []

instance (key : Text) (after : List Piece) : Decidable (Last key after) :=
  inferInstanceAs (Decidable (_ ∧ _))

theorem silent_pieces {key : Text} {pieces : List Piece} (h : ∀ p ∈ pieces, p.Valid)
    (hlast : Last key pieces) : Silent key (pieces.flatMap Piece.text) :=
  (makes_pieces h).silent hlast.1 hlast.2

theorem stands_among {key value padding : Text} {before after : List Piece}
    (h : ∀ p ∈ before ++ .setting key value padding :: after, p.Valid) (hlast : Last key after) :
    Stands key value ((before ++ .setting key value padding :: after).flatMap Piece.text) := by
  obtain ⟨hbefore, hsetting, hafter⟩ := by
    simpa only [List.forall_mem_append, List.forall_mem_cons] using h
  rw [List.flatMap_append, List.flatMap_cons]
  exact .line _ padding _ (makes_pieces hbefore).whole (silent_pieces hafter hlast) hsetting.2.2.2

/-! ## The end of the file -/

def terminated (content : Text) : Text :=
  if content.getLast?.all (· = '\n') then content else content ++ ['\n']

theorem read_terminated {h : Host} {content : Text} {vars : List (Text × Text)}
    (hsource : source h content = .ok vars) :
    ∃ r, read h {} (terminated content) = .ok r ∧ finish h r = .ok vars := by
  obtain ⟨r, hread, hfinish⟩ := except_bind_eq_ok.mp hsource
  unfold terminated
  split
  · exact ⟨r, hread, hfinish⟩
  · refine ⟨.after vars, ?_, rfl⟩
    rw [read_after hread, read_step (step_newline hfinish), read_nil]

theorem found_terminated (key content : Text) :
    found key (splitlines (terminated content)) = found key (splitlines content) := by
  unfold terminated
  split
  · rfl
  · rcases Text.splitlines_newline content with hsame | hmore
    · rw [hsame]
    · have hempty : startswith [] (key ++ ['=']) = false := by
        cases key <;> rfl
      rw [hmore, found_append, found, found, List.filter_singleton, hempty]
      simp

end Provisioner.Shell
