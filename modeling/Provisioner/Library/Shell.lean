import Provisioner.Library.Flow
import Provisioner.Library.Text

/-!
# Files of assignments, as bash sources them

The part of bash that files of settings are written in: assignments one or
several to a line, with quotes, escapes, continued lines, `$NAME`, `${NAME}` and
tildes, `export`, and comments, under `set -eu`. The reader takes one character
at a time, so reading a text is reading its parts one after another. Everything
else, above all whatever runs a command, is beyond it.
-/

namespace Provisioner.Shell

inductive Stop where
  | failed
  | beyond
deriving DecidableEq, Repr

inductive Part where
  | char (c : Char) (quoted : Bool)
  | var (name : Text)
deriving DecidableEq, Repr

structure Word where
  name : Option Text := none
  value : List Part := []
  quoted : Bool := false
deriving DecidableEq, Repr

inductive Mode where
  | between
  | comment
  | bare
  | single
  | double
  | dollar (quoted : Bool)
  | name (quoted : Bool) (read : Text)
  | brace (quoted : Bool) (read : Text)
  | escape (back : Mode)
deriving DecidableEq, Repr

/-- Where the shell is in a text: the word it is in, the earlier ones of the
command, and the assignments made so far, the last one first. -/
structure Reader where
  mode : Mode := .between
  word : Word := {}
  words : List Word := []
  vars : List (Text × Text) := []
deriving DecidableEq, Repr

structure Host where
  inherited : Text → Option Text
  /-- The directory that a tilde stands for, by what follows it. -/
  home : Text → Option Text

/-! ## Names and words -/

def isNameStart (c : Char) : Bool := c.isAlpha || c == '_'

def isNameChar (c : Char) : Bool := c.isAlphanum || c == '_'

def isName : Text → Bool
  | [] => false
  | c :: rest => isNameStart c && rest.all isNameChar

/-- Names that the shell itself sets, guards or obeys. -/
def special : List Text :=
  ["_", "BASH", "BASHOPTS", "BASHPID", "BASH_ALIASES", "BASH_ARGC", "BASH_ARGV", "BASH_ARGV0",
    "BASH_CMDS", "BASH_COMMAND", "BASH_COMPAT", "BASH_LINENO", "BASH_REMATCH", "BASH_SOURCE",
    "BASH_SUBSHELL", "BASH_VERSINFO", "BASH_VERSION", "COMP_WORDBREAKS", "DIRSTACK",
    "EPOCHREALTIME", "EPOCHSECONDS", "EUID", "FUNCNAME", "GROUPS", "HISTCMD", "LANG", "LC_ALL",
    "LC_CTYPE", "LINENO", "POSIXLY_CORRECT", "PPID", "RANDOM", "SECONDS", "SHELLOPTS", "SRANDOM",
    "UID"]

def Part.plain : Part → Option Char
  | .char c false => some c
  | _ => none

def Word.literal (w : Word) : Option Text := if w.quoted then none else w.value.mapM Part.plain

def Word.add (w : Word) (p : Part) : Word := { w with value := w.value ++ [p] }

def Word.quote (w : Word) : Word := { w with quoted := true }

/-- The variable that the word assigns, if `=` comes next. -/
def Word.assigned (w : Word) : Option Text :=
  if w.name.isNone then w.literal.filter isName else none

def Word.push (w : Word) (c : Char) : Word :=
  match if c = '=' then w.assigned else none with
  | some n => { name := some n }
  | none => w.add (.char c false)

/-! ## Commands -/

variable (h : Host)

def Host.lookup (vars : List (Text × Text)) (n : Text) : Option Text :=
  (vars.lookup n).or (h.inherited n)

/-- What follows a tilde, up to a slash or a colon. -/
def tildeName : List Part → Text
  | .char c false :: rest => if c = '/' ∨ c = ':' then [] else c :: tildeName rest
  | _ => []

/-- A tilde on its own stands for what `HOME` is by then. -/
def Host.homeOf (vars : List (Text × Text)) (name : Text) : Option Text :=
  if name.isEmpty then (h.lookup vars "HOME").or (h.home name) else h.home name

/-- Only where no character of the name is quoted. -/
def Host.tilde (vars : List (Text × Text)) (rest : List Part) : Option (Text × ℕ) :=
  let name := tildeName rest
  match rest.drop name.length with
  | [] | .char _ false :: _ => (h.homeOf vars name).map (·, name.length)
  | _ => none

/-- The value of a word. A tilde counts at the start and behind a colon; `skip`
parts have been read with one. -/
def expand (vars : List (Text × Text)) : Bool → ℕ → List Part → Except Stop Text
  | _, _, [] => .ok []
  | fresh, skip + 1, _ :: rest => expand vars fresh skip rest
  | _, 0, .var n :: rest =>
    if n ∈ special then .error .beyond
    else
      match h.lookup vars n with
      | none => .error .failed
      | some value => (expand vars false 0 rest).map (value ++ ·)
  | fresh, 0, .char c quoted :: rest =>
    match if fresh && !quoted && c == '~' then h.tilde vars rest else none with
    | some (dir, skip) => (expand vars false skip rest).map (dir ++ ·)
    | none => (expand vars (!quoted && c == ':') 0 rest).map (c :: ·)

def assign (vars : List (Text × Text)) (w : Word) : Except Stop (List (Text × Text)) :=
  match w.name with
  | none => .error .beyond
  | some n =>
    if n ∈ special then .error .beyond
    else (expand h vars true 0 w.value).map fun value => (n, value) :: vars

/-- An argument of `export`, which may only name a variable. -/
def declare (vars : List (Text × Text)) (w : Word) : Except Stop (Option (Text × Text)) :=
  match w.name with
  | some n =>
    if n ∈ special then .error .beyond
    else (expand h vars true 0 w.value).map fun value => some (n, value)
  | none =>
    match w.literal with
    | some t => if isName t then .ok none else .error .beyond
    | none => .error .beyond

/-- `export` takes braces apart that an assignment leaves alone. -/
def Word.braced (w : Word) : Bool := w.value.any fun p => p = .char '{' false

/-- Assignments see the ones before them; `export` expands all its arguments first. -/
def command (vars : List (Text × Text)) (words : List Word) :
    Except Stop (List (Text × Text)) :=
  if words.all fun w => w.name.isSome then words.foldlM (assign h) vars
  else
    match words with
    | [] => .ok vars
    | w :: args =>
      if w.name = none ∧ w.literal = some "export" ∧ args ≠ [] ∧ !args.any Word.braced then
        (args.mapM (declare h vars)).map fun made => (made.filterMap id).reverse ++ vars
      else .error .beyond

/-! ## Reading -/

def Reader.close (r : Reader) : Reader :=
  { r with mode := .between, word := {}, words := r.words ++ [r.word] }

def Reader.execute (r : Reader) : Except Stop Reader :=
  (command h r.vars r.words).map fun vars => { vars := vars }

def isBlank (c : Char) : Bool := c == ' ' || c == '\t'

def isOperator (c : Char) : Bool :=
  c ∈ ['|', '&', ';', '(', ')', '<', '>'] || c.toNat == 96

/-- Special parameters, and what opens other expansions. -/
def isBeyondDollar (c : Char) : Bool :=
  c.isDigit || c ∈ ['*', '@', '#', '?', '-', '$', '!', '(', '[']

def bare (r : Reader) (c : Char) : Except Stop Reader :=
  if isBlank c then .ok r.close
  else if c = '\n' then r.close.execute h
  else if c = '\'' then .ok { r with mode := .single, word := r.word.quote }
  else if c = '"' then .ok { r with mode := .double, word := r.word.quote }
  else if c = '\\' then .ok { r with mode := .escape .bare }
  else if c = '$' then .ok { r with mode := .dollar false }
  else if isOperator c then .error .beyond
  else .ok { r with mode := .bare, word := r.word.push c }

def double (r : Reader) (c : Char) : Except Stop Reader :=
  if c = '"' then .ok { r with mode := .bare }
  else if c = '\\' then .ok { r with mode := .escape .double }
  else if c = '$' then .ok { r with mode := .dollar true }
  else if c.toNat = 96 then .error .beyond
  else .ok { r with mode := .double, word := r.word.add (.char c true) }

/-- The part that comes to its end before the next character. -/
def Reader.settle (r : Reader) : Mode → Reader
  | .dollar quoted =>
    { r with mode := if quoted then .double else .bare, word := r.word.add (.char '$' quoted) }
  | .name quoted read =>
    { r with mode := if quoted then .double else .bare, word := r.word.add (.var read) }
  | .between => { r with mode := .bare }
  | mode => { r with mode := mode }

def settled (r : Reader) (c : Char) : Except Stop Reader :=
  let r := r.settle r.mode
  if r.mode = .double then double r c else bare h r c

/-- After a backslash; the end of the line is taken away with it. -/
def escaped (r : Reader) (back : Mode) (c : Char) : Except Stop Reader :=
  if c = '\n' then .ok { r with mode := back }
  else
    match back with
    | .brace _ _ => .error .beyond
    | back =>
      let r := r.settle back
      if r.mode = .double then
        if c ∈ ['$', '"', '\\'] ∨ c.toNat = 96 then
          .ok { r with word := r.word.add (.char c true) }
        else .ok { r with word := (r.word.add (.char '\\' true)).add (.char c true) }
      else .ok { r with word := (r.word.add (.char c true)).quote }

def step (r : Reader) (c : Char) : Except Stop Reader :=
  if c.toNat = 0 ∧ r.mode ≠ .comment then .error .beyond
  else
    match r.mode with
    | .between =>
      if isBlank c then .ok r
      else if c = '\n' then r.execute h
      else if c = '#' then .ok { r with mode := .comment }
      else if c = '\\' then .ok { r with mode := .escape .between }
      else bare h r c
    | .comment => if c = '\n' then r.execute h else .ok r
    | .bare => bare h r c
    | .single =>
      if c = '\'' then .ok { r with mode := .bare }
      else .ok { r with word := r.word.add (.char c true) }
    | .double => double r c
    | .dollar quoted =>
      if isNameStart c then .ok { r with mode := .name quoted [c] }
      else if c = '{' then .ok { r with mode := .brace quoted [] }
      else if c = '\\' then .ok { r with mode := .escape r.mode }
      else if isBeyondDollar c || !quoted && (c == '\'' || c == '"') then .error .beyond
      else settled h r c
    | .name quoted read =>
      if isNameChar c then .ok { r with mode := .name quoted (read ++ [c]) }
      else if c = '\\' then .ok { r with mode := .escape r.mode }
      else settled h r c
    | .brace quoted read =>
      if c = '}' ∧ isName read then .ok (r.settle (.name quoted read))
      else if isNameChar c then .ok { r with mode := .brace quoted (read ++ [c]) }
      else if c = '\\' then .ok { r with mode := .escape r.mode }
      else .error .beyond
    | .escape back => escaped r back c

def read (r : Reader) (text : Text) : Except Stop Reader := text.foldlM (step h) r

def finish (r : Reader) : Except Stop (List (Text × Text)) :=
  match r.mode with
  | .between | .comment => command h r.vars r.words
  | .bare | .dollar false | .name false _ =>
    command h r.vars (r.words ++ [(r.settle r.mode).word])
  | .single | .double | .dollar true | .name true _ | .brace _ _ => .error .failed
  | .escape _ => .error .beyond

/-- The assignments that sourcing the text makes, the last one first. -/
def source (text : Text) : Except Stop (List (Text × Text)) := do
  let r ← read h {} text
  finish h r

/-! ## Bare text -/

def isOrdinary (c : Char) : Bool :=
  !(isBlank c || c ∈ ['\n', '\'', '"', '\\', '$'] || isOperator c || c.toNat == 0)

def opensExpansion (c : Char) : Bool := isNameStart c || c == '{' || isBeyondDollar c

/-- A text that is one word, and in it every character stands for itself; a `$`
does where nothing follows that it would expand. -/
def isBare : Text → Bool
  | [] => true
  | c :: rest =>
    (isOrdinary c || c == '$' && !rest.head?.any opensExpansion) && isBare rest

def chars (t : Text) : List Part := t.map fun c => .char c false

variable {h}

theorem read_append (r : Reader) (a b : Text) :
    read h r (a ++ b) = read h r a >>= fun r' => read h r' b := List.foldlM_append

theorem read_cons (r : Reader) (c : Char) (t : Text) :
    read h r (c :: t) = step h r c >>= fun r' => read h r' t := List.foldlM_cons

theorem read_nil (r : Reader) : read h r [] = .ok r := rfl

theorem read_after {r r' : Reader} {a : Text} (ha : read h r a = .ok r') (b : Text) :
    read h r (a ++ b) = read h r' b := by
  rw [read_append, ha]
  rfl

theorem read_step {r r' : Reader} {c : Char} (hc : step h r c = .ok r') (t : Text) :
    read h r (c :: t) = read h r' t := by
  rw [read_cons, hc]
  rfl

/-- In a word, or behind a `$` in it that may still expand nothing. -/
def Reader.Open (r : Reader) : Prop := r.mode = .bare ∨ r.mode = .dollar false

theorem Reader.Open.settle {r : Reader} (hopen : r.Open) : (r.settle r.mode).mode = .bare := by
  rcases hopen with hmode | hmode <;> rw [hmode] <;> rfl

theorem settle_bare {r : Reader} (hmode : r.mode = .bare) : r.settle r.mode = r := by
  obtain ⟨mode, word, words, vars⟩ := r
  cases hmode
  rfl

theorem step_open {r : Reader} (hopen : r.Open) {c : Char} (hnul : c.toNat ≠ 0)
    (hnext : r.mode = .dollar false → opensExpansion c = false ∧ c ≠ '\\' ∧ c ≠ '\'' ∧ c ≠ '"') :
    step h r c = bare h (r.settle r.mode) c := by
  rcases hopen with hmode | hmode
  · rw [settle_bare hmode, step, if_neg fun hc => hnul hc.1, hmode]
  · obtain ⟨hexpansion, hback, hsingle, hdouble⟩ := hnext hmode
    simp only [opensExpansion, Bool.or_eq_false_iff, beq_eq_false_iff_ne] at hexpansion
    obtain ⟨⟨hname, hbrace⟩, hbeyond⟩ := hexpansion
    rw [step, if_neg fun hc => hnul hc.1, hmode]
    simp [hname, hbrace, hback, hbeyond, hsingle, hdouble, settled, hmode, Reader.settle]

theorem ordinary_iff {c : Char} : isOrdinary c = true ↔ isBlank c = false ∧ c ≠ '\n' ∧
    c ≠ '\'' ∧ c ≠ '"' ∧ c ≠ '\\' ∧ c ≠ '$' ∧ isOperator c = false ∧ c.toNat ≠ 0 := by
  simp only [isOrdinary, Bool.not_eq_true', Bool.or_eq_false_iff, decide_eq_false_iff_not,
    List.mem_cons, List.not_mem_nil, or_false, not_or, beq_eq_false_iff_ne]
  tauto

theorem bare_ordinary {r : Reader} {c : Char} (hc : isOrdinary c = true) :
    bare h r c = .ok { r with mode := .bare, word := r.word.push c } := by
  obtain ⟨hblank, hline, hsingle, hdouble, hback, hdollar, hoperator, -⟩ := ordinary_iff.mp hc
  simp [bare, hblank, hline, hsingle, hdouble, hback, hdollar, hoperator]

theorem push_named {w : Word} (hname : w.name.isSome = true) (c : Char) :
    w.push c = w.add (.char c false) := by
  have hassigned : w.assigned = none := by
    rw [Word.assigned, if_neg]
    simpa [Option.isSome_iff_ne_none] using hname
  rw [Word.push, hassigned, ite_self]

def Word.extend (w : Word) (t : Text) : Word := { w with value := w.value ++ chars t }

theorem extend_cons (w : Word) (c : Char) (t : Text) :
    (w.add (.char c false)).extend t = w.extend (c :: t) := by
  simp [Word.extend, Word.add, chars]

/-- Bare text is read into the value of an assignment as it stands. -/
theorem read_bare {r : Reader} (hopen : r.Open) {t : Text} (ht : isBare t = true)
    (hhead : r.mode = .dollar false → t.head?.any opensExpansion = false)
    (hname : r.word.name.isSome = true) :
    ∃ r', read h r t = .ok r' ∧ r'.Open ∧ r'.settle r'.mode =
      { r.settle r.mode with word := (r.settle r.mode).word.extend t } := by
  induction t generalizing r with
  | nil =>
    refine ⟨r, rfl, hopen, ?_⟩
    simp [Word.extend, chars]
  | cons c t ih =>
    rw [isBare, Bool.and_eq_true] at ht
    obtain ⟨hc, ht⟩ := ht
    have hsettled : (r.settle r.mode).word.name.isSome = true := by
      rcases hopen with hmode | hmode <;> rw [hmode] <;> exact hname
    rw [Bool.or_eq_true] at hc
    rcases hc with hc | hc
    · have hord := ordinary_iff.mp hc
      have hstep : step h r c = .ok { r.settle r.mode with
          word := (r.settle r.mode).word.add (.char c false) } := by
        rw [step_open hopen hord.2.2.2.2.2.2.2, bare_ordinary hc, push_named hsettled]
        · rw [← hopen.settle]
        · intro hmode
          exact ⟨by simpa using hhead hmode, hord.2.2.2.2.1, hord.2.2.1, hord.2.2.2.1⟩
      obtain ⟨r', hread, hopen', hword⟩ := ih (r := { r.settle r.mode with
          word := (r.settle r.mode).word.add (.char c false) }) (.inl hopen.settle) ht
        (fun hmode => by rw [hopen.settle] at hmode; cases hmode) hsettled
      refine ⟨r', ?_, hopen', ?_⟩
      · rw [read_step hstep]
        exact hread
      · rw [hword]
        have hbare := hopen.settle
        generalize r.settle r.mode = s at hbare
        obtain ⟨mode, word, words, vars⟩ := s
        cases hbare
        simp only [Reader.settle, extend_cons]
    · rw [Bool.and_eq_true, beq_iff_eq, Bool.not_eq_true'] at hc
      obtain ⟨rfl, hrest⟩ := hc
      -- two of them in a row would name the shell itself
      have hmode : r.mode = .bare := by
        rcases hopen with hmode | hmode
        · exact hmode
        · have hdollar := hhead hmode
          cases hdollar
      have hstep : step h r '$' = .ok { r with mode := .dollar false } := by
        rw [step_open (.inl hmode) (by decide) (by rw [hmode]; intro hne; cases hne), hmode]
        rfl
      obtain ⟨r', hread, hopen', hword⟩ := ih (r := { r with mode := .dollar false }) (.inr rfl) ht
        (fun _ => hrest) hname
      refine ⟨r', ?_, hopen', ?_⟩
      · rw [read_step hstep]
        exact hread
      · rw [hword, hmode]
        simp only [Reader.settle, Bool.false_eq_true, if_false, extend_cons]

def Reader.after (vars : List (Text × Text)) : Reader := { vars := vars }

theorem name_char_ordinary {c : Char} (hc : isNameChar c = true) :
    isOrdinary c = true ∧ c ≠ '=' ∧ c ≠ '#' := by
  have hne : ∀ d, isNameChar d = false → c ≠ d := by
    rintro d hd rfl
    rw [hc] at hd
    cases hd
  have hnat : ∀ d, isNameChar d = false → c.toNat ≠ d.toNat :=
    fun d hd heq => hne d hd (Char.toNat_inj.mp heq)
  have hcode : c.toNat ≠ 96 ∧ c.toNat ≠ 0 :=
    ⟨hnat (Char.ofNat 96) (by decide), hnat (Char.ofNat 0) (by decide)⟩
  refine ⟨?_, hne _ (by decide), hne _ (by decide)⟩
  simp [isOrdinary, isBlank, isOperator, hcode, hne ' ' (by decide), hne '\t' (by decide),
    hne '\n' (by decide), hne '\'' (by decide), hne '"' (by decide), hne '\\' (by decide),
    hne '$' (by decide), hne '|' (by decide), hne '&' (by decide), hne ';' (by decide),
    hne '(' (by decide), hne ')' (by decide), hne '<' (by decide), hne '>' (by decide)]

theorem isName_iff {n : Text} : isName n = true ↔
    ∃ c rest, n = c :: rest ∧ isNameStart c = true ∧ ∀ d ∈ rest, isNameChar d = true := by
  cases n with
  | nil => simp [isName]
  | cons c rest => simp [isName]

theorem name_start_char {c : Char} (hc : isNameStart c = true) : isNameChar c = true := by
  rw [isNameStart, Bool.or_eq_true] at hc
  rw [isNameChar, Bool.or_eq_true, Char.isAlphanum, Bool.or_eq_true]
  exact hc.imp_left .inl

theorem literal_extend {w : Word} (hquoted : w.quoted = false) {t u : Text}
    (hw : w.literal = some t) : (w.extend u).literal = some (t ++ u) := by
  have hchars : (chars u).mapM Part.plain = some u := by
    induction u with
    | nil => rfl
    | cons c u ih =>
      change ((Part.char c false :: chars u).mapM Part.plain) = some (c :: u)
      simp [List.mapM_cons, Part.plain, ih]
  simp only [Word.literal, hquoted, Bool.false_eq_true, if_false] at hw
  simp [Word.literal, Word.extend, hquoted, List.mapM_append, hw, hchars]

theorem read_name_chars {r : Reader} (hmode : r.mode = .bare) {t : Text}
    (ht : ∀ c ∈ t, isNameChar c = true) :
    read h r t = .ok { r with word := r.word.extend t } := by
  induction t generalizing r with
  | nil => simp [read_nil, Word.extend, chars]
  | cons c t ih =>
    obtain ⟨hc, ht⟩ := List.forall_mem_cons.mp ht
    obtain ⟨hord, heq, -⟩ := name_char_ordinary hc
    have hpush : r.word.push c = r.word.add (.char c false) := by
      rw [Word.push, if_neg heq]
    have hstep : step h r c = .ok { r with word := r.word.add (.char c false) } := by
      rw [step_open (.inl hmode) (ordinary_iff.mp hord).2.2.2.2.2.2.2
        (by rw [hmode]; intro hne; cases hne), settle_bare hmode, bare_ordinary hord, hpush, ← hmode]
    rw [read_step hstep]
    have hrest := ih (r := { r with word := r.word.add (.char c false) }) hmode ht
    rw [extend_cons] at hrest
    exact hrest

theorem step_between {r : Reader} (hmode : r.mode = .between) {c : Char}
    (hc : isOrdinary c = true) (hcomment : c ≠ '#') :
    step h r c = .ok { r with mode := .bare, word := r.word.push c } := by
  obtain ⟨hblank, hline, -, -, hback, -, -, hnul⟩ := ordinary_iff.mp hc
  rw [step, if_neg fun hc => hnul hc.1, hmode]
  simp only [hblank, Bool.false_eq_true, if_false, hline, hcomment, hback]
  exact bare_ordinary hc

theorem read_target {r : Reader} (hmode : r.mode = .between) (hword : r.word = {}) {n : Text}
    (hn : isName n = true) :
    read h r (n ++ ['=']) = .ok { r with mode := .bare, word := { name := some n } } := by
  obtain ⟨c, rest, rfl, hc, hrest⟩ := isName_iff.mp hn
  obtain ⟨hord, heq, hcomment⟩ := name_char_ordinary (name_start_char hc)
  have hpush : r.word.push c = Word.extend {} [c] := by
    rw [hword, Word.push, if_neg heq]
    rfl
  have hfirst : step h r c = .ok { r with mode := .bare, word := Word.extend {} [c] } := by
    rw [step_between hmode hord hcomment, hpush]
  have hword' : (Word.extend {} (c :: rest)).assigned = some (c :: rest) := by
    have hliteral : (Word.extend {} (c :: rest)).literal = some ([] ++ c :: rest) :=
      literal_extend rfl rfl
    rw [Word.assigned, hliteral, Option.filter_some, List.nil_append, if_pos hn]
    rfl
  have hextend : (Word.extend {} [c]).extend rest = Word.extend {} (c :: rest) := by
    simp [Word.extend, chars]
  have hequals : step h { r with mode := .bare, word := Word.extend {} (c :: rest) } '=' =
      .ok { r with mode := .bare, word := { name := some (c :: rest) } } := by
    rw [step_open (.inl rfl) (by decide) (fun hdollar => by cases hdollar), settle_bare rfl,
      bare_ordinary (by decide), Word.push, if_pos rfl, hword']
  have hchars := read_name_chars (h := h)
    (r := { r with mode := .bare, word := Word.extend {} [c] }) rfl hrest
  simp only [hextend] at hchars
  rw [List.cons_append, read_step hfirst, read_after hchars, read_step hequals, read_nil]

theorem readLine {n v : Text} (hn : isName n = true) (hspecial : n ∉ special)
    (hv : isBare v = true) (vars : List (Text × Text)) :
    read h (.after vars) (n ++ ['='] ++ v ++ ['\n']) =
      (expand h vars true 0 (chars v)).map fun value => .after ((n, value) :: vars) := by
  have htarget : read h (.after vars) (n ++ ['=']) =
      .ok { Reader.after vars with mode := .bare, word := { name := some n } } :=
    read_target rfl rfl hn
  obtain ⟨r, hread, hopen, hsettle⟩ := read_bare (h := h)
    (r := { Reader.after vars with mode := .bare, word := { name := some n } }) (.inl rfl) hv
    (fun hdollar => by cases hdollar) rfl
  have hcommand : command h vars [Word.extend { name := some n } v] =
      (expand h vars true 0 (chars v)).map fun value => (n, value) :: vars := by
    have hassigns : [Word.extend { name := some n } v].all (fun w => w.name.isSome) = true := rfl
    rw [command, if_pos hassigns, List.foldlM_cons]
    simp only [assign, Word.extend, hspecial, if_false, List.nil_append]
    cases expand h vars true 0 (chars v) <;> rfl
  have hline : step h r '\n' =
      (expand h vars true 0 (chars v)).map fun value => .after ((n, value) :: vars) := by
    rw [step_open hopen (by decide) fun _ => by decide, hsettle]
    change (command h vars [Word.extend { name := some n } v]).map _ = _
    rw [hcommand]
    cases expand h vars true 0 (chars v) <;> rfl
  rw [List.append_assoc, read_after htarget, read_after hread, read_cons, hline]
  cases expand h vars true 0 (chars v) <;> rfl

theorem read_backslash {n t : Text} {c : Char} (hn : isName n = true) (hspecial : n ∉ special)
    (ht : ∀ d ∈ t, isNameChar d = true) (hc : isOrdinary c = true)
    (vars : List (Text × Text)) :
    read h (.after vars) (n ++ ['='] ++ (t ++ ['\\', c]) ++ ['\n']) =
      .ok (.after ((n, t ++ [c]) :: vars)) := by
  have htarget : read h (.after vars) (n ++ ['=']) =
      .ok { Reader.after vars with mode := .bare, word := { name := some n } } :=
    read_target rfl rfl hn
  have hchars := read_name_chars (h := h)
    (r := { Reader.after vars with mode := .bare, word := { name := some n } }) rfl ht
  have hnul : c.toNat ≠ 0 := (ordinary_iff.mp hc).2.2.2.2.2.2.2
  have hline : c ≠ '\n' := (ordinary_iff.mp hc).2.1
  have hvalue : ∀ fresh, expand h vars fresh 0 (chars t ++ [.char c true]) = .ok (t ++ [c]) := by
    clear hchars
    induction t with
    | nil =>
      intro fresh
      change expand h vars fresh 0 [.char c true] = .ok [c]
      rw [expand]
      simp [expand]
      rfl
    | cons d t ih =>
      intro fresh
      obtain ⟨hd, ht⟩ := List.forall_mem_cons.mp ht
      have htilde : d ≠ '~' := by
        rintro rfl
        cases hd
      change expand h vars fresh 0 (.char d false :: (chars t ++ [.char c true])) = _
      rw [expand]
      simp [htilde, ih ht]
      rfl
  have hescape : step h { Reader.after vars with
      mode := .bare, word := Word.extend { name := some n } t } '\\' =
      .ok { Reader.after vars with
        mode := .escape .bare, word := Word.extend { name := some n } t } := rfl
  have hchar : step h { Reader.after vars with
      mode := .escape .bare, word := Word.extend { name := some n } t } c =
      .ok { Reader.after vars with
        mode := .bare, word := ((Word.extend { name := some n } t).add (.char c true)).quote } := by
    rw [step, if_neg fun hc => hnul hc.1]
    simp [escaped, hline, Reader.settle]
  have hcommand : command h vars [((Word.extend { name := some n } t).add (.char c true)).quote] =
      .ok ((n, t ++ [c]) :: vars) := by
    have hassigns : [((Word.extend { name := some n } t).add (.char c true)).quote].all
        (fun w => w.name.isSome) = true := rfl
    rw [command, if_pos hassigns, List.foldlM_cons]
    simp only [assign, Word.extend, Word.add, Word.quote, hspecial, if_false, List.nil_append, hvalue]
    rfl
  have hend : step h { Reader.after vars with
      mode := .bare, word := ((Word.extend { name := some n } t).add (.char c true)).quote } '\n' =
      .ok (.after ((n, t ++ [c]) :: vars)) := by
    change (command h vars [_]).map _ = _
    rw [hcommand]
    rfl
  have htail : n ++ ['='] ++ (t ++ ['\\', c]) ++ ['\n'] =
      (n ++ ['=']) ++ (t ++ ['\\', c, '\n']) := by simp
  rw [htail, read_after htarget, read_after hchars, read_step hescape, read_step hchar,
    read_step hend, read_nil]

theorem read_comment {t : Text} (ht : '\n' ∉ t) (vars : List (Text × Text)) :
    read h (.after vars) ('#' :: t ++ ['\n']) = .ok (.after vars) := by
  have hrest : ∀ u : Text, '\n' ∉ u →
      read h { Reader.after vars with mode := .comment } u =
        .ok { Reader.after vars with mode := .comment } := by
    intro u hu
    induction u with
    | nil => rfl
    | cons c u ih =>
      rw [List.mem_cons, not_or] at hu
      have hstep : step h { Reader.after vars with mode := .comment } c =
          .ok { Reader.after vars with mode := .comment } := by
        simp [step, Ne.symm hu.1]
      rw [read_step hstep]
      exact ih hu.2
  have hopen : step h (.after vars) '#' = .ok { Reader.after vars with mode := .comment } := rfl
  have hline : step h { Reader.after vars with mode := .comment } '\n' = .ok (.after vars) := rfl
  rw [List.cons_append, read_step hopen, read_after (hrest t ht), read_step hline, read_nil]

theorem read_blank (vars : List (Text × Text)) :
    read h (.after vars) ['\n'] = .ok (.after vars) := rfl

end Provisioner.Shell
