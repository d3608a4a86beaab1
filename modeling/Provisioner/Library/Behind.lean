import Provisioner.Library.Plain

/-!
# Lines behind a file that the shell accepts

What the shell makes of a file to which a line has been added: behind a whole
command the line runs as it stands, in a comment it is lost, and inside of a word
it becomes a part of the word.
-/

namespace Provisioner.Shell

variable {h : Host}

def settingLine (row : Text × Text) : Text := row.1 ++ ['='] ++ row.2 ++ ['\n']

theorem finish_after (vars : List (Text × Text)) : finish h (.after vars) = .ok vars := rfl

theorem execute_of_finish {r : Reader} {ws : List Word} {vars : List (Text × Text)}
    (hcommand : command h r.vars ws = .ok vars) :
    Reader.execute h { r with words := ws } = .ok (.after vars) := by
  change (command h r.vars ws).map _ = _
  rw [hcommand]
  rfl

theorem step_newline {r : Reader} {vars : List (Text × Text)} (hfinish : finish h r = .ok vars) :
    step h r '\n' = .ok (.after vars) := by
  rw [step, if_neg fun hc => absurd hc.1 (by decide)]
  unfold finish at hfinish
  cases hm : r.mode with
  | between | comment =>
    rw [hm] at hfinish
    exact execute_of_finish hfinish
  | bare =>
    rw [hm] at hfinish
    exact execute_of_finish hfinish
  | dollar quoted =>
    cases quoted with
    | true =>
      rw [hm] at hfinish
      cases hfinish
    | false =>
      rw [hm] at hfinish
      simp only [settled, hm]
      exact execute_of_finish hfinish
  | name quoted read =>
    cases quoted with
    | true =>
      rw [hm] at hfinish
      cases hfinish
    | false =>
      rw [hm] at hfinish
      simp only [settled, hm]
      exact execute_of_finish hfinish
  | single | double | brace quoted read | escape back =>
    rw [hm] at hfinish
    cases hfinish

def Reader.InBareWord (r : Reader) : Prop :=
  r.mode = .bare ∨ r.mode = .dollar false ∨ ∃ read, r.mode = .name false read

theorem mode_of_finish {r : Reader} {vars : List (Text × Text)} (hfinish : finish h r = .ok vars) :
    r.mode = .between ∨ r.mode = .comment ∨ r.InBareWord := by
  unfold finish at hfinish
  cases hm : r.mode with
  | between => exact .inl rfl
  | comment => exact .inr (.inl rfl)
  | bare => exact .inr (.inr (.inl hm))
  | dollar quoted =>
    cases quoted with
    | false => exact .inr (.inr (.inr (.inl hm)))
    | true =>
      rw [hm] at hfinish
      cases hfinish
  | name quoted begun =>
    cases quoted with
    | false => exact .inr (.inr (.inr (.inr ⟨begun, hm⟩)))
    | true =>
      rw [hm] at hfinish
      cases hfinish
  | single | double | brace quoted begun | escape back =>
    rw [hm] at hfinish
    cases hfinish

/-! ## Outside of words -/

def Reader.Idle (r : Reader) : Prop :=
  match r.mode with
  | .between | .comment | .escape .between => r.word = {}
  | .escape .comment | .escape (.escape _) => False
  | _ => True

theorem idle_of_inWord {r : Reader} (hmode : inWord r.mode = true) : r.Idle := by
  unfold Reader.Idle
  split
  · rename_i hm
    rw [hm] at hmode
    cases hmode
  · rename_i hm
    rw [hm] at hmode
    cases hmode
  · rename_i hm
    rw [hm] at hmode
    cases hmode
  · rename_i hm
    rw [hm] at hmode
    cases hmode
  · rename_i hm
    rw [hm] at hmode
    cases hmode
  · trivial

theorem bare_idle {r r' : Reader} {c : Char} (hbare : bare h r c = .ok r') : r'.Idle := by
  rw [bare] at hbare
  split at hbare
  · cases hbare
    rfl
  split at hbare
  · obtain ⟨vars, -, rfl⟩ := except_map_eq_ok.mp hbare
    rfl
  all_goals split_ifs at hbare <;> cases hbare <;> exact idle_of_inWord rfl

theorem double_idle {r r' : Reader} {c : Char} (hdouble : double r c = .ok r') : r'.Idle := by
  rw [double] at hdouble
  split_ifs at hdouble <;> cases hdouble <;> exact idle_of_inWord rfl

theorem settled_idle {r r' : Reader} {c : Char} (hsettled : settled h r c = .ok r') : r'.Idle := by
  rw [settled] at hsettled
  split at hsettled
  · exact double_idle hsettled
  · exact bare_idle hsettled

theorem settle_inWord {r : Reader} {m : Mode} (hm : inWord (.escape m) = true ∨ m = .between) :
    inWord (r.settle m).mode = true := by
  cases m with
  | between => rfl
  | comment | escape => rcases hm with hm | hm <;> cases hm
  | dollar quoted | name quoted read => cases quoted <;> rfl
  | _ => rfl

theorem escaped_idle {r r' : Reader} {back : Mode} {c : Char} (hidle : r.Idle)
    (hm : r.mode = .escape back) (hescaped : escaped r back c = .ok r') : r'.Idle := by
  have hback : inWord (.escape back) = true ∨ back = .between ∧ r.word = {} := by
    unfold Reader.Idle at hidle
    rw [hm] at hidle
    cases back with
    | between => exact .inr ⟨rfl, hidle⟩
    | comment | escape => exact hidle.elim
    | _ => exact .inl rfl
  have hin : inWord (r.settle back).mode = true := settle_inWord (hback.imp_right And.left)
  unfold escaped at hescaped
  split at hescaped
  · cases hescaped
    rcases hback with hback | ⟨rfl, hword⟩
    · refine idle_of_inWord ?_
      cases back with
      | between | comment | escape => cases hback
      | _ => rfl
    · exact hword
  · split at hescaped
    · cases hescaped
    · dsimp only at hescaped
      split_ifs at hescaped <;> cases hescaped <;> exact idle_of_inWord hin

theorem step_idle {r r' : Reader} {c : Char} (hidle : r.Idle) (hstep : step h r c = .ok r') :
    r'.Idle := by
  rw [step] at hstep
  split at hstep
  · cases hstep
  have hexecute : r.execute h = .ok r' → r'.Idle := by
    intro hexecute
    obtain ⟨vars, -, rfl⟩ := except_map_eq_ok.mp hexecute
    rfl
  cases hm : r.mode with
  | between =>
    have hword : r.word = {} := by
      unfold Reader.Idle at hidle
      rw [hm] at hidle
      exact hidle
    rw [hm] at hstep
    dsimp only at hstep
    split at hstep
    · cases hstep
      exact hidle
    split at hstep
    · exact hexecute hstep
    split at hstep
    · cases hstep
      exact hword
    split at hstep
    · cases hstep
      exact hword
    · exact bare_idle hstep
  | comment =>
    rw [hm] at hstep
    dsimp only at hstep
    split at hstep
    · exact hexecute hstep
    · cases hstep
      exact hidle
  | bare =>
    rw [hm] at hstep
    exact bare_idle hstep
  | single =>
    rw [hm] at hstep
    dsimp only at hstep
    split_ifs at hstep <;> cases hstep
    · exact idle_of_inWord rfl
    · exact idle_of_inWord rfl
  | double =>
    rw [hm] at hstep
    exact double_idle hstep
  | dollar quoted =>
    rw [hm] at hstep
    dsimp only at hstep
    split at hstep
    · cases hstep
      exact idle_of_inWord rfl
    split at hstep
    · cases hstep
      exact idle_of_inWord rfl
    split at hstep
    · cases hstep
      exact idle_of_inWord rfl
    split at hstep
    · cases hstep
    · exact settled_idle hstep
  | name quoted read =>
    rw [hm] at hstep
    dsimp only at hstep
    split at hstep
    · cases hstep
      exact idle_of_inWord rfl
    split at hstep
    · cases hstep
      exact idle_of_inWord rfl
    · exact settled_idle hstep
  | brace quoted read =>
    rw [hm] at hstep
    dsimp only at hstep
    split_ifs at hstep <;> cases hstep
    · exact idle_of_inWord (by cases quoted <;> rfl)
    · exact idle_of_inWord rfl
    · exact idle_of_inWord rfl
  | escape back =>
    rw [hm] at hstep
    exact escaped_idle hidle hm hstep

theorem read_idle {r r' : Reader} {t : Text} (hidle : r.Idle) (hread : read h r t = .ok r') :
    r'.Idle := by
  induction t generalizing r with
  | nil =>
    cases hread
    exact hidle
  | cons c t ih =>
    rw [read_cons] at hread
    obtain ⟨mid, hmid, hread⟩ := except_bind_eq_ok.mp hread
    exact ih (step_idle hidle hmid) hread

/-! ## Behind a command -/

/-- An assignment at the end of a command is made after the others. -/
theorem command_append {ws : List Word} {w : Word} {n v : Text} {vars vars' : List (Text × Text)}
    (hcommand : command h vars ws = .ok vars') (hname : w.name = some n) (hspecial : n ∉ special)
    (hvalue : ∀ vars, expand h vars true 0 w.value = .ok v) (hbraced : w.braced = false) :
    command h vars (ws ++ [w]) = .ok ((n, v) :: vars') := by
  have hassign : ∀ vars, assign h vars w = .ok ((n, v) :: vars) := by
    intro vars
    simp only [assign, hname, hspecial, if_false, hvalue]
    rfl
  have hsome : w.name.isSome = true := by rw [hname]; rfl
  unfold command at hcommand ⊢
  rw [List.all_append]
  split at hcommand
  · rename_i hall
    rw [hall, if_pos (by simp [hsome]), List.foldlM_append, hcommand]
    change [w].foldlM (assign h) vars' = _
    rw [List.foldlM_cons, hassign]
    rfl
  · rename_i hall
    rw [if_neg (by simp [hall])]
    cases ws with
    | nil => exact absurd rfl hall
    | cons first args =>
      dsimp only at hcommand
      split at hcommand
      · rename_i hexport
        obtain ⟨hnone, hliteral, hargs, hbraces⟩ := hexport
        obtain ⟨made, hmade, rfl⟩ := except_map_eq_ok.mp hcommand
        have hdeclare : declare h vars w = .ok (some (n, v)) := by
          simp only [declare, hname, hspecial, if_false, hvalue]
          rfl
        have hlast : [w].mapM (declare h vars) = .ok [some (n, v)] := by
          rw [List.mapM_cons, hdeclare]
          rfl
        rw [List.cons_append]
        dsimp only
        rw [if_pos ⟨hnone, hliteral, by simp, by simpa [hbraced] using hbraces⟩, List.mapM_append,
          hmade, hlast]
        change Except.ok (((made ++ [some (n, v)]).filterMap id).reverse ++ vars) = _
        rw [List.filterMap_append, List.reverse_append]
        rfl
      · cases hcommand

/-- A row that the shell takes as it is written, wherever a command can stand. -/
structure Takes (row : Text × Text) : Prop where
  named : isName row.1 = true
  ordinary : row.1 ∉ special
  plain : Plain row.2
  unbraced : '{' ∉ row.2

theorem name_chars_of_isName {n : Text} (hn : isName n = true) :
    ∀ c ∈ n, isNameChar c = true := by
  obtain ⟨c, rest, rfl, hc, hrest⟩ := isName_iff.mp hn
  exact List.forall_mem_cons.mpr ⟨name_start_char hc, hrest⟩

theorem newline_not_mem_bare {t : Text} (ht : isBare t = true) : '\n' ∉ t := by
  induction t with
  | nil => exact List.not_mem_nil
  | cons c t ih =>
    rw [isBare, Bool.and_eq_true] at ht
    obtain ⟨hc, ht⟩ := ht
    refine List.not_mem_cons_of_ne_of_not_mem ?_ (ih ht)
    rintro rfl
    cases hc

theorem read_behind {r : Reader} (hidle : r.Idle) (hmode : r.mode = .between)
    {vars : List (Text × Text)} (hfinish : finish h r = .ok vars) {row : Text × Text}
    (hrow : Takes row) : read h r (settingLine row) = .ok (.after (row :: vars)) := by
  obtain ⟨n, v⟩ := row
  have hword : r.word = {} := by
    unfold Reader.Idle at hidle
    rw [hmode] at hidle
    exact hidle
  have hcommand : command h r.vars r.words = .ok vars := by
    unfold finish at hfinish
    rw [hmode] at hfinish
    exact hfinish
  have htarget : read h r (n ++ ['=']) =
      .ok { r with mode := .bare, word := { name := some n } } :=
    read_target hmode hword hrow.named
  obtain ⟨r', hread, hopen, hsettle⟩ := read_bare (h := h)
    (r := { r with mode := .bare, word := { name := some n } }) (.inl rfl) hrow.plain.bare
    (fun hdollar => by cases hdollar) rfl
  have hbraced : (Word.extend { name := some n } v).braced = false := by
    rw [Word.braced, List.any_eq_false]
    intro p hp hbrace
    obtain ⟨c, hc, rfl⟩ := List.mem_map.mp hp
    have hsame : c = '{' := by simpa using hbrace
    exact hrow.unbraced (hsame ▸ hc)
  have hline : step h r' '\n' = .ok (.after ((n, v) :: vars)) := by
    rw [step_open hopen (by decide) fun _ => by decide, hsettle]
    refine execute_of_finish ?_
    exact command_append hcommand rfl hrow.ordinary
      (fun vars => expand_tildeFree h vars hrow.plain.tildes) hbraced
  rw [settingLine, List.append_assoc, read_after htarget, read_after hread, read_step hline, read_nil]

/-! ## In a comment -/

theorem read_in_comment {r : Reader} (hmode : r.mode = .comment) {t : Text} (ht : '\n' ∉ t) :
    read h r t = .ok r := by
  induction t with
  | nil => rfl
  | cons c t ih =>
    rw [List.mem_cons, not_or] at ht
    have hstep : step h r c = .ok r := by
      rw [step, if_neg fun hc => hc.2 hmode, hmode]
      exact if_neg (Ne.symm ht.1)
    rw [read_step hstep]
    exact ih ht.2

theorem read_swallowed {r : Reader} (hmode : r.mode = .comment) {vars : List (Text × Text)}
    (hfinish : finish h r = .ok vars) {row : Text × Text} (hrow : Takes row) :
    read h r (settingLine row) = .ok (.after vars) := by
  have hline : '\n' ∉ row.1 ++ ['='] ++ row.2 := by
    have hname : '\n' ∉ row.1 := fun hmem => absurd (name_chars_of_isName hrow.named _ hmem) (by decide)
    simp [hname, newline_not_mem_bare hrow.plain.bare]
  rw [settingLine, read_after (read_in_comment hmode hline), read_step (step_newline hfinish), read_nil]

theorem read_rows {rows : List (Text × Text)} (hrows : ∀ row ∈ rows, Takes row)
    (vars : List (Text × Text)) :
    read h (.after vars) (rows.flatMap settingLine) = .ok (.after (rows.reverse ++ vars)) := by
  induction rows generalizing vars with
  | nil => rfl
  | cons row rows ih =>
    obtain ⟨hrow, hrows⟩ := List.forall_mem_cons.mp hrows
    have hone : read h (.after vars) (settingLine row) = .ok (.after (row :: vars)) :=
      read_behind (r := .after vars) rfl rfl (finish_after vars) hrow
    rw [List.flatMap_cons, read_after hone, ih hrows, List.reverse_cons, List.append_assoc]
    rfl

/-! ## Inside of a word -/

theorem tildeName_length (value rest : List Part) :
    (tildeName (value ++ .char '/' false :: rest)).length ≤ value.length := by
  induction value with
  | nil => exact Nat.le_refl 0
  | cons p value ih =>
    cases p with
    | var n => exact Nat.zero_le _
    | char c quoted =>
      cases quoted with
      | true => exact Nat.zero_le _
      | false =>
        rw [List.cons_append, tildeName]
        split
        · exact Nat.zero_le _
        · exact Nat.succ_le_succ ih

theorem tilde_skip {vars : List (Text × Text)} {rest : List Part} {dir : Text} {skip : ℕ}
    (htilde : h.tilde vars rest = some (dir, skip)) : skip = (tildeName rest).length := by
  unfold Host.tilde at htilde
  dsimp only at htilde
  split at htilde
  · rw [Option.map_eq_some_iff] at htilde
    obtain ⟨_, -, hpair⟩ := htilde
    exact (congrArg Prod.snd hpair).symm
  · rw [Option.map_eq_some_iff] at htilde
    obtain ⟨_, -, hpair⟩ := htilde
    exact (congrArg Prod.snd hpair).symm
  · cases htilde

theorem expand_last {vars : List (Text × Text)} {fresh : Bool} {skip : ℕ} {value : List Part}
    {c : Char} {o : Text} (hskip : skip ≤ value.length)
    (ho : expand h vars fresh skip (value ++ chars ['/', c]) = .ok o) : o.getLast? = some c := by
  have hcons : ∀ {d : Char} {t : Text}, t.getLast? = some c → (d :: t).getLast? = some c := by
    intro d t ht
    cases t with
    | nil => cases ht
    | cons e t => rw [List.getLast?_cons_cons, ht]
  induction value generalizing fresh skip o with
  | nil =>
    have hzero : skip = 0 := Nat.le_zero.mp hskip
    subst hzero
    change expand h vars fresh 0 [.char '/' false, .char c false] = _ at ho
    have hslash : (fresh && !false && '/' == '~') = false := by cases fresh <;> rfl
    rw [expand, hslash] at ho
    obtain ⟨t, ht, rfl⟩ := except_map_eq_ok.mp ho
    refine hcons ?_
    rw [expand] at ht
    obtain ⟨u, hu, rfl⟩ := except_map_eq_ok.mp ht
    cases hu
    rfl
  | cons p value ih =>
    cases skip with
    | succ skip => exact ih (Nat.le_of_succ_le_succ hskip) ho
    | zero =>
      rw [List.cons_append] at ho
      cases p with
      | var n =>
        rw [expand] at ho
        split at ho
        · cases ho
        · split at ho
          · cases ho
          · obtain ⟨t, ht, rfl⟩ := except_map_eq_ok.mp ho
            rw [List.getLast?_append, ih (Nat.zero_le _) ht]
            rfl
      | char d quoted =>
        rw [expand] at ho
        split at ho
        · rename_i dir skip hdir
          obtain ⟨t, ht, rfl⟩ := except_map_eq_ok.mp ho
          have hlen : skip ≤ value.length := by
            split at hdir
            · rw [tilde_skip hdir]
              exact tildeName_length value _
            · cases hdir
          rw [List.getLast?_append, ih hlen ht]
          rfl
        · obtain ⟨t, ht, rfl⟩ := except_map_eq_ok.mp ho
          exact hcons (ih (Nat.zero_le _) ht)

theorem command_last {ws : List Word} {w : Word} {n : Text} {vars vars' : List (Text × Text)}
    (hcommand : command h vars (ws ++ [w]) = .ok vars') (hname : w.name = some n) :
    ∃ before value, expand h before true 0 w.value = .ok value ∧ vars'.lookup n = some value := by
  have hlookup : ∀ (value : Text) (rest : List (Text × Text)),
      ((n, value) :: rest).lookup n = some value := by
    intro value rest
    simp
  unfold command at hcommand
  split at hcommand
  · rw [List.foldlM_append] at hcommand
    obtain ⟨mid, -, hlast⟩ := except_bind_eq_ok.mp hcommand
    rw [List.foldlM_cons] at hlast
    obtain ⟨made, hmade, hnil⟩ := except_bind_eq_ok.mp hlast
    cases hnil
    simp only [assign, hname] at hmade
    split at hmade
    · cases hmade
    · obtain ⟨value, hvalue, rfl⟩ := except_map_eq_ok.mp hmade
      exact ⟨mid, value, hvalue, hlookup value mid⟩
  · rename_i hall
    cases ws with
    | nil => exact absurd (by simp [hname]) hall
    | cons first args =>
      rw [List.cons_append] at hcommand
      dsimp only at hcommand
      split at hcommand
      · obtain ⟨made, hmade, rfl⟩ := except_map_eq_ok.mp hcommand
        rw [List.mapM_append] at hmade
        obtain ⟨others, -, hmade⟩ := except_bind_eq_ok.mp hmade
        obtain ⟨mine, hmine, hpure⟩ := except_bind_eq_ok.mp hmade
        cases hpure
        rw [List.mapM_cons] at hmine
        obtain ⟨one, hone, hnil⟩ := except_bind_eq_ok.mp hmine
        cases hnil
        simp only [declare, hname] at hone
        split at hone
        · cases hone
        · obtain ⟨value, hvalue, rfl⟩ := except_map_eq_ok.mp hone
          refine ⟨vars, value, hvalue, ?_⟩
          rw [List.filterMap_append, List.reverse_append]
          exact hlookup value _
      · cases hcommand

/-- The last word of a command that does not assign can only be a name to export. -/
theorem command_names {ws : List Word} {w : Word} {vars vars' : List (Text × Text)}
    (hcommand : command h vars (ws ++ [w]) = .ok vars') (hname : w.name = none) :
    ∃ t, w.literal = some t ∧ isName t = true := by
  unfold command at hcommand
  rw [if_neg (by simp [hname])] at hcommand
  cases ws with
  | nil => simp at hcommand
  | cons first args =>
    rw [List.cons_append] at hcommand
    dsimp only at hcommand
    split at hcommand
    · obtain ⟨made, hmade, -⟩ := except_map_eq_ok.mp hcommand
      rw [List.mapM_append] at hmade
      obtain ⟨others, -, hmade⟩ := except_bind_eq_ok.mp hmade
      obtain ⟨mine, hmine, -⟩ := except_bind_eq_ok.mp hmade
      rw [List.mapM_cons] at hmine
      obtain ⟨one, hone, -⟩ := except_bind_eq_ok.mp hmine
      simp only [declare, hname] at hone
      split at hone
      · rename_i t hliteral
        split at hone
        · rename_i hn
          exact ⟨t, hliteral, hn⟩
        · cases hone
      · cases hone
    · cases hcommand

theorem read_more_name {r : Reader} {quoted : Bool} {begun : Text} (hmode : r.mode = .name quoted begun)
    {t : Text} (ht : ∀ c ∈ t, isNameChar c = true) :
    read h r t = .ok { r with mode := .name quoted (begun ++ t) } := by
  induction t generalizing r begun with
  | nil =>
    rw [List.append_nil, ← hmode]
    rfl
  | cons c t ih =>
    obtain ⟨hc, ht⟩ := List.forall_mem_cons.mp ht
    have hnul := (ordinary_iff.mp (name_char_ordinary hc).1).2.2.2.2.2.2.2
    have hstep : step h r c = .ok { r with mode := .name quoted (begun ++ [c]) } := by
      rw [step, if_neg fun h => hnul h.1, hmode]
      exact if_pos hc
    rw [read_step hstep, ih (r := { r with mode := .name quoted (begun ++ [c]) }) rfl ht,
      List.append_assoc]
    rfl

theorem read_name_inWord {r : Reader} (hword : r.InBareWord) {n : Text} (hn : isName n = true) :
    ∃ r', read h r n = .ok r' ∧ (r'.mode = .bare ∨ ∃ read, r'.mode = .name false read) ∧
      r'.words = r.words ∧ r'.vars = r.vars ∧ r'.word.name = r.word.name ∧
      (r.mode = .bare → r' = { r with word := r.word.extend n }) := by
  have hall := name_chars_of_isName hn
  obtain ⟨c, rest, rfl, hc, hrest⟩ := isName_iff.mp hn
  rcases hword with hmode | hmode | ⟨begun, hmode⟩
  · exact ⟨_, read_name_chars hmode hall, .inl hmode, rfl, rfl, rfl, fun _ => rfl⟩
  · have hnul := (ordinary_iff.mp (name_char_ordinary (name_start_char hc)).1).2.2.2.2.2.2.2
    have hstep : step h r c = .ok { r with mode := .name false [c] } := by
      rw [step, if_neg fun h => hnul h.1, hmode]
      exact if_pos hc
    refine ⟨{ r with mode := .name false ([c] ++ rest) }, ?_, .inr ⟨_, rfl⟩, rfl, rfl, rfl,
      fun hbare => ?_⟩
    · rw [read_step hstep, read_more_name (r := { r with mode := .name false [c] }) rfl hrest]
    · rw [hmode] at hbare
      cases hbare
  · refine ⟨_, read_more_name hmode hall, .inr ⟨_, rfl⟩, rfl, rfl, rfl, fun hbare => ?_⟩
    rw [hmode] at hbare
    cases hbare

theorem step_equals {r : Reader} (hmode : r.mode = .bare ∨ ∃ read, r.mode = .name false read) :
    step h r '=' =
      .ok { r.settle r.mode with mode := .bare, word := (r.settle r.mode).word.push '=' } := by
  rcases hmode with hmode | ⟨begun, hmode⟩
  · rw [step_open (.inl hmode) (by decide) (fun hdollar => by rw [hmode] at hdollar; cases hdollar),
      bare_ordinary (by decide)]
  · rw [step, if_neg fun hc => absurd hc.1 (by decide), hmode]
    change settled h r '=' = _
    rw [settled, hmode]
    exact bare_ordinary (h := h) (c := '=') (by decide)

theorem isName_append {t n : Text} (ht : isName t = true) (hn : isName n = true) :
    isName (t ++ n) = true := by
  obtain ⟨c, rest, rfl, hc, hrest⟩ := isName_iff.mp ht
  refine isName_iff.mpr ⟨c, rest ++ n, rfl, hc, fun d hd => ?_⟩
  rcases List.mem_append.mp hd with hd | hd
  · exact hrest d hd
  · exact name_chars_of_isName hn d hd

theorem read_glued {r : Reader} (hword : r.InBareWord) {n : Text} (hn : isName n = true) :
    ∃ w : Word, (∀ m, r.word.name = some m → w.name = some m) ∧
      (∀ t, r.mode = .bare → r.word.name = none → r.word.literal = some t → isName t = true →
        w.name = some (t ++ n)) ∧
      ∀ c, isNameChar c = true → read h r (settingLine (n, ['/', c])) =
        (command h r.vars (r.words ++ [w.extend ['/', c]])).map Reader.after := by
  obtain ⟨r', hread, hmode, hwords, hvars, hname, hbare⟩ := read_name_inWord (h := h) hword hn
  obtain ⟨hwords', hvars'⟩ := settle_same r' r'.mode
  refine ⟨(r'.settle r'.mode).word.push '=', fun m hm => ?_, fun t hm hnone hliteral ht => ?_,
    fun c hc => ?_⟩
  · have hm' : (r'.settle r'.mode).word.name = some m := settle_name (hname.trans hm)
    rw [push_named (by rw [hm']; rfl)]
    exact hm'
  · have hsame := hbare hm
    have hw : (r'.settle r'.mode).word = r.word.extend n := by
      have hm' : r'.mode = .bare := by
        rw [hsame]
        exact hm
      rw [settle_bare hm', hsame]
    have hquoted : r.word.quoted = false := by
      unfold Word.literal at hliteral
      split at hliteral
      · cases hliteral
      · simpa using ‹¬ r.word.quoted = true›
    have hassigned : (r.word.extend n).assigned = some (t ++ n) := by
      rw [Word.assigned, literal_extend hquoted hliteral, if_pos (by
        change r.word.name.isNone = true
        rw [hnone]
        rfl), Option.filter_some, if_pos (isName_append ht hn)]
    rw [hw, Word.push, if_pos rfl, hassigned]
  · have hord := (name_char_ordinary hc).1
    have hpush : ∀ (w : Word) (d : Char), d ≠ '=' → w.push d = w.add (.char d false) := by
      intro w d hd
      rw [Word.push, if_neg hd]
    generalize hw : (r'.settle r'.mode).word.push '=' = w
    have hequals := step_equals (h := h) hmode
    rw [hw] at hequals
    have hslash : step h { r'.settle r'.mode with mode := .bare, word := w } '/' =
        .ok { r'.settle r'.mode with mode := .bare, word := w.add (.char '/' false) } := by
      rw [step_open (.inl rfl) (by decide) (fun hdollar => by cases hdollar), settle_bare rfl,
        bare_ordinary (by decide), hpush w '/' (by decide)]
    have hchar : step h { r'.settle r'.mode with mode := .bare, word := w.add (.char '/' false) } c =
        .ok { r'.settle r'.mode with mode := .bare, word := w.extend ['/', c] } := by
      rw [step_open (.inl rfl) (ordinary_iff.mp hord).2.2.2.2.2.2.2
        (fun hdollar => by cases hdollar), settle_bare rfl, bare_ordinary hord,
        hpush _ c (name_char_ordinary hc).2.1, ← extend_cons, ← extend_cons]
      simp [Word.extend, chars]
    have hline : step h { r'.settle r'.mode with mode := .bare, word := w.extend ['/', c] } '\n' =
        (command h r.vars (r.words ++ [w.extend ['/', c]])).map Reader.after := by
      rw [step_open (.inl rfl) (by decide) (fun hdollar => by cases hdollar), settle_bare rfl]
      change (command h (r'.settle r'.mode).vars ((r'.settle r'.mode).words ++ [_])).map _ = _
      rw [hwords', hvars', hwords, hvars]
      rfl
    change read h r (n ++ ['='] ++ ['/', c] ++ ['\n']) = _
    rw [List.append_assoc, List.append_assoc, read_after hread]
    change read h r' ('=' :: '/' :: c :: ['\n']) = _
    rw [read_step hequals, read_step hslash, read_step hchar, read_cons, hline]
    cases command h r.vars (r.words ++ [w.extend ['/', c]]) <;> rfl

theorem literal_add {w : Word} {p : Part} {t : Text} (ht : (w.add p).literal = some t) :
    ∃ u c, t = u ++ [c] ∧ p.plain = some c := by
  unfold Word.literal Word.add at ht
  split at ht
  · cases ht
  · rw [List.mapM_append] at ht
    obtain ⟨u, -, ht⟩ := Option.bind_eq_some_iff.mp ht
    obtain ⟨v, hv, ht⟩ := Option.bind_eq_some_iff.mp ht
    cases ht
    rw [List.mapM_cons] at hv
    obtain ⟨c, hc, hv⟩ := Option.bind_eq_some_iff.mp hv
    cases hv
    exact ⟨u, c, rfl, hc⟩

/-- Read on to a word, a line gives its value to a variable that was set before, or
to one whose name the word began. -/
theorem glued {r : Reader} (hword : r.InBareWord) {vars : List (Text × Text)}
    (hfinish : finish h r = .ok vars) {n : Text} (hn : isName n = true) :
    ∃ m, (vars.lookup m ≠ none ∨ ∃ t, t ≠ [] ∧ m = t ++ n) ∧
      ∀ c r', isNameChar c = true → read h r (settingLine (n, ['/', c])) = .ok r' →
        ∃ vars' value, r' = .after vars' ∧ vars'.lookup m = some value ∧
          value.getLast? = some c := by
  obtain ⟨w, hnamed, hliteral, hread⟩ := read_glued (h := h) hword hn
  have hcommand : command h r.vars (r.words ++ [(r.settle r.mode).word]) = .ok vars := by
    unfold finish at hfinish
    rcases hword with hmode | hmode | ⟨begun, hmode⟩
    all_goals
      rw [hmode] at hfinish ⊢
      exact hfinish
  have hvalue : ∀ m, w.name = some m → ∀ c r', isNameChar c = true →
      read h r (settingLine (n, ['/', c])) = .ok r' →
        ∃ vars' value, r' = .after vars' ∧ vars'.lookup m = some value ∧
          value.getLast? = some c := by
    intro m hm c r' hc hr'
    rw [hread c hc] at hr'
    obtain ⟨vars', hvars', rfl⟩ := except_map_eq_ok.mp hr'
    obtain ⟨before, value, hexpand, hlookup⟩ := command_last hvars' (w := w.extend ['/', c]) hm
    exact ⟨vars', value, rfl, hlookup, expand_last (Nat.zero_le _) hexpand⟩
  cases hname : r.word.name with
  | some m =>
    refine ⟨m, .inl ?_, hvalue m (hnamed m hname)⟩
    obtain ⟨-, value, -, hlookup⟩ := command_last hcommand (settle_name hname)
    rw [hlookup]
    exact Option.some_ne_none value
  | none =>
    have hsettled : (r.settle r.mode).word.name = none := by
      rcases hword with hmode | hmode | ⟨begun, hmode⟩ <;> rw [hmode] <;> exact hname
    obtain ⟨t, ht, hname'⟩ := command_names hcommand hsettled
    -- behind a `$` or a variable the word is no name
    have hmode : r.mode = .bare := by
      rcases hword with hmode | hmode | ⟨begun, hmode⟩
      · exact hmode
      · rw [hmode] at ht
        obtain ⟨u, c, rfl, hc⟩ := literal_add ht
        have hdollar : '$' = c := Option.some.inj hc
        have hchar := name_chars_of_isName hname' c (by simp)
        rw [← hdollar] at hchar
        cases hchar
      · rw [hmode] at ht
        obtain ⟨u, c, -, hc⟩ := literal_add ht
        cases hc
    rw [settle_bare hmode] at ht
    refine ⟨t ++ n, .inr ⟨t, ?_, rfl⟩, hvalue _ (hliteral t hmode hname ht hname')⟩
    rintro rfl
    cases hname'

end Provisioner.Shell
