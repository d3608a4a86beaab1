import Provisioner.Tailscale.Complete

/-!
# Arguments written plainly

One or two dashes, a boolean flag alone or with one of Go's booleans, any other
flag with its value after `=` or in a word of its own that is no flag: such
arguments have one reading.
-/

namespace Provisioner.Tailscale

open Text (lower strip startswith)

inductive Plain : List Text → Prop
  | nil : Plain []
  | bool {tok name : Text} {rest : List Text} : goFlag tok = some (name, none) →
      name ∈ goBoolFlags → Plain rest → Plain (tok :: rest)
  | boolValue {tok name value : Text} {b : Bool} {rest : List Text} :
      goFlag tok = some (name, some value) → name ∈ goBoolFlags →
      parseBool value = some b → Plain rest → Plain (tok :: rest)
  | value {tok name value : Text} {rest : List Text} : goFlag tok = some (name, some value) →
      name ∈ table → name ∉ goBoolFlags → Plain rest → Plain (tok :: rest)
  -- the ignored flags have to be given their value with `=`
  | next {tok name value : Text} {rest : List Text} : goFlag tok = some (name, none) →
      name ∈ table → name ∉ goBoolFlags → name ∉ tsIgnoredFlags →
      startswith value "-" = false → Plain rest → Plain (tok :: value :: rest)

section

variable {tok name value : Text} {rest tokens : List Text} {p p' : Parsed} {items : List Item}
  {upArgs : Text}

theorem goFlag_spec {v : Option Text} (h : goFlag tok = some (name, v)) :
    startswith tok "-" = true ∧ beforeEquals (bare tok) = name ∧ afterEquals (bare tok) = v := by
  have hnamed : ∀ {t : Text}, (if t.isEmpty || t.head? = some '-' || t.head? = some '=' then none
      else some (beforeEquals t, afterEquals t)) = some (name, v) →
      bare t = t ∧ beforeEquals t = name ∧ afterEquals t = v := by
    intro t h
    split_ifs at h with hbad
    rw [Option.some.injEq, Prod.mk.injEq] at h
    refine ⟨?_, h⟩
    cases t with
    | nil => rfl
    | cons c t =>
      have hc : (c == '-') = false := by
        rw [beq_eq_false_iff_ne]
        rintro rfl
        simp at hbad
      rw [bare, List.dropWhile_cons, hc]
      rfl
  unfold goFlag at h
  split at h
  · obtain ⟨hbare, hname, hvalue⟩ := hnamed h
    refine ⟨rfl, ?_⟩
    have hdash : ∀ t : Text, bare ('-' :: '-' :: t) = bare t := fun _ => rfl
    rw [hdash, hbare]
    exact ⟨hname, hvalue⟩
  · obtain ⟨hbare, hname, hvalue⟩ := hnamed h
    refine ⟨rfl, ?_⟩
    have hdash : ∀ t : Text, bare ('-' :: t) = bare t := fun _ => rfl
    rw [hdash, hbare]
    exact ⟨hname, hvalue⟩
  · cases h

/-! ## One flag -/

theorem parse_value (h : goFlag tok = some (name, some value)) :
    tsParseTokens p (tok :: rest) = tsParseTokens (p.set name value) rest := by
  obtain ⟨hdash, hname, hvalue⟩ := goFlag_spec h
  rw [tsParseTokens, if_pos hdash]
  simp only [hname, hvalue]

theorem parse_alone (h : goFlag tok = some (name, none)) (halone : standsAlone name = true) :
    tsParseTokens p (tok :: rest) = tsParseTokens (p.set name "true") rest := by
  obtain ⟨hdash, hname, hvalue⟩ := goFlag_spec h
  rw [tsParseTokens, if_pos hdash]
  simp only [hname, hvalue, halone, if_true]

theorem parse_next (h : goFlag tok = some (name, none)) (halone : standsAlone name = false)
    (hvalue : startswith value "-" = false) :
    tsParseTokens p (tok :: value :: rest) = tsParseTokens (p.set name value) rest := by
  obtain ⟨hdash, hname, hnone⟩ := goFlag_spec h
  rw [tsParseTokens, if_pos hdash]
  simp only [hname, hnone, halone, hvalue, Bool.false_eq_true, if_false]

theorem bool_standsAlone (h : name ∈ goBoolFlags) : standsAlone name = true ∧ name ∈ table := by
  have hall : ∀ name ∈ goBoolFlags, standsAlone name = true ∧ name ∈ table := by decide
  exact hall name h

theorem value_not_alone (h : name ∉ goBoolFlags) (hignored : name ∉ tsIgnoredFlags) :
    standsAlone name = false := by
  have hbool : ∀ name ∈ tsBoolFlagNames ++ [("advertise-exit-node" : Text), "snat-subnet-routes"],
      name ∈ goBoolFlags := by decide
  rw [← Bool.not_eq_true, standsAlone]
  simp only [Bool.or_eq_true, decide_eq_true_eq, not_or]
  have hnot := fun hmem => h (hbool name hmem)
  refine ⟨⟨⟨fun hmem => hnot (List.mem_append_left _ hmem), ?_⟩, ?_⟩, hignored⟩
  · rintro rfl
    exact hnot (by decide)
  · rintro rfl
    exact hnot (by decide)

theorem set_text (h : name ∈ table) (flag : Text) :
    (p.set name value).text flag = if name = flag then some value else p.text flag := by
  have hname : name ≠ "_positional" := by
    rintro rfl
    exact absurd h (by decide)
  rw [Parsed.set, if_neg hname, Parsed.text, Dict.get_put]
  rfl

theorem set_positional (h : name ∈ table) : (p.set name value).positional = p.positional := by
  have hname : name ≠ "_positional" := by
    rintro rfl
    exact absurd h (by decide)
  rw [Parsed.set, if_neg hname]

theorem tsBool_of_parse {b : Bool} (h : parseBool value = some b) : tsBool value = b := by
  unfold parseBool at h
  have htrue : ∀ v ∈ (["1", "t", "T", "TRUE", "true", "True"] : List Text), tsBool v = true := by
    decide
  have hfalse : ∀ v ∈ (["0", "f", "F", "FALSE", "false", "False"] : List Text), tsBool v = false := by
    decide
  split_ifs at h with h1 h0
  · cases h
    exact htrue value h1
  · cases h
    exact hfalse value h0

/-! ## All of them -/

theorem goText_cons (item : Item) (flag : Text) :
    goText (item :: items) flag = (goText items flag).or (goText [item] flag) := by
  rw [goText, List.reverse_cons, List.findSome?_append]
  rfl

theorem goBool_cons (item : Item) (flag : Text) :
    goBool (item :: items) flag = (goBool items flag).or (goBool [item] flag) := by
  rw [goBool, List.reverse_cons, List.findSome?_append]
  rfl

/-- What the filter holds after the flags that Go has read as `items`. -/
structure Holds (p p' : Parsed) (items : List Item) : Prop where
  positional : p'.positional = p.positional
  text : ∀ flag ∉ goBoolFlags, p'.text flag = (goText items flag).or (p.text flag)
  bool : ∀ flag ∈ goBoolFlags, p'.bool flag = (goBool items flag).or (p.bool flag)

theorem Holds.bool_cons {b : Bool} (hname : name ∈ goBoolFlags) (hvalue : tsBool value = b)
    (h : Holds (p.set name value) p' items) : Holds p p' (.bool name b :: items) where
  positional := h.positional.trans (set_positional (bool_standsAlone hname).2)
  text flag hflag := by
    have hne : name ≠ flag := fun heq => hflag (heq ▸ hname)
    rw [h.text flag hflag, set_text (bool_standsAlone hname).2, if_neg hne, goText_cons]
    simp [goText]
  bool flag hflag := by
    rw [h.bool flag hflag, goBool_cons, Parsed.bool, set_text (bool_standsAlone hname).2]
    by_cases heq : name = flag
    · simp [goBool, heq, hvalue]
    · simp [goBool, heq, Parsed.bool]

theorem Holds.text_cons (htable : name ∈ table) (hname : name ∉ goBoolFlags)
    (h : Holds (p.set name value) p' items) : Holds p p' (.text name value :: items) where
  positional := h.positional.trans (set_positional htable)
  text flag hflag := by
    rw [h.text flag hflag, goText_cons, set_text htable]
    by_cases heq : name = flag
    · simp [goText, heq]
    · simp [goText, heq]
  bool flag hflag := by
    have hne : name ≠ flag := fun heq => hname (heq ▸ hflag)
    rw [h.bool flag hflag, goBool_cons, Parsed.bool, set_text htable, if_neg hne]
    simp [goBool, Parsed.bool]

theorem Plain.holds (h : Plain tokens) (p : Parsed) : ∃ p' items,
    tsParseTokens p tokens = some p' ∧ goParse tokens = some items ∧ Holds p p' items := by
  induction h generalizing p with
  | nil => exact ⟨p, [], rfl, rfl, rfl, fun _ _ => rfl, fun _ _ => rfl⟩
  | @bool tok name rest htok hname _ ih =>
    obtain ⟨p', items, hp', hitems, hholds⟩ := ih (p.set name "true")
    obtain ⟨halone, htable⟩ := bool_standsAlone hname
    refine ⟨p', .bool name true :: items, ?_, ?_, hholds.bool_cons hname (by decide)⟩
    · rw [parse_alone htok halone, hp']
    · simp [goParse, htok, htable, hname, hitems]
  | @boolValue tok name value b rest htok hname hvalue _ ih =>
    obtain ⟨p', items, hp', hitems, hholds⟩ := ih (p.set name value)
    have htable := (bool_standsAlone hname).2
    refine ⟨p', .bool name b :: items, ?_, ?_, hholds.bool_cons hname (tsBool_of_parse hvalue)⟩
    · rw [parse_value htok, hp']
    · simp [goParse, htok, htable, hname, hvalue, hitems]
  | @value tok name value rest htok htable hname _ ih =>
    obtain ⟨p', items, hp', hitems, hholds⟩ := ih (p.set name value)
    refine ⟨p', .text name value :: items, ?_, ?_, hholds.text_cons htable hname⟩
    · rw [parse_value htok, hp']
    · simp [goParse, htok, htable, hname, hitems]
  | @next tok name value rest htok htable hname hignored hvalue _ ih =>
    obtain ⟨p', items, hp', hitems, hholds⟩ := ih (p.set name value)
    refine ⟨p', .text name value :: items, ?_, ?_, hholds.text_cons htable hname⟩
    · rw [parse_next htok (value_not_alone hname hignored) hvalue, hp']
    · simp [goParse, htok, htable, hname, hitems]

/-- Arguments written plainly are refused, or have one reading. -/
theorem refused_or_same_of_plain (htokens : shlexSplit upArgs = some tokens)
    (hplain : Plain tokens) : Refused upArgs ∨ SameReading upArgs := by
  obtain ⟨p, items, hp, hitems, hholds⟩ := hplain.holds {}
  have hargs : tsParseArgs upArgs = some p := by rw [tsParseArgs, htokens]; exact hp
  have htext : ∀ flag ∉ goBoolFlags, p.text flag = goText items flag := by
    intro flag hflag
    rw [hholds.text flag hflag]
    exact Option.or_none
  have hbool : ∀ flag ∈ goBoolFlags, p.bool flag = goBool items flag := by
    intro flag hflag
    rw [hholds.bool flag hflag]
    exact Option.or_none
  by_cases hver : Verifiable p
  · right
    refine ⟨tokens, items, p, htokens, hitems, hargs, ?_⟩
    have hnot : ∀ flag ∈ ([("hostname" : Text), "operator", "login-server", "advertise-routes",
        "netfilter-mode", "advertise-tags", "exit-node"]), flag ∉ goBoolFlags := by decide
    have hroutes : routeSet p.bool p.text = routeSet (goBool items) (goText items) := by
      rw [routeSet, routeSet, hbool _ (by decide), htext _ (hnot _ (by decide))]
    exact {
      bools := by
        intro row hrow
        have hmem : row.flag ∈ goBoolFlags := by
          simp only [tsBoolFlags, List.mem_cons, List.not_mem_nil, or_false] at hrow
          obtain rfl | rfl | rfl | rfl | rfl := hrow <;> decide
        rw [hbool _ hmem]
      strings := by
        intro row hrow
        have hmem : row.flag ∉ goBoolFlags := by
          simp only [tsStringFlags, List.mem_cons, List.not_mem_nil, or_false] at hrow
          obtain rfl | rfl := hrow <;> decide
        rw [htext _ hmem]
      control := by rw [htext _ (hnot _ (by decide))]
      routes := by rw [wantRoutes, wantRoutes, hroutes]
      snat := by rw [wantSnat, wantSnat, hbool _ (by decide)]
      netfilter := by rw [netfilterMode, netfilterMode, htext _ (hnot _ (by decide))]
      tags := by
        intro tags
        rw [wantTags, wantTags, tagSet, tagSet, htext _ (hnot _ (by decide))]
      exit_node := by
        rw [← htext _ (hnot _ (by decide))]
        exact ⟨hver.no_exit_node, hver.no_exit_node⟩ }
  · left
    intro p' hp' hver'
    cases hargs.symm.trans hp'
    exact hver hver'

/-- The comparison is complete exactly for the arguments that the filter refuses
by themselves, or reads as Go reads them; written plainly, all arguments are one
of the two. -/
theorem comparison_complete_iff (upArgs : Text) :
    ((∀ prefsStdout tags, Complete prefsStdout upArgs tags) ↔
      Refused upArgs ∨ SameReading upArgs) ∧
      ∀ tokens, shlexSplit upArgs = some tokens → Plain tokens →
        Refused upArgs ∨ SameReading upArgs :=
  ⟨complete_iff_reading upArgs, fun _ htokens hplain => refused_or_same_of_plain htokens hplain⟩

end

example : shlexSplit "--ssh --hostname node1 -accept-dns=false" =
    some [("--ssh" : Text), "--hostname", "node1", "-accept-dns=false"] := by decide

/-! ## A host name that is a flag -/

def sshNode : Prefs where
  WantRunning := some true
  RunSSH := some true

/-- The filter reads no host name and the flag `--ssh`; Go reads the host name
`--ssh`, and no other flag. -/
theorem hostname_takes_flag :
    tailscalePrefsProblems (some sshNode) "--hostname --ssh" [] = some [] ∧
      ¬ Complete (some sshNode) "--hostname --ssh" [] := by
  have hnone : tailscalePrefsProblems (some sshNode) "--hostname --ssh" [] = some [] := by
    decide +kernel
  refine ⟨hnone, fun hcomplete => ?_⟩
  obtain ⟨prefs, hprefs, -, tokens, items, htokens, hitems, hagrees⟩ := hcomplete hnone
  cases hprefs
  have hsplit : shlexSplit "--hostname --ssh" = some [("--hostname" : Text), "--ssh"] := by
    decide +kernel
  have hread : goParse [("--hostname" : Text), "--ssh"] = some [.text "hostname" "--ssh"] := by
    decide +kernel
  cases htokens.symm.trans hsplit
  cases hitems.symm.trans hread
  have hname := hagrees.strings ⟨"hostname", "Hostname", Prefs.Hostname⟩ (by simp [tsStringFlags])
  have hdiffer : (sshNode.Hostname.getD [] : Text) ≠
      (goText [.text "hostname" "--ssh"] "hostname").getD [] := by decide +kernel
  exact hdiffer hname

end Provisioner.Tailscale
