import Provisioner.Library.Words
import Provisioner.Tailscale.Compare

/-!
# Reconciling a logged-in node

`tailscale_set_args`: the arguments of `tailscale set` that make the node match
the flags, and the differences that no such argument reconciles.
-/

namespace Provisioner.Tailscale

open Text (join lower sorted)

/-! ## The arguments -/

def isSafe (c : Char) : Bool := c.isAlphanum || c ∈ ("_@%+=:,./-" : Text)

def quote (t : Text) : Text :=
  if t.isEmpty then "''"
  else if t.all isSafe then t
  else '\'' :: (t.flatMap fun c => if c = '\'' then "'\"'\"'" else [c]) ++ ['\'']

def boolText (value : Bool) : Text := if value then "true" else "false"

def declaredRoutes (p : Parsed) : List Text := tsList ((p.text "advertise-routes").getD [])

def declaredExitNode (p : Parsed) : Bool := (p.bool "advertise-exit-node").getD false

def routeFlags (p : Parsed) (have_ : List Text) : List (Text × Text) :=
  (if sorted (have_.filter (· ∉ exitRoutes)) ≠ declaredRoutes p then
    [(("advertise-routes" : Text), join "," (declaredRoutes p))] else []) ++
  if exitRoutes.all (· ∈ have_) ≠ declaredExitNode p then
    [(("advertise-exit-node" : Text), boolText (declaredExitNode p))] else []

/-- The flags that go with a problem, and their values. -/
def setFlags (p : Parsed) : Problem → List (Text × Text)
  | .boolDiffers _ flag _ want => [(flag, boolText want)]
  | .stringDiffers _ flag => [(flag, (p.text flag).getD [])]
  | .routesDiffer have_ _ => routeFlags p have_
  | .snatDiffers => [("snat-subnet-routes", boolText (wantSnat p.bool))]
  | .netfilterDiffers mode => [("netfilter-mode", lower mode)]
  | .exitNodeUsed => [("exit-node", "")]
  | .setByHand key =>
    if key = "RunWebClient" then [("webclient", "false")]
    else if key = "PostureChecking" then [("report-posture", "false")]
    else []
  | _ => []

-- only the values of the two text flags are quoted
def argText (flag : Text × Text) : Text :=
  "--" ++ flag.1 ++ "=" ++ if flag.1 ∈ tsStringFlagNames then quote flag.2 else flag.2

/-- The second part of a pair of `_compare`: `None` where no flag goes with the problem. -/
def setArg (p : Parsed) (problem : Problem) : Option Text :=
  if (setFlags p problem).isEmpty then none
  else some (join " " ((setFlags p problem).map argText))

structure SetArgs where
  set : List Text
  manual : List Problem
deriving DecidableEq, Repr

/-- `none` where the arguments cannot be read, and the filter fails. -/
def tailscaleSetArgs (prefsStdout : Option Prefs) (upArgs : Text) (tags : List Text) :
    Option SetArgs :=
  match prefsStdout with
  | none => some ⟨[], [.noDocument]⟩
  | some prefs =>
    (tsParseArgs upArgs).map fun p =>
      ⟨(compare prefs tags p).filterMap (setArg p),
        (compare prefs tags p).filter fun problem => (setArg p problem).isNone⟩

/-! ## What a shell and `tailscale set` read -/

def readArg (tok : Text) : Option (Text × Text) :=
  match goFlag tok with
  | some (name, some value) => some (name, value)
  | _ => none

/-- The arguments joined by blanks, as the operator is told to run them. -/
def readArgs (set : List Text) : Option (List (Text × Text)) :=
  match shlexSplit (join " " set) with
  | some tokens => tokens.mapM readArg
  | none => none

def isBare (c : Char) : Bool := !isShlexBlank c && c ≠ '\\' && c ≠ '\'' && c ≠ '"'

theorem shlex_bare {t : Text} (ht : ∀ c ∈ t, isBare c = true) (token rest : Text) :
    shlexTokens .word token (t ++ rest) = shlexTokens .word (token ++ t) rest := by
  induction t generalizing token with
  | nil => simp
  | cons c t ih =>
    have hc : isBare c = true := ht c List.mem_cons_self
    simp only [isBare, Bool.and_eq_true, Bool.not_eq_true', decide_eq_true_eq] at hc
    obtain ⟨⟨⟨hblank, hslash⟩, hsingle⟩, hdouble⟩ := hc
    rw [List.cons_append, shlexTokens, hblank, if_neg Bool.false_ne_true, if_neg hslash,
      if_neg (by simp [hsingle, hdouble]), ih (fun c hc => ht c (List.mem_cons_of_mem _ hc))]
    simp

theorem isBare_of_safe {c : Char} (hc : isSafe c = true) : isBare c = true := by
  have hpoint : ∀ c ∈ ("_@%+=:,./-" : Text), isBare c = true := by decide
  simp only [isSafe, Bool.or_eq_true, decide_eq_true_eq] at hc
  obtain hc | hc := hc
  · have hne : ∀ d ∈ ([' ', '\t', '\r', '\n', '\\', '\'', '"'] : List Char), d.isAlphanum = false := by
      decide
    have hnot : ∀ d ∈ ([' ', '\t', '\r', '\n', '\\', '\'', '"'] : List Char), c ≠ d := by
      rintro d hd rfl
      rw [hne c hd] at hc
      cases hc
    simp only [List.mem_cons, List.not_mem_nil, or_false, forall_eq_or_imp, forall_eq] at hnot
    simp [isBare, isShlexBlank, hnot]
  · exact hpoint c hc

theorem shlex_quoted (t token rest : Text) :
    shlexTokens (.quote '\'') token
        ((t.flatMap fun c => if c = '\'' then "'\"'\"'" else [c]) ++ '\'' :: rest) =
      shlexTokens .word (token ++ t) rest := by
  induction t generalizing token with
  | nil => simp [shlexTokens]
  | cons c t ih =>
    rw [List.flatMap_cons, List.append_assoc]
    by_cases hc : c = '\''
    · subst hc
      have hquote : ∀ u : Text, shlexTokens (.quote '\'') token (("'\"'\"'" : Text) ++ u) =
          shlexTokens (.quote '\'') (token ++ ['\'']) u := by
        intro u
        simp [shlexTokens, isShlexBlank]
      rw [if_pos rfl, hquote, ih, List.append_assoc, List.singleton_append]
    · rw [if_neg hc, List.singleton_append, shlexTokens, if_neg hc, if_neg (by simp), ih,
        List.append_assoc, List.singleton_append]

theorem shlex_quote (t token rest : Text) :
    shlexTokens .word token (quote t ++ rest) = shlexTokens .word (token ++ t) rest := by
  unfold quote
  split_ifs with hempty hsafe
  · rw [List.isEmpty_iff] at hempty
    subst hempty
    simp [shlexTokens, isShlexBlank]
  · exact shlex_bare (fun c hc => isBare_of_safe (List.all_eq_true.mp hsafe c hc)) token rest
  · rw [List.append_assoc, List.cons_append, shlexTokens]
    simp only [isShlexBlank]
    exact shlex_quoted t token rest

/-! ## The arguments flag by flag -/

def settableFlags : List Text :=
  tsBoolFlagNames ++ tsStringFlagNames ++
    [("advertise-routes" : Text), "advertise-exit-node", "snat-subnet-routes", "netfilter-mode",
      "exit-node", "webclient", "report-posture"]

section Settings

variable (prefs : Prefs) (p : Parsed)

def boolSetting (row : BoolFlag) : Option Text :=
  if (row.key prefs).getD row.default ≠ (p.bool row.flag).getD row.default then
    some (boolText ((p.bool row.flag).getD row.default))
  else none

def stringSetting (row : StringFlag) : Option Text :=
  if (row.key prefs).getD [] ≠ (p.text row.flag).getD [] then some ((p.text row.flag).getD [])
  else none

def haveRoutes : List Text := sorted (prefs.AdvertiseRoutes.getD [])

def routesSetting : Option Text :=
  if haveRoutes prefs ≠ wantRoutes p.bool p.text ∧
      sorted ((haveRoutes prefs).filter (· ∉ exitRoutes)) ≠ declaredRoutes p then
    some (join "," (declaredRoutes p))
  else none

def exitNodeSetting : Option Text :=
  if haveRoutes prefs ≠ wantRoutes p.bool p.text ∧
      exitRoutes.all (· ∈ haveRoutes prefs) ≠ declaredExitNode p then
    some (boolText (declaredExitNode p))
  else none

def snatSetting : Option Text :=
  if prefs.NoSNAT.getD false ≠ !wantSnat p.bool then some (boolText (wantSnat p.bool)) else none

def netfilterSetting : Option Text :=
  match tsNetfilter (netfilterMode p.text) with
  | none => none
  | some mode =>
    if prefs.NetfilterMode.getD 2 ≠ mode then some (lower (netfilterMode p.text)) else none

def useSetting : Option Text :=
  if (p.text "exit-node").isNone ∧ (prefs.ExitNodeID.getD [] ≠ [] ∨ prefs.ExitNodeIP.getD [] ≠ [])
  then some "" else none

def resetSetting (value : Option Bool) : Option Text := if value.getD false then some "false" else none

/-- What `tailscale set` is told of each flag, if anything. -/
def settings : List (Text × Option Text) :=
  tsBoolFlags.map (fun row => (row.flag, boolSetting prefs p row)) ++
  tsStringFlags.map (fun row => (row.flag, stringSetting prefs p row)) ++
  [(("advertise-routes" : Text), routesSetting prefs p),
    ("advertise-exit-node", exitNodeSetting prefs p),
    ("snat-subnet-routes", snatSetting prefs p), ("netfilter-mode", netfilterSetting prefs p),
    ("exit-node", useSetting prefs p), ("webclient", resetSetting prefs.RunWebClient),
    ("report-posture", resetSetting prefs.PostureChecking)]

end Settings

def given (settings : List (Text × Option Text)) : List (Text × Text) :=
  settings.flatMap fun setting => (setting.2.map fun value => (setting.1, value)).toList

theorem settings_keys (prefs : Prefs) (p : Parsed) :
    (settings prefs p).map Prod.fst = settableFlags := rfl

theorem setFlags_nodup : settableFlags.Nodup := by decide

section Given

variable {prefs : Prefs} {p : Parsed} {tags : List Text} {flag : Text} {value : Option Text}

theorem mem_given {settings : List (Text × Option Text)} {v : Text} :
    (flag, v) ∈ given settings ↔ (flag, some v) ∈ settings := by
  unfold given
  rw [List.mem_flatMap]
  constructor
  · rintro ⟨⟨flag', value⟩, hmem, hv⟩
    rw [Option.mem_toList, Option.map_eq_some_iff] at hv
    obtain ⟨v', rfl, hpair⟩ := hv
    cases hpair
    exact hmem
  · intro hmem
    exact ⟨(flag, some v), hmem, by simp⟩

theorem setting_unique (hmem : (flag, value) ∈ settings prefs p) {v : Text} :
    (flag, v) ∈ given (settings prefs p) ↔ value = some v := by
  rw [mem_given]
  constructor
  · intro hv
    have hnodup : ((settings prefs p).map Prod.fst).Nodup := by
      rw [settings_keys]
      exact setFlags_nodup
    have hsame := List.inj_on_of_nodup_map hnodup hmem hv rfl
    exact (Prod.mk.inj hsame).2
  · rintro rfl
    exact hmem

theorem given_bools : (boolProblems prefs p.bool).flatMap (setFlags p) =
    given (tsBoolFlags.map fun row => (row.flag, boolSetting prefs p row)) := by
  rw [boolProblems, given, List.flatMap_assoc, List.flatMap_map]
  refine List.flatMap_congr fun row _ => ?_
  dsimp only
  unfold boolSetting
  split_ifs <;> rfl

theorem given_strings : (stringProblems prefs p.text).flatMap (setFlags p) =
    given (tsStringFlags.map fun row => (row.flag, stringSetting prefs p row)) := by
  rw [stringProblems, given, List.flatMap_assoc, List.flatMap_map]
  refine List.flatMap_congr fun row _ => ?_
  unfold stringSetting
  split_ifs <;> rfl

theorem given_routes : (routeProblems prefs p.bool p.text).flatMap (setFlags p) =
    given [(("advertise-routes" : Text), routesSetting prefs p),
      ("advertise-exit-node", exitNodeSetting prefs p)] := by
  have hproblems : routeProblems prefs p.bool p.text =
      if haveRoutes prefs ≠ wantRoutes p.bool p.text then
        [.routesDiffer (haveRoutes prefs) (wantRoutes p.bool p.text)] else [] := rfl
  rw [hproblems]
  unfold routesSetting exitNodeSetting
  by_cases hdiffer : haveRoutes prefs ≠ wantRoutes p.bool p.text
  · rw [if_pos hdiffer]
    simp only [List.flatMap_cons, List.flatMap_nil, List.append_nil, setFlags, routeFlags, given]
    congr 1
    · by_cases hroutes :
        sorted ((haveRoutes prefs).filter (· ∉ exitRoutes)) ≠ declaredRoutes p
      · rw [if_pos hroutes, if_pos ⟨hdiffer, hroutes⟩]
        rfl
      · rw [if_neg hroutes, if_neg (fun h => hroutes h.2)]
        rfl
    · by_cases hexit : exitRoutes.all (· ∈ haveRoutes prefs) ≠ declaredExitNode p
      · rw [if_pos hexit, if_pos ⟨hdiffer, hexit⟩]
        rfl
      · rw [if_neg hexit, if_neg (fun h => hexit h.2)]
        rfl
  · rw [if_neg hdiffer, if_neg (fun h => hdiffer h.1), if_neg (fun h => hdiffer h.1)]
    rfl

theorem given_snat : (snatProblems prefs p.bool).flatMap (setFlags p) =
    given [(("snat-subnet-routes" : Text), snatSetting prefs p)] := by
  unfold snatProblems snatSetting
  split_ifs <;> rfl

theorem given_netfilter : (netfilterProblems prefs p.text).flatMap (setFlags p) =
    given [(("netfilter-mode" : Text), netfilterSetting prefs p)] := by
  unfold netfilterProblems netfilterSetting
  cases tsNetfilter (netfilterMode p.text) with
  | none => rfl
  | some mode =>
    dsimp only
    split_ifs <;> rfl

theorem given_exit_node : (exitNodeProblems prefs p.text).flatMap (setFlags p) =
    given [(("exit-node" : Text), useSetting prefs p)] := by
  unfold exitNodeProblems useSetting
  cases p.text "exit-node" with
  | none =>
    simp only [Option.isSome_none, Option.isNone_none, Bool.false_eq_true, if_false, true_and]
    split_ifs <;> rfl
  | some value => rfl

theorem given_byHand : (byHandProblems prefs).flatMap (setFlags p) =
    given [(("webclient" : Text), resetSetting prefs.RunWebClient),
      ("report-posture", resetSetting prefs.PostureChecking)] := by
  unfold byHandProblems resetSetting
  split_ifs <;> simp [setFlags, given]

theorem given_settings : (compare prefs tags p).flatMap (setFlags p) = given (settings prefs p) := by
  have hquiet : ∀ {problems : List Problem}, (∀ q ∈ problems, setFlags p q = []) →
      problems.flatMap (setFlags p) = [] := fun h => List.flatMap_eq_nil_iff.mpr h
  have hrunning : (runningProblems prefs).flatMap (setFlags p) = [] := by
    unfold runningProblems
    split_ifs <;> rfl
  have harguments : (argumentProblems p.positional).flatMap (setFlags p) = [] := by
    cases p.positional with
    | unset => rfl
    | words words => simp [argumentProblems, setFlags, List.flatMap_map]
    | text value => simp [argumentProblems, setFlags, List.flatMap_map]
  have hcontrol : (controlProblems prefs p.text).flatMap (setFlags p) = [] := by
    unfold controlProblems
    split
    · split_ifs <;> rfl
    · split_ifs <;> rfl
  have htags : (tagProblems prefs p.text tags).flatMap (setFlags p) = [] := by
    unfold tagProblems
    dsimp only
    split_ifs <;> rfl
  have hleftover : (leftoverProblems p).flatMap (setFlags p) = [] := by
    simp [leftoverProblems, setFlags, List.flatMap_map]
  rw [compare]
  simp only [List.flatMap_append, hrunning, harguments, hcontrol, htags, hleftover, given_bools,
    given_strings, given_routes, given_snat, given_netfilter, given_exit_node, given_byHand]
  simp only [given, settings, List.flatMap_append, List.flatMap_cons, List.flatMap_nil,
    List.append_nil, List.nil_append, List.append_assoc]

end Given

/-! ## Reading the arguments back -/

/-- As `netip` prints a prefix. -/
def CanonicalRoute (route : Text) : Prop :=
  ∀ c ∈ route, c.isDigit = true ∨ c ∈ ("abcdef:./" : Text)

theorem isSafe_of_route {route : Text} (hroute : CanonicalRoute route) {c : Char} (hc : c ∈ route) :
    isSafe c = true := by
  have hall : ∀ c ∈ ("abcdef:./" : Text), isSafe c = true := by decide
  obtain hdigit | hc := hroute c hc
  · simp [isSafe, Char.isAlphanum, hdigit]
  · exact hall c hc

def flagWord (flag : Text × Text) : Text := "--" ++ flag.1 ++ "=" ++ flag.2

/-- The name of a flag, with a value that is quoted or needs no quotes. -/
structure Readable (flag : Text × Text) : Prop where
  named : flag.1 ∈ settableFlags
  value : flag.1 ∉ tsStringFlagNames → ∀ c ∈ flag.2, isBare c = true

theorem flag_names : ∀ name ∈ settableFlags, name.isEmpty = false ∧ name.head? ≠ some '-' ∧
    name.head? ≠ some '=' ∧ '=' ∉ name ∧ ∀ c ∈ name, isBare c = true := by decide

theorem read_flagWord {flag : Text × Text} (hnamed : flag.1 ∈ settableFlags) :
    readArg (flagWord flag) = some flag := by
  obtain ⟨name, value⟩ := flag
  obtain ⟨hempty, hdash, hequals, hnone, -⟩ := flag_names name hnamed
  obtain ⟨c, name, rfl⟩ : ∃ c t, name = c :: t := by
    cases name with
    | nil => cases hempty
    | cons c t => exact ⟨c, t, rfl⟩
  have hword : flagWord (c :: name, value) = '-' :: '-' :: (c :: name ++ '=' :: value) := by
    simp [flagWord]
  have hplain : ∀ d ∈ c :: name, decide (d ≠ '=') = true := by
    rintro d hd
    rw [decide_eq_true_eq]
    rintro rfl
    exact hnone hd
  have hbefore : beforeEquals (c :: name ++ '=' :: value) = c :: name := by
    rw [beforeEquals, List.takeWhile_append_of_pos hplain]
    simp
  have hafter : afterEquals (c :: name ++ '=' :: value) = some value := by
    rw [afterEquals, if_pos (by simp), List.dropWhile_append_of_pos hplain]
    simp
  simp only [List.head?_cons, ne_eq, Option.some.injEq] at hdash hequals
  rw [readArg, hword, goFlag]
  simp only [List.cons_append, List.isEmpty_cons, List.head?_cons, Option.some.injEq, hdash, hequals,
    decide_false, Bool.or_false, Bool.false_eq_true, if_false] at hbefore hafter ⊢
  rw [hbefore, hafter]

theorem shlex_argText {flag : Text × Text} (hread : Readable flag) (rest : Text) :
    shlexTokens .blank [] (argText flag ++ rest) = shlexTokens .word (flagWord flag) rest := by
  obtain ⟨-, -, -, -, hbare⟩ := flag_names flag.1 hread.named
  have hname : ∀ c ∈ ('-' :: flag.1) ++ ['='], isBare c = true := by
    intro c hc
    simp only [List.cons_append, List.mem_cons, List.mem_append, List.not_mem_nil, or_false] at hc
    obtain rfl | hc | rfl := hc
    · decide
    · exact hbare c hc
    · decide
  have hdash : ∀ t : Text, shlexTokens .blank [] ('-' :: t) = shlexTokens .word ['-'] t := by
    intro t
    simp [shlexTokens, isShlexBlank]
  have hvalue : ∀ token : Text,
      shlexTokens .word token
        ((if flag.1 ∈ tsStringFlagNames then quote flag.2 else flag.2) ++ rest) =
      shlexTokens .word (token ++ flag.2) rest := by
    intro token
    by_cases hstring : flag.1 ∈ tsStringFlagNames
    · rw [if_pos hstring, shlex_quote]
    · rw [if_neg hstring, shlex_bare (hread.value hstring)]
  have htext : argText flag ++ rest = '-' :: (('-' :: flag.1 ++ ['=']) ++
      ((if flag.1 ∈ tsStringFlagNames then quote flag.2 else flag.2) ++ rest)) := by
    simp [argText]
  rw [htext, hdash, shlex_bare hname, hvalue]
  simp [flagWord]

theorem shlex_arg_texts {flags : List (Text × Text)} (hread : ∀ flag ∈ flags, Readable flag) :
    shlexSplit (join " " (flags.map argText)) = some (flags.map flagWord) := by
  unfold shlexSplit
  induction flags with
  | nil => rfl
  | cons flag flags ih =>
    have hflag := hread flag List.mem_cons_self
    have hrest := ih fun flag hflag => hread flag (List.mem_cons_of_mem _ hflag)
    cases flags with
    | nil =>
      have hlast := shlex_argText hflag []
      rw [List.append_nil] at hlast
      simp [join, hlast, shlexTokens]
    | cons flag' flags =>
      have hjoin : join " " ((flag :: flag' :: flags).map argText) =
          argText flag ++ ' ' :: join " " ((flag' :: flags).map argText) := by
        simp [join, List.intercalate_cons_cons]
      rw [hjoin, shlex_argText hflag, shlexTokens, if_pos (by decide), hrest]
      rfl

theorem readArg_texts {flags : List (Text × Text)} (hread : ∀ flag ∈ flags, Readable flag) :
    (flags.map flagWord).mapM readArg = some flags := by
  induction flags with
  | nil => rfl
  | cons flag flags ih =>
    rw [List.map_cons, List.mapM_cons, read_flagWord (hread flag List.mem_cons_self).named,
      ih fun flag hflag => hread flag (List.mem_cons_of_mem _ hflag)]
    rfl

/-- The arguments of the problems, joined, are those of all their flags. -/
theorem join_set (p : Parsed) (problems : List Problem) :
    join " " (problems.filterMap (setArg p)) =
      join " " ((problems.flatMap (setFlags p)).map argText) := by
  have hgroups : problems.filterMap (setArg p) =
      (((problems.map fun q => (setFlags p q).map argText).filter (!·.isEmpty)).map (join " ")) := by
    induction problems with
    | nil => rfl
    | cons q problems ih =>
      rw [List.filterMap_cons, setArg, List.map_cons, List.filter_cons]
      cases hflags : setFlags p q with
      | nil => simpa using ih
      | cons flag flags => simpa using ih
  have hflatten : ((problems.map fun q => (setFlags p q).map argText).filter (!·.isEmpty)).flatten =
      (problems.flatMap (setFlags p)).map argText := by
    rw [List.flatten_filter_not_isEmpty, List.map_flatMap, List.flatMap_def]
  rw [hgroups, Text.join_flatten, hflatten]
  intro g hg
  have hne := (List.mem_filter.mp hg).2
  rintro rfl
  cases hne

end Provisioner.Tailscale
