import Provisioner.Library.Behind
import Provisioner.Library.LineInFile
import Provisioner.Library.Lines

/-!
# What attach mode appends to an environment file

The role reads the lines of an existing controller's environment file once, and
adds the two settings that they do not begin with; `cstacks` sources the file
that comes of it.
-/

namespace Provisioner.Controller.Appended

open Shell LineInFile
open Text (splitlines startswith isLineBreak)

/-- `select('match', '^KEY=')` finds a line. -/
def carried (lines : List Text) (key : Text) : Bool :=
  lines.any fun line => startswith line (key ++ ['='])

def appendSetting (controllerAttachEnvLines : List Text) (content : Text)
    (row : Text × Text) : Text :=
  if carried controllerAttachEnvLines row.1 then content
  else lineinfile none (row.1 ++ ['='] ++ row.2) content

def settings (nodeEnrollmentToken controllerProxyIpsDir : Text) : List (Text × Text) :=
  [("NODE_ENROLLMENT_TOKEN", nodeEnrollmentToken), ("CS_PROXY_IPS_PATH", controllerProxyIpsDir)]

def appendSettings (nodeEnrollmentToken controllerProxyIpsDir content : Text) : Text :=
  (settings nodeEnrollmentToken controllerProxyIpsDir).foldl
    (appendSetting (splitlines content)) content

def keys : List Text := ["NODE_ENROLLMENT_TOKEN", "CS_PROXY_IPS_PATH"]

def missing (content : Text) : List Text := keys.filter fun key => !carried (splitlines content) key

structure Simple (v : Text) : Prop where
  plain : Plain v
  unbraced : '{' ∉ v
  one_line : ∀ c ∈ v, isLineBreak c = false

/-- Whatever is appended, sourcing the file gives what it gave before, and at most
the two settings besides; the tasks run again leave it as it is. -/
structure Preserves (h : Shell.Host) (content : Text) (vars : List (Text × Text)) : Prop where
  sourced : ∀ token dir, Simple token → Simple dir →
    ∃ vars', source h (appendSettings token dir content) = .ok vars' ∧
      (∀ n value, vars.lookup n = some value → vars'.lookup n = some value) ∧
      ∀ n, vars.lookup n = none → vars'.lookup n ≠ none → n ∈ keys
  again : ∀ token dir, Simple token → Simple dir →
    appendSettings token dir (appendSettings token dir content) = appendSettings token dir content

/-- Where the shell stands at the end of the file, its last line ended. -/
inductive Appendable (h : Shell.Host) (content : Text) (vars : List (Text × Text)) : Prop where
  | present : missing content = [] → Appendable h content vars
  | behind (r : Reader) : read h {} (withEnd content) = .ok r → r.mode = .between →
      (∀ key ∈ missing content, vars.lookup key = none) → Appendable h content vars
  /-- A comment that a carriage return ends swallows the first line. -/
  | swallowed (r : Reader) : read h {} (withEnd content) = .ok r → r.mode = .comment →
      (∀ key ∈ (missing content).tail, vars.lookup key = none) → Appendable h content vars

/-! ## The lines -/

theorem carried_iff {lines : List Text} {key : Text} :
    carried lines key = true ↔ ∃ line ∈ lines, key ++ ['='] <+: line := by
  simp [carried, startswith]

structure Keyed (row : Text × Text) : Prop where
  key : ∀ c ∈ row.1 ++ ['='], isLineBreak c = false
  value : Simple row.2

theorem Keyed.one_line {row : Text × Text} (hrow : Keyed row) :
    ∀ c ∈ row.1 ++ ['='] ++ row.2, isLineBreak c = false := by
  intro c hc
  rcases List.mem_append.mp hc with hc | hc
  · exact hrow.key c hc
  · exact hrow.value.one_line c hc

theorem Keyed.head {row : Text × Text} (hrow : Keyed row) (t : Text) :
    (row.1 ++ ['='] ++ t).head? ≠ some '\n' := by
  intro hhead
  have hmem : '\n' ∈ row.1 ++ ['='] := by
    have hne : row.1 ++ ['='] ≠ [] := by simp
    rw [List.head?_append_of_ne_nil _ hne] at hhead
    exact List.mem_of_head? hhead
  have hbreak := hrow.key _ hmem
  cases hbreak

theorem withEnd_ends (content : Text) :
    (withEnd content).getLast? ∈ [none, some '\n', some '\r'] := by
  unfold withEnd
  split
  · assumption
  · simp

theorem lineinfile_setting {row : Text × Text} (hrow : Keyed row) {content : Text}
    (hnone : carried (splitlines content) row.1 = false) :
    lineinfile none (row.1 ++ ['='] ++ row.2) content = withEnd content ++ settingLine row := by
  refine lineinfile_append fun line hline heq => ?_
  obtain ⟨before, after, rfl, hbefore⟩ := mem_readlines hline
  obtain ⟨ends, -, hends⟩ := rstripEnd_append line
  rw [heq, List.append_assoc (row.1 ++ ['='])] at hends
  have hsplit : splitlines (before ++ (line ++ after)) =
      splitlines before ++ splitlines (row.1 ++ ['='] ++ (row.2 ++ ends ++ after)) := by
    rw [hends, List.append_assoc (row.1 ++ ['=']), Text.splitlines_append hbefore fun _ => hrow.head _]
  obtain ⟨head, hhead, hprefix⟩ :=
    Text.splitlines_head (by simp) hrow.key (row.2 ++ ends ++ after)
  have hcarried : carried (splitlines (before ++ (line ++ after))) row.1 = true :=
    carried_iff.mpr ⟨head, by rw [hsplit]; exact List.mem_append_right _ hhead, hprefix⟩
  rw [hnone] at hcarried
  cases hcarried

theorem splitlines_setting {row : Text × Text} (hrow : Keyed row) (content : Text) :
    splitlines (withEnd content ++ settingLine row) =
      splitlines (withEnd content) ++ [row.1 ++ ['='] ++ row.2] := by
  rw [settingLine, Text.splitlines_append (withEnd_ends content), Text.splitlines_line hrow.one_line]
  intro _
  rw [List.append_assoc, List.append_assoc, ← List.append_assoc row.1]
  exact hrow.head _

theorem withEnd_setting (content : Text) (row : Text × Text) :
    withEnd (content ++ settingLine row) = content ++ settingLine row := by
  rw [withEnd, if_pos]
  rw [settingLine, ← List.append_assoc, List.getLast?_concat]
  simp

theorem carried_withEnd (content key : Text) :
    carried (splitlines (withEnd content)) key = carried (splitlines content) key := by
  have hempty : startswith [] (key ++ ['=']) = false := by
    cases key <;> rfl
  unfold withEnd
  split
  · rfl
  · rcases Text.splitlines_newline content with hsame | hmore
    · rw [hsame]
    · rw [hmore, carried, carried, List.any_append]
      simp [hempty]

def added (lines : List Text) (rows : List (Text × Text)) : List (Text × Text) :=
  rows.filter fun row => !carried lines row.1

theorem fold_append {rows : List (Text × Text)} (hrows : ∀ row ∈ rows, Keyed row)
    (hapart : rows.Pairwise fun row row' =>
      startswith (row.1 ++ ['='] ++ row.2) (row'.1 ++ ['=']) = false)
    {lines : List Text} {content : Text}
    (hlines : ∀ row ∈ rows, carried (splitlines content) row.1 = carried lines row.1) :
    rows.foldl (appendSetting lines) content =
      if added lines rows = [] then content
      else withEnd content ++ (added lines rows).flatMap settingLine := by
  induction rows generalizing content with
  | nil => rfl
  | cons row rows ih =>
    obtain ⟨hrow, hrows⟩ := List.forall_mem_cons.mp hrows
    obtain ⟨hone, hlines⟩ := List.forall_mem_cons.mp hlines
    obtain ⟨happart, hrest⟩ := List.pairwise_cons.mp hapart
    rw [List.foldl_cons, appendSetting]
    cases hcarried : carried lines row.1 with
    | true =>
      have hadded : added lines (row :: rows) = added lines rows :=
        List.filter_cons_of_neg (by simp [hcarried])
      rw [if_pos rfl, hadded]
      exact ih hrows hrest hlines
    | false =>
      have hadded : added lines (row :: rows) = row :: added lines rows :=
        List.filter_cons_of_pos (by simp [hcarried])
      have hnext : ∀ row' ∈ rows,
          carried (splitlines (withEnd content ++ settingLine row)) row'.1 =
            carried lines row'.1 := by
        intro row' hrow'
        rw [splitlines_setting hrow, ← hlines row' hrow', ← carried_withEnd content, carried,
          List.any_append, List.any_cons, List.any_nil, happart row' hrow', Bool.or_false]
        exact Bool.or_false _
      rw [if_neg Bool.false_ne_true, lineinfile_setting hrow (hone.trans hcarried),
        ih hrows hrest hnext, withEnd_setting, hadded, if_neg (List.cons_ne_nil _ _), List.flatMap_cons]
      split
      · rename_i hnil
        rw [hnil, List.flatMap_nil, List.append_nil]
      · rw [List.append_assoc]

def additions (token dir content : Text) : List (Text × Text) :=
  added (splitlines content) (settings token dir)

theorem keys_named : ∀ key ∈ keys, isName key = true ∧ key ∉ special := by decide

theorem keys_on_a_line : ∀ key ∈ keys, ∀ c ∈ key ++ ['='], isLineBreak c = false := by
  decide

theorem mem_settings {token dir : Text} (htoken : Simple token) (hdir : Simple dir)
    {row : Text × Text} (hrow : row ∈ settings token dir) : row.1 ∈ keys ∧ Simple row.2 := by
  rcases List.mem_pair.mp hrow with rfl | rfl
  · exact ⟨List.mem_cons_self, htoken⟩
  · exact ⟨List.mem_cons_of_mem _ List.mem_cons_self, hdir⟩

theorem keyed_settings {token dir : Text} (htoken : Simple token) (hdir : Simple dir) :
    ∀ row ∈ settings token dir, Keyed row := by
  intro row hrow
  obtain ⟨hkey, hvalue⟩ := mem_settings htoken hdir hrow
  exact ⟨keys_on_a_line row.1 hkey, hvalue⟩

theorem keyed_additions {token dir : Text} (htoken : Simple token) (hdir : Simple dir)
    (content : Text) : ∀ row ∈ additions token dir content, Keyed row :=
  fun row hrow => keyed_settings htoken hdir row (List.mem_filter.mp hrow).1

theorem takes_additions {token dir : Text} (htoken : Simple token) (hdir : Simple dir)
    (content : Text) : ∀ row ∈ additions token dir content, Takes row := by
  intro row hrow
  obtain ⟨hkey, hvalue⟩ := mem_settings htoken hdir (List.mem_filter.mp hrow).1
  obtain ⟨hname, hspecial⟩ := keys_named row.1 hkey
  exact ⟨hname, hspecial, hvalue.plain, hvalue.unbraced⟩

theorem appendSettings_eq {token dir : Text} (htoken : Simple token) (hdir : Simple dir)
    (content : Text) : appendSettings token dir content =
      if additions token dir content = [] then content
      else withEnd content ++ (additions token dir content).flatMap settingLine := by
  refine fold_append (keyed_settings htoken hdir) ?_ fun row _ => rfl
  rw [settings, List.pairwise_pair]
  rfl

theorem additions_keys (token dir content : Text) :
    (additions token dir content).map Prod.fst = missing content := by
  have hkeys : (settings token dir).map Prod.fst = keys := rfl
  rw [missing, ← hkeys, List.filter_map]
  rfl

theorem additions_eq_nil {token dir content : Text} :
    additions token dir content = [] ↔ missing content = [] := by
  rw [← additions_keys token dir content, List.map_eq_nil_iff]

/-! ## A second run -/

theorem splitlines_settings {rows : List (Text × Text)} (hrows : ∀ row ∈ rows, Keyed row)
    (content : Text) : splitlines (withEnd content ++ rows.flatMap settingLine) =
      splitlines (withEnd content) ++ rows.map fun row => row.1 ++ ['='] ++ row.2 := by
  induction rows generalizing content with
  | nil => rw [List.flatMap_nil, List.append_nil, List.map_nil, List.append_nil]
  | cons row rows ih =>
    obtain ⟨hrow, hrows⟩ := List.forall_mem_cons.mp hrows
    rw [List.flatMap_cons, ← List.append_assoc, ← withEnd_setting, ih hrows, withEnd_setting,
      splitlines_setting hrow, List.append_assoc]
    rfl

theorem carried_appended {token dir : Text} (htoken : Simple token) (hdir : Simple dir)
    (content : Text) {key : Text} (hkey : key ∈ keys) :
    carried (splitlines (appendSettings token dir content)) key = true := by
  rw [appendSettings_eq htoken hdir]
  cases hcarried : carried (splitlines content) key with
  | true =>
    split
    · exact hcarried
    · rw [splitlines_settings (keyed_additions htoken hdir content), carried, List.any_append,
        Bool.or_eq_true]
      rw [← carried_withEnd] at hcarried
      exact .inl hcarried
  | false =>
    have hmissing : key ∈ missing content :=
      List.mem_filter.mpr ⟨hkey, by rw [hcarried]; rfl⟩
    rw [← additions_keys token dir content] at hmissing
    obtain ⟨row, hrow, rfl⟩ := List.mem_map.mp hmissing
    rw [if_neg (List.ne_nil_of_mem hrow), splitlines_settings (keyed_additions htoken hdir content)]
    refine carried_iff.mpr ⟨row.1 ++ ['='] ++ row.2, ?_, List.prefix_append _ _⟩
    exact List.mem_append_right _ (List.mem_map_of_mem hrow)

theorem appendSettings_again {token dir : Text} (htoken : Simple token) (hdir : Simple dir)
    (content : Text) : appendSettings token dir (appendSettings token dir content) =
      appendSettings token dir content := by
  have hnone : additions token dir (appendSettings token dir content) = [] := by
    refine additions_eq_nil.mpr (List.filter_eq_nil_iff.mpr fun key hkey => ?_)
    rw [carried_appended htoken hdir content hkey]
    exact Bool.false_ne_true
  rw [appendSettings_eq htoken hdir (appendSettings token dir content), if_pos hnone]

/-! ## The end of the file -/

theorem read_withEnd {h : Shell.Host} {content : Text} {vars : List (Text × Text)}
    (hsource : source h content = .ok vars) :
    ∃ r, read h {} (withEnd content) = .ok r ∧ r.Idle ∧ finish h r = .ok vars := by
  obtain ⟨r, hread, hfinish⟩ := except_bind_eq_ok.mp hsource
  unfold withEnd
  split
  · exact ⟨r, hread, read_idle (r := {}) rfl hread, hfinish⟩
  · refine ⟨.after vars, ?_, rfl, rfl⟩
    rw [read_after hread, read_step (step_newline hfinish), read_nil]

section Source

variable {h : Shell.Host} {content : Text} {vars : List (Text × Text)} {token dir : Text}

theorem source_appended {r : Reader} (hread : read h {} (withEnd content) = .ok r)
    (htoken : Simple token) (hdir : Simple dir) (hmissing : missing content ≠ []) :
    source h (appendSettings token dir content) =
      read h r ((additions token dir content).flatMap settingLine) >>= finish h := by
  rw [appendSettings_eq htoken hdir, if_neg (mt additions_eq_nil.mp hmissing), source,
    read_after hread]

theorem source_behind {r : Reader} (hread : read h {} (withEnd content) = .ok r) (hidle : r.Idle)
    (hfinish : finish h r = .ok vars) (hmode : r.mode = .between) (htoken : Simple token)
    (hdir : Simple dir) (hmissing : missing content ≠ []) :
    source h (appendSettings token dir content) =
      .ok ((additions token dir content).reverse ++ vars) := by
  rw [source_appended hread htoken hdir hmissing]
  have htakes := takes_additions htoken hdir content
  cases hrows : additions token dir content with
  | nil => exact absurd (additions_eq_nil.mp hrows) hmissing
  | cons row rows =>
    rw [hrows] at htakes
    obtain ⟨hrow, hrows⟩ := List.forall_mem_cons.mp htakes
    rw [List.flatMap_cons, read_after (read_behind hidle hmode hfinish hrow), read_rows hrows,
      List.reverse_cons, List.append_assoc]
    rfl

theorem source_swallowed {r : Reader} (hread : read h {} (withEnd content) = .ok r)
    (hfinish : finish h r = .ok vars) (hmode : r.mode = .comment) (htoken : Simple token)
    (hdir : Simple dir) (hmissing : missing content ≠ []) :
    source h (appendSettings token dir content) =
      .ok ((additions token dir content).tail.reverse ++ vars) := by
  rw [source_appended hread htoken hdir hmissing]
  have htakes := takes_additions htoken hdir content
  cases hrows : additions token dir content with
  | nil => exact absurd (additions_eq_nil.mp hrows) hmissing
  | cons row rows =>
    rw [hrows] at htakes
    obtain ⟨hrow, hrows⟩ := List.forall_mem_cons.mp htakes
    rw [List.flatMap_cons, read_after (read_swallowed hmode hfinish hrow), read_rows hrows]
    rfl

/-! ## What the file gave stays -/

theorem lookup_added {extra : List (Text × Text)}
    (hextra : ∀ row ∈ extra, row.1 ∈ keys ∧ vars.lookup row.1 = none) :
    (∀ n value, vars.lookup n = some value → (extra ++ vars).lookup n = some value) ∧
      ∀ n, vars.lookup n = none → (extra ++ vars).lookup n ≠ none → n ∈ keys := by
  constructor
  · intro n value hvalue
    have hnone : extra.lookup n = none := by
      refine List.lookup_eq_none_iff.mpr fun row hrow => ?_
      rw [bne_iff_ne]
      rintro rfl
      rw [(hextra row hrow).2] at hvalue
      cases hvalue
    rw [List.lookup_append, hnone, Option.none_or, hvalue]
  · intro n hnone hset
    by_contra hkey
    have hextra : extra.lookup n = none := by
      refine List.lookup_eq_none_iff.mpr fun row hrow => ?_
      rw [bne_iff_ne]
      rintro rfl
      exact hkey (hextra row hrow).1
    rw [List.lookup_append, hnone, hextra] at hset
    exact hset rfl

theorem additions_free {ks : List Text} (hfree : ∀ key ∈ ks, vars.lookup key = none)
    {rows : List (Text × Text)} (hsub : rows ⊆ additions token dir content)
    (hkeys : rows.map Prod.fst ⊆ ks) :
    ∀ row ∈ rows.reverse, row.1 ∈ keys ∧ vars.lookup row.1 = none := by
  intro row hrow
  have hrow := List.mem_reverse.mp hrow
  refine ⟨?_, hfree row.1 (hkeys (List.mem_map_of_mem hrow))⟩
  have hmissing : row.1 ∈ missing content := by
    rw [← additions_keys token dir content]
    exact List.mem_map_of_mem (hsub hrow)
  exact (List.mem_filter.mp hmissing).1

theorem Appendable.preserves (happend : Appendable h content vars)
    (hsource : source h content = .ok vars) : Preserves h content vars := by
  refine ⟨fun token dir htoken hdir => ?_, fun token dir htoken hdir =>
    appendSettings_again htoken hdir content⟩
  by_cases hmissing : missing content = []
  · rw [appendSettings_eq htoken hdir, if_pos (additions_eq_nil.mpr hmissing)]
    exact ⟨vars, hsource, fun _ _ hvalue => hvalue, fun _ hnone hset => absurd hnone hset⟩
  obtain ⟨r, hread, hidle, hfinish⟩ := read_withEnd hsource
  cases happend with
  | present hnil => exact absurd hnil hmissing
  | behind r' hread' hmode hfree =>
    cases hread.symm.trans hread'
    refine ⟨_, source_behind hread hidle hfinish hmode htoken hdir hmissing, ?_⟩
    exact lookup_added (additions_free hfree (List.Subset.refl _)
      (by rw [additions_keys]; exact List.Subset.refl _))
  | swallowed r' hread' hmode hfree =>
    cases hread.symm.trans hread'
    refine ⟨_, source_swallowed hread hfinish hmode htoken hdir hmissing, ?_⟩
    exact lookup_added (additions_free hfree (fun _ hrow => List.mem_of_mem_tail hrow)
      (by rw [← additions_keys token dir content, List.map_tail]; exact List.Subset.refl _))

/-! ## What takes a value away -/

theorem simple_path {c : Char} (hc : c = 'a' ∨ c = 'b') : Simple ['/', c] := by
  rcases hc with rfl | rfl
  · exact ⟨by decide, by decide, by decide⟩
  · exact ⟨by decide, by decide, by decide⟩

theorem lookup_same {rows : List (Text × Text)} {value : Text} (hrows : ∀ row ∈ rows, row.2 = value)
    {key : Text} (hkey : key ∈ rows.map Prod.fst) : rows.lookup key = some value := by
  induction rows with
  | nil => cases hkey
  | cons row rows ih =>
    obtain ⟨hrow, hrows⟩ := List.forall_mem_cons.mp hrows
    rw [List.lookup_cons]
    split
    · rw [hrow]
    · rename_i hne
      rcases List.mem_cons.mp hkey with rfl | hkey
      · simp at hne
      · exact ih hrows hkey

theorem additions_same {value : Text} : ∀ row ∈ additions value value content, row.2 = value := by
  intro row hrow
  rcases List.mem_pair.mp (List.mem_filter.mp hrow).1 with rfl | rfl
  · rfl
  · rfl

theorem free_of_preserves {extra : Text → List (Text × Text)}
    (hextra : ∀ value, ∀ row ∈ extra value, row.2 = value) {ks : List Text}
    (hkeys : ∀ value, ks = (extra value).map Prod.fst)
    (hkeep : ∀ c, c = 'a' ∨ c = 'b' → ∀ n value, vars.lookup n = some value →
      ((extra ['/', c]).reverse ++ vars).lookup n = some value) :
    ∀ key ∈ ks, vars.lookup key = none := by
  intro key hkey
  cases hvalue : vars.lookup key with
  | none => rfl
  | some value =>
    have hlast : ∀ c, c = 'a' ∨ c = 'b' → value = ['/', c] := by
      intro c hc
      have hlookup : (extra ['/', c]).reverse.lookup key = some ['/', c] := by
        refine lookup_same (fun row hrow => hextra _ row (List.mem_reverse.mp hrow)) ?_
        rw [List.map_reverse, List.mem_reverse, ← hkeys]
        exact hkey
      have hkept := hkeep c hc key value hvalue
      rw [List.lookup_append, hlookup] at hkept
      exact (Option.some.inj hkept).symm
    have htwo : (['/', 'a'] : Text) = ['/', 'b'] := (hlast 'a' (.inl rfl)).symm.trans (hlast 'b' (.inr rfl))
    cases htwo

theorem keys_apart : ∀ key ∈ keys, ∀ key' ∈ keys, key <:+ key' → key = key' := by decide

theorem source_glued {r : Reader} (hread : read h {} (withEnd content) = .ok r)
    (hfinish : finish h r = .ok vars) (hword : r.InBareWord) (hmissing : missing content ≠ []) :
    ∃ m, (vars.lookup m ≠ none ∨ m ∉ keys) ∧ ∀ c vars', c = 'a' ∨ c = 'b' →
      source h (appendSettings ['/', c] ['/', c] content) = .ok vars' →
        ∃ value, vars'.lookup m = some value ∧ value.getLast? = some c := by
  obtain ⟨key, rest, hkeys⟩ := List.exists_cons_of_ne_nil hmissing
  have hkey : key ∈ keys := (List.mem_filter.mp (hkeys ▸ List.mem_cons_self)).1
  obtain ⟨m, hm, hline⟩ := glued hword hfinish (keys_named key hkey).1
  refine ⟨m, hm.imp_right ?_, fun c vars' hc hvars' => ?_⟩
  · rintro ⟨t, ht, rfl⟩ hmem
    have hsame := congrArg List.length (keys_apart key hkey _ hmem (List.suffix_append t key))
    rw [List.length_append] at hsame
    exact ht (List.length_eq_zero_iff.mp (by omega))
  · have hsimple := simple_path hc
    rw [source_appended hread hsimple hsimple hmissing] at hvars'
    have hall := additions_keys ['/', c] ['/', c] content
    have hsame : ∀ row ∈ additions ['/', c] ['/', c] content, row.2 = ['/', c] := additions_same
    have htakes := takes_additions hsimple hsimple content
    cases hrows : additions ['/', c] ['/', c] content with
    | nil =>
      rw [hrows, hkeys] at hall
      cases hall
    | cons row rows =>
      rw [hrows] at hall hsame htakes hvars'
      obtain ⟨n, v⟩ := row
      obtain ⟨rfl, hrest⟩ : n = key ∧ rows.map Prod.fst = rest := by
        rw [hkeys, List.map_cons] at hall
        exact List.cons_eq_cons.mp hall
      obtain ⟨rfl, hothers⟩ := List.forall_mem_cons.mp hsame
      obtain ⟨r', hr', hlast⟩ := except_bind_eq_ok.mp hvars'
      rw [List.flatMap_cons, read_append] at hr'
      obtain ⟨mid, hmid, hr'⟩ := except_bind_eq_ok.mp hr'
      have hchar : isNameChar c = true := by rcases hc with rfl | rfl <;> rfl
      obtain ⟨vars₁, value, rfl, hlookup, hvalue⟩ := hline c mid hchar hmid
      rw [read_rows (List.forall_mem_cons.mp htakes).2] at hr'
      cases hr'
      cases hlast
      change ∃ value, (rows.reverse ++ vars₁).lookup m = some value ∧ _
      rw [List.lookup_append]
      cases hlater : rows.reverse.lookup m with
      | none => exact ⟨value, hlookup, hvalue⟩
      | some later =>
        refine ⟨later, rfl, ?_⟩
        obtain ⟨before, after, hsplit, -⟩ := List.lookup_eq_some_iff.mp hlater
        have hmem : (m, later) ∈ rows.reverse := by simp [hsplit]
        have hlater : later = ['/', c] := hothers (m, later) (List.mem_reverse.mp hmem)
        rw [hlater]
        rfl

theorem Preserves.appendable (hpreserves : Preserves h content vars)
    (hsource : source h content = .ok vars) : Appendable h content vars := by
  by_cases hmissing : missing content = []
  · exact .present hmissing
  obtain ⟨r, hread, hidle, hfinish⟩ := read_withEnd hsource
  rcases mode_of_finish hfinish with hmode | hmode | hword
  · refine .behind r hread hmode (free_of_preserves (fun value => additions_same)
      (fun value => (additions_keys value value content).symm) fun c hc => ?_)
    have hsimple := simple_path hc
    obtain ⟨vars', hvars', hkeep, -⟩ := hpreserves.sourced _ _ hsimple hsimple
    rw [source_behind hread hidle hfinish hmode hsimple hsimple hmissing] at hvars'
    cases hvars'
    exact hkeep
  · refine .swallowed r hread hmode (free_of_preserves
      (fun value row hrow => additions_same row (List.mem_of_mem_tail hrow))
      (fun value => by rw [List.map_tail, additions_keys]) fun c hc => ?_)
    have hsimple := simple_path hc
    obtain ⟨vars', hvars', hkeep, -⟩ := hpreserves.sourced _ _ hsimple hsimple
    rw [source_swallowed hread hfinish hmode hsimple hsimple hmissing] at hvars'
    cases hvars'
    exact hkeep
  · obtain ⟨m, hm, hset⟩ := source_glued hread hfinish hword hmissing
    have hlast : ∀ c, c = 'a' ∨ c = 'b' →
        (vars.lookup m).bind List.getLast? = some c ∨ vars.lookup m = none ∧ m ∈ keys := by
      intro c hc
      have hsimple := simple_path hc
      obtain ⟨vars', hvars', hkeep, hnew⟩ := hpreserves.sourced _ _ hsimple hsimple
      obtain ⟨value, hvalue, hend⟩ := hset c vars' hc hvars'
      cases hbefore : vars.lookup m with
      | some before =>
        left
        rw [hkeep m before hbefore] at hvalue
        cases hvalue
        exact hend
      | none => exact .inr ⟨rfl, hnew m hbefore (by rw [hvalue]; exact Option.some_ne_none value)⟩
    rcases hlast 'a' (.inl rfl) with ha | ⟨hnone, hmem⟩
    · rcases hlast 'b' (.inr rfl) with hb | ⟨hnone, -⟩
      · rw [ha] at hb
        cases hb
      · rw [hnone] at ha
        cases ha
    · rcases hm with hset | hother
      · exact absurd hnone hset
      · exact absurd hmem hother

/-- The settings are kept exactly where the appended lines are commands of their own
and no key that they set was set in another spelling. -/
theorem preserves_iff (hsource : source h content = .ok vars) :
    Preserves h content vars ↔ Appendable h content vars :=
  ⟨fun hpreserves => hpreserves.appendable hsource, fun happend => happend.preserves hsource⟩

end Source

def bareHost : Shell.Host := ⟨fun _ => none, fun _ => none⟩

def commented : Text := "A=1\n  # CS_PROXY_IPS_PATH=/x\nNODE_ENROLLMENT_TOKEN='t'"

theorem commented_preserved :
    Preserves bareHost commented [("NODE_ENROLLMENT_TOKEN", "t"), ("A", "1")] :=
  (preserves_iff (by decide)).mpr (.behind
    { vars := [("NODE_ENROLLMENT_TOKEN", "t"), ("A", "1")] } (by decide) rfl
    (by decide))

/-! ## A token that is exported -/

def exported : Text := "export NODE_ENROLLMENT_TOKEN=old\n"

/-- The appended token takes the place of the one that the file exports. -/
theorem exported_token_replaced :
    source bareHost exported = .ok [("NODE_ENROLLMENT_TOKEN", "old")] ∧
      source bareHost (appendSettings "new" "/ips" exported) =
        .ok [("CS_PROXY_IPS_PATH", "/ips"), ("NODE_ENROLLMENT_TOKEN", "new"),
          ("NODE_ENROLLMENT_TOKEN", "old")] ∧
      ¬ Preserves bareHost exported [("NODE_ENROLLMENT_TOKEN", "old")] := by
  have hbefore : source bareHost exported = .ok [("NODE_ENROLLMENT_TOKEN", "old")] := by
    decide
  have hafter : source bareHost (appendSettings "new" "/ips" exported) =
      .ok [("CS_PROXY_IPS_PATH", "/ips"), ("NODE_ENROLLMENT_TOKEN", "new"),
        ("NODE_ENROLLMENT_TOKEN", "old")] := by decide
  refine ⟨hbefore, hafter, fun hpreserves => ?_⟩
  obtain ⟨vars', hvars', hkeep, -⟩ := hpreserves.sourced "new" "/ips"
    ⟨by decide, by decide, by decide⟩
    ⟨by decide, by decide, by decide⟩
  rw [hafter] at hvars'
  cases hvars'
  have hkept := hkeep "NODE_ENROLLMENT_TOKEN" "old" (by decide)
  revert hkept
  decide

end Provisioner.Controller.Appended
