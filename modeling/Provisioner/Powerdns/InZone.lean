import Provisioner.ControllerSeed.Complete
import Provisioner.Powerdns.Goals

/-!
# Domains outside the zone

The preflight compares each `app_domain` with `cs_app_zone` as both are written;
the record plan trims the zone and drops its last dot, but takes the domains as
they are.
-/

namespace Provisioner.Powerdns

open ControllerSeed (SeedVars AppDomainChecks csAppDomain bareDomain beforeBreak underZone)
open Text (strip lower isSpace)

/-! ## A zone and its blanks -/

section Zone

theorem inZone_iff {site : Site} {d : Text} :
    inZone site d = true ↔ d = zone site ∨ ('.' :: zone site) <:+ d := by
  rw [inZone, Bool.or_eq_true, decide_eq_true_eq, Text.endswith, List.isSuffixOf_iff_suffix, apex,
    zfq]
  refine or_congr (List.append_left_inj _) ⟨?_, ?_⟩
  · rintro ⟨front, heq⟩
    refine ⟨front, ?_⟩
    rw [← List.append_assoc, ← List.append_assoc] at heq
    have hfront := (List.append_left_inj _).mp heq
    rw [← hfront, List.append_assoc]
    rfl
  · rintro ⟨front, rfl⟩
    exact ⟨front, by simp⟩

def Canonical (t : Text) : Prop := strip t = t ∧ t.getLast? ≠ some '.'

def Rooted (t : Text) : Prop := t.getLast? = some '.' ∧ ∀ c ∈ strip t, c = '.'

theorem dot_comm {w : Text} (hcomm : w ++ ['.'] = '.' :: w) : ∀ c ∈ w, c = '.' := by
  induction w with
  | nil => intro c hc; cases hc
  | cons d w ih =>
    rw [List.cons_append] at hcomm
    obtain ⟨rfl, hrest⟩ := List.cons.inj hcomm
    exact List.forall_mem_cons.mpr ⟨rfl, ih hrest⟩

theorem dot_of_all {w : Text} (hall : ∀ c ∈ w, c = '.') : w ++ ['.'] = '.' :: w := by
  induction w with
  | nil => rfl
  | cons d w ih =>
    obtain ⟨rfl, hrest⟩ := List.forall_mem_cons.mp hall
    rw [List.cons_append, ih hrest]

theorem endswith_dot {t : Text} : Text.endswith t "." = true ↔ t.getLast? = some '.' := by
  rw [Text.endswith, List.isSuffixOf_iff_suffix, List.getLast?_eq_some_iff]
  constructor
  · rintro ⟨front, rfl⟩
    exact ⟨front, rfl⟩
  · rintro ⟨front, rfl⟩
    exact ⟨front, rfl⟩

theorem undotted_of_ne {t : Text} (hlast : t.getLast? ≠ some '.') : undotted t = t := by
  rw [undotted, if_neg]
  exact fun hdot => hlast (endswith_dot.mp hdot)

theorem undotted_concat (w : Text) : undotted (w ++ ['.']) = w := by
  rw [undotted, if_pos (endswith_dot.mpr List.getLast?_concat), List.dropLast_concat]

theorem dot_before {w back : Text} (hhead : ∀ c ∈ w.head?, isSpace c = false)
    (hback : ∀ c ∈ back, isSpace c = true) (hsuffix : ('.' :: w) <:+ w ++ '.' :: back) :
    back = [] ∧ ∀ c ∈ w, c = '.' := by
  obtain ⟨front, heq⟩ := hsuffix
  -- the same characters that are no blanks stand on both sides
  have hcount := congrArg (List.countP fun c => !isSpace c) heq
  have hnone : back.countP (fun c => !isSpace c) = 0 :=
    List.countP_eq_zero.mpr fun c hc => by simp [hback c hc]
  simp only [List.countP_append, List.countP_cons, hnone] at hcount
  have hfront : ∀ c ∈ front, isSpace c = true := by
    have hzero : front.countP (fun c => !isSpace c) = 0 := by omega
    intro c hc
    simpa using List.countP_eq_zero.mp hzero c hc
  have hempty : front = [] := by
    cases front with
    | nil => rfl
    | cons d front =>
      have hd := hfront d List.mem_cons_self
      cases w with
      | nil =>
        obtain ⟨rfl, -⟩ := List.cons.inj heq
        exact absurd hd (by decide)
      | cons e w =>
        obtain ⟨rfl, -⟩ := List.cons.inj heq
        rw [hhead d rfl] at hd
        cases hd
  rw [hempty, List.nil_append] at heq
  have hlength := congrArg List.length heq
  have hnil : back = [] := by
    rw [List.length_append, List.length_cons, List.length_cons] at hlength
    exact List.length_eq_zero_iff.mp (by omega)
  rw [hnil] at heq
  exact ⟨hnil, dot_comm heq.symm⟩

theorem back_eq_nil {t back : Text} (hback : ∀ c ∈ back, isSpace c = true) {c : Char}
    (hlast : (t ++ back).getLast? = some c) (hc : isSpace c = false) : back = [] := by
  cases back using List.reverseRecOn with
  | nil => rfl
  | append_singleton back d =>
    rw [← List.append_assoc, List.getLast?_concat] at hlast
    have hblank := hback d (List.mem_append_right _ List.mem_cons_self)
    rw [Option.some.inj hlast, hc] at hblank
    cases hblank

theorem dotted_inZone {t w : Text} (hw : strip t = w ++ ['.']) :
    (t = w ∨ ('.' :: w) <:+ t) ↔ Rooted t := by
  obtain ⟨front, back, hfront, hback, hsplit, hhead, -⟩ := Text.strip_parts t
  rw [hw] at hsplit hhead
  have hnot : t ≠ w := by
    intro heq
    have hlength := congrArg List.length hsplit
    simp only [heq, List.length_append, List.length_cons, List.length_nil] at hlength
    omega
  rw [or_iff_right hnot]
  constructor
  · intro hsuffix
    rw [hsplit, List.append_assoc, List.singleton_append] at hsuffix
    have hshort : ('.' :: w) <:+ w ++ '.' :: back := by
      refine List.suffix_of_suffix_length_le hsuffix (List.suffix_append _ _) ?_
      simp only [List.length_append, List.length_cons]
      omega
    have hheadw : ∀ c ∈ w.head?, isSpace c = false := by
      intro c hc
      refine hhead c ?_
      rw [List.head?_append, hc]
      rfl
    obtain ⟨rfl, hall⟩ := dot_before hheadw hback hshort
    refine ⟨?_, ?_⟩
    · rw [hsplit, List.append_nil, ← List.append_assoc, List.getLast?_concat]
    · rw [hw]
      intro c hc
      rcases List.mem_append.mp hc with hc | hc
      · exact hall c hc
      · exact List.mem_singleton.mp hc
  · rintro ⟨hend, hall⟩
    rw [hsplit, ← List.append_assoc] at hend
    rw [back_eq_nil hback hend (by decide), List.append_nil] at hsplit
    rw [hw] at hall
    rw [hsplit, dot_of_all fun c hc => hall c (List.mem_append_left _ hc)]
    exact List.suffix_append _ _

theorem stripped_inZone (t : Text) :
    (t = strip t ∨ ('.' :: strip t) <:+ t) ↔ strip t = t := by
  obtain ⟨front, back, hfront, hback, hsplit, -, hlast⟩ := Text.strip_parts t
  refine ⟨?_, fun hstrip => .inl hstrip.symm⟩
  rintro (hsame | ⟨before, hsuffix⟩)
  · exact hsame.symm
  · obtain ⟨c, hend, hc⟩ : ∃ c, ('.' :: strip t).getLast? = some c ∧ isSpace c = false := by
      cases hs : (strip t).getLast? with
      | none => exact ⟨'.', by rw [List.getLast?_eq_none_iff.mp hs]; rfl, by decide⟩
      | some c => exact ⟨c, by rw [List.getLast?_cons, hs]; rfl, hlast c hs⟩
    have htlast : (front ++ strip t ++ back).getLast? = some c := by
      rw [List.append_assoc, ← hsplit, ← hsuffix, List.getLast?_append, hend, Option.some_or]
    rw [back_eq_nil hback htlast hc, List.append_nil] at hsplit
    have hfront' : front = before ++ ['.'] := by
      refine (List.append_left_inj (strip t)).mp ?_
      rw [← hsplit, List.append_assoc]
      exact hsuffix.symm
    have hblank := hfront '.' (by rw [hfront']; exact List.mem_append_right _ List.mem_cons_self)
    exact absurd hblank (by decide)

/-- Which spellings of the zone are in the zone themselves. -/
theorem spelling_inZone (t : Text) :
    (t = undotted (strip t) ∨ ('.' :: undotted (strip t)) <:+ t) ↔ Canonical t ∨ Rooted t := by
  by_cases hdot : (strip t).getLast? = some '.'
  · obtain ⟨w, hw⟩ := List.getLast?_eq_some_iff.mp hdot
    have hcanonical : ¬ Canonical t := by
      rintro ⟨hstrip, hend⟩
      rw [hstrip] at hdot
      exact hend hdot
    rw [or_iff_right hcanonical, ← dotted_inZone hw, hw, undotted_concat]
  · have hrooted : ¬ Rooted t := by
      rintro ⟨hend, hall⟩
      obtain ⟨front, back, hfront, hback, hsplit, -, -⟩ := Text.strip_parts t
      have hnil : strip t = [] := by
        cases hs : (strip t).getLast? with
        | none => exact List.getLast?_eq_none_iff.mp hs
        | some c => exact absurd (hs.trans (by rw [hall c (List.mem_of_getLast? hs)])) hdot
      rw [hnil, List.nil_append] at hsplit
      have hmem := List.mem_of_getLast? hend
      rw [hsplit] at hmem
      rcases List.mem_append.mp hmem with hmem | hmem
      · exact absurd (hfront '.' hmem) (by decide)
      · exact absurd (hback '.' hmem) (by decide)
    rw [or_iff_left hrooted, undotted_of_ne hdot, stripped_inZone]
    refine ⟨fun hstrip => ⟨hstrip, ?_⟩, fun hcanonical => hcanonical.1⟩
    rwa [← hstrip]

theorem getLast_lower {t : Text} : (lower t).getLast? = some '.' ↔ t.getLast? = some '.' :=
  Text.getLast_lower (.inl (by decide))

theorem strip_eq_of_lower {t : Text} (hlower : lower (strip t) = lower t) : strip t = t := by
  obtain ⟨front, back, hblank, hblank', hsplit, -, -⟩ := Text.strip_parts t
  have hsum := congrArg List.length hlower
  rw [hsplit, Text.lower_blanks_append hblank, Text.lower_append_blanks hblank', ← hsplit,
    List.length_append, List.length_append] at hsum
  have hfront : front = [] := List.length_eq_zero_iff.mp (by omega)
  have hback : back = [] := List.length_eq_zero_iff.mp (by omega)
  rw [hfront, hback, List.nil_append, List.append_nil] at hsplit
  exact hsplit.symm

theorem canonical_lower {t : Text} : Canonical (lower t) ↔ Canonical t := by
  rw [Canonical, Canonical, Text.strip_lower, Ne, getLast_lower]
  exact and_congr_left' ⟨strip_eq_of_lower, congrArg lower⟩

theorem rooted_lower {t : Text} : Rooted (lower t) ↔ Rooted t := by
  rw [Rooted, Rooted, Text.strip_lower, getLast_lower]
  exact and_congr_right' (Text.lower_all_eq (.inl (by decide)))

theorem strip_of_no_blank {t : Text} (ht : ∀ c ∈ t, isSpace c = false) : strip t = t := by
  obtain ⟨front, back, hfront, hback, hsplit, -, -⟩ := Text.strip_parts t
  have hnil : ∀ u : Text, u ⊆ t → (∀ c ∈ u, isSpace c = true) → u = [] := by
    intro u hsub hu
    cases u with
    | nil => rfl
    | cons c u =>
      have hblank := hu c List.mem_cons_self
      rw [ht c (hsub List.mem_cons_self)] at hblank
      cases hblank
  have hfront' := hnil front (fun c hc => by rw [hsplit]; exact List.mem_append_left _ hc) hfront
  have hback' := hnil back (fun c hc => by
    rw [hsplit]
    exact List.mem_append_right _ (List.mem_append_right _ hc)) hback
  rw [hfront', hback', List.nil_append, List.append_nil] at hsplit
  exact hsplit.symm

theorem strip_line {z : Text} (hz : ∀ c ∈ z, isSpace c = false) :
    ∀ c ∈ strip (z ++ ['\n']), isSpace c = false := by
  obtain ⟨front, back, -, -, hsplit, -, hlast⟩ := Text.strip_parts (z ++ ['\n'])
  cases back using List.reverseRecOn with
  | nil =>
    cases hs : (strip (z ++ ['\n'])).getLast? with
    | none => rw [List.getLast?_eq_none_iff.mp hs]; intro c hc; cases hc
    | some c =>
      have hend := congrArg List.getLast? hsplit
      rw [List.getLast?_concat, List.append_nil, List.getLast?_append, hs, Option.some_or] at hend
      have hblank := hlast c hs
      rw [← Option.some.inj hend] at hblank
      exact absurd hblank (by decide)
  | append_singleton back c =>
    rw [← List.append_assoc, ← List.append_assoc] at hsplit
    obtain ⟨hinner, -⟩ := List.append_inj' hsplit rfl
    intro d hd
    have hmem : d ∈ front ++ strip (z ++ ['\n']) ++ back :=
      List.mem_append_left _ (List.mem_append_right _ hd)
    rw [← hinner] at hmem
    exact hz d hmem

end Zone

/-! ## The preflight and the plan -/

section Preflight

/-- What the plan reads of the inventory and of the role's variables. -/
def lbSite (inv : Provisioner.Inventory.Hosts) (seed : SeedVars) (publicIpv6 : Text → Text)
    (recordTtl : ℕ) (nameStyle : NameStyle) (recordsNodes : List Text) : Site where
  csAppZone := seed.csAppZone
  recordTtl := recordTtl
  nameStyle := nameStyle
  inventoryNodes := inv.groups "nodes"
  hostvars h := ⟨csAppDomain inv seed h, (inv.hostvars h).publicIp, publicIpv6 h⟩
  recordsNodes := recordsNodes

/-- The assertions about application domains, the one of attach mode with them. -/
structure ZoneAsserts (inv : Provisioner.Inventory.Hosts) (seed : SeedVars)
    (csNewNodes : List Text) : Prop extends AppDomainChecks inv seed where
  attach : ∀ controller ∈ (inv.groups "controller").head?,
    (inv.hostvars controller).existingEnv = true →
      ∀ h ∈ csNewNodes, csAppDomain inv seed h ≠ seed.csAppZone

def zoneHint : Text :=
  ", so its records cannot be written there. roles/preflight should have caught this: " ++
    "every app_domain must be at or under cs_app_zone."

/-- The plan reports no domain as outside the zone, whatever the server holds. -/
def NeverOutside (site : Site) : Prop :=
  ∀ allZones listing, ∀ reason ∈ (lbPlan site allZones listing).conflicts,
    Text.endswith reason zoneHint = false

def ZoneSpelled (t : Text) : Prop := Canonical t ∨ Rooted t

/-- A node with a domain of its own has written no line end behind it; one
without has the zone, spelled as the plan compares it. -/
def Spelled (inv : Provisioner.Inventory.Hosts) (seed : SeedVars) (h : Text) : Prop :=
  match (inv.hostvars h).appDomain with
  | some d => d.getLast? ≠ some '\n'
  | none => ZoneSpelled seed.csAppZone

variable {inv : Provisioner.Inventory.Hosts} {seed : SeedVars}

theorem bare_chars {d : Text} (hbare : bareDomain d = true) :
    (∀ c ∈ beforeBreak d, isSpace c = false) ∧ (beforeBreak d).getLast? ≠ some '.' := by
  simp only [bareDomain, Bool.and_eq_true, List.all_eq_true] at hbare
  refine ⟨fun c hc => ?_, fun hend => ?_⟩
  · obtain rfl | ⟨label, hlabel, hc⟩ := Text.mem_splitOn '.' hc
    · decide
    · have hchars := hbare.2 label hlabel
      simp only [ControllerSeed.isLabel, Bool.and_eq_true, List.all_eq_true] at hchars
      have hchar := hchars.1.1 c hc
      simp only [ControllerSeed.isLabelChar, Bool.or_eq_true, beq_iff_eq] at hchar
      obtain (hdigit | hlow) | rfl := hchar
      · exact Text.isSpace_of_isDigit hdigit
      · refine Text.isSpace_eq_false ?_
        rcases plain_toNat (.inl hlow) with hnat | hnat <;> omega
      · decide
  · obtain ⟨w, hw⟩ := List.getLast?_eq_some_iff.mp hend
    have hmem : ([] : Text) ∈ (beforeBreak d).splitOn '.' := by
      rw [hw, List.splitOn_append_cons_self]
      exact List.mem_append_right _ List.mem_cons_self
    exact absurd (hbare.2 [] hmem) (by decide)

theorem beforeBreak_cases (d : Text) :
    d.getLast? = some '\n' ∧ d = beforeBreak d ++ ['\n'] ∨
      d.getLast? ≠ some '\n' ∧ d = beforeBreak d := by
  unfold beforeBreak
  split
  · rename_i hlast
    exact .inl ⟨hlast, (List.dropLast_append_getLast? _ hlast).symm⟩
  · rename_i hlast
    exact .inr ⟨hlast, rfl⟩

theorem mem_zone {site : Site} {c : Char} (hspace : isSpace c = true) (hc : c ∈ zone site) :
    c ∈ strip site.csAppZone := by
  have hsub : ∀ t : Text, undotted t ⊆ t := by
    intro t
    rw [undotted]
    split
    · exact (List.dropLast_sublist t).subset
    · exact List.Subset.refl t
  exact (Text.mem_lower_iff (.inr hspace)).mp (hsub _ hc)

theorem line_outside {site : Site} {d : Text} (hline : d.getLast? = some '\n')
    (hzone : ∀ c ∈ strip site.csAppZone, isSpace c = false) :
    ¬ (d = zone site ∨ ('.' :: zone site) <:+ d) := by
  intro hin
  have hmem : '\n' ∈ zone site := by
    rcases hin with hsame | ⟨front, hsuffix⟩
    · rw [← hsame]
      exact List.mem_of_getLast? hline
    · rw [← hsuffix, List.getLast?_append, List.getLast?_cons] at hline
      cases hlast : (zone site).getLast? with
      | none =>
        rw [hlast, Option.getD_none, Option.some_or] at hline
        exact absurd hline (by decide)
      | some c =>
        rw [hlast] at hline
        rw [show c = '\n' from Option.some.inj hline] at hlast
        exact List.mem_of_getLast? hlast
  exact absurd (hzone '\n' (mem_zone (by decide) hmem)) (by decide)

/-- A domain that preflight lets through is in the zone unless a line end is
written behind it. -/
theorem own_inZone {site : Site} {d : Text} (hbare : bareDomain d = true)
    (hzone : site.csAppZone ≠ [])
    (hunder : d = site.csAppZone ∨ underZone site.csAppZone d = true) :
    inZone site (lower d) = true ↔ d.getLast? ≠ some '\n' := by
  obtain ⟨hchars, hdot⟩ := bare_chars hbare
  have hlower := ControllerSeed.lower_bare hbare
  rw [hlower, inZone_iff]
  rw [underZone, Bool.or_eq_true, Text.endswith, Text.endswith, List.isSuffixOf_iff_suffix,
    List.isSuffixOf_iff_suffix] at hunder
  have hdotted : ∀ t : Text, ("." ++ site.csAppZone : Text) <:+ t → site.csAppZone <:+ t :=
    fun t ht => (List.suffix_cons '.' site.csAppZone).trans ht
  rcases beforeBreak_cases d with ⟨hline, hd⟩ | ⟨hline, hd⟩
  · refine iff_of_false (line_outside hline ?_) (fun hne => hne hline)
    have hsuffix : site.csAppZone <:+ beforeBreak d ++ ['\n'] ∨
        site.csAppZone <:+ beforeBreak d := by
      rw [← hd]
      rcases hunder with hsame | hunder | hunder
      · rw [hsame]
        exact .inl (List.suffix_refl _)
      · exact .inl (hdotted _ hunder)
      · exact .inr (hdotted _ hunder)
    rcases hsuffix with hsuffix | hsuffix
    · rcases List.suffix_concat_iff.mp hsuffix with hnil | ⟨z, hz, hsub⟩
      · exact absurd hnil hzone
      · rw [hz]
        exact strip_line fun c hc => hchars c (hsub.subset hc)
    · have hclear : ∀ c ∈ site.csAppZone, isSpace c = false :=
        fun c hc => hchars c (hsuffix.subset hc)
      rw [strip_of_no_blank hclear]
      exact hclear
  · refine iff_of_true ?_ hline
    rw [← hd, or_self] at hunder
    rw [← hd] at hchars hdot
    have hsuffix : site.csAppZone <:+ d := by
      rcases hunder with hsame | hunder
      · exact ⟨[], hsame.symm⟩
      · exact hdotted d hunder
    have hstrip : strip site.csAppZone = site.csAppZone :=
      strip_of_no_blank fun c hc => hchars c (hsuffix.subset hc)
    have hend : site.csAppZone.getLast? ≠ some '.' := by
      obtain ⟨front, hfront⟩ := hsuffix
      rw [← hfront, List.getLast?_append_of_ne_nil _ hzone] at hdot
      exact hdot
    have hsame : zone site = site.csAppZone := by
      rw [zone, hstrip, Text.lower_of_subset hsuffix.subset hlower, undotted_of_ne hend]
    rw [hsame]
    exact hunder

/-! ## The reasons of a plan -/

theorem not_hint {reason : Text} (hend : ("n." : Text) <:+ reason) :
    Text.endswith reason zoneHint = false := by
  rw [← Bool.not_eq_true, Text.endswith, List.isSuffixOf_iff_suffix]
  intro hhint
  have hshort : ("n." : Text) <:+ zoneHint :=
    List.suffix_of_suffix_length_le hend hhint (by decide +kernel)
  rw [← List.isSuffixOf_iff_suffix] at hshort
  revert hshort
  decide

theorem end_of_suffix {t lit : Text} (hlit : ("n." : Text).isSuffixOf lit = true) :
    ("n." : Text) <:+ t ++ lit :=
  (List.isSuffixOf_iff_suffix.mp hlit).trans (List.suffix_append _ _)

theorem end_of_delete {site : Site} {t d : Text} :
    ("n." : Text) <:+ t ++ deleteByHand site d ++ "." := by
  have hrun : ("n" : Text) <:+ t ++ deleteByHand site d := by
    unfold deleteByHand
    rw [← List.append_assoc]
    have hlit : ("n" : Text).isSuffixOf (" if they are not what you want) and re-run" : Text) = true := by
      decide
    exact (List.isSuffixOf_iff_suffix.mp hlit).trans (List.suffix_append _ _)
  obtain ⟨front, hfront⟩ := hrun
  refine ⟨front, ?_⟩
  rw [← hfront, List.append_assoc]
  rfl

theorem decideRecords_reason {site : Site} {s : Seen} {d reason : Text}
    (hreason : decideRecords site s d = .conflict reason) :
    Text.endswith reason zoneHint = false := by
  unfold decideRecords at hreason
  dsimp only at hreason
  by_cases hother : s.markOther ≠ []
  · rw [if_pos hother] at hreason
    rw [← Decision.conflict.inj hreason]
    exact not_hint (end_of_suffix (by decide))
  rw [if_neg hother] at hreason
  by_cases hmarked : s.markTxt ≠ [] ∧ mWellformed s = false
  · rw [if_pos hmarked] at hreason
    rw [← Decision.conflict.inj hreason]
    exact not_hint (end_of_suffix (by decide))
  rw [if_neg hmarked] at hreason
  by_cases hunknown : s.markTxt ≠ [] ∧ mUnknown site s ≠ []
  · rw [if_pos hunknown] at hreason
    rw [← Decision.conflict.inj hreason]
    exact not_hint end_of_delete
  rw [if_neg hunknown] at hreason
  by_cases hwhy : s.markTxt = [] ∧ why site s d ≠ []
  · rw [if_pos hwhy] at hreason
    rw [← Decision.conflict.inj hreason]
    exact not_hint (end_of_suffix (by decide))
  · rw [if_neg hwhy] at hreason
    cases hreason

theorem plan_inZone {site : Site} {zones : List Text} {recs : List Record} {d reason : Text}
    (hin : inZone site d = true) (hreason : planDomain site zones recs d = .conflict reason) :
    Text.endswith reason zoneHint = false := by
  unfold planDomain at hreason
  dsimp only at hreason
  cases hcut : cut site zones d with
  | some z => rw [hcut] at hreason; cases hreason
  | none =>
    cases hdeleg : deleg site recs d with
    | some r => rw [hcut, hdeleg] at hreason; cases hreason
    | none =>
      rw [hcut, hdeleg] at hreason
      dsimp only at hreason
      rw [if_pos hin] at hreason
      exact decideRecords_reason hreason

theorem plan_outside {site : Site} {zones : List Text} {recs : List Record} {d : Text}
    (hcut : cut site zones d = none) (hdeleg : deleg site recs d = none)
    (hout : inZone site d = false) : ∃ reason, planDomain site zones recs d = .conflict reason ∧
      Text.endswith reason zoneHint = true := by
  unfold planDomain
  dsimp only
  rw [hcut, hdeleg]
  dsimp only
  rw [hout, if_neg Bool.false_ne_true]
  refine ⟨_, rfl, ?_⟩
  have hhint : zoneHint =
      ", so its records cannot be written there. roles/preflight should have caught".toList ++
        " this: every app_domain must be at or under cs_app_zone.".toList := by decide
  rw [Text.endswith, List.isSuffixOf_iff_suffix, hhint, List.append_assoc]
  exact List.suffix_append _ _

theorem cut_nil (site : Site) (d : Text) : cut site (zoneNames []) d = none := by
  rw [cut, if_neg]
  exact fun hcut => hcut.2 rfl

theorem deleg_nil (site : Site) (d : Text) : deleg site (zoneRecords []) d = none := by
  rw [deleg, if_neg]
  exact fun hdeleg => hdeleg.2 rfl

/-- The plan never stops at the zone exactly where every run domain is in it. -/
theorem never_outside_iff (site : Site) :
    NeverOutside site ↔ ∀ h ∈ nodes site, inZone site (domain site h) = true := by
  constructor
  · intro hnever h hh
    by_contra hout
    obtain ⟨reason, hplan, hend⟩ := plan_outside (cut_nil site (domain site h))
      (deleg_nil site (domain site h)) (Bool.eq_false_iff.mpr hout)
    have hmem : reason ∈ (lbPlan site [] []).conflicts := by
      refine List.mem_flatMap.mpr ⟨.conflict reason, ?_, List.mem_singleton_self _⟩
      rw [← hplan]
      exact List.mem_map_of_mem (mem_runDomains.mpr ⟨h, hh, rfl⟩)
    rw [hnever [] [] reason hmem] at hend
    cases hend
  · intro hin allZones listing reason hreason
    obtain ⟨decision, hdecision, hmem⟩ := List.mem_flatMap.mp hreason
    obtain ⟨d, hd, hplan⟩ := List.mem_map.mp hdecision
    obtain ⟨h, hh, rfl⟩ := mem_runDomains.mp hd
    cases decision with
    | conflict reason' =>
      obtain rfl := List.mem_singleton.mp hmem
      exact plan_inZone (hin h hh) hplan
    | skipped note => cases hmem
    | write ops => cases hmem

/-- Of what the preflight lets through, the plan finds every run domain in the
zone exactly where the zone is spelled as the plan compares it, or no run node
takes it, and no run node's own domain has a line end behind it. -/
theorem never_outside_spelled {csNewNodes : List Text}
    (hasserts : ZoneAsserts inv seed csNewNodes) (publicIpv6 : Text → Text) (recordTtl : ℕ)
    (nameStyle : NameStyle) {recordsNodes : List Text} (hnodes : recordsNodes ⊆ inv.groups "nodes") :
    NeverOutside (lbSite inv seed publicIpv6 recordTtl nameStyle recordsNodes) ↔
      ∀ h ∈ sort (unique recordsNodes), Spelled inv seed h := by
  rw [never_outside_iff]
  refine forall₂_congr fun h hh => ?_
  have hall : h ∈ inv.groups "all" := inv.in_all "nodes" (hnodes (mem_nodes hh))
  unfold Spelled
  cases hown : (inv.hostvars h).appDomain with
  | none =>
    have hdomain : domain (lbSite inv seed publicIpv6 recordTtl nameStyle recordsNodes) h =
        lower seed.csAppZone := by
      simp only [domain, lbSite, csAppDomain, hown]
    have hzone : zone (lbSite inv seed publicIpv6 recordTtl nameStyle recordsNodes) =
        undotted (strip (lower seed.csAppZone)) := by
      rw [zone, Text.strip_lower]
      rfl
    rw [hdomain, inZone_iff, hzone, spelling_inZone, canonical_lower, rooted_lower]
    rfl
  | some d =>
    have hbare := hasserts.bare h hall d hown
    have hne : d.isEmpty = false := by
      simp only [bareDomain, Bool.and_eq_true, Bool.not_eq_true'] at hbare
      exact hbare.1.1
    have hdomain : domain (lbSite inv seed publicIpv6 recordTtl nameStyle recordsNodes) h =
        lower d := by
      simp only [domain, lbSite, csAppDomain, hown, hne, Bool.false_eq_true, if_false]
    rw [hdomain]
    exact own_inZone hbare hasserts.zone.1 (hasserts.under h hall d hown)

/-! ## A zone written with its last dot -/

def dottedSeed : SeedVars := { ControllerSeed.sampleSeed with csAppZone := "apps.example.net." }

theorem zone_asserts_dotted :
    ZoneAsserts (ControllerSeed.spelledRegion "East") dottedSeed ["node1", "node2"] := by
  have hnone : ∀ h : Text, ((ControllerSeed.spelledRegion "East").hostvars h).appDomain = none :=
    fun _ => rfl
  refine ⟨⟨?_, rfl, by decide, ?_⟩, ?_⟩
  · intro h _ d hd
    rw [hnone] at hd
    cases hd
  · intro h _ d hd
    rw [hnone] at hd
    cases hd
  · intro controller hcontroller hexisting
    cases hexisting

/-- The second node has a domain of its own in the zone. -/
def ownDomain : Provisioner.Inventory.Hosts :=
  { ControllerSeed.spelledRegion "East" with
    hostvars := fun h => { (ControllerSeed.spelledRegion "East").hostvars h with
      appDomain := if h = "node2" then some "node2.apps.example.net" else none } }

theorem zone_asserts_own :
    ZoneAsserts ownDomain ControllerSeed.sampleSeed ["node1", "node2"] := by
  have hown : ∀ (h : Text) (d : Text), (ownDomain.hostvars h).appDomain = some d →
      d = "node2.apps.example.net" := by
    intro h d hd
    change (if h = "node2" then some ("node2.apps.example.net" : Text) else none) = some d at hd
    split_ifs at hd
    exact (Option.some.inj hd).symm
  refine ⟨⟨?_, rfl, by decide, ?_⟩, ?_⟩
  · intro h _ d hd
    rw [hown h d hd]
    decide
  · intro h _ d hd
    rw [hown h d hd]
    decide
  · intro controller hcontroller hexisting
    cases hexisting

/-- One zone is spelled as the plan compares it, the other is not. -/
theorem never_outside_spelled_own :
    NeverOutside (lbSite ownDomain ControllerSeed.sampleSeed (fun _ => []) 14400 .absolute
        ["node1", "node2"]) ∧
      (NeverOutside (lbSite (ControllerSeed.spelledRegion "East") dottedSeed (fun _ => []) 14400
        .absolute ["node1", "node2"]) ↔
        ∀ h ∈ sort (unique ["node1", "node2"]),
          Spelled (ControllerSeed.spelledRegion "East") dottedSeed h) := by
  have hspelled : ∀ h ∈ sort (unique ["node1", "node2"]),
      Spelled ownDomain ControllerSeed.sampleSeed h := by
    have hsort : sort (unique ["node1", "node2"]) = ["node1", "node2"] := by decide
    rw [hsort]
    refine List.forall_mem_cons.mpr ⟨.inl ⟨by decide, by decide⟩, List.forall_mem_singleton.mpr ?_⟩
    change ("node2.apps.example.net" : Text).getLast? ≠ some '\n'
    decide
  exact ⟨(never_outside_spelled zone_asserts_own _ _ _ (fun _ hh => hh)).mpr hspelled,
    never_outside_spelled zone_asserts_dotted _ _ _ (fun _ hh => hh)⟩

/-- The preflight passes and the plan reports the zone as outside itself. -/
theorem dotted_zone_outside :
    ZoneAsserts (ControllerSeed.spelledRegion "East") dottedSeed ["node1", "node2"] ∧
      ∃ allZones listing, ∃ reason ∈ (lbPlan (lbSite (ControllerSeed.spelledRegion "East")
        dottedSeed (fun _ => []) 14400 .absolute ["node1", "node2"]) allZones listing).conflicts,
        Text.endswith reason zoneHint = true := by
  refine ⟨zone_asserts_dotted, [], [], ?_⟩
  have hany : ((lbPlan (lbSite (ControllerSeed.spelledRegion "East")
      dottedSeed (fun _ => []) 14400 .absolute ["node1", "node2"]) [] []).conflicts.any
        fun reason => Text.endswith reason zoneHint) = true := by decide
  obtain ⟨reason, hmem, hend⟩ := List.any_eq_true.mp hany
  exact ⟨reason, hmem, hend⟩

end Preflight

end Provisioner.Powerdns
