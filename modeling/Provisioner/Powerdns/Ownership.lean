import Provisioner.Library.Words
import Provisioner.Powerdns.Plan

/-!
# Ownership of load balancer records

A domain is written to when its marker names only nodes of this inventory, or
when nothing is marked and nothing there differs. Markers are compared through
`unique`, which hides a host that differs from another one only in case.
-/

namespace Provisioner.Powerdns

theorem ownerMatch_mark (h : Text) : ownerMatch (ownerMark h) = some h := by
  have hstart : Text.startswith (ownerMark h) ownerHead = true := by
    rw [Text.startswith, ownerMark, List.append_assoc, List.isPrefixOf_iff_prefix]
    exact List.prefix_append _ _
  have hdrop : (ownerMark h).drop 7 = h ++ ['"'] := rfl
  rw [ownerMatch, hdrop, if_pos ⟨hstart, List.getLast?_concat⟩, List.dropLast_concat]

theorem eq_ownerMark {c h : Text} (hmatch : ownerMatch c = some h) : c = ownerMark h := by
  unfold ownerMatch at hmatch
  split at hmatch
  · rename_i hform
    obtain ⟨hstart, hlast⟩ := hform
    obtain ⟨rest, rfl⟩ := List.isPrefixOf_iff_prefix.mp hstart
    have hdrop : (ownerHead ++ rest).drop 7 = rest := rfl
    rw [hdrop] at hmatch hlast
    cases hmatch
    rw [ownerMark, List.append_assoc, List.dropLast_append_getLast? '"' hlast]
  · cases hmatch

theorem isOwner_iff {c : Text} :
    isOwner c = true ↔ ∃ h, c = ownerMark h ∧ h ≠ [] ∧ '"' ∉ h := by
  rw [isOwner, Option.any_eq_true]
  constructor
  · rintro ⟨h, hmatch, hform⟩
    simp only [Bool.and_eq_true, Bool.not_eq_true', List.isEmpty_eq_false_iff] at hform
    refine ⟨h, eq_ownerMark hmatch, hform.1, ?_⟩
    simpa using hform.2
  · rintro ⟨h, rfl, hne, hquote⟩
    refine ⟨h, ownerMatch_mark h, ?_⟩
    simpa using ⟨hne, hquote⟩

theorem markedHost_mark (h : Text) : markedHost (ownerMark h) = h := by
  rw [markedHost, ownerMatch_mark, Option.getD_some]

theorem mark_markedHost {c : Text} (h : isOwner c = true) : ownerMark (markedHost c) = c := by
  obtain ⟨h, rfl, -⟩ := isOwner_iff.mp h
  rw [markedHost_mark]

theorem lower_ownerMark (h : Text) : Text.lower (ownerMark h) = ownerMark (Text.lower h) := by
  have hequals : Text.Stop '=' := by decide +kernel
  have hquote : Text.Stop '"' := by decide +kernel
  have hhead : Text.lower ['"', 'o', 'w', 'n', 'e', 'r'] = ['"', 'o', 'w', 'n', 'e', 'r'] := by decide
  have hsplit : ∀ t : Text, ownerMark t = ['"', 'o', 'w', 'n', 'e', 'r'] ++ '=' :: (t ++ ['"']) := by
    intro t
    rw [ownerMark, ownerHead, List.append_assoc]
    rfl
  rw [hsplit, hsplit, Text.lower_stop hequals, hhead, Text.lower_stop hquote]
  rfl

theorem lower_ownerMark_inj {h h' : Text} :
    Text.lower (ownerMark h) = Text.lower (ownerMark h') ↔ Text.lower h = Text.lower h' := by
  rw [lower_ownerMark, lower_ownerMark]
  refine ⟨fun hmark => ?_, congrArg ownerMark⟩
  rw [← markedHost_mark (Text.lower h), hmark, markedHost_mark]

/-- Case (a): the marker is there and only ever names a node of this inventory. -/
def OwnMarker (site : Site) (recs : List Record) (d : Text) : Prop :=
  (∃ r ∈ recs, r.name = mark d) ∧
    ∀ r ∈ recs, r.name = mark d →
      r.type = ("TXT" : Text) ∧ ∃ h ∈ site.inventoryNodes, r.content = ownerMark h

/-- Case (b): nothing is marked, and an operation changes at most a TTL. -/
structure Adoptable (recs : List Record) (d : Text) (ops : List Op) : Prop where
  unmarked : ∀ r ∈ recs, r.name ≠ mark d
  no_apexCname : rrset recs (apex d) "CNAME" = []
  wildcard : ∀ r ∈ recs, r.name = wild d → r.type = ("CNAME" : Text)
  ops : ∀ op ∈ ops, op.op = .replace ∧
    (rrset recs op.fqdn op.type = [] ∨ (contents (rrset recs op.fqdn op.type)).Perm op.contents)

def Served (site : Site) (zones : List Text) (recs : List Record) (d : Text) : Prop :=
  cut site zones d = none ∧ deleg site recs d = none

def Conflicting (decision : Decision) : Prop := ∃ reason, decision = .conflict reason

structure RespectsOwners (site : Site) (zones : List Text) (recs : List Record) (d : Text) :
    Prop where
  owned : (planDomain site zones recs d).ops ≠ [] →
    OwnMarker site recs d ∨ Adoptable recs d (planDomain site zones recs d).ops
  refused : ¬ Served site zones recs d ∨ Conflicting (planDomain site zones recs d) →
    (planDomain site zones recs d).ops = []
  foreign : Served site zones recs d → (∃ r ∈ recs, r.name = mark d) → ¬ OwnMarker site recs d →
    Conflicting (planDomain site zones recs d)

def namedHosts (recs : List Record) (d : Text) : List Text :=
  (contents (rrset recs (mark d) "TXT")).map markedHost

/-- The marker names a host that is no node, behind another spelling that is one. -/
structure HiddenOwner (site : Site) (recs : List Record) (d : Text) : Prop where
  form : ∀ r ∈ recs, r.name = mark d → r.type = ("TXT" : Text) ∧ isOwner r.content = true
  first : ∀ h ∈ namedHosts recs d, ∀ h',
    (namedHosts recs d).find? (fun b => Text.lower b = Text.lower h) = some h' →
      h' ∈ site.inventoryNodes
  hidden : ∃ h ∈ namedHosts recs d, h ∉ site.inventoryNodes

section Marker

variable {site : Site} {recs : List Record} {d : Text}

theorem mem_rrset {name type : Text} {r : Record} :
    r ∈ rrset recs name type ↔ r ∈ recs ∧ r.name = name ∧ r.type = type := by
  simp [rrset]

theorem mem_others {name type : Text} {r : Record} :
    r ∈ others recs name type ↔ r ∈ recs ∧ r.name = name ∧ r.type ≠ type := by
  simp [others]

theorem others_eq_nil {name type : Text} :
    others recs name type = [] ↔ ∀ r ∈ recs, r.name = name → r.type = type := by
  rw [List.eq_nil_iff_forall_not_mem]
  constructor
  · intro h r hr hname
    by_contra htype
    exact h r (mem_others.mpr ⟨hr, hname, htype⟩)
  · intro h r hr
    obtain ⟨hr, hname, htype⟩ := mem_others.mp hr
    exact htype (h r hr hname)

theorem mWellformed_iff {s : Seen} :
    mWellformed s = true ↔ ∀ c ∈ contents s.markTxt, isOwner c = true := by
  rw [mWellformed, List.all_eq_true]
  constructor
  · intro h c hc
    exact h c (Jinja.mem_sort.mpr hc)
  · intro h c hc
    exact h c (Jinja.mem_sort.mp hc)

theorem find_marked {cs : List Text} (hform : ∀ c ∈ cs, isOwner c = true) (h : Text) :
    ((sort cs).map markedHost).find? (fun b => Text.lower b = Text.lower h) =
      (cs.map markedHost).find? fun b => Text.lower b = Text.lower h := by
  have hkey : ∀ l : List Text, (∀ c ∈ l, isOwner c = true) →
      l.find? ((fun b => decide (Text.lower b = Text.lower h)) ∘ markedHost) =
        l.find? fun c => Text.lower c = Text.lower (ownerMark h) := by
    intro l hl
    rw [← List.head?_filter, ← List.head?_filter]
    refine congrArg List.head? (List.filter_congr fun c hc => ?_)
    conv_rhs => rw [← mark_markedHost (hl c hc)]
    simp only [Function.comp_apply, lower_ownerMark_inj]
  rw [List.find?_map, List.find?_map, hkey cs hform,
    hkey (sort cs) fun c hc => hform c (Jinja.mem_sort.mp hc), sort,
    Jinja.find_sort fun c => decide_eq_true_iff]

theorem mem_mOwners {s : Seen} (hform : mWellformed s = true) {h : Text} :
    h ∈ mOwners s ↔
      ((contents s.markTxt).map markedHost).find? (fun b => Text.lower b = Text.lower h) =
        some h := by
  rw [mOwners, if_pos hform, sort, Jinja.mem_sort, unique, Jinja.mem_unique_iff, mHave,
    find_marked (mWellformed_iff.mp hform)]

theorem mUnknown_eq_nil {s : Seen} : mUnknown site s = [] ↔ ∀ h ∈ mOwners s, h ∈ site.inventoryNodes := by
  simp [mUnknown, List.filter_eq_nil_iff]

theorem known_iff_first (hform : mWellformed (seen recs d) = true) :
    mUnknown site (seen recs d) = [] ↔
      ∀ h ∈ namedHosts recs d, ∀ h',
        (namedHosts recs d).find? (fun b => Text.lower b = Text.lower h) = some h' →
          h' ∈ site.inventoryNodes := by
  rw [mUnknown_eq_nil]
  constructor
  · intro hknown h _ h' hfind
    have hlower : Text.lower h' = Text.lower h := by simpa using List.find?_some hfind
    refine hknown h' ((mem_mOwners hform).mpr ?_)
    rw [hlower]
    exact hfind
  · intro hfirst h hh
    rw [mem_mOwners hform] at hh
    exact hfirst h (List.mem_of_find?_eq_some hh) h hh

end Marker

section Decision

variable {site : Site} {zones : List Text} {recs : List Record} {d : Text} {s : Seen}

/-- The marker is ours, or nothing is marked and nothing differs. -/
structure Clear (site : Site) (s : Seen) (d : Text) : Prop where
  no_other : s.markOther = []
  marked : s.markTxt ≠ [] → mWellformed s = true ∧ mUnknown site s = []
  unmarked : s.markTxt = [] → why site s d = []

theorem decideRecords_of_clear (h : Clear site s d) :
    decideRecords site s d = .write (ops site s d) := by
  have hform : ¬ (s.markTxt ≠ [] ∧ mWellformed s = false) := by
    rintro ⟨hmarked, hform⟩
    rw [(h.marked hmarked).1] at hform
    cases hform
  have hknown : ¬ (s.markTxt ≠ [] ∧ mUnknown site s ≠ []) := fun hunknown =>
    hunknown.2 (h.marked hunknown.1).2
  have hwhy : ¬ (s.markTxt = [] ∧ why site s d ≠ []) := fun hwhy => hwhy.2 (h.unmarked hwhy.1)
  rw [decideRecords]
  rw [if_neg (not_not_intro h.no_other), if_neg hform, if_neg hknown, if_neg hwhy]

theorem decideRecords_of_not_clear (h : ¬ Clear site s d) :
    Conflicting (decideRecords site s d) := by
  rw [decideRecords]
  by_cases hother : s.markOther = []
  · rw [if_neg (not_not_intro hother)]
    by_cases hform : s.markTxt ≠ [] ∧ mWellformed s = false
    · rw [if_pos hform]
      exact ⟨_, rfl⟩
    · rw [if_neg hform]
      by_cases hknown : s.markTxt ≠ [] ∧ mUnknown site s ≠ []
      · rw [if_pos hknown]
        exact ⟨_, rfl⟩
      · rw [if_neg hknown]
        by_cases hwhy : s.markTxt = [] ∧ why site s d ≠ []
        · rw [if_pos hwhy]
          exact ⟨_, rfl⟩
        · refine absurd ⟨hother, fun hmarked => ⟨?_, ?_⟩, fun hunmarked => ?_⟩ h
          · simpa [hmarked] using hform
          · simpa [hmarked] using hknown
          · simpa [hunmarked] using hwhy
  · rw [if_pos hother]
    exact ⟨_, rfl⟩

theorem planDomain_of_not_served (h : ¬ Served site zones recs d) :
    ∃ note, planDomain site zones recs d = .skipped note := by
  unfold planDomain
  dsimp only
  cases hcut : cut site zones d with
  | some z => exact ⟨_, rfl⟩
  | none =>
    cases hdeleg : deleg site recs d with
    | some r => exact ⟨_, rfl⟩
    | none => exact absurd ⟨hcut, hdeleg⟩ h

theorem planDomain_of_outside (h : Served site zones recs d) (hzone : inZone site d = false) :
    Conflicting (planDomain site zones recs d) := by
  unfold planDomain
  dsimp only
  rw [h.1, h.2, hzone]
  exact ⟨_, rfl⟩

theorem planDomain_of_served (h : Served site zones recs d) (hzone : inZone site d = true) :
    planDomain site zones recs d = decideRecords site (seen recs d) d := by
  unfold planDomain
  dsimp only
  rw [h.1, h.2, hzone]
  rfl

def Agrees (rs : List Record) (want : List Text) : Prop := rs = [] ∨ sort (contents rs) = want

theorem agrees_iff {rs : List Record} {want : List Text} :
    (!rs.isEmpty && sort (contents rs) != want) = false ↔ Agrees rs want := by
  rw [Bool.and_eq_false_iff, Bool.not_eq_false', List.isEmpty_iff, bne_eq_false_iff_eq]
  rfl

theorem why_eq_nil : why site s d = [] ↔
    s.apexCname = [] ∧ Agrees s.apexA (ips site (wanted site s d)) ∧
      (ips6 site (wanted site s d) = [] ∨ Agrees s.apexAaaa (ips6 site (wanted site s d))) ∧
      s.wildOther = [] ∧ Agrees s.wildCname [apex d] := by
  have hif : ∀ (b : Bool) (t : Text), (if b = true then [t] else []) = [] ↔ b = false := by
    intro b t
    cases b <;> simp
  have hempty : ∀ (rs : List Record) (t : Text), (if rs.isEmpty = true then [] else [t]) = [] ↔
      rs = [] := by
    intro rs t
    cases rs <;> simp
  have hmanaged : ∀ (l : List Text) (b : Bool), (!l.isEmpty && b) = false ↔ l = [] ∨ b = false := by
    intro l b
    cases l <;> simp
  rw [why]
  dsimp only
  rw [List.append_eq_nil_iff, List.append_eq_nil_iff, List.append_eq_nil_iff,
    List.append_eq_nil_iff, hempty, hif, hif, hempty, hif, hmanaged, agrees_iff, agrees_iff,
    agrees_iff, and_assoc, and_assoc, and_assoc]

theorem mem_rrsets_iff : (∃ r ∈ recs, r.name = mark d) ↔
    (seen recs d).markTxt ≠ [] ∨ (seen recs d).markOther ≠ [] := by
  constructor
  · rintro ⟨r, hr, hname⟩
    by_cases htype : r.type = ("TXT" : Text)
    · exact .inl (List.ne_nil_of_mem (mem_rrset.mpr ⟨hr, hname, htype⟩))
    · exact .inr (List.ne_nil_of_mem (mem_others.mpr ⟨hr, hname, htype⟩))
  · rintro (h | h)
    · obtain ⟨r, hr⟩ := List.exists_mem_of_ne_nil _ h
      exact ⟨r, (mem_rrset.mp hr).1, (mem_rrset.mp hr).2.1⟩
    · obtain ⟨r, hr⟩ := List.exists_mem_of_ne_nil _ h
      exact ⟨r, (mem_others.mp hr).1, (mem_others.mp hr).2.1⟩

theorem adoptable_of_unmarked (hother : (seen recs d).markOther = [])
    (hmark : (seen recs d).markTxt = []) (hwhy : why site (seen recs d) d = []) :
    Adoptable recs d (ops site (seen recs d) d) := by
  obtain ⟨hcname, ha, haaaa, hwild, hwc⟩ := why_eq_nil.mp hwhy
  have hperm : ∀ {rs : List Record} {want : List Text}, Agrees rs want →
      rs = [] ∨ (contents rs).Perm want := by
    rintro rs want (hempty | rfl)
    · exact .inl hempty
    · exact .inr (Jinja.sort_perm _).symm
  refine ⟨?_, hcname, others_eq_nil.mp hwild, ?_⟩
  · intro r hr hname
    rcases mem_rrsets_iff.mp ⟨r, hr, hname⟩ with h | h
    · exact h hmark
    · exact h hother
  · intro op hop
    simp only [ops, hcname, hwild, types, Jinja.unique, sortTypes, Jinja.sort,
      List.map_nil, List.insertionSort_nil, List.isEmpty_nil, if_true, List.nil_append,
      List.append_nil, List.mem_append] at hop
    rcases hop with ((hop | hop) | hop) | hop
    · split at hop
      · cases hop
      · obtain rfl := List.mem_singleton.mp hop
        exact ⟨rfl, hperm ha⟩
    · split at hop
      · cases hop
      · rename_i hmanaged
        obtain rfl := List.mem_singleton.mp hop
        rw [Bool.or_eq_true, not_or, List.isEmpty_iff] at hmanaged
        exact ⟨rfl, hperm (haaaa.resolve_left hmanaged.1)⟩
    · split at hop
      · cases hop
      · obtain rfl := List.mem_singleton.mp hop
        exact ⟨rfl, hperm hwc⟩
    · split at hop
      · cases hop
      · obtain rfl := List.mem_singleton.mp hop
        exact ⟨rfl, .inl hmark⟩

theorem own_marker_of_known (hother : (seen recs d).markOther = [])
    (hmark : (seen recs d).markTxt ≠ []) (hform : mWellformed (seen recs d) = true)
    (hknown : ∀ h ∈ namedHosts recs d, h ∈ site.inventoryNodes) : OwnMarker site recs d := by
  refine ⟨mem_rrsets_iff.mpr (.inl hmark), fun r hr hname => ?_⟩
  have htype := others_eq_nil.mp hother r hr hname
  have hcontent : r.content ∈ contents (seen recs d).markTxt :=
    List.mem_map_of_mem (mem_rrset.mpr ⟨hr, hname, htype⟩)
  refine ⟨htype, markedHost r.content, hknown _ (List.mem_map_of_mem hcontent), ?_⟩
  exact (mark_markedHost (mWellformed_iff.mp hform _ hcontent)).symm

theorem mem_namedHosts {h : Text} : h ∈ namedHosts recs d ↔
    ∃ r ∈ recs, r.name = mark d ∧ r.type = ("TXT" : Text) ∧ markedHost r.content = h := by
  simp only [namedHosts, contents, List.mem_map, mem_rrset]
  constructor
  · rintro ⟨_, ⟨r, ⟨hr, hname, htype⟩, rfl⟩, rfl⟩
    exact ⟨r, hr, hname, htype, rfl⟩
  · rintro ⟨r, hr, hname, htype, rfl⟩
    exact ⟨_, ⟨r, ⟨hr, hname, htype⟩, rfl⟩, rfl⟩

theorem clear_of_hidden (h : HiddenOwner site recs d) : Clear site (seen recs d) d := by
  have hform : mWellformed (seen recs d) = true := by
    refine mWellformed_iff.mpr fun c hc => ?_
    obtain ⟨r, hr, rfl⟩ := List.mem_map.mp hc
    exact (h.form r (mem_rrset.mp hr).1 (mem_rrset.mp hr).2.1).2
  obtain ⟨host, hhost, -⟩ := h.hidden
  obtain ⟨r, hr, hname, htype, -⟩ := mem_namedHosts.mp hhost
  refine ⟨others_eq_nil.mpr fun r hr hname => (h.form r hr hname).1, fun _ => ⟨hform, ?_⟩, ?_⟩
  · exact (known_iff_first hform).mpr h.first
  · intro hempty
    exact absurd (mem_rrset.mpr ⟨hr, hname, htype⟩) (List.eq_nil_iff_forall_not_mem.mp hempty r)

theorem not_own_marker_of_hidden (h : HiddenOwner site recs d) : ¬ OwnMarker site recs d := by
  rintro ⟨-, hown⟩
  obtain ⟨host, hhost, hunknown⟩ := h.hidden
  obtain ⟨r, hr, hname, htype, rfl⟩ := mem_namedHosts.mp hhost
  obtain ⟨-, h', hh', hcontent⟩ := hown r hr hname
  rw [hcontent, markedHost_mark] at hunknown
  exact hunknown hh'

theorem owned_of_clear (h : Clear site (seen recs d) d) (hhidden : ¬ HiddenOwner site recs d) :
    OwnMarker site recs d ∨ Adoptable recs d (ops site (seen recs d) d) := by
  by_cases hmark : (seen recs d).markTxt = []
  · exact .inr (adoptable_of_unmarked h.no_other hmark (h.unmarked hmark))
  · obtain ⟨hform, hunknown⟩ := h.marked hmark
    refine .inl (own_marker_of_known h.no_other hmark hform ?_)
    by_contra hsome
    push Not at hsome
    refine hhidden ⟨fun r hr hname => ?_, (known_iff_first hform).mp hunknown, hsome⟩
    have htype := others_eq_nil.mp h.no_other r hr hname
    exact ⟨htype, mWellformed_iff.mp hform _
      (List.mem_map_of_mem (mem_rrset.mpr ⟨hr, hname, htype⟩))⟩

theorem respects_owners_iff : RespectsOwners site zones recs d ↔
    (Served site zones recs d → inZone site d = true → ¬ HiddenOwner site recs d) := by
  constructor
  · intro h hserved hzone hhidden
    obtain ⟨host, hhost, -⟩ := hhidden.hidden
    obtain ⟨r, hr, hname, -⟩ := mem_namedHosts.mp hhost
    obtain ⟨reason, hreason⟩ := h.foreign hserved ⟨r, hr, hname⟩ (not_own_marker_of_hidden hhidden)
    rw [planDomain_of_served hserved hzone,
      decideRecords_of_clear (clear_of_hidden hhidden)] at hreason
    cases hreason
  · intro h
    by_cases hserved : Served site zones recs d
    · have hconflict : Conflicting (planDomain site zones recs d) →
          RespectsOwners site zones recs d := by
        rintro ⟨reason, hreason⟩
        refine ⟨fun hops => ?_, fun _ => ?_, fun _ _ _ => ⟨reason, hreason⟩⟩
        · rw [hreason] at hops
          exact absurd rfl hops
        · rw [hreason]
          rfl
      cases hzone : inZone site d with
      | false => exact hconflict (planDomain_of_outside hserved hzone)
      | true =>
        have hplan := planDomain_of_served hserved hzone
        by_cases hclear : Clear site (seen recs d) d
        · rw [decideRecords_of_clear hclear] at hplan
          have howned := owned_of_clear hclear (h hserved hzone)
          refine ⟨fun _ => ?_, ?_, fun _ hmark hforeign => ?_⟩
          · rw [hplan]
            exact howned
          · rintro (hskip | ⟨reason, hreason⟩)
            · exact absurd hserved hskip
            · rw [hplan] at hreason
              cases hreason
          · obtain ⟨r, hr, hname⟩ := hmark
            rcases howned with hown | hadopt
            · exact absurd hown hforeign
            · exact absurd hname (hadopt.unmarked r hr)
        · refine hconflict ?_
          rw [hplan]
          exact decideRecords_of_not_clear hclear
    · obtain ⟨note, hnote⟩ := planDomain_of_not_served hserved
      refine ⟨fun hops => ?_, fun _ => ?_, fun h => absurd h hserved⟩
      · rw [hnote] at hops
        exact absurd rfl hops
      · rw [hnote]
        rfl

end Decision

/-- The records of other owners are safe in a run exactly when no marker of a
domain it writes hides an owner behind another spelling. -/
theorem plan_respects_owners_iff (site : Site) (allZones listing : List Text) :
    (∀ d ∈ runDomains site,
      RespectsOwners site (zoneNames allZones) (zoneRecords listing) d) ↔
    ∀ d ∈ runDomains site, Served site (zoneNames allZones) (zoneRecords listing) d →
      inZone site d = true → ¬ HiddenOwner site (zoneRecords listing) d :=
  forall₂_congr fun _ _ => respects_owners_iff

section Shadowed

/-- An inventory with one az; the az of another inventory is called NODE1. -/
def fleet : Site where
  csAppZone := "ex.test"
  recordTtl := 300
  nameStyle := .absolute
  inventoryNodes := ["node1"]
  hostvars _ := ⟨"lb1.ex.test", "192.0.2.1", []⟩
  recordsNodes := ["node1"]

def shadowed : List Text :=
  ["lb1.ex.test.\t300\tIN\tA\t198.51.100.7", "*.lb1.ex.test.\t300\tIN\tCNAME\tlb1.ex.test.",
    "_cs-lb.lb1.ex.test.\t300\tIN\tTXT\t\"owner=node1\"",
    "_cs-lb.lb1.ex.test.\t300\tIN\tTXT\t\"owner=NODE1\""]

theorem plan_overwrites_shadowed :
    (lbPlan fleet ["ex.test"] shadowed).ops =
      [replace fleet "lb1.ex.test." "lb1.ex.test." "A" ["192.0.2.1"],
        replace fleet "_cs-lb.lb1.ex.test." "_cs-lb.lb1.ex.test." "TXT" ["\"owner=node1\""]] ∧
    ¬ ∀ d ∈ runDomains fleet,
      RespectsOwners fleet (zoneNames ["ex.test"]) (zoneRecords shadowed) d := by
  refine ⟨by decide, fun h => ?_⟩
  have hserved : Served fleet (zoneNames ["ex.test"]) (zoneRecords shadowed) "lb1.ex.test" :=
    ⟨by decide, by decide⟩
  obtain ⟨reason, hreason⟩ := (h "lb1.ex.test" (by decide)).foreign hserved
    (by decide) fun hown => by
      obtain ⟨-, host, hhost, hcontent⟩ :=
        hown.2 ⟨"_cs-lb.lb1.ex.test.", 300, "TXT", "\"owner=NODE1\""⟩ (by decide) (by decide)
      obtain rfl := List.mem_singleton.mp hhost
      revert hcontent
      decide
  have hwrite : (planDomain fleet (zoneNames ["ex.test"]) (zoneRecords shadowed) "lb1.ex.test").conflicts = [] := by
    decide
  rw [hreason] at hwrite
  cases hwrite

end Shadowed

end Provisioner.Powerdns
