import Mathlib.Data.List.Induction
import Provisioner.Powerdns.Replan

/-!
# A run split over subsets of the nodes

On names that start out bare, narrowed runs made one after the other leave the
zone that one run over all their nodes leaves. The listing after some of them
is described by the nodes they were made for.
-/

namespace Provisioner.Powerdns

def narrowed (site : Site) (part : List Text) : Site := { site with recordsNodes := part }

def runOnce (site : Site) (allZones listing : List Text) : List Text :=
  applyOps site (lbPlan site allZones listing).ops listing

def runs (site : Site) (allZones : List Text) (parts : List (List Text)) (listing : List Text) :
    List Text :=
  parts.foldl (fun listing part => runOnce (narrowed site part) allZones listing) listing

def Bare (recs : List Record) (d : Text) : Prop := ∀ r ∈ recs, ¬ OwnName d r.name r.type

/-- The narrowed runs object to nothing and leave what the one run leaves. -/
structure SplitSafe (site : Site) (allZones listing : List Text) (parts : List (List Text)) :
    Prop where
  no_conflict : ∀ done part rest, parts = done ++ part :: rest →
    (lbPlan (narrowed site part) allZones (runs site allZones done listing)).conflicts = []
  whole_no_conflict : (lbPlan site allZones listing).conflicts = []
  same : ∀ name type, rrset (zoneRecords (runs site allZones parts listing)) name type =
    rrset (zoneRecords (runOnce site allZones listing)) name type

def blank : Seen := ⟨[], [], [], [], [], [], []⟩

/-- A goal of one run over `done` whose names were bare. -/
def Laying (site : Site) (zones : List Text) (recs : List Record) (done : List Text) (g : Op) :
    Prop :=
  ∃ d ∈ runDomains (narrowed site done), Served site zones recs d ∧
    g ∈ goals (narrowed site done) blank d

/-- The listing is `first` with the goals of `done` written over it. -/
structure Laid (site : Site) (zones first done listing : List Text) : Prop where
  written : ∀ g, Laying site zones (zoneRecords first) done g →
    rrset (zoneRecords listing) g.fqdn g.type = opRecords site.nameStyle (zfq site) g
  rest : ∀ name type, (∀ g, Laying site zones (zoneRecords first) done g → key g ≠ (name, type)) →
    rrset (zoneRecords listing) name type = rrset (zoneRecords first) name type

def Inventory.narrow (inv : Inventory) (part : List Text)
    (hpart : ∀ h ∈ part, h ∈ inv.inventoryNodes) : Inventory :=
  { inv with
    recordsNodes := part
    wellFormed := ⟨hpart, inv.wellFormed.host_form, fun _ hh =>
      ⟨(inv.host hh).domain_form, (inv.host hh).ip_form, (inv.host hh).ipv6_form⟩,
      inv.wellFormed.apart⟩ }

section Narrowed

variable {inv : Inventory} {zones : List Text} {recs : List Record} {done part : List Text}
  {s : Seen} {d h : Text} {g : Op}

theorem mem_nodes_narrowed (hpart : ∀ h ∈ part, h ∈ inv.inventoryNodes) :
    h ∈ nodes (narrowed inv.toSite part) ↔ h ∈ part :=
  @mem_nodes_iff (inv.narrow part hpart) h

theorem mem_domains_narrowed (hpart : ∀ h ∈ part, h ∈ inv.inventoryNodes) :
    d ∈ runDomains (narrowed inv.toSite part) ↔ ∃ h ∈ part, domain inv.toSite h = d := by
  rw [mem_runDomains]
  simp only [mem_nodes_narrowed hpart]
  rfl

theorem kept_blank (site : Site) : kept site blank d = [] := if_neg fun h => h.1 rfl

theorem mem_wanted_blank (hdone : ∀ h ∈ done, h ∈ inv.inventoryNodes) :
    h ∈ wanted (narrowed inv.toSite done) blank d ↔ h ∈ done ∧ domain inv.toSite h = d := by
  rw [wanted, kept_blank, List.append_nil, mem_runOwners, mem_nodes_narrowed hdone]
  rfl

theorem mapped (hh : h ∈ inv.inventoryNodes) :
    domain inv.toSite h ∈ mappedDomains inv.toSite := by
  obtain ⟨b, hb, hlower⟩ : ∃ b ∈ unique (inv.inventoryNodes ++ nodes inv.toSite),
      Text.lower b = Text.lower h := Jinja.exists_mem_unique (List.mem_append_left _ hh)
  have hknown : b ∈ inv.inventoryNodes := by
    rcases List.mem_append.mp (Jinja.mem_of_mem_unique hb) with hb | hb
    · exact hb
    · exact inv.wellFormed.run_known b (mem_nodes hb)
  obtain rfl := host_inj hknown hh hlower
  exact List.mem_map_of_mem hb

theorem served_narrowed (hpart : ∀ h ∈ part, h ∈ inv.inventoryNodes)
    (hd : d ∈ runDomains (narrowed inv.toSite part)) :
    Served (narrowed inv.toSite part) zones recs d ↔ Served inv.toSite zones recs d := by
  obtain ⟨h, hh, rfl⟩ := (mem_domains_narrowed hpart).mp hd
  have hmapped : domain inv.toSite h ∈ mappedDomains (narrowed inv.toSite part) :=
    @mapped (inv.narrow part hpart) h (hpart h hh)
  unfold Served cut deleg
  simp only [hmapped, mapped (hpart h hh), true_and]
  rfl

theorem mem_goals_blank {site : Site} : g ∈ goals site blank d ↔
    g = delete (argApex site d) (apex d) "CNAME" ∨
    g = replace site (argApex site d) (apex d) "A" (ips site (wanted site blank d)) ∨
    ips6 site (wanted site blank d) ≠ [] ∧
      g = replace site (argApex site d) (apex d) "AAAA" (ips6 site (wanted site blank d)) ∨
    g = replace site (argWild site d) (wild d) "CNAME" [apex d] ∨
    g = replace site (argMark site d) (mark d) "TXT" (wantMark (wanted site blank d)) := by
  rw [mem_goals, show types blank.wildOther = [] from rfl]
  simp

end Narrowed

section Contents

variable {inv : Inventory} {s s' : Seen} {d : Text} {l l' part part' : List Text}

theorem ips_congr (hl : ∀ h ∈ l, h ∈ inv.inventoryNodes) (hsame : ∀ h, h ∈ l ↔ h ∈ l') :
    ips inv.toSite l = ips inv.toSite l' := by
  have hform : ∀ h ∈ l, HostForm inv.toSite h := fun h hh => inv.host (hl h hh)
  have hform' : ∀ h ∈ l', HostForm inv.toSite h := fun h hh => hform h ((hsame h).mpr hh)
  refine Jinja.eq_of_sorted (Jinja.pairwise_sort_unique _) (Jinja.pairwise_sort_unique _)
    fun ip => ?_
  refine (mem_ips hform).trans (Iff.trans ?_ (mem_ips hform').symm)
  simp only [hsame]

theorem ips6_congr (hl : ∀ h ∈ l, h ∈ inv.inventoryNodes) (hsame : ∀ h, h ∈ l ↔ h ∈ l') :
    ips6 inv.toSite l = ips6 inv.toSite l' := by
  have hform : ∀ h ∈ l, HostForm inv.toSite h := fun h hh => inv.host (hl h hh)
  have hform' : ∀ h ∈ l', HostForm inv.toSite h := fun h hh => hform h ((hsame h).mpr hh)
  refine Jinja.eq_of_sorted (Jinja.pairwise_sort_unique _) (Jinja.pairwise_sort_unique _)
    fun ip => ?_
  refine (mem_ips6 hform).trans (Iff.trans ?_ (mem_ips6 hform').symm)
  simp only [hsame]

theorem wantMark_sorted (hl : ∀ h ∈ l, h ∈ inv.inventoryNodes) (hnodup : l.Nodup) :
    (wantMark l).Pairwise fun a b => Text.lower a < Text.lower b := by
  refine Jinja.pairwise_lt_of_nodup (Jinja.pairwise_sort _) ?_
  refine ((Jinja.sort_perm _).map Text.lower).nodup_iff.mpr ?_
  rw [List.map_map]
  refine hnodup.map_on fun a ha b hb hab => ?_
  exact host_inj (hl a ha) (hl b hb) (lower_ownerMark_inj.mp hab)

theorem wantMark_congr (hl : ∀ h ∈ l, h ∈ inv.inventoryNodes) (hnodup : l.Nodup)
    (hnodup' : l'.Nodup) (hsame : ∀ h, h ∈ l ↔ h ∈ l') : wantMark l = wantMark l' := by
  refine Jinja.eq_of_sorted (wantMark_sorted hl hnodup)
    (wantMark_sorted (fun h hh => hl h ((hsame h).mpr hh)) hnodup') fun c => ?_
  simp only [wantMark, sort, Jinja.mem_sort, List.mem_map, hsame]

theorem goals_congr (hpart : ∀ h ∈ part, h ∈ inv.inventoryNodes)
    (hs : s.wildOther = []) (hs' : s'.wildOther = [])
    (hsame : ∀ h, h ∈ wanted (narrowed inv.toSite part) s d ↔
      h ∈ wanted (narrowed inv.toSite part') s' d) :
    goals (narrowed inv.toSite part) s d = goals (narrowed inv.toSite part') s' d := by
  have hl : ∀ h ∈ wanted (narrowed inv.toSite part) s d, h ∈ inv.inventoryNodes := fun h hh =>
    (mem_wanted (inv.narrow part hpart).wellFormed hh).1
  have hips : ips (narrowed inv.toSite part) _ = ips (narrowed inv.toSite part') _ :=
    ips_congr hl hsame
  have hips6 : ips6 (narrowed inv.toSite part) _ = ips6 (narrowed inv.toSite part') _ :=
    ips6_congr hl hsame
  have hmark := wantMark_congr hl (wanted_nodup _ _ _) (wanted_nodup _ _ _) hsame
  simp only [goals, hs, hs', hips, hips6, hmark]
  rfl

theorem rrset_eq_of_exact {site : Site} {recs : List Record} {name type : Text} {cs : List Text}
    (hsorted : sort (contents (rrset recs name type)) = contents (rrset recs name type))
    (hexact : exact site (rrset recs name type) cs = true) :
    rrset recs name type = cs.map fun c => ⟨name, site.recordTtl, type, c⟩ := by
  have httl := exact_ttl hexact
  rw [exact, Bool.and_eq_true, decide_eq_true_iff, hsorted] at hexact
  rw [← hexact.1, contents, List.map_map]
  conv_lhs => rw [← List.map_id (rrset recs name type)]
  refine List.map_congr_left fun r hr => ?_
  obtain ⟨-, hname, htype⟩ := mem_rrset.mp hr
  rw [Function.comp_apply, ← hname, ← htype, ← httl r hr]
  rfl

end Contents

section Listing

variable {inv : Inventory} {zones first listing done part : List Text} {d name type : Text} {g : Op}

theorem laying_answered (hdone : ∀ h ∈ done, h ∈ inv.inventoryNodes)
    (hd : d ∈ runDomains (narrowed inv.toSite done)) : Answered inv.toSite d := by
  obtain ⟨h, hh, hdomain⟩ := answered_run (inv.narrow done hdone).wellFormed hd
  exact ⟨h, hh, hdomain⟩

theorem rrset_bare {recs : List Record} (hbare : Bare recs d) (hname : OwnName d name type) :
    rrset recs name type = [] := by
  refine List.filter_eq_nil_iff.mpr fun r hr hkey => ?_
  obtain ⟨rfl, rfl⟩ := of_decide_eq_true hkey
  exact hbare r hr hname

theorem laid_at (hdone : ∀ h ∈ done, h ∈ inv.inventoryNodes)
    (hlaid : Laid inv.toSite zones first done listing) (hd : Answered inv.toSite d)
    (hbare : Bare (zoneRecords first) d) (hname : OwnName d name type) :
    rrset (zoneRecords listing) name type = [] ∨
      d ∈ runDomains (narrowed inv.toSite done) ∧
        ∃ g ∈ goals (narrowed inv.toSite done) blank d, key g = (name, type) ∧
          rrset (zoneRecords listing) name type = opRecords inv.nameStyle (zfq inv.toSite) g := by
  by_cases hgoal : ∃ g, Laying inv.toSite zones (zoneRecords first) done g ∧ key g = (name, type)
  · obtain ⟨g, hg, hkey⟩ := hgoal
    obtain ⟨hfqdn, htype⟩ := Prod.mk.inj hkey
    have hwritten := hlaid.written g hg
    obtain ⟨d', hd', -, hg⟩ := hg
    have hown := goal_own_name hg
    rw [hfqdn, htype] at hwritten hown
    obtain rfl := own_name_inj
      (inv.wellFormed.domains_apart (laying_answered hdone hd') hd) hown hname
    exact .inr ⟨hd', g, hg, hkey, hwritten⟩
  · rw [hlaid.rest name type fun g hg hkey => hgoal ⟨g, hg, hkey⟩]
    exact .inl (rrset_bare hbare hname)

theorem laying_type_ne_ns (hg : Laying inv.toSite zones (zoneRecords first) done g) :
    g.type ≠ ("NS" : Text) := by
  obtain ⟨d, -, -, hg⟩ := hg
  rcases mem_goals_blank.mp hg with rfl | rfl | ⟨-, rfl⟩ | rfl | rfl <;>
    simp only [delete, replace] <;> decide

theorem served_laid (hlaid : Laid inv.toSite zones first done listing) :
    Served inv.toSite zones (zoneRecords listing) d ↔
      Served inv.toSite zones (zoneRecords first) d := by
  refine and_congr_right fun _ => deleg_none_congr fun r _ => ?_
  rw [hlaid.rest r "NS" fun g hg hkey => laying_type_ne_ns hg (Prod.mk.inj hkey).2]

theorem key_wild {site : Site} (hg : g ∈ goals site blank d)
    (hname : g.fqdn = wild d) : g.type = ("CNAME" : Text) := by
  rcases mem_goals_blank.mp hg with rfl | rfl | ⟨-, rfl⟩ | rfl | rfl
  · rfl
  · exact absurd hname (apex_ne_wild (.inl rfl))
  · exact absurd hname (apex_ne_wild (.inl rfl))
  · rfl
  · exact absurd hname.symm wild_ne_mark

theorem key_mark {site : Site} (hg : g ∈ goals site blank d)
    (hname : g.fqdn = mark d) :
    g = replace site (argMark site d) (mark d) "TXT" (wantMark (wanted site blank d)) := by
  rcases mem_goals_blank.mp hg with rfl | rfl | ⟨-, rfl⟩ | rfl | rfl
  · exact absurd hname (apex_ne_mark (.inl rfl))
  · exact absurd hname (apex_ne_mark (.inl rfl))
  · exact absurd hname (apex_ne_mark (.inl rfl))
  · exact absurd hname wild_ne_mark
  · rfl

end Listing

section Step

variable {inv : Inventory} {zones allZones first listing done part : List Text} {d h : Text} {g : Op}

section Seen

variable (hdone : ∀ h ∈ done, h ∈ inv.inventoryNodes)
  (hlaid : Laid inv.toSite zones first done listing) (hd : Answered inv.toSite d)
  (hbare : Bare (zoneRecords first) d)

include hdone hlaid hd hbare

theorem wildOther_laid : (seen (zoneRecords listing) d).wildOther = [] := by
  refine others_eq_nil.mpr fun r hr hname => ?_
  have hmem : r ∈ rrset (zoneRecords listing) (wild d) r.type := mem_rrset.mpr ⟨hr, hname, rfl⟩
  rcases laid_at hdone hlaid hd hbare (.inr (.inl rfl)) with hnil | ⟨-, g, hg, hkey, -⟩
  · rw [hnil] at hmem
    cases hmem
  · obtain ⟨hfqdn, htype⟩ := Prod.mk.inj hkey
    rw [← htype]
    exact key_wild hg hfqdn

theorem markOther_laid : (seen (zoneRecords listing) d).markOther = [] := by
  refine others_eq_nil.mpr fun r hr hname => ?_
  have hmem : r ∈ rrset (zoneRecords listing) (mark d) r.type := mem_rrset.mpr ⟨hr, hname, rfl⟩
  rcases laid_at hdone hlaid hd hbare (.inr (.inr rfl)) with hnil | ⟨-, g, hg, hkey, -⟩
  · rw [hnil] at hmem
    cases hmem
  · obtain ⟨hfqdn, htype⟩ := Prod.mk.inj hkey
    rw [← htype, key_mark hg hfqdn]
    rfl

theorem markTxt_laid : (seen (zoneRecords listing) d).markTxt = [] ∨
    contents (seen (zoneRecords listing) d).markTxt =
      wantMark (wanted (narrowed inv.toSite done) blank d) := by
  refine (laid_at hdone hlaid hd hbare (.inr (.inr rfl))).imp_right ?_
  rintro ⟨-, g, hg, hkey, hrs⟩
  obtain rfl := key_mark hg (Prod.mk.inj hkey).1
  refine (congrArg contents hrs).trans ?_
  rw [opRecords, replace, contents, List.map_map]
  exact List.map_id _

theorem unmarked_laid (hserved : Served inv.toSite zones (zoneRecords first) d)
    (hnone : (seen (zoneRecords listing) d).markTxt = []) :
    d ∉ runDomains (narrowed inv.toSite done) ∧
      ∀ name type, OwnName d name type → rrset (zoneRecords listing) name type = [] := by
  have hout : d ∉ runDomains (narrowed inv.toSite done) := by
    intro hd
    have hwritten := hlaid.written _
      ⟨d, hd, hserved, mem_goals_blank.mpr (.inr (.inr (.inr (.inr rfl))))⟩
    have hempty : opRecords inv.nameStyle (zfq inv.toSite)
        (replace (narrowed inv.toSite done) (argMark (narrowed inv.toSite done) d) (mark d) "TXT"
          (wantMark (wanted (narrowed inv.toSite done) blank d))) = [] := hwritten.symm.trans hnone
    exact wantMark_ne_nil (wanted_ne_nil hd) (List.map_eq_nil_iff.mp hempty)
  refine ⟨hout, fun name type hname => ?_⟩
  rcases laid_at hdone hlaid hd hbare hname with hnil | ⟨hd, -⟩
  · exact hnil
  · exact absurd hd hout

theorem clear_laid (hserved : Served inv.toSite zones (zoneRecords first) d) :
    Clear (narrowed inv.toSite part) (seen (zoneRecords listing) d) d := by
  refine ⟨markOther_laid hdone hlaid hd hbare, fun hmark => ?_, fun hnone => ?_⟩
  · have hcontents := (markTxt_laid hdone hlaid hd hbare).resolve_left hmark
    exact ⟨wellformed_of_marks (inv.narrow done hdone).wellFormed hcontents,
      @known_of_marks (inv.narrow done hdone) _ _ _ hcontents⟩
  · obtain ⟨-, hempty⟩ := unmarked_laid hdone hlaid hd hbare hserved hnone
    refine why_eq_nil.mpr ⟨?_, .inl ?_, .inr (.inl ?_), ?_, .inl ?_⟩
    · exact hempty (apex d) "CNAME" (.inl ⟨rfl, .inr (.inr rfl)⟩)
    · exact hempty (apex d) "A" (.inl ⟨rfl, .inl rfl⟩)
    · exact hempty (apex d) "AAAA" (.inl ⟨rfl, .inr (.inl rfl)⟩)
    · exact wildOther_laid hdone hlaid hd hbare
    · exact hempty (wild d) "CNAME" (.inr (.inl rfl))

theorem mem_wanted_laid (hpart : ∀ h ∈ part, h ∈ inv.inventoryNodes)
    (hserved : Served inv.toSite zones (zoneRecords first) d) :
    h ∈ wanted (narrowed inv.toSite part) (seen (zoneRecords listing) d) d ↔
      (h ∈ done ∨ h ∈ part) ∧ domain inv.toSite h = d := by
  have hrun : h ∈ runOwners (narrowed inv.toSite part) d ↔
      h ∈ part ∧ domain inv.toSite h = d := by
    rw [mem_runOwners, mem_nodes_narrowed hpart]
    rfl
  rw [wanted, List.mem_append, hrun]
  by_cases hmark : (seen (zoneRecords listing) d).markTxt = []
  · obtain ⟨hout, -⟩ := unmarked_laid hdone hlaid hd hbare hserved hmark
    have hnone : kept (narrowed inv.toSite part) (seen (zoneRecords listing) d) d = [] :=
      if_neg fun h => h.1 hmark
    rw [hnone]
    constructor
    · rintro (⟨hh, hdomain⟩ | hh)
      · exact ⟨.inr hh, hdomain⟩
      · cases hh
    · rintro ⟨hh | hh, hdomain⟩
      · exact absurd ((mem_domains_narrowed hdone).mpr ⟨h, hh, hdomain⟩) hout
      · exact .inl ⟨hh, hdomain⟩
  · have hcontents := (markTxt_laid hdone hlaid hd hbare).resolve_left hmark
    have hform := wellformed_of_marks (inv.narrow done hdone).wellFormed hcontents
    have hknown := @known_of_marks (inv.narrow done hdone) _ _ _ hcontents
    have howners : h ∈ mOwners (seen (zoneRecords listing) d) ↔
        h ∈ done ∧ domain inv.toSite h = d :=
      (@mOwners_of_marks (inv.narrow done hdone) _ _ _ hcontents h).trans (mem_wanted_blank hdone)
    have hkept : kept (narrowed inv.toSite part) (seen (zoneRecords listing) d) d =
        (mOwners (seen (zoneRecords listing) d)).filter fun h =>
          h ∉ nodes (narrowed inv.toSite part) ∧ domain inv.toSite h = d :=
      if_pos ⟨hmark, hform, hknown⟩
    rw [hkept, List.mem_filter, howners, decide_eq_true_iff, mem_nodes_narrowed hpart]
    tauto

theorem goals_laid (hpart : ∀ h ∈ part, h ∈ inv.inventoryNodes)
    (hserved : Served inv.toSite zones (zoneRecords first) d) :
    goals (narrowed inv.toSite part) (seen (zoneRecords listing) d) d =
      goals (narrowed inv.toSite (done ++ part)) blank d := by
  refine goals_congr hpart (wildOther_laid hdone hlaid hd hbare) rfl fun h => ?_
  rw [mem_wanted_laid hdone hlaid hd hbare hpart hserved,
    mem_wanted_blank (List.forall_mem_append.mpr ⟨hdone, hpart⟩), List.mem_append]

theorem contents_laid {name type : Text} (hname : OwnName d name type) :
    sort (contents (rrset (zoneRecords listing) name type)) =
      contents (rrset (zoneRecords listing) name type) := by
  rcases laid_at hdone hlaid hd hbare hname with hnil | ⟨hrun, g, hg, -, hrs⟩
  · rw [hnil]
    rfl
  · rw [hrs]
    cases hop : g.op with
    | delete =>
      simp only [opRecords, hop]
      rfl
    | replace =>
      have hsorted := (replace_goal (inv.narrow done hdone).wellFormed hrun hg hop).1
      have hmap : contents (opRecords inv.nameStyle (zfq inv.toSite) g) = g.contents := by
        simp only [opRecords, hop, contents, List.map_map]
        exact List.map_id _
      rw [hmap, hsorted]

end Seen

theorem opRecords_replace {site : Site} (happly : Applicable site.nameStyle (zfq site) g)
    (hop : g.op = .replace) (httl : g.ttl = some site.recordTtl) :
    opRecords site.nameStyle (zfq site) g =
      g.contents.map fun c => ⟨g.fqdn, site.recordTtl, g.type, c⟩ := by
  rw [opRecords, hop, happly.name, httl]
  rfl

theorem written_of_met {site : Site} (happly : Applicable site.nameStyle (zfq site) g)
    (httl : g.op = .replace → g.ttl = some site.recordTtl)
    (hsorted : sort (contents (rrset (zoneRecords listing) g.fqdn g.type)) =
      contents (rrset (zoneRecords listing) g.fqdn g.type)) (hmet : met site g listing = true) :
    rrset (zoneRecords listing) g.fqdn g.type = opRecords site.nameStyle (zfq site) g := by
  rw [met] at hmet
  cases hop : g.op with
  | delete =>
    simp only [hop] at hmet
    simp only [opRecords, hop]
    exact List.isEmpty_iff.mp hmet
  | replace =>
    simp only [hop] at hmet
    rw [opRecords_replace happly hop (httl hop)]
    exact rrset_eq_of_exact hsorted hmet

theorem goal_ttl {site : Site} {s : Seen} (hg : g ∈ goals site s d) (hop : g.op = .replace) :
    g.ttl = some site.recordTtl := by
  rcases mem_goals.mp hg with rfl | rfl | ⟨-, rfl⟩ | ⟨t, -, rfl⟩ | rfl | rfl
  all_goals first | rfl | cases hop

theorem host_blank (hdone : ∀ h ∈ done, h ∈ inv.inventoryNodes)
    (hh : h ∈ wanted (narrowed inv.toSite done) blank d) :
    HostForm (narrowed inv.toSite done) h :=
  (inv.narrow done hdone).host (hdone h ((mem_wanted_blank hdone).mp hh).1)

theorem applicable_blank (hdone : ∀ h ∈ done, h ∈ inv.inventoryNodes)
    (hd : Answered inv.toSite d) (hzone : inZone inv.toSite d = true)
    (hg : g ∈ goals (narrowed inv.toSite done) blank d) :
    Applicable inv.nameStyle (zfq inv.toSite) g := by
  have happly : Applicable (narrowed inv.toSite done).nameStyle (zfq (narrowed inv.toSite done)) g :=
    goal_applicable (inv.wellFormed.legible hd) (fun _ hh => host_blank hdone hh) hzone hg
  exact happly

theorem goals_keys_mono (hdone : ∀ h ∈ done, h ∈ inv.inventoryNodes)
    (hpart : ∀ h ∈ part, h ∈ inv.inventoryNodes)
    (hg : g ∈ goals (narrowed inv.toSite done) blank d) :
    ∃ g' ∈ goals (narrowed inv.toSite (done ++ part)) blank d, key g' = key g := by
  have hall := List.forall_mem_append.mpr ⟨hdone, hpart⟩
  rcases mem_goals_blank.mp hg with rfl | rfl | ⟨hsix, rfl⟩ | rfl | rfl
  · exact ⟨_, mem_goals_blank.mpr (.inl rfl), rfl⟩
  · exact ⟨_, mem_goals_blank.mpr (.inr (.inl rfl)), rfl⟩
  · refine ⟨_, mem_goals_blank.mpr (.inr (.inr (.inl ⟨?_, rfl⟩))), rfl⟩
    obtain ⟨ip, hip⟩ := List.exists_mem_of_ne_nil _ hsix
    obtain ⟨hne, h, hh, hv6⟩ := (mem_ips6 fun _ hh => host_blank hdone hh).mp hip
    refine List.ne_nil_of_mem ((mem_ips6 fun _ hh => host_blank hall hh).mpr ⟨hne, h, ?_, hv6⟩)
    obtain ⟨hh, hdomain⟩ := (mem_wanted_blank hdone).mp hh
    exact (mem_wanted_blank hall).mpr ⟨List.mem_append_left _ hh, hdomain⟩
  · exact ⟨_, mem_goals_blank.mpr (.inr (.inr (.inr (.inl rfl)))), rfl⟩
  · exact ⟨_, mem_goals_blank.mpr (.inr (.inr (.inr (.inr rfl)))), rfl⟩

section Run

variable (hdone : ∀ h ∈ done, h ∈ inv.inventoryNodes) (hpart : ∀ h ∈ part, h ∈ inv.inventoryNodes)
  (hbare : ∀ h ∈ done ++ part, Bare (zoneRecords first) (domain inv.toSite h))
  (hlaid : Laid inv.toSite (zoneNames allZones) first done listing)

include hdone hpart hbare hlaid

theorem laying_of_run_goal (hg : g ∈ runGoals (narrowed inv.toSite part) (zoneNames allZones)
    (zoneRecords listing)) :
    Laying inv.toSite (zoneNames allZones) (zoneRecords first) (done ++ part) g := by
  obtain ⟨d, hd, hserved, hg⟩ := mem_runGoals.mp hg
  have hfirst := (served_laid hlaid).mp ((served_narrowed hpart hd).mp hserved)
  have hanswered := laying_answered hpart hd
  obtain ⟨h, hh, rfl⟩ := (mem_domains_narrowed hpart).mp hd
  have hbare := hbare h (List.mem_append_right _ hh)
  rw [goals_laid hdone hlaid hanswered hbare hpart hfirst] at hg
  refine ⟨_, ?_, hfirst, hg⟩
  exact (mem_domains_narrowed (List.forall_mem_append.mpr ⟨hdone, hpart⟩)).mpr
    ⟨h, List.mem_append_right _ hh, rfl⟩

variable (hzone : ∀ h ∈ inv.inventoryNodes, inZone inv.toSite (domain inv.toSite h) = true)

include hzone

theorem undisputed_laid : Undisputed (inv.narrow part hpart).toSite (zoneNames allZones)
    (zoneRecords listing) := by
  intro d hd hserved
  have hfirst := (served_laid hlaid).mp ((served_narrowed hpart hd).mp hserved)
  have hanswered := laying_answered hpart hd
  obtain ⟨h, hh, rfl⟩ := (mem_domains_narrowed hpart).mp hd
  exact ⟨hzone h (hpart h hh),
    clear_laid hdone hlaid hanswered (hbare h (List.mem_append_right _ hh)) hfirst⟩

theorem between_runOnce : Between (narrowed inv.toSite part) (zoneNames allZones) listing
    (runOnce (narrowed inv.toSite part) allZones listing) :=
  between_applied (inv.narrow part hpart).wellFormed
    (undisputed_laid hdone hpart hbare hlaid hzone) fun _ hg => hg

theorem written_run (hin : d ∈ runDomains (narrowed inv.toSite part))
    (hserved : Served inv.toSite (zoneNames allZones) (zoneRecords first) d)
    (hg : g ∈ goals (narrowed inv.toSite (done ++ part)) blank d) :
    rrset (zoneRecords (runOnce (narrowed inv.toSite part) allZones listing)) g.fqdn g.type =
      opRecords inv.nameStyle (zfq inv.toSite) g := by
  have hall := List.forall_mem_append.mpr ⟨hdone, hpart⟩
  have hanswered := laying_answered hpart hin
  obtain ⟨h, hh, hdomain⟩ := (mem_domains_narrowed hpart).mp hin
  have hnow : Served (narrowed inv.toSite part) (zoneNames allZones) (zoneRecords listing) d :=
    (served_narrowed hpart hin).mpr ((served_laid hlaid).mpr hserved)
  have hfirst : Bare (zoneRecords first) d := hdomain ▸ hbare h (List.mem_append_right _ hh)
  have hwithin : inZone inv.toSite d = true := hdomain ▸ hzone h (hpart h hh)
  have hgoal := hg
  rw [← goals_laid hdone hlaid hanswered hfirst hpart hserved] at hgoal
  have hrun : g ∈ runGoals (narrowed inv.toSite part) (zoneNames allZones)
      (zoneRecords listing) := mem_runGoals.mpr ⟨d, hin, hnow, hgoal⟩
  have hmet : met inv.toSite g (runOnce (narrowed inv.toSite part) allZones listing) = true :=
    met_applied (inv.narrow part hpart).wellFormed
      (undisputed_laid hdone hpart hbare hlaid hzone) hrun
  have httl := goal_ttl hg
  rcases between_runOnce hdone hpart hbare hlaid hzone g.fqdn g.type with
    hsame | ⟨g', hg', hname, htype, hrs⟩
  · refine written_of_met (applicable_blank hall hanswered hwithin hg) httl ?_ hmet
    rw [hsame]
    exact contents_laid hdone hlaid hanswered hfirst (goal_own_name hg)
  · rw [key_inj (inv.narrow part hpart).wellFormed hg' hrun (Prod.ext hname htype)] at hrs
    exact hrs

/-- A domain no node of this run answers on keeps the goals of the earlier ones. -/
theorem kept_run (hd : d ∈ runDomains (narrowed inv.toSite (done ++ part)))
    (hout : d ∉ runDomains (narrowed inv.toSite part))
    (hserved : Served inv.toSite (zoneNames allZones) (zoneRecords first) d)
    (hg : g ∈ goals (narrowed inv.toSite (done ++ part)) blank d) :
    rrset (zoneRecords (runOnce (narrowed inv.toSite part) allZones listing)) g.fqdn g.type =
      opRecords inv.nameStyle (zfq inv.toSite) g := by
  have hall := List.forall_mem_append.mpr ⟨hdone, hpart⟩
  have hanswered := laying_answered hall hd
  have hsame : goals (narrowed inv.toSite done) blank d =
      goals (narrowed inv.toSite (done ++ part)) blank d := by
    refine goals_congr hdone rfl rfl fun h => ?_
    rw [mem_wanted_blank hdone, mem_wanted_blank hall, List.mem_append]
    refine ⟨fun h => ⟨.inl h.1, h.2⟩, ?_⟩
    rintro ⟨hh | hh, hdomain⟩
    · exact ⟨hh, hdomain⟩
    · exact absurd ((mem_domains_narrowed hpart).mpr ⟨_, hh, hdomain⟩) hout
  have hbefore : d ∈ runDomains (narrowed inv.toSite done) := by
    obtain ⟨h, hh, hdomain⟩ := (mem_domains_narrowed hall).mp hd
    refine (mem_domains_narrowed hdone).mpr ⟨h, ?_, hdomain⟩
    rcases List.mem_append.mp hh with hh | hh
    · exact hh
    · exact absurd ((mem_domains_narrowed hpart).mpr ⟨h, hh, hdomain⟩) hout
  rcases between_runOnce hdone hpart hbare hlaid hzone g.fqdn g.type with
    hkeep | ⟨g', hg', hname, htype, -⟩
  · rw [hkeep]
    exact hlaid.written g ⟨d, hbefore, hserved, hsame ▸ hg⟩
  · obtain ⟨d', hd', -, hg'⟩ := mem_runGoals.mp hg'
    have hown := goal_own_name hg'
    rw [hname, htype] at hown
    obtain rfl := own_name_inj (inv.wellFormed.domains_apart (laying_answered hpart hd') hanswered)
      hown (goal_own_name hg)
    exact absurd hd' hout

/-- A run after the runs over `done` leaves what one run over both leaves. -/
theorem laid_step :
    (lbPlan (narrowed inv.toSite part) allZones listing).conflicts = [] ∧
      Laid inv.toSite (zoneNames allZones) first (done ++ part)
        (runOnce (narrowed inv.toSite part) allZones listing) := by
  have hfree := undisputed_laid hdone hpart hbare hlaid hzone
  refine ⟨@conflicts_between (inv.narrow part hpart) _ _ _ hfree (between_self _ _ _), ?_, ?_⟩
  · rintro g ⟨d, hd, hserved, hg⟩
    by_cases hin : d ∈ runDomains (narrowed inv.toSite part)
    · exact written_run hdone hpart hbare hlaid hzone hin hserved hg
    · exact kept_run hdone hpart hbare hlaid hzone hd hin hserved hg
  · intro name type hnone
    have hrest : rrset (zoneRecords listing) name type = rrset (zoneRecords first) name type := by
      refine hlaid.rest name type ?_
      rintro g ⟨d, hd, hserved, hg⟩ hkey
      obtain ⟨g', hg', hsame⟩ := goals_keys_mono hdone hpart hg
      obtain ⟨h, hh, hdomain⟩ := (mem_domains_narrowed hdone).mp hd
      refine hnone g' ⟨d, ?_, hserved, hg'⟩ (hsame.trans hkey)
      exact (mem_domains_narrowed (List.forall_mem_append.mpr ⟨hdone, hpart⟩)).mpr
        ⟨h, List.mem_append_left _ hh, hdomain⟩
    rcases between_runOnce hdone hpart hbare hlaid hzone name type with
      hkeep | ⟨g, hg, hname, htype, -⟩
    · rw [hkeep, hrest]
    · exact absurd (Prod.ext hname htype)
        (hnone g (laying_of_run_goal hdone hpart hbare hlaid hg))

end Run

end Step

section Runs

variable {inv : Inventory} {zones allZones first listing listing' done done' : List Text}
  {parts : List (List Text)} {g : Op}

theorem laid_nil (site : Site) (zones first : List Text) : Laid site zones first [] first := by
  refine ⟨?_, fun _ _ _ => rfl⟩
  rintro g ⟨d, hd, -⟩
  cases hd

theorem laying_congr (hdone : ∀ h ∈ done, h ∈ inv.inventoryNodes)
    (hsame : ∀ h, h ∈ done ↔ h ∈ done') {recs : List Record}
    (hg : Laying inv.toSite zones recs done g) : Laying inv.toSite zones recs done' g := by
  have hdone' : ∀ h ∈ done', h ∈ inv.inventoryNodes := fun h hh => hdone h ((hsame h).mpr hh)
  obtain ⟨d, hd, hserved, hg⟩ := hg
  obtain ⟨h, hh, hdomain⟩ := (mem_domains_narrowed hdone).mp hd
  refine ⟨d, (mem_domains_narrowed hdone').mpr ⟨h, (hsame h).mp hh, hdomain⟩, hserved, ?_⟩
  have hgoals : goals (narrowed inv.toSite done) blank d =
      goals (narrowed inv.toSite done') blank d := by
    refine goals_congr hdone rfl rfl fun h => ?_
    rw [mem_wanted_blank hdone, mem_wanted_blank hdone', hsame]
  rwa [← hgoals]

/-- The nodes the runs were made for determine every rrset. -/
theorem laid_unique (hdone : ∀ h ∈ done, h ∈ inv.inventoryNodes)
    (hsame : ∀ h, h ∈ done ↔ h ∈ done') (hlaid : Laid inv.toSite zones first done listing)
    (hlaid' : Laid inv.toSite zones first done' listing') (name type : Text) :
    rrset (zoneRecords listing) name type = rrset (zoneRecords listing') name type := by
  by_cases hgoal : ∃ g, Laying inv.toSite zones (zoneRecords first) done g ∧ key g = (name, type)
  · obtain ⟨g, hg, hkey⟩ := hgoal
    obtain ⟨rfl, rfl⟩ := Prod.mk.inj hkey
    rw [hlaid.written g hg, hlaid'.written g (laying_congr hdone hsame hg)]
  · have hdone' : ∀ h ∈ done', h ∈ inv.inventoryNodes := fun h hh => hdone h ((hsame h).mpr hh)
    rw [hlaid.rest name type fun g hg hkey => hgoal ⟨g, hg, hkey⟩,
      hlaid'.rest name type fun g hg hkey =>
        hgoal ⟨g, laying_congr hdone' (fun h => (hsame h).symm) hg, hkey⟩]

theorem runs_append (site : Site) (a b : List (List Text)) (listing : List Text) :
    runs site allZones (a ++ b) listing =
      runs site allZones b (runs site allZones a listing) := List.foldl_append

theorem laid_runs
    (hzone : ∀ h ∈ inv.inventoryNodes, inZone inv.toSite (domain inv.toSite h) = true)
    (hparts : ∀ h ∈ parts.flatten, h ∈ inv.inventoryNodes)
    (hbare : ∀ h ∈ parts.flatten, Bare (zoneRecords first) (domain inv.toSite h)) :
    Laid inv.toSite (zoneNames allZones) first parts.flatten
      (runs inv.toSite allZones parts first) := by
  induction parts using List.reverseRecOn with
  | nil => exact laid_nil _ _ _
  | append_singleton parts part ih =>
    rw [List.flatten_append, List.flatten_singleton] at hparts hbare ⊢
    obtain ⟨hdone, hpart⟩ := List.forall_mem_append.mp hparts
    have hlaid := ih hdone fun h hh => hbare h (List.mem_append_left _ hh)
    rw [runs_append]
    exact (laid_step hdone hpart hbare hlaid hzone).2

end Runs

/-- Where node names differ in more than case, narrowed runs over bare names that
together cover the nodes of a run leave the records that one run leaves. -/
theorem split_runs (site : Site) (hadmitted : Admitted site)
    (hdistinct : (site.inventoryNodes.map Text.lower).Nodup) (allZones listing : List Text)
    (hbare : ∀ d ∈ runDomains site, Bare (zoneRecords listing) d) (parts : List (List Text))
    (hparts : ∀ h, h ∈ site.recordsNodes ↔ ∃ part ∈ parts, h ∈ part) :
    SplitSafe site allZones listing parts := by
  let inv := hadmitted.inventory hdistinct
  have hflat : ∀ h, h ∈ parts.flatten ↔ h ∈ site.recordsNodes := fun h => by
    rw [List.mem_flatten, hparts]
  have hknown : ∀ h ∈ parts.flatten, h ∈ inv.inventoryNodes := fun h hh =>
    hadmitted.run_known h ((hflat h).mp hh)
  have hclean : ∀ h ∈ parts.flatten, Bare (zoneRecords listing) (domain inv.toSite h) := by
    intro h hh
    refine hbare _ (mem_runDomains.mpr ⟨h, ?_, rfl⟩)
    exact (@mem_nodes_iff inv h).mpr ((hflat h).mp hh)
  have hwhole := @laid_step inv allZones listing listing [] site.recordsNodes
    (fun _ hh => by cases hh) hadmitted.run_known
    (fun h hh => hclean h ((hflat h).mpr hh)) (laid_nil _ _ _) hadmitted.inZone
  refine ⟨?_, hwhole.1, ?_⟩
  · rintro done part rest rfl
    rw [List.flatten_append, List.flatten_cons] at hknown hclean
    obtain ⟨hdone, hrest⟩ := List.forall_mem_append.mp hknown
    have hlaid := @laid_runs inv allZones listing done hadmitted.inZone hdone
      fun h hh => hclean h (List.mem_append_left _ hh)
    refine (@laid_step inv allZones listing _ done.flatten part hdone
      (fun h hh => hrest h (List.mem_append_left _ hh)) (fun h hh => hclean h ?_) hlaid
      hadmitted.inZone).1
    rcases List.mem_append.mp hh with hh | hh
    · exact List.mem_append_left _ hh
    · exact List.mem_append_right _ (List.mem_append_left _ hh)
  · exact @laid_unique inv _ _ _ _ _ _ hknown hflat (laid_runs hadmitted.inZone hknown hclean) hwhole.2

/-- Two azs on one domain, the second one with an IPv6 address too. -/
def twoAzs (name name' : Text) : Site where
  csAppZone := "ex.test"
  recordTtl := 300
  nameStyle := .relative
  inventoryNodes := [name, name']
  hostvars h :=
    if h = name then ⟨"lb.ex.test", "192.0.2.1", []⟩
    else ⟨"lb.ex.test", "192.0.2.2", "2001:db8::2"⟩
  recordsNodes := [name, name']

theorem bare_nil (d : Text) : Bare (zoneRecords []) d := fun r hr => by cases hr

theorem mem_one_each (name name' h : Text) :
    h ∈ (twoAzs name name').recordsNodes ↔ ∃ part ∈ [[name'], [name]], h ∈ part := by
  change h ∈ [name, name'] ↔ _
  simp only [List.mem_cons, List.not_mem_nil, or_false, exists_eq_or_imp, exists_eq_left]
  exact or_comm

/-- The second az is written first; its addresses stay when the first one joins. -/
theorem split_runs_two_azs :
    (lbPlan (narrowed (twoAzs "n1" "n2") ["n1"]) ["ex.test"]
      (runs (twoAzs "n1" "n2") ["ex.test"] [["n2"]] [])).conflicts = [] ∧
    ∀ name type,
      rrset (zoneRecords (runs (twoAzs "n1" "n2") ["ex.test"] [["n2"], ["n1"]] [])) name type =
        rrset (zoneRecords (runOnce (twoAzs "n1" "n2") ["ex.test"] [])) name type := by
  have h := split_runs (twoAzs "n1" "n2") (by decide) (by decide) ["ex.test"] []
    (fun d _ => bare_nil d) _ (mem_one_each "n1" "n2")
  exact ⟨h.no_conflict [["n2"]] ["n1"] [] rfl, h.same⟩

theorem twins_lose_an_address :
    Admitted (twoAzs "n1" "N1") ∧
    (∀ d ∈ runDomains (twoAzs "n1" "N1"), Bare (zoneRecords []) d) ∧
    (∀ h, h ∈ (twoAzs "n1" "N1").recordsNodes ↔
      ∃ part ∈ ([["N1"], ["n1"]] : List (List Text)), h ∈ part) ∧
    ¬ SplitSafe (twoAzs "n1" "N1") ["ex.test"] [] [["N1"], ["n1"]] := by
  refine ⟨by decide, fun d _ => bare_nil d, mem_one_each "n1" "N1", fun h => ?_⟩
  have hsame := h.same "lb.ex.test." "A"
  revert hsame
  decide

end Provisioner.Powerdns
