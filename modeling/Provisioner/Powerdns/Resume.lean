import Provisioner.Powerdns.Goals

/-!
# Plans resume after any cut

A run that stops between two operations leaves every rrset either as the plan
found it or as a goal wants it. Planning such a zone lists the open goals.
-/

namespace Provisioner.Powerdns

def applyOps (site : Site) : List Op → List Text → List Text :=
  Converge.runAll (pdnsutil site.nameStyle (zfq site))

instance (site : Site) (zones : List Text) (recs : List Record) (d : Text) :
    Decidable (Served site zones recs d) := inferInstanceAs (Decidable (_ ∧ _))

def runGoals (site : Site) (zones : List Text) (recs : List Record) : List Op :=
  ((runDomains site).filter fun d => Served site zones recs d).flatMap fun d =>
    goals site (seen recs d) d

/-- Every rrset is as in `first`, or as a goal of the plan for `first` wants it. -/
def Between (site : Site) (zones : List Text) (first : List Text) (listing : List Text) : Prop :=
  ∀ name type, rrset (zoneRecords listing) name type = rrset (zoneRecords first) name type ∨
    ∃ g ∈ runGoals site zones (zoneRecords first), g.fqdn = name ∧ g.type = type ∧
      rrset (zoneRecords listing) name type = opRecords site.nameStyle (zfq site) g

def Undisputed (site : Site) (zones : List Text) (recs : List Record) : Prop :=
  ∀ d ∈ runDomains site, Served site zones recs d →
    inZone site d = true ∧ Clear site (seen recs d) d

section Independence

variable {site : Site} {zones first listing : List Text} {g : Op}

theorem mem_runGoals {recs : List Record} : g ∈ runGoals site zones recs ↔
    ∃ d ∈ runDomains site, Served site zones recs d ∧ g ∈ goals site (seen recs d) d := by
  simp only [runGoals, List.mem_flatMap, List.mem_filter, decide_eq_true_eq, and_assoc]

theorem runDomains_nodup (site : Site) : (runDomains site).Nodup :=
  nodup_of_sorted (Jinja.pairwise_sort_unique _)

theorem goal_name_inj {s s' : Seen} {d d' : Text} {g g' : Op} (hapart : Apart d d')
    (hg : g ∈ goals site s d) (hg' : g' ∈ goals site s' d') (hname : g.fqdn = g'.fqdn) : d = d' :=
  own_name_inj hapart (hname ▸ goal_own_name hg) (goal_own_name hg')

theorem runGoals_keys_nodup (hform : WellFormed site) :
    ((runGoals site zones (zoneRecords first)).map key).Nodup := by
  rw [runGoals, List.map_flatMap, List.nodup_flatMap]
  constructor
  · intro d _
    exact goals_keys_nodup site first d
  · refine List.Pairwise.imp_of_mem ?_ ((runDomains_nodup site).filter _)
    intro d d' hd hd' hne k hk hk'
    obtain ⟨g, hg, rfl⟩ := List.mem_map.mp hk
    obtain ⟨g', hg', hkey⟩ := List.mem_map.mp hk'
    have hapart := hform.domains_apart (answered_run hform (List.mem_filter.mp hd).1)
      (answered_run hform (List.mem_filter.mp hd').1)
    exact hne (goal_name_inj hapart hg hg' (congrArg Prod.fst hkey).symm)

theorem key_inj (hform : WellFormed site) {g h : Op}
    (hg : g ∈ runGoals site zones (zoneRecords first))
    (hh : h ∈ runGoals site zones (zoneRecords first)) (hkey : key g = key h) : g = h :=
  List.inj_on_of_nodup_map (runGoals_keys_nodup hform) hg hh hkey

theorem sort_singleton (t : Text) : sort [t] = [t] :=
  List.Pairwise.insertionSort_eq (List.pairwise_singleton _ _)

theorem ips_ne_nil {owners : List Text} (howners : ∀ h ∈ owners, HostForm site h)
    (hne : owners ≠ []) : ips site owners ≠ [] := by
  obtain ⟨h, hh⟩ := List.exists_mem_of_ne_nil _ hne
  exact List.ne_nil_of_mem ((mem_ips howners).mpr ⟨h, hh, rfl⟩)

theorem wantMark_ne_nil {owners : List Text} (hne : owners ≠ []) : wantMark owners ≠ [] := by
  obtain ⟨h, hh⟩ := List.exists_mem_of_ne_nil _ hne
  exact List.ne_nil_of_mem (Jinja.mem_sort.mpr (List.mem_map_of_mem hh))

theorem replace_goal (hform : WellFormed site) {s : Seen} {d : Text} (hd : d ∈ runDomains site)
    (hg : g ∈ goals site s d) (hop : g.op = .replace) :
    sort g.contents = g.contents ∧ g.contents ≠ [] ∧ g.ttl = some site.recordTtl := by
  have howners : ∀ h ∈ wanted site s d, HostForm site h := fun _ hh => wanted_form hform hh
  have hne : wanted site s d ≠ [] := wanted_ne_nil hd
  rcases mem_goals.mp hg with rfl | rfl | ⟨hsix, rfl⟩ | ⟨t, -, rfl⟩ | rfl | rfl
  · cases hop
  · exact ⟨Jinja.sort_sort _, ips_ne_nil howners hne, rfl⟩
  · exact ⟨Jinja.sort_sort _, hsix, rfl⟩
  · cases hop
  · exact ⟨sort_singleton _, List.cons_ne_nil _ _, rfl⟩
  · exact ⟨Jinja.sort_sort _, wantMark_ne_nil hne, rfl⟩

theorem exact_map {name type : Text} {cs : List Text} (hsorted : sort cs = cs)
    (hne : cs ≠ []) :
    exact site (cs.map fun c => ⟨name, site.recordTtl, type, c⟩) cs = true := by
  have hcontents : contents (cs.map fun c => ⟨name, site.recordTtl, type, c⟩) = cs := by
    rw [contents, List.map_map]
    exact List.map_id _
  rw [exact, hcontents, hsorted, decide_eq_true rfl, Bool.true_and, decide_eq_true_iff]
  refine Jinja.unique_eq_singleton ?_ ?_
  · simpa using hne
  · intro n hn
    simp only [List.map_map, List.mem_map, Function.comp_apply] at hn
    obtain ⟨_, -, rfl⟩ := hn
    rfl

theorem met_opRecords (hform : WellFormed site) {s : Seen} {d : Text} (hd : d ∈ runDomains site)
    (hg : g ∈ goals site s d)
    (hrs : rrset (zoneRecords listing) g.fqdn g.type =
      opRecords site.nameStyle (zfq site) g) : met site g listing = true := by
  rw [met, hrs]
  cases hop : g.op with
  | delete =>
    simp only [opRecords, hop]
    rfl
  | replace =>
    obtain ⟨hsorted, hne, httl⟩ := replace_goal hform hd hg hop
    simp only [opRecords, hop, httl, Option.getD_some]
    exact exact_map hsorted hne

theorem independent (hform : WellFormed site)
    (hfree : Undisputed site zones (zoneRecords first)) :
    Converge.Independent (met site) (pdnsutil site.nameStyle (zfq site))
      (runGoals site zones (zoneRecords first)) (Between site zones first) := by
  have happly : ∀ g ∈ runGoals site zones (zoneRecords first),
      Applicable site.nameStyle (zfq site) g := by
    intro g hg
    obtain ⟨d, hd, hserved, hg⟩ := mem_runGoals.mp hg
    exact goal_applicable (hform.legible (answered_run hform hd)) (fun h hh => wanted_form hform hh)
      (hfree d hd hserved).1 hg
  refine ⟨.of_map _ (runGoals_keys_nodup hform), ?_, ?_, ?_⟩
  · intro listing hbetween g hg name type
    by_cases hkey : g.fqdn = name ∧ g.type = type
    · obtain ⟨rfl, rfl⟩ := hkey
      exact .inr ⟨g, hg, rfl, rfl, rrset_pdnsutil (happly g hg)⟩
    · rw [rrset_pdnsutil_of_ne (happly g hg) hkey]
      exact hbetween name type
  · intro listing _ g hg
    obtain ⟨d, hd, -, hgoal⟩ := mem_runGoals.mp hg
    exact met_opRecords hform hd hgoal (rrset_pdnsutil (happly g hg))
  · intro listing _ g hg h hh hne
    have hkey : ¬ (g.fqdn = h.fqdn ∧ g.type = h.type) := fun hsame =>
      hne (key_inj hform hh hg (Prod.ext hsame.1.symm hsame.2.symm))
    rw [met, met, rrset_pdnsutil_of_ne (happly g hg) hkey]

end Independence

section Delegation

variable {site : Site} {recs : List Record} {d : Text}

/-- A delegation point at or above `d`. -/
def Covers (d r : Text) : Prop := apex d = r ∨ Text.endswith (apex d) ("." ++ r) = true

theorem outer_eq_nil (hne : ∀ r ∈ nsCuts site recs, r ≠ []) :
    outer site recs d = [] ↔ ∀ r ∈ nsCuts site recs, ¬ Covers d r := by
  have hfold : ∀ (l : List Text), (∀ r ∈ l, r ≠ []) → ∀ best : Text,
      (l.foldl (fun best r =>
        if (apex d = r ∨ Text.endswith (apex d) ("." ++ r)) ∧
          (best = [] ∨ r.length < best.length) then r else best) best = [] ↔
      best = [] ∧ ∀ r ∈ l, ¬ Covers d r) := by
    intro l hl
    induction l with
    | nil => simp
    | cons r l ih =>
      rw [List.forall_mem_cons] at hl
      intro best
      rw [List.foldl_cons, ih hl.2, List.forall_mem_cons]
      by_cases htake : (apex d = r ∨ Text.endswith (apex d) ("." ++ r)) ∧
          (best = [] ∨ r.length < best.length)
      · rw [if_pos htake]
        have hcovers : Covers d r := htake.1
        simp [hl.1, hcovers]
      · rw [if_neg htake]
        constructor
        · rintro ⟨rfl, hrest⟩
          refine ⟨rfl, fun hcovers => htake ⟨hcovers, .inl rfl⟩, hrest⟩
        · rintro ⟨rfl, -, hrest⟩
          exact ⟨rfl, hrest⟩
  rw [outer, hfold _ hne]
  simp

theorem mem_nsCuts {listing : List Text} {r : Text} :
    r ∈ nsCuts site (zoneRecords listing) ↔
      r ≠ zfq site ∧ rrset (zoneRecords listing) r "NS" ≠ [] := by
  have hlower : ∀ t ∈ ((((zoneRecords listing).filter fun r => r.type = ("NS" : Text)).map
      Record.name).filter (· ≠ zfq site)), Text.lower t = t := by
    intro t ht
    obtain ⟨r, hr, rfl⟩ := List.mem_map.mp (List.mem_filter.mp ht).1
    exact (zone_record_form (List.mem_filter.mp hr).1).1
  rw [nsCuts, unique, Jinja.mem_unique_of_inj]
  · rw [List.mem_filter, List.mem_map, decide_eq_true_iff, and_comm]
    refine and_congr_right fun _ => ?_
    constructor
    · rintro ⟨x, hx, rfl⟩
      obtain ⟨hmem, htype⟩ := List.mem_filter.mp hx
      exact List.ne_nil_of_mem (mem_rrset.mpr ⟨hmem, rfl, of_decide_eq_true htype⟩)
    · intro hne
      obtain ⟨x, hx⟩ := List.exists_mem_of_ne_nil _ hne
      obtain ⟨hmem, rfl, htype⟩ := mem_rrset.mp hx
      exact ⟨x, List.mem_filter.mpr ⟨hmem, decide_eq_true htype⟩, rfl⟩
  · intro a ha b hb hab
    rwa [hlower a ha, hlower b hb] at hab

theorem ns_cut_ne_nil {listing : List Text} {r : Text}
    (hr : r ∈ nsCuts site (zoneRecords listing)) : r ≠ [] := by
  obtain ⟨x, hx⟩ := List.exists_mem_of_ne_nil _ (mem_nsCuts.mp hr).2
  obtain ⟨hmem, rfl, -⟩ := mem_rrset.mp hx
  exact (zone_record_form hmem).2.1

theorem deleg_none_congr {listing listing' : List Text}
    (h : ∀ r, Covers d r → (rrset (zoneRecords listing) r "NS" = [] ↔
      rrset (zoneRecords listing') r "NS" = [])) :
    deleg site (zoneRecords listing) d = none ↔ deleg site (zoneRecords listing') d = none := by
  have hmem : ∀ r, Covers d r → (r ∈ nsCuts site (zoneRecords listing) ↔
      r ∈ nsCuts site (zoneRecords listing')) := by
    intro r hcovers
    rw [mem_nsCuts, mem_nsCuts, Ne, Ne, Ne, h r hcovers]
  have houter : outer site (zoneRecords listing) d = [] ↔
      outer site (zoneRecords listing') d = [] := by
    rw [outer_eq_nil fun r hr => ns_cut_ne_nil hr, outer_eq_nil fun r hr => ns_cut_ne_nil hr]
    constructor
    · intro hnone r hr hcovers
      exact hnone r ((hmem r hcovers).mpr hr) hcovers
    · intro hnone r hr hcovers
      exact hnone r ((hmem r hcovers).mp hr) hcovers
  unfold deleg
  by_cases hmapped : d ∈ mappedDomains site
  · simp [hmapped, houter]
  · simp [hmapped]

end Delegation

section Stability

variable {site : Site} {inv : Inventory} {zones first listing : List Text} {d : Text}

theorem goal_type_ns {site : Site} {s : Seen} {g : Op} (hg : g ∈ goals site s d)
    (htype : g.type = ("NS" : Text)) : g.fqdn = wild d := by
  have ha : ("A" : Text) ≠ "NS" := by decide
  have haaaa : ("AAAA" : Text) ≠ "NS" := by decide
  have hcname : ("CNAME" : Text) ≠ "NS" := by decide
  have htxt : ("TXT" : Text) ≠ "NS" := by decide
  rcases mem_goals.mp hg with rfl | rfl | ⟨-, rfl⟩ | ⟨t, -, rfl⟩ | rfl | rfl
  · exact absurd htype hcname
  · exact absurd htype ha
  · exact absurd htype haaaa
  · rfl
  · exact absurd htype hcname
  · exact absurd htype htxt

theorem not_covers_wild {d' : Text} (hapart : Apart d d') : ¬ Covers d (wild d') := by
  rintro (h | h)
  · exact apex_ne_wild hapart h
  · rw [Text.endswith, List.isSuffixOf_iff_suffix] at h
    rcases hapart with rfl | ⟨hplain, -⟩
    · have hlength := h.length_le
      rw [wild_eq, List.length_append, List.length_cons, List.length_cons] at hlength
      omega
    · have hstar : '*' ∉ apex d := fun hmem =>
        absurd (plain_toNat (apex_plain hplain _ hmem)) (by decide)
      refine hstar (h.subset ?_)
      rw [wild_eq]
      exact List.mem_append_right _ List.mem_cons_self

theorem served_congr (hform : WellFormed site) (hd : d ∈ runDomains site)
    (h : Between site zones first listing) :
    Served site zones (zoneRecords listing) d ↔
      Served site zones (zoneRecords first) d := by
  refine and_congr_right fun _ => deleg_none_congr fun r hcovers => ?_
  rcases h r "NS" with hsame | ⟨g, hg, rfl, htype, -⟩
  · rw [hsame]
  · obtain ⟨d', hd', -, hgoal⟩ := mem_runGoals.mp hg
    rw [goal_type_ns hgoal htype] at hcovers
    exact absurd hcovers (not_covers_wild
      (hform.domains_apart (answered_run hform hd) (answered_run hform hd')))

theorem between_goal (hform : WellFormed site) (hd : d ∈ runDomains site)
    (hserved : Served site zones (zoneRecords first) d)
    (h : Between site zones first listing) {g : Op}
    (hg : g ∈ goals site (seen (zoneRecords first) d) d) :
    rrset (zoneRecords listing) g.fqdn g.type = rrset (zoneRecords first) g.fqdn g.type ∨
      rrset (zoneRecords listing) g.fqdn g.type =
        opRecords site.nameStyle (zfq site) g := by
  rcases h g.fqdn g.type with hsame | ⟨g', hg', hname, htype, hrs⟩
  · exact .inl hsame
  · have hkey : g' = g := key_inj hform hg' (mem_runGoals.mpr ⟨d, hd, hserved, hg⟩)
      (Prod.ext hname htype)
    rw [hkey] at hrs
    exact .inr hrs

theorem kept_congr {site : Site} {s s' : Seen} (h : s.markTxt = s'.markTxt) :
    kept site s d = kept site s' d := by
  unfold kept mUnknown mOwners mWellformed mHave
  rw [h]

section Marked

variable {s s' : Seen}

theorem wellformed_of_marks (hform : WellFormed site)
    (h : contents s'.markTxt = wantMark (wanted site s d)) : mWellformed s' = true := by
  refine mWellformed_iff.mpr fun c hc => ?_
  rw [h] at hc
  obtain ⟨host, hhost, rfl⟩ := List.mem_map.mp (Jinja.mem_sort.mp hc)
  obtain ⟨hne, hquote⟩ := hform.host_form host (mem_wanted hform hhost).1
  exact isOwner_iff.mpr ⟨host, rfl, hne, hquote⟩

theorem mOwners_of_marks (h : contents s'.markTxt = wantMark (wanted inv.toSite s d))
    (host : Text) : host ∈ mOwners s' ↔ host ∈ wanted inv.toSite s d := by
  have hnamed : ∀ host, host ∈ (mHave s').map markedHost ↔ host ∈ wanted inv.toSite s d := by
    intro host
    simp only [mHave, h, sort, Jinja.mem_sort, wantMark, List.mem_map]
    constructor
    · rintro ⟨_, ⟨host', hhost', rfl⟩, rfl⟩
      rwa [markedHost_mark]
    · intro hhost
      exact ⟨_, ⟨host, hhost, rfl⟩, markedHost_mark host⟩
  rw [mOwners, if_pos (wellformed_of_marks inv.wellFormed h), sort, Jinja.mem_sort, unique,
    Jinja.mem_unique_of_inj, hnamed]
  intro a ha b hb hab
  exact host_inj (mem_wanted inv.wellFormed ((hnamed a).mp ha)).1
    (mem_wanted inv.wellFormed ((hnamed b).mp hb)).1 hab

theorem known_of_marks (h : contents s'.markTxt = wantMark (wanted inv.toSite s d)) :
    mUnknown inv.toSite s' = [] :=
  mUnknown_eq_nil.mpr fun host hhost =>
    (mem_wanted inv.wellFormed ((mOwners_of_marks h host).mp hhost)).1

theorem kept_of_marks (h : contents s'.markTxt = wantMark (wanted inv.toSite s d))
    (hmark : s'.markTxt ≠ []) : kept inv.toSite s' d = kept inv.toSite s d := by
  refine Jinja.eq_of_sorted (kept_sorted _ _ _) (kept_sorted _ _ _) fun host => ?_
  rw [kept, if_pos ⟨hmark, wellformed_of_marks inv.wellFormed h, known_of_marks h⟩, List.mem_filter,
    mOwners_of_marks h, decide_eq_true_iff]
  constructor
  · rintro ⟨hwanted, hnode, -⟩
    rcases List.mem_append.mp hwanted with hrun | hkept
    · exact absurd (mem_runOwners.mp hrun).1 hnode
    · exact hkept
  · intro hkept
    exact ⟨List.mem_append_right _ hkept, (mem_kept hkept).2.2⟩

end Marked

theorem mark_cases (hform : WellFormed site) (hd : d ∈ runDomains site)
    (hserved : Served site zones (zoneRecords first) d)
    (h : Between site zones first listing) :
    (seen (zoneRecords listing) d).markTxt = (seen (zoneRecords first) d).markTxt ∨
      (seen (zoneRecords listing) d).markTxt ≠ [] ∧
        contents (seen (zoneRecords listing) d).markTxt =
          wantMark (wanted site (seen (zoneRecords first) d) d) := by
  have hgoal : replace site (argMark site d) (mark d) "TXT"
      (wantMark (wanted site (seen (zoneRecords first) d) d)) ∈
      goals site (seen (zoneRecords first) d) d :=
    mem_goals.mpr (.inr (.inr (.inr (.inr (.inr rfl)))))
  refine (between_goal hform hd hserved h hgoal).imp_right fun hrs => ?_
  have hcontents : contents (seen (zoneRecords listing) d).markTxt =
      wantMark (wanted site (seen (zoneRecords first) d) d) := by
    show contents (rrset (zoneRecords listing) (mark d) "TXT") = _
    have hmap : contents (opRecords site.nameStyle (zfq site)
        (replace site (argMark site d) (mark d) "TXT"
          (wantMark (wanted site (seen (zoneRecords first) d) d)))) =
        wantMark (wanted site (seen (zoneRecords first) d) d) := by
      rw [contents, opRecords, replace, List.map_map]
      exact List.map_id _
    exact (congrArg contents hrs).trans hmap
  refine ⟨fun hnil => ?_, hcontents⟩
  rw [hnil] at hcontents
  exact wantMark_ne_nil (wanted_ne_nil hd) hcontents.symm

theorem wanted_congr (hd : d ∈ runDomains inv.toSite)
    (hserved : Served inv.toSite zones (zoneRecords first) d)
    (h : Between inv.toSite zones first listing) :
    wanted inv.toSite (seen (zoneRecords listing) d) d =
      wanted inv.toSite (seen (zoneRecords first) d) d := by
  rcases mark_cases inv.wellFormed hd hserved h with hsame | ⟨hne, hcontents⟩
  · rw [wanted, wanted, kept_congr hsame]
  · rw [wanted, wanted, kept_of_marks hcontents hne]

theorem markOther_congr (hform : WellFormed site) (hd : Answered site d)
    (h : Between site zones first listing)
    (hnone : (seen (zoneRecords first) d).markOther = []) :
    (seen (zoneRecords listing) d).markOther = [] := by
  refine others_eq_nil.mpr fun r hr hname => ?_
  by_contra htype
  have hmem : r ∈ rrset (zoneRecords listing) (mark d) r.type := mem_rrset.mpr ⟨hr, hname, rfl⟩
  rcases h (mark d) r.type with hsame | ⟨g, hg, hfqdn, hgtype, -⟩
  · rw [hsame] at hmem
    obtain ⟨hfirst, hfname, -⟩ := mem_rrset.mp hmem
    exact htype (others_eq_nil.mp hnone r hfirst hfname)
  · obtain ⟨d', hd', -, hgoal⟩ := mem_runGoals.mp hg
    rcases mem_goals.mp hgoal with rfl | rfl | ⟨-, rfl⟩ | ⟨t, -, rfl⟩ | rfl | rfl
    · exact absurd hfqdn (apex_ne_mark (hform.domains_apart (answered_run hform hd') hd))
    · exact absurd hfqdn (apex_ne_mark (hform.domains_apart (answered_run hform hd') hd))
    · exact absurd hfqdn (apex_ne_mark (hform.domains_apart (answered_run hform hd') hd))
    · exact wild_ne_mark hfqdn
    · exact wild_ne_mark hfqdn
    · exact htype hgtype.symm

theorem agrees_congr (hform : WellFormed site) (hd : d ∈ runDomains site)
    (hserved : Served site zones (zoneRecords first) d)
    (h : Between site zones first listing) {name fqdn type : Text} {want : List Text}
    (hg : replace site name fqdn type want ∈
      goals site (seen (zoneRecords first) d) d)
    (hagrees : Agrees (rrset (zoneRecords first) fqdn type) want) :
    Agrees (rrset (zoneRecords listing) fqdn type) want := by
  rcases between_goal hform hd hserved h hg with hsame | hrs
  · exact hsame.symm ▸ hagrees
  · have hmet := met_opRecords hform hd hg hrs
    rw [met, replace, exact, Bool.and_eq_true, decide_eq_true_iff] at hmet
    exact .inr hmet.1

theorem deleted_congr (hform : WellFormed site) (hd : d ∈ runDomains site)
    (hserved : Served site zones (zoneRecords first) d)
    (h : Between site zones first listing) {name fqdn type : Text}
    (hg : delete name fqdn type ∈ goals site (seen (zoneRecords first) d) d)
    (hne : rrset (zoneRecords listing) fqdn type ≠ []) :
    rrset (zoneRecords first) fqdn type ≠ [] := by
  rcases between_goal hform hd hserved h hg with hsame | hrs
  · exact hsame ▸ hne
  · exact absurd hrs hne

theorem wild_types_congr (hform : WellFormed site) (hd : Answered site d)
    (h : Between site zones first listing) {t : Text} :
    t ∈ types (seen (zoneRecords listing) d).wildOther ↔
      t ∈ types (seen (zoneRecords first) d).wildOther ∧
        rrset (zoneRecords listing) (wild d) t ≠ [] := by
  rw [mem_wild_types, mem_wild_types]
  constructor
  · rintro ⟨htype, hne⟩
    refine ⟨⟨htype, ?_⟩, hne⟩
    rcases h (wild d) t with hsame | ⟨g, hg, hfqdn, hgtype, hrs⟩
    · rwa [← hsame]
    · obtain ⟨d', hd', hserved', hgoal⟩ := mem_runGoals.mp hg
      rcases mem_goals.mp hgoal with rfl | rfl | ⟨-, rfl⟩ | ⟨t', -, rfl⟩ | rfl | rfl
      · exact absurd hfqdn (apex_ne_wild (hform.domains_apart (answered_run hform hd') hd))
      · exact absurd hfqdn (apex_ne_wild (hform.domains_apart (answered_run hform hd') hd))
      · exact absurd hfqdn (apex_ne_wild (hform.domains_apart (answered_run hform hd') hd))
      · exact absurd hrs hne
      · exact absurd hgtype.symm htype
      · exact absurd hfqdn.symm wild_ne_mark
  · rintro ⟨⟨htype, -⟩, hne⟩
    exact ⟨htype, hne⟩

theorem wildOther_congr (hform : WellFormed site) (hd : Answered site d)
    (h : Between site zones first listing)
    (hnone : (seen (zoneRecords first) d).wildOther = []) :
    (seen (zoneRecords listing) d).wildOther = [] := by
  refine others_eq_nil.mpr fun r hr hname => ?_
  by_contra htype
  have hmem : r.type ∈ types (seen (zoneRecords listing) d).wildOther :=
    mem_wild_types.mpr ⟨htype, List.ne_nil_of_mem (mem_rrset.mpr ⟨hr, hname, rfl⟩)⟩
  have hfirst := ((wild_types_congr hform hd h).mp hmem).1
  rw [hnone] at hfirst
  cases hfirst

theorem clear_congr (hd : d ∈ runDomains inv.toSite)
    (hserved : Served inv.toSite zones (zoneRecords first) d)
    (h : Between inv.toSite zones first listing)
    (hclear : Clear inv.toSite (seen (zoneRecords first) d) d) :
    Clear inv.toSite (seen (zoneRecords listing) d) d := by
  have hform := inv.wellFormed
  have hanswered := answered_run hform hd
  refine ⟨markOther_congr hform hanswered h hclear.no_other, fun hmark => ?_, fun hunmarked => ?_⟩
  · rcases mark_cases hform hd hserved h with hsame | ⟨-, hcontents⟩
    · have hfirst := hclear.marked (hsame ▸ hmark)
      unfold mUnknown mOwners mWellformed mHave at hfirst ⊢
      rwa [hsame]
    · exact ⟨wellformed_of_marks hform hcontents, known_of_marks hcontents⟩
  · rcases mark_cases hform hd hserved h with hsame | ⟨hne, -⟩
    · obtain ⟨hcname, ha, hsix, hother, hwc⟩ := why_eq_nil.mp (hclear.unmarked (hsame ▸ hunmarked))
      rw [why_eq_nil, wanted_congr hd hserved h]
      refine ⟨?_, ?_, ?_, wildOther_congr hform hanswered h hother, ?_⟩
      · by_contra hne
        exact deleted_congr hform hd hserved h (mem_goals.mpr (.inl rfl)) hne hcname
      · exact agrees_congr hform hd hserved h (mem_goals.mpr (.inr (.inl rfl))) ha
      · rcases Classical.em (ips6 inv.toSite
          (wanted inv.toSite (seen (zoneRecords first) d) d) = []) with hnil | hne
        · exact .inl hnil
        · exact .inr (agrees_congr hform hd hserved h
            (mem_goals.mpr (.inr (.inr (.inl ⟨hne, rfl⟩)))) (hsix.resolve_left hne))
      · exact agrees_congr hform hd hserved h
          (mem_goals.mpr (.inr (.inr (.inr (.inr (.inl rfl)))))) hwc
    · exact absurd hunmarked hne

theorem ops_eq_unmet (site : Site) (listing : List Text) (d : Text) :
    ops site (seen (zoneRecords listing) d) d =
      (goals site (seen (zoneRecords listing) d) d).filter fun g => !met site g listing := by
  have hone : ∀ g, (if met site g listing = true then [] else [g]) =
      [g].filter fun g => !met site g listing := by
    intro g
    cases hmet : met site g listing <;> simp [hmet]
  have hmanaged : ∀ (b : Bool) (g : Op), (if (b || met site g listing) = true then [] else [g]) =
      (if b = true then [] else [g]).filter fun g => !met site g listing := by
    intro b g
    cases b with
    | true => rfl
    | false => exact hone g
  have htypes : ((sortTypes (types (seen (zoneRecords listing) d).wildOther)).map fun t =>
      delete (argWild site d) (wild d) t).filter (fun g => !met site g listing) =
      (sortTypes (types (seen (zoneRecords listing) d).wildOther)).map fun t =>
        delete (argWild site d) (wild d) t := by
    refine List.filter_eq_self.mpr fun g hg => ?_
    obtain ⟨t, ht, rfl⟩ := List.mem_map.mp hg
    rw [Bool.not_eq_true']
    exact List.isEmpty_eq_false_iff.mpr (mem_wild_types.mp (Jinja.mem_sort.mp ht)).2
  rw [goals, List.filter_append, List.filter_append, List.filter_append, List.filter_append,
    List.filter_append, htypes]
  refine congrArg₂ (· ++ ·) (congrArg₂ (· ++ ·) (congrArg₂ (· ++ ·) (congrArg₂ (· ++ ·)
    (congrArg₂ (· ++ ·) ?_ ?_) ?_) rfl) ?_) ?_
  · exact hone (delete (argApex site d) (apex d) "CNAME")
  · exact hone (replace site (argApex site d) (apex d) "A" _)
  · exact hmanaged _ (replace site (argApex site d) (apex d) "AAAA" _)
  · exact hone (replace site (argWild site d) (wild d) "CNAME" _)
  · exact hone (replace site (argMark site d) (mark d) "TXT" _)

theorem ops_eq_open (hd : d ∈ runDomains inv.toSite)
    (hserved : Served inv.toSite zones (zoneRecords first) d)
    (h : Between inv.toSite zones first listing) :
    ops inv.toSite (seen (zoneRecords listing) d) d =
      (goals inv.toSite (seen (zoneRecords first) d) d).filter
        fun g => !met inv.toSite g listing := by
  have htypes : sortTypes (types (seen (zoneRecords listing) d).wildOther) =
      (sortTypes (types (seen (zoneRecords first) d).wildOther)).filter
        fun t => !met inv.toSite (delete (argWild inv.toSite d) (wild d) t) listing := by
    refine Jinja.eq_of_sorted (Jinja.pairwise_sort_unique _)
      ((Jinja.pairwise_sort_unique _).filter _) fun t => ?_
    rw [List.mem_filter, sortTypes, Jinja.mem_sort, sortTypes, Jinja.mem_sort,
      wild_types_congr inv.wellFormed (answered_run inv.wellFormed hd) h, Bool.not_eq_true', met]
    exact and_congr_right fun _ => List.isEmpty_eq_false_iff.symm
  rw [ops_eq_unmet, goals, goals, wanted_congr hd hserved h, htypes]
  simp only [List.filter_append, List.filter_map, List.filter_filter, Function.comp_def,
    Bool.and_self]

end Stability

end Provisioner.Powerdns
