import Provisioner.Powerdns.Replan

/-!
# The reach of a plan

A plan writes only the names of its own domains, in the order and the spelling
pdnsutil needs. It stays out of zone cuts and delegations as long as `unique`
does not hide the node a domain belongs to.
-/

namespace Provisioner.Powerdns

/-- `d` lies at or below a zone of its own on this server, or a delegation in the zone. -/
def Occluded (site : Site) (allZones : List Text) (recs : List Record) (d : Text) : Prop :=
  (∃ line ∈ allZones, ∃ z, zoneName line = some z ∧
    Text.endswith z ("." ++ zone site) = true ∧ (d = z ∨ Text.endswith d ("." ++ z) = true)) ∨
  ∃ r ∈ recs, r.type = ("NS" : Text) ∧ r.name ≠ zfq site ∧ Covers d r.name

/-- Every node that answers on `d` is listed after another spelling of its name. -/
def Overlooked (site : Site) (d : Text) : Prop :=
  ∀ h ∈ site.inventoryNodes, domain site h = d →
    site.inventoryNodes.find? (fun b => Text.lower b = Text.lower h) ≠ some h

instance (site : Site) (d : Text) : Decidable (Overlooked site d) :=
  inferInstanceAs (Decidable (∀ h ∈ site.inventoryNodes, domain site h = d →
    site.inventoryNodes.find? (fun b => Text.lower b = Text.lower h) ≠ some h))

def restyled (site : Site) (style : NameStyle) : Site := { site with nameStyle := style }

def unspelled (op : Op) : Op := { op with name := op.fqdn }

/-- What the operations of a plan touch, in which order and under which names. -/
structure OpsReach (site : Site) (allZones listing : List Text) : Prop where
  within : ∀ op ∈ (lbPlan site allZones listing).ops, ∃ h ∈ site.recordsNodes,
    inZone site (domain site h) = true ∧
      ¬ Occluded site allZones (zoneRecords listing) (domain site h) ∧
      OwnName (domain site h) op.fqdn op.type ∧
      (op.fqdn = mark (domain site h) → op.type = ("TXT" : Text))
  rest : ∀ name type, (∀ op ∈ (lbPlan site allZones listing).ops, key op ≠ (name, type)) →
    rrset (zoneRecords (applyOps site (lbPlan site allZones listing).ops listing)) name type =
      rrset (zoneRecords listing) name type
  deletes_first : (lbPlan site allZones listing).ops.Pairwise fun a b =>
    a.fqdn = b.fqdn → b.op = .delete → a.op = .delete
  names : ∀ op ∈ (lbPlan site allZones listing).ops,
    pdnsutilName site.nameStyle (zfq site) op.name = op.fqdn
  styles : ∀ style, (lbPlan (restyled site style) allZones listing).ops.map unspelled =
    (lbPlan site allZones listing).ops.map unspelled

section Cuts

variable {site : Site} {allZones listing zones : List Text} {d z : Text}

theorem lower_undotted {t : Text} (h : Text.lower t = t) : Text.lower (undotted t) = undotted t := by
  unfold undotted
  split
  · exact Text.lower_of_subset (List.dropLast_sublist t).subset h
  · exact h

theorem zoneName_lower {line : Text} (h : zoneName line = some z) : Text.lower z = z := by
  unfold zoneName at h
  dsimp only at h
  split at h
  · cases h
    exact lower_undotted (Text.lower_lower _)
  · cases h

theorem mem_zoneNames : z ∈ zoneNames allZones ↔ ∃ line ∈ allZones, zoneName line = some z := by
  rw [zoneNames, unique, Jinja.mem_unique_of_inj, List.mem_filterMap]
  intro a ha b hb hab
  obtain ⟨_, -, ha⟩ := List.mem_filterMap.mp ha
  obtain ⟨_, -, hb⟩ := List.mem_filterMap.mp hb
  rwa [zoneName_lower ha, zoneName_lower hb] at hab

theorem inner_eq_nil : inner site zones d = [] ↔
    ∀ z ∈ zones, Text.endswith z ("." ++ zone site) = true →
      ¬ (d = z ∨ Text.endswith d ("." ++ z) = true) := by
  have hfold : ∀ (l : List Text), (∀ z ∈ l, z ≠ []) → ∀ best : Text,
      (l.foldl (fun best z =>
        if (d = z ∨ Text.endswith d ("." ++ z)) ∧ best.length < z.length then z else best)
        best = [] ↔ best = [] ∧ ∀ z ∈ l, ¬ (d = z ∨ Text.endswith d ("." ++ z) = true)) := by
    intro l hl
    induction l with
    | nil => simp
    | cons z l ih =>
      rw [List.forall_mem_cons] at hl
      intro best
      rw [List.foldl_cons, ih hl.2, List.forall_mem_cons]
      by_cases hserves : d = z ∨ Text.endswith d ("." ++ z) = true
      · have hlast : ¬ ((if (d = z ∨ Text.endswith d ("." ++ z) = true) ∧
            best.length < z.length then z else best) = []) := by
          split
          · exact hl.1
          · intro hnil
            rename_i hshort
            refine hshort ⟨hserves, ?_⟩
            rw [hnil]
            exact List.length_pos_of_ne_nil hl.1
        constructor
        · intro h
          exact absurd h.1 hlast
        · intro h
          exact absurd hserves h.2.1
      · rw [if_neg fun h => hserves h.1]
        exact and_congr_right fun _ => (and_iff_right hserves).symm
  have hne : ∀ z ∈ subzones site zones, z ≠ [] := by
    rintro _ hz rfl
    have hdot := (List.mem_filter.mp hz).2
    rw [Text.endswith, List.isSuffixOf_iff_suffix, List.suffix_nil] at hdot
    exact List.append_ne_nil_of_left_ne_nil (by decide) _ hdot
  rw [inner, hfold _ hne]
  simp only [subzones, List.mem_filter, true_and, and_imp]

theorem mem_mappedDomains (hknown : ∀ h ∈ site.recordsNodes, h ∈ site.inventoryNodes) :
    d ∈ mappedDomains site ↔ ¬ Overlooked site d := by
  have hfirst : ∀ h ∈ site.inventoryNodes,
      (site.inventoryNodes ++ nodes site).find? (fun b => Text.lower b = Text.lower h) =
        site.inventoryNodes.find? fun b => Text.lower b = Text.lower h := by
    intro h hh
    have hsome : (site.inventoryNodes.find? fun b => Text.lower b = Text.lower h).isSome :=
      List.find?_isSome.mpr ⟨h, hh, decide_eq_true rfl⟩
    rw [List.find?_append, Option.or_of_isSome hsome]
  unfold mappedDomains Overlooked
  push Not
  rw [List.mem_map]
  constructor
  · rintro ⟨h, hh, hdomain⟩
    have hknown : h ∈ site.inventoryNodes := by
      rcases List.mem_append.mp (Jinja.mem_of_mem_unique hh) with hh | hh
      · exact hh
      · exact hknown h (mem_nodes hh)
    refine ⟨h, hknown, hdomain, ?_⟩
    rw [← hfirst h hknown]
    exact Jinja.mem_unique_iff.mp hh
  · rintro ⟨h, hh, hdomain, hfind⟩
    refine ⟨h, Jinja.mem_unique_iff.mpr ?_, hdomain⟩
    rw [← hfind, ← hfirst h hh]

/-- A domain that is looked up is written only where it is not occluded. -/
theorem served_iff (hmapped : d ∈ mappedDomains site) :
    Served site (zoneNames allZones) (zoneRecords listing) d ↔
      ¬ Occluded site allZones (zoneRecords listing) d := by
  have hcut : cut site (zoneNames allZones) d = none ↔
      inner site (zoneNames allZones) d = [] := by
    simp [cut, hmapped]
  have hdeleg : deleg site (zoneRecords listing) d = none ↔
      outer site (zoneRecords listing) d = [] := by
    simp [deleg, hmapped]
  rw [Served, hcut, hdeleg, inner_eq_nil, outer_eq_nil fun r hr => ns_cut_ne_nil hr]
  constructor
  · rintro ⟨hzones, hcuts⟩ (⟨line, hline, z, hz, hbelow, hserves⟩ | ⟨r, hr, htype, hapex, hcovers⟩)
    · exact hzones z (mem_zoneNames.mpr ⟨line, hline, hz⟩) hbelow hserves
    · exact hcuts r.name (mem_nsCuts.mpr ⟨hapex, List.ne_nil_of_mem
        (mem_rrset.mpr ⟨hr, rfl, htype⟩)⟩) hcovers
  · intro hocc
    constructor
    · intro z hz hbelow hserves
      obtain ⟨line, hline, hz⟩ := mem_zoneNames.mp hz
      exact hocc (.inl ⟨line, hline, z, hz, hbelow, hserves⟩)
    · intro name hname hcovers
      obtain ⟨hapex, hne⟩ := mem_nsCuts.mp hname
      obtain ⟨r, hr⟩ := List.exists_mem_of_ne_nil _ hne
      obtain ⟨hmem, rfl, htype⟩ := mem_rrset.mp hr
      exact hocc (.inr ⟨r, hmem, htype, hapex, hcovers⟩)

theorem served_of_unmapped (hmapped : d ∉ mappedDomains site) :
    Served site zones (zoneRecords listing) d := by
  constructor
  · exact if_neg fun h => hmapped h.1
  · exact if_neg fun h => hmapped h.1

end Cuts

section Ops

variable {site : Site} {allZones listing zones : List Text} {recs : List Record} {s : Seen}
  {d : Text} {op : Op}

/-- The plan writes for `d`. -/
def Writes (site : Site) (zones : List Text) (recs : List Record) (d : Text) : Prop :=
  Served site zones recs d ∧ inZone site d = true ∧ Clear site (seen recs d) d

theorem planDomain_ops (h : Writes site zones recs d) :
    (planDomain site zones recs d).ops = ops site (seen recs d) d := by
  rw [planDomain_of_served h.1 h.2.1, decideRecords_of_clear h.2.2]
  rfl

theorem planDomain_ops_eq_nil (h : ¬ Writes site zones recs d) :
    (planDomain site zones recs d).ops = [] := by
  by_cases hserved : Served site zones recs d
  · have hconflict : Conflicting (planDomain site zones recs d) := by
      cases hzone : inZone site d with
      | false => exact planDomain_of_outside hserved hzone
      | true =>
        rw [planDomain_of_served hserved hzone]
        exact decideRecords_of_not_clear fun hclear => h ⟨hserved, hzone, hclear⟩
    obtain ⟨reason, hreason⟩ := hconflict
    rw [hreason]
    rfl
  · obtain ⟨note, hnote⟩ := planDomain_of_not_served hserved
    rw [hnote]
    rfl

theorem mem_planDomain_ops {listing : List Text} :
    op ∈ (planDomain site zones (zoneRecords listing) d).ops ↔
      Writes site zones (zoneRecords listing) d ∧
        op ∈ goals site (seen (zoneRecords listing) d) d ∧ met site op listing = false := by
  by_cases h : Writes site zones (zoneRecords listing) d
  · rw [planDomain_ops h, ops_eq_unmet, List.mem_filter, Bool.not_eq_true', and_iff_right h]
  · rw [planDomain_ops_eq_nil h]
    simp [h]

theorem mem_plan_ops : op ∈ (lbPlan site allZones listing).ops ↔
    ∃ d ∈ runDomains site, Writes site (zoneNames allZones) (zoneRecords listing) d ∧
      op ∈ goals site (seen (zoneRecords listing) d) d ∧ met site op listing = false := by
  rw [plan_ops, List.mem_flatMap]
  simp only [mem_planDomain_ops]

theorem goal_mark_type (hg : op ∈ goals site s d)
    (hname : op.fqdn = mark d) : op.type = ("TXT" : Text) := by
  rcases mem_goals.mp hg with rfl | rfl | ⟨-, rfl⟩ | ⟨t, -, rfl⟩ | rfl | rfl
  · exact absurd hname (apex_ne_mark (.inl rfl))
  · exact absurd hname (apex_ne_mark (.inl rfl))
  · exact absurd hname (apex_ne_mark (.inl rfl))
  · exact absurd hname wild_ne_mark
  · exact absurd hname wild_ne_mark
  · rfl

theorem plan_op_applicable (hadmitted : Admitted site)
    (hop : op ∈ (lbPlan site allZones listing).ops) :
    Applicable site.nameStyle (zfq site) op := by
  obtain ⟨d, hd, ⟨-, hzone, -⟩, hg, -⟩ := mem_plan_ops.mp hop
  have hform := hadmitted.toWellFormed
  exact goal_applicable (hform.legible (answered_run hform hd))
    (fun _ hh => wanted_form hform hh) hzone hg

/-- Operations on other rrsets leave an rrset alone. -/
theorem rrset_applyOps {gs : List Op} (happly : ∀ g ∈ gs, Applicable site.nameStyle (zfq site) g)
    {name type : Text} (hother : ∀ g ∈ gs, key g ≠ (name, type)) (listing : List Text) :
    rrset (zoneRecords (applyOps site gs listing)) name type =
      rrset (zoneRecords listing) name type := by
  induction gs generalizing listing with
  | nil => rfl
  | cons g gs ih =>
    rw [List.forall_mem_cons] at happly hother
    refine (ih happly.2 hother.2 _).trans ?_
    exact rrset_pdnsutil_of_ne happly.1 fun hkey => hother.1 (Prod.ext hkey.1 hkey.2)

theorem pairwise_replaces {l : List Op} (h : ∀ g ∈ l, g.op = .replace) :
    l.Pairwise fun a b => a.fqdn = b.fqdn → b.op = .delete → a.op = .delete :=
  List.pairwise_of_forall_mem_list fun _ _ b hb _ hdelete =>
    absurd ((h b hb).symm.trans hdelete) (by decide)

theorem pairwise_deletes {l l' : List Op} (h : ∀ g ∈ l, g.op = .delete)
    (h' : ∀ g ∈ l', g.op = .replace) :
    (l ++ l').Pairwise fun a b => a.fqdn = b.fqdn → b.op = .delete → a.op = .delete := by
  rw [List.pairwise_append]
  refine ⟨List.pairwise_of_forall_mem_list fun a ha _ _ _ _ => h a ha, pairwise_replaces h', ?_⟩
  exact fun a ha _ _ _ _ => h a ha

theorem goals_deletes_first (site : Site) (s : Seen) (d : Text) :
    (goals site s d).Pairwise fun a b => a.fqdn = b.fqdn → b.op = .delete → a.op = .delete := by
  have hsix : ∀ g ∈ (if (ips6 site (wanted site s d)).isEmpty then []
      else [replace site (argApex site d) (apex d) "AAAA" (ips6 site (wanted site s d))]),
      g.op = .replace ∧ g.fqdn = apex d := by
    intro g hg
    split at hg
    · cases hg
    · obtain rfl := List.mem_singleton.mp hg
      exact ⟨rfl, rfl⟩
  simp only [goals, List.append_assoc]
  rw [← List.append_assoc, ← List.append_assoc, List.append_assoc [_], List.pairwise_append]
  refine ⟨pairwise_deletes ?_ ?_, pairwise_deletes ?_ ?_, ?_⟩
  · rintro g hg
    rw [List.mem_singleton.mp hg]
    rfl
  · intro g hg
    rcases List.mem_append.mp hg with hg | hg
    · rw [List.mem_singleton.mp hg]
      rfl
    · exact (hsix g hg).1
  · intro g hg
    obtain ⟨t, -, rfl⟩ := List.mem_map.mp hg
    rfl
  · intro g hg
    rcases List.mem_append.mp hg with hg | hg
    all_goals
      rw [List.mem_singleton.mp hg]
      rfl
  · intro a ha b hb hname _
    have hapex : a.fqdn = apex d := by
      rcases List.mem_append.mp ha with ha | ha
      · rw [List.mem_singleton.mp ha]
        rfl
      · rcases List.mem_append.mp ha with ha | ha
        · rw [List.mem_singleton.mp ha]
          rfl
        · exact (hsix a ha).2
    rw [hapex] at hname
    rcases List.mem_append.mp hb with hb | hb
    · obtain ⟨t, -, rfl⟩ := List.mem_map.mp hb
      exact absurd hname (apex_ne_wild (.inl rfl))
    · rcases List.mem_append.mp hb with hb | hb
      · rw [List.mem_singleton.mp hb] at hname
        exact absurd hname (apex_ne_wild (.inl rfl))
      · rw [List.mem_singleton.mp hb] at hname
        exact absurd hname (apex_ne_mark (.inl rfl))

theorem planDomain_deletes_first (d : Text) :
    (planDomain site zones (zoneRecords listing) d).ops.Pairwise fun a b =>
      a.fqdn = b.fqdn → b.op = .delete → a.op = .delete := by
  by_cases hwrites : Writes site zones (zoneRecords listing) d
  · rw [planDomain_ops hwrites, ops_eq_unmet]
    exact (goals_deletes_first _ _ _).filter _
  · rw [planDomain_ops_eq_nil hwrites]
    exact .nil

theorem plan_deletes_first (hform : WellFormed site) :
    (lbPlan site allZones listing).ops.Pairwise fun a b =>
      a.fqdn = b.fqdn → b.op = .delete → a.op = .delete := by
  rw [plan_ops, List.pairwise_flatMap]
  refine ⟨fun d _ => planDomain_deletes_first d, ?_⟩
  refine List.Pairwise.imp_of_mem ?_ (runDomains_nodup site)
  -- Different domains have no name in common.
  intro d d' hd hd' hne a ha b hb hname
  have hapart := hform.domains_apart (answered_run hform hd) (answered_run hform hd')
  exact absurd (goal_name_inj hapart (mem_planDomain_ops.mp ha).2.1
    (mem_planDomain_ops.mp hb).2.1 hname) hne

theorem ops_unspelled (site : Site) (style : NameStyle) (s : Seen) (d : Text) :
    (ops (restyled site style) s d).map unspelled = (ops site s d).map unspelled := by
  simp only [ops, List.map_append, apply_ite (List.map unspelled), List.map_nil, List.map_cons,
    List.map_map]
  rfl

theorem writes_restyled {style : NameStyle} :
    Writes (restyled site style) zones recs d ↔ Writes site zones recs d := by
  refine and_congr_right fun _ => and_congr_right fun _ => ?_
  exact ⟨fun h => ⟨h.no_other, h.marked, h.unmarked⟩, fun h => ⟨h.no_other, h.marked, h.unmarked⟩⟩

theorem plan_unspelled (site : Site) (style : NameStyle) (allZones listing : List Text) :
    (lbPlan (restyled site style) allZones listing).ops.map unspelled =
      (lbPlan site allZones listing).ops.map unspelled := by
  rw [plan_ops, plan_ops, List.map_flatMap, List.map_flatMap]
  refine flatMap_congr_mem fun d _ => ?_
  by_cases hwrites : Writes site (zoneNames allZones) (zoneRecords listing) d
  · rw [planDomain_ops hwrites, planDomain_ops (writes_restyled.mpr hwrites), ops_unspelled]
  · rw [planDomain_ops_eq_nil hwrites,
      planDomain_ops_eq_nil fun h => hwrites (writes_restyled.mp h)]

end Ops

/-- The zone is free to be written at `d` and is not right yet. -/
def Open (site : Site) (listing : List Text) (d : Text) : Prop :=
  Clear site (seen (zoneRecords listing) d) d ∧
    ∃ g ∈ goals site (seen (zoneRecords listing) d) d, met site g listing = false

/-- A plan keeps to its reach exactly when no occluded domain of the run is both
overlooked and open. -/
theorem ops_reach_iff (site : Site) (hadmitted : Admitted site) (allZones listing : List Text) :
    OpsReach site allZones listing ↔
      ∀ d ∈ runDomains site, Occluded site allZones (zoneRecords listing) d →
        Overlooked site d → ¬ Open site listing d := by
  have hform := hadmitted.toWellFormed
  constructor
  · rintro hreach d hd hoccluded hover ⟨hclear, g, hg, hunmet⟩
    have hmapped : d ∉ mappedDomains site := fun h =>
      (mem_mappedDomains hadmitted.run_known).mp h hover
    have hzone : inZone site d = true := by
      obtain ⟨h, hh, rfl⟩ := mem_runDomains.mp hd
      exact hadmitted.inZone h (hadmitted.run_known h (mem_nodes hh))
    obtain ⟨h, hh, -, hfree, hname, -⟩ := hreach.within g (mem_plan_ops.mpr
      ⟨d, hd, ⟨served_of_unmapped hmapped, hzone, hclear⟩, hg, hunmet⟩)
    have hapart := hform.domains_apart ⟨h, hform.run_known h hh, rfl⟩ (answered_run hform hd)
    rw [own_name_inj hapart hname (goal_own_name hg)] at hfree
    exact hfree hoccluded
  · intro hopen
    refine ⟨fun op hop => ?_, fun name type hother => ?_, plan_deletes_first hform,
      fun op hop => (plan_op_applicable hadmitted hop).name, fun style => plan_unspelled _ _ _ _⟩
    · obtain ⟨d, hd, ⟨hserved, hzone, hclear⟩, hg, hunmet⟩ := mem_plan_ops.mp hop
      have hfree : ¬ Occluded site allZones (zoneRecords listing) d := by
        by_cases hover : Overlooked site d
        · exact fun hoccluded => hopen d hd hoccluded hover ⟨hclear, op, hg, hunmet⟩
        · exact (served_iff ((mem_mappedDomains hadmitted.run_known).mpr hover)).mp hserved
      have hmark := goal_mark_type hg
      have hname := goal_own_name hg
      obtain ⟨h, hh, rfl⟩ := mem_runDomains.mp hd
      exact ⟨h, mem_nodes hh, hzone, hfree, hname, hmark⟩
    · exact rrset_applyOps (fun g hg => plan_op_applicable hadmitted hg) hother listing

/-- The zone of another customer is no obstacle; the records of `fleet` are rewritten. -/
theorem ops_reach_fleet : OpsReach fleet ["ex.test", "other.test"] shadowed := by
  have hshown : ∀ d ∈ runDomains fleet, ¬ Overlooked fleet d := by decide
  exact (ops_reach_iff fleet (by decide) _ _).mpr fun d hd _ hover => absurd hover (hshown d hd)

/-- `n1` is built; `N1`, listed before it, answers elsewhere. -/
def hiddenCut : Site where
  csAppZone := "ex.test"
  recordTtl := 300
  nameStyle := .absolute
  inventoryNodes := ["N1", "n1"]
  hostvars h := if h = ("n1" : Text) then ⟨"b.ex.test", "192.0.2.1", []⟩
    else ⟨"a.ex.test", "192.0.2.2", []⟩
  recordsNodes := ["n1"]

theorem ops_below_a_hidden_cut :
    Admitted hiddenCut ∧ ¬ OpsReach hiddenCut ["ex.test", "b.ex.test"] [] := by
  refine ⟨by decide, fun h => ?_⟩
  have hop : replace hiddenCut "b.ex.test." "b.ex.test." "A" ["192.0.2.1"] ∈
      (lbPlan hiddenCut ["ex.test", "b.ex.test"] []).ops := by decide
  obtain ⟨h, hh, -, hfree, -⟩ := h.within _ hop
  obtain rfl := List.mem_singleton.mp hh
  exact hfree (.inl ⟨"b.ex.test", by decide, "b.ex.test", by decide,
    by decide, by decide⟩)

end Provisioner.Powerdns
