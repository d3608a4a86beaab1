import Provisioner.Powerdns.Resume

/-!
# A cut plan is continued by the next run

However many operations of a plan reached the zone, planning again finds no
conflict and lists exactly the operations that did not; the finished zone holds
what the wanted owners ask for.
-/

namespace Provisioner.Powerdns

/-- `h` answers on `d`, and is built by this run or named by the marker already. -/
def WantedOwner (site : Site) (recs : List Record) (d h : Text) : Prop :=
  h ∈ site.inventoryNodes ∧ domain site h = d ∧
    (h ∈ site.recordsNodes ∨
      ∃ r ∈ recs, r.name = mark d ∧ r.type = ("TXT" : Text) ∧ r.content = ownerMark h)

/-- One record for each content that satisfies `p`, at the configured TTL. -/
def Holds (site : Site) (rs : List Record) (p : Text → Prop) : Prop :=
  (contents rs).Nodup ∧ (∀ c, c ∈ contents rs ↔ p c) ∧ ∀ r ∈ rs, r.ttl = site.recordTtl

/-- The records of `d` are those of its owners. -/
structure Serves (site : Site) (recs : List Record) (d : Text) (owner : Text → Prop) : Prop where
  apexA : Holds site (rrset recs (apex d) "A") fun c =>
    ∃ h, owner h ∧ (site.hostvars h).publicIp = c
  apexAaaa : (∃ h, owner h ∧ (site.hostvars h).publicIpv6 ≠ []) →
    Holds site (rrset recs (apex d) "AAAA") fun c =>
      c ≠ [] ∧ ∃ h, owner h ∧ (site.hostvars h).publicIpv6 = c
  apexCname : rrset recs (apex d) "CNAME" = []
  wildcard : recs.filter (fun r => r.name = wild d) = [⟨wild d, site.recordTtl, "CNAME", apex d⟩]
  marker_type : ∀ r ∈ recs, r.name = mark d → r.type = ("TXT" : Text)
  marker : Holds site (rrset recs (mark d) "TXT") fun c => ∃ h, owner h ∧ ownerMark h = c

/-- The records of `d` are those of the owners that `first` makes wanted. -/
def Converged (site : Site) (first recs : List Record) (d : Text) : Prop :=
  Serves site recs d (WantedOwner site first d)

section Plan

variable {inv : Inventory} {allZones first listing : List Text} {d : Text}

theorem plan_ops (site : Site) (allZones listing : List Text) :
    (lbPlan site allZones listing).ops = (runDomains site).flatMap fun d =>
      (planDomain site (zoneNames allZones) (zoneRecords listing) d).ops := by
  rw [lbPlan]
  exact List.flatMap_map ..

theorem plan_conflicts_eq_nil {site : Site} : (lbPlan site allZones listing).conflicts = [] ↔
    ∀ d ∈ runDomains site,
      (planDomain site (zoneNames allZones) (zoneRecords listing) d).conflicts = [] := by
  rw [lbPlan]
  simp only [List.flatMap_map, List.flatMap_eq_nil_iff]

theorem not_conflicting {decision : Decision} (h : decision.conflicts = []) :
    ¬ Conflicting decision := by
  rintro ⟨reason, rfl⟩
  cases h

theorem undisputed {site : Site} (h : (lbPlan site allZones listing).conflicts = []) :
    Undisputed site (zoneNames allZones) (zoneRecords listing) := by
  intro d hd hserved
  have hnone := not_conflicting (plan_conflicts_eq_nil.mp h d hd)
  have hzone : inZone site d = true := by
    cases hzone : inZone site d with
    | true => rfl
    | false => exact absurd (planDomain_of_outside hserved hzone) hnone
  refine ⟨hzone, ?_⟩
  by_contra hclear
  rw [planDomain_of_served hserved hzone] at hnone
  exact hnone (decideRecords_of_not_clear hclear)

theorem planDomain_between (hd : d ∈ runDomains inv.toSite)
    (hfree : Undisputed inv.toSite (zoneNames allZones) (zoneRecords first))
    (h : Between inv.toSite (zoneNames allZones) first listing) :
    planDomain inv.toSite (zoneNames allZones) (zoneRecords listing) d =
        .write (ops inv.toSite (seen (zoneRecords listing) d) d) ∧
      Served inv.toSite (zoneNames allZones) (zoneRecords first) d ∨
    (∃ note, planDomain inv.toSite (zoneNames allZones) (zoneRecords listing) d =
        .skipped note) ∧
      ¬ Served inv.toSite (zoneNames allZones) (zoneRecords first) d := by
  by_cases hserved : Served inv.toSite (zoneNames allZones) (zoneRecords first) d
  · obtain ⟨hzone, hclear⟩ := hfree d hd hserved
    refine .inl ⟨?_, hserved⟩
    rw [planDomain_of_served ((served_congr inv.wellFormed hd h).mpr hserved) hzone,
      decideRecords_of_clear (clear_congr hd hserved h hclear)]
  · exact .inr ⟨planDomain_of_not_served fun hlater =>
      hserved ((served_congr inv.wellFormed hd h).mp hlater), hserved⟩

theorem filter_flatMap_filter {α β : Type} (p : α → Bool) (q : β → Bool) (f : α → List β)
    (l : List α) : ((l.filter p).flatMap f).filter q =
      l.flatMap fun a => if p a then (f a).filter q else [] := by
  induction l with
  | nil => rfl
  | cons a l ih =>
    rw [List.filter_cons, List.flatMap_cons]
    cases hp : p a with
    | true => rw [if_pos rfl, if_pos rfl, List.flatMap_cons, List.filter_append, ih]
    | false =>
      rw [if_neg Bool.false_ne_true, if_neg Bool.false_ne_true]
      exact ih

theorem flatMap_congr_mem {α β : Type} {f g : α → List β} {l : List α}
    (h : ∀ a ∈ l, f a = g a) : l.flatMap f = l.flatMap g := by
  rw [List.flatMap_def, List.flatMap_def, List.map_congr_left h]

theorem plan_eq_todo (hfree : Undisputed inv.toSite (zoneNames allZones) (zoneRecords first))
    (h : Between inv.toSite (zoneNames allZones) first listing) :
    (lbPlan inv.toSite allZones listing).ops =
      Converge.todo (met inv.toSite)
        (runGoals inv.toSite (zoneNames allZones) (zoneRecords first)) listing := by
  rw [plan_ops, Converge.todo, runGoals, filter_flatMap_filter]
  refine flatMap_congr_mem fun d hd => ?_
  rcases planDomain_between hd hfree h with ⟨hwrite, hserved⟩ | ⟨⟨note, hskip⟩, hserved⟩
  · rw [hwrite, decide_eq_true hserved, if_pos rfl]
    exact ops_eq_open hd hserved h
  · rw [hskip, decide_eq_false hserved, if_neg Bool.false_ne_true]
    rfl

theorem plan_eq_open {site : Site}
    (hfree : Undisputed site (zoneNames allZones) (zoneRecords listing)) :
    (lbPlan site allZones listing).ops = Converge.todo (met site)
      (runGoals site (zoneNames allZones) (zoneRecords listing)) listing := by
  rw [plan_ops, Converge.todo, runGoals, filter_flatMap_filter]
  refine flatMap_congr_mem fun d hd => ?_
  by_cases hserved : Served site (zoneNames allZones) (zoneRecords listing) d
  · obtain ⟨hzone, hclear⟩ := hfree d hd hserved
    rw [planDomain_of_served hserved hzone, decideRecords_of_clear hclear,
      decide_eq_true hserved, if_pos rfl]
    exact ops_eq_unmet site listing d
  · obtain ⟨note, hnote⟩ := planDomain_of_not_served hserved
    rw [hnote, decide_eq_false hserved, if_neg Bool.false_ne_true]
    rfl

theorem conflicts_between (hfree : Undisputed inv.toSite (zoneNames allZones) (zoneRecords first))
    (h : Between inv.toSite (zoneNames allZones) first listing) :
    (lbPlan inv.toSite allZones listing).conflicts = [] := by
  refine plan_conflicts_eq_nil.mpr fun d hd => ?_
  rcases planDomain_between hd hfree h with ⟨hwrite, -⟩ | ⟨⟨note, hskip⟩, -⟩
  · rw [hwrite]
    rfl
  · rw [hskip]
    rfl

end Plan

section Converged

variable {inv : Inventory} {first listing : List Text} {s : Seen} {d h : Text}

theorem mem_nodes_iff : h ∈ nodes inv.toSite ↔ h ∈ inv.recordsNodes := by
  rw [nodes, sort, Jinja.mem_sort, unique, Jinja.mem_unique_of_inj]
  intro a ha b hb hab
  exact host_inj (inv.wellFormed.run_known a ha) (inv.wellFormed.run_known b hb) hab

theorem kept_marked {site : Site} (hh : h ∈ kept site s d) : mWellformed s = true := by
  unfold kept at hh
  split at hh
  · exact And.left (And.right ‹_›)
  · cases hh

theorem mem_wanted_iff (hclear : Clear inv.toSite (seen (zoneRecords first) d) d) :
    h ∈ wanted inv.toSite (seen (zoneRecords first) d) d ↔
      WantedOwner inv.toSite (zoneRecords first) d h := by
  constructor
  · intro hh
    obtain ⟨hnode, hdomain⟩ := mem_wanted inv.wellFormed hh
    refine ⟨hnode, hdomain, ?_⟩
    rcases List.mem_append.mp hh with hrun | hkept
    · exact .inl (mem_nodes (mem_runOwners.mp hrun).1)
    · have hform := kept_marked hkept
      have hnamed := List.mem_of_find?_eq_some ((mem_mOwners hform).mp (mem_kept hkept).2.1)
      obtain ⟨c, hc, hhost⟩ := List.mem_map.mp hnamed
      have hspelled := mark_markedHost (mWellformed_iff.mp hform c hc)
      obtain ⟨r, hr, rfl⟩ := List.mem_map.mp hc
      obtain ⟨hmem, hname, htype⟩ := mem_rrset.mp hr
      exact .inr ⟨r, hmem, hname, htype, by rw [← hspelled, hhost]⟩
  · rintro ⟨hnode, hdomain, hrun | ⟨r, hr, hname, htype, hcontent⟩⟩
    · exact List.mem_append_left _ (mem_runOwners.mpr ⟨mem_nodes_iff.mpr hrun, hdomain⟩)
    · by_cases hrun : h ∈ nodes inv.toSite
      · exact List.mem_append_left _ (mem_runOwners.mpr ⟨hrun, hdomain⟩)
      · have hmem : r ∈ (seen (zoneRecords first) d).markTxt := mem_rrset.mpr ⟨hr, hname, htype⟩
        have hmark := List.ne_nil_of_mem hmem
        obtain ⟨hform, hknown⟩ := hclear.marked hmark
        have hhost : h ∈ (mHave (seen (zoneRecords first) d)).map markedHost := by
          refine List.mem_map.mpr ⟨r.content, Jinja.mem_sort.mpr (List.mem_map_of_mem hmem), ?_⟩
          rw [hcontent, markedHost_mark]
        obtain ⟨b, hb, hlower⟩ : ∃ b ∈ unique ((mHave (seen (zoneRecords first) d)).map
            markedHost), Text.lower b = Text.lower h := Jinja.exists_mem_unique hhost
        have howner : b ∈ mOwners (seen (zoneRecords first) d) := by
          rw [mOwners, if_pos hform]
          exact Jinja.mem_sort.mpr hb
        obtain rfl := host_inj (mUnknown_eq_nil.mp hknown b howner) hnode hlower
        refine List.mem_append_right _ ?_
        rw [kept, if_pos ⟨hmark, hform, hknown⟩]
        exact List.mem_filter.mpr ⟨howner, decide_eq_true ⟨hrun, hdomain⟩⟩

theorem exact_ttl {site : Site} {rs : List Record} {want : List Text}
    (hexact : exact site rs want = true) : ∀ r ∈ rs, r.ttl = site.recordTtl := by
  rw [exact, Bool.and_eq_true, decide_eq_true_iff, decide_eq_true_iff] at hexact
  intro r hr
  obtain ⟨n, hn, hkey⟩ : ∃ n ∈ Jinja.unique id (rs.map Record.ttl), id n = id r.ttl :=
    Jinja.exists_mem_unique (List.mem_map_of_mem hr)
  rw [hexact.2, List.mem_singleton] at hn
  rw [← hn]
  exact hkey.symm

theorem holds_of_exact {site : Site} {rs : List Record} {want : List Text} {p : Text → Prop}
    (hexact : exact site rs want = true) (hnodup : want.Nodup) (hmem : ∀ c, c ∈ want ↔ p c) :
    Holds site rs p := by
  refine ⟨?_, fun c => ?_, exact_ttl hexact⟩
  all_goals rw [exact, Bool.and_eq_true, decide_eq_true_iff] at hexact
  · rw [← hexact.1] at hnodup
    exact (Jinja.sort_perm _).nodup_iff.mp hnodup
  · rw [← hmem c, ← hexact.1]
    exact Jinja.mem_sort.symm

theorem wantMark_nodup {owners : List Text} (h : owners.Nodup) : (wantMark owners).Nodup := by
  refine (Jinja.sort_perm _).nodup_iff.mpr (h.map fun a b hab => ?_)
  rw [← markedHost_mark a, hab, markedHost_mark]

theorem eq_singleton_of_exact {site : Site} {recs : List Record} {name type c : Text}
    (hexact : exact site (rrset recs name type) [c] = true) :
    rrset recs name type = [⟨name, site.recordTtl, type, c⟩] := by
  have httl := exact_ttl hexact
  rw [exact, Bool.and_eq_true, decide_eq_true_iff] at hexact
  have hcontents : contents (rrset recs name type) = [c] :=
    List.perm_singleton.mp (hexact.1 ▸ (Jinja.sort_perm _).symm)
  obtain ⟨r, hr⟩ := List.length_eq_one_iff.mp
    ((List.length_map Record.content).symm.trans (congrArg List.length hcontents))
  have hmem : r ∈ rrset recs name type := by
    rw [hr]
    exact List.mem_singleton_self r
  obtain ⟨-, hname, htype⟩ := mem_rrset.mp hmem
  have hrttl := httl r hmem
  rw [hr] at hcontents ⊢
  have hcontent : r.content = c := List.singleton_inj.mp hcontents
  rw [← hname, ← htype, ← hrttl, ← hcontent]

theorem serves_of_met {site : Site} (hform : WellFormed site) (hd : Answered site d)
    (hclear : Clear site (seen (zoneRecords first) d) d) {zones : List Text}
    (hbetween : Between site zones first listing)
    (hmet : ∀ g ∈ goals site (seen (zoneRecords first) d) d, met site g listing = true) :
    Serves site (zoneRecords listing) d
      (· ∈ wanted site (seen (zoneRecords first) d) d) := by
  have howners : ∀ h ∈ wanted site (seen (zoneRecords first) d) d, HostForm site h :=
    fun _ hh => wanted_form hform hh
  have hother : (seen (zoneRecords listing) d).wildOther = [] := by
    refine others_eq_nil.mpr fun r hr hname => ?_
    by_contra htype
    have ht := (wild_types_congr hform hd hbetween).mp
      (mem_wild_types.mpr ⟨htype, List.ne_nil_of_mem (mem_rrset.mpr ⟨hr, hname, rfl⟩)⟩)
    have hgone := hmet _ (mem_goals.mpr (.inr (.inr (.inr (.inl ⟨_, ht.1, rfl⟩)))))
    exact ht.2 (List.isEmpty_iff.mp hgone)
  refine ⟨?_, ?_, ?_, ?_, ?_, ?_⟩
  · exact holds_of_exact (hmet _ (mem_goals.mpr (.inr (.inl rfl))))
      (nodup_of_sorted (Jinja.pairwise_sort_unique _)) fun c => mem_ips howners
  · rintro ⟨h, hh, hne⟩
    have hsix : ips6 site (wanted site (seen (zoneRecords first) d) d) ≠ [] :=
      List.ne_nil_of_mem ((mem_ips6 howners).mpr ⟨hne, h, hh, rfl⟩)
    exact holds_of_exact (hmet _ (mem_goals.mpr (.inr (.inr (.inl ⟨hsix, rfl⟩)))))
      (nodup_of_sorted (Jinja.pairwise_sort_unique _)) fun c => mem_ips6 howners
  · exact List.isEmpty_iff.mp (hmet _ (mem_goals.mpr (.inl rfl)))
  · have hcname : rrset (zoneRecords listing) (wild d) "CNAME" =
        [⟨wild d, site.recordTtl, "CNAME", apex d⟩] :=
      eq_singleton_of_exact (hmet _ (mem_goals.mpr (.inr (.inr (.inr (.inr (.inl rfl)))))))
    rw [← hcname]
    refine List.filter_congr fun r hr => ?_
    by_cases hname : r.name = wild d
    · rw [decide_eq_true hname, decide_eq_true ⟨hname, others_eq_nil.mp hother r hr hname⟩]
    · rw [decide_eq_false hname, decide_eq_false fun hboth => hname hboth.1]
  · exact others_eq_nil.mp (markOther_congr hform hd hbetween hclear.no_other)
  · refine holds_of_exact (hmet _ (mem_goals.mpr (.inr (.inr (.inr (.inr (.inr rfl)))))))
      (wantMark_nodup (wanted_nodup _ _ _)) fun c => ?_
    exact Jinja.mem_sort.trans List.mem_map

theorem converged_of_met (hd : d ∈ runDomains inv.toSite)
    (hclear : Clear inv.toSite (seen (zoneRecords first) d) d) {zones : List Text}
    (hbetween : Between inv.toSite zones first listing)
    (hmet : ∀ g ∈ goals inv.toSite (seen (zoneRecords first) d) d,
      met inv.toSite g listing = true) :
    Converged inv.toSite (zoneRecords first) (zoneRecords listing) d := by
  have hsame : (· ∈ wanted inv.toSite (seen (zoneRecords first) d) d) =
      WantedOwner inv.toSite (zoneRecords first) d := funext fun h => propext (mem_wanted_iff hclear)
  rw [Converged, ← hsame]
  exact serves_of_met inv.wellFormed (answered_run inv.wellFormed hd) hclear hbetween hmet

end Converged

section Applied

variable {site : Site} {allZones listing : List Text}

theorem between_self (site : Site) (zones listing : List Text) : Between site zones listing listing :=
  fun _ _ => .inl rfl

theorem op_run_goal (hfree : Undisputed site (zoneNames allZones) (zoneRecords listing)) :
    ∀ g ∈ (lbPlan site allZones listing).ops,
      g ∈ runGoals site (zoneNames allZones) (zoneRecords listing) := by
  intro g hg
  rw [plan_eq_open hfree] at hg
  exact List.mem_of_mem_filter hg

theorem between_applied (hform : WellFormed site)
    (hfree : Undisputed site (zoneNames allZones) (zoneRecords listing)) {gs : List Op}
    (hgs : ∀ g ∈ gs, g ∈ (lbPlan site allZones listing).ops) :
    Between site (zoneNames allZones) listing (applyOps site gs listing) :=
  Converge.inv_runAll (independent hform hfree) (fun g hg => op_run_goal hfree g (hgs g hg))
    (between_self _ _ _)

theorem met_applied (hform : WellFormed site)
    (hfree : Undisputed site (zoneNames allZones) (zoneRecords listing)) {g : Op}
    (hg : g ∈ runGoals site (zoneNames allZones) (zoneRecords listing)) :
    met site g (applyOps site (lbPlan site allZones listing).ops listing) = true := by
  rw [plan_eq_open hfree]
  exact Converge.met_of_runAll (independent hform hfree) (between_self _ _ _) hg

end Applied

/-- Planning after any prefix of a conflict-free plan continues it. -/
theorem replan_resumes (inv : Inventory) (allZones listing : List Text)
    (hfree : (lbPlan inv.toSite allZones listing).conflicts = []) (k : ℕ) :
    let first := (lbPlan inv.toSite allZones listing).ops
    let cut := applyOps inv.toSite (first.take k) listing
    let final := applyOps inv.toSite first listing
    (lbPlan inv.toSite allZones cut).conflicts = [] ∧
      applyOps inv.toSite (lbPlan inv.toSite allZones cut).ops cut = final ∧
      (lbPlan inv.toSite allZones final).ops = [] ∧
      ∀ h ∈ inv.recordsNodes,
        Served inv.toSite (zoneNames allZones) (zoneRecords listing) (domain inv.toSite h) →
          Converged inv.toSite (zoneRecords listing) (zoneRecords final)
            (domain inv.toSite h) := by
  have hundisputed := undisputed hfree
  have hindependent := independent inv.wellFormed hundisputed
  have hstart := between_self inv.toSite (zoneNames allZones) listing
  have hplan : ∀ s, Between inv.toSite (zoneNames allZones) listing s →
      (lbPlan inv.toSite allZones s).ops = Converge.todo (met inv.toSite)
        (runGoals inv.toSite (zoneNames allZones) (zoneRecords listing)) s :=
    fun s hs => plan_eq_todo hundisputed hs
  intro first cut final
  have hcut : Between inv.toSite (zoneNames allZones) listing cut :=
    between_applied inv.wellFormed hundisputed fun g hg => List.mem_of_mem_take hg
  have hfinal : Between inv.toSite (zoneNames allZones) listing final :=
    between_applied inv.wellFormed hundisputed fun g hg => hg
  refine ⟨conflicts_between hundisputed hcut, ?_, ?_, ?_⟩
  · exact Converge.replan_runAll hindependent hplan hstart k
  · have hend := Converge.replan hindependent hplan hstart first.length
    rw [List.take_length, List.drop_length] at hend
    exact hend
  · intro h hh hserved
    have hd : domain inv.toSite h ∈ runDomains inv.toSite :=
      mem_runDomains.mpr ⟨h, mem_nodes_iff.mpr hh, rfl⟩
    refine converged_of_met hd (hundisputed _ hd hserved).2 hfinal fun g hg => ?_
    exact met_applied inv.wellFormed hundisputed (mem_runGoals.mpr ⟨_, hd, hserved, hg⟩)

def oneAz : Inventory where
  toSite := fleet
  wellFormed := by decide
  distinct := by decide

/-- An empty zone, cut after the first of three operations. -/
theorem replan_resumes_one_az :
    (lbPlan fleet ["ex.test"] (applyOps fleet ((lbPlan fleet ["ex.test"] []).ops.take 1)
      [])).conflicts = [] ∧
    (lbPlan fleet ["ex.test"] (applyOps fleet (lbPlan fleet ["ex.test"] []).ops [])).ops = [] := by
  have h := replan_resumes oneAz ["ex.test"] [] (by decide) 1
  exact ⟨h.1, h.2.2.1⟩

end Provisioner.Powerdns
