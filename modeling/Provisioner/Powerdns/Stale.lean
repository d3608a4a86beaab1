import Provisioner.Powerdns.Goals

/-!
# The names reported as stale

A marker outside the domains of a run is reported when a node it names has
moved. A node outside the run may still answer on the name.
-/

namespace Provisioner.Powerdns

def markedDomain (mname : Text) : Text := (mname.drop 7).dropLast

def markerStrings (recs : List Record) (mname : Text) : List Text :=
  contents ((marks recs).filter fun r => r.name = mname)

/-- The marker names `h`, and no other spelling of it before. -/
def FirstNamed (recs : List Record) (mname h : Text) : Prop :=
  ((markerStrings recs mname).map markedHost).find? (fun b => Text.lower b = Text.lower h) = some h

/-- `h` has left the domain `x` for one that is served from the zone. -/
def Moved (site : Site) (zones : List Text) (recs : List Record) (x h : Text) : Prop :=
  domain site h ≠ x ∧ Served site zones recs (domain site h)

structure StaleMarker (site : Site) (zones : List Text) (recs : List Record) (mname : Text) :
    Prop where
  outside : markedDomain mname ∉ runDomains site
  wellformed : ∀ c ∈ markerStrings recs mname, isOwner c = true
  known : ∀ h, FirstNamed recs mname h → h ∈ site.inventoryNodes
  moved : ∃ h, FirstNamed recs mname h ∧ Moved site zones recs (markedDomain mname) h

section Marks

variable {site : Site} {zones listing : List Text} {recs : List Record} {mname x h : Text}

theorem isStale_iff : isStale site zones recs mname = true ↔ StaleMarker site zones recs mname := by
  have hnamed : ∀ h, h ∈ unique ((markerStrings recs mname).map markedHost) ↔
      FirstNamed recs mname h := fun h => Jinja.mem_unique_iff
  have hunfold : isStale site zones recs mname = true ↔
      ((markedDomain mname ∉ runDomains site ∧
        ∀ c ∈ markerStrings recs mname, isOwner c = true) ∧
        ∀ h ∈ unique ((markerStrings recs mname).map markedHost), h ∈ site.inventoryNodes) ∧
        ∃ h ∈ unique ((markerStrings recs mname).map markedHost),
          Moved site zones recs (markedDomain mname) h := by
    simp only [isStale, Bool.and_eq_true, List.all_eq_true, List.any_eq_true, decide_eq_true_eq]
    rfl
  rw [hunfold]
  simp only [hnamed]
  constructor
  · rintro ⟨⟨⟨houtside, hform⟩, hknown⟩, hmoved⟩
    exact ⟨houtside, hform, hknown, hmoved⟩
  · intro h
    exact ⟨⟨⟨h.outside, h.wellformed⟩, h.known⟩, h.moved⟩

theorem markedDomain_lower (h : Text.lower mname = mname) :
    Text.lower (markedDomain mname) = markedDomain mname := by
  have hsub : markedDomain mname ⊆ mname :=
    ((List.dropLast_sublist _).trans (List.drop_sublist 7 mname)).subset
  exact Text.lower_of_subset hsub h

theorem mem_stale : x ∈ stale site zones (zoneRecords listing) ↔
    ∃ r ∈ marks (zoneRecords listing), markedDomain r.name = x ∧
      StaleMarker site zones (zoneRecords listing) r.name := by
  have hlower : ∀ r ∈ marks (zoneRecords listing), Text.lower r.name = r.name := fun r hr =>
    (zone_record_form (List.mem_of_mem_filter hr)).1
  have hnames : ∀ m, m ∈ unique ((marks (zoneRecords listing)).map Record.name) ↔
      m ∈ (marks (zoneRecords listing)).map Record.name := by
    intro m
    refine Jinja.mem_unique_of_inj fun a ha b hb hab => ?_
    obtain ⟨r, hr, rfl⟩ := List.mem_map.mp ha
    obtain ⟨r', hr', rfl⟩ := List.mem_map.mp hb
    rwa [hlower r hr, hlower r' hr'] at hab
  rw [stale, sort, Jinja.mem_sort, unique, Jinja.mem_unique_of_inj]
  · simp only [List.mem_map, List.mem_filter, sort, Jinja.mem_sort, hnames, isStale_iff]
    constructor
    · rintro ⟨_, ⟨⟨r, hr, rfl⟩, hstale⟩, rfl⟩
      exact ⟨r, hr, rfl, hstale⟩
    · rintro ⟨r, hr, rfl, hstale⟩
      exact ⟨_, ⟨⟨r, hr, rfl⟩, hstale⟩, rfl⟩
  · intro a ha b hb hab
    have hfixed : ∀ t ∈ ((sort (unique ((marks (zoneRecords listing)).map Record.name))).filter
        (isStale site zones (zoneRecords listing))).map (fun m => (m.drop 7).dropLast),
        Text.lower t = t := by
      intro t ht
      obtain ⟨m, hm, rfl⟩ := List.mem_map.mp ht
      obtain ⟨r, hr, rfl⟩ := List.mem_map.mp ((hnames m).mp (Jinja.mem_sort.mp (List.mem_of_mem_filter hm)))
      exact markedDomain_lower (hlower r hr)
    rwa [hfixed a ha, hfixed b hb] at hab

end Marks

/-- No node of the run answers on a stale name, and a node its marker names has
moved to another domain. -/
theorem stale_outside_run (site : Site) (allZones listing : List Text)
    (hdistinct : ∀ a ∈ site.recordsNodes, ∀ b ∈ site.recordsNodes,
      Text.lower a = Text.lower b → a = b) :
    ∀ x ∈ (lbPlan site allZones listing).stale,
      (∀ h ∈ site.recordsNodes, domain site h ≠ x) ∧
      ∃ r ∈ marks (zoneRecords listing), markedDomain r.name = x ∧
        ∃ h ∈ site.inventoryNodes, r.content = ownerMark h ∧
          Moved site (zoneNames allZones) (zoneRecords listing) x h := by
  intro x hx
  obtain ⟨r, -, rfl, hstale⟩ := mem_stale.mp hx
  constructor
  · rintro h hh hdomain
    refine hstale.outside (mem_runDomains.mpr ⟨h, ?_, hdomain⟩)
    rw [nodes, sort, Jinja.mem_sort, unique, Jinja.mem_unique_of_inj hdistinct]
    exact hh
  · obtain ⟨h, hnamed, hmoved⟩ := hstale.moved
    obtain ⟨c, hc, rfl⟩ := List.mem_map.mp (List.mem_of_find?_eq_some hnamed)
    obtain ⟨r', hr', rfl⟩ := List.mem_map.mp hc
    obtain ⟨hmark, hname⟩ := List.mem_filter.mp hr'
    refine ⟨r', hmark, congrArg markedDomain (of_decide_eq_true hname), _,
      hstale.known _ hnamed, ?_, hmoved⟩
    exact (mark_markedHost (hstale.wellformed _ hc)).symm

/-- `node1` has left the domain it shared with `node2`; the run is for `node1`. -/
def movedNode : Site where
  csAppZone := "ex.test"
  recordTtl := 300
  nameStyle := .absolute
  inventoryNodes := ["node1", "node2"]
  hostvars h := if h = ("node1" : Text) then ⟨"new.ex.test", "192.0.2.1", []⟩
    else ⟨"old.ex.test", "192.0.2.2", []⟩
  recordsNodes := ["node1"]

def sharedMarker : List Text :=
  ["_cs-lb.old.ex.test.\t300\tIN\tTXT\t\"owner=node1\"",
    "_cs-lb.old.ex.test.\t300\tIN\tTXT\t\"owner=node2\""]

theorem stale_outside_run_moved : domain movedNode "node1" ≠ ("old.ex.test" : Text) :=
  (stale_outside_run movedNode ["ex.test"] sharedMarker (by decide) _
    (by decide)).1 "node1" (by decide)

theorem stale_name_in_use :
    ("old.ex.test" : Text) ∈ (lbPlan movedNode ["ex.test"] sharedMarker).stale ∧
      ("node2" : Text) ∈ movedNode.inventoryNodes ∧
      domain movedNode "node2" = ("old.ex.test" : Text) := by
  decide

end Provisioner.Powerdns
