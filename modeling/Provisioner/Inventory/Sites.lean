import Provisioner.Inventory.Hosts

/-!
# The site checks and the site lookup

The preflight counts sites with a filter that ignores case, and the roles look
them up in a map that does not. The lookup is safe on what the checks accept
as long as no two nodes write one site in two ways.
-/

namespace Provisioner.Inventory

open Text (lower)

section

variable (inv : Hosts)

def preflightNodeSites : List Text :=
  Jinja.unique lower ((inv.groups "nodes").map (csSite inv))

def preflightMetricsSites : List Text := (inv.groups "metrics").map (csSite inv)

def preflightBackupSites : List Text := (inv.groups "backup").map (csSite inv)

def preflightInventorySites : List Text :=
  Jinja.unique lower
    (preflightNodeSites inv ++ preflightMetricsSites inv ++ preflightBackupSites inv)

/-- The sites are a difference, and only its length is looked at. -/
def preflightSitesWithoutMetrics : List Text :=
  (preflightNodeSites inv).filter fun s => s ∉ Dict.keys (csSiteMetricsHosts inv)

/-- The assertions of `tasks/main.yml` about sites. -/
structure SiteChecks : Prop where
  declared : 1 < (preflightInventorySites inv).length →
    ∀ h ∈ inv.groups "metrics" ++ inv.groups "backup", (inv.hostvars h).site.isSome = true
  one_metricsHost : (Jinja.unique lower (preflightMetricsSites inv)).length =
    (preflightMetricsSites inv).length
  metrics_everywhere : (preflightSitesWithoutMetrics inv).length = 0

/-- The lookup `cs_site_metrics_hosts[cs_site]` of every node finds the one
metrics host of its site. -/
def LookupAgrees : Prop :=
  ∀ h ∈ inv.groups "nodes", ∃ m, Dict.get (csSiteMetricsHosts inv) (csSite inv h) = some m ∧
    m ∈ inv.groups "metrics" ∧ csSite inv m = csSite inv h ∧
    ∀ m' ∈ inv.groups "metrics", csSite inv m' = csSite inv h → m' = m

def OneSpelling (hosts : List Text) (value : Text → Text) : Prop :=
  ∀ a ∈ hosts, ∀ b ∈ hosts, lower (value a) = lower (value b) → value a = value b

variable {inv}

theorem SiteChecks.metrics_nodup (h : SiteChecks inv) :
    ((preflightMetricsSites inv).map lower).Nodup :=
  Jinja.nodup_of_length_unique h.one_metricsHost

theorem SiteChecks.sites_nodup (h : SiteChecks inv) :
    ((inv.groups "metrics").map (csSite inv)).Nodup :=
  List.Nodup.of_map lower h.metrics_nodup

theorem SiteChecks.covered (h : SiteChecks inv) {s : Text} (hs : s ∈ preflightNodeSites inv) :
    ∃ m ∈ inv.groups "metrics", csSite inv m = s := by
  have hnil := List.length_eq_zero_iff.mp h.metrics_everywhere
  have hkey : s ∈ Dict.keys (csSiteMetricsHosts inv) := by
    have hnot := List.filter_eq_nil_iff.mp hnil s hs
    simpa using hnot
  exact (mem_keys_bySite (le_refl _)).mp hkey

/-- What the lookup gives for a host whose site some metrics host has. -/
theorem SiteChecks.lookup (h : SiteChecks inv) {m : Text} (hm : m ∈ inv.groups "metrics") :
    Dict.get (csSiteMetricsHosts inv) (csSite inv m) = some m := by
  have hget := get_bySite id h.sites_nodup hm
  rwa [List.map_id] at hget

theorem SiteChecks.only (h : SiteChecks inv) {m m' : Text} (hm : m ∈ inv.groups "metrics")
    (hm' : m' ∈ inv.groups "metrics") (hsite : csSite inv m' = csSite inv m) : m' = m :=
  List.inj_on_of_nodup_map h.sites_nodup hm' hm hsite

/-- On an inventory the site checks accept, the lookup agrees with them exactly
when no two nodes spell one site in two ways. -/
theorem lookup_agrees_iff (h : SiteChecks inv) :
    LookupAgrees inv ↔ OneSpelling (inv.groups "nodes") (csSite inv) := by
  constructor
  · intro hlookup a ha b hb hlower
    obtain ⟨m, -, hm, hma, -⟩ := hlookup a ha
    obtain ⟨m', -, hm', hmb, -⟩ := hlookup b hb
    have hsites : ∀ {x}, x ∈ inv.groups "metrics" → csSite inv x ∈ preflightMetricsSites inv :=
      fun hx => List.mem_map_of_mem hx
    have hsame : csSite inv m = csSite inv m' :=
      List.inj_on_of_nodup_map h.metrics_nodup (hsites hm) (hsites hm') (by rw [hma, hmb, hlower])
    rw [← hma, ← hmb, hsame]
  · intro hspelling a ha
    have hinj : ∀ s ∈ (inv.groups "nodes").map (csSite inv),
        ∀ t ∈ (inv.groups "nodes").map (csSite inv), lower s = lower t → s = t := by
      intro s hs t ht hlower
      obtain ⟨x, hx, rfl⟩ := List.mem_map.mp hs
      obtain ⟨y, hy, rfl⟩ := List.mem_map.mp ht
      exact hspelling x hx y hy hlower
    have hkept : csSite inv a ∈ preflightNodeSites inv :=
      (Jinja.mem_unique_of_inj hinj).mpr (List.mem_map_of_mem ha)
    obtain ⟨m, hm, hsite⟩ := h.covered hkept
    refine ⟨m, ?_, hm, hsite, ?_⟩
    · rw [← hsite]
      exact h.lookup hm
    · intro m' hm' hsite'
      exact h.only hm hm' (hsite'.trans hsite.symm)

/-! ## Two nodes of one site, written in two ways -/

/-- `node1` is in `East`, `node2` in `site2`. -/
def spelled (site2 : Text) : Hosts where
  groups group :=
    if group = "all" then ["metrics1", "node1", "node2"]
    else if group = "nodes" then ["node1", "node2"]
    else if group = "metrics" then ["metrics1"]
    else []
  hostvars h := { site := some (if h = "node2" then site2 else "East") }
  nodup group := by split_ifs <;> decide
  in_all group := by
    rw [if_pos rfl]
    split_ifs <;> decide

theorem site_checks_spelled : SiteChecks (spelled "East") ∧ SiteChecks (spelled "east") := by
  constructor
  · exact ⟨by decide, by decide, by decide⟩
  · exact ⟨by decide, by decide, by decide⟩

theorem lookup_agrees_east :
    LookupAgrees (spelled "East") ↔ OneSpelling ["node1", "node2"] (csSite (spelled "East")) :=
  lookup_agrees_iff site_checks_spelled.1

/-- The checks pass, and the map has no key for `node2`. -/
theorem lookup_misses : SiteChecks (spelled "east") ∧ ¬ LookupAgrees (spelled "east") := by
  refine ⟨site_checks_spelled.2, fun h => ?_⟩
  obtain ⟨m, hm, -⟩ := h "node2" (by decide)
  have hnone : Dict.get (csSiteMetricsHosts (spelled "east"))
      (csSite (spelled "east") "node2") = none := by decide
  rw [hnone] at hm
  cases hm

end

end Provisioner.Inventory
