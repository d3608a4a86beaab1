import Provisioner.ControllerSeed.Manifest
import Provisioner.Library.Flow
import Provisioner.Library.Words

/-!
# Nothing is missing from the manifest

Locations and sites come out of a filter that ignores case, and are compared
and looked up as they are written. The manifest is complete as long as the new
nodes write each region and each site in one way.
-/

namespace Provisioner.ControllerSeed

open Inventory
open Text (lower decimal)

/-! ## What the preflight accepts -/

/-- `$` also matches before a final line break. -/
def beforeBreak (t : Text) : Text := if t.getLast? = some '\n' then t.dropLast else t

def isLabelChar (c : Char) : Bool := c.isDigit || c.isLower || c == '-'

/-- `[a-z0-9]([a-z0-9-]*[a-z0-9])?` -/
def isLabel (t : Text) : Bool :=
  t.all isLabelChar && t.head?.any (· != '-') && t.getLast?.any (· != '-')

def bareDomain (t : Text) : Bool :=
  let labels := (beforeBreak t).splitOn '.'
  !t.isEmpty && 1 < labels.length && labels.all isLabel

def underZone (zone domain : Text) : Bool :=
  Text.endswith domain ("." ++ zone) || Text.endswith (beforeBreak domain) ("." ++ zone)

section

variable (inv : Hosts) (seed : SeedVars)

def preflightNodeAppDomains : List Text :=
  ((Jinja.sort lower (inv.groups "nodes")).map fun h => (inv.hostvars h).appDomain).reduceOption

structure AppDomainChecks : Prop where
  bare : ∀ h ∈ inv.groups "all", ∀ d ∈ (inv.hostvars h).appDomain, bareDomain d = true
  distinct : (Jinja.unique lower (preflightNodeAppDomains inv)).length =
    (preflightNodeAppDomains inv).length
  zone : seed.csAppZone ≠ [] ∧ 2 ≤ (seed.csAppZone.splitOn '.').length ∧
    (seed.csAppZone.splitOn '.').length ≤ 5
  under : ∀ h ∈ inv.groups "all", ∀ d ∈ (inv.hostvars h).appDomain,
    d = seed.csAppZone ∨ underZone seed.csAppZone d = true

/-- What the preflight asserts of an inventory that the manifest reads. -/
structure Preflight : Prop where
  oneNode_per_az : (Jinja.unique lower ((inv.groups "nodes").map fun h => (inv.hostvars h).az)).length =
    (inv.groups "nodes").length
  one_controller : (inv.groups "controller").length = 1
  sites : SiteChecks inv
  app_domains : AppDomainChecks inv seed

end

/-! ## Domains have one spelling -/

section Domains

variable {inv : Hosts} {seed : SeedVars}

theorem label_char_toNat {c : Char} (h : isLabelChar c = true) :
    c.toNat < 128 ∧ ¬ (65 ≤ c.toNat ∧ c.toNat ≤ 90) := by
  simp only [isLabelChar, Bool.or_eq_true, beq_iff_eq] at h
  obtain (h | h) | rfl := h
  · have hdigit : 48 ≤ c.toNat ∧ c.toNat ≤ 57 := Char.isDigit_iff_toNat.mp h
    omega
  · have hlow : (97 : ℕ) ≤ c.toNat := of_decide_eq_true (Bool.and_elim_left h)
    have hhigh : c.toNat ≤ 122 := of_decide_eq_true (Bool.and_elim_right h)
    omega
  · decide

theorem mem_beforeBreak {t : Text} {c : Char} (hc : c ∈ t) : c = '\n' ∨ c ∈ beforeBreak t := by
  unfold beforeBreak
  split_ifs with hlast
  · obtain ⟨s, rfl⟩ := List.getLast?_eq_some_iff.mp hlast
    rw [List.dropLast_concat]
    rcases List.mem_append.mp hc with hc | hc
    · exact .inr hc
    · exact .inl (List.mem_singleton.mp hc)
  · exact .inr hc

theorem lower_bare {t : Text} (h : bareDomain t = true) : lower t = t := by
  simp only [bareDomain, Bool.and_eq_true, List.all_eq_true] at h
  refine Text.lower_eq_self fun c hc => ?_
  obtain rfl | hc := mem_beforeBreak hc
  · decide
  · obtain rfl | ⟨part, hpart, hc⟩ := Text.mem_splitOn '.' hc
    · decide
    · have hlabel := h.2 part hpart
      simp only [isLabel, Bool.and_eq_true, List.all_eq_true] at hlabel
      exact label_char_toNat (hlabel.1.1 c hc)

theorem lower_zone {zone domain : Text} (hunder : underZone zone domain = true)
    (hdomain : lower domain = domain) : lower zone = zone := by
  have hsub : ∀ {t : Text}, Text.endswith t ("." ++ zone) = true → zone.Sublist t := by
    intro t ht
    have hsuffix : ("." ++ zone : Text) <:+ t := List.isSuffixOf_iff_suffix.mp ht
    exact (List.sublist_append_right _ _).trans hsuffix.sublist
  rw [underZone, Bool.or_eq_true] at hunder
  obtain hend | hend := hunder
  · exact Text.lower_of_subset (hsub hend).subset hdomain
  · refine Text.lower_of_subset ((hsub hend).trans ?_).subset hdomain
    unfold beforeBreak
    split_ifs
    · exact List.dropLast_sublist _
    · exact List.Sublist.refl _

/-- Where some host has a domain of its own, the zone is in lower case too. -/
theorem AppDomainChecks.domain (h : AppDomainChecks inv seed) {host : Text}
    (hhost : host ∈ inv.groups "all") :
    csAppDomain inv seed host = seed.csAppZone ∨
      lower (csAppDomain inv seed host) = csAppDomain inv seed host ∧
        lower seed.csAppZone = seed.csAppZone := by
  unfold csAppDomain
  cases hdomain : (inv.hostvars host).appDomain with
  | none => exact .inl rfl
  | some d =>
    simp only
    split_ifs
    · exact .inl rfl
    · obtain rfl | hunder := h.under host hhost d hdomain
      · exact .inl rfl
      · have hlower := lower_bare (h.bare host hhost d hdomain)
        exact .inr ⟨hlower, lower_zone hunder hlower⟩

theorem AppDomainChecks.spelling (h : AppDomainChecks inv seed) {hosts : List Text}
    (hostsAll : hosts ⊆ inv.groups "all") : OneSpelling hosts (csAppDomain inv seed) := by
  intro a ha b hb hlower
  obtain hza | ⟨hla, hzone⟩ := h.domain (hostsAll ha)
  · obtain hzb | ⟨hlb, hzone⟩ := h.domain (hostsAll hb)
    · rw [hza, hzb]
    · rw [hlb, hza, hzone] at hlower
      rw [hza, hlower]
  · obtain hzb | ⟨hlb, -⟩ := h.domain (hostsAll hb)
    · rw [hla, hzb, hzone] at hlower
      rw [hlower, hzb]
    · rwa [hla, hlb] at hlower

end Domains

/-! ## What a complete manifest lists -/

def placements (m : Manifest) : List (Text × Text × Text) :=
  m.locations.flatMap fun l => l.regions.flatMap fun r => r.nodes.map fun n =>
    (l.name, r.name, n.hostname)

def place (inv : Hosts) (h : Text) : Text × Text × Text :=
  ((inv.hostvars h).region, (inv.hostvars h).az, (inv.hostvars h).hostname)

/-- The manifest lists the nodes, each of them once and in its place, and no
zone refers to an endpoint that is not listed. -/
structure Lists (inv : Hosts) (csNewNodes : List Text) (m : Manifest) : Prop where
  placed : (placements m).Perm (csNewNodes.map (place inv))
  once : (m.locations.map Location.name).Nodup
  metric : ∀ listed, m.metricClients = some listed → ∀ l ∈ m.locations, ∀ r ∈ l.regions,
    r.metricClientEndpoint ∈ listed.map Client.endpoint
  log : ∀ listed, m.logClients = some listed → ∀ l ∈ m.locations, ∀ r ∈ l.regions,
    r.logClientEndpoint ∈ listed.map Client.endpoint

def Complete (inv : Hosts) (seed : SeedVars) (csNewNodes : List Text) : Prop :=
  ∃ m, manifest inv seed csNewNodes = some m ∧ Lists inv csNewNodes m

section

variable {inv : Hosts} {seed : SeedVars} {csNewNodes : List Text} {controllerHost host : Text}

theorem sort_unique_inj {values : List Text} {v w : Text}
    (hv : v ∈ Jinja.sort lower (Jinja.unique lower values))
    (hw : w ∈ Jinja.sort lower (Jinja.unique lower values)) (hlower : lower v = lower w) : v = w :=
  List.inj_on_of_nodup_map (Jinja.nodup_unique values) (Jinja.mem_sort.mp hv)
    (Jinja.mem_sort.mp hw) hlower

theorem nodup_sort_unique (values : List Text) :
    (Jinja.sort lower (Jinja.unique lower values)).Nodup :=
  (Jinja.sort_perm _).nodup_iff.mpr (List.Nodup.of_map lower (Jinja.nodup_unique values))

/-- Where the values have one spelling, none of them is hidden. -/
theorem mem_sort_unique_of_spelling {value : Text → Text} (h : OneSpelling csNewNodes value)
    (hhost : host ∈ csNewNodes) :
    value host ∈ Jinja.sort lower (Jinja.unique lower (csNewNodes.map value)) := by
  refine Jinja.mem_sort.mpr ((Jinja.mem_unique_of_inj ?_).mpr (List.mem_map_of_mem hhost))
  intro v hv w hw hlower
  obtain ⟨a, ha, rfl⟩ := List.mem_map.mp hv
  obtain ⟨b, hb, rfl⟩ := List.mem_map.mp hw
  exact h a ha b hb hlower

theorem spelling_of_mem {value : Text → Text} (h : ∀ a ∈ csNewNodes,
    value a ∈ Jinja.sort lower (Jinja.unique lower (csNewNodes.map value))) :
    OneSpelling csNewNodes value :=
  fun a ha b hb hlower => sort_unique_inj (h a ha) (h b hb) hlower

/-! ## One availability zone -/

theorem endpoint_lookup (site : Text) :
    Dict.get (controllerSeedSiteEndpoints inv seed csNewNodes) site =
      if site ∈ controllerSeedManifestSites inv csNewNodes then
        some (siteEndpoints inv seed site) else none := by
  rw [controllerSeedSiteEndpoints, Dict.get_map_pair]
  split_ifs <;> rfl

theorem region_eq_some {r : Region}
    (h : region inv seed csNewNodes controllerHost host = some r) :
    csSite inv host ∈ controllerSeedManifestSites inv csNewNodes ∧
      r.name = (inv.hostvars host).az ∧ r.nodes = [nodeEntry inv seed controllerHost host] ∧
      r.metricClientEndpoint = (siteEndpoints inv seed (csSite inv host)).metric ∧
      r.logClientEndpoint = (siteEndpoints inv seed (csSite inv host)).log := by
  unfold region at h
  obtain ⟨e, he, h⟩ := Option.bind_eq_some_iff.mp h
  obtain ⟨certificate, -, h⟩ := Option.bind_eq_some_iff.mp h
  cases h
  rw [endpoint_lookup] at he
  split_ifs at he with hsite
  cases he
  exact ⟨hsite, rfl, rfl, rfl, rfl⟩

theorem region_isSome (hsites : OneSpelling csNewNodes (csSite inv))
    (hdomains : OneSpelling csNewNodes (csAppDomain inv seed)) (hhost : host ∈ csNewNodes) :
    (region inv seed csNewNodes controllerHost host).isSome = true := by
  have hsite : csSite inv host ∈ controllerSeedManifestSites inv csNewNodes :=
    mem_sort_unique_of_spelling hsites hhost
  have hdomain : csAppDomain inv seed host ∈ csAppDomains inv seed csNewNodes :=
    mem_sort_unique_of_spelling hdomains hhost
  unfold region
  rw [endpoint_lookup, if_pos hsite, controllerSeedSharedCertificates, Dict.get_map_pair,
    if_pos hdomain]
  rfl

/-! ## Locations -/

theorem location_eq_some {name : Text} {l : Location}
    (h : location inv seed csNewNodes controllerHost name = some l) :
    l.name = name ∧ List.Forall₂
      (fun host r => region inv seed csNewNodes controllerHost host = some r)
      ((Jinja.sort lower csNewNodes).filter fun h => (inv.hostvars h).region = name) l.regions := by
  obtain ⟨regions, hregions, h⟩ := Option.bind_eq_some_iff.mp h
  cases h
  exact ⟨rfl, option_mapM_eq_some.mp hregions⟩

theorem placed_in_location {name : Text} {l : Location}
    (h : location inv seed csNewNodes controllerHost name = some l) :
    (l.regions.flatMap fun r => r.nodes.map fun n => (l.name, r.name, n.hostname)) =
      ((Jinja.sort lower csNewNodes).filter fun h => (inv.hostvars h).region = name).map
        (place inv) := by
  obtain ⟨rfl, hregions⟩ := location_eq_some h
  have hplaces : ∀ {hosts : List Text} {rs : List Region},
      (∀ x ∈ hosts, (inv.hostvars x).region = l.name) →
      List.Forall₂ (fun host r => region inv seed csNewNodes controllerHost host = some r)
        hosts rs →
      (rs.flatMap fun r => r.nodes.map fun n => (l.name, r.name, n.hostname)) =
        hosts.map (place inv) := by
    intro hosts rs hname hrel
    induction hrel with
    | nil => rfl
    | cons hr _ ih =>
      rw [List.forall_mem_cons] at hname
      obtain ⟨-, haz, hnodes, -, -⟩ := region_eq_some hr
      rw [List.flatMap_cons, List.map_cons, ih hname.2, haz, hnodes]
      simp [place, nodeEntry, hname.1]
  refine hplaces (fun x hx => ?_) hregions
  simpa using (List.mem_filter.mp hx).2

theorem placed_in_locations {names : List Text} {locations : List Location}
    (h : List.Forall₂ (fun name l => location inv seed csNewNodes controllerHost name = some l)
      names locations) :
    (locations.flatMap fun l => l.regions.flatMap fun r => r.nodes.map fun n =>
        (l.name, r.name, n.hostname)) =
      (names.flatMap fun name =>
        (Jinja.sort lower csNewNodes).filter fun h => (inv.hostvars h).region = name).map
          (place inv) ∧
      locations.map Location.name = names := by
  induction h with
  | nil => exact ⟨rfl, rfl⟩
  | cons hl _ ih =>
    obtain ⟨hplaced, hnames⟩ := ih
    rw [List.flatMap_cons, List.flatMap_cons, List.map_append, hplaced, placed_in_location hl,
      List.map_cons, hnames, (location_eq_some hl).1]
    exact ⟨rfl, rfl⟩

/-! ## Clients -/

theorem clients_spec {endpoint : Text → Option Text} {entry : Text → Text → Client}
    (hentry : ∀ s e, (entry s e).endpoint = e) {sites : List Text}
    (hsites : ∀ s ∈ sites, (endpoint s).isSome = true) (seen : List Text) :
    ∃ listed, clients endpoint entry seen sites = some listed ∧
      ∀ s ∈ sites, ∀ e, endpoint s = some e → e ∈ seen ∨ e ∈ listed.map Client.endpoint := by
  induction sites generalizing seen with
  | nil => exact ⟨[], rfl, fun s hs => absurd hs List.not_mem_nil⟩
  | cons s sites ih =>
    rw [List.forall_mem_cons] at hsites
    obtain ⟨e, he⟩ := Option.isSome_iff_exists.mp hsites.1
    by_cases hseen : e ∈ seen
    · obtain ⟨listed, hlisted, hmem⟩ := ih hsites.2 seen
      refine ⟨listed, by simp [clients, he, hseen, hlisted], ?_⟩
      rw [List.forall_mem_cons]
      refine ⟨fun e' he' => .inl ?_, hmem⟩
      rw [he] at he'
      cases he'
      exact hseen
    · obtain ⟨listed, hlisted, hmem⟩ := ih hsites.2 (seen ++ [e])
      refine ⟨entry s e :: listed, by simp [clients, he, hseen, hlisted], ?_⟩
      rw [List.forall_mem_cons, List.map_cons, hentry]
      constructor
      · intro e' he'
        rw [he] at he'
        cases he'
        exact .inr List.mem_cons_self
      · intro s' hs' e' he'
        obtain hmem | hmem := hmem s' hs' e' he'
        · rcases List.mem_append.mp hmem with hmem | hmem
          · exact .inl hmem
          · exact .inr (List.mem_singleton.mp hmem ▸ List.mem_cons_self)
        · exact .inr (List.mem_cons_of_mem e hmem)

/-- The endpoints of the sites of the new nodes are all listed. -/
theorem clients_listed {field : Endpoints → Text} {entry : Text → Text → Client}
    (hentry : ∀ s e, (entry s e).endpoint = e) :
    ∃ listed, clients (endpointOf inv seed csNewNodes field) entry []
        (controllerSeedManifestSites inv csNewNodes) = some listed ∧
      ∀ s ∈ controllerSeedManifestSites inv csNewNodes,
        field (siteEndpoints inv seed s) ∈ listed.map Client.endpoint := by
  have hendpoint : ∀ s ∈ controllerSeedManifestSites inv csNewNodes,
      endpointOf inv seed csNewNodes field s = some (field (siteEndpoints inv seed s)) := by
    intro s hs
    rw [endpointOf, endpoint_lookup, if_pos hs]
    rfl
  have hsome : ∀ s ∈ controllerSeedManifestSites inv csNewNodes,
      (endpointOf inv seed csNewNodes field s).isSome = true := by
    intro s hs
    rw [hendpoint s hs]
    rfl
  obtain ⟨listed, hlisted, hmem⟩ := clients_spec hentry hsome []
  refine ⟨listed, hlisted, fun s hs => ?_⟩
  obtain hnil | hmem := hmem s hs _ (hendpoint s hs)
  · cases hnil
  · exact hmem

/-! ## The whole manifest -/

theorem manifest_spec {m : Manifest} (h : manifest inv seed csNewNodes = some m) :
    (∀ listed, m.metricClients = some listed →
      metricClients inv seed csNewNodes = some listed) ∧
    (∀ listed, m.logClients = some listed → logClients inv seed csNewNodes = some listed) ∧
    ∃ controllerHost, List.Forall₂
      (fun name l => location inv seed csNewNodes controllerHost name = some l)
      (nodeRegions inv csNewNodes) m.locations := by
  obtain ⟨controllerHost, -, h⟩ := Option.bind_eq_some_iff.mp h
  obtain ⟨metric, hmetric, h⟩ := Option.bind_eq_some_iff.mp h
  obtain ⟨log, hlog, h⟩ := Option.bind_eq_some_iff.mp h
  obtain ⟨locations, hlocations, h⟩ := Option.bind_eq_some_iff.mp h
  cases h
  have hclients : ∀ {rendered : Option (List Client)} {o : Option (List Client)},
      withGlobals seed rendered = some o →
        ∀ listed, o = some listed → rendered = some listed := by
    rintro rendered o ho listed rfl
    unfold withGlobals at ho
    split_ifs at ho
    · obtain ⟨cs, hcs, heq⟩ := Option.map_eq_some_iff.mp ho
      rwa [Option.some.inj heq] at hcs
    · cases ho
  exact ⟨hclients hmetric, hclients hlog, controllerHost, option_mapM_eq_some.mp hlocations⟩

theorem manifest_isSome {controllerHost : Text}
    (hcontroller : (inv.groups "controller").head? = some controllerHost)
    (hlocations : ∀ name ∈ nodeRegions inv csNewNodes,
      (location inv seed csNewNodes controllerHost name).isSome = true) :
    ∃ m, manifest inv seed csNewNodes = some m := by
  obtain ⟨metric, hmetric, -⟩ : ∃ listed, metricClients inv seed csNewNodes = some listed ∧ _ :=
    clients_listed fun _ _ => rfl
  obtain ⟨log, hlog, -⟩ : ∃ listed, logClients inv seed csNewNodes = some listed ∧ _ :=
    clients_listed fun _ _ => rfl
  obtain ⟨locations, hlocations⟩ := option_mapM_some hlocations
  have hglobals : ∀ listed : List Client, ∃ o, withGlobals seed (some listed) = some o := by
    intro listed
    unfold withGlobals
    split_ifs
    · exact ⟨_, rfl⟩
    · exact ⟨_, rfl⟩
  obtain ⟨metric', hmetric'⟩ := hglobals metric
  obtain ⟨log', hlog'⟩ := hglobals log
  refine ⟨⟨metric', log', locations⟩, ?_⟩
  unfold manifest
  simp only [hcontroller, hmetric, hlog, hmetric', hlog', hlocations, Option.bind_eq_bind,
    Option.bind_some]
  rfl

/-- The rendered zones are those of the new nodes whose region has a location. -/
theorem region_of_mem {m : Manifest} {controllerHost : Text}
    (hlocations : List.Forall₂
      (fun name l => location inv seed csNewNodes controllerHost name = some l)
      (nodeRegions inv csNewNodes) m.locations) {l : Location} (hl : l ∈ m.locations) {r : Region}
    (hr : r ∈ l.regions) :
    ∃ host ∈ csNewNodes, region inv seed csNewNodes controllerHost host = some r := by
  obtain ⟨name, -, hlocation⟩ := forall₂_right hlocations hl
  obtain ⟨-, hregions⟩ := location_eq_some hlocation
  obtain ⟨host, hhost, hregion⟩ := forall₂_right hregions hr
  exact ⟨host, Jinja.mem_sort.mp (List.mem_filter.mp hhost).1, hregion⟩

theorem region_rendered {m : Manifest} {controllerHost : Text}
    (hlocations : List.Forall₂
      (fun name l => location inv seed csNewNodes controllerHost name = some l)
      (nodeRegions inv csNewNodes) m.locations) (hhost : host ∈ csNewNodes)
    (hname : (inv.hostvars host).region ∈ nodeRegions inv csNewNodes) :
    ∃ r, region inv seed csNewNodes controllerHost host = some r := by
  obtain ⟨l, -, hlocation⟩ := forall₂_left hlocations hname
  obtain ⟨-, hregions⟩ := location_eq_some hlocation
  have hmem : host ∈ (Jinja.sort lower csNewNodes).filter fun h =>
      (inv.hostvars h).region = (inv.hostvars host).region :=
    List.mem_filter.mpr ⟨Jinja.mem_sort.mpr hhost, decide_eq_true rfl⟩
  obtain ⟨r, -, hr⟩ := forall₂_left hregions hmem
  exact ⟨r, hr⟩

/-- On an inventory the preflight accepts, the manifest is complete exactly when
no two new nodes spell one region, or one site, in two ways. -/
theorem manifest_complete_iff (hpreflight : Preflight inv seed)
    (hnew : IsNewNodes inv csNewNodes) :
    Complete inv seed csNewNodes ↔
      OneSpelling csNewNodes (fun h => (inv.hostvars h).region) ∧
        OneSpelling csNewNodes (csSite inv) := by
  constructor
  · rintro ⟨m, hm, hlists⟩
    obtain ⟨-, -, controllerHost, hlocations⟩ := manifest_spec hm
    have hregions : ∀ a ∈ csNewNodes,
        (inv.hostvars a).region ∈ nodeRegions inv csNewNodes := by
      intro a ha
      have hplace := hlists.placed.mem_iff.mpr (List.mem_map_of_mem ha)
      obtain ⟨l, hl, hplace⟩ := List.mem_flatMap.mp hplace
      obtain ⟨r, -, hplace⟩ := List.mem_flatMap.mp hplace
      obtain ⟨n, -, hplace⟩ := List.mem_map.mp hplace
      have hname : l.name = (inv.hostvars a).region := congrArg Prod.fst hplace
      rw [← (placed_in_locations hlocations).2, ← hname]
      exact List.mem_map_of_mem hl
    constructor
    · exact spelling_of_mem hregions
    · apply spelling_of_mem
      intro a ha
      obtain ⟨r, hr⟩ := region_rendered hlocations ha (hregions a ha)
      exact (region_eq_some hr).1
  · rintro ⟨hregions, hsites⟩
    have hall : csNewNodes ⊆ inv.groups "all" := fun h hh =>
      inv.in_all "nodes" ((hnew.2 h).mp hh).1
    have hdomains := hpreflight.app_domains.spelling hall
    obtain ⟨controllerHost, hcontroller⟩ := List.length_eq_one_iff.mp hpreflight.one_controller
    have hhead : (inv.groups "controller").head? = some controllerHost := by rw [hcontroller]; rfl
    have hlocated : ∀ name ∈ nodeRegions inv csNewNodes,
        (location inv seed csNewNodes controllerHost name).isSome = true := by
      intro name _
      have hrendered : ∀ x ∈ (Jinja.sort lower csNewNodes).filter fun h =>
          (inv.hostvars h).region = name,
          (region inv seed csNewNodes controllerHost x).isSome = true := fun x hx =>
        region_isSome hsites hdomains (Jinja.mem_sort.mp (List.mem_filter.mp hx).1)
      obtain ⟨regions, hmap⟩ := option_mapM_some hrendered
      exact Option.isSome_iff_exists.mpr ⟨⟨name, regions⟩, by simp only [location, hmap]; rfl⟩
    obtain ⟨m, hm⟩ := manifest_isSome hhead hlocated
    obtain ⟨hmetric, hlog, controllerHost, hlocations⟩ := manifest_spec hm
    obtain ⟨hplaced, hnames⟩ := placed_in_locations hlocations
    refine ⟨m, hm, ?_, ?_, ?_, ?_⟩
    · rw [placements, hplaced]
      refine List.Perm.map _ ((Jinja.flatMap_filter_perm (nodup_sort_unique _) ?_).trans
        (Jinja.sort_perm _))
      exact fun a ha => mem_sort_unique_of_spelling hregions (Jinja.mem_sort.mp ha)
    · rw [hnames]
      exact nodup_sort_unique _
    · intro listed hlisted l hl r hr
      obtain ⟨host, -, hregion⟩ := region_of_mem hlocations hl hr
      obtain ⟨hsite, -, -, hendpoint, -⟩ := region_eq_some hregion
      obtain ⟨listed', hlisted', hmem⟩ : ∃ listed,
          metricClients inv seed csNewNodes = some listed ∧ _ := clients_listed fun _ _ => rfl
      have hsame := (hmetric listed hlisted).symm.trans hlisted'
      cases hsame
      rw [hendpoint]
      exact hmem _ hsite
    · intro listed hlisted l hl r hr
      obtain ⟨host, -, hregion⟩ := region_of_mem hlocations hl hr
      obtain ⟨hsite, -, -, -, hendpoint⟩ := region_eq_some hregion
      obtain ⟨listed', hlisted', hmem⟩ : ∃ listed,
          logClients inv seed csNewNodes = some listed ∧ _ := clients_listed fun _ _ => rfl
      have hsame := (hlog listed hlisted).symm.trans hlisted'
      cases hsame
      rw [hendpoint]
      exact hmem _ hsite

end

/-! ## Two nodes of one region, written in two ways -/

/-- `node1` is in `East`, `node2` in `region2`. -/
def spelledRegion (region2 : Text) : Hosts where
  groups group :=
    if group = "all" then ["controller1", "metrics1", "node1", "node2"]
    else if group = "controller" then ["controller1"]
    else if group = "nodes" then ["node1", "node2"]
    else if group = "metrics" then ["metrics1"]
    else []
  hostvars h := { az := h, hostname := h, region := if h = "node2" then region2 else "East" }
  nodup group := by split_ifs <;> decide
  in_all group := by
    rw [if_pos rfl]
    split_ifs <;> decide

def sampleSeed : SeedVars where
  existingEnv := false
  controllerSeedFullManifest := true
  controllerSeedCreateClients := true
  csMetricsDomain := "metrics.example.net"
  csAppZone := "apps.example.net"
  metricsPrometheus := 9090
  metricsLoki := 3100
  controllerAcmeBackend := 3000
  controllerSeedMetricEndpoint := "https://metrics.example.net:9090"
  controllerSeedLogEndpoint := "https://metrics.example.net:3100"
  controllerSeedNodeSshPort := 22
  credentials _ := ⟨"prometheus", "p", "loki", "l"⟩
  certificate _ := "pem"

theorem app_domains_spelledRegion (region2 : Text) :
    AppDomainChecks (spelledRegion region2) sampleSeed := by
  have hnone : ∀ h : Text, ((spelledRegion region2).hostvars h).appDomain = none := fun _ => rfl
  refine ⟨?_, rfl, by decide, ?_⟩
  · intro h _ d hd
    rw [hnone] at hd
    cases hd
  · intro h _ d hd
    rw [hnone] at hd
    cases hd

theorem preflight_spelledRegion :
    Preflight (spelledRegion "East") sampleSeed ∧
      Preflight (spelledRegion "east") sampleSeed := by
  constructor
  · exact ⟨by decide, by decide,
      ⟨by decide, by decide, by decide⟩, app_domains_spelledRegion _⟩
  · exact ⟨by decide, by decide,
      ⟨by decide, by decide, by decide⟩, app_domains_spelledRegion _⟩

theorem new_nodes_spelledRegion (region2 : Text) :
    IsNewNodes (spelledRegion region2) ["node1", "node2"] := by
  refine ⟨by decide, fun h => ⟨fun hh => ⟨hh, fun hex => ?_⟩, fun hh => hh.1⟩⟩
  have hnever : (false : Bool) = true := (mem_existing.mp hex).2
  cases hnever

theorem manifest_complete_east :
    Complete (spelledRegion "East") sampleSeed ["node1", "node2"] ↔
      OneSpelling ["node1", "node2"] (fun h => ((spelledRegion "East").hostvars h).region) ∧
        OneSpelling ["node1", "node2"] (csSite (spelledRegion "East")) :=
  manifest_complete_iff preflight_spelledRegion.1 (new_nodes_spelledRegion "East")

/-- `east` gets no location, and its node is not seeded. -/
theorem manifest_drops_region :
    Preflight (spelledRegion "east") sampleSeed ∧
      IsNewNodes (spelledRegion "east") ["node1", "node2"] ∧
      ¬ Complete (spelledRegion "east") sampleSeed ["node1", "node2"] := by
  refine ⟨preflight_spelledRegion.2, new_nodes_spelledRegion "east", ?_⟩
  rintro ⟨m, hm, hlists⟩
  have hone : (manifest (spelledRegion "east") sampleSeed ["node1", "node2"]).map
      (fun m => (placements m).length) = some 1 := by decide
  rw [hm] at hone
  have hlength : (placements m).length = 1 := Option.some.inj hone
  have htwo := hlists.placed.length_eq
  rw [hlength] at htwo
  cases htwo

end Provisioner.ControllerSeed
