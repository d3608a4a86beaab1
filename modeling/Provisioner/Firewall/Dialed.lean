import Provisioner.ControllerSeed.Manifest
import Provisioner.Firewall.Covered

/-!
# The addresses the fleet is told to dial

The manifest and the scrape targets choose between a peer's tailnet address and
its primary address, and the peer's table accepts the one or the other. The two
choices are made apart, from the inventory and the facts on one side and from
the inventory alone on the other.
-/

namespace Provisioner.Firewall

open Inventory
open ControllerSeed (hostTs hostTailnet agentHost acmeAddress)
open Text (lower split)

section

variable (inv : Hosts)

/-! ## The table of a host -/

def firewallTailnetHosts : List Text :=
  (inv.groups "all").filter fun h => (inv.hostvars h).tailscaleEnabled

def firewallTailnetRoutedHosts : List Text :=
  (firewallTailnetHosts inv).filter fun h => !(inv.hostvars h).tailscaleAccessOnly

def groupNames (h : Text) : List Text :=
  ["nodes", "controller", "metrics", "registry", "nameservers", "backup"].filter
    fun group => h ∈ inv.groups group

structure Tailnet where
  firewallTailscaleInterface : Text
  firewallTailscaleV4Range : Text
  firewallTailscaleV6Range : Text

/-- What the inventory says of the host and its peers; the rest, its ssh port and
the operator's own accepts among it, is the host's `own`. -/
def tableVars (net : Tailnet) (csPorts : Ports) (own : Vars) (h : Text) : Vars :=
  { own with
    inventoryHostname := h
    groupNames := groupNames inv h
    groups := inv.groups
    primaryIp := fun peer => (inv.hostvars peer).primaryIp
    publicIp := fun peer => (inv.hostvars peer).publicIp
    firewallTailnetHosts := firewallTailnetHosts inv
    firewallTailnetRoutedHosts := firewallTailnetRoutedHosts inv
    firewallTailscaleInterface := net.firewallTailscaleInterface
    firewallTailscaleV4Range := net.firewallTailscaleV4Range
    firewallTailscaleV6Range := net.firewallTailscaleV6Range
    csPorts := csPorts }

/-! ## Who dials whom -/

structure Dial where
  dialer : Text
  dialed : Text
  port : Ports → ℕ
  address : Text
  overTailnet : Bool

def agentDial (controllerHost host : Text) : Dial :=
  match agentHost inv controllerHost host with
  | some address => ⟨controllerHost, host, Ports.agentHttp, address, true⟩
  | none => ⟨controllerHost, host, Ports.agentHttp, (inv.hostvars host).primaryIp, false⟩

/-- `region.acme_server`, dialed from the node. -/
def acmeDial (controllerHost host : Text) : Dial where
  dialer := host
  dialed := controllerHost
  port := Ports.controllerAcmeBackend
  address := acmeAddress inv controllerHost host
  overTailnet := hostTailnet inv controllerHost && hostTailnet inv host

def routes (h : Text) : Bool :=
  (inv.hostvars h).tailscaleEnabled && !(inv.hostvars h).tailscaleAccessOnly

-- `tailscale_ip | default(ansible_local.computestacks.tailscale_ip | default(primary_ip))`
def metricsScrapeAddress (metricsHost host : Text) : Text :=
  if routes inv metricsHost && routes inv host then
    (inv.hostvars host).tailscaleIp.getD
      ((inv.hostvars host).localTailscaleIp.getD (inv.hostvars host).primaryIp)
  else (inv.hostvars host).primaryIp

def scrapeDial (metricsHost host : Text) (port : Ports → ℕ) : Dial where
  dialer := metricsHost
  dialed := host
  port := port
  address := metricsScrapeAddress inv metricsHost host
  overTailnet := routes inv metricsHost && routes inv host &&
    ((inv.hostvars host).tailscaleIp.isSome || (inv.hostvars host).localTailscaleIp.isSome)

/-- The hosts that are no nodes are scraped at their primary address. -/
def infraDial (metricsHost host : Text) : Dial :=
  ⟨metricsHost, host, Ports.nodeExporter, (inv.hostvars host).primaryIp, false⟩

def metricsFileSdJobs : List (Ports → ℕ) :=
  [Ports.nodeExporter, Ports.cadvisor, Ports.haproxyStats]

def metricsInfraNodeExporterGroups : List Text :=
  ["controller", "registry", "metrics", "backup", "nameservers"]

def metricsFileSdNodes (csNewNodes : List Text) (metricsHost : Text) : List Text :=
  Jinja.sort lower (csNewNodes.filter fun h => csSite inv h = csSite inv metricsHost)

/-- A host that was there before has no table of its own, and a metrics host
that was there before keeps its scrape configuration. -/
inductive IsDial (csNewNodes : List Text) : Dial → Prop
  | agent {c n : Text} : (inv.groups "controller").head? = some c → n ∈ csNewNodes →
      IsDial csNewNodes (agentDial inv c n)
  | acme {c n : Text} : (inv.groups "controller").head? = some c → n ∈ csNewNodes →
      (inv.hostvars n).controllerAcmeAddress = none → (inv.hostvars c).existingEnv = false →
      IsDial csNewNodes (acmeDial inv c n)
  | scrape {m n : Text} {port : Ports → ℕ} : m ∈ inv.groups "metrics" →
      n ∈ metricsFileSdNodes inv csNewNodes m → port ∈ metricsFileSdJobs →
      IsDial csNewNodes (scrapeDial inv m n port)
  | infra {m h group : Text} : m ∈ inv.groups "metrics" → (inv.hostvars m).existingEnv = false →
      group ∈ metricsInfraNodeExporterGroups → h ∈ inv.groups group →
      (inv.hostvars h).existingEnv = false → IsDial csNewNodes (infraDial inv m h)

/-! ## How a packet arrives -/

def IsAddress (t : Text) (a : Address) : Prop :=
  network t = some ⟨a.version, a.ip, a.version.width⟩

/-- To a tailnet address on the tailscale interface, to a primary address on
another one, from one of the dialer's addresses. -/
def Arrives (net : Tailnet) (d : Dial) (iifname : Text) (saddr : Address) : Prop :=
  if d.overTailnet then iifnameMatches net.firewallTailscaleInterface iifname = true
  else iifnameMatches net.firewallTailscaleInterface iifname = false ∧
    iifnameMatches "lo" iifname = false ∧
    (IsAddress (inv.hostvars d.dialer).primaryIp saddr ∨
      IsAddress (inv.hostvars d.dialer).publicIp saddr)

def dialPacket (csPorts : Ports) (d : Dial) (iifname : Text) (saddr daddr : Address) : Packet :=
  ⟨iifname, saddr, daddr, .tcp (d.port csPorts), .new⟩

/-- Whatever else a host's table holds, it accepts what is dialed. -/
def AcceptsDials (nft : Nft) (net : Tailnet) (csNewNodes : List Text) : Prop :=
  ∀ (csPorts : Ports) (own : Vars) (run : List Address) (d : Dial), IsDial inv csNewNodes d →
    ∀ iifname saddr daddr, Arrives inv net d iifname saddr →
      verdict nft run (input (tableVars inv net csPorts own d.dialed))
        (dialPacket csPorts d iifname saddr daddr) = .accept

/-- `nft` reads the addresses of the inventory. -/
def Loadable (nft : Nft) : Prop :=
  ∀ host ∈ inv.groups "all", ∀ t, t = (inv.hostvars host).primaryIp ∨
    t = (inv.hostvars host).publicIp → ∀ w ∈ split t, (nft.saddr (familyOf w) w).isSome = true

/-! ## When the two sides agree -/

/-- The host is on the tailnet and the address is one of its ranges, so its
table takes it for spoofed on any other interface. -/
def inRange (nft : Nft) (net : Tailnet) (h : Text) (a : Address) : Bool :=
  (inv.hostvars h).tailscaleEnabled &&
    (Match.holds nft [] ⟨[], a, a, .other, .new⟩ (.saddr .ipv4 net.firewallTailscaleV4Range) ||
      Match.holds nft [] ⟨[], a, a, .other, .new⟩ (.saddr .ipv6 net.firewallTailscaleV6Range))

structure Agrees (nft : Nft) (net : Tailnet) (csNewNodes : List Text) : Prop where
  -- where the node and the controller both route over the tailnet, both addresses are known
  known : ∀ c n, (inv.groups "controller").head? = some c → n ∈ csNewNodes →
    routes inv c = true → routes inv n = true → hostTs inv c ≠ [] ∧ hostTs inv n ≠ [] ∨
      ∀ iifname saddr, ¬ Arrives inv net (agentDial inv c n) iifname saddr
  outside : ∀ d, IsDial inv csNewNodes d → d.overTailnet = false → ∀ iifname saddr,
    Arrives inv net d iifname saddr → inRange inv nft net d.dialed saddr = false

end

/-! ## The inventory behind the table -/

section

variable {inv : Hosts} {net : Tailnet} {csPorts : Ports} {own : Vars} {nft : Nft}
  {run : List Address} {csNewNodes : List Text} {d : Dial} {h : Text} {iifname : Text}
  {saddr daddr : Address}

theorem mem_tailnet_hosts : h ∈ firewallTailnetHosts inv ↔
    h ∈ inv.groups "all" ∧ (inv.hostvars h).tailscaleEnabled = true := by
  simp [firewallTailnetHosts]

theorem mem_routed_hosts :
    h ∈ firewallTailnetRoutedHosts inv ↔ h ∈ inv.groups "all" ∧ routes inv h = true := by
  simp [firewallTailnetRoutedHosts, mem_tailnet_hosts, routes, and_assoc]

theorem routed_iff {hosts : List Text} (hh : h ∈ inv.groups "all")
    (hostsAll : hosts ⊆ inv.groups "all") :
    routed (tableVars inv net csPorts own h) hosts = true ↔
      routes inv h = true ∧ ∃ peer ∈ hosts, routes inv peer = true := by
  simp only [routed, tailnetRoutedSelf, tableVars, Bool.and_eq_true, decide_eq_true_eq,
    List.any_eq_true, mem_routed_hosts]
  constructor
  · rintro ⟨⟨-, hself⟩, peer, hpeer, -, hroutes⟩
    exact ⟨hself, peer, hpeer, hroutes⟩
  · rintro ⟨hself, peer, hpeer, hroutes⟩
    exact ⟨⟨hh, hself⟩, peer, hpeer, hostsAll hpeer, hroutes⟩

theorem member_iff {group : Text}
    (hgroup : group ∈ (["nodes", "controller", "metrics", "registry", "nameservers", "backup"] :
      List Text)) :
    member (tableVars inv net csPorts own h) group = true ↔ h ∈ inv.groups group := by
  rw [member, decide_eq_true_eq, tableVars, groupNames, List.mem_filter, decide_eq_true_eq]
  exact and_iff_right hgroup

theorem IsDial.mem_all (hnew : IsNewNodes inv csNewNodes) (hd : IsDial inv csNewNodes d) :
    d.dialer ∈ inv.groups "all" ∧ d.dialed ∈ inv.groups "all" := by
  have hnode : ∀ {n}, n ∈ csNewNodes → n ∈ inv.groups "all" :=
    fun hn => inv.in_all "nodes" ((hnew.2 _).mp hn).1
  have hcontroller : ∀ {c}, (inv.groups "controller").head? = some c → c ∈ inv.groups "all" :=
    fun hc => inv.in_all "controller" (List.mem_of_head? hc)
  cases hd with
  | agent hc hn =>
    unfold agentDial
    split
    · exact ⟨hcontroller hc, hnode hn⟩
    · exact ⟨hcontroller hc, hnode hn⟩
  | acme hc hn => exact ⟨hnode hn, hcontroller hc⟩
  | scrape hm hn =>
    exact ⟨inv.in_all _ hm, hnode (List.mem_filter.mp (Jinja.mem_sort.mp hn)).1⟩
  | infra hm _ _ hh => exact ⟨inv.in_all _ hm, inv.in_all _ hh⟩

theorem IsDial.routes (hd : IsDial inv csNewNodes d) (htailnet : d.overTailnet = true) :
    routes inv d.dialer = true ∧ routes inv d.dialed = true := by
  have hroutes : ∀ {x}, hostTailnet inv x = true → Firewall.routes inv x = true := by
    intro x hx
    rw [hostTailnet, Bool.and_eq_true] at hx
    exact hx.1
  cases hd with
  | @agent c n hc hn =>
    unfold agentDial at htailnet ⊢
    cases hagent : agentHost inv c n with
    | none =>
      rw [hagent] at htailnet
      cases htailnet
    | some address =>
      unfold agentHost at hagent
      split_ifs at hagent with hboth
      rw [Bool.and_eq_true] at hboth
      exact hboth.imp hroutes hroutes
  | acme =>
    rw [acmeDial, Bool.and_eq_true] at htailnet
    exact ⟨hroutes htailnet.2, hroutes htailnet.1⟩
  | scrape =>
    rw [scrapeDial, Bool.and_eq_true, Bool.and_eq_true] at htailnet
    exact htailnet.1
  | infra => cases htailnet

theorem spoofed_eq (hh : h ∈ inv.groups "all") (p : Packet) :
    spoofed nft (tableVars inv net csPorts own h) p =
      (inRange inv nft net h p.saddr &&
        !iifnameMatches net.firewallTailscaleInterface p.iifname) := by
  have hself : tailnetSelf (tableVars inv net csPorts own h) =
      (inv.hostvars h).tailscaleEnabled := by
    rw [Bool.eq_iff_iff, tailnetSelf, decide_eq_true_eq]
    exact mem_tailnet_hosts.trans (and_iff_right hh)
  rw [spoofed, inTailnetRange, hself]
  rfl

/-! ## What the table has for a dial -/

theorem covers_of_isAddress {t : Text} (h : IsAddress t saddr) : covers saddr t = true := by
  refine covers_iff.mpr ⟨_, h, ?_⟩
  simp [Network.contains]

theorem accepts_dial (hreads : Reads nft) (hload : Loadable inv nft) {p : Packet}
    {hosts : List Text} {conditions : List Match} (hdialed : d.dialed ∈ inv.groups "all")
    (hostsAll : hosts ⊆ inv.groups "all") (hdialer : d.dialer ∈ hosts)
    (hroutes : d.overTailnet = true → routes inv d.dialer = true ∧ routes inv d.dialed = true)
    (harrives : Arrives inv net d p.iifname p.saddr)
    (hconditions : conditions.all (Match.holds nft run p) = true) :
    ∃ r ∈ acceptFrom (tableVars inv net csPorts own d.dialed) hosts conditions,
      Rule.verdict nft run p r = some .accept := by
  have haccept : ∀ {m : Match}, Match.holds nft run p m = true →
      Rule.verdict nft run p (accept (m :: conditions)) = some .accept := by
    intro m hm
    rw [accept, Rule.verdict, List.all_cons, hm, hconditions]
    rfl
  unfold Arrives at harrives
  split_ifs at harrives with htailnet
  · obtain ⟨hself, hself'⟩ := hroutes htailnet
    have hrouted := (@routed_iff inv net csPorts own d.dialed hosts hdialed hostsAll).mpr
      ⟨hself', d.dialer, hdialer, hself⟩
    refine ⟨_, List.mem_append_right _ ?_, haccept (m := .iifname _) harrives⟩
    rw [if_pos hrouted]
    exact List.mem_singleton_self _
  · obtain ⟨-, -, haddress⟩ := harrives
    obtain ⟨t, ht, haddress⟩ : ∃ t, (t = (inv.hostvars d.dialer).primaryIp ∨
        t = (inv.hostvars d.dialer).publicIp) ∧ IsAddress t p.saddr := by
      obtain haddress | haddress := haddress
      · exact ⟨_, .inl rfl, haddress⟩
      · exact ⟨_, .inr rfl, haddress⟩
    have hread : ∀ w ∈ peerAddresses (tableVars inv net csPorts own d.dialed) d.dialer,
        (nft.saddr (familyOf w) w).isSome = true := by
      intro w hw
      rw [peerAddresses, Text.split_join (by decide)] at hw
      obtain ⟨u, hu, hw⟩ := List.mem_flatMap.mp hw
      have hmem := (List.mem_filter.mp (Jinja.mem_of_mem_unique hu)).1
      exact hload d.dialer (hostsAll hdialer) u (by simpa [tableVars] using hmem) w hw
    have hzone : ∀ w ∈ peerAddresses (tableVars inv net csPorts own d.dialed) d.dialer,
        '%' ∉ w := by
      intro w hw hpercent
      have hsome := hread w hw
      rw [hreads.zone hpercent] at hsome
      cases hsome
    obtain ⟨w, hw, hcovers⟩ := exists_peer_address hzone ht (covers_of_isAddress haddress)
    refine ⟨_, mem_acceptFrom hdialer hw, haccept (m := .saddr _ _) ?_⟩
    exact holds_of_covers hreads (hread w hw) hcovers

theorem agentDial_eq (c n : Text) : (agentDial inv c n).dialer = c ∧
    (agentDial inv c n).dialed = n ∧ (agentDial inv c n).port = Ports.agentHttp ∧
    (agentDial inv c n).overTailnet = (hostTailnet inv c && hostTailnet inv n) := by
  unfold agentDial agentHost
  split_ifs with hboth
  · exact ⟨rfl, rfl, rfl, hboth.symm⟩
  · exact ⟨rfl, rfl, rfl, (Bool.not_eq_true _ |>.mp hboth).symm⟩

theorem hostTailnet_iff {x : Text} :
    hostTailnet inv x = true ↔ routes inv x = true ∧ hostTs inv x ≠ [] := by
  simp [hostTailnet, routes]

theorem mem_counted {v : Vars} {r : Rule} (h : r ∈ everyHost v ∨ r ∈ groupRules v) :
    r ∈ counted v := by
  simp only [counted, List.cons_append, List.mem_cons, List.mem_append]
  obtain h | h := h
  · exact .inr (.inl (.inl (.inr h)))
  · exact .inr (.inl (.inr h))

theorem mem_groupRules_node {v : Vars} {r : Rule} (hmember : member v "nodes" = true)
    (h : r ∈ node v) : r ∈ groupRules v := by
  have hgroup : r ∈ inGroup v "nodes" (node v) := by rwa [inGroup, if_pos hmember]
  simp only [groupRules, List.mem_append]
  exact .inl (.inl (.inl (.inl (.inl hgroup))))

theorem mem_groupRules_controller {v : Vars} {r : Rule} (hmember : member v "controller" = true)
    (h : r ∈ controller v) : r ∈ groupRules v := by
  have hgroup : r ∈ inGroup v "controller" (controller v) := by rwa [inGroup, if_pos hmember]
  simp only [groupRules, List.mem_append]
  exact .inl (.inl (.inl (.inl (.inr hgroup))))

theorem holds_tcpDport {p : Packet} {n : ℕ} {ranges : List (ℕ × ℕ)} (hp : p.protocol = .tcp n)
    (h : inRanges ranges n = true) : Match.holds nft run p (.tcpDport ranges) = true := by
  simp only [Match.holds, hp, h]

theorem inRanges_port (n : ℕ) : inRanges (port n) n = true := by simp [inRanges, port]

theorem agent_rule (hreads : Reads nft) (hload : Loadable inv nft)
    (hnew : IsNewNodes inv csNewNodes) (hone : (inv.groups "controller").length = 1)
    (hagrees : Agrees inv nft net csNewNodes) {c n : Text} {p : Packet}
    (hc : (inv.groups "controller").head? = some c) (hn : n ∈ csNewNodes)
    (harrives : Arrives inv net (agentDial inv c n) p.iifname p.saddr)
    (hport : p.protocol = .tcp csPorts.agentHttp) :
    ∃ r ∈ agentHttp (tableVars inv net csPorts own n) (inv.groups "controller"),
      Rule.verdict nft run p r = some .accept := by
  obtain ⟨hdialer, hdialed, -, htailnet⟩ := @agentDial_eq inv c n
  have hmem := IsDial.mem_all hnew (.agent hc hn)
  rw [hdialer, hdialed] at hmem
  have hcontroller : inv.groups "controller" = [c] := by
    obtain ⟨x, hx⟩ := List.length_eq_one_iff.mp hone
    rw [hx] at hc ⊢
    cases hc
    rfl
  have hsub : inv.groups "controller" ⊆ inv.groups "all" := inv.in_all "controller"
  have hdport : Match.holds nft run p (.tcpDport (port csPorts.agentHttp)) = true :=
    holds_tcpDport hport (inRanges_port _)
  unfold agentHttp
  split_ifs with hrouted
  · obtain ⟨hroutes, peer, hpeer, hpeer'⟩ := (routed_iff hmem.2 hsub).mp hrouted
    rw [hcontroller, List.mem_singleton] at hpeer
    subst hpeer
    obtain ⟨hts, hts'⟩ | hnone := hagrees.known peer n hc hn hpeer' hroutes
    · have hboth : (agentDial inv peer n).overTailnet = true := by
        rw [htailnet, hostTailnet_iff.mpr ⟨hpeer', hts⟩, hostTailnet_iff.mpr ⟨hroutes, hts'⟩]
        rfl
      rw [Arrives, if_pos hboth] at harrives
      have hiifname : Match.holds nft run p (.iifname net.firewallTailscaleInterface) = true :=
        harrives
      refine ⟨_, List.mem_singleton_self _, ?_⟩
      simp only [accept, Rule.verdict, List.all_cons, List.all_nil, tableVars, hiifname, hdport]
      rfl
    · exact absurd harrives (hnone _ _)
  · have hrule := @accepts_dial inv net csPorts own nft run (agentDial inv c n) hreads hload p
      (inv.groups "controller") [.tcpDport (port csPorts.agentHttp)]
    rw [hdialer, hdialed] at hrule
    refine hrule hmem.2 hsub (List.mem_of_head? hc) (fun ht => ?_) harrives (by simp [hdport])
    have hroutes := IsDial.routes (.agent hc hn) ht
    rwa [hdialer, hdialed] at hroutes

theorem scrape_rule (hreads : Reads nft) (hload : Loadable inv nft) {m : Text} {p : Packet}
    {conditions : List Match} (hm : m ∈ inv.groups "metrics") (hdialer : d.dialer = m)
    (hdialed : d.dialed ∈ inv.groups "all")
    (hroutes : d.overTailnet = true → routes inv d.dialer = true ∧ routes inv d.dialed = true)
    (harrives : Arrives inv net d p.iifname p.saddr)
    (hconditions : conditions.all (Match.holds nft run p) = true) :
    ∃ r ∈ acceptFrom (tableVars inv net csPorts own d.dialed) (inv.groups "metrics") conditions,
      Rule.verdict nft run p r = some .accept :=
  accepts_dial hreads hload hdialed (inv.in_all "metrics") (hdialer ▸ hm) hroutes harrives
    hconditions

theorem exporter_rule (hreads : Reads nft) (hload : Loadable inv nft) {m : Text} {p : Packet}
    (hm : m ∈ inv.groups "metrics") (hdialer : d.dialer = m)
    (hdialed : d.dialed ∈ inv.groups "all")
    (hroutes : d.overTailnet = true → routes inv d.dialer = true ∧ routes inv d.dialed = true)
    (harrives : Arrives inv net d p.iifname p.saddr)
    (hport : p.protocol = .tcp csPorts.nodeExporter) :
    ∃ r ∈ counted (tableVars inv net csPorts own d.dialed),
      Rule.verdict nft run p r = some .accept := by
  have hconditions : [Match.tcpDport (port csPorts.nodeExporter)].all
      (Match.holds nft run p) = true := by
    simp [holds_tcpDport hport (inRanges_port _)]
  obtain ⟨r, hr, hverdict⟩ := @scrape_rule inv net csPorts own nft run d hreads hload m p _ hm
    hdialer hdialed hroutes harrives hconditions
  have hne : (inv.groups "metrics").isEmpty = false := by
    cases hgroup : inv.groups "metrics" with
    | nil =>
      rw [hgroup] at hm
      cases hm
    | cons => rfl
  refine ⟨r, mem_counted (.inl ?_), hverdict⟩
  have hexporter : r ∈ nodeExporter (tableVars inv net csPorts own d.dialed)
      (inv.groups "metrics") := by
    rwa [nodeExporter, hne]
  simp only [everyHost, List.mem_append]
  exact .inl (.inr hexporter)

theorem dial_rule (hreads : Reads nft) (hload : Loadable inv nft)
    (hnew : IsNewNodes inv csNewNodes) (hone : (inv.groups "controller").length = 1)
    (hagrees : Agrees inv nft net csNewNodes) (hd : IsDial inv csNewNodes d) {p : Packet}
    (harrives : Arrives inv net d p.iifname p.saddr)
    (hport : p.protocol = .tcp (d.port csPorts)) :
    ∃ r ∈ counted (tableVars inv net csPorts own d.dialed),
      Rule.verdict nft run p r = some .accept := by
  obtain ⟨-, hall⟩ := IsDial.mem_all hnew hd
  have hroutes := fun ht => IsDial.routes hd ht
  cases hd with
  | @agent c n hc hn =>
    obtain ⟨-, hdialed, heq, -⟩ := @agentDial_eq inv c n
    rw [heq] at hport
    rw [hdialed]
    obtain ⟨r, hr, hverdict⟩ := @agent_rule inv net csPorts own nft run csNewNodes hreads hload
      hnew hone hagrees c n p hc hn harrives hport
    refine ⟨r, mem_counted (.inr (mem_groupRules_node ?_ ?_)), hverdict⟩
    · exact (member_iff (by decide)).mpr ((hnew.2 n).mp hn).1
    · simp only [node, List.mem_append]
      exact .inl (.inr hr)
  | @acme c n hc hn hunset hexisting =>
    have hdport : Match.holds nft run p (.tcpDport (port csPorts.controllerAcmeBackend)) =
        true := holds_tcpDport hport (inRanges_port _)
    obtain ⟨r, hr, hverdict⟩ := @accepts_dial inv net csPorts own nft run _ hreads hload p
      (inv.groups "nodes") [.tcpDport (port csPorts.controllerAcmeBackend)] hall
      (inv.in_all "nodes") ((hnew.2 n).mp hn).1 hroutes harrives
      (by simp [hdport])
    refine ⟨r, mem_counted (.inr (mem_groupRules_controller ?_ ?_)), hverdict⟩
    · exact (member_iff (by decide)).mpr (List.mem_of_head? hc)
    · exact List.mem_cons_of_mem _ hr
  | @scrape m n port' hm hn hjob =>
    have hnode : n ∈ csNewNodes := (List.mem_filter.mp (Jinja.mem_sort.mp hn)).1
    by_cases hexporter : port' = Ports.nodeExporter
    · subst hexporter
      exact exporter_rule hreads hload hm rfl hall hroutes harrives hport
    · have hranges : inRanges (port csPorts.cadvisor ++ port csPorts.haproxyStats)
          (port' csPorts) = true := by
        simp only [metricsFileSdJobs, List.mem_cons, List.not_mem_nil, or_false] at hjob
        obtain rfl | rfl | rfl := hjob
        · exact absurd rfl hexporter
        · simp [inRanges, port]
        · simp [inRanges, port]
      obtain ⟨r, hr, hverdict⟩ := @scrape_rule inv net csPorts own nft run _ hreads hload m p
        [.tcpDport (port csPorts.cadvisor ++ port csPorts.haproxyStats)] hm rfl hall hroutes
        harrives (by simp [holds_tcpDport hport hranges])
      refine ⟨r, mem_counted (.inr (mem_groupRules_node ?_ ?_)), hverdict⟩
      · exact (member_iff (by decide)).mpr ((hnew.2 n).mp hnode).1
      · simp only [node, List.mem_append]
        exact .inr hr
  | infra hm =>
    exact exporter_rule hreads hload hm rfl hall hroutes harrives hport

/-! ## What the table has for the agent port off the tailnet -/

def portsYml : Ports where
  ssh := 22
  dockerTls := 2376
  agentHttp := 8500
  controllerHttps := 443
  controllerHttp := 80
  controllerAcmeBackend := 3000
  metricsPrometheus := 3101
  metricsLoki := 3102
  nodeExporter := 9100
  cadvisor := 8080
  haproxyStats := 81
  tenantHttp := 80
  tenantHttps := 443
  tenantPortBegin := 10000
  tenantPortEnd := 50000
  dns := 53
  pdnsApi := 8081
  postgres := 5432

/-- A host whose operator has added nothing. -/
def plain : Vars where
  inventoryHostname := []
  groupNames := []
  groups _ := []
  primaryIp _ := []
  publicIp _ := []
  firewallTailnetHosts := []
  firewallTailnetRoutedHosts := []
  sshPort := none
  csPorts := portsYml
  firewallAllowSshFrom := []
  firewallTailscaleInterface := []
  firewallTailscaleV4Range := []
  firewallTailscaleV6Range := []
  firewallTailscaleUdpPort := 41641
  firewallIcmpTypes := ["echo-request"]
  firewallIcmpv6Types := ["echo-request"]
  firewallContainerInterfaces := ["br-*", "docker0"]
  firewallContainerPorts := []
  firewallExtraAllowedIpv4 := []
  firewallExtraAllowedIpv6 := []
  firewallExtraInputRules := []
  firewallLogDropped := false

def Closed (nft : Nft) (run : List Address) (p : Packet) (rules : List Rule) : Prop :=
  ∀ r ∈ rules, Rule.verdict nft run p r ≠ some .accept

section Closed

variable {p : Packet} {v : Vars}

theorem Closed.verdict {rules : List Rule} (h : Closed nft run p rules) :
    verdict nft run rules p = .drop := by
  unfold Firewall.verdict
  cases hfind : rules.findSome? (Rule.verdict nft run p) with
  | none => rfl
  | some w =>
    obtain ⟨r, hr, hw⟩ := List.exists_of_findSome?_eq_some hfind
    cases w with
    | accept => exact absurd hw (h r hr)
    | drop => rfl

@[simp] theorem closed_nil : Closed nft run p [] := fun _ h => absurd h List.not_mem_nil

@[simp] theorem closed_cons {r : Rule} {rules : List Rule} : Closed nft run p (r :: rules) ↔
    Rule.verdict nft run p r ≠ some .accept ∧ Closed nft run p rules := by
  simp [Closed]

@[simp] theorem closed_append {rules rules' : List Rule} :
    Closed nft run p (rules ++ rules') ↔ Closed nft run p rules ∧ Closed nft run p rules' := by
  simp only [Closed, List.mem_append, or_imp, forall_and]

theorem closed_ite {c : Prop} [Decidable c] {rules rules' : List Rule}
    (h : Closed nft run p rules) (h' : Closed nft run p rules') :
    Closed nft run p (if c then rules else rules') := by
  split_ifs
  · exact h
  · exact h'

theorem verdict_of_false {conditions : List Match} {m : Match} (hm : m ∈ conditions)
    (hfalse : Match.holds nft run p m = false) :
    Rule.verdict nft run p (accept conditions) ≠ some .accept := by
  rw [accept, Rule.verdict]
  split_ifs with hall
  · rw [List.all_eq_true] at hall
    rw [hall m hm] at hfalse
    cases hfalse
  · simp

theorem closed_acceptFrom {hosts : List Text} {conditions : List Match} {m : Match}
    (hm : m ∈ conditions) (hfalse : Match.holds nft run p m = false) :
    Closed nft run p (acceptFrom v hosts conditions) := by
  have hrule : ∀ first : Match, Rule.verdict nft run p (accept (first :: conditions)) ≠
      some .accept := fun first => verdict_of_false (List.mem_cons_of_mem first hm) hfalse
  refine closed_append.mpr ⟨?_, closed_ite ?_ closed_nil⟩
  · intro r hr
    obtain ⟨host, -, hr⟩ := List.mem_flatMap.mp hr
    obtain ⟨w, -, rfl⟩ := List.mem_map.mp hr
    exact hrule _
  · exact closed_cons.mpr ⟨hrule _, closed_nil⟩

theorem holds_tcp_false {ranges : List (ℕ × ℕ)} (hport : p.protocol = .tcp 8500)
    (hranges : inRanges ranges 8500 = false) :
    Match.holds nft run p (.tcpDport ranges) = false := by
  simp only [Match.holds, hport, hranges]

theorem tcp_ne_accept {ranges : List (ℕ × ℕ)} (hport : p.protocol = .tcp 8500)
    (hranges : inRanges ranges 8500 = false) :
    Rule.verdict nft run p (accept [.tcpDport ranges]) ≠ some .accept :=
  verdict_of_false (List.mem_singleton_self _) (holds_tcp_false hport hranges)

theorem udp_ne_accept {ranges : List (ℕ × ℕ)} (hport : p.protocol = .tcp 8500)
    (conditions : List Match) :
    Rule.verdict nft run p (accept (conditions ++ [.udpDport ranges])) ≠ some .accept := by
  refine verdict_of_false (List.mem_append_right _ (List.mem_singleton_self _)) ?_
  simp only [Match.holds, hport]

theorem closed_from {hosts : List Text} {ranges : List (ℕ × ℕ)} (hport : p.protocol = .tcp 8500)
    (hranges : inRanges ranges 8500 = false) :
    Closed nft run p (acceptFrom v hosts [.tcpDport ranges]) :=
  closed_acceptFrom (List.mem_singleton_self _) (holds_tcp_false hport hranges)

theorem closed_inGroup {group : Text} {rules : List Rule} (h : Closed nft run p rules) :
    Closed nft run p (inGroup v group rules) :=
  closed_ite h closed_nil

theorem closed_first (hport : p.protocol = .tcp 8500) (hnew : p.ctState = .new)
    (hlo : iifnameMatches "lo" p.iifname = false) :
    Closed nft run p (lo :: antiSpoof v ++ conntrack ++ icmp v) := by
  have hlo' : Rule.verdict nft run p lo ≠ some .accept :=
    verdict_of_false (List.mem_singleton_self _) hlo
  have hdrop : ∀ conditions : List Match,
      Rule.verdict nft run p (.rule conditions .drop) ≠ some .accept := by
    intro conditions
    rw [Rule.verdict]
    split_ifs <;> simp
  have hspoof : Closed nft run p (antiSpoof v) :=
    closed_ite (closed_cons.mpr ⟨hdrop _, closed_cons.mpr ⟨hdrop _, closed_nil⟩⟩) closed_nil
  simp only [List.cons_append, closed_cons, closed_append, conntrack, icmp, closed_nil]
  refine ⟨hlo', ⟨hspoof, ?_, hdrop _, trivial⟩, ?_, ?_,
    udp_ne_accept hport [.daddrLinkLocal], trivial⟩
  · exact verdict_of_false (List.mem_singleton_self _) (by simp [Match.holds, hnew])
  · exact verdict_of_false (List.mem_singleton_self _) (by simp only [Match.holds, hport])
  · exact verdict_of_false (List.mem_singleton_self _) (by simp only [Match.holds, hport])

theorem closed_everyHost (hport : p.protocol = .tcp 8500) (hports : v.csPorts = portsYml)
    (hssh : ssh v = [accept [.tcpDport (port 22)]]) (hcontainers : containers v = []) :
    Closed nft run p (everyHost v) := by
  have hexporter : Closed nft run p (nodeExporter v (v.groups "metrics")) :=
    closed_ite closed_nil (closed_from hport (by rw [hports]; decide))
  have htailscale : Closed nft run p (tailscaleUdp v) :=
    closed_ite (closed_cons.mpr ⟨udp_ne_accept hport [], closed_nil⟩) closed_nil
  simp only [everyHost, closed_append, hcontainers, closed_nil, hssh, closed_cons]
  exact ⟨⟨⟨⟨tcp_ne_accept hport (by decide), trivial⟩, htailscale⟩, hexporter⟩, trivial⟩

theorem closed_groupRules (hport : p.protocol = .tcp 8500) (hports : v.csPorts = portsYml)
    (hnarrow : sshNarrowed v = false)
    (hagent : Closed nft run p (agentHttp v (v.groups "controller"))) :
    Closed nft run p (groupRules v) := by
  have htenant : inRanges (tenantPorts v) 8500 = false := by
    rw [tenantPorts, hports]
    decide
  have hssh_from : ∀ hosts, Closed nft run p (sshFrom v hosts) := by
    intro hosts
    rw [sshFrom, hnarrow]
    exact closed_nil
  have hfrom : ∀ {hosts : List Text} {n : Ports → ℕ}, inRanges (port (n portsYml)) 8500 = false →
      Closed nft run p (acceptFrom v hosts [.tcpDport (port (n v.csPorts))]) :=
    fun h => closed_from hport (by rwa [hports])
  have hone : ∀ {n : Ports → ℕ}, inRanges (port (n portsYml)) 8500 = false →
      Rule.verdict nft run p (accept [.tcpDport (port (n v.csPorts))]) ≠ some .accept :=
    fun h => tcp_ne_accept hport (by rwa [hports])
  simp only [groupRules, closed_append]
  refine ⟨⟨⟨⟨⟨closed_inGroup ?_, closed_inGroup ?_⟩, closed_inGroup ?_⟩, closed_inGroup ?_⟩,
    closed_inGroup ?_⟩, closed_inGroup (hssh_from _)⟩
  · simp only [node, closed_append, closed_cons, closed_nil]
    exact ⟨⟨⟨⟨⟨tcp_ne_accept hport (by rw [hports]; decide), tcp_ne_accept hport htenant,
      udp_ne_accept hport [], trivial⟩, hssh_from _⟩, hfrom (n := Ports.dockerTls) (by decide)⟩,
      hagent⟩, closed_from hport (by rw [hports]; decide)⟩
  · exact closed_cons.mpr ⟨tcp_ne_accept hport (by rw [hports]; decide),
      hfrom (n := Ports.controllerAcmeBackend) (by decide)⟩
  · exact closed_cons.mpr ⟨hone (n := Ports.controllerHttp) (by decide), closed_append.mpr
      ⟨hfrom (n := Ports.metricsPrometheus) (by decide),
        hfrom (n := Ports.metricsLoki) (by decide)⟩⟩
  · simp only [registry, closed_append, closed_cons, closed_nil]
    exact ⟨hssh_from _, hone (n := Ports.controllerHttp) (by decide),
      hone (n := Ports.tenantHttps) (by decide), tcp_ne_accept hport htenant, trivial⟩
  · simp only [nameserver, closed_append, closed_cons, closed_nil]
    exact ⟨⟨⟨hone (n := Ports.dns) (by decide), udp_ne_accept hport [], trivial⟩,
      hfrom (n := Ports.pdnsApi) (by decide)⟩, hfrom (n := Ports.postgres) (by decide)⟩

/-- The ports of the other services are not the agent's, so off the tailnet
nothing accepts it where the table has the agent's rule for the tailnet only. -/
theorem closed_plain (hrouted : routed (tableVars inv net portsYml plain h)
      (inv.groups "controller") = true)
    (hport : p.protocol = .tcp 8500) (hnew : p.ctState = .new)
    (hlo : iifnameMatches "lo" p.iifname = false)
    (hother : iifnameMatches net.firewallTailscaleInterface p.iifname = false) :
    Closed nft run p (input (tableVars inv net portsYml plain h)) := by
  have hagent : Closed nft run p (agentHttp (tableVars inv net portsYml plain h)
      (inv.groups "controller")) := by
    rw [agentHttp, if_pos hrouted]
    exact closed_cons.mpr ⟨verdict_of_false List.mem_cons_self hother, closed_nil⟩
  have hinput : input (tableVars inv net portsYml plain h) =
      (lo :: antiSpoof (tableVars inv net portsYml plain h) ++ conntrack ++
        icmp (tableVars inv net portsYml plain h)) ++
      everyHost (tableVars inv net portsYml plain h) ++
      groupRules (tableVars inv net portsYml plain h) := by
    have hextra : extraAllowed (tableVars inv net portsYml plain h) = [] := rfl
    have hstatements : (tableVars inv net portsYml plain h).firewallExtraInputRules = [] :=
      rfl
    have hlog : (tableVars inv net portsYml plain h).firewallLogDropped = false := rfl
    rw [input, hextra, hstatements, hlog]
    simp
  rw [hinput]
  exact closed_append.mpr ⟨closed_append.mpr ⟨closed_first hport hnew hlo,
    closed_everyHost hport rfl rfl rfl⟩, closed_groupRules hport rfl rfl hagent⟩

end Closed

/-- The table of every host accepts what the fleet is told to dial exactly when
the tailnet addresses the manifest needs are known and nobody dials a member of
the tailnet from an address of the tailnet's range. -/
theorem accepts_dials_iff (hreads : Reads nft) (hload : Loadable inv nft)
    (hnew : IsNewNodes inv csNewNodes) (hone : (inv.groups "controller").length = 1) :
    AcceptsDials inv nft net csNewNodes ↔ Agrees inv nft net csNewNodes := by
  constructor
  · intro haccepts
    have hdropped : ∀ {d iifname saddr}, IsDial inv csNewNodes d →
        Arrives inv net d iifname saddr →
        verdict nft [] (input (tableVars inv net portsYml plain d.dialed))
          (dialPacket portsYml d iifname saddr saddr) ≠ .drop := by
      intro d iifname saddr hd harrives hdrop
      have haccept := haccepts portsYml plain [] d hd iifname saddr saddr harrives
      rw [hdrop] at haccept
      cases haccept
    constructor
    · intro c n hc hn hroutes hroutes'
      by_cases hts : hostTs inv c ≠ [] ∧ hostTs inv n ≠ []
      · exact .inl hts
      · refine .inr fun iifname saddr harrives => ?_
        have hd : IsDial inv csNewNodes (agentDial inv c n) := .agent hc hn
        obtain ⟨-, hdialed, hport, htailnet⟩ := @agentDial_eq inv c n
        have hmem := (IsDial.mem_all hnew hd).2
        have hprimary : (agentDial inv c n).overTailnet = false := by
          rw [htailnet, ← Bool.not_eq_true, Bool.and_eq_true, hostTailnet_iff, hostTailnet_iff]
          exact fun h => hts ⟨h.1.2, h.2.2⟩
        have hpath := harrives
        rw [Arrives, hprimary, if_neg Bool.false_ne_true] at hpath
        refine hdropped hd harrives (Closed.verdict (closed_plain ?_ ?_ rfl hpath.2.1 hpath.1))
        · refine (routed_iff hmem (inv.in_all "controller")).mpr ⟨?_, c, List.mem_of_head? hc,
            hroutes⟩
          rwa [hdialed]
        · rw [dialPacket, hport]
          rfl
    · intro d hd hprimary iifname saddr harrives
      have hpath := harrives
      rw [Arrives, hprimary, if_neg Bool.false_ne_true] at hpath
      cases hrange : inRange inv nft net d.dialed saddr with
      | false => rfl
      | true =>
        refine absurd (verdict_spoofed hpath.2.1 ?_) (hdropped hd harrives)
        rw [spoofed_eq (IsDial.mem_all hnew hd).2]
        simp [dialPacket, hrange, hpath.1]
  · intro hagrees csPorts own run d hd iifname saddr daddr harrives
    have hspoofed : spoofed nft (tableVars inv net csPorts own d.dialed)
        (dialPacket csPorts d iifname saddr daddr) = false := by
      rw [spoofed_eq (IsDial.mem_all hnew hd).2]
      cases htailnet : d.overTailnet with
      | false =>
        have hrange := hagrees.outside d hd htailnet iifname saddr harrives
        simp [dialPacket, hrange]
      | true =>
        rw [Arrives, htailnet, if_pos rfl] at harrives
        simp [dialPacket, harrives]
    obtain ⟨rest, hinput⟩ := input_eq (tableVars inv net csPorts own d.dialed)
    rw [hinput]
    exact verdict_append (counted_not_drop rfl hspoofed)
      (dial_rule hreads hload hnew hone hagrees hd harrives rfl) rest

end

/-! ## A controller whose tailnet address is not known -/

/-- A fleet on the tailnet; what is known of the controller's address is `portal_ip`. -/
def tailnetFleet (portalIp : Option Text) : Hosts where
  groups group :=
    if group = "all" then ["portal", "metrics1", "node1"]
    else if group = "controller" then ["portal"]
    else if group = "metrics" then ["metrics1"]
    else if group = "nodes" then ["node1"]
    else []
  hostvars h := {
    hostname := h
    primaryIp := if h = "portal" then "10.0.0.2" else if h = "node1" then "10.0.0.11" else "10.0.0.3"
    tailscaleEnabled := true
    localTailscaleIp := if h = "portal" then portalIp else some "100.64.0.11" }
  nodup group := by split_ifs <;> decide
  in_all group := by
    rw [if_pos rfl]
    split_ifs <;> decide

def tailscale0 : Tailnet := ⟨"tailscale0", "100.64.0.0/10", "fd7a:115c:a1e0::/48"⟩

theorem loadable_tailnetFleet (portalIp : Option Text) :
    Loadable (tailnetFleet portalIp) strictNft := by
  have hread : ∀ host ∈ (tailnetFleet none).groups "all",
      ∀ t ∈ [((tailnetFleet none).hostvars host).primaryIp,
        ((tailnetFleet none).hostvars host).publicIp],
      ∀ w ∈ split t, (strictNft.saddr (familyOf w) w).isSome = true := by decide
  intro host hhost t ht
  have hmem : t ∈ [((tailnetFleet portalIp).hostvars host).primaryIp,
      ((tailnetFleet portalIp).hostvars host).publicIp] := by simpa using ht
  exact hread host hhost t hmem

theorem new_nodes_tailnetFleet (portalIp : Option Text) :
    IsNewNodes (tailnetFleet portalIp) ["node1"] := by
  refine ⟨by decide, fun h => ⟨fun hh => ⟨hh, fun hex => ?_⟩, fun hh => hh.1⟩⟩
  have hnever : (false : Bool) = true := (mem_existing.mp hex).2
  cases hnever

theorem accepts_dials_known :
    AcceptsDials (tailnetFleet (some "100.64.0.2")) strictNft tailscale0 ["node1"] ↔
      Agrees (tailnetFleet (some "100.64.0.2")) strictNft tailscale0 ["node1"] :=
  accepts_dials_iff reads_strictNft (loadable_tailnetFleet _) (new_nodes_tailnetFleet _) rfl

/-- The manifest has no `agent_host`, and the node's table drops the controller's
packets to its primary address. -/
theorem agent_dial_dropped : Reads strictNft ∧ Loadable (tailnetFleet none) strictNft ∧
    IsNewNodes (tailnetFleet none) ["node1"] ∧
    ((tailnetFleet none).groups "controller").length = 1 ∧
    ¬ AcceptsDials (tailnetFleet none) strictNft tailscale0 ["node1"] := by
  refine ⟨reads_strictNft, loadable_tailnetFleet none, new_nodes_tailnetFleet none, rfl, ?_⟩
  intro haccepts
  have hdial : agentDial (tailnetFleet none) "portal" "node1" =
      ⟨"portal", "node1", Ports.agentHttp, "10.0.0.11", false⟩ := rfl
  have haddress : network "10.0.0.2" = some ⟨.ipv4, 0x0A000002, 32⟩ := by decide
  have harrives : Arrives (tailnetFleet none) tailscale0
      (agentDial (tailnetFleet none) "portal" "node1") "eth0" ⟨.ipv4, 0x0A000002⟩ := by
    rw [hdial, Arrives, if_neg Bool.false_ne_true]
    exact ⟨by decide, by decide, .inl haddress⟩
  have haccept := haccepts portsYml plain [] _ (.agent rfl (List.mem_singleton_self _)) "eth0"
    ⟨.ipv4, 0x0A000002⟩ ⟨.ipv4, 0x0A00000B⟩ harrives
  have hdrop : verdict strictNft [] (input (tableVars (tailnetFleet none) tailscale0 portsYml
      plain "node1")) ⟨"eth0", ⟨.ipv4, 0x0A000002⟩, ⟨.ipv4, 0x0A00000B⟩, .tcp 8500, .new⟩ =
      .drop := by decide
  rw [hdial] at haccept
  exact absurd (hdrop.symm.trans haccept) (by decide)

end Provisioner.Firewall
