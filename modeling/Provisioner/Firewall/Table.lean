import Provisioner.Firewall.Address
import Provisioner.Library.Casing
import Provisioner.Library.Jinja

/-!
# The static table

`cs-static.nft.j2`: the input chain of the host's own table, rendered from the
inventory, and what a chain decides about a packet. What `nft` makes of the
text of an address, or of a rule the operator wrote, is a parameter.
-/

namespace Provisioner.Firewall

open Text (lower join split)

inductive Protocol where
  | tcp (dport : ℕ)
  | udp (dport : ℕ)
  | icmp (type : Text)
  | icmpv6 (type : Text)
  | other
deriving DecidableEq, Repr

inductive CtState where
  | new
  | established
  | related
  | invalid
deriving DecidableEq, Repr

structure Packet where
  iifname : Text
  saddr : Address
  daddr : Address
  protocol : Protocol
  ctState : CtState
deriving DecidableEq, Repr

inductive Verdict where
  | accept
  | drop
deriving DecidableEq, Repr

/-- One condition of a rule; a `saddr` keeps the text the template writes. -/
inductive Match where
  | iifname (name : Text)
  | iifnameNe (name : Text)
  | saddr (family : Family) (address : Text)
  | saddrRun (family : Family)
  | daddrLinkLocal
  | tcpDport (ranges : List (ℕ × ℕ))
  | udpDport (ranges : List (ℕ × ℕ))
  | ctState (states : List CtState)
  | icmpType (types : List Text)
  | icmpv6Type (types : List Text)
deriving DecidableEq, Repr

inductive Rule where
  | rule (conditions : List Match) (verdict : Verdict)
  | statement (text : Text)
  | log
deriving DecidableEq, Repr

/-! ## What a chain decides -/

/-- How `nft` reads an address after `ip saddr` or `ip6 saddr`, and a whole rule. -/
structure Nft where
  saddr : Family → Text → Option (Address → Bool)
  statement : Text → Option (Packet → Option Verdict)

/-- A quoted interface name that ends in `*` is a wildcard. -/
def iifnameMatches (name iifname : Text) : Bool :=
  if name.getLast? = some '*' then Text.startswith iifname name.dropLast else iifname = name

def inRanges (ranges : List (ℕ × ℕ)) (port : ℕ) : Bool :=
  ranges.any fun r => r.1 ≤ port && port ≤ r.2

def fe80 : Network := ⟨.ipv6, 0xFE80 * 2 ^ 112, 64⟩

section

variable (nft : Nft) (run : List Address)

/-- `run` is what the sets `ssh_run4` and `ssh_run6` hold. -/
def Match.holds (p : Packet) : Match → Bool
  | .iifname name => iifnameMatches name p.iifname
  | .iifnameNe name => !iifnameMatches name p.iifname
  | .saddr family text =>
    match nft.saddr family text with
    | some covers => p.saddr.version = family && covers p.saddr
    | none => false
  | .saddrRun family => p.saddr.version = family && p.saddr ∈ run
  | .daddrLinkLocal => fe80.contains p.daddr
  | .tcpDport ranges =>
    match p.protocol with
    | .tcp port => inRanges ranges port
    | _ => false
  | .udpDport ranges =>
    match p.protocol with
    | .udp port => inRanges ranges port
    | _ => false
  | .ctState states => p.ctState ∈ states
  | .icmpType types =>
    match p.protocol with
    | .icmp type => type ∈ types
    | _ => false
  | .icmpv6Type types =>
    match p.protocol with
    | .icmpv6 type => type ∈ types
    | _ => false

def Rule.verdict (p : Packet) : Rule → Option Verdict
  | .rule conditions verdict => if conditions.all (Match.holds nft run p) then some verdict else none
  | .statement text =>
    match nft.statement text with
    | some decide => decide p
    | none => none
  | .log => none

def verdict (rules : List Rule) (p : Packet) : Verdict :=
  (rules.findSome? (Rule.verdict nft run p)).getD .drop

end

def Match.loads (nft : Nft) : Match → Bool
  | .saddr family text => (nft.saddr family text).isSome
  | _ => true

def Rule.loads (nft : Nft) : Rule → Bool
  | .rule conditions _ => conditions.all (Match.loads nft)
  | .statement text => (nft.statement text).isSome
  | .log => true

/-- `nft -f` takes the file only when it reads every rule. -/
def loads (nft : Nft) (rules : List Rule) : Bool := rules.all (Rule.loads nft)

/-! ## What the inventory says -/

/-- The ports of `cs_ports` the template names. -/
structure Ports where
  ssh : ℕ
  nodeExporter : ℕ
  tenantHttp : ℕ
  tenantHttps : ℕ
  tenantPortBegin : ℕ
  tenantPortEnd : ℕ
  dockerTls : ℕ
  agentHttp : ℕ
  cadvisor : ℕ
  haproxyStats : ℕ
  controllerHttp : ℕ
  controllerHttps : ℕ
  controllerAcmeBackend : ℕ
  metricsPrometheus : ℕ
  metricsLoki : ℕ
  dns : ℕ
  pdnsApi : ℕ
  postgres : ℕ
deriving DecidableEq, Repr

/-- A group that does not exist is empty, an address that is not set is `''`. -/
structure Vars where
  inventoryHostname : Text
  groupNames : List Text
  groups : Text → List Text
  primaryIp : Text → Text
  publicIp : Text → Text
  firewallTailnetHosts : List Text
  firewallTailnetRoutedHosts : List Text
  sshPort : Option ℕ
  csPorts : Ports
  firewallAllowSshFrom : List Text
  firewallTailscaleInterface : Text
  firewallTailscaleV4Range : Text
  firewallTailscaleV6Range : Text
  firewallTailscaleUdpPort : ℕ
  firewallIcmpTypes : List Text
  firewallIcmpv6Types : List Text
  firewallContainerInterfaces : List Text
  firewallContainerPorts : List ℕ
  firewallExtraAllowedIpv4 : List Text
  firewallExtraAllowedIpv6 : List Text
  firewallExtraInputRules : List Text
  firewallLogDropped : Bool

section

variable (v : Vars)

def sshPortSelf : ℕ := v.sshPort.getD v.csPorts.ssh

def tailnetSelf : Bool := v.inventoryHostname ∈ v.firewallTailnetHosts

def tailnetRoutedSelf : Bool := v.inventoryHostname ∈ v.firewallTailnetRoutedHosts

def sshNarrowed : Bool := !v.firewallAllowSshFrom.isEmpty

/-- The macro of that name, cut into its words as `accept_from` cuts it. -/
def peerAddresses (host : Text) : List Text :=
  let addresses := [v.primaryIp host, v.publicIp host].filter fun t => !t.isEmpty
  split (join [' '] (Jinja.unique lower addresses))

def familyOf (address : Text) : Family := if ':' ∈ address then .ipv6 else .ipv4

def port (n : ℕ) : List (ℕ × ℕ) := [(n, n)]

def accept (conditions : List Match) : Rule := .rule conditions .accept

def routed (hosts : List Text) : Bool :=
  tailnetRoutedSelf v && hosts.any fun h => h ∈ v.firewallTailnetRoutedHosts

def acceptFrom (hosts : List Text) (conditions : List Match) : List Rule :=
  (Jinja.sort lower hosts).flatMap (fun host => (peerAddresses v host).map fun address =>
    accept (.saddr (familyOf address) address :: conditions)) ++
  if routed v hosts then [accept (.iifname v.firewallTailscaleInterface :: conditions)] else []

/-! ## The input chain -/

def lo : Rule := accept [.iifname "lo"]

/-- The addresses of the tailnet are dropped on every other interface. -/
def antiSpoof : List Rule :=
  if tailnetSelf v then
    [.rule [.saddr .ipv4 v.firewallTailscaleV4Range,
        .iifnameNe v.firewallTailscaleInterface] .drop,
      .rule [.saddr .ipv6 v.firewallTailscaleV6Range,
        .iifnameNe v.firewallTailscaleInterface] .drop]
  else []

def conntrack : List Rule :=
  [accept [.ctState [.established, .related]], .rule [.ctState [.invalid]] .drop]

def icmp : List Rule :=
  [accept [.icmpType v.firewallIcmpTypes], accept [.icmpv6Type v.firewallIcmpv6Types],
    accept [.daddrLinkLocal, .udpDport (port 546)]]

def ssh : List Rule :=
  if sshNarrowed v then
    v.firewallAllowSshFrom.map (fun address =>
      accept [.saddr (familyOf address) address, .tcpDport (port (sshPortSelf v))]) ++
    [accept [.saddrRun .ipv4, .tcpDport (port (sshPortSelf v))],
      accept [.saddrRun .ipv6, .tcpDport (port (sshPortSelf v))]]
  else [accept [.tcpDport (port (sshPortSelf v))]]

def tailscaleUdp : List Rule :=
  if tailnetSelf v then [accept [.udpDport (port v.firewallTailscaleUdpPort)]] else []

def nodeExporter (hosts : List Text) : List Rule :=
  if hosts.isEmpty then [] else acceptFrom v hosts [.tcpDport (port v.csPorts.nodeExporter)]

/-- This host's own containers. -/
def containers : List Rule :=
  v.firewallContainerInterfaces.flatMap fun interface =>
    v.firewallContainerPorts.map fun n => accept [.iifname interface, .tcpDport (port n)]

def everyHost : List Rule :=
  ssh v ++ tailscaleUdp v ++ nodeExporter v (v.groups "metrics") ++ containers v

/-- The peers that are accepted ssh without being listed, when ssh is narrowed. -/
def sshFrom (hosts : List Text) : List Rule :=
  if sshNarrowed v then acceptFrom v hosts [.tcpDport (port (sshPortSelf v))] else []

def tenantPorts : List (ℕ × ℕ) := [(v.csPorts.tenantPortBegin, v.csPorts.tenantPortEnd)]

/-- The admin API: over the tailnet only, as soon as a controller routes over it. -/
def agentHttp (hosts : List Text) : List Rule :=
  if routed v hosts then
    [accept [.iifname v.firewallTailscaleInterface, .tcpDport (port v.csPorts.agentHttp)]]
  else acceptFrom v hosts [.tcpDport (port v.csPorts.agentHttp)]

def node : List Rule :=
  [accept [.tcpDport (port v.csPorts.tenantHttp ++ port v.csPorts.tenantHttps)],
    accept [.tcpDport (tenantPorts v)], accept [.udpDport (tenantPorts v)]] ++
  sshFrom v (v.groups "controller") ++
  acceptFrom v (v.groups "controller") [.tcpDport (port v.csPorts.dockerTls)] ++
  agentHttp v (v.groups "controller") ++
  acceptFrom v (v.groups "metrics")
    [.tcpDport (port v.csPorts.cadvisor ++ port v.csPorts.haproxyStats)]

def controller : List Rule :=
  accept [.tcpDport (port v.csPorts.controllerHttp ++ port v.csPorts.controllerHttps)] ::
  acceptFrom v (v.groups "nodes") [.tcpDport (port v.csPorts.controllerAcmeBackend)]

def metrics : List Rule :=
  accept [.tcpDport (port v.csPorts.controllerHttp)] ::
  (acceptFrom v (v.groups "controller") [.tcpDport (port v.csPorts.metricsPrometheus)] ++
  acceptFrom v (v.groups "controller" ++ v.groups "nodes")
    [.tcpDport (port v.csPorts.metricsLoki)])

def registry : List Rule :=
  sshFrom v (v.groups "controller") ++
  [accept [.tcpDport (port v.csPorts.controllerHttp)],
    accept [.tcpDport (port v.csPorts.tenantHttps)], accept [.tcpDport (tenantPorts v)]]

def nameserver : List Rule :=
  [accept [.tcpDport (port v.csPorts.dns)], accept [.udpDport (port v.csPorts.dns)]] ++
  acceptFrom v (v.groups "controller") [.tcpDport (port v.csPorts.pdnsApi)] ++
  acceptFrom v ((v.groups "nameservers").filter (· ≠ v.inventoryHostname))
    [.tcpDport (port v.csPorts.postgres)]

def backup : List Rule := sshFrom v (v.groups "nodes")

def member (group : Text) : Bool := group ∈ v.groupNames

def inGroup (group : Text) (rules : List Rule) : List Rule :=
  if member v group then rules else []

def groupRules : List Rule :=
  inGroup v "nodes" (node v) ++ inGroup v "controller" (controller v) ++
  inGroup v "metrics" (metrics v) ++ inGroup v "registry" (registry v) ++
  inGroup v "nameservers" (nameserver v) ++ inGroup v "backup" (backup v)

def extraAllowed : List Rule :=
  v.firewallExtraAllowedIpv4.map (fun address => accept [.saddr .ipv4 address]) ++
  v.firewallExtraAllowedIpv6.map fun address => accept [.saddr .ipv6 address]

def input : List Rule :=
  lo :: antiSpoof v ++ conntrack ++ icmp v ++ everyHost v ++ groupRules v ++ extraAllowed v ++
  v.firewallExtraInputRules.map Rule.statement ++
  if v.firewallLogDropped then [.log] else []

/-! ## What the preflight counts -/

def preflightSshPeerHosts : List Text :=
  (if member v "nodes" || member v "registry" then v.groups "controller" else []) ++
  if member v "backup" then v.groups "nodes" else []

def preflightSshAlso : List Text :=
  (v.firewallExtraAllowedIpv4 ++ v.firewallExtraAllowedIpv6 ++
    (preflightSshPeerHosts v).map v.primaryIp ++
    (preflightSshPeerHosts v).map v.publicIp).filter fun t => !t.isEmpty

end

end Provisioner.Firewall
