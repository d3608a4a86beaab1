import Provisioner.Firewall.Reading
import Provisioner.Firewall.Table

/-!
# A covered source gets in

A source the preflight filter covers is accepted ssh by the table rendered from
the same variables, except where the anti-spoof drop for the addresses of the
tailnet comes first.
-/

namespace Provisioner.Firewall

open Text (lower join split strip IsWord)

/-- What the table relies on `nft` for: it reads a network in its own family
only, host bits and all, and no address with a zone. -/
structure Reads (nft : Nft) : Prop where
  network : ∀ {family : Family} {t : Text} {inside : Address → Bool} {n : Network},
    nft.saddr family t = some inside → network t = some n →
      family = n.version ∧ ∀ a : Address, a.version = family → inside a = n.contains a
  zone : ∀ {family : Family} {t : Text}, '%' ∈ t → nft.saddr family t = none

/-! ## Chains -/

section

variable {nft : Nft} {run : List Address} {p : Packet}

/-- Where no rule drops and one accepts, what comes after them does not matter. -/
theorem verdict_append {rules : List Rule}
    (hdrop : ∀ r ∈ rules, Rule.verdict nft run p r ≠ some .drop)
    (haccept : ∃ r ∈ rules, Rule.verdict nft run p r = some .accept) (rest : List Rule) :
    verdict nft run (rules ++ rest) p = .accept := by
  obtain ⟨r, hr, hverdict⟩ := haccept
  have hsome : ∃ w, rules.findSome? (Rule.verdict nft run p) = some w := by
    rw [← Option.isSome_iff_exists, List.findSome?_isSome_iff]
    exact ⟨r, hr, by rw [hverdict]; rfl⟩
  obtain ⟨w, hw⟩ := hsome
  obtain ⟨r', hr', hw'⟩ := List.exists_of_findSome?_eq_some hw
  rw [verdict, List.findSome?_append, hw]
  cases w with
  | accept => rfl
  | drop => exact absurd hw' (hdrop r' hr')

def Accepting (rules : List Rule) : Prop := ∀ r ∈ rules, ∃ conditions, r = accept conditions

@[simp] theorem accepting_nil : Accepting [] := fun _ h => (nomatch h)

@[simp] theorem accepting_cons {conditions : List Match} {rules : List Rule} :
    Accepting (accept conditions :: rules) ↔ Accepting rules := by
  simp [Accepting]

@[simp] theorem accepting_append {rules rules' : List Rule} :
    Accepting (rules ++ rules') ↔ Accepting rules ∧ Accepting rules' := by
  simp only [Accepting, List.mem_append, or_imp, forall_and]

theorem accepting_ite {c : Prop} [Decidable c] {rules rules' : List Rule} (h : Accepting rules)
    (h' : Accepting rules') : Accepting (if c then rules else rules') := by
  split_ifs
  · exact h
  · exact h'

theorem accepting_map {α : Type} (f : α → List Match) (l : List α) :
    Accepting (l.map fun x => accept (f x)) := by
  intro r hr
  obtain ⟨x, -, rfl⟩ := List.mem_map.mp hr
  exact ⟨f x, rfl⟩

theorem accepting_flatMap {α : Type} {f : α → List Rule} (h : ∀ x, Accepting (f x)) (l : List α) :
    Accepting (l.flatMap f) := by
  intro r hr
  obtain ⟨x, -, hr⟩ := List.mem_flatMap.mp hr
  exact h x r hr

theorem Accepting.not_drop {rules : List Rule} (h : Accepting rules) :
    ∀ r ∈ rules, Rule.verdict nft run p r ≠ some .drop := by
  intro r hr
  obtain ⟨conditions, rfl⟩ := h r hr
  simp only [accept, Rule.verdict]
  split_ifs <;> exact fun h => (nomatch h)

end

/-! ## Every section but two only accepts -/

section

variable (v : Vars)

@[simp] theorem accepting_acceptFrom (hosts : List Text) (conditions : List Match) :
    Accepting (acceptFrom v hosts conditions) := by
  refine accepting_append.mpr ⟨?_, accepting_ite (by simp) accepting_nil⟩
  exact accepting_flatMap (fun host => accepting_map _ (peerAddresses v host)) _

@[simp] theorem accepting_ssh : Accepting (ssh v) :=
  accepting_ite (accepting_append.mpr ⟨accepting_map _ _, by simp⟩) (by simp)

@[simp] theorem accepting_sshFrom (hosts : List Text) : Accepting (sshFrom v hosts) :=
  accepting_ite (accepting_acceptFrom v hosts _) accepting_nil

@[simp] theorem accepting_inGroup {group : Text} {rules : List Rule} (h : Accepting rules) :
    Accepting (inGroup v group rules) :=
  accepting_ite h accepting_nil

theorem accepting_everyHost : Accepting (everyHost v) := by
  have htailscale : Accepting (tailscaleUdp v) := accepting_ite (by simp) accepting_nil
  have hexporter : ∀ hosts, Accepting (nodeExporter v hosts) :=
    fun hosts => accepting_ite accepting_nil (accepting_acceptFrom v hosts _)
  have hcontainers : Accepting (containers v) :=
    accepting_flatMap (fun interface => accepting_map _ v.firewallContainerPorts) _
  simp only [everyHost, accepting_append, accepting_ssh, htailscale, hexporter, hcontainers,
    and_self]

theorem accepting_node : Accepting (node v) := by
  have hagent : ∀ hosts, Accepting (agentHttp v hosts) :=
    fun hosts => accepting_ite (by simp) (accepting_acceptFrom v hosts _)
  simp only [node, accepting_append, accepting_cons, accepting_nil, accepting_sshFrom,
    accepting_acceptFrom, hagent, and_self]

theorem accepting_controller : Accepting (controller v) := by
  simp only [controller, accepting_cons, accepting_acceptFrom]

theorem accepting_metrics : Accepting (metrics v) := by
  simp only [metrics, accepting_cons, accepting_append, accepting_acceptFrom, and_self]

theorem accepting_registry : Accepting (registry v) := by
  simp only [registry, accepting_append, accepting_cons, accepting_nil, accepting_sshFrom,
    and_self]

theorem accepting_nameserver : Accepting (nameserver v) := by
  simp only [nameserver, accepting_append, accepting_cons, accepting_nil, accepting_acceptFrom,
    and_self]

theorem accepting_groupRules : Accepting (groupRules v) := by
  simp only [groupRules, accepting_append, accepting_inGroup, accepting_node,
    accepting_controller, accepting_metrics, accepting_registry, accepting_nameserver, backup,
    accepting_sshFrom, and_self]

theorem accepting_extraAllowed : Accepting (extraAllowed v) :=
  accepting_append.mpr ⟨accepting_map _ _, accepting_map _ _⟩

end

/-! ## The rule that lets a covered source in -/

section

variable {v : Vars} {nft : Nft} {run : List Address} {p : Packet} {a : Address}

theorem covers_iff {entry : Text} :
    covers a entry = true ↔ ∃ n, network entry = some n ∧ n.contains a = true := by
  unfold covers
  cases network entry with
  | none => simp
  | some n => simp [Network.contains]

theorem covers_congr {t u : Text} (h : network t = network u) : covers a t = covers a u := by
  rw [covers, covers, h]

theorem holds_of_covers (hreads : Reads nft) {family : Family} {entry : Text}
    (hload : (nft.saddr family entry).isSome = true) (h : covers p.saddr entry = true) :
    Match.holds nft run p (.saddr family entry) = true := by
  obtain ⟨inside, hinside⟩ := Option.isSome_iff_exists.mp hload
  obtain ⟨n, hn, hcontains⟩ := covers_iff.mp h
  obtain ⟨hfamily, heq⟩ := hreads.network hinside hn
  have hversion : p.saddr.version = family := by
    rw [Network.contains, Bool.and_eq_true, decide_eq_true_eq] at hcontains
    rw [hfamily, hcontains.1]
  simp only [Match.holds, hinside, hversion, decide_true, Bool.true_and]
  rw [heq _ hversion, hcontains]

theorem exists_peer_address {host t : Text} (hzone : ∀ w ∈ peerAddresses v host, '%' ∉ w)
    (ht : t = v.primaryIp host ∨ t = v.publicIp host) (h : covers a t = true) :
    ∃ w ∈ peerAddresses v host, covers a w = true := by
  obtain ⟨n, hn, -⟩ := covers_iff.mp h
  have hempty : network [] = none := by decide
  have hne : (!t.isEmpty) = true := by
    cases t with
    | nil =>
      rw [hempty] at hn
      cases hn
    | cons => rfl
  have hmem : t ∈ [v.primaryIp host, v.publicIp host].filter fun t => !t.isEmpty :=
    List.mem_filter.mpr ⟨by simpa using ht, hne⟩
  obtain ⟨u, hu, hlower⟩ := @Jinja.exists_mem_unique _ _ _ lower _ _ hmem
  have hsplit : ∀ w ∈ split u, w ∈ peerAddresses v host := by
    intro w hw
    rw [peerAddresses, Text.split_join (by decide)]
    exact List.mem_flatMap.mpr ⟨u, hu, hw⟩
  have hplain : '%' ∉ u := by
    intro hpercent
    obtain ⟨w, hw, hmem⟩ := Text.exists_mem_split hpercent (by decide)
    exact hzone w (hsplit w hw) hmem
  have hclear : '%' ∉ t := by
    rw [← Text.mem_lower_iff (.inl (by decide)), ← hlower, Text.mem_lower_iff (.inl (by decide))]
    exact hplain
  have hnetwork : network u = network t := network_twin hn hclear hlower
  have hword : IsWord (strip u) := isWord_of_network (hnetwork.trans hn) hplain
  have hstrip : network (strip u) = network u := network_strip hword
  refine ⟨strip u, hsplit _ ?_, ?_⟩
  · rw [Text.split_eq_singleton hword]
    exact List.mem_singleton_self _
  · rw [covers_congr (hstrip.trans hnetwork), h]

theorem mem_acceptFrom {hosts : List Text} {conditions : List Match} {host w : Text}
    (hhost : host ∈ hosts) (hw : w ∈ peerAddresses v host) :
    accept (.saddr (familyOf w) w :: conditions) ∈ acceptFrom v hosts conditions := by
  refine List.mem_append_left _ (List.mem_flatMap.mpr ⟨host, Jinja.mem_sort.mpr hhost, ?_⟩)
  exact List.mem_map.mpr ⟨w, hw, rfl⟩

theorem sshFrom_sub_groupRules {host w : Text} (hnarrow : sshNarrowed v = true)
    (hhost : host ∈ preflightSshPeerHosts v) (hw : w ∈ peerAddresses v host) :
    accept [.saddr (familyOf w) w, .tcpDport (port (sshPortSelf v))] ∈ groupRules v := by
  have hrule : ∀ {hosts : List Text}, host ∈ hosts →
      accept [.saddr (familyOf w) w, .tcpDport (port (sshPortSelf v))] ∈ sshFrom v hosts := by
    intro hosts hmem
    rw [sshFrom, if_pos hnarrow]
    exact mem_acceptFrom hmem hw
  have hgroup : ∀ {group : Text} {rules : List Rule} {r : Rule}, member v group = true → r ∈ rules →
      r ∈ inGroup v group rules := by
    intro group rules r hmember hr
    rwa [inGroup, if_pos hmember]
  rw [preflightSshPeerHosts, List.mem_append] at hhost
  simp only [groupRules, List.mem_append]
  obtain hhost | hhost := hhost
  · split_ifs at hhost with hmember
    · obtain hmember | hmember := Bool.or_eq_true _ _ |>.mp hmember
      · have hnode : accept [.saddr (familyOf w) w, .tcpDport (port (sshPortSelf v))] ∈
            node v := by
          simp only [node, List.mem_append]
          exact .inl (.inl (.inl (.inr (hrule hhost))))
        exact .inl (.inl (.inl (.inl (.inl (hgroup hmember hnode)))))
      · exact .inl (.inl (.inr (hgroup hmember (List.mem_append_left _ (hrule hhost)))))
    · cases hhost
  · split_ifs at hhost with hmember
    · exact .inr (hgroup hmember (hrule hhost))
    · cases hhost

end

/-! ## New connections to the ssh port -/

/-- The first packet of a connection to the port the table opens for ssh. -/
def sshConnection (v : Vars) (iifname : Text) (saddr daddr : Address) : Packet :=
  ⟨iifname, saddr, daddr, .tcp (sshPortSelf v), .new⟩

def isLoopback (a : Address) : Bool := loopback.any (covers a)

/-- On a tailnet host: does `nft` read one of the tailnet ranges as holding the source? -/
def inTailnetRange (nft : Nft) (v : Vars) (p : Packet) : Bool :=
  tailnetSelf v &&
    (Match.holds nft [] p (.saddr .ipv4 v.firewallTailscaleV4Range) ||
      Match.holds nft [] p (.saddr .ipv6 v.firewallTailscaleV6Range))

/-- The anti-spoof drop: an address of the tailnet on another interface. -/
def spoofed (nft : Nft) (v : Vars) (p : Packet) : Bool :=
  inTailnetRange nft v p && !iifnameMatches v.firewallTailscaleInterface p.iifname

section

variable {v : Vars} {nft : Nft} {run : List Address} {p : Packet} {iifname : Text}
  {a daddr : Address}

def counted (v : Vars) : List Rule :=
  lo :: antiSpoof v ++ conntrack ++ icmp v ++ everyHost v ++ groupRules v ++ extraAllowed v

theorem input_eq (v : Vars) : ∃ rest, input v = counted v ++ rest :=
  ⟨_, List.append_assoc _ _ _⟩

theorem verdict_antiSpoof (h : spoofed nft v p = true) :
    (antiSpoof v).findSome? (Rule.verdict nft run p) = some .drop := by
  simp only [spoofed, inTailnetRange, Bool.and_eq_true, Bool.or_eq_true] at h
  obtain ⟨⟨hself, hrange⟩, hname⟩ := h
  rw [antiSpoof, if_pos hself]
  have hne : Match.holds nft run p (.iifnameNe v.firewallTailscaleInterface) = true := hname
  have hrun : ∀ {family t}, Match.holds nft run p (.saddr family t) =
      Match.holds nft [] p (.saddr family t) := rfl
  obtain h4 | h6 := hrange
  · simp [Rule.verdict, hne, hrun, h4]
  · cases h4 : Match.holds nft [] p (.saddr .ipv4 v.firewallTailscaleV4Range) <;>
      simp [Rule.verdict, hne, hrun, h4, h6]

theorem antiSpoof_not_drop (h : spoofed nft v p = false) :
    ∀ r ∈ antiSpoof v, Rule.verdict nft run p r ≠ some .drop := by
  intro r hr hdrop
  unfold antiSpoof at hr
  split_ifs at hr with hself
  · have hrange : ∀ {family : Family} {t : Text},
        Rule.verdict nft run p (.rule [.saddr family t,
          .iifnameNe v.firewallTailscaleInterface] .drop) = some .drop →
        Match.holds nft [] p (.saddr family t) = true ∧
          iifnameMatches v.firewallTailscaleInterface p.iifname = false := by
      intro family t hverdict
      simp only [Rule.verdict, List.all_cons, List.all_nil, Bool.and_true] at hverdict
      split_ifs at hverdict with hall
      rw [Bool.and_eq_true] at hall
      exact ⟨hall.1, by simpa [Match.holds] using hall.2⟩
    simp only [spoofed, inTailnetRange, hself, Bool.true_and] at h
    rcases List.mem_cons.mp hr with rfl | hr
    · obtain ⟨hholds, hname⟩ := hrange hdrop
      rw [hholds, hname] at h
      cases h
    · rw [List.mem_singleton.mp hr] at hdrop
      obtain ⟨hholds, hname⟩ := hrange hdrop
      rw [hholds, hname, Bool.or_true] at h
      cases h
  · cases hr

theorem conntrack_not_drop (hnew : p.ctState = .new) :
    ∀ r ∈ conntrack, Rule.verdict nft run p r ≠ some .drop := by
  simp [conntrack, accept, Rule.verdict, Match.holds, hnew]

/-- Only the anti-spoof rules can drop a new connection before the operator's rules. -/
theorem counted_not_drop (hnew : p.ctState = .new) (h : spoofed nft v p = false) :
    ∀ r ∈ counted v, Rule.verdict nft run p r ≠ some .drop := by
  have hlo : Accepting [lo] := by simp [lo]
  have hicmp : Accepting (icmp v) := by simp [icmp]
  intro r hr
  simp only [counted, List.cons_append, List.mem_cons, List.mem_append] at hr
  obtain rfl | (((((hr | hr) | hr) | hr) | hr) | hr) := hr
  · exact hlo.not_drop _ List.mem_cons_self
  · exact antiSpoof_not_drop h r hr
  · exact conntrack_not_drop hnew r hr
  · exact hicmp.not_drop r hr
  · exact (accepting_everyHost v).not_drop r hr
  · exact (accepting_groupRules v).not_drop r hr
  · exact (accepting_extraAllowed v).not_drop r hr

theorem loads_of_mem (hload : loads nft (input v) = true) {r : Rule} (hr : r ∈ counted v) :
    Rule.loads nft r = true := by
  obtain ⟨rest, hinput⟩ := input_eq v
  rw [loads, List.all_eq_true, hinput] at hload
  exact hload r (List.mem_append_left rest hr)

theorem accepts_source (hreads : Reads nft) (hload : loads nft (input v) = true)
    {family : Family} {entry : Text} {conditions : List Match}
    (hmem : accept (.saddr family entry :: conditions) ∈ counted v)
    (hconditions : ∀ m ∈ conditions, m = .tcpDport (port (sshPortSelf v)))
    (hcovers : covers a entry = true) :
    ∃ r ∈ counted v, Rule.verdict nft run (sshConnection v iifname a daddr) r = some .accept := by
  have hrule := loads_of_mem hload hmem
  simp only [accept, Rule.loads, List.all_cons, Bool.and_eq_true] at hrule
  have hsaddr : Match.holds nft run (sshConnection v iifname a daddr) (.saddr family entry) = true :=
    holds_of_covers hreads hrule.1 hcovers
  have hport : ∀ m ∈ conditions,
      Match.holds nft run (sshConnection v iifname a daddr) m = true := by
    intro m hm
    rw [hconditions m hm]
    simp [Match.holds, sshConnection, inRanges, port]
  refine ⟨_, hmem, ?_⟩
  rw [accept, Rule.verdict, if_pos]
  rw [List.all_cons, hsaddr, Bool.true_and]
  exact List.all_eq_true.mpr hport

theorem mem_counted_of_ssh {r : Rule} (h : r ∈ ssh v) : r ∈ counted v := by
  simp only [counted, everyHost, List.mem_append]
  exact .inl (.inl (.inr (.inl (.inl (.inl h)))))

theorem mem_counted_of_group {r : Rule} (h : r ∈ groupRules v) : r ∈ counted v := by
  simp only [counted, List.mem_append]
  exact .inl (.inr h)

theorem mem_counted_of_extra {r : Rule} (h : r ∈ extraAllowed v) : r ∈ counted v :=
  List.mem_append_right _ h

theorem peer_accepts (hreads : Reads nft) (hload : loads nft (input v) = true)
    (hnarrow : sshNarrowed v = true) {host t : Text} (hhost : host ∈ preflightSshPeerHosts v)
    (ht : t = v.primaryIp host ∨ t = v.publicIp host) (hcovers : covers a t = true) :
    ∃ r ∈ counted v, Rule.verdict nft run (sshConnection v iifname a daddr) r = some .accept := by
  have hmem : ∀ w ∈ peerAddresses v host,
      accept [.saddr (familyOf w) w, .tcpDport (port (sshPortSelf v))] ∈ counted v :=
    fun w hw => mem_counted_of_group (sshFrom_sub_groupRules hnarrow hhost hw)
  have hzone : ∀ w ∈ peerAddresses v host, '%' ∉ w := by
    intro w hw hpercent
    have hrule := loads_of_mem hload (hmem w hw)
    simp [accept, Rule.loads, Match.loads, hreads.zone hpercent] at hrule
  obtain ⟨w, hw, hwcovers⟩ := exists_peer_address hzone ht hcovers
  exact accepts_source hreads hload (hmem w hw) (by simp) hwcovers

/-- Every entry the filter counts, loopback apart, has a rule that accepts it. -/
theorem counted_accepts (hreads : Reads nft) (hload : loads nft (input v) = true) {source : Text}
    (haddress : address source = some a)
    (hcovered : preflightSshCovered source v.firewallAllowSshFrom (preflightSshAlso v) = true)
    (hloopback : isLoopback a = false) :
    ∃ r ∈ counted v, Rule.verdict nft run (sshConnection v iifname a daddr) r = some .accept := by
  cases hnarrow : sshNarrowed v with
  | false =>
    have hmem : accept [.tcpDport (port (sshPortSelf v))] ∈ ssh v := by
      rw [ssh, hnarrow]
      exact List.mem_singleton_self _
    refine ⟨_, mem_counted_of_ssh hmem, ?_⟩
    simp [accept, Rule.verdict, Match.holds, sshConnection, inRanges, port]
  | true =>
    have hlist : ¬ v.firewallAllowSshFrom.isEmpty = true := by simpa [sshNarrowed] using hnarrow
    rw [preflightSshCovered, if_neg hlist, haddress] at hcovered
    obtain ⟨entry, hentry, hcovers⟩ := List.any_eq_true.mp hcovered
    simp only [List.mem_append, preflightSshAlso, List.mem_filter, List.mem_map] at hentry
    obtain (hentry | ⟨((hentry | hentry) | ⟨host, hhost, rfl⟩) | ⟨host, hhost, rfl⟩, -⟩) | hentry :=
      hentry
    · have hmem : accept [.saddr (familyOf entry) entry, .tcpDport (port (sshPortSelf v))] ∈
          ssh v := by
        rw [ssh, if_pos hnarrow]
        exact List.mem_append_left _ (List.mem_map.mpr ⟨entry, hentry, rfl⟩)
      exact accepts_source hreads hload (mem_counted_of_ssh hmem) (by simp) hcovers
    · have hmem : accept [.saddr .ipv4 entry] ∈ extraAllowed v :=
        List.mem_append_left _ (List.mem_map.mpr ⟨entry, hentry, rfl⟩)
      exact accepts_source hreads hload (mem_counted_of_extra hmem) (by simp) hcovers
    · have hmem : accept [.saddr .ipv6 entry] ∈ extraAllowed v :=
        List.mem_append_right _ (List.mem_map.mpr ⟨entry, hentry, rfl⟩)
      exact accepts_source hreads hload (mem_counted_of_extra hmem) (by simp) hcovers
    · exact peer_accepts hreads hload hnarrow hhost (.inl rfl) hcovers
    · exact peer_accepts hreads hload hnarrow hhost (.inr rfl) hcovers
    · rw [isLoopback, List.any_eq_false] at hloopback
      exact absurd hcovers (hloopback entry hentry)

theorem rule_lo : Rule.verdict nft run p lo =
    if iifnameMatches "lo" p.iifname = true then some .accept else none := by
  simp only [lo, accept, Rule.verdict, Match.holds, List.all_cons, List.all_nil, Bool.and_true]

theorem verdict_lo (h : iifnameMatches "lo" p.iifname = true) :
    verdict nft run (input v) p = .accept := by
  obtain ⟨rest, hinput⟩ := input_eq v
  rw [hinput, verdict, counted]
  simp only [List.cons_append, List.findSome?_cons, rule_lo, if_pos h]
  rfl

theorem verdict_spoofed (hlo : iifnameMatches "lo" p.iifname = false)
    (h : spoofed nft v p = true) : verdict nft run (input v) p = .drop := by
  obtain ⟨rest, hinput⟩ := input_eq v
  rw [hinput, verdict, counted]
  simp only [List.cons_append, List.append_assoc, List.findSome?_cons, rule_lo, hlo,
    Bool.false_eq_true, if_false, List.findSome?_append, verdict_antiSpoof h]
  rfl

/-- A covered source is accepted ssh exactly when the anti-spoof drop does not
come first. -/
theorem covered_accepted_unless_spoofed (hreads : Reads nft) (hload : loads nft (input v) = true)
    {source : Text} (haddress : address source = some a)
    (hcovered : preflightSshCovered source v.firewallAllowSshFrom (preflightSshAlso v) = true)
    (harrives : isLoopback a = true → iifname = "lo") :
    verdict nft run (input v) (sshConnection v iifname a daddr) = .accept ↔
      (spoofed nft v (sshConnection v iifname a daddr) = true → iifname = "lo") := by
  have hlo : iifnameMatches "lo" iifname = true ↔ iifname = "lo" := by
    simp [iifnameMatches]
  by_cases hname : iifname = "lo"
  · exact iff_of_true (verdict_lo (hlo.mpr hname)) fun _ => hname
  have hother : iifnameMatches "lo" iifname = false := by
    rw [← Bool.not_eq_true, hlo]
    exact hname
  cases hspoofed : spoofed nft v (sshConnection v iifname a daddr) with
  | true =>
    rw [verdict_spoofed hother hspoofed]
    exact iff_of_false (fun h => (nomatch h)) fun h => hname (h rfl)
  | false =>
    refine iff_of_true ?_ fun h => (nomatch h)
    have hloopback : isLoopback a = false := by
      rw [← Bool.not_eq_true]
      exact fun h => hname (harrives h)
    obtain ⟨rest, hinput⟩ := input_eq v
    rw [hinput]
    exact verdict_append (counted_not_drop rfl hspoofed)
      (counted_accepts hreads hload haddress hcovered hloopback) rest

end

/-! ## A tailnet node whose operator sits behind a carrier's NAT -/

/-- Addresses and networks read as `ipaddress` reads them, without a zone. -/
def strictNft : Nft where
  saddr family t :=
    if '%' ∈ t then none
    else (network t).bind fun n => if family = n.version then some n.contains else none
  statement _ := none

theorem reads_strictNft : Reads strictNft := by
  constructor
  · intro family t inside n hinside hn
    simp only [strictNft, hn, Option.bind_some] at hinside
    split_ifs at hinside with _ hfamily
    cases hinside
    exact ⟨hfamily, fun _ _ => rfl⟩
  · intro family t hzone
    simp only [strictNft, if_pos hzone]

def tailnetNode : Vars where
  inventoryHostname := "node101"
  groupNames := ["nodes"]
  groups group := if group = "nodes" then ["node101"] else if group = "controller" then ["portal"] else []
  primaryIp host := if host = "portal" then "10.0.0.2" else "10.0.0.11"
  publicIp _ := ""
  firewallTailnetHosts := ["node101"]
  firewallTailnetRoutedHosts := ["node101"]
  sshPort := none
  csPorts := ⟨22, 9100, 80, 443, 10000, 50000, 2376, 8500, 8080, 81, 80, 443, 3000, 3101, 3102,
    53, 8081, 5432⟩
  firewallAllowSshFrom := ["203.0.113.0/24", "100.64.0.0/10"]
  firewallTailscaleInterface := "tailscale0"
  firewallTailscaleV4Range := "100.64.0.0/10"
  firewallTailscaleV6Range := "fd7a:115c:a1e0::/48"
  firewallTailscaleUdpPort := 41641
  firewallIcmpTypes := ["echo-request"]
  firewallIcmpv6Types := ["echo-request"]
  firewallContainerInterfaces := ["br-*", "docker0"]
  firewallContainerPorts := [8500]
  firewallExtraAllowedIpv4 := []
  firewallExtraAllowedIpv6 := []
  firewallExtraInputRules := []
  firewallLogDropped := false

/-- 100.64.1.2 and the node's own address. -/
def carrierSource : Address := ⟨.ipv4, ((100 * 256 + 64) * 256 + 1) * 256 + 2⟩

def nodeAddress : Address := ⟨.ipv4, ((10 * 256 + 0) * 256 + 0) * 256 + 11⟩

theorem strictNft_loads : loads strictNft (input tailnetNode) = true := by decide

theorem carrierSource_covered : preflightSshCovered "100.64.1.2"
    tailnetNode.firewallAllowSshFrom (preflightSshAlso tailnetNode) = true := by
  decide

theorem carrierSource_address : address "100.64.1.2" = some carrierSource := by decide

theorem carrierSource_not_loopback : isLoopback carrierSource = true → ("eth0" : Text) = "lo" := by
  decide

theorem covered_accepted_unless_spoofed_carrier :
    verdict strictNft [] (input tailnetNode)
        (sshConnection tailnetNode "eth0" carrierSource nodeAddress) = .accept ↔
      (spoofed strictNft tailnetNode
        (sshConnection tailnetNode "eth0" carrierSource nodeAddress) = true →
          ("eth0" : Text) = "lo") :=
  covered_accepted_unless_spoofed reads_strictNft strictNft_loads carrierSource_address
    carrierSource_covered carrierSource_not_loopback

/-- The filter covers a source of 100.64.0.0/10 that arrives on `eth0`, and the table drops it. -/
theorem covered_source_dropped : Reads strictNft ∧ loads strictNft (input tailnetNode) = true ∧
    address "100.64.1.2" = some carrierSource ∧
    preflightSshCovered "100.64.1.2" tailnetNode.firewallAllowSshFrom
      (preflightSshAlso tailnetNode) = true ∧
    (isLoopback carrierSource = true → ("eth0" : Text) = "lo") ∧
    verdict strictNft [] (input tailnetNode)
      (sshConnection tailnetNode "eth0" carrierSource nodeAddress) = .drop :=
  ⟨reads_strictNft, strictNft_loads, carrierSource_address, carrierSource_covered,
    carrierSource_not_loopback, by decide⟩

end Provisioner.Firewall
