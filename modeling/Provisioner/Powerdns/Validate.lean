import Provisioner.Powerdns.InZone
import Provisioner.Powerdns.Replan

/-!
# The records as validation looks them up

`roles/validate` asks for the records of every new node by the name in the
inventory, and compares the answers with the inventory's values.
-/

namespace Provisioner.Powerdns

open Text (lower strip)

/-! ## Answers from a zone -/

/-- `name` is `q`, or lies below it. -/
def AtOrBelow (q name : Text) : Prop := name = q ∨ ('.' :: q) <:+ name

instance (q name : Text) : Decidable (AtOrBelow q name) := inferInstanceAs (Decidable (_ ∨ _))

def hasName (recs : List Record) (q : Text) : Bool := recs.any fun r => AtOrBelow q r.name

def validateAppDomainProbeLabel : Text := "cs-validate-probe"

def probe (d : Text) : Text := validateAppDomainProbeLabel ++ "." ++ apex d

def Taken (site : Site) (recs : List Record) (q : Text) : Prop :=
  hasName recs q = true ∨ ∃ d ∈ runDomains site, AtOrBelow q (apex d)

def TakenUp (site : Site) (allZones listing : List Text) (d : Text) : Prop :=
  d ∈ runDomains site ∧
    (planDomain site (zoneNames allZones) (zoneRecords listing) d).skips = []

/-- `h` answers on `d` and is the first of its name, whatever the case, in the
run or in the marker. -/
def Counted (site : Site) (recs : List Record) (d h : Text) : Prop :=
  domain site h = d ∧
    (site.recordsNodes.find? (fun b => lower b = lower h) = some h ∨
      (namedHosts recs d).find? (fun b => lower b = lower h) = some h)

/-- The domain is written in lower case, nothing hides its wildcard but the alias
that the check asks for, and the addresses are those of a node that is counted. -/
structure Found (site : Site) (recs : List Record) (h : Text) : Prop where
  spelled : lower (site.hostvars h).csAppDomain = (site.hostvars h).csAppDomain
  probed : Taken site recs (probe (domain site h)) →
    (∀ d ∈ runDomains site, apex d ≠ probe (domain site h)) ∧
      contents (rrset recs (probe (domain site h)) "CNAME") = [apex (domain site h)]
  ipv4 : ∃ h', Counted site recs (domain site h) h' ∧
    (site.hostvars h').publicIp = (site.hostvars h).publicIp
  ipv6 : (site.hostvars h).publicIpv6 ≠ [] →
    (∃ h', Counted site recs (domain site h) h' ∧
      (site.hostvars h').publicIpv6 = (site.hostvars h).publicIpv6) ∨
    (∀ h', Counted site recs (domain site h) h' → (site.hostvars h').publicIpv6 = []) ∧
      (site.hostvars h).publicIpv6 ∈ contents (rrset recs (apex (domain site h)) "AAAA")

section Names

end Names

section Final

variable {site : Site} {allZones listing : List Text} {d h : Text}

theorem served_of_no_skip {site : Site} {zones : List Text} {recs : List Record} {d : Text}
    (hskip : (planDomain site zones recs d).skips = []) : Served site zones recs d := by
  unfold planDomain at hskip
  dsimp only at hskip
  cases hcut : cut site zones d with
  | some z => rw [hcut] at hskip; cases hskip
  | none =>
    cases hdeleg : deleg site recs d with
    | some r => rw [hcut, hdeleg] at hskip; cases hskip
    | none => exact ⟨hcut, hdeleg⟩

theorem TakenUp.served (htaken : TakenUp site allZones listing d) :
    Served site (zoneNames allZones) (zoneRecords listing) d := served_of_no_skip htaken.2

end Final

/-! ## What an alias prints -/

section Printed

end Printed

section Checks

variable {site : Site} {recs : List Record} {allZones listing : List Text} {d h : Text}

section Left

variable (hform : WellFormed site) (hfree : (lbPlan site allZones listing).conflicts = [])

include hform hfree

end Left

/-! ## What the preflight lets through -/

open ControllerSeed (SeedVars bareDomain beforeBreak underZone csAppDomain)

variable {inv : Provisioner.Inventory.Hosts} {seed : SeedVars} {publicIpv6 : Text → Text}
  {recordTtl : ℕ} {nameStyle : NameStyle} {run : List Text}

/-- A run over nodes of an inventory that preflight lets through. The nameserver
lists their domains as they are written, and the zone is not the root. -/
structure Accepted (inv : Provisioner.Inventory.Hosts) (seed : SeedVars) (publicIpv6 : Text → Text)
    (recordTtl : ℕ) (nameStyle : NameStyle) (run : List Text) : Prop where
  asserts : ZoneAsserts inv seed run
  known : run ⊆ inv.groups "nodes"
  names : ∀ h ∈ inv.groups "nodes", h ≠ [] ∧ '"' ∉ h
  forms : ∀ h ∈ inv.groups "nodes",
    HostForm (lbSite inv seed publicIpv6 recordTtl nameStyle run) h
  zone : ∃ c ∈ (zone (lbSite inv seed publicIpv6 recordTtl nameStyle run)).getLast?, c ≠ '.'

theorem bare_plain {d : Text} (hbare : bareDomain d = true) (hlegible : Legible d) :
    ∀ c ∈ d, PlainChar c := by
  simp only [bareDomain, Bool.and_eq_true, List.all_eq_true] at hbare
  intro c hc
  obtain rfl | hc := ControllerSeed.mem_beforeBreak hc
  · exact absurd (hlegible.chars _ hc).1 (by decide)
  obtain rfl | ⟨label, hlabel, hc⟩ := Text.mem_splitOn '.' hc
  · exact .inr (.inr (.inr (.inl rfl)))
  have hchars := hbare.2 label hlabel
  simp only [ControllerSeed.isLabel, Bool.and_eq_true, List.all_eq_true] at hchars
  have hchar := hchars.1.1 c hc
  simp only [ControllerSeed.isLabelChar, Bool.or_eq_true, beq_iff_eq] at hchar
  obtain (hdigit | hlow) | rfl := hchar
  · exact .inr (.inl hdigit)
  · exact .inl hlow
  · exact .inr (.inr (.inl rfl))

theorem zone_subset {zone d : Text} (hunder : d = zone ∨ underZone zone d = true) : zone ⊆ d := by
  have hsub : ∀ t : Text, Text.endswith t ("." ++ zone) = true → zone ⊆ t := by
    intro t ht
    have hsuffix : ("." ++ zone : Text) <:+ t := List.isSuffixOf_iff_suffix.mp ht
    exact ((List.suffix_cons '.' zone).trans hsuffix).subset
  rcases hunder with rfl | hunder
  · exact List.Subset.refl _
  · rw [underZone, Bool.or_eq_true] at hunder
    rcases hunder with hend | hend
    · exact hsub _ hend
    · have hbreak : beforeBreak d ⊆ d := by
        unfold beforeBreak
        split
        · exact (List.dropLast_sublist d).subset
        · exact List.Subset.refl d
      exact List.Subset.trans (hsub _ hend) hbreak

theorem Accepted.plain_or (hin : Accepted inv seed publicIpv6 recordTtl nameStyle run) {h : Text}
    (hh : h ∈ inv.groups "nodes") :
    domain (lbSite inv seed publicIpv6 recordTtl nameStyle run) h = lower seed.csAppZone ∨
      (∀ c ∈ domain (lbSite inv seed publicIpv6 recordTtl nameStyle run) h, PlainChar c) ∧
        ∀ c ∈ lower seed.csAppZone, PlainChar c := by
  have hall : h ∈ inv.groups "all" := inv.in_all "nodes" hh
  cases hown : (inv.hostvars h).appDomain with
  | none =>
    left
    simp only [domain, lbSite, csAppDomain, hown]
  | some d =>
    right
    have hbare := hin.asserts.bare h hall d hown
    have hne : d.isEmpty = false := by
      simp only [bareDomain, Bool.and_eq_true, Bool.not_eq_true'] at hbare
      exact hbare.1.1
    have hdomain : domain (lbSite inv seed publicIpv6 recordTtl nameStyle run) h = d := by
      simp only [domain, lbSite, csAppDomain, hown, hne, Bool.false_eq_true, if_false]
      exact ControllerSeed.lower_bare hbare
    have hplain := bare_plain hbare (hdomain ▸ (hin.forms h hh).domain_form)
    have hzone := zone_subset (hin.asserts.under h hall d hown)
    rw [hdomain, Text.lower_of_subset hzone (ControllerSeed.lower_bare hbare)]
    exact ⟨hplain, fun c hc => hplain c (hzone hc)⟩

theorem Accepted.wellFormed (hin : Accepted inv seed publicIpv6 recordTtl nameStyle run) :
    WellFormed (lbSite inv seed publicIpv6 recordTtl nameStyle run) := by
  refine ⟨hin.known, hin.names, hin.forms, fun h hh h' hh' => ?_⟩
  rcases hin.plain_or hh with hzone | ⟨hplain, hzone⟩ <;>
    rcases hin.plain_or hh' with hzone' | ⟨hplain', hzone'⟩
  · exact .inl (hzone.trans hzone'.symm)
  · exact .inr ⟨by rwa [hzone], hplain'⟩
  · exact .inr ⟨hplain, by rwa [hzone']⟩
  · exact .inr ⟨hplain, hplain'⟩

end Checks

end Provisioner.Powerdns
