import Provisioner.AcmeWeb.Served

/-!
# Runs that find nothing to do

A host whose certificate covers its names is left as it is by runs that force
nothing. That includes the registries' copy of the certificate, whose names are
not looked at.
-/

namespace Provisioner.AcmeWeb

open Play Text

/-! ## What is left as it is -/

/-- Nginx has a key and a certificate for the host's names, the registries have
some, and what is renewed is for the host's names. -/
structure Settled (site : Site) (sans : List Text → List Text) (m : Machine) : Prop where
  served : Served site m.nginx
  registry : site.registry = true → m.registry.fullchain.isSome = true
  renewable : Renewable site sans m

/-- The role has asked the CA for nothing more and installed nothing. The
registries have what they had, or what a renewal brought. -/
structure Kept (site : Site) (sans : List Text → List Text) (m₀ m : Machine) : Prop
    extends Settled site sans m where
  requests : m.requests = m₀.requests
  installs : m.installs = m₀.installs
  registries : m.registry.fullchain = m₀.registry.fullchain ∨ Covered site m.registry

section

variable {site : Site} {sans : List Text → List Text} {m₀ : Machine}

theorem kept_renewed (e : Renewal) {m : Machine} (h : Kept site sans m₀ m) :
    Kept site sans m₀ (m.renewed sans e) := by
  obtain ⟨hrequests, hinstalls, -⟩ := renewed_rest sans e m
  refine ⟨⟨?_, fun hregistry => ?_, renewable_renewed h.renewable⟩, hrequests.trans h.requests,
    hinstalls.trans h.installs, ?_⟩
  · exact renewed_files h.renewable .nginx (fun t n _ m hc => installed_served t n m hc) h.served
  · exact renewed_files (P := fun files => files.fullchain.isSome = true) h.renewable .registry
      (fun t n c m _ => installed_some t c n m .registry) (h.registry hregistry)
  · refine renewed_files (P := fun files =>
      files.fullchain = m₀.registry.fullchain ∨ Covered site files) h.renewable .registry
        (fun t n c m hc hfiles => ?_) h.registries
    rcases hfiles with hsame | hcovered
    · rcases installed_chain t c n m .registry with hold | hnew
      · exact .inl (hold.trans hsame)
      · exact .inr ⟨c, hnew, hc⟩
    · exact .inr (installed_covered t n m hc .registry hcovered)

variable (site sans m₀) in
def staying : Keep site sans where
  keeps := Kept site sans m₀
  renewed e _ h := kept_renewed e h
  renewable _ h := h.renewable

abbrev Unforced : Host → Prop := Knows fun f => f.vars.forces = false

abbrev Seen : Host → Prop := Knows fun f => f.vars.forces = false ∧ f.acmeWebCertStat = true

abbrev Idle : Host → Prop := Knows fun f =>
  f.vars.forces = false ∧ f.acmeWebCertStat = true ∧ f.acmeWebNeedIssue = false

abbrev Reads (site : Site) (fact : Facts → Option Certificate) : Host → Prop :=
  Knows fun f => ∃ c, fact f = some c ∧ Covers c.subjectAltName site.acmeWebDomains

theorem force_issue_of {v : Vars} (h : v.forces = false) : v.acmeWebForceIssue = false :=
  (Bool.or_eq_false_iff.mp h).1

theorem force_install_of {v : Vars} (h : v.forces = false) :
    v.acmeWebForceInstallCert = false :=
  (Bool.or_eq_false_iff.mp h).2

theorem look_idle : (staying site sans m₀).Passes Unforced (look site) Idle := by
  have hstat : (staying site sans m₀).Passes Unforced [registers fun s => { s.facts with
      acmeWebCertStat := s.machine.nginx.fullchain.isSome }] Seen := by
    apply passes_registers
    intro s hkeep hs
    obtain ⟨-, c, hc, -⟩ := (Kept.toSettled hkeep).served
    exact ⟨hs, Option.isSome_iff_exists.mpr ⟨c, hc⟩⟩
  have hpem : (staying site sans m₀).Passes Seen [.incl (fun s => s.facts.acmeWebCertStat)
      [registers fun s => { s.facts with acmeWebCertPem := s.machine.nginx.fullchain }]]
        fun s => Seen s ∧ Reads site Facts.acmeWebCertPem s := by
    apply passes_incl
    · have hread : (staying site sans m₀).Passes Seen [registers fun s =>
          { s.facts with acmeWebCertPem := s.machine.nginx.fullchain }]
            fun s => Seen s ∧ Reads site Facts.acmeWebCertPem s :=
        passes_registers fun s hkeep hs => ⟨hs, (Kept.toSettled hkeep).served.2⟩
      exact hread.pre fun s _ hs => hs.1
    · exact fun s hs hc => absurd (hc.symm.trans hs.2) Bool.false_ne_true
  have hinfo : (staying site sans m₀).Passes (fun s => Seen s ∧ Reads site Facts.acmeWebCertPem s)
      [.incl (fun s => s.facts.acmeWebCertStat)
        [registers fun s => { s.facts with acmeWebCertInfo := s.facts.acmeWebCertPem }]]
        fun s => Seen s ∧ Reads site Facts.acmeWebCertInfo s := by
    apply passes_incl
    · have hread : (staying site sans m₀).Passes
          (fun s => Seen s ∧ Reads site Facts.acmeWebCertPem s) [registers fun s =>
            { s.facts with acmeWebCertInfo := s.facts.acmeWebCertPem }]
              fun s => Seen s ∧ Reads site Facts.acmeWebCertInfo s :=
        passes_registers fun s _ hs => hs
      exact hread.pre fun s _ hs => hs.1
    · exact fun s hs hc => absurd (hc.symm.trans hs.1.2) Bool.false_ne_true
  have hneed : (staying site sans m₀).Passes
      (fun s => Seen s ∧ Reads site Facts.acmeWebCertInfo s)
      [registers fun s => { s.facts with acmeWebNeedIssue := needIssue site s }] Idle := by
    apply passes_registers
    rintro s - ⟨⟨hforces, hseen⟩, c, hc, hcovers⟩
    refine ⟨hforces, hseen, ?_⟩
    change needIssue site s = false
    rw [needIssue, hc, Option.elim_some, mismatch_eq_nil.mpr hcovers, hseen,
      force_issue_of hforces]
    rfl
  exact hstat.cons (hpem.cons (hinfo.cons hneed))

theorem install_idle : (staying site sans m₀).Passes Idle (installNginx site) Idle := by
  have hstat : (staying site sans m₀).Passes Idle
      [registers fun s => { s.facts with acmeWebKeyStat := s.machine.nginx.key }]
        fun s => Idle s ∧ Knows (·.acmeWebKeyStat = true) s :=
    passes_registers fun s hkeep hs => ⟨hs, (Kept.toSettled hkeep).served.1⟩
  have hskip : (staying site sans m₀).Passes
      (fun s => Idle s ∧ Knows (·.acmeWebKeyStat = true) s)
      [.incl (fun s => s.facts.acmeWebNeedIssue || !s.facts.acmeWebKeyStat ||
        s.facts.vars.acmeWebForceInstallCert) [installCert site .nginx]]
        fun s => Idle s ∧ Knows (·.acmeWebKeyStat = true) s := by
    apply passes_skip
    rintro s ⟨⟨hforces, -, hneed⟩, hkey⟩
    rw [hneed, force_install_of hforces, show s.facts.acmeWebKeyStat = true from hkey]
    rfl
  exact hstat.cons (hskip.post fun s _ hs => hs.1)

theorem registry_idle : (staying site sans m₀).Passes Idle [registryCert site] Idle := by
  have hstat (hregistry : site.registry = true) : (staying site sans m₀).Passes Idle
      [registers fun s => { s.facts with
        acmeWebRegistryCertStat := s.machine.registry.fullchain.isSome }]
        fun s => Idle s ∧ Knows (·.acmeWebRegistryCertStat = true) s :=
    passes_registers fun s hkeep hs => ⟨hs, (Kept.toSettled hkeep).registry hregistry⟩
  have hskip : (staying site sans m₀).Passes
      (fun s => Idle s ∧ Knows (·.acmeWebRegistryCertStat = true) s)
      [.incl (fun s => s.facts.acmeWebNeedIssue || !s.facts.acmeWebRegistryCertStat ||
        s.facts.vars.acmeWebForceInstallCert) [installCert site .registry]]
        fun s => Idle s ∧ Knows (·.acmeWebRegistryCertStat = true) s := by
    apply passes_skip
    rintro s ⟨⟨hforces, -, hneed⟩, hcert⟩
    rw [hneed, force_install_of hforces, show s.facts.acmeWebRegistryCertStat = true from hcert]
    rfl
  cases hregistry : site.registry with
  | true =>
    apply passes_aside
    refine passes_command.cons (passes_command.cons ((hstat hregistry).cons ?_))
    exact hskip.post fun s _ hs => hs.1
  | false => exact passes_skip fun _ _ => hregistry

theorem main_idle (site : Site) (sans : List Text → List Text) (m₀ : Machine) :
    (staying site sans m₀).Passes Unforced (main site sans) Idle := by
  have hentry : (staying site sans m₀).Passes Unforced
      [command, gate fun _ => !site.acmeWebDomains.isEmpty, command] Unforced :=
    passes_command.cons (passes_gate.cons passes_command)
  have hreport : (staying site sans m₀).Passes Idle [reportMismatch] Idle :=
    passes_aside passes_command
  have hbootstrap : (staying site sans m₀).Passes Idle [bootstrap] Idle := by
    apply passes_skip
    rintro s ⟨-, hseen, -⟩
    rw [hseen]
    rfl
  have hissue : (staying site sans m₀).Passes Idle [issue site sans] Idle :=
    passes_skip fun s hs => hs.2.2
  have htimer : (staying site sans m₀).Passes Idle renewalTimer Idle :=
    passes_command.cons (passes_command.cons passes_command)
  have hcert : (staying site sans m₀).Passes Unforced (acmeCert site sans) Idle :=
    (((look_idle.append (hreport.cons (hbootstrap.cons hissue))).append install_idle).append
      registry_idle).append htimer
  have hvhosts : (staying site sans m₀).Passes Idle (vhosts site) Idle := by
    refine Keep.Passes.cons (passes_acts fun _ s hkeep hs => ?_) passes_command
    have hkept : Kept site sans m₀ s.machine := hkeep
    exact ⟨⟨⟨hkept.served, hkept.registry, hkept.renewable⟩, hkept.requests, hkept.installs,
      hkept.registries⟩, hs⟩
  exact ((hentry.append hcert).append hvhosts).append passes_command

/-- Runs that force nothing leave a settled host as it is, wherever they fail or are cut: the
registries keep the names they have, be they the host's or not, until they are renewed. -/
theorem settled_kept {s : Host} (h : Settled site sans s.machine)
    {moves : List (Move Reply Vars Renewal)} (hmoves : ∀ v, .start v ∈ moves → v.forces = false) :
    Kept site sans s.machine ((system site sans).run moves ⟨s, []⟩).state.machine := by
  have hstart : System.Good (staying site sans s.machine).setting.contract
      (⟨s, []⟩ : World Host Reply) := ⟨fun _ => ⟨h, rfl, rfl, .inl rfl⟩, safe_nil s⟩
  refine (System.good_run_of_allowed (p := fun m => ∀ v, m = .start v → v.forces = false)
    ?_ ?_ hstart ?_).1 trivial
  · exact fun v hforces t hinv =>
      ⟨hinv, (main_idle site sans s.machine).safe fun _ => hforces v rfl⟩
  · exact fun e _ t => ⟨e, rfl⟩
  · exact fun m hm v hv => hmoves v (hv ▸ hm)

/-- A host whose registries have the certificate of an earlier name, after a run
that was cut between the two installations. -/
def renamed : Host where
  machine :=
    { store name ecc :=
        if name = "Registry.example.com." ∧ ecc = true then
          { domains := some ["Registry.example.com."]
            cert := some ⟨["DNS:registry.example.com"], 2⟩
            target := some .nginx }
        else {}
      nginx := ⟨some ⟨["DNS:registry.example.com"], 2⟩, true⟩
      registry := ⟨some ⟨["DNS:old.example.com"], 1⟩, true⟩
      conf := some (.vhosts ["registry.example.com"]) }

def registrySite : Site where
  registry := true
  csRegistryDomain := "Registry.example.com."

theorem settled_kept_renamed :
    Kept registrySite asAsked renamed.machine ((system registrySite asAsked).run
      [.start {}, .tick { outcome := .failed }, .outside ⟨"Registry.example.com.", true, 3, 4⟩,
        .start { acmeWebKeylength := "2048" }, .tick {}, .tick {}, .tick {}, .interrupt]
      ⟨renamed, []⟩).state.machine := by
  apply settled_kept
  · refine ⟨⟨rfl, _, rfl, ?_⟩, fun _ => rfl, ?_⟩
    · exact mismatch_eq_nil.mp (by decide)
    · intro name ecc domains hdomains _
      change (if name = _ ∧ ecc = true then _ else _ : Entry).domains = some domains at hdomains
      split at hdomains
      · rw [← Option.some.inj hdomains]
        exact covers_request _
      · cases hdomains
  · intro v hv
    simp only [List.mem_cons, Move.start.injEq, reduceCtorEq, List.not_mem_nil, or_false,
      false_or] at hv
    obtain rfl | rfl := hv <;> rfl

end

end Provisioner.AcmeWeb
