import Provisioner.Library.Among
import Provisioner.Library.Casing
import Mathlib.Logic.Function.Basic

/-!
# The certificate of a host with nginx

`acme_web` from its first check to the vhosts. `acme.sh` keeps what it has
issued in a store of its own, and with each certificate the one place that its
renewals are installed at. A call that fails may have got part of the way.
-/

namespace Provisioner.AcmeWeb

open Play Text

structure Site where
  controller : Bool := false
  metrics : Bool := false
  registry : Bool := false
  csPortalDomain : Text := []
  /-- `cs_site_metrics_domains[cs_site]`, where there is one. -/
  csSiteMetricsDomain : Option Text := none
  csMetricsDomain : Text := []
  csRegistryDomain : Text := []
deriving DecidableEq, Repr

namespace Site

variable (site : Site)

def acmeWebDomains : List Text :=
  ((if site.controller then [site.csPortalDomain] else []) ++
    (if site.metrics then [site.csSiteMetricsDomain.getD site.csMetricsDomain] else []) ++
    (if site.registry then [site.csRegistryDomain] else [])).filter (· ≠ [])

def acmeWebCertName : Text := site.acmeWebDomains.headD []

end Site

structure Vars where
  acmeWebForceIssue : Bool := false
  acmeWebForceInstallCert : Bool := false
  acmeWebChallengeMethod : Text := "http"
  acmeWebKeylength : Text := "ec-256"
deriving DecidableEq, Repr

def acmeWebDnsProviders : List Text :=
  ["autodns", "aws", "cloudflare", "cpanel", "do", "gandi", "godaddy", "ionos", "linode",
    "nsupdate", "pdns", "vultr"]

namespace Vars

variable (v : Vars)

def http : Bool := v.acmeWebChallengeMethod == "http"

/-- `--ecc`, which is part of where `acme.sh` looks for a certificate. -/
def ecc : Bool := startswith v.acmeWebKeylength "ec-"

def forces : Bool := v.acmeWebForceIssue || v.acmeWebForceInstallCert

end Vars

structure Certificate where
  subjectAltName : List Text
  serial : ℕ := 0
deriving DecidableEq, Repr

/-! ## Whether to issue -/

/-- `regex_replace('\.$', '')`, where `$` is also before a last line break. -/
def chopDot (t : Text) : Text :=
  if endswith t "." then t.dropLast
  else if endswith t ".\n" then t.dropLast.dropLast ++ ['\n'] else t

def normal (t : Text) : Text := chopDot (lower t)

def dnsNames (sans : List Text) : List Text :=
  (sans.filter (startswith · "DNS:")).map fun name => normal (name.drop 4)

def symmetricDifference (a b : List Text) : List Text := a.filter (· ∉ b) ++ b.filter (· ∉ a)

def mismatch (sans domains : List Text) : List Text :=
  symmetricDifference (dnsNames sans) (domains.map normal)

/-! ## The host -/

structure Files where
  fullchain : Option Certificate := none
  key : Bool := false
deriving DecidableEq, Repr

inductive Conf where
  | bootstrap
  | vhosts (domains : List Text)
deriving DecidableEq, Repr

/-- Where `--install-cert` puts a certificate. -/
inductive Target where
  | nginx
  | registry
deriving DecidableEq, Repr

/-- What `acme.sh` keeps of a certificate: the names its renewals ask for, and
where they are installed. -/
structure Entry where
  domains : Option (List Text) := none
  cert : Option Certificate := none
  target : Option Target := none
deriving DecidableEq, Repr

structure Machine where
  /-- What `acme.sh` keeps under a name, as ECC or not. -/
  store : Text → Bool → Entry := fun _ _ => {}
  /-- What the role has asked the CA for and has installed, the last call first. -/
  requests : List (List Text) := []
  installs : List Target := []
  nginx : Files := {}
  registry : Files := {}
  /-- `conf.d`, with the vhosts nginx starts from. -/
  conf : Option Conf := none

namespace Machine

def files (m : Machine) : Target → Files
  | .nginx => m.nginx
  | .registry => m.registry

def put (t : Target) (files : Files) (m : Machine) : Machine :=
  match t with
  | .nginx => { m with nginx := files }
  | .registry => { m with registry := files }

def amend (name : Text) (ecc : Bool) (f : Entry → Entry) (m : Machine) : Machine :=
  { m with
    store := Function.update m.store name
      (Function.update (m.store name) ecc (f (m.store name ecc))) }

/-- `post_acme_reload`: the registries' files are copied over nginx's. -/
def postAcmeReload (m : Machine) : Machine :=
  { m with nginx :=
      ⟨m.registry.fullchain <|> m.nginx.fullchain, m.registry.key || m.nginx.key⟩ }

def writeKey (t : Target) (m : Machine) : Machine := m.put t { m.files t with key := true }

def writeChain (t : Target) (c : Certificate) (m : Machine) : Machine :=
  m.put t { m.files t with fullchain := some c }

/-- `--reloadcmd`, which for nginx changes no file. -/
def reload (t : Target) (m : Machine) : Machine :=
  match t with
  | .nginx => m
  | .registry => m.postAcmeReload

/-- The first steps of an installation: the key, the full chain, the reload. -/
def installed (t : Target) (c : Certificate) : ℕ → Machine → Machine
  | 0, m => m
  | 1, m => m.writeKey t
  | 2, m => (m.writeKey t).writeChain t c
  | _, m => ((m.writeKey t).writeChain t c).reload t

end Machine

structure Facts where
  vars : Vars := {}
  acmeWebCertStat : Bool := false
  acmeWebCertPem : Option Certificate := none
  acmeWebCertInfo : Option Certificate := none
  acmeWebNeedIssue : Bool := false
  acmeWebKeyStat : Bool := false
  acmeWebRegistryCertStat : Bool := false
deriving DecidableEq, Repr

structure Host where
  machine : Machine := {}
  facts : Facts := {}

structure Reply where
  outcome : Outcome := .ok
  half : Bool := false
  serial : ℕ := 0
  steps : ℕ := 0
deriving DecidableEq, Repr

instance : Answer Reply := ⟨Reply.outcome, Reply.half⟩

abbrev Item := Play.Item Host Reply

def registers (f : Host → Facts) : Item := observes fun _ s => { s with facts := f s }

/-! ## `acme_cert.yml` -/

section

variable (site : Site)

def needIssue (s : Host) : Bool :=
  !s.facts.acmeWebCertStat || s.facts.vars.acmeWebForceIssue ||
    0 < (mismatch (s.facts.acmeWebCertInfo.elim [] Certificate.subjectAltName)
      site.acmeWebDomains).length

def look : List Item :=
  [registers fun s => { s.facts with acmeWebCertStat := s.machine.nginx.fullchain.isSome },
    .incl (fun s => s.facts.acmeWebCertStat)
      [registers fun s => { s.facts with acmeWebCertPem := s.machine.nginx.fullchain }],
    .incl (fun s => s.facts.acmeWebCertStat)
      [registers fun s => { s.facts with acmeWebCertInfo := s.facts.acmeWebCertPem }],
    registers fun s => { s.facts with acmeWebNeedIssue := needIssue site s }]

def reportMismatch : Item :=
  .incl (fun s => s.facts.acmeWebCertStat && s.facts.acmeWebNeedIssue &&
    !s.facts.vars.acmeWebForceIssue) [command]

/-- nginx does not start from vhosts whose certificate is not there yet. -/
def bootstrap : Item :=
  .incl (fun s => !s.facts.acmeWebCertStat)
    [acts fun _ s => { s with machine := { s.machine with conf := some .bootstrap } }, command]

def asks (m : Machine) : Machine := { m with requests := site.acmeWebDomains :: m.requests }

/-- The names a certificate gets are the CA's to say. `acme.sh` keeps what is
asked for before it asks. -/
def stores (sans : List Text → List Text) (v : Vars) (serial : ℕ) : ℕ → Machine → Machine
  | 0, m => m
  | 1, m => m.amend site.acmeWebCertName v.ecc fun entry =>
      { entry with domains := some site.acmeWebDomains }
  | _, m => m.amend site.acmeWebCertName v.ecc fun entry =>
      { entry with
        domains := some site.acmeWebDomains
        cert := some ⟨sans site.acmeWebDomains, serial⟩ }

/-- `--issue --force`, which `acme.sh` does not skip. -/
def request (sans : List Text → List Text) : Item :=
  .task fun r s =>
    let asked := asks site s.machine
    match r.outcome with
    | .ok => ({ s with machine := stores site sans s.facts.vars r.serial 2 asked }, .ok)
    | _ => ({ s with machine := stores site sans s.facts.vars r.serial r.steps asked }, .failed)

def issue (sans : List Text → List Text) : Item :=
  .incl (fun s => s.facts.acmeWebNeedIssue)
    [.incl (fun s => s.facts.vars.http) [command],
      .incl (fun s => s.facts.vars.acmeWebChallengeMethod == "nsupdate") [command],
      .incl (fun s => !s.facts.vars.http)
        [gate fun s => s.facts.vars.acmeWebChallengeMethod ∈ acmeWebDnsProviders],
      .incl (fun s => s.facts.vars.http) [request site sans],
      .incl (fun s => !s.facts.vars.http) [request site sans]]

/-- `--install-cert`, which records its target before it copies. -/
def installCert (t : Target) : Item :=
  .task fun r s =>
    let m := { s.machine with installs := t :: s.machine.installs }
    match (m.store site.acmeWebCertName s.facts.vars.ecc).cert with
    | none => ({ s with machine := m }, .failed)
    | some c =>
      let recorded := m.amend site.acmeWebCertName s.facts.vars.ecc fun entry =>
        { entry with target := some t }
      match r.outcome, r.steps with
      | .ok, _ => ({ s with machine := recorded.installed t c 3 }, .ok)
      | _, 0 => ({ s with machine := m }, .failed)
      | _, n + 1 => ({ s with machine := recorded.installed t c n }, .failed)

def installNginx : List Item :=
  [registers fun s => { s.facts with acmeWebKeyStat := s.machine.nginx.key },
    .incl (fun s => s.facts.acmeWebNeedIssue || !s.facts.acmeWebKeyStat ||
      s.facts.vars.acmeWebForceInstallCert) [installCert site .nginx]]

def registryCert : Item :=
  .incl (fun _ => site.registry)
    [command, command,
      registers fun s => { s.facts with
        acmeWebRegistryCertStat := s.machine.registry.fullchain.isSome },
      .incl (fun s => s.facts.acmeWebNeedIssue || !s.facts.acmeWebRegistryCertStat ||
        s.facts.vars.acmeWebForceInstallCert)
        [installCert site .registry]]

def renewalTimer : List Item := [command, command, command]

def acmeCert (sans : List Text → List Text) : List Item :=
  look site ++ [reportMismatch, bootstrap, issue site sans] ++ installNginx site ++
    [registryCert site] ++ renewalTimer

/-! ## `main.yml` -/

/-- `vhosts.yml`, whose first file already names the certificate. -/
def vhosts : List Item :=
  [acts fun _ s => { s with machine :=
      { s.machine with conf := some (.vhosts site.acmeWebDomains) } },
    command]

def main (sans : List Text → List Text) : List Item :=
  [command, gate fun _ => !site.acmeWebDomains.isEmpty, command] ++ acmeCert site sans ++
    vhosts site ++ [command]

end

/-- The timer renews what is kept under a name, and gets so far with it: the
certificate, then the steps of its installation. -/
structure Renewal where
  name : Text
  ecc : Bool
  serial : ℕ
  steps : ℕ
deriving DecidableEq, Repr

def Machine.renewed (sans : List Text → List Text) (e : Renewal) (m : Machine) : Machine :=
  match (m.store e.name e.ecc).domains, e.steps with
  | some domains, n + 1 =>
    let c : Certificate := ⟨sans domains, e.serial⟩
    let issued := m.amend e.name e.ecc fun entry => { entry with cert := some c }
    match (m.store e.name e.ecc).target with
    | some t => issued.installed t c n
    | none => issued
  | _, _ => m

def renew (sans : List Text → List Text) (e : Renewal) (s : Host) : Host :=
  { s with machine := s.machine.renewed sans e }

/-- The runs of a host, each with switches of its own. -/
def system (site : Site) (sans : List Text → List Text) : System Host Reply Vars Renewal where
  boot v s := { machine := s.machine, facts := { vars := v } }
  play _ := main site sans
  outside := renew sans

end Provisioner.AcmeWeb
