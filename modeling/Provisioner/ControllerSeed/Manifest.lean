import Provisioner.Inventory.Sites

/-!
# The bootstrap manifest

`manifest.yml.j2`: the clients the controller reads metrics and logs from, and
every new node under its region and its availability zone. A template that
subscripts a map with a key it does not have fails, and there is no manifest.
-/

namespace Provisioner.ControllerSeed

open Inventory
open Text (lower decimal)

structure Credentials where
  prometheusUsername : Text
  prometheusPassword : Text
  lokiUsername : Text
  lokiPassword : Text
deriving DecidableEq, Repr

/-- What the role and the group vars set for the whole environment. -/
structure SeedVars where
  existingEnv : Bool
  controllerSeedFullManifest : Bool
  controllerSeedCreateClients : Bool
  csMetricsDomain : Text
  csAppZone : Text
  metricsPrometheus : ℕ
  metricsLoki : ℕ
  controllerAcmeBackend : ℕ
  controllerSeedMetricEndpoint : Text
  controllerSeedLogEndpoint : Text
  controllerSeedNodeSshPort : ℕ
  credentials : Text → Credentials
  -- what was read from the pem of a domain
  certificate : Text → Text

/-- An entry of `metric_clients` or `log_clients`. -/
structure Client where
  endpoint : Text
  create : Bool
  username : Text
  password : Text
deriving DecidableEq, Repr

structure NodeEntry where
  label : Text
  hostname : Text
  primaryIp : Text
  publicIp : Text
  sshPort : ℕ
  agentHost : Option Text
deriving DecidableEq, Repr

structure NetworkEntry where
  name : Text
  label : Text
  subnet : Text
deriving DecidableEq, Repr

structure LoadBalancer where
  label : Text
  domain : Text
  publicIp : Text
  extIp : List Text
  internalIp : List Text
  sharedCertificate : Text
deriving DecidableEq, Repr

/-- A Region of the controller: an availability zone. -/
structure Region where
  name : Text
  acmeServer : Text
  lokiEndpoint : Text
  metricClientEndpoint : Text
  logClientEndpoint : Text
  nodes : List NodeEntry
  networks : List NetworkEntry
  loadBalancer : LoadBalancer
deriving DecidableEq, Repr

structure Location where
  name : Text
  regions : List Region
deriving DecidableEq, Repr

/-- The client lists are rendered with the globals only. -/
structure Manifest where
  metricClients : Option (List Client)
  logClients : Option (List Client)
  locations : List Location
deriving DecidableEq, Repr

section

variable (inv : Hosts) (seed : SeedVars) (csNewNodes : List Text)

/-! ## Sites and endpoints -/

def controllerSeedManifestSites : List Text :=
  Jinja.sort lower (Jinja.unique lower (csNewNodes.map (csSite inv)))

structure Endpoints where
  metric : Text
  log : Text
deriving DecidableEq, Repr

def siteEndpoints (site : Text) : Endpoints :=
  match Dict.get (csSiteMetricsDomains inv seed.csMetricsDomain) site with
  | some domain =>
    ⟨"https://" ++ domain ++ ":" ++ decimal seed.metricsPrometheus,
      "https://" ++ domain ++ ":" ++ decimal seed.metricsLoki⟩
  | none => ⟨seed.controllerSeedMetricEndpoint, seed.controllerSeedLogEndpoint⟩

def controllerSeedSiteEndpoints : List (Text × Endpoints) :=
  (controllerSeedManifestSites inv csNewNodes).map fun s => (s, siteEndpoints inv seed s)

/-- The loop over the sites with its list of the endpoints already `seen`. -/
def clients (endpoint : Text → Option Text) (entry : Text → Text → Client) :
    List Text → List Text → Option (List Client)
  | _, [] => some []
  | seen, s :: sites => do
    let e ← endpoint s
    if e ∈ seen then clients endpoint entry seen sites
    else return entry s e :: (← clients endpoint entry (seen ++ [e]) sites)

def endpointOf (field : Endpoints → Text) (site : Text) : Option Text :=
  (Dict.get (controllerSeedSiteEndpoints inv seed csNewNodes) site).map field

def metricClients : Option (List Client) :=
  clients (endpointOf inv seed csNewNodes Endpoints.metric)
    (fun s e => ⟨e, seed.controllerSeedCreateClients, (seed.credentials s).prometheusUsername,
      (seed.credentials s).prometheusPassword⟩)
    [] (controllerSeedManifestSites inv csNewNodes)

def logClients : Option (List Client) :=
  clients (endpointOf inv seed csNewNodes Endpoints.log)
    (fun s e => ⟨e, seed.controllerSeedCreateClients, (seed.credentials s).lokiUsername,
      (seed.credentials s).lokiPassword⟩)
    [] (controllerSeedManifestSites inv csNewNodes)

/-! ## Certificates -/

-- `app_domain | default(cs_app_zone, true)`
def csAppDomain (h : Text) : Text :=
  match (inv.hostvars h).appDomain with
  | some domain => if domain.isEmpty then seed.csAppZone else domain
  | none => seed.csAppZone

def csAppDomains : List Text :=
  Jinja.sort lower (Jinja.unique lower (csNewNodes.map (csAppDomain inv seed)))

def controllerSeedSharedCertificates : List (Text × Text) :=
  (csAppDomains inv seed csNewNodes).map fun d => (d, seed.certificate d)

/-! ## The pairwise addresses -/

def hostTs (h : Text) : Text :=
  (inv.hostvars h).tailscaleIp.getD ((inv.hostvars h).localTailscaleIp.getD [])

def hostTailnet (h : Text) : Bool :=
  (inv.hostvars h).tailscaleEnabled && !(inv.hostvars h).tailscaleAccessOnly &&
    !(hostTs inv h).isEmpty

def acmeAddress (controllerHost host : Text) : Text :=
  (inv.hostvars host).controllerAcmeAddress.getD
    (if hostTailnet inv controllerHost && hostTailnet inv host then hostTs inv controllerHost
    else (inv.hostvars controllerHost).primaryIp)

def agentHost (controllerHost host : Text) : Option Text :=
  if hostTailnet inv controllerHost && hostTailnet inv host then some (hostTs inv host)
  else none

/-! ## Locations -/

def nodeEntry (controllerHost host : Text) : NodeEntry where
  label := (inv.hostvars host).hostname
  hostname := (inv.hostvars host).hostname
  primaryIp := (inv.hostvars host).primaryIp
  publicIp := (inv.hostvars host).publicIp
  sshPort := (inv.hostvars host).sshPort.getD seed.controllerSeedNodeSshPort
  agentHost := agentHost inv controllerHost host

def loadBalancer (host certificate : Text) : LoadBalancer where
  label := (inv.hostvars host).az ++ " lb"
  domain := csAppDomain inv seed host
  publicIp := (inv.hostvars host).publicIp
  extIp := [(inv.hostvars host).primaryIp]
  internalIp := [(inv.hostvars host).primaryIp]
  sharedCertificate := Text.strip certificate

def region (controllerHost host : Text) : Option Region := do
  let endpoints ← Dict.get (controllerSeedSiteEndpoints inv seed csNewNodes) (csSite inv host)
  let certificate ← Dict.get (controllerSeedSharedCertificates inv seed csNewNodes)
    (csAppDomain inv seed host)
  return {
    name := (inv.hostvars host).az
    acmeServer := acmeAddress inv controllerHost host ++ ":" ++
      decimal seed.controllerAcmeBackend
    lokiEndpoint := endpoints.log
    metricClientEndpoint := endpoints.metric
    logClientEndpoint := endpoints.log
    nodes := [nodeEntry inv seed controllerHost host]
    networks := [⟨(inv.hostvars host).containerNetworkName,
      (inv.hostvars host).az ++ " shared", (inv.hostvars host).containerNetwork⟩]
    loadBalancer := loadBalancer inv seed host certificate }

def nodeRegions : List Text :=
  Jinja.sort lower (Jinja.unique lower (csNewNodes.map fun h => (inv.hostvars h).region))

def location (controllerHost name : Text) : Option Location := do
  let hosts := (Jinja.sort lower csNewNodes).filter fun h => (inv.hostvars h).region = name
  return ⟨name, ← hosts.mapM (region inv seed csNewNodes controllerHost)⟩

def includeGlobals : Bool := !seed.existingEnv || seed.controllerSeedFullManifest

def withGlobals (rendered : Option (List Client)) : Option (Option (List Client)) :=
  if includeGlobals seed then rendered.map some else some none

def manifest : Option Manifest := do
  let controllerHost ← (inv.groups "controller").head?
  let metric ← withGlobals seed (metricClients inv seed csNewNodes)
  let log ← withGlobals seed (logClients inv seed csNewNodes)
  let locations ← (nodeRegions inv csNewNodes).mapM
    (location inv seed csNewNodes controllerHost)
  return ⟨metric, log, locations⟩

end

end Provisioner.ControllerSeed
