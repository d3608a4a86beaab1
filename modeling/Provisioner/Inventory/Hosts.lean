import Provisioner.Library.Casing
import Provisioner.Library.Dict
import Provisioner.Library.Jinja

/-!
# Groups, host vars and the site maps

What the templates read of the inventory, and the values
`playbooks/group_vars/all/sites.yml` derives from it.
-/

namespace Provisioner.Inventory

open Text (lower)

/-- An address that is not set is `''`; `site` and `metrics_domain` are
optional, and `tailscale_ip` is a fact of this run, `local_tailscale_ip` the
one persisted on the host. -/
structure HostVars where
  site : Option Text := none
  metricsDomain : Option Text := none
  existingEnv : Bool := false
  region : Text := []
  az : Text := []
  hostname : Text := []
  appDomain : Option Text := none
  primaryIp : Text := []
  publicIp : Text := []
  containerNetwork : Text := []
  containerNetworkName : Text := []
  sshPort : Option ℕ := none
  tailscaleEnabled : Bool := false
  tailscaleAccessOnly : Bool := false
  tailscaleIp : Option Text := none
  localTailscaleIp : Option Text := none
  controllerAcmeAddress : Option Text := none
deriving DecidableEq, Repr

/-- A group that does not exist is empty; `all` holds every host. -/
structure Hosts where
  groups : Text → List Text
  hostvars : Text → HostVars
  nodup : ∀ group, (groups group).Nodup
  in_all : ∀ group, groups group ⊆ groups "all"

section

variable (inv : Hosts)

def csSite (h : Text) : Text := (inv.hostvars h).site.getD "default"

/-- `dict(<the sites of the hosts> | zip(values))`. -/
def bySite (hosts values : List Text) : List (Text × Text) :=
  Dict.ofRows ((hosts.map (csSite inv)).zip values)

def csSiteMetricsHosts : List (Text × Text) :=
  bySite inv (inv.groups "metrics") (inv.groups "metrics")

def csSiteMetricsDomains (csMetricsDomain : Text) : List (Text × Text) :=
  bySite inv (inv.groups "metrics")
    ((inv.groups "metrics").map fun h => (inv.hostvars h).metricsDomain.getD csMetricsDomain)

def csExistingHosts : List Text :=
  (Jinja.sort lower (inv.groups "all")).filter fun h => (inv.hostvars h).existingEnv

/-- `difference` goes through a set, so its items come in any order. -/
def IsDifference (a b c : List Text) : Prop := c.Nodup ∧ ∀ x, x ∈ c ↔ x ∈ a ∧ x ∉ b

def IsNewNodes (csNewNodes : List Text) : Prop :=
  IsDifference (inv.groups "nodes") (csExistingHosts inv) csNewNodes

end

section

variable {inv : Hosts}

theorem mem_existing {h : Text} :
    h ∈ csExistingHosts inv ↔ h ∈ inv.groups "all" ∧ (inv.hostvars h).existingEnv = true := by
  rw [csExistingHosts, List.mem_filter, Jinja.mem_sort]

theorem mem_keys_bySite {hosts values : List Text} (hlen : hosts.length ≤ values.length)
    {s : Text} : s ∈ Dict.keys (bySite inv hosts values) ↔ ∃ h ∈ hosts, csSite inv h = s := by
  rw [bySite, Dict.mem_keys_ofRows, List.map_fst_zip (by rwa [List.length_map]), List.mem_map]

theorem get_bySite {hosts : List Text} (value : Text → Text)
    (hnodup : (hosts.map (csSite inv)).Nodup) {h : Text} (hh : h ∈ hosts) :
    Dict.get (bySite inv hosts (hosts.map value)) (csSite inv h) = some (value h) := by
  have hrows : (hosts.map (csSite inv)).zip (hosts.map value) =
      hosts.map fun h => (csSite inv h, value h) := by
    rw [List.zip_map']
  rw [bySite, hrows, Dict.get_ofRows]
  have hkeys : ((hosts.map fun h => (csSite inv h, value h)).map Prod.fst).Nodup := by
    rwa [List.map_map]
  have hlast := Dict.lastBy_of_mem hkeys (List.mem_map.mpr ⟨h, hh, rfl⟩)
  rw [hlast]
  rfl

end

end Provisioner.Inventory
