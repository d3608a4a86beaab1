import Provisioner.Library.Steps

/-!
# Bringing up the vault

The vault server, its container and the key files as `roles/vault` finds and
leaves them. The secrets are symbolic: `operator init` gives out the shares and
the root token of one vault, which is known by its number. Reading commands
that do not decide anything only succeed or fail.
-/

namespace Provisioner.Vault

open Play

/-- The settings of the role; `operator init` accepts no other threshold. -/
structure Config where
  vaultKeyShares : ℕ := 5
  vaultKeyThreshold : ℕ := 3
  vaultMaxLeaseTtlHours : ℕ := 87600
  vaultManageRootAlias : Bool := true
  threshold_pos : 0 < vaultKeyThreshold := by decide
  threshold_le : vaultKeyThreshold ≤ vaultKeyShares := by decide

theorem Config.shares_pos (c : Config) : 0 < c.vaultKeyShares :=
  Nat.lt_of_lt_of_le c.threshold_pos c.threshold_le

structure Share where
  vault : ℕ
  index : ℕ
deriving DecidableEq, Repr

/-- `keys/rootkey`, for which docker makes a directory when it mounts it first. -/
inductive Rootkey where
  | token (vault : ℕ)
  | directory
deriving DecidableEq, Repr

def Rootkey.read : Rootkey → Option ℕ
  | .token vault => some vault
  | .directory => none

structure Container where
  running : Bool := true
  /-- `vault_root_token_volume` is among its volumes. -/
  tokenVolume : Bool
  /-- The vault whose root token is in `/root/.vault-token`. -/
  token : Option ℕ
deriving DecidableEq, Repr

/-- A PKI mount at `vault_pki_docker_path`. -/
structure Mount where
  maxLeaseTtlHours : Option ℕ := none
  rootCa : Bool := false
deriving DecidableEq, Repr

/-- The blocks of effects that only their first effect guards. -/
inductive Block where
  | operatorInit
  | createMount
deriving DecidableEq, Repr

structure Machine where
  vault : Option ℕ := none
  unsealed : Bool := false
  /-- The shares submitted so far. -/
  progress : List Share := []
  container : Option Container := none
  unsealKey : ℕ → Option Share := fun _ => none
  rootkey : Option Rootkey := none
  mount : Option Mount := none
  /-- The block whose first effect has taken place and whose last has not. Kept
  for the proofs; no task reads it. -/
  block : Option Block := none

namespace Machine

def running (m : Machine) : Bool := m.container.any Container.running

def authorized (m : Machine) : Bool :=
  m.unsealed && m.vault.isSome && decide (m.container.bind Container.token = m.vault)

/-- The server of a container that starts is sealed, and what it mounts is
looked up anew. -/
def start (m : Machine) (tokenVolume : Bool) : Machine :=
  { m with
    unsealed := false
    progress := []
    rootkey := if tokenVolume && m.rootkey.isNone then some .directory else m.rootkey
    container := some {
      tokenVolume := tokenVolume
      token := if tokenVolume then m.rootkey.bind Rootkey.read else none } }

def stop (m : Machine) : Machine :=
  { m with
    unsealed := false
    progress := []
    container := m.container.map fun x => { x with running := false } }

def remove (m : Machine) : Machine :=
  { m with unsealed := false, progress := [], container := none }

def adding (m : Machine) (x : Share) : List Share :=
  if x ∈ m.progress then m.progress else m.progress ++ [x]

/-- `operator unseal`: the server says no when the shares it has by then are
not those of its vault. -/
def submit (m : Machine) (c : Config) (x : Share) : Machine × Bool :=
  if m.unsealed then (m, true)
  else if (m.adding x).length < c.vaultKeyThreshold then
    ({ m with progress := m.adding x }, true)
  else if ∀ y ∈ m.adding x, some y.vault = m.vault then
    ({ m with progress := [], unsealed := true }, true)
  else ({ m with progress := [] }, false)

end Machine

structure Reply where
  outcome : Outcome := .ok
  half : Bool := false
  recreate : Bool := false
  /-- A task that was to recreate the container got no further than its removal. -/
  removed : Bool := false
  /-- The number of the vault that `operator init` makes. -/
  vault : ℕ := 0
  /-- There is no client certificate, or it is about to expire. -/
  needed : Bool := true
deriving DecidableEq, Repr

instance : Answer Reply := ⟨Reply.outcome, Reply.half⟩

structure Facts where
  vaultInitialized : Bool := false
  vaultInit : Option ℕ := none
  sealed : Bool := true
  vaultUnsealKeys : ℕ → Option Share := fun _ => none
  vaultSecretsList : Bool := false
  vaultClientCertNeeded : Bool := false
  itemFailed : Bool := false
  /-- The run has gone through its last task. -/
  completed : Bool := false

structure Host where
  machine : Machine := {}
  facts : Facts := {}

abbrev Item := Play.Item Host Reply

def changes (f : Machine → Machine) : Item := acts fun _ s => { s with machine := f s.machine }

def registers (f : Reply → Host → Facts) : Item := observes fun r s => { s with facts := f r s }

def loopResults : Tally Host where
  clear s := { s with facts := { s.facts with itemFailed := false } }
  note s := { s with facts := { s.facts with itemFailed := true } }
  failed s := s.facts.itemFailed

/-- `docker exec` of the vault CLI needs the container to run. -/
def vaultCommand (c : Machine → Bool) : Item :=
  gate fun s => s.machine.running && c s.machine

/-! ## `docker_container` -/

def differs (tokenVolume : Bool) (r : Reply) (m : Machine) : Bool :=
  match m.container with
  | none => true
  | some x => r.recreate || tokenVolume && !x.tokenVolume

/-- A container that is not as asked for is recreated, one that is and does not
run is started. -/
def ensureContainer (tokenVolume : Bool) (r : Reply) (m : Machine) : Machine :=
  if differs tokenVolume r m then m.start tokenVolume
  else if m.running then m
  else m.start (m.container.any Container.tokenVolume)

def halfContainer (tokenVolume : Bool) (r : Reply) (m : Machine) : Machine :=
  if differs tokenVolume r m && r.removed then m.remove else ensureContainer tokenVolume r m

def dockerContainer (tokenVolume : Bool) : Item :=
  tries (fun r s => { s with machine := ensureContainer tokenVolume r s.machine })
    fun r s => { s with machine := halfContainer tokenVolume r s.machine }

/-! ## `initialize.yml` -/

def operatorInit : List Item :=
  [vaultCommand fun m => m.vault.isNone,
    acts fun r s => {
      machine := { s.machine with
        vault := some r.vault
        progress := []
        block := some .operatorInit }
      facts := { s.facts with vaultInit := some r.vault } }]

def writeUnsealKey (i : ℕ) (s : Host) : Host × Bool :=
  ({ s with machine := { s.machine with
    unsealKey := Function.update s.machine.unsealKey i (s.facts.vaultInit.map (⟨·, i⟩)) } },
    true)

def writeRootToken : Item :=
  acts fun _ s => { s with machine := { s.machine with
    rootkey := s.facts.vaultInit.map .token
    block := none } }

def initializeVault (c : Config) : List Item :=
  [dockerContainer false, vaultCommand fun _ => true] ++ operatorInit ++
    loops loopResults ((List.range c.vaultKeyShares).map writeUnsealKey) ++ [writeRootToken]

/-! ## `unseal.yml` -/

def readStatus : List Item :=
  [vaultCommand fun _ => true,
    registers fun _ s => { s.facts with sealed := !s.machine.unsealed }]

def readUnsealKeys (c : Config) : List Item :=
  [gate fun s => (List.range c.vaultKeyThreshold).all fun i => (s.machine.unsealKey i).isSome,
    registers fun _ s => { s.facts with vaultUnsealKeys := s.machine.unsealKey }]

def submitted (c : Config) (i : ℕ) (s : Host) : Machine × Bool :=
  match s.facts.vaultUnsealKeys i with
  | some x => s.machine.submit c x
  | none => (s.machine, false)

def submitUnsealKey (c : Config) (i : ℕ) (s : Host) : Host × Bool :=
  ({ s with machine := (submitted c i s).1 }, (submitted c i s).2)

def unsealVault (c : Config) : List Item :=
  [gate fun s => s.machine.container.isSome,
    .incl (fun s => !s.machine.running)
      [changes fun m => m.start (m.container.any Container.tokenVolume)]] ++
  readStatus ++
  [.incl (fun s => s.facts.sealed)
    (readUnsealKeys c ++ [vaultCommand fun _ => true] ++
      loops loopResults ((List.range c.vaultKeyThreshold).map (submitUnsealKey c)) ++
      readStatus ++
      [gate fun s => !s.facts.sealed])]

/-! ## `pki_docker.yml` -/

def enableMount : List Item :=
  [vaultCommand fun m => m.authorized && m.mount.isNone,
    changes fun m => { m with mount := some {}, block := some .createMount }]

def tuneMount (c : Config) : List Item :=
  [vaultCommand fun m => m.authorized && m.mount.isSome,
    changes fun m => { m with
      mount := m.mount.map fun x => {
        x with maxLeaseTtlHours := some c.vaultMaxLeaseTtlHours } }]

def generateRootCa : List Item :=
  [vaultCommand fun m => m.authorized && m.mount.isSome,
    changes fun m => { m with
      mount := m.mount.map fun x => { x with rootCa := true }
      block := none }]

def hasCa (m : Machine) : Bool := m.authorized && m.mount.any Mount.rootCa

def pkiDocker (c : Config) : List Item :=
  [vaultCommand Machine.authorized,
    registers fun _ s => { s.facts with vaultSecretsList := s.machine.mount.isSome },
    .incl (fun s => !s.facts.vaultSecretsList) (enableMount ++ tuneMount c ++ generateRootCa),
    vaultCommand fun m => m.authorized && m.mount.isSome, command,
    vaultCommand fun m => m.authorized && m.mount.isSome, command,
    vaultCommand hasCa, command]

/-! ## `client_cert.yml` -/

def clientCert : List Item :=
  [registers fun r s => { s.facts with vaultClientCertNeeded := r.needed },
    .incl (fun s => s.facts.vaultClientCertNeeded)
      [vaultCommand hasCa, command, vaultCommand hasCa, command, command]]

/-! ## `main.yml` -/

def main (c : Config) : List Item :=
  [command, command,
    registers fun _ s => { s.facts with vaultInitialized := (s.machine.unsealKey 0).isSome },
    .incl (fun s => !s.facts.vaultInitialized) (initializeVault c),
    dockerContainer true,
    .incl (fun _ => c.vaultManageRootAlias) [command]] ++
  unsealVault c ++ pkiDocker c ++ clientCert ++
  [notes fun _ s => { s with facts := { s.facts with completed := true } }]

/-- What may have become of the container since the last run. -/
inductive Meanwhile where
  | nothing
  | stopped
  | restarted
  | removed
deriving DecidableEq, Repr

def Meanwhile.apply : Meanwhile → Machine → Machine
  | .nothing, m => m
  | .stopped, m => m.stop
  | .restarted, m => if m.container.isSome then
      m.start (m.container.any Container.tokenVolume) else m
  | .removed, m => m.remove

def system (c : Config) : Play.System Host Reply Meanwhile Empty where
  boot e s := { machine := e.apply s.machine }
  play _ := main c
  outside e _ := e.elim

end Provisioner.Vault
