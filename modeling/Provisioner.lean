import Provisioner.Library.Flow
import Provisioner.NodeStorage.Classify
import Provisioner.NodeUpgrade.Containers
import Provisioner.NodeStorage.Blank
import Provisioner.NodeStorage.Vouched
import Provisioner.Library.Jinja
import Provisioner.Powerdns.Plan
import Provisioner.Powerdns.Ownership
import Provisioner.Library.Converge
import Provisioner.Powerdns.Edit
import Provisioner.Powerdns.Goals
import Provisioner.Powerdns.Resume
import Provisioner.Powerdns.Replan
import Provisioner.Library.Play
import Provisioner.NodeUpgrade.Decide
import Provisioner.NodeUpgrade.State
import Provisioner.NodeUpgrade.Tasks
import Provisioner.NodeUpgrade.Invariants
import Provisioner.NodeUpgrade.Rules
import Provisioner.NodeUpgrade.Cycles
import Provisioner.NodeUpgrade.Maintain
import Provisioner.NodeUpgrade.Reach
import Provisioner.NodeUpgrade.PhaseOrder
import Provisioner.NodeUpgrade.Release
import Provisioner.NodeUpgrade.Rolling
import Provisioner.NodeUpgrade.LiveProbe
import Provisioner.Certificates.Sets
import Provisioner.Controller.Cstacks
import Provisioner.Controller.Schema
import Provisioner.Controller.Sentinel
import Provisioner.Firewall.Address
import Provisioner.Firewall.Reading
import Provisioner.Firewall.Table
import Provisioner.Firewall.Covered
import Provisioner.NodeStorage.Checks
import Provisioner.Library.Cuts
import Provisioner.NodeStorage.Apply
import Provisioner.NodeStorage.Interrupted
import Provisioner.Library.Progress
import Provisioner.Vault.Bootstrap
import Provisioner.Vault.Sound
import Provisioner.Vault.Resume
import Provisioner.ControllerSeed.Preview
import Provisioner.ControllerSeed.Reviewed
import Provisioner.Powerdns.Split
import Provisioner.Powerdns.Reach
import Provisioner.Powerdns.Stale
import Provisioner.NodeStorage.Mounted
import Provisioner.Inventory.Hosts
import Provisioner.Inventory.Sites
import Provisioner.ControllerSeed.Manifest
import Provisioner.ControllerSeed.Complete
import Provisioner.Firewall.Dialed
import Provisioner.ControllerSeed.LbAddresses
import Provisioner.Inventory.PublicIpv6
import Provisioner.ControllerSeed.Seeded
import Provisioner.Tailscale.Flags
import Provisioner.Tailscale.Compare
import Provisioner.Tailscale.Complete
import Provisioner.Tailscale.Plain
import Provisioner.Controller.Portal
import Provisioner.Controller.Recreate
import Provisioner.Library.Shell
import Provisioner.Library.Plain
import Provisioner.Controller.Settings
import Provisioner.Controller.Rendered
import Provisioner.NodeUpgrade.StartLoop
import Provisioner.Library.Lines
import Provisioner.NodeUpgrade.HoldLoop
import Provisioner.ControllerSeed.Fingerprint
import Provisioner.Library.Pattern
import Provisioner.Library.LineInFile
import Provisioner.Library.Placed
import Provisioner.Firewall.V1Append
import Provisioner.Firewall.V2Append
import Provisioner.Powerdns.InZone
import Provisioner.Powerdns.Validate
import Provisioner.Certificates.Quiet
import Provisioner.Tailscale.Reconciled
import Provisioner.Tailscale.SetArgs
import Provisioner.CsAgent.Immutable
import Provisioner.Controller.Checked
import Provisioner.Library.Behind
import Provisioner.Library.Standing
import Provisioner.Controller.Appended
import Provisioner.Firewall.Applies
import Provisioner.Firewall.Restores
import Provisioner.AcmeWeb.Cert
import Provisioner.AcmeWeb.Served
import Provisioner.AcmeWeb.Settled
import Provisioner.CsAgent.Enroll
