import Provisioner.Library.Flow
import Provisioner.NodeStorage.Probe

/-!
# The data disk classifier

`node_storage_classify`, one definition for each stretch of its refusal
cascade. An early return is always a refusal, so it carries the refusal's
text; the value passed on is what the rest of the cascade reads.
-/

namespace Provisioner.NodeStorage

inductive DiskState where
  | blank
  | ours
  | ready
  | refuse
deriving DecidableEq, Repr

structure Verdict where
  state : DiskState
  reason : Text
deriving DecidableEq, Repr

structure Bind where
  target : Text
  srcSubdir : Text
deriving DecidableEq, Repr

abbrev Check (α : Type) := Flow Text PyError α

def nothingChanged : Text := "Nothing was changed."

def refuse (text : Text) : Verdict := ⟨.refuse, text ++ " " ++ nothingChanged⟩

def prjquotaOptions : List Text := ["prjquota", "pquota"]

def typeWords (dtype : Option Text) : Text :=
  let words : List (Text × Text) :=
    [("part", "a partition"), ("lvm", "an LVM logical volume"),
     ("crypt", "an encrypted (dm-crypt) volume"), ("dm", "a device-mapper device"),
     ("loop", "a loop device"), ("rom", "an optical drive"), ("md", "a software RAID array"),
     ("mpath", "a multipath device")]
  (dtype.bind (get words)).getD "not a disk"

/-- A device path reduced to its kernel name: /dev/xvdb -> xvdb. -/
def kname (path : Option Text) : Text :=
  let path := Text.rstripChar '/' (Text.strip (path.getD []))
  (path.reverse.takeWhile (· ≠ '/')).reverse

/-- findmnt SOURCE -> (device, subdir); a plain mount's subdir is '/'. The
subdir of a bind mount stands between the first `[` and a final `]`. -/
def splitSource (source : Option Text) : Text × Text :=
  let source := Text.strip (source.getD [])
  let inner := (source.dropWhile (· ≠ '[')).tail
  if '[' ∈ source ∧ inner.getLast? = some ']' ∧ '\n' ∉ source then
    (source.takeWhile (· ≠ '['), if inner.dropLast.isEmpty then "/" else inner.dropLast)
  else
    (source, "/")

/-- True when `path` is `base` or anything below it (on a path boundary). -/
def beneath (path base : Text) : Bool :=
  let stripped := Text.rstripChar '/' base
  let base : Text := if stripped.isEmpty then "/" else stripped
  path == base || (base ++ "/").isPrefixOf path

def mountpoints (node : BlockDevice) : List Text :=
  let points :=
    match node.mountpoints with
    | some points => points
    | none => (node.mountpoint.map some).toList
  points.filterMap fun p => p.filter (!·.isEmpty)

mutual
def walk : BlockDevice → List BlockDevice
  | .mk n p t f ms m cs => .mk n p t f ms m cs :: walkAll cs
def walkAll : List BlockDevice → List BlockDevice
  | [] => []
  | d :: ds => walk d ++ walkAll ds
end

def names (device : Text) (lsblk : BlockDevice) : List Text :=
  [kname (some device), kname lsblk.path, kname lsblk.name].filter (!·.isEmpty)

def hasPrjquota (options : Option Text) : Bool :=
  ((options.getD []).splitOn ',').any fun o => Text.strip o ∈ prjquotaOptions

def nonempty? (t : Option Text) : Option Text := t.filter (!·.isEmpty)

def pathOrName (node : BlockDevice) : Option Text := nonempty? node.path <|> node.name

/-- How a refusal names the device. -/
def described (probe : Probe) : Text :=
  let given := probe.deviceInput
  let device := probe.device
  if !device.isEmpty && !given.isEmpty && device != given then
    "docker_data_device " ++ given ++ " (" ++ device ++ ")"
  else
    "docker_data_device " ++
      (if !given.isEmpty then given else if !device.isEmpty then device else "(unset)")

section Cascade

variable (probe : Probe) (mount label : Text) (binds : List Bind)

def targets : List Text := binds.map Bind.target

def allowed : List Text := mount :: targets binds

def checkDevice : Check PUnit := do
  Flow.returnIf probe.device.isEmpty
    (described probe ++ " does not exist on this host. Attach the data disk, or set " ++
      "docker_data_device to the path the disk actually has (`lsblk` lists them).")
  Flow.returnIf (!probe.isBlock)
    (described probe ++ " is not a block device. Point docker_data_device at the whole " ++
      "data disk (e.g. /dev/vdb or /dev/disk/by-id/...).")

def checkLsblk : Check BlockDevice :=
  match probe.lsblk with
  | some lsblk => .next lsblk
  | none => .ret (described probe ++ " could not be read by lsblk. Check the device on the node " ++
      "with `lsblk " ++ probe.device ++ "`.")

def checkNotRoot (lsblk : BlockDevice) : Check PUnit := do
  let rest : Text := " the root filesystem. docker_data_device must be a SEPARATE, empty disk; " ++
    "point it at the data disk instead."
  Flow.returnIf (mountpoints lsblk |>.contains "/") (described probe ++ " is" ++ rest)
  match (walkAll lsblk.children).find? fun node => (mountpoints node).contains "/" with
  | none => .next ⟨⟩
  | some node => .ret (described probe ++ " holds (" ++ (pathOrName node).getD "None" ++ ")" ++ rest)

def checkWholeDisk (lsblk : BlockDevice) : Check PUnit := do
  Flow.returnIf (lsblk.type != some "disk")
    (described probe ++ " is " ++ typeWords lsblk.type ++ " (lsblk TYPE " ++
      (nonempty? lsblk.type).getD "unknown" ++ "), not a whole disk. Point docker_data_device " ++
      "at a whole, unpartitioned data disk.")
  let held := Text.join ", " (Text.sorted
    (lsblk.children.map fun c => ((nonempty? c.path).or (nonempty? c.name)).getD "?"))
  Flow.returnIf (!lsblk.children.isEmpty)
    (described probe ++ " has partitions or other devices on it (" ++ held ++ "). This disk is " ++
      "laid out for something else; the role only uses a whole disk with no partition table. " ++
      "If its contents are disposable, wipe it (`wipefs -a` on each of those, then on " ++
      probe.device ++ ") and re-run.")

/-- Passes on whether the disk holds our filesystem. -/
def checkSignature (lsblk : BlockDevice) : Check Bool := do
  let dev := described probe
  let device := probe.device
  Flow.returnIf (!probe.blkidError.isEmpty)
    (dev ++ " could not be read by blkid (" ++ probe.blkidError ++ "), so whether it already " ++
      "holds data cannot be told. Check the device on the node with `blkid -p " ++ device ++ "`.")
  let pttype := nonempty? (get probe.blkid "PTTYPE")
  Flow.returnIf pttype.isSome
    (dev ++ " carries a " ++ pttype.getD [] ++ " partition table. The role only uses a whole disk " ++
      "with no partition table; if its contents are disposable, wipe it (`wipefs -a " ++ device ++
      "`) and re-run.")
  let signature := probe.blkid.filter fun kv => kv.1 != ("DEVNAME" : Text)
  if signature.isEmpty then
    let fstype := nonempty? lsblk.fstype
    Flow.returnIf fstype.isSome
      (dev ++ " shows no signature to blkid but lsblk reports " ++ fstype.getD [] ++
        ". Inspect the device by hand.")
    return false
  else
    let fstype := get signature "TYPE"
    let listed := Text.join ", " (Text.sorted (signature.map fun kv => kv.1 ++ "=" ++ kv.2))
    Flow.returnIf (fstype != some "xfs")
      (dev ++ " already holds " ++
        ((nonempty? fstype).elim ("an unrecognized signature (blkid: " ++ listed ++ ")")
          fun t => "an existing " ++ t ++ " signature") ++
        ". The role never formats over existing data; if the contents are disposable, wipe it " ++
        "(`wipefs -a " ++ device ++ "`) and re-run.")
    let haveLabel := get signature "LABEL"
    Flow.returnIf (haveLabel != some label)
      (dev ++ " holds an XFS filesystem with " ++
        ((nonempty? haveLabel).elim ("no label" : Text) fun l => "label '" ++ l ++ "'") ++
        ", not the '" ++ label ++ "' this role creates, so it is not ours. If the contents are " ++
        "disposable, wipe it (`wipefs -a " ++ device ++ "`) and re-run; if it is ours, label it " ++
        "(`xfs_admin -L " ++ label ++ " " ++ device ++ "`, unmounted).")
    return true

def checkMountedWhere (lsblk : BlockDevice) (ours : Bool) : Check PUnit := do
  let points := mountpoints lsblk
  Flow.returnIf (!points.isEmpty && !ours)
    (described probe ++ " has no filesystem signature yet is mounted at " ++
      Text.join ", " points ++ ". Inspect the device by hand.")
  let outside := points.filter fun p => !(allowed mount binds).any fun a => beneath p a
  Flow.returnIf (!outside.isEmpty)
    (described probe ++ " is mounted at " ++ Text.join ", " outside ++ ", outside " ++
      Text.join ", " (allowed mount binds) ++ " and the paths beneath them. Unmount it there " ++
      "(and remove the fstab entry) before re-running.")

def mountedAt (path : Text) : Option Filesystem := (get probe.mounts path).join

def wantedSubdir (path : Text) : Text :=
  "/" ++ ((binds.find? fun b => b.target == path).map Bind.srcSubdir).getD []

/-- One turn of the loop over what is mounted at the paths; it passes the path
on when the right filesystem is mounted there. -/
def checkMount (lsblk : BlockDevice) (path : Text) : Check (Option Text) :=
  match mountedAt probe path with
  | none => .next none
  | some m => do
    let (src, sub) := splitSource m.source
    let dev := described probe
    let shown : Text := if src.isEmpty then "an unknown source" else src
    Flow.returnIf (!(names probe.device lsblk).contains (kname (some src)))
      (path ++ " is mounted from " ++ shown ++
        ", not from " ++ dev ++ ". If docker_data_device changed on a built node, put it back; " ++
        "otherwise unmount " ++ path ++ " (and remove its fstab entry) first.")
    if path = mount then
      Flow.returnIf (sub != ("/" : Text))
        (path ++ " is mounted from " ++ src ++ "[" ++ sub ++ "], a subdirectory of " ++ dev ++
          " rather than its root. Unmount it and re-run.")
      Flow.returnIf (!hasPrjquota m.options)
        (dev ++ " is mounted at " ++ path ++ " WITHOUT project quotas (options: " ++
          (nonempty? m.options).getD "none" ++ "). XFS can only turn prjquota on at mount time, " ++
          "never on a remount: schedule a window, stop docker and containerd, unmount " ++ path ++
          " (and the bind mounts beneath it) and re-run, which mounts it with prjquota.")
    else
      let want := wantedSubdir binds path
      Flow.returnIf (sub != want)
        (path ++ " is mounted from " ++ src ++ "[" ++ sub ++ "]; it must be the bind mount of " ++
          mount ++ want ++ " on " ++ dev ++ ". Unmount " ++ path ++ " and re-run.")
    return some path

def checkMounts (lsblk : BlockDevice) : Check (List Text) :=
  Flow.collect (checkMount probe mount binds lsblk) (allowed mount binds)

def typeAt (path : Text) : Option PathType := get probe.pathType path

def checkPathType (mounted : List Text) (path : Text) : Check PUnit :=
  if path ∈ mounted then .next ⟨⟩
  else
    let dev := described probe
    match (typeAt probe path).getD .unknown with
    | .absent | .directory => .next ⟨⟩
    | .unknown =>
      .ret (dev ++ " cannot be put in place: " ++ path ++ " could not be checked on the node " ++
        "(stat failed or did not run). Check it by hand with `ls -ld " ++ path ++ "`.")
    | kind =>
      let what : Text :=
        match kind with
        | .symlink => "a symlink"
        | .file => "a regular file"
        | _ => "not a directory"
      .ret (dev ++ " cannot be put in place: " ++ path ++ " is " ++ what ++ ", not a directory. " ++
        "Mounting over it would hide whatever it holds or points at (`ls -ld " ++ path ++
        "`). Move that state onto the data disk by hand or rebuild the node with the data disk " ++
        "attached.")

def checkListed (mounted : List Text) (path : Text) : Check PUnit := do
  let dev := described probe
  let error := nonempty? (get probe.findError path)
  Flow.returnIf error.isSome
    (dev ++ " cannot be put in place: the contents of " ++ path ++ " could not be listed (" ++
      error.getD [] ++ "), so whether it already holds data cannot be told. Check it by hand " ++
      "with `ls -A " ++ path ++ "`.")
  Flow.returnIf (!mounted.contains path && typeAt probe path == some .directory &&
      (get probe.dirNonempty path).isNone)
    (dev ++ " cannot be put in place: the contents of " ++ path ++ " were not checked. Check it " ++
      "by hand with `ls -A " ++ path ++ "`.")

def holdsData (mounted : List Text) (path : Text) : Bool :=
  !mounted.contains path && (get probe.dirNonempty path).getD false

def checkWritten (mounted : List Text) : Check PUnit := do
  let dev := described probe
  let written := (targets binds).filter (holdsData probe mounted)
  Flow.returnIf (!written.isEmpty)
    (dev ++ " cannot be put in place: " ++ Text.join " and " written ++ " already exist" ++
      (if 1 < written.length then "" else "s") ++ " and " ++
      (if 1 < written.length then "are" else "is") ++ " not empty, so docker or containerd has " ++
      "already written to the root disk. This is a node that was built without a data disk; " ++
      "rebuild it with the data disk attached.")
  Flow.returnIf (holdsData probe mounted mount)
    (dev ++ " cannot be put in place: " ++ mount ++ " is not mounted but already has contents on " ++
      "the root disk, which mounting the data disk would hide. Find out what wrote there " ++
      "(`ls -A " ++ mount ++ "`), move it away or remove it, and re-run.")

def conclude (ours : Bool) (mounted : List Text) : Verdict :=
  if !ours then
    ⟨.blank, described probe ++ " is blank; it will be formatted XFS (label " ++ label ++
      ") and mounted at " ++ mount ++ "."⟩
  else
    let missing := (allowed mount binds).filter fun p => !mounted.contains p
    if !missing.isEmpty then
      ⟨.ours, described probe ++ " holds our XFS filesystem; " ++ Text.join ", " missing ++
        " will be mounted."⟩
    else ⟨.ready, []⟩

def classifyCascade : Check Verdict := do
  checkDevice probe
  let lsblk ← checkLsblk probe
  checkNotRoot probe lsblk
  checkWholeDisk probe lsblk
  let ours ← checkSignature probe label lsblk
  checkMountedWhere probe mount binds lsblk ours
  let mounted ← checkMounts probe mount binds lsblk
  Flow.each (checkPathType probe mounted) (allowed mount binds)
  Flow.each (checkListed probe mounted) (allowed mount binds)
  checkWritten probe mount binds mounted
  return conclude probe mount label binds ours mounted

def nodeStorageClassify : Except PyError Verdict :=
  match classifyCascade probe mount label binds with
  | .next verdict => .ok verdict
  | .ret text => .ok (refuse text)
  | .raise error => .error error

end Cascade

end Provisioner.NodeStorage
