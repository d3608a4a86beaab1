import Mathlib.Logic.Function.Basic
import Provisioner.Library.Cuts
import Provisioner.NodeStorage.Host

/-!
# Setting up the data disk

`tasks/apply.yml` as the list of its tasks, what each leaves on the node, and
the nodes that runs cut at any task lead to.
-/

namespace Provisioner.NodeStorage

open Cuts (Done)

/-! ## The tasks -/

/-- `mountpoint`, `fstab` and the mount itself are the three parts of the mount
module's `mounted`; `present` is the second alone. -/
inductive Task where
  | requireClassification
  | installXfsprogs
  | mkfs
  | readUuid
  | mountpoint (path : Text)
  | fstab (path : Text)
  | mountData
  | source (b : Bind)
  | bind (b : Bind)
  | dropinDirectories
  | dropins
  | reload
  | verify
deriving DecidableEq, Repr

/-- What a run goes by: the class, and where its probe saw a mount. -/
structure Facts where
  state : DiskState
  mounted : Text → Bool

def facts (probe : Probe) (v : Verdict) : Facts :=
  ⟨v.state, fun p => (mountedAt probe p).isSome⟩

def mountTask (f : Facts) (path : Text) (mount : Task) : List Task :=
  if f.mounted path then [.fstab path] else [.mountpoint path, .fstab path, mount]

def sources (L : Layout) (f : Facts) : List Task :=
  if f.state ≠ .ready then L.binds.map .source else []

def bindMounts (L : Layout) (f : Facts) : List Task :=
  L.binds.flatMap fun b => mountTask f b.target (.bind b)

def apply (L : Layout) (f : Facts) : List Task :=
  [.requireClassification, .installXfsprogs] ++
  (if f.state = .blank then [.mkfs] else []) ++
  [.readUuid] ++
  mountTask f L.mount .mountData ++
  sources L f ++
  bindMounts L f ++
  [.dropinDirectories, .dropins, .reload, .verify]

/-! ## What they leave -/

/-- `blkid` on the filesystem that `mkfs.xfs -L label` made. -/
structure Formatted (label : Text) (answer : Result) : Prop where
  read : exited (some answer) 0 = true
  type : get (parseBlkid answer.stdout) "TYPE" = some "xfs"
  label : get (parseBlkid answer.stdout) "LABEL" = some label
  no_table : get (parseBlkid answer.stdout) "PTTYPE" = none

/-- `lsblk` lists the same disk, mounted at `added` as well. -/
structure Relisted (added : List Text) (d d' : BlockDevice) : Prop where
  name : d'.name = d.name
  path : d'.path = d.path
  type : d'.type = d.type
  children : d'.children = d.children
  mountpoints : ∀ q, q ∈ NodeStorage.mountpoints d' ↔ q ∈ NodeStorage.mountpoints d ∨ q ∈ added

def Host.mountedSomewhere (h : Host) : Bool := h.disk.any fun d => !(mountpoints d).isEmpty

def Host.mountedOn (h : Host) (path : Text) (m : Filesystem) (disk : Option BlockDevice)
    (holds : Bool) : Host :=
  { h with
    disk := disk
    mounts := Function.update h.mounts path (some m)
    kind := Function.update h.kind path .directory
    holds := Function.update h.holds path (some holds) }

/-- The options that belong to the filesystem are those of its first mount:
a filesystem that is mounted somewhere already keeps them. -/
def Host.quotaAfter (L : Layout) (h : Host) : Bool :=
  if h.mountedSomewhere then h.quota else hasPrjquota (some L.mountOpts)

def Effect (L : Layout) : Task → Host → Host → Prop
  | .mkfs, h, h' => ∃ answer disk, Formatted L.label answer ∧
      Option.Rel (Relisted []) h.disk disk ∧
      h' = { h with blkid := answer, disk := disk, formats := h.formats + 1 }
  | .mountpoint path, h, h' => h' =
      if h.kind path = .absent then
        { h with
          kind := Function.update h.kind path .directory
          holds := Function.update h.holds path (some false) }
      else h
  | .mountData, h, h' => ∃ m disk holds,
      (∀ d ∈ disk, kname (some (splitSource m.source).1) ∈ names h.device d) ∧
      (splitSource m.source).2 = "/" ∧ hasPrjquota m.options = h.quotaAfter L ∧
      Option.Rel (Relisted [L.mount]) h.disk disk ∧
      h' = { h.mountedOn L.mount m disk holds with quota := h.quotaAfter L }
  -- Without the data mount the directory would be made on the root disk.
  | .source _, h, h' => h' =
      { h with
        kind := Function.update h.kind L.mount .directory
        holds := Function.update h.holds L.mount (some true) }
  -- Without the data mount it would be a directory of the root disk that is bound.
  | .bind b, h, h' => ∃ m disk holds,
      (match h.mounts L.mount with
      | none => disk = h.disk
      | some data => (splitSource m.source).1 = (splitSource data.source).1 ∧
          ((splitSource data.source).2 = "/" →
            (splitSource m.source).2 = "/" ++ b.srcSubdir) ∧
          Option.Rel (Relisted [b.target]) h.disk disk) ∧
      h' = h.mountedOn b.target m disk holds
  | .requireClassification, h, h' => h' = h
  | .installXfsprogs, h, h' => h' = h
  | .readUuid, h, h' => h' = h
  | .fstab _, h, h' => h' = h
  | .dropinDirectories, h, h' => h' = h
  | .dropins, h, h' => h' = h
  | .reload, h, h' => h' = h
  | .verify, h, h' => h' = h

/-- The nodes that runs lead to, each probed and classified at its start and
cut at any task. A disk that is refused is left alone. -/
inductive Reached (L : Layout) (h₀ : Host) : Host → Prop where
  | start : Reached L h₀ h₀
  | run {h h' : Host} (hreached : Reached L h₀ h) {loads : Loads} {raw : Raw} {probe : Probe}
      {v : Verdict} (hreports : Reports L loads raw h)
      (hprobe : nodeStorageBuildProbe loads raw = .ok probe)
      (hclassify : nodeStorageClassify probe L.mount L.label L.binds = .ok v)
      (hstate : v.state ≠ .refuse) {done rest : List Task}
      (happly : apply L (facts probe v) = done ++ rest) (hdone : Done (Effect L) done h h') :
      Reached L h₀ h'

end Provisioner.NodeStorage
