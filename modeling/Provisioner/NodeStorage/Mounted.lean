import Provisioner.NodeStorage.Host

/-!
# What a path that counts as mounted is mounted from

The paths the cascade takes for mounted are skipped by its emptiness checks.
The source of a mount is recognised by its last component alone, and what else
has to be there for the filesystem to be the disk's own is checked in full.
-/

namespace Provisioner.NodeStorage

section Examined

variable (probe : Probe) (mount label : Text) (binds : List Bind)

/-- The cascade up to its emptiness checks: whether the disk is ours, and the
paths that are mounted. -/
def examined : Check (Bool × List Text) := do
  checkDevice probe
  let lsblk ← checkLsblk probe
  checkNotRoot probe lsblk
  checkWholeDisk probe lsblk
  let ours ← checkSignature probe label lsblk
  checkMountedWhere probe mount binds lsblk ours
  let mounted ← checkMounts probe mount binds lsblk
  return (ours, mounted)

def emptiness (ours : Bool) (mounted : List Text) : Check Verdict := do
  Flow.each (checkPathType probe mounted) (allowed mount binds)
  Flow.each (checkListed probe mounted) (allowed mount binds)
  checkWritten probe mount binds mounted
  return conclude probe mount label binds ours mounted

variable {probe mount label binds}

theorem classifyCascade_eq : classifyCascade probe mount label binds =
    examined probe mount label binds >>= fun e => emptiness probe mount label binds e.1 e.2 := by
  simp only [classifyCascade, examined, Flow.bind_assoc, Flow.pure_bind, emptiness]

/-- What is known of a disk whose mounts have been checked. -/
structure Examined (probe : Probe) (mount label : Text) (binds : List Bind) (d : BlockDevice)
    (ours : Bool) : Prop where
  device : probe.device.isEmpty = false
  isBlock : probe.isBlock = true
  listed : probe.lsblk = some d
  not_root : ("/" : Text) ∉ mountpoints d ∧
    ∀ node ∈ walkAll d.children, ("/" : Text) ∉ mountpoints node
  whole_disk : d.type = some "disk" ∧ d.children = []
  blkidError : probe.blkidError.isEmpty = true
  no_table : nonempty? (get probe.blkid "PTTYPE") = none
  signed : Signed (signature probe) label d ours
  not_mounted : ours = false → mountpoints d = []
  points : ∀ p ∈ mountpoints d, ∃ a ∈ allowed mount binds, beneath p a = true
  right : ∀ path ∈ allowed mount binds, ∀ m, mountedAt probe path = some m →
    RightMount probe.device mount binds d path m

theorem examined_iff {e : Bool × List Text} : examined probe mount label binds = .next e ↔
    ∃ d, Examined probe mount label binds d e.1 ∧ e.2 = mountedPaths probe mount binds := by
  simp only [examined, Flow.bind_eq_next, Flow.pure_eq_next, exists_const, checkDevice_iff,
    checkLsblk_iff, checkNotRoot_iff, checkWholeDisk_iff, checkSignature_iff,
    checkMountedWhere_iff, checkMounts_iff]
  constructor
  · rintro ⟨⟨hdevice, hblock⟩, d, hlisted, hroot, hwhole, ours, ⟨herror, htable, hsigned⟩,
      ⟨hunsigned, hpoints⟩, _, ⟨hright, rfl⟩, rfl⟩
    exact ⟨d, ⟨hdevice, hblock, hlisted, hroot, hwhole, herror, htable, hsigned, hunsigned,
      hpoints, hright⟩, rfl⟩
  · rintro ⟨d, h, hmounted⟩
    exact ⟨⟨h.device, h.isBlock⟩, d, h.listed, h.not_root, h.whole_disk, e.1,
      ⟨h.blkidError, h.no_table, h.signed⟩, ⟨h.not_mounted, h.points⟩, _, ⟨h.right, rfl⟩,
      by rw [← hmounted]⟩

end Examined

/-- What a process sees at a path: the last filesystem that the last answer of
`findmnt` about the path lists. -/
def Visible (loads : Loads) (raw : Raw) (path : Text) (m : Filesystem) : Prop :=
  ∃ r, findmntAt raw path = some r ∧ exited (some r) 0 = true ∧
    ∃ listed, doc loads.filesystems r.stdout = .ok listed ∧ listed.getLast? = some m

theorem mountedAt_iff {loads : Loads} {raw : Raw} {probe : Probe}
    (hprobe : nodeStorageBuildProbe loads raw = .ok probe) {path : Text} {m : Filesystem} :
    mountedAt probe path = some m ↔ Visible loads raw path m := by
  obtain ⟨mounts, listed, hmounts, -, rfl⟩ := build_probe_ok hprobe
  have hrel := mounts_rel hmounts path
  rw [mountedAt, show (assemble raw mounts listed).mounts = mounts from rfl]
  unfold Visible
  revert hrel
  generalize get mounts path = o
  generalize findmntAt raw path = answer
  rintro (hanswer | _)
  · rename_i r o
    simp only [Option.join_some, Option.some.injEq, exists_eq_left']
    unfold findmnt at hanswer
    split at hanswer
    · rename_i hexit
      obtain ⟨fs, hfs, rfl⟩ := except_map_eq_ok.mp hanswer
      simp [hexit, hfs]
    · rename_i hexit
      cases hanswer
      simp [hexit]
  · simp

theorem lsblk_of_probe {loads : Loads} {raw : Raw} {probe : Probe} {d : BlockDevice}
    (hprobe : nodeStorageBuildProbe loads raw = .ok probe) (hblock : probe.isBlock = true)
    (hlisted : probe.lsblk = some d) : lsblk loads raw.lsblk = .ok (some d) := by
  obtain ⟨mounts, listed, -, hlsblk, rfl⟩ := build_probe_ok hprobe
  rw [hlsblk hblock, ← hlisted]
  rfl

def Within (base path : Text) : Prop :=
  ∃ rest, path = Text.rstripChar '/' base ++ rest ∧ ∀ c ∈ rest.head?, c = '/'

theorem within_of_beneath {path base : Text} (h : beneath path base = true) : Within base path := by
  unfold beneath at h
  cases hstripped : Text.rstripChar '/' base with
  | nil =>
    rw [hstripped] at h
    obtain rfl | hprefix : path = ['/'] ∨ ['/', '/'].isPrefixOf path = true := by
      simpa using h
    · exact ⟨['/'], by rw [hstripped]; rfl, by simp⟩
    · obtain ⟨rest, rfl⟩ := List.isPrefixOf_iff_prefix.mp hprefix
      exact ⟨['/', '/'] ++ rest, by rw [hstripped]; rfl, by simp⟩
  | cons c t =>
    rw [hstripped] at h
    obtain rfl | hprefix : path = c :: t ∨ (c :: t ++ ['/']).isPrefixOf path = true := by
      simpa using h
    · exact ⟨[], by rw [hstripped, List.append_nil], by simp⟩
    · obtain ⟨rest, rfl⟩ := List.isPrefixOf_iff_prefix.mp hprefix
      exact ⟨'/' :: rest, by rw [hstripped]; simp, by simp⟩

section Disk

variable (L : Layout) (loads : Loads) (raw : Raw) (probe : Probe)

def Skipped (path : Text) : Prop :=
  ∃ e, examined probe L.mount L.label L.binds = .next e ∧ path ∈ e.2

/-- The filesystem is the part of the device that belongs at the path. -/
structure OnDisk (device path : Text) (m : Filesystem) : Prop where
  source : (splitSource m.source).1 = device
  root : path = L.mount → (splitSource m.source).2 = "/" ∧ hasPrjquota m.options = true
  subdir : ∀ b ∈ L.binds, b.target = path → (splitSource m.source).2 = "/" ++ b.srcSubdir

structure MountedFromDisk : Prop where
  ready : ∀ v, nodeStorageClassify probe L.mount L.label L.binds = .ok v → v.state = .ready →
    ∀ path ∈ L.allowed, Skipped L probe path
  visible : ∀ path, Skipped L probe path →
    ∃ m, Visible loads raw path m ∧ OnDisk L (resolved raw) path m
  nowhere_else : ∀ path, Skipped L probe path →
    ∃ d, lsblk loads raw.lsblk = .ok (some d) ∧ ∀ p ∈ mountpoints d, ∃ a ∈ L.allowed, Within a p

/-- Another device, or an export, that ends in one of the device's names. -/
def Lookalike (device : Text) (d : BlockDevice) (m : Filesystem) : Prop :=
  kname (some (splitSource m.source).1) ∈ names device d ∧ (splitSource m.source).1 ≠ device

variable {L loads raw probe}

theorem skipped_iff {path : Text} : Skipped L probe path ↔
    path ∈ L.allowed ∧ mountedAt probe path ≠ none ∧
      ∃ d ours, Examined probe L.mount L.label L.binds d ours := by
  constructor
  · rintro ⟨e, he, hpath⟩
    obtain ⟨d, hexamined, hmounted⟩ := examined_iff.mp he
    rw [hmounted] at hpath
    have hallowed : path ∈ L.allowed := (List.mem_filter.mp hpath).1
    exact ⟨hallowed, (mem_mountedPaths hallowed).mp hpath, d, e.1, hexamined⟩
  · rintro ⟨hallowed, hmounted, d, ours, hexamined⟩
    exact ⟨(ours, mountedPaths probe L.mount L.binds), examined_iff.mpr ⟨d, hexamined, rfl⟩,
      (mem_mountedPaths hallowed).mpr hmounted⟩

theorem examined_of_classify {v : Verdict}
    (h : nodeStorageClassify probe L.mount L.label L.binds = .ok v) (hstate : v.state = .ready) :
    (∃ d ours, Examined probe L.mount L.label L.binds d ours) ∧
      ∀ path ∈ L.allowed, mountedAt probe path ≠ none := by
  obtain ⟨d, ours, haccepted, rfl⟩ := (classify_iff (by rw [hstate]; decide)).mp h
  constructor
  · have hcascade : classifyCascade probe L.mount L.label L.binds = .next _ :=
      classifyCascade_iff.mpr ⟨d, ours, haccepted, rfl⟩
    rw [classifyCascade_eq] at hcascade
    obtain ⟨e, he, -⟩ := Flow.bind_eq_next.mp hcascade
    obtain ⟨d', hexamined, -⟩ := examined_iff.mp he
    exact ⟨d', e.1, hexamined⟩
  · rw [conclude_state] at hstate
    split_ifs at hstate with hours hall
    exact hall

theorem wantedSubdir_eq {b : Bind} (hb : b ∈ L.binds) :
    wantedSubdir L.binds b.target = "/" ++ b.srcSubdir := by
  have hnodup : (L.binds.map Bind.target).Nodup := (List.nodup_cons.mp L.nodup).2
  cases hfind : L.binds.find? fun b' => b'.target == b.target with
  | none => exact absurd (List.find?_eq_none.mp hfind b hb) (by simp)
  | some b' =>
    have htarget : b'.target = b.target := by simpa using List.find?_some hfind
    have hsame := List.inj_on_of_nodup_map hnodup (List.mem_of_find?_eq_some hfind) hb htarget
    rw [wantedSubdir, hfind, hsame]
    rfl

theorem onDisk_of_right {d : BlockDevice} {path : Text} {m : Filesystem}
    (hright : RightMount probe.device L.mount L.binds d path m)
    (hsource : (splitSource m.source).1 = probe.device) : OnDisk L probe.device path m where
  source := hsource
  root := hright.root
  subdir := by
    rintro b hb rfl
    rw [← wantedSubdir_eq hb]
    apply hright.subdir
    rintro heq
    have hnot : L.mount ∉ L.binds.map Bind.target := (List.nodup_cons.mp L.nodup).1
    exact hnot (heq ▸ List.mem_map_of_mem hb)

/-- What counts as mounted is mounted from the disk exactly where no other
source at one of the paths ends in a name of the device. -/
theorem mounted_from_disk_iff (hprobe : nodeStorageBuildProbe loads raw = .ok probe) :
    MountedFromDisk L loads raw probe ↔
      ∀ d ours, Examined probe L.mount L.label L.binds d ours →
        ∀ path ∈ L.allowed, ∀ m, Visible loads raw path m → ¬ Lookalike (resolved raw) d m := by
  have hdevice : probe.device = resolved raw := by
    obtain ⟨mounts, listed, -, -, rfl⟩ := build_probe_ok hprobe
    rfl
  constructor
  · intro h d ours hexamined path hpath m hm
    have hmounted := (mountedAt_iff hprobe).mpr hm
    have hskipped : Skipped L probe path :=
      skipped_iff.mpr ⟨hpath, by rw [hmounted]; exact Option.some_ne_none m, d, ours, hexamined⟩
    obtain ⟨m', hm', hdisk⟩ := h.visible path hskipped
    obtain rfl : m' = m := Option.some.inj (((mountedAt_iff hprobe).mpr hm').symm.trans hmounted)
    exact fun hlook => hlook.2 hdisk.source
  · intro h
    constructor
    · intro v hv hstate path hpath
      obtain ⟨hexamined, hmounted⟩ := examined_of_classify hv hstate
      exact skipped_iff.mpr ⟨hpath, hmounted path hpath, hexamined⟩
    · intro path hskipped
      obtain ⟨hpath, hmounted, d, ours, hexamined⟩ := skipped_iff.mp hskipped
      obtain ⟨m, hm⟩ := Option.ne_none_iff_exists'.mp hmounted
      have hright := hexamined.right path hpath m hm
      have hvisible := (mountedAt_iff hprobe).mp hm
      have hsource : (splitSource m.source).1 = probe.device := by
        by_contra hne
        exact h d ours hexamined path hpath m hvisible ⟨hdevice ▸ hright.source, hdevice ▸ hne⟩
      exact ⟨m, hvisible, hdevice ▸ onDisk_of_right hright hsource⟩
    · intro path hskipped
      obtain ⟨-, -, d, ours, hexamined⟩ := skipped_iff.mp hskipped
      refine ⟨d, lsblk_of_probe hprobe hexamined.isBlock hexamined.listed, fun p hp => ?_⟩
      obtain ⟨a, ha, hbeneath⟩ := hexamined.points p hp
      exact ⟨a, ha, within_of_beneath hbeneath⟩

end Disk

/-! ## A node whose three paths are mounted -/

section Mounts

def mountAnswer (source options : Text) : Text :=
  "\x7b\"filesystems\":[\x7b\"source\":\"" ++ source ++ "\",\"options\":\"" ++ options ++
    "\"\x7d]\x7d"

variable (device : Text) (listed : BlockDevice)

def mountLoads : Loads where
  blockdevices _ := .ok [listed]
  filesystems t :=
    if t = mountAnswer device "rw,prjquota" then .ok [⟨some device, some "rw,prjquota"⟩]
    else if t = mountAnswer (device ++ "[/docker]") "rw" then
      .ok [⟨some (device ++ "[/docker]"), some "rw"⟩]
    else if t = mountAnswer (device ++ "[/containerd]") "rw" then
      .ok [⟨some (device ++ "[/containerd]"), some "rw"⟩]
    else .error .value

/-- The data disk holds our filesystem, and the paths are mounted from `device`. -/
def mountRaw : Raw :=
  { fresh { rc := some 0, stdout := "DEVNAME=/dev/xvdb\nLABEL=dockerdata\nTYPE=xfs\n" } with
    findmnt :=
      [⟨.path "/var/lib/docker-data",
         { rc := some 0, stdout := mountAnswer device "rw,prjquota" }⟩,
       ⟨.path "/var/lib/docker",
         { rc := some 0, stdout := mountAnswer (device ++ "[/docker]") "rw" }⟩,
       ⟨.path "/var/lib/containerd",
         { rc := some 0, stdout := mountAnswer (device ++ "[/containerd]") "rw" }⟩] }

def mountProbe : Probe :=
  assemble (mountRaw device)
    [("/var/lib/docker-data", some ⟨some device, some "rw,prjquota"⟩),
     ("/var/lib/docker", some ⟨some (device ++ "[/docker]"), some "rw"⟩),
     ("/var/lib/containerd", some ⟨some (device ++ "[/containerd]"), some "rw"⟩)]
    (some listed)

/-- The data disk with what `lsblk` lists of its mounts. -/
def readyLsblk : BlockDevice :=
  .mk (some "xvdb") (some "/dev/xvdb") (some "disk") (some "xfs")
    (some [some ("/var/lib/containerd" : Text), some ("/var/lib/docker" : Text),
      some ("/var/lib/docker-data" : Text)]) none []

set_option maxRecDepth 20000 in
theorem mounted_from_disk_ready :
    nodeStorageClassify (mountProbe "/dev/xvdb" readyLsblk) defaultLayout.mount
        defaultLayout.label defaultLayout.binds = .ok ⟨.ready, []⟩ ∧
      (MountedFromDisk defaultLayout (mountLoads "/dev/xvdb" readyLsblk) (mountRaw "/dev/xvdb")
          (mountProbe "/dev/xvdb" readyLsblk) ↔
        ∀ d ours, Examined (mountProbe "/dev/xvdb" readyLsblk) defaultLayout.mount
            defaultLayout.label defaultLayout.binds d ours →
          ∀ path ∈ defaultLayout.allowed, ∀ m,
            Visible (mountLoads "/dev/xvdb" readyLsblk) (mountRaw "/dev/xvdb") path m →
              ¬ Lookalike (resolved (mountRaw "/dev/xvdb")) d m) :=
  ⟨by decide, mounted_from_disk_iff rfl⟩

/-! ## A volume group's logical volume of the disk's name -/

def mapper : Text := "/dev/mapper/xvdb"

set_option maxRecDepth 20000 in
theorem ready_from_mapper :
    nodeStorageBuildProbe (mountLoads mapper freshLsblk) (mountRaw mapper) =
        .ok (mountProbe mapper freshLsblk) ∧
      nodeStorageClassify (mountProbe mapper freshLsblk) defaultLayout.mount
        defaultLayout.label defaultLayout.binds = .ok ⟨.ready, []⟩ ∧
      ¬ MountedFromDisk defaultLayout (mountLoads mapper freshLsblk) (mountRaw mapper)
        (mountProbe mapper freshLsblk) := by
  have hprobe : nodeStorageBuildProbe (mountLoads mapper freshLsblk) (mountRaw mapper) =
      .ok (mountProbe mapper freshLsblk) := rfl
  have hready : nodeStorageClassify (mountProbe mapper freshLsblk) defaultLayout.mount
      defaultLayout.label defaultLayout.binds = .ok ⟨.ready, []⟩ := by decide
  refine ⟨hprobe, hready, fun h => ?_⟩
  have hskipped := h.ready _ hready rfl defaultLayout.mount List.mem_cons_self
  obtain ⟨m, hm, hdisk⟩ := h.visible _ hskipped
  have hmounted : mountedAt (mountProbe mapper freshLsblk) defaultLayout.mount =
      some ⟨some mapper, some "rw,prjquota"⟩ := by decide
  rw [(mountedAt_iff hprobe).mpr hm] at hmounted
  cases hmounted
  have hsource := hdisk.source
  revert hsource
  decide

end Mounts

end Provisioner.NodeStorage
