import Provisioner.NodeStorage.Checks
import Provisioner.NodeStorage.Vouched

/-!
# The node the probe reads

The part of a node that the probe's commands report on, and what they print for
it. A layout is what the role's defaults are: the data mount, the label and the
bind mounts, none of the paths inside another.
-/

namespace Provisioner.NodeStorage

/-- `node_storage_mount`, `node_storage_label`, `node_storage_mount_opts` and
`node_storage_binds`. -/
structure Layout where
  mount : Text
  label : Text
  mountOpts : Text
  binds : List Bind
  paths : ∀ p ∈ allowed mount binds, p ≠ [] ∧ p ≠ "/" ∧ beneath p p = true
  apart : (allowed mount binds).Pairwise fun a b => beneath a b = false ∧ beneath b a = false
  subdirs : ∀ b ∈ binds, b.srcSubdir ∉ (["", ".", ".."] : List Text) ∧ '/' ∉ b.srcSubdir
  quota : hasPrjquota (some mountOpts) = true

def Layout.allowed (L : Layout) : List Text := NodeStorage.allowed L.mount L.binds

theorem Layout.nodup (L : Layout) : L.allowed.Nodup := by
  refine L.apart.imp_of_mem ?_
  rintro a b ha - ⟨hne, -⟩ rfl
  rw [(L.paths a ha).2.2] at hne
  cases hne

/-- The role's defaults. -/
def defaultLayout : Layout where
  mount := "/var/lib/docker-data"
  label := "dockerdata"
  mountOpts := "defaults,noatime,prjquota"
  binds := [⟨"/var/lib/docker", "docker"⟩, ⟨"/var/lib/containerd", "containerd"⟩]
  paths := by decide
  apart := by decide
  subdirs := by decide
  quota := by decide

/-- `blkid` is what `blkid -p -o export` answers, `disk` what `lsblk` lists;
`quota` says whether the filesystem, where it is mounted at all, enforces
project quotas, and `formats` counts the runs of `mkfs.xfs` on the device. For a
path: the filesystem visible there, what is there on disk, and whether a
listing finds anything, if it succeeds. -/
structure Host where
  device : Text
  isBlock : Bool
  blkid : Result
  disk : Option BlockDevice
  quota : Bool
  formats : ℕ
  mounts : Text → Option Filesystem
  kind : Text → PathType
  holds : Text → Option Bool

/-- `find` on a directory: it fails, or prints an entry when there is one. -/
def Lists (answer : Result) : Option Bool → Prop
  | none => exited (some answer) 0 = false
  | some b => exited (some answer) 0 = true ∧ (Text.strip answer.stdout).isEmpty = !b

instance (answer : Result) : (o : Option Bool) → Decidable (Lists answer o)
  | none => inferInstanceAs (Decidable (_ = _))
  | some _ => inferInstanceAs (Decidable (_ ∧ _))

/-- The probe's commands were run on the host and printed what they document. -/
structure Reports (L : Layout) (loads : Loads) (raw : Raw) (h : Host) : Prop where
  realpath : resolved raw = h.device
  stat : isBlock raw = h.isBlock
  blkid : h.isBlock = true → raw.blkid = some h.blkid
  lsblk : h.isBlock = true → NodeStorage.lsblk loads raw.lsblk = .ok h.disk
  findmnt : ∃ answer : Text → Result, raw.findmnt = L.allowed.map (fun p => ⟨.path p, answer p⟩) ∧
    ∀ p ∈ L.allowed, NodeStorage.findmnt loads (answer p) = .ok (h.mounts p)
  pathStat : ∃ answer : Text → StatResult, raw.pathStat = L.allowed.map (fun p => ⟨.path p, answer p⟩) ∧
    ∀ p ∈ L.allowed, pathType (answer p) = h.kind p
  find : ∃ answer : Text → Result, raw.find = L.allowed.map (fun p => ⟨.path p, answer p⟩) ∧
    ∀ p ∈ L.allowed, h.kind p = .directory → Lists (answer p) (h.holds p)

/-! ## What the probe makes of it -/

theorem mapM_ok {ε α β : Type} {f : α → Except ε β} {g : α → β} {l : List α}
    (h : ∀ a ∈ l, f a = .ok (g a)) : l.mapM f = .ok (l.map g) := by
  induction l with
  | nil => rfl
  | cons a l ih =>
    rw [List.forall_mem_cons] at h
    rw [List.mapM_cons, h.1, ih h.2]
    rfl

theorem get_rows {α : Type} {l : List Text} (hnodup : l.Nodup) (f : Text → α) (p : Text) :
    get (l.map fun q => (q, f q)) p = if p ∈ l then some (f p) else none := by
  split_ifs with hp
  · refine get_eq_some.mpr (Dict.lastBy_of_mem ?_ (List.mem_map.mpr ⟨p, hp, rfl⟩))
    rwa [List.map_map, show (Prod.fst ∘ fun q => (q, f q)) = id from rfl, List.map_id]
  · rw [get, Dict.lastBy_none.mpr]
    · rfl
    · rintro ⟨q, a⟩ hrow rfl
      obtain ⟨q, hq, heq⟩ := List.mem_map.mp hrow
      cases heq
      exact hp hq

theorem named_paths {α : Type} {l : List Text} (hne : ∀ p ∈ l, p ≠ []) (answer : Text → α) :
    named (l.map fun p => ⟨.path p, answer p⟩) = l.map fun p => (p, answer p) := by
  rw [named, List.filterMap_map, ← List.filterMap_eq_map]
  refine List.filterMap_congr fun p hp => ?_
  simp [itemPath, hne p hp]

theorem filterMap_rows {α : Type} (l : List Text) (c : Text → Prop) [DecidablePred c]
    (f : Text → α) : (l.filterMap fun p => if c p then some (p, f p) else none) =
      (l.filter fun p => c p).map fun p => (p, f p) := by
  induction l with
  | nil => rfl
  | cons p l ih =>
    by_cases hp : c p <;> simp [hp, ih]

/-- The probe's fields in terms of the host. -/
structure Observes (L : Layout) (probe : Probe) (h : Host) : Prop where
  device : probe.device = h.device
  isBlock : probe.isBlock = h.isBlock
  blkid : h.isBlock = true → probe.blkid = NodeStorage.blkid (some h.blkid)
  blkidError : h.isBlock = true →
    probe.blkidError = NodeStorage.blkidError (some h.blkid)
  lsblk : h.isBlock = true → probe.lsblk = h.disk
  mounted : ∀ p ∈ L.allowed, mountedAt probe p = h.mounts p
  kind : ∀ p ∈ L.allowed, typeAt probe p = some (h.kind p)
  error : ∀ p ∈ L.allowed, nonempty? (get probe.findError p) = none ↔
    (h.kind p = .directory → h.holds p ≠ none)
  holds : ∀ p ∈ L.allowed, get probe.dirNonempty p =
    some (h.kind p = .directory && h.holds p = some true && (h.mounts p).isNone)

variable {L : Layout} {loads : Loads} {raw : Raw} {h : Host}

theorem observes_of_reports (hreports : Reports L loads raw h) :
    ∃ probe, nodeStorageBuildProbe loads raw = .ok probe ∧ Observes L probe h := by
  obtain ⟨mountAnswer, hfindmnt, hmounts⟩ := hreports.findmnt
  obtain ⟨statAnswer, hpath_stat, hkinds⟩ := hreports.pathStat
  obtain ⟨findAnswer, hfind, hholds⟩ := hreports.find
  have hne : ∀ p ∈ L.allowed, p ≠ [] := fun p hp => (L.paths p hp).1
  have hbuilt : buildMounts loads raw.findmnt = .ok (L.allowed.map fun p => (p, h.mounts p)) := by
    rw [buildMounts, hfindmnt, List.mapM_map]
    refine mapM_ok fun p hp => ?_
    rw [Function.comp_apply, mountEntry, hmounts p hp]
    rfl
  have htypes : buildTypes raw.pathStat = L.allowed.map fun p => (p, h.kind p) := by
    rw [buildTypes, hpath_stat, named_paths hne, List.map_map]
    exact List.map_congr_left fun p hp => by rw [Function.comp_apply, hkinds p hp]
  have hget : ∀ {α : Type} (f : Text → α) {p : Text}, p ∈ L.allowed →
      get (L.allowed.map fun q => (q, f q)) p = some (f p) := by
    intro α f p hp
    rw [get_rows L.nodup, if_pos hp]
  have hlisted : ∃ listed, (if isBlock raw then lsblk loads raw.lsblk else .ok none) = .ok listed ∧
      (h.isBlock = true → listed = h.disk) := by
    cases hblock : h.isBlock with
    | true =>
      rw [hreports.stat, hblock, if_pos rfl, hreports.lsblk hblock]
      exact ⟨h.disk, rfl, fun _ => rfl⟩
    | false =>
      rw [hreports.stat, hblock, if_neg Bool.false_ne_true]
      exact ⟨none, rfl, fun hfalse => absurd hfalse Bool.false_ne_true⟩
  obtain ⟨listed, hlisted, hdisk⟩ := hlisted
  refine ⟨assemble raw (L.allowed.map fun p => (p, h.mounts p)) listed, ?_, ?_⟩
  · rw [nodeStorageBuildProbe, hbuilt]
    exact except_bind_eq_ok.mpr ⟨_, rfl, except_bind_eq_ok.mpr ⟨listed, hlisted, rfl⟩⟩
  have htype : ∀ {p}, p ∈ L.allowed → get (buildTypes raw.pathStat) p = some (h.kind p) := by
    intro p hp
    rw [htypes, hget h.kind hp]
  have hsome : ∀ {p b}, p ∈ L.allowed → h.kind p = .directory → h.holds p = some b →
      exited (some (findAnswer p)) 0 = true ∧
        (Text.strip (findAnswer p).stdout).isEmpty = !b := by
    intro p b hp hkind hb
    have hanswer := hholds p hp hkind
    rwa [hb] at hanswer
  have hnone : ∀ {p}, p ∈ L.allowed → h.kind p = .directory → h.holds p = none →
      exited (some (findAnswer p)) 0 = false := by
    intro p hp hkind hb
    have hanswer := hholds p hp hkind
    rwa [hb] at hanswer
  refine ⟨hreports.realpath, hreports.stat, ?_, ?_, hdisk, ?_, fun p hp => htype hp, ?_, ?_⟩
  · intro hblock
    rw [assemble_blkid (hreports.stat.trans hblock), hreports.blkid hblock]
  · intro hblock
    rw [assemble_blkidError (hreports.stat.trans hblock), hreports.blkid hblock]
  · intro p hp
    show (get (L.allowed.map fun q => (q, h.mounts q)) p).join = h.mounts p
    rw [hget h.mounts hp, Option.join_some]
  · intro p hp
    show nonempty? (get (buildErrors (buildTypes raw.pathStat) raw.find) p) = none ↔ _
    have hrows := filterMap_rows L.allowed
      (fun q => get (buildTypes raw.pathStat) q = some .directory ∧
        exited (some (findAnswer q)) 0 = false) fun q => findFailure (findAnswer q)
    rw [buildErrors, hfind, named_paths hne, List.filterMap_map]
    refine (congrArg (fun rows => nonempty? (get rows p) = none) hrows).to_iff.trans ?_
    rw [get_rows (L.nodup.filter _)]
    simp only [List.mem_filter, hp, true_and, decide_eq_true_eq, htype hp, Option.some.injEq]
    constructor
    · intro hnonempty hkind hb
      rw [if_pos ⟨hkind, hnone hp hkind hb⟩, nonempty?, Option.filter_some,
        findFailure_nonempty] at hnonempty
      cases hnonempty
    · intro hlistable
      rw [if_neg]
      · rfl
      rintro ⟨hkind, hexit⟩
      obtain ⟨b, hb⟩ := Option.ne_none_iff_exists'.mp (hlistable hkind)
      rw [(hsome hp hkind hb).1] at hexit
      cases hexit
  · intro p hp
    show get (buildNonempty _ (buildTypes raw.pathStat) raw.find) p = _
    rw [buildNonempty, hfind, named_paths hne, List.map_map]
    refine (get_rows L.nodup _ p).trans ?_
    rw [if_pos hp]
    simp only [htype hp, hget h.mounts hp, Option.some.injEq, Option.join_some]
    by_cases hkind : h.kind p = .directory
    · cases hb : h.holds p with
      | none => simp [hkind, hnone hp hkind hb]
      | some b =>
        obtain ⟨hexit, hempty⟩ := hsome hp hkind hb
        simp [hkind, hexit, hempty]
    · simp [hkind]

/-! ## The verdict in terms of the host -/

/-- What blkid's answer says: it could be read, shows no partition table, and
is no signature or ours. -/
structure Signature (label : Text) (answer : Result) (d : BlockDevice) (ours : Bool) : Prop where
  no_error : (NodeStorage.blkidError (some answer)).isEmpty = true
  no_table : nonempty? (get (NodeStorage.blkid (some answer)) "PTTYPE") = none
  signed : Signed ((NodeStorage.blkid (some answer)).filter fun kv => kv.1 != ("DEVNAME" : Text))
    label d ours

/-- A host whose disk is not refused. -/
structure Fit (L : Layout) (h : Host) (d : BlockDevice) (ours : Bool) : Prop where
  device : h.device ≠ []
  isBlock : h.isBlock = true
  listed : h.disk = some d
  not_root : ("/" : Text) ∉ mountpoints d
  whole_disk : d.type = some "disk" ∧ d.children = []
  signature : Signature L.label h.blkid d ours
  not_mounted : ours = false → mountpoints d = []
  points : ∀ p ∈ mountpoints d, ∃ a ∈ L.allowed, beneath p a = true
  right : ∀ p ∈ L.allowed, ∀ m, h.mounts p = some m →
    RightMount h.device L.mount L.binds d p m
  free : ∀ p ∈ L.allowed, h.mounts p = none →
    h.kind p = .absent ∨ h.kind p = .directory ∧ h.holds p = some false
  listable : ∀ p ∈ L.allowed, h.kind p = .directory → h.holds p ≠ none

theorem accepted_iff_fit {probe : Probe} {d : BlockDevice} {ours : Bool}
    (hobserves : Observes L probe h) :
    Accepted probe L.mount L.label L.binds d ours ↔ Fit L h d ours := by
  constructor
  · intro ha
    have hblock : h.isBlock = true := hobserves.isBlock ▸ ha.isBlock
    have herror := ha.blkidError
    have htable := ha.no_table
    have hsigned := ha.signed
    rw [hobserves.blkidError hblock] at herror
    rw [signature, hobserves.blkid hblock] at hsigned
    rw [hobserves.blkid hblock] at htable
    refine ⟨?_, hblock, (hobserves.lsblk hblock).symm.trans ha.listed, ha.not_root, ha.whole_disk,
      ⟨herror, htable, hsigned⟩, ha.not_mounted, ha.points, ?_, ?_, ?_⟩
    · have hdevice := ha.device
      rw [hobserves.device] at hdevice
      exact List.isEmpty_eq_false_iff.mp hdevice
    · intro p hp m hm
      rw [← hobserves.device]
      exact ha.right p hp m ((hobserves.mounted p hp).trans hm)
    · intro p hp hnone
      have hfree := (hobserves.mounted p hp).trans hnone
      obtain habsent | hdirectory := ha.pathType p hp hfree
      · rw [hobserves.kind p hp] at habsent
        exact .inl (Option.some.inj habsent)
      · have hempty := ha.empty p hp hfree
        rw [hobserves.kind p hp] at hdirectory
        have hkind := Option.some.inj hdirectory
        obtain ⟨b, hb⟩ := Option.ne_none_iff_exists'.mp
          ((hobserves.error p hp).mp (ha.no_error p hp) hkind)
        rw [hobserves.holds p hp, hkind, hb, hnone] at hempty
        cases b with
        | false => exact .inr ⟨hkind, hb⟩
        | true => exact absurd hempty (by decide)
    · exact fun p hp => (hobserves.error p hp).mp (ha.no_error p hp)
  · intro hfit
    have hmounts : ∀ p ∈ L.allowed, mountedAt probe p = none → h.mounts p = none :=
      fun p hp hnone => (hobserves.mounted p hp).symm.trans hnone
    refine ⟨?_, hobserves.isBlock.trans hfit.isBlock,
      (hobserves.lsblk hfit.isBlock).trans hfit.listed, hfit.not_root, hfit.whole_disk, ?_, ?_, ?_,
      hfit.not_mounted, hfit.points, ?_, ?_, ?_, ?_, ?_⟩
    · rw [hobserves.device]
      exact List.isEmpty_eq_false_iff.mpr hfit.device
    · rw [hobserves.blkidError hfit.isBlock]
      exact hfit.signature.no_error
    · rw [hobserves.blkid hfit.isBlock]
      exact hfit.signature.no_table
    · rw [signature, hobserves.blkid hfit.isBlock]
      exact hfit.signature.signed
    · intro p hp m hm
      rw [hobserves.device]
      exact hfit.right p hp m ((hobserves.mounted p hp).symm.trans hm)
    · intro p hp hnone
      rw [hobserves.kind p hp]
      exact (hfit.free p hp (hmounts p hp hnone)).imp (congrArg some) fun hdir => congrArg some hdir.1
    · exact fun p hp => (hobserves.error p hp).mpr (hfit.listable p hp)
    · intro p hp _ _
      rw [hobserves.holds p hp]
      rfl
    · intro p hp hnone
      rw [hobserves.holds p hp, Option.getD_some]
      obtain habsent | ⟨hkind, hempty⟩ := hfit.free p hp (hmounts p hp hnone)
      · rw [habsent]
        rfl
      · rw [hkind, hempty]
        rfl

def Host.state (L : Layout) (h : Host) (ours : Bool) : DiskState :=
  if ours = false then .blank
  else if ∀ p ∈ L.allowed, h.mounts p ≠ none then .ready
  else .ours

theorem conclude_observed {probe : Probe} (hobserves : Observes L probe h) (ours : Bool) :
    (conclude probe L.mount L.label L.binds ours (mountedPaths probe L.mount L.binds)).state =
      h.state L ours := by
  have hall : (∀ p ∈ L.allowed, mountedAt probe p ≠ none) ↔ ∀ p ∈ L.allowed, h.mounts p ≠ none :=
    forall₂_congr fun p hp => by rw [hobserves.mounted p hp]
  rw [conclude_state, Host.state]
  simp only [← hall]
  rfl

def Classifies (L : Layout) (loads : Loads) (raw : Raw) (v : Verdict) : Prop :=
  ∃ probe, nodeStorageBuildProbe loads raw = .ok probe ∧
    nodeStorageClassify probe L.mount L.label L.binds = .ok v

theorem classifies_of_fit {d : BlockDevice} {ours : Bool} (hreports : Reports L loads raw h)
    (hfit : Fit L h d ours) : ∃ v, Classifies L loads raw v ∧ v.state = h.state L ours := by
  obtain ⟨probe, hprobe, hobserves⟩ := observes_of_reports hreports
  have hstate := conclude_observed hobserves ours
  refine ⟨_, ⟨probe, hprobe, (classify_iff ?_).mpr
    ⟨d, ours, (accepted_iff_fit hobserves).mpr hfit, rfl⟩⟩, hstate⟩
  rw [hstate, Host.state]
  split_ifs <;> exact nofun

theorem fit_of_classifies {v : Verdict} (hreports : Reports L loads raw h)
    (hv : Classifies L loads raw v) (hstate : v.state ≠ .refuse) :
    ∃ d ours, Fit L h d ours ∧ v.state = h.state L ours := by
  obtain ⟨probe, hprobe, hclassify⟩ := hv
  obtain ⟨probe', hprobe', hobserves⟩ := observes_of_reports hreports
  rw [hprobe] at hprobe'
  cases hprobe'
  obtain ⟨d, ours, haccepted, rfl⟩ := (classify_iff hstate).mp hclassify
  exact ⟨d, ours, (accepted_iff_fit hobserves).mp haccepted, conclude_observed hobserves ours⟩

end Provisioner.NodeStorage
