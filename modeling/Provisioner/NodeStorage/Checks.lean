import Provisioner.NodeStorage.Classify

/-!
# What each check of the cascade lets through

Every check is read back as the condition under which it passes, and the whole
cascade as one structure: what a probe must say for the disk not to be refused.
-/

namespace Provisioner.NodeStorage

section Checks

variable {probe : Probe} {mount label : Text} {binds : List Bind} {d : BlockDevice}

theorem checkDevice_iff {u : PUnit} : checkDevice probe = .next u ↔
    probe.device.isEmpty = false ∧ probe.isBlock = true := by
  simp only [checkDevice, Flow.bind_eq_next, Flow.returnIf_eq_next, Bool.not_eq_false',
    exists_const]

theorem checkLsblk_iff : checkLsblk probe = .next d ↔ probe.lsblk = some d := by
  unfold checkLsblk
  cases probe.lsblk with
  | none => simp
  | some e => simp

theorem checkNotRoot_iff {u : PUnit} : checkNotRoot probe d = .next u ↔
    ("/" : Text) ∉ mountpoints d ∧
      ∀ node ∈ walkAll d.children, ("/" : Text) ∉ mountpoints node := by
  simp only [checkNotRoot, Flow.bind_eq_next, Flow.returnIf_eq_next, exists_const]
  refine and_congr (by simp) ?_
  cases hfind : (walkAll d.children).find? fun node => (mountpoints node).contains ("/" : Text) with
  | none => simpa using hfind
  | some node =>
    have hmem := List.mem_of_find?_eq_some hfind
    have hroot := List.find?_some hfind
    refine iff_of_false (fun h => ?_) fun h => h node hmem ?_
    · cases h
    · simpa using hroot

theorem checkWholeDisk_iff {u : PUnit} : checkWholeDisk probe d = .next u ↔
    d.type = some "disk" ∧ d.children = [] := by
  simp only [checkWholeDisk, Flow.bind_eq_next, Flow.returnIf_eq_next, exists_const]
  refine and_congr (by simp) (by simp)

/-- What blkid found on the disk, apart from the name of the device. -/
def signature (probe : Probe) : List (Text × Text) :=
  probe.blkid.filter fun kv => kv.1 != ("DEVNAME" : Text)

def Signed (signature : List (Text × Text)) (label : Text) (d : BlockDevice) : Bool → Prop
  | false => signature = [] ∧ nonempty? d.fstype = none
  | true => signature ≠ [] ∧ get signature "TYPE" = some "xfs" ∧
      get signature "LABEL" = some label

theorem checkSignature_iff {ours : Bool} : checkSignature probe label d = .next ours ↔
    probe.blkidError.isEmpty = true ∧ nonempty? (get probe.blkid "PTTYPE") = none ∧
      Signed (signature probe) label d ours := by
  simp only [checkSignature, Flow.bind_eq_next, Flow.returnIf_eq_next, exists_const]
  refine and_congr (by simp) (and_congr (by simp) ?_)
  rw [signature]
  generalize (probe.blkid.filter fun kv => kv.1 != ("DEVNAME" : Text)) = sig
  cases sig with
  | nil =>
    simp only [List.isEmpty_nil, if_true, Flow.bind_eq_next, Flow.returnIf_eq_next, exists_const,
      Flow.pure_eq_next]
    cases ours <;> simp [Signed]
  | cons kv rest =>
    simp only [List.isEmpty_cons, Bool.false_eq_true, if_false, Flow.bind_eq_next,
      Flow.returnIf_eq_next, exists_const, Flow.pure_eq_next]
    cases ours <;> simp [Signed]

theorem checkMountedWhere_iff {ours : Bool} {u : PUnit} :
    checkMountedWhere probe mount binds d ours = .next u ↔
      (ours = false → mountpoints d = []) ∧
        ∀ p ∈ mountpoints d, ∃ a ∈ allowed mount binds, beneath p a = true := by
  simp only [checkMountedWhere, Flow.bind_eq_next, Flow.returnIf_eq_next, exists_const]
  refine and_congr ?_ ?_
  · cases ours <;> simp
  · simp

/-- The filesystem mounted at one of the paths is the one that belongs there. -/
structure RightMount (device : Text) (mount : Text) (binds : List Bind) (d : BlockDevice)
    (path : Text) (m : Filesystem) : Prop where
  source : kname (some (splitSource m.source).1) ∈ names device d
  root : path = mount → (splitSource m.source).2 = "/" ∧ hasPrjquota m.options = true
  subdir : path ≠ mount → (splitSource m.source).2 = wantedSubdir binds path

theorem checkMount_iff {path : Text} {o : Option Text} :
    checkMount probe mount binds d path = .next o ↔
      (mountedAt probe path = none ∧ o = none) ∨
        ∃ m, mountedAt probe path = some m ∧ RightMount probe.device mount binds d path m ∧
          o = some path := by
  unfold checkMount
  cases hm : mountedAt probe path with
  | none => simp [eq_comm]
  | some m =>
    simp only [Option.some.injEq, reduceCtorEq, false_and, false_or, exists_eq_left',
      Flow.bind_eq_next, Flow.returnIf_eq_next, exists_const, Bool.not_eq_false',
      List.contains_iff_mem]
    by_cases hpath : path = mount
    · simp only [if_pos hpath, Flow.bind_eq_next, Flow.returnIf_eq_next, exists_const,
        Bool.not_eq_false', Flow.pure_eq_next, bne_eq_false_iff_eq]
      constructor
      · rintro ⟨hsource, hsub, hquota, rfl⟩
        exact ⟨⟨hsource, fun _ => ⟨hsub, hquota⟩, fun h => absurd hpath h⟩, rfl⟩
      · rintro ⟨hright, rfl⟩
        obtain ⟨hsub, hquota⟩ := hright.root hpath
        exact ⟨hright.source, hsub, hquota, rfl⟩
    · simp only [if_neg hpath, Flow.bind_eq_next, Flow.returnIf_eq_next, exists_const,
        Flow.pure_eq_next, bne_eq_false_iff_eq]
      constructor
      · rintro ⟨hsource, hsub, rfl⟩
        exact ⟨⟨hsource, fun h => absurd h hpath, fun _ => hsub⟩, rfl⟩
      · rintro ⟨hright, rfl⟩
        exact ⟨hright.source, hright.subdir hpath, rfl⟩

def mountedPaths (probe : Probe) (mount : Text) (binds : List Bind) : List Text :=
  (allowed mount binds).filter fun p => (mountedAt probe p).isSome

theorem checkMounts_iff {mounted : List Text} :
    checkMounts probe mount binds d = .next mounted ↔
      (∀ path ∈ allowed mount binds, ∀ m, mountedAt probe path = some m →
        RightMount probe.device mount binds d path m) ∧
      mounted = mountedPaths probe mount binds := by
  have hbody : ∀ {path o}, checkMount probe mount binds d path = .next o →
      o = if (mountedAt probe path).isSome then some path else none := by
    intro path o h
    obtain ⟨hnone, rfl⟩ | ⟨m, hm, -, rfl⟩ := checkMount_iff.mp h
    · rw [hnone, Option.isSome_none, if_neg Bool.false_ne_true]
    · rw [hm, Option.isSome_some, if_pos rfl]
  have hfilter : (allowed mount binds).filterMap (fun p =>
      if (mountedAt probe p).isSome then some p else none) = mountedPaths probe mount binds := by
    rw [mountedPaths, ← List.filterMap_eq_filter]
    rfl
  constructor
  · intro h
    refine ⟨?_, ?_⟩
    · intro path hpath m hm
      obtain ⟨o, ho⟩ := Flow.collect_body h hpath
      obtain ⟨hnone, -⟩ | ⟨m', hm', hright, -⟩ := checkMount_iff.mp ho
      · rw [hnone] at hm
        cases hm
      · rw [hm'] at hm
        cases hm
        exact hright
    · rw [← hfilter]
      exact Flow.collect_eq_filterMap h fun path o ho => hbody ho
  · rintro ⟨hright, rfl⟩
    rw [← hfilter]
    refine Flow.collect_of_next fun path hpath => checkMount_iff.mpr ?_
    cases hm : mountedAt probe path with
    | none => exact .inl ⟨rfl, by simp⟩
    | some m => exact .inr ⟨m, rfl, hright path hpath m hm, by simp⟩

theorem checkPathType_iff {mounted : List Text} {path : Text} {u : PUnit} :
    checkPathType probe mounted path = .next u ↔
      path ∈ mounted ∨ typeAt probe path = some .absent ∨ typeAt probe path = some .directory := by
  rw [checkPathType]
  by_cases hpath : path ∈ mounted
  · rw [if_pos hpath]
    exact iff_of_true rfl (.inl hpath)
  rw [if_neg hpath]
  cases htype : typeAt probe path with
  | none => exact iff_of_false (fun h => (nomatch h)) (by simp [hpath])
  | some kind =>
    cases kind with
    | absent => exact iff_of_true rfl (.inr (.inl rfl))
    | directory => exact iff_of_true rfl (.inr (.inr rfl))
    | symlink | file | other | unknown =>
      exact iff_of_false (fun h => (nomatch h)) (by simp [hpath])

theorem checkListed_iff {mounted : List Text} {path : Text} {u : PUnit} :
    checkListed probe mounted path = .next u ↔
      nonempty? (get probe.findError path) = none ∧
        (path ∉ mounted → typeAt probe path = some .directory →
          (get probe.dirNonempty path).isSome = true) := by
  simp only [checkListed, Flow.bind_eq_next, Flow.returnIf_eq_next, exists_const]
  refine and_congr (by simp) ?_
  by_cases hpath : path ∈ mounted <;> simp [hpath, Option.isSome_iff_ne_none]

theorem checkWritten_iff {mounted : List Text} {u : PUnit} :
    checkWritten probe mount binds mounted = .next u ↔
      ∀ path ∈ allowed mount binds, holdsData probe mounted path = false := by
  simp only [checkWritten, Flow.bind_eq_next, Flow.returnIf_eq_next, exists_const,
    Bool.not_eq_false', List.isEmpty_iff, List.filter_eq_nil_iff, Bool.not_eq_true, allowed,
    List.forall_mem_cons]
  exact and_comm

/-- What the probe says of a disk that is not refused; `ours` when it holds our
filesystem. -/
structure Accepted (probe : Probe) (mount label : Text) (binds : List Bind) (d : BlockDevice)
    (ours : Bool) : Prop where
  device : probe.device.isEmpty = false
  isBlock : probe.isBlock = true
  listed : probe.lsblk = some d
  not_root : ("/" : Text) ∉ mountpoints d
  whole_disk : d.type = some "disk" ∧ d.children = []
  blkidError : probe.blkidError.isEmpty = true
  no_table : nonempty? (get probe.blkid "PTTYPE") = none
  signed : Signed (signature probe) label d ours
  not_mounted : ours = false → mountpoints d = []
  points : ∀ p ∈ mountpoints d, ∃ a ∈ allowed mount binds, beneath p a = true
  right : ∀ path ∈ allowed mount binds, ∀ m, mountedAt probe path = some m →
    RightMount probe.device mount binds d path m
  pathType : ∀ path ∈ allowed mount binds, mountedAt probe path = none →
    typeAt probe path = some .absent ∨ typeAt probe path = some .directory
  no_error : ∀ path ∈ allowed mount binds, nonempty? (get probe.findError path) = none
  checked : ∀ path ∈ allowed mount binds, mountedAt probe path = none →
    typeAt probe path = some .directory → (get probe.dirNonempty path).isSome = true
  empty : ∀ path ∈ allowed mount binds, mountedAt probe path = none →
    (get probe.dirNonempty path).getD false = false

theorem mem_mountedPaths {path : Text} (hpath : path ∈ allowed mount binds) :
    path ∈ mountedPaths probe mount binds ↔ mountedAt probe path ≠ none := by
  rw [mountedPaths, List.mem_filter, Option.isSome_iff_ne_none]
  exact and_iff_right hpath

/-- The cascade ends with a verdict on exactly the probes that are accepted. -/
theorem classifyCascade_iff {v : Verdict} :
    classifyCascade probe mount label binds = .next v ↔
      ∃ d ours, Accepted probe mount label binds d ours ∧
        v = conclude probe mount label binds ours (mountedPaths probe mount binds) := by
  have hfree : ∀ path ∈ allowed mount binds, mountedAt probe path = none →
      path ∉ mountedPaths probe mount binds :=
    fun path hpath hnone hmem => (mem_mountedPaths hpath).mp hmem hnone
  simp only [classifyCascade, Flow.bind_eq_next, Flow.pure_eq_next, exists_const,
    checkDevice_iff, checkLsblk_iff, checkNotRoot_iff, checkWholeDisk_iff,
    checkSignature_iff, checkMountedWhere_iff, checkMounts_iff, Flow.each_eq_next,
    checkPathType_iff, checkListed_iff, checkWritten_iff]
  constructor
  · rintro ⟨⟨hdevice, hblock⟩, d, hlisted, ⟨hroot, -⟩, hwhole, ours, ⟨herror, htable, hsigned⟩,
      ⟨hunsigned, hpoints⟩, _, ⟨hright, rfl⟩, htypes, hpaths, hwritten, rfl⟩
    refine ⟨d, ours, ⟨hdevice, hblock, hlisted, hroot, hwhole, herror, htable, hsigned, hunsigned,
      hpoints, hright, ?_, fun path hpath => (hpaths path hpath).1, ?_, ?_⟩, rfl⟩
    · intro path hpath hnone
      exact (htypes path hpath).resolve_left (hfree path hpath hnone)
    · intro path hpath hnone
      exact (hpaths path hpath).2 (hfree path hpath hnone)
    · intro path hpath hnone
      have hholds := hwritten path hpath
      rw [holdsData, Bool.and_eq_false_iff] at hholds
      obtain hmem | hempty := hholds
      · rw [Bool.not_eq_false', List.contains_iff_mem] at hmem
        exact absurd hmem (hfree path hpath hnone)
      · exact hempty
  · rintro ⟨d, ours, h, rfl⟩
    have hchildren : ∀ node ∈ walkAll d.children, ("/" : Text) ∉ mountpoints node := by
      rw [h.whole_disk.2]
      exact List.forall_mem_nil _
    refine ⟨⟨h.device, h.isBlock⟩, d, h.listed, ⟨h.not_root, hchildren⟩, h.whole_disk, ours,
      ⟨h.blkidError, h.no_table, h.signed⟩, ⟨h.not_mounted, h.points⟩, _, ⟨h.right, rfl⟩, ?_, ?_,
      ?_, rfl⟩
    · intro path hpath
      by_cases hnone : mountedAt probe path = none
      · exact .inr (h.pathType path hpath hnone)
      · exact .inl ((mem_mountedPaths hpath).mpr hnone)
    · intro path hpath
      refine ⟨h.no_error path hpath, fun hmem => h.checked path hpath ?_⟩
      by_contra hnone
      exact hmem ((mem_mountedPaths hpath).mpr hnone)
    · intro path hpath
      rw [holdsData, Bool.and_eq_false_iff]
      by_cases hnone : mountedAt probe path = none
      · exact .inr (h.empty path hpath hnone)
      · refine .inl ?_
        rw [Bool.not_eq_false', List.contains_iff_mem]
        exact (mem_mountedPaths hpath).mpr hnone

theorem conclude_state {ours : Bool} :
    (conclude probe mount label binds ours (mountedPaths probe mount binds)).state =
      if ours = false then .blank
      else if ∀ path ∈ allowed mount binds, mountedAt probe path ≠ none then .ready
      else .ours := by
  have hmissing : ((allowed mount binds).filter fun p =>
      !(mountedPaths probe mount binds).contains p) = [] ↔
      ∀ path ∈ allowed mount binds, mountedAt probe path ≠ none := by
    rw [List.filter_eq_nil_iff]
    refine forall₂_congr fun path hpath => ?_
    rw [Bool.not_eq_true, Bool.not_eq_false', List.contains_iff_mem, mem_mountedPaths hpath]
  cases ours with
  | false => rfl
  | true =>
    simp only [conclude, Bool.not_true, Bool.false_eq_true, if_false, Bool.true_eq_false]
    by_cases hall : ∀ path ∈ allowed mount binds, mountedAt probe path ≠ none
    · rw [hmissing.mpr hall, if_pos hall]
      rfl
    · have hne := mt hmissing.mp hall
      rw [if_neg hall, if_pos]
      simpa using hne

/-- A verdict other than a refusal is the cascade's own conclusion. -/
theorem classify_iff {v : Verdict} (hstate : v.state ≠ .refuse) :
    nodeStorageClassify probe mount label binds = .ok v ↔
      ∃ d ours, Accepted probe mount label binds d ours ∧
        v = conclude probe mount label binds ours (mountedPaths probe mount binds) := by
  rw [← classifyCascade_iff, nodeStorageClassify]
  cases hcascade : classifyCascade probe mount label binds with
  | next w => simp
  | raise error => simp
  | ret text =>
    refine iff_of_false ?_ (fun h => (nomatch h))
    rintro h
    cases h
    exact hstate rfl

/-- Every probe gets a verdict. -/
theorem classify_total (probe : Probe) (mount label : Text) (binds : List Bind) :
    ∃ v, nodeStorageClassify probe mount label binds = .ok v := by
  have hif : ∀ c r, Flow.NeverRaises (Flow.returnIf c r : Check PUnit) :=
    Flow.neverRaises_returnIf
  have hlsblk : Flow.NeverRaises (checkLsblk probe) := by
    unfold checkLsblk
    split <;> exact fun _ => nofun
  have hroot : ∀ d, Flow.NeverRaises (checkNotRoot probe d) := by
    intro d
    refine Flow.neverRaises_bind (hif _ _) fun _ => ?_
    split <;> exact fun _ => nofun
  have hsignature : ∀ d, Flow.NeverRaises (checkSignature probe label d) := fun d =>
    Flow.neverRaises_bind (hif _ _) fun _ => Flow.neverRaises_bind (hif _ _) fun _ =>
      Flow.neverRaises_ite (Flow.neverRaises_bind (hif _ _) fun _ => Flow.neverRaises_pure _)
        (Flow.neverRaises_bind (hif _ _) fun _ => Flow.neverRaises_bind (hif _ _) fun _ =>
          Flow.neverRaises_pure _)
  have hmount : ∀ d path, Flow.NeverRaises (checkMount probe mount binds d path) := by
    intro d path
    unfold checkMount
    split
    · exact fun _ => nofun
    · refine Flow.neverRaises_bind (hif _ _) fun _ => Flow.neverRaises_ite ?_ ?_
      · exact Flow.neverRaises_bind (hif _ _) fun _ => Flow.neverRaises_bind (hif _ _) fun _ =>
          Flow.neverRaises_pure _
      · exact Flow.neverRaises_bind (hif _ _) fun _ => Flow.neverRaises_pure _
  have htype : ∀ mounted path, Flow.NeverRaises (checkPathType probe mounted path) := by
    intro mounted path
    refine Flow.neverRaises_ite (fun _ => nofun) ?_
    split <;> exact fun _ => nofun
  have hcascade : Flow.NeverRaises (classifyCascade probe mount label binds) :=
    Flow.neverRaises_bind (Flow.neverRaises_bind (hif _ _) fun _ => hif _ _) fun _ =>
    Flow.neverRaises_bind hlsblk fun d =>
    Flow.neverRaises_bind (hroot d) fun _ =>
    Flow.neverRaises_bind (Flow.neverRaises_bind (hif _ _) fun _ => hif _ _) fun _ =>
    Flow.neverRaises_bind (hsignature d) fun _ =>
    Flow.neverRaises_bind (Flow.neverRaises_bind (hif _ _) fun _ => hif _ _) fun _ =>
    Flow.neverRaises_bind (Flow.neverRaises_collect (hmount d) _) fun mounted =>
    Flow.neverRaises_bind (Flow.neverRaises_each (htype mounted) _) fun _ =>
    Flow.neverRaises_bind (Flow.neverRaises_each
      (fun _ => Flow.neverRaises_bind (hif _ _) fun _ => hif _ _) _) fun _ =>
    Flow.neverRaises_bind (Flow.neverRaises_bind (hif _ _) fun _ => hif _ _) fun _ =>
    Flow.neverRaises_pure _
  unfold nodeStorageClassify
  cases h : classifyCascade probe mount label binds with
  | next v => exact ⟨v, rfl⟩
  | ret text => exact ⟨_, rfl⟩
  | raise e => exact absurd h (hcascade e)

end Checks

end Provisioner.NodeStorage
