import Provisioner.NodeStorage.Blank

/-!
# What the registered results say about a blank disk

The probe is a lossy picture of the results it was built from. `Vouched` is what
the results themselves must say before a disk may be formatted, and `Answered`
is what the probe cannot express: that blkid and findmnt answered at all.
-/

namespace Provisioner.NodeStorage

def findmntAt (raw : Raw) (path : Text) : Option Result :=
  (Dict.lastBy Looped.item raw.findmnt (.path path)).map Looped.result

def findAt (raw : Raw) (path : Text) : Option Result := get (named raw.find) path

def statAt (raw : Raw) (path : Text) : Option StatResult := get (named raw.pathStat) path

def NothingMounted (loads : Loads) (r : Result) : Prop :=
  exited (some r) 1 = true ∨
    exited (some r) 0 = true ∧ doc loads.filesystems r.stdout = .ok []

def Stated (r : StatResult) (st : Stat) : Prop :=
  r.skipped = false ∧ r.failed = false ∧ r.stat = some st

def StatedAbsent (r : StatResult) : Prop := ∃ st, Stated r st ∧ st.isThere = some false

def StatedDirectory (r : StatResult) : Prop :=
  ∃ st, Stated r st ∧ st.isThere = some true ∧ st.islnk = false ∧ st.isdir = true

def ListedEmpty (r : Result) : Prop := exited (some r) 0 = true ∧ Text.strip r.stdout = []

structure Vouched (loads : Loads) (raw : Raw) (mount : Text) (binds : List Bind) : Prop where
  realpath : exited raw.realpath 0 = true ∧ resolved raw ≠ []
  block_device : ∃ st, raw.stat.bind StatResult.stat = some st ∧ st.isThere = some true ∧
    st.isblk = true
  blkid : exited raw.blkid 2 = true ∧ Text.strip (stderr raw.blkid) = []
  lsblk : exited raw.lsblk 0 = true ∧ ∃ d, lsblk loads raw.lsblk = .ok (some d) ∧
    d.type = some "disk" ∧ d.children = [] ∧ mountpoints d = [] ∧ nonempty? d.fstype = none
  findmnt : ∀ path ∈ allowed mount binds, ∃ r, findmntAt raw path = some r ∧
    NothingMounted loads r
  empty : ∀ path ∈ allowed mount binds, ∃ st, statAt raw path = some st ∧
    (StatedAbsent st ∨ StatedDirectory st ∧ ∃ f, findAt raw path = some f ∧ ListedEmpty f)

/-- blkid ran and did not claim to have found something, findmnt answered for
every path, and nothing it listed there comes from the probed device itself. -/
structure Answered (loads : Loads) (raw : Raw) (mount : Text) (binds : List Bind) : Prop where
  blkid : ran raw.blkid = true ∧ exited raw.blkid 0 = false
  answered : ∀ path ∈ allowed mount binds, ∃ r, findmntAt raw path = some r ∧
    (exited (some r) 0 = true ∨ exited (some r) 1 = true)
  elsewhere : ∀ path ∈ allowed mount binds, ∀ r, findmntAt raw path = some r →
    ∀ m d, findmnt loads r = .ok (some m) → lsblk loads raw.lsblk = .ok (some d) →
      kname (some (splitSource m.source).1) ∉ names (resolved raw) d

section Results

variable {loads : Loads} {raw : Raw} {probe : Probe}

theorem exited_rc {r : Option Result} {n m : Int} (hn : exited r n = true)
    (hm : exited r m = true) : n = m := by
  cases r with
  | none => cases hn
  | some r =>
    simp only [exited, Option.any_some, Bool.and_eq_true, beq_iff_eq] at hn hm
    exact Option.some.inj (hn.2.symm.trans hm.2)

theorem ran_of_exited {r : Option Result} {n : Int} (h : exited r n = true) : ran r = true := by
  rw [exited, Bool.and_eq_true] at h
  exact h.1

theorem findFailure_nonempty (r : Result) : (findFailure r).isEmpty = false := by
  dsimp only [findFailure]
  cases h : (Text.strip r.stderr).isEmpty with
  | false =>
    rw [Bool.not_false, if_pos rfl]
    exact h
  | true =>
    rw [Bool.not_true, if_neg Bool.false_ne_true]
    rfl

theorem get_eq_some {α : Type} {rows : List (Text × α)} {k : Text} {a : α} :
    get rows k = some a ↔ Dict.lastBy Prod.fst rows k = some (k, a) := by
  constructor
  · intro h
    obtain ⟨⟨k', a'⟩, hrow, rfl⟩ := Option.map_eq_some_iff.mp h
    obtain ⟨-, rfl⟩ := Dict.lastBy_some hrow
    exact hrow
  · intro h
    rw [get, h]
    rfl

theorem mounts_rel {mounts : List (Text × Option Filesystem)}
    (h : buildMounts loads raw.findmnt = .ok mounts) (path : Text) :
    Option.Rel (fun r m => findmnt loads r = .ok m) (findmntAt raw path) (get mounts path) := by
  have hkey : ∀ (a : Looped Result) (b : Text × Option Filesystem), mountEntry loads a = .ok b →
      a.item = .path b.1 ∧ findmnt loads a.result = .ok b.2 := by
    intro a b hab
    unfold mountEntry at hab
    split at hab
    · rename_i p hp
      obtain ⟨m, hm, rfl⟩ := except_map_eq_ok.mp hab
      exact ⟨hp, hm⟩
    · cases hab
  have hrows : Option.Rel _ (Dict.lastBy Looped.item raw.findmnt (.path path))
      (Dict.lastBy (fun b => Item.path b.1) mounts (.path path)) :=
    Dict.lastBy_rel (mapM_forall₂ h) (fun a b hab => (hkey a b hab).1) _
  have hpath : Dict.lastBy (fun b => Item.path b.1) mounts (.path path) =
      Dict.lastBy Prod.fst mounts path := by
    unfold Dict.lastBy
    congr 1
    funext b
    simp
  rw [hpath] at hrows
  unfold findmntAt get
  generalize Dict.lastBy Looped.item raw.findmnt (.path path) = a at hrows ⊢
  generalize Dict.lastBy Prod.fst mounts path = b at hrows ⊢
  cases hrows with
  | none => exact .none
  | some hab => exact .some (hkey _ _ hab).2

theorem build_probe_ok (h : nodeStorageBuildProbe loads raw = .ok probe) :
    ∃ mounts listed, buildMounts loads raw.findmnt = .ok mounts ∧
      (isBlock raw = true → lsblk loads raw.lsblk = .ok listed) ∧
      probe = assemble raw mounts listed := by
  unfold nodeStorageBuildProbe at h
  obtain ⟨mounts, hmounts, h⟩ := except_bind_eq_ok.mp h
  obtain ⟨listed, hlisted, h⟩ := except_bind_eq_ok.mp h
  cases h
  refine ⟨mounts, listed, hmounts, fun hblock => ?_, rfl⟩
  rwa [if_pos hblock] at hlisted

theorem assemble_blkid {mounts : List (Text × Option Filesystem)} {listed : Option BlockDevice}
    (h : isBlock raw = true) : (assemble raw mounts listed).blkid = blkid raw.blkid :=
  if_pos h

theorem assemble_blkidError {mounts : List (Text × Option Filesystem)}
    {listed : Option BlockDevice} (h : isBlock raw = true) :
    (assemble raw mounts listed).blkidError = blkidError raw.blkid :=
  if_pos h

section Blank

variable {mount label : Text} {binds : List Bind} {d : BlockDevice}
  {mounts : List (Text × Option Filesystem)} {listed : Option BlockDevice}

end Blank

end Results

section Fresh

def freshLsblk : BlockDevice :=
  .mk (some "xvdb") (some "/dev/xvdb") (some "disk") none (some [none]) none []

-- The two commands print what is parsed here on a fresh node.
def freshLoads : Loads where
  blockdevices _ := .ok [freshLsblk]
  filesystems _ := .error .value

def onPaths {α : Type} (r : α) : List (Looped α) :=
  ["/var/lib/docker-data", "/var/lib/docker", "/var/lib/containerd"].map
    fun path : String => ⟨.path path, r⟩

/-- A node with an empty data disk and none of the three directories. -/
def fresh (blkid : Result) : Raw where
  deviceInput := "/dev/xvdb"
  realpath := some { rc := some 0, stdout := "/dev/xvdb" }
  stat := some { stat := some { isThere := some true, isblk := true } }
  blkid := some blkid
  lsblk := some { rc := some 0, stdout :=
    "\x7b\"blockdevices\":[\x7b\"name\":\"xvdb\",\"path\":\"/dev/xvdb\",\"type\":\"disk\"," ++
      "\"fstype\":null,\"mountpoints\":[null]\x7d]\x7d" }
  findmnt := onPaths { rc := some 1 }
  find := onPaths { rc := some 1, stderr := "No such file or directory" }
  pathStat := onPaths { stat := some { isThere := some false } }

def freshProbe (blkid : Result) : Probe :=
  assemble (fresh blkid) (onPaths none |>.filterMap fun r => (itemPath r.item).map (·, r.result))
    (some freshLsblk)

def blankVerdict : Verdict :=
  ⟨.blank, "docker_data_device /dev/xvdb is blank; it will be formatted XFS (label dockerdata) " ++
    "and mounted at /var/lib/docker-data."⟩

end Fresh

end Provisioner.NodeStorage
