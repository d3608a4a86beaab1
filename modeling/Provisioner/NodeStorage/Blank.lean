import Provisioner.NodeStorage.Checks

/-!
# What a blank verdict rests on

`blank` is the one state in which the disk is formatted. What the cascade let
through is read back as facts about the probe, and then about the registered
results the probe was built from.
-/

namespace Provisioner.NodeStorage

section Blank

variable {probe : Probe} {mount label : Text} {binds : List Bind}

/-- Everything the cascade established about a probe it calls blank, `d` being
the device lsblk listed. -/
structure BlankProbe (probe : Probe) (mount : Text) (binds : List Bind) (d : BlockDevice) :
    Prop where
  device : probe.device.isEmpty = false
  isBlock : probe.isBlock = true
  listed : probe.lsblk = some d
  whole_disk : d.type = some "disk" ∧ d.children = []
  not_mounted : mountpoints d = []
  no_fstype : nonempty? d.fstype = none
  blkidError : probe.blkidError.isEmpty = true
  no_signature : (probe.blkid.filter fun kv => kv.1 != ("DEVNAME" : Text)) = []
  source : ∀ path ∈ allowed mount binds, ∀ m, mountedAt probe path = some m →
    kname (some (splitSource m.source).1) ∈ names probe.device d
  pathType : ∀ path ∈ allowed mount binds, mountedAt probe path = none →
    typeAt probe path = some .absent ∨ typeAt probe path = some .directory
  empty : ∀ path ∈ allowed mount binds, mountedAt probe path = none →
    typeAt probe path = some .directory →
      nonempty? (get probe.findError path) = none ∧ get probe.dirNonempty path = some false

theorem Accepted.blank {d : BlockDevice} (h : Accepted probe mount label binds d false) :
    BlankProbe probe mount binds d where
  device := h.device
  isBlock := h.isBlock
  listed := h.listed
  whole_disk := h.whole_disk
  not_mounted := h.not_mounted rfl
  no_fstype := h.signed.2
  blkidError := h.blkidError
  no_signature := h.signed.1
  source path hpath m hm := (h.right path hpath m hm).source
  pathType := h.pathType
  empty path hpath hnone htype := by
    obtain ⟨b, hb⟩ := Option.isSome_iff_exists.mp (h.checked path hpath hnone htype)
    have hempty := h.empty path hpath hnone
    rw [hb, Option.getD_some] at hempty
    exact ⟨h.no_error path hpath, by rw [hb, hempty]⟩

end Blank

end Provisioner.NodeStorage
