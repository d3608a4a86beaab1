import Provisioner.NodeStorage.Apply

/-!
# Interrupted set-up

Every node that runs cut at any task lead to is classified as one the role goes
on with, the disk is formatted once at most, and a run that is not cut leaves
it ready.
-/

namespace Provisioner.NodeStorage

open Cuts (Done Leads)

/-- The filesystem enforces project quotas wherever it is mounted, or will at
its first mount, or the data mount stands already. -/
def QuotaKept (L : Layout) (h : Host) : Prop :=
  h.mounts L.mount ≠ none ∨ h.mountedSomewhere = false ∨ h.quota = true

instance (L : Layout) (h : Host) : Decidable (QuotaKept L h) := inferInstanceAs (Decidable (_ ∨ _ ∨ _))

/-- The invariant between any two tasks; `k` is how often the disk had been
formatted before. -/
structure Sound (L : Layout) (k : ℕ) (h : Host) : Prop where
  quota : QuotaKept L h
  once : h.formats ≤ k + 1
  fit : ∃ d ours, Fit L h d ours ∧ (ours = false → h.formats = k)

variable {L : Layout} {h h' : Host} {d d' : BlockDevice} {ours : Bool} {k : ℕ}

/-! ## What stays -/

theorem names_eq {added : List Text} (hlisted : Relisted added d d') {device : Text} :
    names device d' = names device d := by
  rw [names, names, hlisted.name, hlisted.path]

theorem rightMount_relisted {added : List Text} (hlisted : Relisted added d d') {device p : Text}
    {m : Filesystem} (h : RightMount device L.mount L.binds d p m) :
    RightMount device L.mount L.binds d' p m where
  source := by
    rw [names_eq hlisted]
    exact h.source
  root := h.root
  subdir := h.subdir

theorem relisted_of_rel {added : List Text} {disk : Option BlockDevice}
    (hfit : h.disk = some d) (hrel : Option.Rel (Relisted added) h.disk disk) :
    ∃ d', disk = some d' ∧ Relisted added d d' := by
  rw [hfit] at hrel
  cases hrel with
  | some hlisted => exact ⟨_, rfl, hlisted⟩

/-- A signature that is ours does not depend on what lsblk lists. -/
theorem Signature.listed {answer : Result} (hsig : Signature L.label answer d true)
    (d' : BlockDevice) : Signature L.label answer d' true :=
  ⟨hsig.no_error, hsig.no_table, hsig.signed⟩

theorem get_filter {rows : List (Text × Text)} {k drop : Text} (hne : k ≠ drop) :
    get (rows.filter fun kv => kv.1 != drop) k = get rows k := by
  rw [get, get, Dict.lastBy, Dict.lastBy, ← List.filter_reverse, List.find?_filter]
  congr 2
  funext kv
  by_cases hkv : kv.1 = k
  · simp [hkv, hne]
  · simp [hkv]

theorem Formatted.signature {answer : Result} (hformatted : Formatted L.label answer)
    (d : BlockDevice) : Signature L.label answer d true := by
  have htwo : exited (some answer) 2 = false := by
    cases h2 : exited (some answer) 2 with
    | false => rfl
    | true => cases exited_rc hformatted.read h2
  have hblkid : blkid (some answer) = parseBlkid answer.stdout := by
    rw [blkid, htwo, ran_of_exited hformatted.read, hformatted.read]
    rfl
  have htype : get ((parseBlkid answer.stdout).filter fun kv => kv.1 != ("DEVNAME" : Text))
      "TYPE" = some "xfs" := by
    rw [get_filter (by decide), hformatted.type]
  refine ⟨?_, ?_, ?_⟩
  · rw [blkidError, htwo]
    rfl
  · rw [hblkid, hformatted.no_table]
    rfl
  · rw [hblkid]
    refine ⟨?_, htype, ?_⟩
    · intro hnil
      rw [hnil] at htype
      cases htype
    · rw [get_filter (by decide), hformatted.label]

/-! ## One task -/

theorem fit_mkfs (hfit : Fit L h d false) {answer : Result} {disk : Option BlockDevice}
    (hformatted : Formatted L.label answer) (hrel : Option.Rel (Relisted []) h.disk disk) :
    ∃ d', Fit L { h with blkid := answer, disk := disk, formats := h.formats + 1 } d' true ∧
      mountpoints d' = [] := by
  obtain ⟨d', rfl, hlisted⟩ := relisted_of_rel hfit.listed hrel
  have hpoints : mountpoints d' = [] := by
    rw [List.eq_nil_iff_forall_not_mem]
    intro q hq
    obtain hq | hq := (hlisted.mountpoints q).mp hq
    · rw [hfit.not_mounted rfl] at hq
      cases hq
    · cases hq
  refine ⟨d', ⟨hfit.device, hfit.isBlock, rfl, ?_, ?_, hformatted.signature d', fun h => (nomatch h),
    ?_, ?_, hfit.free, hfit.listable⟩, hpoints⟩
  · rw [hpoints]
    exact List.not_mem_nil
  · rw [hlisted.type, hlisted.children]
    exact hfit.whole_disk
  · rw [hpoints]
    exact fun _ hp => (nomatch hp)
  · exact fun p hp m hm => rightMount_relisted hlisted (hfit.right p hp m hm)

theorem fit_mountpoint (hfit : Fit L h d ours) {path : Text} (habsent : h.kind path = .absent) :
    Fit L { h with
      kind := Function.update h.kind path .directory
      holds := Function.update h.holds path (some false) } d ours := by
  refine ⟨hfit.device, hfit.isBlock, hfit.listed, hfit.not_root, hfit.whole_disk, hfit.signature,
    hfit.not_mounted, hfit.points, hfit.right, ?_, ?_⟩
  · intro p hp hnone
    by_cases hpath : p = path
    · subst hpath
      exact .inr ⟨Function.update_self .., Function.update_self ..⟩
    · simp only [Function.update_of_ne hpath]
      exact hfit.free p hp hnone
  · intro p hp
    by_cases hpath : p = path
    · subst hpath
      simp
    · simp only [Function.update_of_ne hpath]
      exact hfit.listable p hp

theorem fit_mountedOn (hfit : Fit L h d true) {path : Text} (hpath : path ∈ L.allowed)
    {m : Filesystem} {disk : Option BlockDevice} (holds : Bool)
    (hrel : Option.Rel (Relisted [path]) h.disk disk)
    (hright : RightMount h.device L.mount L.binds d path m) :
    ∃ d', Fit L (h.mountedOn path m disk holds) d' true := by
  obtain ⟨d', rfl, hlisted⟩ := relisted_of_rel hfit.listed hrel
  obtain ⟨-, hroot, hself⟩ := L.paths path hpath
  refine ⟨d', hfit.device, hfit.isBlock, rfl, ?_, ?_, hfit.signature.listed d',
    fun h => (nomatch h), ?_, ?_, ?_, ?_⟩
  · rw [hlisted.mountpoints, List.mem_singleton]
    exact not_or.mpr ⟨hfit.not_root, fun heq => hroot heq.symm⟩
  · rw [hlisted.type, hlisted.children]
    exact hfit.whole_disk
  · intro q hq
    rw [hlisted.mountpoints, List.mem_singleton] at hq
    obtain hq | rfl := hq
    · exact hfit.points q hq
    · exact ⟨q, hpath, hself⟩
  · intro p hp m' hm'
    by_cases hpp : p = path
    · subst hpp
      obtain rfl : m = m' := by simpa [Host.mountedOn] using hm'
      exact rightMount_relisted hlisted hright
    · refine rightMount_relisted hlisted (hfit.right p hp m' ?_)
      simpa [Host.mountedOn, Function.update_of_ne hpp] using hm'
  · intro p hp hnone
    by_cases hpp : p = path
    · subst hpp
      simp [Host.mountedOn] at hnone
    · simp only [Host.mountedOn, Function.update_of_ne hpp] at hnone ⊢
      exact hfit.free p hp hnone
  · intro p hp
    by_cases hpp : p = path
    · subst hpp
      simp [Host.mountedOn]
    · simp only [Host.mountedOn, Function.update_of_ne hpp]
      exact hfit.listable p hp

theorem fit_source (hfit : Fit L h d ours) (hdata : h.mounts L.mount ≠ none) :
    Fit L { h with
      kind := Function.update h.kind L.mount .directory
      holds := Function.update h.holds L.mount (some true) } d ours := by
  refine ⟨hfit.device, hfit.isBlock, hfit.listed, hfit.not_root, hfit.whole_disk, hfit.signature,
    hfit.not_mounted, hfit.points, hfit.right, ?_, ?_⟩
  · intro p hp hnone
    have hne : p ≠ L.mount := fun heq => hdata (heq ▸ hnone)
    simp only [Function.update_of_ne hne]
    exact hfit.free p hp hnone
  · intro p hp
    by_cases hne : p = L.mount
    · subst hne
      simp
    · simp only [Function.update_of_ne hne]
      exact hfit.listable p hp

theorem mount_mem : L.mount ∈ L.allowed := List.mem_cons_self

theorem target_mem {b : Bind} (hb : b ∈ L.binds) : b.target ∈ L.allowed :=
  List.mem_cons_of_mem _ (List.mem_map.mpr ⟨b, hb, rfl⟩)

theorem target_ne_mount {b : Bind} (hb : b ∈ L.binds) : b.target ≠ L.mount := by
  intro heq
  have hnodup := L.nodup
  rw [Layout.allowed, allowed, List.nodup_cons] at hnodup
  exact hnodup.1 (heq ▸ List.mem_map.mpr ⟨b, hb, rfl⟩)

theorem wantedSubdir_target {b : Bind} (hb : b ∈ L.binds) :
    wantedSubdir L.binds b.target = "/" ++ b.srcSubdir := by
  have hnodup : (L.binds.map Bind.target).Nodup := (List.nodup_cons.mp L.nodup).2
  obtain ⟨c, hc⟩ : ∃ c, L.binds.find? (fun c => c.target == b.target) = some c := by
    rw [← Option.isSome_iff_exists, List.find?_isSome]
    exact ⟨b, hb, beq_self_eq_true _⟩
  have htarget : c.target = b.target := by simpa using List.find?_some hc
  have hcb : c = b :=
    List.inj_on_of_nodup_map hnodup (List.mem_of_find?_eq_some hc) hb htarget
  rw [wantedSubdir, hc, hcb]
  rfl

theorem fit_bind (hfit : Fit L h d true) {b : Bind} (hb : b ∈ L.binds) {data m : Filesystem}
    (hdata : h.mounts L.mount = some data) {disk : Option BlockDevice} (holds : Bool)
    (hsource : (splitSource m.source).1 = (splitSource data.source).1)
    (hsubdir : (splitSource data.source).2 = "/" →
      (splitSource m.source).2 = "/" ++ b.srcSubdir)
    (hrel : Option.Rel (Relisted [b.target]) h.disk disk) :
    ∃ d', Fit L (h.mountedOn b.target m disk holds) d' true := by
  have hright := hfit.right _ mount_mem data hdata
  have hne := target_ne_mount hb
  refine fit_mountedOn hfit (target_mem hb) holds hrel ⟨?_, fun heq => absurd heq hne, fun _ => ?_⟩
  · rw [hsource]
    exact hright.source
  · rw [wantedSubdir_target hb]
    exact hsubdir (hright.root rfl).1

theorem quotaAfter_eq (hquota : QuotaKept L h) (hfree : h.mounts L.mount = none) :
    h.quotaAfter L = true := by
  obtain hdata | hnowhere | hkept := hquota
  · exact absurd hfree hdata
  · rw [Host.quotaAfter, hnowhere, if_neg Bool.false_ne_true]
    exact L.quota
  · rw [Host.quotaAfter, hkept, L.quota, ite_self]

/-! ## Tasks that keep what is mounted -/

theorem effect_mounts {t : Task} (heffect : Effect L t h h') {p : Text} (hp : h.mounts p ≠ none) :
    h'.mounts p ≠ none := by
  have hmounted : ∀ path m disk holds, (h.mountedOn path m disk holds).mounts p ≠ none := by
    intro path m disk holds
    by_cases hpath : p = path
    · subst hpath
      simp [Host.mountedOn]
    · simpa [Host.mountedOn, Function.update_of_ne hpath] using hp
  cases t with
  | mkfs =>
    obtain ⟨answer, disk, -, -, rfl⟩ := heffect
    exact hp
  | mountpoint path =>
    obtain rfl := heffect
    split_ifs <;> exact hp
  | mountData =>
    obtain ⟨m, disk, holds, -, -, -, -, rfl⟩ := heffect
    exact hmounted L.mount m disk holds
  | bind b =>
    obtain ⟨m, disk, holds, -, rfl⟩ := heffect
    exact hmounted _ _ _ _
  | requireClassification | installXfsprogs | readUuid | fstab | source | dropinDirectories
  | dropins | reload | verify =>
    obtain rfl := heffect
    exact hp

/-- The disk is ours and `R` holds of what is mounted. -/
def At (L : Layout) (R : (Text → Option Filesystem) → Prop) (h : Host) : Prop :=
  (∃ d, Fit L h d true) ∧ R h.mounts

def Up (paths : List Text) (mounts : Text → Option Filesystem) : Prop :=
  ∀ p ∈ paths, mounts p ≠ none

theorem effect_up {t : Task} (heffect : Effect L t h h') {paths : List Text}
    (hup : Up paths h.mounts) : Up paths h'.mounts :=
  fun p hp => effect_mounts heffect (hup p hp)

section Tasks

variable {P : Host → Prop} {R : (Text → Option Filesystem) → Prop} {paths : List Text}

theorem leads_idle {t : Task} (ht : ∀ h h', Effect L t h h' → h' = h) :
    Leads (Effect L) (Sound L k) P [t] P := by
  apply Leads.single
  intro h h' hsound hP heffect
  rw [ht h h' heffect]
  exact ⟨hsound, hP⟩

theorem leads_fstab (path : Text) : Leads (Effect L) (Sound L k) P [.fstab path] P :=
  leads_idle fun _ _ heffect => heffect

theorem leads_mkfs : Leads (Effect L) (Sound L k) (fun h => (∃ d, Fit L h d false) ∧ R h.mounts)
    [.mkfs] (At L R) := by
  apply Leads.single
  rintro h h' hsound ⟨⟨d, hfit⟩, hR⟩ ⟨answer, disk, hformatted, hrel, rfl⟩
  obtain ⟨d', hfit', hpoints⟩ := fit_mkfs hfit hformatted hrel
  have hcount : h.formats = k := by
    obtain ⟨e, ours, hfit₂, hcount⟩ := hsound.fit
    cases ours with
    | false => exact hcount rfl
    | true => exact absurd hfit.signature.signed.1 hfit₂.signature.signed.1
  refine ⟨⟨.inr (.inl ?_), ?_, d', true, hfit', fun h => (nomatch h)⟩, ⟨d', hfit'⟩, hR⟩
  · have hdisk : disk = some d' := hfit'.listed
    simp [Host.mountedSomewhere, hdisk, hpoints]
  · show h.formats + 1 ≤ k + 1
    omega

theorem leads_mountpoint (path : Text) :
    Leads (Effect L) (Sound L k) (At L R) [.mountpoint path] (At L R) := by
  apply Leads.single
  rintro h h' hsound ⟨⟨d, hfit⟩, hR⟩ rfl
  split_ifs with habsent
  · have hfit' := fit_mountpoint hfit habsent
    exact ⟨⟨hsound.quota, hsound.once, d, true, hfit', fun h => (nomatch h)⟩, ⟨d, hfit'⟩, hR⟩
  · exact ⟨hsound, ⟨d, hfit⟩, hR⟩

theorem leads_mountData : Leads (Effect L) (Sound L k)
    (At L fun mounts => Up paths mounts ∧ mounts L.mount = none) [.mountData]
    (At L (Up (L.mount :: paths))) := by
  apply Leads.single
  rintro h h' hsound ⟨⟨d, hfit⟩, hup, hfree⟩ heffect
  have hup' := effect_up heffect hup
  obtain ⟨m, disk, holds, hsource, hroot, hquota, hrel, rfl⟩ := heffect
  obtain ⟨d₁, hdisk, hlisted⟩ := relisted_of_rel hfit.listed hrel
  have hright : RightMount h.device L.mount L.binds d L.mount m := by
    refine ⟨?_, fun _ => ⟨hroot, ?_⟩, fun hne => absurd rfl hne⟩
    · rw [← names_eq hlisted]
      exact hsource d₁ hdisk
    · rw [hquota, quotaAfter_eq hsound.quota hfree]
  obtain ⟨d', hfit'⟩ := fit_mountedOn hfit mount_mem holds hrel hright
  have hmount : (h.mountedOn L.mount m disk holds).mounts L.mount ≠ none := by
    simp [Host.mountedOn]
  have hours : Fit L { h.mountedOn L.mount m disk holds with quota := h.quotaAfter L } d' true :=
    ⟨hfit'.device, hfit'.isBlock, hfit'.listed, hfit'.not_root, hfit'.whole_disk,
      hfit'.signature, hfit'.not_mounted, hfit'.points, hfit'.right, hfit'.free, hfit'.listable⟩
  exact ⟨⟨.inl hmount, hsound.once, d', true, hours, fun h => (nomatch h)⟩, ⟨d', hours⟩,
    List.forall_mem_cons.mpr ⟨hmount, hup'⟩⟩

theorem leads_source (hmount : L.mount ∈ paths) (b : Bind) :
    Leads (Effect L) (Sound L k) (At L (Up paths)) [.source b] (At L (Up paths)) := by
  apply Leads.single
  rintro h h' hsound ⟨⟨d, hfit⟩, hup⟩ rfl
  have hfit' := fit_source hfit (hup _ hmount)
  exact ⟨⟨hsound.quota, hsound.once, d, true, hfit', fun h => (nomatch h)⟩, ⟨d, hfit'⟩, hup⟩

theorem leads_bind (hmount : L.mount ∈ paths) {b : Bind} (hb : b ∈ L.binds) :
    Leads (Effect L) (Sound L k) (At L (Up paths)) [.bind b] (At L (Up (b.target :: paths))) := by
  apply Leads.single
  rintro h h' hsound ⟨⟨d, hfit⟩, hup⟩ heffect
  have hup' := effect_up heffect hup
  obtain ⟨m, disk, holds, hbound, rfl⟩ := heffect
  obtain ⟨data, hdata⟩ := Option.ne_none_iff_exists'.mp (hup _ hmount)
  rw [hdata] at hbound
  obtain ⟨hsource, hsubdir, hrel⟩ := hbound
  obtain ⟨d', hfit'⟩ := fit_bind hfit hb hdata holds hsource hsubdir hrel
  have htarget : (h.mountedOn b.target m disk holds).mounts b.target ≠ none := by
    simp [Host.mountedOn]
  exact ⟨⟨.inl (hup' _ hmount), hsound.once, d', true, hfit', fun h => (nomatch h)⟩,
    ⟨d', hfit'⟩, List.forall_mem_cons.mpr ⟨htarget, hup'⟩⟩

/-- What the run's probe saw mounted is among `paths`. -/
def Seen (L : Layout) (f : Facts) (paths : List Text) : Prop :=
  ∀ p ∈ L.allowed, f.mounted p = true → p ∈ paths

theorem leads_bind_task {f : Facts} (hmount : L.mount ∈ paths) (hseen : Seen L f paths) {b : Bind}
    (hb : b ∈ L.binds) : Leads (Effect L) (Sound L k) (At L (Up paths))
      (mountTask f b.target (.bind b)) (At L (Up (b.target :: paths))) := by
  unfold mountTask
  split_ifs with hmounted
  · have hmem := hseen _ (target_mem hb) hmounted
    refine (leads_fstab _).conseq (fun _ _ h => h) ?_
    rintro h - ⟨hfit, hup⟩
    exact ⟨hfit, List.forall_mem_cons.mpr ⟨hup _ hmem, hup⟩⟩
  · exact (leads_mountpoint _).append ((leads_fstab _).append (leads_bind hmount hb))

theorem leads_bindMounts {f : Facts} {binds : List Bind} (hbinds : ∀ b ∈ binds, b ∈ L.binds)
    (hmount : L.mount ∈ paths) (hseen : Seen L f paths) :
    Leads (Effect L) (Sound L k) (At L (Up paths))
      (binds.flatMap fun b => mountTask f b.target (.bind b))
      (At L (Up (targets binds ++ paths))) := by
  induction binds generalizing paths with
  | nil => exact .nil
  | cons b binds ih =>
    rw [List.forall_mem_cons] at hbinds
    have hfirst := leads_bind_task (k := k) hmount hseen hbinds.1
    have hrest := ih hbinds.2 (List.mem_cons_of_mem b.target hmount)
      fun p hp hmounted => List.mem_cons_of_mem _ (hseen p hp hmounted)
    refine (hfirst.append hrest).conseq (fun _ _ h => h) ?_
    rintro h - ⟨hfit, hup⟩
    refine ⟨hfit, fun p hp => hup p ?_⟩
    simpa [targets, or_left_comm] using hp

theorem leads_data {f : Facts} {mounts : Text → Option Filesystem}
    (hmounted : ∀ p ∈ L.allowed, f.mounted p = (mounts p).isSome) :
    Leads (Effect L) (Sound L k) (At L (· = mounts)) (mountTask f L.mount .mountData)
      (At L (Up (L.mount :: L.allowed.filter f.mounted))) := by
  have hup : Up (L.allowed.filter f.mounted) mounts := by
    intro p hp
    obtain ⟨hp, hseen⟩ := List.mem_filter.mp hp
    rwa [hmounted p hp, Option.isSome_iff_ne_none] at hseen
  unfold mountTask
  split_ifs with hdata
  · refine (leads_fstab _).conseq (fun _ _ h => h) ?_
    rintro h - ⟨hfit, heq⟩
    rw [hmounted _ mount_mem, Option.isSome_iff_ne_none] at hdata
    refine ⟨hfit, ?_⟩
    rw [heq]
    exact List.forall_mem_cons.mpr ⟨hdata, hup⟩
  · have hmount : Leads (Effect L) (Sound L k) (At L (· = mounts)) [.mountData]
        (At L (Up (L.mount :: L.allowed.filter f.mounted))) := by
      refine leads_mountData.conseq ?_ fun _ _ h => h
      rintro h - ⟨hfit, heq⟩
      rw [hmounted _ mount_mem, Bool.not_eq_true, Option.isSome_eq_false_iff,
        Option.isNone_iff_eq_none] at hdata
      exact ⟨hfit, by rw [heq]; exact hup, by rw [heq]; exact hdata⟩
    exact (leads_mountpoint _).append ((leads_fstab _).append hmount)

theorem leads_apply {f : Facts} {mounts : Text → Option Filesystem}
    (hmounted : ∀ p ∈ L.allowed, f.mounted p = (mounts p).isSome) (hours : f.state = .blank ↔ ours = false) :
    Leads (Effect L) (Sound L k) (fun h => (∃ d, Fit L h d ours) ∧ h.mounts = mounts) (apply L f)
      (At L (Up L.allowed)) := by
  have hmkfs : Leads (Effect L) (Sound L k) (fun h => (∃ d, Fit L h d ours) ∧ h.mounts = mounts)
      (if f.state = .blank then [.mkfs] else []) (At L (· = mounts)) := by
    cases ours with
    | false =>
      rw [if_pos (hours.mpr rfl)]
      exact leads_mkfs (R := (· = mounts))
    | true =>
      rw [if_neg fun hblank => Bool.noConfusion (hours.mp hblank)]
      exact .nil
  have hsources : Leads (Effect L) (Sound L k) (At L (Up (L.mount :: L.allowed.filter f.mounted)))
      (sources L f) (At L (Up (L.mount :: L.allowed.filter f.mounted))) := by
    unfold sources
    split_ifs
    · refine Leads.each fun t ht => ?_
      obtain ⟨b, -, rfl⟩ := List.mem_map.mp ht
      exact leads_source List.mem_cons_self b
    · exact .nil
  have hseen : Seen L f (L.mount :: L.allowed.filter f.mounted) :=
    fun p hp hmounted => List.mem_cons_of_mem _ (List.mem_filter.mpr ⟨hp, hmounted⟩)
  have hbinds := leads_bindMounts (k := k) (fun b (hb : b ∈ L.binds) => hb) List.mem_cons_self
    hseen
  have hidle : ∀ {P : Host → Prop}, ∀ t ∈ [Task.requireClassification, .installXfsprogs,
      .readUuid, .dropinDirectories, .dropins, .reload, .verify],
      Leads (Effect L) (Sound L k) P [t] P := by
    intro P t ht
    refine leads_idle fun h h' heffect => ?_
    simp only [List.mem_cons, List.not_mem_nil, or_false] at ht
    obtain rfl | rfl | rfl | rfl | rfl | rfl | rfl := ht <;> exact heffect
  have hbefore := Leads.each (l := [Task.requireClassification, .installXfsprogs])
    (P := fun h => (∃ d, Fit L h d ours) ∧ h.mounts = mounts) fun t ht => hidle t (by grind)
  have hread := hidle (P := At L (· = mounts)) .readUuid (by simp)
  have hafter := Leads.each (l := [Task.dropinDirectories, .dropins, .reload, .verify])
    (P := At L (Up (targets L.binds ++ L.mount :: L.allowed.filter f.mounted)))
    fun t ht => hidle t (by grind)
  refine ((((((hbefore.append hmkfs).append hread).append (leads_data hmounted)).append
    hsources).append hbinds).append hafter).conseq (fun _ _ h => h) ?_
  rintro h - ⟨hfit, hup⟩
  refine ⟨hfit, fun p hp => hup p ?_⟩
  obtain rfl | hp := List.mem_cons.mp hp
  · exact List.mem_append_right _ List.mem_cons_self
  · exact List.mem_append_left _ hp

end Tasks

/-! ## Any sequence of runs -/

section Runs

variable {h₀ : Host} {loads : Loads} {raw : Raw} {probe : Probe} {v : Verdict}

theorem state_blank_iff : h.state L ours = .blank ↔ ours = false := by
  unfold Host.state
  cases ours with
  | false => simp
  | true =>
    rw [if_neg nofun]
    split_ifs <;> simp

theorem facts_mounted (hreports : Reports L loads raw h)
    (hprobe : nodeStorageBuildProbe loads raw = .ok probe) :
    ∀ p ∈ L.allowed, (facts probe v).mounted p = (h.mounts p).isSome := by
  obtain ⟨probe', hprobe', hobserves⟩ := observes_of_reports hreports
  rw [hprobe] at hprobe'
  cases hprobe'
  intro p hp
  show (mountedAt probe p).isSome = _
  rw [hobserves.mounted p hp]

/-- A run that starts from a disk that is not refused. -/
theorem leads_run (hreports : Reports L loads raw h)
    (hprobe : nodeStorageBuildProbe loads raw = .ok probe)
    (hclassify : nodeStorageClassify probe L.mount L.label L.binds = .ok v)
    (hstate : v.state ≠ .refuse) : ∃ P : Host → Prop, P h ∧
      Leads (Effect L) (Sound L k) P (apply L (facts probe v)) (At L (Up L.allowed)) := by
  obtain ⟨d, ours, hfit, hours⟩ := fit_of_classifies hreports ⟨probe, hprobe, hclassify⟩ hstate
  have hblank : (facts probe v).state = .blank ↔ ours = false := by
    rw [facts, hours, state_blank_iff]
  exact ⟨_, ⟨⟨d, hfit⟩, rfl⟩, leads_apply (facts_mounted hreports hprobe) hblank⟩

theorem reached_sound (hsound : Sound L h₀.formats h₀) (hreached : Reached L h₀ h) :
    Sound L h₀.formats h := by
  induction hreached with
  | start => exact hsound
  | run _ hreports hprobe hclassify hstate happly hdone ih =>
    obtain ⟨P, hP, hleads⟩ := leads_run hreports hprobe hclassify hstate
    exact hleads.cut ih hP happly hdone

/-- Where the filesystem keeps its quotas, no node that runs cut at any task
lead to is refused, it is blank only as long as the disk was not formatted, the
disk is formatted once at most, and a run that is not cut leaves it ready. -/
theorem apply_interrupted (hquota : QuotaKept L h₀) {loads₀ : Loads} {raw₀ : Raw} {v₀ : Verdict}
    (hreports₀ : Reports L loads₀ raw₀ h₀) (hclass : Classifies L loads₀ raw₀ v₀)
    (hstate₀ : v₀.state = .blank ∨ v₀.state = .ours) (hreached : Reached L h₀ h) :
    h.formats ≤ h₀.formats + 1 ∧
      (∀ loads raw, Reports L loads raw h → ∃ v, Classifies L loads raw v ∧
        v.state ≠ .refuse ∧ (v.state = .blank → h.formats = h₀.formats)) ∧
      ∀ loads raw probe v h', Reports L loads raw h →
        nodeStorageBuildProbe loads raw = .ok probe →
        nodeStorageClassify probe L.mount L.label L.binds = .ok v →
        Done (Effect L) (apply L (facts probe v)) h h' →
        ∀ loads' raw', Reports L loads' raw' h' →
          ∃ v', Classifies L loads' raw' v' ∧ v'.state = .ready := by
  have hsound₀ : Sound L h₀.formats h₀ := by
    have hne : v₀.state ≠ .refuse := by
      obtain h | h := hstate₀ <;> rw [h] <;> decide
    obtain ⟨d, ours, hfit, -⟩ := fit_of_classifies hreports₀ hclass hne
    exact ⟨hquota, Nat.le_succ _, d, ours, hfit, fun _ => rfl⟩
  have hsound := reached_sound hsound₀ hreached
  obtain ⟨d, ours, hfit, hcount⟩ := hsound.fit
  have haccepted : ∀ loads raw, Reports L loads raw h → ∃ v, Classifies L loads raw v ∧
      v.state ≠ .refuse ∧ (v.state = .blank → h.formats = h₀.formats) := by
    intro loads raw hreports
    obtain ⟨v, hv, hstate⟩ := classifies_of_fit hreports hfit
    refine ⟨v, hv, ?_, fun hblank => hcount (state_blank_iff.mp (hstate ▸ hblank))⟩
    rw [hstate, Host.state]
    split_ifs <;> decide
  refine ⟨hsound.once, haccepted, ?_⟩
  intro loads raw probe v h' hreports hprobe hclassify hdone loads' raw' hreports'
  have hne : v.state ≠ .refuse := by
    obtain ⟨v₁, ⟨probe₁, hprobe₁, hclassify₁⟩, hne, -⟩ := haccepted loads raw hreports
    rw [hprobe] at hprobe₁
    cases hprobe₁
    rw [hclassify] at hclassify₁
    cases hclassify₁
    exact hne
  obtain ⟨P, hP, hleads⟩ := leads_run hreports hprobe hclassify hne
  obtain ⟨-, ⟨d', hfit'⟩, hup⟩ := hleads.whole hsound hP hdone
  obtain ⟨v', hv', hstate'⟩ := classifies_of_fit hreports' hfit'
  refine ⟨v', hv', ?_⟩
  rw [hstate', Host.state, if_neg Bool.noConfusion]
  exact if_pos hup

end Runs

/-! ## A fresh node, cut after `mkfs.xfs` -/

section Fresh

def freshHost : Host where
  device := "/dev/xvdb"
  isBlock := true
  blkid := { rc := some 2 }
  disk := some freshLsblk
  quota := false
  formats := 0
  mounts _ := none
  kind _ := .absent
  holds _ := none

def ourBlkid : Result where
  rc := some 0
  stdout := "DEVNAME=/dev/xvdb\nLABEL=dockerdata\nUUID=0b7c7e0e\nBLOCK_SIZE=512\nTYPE=xfs\n"

def formattedHost : Host := { freshHost with blkid := ourBlkid, formats := 1 }

set_option maxRecDepth 20000 in
theorem reports_fresh :
    Reports defaultLayout freshLoads (fresh { rc := some 2 }) freshHost where
  realpath := by decide
  stat := by decide
  blkid _ := rfl
  lsblk _ := rfl
  findmnt := ⟨fun _ => { rc := some 1 }, rfl, fun _ _ => rfl⟩
  pathStat := ⟨fun _ => { stat := some { isThere := some false } }, rfl, fun _ _ => rfl⟩
  find := ⟨fun _ => { rc := some 1, stderr := "No such file or directory" }, rfl,
    fun _ _ hkind => (nomatch hkind)⟩

theorem formatted_ourBlkid : Formatted "dockerdata" ourBlkid := by
  constructor <;> decide

theorem quota_fresh : QuotaKept defaultLayout freshHost := by decide

theorem classify_fresh : nodeStorageClassify (freshProbe { rc := some 2 }) defaultLayout.mount
    defaultLayout.label defaultLayout.binds = .ok blankVerdict := by
  decide

theorem reached_formatted : Reached defaultLayout freshHost formattedHost := by
  have happly : apply defaultLayout (facts (freshProbe { rc := some 2 }) blankVerdict) =
      [.requireClassification, .installXfsprogs, .mkfs] ++
        (apply defaultLayout (facts (freshProbe { rc := some 2 }) blankVerdict)).drop 3 := rfl
  refine .run .start reports_fresh rfl classify_fresh nofun happly ?_
  refine .cons rfl (.cons rfl (.cons ⟨ourBlkid, some freshLsblk, formatted_ourBlkid, ?_, rfl⟩
    (.nil _)))
  exact .some ⟨rfl, rfl, rfl, rfl, by simp⟩

theorem apply_interrupted_fresh : formattedHost.formats ≤ freshHost.formats + 1 ∧
    (∀ loads raw, Reports defaultLayout loads raw formattedHost →
      ∃ v, Classifies defaultLayout loads raw v ∧ v.state ≠ .refuse ∧
        (v.state = .blank → formattedHost.formats = freshHost.formats)) ∧
    ∀ loads raw probe v h', Reports defaultLayout loads raw formattedHost →
      nodeStorageBuildProbe loads raw = .ok probe →
      nodeStorageClassify probe defaultLayout.mount defaultLayout.label defaultLayout.binds =
        .ok v →
      Done (Effect defaultLayout) (apply defaultLayout (facts probe v)) formattedHost h' →
      ∀ loads' raw', Reports defaultLayout loads' raw' h' →
        ∃ v', Classifies defaultLayout loads' raw' v' ∧ v'.state = .ready :=
  apply_interrupted quota_fresh reports_fresh ⟨_, rfl, classify_fresh⟩ (.inl rfl) reached_formatted

end Fresh

/-! ## A filesystem that is mounted without project quotas -/

section NoQuota

def dockerMount : Filesystem := ⟨some "/dev/xvdb[/docker]", some "rw,relatime,noquota"⟩

def dataMount : Filesystem := ⟨some "/dev/xvdb", some "rw,noatime,noquota"⟩

def listedAt (points : List Text) : BlockDevice :=
  .mk (some "xvdb") (some "/dev/xvdb") (some "disk") (some "xfs") (some (points.map some)) none []

/-- Only the bind mount of docker's directory is left of an older set-up. -/
def boundHost : Host where
  device := "/dev/xvdb"
  isBlock := true
  blkid := ourBlkid
  disk := some (listedAt ["/var/lib/docker"])
  quota := false
  formats := 0
  mounts p := if p = "/var/lib/docker" then some dockerMount else none
  kind p := if p = "/var/lib/docker" then .directory else .absent
  holds p := if p = "/var/lib/docker" then some true else none

/-- With the directory for the data mount made. -/
def madeHost : Host :=
  { boundHost with
    kind := Function.update boundHost.kind "/var/lib/docker-data" .directory
    holds := Function.update boundHost.holds "/var/lib/docker-data" (some false) }

def strandedHost : Host :=
  { madeHost.mountedOn "/var/lib/docker-data" dataMount
      (some (listedAt ["/var/lib/docker", "/var/lib/docker-data"])) true with
    quota := madeHost.quotaAfter defaultLayout }

def dockerJson : Text :=
  "\x7b\"filesystems\":[\x7b\"target\":\"/var/lib/docker\",\"source\":\"/dev/xvdb[/docker]\"," ++
    "\"fstype\":\"xfs\",\"options\":\"rw,relatime,noquota\"\x7d]\x7d"

def dataJson : Text :=
  "\x7b\"filesystems\":[\x7b\"target\":\"/var/lib/docker-data\",\"source\":\"/dev/xvdb\"," ++
    "\"fstype\":\"xfs\",\"options\":\"rw,noatime,noquota\"\x7d]\x7d"

def lsblkJson (points : Text) : Text :=
  "\x7b\"blockdevices\":[\x7b\"name\":\"xvdb\",\"path\":\"/dev/xvdb\",\"type\":\"disk\"," ++
    "\"fstype\":\"xfs\",\"mountpoints\":[" ++ points ++ "]\x7d]\x7d"

def boundPoints : Text := "\"/var/lib/docker\""

def strandedPoints : Text := "\"/var/lib/docker\",\"/var/lib/docker-data\""

def readLsblk (text : Text) : Except PyError (List BlockDevice) :=
  if text = lsblkJson boundPoints then .ok [listedAt ["/var/lib/docker"]]
  else .ok [listedAt ["/var/lib/docker", "/var/lib/docker-data"]]

def readFindmnt (text : Text) : Except PyError (List Filesystem) :=
  if text = dockerJson then .ok [dockerMount] else .ok [dataMount]

def boundLoads : Loads := ⟨readLsblk, readFindmnt⟩

/-- `data`: whether the data filesystem is mounted. -/
def findmntAnswer (data : Bool) (p : Text) : Result :=
  if p = "/var/lib/docker" then { rc := some 0, stdout := dockerJson }
  else if p = "/var/lib/docker-data" && data then { rc := some 0, stdout := dataJson }
  else { rc := some 1 }

def findAnswer (data : Bool) (p : Text) : Result :=
  if p = "/var/lib/docker" || p = "/var/lib/docker-data" && data then
    { rc := some 0, stdout := p ++ "/overlay2" }
  else { rc := some 1, stderr := "No such file or directory" }

def statAnswer (data : Bool) (p : Text) : StatResult :=
  if p = "/var/lib/docker" || p = "/var/lib/docker-data" && data then
    { stat := some { isThere := some true, isdir := true } }
  else { stat := some { isThere := some false } }

def answers (points : Text) (data : Bool) : Raw where
  deviceInput := "/dev/xvdb"
  realpath := some { rc := some 0, stdout := "/dev/xvdb" }
  stat := some { stat := some { isThere := some true, isblk := true } }
  blkid := some ourBlkid
  lsblk := some { rc := some 0, stdout := lsblkJson points }
  findmnt := defaultLayout.allowed.map fun p => ⟨.path p, findmntAnswer data p⟩
  find := defaultLayout.allowed.map fun p => ⟨.path p, findAnswer data p⟩
  pathStat := defaultLayout.allowed.map fun p => ⟨.path p, statAnswer data p⟩

theorem lsblk_answers {points : Text} {data : Bool} {d : BlockDevice}
    (hstrip : Text.strip (lsblkJson points) = lsblkJson points)
    (hread : readLsblk (lsblkJson points) = .ok [d]) :
    NodeStorage.lsblk boundLoads (answers points data).lsblk = .ok (some d) := by
  have hne : (lsblkJson points).isEmpty = false := rfl
  have hexit : exited (answers points data).lsblk 0 = true := rfl
  have hstdout : stdout (answers points data).lsblk = lsblkJson points := rfl
  have hloads : boundLoads.blockdevices (lsblkJson points) = .ok [d] := hread
  rw [NodeStorage.lsblk, if_pos hexit, doc, hstdout, hstrip, hne, if_neg Bool.false_ne_true, hloads]
  rfl

theorem reports_bound :
    Reports defaultLayout boundLoads (answers boundPoints false) boundHost := by
  -- one evaluation for all of it
  have hfacts : resolved (answers boundPoints false) = boundHost.device ∧
      isBlock (answers boundPoints false) = boundHost.isBlock ∧
      Text.strip (lsblkJson boundPoints) = lsblkJson boundPoints ∧
      (∀ p ∈ defaultLayout.allowed,
        NodeStorage.findmnt boundLoads (findmntAnswer false p) = .ok (boundHost.mounts p)) ∧
      (∀ p ∈ defaultLayout.allowed, pathType (statAnswer false p) = boundHost.kind p) ∧
      ∀ p ∈ defaultLayout.allowed, boundHost.kind p = .directory →
        Lists (findAnswer false p) (boundHost.holds p) := by
    decide
  obtain ⟨hrealpath, hstat, hstrip, hfindmnt, hpath, hfind⟩ := hfacts
  exact ⟨hrealpath, hstat, fun _ => rfl, fun _ => lsblk_answers hstrip (by rw [readLsblk, if_pos rfl]),
    ⟨findmntAnswer false, rfl, hfindmnt⟩, ⟨statAnswer false, rfl, hpath⟩,
    ⟨findAnswer false, rfl, hfind⟩⟩

theorem reports_stranded :
    Reports defaultLayout boundLoads (answers strandedPoints true) strandedHost := by
  -- one evaluation for all of it
  have hfacts : lsblkJson strandedPoints ≠ lsblkJson boundPoints ∧
      resolved (answers strandedPoints true) = strandedHost.device ∧
      isBlock (answers strandedPoints true) = strandedHost.isBlock ∧
      Text.strip (lsblkJson strandedPoints) = lsblkJson strandedPoints ∧
      (∀ p ∈ defaultLayout.allowed,
        NodeStorage.findmnt boundLoads (findmntAnswer true p) = .ok (strandedHost.mounts p)) ∧
      (∀ p ∈ defaultLayout.allowed, pathType (statAnswer true p) = strandedHost.kind p) ∧
      ∀ p ∈ defaultLayout.allowed, strandedHost.kind p = .directory →
        Lists (findAnswer true p) (strandedHost.holds p) := by
    decide
  obtain ⟨hother, hrealpath, hstat, hstrip, hfindmnt, hpath, hfind⟩ := hfacts
  exact ⟨hrealpath, hstat, fun _ => rfl, fun _ => lsblk_answers hstrip (by rw [readLsblk, if_neg hother]),
    ⟨findmntAnswer true, rfl, hfindmnt⟩, ⟨statAnswer true, rfl, hpath⟩,
    ⟨findAnswer true, rfl, hfind⟩⟩

theorem relisted_docker : Relisted [defaultLayout.mount] (listedAt ["/var/lib/docker"])
    (listedAt ["/var/lib/docker", "/var/lib/docker-data"]) := by
  have hpoints : mountpoints (listedAt ["/var/lib/docker", "/var/lib/docker-data"]) =
      mountpoints (listedAt ["/var/lib/docker"]) ++ [defaultLayout.mount] := by
    decide
  refine ⟨rfl, rfl, rfl, rfl, fun q => ?_⟩
  rw [hpoints, List.mem_append]

theorem fit_bound :
    Fit defaultLayout boundHost (listedAt ["/var/lib/docker"]) true := by
  have hfacts : boundHost.device ≠ [] ∧ ("/" : Text) ∉ mountpoints (listedAt ["/var/lib/docker"]) ∧
      (∀ p ∈ mountpoints (listedAt ["/var/lib/docker"]),
        ∃ a ∈ defaultLayout.allowed, beneath p a = true) ∧
      (∀ p ∈ defaultLayout.allowed, boundHost.mounts p = none →
        boundHost.kind p = .absent ∨ boundHost.kind p = .directory ∧ boundHost.holds p = some false) ∧
      ∀ p ∈ defaultLayout.allowed, boundHost.kind p = .directory → boundHost.holds p ≠ none := by
    decide
  obtain ⟨hdevice, hroot, hpoints, hfree, hlistable⟩ := hfacts
  refine ⟨hdevice, rfl, rfl, hroot, ⟨rfl, rfl⟩, formatted_ourBlkid.signature _, nofun, hpoints,
    fun p hp m hm => ?_, hfree, hlistable⟩
  have hdocker : p = "/var/lib/docker" ∧ dockerMount = m := by
    unfold boundHost at hm
    dsimp only at hm
    split_ifs at hm with hdocker
    exact ⟨hdocker, Option.some.inj hm⟩
  obtain ⟨rfl, rfl⟩ := hdocker
  exact ⟨by decide, by decide, fun _ => by decide⟩

/-- The disk is called ours, the data filesystem is mounted without quotas, as
it is mounted already, and from then on the disk is refused. -/
theorem mounted_without_quota :
    ∃ loads raw₀ v₀ raw h v, Reports defaultLayout loads raw₀ boundHost ∧
      Classifies defaultLayout loads raw₀ v₀ ∧ v₀.state = .ours ∧
      Reached defaultLayout boundHost h ∧ Reports defaultLayout loads raw h ∧
      Classifies defaultLayout loads raw v ∧ v.state = .refuse := by
  obtain ⟨v₀, ⟨probe, hprobe, hclassify⟩, hstate⟩ := classifies_of_fit reports_bound fit_bound
  have hours : v₀.state = .ours := hstate.trans (by decide)
  have hfacts : facts probe v₀ = ⟨.ours, (facts probe v₀).mounted⟩ := by
    rw [← hours]
    rfl
  have hdata : (facts probe v₀).mounted "/var/lib/docker-data" = false :=
    facts_mounted reports_bound hprobe _ mount_mem
  have happly : apply defaultLayout (facts probe v₀) =
      [.requireClassification, .installXfsprogs, .readUuid, .mountpoint "/var/lib/docker-data",
        .fstab "/var/lib/docker-data", .mountData] ++
      (sources defaultLayout (facts probe v₀) ++ bindMounts defaultLayout (facts probe v₀) ++
        [.dropinDirectories, .dropins, .reload, .verify]) := by
    have htask : mountTask (facts probe v₀) defaultLayout.mount .mountData =
        [.mountpoint "/var/lib/docker-data", .fstab "/var/lib/docker-data", .mountData] := by
      rw [mountTask, show defaultLayout.mount = "/var/lib/docker-data" from rfl, hdata]
      rfl
    have hmkfs : (if (facts probe v₀).state = .blank then [Task.mkfs] else []) = [] := by
      rw [hfacts]
      rfl
    rw [apply, hmkfs, htask]
    simp only [List.append_assoc, List.cons_append, List.nil_append]
  have hreached : Reached defaultLayout boundHost strandedHost := by
    refine .run .start reports_bound hprobe hclassify (by rw [hours]; exact nofun) happly ?_
    have hmade : Effect defaultLayout (.mountpoint "/var/lib/docker-data") boundHost madeHost :=
      (if_pos rfl).symm
    have hmounted : Effect defaultLayout .mountData madeHost strandedHost :=
      ⟨dataMount, some (listedAt ["/var/lib/docker", "/var/lib/docker-data"]), true,
        by decide, by decide, by decide,
        .some relisted_docker, rfl⟩
    exact .cons rfl (.cons rfl (.cons rfl (.cons hmade (.cons rfl (.cons hmounted (.nil _))))))
  obtain ⟨probe', hprobe', -⟩ := observes_of_reports reports_stranded
  obtain ⟨v, hv⟩ := classify_total probe' defaultLayout.mount defaultLayout.label
    defaultLayout.binds
  refine ⟨_, _, v₀, _, _, v, reports_bound, ⟨probe, hprobe, hclassify⟩, hours, hreached,
    reports_stranded, ⟨probe', hprobe', hv⟩, ?_⟩
  by_contra hne
  obtain ⟨d, ours, hfit, -⟩ := fit_of_classifies reports_stranded ⟨probe', hprobe', hv⟩ hne
  have hquota := ((hfit.right _ mount_mem dataMount rfl).root rfl).2
  exact absurd hquota (by decide)

end NoQuota

end Provisioner.NodeStorage
