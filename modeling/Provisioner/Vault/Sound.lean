import Mathlib.Data.List.Nodup
import Mathlib.Data.List.Perm.Subperm
import Provisioner.Vault.Bootstrap

/-!
# What every point of a bring-up keeps to

Outside its two blocks the role leaves either nothing or all the secrets of the
live vault behind. The container comes and goes without touching them, and the
shares that were submitted are the live vault's.
-/

namespace Provisioner.Vault

open Play

/-- Every share and the root token of the live vault are on disk. -/
structure Material (c : Config) (v : ℕ) (m : Machine) : Prop where
  vault : m.vault = some v
  unsealKey : ∀ i < c.vaultKeyShares, m.unsealKey i = some ⟨v, i⟩
  rootkey : m.rootkey = some (.token v)

structure Untouched (m : Machine) : Prop where
  vault : m.vault = none
  unsealKey : ∀ i, m.unsealKey i = none
  rootkey : m.rootkey = none
  mount : m.mount = none

/-- The mount with its maximum lease tuned and its root CA generated. -/
def tuned (c : Config) : Mount where
  maxLeaseTtlHours := some c.vaultMaxLeaseTtlHours
  rootCa := true

/-- The shares submitted so far are the live vault's, and too few. -/
structure Unfinished (c : Config) (m : Machine) : Prop where
  nodup : m.progress.Nodup
  short : m.progress.length < c.vaultKeyThreshold
  own : ∀ x ∈ m.progress, some x.vault = m.vault

theorem Unfinished.of_nil {c : Config} {m : Machine} (h : m.progress = []) :
    Unfinished c m where
  nodup := by
    rw [h]
    exact List.nodup_nil
  short := by
    rw [h]
    exact c.threshold_pos
  own x hx := by
    rw [h] at hx
    exact absurd hx List.not_mem_nil

structure Sound (c : Config) (m : Machine) : Prop where
  settled : m.block = none →
    Untouched m ∨ ∃ v, Material c v m ∧ (m.mount = none ∨ m.mount = some (tuned c))
  token : ∀ x, m.container = some x → x.tokenVolume = true → m.vault.isSome ∧ x.token = m.vault
  unfinished : Unfinished c m

variable {c : Config} {m : Machine} {v : ℕ}

structure Kept (m m' : Machine) : Prop where
  vault : m'.vault = m.vault
  unsealKey : m'.unsealKey = m.unsealKey
  rootkey : m'.rootkey = m.rootkey
  mount : m'.mount = m.mount
  block : m'.block = m.block

theorem Kept.refl (m : Machine) : Kept m m := ⟨rfl, rfl, rfl, rfl, rfl⟩

theorem Kept.material {m' : Machine} (h : Kept m m') (hmaterial : Material c v m) :
    Material c v m' where
  vault := h.vault.trans hmaterial.vault
  unsealKey i hi := by rw [h.unsealKey, hmaterial.unsealKey i hi]
  rootkey := h.rootkey.trans hmaterial.rootkey

theorem Kept.untouched {m' : Machine} (h : Kept m m') (huntouched : Untouched m) :
    Untouched m' where
  vault := h.vault.trans huntouched.vault
  unsealKey i := by rw [h.unsealKey, huntouched.unsealKey i]
  rootkey := h.rootkey.trans huntouched.rootkey
  mount := h.mount.trans huntouched.mount

theorem Sound.kept {m' : Machine} (h : Sound c m) (hkept : Kept m m')
    (htoken : ∀ x, m'.container = some x → x.tokenVolume = true →
      m.vault.isSome ∧ x.token = m.vault) (hunfinished : Unfinished c m') : Sound c m' where
  settled hnone := by
    rw [hkept.block] at hnone
    rcases h.settled hnone with huntouched | ⟨v, hmaterial, hmount⟩
    · exact .inl (hkept.untouched huntouched)
    · refine .inr ⟨v, hkept.material hmaterial, ?_⟩
      rwa [hkept.mount]
  token x hx htv := by
    rw [hkept.vault]
    exact htoken x hx htv
  unfinished := hunfinished

/-! ## The container -/

def Mountable (tokenVolume : Bool) (m : Machine) : Prop :=
  tokenVolume = true → ∃ v, m.vault = some v ∧ m.rootkey = some (.token v)

theorem start_rootkey {tokenVolume : Bool} (h : Mountable tokenVolume m) :
    (m.start tokenVolume).rootkey = m.rootkey := by
  cases tokenVolume with
  | false => rfl
  | true =>
    obtain ⟨v, -, hroot⟩ := h rfl
    simp [Machine.start, hroot]

theorem kept_start {tokenVolume : Bool} (h : Mountable tokenVolume m) :
    Kept m (m.start tokenVolume) :=
  ⟨rfl, rfl, start_rootkey h, rfl, rfl⟩

theorem kept_remove (m : Machine) : Kept m m.remove := ⟨rfl, rfl, rfl, rfl, rfl⟩

theorem kept_stop (m : Machine) : Kept m m.stop := ⟨rfl, rfl, rfl, rfl, rfl⟩

theorem Sound.start (h : Sound c m) {tokenVolume : Bool} (hmountable : Mountable tokenVolume m) :
    Sound c (m.start tokenVolume) := by
  refine h.kept (kept_start hmountable) (fun x hx htv => ?_) (.of_nil rfl)
  obtain rfl : _ = x := Option.some.inj hx
  obtain ⟨v, hvault, hroot⟩ := hmountable htv
  simp only [show tokenVolume = true from htv, hroot, hvault, if_true]
  exact ⟨rfl, rfl⟩

theorem Sound.remove (h : Sound c m) : Sound c m.remove :=
  h.kept (kept_remove m) (fun _ hx => (nomatch hx)) (.of_nil rfl)

theorem Sound.stop (h : Sound c m) : Sound c m.stop := by
  refine h.kept (kept_stop m) (fun x hx htv => ?_) (.of_nil rfl)
  obtain ⟨y, hy, rfl⟩ := Option.map_eq_some_iff.mp hx
  exact h.token y hy htv

theorem Sound.mountable (h : Sound c m) (hblock : m.block = none) :
    Mountable (m.container.any Container.tokenVolume) m := by
  intro hany
  obtain ⟨x, hx, htv⟩ := (Option.any_eq_true _ _).mp hany
  obtain ⟨hsome, -⟩ := h.token x hx htv
  rcases h.settled hblock with huntouched | ⟨v, hmaterial, -⟩
  · rw [huntouched.vault] at hsome
    cases hsome
  · exact ⟨v, hmaterial.vault, hmaterial.rootkey⟩

section Ensure

variable {tokenVolume : Bool} {r : Reply}

theorem ensureContainer_sound (h : Sound c m) (hmountable : Mountable tokenVolume m)
    (hblock : m.block = none) : Sound c (ensureContainer tokenVolume r m) := by
  rw [ensureContainer]
  split
  · exact h.start hmountable
  · split
    · exact h
    · exact h.start (h.mountable hblock)

theorem ensureContainer_kept (h : Sound c m) (hmountable : Mountable tokenVolume m)
    (hblock : m.block = none) : Kept m (ensureContainer tokenVolume r m) := by
  rw [ensureContainer]
  split
  · exact kept_start hmountable
  · split
    · exact .refl m
    · exact kept_start (h.mountable hblock)

theorem halfContainer_sound (h : Sound c m) (hmountable : Mountable tokenVolume m)
    (hblock : m.block = none) : Sound c (halfContainer tokenVolume r m) := by
  rw [halfContainer]
  split
  · exact h.remove
  · exact ensureContainer_sound h hmountable hblock

/-- The container runs, with the root token of the live vault where it was asked for. -/
def Serving (tokenVolume : Bool) (m : Machine) : Prop :=
  ∃ x, m.container = some x ∧ x.running = true ∧ (tokenVolume = true → x.token = m.vault)

theorem start_serving (h : Mountable tokenVolume m) : Serving tokenVolume (m.start tokenVolume) := by
  refine ⟨_, rfl, rfl, fun htv => ?_⟩
  obtain ⟨v, hvault, hroot⟩ := h htv
  simp only [Machine.start, htv, hroot, hvault, if_true]
  rfl

theorem ensureContainer_serving (h : Sound c m) (hmountable : Mountable tokenVolume m)
    (hblock : m.block = none) : Serving tokenVolume (ensureContainer tokenVolume r m) := by
  rw [ensureContainer]
  split
  · exact start_serving hmountable
  · rename_i hsame
    cases hcontainer : m.container with
    | none => simp [differs, hcontainer] at hsame
    | some x =>
      have hvolume : tokenVolume = true → x.tokenVolume = true := by
        intro htv
        simp only [differs, hcontainer, htv, Bool.true_and, Bool.or_eq_true, not_or] at hsame
        simpa using hsame.2
      split
      · rename_i hrunning
        refine ⟨x, hcontainer, ?_, fun htv => (h.token x hcontainer (hvolume htv)).2⟩
        simpa [Machine.running, hcontainer] using hrunning
      · have hagain := h.mountable hblock
        rw [hcontainer, Option.any_some] at hagain
        rw [Option.any_some]
        obtain ⟨y, hy, hrunning, htoken⟩ := start_serving hagain
        exact ⟨y, hy, hrunning, fun htv => htoken (hvolume htv)⟩

end Ensure

/-! ## The unseal keys -/

/-- No share is missing once the first `k` have been submitted. -/
def Submitted (v k : ℕ) (m : Machine) : Prop :=
  m.unsealed = true ∨ ∀ i < k, (⟨v, i⟩ : Share) ∈ m.progress

theorem Sound.unsealed (h : Sound c m) (hall : Submitted v c.vaultKeyThreshold m) :
    m.unsealed = true := by
  refine hall.resolve_right fun hmem => ?_
  have hsub : (List.range c.vaultKeyThreshold).map (Share.mk v) ⊆ m.progress := by
    intro x hx
    obtain ⟨i, hi, rfl⟩ := List.mem_map.mp hx
    exact hmem i (List.mem_range.mp hi)
  have hnodup : ((List.range c.vaultKeyThreshold).map (Share.mk v)).Nodup :=
    List.Nodup.map (fun i j hij => congrArg Share.index hij) List.nodup_range
  have hlength := (List.subperm_of_subset hnodup hsub).length_le
  have hshort := h.unfinished.short
  rw [List.length_map, List.length_range] at hlength
  omega

theorem submit_eq (c : Config) (m : Machine) (x : Share) :
    ∃ progress unsealed, (m.submit c x).1 = { m with progress := progress, unsealed := unsealed } := by
  rw [Machine.submit]
  split
  · exact ⟨_, _, rfl⟩
  · split
    · exact ⟨_, _, rfl⟩
    · split <;> exact ⟨_, _, rfl⟩

theorem kept_submit (c : Config) (m : Machine) (x : Share) : Kept m (m.submit c x).1 := by
  obtain ⟨progress, unsealed, heq⟩ := submit_eq c m x
  rw [heq]
  exact ⟨rfl, rfl, rfl, rfl, rfl⟩

theorem container_submit (c : Config) (m : Machine) (x : Share) :
    (m.submit c x).1.container = m.container := by
  obtain ⟨progress, unsealed, heq⟩ := submit_eq c m x
  rw [heq]

theorem mem_adding {x y : Share} : y ∈ m.adding x ↔ y ∈ m.progress ∨ y = x := by
  rw [Machine.adding]
  split <;> simp_all

theorem nodup_adding {x : Share} (h : m.progress.Nodup) : (m.adding x).Nodup := by
  rw [Machine.adding]
  split
  · exact h
  · rw [← List.concat_eq_append]
    exact List.Nodup.concat ‹_› h

theorem submit_own (h : Sound c m) (hvault : m.vault = some v) (i : ℕ) :
    (m.submit c ⟨v, i⟩).2 = true ∧ Unfinished c (m.submit c ⟨v, i⟩).1 ∧
      (Submitted v i m → Submitted v (i + 1) (m.submit c ⟨v, i⟩).1) := by
  have hown : ∀ y ∈ m.adding ⟨v, i⟩, some y.vault = m.vault := by
    intro y hy
    rcases mem_adding.mp hy with hold | rfl
    · exact h.unfinished.own y hold
    · exact hvault.symm
  rw [Machine.submit]
  split
  · exact ⟨rfl, h.unfinished, fun _ => .inl ‹_›⟩
  · split
    · refine ⟨rfl, ⟨nodup_adding h.unfinished.nodup, ‹_›, hown⟩, fun hk => .inr fun j hj => ?_⟩
      rcases Nat.lt_succ_iff_lt_or_eq.mp hj with hlt | rfl
      · exact mem_adding.mpr (.inl (hk.resolve_left ‹_› j hlt))
      · exact mem_adding.mpr (.inr rfl)
    · exact ⟨rfl, .of_nil rfl, fun _ => .inl rfl⟩

theorem Sound.submit (h : Sound c m) (x : Share) (hunfinished : Unfinished c (m.submit c x).1) :
    Sound c (m.submit c x).1 := by
  apply h.kept (kept_submit c m x) _ hunfinished
  rw [container_submit]
  exact h.token

end Provisioner.Vault
