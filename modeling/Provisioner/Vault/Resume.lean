import Provisioner.Library.Progress
import Provisioner.Vault.Sound

/-!
# Resuming the bring-up of the vault

From what a run that ended outside the two blocks has left, a run whose commands
succeed brings the vault up. A run that ends inside a block leaves a machine that
its guard takes for a finished one.
-/

namespace Provisioner.Vault

open Play

def Held (c : Config) (s : Host) : Prop := Sound c s.machine

/-- The items keep to `Sound` wherever they are cut, and go through. -/
abbrev Brings (c : Config) (P : Host → Prop) (items : List Item) (Q : Host → Prop) : Prop :=
  Carries (Held c) P items Q

variable {c : Config} {P Q : Host → Prop} {v : ℕ}

theorem brings_command (f : Machine → Bool)
    (h : ∀ s, Held c s → P s → s.machine.running = true ∧ f s.machine = true) :
    Brings c P [vaultCommand f] P := by
  apply Carries.gate
  intro s hheld hs
  obtain ⟨hrunning, hf⟩ := h s hheld hs
  rw [hrunning, hf]
  rfl

theorem brings_registers {f : Reply → Host → Facts}
    (h : ∀ s r, Held c s → P s → Q { s with facts := f r s }) : Brings c P [registers f] Q :=
  Carries.observes fun s r hheld hs => ⟨hheld, h s r hheld hs⟩

theorem Serving.running {tokenVolume : Bool} {m : Machine} (h : Serving tokenVolume m) :
    m.running = true := by
  obtain ⟨x, hx, hrunning, -⟩ := h
  simp [Machine.running, hx, hrunning]

theorem Serving.mono {tokenVolume : Bool} {m m' : Machine} (h : Serving tokenVolume m)
    (hcontainer : m'.container = m.container) (hvault : m'.vault = m.vault) :
    Serving tokenVolume m' := by
  rw [Serving, hcontainer, hvault]
  exact h

/-! ## Initializing -/

/-- Before `operator init` has been called. -/
def Blank (s : Host) : Prop := Untouched s.machine ∧ s.machine.block = none

/-- The run holds the secrets, and the first `i` shares are on disk. -/
structure Writing (i : ℕ) (s : Host) : Prop where
  output : ∃ v, s.machine.vault = some v ∧ s.facts.vaultInit = some v ∧
    ∀ j < i, s.machine.unsealKey j = some ⟨v, j⟩
  block : s.machine.block = some .operatorInit
  mount : s.machine.mount = none

def Whole (c : Config) (v : ℕ) (s : Host) : Prop :=
  Material c v s.machine ∧ s.machine.block = none

theorem Held.whole {s : Host} (h : Held c s) (hblock : s.machine.block = none)
    (hkey : (s.machine.unsealKey 0).isSome = true) : ∃ v, Whole c v s := by
  rcases h.settled hblock with huntouched | ⟨v, hmaterial, -⟩
  · rw [huntouched.unsealKey 0] at hkey
    cases hkey
  · exact ⟨v, hmaterial, hblock⟩

theorem Held.blank {s : Host} (h : Held c s) (hblock : s.machine.block = none)
    (hkey : (s.machine.unsealKey 0).isSome = false) : Blank s := by
  rcases h.settled hblock with huntouched | ⟨v, hmaterial, -⟩
  · exact ⟨huntouched, hblock⟩
  · rw [hmaterial.unsealKey 0 c.shares_pos] at hkey
    cases hkey

theorem brings_first_container :
    Brings c Blank [dockerContainer false] fun s => Blank s ∧ s.machine.running = true := by
  have hmountable : ∀ m, Mountable false m := fun _ h => (nomatch h)
  apply Carries.tries
  · intro s r hheld ⟨huntouched, hblock⟩
    have hkept := ensureContainer_kept (r := r) hheld (hmountable _) hblock
    exact ⟨ensureContainer_sound hheld (hmountable _) hblock,
      ⟨hkept.untouched huntouched, hkept.block.trans hblock⟩,
      (ensureContainer_serving hheld (hmountable _) hblock).running⟩
  · exact fun s r hheld hs => halfContainer_sound hheld (hmountable _) hs.2

theorem brings_operatorInit :
    Brings c (fun s => Blank s ∧ s.machine.running = true) operatorInit (Writing 0) := by
  apply Carries.cons (M := fun s => Blank s ∧ s.machine.running = true)
  · apply brings_command
    intro s _ ⟨⟨huntouched, _⟩, hrunning⟩
    exact ⟨hrunning, by rw [huntouched.vault]; rfl⟩
  · apply Carries.acts
    intro s r hheld ⟨⟨huntouched, _⟩, _⟩
    refine ⟨⟨fun hnone => (nomatch hnone), fun x hx htv => ?_, .of_nil rfl⟩,
      ⟨_, rfl, rfl, fun j hj => absurd hj (Nat.not_lt_zero j)⟩, rfl, huntouched.mount⟩
    -- a token that was mounted before belongs to a vault that was there before
    have hsome := (hheld.token x hx htv).1
    rw [huntouched.vault] at hsome
    cases hsome

theorem loops_writeUnsealKey :
    Carries.Loops (Held c) loopResults (fun i s => Writing i s ∧ s.facts.itemFailed = false)
      (fun s => s.machine.block = some .operatorInit) writeUnsealKey c.vaultKeyShares where
  step i _ s _ hs := by
    obtain ⟨⟨⟨v, hvault, hinit, hkeys⟩, hblock, hmount⟩, hclear⟩ := hs
    refine ⟨rfl, ⟨⟨v, hvault, hinit, fun j hj => ?_⟩, hblock, hmount⟩, hclear⟩
    by_cases hji : j = i
    · subst hji
      simp [writeUnsealKey, hinit]
    · simp only [writeUnsealKey, Function.update_of_ne hji]
      exact hkeys j (by omega)
  loose i s hs := ⟨hs.1.block, hs.2⟩
  keep i _ s hheld hblock := by
    refine ⟨⟨fun hnone => ?_, hheld.token, hheld.unfinished.1, hheld.unfinished.2,
      hheld.unfinished.3⟩, hblock, fun hfailed => hfailed⟩
    have hopen := hblock.symm.trans hnone
    cases hopen
  note s hheld hblock := ⟨hheld, hblock, rfl⟩

theorem brings_writeRootToken :
    Brings c (Writing c.vaultKeyShares) [writeRootToken] fun s => ∃ v, Whole c v s := by
  apply Carries.acts
  intro s r hheld hs
  obtain ⟨v, hvault, hinit, hkeys⟩ := hs.output
  have hmaterial : Material c v { s.machine with
      rootkey := s.facts.vaultInit.map .token, block := none } :=
    ⟨hvault, hkeys, by rw [hinit]; rfl⟩
  exact ⟨⟨fun _ => .inr ⟨v, hmaterial, .inl hs.mount⟩, hheld.token, hheld.unfinished.1,
    hheld.unfinished.2, hheld.unfinished.3⟩, v, hmaterial, rfl⟩

theorem brings_initializeVault :
    Brings c Blank (initializeVault c) fun s => ∃ v, Whole c v s := by
  have hwrite : Brings c (Writing 0)
      (loops loopResults ((List.range c.vaultKeyShares).map writeUnsealKey))
      (Writing c.vaultKeyShares) :=
    (Carries.loops loops_writeUnsealKey fun s hheld hs =>
      ⟨hheld, ⟨hs.output, hs.block, hs.mount⟩, rfl⟩).post fun _ _ hs => hs.1
  have hwait : Brings c (fun s => Blank s ∧ s.machine.running = true) [vaultCommand fun _ => true]
      fun s => Blank s ∧ s.machine.running = true :=
    brings_command _ fun s _ hs => ⟨hs.2, rfl⟩
  exact (((brings_first_container.cons hwait).append brings_operatorInit).append hwrite).append
    brings_writeRootToken

/-! ## Unsealing -/

def Served (c : Config) (v : ℕ) (s : Host) : Prop :=
  Whole c v s ∧ Serving true s.machine

theorem brings_container :
    Brings c (Whole c v) [dockerContainer true] (Served c v) := by
  have hmountable : ∀ s, Whole c v s → Mountable true s.machine :=
    fun s hs _ => ⟨v, hs.1.vault, hs.1.rootkey⟩
  apply Carries.tries
  · intro s r hheld hs
    have hkept := ensureContainer_kept (r := r) hheld (hmountable s hs) hs.2
    exact ⟨ensureContainer_sound hheld (hmountable s hs) hs.2,
      ⟨hkept.material hs.1, hkept.block.trans hs.2⟩,
      ensureContainer_serving hheld (hmountable s hs) hs.2⟩
  · exact fun s r hheld hs => halfContainer_sound hheld (hmountable s hs) hs.2

theorem brings_readStatus {R : Machine → Prop} :
    Brings c (fun s => Served c v s ∧ R s.machine) readStatus
      fun s => (Served c v s ∧ R s.machine) ∧ s.facts.sealed = !s.machine.unsealed :=
  (brings_command _ fun _ _ hs => ⟨hs.1.2.running, rfl⟩).cons
    (brings_registers fun _ _ _ hs => ⟨hs, rfl⟩)

/-- The keys that were read are the vault's, and the first `i` are with the server. -/
structure Submitting (c : Config) (v i : ℕ) (s : Host) : Prop where
  served : Served c v s
  read : ∀ j < c.vaultKeyThreshold, s.facts.vaultUnsealKeys j = some ⟨v, j⟩
  submitted : Submitted v i s.machine

theorem brings_readUnsealKeys :
    Brings c (Served c v) (readUnsealKeys c) (Submitting c v 0) := by
  have hkey : ∀ s, Served c v s → ∀ j < c.vaultKeyThreshold,
      s.machine.unsealKey j = some ⟨v, j⟩ :=
    fun s hs j hj => hs.1.1.unsealKey j (Nat.lt_of_lt_of_le hj c.threshold_le)
  apply Carries.cons (M := Served c v)
  · apply Carries.gate
    intro s _ hs
    rw [List.all_eq_true]
    intro j hj
    rw [hkey s hs j (List.mem_range.mp hj)]
    rfl
  · apply brings_registers
    exact fun s r _ hs => ⟨hs, hkey s hs, .inr fun i hi => absurd hi (Nat.not_lt_zero i)⟩

theorem loops_submitUnsealKey :
    Carries.Loops (Held c) loopResults
      (fun i s => Submitting c v i s ∧ s.facts.itemFailed = false) (Submitting c v 0)
      (submitUnsealKey c) c.vaultKeyThreshold := by
  have hnone : ∀ m, Submitted v 0 m := fun _ => .inr fun i hi => absurd hi (Nat.not_lt_zero i)
  have hspec : ∀ {i s}, i < c.vaultKeyThreshold → Held c s → Submitting c v 0 s →
      (submitUnsealKey c i s).2 = true ∧ Sound c (submitUnsealKey c i s).1.machine ∧
        (Submitted v i s.machine →
          Submitting c v (i + 1) (submitUnsealKey c i s).1) ∧
        Submitting c v 0 (submitUnsealKey c i s).1 := by
    intro i s hi hheld hs
    have hsubmitted : submitted c i s = s.machine.submit c ⟨v, i⟩ := by
      rw [submitted, hs.read i hi]
    rw [submitUnsealKey, hsubmitted]
    have hkept := kept_submit c s.machine ⟨v, i⟩
    obtain ⟨haccepted, hunfinished, hk⟩ := submit_own hheld hs.served.1.1.vault i
    have hserved : Served c v { s with machine := (s.machine.submit c ⟨v, i⟩).1 } :=
      ⟨⟨hkept.material hs.served.1.1, hkept.block.trans hs.served.1.2⟩,
        hs.served.2.mono (container_submit c _ _) hkept.vault⟩
    exact ⟨haccepted, Sound.submit hheld _ hunfinished, fun hi => ⟨hserved, hs.read, hk hi⟩,
      hserved, hs.read, hnone _⟩
  constructor
  · intro i hi s hheld ⟨hs, hclear⟩
    obtain ⟨haccepted, -, hnext, -⟩ := hspec hi hheld ⟨hs.served, hs.read, hnone _⟩
    exact ⟨haccepted, hnext hs.submitted, hclear⟩
  · exact fun i s hs => ⟨⟨hs.1.served, hs.1.read, hnone _⟩, hs.2⟩
  · intro i hi s hheld hs
    obtain ⟨-, hsound, -, hleft⟩ := hspec hi hheld hs
    exact ⟨hsound, hleft, fun hfailed => hfailed⟩
  · exact fun s hheld hs => ⟨hheld, ⟨hs.served, hs.read, hs.submitted⟩, rfl⟩

def Open (c : Config) (v : ℕ) (s : Host) : Prop := Served c v s ∧ s.machine.unsealed = true

theorem brings_unsealVault : Brings c (Served c v) (unsealVault c) (Open c v) := by
  have hstart : Brings c (Served c v)
      [.incl (fun s => !s.machine.running)
        [changes fun m => m.start (m.container.any Container.tokenVolume)]] (Served c v) := by
    apply Carries.incl
    · apply Carries.vacuous
      intro s _ ⟨hs, hstopped⟩
      rw [hs.2.running] at hstopped
      cases hstopped
    · exact fun _ _ hs _ => hs
  have hexists : Brings c (Served c v) [gate fun s => s.machine.container.isSome] (Served c v) := by
    apply Carries.gate
    intro s _ ⟨_, x, hx, _⟩
    rw [hx]
    rfl
  have hstatus : Brings c (Served c v) readStatus
      fun s => Served c v s ∧ s.facts.sealed = !s.machine.unsealed :=
    (brings_readStatus (R := fun _ => True)).conseq (fun _ _ hs => ⟨hs, trivial⟩)
      fun _ _ hs => ⟨hs.1.1, hs.2⟩
  have hloop : Brings c (Submitting c v 0)
      (loops loopResults ((List.range c.vaultKeyThreshold).map (submitUnsealKey c)))
      (Submitting c v c.vaultKeyThreshold) :=
    (Carries.loops loops_submitUnsealKey fun s hheld hs =>
      ⟨hheld, ⟨hs.served, hs.read, hs.submitted⟩, rfl⟩).post fun _ _ hs => hs.1
  have hexec : Brings c (Submitting c v 0) [vaultCommand fun _ => true] (Submitting c v 0) :=
    brings_command _ fun s _ hs => ⟨hs.served.2.running, rfl⟩
  have hreread : Brings c (Submitting c v c.vaultKeyThreshold) readStatus
      fun s => (Served c v s ∧ s.machine.unsealed = true) ∧ s.facts.sealed = !s.machine.unsealed :=
    (brings_readStatus (R := fun m => m.unsealed = true)).pre
      fun s hheld hs => ⟨hs.served, Sound.unsealed hheld hs.submitted⟩
  have hassert : Brings c
      (fun s => (Served c v s ∧ s.machine.unsealed = true) ∧ s.facts.sealed = !s.machine.unsealed)
      [gate fun s => !s.facts.sealed] (Open c v) := by
    apply (Carries.gate _).post
    · exact fun _ _ hs => hs.1
    · intro s _ ⟨⟨_, hunsealed⟩, hsealed⟩
      rw [hsealed, hunsealed]
      rfl
  have hsubmit : Brings c (Served c v) (readUnsealKeys c ++ [vaultCommand fun _ => true] ++
      loops loopResults ((List.range c.vaultKeyThreshold).map (submitUnsealKey c)) ++
      readStatus ++ [gate fun s => !s.facts.sealed]) (Open c v) :=
    (((brings_readUnsealKeys.append hexec).append hloop).append hreread).append hassert
  refine ((hexists.cons hstart).append hstatus).append (.incl ?_ ?_)
  · exact hsubmit.pre fun _ _ hs => hs.1.1
  · intro s _ ⟨hs, hsealed⟩ hskip
    refine ⟨hs, ?_⟩
    rw [hskip] at hsealed
    simpa using hsealed.symm

/-! ## The PKI mount -/

theorem Open.authorized {s : Host} (h : Open c v s) :
    s.machine.running = true ∧ s.machine.authorized = true := by
  obtain ⟨⟨hwhole, hserving⟩, hunsealed⟩ := h
  refine ⟨hserving.running, ?_⟩
  obtain ⟨x, hx, -, htoken⟩ := hserving
  rw [Machine.authorized, hunsealed, hx, Option.bind_some, htoken rfl, hwhole.1.vault]
  simp

structure Making (c : Config) (v : ℕ) (mount : Mount) (s : Host) : Prop where
  material : Material c v s.machine
  serving : Serving true s.machine
  unsealed : s.machine.unsealed = true
  mount : s.machine.mount = some mount
  block : s.machine.block = some .createMount

theorem Making.authorized {mount : Mount} {s : Host} (h : Making c v mount s) :
    s.machine.running = true ∧ (s.machine.authorized && s.machine.mount.isSome) = true := by
  obtain ⟨x, hx, hrunning, htoken⟩ := h.serving
  refine ⟨by simp [Machine.running, hx, hrunning], ?_⟩
  rw [Machine.authorized, h.unsealed, hx, Option.bind_some, htoken rfl, h.material.vault, h.mount]
  simp

def Up (c : Config) (v : ℕ) (s : Host) : Prop := Open c v s ∧ s.machine.mount = some (tuned c)

theorem Up.hasCa {s : Host} (h : Up c v s) :
    s.machine.running = true ∧ hasCa s.machine = true := by
  obtain ⟨hrunning, hauthorized⟩ := h.1.authorized
  refine ⟨hrunning, ?_⟩
  rw [Vault.hasCa, hauthorized, h.2]
  rfl

theorem Up.mounted {s : Host} (h : Up c v s) :
    s.machine.running = true ∧ (s.machine.authorized && s.machine.mount.isSome) = true := by
  obtain ⟨hrunning, hauthorized⟩ := h.1.authorized
  refine ⟨hrunning, ?_⟩
  rw [hauthorized, h.2]
  rfl

theorem brings_enableMount :
    Brings c (fun s => Open c v s ∧ s.machine.mount = none) enableMount (Making c v {}) := by
  apply Carries.cons (M := fun s => Open c v s ∧ s.machine.mount = none)
  · apply brings_command
    intro s _ ⟨hopen, hmount⟩
    obtain ⟨hrunning, hauthorized⟩ := hopen.authorized
    exact ⟨hrunning, by rw [hauthorized, hmount]; rfl⟩
  · apply Carries.acts
    intro s r hheld ⟨hopen, hmount⟩
    exact ⟨⟨fun hnone => (nomatch hnone), hheld.token, hheld.unfinished.1, hheld.unfinished.2,
      hheld.unfinished.3⟩, ⟨hopen.1.1.1.vault, hopen.1.1.1.unsealKey, hopen.1.1.1.rootkey⟩,
      hopen.1.2.mono rfl rfl, hopen.2, rfl, rfl⟩

theorem brings_tuneMount :
    Brings c (Making c v {}) (tuneMount c)
      (Making c v { maxLeaseTtlHours := some c.vaultMaxLeaseTtlHours }) := by
  apply (brings_command _ fun s _ hs => Making.authorized hs).cons
  apply Carries.acts
  intro s r hheld hs
  refine ⟨⟨fun hnone => ?_, hheld.token, hheld.unfinished.1, hheld.unfinished.2,
    hheld.unfinished.3⟩, ⟨hs.material.vault, hs.material.unsealKey, hs.material.rootkey⟩,
    hs.serving.mono rfl rfl, hs.unsealed, ?_, hs.block⟩
  · have hopen := hs.block.symm.trans hnone
    cases hopen
  · simp only [hs.mount, Option.map_some]

theorem brings_generateRootCa :
    Brings c (Making c v { maxLeaseTtlHours := some c.vaultMaxLeaseTtlHours })
      generateRootCa (Up c v) := by
  apply (brings_command _ fun s _ hs => Making.authorized hs).cons
  apply Carries.acts
  intro s r hheld hs
  have hmaterial : Material c v { s.machine with
      mount := s.machine.mount.map fun x => { x with rootCa := true }, block := none } :=
    ⟨hs.material.vault, hs.material.unsealKey, hs.material.rootkey⟩
  have hmount : s.machine.mount.map (fun x => { x with rootCa := true }) = some (tuned c) := by
    rw [hs.mount]
    rfl
  exact ⟨⟨fun _ => .inr ⟨v, hmaterial, .inr hmount⟩, hheld.token, hheld.unfinished.1,
    hheld.unfinished.2, hheld.unfinished.3⟩,
    ⟨⟨⟨hmaterial, rfl⟩, hs.serving.mono rfl rfl⟩, hs.unsealed⟩, hmount⟩

theorem brings_pkiDocker : Brings c (Open c v) (pkiDocker c) (Up c v) := by
  have hlist : Brings c (Open c v)
      [registers fun _ s => { s.facts with vaultSecretsList := s.machine.mount.isSome }]
      fun s => Open c v s ∧ s.facts.vaultSecretsList = s.machine.mount.isSome :=
    brings_registers fun _ _ _ hs => ⟨hs, rfl⟩
  have hcreate : Brings c
      (fun s => Open c v s ∧ s.facts.vaultSecretsList = s.machine.mount.isSome)
      [.incl (fun s => !s.facts.vaultSecretsList)
        (enableMount ++ tuneMount c ++ generateRootCa)] (Up c v) := by
    apply Carries.incl
    · apply ((brings_enableMount.append brings_tuneMount).append brings_generateRootCa).pre
      intro s _ ⟨⟨hopen, hlisted⟩, habsent⟩
      refine ⟨hopen, ?_⟩
      rw [hlisted] at habsent
      simpa using habsent
    · intro s hheld ⟨hopen, hlisted⟩ hskip
      refine ⟨hopen, ?_⟩
      rw [hlisted] at hskip
      rcases hheld.settled hopen.1.1.2 with huntouched | ⟨_, _, hnone | htuned⟩
      · simp [huntouched.mount] at hskip
      · simp [hnone] at hskip
      · exact htuned
  have hrole : Brings c (Up c v)
      [vaultCommand fun m => m.authorized && m.mount.isSome, command] (Up c v) :=
    (brings_command _ fun _ _ hs => hs.mounted).cons .command
  have hca : Brings c (Up c v) [vaultCommand hasCa, command] (Up c v) :=
    (brings_command _ fun _ _ hs => hs.hasCa).cons .command
  exact (brings_command _ fun _ _ hs => Open.authorized hs).cons
    (hlist.cons (hcreate.cons ((hrole.append hrole).append hca)))

theorem brings_clientCert : Brings c (Up c v) clientCert (Up c v) := by
  have hca : Brings c (Up c v) [vaultCommand hasCa] (Up c v) :=
    brings_command _ fun _ _ hs => hs.hasCa
  have hissue : Brings c (Up c v)
      [vaultCommand hasCa, command, vaultCommand hasCa, command, command] (Up c v) :=
    hca.cons (.cons .command (hca.cons (.cons .command .command)))
  have hneeded : Brings c (Up c v)
      [registers fun r s => { s.facts with vaultClientCertNeeded := r.needed }] (Up c v) :=
    brings_registers fun _ _ _ hs => hs
  exact hneeded.cons (.incl (hissue.pre fun _ _ hs => hs.1) fun _ _ hs _ => hs)

/-! ## A run and all runs -/

theorem brings_main :
    Brings c (fun s => s.machine.block = none) (main c)
      fun s => (∃ v, Up c v s) ∧ s.facts.completed = true := by
  have hstat : Brings c (fun s => s.machine.block = none)
      [registers fun _ s => { s.facts with
        vaultInitialized := (s.machine.unsealKey 0).isSome }]
      fun s => s.machine.block = none ∧
        s.facts.vaultInitialized = (s.machine.unsealKey 0).isSome :=
    brings_registers fun _ _ _ hs => ⟨hs, rfl⟩
  have hinit : Brings c
      (fun s => s.machine.block = none ∧
        s.facts.vaultInitialized = (s.machine.unsealKey 0).isSome)
      [.incl (fun s => !s.facts.vaultInitialized) (initializeVault c)]
      fun s => ∃ v, Whole c v s := by
    apply Carries.incl
    · apply brings_initializeVault.pre
      intro s hheld ⟨⟨hblock, hstat⟩, habsent⟩
      apply hheld.blank hblock
      rw [hstat] at habsent
      simpa using habsent
    · intro s hheld ⟨hblock, hstat⟩ hskip
      apply hheld.whole hblock
      rw [hstat] at hskip
      simpa using hskip
  have hup : ∀ v, Brings c (Whole c v)
      ([dockerContainer true, .incl (fun _ => c.vaultManageRootAlias) [command]] ++
        (unsealVault c ++ (pkiDocker c ++ clientCert))) (Up c v) := by
    intro v
    have halias : Brings c (Served c v) [.incl (fun _ => c.vaultManageRootAlias) [command]]
        (Served c v) :=
      .incl (Carries.command.pre fun _ _ hs => hs.1) fun _ _ hs _ => hs
    exact (brings_container.cons halias).append
      (brings_unsealVault.append (brings_pkiDocker.append brings_clientCert))
  have hdone : Brings c (fun s => ∃ v, Up c v s)
      [notes fun _ s => { s with facts := { s.facts with completed := true } }]
      fun s => (∃ v, Up c v s) ∧ s.facts.completed = true :=
    Carries.notes fun _ _ hheld hs => ⟨hheld, hs, rfl⟩
  have hall := (Carries.command.cons (.cons .command (hstat.cons hinit))).append
    ((Carries.some_of fun v => (hup v).post fun _ _ hs => ⟨v, hs⟩).append hdone)
  simpa only [main, List.append_assoc, List.cons_append, List.nil_append] using hall

theorem sound_meanwhile (e : Meanwhile) {m : Machine} (h : Sound c m) (hblock : m.block = none) :
    Sound c (e.apply m) ∧ (e.apply m).block = none := by
  cases e with
  | nothing => exact ⟨h, hblock⟩
  | stopped => exact ⟨h.stop, hblock⟩
  | removed => exact ⟨h.remove, hblock⟩
  | restarted =>
    rw [Meanwhile.apply]
    split
    · exact ⟨h.start (h.mountable hblock), hblock⟩
    · exact ⟨h, hblock⟩

theorem sound_fresh (c : Config) : Sound c {} where
  settled _ := .inl ⟨rfl, fun _ => rfl, rfl, rfl⟩
  token _ hx := (nomatch hx)
  unfinished := .of_nil rfl

def after (c : Config) (moves : List (Move Reply Meanwhile Empty)) : World Host Reply :=
  (system c).run moves ⟨{}, []⟩

def Unbroken (c : Config) (moves : List (Move Reply Meanwhile Empty)) : Prop :=
  ∀ n, (after c (moves.take n)).stack = [] → (after c (moves.take n)).state.machine.block = none

theorem after_held {moves : List (Move Reply Meanwhile Empty)} (h : Unbroken c moves) :
    Held c (after c moves).state := by
  have hfresh : System.Good (Contract.alone (Held c) (fun _ _ => True) fun _ => trivial)
      (⟨{}, []⟩ : World Host Reply) :=
    ⟨sound_fresh c, safe_nil _⟩
  have hboot : ∀ (e : Meanwhile) (s : Host), Held c s → s.machine.block = none →
      Held c ((system c).boot e s) ∧
        Safe (Contract.alone (Held c) (fun _ _ => True) fun _ => trivial)
          ((system c).boot e s) [⟨main c, none⟩] := by
    intro e s hheld hblock
    obtain ⟨hsound, hnone⟩ := sound_meanwhile e hheld hblock
    exact ⟨hsound, brings_main.safe hnone⟩
  exact (@System.good_run_of_ready _ _ _ _ (system c) _ _ (fun s => s.machine.block = none) hboot
    (fun e => e.elim) hfresh moves h).1

/-- Where no run ended inside a block, the first unseal key comes with all the
secrets, and a run whose commands succeed brings the vault up. -/
theorem bring_up_resumes (c : Config) (moves : List (Move Reply Meanwhile Empty))
    (hunbroken : Unbroken c moves) (hidle : (after c moves).stack = []) :
    (((after c moves).state.machine.unsealKey 0).isSome = true →
      ∃ v, Material c v (after c moves).state.machine) ∧
    ∀ (e : Meanwhile) (answers : ℕ → Reply), (∀ i, (answers i).outcome = .ok) →
      ∃ n s, after c (moves ++ .start e :: System.ticks answers n) = ⟨s, []⟩ ∧
        s.facts.completed = true ∧
        ∃ v, Material c v s.machine ∧ s.machine.unsealed = true ∧
          s.machine.mount = some (tuned c) := by
  have hheld := after_held hunbroken
  have hblock : (after c moves).state.machine.block = none := by
    have hlast := hunbroken moves.length
    rw [List.take_length] at hlast
    exact hlast hidle
  refine ⟨fun hkey => ?_, fun e answers hok => ?_⟩
  · obtain ⟨v, hwhole⟩ := hheld.whole hblock hkey
    exact ⟨v, hwhole.1⟩
  · obtain ⟨hsound, hnone⟩ := sound_meanwhile e hheld hblock
    have hends := brings_main.ends (s := (system c).boot e (after c moves).state) hsound hnone
    obtain ⟨n, s, hrun, -, ⟨v, hup⟩, hcompleted⟩ := System.ends_run (S := system c) hends hok
    refine ⟨n, s, ?_, hcompleted, v, hup.1.1.1.1, hup.1.2, hup.2⟩
    rw [after, System.run_append]
    rw [after] at hidle hrun
    generalize (system c).run moves ⟨{}, []⟩ = w at hidle hrun ⊢
    obtain ⟨s₀, stack⟩ := w
    obtain rfl : stack = [] := hidle
    exact hrun

theorem unbroken_of_lt {moves : List (Move Reply Meanwhile Empty)}
    (h : ∀ n < moves.length + 1, (after c (moves.take n)).stack = [] →
      (after c (moves.take n)).state.machine.block = none) : Unbroken c moves := by
  intro n
  by_cases hn : n < moves.length + 1
  · exact h n hn
  · have hlast := h moves.length (by omega)
    rw [List.take_length] at hlast
    rwa [List.take_of_length_le (by omega)]

def succeeding (_ : ℕ) : Reply := {}

def cutAt (k : ℕ) : List (Move Reply Meanwhile Empty) :=
  .start .nothing :: System.ticks succeeding k ++ [.interrupt]

/-- A cut when two of the three shares have been submitted. -/
theorem bring_up_resumes_half_unsealed :
    ∃ n s, after {} (cutAt 30 ++ .start .restarted :: System.ticks succeeding n) = ⟨s, []⟩ ∧
      s.facts.completed = true ∧
      ∃ v, Material {} v s.machine ∧ s.machine.unsealed = true ∧
        s.machine.mount = some (tuned {}) :=
  (bring_up_resumes {} (cutAt 30) (unbroken_of_lt (by decide)) (by decide)).2
    .restarted succeeding fun _ => rfl

/-- The cuts are after `operator init`, after the first unseal key, before the
root token and after the mount was enabled. -/
theorem cut_blocks_stay :
    (∀ k ∈ [8, 10, 15, 40],
      let again := after {} (cutAt k ++ .start .nothing :: System.ticks succeeding 60)
      again.stack = [] ∧ again.state.facts.completed = false) ∧
    let left := (after {} (cutAt 10)).state.machine
    (left.unsealKey 0).isSome = true ∧ left.unsealKey 1 = none ∧ left.rootkey = none := by
  decide +kernel

end Provisioner.Vault
