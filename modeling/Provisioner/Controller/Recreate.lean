import Provisioner.Controller.Portal
import Provisioner.Library.Progress

/-!
# No recreate is lost

The handler that creates the portal anew is only notified by a task that
reports a change in the same run. As long as no run ends between a change and
the end of the portal it is waiting for, a run that completes leaves a portal
that was created after the last change.
-/

namespace Provisioner.Controller.Portal

open Play Portal.Cstacks Tasks

def Newer (m : Machine) (c : Container) : Prop := ∀ t, m.lastChange = some t → t < c.created

def Settled (m : Machine) : Prop :=
  ∀ c, m.container = some c → c.running = true → Newer m c

def Fresh (m : Machine) : Prop :=
  ∃ c, m.container = some c ∧ c.running = true ∧ Newer m c

theorem Fresh.settled {m : Machine} (h : Fresh m) : Settled m := by
  obtain ⟨c, hc, -, hnewer⟩ := h
  intro k hk _
  cases hc.symm.trans hk
  exact hnewer

/-- The count of changes and creations, and what it says about the portal. -/
structure Sound (m : Machine) : Prop where
  past : ∀ t, m.lastChange = some t → t < m.now
  made : ∀ c, m.container = some c → c.created < m.now
  issued : m.recorded ≤ m.certificate
  read : ∀ c, m.container = some c → 0 < c.created → c.certificate ≤ m.certificate
  carries : ∀ c, m.container = some c → 0 < c.created → Newer m c →
    m.envFile = some c.envFile ∧ m.script = some c.script ∧ m.recorded ≤ c.certificate

theorem Sound.changed {m m' : Machine} (h : Sound m) {c : Bool}
    (hsame : c = false → m' = m) (hcontainer : m'.container = m.container)
    (hcertificate : m'.certificate = m.certificate) (hrecorded : m'.recorded ≤ m'.certificate)
    (hnow : m'.now = m.now) : Sound (m'.changed c) := by
  cases c with
  | false =>
    rw [hsame rfl]
    exact h
  | true =>
    have hmade : ∀ k, m'.container = some k → k.created < m'.now := by
      intro k hk
      rw [hcontainer] at hk
      rw [hnow]
      exact h.made k hk
    constructor
    · intro t ht
      cases ht
      exact Nat.lt_succ_self _
    · intro k hk
      exact Nat.lt_succ_of_lt (hmade k hk)
    · exact hrecorded
    · intro k hk hpos
      have hold := h.read k (hcontainer.symm.trans hk) hpos
      rw [← hcertificate] at hold
      exact hold
    · intro k hk _ hnewer
      have hlt : m'.now < k.created := hnewer m'.now rfl
      have hgt := hmade k hk
      omega

/-! ## Assertions of a run -/

def Recorded (e : Entry) (m : Machine) : Prop := e = .main → m.recorded = m.certificate

/-- A completed run leaves a portal newer than every change. -/
structure Held (s : Host) : Prop where
  sound : Sound s.machine
  completed : ∀ e, s.facts.completed = some e → Fresh s.machine ∧ Recorded e s.machine

def During (P : Host → Prop) (s : Host) : Prop := s.facts.completed = none ∧ P s

abbrev Steps (P : Host → Prop) (items : List Item) (Q : Host → Prop) : Prop :=
  Leads Held (fun _ _ => True) (fun _ => trivial) (During P) items (During Q)

theorem Held.of_sound {s : Host} (h : Sound s.machine) (hgoing : s.facts.completed = none) :
    Held s where
  sound := h
  completed e he := by
    rw [hgoing] at he
    cases he

variable {P Q : Host → Prop}

theorem steps_acts {f : Reply → Host → Host}
    (hgoing : ∀ r s, (f r s).facts.completed = s.facts.completed)
    (h : ∀ s r, Sound s.machine → P s → Sound (f r s).machine ∧ Q (f r s)) :
    Steps P [acts f] Q := by
  apply leads_acts
  rintro s r hheld ⟨hnone, hs⟩
  obtain ⟨hsound, hQ⟩ := h s r hheld.sound hs
  have hnone' : (f r s).facts.completed = none := (hgoing r s).trans hnone
  exact ⟨.of_sound hsound hnone', trivial, hnone', hQ⟩

theorem steps_observes {f : Reply → Host → Facts}
    (hgoing : ∀ r s, (f r s).completed = s.facts.completed)
    (h : ∀ s r, P s → Q { s with facts := f r s }) :
    Steps P [observes fun r s => { s with facts := f r s }] Q := by
  apply leads_observes
  rintro s r hheld ⟨hnone, hs⟩
  have hnone' : (f r s).completed = none := (hgoing r s).trans hnone
  exact ⟨.of_sound hheld.sound hnone', trivial, hnone', h s r hs⟩

theorem steps_notes {f : Reply → Host → Facts}
    (hgoing : ∀ r s, (f r s).completed = s.facts.completed)
    (h : ∀ s r, P s → Q { s with facts := f r s }) :
    Steps P [notes fun r s => { s with facts := f r s }] Q := by
  apply leads_notes
  rintro s r hheld ⟨hnone, hs⟩
  have hnone' : (f r s).completed = none := (hgoing r s).trans hnone
  exact ⟨.of_sound hheld.sound hnone', trivial, hnone', h s r hs⟩

theorem steps_gate {c : Host → Bool} (h : ∀ s, P s → c s = true → Q s) :
    Steps P [gate c] Q :=
  leads_gate fun s _ hs hc => ⟨hs.1, h s hs.2 hc⟩

theorem steps_incl {c : Host → Bool} {items : List Item}
    (h : Steps (fun s => P s ∧ c s = true) items Q)
    (hskip : ∀ s, Sound s.machine → P s → c s = false → Q s) : Steps P [.incl c items] Q := by
  apply Triple.incl
  · exact h.pre fun _ _ hs => ⟨hs.1.1, hs.1.2, hs.2⟩
  · exact fun s hheld hs hc => ⟨hs.1, hskip s hheld.sound hs.2 hc⟩

theorem steps_pre {P' : Host → Prop} {items : List Item} (h : Steps P items Q)
    (hP : ∀ s, P' s → P s) : Steps P' items Q :=
  h.pre fun s _ hs => ⟨hs.1, hP s hs.2⟩

theorem steps_post {Q' : Host → Prop} {items : List Item} (h : Steps P items Q)
    (hQ : ∀ s, Q s → Q' s) : Steps P items Q' :=
  h.post fun s _ hs => ⟨hs.1, hQ s hs.2⟩

/-! ## The commands of `cstacks` -/

variable (e : Entry)

structure Sourced (s : Host) : Prop where
  recorded : Recorded e s.machine
  envFile : s.machine.envFile = some s.facts.sourced
  script : s.machine.script.isSome = true

theorem steps_source : Steps (fun s => Recorded e s.machine) source (Sourced e) := by
  have hgate : Steps (fun s => Recorded e s.machine)
      [gate fun s => s.machine.script.isSome && s.machine.envFile.isSome]
      (fun s => Recorded e s.machine ∧ s.machine.script.isSome = true ∧
        s.machine.envFile.isSome = true) := by
    apply steps_gate
    intro s hs hopen
    rw [Bool.and_eq_true] at hopen
    exact ⟨hs, hopen⟩
  refine hgate.cons (steps_observes (fun _ _ => rfl) ?_)
  rintro s _ ⟨hrecorded, hscript, henv⟩
  obtain ⟨file, hfile⟩ := Option.isSome_iff_exists.mp henv
  refine ⟨hrecorded, ?_, hscript⟩
  simp [hfile]

theorem Sound.stopped {m : Machine} (h : Sound m) :
    Sound { m with container := m.container.map fun c => { c with running := false } } := by
  constructor
  · exact h.past
  · intro c hc
    obtain ⟨k, hk, rfl⟩ := Option.map_eq_some_iff.mp hc
    exact h.made k hk
  · exact h.issued
  · intro c hc
    obtain ⟨k, hk, rfl⟩ := Option.map_eq_some_iff.mp hc
    exact h.read k hk
  · intro c hc
    obtain ⟨k, hk, rfl⟩ := Option.map_eq_some_iff.mp hc
    exact h.carries k hk

theorem Sound.removed {m : Machine} (h : Sound m) : Sound { m with container := none } := by
  constructor
  · exact h.past
  · intro c hc
    cases hc
  · exact h.issued
  · intro c hc
    cases hc
  · intro c hc
    cases hc

theorem steps_removeContainer : Steps (Sourced e) removeContainer (Sourced e) := by
  have hexists : Steps (Sourced e) [containerExists] (Sourced e) :=
    steps_notes (fun _ _ => rfl) fun _ _ hs => ⟨hs.recorded, hs.envFile, hs.script⟩
  have hstop : Steps (Sourced e) [dockerStop] (Sourced e) :=
    steps_acts (fun _ _ => rfl) fun _ _ hsound hs =>
      ⟨hsound.stopped, hs.recorded, hs.envFile, hs.script⟩
  have hrm : Steps (Sourced e) [dockerRm] (Sourced e) :=
    steps_acts (fun _ _ => rfl) fun _ _ hsound hs =>
      ⟨hsound.removed, hs.recorded, hs.envFile, hs.script⟩
  refine hexists.cons (steps_incl ?_ fun _ _ hs _ => hs)
  exact steps_pre (hstop.cons hrm) fun _ hs => hs.1

theorem Sound.created {s : Host} (h : Sound s.machine) (hs : Sourced e s) (running : Bool) :
    Sound (Cstacks.created running s) := by
  constructor
  · intro t ht
    exact Nat.lt_succ_of_lt (h.past t ht)
  · intro c hc
    cases hc
    exact Nat.lt_succ_self _
  · exact h.issued
  · intro c hc _
    cases hc
    exact le_rfl
  · intro c hc _ _
    cases hc
    obtain ⟨script, hscript⟩ := Option.isSome_iff_exists.mp hs.script
    refine ⟨hs.envFile, ?_, h.issued⟩
    simp [Cstacks.created, hscript]

theorem steps_dockerRun :
    Steps (Sourced e) dockerRun (fun s => Recorded e s.machine ∧ Fresh s.machine) := by
  refine (steps_gate fun s hs _ => hs).cons ?_
  apply leads_tries
  · rintro s r hheld ⟨hnone, hs⟩
    refine ⟨.of_sound (hheld.sound.created e hs true) hnone, trivial, hnone, hs.recorded, ?_⟩
    exact ⟨_, rfl, rfl, fun t ht => hheld.sound.past t ht⟩
  · rintro s r hheld ⟨hnone, hs⟩
    exact ⟨.of_sound (hheld.sound.created e hs r.started) hnone, trivial⟩

theorem steps_runPortal :
    Steps (Sourced e) runPortal (fun s => Recorded e s.machine ∧ Fresh s.machine) :=
  (steps_removeContainer e).append (steps_dockerRun e)

theorem steps_run : Steps (fun s => Recorded e s.machine) Cstacks.run
    (fun s => Recorded e s.machine ∧ Fresh s.machine) :=
  (steps_source e).append (steps_runPortal e)

theorem steps_upgrade : Steps (fun s => Recorded e s.machine) Cstacks.upgrade
    (fun s => Recorded e s.machine ∧ Fresh s.machine) := by
  have hcommands : Steps (Sourced e) [command, command, command] (Sourced e) :=
    leads_command.cons (leads_command.cons leads_command)
  exact ((((steps_source e).append hcommands).append (steps_removeContainer e)).append
    leads_command).append (steps_runPortal e)

/-! ## A run up to its flush -/

/-- Of a machine this is known, and a change waits only if it has notified. -/
structure Pending (K : Machine → Prop) (s : Host) : Prop where
  known : K s.machine
  waits : s.facts.notified = true ∨ Settled s.machine

def Up (m : Machine) : Prop := m.container.any Container.running = true

theorem up_iff {m : Machine} : Up m ↔ ∃ c, m.container = some c ∧ c.running = true := by
  rw [Up]
  cases m.container with
  | none => simp
  | some c => simp

theorem Settled.fresh {m : Machine} (h : Settled m) (hup : Up m) : Fresh m := by
  obtain ⟨c, hc, hrunning⟩ := up_iff.mp hup
  exact ⟨c, hc, hrunning, h c hc hrunning⟩

@[simp] theorem container_changed (m : Machine) (c : Bool) :
    (m.changed c).container = m.container := by
  cases c <;> rfl

@[simp] theorem certificate_changed (m : Machine) (c : Bool) :
    (m.changed c).certificate = m.certificate := by
  cases c <;> rfl

@[simp] theorem recorded_changed (m : Machine) (c : Bool) :
    (m.changed c).recorded = m.recorded := by
  cases c <;> rfl

/-- A task with the handler writes no file if it reports no change, and leaves
the portal alone. -/
structure Update (P : Host → Prop) (changes : Reply → Host → Bool) (update : Host → Machine) :
    Prop where
  same : ∀ r s, changes r s = false → update s = s.machine
  container : ∀ s, (update s).container = s.machine.container
  certificate : ∀ s, (update s).certificate = s.machine.certificate
  now : ∀ s, (update s).now = s.machine.now
  recorded : ∀ s, Sound s.machine → P s → (update s).recorded ≤ s.machine.certificate

theorem steps_notifies {K K' : Machine → Prop} {changes : Reply → Host → Bool}
    {update : Host → Machine} (hupdate : Update P changes update)
    (hP : ∀ s, P s → Pending K s)
    (hknown : ∀ r s, P s → K' ((update s).changed (changes r s))) :
    Steps P [notifies changes update] (Pending K') := by
  refine steps_acts (fun _ _ => rfl) fun s r hsound hs => ⟨?_, hknown r s hs, ?_⟩
  · apply hsound.changed
    · exact hupdate.same r s
    · exact hupdate.container s
    · exact hupdate.certificate s
    · rw [hupdate.certificate s]
      exact hupdate.recorded s hsound hs
    · exact hupdate.now s
  · cases hchanges : changes r s with
    | true => exact .inl (Bool.or_true _)
    | false =>
      rcases (hP s hs).waits with hnotified | hsettled
      · left
        simp only [hnotified, Bool.true_or]
      · right
        rw [hupdate.same r s hchanges]
        exact hsettled

def Framed (K : Machine → Prop) : Prop :=
  ∀ m m' : Machine, m'.container = m.container → m'.certificate = m.certificate →
    m'.recorded = m.recorded → K m → K m'

theorem framed_up : Framed Up := by
  intro m m' hcontainer _ _ hup
  rwa [Up, hcontainer]

theorem framed_true : Framed fun _ => True := fun _ _ _ _ _ _ => trivial

variable {K : Machine → Prop}

theorem steps_file {changes : Reply → Host → Bool} {update : Host → Machine}
    (hsame : ∀ r s, changes r s = false → update s = s.machine)
    (hcontainer : ∀ s, (update s).container = s.machine.container)
    (hcertificate : ∀ s, (update s).certificate = s.machine.certificate)
    (hrecorded : ∀ s, (update s).recorded = s.machine.recorded)
    (hnow : ∀ s, (update s).now = s.machine.now) (hframed : Framed K) :
    Steps (Pending K) [notifies changes update] (Pending K) := by
  refine steps_notifies (K := K) ?_ (fun _ hs => hs) fun r s hs => ?_
  · refine ⟨hsame, hcontainer, hcertificate, hnow, fun s hsound _ => ?_⟩
    rw [hrecorded s]
    exact hsound.issued
  · apply hframed s.machine _ _ _ _ hs.known
    · rw [container_changed, hcontainer]
    · rw [certificate_changed, hcertificate]
    · rw [recorded_changed, hrecorded]

theorem steps_installCli (hframed : Framed K) :
    Steps (Pending K) [installCli] (Pending K) := by
  refine steps_file (fun r s hsame => ?_) (fun _ => rfl) (fun _ => rfl) (fun _ => rfl)
    (fun _ => rfl) hframed
  simp only [Bool.or_eq_false_iff, decide_eq_false_iff_not, ne_eq, not_not] at hsame
  rw [← hsame.2]

theorem steps_renderEnvFile (hframed : Framed K) :
    Steps (Pending K) [renderEnvFile] (Pending K) := by
  refine steps_file (fun r s hsame => ?_) (fun _ => rfl) (fun _ => rfl) (fun _ => rfl)
    (fun _ => rfl) hframed
  simp only [Bool.or_eq_false_iff, decide_eq_false_iff_not, ne_eq, not_not] at hsame
  rw [← hsame.2]

theorem steps_appendKey (hframed : Framed K) (key : Text) (value : Vars → Text) :
    Steps (Pending K) [appendKey key value] (Pending K) := by
  refine steps_incl (steps_pre ?_ fun _ hs => hs.1) fun _ _ hs _ => hs
  refine steps_file (fun r s hsame => ?_) (fun _ => rfl) (fun _ => rfl) (fun _ => rfl)
    (fun _ => rfl) hframed
  simp only [Bool.or_eq_false_iff, decide_eq_false_iff_not, ne_eq, not_not] at hsame
  rw [← hsame.2]

/-- The certificate that the run has looked at is still the one on disk. -/
structure Looked (s : Host) : Prop extends Pending (fun _ => True) s where
  dockerCert : s.facts.dockerCert = s.machine.certificate

theorem steps_recordFingerprint :
    Steps Looked [recordFingerprint] (Pending (Recorded .main)) := by
  apply steps_incl
  · apply steps_pre _ fun s (hs : Looked s ∧ _) => hs.1
    apply steps_notifies (K := fun _ => True)
    · constructor
      · intro r s hsame
        simp only [Bool.or_eq_false_iff, decide_eq_false_iff_not, ne_eq, not_not] at hsame
        rw [← hsame.2]
      · exact fun _ => rfl
      · exact fun _ => rfl
      · exact fun _ => rfl
      · exact fun _ _ hs => hs.dockerCert.le
    · exact fun _ hs => hs.toPending
    · intro r s hs _
      rw [recorded_changed, certificate_changed]
      exact hs.dockerCert
  · intro s hsound hs hnone
    refine ⟨fun _ => ?_, hs.waits⟩
    have hzero : s.machine.certificate = 0 := by
      rw [← hs.dockerCert]
      simpa using hnone
    have hissued := hsound.issued
    omega

theorem steps_facts {f : Reply → Host → Facts}
    (hgoing : ∀ r s, (f r s).completed = s.facts.completed)
    (hnotified : ∀ r s, (f r s).notified = s.facts.notified) :
    Steps (Pending K) [notes fun r s => { s with facts := f r s }] (Pending K) := by
  apply steps_notes hgoing
  intro s r hs
  refine ⟨hs.known, ?_⟩
  rw [hnotified]
  exact hs.waits

theorem steps_read {f : Reply → Host → Facts}
    (hgoing : ∀ r s, (f r s).completed = s.facts.completed)
    (hnotified : ∀ r s, (f r s).notified = s.facts.notified) :
    Steps (Pending K) [observes fun r s => { s with facts := f r s }] (Pending K) := by
  apply steps_observes hgoing
  intro s r hs
  refine ⟨hs.known, ?_⟩
  rw [hnotified]
  exact hs.waits

theorem Sound.provisioned {m : Machine} (h : Sound m) : Sound { m with sentinel := true } :=
  ⟨h.past, h.made, h.issued, h.read, h.carries⟩

theorem steps_bootstrapDb (hframed : Framed K) :
    Steps (Pending K) Cstacks.bootstrapDb (Pending K) := by
  have hgate : ∀ c : Host → Bool, Steps (Pending K) [gate c] (Pending K) :=
    fun c => steps_gate fun _ hs _ => hs
  have hsource : Steps (Pending K) source (Pending K) :=
    (hgate _).cons (steps_read (fun _ _ => rfl) fun _ _ => rfl)
  have hexists : Steps (Pending K) [containerExists] (Pending K) :=
    steps_facts (fun _ _ => rfl) fun _ _ => rfl
  have hsentinel : Steps (Pending K)
      [acts fun _ s => { s with machine := { s.machine with sentinel := true } }] (Pending K) := by
    refine steps_acts (fun _ _ => rfl) fun s _ hsound hs => ⟨hsound.provisioned, ?_, hs.waits⟩
    exact hframed s.machine _ rfl rfl rfl hs.known
  exact hsource.append ((hgate _).cons (hexists.cons ((hgate _).cons (leads_command.cons
    (leads_command.cons (leads_command.cons hsentinel))))))

/-! ## The flush and the rest of a run -/

theorem steps_flush (hK : ∀ m, K m → Recorded e m) :
    Steps (Pending K) [flushHandlers] (fun s => Recorded e s.machine ∧ Settled s.machine ∧
      (K s.machine ∨ Fresh s.machine)) := by
  apply steps_incl
  · have hrun : Steps (fun s => Pending K s ∧ s.facts.notified = true) Cstacks.run
        (fun s => Recorded e s.machine ∧ Fresh s.machine) :=
      steps_pre (steps_run e) fun s hs => hK _ hs.1.known
    refine hrun.append (steps_notes (fun _ _ => rfl) fun s _ hs => ?_)
    exact ⟨hs.1, hs.2.settled, .inr hs.2⟩
  · intro s _ hs hnone
    refine ⟨hK _ hs.known, ?_, .inl hs.known⟩
    rcases hs.waits with hnotified | hsettled
    · rw [hnone] at hnotified
      cases hnotified
    · exact hsettled

theorem leads_finish (e : Entry) : Leads Held (fun _ _ => True) (fun _ => trivial)
    (During fun s => Recorded e s.machine ∧ Fresh s.machine) [finish e] fun _ => True := by
  apply leads_notes
  rintro s r hheld ⟨-, hrecorded, hfresh⟩
  refine ⟨⟨hheld.sound, fun e' he' => ?_⟩, trivial, trivial⟩
  cases he'
  exact ⟨hfresh, hrecorded⟩

/-! ## The two ways in -/

theorem runs_main : Leads Held (fun _ _ => True) (fun _ => trivial)
    (During (Pending fun _ => True)) main fun _ => True := by
  let Early := Pending fun _ => True
  let Late := Pending (Recorded .main)
  have hgate : Steps Early [gate fun s => !s.facts.vars.existingEnv] Early :=
    steps_gate fun _ hs _ => hs
  have hstat : Steps Early [statDockerCert] Looked :=
    steps_observes (fun _ _ => rfl) fun s _ hs => ⟨⟨hs.known, hs.waits⟩, rfl⟩
  have hframed : Framed (Recorded .main) := by
    intro m m' _ hcertificate hrecorded hknown hmain
    rw [hcertificate, hrecorded]
    exact hknown hmain
  have hbootstrap : Steps Late [.incl (fun s => !s.machine.sentinel) bootstrapDb] Late :=
    steps_incl (steps_pre (steps_bootstrapDb hframed) fun _ hs => hs.1) fun _ _ hs _ => hs
  have hread : Steps Late [readRunningImage] Late :=
    steps_facts (fun _ _ => rfl) fun _ _ => rfl
  have hupgrade : Steps Late [.incl upgradeDue upgrade] Late := by
    refine steps_incl (steps_post (steps_pre (steps_upgrade .main) fun _ hs => hs.1.known) ?_)
      fun _ _ hs _ => hs
    exact fun _ hs => ⟨hs.1, .inr hs.2.settled⟩
  have hflush := steps_flush .main fun _ (h : Recorded .main _) => h
  have hstate : Steps (fun s => Recorded .main s.machine ∧ Settled s.machine ∧
        (Recorded .main s.machine ∨ Fresh s.machine)) [readPortalState]
      (fun s => Recorded .main s.machine ∧ (s.facts.portalRunning = true → Fresh s.machine)) := by
    refine steps_notes (fun _ _ => rfl) fun s r hs => ⟨hs.1, fun hrunning => hs.2.1.fresh ?_⟩
    rw [Bool.and_eq_true] at hrunning
    exact hrunning.2
  have hstart : Steps (fun s => Recorded .main s.machine ∧
        (s.facts.portalRunning = true → Fresh s.machine))
      [.incl (fun s => !s.facts.portalRunning) Cstacks.run]
      (fun s => Recorded .main s.machine ∧ Fresh s.machine) := by
    refine steps_incl (steps_pre (steps_run .main) fun _ hs => hs.1.1) fun s _ hs hskip => ?_
    exact ⟨hs.1, hs.2 (by simpa using hskip)⟩
  exact hgate.cons (leads_command.cons ((steps_installCli framed_true).cons
    (leads_command.cons ((steps_renderEnvFile framed_true).cons (leads_command.cons
      (hstat.cons (steps_recordFingerprint.cons (hbootstrap.cons (hread.cons (hupgrade.cons
        (hflush.cons (hstate.cons (hstart.cons (leads_command.cons
          (leads_finish .main)))))))))))))))

theorem runs_attachPrep : Leads Held (fun _ _ => True) (fun _ => trivial)
    (During (Pending fun _ => True)) attachPrep fun _ => True := by
  let Early := Pending fun _ => True
  let Late := Pending Up
  have hgate : ∀ c : Host → Bool, Steps Early [gate c] Early :=
    fun c => steps_gate fun _ hs _ => hs
  have hread : Steps Early [observes fun _ s => { s with facts := { s.facts with
      envLines := (s.machine.envFile.map EnvFile.lines).getD [] } }] Early :=
    steps_read (fun _ _ => rfl) fun _ _ => rfl
  have hstate : Steps Early [observes fun _ s => { s with facts := { s.facts with
        portalRunning := s.machine.container.any Container.running } }]
      (fun s => Early s ∧ (s.facts.portalRunning = true → Up s.machine)) :=
    steps_observes (fun _ _ => rfl) fun s _ hs => ⟨⟨hs.known, hs.waits⟩, fun hup => hup⟩
  have hup : Steps (fun s => Early s ∧ (s.facts.portalRunning = true → Up s.machine))
      [gate fun s => s.facts.portalRunning] Late :=
    steps_gate fun _ hs hrunning => ⟨hs.2 hrunning, hs.1.waits⟩
  have hfresh : Steps Late [flushHandlers]
      (fun s => Recorded .attachPrep s.machine ∧ Fresh s.machine) := by
    have hrecorded : ∀ m, Up m → Recorded .attachPrep m := by
      intro _ _ hmain
      cases hmain
    refine steps_post (steps_flush .attachPrep hrecorded) ?_
    rintro s ⟨hrecorded, hsettled, hup | hfresh⟩
    · exact ⟨hrecorded, hsettled.fresh hup⟩
    · exact ⟨hrecorded, hfresh⟩
  exact (hgate _).cons (hread.cons (leads_command.cons ((hgate _).cons (hstate.cons (hup.cons
    (leads_command.cons (leads_command.cons ((steps_appendKey framed_up _ _).cons
      ((steps_appendKey framed_up _ _).cons ((steps_installCli framed_up).cons
        (leads_command.cons (hfresh.cons (leads_finish .attachPrep)))))))))))))

/-! ## All runs -/

/-- A controller before any run; what it was created from is not known. -/
structure Origin where
  envFile : Option EnvFile := none
  script : Option Text := none
  sentinel : Bool := false
  certificate : ℕ := 0
  recorded : ℕ := 0
  issued : recorded ≤ certificate := by decide
  portal : Option (EnvFile × Text × ℕ × Bool) := none

def Origin.machine (origin : Origin) : Machine where
  envFile := origin.envFile
  script := origin.script
  sentinel := origin.sentinel
  certificate := origin.certificate
  recorded := origin.recorded
  container := origin.portal.map fun (envFile, script, certificate, running) =>
    { envFile, script, certificate, running, created := 0 }

theorem Origin.sound (origin : Origin) : Sound origin.machine := by
  have hold : ∀ c, origin.machine.container = some c → c.created = 0 := by
    intro c hc
    obtain ⟨⟨_, _, _, _⟩, -, rfl⟩ := Option.map_eq_some_iff.mp hc
    rfl
  constructor
  · intro t ht
    cases ht
  · intro c hc
    rw [hold c hc]
    exact Nat.one_pos
  · exact origin.issued
  · intro c hc hpos
    rw [hold c hc] at hpos
    exact absurd hpos (Nat.lt_irrefl 0)
  · intro c hc hpos
    rw [hold c hc] at hpos
    exact absurd hpos (Nat.lt_irrefl 0)

abbrev Move := Play.Move Reply Vars Empty

def world (origin : Origin) (moves : List Move) : World Host Reply :=
  Tasks.system.run moves ⟨{ machine := origin.machine }, []⟩

/-- Whenever a run has ended before it was complete, no portal is up that is
older than a change. -/
def Uncut (origin : Origin) (moves : List Move) : Prop :=
  ∀ n ≤ moves.length, (world origin (moves.take n)).stack = [] →
    (world origin (moves.take n)).state.facts.completed = none →
      Settled (world origin (moves.take n)).state.machine

theorem boot_keeps (vars : Vars) {s : Host} (hheld : Held s) (hsettled : Settled s.machine) :
    Held (boot vars s) ∧
      Safe (Contract.alone Held (fun _ _ => True) fun _ => trivial) (boot vars s)
        [⟨Tasks.system.play vars, none⟩] := by
  have hsound : Sound (boot vars s).machine := by
    have hle : s.machine.certificate ≤ (boot vars s).machine.certificate := by
      simp only [boot]
      split <;> omega
    refine ⟨hheld.sound.past, hheld.sound.made, hheld.sound.issued.trans hle, ?_,
      hheld.sound.carries⟩
    exact fun c hc hpos => (hheld.sound.read c hc hpos).trans hle
  have hstart : During (Pending fun _ => True) (boot vars s) := ⟨rfl, trivial, .inr hsettled⟩
  refine ⟨.of_sound hsound rfl, ?_⟩
  cases hentry : vars.entry with
  | main =>
    have hplay : Tasks.system.play vars = main := by simp only [Tasks.system, hentry]
    rw [hplay]
    exact runs_main.safe hstart
  | attachPrep =>
    have hplay : Tasks.system.play vars = attachPrep := by simp only [Tasks.system, hentry]
    rw [hplay]
    exact runs_attachPrep.safe hstart

theorem held_world (origin : Origin) (moves : List Move) (huncut : Uncut origin moves) :
    Held (world origin moves).state := by
  let ready (s : Host) : Prop := s.facts.completed = none → Settled s.machine
  have hboot : ∀ vars s, Held s → ready s → Held (boot vars s) ∧
      Safe (Contract.alone Held (fun _ _ => True) fun _ => trivial) (boot vars s)
        [⟨Tasks.system.play vars, none⟩] := by
    intro vars s hheld hready
    apply boot_keeps vars hheld
    cases hcompleted : s.facts.completed with
    | none => exact hready hcompleted
    | some e => exact (hheld.completed e hcompleted).1.settled
  have hgood : System.Good (Contract.alone Held (fun _ _ => True) fun _ => trivial)
      (⟨{ machine := origin.machine }, []⟩ : World Host Reply) :=
    ⟨.of_sound origin.sound rfl, safe_nil _⟩
  refine (System.good_run_of_ready hboot (fun e => e.elim) hgood moves ?_).1
  intro n hstack
  rcases Nat.le_total n moves.length with hle | hge
  · exact huncut n hle hstack
  · rw [List.take_of_length_le hge] at hstack ⊢
    have hlast := huncut moves.length le_rfl
    rw [List.take_length] at hlast
    exact hlast hstack

/-- Where no run is cut between a change and the end of the portal that waits
for it, a run that completes leaves a portal created after every change, with
the files and the certificate that are on disk. -/
theorem portal_recreated (origin : Origin) (moves : List Move) (huncut : Uncut origin moves)
    (e : Entry) (hcompleted : (world origin moves).state.facts.completed = some e) :
    ∃ c, (world origin moves).state.machine.container = some c ∧ c.running = true ∧
      Newer (world origin moves).state.machine c ∧
      (0 < c.created →
        (world origin moves).state.machine.envFile = some c.envFile ∧
        (world origin moves).state.machine.script = some c.script ∧
        (e = .main → c.certificate = (world origin moves).state.machine.certificate)) := by
  have hheld := held_world origin moves huncut
  obtain ⟨⟨c, hc, hrunning, hnewer⟩, hrecorded⟩ := hheld.completed e hcompleted
  refine ⟨c, hc, hrunning, hnewer, fun hpos => ?_⟩
  obtain ⟨henv, hscript, hcertificate⟩ := hheld.sound.carries c hc hpos hnewer
  refine ⟨henv, hscript, fun hmain => ?_⟩
  have hread := hheld.sound.read c hc hpos
  have hknown := hrecorded hmain
  omega

theorem settled_iff {m : Machine} : Settled m ↔
    (m.container.all fun c => !c.running || m.lastChange.all fun t => decide (t < c.created)) =
      true := by
  simp only [Settled, Newer]
  cases m.container with
  | none => simp
  | some c => cases m.lastChange <;> cases hrunning : c.running <;> simp [hrunning]

instance (m : Machine) : Decidable (Settled m) := decidable_of_iff _ settled_iff.symm

instance (m : Machine) : Decidable (Up m) :=
  inferInstanceAs (Decidable (m.container.any Container.running = true))

theorem fresh_iff {m : Machine} : Fresh m ↔ Up m ∧ Settled m := by
  constructor
  · intro h
    have hsettled := h.settled
    obtain ⟨c, hc, hrunning, -⟩ := h
    exact ⟨up_iff.mpr ⟨c, hc, hrunning⟩, hsettled⟩
  · rintro ⟨hup, hsettled⟩
    exact hsettled.fresh hup

instance (m : Machine) : Decidable (Fresh m) := decidable_of_iff _ fresh_iff.symm

instance (origin : Origin) (moves : List Move) : Decidable (Uncut origin moves) :=
  inferInstanceAs (Decidable (∀ n ≤ moves.length, _ → _ → _))

def ticks (k : ℕ) : List Move := List.replicate k (.tick {})

def converge (line : Text) : Move :=
  .start { envFile := { csReg := "portal:9.7", lines := [line] }, script := "v2" }

/-- A second run is cut once the portal that waited for it is gone, and the third
completes. -/
def recreateCut : List Move :=
  converge "WEB_CONCURRENCY=2" :: ticks 36 ++ converge "WEB_CONCURRENCY=4" :: ticks 20 ++
    [.interrupt] ++ converge "WEB_CONCURRENCY=4" :: ticks 20

set_option maxRecDepth 8000 in
theorem portal_recreated_after_cut : ∃ c,
    (world {} recreateCut).state.machine.container = some c ∧ c.running = true ∧
      Newer (world {} recreateCut).state.machine c ∧
      (0 < c.created →
        (world {} recreateCut).state.machine.envFile = some c.envFile ∧
        (world {} recreateCut).state.machine.script = some c.script ∧
        (Entry.main = .main →
          c.certificate = (world {} recreateCut).state.machine.certificate)) :=
  portal_recreated {} recreateCut (by decide +kernel) .main (by decide)

/-- A second run is cut once it has written the environment file anew; the third
finds it as it should be, and completes. -/
def envFileCut : List Move :=
  converge "WEB_CONCURRENCY=2" :: ticks 36 ++ converge "WEB_CONCURRENCY=4" :: ticks 5 ++
    [.interrupt] ++ converge "WEB_CONCURRENCY=4" :: ticks 20

theorem recreate_lost :
    (world {} envFileCut).state.facts.completed = some .main ∧
      Up (world {} envFileCut).state.machine ∧ ¬ Fresh (world {} envFileCut).state.machine ∧
      (world {} envFileCut).state.machine.container.map Container.envFile ≠
        (world {} envFileCut).state.machine.envFile := by
  decide

end Provisioner.Controller.Portal
