import Provisioner.ControllerSeed.Seed
import Provisioner.ControllerSeed.Seeded

/-!
# What is applied was reviewed

Whenever the manifest is applied, the gates before it have seen this run's own
preview of it and this run's plan of the IPv6 addresses.
-/

namespace Provisioner.ControllerSeed

open Play
open Inventory (csIpv6Problem)
open LbIpv6 (Wanted Clean reads reads_report report stdoutLinesOf controllerSeedLbIpv6Result)

variable (sha256 : Text → Text)

structure Approved (v : Vars) (call p : Call) : Prop where
  rc : p.rc = 0
  manifest : p.manifest = call.manifest
  updateAddresses : p.updateAddresses = call.updateAddresses
  drift : ∀ subject line, ¬ DomainDrift p.stdoutLines subject line
  fingerprint : v.controllerSeedExpectPreviewSha256 ≠ [] →
    controllerSeedPreviewSha256 sha256 p.stdoutLines =
      some v.controllerSeedExpectPreviewSha256

def nonempty (lines : List Text) : List Text := lines.filter fun line => !line.isEmpty

def ReportsConflict (w : Wanted) (lines : List Text) : Prop :=
  ∃ role, nonempty (stdoutLinesOf (report w (.conflict role))) <:+: nonempty lines

structure Planned (wanted : List Wanted) (cmd : Plan) : Prop where
  rc : cmd.rc = 0
  done : (controllerSeedLbIpv6Result cmd.stdoutLines).done = true
  read : (controllerSeedLbIpv6Result cmd.stdoutLines).conflict = []
  reported : ∀ w ∈ wanted, ¬ ReportsConflict w cmd.stdoutLines

/-- What holds where the manifest is applied. -/
structure Reviewed (call : Call) (s : Host) : Prop where
  not_stopping : s.facts.vars.controllerSeedStopAfterPreview = false
  not_check : s.facts.vars.ansibleCheckMode = false
  manifest : call.manifest = some s.facts.controllerSeedManifestContent
  preview : s.facts.vars.existingEnv = true ∨
      s.facts.vars.controllerSeedUpdateAddresses = true ∨
      s.facts.vars.controllerSeedExpectPreviewSha256 ≠ [] →
    ∃ p, s.facts.controllerSeedDryRun = some p ∧ Approved sha256 s.facts.vars call p
  plan : s.facts.vars.controllerSeedLbIpv6Wanted ≠ [] →
    ∃ cmd, s.facts.controllerSeedLbIpv6Cmd = some cmd ∧
      Planned s.facts.vars.controllerSeedLbIpv6Wanted cmd

/-- Among the lines that are printed for a conflict is one that reads as a conflict. -/
def Announced (w : Wanted) : Prop :=
  ∀ role, ∃ e ∈ reads (report w (.conflict role)), e.kind = .conflict

/-- The addresses are canonical, as the preflight has them, and the names of the zones stay inside
their field or are announced even so. -/
structure Legible (wanted : List Wanted) : Prop where
  canonical : ∀ w ∈ wanted, csIpv6Problem w.ip = none
  announced : ∀ w ∈ wanted, Clean w.az ∨ Announced w

theorem Legible.announces {wanted : List Wanted} (h : Legible wanted) {w : Wanted}
    (hw : w ∈ wanted) : Announced w := by
  rcases h.announced w hw with hclean | hannounced
  · intro role
    rw [reads_report hclean (h.canonical w hw)]
    exact ⟨_, List.mem_singleton_self _, rfl⟩
  · exact hannounced

theorem mem_of_infix_nonempty {part lines : List Text} (h : nonempty part <:+: nonempty lines)
    {line : Text} (hline : line ∈ part) (hne : line ≠ []) : line ∈ lines := by
  have hmem : line ∈ nonempty part := List.mem_filter.mpr ⟨hline, by simpa using hne⟩
  exact List.mem_of_mem_filter (h.subset hmem)

theorem not_reports {wanted : List Wanted} (h : Legible wanted) {lines : List Text}
    (hread : (controllerSeedLbIpv6Result lines).conflict = []) {w : Wanted}
    (hw : w ∈ wanted) : ¬ ReportsConflict w lines := by
  rintro ⟨role, hinfix⟩
  obtain ⟨e, he, hkind⟩ := h.announces hw role
  obtain ⟨line, hline, hentry⟩ := List.mem_filterMap.mp he
  have hne : line ≠ [] := by
    rintro rfl
    cases hentry
  have hmem : e ∈ (controllerSeedLbIpv6Result lines).conflict := by
    refine List.mem_filter.mpr ⟨?_, by simpa using hkind⟩
    exact List.mem_filterMap.mpr ⟨line, mem_of_infix_nonempty hinfix hline hne, hentry⟩
  rw [hread] at hmem
  cases hmem

def Applies (s s' : Host) : Prop :=
  ∀ call, s'.machine.applies = call :: s.machine.applies →
    Legible s.facts.vars.controllerSeedLbIpv6Wanted → Reviewed sha256 call s

variable {sha256}

theorem Applies.of_same {s s' : Host} (h : s'.machine.applies = s.machine.applies) :
    Applies sha256 s s' := by
  intro call hcall
  rw [h] at hcall
  exact absurd hcall.symm (List.cons_ne_self _ _)

theorem Applies.refl (s : Host) : Applies sha256 s s := .of_same rfl

variable (sha256) in
abbrev Obeys (P : Host → Prop) (items : List Item) (Q : Host → Prop) : Prop :=
  Leads (fun _ => True) (Applies sha256) Applies.refl P items Q

variable {P Q : Host → Prop}

theorem obeys_registers {f : Reply → Host → Facts} (h : ∀ s r, P s → Q { s with facts := f r s }) :
    Obeys sha256 P [registers f] Q :=
  leads_observes fun s r _ hs => ⟨trivial, .of_same rfl, h s r hs⟩

theorem obeys_runs {f : Reply → Host → Facts}
    (h : ∀ s r, P s → r.rc = 0 → Q { s with facts := f r s }) :
    Obeys sha256 P [runs fun r s => { s with facts := f r s }] Q := by
  apply Triple.task
  intro s r _ hs
  cases Answer.outcome r with
  | ok =>
    refine ⟨⟨fun _ => trivial, .of_same rfl⟩, ?_⟩
    by_cases hrc : r.rc = 0
    · simp only [hrc, if_true]
      exact h s r hs hrc
    · simp only [hrc, if_false]
  | again => exact ⟨⟨fun _ => trivial, .refl s⟩, trivial⟩
  | failed => exact ⟨⟨fun _ => trivial, .refl s⟩, trivial⟩

theorem obeys_manifest {f : Reply → Host → Option Text}
    (h : ∀ s r, P s → Q { s with machine := { s.machine with manifest := f r s } }) :
    Obeys sha256 P [acts fun r s => { s with machine := { s.machine with manifest := f r s } }] Q :=
  leads_acts fun s r _ hs => ⟨trivial, .of_same rfl, h s r hs⟩

theorem obeys_removeManifest (hQ : ∀ s, P s → Q s)
    (h : ∀ s, P s → Q { s with machine := { s.machine with manifest := none } }) :
    Obeys sha256 P [removeManifest] Q :=
  .incl ((obeys_manifest fun s _ hs => h s hs).pre fun _ _ hs => hs.1) fun s _ hs _ => hQ s hs

theorem obeys_optional {c : Host → Bool} : Obeys sha256 P [.incl c [command]] P :=
  .incl (leads_command.pre fun _ _ hs => hs.1) fun _ _ hs _ => hs

/-! ## The gates, one after another -/

def Usable (s : Host) : Prop := twoStepUsable s.facts.vars = true

def Written (s : Host) : Prop :=
  s.facts.vars.ansibleCheckMode = false →
    s.machine.manifest = some s.facts.controllerSeedManifestContent

def Previewed (s : Host) : Prop :=
  s.facts.vars.previews = true → s.facts.vars.ansibleCheckMode = false →
    ∃ p, s.facts.controllerSeedDryRun = some p ∧ p.rc = 0 ∧
      p.manifest = s.machine.manifest ∧
        p.updateAddresses = s.facts.vars.controllerSeedUpdateAddresses

def Undrifted (s : Host) : Prop :=
  controllerSeedLbDomainDrift s.stdoutLines = []

def Unconflicted (s : Host) : Prop :=
  s.facts.vars.plans = true → ∃ cmd, s.facts.controllerSeedLbIpv6Cmd = some cmd ∧ cmd.rc = 0 ∧
    (controllerSeedLbIpv6Result cmd.stdoutLines).done = true ∧
    (controllerSeedLbIpv6Result cmd.stdoutLines).conflict = []

def Printed (sha256 : Text → Text) (s : Host) : Prop :=
  s.facts.vars.fingerprints = true → s.facts.controllerSeedPreviewSha256 =
    controllerSeedPreviewSha256 sha256 s.stdoutLines

def Compared (s : Host) : Prop :=
  s.facts.vars.expects = true → s.facts.controllerSeedPreviewSha256 =
    some s.facts.vars.controllerSeedExpectPreviewSha256

structure Gated (sha256 : Text → Text) (s : Host) : Prop where
  usable : Usable s
  written : Written s
  previewed : Previewed s
  undrifted : Undrifted s
  unconflicted : Unconflicted s
  printed : Printed sha256 s

theorem Gated.reviewed {s : Host} (h : Gated sha256 s) (hcompared : Compared s)
    (hstop : s.facts.vars.controllerSeedStopAfterPreview = false)
    (hcheck : s.facts.vars.ansibleCheckMode = false)
    (hlegible : Legible s.facts.vars.controllerSeedLbIpv6Wanted) (r : Reply) :
    Reviewed sha256 (called r s) s where
  not_stopping := hstop
  not_check := hcheck
  manifest := h.written hcheck
  preview hany := by
    have hexpects : s.facts.vars.controllerSeedExpectPreviewSha256 ≠ [] →
        s.facts.vars.expects = true := by
      intro hne
      simpa [Vars.expects] using hne
    have hpreviews : s.facts.vars.previews = true := by
      rcases hany with henv | hupdate | hne
      · simp [Vars.previews, henv]
      · simp [Vars.previews, hupdate]
      · simp [Vars.previews, hexpects hne]
    obtain ⟨p, hp, hrc, hmanifest, hupdate⟩ := h.previewed hpreviews hcheck
    have hlines : s.stdoutLines = p.stdoutLines := by
      rw [Host.stdoutLines, hp]
    refine ⟨p, hp, hrc, hmanifest, hupdate, ?_, fun hne => ?_⟩
    · apply not_drift_of_scan
      rw [← hlines]
      exact h.undrifted
    · have hprinted := h.printed (by simp [Vars.fingerprints, hexpects hne])
      rw [← hlines, ← hprinted]
      exact hcompared (hexpects hne)
  plan hwanted := by
    have hplans : s.facts.vars.plans = true := by
      simpa [Vars.plans, hcheck] using hwanted
    obtain ⟨cmd, hcmd, hrc, hdone, hread⟩ := h.unconflicted hplans
    exact ⟨cmd, hcmd, hrc, hdone, hread, fun w hw => not_reports hlegible hread hw⟩

theorem obeys_writeManifest : Obeys sha256 Usable [writeManifest] fun s => Usable s ∧ Written s := by
  apply Triple.incl
  · exact obeys_manifest fun s _ hs => ⟨hs.1, fun _ => rfl⟩
  · intro s _ hs hskip
    refine ⟨hs, fun hcheck => ?_⟩
    rw [hcheck] at hskip
    cases hskip

theorem obeys_preview : Obeys sha256 (fun s => Usable s ∧ Written s) [preview]
    fun s => (Usable s ∧ Written s) ∧ Previewed s := by
  apply Triple.incl
  · apply Triple.incl
    · apply obeys_runs
      exact fun s r hs hrc => ⟨hs.1.1, fun _ _ => ⟨called r s, rfl, hrc, rfl, rfl⟩⟩
    · intro s _ hs hskip
      refine ⟨hs.1, fun _ hcheck => ?_⟩
      rw [hcheck] at hskip
      cases hskip
  · intro s _ hs hskip
    refine ⟨hs, fun hpreviews => ?_⟩
    rw [hskip] at hpreviews
    cases hpreviews

theorem obeys_domainGate : Obeys sha256 (fun s => (Usable s ∧ Written s) ∧ Previewed s)
    domainGate fun s => ((Usable s ∧ Written s) ∧ Previewed s) ∧ Undrifted s := by
  apply Triple.cons (M := fun s => ((Usable s ∧ Written s) ∧ Previewed s) ∧
    s.facts.controllerSeedLbDomainDrift = controllerSeedLbDomainDrift s.stdoutLines)
  · exact obeys_registers fun s _ hs => ⟨hs, rfl⟩
  · apply leads_gate
    intro s _ ⟨hs, hdrift⟩ hempty
    refine ⟨hs, ?_⟩
    rw [Undrifted, ← hdrift]
    simpa using hempty

theorem obeys_planIpv6 :
    Obeys sha256 (fun s => ((Usable s ∧ Written s) ∧ Previewed s) ∧ Undrifted s) [planIpv6]
      fun s => (((Usable s ∧ Written s) ∧ Previewed s) ∧ Undrifted s) ∧ Unconflicted s := by
  apply Triple.incl
  · apply Triple.cons (M := fun s => ((Usable s ∧ Written s) ∧ Previewed s) ∧ Undrifted s)
    · exact obeys_registers fun s _ hs => hs.1
    · apply leads_command.cons
      apply leads_gate
      intro s _ hs hgate
      refine ⟨hs, fun _ => ?_⟩
      obtain ⟨cmd, hcmd, hchecks⟩ := (Option.any_eq_true _ _).mp hgate
      simp only [Bool.and_eq_true, decide_eq_true_eq, List.isEmpty_iff] at hchecks
      obtain ⟨⟨⟨hrc, hdone⟩, hconflict⟩, -⟩ := hchecks
      exact ⟨cmd, hcmd, hrc, hdone, hconflict⟩
  · intro s _ hs hskip
    refine ⟨hs, fun hplans => ?_⟩
    rw [hskip] at hplans
    cases hplans

theorem obeys_fingerprint :
    Obeys sha256 (fun s => (((Usable s ∧ Written s) ∧ Previewed s) ∧ Undrifted s) ∧ Unconflicted s)
      [fingerprint sha256] (Gated sha256) := by
  apply Triple.incl
  · apply (leads_gate fun _ _ hs _ => hs.1).cons
    exact obeys_registers fun s _ ⟨⟨⟨⟨husable, hwritten⟩, hpreviewed⟩, hundrifted⟩, hplan⟩ =>
      ⟨husable, hwritten, hpreviewed, hundrifted, hplan, fun _ => rfl⟩
  · intro s _ ⟨⟨⟨⟨husable, hwritten⟩, hpreviewed⟩, hundrifted⟩, hplan⟩ hskip
    refine ⟨husable, hwritten, hpreviewed, hundrifted, hplan, fun hfingerprints => ?_⟩
    rw [hskip] at hfingerprints
    cases hfingerprints

def Continues (sha256 : Text → Text) (s : Host) : Prop :=
  s.facts.controllerSeedPreviewStopped = false →
    Gated sha256 s ∧ s.facts.vars.controllerSeedStopAfterPreview = false

theorem obeys_stopAfterPreview :
    Obeys sha256 (Gated sha256) [stopAfterPreview] (Continues sha256) := by
  apply Triple.incl
  · apply (leads_command (P := fun _ => True)).pre (fun _ _ _ => trivial) |>.cons
    apply (obeys_removeManifest (Q := fun _ => True) (fun _ _ => trivial)
      fun _ _ => trivial).cons
    exact obeys_registers fun _ _ _ hstopped => (nomatch hstopped)
  · exact fun s _ hs hskip _ => ⟨hs, hskip⟩

theorem obeys_applyTasks :
    Obeys sha256
      (fun s => Gated sha256 s ∧ s.facts.vars.controllerSeedStopAfterPreview = false)
      applyTasks fun _ => True := by
  have hrefuse : Obeys sha256
      (fun s => Gated sha256 s ∧ s.facts.vars.controllerSeedStopAfterPreview = false)
      [refuseOther]
      fun s => (Gated sha256 s ∧ s.facts.vars.controllerSeedStopAfterPreview = false) ∧
        Compared s := by
    apply Triple.incl
    · apply leads_gate
      exact fun s _ hs hsame => ⟨hs.1, fun _ => by simpa using hsame⟩
    · intro s _ hs hskip
      refine ⟨hs, fun hexpects => ?_⟩
      rw [hskip] at hexpects
      cases hexpects
  have happly : Obeys sha256
      (fun s => (Gated sha256 s ∧ s.facts.vars.controllerSeedStopAfterPreview = false) ∧
        Compared s) [applyManifest] fun _ => True := by
    apply Triple.incl
    · apply Triple.task
      rintro s r - ⟨⟨⟨hgated, hstop⟩, hcompared⟩, hcheck⟩
      refine ⟨⟨fun _ => trivial, fun call hcall hlegible => ?_⟩, ?_⟩
      · obtain rfl : called r s = call := (List.cons.inj hcall).1
        exact hgated.reviewed hcompared hstop (by simpa using hcheck) hlegible r
      · by_cases hok : Answer.outcome r = .ok ∧ r.rc = 0
        · simp only [if_pos hok]
        · simp only [if_neg hok]
    · exact fun _ _ _ _ => trivial
  have hremove : Obeys sha256 (fun _ => True)
      [.incl (fun s => s.facts.vars.controllerSeedRemoveManifest) [removeManifest]]
      fun _ => True :=
    .incl (obeys_removeManifest (fun _ _ => trivial) fun _ _ => trivial)
      fun _ _ _ _ => trivial
  exact hrefuse.cons (obeys_optional.cons (happly.cons (leads_command.cons hremove)))

theorem obeys_seedTasks : Obeys sha256 Usable (seedTasks sha256) fun _ => True := by
  have hstopped : Obeys sha256 (Continues sha256) [unlessStopped applyTasks] fun _ => True := by
    apply Triple.incl
    · apply obeys_applyTasks.pre
      exact fun s _ hs => hs.1 (by simpa using hs.2)
    · exact fun _ _ _ _ => trivial
  exact ((obeys_writeManifest.cons (obeys_preview.cons obeys_optional)).append
    obeys_domainGate).append (obeys_planIpv6.cons (obeys_fingerprint.cons
      (obeys_stopAfterPreview.cons hstopped)))

theorem obeys_main : Obeys sha256 (fun _ => True) (main sha256) fun _ => True := by
  have hentry : Obeys sha256 (fun _ => True) entryChecks Usable :=
    (leads_gate fun _ _ _ husable => husable).cons leads_command
  have hrender : Obeys sha256 Usable renderManifest Usable :=
    Triple.cons (M := Usable) (obeys_registers fun _ _ hs => hs) leads_command
  have hrescue : Obeys sha256 (fun _ => True) [command, gate fun _ => false] fun _ => True :=
    leads_command.cons (leads_gate fun _ _ _ _ => trivial)
  have hlater : Obeys sha256 (fun _ => True)
      [unlessStopped [.incl (fun s => s.facts.vars.plans) (lbPublicIpv6 true)]]
      fun _ => True := by
    apply Triple.incl
    · apply Triple.incl
      · exact Triple.cons (M := fun _ => True) (obeys_registers fun _ _ _ => trivial)
          (leads_command.cons (leads_gate fun _ _ _ _ => trivial))
      · exact fun _ _ _ _ => trivial
    · exact fun _ _ _ _ => trivial
  exact (hentry.append hrender).append ((Triple.block obeys_seedTasks hrescue).cons hlater)

/-! ## All runs -/

abbrev Step := Play.Move Reply Vars Empty

def seeded (sha256 : Text → Text) (start : Machine) (steps : List Step) : Host :=
  ((system sha256).run steps ⟨{ machine := start }, []⟩).state

theorem runs_keep : (system sha256).Keeps
    (Contract.alone (fun _ => True) (Applies sha256) Applies.refl) where
  boot_inv _ _ _ := trivial
  boot_safe _ _ _ := obeys_main.safe trivial
  outside_rely e _ := e.elim

/-- Whatever runs there were, cut anywhere and with any output, what a step
applies was reviewed by the gates of its own run. -/
theorem apply_reviewed (sha256 : Text → Text) (start : Machine) (steps : List Step) (m : Step)
    (call : Call) (happly : (seeded sha256 start (steps ++ [m])).machine.applies =
      call :: (seeded sha256 start steps).machine.applies)
    (hlegible : Legible (seeded sha256 start steps).facts.vars.controllerSeedLbIpv6Wanted) :
    Reviewed sha256 call (seeded sha256 start steps) := by
  have hgood : System.Good (Contract.alone (fun _ => True) (Applies sha256) Applies.refl)
      (⟨{ machine := start }, []⟩ : World Host Reply) :=
    ⟨trivial, safe_nil _⟩
  have hchange := (System.change_run runs_keep hgood steps m).2
  rw [seeded] at happly hlegible ⊢
  rw [seeded] at happly
  generalize ((system sha256).run (steps ++ [m]) _).state = s' at hchange happly
  cases hchange with
  | same => exact Applies.refl _ call happly hlegible
  | boot b => exact Applies.of_same rfl call happly hlegible
  | play hstep => exact hstep.2 call happly hlegible
  | outside e => exact e.elim

/-! A node is attached in two steps; this is the second. -/

def attachPreview : List Text := [("DRY RUN" : Text), ("  [create] Node node-006" : Text)]

def attachDigest : Text := "0374279c0b9f8b0db85a8950572e64a76120946eec76561c8e98c87e971961dd"

def attachSha256 (t : Text) : Text := if t = document attachPreview then attachDigest else []

def attach (az : Text) : Vars where
  existingEnv := true
  controllerSeedExpectPreviewSha256 := attachDigest
  controllerSeedConfirm := false
  controllerSeedLbIpv6Wanted := [{ az, ip := ("2001:db8::161" : Text) }]

/-- All that succeeds without output, the preview, the plan, and the rest up to the apply. -/
def attachSteps (az : Text) (plan : List Text) : List Step :=
  .start (attach az) :: List.replicate 9 (.tick {}) ++ [.tick { stdoutLines := attachPreview }] ++
    List.replicate 5 (.tick {}) ++ [.tick { stdoutLines := plan }] ++ List.replicate 11 (.tick {})

def attachCall : Call := ⟨some [], false, 0, []⟩

def exm061Steps : List Step :=
  attachSteps "exm-061" [("CREATE|exm-061|2001:db8::161" : Text), ("DONE" : Text)]

theorem legible_exm061 : Legible (attach "exm-061").controllerSeedLbIpv6Wanted where
  canonical := List.forall_mem_singleton.mpr (by decide)
  announced := List.forall_mem_singleton.mpr (.inl (by decide))

theorem apply_reviewed_attach :
    Reviewed attachSha256 attachCall (seeded attachSha256 {} exm061Steps) :=
  apply_reviewed attachSha256 {} exm061Steps (.tick {}) attachCall (by decide)
    (by exact legible_exm061)

def conflictLine : Text := "CONFLICT|exm|061|2001:db8::161|proxy"

def conflictSteps : List Step := attachSteps "exm|061" [conflictLine, ("DONE" : Text)]

/-- The plan reports a conflict of a zone called `exm|061`, and the manifest is applied. -/
theorem conflict_applied :
    (seeded attachSha256 {} (conflictSteps ++ [.tick {}])).machine.applies =
        attachCall :: (seeded attachSha256 {} conflictSteps).machine.applies ∧
      ¬ Reviewed attachSha256 attachCall (seeded attachSha256 {} conflictSteps) := by
  have hcmd : (seeded attachSha256 {} conflictSteps).facts.controllerSeedLbIpv6Cmd =
      some ⟨0, [conflictLine, ("DONE" : Text)]⟩ := by decide
  have hwanted : (seeded attachSha256 {} conflictSteps).facts.vars.controllerSeedLbIpv6Wanted =
      [⟨"exm|061", "2001:db8::161"⟩] := by decide
  refine ⟨by decide, fun h => ?_⟩
  obtain ⟨cmd, hsome, hplanned⟩ := h.plan (by rw [hwanted]; exact List.cons_ne_nil _ _)
  rw [hcmd, Option.some.injEq] at hsome
  subst hsome
  rw [hwanted] at hplanned
  refine hplanned.reported _ (List.mem_singleton_self _) ⟨.proxy, [], [("DONE" : Text)], ?_⟩
  decide

end Provisioner.ControllerSeed
