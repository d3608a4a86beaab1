import Provisioner.Library.Words
import Mathlib.Data.List.TakeWhile

/-!
# The stop decision

The inputs of the decision a maintained node gets once, after its converge:
what drifts from its pins, which files dockerd has not loaded yet, a pending
reboot, the operator's force flag. Times are in nanoseconds; systemd and the
comparison of file times only see whole seconds.
-/

namespace Provisioner.NodeUpgrade

def seconds (t : ℕ) : ℕ := t / 1000000000

theorem seconds_mono {s t : ℕ} (h : s ≤ t) : seconds s ≤ seconds t := Nat.div_le_div_right h

structure Drift where
  name : Text
  pin : Option Text
  installed : Option Text
deriving DecidableEq, Repr

structure DecisionInputs where
  dockerDrift : List Drift
  dockerRestartReasons : List Text
  rebootPending : Bool
  force : Bool
deriving DecidableEq, Repr

structure Decision where
  stop : Bool
  reasons : List Text
  dockerRestartRequired : Bool
  dockerRestartReasons : List Text
  drift : List Drift
  rebootPending : Bool
  force : Bool
deriving DecidableEq, Repr

/-- Python's `value or fallback` on an optional string. -/
def orElseText (value : Option Text) (fallback : Text) : Text :=
  match value with
  | none | some [] => fallback
  | some t => t

def driftText (d : Drift) : Text :=
  d.name ++ " " ++ orElseText d.installed "absent" ++ " -> " ++ orElseText d.pin "any"

def addReason (restart : List Text) (reason : Text) : List Text :=
  let r := Text.strip reason
  if r ≠ [] ∧ r ∉ restart then restart ++ [r] else restart

def restartReasons (inputs : DecisionInputs) : List Text :=
  inputs.dockerRestartReasons.foldl addReason []

def driftReasons (drift : List Drift) : List Text :=
  if drift.isEmpty then []
  else [("docker drifts from its pins (" : Text) ++ Text.join "; " (drift.map driftText) ++ ")"]

def restartText (reason : Text) : Text := ("docker must restart: " : Text) ++ reason

def hostReasons (inputs : DecisionInputs) : List Text :=
  (if inputs.rebootPending then ["a reboot is pending (/var/run/reboot-required)"] else []) ++
    if inputs.force then ["forced (maintain_force_restart)"] else []

def stopReasons (inputs : DecisionInputs) : List Text :=
  driftReasons inputs.dockerDrift ++ (restartReasons inputs).map restartText ++
    hostReasons inputs

def maintainDecide (inputs : DecisionInputs) : Decision :=
  { stop := !(stopReasons inputs).isEmpty
    reasons := stopReasons inputs
    dockerRestartRequired := !(restartReasons inputs).isEmpty
    dockerRestartReasons := restartReasons inputs
    drift := inputs.dockerDrift
    rebootPending := inputs.rebootPending
    force := inputs.force }

/-- The part of a line after its first `=`. -/
def propertyValue (line : Text) : Text := (line.dropWhile (· ≠ '=')).drop 1

def unitTimestamp (line : Text) : Text := (Text.strip (propertyValue line)).dropWhile (· = '@')

def systemdUnixTs (stdoutLines : List Text) : ℕ :=
  ((stdoutLines.map unitTimestamp).find? Text.isNumber).elim 0 Text.int

/-- One row of a looped `stat`. -/
structure FileStat where
  path : Text
  present : Bool
  mtime : ℕ
deriving DecidableEq, Repr

def filesNewerThan (stats : List FileStat) (epoch : ℕ) : List Text :=
  (stats.filter fun s => s.present && epoch < seconds s.mtime).map FileStat.path

/-! ## What the decision is taken on -/

/-- What `systemctl show docker --property=ActiveEnterTimestamp --timestamp=unix`
prints for a unit that last became active then, or never. -/
def systemctlShow (activeEnter : Option ℕ) : List Text :=
  [("ActiveEnterTimestamp=" : Text) ++ activeEnter.elim [] fun t => '@' :: Text.decimal (seconds t)]

theorem propertyValue_cons {c : Char} (hc : c ≠ '=') (t : Text) :
    propertyValue (c :: t) = propertyValue t := by
  rw [propertyValue, List.dropWhile_cons_of_pos (by simpa using hc), propertyValue]

theorem propertyValue_append {name value : Text} (hname : '=' ∉ name) :
    propertyValue (name ++ '=' :: value) = value := by
  induction name with
  | nil => rfl
  | cons c name ih =>
    rw [List.mem_cons, not_or] at hname
    rw [List.cons_append, propertyValue_cons (Ne.symm hname.1), ih hname.2]

theorem unitTimestamp_show (value : Text) :
    unitTimestamp (("ActiveEnterTimestamp=" : Text) ++ value) =
      (Text.strip value).dropWhile (· = '@') := by
  have hvalue : propertyValue (("ActiveEnterTimestamp" : Text) ++ '=' :: value) = value :=
    propertyValue_append (by decide)
  exact congrArg (fun v => (Text.strip v).dropWhile (· = '@')) hvalue

theorem unitTimestamp_at {n : ℕ} :
    (Text.strip ('@' :: Text.decimal n)).dropWhile (· = '@') = Text.decimal n := by
  have hword : Text.IsWord ('@' :: Text.decimal n) := by
    refine ⟨List.cons_ne_nil _ _, fun c hc => ?_⟩
    rcases List.mem_cons.mp hc with rfl | hc
    · decide
    · exact (Text.isWord_decimal n).2 c hc
  rw [Text.strip_eq_self hword.trimmed, List.dropWhile_cons_of_pos (by decide),
    List.dropWhile_eq_self_iff]
  intro hpos heq
  have hdigit : (Text.decimal n)[0].isDigit = true :=
    Text.isDigit_of_mem_decimal (List.getElem_mem hpos)
  rw [of_decide_eq_true heq] at hdigit
  cases hdigit

theorem systemdUnixTs_show (activeEnter : Option ℕ) :
    systemdUnixTs (systemctlShow activeEnter) = activeEnter.elim 0 seconds := by
  cases activeEnter with
  | none =>
    have hnone : unitTimestamp (("ActiveEnterTimestamp=" : Text) ++ []) = [] := by decide
    change (([unitTimestamp (("ActiveEnterTimestamp=" : Text) ++ [])].find?
      Text.isNumber).elim 0 Text.int) = 0
    rw [hnone]
    rfl
  | some t =>
    have hsome : unitTimestamp (("ActiveEnterTimestamp=" : Text) ++
        '@' :: Text.decimal (seconds t)) = Text.decimal (seconds t) :=
      (unitTimestamp_show _).trans unitTimestamp_at
    change (([unitTimestamp (("ActiveEnterTimestamp=" : Text) ++
      '@' :: Text.decimal (seconds t))].find? Text.isNumber).elim 0 Text.int) = seconds t
    rw [hsome, List.find?_cons_of_pos (Text.isNumber_decimal _)]
    exact Text.int_decimal _

theorem mem_filesNewerThan {stats : List FileStat} {epoch : ℕ} {path : Text} :
    path ∈ filesNewerThan stats epoch ↔
      ∃ s ∈ stats, s.present = true ∧ epoch < seconds s.mtime ∧ s.path = path := by
  simp only [filesNewerThan, List.mem_map, List.mem_filter, Bool.and_eq_true,
    decide_eq_true_eq, and_assoc]

theorem ne_nil_of_foldl_addReason {reasons restart : List Text}
    (h : restart ≠ [] ∨ ∃ r ∈ reasons, Text.strip r ≠ []) :
    reasons.foldl addReason restart ≠ [] := by
  induction reasons generalizing restart with
  | nil => simpa using h
  | cons r rest ih =>
    rw [List.foldl_cons]
    apply ih
    by_cases hadd : Text.strip r ≠ [] ∧ Text.strip r ∉ restart
    · left
      simp [addReason, hadd]
    · rw [show addReason restart r = restart from if_neg hadd]
      rcases h with h | ⟨r', hr', hstrip⟩
      · exact .inl h
      · rcases List.mem_cons.mp hr' with rfl | hr'
        · left
          rintro rfl
          exact hadd ⟨hstrip, List.not_mem_nil⟩
        · exact .inr ⟨r', hr', hstrip⟩

theorem restart_required {inputs : DecisionInputs} {r : Text}
    (hr : r ∈ inputs.dockerRestartReasons) (hblank : Text.strip r ≠ []) :
    (maintainDecide inputs).dockerRestartRequired = true := by
  have hne : restartReasons inputs ≠ [] := ne_nil_of_foldl_addReason (.inr ⟨r, hr, hblank⟩)
  exact congrArg not (List.isEmpty_eq_false_iff.mpr hne)

theorem stop_of_restart_required {inputs : DecisionInputs}
    (h : (maintainDecide inputs).dockerRestartRequired = true) :
    (maintainDecide inputs).stop = true := by
  have hne : restartReasons inputs ≠ [] := by
    change (!(restartReasons inputs).isEmpty) = true at h
    simpa using h
  have hreasons : stopReasons inputs ≠ [] := by
    intro hnil
    rw [stopReasons, List.append_eq_nil_iff, List.append_eq_nil_iff, List.map_eq_nil_iff] at hnil
    exact hne hnil.1.2
  exact congrArg not (List.isEmpty_eq_false_iff.mpr hreasons)

end Provisioner.NodeUpgrade
