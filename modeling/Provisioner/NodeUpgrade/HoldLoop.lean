import Mathlib.Data.Rat.Defs
import Provisioner.Library.Dict
import Provisioner.Library.Flow
import Provisioner.Library.Lines

/-!
# Taking the hold

`hold.yml` runs `cs-agent maintenance on` until it answers something other than
that no hold was placed. What an answer means is read from the shape of its
document first and from the exit code second.
-/

namespace Provisioner.NodeUpgrade.HoldLoop

open Text (splitlines strip isNumber int)

inductive Json where
  | null
  | bool (b : Bool)
  | int (n : ℤ)
  | float (q : ℚ)
  | nan
  | infinity
  | text (t : Text)
  | array (items : List Json)
  | object (fields : List (Text × Json))

abbrev Object := List (Text × Json)

/-- `doc.get(key)`, `None` where there is none. -/
def get (doc : Object) (key : Text) : Json := (Dict.get doc key).getD .null

def has (doc : Object) (key : Text) : Bool := (Dict.get doc key).isSome

def Json.isNone : Json → Bool
  | .null => true
  | _ => false

def Json.truthy : Json → Bool
  | .null | .bool false => false
  | .int n => n ≠ 0
  | .float q => q ≠ 0
  | .text t => !t.isEmpty
  | .array items => !items.isEmpty
  | .object fields => !fields.isEmpty
  | _ => true

/-- `int` of a string. -/
def intOfText (t : Text) : Option ℤ :=
  let read (body : Text) : Option ℤ :=
    let groups := body.splitOnP (· == '_')
    if groups.all isNumber then some (int groups.flatten) else none
  match strip t with
  | '-' :: body => (read body).map Neg.neg
  | '+' :: body => read body
  | body => read body

inductive IntError where
  -- `TypeError` or `ValueError`
  | caught
  | overflow
deriving DecidableEq, Repr

def toInt : Json → Except IntError ℤ
  | .int n => .ok n
  | .bool b => .ok b.toInt
  | .float q => .ok (q.num.tdiv q.den)
  | .text t => match intOfText t with
    | some n => .ok n
    | none => .error .caught
  | .infinity => .error .overflow
  | _ => .error .caught

/-! ## The document -/

inductive Shape where
  | status
  | error
  | none
deriving DecidableEq, Repr

section

variable (loads : Text → Option Json)

def firstLine (stdout : Text) : Text :=
  (((splitlines stdout).find? fun line => !(strip line).isEmpty).map strip).getD []

def cliJson (stdout : Text) : Shape × Object :=
  let text := firstLine stdout
  match if text.isEmpty then none else loads text with
  | some (.object doc) =>
    if has doc "error" then (.error, doc)
    else if has doc "paused" && has doc "local" then (.status, doc)
    else (.none, doc)
  | _ => (.none, [])

/-! ## The hold -/

inductive Outcome where
  | error
  | noOutput
  | ok
  | failed
  | timeout
  | unconfirmed
  | notPlaced
  | interrupted
  | cleared
deriving DecidableEq, Repr

structure OnResult where
  rc : Option ℤ
  shape : Shape
  outcome : Outcome
  ok : Bool := false
  held : Option Bool := none
  localHold : Json := .null
  controller : Json := .null
  running : Json := .array []
  quiesce : Json := .null
  controllerAcked : Json := .null
  error : Json := .null

def statusOutcome (rc : Option ℤ) (placed : Bool) : Outcome :=
  if rc = some 0 then if placed then .ok else .failed
  else if rc = some 2 then .timeout
  else if rc = some 4 then if placed then .unconfirmed else .notPlaced
  else if rc = some 1 then if placed then .interrupted else .cleared
  else .failed

def classifyOn (stdout : Text) (rc : Option ℤ) : OnResult :=
  match cliJson loads stdout with
  | (.error, doc) => { rc := rc, shape := .error, outcome := .error, error := get doc "error" }
  | (.none, _) => { rc := rc, shape := .none, outcome := .noOutput }
  | (.status, doc) =>
    let placed := !(get doc "local").isNone
    let running := get doc "running"
    { rc := rc
      shape := .status
      outcome := statusOutcome rc placed
      ok := rc = some 0 && placed
      held := some placed
      localHold := get doc "local"
      controller := get doc "controller"
      running := if running.truthy then running else .array []
      quiesce := get doc "quiesce"
      controllerAcked := get doc "controller_acked" }

def onRetry (stdout : Text) (rc : Option ℤ) : Bool :=
  decide ((classifyOn loads stdout rc).outcome = .notPlaced)

structure Registered where
  stdout : Text := []
  rc : Option ℤ := none
deriving DecidableEq, Repr

def repeated (r : Registered) : Bool := onRetry loads r.stdout r.rc

/-- `until`: the calls that are made when this many retries are left. -/
def hold : ℕ → (ℕ → Registered) → List Registered
  | 0, calls => [calls 0]
  | retries + 1, calls =>
    if repeated loads (calls 0) then calls 0 :: hold retries fun n => calls (n + 1) else [calls 0]

/-! ## The later status -/

inductive AgentState where
  | noOutput
  | error
  | unavailable
  | unheld
  | ready
  | agentInactive
deriving DecidableEq, Repr

structure AgentStatus where
  finished : Bool := false
  ready : Bool := false
  state : AgentState := .noOutput
  held : Option Bool := none
  agentActive : Option Bool := none
  rc : Option ℤ
  error : Json := .null

def Json.isTrue : Json → Bool
  | .bool b => b
  | _ => false

def exitCode (doc : Object) (rc : Option ℤ) : Except IntError (Option ℤ) :=
  match Dict.get doc "exit_code" with
  | none => .ok rc
  | some code =>
    match toInt code with
    | .ok n => .ok (some n)
    | .error .caught => .ok rc
    | .error .overflow => .error .overflow

def agentStatus (stdout : Text) (rc : Option ℤ) : Except IntError AgentStatus :=
  match cliJson loads stdout with
  | (.error, doc) => do
    let code ← exitCode doc rc
    let res : AgentStatus := { rc := rc, error := get doc "error" }
    return if code = some 3 then { res with state := .unavailable }
      else { res with finished := true, state := .error }
  | (.none, _) => .ok { rc := rc }
  | (.status, doc) =>
    let active := (get doc "agent_active").isTrue
    let res : AgentStatus :=
      { rc := rc, held := some !(get doc "local").isNone, agentActive := some active }
    .ok (if (get doc "local").isNone then { res with finished := true, state := .unheld }
      else if active then { res with finished := true, ready := true, state := .ready }
      else { res with state := .agentInactive })

/-! ## What an answer proves -/

def Says (stdout : Text) (doc : Object) : Prop :=
  firstLine stdout ≠ [] ∧ loads (firstLine stdout) = some (.object doc)

structure StatusDocument (stdout : Text) (doc : Object) : Prop where
  first : Says loads stdout doc
  paused : has doc "paused" = true
  hasLocal : has doc "local" = true
  no_error : has doc "error" = false

def NotHeld (r : Registered) : Prop :=
  ∃ doc, StatusDocument loads r.stdout doc ∧ r.rc = some 4 ∧ (get doc "local").isNone = true

def Quiet (r : Registered) : Prop :=
  ∃ doc, StatusDocument loads r.stdout doc ∧ r.rc = some 0 ∧ (get doc "local").isNone = false

def Unknown (r : Registered) : Prop :=
  (classifyOn loads r.stdout r.rc).held = none ∧ (classifyOn loads r.stdout r.rc).ok = false ∧
    onRetry loads r.stdout r.rc = false

end

variable {loads : Text → Option Json}

theorem cliJson_status_iff {stdout : Text} {doc : Object} :
    cliJson loads stdout = (.status, doc) ↔ StatusDocument loads stdout doc := by
  unfold cliJson
  constructor
  · intro hread
    dsimp only at hread
    split at hread
    · rename_i doc' hloads
      split at hread
      · cases hread
      rename_i herror
      split at hread
      · rename_i hkeys
        cases hread
        rw [Bool.and_eq_true] at hkeys
        split at hloads
        · cases hloads
        · rename_i hline
          exact ⟨⟨by simpa using hline, hloads⟩, hkeys.1, hkeys.2, by simpa using herror⟩
      · cases hread
    · cases hread
  · rintro ⟨⟨hline, hloads⟩, hpaused, hlocal, herror⟩
    have hline' : ¬ (firstLine stdout).isEmpty = true := by simpa using hline
    dsimp only
    rw [if_neg hline', hloads]
    dsimp only
    rw [herror, hpaused, hlocal]
    rfl

theorem cliJson_other {stdout : Text} (hnone : ∀ doc, ¬ StatusDocument loads stdout doc) :
    (cliJson loads stdout).1 ≠ .status := by
  intro hshape
  refine hnone (cliJson loads stdout).2 (cliJson_status_iff.mp ?_)
  rw [← hshape]

theorem statusOutcome_ok {rc : Option ℤ} {placed : Bool} :
    (decide (rc = some 0) && placed) = true ↔ rc = some 0 ∧ placed = true := by
  rw [Bool.and_eq_true, decide_eq_true_eq]

theorem statusOutcome_notPlaced {rc : Option ℤ} {placed : Bool} :
    statusOutcome rc placed = .notPlaced ↔ rc = some 4 ∧ placed = false := by
  constructor
  · intro houtcome
    unfold statusOutcome at houtcome
    split_ifs at houtcome with h0 hp h2 h4 hp' h1 hp''
    exact ⟨h4, by simpa using hp'⟩
  · rintro ⟨rfl, rfl⟩
    rfl

/-- The call is repeated exactly after an answer that proves no hold. -/
theorem repeated_iff (r : Registered) : repeated loads r = true ↔ NotHeld loads r := by
  rw [repeated, onRetry, decide_eq_true_eq]
  constructor
  · intro houtcome
    unfold classifyOn at houtcome
    split at houtcome
    · cases houtcome
    · cases houtcome
    · rename_i doc hread
      obtain ⟨hrc, hplaced⟩ := statusOutcome_notPlaced.mp houtcome
      exact ⟨doc, cliJson_status_iff.mp hread, hrc, by simpa using hplaced⟩
  · rintro ⟨doc, hdoc, hrc, hlocal⟩
    rw [classifyOn, cliJson_status_iff.mpr hdoc]
    exact statusOutcome_notPlaced.mpr ⟨hrc, by rw [hlocal]; rfl⟩

theorem ok_iff (r : Registered) : (classifyOn loads r.stdout r.rc).ok = true ↔ Quiet loads r := by
  constructor
  · intro hok
    unfold classifyOn at hok
    split at hok
    · cases hok
    · cases hok
    · rename_i doc hread
      obtain ⟨hrc, hplaced⟩ := statusOutcome_ok.mp hok
      exact ⟨doc, cliJson_status_iff.mp hread, hrc, by simpa using hplaced⟩
  · rintro ⟨doc, hdoc, hrc, hlocal⟩
    rw [classifyOn, cliJson_status_iff.mpr hdoc]
    exact statusOutcome_ok.mpr ⟨hrc, by rw [hlocal]; rfl⟩

theorem unknown_of_other {r : Registered} (hnone : ∀ doc, ¬ StatusDocument loads r.stdout doc) :
    Unknown loads r := by
  have hshape := cliJson_other hnone
  unfold Unknown onRetry classifyOn
  split
  · exact ⟨rfl, rfl, rfl⟩
  · exact ⟨rfl, rfl, rfl⟩
  · rename_i doc hread
    rw [hread] at hshape
    exact absurd rfl hshape

/-- What is ready was held, whatever the exit codes. -/
theorem held_of_ready {stdout : Text} {rc rc' : Option ℤ} {res : AgentStatus}
    (hstatus : agentStatus loads stdout rc = .ok res) (hready : res.ready = true) :
    (classifyOn loads stdout rc').held = some true := by
  unfold agentStatus at hstatus
  unfold classifyOn
  cases hread : cliJson loads stdout with
  | mk shape doc =>
    rw [hread] at hstatus
    cases shape with
    | error =>
      simp only at hstatus
      obtain ⟨code, -, hres⟩ := except_bind_eq_ok.mp hstatus
      have hnot := congrArg AgentStatus.ready (Except.ok.inj hres)
      rw [hready] at hnot
      split at hnot <;> cases hnot
    | none =>
      cases hstatus
      cases hready
    | status =>
      simp only at hstatus
      cases hlocal : (get doc "local").isNone with
      | true =>
        simp only [hlocal] at hstatus
        cases hstatus
        cases hready
      | false =>
        dsimp only
        rw [hlocal]
        rfl

/-- Every call but the last is repeated, and the last one is final unless no
retry is left. -/
theorem hold_repeats (retries : ℕ) (calls : ℕ → Registered) {before after : List Registered}
    {r : Registered} (hsplit : hold loads retries calls = before ++ r :: after)
    (hafter : after ≠ []) : repeated loads r = true := by
  induction retries generalizing calls before with
  | zero =>
    cases before with
    | nil =>
      cases hsplit
      exact absurd rfl hafter
    | cons _ before => simp [hold] at hsplit
  | succ retries ih =>
    rw [hold] at hsplit
    split at hsplit
    · rename_i hrepeated
      cases before with
      | nil =>
        cases hsplit
        exact hrepeated
      | cons _ before =>
        exact ih _ (List.cons.inj hsplit).2
    · cases before with
      | nil =>
        cases hsplit
        exact absurd rfl hafter
      | cons _ before => simp at hsplit

theorem hold_ne_nil (retries : ℕ) (calls : ℕ → Registered) : hold loads retries calls ≠ [] := by
  cases retries with
  | zero => exact List.cons_ne_nil _ _
  | succ retries =>
    rw [hold]
    split <;> exact List.cons_ne_nil _ _

/-- What the calls of the loop have been, and what is made of them. -/
structure Judged (loads : Text → Option Json) (ran : List Registered) : Prop where
  repeats : ∀ before r after, ran = before ++ r :: after → after ≠ [] → NotHeld loads r
  ok : ∀ last, ran.getLast? = some last → ((classifyOn loads last.stdout last.rc).ok = true ↔
    Quiet loads last)
  unknown : ∀ r : Registered, (∀ doc, ¬ StatusDocument loads r.stdout doc) → Unknown loads r
  ready : ∀ stdout rc rc' res, agentStatus loads stdout rc = .ok res → res.ready = true →
    (classifyOn loads stdout rc').held = some true

/-- Whatever `cs-agent` answers over the retries. -/
theorem hold_judged (loads : Text → Option Json) (retries : ℕ) (calls : ℕ → Registered) :
    hold loads retries calls ≠ [] ∧ Judged loads (hold loads retries calls) := by
  refine ⟨hold_ne_nil retries calls, ?_, ?_, ?_, ?_⟩
  · intro before r after hsplit hafter
    exact (repeated_iff r).mp (hold_repeats retries calls hsplit hafter)
  · intro last _
    exact ok_iff last
  · intro r hnone
    exact unknown_of_other hnone
  · intro stdout rc rc' res hstatus hready
    exact held_of_ready hstatus hready

end Provisioner.NodeUpgrade.HoldLoop
