import Provisioner.Library.Among
import Provisioner.Library.Text

/-!
# The agent's token

`cs_agent` as far as it writes the token's hash to `agent.yml`, under the tags
a run selects. `include_tasks` keeps its tags to itself: the tasks of the file
it includes have none.
-/

namespace Provisioner.CsAgent.Enroll

open Play Text

/-! ## Tags -/

/-- `--tags` and `--skip-tags` -/
structure Selection where
  tags : List Text := ["all"]
  skipTags : List Text := []
deriving DecidableEq, Repr

/-- Whether ansible runs a task with these tags; one without any counts as `untagged`. -/
def selected (sel : Selection) (tags : List Text) : Bool :=
  let all : Text := "all"
  let always : Text := "always"
  let never : Text := "never"
  let tagged : Text := "tagged"
  let own : List Text := if tags = [] then ["untagged"] else tags
  let runs := sel.tags = [] || always ∈ own || (all ∈ sel.tags && never ∉ own) ||
    sel.tags.any (· ∈ own) || (tagged ∈ sel.tags && tags ≠ [] && never ∉ own)
  let skips :=
    if all ∈ sel.skipTags then always ∉ own || always ∈ sel.skipTags
    else sel.skipTags.any (· ∈ own) || (tagged ∈ sel.skipTags && tags ≠ [])
  runs && !skips

/-! ## The role -/

structure Site where
  head : Text
  tail : Text
deriving DecidableEq, Repr

def Site.agentYml (site : Site) (hash : Text) : Text :=
  site.head ++ "  admin_token_hash: \"" ++ hash ++ "\"\n" ++ site.tail

def isHex (c : Char) : Bool := c.isDigit || ('a' ≤ c && c ≤ 'f')

/-- `match('^[0-9a-f]{64}$')`, on a text without a last line break. -/
def isHash (t : Text) : Bool := t.length = 64 && t.all isHex

/-- `admin_token_hash:[ "\x27]*([0-9a-f]{64})`, here. -/
def hashHere (t : Text) : Option Text :=
  let key : Text := "admin_token_hash:"
  if startswith t key then
    let hash := ((t.drop key.length).dropWhile (· ∈ [' ', '"', '\''])).take 64
    if isHash hash then some hash else none
  else none

/-- The first of `regex_findall`. -/
def firstHash : Text → Option Text
  | [] => none
  | c :: rest => (hashHere (c :: rest)).or (firstHash rest)

structure Machine where
  agentYml : Option Text := none
deriving DecidableEq, Repr

structure Facts where
  sel : Selection := {}
  csAgentAdminTokenHash : Text := []
  csAgentExistingConfig : Bool := false
  csAgentExistingConfigContent : Text := []
  csAgentEnrollResult : List Text := []
deriving DecidableEq, Repr

structure Host where
  machine : Machine := {}
  facts : Facts := {}
deriving DecidableEq, Repr

structure Reply where
  outcome : Outcome := .ok
  half : Bool := false
  stdoutLines : List Text := []
deriving DecidableEq, Repr

instance : Answer Reply := ⟨Reply.outcome, Reply.half⟩

abbrev Item := Play.Item Host Reply

def registers (f : Reply → Host → Facts) : Item := observes fun r s => { s with facts := f r s }

def enrollTags : List Text := ["enroll"]

def untagged (items : List Item) : Item := .incl (fun s => selected s.facts.sel []) items

def taggedEnroll (items : List Item) : Item := .incl (fun s => selected s.facts.sel enrollTags) items

def readTokenHash : List Item :=
  [untagged [registers fun _ s => { s.facts with
      csAgentExistingConfig := s.machine.agentYml.isSome }],
    untagged [.incl (fun s => s.facts.csAgentExistingConfig) [registers fun _ s => { s.facts with
      csAgentExistingConfigContent := s.machine.agentYml.getD [] }]],
    untagged [.incl (fun s => s.facts.csAgentExistingConfig) [registers fun _ s => { s.facts with
      csAgentAdminTokenHash :=
        (firstHash s.facts.csAgentExistingConfigContent).getD [] }]]]

def enrollHash (s : Host) : Text := strip (s.facts.csAgentEnrollResult.getLast?.getD [])

/-- `enroll.yml`: the controller is asked for the hash it has. -/
def enroll : List Item :=
  [untagged [registers fun r s => { s.facts with csAgentEnrollResult := r.stdoutLines }],
    untagged [gate fun s => !s.facts.csAgentEnrollResult.isEmpty && isHash (enrollHash s)],
    untagged [registers fun _ s => { s.facts with csAgentAdminTokenHash := enrollHash s }]]

def deploy (site : Site) : Item :=
  acts fun _ s => { s with machine :=
    { agentYml := some (site.agentYml s.facts.csAgentAdminTokenHash) } }

def main (site : Site) : List Item :=
  [untagged [command, command, command], taggedEnroll readTokenHash, taggedEnroll enroll,
    taggedEnroll [deploy site], untagged [command]]

/-- A run under a choice of tags, with the variables it renders from. -/
structure Run where
  sel : Selection
  site : Site
deriving DecidableEq, Repr

def system : Play.System Host Reply Run Empty where
  boot run s := { machine := s.machine, facts := { sel := run.sel } }
  play run := main run.site
  outside e _ := e.elim

/-! ## The hash on the node -/

section

variable (sites : Site → Prop)

/-- `agent.yml` is what one of the sites renders around a hash. -/
def Usable (m : Machine) : Prop :=
  ∃ site hash, sites site ∧ isHash hash = true ∧ m.agentYml = some (site.agentYml hash)

abbrev Leads (P : Host → Prop) (items : List Item) (Q : Host → Prop) : Prop :=
  Play.Leads (fun s => Usable sites s.machine) (fun _ _ => True) (fun _ => trivial) P items Q

end

variable {sites : Site → Prop} {site : Site} {sel : Selection} {P Q : Host → Prop}

theorem leads_registers {f : Reply → Host → Facts}
    (h : ∀ r s, P s → Q { s with facts := f r s }) : Leads sites P [registers f] Q :=
  leads_observes fun s r hinv hs => ⟨hinv, trivial, h r s hs⟩

def Of (sel : Selection) (s : Host) : Prop := s.facts.sel = sel

theorem untagged_of {items : List Item} (h : Leads sites (Of sel) items (Of sel)) :
    Leads sites (Of sel) [untagged items] (Of sel) :=
  Triple.incl (h.pre fun _ _ hs => hs.1) fun _ _ hs _ => hs

theorem untagged_runs {items : List Item} (hsel : selected sel [] = true)
    (hP : ∀ s, P s → Of sel s) (h : Leads sites P items Q) : Leads sites P [untagged items] Q :=
  Triple.incl_true h fun s hs => by rw [hP s hs, hsel]

theorem tagged_runs {items : List Item} (hsel : selected sel enrollTags = true)
    (hP : ∀ s, P s → Of sel s) (h : Leads sites P items Q) : Leads sites P [taggedEnroll items] Q :=
  Triple.incl_true h fun s hs => by rw [hP s hs, hsel]

theorem commands_of : Leads sites (Of sel) [untagged [command, command, command]] (Of sel) :=
  untagged_of (leads_command.cons (leads_command.cons leads_command))

theorem readTokenHash_of : Leads sites (Of sel) readTokenHash (Of sel) := by
  have hthere {f : Reply → Host → Facts} (h : Leads sites (Of sel) [registers f] (Of sel)) :
      Leads sites (Of sel) [.incl (fun s => s.facts.csAgentExistingConfig) [registers f]]
        (Of sel) :=
    Triple.incl (h.pre fun _ _ hs => hs.1) fun _ _ hs _ => hs
  refine Triple.cons (untagged_of ?_) (Triple.cons (untagged_of (hthere ?_))
    (untagged_of (hthere ?_)))
  · exact leads_registers fun _ _ hs => hs
  · exact leads_registers fun _ _ hs => hs
  · exact leads_registers fun _ _ hs => hs

theorem enroll_hashed (hsel : selected sel [] = true) :
    Leads sites (Of sel) enroll
      fun s => Of sel s ∧ isHash s.facts.csAgentAdminTokenHash = true := by
  have hquery : Leads sites (Of sel) [untagged [registers fun r s => { s.facts with
      csAgentEnrollResult := r.stdoutLines }]] (Of sel) :=
    untagged_of (leads_registers fun _ _ hs => hs)
  have hassert : Leads sites (Of sel) [untagged [gate fun s =>
      !s.facts.csAgentEnrollResult.isEmpty && isHash (enrollHash s)]]
        fun s => Of sel s ∧ isHash (enrollHash s) = true := by
    apply untagged_runs hsel fun _ hs => hs
    exact leads_gate fun s _ hs hc => ⟨hs, (Bool.and_eq_true_iff.mp hc).2⟩
  have huse : Leads sites (fun s => Of sel s ∧ isHash (enrollHash s) = true)
      [untagged [registers fun _ s => { s.facts with csAgentAdminTokenHash := enrollHash s }]]
        fun s => Of sel s ∧ isHash s.facts.csAgentAdminTokenHash = true :=
    untagged_runs hsel (fun _ hs => hs.1) (leads_registers fun _ _ hs => hs)
  exact hquery.cons (hassert.cons huse)

/-- `agent.yml` is written, but nothing that finds a hash runs. -/
def blanks (sel : Selection) : Bool := selected sel enrollTags && !selected sel []

theorem main_keeps (h : blanks sel = false) (hsite : sites site) :
    Leads sites (Of sel) (main site) (Of sel) := by
  have hstart : Leads sites (Of sel) [untagged [command]] (Of sel) := untagged_of leads_command
  cases henroll : selected sel enrollTags with
  | false =>
    have hskip (items : List Item) : Leads sites (Of sel) [taggedEnroll items] (Of sel) :=
      Triple.incl_false fun s hs => by rw [hs, henroll]
    exact commands_of.cons ((hskip _).cons ((hskip _).cons ((hskip _).cons hstart)))
  | true =>
    have huntagged : selected sel [] = true := by
      rwa [blanks, henroll, Bool.true_and, Bool.not_eq_false'] at h
    have hdeploy : Leads sites
        (fun s => Of sel s ∧ isHash s.facts.csAgentAdminTokenHash = true) [deploy site]
          (Of sel) :=
      leads_acts fun s _ _ hs => ⟨⟨site, _, hsite, hs.2, rfl⟩, trivial, hs.1⟩
    exact commands_of.cons ((tagged_runs henroll (fun _ hs => hs) readTokenHash_of).cons
      ((tagged_runs henroll (fun _ hs => hs) (enroll_hashed huntagged)).cons
        ((tagged_runs henroll (fun _ hs => hs.1) hdeploy).cons hstart)))

theorem blank_unusable {m : Machine} (h : m = ⟨some (site.agentYml [])⟩) :
    ¬ Usable (· = site) m := by
  rintro ⟨_, hash, rfl, hhash, heq⟩
  rw [h] at heq
  have hlength : hash.length = 64 := by
    rw [isHash, Bool.and_eq_true, decide_eq_true_eq] at hhash
    exact hhash.1
  have hsame := congrArg List.length (Option.some.inj heq)
  simp only [Site.agentYml, List.length_append, List.length_nil] at hsame
  omega

/-- A run that blanks comes to its end with a blank. -/
theorem blanks_run (h : blanks sel = true) (s : Host) :
    (system.run (.start ⟨sel, site⟩ :: List.replicate 12 (.tick {})) ⟨s, []⟩).state.machine =
      ⟨some (site.agentYml [])⟩ := by
  rw [blanks, Bool.and_eq_true, Bool.not_eq_true'] at h
  obtain ⟨henroll, huntagged⟩ := h
  simp [System.run, System.step, Play.tick, List.replicate, system, main, untagged, taggedEnroll,
    readTokenHash, enroll, deploy, acts, tries, Answer.outcome, henroll, huntagged]

/-- Runs under the same tags leave a node a hash, wherever they fail or are cut, exactly
where they do not write `agent.yml` without the tasks that find the hash; where they do,
what they write has none. -/
theorem token_kept_iff (sel : Selection) :
    ((∀ (sites : Site → Prop) (s : Host) (moves : List (Move Reply Run Empty)),
        Usable sites s.machine → (∀ run, .start run ∈ moves → run.sel = sel ∧ sites run.site) →
          Usable sites (system.run moves ⟨s, []⟩).state.machine) ↔ blanks sel = false) ∧
      (blanks sel = true → ∀ (site : Site) (s : Host),
        (system.run (.start ⟨sel, site⟩ :: List.replicate 12 (.tick {})) ⟨s, []⟩).state.machine =
          ⟨some (site.agentYml [])⟩) := by
  refine ⟨⟨fun hkept => ?_, fun hblanks sites s moves hs hmoves => ?_⟩,
    fun hblanks site s => blanks_run hblanks s⟩
  · by_contra hblanks
    have hzeros : Usable (· = ⟨[], []⟩) ⟨some (Site.agentYml ⟨[], []⟩ (List.replicate 64 '0'))⟩ :=
      ⟨_, _, rfl, by decide, rfl⟩
    refine blank_unusable (blanks_run (Bool.not_eq_false _ ▸ hblanks) ⟨_, {}⟩)
      (hkept (· = ⟨[], []⟩) ⟨_, {}⟩ _ hzeros fun run hrun => ?_)
    rw [List.mem_cons, Move.start.injEq] at hrun
    obtain rfl := hrun.resolve_right fun hmem => nomatch List.eq_of_mem_replicate hmem
    exact ⟨rfl, rfl⟩
  · have hstart : System.Good (Contract.alone (fun s : Host => Usable sites s.machine)
        (fun _ _ => True) fun _ => trivial) (⟨s, []⟩ : World Host Reply) :=
      ⟨hs, safe_nil s⟩
    refine (System.good_run_of_allowed
      (p := fun m => ∀ run, m = .start run → run.sel = sel ∧ sites run.site) ?_ ?_ hstart ?_).1
    · intro run hrun t hinv
      obtain ⟨hsel, hsite⟩ := hrun run rfl
      exact ⟨hinv, (main_keeps hblanks hsite).safe hsel⟩
    · exact fun e => e.elim
    · exact fun m hm run hrun => hmoves run (hrun ▸ hm)

def enrolledSite : Site := ⟨"metadata:\n  listen_addr: \"10.0.0.1:8500\"\n", "\n"⟩

def enrolled : Host where
  machine := { agentYml := some (enrolledSite.agentYml (List.replicate 64 'a')) }

/-- `--tags enroll`, which is to enroll a node anew. -/
theorem token_blanked_enroll :
    (system.run (.start ⟨{ tags := ["enroll"] }, enrolledSite⟩ :: List.replicate 12 (.tick {}))
      ⟨enrolled, []⟩).state.machine = ⟨some (enrolledSite.agentYml [])⟩ :=
  (token_kept_iff { tags := ["enroll"] }).2 (by decide) enrolledSite enrolled

example : blanks {} = false ∧ blanks { skipTags := ["enroll"] } = false := by decide

end Provisioner.CsAgent.Enroll
