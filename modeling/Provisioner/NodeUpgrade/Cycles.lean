import Provisioner.NodeUpgrade.Window

/-!
# The hold and the docker upgrade

A fresh run takes the hold and opens a state file, a resumed one finds both.
From there the upgrade goes through the phases of its plan, each at most once.
-/

namespace Provisioner.NodeUpgrade

open Play (Stable)
open Tasks

variable {c : Course} {book : Playbook}

/-! ## Loading the state and taking the hold -/

def Unused (book : Playbook) (facts : Facts) (_ : UpgradeState) : Prop :=
  facts.vars.playbook = book ∧ facts.maintainDecision = none

structure Fresh (book : Playbook) (s : Host) : Prop where
  file : s.node.stateFile = none
  resume : s.facts.resume = false
  state : s.facts.state = {}
  done : s.facts.phasesDone = []
  unused : Unused book s.facts {}

instance : Under (Fresh book) where
  lasting := lasting_of_outside fun _ o _ hs =>
    ⟨by cases o <;> exact hs.file, hs.resume, hs.state, hs.done, hs.unused⟩
  kept _ hs _ hf := by cases hs.file.symm.trans hf
  entered _ hs := Node.entered_of_none hs.file

def Resumed (book : Playbook) (s : Host) : Prop :=
  (∃ f, Known s f ∧ Unused book s.facts f) ∧ s.facts.resume = true

instance : Point (Resumed book) where
  lasting := lasting_of_outside fun _ o _ ⟨⟨f, hknown, hunused⟩, hresume⟩ =>
    ⟨⟨f, hknown.outside o, hunused⟩, hresume⟩
  kept _ := fun ⟨⟨_, hknown, _⟩, _⟩ => hknown.kept

theorem Resumed.reads {s : Host} {facts : Facts} (hs : Resumed book s)
    (hsame : facts.vars = s.facts.vars ∧ facts.state = s.facts.state ∧
      facts.phasesDone = s.facts.phasesDone) (hresume : facts.resume = s.facts.resume)
    (hdecision : facts.maintainDecision = s.facts.maintainDecision) :
    Resumed book { s with facts := facts } := by
  obtain ⟨⟨f, hknown, hunused⟩, hresumed⟩ := hs
  exact ⟨⟨f, hknown.reads hsame, (congrArg Vars.playbook hsame.1).trans hunused.1,
    hdecision.trans hunused.2⟩, hresume.trans hresumed⟩

def Loaded (book : Playbook) (s : Host) : Prop := Fresh book s ∨ Resumed book s

instance : Point (Loaded book) where
  lasting := lasting_of_outside fun s o hok hs => by
    rcases hs with hs | hs
    · exact .inl (Point.lasting.stable s _ hok ⟨o, rfl⟩ hs)
    · exact .inr (Point.lasting.stable s _ hok ⟨o, rfl⟩ hs)
  kept s hs := by
    rcases hs with hs | hs
    · exact Point.kept s hs
    · exact Point.kept s hs

theorem Loaded.reads {s : Host} {facts : Facts} (hs : Loaded book s)
    (hsame : facts.vars = s.facts.vars ∧ facts.state = s.facts.state ∧
      facts.phasesDone = s.facts.phasesDone) (hresume : facts.resume = s.facts.resume)
    (hdecision : facts.maintainDecision = s.facts.maintainDecision) :
    Loaded book { s with facts := facts } := by
  rcases hs with hs | hs
  · exact .inl ⟨hs.file, hresume.trans hs.resume, hsame.2.1.trans hs.state,
      hsame.2.2.trans hs.done, (congrArg Vars.playbook hsame.1).trans hs.unused.1,
      hdecision.trans hs.unused.2⟩
  · exact .inr (hs.reads hsame hresume hdecision)

/-- A fresh run has seen that nobody held the node, and asked `k` times since. -/
def Found (k : ℕ) (s : Host) : Prop :=
  s.node.Asked k ∧ s.node.Later s.facts.origin ∧ s.facts.origin.seen ≤ s.node.history.placed

theorem Found.place {k : ℕ} {s : Host} (h : Found k s) {holder : Holder}
    (hholder : holder = .byHand ∨ holder = .run s.facts.origin.run) :
    Found k { s with node := s.node.place holder } := by
  obtain ⟨hasked, -, hseen⟩ := h
  refine ⟨hasked, ?_, hseen.trans (Nat.le_succ _)⟩
  intro hold hhold
  cases hhold
  exact ⟨hseen, hholder⟩

instance {k : ℕ} : Lasting (Found k) := lasting_of_outside fun s o _ h => by
  cases o with
  | maintenanceOn => exact h.place (.inl rfl)
  | maintenanceOff => exact ⟨h.1, fun _ hhold => (nomatch hhold), h.2.2⟩
  | time elapsed => exact h
  | dockerStarts => exact h
  | nodeReboots => exact h
  | rebootAsked => exact h

def FoundSome (s : Host) : Prop := ∃ k, Found k s

instance : Lasting FoundSome := lasting_of_outside fun s o hok ⟨k, h⟩ =>
  ⟨k, (inferInstance : Lasting (Found k)).stable s _ hok ⟨o, rfl⟩ h⟩

def FoundIfUnheld (s : Host) : Prop :=
  s.facts.holdStatus.rc = 0 ∧ s.facts.holdStatus.shape = .status →
    s.facts.holdStatus.held = false → FoundSome s

instance : Lasting FoundIfUnheld := lasting_of_outside fun s o hok h hdoc hheld =>
  (inferInstance : Lasting FoundSome).stable s _ hok ⟨o, rfl⟩ (h hdoc hheld)

theorem fresh_maintenanceOn {k : ℕ} {s : Host} (r : Reply) (hs : Fresh book s) (hk : Found k s) :
    Legal s.node (maintenanceOn r s).node ∧ Fresh book (maintenanceOn r s) ∧
      Found (k + 1) (maintenanceOn r s) := by
  obtain ⟨older, hlog⟩ := hk.1
  have hnoted : ∀ n : Node, n.history.log = s.node.history.log → (n.note .on).Asked (k + 1) :=
    fun n hn => ⟨older, by rw [Node.note, hn, hlog]; rfl⟩
  by_cases hplace : (r.places && !(s.node.hold.isSome && r.keeps)) = true
  · have hplaced : Found k { s with node := s.node.place (.run s.facts.origin.run) } :=
      hk.place (.inr rfl)
    simp only [maintenanceOn, if_pos hplace]
    exact ⟨.on k s.facts.origin.run _ hs.file hk.1 (.inr rfl),
      ⟨hs.file, hs.resume, hs.state, hs.done, hs.unused⟩, hnoted _ rfl, hplaced.2.1, hplaced.2.2⟩
  · simp only [maintenanceOn, if_neg hplace]
    exact ⟨.on k 0 _ hs.file hk.1 (.inl rfl),
      ⟨hs.file, hs.resume, hs.state, hs.done, hs.unused⟩, hnoted _ rfl, hk.2.1, hk.2.2⟩

def FoundAsked (s : Host) : Prop := ∃ k, Found (k + 1) s

instance : Lasting FoundAsked := lasting_of_outside fun s o hok ⟨k, h⟩ =>
  ⟨k, (inferInstance : Lasting (Found (k + 1))).stable s _ hok ⟨o, rfl⟩ h⟩

structure Opening (book : Playbook) (s : Host) : Prop where
  file : s.node.stateFile = none
  state : s.facts.state = { playbook := some book, phasesDone := [.held] }
  done : s.facts.phasesDone = [.held]
  unused : Unused book s.facts {}

instance : Under (Opening book) where
  lasting := lasting_of_outside fun _ o _ hs =>
    ⟨by cases o <;> exact hs.file, hs.state, hs.done, hs.unused⟩
  kept _ hs _ hf := by cases hs.file.symm.trans hf
  entered _ hs := Node.entered_of_none hs.file

theorem runs_takeHold :
    Runs (fun s => Fresh book s ∧ FoundIfUnheld s ∧
      s.facts.holdStatus.rc = 0 ∧ s.facts.holdStatus.shape = .status) takeHold
        (At (Unused book)) := by
  have : Lasting fun s => FoundIfUnheld s ∧
      s.facts.holdStatus.rc = 0 ∧ s.facts.holdStatus.shape = .status :=
    lasting_of_outside fun s o hok hs =>
      ⟨(inferInstance : Lasting FoundIfUnheld).stable s _ hok ⟨o, rfl⟩ hs.1, hs.2⟩
  have hunheld : Runs (fun s => Fresh book s ∧ FoundIfUnheld s ∧
      s.facts.holdStatus.rc = 0 ∧ s.facts.holdStatus.shape = .status)
      [gate fun s => !s.facts.holdStatus.held] (fun s => Fresh book s ∧ FoundSome s) := by
    apply runs_gate
    rintro s - ⟨hs, hfound, hdoc⟩ hheld
    exact ⟨hs, hfound hdoc (by simpa using hheld)⟩
  have hdocker : Runs (fun s => Fresh book s ∧ FoundSome s)
      [reads fun r s => { s.facts with holdDockerInfo := r.dockerAnswers }]
      (fun s => Fresh book s ∧ FoundSome s) := by
    apply runs_reads
    rintro s r - ⟨hs, hfound⟩
    exact ⟨⟨hs.file, hs.resume, hs.state, hs.done, hs.unused⟩, hfound⟩
  have hon : Runs (fun s => Fresh book s ∧ FoundSome s) [retries maintenanceOn]
      (fun s => Fresh book s ∧ FoundAsked s) := by
    apply runs_retries
    rintro s r - ⟨hs, k, hk⟩
    obtain ⟨hlegal, hs', hk'⟩ := fresh_maintenanceOn r hs hk
    exact ⟨hlegal, ⟨hs', k + 1, hk'⟩, hs', k, hk'⟩
  have hmark : Runs (fun s => Fresh book s ∧ FoundAsked s)
      [reads fun _ s => mark .held (fun facts state =>
        { state with playbook := some facts.vars.playbook, recorded := [], acceptDown := [] })
          s.facts] (fun s => Opening book s ∧ FoundAsked s) := by
    apply runs_reads
    rintro s r - ⟨hs, hfound⟩
    refine ⟨⟨hs.file, ?_, ?_, hs.unused⟩, hfound⟩
    · simp only [mark, hs.state, hs.unused.1]
      rfl
    · simp only [mark, hs.state]
      rfl
  have hwrite : Runs (fun s => Opening book s ∧ FoundAsked s) [acts fun _ s => writeState s]
      (At (Unused book)) := by
    apply runs_acts
    rintro s r - ⟨hs, k, hasked, hlater, hseen⟩
    have hopen : writeState s =
        { s with node := (s.node.openLife s.facts.state s.facts.origin).note .opened } := by
      rw [writeState, hs.file]
    rw [hopen, hs.state]
    have hlegal := Legal.opened k s.facts.origin book hs.file hasked hlater hseen
    refine ⟨hlegal, _, ⟨⟨rfl, hs.state, hs.done, ?_⟩,
      (Node.entered_of_none hs.file).legal hlegal⟩, hs.unused⟩
    exact hs.unused.1.symm
  exact (hunheld.cons (runs_gate (fun _ _ hs _ => hs) |>.cons (hdocker.cons
    (runs_gate (fun _ _ hs _ => hs) |>.cons (hon.cons (runs_gate fun _ _ hs _ => hs)))))).append
      (hmark.cons (runs_command.cons (runs_command.cons hwrite)))

def FoundIfHeld (s : Host) : Prop :=
  s.facts.holdStatus.rc = 0 → s.facts.holdStatus.shape = .status →
    s.facts.holdStatus.held = true → .foundHeld ∈ s.node.run

instance : Lasting FoundIfHeld := lasting_of_outside fun s o _ hs hrc hshape hheld => by
  have hfound := hs hrc hshape hheld
  cases o <;> exact hfound

theorem guar_readHoldStatus {r : Reply} {s : Host} (hresume : s.facts.resume = true) :
    contract.guar s (readHoldStatus r s) ∧ FoundIfHeld (readHoldStatus r s) ∧
      (readHoldStatus r s).node.stateFile = s.node.stateFile := by
  have hskip : ¬ ((!s.facts.resume) = true ∧ (s.node.maintenanceStatus r).rc = 0 ∧
      (s.node.maintenanceStatus r).shape = .status ∧
        (!(s.node.maintenanceStatus r).held) = true) := by simp [hresume]
  by_cases hheld : s.facts.resume = true ∧ (s.node.maintenanceStatus r).rc = 0 ∧
      (s.node.maintenanceStatus r).shape = .status ∧
        (s.node.maintenanceStatus r).held = true
  · simp only [readHoldStatus, if_neg hskip, if_pos hheld]
    refine ⟨⟨.foundHeld hheld.2.2.2, fun hgo => ?_⟩, fun _ _ _ => ?_, rfl⟩
    · exact absurd hgo (not_proceeds_note (e := .foundHeld) rfl rfl (.inl rfl))
    · simp [Node.run, Node.note]
  · simp only [readHoldStatus, if_neg hskip, if_neg hheld]
    refine ⟨contract.guar_refl s, fun hrc hshape hstatus => ?_, trivial⟩
    exact absurd ⟨hresume, hrc, hshape, hstatus⟩ hheld

theorem runs_hold_resumed : Runs (Resumed book) hold (At (Unused book)) := by
  have hread : Runs (Resumed book) [observes readHoldStatus]
      (fun s => Resumed book s ∧ FoundIfHeld s) := by
    refine runs_observes_of fun s r _ hs => ?_
    obtain ⟨hguar, hfound, hfile⟩ := guar_readHoldStatus (r := r) hs.2
    obtain ⟨⟨f, hknown, hunused⟩, hresume⟩ := hs
    have hfacts : (readHoldStatus r s).facts =
        { s.facts with holdStatus := s.node.maintenanceStatus r } := by
      have hskip : ¬ ((!s.facts.resume) = true ∧ (s.node.maintenanceStatus r).rc = 0 ∧
          (s.node.maintenanceStatus r).shape = .status ∧
            (!(s.node.maintenanceStatus r).held) = true) := by simp [hresume]
      simp only [readHoldStatus, if_neg hskip]
    refine ⟨hguar, ⟨⟨f, ⟨hfile.trans hknown.file, ?_, ?_, ?_⟩, ?_⟩, ?_⟩, hfound⟩
    all_goals rw [hfacts]
    · exact hknown.state
    · exact hknown.done
    · exact hknown.owner
    · exact hunused
    · exact hresume
  have hdoc : Lasting fun s => s.facts.holdStatus.rc = 0 ∧ s.facts.holdStatus.shape = .status :=
    lasting_of_outside fun _ _ _ hs => hs
  have hgate : Runs (fun s => Resumed book s ∧ FoundIfHeld s)
      [gate fun s => s.facts.holdStatus.rc = 0 && s.facts.holdStatus.shape = .status]
      (fun s => (Resumed book s ∧ FoundIfHeld s) ∧
        s.facts.holdStatus.rc = 0 ∧ s.facts.holdStatus.shape = .status) := by
    refine runs_gate fun s _ hs hstatus => ⟨hs, ?_⟩
    simpa using hstatus
  have hheld : Runs (fun s => (Resumed book s ∧ FoundIfHeld s) ∧
        s.facts.holdStatus.rc = 0 ∧ s.facts.holdStatus.shape = .status)
      [gate fun s => s.facts.holdStatus.held || decide (.released ∈ s.facts.phasesDone) ||
        s.facts.state.releasing] (fun s => At (Unused book) s ∧ s.facts.resume = true) := by
    apply runs_gate
    rintro s - ⟨⟨⟨⟨f, hknown, hunused⟩, hresume⟩, hfound⟩, hrc, hshape⟩ hpass
    refine ⟨⟨f, ⟨hknown, ?_⟩, hunused⟩, hresume⟩
    rw [Bool.or_eq_true, Bool.or_eq_true, decide_eq_true_eq, hknown.done, hknown.state] at hpass
    have hsame : ∀ g, s.node.stateFile = some g → g = f :=
      fun g hg => Option.some.inj (hg.symm.trans hknown.file)
    rcases hpass with (hstatus | hreleased) | hreleasing
    · exact .inr (.inl (hfound hrc hshape hstatus))
    · exact .inr (.inr fun g hg => .inl (hsame g hg ▸ hreleased))
    · exact .inr (.inr fun g hg => .inr (hsame g hg ▸ hreleasing))
  have : Lasting fun s => s.facts.resume = true := lasting_of_outside fun _ _ _ hs => hs
  refine hread.cons (hgate.cons ((hheld.incl_true fun s hs => hs.1.1.2).cons ?_))
  refine (Play.Triple.incl_false fun s hs => ?_).post fun _ _ hs => hs.1
  rw [hs.2]
  rfl

theorem runs_hold : Runs (Loaded book) hold (At (Unused book)) := by
  have hfresh : Runs (Fresh book) hold (At (Unused book)) := by
    have : Lasting fun s => FoundIfUnheld s ∧
        s.facts.holdStatus.rc = 0 ∧ s.facts.holdStatus.shape = .status :=
      lasting_of_outside fun s o hok hs =>
        ⟨(inferInstance : Lasting FoundIfUnheld).stable s _ hok ⟨o, rfl⟩ hs.1, hs.2⟩
    have hread : Runs (Fresh book) [observes readHoldStatus]
        (fun s => Fresh book s ∧ FoundIfUnheld s) := by
      apply runs_observes
      intro s r _ hs
      by_cases hnone : (!s.facts.resume) = true ∧ (s.node.maintenanceStatus r).rc = 0 ∧
          (s.node.maintenanceStatus r).shape = .status ∧
            (!(s.node.maintenanceStatus r).held) = true
      · have hhold : s.node.hold = none := by simpa [Node.maintenanceStatus] using hnone.2.2.2
        simp only [readHoldStatus, if_pos hnone]
        refine ⟨.sawNone hs.file hhold, ⟨hs.file, hs.resume, hs.state, hs.done, hs.unused⟩, ?_⟩
        refine fun _ _ => ⟨0, ⟨s.node.history.log, rfl⟩, fun h hh => ?_, le_refl _⟩
        cases hh.symm.trans hhold
      · have hnew : ¬ (s.facts.resume = true ∧ (s.node.maintenanceStatus r).rc = 0 ∧
            (s.node.maintenanceStatus r).shape = .status ∧
              (s.node.maintenanceStatus r).held = true) := by simp [hs.resume]
        simp only [readHoldStatus, if_neg hnone, if_neg hnew]
        refine ⟨.quiet, ⟨hs.file, hs.resume, hs.state, hs.done, hs.unused⟩, ?_⟩
        rintro ⟨hrc, hshape⟩ hheld
        exact absurd ⟨by rw [hs.resume]; rfl, hrc, hshape, by rw [hheld]; rfl⟩ hnone
    have hgate : Runs (fun s => Fresh book s ∧ FoundIfUnheld s)
        [gate fun s => s.facts.holdStatus.rc = 0 && s.facts.holdStatus.shape = .status]
        (fun s => Fresh book s ∧ FoundIfUnheld s ∧
          s.facts.holdStatus.rc = 0 ∧ s.facts.holdStatus.shape = .status) := by
      apply runs_gate
      rintro s - ⟨hs, hfound⟩ hdoc
      exact ⟨hs, hfound, by simpa using hdoc⟩
    refine hread.cons (hgate.cons (Play.Triple.cons (Play.Triple.incl_false fun s hs => ?_) ?_))
    · exact hs.1.resume
    · exact runs_takeHold.incl_true fun s hs => by rw [hs.1.resume]; rfl
  have hresumed : Runs (Resumed book) hold (At (Unused book)) := runs_hold_resumed
  refine Play.Triple.cases (R := fun b : Bool => if b then Fresh book else Resumed book) ?_ ?_
  · rintro (_ | _)
    · exact hresumed
    · exact hfresh
  · rintro s - (hs | hs)
    · exact ⟨true, hs⟩
    · exact ⟨false, hs⟩

/-! ## The preflight, before anything can be rescued -/

theorem reads_freely {P Q : Host → Prop} [Lasting P] {f : Reply → Host → Facts}
    (h : ∀ s r, P s → Q { s with facts := f r s }) :
    Play.Triple contract P [reads f] Q fun _ => True := by
  apply Play.Triple.task
  intro s r _ hs
  cases r.outcome with
  | ok => exact ⟨contract.guar_refl s, h s r hs⟩
  | again => exact ⟨contract.guar_refl s, hs⟩
  | failed => exact ⟨contract.guar_refl s, trivial⟩

theorem gate_freely {P Q : Host → Prop} [Lasting P] {cond : Host → Bool}
    (h : ∀ s, P s → cond s = true → Q s) :
    Play.Triple contract P [gate cond] Q fun _ => True := by
  apply Play.Triple.task
  intro s r _ hs
  cases hcond : cond s with
  | true =>
    refine ⟨contract.guar_refl s, ?_⟩
    rw [if_pos rfl]
    exact h s hs hcond
  | false => exact ⟨contract.guar_refl s, trivial⟩

theorem runs_freely {P Q F : Host → Prop} {items : List Item}
    (h : Play.Triple contract P items Q F) : Play.Triple contract P items Q fun _ => True :=
  h.conseq (fun _ _ hs => hs) (fun _ _ hs => hs) fun _ _ _ => trivial

def Booted (book : Playbook) (s : Host) : Prop := Unused book s.facts {}

instance : Lasting (Booted book) := lasting_of_outside fun _ _ _ hs => hs

structure Parsed (book : Playbook) (s : Host) : Prop where
  booted : Booted book s
  resume : s.facts.resume = s.node.stateFile.isSome
  state : s.facts.state = s.node.stateFile.getD {}

instance : Lasting (Parsed book) := lasting_of_outside fun _ o _ hs =>
  ⟨hs.booted, by cases o <;> exact hs.resume, by cases o <;> exact hs.state⟩

def Owned (book : Playbook) (s : Host) : Prop :=
  Parsed book s ∧ (s.facts.resume = true → stateOwner s.facts.state = s.facts.vars.playbook)

instance : Lasting (Owned book) := lasting_of_outside fun s o hok hs =>
  ⟨(inferInstance : Lasting (Parsed book)).stable s _ hok ⟨o, rfl⟩ hs.1, hs.2⟩

theorem runs_preflight :
    Play.Triple contract (Booted book) preflight (Loaded book) fun _ => True := by
  have hdrift : Play.Triple contract (Booted book)
      [reads fun r s => { s.facts with driftList := r.drift }] (Booted book) fun _ => True :=
    reads_freely fun _ _ hs => hs
  have hparse : Play.Triple contract (Booted book)
      [reads fun _ s => { s.facts with
        resume := s.node.stateFile.isSome
        state := s.node.stateFile.getD {}
        origin := if s.node.stateFile.isSome then s.node.history.origin else s.facts.origin }]
      (Parsed book) fun _ => True :=
    reads_freely fun _ _ hs => ⟨hs, rfl, rfl⟩
  have howner : Play.Triple contract (Parsed book)
      [gate fun s => !s.facts.resume || stateOwner s.facts.state = s.facts.vars.playbook]
      (Owned book) fun _ => True := by
    apply gate_freely
    intro s hs hc
    refine ⟨hs, fun hresume => ?_⟩
    simpa [hresume] using hc
  have hphases : Play.Triple contract (Owned book)
      [reads fun _ s => { s.facts with phasesDone := s.facts.state.phasesDone }]
      (Loaded book) fun _ => True := by
    apply reads_freely
    rintro s r ⟨⟨hbooted, hresume, hstate⟩, howner⟩
    cases hfile : s.node.stateFile with
    | none =>
      rw [hfile] at hresume hstate
      exact .inl ⟨hfile, hresume, hstate, congrArg UpgradeState.phasesDone hstate, hbooted⟩
    | some f =>
      rw [hfile] at hresume hstate
      have howned : stateOwner f = s.facts.vars.playbook := by
        rw [← show s.facts.state = f from hstate]
        exact howner hresume
      exact .inr ⟨⟨f, ⟨hfile, hstate, congrArg UpgradeState.phasesDone hstate, howned⟩, hbooted⟩,
        hresume⟩
  exact (hdrift.append (hparse.cons (howner.cons hphases))).append
    (runs_freely (runs_command (P := Loaded book)))

/-! ## One phase after another -/

/-- The phases `l` are behind the run. -/
def Past (c : Course) (l : List Phase) (facts : Facts) (f : UpgradeState) : Prop :=
  c.Holds facts f ∧ l ⊆ f.phasesDone

variable {before after : List Phase} {p : Phase} {items : List Item}

theorem next_of_past {s : Host} (hok : Ok s.node) (hc : c.phases = before ++ p :: after)
    (hs : At (Past c before) s) (hp : p ∉ s.facts.phasesDone) : At (Next c before p) s := by
  refine hs.mono fun f hsync h => ?_
  rw [hsync.done] at hp
  obtain ⟨hdone, hdue⟩ :=
    due_of_before (hok.file f hsync.file).planned (h.1.1.trans hc) h.2 hp
  exact ⟨h.1, hdone, hdue⟩

theorem runs_step {cond : Host → Bool} (hc : c.phases = before ++ p :: after)
    (hcond : ∀ s, At (Past c before) s → cond s = true → p ∉ s.facts.phasesDone)
    (hskip : ∀ s, At (Past c before) s → cond s = false →
      ∃ q ∈ p :: after, q ∈ s.facts.phasesDone)
    (hbody : Runs (At (Next c before p)) items (At (Finished c (before ++ [p])))) :
    Runs (At (Past c before)) [.incl cond items] (At (Past c (before ++ [p]))) := by
  apply Play.Triple.incl
  · refine hbody.conseq (fun s hok hs => next_of_past hok hc hs.1 (hcond s hs.1 hs.2)) ?_
      fun _ _ hs => hs
    exact fun s _ hs => hs.mono fun f _ h => ⟨h.1, h.2 ▸ List.Subset.refl _⟩
  · intro s hok hs hfalse
    obtain ⟨q, hq, hqdone⟩ := hskip s hs hfalse
    refine hs.mono fun f hsync h => ⟨h.1, List.append_subset.mpr ⟨h.2, ?_⟩⟩
    refine List.cons_subset.mpr ⟨?_, List.nil_subset _⟩
    by_contra hp
    have hplan : plan f = before ++ p :: after := h.1.1.trans hc
    have hdone : f.phasesDone = before :=
      (due_of_before (hok.file f hsync.file).planned hplan h.2 hp).1
    have hnodup := plan_nodup f
    rw [hplan] at hnodup
    rw [hsync.done, hdone] at hqdone
    exact (List.nodup_append.mp hnodup).2.2 q hqdone q hq rfl

theorem runs_undone (hc : c.phases = before ++ p :: after)
    (hbody : Runs (At (Next c before p)) items (At (Finished c (before ++ [p])))) :
    Runs (At (Past c before)) [.incl (undone p) items] (At (Past c (before ++ [p]))) := by
  apply runs_step hc _ _ hbody
  · intro s _ hundone
    simpa [undone] using hundone
  · intro s _ hdone
    exact ⟨p, List.mem_cons_self, by simpa [undone] using hdone⟩

theorem runs_while_undone (hc : c.phases = before ++ p :: after)
    (hbody : Runs (At (Next c before p)) items (At (Next c before p))) :
    Runs (At (Past c before)) [.incl (undone p) items] (At (Past c before)) := by
  apply Play.Triple.incl
  · refine hbody.conseq (fun s hok hs => next_of_past hok hc hs.1 ?_) ?_ fun _ _ hs => hs
    · simpa [undone] using hs.2
    · exact fun s _ hs => hs.mono fun f _ h => ⟨h.1, h.2.1 ▸ List.Subset.refl _⟩
  · exact fun _ _ hs _ => hs

theorem runs_stop_step (hc : c.phases = before ++ .stopped :: .packages :: after)
    (hstarted : .started ∈ after) :
    Runs (At (Past c before))
      [.incl (fun s => undone .stopped s && undone .packages s && undone .started s) stop]
      (At (Past c (before ++ [.stopped]))) := by
  apply runs_step hc _ _ runs_stop
  · intro s _ hcond
    simp only [Bool.and_eq_true] at hcond
    simpa [undone] using hcond.1.1
  · intro s _ hcond
    simp only [undone, Bool.and_eq_false_iff, decide_eq_false_iff_not, not_not] at hcond
    rcases hcond with (h | h) | h
    · exact ⟨.stopped, by simp, h⟩
    · exact ⟨.packages, by simp, h⟩
    · exact ⟨.started, by simp [hstarted], h⟩

/-! ## upgrade-docker -/

def upgradeCourse : Course :=
  { phases := [.held] ++ stopPlan false ++ [.released]
    book := .upgradeDocker
    decision := none }

theorem runs_cycle : Runs (Loaded .upgradeDocker) [cycle] NoFile := by
  have hdownload : Runs (Loaded .upgradeDocker) [.incl (undone .packages) [command]]
      (Loaded .upgradeDocker) :=
    .incl (runs_command.pre fun _ _ hs => hs.1) fun _ _ hs _ => hs
  have hhold : Runs (Loaded .upgradeDocker) [.incl (fun _ => true) hold]
      (At (Past upgradeCourse [.held])) := by
    refine (runs_hold.incl_true fun _ _ => rfl).post fun s hok hs => hs.mono fun f hsync h => ?_
    have howner : stateOwner f = .upgradeDocker := hsync.owner.trans h.1
    exact ⟨⟨plan_upgrade howner, h⟩,
      List.cons_subset.mpr ⟨(hok.file f hsync.file).held, List.nil_subset _⟩⟩
  have hrelease : Runs (At (Past upgradeCourse ([.held] ++ stopPlan false)))
      [.incl (undone .released) release] (At fun _ f => .released ∈ f.phasesDone) :=
    (@runs_undone upgradeCourse _ [] .released _ rfl runs_release).post fun s _ hs => hs.mono fun f _ h =>
      h.2 (List.mem_append_right _ List.mem_cons_self)
  have hrescue : Runs Kept
      [reads fun _ s => { s.facts with rescueState := s.node.stateFile.isSome },
        gate fun _ => false] NoFile := by
    apply Play.Triple.cons (M := Kept)
    · exact runs_reads fun _ _ _ hs => hs
    · exact runs_gate fun _ _ _ hfalse => (nomatch hfalse)
  refine Play.Triple.block (hdownload.cons (hhold.cons
    ((runs_undone rfl runs_record).cons ((runs_stop_step rfl (by decide)).cons
      ((runs_undone rfl runs_packages).cons ((runs_undone rfl runs_reboot).cons
        ((runs_while_undone rfl runs_services).cons ((runs_undone rfl runs_start).cons
          (hrelease.cons ((runs_archive.incl_true fun _ _ => rfl).cons
            runs_command)))))))))) hrescue

theorem safe_main (vars : Vars) (hbook : vars.playbook = .upgradeDocker) (s : Host) :
    Play.Safe contract (boot vars s) [⟨main, none⟩] := by
  have hpending : Runs (Loaded .upgradeDocker)
      [reads fun _ s => { s.facts with rebootPending := s.node.rebootRequired }]
      (Loaded .upgradeDocker) :=
    runs_reads fun _ _ _ hs => hs.reads ⟨rfl, rfl, rfl⟩ rfl rfl
  have hrun : Runs (Loaded .upgradeDocker)
      [reads fun _ s => { s.facts with
        run := !s.facts.driftList.isEmpty || s.facts.rebootPending || s.facts.resume ||
          s.facts.vars.force }] (Loaded .upgradeDocker) :=
    runs_reads fun _ _ _ hs => hs.reads ⟨rfl, rfl, rfl⟩ rfl rfl
  have hcycle : Runs (Loaded .upgradeDocker) [.incl (fun s => s.facts.run) [cycle]]
      (fun _ => True) :=
    .incl (runs_cycle.conseq (fun _ _ hs => hs.1) (fun _ _ _ => trivial) fun _ _ hs => hs)
      fun _ _ _ _ => trivial
  exact (runs_preflight.append (runs_freely (hpending.cons (hrun.cons hcycle)))).safe
    ⟨hbook, rfl⟩

end Provisioner.NodeUpgrade
