import Provisioner.NodeUpgrade.Reach

/-!
# What is released

Whose hold `cs-agent maintenance off` removes, and what has to be loaded on a
node by then.
-/

namespace Provisioner.NodeUpgrade

variable {n n' : Node} {f : UpgradeState}

instance (n n' : Node) (e : Event) : Decidable (Emits n n' e) :=
  inferInstanceAs (Decidable (n'.history.log = e :: n.history.log))

/-! ## The owner of a hold -/

/-- A hold is taken where there was none, and none is removed that was there
before. -/
structure HoldOwner (n n' : Node) : Prop where
  sawNone : Emits n n' .sawNone → n.stateFile = none ∧ n.hold = none
  on : Emits n n' .on → n.stateFile = none ∧ ∃ k, n.Asked k
  opened : Emits n n' .opened → n.stateFile = none ∧ ∃ k, n.Asked (k + 1)
  off : Emits n n' .off ∨ Emits n n' .autoOff → ∀ h, n.hold = some h →
    n.history.origin.seen ≤ h.serial ∧
      (h.holder = .byHand ∨ h.holder = .run n.history.origin.run)
  foundHeld : Emits n n' .foundHeld → n.hold.isSome = true
  resumed : Proceeds n n' → .opened ∈ n.run ∨ .foundHeld ∈ n.run ∨
    ∃ f, n.stateFile = some f ∧ (.released ∈ f.phasesDone ∨ f.releasing = true)

theorem file_of_proceeds {start : Start} {moves : List Move} {m : Move}
    (h : Proceeds (reach start moves) (reach start (moves ++ [m]))) :
    ∃ f, (reach start moves).stateFile = some f := by
  rcases h with ⟨e, he, hlog⟩ | ⟨f, -, hf, -⟩
  · exact file_ofGuard he (guard_of_emits hlog)
  · exact ⟨f, hf⟩

theorem hold_owner (start : Start) (moves : List Move) (m : Move) :
    HoldOwner (reach start moves) (reach start (moves ++ [m])) where
  sawNone h := guard_of_emits h
  on h := guard_of_emits h
  opened h := guard_of_emits h
  off h := by
    have hfile : ∃ f, (reach start moves).stateFile = some f := by
      rcases h with h | h
      · obtain ⟨f, hf, -⟩ := guard_of_emits h
        exact ⟨f, hf⟩
      · obtain ⟨f, hf, -⟩ := guard_of_emits h
        exact ⟨f, hf⟩
    obtain ⟨f, hf⟩ := hfile
    exact (ok_reach start moves).hold f hf
  foundHeld h := guard_of_emits h
  resumed h := by
    obtain ⟨f, hf⟩ := file_of_proceeds h
    rcases entered_of_proceeds h with hopened | hfound | hgiven
    · exact .inl hopened
    · exact .inr (.inl hfound)
    · exact .inr (.inr ⟨f, hf, hgiven f hf⟩)

def bare : Start := { past := by intro _ _ h; cases h }

def forcedRun : Move := .start { force := true }

def ticks (k : ℕ) : List Move := List.replicate k (.tick {})

/-- Between two runs somebody lifts the hold of the first and places another. -/
def heldAgain : List Move :=
  [forcedRun] ++ ticks 26 ++
    [.interrupt, .outside .maintenanceOff, .outside .maintenanceOn, forcedRun] ++ ticks 86

theorem released_by_hand :
    Emits (reach bare heldAgain) (reach bare (heldAgain ++ [.tick {}])) .off ∧
      (reach bare heldAgain).hold.map Hold.holder = some .byHand := by
  decide +kernel

/-! ## What is loaded by then -/

/-- Every handler has run since the change that notified it, or had its turn and
was declined: the networkd reload, in a run that asks for none. -/
theorem Node.Handled.cases (hn : n.Handled) {h : Handler} (hmem : h ∈ Tasks.reapplied) :
    n.history.pending h = false ∨
      h = .nodeKernelReloadNetworkd ∧ n.history.declined h = true := by
  have hawaits := hn h hmem
  simp only [Node.awaits, Bool.and_eq_false_iff, Bool.not_eq_false', Bool.and_eq_true,
    decide_eq_true_eq] at hawaits
  exact hawaits

/-- Only the networkd reload may be left, declined by its own `when`. -/
structure LoadedAtRelease (n n' : Node) : Prop where
  handlers : Emits n n' .off ∨ Emits n n' .autoOff → ∀ h ∈ Tasks.reapplied,
    n.history.pending h = false ∨
      h = .nodeKernelReloadNetworkd ∧ n.history.declined h = true
  files : Emits n n' .off ∨ Emits n n' .autoOff → n.WrittenLoaded
  maintained : Emits n n' .off → ∀ f, n.stateFile = some f →
    stateOwner f = .maintainNodes → n.Loaded

theorem Ok.loaded_when_due (hok : Ok n) (hf : n.stateFile = some f)
    (howner : stateOwner f = .maintainNodes) (hdue : Due f .released) :
    n.Handled ∧ n.Loaded := by
  have hfile := hok.file f hf
  have hload := hok.load f hf
  have hconverged := hfile.converged_of_released howner (.inl hdue)
  exact ⟨hload.handled hconverged, hload.loaded hfile hconverged (.inl hdue)⟩

theorem Ok.clean_when_due (hok : Ok n) (hf : n.stateFile = some f) (hdue : Due f .released) :
    n.Clean := by
  cases howner : stateOwner f with
  | upgradeDocker =>
    apply (hok.load f hf).fresh
    cases hstarted : f.convergeStarted with
    | false => rfl
    | true =>
      have hmaintained := (hok.file f hf).maintained hstarted
      rw [howner] at hmaintained
      cases hmaintained
  | maintainNodes =>
    obtain ⟨hhandled, hloaded⟩ := hok.loaded_when_due hf howner hdue
    exact ⟨hhandled, Node.writtenLoaded_of_loaded hloaded hok.written⟩

theorem clean_at_release {start : Start} {moves : List Move} {m : Move}
    (h : Emits (reach start moves) (reach start (moves ++ [m])) .off ∨
      Emits (reach start moves) (reach start (moves ++ [m])) .autoOff) :
    (reach start moves).Clean := by
  rcases h with h | h
  · obtain ⟨f, hf, hdue⟩ := guard_of_emits h
    exact (ok_reach start moves).clean_when_due hf hdue
  · obtain ⟨f, hf, -, hfresh⟩ := guard_of_emits h
    exact ((ok_reach start moves).load f hf).fresh hfresh

theorem loaded_at_release (start : Start) (moves : List Move) (m : Move) :
    LoadedAtRelease (reach start moves) (reach start (moves ++ [m])) where
  handlers h _ hmem := (clean_at_release h).1.cases hmem
  files h := (clean_at_release h).2
  maintained h f hf howner := by
    obtain ⟨g, hg, hdue⟩ := guard_of_emits h
    cases hf.symm.trans hg
    exact ((ok_reach start moves).loaded_when_due hf howner hdue).2

def maintainRun : Move := .start { playbook := .maintainNodes }

/-- A run dies after it has written the certificate; the next one never runs the
handler of docker_tls, and restarts dockerd for the newer file. -/
def certificateWritten : List Move :=
  [.outside .dockerStarts, .outside (.time 5000000000), maintainRun] ++ ticks 35 ++
    [.tick { files := [.cert] }, .interrupt, maintainRun] ++ ticks 149

/-- A run that asks for no networkd reload changes the drop-in. -/
def dropInChanged : List Move :=
  [.outside .dockerStarts, .outside (.time 5000000000),
    .start { playbook := .maintainNodes, nodeKernelUplinkRaReload := false }] ++ ticks 36 ++
    [.tick { handlers := [.nodeKernelReloadNetworkd] }] ++ ticks 37

theorem released_with_handler_pending :
    (Emits (reach bare certificateWritten) (reach bare (certificateWritten ++ [.tick {}])) .off ∧
      (reach bare certificateWritten).history.pending .dockerTlsRestartDocker = true) ∧
    Emits (reach bare dropInChanged) (reach bare (dropInChanged ++ [.tick {}])) .off ∧
      (reach bare dropInChanged).history.pending .nodeKernelReloadNetworkd = true := by
  decide +kernel

end Provisioner.NodeUpgrade
