import Provisioner.Library.Dict
import Provisioner.Library.Text
import Mathlib.Data.Set.Function

/-!
# Recorded containers against the current container list

The selection of what is recorded, the matching of recorded entries by id and
by name, the accept-down list, and the start gate that is the last thing a run
checks before the hold is released.
-/

namespace Provisioner.NodeUpgrade

/-- A recorded container, as `state.json` holds it. -/
structure Entry where
  id : Text
  name : Text
deriving DecidableEq, Repr

/-- One row of `docker ps -a` or `docker container inspect`. -/
structure Container where
  id : Text
  name : Text
  running : Bool
  system : Bool := false
deriving DecidableEq, Repr, Inhabited

structure Resolved where
  id : Text
  name : Text
  currentId : Option Text
  running : Bool
  found : Bool
deriving DecidableEq, Repr

def selectRunningTenants (containers : List Container) : List Entry :=
  (containers.filter fun c => c.running && !c.system).map fun c => ⟨c.id, c.name⟩

def byId (ps : List Container) : Text → Option Container := Dict.lastBy Container.id ps

def byName (ps : List Container) : Text → Option Container := Dict.lastBy Container.name ps

def current (ps : List Container) (r : Entry) : Option Container :=
  byId ps r.id <|> byName ps r.name

def resolveEntry (ps : List Container) (r : Entry) : Resolved :=
  let cur := current ps r
  { id := r.id
    name := r.name
    currentId := cur.map Container.id
    running := cur.any Container.running
    found := cur.isSome }

def resolveRecorded (recorded : List Entry) (ps : List Container) : List Resolved :=
  recorded.map (resolveEntry ps)

/-- The value of `-e node_upgrade_accept_down`. -/
inductive AcceptSpec where
  | unset
  | text (spec : Text)
  | items (spec : List Text)
deriving DecidableEq, Repr

def acceptDownList : AcceptSpec → List Text
  | .unset => []
  | .text spec => ((spec.splitOn ',').map Text.strip).filter (· ≠ [])
  | .items spec => (spec.map Text.strip).filter (· ≠ [])

def isAcceptedDown (entry : Resolved) (accepted : List Text) : Bool :=
  accepted.any fun a =>
    a == entry.name ||
      [some entry.id, entry.currentId].any fun cid =>
        match cid with
        | none => false
        | some cid => !cid.isEmpty && 12 ≤ a.length && a.isPrefixOf cid

structure Split where
  required : List Resolved
  accepted : List Resolved
deriving DecidableEq, Repr

def partitionAccepted (entries : List Resolved) (accepted : List Text) : Split :=
  { required := entries.filter fun e => !isAcceptedDown e accepted
    accepted := entries.filter fun e => isAcceptedDown e accepted }

def required (recorded : List Entry) (ps : List Container) (accepted : List Text) :
    List Resolved :=
  (partitionAccepted (resolveRecorded recorded ps) accepted).required

/-- `node_upgrade_down` of `start.yml`: what keeps the start gate shut. -/
def down (recorded : List Entry) (ps : List Container) (accepted : List Text) :
    List Resolved :=
  (required recorded ps accepted).filter fun e => !e.running

def startGate (recorded : List Entry) (ps : List Container) (accepted : List Text) : Bool :=
  (down recorded ps accepted).isEmpty

/-! ## Lookups -/

theorem current_some {ps : List Container} {r : Entry} {c : Container}
    (h : current ps r = some c) :
    c ∈ ps ∧ (c.id = r.id ∨ ((∀ c' ∈ ps, c'.id ≠ r.id) ∧ c.name = r.name)) := by
  cases hid : byId ps r.id with
  | some d =>
    have hcd : d = c := by simpa [current, hid] using h
    obtain ⟨hmem, heq⟩ := Dict.lastBy_some hid
    exact hcd ▸ ⟨hmem, .inl heq⟩
  | none =>
    have hname : byName ps r.name = some c := by simpa [current, hid] using h
    obtain ⟨hmem, heq⟩ := Dict.lastBy_some hname
    exact ⟨hmem, .inr ⟨Dict.lastBy_none.mp hid, heq⟩⟩

theorem current_of_id {ps : List Container} (hps : (ps.map Container.id).Nodup)
    {r : Entry} {c : Container} (hc : c ∈ ps) (hid : c.id = r.id) : current ps r = some c := by
  have hby : byId ps r.id = some c := hid ▸ Dict.lastBy_of_mem hps hc
  simp [current, hby]

theorem current_of_name {ps : List Container} (hps : (ps.map Container.name).Nodup)
    {r : Entry} {c : Container} (hc : c ∈ ps) (hgone : ∀ c' ∈ ps, c'.id ≠ r.id)
    (hname : c.name = r.name) : current ps r = some c := by
  have hid : byId ps r.id = none := Dict.lastBy_none.mpr hgone
  have hby : byName ps r.name = some c := hname ▸ Dict.lastBy_of_mem hps hc
  simp [current, hid, hby]

/-! ## The start gate -/

theorem mem_required {recorded : List Entry} {ps : List Container} {accepted : List Text}
    {e : Resolved} :
    e ∈ required recorded ps accepted ↔
      ∃ r ∈ recorded, resolveEntry ps r = e ∧ isAcceptedDown e accepted = false := by
  simp only [required, partitionAccepted, resolveRecorded, List.mem_filter, List.mem_map,
    Bool.not_eq_true']
  constructor
  · rintro ⟨⟨r, hr, he⟩, hacc⟩
    exact ⟨r, hr, he, hacc⟩
  · rintro ⟨r, hr, he, hacc⟩
    exact ⟨⟨r, hr, he⟩, hacc⟩

theorem running_of_startGate {recorded : List Entry} {ps : List Container}
    {accepted : List Text} (hgate : startGate recorded ps accepted = true) {e : Resolved}
    (he : e ∈ required recorded ps accepted) : e.running = true := by
  have hnil : down recorded ps accepted = [] := List.isEmpty_iff.mp hgate
  by_contra hdown
  have hmem : e ∈ down recorded ps accepted := List.mem_filter.mpr ⟨he, by simpa using hdown⟩
  rw [hnil] at hmem
  cases hmem

theorem current_of_running {ps : List Container} {r : Entry}
    (h : (resolveEntry ps r).running = true) :
    ∃ c, current ps r = some c ∧ c.running = true := by
  cases hcur : current ps r with
  | none => simp [resolveEntry, hcur] at h
  | some c => exact ⟨c, rfl, by simpa [resolveEntry, hcur] using h⟩

theorem resolveEntry_currentId {ps : List Container} {r : Entry} {c : Container}
    (h : current ps r = some c) : (resolveEntry ps r).currentId = some c.id := by
  simp [resolveEntry, h]

/-- Every required entry is vouched for by a running container of the listing,
and no container vouches for two of them. -/
def Vouched (recorded : List Entry) (ps : List Container) (accepted : List Text) : Prop :=
  ∃ f : Resolved → Container,
    (∀ e ∈ required recorded ps accepted,
      f e ∈ ps ∧ (f e).running = true ∧ e.currentId = some (f e).id) ∧
    Set.InjOn f {e | e ∈ required recorded ps accepted}

/-- A listed container has the id of one recorded entry and the name of another
whose own id is gone, and neither entry may stay down. -/
def Clash (recorded : List Entry) (ps : List Container) (accepted : List Text) : Prop :=
  ∃ r₁ ∈ recorded, ∃ r₂ ∈ recorded, ∃ c ∈ ps,
    r₁.id ≠ r₂.id ∧ c.id = r₁.id ∧ c.name = r₂.name ∧ (∀ c' ∈ ps, c'.id ≠ r₂.id) ∧
    ∀ r ∈ [r₁, r₂],
      isAcceptedDown ⟨r.id, r.name, some c.id, c.running, true⟩ accepted = false

section Assignment

variable {recorded : List Entry} {ps : List Container} {accepted : List Text}

theorem resolveEntry_eq {r : Entry} {c : Container} (h : current ps r = some c) :
    resolveEntry ps r = ⟨r.id, r.name, some c.id, c.running, true⟩ := by
  simp [resolveEntry, h]

theorem required_of_current {r : Entry} {c : Container} (hr : r ∈ recorded)
    (hcur : current ps r = some c)
    (hacc : isAcceptedDown ⟨r.id, r.name, some c.id, c.running, true⟩ accepted = false) :
    resolveEntry ps r ∈ required recorded ps accepted :=
  mem_required.mpr ⟨r, hr, rfl, by rw [resolveEntry_eq hcur]; exact hacc⟩

theorem not_clash_of_vouched (hids : (ps.map Container.id).Nodup)
    (hnames : (ps.map Container.name).Nodup) (hv : Vouched recorded ps accepted) :
    ¬ Clash recorded ps accepted := by
  rintro ⟨r₁, hr₁, r₂, hr₂, c, hc, hne, hid, hname, hgone, hacc⟩
  obtain ⟨f, hf, hinj⟩ := hv
  have hcur₁ : current ps r₁ = some c := current_of_id hids hc hid
  have hcur₂ : current ps r₂ = some c := current_of_name hnames hc hgone hname
  have he₁ := required_of_current hr₁ hcur₁ (hacc r₁ (by simp))
  have he₂ := required_of_current hr₂ hcur₂ (hacc r₂ (by simp))
  obtain ⟨hf₁, -, hv₁⟩ := hf _ he₁
  obtain ⟨hf₂, -, hv₂⟩ := hf _ he₂
  rw [resolveEntry_currentId hcur₁] at hv₁
  rw [resolveEntry_currentId hcur₂] at hv₂
  have hsame : f (resolveEntry ps r₁) = f (resolveEntry ps r₂) := by
    apply List.inj_on_of_nodup_map hids hf₁ hf₂
    exact Option.some.inj (hv₁.symm.trans hv₂)
  exact hne (congrArg Resolved.id (hinj he₁ he₂ hsame))

theorem entry_eq_of_current_eq (hrids : (recorded.map Entry.id).Nodup)
    (hrnames : (recorded.map Entry.name).Nodup) (hclash : ¬ Clash recorded ps accepted)
    {r₁ r₂ : Entry} {c : Container} (hr₁ : r₁ ∈ recorded) (hr₂ : r₂ ∈ recorded)
    (hcur₁ : current ps r₁ = some c) (hcur₂ : current ps r₂ = some c)
    (hacc₁ : isAcceptedDown (resolveEntry ps r₁) accepted = false)
    (hacc₂ : isAcceptedDown (resolveEntry ps r₂) accepted = false) : r₁ = r₂ := by
  rw [resolveEntry_eq hcur₁] at hacc₁
  rw [resolveEntry_eq hcur₂] at hacc₂
  obtain ⟨hc, hcase₁⟩ := current_some hcur₁
  obtain ⟨-, hcase₂⟩ := current_some hcur₂
  by_contra hne
  have hidne : r₁.id ≠ r₂.id := fun h => hne (List.inj_on_of_nodup_map hrids hr₁ hr₂ h)
  rcases hcase₁ with hid₁ | ⟨hgone₁, hname₁⟩ <;> rcases hcase₂ with hid₂ | ⟨hgone₂, hname₂⟩
  · exact hidne (hid₁.symm.trans hid₂)
  · exact hclash ⟨r₁, hr₁, r₂, hr₂, c, hc, hidne, hid₁, hname₂, hgone₂, by simp [hacc₁, hacc₂]⟩
  · exact hclash ⟨r₂, hr₂, r₁, hr₁, c, hc, hidne.symm, hid₂, hname₁, hgone₁,
      by simp [hacc₁, hacc₂]⟩
  · exact hne (List.inj_on_of_nodup_map hrnames hr₁ hr₂ (hname₁.symm.trans hname₂))

theorem vouched_of_not_clash (hrids : (recorded.map Entry.id).Nodup)
    (hrnames : (recorded.map Entry.name).Nodup)
    (hgate : startGate recorded ps accepted = true) (hclash : ¬ Clash recorded ps accepted) :
    Vouched recorded ps accepted := by
  have hcur : ∀ e ∈ required recorded ps accepted, ∃ r ∈ recorded, ∃ c,
      resolveEntry ps r = e ∧ current ps r = some c ∧ c.running = true ∧
        isAcceptedDown (resolveEntry ps r) accepted = false := by
    intro e he
    obtain ⟨r, hr, hre, hacc⟩ := mem_required.mp he
    have hrun : (resolveEntry ps r).running = true := hre ▸ running_of_startGate hgate he
    obtain ⟨c, hc, hcrun⟩ := current_of_running hrun
    exact ⟨r, hr, c, hre, hc, hcrun, hre.symm ▸ hacc⟩
  -- The container each entry resolved to is the assignment.
  refine ⟨fun e => (current ps ⟨e.id, e.name⟩).getD default, ?_, ?_⟩
  · intro e he
    obtain ⟨r, -, c, rfl, hc, hrun, -⟩ := hcur e he
    have hget : (current ps ⟨(resolveEntry ps r).id, (resolveEntry ps r).name⟩).getD default = c := by
      show (current ps r).getD default = c
      rw [hc]
      rfl
    simp only [hget]
    exact ⟨(current_some hc).1, hrun, resolveEntry_currentId hc⟩
  · intro e₁ he₁ e₂ he₂ hsame
    obtain ⟨r₁, hr₁, c₁, rfl, hc₁, -, hacc₁⟩ := hcur e₁ he₁
    obtain ⟨r₂, hr₂, c₂, rfl, hc₂, -, hacc₂⟩ := hcur e₂ he₂
    have hcc : c₁ = c₂ := by
      have h : (current ps r₁).getD default = (current ps r₂).getD default := hsame
      simpa [hc₁, hc₂] using h
    subst hcc
    rw [entry_eq_of_current_eq hrids hrnames hclash hr₁ hr₂ hc₁ hc₂ hacc₁ hacc₂]

end Assignment

/-- Behind an open start gate, two recorded tenants are vouched for by one
container exactly when a container took over the name of a removed one. -/
theorem start_gate_vouches_iff (recorded : List Entry) (ps : List Container)
    (accepted : List Text)
    (hrids : (recorded.map Entry.id).Nodup) (hrnames : (recorded.map Entry.name).Nodup)
    (hids : (ps.map Container.id).Nodup) (hnames : (ps.map Container.name).Nodup)
    (hgate : startGate recorded ps accepted = true) :
    Vouched recorded ps accepted ↔ ¬ Clash recorded ps accepted :=
  ⟨not_clash_of_vouched hids hnames, vouched_of_not_clash hrids hrnames hgate⟩

/-- Two tenants that were both recreated keep their names, and both are found. -/
theorem start_gate_vouches_recreated :
    Vouched [⟨"a1", "web"⟩, ⟨"b1", "db"⟩] [⟨"a2", "web", true, false⟩, ⟨"b1", "db", true, false⟩] []
      ↔ ¬ Clash [⟨"a1", "web"⟩, ⟨"b1", "db"⟩]
        [⟨"a2", "web", true, false⟩, ⟨"b1", "db", true, false⟩] [] :=
  start_gate_vouches_iff _ _ _ (by decide) (by decide) (by decide) (by decide) (by decide)

-- `db` was removed and `web` renamed to `db`: the one container left answers for both.
theorem start_gate_vouches_renamed :
    ¬ ∀ (recorded : List Entry) (ps : List Container) (accepted : List Text),
      (recorded.map Entry.id).Nodup → (recorded.map Entry.name).Nodup →
      (ps.map Container.id).Nodup → (ps.map Container.name).Nodup →
      startGate recorded ps accepted = true → Vouched recorded ps accepted := by
  intro h
  obtain ⟨f, hf, hinj⟩ := h [⟨"a1", "web"⟩, ⟨"b1", "db"⟩] [⟨"a1", "db", true, false⟩] []
    (by decide) (by decide) (by decide) (by decide) (by decide)
  have hweb : (⟨"a1", "web", some "a1", true, true⟩ : Resolved) ∈
      required [⟨"a1", "web"⟩, ⟨"b1", "db"⟩] [⟨"a1", "db", true, false⟩] [] := by decide
  have hdb : (⟨"b1", "db", some "a1", true, true⟩ : Resolved) ∈
      required [⟨"a1", "web"⟩, ⟨"b1", "db"⟩] [⟨"a1", "db", true, false⟩] [] := by decide
  have hsame := (List.mem_singleton.mp (hf _ hweb).1).trans (List.mem_singleton.mp (hf _ hdb).1).symm
  exact absurd (hinj hweb hdb hsame) (by decide)

end Provisioner.NodeUpgrade
