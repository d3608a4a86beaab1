import Provisioner.Library.Words
import Provisioner.NodeUpgrade.Containers
import Provisioner.NodeUpgrade.Decide

/-!
# Live nodes

`detect_live.yml`, from what `dpkg-query` and `docker container inspect` print
to the verdict, and what `site.yml` leaves alone by it: docker's packages, and
a pending reboot.
-/

namespace Provisioner.NodeUpgrade.LiveProbe

/-! ## The filters -/

/-- A container as `docker container inspect` prints it. Both may be null. -/
structure Config where
  Labels : Option (List (Text × Text)) := none
deriving DecidableEq, Repr

structure Inspect where
  Config : Option Config := none
deriving DecidableEq, Repr

def roleLabel : Text := "com.computestacks.role"

def systemRole : Text := "system"

def labels (container : Inspect) : List (Text × Text) :=
  (container.Config.bind Config.Labels).getD []

def isSystem (container : Inspect) : Bool :=
  Dict.get (labels container) roleLabel == some systemRole

/-- `loads` is `json.loads` on an array of containers. -/
def parseInspect (loads : Text → Option (List Inspect)) (stdout : Text) : Option (List Inspect) :=
  let text := Text.strip stdout
  if text = [] then some [] else loads text

def hasTenantContainers (containers : List Inspect) : Bool :=
  containers.any fun c => !isSystem c

def installedState : Text := "installed"

def dpkgEntry (line : Text) : Option (Text × Text) :=
  match Text.split line with
  | package :: status :: version :: _ =>
    if status = installedState then some (package, version) else none
  | _ => none

def parseDpkgStatus (lines : List Text) : List (Text × Text) :=
  Dict.ofRows (lines.filterMap dpkgEntry)

/-- `str.partition("=")`. -/
def splitPin (entry : Text) : Text × Option Text :=
  (entry.takeWhile (· ≠ '='),
    match entry.dropWhile (· ≠ '=') with
    | [] => none
    | _ :: version => some version)

def pinDrift (installed : Text → Option Text) (entry : Text) : Option Drift :=
  let (name, pin) := splitPin entry
  let found := installed name
  if found = none ∨ (pin ≠ none ∧ found ≠ pin) then some ⟨name, pin, found⟩ else none

def dockerDrift (installed : List (Text × Text)) (pins : List Text) : List Drift :=
  pins.filterMap (pinDrift (Dict.get installed))

/-! ## `detect_live.yml` -/

structure Package where
  name : Text
  status : Text
  version : Text
deriving DecidableEq, Repr

def Package.line (p : Package) : Text := Text.join [' '] [p.name, p.status, p.version]

structure Machine where
  dockerCli : Bool
  dockerdAnswers : Bool
  containers : List Inspect
  /-- What `docker container inspect` prints of them. -/
  inspectStdout : Text
  packages : List Package

/-- What the tasks call: `json.loads`, `dpkg-query -W` on some names, and the
role that installs what is pinned. -/
structure Tools where
  loads : Text → Option (List Inspect)
  dpkgQuery : List Package → List Text → List Text
  apt : List Text → List Package → List Package

def pinNames (pins : List Text) : List Text := pins.map fun pin => (splitPin pin).1

/-- `node_upgrade_detect_have` -/
def havePinned (tools : Tools) (packages : List Package) (pins : List Text) :
    List (Text × Text) :=
  parseDpkgStatus (tools.dpkgQuery packages (pinNames pins))

structure LiveFacts where
  dockerInstalled : Bool
  driftList : List Drift
  dockerDrift : Bool
  liveUnknown : Bool
  live : Bool
deriving DecidableEq, Repr

def dockerCe : Text := "docker-ce"

def detectLive (tools : Tools) (pins : List Text) (m : Machine) : Option LiveFacts :=
  let installed := havePinned tools m.packages pins
  let drift := dockerDrift installed pins
  let tenants :=
    if m.dockerCli && m.dockerdAnswers then
      (parseInspect tools.loads m.inspectStdout).map hasTenantContainers
    else some m.dockerCli
  tenants.map fun live =>
    { dockerInstalled := (Dict.get installed dockerCe).isSome
      driftList := drift
      dockerDrift := (Dict.get installed dockerCe).isSome && !drift.isEmpty
      liveUnknown := m.dockerCli && !m.dockerdAnswers
      live := live }

/-! ## What `site.yml` does by it -/

/-- The docker play: where the packages are not left alone, `geerlingguy.docker`
installs them. -/
def dockerHosts (tools : Tools) (node : Bool) (pins : List Text) (m : Machine) : Option Machine :=
  if node then
    (detectLive tools pins m).map fun facts =>
      if facts.live && facts.dockerDrift then m
      else { m with packages := tools.apt pins m.packages }
  else some { m with packages := tools.apt pins m.packages }

structure RebootVars where
  commonAllowReboot : Bool := true
  existingEnv : Bool := false
  node : Bool

/-- `reboot_if_required.yml`: whether the host is rebooted. -/
def rebootIfRequired (tools : Tools) (pins : List Text) (v : RebootVars) (required : Bool)
    (m : Machine) : Option Bool :=
  let wanted := required && v.commonAllowReboot && !v.existingEnv
  if wanted && v.node then (detectLive tools pins m).map fun facts => !facts.live else some wanted

/-! ## Reading `dpkg-query` -/

/-- What `dpkg` prints is told apart by its blanks. -/
structure Package.Printable (p : Package) : Prop where
  name : Text.IsWord p.name
  status : Text.IsWord p.status
  version : p.status = installedState → Text.IsWord p.version

def Package.isInstalled (p : Package) : Bool := p.status == installedState

def installedAt (packages : List Package) (name : Text) : Option Text :=
  (Dict.lastBy Package.name (packages.filter Package.isInstalled) name).map Package.version

theorem split_word {w : Text} (h : Text.IsWord w) : Text.split w = [w] := by
  have hstrip : Text.strip w = w := Text.strip_eq_self h.trimmed
  have hsplit := Text.split_eq_singleton (t := w) (by rw [hstrip]; exact h)
  rwa [hstrip] at hsplit

theorem dpkgEntry_line {p : Package} (h : p.Printable) :
    dpkgEntry p.line = if p.isInstalled then some (p.name, p.version) else none := by
  have hsplit : Text.split p.line = p.name :: p.status :: Text.split p.version := by
    rw [Package.line, Text.split_join (by decide)]
    simp only [List.flatMap_cons, List.flatMap_nil, split_word h.name, split_word h.status,
      List.append_nil, List.cons_append, List.nil_append]
  rw [dpkgEntry, hsplit]
  rcases eq_or_ne p.status installedState with hstatus | hstatus
  · have hinstalled : p.isInstalled = true := beq_iff_eq.mpr hstatus
    rw [split_word (h.version hstatus), hinstalled]
    exact if_pos hstatus
  · have hnot : p.isInstalled = false := beq_eq_false_iff_ne.mpr hstatus
    rw [hnot]
    cases Text.split p.version with
    | nil => rfl
    | cons version rest => exact if_neg hstatus

theorem parseDpkgStatus_lines {packages : List Package} (h : ∀ p ∈ packages, p.Printable)
    (name : Text) :
    Dict.get (parseDpkgStatus (packages.map Package.line)) name = installedAt packages name := by
  have hentries : (packages.map Package.line).filterMap dpkgEntry =
      (packages.filter Package.isInstalled).map fun p => (p.name, p.version) := by
    rw [List.filterMap_map, ← List.filterMap_eq_map, List.filterMap_filter]
    refine List.filterMap_congr fun p hp => ?_
    exact dpkgEntry_line (h p hp)
  have hkey : ∀ p : Package, Prod.fst (p.name, p.version) = p.name := fun _ => rfl
  rw [parseDpkgStatus, Dict.get_ofRows, hentries, installedAt,
    Dict.lastBy_map hkey, Option.map_map]
  rfl

theorem installedAt_eq_some {packages : List Package} (h : (packages.map Package.name).Nodup)
    {name version : Text} : installedAt packages name = some version ↔
      ∃ p ∈ packages, p.isInstalled = true ∧ p.name = name ∧ p.version = version := by
  have hinstalled : ((packages.filter Package.isInstalled).map Package.name).Nodup :=
    h.sublist (List.filter_sublist.map _)
  rw [installedAt, Option.map_eq_some_iff]
  constructor
  · rintro ⟨p, hp, hversion⟩
    obtain ⟨hmem, hname⟩ := Dict.lastBy_some hp
    exact ⟨p, (List.mem_filter.mp hmem).1, (List.mem_filter.mp hmem).2, hname, hversion⟩
  · rintro ⟨p, hp, hstatus, rfl, hversion⟩
    exact ⟨p, Dict.lastBy_of_mem hinstalled (List.mem_filter.mpr ⟨hp, hstatus⟩), hversion⟩

/-! ## What is asked of the tools -/

/-- A name as Debian has them: `dpkg-query` takes no character of it for a pattern. -/
def PackageName (name : Text) : Prop :=
  name ≠ [] ∧ ∀ c ∈ name, c.isLower = true ∨ c.isDigit = true ∨ c = '+' ∨ c = '-' ∨ c = '.'

instance (name : Text) : Decidable (PackageName name) := inferInstanceAs (Decidable (_ ∧ _))

/-- What `dpkg` knows: no package twice, each told apart by its blanks. -/
structure Listed (packages : List Package) : Prop where
  distinct : (packages.map Package.name).Nodup
  printable : ∀ p ∈ packages, p.Printable

/-- A line for each package that is asked for and known. -/
def Queries (dpkgQuery : List Package → List Text → List Text) : Prop :=
  ∀ packages names, names ≠ [] → (∀ name ∈ names, PackageName name) →
    ∃ printed : List Package, printed.Perm (packages.filter (·.name ∈ names)) ∧
      dpkgQuery packages names = printed.map Package.line

/-! ## The verdict -/

/-- The package is there, at the version its entry pins if it pins one. -/
def Met (packages : List Package) (entry : Text) : Prop :=
  ∃ version, installedAt packages (splitPin entry).1 = some version ∧
    ∀ pin, (splitPin entry).2 = some pin → version = pin

theorem pinDrift_eq_none {installed : Text → Option Text} {entry : Text} :
    pinDrift installed entry = none ↔ ∃ version, installed (splitPin entry).1 = some version ∧
      ∀ pin, (splitPin entry).2 = some pin → version = pin := by
  rw [pinDrift]
  generalize splitPin entry = parts
  obtain ⟨name, pin⟩ := parts
  simp only
  cases installed name with
  | none => simp
  | some version =>
    cases pin with
    | none => simp
    | some pin => simp

theorem havePinned_get {tools : Tools} (hquery : Queries tools.dpkgQuery)
    {packages : List Package} (h : Listed packages) {pins : List Text} (hne : pins ≠ [])
    (hpins : ∀ name ∈ pinNames pins, PackageName name) (name : Text) :
    Dict.get (havePinned tools packages pins) name =
      if name ∈ pinNames pins then installedAt packages name else none := by
  have hnames : pinNames pins ≠ [] := fun hnil => hne (List.map_eq_nil_iff.mp hnil)
  obtain ⟨printed, hperm, hprinted⟩ := hquery packages (pinNames pins) hnames hpins
  have hmem : ∀ p, p ∈ printed ↔ p ∈ packages ∧ p.name ∈ pinNames pins := by
    intro p
    rw [hperm.mem_iff, List.mem_filter, decide_eq_true_iff]
  have hdistinct : (printed.map Package.name).Nodup :=
    (hperm.map _).nodup_iff.mpr (h.distinct.sublist (List.filter_sublist.map _))
  rw [havePinned, hprinted,
    parseDpkgStatus_lines fun p hp => h.printable p ((hmem p).mp hp).1]
  ext version
  rw [installedAt_eq_some hdistinct]
  split_ifs with hasked
  · rw [installedAt_eq_some h.distinct]
    constructor
    · rintro ⟨p, hp, hrest⟩
      exact ⟨p, ((hmem p).mp hp).1, hrest⟩
    · rintro ⟨p, hp, hstatus, rfl, hversion⟩
      exact ⟨p, (hmem p).mpr ⟨hp, hasked⟩, hstatus, rfl, hversion⟩
  · refine iff_of_false ?_ fun hnone => by cases hnone
    rintro ⟨p, hp, -, rfl, -⟩
    exact hasked ((hmem p).mp hp).2

theorem dockerDrift_eq_nil {tools : Tools} (hquery : Queries tools.dpkgQuery)
    {packages : List Package} (h : Listed packages) {pins : List Text}
    (hpins : ∀ name ∈ pinNames pins, PackageName name) :
    dockerDrift (havePinned tools packages pins) pins = [] ↔
      ∀ entry ∈ pins, Met packages entry := by
  rw [dockerDrift, List.filterMap_eq_nil_iff]
  refine forall₂_congr fun entry hentry => ?_
  have hasked : (splitPin entry).1 ∈ pinNames pins :=
    List.mem_map_of_mem (f := fun pin => (splitPin pin).1) hentry
  rw [pinDrift_eq_none, havePinned_get hquery h (List.ne_nil_of_mem hentry) hpins,
    if_pos hasked, Met]

structure Inspected (loads : Text → Option (List Inspect)) (m : Machine) : Prop where
  empty : m.containers = [] → Text.strip m.inspectStdout = []
  some : m.containers ≠ [] → Text.strip m.inspectStdout ≠ [] ∧
    loads (Text.strip m.inspectStdout) = some m.containers

/-- The controller has placed something on the node, or it cannot be told. -/
def Live (m : Machine) : Prop :=
  m.dockerCli = true ∧ (m.dockerdAnswers = false ∨
    ∃ c ∈ m.containers, Dict.get (labels c) roleLabel ≠ some systemRole)

instance (m : Machine) : Decidable (Live m) := inferInstanceAs (Decidable (_ ∧ _))

/-- Docker is installed, and one of the pinned packages. -/
def HasDocker (pins : List Text) (m : Machine) : Prop :=
  dockerCe ∈ pinNames pins ∧ installedAt m.packages dockerCe ≠ none

instance (pins : List Text) (m : Machine) : Decidable (HasDocker pins m) :=
  inferInstanceAs (Decidable (_ ∧ _))

variable {tools : Tools} {m : Machine}

theorem parseInspect_stdout (h : Inspected tools.loads m) :
    parseInspect tools.loads m.inspectStdout = some m.containers := by
  rw [parseInspect]
  rcases eq_or_ne m.containers [] with hnil | hne
  · rw [if_pos (h.empty hnil), hnil]
  · obtain ⟨htext, hloads⟩ := h.some hne
    rw [if_neg htext, hloads]

theorem hasTenantContainers_iff {containers : List Inspect} :
    hasTenantContainers containers = true ↔
      ∃ c ∈ containers, Dict.get (labels c) roleLabel ≠ some systemRole := by
  simp [hasTenantContainers, isSystem]

theorem detectLive_live (h : Inspected tools.loads m) (pins : List Text) :
    (detectLive tools pins m).map LiveFacts.live = some (decide (Live m)) := by
  rw [detectLive, Option.map_map]
  cases hcli : m.dockerCli with
  | false => simp [Live, hcli]
  | true =>
    cases hanswers : m.dockerdAnswers with
    | false => simp [Live, hcli, hanswers]
    | true =>
      rw [Bool.and_self, if_pos rfl, parseInspect_stdout h, Option.map_some, Option.map_some]
      congr 1
      rw [Bool.eq_iff_iff, decide_eq_true_iff]
      simp only [Live, hcli, hanswers, true_and, Bool.true_eq_false, false_or]
      exact hasTenantContainers_iff

theorem detectLive_drift (hquery : Queries tools.dpkgQuery) (hlisted : Listed m.packages)
    {pins : List Text} (hpins : ∀ name ∈ pinNames pins, PackageName name) {facts : LiveFacts}
    (h : detectLive tools pins m = some facts) :
    facts.dockerDrift = true ↔ HasDocker pins m ∧ ∃ entry ∈ pins, ¬ Met m.packages entry := by
  have hdrift : (!(dockerDrift (havePinned tools m.packages pins) pins).isEmpty) = true ↔
      ∃ entry ∈ pins, ¬ Met m.packages entry := by
    rw [Bool.not_eq_true', List.isEmpty_eq_false_iff, Ne, dockerDrift_eq_nil hquery hlisted hpins]
    push Not
    rfl
  rw [detectLive, Option.map_eq_some_iff] at h
  obtain ⟨live, _, rfl⟩ := h
  dsimp only
  rw [Bool.and_eq_true, hdrift]
  refine and_congr_left fun ⟨entry, hentry, _⟩ => ?_
  rw [havePinned_get hquery hlisted (List.ne_nil_of_mem hentry) hpins, Option.isSome_iff_ne_none,
    HasDocker]
  split_ifs with hasked
  · exact (and_iff_right hasked).symm
  · exact iff_of_false (fun hne => hne rfl) fun hboth => hasked hboth.1

/-- `geerlingguy.docker` installs what is pinned, and changes nothing where that is met. -/
def Idle (apt : List Text → List Package → List Package) : Prop :=
  ∀ pins packages, (∀ entry ∈ pins, Met packages entry) → apt pins packages = packages

structure Documented (tools : Tools) : Prop where
  queries : Queries tools.dpkgQuery
  idle : Idle tools.apt

theorem dockerHosts_node (htools : Documented tools) (h : Inspected tools.loads m)
    (hlisted : Listed m.packages) {pins : List Text}
    (hpins : ∀ name ∈ pinNames pins, PackageName name) :
    dockerHosts tools true pins m =
      some (if Live m ∧ HasDocker pins m then m
        else { m with packages := tools.apt pins m.packages }) := by
  obtain ⟨facts, hfacts, hlive⟩ := Option.map_eq_some_iff.mp (detectLive_live h pins)
  have hdrift := detectLive_drift htools.queries hlisted hpins hfacts
  rw [dockerHosts, if_pos rfl, hfacts, Option.map_some, hlive]
  by_cases hkept : Live m ∧ HasDocker pins m
  · rw [if_pos hkept, decide_eq_true hkept.1, Bool.true_and]
    by_cases hmet : ∀ entry ∈ pins, Met m.packages entry
    · rw [htools.idle pins m.packages hmet, ite_self]
    · push Not at hmet
      rw [if_pos (hdrift.mpr ⟨hkept.2, hmet⟩)]
  · rw [if_neg hkept, if_neg]
    rw [Bool.and_eq_true, decide_eq_true_iff, hdrift]
    exact fun hboth => hkept ⟨hboth.1, hboth.2.1⟩

theorem reboot_node (h : Inspected tools.loads m) (pins : List Text) (v : RebootVars)
    (hnode : v.node = true) (required : Bool) :
    rebootIfRequired tools pins v required m =
      some (required && v.commonAllowReboot && !v.existingEnv && !decide (Live m)) := by
  obtain ⟨facts, hfacts, hlive⟩ := Option.map_eq_some_iff.mp (detectLive_live h pins)
  rw [rebootIfRequired, hnode, Bool.and_true, hfacts, Option.map_some, hlive]
  cases required && v.commonAllowReboot && !v.existingEnv <;> rfl

/-- On a live node `site.yml` leaves docker's packages as they are where docker
is pinned and installed, and never reboots; elsewhere it does both. -/
theorem live_left_alone (htools : Documented tools) (hinspected : Inspected tools.loads m)
    (hlisted : Listed m.packages) {pins : List Text}
    (hpins : ∀ name ∈ pinNames pins, PackageName name) (v : RebootVars) (hnode : v.node = true)
    (required : Bool) :
    dockerHosts tools v.node pins m =
        some (if Live m ∧ HasDocker pins m then m
          else { m with packages := tools.apt pins m.packages }) ∧
      rebootIfRequired tools pins v required m =
        some (required && v.commonAllowReboot && !v.existingEnv && !decide (Live m)) :=
  ⟨by rw [hnode]; exact dockerHosts_node htools hinspected hlisted hpins,
    reboot_node hinspected pins v hnode required⟩

instance (packages : List Package) (entry : Text) : Decidable (Met packages entry) :=
  decidable_of_iff ((pinDrift (installedAt packages) entry).isNone = true) <| by
    rw [Option.isNone_iff_eq_none, pinDrift_eq_none, Met]

/-- An `apt` that takes a bare name's version from its candidates. -/
def aptInstall (candidate : Text → Text) (pins : List Text) (packages : List Package) :
    List Package :=
  pins.foldl (fun packages entry =>
    if Met packages entry then packages
    else
      let (name, pin) := splitPin entry
      packages.filter (·.name ≠ name) ++ [⟨name, installedState, pin.getD (candidate name)⟩]) packages

theorem idle_aptInstall (candidate : Text → Text) : Idle (aptInstall candidate) := by
  intro pins packages hmet
  rw [aptInstall]
  induction pins with
  | nil => rfl
  | cons entry pins ih =>
    rw [List.foldl_cons, if_pos (hmet entry List.mem_cons_self)]
    exact ih fun entry hentry => hmet entry (List.mem_cons_of_mem _ hentry)

/-- A `dpkg-query` that prints every package where no name is given. -/
def queryAll (packages : List Package) (names : List Text) : List Text :=
  (packages.filter fun p => names = [] ∨ p.name ∈ names).map Package.line

theorem queries_all : Queries queryAll := by
  intro packages names hne _
  refine ⟨packages.filter (·.name ∈ names), List.Perm.refl _, ?_⟩
  simp only [queryAll, hne, false_or]

/-- A node with a system container and a tenant's, whose docker is one version
behind its pin. -/
def behind : Machine where
  dockerCli := true
  dockerdAnswers := true
  containers := [{ Config := some { Labels := some [(roleLabel, systemRole)] } },
    { Config := some { Labels := some [(roleLabel, "bastion")] } }]
  inspectStdout := "[1, 2]\n"
  packages := [⟨dockerCe, installedState, "5:28"⟩, ⟨"containerd.io", "config-files", "1.7"⟩]

def behindTools : Tools where
  loads text := if text = "[1, 2]" then some behind.containers else none
  dpkgQuery := queryAll
  apt := aptInstall fun _ => "1"

theorem live_left_alone_behind :
    Live behind ∧ ¬ Met behind.packages "docker-ce=5:29" ∧
      dockerHosts behindTools true ["docker-ce=5:29", "containerd.io"] behind = some behind ∧
      rebootIfRequired behindTools ["docker-ce=5:29", "containerd.io"] { node := true } true
        behind = some false := by
  have hlive : Live behind := by decide
  have hinspected : Inspected behindTools.loads behind := ⟨by decide, by decide⟩
  have hprint : ∀ p ∈ behind.packages, p.Printable := by
    intro p hp
    rcases List.mem_pair.mp hp with rfl | rfl
    · exact ⟨by decide, by decide, by decide⟩
    · exact ⟨by decide, by decide, by decide⟩
  have hdocker : HasDocker ["docker-ce=5:29", "containerd.io"] behind := by decide
  have htools : Documented behindTools := ⟨queries_all, idle_aptInstall fun _ => "1"⟩
  have hnames : ∀ name ∈ pinNames ["docker-ce=5:29", "containerd.io"], PackageName name := by
    decide
  obtain ⟨hpackages, hreboot⟩ := live_left_alone htools hinspected ⟨by decide, hprint⟩ hnames
    { node := true } rfl true
  rw [if_pos ⟨hlive, hdocker⟩] at hpackages
  rw [decide_eq_true hlive] at hreboot
  exact ⟨hlive, by decide, hpackages, hreboot⟩

end Provisioner.NodeUpgrade.LiveProbe
