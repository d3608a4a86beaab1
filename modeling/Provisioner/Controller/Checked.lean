import Provisioner.Controller.Settings
import Provisioner.Library.Standing

/-!
# What attach mode checks of an existing controller

The role reads five settings off the lines of the environment file, and checks
them before it prepares the controller; `cstacks` sources the same file.
-/

namespace Provisioner.Controller.Checked

open Shell Settings
open Text (splitlines startswith strip isLineBreak)

/-! ## The role's reading -/

/-- `split('=', 1) | last` -/
def afterEquals (line : Text) : Text :=
  match line.dropWhile (· ≠ '=') with
  | [] => line
  | _ :: rest => rest

/-- What stands behind the first `=` of the last line that begins with `KEY=`. -/
def lineValue (content key : Text) : Text :=
  let found := (splitlines content).filter fun line => startswith line (key ++ ['='])
  strip (afterEquals (found.getLast?.getD []))

def lineOr (content key fallback : Text) : Text :=
  if (lineValue content key).isEmpty then fallback else lineValue content key

/-- The role variables that stand in for a setting the file does not have. -/
structure Fallbacks where
  controllerContainerName : Text := "portal"
  controllerCertificatesDir : Text := "/etc/computestacks/certificates"
  controllerBrandingDir : Text := "/var/lib/computestacks/branding"
  controllerSshKeyDir : Text := "/etc/computestacks/.ssh"

section Role

variable (f : Fallbacks) (content : Text)

def controllerAttachSecretKeyBase : Text := lineValue content "SECRET_KEY_BASE"

def controllerAttachContainer : Text :=
  lineOr content "CS_CONTAINER_NAME" f.controllerContainerName

def controllerAttachMounts : List Text :=
  [lineOr content "CS_CERT_PATH" f.controllerCertificatesDir ++ "/docker",
    lineOr content "CS_BRANDING_PATH" f.controllerBrandingDir,
    lineOr content "CS_SSH_KEYS_PATH" f.controllerSshKeyDir]

end Role

/-! ## The machine -/

/-- How the machine reads: the shell, ansible's own expansion of a path, and the
place that a path leads to. -/
structure Reader where
  shell : Shell.Host
  expandPath : Text → Text
  place : Text → Text

structure Machine where
  secretKeyBase : Option Text
  /-- Whether `docker ps` shows a container under the name. -/
  running : Text → Bool
  directory : Text → Bool
  definesBootstrapApply : Bool
  acceptsLinkRegionsNew : Bool

variable (d : Reader) (f : Fallbacks)

def secretMatches (m : Machine) (content : Text) : Bool :=
  match m.secretKeyBase with
  | none => true
  | some secret =>
    !(controllerAttachSecretKeyBase content).isEmpty &&
      secret = controllerAttachSecretKeyBase content

/-- The assertions that come before anything is written. -/
def attachAssertions (m : Machine) (content : Text) : Bool :=
  secretMatches m content && m.running (controllerAttachContainer f content) &&
    m.definesBootstrapApply && m.acceptsLinkRegionsNew &&
    (controllerAttachMounts f content).all fun path => m.directory (d.place (d.expandPath path))

def scriptValue (vars : List (Text × Text)) (n : Text) : Text :=
  setting d.shell (withDefaults d.shell vars) n

/-- The sources of the mounts that the role has checked; the fourth one it creates. -/
def scriptMounts (vars : List (Text × Text)) : List Text :=
  (buildMountArgs d.shell (withDefaults d.shell vars)).take 3

/-- The script uses the configured secret, the container that was found running,
and directories that exist. -/
structure Served (m : Machine) (content : Text) (vars : List (Text × Text)) : Prop where
  secret : ∀ secret, m.secretKeyBase = some secret → scriptValue d vars "SECRET_KEY_BASE" = secret
  container : scriptValue d vars "CS_CONTAINER_NAME" = controllerAttachContainer f content
  mounts : ∀ path ∈ scriptMounts d vars, m.directory (d.place path) = true

structure ReadAlike (content : Text) (vars : List (Text × Text)) : Prop where
  secret : controllerAttachSecretKeyBase content = [] ∨
    scriptValue d vars "SECRET_KEY_BASE" = controllerAttachSecretKeyBase content
  container : scriptValue d vars "CS_CONTAINER_NAME" = controllerAttachContainer f content
  mounts : ∀ path ∈ scriptMounts d vars,
    ∃ checked ∈ controllerAttachMounts f content, d.place path = d.place (d.expandPath checked)

variable {d f} {content : Text} {vars : List (Text × Text)}

theorem ReadAlike.served (h : ReadAlike d f content vars) {m : Machine}
    (hpass : attachAssertions d f m content = true) : Served d f m content vars := by
  simp only [attachAssertions, Bool.and_eq_true, List.all_eq_true] at hpass
  obtain ⟨⟨⟨⟨hsecret, -⟩, -⟩, -⟩, hmounts⟩ := hpass
  refine ⟨fun secret hconfigured => ?_, h.container, fun path hpath => ?_⟩
  · rw [secretMatches, hconfigured] at hsecret
    simp only [Bool.and_eq_true, Bool.not_eq_true', decide_eq_true_eq] at hsecret
    obtain ⟨hempty, rfl⟩ := hsecret
    obtain hnone | hsame := h.secret
    · rw [hnone] at hempty
      cases hempty
    · exact hsame
  · obtain ⟨checked, hchecked, hplace⟩ := h.mounts path hpath
    rw [hplace]
    exact hmounts checked hchecked

/-- A machine on which every check finds what it looks for, and no other directory. -/
def bareMachine (d : Reader) (f : Fallbacks) (content : Text) (secretKeyBase : Option Text) :
    Machine where
  secretKeyBase := secretKeyBase
  running _ := true
  directory place := place ∈ (controllerAttachMounts f content).map fun p => d.place (d.expandPath p)
  definesBootstrapApply := true
  acceptsLinkRegionsNew := true

variable (d f content)

/-- Where the assertions pass and the script gets through the file, it has what
was checked. -/
def ChecksSound : Prop :=
  ∀ m vars, source d.shell content = .ok vars → attachAssertions d f m content = true →
    Served d f m content vars

/-! ## What the lines have to be -/

def checked : List Text :=
  ["SECRET_KEY_BASE", "CS_CONTAINER_NAME", "CS_CERT_PATH", "CS_BRANDING_PATH", "CS_SSH_KEYS_PATH"]

def Fallbacks.rows : List (Text × Text) :=
  [("CS_CONTAINER_NAME", f.controllerContainerName),
    ("CS_CERT_PATH", f.controllerCertificatesDir),
    ("CS_BRANDING_PATH", f.controllerBrandingDir), ("CS_SSH_KEYS_PATH", f.controllerSshKeyDir)]

/-- A checked setting stands on a line of its own or nowhere, and what stands in
for it is the script's own fallback. -/
structure Laid : Prop where
  settings : ∀ key ∈ checked, Silent key (terminated content) ∨
    ∃ value, OneLine value ∧ Stands key value (terminated content)
  stand_ins : ∀ row ∈ f.rows, lineValue content row.1 = [] → row ∈ defaults

def Reader.Literal : Prop := ∀ p, Plain p → d.expandPath p = p

def Reader.Unset : Prop :=
  ∀ row ∈ f.rows, found row.1 (splitlines content) = [] →
    (d.shell.inherited row.1).getD [] = []

/-- The shell takes each of the lines alone for what the role has read on it, and
the checks are sound. -/
structure Seen : Prop where
  lines : ∀ key ∈ checked, found key (splitlines content) ≠ [] → Reads (key, lineValue content key)
  sound : ∀ d : Reader, d.Literal → d.Unset f content → ChecksSound d f content

variable {d f content}

theorem names : ∀ key ∈ checked, isName key = true ∧ key ∉ special := by decide

theorem key_reads_iff {key value : Text} (hkey : key ∈ checked) : Reads (key, value) ↔ Plain value := by
  obtain ⟨hname, hspecial⟩ := names key hkey
  exact reads_iff hname hspecial

theorem on_one_line : ∀ key ∈ checked, ∀ c ∈ key, isLineBreak c = false ∧ c ≠ '=' := by decide

theorem rows_checked : ∀ row ∈ f.rows, row.1 ∈ checked ∧ ∃ fallback, (row.1, fallback) ∈ defaults := by
  simp only [Fallbacks.rows, List.forall_mem_cons, checked, defaults]
  simp

theorem lineValue_nil {key : Text} (hnone : found key (splitlines content) = []) :
    lineValue content key = [] := by
  change strip (afterEquals ((found key (splitlines content)).getLast?.getD [])) = []
  rw [hnone]
  rfl

theorem lineValue_of_stands {key value : Text} (hkey : key ∈ checked) (hvalue : OneLine value)
    (hstands : Stands key value (terminated content)) :
    found key (splitlines content) ≠ [] ∧ lineValue content key = value := by
  have hchars := on_one_line key hkey
  obtain ⟨padding, hpadding, hfound⟩ := hstands.found (fun c hc => (hchars c hc).1) hvalue
  rw [found_terminated] at hfound
  refine ⟨fun hnil => ?_, ?_⟩
  · rw [hnil] at hfound
    cases hfound
  · have hafter : afterEquals (settingOf key value padding) = value ++ padding := by
      have hdrop : (settingOf key value padding).dropWhile (· ≠ '=') = '=' :: (value ++ padding) := by
        rw [settingOf, List.append_assoc, List.dropWhile_append_of_pos]
        · rfl
        · exact fun c hc => decide_eq_true (hchars c hc).2
      rw [afterEquals, hdrop]
    change strip (afterEquals ((found key (splitlines content)).getLast?.getD [])) = value
    rw [hfound, Option.getD_some, hafter]
    exact strip_padded hvalue.trimmed hpadding

/-- What sourcing gives a checked setting. -/
theorem Laid.lookup (hlaid : Laid f content) {key : Text} (hkey : key ∈ checked)
    (hplain : found key (splitlines content) ≠ [] → Plain (lineValue content key))
    {vars : List (Text × Text)} (hsource : source d.shell content = .ok vars) :
    found key (splitlines content) = [] ∧ vars.lookup key = none ∨
      found key (splitlines content) ≠ [] ∧ vars.lookup key = some (lineValue content key) := by
  obtain ⟨r, hread, hfinish⟩ := read_terminated hsource
  rcases hlaid.settings key hkey with hsilent | ⟨value, hvalue, hstands⟩
  · obtain ⟨vars', rfl, hlookup⟩ := hsilent.lookup hread
    cases hfinish
    exact .inl ⟨by rw [← found_terminated]; exact hsilent.unread, hlookup⟩
  · obtain ⟨hfound, hline⟩ := lineValue_of_stands hkey hvalue hstands
    have hvalue' := hplain hfound
    rw [hline] at hvalue'
    obtain ⟨hname, hspecial⟩ := names key hkey
    obtain ⟨vars', rfl, hlookup⟩ := hstands.lookup hname hspecial hvalue' hread
    cases hfinish
    exact .inr ⟨hfound, by rw [hline]; exact hlookup⟩

section Sound

variable (hlaid : Laid f content)
  (hplain : ∀ key ∈ checked, found key (splitlines content) ≠ [] → Plain (lineValue content key))
  {vars : List (Text × Text)} (hsource : source d.shell content = .ok vars)

include hlaid hplain

theorem plain_lineOr {row : Text × Text} (hrow : row ∈ f.rows) :
    Plain (lineOr content row.1 row.2) := by
  have hdefaults : ∀ row ∈ defaults, Plain row.2 := by decide
  rw [lineOr]
  split
  · rename_i hempty
    exact hdefaults row (hlaid.stand_ins row hrow (List.isEmpty_iff.mp hempty))
  · rename_i hne
    refine hplain row.1 (rows_checked row hrow).1 fun hnone => ?_
    rw [lineValue_nil hnone] at hne
    exact hne rfl

include hsource

theorem script_line (hunset : d.Unset f content) {row : Text × Text} (hrow : row ∈ f.rows) :
    scriptValue d vars row.1 = lineOr content row.1 row.2 := by
  obtain ⟨hkey, fallback, hfallback⟩ := rows_checked row hrow
  have hlookup := hlaid.lookup hkey (hplain row.1 hkey) hsource
  rw [scriptValue, lineOr]
  split
  · rename_i hempty
    have hnil := List.isEmpty_iff.mp hempty
    have hnone : (d.shell.lookup vars row.1).getD [] = [] := by
      rw [Shell.Host.lookup]
      rcases hlookup with ⟨hfound, hvars⟩ | ⟨-, hvars⟩
      · rw [hvars, Option.none_or]
        exact hunset row hrow hfound
      · rw [hvars, hnil]
        rfl
    rw [setting_withDefaults (hlaid.stand_ins row hrow hnil), filled, if_pos hnone]
  · rename_i hne
    rcases hlookup with ⟨hfound, -⟩ | ⟨-, hvars⟩
    · rw [lineValue_nil hfound] at hne
      exact absurd rfl hne
    · have hset : d.shell.lookup vars row.1 = some (lineValue content row.1) := by
        rw [Shell.Host.lookup, hvars]
        rfl
      have hvalue := setting_withDefaults (h := d.shell) hfallback vars
      rw [hvalue, filled, hset, Option.getD_some, if_neg]
      exact fun hnil => hne (by rw [hnil]; rfl)

theorem script_secret : controllerAttachSecretKeyBase content = [] ∨
    scriptValue d vars "SECRET_KEY_BASE" = controllerAttachSecretKeyBase content := by
  have hkey : ("SECRET_KEY_BASE" : Text) ∈ checked := List.mem_cons_self
  rcases hlaid.lookup hkey (hplain _ hkey) hsource with ⟨hfound, -⟩ | ⟨-, hvars⟩
  · exact .inl (lineValue_nil hfound)
  · right
    rw [scriptValue, setting_without_default (by decide), setting, Shell.Host.lookup, hvars]
    rfl

theorem read_alike (hliteral : d.Literal) (hunset : d.Unset f content) :
    ReadAlike d f content vars := by
  have hrow : ∀ row ∈ f.rows, scriptValue d vars row.1 = lineOr content row.1 row.2 ∧
      Plain (lineOr content row.1 row.2) := fun row hrow =>
    ⟨script_line hlaid hplain hsource hunset hrow, plain_lineOr hlaid hplain hrow⟩
  simp only [Fallbacks.rows, List.forall_mem_cons] at hrow
  obtain ⟨⟨hcontainer, -⟩, ⟨hcert, hcert'⟩, ⟨hbranding, hbranding'⟩, ⟨hssh, hssh'⟩, -⟩ := hrow
  refine ⟨script_secret hlaid hplain hsource, hcontainer, fun path hpath => ?_⟩
  have hmounts : scriptMounts d vars = controllerAttachMounts f content := by
    rw [controllerAttachMounts, ← hcert, ← hbranding, ← hssh]
    rfl
  rw [hmounts] at hpath
  have hpaths : ∀ path ∈ controllerAttachMounts f content, Plain path := by
    simp only [controllerAttachMounts, List.forall_mem_cons]
    exact ⟨hcert'.append_path (by decide), hbranding', hssh', fun _ h => absurd h List.not_mem_nil⟩
  exact ⟨path, hpath, by rw [hliteral path (hpaths path hpath)]⟩

end Sound

/-- In a file so laid out, the script sees what was checked exactly when the
values on the lines are plain. -/
theorem checks_seen_iff (hlaid : Laid f content) : Seen f content ↔
    ∀ key ∈ checked, found key (splitlines content) ≠ [] → Plain (lineValue content key) := by
  constructor
  · intro hseen key hkey hfound
    exact (key_reads_iff hkey).mp (hseen.lines key hkey hfound)
  · intro hplain
    refine ⟨fun key hkey hfound => ?_, fun d hliteral hunset m vars hsource hpass => ?_⟩
    · exact (key_reads_iff hkey).mpr (hplain key hkey hfound)
    · exact (read_alike hlaid hplain hsource hliteral hunset).served hpass

/-- The file of a controller: a setting behind others of its key, one that is
empty and one that is missing. -/
def attachedPieces : List Piece :=
  [.comment " SECRET_KEY_BASE=none of these", .blank, .quoted "CS_APP_ID" "default",
    .quoted "SECRET_KEY_BASE" "old one", .setting "SECRET_KEY_BASE" "right" " ",
    .setting "CS_CONTAINER_NAME" [] [], .setting "CS_CERT_PATH" "/certificates" [],
    .setting "CS_CERT_PATH" "/etc/computestacks/certificates" [],
    .setting "CS_SSH_KEYS_PATH" "/var/lib/computestacks/sshkeys" [],
    .quoted "MOTD" "two\nlines", .comment " the end"]

def attached : Text := attachedPieces.flatMap Piece.text

theorem attached_valid : ∀ p ∈ attachedPieces, p.Valid := by decide +kernel

theorem attached_stands (n : ℕ) (key value padding : Text)
    (hsplit : attachedPieces =
      attachedPieces.take n ++ .setting key value padding :: attachedPieces.drop (n + 1))
    (hlast : Last key (attachedPieces.drop (n + 1))) : Stands key value attached := by
  have hvalid := attached_valid
  rw [attached, hsplit]
  rw [hsplit] at hvalid
  exact stands_among hvalid hlast

theorem laid_attached : Laid {} attached := by
  have hterminated : terminated attached = attached := if_pos (by decide +kernel)
  have htrimmed : ∀ value ∈ (["right", "/etc/computestacks/certificates",
      "/var/lib/computestacks/sshkeys"] : List Text), OneLine value := by
    simp only [List.forall_mem_cons]
    refine ⟨?_, ?_, ?_, fun _ h => absurd h List.not_mem_nil⟩
    all_goals exact ⟨.inr ⟨⟨_, rfl, by decide⟩, ⟨_, rfl, by decide⟩⟩, by decide⟩
  simp only [List.forall_mem_cons] at htrimmed
  obtain ⟨hsecret, hcert, hssh, -⟩ := htrimmed
  refine ⟨?_, by decide +kernel⟩
  rw [hterminated]
  simp only [checked, List.forall_mem_cons]
  refine ⟨.inr ⟨_, hsecret, attached_stands 4 _ _ " " ?_ ?_⟩,
    .inr ⟨[], ⟨.inl rfl, by decide⟩, attached_stands 5 _ _ [] ?_ ?_⟩,
    .inr ⟨_, hcert, attached_stands 7 _ _ [] ?_ ?_⟩,
    .inl (silent_pieces attached_valid ?_),
    .inr ⟨_, hssh, attached_stands 8 _ _ [] ?_ ?_⟩,
    fun _ h => absurd h List.not_mem_nil⟩
  all_goals decide +kernel

theorem checks_seen_attached : Seen {} attached :=
  (checks_seen_iff laid_attached).mpr (by decide +kernel)

/-! ## A secret that is exported again -/

/-- A shell that starts with nothing, and paths as they are written. -/
def bareReader : Reader where
  shell := ⟨fun _ => none, fun _ => none⟩
  expandPath := id
  place := id

def exportedAgain : Text := "SECRET_KEY_BASE=right\nexport SECRET_KEY_BASE=other\n"

/-- The role compares the first line; the containers get the second one's value. -/
theorem exported_secret_missed :
    source bareReader.shell exportedAgain =
        .ok [("SECRET_KEY_BASE", "other"), ("SECRET_KEY_BASE", "right")] ∧
      attachAssertions bareReader {} (bareMachine bareReader {} exportedAgain (some "right"))
        exportedAgain = true ∧
      ¬ ChecksSound bareReader {} exportedAgain := by
  have hsource : source bareReader.shell exportedAgain =
      .ok [("SECRET_KEY_BASE", "other"), ("SECRET_KEY_BASE", "right")] := by decide +kernel
  have hpass : attachAssertions bareReader {}
      (bareMachine bareReader {} exportedAgain (some "right")) exportedAgain = true := by
    decide +kernel
  have hvalue : scriptValue bareReader [("SECRET_KEY_BASE", "other"), ("SECRET_KEY_BASE", "right")]
      "SECRET_KEY_BASE" ≠ "right" := by decide +kernel
  exact ⟨hsource, hpass, fun hsound => hvalue ((hsound _ _ hsource hpass).secret _ rfl)⟩

end Provisioner.Controller.Checked
