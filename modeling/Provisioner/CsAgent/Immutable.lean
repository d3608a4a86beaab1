import Mathlib.Data.List.Find
import Provisioner.Library.Casing
import Provisioner.Library.Dict

/-!
# The agent's immutable settings

`cs_agent_immutable_changes`: whether a new `agent.yml` would change a setting
that must never change on a running node. The two files are compared as Python
reads them; the agent reads a text setting as it is written there.
-/

namespace Provisioner.CsAgent

open Text (decimal lower strip)

/-! ## Documents -/

inductive Style where
  | plain
  | quoted
  | tagged (tag : Text)
deriving DecidableEq, Repr

structure Scalar where
  style : Style
  text : Text
deriving DecidableEq, Repr

inductive Node where
  | scalar (s : Scalar)
  | sequence (items : List Node)
  | mapping (pairs : List (Scalar × Node))

def Node.quoted (t : Text) : Node := .scalar ⟨.quoted, t⟩

def Node.plain (t : Text) : Node := .scalar ⟨.plain, t⟩

def block (rows : List (Text × Node)) : List (Scalar × Node) :=
  rows.map fun row => (⟨.plain, row.1⟩, row.2)

/-! ## What a plain scalar stands for -/

def digit (c : Char) : ℕ :=
  if c.isDigit then c.toNat - '0'.toNat else c.toLower.toNat - 'a'.toNat + 10

/-- `int(text, base)`, with the underscores left out. -/
def number (base : ℕ) (t : Text) : ℕ :=
  (t.filter (· ≠ '_')).foldl (fun n c => n * base + digit c) 0

def isDecimalText (t : Text) : Bool :=
  match t with
  | [] => false
  | c :: rest => c ≠ '0' && c.isDigit && rest.all fun c => c.isDigit || c = '_'

/-- `[0-5]?[0-9]` -/
def isSixtieth : Text → Bool
  | [c] => c.isDigit
  | [c, d] => c ∈ (['0', '1', '2', '3', '4', '5'] : List Char) && d.isDigit
  | _ => false

/-- A number of the implicit resolver, without its sign. -/
def yamlNat (t : Text) : Option ℕ :=
  match t with
  | ['0'] => some 0
  | '0' :: 'b' :: bits =>
    if !bits.isEmpty && bits.all fun c => c ∈ (['0', '1', '_'] : List Char) then some (number 2 bits)
    else none
  | '0' :: 'x' :: digits =>
    if !digits.isEmpty && digits.all fun c =>
        c.isDigit || c ∈ ("abcdefABCDEF_" : Text) then some (number 16 digits)
    else none
  | '0' :: digits =>
    if digits.all fun c => c ∈ ("01234567_" : Text) then some (number 8 digits) else none
  | t =>
    match t.splitOn ':' with
    | [whole] => if isDecimalText whole then some (number 10 whole) else none
    | first :: rest =>
      if isDecimalText first && rest.all isSixtieth then
        some (rest.foldl (fun n part => n * 60 + number 10 part) (number 10 first))
      else none
    | [] => none

def yamlInt (t : Text) : Option ℤ :=
  match t with
  | '-' :: rest => (yamlNat rest).map fun n => -(n : ℤ)
  | '+' :: rest => (yamlNat rest).map fun n => (n : ℤ)
  | rest => (yamlNat rest).map fun n => (n : ℤ)

def intText (i : ℤ) : Text := if i < 0 then '-' :: decimal i.natAbs else decimal i.natAbs

def yamlNull : List Text := ["", "~", "null", "Null", "NULL"]

def yamlTrue : List Text :=
  ["yes", "Yes", "YES", "true", "True", "TRUE", "on", "On", "ON"]

def yamlFalse : List Text :=
  ["no", "No", "NO", "false", "False", "FALSE", "off", "Off", "OFF"]

/-- What is compared: the canonical JSON of a text, or of a list or a mapping. -/
inductive Json where
  | string (t : Text)
  | tree (json : Text)
deriving DecidableEq, Repr

/-- What the filter uses of PyYAML and of Python's library. -/
structure Python where
  /-- The document of a text, `none` inside for an empty one; `none` where loading fails. -/
  safeLoad : Text → Option (Option Node)
  /-- The text of the float or the time that a plain scalar stands for. -/
  floatOrTime : Text → Option Text
  /-- The text of the value of a scalar with an explicit tag. -/
  tagged : Text → Text → Text
  dumps : Node → Text
  sha256 : Json → Text

section Filter

variable (py : Python)

/-- The text of the value that is no text itself. -/
def typed (t : Text) : Option Text :=
  if t ∈ yamlNull then some ""
  else if t ∈ yamlTrue then some "True"
  else if t ∈ yamlFalse then some "False"
  else
    match yamlInt t with
    | some i => some (intText i)
    | none => py.floatOrTime t

/-- `"" if value is None else str(value)` -/
def printed (s : Scalar) : Text :=
  match s.style with
  | .quoted => s.text
  | .tagged tag => py.tagged tag s.text
  | .plain => (typed py s.text).getD s.text

/-- Whether a key of a mapping is this text in Python. -/
def isKey (s : Scalar) (part : Text) : Bool :=
  s.text = part &&
    match s.style with
    | .quoted => true
    | .tagged tag => tag = "!!str"
    | .plain => (typed py s.text).isNone

/-! ## The filter -/

def immutableKeys : List Text :=
  ["store.data_dir", "metadata.admin_token_hash", "metadata.listen_addr", "backups.key",
    "backups.borg.ssh.user", "backups.borg.ssh.host", "backups.borg.ssh.port",
    "backups.borg.ssh.host_path"]

/-- Down a path; of a repeated key the last one counts. -/
def find (same : Scalar → Text → Bool) : Node → List Text → Option Node
  | node, [] => some node
  | .mapping pairs, part :: rest =>
    match pairs.reverse.find? fun pair => same pair.1 part with
    | some pair => find same pair.2 rest
    | none => none
  | _, _ :: _ => none

def get (doc : Node) (path : Text) : Option Node := find (isKey py) doc (path.splitOn '.')

def blob : Node → Json
  | .scalar s => .string (printed py s)
  | node => .tree (py.dumps node)

def digest (value : Option Node) : Option Text := value.map fun node => py.sha256 (blob py node)

inductive Doc where
  | none
  | parsed (pairs : List (Scalar × Node))
  | text (t : Text)

/-- `none` where the text is no mapping, and the filter fails. -/
def load : Doc → Option Node
  | .none => some (.mapping [])
  | .parsed pairs => some (.mapping pairs)
  | .text t =>
    if strip t = [] then some (.mapping [])
    else
      match py.safeLoad t with
      | some none => some (.mapping [])
      | some (some (.mapping pairs)) => some (.mapping pairs)
      | _ => none

inductive Change where
  | changed
  | added
  | removed
deriving DecidableEq, Repr

def changeOf : Option Text → Option Text → Change
  | none, _ => .added
  | some _, none => .removed
  | some _, some _ => .changed

/-- `keys or IMMUTABLE_KEYS` -/
def checked (keys : List Text) : List Text := if keys.isEmpty then immutableKeys else keys

def immutableChanges (current rendered : Doc) (keys : List Text) : Option (List (Text × Change)) :=
  match load py current, load py rendered with
  | some cur, some new =>
    some ((checked keys).filterMap fun key =>
      let a := digest py (get py cur key)
      let b := digest py (get py new key)
      if a = b then none else some (key, changeOf a b))
  | _, _ => none

end Filter

/-! ## The settings as they are read -/

inductive Reading where
  | unset
  | text (t : Text)
  | section
deriving DecidableEq, Repr

def reading (value : Scalar → Text) : Option Node → Reading
  | none => .unset
  | some (.scalar s) => .text (value s)
  | some _ => .section

def agentGet (doc : Node) (path : Text) : Option Node :=
  find (fun s part => s.text = part) doc (path.splitOn '.')

def written (doc : Node) (path : Text) : Reading := reading Scalar.text (agentGet doc path)

section Readings

variable (py : Python)

def printedAt (doc : Node) (path : Text) : Reading := reading (printed py) (get py doc path)

def Quoted (doc : Node) (path : Text) : Prop :=
  get py doc path = agentGet doc path ∧
    (agentGet doc path = none ∨ ∃ t, agentGet doc path = some (.quoted t))

def PrintsAsWritten (doc : Node) (path : Text) : Prop :=
  printedAt py doc path = .section ∨ printedAt py doc path = written doc path

/-- Where the filter reports no change, the agent reads this setting of the file on
the node as it would read it of the rendered one, whatever is rendered. -/
def NotUnseen (current : Doc) (key : Text) : Prop :=
  ∀ rendered keys cur new, load py current = some cur → load py rendered = some new →
    (∀ k ∈ checked keys, Quoted py new k) → immutableChanges py current rendered keys = some [] →
    key ∈ checked keys → written cur key = written new key

end Readings

section Unseen

variable {py : Python} {current : Doc} {cur new : Node} {key : Text}

theorem printed_of_quoted (h : Quoted py new key) :
    printedAt py new key = written new key ∧ written new key ≠ .section := by
  obtain ⟨hsame, hnone | ⟨t, ht⟩⟩ := h
  · rw [printedAt, written, hsame, hnone]
    exact ⟨rfl, nofun⟩
  · rw [printedAt, written, hsame, ht]
    exact ⟨rfl, nofun⟩

/-- Equal digests of a value on the node and of a quoted one are equal texts. -/
theorem printed_of_digest (hsha : Function.Injective py.sha256) (hquoted : Quoted py new key)
    (h : digest py (get py cur key) = digest py (get py new key)) :
    printedAt py cur key = printedAt py new key := by
  obtain ⟨hsame, hnone | ⟨t, ht⟩⟩ := hquoted
  · rw [hsame, hnone] at h
    have hcur : get py cur key = none := Option.map_eq_none_iff.mp h
    rw [printedAt, printedAt, hcur, hsame, hnone]
  · rw [hsame, ht] at h
    obtain ⟨node, hnode, hblob⟩ := Option.map_eq_some_iff.mp h
    have hblob : blob py node = blob py (.quoted t) := hsha hblob
    rw [printedAt, printedAt, hnode, hsame, ht]
    cases node with
    | scalar s => exact congrArg Reading.text (Json.string.inj hblob)
    | sequence items => cases hblob
    | mapping pairs => cases hblob

theorem digest_of_no_change {rendered : Doc} {keys : List Text} (hcur : load py current = some cur)
    (hnew : load py rendered = some new)
    (hchanges : immutableChanges py current rendered keys = some []) (hkey : key ∈ checked keys) :
    digest py (get py cur key) = digest py (get py new key) := by
  rw [immutableChanges, hcur, hnew] at hchanges
  have hnone := List.filterMap_eq_nil_iff.mp (Option.some.inj hchanges) key hkey
  by_contra hdiffer
  dsimp only at hnone
  rw [if_neg hdiffer] at hnone
  cases hnone

/-! ### A rendered file with one setting -/

def nest (value : Node) : List Text → Node
  | [] => value
  | part :: rest => .mapping [(⟨.quoted, part⟩, nest value rest)]

theorem find_nest {same : Scalar → Text → Bool} (hsame : ∀ t, same ⟨.quoted, t⟩ t = true)
    (value : Node) (path : List Text) : find same (nest value path) path = some value := by
  induction path with
  | nil => rfl
  | cons part rest ih =>
    simp only [nest, find, List.reverse_singleton, List.find?_cons, hsame]
    exact ih

theorem nest_mapping (value : Node) (path : Text) :
    ∃ pairs, nest value (path.splitOn '.') = .mapping pairs := by
  cases hparts : path.splitOn '.' with
  | nil => exact absurd hparts (List.splitOn_ne_nil _ _)
  | cons part rest => exact ⟨_, rfl⟩

theorem get_empty (py : Python) (path : Text) : get py (.mapping []) path = none ∧
    agentGet (.mapping []) path = none := by
  unfold get agentGet
  cases hparts : path.splitOn '.' with
  | nil => exact absurd hparts (List.splitOn_ne_nil _ _)
  | cons part rest => exact ⟨rfl, rfl⟩

/-- There is a file to render that the filter takes for the one on the node. -/
theorem exists_rendered (cur : Node) (key : Text) (h : printedAt py cur key ≠ .section) :
    ∃ pairs, Quoted py (.mapping pairs) key ∧ written (.mapping pairs) key = printedAt py cur key ∧
      digest py (get py cur key) = digest py (get py (.mapping pairs) key) := by
  cases hget : get py cur key with
  | none =>
    obtain ⟨hnone, hagent⟩ := get_empty py key
    refine ⟨[], ⟨hnone.trans hagent.symm, .inl hagent⟩, ?_, ?_⟩
    · rw [written, hagent, printedAt, hget]
      rfl
    · rw [hnone]
  | some node =>
    cases node with
    | scalar s =>
      obtain ⟨pairs, hpairs⟩ := nest_mapping (.quoted (printed py s)) key
      have hfound : get py (.mapping pairs) key = some (.quoted (printed py s)) := by
        rw [← hpairs]
        exact find_nest (fun t => by simp [isKey]) _ _
      have hagent : agentGet (.mapping pairs) key = some (.quoted (printed py s)) := by
        rw [← hpairs]
        exact find_nest (fun t => by simp) _ _
      refine ⟨pairs, ⟨hfound.trans hagent.symm, .inr ⟨_, hagent⟩⟩, ?_, ?_⟩
      · rw [written, hagent, printedAt, hget]
        rfl
      · rw [hfound]
        rfl
    | sequence items =>
      rw [printedAt, hget] at h
      exact absurd rfl h
    | mapping pairs =>
      rw [printedAt, hget] at h
      exact absurd rfl h

/-- A change of a setting stays unseen for some rendered file exactly where Python
prints the setting on the node otherwise than it is written. -/
theorem not_unseen_iff (hsha : Function.Injective py.sha256) (hcur : load py current = some cur)
    (key : Text) : NotUnseen py current key ↔ PrintsAsWritten py cur key := by
  constructor
  · intro hseen
    by_cases hsection : printedAt py cur key = .section
    · exact .inl hsection
    · right
      obtain ⟨pairs, hquoted, hwritten, hdigest⟩ := exists_rendered cur key hsection
      have hone : ∀ k ∈ checked [key], k = key := by
        intro k hk
        exact List.mem_singleton.mp hk
      have hchanges : immutableChanges py current (.parsed pairs) [key] = some [] := by
        rw [immutableChanges, hcur]
        refine congrArg some (List.filterMap_eq_nil_iff.mpr fun k hk => ?_)
        rw [hone k hk]
        exact if_pos hdigest
      have hsame := hseen (.parsed pairs) [key] cur (.mapping pairs) hcur rfl
        (fun k hk => hone k hk ▸ hquoted) hchanges (List.mem_singleton_self key)
      rw [hsame, hwritten]
  · intro hprints rendered keys cur' new hload hnew hquoted hchanges hkey
    cases hcur.symm.trans hload
    have hdigest := digest_of_no_change hcur hnew hchanges hkey
    have hprinted := printed_of_digest hsha (hquoted key hkey) hdigest
    obtain ⟨hnew_printed, hno_section⟩ := printed_of_quoted (hquoted key hkey)
    obtain hsection | hwritten := hprints
    · rw [hsection, hnew_printed] at hprinted
      exact absurd hprinted.symm hno_section
    · rw [← hwritten, hprinted, hnew_printed]

end Unseen

/-! ## The file that is rendered -/

structure Backup where
  csAgentBackupSshUser : Text
  csAgentBackupSshHost : Text
  csAgentBackupSshPort : Text
  csAgentBackupHostPath : Text

structure Settings where
  csAgentStoreDataDir : Text
  csAgentListenAddr : Text
  csAgentAdminTokenHash : Text
  csAgentBackupsEnabled : Bool
  backupsKey : Text
  backup : Option Backup

def sshRows (b : Backup) : List (Text × Node) :=
  [("enabled", .plain "true"), ("user", .quoted b.csAgentBackupSshUser),
    ("host", .quoted b.csAgentBackupSshHost), ("port", .quoted b.csAgentBackupSshPort),
    ("host_path", .quoted b.csAgentBackupHostPath)]

def borgRows : Option Backup → List (Text × Node)
  | none => []
  | some b => [("borg", .mapping (block [("ssh", .mapping (block (sshRows b)))]))]

def backupsRows (v : Settings) : List (Text × Node) :=
  ("enabled", .plain (if v.csAgentBackupsEnabled && v.backup.isSome then "true" else "false")) ::
    ("key", .quoted v.backupsKey) :: borgRows v.backup

def agentRows (v : Settings) : List (Text × Node) :=
  [("store", .mapping (block [("data_dir", .quoted v.csAgentStoreDataDir)])),
    ("metadata", .mapping (block [("listen_addr", .quoted (strip v.csAgentListenAddr)),
      ("admin_token_hash", .quoted v.csAgentAdminTokenHash)])),
    ("backups", .mapping (block (backupsRows v)))]

/-- `templates/agent.yml.j2`, as far as the immutable settings go. -/
def agentYml (v : Settings) : Doc := .parsed (block (agentRows v))

def templateWords : List Text :=
  ["store", "data_dir", "metadata", "listen_addr", "admin_token_hash", "backups", "enabled", "key",
    "borg", "ssh", "user", "host", "port", "host_path"]

def templateBlocks : List (List Text) :=
  [["store", "metadata", "backups"], ["data_dir"], ["listen_addr", "admin_token_hash"],
    ["enabled", "key"], ["enabled", "key", "borg"], ["ssh"],
    ["enabled", "user", "host", "port", "host_path"]]

theorem blocks_good : ∀ names ∈ templateBlocks,
    names.Nodup ∧ ∀ name ∈ names, name ∈ templateWords := by decide

theorem block_good (i : ℕ) {names : List Text} (hnames : templateBlocks[i]? = some names) :
    names.Nodup ∧ ∀ name ∈ names, name ∈ templateWords :=
  blocks_good names (List.mem_of_getElem? hnames)

section Rendered

variable {same : Scalar → Text → Bool}
  (hsame : ∀ w ∈ templateWords, ∀ part, same ⟨.plain, w⟩ part = decide (w = part))

include hsame

theorem find_block {rows : List (Text × Node)} (hwords : ∀ row ∈ rows, row.1 ∈ templateWords)
    (part : Text) (rest : List Text) : find same (.mapping (block rows)) (part :: rest) =
      match Dict.lastBy Prod.fst rows part with
      | some row => find same row.2 rest
      | none => none := by
  have hfind : (block rows).reverse.find? (fun pair => same pair.1 part) =
      (Dict.lastBy Prod.fst rows part).map fun row => (⟨.plain, row.1⟩, row.2) := by
    rw [block, ← List.map_reverse, List.find?_map, Dict.lastBy]
    congr 1
    exact List.find?_congr fun row hrow =>
      hsame row.1 (hwords row (List.mem_reverse.mp hrow)) part
  rw [find, hfind]
  cases Dict.lastBy Prod.fst rows part <;> rfl

theorem find_row {rows : List (Text × Node)} {w : Text} {node : Node} (names : List Text)
    (hnames : rows.map Prod.fst = names)
    (hgood : names.Nodup ∧ ∀ name ∈ names, name ∈ templateWords) (hmem : (w, node) ∈ rows)
    (rest : List Text) : find same (.mapping (block rows)) (w :: rest) = find same node rest := by
  have hwords : ∀ row ∈ rows, row.1 ∈ templateWords := fun row hrow =>
    hgood.2 row.1 (hnames ▸ List.mem_map_of_mem hrow)
  have hlast : Dict.lastBy Prod.fst rows w = some (w, node) :=
    Dict.lastBy_of_mem (hnames ▸ hgood.1) hmem
  rw [find_block hsame hwords, hlast]

theorem find_agent {v : Settings} {w : Text} {node : Node} (hmem : (w, node) ∈ agentRows v)
    (rest : List Text) :
    find same (.mapping (block (agentRows v))) (w :: rest) = find same node rest :=
  find_row hsame ["store", "metadata", "backups"] rfl (block_good 0 rfl) hmem rest

theorem find_store (v : Settings) :
    find same (.mapping (block (agentRows v))) ["store", "data_dir"] =
      some (.quoted v.csAgentStoreDataDir) := by
  rw [find_agent hsame List.mem_cons_self,
    find_row hsame ["data_dir"] rfl (block_good 1 rfl) List.mem_cons_self]
  rfl

theorem find_metadata {v : Settings} {w t : Text}
    (hmem : (w, Node.quoted t) ∈ [(("listen_addr" : Text), Node.quoted (strip v.csAgentListenAddr)),
      ("admin_token_hash", .quoted v.csAgentAdminTokenHash)]) :
    find same (.mapping (block (agentRows v))) ["metadata", w] = some (.quoted t) := by
  rw [find_agent hsame (List.mem_cons_of_mem _ List.mem_cons_self),
    find_row hsame ["listen_addr", "admin_token_hash"] rfl (block_good 2 rfl) hmem]
  rfl

theorem find_backups {v : Settings} (path : List Text) :
    find same (.mapping (block (agentRows v))) ("backups" :: path) =
      find same (.mapping (block (backupsRows v))) path :=
  find_agent hsame (List.mem_cons_of_mem _ (List.mem_cons_of_mem _ List.mem_cons_self)) path

theorem find_backups_row {v : Settings} {w : Text} {node : Node} (hmem : (w, node) ∈ backupsRows v)
    (rest : List Text) :
    find same (.mapping (block (backupsRows v))) (w :: rest) = find same node rest := by
  cases hbackup : v.backup with
  | none =>
    have hnames : (backupsRows v).map Prod.fst = [("enabled" : Text), "key"] := by
      rw [backupsRows, hbackup]
      rfl
    exact find_row hsame _ hnames (block_good 3 rfl) hmem rest
  | some b =>
    have hnames : (backupsRows v).map Prod.fst = [("enabled" : Text), "key", "borg"] := by
      rw [backupsRows, hbackup]
      rfl
    exact find_row hsame _ hnames (block_good 4 rfl) hmem rest

theorem find_no_borg {v : Settings} (hbackup : v.backup = none) (path : List Text) :
    find same (.mapping (block (agentRows v))) ("backups" :: "borg" :: path) = none := by
  have hrows : (backupsRows v).map Prod.fst = [("enabled" : Text), "key"] := by
    rw [backupsRows, hbackup]
    rfl
  have hother : ∀ name ∈ (["enabled", "key"] : List Text), name ≠ "borg" := by decide
  have hnone : Dict.lastBy Prod.fst (backupsRows v) "borg" = none :=
    Dict.lastBy_none.mpr fun row hrow => hother row.1 (hrows ▸ List.mem_map_of_mem hrow)
  rw [find_backups hsame, find_block hsame fun row hrow =>
    (block_good 3 rfl).2 row.1 (hrows ▸ List.mem_map_of_mem hrow), hnone]

theorem find_ssh {v : Settings} {b : Backup} (hbackup : v.backup = some b) {w t : Text}
    (hmem : (w, Node.quoted t) ∈ sshRows b) :
    find same (.mapping (block (agentRows v))) ["backups", "borg", "ssh", w] =
      some (.quoted t) := by
  have hborg : (("borg" : Text), Node.mapping (block [("ssh", .mapping (block (sshRows b)))])) ∈
      backupsRows v := by
    rw [backupsRows, hbackup]
    exact List.mem_cons_of_mem _ (List.mem_cons_of_mem _ List.mem_cons_self)
  rw [find_backups hsame, find_backups_row hsame hborg,
    find_row hsame ["ssh"] rfl (block_good 5 rfl) List.mem_cons_self,
    find_row hsame ["enabled", "user", "host", "port", "host_path"] rfl (block_good 6 rfl) hmem]
  rfl

end Rendered

theorem quoted_agentYml {py : Python} (hwords : ∀ w ∈ templateWords, typed py w = none)
    (v : Settings) : ∀ key ∈ immutableKeys, Quoted py (.mapping (block (agentRows v))) key := by
  have hpython : ∀ w ∈ templateWords, ∀ part,
      isKey py ⟨.plain, w⟩ part = decide (w = part) := by
    intro w hw part
    rw [isKey, hwords w hw]
    exact Bool.and_true _
  have hagent : ∀ w ∈ templateWords, ∀ part,
      (fun (s : Scalar) part => decide (s.text = part)) ⟨.plain, w⟩ part = decide (w = part) :=
    fun _ _ _ => rfl
  have hboth : ∀ {key : Text} {value : Option Node} {parts : List Text}, key.splitOn '.' = parts →
      (value = none ∨ ∃ t, value = some (.quoted t)) →
      (∀ same : Scalar → Text → Bool,
        (∀ w ∈ templateWords, ∀ part, same ⟨.plain, w⟩ part = decide (w = part)) →
        find same (.mapping (block (agentRows v))) parts = value) →
      Quoted py (.mapping (block (agentRows v))) key := by
    rintro key value parts rfl hvalue hfind
    have hpy := hfind _ hpython
    have hag : agentGet (.mapping (block (agentRows v))) key = value :=
      hfind (fun s part => decide (s.text = part)) hagent
    refine ⟨hpy.trans hag.symm, ?_⟩
    rwa [hag]
  have hssh : ∀ (w : Text) (value : Backup → Text),
      (∀ b, (w, Node.quoted (value b)) ∈ sshRows b) → ∀ {key : Text},
      key.splitOn '.' = [("backups" : Text), "borg", "ssh", w] →
      Quoted py (.mapping (block (agentRows v))) key := by
    intro w value hmem key hsplit
    cases hbackup : v.backup with
    | none => exact hboth hsplit (.inl rfl) fun same hsame => find_no_borg hsame hbackup _
    | some b => exact hboth hsplit (.inr ⟨_, rfl⟩) fun same hsame => find_ssh hsame hbackup (hmem b)
  intro key hkey
  simp only [immutableKeys, List.mem_cons, List.not_mem_nil, or_false] at hkey
  obtain rfl | rfl | rfl | rfl | rfl | rfl | rfl | rfl := hkey
  · exact hboth (by decide) (.inr ⟨_, rfl⟩) fun same hsame => find_store hsame v
  · exact hboth (by decide) (.inr ⟨_, rfl⟩) fun same hsame =>
      find_metadata hsame (List.mem_cons_of_mem _ List.mem_cons_self)
  · exact hboth (by decide) (.inr ⟨_, rfl⟩) fun same hsame =>
      find_metadata hsame List.mem_cons_self
  · have hsplit : ("backups.key" : Text).splitOn '.' = [("backups" : Text), "key"] := by
      decide
    refine hboth hsplit (.inr ⟨v.backupsKey, rfl⟩) fun same hsame => ?_
    rw [find_backups hsame, find_backups_row hsame (List.mem_cons_of_mem _ List.mem_cons_self)]
    rfl
  · exact hssh "user" Backup.csAgentBackupSshUser (fun b => by simp [sshRows]) (by decide)
  · exact hssh "host" Backup.csAgentBackupSshHost (fun b => by simp [sshRows]) (by decide)
  · exact hssh "port" Backup.csAgentBackupSshPort (fun b => by simp [sshRows]) (by decide)
  · exact hssh "host_path" Backup.csAgentBackupHostPath (fun b => by simp [sshRows]) (by decide)

/-! ## A port written with a zero in front -/

/-- Numbers of these files are no floats and no times, and no scalar has a tag. -/
def plainPython : Python where
  safeLoad _ := none
  floatOrTime _ := none
  tagged _ t := t
  dumps _ := []
  sha256
    | .string t => 's' :: t
    | .tree json => 't' :: json

theorem plainPython_injective : Function.Injective plainPython.sha256 := by
  intro a b h
  cases a <;> cases b <;> simp_all [plainPython]

def backedUp : Settings where
  csAgentStoreDataDir := "/var/lib/cs-agent"
  csAgentListenAddr := "10.100.0.21:8500"
  csAgentAdminTokenHash := "aaaaaaaa"
  csAgentBackupsEnabled := true
  backupsKey := "EXAMPLE-passphrase-not-real"
  backup := some ⟨"cstacks", "10.100.0.12", "18", "/var/lib/computestacks/backups"⟩

/-- The same settings, with `port: 022`. -/
def onDisk : Doc := .parsed
  (block [("store", .mapping (block [("data_dir", .quoted "/var/lib/cs-agent")])),
    ("metadata", .mapping (block [("listen_addr", .quoted "10.100.0.21:8500"),
      ("admin_token_hash", .quoted "aaaaaaaa")])),
    ("backups", .mapping (block [("enabled", .plain "true"),
      ("key", .quoted "EXAMPLE-passphrase-not-real"),
      ("borg", .mapping (block [("ssh", .mapping (block [("enabled", .plain "true"),
        ("user", .quoted "cstacks"), ("host", .quoted "10.100.0.12"), ("port", .plain "022"),
        ("host_path", .quoted "/var/lib/computestacks/backups")]))]))]))])

def docOf (d : Doc) : Node := (load plainPython d).getD (.mapping [])

theorem backedUp_quoted : ∀ key ∈ checked [], Quoted plainPython (docOf (agentYml backedUp)) key := by
  have hwords : ∀ w ∈ templateWords, typed plainPython w = none := by decide
  exact quoted_agentYml hwords backedUp

/-- The filter reports nothing; the agent read port 022 and would now read port 18. -/
theorem port_changes_unseen :
    immutableChanges plainPython onDisk (agentYml backedUp) [] = some [] ∧
      written (docOf onDisk) "backups.borg.ssh.port" = .text "022" ∧
      written (docOf (agentYml backedUp)) "backups.borg.ssh.port" = .text "18" ∧
      ¬ NotUnseen plainPython onDisk "backups.borg.ssh.port" := by
  have hrun : immutableChanges plainPython onDisk (agentYml backedUp) [] = some [] ∧
      written (docOf onDisk) "backups.borg.ssh.port" = .text "022" ∧
      written (docOf (agentYml backedUp)) "backups.borg.ssh.port" = .text "18" := by
    decide
  have hdiffer : Reading.text "022" ≠ .text "18" := by decide
  refine ⟨hrun.1, hrun.2.1, hrun.2.2, fun hseen => hdiffer ?_⟩
  rw [← hrun.2.1, ← hrun.2.2]
  exact hseen (agentYml backedUp) [] _ _ rfl rfl backedUp_quoted hrun.1 (by decide)

theorem not_unseen_key : NotUnseen plainPython onDisk "backups.key" ↔
    PrintsAsWritten plainPython (docOf onDisk) "backups.key" :=
  not_unseen_iff plainPython_injective rfl "backups.key"

end Provisioner.CsAgent
