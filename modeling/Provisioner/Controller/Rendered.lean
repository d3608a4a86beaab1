import Provisioner.Library.Plain
import Provisioner.Controller.Settings

/-!
# The environment file of a new controller

`default-computestacks.j2` writes the values of the inventory as they are, one
to a line, and `cstacks` sources the file.
-/

namespace Provisioner.Controller.Rendered

open Shell Settings
open Text (decimal)

/-- What the template reads, and what the assertions look at besides. A value is
the text that it prints as. -/
structure Values where
  controllerAppId : Text := "default"
  controllerCertificatesDir : Text := "/etc/computestacks/certificates"
  controllerSshKeyDir : Text := "/etc/computestacks/.ssh"
  controllerBrandingDir : Text := "/var/lib/computestacks/branding"
  controllerProxyIpsDir : Text := "/var/lib/computestacks/proxy_ips"
  controllerDataDir : Text := "/var/lib/computestacks"
  controllerBackupsDir : Text := "/var/lib/computestacks/backups"
  controllerLocale : Text := "en"
  controllerCurrency : Text := "USD"
  controllerPostgresDatabase : Text := "cloudportal"
  controllerContainerName : Text := "portal"
  secretKeyBase : Text
  userAuthSecret : Text
  nodeEnrollmentToken : Text
  controllerPostgresUser : Text := "computestacks"
  postgresPassword : Text
  controllerPostgresHost : Text := "127.0.0.1"
  controllerPostgresPool : Text := "40"
  controllerRedisHost : Text := "127.0.0.1"
  redisPort : Text := "6379"
  controllerImageRepo : Text := "ghcr.io/computestacks/controller"
  controllerImageTag : Text := "9.8"
  controllerRailsMaxThreads : ℤ := 15
  controllerRailsMinThreads : ℤ := 15
  controllerPumaWorkers : ℤ := 2
  controllerQueueSystem : ℤ := 15
  controllerQueueDeployments : ℤ := 20
  controllerQueueLe : ℤ := 2
  controllerMallocConf : Text :=
    "dirty_decay_ms:1000,narenas:2,background_thread:true,stats_print:false"
  controllerRubyYjitEnable : Text := "1"
  controllerSentryDsn : Text := []
  existingEnv : Bool := false
  controllerImageAllowFloatingTag : Bool := false
deriving DecidableEq, Repr

/-! ## The assertions -/

/-- `'CHANGEME' not in value`. -/
def placeholder (value : Text) : Bool := value.tails.any fun t => Text.startswith t "CHANGEME"

def isUrlSafe (c : Char) : Bool := c.isAlphanum || c ∈ ['.', '_', '~', '-']

/-- `value is match('^[A-Za-z0-9._~-]+$')`; `$` also matches before a line end
that closes the text. -/
def urlSafe (value : Text) : Bool :=
  let body := if value.getLast? = some '\n' then value.dropLast else value
  !body.isEmpty && body.all isUrlSafe

/-- The assertions of the role on its values, and those of preflight. -/
def accepted (v : Values) : Bool :=
  !v.existingEnv &&
    !v.controllerImageRepo.isEmpty && !v.controllerImageTag.isEmpty &&
    (!decide (v.controllerImageTag ∈ (["latest", "stable", "main", "master"] : List Text)) ||
      v.controllerImageAllowFloatingTag) &&
    128 ≤ v.secretKeyBase.length && 128 ≤ v.userAuthSecret.length &&
    !placeholder v.secretKeyBase && !placeholder v.userAuthSecret &&
    !v.nodeEnrollmentToken.isEmpty &&
    !v.postgresPassword.isEmpty && urlSafe v.postgresPassword

/-! ## The template -/

inductive Line where
  | comment (text : Text)
  | blank
  | set (name value : Text)
deriving DecidableEq, Repr

def Line.text : Line → Text
  | .comment t => '#' :: t
  | .blank => []
  | .set name value => name ++ ['='] ++ value

def Line.row : Line → Option (Text × Text)
  | .set name value => some (name, value)
  | _ => none

def intText : ℤ → Text
  | .ofNat n => decimal n
  | .negSucc n => '-' :: decimal (n + 1)

def databaseUrl (v : Values) : Text :=
  "postgresql://" ++ v.controllerPostgresUser ++ [':'] ++ v.postgresPassword ++ ['@'] ++
    v.controllerPostgresHost ++ ['/'] ++ v.controllerPostgresDatabase ++ "?pool=" ++
    v.controllerPostgresPool

/-- The first three lines are `ansible_managed | comment`. -/
def template (v : Values) : List Line :=
  [.comment [], .comment " Ansible managed", .comment [],
    .comment [],
    .comment " ComputeStacks controller environment. Sourced by /usr/local/bin/cstacks and",
    .comment " handed to the portal container.",
    .comment [],
    .comment " SECRET_KEY_BASE and USER_AUTH_SECRET are IMMUTABLE INSTALL INPUTS. They come",
    .comment " from the vaulted secrets file and are never generated here. Changing",
    .comment " SECRET_KEY_BASE silently destroys every encrypted credential in the database",
    .comment " (agent tokens, DNS API keys, load balancer certificates) — treat a rotation",
    .comment " as a full reinstall.",
    .comment [],
    .comment " This file is rendered whole ONLY on a greenfield controller. On an existing",
    .comment " environment (existing_env: true) it is append-only; see",
    .comment " roles/controller/tasks/attach_prep.yml.",
    .blank,
    .comment " --- paths ----------------------------------------------------------------",
    .set "CS_APP_ID" v.controllerAppId,
    .set "CS_CERT_PATH" v.controllerCertificatesDir,
    .set "CS_SSH_KEYS_PATH" v.controllerSshKeyDir,
    .set "CS_BRANDING_PATH" v.controllerBrandingDir,
    .set "CS_PROXY_IPS_PATH" v.controllerProxyIpsDir,
    .set "CS_STATE_PATH" v.controllerDataDir,
    .set "DB_BACKUPS_PATH" v.controllerBackupsDir,
    .blank,
    .comment " --- application ----------------------------------------------------------",
    .set "CS_LOCALE" v.controllerLocale,
    .set "CS_CURRENCY" v.controllerCurrency,
    .set "CS_DB_NAME" v.controllerPostgresDatabase,
    .set "CS_CONTAINER_NAME" v.controllerContainerName,
    .blank,
    .set "SECRET_KEY_BASE" v.secretKeyBase,
    .set "USER_AUTH_SECRET" v.userAuthSecret,
    .comment " Shared bearer for POST /api/system/agent_tokens — the cs-agent enrollment",
    .comment " endpoint (controller repo config/routes/api/system.rb).",
    .set "NODE_ENROLLMENT_TOKEN" v.nodeEnrollmentToken,
    .blank,
    .set "DATABASE_URL" (databaseUrl v),
    .set "REDIS_HOST" v.controllerRedisHost,
    .set "REDIS_PORT" v.redisPort,
    .blank,
    .comment " --- image ----------------------------------------------------------------",
    .comment " The minor tag is a deliberate rolling release channel: `cstacks upgrade`",
    .comment " pulls the newest patch in the line. Do not pin a digest here — that would",
    .comment " make every future upgrade a silent no-op.",
    .set "CS_IMAGE_REPO" v.controllerImageRepo,
    .set "CS_IMAGE_TAG" v.controllerImageTag,
    .set "CS_REG" (v.controllerImageRepo ++ [':'] ++ v.controllerImageTag),
    .blank,
    .comment " --- concurrency ----------------------------------------------------------",
    .set "RAILS_MAX_THREADS" (intText v.controllerRailsMaxThreads),
    .set "RAILS_MIN_THREADS" (intText v.controllerRailsMinThreads),
    .set "WEB_CONCURRENCY" (intText v.controllerPumaWorkers),
    .set "QUEUE_SYSTEM" (intText v.controllerQueueSystem),
    .set "QUEUE_DEPLOYMENTS" (intText v.controllerQueueDeployments),
    .set "QUEUE_LE" (intText v.controllerQueueLe),
    .blank,
    .comment " --- ruby runtime ---------------------------------------------------------",
    .set "MALLOC_CONF" v.controllerMallocConf,
    .set "RUBY_YJIT_ENABLE" v.controllerRubyYjitEnable,
    .blank,
    .comment " --- bug reporting (empty disables) ---------------------------------------",
    .set "SENTRY_DSN" v.controllerSentryDsn]

def rendered (lines : List Line) : Text := lines.flatMap fun l => l.text ++ ['\n']

def rows (lines : List Line) : List (Text × Text) := lines.filterMap Line.row

def environmentFile (v : Values) : Text := rendered (template v)

def assignments (v : Values) : List (Text × Text) := rows (template v)

/-! ## Reading the file back -/

/-- Sourcing the file makes the assignments of the template and no others, each
line its own on every host, and the script goes on and starts the portal with
what they give. -/
structure Decodes (v : Values) : Prop where
  lines : ∀ row ∈ assignments v, Reads row
  sourced : ∀ h, source h (environmentFile v) = .ok (assignments v).reverse
  handed : ∀ h, ∃ vars, settle h (assignments v).reverse = some vars ∧
    runArgs h vars = runArgs h (assignments v).reverse

def Line.Faithful : Line → Prop
  | .comment t => '\n' ∉ t
  | .blank => True
  | .set name value => Reads (name, value)

theorem read_lines {h : Shell.Host} {lines : List Line} (hlines : ∀ l ∈ lines, l.Faithful)
    (vars : List (Text × Text)) :
    read h (.after vars) (rendered lines) = .ok (.after ((rows lines).reverse ++ vars)) := by
  induction lines generalizing vars with
  | nil => rfl
  | cons l lines ih =>
    obtain ⟨hl, hrest⟩ := List.forall_mem_cons.mp hlines
    have hline : read h (.after vars) (l.text ++ ['\n']) =
        .ok (.after ((rows [l]).reverse ++ vars)) := by
      cases l with
      | comment t => exact read_comment hl vars
      | blank => exact read_blank vars
      | set name value => exact hl h vars
    have hrows : rows (l :: lines) = rows [l] ++ rows lines :=
      (List.filterMap_append : ([l] ++ lines).filterMap Line.row = _)
    rw [rendered, List.flatMap_cons, read_after hline, hrows, List.reverse_append, List.append_assoc]
    exact ih hrest _

theorem finish_after (h : Shell.Host) (vars : List (Text × Text)) : finish h (.after vars) = .ok vars :=
  rfl

def Line.note : Line → Option Text
  | .comment t => some t
  | _ => none

/-- What the template has besides the values does not depend on them. -/
def unset : Values where
  secretKeyBase := []
  userAuthSecret := []
  nodeEnrollmentToken := []
  postgresPassword := []

theorem not_mem_literal {c : Char} {chars : List Char} (hc : c ∉ chars) :
    c ∉ (String.ofList chars).toList := by
  rwa [String.toList_ofList]

theorem notes (v : Values) : ∀ t ∈ (template v).filterMap Line.note, '\n' ∉ t := by
  simp only [template, List.filterMap_cons, List.filterMap_nil, Line.note, List.forall_mem_cons]
  and_intros
  all_goals first | exact not_mem_literal (by decide) | exact List.not_mem_nil | simp

theorem names_unset (v : Values) :
    (assignments v).map Prod.fst = (assignments unset).map Prod.fst := by
  simp only [assignments, rows, template, List.filterMap_cons, List.filterMap_nil, Line.row,
    List.map_cons, List.map_nil]

theorem names (v : Values) : ∀ n ∈ (assignments v).map Prod.fst, isName n = true ∧ n ∉ special := by
  rw [names_unset]
  simp only [assignments, rows, template, List.filterMap_cons, List.filterMap_nil, Line.row,
    List.map_cons, List.map_nil, special, String.reduceToList]
  decide

theorem faithful {lines : List Line} (hnotes : ∀ t ∈ lines.filterMap Line.note, '\n' ∉ t)
    (hrows : ∀ row ∈ rows lines, Reads row) : ∀ l ∈ lines, l.Faithful := by
  intro l hl
  cases hm : l with
  | comment t => exact hnotes t (List.mem_filterMap.mpr ⟨l, hl, by rw [hm]; rfl⟩)
  | blank => trivial
  | set name value =>
    exact hrows (name, value) (List.mem_filterMap.mpr ⟨l, hl, by rw [hm]; rfl⟩)

theorem source_template {v : Values} (hv : ∀ row ∈ assignments v, Reads row) (h : Shell.Host) :
    source h (environmentFile v) = .ok (assignments v).reverse := by
  have hread := read_lines (h := h) (faithful (notes v) hv) []
  rw [List.append_nil] at hread
  have hread' : read h {} (environmentFile v) = .ok (.after (assignments v).reverse) := hread
  rw [source, hread']
  exact finish_after h _

theorem reads_iff_plain (v : Values) :
    (∀ row ∈ assignments v, Reads row) ↔ ∀ row ∈ assignments v, Plain row.2 := by
  refine forall₂_congr fun row hrow => ?_
  obtain ⟨hname, hspecial⟩ := names v row.1 (List.mem_map_of_mem hrow)
  exact reads_iff hname hspecial

theorem lookup_assigned {v : Values} {row : Text × Text} (hrow : row ∈ assignments v) (h : Shell.Host) :
    h.lookup (assignments v).reverse row.1 = some row.2 := by
  have hnodup : ((assignments v).map Prod.fst).Nodup := by
    rw [names_unset]
    simp only [assignments, rows, template, List.filterMap_cons, List.filterMap_nil, Line.row,
      List.map_cons, List.map_nil, String.reduceToList]
    decide
  refine lookup_of_mem ?_ (List.mem_reverse.mpr hrow)
  rw [List.map_reverse]
  exact List.nodup_reverse.mpr hnodup

theorem handed_iff (v : Values) (h : Shell.Host) :
    (∃ vars, settle h (assignments v).reverse = some vars ∧
      runArgs h vars = runArgs h (assignments v).reverse) ↔
    ∀ row ∈ assignments v, row.1 ∈ required ++ backed → row.2 ≠ [] := by
  have hset : ∀ n ∈ required ++ defaults.map Prod.fst, n ∈ (assignments unset).map Prod.fst := by
    simp only [required, defaults, assignments, rows, template, List.filterMap_cons,
      List.filterMap_nil, Line.row, List.map_cons, List.map_nil, String.reduceToList]
    decide
  have hnames : ∀ n ∈ required ++ backed, n ∈ (assignments v).map Prod.fst := by
    intro n hn
    rw [names_unset]
    refine hset n (List.mem_append.mpr ((List.mem_append.mp hn).imp_right fun hbacked => ?_))
    obtain ⟨row, hrow, rfl⟩ := List.mem_map.mp hbacked
    exact List.mem_map_of_mem (List.mem_filter.mp hrow).1
  have hreg : setting h (assignments v).reverse "CS_REG" ≠ [] := by
    have hrow : (("CS_REG" : Text), v.controllerImageRepo ++ [':'] ++ v.controllerImageTag) ∈
        assignments v := by
      refine List.mem_filterMap.mpr ⟨.set "CS_REG" _, ?_, rfl⟩
      simp only [template, List.mem_cons, true_or, or_true]
    rw [setting, lookup_assigned hrow]
    simp
  rw [settle_same_iff hreg, ← List.forall_mem_append]
  constructor
  · intro hset row hrow hneeded
    have hvalue := hset row.1 hneeded
    rwa [setting, lookup_assigned hrow] at hvalue
  · intro hset n hn
    obtain ⟨row, hrow, rfl⟩ := List.mem_map.mp (hnames n hn)
    rw [setting, lookup_assigned hrow]
    exact hset row hrow hn

/-- The file decodes to the inventory's values exactly when they are all plain
and none that the script needs or has a fallback for is empty. -/
theorem decodes_iff (v : Values) :
    Decodes v ↔ (∀ row ∈ assignments v, Plain row.2) ∧
      ∀ row ∈ assignments v, row.1 ∈ required ++ backed → row.2 ≠ [] := by
  rw [← reads_iff_plain]
  constructor
  · intro hdecodes
    have hhost : Shell.Host := ⟨fun _ => none, fun _ => none⟩
    exact ⟨hdecodes.lines, (handed_iff v hhost).mp (hdecodes.handed hhost)⟩
  · rintro ⟨hreads, hset⟩
    exact ⟨hreads, source_template hreads, fun h => (handed_iff v h).mpr hset⟩

/-- Accepted values with a secret that has a backslash in it. -/
def backslashed : Values where
  secretKeyBase := List.replicate 128 'a' ++ ['\\', 'b']
  userAuthSecret := List.replicate 128 'c'
  nodeEnrollmentToken := "token"
  postgresPassword := "password"

def lost : Text × Text := ("SECRET_KEY_BASE", List.replicate 128 'a' ++ ['b'])

def misread : List (Text × Text) :=
  rows ((template backslashed).take 32) ++ lost :: rows ((template backslashed).drop 33)

theorem source_backslashed (h : Shell.Host) :
    source h (environmentFile backslashed) = .ok misread.reverse := by
  have hplain : ∀ row ∈ rows ((template backslashed).take 32 ++ (template backslashed).drop 33),
      Plain row.2 := by decide
  have hlines : ∀ l ∈ (template backslashed).take 32 ++ (template backslashed).drop 33,
      l ∈ template backslashed := by
    intro l hl
    exact (List.mem_append.mp hl).elim List.mem_of_mem_take List.mem_of_mem_drop
  have hfaithful : ∀ l ∈ (template backslashed).take 32 ++ (template backslashed).drop 33,
      l.Faithful := by
    refine faithful (fun t ht => ?_) fun row hrow => ?_
    · obtain ⟨l, hl, hnote⟩ := List.mem_filterMap.mp ht
      exact notes backslashed t (List.mem_filterMap.mpr ⟨l, hlines l hl, hnote⟩)
    · obtain ⟨l, hl, hset⟩ := List.mem_filterMap.mp hrow
      have hname := names backslashed row.1
        (List.mem_map_of_mem (List.mem_filterMap.mpr ⟨l, hlines l hl, hset⟩))
      exact (reads_iff hname.1 hname.2).mpr (hplain row hrow)
  obtain ⟨hbefore, hafter⟩ := List.forall_mem_append.mp hfaithful
  have hsplit : template backslashed = (template backslashed).take 32 ++
      .set "SECRET_KEY_BASE" backslashed.secretKeyBase :: (template backslashed).drop 33 := rfl
  have hline : ∀ vars, read h (.after vars)
      (Line.text (.set "SECRET_KEY_BASE" backslashed.secretKeyBase) ++ ['\n']) =
        .ok (.after (lost :: vars)) := fun vars =>
    read_backslash (by decide) (by decide) (by simp [isNameChar]) (by decide) vars
  have hfile : environmentFile backslashed = rendered ((template backslashed).take 32) ++
      ((Line.text (.set "SECRET_KEY_BASE" backslashed.secretKeyBase) ++ ['\n']) ++
        rendered ((template backslashed).drop 33)) := by
    rw [environmentFile, hsplit, rendered, List.flatMap_append, List.flatMap_cons]
    rfl
  have hread : read h {} (environmentFile backslashed) = .ok (.after misread.reverse) := by
    change read h (.after []) _ = _
    rw [hfile, read_after (read_lines hbefore []), read_after (hline _), read_lines hafter]
    simp [misread]
  rw [source, hread]
  exact finish_after h _

/-- The environment then has another secret, and nothing failed. -/
theorem backslash_lost : accepted backslashed = true ∧
    (∀ h, ∃ vars, source h (environmentFile backslashed) = .ok vars ∧
      h.lookup vars "SECRET_KEY_BASE" = some (List.replicate 128 'a' ++ ['b'])) ∧
    ¬ Decodes backslashed := by
  have hlookup : misread.reverse.lookup lost.1 = some lost.2 := by decide
  refine ⟨by decide +kernel, fun h => ⟨misread.reverse, source_backslashed h, ?_⟩, ?_⟩
  · have hvalue : h.lookup misread.reverse lost.1 = some lost.2 := by
      rw [Shell.Host.lookup, hlookup]
      rfl
    exact hvalue
  · intro hdecodes
    have hsame := hdecodes.sourced ⟨fun _ => none, fun _ => none⟩
    rw [source_backslashed] at hsame
    have hne : misread ≠ assignments backslashed := by decide
    exact hne (List.reverse_injective (Except.ok.inj hsame))

end Provisioner.Controller.Rendered
