import Provisioner.Library.Shell

/-!
# The settings of `cstacks`

What the script makes of the environment file: it sources it, gives every
setting that is missing or empty its fallback, and hands the settings to the
containers it starts.
-/

namespace Provisioner.Controller.Settings

open Shell

/-- The fallbacks, in the script's order. -/
def defaults : List (Text × Text) :=
  [("CS_APP_ID", "default"),
    ("CS_CERT_PATH", "/etc/computestacks/certificates"),
    ("CS_SSH_KEYS_PATH", "/etc/computestacks/.ssh"),
    ("CS_BRANDING_PATH", "/var/lib/computestacks/branding"),
    ("CS_PROXY_IPS_PATH", "/var/lib/computestacks/proxy_ips"),
    ("CS_STATE_PATH", "/var/lib/computestacks"),
    ("DB_BACKUPS_PATH", "/var/lib/computestacks/backups"),
    ("CS_LOCALE", "en"),
    ("CS_CURRENCY", "USD"),
    ("CS_DB_NAME", "cloudportal"),
    ("CS_CONTAINER_NAME", "portal"),
    ("REDIS_HOST", "127.0.0.1"),
    ("REDIS_PORT", "6379"),
    ("RAILS_MAX_THREADS", "15"),
    ("RAILS_MIN_THREADS", "15"),
    ("WEB_CONCURRENCY", "2"),
    ("QUEUE_SYSTEM", "15"),
    ("QUEUE_DEPLOYMENTS", "20"),
    ("QUEUE_LE", "2"),
    ("SENTRY_DSN", ""),
    ("NODE_ENROLLMENT_TOKEN", ""),
    ("MALLOC_CONF", "dirty_decay_ms:1000,narenas:2,background_thread:true,stats_print:false"),
    ("RUBY_YJIT_ENABLE", "1")]

variable (h : Shell.Host)

/-- `: "${NAME:=fallback}"`. -/
def defaultTo (vars : List (Text × Text)) (row : Text × Text) : List (Text × Text) :=
  if (h.lookup vars row.1).getD [] = [] then row :: vars else vars

def withDefaults (vars : List (Text × Text)) : List (Text × Text) :=
  defaults.foldl (defaultTo h) vars

/-- `"$NAME"` of a setting that the script has made sure of. -/
def setting (vars : List (Text × Text)) (n : Text) : Text := (h.lookup vars n).getD []

/-- The settings that a container gets as variables of its own, by their names
there. -/
def carried : List (Text × Text) :=
  [("APP_ID", "CS_APP_ID"), ("CURRENCY", "CS_CURRENCY"), ("LOCALE", "CS_LOCALE"),
    ("SECRET_KEY_BASE", "SECRET_KEY_BASE"), ("USER_AUTH_SECRET", "USER_AUTH_SECRET"),
    ("NODE_ENROLLMENT_TOKEN", "NODE_ENROLLMENT_TOKEN"), ("DATABASE_URL", "DATABASE_URL"),
    ("REDIS_HOST", "REDIS_HOST"), ("REDIS_PORT", "REDIS_PORT"),
    ("RAILS_MAX_THREADS", "RAILS_MAX_THREADS"), ("RAILS_MIN_THREADS", "RAILS_MIN_THREADS"),
    ("SENTRY_DSN", "SENTRY_DSN"), ("MALLOC_CONF", "MALLOC_CONF"),
    ("RUBY_YJIT_ENABLE", "RUBY_YJIT_ENABLE")]

def buildEnvArgs (vars : List (Text × Text)) : List Text :=
  (carried.map fun (name, var) => name ++ ['='] ++ setting h vars var) ++
    ["REDIS_URL=redis://" ++ setting h vars "REDIS_HOST" ++ [':'] ++
        setting h vars "REDIS_PORT" ++ "/12",
      "RAILS_ENV=production", "RACK_ENV=production", "DOCKER_CERT_PATH=/root/.docker",
      "CS_SSH_KEY=lib/ssh/id_ed25519", "PROXY_IP_DIR=/usr/src/app/lib/proxy_ips"]

/-- The directories of the host that a container mounts. -/
def buildMountArgs (vars : List (Text × Text)) : List Text :=
  [setting h vars "CS_CERT_PATH" ++ "/docker", setting h vars "CS_BRANDING_PATH",
    setting h vars "CS_SSH_KEYS_PATH", setting h vars "CS_PROXY_IPS_PATH"]

/-- The settings that only the portal itself is given. -/
def tuned : List Text := ["WEB_CONCURRENCY", "QUEUE_SYSTEM", "QUEUE_DEPLOYMENTS", "QUEUE_LE"]

/-- What `run` hands to `docker run` of the settings, its name and image too. -/
def runArgs (vars : List (Text × Text)) : List Text :=
  setting h vars "CS_CONTAINER_NAME" :: buildMountArgs h vars ++ buildEnvArgs h vars ++
    (tuned.map fun n => n ++ ['='] ++ setting h vars n) ++ [setting h vars "CS_REG"]

/-- `CS_REG`, of its two halves where the file does not set it. -/
def withImage (vars : List (Text × Text)) : Option (List (Text × Text)) :=
  if setting h vars "CS_REG" ≠ [] then some vars
  else if setting h vars "CS_IMAGE_REPO" ≠ [] ∧ setting h vars "CS_IMAGE_TAG" ≠ [] then
    some (("CS_REG", setting h vars "CS_IMAGE_REPO" ++ [':'] ++ setting h vars "CS_IMAGE_TAG") :: vars)
  else none

def required : List Text := ["SECRET_KEY_BASE", "USER_AUTH_SECRET", "DATABASE_URL"]

def settle (vars : List (Text × Text)) : Option (List (Text × Text)) :=
  (withImage h (withDefaults h vars)).filter fun vars' =>
    required.all fun n => setting h vars' n ≠ []

variable {h}

theorem lookup_cons_same (vars : List (Text × Text)) (n value : Text) :
    h.lookup ((n, value) :: vars) n = some value := by
  simp [Shell.Host.lookup]

theorem lookup_cons_ne {n m : Text} (hne : n ≠ m) (vars : List (Text × Text)) (value : Text) :
    h.lookup ((m, value) :: vars) n = h.lookup vars n := by
  have hbeq : (n == m) = false := by simpa using hne
  simp [Shell.Host.lookup, List.lookup_cons, hbeq]

theorem lookup_default_ne {row : Text × Text} {n : Text} (hne : n ≠ row.1)
    (vars : List (Text × Text)) : h.lookup (defaultTo h vars row) n = h.lookup vars n := by
  rw [defaultTo]
  split
  · exact lookup_cons_ne hne vars row.2
  · rfl

theorem lookup_fold_ne {rows : List (Text × Text)} {n : Text} (hne : ∀ row ∈ rows, n ≠ row.1)
    (vars : List (Text × Text)) :
    h.lookup (rows.foldl (defaultTo h) vars) n = h.lookup vars n := by
  induction rows generalizing vars with
  | nil => rfl
  | cons row rows ih =>
    obtain ⟨hrow, hrows⟩ := List.forall_mem_cons.mp hne
    rw [List.foldl_cons, ih hrows, lookup_default_ne hrow]

def filled (value : Option Text) (fallback : Text) : Text :=
  if value.getD [] = [] then fallback else value.getD []

theorem setting_fold {rows : List (Text × Text)} (hnodup : (rows.map Prod.fst).Nodup)
    {row : Text × Text} (hrow : row ∈ rows) (vars : List (Text × Text)) :
    setting h (rows.foldl (defaultTo h) vars) row.1 = filled (h.lookup vars row.1) row.2 := by
  induction rows generalizing vars with
  | nil => cases hrow
  | cons first rows ih =>
    rw [List.map_cons, List.nodup_cons] at hnodup
    rw [List.foldl_cons]
    rcases List.mem_cons.mp hrow with rfl | hrow
    · have hne : ∀ other ∈ rows, row.1 ≠ other.1 := by
        intro other hother heq
        exact hnodup.1 (heq ▸ List.mem_map_of_mem hother)
      rw [setting, lookup_fold_ne hne, defaultTo, filled]
      split
      · rw [lookup_cons_same]
        rfl
      · rfl
    · have hne : row.1 ≠ first.1 := by
        intro heq
        exact hnodup.1 (heq ▸ List.mem_map_of_mem hrow)
      rw [ih hnodup.2 hrow, lookup_default_ne hne]

theorem nodup_defaults : (defaults.map Prod.fst).Nodup := by decide

theorem setting_withDefaults {row : Text × Text} (hrow : row ∈ defaults)
    (vars : List (Text × Text)) :
    setting h (withDefaults h vars) row.1 = filled (h.lookup vars row.1) row.2 :=
  setting_fold nodup_defaults hrow vars

theorem setting_without_default {n : Text} (hn : ∀ row ∈ defaults, n ≠ row.1)
    (vars : List (Text × Text)) : setting h (withDefaults h vars) n = setting h vars n := by
  rw [setting, withDefaults, lookup_fold_ne hn]
  rfl

theorem lookup_of_mem {vars : List (Text × Text)} (hnodup : (vars.map Prod.fst).Nodup)
    {row : Text × Text} (hrow : row ∈ vars) : h.lookup vars row.1 = some row.2 := by
  induction vars with
  | nil => cases hrow
  | cons first vars ih =>
    rw [List.map_cons, List.nodup_cons] at hnodup
    rcases List.mem_cons.mp hrow with rfl | hrow
    · exact lookup_cons_same vars row.1 row.2
    · have hne : row.1 ≠ first.1 := by
        intro heq
        exact hnodup.1 (heq ▸ List.mem_map_of_mem hrow)
      rw [lookup_cons_ne hne vars first.2]
      exact ih hnodup.2 hrow

def mounted : List Text :=
  ["CS_CERT_PATH", "CS_BRANDING_PATH", "CS_SSH_KEYS_PATH", "CS_PROXY_IPS_PATH"]

def handed : List Text :=
  mounted ++ carried.map Prod.snd ++ tuned ++ [("CS_CONTAINER_NAME" : Text), "CS_REG"]

def backed : List Text :=
  (defaults.filter fun row => row.2 ≠ [] ∧ row.1 ∈ handed).map Prod.fst

theorem row_backed_iff {row : Text × Text} (hrow : row ∈ defaults) :
    row.1 ∈ backed ↔ row.1 ∈ handed ∧ row.2 ≠ [] := by
  constructor
  · intro hbacked
    obtain ⟨other, hother, hname⟩ := List.mem_map.mp hbacked
    obtain ⟨hmem, hother⟩ := List.mem_filter.mp hother
    obtain ⟨hfallback, hhanded⟩ := of_decide_eq_true hother
    have heq : other = row := List.inj_on_of_nodup_map nodup_defaults hmem hrow hname
    rw [← heq]
    exact ⟨hhanded, hfallback⟩
  · rintro ⟨hhanded, hfallback⟩
    exact List.mem_map_of_mem (List.mem_filter.mpr ⟨hrow, decide_eq_true ⟨hfallback, hhanded⟩⟩)

theorem filled_same_iff (value : Option Text) (fallback : Text) :
    filled value fallback = value.getD [] ↔ (fallback ≠ [] → value.getD [] ≠ []) := by
  rw [filled]
  constructor
  · intro hsame hfallback hempty
    rw [if_pos hempty, hempty] at hsame
    exact hfallback hsame
  · intro hset
    split
    · rename_i hempty
      rw [hempty]
      by_contra hfallback
      exact hset hfallback hempty
    · rfl

theorem setting_filled_iff {n : Text} (hn : n ∈ handed) (vars : List (Text × Text)) :
    setting h (withDefaults h vars) n = setting h vars n ↔
      (n ∈ backed → setting h vars n ≠ []) := by
  by_cases hrow : ∃ row ∈ defaults, row.1 = n
  · obtain ⟨row, hrow, rfl⟩ := hrow
    rw [setting_withDefaults hrow, row_backed_iff hrow]
    simp only [hn, true_and]
    exact filled_same_iff _ row.2
  · have hother : ∀ row ∈ defaults, n ≠ row.1 := fun row hmem heq => hrow ⟨row, hmem, heq.symm⟩
    rw [setting_without_default hother]
    simp only [true_iff]
    intro hbacked
    obtain ⟨row, hmem, rfl⟩ := List.mem_map.mp hbacked
    exact absurd rfl (hother row (List.mem_filter.mp hmem).1)

/-- Two settings start the portal alike exactly where they agree on what is handed
to it. -/
theorem runArgs_same_iff (vars vars' : List (Text × Text)) :
    runArgs h vars' = runArgs h vars ↔ ∀ n ∈ handed, setting h vars' n = setting h vars n := by
  constructor
  · intro hargs
    obtain ⟨hargs, hreg⟩ := List.append_inj hargs (by simp [buildMountArgs, buildEnvArgs])
    obtain ⟨hargs, htuned⟩ := List.append_inj hargs (by simp [buildMountArgs, buildEnvArgs])
    obtain ⟨hargs, henv⟩ := List.append_inj hargs (by simp [buildMountArgs])
    obtain ⟨hname, hmounts⟩ := List.cons.inj hargs
    have hcarried := List.map_inj_left.mp (List.append_inj henv (by simp)).1
    simp only [buildMountArgs, List.cons.injEq, List.append_cancel_right_eq, and_true] at hmounts
    obtain ⟨hcert, hbranding, hssh, hips⟩ := hmounts
    simp only [handed, mounted, List.forall_mem_append, List.forall_mem_cons]
    refine ⟨⟨⟨⟨hcert, hbranding, hssh, hips, nofun⟩, ?_⟩, ?_⟩, hname, List.singleton_inj.mp hreg,
      nofun⟩
    · intro n hn
      obtain ⟨pair, hpair, rfl⟩ := List.mem_map.mp hn
      exact List.append_cancel_left (hcarried pair hpair)
    · exact fun n hn => List.append_cancel_left (List.map_inj_left.mp htuned n hn)
  · intro hsame
    have henv : buildEnvArgs h vars' = buildEnvArgs h vars := by
      have hmaps : carried.map (fun pair => pair.1 ++ ['='] ++ setting h vars' pair.2) =
          carried.map (fun pair => pair.1 ++ ['='] ++ setting h vars pair.2) :=
        List.map_congr_left fun pair hpair => by
          rw [hsame pair.2 (by simp [handed, List.mem_map_of_mem hpair])]
      rw [buildEnvArgs, hsame "REDIS_HOST" (by decide), hsame "REDIS_PORT" (by decide)]
      exact congrArg (· ++ _) hmaps
    have htuned : (tuned.map fun n => n ++ ['='] ++ setting h vars' n) =
        tuned.map fun n => n ++ ['='] ++ setting h vars n :=
      List.map_congr_left fun n hn => by rw [hsame n (by simp [handed, hn])]
    rw [runArgs, runArgs, henv, htuned, buildMountArgs, buildMountArgs]
    rw [hsame "CS_CERT_PATH" (by decide), hsame "CS_BRANDING_PATH" (by decide),
      hsame "CS_SSH_KEYS_PATH" (by decide), hsame "CS_PROXY_IPS_PATH" (by decide),
      hsame "CS_CONTAINER_NAME" (by decide), hsame "CS_REG" (by decide)]

/-- Where the file sets the image, the script goes on, and starts the portal as
the file says, exactly where no setting that it needs is empty and no fallback is
used. -/
theorem settle_same_iff {vars : List (Text × Text)} (hreg : setting h vars "CS_REG" ≠ []) :
    (∃ vars', settle h vars = some vars' ∧ runArgs h vars' = runArgs h vars) ↔
      (∀ n ∈ required, setting h vars n ≠ []) ∧ ∀ n ∈ backed, setting h vars n ≠ [] := by
  have hbare : ∀ n ∈ ("CS_REG" : Text) :: required, ∀ row ∈ defaults, n ≠ row.1 := by decide
  have hkept : ∀ n ∈ required, setting h (withDefaults h vars) n = setting h vars n := fun n hn =>
    setting_without_default (hbare n (List.mem_cons_of_mem _ hn)) vars
  have himage : withImage h (withDefaults h vars) = some (withDefaults h vars) := by
    rw [withImage, setting_without_default (hbare _ List.mem_cons_self), if_pos hreg]
  have hhanded : ∀ n ∈ backed, n ∈ handed := by decide
  have hargs : runArgs h (withDefaults h vars) = runArgs h vars ↔
      ∀ n ∈ backed, setting h vars n ≠ [] := by
    rw [runArgs_same_iff]
    constructor
    · exact fun hsame n hn =>
        (setting_filled_iff (hhanded n hn) vars).mp (hsame n (hhanded n hn)) hn
    · exact fun hset n hn => (setting_filled_iff hn vars).mpr (hset n)
  rw [settle, himage, ← hargs]
  simp only [Option.filter_eq_some_iff, Option.some.injEq, List.all_eq_true, decide_eq_true_eq]
  constructor
  · rintro ⟨_, ⟨rfl, hrequired⟩, hsame⟩
    exact ⟨fun n hn => hkept n hn ▸ hrequired n hn, hsame⟩
  · rintro ⟨hrequired, hsame⟩
    exact ⟨_, ⟨rfl, fun n hn => (hkept n hn).symm ▸ hrequired n hn⟩, hsame⟩

end Provisioner.Controller.Settings
