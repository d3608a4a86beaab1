import Provisioner.AcmeWeb.Cert

/-!
# What nginx serves

Whatever is renewed between two tasks, and wherever a run is cut: the vhosts of
a host are there only with a key and a certificate for the host's names.
-/

namespace Provisioner.AcmeWeb

open Play Text

/-! ## Names -/

def Covers (sans domains : List Text) : Prop :=
  ∀ name, name ∈ dnsNames sans ↔ name ∈ domains.map normal

theorem mismatch_eq_nil {sans domains : List Text} :
    mismatch sans domains = [] ↔ Covers sans domains := by
  rw [mismatch, symmetricDifference, List.append_eq_nil_iff, List.filter_eq_nil_iff,
    List.filter_eq_nil_iff]
  simp only [decide_eq_true_eq, not_not]
  constructor
  · exact fun h name => ⟨h.1 name, h.2 name⟩
  · exact fun h => ⟨fun name => (h name).mp, fun name => (h name).mpr⟩

theorem covers_request (domains : List Text) :
    Covers (domains.map fun name => ("DNS:" : Text) ++ name) domains := by
  have hnames : dnsNames (domains.map fun name => ("DNS:" : Text) ++ name) =
      domains.map normal := by
    rw [dnsNames, List.filter_eq_self.mpr, List.map_map]
    · rfl
    · intro name hname
      obtain ⟨domain, _, rfl⟩ := List.mem_map.mp hname
      exact List.isPrefixOf_iff_prefix.mpr (List.prefix_append _ _)
  intro name
  rw [hnames]

def Covered (site : Site) (files : Files) : Prop :=
  ∃ c, files.fullchain = some c ∧ Covers c.subjectAltName site.acmeWebDomains

def Served (site : Site) (files : Files) : Prop := files.key = true ∧ Covered site files

/-! ## What an installation changes -/

section Installed

variable {site : Site} (t : Target) (c : Certificate) (n : ℕ) (m : Machine)

theorem installed_rest : (m.installed t c n).store = m.store ∧
    (m.installed t c n).requests = m.requests ∧ (m.installed t c n).installs = m.installs ∧
      (m.installed t c n).conf = m.conf := by
  match t, n with
  | .nginx, 0 | .nginx, 1 | .nginx, 2 | .nginx, _ + 3 => exact ⟨rfl, rfl, rfl, rfl⟩
  | .registry, 0 | .registry, 1 | .registry, 2 | .registry, _ + 3 => exact ⟨rfl, rfl, rfl, rfl⟩

theorem installed_chain (t' : Target) :
    ((m.installed t c n).files t').fullchain = (m.files t').fullchain ∨
      ((m.installed t c n).files t').fullchain = some c := by
  match t, n with
  | _, 0 => exact .inl rfl
  | .nginx, 1 | .registry, 1 => cases t' <;> exact .inl rfl
  | .nginx, 2 | .nginx, _ + 3 =>
    cases t' with
    | nginx => exact .inr rfl
    | registry => exact .inl rfl
  | .registry, 2 =>
    cases t' with
    | nginx => exact .inl rfl
    | registry => exact .inr rfl
  | .registry, _ + 3 => cases t' <;> exact .inr rfl

theorem installed_key (t' : Target) (h : (m.files t').key = true) :
    ((m.installed t c n).files t').key = true := by
  match t, n with
  | _, 0 => exact h
  | .nginx, 1 | .nginx, 2 | .nginx, _ + 3 =>
    cases t' with
    | nginx => rfl
    | registry => exact h
  | .registry, 1 | .registry, 2 =>
    cases t' with
    | nginx => exact h
    | registry => rfl
  | .registry, _ + 3 => cases t' <;> rfl

theorem installed_whole : (m.installed t c (n + 3)).nginx = ⟨some c, true⟩ := by
  cases t <;> rfl

theorem installed_some (t' : Target) (h : (m.files t').fullchain.isSome = true) :
    ((m.installed t c n).files t').fullchain.isSome = true := by
  rcases installed_chain t c n m t' with hsame | hnew
  · rwa [hsame]
  · rw [hnew, Option.isSome_some]

variable {c}

theorem installed_covered (hc : Covers c.subjectAltName site.acmeWebDomains) (t' : Target)
    (h : Covered site (m.files t')) : Covered site ((m.installed t c n).files t') := by
  rcases installed_chain t c n m t' with hsame | hnew
  · obtain ⟨old, hold, hcovers⟩ := h
    exact ⟨old, hsame.trans hold, hcovers⟩
  · exact ⟨c, hnew, hc⟩

theorem installed_served (hc : Covers c.subjectAltName site.acmeWebDomains)
    (h : Served site m.nginx) : Served site (m.installed t c n).nginx :=
  ⟨installed_key t c n m .nginx h.1, installed_covered t n m hc .nginx h.2⟩

end Installed

/-! ## Renewals of the host's names -/

section Keep

variable (site : Site) (sans : List Text → List Text)

def Renewable (m : Machine) : Prop :=
  ∀ name ecc domains, (m.store name ecc).domains = some domains →
    (m.store name ecc).target ≠ none → Covers (sans domains) site.acmeWebDomains

structure Keep where
  keeps : Machine → Prop
  renewed : ∀ e m, keeps m → keeps (m.renewed sans e)
  renewable : ∀ m, keeps m → Renewable site sans m

end Keep

section Renewed

variable {site : Site} {sans : List Text → List Text} {e : Renewal} {m : Machine}

theorem renewed_cases (sans : List Text → List Text) (e : Renewal) (m : Machine) :
    m.renewed sans e = m ∨ ∃ domains n,
      (m.store e.name e.ecc).domains = some domains ∧
        let issued := m.amend e.name e.ecc fun entry =>
          { entry with cert := some ⟨sans domains, e.serial⟩ }
        (m.store e.name e.ecc).target = none ∧ m.renewed sans e = issued ∨
          ∃ t, (m.store e.name e.ecc).target = some t ∧
            m.renewed sans e = issued.installed t ⟨sans domains, e.serial⟩ n := by
  unfold Machine.renewed
  cases hdomains : (m.store e.name e.ecc).domains with
  | none => exact .inl rfl
  | some domains =>
    cases e.steps with
    | zero => exact .inl rfl
    | succ n =>
      right
      refine ⟨domains, n, rfl, ?_⟩
      cases htarget : (m.store e.name e.ecc).target with
      | none => exact .inl ⟨rfl, rfl⟩
      | some t => exact .inr ⟨t, rfl, rfl⟩

theorem amend_files (name : Text) (ecc : Bool) (f : Entry → Entry) (m : Machine) (t : Target) :
    (m.amend name ecc f).files t = m.files t := by
  cases t <;> rfl

theorem renewed_files {P : Files → Prop} (hrenewable : Renewable site sans m) (t' : Target)
    (hinstalled : ∀ t n (c : Certificate) (m : Machine),
      Covers c.subjectAltName site.acmeWebDomains → P (m.files t') →
        P ((m.installed t c n).files t')) (h : P (m.files t')) :
    P ((m.renewed sans e).files t') := by
  rcases renewed_cases sans e m with hsame | ⟨domains, n, hdomains, ⟨-, hnew⟩ | ⟨t, htarget, hnew⟩⟩
  · rwa [hsame]
  · rwa [hnew, amend_files]
  · have hcovers := hrenewable e.name e.ecc domains hdomains (by rw [htarget]; exact nofun)
    rw [hnew]
    refine hinstalled t n _ _ hcovers ?_
    rwa [amend_files]

theorem renewed_rest (sans : List Text → List Text) (e : Renewal) (m : Machine) :
    (m.renewed sans e).requests = m.requests ∧ (m.renewed sans e).installs = m.installs ∧
      (m.renewed sans e).conf = m.conf := by
  rcases renewed_cases sans e m with hsame | ⟨domains, n, -, ⟨-, hnew⟩ | ⟨t, -, hnew⟩⟩
  · rw [hsame]
    exact ⟨rfl, rfl, rfl⟩
  · rw [hnew]
    exact ⟨rfl, rfl, rfl⟩
  · rw [hnew]
    obtain ⟨-, hrequests, hinstalls, hconf⟩ := installed_rest t ⟨sans domains, e.serial⟩ n
      (m.amend e.name e.ecc fun entry => { entry with cert := some ⟨sans domains, e.serial⟩ })
    exact ⟨hrequests, hinstalls, hconf⟩

theorem amend_store (name : Text) (ecc : Bool) (f : Entry → Entry) (m : Machine) (name' : Text)
    (ecc' : Bool) : (m.amend name ecc f).store name' ecc' =
      if name' = name ∧ ecc' = ecc then f (m.store name ecc) else m.store name' ecc' := by
  simp only [Machine.amend, Function.update_apply]
  by_cases hname : name' = name
  · subst hname
    rw [if_pos rfl, Function.update_apply]
    simp
  · rw [if_neg hname, if_neg fun hboth => hname hboth.1]

theorem renewed_store (sans : List Text → List Text) (e : Renewal) (m : Machine) (name : Text)
    (ecc : Bool) : (m.renewed sans e).store name ecc = m.store name ecc ∨
      ∃ domains, (m.store name ecc).domains = some domains ∧ (m.renewed sans e).store name ecc =
        { m.store name ecc with cert := some ⟨sans domains, e.serial⟩ } := by
  rcases renewed_cases sans e m with hsame | ⟨domains, n, hdomains, hcases⟩
  · exact .inl (by rw [hsame])
  have hstore : (m.renewed sans e).store = (m.amend e.name e.ecc fun entry =>
      { entry with cert := some ⟨sans domains, e.serial⟩ }).store := by
    rcases hcases with ⟨-, hnew⟩ | ⟨t, -, hnew⟩
    · rw [hnew]
    · rw [hnew]
      exact (installed_rest t _ n _).1
  rw [hstore, amend_store]
  split
  · rename_i hsame
    obtain ⟨rfl, rfl⟩ := hsame
    exact .inr ⟨domains, hdomains, rfl⟩
  · exact .inl rfl

theorem renewable_renewed (h : Renewable site sans m) : Renewable site sans (m.renewed sans e) := by
  intro name ecc domains hdomains htarget
  rcases renewed_store sans e m name ecc with hsame | ⟨domains', hdomains', hnew⟩
  · rw [hsame] at hdomains htarget
    exact h name ecc domains hdomains htarget
  · rw [hnew] at hdomains htarget
    exact h name ecc domains hdomains htarget

end Renewed

/-! ## Plays between renewals -/

section Plays

variable {site : Site} {sans : List Text → List Text} (K : Keep site sans)

def Keep.setting : Setting Host Renewal where
  ok _ := True
  keep s := K.keeps s.machine
  others := renew sans
  ok_others _ _ h := h
  keep_others e s _ := K.renewed e s.machine

/-- What `P` says outlasts the renewals. -/
class Keep.Lasting (P : Host → Prop) : Prop where
  lasts : K.setting.Lasts P

/-- From `P`, the items run to `Q` if they do not fail, and keep what is kept. -/
def Keep.Passes (P : Host → Prop) (items : List Item) (Q : Host → Prop) : Prop :=
  K.setting.Does P items Q

def Knows (p : Facts → Prop) (s : Host) : Prop := p s.facts

def Given (p : Facts → Prop) (P : Host → Prop) (s : Host) : Prop := p s.facts → P s

variable {K}

instance (p : Facts → Prop) : K.Lasting (Knows p) where
  lasts _ _ _ h := h

instance {p : Facts → Prop} {P : Host → Prop} [h : K.Lasting P] : K.Lasting (Given p P) where
  lasts s e hkeep hP hp := h.lasts s e hkeep (hP hp)

instance {P Q : Host → Prop} [hP : K.Lasting P] [hQ : K.Lasting Q] :
    K.Lasting fun s => P s ∧ Q s where
  lasts := hP.lasts.and hQ.lasts

instance : K.Lasting fun _ => True where
  lasts _ _ _ _ := trivial

instance : K.Lasting fun s => s.machine.nginx.fullchain.isSome = true where
  lasts s _ hkeep h := renewed_files (P := fun files => files.fullchain.isSome = true)
    (K.renewable s.machine hkeep) .nginx (fun t n c m _ => installed_some t c n m .nginx) h

instance : K.Lasting fun s => Covered site s.machine.nginx where
  lasts s _ hkeep h := renewed_files (K.renewable s.machine hkeep) .nginx
    (fun t n _ m hc => installed_covered t n m hc .nginx) h

instance : K.Lasting fun s => s.machine.nginx.key = true where
  lasts s _ hkeep h := renewed_files (P := fun files => files.key = true)
    (K.renewable s.machine hkeep) .nginx (fun t n c m _ => installed_key t c n m .nginx) h

instance : K.Lasting fun s => Served site s.machine.nginx :=
  inferInstanceAs (K.Lasting fun s => s.machine.nginx.key = true ∧ Covered site s.machine.nginx)

variable {P P' Q Q' M : Host → Prop} {items items' : List Item}

theorem Keep.Passes.cons {item : Item} (h : K.Passes P [item] M) (h' : K.Passes M items Q) :
    K.Passes P (item :: items) Q :=
  Setting.Does.cons h h'

theorem Keep.Passes.append (h : K.Passes P items M) (h' : K.Passes M items' Q) :
    K.Passes P (items ++ items') Q :=
  Setting.Does.append h h'

theorem Keep.Passes.pre (h : K.Passes P items Q) (hP : ∀ s, K.keeps s.machine → P' s → P s) :
    K.Passes P' items Q :=
  Setting.Does.pre h hP

theorem Keep.Passes.post (h : K.Passes P items Q) (hQ : ∀ s, K.keeps s.machine → Q s → Q' s) :
    K.Passes P items Q' :=
  Setting.Does.conseq h (fun _ _ hs => hs) hQ

theorem passes_registers [h : K.Lasting P] {f : Host → Facts}
    (hf : ∀ s, K.keeps s.machine → P s → Q { s with facts := f s }) :
    K.Passes P [registers f] Q :=
  Setting.does_observes h.lasts (fun _ _ _ => trivial) fun s _ _ hkeep hs =>
    ⟨hkeep, hf s hkeep hs⟩

theorem passes_command [h : K.Lasting P] : K.Passes P [command] P :=
  Setting.does_observes h.lasts (fun _ _ _ => trivial) fun _ _ _ hkeep hs => ⟨hkeep, hs⟩

theorem passes_gate [h : K.Lasting P] {c : Host → Bool} : K.Passes P [gate c] P :=
  Setting.does_gate h.lasts fun _ _ hs _ => hs

theorem passes_incl [h : K.Lasting P] {c : Host → Bool}
    (hbody : K.Passes (fun s => P s ∧ c s = true) items Q)
    (hskip : ∀ s, P s → c s = false → Q s) : K.Passes P [.incl c items] Q :=
  Setting.does_incl h.lasts hbody fun s _ hs hc => hskip s hs hc

theorem passes_skip [h : K.Lasting P] {c : Host → Bool} (hc : ∀ s, P s → c s = false) :
    K.Passes P [.incl c items] P := by
  apply passes_incl
  · have hnever : K.Passes (fun _ => False) items P := Setting.Does.vacuous fun _ => trivial
    refine hnever.pre fun s _ hs => ?_
    exact Bool.false_ne_true ((hc s hs.1).symm.trans hs.2)
  · exact fun _ hs _ => hs

theorem passes_aside [K.Lasting P] {c : Host → Bool} (h : K.Passes P items P) :
    K.Passes P [.incl c items] P :=
  passes_incl (h.pre fun _ _ hs => hs.1) fun _ hs _ => hs

theorem passes_acts [hP : K.Lasting P] {f : Reply → Host → Host}
    (h : ∀ r s, K.keeps s.machine → P s → K.keeps (f r s).machine ∧ P (f r s)) :
    K.Passes P [acts f] P :=
  Setting.does_acts hP.lasts (fun _ _ _ => trivial) fun s r _ hkeep hs => h r s hkeep hs

theorem passes_install [hP : K.Lasting P] {t : Target}
    (hcalls : ∀ s : Host, K.keeps s.machine → P s →
      K.keeps { s.machine with installs := t :: s.machine.installs })
    (hpart : ∀ (s : Host) c n, K.keeps s.machine → P s →
      (s.machine.store site.acmeWebCertName s.facts.vars.ecc).cert = some c →
        K.keeps (Machine.installed t c n (Machine.amend site.acmeWebCertName s.facts.vars.ecc
          (fun entry => { entry with target := some t })
            { s.machine with installs := t :: s.machine.installs })))
    (hwhole : ∀ (s : Host) c m, K.keeps s.machine → P s →
      (s.machine.store site.acmeWebCertName s.facts.vars.ecc).cert = some c →
        Q { s with machine := Machine.installed t c 3 m }) :
    K.Passes P [installCert site t] Q := by
  apply Setting.does_task hP.lasts fun _ _ _ => trivial
  intro s r _ hkeep hs
  dsimp only
  cases hstore : (s.machine.store site.acmeWebCertName s.facts.vars.ecc).cert with
  | none => exact ⟨hcalls s hkeep hs, trivial⟩
  | some c =>
    dsimp only
    cases r.outcome with
    | ok => exact ⟨hpart s c 3 hkeep hs hstore, hwhole s c _ hkeep hs hstore⟩
    | again | failed =>
      cases r.steps with
      | zero => exact ⟨hcalls s hkeep hs, trivial⟩
      | succ n => exact ⟨hpart s c n hkeep hs hstore, trivial⟩

end Plays

/-! ## What nginx serves -/

section

variable (site : Site) (sans : List Text → List Text)

structure Serves (m : Machine) : Prop where
  /-- What is kept under the host's name, and what its renewals ask for, covers its names. -/
  stored : ∀ ecc c, (m.store site.acmeWebCertName ecc).cert = some c →
    Covers c.subjectAltName site.acmeWebDomains
  named : ∀ ecc domains, (m.store site.acmeWebCertName ecc).domains = some domains →
    Covers (sans domains) site.acmeWebDomains
  renewable : Renewable site sans m
  served : m.conf = some (.vhosts site.acmeWebDomains) → Served site m.nginx
  /-- nginx starts from these vhosts. -/
  starts : ∀ domains, m.conf = some (.vhosts domains) →
    m.nginx.fullchain.isSome = true ∧ m.nginx.key = true

variable {site sans}

theorem serves_renewed (e : Renewal) {m : Machine} (h : Serves site sans m) :
    Serves site sans (m.renewed sans e) := by
  obtain ⟨-, -, hconf⟩ := renewed_rest sans e m
  have hfiles := fun (P : Files → Prop) => @renewed_files site sans e m P h.renewable .nginx
  refine ⟨fun ecc c hc => ?_, fun ecc domains hdomains => ?_, renewable_renewed h.renewable, ?_, ?_⟩
  · rcases renewed_store sans e m site.acmeWebCertName ecc with hsame | ⟨domains, hdomains, hnew⟩
    · rw [hsame] at hc
      exact h.stored ecc c hc
    · rw [hnew] at hc
      rw [← Option.some.inj hc]
      exact h.named ecc domains hdomains
  · rcases renewed_store sans e m site.acmeWebCertName ecc with hsame | ⟨asked, _, hnew⟩
    · rw [hsame] at hdomains
      exact h.named ecc domains hdomains
    · rw [hnew] at hdomains
      exact h.named ecc domains hdomains
  · rw [hconf]
    exact fun hvhosts => hfiles (Served site)
      (fun t n _ m hc => installed_served t n m hc) (h.served hvhosts)
  · rw [hconf]
    intro domains hvhosts
    obtain ⟨hchain, hkey⟩ := h.starts domains hvhosts
    exact ⟨hfiles (fun files => files.fullchain.isSome = true)
      (fun t n c m _ => installed_some t c n m .nginx) hchain,
      hfiles (fun files => files.key = true) (fun t n c m _ => installed_key t c n m .nginx) hkey⟩

def serving (site : Site) (sans : List Text → List Text) : Keep site sans where
  keeps := Serves site sans
  renewed e _ h := serves_renewed e h
  renewable _ h := h.renewable

def Looked (site : Site) : Host → Prop :=
  Given (·.acmeWebNeedIssue = false) fun s => Covered site s.machine.nginx

theorem needIssue_eq_false {s : Host} (h : needIssue site s = false) :
    s.facts.acmeWebCertStat = true ∧
      Covers (s.facts.acmeWebCertInfo.elim [] Certificate.subjectAltName)
        site.acmeWebDomains := by
  rw [needIssue, Bool.or_eq_false_iff, Bool.or_eq_false_iff, Bool.not_eq_false',
    decide_eq_false_iff_not, Nat.pos_iff_ne_zero, not_not, List.length_eq_zero_iff] at h
  exact ⟨h.1.1, mismatch_eq_nil.mp h.2⟩

/-- What has been read is a certificate, and tells whether nginx's covers the names. -/
def Tells (site : Site) (fact : Facts → Option Certificate) (s : Host) : Prop :=
  ∃ c, fact s.facts = some c ∧
    (Covers c.subjectAltName site.acmeWebDomains → Covered site s.machine.nginx)

variable {K : Keep site sans}

instance (fact : Facts → Option Certificate) : K.Lasting (Tells site fact) where
  lasts := by
    rintro s e hkeep ⟨c, hc, htells⟩
    have hcovered : K.Lasting fun s => Covered site s.machine.nginx := inferInstance
    exact ⟨c, hc, fun hcovers => hcovered.lasts s e hkeep (htells hcovers)⟩

instance : K.Lasting (Looked site) := inferInstanceAs (K.Lasting (Given _ _))

theorem look_passes : K.Passes (fun _ => True) (look site) (Looked site) := by
  have hstat : K.Passes (fun _ => True) [registers fun s => { s.facts with
      acmeWebCertStat := s.machine.nginx.fullchain.isSome }]
        (Given (·.acmeWebCertStat = true) fun s => s.machine.nginx.fullchain.isSome = true) :=
    passes_registers fun s _ _ hstat => hstat
  have hpem : K.Passes
      (Given (·.acmeWebCertStat = true) fun s => s.machine.nginx.fullchain.isSome = true)
      [.incl (fun s => s.facts.acmeWebCertStat) [registers fun s =>
        { s.facts with acmeWebCertPem := s.machine.nginx.fullchain }]]
        (Given (·.acmeWebCertStat = true) (Tells site Facts.acmeWebCertPem)) := by
    apply passes_incl
    · have hread : K.Passes (fun s => s.machine.nginx.fullchain.isSome = true) [registers fun s =>
          { s.facts with acmeWebCertPem := s.machine.nginx.fullchain }]
            (Given (·.acmeWebCertStat = true) (Tells site Facts.acmeWebCertPem)) := by
        apply passes_registers
        intro s _ hs _
        obtain ⟨c, hc⟩ := Option.isSome_iff_exists.mp hs
        exact ⟨c, hc, fun hcovers => ⟨c, hc, hcovers⟩⟩
      exact hread.pre fun s _ hs => hs.1 hs.2
    · exact fun s _ hc hstat => absurd (hc.symm.trans hstat) Bool.false_ne_true
  have hinfo : K.Passes (Given (·.acmeWebCertStat = true) (Tells site Facts.acmeWebCertPem))
      [.incl (fun s => s.facts.acmeWebCertStat)
        [registers fun s => { s.facts with acmeWebCertInfo := s.facts.acmeWebCertPem }]]
        (Given (·.acmeWebCertStat = true) (Tells site Facts.acmeWebCertInfo)) := by
    apply passes_incl
    · have hread : K.Passes (Tells site Facts.acmeWebCertPem) [registers fun s =>
          { s.facts with acmeWebCertInfo := s.facts.acmeWebCertPem }]
            (Given (·.acmeWebCertStat = true) (Tells site Facts.acmeWebCertInfo)) :=
        passes_registers fun s _ hs _ => hs
      exact hread.pre fun s _ hs => hs.1 hs.2
    · exact fun s _ hc hstat => absurd (hc.symm.trans hstat) Bool.false_ne_true
  have hneed : K.Passes (Given (·.acmeWebCertStat = true) (Tells site Facts.acmeWebCertInfo))
      [registers fun s => { s.facts with acmeWebNeedIssue := needIssue site s }]
        (Looked site) := by
    apply passes_registers
    intro s _ hs hneed
    obtain ⟨hstat, hcovers⟩ := needIssue_eq_false hneed
    obtain ⟨c, hc, htells⟩ := hs hstat
    rw [hc] at hcovers
    exact htells hcovers
  exact hstat.cons (hpem.cons (hinfo.cons hneed))

section

theorem serves_of_store {m : Machine} (h : Serves site sans m) {f : Entry → Entry} {ecc : Bool}
    (hcert : ∀ c, (f (m.store site.acmeWebCertName ecc)).cert = some c →
      Covers c.subjectAltName site.acmeWebDomains)
    (hdomains : ∀ domains, (f (m.store site.acmeWebCertName ecc)).domains = some domains →
      Covers (sans domains) site.acmeWebDomains) :
    Serves site sans (m.amend site.acmeWebCertName ecc f) := by
  refine ⟨fun ecc' c hc => ?_, fun ecc' domains hasked => ?_,
    fun name ecc' domains hasked htarget => ?_, h.served, h.starts⟩
  · rw [amend_store] at hc
    split at hc
    · exact hcert c hc
    · exact h.stored ecc' c hc
  · rw [amend_store] at hasked
    split at hasked
    · exact hdomains domains hasked
    · exact h.named ecc' domains hasked
  · rw [amend_store] at hasked htarget
    split at hasked
    · exact hdomains domains hasked
    · rename_i hother
      rw [if_neg hother] at htarget
      exact h.renewable name ecc' domains hasked htarget

theorem serves_stores (hca : Covers (sans site.acmeWebDomains) site.acmeWebDomains)
    {m : Machine} (h : Serves site sans m) (v : Vars) (serial steps : ℕ) :
    Serves site sans (stores site sans v serial steps m) := by
  have hasked : ∀ domains, some site.acmeWebDomains = some domains →
      Covers (sans domains) site.acmeWebDomains := fun domains hdomains =>
    Option.some.inj hdomains ▸ hca
  match steps with
  | 0 => exact h
  | 1 =>
    exact serves_of_store h (f := fun entry => { entry with domains := some site.acmeWebDomains })
      (fun c hc => h.stored v.ecc c hc) hasked
  | _ + 2 =>
    refine serves_of_store h (f := fun entry =>
      { entry with
        domains := some site.acmeWebDomains
        cert := some ⟨sans site.acmeWebDomains, serial⟩ }) (fun c hc => ?_) hasked
    rw [← Option.some.inj hc]
    exact hca

theorem serves_asks {m : Machine} (h : Serves site sans m) : Serves site sans (asks site m) :=
  ⟨h.stored, h.named, h.renewable, h.served, h.starts⟩

theorem serves_called {m : Machine} (h : Serves site sans m) (t : Target) :
    Serves site sans { m with installs := t :: m.installs } :=
  ⟨h.stored, h.named, h.renewable, h.served, h.starts⟩

theorem serves_installed {m : Machine} (h : Serves site sans m) {c : Certificate}
    (hc : Covers c.subjectAltName site.acmeWebDomains) (t : Target) (n : ℕ) :
    Serves site sans (m.installed t c n) := by
  obtain ⟨hstore, -, -, hconf⟩ := installed_rest t c n m
  refine ⟨by rw [hstore]; exact h.stored, by rw [hstore]; exact h.named, ?_, ?_, ?_⟩
  · unfold Renewable
    rw [hstore]
    exact h.renewable
  · rw [hconf]
    exact fun hvhosts => installed_served t n m hc (h.served hvhosts)
  · rw [hconf]
    intro domains hvhosts
    obtain ⟨hchain, hkey⟩ := h.starts domains hvhosts
    exact ⟨installed_some t c n m .nginx hchain, installed_key t c n m .nginx hkey⟩

theorem stores_nginx (sans : List Text → List Text) (v : Vars) (serial steps : ℕ) (m : Machine) :
    (stores site sans v serial steps m).nginx = m.nginx := by
  match steps with
  | 0 | 1 | _ + 2 => rfl

theorem request_passes (hca : Covers (sans site.acmeWebDomains) site.acmeWebDomains) :
    (serving site sans).Passes (Looked site) [request site sans] (Looked site) := by
  have hlooked : (serving site sans).Lasting (Looked site) := inferInstance
  apply Setting.does_task hlooked.lasts fun _ _ _ => trivial
  intro s r _ hkeep hs
  cases r.outcome with
  | ok =>
    refine ⟨serves_stores hca (serves_asks hkeep) _ _ 2, fun hneed => ?_⟩
    change Covered site
      (stores site sans s.facts.vars r.serial 2 (asks site s.machine)).nginx
    rw [stores_nginx]
    exact hs hneed
  | again | failed => exact ⟨serves_stores hca (serves_asks hkeep) _ _ _, trivial⟩

theorem issue_passes (hca : Covers (sans site.acmeWebDomains) site.acmeWebDomains) :
    (serving site sans).Passes (Looked site) [issue site sans] (Looked site) := by
  apply passes_aside
  apply Keep.Passes.cons (passes_aside passes_command)
  apply Keep.Passes.cons (passes_aside passes_command)
  apply Keep.Passes.cons (passes_aside passes_gate)
  apply Keep.Passes.cons (passes_aside (request_passes hca))
  exact passes_aside (request_passes hca)

end

theorem install_passes {P : Host → Prop} [(serving site sans).Lasting P] (t : Target) :
    (serving site sans).Passes P [installCert site t] fun s => Served site s.machine.nginx := by
  apply passes_install
  · exact fun s hkeep _ => serves_called hkeep t
  · intro s c n hkeep _ hstore
    have hc := Serves.stored hkeep s.facts.vars.ecc c hstore
    refine serves_installed (serves_of_store (serves_called hkeep t) ?_ ?_) hc t n
    · exact fun c hc => Serves.stored hkeep s.facts.vars.ecc c hc
    · exact fun domains hdomains => Serves.named hkeep s.facts.vars.ecc domains hdomains
  · intro s c m hkeep _ hstore
    change Served site (m.installed t c 3).nginx
    rw [installed_whole t c 0 m]
    exact ⟨rfl, c, rfl, Serves.stored hkeep s.facts.vars.ecc c hstore⟩

theorem installNginx_passes :
    (serving site sans).Passes (Looked site) (installNginx site)
      fun s => Served site s.machine.nginx := by
  have hstat : (serving site sans).Passes (Looked site)
      [registers fun s => { s.facts with acmeWebKeyStat := s.machine.nginx.key }]
      fun s => Looked site s ∧
        Given (·.acmeWebKeyStat = true) (fun s => s.machine.nginx.key = true) s :=
    passes_registers fun s _ hs => ⟨hs, fun hkey => hkey⟩
  refine hstat.cons ?_
  apply passes_incl
  · exact (install_passes (P := Looked site) .nginx).pre fun s _ hs => hs.1.1
  · intro s hs hc
    rw [Bool.or_eq_false_iff, Bool.or_eq_false_iff, Bool.not_eq_false'] at hc
    exact ⟨hs.2 hc.1.2, hs.1 hc.1.1⟩

theorem registry_passes :
    (serving site sans).Passes (fun s => Served site s.machine.nginx) [registryCert site]
      fun s => Served site s.machine.nginx := by
  have hstat : (serving site sans).Passes (fun s => Served site s.machine.nginx)
      [registers fun s => { s.facts with
        acmeWebRegistryCertStat := s.machine.registry.fullchain.isSome }]
        fun s => Served site s.machine.nginx :=
    passes_registers fun s _ hs => hs
  apply passes_aside
  refine passes_command.cons (passes_command.cons (hstat.cons ?_))
  exact passes_aside (install_passes .registry)

theorem bootstrap_passes :
    (serving site sans).Passes (Looked site) [bootstrap] (Looked site) := by
  apply passes_aside
  refine Keep.Passes.cons (passes_acts fun _ s hkeep hs => ?_) passes_command
  have hserves : Serves site sans s.machine := hkeep
  exact ⟨⟨hserves.stored, hserves.named, hserves.renewable, nofun, nofun⟩, hs⟩

theorem vhosts_passes :
    (serving site sans).Passes (fun s => Served site s.machine.nginx) (vhosts site)
      fun s => Served site s.machine.nginx := by
  refine Keep.Passes.cons (passes_acts fun _ s hkeep hs => ?_) passes_command
  have hserves : Serves site sans s.machine := hkeep
  refine ⟨⟨hserves.stored, hserves.named, hserves.renewable, fun _ => hs, fun _ _ => ?_⟩, hs⟩
  obtain ⟨hkey, c, hc, -⟩ := hs
  exact ⟨Option.isSome_iff_exists.mpr ⟨c, hc⟩, hkey⟩

theorem main_passes (hca : Covers (sans site.acmeWebDomains) site.acmeWebDomains) :
    (serving site sans).Passes (fun _ => True) (main site sans)
      fun s => Served site s.machine.nginx := by
  have hentry : (serving site sans).Passes (fun _ => True)
      [command, gate fun _ => !site.acmeWebDomains.isEmpty, command] fun _ => True :=
    passes_command.cons (passes_gate.cons passes_command)
  have hdecide : (serving site sans).Passes (Looked site)
      [reportMismatch, bootstrap, issue site sans] (Looked site) :=
    (passes_aside passes_command).cons (bootstrap_passes.cons (issue_passes hca))
  have htimer : (serving site sans).Passes (fun s => Served site s.machine.nginx) renewalTimer
      fun s => Served site s.machine.nginx :=
    passes_command.cons (passes_command.cons passes_command)
  have hcert : (serving site sans).Passes (fun _ => True) (acmeCert site sans)
      fun s => Served site s.machine.nginx :=
    (((look_passes.append hdecide).append installNginx_passes).append registry_passes).append
      htimer
  exact ((hentry.append hcert).append vhosts_passes).append passes_command

theorem keeps_serving (hca : Covers (sans site.acmeWebDomains) site.acmeWebDomains) :
    (system site sans).Keeps (serving site sans).setting.contract :=
  System.keeps_of_does (P := fun _ _ => True) rfl (fun _ _ h => h)
    (fun _ _ _ hkeep => ⟨hkeep, trivial⟩) fun _ => main_passes hca

/-- Over any runs with the inventory of a host, wherever they fail or are cut and whatever is
renewed: once the host's vhosts are there, nginx has a key and a certificate for its names. -/
theorem served_covered (hca : Covers (sans site.acmeWebDomains) site.acmeWebDomains) {s : Host}
    (hs : Serves site sans s.machine) (moves : List (Move Reply Vars Renewal)) :
    Serves site sans ((system site sans).run moves ⟨s, []⟩).state.machine := by
  have hstart : System.Good (serving site sans).setting.contract (⟨s, []⟩ : World Host Reply) :=
    ⟨fun _ => hs, safe_nil s⟩
  exact (System.good_run (keeps_serving hca) hstart moves).1 trivial

def portalSite : Site where
  controller := true
  metrics := true
  csPortalDomain := "Portal.example.com"
  csMetricsDomain := "metrics.example.com"

def asAsked (domains : List Text) : List Text := domains.map fun name => ("DNS:" : Text) ++ name

/-- A first run whose installation fails after the key, a renewal, and a second run. -/
def firstRuns : List (Move Reply Vars Renewal) :=
  .start {} :: List.replicate 21 (.tick {}) ++
    .tick { outcome := .failed, steps := 2 } ::
      .outside ⟨"Portal.example.com", true, 7, 4⟩ :: .start {} :: List.replicate 40 (.tick {})

set_option maxRecDepth 4000 in
theorem served_covered_first_runs :
    ((system portalSite asAsked).run firstRuns ⟨{}, []⟩).state.machine.conf =
        some (.vhosts ["Portal.example.com", "metrics.example.com"]) ∧
      Serves portalSite asAsked
        ((system portalSite asAsked).run firstRuns ⟨{}, []⟩).state.machine := by
  refine ⟨by decide, served_covered (covers_request _) ⟨?_, ?_, ?_, ?_, ?_⟩ _⟩
  · intro ecc c h
    cases h
  · intro ecc domains h
    cases h
  · intro name ecc domains h
    cases h
  · intro h
    cases h
  · intro domains h
    cases h

end

end Provisioner.AcmeWeb
