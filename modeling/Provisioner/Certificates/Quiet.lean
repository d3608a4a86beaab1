import Provisioner.Certificates.Sets
import Provisioner.Library.Words

/-!
# A certificate that is issued and then kept

Whether the converge after the one that issued a node's docker daemon
certificate issues it again. The renewal window, the lifetime that is asked of
vault and the names are computed in three places.
-/

namespace Provisioner.Certificates

open Text (lowerAscii join strip IsWord)

/-! ## The settings -/

structure Site where
  dockerTlsCommonName : Text
  dockerTlsAltNames : List Text
  dockerTlsIpSans : List Text
  dockerTlsRenewDays : ℕ := 30
  vaultCertTtlHours : ℕ := 8760
  vaultCertTtlClampMarginHours : ℕ := 24
deriving DecidableEq, Repr

def Site.ofNode (hostname primaryIp : Text) : Site where
  dockerTlsCommonName := hostname
  dockerTlsAltNames := ["localhost", hostname]
  dockerTlsIpSans := ["127.0.0.1", primaryIp]

/-- A converge: when it looks at the certificate, when it looks at the CA, and
what vault makes of its request. -/
structure Converge where
  decided : ℕ
  clamped : ℕ
  signed : ℕ
  serial : ℕ
  subjectAltName : List Text
deriving DecidableEq, Repr

inductive Outcome where
  | kept
  | issued (c : Certificate)
  | refused
deriving DecidableEq, Repr

/-! ## The role -/

def vaultCaRemainingHours (caNotAfter now : ℕ) : ℤ := ((caNotAfter : ℤ) - now).tdiv 3600

namespace Site

variable (s : Site)

def vaultEffectiveCertTtlHours (caNotAfter now : ℕ) : ℤ :=
  min (s.vaultCertTtlHours : ℤ)
    (vaultCaRemainingHours caNotAfter now - s.vaultCertTtlClampMarginHours)

def dockerTlsIssueRequired (now : ℕ) : Option Certificate → Bool :=
  NodeRun.dockerTlsIssueRequired
    { now
      dockerTlsRenewDays := s.dockerTlsRenewDays
      dockerTlsCommonName := s.dockerTlsCommonName
      dockerTlsAltNames := s.dockerTlsAltNames
      dockerTlsIpSans := s.dockerTlsIpSans
      details := ⟨0, []⟩
      cut := 0 }

/-- The role refuses to issue where the CA has no usable life left. -/
def converge (caNotAfter : ℕ) (r : Converge) (disk : Option Certificate) : Outcome :=
  if s.dockerTlsIssueRequired r.decided disk then
    let ttl := s.vaultEffectiveCertTtlHours caNotAfter r.clamped
    if 0 < ttl then .issued ⟨r.serial, r.signed + ttl.toNat * 3600, r.subjectAltName⟩
    else .refused
  else .kept

/-! ## What vault is asked for -/

def readList (value : Text) : List Text :=
  ((value.splitOn ',').map strip).filter fun entry => !entry.isEmpty

def requestedNames : List Text :=
  s.dockerTlsCommonName :: readList (join "," (Jinja.unique lowerAscii s.dockerTlsAltNames))

def requestedIps : List Text := readList (join "," (Jinja.unique lowerAscii s.dockerTlsIpSans))

/-- Each name and each address that was asked for, once and in its canonical text. -/
structure Prints (canonicalName canonicalIp : Text → Text) (subjectAltName : List Text) :
    Prop where
  once : subjectAltName.Nodup
  exactly : ∀ san, san ∈ subjectAltName ↔
    (∃ n ∈ s.requestedNames, san = "DNS:" ++ canonicalName n) ∨
      ∃ i ∈ s.requestedIps, san = "IP:" ++ canonicalIp i

/-! ## When the certificate is kept -/

def wantedNames : List Text :=
  Jinja.unique lowerAscii (s.dockerTlsCommonName :: s.dockerTlsAltNames)

def wantedIps : List Text := Jinja.unique lowerAscii s.dockerTlsIpSans

/-- Neither the lifetime of a certificate nor what is left of the CA's, less the
margin, is below the renewal window by the time of the next decision. -/
def Lasts (caNotAfter : ℕ) (r : Converge) (decided : ℕ) : Prop :=
  let window : ℤ := s.dockerTlsRenewDays * 86400 + (decided - r.signed)
  window ≤ s.vaultCertTtlHours * 3600 ∧
    window ≤ (vaultCaRemainingHours caNotAfter r.clamped -
      s.vaultCertTtlClampMarginHours) * 3600

/-- The wanted names and addresses are written as a certificate shows them, and
vault is asked for no other name. -/
structure Spelled (canonicalName canonicalIp : Text → Text) : Prop where
  names : ∀ n ∈ s.wantedNames, canonicalName n = n
  no_other : ∀ n ∈ s.requestedNames, canonicalName n ∈ s.wantedNames
  ips : ∀ i ∈ s.wantedIps, canonicalIp i = i

end Site

def IsEntry (t : Text) : Prop := IsWord t ∧ ',' ∉ t

/-- The canonical text of a canonical text is itself, and an entry. -/
structure Canonical (canonical : Text → Text) : Prop where
  idempotent : ∀ t, canonical (canonical t) = canonical t
  entry : ∀ t, IsEntry (canonical t)

section

variable {s : Site} {canonicalName canonicalIp : Text → Text} {caNotAfter : ℕ}
  {r r' : Converge} {disk : Option Certificate} {c : Certificate}

/-! ### The lifetime -/

theorem issued_cert (h : s.converge caNotAfter r disk = .issued c) :
    0 < s.vaultEffectiveCertTtlHours caNotAfter r.clamped ∧
      c.notAfter = r.signed +
        (s.vaultEffectiveCertTtlHours caNotAfter r.clamped).toNat * 3600 ∧
      c.subjectAltName = r.subjectAltName := by
  unfold Site.converge at h
  dsimp only at h
  split_ifs at h with hrequired httl
  injection h with h
  subst h
  exact ⟨httl, rfl, rfl⟩

theorem lasts_iff (h : s.converge caNotAfter r disk = .issued c) (decided : ℕ) :
    expiresWithin c decided s.dockerTlsRenewDays = false ↔
      s.Lasts caNotAfter r decided := by
  obtain ⟨hpos, hafter, -⟩ := issued_cert h
  have hseconds : (c.notAfter : ℤ) = r.signed +
      s.vaultEffectiveCertTtlHours caNotAfter r.clamped * 3600 := by
    omega
  unfold expiresWithin Site.Lasts
  rw [decide_eq_false_iff_not, not_lt, hseconds]
  unfold Site.vaultEffectiveCertTtlHours
  constructor
  · intro hwindow
    have hleft := min_le_left (s.vaultCertTtlHours : ℤ)
      (vaultCaRemainingHours caNotAfter r.clamped - s.vaultCertTtlClampMarginHours)
    have hright := min_le_right (s.vaultCertTtlHours : ℤ)
      (vaultCaRemainingHours caNotAfter r.clamped - s.vaultCertTtlClampMarginHours)
    constructor <;> omega
  · rintro ⟨hleft, hright⟩
    omega

/-! ### The names -/

theorem mem_readList {parts : List Text} {n : Text} (hn : IsEntry n) (hmem : n ∈ parts) :
    n ∈ Site.readList (join "," parts) := by
  have hne : parts ≠ [] := List.ne_nil_of_mem hmem
  have hcomma : join "," parts = join [','] parts := rfl
  have hsplit : n ∈ (join "," parts).splitOn ',' := by
    rw [hcomma, Text.splitOn_join hne, List.mem_flatMap]
    exact ⟨n, hmem, by rw [List.splitOn_eq_singleton hn.2]; exact List.mem_singleton_self n⟩
  unfold Site.readList
  refine List.mem_filter.mpr ⟨List.mem_map.mpr ⟨n, hsplit, Text.strip_eq_self hn.1.trimmed⟩, ?_⟩
  rw [Bool.not_eq_true', List.isEmpty_eq_false_iff]
  exact hn.1.1

theorem dns_inj {a b : Text} : ("DNS:" : Text) ++ a = "DNS:" ++ b ↔ a = b := List.append_right_inj _

theorem ip_inj {a b : Text} : ("IP:" : Text) ++ a = "IP:" ++ b ↔ a = b := List.append_right_inj _

theorem dns_ne_ip (a b : Text) : ("DNS:" : Text) ++ a ≠ "IP:" ++ b := by
  intro h
  have hhead := congrArg List.head? h
  cases hhead

/-- The names and the addresses can be told apart, and none is wanted twice. -/
theorem nodup_desired (s : Site) :
    ((s.wantedNames.map (("DNS:" : Text) ++ ·) ++ s.wantedIps.map (("IP:" : Text) ++ ·)).map
      lowerAscii).Nodup := by
  have hdns : (s.wantedNames.map (("DNS:" : Text) ++ ·)).map lowerAscii =
      (s.wantedNames.map lowerAscii).map (("dns:" : Text) ++ ·) := by
    rw [List.map_map, List.map_map]
    rfl
  have hip : (s.wantedIps.map (("IP:" : Text) ++ ·)).map lowerAscii =
      (s.wantedIps.map lowerAscii).map (("ip:" : Text) ++ ·) := by
    rw [List.map_map, List.map_map]
    rfl
  rw [List.map_append, hdns, hip]
  refine List.Nodup.append ?_ ?_ fun t hname hip => ?_
  · exact (Jinja.nodup_unique _).map fun a b h => List.append_cancel_left h
  · exact (Jinja.nodup_unique _).map fun a b h => List.append_cancel_left h
  · obtain ⟨n, -, rfl⟩ := List.mem_map.mp hname
    obtain ⟨i, -, h⟩ := List.mem_map.mp hip
    cases congrArg List.head? h

theorem mem_desired {s : Site} {san : Text} :
    san ∈ s.wantedNames.map (("DNS:" : Text) ++ ·) ++ s.wantedIps.map (("IP:" : Text) ++ ·) ↔
      (∃ n ∈ s.wantedNames, san = "DNS:" ++ n) ∨ ∃ i ∈ s.wantedIps, san = "IP:" ++ i := by
  rw [List.mem_append, List.mem_map, List.mem_map]
  simp only [eq_comm]

theorem requested_of_wanted {n : Text} (hn : IsEntry n) (hmem : n ∈ s.wantedNames) :
    n ∈ s.requestedNames := by
  unfold Site.wantedNames at hmem
  obtain rfl | hrest := List.mem_cons.mp hmem
  · exact List.mem_cons_self
  · exact List.mem_cons_of_mem _ (mem_readList hn (List.mem_filter.mp hrest).1)

theorem requested_ip_iff (h : ∀ i ∈ s.wantedIps, IsEntry i) {i : Text} :
    i ∈ s.requestedIps ↔ i ∈ s.wantedIps := by
  constructor
  · intro hi
    obtain ⟨hi, hne⟩ := List.mem_filter.mp hi
    obtain ⟨part, hpart, rfl⟩ := List.mem_map.mp hi
    by_cases hempty : s.wantedIps = []
    · have hjoin : join "," (Jinja.unique lowerAscii s.dockerTlsIpSans) = [] :=
        congrArg (join ",") hempty
      rw [hjoin, List.splitOn_nil, List.mem_singleton] at hpart
      rw [hpart] at hne
      cases hne
    · have hsplit : (join "," (Jinja.unique lowerAscii s.dockerTlsIpSans)).splitOn ',' =
          s.wantedIps := List.splitOn_intercalate ',' (fun i hi => (h i hi).2) hempty
      rw [hsplit] at hpart
      rwa [Text.strip_eq_self (h part hpart).1.trimmed]
  · exact fun hi => mem_readList (h i hi) hi

/-- The names printed are the names wanted, exactly where they are spelled so. -/
theorem spelled_iff (hname : Canonical canonicalName) (hip : Canonical canonicalIp)
    (hprints : s.Prints canonicalName canonicalIp c.subjectAltName) :
    (∀ san, san ∈ c.subjectAltName ↔
      san ∈ s.wantedNames.map (("DNS:" : Text) ++ ·) ++ s.wantedIps.map (("IP:" : Text) ++ ·)) ↔
      s.Spelled canonicalName canonicalIp := by
  simp only [hprints.exactly, mem_desired]
  constructor
  · intro hsame
    have hnames : ∀ n ∈ s.wantedNames, canonicalName n = n := by
      intro n hn
      obtain ⟨m, -, hm⟩ | ⟨i, -, hi⟩ := (hsame ("DNS:" ++ n)).mpr (.inl ⟨n, hn, rfl⟩)
      · rw [dns_inj.mp hm, hname.idempotent]
      · exact absurd hi (dns_ne_ip n _)
    have hips : ∀ i ∈ s.wantedIps, canonicalIp i = i := by
      intro i hi
      obtain ⟨n, -, hn⟩ | ⟨j, -, hj⟩ := (hsame ("IP:" ++ i)).mpr (.inr ⟨i, hi, rfl⟩)
      · exact absurd hn.symm (dns_ne_ip _ i)
      · rw [ip_inj.mp hj, hip.idempotent]
    refine ⟨hnames, fun m hm => ?_, hips⟩
    obtain ⟨n, hn, heq⟩ | ⟨i, -, heq⟩ := (hsame ("DNS:" ++ canonicalName m)).mp (.inl ⟨m, hm, rfl⟩)
    · rwa [dns_inj.mp heq]
    · exact absurd heq (dns_ne_ip _ i)
  · intro hspelled san
    have hentry : ∀ n ∈ s.wantedNames, IsEntry n := fun n hn =>
      hspelled.names n hn ▸ hname.entry n
    have hentry_ip : ∀ i ∈ s.wantedIps, IsEntry i := fun i hi => hspelled.ips i hi ▸ hip.entry i
    constructor
    · rintro (⟨n, hn, rfl⟩ | ⟨i, hi, rfl⟩)
      · exact .inl ⟨_, hspelled.no_other n hn, rfl⟩
      · have hwanted := (requested_ip_iff hentry_ip).mp hi
        exact .inr ⟨i, hwanted, by rw [hspelled.ips i hwanted]⟩
    · rintro (⟨n, hn, rfl⟩ | ⟨i, hi, rfl⟩)
      · exact .inl ⟨n, requested_of_wanted (hentry n hn) hn, by rw [hspelled.names n hn]⟩
      · exact .inr ⟨i, (requested_ip_iff hentry_ip).mpr hi, by rw [hspelled.ips i hi]⟩

/-! ## The next converge -/

/-- What is issued is kept by the next converge exactly where it lasts and is
spelled as it was asked for. -/
theorem kept_after_issue_iff (hname : Canonical canonicalName) (hip : Canonical canonicalIp)
    (hprints : s.Prints canonicalName canonicalIp r.subjectAltName)
    (hissued : s.converge caNotAfter r disk = .issued c) :
    s.converge caNotAfter r' (some c) = .kept ↔
      s.Lasts caNotAfter r r'.decided ∧ s.Spelled canonicalName canonicalIp := by
  have hsans := (issued_cert hissued).2.2
  have hkept : s.converge caNotAfter r' (some c) = .kept ↔
      s.dockerTlsIssueRequired r'.decided (some c) = false := by
    unfold Site.converge
    dsimp only
    split_ifs with hrequired <;> simp [hrequired]
  rw [← hsans] at hprints
  rw [hkept, Site.dockerTlsIssueRequired, NodeRun.dockerTlsIssueRequired, Bool.or_eq_false_iff,
    lasts_iff hissued, decide_eq_false_iff_not, not_not, ← spelled_iff hname hip hprints]
  exact and_congr_right fun _ => Jinja.sort_eq_iff hprints.once (nodup_desired s)

end

/-! ## A CA in its last month -/

def shown (t : Text) : Text :=
  let kept := t.filter fun c => !Text.isSpace c && c ≠ ','
  if kept.isEmpty then "-" else kept

theorem canonical_shown : Canonical shown := by
  have hentry : ∀ t, IsEntry (shown t) := by
    intro t
    unfold shown
    dsimp only
    split_ifs with hempty
    · exact ⟨⟨by decide, by decide⟩, by decide⟩
    · refine ⟨⟨fun h => hempty (List.isEmpty_iff.mpr h), fun c hc => ?_⟩, fun hc => ?_⟩
      · have hkept := (List.mem_filter.mp hc).2
        simp only [Bool.and_eq_true, Bool.not_eq_true'] at hkept
        exact hkept.1
      · have hkept := (List.mem_filter.mp hc).2
        simp at hkept
  have hself : ∀ t, IsEntry t → shown t = t := by
    intro t ht
    have hall : (t.filter fun c => !Text.isSpace c && c ≠ ',') = t := by
      rw [List.filter_eq_self]
      intro c hc
      have hcomma : c ≠ ',' := fun h => ht.2 (h ▸ hc)
      rw [ht.1.2 c hc]
      simpa using hcomma
    rw [shown, hall, if_neg]
    exact fun h => ht.1.1 (List.isEmpty_iff.mp h)
  exact ⟨fun t => hself _ (hentry t), hentry⟩

def nodeSite : Site := .ofNode "node1" "10.0.0.5"

def firstConverge : Converge where
  decided := 0
  clamped := 0
  signed := 0
  serial := 1
  subjectAltName := ["DNS:localhost", "DNS:node1", "IP:10.0.0.5", "IP:127.0.0.1"]

def nextConverge : Converge where
  decided := 60
  clamped := 60
  signed := 60
  serial := 2
  subjectAltName := firstConverge.subjectAltName

theorem prints_nodeSite : nodeSite.Prints shown shown firstConverge.subjectAltName := by
  have hnames : nodeSite.requestedNames.map shown = [("node1" : Text), "localhost", "node1"] := by
    decide
  have hips : nodeSite.requestedIps.map shown = [("127.0.0.1" : Text), "10.0.0.5"] := by
    decide
  have honce : firstConverge.subjectAltName.Nodup := by decide
  refine ⟨honce, fun san => ?_⟩
  have hdns : (∃ n ∈ nodeSite.requestedNames, san = "DNS:" ++ shown n) ↔
      ∃ n ∈ nodeSite.requestedNames.map shown, san = "DNS:" ++ n := by simp
  have hip : (∃ i ∈ nodeSite.requestedIps, san = "IP:" ++ shown i) ↔
      ∃ i ∈ nodeSite.requestedIps.map shown, san = "IP:" ++ i := by simp
  rw [hdns, hip, hnames, hips]
  have hsans : firstConverge.subjectAltName = [("DNS:" : Text) ++ ("localhost" : Text),
      ("DNS:" : Text) ++ ("node1" : Text), ("IP:" : Text) ++ ("10.0.0.5" : Text),
      ("IP:" : Text) ++ ("127.0.0.1" : Text)] := by decide
  rw [hsans]
  simp only [List.mem_cons, List.not_mem_nil, or_false, exists_eq_or_imp, exists_eq_left]
  tauto

/-- With ten years left of the CA, the certificate is kept. -/
theorem node_site_kept : nodeSite.converge 315360000 nextConverge
      (some ⟨1, 31536000, firstConverge.subjectAltName⟩) = .kept ↔
    nodeSite.Lasts 315360000 firstConverge 60 ∧ nodeSite.Spelled shown shown := by
  have hissued : nodeSite.converge 315360000 firstConverge none =
      .issued ⟨1, 31536000, firstConverge.subjectAltName⟩ := by decide
  exact kept_after_issue_iff canonical_shown canonical_shown prints_nodeSite hissued

/-- With thirty days left, the certificate is good for 29, which is within the
renewal window of the next converge. -/
theorem issued_again : nodeSite.Prints shown shown firstConverge.subjectAltName ∧
    ∃ c c', nodeSite.converge 2592000 firstConverge none = .issued c ∧
      nodeSite.converge 2592000 nextConverge (some c) = .issued c' :=
  ⟨prints_nodeSite, ⟨1, 2505600, firstConverge.subjectAltName⟩,
    ⟨2, 2502060, nextConverge.subjectAltName⟩, by decide, by decide⟩

end Provisioner.Certificates
