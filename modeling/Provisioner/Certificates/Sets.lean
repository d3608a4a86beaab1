import Provisioner.Library.Issue
import Provisioner.Library.Jinja
import Provisioner.Library.Text

/-!
# The certificate sets on disk

The docker daemon certificate of a node, the docker client certificate of the
controller and the wildcard pem of an availability zone. Each is issued where
its first file is missing or no longer good, and is then written piece by
piece.
-/

namespace Provisioner.Certificates

open Text (lowerAscii)

structure Certificate where
  serial : ℕ
  notAfter : ℕ
  subjectAltName : List Text
deriving DecidableEq, Repr

structure Details where
  notAfter : ℕ
  subjectAltName : List Text
deriving DecidableEq, Repr

inductive Content where
  | certificate (c : Certificate)
  | privateKey (serial : ℕ)
  | issuingCa
  | bundle (c : Certificate) (serial : ℕ)
deriving DecidableEq, Repr

def issued (serial : ℕ) (d : Details) : Certificate := ⟨serial, d.notAfter, d.subjectAltName⟩

/-- `x509_certificate_info`; the content of another file is not a certificate. -/
def x509CertificateInfo : Content → Option Certificate
  | .certificate c => some c
  | .privateKey _ | .issuingCa | .bundle _ _ => none

/-- What a run that reads the certificate on disk makes of it. A file that is no
certificate ends the run. -/
def needed (required : Option Certificate → Bool) : Option Content → Bool
  | none => required none
  | some content =>
    match x509CertificateInfo content with
    | none => false
    | some c => required (some c)

def expiresWithin (c : Certificate) (now days : ℕ) : Bool :=
  (c.notAfter : ℤ) - now < days * 86400

/-! ## A node's docker daemon certificate -/

inductive NodeFile where
  | serverCrt
  | caCrt
  | serverKey
deriving DecidableEq, Repr

def NodeFile.render : NodeFile → ℕ → Details → Content
  | .serverCrt, n, d => .certificate (issued n d)
  | .caCrt, _, _ => .issuingCa
  | .serverKey, n, _ => .privateKey n

def dockerTlsSet : Issue.Kit NodeFile Content Details where
  first := .serverCrt
  middle := [.caCrt]
  last := .serverKey
  render := NodeFile.render
  nodup := by decide
  first_inj _ _ _ _ h := by
    injection h with h
    injection h
  last_inj _ _ _ _ h := by injection h

structure NodeRun where
  now : ℕ
  dockerTlsRenewDays : ℕ := 30
  dockerTlsCommonName : Text
  dockerTlsAltNames : List Text
  dockerTlsIpSans : List Text
  details : Details
  /-- The writes of the loop that the run gets to. -/
  cut : ℕ

-- The names of a certificate are ASCII, whatever the inventory holds.
def NodeRun.dockerTlsDesiredSans (r : NodeRun) : List Text :=
  (Jinja.unique lowerAscii (r.dockerTlsCommonName :: r.dockerTlsAltNames)).map
      (("DNS:" : Text) ++ ·) ++
    (Jinja.unique lowerAscii r.dockerTlsIpSans).map (("IP:" : Text) ++ ·)

def NodeRun.dockerTlsIssueRequired (r : NodeRun) : Option Certificate → Bool
  | none => true
  | some c => expiresWithin c r.now r.dockerTlsRenewDays ||
    Jinja.sort lowerAscii c.subjectAltName ≠ Jinja.sort lowerAscii r.dockerTlsDesiredSans

def NodeRun.issue (r : NodeRun) : Issue.Attempt Content Details where
  needed := needed r.dockerTlsIssueRequired
  details := r.details
  cut := r.cut
  needed_none := rfl

abbrev NodeState := Issue.State NodeFile Content

def NodeState.converge (s : NodeState) (r : NodeRun) : NodeState :=
  Issue.attempt dockerTlsSet s r.issue

def NodeState.after (runs : List NodeRun) : NodeState := runs.foldl NodeState.converge Issue.fresh

def NodeRun.completed (r : NodeRun) : NodeRun := { r with cut := dockerTlsSet.files.length }

/-! ## The controller's docker client certificate -/

inductive ClientFile where
  | certPem
  | caPem
  | keyPem
  | clientPem
deriving DecidableEq, Repr

def ClientFile.render : ClientFile → ℕ → Details → Content
  | .certPem, n, d => .certificate (issued n d)
  | .caPem, _, _ => .issuingCa
  | .keyPem, n, _ => .privateKey n
  | .clientPem, n, d => .bundle (issued n d) n

def clientSet : Issue.Kit ClientFile Content Details where
  first := .certPem
  middle := [.caPem, .keyPem]
  last := .clientPem
  render := ClientFile.render
  nodup := by decide
  first_inj _ _ _ _ h := by
    injection h with h
    injection h
  last_inj _ _ _ _ h := by injection h

structure ClientRun where
  now : ℕ
  vaultCertRenewDays : ℕ := 30
  details : Details
  cut : ℕ

def ClientRun.vaultClientCertNeeded (r : ClientRun) : Option Certificate → Bool
  | none => true
  | some c => expiresWithin c r.now r.vaultCertRenewDays

/-- The first write of a run is `pki_docker`'s own `ca.pem`. -/
def ClientRun.issue (r : ClientRun) : Issue.Attempt Content Details where
  needed := needed r.vaultClientCertNeeded
  details := r.details
  cut := r.cut - 1
  needed_none := rfl

abbrev ClientState := Issue.State ClientFile Content

def ClientState.writeCa (s : ClientState) : ClientState :=
  { s with disk := Function.update s.disk .caPem (some .issuingCa) }

def ClientState.converge (s : ClientState) (r : ClientRun) : ClientState :=
  if r.cut = 0 then s else Issue.attempt clientSet s.writeCa r.issue

def ClientState.after (runs : List ClientRun) : ClientState :=
  runs.foldl ClientState.converge Issue.fresh

def ClientRun.completed (r : ClientRun) : ClientRun :=
  { r with cut := clientSet.files.length + 1 }

/-! ## The wildcard pem of an availability zone -/

/-- `openssl req` with one file for `-keyout` and `-out` writes the key into it
and then appends the certificate. -/
inductive PemPart where
  | privateKey
  | certificate
deriving DecidableEq, Repr

def PemPart.render : PemPart → ℕ → Details → Content
  | .privateKey, n, _ => .privateKey n
  | .certificate, n, d => .certificate (issued n d)

def wildcardPem : Issue.Kit PemPart Content Details where
  first := .privateKey
  middle := []
  last := .certificate
  render := PemPart.render
  nodup := by decide
  first_inj _ _ _ _ h := by injection h
  last_inj _ _ _ _ h := by
    injection h with h
    injection h

structure PemRun where
  details : Details
  cut : ℕ

/-- `creates:` looks for the pem, which is there as soon as its key is. -/
def PemRun.issue (r : PemRun) : Issue.Attempt Content Details where
  needed := Option.isNone
  details := r.details
  cut := r.cut
  needed_none := rfl

abbrev PemState := Issue.State PemPart Content

def PemState.converge (s : PemState) (r : PemRun) : PemState :=
  Issue.attempt wildcardPem s r.issue

def PemState.after (runs : List PemRun) : PemState := runs.foldl PemState.converge Issue.fresh

def PemRun.completed (r : PemRun) : PemRun := { r with cut := wildcardPem.files.length }

/-! ## What belongs together -/

theorem inv_node (runs : List NodeRun) : Issue.Inv dockerTlsSet (NodeState.after runs) := by
  have hrun : NodeState.after runs =
      (runs.map NodeRun.issue).foldl (Issue.attempt dockerTlsSet) Issue.fresh := by
    rw [List.foldl_map]
    rfl
  rw [hrun]
  exact Issue.inv_attempts Issue.inv_fresh _

theorem inv_writeCa {s : ClientState} (h : Issue.Inv clientSet s) :
    Issue.Inv clientSet s.writeCa :=
  h.refresh (by decide) fun _ _ => rfl

theorem inv_client (runs : List ClientRun) : Issue.Inv clientSet (ClientState.after runs) := by
  rw [ClientState.after]
  generalize hstart : (Issue.fresh : ClientState) = s
  have hinv : Issue.Inv clientSet s := hstart ▸ Issue.inv_fresh
  clear hstart
  induction runs generalizing s with
  | nil => exact hinv
  | cons r runs ih =>
    apply ih
    rw [ClientState.converge]
    split
    · exact hinv
    · exact (inv_writeCa hinv).attempt _

theorem inv_pem (runs : List PemRun) : Issue.Inv wildcardPem (PemState.after runs) := by
  have hrun : PemState.after runs =
      (runs.map PemRun.issue).foldl (Issue.attempt wildcardPem) Issue.fresh := by
    rw [List.foldl_map]
    rfl
  rw [hrun]
  exact Issue.inv_attempts Issue.inv_fresh _

def Whole {File : Type} (K : Issue.Kit File Content Details) (s : Issue.State File Content) :
    Prop := s.written = K.files.length

/-- Each set is whole after a completed converge exactly where that converge
issues it, or no issuance before was the last one and cut short. -/
theorem sets_together_iff (runs : List NodeRun) (r : NodeRun) (clientRuns : List ClientRun)
    (client : ClientRun) (pemRuns : List PemRun) (pem : PemRun) :
    (let s := NodeState.after runs
     Issue.Together dockerTlsSet (s.converge r.completed).disk ↔
        needed r.dockerTlsIssueRequired (s.disk .serverCrt) = true ∨ Whole dockerTlsSet s) ∧
    (let s := ClientState.after clientRuns
     Issue.Together clientSet (s.converge client.completed).disk ↔
        needed client.vaultClientCertNeeded (s.disk .certPem) = true ∨ Whole clientSet s) ∧
    (let s := PemState.after pemRuns
     Issue.Together wildcardPem (s.converge pem.completed).disk ↔
        (s.disk .privateKey).isNone = true ∨ Whole wildcardPem s) := by
  refine ⟨?_, ?_, ?_⟩
  · exact (inv_node runs).completed_iff (a := r.completed.issue) (le_refl _)
  · have hcut : client.completed.cut ≠ 0 := Nat.succ_ne_zero _
    have hiff := (inv_writeCa (inv_client clientRuns)).completed_iff
      (a := client.completed.issue) (le_refl _)
    intro s
    rw [ClientState.converge, if_neg hcut]
    exact hiff
  · exact (inv_pem pemRuns).completed_iff (a := pem.completed.issue) (le_refl _)

def tornRun : NodeRun where
  now := 0
  dockerTlsCommonName := ("node1" : Text)
  dockerTlsAltNames := [("localhost" : Text)]
  dockerTlsIpSans := [("127.0.0.1" : Text)]
  details := ⟨10000000, [("DNS:node1" : Text), ("DNS:localhost" : Text), ("IP:127.0.0.1" : Text)]⟩
  cut := 1

/-- The run dies between the certificate and its key; the next one finds the
certificate good. -/
theorem key_never_written :
    ¬ Issue.Together dockerTlsSet
      (NodeState.converge (NodeState.after [tornRun]) tornRun.completed).disk := by
  rintro ⟨n, d, htogether⟩
  have hkey := htogether .serverKey (by decide)
  have hmissing : (NodeState.converge (NodeState.after [tornRun]) tornRun.completed).disk
      .serverKey = none := by decide
  rw [hmissing] at hkey
  cases hkey

end Provisioner.Certificates
