import Mathlib.Data.List.Infix
import Provisioner.Library.Text

/-!
# What is read from a preview

The scan of the preview for load balancers whose domain differs, and the
preview's fingerprint.
-/

namespace Provisioner

namespace Text

/-- The first digits of the blocks of ten that Unicode calls decimal digits. -/
def decimalZeros : List Nat :=
  [0x30, 0x660, 0x6f0, 0x7c0, 0x966, 0x9e6, 0xa66, 0xae6, 0xb66, 0xbe6, 0xc66, 0xce6, 0xd66, 0xde6,
    0xe50, 0xed0, 0xf20, 0x1040, 0x1090, 0x17e0, 0x1810, 0x1946, 0x19d0, 0x1a80, 0x1a90, 0x1b50,
    0x1bb0, 0x1c40, 0x1c50, 0xa620, 0xa8d0, 0xa900, 0xa9d0, 0xa9f0, 0xaa50, 0xabf0, 0xff10, 0x104a0,
    0x10d30, 0x11066, 0x110f0, 0x11136, 0x111d0, 0x112f0, 0x11450, 0x114d0, 0x11650, 0x116c0,
    0x11730, 0x118e0, 0x11950, 0x11c50, 0x11d50, 0x11da0, 0x11f50, 0x16a60, 0x16ac0, 0x16b50,
    0x1d7ce, 0x1d7d8, 0x1d7e2, 0x1d7ec, 0x1d7f6, 0x1e140, 0x1e2f0, 0x1e4f0, 0x1e950, 0x1fbf0]

/-- `\d` of a pattern over strings. -/
def isDecimal (c : Char) : Bool :=
  decimalZeros.any fun first => first ≤ c.toNat && c.toNat < first + 10

def includes (t part : Text) : Bool := decide (part <:+: t)

end Text

namespace ControllerSeed

open Text

/-! ## Drift of a load balancer's domain -/

def subjectMark : Text := "  ["

def loadBalancerMark : Text := "] LoadBalancer "

def domainMark : Text := "domain: database "

/-- The lines under the subject read last, each `domain` one of a load balancer
put after its subject. -/
def scan (subject : Text) : List Text → List Text
  | [] => []
  | line :: lines =>
    if line.startswith subjectMark then scan line.strip lines
    else if subject.includes loadBalancerMark && line.strip.startswith domainMark then
      (subject ++ ("\n    " : Text) ++ line.strip) :: scan subject lines
    else scan subject lines

def controllerSeedLbDomainDrift (stdoutLines : List Text) : List Text := scan [] stdoutLines

/-- Two lines of a preview: a load balancer's subject and, before any other
subject, the line of a domain that differs. -/
structure DomainDrift (stdoutLines : List Text) (subject line : Text) : Prop where
  beneath : ∃ before between after, stdoutLines = before ++ subject :: between ++ line :: after ∧
    ∀ l ∈ between, l.startswith subjectMark = false
  subject_starts : subject.startswith subjectMark = true
  loadBalancer : subject.strip.includes loadBalancerMark = true
  line_starts : line.startswith subjectMark = false
  domain : line.strip.startswith domainMark = true

theorem scan_of_beneath {subject line : Text} {between after : List Text}
    (hbetween : ∀ l ∈ between, l.startswith subjectMark = false)
    (hsubject : subject.includes loadBalancerMark = true)
    (hstarts : line.startswith subjectMark = false)
    (hdomain : line.strip.startswith domainMark = true) :
    scan subject (between ++ line :: after) ≠ [] := by
  induction between with
  | nil => simp [scan, hstarts, hsubject, hdomain]
  | cons l between ih =>
    rw [List.cons_append, scan, if_neg]
    · split
      · exact List.cons_ne_nil _ _
      · exact ih fun x hx => hbetween x (List.mem_cons_of_mem _ hx)
    · rw [hbetween l List.mem_cons_self]
      exact Bool.false_ne_true

theorem scan_of_suffix (before : List Text) {lines : List Text} (subject : Text)
    (h : ∀ subject, scan subject lines ≠ []) : scan subject (before ++ lines) ≠ [] := by
  induction before generalizing subject with
  | nil => exact h subject
  | cons l before ih =>
    rw [List.cons_append, scan]
    split
    · exact ih _
    · split
      · exact List.cons_ne_nil _ _
      · exact ih subject

theorem not_drift_of_scan {stdoutLines : List Text}
    (h : controllerSeedLbDomainDrift stdoutLines = []) (subject line : Text) :
    ¬ DomainDrift stdoutLines subject line := by
  rintro ⟨⟨before, between, after, rfl, hbetween⟩, hsubject, hload, hstarts, hdomain⟩
  rw [controllerSeedLbDomainDrift, List.append_assoc] at h
  refine scan_of_suffix before [] (fun last => ?_) h
  rw [List.cons_append, scan, if_pos hsubject]
  exact scan_of_beneath hbetween hload hstarts hdomain

/-! ## The fingerprint -/

def idPlaceholder : Text := "<id>"

/-- `sub` of a pattern that is a head, a number and the end of the line: the
number is all the digits at the end. -/
def forgetId (head : Text → Bool) (line : Text) : Text :=
  let digits := (line.reverse.takeWhile isDecimal).reverse
  let kept := line.take (line.length - digits.length)
  if !digits.isEmpty && head kept then kept ++ idPlaceholder else line

def isNameChar (c : Char) : Bool := ('a' ≤ c && c ≤ 'z') || c == '_'

/-- `^ {13}[a-z_]+_id: `, then this text, anything, and that text at the end. -/
def idHead (after stop line : Text) : Bool :=
  let name : Text := (line.drop 13).takeWhile isNameChar
  let rest : Text := line.drop (13 + name.length)
  let value : Text := rest.drop ((": " : Text) ++ after).length
  line.startswith (List.replicate 13 ' ') && 3 < name.length && name.endswith ("_id" : Text) &&
    rest.startswith ((": " : Text) ++ after) && value.endswith stop

def diffId : Text → Bool := idHead [] (" → " : Text)

def driftId : Text → Bool := idHead ("database " : Text) (", manifest " : Text)

def linkDriver (line : Text) : Bool :=
  let linked : Text := line.drop ("  [link  ] " : Text).length
  line.startswith ("  [link  ] " : Text) && linked.endswith (" → ProvisionDriver #" : Text)

/-- `(?:\x1b\[[0-9;]*m)?` -/
def dropColor (t : Text) : Text :=
  match t with
  | '\x1b' :: '[' :: rest =>
    match rest.dropWhile fun c => c.isDigit || c == ';' with
    | 'm' :: rest => rest
    | _ => t
  | _ => t

/-- A text of this shape, where `0` stands for a digit, taken off. -/
def dropShape : Text → Text → Option Text
  | [], t => some t
  | _ :: _, [] => none
  | p :: shape, c :: t =>
    if (if p = '0' then isDecimal c else c == p) then dropShape shape t else none

def dropFraction (t : Text) : Text :=
  match t with
  | '.' :: c :: rest => if isDecimal c then rest.dropWhile isDecimal else t
  | _ => t

def logLevels : List Text :=
  [("DEBUG" : Text), ("INFO" : Text), ("WARN" : Text), ("ERROR" : Text), ("FATAL" : Text)]

/-- What follows the time of a log line. -/
def isPid (t : Text) : Bool :=
  match t with
  | 'Z' :: rest =>
    rest.head?.any isSpace && startswith (lstrip rest) ("pid=" : Text) &&
      ((lstrip rest).drop ("pid=" : Text).length).head?.any isDecimal
  | _ => false

def isLogLine (line : Text) : Bool :=
  let start := dropColor line
  match logLevels.find? fun level => start.startswith level with
  | none => false
  | some level =>
    let rest : Text := start.drop level.length
    let plain := dropColor rest.lstrip
    plain.length < rest.length && (rest.lstrip == plain || plain.head?.any isSpace) &&
      match dropShape ("0000-00-00T00:00:00" : Text) plain.lstrip with
      | none => false
      | some t => isPid (dropFraction t)

def normalizeLine (line : Text) : Text :=
  forgetId linkDriver (forgetId driftId (forgetId diffId line))

def controllerSeedPreviewNormalize (output : List Text) : List Text :=
  ((output.map (Text.rstripChar '\r')).filter fun line => !isLogLine line).map normalizeLine

def document (lines : List Text) : Text := lines.flatMap fun line => line ++ ("\n" : Text)

def controllerSeedPreviewSha256 (sha256 : Text → Text) (output : List Text) : Option Text :=
  let lines := controllerSeedPreviewNormalize output
  if lines.any fun line => !line.strip.isEmpty then some (sha256 (document lines)) else none

end ControllerSeed

end Provisioner
