import Provisioner.Library.Casing
import Provisioner.Library.Jinja

/-!
# The zone as pdnsutil lists and edits it

`lb_records_plan.yml` reads a zone from the lines of `pdnsutil list-zone`; the
operations it plans are arguments of `pdnsutil delete-rrset` and
`replace-rrset`, whose effect is described here on the same lines.
-/

namespace Provisioner.Powerdns

structure Record where
  name : Text
  ttl : Nat
  type : Text
  content : Text
deriving DecidableEq, Repr

/-- How pdnsutil reads the NAME argument: 5.x absolute, 4.x relative to the zone. -/
inductive NameStyle where
  | absolute
  | relative
deriving DecidableEq, Repr

inductive OpKind where
  | delete
  | replace
deriving DecidableEq, Repr

structure Op where
  op : OpKind
  name : Text
  fqdn : Text
  type : Text
  ttl : Option Nat
  contents : List Text
deriving DecidableEq, Repr

def dotted (t : Text) : Text := if Text.endswith t "." then t else t ++ "."

def undotted (t : Text) : Text := if Text.endswith t "." then t.dropLast else t

-- The string filters `sort` and `unique` compare in lower case.
def sort (l : List Text) : List Text := Jinja.sort Text.lower l

def unique (l : List Text) : List Text := Jinja.unique Text.lower l

-- Record types are ASCII.
def sortTypes (l : List Text) : List Text := Jinja.sort Text.lowerAscii l

def parseContent (type content : Text) : Text :=
  let content := Text.strip content
  if type = ("AAAA" : Text) then Text.lower content
  else if type = ("CNAME" : Text) then dotted (Text.lower content)
  else content

/-- One line of the listing; anything that is not a record is dropped. -/
def parseRecord (line : Text) : Option Record :=
  match Text.fields 4 line with
  | [name, ttl, cls, type, content] =>
    if Text.upper cls = ("IN" : Text) ∧ Text.isNumber ttl = true ∧
        Text.startswith name "$" = false ∧ Text.startswith name ";" = false then
      some
        { name := dotted (Text.lower name)
          ttl := Text.int ttl
          type := Text.upper type
          content := parseContent (Text.upper type) content }
    else none
  | _ => none

def zoneRecords (listing : List Text) : List Record := listing.filterMap parseRecord

def zoneName (line : Text) : Option Text :=
  let z := Text.lower (Text.strip line)
  -- `z.split() | length == 1`: a second word would be left over.
  match Text.fields 1 z with
  | [_] => some (undotted z)
  | _ => none

def zoneNames (allZones : List Text) : List Text := unique (allZones.filterMap zoneName)

def rrset (recs : List Record) (name type : Text) : List Record :=
  recs.filter fun r => r.name = name ∧ r.type = type

/-- The name pdnsutil acts on when it is given `name` in a zone. -/
def pdnsutilName (style : NameStyle) (zfq name : Text) : Text :=
  match style with
  | .absolute => name
  | .relative => if name = ("@" : Text) then zfq else name ++ "." ++ zfq

def render (r : Record) : Text :=
  r.name ++ "\t" ++ Text.decimal r.ttl ++ "\tIN\t" ++ r.type ++ "\t" ++ r.content

def opRecords (style : NameStyle) (zfq : Text) (op : Op) : List Record :=
  match op.op with
  | .delete => []
  | .replace => op.contents.map fun c =>
    ⟨pdnsutilName style zfq op.name, op.ttl.getD 0, op.type, c⟩

def inRrset (name type line : Text) : Bool :=
  (parseRecord line).any fun r => r.name = name ∧ r.type = type

/-- `delete-rrset` removes the rrset; `replace-rrset` also writes the new one. -/
def pdnsutil (style : NameStyle) (zfq : Text) (op : Op) (listing : List Text) : List Text :=
  listing.filter (fun line => !inRrset (pdnsutilName style zfq op.name) op.type line) ++
    (opRecords style zfq op).map render

end Provisioner.Powerdns
