import Provisioner.Powerdns.Zone

/-!
# The load balancer record plan

`lb_records_plan.yml` decides, for each domain the run's nodes answer on,
whether its records are left alone, are somebody else's, or are to be written.
-/

namespace Provisioner.Powerdns

/-- `public_ipv6` is empty on a host that does not set it. -/
structure HostVars where
  csAppDomain : Text
  publicIp : Text
  publicIpv6 : Text
deriving DecidableEq, Repr

structure Site where
  csAppZone : Text
  recordTtl : Nat
  nameStyle : NameStyle
  inventoryNodes : List Text
  hostvars : Text → HostVars
  recordsNodes : List Text

inductive Decision where
  | skipped (note : Text)
  | conflict (reason : Text)
  | write (ops : List Op)
deriving DecidableEq, Repr

structure Plan where
  ops : List Op
  conflicts : List Text
  skipped : List Text
  stale : List Text
deriving DecidableEq, Repr

def comma (l : List Text) : Text := Text.join ", " l

def ownerHead : Text := ['"', 'o', 'w', 'n', 'e', 'r', '=']

/-- `owner=<host>` in quotes, as the marker spells it. -/
def ownerMark (h : Text) : Text := ownerHead ++ h ++ ['"']

-- `^"owner=(.*)"$`
def ownerMatch (content : Text) : Option Text :=
  if Text.startswith content ownerHead = true ∧ (content.drop 7).getLast? = some '"' then
    some (content.drop 7).dropLast
  else none

-- `^"owner=[^"]+"$`
def isOwner (content : Text) : Bool :=
  (ownerMatch content).any fun h => !h.isEmpty && !h.contains '"'

def markedHost (content : Text) : Text := (ownerMatch content).getD content

def contents (rs : List Record) : List Text := rs.map Record.content

structure Seen where
  apexA : List Record
  apexAaaa : List Record
  apexCname : List Record
  wildCname : List Record
  wildOther : List Record
  markTxt : List Record
  markOther : List Record

def apex (d : Text) : Text := d ++ "."

def wild (d : Text) : Text := "*." ++ apex d

def mark (d : Text) : Text := "_cs-lb." ++ apex d

def others (recs : List Record) (name type : Text) : List Record :=
  recs.filter fun r => r.name = name ∧ r.type ≠ type

def seen (recs : List Record) (d : Text) : Seen where
  apexA := rrset recs (apex d) "A"
  apexAaaa := rrset recs (apex d) "AAAA"
  apexCname := rrset recs (apex d) "CNAME"
  wildCname := rrset recs (wild d) "CNAME"
  wildOther := others recs (wild d) "CNAME"
  markTxt := rrset recs (mark d) "TXT"
  markOther := others recs (mark d) "TXT"

def types (rs : List Record) : List Text := Jinja.unique Text.lowerAscii (rs.map Record.type)

def mHave (s : Seen) : List Text := sort (contents s.markTxt)

def mWellformed (s : Seen) : Bool := (mHave s).all isOwner

def mOwners (s : Seen) : List Text :=
  if mWellformed s then sort (unique ((mHave s).map markedHost)) else []

section Site

variable (site : Site)

def zone : Text := undotted (Text.lower (Text.strip site.csAppZone))

def zfq : Text := zone site ++ "."

def nodes : List Text := sort (unique site.recordsNodes)

def domain (h : Text) : Text := Text.lower (site.hostvars h).csAppDomain

/-- The domains `cut.map` and `deleg.map` are filled for. -/
def mappedDomains : List Text :=
  (unique (site.inventoryNodes ++ nodes site)).map (domain site)

def subzones (zones : List Text) : List Text :=
  zones.filter fun z => Text.endswith z ("." ++ zone site)

/-- The deepest zone of this server that serves `d`. -/
def inner (zones : List Text) (d : Text) : Text :=
  (subzones site zones).foldl
    (fun best z =>
      if (d = z ∨ Text.endswith d ("." ++ z)) ∧ best.length < z.length then z else best) []

def cut (zones : List Text) (d : Text) : Option Text :=
  if d ∈ mappedDomains site ∧ inner site zones d ≠ [] then some (inner site zones d) else none

def nsCuts (recs : List Record) : List Text :=
  unique (((recs.filter fun r => r.type = ("NS" : Text)).map Record.name).filter (· ≠ zfq site))

/-- The delegation point closest to the zone apex that covers `d`. -/
def outer (recs : List Record) (d : Text) : Text :=
  (nsCuts site recs).foldl
    (fun best r =>
      if (apex d = r ∨ Text.endswith (apex d) ("." ++ r)) ∧
          (best = [] ∨ r.length < best.length) then r else best) []

def deleg (recs : List Record) (d : Text) : Option Text :=
  if d ∈ mappedDomains site ∧ outer site recs d ≠ [] then some (outer site recs d).dropLast
  else none

def runDomains : List Text := sort (unique ((nodes site).map (domain site)))

def inZone (d : Text) : Bool :=
  apex d = zfq site || Text.endswith (apex d) ("." ++ zfq site)

def base (d : Text) : Text :=
  if apex d = zfq site then []
  else (apex d).take ((apex d).length - (zfq site).length - 1)

/-- The NAME argument for the apex, and for a label in front of it. -/
def argApex (d : Text) : Text :=
  match site.nameStyle with
  | .absolute => apex d
  | .relative => if apex d = zfq site then "@" else base site d

def argLabel (label d : Text) : Text :=
  match site.nameStyle with
  | .absolute => label ++ "." ++ apex d
  | .relative => if apex d = zfq site then label else label ++ "." ++ base site d

def argWild (d : Text) : Text := argLabel site "*" d

def argMark (d : Text) : Text := argLabel site "_cs-lb" d

def runOwners (d : Text) : List Text := (nodes site).filter fun n => domain site n = d

def mUnknown (s : Seen) : List Text := (mOwners s).filter (· ∉ site.inventoryNodes)

/-- The named owners this run does not build that still answer on `d`. -/
def kept (s : Seen) (d : Text) : List Text :=
  if s.markTxt ≠ [] ∧ mWellformed s = true ∧ mUnknown site s = [] then
    (mOwners s).filter fun h => h ∉ nodes site ∧ domain site h = d
  else []

def wanted (s : Seen) (d : Text) : List Text := runOwners site d ++ kept site s d

def ips (owners : List Text) : List Text :=
  sort (unique (owners.map fun h => (site.hostvars h).publicIp))

def ips6 (owners : List Text) : List Text :=
  sort (unique (owners.filterMap fun h =>
    if (site.hostvars h).publicIpv6.isEmpty then none
    else some (Text.lower (site.hostvars h).publicIpv6)))

def wantMark (owners : List Text) : List Text := sort (owners.map ownerMark)

/-- The rrset is there with exactly these contents, all at the configured TTL. -/
def exact (rs : List Record) (want : List Text) : Bool :=
  sort (contents rs) = want && Jinja.unique id (rs.map Record.ttl) = [site.recordTtl]

/-- Why an unmarked domain is not safe to adopt. -/
def why (s : Seen) (d : Text) : List Text :=
  let owners := wanted site s d
  let differs (rs : List Record) (want : List Text) : Bool :=
    !rs.isEmpty && sort (contents rs) != want
  (if s.apexCname.isEmpty then []
    else [apex d ++ " is a CNAME to " ++ comma (contents s.apexCname)]) ++
  (if differs s.apexA (ips site owners) then
    [apex d ++ " A is " ++ comma (sort (contents s.apexA)) ++ ", not " ++
      comma (ips site owners)]
    else []) ++
  (if !(ips6 site owners).isEmpty && differs s.apexAaaa (ips6 site owners) then
    [apex d ++ " AAAA is " ++ comma (sort (contents s.apexAaaa)) ++ ", not " ++
      comma (ips6 site owners)]
    else []) ++
  (if s.wildOther.isEmpty then []
    else [wild d ++ " holds " ++ comma (types s.wildOther) ++
      " (only a CNAME belongs there)"]) ++
  (if differs s.wildCname [apex d] then
    [wild d ++ " is a CNAME to " ++ comma (sort (contents s.wildCname)) ++ ", not " ++ apex d]
    else [])

def delete (name fqdn type : Text) : Op := ⟨.delete, name, fqdn, type, none, []⟩

def replace (name fqdn type : Text) (contents : List Text) : Op :=
  ⟨.replace, name, fqdn, type, some site.recordTtl, contents⟩

def ops (s : Seen) (d : Text) : List Op :=
  let owners := wanted site s d
  let ips := ips site owners
  let ips6 := ips6 site owners
  (if s.apexCname.isEmpty then [] else [delete (argApex site d) (apex d) "CNAME"]) ++
  (if exact site s.apexA ips then [] else [replace site (argApex site d) (apex d) "A" ips]) ++
  (if ips6.isEmpty || exact site s.apexAaaa ips6 then []
    else [replace site (argApex site d) (apex d) "AAAA" ips6]) ++
  ((sortTypes (types s.wildOther)).map fun t => delete (argWild site d) (wild d) t) ++
  (if exact site s.wildCname [apex d] then []
    else [replace site (argWild site d) (wild d) "CNAME" [apex d]]) ++
  (if exact site s.markTxt (wantMark owners) then []
    else [replace site (argMark site d) (mark d) "TXT" (wantMark owners)])

def deleteByHand (d : Text) : Text :=
  "delete its records by hand (pdnsutil delete-rrset " ++ zone site ++ " " ++ argMark site d ++
    " TXT, and the A at " ++ argApex site d ++ " and the CNAME at " ++ argWild site d ++
    " if they are not what you want) and re-run"

/-- The decision for a domain that is neither skipped nor outside the zone. -/
def decideRecords (s : Seen) (d : Text) : Decision :=
  let owners := comma (sort (runOwners site d))
  if s.markOther ≠ [] then
    .conflict (mark d ++ " holds " ++ comma (types s.markOther) ++
      ", where this provisioner keeps only its TXT ownership marker for " ++ d ++ " (" ++ owners ++
      "). Remove it by hand (pdnsutil delete-rrset " ++ zone site ++ " " ++ argMark site d ++
      " TYPE) and re-run.")
  else if s.markTxt ≠ [] ∧ mWellformed s = false then
    .conflict (d ++ ": the ownership marker " ++ mark d ++ " holds " ++
      Text.join " " (mHave s) ++ ", which is not the `\"owner=<host>\"` form this provisioner" ++
      " writes, so it cannot tell who owns this name, and nothing was written. If the name" ++
      " is really this inventory's, " ++ deleteByHand site d ++ "; otherwise give " ++ owners ++
      " a different app_domain.")
  else if s.markTxt ≠ [] ∧ mUnknown site s ≠ [] then
    .conflict (d ++ ": the ownership marker " ++ mark d ++ " holds " ++
      Text.join " " (mHave s) ++ ", naming " ++ comma (mUnknown site s) ++ ", which " ++
      (if (mUnknown site s).length = 1 then "is not a node" else "are not nodes") ++
      " of this inventory, and nothing was written for " ++ owners ++ ". Either" ++
      " an az of another inventory answers on " ++ d ++ " -- then give " ++ owners ++
      " a different app_domain -- or a node of this inventory was renamed and the marker still" ++
      " carries its old name. If the name is really this inventory's, " ++ deleteByHand site d ++
      ".")
  else if s.markTxt = [] ∧ why site s d ≠ [] then
    .conflict (d ++ ": found records with no " ++ mark d ++ " ownership marker" ++
      " that differ from what this run would write (" ++ Text.join "; " (why site s d) ++
      "). Wanted: `" ++ apex d ++ " A " ++ comma (ips site (wanted site s d)) ++ "`" ++
      (if (ips6 site (wanted site s d)).isEmpty then ([] : Text)
        else ", `" ++ apex d ++ " AAAA " ++ comma (ips6 site (wanted site s d)) ++ "`") ++
      " and `" ++ wild d ++ " CNAME " ++ apex d ++
      "`. Nothing was written. If those records are stale, delete them by hand" ++
      " (pdnsutil delete-rrset " ++ zone site ++ " NAME TYPE, with NAME " ++ argApex site d ++
      " or " ++ argWild site d ++ ") and re-run; if another load balancer still answers on " ++ d ++
      ", give " ++ owners ++ " a different app_domain.")
  else .write (ops site s d)

def planDomain (zones : List Text) (recs : List Record) (d : Text) : Decision :=
  let owners := comma (sort (runOwners site d))
  match cut site zones d with
  | some z =>
    .skipped (d ++ " (" ++ owners ++ ") is served from its own zone " ++ z ++
      " on this server, not from " ++ zone site ++ "; its records are yours to manage." ++
      " Nothing was written for it.")
  | none =>
    match deleg site recs d with
    | some r =>
      .skipped (d ++ " (" ++ owners ++ ") is delegated to other" ++
        " nameservers by an NS record at " ++ r ++ " in " ++ zone site ++
        ", so records written" ++
        " here would never be served; its records are yours to manage there. Nothing was written" ++
        " for it.")
    | none =>
      if inZone site d then decideRecords site (seen recs d) d
      else
        .conflict (d ++ " (" ++ owners ++ ") is not in the zone " ++ zone site ++
          ", so its records cannot be written there. roles/preflight should have caught" ++
          " this: every app_domain must be at or under cs_app_zone.")

def marks (recs : List Record) : List Record :=
  recs.filter fun r => r.type = ("TXT" : Text) ∧ Text.startswith r.name "_cs-lb." = true

def isStale (zones : List Text) (recs : List Record) (mname : Text) : Bool :=
  let x := (mname.drop 7).dropLast
  let strs := contents ((marks recs).filter fun r => r.name = mname)
  let hs := unique (strs.map markedHost)
  decide (x ∉ runDomains site) && strs.all isOwner &&
    hs.all (fun h => decide (h ∈ site.inventoryNodes)) &&
    hs.any fun h => domain site h ≠ x ∧ cut site zones (domain site h) = none ∧
      deleg site recs (domain site h) = none

def stale (zones : List Text) (recs : List Record) : List Text :=
  let names := sort (unique ((marks recs).map Record.name))
  sort (unique ((names.filter (isStale site zones recs)).map fun m => (m.drop 7).dropLast))

def Decision.ops : Decision → List Op
  | .write ops => ops
  | _ => []

def Decision.conflicts : Decision → List Text
  | .conflict reason => [reason]
  | _ => []

def Decision.skips : Decision → List Text
  | .skipped note => [note]
  | _ => []

def lbPlan (allZones listing : List Text) : Plan :=
  let zones := zoneNames allZones
  let recs := zoneRecords listing
  let decisions := (runDomains site).map (planDomain site zones recs)
  { ops := decisions.flatMap Decision.ops
    conflicts := decisions.flatMap Decision.conflicts
    skipped := decisions.flatMap Decision.skips
    stale := stale site zones recs }

end Site

end Provisioner.Powerdns
