import Provisioner.Inventory.PublicIpv6

/-!
# The public IPv6 addresses of the load balancers

`lb_public_ipv6_plan.yml`: the program that adds the addresses on the
controller, the lines it prints, and the parser that reads them back. The
verdict on a run is taken from what the parser has read.
-/

namespace Provisioner.ControllerSeed.LbIpv6

open Firewall (Address ipv6Int)
open Inventory (csIpv6Problem)
open Text (join strip isLineBreak)

structure Wanted where
  az : Text
  ip : Text
deriving DecidableEq, Repr

/-! ## The controller -/

inductive Role where
  | pub
  | connect
  | internal
  | proxy
deriving DecidableEq, Repr

def Role.toS : Role → Text
  | .pub => "public"
  | .connect => "connect"
  | .internal => "internal"
  | .proxy => "proxy"

/-- A `LoadBalancerAddr`. -/
structure AddrRow where
  ipAddr : Option Address
  role : Role
  label : Text
deriving DecidableEq, Repr

/-- A region, and the addresses of its load balancer where it has one. -/
structure RegionRow where
  name : Text
  loadBalancer : Option (List AddrRow)
deriving DecidableEq, Repr

abbrev Db := List RegionRow

def findBy (name : Text) (db : Db) : Option RegionRow := db.find? fun r => r.name = name

def create (name : Text) (row : AddrRow) : Db → Db
  | [] => []
  | r :: db =>
    if r.name = name then { r with loadBalancer := r.loadBalancer.map (· ++ [row]) } :: db
    else r :: create name row db

/-- `IPAddr.new`, which raises on what is no address. -/
def ipAddr (ip : Text) : Option Address := (ipv6Int ip).map (⟨.ipv6, ·⟩)

def hit (rows : List AddrRow) (a : Address) : Option AddrRow :=
  rows.find? fun r => r.ipAddr = some a

/-! ## The program -/

inductive Outcome where
  | create
  | ok
  | conflict (role : Role)
  | noregion
  | nolb
deriving DecidableEq, Repr

def newRow (w : Wanted) (a : Address) : AddrRow := ⟨some a, .pub, w.az ++ " public ipv6"⟩

section

-- whether the row passes the controller's own validations; `create!` raises otherwise
variable (valid : Db → Wanted → Bool)

/-- The body of the loop; `none` where it raises. -/
def seedAddress (apply : Bool) (db : Db) (w : Wanted) : Option (Outcome × Db) :=
  match findBy w.az db with
  | none => some (.noregion, db)
  | some r =>
    match r.loadBalancer with
    | none => some (.nolb, db)
    | some rows =>
      match ipAddr w.ip with
      | none => none
      | some a =>
        match hit rows a with
        | some row => some (if row.role = .pub then .ok else .conflict row.role, db)
        | none =>
          if !apply then some (.create, db)
          else if valid db w then some (.create, create w.az (newRow w a) db)
          else none

/-- What was printed for, and what the transaction holds at its end. -/
def eachAddress (apply : Bool) : Db → List Wanted → List (Wanted × Outcome) × Option Db
  | db, [] => ([], some db)
  | db, w :: want =>
    match seedAddress valid apply db w with
    | none => ([], none)
    | some (o, db') => ((w, o) :: (eachAddress apply db' want).1, (eachAddress apply db' want).2)

def report (w : Wanted) : Outcome → Text
  | .create => join ['|'] ["CREATE", w.az, w.ip]
  | .ok => join ['|'] ["OK", w.az, w.ip]
  | .conflict role => join ['|'] ["CONFLICT", w.az, w.ip, role.toS]
  | .noregion => join ['|'] ["MISSING", w.az, w.ip, "NOREGION"]
  | .nolb => join ['|'] ["MISSING", w.az, w.ip, "NOLB"]

def puts (lines : List Text) : Text :=
  lines.flatMap fun l => if l.getLast? = some '\n' then l else l ++ ['\n']

structure Cmd where
  rc : ℕ
  stdout : Text
deriving DecidableEq, Repr

/-- `cstacks runner`: an exception rolls the transaction back. -/
def runner (apply : Bool) (db : Db) (want : List Wanted) : Cmd × Db :=
  let (printed, final) := eachAddress valid apply db want
  let lines := printed.map fun (w, o) => report w o
  match final with
  | some db' => (⟨0, puts (lines ++ [("DONE" : Text)])⟩, db')
  | none => (⟨1, puts lines⟩, db)

end

/-! ## The parser -/

inductive Kind where
  | create
  | ok
  | conflict
  | missing
deriving DecidableEq, Repr

/-- `note` is the role of a conflict and the reason of a missing one. -/
structure Entry where
  kind : Kind
  az : Text
  ip : Text
  note : Text := []
deriving DecidableEq, Repr

/-- `stdout_lines`, with empty lines added after a `\r\n` and at the end, which
say nothing to the parser. -/
def stdoutLinesOf (stdout : Text) : List Text := stdout.splitOnP isLineBreak

def readLine (line : Text) : Option Entry :=
  match (strip line).splitOn '|' with
  | [kind, az, ip] =>
    if kind = "CREATE" then some ⟨.create, az, ip, []⟩
    else if kind = "OK" then some ⟨.ok, az, ip, []⟩
    else none
  | [kind, az, ip, note] =>
    if kind = "CONFLICT" then some ⟨.conflict, az, ip, note⟩
    else if kind = "MISSING" then some ⟨.missing, az, ip, note⟩
    else none
  | _ => none

structure LbResult where
  entries : List Entry
  done : Bool

namespace LbResult

def ofKind (kind : Kind) (r : LbResult) : List Entry := r.entries.filter fun e => e.kind = kind

def conflict : LbResult → List Entry := ofKind .conflict

def missing : LbResult → List Entry := ofKind .missing

end LbResult

def controllerSeedLbIpv6Result (lines : List Text) : LbResult where
  entries := lines.filterMap readLine
  done := lines.any fun line => (strip line).splitOn '|' = ["DONE"]

def Entry.fails (e : Entry) : Bool := e.kind = .conflict || e.kind = .missing

def passes (cmd : Cmd) : Bool :=
  let r := controllerSeedLbIpv6Result (stdoutLinesOf cmd.stdout)
  cmd.rc = 0 && r.done && r.entries.all fun e => !e.fails

end Provisioner.ControllerSeed.LbIpv6
