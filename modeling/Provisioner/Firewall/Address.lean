import Mathlib.Algebra.Group.Nat.Defs
import Provisioner.Library.Words

/-!
# Addresses, networks and the ssh source check

Python's `ipaddress` as far as the preflight filter uses it, and the filter
itself: is the address a run comes from inside one of the networks a host
accepts ssh from.
-/

namespace Provisioner.Firewall

open Text (strip isNumber int)

inductive Family where
  | ipv4
  | ipv6
deriving DecidableEq, Repr

def Family.width : Family → ℕ
  | .ipv4 => 32
  | .ipv6 => 128

structure Address where
  version : Family
  ip : ℕ
deriving DecidableEq, Repr

structure Network where
  version : Family
  networkAddress : ℕ
  prefixlen : ℕ
deriving DecidableEq, Repr

/-! ## `ipaddress` -/

/-- One of the four numbers of a dotted quad: no leading zero, at most 255. -/
def parseOctet (t : Text) : Option ℕ :=
  if isNumber t && t.length ≤ 3 && (t.length = 1 || t.head? ≠ some '0') && int t ≤ 255 then
    some (int t)
  else none

def ipv4Int (t : Text) : Option ℕ :=
  match (t.splitOn '.').mapM parseOctet with
  | some [a, b, c, d] => some (((a * 256 + b) * 256 + c) * 256 + d)
  | _ => none

def hexValue (c : Char) : Option ℕ :=
  let n := c.toNat
  if c.isDigit then some (n - 48)
  else if 97 ≤ n ∧ n ≤ 102 then some (n - 87)
  else if 65 ≤ n ∧ n ≤ 70 then some (n - 55)
  else none

def parseHextet (t : Text) : Option ℕ :=
  if t.isEmpty || 4 < t.length then none
  else (t.mapM hexValue).map fun digits => digits.foldl (fun n d => n * 16 + d) 0

/-- The groups of an address; one written as a dotted quad counts for two. -/
def hextets (parts : List Text) : Option (List ℕ) :=
  match parts.getLast? with
  | none => none
  | some last =>
    if '.' ∈ last then do
      let quad ← ipv4Int last
      let groups ← parts.dropLast.mapM parseHextet
      pure (groups ++ [quad / 65536, quad % 65536])
    else parts.mapM parseHextet

def joinHextets (groups : List ℕ) : ℕ := groups.foldl (fun n g => n * 65536 + g) 0

/-- What stands on one side of a `::`; the side may be empty. -/
def side (parts : List Text) : Option (List ℕ) :=
  if parts = [[]] then some [] else hextets parts

def skipped (parts : List Text) : List ℕ :=
  (List.range (parts.length - 2)).map (· + 1) |>.filter fun i => parts[i]? = some []

def ipv6Int (t : Text) : Option ℕ :=
  let parts := t.splitOn ':'
  if parts.length < 3 then none
  else
    match skipped parts with
    | [] => do
      let groups ← hextets parts
      if groups.length = 8 then pure (joinHextets groups) else none
    | [i] => do
      let high ← side (parts.take i)
      let low ← side (parts.drop (i + 1))
      if high.length + low.length < 8 then
        pure (joinHextets (high ++ List.replicate (8 - high.length - low.length) 0 ++ low))
      else none
    | _ => none

/-- An IPv6 address may carry a zone after a single `%`. -/
def splitScopeId (t : Text) : Option Text :=
  match t.splitOn '%' with
  | [address] => some address
  | [address, zone] => if zone.isEmpty then none else some address
  | _ => none

def ipAddress (t : Text) : Option Address :=
  match ipv4Int t with
  | some ip => some ⟨.ipv4, ip⟩
  | none => do
    let address ← splitScopeId t
    let ip ← ipv6Int address
    pure ⟨.ipv6, ip⟩

def prefixFromPrefixString (width : ℕ) (t : Text) : Option ℕ :=
  if isNumber t && int t ≤ width then some (int t) else none

def prefixFromIpInt (mask : ℕ) : Option ℕ :=
  (List.range 33).find? fun p => mask = (2 ^ p - 1) * 2 ^ (32 - p)

/-- A dotted netmask, or a hostmask. -/
def prefixFromIpString (t : Text) : Option ℕ := do
  let mask ← ipv4Int t
  match prefixFromIpInt mask with
  | some p => pure p
  | none => prefixFromIpInt (2 ^ 32 - 1 - mask)

def makeNetmask (version : Family) (t : Text) : Option ℕ :=
  match prefixFromPrefixString version.width t with
  | some p => some p
  | none =>
    match version with
    | .ipv4 => prefixFromIpString t
    | .ipv6 => none

/-- `ip_network(t, strict=False)`: the bits of the host are cleared. -/
def makeNetwork (version : Family) (ip prefixlen : ℕ) : Network :=
  let host := 2 ^ (version.width - prefixlen)
  ⟨version, ip / host * host, prefixlen⟩

def networkOf (version : Family) (read : Text → Option ℕ) (t : Text) : Option Network :=
  match t.splitOn '/' with
  | [address] => (read address).map fun ip => makeNetwork version ip version.width
  | [address, mask] => do
    let ip ← read address
    let prefixlen ← makeNetmask version mask
    pure (makeNetwork version ip prefixlen)
  | _ => none

def ipNetwork (t : Text) : Option Network :=
  match networkOf .ipv4 ipv4Int t with
  | some network => some network
  | none => networkOf .ipv6 (fun address => do ipv6Int (← splitScopeId address)) t

/-- `address in network`. -/
def Network.contains (n : Network) (a : Address) : Bool :=
  n.version = a.version &&
    a.ip / 2 ^ (n.version.width - n.prefixlen) * 2 ^ (n.version.width - n.prefixlen) =
      n.networkAddress

def ipv4Mapped (a : Address) : Option Address :=
  if a.version = .ipv6 ∧ a.ip / 2 ^ 32 = 0xFFFF then some ⟨.ipv4, a.ip % 2 ^ 32⟩ else none

example : ipNetwork ("10.1.2.3/255.255.0.0" : Text) = ipNetwork ("10.1.0.0/16" : Text) := by
  decide

example : ipAddress ("2001:DB8::192.0.2.1" : Text) = ipAddress ("2001:db8::c000:201" : Text) := by
  decide

/-! ## The filter -/

/-- Always accepted by the table, on `lo`. -/
def loopback : List Text := ["127.0.0.0/8", "::1/128"]

/-- `_address`: an IPv4-mapped IPv6 address unwrapped, the zone dropped. -/
def address (value : Text) : Option Address :=
  let text := strip value
  let text := if '%' ∈ text then text.takeWhile (· ≠ '%') else text
  match ipAddress text with
  | none => none
  | some a => some ((ipv4Mapped a).getD a)

def network (value : Text) : Option Network := ipNetwork (strip value)

def covers (a : Address) (entry : Text) : Bool :=
  match network entry with
  | none => false
  | some n => n.version = a.version && n.contains a

def preflightSshCovered (source : Text) (allowFrom also : List Text) : Bool :=
  if allowFrom.isEmpty then true
  else
    match address source with
    | none => false
    | some a => (allowFrom ++ also ++ loopback).any (covers a)

end Provisioner.Firewall
