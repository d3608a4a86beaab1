import Provisioner.Firewall.Address
import Provisioner.Library.Words

/-!
# `public_ipv6`

The check of `preflight_ipv6.py`: one host address, written the way Python's
`ipaddress` prints it. What passes is made of hexadecimal digits and colons.
-/

namespace Provisioner.Inventory

open Firewall (ipv6Int)
open Text (strip)

/-! ## How an address is printed -/

/-- The longest run of zeros so far, and the run that is going on. -/
structure ZeroRuns where
  bestStart : ℕ := 0
  bestLen : ℕ := 0
  start : Option ℕ := none
  len : ℕ := 0

def ZeroRuns.step (s : ZeroRuns) (hextet : Text × ℕ) : ZeroRuns :=
  if hextet.1 = ['0'] then
    let start := s.start.getD hextet.2
    if s.bestLen < s.len + 1 then ⟨start, s.len + 1, some start, s.len + 1⟩
    else { s with start := some start, len := s.len + 1 }
  else { s with start := none, len := 0 }

/-- `hextets[start:stop] = ['']`, with one more empty part where the run is at an end. -/
def cutRun (hextets : List Text) (start stop : ℕ) : List Text :=
  (if start = 0 then [[]] else hextets.take start) ++ [] ::
    if stop = hextets.length then [[]] else hextets.drop stop

def compressHextets (hextets : List Text) : List Text :=
  let runs := hextets.zipIdx.foldl ZeroRuns.step {}
  if 1 < runs.bestLen then
    cutRun hextets runs.bestStart (runs.bestStart + runs.bestLen)
  else hextets

def hextets (ip : ℕ) : List Text :=
  [112, 96, 80, 64, 48, 32, 16, 0].map fun shift => Nat.toDigits 16 (ip / 2 ^ shift % 65536)

/-- `str(IPv6Address)` -/
def canonical (ip : ℕ) : Text := Text.join [':'] (compressHextets (hextets ip))

example : canonical 0x20010DB8000000000000000000000161 = "2001:db8::161" := by decide

example : canonical 0x20010DB800000001000000000000000A = "2001:db8:0:1::a" := by decide

example : canonical 0xFE800000000000000000000000000000 = "fe80::" := by decide

/-! ## The check -/

def addressProblem (value : Text) (ip : ℕ) : Option Text :=
  if ip / 2 ^ 32 = 0xFFFF then
    some "it is an IPv4-mapped address; put the IPv4 address in public_ip instead"
  else if ip = 0 then some "it is the unspecified address ::"
  else if ip = 1 then some "it is the loopback address ::1"
  else if ip / 2 ^ 118 = 0xFE80 / 2 ^ 6 then
    some "it is link-local (fe80::/10), which is never reachable from outside its link"
  else if ip / 2 ^ 120 = 0xFF then some "it is a multicast address"
  else if ip / 2 ^ 118 = 0xFEC0 / 2 ^ 6 then
    some "it is a deprecated site-local address (fec0::/10)"
  else if value ≠ canonical ip then
    some ("it is not written in canonical (RFC 5952) form; write it as " ++ canonical ip ++
      " -- PowerDNS and dig print that form, and the provisioner compares addresses as text")
  else none

/-- The sentence that says what is wrong; `''` when nothing is. -/
def csIpv6Problem (value : Text) : Option Text :=
  if strip value ≠ value then some "it has leading or trailing whitespace"
  else if value = [] then some "it is empty"
  else if '/' ∈ value then
    some "it carries a prefix length; give the single address, without /128 or /64"
  else if '%' ∈ value then
    some "it carries a zone index (%...), which only a link-local address has"
  else
    match ipv6Int value with
    | none => some "it is not an IPv6 address"
    | some ip => addressProblem value ip

/-! ## What passes -/

def IsIpv6Char (c : Char) : Prop := c ∈ ("0123456789abcdef:" : Text)

theorem isIpv6Char_toDigits (n : ℕ) : ∀ c ∈ Nat.toDigits 16 n, IsIpv6Char c := by
  induction n using Nat.strong_induction_on with
  | _ n ih =>
    have hdigit : ∀ d < 16, IsIpv6Char (Nat.digitChar d) := by
      unfold IsIpv6Char
      decide
    intro c hc
    rw [Nat.toDigits_eq_if (by omega)] at hc
    split_ifs at hc with hlt
    · rw [List.mem_singleton.mp hc]
      exact hdigit n hlt
    · rcases List.mem_append.mp hc with hc | hc
      · exact ih (n / 16) (by omega) c hc
      · rw [List.mem_singleton.mp hc]
        exact hdigit _ (Nat.mod_lt n (by omega))

theorem mem_cutRun {parts : List Text} {start stop : ℕ} {part : Text}
    (h : part ∈ cutRun parts start stop) : part = [] ∨ part ∈ parts := by
  rcases List.mem_append.mp h with h | h
  · split_ifs at h
    · exact .inl (List.mem_singleton.mp h)
    · exact .inr (List.mem_of_mem_take h)
  · obtain rfl | h := List.mem_cons.mp h
    · exact .inl rfl
    · split_ifs at h
      · exact .inl (List.mem_singleton.mp h)
      · exact .inr (List.mem_of_mem_drop h)

theorem isIpv6Char_canonical (ip : ℕ) : ∀ c ∈ canonical ip, IsIpv6Char c := by
  intro c hc
  obtain rfl | ⟨part, hpart, hc⟩ := Text.mem_of_mem_join hc
  · unfold IsIpv6Char
    decide
  · have hmem : part = [] ∨ part ∈ hextets ip := by
      unfold compressHextets at hpart
      dsimp only at hpart
      split_ifs at hpart
      · exact mem_cutRun hpart
      · exact .inr hpart
    obtain rfl | hmem := hmem
    · cases hc
    · obtain ⟨shift, -, rfl⟩ := List.mem_map.mp hmem
      exact isIpv6Char_toDigits _ c hc

theorem canonical_of_noProblem {value : Text} {ip : ℕ} (h : addressProblem value ip = none) :
    value = canonical ip := by
  unfold addressProblem at h
  split_ifs at h with _ _ _ _ _ _ hcanonical
  exact not_not.mp hcanonical

theorem of_noProblem {value : Text} (h : csIpv6Problem value = none) :
    (∃ ip, ipv6Int value = some ip) ∧ ∀ c ∈ value, IsIpv6Char c := by
  unfold csIpv6Problem at h
  cases hip : ipv6Int value with
  | none =>
    rw [hip] at h
    split_ifs at h
  | some ip =>
    rw [hip] at h
    split_ifs at h
    refine ⟨⟨ip, rfl⟩, ?_⟩
    rw [canonical_of_noProblem h]
    exact isIpv6Char_canonical ip

end Provisioner.Inventory
