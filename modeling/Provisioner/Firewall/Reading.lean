import Provisioner.Firewall.Address
import Provisioner.Library.Casing

/-!
# What a network text reads as

Case makes no difference to what is read, and a network written without a zone
is one word: a table that lists the words of a text lists the same network.
-/

namespace Provisioner.Firewall

open Text (strip isNumber int lower lowerAscii isSpace IsWord)

theorem isDigit_iff {c : Char} : c.isDigit = true ↔ 48 ≤ c.toNat ∧ c.toNat ≤ 57 :=
  Char.isDigit_iff_toNat

/-! ## What is read does not depend on case -/

theorem isDigit_toLower (c : Char) : c.toLower.isDigit = c.isDigit := by
  rw [Bool.eq_iff_iff, isDigit_iff, isDigit_iff, Text.toNat_toLower]
  split_ifs <;> omega

theorem isNumber_lower (t : Text) : isNumber (lowerAscii t) = isNumber t := by
  have hcomp : Char.isDigit ∘ Char.toLower = Char.isDigit := funext isDigit_toLower
  rw [isNumber, isNumber, lowerAscii, List.isEmpty_map, List.all_map, hcomp]

theorem lower_of_isNumber {t : Text} (h : isNumber t = true) : lowerAscii t = t := by
  rw [isNumber, Bool.and_eq_true, List.all_eq_true] at h
  refine Text.lowerAscii_eq_self fun c hc => ?_
  have hdigit := isDigit_iff.mp (h.2 c hc)
  omega

theorem parseOctet_lower (t : Text) : parseOctet (lowerAscii t) = parseOctet t := by
  by_cases h : isNumber t = true
  · rw [lower_of_isNumber h]
  · rw [parseOctet, parseOctet, isNumber_lower, Bool.not_eq_true _ |>.mp h]
    rfl

theorem cut_lower {s : Char} (hs : s.toNat < 65) (t : Text) :
    (lowerAscii t).splitOn s = (t.splitOn s).map lowerAscii :=
  Text.splitOn_lowerAscii (Text.toLower_eq_iff hs) t

theorem ipv4Int_lower (t : Text) : ipv4Int (lowerAscii t) = ipv4Int t := by
  have hcomp : parseOctet ∘ lowerAscii = parseOctet := funext parseOctet_lower
  rw [ipv4Int, ipv4Int, cut_lower (by decide), List.mapM_map, hcomp]

theorem hexValue_toLower (c : Char) : hexValue c.toLower = hexValue c := by
  unfold hexValue
  rw [isDigit_toLower, Text.toNat_toLower]
  by_cases h : 65 ≤ c.toNat ∧ c.toNat ≤ 90
  · have hdigit : ¬ c.isDigit = true := fun hd => by
      have := isDigit_iff.mp hd
      omega
    simp only [if_pos h, if_neg hdigit]
    split_ifs <;> first | omega | rfl
  · rw [if_neg h]

theorem parseHextet_lower (t : Text) : parseHextet (lowerAscii t) = parseHextet t := by
  have hcomp : hexValue ∘ Char.toLower = hexValue := funext hexValue_toLower
  rw [parseHextet, parseHextet, lowerAscii, List.isEmpty_map, List.length_map, List.mapM_map, hcomp]

theorem mem_lower_iff {c : Char} (hc : c.toNat < 65) {t : Text} : c ∈ lowerAscii t ↔ c ∈ t := by
  rw [lowerAscii, List.mem_map]
  constructor
  · rintro ⟨d, hd, hlower⟩
    rwa [← (Text.toLower_eq_iff hc d).mp hlower]
  · exact fun h => ⟨c, h, (Text.toLower_eq_iff hc c).mpr rfl⟩

theorem hextets_lower (parts : List Text) : hextets (parts.map lowerAscii) = hextets parts := by
  unfold hextets
  rw [List.getLast?_map]
  cases parts.getLast? with
  | none => rfl
  | some last =>
    have hcomp : parseHextet ∘ lowerAscii = parseHextet := funext parseHextet_lower
    have hmap : ∀ l : List Text, (l.map lowerAscii).mapM parseHextet = l.mapM parseHextet :=
      fun l => by rw [List.mapM_map, hcomp]
    simp only [Option.map_some, mem_lower_iff (c := '.') (by decide), ipv4Int_lower, hmap, ← List.map_dropLast]

theorem side_lower (parts : List Text) : side (parts.map lowerAscii) = side parts := by
  have hempty : parts.map lowerAscii = [[]] ↔ parts = [[]] := by
    simp [List.map_eq_singleton_iff, lowerAscii]
  simp only [side, hempty, hextets_lower]

theorem skipped_lower (parts : List Text) : skipped (parts.map lowerAscii) = skipped parts := by
  unfold skipped
  rw [List.length_map]
  refine List.filter_congr fun i _ => ?_
  simp [List.getElem?_map, lowerAscii]

theorem ipv6Int_lower (t : Text) : ipv6Int (lowerAscii t) = ipv6Int t := by
  unfold ipv6Int
  simp only [cut_lower (s := ':') (by decide), List.length_map, skipped_lower, hextets_lower,
    ← List.map_take, ← List.map_drop, side_lower]

theorem splitScopeId_lower (t : Text) :
    splitScopeId (lowerAscii t) = (splitScopeId t).map lowerAscii := by
  unfold splitScopeId
  rw [cut_lower (by decide)]
  match t.splitOn '%' with
  | [] => rfl
  | [_] => rfl
  | [_, zone] => cases zone <;> rfl
  | _ :: _ :: _ :: _ => rfl

theorem makeNetmask_lower (version : Family) (t : Text) :
    makeNetmask version (lowerAscii t) = makeNetmask version t := by
  have hlength : prefixFromPrefixString version.width (lowerAscii t) =
      prefixFromPrefixString version.width t := by
    by_cases h : isNumber t = true
    · rw [lower_of_isNumber h]
    · rw [prefixFromPrefixString, prefixFromPrefixString, isNumber_lower,
        Bool.not_eq_true _ |>.mp h]
      rfl
  unfold makeNetmask prefixFromIpString
  rw [hlength, ipv4Int_lower]

theorem networkOf_lower {version : Family} {read : Text → Option ℕ}
    (hread : ∀ t, read (lowerAscii t) = read t) (t : Text) :
    networkOf version read (lowerAscii t) = networkOf version read t := by
  unfold networkOf
  rw [cut_lower (by decide)]
  match t.splitOn '/' with
  | [] => rfl
  | [_] => simp only [List.map_cons, List.map_nil, hread]
  | [_, _] => simp only [List.map_cons, List.map_nil, hread, makeNetmask_lower]
  | _ :: _ :: _ :: _ => rfl

theorem network_lower (t : Text) : network (lowerAscii t) = network t := by
  have hscoped : ∀ u, (splitScopeId (lowerAscii u) >>= ipv6Int) = (splitScopeId u >>= ipv6Int) := by
    intro u
    rw [splitScopeId_lower]
    cases splitScopeId u with
    | none => rfl
    | some address => exact ipv6Int_lower address
  rw [network, network, ipNetwork, ipNetwork, Text.strip_lowerAscii, networkOf_lower ipv4Int_lower,
    networkOf_lower hscoped]

theorem network_congr {t u : Text} (h : lowerAscii t = lowerAscii u) : network t = network u := by
  rw [← network_lower, h, network_lower]

/-! ## What is read is one word -/

def Printed (t : Text) : Prop :=
  ∀ c ∈ t, 33 ≤ c.toNat ∧ c.toNat ≤ 70 ∨ 97 ≤ c.toNat ∧ c.toNat ≤ 102

theorem printed_of_splitOn {s : Char}
    (hs : 33 ≤ s.toNat ∧ s.toNat ≤ 70 ∨ 97 ≤ s.toNat ∧ s.toNat ≤ 102) {t : Text}
    (h : ∀ w ∈ t.splitOn s, Printed w) : Printed t := by
  intro c hc
  obtain rfl | ⟨w, hw, hcw⟩ := Text.mem_splitOn s hc
  · exact hs
  · exact h w hw c hcw

theorem exists_of_mapM {α β : Type} {f : α → Option β} {l : List α} {l' : List β}
    (h : l.mapM f = some l') : ∀ a ∈ l, ∃ b, f a = some b := by
  induction l generalizing l' with
  | nil => simp
  | cons a l ih =>
    rw [List.mapM_cons] at h
    obtain ⟨b, hb, hrest⟩ := Option.bind_eq_some_iff.mp h
    obtain ⟨bs, hbs, -⟩ := Option.bind_eq_some_iff.mp hrest
    rintro c (_ | hc)
    · exact ⟨b, hb⟩
    · exact ih hbs c ‹_›

theorem printed_of_isNumber {t : Text} (h : isNumber t = true) : Printed t := by
  rw [isNumber, Bool.and_eq_true, List.all_eq_true] at h
  intro c hc
  have hdigit := isDigit_iff.mp (h.2 c hc)
  omega

theorem isNumber_of_ipv4Int {t : Text} {ip : ℕ} (h : ipv4Int t = some ip) :
    ∀ w ∈ t.splitOn '.', isNumber w = true := by
  unfold ipv4Int at h
  cases hoctets : (t.splitOn '.').mapM parseOctet with
  | none =>
    rw [hoctets] at h
    cases h
  | some octets =>
    intro w hw
    obtain ⟨b, hb⟩ := exists_of_mapM hoctets w hw
    unfold parseOctet at hb
    split_ifs at hb with hoctet
    simp only [Bool.and_eq_true] at hoctet
    exact hoctet.1.1.1

theorem printed_of_ipv4Int {t : Text} {ip : ℕ} (h : ipv4Int t = some ip) : Printed t :=
  printed_of_splitOn (by decide) fun w hw => printed_of_isNumber (isNumber_of_ipv4Int h w hw)

theorem printed_of_parseHextet {t : Text} {n : ℕ} (h : parseHextet t = some n) : Printed t := by
  unfold parseHextet at h
  split_ifs at h
  obtain ⟨digits, hdigits, -⟩ := Option.map_eq_some_iff.mp h
  intro c hc
  obtain ⟨d, hd⟩ := exists_of_mapM hdigits c hc
  unfold hexValue at hd
  dsimp only at hd
  split_ifs at hd with hdigit hlow hupper
  · have := isDigit_iff.mp hdigit
    omega
  · omega
  · omega

theorem printed_of_hextets {parts : List Text} {groups : List ℕ} (h : hextets parts = some groups) :
    ∀ w ∈ parts, Printed w := by
  unfold hextets at h
  cases hlast : parts.getLast? with
  | none => simp [List.getLast?_eq_none_iff.mp hlast]
  | some last =>
    rw [hlast] at h
    dsimp only at h
    split_ifs at h
    · obtain ⟨quad, hquad, hrest⟩ := Option.bind_eq_some_iff.mp h
      obtain ⟨init, hinit, -⟩ := Option.bind_eq_some_iff.mp hrest
      intro w hw
      rw [← List.dropLast_append_getLast? last hlast, List.mem_append, List.mem_singleton] at hw
      obtain hw | rfl := hw
      · obtain ⟨n, hn⟩ := exists_of_mapM hinit w hw
        exact printed_of_parseHextet hn
      · exact printed_of_ipv4Int hquad
    · intro w hw
      obtain ⟨n, hn⟩ := exists_of_mapM h w hw
      exact printed_of_parseHextet hn

theorem printed_of_side {parts : List Text} {groups : List ℕ} (h : side parts = some groups) :
    ∀ w ∈ parts, Printed w := by
  unfold side at h
  split_ifs at h with hempty
  · rw [hempty]
    intro w hw
    rw [List.mem_singleton.mp hw]
    intro c hc
    cases hc
  · exact printed_of_hextets h

theorem printed_of_ipv6Int {t : Text} {ip : ℕ} (h : ipv6Int t = some ip) : Printed t := by
  refine printed_of_splitOn (s := ':') (by decide) ?_
  unfold ipv6Int at h
  dsimp only at h
  split_ifs at h
  cases hskip : skipped (t.splitOn ':') with
  | nil =>
    rw [hskip] at h
    obtain ⟨groups, hgroups, -⟩ := Option.bind_eq_some_iff.mp h
    exact printed_of_hextets hgroups
  | cons i rest =>
    rw [hskip] at h
    cases rest with
    | cons => cases h
    | nil =>
      obtain ⟨high, hhigh, hrest⟩ := Option.bind_eq_some_iff.mp h
      obtain ⟨low, hlow, -⟩ := Option.bind_eq_some_iff.mp hrest
      have hi : i ∈ skipped (t.splitOn ':') := by
        rw [hskip]
        exact List.mem_cons_self
      have hgap : (t.splitOn ':')[i]? = some [] := by
        simpa using (List.mem_filter.mp hi).2
      intro w hw
      obtain ⟨k, hk⟩ := List.mem_iff_getElem?.mp hw
      rcases lt_trichotomy k i with hlt | rfl | hgt
      · refine printed_of_side hhigh w (List.mem_iff_getElem?.mpr ⟨k, ?_⟩)
        rw [List.getElem?_take_of_lt hlt, hk]
      · rw [hgap] at hk
        cases hk
        intro c hc
        cases hc
      · refine printed_of_side hlow w (List.mem_iff_getElem?.mpr ⟨k - (i + 1), ?_⟩)
        rw [List.getElem?_drop, show i + 1 + (k - (i + 1)) = k by omega, hk]

theorem printed_of_makeNetmask {version : Family} {t : Text} {p : ℕ}
    (h : makeNetmask version t = some p) : Printed t := by
  unfold makeNetmask at h
  cases hlength : prefixFromPrefixString version.width t with
  | some q =>
    unfold prefixFromPrefixString at hlength
    split_ifs at hlength with hnumber
    exact printed_of_isNumber (Bool.and_eq_true _ _ |>.mp hnumber).1
  | none =>
    rw [hlength] at h
    cases version with
    | ipv6 => cases h
    | ipv4 =>
      obtain ⟨mask, hmask, -⟩ := Option.bind_eq_some_iff.mp h
      exact printed_of_ipv4Int hmask

theorem printed_of_networkOf {version : Family} {read : Text → Option ℕ} {t : Text} {n : Network}
    (hread : ∀ u ∈ t.splitOn '/', ∀ ip, read u = some ip → Printed u)
    (h : networkOf version read t = some n) : Printed t := by
  refine printed_of_splitOn (s := '/') (by decide) fun w hw => ?_
  unfold networkOf at h
  match hparts : t.splitOn '/', h with
  | [u], h =>
    obtain ⟨ip, hip, -⟩ := Option.map_eq_some_iff.mp h
    rw [hparts] at hw hread
    rw [List.mem_singleton.mp hw]
    exact hread u List.mem_cons_self ip hip
  | [u, mask], h =>
    obtain ⟨ip, hip, hrest⟩ := Option.bind_eq_some_iff.mp h
    obtain ⟨p, hp, -⟩ := Option.bind_eq_some_iff.mp hrest
    rw [hparts] at hw hread
    obtain rfl | hw := List.mem_cons.mp hw
    · exact hread w List.mem_cons_self ip hip
    · rw [List.mem_singleton.mp hw]
      exact printed_of_makeNetmask hp
  | [], h => cases h
  | _ :: _ :: _ :: _, h => cases h

theorem printed_of_network {t : Text} {n : Network} (h : network t = some n) (hzone : '%' ∉ t) :
    Printed (strip t) := by
  have hscoped : ∀ u ∈ (strip t).splitOn '/', ∀ ip,
      (splitScopeId u >>= ipv6Int) = some ip → Printed u := by
    intro u hu ip hip
    have hplain : '%' ∉ u := fun hmem => hzone (Text.mem_of_mem_strip (Text.mem_of_mem_splitOn hu hmem))
    rw [splitScopeId, List.splitOn_eq_singleton hplain] at hip
    exact printed_of_ipv6Int hip
  unfold network ipNetwork at h
  cases hv4 : networkOf .ipv4 ipv4Int (strip t) with
  | some m => exact printed_of_networkOf (fun u _ ip hip => printed_of_ipv4Int hip) hv4
  | none =>
    rw [hv4] at h
    exact printed_of_networkOf hscoped h

theorem isWord_of_network {t : Text} {n : Network} (h : network t = some n) (hzone : '%' ∉ t) :
    IsWord (strip t) := by
  refine ⟨?_, fun c hc => ?_⟩
  swap
  · have hprinted := printed_of_network h hzone c hc
    exact Text.isSpace_eq_false (by omega)
  intro hnil
  have hempty : ipNetwork [] = none := by decide
  rw [network, hnil, hempty] at h
  cases h

theorem network_strip {t : Text} (h : IsWord (strip t)) : network (strip t) = network t := by
  rw [network, network, Text.strip_eq_self h.trimmed]

theorem network_twin {t u : Text} {n : Network} (ht : network t = some n) (hzone : '%' ∉ t)
    (h : lower u = lower t) : network u = network t := by
  have hprinted := printed_of_network ht hzone
  have hascii : ∀ c ∈ strip t, c.toNat < 128 := fun c hc => by
    have := hprinted c hc
    omega
  have hlower : lower (strip u) = lowerAscii (strip t) := by
    rw [← Text.strip_lower, h, Text.strip_lower, Text.lower_ascii hascii]
  have hsmall : ∀ d ∈ lower (strip u), d.toNat < 107 := by
    rw [hlower]
    intro d hd
    obtain ⟨c, hc, rfl⟩ := List.mem_map.mp hd
    have := hprinted c hc
    rw [Text.toNat_toLower]
    split_ifs <;> omega
  rw [Text.lower_ascii (Text.ascii_of_lower hsmall)] at hlower
  have hstrip := network_congr hlower
  rw [network_strip (isWord_of_network ht hzone)] at hstrip
  have hsame : network (strip u) = network u := by
    rw [network, network, Text.strip_strip]
  rw [← hsame, hstrip]

end Provisioner.Firewall
