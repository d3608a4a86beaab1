import Provisioner.Firewall.Reading
import Provisioner.Library.Jinja
import Provisioner.Library.LineInFile
import Provisioner.Library.Pattern

/-!
# New nodes on a host with an iptables script

An attach run lets the addresses of its nodes into a host that an older
provisioner built: it adds a rule for each to the script that sets up iptables,
and to the live chain.
-/

namespace Provisioner.Firewall.V1

open LineInFile Pattern

structure Node where
  existingEnv : Bool
  primaryIp : Text
  publicIp : Text

/-- What the tasks read and write of a host. `input` are the sources that the
live chain accepts in such a rule. -/
structure Host where
  existingEnv : Bool
  firewallV1Script : Option Text
  input : List Text
deriving DecidableEq

inductive Problem where
  | notAttach
  | scriptMissing
deriving DecidableEq

def firewallIptablesBin : Text := "iptables"

def firewallV1Addresses (nodes : List Node) : List Text :=
  (nodes.filter fun item => !item.existingEnv).flatMap fun item =>
    [item.primaryIp, item.publicIp].filter fun a => !a.isEmpty && !a.contains ':'

def rule (item : Text) : Text :=
  firewallIptablesBin ++ " -A INPUT -p all -s ".toList ++ item ++ " -j ACCEPT".toList

/-- `\s` in an expression over bytes. -/
def isBlank (c : Char) : Bool := [' ', '\t', '\n', '\r', '\x0b', '\x0c'].contains c

def regexp (item : Text) : List Atom :=
  [.many isBlank 0, .text firewallIptablesBin, .many isBlank 1, .text "-A", .many isBlank 1,
    .text "INPUT", .many isBlank 1, .text "-p", .many isBlank 1, .text "all", .many isBlank 1,
    .text "-s", .many isBlank 1, .text item, .many isBlank 1, .text "-j", .many isBlank 1,
    .text "ACCEPT", .many isBlank 0, .finish]

def matching (item line : Text) : Bool := here (regexp item) line

/-- `unique` compares texts without their case. -/
def items (addresses : List Text) : List Text := Jinja.unique Text.lower addresses

def appendRules (addresses : List Text) (script : Text) : Text :=
  run matching ((items addresses).map fun item => (item, rule item)) script

/-- A rule that `iptables -C` does not find is added with `-A`. -/
def appendLive (addresses input : List Text) : List Text :=
  input ++ (items addresses).filter fun item => !input.contains item

def v1Append (nodes : List Node) (host : Host) : Except Problem Host :=
  if host.existingEnv then
    match host.firewallV1Script with
    | none => .error .scriptMissing
    | some script =>
      let addresses := firewallV1Addresses nodes
      .ok { host with
        firewallV1Script := some (appendRules addresses script)
        input := appendLive addresses host.input }
  else .error .notAttach

/-! ## The rule of one address -/

def tokens (item : Text) : List Text :=
  [firewallIptablesBin, "-A", "INPUT", "-p", "all", "-s", item, "-j", "ACCEPT"]

theorem regexp_eq (item : Text) : regexp item = spaced isBlank (tokens item) := rfl

def IsIpv4 (item : Text) : Prop := (ipv4Int item).isSome = true

theorem isBlank_printed {c : Char} (hc : 33 ≤ c.toNat ∧ c.toNat ≤ 126) : isBlank c = false := by
  by_contra hblank
  rw [Bool.not_eq_false, isBlank, List.contains_iff_mem] at hblank
  simp only [List.mem_cons, List.not_mem_nil, or_false] at hblank
  rcases hblank with rfl | rfl | rfl | rfl | rfl | rfl
  all_goals exact absurd hc (by decide)

theorem word_of_ipv4 {item : Text} (hitem : IsIpv4 item) : Word isBlank item := by
  obtain ⟨ip, hip⟩ := Option.isSome_iff_exists.mp hitem
  refine ⟨?_, fun c hc => ?_⟩
  · rintro rfl
    cases hip
  · have hprinted := printed_of_ipv4Int hip c hc
    exact isBlank_printed (by omega)

theorem word_of_tokens {item : Text} (hitem : IsIpv4 item) : ∀ w ∈ tokens item, Word isBlank w := by
  have hfixed : ∀ w ∈ ([firewallIptablesBin, "-A", "INPUT", "-p", "all", "-s", "-j", "ACCEPT"] :
      List Text), Word isBlank w := by
    unfold Word
    decide
  intro w hw
  by_cases hsame : w = item
  · rw [hsame]
    exact word_of_ipv4 hitem
  · refine hfixed w ?_
    simp only [tokens, List.mem_cons] at hw ⊢
    tauto

/-- The expression matches the rule of its address, however it is spaced. -/
theorem matching_iff {item : Text} (hitem : IsIpv4 item) {line : Text} :
    matching item line = true ↔ words isBlank line = tokens item := by
  rw [matching, regexp_eq]
  exact here_spaced (List.cons_ne_nil _ _) (word_of_tokens hitem) rfl

theorem rule_eq (item : Text) : rule item = [' '].intercalate (tokens item) := by
  rw [rule, List.append_assoc, List.append_assoc]
  rfl

theorem words_rule {item : Text} (hitem : IsIpv4 item) : words isBlank (rule item) = tokens item := by
  rw [rule_eq]
  exact words_join (word_of_tokens hitem) rfl

theorem rule_single {item : Text} (hitem : IsIpv4 item) : '\n' ∉ rule item := by
  intro hmem
  rw [rule_eq] at hmem
  rcases Text.mem_of_mem_join hmem with hsep | ⟨w, hw, hmem⟩
  · exact absurd hsep (by decide)
  · exact absurd ((word_of_tokens hitem w hw).2 _ hmem) (by decide)

theorem tokens_inj {item item' : Text} (heq : tokens item = tokens item') : item = item' := by
  have hsixth : (tokens item)[6]? = (tokens item')[6]? := congrArg (fun l => l[6]?) heq
  exact Option.some.inj hsixth

/-- The address of a rule is not matched as a part of another one. -/
theorem keyed {addresses : List Text} (haddresses : ∀ item ∈ addresses, IsIpv4 item) :
    Keyed matching (addresses.map fun item => (item, rule item)) := by
  refine ⟨?_, ?_, ?_, ?_, ?_⟩
  all_goals refine List.forall_mem_map.mpr fun item hitem => ?_
  · exact rule_single (haddresses item hitem)
  · rw [matching_iff (haddresses item hitem), row, words_append_blanks _ (by decide)]
    exact words_rule (haddresses item hitem)
  · intro line hline
    obtain ⟨ends, hends, hsplit⟩ := rstripEnd_append line
    have hblank : ∀ c ∈ ends, isBlank c = true := by
      intro c hc
      rcases hends c hc with rfl | rfl <;> rfl
    rw [hsplit, hline, matching_iff (haddresses item hitem), words_append_blanks _ hblank]
    exact words_rule (haddresses item hitem)
  · refine List.forall_mem_map.mpr fun item' hitem' hmatch => ?_
    rw [matching_iff (haddresses item' hitem'), row, words_append_blanks _ (by decide),
      words_rule (haddresses item hitem)] at hmatch
    exact (tokens_inj hmatch).symm
  · intro line
    rw [Bool.eq_iff_iff, matching_iff (haddresses item hitem), matching_iff (haddresses item hitem),
      words_append_blanks _ (by decide)]

theorem lower_ipv4 {item : Text} (hitem : IsIpv4 item) : Text.lower item = item := by
  obtain ⟨ip, hip⟩ := Option.isSome_iff_exists.mp hitem
  refine Text.lower_eq_self fun c hc => ?_
  rcases Text.mem_splitOn '.' hc with rfl | ⟨part, hpart, hc⟩
  · decide
  · have hnumber := isNumber_of_ipv4Int hip part hpart
    rw [Text.isNumber, Bool.and_eq_true, List.all_eq_true] at hnumber
    have hdigit := isDigit_iff.mp (hnumber.2 c hc)
    omega

theorem mem_items {addresses : List Text} (haddresses : ∀ item ∈ addresses, IsIpv4 item)
    {item : Text} : item ∈ items addresses ↔ item ∈ addresses := by
  refine Jinja.mem_unique_of_inj fun a ha b hb hlower => ?_
  rwa [lower_ipv4 (haddresses a ha), lower_ipv4 (haddresses b hb)] at hlower

/-! ## The script -/

/-- A line of the script afterwards: the same, or the rule of an address that
it was, with other blanks between the words. -/
def Respaced (addresses : List Text) (line line' : Text) : Prop :=
  line' = line ∨ ∃ item ∈ addresses, words isBlank line = words isBlank (rule item) ∧
    line' = rule item

structure Appended (addresses : List Text) (script script' : Text) : Prop where
  kept : Grown (Respaced addresses) (fun line => ∃ item ∈ addresses, line = rule item)
    (lines script) (lines script')
  accepted : ∀ item ∈ addresses, rule item ∈ lines script'
  again : appendRules addresses script' = script'

theorem appended {addresses : List Text} (haddresses : ∀ item ∈ addresses, IsIpv4 item)
    {script : Text} (hreturn : script.getLast? ≠ some '\r') :
    Appended addresses script (appendRules addresses script) := by
  have hitems : ∀ item ∈ items addresses, IsIpv4 item := fun item hitem =>
    haddresses item ((mem_items haddresses).mp hitem)
  have hkeyed := keyed hitems
  refine ⟨?_, ?_, ?_⟩
  · have hkeeps := run_keeps hkeyed hreturn
    refine hkeeps.imp ?_ ?_
    · rintro line line' (hsame | ⟨pair, hpair, hmatch, rfl⟩)
      · exact .inl hsame
      · obtain ⟨item, hitem, rfl⟩ := List.mem_map.mp hpair
        refine .inr ⟨item, (mem_items haddresses).mp hitem, ?_, rfl⟩
        rw [words_rule (hitems item hitem)]
        exact (matching_iff (hitems item hitem)).mp hmatch
    · rintro line ⟨pair, hpair, rfl⟩
      obtain ⟨item, hitem, rfl⟩ := List.mem_map.mp hpair
      exact ⟨item, (mem_items haddresses).mp hitem, rfl⟩
  · intro item hitem
    have hpair : (item, rule item) ∈ (items addresses).map fun item => (item, rule item) :=
      List.mem_map.mpr ⟨item, (mem_items haddresses).mpr hitem, rfl⟩
    obtain ⟨held, hheld, hkey, hmem⟩ := exists_mem_run hkeyed hreturn hpair
    obtain ⟨item', -, rfl⟩ := List.mem_map.mp hheld
    rwa [show item' = item from hkey] at hmem
  · exact run_run hkeyed hreturn

theorem appendLive_again (addresses input : List Text) :
    appendLive addresses (appendLive addresses input) = appendLive addresses input := by
  have hnone : (items addresses).filter
      (fun item => !(appendLive addresses input).contains item) = [] := by
    refine List.filter_eq_nil_iff.mpr fun item hitem => ?_
    rw [Bool.not_eq_true, Bool.not_eq_false', List.contains_iff_mem, appendLive, List.mem_append]
    by_cases hlive : item ∈ input
    · exact .inl hlive
    · exact .inr (List.mem_filter.mpr ⟨hitem, by simpa using hlive⟩)
  rw [appendLive, hnone, List.append_nil]

/-- Where the script does not end with a return, its lines stay, every address
has its rule, and the tasks change nothing a second time. -/
theorem v1_append_keeps {nodes : List Node} {host host' : Host} {script : Text}
    (hscript : host.firewallV1Script = some script) (hreturn : script.getLast? ≠ some '\r')
    (haddresses : ∀ item ∈ firewallV1Addresses nodes, IsIpv4 item)
    (hrun : v1Append nodes host = .ok host') :
    (∃ script', host'.firewallV1Script = some script' ∧
      Appended (firewallV1Addresses nodes) script script') ∧
      v1Append nodes host' = .ok host' := by
  have happended := appended haddresses hreturn
  unfold v1Append at hrun ⊢
  split at hrun
  · rename_i hattach
    rw [hscript] at hrun
    cases hrun
    refine ⟨⟨_, rfl, happended⟩, ?_⟩
    rw [if_pos hattach]
    dsimp only
    rw [happended.again, appendLive_again]
  · cases hrun

theorem v1_append_keeps_script :
    ∃ script', Appended ["10.0.0.1".toList] "iptables -A INPUT -p all -s 10.0.0.10 -j ACCEPT" script' := by
  have hkeeps := @v1_append_keeps [⟨false, "10.0.0.1", "fd00::1"⟩]
    ⟨true, some "iptables -A INPUT -p all -s 10.0.0.10 -j ACCEPT".toList, []⟩ _ _ rfl (by decide)
    (by unfold IsIpv4; decide) rfl
  obtain ⟨script', -, happended⟩ := hkeeps.1
  exact ⟨script', happended⟩

/-- The module puts no line end behind a return, so the rule is written into the
last line. -/
theorem return_lost : ∃ nodes host host' script script',
    host.firewallV1Script = some script ∧
    (∀ item ∈ firewallV1Addresses nodes, IsIpv4 item) ∧
    v1Append nodes host = .ok host' ∧ host'.firewallV1Script = some script' ∧
    ¬ Grown (Respaced (firewallV1Addresses nodes)) (fun _ => True) (lines script) (lines script') := by
  refine ⟨[⟨false, "10.0.0.1", []⟩], ⟨true, some "x\r".toList, []⟩,
    ⟨true, some "x\riptables -A INPUT -p all -s 10.0.0.1 -j ACCEPT\n".toList, ["10.0.0.1"]⟩,
    "x\r", "x\riptables -A INPUT -p all -s 10.0.0.1 -j ACCEPT\n", rfl, by unfold IsIpv4; decide,
    by decide, rfl, ?_⟩
  intro hgrown
  have hbefore : lines "x\r".toList = ["x\r".toList] := by decide
  have hafter : lines "x\riptables -A INPUT -p all -s 10.0.0.1 -j ACCEPT\n".toList =
      ["x\riptables -A INPUT -p all -s 10.0.0.1 -j ACCEPT".toList] := by decide
  rw [hbefore, hafter] at hgrown
  cases hgrown with
  | cons hline _ =>
    rcases hline with hsame | ⟨item, hitem, hwords, -⟩
    · exact absurd hsame (by decide)
    · rw [List.mem_singleton.mp hitem] at hwords
      exact absurd hwords (by decide)

end Provisioner.Firewall.V1
