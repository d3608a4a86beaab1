import Provisioner.Firewall.Reading
import Provisioner.Library.Jinja
import Provisioner.Library.Pattern
import Provisioner.Library.Placed

/-!
# New nodes on a host with the nftables table

On a host that already has the table, an attach run adds a rule for each address
of its nodes to a second file, which is loaded after the table.
-/

namespace Provisioner.Firewall.V2

open LineInFile Pattern

structure Name where
  text : Text
  word : ∀ c ∈ text, Text.isSpace c = false

structure Node where
  name : Name
  existingEnv : Bool
  primaryIp : Text
  publicIp : Text

structure Host where
  existingEnv : Bool
  firewallConfigFile : Bool
  firewallPeersFile : Option Text
deriving DecidableEq

inductive Problem where
  | notAttach
  | tableMissing
deriving DecidableEq

def firewallTable : Text := "cs_static"

def peersHeader : Text :=
  "#!/usr/sbin/nft -f
#
# Additive peer rules for table inet cs_static, loaded by
# cs-firewall.service immediately after /etc/nftables.d/cs-static.nft.
#
# Owned by roles/firewall (tasks/v2_append.yml), which only ever ADDS
# lines here -- it never rewrites or prunes the file, so anything you add
# by hand survives. cs-static.nft deletes and recreates the table on every
# apply, which is why these are re-applied after it rather than written
# into it.
"

set_option maxRecDepth 4000 in
theorem getLast_header : peersHeader.getLast? ≠ some '\r' := by
  -- the characters of the literal, not the bytes it is stored as
  have hchars : peersHeader = _ := String.toList_ofList
  rw [hchars]
  decide

/-- The addresses of the new nodes, each with its node. -/
def firewallV2NewNodes (nodes : List Node) : List (Name × Text) :=
  (nodes.filter fun item => !item.existingEnv).flatMap fun item =>
    (Jinja.unique Text.lower ([item.primaryIp, item.publicIp].filter fun a => !a.isEmpty)).map
      fun a => (item.name, a)

def addRule : Text := "add rule inet ".toList ++ firewallTable ++ " input ".toList

def saddr (item : Text) : Text := " saddr ".toList ++ item ++ " accept".toList

def family (item : Text) : Text := if item.contains ':' then "ip6" else "ip"

def comment (host : Name) : Text := " comment \"attached node ".toList ++ host.text ++ ['"']

def rule (host : Name) (item : Text) : Text := addRule ++ family item ++ saddr item ++ comment host

def regexp (item : Text) : List Atom :=
  [.text addRule, .many (fun c => c != '\n') 0, .text (saddr item)]

def matching (item line : Text) : Bool := here (regexp item) line

def appendRules (pairs : List (Name × Text)) (peers : Text) : Text :=
  run matching (pairs.map fun pair => (pair.2, rule pair.1 pair.2)) peers

def v2Append (nodes : List Node) (host : Host) : Except Problem Host :=
  if !host.existingEnv then .error .notAttach
  else if !host.firewallConfigFile then .error .tableMissing
  else
    -- the file is only made where there is none
    let peers := host.firewallPeersFile.getD peersHeader
    .ok { host with firewallPeersFile := some (appendRules (firewallV2NewNodes nodes) peers) }

/-! ## The rule of one address -/

def IsIp (item : Text) : Prop := (ipv4Int item).isSome = true ∨ (ipv6Int item).isSome = true

theorem printed_of_isIp {item : Text} (hitem : IsIp item) : Printed item := by
  rcases hitem with hsome | hsome
  · obtain ⟨ip, hip⟩ := Option.isSome_iff_exists.mp hsome
    exact printed_of_ipv4Int hip
  · obtain ⟨ip, hip⟩ := Option.isSome_iff_exists.mp hsome
    exact printed_of_ipv6Int hip

theorem rule_eq (host : Name) (item : Text) :
    rule host item = addRule ++ (family item ++ (saddr item ++ comment host)) := by
  simp only [rule, List.append_assoc]

theorem matching_rule (host : Name) (item ends : Text) :
    matching item (rule host item ++ ends) = true := by
  refine here_around.mpr ⟨family item, comment host ++ ends, ?_, ?_⟩
  · rw [family]
    split <;> decide
  · simp only [rule_eq, List.append_assoc]

theorem getLast_saddr (item : Text) : (saddr item).getLast? = some 't' := by
  have hlast : " accept".toList.getLast? = some 't' := by decide
  unfold saddr
  rw [List.getLast?_append, hlast, Option.some_or]

theorem matching_finish (item line : Text) :
    matching item (line ++ ['\n']) = matching item line := by
  rw [Bool.eq_iff_iff]
  constructor
  · intro hmatch
    obtain ⟨before, after, hbefore, heq⟩ := here_around.mp hmatch
    refine here_around.mpr ⟨before, after.dropLast, hbefore, ?_⟩
    have hafter : after ≠ [] := by
      rintro rfl
      have hlast := congrArg List.getLast? heq
      rw [List.getLast?_concat, List.append_nil, List.getLast?_append, List.getLast?_append,
        getLast_saddr, Option.some_or, Option.some_or] at hlast
      exact absurd hlast (by decide)
    rw [← List.dropLast_concat_getLast hafter] at heq
    simp only [← List.append_assoc] at heq ⊢
    exact (List.append_inj' heq rfl).1
  · intro hmatch
    obtain ⟨before, after, hbefore, rfl⟩ := here_around.mp hmatch
    refine here_around.mpr ⟨before, after ++ ['\n'], hbefore, ?_⟩
    simp only [List.append_assoc]

def wordsBefore (item : Text) : List Text :=
  ["add".toList, "rule".toList, "inet".toList, firewallTable, "input".toList] ++ [family item]

def wordsAfter (host : Name) : List Text :=
  ["accept".toList, "comment".toList, "\"attached".toList, "node".toList] ++
    [host.text ++ ['"', '\n']]

def parts (host : Name) (item : Text) : List Text :=
  wordsBefore item ++ "saddr".toList :: item :: wordsAfter host

theorem parts_eq (host : Name) (item : Text) :
    rule host item ++ ['\n'] = [' '].intercalate (parts host item) := by
  have hadd : addRule = "add".toList ++ ([' '] ++ ("rule".toList ++ ([' '] ++ ("inet".toList ++
      ([' '] ++ (firewallTable ++ ([' '] ++ ("input".toList ++ [' '])))))))) := by decide
  have hsaddr : " saddr ".toList = [' '] ++ ("saddr".toList ++ [' ']) := by decide
  have haccept : " accept".toList = [' '] ++ "accept".toList := by decide
  have hcomment : " comment \"attached node ".toList = [' '] ++ ("comment".toList ++ ([' '] ++
      ("\"attached".toList ++ ([' '] ++ ("node".toList ++ [' ']))))) := by decide
  unfold rule saddr comment
  rw [hadd, hsaddr, haccept, hcomment]
  simp only [parts, wordsBefore, wordsAfter, List.cons_append, List.nil_append, List.intercalate_cons_cons,
    List.intercalate_singleton, List.append_assoc]

theorem word_family (item : Text) : ' ' ∉ family item := by
  rw [family]
  split <;> decide

theorem not_mem_of_isIp {item : Text} (hitem : IsIp item) : ' ' ∉ item := by
  intro hmem
  exact absurd (printed_of_isIp hitem _ hmem) (by decide)

theorem splitOn_rule (host : Name) {item : Text} (hitem : IsIp item) :
    (rule host item ++ ['\n']).splitOn ' ' = parts host item := by
  have hhost : ' ' ∉ host.text ++ ['"', '\n'] := by
    intro hmem
    rcases List.mem_append.mp hmem with hmem | hmem
    · exact absurd (host.word _ hmem) (by decide)
    · exact absurd hmem (by decide)
  have hbefore : ∀ w ∈ ["add".toList, "rule".toList, "inet".toList, firewallTable,
      "input".toList], ' ' ∉ w := by decide
  have hafter : ∀ w ∈ ["accept".toList, "comment".toList, "\"attached".toList, "node".toList],
      ' ' ∉ w := by decide
  have hsaddr : ' ' ∉ "saddr".toList := by decide
  rw [parts_eq]
  refine List.splitOn_intercalate ' ' (fun w hw => ?_) ?_
  · simp only [parts, wordsBefore, wordsAfter, List.mem_append, List.mem_cons (a := w) (b := item),
      List.mem_cons (b := "saddr".toList), List.mem_singleton] at hw
    rcases hw with (hw | rfl) | rfl | rfl | hw | rfl
    · exact hbefore w hw
    · exact word_family item
    · exact hsaddr
    · exact not_mem_of_isIp hitem
    · exact hafter w hw
    · exact hhost
  · exact List.append_ne_nil_of_right_ne_nil _ (List.cons_ne_nil _ _)

theorem saddr_before (item : Text) : "saddr".toList ∉ wordsBefore item := by
  intro hmem
  rcases List.mem_append.mp hmem with hmem | hmem
  · revert hmem
    decide
  · rw [List.mem_singleton, family] at hmem
    revert hmem
    split <;> decide

theorem saddr_after (host : Name) {item : Text} (hitem : IsIp item) :
    "saddr".toList ∉ item :: wordsAfter host := by
  intro hmem
  rcases List.mem_cons.mp hmem with rfl | hmem
  · revert hitem
    unfold IsIp
    decide
  rcases List.mem_append.mp hmem with hmem | hmem
  · revert hmem
    decide
  · have hquote : '"' ∈ "saddr".toList := by
      rw [List.mem_singleton.mp hmem]
      exact List.mem_append_right _ List.mem_cons_self
    revert hquote
    decide

theorem saddr_eq (item : Text) :
    saddr item = ' ' :: ("saddr".toList ++ ' ' :: (item ++ ' ' :: "accept".toList)) := by
  have hsaddr : " saddr ".toList = ' ' :: ("saddr".toList ++ [' ']) := by decide
  have haccept : " accept".toList = ' ' :: "accept".toList := by decide
  unfold saddr
  rw [hsaddr, haccept]
  simp only [List.cons_append, List.append_assoc, List.nil_append]

theorem matching_inj (host : Name) {item item' : Text} (hitem : IsIp item) (hitem' : IsIp item')
    (hmatch : matching item' (rule host item ++ ['\n']) = true) : item' = item := by
  obtain ⟨before, after, -, heq⟩ := here_around.mp hmatch
  have hcut : addRule ++ (before ++ (saddr item' ++ after)) =
      (addRule ++ before) ++ ' ' :: ("saddr".toList ++ ' ' :: (item' ++ ' ' ::
        ("accept".toList ++ after))) := by
    rw [saddr_eq]
    simp only [List.cons_append, List.append_assoc]
  have hsaddr : ' ' ∉ "saddr".toList := by decide
  have hparts := splitOn_rule host hitem
  rw [heq, hcut, List.splitOn_append_cons_self, List.splitOn_append_cons_self_of_not_mem hsaddr,
    List.splitOn_append_cons_self_of_not_mem (not_mem_of_isIp hitem')] at hparts
  have hsame := (List.append_cons_inj_of_notMem (saddr_before item)
    (saddr_after host hitem)).mp hparts.symm
  exact (List.cons.inj hsame.2.2).1.symm

theorem rule_single (host : Name) {item : Text} (hitem : IsIp item) : '\n' ∉ rule host item := by
  have hitem' : '\n' ∉ item := fun hmem => absurd (printed_of_isIp hitem _ hmem) (by decide)
  have hhost : '\n' ∉ host.text := fun hmem => absurd (host.word _ hmem) (by decide)
  have hfamily : '\n' ∉ family item := by
    rw [family]
    split <;> decide
  have hadd : '\n' ∉ addRule := by decide
  have hsaddr : '\n' ∉ " saddr ".toList := by decide
  have haccept : '\n' ∉ " accept".toList := by decide
  have hcomment : '\n' ∉ " comment \"attached node ".toList := by decide
  have hquote : '\n' ∉ ['"'] := by decide
  unfold rule saddr comment
  simp only [List.mem_append, hitem', hhost, hfamily, hadd, hsaddr, haccept, hcomment, hquote,
    or_self, not_false_eq_true]

theorem keyed {pairs : List (Name × Text)} (haddresses : ∀ pair ∈ pairs, IsIp pair.2) :
    Keyed matching (pairs.map fun pair => (pair.2, rule pair.1 pair.2)) := by
  refine ⟨?_, ?_, ?_, ?_, ?_⟩
  all_goals refine List.forall_mem_map.mpr fun pair hpair => ?_
  · exact rule_single pair.1 (haddresses pair hpair)
  · exact matching_rule pair.1 pair.2 ['\n']
  · intro line hline
    obtain ⟨ends, -, hsplit⟩ := rstripEnd_append line
    rw [hsplit, hline]
    exact matching_rule pair.1 pair.2 ends
  · refine List.forall_mem_map.mpr fun pair' hpair' hmatch => ?_
    exact matching_inj pair.1 (haddresses pair hpair) (haddresses pair' hpair') hmatch
  · exact matching_finish pair.2

/-! ## The file -/

/-- A line of the file afterwards: the same, or the rule of an address whose
expression matched it. -/
def Renewed (pairs : List (Name × Text)) (line line' : Text) : Prop :=
  line' = line ∨ ∃ pair ∈ pairs, matching pair.2 line = true ∧ line' = rule pair.1 pair.2

/-- What the task makes of the file. An address is written as one of its nodes
has it, in some case. -/
structure Appended (nodes : List Node) (peers peers' : Text) : Prop where
  kept : Grown (Renewed (firewallV2NewNodes nodes))
    (fun line => ∃ pair ∈ firewallV2NewNodes nodes, line = rule pair.1 pair.2)
    (lines peers) (lines peers')
  accepted : ∀ item ∈ nodes, item.existingEnv = false →
    ∀ a ∈ [item.primaryIp, item.publicIp], a ≠ [] →
      ∃ pair ∈ firewallV2NewNodes nodes, Text.lower pair.2 = Text.lower a ∧
        rule pair.1 pair.2 ∈ lines peers'

theorem exists_pair {nodes : List Node} {item : Node} (hitem : item ∈ nodes)
    (hnew : item.existingEnv = false) {a : Text} (ha : a ∈ [item.primaryIp, item.publicIp])
    (hne : a ≠ []) : ∃ pair ∈ firewallV2NewNodes nodes, Text.lower pair.2 = Text.lower a := by
  have hfilled : a ∈ [item.primaryIp, item.publicIp].filter fun a => !a.isEmpty :=
    List.mem_filter.mpr ⟨ha, by simpa using hne⟩
  obtain ⟨b, hb, hlower⟩ : ∃ b ∈ Jinja.unique Text.lower
      ([item.primaryIp, item.publicIp].filter fun a => !a.isEmpty), Text.lower b = Text.lower a :=
    Jinja.exists_mem_unique hfilled
  refine ⟨(item.name, b), List.mem_flatMap.mpr ⟨item, ?_, List.mem_map.mpr ⟨b, hb, rfl⟩⟩, hlower⟩
  exact List.mem_filter.mpr ⟨hitem, by rw [hnew]; rfl⟩

theorem appended {nodes : List Node}
    (haddresses : ∀ pair ∈ firewallV2NewNodes nodes, IsIp pair.2) {peers : Text}
    (hreturn : peers.getLast? ≠ some '\r') :
    Appended nodes peers (appendRules (firewallV2NewNodes nodes) peers) := by
  have hkeyed := keyed haddresses
  refine ⟨(run_keeps hkeyed hreturn).imp ?_ ?_, ?_⟩
  · rintro line line' (hsame | ⟨keyedItem, hmem, hmatch, rfl⟩)
    · exact .inl hsame
    · obtain ⟨pair, hpair, rfl⟩ := List.mem_map.mp hmem
      exact .inr ⟨pair, hpair, hmatch, rfl⟩
  · rintro line ⟨keyedItem, hmem, rfl⟩
    obtain ⟨pair, hpair, rfl⟩ := List.mem_map.mp hmem
    exact ⟨pair, hpair, rfl⟩
  · intro item hitem hnew a ha hne
    obtain ⟨pair, hpair, hlower⟩ := exists_pair hitem hnew ha hne
    obtain ⟨held, hheld, hkey, hmem⟩ :=
      exists_mem_run hkeyed hreturn (List.mem_map.mpr ⟨pair, hpair, rfl⟩)
    obtain ⟨pair', hpair', rfl⟩ := List.mem_map.mp hheld
    refine ⟨pair', hpair', ?_, hmem⟩
    rw [show pair'.2 = pair.2 from hkey, hlower]

theorem v2Append_keeps {nodes : List Node} {host host' : Host}
    (hreturn : ∀ peers ∈ host.firewallPeersFile, peers.getLast? ≠ some '\r')
    (haddresses : ∀ pair ∈ firewallV2NewNodes nodes, IsIp pair.2)
    (hrun : v2Append nodes host = .ok host') :
    (∃ peers', host'.firewallPeersFile = some peers' ∧
      Appended nodes (host.firewallPeersFile.getD peersHeader) peers') ∧
      v2Append nodes host' = .ok host' := by
  have hpeers : (host.firewallPeersFile.getD peersHeader).getLast? ≠ some '\r' := by
    cases hfile : host.firewallPeersFile with
    | none =>
      rw [Option.getD_none]
      exact getLast_header
    | some peers => exact hreturn peers hfile
  unfold v2Append at hrun ⊢
  split at hrun
  · cases hrun
  · rename_i hattach
    split at hrun
    · cases hrun
    · rename_i htable
      cases hrun
      refine ⟨⟨_, rfl, appended haddresses hpeers⟩, ?_⟩
      rw [if_neg hattach, if_neg htable]
      dsimp only [Option.getD_some]
      rw [appendRules, appendRules, run_run (keyed haddresses) hpeers]

def node1 : Node := ⟨⟨"node1".toList, by decide⟩, false, "10.0.0.1", "fd00::1"⟩

/-! ## When every line stays -/

def peersFile (host : Host) : Text := host.firewallPeersFile.getD peersHeader

/-- Nothing is lost of the file, every new address is accepted, and a second run
changes nothing. -/
structure Kept (nodes : List Node) (host host' : Host) : Prop where
  kept : (lines (peersFile host)).Sublist (lines (peersFile host'))
  accepted : ∀ item ∈ nodes, item.existingEnv = false →
    ∀ a ∈ [item.primaryIp, item.publicIp], a ≠ [] →
      ∃ pair ∈ firewallV2NewNodes nodes, Text.lower pair.2 = Text.lower a ∧
        rule pair.1 pair.2 ∈ lines (peersFile host')
  again : v2Append nodes host' = .ok host'

/-- The last line that the expression of a new address matches is the rule of
that address, with the last node that has it; behind a return there is such a
line for every address. -/
structure RulesInPlace (nodes : List Node) (peers : Text) : Prop where
  placed : ∀ before node item after, firewallV2NewNodes nodes = before ++ (node, item) :: after →
    (∀ pair ∈ after, pair.2 ≠ item) →
      ∀ line, LastIs (matching item) line (lines peers) → line = rule node item
  matched : peers.getLast? = some '\r' →
    ∀ pair ∈ firewallV2NewNodes nodes, ∃ line ∈ lines peers, matching pair.2 line = true

theorem noReturn (pairs : List (Name × Text)) :
    NoReturn (pairs.map fun pair => (pair.2, rule pair.1 pair.2)) := by
  refine List.forall_mem_map.mpr fun pair _ => ?_
  have hcomment : (comment pair.1).getLast? = some '"' := List.getLast?_concat
  have hlast : (rule pair.1 pair.2).getLast? = some '"' := by
    unfold rule
    rw [List.getLast?_append, hcomment, Option.some_or]
  refine ⟨fun hnil => ?_, fun hreturn => ?_⟩
  · change rule pair.1 pair.2 = [] at hnil
    rw [hnil] at hlast
    cases hlast
  · have hsame : '"' = '\r' := Option.some.inj (hlast.symm.trans hreturn)
    revert hsame
    decide

theorem isLast_rules {pairs : List (Name × Text)} {item : Text × Text} :
    IsLast (pairs.map fun pair => (pair.2, rule pair.1 pair.2)) item ↔
      ∃ before node a after, pairs = before ++ (node, a) :: after ∧
        (∀ pair ∈ after, pair.2 ≠ a) ∧ item = (a, rule node a) := by
  constructor
  · rintro ⟨before, after, hsplit, hafter⟩
    obtain ⟨before, rest, rfl, -, hrest⟩ := List.map_eq_append_iff.mp hsplit
    obtain ⟨⟨node, a⟩, after, rfl, rfl, rfl⟩ := List.map_eq_cons_iff.mp hrest
    refine ⟨before, node, a, after, rfl, fun pair hpair => ?_, rfl⟩
    exact hafter _ (List.mem_map_of_mem hpair)
  · rintro ⟨before, node, a, after, rfl, hafter, rfl⟩
    refine ⟨before.map _, after.map _, List.map_append, List.forall_mem_map.mpr hafter⟩

theorem rulesInPlace_iff {nodes : List Node} {peers : Text} : RulesInPlace nodes peers ↔
    Steady matching ((firewallV2NewNodes nodes).map fun pair => (pair.2, rule pair.1 pair.2))
      peers := by
  constructor
  · rintro ⟨hplaced, hmatched⟩
    refine ⟨fun item hlast line hline => ?_, fun hreturn => ?_⟩
    · obtain ⟨before, node, a, after, hpairs, hafter, rfl⟩ := isLast_rules.mp hlast
      exact hplaced before node a after hpairs hafter line hline
    · exact List.forall_mem_map.mpr (hmatched hreturn)
  · rintro ⟨hplaced, hmatched⟩
    refine ⟨fun before node a after hpairs hafter line hline => ?_, fun hreturn => ?_⟩
    · exact hplaced _ (isLast_rules.mpr ⟨before, node, a, after, hpairs, hafter, rfl⟩) line hline
    · exact fun pair hpair => hmatched hreturn _ (List.mem_map_of_mem hpair)

/-- Every line of the file stays exactly where no expression of a new address
matches a line that is not the rule of that address. -/
theorem v2_append_kept_iff {nodes : List Node} {host host' : Host}
    (haddresses : ∀ pair ∈ firewallV2NewNodes nodes, IsIp pair.2)
    (hrun : v2Append nodes host = .ok host') :
    Kept nodes host host' ↔ RulesInPlace nodes (peersFile host) := by
  have hkeyed := keyed haddresses
  have hno := noReturn (firewallV2NewNodes nodes)
  have hpeers : peersFile host' =
      appendRules (firewallV2NewNodes nodes) (peersFile host) ∧
      (peersFile host' = appendRules (firewallV2NewNodes nodes) (peersFile host') →
        v2Append nodes host' = .ok host') := by
    unfold v2Append at hrun ⊢
    split at hrun
    · cases hrun
    · rename_i hattach
      split at hrun
      · cases hrun
      · rename_i htable
        cases hrun
        refine ⟨rfl, fun hsame => ?_⟩
        rw [if_neg hattach, if_neg htable]
        exact congrArg (fun file => Except.ok { host with firewallPeersFile := some file })
          hsame.symm
  obtain ⟨hfile, hagain⟩ := hpeers
  rw [rulesInPlace_iff]
  constructor
  · intro hkept
    have hlines := hkept.kept
    rw [hfile] at hlines
    exact (sublist_run_iff hkeyed hno).mp hlines
  · intro hsteady
    refine ⟨?_, ?_, hagain ?_⟩
    · rw [hfile]
      exact (sublist_run_iff hkeyed hno).mpr hsteady
    · intro item hitem hnew a ha hne
      obtain ⟨pair, hpair, hlower⟩ := exists_pair hitem hnew ha hne
      obtain ⟨last, hlast, hkey⟩ := exists_isLast (List.mem_map.mpr ⟨pair, hpair, rfl⟩)
      have hmem := mem_run_steady hkeyed hno hsteady hlast
      obtain ⟨held, hheld, rfl⟩ := List.mem_map.mp hlast.mem
      refine ⟨held, hheld, ?_, by rw [hfile]; exact hmem⟩
      rw [show held.2 = pair.2 from hkey, hlower]
    · rw [hfile]
      exact (run_run_steady hkeyed hno hsteady).symm

theorem v2_append_kept_peers :
    RulesInPlace [node1] ("add rule inet cs_static input ip saddr 10.0.0.10 accept\n" ++
      "add rule inet cs_static input ip saddr 10.0.0.1 accept comment \"attached node node1\"").toList := by
  have hkept := @v2_append_kept_iff [node1] ⟨true, true, some
    ("add rule inet cs_static input ip saddr 10.0.0.10 accept\n" ++
      "add rule inet cs_static input ip saddr 10.0.0.1 accept comment \"attached node node1\"").toList⟩ _
    (by unfold IsIp; decide) rfl
  refine hkept.mp ⟨?_, ?_, ?_⟩
  · decide +kernel
  · decide +kernel
  · decide +kernel

/-- A rule written by hand for one port of a new node is replaced. -/
theorem by_hand_replaced :
    let host : Host := ⟨true, true, some
      "add rule inet cs_static input tcp dport 22 ip saddr 10.0.0.1 accept\n".toList⟩
    ∃ host', v2Append [node1] host = .ok host' ∧
      "add rule inet cs_static input tcp dport 22 ip saddr 10.0.0.1 accept".toList ∈
        lines (peersFile host) ∧
      "add rule inet cs_static input tcp dport 22 ip saddr 10.0.0.1 accept".toList ∉
        lines (peersFile host') := by
  refine ⟨_, rfl, ?_, ?_⟩
  · decide
  · decide

end Provisioner.Firewall.V2
