import Mathlib.Data.List.DropRight
import Provisioner.Tailscale.Compare

/-!
# What an empty list of problems says

The comparison vouches for the flags as it reads them, and `tailscale` applies
them as Go reads them. Where the two readings mean the same, nothing is missed.
-/

namespace Provisioner.Tailscale

open Text (rstripChar sorted)

/-! ## What is asked of an empty list -/

def LoggedIn (prefs : Prefs) : Prop :=
  prefs.LoggedOut.getD false = false ∧ prefs.WantRunning.getD false = true

def ControlAgrees (url : Text) : Option Text → Prop
  | none => url ∈ tsDefaultControl
  | some control => rstripChar '/' url = rstripChar '/' control

/-- Every preference a flag covers is what the flags mean. -/
structure Agrees (prefs : Prefs) (tags : List Text) (b : Text → Option Bool)
    (t : Text → Option Text) : Prop where
  bools : ∀ row ∈ tsBoolFlags, (row.key prefs).getD row.default = (b row.flag).getD row.default
  strings : ∀ row ∈ tsStringFlags, (row.key prefs).getD [] = (t row.flag).getD []
  control : ControlAgrees (prefs.ControlURL.getD []) (t "login-server")
  routes : sorted (prefs.AdvertiseRoutes.getD []) = wantRoutes b t
  snat : prefs.NoSNAT.getD false = !wantSnat b
  netfilter : tsNetfilter (netfilterMode t) = some (prefs.NetfilterMode.getD 2)
  tags : sorted (prefs.AdvertiseTags.getD []) = wantTags t tags
  exit_node : t "exit-node" = none ∧ prefs.ExitNodeID.getD [] = [] ∧ prefs.ExitNodeIP.getD [] = []

/-- Every token is a flag of the tables with its value, and the node has what
the flags mean, in the reading of Go. -/
def GoAgrees (prefs : Prefs) (upArgs : Text) (tags : List Text) : Prop :=
  ∃ tokens items, shlexSplit upArgs = some tokens ∧ goParse tokens = some items ∧
    Agrees prefs tags (goBool items) (goText items)

def Complete (prefsStdout : Option Prefs) (upArgs : Text) (tags : List Text) : Prop :=
  tailscalePrefsProblems prefsStdout upArgs tags = some [] →
    ∃ prefs, prefsStdout = some prefs ∧ LoggedIn prefs ∧ GoAgrees prefs upArgs tags

/-! ## When the two readings agree -/

structure Verifiable (p : Parsed) : Prop where
  no_word : argumentProblems p.positional = []
  known : ∀ name ∈ Dict.keys p.flags, name ∈ table
  no_exit_node : p.text "exit-node" = none
  mode : (tsNetfilter (netfilterMode p.text)).isSome = true

structure SameMeaning (b b' : Text → Option Bool) (t t' : Text → Option Text) : Prop where
  bools : ∀ row ∈ tsBoolFlags, (b row.flag).getD row.default = (b' row.flag).getD row.default
  strings : ∀ row ∈ tsStringFlags, (t row.flag).getD [] = (t' row.flag).getD []
  control : (t "login-server").map (rstripChar '/') = ( t' "login-server").map (rstripChar '/')
  routes : wantRoutes b t = wantRoutes b' t'
  snat : wantSnat b = wantSnat b'
  netfilter : tsNetfilter (netfilterMode t) = tsNetfilter (netfilterMode t')
  tags : ∀ tags, wantTags t tags = wantTags t' tags
  exit_node : t "exit-node" = none ∧ t' "exit-node" = none

def Refused (upArgs : Text) : Prop := ∀ p, tsParseArgs upArgs = some p → ¬ Verifiable p

def SameReading (upArgs : Text) : Prop :=
  ∃ tokens items p, shlexSplit upArgs = some tokens ∧ goParse tokens = some items ∧
    tsParseArgs upArgs = some p ∧ SameMeaning p.bool (goBool items) p.text (goText items)

/-! ## What each part of the comparison checks -/

section Parts

variable {prefs : Prefs} {b : Text → Option Bool} {t : Text → Option Text} {tags : List Text}
  {p : Parsed} {url : Text}

theorem running_eq_nil : runningProblems prefs = [] ↔ LoggedIn prefs := by
  unfold runningProblems LoggedIn
  cases prefs.LoggedOut.getD false <;> cases prefs.WantRunning.getD false <;> simp

theorem bool_eq_nil : boolProblems prefs b = [] ↔ ∀ row ∈ tsBoolFlags,
    (row.key prefs).getD row.default = (b row.flag).getD row.default := by
  rw [boolProblems, List.flatMap_eq_nil_iff]
  refine forall₂_congr fun row _ => ?_
  dsimp only
  split_ifs with h <;> simp_all

theorem string_eq_nil : stringProblems prefs t = [] ↔ ∀ row ∈ tsStringFlags,
    (row.key prefs).getD [] = (t row.flag).getD [] := by
  rw [stringProblems, List.flatMap_eq_nil_iff]
  refine forall₂_congr fun row _ => ?_
  split_ifs with h <;> simp_all

theorem control_eq_nil : controlProblems prefs t = [] ↔
    ControlAgrees (prefs.ControlURL.getD []) (t "login-server") := by
  unfold controlProblems
  cases t "login-server" with
  | none =>
    simp only [ControlAgrees]
    split_ifs with h <;> simp_all
  | some control =>
    simp only [ControlAgrees]
    split_ifs with h <;> simp_all

theorem route_eq_nil : routeProblems prefs b t = [] ↔
    sorted (prefs.AdvertiseRoutes.getD []) = wantRoutes b t := by
  unfold routeProblems
  dsimp only
  split_ifs with h <;> simp_all

theorem snat_eq_nil : snatProblems prefs b = [] ↔ prefs.NoSNAT.getD false = !wantSnat b := by
  unfold snatProblems
  cases prefs.NoSNAT.getD false <;> cases wantSnat b <;> simp

theorem netfilter_eq_nil : netfilterProblems prefs t = [] ↔
    tsNetfilter (netfilterMode t) = some (prefs.NetfilterMode.getD 2) := by
  unfold netfilterProblems
  cases tsNetfilter (netfilterMode t) with
  | none => simp
  | some mode =>
    dsimp only
    split_ifs with h <;> simp_all [eq_comm]

theorem tag_eq_nil : tagProblems prefs t tags = [] ↔
    sorted (prefs.AdvertiseTags.getD []) = wantTags t tags := by
  unfold tagProblems
  dsimp only
  split_ifs with h <;> simp_all

theorem exit_node_eq_nil : exitNodeProblems prefs t = [] ↔
    t "exit-node" = none ∧ prefs.ExitNodeID.getD [] = [] ∧ prefs.ExitNodeIP.getD [] = [] := by
  unfold exitNodeProblems
  cases t "exit-node" with
  | none =>
    simp only [Option.isSome_none, Bool.false_eq_true, if_false, true_and]
    split_ifs with h
    · simp only [false_iff]
      tauto
    · simp only [true_iff]
      tauto
  | some value => simp

theorem leftover_eq_nil : leftoverProblems p = [] ↔ ∀ name ∈ Dict.keys p.flags, name ∈ table := by
  have hlength : (sorted ((Dict.keys p.flags).filter (· ∉ table))).length =
      ((Dict.keys p.flags).filter (· ∉ table)).length := List.length_insertionSort _ _
  rw [leftoverProblems, List.map_eq_nil_iff, ← List.length_eq_zero_iff, hlength,
    List.length_eq_zero_iff, List.filter_eq_nil_iff]
  simp

theorem compare_eq_nil : compare prefs tags p = [] ↔
    LoggedIn prefs ∧ byHandProblems prefs = [] ∧ Verifiable p ∧
      Agrees prefs tags p.bool p.text := by
  simp only [compare, List.append_eq_nil_iff, running_eq_nil, bool_eq_nil, string_eq_nil,
    control_eq_nil, route_eq_nil, snat_eq_nil, netfilter_eq_nil, tag_eq_nil, exit_node_eq_nil,
    leftover_eq_nil]
  constructor
  · rintro ⟨⟨⟨⟨⟨⟨⟨⟨⟨⟨⟨hrun, harg⟩, hbool⟩, hstring⟩, hcontrol⟩, hroute⟩, hsnat⟩, hnet⟩, htag⟩, hexit⟩,
      hhand⟩, hleft⟩
    have hmode : (tsNetfilter (netfilterMode p.text)).isSome = true := by
      rw [hnet]
      rfl
    exact ⟨hrun, hhand, ⟨harg, hleft, hexit.1, hmode⟩,
      ⟨hbool, hstring, hcontrol, hroute, hsnat, hnet, htag, hexit⟩⟩
  · rintro ⟨hrun, hhand, hver, hagrees⟩
    exact ⟨⟨⟨⟨⟨⟨⟨⟨⟨⟨⟨hrun, hver.no_word⟩, hagrees.bools⟩, hagrees.strings⟩, hagrees.control⟩,
      hagrees.routes⟩, hagrees.snat⟩, hagrees.netfilter⟩, hagrees.tags⟩, hagrees.exit_node⟩,
      hhand⟩, hver.known⟩

/-! ## A node that has what a reading means -/

def prefsOf (b : Text → Option Bool) (t : Text → Option Text) (tags : List Text) (url : Text) :
    Prefs where
  WantRunning := some true
  CorpDNS := some ((b "accept-dns").getD true)
  RouteAll := some ((b "accept-routes").getD false)
  RunSSH := some ((b "ssh").getD false)
  ShieldsUp := some ((b "shields-up").getD false)
  ExitNodeAllowLANAccess := some ((b "exit-node-allow-lan-access").getD false)
  Hostname := some ((t "hostname").getD [])
  OperatorUser := some ((t "operator").getD [])
  ControlURL := some url
  AdvertiseRoutes := some (routeSet b t)
  NoSNAT := some (!wantSnat b)
  NetfilterMode := tsNetfilter (netfilterMode t)
  AdvertiseTags := some (tagSet t tags)

theorem agrees_prefsOf (hurl : ControlAgrees url (t "login-server"))
    (hmode : (tsNetfilter (netfilterMode t)).isSome = true) (hexit : t "exit-node" = none) :
    Agrees (prefsOf b t tags url) tags b t where
  bools := by
    intro row hrow
    simp only [tsBoolFlags, List.mem_cons, List.not_mem_nil, or_false] at hrow
    obtain rfl | rfl | rfl | rfl | rfl := hrow <;> rfl
  strings := by
    intro row hrow
    simp only [tsStringFlags, List.mem_cons, List.not_mem_nil, or_false] at hrow
    obtain rfl | rfl := hrow <;> rfl
  control := hurl
  routes := rfl
  snat := rfl
  netfilter := by
    obtain ⟨mode, hmode⟩ := Option.isSome_iff_exists.mp hmode
    simp only [prefsOf, hmode, Option.getD_some]
  tags := rfl
  exit_node := ⟨hexit, rfl, rfl⟩

theorem control_exists (c : Option Text) : ∃ url, ControlAgrees url c := by
  cases c with
  | none =>
    have hempty : [] ∈ tsDefaultControl := by decide
    exact ⟨[], hempty⟩
  | some control => exact ⟨control, rfl⟩

theorem control_eq {c c' : Option Text} (h : ∀ url, ControlAgrees url c → ControlAgrees url c') :
    c.map (rstripChar '/') = c'.map (rstripChar '/') := by
  cases c with
  | none =>
    cases c' with
    | none => rfl
    | some control =>
      have hdefaults : [] ∈ tsDefaultControl ∧
          ("https://login.tailscale.com" : Text) ∈ tsDefaultControl := by decide
      have hempty : rstripChar '/' [] = rstripChar '/' control := h [] hdefaults.1
      have hdefault : rstripChar '/' "https://login.tailscale.com" = rstripChar '/' control :=
        h _ hdefaults.2
      rw [← hempty] at hdefault
      exact absurd hdefault (by decide)
  | some control =>
    cases c' with
    | none =>
      have hslash : rstripChar '/' (rstripChar '/' control ++ ['/']) = rstripChar '/' control := by
        simp [rstripChar, List.dropWhile_idempotent]
      have hmem : rstripChar '/' control ++ ['/'] ∈ tsDefaultControl := h _ hslash
      have hlast : ∀ url ∈ tsDefaultControl, url.getLast? ≠ some '/' := by decide
      exact absurd (by simp) (hlast _ hmem)
    | some control' =>
      have hsame : rstripChar '/' control = rstripChar '/' control' := h control rfl
      simp only [Option.map_some, hsame]

end Parts

section Readings

variable {b b' : Text → Option Bool} {t t' : Text → Option Text} {upArgs : Text}

theorem ControlAgrees.congr {c c' : Option Text} {url : Text}
    (h : c.map (rstripChar '/') = c'.map (rstripChar '/')) (hc : ControlAgrees url c) :
    ControlAgrees url c' := by
  cases c with
  | none =>
    cases c' with
    | none => exact hc
    | some _ => cases h
  | some control =>
    cases c' with
    | none => cases h
    | some control' => exact hc.trans (Option.some.inj h)

theorem SameMeaning.agrees (h : SameMeaning b b' t t') {prefs : Prefs} {tags : List Text}
    (hagrees : Agrees prefs tags b t) : Agrees prefs tags b' t' where
  bools row hrow := (hagrees.bools row hrow).trans (h.bools row hrow)
  strings row hrow := (hagrees.strings row hrow).trans (h.strings row hrow)
  control := hagrees.control.congr h.control
  routes := hagrees.routes.trans h.routes
  snat := by rw [hagrees.snat, h.snat]
  netfilter := h.netfilter.symm.trans hagrees.netfilter
  tags := hagrees.tags.trans (h.tags tags)
  exit_node := ⟨h.exit_node.2, hagrees.exit_node.2⟩

theorem SameMeaning.of_agrees (hmode : (tsNetfilter (netfilterMode t)).isSome = true)
    (hexit : t "exit-node" = none)
    (h : ∀ prefs tags, LoggedIn prefs → byHandProblems prefs = [] → Agrees prefs tags b t →
      Agrees prefs tags b' t') : SameMeaning b b' t t' := by
  have hnode : ∀ tags url, ControlAgrees url (t "login-server") →
      Agrees (prefsOf b t tags url) tags b t ∧ Agrees (prefsOf b t tags url) tags b' t' := by
    intro tags url hurl
    have hagrees : Agrees (prefsOf b t tags url) tags b t := agrees_prefsOf hurl hmode hexit
    exact ⟨hagrees, h _ tags ⟨rfl, rfl⟩ rfl hagrees⟩
  obtain ⟨url, hurl⟩ := control_exists (t "login-server")
  obtain ⟨hb, hb'⟩ := hnode [] url hurl
  exact {
    bools := fun row hrow => (hb.bools row hrow).symm.trans (hb'.bools row hrow)
    strings := fun row hrow => (hb.strings row hrow).symm.trans (hb'.strings row hrow)
    control := control_eq fun url hurl => (hnode [] url hurl).2.control
    routes := hb.routes.symm.trans hb'.routes
    snat := Bool.not_inj (hb.snat.symm.trans hb'.snat)
    netfilter := hb.netfilter.trans hb'.netfilter.symm
    tags := fun tags => (hnode tags url hurl).1.tags.symm.trans (hnode tags url hurl).2.tags
    exit_node := ⟨hexit, hb'.exit_node.1⟩ }

theorem complete_iff_reading (upArgs : Text) :
    (∀ prefsStdout tags, Complete prefsStdout upArgs tags) ↔
      Refused upArgs ∨ SameReading upArgs := by
  constructor
  · intro hcomplete
    by_cases hrefused : Refused upArgs
    · exact .inl hrefused
    · right
      simp only [Refused, not_forall, not_not] at hrefused
      obtain ⟨p, hp, hver⟩ := hrefused
      have hgo : ∀ prefs tags, LoggedIn prefs → byHandProblems prefs = [] →
          Agrees prefs tags p.bool p.text → GoAgrees prefs upArgs tags := by
        intro prefs tags hrun hhand hagrees
        have hnone : tailscalePrefsProblems (some prefs) upArgs tags = some [] := by
          rw [tailscalePrefsProblems, hp]
          exact congrArg some (compare_eq_nil.mpr ⟨hrun, hhand, hver, hagrees⟩)
        obtain ⟨prefs', hprefs, -, hgo⟩ := hcomplete (some prefs) tags hnone
        cases hprefs
        exact hgo
      obtain ⟨url, hurl⟩ := control_exists (p.text "login-server")
      obtain ⟨tokens, items, htokens, hitems, -⟩ := hgo _ [] ⟨rfl, rfl⟩ rfl
        (agrees_prefsOf hurl hver.mode hver.no_exit_node)
      refine ⟨tokens, items, p, htokens, hitems, hp,
        SameMeaning.of_agrees hver.mode hver.no_exit_node fun prefs tags hrun hhand hagrees => ?_⟩
      obtain ⟨tokens', items', htokens', hitems', hgo⟩ := hgo prefs tags hrun hhand hagrees
      cases htokens.symm.trans htokens'
      cases hitems.symm.trans hitems'
      exact hgo
  · intro hreading prefsStdout tags hnone
    cases prefsStdout with
    | none => cases hnone
    | some prefs =>
      obtain ⟨p, hp, hcompare⟩ := Option.map_eq_some_iff.mp hnone
      obtain ⟨hrun, -, hver, hagrees⟩ := compare_eq_nil.mp hcompare
      obtain hrefused | ⟨tokens, items, p', htokens, hitems, hp', hsame⟩ := hreading
      · exact absurd hver (hrefused p hp)
      · cases hp.symm.trans hp'
        exact ⟨prefs, rfl, hrun, tokens, items, htokens, hitems, hsame.agrees hagrees⟩

end Readings

end Provisioner.Tailscale
