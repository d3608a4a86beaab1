import Mathlib.Data.List.Dedup
import Provisioner.Tailscale.Complete
import Provisioner.Tailscale.SetArgs

/-!
# A reconciled node

After `tailscale set` with the role's arguments a second comparison finds the
differences that are left to be done by hand, and no other.
-/

namespace Provisioner.Tailscale

open Text (join sorted)

/-! ## What `tailscale set` is relied on for -/

section Set

variable (args : List (Text × Text))

abbrev Gives (flag value : Text) : Prop := (flag, value) ∈ args

def Sets {α : Type} (flag : Text) (read : Text → Option α) (old new : Option α) : Prop :=
  (∀ v, Gives args flag v → new = read v) ∧ ((∀ v, ¬ Gives args flag v) → new = old)

def routesOf (value : Text) : List Text := if value.isEmpty then [] else value.splitOn ','

/-- The two flags that share a preference; each route is there once. -/
structure SetsRoutes (old new : Option (List Text)) : Prop where
  kept : (∀ v, ¬ Gives args "advertise-routes" v) → (∀ v, ¬ Gives args "advertise-exit-node" v) → new = old
  once : (∃ v, Gives args "advertise-routes" v ∨ Gives args "advertise-exit-node" v) →
    (new.getD []).Nodup
  both : ∀ routes v exit, Gives args "advertise-routes" routes → Gives args "advertise-exit-node" v →
    parseBool v = some exit →
    ∀ r, r ∈ new.getD [] ↔ r ∈ routesOf routes ∨ (exit = true ∧ r ∈ exitRoutes)
  routes : ∀ routes, Gives args "advertise-routes" routes →
    (∀ v, ¬ Gives args "advertise-exit-node" v) →
    ∀ r, r ∈ new.getD [] ↔
      r ∈ routesOf routes ∨ ((∀ e ∈ exitRoutes, e ∈ old.getD []) ∧ r ∈ exitRoutes)
  exit_node : ∀ v exit, (∀ v, ¬ Gives args "advertise-routes" v) → Gives args "advertise-exit-node" v →
    parseBool v = some exit →
    ∀ r, r ∈ new.getD [] ↔
      (r ∈ old.getD [] ∧ r ∉ exitRoutes) ∨ (exit = true ∧ r ∈ exitRoutes)

structure SameOtherwise (prefs prefs' : Prefs) : Prop where
  logged_out : prefs'.LoggedOut = prefs.LoggedOut
  want_running : prefs'.WantRunning = prefs.WantRunning
  control : prefs'.ControlURL = prefs.ControlURL
  tags : prefs'.AdvertiseTags = prefs.AdvertiseTags
  services : prefs'.AdvertiseServices = prefs.AdvertiseServices

/-- The run succeeded, and each flag set exactly what it is for. -/
structure Applied (prefs prefs' : Prefs) : Prop where
  bools : ∀ row ∈ tsBoolFlags, Sets args row.flag parseBool (row.key prefs) (row.key prefs')
  strings : ∀ row ∈ tsStringFlags, Sets args row.flag some (row.key prefs) (row.key prefs')
  routes : SetsRoutes args prefs.AdvertiseRoutes prefs'.AdvertiseRoutes
  snat : Sets args "snat-subnet-routes" (fun v => (parseBool v).map not) prefs.NoSNAT prefs'.NoSNAT
  netfilter : Sets args "netfilter-mode" tsNetfilter prefs.NetfilterMode prefs'.NetfilterMode
  exit_node : (Gives args "exit-node" "" →
      prefs'.ExitNodeID.getD [] = [] ∧ prefs'.ExitNodeIP.getD [] = []) ∧
    ((∀ v, ¬ Gives args "exit-node" v) →
      prefs'.ExitNodeID = prefs.ExitNodeID ∧ prefs'.ExitNodeIP = prefs.ExitNodeIP)
  webclient : Sets args "webclient" parseBool prefs.RunWebClient prefs'.RunWebClient
  posture : Sets args "report-posture" parseBool prefs.PostureChecking prefs'.PostureChecking
  same : SameOtherwise prefs prefs'

end Set

/-- Only what a problem names has changed. -/
structure Untouched (problems : List Problem) (prefs prefs' : Prefs) : Prop where
  bools : ∀ row ∈ tsBoolFlags, row.key prefs' ≠ row.key prefs →
    ∃ have_ want, .boolDiffers row.keyName row.flag have_ want ∈ problems
  strings : ∀ row ∈ tsStringFlags, row.key prefs' ≠ row.key prefs →
    .stringDiffers row.keyName row.flag ∈ problems
  routes : prefs'.AdvertiseRoutes ≠ prefs.AdvertiseRoutes →
    ∃ have_ want, .routesDiffer have_ want ∈ problems
  snat : prefs'.NoSNAT ≠ prefs.NoSNAT → .snatDiffers ∈ problems
  netfilter : prefs'.NetfilterMode ≠ prefs.NetfilterMode → ∃ mode, .netfilterDiffers mode ∈ problems
  exit_node : prefs'.ExitNodeID ≠ prefs.ExitNodeID ∨ prefs'.ExitNodeIP ≠ prefs.ExitNodeIP →
    .exitNodeUsed ∈ problems
  webclient : prefs'.RunWebClient ≠ prefs.RunWebClient → .setByHand "RunWebClient" ∈ problems
  posture : prefs'.PostureChecking ≠ prefs.PostureChecking →
    .setByHand "PostureChecking" ∈ problems
  same : SameOtherwise prefs prefs'

/-! ## The values the flags are given -/

section Values

variable {prefs : Prefs} {p : Parsed}

theorem parseBool_text (value : Bool) : parseBool (boolText value) = some value := by
  cases value <;> decide

theorem bare_boolText (value : Bool) : ∀ c ∈ boolText value, isBare c = true := by
  cases value <;> decide

theorem netfilter_lower (mode : Text) : tsNetfilter (Text.lower mode) = tsNetfilter mode := by
  unfold tsNetfilter
  rw [Text.lower_lower]

theorem bare_mode {mode : Text} {value : ℕ} (h : tsNetfilter mode = some value) :
    ∀ c ∈ Text.lower mode, isBare c = true := by
  have hmodes : (∀ c ∈ ("off" : Text), isBare c = true) ∧
      (∀ c ∈ ("nodivert" : Text), isBare c = true) ∧ ∀ c ∈ ("on" : Text), isBare c = true := by
    decide
  unfold tsNetfilter at h
  split_ifs at h with hoff hno hon
  · rw [hoff]
    exact hmodes.1
  · rw [hno]
    exact hmodes.2.1
  · rw [hon]
    exact hmodes.2.2

theorem declared_ne_nil {r : Text} (hr : r ∈ declaredRoutes p) : r ≠ [] := by
  unfold declaredRoutes tsList sorted at hr
  rw [List.mem_insertionSort, List.mem_filter] at hr
  simpa using hr.2

theorem routesOf_join (hroutes : ∀ r ∈ declaredRoutes p, CanonicalRoute r) :
    routesOf (join "," (declaredRoutes p)) = declaredRoutes p := by
  have hcomma : ∀ r ∈ declaredRoutes p, ',' ∉ r := by
    intro r hr hc
    have hnot : ¬ (Char.isDigit ',' = true ∨ ',' ∈ ("abcdef:./" : Text)) := by decide
    exact hnot (hroutes r hr ',' hc)
  unfold routesOf
  cases hdeclared : declaredRoutes p with
  | nil => rfl
  | cons r routes =>
    have hne : (join "," (r :: routes)).isEmpty = false := by
      have hr : r ≠ [] := declared_ne_nil (hdeclared ▸ List.mem_cons_self)
      cases routes with
      | nil => simpa [join] using hr
      | cons r' routes => simp [join, List.intercalate_cons_cons]
    rw [hne, if_neg Bool.false_ne_true]
    exact List.splitOn_intercalate ',' (hdeclared ▸ hcomma) (List.cons_ne_nil _ _)

end Values

/-! ## One flag at a time -/

section Flags

variable {prefs prefs' : Prefs} {p : Parsed} {tags : List Text}

theorem Sets.eq {α : Type} {flag : Text} {read : Text → Option α} {old new : Option α}
    {value : Option Text} (hsets : Sets (given (settings prefs p)) flag read old new)
    (hmem : (flag, value) ∈ settings prefs p) : new = value.elim old read := by
  cases value with
  | none =>
    refine hsets.2 fun v hv => ?_
    cases (setting_unique hmem).mp hv
  | some v => exact hsets.1 v ((setting_unique hmem).mpr rfl)

theorem boolSetting_mem {row : BoolFlag} (hrow : row ∈ tsBoolFlags) :
    (row.flag, boolSetting prefs p row) ∈ settings prefs p := by
  unfold settings
  exact List.mem_append_left _ (List.mem_append_left _ (List.mem_map.mpr ⟨row, hrow, rfl⟩))

theorem stringSetting_mem {row : StringFlag} (hrow : row ∈ tsStringFlags) :
    (row.flag, stringSetting prefs p row) ∈ settings prefs p := by
  unfold settings
  exact List.mem_append_left _ (List.mem_append_right _ (List.mem_map.mpr ⟨row, hrow, rfl⟩))

theorem other_setting_mem {setting : Text × Option Text}
    (hsetting : setting ∈
      [(("advertise-routes" : Text), routesSetting prefs p),
        ("advertise-exit-node", exitNodeSetting prefs p),
        ("snat-subnet-routes", snatSetting prefs p), ("netfilter-mode", netfilterSetting prefs p),
        ("exit-node", useSetting prefs p), ("webclient", resetSetting prefs.RunWebClient),
        ("report-posture", resetSetting prefs.PostureChecking)]) :
    setting ∈ settings prefs p := List.mem_append_right _ hsetting

def left (p : Parsed) (problems : List Problem) : List Problem :=
  problems.filter fun problem => (setArg p problem).isNone

/-- No flag of `tailscale set` covers the difference, or it is one of routes of
which each of the two flags would say what is there already. -/
def ByHand (p : Parsed) : Problem → Prop
  | .boolDiffers .. | .stringDiffers .. | .snatDiffers | .netfilterDiffers _
  | .exitNodeUsed => False
  | .routesDiffer have_ _ =>
    sorted (have_.filter (· ∉ exitRoutes)) = declaredRoutes p ∧
      exitRoutes.all (· ∈ have_) = declaredExitNode p
  | .setByHand key => key ≠ "RunWebClient" ∧ key ≠ "PostureChecking"
  | _ => True

theorem is_manual (q : Problem) : (setArg p q).isNone = (setFlags p q).isEmpty := by
  unfold setArg
  cases hflags : (setFlags p q).isEmpty <;> simp

theorem manual_iff (q : Problem) : (setFlags p q).isEmpty = true ↔ ByHand p q := by
  cases q with
  | routesDiffer have_ want =>
    simp only [setFlags, routeFlags, ByHand]
    split_ifs <;> simp_all
  | setByHand key =>
    simp only [setFlags, ByHand]
    split_ifs <;> simp_all
  | _ => simp [setFlags, ByHand]

theorem left_eq_nil {problems : List Problem} (h : ∀ q ∈ problems, (setFlags p q).isEmpty = false) :
    left p problems = [] := by
  rw [left, List.filter_eq_nil_iff]
  intro q hq
  rw [is_manual, h q hq]
  exact Bool.false_ne_true

theorem left_eq_self {problems : List Problem} (h : ∀ q ∈ problems, (setFlags p q).isEmpty = true) :
    left p problems = problems := by
  rw [left, List.filter_eq_self]
  intro q hq
  rw [is_manual, h q hq]

theorem eq_of_mem_ite {c : Prop} [Decidable c] {q q' : Problem} (h : q' ∈ if c then [q] else []) :
    q' = q := by
  split_ifs at h
  · exact List.mem_singleton.mp h
  · cases h

/-! ## Each part of the comparison, after the arguments -/

variable (happlied : Applied (given (settings prefs p)) prefs prefs')

include happlied

theorem bools_settled : boolProblems prefs' p.bool = left p (boolProblems prefs p.bool) := by
  have hleft : left p (boolProblems prefs p.bool) = [] := by
    refine left_eq_nil fun q hq => ?_
    obtain ⟨row, -, hq⟩ := List.mem_flatMap.mp hq
    dsimp only at hq
    rw [eq_of_mem_ite hq]
    rfl
  rw [hleft, bool_eq_nil]
  intro row hrow
  rw [(happlied.bools row hrow).eq (boolSetting_mem hrow)]
  unfold boolSetting
  split_ifs with hdiffer
  · rw [Option.elim_some, parseBool_text, Option.getD_some]
  · exact not_not.mp hdiffer

theorem strings_settled : stringProblems prefs' p.text = left p (stringProblems prefs p.text) := by
  have hleft : left p (stringProblems prefs p.text) = [] := by
    refine left_eq_nil fun q hq => ?_
    obtain ⟨row, -, hq⟩ := List.mem_flatMap.mp hq
    rw [eq_of_mem_ite hq]
    rfl
  rw [hleft, string_eq_nil]
  intro row hrow
  rw [(happlied.strings row hrow).eq (stringSetting_mem hrow)]
  unfold stringSetting
  split_ifs with hdiffer
  · rw [Option.elim_some, Option.getD_some]
  · exact not_not.mp hdiffer

theorem snat_settled : snatProblems prefs' p.bool = left p (snatProblems prefs p.bool) := by
  have hleft : left p (snatProblems prefs p.bool) = [] := by
    refine left_eq_nil fun q hq => ?_
    unfold snatProblems at hq
    rw [eq_of_mem_ite hq]
    rfl
  have hmem : (("snat-subnet-routes" : Text), snatSetting prefs p) ∈ settings prefs p :=
    other_setting_mem (by simp)
  rw [hleft, snat_eq_nil, happlied.snat.eq hmem]
  unfold snatSetting
  split_ifs with hdiffer
  · rw [Option.elim_some, parseBool_text, Option.map_some, Option.getD_some]
  · exact not_not.mp hdiffer

theorem netfilter_settled :
    netfilterProblems prefs' p.text = left p (netfilterProblems prefs p.text) := by
  have hmem : (("netfilter-mode" : Text), netfilterSetting prefs p) ∈ settings prefs p :=
    other_setting_mem (by simp)
  have hmode := happlied.netfilter.eq hmem
  unfold netfilterSetting at hmode
  cases hread : tsNetfilter (netfilterMode p.text) with
  | none =>
    -- an unknown mode is named again, whatever the node has
    have hinvalid : ∀ prefs, netfilterProblems prefs p.text =
        [.netfilterInvalid (netfilterMode p.text)] := by
      intro prefs
      unfold netfilterProblems
      rw [hread]
    rw [hinvalid, hinvalid, left_eq_self]
    intro q hq
    rw [List.mem_singleton.mp hq]
    rfl
  | some mode =>
    have hleft : left p (netfilterProblems prefs p.text) = [] := by
      refine left_eq_nil fun q hq => ?_
      unfold netfilterProblems at hq
      rw [hread] at hq
      dsimp only at hq
      rw [eq_of_mem_ite hq]
      rfl
    rw [hread] at hmode
    dsimp only at hmode
    rw [hleft, netfilter_eq_nil, hmode, hread]
    split_ifs with hdiffer
    · rw [Option.elim_some, netfilter_lower, hread, Option.getD_some]
    · rw [Option.elim_none, not_not.mp hdiffer]

theorem exit_node_settled :
    exitNodeProblems prefs' p.text = left p (exitNodeProblems prefs p.text) := by
  have hmem : (("exit-node" : Text), useSetting prefs p) ∈ settings prefs p :=
    other_setting_mem (by simp)
  obtain ⟨hcleared, hkept⟩ := happlied.exit_node
  cases hflag : p.text "exit-node" with
  | some value =>
    have hgiven : ∀ prefs, exitNodeProblems prefs p.text = [.exitNodeFlag] := by
      intro prefs
      unfold exitNodeProblems
      rw [hflag, Option.isSome_some, if_pos rfl]
    rw [hgiven, hgiven, left_eq_self]
    intro q hq
    rw [List.mem_singleton.mp hq]
    rfl
  | none =>
    have hleft : left p (exitNodeProblems prefs p.text) = [] := by
      refine left_eq_nil fun q hq => ?_
      unfold exitNodeProblems at hq
      rw [hflag, Option.isSome_none, if_neg Bool.false_ne_true] at hq
      rw [eq_of_mem_ite hq]
      rfl
    rw [hleft, exit_node_eq_nil]
    refine ⟨hflag, ?_⟩
    by_cases hused : prefs.ExitNodeID.getD [] ≠ [] ∨ prefs.ExitNodeIP.getD [] ≠ []
    · refine hcleared ((setting_unique hmem).mpr ?_)
      rw [useSetting, if_pos ⟨by rw [hflag]; rfl, hused⟩]
    · obtain ⟨hid, hip⟩ := hkept fun v hv => by
        have hnone := (setting_unique hmem).mp hv
        rw [useSetting, if_neg fun h => hused h.2] at hnone
        cases hnone
      rw [hid, hip]
      simpa only [not_or, not_not] using hused

theorem byHand_settled : byHandProblems prefs' = left p (byHandProblems prefs) := by
  have hreset : ∀ {value value' : Option Bool},
      value' = (resetSetting value).elim value parseBool → value'.getD false = false := by
    rintro value value' rfl
    unfold resetSetting
    split_ifs with hset
    · exact congrArg (Option.getD · false) (parseBool_text false)
    · simpa using hset
  have hweb := hreset (happlied.webclient.eq (other_setting_mem (by simp)))
  have hposture := hreset (happlied.posture.eq (other_setting_mem (by simp)))
  have hdistinct : ("PostureChecking" : Text) ≠ "RunWebClient" ∧
      ("AdvertiseServices" : Text) ≠ "RunWebClient" ∧
      ("AdvertiseServices" : Text) ≠ "PostureChecking" := by decide
  have hnames : (setFlags p (.setByHand "RunWebClient")).isEmpty = false ∧
      (setFlags p (.setByHand "PostureChecking")).isEmpty = false ∧
      (setFlags p (.setByHand "AdvertiseServices")).isEmpty = true := by
    refine ⟨?_, ?_, ?_⟩
    · rw [setFlags, if_pos rfl]
      rfl
    · rw [setFlags, if_neg hdistinct.1, if_pos rfl]
      rfl
    · rw [setFlags, if_neg hdistinct.2.1, if_neg hdistinct.2.2]
      rfl
  have hone : ∀ {c : Prop} [Decidable c] {q : Problem}, (setFlags p q).isEmpty = false →
      left p (if c then [q] else []) = [] := by
    intro c _ q hq
    refine left_eq_nil fun q' hq' => ?_
    rwa [eq_of_mem_ite hq']
  have hservices : ∀ {c : Prop} [Decidable c],
      left p (if c then [.setByHand "AdvertiseServices"] else []) =
        if c then [.setByHand "AdvertiseServices"] else [] := by
    intro c _
    refine left_eq_self fun q' hq' => ?_
    rw [eq_of_mem_ite hq']
    exact hnames.2.2
  have happend : ∀ a b : List Problem, left p (a ++ b) = left p a ++ left p b :=
    fun a b => List.filter_append a b
  unfold byHandProblems
  rw [hweb, hposture, happlied.same.services, happend, happend, hone hnames.1, hone hnames.2.1,
    hservices]
  simp only [Bool.false_eq_true, if_false]

/-! ### The routes and the exit node -/

omit happlied in
theorem mem_routeSet {r : Text} : r ∈ routeSet p.bool p.text ↔
    r ∈ declaredRoutes p ∨ (declaredExitNode p = true ∧ r ∈ exitRoutes) := by
  unfold routeSet declaredRoutes declaredExitNode
  rw [List.mem_dedup, List.mem_append]
  split_ifs with hexit
  · simp only [hexit, true_and]
  · simp only [hexit, List.not_mem_nil, false_and, Bool.false_eq_true]

omit happlied in
theorem mem_haveRoutes {r : Text} : r ∈ haveRoutes prefs ↔ r ∈ prefs.AdvertiseRoutes.getD [] :=
  List.mem_insertionSort _

theorem routes_reached (hroutes : ∀ r ∈ declaredRoutes p, CanonicalRoute r)
    (hdiffer : haveRoutes prefs ≠ wantRoutes p.bool p.text)
    (hflags : routeFlags p (haveRoutes prefs) ≠ []) :
    haveRoutes prefs' = wantRoutes p.bool p.text := by
  have hmem : (("advertise-routes" : Text), routesSetting prefs p) ∈ settings prefs p :=
    other_setting_mem (by simp)
  have hexit_mem : (("advertise-exit-node" : Text), exitNodeSetting prefs p) ∈ settings prefs p :=
    other_setting_mem (by simp)
  have hread := routesOf_join hroutes
  have hset := happlied.routes
  have hresult : (prefs'.AdvertiseRoutes.getD []).Nodup ∧
      ∀ r, r ∈ prefs'.AdvertiseRoutes.getD [] ↔ r ∈ routeSet p.bool p.text := by
    by_cases hrest : sorted ((haveRoutes prefs).filter (· ∉ exitRoutes)) = declaredRoutes p
    · have hnone : ∀ v, ¬ Gives (given (settings prefs p)) "advertise-routes" v := by
        intro v hv
        have hsome := (setting_unique hmem).mp hv
        rw [routesSetting, if_neg fun h => h.2 hrest] at hsome
        cases hsome
      have hexit : exitRoutes.all (· ∈ haveRoutes prefs) ≠ declaredExitNode p := by
        intro hexit
        rw [routeFlags, if_neg (not_not.mpr hrest), if_neg (not_not.mpr hexit)] at hflags
        exact hflags rfl
      have hgiven : Gives (given (settings prefs p)) "advertise-exit-node"
          (boolText (declaredExitNode p)) :=
        (setting_unique hexit_mem).mpr (if_pos ⟨hdiffer, hexit⟩)
      refine ⟨hset.once ⟨_, .inr hgiven⟩, fun r => ?_⟩
      have hkept : r ∈ declaredRoutes p ↔ r ∈ prefs.AdvertiseRoutes.getD [] ∧ r ∉ exitRoutes := by
        rw [← hrest, sorted, List.mem_insertionSort, List.mem_filter, mem_haveRoutes,
          decide_eq_true_eq]
      rw [hset.exit_node _ _ hnone hgiven (parseBool_text _), mem_routeSet, hkept]
    · have hgiven : Gives (given (settings prefs p)) "advertise-routes"
          (join "," (declaredRoutes p)) :=
        (setting_unique hmem).mpr (if_pos ⟨hdiffer, hrest⟩)
      refine ⟨hset.once ⟨_, .inl hgiven⟩, fun r => ?_⟩
      by_cases hexit : exitRoutes.all (· ∈ haveRoutes prefs) = declaredExitNode p
      · have hnone : ∀ v, ¬ Gives (given (settings prefs p)) "advertise-exit-node" v := by
          intro v hv
          have hsome := (setting_unique hexit_mem).mp hv
          rw [exitNodeSetting, if_neg fun h => h.2 hexit] at hsome
          cases hsome
        have hboth : (∀ e ∈ exitRoutes, e ∈ prefs.AdvertiseRoutes.getD []) ↔
            declaredExitNode p = true := by
          rw [← hexit, List.all_eq_true]
          simp only [decide_eq_true_eq, mem_haveRoutes]
        rw [hset.routes _ hgiven hnone, hread, mem_routeSet, hboth]
      · have hexit_given : Gives (given (settings prefs p)) "advertise-exit-node"
            (boolText (declaredExitNode p)) :=
          (setting_unique hexit_mem).mpr (if_pos ⟨hdiffer, hexit⟩)
        rw [hset.both _ _ _ hgiven hexit_given (parseBool_text _), hread, mem_routeSet]
  exact Text.sorted_eq_of_mem hresult.1 (List.nodup_dedup _) hresult.2

theorem routes_kept (h : haveRoutes prefs = wantRoutes p.bool p.text ∨
    routeFlags p (haveRoutes prefs) = []) : prefs'.AdvertiseRoutes = prefs.AdvertiseRoutes := by
  have hmem : (("advertise-routes" : Text), routesSetting prefs p) ∈ settings prefs p :=
    other_setting_mem (by simp)
  have hexit_mem : (("advertise-exit-node" : Text), exitNodeSetting prefs p) ∈ settings prefs p :=
    other_setting_mem (by simp)
  have hnone : routesSetting prefs p = none ∧ exitNodeSetting prefs p = none := by
    unfold routesSetting exitNodeSetting
    obtain hsame | hflags := h
    · exact ⟨if_neg fun h => h.1 hsame, if_neg fun h => h.1 hsame⟩
    · obtain ⟨hroutes, hexit⟩ := List.append_eq_nil_iff.mp hflags
      refine ⟨if_neg fun h => ?_, if_neg fun h => ?_⟩
      · rw [if_pos h.2] at hroutes
        cases hroutes
      · rw [if_pos h.2] at hexit
        cases hexit
  refine happlied.routes.kept (fun v hv => ?_) fun v hv => ?_
  · cases hnone.1.symm.trans ((setting_unique hmem).mp hv)
  · cases hnone.2.symm.trans ((setting_unique hexit_mem).mp hv)

theorem routes_settled (hroutes : ∀ r ∈ declaredRoutes p, CanonicalRoute r) :
    routeProblems prefs' p.bool p.text = left p (routeProblems prefs p.bool p.text) := by
  have hproblems : ∀ prefs, routeProblems prefs p.bool p.text =
      if haveRoutes prefs ≠ wantRoutes p.bool p.text then
        [.routesDiffer (haveRoutes prefs) (wantRoutes p.bool p.text)] else [] := fun _ => rfl
  by_cases hsame : haveRoutes prefs = wantRoutes p.bool p.text
  · have hkept := routes_kept happlied (.inl hsame)
    have hhave : haveRoutes prefs' = haveRoutes prefs := by
      rw [haveRoutes, hkept, haveRoutes]
    rw [hproblems, hproblems, hhave, if_neg (not_not.mpr hsame)]
    rfl
  · cases hflags : routeFlags p (haveRoutes prefs) with
    | nil =>
      have hkept := routes_kept happlied (.inr hflags)
      have hhave : haveRoutes prefs' = haveRoutes prefs := by
        rw [haveRoutes, hkept, haveRoutes]
      rw [hproblems, hproblems, hhave, if_pos hsame, left_eq_self]
      intro q hq
      rw [List.mem_singleton.mp hq, setFlags, hflags]
      rfl
    | cons flag flags =>
      have hreached := routes_reached happlied hroutes hsame (hflags ▸ List.cons_ne_nil _ _)
      rw [hproblems, hproblems, hreached, if_neg (not_not.mpr rfl), if_pos hsame, left_eq_nil]
      intro q hq
      rw [List.mem_singleton.mp hq, setFlags, hflags]
      rfl

/-- A second comparison finds what the first one left. -/
theorem compare_settled (hroutes : ∀ r ∈ declaredRoutes p, CanonicalRoute r) :
    compare prefs' tags p = left p (compare prefs tags p) := by
  have hrunning : runningProblems prefs' = left p (runningProblems prefs) := by
    have hsame : runningProblems prefs' = runningProblems prefs := by
      unfold runningProblems
      rw [happlied.same.logged_out, happlied.same.want_running]
    rw [hsame, left_eq_self]
    intro q hq
    unfold runningProblems at hq
    rw [eq_of_mem_ite hq]
    rfl
  have harguments : argumentProblems p.positional = left p (argumentProblems p.positional) := by
    rw [left_eq_self]
    intro q hq
    unfold argumentProblems at hq
    split at hq
    · cases hq
    · obtain ⟨w, -, rfl⟩ := List.mem_map.mp hq
      rfl
    · obtain ⟨c, -, rfl⟩ := List.mem_map.mp hq
      rfl
  have hcontrol : controlProblems prefs' p.text = left p (controlProblems prefs p.text) := by
    have hsame : controlProblems prefs' p.text = controlProblems prefs p.text := by
      unfold controlProblems
      rw [happlied.same.control]
    rw [hsame, left_eq_self]
    intro q hq
    unfold controlProblems at hq
    split at hq
    · rw [eq_of_mem_ite hq]
      rfl
    · rw [eq_of_mem_ite hq]
      rfl
  have htags : tagProblems prefs' p.text tags = left p (tagProblems prefs p.text tags) := by
    have hsame : tagProblems prefs' p.text tags = tagProblems prefs p.text tags := by
      unfold tagProblems
      rw [happlied.same.tags]
    rw [hsame, left_eq_self]
    intro q hq
    unfold tagProblems at hq
    dsimp only at hq
    rw [eq_of_mem_ite hq]
    rfl
  have hleftover : leftoverProblems p = left p (leftoverProblems p) := by
    rw [left_eq_self]
    intro q hq
    obtain ⟨name, -, rfl⟩ := List.mem_map.mp hq
    rfl
  have happend : ∀ a b : List Problem, left p (a ++ b) = left p a ++ left p b :=
    fun a b => List.filter_append a b
  unfold compare
  simp only [happend]
  rw [hrunning, ← harguments, bools_settled happlied, strings_settled happlied, hcontrol,
    routes_settled happlied hroutes, snat_settled happlied, netfilter_settled happlied, htags,
    exit_node_settled happlied, byHand_settled happlied, ← hleftover]

omit happlied in
theorem mem_compare {q : Problem} (h : q ∈ boolProblems prefs p.bool ∨
    q ∈ stringProblems prefs p.text ∨ q ∈ routeProblems prefs p.bool p.text ∨
    q ∈ snatProblems prefs p.bool ∨ q ∈ netfilterProblems prefs p.text ∨
    q ∈ exitNodeProblems prefs p.text ∨ q ∈ byHandProblems prefs) :
    q ∈ compare prefs tags p := by
  simp only [compare, List.mem_append]
  tauto

theorem untouched : Untouched (compare prefs tags p) prefs prefs' where
  bools row hrow hne := by
    rw [(happlied.bools row hrow).eq (boolSetting_mem hrow)] at hne
    unfold boolSetting at hne
    split_ifs at hne with hdiffer
    · have hmem : .boolDiffers row.keyName row.flag ((row.key prefs).getD row.default)
          ((p.bool row.flag).getD row.default) ∈ boolProblems prefs p.bool :=
        List.mem_flatMap.mpr ⟨row, hrow, by simp [hdiffer]⟩
      exact ⟨_, _, mem_compare (.inl hmem)⟩
    · exact absurd rfl hne
  strings row hrow hne := by
    rw [(happlied.strings row hrow).eq (stringSetting_mem hrow)] at hne
    unfold stringSetting at hne
    split_ifs at hne with hdiffer
    · have hmem : .stringDiffers row.keyName row.flag ∈ stringProblems prefs p.text :=
        List.mem_flatMap.mpr ⟨row, hrow, by simp [hdiffer]⟩
      exact mem_compare (.inr (.inl hmem))
    · exact absurd rfl hne
  routes hne := by
    have hdiffer : haveRoutes prefs ≠ wantRoutes p.bool p.text :=
      fun hsame => hne (routes_kept happlied (.inl hsame))
    have hmem : .routesDiffer (haveRoutes prefs) (wantRoutes p.bool p.text) ∈
        routeProblems prefs p.bool p.text := by
      unfold routeProblems
      exact (if_pos hdiffer).symm ▸ List.mem_singleton_self _
    exact ⟨_, _, mem_compare (.inr (.inr (.inl hmem)))⟩
  snat hne := by
    have hmem : (("snat-subnet-routes" : Text), snatSetting prefs p) ∈ settings prefs p :=
      other_setting_mem (by simp)
    rw [happlied.snat.eq hmem] at hne
    unfold snatSetting at hne
    split_ifs at hne with hdiffer
    · have hmem : .snatDiffers ∈ snatProblems prefs p.bool := by
        unfold snatProblems
        rw [if_pos hdiffer]
        exact List.mem_singleton_self _
      exact mem_compare (.inr (.inr (.inr (.inl hmem))))
    · exact absurd rfl hne
  netfilter hne := by
    have hmem : (("netfilter-mode" : Text), netfilterSetting prefs p) ∈ settings prefs p :=
      other_setting_mem (by simp)
    rw [happlied.netfilter.eq hmem] at hne
    unfold netfilterSetting at hne
    cases hread : tsNetfilter (netfilterMode p.text) with
    | none =>
      rw [hread] at hne
      exact absurd rfl hne
    | some mode =>
      rw [hread] at hne
      dsimp only at hne
      split_ifs at hne with hdiffer
      · have hmem : .netfilterDiffers (netfilterMode p.text) ∈ netfilterProblems prefs p.text := by
          unfold netfilterProblems
          rw [hread]
          dsimp only
          rw [if_pos hdiffer]
          exact List.mem_singleton_self _
        exact ⟨_, mem_compare (.inr (.inr (.inr (.inr (.inl hmem)))))⟩
      · exact absurd rfl hne
  exit_node hne := by
    have hmem : (("exit-node" : Text), useSetting prefs p) ∈ settings prefs p :=
      other_setting_mem (by simp)
    have hsome : useSetting prefs p ≠ none := by
      intro hnone
      obtain ⟨hid, hip⟩ := happlied.exit_node.2 fun v hv => by
        cases hnone.symm.trans ((setting_unique hmem).mp hv)
      exact hne.elim (fun h => h hid) fun h => h hip
    unfold useSetting at hsome
    split_ifs at hsome with hused
    · have hnone : p.text "exit-node" = none := Option.isNone_iff_eq_none.mp hused.1
      have hmem : .exitNodeUsed ∈ exitNodeProblems prefs p.text := by
        unfold exitNodeProblems
        rw [hnone, Option.isSome_none, if_neg Bool.false_ne_true, if_pos hused.2]
        exact List.mem_singleton_self _
      exact mem_compare (.inr (.inr (.inr (.inr (.inr (.inl hmem))))))
    · exact absurd rfl hsome
  webclient hne := by
    have hset : prefs.RunWebClient.getD false = true := by
      by_contra hset
      have hmem : (("webclient" : Text), resetSetting prefs.RunWebClient) ∈ settings prefs p :=
        other_setting_mem (by simp)
      have hkept := happlied.webclient.eq hmem
      rw [resetSetting, if_neg hset] at hkept
      exact hne hkept
    have hmem : .setByHand "RunWebClient" ∈ byHandProblems prefs := by
      unfold byHandProblems
      rw [if_pos hset]
      exact List.mem_append_left _ (List.mem_append_left _ (List.mem_singleton_self _))
    exact mem_compare (.inr (.inr (.inr (.inr (.inr (.inr hmem))))))
  posture hne := by
    have hset : prefs.PostureChecking.getD false = true := by
      by_contra hset
      have hmem : (("report-posture" : Text), resetSetting prefs.PostureChecking) ∈
          settings prefs p := other_setting_mem (by simp)
      have hkept := happlied.posture.eq hmem
      rw [resetSetting, if_neg hset] at hkept
      exact hne hkept
    have hmem : .setByHand "PostureChecking" ∈ byHandProblems prefs := by
      unfold byHandProblems
      rw [if_pos hset]
      exact List.mem_append_right _ (List.mem_singleton_self _)
    exact mem_compare (.inr (.inr (.inr (.inr (.inr (.inr hmem))))))
  same := happlied.same

omit happlied in
theorem readable_settings (hroutes : ∀ r ∈ declaredRoutes p, CanonicalRoute r) :
    ∀ flag ∈ given (settings prefs p), Readable flag := by
  rintro ⟨flag, v⟩ hgiven
  have hmem : (flag, some v) ∈ settings prefs p := mem_given.mp hgiven
  have hnamed : flag ∈ settableFlags := by
    rw [← settings_keys prefs p]
    exact List.mem_map_of_mem hmem
  refine ⟨hnamed, fun hstring => ?_⟩
  have hbool : ∀ {c : Prop} [Decidable c] {b : Bool},
      some v = (if c then some (boolText b) else none) → ∀ c ∈ v, isBare c = true := by
    intro c _ b h
    split_ifs at h
    cases h
    exact bare_boolText b
  have hreset : ∀ {value : Option Bool}, some v = resetSetting value →
      ∀ c ∈ v, isBare c = true := by
    intro value h
    unfold resetSetting at h
    split_ifs at h
    cases h
    exact bare_boolText false
  unfold settings at hmem
  rw [List.mem_append, List.mem_append, List.mem_map, List.mem_map] at hmem
  obtain (⟨row, hrow, heq⟩ | ⟨row, hrow, heq⟩) | hother := hmem
  · exact hbool (Prod.mk.inj heq).2.symm
  · have hall : ∀ row ∈ tsStringFlags, row.flag ∈ tsStringFlagNames := by decide
    exact absurd ((Prod.mk.inj heq).1 ▸ hall row hrow) hstring
  · simp only [List.mem_cons, List.not_mem_nil, or_false, Prod.mk.injEq] at hother
    obtain ⟨-, h⟩ | ⟨-, h⟩ | ⟨-, h⟩ | ⟨-, h⟩ | ⟨-, h⟩ | ⟨-, h⟩ | ⟨-, h⟩ := hother
    · unfold routesSetting at h
      split_ifs at h
      cases h
      intro c hc
      rw [join] at hc
      obtain rfl | ⟨r, hr, hc⟩ := Text.mem_of_mem_join hc
      · decide
      · exact isBare_of_safe (isSafe_of_route (hroutes r hr) hc)
    · exact hbool h
    · exact hbool h
    · unfold netfilterSetting at h
      split at h
      · cases h
      · next mode hmode =>
        split_ifs at h
        cases h
        exact bare_mode hmode
    · unfold useSetting at h
      split_ifs at h
      cases h
      simp
    · exact hreset h
    · exact hreset h

end Flags

/-! ## The arguments can be applied -/

section Exists

variable (prefs : Prefs) (p : Parsed)

/-- The preference the routes and the exit node share, after the arguments. -/
def setRoutes : Option Text → Option Text → Option (List Text)
  | none, none => prefs.AdvertiseRoutes
  | some routes, none =>
    some (routesOf routes ++ if ∀ e ∈ exitRoutes, e ∈ prefs.AdvertiseRoutes.getD [] then
      exitRoutes else []).dedup
  | none, some v =>
    some ((prefs.AdvertiseRoutes.getD []).filter (· ∉ exitRoutes) ++
      if parseBool v = some true then exitRoutes else []).dedup
  | some routes, some v =>
    some (routesOf routes ++ if parseBool v = some true then exitRoutes else []).dedup

def setPrefs : Prefs :=
  let bool (row : BoolFlag) := (boolSetting prefs p row).elim (row.key prefs) parseBool
  { prefs with
    CorpDNS := bool ⟨"accept-dns", "CorpDNS", Prefs.CorpDNS, true⟩
    RouteAll := bool ⟨"accept-routes", "RouteAll", Prefs.RouteAll, false⟩
    RunSSH := bool ⟨"ssh", "RunSSH", Prefs.RunSSH, false⟩
    ShieldsUp := bool ⟨"shields-up", "ShieldsUp", Prefs.ShieldsUp, false⟩
    ExitNodeAllowLANAccess :=
      bool ⟨"exit-node-allow-lan-access", "ExitNodeAllowLANAccess", Prefs.ExitNodeAllowLANAccess, false⟩
    Hostname := (stringSetting prefs p ⟨"hostname", "Hostname", Prefs.Hostname⟩).elim prefs.Hostname some
    OperatorUser :=
      (stringSetting prefs p ⟨"operator", "OperatorUser", Prefs.OperatorUser⟩).elim prefs.OperatorUser some
    AdvertiseRoutes := setRoutes prefs (routesSetting prefs p) (exitNodeSetting prefs p)
    NoSNAT := (snatSetting prefs p).elim prefs.NoSNAT fun v => (parseBool v).map not
    NetfilterMode := (netfilterSetting prefs p).elim prefs.NetfilterMode tsNetfilter
    ExitNodeID := (useSetting prefs p).elim prefs.ExitNodeID some
    ExitNodeIP := (useSetting prefs p).elim prefs.ExitNodeIP some
    RunWebClient := (resetSetting prefs.RunWebClient).elim prefs.RunWebClient parseBool
    PostureChecking := (resetSetting prefs.PostureChecking).elim prefs.PostureChecking parseBool }

variable {prefs p}

theorem sets_of_elim {α : Type} {flag : Text} {read : Text → Option α} {old new : Option α}
    {value : Option Text} (hmem : (flag, value) ∈ settings prefs p) (hnew : new = value.elim old read) :
    Sets (given (settings prefs p)) flag read old new := by
  refine ⟨fun v hv => ?_, fun hnone => ?_⟩
  · rw [hnew, (setting_unique hmem).mp hv, Option.elim_some]
  · cases value with
    | none => exact hnew
    | some v => exact absurd ((setting_unique hmem).mpr rfl) (hnone v)

theorem sets_routes : SetsRoutes (given (settings prefs p)) prefs.AdvertiseRoutes
    (setRoutes prefs (routesSetting prefs p) (exitNodeSetting prefs p)) := by
  have hroutes : ∀ v, Gives (given (settings prefs p)) "advertise-routes" v ↔
      routesSetting prefs p = some v := fun v => setting_unique (other_setting_mem (by simp))
  have hexit : ∀ v, Gives (given (settings prefs p)) "advertise-exit-node" v ↔
      exitNodeSetting prefs p = some v := fun v => setting_unique (other_setting_mem (by simp))
  have hparse : ∀ {v : Text} {exit : Bool} {r : Text}, parseBool v = some exit →
      (r ∈ (if parseBool v = some true then exitRoutes else []) ↔ exit = true ∧ r ∈ exitRoutes) := by
    intro v exit r hv
    rw [hv]
    cases exit <;> simp
  constructor
  · intro hnone hnone'
    have hr : routesSetting prefs p = none :=
      Option.eq_none_iff_forall_ne_some.mpr fun v hv => hnone v ((hroutes v).mpr hv)
    have he : exitNodeSetting prefs p = none :=
      Option.eq_none_iff_forall_ne_some.mpr fun v hv => hnone' v ((hexit v).mpr hv)
    rw [hr, he, setRoutes]
  · rintro ⟨v, hv⟩
    rw [hroutes, hexit] at hv
    cases hr : routesSetting prefs p with
    | none =>
      cases he : exitNodeSetting prefs p with
      | none => simp [hr, he] at hv
      | some v => exact List.nodup_dedup _
    | some routes =>
      cases he : exitNodeSetting prefs p with
      | none => exact List.nodup_dedup _
      | some v => exact List.nodup_dedup _
  · intro routes v exit hr he hv r
    rw [(hroutes routes).mp hr, (hexit v).mp he, setRoutes, Option.getD_some, List.mem_dedup,
      List.mem_append, hparse hv]
  · intro routes hr hnone r
    have he : exitNodeSetting prefs p = none :=
      Option.eq_none_iff_forall_ne_some.mpr fun v hv => hnone v ((hexit v).mpr hv)
    rw [(hroutes routes).mp hr, he, setRoutes, Option.getD_some, List.mem_dedup, List.mem_append]
    by_cases hall : ∀ e ∈ exitRoutes, e ∈ prefs.AdvertiseRoutes.getD []
    · rw [if_pos hall]
      exact or_congr_right (and_iff_right hall).symm
    · rw [if_neg hall]
      simp only [List.not_mem_nil, or_false, hall, false_and]
  · intro v exit hnone he hv r
    have hr : routesSetting prefs p = none :=
      Option.eq_none_iff_forall_ne_some.mpr fun v hv => hnone v ((hroutes v).mpr hv)
    rw [hr, (hexit v).mp he, setRoutes, Option.getD_some, List.mem_dedup, List.mem_append,
      hparse hv, List.mem_filter, decide_eq_true_eq]

theorem applied_setPrefs : Applied (given (settings prefs p)) prefs (setPrefs prefs p) where
  bools row hrow := by
    refine sets_of_elim (boolSetting_mem hrow) ?_
    simp only [tsBoolFlags, List.mem_cons, List.not_mem_nil, or_false] at hrow
    obtain rfl | rfl | rfl | rfl | rfl := hrow <;> rfl
  strings row hrow := by
    refine sets_of_elim (stringSetting_mem hrow) ?_
    simp only [tsStringFlags, List.mem_cons, List.not_mem_nil, or_false] at hrow
    obtain rfl | rfl := hrow <;> rfl
  routes := sets_routes
  snat := sets_of_elim (other_setting_mem (by simp)) rfl
  netfilter := sets_of_elim (other_setting_mem (by simp)) rfl
  exit_node := by
    have huse : ∀ v, Gives (given (settings prefs p)) "exit-node" v ↔ useSetting prefs p = some v :=
      fun v => setting_unique (other_setting_mem (by simp))
    refine ⟨fun hgiven => ?_, fun hnone => ?_⟩
    · simp only [setPrefs, (huse _).mp hgiven]
      exact ⟨rfl, rfl⟩
    · have hkept : useSetting prefs p = none :=
        Option.eq_none_iff_forall_ne_some.mpr fun v hv => hnone v ((huse v).mpr hv)
      simp only [setPrefs, hkept]
      exact ⟨rfl, rfl⟩
  webclient := sets_of_elim (other_setting_mem (by simp)) rfl
  posture := sets_of_elim (other_setting_mem (by simp)) rfl
  same := ⟨rfl, rfl, rfl, rfl, rfl⟩

end Exists

/-! ## The second run -/

/-- The arguments can be read back, and a node they were applied to needs no
further ones: what is left is what was left to be done by hand, as no flag of
`tailscale set` covers it. -/
theorem set_args_converge (prefs : Prefs) {upArgs : Text} (tags : List Text) {p : Parsed}
    (hp : tsParseArgs upArgs = some p) (hroutes : ∀ r ∈ declaredRoutes p, CanonicalRoute r) :
    ∃ found args, tailscaleSetArgs (some prefs) upArgs tags = some found ∧
      (∀ q, q ∈ found.manual ↔ q ∈ compare prefs tags p ∧ ByHand p q) ∧
      readArgs found.set = some args ∧ (∃ prefs', Applied args prefs prefs') ∧
      ∀ prefs', Applied args prefs prefs' →
        tailscaleSetArgs (some prefs') upArgs tags = some ⟨[], found.manual⟩ ∧
        tailscalePrefsProblems (some prefs') upArgs tags = some found.manual ∧
        Untouched (compare prefs tags p) prefs prefs' := by
  have hread : ∀ flag ∈ given (settings prefs p), Readable flag := readable_settings hroutes
  refine ⟨⟨(compare prefs tags p).filterMap (setArg p), left p (compare prefs tags p)⟩,
    given (settings prefs p), ?_, fun q => ?_, ?_, ⟨setPrefs prefs p, applied_setPrefs⟩,
    fun prefs' happlied => ?_⟩
  · rw [tailscaleSetArgs, hp]
    rfl
  · rw [left, List.mem_filter, is_manual, manual_iff]
  · rw [readArgs, join_set, given_settings, shlex_arg_texts hread]
    exact readArg_texts hread
  · have hsettled : compare prefs' tags p = left p (compare prefs tags p) :=
      compare_settled happlied hroutes
    have hleft : ∀ q ∈ left p (compare prefs tags p), (setArg p q).isNone = true :=
      fun q hq => (List.mem_filter.mp hq).2
    refine ⟨?_, ?_, untouched happlied⟩
    · have hset : (left p (compare prefs tags p)).filterMap (setArg p) = [] :=
        List.filterMap_eq_nil_iff.mpr fun q hq => Option.isNone_iff_eq_none.mp (hleft q hq)
      have hmanual : (left p (compare prefs tags p)).filter (fun q => (setArg p q).isNone) =
          left p (compare prefs tags p) := List.filter_eq_self.mpr hleft
      rw [tailscaleSetArgs, hp, Option.map_some, hsettled, hset, hmanual]
    · rw [tailscalePrefsProblems, hp, Option.map_some, hsettled]

/-- An exit node that also has a service of its own, set up by hand. -/
def exitRouter : Prefs where
  WantRunning := some true
  RunSSH := some true
  AdvertiseRoutes := some ["10.0.0.0/8", "0.0.0.0/0", "::/0"]
  AdvertiseServices := some ["svc:web"]

def declaredArgs : Text := "--ssh --hostname='it is' --advertise-routes=192.168.7.0/24"

example : tailscaleSetArgs (some exitRouter) declaredArgs [] =
    some ⟨[("--hostname='it is'" : Text),
      "--advertise-routes=192.168.7.0/24 --advertise-exit-node=false"],
      [.setByHand "AdvertiseServices"]⟩ := by decide +kernel

def declaredFlags : Parsed where
  flags := [("ssh", "true"), ("hostname", "it is"), ("advertise-routes", "192.168.7.0/24")]

theorem exit_router_converges : ∃ found args,
    tailscaleSetArgs (some exitRouter) declaredArgs [] = some found ∧
      (∀ q, q ∈ found.manual ↔ q ∈ compare exitRouter [] declaredFlags ∧ ByHand declaredFlags q) ∧
      readArgs found.set = some args ∧ (∃ prefs', Applied args exitRouter prefs') ∧
      ∀ prefs', Applied args exitRouter prefs' →
        tailscaleSetArgs (some prefs') declaredArgs [] = some ⟨[], found.manual⟩ ∧
        tailscalePrefsProblems (some prefs') declaredArgs [] = some found.manual ∧
        Untouched (compare exitRouter [] declaredFlags) exitRouter prefs' := by
  have hp : tsParseArgs declaredArgs = some declaredFlags := by decide +kernel
  have hroutes : ∀ r ∈ declaredRoutes declaredFlags,
      ∀ c ∈ r, c.isDigit = true ∨ c ∈ ("abcdef:./" : Text) := by decide +kernel
  exact set_args_converge exitRouter [] hp hroutes

end Provisioner.Tailscale
