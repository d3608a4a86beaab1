import Provisioner.ControllerSeed.LbAddresses
import Provisioner.Library.Casing

/-!
# What a green run of the IPv6 seeding says

The parser reads a line back as long as the name of the zone stays inside its
field: no `|` and no line break. On such names a run that passes its assertions
has seeded every address, and the next run finds them all.
-/

namespace Provisioner.ControllerSeed.LbIpv6

open Firewall (Address ipv6Int)
open Inventory (csIpv6Problem of_noProblem IsIpv6Char)
open Text (join lower strip isLineBreak isSpace IsTrimmed)

/-! ## What is asked of a run -/

/-- What the preflight has checked of the nodes the addresses come from. -/
structure Preflight (want : List Wanted) : Prop where
  oneNode_per_az : ((want.map Wanted.az).map lower).Nodup
  canonical : ∀ w ∈ want, csIpv6Problem w.ip = none

def IsSeeded (db : Db) (w : Wanted) : Prop :=
  ∃ r rows a, findBy w.az db = some r ∧ r.loadBalancer = some rows ∧ ipAddr w.ip = some a ∧
    ∃ row ∈ rows, row.ipAddr = some a ∧ row.role = .pub

def RegionKept (r r' : RegionRow) : Prop :=
  r'.name = r.name ∧
    ((r.loadBalancer = none ∧ r'.loadBalancer = none) ∨
      ∃ rows added, r.loadBalancer = some rows ∧ r'.loadBalancer = some (rows ++ added))

def Kept (db db' : Db) : Prop := List.Forall₂ RegionKept db db'

def entries (cmd : Cmd) : List Entry :=
  (controllerSeedLbIpv6Result (stdoutLinesOf cmd.stdout)).entries

section

variable (valid : Db → Wanted → Bool)

structure AsReported (want : List Wanted) (db : Db) : Prop where
  rolledBack : (runner valid true db want).1.rc ≠ 0 → (runner valid true db want).2 = db
  seeded : passes (runner valid true db want).1 = true →
    (∀ w ∈ want, IsSeeded (runner valid true db want).2 w) ∧
    (∀ w ∈ want, ((entries (runner valid true db want).1).map fun e => (e.az, e.ip)).count
      (w.az, w.ip) = 1) ∧
    Kept db (runner valid true db want).2 ∧
    runner valid true (runner valid true db want).2 want =
      (⟨0, puts ((want.map fun w => report w .ok) ++ [("DONE" : Text)])⟩,
        (runner valid true db want).2)

end

def Clean (az : Text) : Prop := ∀ c ∈ az, c ≠ '|' ∧ isLineBreak c = false

instance (az : Text) : Decidable (Clean az) := inferInstanceAs (Decidable (∀ c ∈ az, _))

/-- The entries read from what is printed for one address. -/
def reads (line : Text) : List Entry := (stdoutLinesOf line).filterMap readLine

/-- Whatever is found on the controller, what is printed holds a line that reads
as a conflict or as missing, so that no run passes. -/
def Blocked (w : Wanted) : Prop :=
  ∀ o : Outcome, o ≠ .conflict .pub → ∃ e ∈ reads (report w o), e.fails = true

/-! ## Reading a printed line back -/

section Lines

variable {w : Wanted} {o : Outcome}

def word : Outcome → Text
  | .create => "CREATE"
  | .ok => "OK"
  | .conflict _ => "CONFLICT"
  | .noregion => "MISSING"
  | .nolb => "MISSING"

def notes : Outcome → List Text
  | .create => []
  | .ok => []
  | .conflict role => [role.toS]
  | .noregion => ["NOREGION"]
  | .nolb => ["NOLB"]

def kindOf : Outcome → Kind
  | .create => .create
  | .ok => .ok
  | .conflict _ => .conflict
  | .noregion => .missing
  | .nolb => .missing

def entryOf (w : Wanted) (o : Outcome) : Entry :=
  ⟨kindOf o, w.az, w.ip, (notes o).headD []⟩

theorem report_eq (w : Wanted) (o : Outcome) :
    report w o = ['|'].intercalate (word o :: w.az :: w.ip :: notes o) := by
  cases o <;> rfl

def IsPlain (t : Text) : Prop :=
  t ≠ [] ∧ ∀ c ∈ t, c ≠ '|' ∧ isLineBreak c = false ∧ isSpace c = false

instance (t : Text) : Decidable (IsPlain t) := inferInstanceAs (Decidable (_ ∧ _))

theorem plain_word (o : Outcome) : IsPlain (word o) := by
  cases o <;> exact of_decide_eq_true (by rfl)

theorem plain_notes (o : Outcome) : ∀ note ∈ notes o, IsPlain note := by
  have hrole : ∀ role : Role, IsPlain role.toS := by
    intro role
    cases role <;> decide
  cases o with
  | create => exact fun _ h => absurd h List.not_mem_nil
  | ok => exact fun _ h => absurd h List.not_mem_nil
  | conflict role => exact List.forall_mem_singleton.mpr (hrole role)
  | noregion => decide
  | nolb => decide

theorem plain_ip (h : csIpv6Problem w.ip = none) : IsPlain w.ip := by
  obtain ⟨⟨ip, hip⟩, hchars⟩ := of_noProblem h
  constructor
  · intro hnil
    have hnone : ipv6Int [] = none := by decide
    rw [hnil, hnone] at hip
    cases hip
  · intro c hc
    have hall : ∀ d ∈ ("0123456789abcdef:" : Text),
        d ≠ '|' ∧ isLineBreak d = false ∧ isSpace d = false := by decide
    exact hall c (hchars c hc)

theorem clean_fields (haz : Clean w.az) (hip : csIpv6Problem w.ip = none) :
    ∀ field ∈ word o :: w.az :: w.ip :: notes o, Clean field := by
  have hplain : ∀ {t : Text}, IsPlain t → Clean t := fun ht c hc => ⟨(ht.2 c hc).1, (ht.2 c hc).2.1⟩
  simp only [List.forall_mem_cons]
  exact ⟨hplain (plain_word o), haz, hplain (plain_ip hip), fun n hn => hplain (plain_notes o n hn)⟩

theorem trimmed_report (hip : csIpv6Problem w.ip = none) : IsTrimmed (report w o) := by
  have hends : ∀ {first last : Text} (middle : Text), IsPlain first → IsPlain last →
      IsTrimmed (first ++ middle ++ last) := by
    intro first last middle hfirst hlast
    constructor
    · refine ⟨first.head hfirst.1, ?_, (hfirst.2 _ (List.head_mem hfirst.1)).2.2⟩
      simp [List.head?_append, List.head?_eq_some_head hfirst.1]
    · refine ⟨last.getLast hlast.1, ?_, (hlast.2 _ (List.getLast_mem hlast.1)).2.2⟩
      simp [List.getLast?_append, List.getLast?_eq_some_getLast hlast.1]
  rw [report_eq]
  have hword := plain_word o
  cases hnotes : notes o with
  | nil =>
    have hlast := hends ('|' :: w.az ++ ['|']) hword (plain_ip hip)
    simpa [List.intercalate_cons_cons] using hlast
  | cons note rest =>
    have hrest : rest = [] := by
      cases o <;> cases hnotes <;> rfl
    have hnote : IsPlain note := plain_notes o note (by rw [hnotes]; exact List.mem_cons_self)
    have hlast := hends ('|' :: w.az ++ '|' :: w.ip ++ ['|']) hword hnote
    subst hrest
    simpa [List.intercalate_cons_cons] using hlast

theorem fields_report (haz : Clean w.az) (hip : csIpv6Problem w.ip = none) :
    (strip (report w o)).splitOn '|' = word o :: w.az :: w.ip :: notes o := by
  rw [Text.strip_eq_self (trimmed_report hip), report_eq]
  refine List.splitOn_intercalate '|' (fun field hfield hc => ?_) (List.cons_ne_nil _ _)
  exact (clean_fields haz hip field hfield '|' hc).1 rfl

theorem read_report (haz : Clean w.az) (hip : csIpv6Problem w.ip = none) :
    readLine (report w o) = some (entryOf w o) := by
  rw [readLine, fields_report haz hip]
  cases o <;> rfl

theorem reads_report (haz : Clean w.az) (hip : csIpv6Problem w.ip = none) :
    reads (report w o) = [entryOf w o] := by
  have hbreak : ∀ c ∈ report w o, isLineBreak c = false := by
    intro c hc
    rw [report_eq] at hc
    obtain rfl | ⟨field, hfield, hc⟩ := Text.mem_of_mem_join hc
    · decide
    · exact (clean_fields haz hip field hfield c hc).2
  rw [reads, stdoutLinesOf, List.splitOnP_eq_singleton hbreak]
  simp [read_report haz hip]

/-- Whatever the line, no entry holds a separator. -/
theorem clean_of_mem_reads {line : Text} {e : Entry} (h : e ∈ reads line) : Clean e.az := by
  obtain ⟨piece, hpiece, hread⟩ := List.mem_filterMap.mp h
  have hfield : e.az ∈ (strip piece).splitOn '|' := by
    unfold readLine at hread
    split at hread
    · next kind az ip hfields =>
      rw [hfields]
      split_ifs at hread <;> cases hread <;> simp
    · next kind az ip note hfields =>
      rw [hfields]
      split_ifs at hread <;> cases hread <;> simp
    · cases hread
  intro c hc
  constructor
  · rw [List.splitOn_eq_splitOnP] at hfield
    simpa using Text.sep_of_mem_splitOnP hfield c hc
  · exact Text.sep_of_mem_splitOnP hpiece c
      (Text.mem_of_mem_strip (Text.mem_of_mem_splitOn hfield hc))

end Lines

/-! ## What a run prints -/

section Stdout

variable {w : Wanted} {o : Outcome}

theorem stdoutLines_puts {lines : List Text} (h : ∀ l ∈ lines, l.getLast? ≠ some '\n') :
    stdoutLinesOf (puts lines) = lines.flatMap stdoutLinesOf ++ [[]] := by
  induction lines with
  | nil => rfl
  | cons l lines ih =>
    rw [List.forall_mem_cons] at h
    have hputs : puts (l :: lines) = l ++ '\n' :: puts lines := by
      rw [puts, List.flatMap_cons, if_neg h.1, List.append_assoc]
      rfl
    rw [hputs, stdoutLinesOf, List.splitOnP_append_cons _ _ (by decide), List.flatMap_cons,
      List.append_assoc, ← ih h.2]
    rfl

theorem report_getLast (hip : csIpv6Problem w.ip = none) :
    (report w o).getLast? ≠ some '\n' := by
  obtain ⟨-, c, hc, hspace⟩ := @trimmed_report w o hip
  intro hlast
  rw [hlast] at hc
  cases hc
  revert hspace
  decide

theorem entries_eq (cmd : Cmd) : entries cmd = reads cmd.stdout := rfl

def printedLines (printed : List (Wanted × Outcome)) : List Text :=
  (printed.map fun x => report x.1 x.2) ++ [("DONE" : Text)]

theorem printedLines_getLast {printed : List (Wanted × Outcome)}
    (hip : ∀ x ∈ printed, csIpv6Problem x.1.ip = none) :
    ∀ l ∈ printedLines printed, l.getLast? ≠ some '\n' := by
  intro l hl
  rcases List.mem_append.mp hl with hl | hl
  · obtain ⟨x, hx, rfl⟩ := List.mem_map.mp hl
    exact report_getLast (hip x hx)
  · rw [List.mem_singleton.mp hl]
    decide

theorem reads_printed {printed : List (Wanted × Outcome)}
    (hip : ∀ x ∈ printed, csIpv6Problem x.1.ip = none) :
    reads (puts (printedLines printed)) = printed.flatMap fun x => reads (report x.1 x.2) := by
  have hdone : (stdoutLinesOf "DONE" ++ [[]]).filterMap readLine = [] := by decide
  rw [reads, stdoutLines_puts (printedLines_getLast hip), printedLines, List.flatMap_append,
    List.flatMap_singleton, List.append_assoc, List.filterMap_append, hdone, List.append_nil,
    List.flatMap_map, List.filterMap_flatMap]
  rfl

theorem done_printed {printed : List (Wanted × Outcome)}
    (hip : ∀ x ∈ printed, csIpv6Problem x.1.ip = none) :
    (controllerSeedLbIpv6Result (stdoutLinesOf (puts (printedLines printed)))).done =
      true := by
  have hmem : ("DONE" : Text) ∈ stdoutLinesOf (puts (printedLines printed)) := by
    rw [stdoutLines_puts (printedLines_getLast hip), printedLines, List.flatMap_append]
    have hdone : ("DONE" : Text) ∈ [("DONE" : Text)].flatMap stdoutLinesOf := by decide
    exact List.mem_append_left _ (List.mem_append_right _ hdone)
  exact List.any_eq_true.mpr ⟨_, hmem, by decide⟩

end Stdout

/-! ## Rows are only added -/

section Db

variable {valid : Db → Wanted → Bool} {db db' db'' : Db} {w : Wanted} {o : Outcome} {name : Text}
  {row : AddrRow} {r : RegionRow} {want : List Wanted} {printed : List (Wanted × Outcome)}

theorem RegionKept.refl (r : RegionRow) : RegionKept r r := by
  refine ⟨rfl, ?_⟩
  cases hlb : r.loadBalancer with
  | none => exact .inl ⟨rfl, rfl⟩
  | some rows => exact .inr ⟨rows, [], rfl, by rw [List.append_nil]⟩

theorem RegionKept.trans {r r' r'' : RegionRow} (h : RegionKept r r') (h' : RegionKept r' r'') :
    RegionKept r r'' := by
  obtain ⟨hname, hlb⟩ := h
  obtain ⟨hname', hlb'⟩ := h'
  refine ⟨hname'.trans hname, ?_⟩
  obtain ⟨hnone, hnone'⟩ | ⟨rows, added, hrows, hrows'⟩ := hlb
  · obtain ⟨-, hnone''⟩ | ⟨rows, added, hrows, -⟩ := hlb'
    · exact .inl ⟨hnone, hnone''⟩
    · rw [hnone'] at hrows
      cases hrows
  · obtain ⟨hnone, -⟩ | ⟨rows₁, added', hrows₁, hrows''⟩ := hlb'
    · rw [hnone] at hrows'
      cases hrows'
    · rw [hrows'] at hrows₁
      cases hrows₁
      exact .inr ⟨rows, added ++ added', hrows, by rw [hrows'', List.append_assoc]⟩

theorem Kept.refl (db : Db) : Kept db db := List.forall₂_same.mpr fun r _ => RegionKept.refl r

theorem Kept.trans (h : Kept db db') (h' : Kept db' db'') : Kept db db'' := by
  induction h generalizing db'' with
  | nil =>
    cases h'
    exact .nil
  | cons hr _ ih =>
    cases h' with
    | cons hr' h' => exact .cons (hr.trans hr') (ih h')

theorem kept_create (name : Text) (row : AddrRow) (db : Db) : Kept db (create name row db) := by
  induction db with
  | nil => exact .nil
  | cons r db ih =>
    rw [create]
    split_ifs with hname
    · refine .cons ⟨rfl, ?_⟩ (Kept.refl db)
      cases hlb : r.loadBalancer with
      | none => exact .inl ⟨rfl, rfl⟩
      | some rows => exact .inr ⟨rows, [row], rfl, rfl⟩
    · exact .cons (RegionKept.refl r) ih

theorem Kept.findBy (h : Kept db db') (hr : findBy name db = some r) :
    ∃ r', findBy name db' = some r' ∧ RegionKept r r' := by
  induction h with
  | nil => cases hr
  | @cons x x' db db' hx _ ih =>
    by_cases hname : x.name = name
    · have hfirst : LbIpv6.findBy name (x :: db) = some x := by simp [LbIpv6.findBy, hname]
      rw [hfirst] at hr
      cases hr
      exact ⟨x', by simp [LbIpv6.findBy, hx.1, hname], hx⟩
    · have hrest : LbIpv6.findBy name (x :: db) = LbIpv6.findBy name db := by
        simp [LbIpv6.findBy, hname]
      rw [hrest] at hr
      obtain ⟨r', hr', hkept⟩ := ih hr
      exact ⟨r', by simpa [LbIpv6.findBy, hx.1, hname] using hr', hkept⟩

theorem findBy_create (hr : findBy name db = some r) :
    findBy name (create name row db) =
      some { r with loadBalancer := r.loadBalancer.map (· ++ [row]) } := by
  induction db with
  | nil => cases hr
  | cons x db ih =>
    by_cases hname : x.name = name
    · have hfirst : findBy name (x :: db) = some x := by simp [findBy, hname]
      rw [hfirst] at hr
      cases hr
      simp [create, findBy, hname]
    · have hrest : findBy name (x :: db) = findBy name db := by simp [findBy, hname]
      rw [hrest] at hr
      simpa [create, findBy, hname] using ih hr

theorem findBy_create_ne {other : Text} (hne : other ≠ name) :
    findBy other (create name row db) = findBy other db := by
  induction db with
  | nil => rfl
  | cons x db ih =>
    by_cases hname : x.name = name
    · have hother : ¬ x.name = other := fun h => hne (h.symm.trans hname)
      simp [create, findBy, hname, Ne.symm hne]
    · by_cases hother : x.name = other
      · simp [create, findBy, hother, hne]
      · simpa [create, findBy, hname, hother] using ih

def Found (db : Db) (w : Wanted) : Prop :=
  ∃ r rows a row, findBy w.az db = some r ∧ r.loadBalancer = some rows ∧
    ipAddr w.ip = some a ∧ hit rows a = some row ∧ row.role = .pub

theorem Found.seeded (h : Found db w) : IsSeeded db w := by
  obtain ⟨r, rows, a, row, hr, hrows, ha, hhit, hrole⟩ := h
  refine ⟨r, rows, a, hr, hrows, ha, row, List.mem_of_find?_eq_some hhit, ?_, hrole⟩
  simpa using List.find?_some hhit

theorem Found.mono (h : Found db w) (hkept : Kept db db') : Found db' w := by
  obtain ⟨r, rows, a, row, hr, hrows, ha, hhit, hrole⟩ := h
  obtain ⟨r', hr', -, hlb⟩ := hkept.findBy hr
  obtain ⟨hnone, -⟩ | ⟨rows₁, added, hrows₁, hrows'⟩ := hlb
  · rw [hnone] at hrows
    cases hrows
  · rw [hrows] at hrows₁
    cases hrows₁
    refine ⟨r', rows ++ added, a, row, hr', hrows', ha, ?_, hrole⟩
    rw [hit] at hhit ⊢
    rw [List.find?_append, hhit]
    rfl

theorem Found.seed (h : Found db w) : seedAddress valid true db w = some (.ok, db) := by
  obtain ⟨r, rows, a, row, hr, hrows, ha, hhit, hrole⟩ := h
  simp [seedAddress, hr, hrows, ha, hhit, hrole]

theorem seed_spec (h : seedAddress valid true db w = some (o, db')) :
    Kept db db' ∧ o ≠ .conflict .pub ∧ (o = .create ∨ o = .ok → Found db' w) := by
  unfold seedAddress at h
  cases hr : findBy w.az db with
  | none =>
    rw [hr] at h
    cases h
    exact ⟨Kept.refl _, by simp⟩
  | some r =>
    cases hrows : r.loadBalancer with
    | none =>
      simp only [hr, hrows] at h
      cases h
      exact ⟨Kept.refl _, by simp⟩
    | some rows =>
      cases ha : ipAddr w.ip with
      | none => simp [hr, hrows, ha] at h
      | some a =>
        cases hhit : hit rows a with
        | some row =>
          simp only [hr, hrows, ha, hhit] at h
          cases h
          split_ifs with hrole
          · exact ⟨Kept.refl _, by simp, fun _ => ⟨r, rows, a, row, hr, hrows, ha, hhit, hrole⟩⟩
          · exact ⟨Kept.refl _, by simpa using hrole, by simp⟩
        | none =>
          simp only [hr, hrows, ha, hhit, Bool.not_true, Bool.false_eq_true, if_false] at h
          split_ifs at h
          cases h
          refine ⟨kept_create _ _ _, by simp, fun _ => ⟨_, rows ++ [newRow w a], a, newRow w a,
            findBy_create hr, by rw [hrows]; rfl, ha, ?_, rfl⟩⟩
          rw [hit] at hhit ⊢
          rw [List.find?_append, hhit]
          simp [newRow]

theorem each_cons (h : seedAddress valid true db w = some (o, db')) :
    eachAddress valid true db (w :: want) =
      ((w, o) :: (eachAddress valid true db' want).1, (eachAddress valid true db' want).2) := by
  rw [eachAddress, h]

/-- What the loop does. -/
theorem each_spec (h : eachAddress valid true db want = (printed, some db')) :
    printed.map Prod.fst = want ∧ Kept db db' ∧
      ∀ x ∈ printed, x.2 ≠ .conflict .pub ∧ (x.2 = .create ∨ x.2 = .ok → Found db' x.1) := by
  induction want generalizing db printed with
  | nil =>
    cases h
    exact ⟨rfl, Kept.refl _, fun x hx => absurd hx List.not_mem_nil⟩
  | cons w want ih =>
    cases hseed : seedAddress valid true db w with
    | none =>
      rw [eachAddress, hseed] at h
      cases h
    | some result =>
      obtain ⟨o, db₁⟩ := result
      rw [each_cons hseed, Prod.mk.injEq] at h
      obtain ⟨hprinted, hfinal⟩ := h
      have hrest := Prod.mk.eta (p := eachAddress valid true db₁ want)
      rw [hfinal] at hrest
      obtain ⟨hwant, hkept, hfound⟩ := ih hrest.symm
      obtain ⟨hkept₁, hrole, hfound₁⟩ := seed_spec hseed
      refine ⟨by rw [← hprinted, List.map_cons, hwant], hkept₁.trans hkept, ?_⟩
      rw [← hprinted, List.forall_mem_cons]
      exact ⟨⟨hrole, fun ho => (hfound₁ ho).mono hkept⟩, hfound⟩

theorem each_found (h : ∀ w ∈ want, Found db w) :
    eachAddress valid true db want = (want.map fun w => (w, .ok), some db) := by
  induction want with
  | nil => rfl
  | cons w want ih =>
    rw [List.forall_mem_cons] at h
    rw [each_cons h.1.seed, ih h.2]
    rfl

end Db

/-! ## Runs on clean names -/

section Runs

variable {valid : Db → Wanted → Bool} {db : Db} {want : List Wanted}
  {printed : List (Wanted × Outcome)}

/-- A run ends and prints all its lines, or raises and leaves the rows as they were. -/
theorem runner_cases (valid : Db → Wanted → Bool) (db : Db) (want : List Wanted) :
    (∃ printed db', eachAddress valid true db want = (printed, some db') ∧
      runner valid true db want = (⟨0, puts (printedLines printed)⟩, db')) ∨
    ∃ stdout, runner valid true db want = (⟨1, stdout⟩, db) := by
  unfold runner
  obtain ⟨printed, final⟩ := eachAddress valid true db want
  cases final with
  | none => exact .inr ⟨_, rfl⟩
  | some db' => exact .inl ⟨printed, db', rfl, rfl⟩

theorem passes_iff (hip : ∀ x ∈ printed, csIpv6Problem x.1.ip = none) :
    passes ⟨0, puts (printedLines printed)⟩ = true ↔
      ∀ x ∈ printed, ∀ e ∈ reads (report x.1 x.2), e.fails = false := by
  have hentries : (controllerSeedLbIpv6Result
      (stdoutLinesOf (puts (printedLines printed)))).entries =
      printed.flatMap fun x => reads (report x.1 x.2) := reads_printed hip
  simp only [passes, hentries, done_printed hip, decide_true, Bool.true_and, List.all_eq_true,
    List.mem_flatMap, Bool.not_eq_true']
  constructor
  · exact fun h x hx e he => h e ⟨x, hx, he⟩
  · rintro h e ⟨x, hx, he⟩
    exact h x hx e he

theorem Preflight.az_nodup (h : Preflight want) : (want.map Wanted.az).Nodup :=
  List.Nodup.of_map lower h.oneNode_per_az

theorem Preflight.canonical_fst (h : Preflight want) (hfst : printed.map Prod.fst = want) :
    ∀ x ∈ printed, csIpv6Problem x.1.ip = none := by
  intro x hx
  exact h.canonical x.1 (hfst ▸ List.mem_map_of_mem hx)

theorem as_reported_of_clean (hwant : Preflight want) (hclean : ∀ w ∈ want, Clean w.az) :
    AsReported valid want db := by
  obtain ⟨printed, db', heach, hrun⟩ | ⟨stdout, hrun⟩ := runner_cases valid db want
  · obtain ⟨hfst, hkept, hfound⟩ := each_spec heach
    have hip := hwant.canonical_fst hfst
    have hreads : ∀ x ∈ printed, reads (report x.1 x.2) = [entryOf x.1 x.2] := by
      intro x hx
      exact reads_report (hclean x.1 (hfst ▸ List.mem_map_of_mem hx)) (hip x hx)
    refine ⟨fun hrc => absurd rfl (hrun ▸ hrc), fun hpasses => ?_⟩
    rw [hrun] at hpasses ⊢
    have hout : ∀ x ∈ printed, x.2 = .create ∨ x.2 = .ok := by
      intro x hx
      have hfails := (passes_iff hip).mp hpasses x hx (entryOf x.1 x.2)
        (by rw [hreads x hx]; exact List.mem_singleton_self _)
      revert hfails
      cases x.2 <;> simp [Entry.fails, entryOf, kindOf]
    have hall : ∀ w ∈ want, Found db' w := by
      intro w hw
      rw [← hfst] at hw
      obtain ⟨x, hx, rfl⟩ := List.mem_map.mp hw
      exact (hfound x hx).2 (hout x hx)
    refine ⟨fun w hw => (hall w hw).seeded, fun w hw => ?_, hkept, ?_⟩
    · have hentries : ((entries ⟨0, puts (printedLines printed)⟩).map fun e => (e.az, e.ip)) =
          want.map fun w => (w.az, w.ip) := by
        rw [entries_eq, reads_printed hip, List.flatMap_congr hreads, ← List.map_eq_flatMap, ← hfst,
          List.map_map, List.map_map]
        rfl
      have hnodup : (want.map fun w => (w.az, w.ip)).Nodup := by
        refine List.Nodup.of_map Prod.fst ?_
        rw [List.map_map]
        exact hwant.az_nodup
      rw [hentries]
      exact List.count_eq_one_of_mem hnodup (List.mem_map_of_mem hw)
    · unfold runner
      rw [each_found hall]
      simp [Function.comp_def]
  · refine ⟨fun _ => by rw [hrun], fun hpasses => ?_⟩
    rw [hrun] at hpasses
    cases hpasses

end Runs

/-! ## A controller for every outcome -/

section Outcomes

variable {db : Db} {want : List Wanted} {w : Wanted} {o : Outcome}

def always (_ : Db) (_ : Wanted) : Bool := true

/-- What the controller has where the outcome for the address is the given one. -/
def regionFor (w : Wanted) : Outcome → Option RegionRow
  | .create => some ⟨w.az, some []⟩
  | .ok => some ⟨w.az, some [⟨ipAddr w.ip, .pub, []⟩]⟩
  | .conflict role => some ⟨w.az, some [⟨ipAddr w.ip, role, []⟩]⟩
  | .noregion => none
  | .nolb => some ⟨w.az, none⟩

theorem regionFor_name {r : RegionRow} (h : regionFor w o = some r) : r.name = w.az := by
  cases o <;> cases h <;> rfl

theorem seed_region (hip : csIpv6Problem w.ip = none) (ho : o ≠ .conflict .pub)
    (hr : findBy w.az db = regionFor w o) :
    ∃ db', seedAddress always true db w = some (o, db') ∧
      ∀ name, name ≠ w.az → findBy name db' = findBy name db := by
  obtain ⟨⟨ip, hread⟩, -⟩ := of_noProblem hip
  have ha : ipAddr w.ip = some ⟨.ipv6, ip⟩ := by rw [ipAddr, hread]; rfl
  unfold seedAddress
  rw [hr]
  cases o with
  | create =>
    refine ⟨_, by simp [regionFor, ha, hit, always]; rfl, fun name hne => findBy_create_ne hne⟩
  | ok => exact ⟨db, by simp [regionFor, ha, hit], fun _ _ => rfl⟩
  | conflict role =>
    refine ⟨db, ?_, fun _ _ => rfl⟩
    have hrole : role ≠ .pub := fun h => ho (h ▸ rfl)
    simp [regionFor, ha, hit, hrole]
  | noregion => exact ⟨db, rfl, fun _ _ => rfl⟩
  | nolb => exact ⟨db, rfl, fun _ _ => rfl⟩

theorem each_regions {outcome : Wanted → Outcome} (hnodup : (want.map Wanted.az).Nodup)
    (hip : ∀ w ∈ want, csIpv6Problem w.ip = none) (ho : ∀ w ∈ want, outcome w ≠ .conflict .pub)
    (hr : ∀ w ∈ want, findBy w.az db = regionFor w (outcome w)) :
    ∃ db', eachAddress always true db want = (want.map fun w => (w, outcome w), some db') := by
  induction want generalizing db with
  | nil => exact ⟨db, rfl⟩
  | cons w want ih =>
    rw [List.forall_mem_cons] at hip ho hr
    rw [List.map_cons, List.nodup_cons] at hnodup
    obtain ⟨db₁, hseed, hframe⟩ := seed_region hip.1 ho.1 hr.1
    have hr₁ : ∀ v ∈ want, findBy v.az db₁ = regionFor v (outcome v) := by
      intro v hv
      have hne : v.az ≠ w.az := fun h => hnodup.1 (h ▸ List.mem_map_of_mem hv)
      rw [hframe v.az hne, hr.2 v hv]
    obtain ⟨db', hrest⟩ := ih hnodup.2 hip.2 ho.2 hr₁
    exact ⟨db', by rw [each_cons hseed, hrest]; rfl⟩

def regions (outcome : Wanted → Outcome) (want : List Wanted) : Db :=
  want.filterMap fun w => regionFor w (outcome w)

theorem findBy_regions_none {outcome : Wanted → Outcome} {name : Text}
    (hname : name ∉ want.map Wanted.az) : findBy name (regions outcome want) = none := by
  rw [findBy, List.find?_eq_none]
  intro r hr
  obtain ⟨w, hw, hregion⟩ := List.mem_filterMap.mp hr
  rw [regionFor_name hregion, decide_eq_true_eq]
  exact fun h => hname (h ▸ List.mem_map_of_mem hw)

theorem findBy_regions {outcome : Wanted → Outcome} (hnodup : (want.map Wanted.az).Nodup)
    (hw : w ∈ want) : findBy w.az (regions outcome want) = regionFor w (outcome w) := by
  induction want with
  | nil => cases hw
  | cons v want ih =>
    rw [List.map_cons, List.nodup_cons] at hnodup
    rw [regions, List.filterMap_cons]
    cases hregion : regionFor v (outcome v) with
    | none =>
      obtain rfl | hw := List.mem_cons.mp hw
      · rw [hregion]
        exact findBy_regions_none hnodup.1
      · exact ih hnodup.2 hw
    | some r =>
      have hname := regionFor_name hregion
      obtain rfl | hw := List.mem_cons.mp hw
      · rw [hregion]
        simp [findBy, hname]
      · have hne : ¬ v.az = w.az := fun h => hnodup.1 (h ▸ List.mem_map_of_mem hw)
        have hrest : findBy w.az (r :: regions outcome want) =
            findBy w.az (regions outcome want) := by
          simp [findBy, hname, hne]
        exact hrest.trans (ih hnodup.2 hw)

/-- Whatever the runs on all the controllers say is so exactly when every name
stays inside its field, or one of them keeps every run from passing. -/
theorem seeding_as_reported_iff (hwant : Preflight want) :
    (∀ valid db, AsReported valid want db) ↔
      (∀ w ∈ want, Clean w.az) ∨ ∃ w ∈ want, Blocked w := by
  constructor
  · intro hall
    by_contra hneither
    rw [not_or] at hneither
    obtain ⟨hunclean, hblocked⟩ := hneither
    obtain ⟨w, hw, hunclean⟩ : ∃ w ∈ want, ¬ Clean w.az := by
      simpa only [not_forall, exists_prop] using hunclean
    have houtcome : ∀ w, ∃ o : Outcome, w ∈ want →
        o ≠ .conflict .pub ∧ ∀ e ∈ reads (report w o), e.fails = false := by
      intro v
      by_cases hv : v ∈ want
      · have hnot : ¬ Blocked v := fun h => hblocked ⟨v, hv, h⟩
        simp only [Blocked, not_forall, not_exists, not_and, Bool.not_eq_true] at hnot
        obtain ⟨o, ho, hreads⟩ := hnot
        exact ⟨o, fun _ => ⟨ho, hreads⟩⟩
      · exact ⟨.ok, fun h => absurd h hv⟩
    choose outcome houtcome using houtcome
    obtain ⟨db', heach⟩ := each_regions hwant.az_nodup hwant.canonical
      (fun v hv => (houtcome v hv).1) fun v hv => findBy_regions hwant.az_nodup hv
    have hrun : runner always true (regions outcome want) want =
        (⟨0, puts (printedLines (want.map fun w => (w, outcome w)))⟩, db') := by
      unfold runner
      rw [heach]
      rfl
    have hip := @Preflight.canonical_fst want (want.map fun w => (w, outcome w)) hwant
      (by simp [Function.comp_def])
    have hpasses : passes ⟨0, puts (printedLines (want.map fun w => (w, outcome w)))⟩ = true := by
      rw [passes_iff hip]
      intro x hx
      obtain ⟨v, hv, rfl⟩ := List.mem_map.mp hx
      exact (houtcome v hv).2
    have hseeded := (hall always (regions outcome want)).seeded
    rw [hrun] at hseeded
    obtain ⟨-, hcount, -⟩ := hseeded hpasses
    have hmem : (w.az, w.ip) ∈ (entries ⟨0, puts (printedLines
        (want.map fun w => (w, outcome w)))⟩).map fun e => (e.az, e.ip) := by
      rw [← List.count_pos_iff, hcount w hw]
      exact Nat.one_pos
    obtain ⟨e, he, heq⟩ := List.mem_map.mp hmem
    have haz : e.az = w.az := congrArg Prod.fst heq
    exact hunclean (haz ▸ clean_of_mem_reads he)
  · rintro (hclean | ⟨w, hw, hblocked⟩) valid db
    · exact as_reported_of_clean hwant hclean
    · obtain ⟨printed, db', heach, hrun⟩ | ⟨stdout, hrun⟩ := runner_cases valid db want
      · refine ⟨fun hrc => absurd rfl (hrun ▸ hrc), fun hpasses => ?_⟩
        obtain ⟨hfst, -, hout⟩ := each_spec heach
        rw [← hfst] at hw
        obtain ⟨x, hx, rfl⟩ := List.mem_map.mp hw
        obtain ⟨e, he, hfails⟩ := hblocked x.2 (hout x hx).1
        rw [hrun] at hpasses
        have hnot := (passes_iff (hwant.canonical_fst hfst)).mp hpasses x hx e he
        rw [hfails] at hnot
        cases hnot
      · refine ⟨fun _ => by rw [hrun], fun hpasses => ?_⟩
        rw [hrun] at hpasses
        cases hpasses

end Outcomes

/-! ## A conflict that no line reports -/

def exm061 (az : Text) : List Wanted := [⟨az, "2001:db8::161"⟩]

def proxied (az : Text) : Db := [⟨az, some [⟨ipAddr "2001:db8::161", .proxy, []⟩]⟩]

theorem preflight_exm061 (az : Text) : Preflight (exm061 az) where
  oneNode_per_az := List.nodup_singleton _
  canonical := by
    have hip : csIpv6Problem "2001:db8::161" = none := by decide
    intro w hw
    rw [List.mem_singleton.mp hw]
    exact hip

def exmZones : List Wanted :=
  [⟨"exm-061", "2001:db8::161"⟩, ⟨"EXM 062", "2001:db8::162"⟩, ⟨"exm,063", "2001:db8:63::1"⟩]

theorem seeding_as_reported_exm_zones : AsReported always exmZones (proxied "exm-061") :=
  (seeding_as_reported_iff (⟨by decide, by decide⟩ : Preflight exmZones)).mpr (.inl (by decide)) _ _

/-- The line of a zone called `exm|061` has a field too many: the run passes,
and the address is not a public one. -/
theorem conflict_unread : Preflight (exm061 "exm|061") ∧
    ¬ AsReported always (exm061 "exm|061") (proxied "exm|061") := by
  refine ⟨preflight_exm061 _, fun h => ?_⟩
  have hpasses : passes (runner always true (proxied "exm|061") (exm061 "exm|061")).1 = true := by
    decide
  have hdb : (runner always true (proxied "exm|061") (exm061 "exm|061")).2 =
      proxied "exm|061" := by decide
  have hseeded := (h.seeded hpasses).1 _ (List.mem_singleton_self _)
  rw [hdb] at hseeded
  obtain ⟨r, rows, a, hr, hrows, -, row, hrow, -, hrole⟩ := hseeded
  have hfind : findBy "exm|061" (proxied "exm|061") =
      some ⟨"exm|061", some [⟨ipAddr "2001:db8::161", .proxy, []⟩]⟩ := by decide
  rw [hfind] at hr
  cases hr
  cases hrows
  rw [List.mem_singleton.mp hrow] at hrole
  cases hrole

end Provisioner.ControllerSeed.LbIpv6
