import Mathlib.Data.List.DropRight
import Mathlib.Data.List.Forall2
import Provisioner.ControllerSeed.Preview
import Provisioner.Library.Words

/-!
# What a fingerprint forgets

Two previews have one fingerprint exactly when they differ in nothing but the
ids that a rolled back transaction does not give back.
-/

namespace Provisioner.ControllerSeed.Fingerprint

open Text

/-! ## Ids -/

def IsId (t : Text) : Prop := t = idPlaceholder ∨ t ≠ [] ∧ ∀ c ∈ t, isDecimal c = true

/-- What stands before the id of a row that the apply may have created: the
manifest's side of an attribute `*_id`, or the driver of a link. -/
inductive IdHead : Text → Prop where
  | diff (name value : Text) : name ≠ [] → (∀ c ∈ name, isNameChar c = true) →
      IdHead (List.replicate 13 ' ' ++ name ++ ("_id: " : Text) ++ value ++ (" → " : Text))
  | drift (name value : Text) : name ≠ [] → (∀ c ∈ name, isNameChar c = true) →
      IdHead (List.replicate 13 ' ' ++ name ++ ("_id: database " : Text) ++ value ++
        (", manifest " : Text))
  | link (value : Text) :
      IdHead (("  [link  ] " : Text) ++ value ++ (" → ProvisionDriver #" : Text))

inductive SameButId : Text → Text → Prop where
  | same (line : Text) : SameButId line line
  | ids (head a b : Text) : IdHead head → IsId a → IsId b → SameButId (head ++ a) (head ++ b)

/-- The lines of a preview without carriage returns at their ends and without
log lines. -/
def recorded (output : List Text) : List Text :=
  (output.map (rstripChar '\r')).filter fun line => !isLogLine line

def isIdHead (kept : Text) : Bool := diffId kept || driftId kept || linkDriver kept

theorem idHead_iff {after stop kept : Text} : idHead after stop kept = true ↔
    ∃ name value, name ≠ [] ∧ (∀ c ∈ name, isNameChar c = true) ∧
      kept = List.replicate 13 ' ' ++
        ((name ++ ("_id" : Text)) ++ (((": " : Text) ++ after) ++ (value ++ stop))) := by
  unfold idHead startswith endswith
  simp only [Bool.and_eq_true, List.isPrefixOf_iff_prefix, List.isSuffixOf_iff_suffix,
    decide_eq_true_eq]
  constructor
  · rintro ⟨⟨⟨⟨⟨line, rfl⟩, hlength⟩, hname⟩, hafter⟩, hstop⟩
    have hline : (List.replicate 13 ' ' ++ line).drop 13 = line := List.drop_left' rfl
    rw [hline] at hlength hname hafter hstop
    have hrest : line.drop (line.takeWhile isNameChar).length = line.dropWhile isNameChar := by
      have hsplit := congrArg (List.drop (line.takeWhile isNameChar).length)
        (List.takeWhile_append_dropWhile (p := isNameChar) (l := line))
      rw [List.drop_left] at hsplit
      exact hsplit.symm
    rw [← List.drop_drop, hline, hrest] at hafter hstop
    obtain ⟨value, hvalue⟩ := hafter
    rw [← hvalue, List.drop_left] at hstop
    obtain ⟨value', rfl⟩ := hstop
    obtain ⟨name, hname⟩ := hname
    refine ⟨name, value', ?_, fun c hc => ?_, ?_⟩
    · rintro rfl
      rw [← hname] at hlength
      exact absurd hlength (by decide)
    · refine List.mem_takeWhile_imp (l := line) ?_
      rw [← hname]
      exact List.mem_append_left _ hc
    · rw [hname, hvalue, List.takeWhile_append_dropWhile]
  · rintro ⟨name, value, hne, hchars, rfl⟩
    have hline : ∀ t : Text, (List.replicate 13 ' ' ++ t).drop 13 = t := fun t =>
      List.drop_left' rfl
    have hnames : ∀ c ∈ name ++ ("_id" : Text), isNameChar c = true := by
      intro c hc
      rcases List.mem_append.mp hc with hc | hc
      · exact hchars c hc
      · have hid : ∀ d ∈ ("_id" : Text), isNameChar d = true := by decide
        exact hid c hc
    have htake : ((name ++ ("_id" : Text)) ++ (((": " : Text) ++ after) ++ (value ++ stop))).takeWhile
        isNameChar = name ++ ("_id" : Text) := by
      rw [List.takeWhile_append_of_pos hnames]
      have hcolon : (((": " : Text) ++ after) ++ (value ++ stop)).takeWhile isNameChar = [] := by
        change List.takeWhile isNameChar (':' :: _) = []
        exact List.takeWhile_cons_of_neg (by decide)
      rw [hcolon, List.append_nil]
    have hpositive : 0 < name.length := List.length_pos_iff.mpr hne
    rw [← List.drop_drop, hline, htake, List.drop_left, List.drop_left]
    refine ⟨⟨⟨⟨⟨_, rfl⟩, ?_⟩, name, rfl⟩, _, rfl⟩, value, rfl⟩
    rw [List.length_append]
    change 3 < name.length + 3
    omega

theorem linkDriver_iff {kept : Text} : linkDriver kept = true ↔
    ∃ value, kept = ("  [link  ] " : Text) ++ value ++ (" → ProvisionDriver #" : Text) := by
  unfold linkDriver startswith endswith
  rw [Bool.and_eq_true, List.isPrefixOf_iff_prefix, List.isSuffixOf_iff_suffix]
  constructor
  · rintro ⟨⟨rest, rfl⟩, value, hvalue⟩
    rw [List.drop_left] at hvalue
    exact ⟨value, by rw [← hvalue, List.append_assoc]⟩
  · rintro ⟨value, rfl⟩
    rw [List.append_assoc, List.drop_left]
    exact ⟨⟨_, rfl⟩, value, rfl⟩

theorem isIdHead_iff {kept : Text} : isIdHead kept = true ↔ IdHead kept := by
  rw [isIdHead, Bool.or_eq_true, Bool.or_eq_true, diffId, driftId, idHead_iff, idHead_iff,
    linkDriver_iff]
  constructor
  · rintro ((⟨name, value, hne, hchars, rfl⟩ | ⟨name, value, hne, hchars, rfl⟩) | ⟨value, rfl⟩)
    · have hhead := IdHead.diff name value hne hchars
      simpa using hhead
    · have hhead := IdHead.drift name value hne hchars
      simpa using hhead
    · exact .link value
  · intro hhead
    cases hhead with
    | diff name value hne hchars => exact .inl (.inl ⟨name, value, hne, hchars, by simp⟩)
    | drift name value hne hchars => exact .inl (.inr ⟨name, value, hne, hchars, by simp⟩)
    | link value => exact .inr ⟨value, rfl⟩

/-! ## One line -/

theorem forgetId_split (head : Text → Bool) {kept digits : Text}
    (hkept : ∀ c ∈ kept.getLast?, isDecimal c = false) (hdigits : ∀ c ∈ digits, isDecimal c = true) :
    forgetId head (kept ++ digits) =
      if !digits.isEmpty && head kept then kept ++ idPlaceholder else kept ++ digits := by
  have hlast : kept.reverse.takeWhile isDecimal = [] := by
    cases hr : kept.reverse with
    | nil => rfl
    | cons c rest =>
      refine List.takeWhile_cons_of_neg ?_
      have hc : c ∈ kept.getLast? := by
        rw [← List.head?_reverse, hr]
        rfl
      rw [hkept c hc]
      exact Bool.false_ne_true
  have htake : ((kept ++ digits).reverse.takeWhile isDecimal).reverse = digits := by
    rw [List.reverse_append, List.takeWhile_append_of_pos fun c hc => hdigits c (List.mem_reverse.mp hc),
      hlast, List.append_nil, List.reverse_reverse]
  rw [forgetId, htake]
  have hlength : (kept ++ digits).take ((kept ++ digits).length - digits.length) = kept := by
    rw [List.length_append, Nat.add_sub_cancel]
    exact List.take_left
  simp only [hlength]

theorem split_digits (line : Text) : ∃ kept digits, line = kept ++ digits ∧
    (∀ c ∈ kept.getLast?, isDecimal c = false) ∧ ∀ c ∈ digits, isDecimal c = true := by
  refine ⟨line.rdropWhile isDecimal, line.rtakeWhile isDecimal,
    List.rdropWhile_append_rtakeWhile.symm, fun c hc => ?_, fun c hc => List.mem_rtakeWhile_imp hc⟩
  obtain ⟨hne, hlast⟩ := List.mem_getLast?_eq_getLast hc
  rw [hlast]
  simpa using List.rdropWhile_last_not isDecimal line hne

theorem getLast_idHead {kept : Text} (hkept : isIdHead kept = true) :
    ∀ c ∈ kept.getLast?, isDecimal c = false := by
  have hstop : ∀ (front : Text) {stop : Text}, (∃ d ∈ stop.getLast?, isDecimal d = false) →
      ∀ c ∈ (front ++ stop).getLast?, isDecimal c = false := by
    rintro front stop ⟨d, hd, hdecimal⟩ c hc
    rw [List.getLast?_append, Option.mem_def.mp hd, Option.some_or] at hc
    cases hc
    exact hdecimal
  cases isIdHead_iff.mp hkept with
  | diff name value hne hchars => exact hstop _ ⟨' ', by decide, by decide⟩
  | drift name value hne hchars => exact hstop _ ⟨' ', by decide, by decide⟩
  | link value => exact hstop _ ⟨'#', by decide, by decide⟩

theorem forgetId_placeholder (head : Text → Bool) (kept : Text) :
    forgetId head (kept ++ idPlaceholder) = kept ++ idPlaceholder := by
  have hlast : ∀ c ∈ (kept ++ idPlaceholder).getLast?, isDecimal c = false := by
    intro c hc
    have hmark : idPlaceholder.getLast? = some '>' := by decide
    rw [List.getLast?_append, hmark, Option.some_or] at hc
    cases hc
    decide
  have hnone : ∀ c ∈ ([] : Text), isDecimal c = true := fun c hc => by cases hc
  have hsplit := forgetId_split head hlast hnone
  simpa using hsplit

theorem normalizeLine_eq (line : Text) : normalizeLine line = forgetId isIdHead line := by
  obtain ⟨kept, digits, rfl, hkept, hdigits⟩ := split_digits line
  have hsplit := fun head => forgetId_split head hkept hdigits
  rw [normalizeLine, hsplit isIdHead, isIdHead, hsplit diffId]
  cases hempty : digits.isEmpty with
  | true => simp only [Bool.not_true, Bool.false_and, Bool.false_eq_true, if_false, hsplit, hempty]
  | false =>
    cases hdiff : diffId kept with
    | true =>
      simp only [Bool.not_false, Bool.true_and, Bool.true_or, if_true, forgetId_placeholder]
    | false =>
      cases hdrift : driftId kept with
      | true =>
        simp only [Bool.not_false, Bool.true_and, Bool.true_or, Bool.or_true, if_true,
          Bool.false_eq_true, if_false, hsplit, hempty, hdrift, forgetId_placeholder]
      | false =>
        simp only [Bool.not_false, Bool.true_and, Bool.false_or, Bool.false_eq_true, if_false,
          hsplit, hempty, hdrift]

theorem normalizeLine_ids {head t : Text} (hhead : IdHead head) (ht : IsId t) :
    normalizeLine (head ++ t) = head ++ idPlaceholder := by
  have hkept := isIdHead_iff.mpr hhead
  rw [normalizeLine_eq]
  rcases ht with rfl | ⟨hne, hdigits⟩
  · exact forgetId_placeholder isIdHead head
  · have hempty : t.isEmpty = false := by simpa using hne
    rw [forgetId_split isIdHead (getLast_idHead hkept) hdigits, hempty, hkept]
    rfl

theorem normalizeLine_cases (line : Text) : normalizeLine line = line ∨
    ∃ head digits, line = head ++ digits ∧ IdHead head ∧ IsId digits ∧
      normalizeLine line = head ++ idPlaceholder := by
  obtain ⟨kept, digits, rfl, hkept, hdigits⟩ := split_digits line
  have hsplit := forgetId_split isIdHead hkept hdigits
  rw [normalizeLine_eq, hsplit]
  split
  · rename_i hhead
    rw [Bool.and_eq_true, Bool.not_eq_true', List.isEmpty_eq_false_iff] at hhead
    right
    exact ⟨kept, digits, rfl, isIdHead_iff.mp hhead.2, .inr ⟨hhead.1, hdigits⟩, rfl⟩
  · left
    rfl

/-- Two lines are normalized to one exactly when they differ in an id at most. -/
theorem normalizeLine_eq_iff (a b : Text) :
    normalizeLine a = normalizeLine b ↔ SameButId a b := by
  constructor
  · intro hsame
    rcases normalizeLine_cases a with ha | ⟨head, digits, rfl, hhead, hdigits, ha⟩
    · rcases normalizeLine_cases b with hb | ⟨head', digits', rfl, hhead', hdigits', hb⟩
      · rw [ha, hb] at hsame
        rw [hsame]
        exact .same b
      · rw [ha, hb] at hsame
        rw [hsame]
        exact .ids head' _ _ hhead' (.inl rfl) hdigits'
    · rcases normalizeLine_cases b with hb | ⟨head', digits', rfl, hhead', hdigits', hb⟩
      · rw [ha, hb] at hsame
        rw [← hsame]
        exact .ids head _ _ hhead hdigits (.inl rfl)
      · rw [ha, hb] at hsame
        rw [List.append_cancel_right hsame]
        exact .ids head' _ _ hhead' hdigits hdigits'
  · rintro hsame
    cases hsame with
    | same => rfl
    | ids head a b hhead ha hb => rw [normalizeLine_ids hhead ha, normalizeLine_ids hhead hb]

/-! ## The whole preview -/

theorem normalize_eq (output : List Text) :
    controllerSeedPreviewNormalize output = (recorded output).map normalizeLine := rfl

theorem map_eq_map_iff {f : Text → Text} {as bs : List Text} :
    as.map f = bs.map f ↔ List.Forall₂ (fun a b => f a = f b) as bs := by
  rw [← List.forall₂_eq_eq_eq, List.forall₂_map_left_iff, List.forall₂_map_right_iff]

theorem document_injective {as bs : List Text} (has : ∀ line ∈ as, '\n' ∉ line)
    (hbs : ∀ line ∈ bs, '\n' ∉ line) (hsame : document as = document bs) : as = bs := by
  have hlines : ∀ lines : List Text, (∀ line ∈ lines, '\n' ∉ line) →
      (document lines).splitOnP (· == '\n') = lines ++ [[]] := by
    intro lines hlines
    induction lines with
    | nil => rfl
    | cons line lines ih =>
      obtain ⟨hline, hlines⟩ := List.forall_mem_cons.mp hlines
      have hwhole : line.splitOnP (· == '\n') = [line] := by
        refine List.splitOnP_eq_singleton fun c hc => ?_
        have hne : c ≠ '\n' := by
          rintro rfl
          exact hline hc
        simpa using hne
      have hcons : document (line :: lines) = line ++ '\n' :: document lines := by
        rw [document, List.flatMap_cons, List.append_assoc]
        rfl
      rw [hcons, List.splitOnP_append_cons _ _ (by decide), hwhole, ih hlines]
      rfl
  have hsplit := hlines as has
  rw [hsame, hlines bs hbs] at hsplit
  exact (List.append_cancel_right hsplit).symm

theorem not_mem_normalizeLine {line : Text} (hline : '\n' ∉ line) : '\n' ∉ normalizeLine line := by
  rcases normalizeLine_cases line with hsame | ⟨head, digits, rfl, -, -, hforgot⟩
  · rwa [hsame]
  · rw [hforgot, List.mem_append, not_or]
    exact ⟨fun hmem => hline (List.mem_append_left _ hmem), by decide⟩

theorem not_mem_normalize {output : List Text} (houtput : ∀ line ∈ output, '\n' ∉ line) :
    ∀ line ∈ controllerSeedPreviewNormalize output, '\n' ∉ line := by
  intro line hline
  obtain ⟨kept, hkept, rfl⟩ := List.mem_map.mp hline
  obtain ⟨whole, hwhole, rfl⟩ := List.mem_map.mp (List.mem_filter.mp hkept).1
  refine not_mem_normalizeLine fun hmem => houtput whole hwhole ?_
  exact (List.rdropWhile_prefix _ whole).subset hmem

theorem idHead_cons {head : Text} (hhead : IdHead head) : ∃ rest, head = ' ' :: rest := by
  cases hhead <;> exact ⟨_, rfl⟩

theorem not_log_line (t : Text) : isLogLine (' ' :: t) = false := by
  have hletters : ∀ level ∈ logLevels, startswith (' ' :: t) level = false := by
    intro level hlevel
    have hhead : level.head? ≠ some ' ' ∧ level ≠ [] := by
      revert level
      decide
    cases level with
    | nil => exact absurd rfl hhead.2
    | cons c rest =>
      have hne : c ≠ ' ' := fun heq => hhead.1 (by rw [heq]; rfl)
      simp [startswith, List.isPrefixOf, hne]
  have hnone : logLevels.find? (fun level => startswith (dropColor (' ' :: t)) level) = none := by
    rw [List.find?_eq_none]
    intro level hlevel
    change ¬ startswith (' ' :: t) level = true
    rw [hletters level hlevel]
    exact Bool.false_ne_true
  unfold isLogLine
  dsimp only
  rw [hnone]

theorem rstrip_return {line : Text} (hline : ∀ c ∈ line.getLast?, c ≠ '\r') :
    rstripChar '\r' line = line := by
  cases hr : line.reverse with
  | nil =>
    rw [List.reverse_eq_nil_iff] at hr
    rw [hr]
    rfl
  | cons c rest =>
    have hc : c ∈ line.getLast? := by
      rw [← List.head?_reverse, hr]
      rfl
    rw [rstripChar, hr, List.dropWhile_cons_of_neg (by simpa using hline c hc), ← hr,
      List.reverse_reverse]

/-- Normalizing is done once and for all. -/
theorem normalize_normalize (output : List Text) :
    controllerSeedPreviewNormalize (controllerSeedPreviewNormalize output) =
      controllerSeedPreviewNormalize output := by
  have hrecorded : recorded (controllerSeedPreviewNormalize output) =
      controllerSeedPreviewNormalize output := by
    have hkept : ∀ line ∈ controllerSeedPreviewNormalize output,
        rstripChar '\r' line = line ∧ isLogLine line = false := by
      intro line hline
      obtain ⟨kept, hkept, rfl⟩ := List.mem_map.mp hline
      obtain ⟨hmem, hlog⟩ := List.mem_filter.mp hkept
      rcases normalizeLine_cases kept with hsame | ⟨head, digits, rfl, hhead, -, hforgot⟩
      · obtain ⟨whole, -, rfl⟩ := List.mem_map.mp hmem
        rw [hsame]
        exact ⟨List.rdropWhile_idempotent _ whole, by simpa using hlog⟩
      · obtain ⟨rest, rfl⟩ := idHead_cons hhead
        rw [hforgot]
        refine ⟨rstrip_return fun c hc => ?_, not_log_line _⟩
        have hmark : idPlaceholder.getLast? = some '>' := by decide
        rw [List.getLast?_append, hmark, Option.some_or] at hc
        cases hc
        decide
    have hstripped : (controllerSeedPreviewNormalize output).map (rstripChar '\r') =
        controllerSeedPreviewNormalize output := by
      conv_rhs => rw [← List.map_id (controllerSeedPreviewNormalize output)]
      exact List.map_congr_left fun line hline => (hkept line hline).1
    rw [recorded, hstripped, List.filter_eq_self]
    intro line hline
    rw [(hkept line hline).2]
    rfl
  have htwice : ∀ line, normalizeLine (normalizeLine line) = normalizeLine line := by
    intro line
    rcases normalizeLine_cases line with hsame | ⟨head, digits, rfl, hhead, -, hforgot⟩
    · rw [hsame, hsame]
    · rw [hforgot, normalizeLine_ids hhead (.inl rfl)]
  rw [normalize_eq, hrecorded, normalize_eq, List.map_map]
  refine List.map_congr_left fun line _ => ?_
  rw [Function.comp_apply, htwice]

def NonBlank (output : List Text) : Prop := ∃ line ∈ recorded output, strip line ≠ []

theorem sha256_of_nonblank (sha256 : Text → Text) {output : List Text} (houtput : NonBlank output) :
    controllerSeedPreviewSha256 sha256 output =
      some (sha256 (document (controllerSeedPreviewNormalize output))) := by
  obtain ⟨line, hline, hstrip⟩ := houtput
  have hleft : strip (normalizeLine line) ≠ [] := by
    rcases normalizeLine_cases line with hsame | ⟨head, digits, rfl, -, -, hforgot⟩
    · rwa [hsame]
    · rw [hforgot]
      exact strip_ne_nil (c := '<') (List.mem_append_right _ (by decide)) (by decide)
  have hempty : (strip (normalizeLine line)).isEmpty = false := by simpa using hleft
  have hany : (controllerSeedPreviewNormalize output).any (fun line => !line.strip.isEmpty) =
      true := by
    have hmem : normalizeLine line ∈ (recorded output).map normalizeLine :=
      List.mem_map_of_mem hline
    rw [List.any_eq_true, normalize_eq]
    exact ⟨normalizeLine line, hmem, by rw [hempty]; rfl⟩
  unfold controllerSeedPreviewSha256
  dsimp only
  rw [hany]
  rfl

/-- A fingerprint forgets the ids of rows that an apply may create, and nothing
else. -/
theorem fingerprint_forgets {sha256 : Text → Text} (hsha : Function.Injective sha256)
    {a b : List Text} (ha : NonBlank a) (hb : NonBlank b) (hlines : ∀ line ∈ a, '\n' ∉ line)
    (hlines' : ∀ line ∈ b, '\n' ∉ line) :
    ((∃ f, controllerSeedPreviewSha256 sha256 a = some f ∧
        controllerSeedPreviewSha256 sha256 b = some f) ↔
      List.Forall₂ SameButId (recorded a) (recorded b)) ∧
    controllerSeedPreviewNormalize (controllerSeedPreviewNormalize a) =
      controllerSeedPreviewNormalize a := by
  refine ⟨?_, normalize_normalize a⟩
  rw [sha256_of_nonblank sha256 ha, sha256_of_nonblank sha256 hb]
  have hforgot : controllerSeedPreviewNormalize a = controllerSeedPreviewNormalize b ↔
      List.Forall₂ SameButId (recorded a) (recorded b) := by
    rw [normalize_eq, normalize_eq, map_eq_map_iff]
    simp only [normalizeLine_eq_iff]
  rw [← hforgot]
  constructor
  · rintro ⟨f, hfa, hfb⟩
    have hdocument := hsha ((Option.some.inj hfa).trans (Option.some.inj hfb).symm)
    exact document_injective (not_mem_normalize hlines) (not_mem_normalize hlines') hdocument
  · intro hsame
    rw [hsame]
    exact ⟨_, rfl, rfl⟩

def reviewed : List Text := ["             primary_id: 3 → 41", "5 created"]

def applied : List Text :=
  ["             primary_id: 3 → 17", "INFO 2026-10-15T20:08:48Z pid=1: Sidekiq", "5 created"]

theorem fingerprint_forgets_id :
    ((∃ f, controllerSeedPreviewSha256 id reviewed = some f ∧
        controllerSeedPreviewSha256 id applied = some f) ↔
      List.Forall₂ SameButId (recorded reviewed) (recorded applied)) ∧
    controllerSeedPreviewNormalize (controllerSeedPreviewNormalize reviewed) =
      controllerSeedPreviewNormalize reviewed :=
  fingerprint_forgets Function.injective_id
    ⟨"5 created", by decide, by decide⟩
    ⟨"5 created", by decide, by decide⟩ (by decide) (by decide)

end Provisioner.ControllerSeed.Fingerprint
