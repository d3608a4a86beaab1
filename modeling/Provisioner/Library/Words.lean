import Provisioner.Library.Text
import Mathlib.Data.List.TakeWhile

/-!
# Case, words and numbers

Facts about texts that are read back after they were printed: changing case,
cutting a line into its fields, and decimal numbers.
-/

namespace Provisioner.Text

theorem toNat_toLower (c : Char) :
    c.toLower.toNat = if 65 ≤ c.toNat ∧ c.toNat ≤ 90 then c.toNat + 32 else c.toNat := by
  unfold Char.toLower
  by_cases h : c.val ≥ 'A'.val ∧ c.val ≤ 'Z'.val
  · have hnat : 65 ≤ c.toNat ∧ c.toNat ≤ 90 := h
    rw [dif_pos h, if_pos hnat]
    show (c.val + 32).toNat = c.val.toNat + 32
    rw [UInt32.toNat_add]
    have hle : c.val.toNat ≤ 90 := hnat.2
    exact Nat.mod_eq_of_lt (show c.val.toNat + 32 < 2 ^ 32 by omega)
  · rw [dif_neg h, if_neg (show ¬ (65 ≤ c.toNat ∧ c.toNat ≤ 90) from h)]

theorem toNat_toUpper (c : Char) :
    c.toUpper.toNat = if 97 ≤ c.toNat ∧ c.toNat ≤ 122 then c.toNat - 32 else c.toNat := by
  unfold Char.toUpper
  by_cases h : c.val ≥ 'a'.val ∧ c.val ≤ 'z'.val
  · have hnat : 97 ≤ c.toNat ∧ c.toNat ≤ 122 := h
    rw [dif_pos h, if_pos hnat]
    show (c.val + 4294967264).toNat = c.val.toNat - 32
    rw [UInt32.toNat_add]
    have hle : 97 ≤ c.val.toNat ∧ c.val.toNat ≤ 122 := hnat
    show (c.val.toNat + 4294967264) % 2 ^ 32 = c.val.toNat - 32
    omega
  · rw [dif_neg h, if_neg (show ¬ (97 ≤ c.toNat ∧ c.toNat ≤ 122) from h)]

theorem toLower_eq_self {c : Char} (h : ¬ (65 ≤ c.toNat ∧ c.toNat ≤ 90)) : c.toLower = c := by
  rw [← Char.toNat_inj, toNat_toLower, if_neg h]

theorem lowerAscii_eq_self {t : Text} (h : ∀ c ∈ t, ¬ (65 ≤ c.toNat ∧ c.toNat ≤ 90)) :
    lowerAscii t = t := by
  have hmap : t.map Char.toLower = t.map id :=
    List.map_congr_left fun c hc => toLower_eq_self (h c hc)
  rw [lowerAscii, hmap, List.map_id]

theorem upper_inj_of_lowerAscii {a b : Text} (h : lowerAscii (upper a) = lowerAscii (upper b)) :
    upper a = upper b := by
  have hchar : ∀ c d : Char, c.toUpper.toLower = d.toUpper.toLower → c.toUpper = d.toUpper := by
    intro c d hcd
    have hnat := congrArg Char.toNat hcd
    rw [← Char.toNat_inj]
    simp only [toNat_toLower, toNat_toUpper] at hnat ⊢
    split_ifs at hnat ⊢ <;> omega
  induction a generalizing b with
  | nil =>
    cases b with
    | nil => rfl
    | cons d b => cases h
  | cons c a ih =>
    cases b with
    | nil => cases h
    | cons d b =>
      obtain ⟨hhead, htail⟩ := List.cons.inj h
      rw [show upper (c :: a) = c.toUpper :: upper a from rfl, hchar c d hhead, ih htail]
      rfl

def IsWord (t : Text) : Prop := t ≠ [] ∧ ∀ c ∈ t, isSpace c = false

theorem isWord_iff {t : Text} :
    IsWord t ↔ t.isEmpty = false ∧ (t.all fun c => !isSpace c) = true := by
  simp [IsWord]

instance (t : Text) : Decidable (IsWord t) := decidable_of_iff _ isWord_iff.symm

def IsTrimmed (t : Text) : Prop :=
  (∃ c ∈ t.head?, isSpace c = false) ∧ ∃ c ∈ t.getLast?, isSpace c = false

theorem IsWord.trimmed {t : Text} (h : IsWord t) : IsTrimmed t := by
  obtain ⟨hne, hspace⟩ := h
  exact ⟨⟨_, List.head?_eq_some_head hne, hspace _ (List.head_mem hne)⟩,
    ⟨_, List.getLast?_eq_some_getLast hne, hspace _ (List.getLast_mem hne)⟩⟩

theorem lstrip_eq_self {t : Text} (h : ∃ c ∈ t.head?, isSpace c = false) : lstrip t = t := by
  obtain ⟨c, hc, hspace⟩ := h
  cases t with
  | nil => cases hc
  | cons d t =>
    cases hc
    rw [lstrip, List.dropWhile_cons_of_neg]
    rw [hspace]
    exact Bool.false_ne_true

theorem strip_eq_self {t : Text} (h : IsTrimmed t) : strip t = t := by
  have hlast : ∃ c ∈ t.reverse.head?, isSpace c = false := by
    rw [List.head?_reverse]
    exact h.2
  rw [strip, lstrip_eq_self h.1, rstrip, lstrip_eq_self hlast, List.reverse_reverse]

theorem head_lstrip (t : Text) : ∀ c ∈ (lstrip t).head?, isSpace c = false := by
  intro c hc
  have hnot := List.head?_dropWhile_not isSpace t
  rw [show (t.dropWhile isSpace).head? = some c from hc] at hnot
  exact hnot

theorem strip_parts (t : Text) : ∃ front back, (∀ c ∈ front, isSpace c = true) ∧
    (∀ c ∈ back, isSpace c = true) ∧ t = front ++ (strip t ++ back) ∧
    (∀ c ∈ (strip t).head?, isSpace c = false) ∧ ∀ c ∈ (strip t).getLast?, isSpace c = false := by
  have hback : lstrip t =
      strip t ++ ((lstrip t).reverse.takeWhile isSpace).reverse := by
    rw [strip, rstrip, ← List.reverse_append]
    unfold lstrip
    rw [List.takeWhile_append_dropWhile, List.reverse_reverse]
  refine ⟨t.takeWhile isSpace, ((lstrip t).reverse.takeWhile isSpace).reverse,
    fun c hc => List.mem_takeWhile_imp hc,
    fun c hc => List.mem_takeWhile_imp (List.mem_reverse.mp hc), ?_, fun c hc => ?_, fun c hc => ?_⟩
  · rw [← hback]
    exact List.takeWhile_append_dropWhile.symm
  · refine head_lstrip t c ?_
    rw [hback, List.head?_append, hc]
    rfl
  · rw [strip, rstrip, List.getLast?_reverse] at hc
    exact head_lstrip _ c hc

theorem mem_lstrip {t : Text} {c : Char} (hc : c ∈ t) (hspace : isSpace c = false) :
    c ∈ lstrip t := by
  rw [← List.takeWhile_append_dropWhile (p := isSpace) (l := t), List.mem_append] at hc
  rcases hc with hc | hc
  · rw [List.mem_takeWhile_imp hc] at hspace
    cases hspace
  · exact hc

theorem strip_ne_nil {t : Text} {c : Char} (hc : c ∈ t) (hspace : isSpace c = false) :
    strip t ≠ [] := by
  have hmem : c ∈ lstrip (lstrip t).reverse :=
    mem_lstrip (List.mem_reverse.mpr (mem_lstrip hc hspace)) hspace
  intro hnil
  rw [strip, rstrip, List.reverse_eq_nil_iff] at hnil
  rw [hnil] at hmem
  cases hmem

theorem lstrip_space {c : Char} (hc : isSpace c = true) (t : Text) :
    lstrip (c :: t) = lstrip t := by
  rw [lstrip, List.dropWhile_cons_of_pos hc]
  rfl

theorem lstrip_blanks_append {a : Text} (ha : ∀ c ∈ a, isSpace c = true) (t : Text) :
    lstrip (a ++ t) = lstrip t := by
  induction a with
  | nil => rfl
  | cons c a ih =>
    rw [List.forall_mem_cons] at ha
    rw [List.cons_append, lstrip_space ha.1, ih ha.2]

theorem lstrip_of_head {t : Text} (h : ∀ c ∈ t.head?, isSpace c = false) : lstrip t = t := by
  cases t with
  | nil => rfl
  | cons c t => exact lstrip_eq_self ⟨c, rfl, h c rfl⟩

theorem strip_around {front back m : Text} (hfront : ∀ c ∈ front, isSpace c = true)
    (hback : ∀ c ∈ back, isSpace c = true) (hhead : ∀ c ∈ m.head?, isSpace c = false)
    (hlast : ∀ c ∈ m.getLast?, isSpace c = false) : strip (front ++ (m ++ back)) = m := by
  have hback' : ∀ c ∈ back.reverse, isSpace c = true := fun c hc => hback c (List.mem_reverse.mp hc)
  have hlast' : ∀ c ∈ m.reverse.head?, isSpace c = false := by
    rwa [List.head?_reverse]
  rw [strip, lstrip_blanks_append hfront]
  cases m with
  | nil =>
    have hnone : lstrip back = [] := by
      have hblank := lstrip_blanks_append hback []
      rwa [List.append_nil] at hblank
    rw [List.nil_append, hnone]
    rfl
  | cons d m =>
    have hkept : lstrip ((d :: m) ++ back) = (d :: m) ++ back :=
      lstrip_of_head fun c hc => hhead c hc
    rw [hkept, rstrip, List.reverse_append, lstrip_blanks_append hback', lstrip_of_head hlast',
      List.reverse_reverse]

theorem strip_strip (t : Text) : strip (strip t) = strip t := by
  obtain ⟨-, -, -, -, -, hhead, hlast⟩ := strip_parts t
  have hnone : ∀ c ∈ ([] : Text), isSpace c = true := fun c hc => by cases hc
  have hsame := strip_around hnone hnone hhead hlast
  rwa [List.append_nil, List.nil_append] at hsame

theorem fields_space {c : Char} (hc : isSpace c = true) (n : ℕ) (t : Text) :
    fields n (c :: t) = fields n t := by
  cases n with
  | zero => rw [fields, fields, lstrip_space hc]
  | succ n => rw [fields, fields, lstrip_space hc]

theorem fields_zero {t : Text} (h : ∃ c ∈ t.head?, isSpace c = false) : fields 0 t = [t] := by
  rw [fields, lstrip_eq_self h, if_neg]
  rintro hempty
  obtain ⟨c, hc, -⟩ := h
  rw [List.isEmpty_iff.mp hempty] at hc
  cases hc

theorem fields_word {w : Text} (hw : IsWord w) {c : Char} (hc : isSpace c = true) (n : ℕ)
    (t : Text) : fields (n + 1) (w ++ c :: t) = w :: fields n t := by
  obtain ⟨hne, hspace⟩ := hw
  have hstrip : lstrip (w ++ c :: t) = w ++ c :: t := by
    refine lstrip_eq_self ⟨w.head hne, ?_, hspace _ (List.head_mem hne)⟩
    rw [List.head?_append_of_ne_nil _ hne]
    exact List.head?_eq_some_head hne
  have hword : ∀ d ∈ w, (!isSpace d) = true := fun d hd => by rw [hspace d hd]; rfl
  rw [fields, hstrip, if_neg (by simp), List.takeWhile_append_of_pos hword, List.dropWhile_append_of_pos hword,
    List.takeWhile_cons_of_neg (by simp [hc]), List.dropWhile_cons_of_neg (by simp [hc]),
    List.append_nil, fields_space hc]

theorem isDigit_of_mem_decimal {n : ℕ} {c : Char} (hc : c ∈ decimal n) : c.isDigit = true :=
  Nat.isDigit_of_mem_toDigits (by omega) (by omega) hc

theorem isNumber_decimal (n : ℕ) : isNumber (decimal n) = true := by
  rw [isNumber, Bool.and_eq_true, Bool.not_eq_true', List.isEmpty_eq_false_iff, List.all_eq_true]
  exact ⟨Nat.toDigits_ne_nil, fun c hc => isDigit_of_mem_decimal hc⟩

theorem int_decimal (n : ℕ) : int (decimal n) = n :=
  Nat.ofDigitChars_toDigits (by omega) (by omega)

theorem isSpace_eq_false {c : Char} (h : 33 ≤ c.toNat ∧ c.toNat ≤ 126) : isSpace c = false := by
  simp only [isSpace, Bool.or_eq_false_iff, Bool.and_eq_false_iff, decide_eq_false_iff_not,
    beq_eq_false_iff_ne]
  omega

theorem isSpace_of_isDigit {c : Char} (h : c.isDigit = true) : isSpace c = false := by
  have hnat : 48 ≤ c.toNat ∧ c.toNat ≤ 57 := Char.isDigit_iff_toNat.mp h
  exact isSpace_eq_false (by omega)

theorem isWord_decimal (n : ℕ) : IsWord (decimal n) :=
  ⟨Nat.toDigits_ne_nil, fun _ hc => isSpace_of_isDigit (isDigit_of_mem_decimal hc)⟩

/-! ## Every field of a text -/

theorem split_append_space {c : Char} (hc : isSpace c = true) (a b : Text) :
    split (a ++ c :: b) = split a ++ split b := by
  rw [split, List.splitOnP_append_cons _ _ hc, List.filter_append]
  rfl

@[simp] theorem split_nil : split [] = [] := by simp [split]

theorem split_space {c : Char} (hc : isSpace c = true) (t : Text) : split (c :: t) = split t := by
  have happend := split_append_space hc [] t
  rwa [split_nil] at happend

theorem split_lstrip (t : Text) : split (lstrip t) = split t := by
  induction t with
  | nil => rfl
  | cons c t ih =>
    cases hc : isSpace c with
    | true => rw [lstrip_space hc, ih, split_space hc]
    | false => rw [lstrip_eq_self ⟨c, rfl, hc⟩]

theorem split_append_spaces (t : Text) {blanks : Text} (h : ∀ c ∈ blanks, isSpace c = true) :
    split (t ++ blanks) = split t := by
  have hnil : ∀ {blanks : Text}, (∀ c ∈ blanks, isSpace c = true) → split blanks = [] := by
    intro blanks h
    induction blanks with
    | nil => exact split_nil
    | cons c blanks ih =>
      rw [split_space (h c List.mem_cons_self)]
      exact ih fun d hd => h d (List.mem_cons_of_mem c hd)
  cases blanks with
  | nil => rw [List.append_nil]
  | cons c blanks =>
    rw [split_append_space (h c List.mem_cons_self),
      hnil fun d hd => h d (List.mem_cons_of_mem c hd), List.append_nil]

theorem split_rstrip (t : Text) : split (rstrip t) = split t := by
  have hparts : rstrip t ++ (t.reverse.takeWhile isSpace).reverse = t := by
    rw [rstrip, lstrip, ← List.reverse_append, List.takeWhile_append_dropWhile, List.reverse_reverse]
  have hblank : ∀ c ∈ (t.reverse.takeWhile isSpace).reverse, isSpace c = true :=
    fun c hc => List.mem_takeWhile_imp (List.mem_reverse.mp hc)
  have hsplit := split_append_spaces (rstrip t) hblank
  rw [hparts] at hsplit
  exact hsplit.symm

/-- A text that is one word between blanks has that word as its only field. -/
theorem split_eq_singleton {t : Text} (h : IsWord (strip t)) : split t = [strip t] := by
  have hword : split (strip t) = [strip t] := by
    rw [split, List.splitOnP_eq_singleton h.2, List.filter_cons_of_pos, List.filter_nil]
    simpa using h.1
  rw [strip, split_rstrip, split_lstrip] at hword
  exact hword

theorem split_join {c : Char} (hc : isSpace c = true) (parts : List Text) :
    split (join [c] parts) = parts.flatMap split := by
  induction parts with
  | nil => exact split_nil
  | cons t parts ih =>
    cases parts with
    | nil => simp [join]
    | cons u parts =>
      rw [join, List.intercalate_cons_cons, List.append_assoc, List.singleton_append,
        split_append_space hc, List.flatMap_cons, ← ih]
      rfl

theorem exists_mem_split {t : Text} {c : Char} (hc : c ∈ t) (hspace : isSpace c = false) :
    ∃ w ∈ split t, c ∈ w := by
  have hparts : ∃ w ∈ t.splitOnP isSpace, c ∈ w := by
    induction t with
    | nil => cases hc
    | cons d t ih =>
      obtain ⟨head, rest, hsplit⟩ := List.exists_cons_of_ne_nil (List.splitOnP_ne_nil isSpace t)
      rw [List.splitOnP_cons_eq_if_modifyHead]
      rcases List.mem_cons.mp hc with rfl | hc
      · rw [if_neg (by rw [hspace]; exact Bool.false_ne_true), hsplit]
        exact ⟨c :: head, List.mem_cons_self, List.mem_cons_self⟩
      · obtain ⟨w, hw, hcw⟩ := ih hc
        split_ifs
        · exact ⟨w, List.mem_cons_of_mem _ hw, hcw⟩
        · rw [hsplit] at hw ⊢
          rcases List.mem_cons.mp hw with rfl | hw
          · exact ⟨d :: w, List.mem_cons_self, List.mem_cons_of_mem d hcw⟩
          · exact ⟨w, List.mem_cons_of_mem _ hw, hcw⟩
  obtain ⟨w, hw, hcw⟩ := hparts
  refine ⟨w, List.mem_filter.mpr ⟨hw, ?_⟩, hcw⟩
  simpa using List.ne_nil_of_mem hcw

/-! ## Cutting and stripping in lower case -/

theorem isSpace_toLower (c : Char) : isSpace c.toLower = isSpace c := by
  by_cases h : 65 ≤ c.toNat ∧ c.toNat ≤ 90
  · have hlower : c.toLower.toNat = c.toNat + 32 := by rw [toNat_toLower, if_pos h]
    rw [isSpace_eq_false (by omega), isSpace_eq_false (by omega)]
  · rw [toLower_eq_self h]

theorem lstrip_lowerAscii (t : Text) : lstrip (lowerAscii t) = lowerAscii (lstrip t) := by
  have hcomp : isSpace ∘ Char.toLower = isSpace := funext isSpace_toLower
  rw [lstrip, lowerAscii, List.dropWhile_map, hcomp]
  rfl

theorem strip_lowerAscii (t : Text) : strip (lowerAscii t) = lowerAscii (strip t) := by
  have hreverse : ∀ u : Text, (lowerAscii u).reverse = lowerAscii u.reverse :=
    fun u => List.map_reverse.symm
  rw [strip, strip, rstrip, rstrip, lstrip_lowerAscii, hreverse, lstrip_lowerAscii, hreverse]

theorem splitOn_lowerAscii {sep : Char} (hsep : ∀ c : Char, c.toLower = sep ↔ c = sep) (t : Text) :
    (lowerAscii t).splitOn sep = (t.splitOn sep).map lowerAscii := by
  induction t with
  | nil => rfl
  | cons c t ih =>
    obtain ⟨head, rest, hsplit⟩ := List.exists_cons_of_ne_nil (List.splitOn_ne_nil sep t)
    show (c.toLower :: lowerAscii t).splitOn sep = _
    rw [List.splitOn_cons_eq_if_modifyHead, List.splitOn_cons_eq_if_modifyHead, ih, hsplit]
    by_cases hc : c = sep
    · rw [if_pos (beq_iff_eq.mpr ((hsep c).mpr hc)), if_pos (beq_iff_eq.mpr hc)]
      rfl
    · rw [if_neg fun h => hc ((hsep c).mp (beq_iff_eq.mp h)), if_neg fun h => hc (beq_iff_eq.mp h)]
      rfl

theorem toLower_eq_iff {sep : Char} (hsep : sep.toNat < 65) (c : Char) :
    c.toLower = sep ↔ c = sep := by
  rw [← Char.toNat_inj, ← Char.toNat_inj, toNat_toLower]
  split_ifs <;> omega

/-! ## Characters of the parts -/

theorem mem_of_mem_join {sep c : Char} {parts : List Text} (hc : c ∈ [sep].intercalate parts) :
    c = sep ∨ ∃ part ∈ parts, c ∈ part := by
  induction parts with
  | nil => cases hc
  | cons part parts ih =>
    cases parts with
    | nil => exact .inr ⟨part, List.mem_singleton_self _, by simpa using hc⟩
    | cons next parts =>
      rw [List.intercalate_cons_cons, List.mem_append, List.mem_append] at hc
      obtain (hc | hc) | hc := hc
      · exact .inr ⟨part, List.mem_cons_self, hc⟩
      · exact .inl (List.mem_singleton.mp hc)
      · obtain hsep | ⟨p, hp, hcp⟩ := ih hc
        · exact .inl hsep
        · exact .inr ⟨p, List.mem_cons_of_mem part hp, hcp⟩

theorem mem_splitOn {c : Char} (sep : Char) {t : Text} (hc : c ∈ t) :
    c = sep ∨ ∃ part ∈ t.splitOn sep, c ∈ part := by
  apply mem_of_mem_join
  rwa [List.intercalate_splitOn]

theorem mem_join_of_mem {sep c : Char} {parts : List Text} {part : Text} (hpart : part ∈ parts)
    (hc : c ∈ part) : c ∈ [sep].intercalate parts := by
  induction parts with
  | nil => cases hpart
  | cons first parts ih =>
    cases parts with
    | nil =>
      obtain rfl := List.mem_singleton.mp hpart
      simpa using hc
    | cons next parts =>
      rw [List.intercalate_cons_cons, List.mem_append]
      obtain rfl | hpart := List.mem_cons.mp hpart
      · exact .inl (List.mem_append_left _ hc)
      · exact .inr (ih hpart)

theorem sorted_eq_of_mem {l l' : List Text} (hl : l.Nodup) (hl' : l'.Nodup)
    (h : ∀ x, x ∈ l ↔ x ∈ l') : sorted l = sorted l' := by
  have hperm : l.Perm l' := (List.perm_ext_iff_of_nodup hl hl').mpr h
  have hsorted : (sorted l).Perm (sorted l') :=
    (List.perm_insertionSort _ l).trans (hperm.trans (List.perm_insertionSort _ l').symm)
  exact List.Perm.eq_of_pairwise' (List.pairwise_insertionSort _ l)
    (List.pairwise_insertionSort _ l') hsorted

theorem join_append (sep : Text) {xs ys : List Text} (hxs : xs ≠ []) (hys : ys ≠ []) :
    join sep (xs ++ ys) = join sep xs ++ sep ++ join sep ys := by
  induction xs with
  | nil => exact absurd rfl hxs
  | cons x xs ih =>
    cases xs with
    | nil => simp [join, List.intercalate_cons_of_ne_nil hys]
    | cons x' xs =>
      have hrest := ih (List.cons_ne_nil _ _)
      simp only [join] at hrest ⊢
      rw [List.cons_append, List.intercalate_cons_of_ne_nil (by simp), hrest,
        List.intercalate_cons_cons]
      simp only [List.append_assoc]

theorem join_flatten (sep : Text) {groups : List (List Text)} (hne : ∀ g ∈ groups, g ≠ []) :
    join sep (groups.map (join sep)) = join sep groups.flatten := by
  induction groups with
  | nil => rfl
  | cons g groups ih =>
    have hrest := ih fun g hg => hne g (List.mem_cons_of_mem _ hg)
    cases groups with
    | nil => simp [join]
    | cons g' groups =>
      have hflat : (g' :: groups).flatten ≠ [] := by
        simp [hne g' (List.mem_cons_of_mem _ List.mem_cons_self)]
      rw [List.flatten_cons, join_append sep (hne g List.mem_cons_self) hflat, ← hrest, join,
        List.map_cons, List.intercalate_cons_of_ne_nil (by simp)]
      rfl

theorem splitOn_join {c : Char} {parts : List Text} (hne : parts ≠ []) :
    (join [c] parts).splitOn c = parts.flatMap (·.splitOn c) := by
  induction parts with
  | nil => exact absurd rfl hne
  | cons part parts ih =>
    cases parts with
    | nil => simp [join]
    | cons next parts =>
      rw [join, List.intercalate_cons_cons, List.append_assoc, List.singleton_append,
        List.splitOn_append_cons_self, List.flatMap_cons, ← ih (List.cons_ne_nil _ _), join]

theorem mem_of_mem_splitOn {sep c : Char} {t part : Text} (hpart : part ∈ t.splitOn sep)
    (hc : c ∈ part) : c ∈ t := by
  rw [← @List.intercalate_splitOn _ t _ _ sep]
  exact mem_join_of_mem hpart hc

theorem mem_of_mem_strip {c : Char} {t : Text} (hc : c ∈ strip t) : c ∈ t := by
  have hlstrip : ∀ {u : Text}, c ∈ lstrip u → c ∈ u :=
    fun h => (List.dropWhile_sublist _).subset h
  exact hlstrip (List.mem_reverse.mp (hlstrip (List.mem_reverse.mp hc)))

theorem sep_of_mem_splitOnP {p : Char → Bool} {t w : Text} (hw : w ∈ t.splitOnP p) :
    ∀ c ∈ w, p c = false := by
  induction t generalizing w with
  | nil =>
    rw [List.splitOnP_nil, List.mem_singleton] at hw
    rw [hw]
    exact fun c hc => absurd hc List.not_mem_nil
  | cons d t ih =>
    rw [List.splitOnP_cons_eq_if_modifyHead] at hw
    split_ifs at hw with hd
    · obtain rfl | hw := List.mem_cons.mp hw
      · exact fun c hc => absurd hc List.not_mem_nil
      · exact ih hw
    · cases hparts : t.splitOnP p with
      | nil => exact absurd hparts (List.splitOnP_ne_nil p t)
      | cons first rest =>
        rw [hparts, List.modifyHead_cons] at hw
        rw [hparts] at ih
        obtain rfl | hw := List.mem_cons.mp hw
        · intro c hc
          obtain rfl | hc := List.mem_cons.mp hc
          · exact Bool.not_eq_true _ |>.mp hd
          · exact ih List.mem_cons_self c hc
        · exact ih (List.mem_cons_of_mem first hw)

end Provisioner.Text
