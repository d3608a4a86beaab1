import Provisioner.Library.CaseTables

/-!
# Lower case

`str.lower` of Python, which is also what the string filters of Jinja compare
by. A character is mapped on its own, except for the capital sigma: it is
written in its final form behind a character with a case and before none.
-/

namespace Provisioner.Text

def lowerChar (c : Char) : Text :=
  if c.toNat < 128 then [c.toLower]
  else if c = 'İ' then ['i', Char.ofNat 0x307]
  else [Char.ofNat (lowerNat c.toNat)]

def casedBehind (behind : Bool) (c : Char) : Bool :=
  if within ignorableRanges c then behind else within casedRanges c

def casedAhead (rest : Text) : Bool :=
  (rest.dropWhile (within ignorableRanges)).head?.any (within casedRanges)

def lowerAt (behind : Bool) (c : Char) (rest : Text) : Text :=
  if c = 'Σ' then [if behind && !casedAhead rest then 'ς' else 'σ'] else lowerChar c

/-- `behind`: the last character that is not ignored has a case. -/
def lowerFrom : Bool → Text → Text
  | _, [] => []
  | behind, c :: rest => lowerAt behind c rest ++ lowerFrom (casedBehind behind c) rest

def lower (t : Text) : Text := lowerFrom false t

set_option maxRecDepth 4000 in
example : lower "ΌΔΟΣ" = "όδος" := by decide

set_option maxRecDepth 4000 in
example : lower "ΌΔΟΣ.EXAMPLE" = "όδοσ.example" := by decide

def Lowered (c : Char) : Prop := lowerChar c = [c]

def Fixed (c : Char) : Prop := c.toNat < 65 ∨ isSpace c = true

/-- A sigma on one side of `c` does not see what is on the other side. -/
def Stop (c : Char) : Prop :=
  Lowered c ∧ within ignorableRanges c = false ∧ within casedRanges c = false

instance (c : Char) : Decidable (Lowered c) := inferInstanceAs (Decidable (_ = _))

instance (c : Char) : Decidable (Stop c) := inferInstanceAs (Decidable (_ ∧ _))

/-! ## One character -/

section Characters

variable {c d : Char}

theorem toNat_ofNat {n : ℕ} (h : n.isValidChar) : (Char.ofNat n).toNat = n := by
  rw [Char.ofNat, dif_pos h]
  rfl

theorem lowerChar_ascii (h : c.toNat < 128) : lowerChar c = [c.toLower] := if_pos h

theorem lowered_iff_ascii (h : c.toNat < 128) : Lowered c ↔ ¬ (65 ≤ c.toNat ∧ c.toNat ≤ 90) := by
  rw [Lowered, lowerChar_ascii h, List.singleton_inj, ← Char.toNat_inj, toNat_toLower]
  split_ifs <;> omega

theorem lowerChar_cases (h : ¬ c.toNat < 128) : Lowered c ∨ c = 'İ' ∨
    ∃ r ∈ lowerRows, r.Holds c.toNat ∧ lowerChar c = [Char.ofNat (r.lowers c.toNat)] := by
  by_cases hdotted : c = 'İ'
  · exact .inr (.inl hdotted)
  · have hchar : lowerChar c = [Char.ofNat (lowerNat c.toNat)] := by
      rw [lowerChar, if_neg h, if_neg hdotted]
    rcases lowerNat_cases c.toNat with ⟨hsame, -⟩ | ⟨r, hr, hholds, hlowers⟩
    · refine .inl ?_
      rw [Lowered, hchar, hsame, Char.ofNat_toNat]
    · refine .inr (.inr ⟨r, hr, hholds, ?_⟩)
      rw [hchar, hlowers]

theorem lowered_image {r : CaseRow} {n : ℕ} (hr : r ∈ lowerRows) (h : r.Holds n) :
    Lowered (Char.ofNat (r.lowers n)) := by
  obtain ⟨himage, -⟩ := image_lowers hr h
  have hnat := toNat_ofNat himage.valid
  by_cases hascii : r.lowers n < 128
  · refine (lowered_iff_ascii (by omega)).mpr ?_
    have := himage.small
    omega
  · have hdotted : Char.ofNat (r.lowers n) ≠ 'İ' := by
      intro heq
      rw [heq] at hnat
      exact himage.not_dotted hnat.symm
    rw [Lowered, lowerChar, if_neg (by omega), if_neg hdotted, hnat, lowerNat_lowers hr h]

theorem lowered_of_mem (h : d ∈ lowerChar c) : Lowered d := by
  by_cases hascii : c.toNat < 128
  · rw [lowerChar_ascii hascii, List.mem_singleton] at h
    have hnat : d.toNat = if 65 ≤ c.toNat ∧ c.toNat ≤ 90 then c.toNat + 32 else c.toNat := by
      rw [h, toNat_toLower]
    split_ifs at hnat with hupper
    · exact (lowered_iff_ascii (by omega)).mpr (by omega)
    · exact (lowered_iff_ascii (by omega)).mpr (by omega)
  · rcases lowerChar_cases hascii with hsame | rfl | ⟨r, hr, hholds, hchar⟩
    · rw [show lowerChar c = [c] from hsame, List.mem_singleton] at h
      rwa [h]
    · have hparts : lowerChar 'İ' = ['i', Char.ofNat 0x307] := by decide
      rw [hparts] at h
      rcases List.mem_pair.mp h with rfl | rfl
      · decide
      · decide
    · rw [hchar, List.mem_singleton] at h
      rw [h]
      exact lowered_image hr hholds

theorem Fixed.lowered (h : Fixed c) : Lowered c := by
  by_cases hascii : c.toNat < 128
  · refine (lowered_iff_ascii hascii).mpr fun hupper => ?_
    rcases h with hlow | hspace
    · omega
    · rw [isSpace_eq_false (by omega)] at hspace
      cases hspace
  · have hspace : isSpace c = true := h.resolve_left (by omega)
    rcases lowerChar_cases hascii with hsame | rfl | ⟨r, hr, hholds, -⟩
    · exact hsame
    · revert hspace
      decide
    · exact absurd (mem_blanks hspace) (image_lowers hr hholds).2

theorem eq_of_mem_lowerChar (hd : Fixed d) (h : d ∈ lowerChar c) : c = d := by
  by_cases hascii : c.toNat < 128
  · rw [lowerChar_ascii hascii, List.mem_singleton] at h
    have hnat : d.toNat = if 65 ≤ c.toNat ∧ c.toNat ≤ 90 then c.toNat + 32 else c.toNat := by
      rw [h, toNat_toLower]
    split_ifs at hnat with hupper
    · rcases hd with hlow | hspace
      · omega
      · rw [isSpace_eq_false (by omega)] at hspace
        cases hspace
    · exact (Char.toNat_inj.mp hnat).symm
  · rcases lowerChar_cases hascii with hsame | rfl | ⟨r, hr, hholds, hchar⟩
    · rw [show lowerChar c = [c] from hsame, List.mem_singleton] at h
      exact h.symm
    · have hparts : lowerChar 'İ' = ['i', Char.ofNat 0x307] := by decide
      have hnone : ¬ Fixed 'i' ∧ ¬ Fixed (Char.ofNat 0x307) := by
        unfold Fixed
        decide
      rw [hparts] at h
      rcases List.mem_pair.mp h with rfl | rfl
      · exact absurd hd hnone.1
      · exact absurd hd hnone.2
    · rw [hchar, List.mem_singleton] at h
      obtain ⟨himage, -⟩ := image_lowers hr hholds
      have hnat := toNat_ofNat himage.valid
      rw [← h] at hnat
      rcases hd with hlow | hspace
      · have := himage.small
        omega
      · have hmem := mem_blanks hspace
        rw [hnat] at hmem
        exact absurd hmem himage.not_blank

theorem stop_space (h : isSpace c = true) : Stop c := by
  have hplain := List.all_eq_true.mp blanks_plain _ (mem_blanks h)
  rw [Bool.and_eq_true, Bool.not_eq_true', Bool.not_eq_true'] at hplain
  exact ⟨Fixed.lowered (.inr h), hplain.2, hplain.1⟩

end Characters

/-! ## Texts -/

section Texts

variable {t a rest : Text} {b behind : Bool} {c d : Char}

theorem lowerAt_ne_nil (behind : Bool) (c : Char) (rest : Text) : lowerAt behind c rest ≠ [] := by
  unfold lowerAt lowerChar
  split_ifs <;> exact List.cons_ne_nil _ _

theorem lowerAt_of_ne (hc : c ≠ 'Σ') : lowerAt behind c rest = lowerChar c := if_neg hc

theorem lowered_of_mem_lowerAt (h : d ∈ lowerAt behind c rest) : Lowered d := by
  unfold lowerAt at h
  split at h
  · have hsmall : Lowered 'ς' ∧ Lowered 'σ' := by decide
    split_ifs at h
    · rw [List.mem_singleton.mp h]
      exact hsmall.1
    · rw [List.mem_singleton.mp h]
      exact hsmall.2
  · exact lowered_of_mem h

theorem sigma_not_lowered : ¬ Lowered 'Σ' := by decide

theorem lowerAt_lowered (hc : Lowered c) : lowerAt behind c rest = [c] := by
  have hne : c ≠ 'Σ' := by
    rintro rfl
    exact sigma_not_lowered hc
  rw [lowerAt_of_ne hne, hc]

theorem eq_of_mem_lowerAt (hd : Fixed d) (h : d ∈ lowerAt behind c rest) : c = d := by
  unfold lowerAt at h
  split at h
  · have hsmall : ¬ Fixed 'ς' ∧ ¬ Fixed 'σ' := by
      unfold Fixed
      decide
    split_ifs at h
    · rw [List.mem_singleton.mp h] at hd
      exact absurd hd hsmall.1
    · rw [List.mem_singleton.mp h] at hd
      exact absurd hd hsmall.2
  · exact eq_of_mem_lowerChar hd h

theorem ascii_of_lowerAt (h : ∀ d ∈ lowerAt behind c rest, d.toNat < 107) : c.toNat < 128 := by
  by_contra hascii
  unfold lowerAt at h
  split at h
  · have hsmall := h _ (List.mem_singleton_self _)
    revert hsmall
    split_ifs <;> decide
  · rcases lowerChar_cases hascii with hsame | rfl | ⟨r, hr, hholds, hchar⟩
    · have hsmall := h c (by rw [show lowerChar c = [c] from hsame]; exact List.mem_singleton_self _)
      omega
    · have hparts : Char.ofNat 0x307 ∈ lowerChar 'İ' := by decide
      exact absurd (h _ hparts) (by decide)
    · have hsmall := h _ (by rw [hchar]; exact List.mem_singleton_self _)
      obtain ⟨himage, -⟩ := image_lowers hr hholds
      rw [toNat_ofNat himage.valid] at hsmall
      have := himage.small
      omega

theorem lowered_of_mem_lowerFrom (h : d ∈ lowerFrom b t) : Lowered d := by
  induction t generalizing b with
  | nil => cases h
  | cons c t ih =>
    rcases List.mem_append.mp h with h | h
    · exact lowered_of_mem_lowerAt h
    · exact ih h

theorem lowered_of_mem_lower (h : d ∈ lower t) : Lowered d := lowered_of_mem_lowerFrom h

theorem lowerFrom_lowered (h : ∀ c ∈ t, Lowered c) (b : Bool) : lowerFrom b t = t := by
  induction t generalizing b with
  | nil => rfl
  | cons c t ih =>
    rw [List.forall_mem_cons] at h
    rw [lowerFrom, lowerAt_lowered h.1, ih h.2]
    rfl

theorem lower_eq_iff : lower t = t ↔ ∀ c ∈ t, Lowered c := by
  constructor
  · intro h c hc
    rw [← h] at hc
    exact lowered_of_mem_lower hc
  · exact fun h => lowerFrom_lowered h false

@[simp] theorem lower_lower (t : Text) : lower (lower t) = lower t :=
  lower_eq_iff.mpr fun _ hc => lowered_of_mem_lower hc

theorem lower_of_subset (h : a ⊆ t) (ht : lower t = t) : lower a = a :=
  lower_eq_iff.mpr fun c hc => lower_eq_iff.mp ht c (h hc)

theorem lower_ascii (h : ∀ c ∈ t, c.toNat < 128) : lower t = lowerAscii t := by
  have hfrom : ∀ b, lowerFrom b t = lowerAscii t := by
    induction t with
    | nil => exact fun _ => rfl
    | cons c t ih =>
      rw [List.forall_mem_cons] at h
      intro b
      have hne : c ≠ 'Σ' := by
        rintro rfl
        exact absurd h.1 (by decide)
      rw [lowerFrom, lowerAt_of_ne hne, lowerChar_ascii h.1, ih h.2]
      rfl
  exact hfrom false

/-- Lower-case letters, digits and signs of ASCII stay as they are. -/
theorem lower_eq_self (h : ∀ c ∈ t, c.toNat < 128 ∧ ¬ (65 ≤ c.toNat ∧ c.toNat ≤ 90)) :
    lower t = t :=
  lower_eq_iff.mpr fun c hc => (lowered_iff_ascii (h c hc).1).mpr (h c hc).2

theorem ascii_of_lowerFrom (h : ∀ d ∈ lowerFrom b t, d.toNat < 107) : ∀ c ∈ t, c.toNat < 128 := by
  induction t generalizing b with
  | nil => exact fun c hc => by cases hc
  | cons c t ih =>
    have hhead : ∀ d ∈ lowerAt b c t, d.toNat < 107 := fun d hd =>
      h d (List.mem_append_left _ hd)
    refine List.forall_mem_cons.mpr ⟨ascii_of_lowerAt hhead, @ih (casedBehind b c) fun d hd => ?_⟩
    exact h d (List.mem_append_right _ hd)

theorem ascii_of_lower (h : ∀ d ∈ lower t, d.toNat < 107) : ∀ c ∈ t, c.toNat < 128 :=
  ascii_of_lowerFrom h

theorem mem_lowerFrom_iff (hc : Fixed c) : c ∈ lowerFrom b t ↔ c ∈ t := by
  induction t generalizing b with
  | nil => rfl
  | cons d t ih =>
    rw [lowerFrom, List.mem_append, List.mem_cons, ih]
    refine or_congr_left ⟨fun h => (eq_of_mem_lowerAt hc h).symm, ?_⟩
    rintro rfl
    rw [lowerAt_lowered hc.lowered]
    exact List.mem_singleton_self _

theorem mem_lower_iff (hc : Fixed c) : c ∈ lower t ↔ c ∈ t := mem_lowerFrom_iff hc

theorem lower_all_eq (hc : Fixed c) : (∀ d ∈ lower t, d = c) ↔ ∀ d ∈ t, d = c := by
  have hfrom : ∀ b, (∀ d ∈ lowerFrom b t, d = c) ↔ ∀ d ∈ t, d = c := by
    induction t with
    | nil => exact fun _ => Iff.rfl
    | cons e t ih =>
      intro b
      rw [lowerFrom, List.forall_mem_append, List.forall_mem_cons, ih]
      refine and_congr_left' ⟨fun hall => ?_, ?_⟩
      · obtain ⟨d, hd⟩ := List.exists_mem_of_ne_nil _ (lowerAt_ne_nil b e t)
        have hmem := hall d hd
        rw [hmem] at hd
        exact eq_of_mem_lowerAt hc hd
      · rintro rfl
        rw [lowerAt_lowered hc.lowered]
        exact fun d hd => List.mem_singleton.mp hd
  exact hfrom false

/-! ### Around a character that stops the look for a case -/

theorem casedAhead_stop (hc : Stop c) (a rest : Text) : casedAhead (a ++ c :: rest) = casedAhead a := by
  induction a with
  | nil =>
    unfold casedAhead
    rw [List.nil_append, List.dropWhile_cons_of_neg (by rw [hc.2.1]; exact Bool.false_ne_true)]
    exact hc.2.2
  | cons d a ih =>
    unfold casedAhead at ih ⊢
    cases hd : within ignorableRanges d with
    | true =>
      rw [List.cons_append, List.dropWhile_cons_of_pos hd, List.dropWhile_cons_of_pos hd]
      exact ih
    | false =>
      have hneg : ¬ within ignorableRanges d = true := by
        rw [hd]
        exact Bool.false_ne_true
      rw [List.cons_append, List.dropWhile_cons_of_neg hneg, List.dropWhile_cons_of_neg hneg]
      rfl

theorem lowerAt_congr (h : casedAhead rest = casedAhead a) :
    lowerAt behind c rest = lowerAt behind c a := by
  rw [lowerAt, lowerAt, h]

theorem lowerFrom_stop (hc : Stop c) (b : Bool) (a rest : Text) :
    lowerFrom b (a ++ c :: rest) = lowerFrom b a ++ c :: lower rest := by
  induction a generalizing b with
  | nil =>
    rw [List.nil_append, lowerFrom, lowerFrom, lowerAt_lowered hc.1, casedBehind, hc.2.1, hc.2.2]
    rfl
  | cons d a ih =>
    rw [List.cons_append, lowerFrom, lowerFrom, ih, lowerAt_congr (casedAhead_stop hc a rest),
      List.append_assoc]

theorem lower_stop (hc : Stop c) (a rest : Text) :
    lower (a ++ c :: rest) = lower a ++ c :: lower rest := lowerFrom_stop hc false a rest

theorem lower_blanks_append (ha : ∀ c ∈ a, isSpace c = true) (t : Text) :
    lower (a ++ t) = a ++ lower t := by
  induction a with
  | nil => rfl
  | cons c a ih =>
    rw [List.forall_mem_cons] at ha
    rw [List.cons_append, List.cons_append, ← ih ha.2]
    exact lower_stop (stop_space ha.1) [] _

theorem lower_append_blanks (ha : ∀ c ∈ a, isSpace c = true) (t : Text) :
    lower (t ++ a) = lower t ++ a := by
  cases a with
  | nil => rw [List.append_nil, List.append_nil]
  | cons c a =>
    rw [List.forall_mem_cons] at ha
    have hblank := lower_blanks_append ha.2 []
    rw [List.append_nil, show lower [] = [] from rfl, List.append_nil] at hblank
    rw [lower_stop (stop_space ha.1), hblank]

/-! ### A dot at the end -/

theorem casedAhead_ignored (hc : within ignorableRanges c = true) (a : Text) :
    casedAhead (a ++ [c]) = casedAhead a := by
  induction a with
  | nil =>
    unfold casedAhead
    rw [List.nil_append, List.dropWhile_cons_of_pos hc]
  | cons d a ih =>
    unfold casedAhead at ih ⊢
    cases hd : within ignorableRanges d with
    | true =>
      rw [List.cons_append, List.dropWhile_cons_of_pos hd, List.dropWhile_cons_of_pos hd]
      exact ih
    | false =>
      have hneg : ¬ within ignorableRanges d = true := by
        rw [hd]
        exact Bool.false_ne_true
      rw [List.cons_append, List.dropWhile_cons_of_neg hneg, List.dropWhile_cons_of_neg hneg]
      rfl

theorem lower_dot (t : Text) : lower (t ++ ['.']) = lower t ++ ['.'] := by
  have hdot : within ignorableRanges '.' = true ∧ Lowered '.' := by decide
  have hfrom : ∀ b, lowerFrom b (t ++ ['.']) = lowerFrom b t ++ ['.'] := by
    induction t with
    | nil =>
      intro b
      rw [List.nil_append, lowerFrom, lowerFrom, lowerAt_lowered hdot.2]
      rfl
    | cons c t ih =>
      intro b
      rw [List.cons_append, lowerFrom, lowerFrom, ih,
        lowerAt_congr (casedAhead_ignored hdot.1 t), List.append_assoc]
  exact hfrom false

theorem getLast_lowerFrom (hc : Fixed c) :
    (lowerFrom b t).getLast? = some c ↔ t.getLast? = some c := by
  induction t generalizing b with
  | nil => rfl
  | cons d t ih =>
    cases t with
    | nil =>
      rw [lowerFrom, lowerFrom, List.append_nil, List.getLast?_singleton, Option.some_inj]
      constructor
      · intro hlast
        exact eq_of_mem_lowerAt hc (List.mem_of_getLast? hlast)
      · rintro rfl
        rw [lowerAt_lowered hc.lowered]
        rfl
    | cons e t =>
      have hne : lowerFrom (casedBehind b d) (e :: t) ≠ [] :=
        List.append_ne_nil_of_left_ne_nil (lowerAt_ne_nil _ _ _) _
      rw [lowerFrom, List.getLast?_append_of_ne_nil _ hne, ih, List.getLast?_cons_cons]

theorem getLast_lower (hc : Fixed c) : (lower t).getLast? = some c ↔ t.getLast? = some c :=
  getLast_lowerFrom hc

/-! ### Stripping -/

theorem head_lowerFrom (h : ∀ c ∈ t.head?, isSpace c = false) :
    ∀ c ∈ (lowerFrom b t).head?, isSpace c = false := by
  cases t with
  | nil => exact fun c hc => by cases hc
  | cons d t =>
    intro c hc
    rw [lowerFrom, List.head?_append_of_ne_nil _ (lowerAt_ne_nil _ _ _)] at hc
    by_contra hspace
    rw [Bool.not_eq_false] at hspace
    rw [eq_of_mem_lowerAt (.inr hspace) (List.mem_of_mem_head? hc)] at h
    exact absurd (h c rfl) (by rw [hspace]; exact Bool.noConfusion)

theorem last_lower (h : ∀ c ∈ t.getLast?, isSpace c = false) :
    ∀ c ∈ (lower t).getLast?, isSpace c = false := by
  intro c hc
  by_contra hspace
  rw [Bool.not_eq_false] at hspace
  exact absurd (h c ((getLast_lower (.inr hspace)).mp hc)) (by rw [hspace]; exact Bool.noConfusion)

theorem strip_lower (t : Text) : strip (lower t) = lower (strip t) := by
  obtain ⟨front, back, hfront, hback, hsplit, hhead, hlast⟩ := strip_parts t
  have hlower : lower t = front ++ (lower (strip t) ++ back) := by
    rw [hsplit, lower_blanks_append hfront, lower_append_blanks hback, ← hsplit]
  rw [hlower]
  exact strip_around hfront hback (head_lowerFrom hhead) (last_lower hlast)

end Texts

end Provisioner.Text
