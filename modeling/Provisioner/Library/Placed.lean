import Provisioner.Library.LineInFile

/-!
# When a loop of replacements keeps every line

Each item replaces the last line its key matches, or adds its line at the end.
All lines stay exactly where the last match of each key is what the loop would
put there.
-/

namespace Provisioner.LineInFile

section Put

variable {κ α : Type} (regexp : κ → α → Bool)

def put (p : α → Bool) (new : α) (l : List α) : List α := (replaceLast p new l).getD (l ++ [new])

def puts (items : List (κ × α)) (l : List α) : List α :=
  items.foldl (fun l item => put (regexp item.1) item.2 l) l

/-- A key matches the line of its own items and of no other. -/
structure Apart (items : List (κ × α)) : Prop where
  own : ∀ item ∈ items, regexp item.1 item.2 = true
  other : ∀ item ∈ items, ∀ item' ∈ items, regexp item'.1 item.2 = true → item'.1 = item.1

def IsLast (items : List (κ × α)) (item : κ × α) : Prop :=
  ∃ before after, items = before ++ item :: after ∧ ∀ other ∈ after, other.1 ≠ item.1

def Placed (items : List (κ × α)) (l : List α) : Prop :=
  ∀ item, IsLast items item → ∀ old, LastIs (regexp item.1) old l → old = item.2

/-- A list next to what some of the items have made of it: only the last match
of a key has become another line of that key, and what is behind are lines of
keys that matched none. -/
inductive Tracked (items : List (κ × α)) (content : List α) : List α → List α → Prop where
  | added {extra : List α} :
      (∀ a ∈ extra, ∃ item ∈ items, a = item.2 ∧ ∀ b ∈ content, regexp item.1 b = false) →
        Tracked items content [] extra
  | same {a : α} {l l' : List α} : Tracked items content l l' →
      Tracked items content (a :: l) (a :: l')
  | renewed {item held : κ × α} {l l' : List α} : IsLast items item → held ∈ items →
      held.1 = item.1 → (∀ b ∈ l, regexp item.1 b = false) → Tracked items content l l' →
        Tracked items content (item.2 :: l) (held.2 :: l')

theorem IsLast.mem {items : List (κ × α)} {item : κ × α} (hlast : IsLast items item) :
    item ∈ items := by
  obtain ⟨before, after, rfl, -⟩ := hlast
  exact List.mem_append_right _ List.mem_cons_self

theorem exists_isLast {items : List (κ × α)} {item : κ × α} (hitem : item ∈ items) :
    ∃ last, IsLast items last ∧ last.1 = item.1 := by
  induction items generalizing item with
  | nil => cases hitem
  | cons first items ih =>
    have hbehind : ∀ {other}, other ∈ items →
        ∃ last, IsLast (first :: items) last ∧ last.1 = other.1 := by
      intro other hother
      obtain ⟨last, ⟨before, after, rfl, hafter⟩, hkey⟩ := ih hother
      exact ⟨last, ⟨first :: before, after, rfl, hafter⟩, hkey⟩
    rcases List.mem_cons.mp hitem with rfl | hitem
    · by_cases hlater : ∃ other ∈ items, other.1 = item.1
      · obtain ⟨other, hother, hsame⟩ := hlater
        rw [← hsame]
        exact hbehind hother
      · refine ⟨item, ⟨[], items, rfl, fun other hother hsame => ?_⟩, rfl⟩
        exact hlater ⟨other, hother, hsame⟩
    · exact hbehind hitem

theorem LastIs.filter {p : α → Bool} {a : α} {l : List α} (hlast : LastIs p a l) :
    (l.filter p).getLast? = some a := by
  obtain ⟨before, after, rfl, ha, hafter⟩ := hlast
  have hnone : after.filter p = [] := List.filter_eq_nil_iff.mpr fun b hb => by simp [hafter b hb]
  rw [List.filter_append, List.filter_cons_of_pos ha, hnone, List.getLast?_concat]

theorem LastIs.unique {p : α → Bool} {a b : α} {l : List α} (ha : LastIs p a l)
    (hb : LastIs p b l) : a = b :=
  Option.some.inj (ha.filter.symm.trans hb.filter)

theorem LastIs.cons {p : α → Bool} {a : α} {l : List α} (hlast : LastIs p a l) (b : α) :
    LastIs p a (b :: l) := by
  obtain ⟨before, after, rfl, ha, hafter⟩ := hlast
  exact ⟨b :: before, after, rfl, ha, hafter⟩

variable {regexp}

theorem Placed.tail {items : List (κ × α)} {a : α} {l : List α}
    (hplaced : Placed regexp items (a :: l)) : Placed regexp items l :=
  fun item hlast old hold => hplaced item hlast old (hold.cons a)

theorem put_none {p : α → Bool} {new : α} {l : List α} (hnone : ∀ a ∈ l, p a = false) :
    put p new l = l ++ [new] := by
  rw [put, replaceLast_none.mpr hnone, Option.getD_none]

theorem put_last {p : α → Bool} {new old : α} {before after : List α} (hold : p old = true)
    (hafter : ∀ a ∈ after, p a = false) :
    put p new (before ++ old :: after) = before ++ new :: after := by
  rw [put, replaceLast_append hold hafter, Option.getD_some]

theorem last_put {p : α → Bool} {new : α} (hnew : p new = true) (l : List α) :
    LastIs p new (put p new l) := by
  by_cases hnone : ∀ a ∈ l, p a = false
  · rw [put_none hnone]
    exact ⟨l, [], rfl, hnew, fun a ha => by cases ha⟩
  · obtain ⟨old, before, after, rfl, hold, hafter⟩ := exists_last hnone
    rw [put_last hold hafter]
    exact ⟨before, after, rfl, hnew, hafter⟩

theorem LastIs.put {p q : α → Bool} {a new : α} {l : List α} (hlast : LastIs p a l)
    (hnew : p new = false) (ha : q a = false) : LastIs p a (put q new l) := by
  obtain ⟨before, after, rfl, hown, hafter⟩ := hlast
  by_cases hnone : ∀ b ∈ before ++ a :: after, q b = false
  · rw [put_none hnone]
    refine ⟨before, after ++ [new], by simp, hown, fun b hb => ?_⟩
    rcases List.mem_append.mp hb with hb | hb
    · exact hafter b hb
    · rw [List.mem_singleton.mp hb]
      exact hnew
  · obtain ⟨old, before', after', hsplit, hold, hafter'⟩ := exists_last hnone
    rw [hsplit, put_last hold hafter']
    have hdiffer : a ≠ old := by
      rintro rfl
      rw [ha] at hold
      cases hold
    rcases split_two hsplit hdiffer with ⟨middle, rfl, rfl⟩ | ⟨middle, rfl, rfl⟩
    · refine ⟨before, middle ++ new :: after', by simp, hown, fun b hb => ?_⟩
      rcases List.mem_append.mp hb with hb | hb
      · exact hafter b (List.mem_append_left _ hb)
      · rcases List.mem_cons.mp hb with rfl | hb
        · exact hnew
        · exact hafter b (List.mem_append_right _ (List.mem_cons_of_mem _ hb))
    · exact ⟨before' ++ new :: middle, after, by simp, hown, hafter⟩

theorem Apart.distinct {items : List (κ × α)} (hapart : Apart regexp items) {item item' : κ × α}
    (hitem : item ∈ items) (hitem' : item' ∈ items) (hne : item'.1 ≠ item.1) :
    regexp item'.1 item.2 = false := by
  by_contra hmatch
  exact hne (hapart.other item hitem item' hitem' (by simpa using hmatch))

theorem LastIs.puts {all items : List (κ × α)} (hapart : Apart regexp all) (hsub : items ⊆ all)
    {item : κ × α} (hitem : item ∈ all) (hne : ∀ other ∈ items, other.1 ≠ item.1) {l : List α}
    (hlast : LastIs (regexp item.1) item.2 l) :
    LastIs (regexp item.1) item.2 (puts regexp items l) := by
  induction items generalizing l with
  | nil => exact hlast
  | cons other items ih =>
    obtain ⟨hother, hsub⟩ := List.cons_subset.mp hsub
    obtain ⟨hne, hrest⟩ := List.forall_mem_cons.mp hne
    exact ih hsub hrest (hlast.put (hapart.distinct hother hitem (Ne.symm hne))
      (hapart.distinct hitem hother hne))

/-- The last item of a key has its line last among those the key matches. -/
theorem last_puts {items : List (κ × α)} (hapart : Apart regexp items) {item : κ × α}
    (hlast : IsLast items item) (l : List α) :
    LastIs (regexp item.1) item.2 (puts regexp items l) := by
  have hitem := hlast.mem
  obtain ⟨before, after, rfl, hafter⟩ := hlast
  rw [puts, List.foldl_append]
  refine LastIs.puts hapart ?_ hitem hafter (last_put (hapart.own item hitem) _)
  exact fun other hother => List.mem_append_right _ (List.mem_cons_of_mem _ hother)

theorem placed_puts {items : List (κ × α)} (hapart : Apart regexp items) (l : List α) :
    Placed regexp items (puts regexp items l) :=
  fun _ hlast _ hold => hold.unique (last_puts hapart hlast l)

/-! ## The lines a key matches -/

theorem countP_put_le {p q : α → Bool} {new : α} (hnew : q new = false) (l : List α) :
    (put p new l).countP q ≤ l.countP q := by
  by_cases hnone : ∀ a ∈ l, p a = false
  · rw [put_none hnone, List.countP_append, List.countP_singleton, if_neg (by simp [hnew])]
    omega
  · obtain ⟨old, before, after, rfl, hold, hafter⟩ := exists_last hnone
    rw [put_last hold hafter, List.countP_append, List.countP_append,
      List.countP_cons_of_neg (by simp [hnew]), List.countP_cons]
    omega

theorem countP_put {all : List (κ × α)} (hapart : Apart regexp all) {item item' : κ × α}
    (hitem : item ∈ all) (hitem' : item' ∈ all) (l : List α) :
    (put (regexp item'.1) item'.2 l).countP (regexp item.1) ≤
      max 1 (l.countP (regexp item.1)) := by
  by_cases hkey : item'.1 = item.1
  · rw [hkey]
    by_cases hnone : ∀ a ∈ l, regexp item.1 a = false
    · have hcount : l.countP (regexp item.1) = 0 :=
        List.countP_eq_zero.mpr fun a ha => by simp [hnone a ha]
      rw [put_none hnone, List.countP_append, hcount, Nat.zero_add]
      exact (List.countP_le_length).trans (Nat.le_max_left _ _)
    · obtain ⟨old, before, after, rfl, hold, hafter⟩ := exists_last hnone
      rw [put_last hold hafter, List.countP_append, List.countP_append,
        List.countP_cons_of_pos hold]
      have hnew : (item'.2 :: after).countP (regexp item.1) ≤ after.countP (regexp item.1) + 1 := by
        rw [List.countP_cons]
        split <;> omega
      omega
  · have hother := countP_put_le (p := regexp item'.1) (hapart.distinct hitem' hitem (Ne.symm hkey)) l
    omega

theorem countP_puts {all items : List (κ × α)} (hapart : Apart regexp all) (hsub : items ⊆ all)
    {item : κ × α} (hitem : item ∈ all) (l : List α) :
    (puts regexp items l).countP (regexp item.1) ≤ max 1 (l.countP (regexp item.1)) := by
  induction items generalizing l with
  | nil => exact le_max_right _ _
  | cons first items ih =>
    obtain ⟨hfirst, hsub⟩ := List.cons_subset.mp hsub
    have hone := countP_put hapart hitem hfirst l
    have hrest := ih hsub (put (regexp first.1) first.2 l)
    change (puts regexp items (put (regexp first.1) first.2 l)).countP _ ≤ _
    omega

theorem placed_of_sublist {items : List (κ × α)} (hapart : Apart regexp items) {l : List α}
    (hsub : l.Sublist (puts regexp items l)) : Placed regexp items l := by
  intro item hlast old hold
  have hcount := countP_puts hapart (List.Subset.refl _) hlast.mem l
  have hpos : 0 < l.countP (regexp item.1) := by
    obtain ⟨before, after, rfl, hold, -⟩ := hold
    exact List.countP_pos_iff.mpr ⟨old, List.mem_append_right _ List.mem_cons_self, hold⟩
  -- as many matches as before, so the matches are the same ones
  have hsame : l.filter (regexp item.1) = (puts regexp items l).filter (regexp item.1) := by
    refine (hsub.filter _).eq_of_length_le ?_
    rw [← List.countP_eq_length_filter, ← List.countP_eq_length_filter]
    omega
  refine Option.some.inj ?_
  rw [← hold.filter, hsame]
  exact (last_puts hapart hlast l).filter

/-! ## Where each line is afterwards -/

theorem Tracked.refl (items : List (κ × α)) (content l : List α) :
    Tracked regexp items content l l := by
  induction l with
  | nil => exact .added fun a ha => by cases ha
  | cons a l ih => exact .same ih

variable {items : List (κ × α)} {content l l' : List α}

theorem Tracked.unmatched (hapart : Apart regexp items)
    (htracked : Tracked regexp items content l l') {item : κ × α}
    (hitem : item ∈ items) (hnone : ∀ b ∈ l', regexp item.1 b = false) :
    ∀ b ∈ l, regexp item.1 b = false := by
  induction htracked with
  | added => exact fun b hb => by cases hb
  | same _ ih =>
    obtain ⟨ha, hnone⟩ := List.forall_mem_cons.mp hnone
    exact List.forall_mem_cons.mpr ⟨ha, ih hnone⟩
  | @renewed last held _ _ hlast hheld hkey _ _ ih =>
    obtain ⟨hno, hnone⟩ := List.forall_mem_cons.mp hnone
    refine List.forall_mem_cons.mpr ⟨hapart.distinct hlast.mem hitem fun hsame => ?_, ih hnone⟩
    rw [hsame, ← hkey, hapart.own held hheld] at hno
    cases hno

theorem Tracked.unmatched_behind (hapart : Apart regexp items)
    (htracked : Tracked regexp items content l l') {item : κ × α}
    (hitem : item ∈ items) (hcontent : item.2 ∈ content)
    (hnone : ∀ b ∈ l, regexp item.1 b = false) : ∀ b ∈ l', regexp item.1 b = false := by
  induction htracked with
  | added hextra =>
    intro b hb
    obtain ⟨other, hother, rfl, hno⟩ := hextra b hb
    refine hapart.distinct hother hitem fun hsame => ?_
    have hmatch := hno item.2 hcontent
    rw [← hsame, hapart.own item hitem] at hmatch
    cases hmatch
  | same _ ih =>
    obtain ⟨ha, hnone⟩ := List.forall_mem_cons.mp hnone
    exact List.forall_mem_cons.mpr ⟨ha, ih hnone⟩
  | @renewed last held _ _ hlast hheld hkey _ _ ih =>
    obtain ⟨hno, hnone⟩ := List.forall_mem_cons.mp hnone
    refine List.forall_mem_cons.mpr ⟨hapart.distinct hheld hitem fun hsame => ?_, ih hnone⟩
    rw [hsame, hkey, hapart.own last hlast.mem] at hno
    cases hno

theorem Tracked.replace (hapart : Apart regexp items)
    (htracked : Tracked regexp items content l l') (hplaced : Placed regexp items l)
    {item : κ × α} (hitem : item ∈ items) {before after : List α} {old : α}
    (hsplit : l' = before ++ old :: after) (hold : regexp item.1 old = true)
    (hafter : ∀ b ∈ after, regexp item.1 b = false) :
    Tracked regexp items content l (before ++ item.2 :: after) := by
  induction htracked generalizing before with
  | added hextra =>
    subst hsplit
    obtain ⟨hbefore, hold', hafter'⟩ := by simpa only [List.forall_mem_append, List.forall_mem_cons]
      using hextra
    refine .added (List.forall_mem_append.mpr ⟨hbefore, List.forall_mem_cons.mpr ⟨?_, hafter'⟩⟩)
    obtain ⟨other, hother, rfl, hno⟩ := hold'
    refine ⟨item, hitem, rfl, ?_⟩
    rwa [hapart.other other hother item hitem hold]
  | @same a l l' hrest ih =>
    cases before with
    | nil =>
      obtain ⟨rfl, rfl⟩ := List.cons.inj hsplit
      have hnone := hrest.unmatched hapart hitem hafter
      obtain ⟨last, hlast, hkey⟩ := exists_isLast hitem
      rw [← hkey] at hold hnone
      rw [hplaced last hlast a ⟨[], l, rfl, hold, hnone⟩]
      exact .renewed hlast hitem hkey.symm hnone hrest
    | cons first before =>
      obtain ⟨rfl, hrest⟩ := List.cons.inj hsplit
      exact .same (ih hplaced.tail hrest)
  | @renewed last held l l' hlast hheld hkey hnone hrest ih =>
    cases before with
    | nil =>
      obtain ⟨rfl, rfl⟩ := List.cons.inj hsplit
      have hsame := hapart.other held hheld item hitem hold
      exact .renewed hlast hitem (hsame.trans hkey) hnone hrest
    | cons first before =>
      obtain ⟨rfl, hrest⟩ := List.cons.inj hsplit
      exact .renewed hlast hheld hkey hnone (ih hplaced.tail hrest)

theorem Tracked.append (htracked : Tracked regexp items content l l') {item : κ × α}
    (hitem : item ∈ items) (hnone : ∀ b ∈ content, regexp item.1 b = false) :
    Tracked regexp items content l (l' ++ [item.2]) := by
  induction htracked with
  | added hextra =>
    refine .added (List.forall_mem_append.mpr ⟨hextra, ?_⟩)
    intro a ha
    exact ⟨item, hitem, List.mem_singleton.mp ha, hnone⟩
  | same _ ih => exact .same ih
  | renewed hlast hheld hkey hbehind _ ih => exact .renewed hlast hheld hkey hbehind ih

theorem Tracked.puts {all : List (κ × α)} (hapart : Apart regexp all) (hsub : items ⊆ all)
    (hplaced : Placed regexp all content)
    (htracked : Tracked regexp all content content l) :
    Tracked regexp all content content (puts regexp items l) := by
  induction items generalizing l with
  | nil => exact htracked
  | cons item items ih =>
    obtain ⟨hitem, hsub⟩ := List.cons_subset.mp hsub
    refine ih hsub ?_
    change Tracked regexp all content content (put (regexp item.1) item.2 l)
    by_cases hnone : ∀ b ∈ l, regexp item.1 b = false
    · rw [put_none hnone]
      exact htracked.append hitem (htracked.unmatched hapart hitem hnone)
    · obtain ⟨old, before, after, rfl, hold, hafter⟩ := exists_last hnone
      rw [put_last hold hafter]
      exact htracked.replace hapart hplaced hitem rfl hold hafter

theorem Tracked.sublist (hapart : Apart regexp items)
    (htracked : Tracked regexp items content l l') (hsub : l ⊆ content)
    (hplaced : Placed regexp items l') : l.Sublist l' := by
  induction htracked with
  | added => exact List.nil_sublist _
  | same _ ih => exact (ih (List.cons_subset.mp hsub).2 hplaced.tail).cons_cons _
  | @renewed last held l l' hlast hheld hkey hnone hrest ih =>
    obtain ⟨hmem, hsub⟩ := List.cons_subset.mp hsub
    have hbehind := hrest.unmatched_behind hapart hlast.mem hmem hnone
    have hown : regexp last.1 held.2 = true := by
      rw [← hkey]
      exact hapart.own held hheld
    rw [hplaced last hlast held.2 ⟨[], l', rfl, hown, hbehind⟩]
    exact (ih hsub hplaced.tail).cons_cons _

/-- Every line stays, in order, exactly where the last match of each key is the
line of its last item. -/
theorem sublist_puts_iff (hapart : Apart regexp items) (l : List α) :
    l.Sublist (puts regexp items l) ↔ Placed regexp items l := by
  refine ⟨placed_of_sublist hapart, fun hplaced => ?_⟩
  have htracked := (Tracked.refl items l l).puts hapart (List.Subset.refl _) hplaced
  exact htracked.sublist hapart (List.Subset.refl _) (placed_puts hapart l)

end Put

/-! ## The lines of the file -/

section File

variable {κ : Type} {regexp : κ → Text → Bool}

theorem replaceLast_map {α β : Type} {f : α → β} {p : β → Bool} {new : α} (l : List α) :
    replaceLast p (f new) (l.map f) = (replaceLast (p ∘ f) new l).map (List.map f) := by
  induction l with
  | nil => rfl
  | cons a l ih =>
    rw [List.map_cons, replaceLast, replaceLast, ih]
    cases replaceLast (p ∘ f) new l with
    | some edited => rfl
    | none =>
      change (if p (f a) = true then _ else _) =
        Option.map (List.map f) (if p (f a) = true then some (new :: l) else none)
      split <;> rfl

theorem chomp_finish (rows : List Text) : (finish rows).map chomp = rows.map chomp := by
  induction rows with
  | nil => rfl
  | cons row rows ih =>
    cases rows with
    | nil =>
      rw [finish]
      split
      · rfl
      · rename_i hopen
        rw [List.map_singleton, List.map_singleton, chomp_concat, chomp, if_neg hopen]
    | cons next rows => rw [finish, List.map_cons, ih, List.map_cons, List.map_cons, List.map_cons]

/-- An expression that asks for no line end reads a line with or without it. -/
theorem match_chomp {p : Text → Bool} (hfinish : ∀ line, p (line ++ ['\n']) = p line) (line : Text) :
    p (chomp line) = p line := by
  rcases chomp_cases line with hline | hline
  · rw [← hline]
  · conv_rhs => rw [hline, hfinish]

theorem chomp_edit {p : Text → Bool} (hfinish : ∀ line, p (line ++ ['\n']) = p line) (line : Text)
    (rows : List Text) : (edit p line rows).map chomp = put p line (rows.map chomp) := by
  have hread : p ∘ chomp = p := funext (match_chomp hfinish)
  have hmap : replaceLast p (chomp (line ++ ['\n'])) (rows.map chomp) =
      (replaceLast (p ∘ chomp) (line ++ ['\n']) rows).map (List.map chomp) := replaceLast_map rows
  rw [chomp_concat, hread] at hmap
  rw [put, hmap, edit]
  cases replaceLast p (line ++ ['\n']) rows with
  | some edited => rfl
  | none =>
    dsimp only [Option.map_none, Option.getD_none]
    rw [List.map_append, chomp_finish, List.map_singleton, chomp_concat]

theorem Keyed.apart {items : List (κ × Text)} (hkeyed : Keyed regexp items) :
    Apart regexp items := by
  refine ⟨fun item hitem => ?_, fun item hitem item' hitem' hmatch => ?_⟩
  · rw [← hkeyed.finish item hitem]
    exact hkeyed.own item hitem
  · refine hkeyed.other item hitem item' hitem' ?_
    rw [row, hkeyed.finish item' hitem', hmatch]

theorem chomp_edits {items all : List (κ × Text)} (hkeyed : Keyed regexp all) (hsub : items ⊆ all)
    (rows : List Text) :
    (edits regexp items rows).map chomp = puts regexp items (rows.map chomp) := by
  induction items generalizing rows with
  | nil => rfl
  | cons item items ih =>
    obtain ⟨hitem, hsub⟩ := List.cons_subset.mp hsub
    have hone := chomp_edit (hkeyed.finish item hitem) item.2 rows
    change (edits regexp items (edit (regexp item.1) item.2 rows)).map chomp =
      puts regexp items (put (regexp item.1) item.2 (rows.map chomp))
    rw [ih hsub, hone]

/-! ## A file that ends with a return -/

theorem readlines_replaced {p : Text → Bool} {line content : Text} (hline : '\n' ∉ line)
    (hmatch : ¬ ∀ row ∈ readlines content, p row = false) :
    readlines (lineinfile (some p) line content) = edit p line (readlines content) := by
  have hnew : ¬ line.getLast? = some '\n' := fun hlast => hline (List.mem_of_getLast? hlast)
  have hrows : Rows (edit p line (readlines content)) := rows_edit hline (rows_readlines content)
  unfold lineinfile
  simp only [if_neg hnew, Option.bind_some]
  rw [← readlines_flatten hrows, edit]
  cases hreplace : replaceLast p (line ++ ['\n']) (readlines content) with
  | some edited => rfl
  | none => exact absurd (replaceLast_none.mp hreplace) hmatch

theorem exists_last_row {content : Text} {c : Char} (hlast : content.getLast? = some c) :
    ∃ rows last, readlines content = rows ++ [last] ∧ last.getLast? = some c := by
  have hflat := getLast_flatten (rows_readlines content)
  rw [flatten_readlines, hlast] at hflat
  obtain ⟨last, hrow, hend⟩ := Option.bind_eq_some_iff.mp hflat.symm
  obtain ⟨rows, hrows⟩ := List.getLast?_eq_some_iff.mp hrow
  exact ⟨rows, last, hrows, hend⟩

def endsReturn (line : Text) : Bool := line.getLast? == some '\r'

def returns (content : Text) : Nat := (lines content).countP endsReturn

theorem chomp_return {row : Text} (hrow : row.getLast? = some '\r') : chomp row = row := by
  rw [chomp, if_neg (by simp [hrow])]

theorem returns_of_rows {content row : Text} {rows : List Text}
    (hrows : readlines content = rows ++ [row]) :
    returns content = (rows.map chomp).countP endsReturn + [chomp row].countP endsReturn := by
  rw [returns, lines, hrows, List.map_append, List.countP_append]
  rfl

theorem Rows.not_mem_last {rows : List Text} {last : Text} (hrows : Rows (rows ++ [last]))
    (hlast : last.getLast? ≠ some '\n') : '\n' ∉ last := by
  induction rows with
  | nil =>
    obtain ⟨hended | ⟨-, hopen⟩, -⟩ := hrows
    · exact absurd hended.getLast? hlast
    · exact hopen.2
  | cons first rows ih => exact ih (hrows.cons_of_ne_nil (by simp)).2

theorem Rows.last_of_open {before after : List Text} {old : Text}
    (hrows : Rows (before ++ old :: after)) (hopen : old.getLast? ≠ some '\n') : after = [] := by
  induction before with
  | nil =>
    obtain ⟨hended | ⟨hnil, -⟩, -⟩ := hrows
    · exact absurd hended.getLast? hopen
    · exact hnil
  | cons first before ih => exact ih (hrows.cons_of_ne_nil (by simp)).2

/-- A file that ends with a return loses that line, unless another line is
replaced. -/
theorem lineinfile_return {p : Text → Bool} {line content : Text} (hline : '\n' ∉ line)
    (hne : line ≠ []) (hend : line.getLast? ≠ some '\r')
    (hexact : ∀ row, rstripEnd row = line → p row = true)
    (hreturn : content.getLast? = some '\r') :
    (¬ (∀ row ∈ readlines content, p row = false) ∧
        (lineinfile (some p) line content).getLast? = some '\r') ∨
      returns (lineinfile (some p) line content) < returns content := by
  obtain ⟨rows, last, hrows, hlast⟩ := exists_last_row hreturn
  have hbefore := returns_of_rows hrows
  rw [chomp_return hlast, List.countP_singleton,
    if_pos (show endsReturn last = true from beq_iff_eq.mpr hlast)] at hbefore
  by_cases hnone : ∀ row ∈ readlines content, p row = false
  · -- the line is put right behind the return
    right
    have hadded : lineinfile (some p) line content = content ++ (line ++ ['\n']) := by
      have hno : ¬ line.getLast? = some '\n' := fun hlast => hline (List.mem_of_getLast? hlast)
      have hsame : replaceLast (fun row => rstripEnd row == line) (line ++ ['\n'])
          (readlines content) = none := by
        refine replaceLast_none.mpr fun row hrow => beq_eq_false_iff_ne.mpr fun heq => ?_
        have hmatch := hnone row hrow
        rw [hexact row heq] at hmatch
        cases hmatch
      have hends : content.getLast? ∈ [none, some '\n', some '\r'] := by simp [hreturn]
      simp only [lineinfile, if_neg hno, Option.bind_some, replaceLast_none.mpr hnone, hsame,
        if_pos hends]
    have hglued : Rows (rows ++ [(last ++ line) ++ ['\n']]) := by
      have hall := rows_readlines content
      rw [hrows] at hall
      refine hall.replace (ended_line ?_)
      have hopen := hall.not_mem_last (by simp [hlast])
      simp [hopen, hline]
    have hread : readlines (lineinfile (some p) line content) =
        rows ++ [(last ++ line) ++ ['\n']] := by
      rw [hadded, ← readlines_flatten hglued, ← flatten_readlines content, hrows]
      simp
    have hafter := returns_of_rows hread
    rw [chomp_concat, List.countP_singleton, if_neg] at hafter
    · omega
    · rw [endsReturn, List.getLast?_append_of_ne_nil _ hne]
      simp [hend]
  · have hedit := readlines_replaced hline hnone
    obtain ⟨old, before, after, hsplit, hold, hno⟩ := exists_last hnone
    rw [edit, hsplit, replaceLast_append hold hno] at hedit
    dsimp only at hedit
    rcases List.eq_nil_or_concat after with rfl | ⟨after, final, rfl⟩
    · right
      rw [hrows] at hsplit
      obtain ⟨rfl, -⟩ := List.append_inj' hsplit rfl
      have hafter := returns_of_rows hedit
      rw [chomp_concat, List.countP_singleton, if_neg (by simp [endsReturn, hend])] at hafter
      omega
    · left
      refine ⟨hnone, ?_⟩
      rw [List.concat_eq_append] at hsplit hedit
      have hmove : before ++ old :: (after ++ [final]) = (before ++ old :: after) ++ [final] := by
        simp
      rw [hrows, hmove] at hsplit
      obtain ⟨-, hfinal⟩ := List.append_inj' hsplit rfl
      obtain rfl := (List.cons.inj hfinal).1
      have hrow : (readlines (lineinfile (some p) line content)).getLast? = some last := by
        rw [hedit, ← List.cons_append, ← List.append_assoc, List.getLast?_concat]
      rw [← flatten_readlines (lineinfile _ _ _), getLast_flatten (rows_readlines _), hrow,
        Option.bind_some, hlast]

theorem returns_lineinfile {p : Text → Bool} {line content : Text} (hline : '\n' ∉ line)
    (hne : line ≠ []) (hend : line.getLast? ≠ some '\r')
    (hexact : ∀ row, rstripEnd row = line → p row = true)
    (hfinish : ∀ row, p (row ++ ['\n']) = p row) :
    returns (lineinfile (some p) line content) ≤ returns content := by
  have hnew : endsReturn line = false := by simp [endsReturn, hend]
  have hedit (hread : readlines (lineinfile (some p) line content) =
      edit p line (readlines content)) :
      returns (lineinfile (some p) line content) ≤ returns content := by
    rw [returns, lines, hread, chomp_edit hfinish]
    exact countP_put_le hnew _
  by_cases hreturn : content.getLast? = some '\r'
  · rcases lineinfile_return hline hne hend hexact hreturn with ⟨hmatch, -⟩ | hless
    · exact hedit (readlines_replaced hline hmatch)
    · exact hless.le
  · exact hedit (readlines_lineinfile hline hexact hreturn)

def NoReturn (items : List (κ × Text)) : Prop :=
  ∀ item ∈ items, item.2 ≠ [] ∧ item.2.getLast? ≠ some '\r'

def Matched (regexp : κ → Text → Bool) (items : List (κ × Text)) (rows : List Text) : Prop :=
  ∀ item ∈ items, ∃ row ∈ rows, regexp item.1 row = true

theorem returns_run {items all : List (κ × Text)} (hkeyed : Keyed regexp all)
    (hno : NoReturn all) (hsub : items ⊆ all) (content : Text) :
    returns (run regexp items content) ≤ returns content := by
  induction items generalizing content with
  | nil => exact le_rfl
  | cons item items ih =>
    obtain ⟨hitem, hsub⟩ := List.cons_subset.mp hsub
    obtain ⟨hne, hend⟩ := hno item hitem
    exact (ih hsub _).trans (returns_lineinfile (hkeyed.single item hitem) hne hend
      (hkeyed.exactly item hitem) (hkeyed.finish item hitem))

/-- Behind a return the loop loses the last line, unless every key matches a
line of the file. -/
theorem run_return {items all : List (κ × Text)} (hkeyed : Keyed regexp all)
    (hno : NoReturn all) (hsub : items ⊆ all) {content : Text}
    (hreturn : content.getLast? = some '\r') :
    (Matched regexp items (readlines content) ∧
        readlines (run regexp items content) = edits regexp items (readlines content)) ∨
      returns (run regexp items content) < returns content := by
  induction items generalizing content with
  | nil => exact .inl ⟨fun _ hitem => (List.not_mem_nil hitem).elim, rfl⟩
  | cons item items ih =>
    obtain ⟨hitem, hsub⟩ := List.cons_subset.mp hsub
    obtain ⟨hne, hend⟩ := hno item hitem
    have hsingle := hkeyed.single item hitem
    have hexact := hkeyed.exactly item hitem
    change _ ∨ returns (run regexp items (lineinfile (some (regexp item.1)) item.2 content)) < _
    rcases lineinfile_return hsingle hne hend hexact hreturn with ⟨hmatch, hlast⟩ | hless
    · have hone := readlines_replaced hsingle hmatch
      rcases ih hsub hlast with ⟨hmatched, hrun⟩ | hless
      · refine .inl ⟨List.forall_mem_cons.mpr ⟨by simpa using hmatch, ?_⟩, ?_⟩
        · intro other hother
          obtain ⟨line, hline, hother'⟩ := hmatched other hother
          obtain ⟨old, before, after, hsplit, hold, hafter⟩ := exists_last hmatch
          rw [hone, hsplit, edit_last hold hafter] at hline
          rw [hsplit]
          have hsplit := List.mem_append.mp hline
          simp only [List.mem_cons] at hsplit
          rcases hsplit with hline | rfl | hline
          · exact ⟨line, List.mem_append_left _ hline, hother'⟩
          · refine ⟨old, List.mem_append_right _ List.mem_cons_self, ?_⟩
            rw [hkeyed.other item hitem other (hsub hother) hother']
            exact hold
          · exact ⟨line, List.mem_append_right _ (List.mem_cons_of_mem _ hline), hother'⟩
        · rw [hone] at hrun
          exact hrun
      · exact .inr (hless.trans_le
          (returns_lineinfile hsingle hne hend hexact (hkeyed.finish item hitem)))
    · exact .inr ((returns_run hkeyed hno hsub _).trans_lt hless)

/-- Where the lines are not lost at a return and each key's last match is in
place. -/
structure Steady (regexp : κ → Text → Bool) (items : List (κ × Text)) (content : Text) : Prop where
  placed : Placed regexp items (lines content)
  matched : content.getLast? = some '\r' → Matched regexp items (lines content)

theorem steady_of_sublist {items : List (κ × Text)} (hkeyed : Keyed regexp items)
    (hno : NoReturn items) {content : Text}
    (hsub : (lines content).Sublist (lines (run regexp items content))) :
    Steady regexp items content := by
  have hplaced (hrun : readlines (run regexp items content) = edits regexp items (readlines content)) :
      Placed regexp items (lines content) := by
    refine placed_of_sublist hkeyed.apart ?_
    rwa [lines, lines, hrun, chomp_edits hkeyed (List.Subset.refl _)] at hsub
  by_cases hreturn : content.getLast? = some '\r'
  · rcases run_return hkeyed hno (List.Subset.refl _) hreturn with ⟨hmatched, hrun⟩ | hless
    · refine ⟨hplaced hrun, fun _ item hitem => ?_⟩
      obtain ⟨line, hline, hmatch⟩ := hmatched item hitem
      refine ⟨chomp line, List.mem_map_of_mem hline, ?_⟩
      rw [match_chomp (hkeyed.finish item hitem), hmatch]
    · have hcount := hsub.countP_le (p := endsReturn)
      rw [returns, returns] at hless
      omega
  · exact ⟨hplaced (readlines_run hkeyed (List.Subset.refl _) hreturn).1,
      fun hlast => absurd hlast hreturn⟩

theorem LastIs.of_map {α β : Type} {f : α → β} {p : β → Bool} {q : α → Bool} {a : α} {l : List α}
    (hlast : LastIs q a l) (hread : ∀ b, p (f b) = q b) : LastIs p (f a) (l.map f) := by
  obtain ⟨before, after, rfl, ha, hafter⟩ := hlast
  refine ⟨before.map f, after.map f, by simp, by rw [hread, ha], fun b hb => ?_⟩
  obtain ⟨c, hc, rfl⟩ := List.mem_map.mp hb
  rw [hread, hafter c hc]

/-- At a return every key has its row as it is written, with its end. -/
theorem final_of_steady {items : List (κ × Text)} (hkeyed : Keyed regexp items)
    (hno : NoReturn items) {content : Text} (hsteady : Steady regexp items content)
    (hreturn : content.getLast? = some '\r') : Final regexp items (readlines content) := by
  rintro before item after rfl hafter
  have hitem : item ∈ before ++ item :: after := List.mem_append_right _ List.mem_cons_self
  have hread := match_chomp (hkeyed.finish item hitem)
  obtain ⟨line, hline, hmatch⟩ := hsteady.matched hreturn item hitem
  obtain ⟨found, hfound, rfl⟩ := List.mem_map.mp hline
  rw [hread] at hmatch
  obtain ⟨old, hold⟩ : ∃ old, LastIs (regexp item.1) old (readlines content) :=
    exists_last fun hnone => by simp [hnone found hfound] at hmatch
  have hsame : chomp old = item.2 :=
    hsteady.placed item ⟨before, after, rfl, hafter⟩ (chomp old) (hold.of_map hread)
  suffices hrow : old = row item by rwa [← hrow]
  by_cases hended : old.getLast? = some '\n'
  · rw [chomp, if_pos hended] at hsame
    rw [row, ← hsame]
    exact (List.dropLast_append_getLast? _ hended).symm
  · rw [chomp, if_neg hended] at hsame
    obtain ⟨rows, rest, hsplit, -, -⟩ := hold
    have hrows := rows_readlines content
    have hlast := getLast_flatten hrows
    rw [flatten_readlines, hreturn] at hlast
    rw [hsplit] at hrows hlast
    rw [hrows.last_of_open hended, List.getLast?_concat, Option.bind_some, hsame] at hlast
    exact absurd hlast.symm (hno item hitem).2

theorem run_of_slots {items all : List (κ × Text)} (hkeyed : Keyed regexp all)
    (hsub : items ⊆ all) {content : Text}
    (hslots : ∀ item ∈ items, Slot regexp all item (readlines content)) :
    readlines (run regexp items content) = edits regexp items (readlines content) := by
  induction items generalizing content with
  | nil => rfl
  | cons item items ih =>
    obtain ⟨hitem, hsub⟩ := List.cons_subset.mp hsub
    obtain ⟨hslot, hslots⟩ := List.forall_mem_cons.mp hslots
    have hmatch : ¬ ∀ line ∈ readlines content, regexp item.1 line = false := by
      obtain ⟨held, -, -, before, after, hsplit, hown, -⟩ := hslot
      intro hnone
      rw [hnone (row held) (by simp [hsplit])] at hown
      cases hown
    have hone := readlines_replaced (hkeyed.single item hitem) hmatch
    change readlines (run regexp items (lineinfile (some (regexp item.1)) item.2 content)) = _
    rw [ih hsub fun other hother => by rw [hone]; exact (hslots other hother).edit hkeyed hitem,
      hone]
    rfl

theorem readlines_run_steady {items : List (κ × Text)} (hkeyed : Keyed regexp items)
    (hno : NoReturn items) {content : Text} (hsteady : Steady regexp items content) :
    readlines (run regexp items content) = edits regexp items (readlines content) := by
  by_cases hreturn : content.getLast? = some '\r'
  · have hfinal := final_of_steady hkeyed hno hsteady hreturn
    exact run_of_slots hkeyed (List.Subset.refl _) fun item hitem =>
      slot_of_final hfinal (List.Subset.refl _) hitem
  · exact (readlines_run hkeyed (List.Subset.refl _) hreturn).1

/-- The loop keeps every line of the file, in order, exactly there. -/
theorem sublist_run_iff {items : List (κ × Text)} (hkeyed : Keyed regexp items)
    (hno : NoReturn items) {content : Text} :
    (lines content).Sublist (lines (run regexp items content)) ↔ Steady regexp items content := by
  refine ⟨steady_of_sublist hkeyed hno, fun hsteady => ?_⟩
  rw [lines, lines, readlines_run_steady hkeyed hno hsteady,
    chomp_edits hkeyed (List.Subset.refl _)]
  exact (sublist_puts_iff hkeyed.apart _).mpr hsteady.placed

theorem run_run_steady {items : List (κ × Text)} (hkeyed : Keyed regexp items)
    (hno : NoReturn items) {content : Text} (hsteady : Steady regexp items content) :
    run regexp items (run regexp items content) = run regexp items content := by
  by_cases hreturn : content.getLast? = some '\r'
  · have hfinal := final_of_steady hkeyed hno hsteady hreturn
    have hrun := readlines_run_steady hkeyed hno hsteady
    rw [edits_same hkeyed (List.Subset.refl _) hfinal] at hrun
    have hsame : run regexp items content = content := by
      rw [← flatten_readlines (run regexp items content), hrun, flatten_readlines]
    rw [hsame, hsame]
  · exact run_run hkeyed hreturn

/-- Each key has the line of its last item. -/
theorem mem_run_steady {items : List (κ × Text)} (hkeyed : Keyed regexp items)
    (hno : NoReturn items) {content : Text} (hsteady : Steady regexp items content)
    {item : κ × Text} (hlast : IsLast items item) :
    item.2 ∈ lines (run regexp items content) := by
  rw [lines, readlines_run_steady hkeyed hno hsteady, chomp_edits hkeyed (List.Subset.refl _)]
  obtain ⟨before, after, hsplit, -, -⟩ :=
    last_puts hkeyed.apart hlast ((readlines content).map chomp)
  rw [hsplit]
  exact List.mem_append_right _ List.mem_cons_self

end File

end Provisioner.LineInFile
