import Mathlib.Data.List.Sort
import Mathlib.Data.List.Nodup

/-!
# Sorting and deduplicating under a key

Template filters compare what they sort and deduplicate by a key (for strings,
the text in lower case). `sort` is stable and `unique` keeps the first item of
each key, so an item can be hidden by another one that only shares its key.
-/

namespace Provisioner.Jinja

variable {α κ : Type}

section Deduplication

variable [DecidableEq κ]

def unique (key : α → κ) : List α → List α
  | [] => []
  | a :: rest => a :: (unique key rest).filter fun b => key b ≠ key a

variable {key : α → κ}

theorem mem_unique_iff {l : List α} {a : α} :
    a ∈ unique key l ↔ l.find? (fun b => key b = key a) = some a := by
  induction l with
  | nil => simp [unique]
  | cons b rest ih =>
    rw [unique, List.mem_cons, List.mem_filter, List.find?_cons]
    by_cases hkey : key b = key a
    · simp [hkey, eq_comm]
    · simp only [hkey, decide_false, ih]
      constructor
      · rintro (rfl | ⟨h, -⟩)
        · exact absurd rfl hkey
        · exact h
      · intro h
        exact .inr ⟨h, decide_eq_true fun heq => hkey heq.symm⟩

theorem mem_of_mem_unique {l : List α} {a : α} (h : a ∈ unique key l) : a ∈ l :=
  List.mem_of_find?_eq_some (mem_unique_iff.mp h)

theorem exists_mem_unique {l : List α} {a : α} (h : a ∈ l) :
    ∃ b ∈ unique key l, key b = key a := by
  induction l with
  | nil => cases h
  | cons c rest ih =>
    rw [unique]
    by_cases hkey : key c = key a
    · exact ⟨c, List.mem_cons_self, hkey⟩
    · rcases List.mem_cons.mp h with rfl | h
      · exact absurd rfl hkey
      · obtain ⟨b, hb, hba⟩ := ih h
        refine ⟨b, List.mem_cons_of_mem _ (List.mem_filter.mpr ⟨hb, ?_⟩), hba⟩
        simpa [hba] using Ne.symm hkey

theorem nodup_unique (l : List α) : ((unique key l).map key).Nodup := by
  induction l with
  | nil => exact List.nodup_nil
  | cons a rest ih =>
    rw [unique, List.map_cons, List.nodup_cons]
    constructor
    · simp only [List.mem_map, List.mem_filter, decide_eq_true_eq, not_exists, not_and]
      rintro b ⟨-, hne⟩
      exact hne
    · exact ih.sublist (List.filter_sublist.map _)

theorem unique_sublist (l : List α) : (unique key l).Sublist l := by
  induction l with
  | nil => exact List.Sublist.slnil
  | cons a rest ih => exact (List.filter_sublist.trans ih).cons_cons a

theorem nodup_of_length_unique {l : List α} (h : (unique key l).length = l.length) :
    (l.map key).Nodup := by
  have hsame := (@unique_sublist _ _ _ key l).eq_of_length h
  rw [← hsame]
  exact nodup_unique l

/-- Where no two different items share a key, `unique` loses nothing. -/
theorem mem_unique_of_inj {l : List α} (hinj : ∀ a ∈ l, ∀ b ∈ l, key a = key b → a = b) {a : α} :
    a ∈ unique key l ↔ a ∈ l := by
  refine ⟨mem_of_mem_unique, fun h => ?_⟩
  obtain ⟨b, hb, hkey⟩ : ∃ b ∈ unique key l, key b = key a := exists_mem_unique h
  rwa [← hinj b (mem_of_mem_unique hb) a h hkey]

theorem unique_eq_self {l : List α} (h : (l.map key).Nodup) : unique key l = l := by
  induction l with
  | nil => rfl
  | cons a rest ih =>
    rw [List.map_cons, List.nodup_cons] at h
    rw [unique, ih h.2, List.filter_eq_self.mpr]
    intro b hb
    apply decide_eq_true
    intro heq
    exact h.1 (heq ▸ List.mem_map_of_mem hb)

theorem unique_eq_singleton {l : List α} {a : α} (hne : l ≠ []) (h : ∀ b ∈ l, b = a) :
    unique key l = [a] := by
  cases l with
  | nil => exact absurd rfl hne
  | cons b rest =>
    obtain rfl := h b List.mem_cons_self
    rw [unique, List.filter_eq_nil_iff.mpr]
    intro c hc
    obtain rfl := h c (List.mem_cons_of_mem _ (mem_of_mem_unique hc))
    simp

end Deduplication

section Sorting

variable [LinearOrder κ]

def sort (key : α → κ) (l : List α) : List α := l.insertionSort fun a b => key a ≤ key b

variable {key : α → κ}

@[simp] theorem mem_sort {l : List α} {a : α} : a ∈ sort key l ↔ a ∈ l := List.mem_insertionSort _

theorem sort_perm (l : List α) : (sort key l).Perm l := List.perm_insertionSort _ l

theorem pairwise_sort (l : List α) : (sort key l).Pairwise fun a b => key a ≤ key b := by
  have : Std.Total fun a b : α => key a ≤ key b := ⟨fun a b => le_total (key a) (key b)⟩
  have : IsTrans α fun a b => key a ≤ key b := ⟨fun _ _ _ => le_trans⟩
  exact List.pairwise_insertionSort _ l

theorem sort_sort (l : List α) : sort key (sort key l) = sort key l :=
  List.Pairwise.insertionSort_eq (pairwise_sort l)

theorem filter_orderedInsert {p : α → Bool} {k : κ} (hp : ∀ b, p b = true ↔ key b = k) (a : α)
    (l : List α) : (l.orderedInsert (fun a b => key a ≤ key b) a).filter p = (a :: l).filter p := by
  induction l with
  | nil => rfl
  | cons b rest ih =>
    rw [List.orderedInsert_cons]
    by_cases hle : key a ≤ key b
    · rw [if_pos hle]
    · rw [if_neg hle, List.filter_cons, ih]
      by_cases ha : p a = true
      · have hb : p b ≠ true := fun h => hle (by rw [(hp a).mp ha, (hp b).mp h])
        simp [ha, hb]
      · simp [ha, List.filter_cons]

theorem filter_sort {p : α → Bool} {k : κ} (hp : ∀ b, p b = true ↔ key b = k) (l : List α) :
    (sort key l).filter p = l.filter p := by
  induction l with
  | nil => rfl
  | cons a rest ih =>
    rw [sort, List.insertionSort_cons, filter_orderedInsert hp, List.filter_cons, List.filter_cons]
    rw [sort] at ih
    rw [ih]

theorem find_sort {p : α → Bool} {k : κ} (hp : ∀ b, p b = true ↔ key b = k) (l : List α) :
    (sort key l).find? p = l.find? p := by
  rw [← List.head?_filter, ← List.head?_filter, filter_sort hp]

theorem pairwise_lt_of_nodup {l : List α} (hsorted : l.Pairwise fun a b => key a ≤ key b)
    (hnodup : (l.map key).Nodup) : l.Pairwise fun a b => key a < key b := by
  have hne : l.Pairwise fun a b => key a ≠ key b := List.pairwise_map.mp hnodup
  exact hsorted.imp₂ (fun _ _ => lt_of_le_of_ne) hne

theorem eq_of_sorted {l l' : List α} (h : l.Pairwise fun a b => key a < key b)
    (h' : l'.Pairwise fun a b => key a < key b) (hmem : ∀ a, a ∈ l ↔ a ∈ l') : l = l' := by
  have hnodup : ∀ {m : List α}, m.Pairwise (fun a b => key a < key b) → m.Nodup := by
    intro m hm
    refine hm.imp ?_
    rintro a _ hlt rfl
    exact lt_irrefl _ hlt
  have hperm : l.Perm l' := (List.perm_ext_iff_of_nodup (hnodup h) (hnodup h')).mpr hmem
  exact hperm.eq_of_pairwise (fun a b _ _ hab hba => absurd hab (lt_asymm hba)) h h'

/-- Where no two items of one list share a key, sorting tells whether the items
are the same. -/
theorem sort_eq_iff {l m : List α} (hl : l.Nodup) (hm : (m.map key).Nodup) :
    sort key l = sort key m ↔ ∀ a, a ∈ l ↔ a ∈ m := by
  constructor
  · intro hsort a
    have hperm : l.Perm m := (sort_perm l).symm.trans (hsort ▸ sort_perm m)
    exact hperm.mem_iff
  · intro hmem
    have hperm : l.Perm m := (List.perm_ext_iff_of_nodup hl hm.of_map).mpr hmem
    have hkeys : (l.map key).Nodup := (hperm.map key).nodup_iff.mpr hm
    have hstrict : ∀ {l : List α}, (l.map key).Nodup →
        (sort key l).Pairwise fun a b => key a < key b := fun {l} h =>
      pairwise_lt_of_nodup (pairwise_sort l) (((sort_perm l).map key).nodup_iff.mpr h)
    refine eq_of_sorted (hstrict hkeys) (hstrict hm) fun a => ?_
    rw [mem_sort, mem_sort]
    exact hmem a

theorem pairwise_sort_unique [DecidableEq κ] (l : List α) :
    (sort key (unique key l)).Pairwise fun a b => key a < key b :=
  pairwise_lt_of_nodup (pairwise_sort _)
    (((sort_perm _).map key).nodup_iff.mpr (nodup_unique l))

end Sorting

section Grouping

variable [DecidableEq κ]

/-- Grouped under the keys it has, each of them once, a list loses nothing and
repeats nothing. -/
theorem flatMap_filter_perm {key : α → κ} {keys : List κ} (hnodup : keys.Nodup) {l : List α}
    (hkeys : ∀ a ∈ l, key a ∈ keys) : (keys.flatMap fun k => l.filter fun a => key a = k).Perm l := by
  induction l with
  | nil => simp
  | cons a l ih =>
    rw [List.forall_mem_cons] at hkeys
    obtain ⟨before, after, rfl⟩ := List.append_of_mem hkeys.1
    have hbefore : key a ∉ before := fun h => List.disjoint_of_nodup_append hnodup h List.mem_cons_self
    have hafter : key a ∉ after := (List.nodup_cons.mp (List.nodup_append.mp hnodup).2.1).1
    have hskip : ∀ {ks : List κ}, key a ∉ ks →
        (ks.flatMap fun k => (a :: l).filter fun b => key b = k) =
          ks.flatMap fun k => l.filter fun b => key b = k := by
      intro ks hks
      refine List.flatMap_congr fun k hk => ?_
      rw [List.filter_cons_of_neg]
      simpa using fun h : key a = k => hks (h ▸ hk)
    have hhead : ((a :: l).filter fun b => key b = key a) = a :: l.filter fun b => key b = key a := by
      rw [List.filter_cons_of_pos (by simp)]
    have hrest := ih hkeys.2
    rw [List.flatMap_append, List.flatMap_cons] at hrest ⊢
    rw [hskip hbefore, hskip hafter, hhead, List.cons_append]
    exact List.perm_middle.trans (hrest.cons a)

end Grouping

end Provisioner.Jinja
