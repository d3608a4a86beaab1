import Mathlib.Data.List.Forall2
import Mathlib.Data.List.Nodup
import Mathlib.Data.List.Induction

/-!
# Dictionaries built row by row

A dictionary filled from a list of rows keeps, for each key, the last row that
was written under it. The rows themselves are kept here and a lookup searches
them from the end.
-/

namespace Provisioner.Dict

variable {α κ : Type} [DecidableEq κ]

/-- `d[k] = v`: a key keeps the place it was first written at. -/
def put (d : List (κ × α)) (row : κ × α) : List (κ × α) :=
  if d.any fun r => r.1 == row.1 then d.map fun r => if r.1 = row.1 then row else r
  else d ++ [row]

def ofRows (rows : List (κ × α)) : List (κ × α) := rows.foldl put []

def get (d : List (κ × α)) (k : κ) : Option α := (d.find? fun r => r.1 == k).map Prod.snd

def keys (d : List (κ × α)) : List κ := d.map Prod.fst

/-- The row a dictionary keyed by `key` holds under `k`. -/
def lastBy (key : α → κ) (rows : List α) (k : κ) : Option α :=
  rows.reverse.find? fun r => key r == k

theorem lastBy_some {key : α → κ} {rows : List α} {k : κ} {r : α}
    (h : lastBy key rows k = some r) : r ∈ rows ∧ key r = k := by
  have hkey := List.find?_some h
  exact ⟨List.mem_reverse.mp (List.mem_of_find?_eq_some h), by simpa using hkey⟩

theorem lastBy_none {key : α → κ} {rows : List α} {k : κ} :
    lastBy key rows k = none ↔ ∀ r ∈ rows, key r ≠ k := by
  simp [lastBy]

theorem lastBy_of_mem {key : α → κ} {rows : List α} (hnodup : (rows.map key).Nodup) {r : α}
    (hr : r ∈ rows) : lastBy key rows (key r) = some r := by
  cases hlast : lastBy key rows (key r) with
  | none => exact absurd rfl (lastBy_none.mp hlast r hr)
  | some d =>
    obtain ⟨hd, hkey⟩ := lastBy_some hlast
    rw [List.inj_on_of_nodup_map hnodup hd hr hkey]

theorem find_rel {β : Type} {R : α → β → Prop} {p : α → Bool} {q : β → Bool} {as : List α}
    {bs : List β} (h : List.Forall₂ R as bs) (hpq : ∀ a b, R a b → p a = q b) :
    Option.Rel R (as.find? p) (bs.find? q) := by
  induction h with
  | nil => exact .none
  | @cons a b as bs hab _ ih =>
    rw [List.find?_cons, List.find?_cons, hpq a b hab]
    cases q b with
    | true => exact .some hab
    | false => exact ih

/-- Rows that correspond under one key are found, or missed, together. -/
theorem lastBy_rel {β : Type} {R : α → β → Prop} {key : α → κ} {key' : β → κ} {as : List α}
    {bs : List β} (h : List.Forall₂ R as bs) (hkey : ∀ a b, R a b → key a = key' b) (k : κ) :
    Option.Rel R (lastBy key as k) (lastBy key' bs k) :=
  find_rel (List.rel_reverse h) fun a b hab => by rw [hkey a b hab]

theorem lastBy_map {β : Type} {key : α → κ} {key' : β → κ} {f : α → β}
    (hkey : ∀ a, key' (f a) = key a) (rows : List α) (k : κ) :
    lastBy key' (rows.map f) k = (lastBy key rows k).map f := by
  have hkeys : ((fun b => key' b == k) ∘ f) = fun a => key a == k := by
    funext a
    rw [Function.comp_apply, hkey a]
  rw [lastBy, lastBy, ← List.map_reverse, List.find?_map, hkeys]

theorem get_put (d : List (κ × α)) (row : κ × α) (k : κ) :
    get (put d row) k = if row.1 = k then some row.2 else get d k := by
  rw [put]
  by_cases hany : (d.any fun r => r.1 == row.1) = true
  · have hkeys : ((fun r : κ × α => r.1 == k) ∘ fun r => if r.1 = row.1 then row else r) =
        fun r => r.1 == k := by
      funext r
      rw [Function.comp_apply]
      split_ifs with hr
      · rw [hr]
      · rfl
    rw [if_pos hany, get, List.find?_map, hkeys, get]
    cases hfind : d.find? fun r => r.1 == k with
    | none =>
      obtain ⟨r, hr, heq⟩ := List.any_eq_true.mp hany
      have hne := List.find?_eq_none.mp hfind r hr
      rw [beq_iff_eq] at heq hne
      rw [if_neg fun h => hne (heq.trans h)]
      rfl
    | some r =>
      have hr : r.1 = k := by simpa using List.find?_some hfind
      by_cases hk : row.1 = k
      · simp [hk, hr]
      · rw [if_neg hk, Option.map_some, Option.map_some, Option.map_some,
          if_neg fun h => hk (h.symm.trans hr)]
  · have hnone : row.1 = k → d.find? (fun r => r.1 == k) = none := by
      rintro rfl
      exact List.find?_eq_none.mpr fun r hr heq => hany (List.any_eq_true.mpr ⟨r, hr, heq⟩)
    rw [if_neg hany, get, List.find?_append, List.find?_singleton, get]
    by_cases hk : row.1 = k
    · simp [hnone hk, hk]
    · simp [hk]

theorem lastBy_concat (key : α → κ) (rows : List α) (r : α) (k : κ) :
    lastBy key (rows ++ [r]) k = if key r = k then some r else lastBy key rows k := by
  rw [lastBy, List.reverse_append, List.reverse_singleton, List.singleton_append, List.find?_cons,
    lastBy]
  by_cases hk : key r = k
  · simp [hk]
  · rw [if_neg hk, show (key r == k) = false by simpa using hk]

theorem get_ofRows (rows : List (κ × α)) (k : κ) :
    get (ofRows rows) k = (lastBy Prod.fst rows k).map Prod.snd := by
  induction rows using List.reverseRecOn with
  | nil => rfl
  | append_singleton rows r ih =>
    rw [ofRows, List.foldl_concat, get_put, lastBy_concat]
    rw [ofRows] at ih
    split_ifs
    · rfl
    · exact ih

theorem get_map_pair (l : List κ) (f : κ → α) (k : κ) :
    get (l.map fun x => (x, f x)) k = if k ∈ l then some (f k) else none := by
  rw [get, List.find?_map]
  have hkeys : ((fun r : κ × α => r.1 == k) ∘ fun x => (x, f x)) = fun x => x == k := rfl
  rw [hkeys]
  cases hfind : l.find? fun x => x == k with
  | none =>
    rw [if_neg fun hk => List.find?_eq_none.mp hfind k hk (beq_self_eq_true k)]
    rfl
  | some x =>
    obtain rfl : x = k := by simpa using List.find?_some hfind
    rw [if_pos (List.mem_of_find?_eq_some hfind)]
    rfl

theorem get_eq_none {d : List (κ × α)} {k : κ} : get d k = none ↔ k ∉ keys d := by
  simp only [get, keys, Option.map_eq_none_iff, List.find?_eq_none, beq_iff_eq, List.mem_map,
    not_exists, not_and]

theorem mem_keys_ofRows {rows : List (κ × α)} {k : κ} :
    k ∈ keys (ofRows rows) ↔ k ∈ rows.map Prod.fst := by
  rw [← not_iff_not, ← get_eq_none, get_ofRows, Option.map_eq_none_iff, lastBy_none]
  simp only [List.mem_map, not_exists, not_and]

end Provisioner.Dict
