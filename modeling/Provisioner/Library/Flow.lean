import Mathlib.Data.List.Basic
import Mathlib.Data.List.Forall2

/-!
# Straight-line functions with early returns and exceptions

The body of an imperative function that checks one thing after another: each
statement passes a value on, returns from the whole function, or raises.
-/

namespace Provisioner

universe u

/-- `ρ` is what an early return carries, `ε` what is raised. -/
inductive Flow (ρ ε : Type) (α : Type u) where
  | next (a : α)
  | ret (r : ρ)
  | raise (e : ε)
deriving DecidableEq, Repr

namespace Flow

variable {ρ ε : Type} {α β : Type u}

def bind (x : Flow ρ ε α) (f : α → Flow ρ ε β) : Flow ρ ε β :=
  match x with
  | .next a => f a
  | .ret r => .ret r
  | .raise e => .raise e

instance : Monad (Flow ρ ε) where
  pure := .next
  bind := bind

/-- `if c: return r` -/
def returnIf (c : Bool) (r : ρ) : Flow ρ ε PUnit := if c then .ret r else .next ⟨⟩

theorem bind_eq_next {x : Flow ρ ε α} {f : α → Flow ρ ε β} {b : β} :
    x >>= f = .next b ↔ ∃ a, x = .next a ∧ f a = .next b := by
  cases x <;> simp [Bind.bind, bind]

theorem bind_assoc {γ : Type u} (x : Flow ρ ε α) (f : α → Flow ρ ε β) (g : β → Flow ρ ε γ) :
    x >>= f >>= g = x >>= fun a => f a >>= g := by
  cases x <;> rfl

theorem pure_bind (a : α) (f : α → Flow ρ ε β) : pure a >>= f = f a := rfl

def each (f : α → Flow ρ ε PUnit) : List α → Flow ρ ε PUnit
  | [] => .next ⟨⟩
  | a :: as => f a >>= fun _ => each f as

def collect (f : α → Flow ρ ε (Option β)) : List α → Flow ρ ε (List β)
  | [] => .next []
  | a :: as => f a >>= fun b => collect f as >>= fun bs => .next (b.toList ++ bs)

@[simp] theorem pure_eq_next {a b : α} : (pure a : Flow ρ ε α) = .next b ↔ a = b := by
  simp [Pure.pure]

@[simp] theorem returnIf_eq_next {c : Bool} {r : ρ} {u : PUnit} :
    (returnIf c r : Flow ρ ε PUnit) = .next u ↔ c = false := by
  cases c <;> simp [returnIf]

theorem each_eq_next {f : α → Flow ρ ε PUnit} {as : List α} {u : PUnit} :
    each f as = .next u ↔ ∀ a ∈ as, f a = .next ⟨⟩ := by
  induction as with
  | nil => simp [each]
  | cons a as ih =>
    rw [each, bind_eq_next, List.forall_mem_cons]
    constructor
    · rintro ⟨v, ha, has⟩
      exact ⟨ha, ih.mp has⟩
    · rintro ⟨ha, has⟩
      exact ⟨⟨⟩, ha, ih.mpr has⟩

theorem collect_body {f : α → Flow ρ ε (Option β)} {as : List α} {bs : List β}
    (h : collect f as = .next bs) {a : α} (ha : a ∈ as) : ∃ o, f a = .next o := by
  induction as generalizing bs with
  | nil => cases ha
  | cons b as ih =>
    rw [collect, bind_eq_next] at h
    obtain ⟨o, hb, h⟩ := h
    obtain ⟨rest, hrest, -⟩ := bind_eq_next.mp h
    rcases List.mem_cons.mp ha with rfl | ha
    · exact ⟨o, hb⟩
    · exact ih hrest ha

theorem collect_of_next {f : α → Flow ρ ε (Option β)} {g : α → Option β} {as : List α}
    (h : ∀ a ∈ as, f a = .next (g a)) : collect f as = .next (as.filterMap g) := by
  induction as with
  | nil => rfl
  | cons a as ih =>
    rw [List.forall_mem_cons] at h
    rw [collect, bind_eq_next]
    refine ⟨g a, h.1, bind_eq_next.mpr ⟨_, ih h.2, ?_⟩⟩
    cases hg : g a <;> simp [hg]

theorem collect_eq_filterMap {f : α → Flow ρ ε (Option β)} {g : α → Option β} {as : List α}
    {bs : List β} (h : collect f as = .next bs) (hg : ∀ a o, f a = .next o → o = g a) :
    bs = as.filterMap g := by
  have hbody : ∀ a ∈ as, f a = .next (g a) := by
    intro a ha
    obtain ⟨o, ho⟩ := collect_body h ha
    rw [ho, hg a o ho]
  have hcollect := collect_of_next hbody
  rw [h] at hcollect
  cases hcollect
  rfl

/-! ## Functions that only return -/

def NeverRaises (x : Flow ρ ε α) : Prop := ∀ e, x ≠ .raise e

theorem neverRaises_pure (a : α) : NeverRaises (pure a : Flow ρ ε α) := fun _ => nofun

theorem neverRaises_returnIf (c : Bool) (r : ρ) :
    NeverRaises (returnIf c r : Flow ρ ε PUnit.{u + 1}) := by
  cases c <;> exact fun _ => nofun

theorem neverRaises_bind {x : Flow ρ ε α} {f : α → Flow ρ ε β} (hx : NeverRaises x)
    (hf : ∀ a, NeverRaises (f a)) : NeverRaises (x >>= f) := by
  cases x with
  | next a => exact hf a
  | ret r => exact fun _ => nofun
  | raise e => exact absurd rfl (hx e)

theorem neverRaises_ite {c : Prop} [Decidable c] {x y : Flow ρ ε α} (hx : NeverRaises x)
    (hy : NeverRaises y) : NeverRaises (if c then x else y) := by
  split_ifs
  · exact hx
  · exact hy

theorem neverRaises_each {f : α → Flow ρ ε PUnit} (hf : ∀ a, NeverRaises (f a)) (as : List α) :
    NeverRaises (each f as) := by
  induction as with
  | nil => exact fun _ => nofun
  | cons a as ih => exact neverRaises_bind (hf a) fun _ => ih

theorem neverRaises_collect {f : α → Flow ρ ε (Option β)} (hf : ∀ a, NeverRaises (f a))
    (as : List α) : NeverRaises (collect f as) := by
  induction as with
  | nil => exact fun _ => nofun
  | cons a as ih => exact neverRaises_bind (hf a) fun _ => neverRaises_bind ih fun _ _ => nofun

end Flow

theorem except_bind_eq_ok {ε α β : Type} {x : Except ε α} {f : α → Except ε β} {b : β} :
    x >>= f = .ok b ↔ ∃ a, x = .ok a ∧ f a = .ok b := by
  cases x <;> simp [bind, Except.bind]

theorem except_map_eq_ok {ε α β : Type} {x : Except ε α} {f : α → β} {b : β} :
    x.map f = .ok b ↔ ∃ a, x = .ok a ∧ f a = b := by
  cases x <;> simp [Except.map]

theorem mapM_forall₂ {ε α β : Type} {f : α → Except ε β} {as : List α} {bs : List β}
    (h : as.mapM f = .ok bs) : List.Forall₂ (fun a b => f a = .ok b) as bs := by
  induction as generalizing bs with
  | nil =>
    cases h
    exact .nil
  | cons a as ih =>
    rw [List.mapM_cons] at h
    obtain ⟨b, hb, h⟩ := except_bind_eq_ok.mp h
    obtain ⟨rest, hrest, h⟩ := except_bind_eq_ok.mp h
    cases h
    exact .cons hb (ih hrest)

theorem option_mapM_eq_some {α β : Type} {f : α → Option β} {as : List α} {bs : List β} :
    as.mapM f = some bs ↔ List.Forall₂ (fun a b => f a = some b) as bs := by
  constructor
  · intro h
    induction as generalizing bs with
    | nil =>
      cases h
      exact .nil
    | cons a as ih =>
      rw [List.mapM_cons] at h
      obtain ⟨b, hb, h⟩ := Option.bind_eq_some_iff.mp h
      obtain ⟨rest, hrest, h⟩ := Option.bind_eq_some_iff.mp h
      cases h
      exact .cons hb (ih hrest)
  · intro h
    induction h with
    | nil => rfl
    | cons hab _ ih => rw [List.mapM_cons, hab, ih]; rfl

theorem option_mapM_some {α β : Type} {f : α → Option β} {as : List α}
    (h : ∀ a ∈ as, (f a).isSome = true) : ∃ bs, as.mapM f = some bs := by
  induction as with
  | nil => exact ⟨[], rfl⟩
  | cons a as ih =>
    rw [List.forall_mem_cons] at h
    obtain ⟨b, hb⟩ := Option.isSome_iff_exists.mp h.1
    obtain ⟨bs, hbs⟩ := ih h.2
    exact ⟨b :: bs, by rw [List.mapM_cons, hb, hbs]; rfl⟩

theorem forall₂_left {α β : Type} {R : α → β → Prop} {as : List α} {bs : List β}
    (h : List.Forall₂ R as bs) {a : α} (ha : a ∈ as) : ∃ b ∈ bs, R a b := by
  induction h with
  | nil => cases ha
  | cons hab _ ih =>
    rcases List.mem_cons.mp ha with rfl | ha
    · exact ⟨_, List.mem_cons_self, hab⟩
    · obtain ⟨b, hb, hr⟩ := ih ha
      exact ⟨b, List.mem_cons_of_mem _ hb, hr⟩

theorem forall₂_right {α β : Type} {R : α → β → Prop} {as : List α} {bs : List β}
    (h : List.Forall₂ R as bs) {b : β} (hb : b ∈ bs) : ∃ a ∈ as, R a b :=
  forall₂_left (R := fun b a => R a b) h.flip hb

end Provisioner
