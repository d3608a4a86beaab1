import Mathlib.Data.List.Nodup
import Mathlib.Logic.Function.Basic

/-!
# Sets of files written one by one

A set of files comes from one issuance when every file holds what that
issuance puts there. The files are written in a fixed order, a write can be
the last one of a run, and a later run looks at the first file alone to see
whether the set has to be issued again.
-/

namespace Provisioner.Issue

variable {File Content Details : Type}

/-- The files of a set in the order they are written, and what an issuance,
known by its number, puts in each. The first and the last file tell
issuances apart. -/
structure Kit (File Content Details : Type) where
  first : File
  middle : List File
  last : File
  render : File → ℕ → Details → Content
  nodup : (first :: middle ++ [last]).Nodup
  first_inj : ∀ n d n' d', render first n d = render first n' d' → n = n'
  last_inj : ∀ n d n' d', render last n d = render last n' d' → n = n'

variable {K : Kit File Content Details}

def Kit.files (K : Kit File Content Details) : List File := K.first :: K.middle ++ [K.last]

/-- The files on disk, the number of the next issuance, and how many files the
last issuance that got to the disk has written. -/
structure State (File Content : Type) where
  disk : File → Option Content
  next : ℕ
  written : ℕ

def fresh : State File Content := ⟨fun _ => none, 0, 0⟩

theorem last_mem_take {k : ℕ} : K.last ∈ K.files.take k ↔ K.files.length ≤ k := by
  constructor
  · intro h
    by_contra hk
    have hinit : K.files.take k = (K.first :: K.middle).take k := by
      apply List.take_append_of_le_length
      simp only [Kit.files, List.length_append, List.length_singleton] at hk
      omega
    rw [hinit] at h
    exact (List.nodup_append.mp K.nodup).2.2 _ (List.mem_of_mem_take h) _ List.mem_cons_self rfl
  · intro hk
    rw [List.take_of_length_le hk]
    exact List.mem_append_right _ List.mem_cons_self

theorem first_mem_take {k : ℕ} (hk : k ≠ 0) : K.first ∈ K.files.take k := by
  obtain ⟨k, rfl⟩ := Nat.exists_eq_succ_of_ne_zero hk
  exact List.mem_cons_self

/-- What the files hold: as many as were written by the last issuance are its,
and the last file is an older one's until it is written. -/
structure Inv (K : Kit File Content Details) (s : State File Content) : Prop where
  bound : s.written ≤ K.files.length
  unwritten : s.written = 0 → s.disk K.first = none
  older : ∀ c, s.disk K.last = some c → ∃ n d, n < s.next ∧ c = K.render K.last n d
  current : s.written ≠ 0 → ∃ n d, n < s.next ∧
    (∀ f ∈ K.files.take s.written, s.disk f = some (K.render f n d)) ∧
      (s.written < K.files.length → ∀ d', s.disk K.last ≠ some (K.render K.last n d'))

theorem inv_fresh : Inv K fresh where
  bound := Nat.zero_le _
  unwritten _ := rfl
  older c h := by cases h
  current h := absurd rfl h

def Together (K : Kit File Content Details) (disk : File → Option Content) : Prop :=
  ∃ n d, ∀ f ∈ K.files, disk f = some (K.render f n d)

/-- A set on disk is whole exactly where the last issuance wrote all of it. -/
theorem Inv.together_iff {s : State File Content} (h : Inv K s) (hfirst : s.disk K.first ≠ none) :
    Together K s.disk ↔ s.written = K.files.length := by
  have hw : s.written ≠ 0 := fun hz => hfirst (h.unwritten hz)
  obtain ⟨n, d, -, hdisk, hother⟩ := h.current hw
  constructor
  · rintro ⟨n', d', htogether⟩
    by_contra hne
    have hlt : s.written < K.files.length := Nat.lt_of_le_of_ne h.bound hne
    have hnum : n' = n := by
      have hc := (htogether K.first List.mem_cons_self).symm.trans
        (hdisk K.first (first_mem_take hw))
      exact K.first_inj _ _ _ _ (Option.some.inj hc)
    subst hnum
    exact hother hlt d' (htogether K.last (List.mem_append_right _ List.mem_cons_self))
  · intro hall
    refine ⟨n, d, fun f hf => hdisk f ?_⟩
    rw [hall, List.take_length]
    exact hf

variable [DecidableEq File]

def write (K : Kit File Content Details) (n : ℕ) (d : Details) (files : List File)
    (disk : File → Option Content) : File → Option Content :=
  files.foldl (fun disk f => Function.update disk f (some (K.render f n d))) disk

/-- One run: whether it issues is decided on the first file, and it ends after
`cut` writes. -/
structure Attempt (Content Details : Type) where
  needed : Option Content → Bool
  details : Details
  cut : ℕ
  needed_none : needed none = true

def attempt (K : Kit File Content Details) (s : State File Content)
    (a : Attempt Content Details) : State File Content :=
  if a.needed (s.disk K.first) then
    { disk := write K s.next a.details (K.files.take a.cut) s.disk
      next := s.next + 1
      written := if a.cut = 0 then s.written else min a.cut K.files.length }
  else s

theorem write_apply (n : ℕ) (d : Details) (files : List File) (disk : File → Option Content)
    (f : File) :
    write K n d files disk f = if f ∈ files then some (K.render f n d) else disk f := by
  induction files generalizing disk with
  | nil => simp [write]
  | cons g files ih =>
    have hrest : write K n d (g :: files) disk f =
        write K n d files (Function.update disk g (some (K.render g n d))) f := rfl
    rw [hrest, ih]
    by_cases hf : f ∈ files
    · simp [hf]
    · by_cases hfg : f = g
      · subst hfg
        simp
      · simp [hf, hfg]

theorem write_mem {n : ℕ} {d : Details} {files : List File} {disk : File → Option Content}
    {f : File} (h : f ∈ files) : write K n d files disk f = some (K.render f n d) := by
  rw [write_apply, if_pos h]

theorem write_not_mem {n : ℕ} {d : Details} {files : List File} {disk : File → Option Content}
    {f : File} (h : f ∉ files) : write K n d files disk f = disk f := by
  rw [write_apply, if_neg h]

/-- What another run puts in a file of its own accord does no harm where every
issuance puts the same there. -/
theorem Inv.refresh {s : State File Content} (h : Inv K s) {f : File} {c : Content}
    (hf : f ∈ K.middle) (hc : ∀ n d, K.render f n d = c) :
    Inv K { s with disk := Function.update s.disk f (some c) } := by
  have hfirst : K.first ≠ f := by
    rintro rfl
    exact (List.nodup_cons.mp K.nodup).1 (List.mem_append_left _ hf)
  have hlast : K.last ≠ f := by
    rintro rfl
    exact (List.nodup_append.mp K.nodup).2.2 _ (List.mem_cons_of_mem _ hf) _
      List.mem_cons_self rfl
  have hkeep : ∀ g, g ≠ f → Function.update s.disk f (some c) g = s.disk g :=
    fun g hg => Function.update_of_ne hg _ _
  constructor
  · exact h.bound
  · intro hz
    exact (hkeep _ hfirst).trans (h.unwritten hz)
  · intro c' hc'
    exact h.older c' ((hkeep _ hlast).symm.trans hc')
  · intro hw
    obtain ⟨n, d, hn, hdisk, hother⟩ := h.current hw
    refine ⟨n, d, hn, fun g hg => ?_, fun hlt d' hc' => ?_⟩
    · by_cases hgf : g = f
      · subst hgf
        rw [hc]
        exact Function.update_self _ _ _
      · exact (hkeep g hgf).trans (hdisk g hg)
    · exact hother hlt d' ((hkeep _ hlast).symm.trans hc')

theorem Inv.attempt {s : State File Content} (h : Inv K s) (a : Attempt Content Details) :
    Inv K (attempt K s a) := by
  rw [Issue.attempt]
  split
  · have holder : ∀ c, write K s.next a.details (K.files.take a.cut) s.disk K.last = some c →
        ∃ n d, n < s.next + 1 ∧ c = K.render K.last n d := by
      intro c hc
      rw [write_apply] at hc
      split at hc
      · exact ⟨s.next, a.details, Nat.lt_succ_self _, (Option.some.inj hc).symm⟩
      · obtain ⟨n, d, hn, rfl⟩ := h.older c hc
        exact ⟨n, d, Nat.lt_succ_of_lt hn, rfl⟩
    by_cases hcut : a.cut = 0
    · rw [hcut]
      refine ⟨h.bound, h.unwritten, ?_, fun hw => ?_⟩
      · rw [hcut] at holder
        exact holder
      · obtain ⟨n, d, hn, hrest⟩ := h.current hw
        exact ⟨n, d, Nat.lt_succ_of_lt hn, hrest⟩
    · have hlength : K.files.length ≠ 0 := by simp [Kit.files]
      rw [if_neg hcut]
      refine ⟨Nat.min_le_right _ _, fun hz => ?_, holder, fun _ => ?_⟩
      · have hz' : min a.cut K.files.length = 0 := hz
        omega
      · refine ⟨s.next, a.details, Nat.lt_succ_self _, fun f hf => ?_, fun hlt d' => ?_⟩
        · apply write_mem
          rw [← List.take_eq_take_min] at hf
          exact hf
        · have hlt' : min a.cut K.files.length < K.files.length := hlt
          have hnot : K.last ∉ K.files.take a.cut := by
            rw [last_mem_take]
            omega
          intro hc
          obtain ⟨n, d, hn, heq⟩ := h.older _ ((write_not_mem hnot).symm.trans hc)
          have hnum := K.last_inj _ _ _ _ heq
          omega
  · exact h

theorem inv_attempts {s : State File Content} (h : Inv K s)
    (attempts : List (Attempt Content Details)) : Inv K (attempts.foldl (Issue.attempt K) s) := by
  induction attempts generalizing s with
  | nil => exact h
  | cons a attempts ih => exact ih (h.attempt a)

/-- After a run that is not cut short, the set is whole exactly where that run
issued it, or the last issuance before had written all of it. -/
theorem Inv.completed_iff {s : State File Content} (h : Inv K s) {a : Attempt Content Details}
    (hcut : K.files.length ≤ a.cut) :
    Together K (Issue.attempt K s a).disk ↔
      a.needed (s.disk K.first) = true ∨ s.written = K.files.length := by
  rw [Issue.attempt]
  split
  · rename_i hneeded
    refine iff_of_true ⟨s.next, a.details, fun f hf => write_mem ?_⟩ (.inl hneeded)
    rwa [List.take_of_length_le hcut]
  · rename_i hneeded
    rw [or_iff_right hneeded]
    apply h.together_iff
    intro hnone
    rw [hnone] at hneeded
    exact hneeded a.needed_none

end Provisioner.Issue
