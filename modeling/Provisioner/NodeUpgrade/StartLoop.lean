import Provisioner.Library.Text
import Mathlib.Algebra.Order.BigOperators.Group.List
import Mathlib.Algebra.Order.Ring.Nat
import Mathlib.Data.List.Count
import Mathlib.Data.List.Perm.Basic
import Mathlib.Algebra.Order.Ring.Unbundled.Rat

/-!
# Starting the recorded containers

`node-upgrade-containers start`: every poll lists what runs and starts again
what does not, until the required containers run or the attempts or the time
are used up. Docker may answer anything at any time.
-/

namespace Provisioner.NodeUpgrade.StartLoop

structure Config where
  required : List Text
  optional : List Text
  wait : ℚ := 600
  interval : ℚ := 15
  retries : ℤ := 5
deriving DecidableEq, Repr

/-- The answers of docker and of the clock: the ids of a `docker ps` or its
error, return code and error of a `docker start` in a round, and what each
reading of the clock gives. -/
structure Docker where
  ps : ℕ → Except Text (List Text)
  start : ℕ → Text → ℤ × Text
  monotonic : ℕ → ℚ

inductive Call where
  | start (id : Text)
  | sleep (seconds : ℚ)
deriving DecidableEq, Repr

structure State where
  round : ℕ := 0
  attempts : Text → ℤ := fun _ => 0
  lastError : Text → Option Text := fun _ => none
  -- what the script has issued so far
  calls : List Call := []

structure Down where
  id : Text
  attempts : ℤ
  error : Text
deriving DecidableEq, Repr

structure Report where
  running : List Text
  down : List Down
deriving DecidableEq, Repr

section

variable (cfg : Config) (docker : Docker)

def everyone : List Text := cfg.required ++ cfg.optional.filter (· ∉ cfg.required)

def deadline : ℚ := docker.monotonic 0 + cfg.wait

def down (up : List Text) : List Text := (everyone cfg).filter (· ∉ up)

def reqDown (up : List Text) : List Text := cfg.required.filter (· ∉ up)

def startable (up : List Text) (s : State) : List Text :=
  (down cfg up).filter fun i => s.attempts i < cfg.retries

def leaves (up : List Text) (s : State) : Bool :=
  (reqDown cfg up).isEmpty && ((startable cfg up s).filter (· ∈ cfg.optional)).isEmpty ||
    ((startable cfg up s).isEmpty ||
      deadline cfg docker ≤ docker.monotonic (2 * s.round + 1))

/-- One round: start what can be started, count it, and sleep. -/
def again (up : List Text) (s : State) : State where
  round := s.round + 1
  attempts i := if i ∈ startable cfg up s then s.attempts i + 1 else s.attempts i
  lastError i :=
    if i ∈ startable cfg up s ∧ (docker.start s.round i).1 ≠ 0 then some (docker.start s.round i).2
    else s.lastError i
  calls := s.calls ++ (startable cfg up s).map .start ++
    [.sleep (max 0 (min cfg.interval
      (deadline cfg docker - docker.monotonic (2 * s.round + 2))))]

/-- The loop, with the state it ends in and the error that ended it, if any. -/
def loop : ℕ → State → Option (State × Except Text Unit)
  | 0, _ => none
  | fuel + 1, s =>
    match docker.ps s.round with
    | .error e => some (s, .error e)
    | .ok up =>
      if leaves cfg docker up s then some (s, .ok ())
      else loop fuel (again cfg docker up s)

def report (up : List Text) (s : State) : Report where
  running := (everyone cfg).filter (· ∈ up)
  down := ((everyone cfg).filter (· ∉ up)).map fun i =>
    ⟨i, s.attempts i, (s.lastError i).getD []⟩

def start (fuel : ℕ) : Option (State × Except Text Report) :=
  (loop cfg docker fuel {}).map fun (s, ended) =>
    (s, ended.bind fun _ => (docker.ps (s.round + 1)).map fun up => report cfg up s)

/-! ## What holds after every round -/

def starts (s : State) (i : Text) : ℕ := s.calls.count (.start i)

/-- The attempts are what was issued, and none is beyond the retries. -/
structure Counted (s : State) : Prop where
  starts : ∀ i, s.attempts i = starts s i
  bound : ∀ i, s.attempts i ≤ max 0 cfg.retries
  given : ∀ i, .start i ∈ s.calls → i ∈ cfg.required ∨ i ∈ cfg.optional

def Done (up : List Text) (s : State) : Prop :=
  ((∀ i ∈ cfg.required, i ∈ up) ∧ ∀ i ∈ cfg.optional, i ∈ up ∨ cfg.retries ≤ s.attempts i) ∨
    (∀ i, i ∈ cfg.required ∨ i ∈ cfg.optional → i ∉ up → cfg.retries ≤ s.attempts i) ∨
    deadline cfg docker ≤ docker.monotonic (2 * s.round + 1)

def work (s : State) : ℕ := ((everyone cfg).map fun i => (cfg.retries - s.attempts i).toNat).sum

end

variable {cfg : Config} {docker : Docker}

theorem mem_everyone {i : Text} : i ∈ everyone cfg ↔ i ∈ cfg.required ∨ i ∈ cfg.optional := by
  simp only [everyone, List.mem_append, List.mem_filter, decide_eq_true_eq]
  tauto

theorem nodup_everyone (hrequired : cfg.required.Nodup) (hoptional : cfg.optional.Nodup) :
    (everyone cfg).Nodup := by
  refine List.Nodup.append hrequired (hoptional.filter _) ?_
  intro i hi hi'
  exact of_decide_eq_true (List.mem_filter.mp hi').2 hi

theorem mem_startable {up : List Text} {s : State} {i : Text} : i ∈ startable cfg up s ↔
    (i ∈ cfg.required ∨ i ∈ cfg.optional) ∧ i ∉ up ∧ s.attempts i < cfg.retries := by
  simp only [startable, down, List.mem_filter, decide_eq_true_eq, mem_everyone, and_assoc]

theorem starts_again (hrequired : cfg.required.Nodup) (hoptional : cfg.optional.Nodup)
    (up : List Text) (s : State) (i : Text) :
    starts (again cfg docker up s) i =
      starts s i + if i ∈ startable cfg up s then 1 else 0 := by
  have hnodup : (startable cfg up s).Nodup :=
    ((nodup_everyone hrequired hoptional).filter _).filter _
  have hinjective : Function.Injective Call.start := fun a b h => Call.start.inj h
  have hcount : ((startable cfg up s).map Call.start).count (.start i) =
      (startable cfg up s).count i := List.count_map_of_injective _ _ hinjective i
  have hsleep : ∀ seconds, [Call.sleep seconds].count (.start i) = 0 := fun seconds => rfl
  rw [starts, again, List.count_append, List.count_append, hcount, hsleep, Nat.add_zero,
    hnodup.count]
  rfl

theorem Counted.again {up : List Text} {s : State} (hrequired : cfg.required.Nodup)
    (hoptional : cfg.optional.Nodup) (hs : Counted cfg s) :
    Counted cfg (again cfg docker up s) := by
  constructor
  · intro i
    rw [starts_again hrequired hoptional]
    change (if i ∈ startable cfg up s then s.attempts i + 1 else s.attempts i) = _
    have hstarts := hs.starts i
    split <;> omega
  · intro i
    change (if i ∈ startable cfg up s then s.attempts i + 1 else s.attempts i) ≤ _
    have hbound := hs.bound i
    split
    · rename_i hi
      have hleft := (mem_startable.mp hi).2.2
      omega
    · exact hbound
  · intro i hi
    change _ ∈ s.calls ++ (startable cfg up s).map Call.start ++ [_] at hi
    simp only [List.mem_append, List.mem_map, Call.start.injEq, exists_eq_right,
      List.mem_singleton, reduceCtorEq, or_false] at hi
    rcases hi with hi | hi
    · exact hs.given i hi
    · exact (mem_startable.mp hi).1

theorem work_again {up : List Text} {s : State} (hs : leaves cfg docker up s = false) :
    work cfg (again cfg docker up s) < work cfg s := by
  have hne : startable cfg up s ≠ [] := by
    intro hnil
    simp [leaves, hnil] at hs
  obtain ⟨i, hi⟩ := List.exists_mem_of_ne_nil _ hne
  have hleft := mem_startable.mp hi
  refine List.sum_lt_sum _ _ ?_ ⟨i, mem_everyone.mpr hleft.1, ?_⟩
  · intro j _
    change (cfg.retries - if j ∈ startable cfg up s then s.attempts j + 1 else s.attempts j).toNat ≤ _
    split <;> omega
  · change (cfg.retries - if i ∈ startable cfg up s then s.attempts i + 1 else s.attempts i).toNat < _
    rw [if_pos hi]
    omega

theorem done_of_leaves {up : List Text} {s : State} (hs : leaves cfg docker up s = true) :
    Done cfg docker up s := by
  simp only [leaves, Bool.or_eq_true, Bool.and_eq_true, List.isEmpty_iff, decide_eq_true_eq] at hs
  rcases hs with ⟨hrequired, hoptional⟩ | hnone | htime
  · left
    constructor
    · intro i hi
      by_contra hdown
      have hmem : i ∈ reqDown cfg up := List.mem_filter.mpr ⟨hi, decide_eq_true hdown⟩
      rw [hrequired] at hmem
      cases hmem
    · intro i hi
      by_contra hdown
      rw [not_or, not_le] at hdown
      have hmem : i ∈ (startable cfg up s).filter (· ∈ cfg.optional) :=
        List.mem_filter.mpr ⟨mem_startable.mpr ⟨.inr hi, hdown⟩, decide_eq_true hi⟩
      rw [hoptional] at hmem
      cases hmem
  · right
    left
    intro i hi hdown
    by_contra hleft
    have hmem : i ∈ startable cfg up s := mem_startable.mpr ⟨hi, hdown, not_le.mp hleft⟩
    rw [hnone] at hmem
    cases hmem
  · exact .inr (.inr htime)

/-- More fuel than attempts ends the loop. -/
theorem loop_ends {fuel : ℕ} {s : State} (hfuel : work cfg s < fuel) :
    ∃ s' ended, loop cfg docker fuel s = some (s', ended) := by
  induction fuel generalizing s with
  | zero => omega
  | succ fuel ih =>
    rw [loop]
    split
    · exact ⟨s, _, rfl⟩
    · rename_i up _
      cases hleaves : leaves cfg docker up s with
      | true => exact ⟨s, .ok (), rfl⟩
      | false =>
        have hless := work_again hleaves
        exact ih (by omega)

/-- What the loop ends with: a poll that failed, or one that is the last. -/
theorem loop_left {fuel : ℕ} {s s' : State} {ended : Except Text Unit}
    (hrequired : cfg.required.Nodup) (hoptional : cfg.optional.Nodup) (hs : Counted cfg s)
    (hloop : loop cfg docker fuel s = some (s', ended)) :
    Counted cfg s' ∧ (∀ e, ended = .error e → docker.ps s'.round = .error e) ∧
      ∀ up, docker.ps s'.round = .ok up → Done cfg docker up s' := by
  induction fuel generalizing s with
  | zero => cases hloop
  | succ fuel ih =>
    rw [loop] at hloop
    split at hloop
    · rename_i e hps
      cases hloop
      refine ⟨hs, fun e' he => ?_, fun up hup => ?_⟩
      · cases he
        exact hps
      · rw [hps] at hup
        cases hup
    · rename_i up hps
      cases hleaves : leaves cfg docker up s with
      | true =>
        rw [hleaves] at hloop
        cases hloop
        refine ⟨hs, fun e he => (by cases he), fun up' hup => ?_⟩
        rw [hps] at hup
        cases hup
        exact done_of_leaves hleaves
      | false =>
        rw [hleaves] at hloop
        exact ih (hs.again hrequired hoptional) hloop

/-! ## The whole run -/

def Report.Partitions (cfg : Config) (r : Report) : Prop :=
  (r.running ++ r.down.map Down.id).Nodup ∧
    ∀ i, i ∈ r.running ++ r.down.map Down.id ↔ i ∈ cfg.required ∨ i ∈ cfg.optional

theorem report_partitions (hrequired : cfg.required.Nodup) (hoptional : cfg.optional.Nodup)
    (up : List Text) (s : State) : (report cfg up s).Partitions cfg := by
  have hdown : (report cfg up s).down.map Down.id = (everyone cfg).filter (· ∉ up) := by
    rw [report, List.map_map]
    exact List.map_id _
  have hperm : ((report cfg up s).running ++ (report cfg up s).down.map Down.id).Perm
      (everyone cfg) := by
    rw [hdown]
    have hsplit := List.filter_append_perm (fun i => decide (i ∈ up)) (everyone cfg)
    simpa [report] using hsplit
  constructor
  · exact hperm.nodup_iff.mpr (nodup_everyone hrequired hoptional)
  · intro i
    rw [hperm.mem_iff, mem_everyone]

def enough (cfg : Config) : ℕ := (everyone cfg).length * cfg.retries.toNat + 1

theorem work_initial : work cfg {} < enough cfg := by
  rw [work, enough]
  change ((everyone cfg).map fun _ => (cfg.retries - 0).toNat).sum < _
  rw [List.map_const', List.sum_replicate, sub_zero]
  exact Nat.lt_succ_self _

/-- What a run has done, and what it says of it. -/
structure Settled (cfg : Config) (docker : Docker) (s : State) (out : Except Text Report) :
    Prop where
  counted : ∀ i, s.attempts i = starts s i
  attempts : ∀ i, (starts s i : ℤ) ≤ max 0 cfg.retries
  given : ∀ i, .start i ∈ s.calls → i ∈ cfg.required ∨ i ∈ cfg.optional
  left : ∀ up, docker.ps s.round = .ok up → Done cfg docker up s
  /-- The report is what the last poll and the attempts say. -/
  reported : ∀ r, out = .ok r →
    (∃ up, docker.ps (s.round + 1) = .ok up ∧ r = report cfg up s) ∧ r.Partitions cfg
  failed : ∀ e, out = .error e → ∃ n, docker.ps n = .error e

/-- Whatever docker does, the run ends; it starts only what it was given, each
no more often than it may; it leaves the loop only for a reason; and what it
reports is everything it was given. -/
theorem start_settles (hrequired : cfg.required.Nodup) (hoptional : cfg.optional.Nodup)
    (docker : Docker) :
    ∃ s out, start cfg docker (enough cfg) = some (s, out) ∧ Settled cfg docker s out := by
  obtain ⟨s, ended, hloop⟩ : ∃ s ended, loop cfg docker (enough cfg) {} = some (s, ended) :=
    loop_ends work_initial
  have hinitial : Counted cfg {} := by
    refine ⟨fun i => rfl, fun i => ?_, fun i hi => (by cases hi)⟩
    exact le_max_left _ _
  obtain ⟨hcounted, hfailed, hleft⟩ := loop_left hrequired hoptional hinitial hloop
  refine ⟨s, ended.bind fun _ => (docker.ps (s.round + 1)).map fun up => report cfg up s, ?_,
    ⟨hcounted.starts, fun i => ?_, hcounted.given, hleft, ?_, ?_⟩⟩
  · rw [start, hloop]
    rfl
  · rw [← hcounted.starts]
    exact hcounted.bound i
  · intro r hr
    cases ended with
    | error e => cases hr
    | ok _ =>
      cases hps : docker.ps (s.round + 1) with
      | error e =>
        rw [hps] at hr
        cases hr
      | ok up =>
        rw [hps] at hr
        cases hr
        exact ⟨⟨up, rfl, rfl⟩, report_partitions hrequired hoptional up s⟩
  · intro e he
    cases ended with
    | error _ =>
      cases he
      exact ⟨s.round, hfailed e rfl⟩
    | ok _ =>
      cases hps : docker.ps (s.round + 1) with
      | error e' =>
        rw [hps] at he
        cases he
        exact ⟨s.round + 1, hps⟩
      | ok up =>
        rw [hps] at he
        cases he

/-- A database that comes up and dies at every other poll, and an application
that docker does not know. -/
def app : Config where
  required := [['d', 'b'], ['a', 'p', 'p']]
  optional := [['c', 'r', 'o', 'n']]
  retries := 3

def flapping : Docker where
  ps n := .ok (if n % 2 = 0 then [] else [['d', 'b'], ['c', 'r', 'o', 'n']])
  start _ i := if i = ['a', 'p', 'p'] then (1, "No such container") else (0, [])
  monotonic n := 15 * n

theorem start_settles_flapping :
    ∃ s out, start app flapping (enough app) = some (s, out) ∧ Settled app flapping s out :=
  start_settles (by decide) (by decide) flapping

end Provisioner.NodeUpgrade.StartLoop
