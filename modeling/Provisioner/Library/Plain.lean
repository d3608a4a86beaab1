import Provisioner.Library.Shell

/-!
# Texts that every shell takes as themselves

A line that assigns a text behind `=` makes exactly that assignment, on every
host and whatever was assigned before, when the text is plain and only then.
The other direction measures the reader on a host where every expansion is
empty: each character adds at most one to the first value, and a character
that is not plain adds nothing.
-/

namespace Provisioner.Shell

def tildeFree : Bool → Text → Bool
  | _, [] => true
  | fresh, c :: rest => !(fresh && c == '~') && tildeFree (c == ':') rest

structure Plain (v : Text) : Prop where
  bare : isBare v = true
  tildes : tildeFree true v = true

instance (v : Text) : Decidable (Plain v) :=
  decidable_of_iff (isBare v = true ∧ tildeFree true v = true)
    ⟨fun hv => ⟨hv.1, hv.2⟩, fun hv => ⟨hv.bare, hv.tildes⟩⟩

theorem expand_tildeFree (h : Host) (vars : List (Text × Text)) {fresh : Bool} {t : Text}
    (ht : tildeFree fresh t = true) : expand h vars fresh 0 (chars t) = .ok t := by
  induction t generalizing fresh with
  | nil => rfl
  | cons c t ih =>
    rw [tildeFree, Bool.and_eq_true, Bool.not_eq_true'] at ht
    change expand h vars fresh 0 (.char c false :: chars t) = _
    have hnone : (fresh && !false && c == '~') = false := by simpa using ht.1
    rw [expand, hnone]
    simp only [Bool.false_eq_true, if_false, Bool.not_false, Bool.true_and, ih ht.2]
    rfl

theorem isBare_append {t u : Text} (ht : isBare t = true) (hu : isBare u = true)
    (hhead : u.head?.any opensExpansion = false) : isBare (t ++ u) = true := by
  induction t with
  | nil => exact hu
  | cons c t ih =>
    rw [isBare, Bool.and_eq_true] at ht
    rw [List.cons_append, isBare, ih ht.2, Bool.and_true]
    cases t with
    | nil => simpa [hhead] using ht.1
    | cons d t => exact ht.1

theorem tildeFree_append {fresh : Bool} {t u : Text} (ht : tildeFree fresh t = true)
    (hu : ∀ fresh, tildeFree fresh u = true) : tildeFree fresh (t ++ u) = true := by
  induction t generalizing fresh with
  | nil => exact hu fresh
  | cons c t ih =>
    rw [tildeFree, Bool.and_eq_true] at ht
    rw [List.cons_append, tildeFree, ht.1, Bool.true_and]
    exact ih ht.2

theorem Plain.append_path {v path : Text} (hv : Plain v) (hpath : Plain ('/' :: path)) :
    Plain (v ++ '/' :: path) := by
  refine ⟨isBare_append hv.bare hpath.bare (by rfl), tildeFree_append hv.tildes fun fresh => ?_⟩
  have hslash := hpath.tildes
  rw [tildeFree, Bool.and_eq_true] at hslash ⊢
  exact ⟨by simp, hslash.2⟩

theorem read_assignment {h : Host} {n v : Text} (hn : isName n = true) (hspecial : n ∉ special)
    (hv : Plain v) (vars : List (Text × Text)) :
    read h (.after vars) (n ++ ['='] ++ v ++ ['\n']) = .ok (.after ((n, v) :: vars)) := by
  rw [readLine hn hspecial hv.bare, expand_tildeFree h vars hv.tildes]
  rfl

/-! ## A host where every expansion is empty -/

def erased : Host where
  inherited _ := some []
  home _ := some []

@[simp] theorem home_erased (name : Text) : erased.homeOf [] name = some [] := by
  rw [Host.homeOf]
  split <;> rfl

def size (value : List Part) : ℕ := value.countP fun p => p matches .char _ _

theorem size_drop_le (n : ℕ) (value : List Part) : size (value.drop n) ≤ size value :=
  (List.drop_sublist n value).countP_le

@[simp] theorem size_chars (t : Text) : size (chars t) = t.length := by
  induction t with
  | nil => rfl
  | cons c t ih =>
    change size (.char c false :: chars t) = _
    rw [size, List.countP_cons_of_pos rfl, List.length_cons]
    exact congrArg Nat.succ ih

theorem expand_le {fresh : Bool} {skip : ℕ} {value : List Part} {o : Text}
    (ho : expand erased [] fresh skip value = .ok o) : o.length ≤ size (value.drop skip) := by
  induction value generalizing fresh skip o with
  | nil =>
    cases ho
    exact Nat.zero_le _
  | cons p value ih =>
    cases skip with
    | succ skip => exact ih ho
    | zero =>
      cases p with
      | var n =>
        rw [expand] at ho
        split at ho
        · cases ho
        · obtain ⟨t, ht, rfl⟩ := except_map_eq_ok.mp ho
          exact ih ht
      | char c quoted =>
        have hcons : size (.char c quoted :: value) = size value + 1 :=
          List.countP_cons_of_pos rfl
        rw [List.drop_zero, hcons]
        rw [expand] at ho
        split at ho
        · rename_i dir skip hdir
          obtain ⟨t, ht, rfl⟩ := except_map_eq_ok.mp ho
          have hnil : dir = [] := by
            split at hdir
            · simp only [Host.tilde, home_erased] at hdir
              split at hdir
              · cases hdir
                rfl
              · cases hdir
                rfl
              · cases hdir
            · cases hdir
          have hlen := ih ht
          have hdrop := size_drop_le skip value
          rw [hnil, List.nil_append]
          omega
        · obtain ⟨t, ht, rfl⟩ := except_map_eq_ok.mp ho
          have hlen := ih ht
          rw [List.drop_zero] at hlen
          rw [List.length_cons]
          omega

theorem tilde_chars (t : Text) :
    ∃ n, erased.tilde [] (chars t) = some ([], n) := by
  refine ⟨(tildeName (chars t)).length, ?_⟩
  rw [Host.tilde]
  have hrest : (chars t).drop (tildeName (chars t)).length =
      chars (t.drop (tildeName (chars t)).length) := List.map_drop.symm
  simp only [hrest]
  cases t.drop (tildeName (chars t)).length with
  | nil => rw [home_erased]; rfl
  | cons c u => rw [home_erased]; rfl

theorem expand_tilde_lt {fresh : Bool} {t o : Text} (ht : tildeFree fresh t = false)
    (ho : expand erased [] fresh 0 (chars t) = .ok o) : o.length < t.length := by
  induction t generalizing fresh o with
  | nil => cases ht
  | cons c t ih =>
    change expand erased [] fresh 0 (.char c false :: chars t) = .ok o at ho
    rw [expand] at ho
    cases hfresh : fresh && c == '~' with
    | true =>
      obtain ⟨n, hn⟩ := tilde_chars t
      have hcond : (fresh && !false && c == '~') = true := by simpa using hfresh
      rw [if_pos hcond, hn] at ho
      obtain ⟨u, hu, rfl⟩ := except_map_eq_ok.mp ho
      have hlen := expand_le hu
      have hdrop := size_drop_le n (chars t)
      rw [size_chars] at hdrop
      rw [List.nil_append, List.length_cons]
      omega
    | false =>
      have hcond : (fresh && !false && c == '~') = false := by simpa using hfresh
      rw [hcond] at ho
      obtain ⟨u, hu, rfl⟩ := except_map_eq_ok.mp ho
      rw [tildeFree, hfresh] at ht
      have hlen := ih (by simpa using ht) (by simpa using hu)
      rw [List.length_cons, List.length_cons]
      omega

/-! ## What one character does -/

def inWord : Mode → Bool
  | .between | .comment | .escape .between | .escape .comment | .escape (.escape _) => false
  | _ => true

/-- The most characters a mode may still add for those already read. -/
def pending : Mode → ℕ
  | .dollar _ | .escape .double | .escape (.dollar false) | .escape (.name true _) => 1
  | .escape (.dollar true) => 2
  | _ => 0

def Reader.size (r : Reader) : ℕ := Shell.size r.word.value + pending r.mode

inductive InWord (h : Host) (n : Text) (r : Reader) (b : ℕ) (r' : Reader) : Prop where
  | goesOn : inWord r'.mode = true → r'.words = r.words → r'.vars = r.vars →
      r'.word.name = some n → r'.size ≤ b → InWord h n r b r'
  | close (w : Word) : w.name = some n → size w.value ≤ b → r'.words = r.words ++ [w] →
      r'.vars = r.vars → InWord h n r b r'
  | execute (w : Word) (vars : List (Text × Text)) : w.name = some n → size w.value ≤ b →
      command h r.vars (r.words ++ [w]) = .ok vars → r' = .after vars → InWord h n r b r'

theorem InWord.mono {h : Host} {n : Text} {r r' : Reader} {b b' : ℕ} (hin : InWord h n r b r')
    (hle : b ≤ b') : InWord h n r b' r' := by
  cases hin with
  | goesOn hmode hwords hvars hname hsize => exact .goesOn hmode hwords hvars hname (hsize.trans hle)
  | close w hname hsize hwords hvars => exact .close w hname (hsize.trans hle) hwords hvars
  | execute w vars hname hsize hcommand hr' =>
    exact .execute w vars hname (hsize.trans hle) hcommand hr'

variable {h : Host} {n : Text}

theorem size_add_char (w : Word) (c : Char) (quoted : Bool) :
    size (w.add (.char c quoted)).value = size w.value + 1 := by
  rw [Word.add, size, List.countP_append]
  rfl

theorem size_add_var (w : Word) (v : Text) : size (w.add (.var v)).value = size w.value := by
  rw [Word.add, size, List.countP_append]
  rfl

/-- An ordinary character adds one, any other none, unless it is a `$`. -/
theorem bare_inWord {r r' : Reader} {c : Char} (hname : r.word.name = some n)
    (hnul : c.toNat ≠ 0) (hbare : bare h r c = .ok r') :
    InWord h n r (size r.word.value + if isOrdinary c || c == '$' then 1 else 0) r' := by
  have hclose : InWord h n r (size r.word.value + if isOrdinary c || c == '$' then 1 else 0)
      r.close := .close r.word hname (Nat.le_add_right _ _) rfl rfl
  rw [bare] at hbare
  split at hbare
  · cases hbare
    exact hclose
  split at hbare
  · obtain ⟨vars, hvars, rfl⟩ := except_map_eq_ok.mp hbare
    exact .execute r.word vars hname (Nat.le_add_right _ _) hvars rfl
  split at hbare
  · cases hbare
    exact .goesOn rfl rfl rfl hname (Nat.le_add_right _ _)
  split at hbare
  · cases hbare
    exact .goesOn rfl rfl rfl hname (Nat.le_add_right _ _)
  split at hbare
  · cases hbare
    exact .goesOn rfl rfl rfl hname (Nat.le_add_right _ _)
  split at hbare
  · rename_i hdollar
    cases hbare
    refine .goesOn rfl rfl rfl hname ?_
    simp [Reader.size, pending, hdollar]
  split at hbare
  · cases hbare
  · rename_i hblank hline hsingle hdouble hback hdollar hoperator
    cases hbare
    have hsome : r.word.name.isSome = true := by rw [hname]; rfl
    have hord : isOrdinary c = true :=
      ordinary_iff.mpr ⟨by simpa using hblank, hline, hsingle, hdouble, hback, hdollar,
        by simpa using hoperator, hnul⟩
    refine .goesOn rfl rfl rfl ?_ ?_
    · rw [push_named hsome]
      exact hname
    · simp [Reader.size, pending, push_named hsome, size_add_char, hord]

theorem double_inWord {r r' : Reader} {c : Char} (hname : r.word.name = some n)
    (hdouble : double r c = .ok r') : InWord h n r (size r.word.value + 1) r' := by
  rw [double] at hdouble
  split at hdouble
  · cases hdouble
    exact .goesOn rfl rfl rfl hname (Nat.le_add_right _ _)
  split at hdouble
  · cases hdouble
    exact .goesOn rfl rfl rfl hname le_rfl
  split at hdouble
  · cases hdouble
    exact .goesOn rfl rfl rfl hname le_rfl
  split at hdouble
  · cases hdouble
  · cases hdouble
    refine .goesOn rfl rfl rfl hname ?_
    simp [Reader.size, pending, size_add_char]

theorem InWord.of_settle {r r' : Reader} {m : Mode} {b : ℕ}
    (hin : InWord h n (r.settle m) b r') : InWord h n r b r' := by
  have hsame : (r.settle m).words = r.words ∧ (r.settle m).vars = r.vars := by
    cases m <;> exact ⟨rfl, rfl⟩
  cases hin with
  | goesOn hmode hwords hvars hname hsize =>
    exact .goesOn hmode (hwords.trans hsame.1) (hvars.trans hsame.2) hname hsize
  | close w hname hsize hwords hvars =>
    rw [hsame.1] at hwords
    exact .close w hname hsize hwords (hvars.trans hsame.2)
  | execute w vars hname hsize hcommand hr' =>
    rw [hsame.1, hsame.2] at hcommand
    exact .execute w vars hname hsize hcommand hr'

theorem settle_name {r : Reader} {m : Mode} (hname : r.word.name = some n) :
    (r.settle m).word.name = some n := by
  cases m <;> exact hname

/-- What settling adds: the `$` that expanded nothing. -/
def owed : Mode → ℕ
  | .dollar _ => 1
  | _ => 0

theorem settle_size (r : Reader) (m : Mode) :
    size (r.settle m).word.value = size r.word.value + owed m := by
  cases m with
  | dollar quoted => exact size_add_char r.word '$' quoted
  | name quoted read => exact size_add_var r.word read
  | _ => rfl

theorem settled_inWord {r r' : Reader} {c : Char} (hname : r.word.name = some n)
    (hnul : c.toNat ≠ 0) (hsettled : settled h r c = .ok r') :
    InWord h n r (size r.word.value + owed r.mode + 1) r' := by
  rw [settled] at hsettled
  have hname' := settle_name (m := r.mode) hname
  split at hsettled
  · have hin := double_inWord (h := h) hname' hsettled
    rw [settle_size] at hin
    exact hin.of_settle
  · have hin := (bare_inWord hname' hnul hsettled).mono
      (Nat.add_le_add_left (show (if isOrdinary c || c == '$' then 1 else 0) ≤ 1 by split <;> omega) _)
    rw [settle_size] at hin
    exact hin.of_settle

theorem escaped_inWord {r r' : Reader} {back : Mode} {c : Char} (hname : r.word.name = some n)
    (hback : inWord (.escape back) = true) (hescaped : escaped r back c = .ok r') :
    InWord h n r (size r.word.value + pending (.escape back) + 1) r' := by
  unfold escaped at hescaped
  split at hescaped
  · cases hescaped
    refine .goesOn ?_ rfl rfl hname ?_
    · cases back with
      | between | comment | escape => cases hback
      | _ => rfl
    · change size r.word.value + pending back ≤ _
      cases back with
      | between | comment | escape => cases hback
      | dollar quoted => cases quoted <;> simp only [pending] <;> omega
      | _ => simp only [pending]; omega
  · have hchar : ∀ (w : Word) (d : Char), size (w.add (.char d true)).value = size w.value + 1 :=
      fun w d => size_add_char w d true
    cases back with
    | between | comment | escape => cases hback
    | brace => cases hescaped
    | bare | single =>
      cases hescaped
      refine .goesOn rfl rfl rfl hname ?_
      change size (r.word.add _).value + 0 ≤ _
      simp [hchar, pending]
    | double =>
      simp only [Reader.settle, if_true] at hescaped
      split at hescaped
      · cases hescaped
        refine .goesOn rfl rfl rfl hname ?_
        simp [Reader.size, hchar, pending]
      · cases hescaped
        refine .goesOn rfl rfl rfl hname ?_
        simp [Reader.size, hchar, pending]
    | dollar quoted =>
      cases quoted with
      | false =>
        cases hescaped
        refine .goesOn rfl rfl rfl hname ?_
        change size ((r.word.add _).add _).value + 0 ≤ _
        simp [hchar, size_add_char, pending]
      | true =>
        simp only [Reader.settle, if_true] at hescaped
        split at hescaped
        · cases hescaped
          refine .goesOn rfl rfl rfl hname ?_
          simp [Reader.size, hchar, pending]
        · cases hescaped
          refine .goesOn rfl rfl rfl hname ?_
          simp [Reader.size, hchar, pending]
    | name quoted read =>
      cases quoted with
      | false =>
        cases hescaped
        refine .goesOn rfl rfl rfl hname ?_
        change size ((r.word.add _).add _).value + 0 ≤ _
        simp [hchar, size_add_var, pending]
      | true =>
        simp only [Reader.settle, if_true] at hescaped
        split at hescaped
        · cases hescaped
          refine .goesOn rfl rfl rfl hname ?_
          simp [Reader.size, hchar, size_add_var, pending]
        · cases hescaped
          refine .goesOn rfl rfl rfl hname ?_
          simp [Reader.size, hchar, size_add_var, pending]

theorem step_inWord {r r' : Reader} {c : Char} (hname : r.word.name = some n)
    (hmode : inWord r.mode = true) (hstep : step h r c = .ok r') :
    InWord h n r (r.size + 1) r' := by
  rw [step] at hstep
  split at hstep
  · cases hstep
  · rename_i hguard
    rw [Reader.size]
    have hnul : c.toNat ≠ 0 := by
      intro hnul
      refine hguard ⟨hnul, ?_⟩
      rintro hcomment
      rw [hcomment] at hmode
      cases hmode
    cases hm : r.mode with
    | between | comment =>
      rw [hm] at hmode
      cases hmode
    | bare =>
      rw [hm] at hstep
      exact (bare_inWord hname hnul hstep).mono (by simp only [pending]; split <;> omega)
    | single =>
      rw [hm] at hstep
      dsimp only at hstep
      split at hstep
      · cases hstep
        exact .goesOn rfl rfl rfl hname (by simp [Reader.size, pending])
      · cases hstep
        exact .goesOn rfl rfl rfl hname (by simp [Reader.size, pending, size_add_char])
    | double =>
      rw [hm] at hstep
      exact double_inWord hname hstep
    | dollar quoted =>
      rw [hm] at hstep
      dsimp only at hstep
      split at hstep
      · cases hstep
        exact .goesOn rfl rfl rfl hname (by simp only [Reader.size, pending]; omega)
      split at hstep
      · cases hstep
        exact .goesOn rfl rfl rfl hname (by simp only [Reader.size, pending]; omega)
      split at hstep
      · cases hstep
        refine .goesOn rfl rfl rfl hname ?_
        cases quoted <;> simp only [Reader.size, pending] <;> omega
      split at hstep
      · cases hstep
      · have hin := settled_inWord hname hnul hstep
        rw [hm] at hin
        exact hin
    | name quoted read =>
      rw [hm] at hstep
      dsimp only at hstep
      split at hstep
      · cases hstep
        exact .goesOn rfl rfl rfl hname (by simp [Reader.size, pending])
      split at hstep
      · cases hstep
        refine .goesOn rfl rfl rfl hname ?_
        cases quoted <;> simp only [Reader.size, pending] <;> omega
      · have hin := settled_inWord hname hnul hstep
        rw [hm] at hin
        exact hin
    | brace quoted read =>
      rw [hm] at hstep
      dsimp only at hstep
      split at hstep
      · cases hstep
        refine .goesOn ?_ rfl rfl hname ?_
        · cases quoted <;> rfl
        · cases quoted <;> simp [Reader.size, Reader.settle, pending, size_add_var]
      split at hstep
      · cases hstep
        exact .goesOn rfl rfl rfl hname (by simp [Reader.size, pending])
      split at hstep
      · cases hstep
        exact .goesOn rfl rfl rfl hname (by simp [Reader.size, pending])
      · cases hstep
    | escape back =>
      rw [hm] at hstep hmode
      exact escaped_inWord hname hmode hstep

/-! ## What a command makes of what was read -/

inductive Moves (h : Host) (r r' : Reader) : Prop where
  | reads (more : List Word) : r'.words = r.words ++ more → r'.vars = r.vars → Moves h r r'
  | runs (more : List Word) (vars : List (Text × Text)) :
      command h r.vars (r.words ++ more) = .ok vars → r' = .after vars → Moves h r r'

theorem moves_same {r r' : Reader} (hwords : r'.words = r.words) (hvars : r'.vars = r.vars) :
    Moves h r r' :=
  .reads [] (by rw [hwords, List.append_nil]) hvars

theorem bare_moves {r r' : Reader} {c : Char} (hbare : bare h r c = .ok r') : Moves h r r' := by
  rw [bare] at hbare
  split at hbare
  · cases hbare
    exact .reads [r.word] rfl rfl
  split at hbare
  · obtain ⟨vars, hvars, rfl⟩ := except_map_eq_ok.mp hbare
    exact .runs [r.word] vars hvars rfl
  all_goals split_ifs at hbare <;> cases hbare <;> exact moves_same rfl rfl

theorem double_moves {r r' : Reader} {c : Char} (hdouble : double r c = .ok r') :
    Moves h r r' := by
  rw [double] at hdouble
  split_ifs at hdouble <;> cases hdouble <;> exact moves_same rfl rfl

theorem settle_same (r : Reader) (m : Mode) :
    (r.settle m).words = r.words ∧ (r.settle m).vars = r.vars := by
  cases m <;> exact ⟨rfl, rfl⟩

theorem settled_moves {r r' : Reader} {c : Char} (hsettled : settled h r c = .ok r') :
    Moves h r r' := by
  have hmoves : Moves h (r.settle r.mode) r' := by
    rw [settled] at hsettled
    split at hsettled
    · exact double_moves hsettled
    · exact bare_moves hsettled
  obtain ⟨hwords, hvars⟩ := settle_same r r.mode
  cases hmoves with
  | reads more hmore hsame => exact .reads more (by rw [hmore, hwords]) (hsame.trans hvars)
  | runs more vars hcommand hr' => exact .runs more vars (by rw [← hwords, ← hvars]; exact hcommand) hr'

theorem escaped_moves {r r' : Reader} {back : Mode} {c : Char}
    (hescaped : escaped r back c = .ok r') : Moves h r r' := by
  obtain ⟨hwords, hvars⟩ := settle_same r back
  unfold escaped at hescaped
  split at hescaped
  · cases hescaped
    exact moves_same rfl rfl
  · split at hescaped
    · cases hescaped
    · dsimp only at hescaped
      split_ifs at hescaped <;> cases hescaped <;> exact moves_same hwords hvars

theorem step_moves {r r' : Reader} {c : Char} (hstep : step h r c = .ok r') : Moves h r r' := by
  rw [step] at hstep
  split at hstep
  · cases hstep
  · have hexecute : r.execute h = .ok r' → Moves h r r' := by
      intro hexecute
      obtain ⟨vars, hvars, rfl⟩ := except_map_eq_ok.mp hexecute
      exact .runs [] vars (by rw [List.append_nil]; exact hvars) rfl
    cases hm : r.mode with
    | between =>
      rw [hm] at hstep
      dsimp only at hstep
      split at hstep
      · cases hstep
        exact moves_same rfl rfl
      split at hstep
      · exact hexecute hstep
      split at hstep
      · cases hstep
        exact moves_same rfl rfl
      split at hstep
      · cases hstep
        exact moves_same rfl rfl
      · exact bare_moves hstep
    | comment =>
      rw [hm] at hstep
      dsimp only at hstep
      split at hstep
      · exact hexecute hstep
      · cases hstep
        exact moves_same rfl rfl
    | bare =>
      rw [hm] at hstep
      exact bare_moves hstep
    | single =>
      rw [hm] at hstep
      dsimp only at hstep
      split_ifs at hstep <;> cases hstep <;> exact moves_same rfl rfl
    | double =>
      rw [hm] at hstep
      exact double_moves hstep
    | dollar quoted =>
      rw [hm] at hstep
      dsimp only at hstep
      split at hstep
      · cases hstep
        exact moves_same rfl rfl
      split at hstep
      · cases hstep
        exact moves_same rfl rfl
      split at hstep
      · cases hstep
        exact moves_same rfl rfl
      split at hstep
      · cases hstep
      · exact settled_moves hstep
    | name quoted read =>
      rw [hm] at hstep
      dsimp only at hstep
      split at hstep
      · cases hstep
        exact moves_same rfl rfl
      split at hstep
      · cases hstep
        exact moves_same rfl rfl
      · exact settled_moves hstep
    | brace quoted read =>
      rw [hm] at hstep
      dsimp only at hstep
      split_ifs at hstep <;> cases hstep <;> exact moves_same rfl rfl
    | escape back =>
      rw [hm] at hstep
      exact escaped_moves hstep

theorem assigns_extend {vars vars' : List (Text × Text)} {ws : List Word}
    (hws : ws.foldlM (assign h) vars = .ok vars') : ∃ extra, vars' = extra ++ vars := by
  induction ws generalizing vars with
  | nil =>
    cases hws
    exact ⟨[], rfl⟩
  | cons w ws ih =>
    rw [List.foldlM_cons] at hws
    obtain ⟨mid, hmid, hws⟩ := except_bind_eq_ok.mp hws
    obtain ⟨extra, rfl⟩ := ih hws
    rw [assign] at hmid
    split at hmid
    · cases hmid
    · split at hmid
      · cases hmid
      · obtain ⟨value, -, rfl⟩ := except_map_eq_ok.mp hmid
        exact ⟨extra ++ [_], List.append_cons _ _ _⟩

theorem command_extends {vars vars' : List (Text × Text)} {ws : List Word}
    (hcommand : command h vars ws = .ok vars') : ∃ extra, vars' = extra ++ vars := by
  unfold command at hcommand
  split at hcommand
  · exact assigns_extend hcommand
  · split at hcommand
    · cases hcommand
      exact ⟨[], rfl⟩
    · split at hcommand
      · obtain ⟨made, -, rfl⟩ := except_map_eq_ok.mp hcommand
        exact ⟨_, rfl⟩
      · cases hcommand

theorem command_first {w : Word} {ws : List Word} {vars : List (Text × Text)}
    (hname : w.name = some n) (hcommand : command h [] (w :: ws) = .ok vars) :
    ∃ o extra, vars = extra ++ [(n, o)] ∧ expand h [] true 0 w.value = .ok o := by
  rw [command] at hcommand
  split at hcommand
  · rw [List.foldlM_cons] at hcommand
    obtain ⟨mid, hmid, hws⟩ := except_bind_eq_ok.mp hcommand
    obtain ⟨extra, rfl⟩ := assigns_extend hws
    simp only [assign, hname] at hmid
    split at hmid
    · cases hmid
    · obtain ⟨o, ho, rfl⟩ := except_map_eq_ok.mp hmid
      exact ⟨o, extra, rfl, ho⟩
  · simp [hname] at hcommand

/-! ## The first assignment -/

/-- The first assignment, made or still read, is to `n` and has at most `b`
characters. -/
inductive Bound (n : Text) (b : ℕ) (r : Reader) : Prop where
  | made (o : Text) (extra : List (Text × Text)) : r.vars = extra ++ [(n, o)] → o.length ≤ b →
      Bound n b r
  | waits (w : Word) (ws : List Word) : r.vars = [] → r.words = w :: ws → w.name = some n →
      size w.value ≤ b → Bound n b r
  | reads : r.vars = [] → r.words = [] → r.word.name = some n → inWord r.mode = true →
      r.size ≤ b → Bound n b r

theorem bound_command {w : Word} {ws : List Word} {vars : List (Text × Text)} {b : ℕ}
    (hname : w.name = some n) (hsize : size w.value ≤ b)
    (hcommand : command erased [] (w :: ws) = .ok vars) : Bound n b (.after vars) := by
  obtain ⟨o, extra, rfl, ho⟩ := command_first hname hcommand
  exact .made o extra rfl ((expand_le ho).trans hsize)

theorem InWord.bound {r r' : Reader} {b : ℕ} (hin : InWord erased n r b r') (hvars : r.vars = [])
    (hwords : r.words = []) : Bound n b r' := by
  cases hin with
  | goesOn hmode hwords' hvars' hname hsize =>
    exact .reads (hvars'.trans hvars) (hwords'.trans hwords) hname hmode hsize
  | close w hname hsize hwords' hvars' =>
    exact .waits w [] (hvars'.trans hvars) (by rw [hwords', hwords, List.nil_append]) hname hsize
  | execute w vars hname hsize hcommand hr' =>
    rw [hvars, hwords] at hcommand
    rw [hr']
    exact bound_command hname hsize hcommand

theorem bound_of_step {r r' : Reader} {c : Char} {b b' : ℕ} (hbound : Bound n b r)
    (hle : b ≤ b') (hstep : step erased r c = .ok r')
    (hin : r.word.name = some n → inWord r.mode = true → r.size ≤ b → InWord erased n r b' r') :
    Bound n b' r' := by
  cases hbound with
  | made o extra hvars hlen =>
    cases step_moves hstep with
    | reads more _ hsame => exact .made o extra (hsame.trans hvars) (hlen.trans hle)
    | runs more vars hcommand hr' =>
      obtain ⟨extra', rfl⟩ := command_extends hcommand
      rw [hr', hvars]
      exact .made o (extra' ++ extra) (List.append_assoc _ _ _).symm (hlen.trans hle)
  | waits w ws hvars hwords hname hsize =>
    cases step_moves hstep with
    | reads more hmore hsame =>
      exact .waits w (ws ++ more) (hsame.trans hvars) (by rw [hmore, hwords, List.cons_append])
        hname (hsize.trans hle)
    | runs more vars hcommand hr' =>
      rw [hvars, hwords, List.cons_append] at hcommand
      rw [hr']
      exact bound_command hname (hsize.trans hle) hcommand
  | reads hvars hwords hname hmode hsize => exact (hin hname hmode hsize).bound hvars hwords

theorem bound_step {r r' : Reader} {c : Char} {b : ℕ} (hbound : Bound n b r)
    (hstep : step erased r c = .ok r') : Bound n (b + 1) r' :=
  bound_of_step hbound (Nat.le_succ b) hstep fun hname hmode hsize =>
    (step_inWord hname hmode hstep).mono (Nat.succ_le_succ hsize)

theorem bound_read {r r' : Reader} {t : Text} {b : ℕ} (hbound : Bound n b r)
    (hread : read erased r t = .ok r') : Bound n (b + t.length) r' := by
  induction t generalizing r b with
  | nil =>
    cases hread
    exact hbound
  | cons c t ih =>
    rw [read_cons] at hread
    obtain ⟨mid, hmid, hread⟩ := except_bind_eq_ok.mp hread
    have hrest := ih (bound_step hbound hmid) hread
    rw [List.length_cons]
    rwa [Nat.add_assoc, Nat.add_comm 1] at hrest

theorem line_inWord {r r' : Reader} (hname : r.word.name = some n)
    (hmode : inWord r.mode = true) (hstep : step h r '\n' = .ok r')
    (hbetween : r'.mode = .between) : InWord h n r r.size r' := by
  have hsettled : ∀ m, owed m ≤ pending m → r.mode = m →
      (r.settle m).mode = .bare → bare h (r.settle m) '\n' = .ok r' → InWord h n r r.size r' := by
    intro m howed hm _ hbare
    have hin := bare_inWord (settle_name hname) (by decide) hbare
    rw [settle_size] at hin
    refine hin.of_settle.mono ?_
    rw [Reader.size, hm]
    simp [isOrdinary]
    omega
  have hinner : ∀ s : Reader, double s '\n' = .ok r' → False := by
    intro s hdouble
    cases hdouble
    cases hbetween
  rw [step, if_neg fun hc => absurd hc.1 (by decide)] at hstep
  cases hm : r.mode with
  | between | comment =>
    rw [hm] at hmode
    cases hmode
  | bare =>
    rw [hm] at hstep
    refine hsettled .bare (by simp [owed]) hm rfl ?_
    rw [← hm, settle_bare hm]
    exact hstep
  | single =>
    rw [hm] at hstep
    cases hstep
    cases hbetween
  | double =>
    rw [hm] at hstep
    exact (hinner r hstep).elim
  | dollar quoted =>
    rw [hm] at hstep
    cases quoted with
    | false =>
      have hbare : settled h r '\n' = .ok r' := hstep
      rw [settled, hm] at hbare
      exact hsettled (.dollar false) (by simp [owed, pending]) hm rfl hbare
    | true =>
      have hdouble : settled h r '\n' = .ok r' := hstep
      rw [settled, hm] at hdouble
      exact (hinner _ hdouble).elim
  | name quoted read =>
    rw [hm] at hstep
    cases quoted with
    | false =>
      have hbare : settled h r '\n' = .ok r' := hstep
      rw [settled, hm] at hbare
      exact hsettled (.name false read) (by simp [owed]) hm rfl hbare
    | true =>
      have hdouble : settled h r '\n' = .ok r' := hstep
      rw [settled, hm] at hdouble
      exact (hinner _ hdouble).elim
  | brace quoted read =>
    rw [hm] at hstep
    cases hstep
  | escape back =>
    rw [hm] at hstep hmode
    cases hstep
    rw [show back = .between from hbetween] at hmode
    cases hmode

theorem bound_line {r r' : Reader} {b : ℕ} (hbound : Bound n b r)
    (hline : step erased r '\n' = .ok r') (hbetween : r'.mode = .between) : Bound n b r' :=
  bound_of_step hbound le_rfl hline fun hname hmode hsize =>
    (line_inWord hname hmode hline hbetween).mono hsize

/-! ## What is not plain is lost -/

theorem not_bare {t : Text} (ht : isBare t = false) :
    ∃ a c rest, t = a ++ c :: rest ∧ isBare a = true ∧
      (isOrdinary c = false ∧ c ≠ '$' ∨ c = '$' ∧ rest.head?.any opensExpansion = true) := by
  induction t with
  | nil => cases ht
  | cons c t ih =>
    cases hc : isOrdinary c || c == '$' && !t.head?.any opensExpansion with
    | false =>
      refine ⟨[], c, t, rfl, rfl, ?_⟩
      rw [Bool.or_eq_false_iff] at hc
      by_cases hdollar : c = '$'
      · right
        simpa [hdollar] using hc.2
      · exact .inl ⟨hc.1, hdollar⟩
    | true =>
      rw [isBare, hc, Bool.true_and] at ht
      obtain ⟨a, d, rest, rfl, ha, hd⟩ := ih ht
      refine ⟨c :: a, d, rest, rfl, ?_, hd⟩
      rw [isBare, ha, Bool.and_true]
      cases a with
      | nil =>
        rw [Bool.or_eq_true, Bool.and_eq_true] at hc
        rw [Bool.or_eq_true, Bool.and_eq_true]
        exact hc.imp_right fun hdollar => ⟨hdollar.1, rfl⟩
      | cons b a => exact hc

/-- In bare text, a character that does not stand for itself adds nothing. -/
theorem special_inWord {r r' : Reader} {c : Char} (hopen : r.Open) (hname : r.word.name = some n)
    (hc : isOrdinary c = false) (hdollar : c ≠ '$') (hstep : step h r c = .ok r') :
    InWord h n r (size (r.settle r.mode).word.value) r' := by
  have hnul : c.toNat ≠ 0 := by
    intro hnul
    rw [step, if_pos ⟨hnul, by rcases hopen with hm | hm <;> rw [hm] <;> simp⟩] at hstep
    cases hstep
  have hbare : bare h (r.settle r.mode) c = .ok r' →
      InWord h n r (size (r.settle r.mode).word.value) r' := by
    intro hbare
    have hin := bare_inWord (settle_name hname) hnul hbare
    have hzero : (isOrdinary c || c == '$') = false := by simp [hc, hdollar]
    rw [hzero] at hin
    exact hin.of_settle
  rcases hopen with hm | hm
  · rw [step, if_neg fun hc => hnul hc.1, hm] at hstep
    rw [settle_bare hm] at hbare
    rw [settle_bare hm]
    exact hbare hstep
  · rw [step, if_neg fun hc => hnul hc.1, hm] at hstep
    dsimp only at hstep
    split at hstep
    · rename_i hstart
      rw [(name_char_ordinary (name_start_char hstart)).1] at hc
      cases hc
    split at hstep
    · rename_i hbrace
      rw [hbrace] at hc
      cases hc
    split at hstep
    · cases hstep
      refine .goesOn rfl rfl rfl hname ?_
      rw [settle_size, hm]
      simp [Reader.size, pending, owed]
    split at hstep
    · cases hstep
    · rw [settled] at hstep
      rw [hm] at hstep hbare ⊢
      exact hbare hstep

theorem expansion_inWord {r r' r'' : Reader} {c : Char} (hmode : r.mode = .bare)
    (hname : r.word.name = some n) (hc : opensExpansion c = true)
    (hdollar : step h r '$' = .ok r') (hstep : step h r' c = .ok r'') :
    InWord h n r (size r.word.value) r'' := by
  have hr' : { r with mode := .dollar false } = r' := by
    rw [step_open (.inl hmode) (by decide) (fun hm => by rw [hmode] at hm; cases hm),
      settle_bare hmode] at hdollar
    exact Except.ok.inj hdollar
  subst hr'
  rw [step] at hstep
  split at hstep
  · cases hstep
  dsimp only at hstep
  split at hstep
  · cases hstep
    exact .goesOn rfl rfl rfl hname le_rfl
  split at hstep
  · cases hstep
    exact .goesOn rfl rfl rfl hname le_rfl
  rename_i hstart hbrace
  have hbeyond : isBeyondDollar c = true := by
    simpa [opensExpansion, hstart, hbrace] using hc
  split at hstep
  · rename_i hback
    rw [hback] at hbeyond
    cases hbeyond
  rw [hbeyond] at hstep
  cases hstep

/-- Where a line of bare text makes its assignment, no tilde counts. -/
theorem tildeFree_of_read {v : Text} (hn : isName n = true) (hspecial : n ∉ special)
    (hv : isBare v = true)
    (hread : read erased (.after []) (n ++ ['='] ++ v ++ ['\n']) = .ok (.after [(n, v)])) :
    tildeFree true v = true := by
  rw [readLine hn hspecial hv] at hread
  obtain ⟨o, ho, heq⟩ := except_map_eq_ok.mp hread
  have hvars : [(n, o)] = [(n, v)] := congrArg Reader.vars heq
  cases hvars
  by_contra htilde
  have hlt := expand_tilde_lt (by simpa using htilde) ho
  omega

theorem bare_of_read {v : Text} (hn : isName n = true)
    (hread : read erased (.after []) (n ++ ['='] ++ v ++ ['\n']) = .ok (.after [(n, v)])) :
    isBare v = true := by
  by_contra hbare
  obtain ⟨a, c, rest, rfl, ha, hc⟩ := not_bare (by simpa using hbare)
  have htarget : read erased (.after []) (n ++ ['=']) =
      .ok { Reader.after [] with mode := .bare, word := { name := some n } } :=
    read_target rfl rfl hn
  obtain ⟨r, hprefix, hopen, hsettle⟩ := read_bare (h := erased)
    (r := { Reader.after [] with mode := .bare, word := { name := some n } }) (.inl rfl) ha
    (fun hdollar => by cases hdollar) rfl
  obtain ⟨hwords, hvars⟩ := settle_same r r.mode
  rw [hsettle] at hwords hvars
  have hname : r.word.name = some n := by
    have hsame : (r.settle r.mode).word.name = r.word.name := by cases r.mode <;> rfl
    rw [← hsame, hsettle]
    rfl
  have hsize : size (r.settle r.mode).word.value = a.length := by
    rw [hsettle]
    exact size_chars a
  -- from the first character that is not bare, one less is left than was read
  have hshort : ∀ (r' : Reader) (t : Text), InWord erased n r a.length r' →
      read erased r' (t ++ ['\n']) = .ok (.after [(n, a ++ c :: rest)]) →
        a.length + t.length < (a ++ c :: rest).length → False := by
    intro r' t hin hlast hlt
    rw [read_append] at hlast
    obtain ⟨last, ht, hline⟩ := except_bind_eq_ok.mp hlast
    rw [read_cons] at hline
    obtain ⟨done, hdone, hnil⟩ := except_bind_eq_ok.mp hline
    cases hnil
    have hbound := bound_line (bound_read (hin.bound hvars.symm hwords.symm) ht) hdone rfl
    cases hbound with
    | made o extra hmade hlen =>
      have hsingle : [(n, a ++ c :: rest)] = extra ++ [(n, o)] := hmade
      have hlast := congrArg List.getLast? hsingle
      rw [List.getLast?_concat] at hlast
      cases hlast
      omega
    | waits w ws hnone => cases hnone
    | reads hnone => cases hnone
  rw [List.append_assoc, read_after htarget, List.append_assoc, read_after hprefix,
    List.cons_append, read_cons] at hread
  obtain ⟨r', hstep, hread⟩ := except_bind_eq_ok.mp hread
  rcases hc with ⟨hord, hdollar⟩ | ⟨rfl, hopens⟩
  · have hin := special_inWord hopen hname hord hdollar hstep
    rw [hsize] at hin
    refine hshort r' rest hin hread ?_
    rw [List.length_append, List.length_cons]
    omega
  · cases rest with
    | nil => cases hopens
    | cons d rest =>
      rw [List.cons_append, read_cons] at hread
      obtain ⟨r'', hstep', hread⟩ := except_bind_eq_ok.mp hread
      rcases hopen with hm | hm
      · rw [settle_bare hm] at hsize
        have hin := expansion_inWord hm hname hopens hstep hstep'
        rw [hsize] at hin
        refine hshort r'' rest hin hread ?_
        rw [List.length_append, List.length_cons, List.length_cons]
        omega
      · rw [step, if_neg fun hc => absurd hc.1 (by decide), hm] at hstep
        cases hstep

/-- The line of a variable assigns it exactly the value, on every host and
whatever was assigned before. -/
def Reads (row : Text × Text) : Prop :=
  ∀ (h : Host) (vars : List (Text × Text)),
    read h (.after vars) (row.1 ++ ['='] ++ row.2 ++ ['\n']) = .ok (.after (row :: vars))

theorem reads_iff {row : Text × Text} (hn : isName row.1 = true) (hspecial : row.1 ∉ special) :
    Reads row ↔ Plain row.2 := by
  constructor
  · intro hreads
    have hbare := bare_of_read hn (hreads erased [])
    exact ⟨hbare, tildeFree_of_read hn hspecial hbare (hreads erased [])⟩
  · intro hplain h vars
    exact read_assignment hn hspecial hplain vars

end Provisioner.Shell
