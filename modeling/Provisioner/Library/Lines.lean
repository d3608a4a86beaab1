import Provisioner.Library.Text

/-!
# Lines of a text

`str.splitlines` and what is found on the lines.
-/

namespace Provisioner.Text

/-- The lines from here on: `line` is what has been read of the current one, and
`returned` tells that the character before was the carriage return that ended
the last one. -/
def linesFrom (line : Text) (returned : Bool) : Text → List Text
  | [] => if line.isEmpty then [] else [line]
  | c :: rest =>
    if returned && c == '\n' then linesFrom [] false rest
    else if isLineBreak c then line :: linesFrom [] (c == '\r') rest
    else linesFrom (line ++ [c]) false rest

def splitlines (t : Text) : List Text := linesFrom [] false t

theorem linesFrom_returned (line : Text) {t : Text} (ht : t.head? ≠ some '\n') (returned : Bool) :
    linesFrom line returned t = linesFrom line false t := by
  cases t with
  | nil => rfl
  | cons c t =>
    have hc : (c == '\n') = false := by simpa using ht
    rw [linesFrom, linesFrom, hc, Bool.and_false, Bool.and_false]

theorem splitlines_append {t u : Text} (ht : t.getLast? ∈ [none, some '\n', some '\r'])
    (hu : t.getLast? = some '\r' → u.head? ≠ some '\n') :
    splitlines (t ++ u) = splitlines t ++ splitlines u := by
  have hfrom : ∀ (line : Text) (returned : Bool), t ≠ [] →
      linesFrom line returned (t ++ u) = linesFrom line returned t ++ splitlines u := by
    induction t with
    | nil => exact fun _ _ hne => absurd rfl hne
    | cons c t ih =>
      intro line returned _
      rw [List.cons_append, linesFrom, linesFrom]
      cases t with
      | nil =>
        have hfresh : linesFrom [] false u = splitlines u := rfl
        have hc : c = '\n' ∨ c = '\r' := by simpa using ht
        rcases hc with rfl | rfl
        · rw [show isLineBreak '\n' = true from rfl, show ('\n' == '\r') = false from rfl,
            List.nil_append, hfresh]
          split <;> rfl
        · have hend := linesFrom_returned [] (hu rfl) true
          rw [show isLineBreak '\r' = true from rfl, show ('\r' == '\r') = true from rfl,
            show ('\r' == '\n') = false from rfl, Bool.and_false, List.nil_append, hend]
          rfl
      | cons d t =>
        have hrest := fun line returned =>
          ih (by simpa using ht) (by simpa using hu) line returned (List.cons_ne_nil d t)
        split
        · exact hrest [] false
        split
        · rw [hrest, List.cons_append]
        · exact hrest (line ++ [c]) false
  cases t with
  | nil => rfl
  | cons c t => exact hfrom [] false (List.cons_ne_nil c t)

theorem splitlines_newline (t : Text) :
    splitlines (t ++ ['\n']) = splitlines t ∨ splitlines (t ++ ['\n']) = splitlines t ++ [[]] := by
  have hfrom : ∀ (line : Text) (returned : Bool), (returned = true → line = []) →
      linesFrom line returned (t ++ ['\n']) = linesFrom line returned t ∨
        linesFrom line returned (t ++ ['\n']) = linesFrom line returned t ++ [[]] := by
    induction t with
    | nil =>
      intro line returned hline
      cases returned with
      | true =>
        rw [hline rfl]
        exact .inl rfl
      | false =>
        cases line with
        | nil => exact .inr rfl
        | cons c line => exact .inl rfl
    | cons c t ih =>
      intro line returned _
      rw [List.cons_append, linesFrom, linesFrom]
      split
      · exact ih [] false fun hreturned => by cases hreturned
      split
      · rcases ih [] (c == '\r') fun _ => rfl with hsame | hmore
        · exact .inl (by rw [hsame])
        · exact .inr (by rw [hmore, List.cons_append])
      · exact ih _ false fun hreturned => by cases hreturned
  exact hfrom [] false fun hreturned => by cases hreturned

theorem linesFrom_head {line : Text} (hline : line ≠ []) (t : Text) :
    ∃ head ∈ linesFrom line false t, line <+: head := by
  induction t generalizing line with
  | nil =>
    rw [linesFrom, if_neg (by simpa using hline)]
    exact ⟨line, List.mem_singleton_self line, List.prefix_rfl⟩
  | cons c t ih =>
    rw [linesFrom, Bool.false_and, if_neg Bool.false_ne_true]
    split
    · exact ⟨line, List.mem_cons_self, List.prefix_rfl⟩
    · obtain ⟨head, hhead, hprefix⟩ := ih (List.append_ne_nil_of_right_ne_nil line (List.cons_ne_nil c []))
      exact ⟨head, hhead, (List.prefix_append line [c]).trans hprefix⟩

theorem linesFrom_read {body : Text} (hbody : ∀ c ∈ body, isLineBreak c = false) (line t : Text) :
    linesFrom line false (body ++ t) = linesFrom (line ++ body) false t := by
  induction body generalizing line with
  | nil => rw [List.nil_append, List.append_nil]
  | cons c body ih =>
    obtain ⟨hc, hbody⟩ := List.forall_mem_cons.mp hbody
    rw [List.cons_append, linesFrom, Bool.false_and, if_neg Bool.false_ne_true, hc,
      if_neg Bool.false_ne_true, ih hbody, List.append_assoc, List.singleton_append]

theorem splitlines_head {body : Text} (hne : body ≠ []) (hbody : ∀ c ∈ body, isLineBreak c = false)
    (t : Text) : ∃ head ∈ splitlines (body ++ t), body <+: head := by
  rw [splitlines, linesFrom_read hbody]
  exact linesFrom_head hne t

theorem splitlines_line {body : Text} (hbody : ∀ c ∈ body, isLineBreak c = false) :
    splitlines (body ++ ['\n']) = [body] := by
  rw [splitlines, linesFrom_read hbody]
  rfl

end Provisioner.Text
