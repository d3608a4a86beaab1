import Provisioner.Powerdns.Ownership

/-!
# What an operation leaves in the zone

A record that is written is read back as it was planned, so an operation sets
its own rrset and no other.
-/

namespace Provisioner.Powerdns

structure Printable (r : Record) : Prop where
  name : Text.IsWord r.name
  lower_name : Text.lower r.name = r.name
  absolute : Text.endswith r.name "." = true
  not_directive : Text.startswith r.name "$" = false ∧ Text.startswith r.name ";" = false
  type : Text.IsWord r.type ∧ Text.upper r.type = r.type
  content : Text.IsTrimmed r.content
  parsed : parseContent r.type r.content = r.content

theorem dotted_eq_self {t : Text} (h : Text.endswith t "." = true) : dotted t = t := if_pos h

theorem parse_render {r : Record} (h : Printable r) : parseRecord (render r) = some r := by
  have htab : Text.isSpace '\t' = true := by decide
  have hin : Text.IsWord ['I', 'N'] := by decide
  have hrender : render r = r.name ++ '\t' :: (Text.decimal r.ttl ++ '\t' ::
      (['I', 'N'] ++ '\t' :: (r.type ++ '\t' :: r.content))) := by
    have htabs : ("\t" : Text) = ['\t'] ∧ ("\tIN\t" : Text) = ['\t', 'I', 'N', '\t'] := by decide
    simp only [render, htabs.1, htabs.2, List.append_assoc, List.cons_append, List.nil_append]
  have hfields : Text.fields 4 (render r) =
      [r.name, Text.decimal r.ttl, ['I', 'N'], r.type, r.content] := by
    rw [hrender, Text.fields_word h.name htab, Text.fields_word (Text.isWord_decimal _) htab,
      Text.fields_word hin htab, Text.fields_word h.type.1 htab, Text.fields_zero h.content.1]
  rw [parseRecord, hfields]
  dsimp only
  rw [if_pos ⟨by decide, Text.isNumber_decimal _, h.not_directive.1, h.not_directive.2⟩,
    h.lower_name, dotted_eq_self h.absolute, Text.int_decimal, h.type.2, h.parsed]

theorem lower_dotted (t : Text) : Text.lower (dotted (Text.lower t)) = dotted (Text.lower t) := by
  unfold dotted
  split
  · exact Text.lower_lower t
  · exact (Text.lower_dot (Text.lower t)).trans (by rw [Text.lower_lower]; rfl)

theorem dotted_ne_nil (t : Text) : dotted t ≠ [] := by
  unfold dotted
  split
  · rintro rfl
    revert ‹Text.endswith [] "." = true›
    decide
  · exact List.append_ne_nil_of_right_ne_nil _ (by decide)

theorem parseRecord_form {line : Text} {r : Record} (h : parseRecord line = some r) :
    Text.lower r.name = r.name ∧ r.name ≠ [] ∧ ∃ t, r.type = Text.upper t := by
  unfold parseRecord at h
  split at h
  · split at h
    · cases h
      exact ⟨lower_dotted _, dotted_ne_nil _, _, rfl⟩
    · cases h
  · cases h

theorem zone_record_form {listing : List Text} {r : Record} (h : r ∈ zoneRecords listing) :
    Text.lower r.name = r.name ∧ r.name ≠ [] ∧ ∃ t, r.type = Text.upper t := by
  obtain ⟨line, -, hline⟩ := List.mem_filterMap.mp h
  exact parseRecord_form hline

theorem zoneRecords_append (a b : List Text) :
    zoneRecords (a ++ b) = zoneRecords a ++ zoneRecords b := List.filterMap_append

theorem zoneRecords_render {rs : List Record} (h : ∀ r ∈ rs, Printable r) :
    zoneRecords (rs.map render) = rs := by
  rw [zoneRecords, List.filterMap_map]
  induction rs with
  | nil => rfl
  | cons r rs ih =>
    rw [List.forall_mem_cons] at h
    rw [List.filterMap_cons, Function.comp_apply, parse_render h.1, ih h.2]

theorem zoneRecords_filter (name type : Text) (listing : List Text) :
    zoneRecords (listing.filter fun line => !inRrset name type line) =
      (zoneRecords listing).filter fun r => ¬ (r.name = name ∧ r.type = type) := by
  induction listing with
  | nil => rfl
  | cons line rest ih =>
    rw [List.filter_cons]
    cases hparse : parseRecord line with
    | none =>
      have hkeep : inRrset name type line = false := by rw [inRrset, hparse]; rfl
      rw [hkeep, Bool.not_false, if_pos rfl, zoneRecords, zoneRecords,
        List.filterMap_cons, List.filterMap_cons, hparse]
      exact ih
    | some r =>
      have hin : inRrset name type line = decide (r.name = name ∧ r.type = type) := by
        rw [inRrset, hparse, Option.any_some]
      have hcons : zoneRecords (line :: rest) = r :: zoneRecords rest := by
        rw [zoneRecords, List.filterMap_cons, hparse]
        rfl
      rw [hcons, List.filter_cons, hin]
      by_cases hkey : r.name = name ∧ r.type = type
      · rw [decide_eq_true hkey, Bool.not_true, if_neg Bool.false_ne_true, ih]
        simp [hkey]
      · rw [decide_eq_false hkey, Bool.not_false, if_pos rfl, zoneRecords, List.filterMap_cons,
          hparse]
        simp only [hkey, not_false_eq_true, decide_true, if_true]
        exact congrArg (r :: ·) ih

/-- An operation whose NAME pdnsutil reads as planned and whose records print. -/
structure Applicable (style : NameStyle) (zfq : Text) (op : Op) : Prop where
  name : pdnsutilName style zfq op.name = op.fqdn
  printable : ∀ r ∈ opRecords style zfq op, Printable r

variable {style : NameStyle} {zfq : Text} {op : Op} {listing : List Text}

theorem op_record_key {r : Record} (h : Applicable style zfq op)
    (hr : r ∈ opRecords style zfq op) : r.name = op.fqdn ∧ r.type = op.type := by
  unfold opRecords at hr
  split at hr
  · cases hr
  · obtain ⟨c, -, rfl⟩ := List.mem_map.mp hr
    exact ⟨h.name, rfl⟩

theorem zoneRecords_pdnsutil (h : Applicable style zfq op) :
    zoneRecords (pdnsutil style zfq op listing) =
      ((zoneRecords listing).filter fun r => ¬ (r.name = op.fqdn ∧ r.type = op.type)) ++
        opRecords style zfq op := by
  rw [pdnsutil, zoneRecords_append, zoneRecords_filter, zoneRecords_render h.printable, h.name]

theorem rrset_pdnsutil (h : Applicable style zfq op) :
    rrset (zoneRecords (pdnsutil style zfq op listing)) op.fqdn op.type =
      opRecords style zfq op := by
  rw [zoneRecords_pdnsutil h, rrset, List.filter_append, List.filter_filter,
    List.filter_eq_nil_iff.mpr, List.nil_append, List.filter_eq_self.mpr]
  · intro r hr
    exact decide_eq_true (op_record_key h hr)
  · intro r _
    simp

theorem rrset_pdnsutil_of_ne (h : Applicable style zfq op) {name type : Text}
    (hne : ¬ (op.fqdn = name ∧ op.type = type)) :
    rrset (zoneRecords (pdnsutil style zfq op listing)) name type =
      rrset (zoneRecords listing) name type := by
  have hother : rrset (opRecords style zfq op) name type = [] := by
    refine List.filter_eq_nil_iff.mpr fun r hr => ?_
    obtain ⟨hname, htype⟩ := op_record_key h hr
    rw [hname, htype]
    simpa using hne
  rw [rrset] at hother
  rw [zoneRecords_pdnsutil h, rrset, rrset, List.filter_append, List.filter_filter, hother,
    List.append_nil]
  refine List.filter_congr fun r _ => ?_
  by_cases hkey : r.name = name ∧ r.type = type
  · obtain ⟨rfl, rfl⟩ := hkey
    rw [decide_eq_true ⟨rfl, rfl⟩, Bool.true_and]
    exact decide_eq_true fun hsame => hne ⟨hsame.1.symm, hsame.2.symm⟩
  · rw [decide_eq_false hkey, Bool.false_and]

end Provisioner.Powerdns
