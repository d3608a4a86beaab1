import Provisioner.Library.Converge
import Provisioner.Powerdns.Edit

/-!
# The goals behind a plan

For a domain that is written, the plan lists those of a fixed set of goals the
zone does not meet. The goals of a run concern different rrsets, and each
operation meets its own goal.
-/

namespace Provisioner.Powerdns

/-- A character of a bare domain or of an address in canonical form. -/
def PlainChar (c : Char) : Prop :=
  c.isLower = true ∨ c.isDigit = true ∨ c = '-' ∨ c = '.' ∨ c = ':'

instance (c : Char) : Decidable (PlainChar c) := inferInstanceAs (Decidable (_ ∨ _))

def plain (t : Text) : Bool := t.all fun c => PlainChar c

theorem plain_iff {t : Text} : plain t = true ↔ ∀ c ∈ t, PlainChar c := by
  simp [plain]

def NameChar (c : Char) : Prop :=
  33 ≤ c.toNat ∧ c.toNat ≤ 126 ∧ ¬ (65 ≤ c.toNat ∧ c.toNat ≤ 90) ∧ c ≠ '\\'

instance (c : Char) : Decidable (NameChar c) := inferInstanceAs (Decidable (_ ∧ _))

/-- A domain whose lines are read as records, and whose first label pdnsutil
does not take for the apex. -/
structure Legible (d : Text) : Prop where
  chars : ∀ c ∈ d, NameChar c
  start : ∀ c ∈ d.head?, c ≠ '$' ∧ c ≠ ';' ∧ c ≠ '@'

instance (d : Text) : Decidable (Legible d) :=
  decidable_of_iff ((d.all fun c => NameChar c) = true ∧
      (d.head?.all fun c => c ≠ '$' ∧ c ≠ ';' ∧ c ≠ '@') = true) (by
    simp only [List.all_eq_true, Option.all_eq_true, decide_eq_true_eq]
    exact ⟨fun h => ⟨h.1, h.2⟩, fun h => ⟨h.1, h.2⟩⟩)

/-- The form preflight asserts of the domain and the addresses of one node. -/
structure HostForm (site : Site) (h : Text) : Prop where
  domain_form : Legible (domain site h)
  ip_form : (site.hostvars h).publicIp ≠ [] ∧ ∀ c ∈ (site.hostvars h).publicIp, PlainChar c
  ipv6_form : ∀ c ∈ (site.hostvars h).publicIpv6, PlainChar c

/-- The names of two domains do not meet: there is one domain, or both are bare. -/
def Apart (d d' : Text) : Prop := d = d' ∨ (∀ c ∈ d, PlainChar c) ∧ ∀ c ∈ d', PlainChar c

/-- Names and addresses in the form preflight asserts. All nodes answer on the
zone itself, or the domains are bare. -/
structure WellFormed (site : Site) : Prop where
  run_known : ∀ h ∈ site.recordsNodes, h ∈ site.inventoryNodes
  host_form : ∀ h ∈ site.inventoryNodes, h ≠ [] ∧ '"' ∉ h
  form : ∀ h ∈ site.inventoryNodes, HostForm site h
  apart : ∀ h ∈ site.inventoryNodes, ∀ h' ∈ site.inventoryNodes,
    Apart (domain site h) (domain site h')

/-- An inventory of that form whose node names differ in more than case. -/
structure Inventory extends Site where
  wellFormed : WellFormed toSite
  distinct : (inventoryNodes.map Text.lower).Nodup

theorem Inventory.host (inv : Inventory) {h : Text} (hh : h ∈ inv.inventoryNodes) :
    HostForm inv.toSite h := inv.wellFormed.form h hh

/-- A run over nodes of an inventory that preflight let through. -/
structure Admitted (site : Site) : Prop extends WellFormed site where
  inZone : ∀ h ∈ site.inventoryNodes, inZone site (domain site h) = true

instance (site : Site) (h : Text) : Decidable (HostForm site h) :=
  decidable_of_iff
    (Legible (domain site h) ∧
      ((site.hostvars h).publicIp ≠ [] ∧ plain (site.hostvars h).publicIp = true) ∧
      plain (site.hostvars h).publicIpv6 = true) (by
    simp only [plain_iff]
    exact ⟨fun h => ⟨h.1, h.2.1, h.2.2⟩, fun h => ⟨h.1, h.2, h.3⟩⟩)

instance (d d' : Text) : Decidable (Apart d d') :=
  decidable_of_iff (d = d' ∨ plain d = true ∧ plain d' = true) (by
    simp only [plain_iff]
    exact Iff.rfl)

instance (site : Site) : Decidable (WellFormed site) :=
  decidable_of_iff
    ((∀ h ∈ site.recordsNodes, h ∈ site.inventoryNodes) ∧
      (∀ h ∈ site.inventoryNodes, h ≠ [] ∧ '"' ∉ h) ∧
      (∀ h ∈ site.inventoryNodes, HostForm site h) ∧
      ∀ h ∈ site.inventoryNodes, ∀ h' ∈ site.inventoryNodes,
        Apart (domain site h) (domain site h'))
    ⟨fun h => ⟨h.1, h.2.1, h.2.2.1, h.2.2.2⟩, fun h => ⟨h.1, h.2, h.3, h.4⟩⟩

instance (site : Site) : Decidable (Admitted site) :=
  decidable_of_iff
    (WellFormed site ∧ ∀ h ∈ site.inventoryNodes, Powerdns.inZone site (domain site h) = true)
    ⟨fun h => ⟨h.1, h.2⟩, fun h => ⟨h.1, h.2⟩⟩

def Admitted.inventory {site : Site} (h : Admitted site)
    (hdistinct : (site.inventoryNodes.map Text.lower).Nodup) : Inventory where
  toSite := site
  wellFormed := h.toWellFormed
  distinct := hdistinct

/-- Some node of the inventory answers on `d`. -/
def Answered (site : Site) (d : Text) : Prop := ∃ h ∈ site.inventoryNodes, domain site h = d

theorem WellFormed.legible {site : Site} (hform : WellFormed site) {d : Text}
    (hd : Answered site d) : Legible d := by
  obtain ⟨h, hh, rfl⟩ := hd
  exact (hform.form h hh).domain_form

theorem WellFormed.domains_apart {site : Site} (hform : WellFormed site) {d d' : Text}
    (hd : Answered site d) (hd' : Answered site d') : Apart d d' := by
  obtain ⟨h, hh, rfl⟩ := hd
  obtain ⟨h', hh', rfl⟩ := hd'
  exact hform.apart h hh h' hh'

theorem plain_toNat {c : Char} (h : PlainChar c) :
    45 ≤ c.toNat ∧ c.toNat ≤ 58 ∨ 97 ≤ c.toNat ∧ c.toNat ≤ 122 := by
  rcases h with h | h | rfl | rfl | rfl
  · right
    change (decide (c.val ≥ 'a'.val) && decide (c.val ≤ 'z'.val)) = true at h
    rw [Bool.and_eq_true, decide_eq_true_eq, decide_eq_true_eq] at h
    exact h
  · have := Char.isDigit_iff_toNat.mp h
    left
    exact ⟨le_trans (by decide) this.1, le_trans this.2 (by decide)⟩
  all_goals decide

theorem plain_name {c : Char} (h : PlainChar c) : NameChar c := by
  have hnat := plain_toNat h
  refine ⟨by omega, by omega, by omega, ?_⟩
  rintro rfl
  revert hnat
  decide

theorem name_not_space {c : Char} (h : NameChar c) : Text.isSpace c = false :=
  Text.isSpace_eq_false ⟨h.1, h.2.1⟩

theorem lower_name {t : Text} (h : ∀ c ∈ t, NameChar c) : Text.lower t = t := by
  refine Text.lower_eq_self fun c hc => ?_
  obtain ⟨-, hhigh, hupper, -⟩ := h c hc
  exact ⟨by omega, hupper⟩

theorem not_start {t : Text} {c : Char} (h : ∀ b ∈ t.head?, b ≠ c) :
    Text.startswith t [c] = false := by
  cases t with
  | nil => rfl
  | cons b t =>
    rw [Text.startswith, List.isPrefixOf_cons_cons, beq_eq_false_iff_ne.mpr (h b rfl).symm,
      Bool.false_and]

theorem plain_word {t : Text} (hne : t ≠ []) (h : ∀ c ∈ t, PlainChar c) : Text.IsWord t :=
  ⟨hne, fun c hc => name_not_space (plain_name (h c hc))⟩

theorem lower_plain {t : Text} (h : ∀ c ∈ t, PlainChar c) : Text.lower t = t :=
  lower_name fun c hc => plain_name (h c hc)

section Names

variable {d d' : Text}

theorem dot_eq : ("." : Text) = ['.'] := by decide

theorem wild_eq (d : Text) : wild d = '*' :: '.' :: apex d :=
  congrArg (· ++ apex d) (show ("*." : Text) = ['*', '.'] by decide)

theorem mark_eq (d : Text) : mark d = '_' :: (['c', 's', '-', 'l', 'b', '.'] ++ apex d) :=
  congrArg (· ++ apex d) (show ("_cs-lb." : Text) = ['_', 'c', 's', '-', 'l', 'b', '.'] by decide)

theorem apex_plain (h : ∀ c ∈ d, PlainChar c) : ∀ c ∈ apex d, PlainChar c := by
  intro c hc
  rcases List.mem_append.mp hc with hc | hc
  · exact h c hc
  · rw [dot_eq, List.mem_singleton] at hc
    exact .inr (.inr (.inr (.inl hc)))

structure Shown (t : Text) : Prop where
  chars : ∀ c ∈ t, NameChar c
  start : ∀ c ∈ t.head?, c ≠ '$' ∧ c ≠ ';'
  absolute : Text.endswith t "." = true

theorem endswith_append (t tail : Text) : Text.endswith (t ++ tail) tail = true :=
  List.isSuffixOf_iff_suffix.mpr (List.suffix_append _ _)

theorem endswith_of_suffix {t : Text} (h : apex d <:+ t) : Text.endswith t "." = true :=
  List.isSuffixOf_iff_suffix.mpr ((List.suffix_append d _).trans h)

theorem apex_shown (h : Legible d) : Shown (apex d) := by
  refine ⟨fun c hc => ?_, fun c hc => ?_, endswith_append d "."⟩
  · rcases List.mem_append.mp hc with hc | hc
    · exact h.chars c hc
    · rw [dot_eq, List.mem_singleton] at hc
      rw [hc]
      decide
  · rw [apex, List.head?_append] at hc
    cases hhead : d.head? with
    | none =>
      rw [hhead] at hc
      cases hc
      decide
    | some b =>
      rw [hhead] at hc
      cases hc
      have hstart := h.start _ hhead
      exact ⟨hstart.1, hstart.2.1⟩

theorem wild_shown (h : Legible d) : Shown (wild d) := by
  refine ⟨?_, ?_, endswith_of_suffix (List.suffix_append _ _)⟩
  · rw [wild_eq]
    simp only [List.forall_mem_cons]
    exact ⟨by decide, by decide, (apex_shown h).chars⟩
  · rw [wild_eq]
    rintro c ⟨⟩
    decide

theorem mark_shown (h : Legible d) : Shown (mark d) := by
  refine ⟨?_, ?_, endswith_of_suffix (List.suffix_append _ _)⟩
  · rw [mark_eq]
    simp only [List.forall_mem_cons, List.cons_append, List.nil_append]
    exact ⟨by decide, by decide, by decide, by decide, by decide, by decide, by decide,
      (apex_shown h).chars⟩
  · rw [mark_eq]
    rintro c ⟨⟩
    decide

theorem apex_inj : apex d = apex d' ↔ d = d' := List.append_left_inj _

theorem wild_inj : wild d = wild d' ↔ d = d' := by
  rw [wild_eq, wild_eq, List.cons_inj_right, List.cons_inj_right, apex_inj]

theorem mark_inj : mark d = mark d' ↔ d = d' := by
  rw [mark_eq, mark_eq, List.cons_inj_right, List.append_right_inj, apex_inj]

theorem apex_ne_wild (h : Apart d d') : apex d ≠ wild d' := by
  intro heq
  rcases h with rfl | ⟨h, -⟩
  · have hlength := congrArg List.length heq
    rw [wild_eq, List.length_cons, List.length_cons] at hlength
    omega
  have hstar : '*' ∈ apex d := by
    rw [heq, wild_eq]
    exact List.mem_cons_self
  have hnat := plain_toNat (apex_plain h _ hstar)
  revert hnat
  decide

theorem apex_ne_mark (h : Apart d d') : apex d ≠ mark d' := by
  intro heq
  rcases h with rfl | ⟨h, -⟩
  · have hlength := congrArg List.length heq
    rw [mark_eq, List.length_cons, List.length_append] at hlength
    omega
  have hline : '_' ∈ apex d := by
    rw [heq, mark_eq]
    exact List.mem_cons_self
  have hnat := plain_toNat (apex_plain h _ hline)
  revert hnat
  decide

theorem wild_ne_mark : wild d ≠ mark d' := by
  rw [wild_eq, mark_eq]
  intro heq
  exact absurd (List.cons.inj heq).1 (by decide)

/-- The apex A, AAAA and CNAME, the wildcard and the marker of `d`. -/
def OwnName (d name type : Text) : Prop :=
  name = apex d ∧ (type = ("A" : Text) ∨ type = ("AAAA" : Text) ∨ type = ("CNAME" : Text)) ∨
    name = wild d ∨ name = mark d

theorem Apart.symm (h : Apart d d') : Apart d' d := h.imp Eq.symm And.symm

theorem own_name_inj {name type type' : Text} (hapart : Apart d d') (h : OwnName d name type)
    (h' : OwnName d' name type') : d = d' := by
  rcases h with ⟨rfl, -⟩ | rfl | rfl <;> rcases h' with ⟨h, -⟩ | h | h
  · exact apex_inj.mp h
  · exact absurd h (apex_ne_wild hapart)
  · exact absurd h (apex_ne_mark hapart)
  · exact absurd h.symm (apex_ne_wild hapart.symm)
  · exact wild_inj.mp h
  · exact absurd h wild_ne_mark
  · exact absurd h.symm (apex_ne_mark hapart.symm)
  · exact absurd h.symm wild_ne_mark
  · exact mark_inj.mp h

theorem printable_name {t : Text} (h : Shown t) :
    Text.IsWord t ∧ Text.lower t = t ∧ Text.endswith t "." = true ∧
      Text.startswith t "$" = false ∧ Text.startswith t ";" = false := by
  refine ⟨⟨?_, fun c hc => name_not_space (h.chars c hc)⟩, lower_name h.chars, h.absolute, ?_, ?_⟩
  · rintro rfl
    have hdot := h.absolute
    revert hdot
    decide
  · rw [show ("$" : Text) = ['$'] by decide]
    exact not_start fun b hb => (h.start b hb).1
  · rw [show (";" : Text) = [';'] by decide]
    exact not_start fun b hb => (h.start b hb).2

end Names

section Contents

theorem parseContent_word {type t : Text} (htype : type ≠ "CNAME")
    (htrim : Text.IsTrimmed t) (hlower : type = "AAAA" → Text.lower t = t) :
    parseContent type t = t := by
  rw [parseContent, Text.strip_eq_self htrim]
  by_cases hsix : type = "AAAA"
  · rw [if_pos hsix, hlower hsix]
  · rw [if_neg hsix, if_neg htype]

theorem parseContent_cname {t : Text} (htrim : Text.IsTrimmed t) (hlower : Text.lower t = t)
    (hdot : Text.endswith t "." = true) : parseContent "CNAME" t = t := by
  rw [parseContent, Text.strip_eq_self htrim, if_neg (by decide), if_pos rfl, hlower,
    dotted_eq_self hdot]

theorem ownerMark_trimmed (h : Text) : Text.IsTrimmed (ownerMark h) := by
  refine ⟨⟨'"', rfl, by decide⟩, '"', ?_, by decide⟩
  rw [ownerMark, List.getLast?_concat]
  rfl

end Contents

section Owners

variable {inv : Inventory} {s : Seen} {d h : Text}

theorem host_inj {a b : Text} (ha : a ∈ inv.inventoryNodes) (hb : b ∈ inv.inventoryNodes)
    (hab : Text.lower a = Text.lower b) : a = b :=
  List.inj_on_of_nodup_map inv.distinct ha hb hab

theorem mem_nodes {site : Site} (hh : h ∈ nodes site) : h ∈ site.recordsNodes := by
  rw [nodes, sort, Jinja.mem_sort] at hh
  exact Jinja.mem_of_mem_unique hh

theorem nodes_sorted (site : Site) :
    (nodes site).Pairwise fun a b => Text.lower a < Text.lower b :=
  Jinja.pairwise_sort_unique _

theorem mem_runOwners {site : Site} :
    h ∈ runOwners site d ↔ h ∈ nodes site ∧ domain site h = d := by
  simp [runOwners]

theorem mem_kept {site : Site} (hh : h ∈ kept site s d) :
    h ∈ site.inventoryNodes ∧ h ∈ mOwners s ∧ h ∉ nodes site ∧ domain site h = d := by
  unfold kept at hh
  split at hh
  · rename_i hours
    obtain ⟨hmem, hout⟩ := List.mem_filter.mp hh
    exact ⟨mUnknown_eq_nil.mp hours.2.2 h hmem, hmem, by simpa using hout⟩
  · cases hh

theorem wanted_known {site : Site} (hknown : ∀ h ∈ site.recordsNodes, h ∈ site.inventoryNodes)
    (hh : h ∈ wanted site s d) : h ∈ site.inventoryNodes ∧ domain site h = d := by
  rcases List.mem_append.mp hh with hrun | hkept
  · obtain ⟨hnode, hdomain⟩ := mem_runOwners.mp hrun
    exact ⟨hknown h (mem_nodes hnode), hdomain⟩
  · obtain ⟨hnode, -, -, hdomain⟩ := mem_kept hkept
    exact ⟨hnode, hdomain⟩

theorem mem_wanted {site : Site} (hform : WellFormed site) (hh : h ∈ wanted site s d) :
    h ∈ site.inventoryNodes ∧ domain site h = d := wanted_known hform.run_known hh

theorem wanted_form {site : Site} (hform : WellFormed site) (hh : h ∈ wanted site s d) :
    HostForm site h := hform.form h (mem_wanted hform hh).1

theorem kept_sorted (site : Site) (s : Seen) (d : Text) :
    (kept site s d).Pairwise fun a b => Text.lower a < Text.lower b := by
  unfold kept
  split
  · refine List.Pairwise.filter _ ?_
    unfold mOwners
    split
    · exact Jinja.pairwise_sort_unique _
    · exact .nil
  · exact .nil

theorem nodup_of_sorted {l : List Text} (h : l.Pairwise fun a b => Text.lower a < Text.lower b) :
    l.Nodup := by
  refine h.imp fun {a b} hlt heq => ?_
  subst heq
  exact lt_irrefl (Text.lower a) hlt

theorem wanted_nodup (site : Site) (s : Seen) (d : Text) : (wanted site s d).Nodup := by
  refine List.Nodup.append ((nodup_of_sorted (nodes_sorted site)).filter _)
    (nodup_of_sorted (kept_sorted site s d)) ?_
  intro h hrun hkept
  exact (mem_kept hkept).2.2.1 (mem_runOwners.mp hrun).1

theorem mem_runDomains {site : Site} :
    d ∈ runDomains site ↔ ∃ h ∈ nodes site, domain site h = d := by
  rw [runDomains, sort, Jinja.mem_sort, unique, Jinja.mem_unique_of_inj, List.mem_map]
  intro a ha b hb hab
  obtain ⟨h, -, rfl⟩ := List.mem_map.mp ha
  obtain ⟨h', -, rfl⟩ := List.mem_map.mp hb
  rwa [domain, domain, Text.lower_lower, Text.lower_lower] at hab

theorem answered_run {site : Site} (hform : WellFormed site) (hd : d ∈ runDomains site) :
    Answered site d := by
  obtain ⟨h, hh, hdomain⟩ := mem_runDomains.mp hd
  exact ⟨h, hform.run_known h (mem_nodes hh), hdomain⟩

theorem wanted_ne_nil {site : Site} (hd : d ∈ runDomains site) : wanted site s d ≠ [] := by
  obtain ⟨h, hh, rfl⟩ := mem_runDomains.mp hd
  exact List.ne_nil_of_mem (List.mem_append_left _ (mem_runOwners.mpr ⟨hh, rfl⟩))

theorem unique_plain {l : List Text} (hl : ∀ t ∈ l, ∀ c ∈ t, PlainChar c) {t : Text} :
    t ∈ sort (unique l) ↔ t ∈ l := by
  rw [sort, Jinja.mem_sort, unique, Jinja.mem_unique_of_inj]
  intro a ha b hb hab
  rwa [lower_plain (hl a ha), lower_plain (hl b hb)] at hab

theorem mem_ips {site : Site} {owners : List Text} (howners : ∀ h ∈ owners, HostForm site h)
    {ip : Text} : ip ∈ ips site owners ↔ ∃ h ∈ owners, (site.hostvars h).publicIp = ip := by
  rw [ips, unique_plain, List.mem_map]
  intro t ht
  obtain ⟨h, hh, rfl⟩ := List.mem_map.mp ht
  exact (howners h hh).ip_form.2

theorem mem_ips6 {site : Site} {owners : List Text} (howners : ∀ h ∈ owners, HostForm site h)
    {ip : Text} : ip ∈ ips6 site owners ↔
      ip ≠ [] ∧ ∃ h ∈ owners, (site.hostvars h).publicIpv6 = ip := by
  have hlower : ∀ h ∈ owners,
      Text.lower (site.hostvars h).publicIpv6 = (site.hostvars h).publicIpv6 :=
    fun h hh => lower_plain (howners h hh).ipv6_form
  rw [ips6, unique_plain, List.mem_filterMap]
  · constructor
    · rintro ⟨h, hh, hip⟩
      split at hip
      · cases hip
      · rename_i hne
        rw [hlower h hh] at hip
        cases hip
        exact ⟨fun hnil => hne (by rw [hnil]; rfl), h, hh, rfl⟩
    · rintro ⟨hne, h, hh, rfl⟩
      refine ⟨h, hh, ?_⟩
      rw [if_neg (fun hempty => hne (List.isEmpty_iff.mp hempty)), hlower h hh]
  · intro t ht
    obtain ⟨h, hh, hip⟩ := List.mem_filterMap.mp ht
    split at hip
    · cases hip
    · rw [hlower h hh] at hip
      cases hip
      exact (howners h hh).ipv6_form

end Owners

/-- What a domain with this marker is to be brought to. -/
def goals (site : Site) (s : Seen) (d : Text) : List Op :=
  let owners := wanted site s d
  [delete (argApex site d) (apex d) "CNAME"] ++
  [replace site (argApex site d) (apex d) "A" (ips site owners)] ++
  (if (ips6 site owners).isEmpty then []
    else [replace site (argApex site d) (apex d) "AAAA" (ips6 site owners)]) ++
  ((sortTypes (types s.wildOther)).map fun t => delete (argWild site d) (wild d) t) ++
  [replace site (argWild site d) (wild d) "CNAME" [apex d]] ++
  [replace site (argMark site d) (mark d) "TXT" (wantMark owners)]

def met (site : Site) (op : Op) (listing : List Text) : Bool :=
  let rs := rrset (zoneRecords listing) op.fqdn op.type
  match op.op with
  | .delete => rs.isEmpty
  | .replace => exact site rs op.contents

def key (op : Op) : Text × Text := (op.fqdn, op.type)

section Goals

variable {site : Site} {s : Seen} {d : Text} {g : Op}

theorem mem_goals : g ∈ goals site s d ↔
    g = delete (argApex site d) (apex d) "CNAME" ∨
    g = replace site (argApex site d) (apex d) "A" (ips site (wanted site s d)) ∨
    ips6 site (wanted site s d) ≠ [] ∧
      g = replace site (argApex site d) (apex d) "AAAA" (ips6 site (wanted site s d)) ∨
    (∃ t ∈ types s.wildOther, g = delete (argWild site d) (wild d) t) ∨
    g = replace site (argWild site d) (wild d) "CNAME" [apex d] ∨
    g = replace site (argMark site d) (mark d) "TXT" (wantMark (wanted site s d)) := by
  have hsix : ∀ x : Op, g ∈ (if (ips6 site (wanted site s d)).isEmpty then [] else [x]) ↔
      ips6 site (wanted site s d) ≠ [] ∧ g = x := by
    intro x
    by_cases h : ips6 site (wanted site s d) = []
    · simp [h]
    · simp [h]
  have hmap : g ∈ ((sortTypes (types s.wildOther)).map fun t =>
      delete (argWild site d) (wild d) t) ↔
      ∃ t ∈ types s.wildOther, g = delete (argWild site d) (wild d) t := by
    simp only [List.mem_map, sortTypes, Jinja.mem_sort]
    exact exists_congr fun t => and_congr_right fun _ => eq_comm
  simp only [goals, List.mem_append, hsix, hmap, List.mem_cons, List.not_mem_nil, or_false,
    or_assoc]

theorem mem_types {l : List Record} (hl : ∀ r ∈ l, ∃ t, r.type = Text.upper t) {t : Text} :
    t ∈ types l ↔ ∃ r ∈ l, r.type = t := by
  rw [types, Jinja.mem_unique_of_inj, List.mem_map]
  intro a ha b hb hab
  obtain ⟨r, hr, rfl⟩ := List.mem_map.mp ha
  obtain ⟨r', hr', rfl⟩ := List.mem_map.mp hb
  obtain ⟨t, ht⟩ := hl r hr
  obtain ⟨t', ht'⟩ := hl r' hr'
  rw [ht, ht'] at hab ⊢
  exact Text.upper_inj_of_lowerAscii hab

theorem mem_wild_types {listing : List Text} {t : Text} :
    t ∈ types (seen (zoneRecords listing) d).wildOther ↔
      t ≠ ("CNAME" : Text) ∧ rrset (zoneRecords listing) (wild d) t ≠ [] := by
  show t ∈ types (others (zoneRecords listing) (wild d) "CNAME") ↔ _
  rw [mem_types fun r hr => (zone_record_form (mem_others.mp hr).1).2.2]
  constructor
  · rintro ⟨r, hr, rfl⟩
    obtain ⟨hmem, hname, htype⟩ := mem_others.mp hr
    exact ⟨htype, List.ne_nil_of_mem (mem_rrset.mpr ⟨hmem, hname, rfl⟩)⟩
  · rintro ⟨htype, hne⟩
    obtain ⟨r, hr⟩ := List.exists_mem_of_ne_nil _ hne
    obtain ⟨hmem, hname, rfl⟩ := mem_rrset.mp hr
    exact ⟨r, mem_others.mpr ⟨hmem, hname, htype⟩, rfl⟩

theorem goal_own_name (hg : g ∈ goals site s d) : OwnName d g.fqdn g.type := by
  rcases mem_goals.mp hg with rfl | rfl | ⟨-, rfl⟩ | ⟨t, -, rfl⟩ | rfl | rfl
  · exact .inl ⟨rfl, .inr (.inr rfl)⟩
  · exact .inl ⟨rfl, .inl rfl⟩
  · exact .inl ⟨rfl, .inr (.inl rfl)⟩
  · exact .inr (.inl rfl)
  · exact .inr (.inl rfl)
  · exact .inr (.inr rfl)

theorem nodup_keys {a w m cname ip ip6 txt : Text} {ts : List Text} (haw : a ≠ w) (ham : a ≠ m)
    (hwm : w ≠ m) (hip : cname ≠ ip) (hip6 : cname ≠ ip6) (hips : ip ≠ ip6) (hts : ts.Nodup)
    (hcname : cname ∉ ts) {six : List (Text × Text)} (hsix : six = [] ∨ six = [(a, ip6)]) :
    ([(a, cname)] ++ [(a, ip)] ++ six ++ ts.map (fun t => (w, t)) ++ [(w, cname)] ++
      [(m, txt)]).Nodup := by
  have hmap : (ts.map fun t => (w, t)).Nodup := hts.map fun _ _ h => (Prod.mk.inj h).2
  have hne : ∀ t ∈ ts, t ≠ cname := fun t ht heq => hcname (heq ▸ ht)
  rcases hsix with rfl | rfl
  · simpa [List.nodup_append, hmap, haw, haw.symm, ham, hwm, hip] using hne
  · simpa [List.nodup_append, hmap, haw, haw.symm, ham, hwm, hip, hip6, hips] using hne

theorem goals_keys_nodup (site : Site) (listing : List Text) (d : Text) :
    ((goals site (seen (zoneRecords listing) d) d).map key).Nodup := by
  have htypes : (sortTypes (types (seen (zoneRecords listing) d).wildOther)).Nodup :=
    (Jinja.sort_perm _).nodup_iff.mpr (List.Nodup.of_map _ (Jinja.nodup_unique _))
  have hcname : ("CNAME" : Text) ∉ sortTypes (types (seen (zoneRecords listing) d).wildOther) :=
    fun h => (mem_wild_types.mp (Jinja.mem_sort.mp h)).1 rfl
  simp only [goals, List.map_append, List.map_cons, List.map_nil, List.map_map]
  have hip : ("CNAME" : Text) ≠ "A" := by decide
  have hip6 : ("CNAME" : Text) ≠ "AAAA" := by decide
  have hips : ("A" : Text) ≠ "AAAA" := by decide
  refine nodup_keys (apex_ne_wild (.inl rfl)) (apex_ne_mark (.inl rfl)) wild_ne_mark hip hip6 hips
    htypes hcname ?_
  split
  · exact .inl rfl
  · exact .inr rfl

theorem base_spec (hzone : inZone site d = true) (hne : apex d ≠ zfq site) :
    base site d ++ "." ++ zfq site = apex d := by
  rw [inZone, Bool.or_eq_true, decide_eq_true_iff, or_iff_right hne, Text.endswith,
    List.isSuffixOf_iff_suffix] at hzone
  obtain ⟨b, hb⟩ := hzone
  have hlen : (apex d).length - (zfq site).length - 1 = b.length := by
    rw [← hb, dot_eq]
    simp only [List.length_append, List.length_singleton]
    omega
  rw [base, if_neg hne, hlen, ← hb, List.take_left, List.append_assoc]

theorem pdnsutil_apex (hlegible : Legible d) (hzone : inZone site d = true) :
    pdnsutilName site.nameStyle (zfq site) (argApex site d) = apex d := by
  unfold argApex
  cases site.nameStyle with
  | absolute => rfl
  | relative =>
    by_cases hapex : apex d = zfq site
    · simp only [pdnsutilName, if_pos hapex, if_true]
      exact hapex.symm
    · have hbase := base_spec hzone hapex
      have hat : base site d ≠ ("@" : Text) := by
        intro heq
        rw [heq, show ("@" : Text) = ['@'] by decide] at hbase
        cases d with
        | nil => exact absurd (show '@' = '.' from (List.cons.inj hbase).1) (by decide)
        | cons c d =>
          have hhead : '@' = c := (List.cons.inj hbase).1
          exact (hlegible.start c rfl).2.2 hhead.symm
      simp only [pdnsutilName, if_neg hapex, if_neg hat]
      exact hbase

theorem pdnsutil_label {label : Text} (hlabel : ∃ c ∈ label.head?, c ≠ '@')
    (hzone : inZone site d = true) :
    pdnsutilName site.nameStyle (zfq site) (argLabel site label d) =
      label ++ "." ++ apex d := by
  have hat : ∀ rest : Text, label ++ rest ≠ ("@" : Text) := by
    obtain ⟨c, hc, hne⟩ := hlabel
    cases label with
    | nil => cases hc
    | cons b label =>
      cases hc
      intro rest heq
      rw [show ("@" : Text) = ['@'] by decide] at heq
      exact hne (List.cons.inj heq).1
  unfold argLabel
  cases site.nameStyle with
  | absolute => rfl
  | relative =>
    by_cases hapex : apex d = zfq site
    · have hlone := hat []
      rw [List.append_nil] at hlone
      simp only [pdnsutilName, if_pos hapex, if_neg hlone]
      rw [hapex]
    · have hrest := hat ("." ++ base site d)
      rw [← List.append_assoc] at hrest
      simp only [pdnsutilName, if_neg hapex, if_neg hrest]
      rw [← base_spec hzone hapex]
      simp only [List.append_assoc]

theorem pdnsutil_wild (hzone : inZone site d = true) :
    pdnsutilName site.nameStyle (zfq site) (argWild site d) = wild d := by
  have hhead : ∃ c ∈ ("*" : Text).head?, c ≠ '@' := ⟨'*', by decide, by decide⟩
  have hdot : ("*" : Text) ++ "." = "*." := by decide
  exact (pdnsutil_label hhead hzone).trans (congrArg (fun label : Text => label ++ apex d) hdot)

theorem pdnsutil_mark (hzone : inZone site d = true) :
    pdnsutilName site.nameStyle (zfq site) (argMark site d) = mark d := by
  have hhead : ∃ c ∈ ("_cs-lb" : Text).head?, c ≠ '@' := ⟨'_', by decide, by decide⟩
  have hdot : ("_cs-lb" : Text) ++ "." = "_cs-lb." := by decide
  exact (pdnsutil_label hhead hzone).trans (congrArg (fun label : Text => label ++ apex d) hdot)

theorem delete_applicable {style : NameStyle} {zfq name fqdn type : Text}
    (hname : pdnsutilName style zfq name = fqdn) :
    Applicable style zfq (delete name fqdn type) :=
  ⟨hname, fun _ hr => by cases hr⟩

theorem replace_applicable {style : NameStyle} {zfq name fqdn type : Text}
    {cs : List Text} (hname : pdnsutilName style zfq name = fqdn)
    (hfqdn : Shown fqdn)
    (htype : Text.IsWord type ∧ Text.upper type = type)
    (hcs : ∀ c ∈ cs, Text.IsTrimmed c ∧ parseContent type c = c) :
    Applicable style zfq (replace site name fqdn type cs) := by
  refine ⟨hname, fun r hr => ?_⟩
  obtain ⟨c, hc, rfl⟩ := List.mem_map.mp hr
  obtain ⟨hword, hlower, habsolute, hstart⟩ := printable_name hfqdn
  obtain ⟨htrim, hparsed⟩ := hcs c hc
  rw [show (replace site name fqdn type cs).name = name from rfl, hname]
  exact ⟨hword, hlower, habsolute, hstart, htype, htrim, hparsed⟩

theorem goal_applicable (hlegible : Legible d)
    (howners : ∀ h ∈ wanted site s d, HostForm site h) (hzone : inZone site d = true)
    (hg : g ∈ goals site s d) : Applicable site.nameStyle (zfq site) g := by
  have hcname6 : ("AAAA" : Text) ≠ "CNAME" := by decide
  have ha6 : ("A" : Text) ≠ "AAAA" := by decide
  have htxt6 : ("TXT" : Text) ≠ "AAAA" := by decide
  rcases mem_goals.mp hg with rfl | rfl | ⟨hsix, rfl⟩ | ⟨t, -, rfl⟩ | rfl | rfl
  · exact delete_applicable (pdnsutil_apex hlegible hzone)
  · refine replace_applicable (pdnsutil_apex hlegible hzone) (apex_shown hlegible)
      ⟨by decide, by decide⟩ fun ip hip => ?_
    obtain ⟨h, hh, rfl⟩ := (mem_ips howners).mp hip
    obtain ⟨hne, hform⟩ := (howners h hh).ip_form
    have htrim := (plain_word hne hform).trimmed
    exact ⟨htrim, parseContent_word (by decide) htrim fun h => absurd h ha6⟩
  · refine replace_applicable (pdnsutil_apex hlegible hzone) (apex_shown hlegible)
      ⟨by decide, by decide⟩ fun ip hip => ?_
    obtain ⟨hne, h, hh, rfl⟩ := (mem_ips6 howners).mp hip
    have hform := (howners h hh).ipv6_form
    have htrim := (plain_word hne hform).trimmed
    exact ⟨htrim, parseContent_word hcname6 htrim fun _ => lower_plain hform⟩
  · exact delete_applicable (pdnsutil_wild hzone)
  · refine replace_applicable (pdnsutil_wild hzone) (wild_shown hlegible)
      ⟨by decide, by decide⟩ fun c hc => ?_
    obtain rfl := List.mem_singleton.mp hc
    have htrim := (printable_name (apex_shown hlegible)).1.trimmed
    exact ⟨htrim, parseContent_cname htrim (lower_name (apex_shown hlegible).chars)
      (apex_shown hlegible).absolute⟩
  · refine replace_applicable (pdnsutil_mark hzone) (mark_shown hlegible)
      ⟨by decide, by decide⟩ fun c hc => ?_
    obtain ⟨h, -, rfl⟩ := List.mem_map.mp (Jinja.mem_sort.mp hc)
    exact ⟨ownerMark_trimmed h, parseContent_word (by decide) (ownerMark_trimmed h)
      fun h => absurd h htxt6⟩

end Goals

end Provisioner.Powerdns
