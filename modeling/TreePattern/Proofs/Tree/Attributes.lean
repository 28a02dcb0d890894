import Mathlib.Data.Finset.Card
import Mathlib.Data.List.Dedup
import Mathlib.Data.List.Forall2
import Mathlib.Data.List.Induction
import Mathlib.Data.List.Perm.Subperm
import TreePattern.Tree.Node

/-! Attributes that are set in turn, and attributes compared by name. A name keeps the place of its
first occurrence and the value of its last one. -/

namespace TreePattern.Node

variable {α : Type}

/-- The last value of each name, in the order in which the names first occur. -/
def lastValues (as : List (String × α)) : List (String × α) :=
  (as.map (·.1)).eraseDups.filterMap fun a => (as.reverse.lookup a).map (a, ·)

theorem setIn_of_not_mem {a : String} (v : α) {l : List (String × α)} (h : a ∉ l.map (·.1)) :
    setIn a v l = l ++ [(a, v)] := by
  induction l with
  | nil => rfl
  | cons b l ih =>
      simp only [List.map_cons, List.mem_cons, not_or] at h
      rw [setIn, if_neg (Ne.symm h.1), ih h.2, List.cons_append]

theorem setIn_filterMap {a : String} (v : α) {f : String → Option α} {names : List String}
    (hnodup : names.Nodup) (hf : ∀ b ∈ names, (f b).isSome) (ha : a ∈ names) :
    setIn a v (names.filterMap fun b => (f b).map (b, ·)) =
      names.filterMap fun b => if b = a then some (a, v) else (f b).map (b, ·) := by
  induction names with
  | nil => cases ha
  | cons b names ih =>
      obtain ⟨w, hw⟩ := Option.isSome_iff_exists.mp (hf b List.mem_cons_self)
      obtain ⟨hb, hnodup'⟩ := List.nodup_cons.mp hnodup
      by_cases hba : b = a
      · subst hba
        have hne : ∀ c ∈ names, ¬ c = b := fun c hc heq => hb (heq ▸ hc)
        simp only [List.filterMap_cons, hw, Option.map_some, setIn, if_true]
        exact congrArg _ (List.filterMap_congr fun c hc => by rw [if_neg (hne c hc)])
      · have ha' := List.mem_of_ne_of_mem (Ne.symm hba) ha
        simp only [List.filterMap_cons, hw, Option.map_some, setIn, if_neg hba]
        rw [ih hnodup' (fun c hc => hf c (List.mem_cons_of_mem b hc)) ha']

theorem eraseDups_concat_of_mem {names : List String} {a : String} (ha : a ∈ names) :
    (names ++ [a]).eraseDups = names.eraseDups := by
  simp [List.eraseDups_append, List.removeAll, ha]

theorem eraseDups_concat_of_not_mem {names : List String} {a : String} (ha : a ∉ names) :
    (names ++ [a]).eraseDups = names.eraseDups ++ [a] := by
  simp [List.eraseDups_append, List.removeAll, ha, List.eraseDups_cons]

theorem nodup_eraseDups (names : List String) : names.eraseDups.Nodup := by
  induction names using List.reverseRecOn with
  | nil => simp
  | append_singleton names a ih =>
      by_cases ha : a ∈ names
      · rwa [eraseDups_concat_of_mem ha]
      · rw [eraseDups_concat_of_not_mem ha, ← List.concat_eq_append]
        exact ih.concat fun h => ha (List.mem_eraseDups.mp h)

theorem length_eraseDups (names : List String) :
    names.eraseDups.length = names.toFinset.card := by
  have hfinset : names.eraseDups.toFinset = names.toFinset := by
    ext a
    rw [List.mem_toFinset, List.mem_toFinset, List.mem_eraseDups]
  rw [← hfinset, List.toFinset_card_of_nodup (nodup_eraseDups names)]

theorem isSome_lookup_reverse {as : List (String × α)} {b : String} (hb : b ∈ as.map (·.1)) :
    (as.reverse.lookup b).isSome := by
  rw [← Option.ne_none_iff_isSome, ne_eq, List.lookup_eq_none_iff]
  simpa using hb

theorem map_fst_lastValues (as : List (String × α)) :
    (lastValues as).map (·.1) = (as.map (·.1)).eraseDups := by
  rw [lastValues, List.map_filterMap, List.filterMap_eq_map_iff_forall_eq_some.mpr]
  · exact List.map_id _
  · intro b hb
    obtain ⟨v, hv⟩ := Option.isSome_iff_exists.mp (isSome_lookup_reverse (List.mem_eraseDups.mp hb))
    simp [hv]

theorem lastValues_append_singleton (as : List (String × α)) (a : String) (v : α) :
    lastValues (as ++ [(a, v)]) = setIn a v (lastValues as) := by
  have hlast (b : String) : ((as ++ [(a, v)]).reverse.lookup b).map (b, ·) =
      if b = a then some (a, v) else (as.reverse.lookup b).map (b, ·) := by
    by_cases hba : b = a
    · simp [hba]
    · simp [hba, List.lookup_cons, beq_false_of_ne]
  by_cases ha : a ∈ as.map (·.1)
  · have hnames : ((as ++ [(a, v)]).map (·.1)).eraseDups = (as.map (·.1)).eraseDups := by
      rw [List.map_append]
      exact eraseDups_concat_of_mem ha
    rw [lastValues, lastValues, hnames, setIn_filterMap v (nodup_eraseDups _)
      (fun b hb => isSome_lookup_reverse (List.mem_eraseDups.mp hb)) (List.mem_eraseDups.mpr ha)]
    exact List.filterMap_congr fun b _ => hlast b
  · have hnames : ((as ++ [(a, v)]).map (·.1)).eraseDups = (as.map (·.1)).eraseDups ++ [a] := by
      rw [List.map_append]
      exact eraseDups_concat_of_not_mem ha
    have hnot : a ∉ (lastValues as).map (·.1) := by
      rwa [map_fst_lastValues, List.mem_eraseDups]
    rw [setIn_of_not_mem v hnot, lastValues, lastValues, hnames, List.filterMap_append]
    congr 1
    · apply List.filterMap_congr
      intro b hb
      have hne : ¬ b = a := fun heq => ha (heq ▸ List.mem_eraseDups.mp hb)
      rw [hlast, if_neg hne]
    · simp

/-- Setting attributes in turn keeps the last value of each name. -/
theorem ofAttributes_eq (className : String) (as : List (String × α)) :
    ofAttributes className as = ⟨className, lastValues as⟩ := by
  induction as using List.reverseRecOn with
  | nil => rfl
  | append_singleton as a ih =>
      rw [lastValues_append_singleton, ofAttributes, List.foldl_append, ← ofAttributes, ih]
      rfl

/-! ## Distinct names -/

theorem mem_of_lookup {a : String} {v : α} {as : List (String × α)} (h : as.lookup a = some v) :
    (a, v) ∈ as := by
  obtain ⟨l, l', rfl, _⟩ := List.lookup_eq_some_iff.mp h
  simp

theorem lookup_of_mem {a : String} {v : α} {as : List (String × α)}
    (hnames : (as.map (·.1)).Nodup) (h : (a, v) ∈ as) : as.lookup a = some v := by
  induction as with
  | nil => cases h
  | cons b as ih =>
      obtain ⟨hb, hnames'⟩ := List.nodup_cons.mp hnames
      rcases List.mem_cons.mp h with rfl | hmem
      · exact List.lookup_cons_self
      · have hne : a ≠ b.1 := by
          rintro rfl
          exact hb (List.mem_map.mpr ⟨_, hmem, rfl⟩)
        rw [List.lookup_cons, beq_false_of_ne hne]
        exact ih hnames' hmem

theorem nodup_map_fst_lastValues (as : List (String × α)) :
    ((lastValues as).map (·.1)).Nodup := by
  rw [map_fst_lastValues]
  exact nodup_eraseDups _

/-- The last values of attributes with distinct names are all of them. -/
theorem lastValues_of_nodup {as : List (String × α)} (hnames : (as.map (·.1)).Nodup) :
    lastValues as = as := by
  induction as using List.reverseRecOn with
  | nil => rfl
  | append_singleton as a ih =>
      rw [List.map_append, List.map_cons, List.map_nil, ← List.concat_eq_append,
        List.nodup_concat] at hnames
      obtain ⟨ha, hnames'⟩ := hnames
      rw [lastValues_append_singleton, ih hnames', setIn_of_not_mem a.2 ha]

theorem mem_of_mem_setIn {a : String} {v : α} {b : String × α} {l : List (String × α)}
    (h : b ∈ setIn a v l) : b = (a, v) ∨ b ∈ l := by
  induction l with
  | nil => simpa [setIn] using h
  | cons c l ih =>
      obtain ⟨key, old⟩ := c
      by_cases hkey : key = a
      · simp only [setIn, if_pos hkey, List.mem_cons] at h ⊢
        rw [hkey] at h
        tauto
      · simp only [setIn, if_neg hkey, List.mem_cons] at h ⊢
        tauto

theorem nodup_map_fst_setIn (a : String) (v : α) {l : List (String × α)}
    (h : (l.map (·.1)).Nodup) : ((setIn a v l).map (·.1)).Nodup := by
  rw [← lastValues_of_nodup h, ← lastValues_append_singleton]
  exact nodup_map_fst_lastValues _

theorem ofAttributes_of_nodup (className : String) {as : List (String × α)}
    (hnames : (as.map (·.1)).Nodup) : ofAttributes className as = ⟨className, as⟩ := by
  rw [ofAttributes_eq, lastValues_of_nodup hnames]

/-- The last values are among the attributes, each no more often than there. -/
theorem lastValues_subperm (as : List (String × α)) : (lastValues as).Subperm as := by
  apply (List.Nodup.of_map _ (nodup_map_fst_lastValues as)).subperm
  intro a ha
  obtain ⟨b, _, hb⟩ := List.mem_filterMap.mp ha
  obtain ⟨v, hv, rfl⟩ := Option.map_eq_some_iff.mp hb
  exact List.mem_reverse.mp (mem_of_lookup hv)

theorem lastValues_ne_nil {as : List (String × α)} (h : as ≠ []) : lastValues as ≠ [] := by
  obtain ⟨a, as, rfl⟩ := List.exists_cons_of_ne_nil h
  intro hnil
  have hnames := map_fst_lastValues (a :: as)
  rw [hnil, List.map_nil, List.map_cons, List.eraseDups_cons] at hnames
  cases hnames

/-! ## Attributes that correspond by name -/

section

variable {β : Type} {R : α → β → Prop} {as : List (String × α)} {bs cs : List (String × β)}

/-- Two attributes of one name with related values. -/
inductive Paired (R : α → β → Prop) : String × α → String × β → Prop where
  | mk {v w} (name) (h : R v w) : Paired R (name, v) (name, w)

/-- Attributes with the same names, none of which occurs twice, and with related values. -/
structure Corresponds (R : α → β → Prop) (as : List (String × α)) (bs : List (String × β)) :
    Prop where
  left : (as.map (·.1)).Nodup
  right : (bs.map (·.1)).Nodup
  length_eq : as.length = bs.length
  lookup : ∀ a ∈ as, ∃ w, bs.lookup a.1 = some w ∧ R a.2 w

namespace Corresponds

/-- As there are equally many names on both sides, none is left over. -/
theorem names_perm (h : Corresponds R as bs) : (as.map (·.1)).Perm (bs.map (·.1)) := by
  have hsubset : as.map (·.1) ⊆ bs.map (·.1) := by
    intro name hname
    obtain ⟨a, ha, rfl⟩ := List.mem_map.mp hname
    obtain ⟨w, hw, _⟩ := h.lookup a ha
    exact List.mem_map.mpr ⟨_, mem_of_lookup hw, rfl⟩
  exact (h.left.subperm hsubset).perm_of_length_le (by simp [h.length_eq])

theorem symm (h : Corresponds R as bs) : Corresponds (fun w v => R v w) bs as where
  left := h.right
  right := h.left
  length_eq := h.length_eq.symm
  lookup b hb := by
    have hname : b.1 ∈ as.map (·.1) := h.names_perm.mem_iff.mpr (List.mem_map_of_mem hb)
    obtain ⟨a, ha, hab⟩ := List.mem_map.mp hname
    obtain ⟨w, hw, hR⟩ := h.lookup a ha
    rw [hab, lookup_of_mem h.right hb] at hw
    cases hw
    exact ⟨a.2, hab ▸ lookup_of_mem h.left ha, hR⟩

end Corresponds

theorem map_fst_of_paired (h : List.Forall₂ (Paired R) as bs) : as.map (·.1) = bs.map (·.1) := by
  induction h with
  | nil => rfl
  | cons hab _ ih =>
      obtain ⟨name, _⟩ := hab
      rw [List.map_cons, List.map_cons, ih]

/-- Corresponding attributes are paired in some order of those on the right. -/
theorem corresponds_iff_perm : Corresponds R as bs ↔
    (as.map (·.1)).Nodup ∧ ∃ cs, List.Forall₂ (Paired R) as cs ∧ cs.Perm bs := by
  constructor
  · intro h
    refine ⟨h.left, ?_⟩
    have hpairs : ∀ as' ⊆ as, ∃ cs, List.Forall₂ (Paired R) as' cs ∧ cs ⊆ bs := by
      intro as' hsub
      induction as' with
      | nil => exact ⟨[], .nil, List.nil_subset _⟩
      | cons a as' ih =>
          obtain ⟨ha, hsub'⟩ := List.cons_subset.mp hsub
          obtain ⟨cs, hcs, hcs'⟩ := ih hsub'
          obtain ⟨w, hw, haw⟩ := h.lookup a ha
          exact ⟨(a.1, w) :: cs, .cons (.mk a.1 haw) hcs,
            List.cons_subset.mpr ⟨mem_of_lookup hw, hcs'⟩⟩
    obtain ⟨cs, hcs, hsub⟩ := hpairs as (List.Subset.refl as)
    have hnodup : cs.Nodup := .of_map (·.1) (map_fst_of_paired hcs ▸ h.left)
    have hle : bs.length ≤ cs.length :=
      Nat.le_of_eq (h.length_eq.symm.trans hcs.length_eq)
    exact ⟨cs, hcs, (hnodup.subperm hsub).perm_of_length_le hle⟩
  · rintro ⟨hnodup, cs, hcs, hperm⟩
    have hright : (bs.map (·.1)).Nodup :=
      (hperm.map (·.1)).nodup_iff.mp (map_fst_of_paired hcs ▸ hnodup)
    refine ⟨hnodup, hright, hcs.length_eq.trans hperm.length_eq, fun a ha => ?_⟩
    obtain ⟨i, hi, rfl⟩ := List.getElem_of_mem ha
    have hi' : i < cs.length := hcs.length_eq ▸ hi
    have hpaired : Paired R as[i] cs[i] := hcs.get hi hi'
    have hmem : cs[i] ∈ bs := hperm.subset (List.getElem_mem hi')
    generalize as[i] = a, cs[i] = c at hpaired hmem
    obtain ⟨name, hR⟩ := hpaired
    exact ⟨_, lookup_of_mem hright hmem, hR⟩

end

end TreePattern.Node
