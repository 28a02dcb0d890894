import TreePattern.Proofs.Tree.WordBoundary
import TreePattern.Proofs.Unicode.Lowercase

/-! Builder names are settled. Main statement: `ClassName.builderName_stable` — a builder name is no
reserved word and is its own builder name, since it is in snake case. -/

namespace TreePattern.ClassName

open Unicode (NotBoth hasLower)

/-- A text without letters that have a lower-case form, without dashes and without two colons side
by side. -/
structure IsSnakeCase (cs : List Char) : Prop where
  lower : ∀ c ∈ cs, hasLower c = false
  dash : '-' ∉ cs
  colons : cs.IsChain (NotBoth ':')

section

variable {b c d : Char} {cs : List Char}

/-! ## Colons -/

theorem head?_slashes (h : c ∈ (slashes cs).head?) : c = '/' ∨ c ∈ cs.head? := by
  fun_induction slashes cs with
  | case1 cs => exact .inl (Option.mem_some.mp h).symm
  | case2 d cs => exact .inr h
  | case3 => exact .inr h

theorem isChain_slashes (cs : List Char) : (slashes cs).IsChain (NotBoth ':') := by
  fun_induction slashes cs with
  | case1 cs ih => exact ih.cons fun c _ h => absurd h.1 (by decide)
  | case2 b cs hpair ih =>
      refine ih.cons fun c hc => ?_
      rintro ⟨rfl, rfl⟩
      rcases head?_slashes hc with hslash | hhead
      · exact absurd hslash (by decide)
      · obtain ⟨rest, rfl⟩ := List.head?_eq_some_iff.mp hhead
        exact hpair rest rfl rfl
  | case3 => exact .nil

theorem slashes_eq_self (h : cs.IsChain (NotBoth ':')) : slashes cs = cs := by
  fun_induction slashes cs with
  | case1 cs => exact absurd ⟨rfl, rfl⟩ (List.isChain_cons_cons.mp h).1
  | case2 b cs hpair ih => rw [ih h.tail]
  | case3 => rfl

theorem isChain_setApart {rule : Char → Char → List Char → Bool} (h : cs.IsChain (NotBoth ':')) :
    (setApart rule cs).IsChain (NotBoth ':') := by
  fun_induction setApart rule cs with
  | case1 b c cs hrule ih =>
      have hbehind := (ih h.tail).cons (x := '_') fun d _ h => absurd h.1 (by decide)
      refine hbehind.cons fun d hd => ?_
      obtain rfl := Option.mem_some.mp hd
      exact fun hcolons => absurd hcolons.2 (by decide)
  | case2 b c cs hrule ih =>
      refine (ih h.tail).cons fun d hd => ?_
      obtain ⟨out, hout⟩ := exists_setApart_cons rule c cs
      rw [hout] at hd
      obtain rfl := Option.mem_some.mp hd
      exact (List.isChain_cons_cons.mp h).1
  | case3 cs hcs => exact h

/-! ## Snake case -/

theorem setApart_eq_self (h : ∀ c ∈ cs, c.isUpper = false) :
    setApart endsAcronymOrWord cs = cs := by
  induction cs with
  | nil => rfl
  | cons b cs ih =>
      have hrest := ih fun c hc => h c (List.mem_cons_of_mem b hc)
      cases cs with
      | nil => rfl
      | cons c cs =>
          have hc : c.isUpper = false := h c (by simp)
          have hrule : endsAcronymOrWord b c cs = false := by
            simp [endsAcronymOrWord, endsAcronym, endsWord, hc]
          rw [setApart_of_not_rule hrule, hrest]

theorem isSnakeCase_underscore (name : List Char) : IsSnakeCase (underscore name) := by
  rw [underscore_eq]
  refine ⟨fun c => Unicode.hasLower_of_mem_lowercase, fun hdash => ?_, ?_⟩
  · obtain ⟨front, c, back, hc, hdash⟩ := Unicode.mem_lowercaseAfter hdash
    obtain rfl := Unicode.eq_of_mem_lowercaseChar hdash (by decide)
    obtain ⟨d, -, hd⟩ := List.mem_map.mp hc
    split at hd
    · exact absurd hd (by decide)
    · contradiction
  · apply Unicode.isChain_lowercaseAfter (by decide)
    have hcolon (c : Char) (hc : (if c = '-' then '_' else c) = ':') : c = ':' := by
      split at hc
      · exact absurd hc (by decide)
      · exact hc
    refine List.isChain_map_of_isChain _ ?_ (isChain_setApart (isChain_slashes name))
    exact fun b c hpair hcolons => hpair ⟨hcolon b hcolons.1, hcolon c hcolons.2⟩

theorem IsSnakeCase.underscore_eq_self (h : IsSnakeCase cs) : underscore cs = cs := by
  have hupper : ∀ c ∈ cs, c.isUpper = false := by
    intro c hc
    rw [Bool.eq_false_iff]
    exact fun hupper => absurd (Unicode.hasLower_of_isUpper hupper) (by simp [h.lower c hc])
  have hdash : (cs.map fun c => if c = '-' then '_' else c) = cs := by
    refine (List.map_congr_left fun c hc => if_neg ?_).trans (List.map_id cs)
    rintro rfl
    exact h.dash hc
  rw [underscore_eq, slashes_eq_self h.colons, setApart_eq_self hupper, hdash,
    Unicode.lowercase_eq_self_iff.mpr h.lower]

theorem IsSnakeCase.cons_underscore (h : IsSnakeCase cs) : IsSnakeCase ('_' :: cs) where
  lower := by
    have hmem : '_' ∈ Unicode.lowercase ['_'] := by decide
    exact List.forall_mem_cons.mpr ⟨Unicode.hasLower_of_mem_lowercase hmem, h.lower⟩
  dash := by simp [h.dash]
  colons := h.colons.cons fun c _ h => absurd h.1 (by decide)

end

/-! ## Builder names -/

theorem underscore_append_not_mem_reservedWords (name : String) : "_" ++ name ∉ reservedWords := by
  have hall : ∀ word ∈ reservedWords, word.toList.head? ≠ some '_' := by decide
  intro hmem
  exact hall _ hmem (by simp)

theorem isSnakeCase_builderName (className : String) :
    IsSnakeCase (builderName className).toList := by
  have hname := isSnakeCase_underscore className.toList
  rw [builderName]
  split
  · simpa using hname.cons_underscore
  · simpa using hname

theorem builderName_not_mem_reservedWords (className : String) :
    builderName className ∉ reservedWords := by
  rw [builderName]
  split
  · exact underscore_append_not_mem_reservedWords _
  · assumption

/-- The builder names are the texts in snake case that are no reserved words. -/
theorem builderName_eq_self_iff {name : String} :
    builderName name = name ↔ IsSnakeCase name.toList ∧ name ∉ reservedWords := by
  constructor
  · intro h
    rw [← h]
    exact ⟨isSnakeCase_builderName name, builderName_not_mem_reservedWords name⟩
  · rintro ⟨hname, hreserved⟩
    rw [builderName, hname.underscore_eq_self, String.ofList_toList]
    exact if_neg hreserved

/-- A builder name is no reserved word, and it is the builder name of itself. -/
theorem builderName_stable (className : String) : builderName className ∉ reservedWords ∧
    builderName (builderName className) = builderName className :=
  ⟨builderName_not_mem_reservedWords className, builderName_eq_self_iff.mpr
    ⟨isSnakeCase_builderName className, builderName_not_mem_reservedWords className⟩⟩

example : builderName "Send" = "_send" ∧ builderName "\u212Aey::If" = "key/if" := by decide

end TreePattern.ClassName
