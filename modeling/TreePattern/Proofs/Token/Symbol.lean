import TreePattern.Proofs.Token.Leading

/-! Names and symbols in front of other text. A symbol may end in an operator, so that the character
behind it can make it longer. -/

namespace TreePattern.Token

/-! ## Names -/

/-- The characters that may follow a complete lexeme in a pattern. -/
def boundaries : List Char := [' ', ',', '>', ']', '\x7d', '\x7b', '*', '+', '?']

theorem forall_mem_boundaries {p : Char → Prop} : (∀ c ∈ boundaries, p c) ↔
    p ' ' ∧ p ',' ∧ p '>' ∧ p ']' ∧ p '\x7d' ∧ p '\x7b' ∧ p '*' ∧ p '+' ∧ p '?' := by
  simp only [boundaries, List.forall_mem_cons, List.not_mem_nil, false_implies, implies_true,
    and_true]

/-- A boundary neither starts nor goes on a name, and is no `!` behind one. -/
theorem not_name_of_boundary : ∀ c ∈ boundaries,
    isNameStart c = false ∧ isNameChar c = false ∧ c ≠ '!' :=
  forall_mem_boundaries.mpr (by decide)

/-- A boundary goes on no number. -/
theorem not_number_of_boundary : ∀ c ∈ boundaries,
    radix? c = none ∧ Digit.isDigit 8 c = false ∧ Digit.isDigit 10 c = false ∧ c ≠ '_' :=
  forall_mem_boundaries.mpr (by decide)

theorem takeWhile_append_of_head {p : Char → Bool} {cs ds : List Char} (hcs : ∀ c ∈ cs, p c = true)
    (hds : ∀ d ∈ ds.head?, p d = false) : (cs ++ ds).takeWhile p = cs := by
  rw [List.takeWhile_append_of_pos hcs]
  cases ds with
  | nil => simp
  | cons d ds => simp [hds d rfl]

theorem dropWhile_append_of_head {p : Char → Bool} {cs ds : List Char} (hcs : ∀ c ∈ cs, p c = true)
    (hds : ∀ d ∈ ds.head?, p d = false) : (cs ++ ds).dropWhile p = ds := by
  rw [List.dropWhile_append_of_pos hcs]
  cases ds with
  | nil => simp
  | cons d ds => simp [hds d rfl]

theorem className?_append {l behind cs : List Char} (h : className? (l ++ behind) = some l)
    (hcs : ∀ c ∈ cs.head?, isNameChar c = false) : className? (l ++ cs) = some l := by
  obtain ⟨c, tail, _, rfl, heq, _, hc⟩ := begins_className h
  simp only [List.cons_append, className?, hc, if_true, Option.some.injEq, List.cons.injEq,
    true_and] at h ⊢
  refine takeWhile_append_of_head (fun d hd => ?_) hcs
  rw [← h] at hd
  exact List.mem_takeWhile_imp hd

theorem variableName?_append {l cs : List Char} (h : variableName? l = some l)
    (hcs : ∀ c ∈ cs.head?, isNameChar c = false) : variableName? (l ++ cs) = some l := by
  obtain ⟨c, tail, _, rfl, heq, _, hc⟩ := begins_variableName h
  simp only [List.cons_append, variableName?, hc, if_true, Option.some.injEq, List.cons.injEq,
    true_and] at h ⊢
  exact takeWhile_append_of_head (fun d hd => List.mem_takeWhile_imp (h.symm ▸ hd)) hcs

/-- A name of letters and digits with the mark at its end. -/
structure IsIdentifier (c : Char) (body mark : List Char) : Prop where
  start : isNameStart c = true
  body : ∀ d ∈ body, isNameChar d = true
  mark : mark = [] ∨ mark = ['?'] ∨ mark = ['!']

theorem identifier?_eq_some {cs l : List Char} (h : identifier? cs = some l) :
    ∃ c body mark, l = c :: (body ++ mark) ∧ IsIdentifier c body mark := by
  cases cs with
  | nil => cases h
  | cons c cs =>
      simp only [identifier?, Option.ite_none_right_eq_some, Option.some.injEq] at h
      obtain ⟨hc, rfl⟩ := h
      refine ⟨c, _, _, rfl, hc, fun d hd => List.mem_takeWhile_imp hd, ?_⟩
      unfold nameMark
      split <;> simp

theorem identifier?_append {c : Char} {body mark cs : List Char} (h : IsIdentifier c body mark)
    (hcs : mark = [] → ∀ d ∈ cs.head?, isNameChar d = false ∧ d ≠ '?' ∧ d ≠ '!') :
    identifier? (c :: (body ++ mark) ++ cs) = some (c :: (body ++ mark)) := by
  have hhead : ∀ d ∈ (mark ++ cs).head?, isNameChar d = false := by
    rcases h.mark with rfl | rfl | rfl
    · exact fun d hd => (hcs rfl d hd).1
    · rintro _ ⟨⟩
      rfl
    · rintro _ ⟨⟩
      rfl
  have hmark : nameMark (mark ++ cs) = mark := by
    rcases h.mark with rfl | rfl | rfl
    · cases cs with
      | nil => rfl
      | cons d cs =>
          obtain ⟨_, hquestion, hexclamation⟩ := hcs rfl d rfl
          unfold nameMark
          split <;> simp_all
    · rfl
    · rfl
  rw [List.cons_append, identifier?, if_pos h.start, List.append_assoc,
    takeWhile_append_of_head h.body hhead, dropWhile_append_of_head h.body hhead, hmark]

theorem IsIdentifier.stands {c : Char} {body mark : List Char} (h : IsIdentifier c body mark) :
    identifier? (c :: (body ++ mark)) = some (c :: (body ++ mark)) := by
  have hstands := identifier?_append h fun _ d (hd : d ∈ ([] : List Char).head?) => by cases hd
  rwa [List.append_nil] at hstands

theorem identifier?_eq_none {c : Char} (hc : isNameStart c = false) (cs : List Char) :
    identifier? (c :: cs) = none := by
  simp [identifier?, hc]

theorem operatorName?_eq_none {names : List (List Char)} (hnames : names ⊆ operatorNames) {c : Char}
    (hc : isNameStart c = true) (cs : List Char) : operatorName? names (c :: cs) = none := by
  cases h : operatorName? names (c :: cs) with
  | none => rfl
  | some l =>
      obtain ⟨hmem, hl⟩ := operatorName?_eq_some h
      obtain ⟨_, _, _, _, heq, _, hfirst⟩ := begins_of_mem_operatorNames (hnames hmem) hl
      cases heq
      simp [hc] at hfirst

/-- The longest name is found that can be found at all. -/
theorem operatorName?_append {names : List (List Char)} {l cs : List Char} (hl : l ∈ names)
    (hlonger : ∀ m ∈ names, l <+: m → m <+: l ++ cs → m = l) :
    operatorName? names (l ++ cs) = some l := by
  apply longest_eq_some (by simpa using hl)
  intro m hm hne
  obtain ⟨hmem, hprefix⟩ : m ∈ names ∧ m <+: l ++ cs := by simpa using hm
  have hnot : ¬ l <+: m := fun hle => hne (hlonger m hmem hle hprefix)
  have hshorter := (List.prefix_or_prefix_of_prefix hprefix (List.prefix_append l cs)).resolve_right
    hnot
  refine lt_of_le_of_ne hshorter.length_le fun hlength => hnot ?_
  rw [hshorter.eq_of_length hlength]

/-- A symbol is a colon with an identifier or with an operator behind it. -/
theorem symbol?_eq_some_iff {cs l : List Char} : symbol? (':' :: cs) = some (':' :: l) ↔
    identifier? cs = some l ∨ operatorName? operatorNames cs = some l := by
  have hlonger : longer List.length (identifier? cs) (operatorName? operatorNames cs) = some l ↔
      identifier? cs = some l ∨ operatorName? operatorNames cs = some l := by
    cases cs with
    | nil =>
        have hnone : operatorName? operatorNames [] = none := by decide
        simp [identifier?, hnone, longer]
    | cons c cs =>
        cases hc : isNameStart c with
        | false => simp [identifier?_eq_none hc, longer]
        | true =>
            simp [operatorName?_eq_none (List.Subset.refl _) hc, longer_none_right]
  rw [symbol?, ← hlonger, Option.map_eq_some_iff]
  simp

theorem operatorName?_self {l : List Char} (h : l ∈ operatorNames) :
    operatorName? operatorNames l = some l := by
  have hstands : operatorName? operatorNames (l ++ []) = some l := by
    apply operatorName?_append h
    intro m _ hle hle'
    rw [List.append_nil] at hle'
    exact (hle.eq_of_length (le_antisymm hle.length_le hle'.length_le)).symm
  rwa [List.append_nil] at hstands

/-- An operator grows by a boundary only to another operator. -/
theorem mem_operatorNames_of_prefix {l m : List Char} (hl : l ∈ operatorNames)
    (hm : m ∈ operatorNames) {c : Char} (hc : c ∈ boundaries) (h : l ++ [c] <+: m) :
    m = l ++ [c] := by
  have hall : ∀ m ∈ operatorNames, ∀ l ∈ m.inits, l ∈ operatorNames →
      (m.drop l.length).headD ' ' ∈ boundaries → m.length ≤ l.length + 1 := by decide
  obtain ⟨rest, rfl⟩ := h
  have hlength := hall _ hm l ((List.mem_inits _ _).mpr ⟨c :: rest, by simp⟩) hl (by simpa using hc)
  have hrest : rest = [] := List.length_eq_zero_iff.mp (by simpa using hlength)
  rw [hrest, List.append_nil]

/-- What comes before the last character of an operator is an operator, if it is the name of a
symbol. -/
theorem mem_operatorNames_of_concat {name behind : List Char} {c : Char}
    (h : symbol? (':' :: (name ++ behind)) = some (':' :: name))
    (hlonger : name ++ [c] ∈ operatorNames) : name ∈ operatorNames := by
  rcases symbol?_eq_some_iff.mp h with h | h
  · obtain ⟨d, body, mark, rfl, hname⟩ := identifier?_eq_some h
    obtain ⟨_, _, _, heq, _, _, hfirst⟩ :=
      begins_of_mem_operatorNames hlonger (List.prefix_refl _)
    cases heq
    simp [hname.start] at hfirst
  · exact (operatorName?_eq_some h).1

/-- Names of letters and digits without a mark at their end. -/
def isBareName : List Char → Bool
  | [] => false
  | c :: cs => isNameStart c && cs.all isNameChar

/-- The only boundary that can belong to an identifier is the mark at its end. -/
theorem IsIdentifier.mark_of_boundary {name body mark : List Char} {c d : Char}
    (hc : c ∈ boundaries) (h : IsIdentifier d body mark) (heq : name ++ [c] = d :: (body ++ mark)) :
    mark = ['?'] ∧ c = '?' ∧ name = d :: body := by
  obtain ⟨hstart, hchar, hne⟩ := not_name_of_boundary c hc
  rw [← List.cons_append] at heq
  rcases h.mark with rfl | rfl | rfl
  · rw [List.append_nil] at heq
    have hmem : c ∈ d :: body := by simp [← heq]
    rcases List.mem_cons.mp hmem with rfl | hbody
    · rw [h.start] at hstart
      cases hstart
    · rw [h.body c hbody] at hchar
      cases hchar
  · obtain ⟨hname, hlast⟩ := List.append_inj' heq rfl
    cases hlast
    exact ⟨rfl, rfl, hname⟩
  · obtain ⟨_, hlast⟩ := List.append_inj' heq rfl
    cases hlast
    exact absurd rfl hne

theorem identifier?_concat_iff {name : List Char} {c : Char} (hc : c ∈ boundaries) :
    identifier? (name ++ [c]) = some (name ++ [c]) ↔ c = '?' ∧ isBareName name = true := by
  constructor
  · intro h
    obtain ⟨d, body, mark, heq, hname⟩ := identifier?_eq_some h
    obtain ⟨_, hquestion, rfl⟩ := hname.mark_of_boundary hc heq
    exact ⟨hquestion, by simpa [isBareName, hname.start] using hname.body⟩
  · rintro ⟨rfl, hname⟩
    cases name with
    | nil => cases hname
    | cons d body =>
        simp only [isBareName, Bool.and_eq_true, List.all_eq_true] at hname
        have hmarked : IsIdentifier d body ['?'] := ⟨hname.1, hname.2, .inr (.inl rfl)⟩
        exact hmarked.stands

/-- The boundaries that make a longer operator of an operator. -/
theorem concat_mem_operatorNames_iff {name : List Char} {c : Char} (hname : name ∈ operatorNames)
    (hc : c ∈ boundaries) : name ++ [c] ∈ operatorNames ↔
      c = '*' ∧ name = ['*'] ∨ c = '>' ∧ (name = ['>'] ∨ name = ['<', '=']) := by
  constructor
  · intro h
    have hall : ∀ m ∈ operatorNames, m.getLastD ' ' ∈ boundaries → m.dropLast ∈ operatorNames →
        m.getLastD ' ' = '*' ∧ m.dropLast = ['*'] ∨
          m.getLastD ' ' = '>' ∧ (m.dropLast = ['>'] ∨ m.dropLast = ['<', '=']) := by decide
    have hlast : (name ++ [c]).getLastD ' ' = c := List.getLastD_concat
    have hfirst : (name ++ [c]).dropLast = name := List.dropLast_concat
    have hcases := hall _ h
    rw [hlast, hfirst] at hcases
    exact hcases hc hname
  · rintro (⟨rfl, rfl⟩ | ⟨rfl, rfl | rfl⟩) <;> decide

/-- The boundaries that make a longer symbol of a symbol, each with the names it does so for. -/
theorem symbol?_concat_iff {name behind : List Char} {c : Char}
    (h : symbol? (':' :: name ++ behind) = some (':' :: name)) (hc : c ∈ boundaries) :
    symbol? (':' :: name ++ [c]) = some (':' :: name ++ [c]) ↔
      c = '?' ∧ isBareName name = true ∨ c = '*' ∧ name = ['*'] ∨
        c = '>' ∧ (name = ['>'] ∨ name = ['<', '=']) := by
  rw [List.cons_append, symbol?_eq_some_iff, identifier?_concat_iff hc]
  apply or_congr_right
  constructor
  · intro hlonger
    obtain ⟨hmem, _⟩ := operatorName?_eq_some hlonger
    exact (concat_mem_operatorNames_iff (mem_operatorNames_of_concat h hmem) hc).mp hmem
  · rintro (⟨rfl, rfl⟩ | ⟨rfl, rfl | rfl⟩) <;> decide

/-- A symbol stands before a boundary that does not make a longer symbol of it. -/
theorem symbol?_append {l behind cs : List Char} (h : symbol? (l ++ behind) = some l)
    (hcs : ∀ c ∈ cs.head?, c ∈ boundaries ∧ symbol? (l ++ [c]) ≠ some (l ++ [c])) :
    symbol? (l ++ cs) = some l := by
  obtain ⟨c, name, _, rfl, heq, _, hc⟩ := begins_symbol h
  obtain rfl := eq_of_beq hc
  rw [List.cons_append, symbol?_eq_some_iff] at h ⊢
  rcases h with h | h
  · obtain ⟨c, body, mark, rfl, hname⟩ := identifier?_eq_some h
    left
    apply identifier?_append hname
    intro hmark d hd
    obtain ⟨hd, hfuse⟩ := hcs d hd
    obtain ⟨_, hchar, hne⟩ := not_name_of_boundary d hd
    refine ⟨hchar, fun hquestion => hfuse ?_, hne⟩
    have hlonger : IsIdentifier c body ['?'] := ⟨hname.start, hname.body, .inr (.inl rfl)⟩
    have hstands := symbol?_eq_some_iff.mpr (.inl hlonger.stands)
    simpa [hmark, hquestion] using hstands
  · obtain ⟨hl, _⟩ := operatorName?_eq_some h
    right
    apply operatorName?_append hl
    intro m hm hle hprefix
    obtain ⟨rest, rfl⟩ := hle
    cases rest with
    | nil => rw [List.append_nil]
    | cons d rest =>
        obtain ⟨ds, rfl⟩ : ∃ ds, cs = d :: ds := by
          obtain ⟨more, hmore⟩ := (List.prefix_append_right_inj _).mp hprefix
          exact ⟨rest ++ more, hmore.symm⟩
        obtain ⟨hd, hfuse⟩ := hcs d rfl
        have heq := mem_operatorNames_of_prefix hl hm hd ⟨rest, by simp⟩
        rw [heq] at hm
        exact absurd (symbol?_eq_some_iff.mpr (.inr (operatorName?_self hm))) hfuse

/-- A symbol that a boundary has made longer stands whatever follows it. -/
theorem symbol?_append_of_boundary {l behind cs : List Char} {c : Char}
    (h : symbol? (l ++ behind) = some l) (hc : c ∈ boundaries)
    (hlonger : symbol? (l ++ [c]) = some (l ++ [c])) :
    symbol? (l ++ c :: cs) = some (l ++ [c]) := by
  obtain ⟨colon, name, _, rfl, _, _, hcolon⟩ := begins_symbol h
  obtain rfl := eq_of_beq hcolon
  have hsplit : ':' :: name ++ c :: cs = ':' :: (name ++ [c] ++ cs) := by simp
  rw [hsplit, List.cons_append, symbol?_eq_some_iff]
  rw [List.cons_append, symbol?_eq_some_iff] at hlonger
  rcases hlonger with hlonger | hlonger
  · obtain ⟨d, body, mark, heq, hname⟩ := identifier?_eq_some hlonger
    obtain ⟨hmark, _, _⟩ := hname.mark_of_boundary hc heq
    left
    rw [heq]
    apply identifier?_append hname
    intro hnone
    rw [hmark] at hnone
    cases hnone
  · obtain ⟨hmem, _⟩ := operatorName?_eq_some hlonger
    right
    apply operatorName?_append hmem
    intro m hm hle _
    exact mem_operatorNames_of_prefix (mem_operatorNames_of_concat h hmem) hm hc hle

end TreePattern.Token
