import TreePattern.Proofs.Token.Run
import TreePattern.Proofs.Token.Spacing

/-! Names of setters. An equals sign behind a name belongs to the name only in front of an attribute
operator, so that it is never the operator that the name needs behind it. Main statement:
`Cursor.answers_name_operator` — a name and an operator are read as they stand, with or without an
equals sign at the end of the name. -/

namespace TreePattern

namespace Token

/-- The operators that join an attribute and its constraint. -/
def attributeOperators : List (List Char × Kind) :=
  [(['='], .equals), (['^', '='], .startsWith), (['$', '='], .endsWith), (['*', '='], .contains)]

/-- The names that an equals sign makes the name of a setter: identifiers without a mark at their
end, and the index operator. -/
inductive IsSettable : List Char → Prop where
  | identifier {c body} (h : IsIdentifier c body []) : IsSettable (c :: body)
  | index : IsSettable ['[', ']']

/-- A text that begins with an attribute operator, possibly behind white space. -/
def BeginsWithOperator (cs : List Char) : Prop :=
  ∃ blanks op k rest, (∀ c ∈ blanks, isBlank c = true) ∧ (op, k) ∈ attributeOperators ∧
    cs = blanks ++ (op ++ rest)

/-! ## Operators behind white space -/

theorem mem_operators_of_mem_attributeOperators {a : List Char × Kind}
    (h : a ∈ attributeOperators) : a ∈ operators ∧ a.2.isFree = true ∧
      a.2.isAttributeOperator = true := by
  have hall : ∀ a ∈ attributeOperators, a ∈ operators ∧ a.2.isFree = true ∧
      a.2.isAttributeOperator = true := by decide
  exact hall a h

theorem operatorFollows_iff {cs : List Char} :
    operatorFollows cs = true ↔ BeginsWithOperator cs := by
  constructor
  · intro h
    obtain ⟨op, hop, hbegins⟩ := List.any_eq_true.mp h
    obtain ⟨rest, hrest⟩ := List.isPrefixOf_iff_prefix.mp hbegins
    have hkind : ∀ op ∈ [['='], ['^', '='], ['$', '='], ['*', '=']],
        ∃ k, (op, k) ∈ attributeOperators := by
      simp [attributeOperators]
    obtain ⟨k, hk⟩ := hkind op hop
    refine ⟨cs.takeWhile isBlank, op, k, rest, fun c hc => List.mem_takeWhile_imp hc, hk, ?_⟩
    rw [hrest, List.takeWhile_append_dropWhile]
  · rintro ⟨blanks, op, k, rest, hblank, hop, rfl⟩
    obtain ⟨hop', _, hk⟩ := mem_operators_of_mem_attributeOperators hop
    exact operatorFollows_append hblank hop' hk rest

theorem operatorFollows_blank {blanks : List Char} (hblank : ∀ c ∈ blanks, isBlank c = true)
    (cs : List Char) : operatorFollows (blanks ++ cs) = operatorFollows cs := by
  rw [operatorFollows, operatorFollows, Terminal.dropWhile_isBlank hblank]

section

variable {blanks op cs : List Char} {k : Kind} (hblank : ∀ c ∈ blanks, isBlank c = true)
  (hop : (op, k) ∈ attributeOperators)

include hblank hop

/-- Neither white space nor an operator goes on an identifier. -/
theorem head_operator : ∀ c ∈ (blanks ++ (op ++ cs)).head?,
    isNameChar c = false ∧ c ≠ '?' ∧ c ≠ '!' := by
  cases blanks with
  | nil =>
      have hall : ∀ a ∈ attributeOperators, ∀ c ∈ a.1.head?,
          isNameChar c = false ∧ c ≠ '?' ∧ c ≠ '!' := by
        simp [attributeOperators, isNameChar]
      obtain ⟨c, tail, _, rfl, _⟩ := begins_operator
        (mem_operators_of_mem_attributeOperators hop).1 (List.prefix_refl op)
      exact hall _ hop
  | cons b blanks =>
      have hb := hblank b List.mem_cons_self
      simp only [isBlank, Bool.or_eq_true, beq_iff_eq] at hb
      rintro _ ⟨⟩
      rcases hb with ((rfl | rfl) | rfl) | rfl <;> decide

/-- If an equals sign comes first, it is the operator. -/
theorem behind_equals {rest : List Char} (h : blanks ++ (op ++ cs) = '=' :: rest) : rest = cs := by
  cases blanks with
  | nil =>
      simp only [attributeOperators, List.mem_cons, Prod.mk.injEq, List.not_mem_nil,
        or_false] at hop
      rcases hop with ⟨rfl, _⟩ | ⟨rfl, _⟩ | ⟨rfl, _⟩ | ⟨rfl, _⟩
      all_goals cases h
      rfl
  | cons b blanks =>
      cases h
      exact absurd (hblank '=' List.mem_cons_self) (by decide)

end

/-! ## Names in front of operators -/

/-- A name stands where nothing behind it goes on an identifier, and no equals sign behind it has an
operator behind itself. -/
theorem methodName?_of_isSettable {name cs : List Char} (h : IsSettable name)
    (hcs : ∀ c ∈ cs.head?, isNameChar c = false ∧ c ≠ '?' ∧ c ≠ '!')
    (hequals : ∀ rest, cs = '=' :: rest → operatorFollows rest = false) :
    methodName? (name ++ cs) = some name := by
  cases h with
  | @identifier c body h =>
      have hname : identifier? (c :: body ++ cs) = some (c :: body) := by
        have happend := identifier?_append h fun _ => hcs
        rwa [List.append_nil] at happend
      rw [methodName?_of_identifier? hname]
      by_cases hhead : cs.head? = some '='
      · obtain ⟨rest, rfl⟩ := List.head?_eq_some_iff.mp hhead
        rw [setterName_eq_self_iff.mpr (.inr (.inr (hequals rest rfl)))]
      · rw [setterName_of_head hhead]
  | index =>
      have hindex : ∀ m ∈ operatorNames, ['[', ']'] <+: m →
          m = ['[', ']'] ∨ m = ['[', ']', '='] := by
        decide
      rw [List.cons_append, methodName?_of_not_isNameStart (by decide), ← List.cons_append]
      apply operatorName?_append (mem_attributeNames_iff.mpr ⟨by decide, by simp⟩)
      intro m hm hle hbegins
      obtain ⟨hm, hfollows⟩ := mem_attributeNames_iff.mp hm
      rcases hindex m hm hle with rfl | rfl
      · rfl
      · obtain ⟨rest, hrest⟩ := hbegins
        obtain rfl : cs = '=' :: rest := by simpa using hrest.symm
        have hnot := hequals rest rfl
        rw [show operatorFollows rest = true from hfollows rfl] at hnot
        cases hnot

/-- A name with an equals sign stands before an operator. -/
theorem methodName?_setter {name cs : List Char} (h : IsSettable name)
    (hcs : operatorFollows cs = true) :
    methodName? (name ++ ['='] ++ cs) = some (name ++ ['=']) := by
  rw [List.append_assoc, List.singleton_append]
  cases h with
  | @identifier c body h =>
      have hequals : ∀ d ∈ ('=' :: cs).head?, isNameChar d = false ∧ d ≠ '?' ∧ d ≠ '!' := by
        rintro _ ⟨⟩
        decide
      have hname : identifier? (c :: body ++ '=' :: cs) = some (c :: body) := by
        have happend := identifier?_append h fun _ => hequals
        rwa [List.append_nil] at happend
      rw [methodName?_of_identifier? hname, setterName_equals (h.getLast?_ne (by decide))
        (h.getLast?_ne (by decide)) hcs]
  | index =>
      have hset : ∀ m ∈ operatorNames, ['[', ']', '='] <+: m → m = ['[', ']', '='] := by decide
      rw [List.cons_append, methodName?_of_not_isNameStart (by decide)]
      refine operatorName?_append (l := ['[', ']', '=']) ?_ fun m hm hle _ => ?_
      · exact mem_attributeNames_iff.mpr ⟨by decide, fun _ => hcs⟩
      · exact hset m (mem_attributeNames_iff.mp hm).1 hle

end Token

open Token

namespace Cursor

theorem skipBlank_append {blanks cs : List Char} (hblank : ∀ c ∈ blanks, isBlank c = true)
    (hcs : ∀ c ∈ cs.head?, isBlank c = false) (offset : Nat) :
    skipBlank ⟨offset, blanks ++ cs⟩ = ⟨offset + utf8Length blanks, cs⟩ := by
  rw [skipBlank, takeWhile_append_of_head hblank hcs, advance_append]

/-- The lexeme behind white space is the answer to a request, and the next request goes on behind
it. -/
theorem answers_of_scan? {request : Request} {blanks l rest : List Char} {k : Kind}
    (hblank : ∀ c ∈ blanks, isBlank c = true) (h : scan? request (l ++ rest) = some (k, l))
    (offset : Nat) (requests : List Request) :
    answers ⟨offset, blanks ++ (l ++ rest)⟩ (request :: requests) =
      .ok (some ⟨k, l, offset + utf8Length blanks⟩) ::
        answers ⟨offset + utf8Length blanks + utf8Length l, rest⟩ requests := by
  have hskip : skipBlank ⟨offset, blanks ++ (l ++ rest)⟩ =
      ⟨offset + utf8Length blanks, l ++ rest⟩ := by
    obtain ⟨c, tail, ds, _, hrest, _, hc⟩ := begins_scan h
    refine skipBlank_append hblank ?_ offset
    rw [hrest]
    rintro _ ⟨⟩
    simpa using hc
  have htoken : token ⟨offset + utf8Length blanks, l ++ rest⟩ k l =
      (⟨k, l, offset + utf8Length blanks⟩,
        ⟨offset + utf8Length blanks + utf8Length l, rest⟩) := by
    rw [token, advance_append]
  rw [answers_cons]
  rcases reply_cases ⟨offset, blanks ++ (l ++ rest)⟩ request with
    ⟨j, m, hscan, hreply, hbehind⟩ | ⟨hscan, _⟩
  · rw [hskip, h] at hscan
    cases hscan
    rw [hreply, hbehind, hskip, htoken]
  · rw [hskip, h] at hscan
    cases hscan

/-- Where an attribute operator stands behind a name, with any white space between the two, they are
read as the name and the operator, if no other attribute operator comes next. An equals sign right
behind the name is part of it then, whatever comes next. -/
theorem answers_name_operator {name blanks op blanks' rest : List Char} {k : Kind}
    (hname : IsSettable name) (hblank : ∀ c ∈ blanks, isBlank c = true)
    (hop : (op, k) ∈ attributeOperators) (hblank' : ∀ c ∈ blanks', isBlank c = true)
    (offset : Nat) :
    (¬ BeginsWithOperator rest →
      answers ⟨offset, name ++ (blanks ++ (op ++ (blanks' ++ rest)))⟩ [.name, .token] =
        [.ok (some ⟨.methodName, name, offset⟩),
          .ok (some ⟨k, op, offset + utf8Length (name ++ blanks)⟩)]) ∧
      answers ⟨offset, name ++ '=' :: (blanks ++ (op ++ (blanks' ++ rest)))⟩ [.name, .token] =
        [.ok (some ⟨.methodName, name ++ ['='], offset⟩),
          .ok (some ⟨k, op, offset + utf8Length (name ++ '=' :: blanks)⟩)] := by
  obtain ⟨hmem, hfree, _⟩ := mem_operators_of_mem_attributeOperators hop
  -- the operator is read in the same way behind every name
  have hread (l : List Char)
      (h : methodName? (l ++ (blanks ++ (op ++ (blanks' ++ rest)))) = some l) :
      answers ⟨offset, l ++ (blanks ++ (op ++ (blanks' ++ rest)))⟩ [.name, .token] =
        [.ok (some ⟨.methodName, l, offset⟩),
          .ok (some ⟨k, op, offset + utf8Length (l ++ blanks)⟩)] := by
    have hscan : scan? .name (l ++ (blanks ++ (op ++ (blanks' ++ rest)))) =
        some (.methodName, l) := by
      rw [scan?, h]
    have hnext := answers_of_scan? (List.forall_mem_nil _) hscan offset [.token]
    rw [List.nil_append] at hnext
    have hscan' : scan? .token (op ++ (blanks' ++ rest)) = some (k, op) :=
      lexeme?_of_isFree hmem hfree _
    rw [hnext, answers_of_scan? hblank hscan', utf8Length_append, ← Nat.add_assoc]
    rfl
  constructor
  · intro hrest
    apply hread
    refine methodName?_of_isSettable hname (head_operator hblank hop) fun behind h => ?_
    rw [behind_equals hblank hop h, operatorFollows_blank hblank', Bool.eq_false_iff]
    exact fun hfollows => hrest (operatorFollows_iff.mp hfollows)
  · have hsetter := methodName?_setter hname (operatorFollows_iff.mpr
      ⟨blanks, op, k, blanks' ++ rest, hblank, hop, rfl⟩)
    have hanswers := hread _ hsetter
    rwa [List.append_assoc, List.append_assoc] at hanswers

/-- The index operator as a name in front of an equals sign, and as the name of a setter. -/
theorem answers_index_equals :
    (IsSettable ['[', ']'] ∧ (∀ c ∈ ['\n'], isBlank c = true) ∧
      (['='], .equals) ∈ attributeOperators ∧ ¬ BeginsWithOperator ['4', '2']) ∧
    answers ⟨3, ['[', ']', '=', '\n', '4', '2']⟩ [.name, .token] =
      [.ok (some ⟨.methodName, ['[', ']'], 3⟩), .ok (some ⟨.equals, ['='], 5⟩)] ∧
    answers ⟨3, ['[', ']', '=', '=', '\n', '4', '2']⟩ [.name, .token] =
      [.ok (some ⟨.methodName, ['[', ']', '='], 3⟩), .ok (some ⟨.equals, ['='], 6⟩)] := by
  have hblank : ∀ c ∈ ['\n'], isBlank c = true := by simp [isBlank]
  have hop : (['='], .equals) ∈ attributeOperators := by decide
  have hrest : ¬ BeginsWithOperator ['4', '2'] := by
    rw [← operatorFollows_iff]
    decide
  obtain ⟨hname, hsetter⟩ : (¬ BeginsWithOperator ['4', '2'] → _) ∧ _ :=
    answers_name_operator .index (List.forall_mem_nil _) hop hblank 3
  exact ⟨⟨.index, hblank, hop, hrest⟩, hname hrest, hsetter⟩

end Cursor

end TreePattern
