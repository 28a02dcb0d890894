import TreePattern.Proofs.Matching.Meaning
import TreePattern.Proofs.Printing.Canonical
import TreePattern.Proofs.Regex.Literal
import TreePattern.Proofs.Tree.SelfMatch

/-! Constraints that ask for a literal text. A node with such a constraint accepts the trees of its
class whose attribute holds a text in which the literal stands at the place that the operator says,
as a string for a string and as a symbol for a symbol. -/

namespace TreePattern

open Token (Kind)
open Terminal (plain name)
open Piece (tight spaced)
open Grammar (Adjacent Continues IsConstraint IsExpression IsOperand Separated)

/-! ## Operators -/

namespace Anchor

/-- The operator that asks for a text at the place. -/
def operator : Anchor → String
  | start => "^="
  | stop => "$="
  | anywhere => "*="

def kind : Anchor → Kind
  | start => .startsWith
  | stop => .endsWith
  | anywhere => .contains

theorem mem_operators (a : Anchor) : (a.operator.toList, a.kind) ∈ Token.operators := by
  cases a <;> decide

theorem isAttributeOperator_kind (a : Anchor) : a.kind.isAttributeOperator = true := by
  cases a <;> rfl

theorem isOpener_kind (a : Anchor) : Grammar.isOpener a.kind = true := by
  cases a <;> rfl

theorem anchor?_kind (a : Anchor) : Grammar.anchor? a.kind = some a := by
  cases a <;> rfl

end Anchor

/-! ## Literals -/

/-- A literal as it is written, with the scalars it asks for and the text it stands for. -/
inductive IsLiteral : String → (String → Scalar) → String → Prop where
  | symbol {x : String} (h : Token.IsSymbol (':' :: x.toList)) : IsLiteral (":" ++ x) .symbol x
  | string {l : String} (h : Token.IsString l.toList) :
      IsLiteral l .string (.ofList (Quoted.value l.toList))

theorem Terminal.stands_of_isString {l : List Char} (h : Token.IsString l) :
    (plain .string l).Stands := by
  intro cs _
  apply Token.lexeme?_of_string?
  obtain ⟨quote, body, rfl | rfl, rfl, hbody⟩ := h
  all_goals
    have hquoted := (Token.quoted?_eq_some_iff (by decide)).mpr ⟨body, cs, hbody, rfl, rfl⟩
    simp [plain, Token.string?, hquoted]

/-- The kind of token that a literal is written as, and what it denotes as an operand. -/
theorem IsLiteral.exists_kind {l x : String} {make : String → Scalar} (h : IsLiteral l make x) :
    ∃ k, (k = .symbol ∨ k = .string) ∧ (plain k l.toList).Stands ∧ ∀ {limit anchor p},
      IsOperand limit anchor [plain k l.toList] p → ∃ kind r, p = .regexp kind r ∧
        Regexp.compile? (.ofList (anchor.source x.toList)) {} limit = some r ∧
          ∀ v s, kind.text? v = some s ↔ v = .scalar (make s) := by
  cases h with
  | symbol h =>
      have hspelled : Scalar.Spelled (.symbol x) := by
        rintro _ ⟨⟩
        exact h
      rw [String.toList_append]
      refine ⟨.symbol, .inl rfl, Grammar.stands_scalar hspelled, fun hoperand => ?_⟩
      cases hoperand with
      | @symbol _ _ r h =>
          refine ⟨.symbol, r, rfl, h, fun v s => ?_⟩
          rcases v with (_ | _ | _ | _ | _) | _ | _ <;> simp [TextKind.text?]
  | string h =>
      refine ⟨.string, .inr rfl, Terminal.stands_of_isString h, fun hoperand => ?_⟩
      cases hoperand with
      | @string _ _ r h =>
          refine ⟨.string, r, rfl, by rwa [String.toList_ofList], fun v s => ?_⟩
          rcases v with (_ | _ | _ | _ | _) | _ | _ <;> simp [TextKind.text?]

/-! ## Terminals of the constraint -/

/-- A node with one constraint, which has a literal behind its operator. -/
def literalPieces (c a : List Char) (anchor : Anchor) (k : Kind) (l : List Char) : List Piece :=
  [tight .className c, tight .leftAngle ['<'], ⟨name a, 0⟩,
    spaced anchor.kind anchor.operator.toList, tight k l, tight .rightAngle ['>']]

section

variable {c a l : List Char} {anchor : Anchor} {k : Kind}

theorem text_literalPieces (hk : k = .symbol ∨ k = .string) :
    Piece.text (literalPieces c a anchor k l) =
      c ++ '<' :: (a ++ ' ' :: (anchor.operator.toList ++ ' ' :: (l ++ ['>']))) := by
  have hname : (⟨name a, 0⟩ : Piece).chars = a := by
    simp [Piece.chars, Terminal.indent, name, Kind.isAttributeOperator]
  have hoperator : (spaced anchor.kind anchor.operator.toList).chars =
      ' ' :: (anchor.operator.toList ++ [' ']) := by
    simp [spaced, Piece.chars, Terminal.indent, plain, anchor.isAttributeOperator_kind]
  have hliteral : (tight k l).chars = l := by
    apply Pattern.chars_tight
    rcases hk with rfl | rfl <;> rfl
  simp [literalPieces, Pattern.chars_tight (k := .className) rfl,
    Pattern.chars_tight (k := .leftAngle) rfl, Pattern.chars_tight (k := .rightAngle) rfl, hname,
    hoperator, hliteral]

theorem chain_literalPieces (hk : k = .symbol ∨ k = .string) :
    (plain .pipe [] :: (literalPieces c a anchor k l).map Piece.terminal).IsChain Adjacent := by
  have hstart : Grammar.isStart k = true ∧ Grammar.isEnd k = true := by
    rcases hk with rfl | rfl <;> decide
  have hoperand : Adjacent (plain anchor.kind anchor.operator.toList) (plain k l) := by
    refine Grammar.adjacent_start ⟨rfl, anchor.isOpener_kind⟩ ⟨rfl, hstart.1⟩ fun hcomma => ?_
    cases anchor <;> cases hcomma
  exact .cons_cons (Grammar.adjacent_start ⟨rfl, rfl⟩ ⟨rfl, rfl⟩ nofun)
    (.cons_cons (Grammar.adjacent_angle c ⟨rfl, rfl⟩)
      (.cons_cons (Grammar.adjacent_name ⟨rfl, rfl⟩ a)
        (.cons_cons (Grammar.adjacent_operator a ⟨rfl, anchor.isAttributeOperator_kind⟩)
          (.cons_cons hoperand
            (.cons_cons (Grammar.adjacent_link ⟨rfl, hstart.2⟩ ⟨rfl, rfl⟩) (.singleton _))))))

theorem stands_literalPieces (hc : Token.IsClassName c) (ha : Token.IsAttributeName a)
    (hl : (plain k l).Stands) : ∀ p ∈ literalPieces c a anchor k l, p.terminal.Stands := by
  simp only [literalPieces, List.forall_mem_cons, List.not_mem_nil, false_implies, implies_true,
    and_true]
  exact ⟨Pattern.stands_tight_className hc, Terminal.stands_operator (by decide),
    Terminal.stands_attributeName ha, Terminal.stands_operator anchor.mem_operators, hl,
    Terminal.stands_operator (by decide)⟩

theorem kind_of_mem_literalPieces (hk : k = .symbol ∨ k = .string) :
    ∀ p ∈ literalPieces c a anchor k l,
      p.terminal.kind ∉ [Kind.question, .star] ++ [.pipe, .comma] := by
  have hkinds : ∀ j ∈ [Kind.className, .leftAngle, .methodName, anchor.kind, k, .rightAngle],
      j ∉ [Kind.question, .star] ++ [.pipe, .comma] := by
    cases anchor <;> rcases hk with rfl | rfl <;> decide
  exact fun p hp => hkinds _ (List.mem_map_of_mem (f := fun p => p.terminal.kind) hp)

theorem balanced_literalPieces (hk : k = .symbol ∨ k = .string) :
    Grammar.Balanced ((literalPieces c a anchor k l).map Piece.terminal) := by
  cases anchor <;> rcases hk with rfl | rfl <;> rfl

/-- What is read from the text is derived from its pieces: a symbol that becomes longer by the
bracket behind it leaves the brackets unbalanced. -/
theorem derives_literalPieces {options : Options} {text : String} {p : Pattern}
    (hc : Token.IsClassName c) (ha : Token.IsAttributeName a) (hl : (plain k l).Stands)
    (hk : k = .symbol ∨ k = .string)
    (htext : text.toList = Piece.text (literalPieces c a anchor k l))
    (h : Pattern.parse options text = .ok p) :
    IsExpression options.regexSizeLimit options.maxDepth
      ((literalPieces c a anchor k l).map Piece.terminal) p := by
  have hnil : ∀ d ∈ ([] : List Char), Token.isBlank d = true := nofun
  have hfuse : Continues (plain .pipe []) text.toList
      (Piece.fuse (literalPieces c a anchor k l)) := by
    rw [htext]
    refine Piece.continues_fuse hnil (chain_literalPieces hk) ?_ (stands_literalPieces hc ha hl)
    rintro _ ⟨⟩
    rfl
  obtain ⟨hts, _⟩ := Pattern.derives_of_continues hfuse h
  have hkind : ∀ q ∈ literalPieces c a anchor k l, q.terminal.kind ∉ [Kind.question, .star] :=
    fun q hq hmem => kind_of_mem_literalPieces hk q hq (List.mem_append_left _ hmem)
  have hapart := Piece.apart_of_balanced hkind (balanced_literalPieces hk) hts.balanced
  rwa [Piece.fuse_of_apart hapart] at hts

end

/-! ## Reading the constraint -/

namespace Grammar

variable {limit : Nat} {E : List Terminal → Pattern → Prop} {ts : List Terminal} {p : Pattern}

/-- Without a separator there is only one derivation. -/
theorem Separated.eq_singleton {α : Type} {separator : Kind} {One : List Terminal → α → Prop}
    {xs : List α} (h : Separated separator One ts xs)
    (hseparator : ∀ t ∈ ts, t.kind ≠ separator) : ∃ x, xs = [x] ∧ One ts x := by
  cases h with
  | last h => exact ⟨_, rfl, h⟩
  | more l h hmore => exact absurd rfl (hseparator (plain separator l) (by simp))

theorem IsPrimary.of_className {c : List Char}
    (h : IsPrimary limit E (plain .className c :: ts) p) :
    ∃ as, p = .node ⟨.ofList c, Node.lastValues as⟩ ∧ IsAttributes limit E ts as := by
  cases h with
  | scalar h => cases h
  | node l h => exact ⟨_, rfl, h⟩

theorem IsAttributes.of_leftAngle {l l' : List Char} {as : List (String × Pattern)}
    (h : IsAttributes limit E (plain .leftAngle l :: (ts ++ [plain .rightAngle l'])) as) :
    Separated .comma (IsConstraint limit E) ts as := by
  generalize heq : plain .leftAngle l :: (ts ++ [plain .rightAngle l']) = us at h
  cases h with
  | absent => cases heq
  | present _ _ h =>
      obtain ⟨rfl, _⟩ := List.append_inj' (List.cons.inj heq).2 rfl
      exact h

theorem IsConstraint.of_kind {a o : List Char} {anchor : Anchor} {b : String × Pattern}
    (h : IsConstraint limit E (name a :: plain anchor.kind o :: ts) b) :
    ∃ q, b = (.ofList a, q) ∧ IsOperand limit anchor ts q := by
  generalize heq : anchor.kind = k at h
  cases h with
  | equals => cases anchor <;> cases heq
  | matching _ _ hop h =>
      rw [← heq, anchor.anchor?_kind] at hop
      cases hop
      exact ⟨_, rfl, h⟩

theorem IsExpression.of_literalPieces {levels : Nat} {c a l : List Char} {anchor : Anchor}
    {k : Kind} (hk : k = .symbol ∨ k = .string)
    (h : IsExpression limit levels ((literalPieces c a anchor k l).map Piece.terminal) p) :
    ∃ q, p = .node ⟨.ofList c, [(.ofList a, q)]⟩ ∧ IsOperand limit anchor [plain k l] q := by
  have hkind : ∀ t ∈ (literalPieces c a anchor k l).map Piece.terminal,
      t.kind ∉ [Kind.question, .star] ++ [.pipe, .comma] :=
    List.forall_mem_map.mpr (kind_of_mem_literalPieces hk)
  cases levels with
  | zero => exact absurd h id
  | succ levels =>
      obtain ⟨ps, hps, hchoice⟩ := h
      obtain ⟨p', rfl, hprimary⟩ := hps.eq_singleton fun t ht hpipe => hkind t ht (by simp [hpipe])
      cases hchoice
      obtain ⟨as, rfl, has⟩ := hprimary.of_className
      have hconstraints : Separated .comma (IsConstraint limit (IsExpression limit levels))
          [name a, plain anchor.kind anchor.operator.toList, plain k l] as := has.of_leftAngle
      obtain ⟨b, rfl, hb⟩ := hconstraints.eq_singleton fun t ht hcomma =>
        hkind t (List.mem_cons_of_mem _ (List.mem_cons_of_mem _ (List.mem_append_left _ ht)))
          (by simp [hcomma])
      obtain ⟨q, rfl, hq⟩ := hb.of_kind
      have hnames : ([(String.ofList a, q)].map (·.1)).Nodup := List.nodup_singleton _
      rw [Node.lastValues_of_nodup hnames]
      exact ⟨q, rfl, hq⟩

end Grammar

namespace Pattern

variable {options : Options} {className key literal x : String} {make : String → Scalar}

/-- What a literal asks for is a text of its own sort, whole and with every character as itself, at
the place that the operator says. -/
theorem acceptsTree_literal_iff (anchor : Anchor) (p : Pattern)
    (hclass : Token.IsClassName className.toList) (hkey : Token.IsAttributeName key.toList)
    (hliteral : IsLiteral literal make x)
    (h : parse options
      (className ++ "<" ++ key ++ " " ++ anchor.operator ++ " " ++ literal ++ ">") = .ok p)
    (t : Tree) : p.acceptsTree t = true ↔ t.className = className ∧
      ∃ s, t.get? key = some (.scalar (make s)) ∧ anchor.Occurs x.toList s.toList := by
  obtain ⟨k, hk, hstands, hoperand⟩ := hliteral.exists_kind
  have htext : (className ++ "<" ++ key ++ " " ++ anchor.operator ++ " " ++ literal ++ ">").toList =
      Piece.text (literalPieces className.toList key.toList anchor k literal.toList) := by
    rw [text_literalPieces hk]
    simp
  obtain ⟨q, rfl, hq⟩ :=
    (derives_literalPieces hclass hkey hstands hk htext h).of_literalPieces hk
  obtain ⟨kind, r, rfl, hr, hkind⟩ := hoperand hq
  have hregexp (v : Value) : (regexp kind r).accepts v = true ↔
      ∃ s, v = .scalar (make s) ∧ anchor.Occurs x.toList s.toList := by
    simp only [accepts, Option.any_eq_true, hkind, Regexp.isMatch_source_iff hr]
  rw [acceptsTree, accepts, nodeAccepts, Bool.and_eq_true, beq_iff_eq, attributesAccept_iff,
    List.forall_mem_singleton, String.ofList_toList, String.ofList_toList]
  simp only [hregexp]
  constructor
  · rintro ⟨hc, _, hv, s, rfl, hs⟩
    exact ⟨hc.symm, s, hv, hs⟩
  · rintro ⟨hc, s, hv, hs⟩
    exact ⟨hc.symm, _, hv, s, rfl, hs⟩

/-- A literal with a parenthesis, a dot, a line feed and a slash. -/
theorem acceptsTree_literal_iff_metacharacters : Token.IsClassName "Foo".toList ∧
    Token.IsAttributeName "a".toList ∧ IsLiteral "\"(.\\n/\"" .string "(.\n/" ∧
      ∃ p, parse {} "Foo<a ^= \"(.\\n/\">" = .ok p ∧ ∀ t : Tree, p.acceptsTree t = true ↔
        t.className = "Foo" ∧ ∃ s, t.get? "a" = some (.scalar (.string s)) ∧
          Anchor.start.Occurs "(.\n/".toList s.toList := by
  have hclass : Token.IsClassName "Foo".toList :=
    ⟨'F', ['o', 'o'], rfl, by decide, List.all_eq_true.mp rfl⟩
  have hkey : Token.IsAttributeName "a".toList :=
    @Token.IsAttributeName.identifier 'a' [] [] ⟨by decide, nofun, by simp⟩
  have hstring : Token.IsString "\"(.\\n/\"".toList :=
    ⟨'"', "(.\\n/".toList, .inr rfl, rfl, .cons (by decide) (by decide)
      (.cons (by decide) (by decide) (.pair 'n' (.cons (by decide) (by decide) .nil)))⟩
  have hvalue : String.ofList (Quoted.value "\"(.\\n/\"".toList) = "(.\n/" := by decide +kernel
  have hliteral : IsLiteral "\"(.\\n/\"" .string "(.\n/" := hvalue ▸ .string hstring
  have hsome : (parse {} "Foo<a ^= \"(.\\n/\">").toOption.isSome = true := by decide +kernel
  cases hparse : parse {} "Foo<a ^= \"(.\\n/\">" with
  | error e =>
      rw [hparse] at hsome
      cases hsome
  | ok p =>
      exact ⟨hclass, hkey, hliteral, p, rfl,
        acceptsTree_literal_iff .start p hclass hkey hliteral hparse⟩

end Pattern

end TreePattern
