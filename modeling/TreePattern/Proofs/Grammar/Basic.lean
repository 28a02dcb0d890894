import TreePattern.Pattern.Parser
import TreePattern.Proofs.Token.Tiling
import TreePattern.Proofs.Tree.Attributes

/-! The grammar of patterns, together with what its derivations mean. `IsExpression limit levels ts
p` says that the terminals `ts` are derived from an expression with at most `levels` expressions
inside each other, and that the derivation denotes the pattern `p`. -/

namespace TreePattern

/-- A terminal of regular scanning. -/
def Terminal.plain (kind : Token.Kind) (lexeme : List Char) : Terminal := ⟨.token, kind, lexeme⟩

/-- A terminal that names an attribute. -/
def Terminal.name (lexeme : List Char) : Terminal := ⟨.name, .methodName, lexeme⟩

namespace Grammar

open Token (Kind)
open Terminal (plain name)

variable {α : Type} {limit : Nat}

/-- One or more derivations with separators of the given kind between them. -/
inductive Separated (separator : Kind) (One : List Terminal → α → Prop) :
    List Terminal → List α → Prop where
  | last {ts x} (h : One ts x) : Separated separator One ts [x]
  | more {ts us x xs} (l) (h : One ts x) (hmore : Separated separator One us xs) :
      Separated separator One (ts ++ plain separator l :: us) (x :: xs)

/-- Every element of a list with separators has a derivation from a stretch of its terminals. -/
theorem Separated.mem_infix {separator : Kind} {One : List Terminal → α → Prop}
    {ts : List Terminal} {xs : List α} (h : Separated separator One ts xs) :
    ∀ x ∈ xs, ∃ us, us <:+: ts ∧ One us x := by
  induction h with
  | @last ts x h => exact List.forall_mem_singleton.mpr ⟨ts, List.infix_refl ts, h⟩
  | @more ts us x xs l h _ ih =>
      have htail : us <:+: ts ++ plain separator l :: us :=
        ⟨ts ++ [plain separator l], [], by simp⟩
      refine List.forall_mem_cons.mpr ⟨⟨ts, (List.prefix_append _ _).isInfix, h⟩, fun y hy => ?_⟩
      obtain ⟨vs, hvs, hy⟩ := ih y hy
      exact ⟨vs, hvs.trans htail, hy⟩

theorem Separated.mem {separator : Kind} {One : List Terminal → α → Prop} {ts : List Terminal}
    {xs : List α} (h : Separated separator One ts xs) : ∀ x ∈ xs, ∃ us ⊆ ts, One us x := by
  intro x hx
  obtain ⟨us, hus, h⟩ := h.mem_infix x hx
  exact ⟨us, hus.subset, h⟩

theorem Separated.ne_nil {separator : Kind} {One : List Terminal → α → Prop} {ts : List Terminal}
    {xs : List α} (h : Separated separator One ts xs) : xs ≠ [] := by
  cases h <;> exact List.cons_ne_nil _ _

/-- A derivation that may be left out. -/
inductive Optional (One : List Terminal → α → Prop) : List Terminal → Option α → Prop where
  | absent : Optional One [] none
  | present {ts x} (h : One ts x) : Optional One ts (some x)

/-! ## Scalars and regular expressions -/

inductive IsScalar : List Terminal → Scalar → Prop where
  | integer {l n} (h : Numeral.value? l = some n) : IsScalar [plain .integer l] (.integer n)
  | string (l) : IsScalar [plain .string l] (.string (.ofList (Quoted.value l)))
  | symbol (l) : IsScalar [plain .symbol l] (.symbol (.ofList (l.drop 1)))
  | true (l) : IsScalar [plain .trueKeyword l] (.bool true)
  | false (l) : IsScalar [plain .falseKeyword l] (.bool false)
  | nil (l) : IsScalar [plain .nilKeyword l] .nil

/-- What may stand behind an operator other than the equals sign. -/
inductive IsOperand (limit : Nat) : Anchor → List Terminal → Pattern → Prop where
  | symbol {anchor l r}
      (h : Regexp.compile? (.ofList (anchor.source (l.drop 1))) {} limit = some r) :
      IsOperand limit anchor [plain .symbol l] (.regexp .symbol r)
  | string {anchor l r}
      (h : Regexp.compile? (.ofList (anchor.source (Quoted.value l))) {} limit = some r) :
      IsOperand limit anchor [plain .string l] (.regexp .string r)
  | regexp {l r}
      (h : Regexp.compile? (.ofList (Regexp.split l).1) (Regexp.split l).2 limit = some r) :
      IsOperand limit .anywhere [plain .regexp l] (.regexp .either r)

/-- Where the operand of an operator has to occur. -/
def anchor? : Kind → Option Anchor
  | .startsWith => some .start
  | .endsWith => some .stop
  | .contains => some .anywhere
  | _ => none

/-! ## Quantifiers -/

/-- A repetition count is a numeral of 64 bits without a negative value. -/
inductive IsCount : List Terminal → Nat → Prop where
  | numeral {l n} (h : Numeral.value? l = some n) (hn : 0 ≤ n.toInt) :
      IsCount [plain .integer l] n.toInt.toNat

/-- A quantifier behind its opening brace. -/
inductive IsBraced : List Terminal → Quantifier → Prop where
  | even (l l') : IsBraced [plain .evenKeyword l, plain .rightBrace l'] .even
  | odd (l l') : IsBraced [plain .oddKeyword l, plain .rightBrace l'] .odd
  | exactly {ts n} (l) (h : IsCount ts n) : IsBraced (ts ++ [plain .rightBrace l]) (.exactly n)
  | between {ts us min} {q : Quantifier} (l l') (hmin : Optional IsCount ts min)
      (hmax : Optional IsCount us q.max) (hq : q.min = min.getD 0) (hstep : q.step = 1) :
      IsBraced (ts ++ plain .comma l :: (us ++ [plain .rightBrace l'])) q

inductive IsQuantifier : List Terminal → Quantifier → Prop where
  | zeroOrMore (l) : IsQuantifier [plain .star l] .zeroOrMore
  | oneOrMore (l) : IsQuantifier [plain .plus l] .oneOrMore
  | optional (l) : IsQuantifier [plain .question l] .optional
  | braced {ts q} (l) (h : IsBraced ts q) : IsQuantifier (plain .leftBrace l :: ts) q

/-! ## Patterns

The relations of this section have a parameter `E` for the expressions inside of what they
derive. -/

section

variable (limit : Nat) (E : List Terminal → Pattern → Prop)

inductive IsConstraint : List Terminal → String × Pattern → Prop where
  | equals {ts p} (a l) (h : E ts p) :
      IsConstraint (name a :: plain .equals l :: ts) (.ofList a, p)
  | matching {k anchor ts p} (a l) (hop : anchor? k = some anchor)
      (h : IsOperand limit anchor ts p) :
      IsConstraint (name a :: plain k l :: ts) (.ofList a, p)

/-- The constraints behind a class name, in angle brackets. -/
inductive IsAttributes : List Terminal → List (String × Pattern) → Prop where
  | absent : IsAttributes [] []
  | present {ts as} (l l') (h : Separated .comma (IsConstraint limit E) ts as) :
      IsAttributes (plain .leftAngle l :: (ts ++ [plain .rightAngle l'])) as

inductive IsItem : List Terminal → Item Pattern → Prop where
  | one {ts p} (h : E ts p) : IsItem ts (.one p)
  | many {ts us p q} (h : E ts p) (hq : IsQuantifier us q) : IsItem (ts ++ us) (.many q p)

/-- The items of an array with the bracket that closes it. -/
inductive IsItems : List Terminal → List (Item Pattern) → Prop where
  | nil (l) : IsItems [plain .rightBracket l] []
  | cons {ts xs} (l) (h : Separated .comma (IsItem E) ts xs) :
      IsItems (ts ++ [plain .rightBracket l]) xs

inductive IsPrimary : List Terminal → Pattern → Prop where
  | any (l) : IsPrimary [plain .anyKeyword l] .any
  | scalar {ts s} (h : IsScalar ts s) : IsPrimary ts (.scalar s)
  | node {ts as} (l) (h : IsAttributes limit E ts as) :
      IsPrimary (plain .className l :: ts) (.node ⟨.ofList l, Node.lastValues as⟩)
  | array {ts xs} (l) (h : IsItems E ts xs) : IsPrimary (plain .leftBracket l :: ts) (.array xs)

end

/-- Two or more alternatives make one flat choice. -/
inductive IsChoice : List Pattern → Pattern → Prop where
  | single (p) : IsChoice [p] p
  | choice (p q ps) : IsChoice (p :: q :: ps) (.choice p (q :: ps))

def IsExpression (limit : Nat) : (levels : Nat) → List Terminal → Pattern → Prop
  | 0, _, _ => False
  | levels + 1, ts, p =>
    ∃ ps, Separated .pipe (IsPrimary limit (IsExpression limit levels)) ts ps ∧ IsChoice ps p

/-! ## First terminals -/

/-- Whether a primary may begin with a token of the kind. -/
def beginsPrimary (k : Kind) : Bool :=
  k ∈ [.className, .leftBracket, .anyKeyword, .integer, .string, .symbol, .trueKeyword,
    .falseKeyword, .nilKeyword]

/-- The first terminal is one that a primary may begin with. -/
def Opens (ts : List Terminal) : Prop := ∃ k l us, ts = plain k l :: us ∧ beginsPrimary k = true

theorem Opens.append {ts : List Terminal} (h : Opens ts) (us : List Terminal) :
    Opens (ts ++ us) := by
  obtain ⟨k, l, vs, rfl, hk⟩ := h
  exact ⟨k, l, vs ++ us, rfl, hk⟩

theorem Separated.opens {separator : Kind} {One : List Terminal → α → Prop} {ts : List Terminal}
    {xs : List α} (hone : ∀ {us x}, One us x → Opens us) (h : Separated separator One ts xs) :
    Opens ts := by
  cases h with
  | last h => exact hone h
  | more l h _ => exact (hone h).append _

theorem IsPrimary.opens {E : List Terminal → Pattern → Prop} {ts : List Terminal} {p : Pattern}
    (h : IsPrimary limit E ts p) : Opens ts := by
  cases h with
  | any l => exact ⟨_, l, [], rfl, rfl⟩
  | scalar h => cases h <;> exact ⟨_, _, [], rfl, rfl⟩
  | node l h => exact ⟨_, l, _, rfl, rfl⟩
  | array l h => exact ⟨_, l, _, rfl, rfl⟩

theorem IsItem.opens {E : List Terminal → Pattern → Prop} {ts : List Terminal} {x : Item Pattern}
    (hE : ∀ {us p}, E us p → Opens us) (h : IsItem E ts x) : Opens ts := by
  cases h with
  | one h => exact hE h
  | many h _ => exact (hE h).append _

theorem IsExpression.opens {levels : Nat} {ts : List Terminal} {p : Pattern}
    (h : IsExpression limit levels ts p) : Opens ts := by
  cases levels with
  | zero => exact absurd h id
  | succ levels =>
      obtain ⟨ps, hps, _⟩ := h
      exact hps.opens IsPrimary.opens

end Grammar

end TreePattern
