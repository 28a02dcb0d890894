import TreePattern.Pattern.Printer
import TreePattern.Proofs.Grammar.Basic
import TreePattern.Proofs.Pattern.Induction

/-! Printed patterns as pieces: terminals with spaces between them. -/

namespace TreePattern

open Token (Kind)
open Terminal (plain name)

/-- A terminal, and how many spaces are written behind it. -/
structure Piece where
  terminal : Terminal
  spaces : Nat
  deriving DecidableEq

/-- A bar and the operator of a constraint have a space before them. -/
def Terminal.indent (t : Terminal) : List Char :=
  if t.kind == .pipe || t.kind.isAttributeOperator then [' '] else []

namespace Piece

def chars (p : Piece) : List Char :=
  p.terminal.indent ++ (p.terminal.lexeme ++ List.replicate p.spaces ' ')

/-- The text of pieces one after the other. -/
def text (ps : List Piece) : List Char := ps.flatMap chars

def tight (kind : Kind) (lexeme : List Char) : Piece := ⟨plain kind lexeme, 0⟩

def spaced (kind : Kind) (lexeme : List Char) : Piece := ⟨plain kind lexeme, 1⟩

def bar : Piece := spaced .pipe ['|']

def comma : Piece := spaced .comma [',']

/-- Puts a piece between sequences of pieces. -/
def joined (separator : Piece) : List (List Piece) → List Piece
  | [] => []
  | [ps] => ps
  | ps :: rest => ps ++ separator :: joined separator rest

theorem joined_cons_cons (separator : Piece) (ps qs : List Piece) (rest : List (List Piece)) :
    joined separator (ps :: qs :: rest) = ps ++ separator :: joined separator (qs :: rest) := rfl

theorem mem_joined_of_mem {separator r : Piece} {pss : List (List Piece)} {ps : List Piece}
    (hps : ps ∈ pss) (hr : r ∈ ps) : r ∈ joined separator pss := by
  induction pss with
  | nil => cases hps
  | cons qs rest ih =>
      cases rest with
      | nil => exact List.mem_singleton.mp hps ▸ hr
      | cons qs' rest =>
          rw [joined_cons_cons]
          rcases List.mem_cons.mp hps with rfl | hps
          · exact List.mem_append_left _ hr
          · exact List.mem_append_right _ (List.mem_cons_of_mem _ (ih hps))

theorem mem_joined {separator p : Piece} {pss : List (List Piece)} (h : p ∈ joined separator pss) :
    p = separator ∨ ∃ ps ∈ pss, p ∈ ps := by
  induction pss with
  | nil => cases h
  | cons ps rest ih =>
      cases rest with
      | nil => exact .inr ⟨ps, List.mem_cons_self, h⟩
      | cons qs rest =>
          rw [joined_cons_cons] at h
          rcases List.mem_append.mp h with hps | hrest
          · exact .inr ⟨ps, List.mem_cons_self, hps⟩
          · rcases List.mem_cons.mp hrest with heq | hrest
            · exact .inl heq
            · rcases ih hrest with heq | ⟨rs, hrs, hp⟩
              · exact .inl heq
              · exact .inr ⟨rs, List.mem_cons_of_mem ps hrs, hp⟩

theorem forall_joined {P : Piece → Prop} {separator : Piece} {pss : List (List Piece)}
    (hseparator : P separator) (h : ∀ ps ∈ pss, ∀ p ∈ ps, P p) :
    ∀ p ∈ joined separator pss, P p := by
  intro p hp
  rcases mem_joined hp with rfl | ⟨ps, hps, hp⟩
  · exact hseparator
  · exact h ps hps p hp

/-- What holds of the pieces of a list with commas between them and something at either end. -/
theorem forall_bracketed {P : Piece → Prop} {first last : Piece} {pss : List (List Piece)}
    (hfirst : P first) (hlast : P last) (hcomma : P comma) (h : ∀ ps ∈ pss, ∀ p ∈ ps, P p) :
    ∀ p ∈ first :: (joined comma pss ++ [last]), P p := by
  intro p hp
  simp only [List.mem_cons, List.mem_append, List.not_mem_nil, or_false] at hp
  rcases hp with rfl | hp | rfl
  · exact hfirst
  · exact forall_joined hcomma h p hp
  · exact hlast

@[simp]
theorem text_nil : text [] = [] := rfl

@[simp]
theorem text_cons (p : Piece) (ps : List Piece) : text (p :: ps) = p.chars ++ text ps := rfl

@[simp]
theorem text_append (ps qs : List Piece) : text (ps ++ qs) = text ps ++ text qs :=
  List.flatMap_append

theorem text_joined_bar (pss : List (List Piece)) :
    text (joined bar pss) = Pattern.barSeparated (pss.map text) := by
  induction pss with
  | nil => rfl
  | cons ps rest ih =>
      cases rest with
      | nil => rfl
      | cons qs rest =>
          rw [joined_cons_cons, text_append, text_cons, ih]
          exact (List.append_assoc (text ps) " | ".toList _).symm

theorem text_joined_comma (pss : List (List Piece)) :
    text (joined comma pss) = commaSeparated (pss.map text) := by
  induction pss with
  | nil => rfl
  | cons ps rest ih =>
      cases rest with
      | nil => rfl
      | cons qs rest =>
          rw [joined_cons_cons, text_append, text_cons, ih]
          exact (List.append_assoc (text ps) [',', ' '] _).symm

end Piece

open Piece (tight spaced bar comma joined)

/-! ## Pieces of patterns -/

/-- The kind of token that a scalar is written as. -/
def Scalar.kind : Scalar → Kind
  | nil => .nilKeyword
  | bool true => .trueKeyword
  | bool false => .falseKeyword
  | integer _ => .integer
  | string _ => .string
  | symbol _ => .symbol

namespace Quantifier

def countPiece (n : Nat) : Piece := tight .integer (Numeral.ofNat n)

/-- The comma between the bounds of a quantifier. -/
def commaPiece : Piece := tight .comma [',']

def bracedPieces (ps : List Piece) : List Piece :=
  tight .leftBrace ['\x7b'] :: (ps ++ [tight .rightBrace ['\x7d']])

def pieces (q : Quantifier) : List Piece :=
  match q.min, q.max, q.step with
  | 0, none, 1 => [tight .star ['*']]
  | 1, none, 1 => [tight .plus ['+']]
  | 0, some 1, 1 => [tight .question ['?']]
  | 0, none, 2 => bracedPieces [tight .evenKeyword "even".toList]
  | 1, none, 2 => bracedPieces [tight .oddKeyword "odd".toList]
  | min, none, _ => bracedPieces [countPiece min, commaPiece]
  | min, some max, _ =>
    if min = max then bracedPieces [countPiece min]
    else if min = 0 then bracedPieces [commaPiece, countPiece max]
    else bracedPieces [countPiece min, commaPiece, countPiece max]

theorem text_bracedPieces (ps : List Piece) :
    Piece.text (bracedPieces ps) = '\x7b' :: (Piece.text ps ++ ['\x7d']) := by
  simp [bracedPieces, tight, Piece.chars, Terminal.indent, plain, Kind.isAttributeOperator]

theorem text_pieces (q : Quantifier) : Piece.text q.pieces = q.chars := by
  have hcount (n : Nat) : (countPiece n).chars = Numeral.ofNat n := by
    simp [countPiece, tight, Piece.chars, Terminal.indent, plain, Kind.isAttributeOperator]
  have hcomma : commaPiece.chars = [','] := rfl
  obtain ⟨min, max, step, _, _⟩ := q
  simp only [pieces, chars]
  split
  case h_6 => simp [text_bracedPieces, hcount, hcomma]
  case h_7 =>
    rename_i max _ _
    by_cases heq : min = max
    · simp [text_bracedPieces, hcount, if_pos heq]
    by_cases hzero : min = 0
    · simp [text_bracedPieces, hcount, hcomma, if_neg heq, if_pos hzero]
    · simp [text_bracedPieces, hcount, hcomma, if_neg heq, if_neg hzero]
  all_goals rfl

end Quantifier

namespace Pattern

/-- The operator before a constraint. -/
def operatorPiece : Pattern → Piece
  | regexp _ _ => spaced .contains ['*', '=']
  | _ => spaced .equals ['=']

/-- The constraints of a node in angle brackets, which are left out if there are none. -/
def angled (constraints : List (List Piece)) : List Piece :=
  if constraints.isEmpty then []
  else tight .leftAngle ['<'] :: (joined comma constraints ++ [tight .rightAngle ['>']])

theorem angled_of_ne_nil {pss : List (List Piece)} (h : pss ≠ []) :
    angled pss = tight .leftAngle ['<'] :: (joined comma pss ++ [tight .rightAngle ['>']]) := by
  rw [angled, if_neg (by simpa using h)]

theorem forall_angled {P : Piece → Prop} {pss : List (List Piece)}
    (hleft : P (tight .leftAngle ['<'])) (hright : P (tight .rightAngle ['>'])) (hcomma : P comma)
    (h : ∀ ps ∈ pss, ∀ p ∈ ps, P p) : ∀ p ∈ angled pss, P p := by
  by_cases hnil : pss = []
  · simp [angled, hnil]
  · rw [angled_of_ne_nil hnil]
    exact Piece.forall_bracketed hleft hright hcomma h

mutual

def pieces : Pattern → List Piece
  | any => [tight .anyKeyword "any".toList]
  | scalar s => [tight s.kind s.chars]
  | regexp _ r => [tight .regexp r.chars]
  | node n => nodePieces n
  | choice p ps => joined bar (p.pieces :: alternativesPieces ps)
  | array items =>
    tight .leftBracket ['['] ::
      (joined comma (itemsPieces items) ++ [tight .rightBracket [']']])

def nodePieces : Node Pattern → List Piece
  | ⟨className, attributes⟩ =>
    tight .className className.toList :: angled (attributesPieces attributes)

def attributesPieces : List (String × Pattern) → List (List Piece)
  | [] => []
  | a :: rest => attributePieces a :: attributesPieces rest

def attributePieces : String × Pattern → List Piece
  | (a, p) => ⟨name a.toList, 0⟩ :: p.operatorPiece :: p.pieces

def alternativesPieces : List Pattern → List (List Piece)
  | [] => []
  | p :: ps => p.pieces :: alternativesPieces ps

def itemsPieces : List (Item Pattern) → List (List Piece)
  | [] => []
  | x :: xs => itemPieces x :: itemsPieces xs

def itemPieces : Item Pattern → List Piece
  | .one p => p.pieces
  | .many q p => p.pieces ++ q.pieces

end

theorem attributesPieces_eq (as : List (String × Pattern)) :
    attributesPieces as = as.map attributePieces := by
  induction as with
  | nil => rfl
  | cons a as ih => rw [attributesPieces, ih, List.map_cons]

theorem alternativesPieces_eq (ps : List Pattern) : alternativesPieces ps = ps.map pieces := by
  induction ps with
  | nil => rfl
  | cons p ps ih => rw [alternativesPieces, ih, List.map_cons]

theorem itemsPieces_eq (xs : List (Item Pattern)) : itemsPieces xs = xs.map itemPieces := by
  induction xs with
  | nil => rfl
  | cons x xs ih => rw [itemsPieces, ih, List.map_cons]

theorem pieces_node (className : String) (as : List (String × Pattern)) :
    (node ⟨className, as⟩).pieces =
      tight .className className.toList :: angled (as.map attributePieces) := by
  rw [pieces, nodePieces, attributesPieces_eq]

theorem pieces_choice (p : Pattern) (ps : List Pattern) :
    (choice p ps).pieces = joined bar ((p :: ps).map pieces) := by
  rw [pieces, alternativesPieces_eq, List.map_cons]

theorem pieces_array (xs : List (Item Pattern)) :
    (array xs).pieces = tight .leftBracket ['['] ::
      (joined comma (xs.map itemPieces) ++ [tight .rightBracket [']']]) := by
  rw [pieces, itemsPieces_eq]

/-! ## The text of a pattern -/

theorem chars_tight {k : Kind} (hk : (k == .pipe || k.isAttributeOperator) = false)
    (l : List Char) : (tight k l).chars = l := by
  simp [Piece.chars, tight, Terminal.indent, plain, hk]

theorem chars_operatorPiece (p : Pattern) : p.operatorPiece.chars = p.operatorChars := by
  cases p <;> rfl

theorem text_angled (className : String) (constraints : List (List Piece)) :
    className.toList ++ Piece.text (angled constraints) =
      bracketed className (constraints.map Piece.text) := by
  cases constraints with
  | nil => simp [angled, bracketed]
  | cons ps rest =>
      simp [angled, bracketed, Piece.text_joined_comma, chars_tight (k := .leftAngle) rfl,
        chars_tight (k := .rightAngle) rfl]

theorem attributeChars_eq (as : List (String × Pattern)) :
    attributeChars as = as.map fun a => a.1.toList ++ a.2.operatorChars ++ a.2.chars := by
  induction as with
  | nil => rfl
  | cons a as ih => rw [attributeChars, ih, List.map_cons]

theorem alternativeChars_eq (ps : List Pattern) : alternativeChars ps = ps.map chars := by
  induction ps with
  | nil => rfl
  | cons p ps ih => rw [alternativeChars, ih, List.map_cons]

theorem itemsChars_eq (xs : List (Item Pattern)) : itemsChars xs = xs.map itemChars := by
  induction xs with
  | nil => rfl
  | cons x xs ih => rw [itemsChars, ih, List.map_cons]

theorem text_attributePieces {a : String × Pattern} (h : Piece.text a.2.pieces = a.2.chars) :
    Piece.text (attributePieces a) = a.1.toList ++ a.2.operatorChars ++ a.2.chars := by
  have hname : (⟨name a.1.toList, 0⟩ : Piece).chars = a.1.toList := by
    simp [Piece.chars, Terminal.indent, name, Kind.isAttributeOperator]
  rw [attributePieces, Piece.text_cons, Piece.text_cons, hname, chars_operatorPiece, h,
    List.append_assoc]

theorem text_itemPieces {x : Item Pattern} (h : Piece.text x.pattern.pieces = x.pattern.chars) :
    Piece.text (itemPieces x) = itemChars x := by
  cases x with
  | one p => exact h
  | many q p =>
      rw [itemPieces, Piece.text_append, Quantifier.text_pieces, itemChars]
      exact congrArg (· ++ q.chars) h

/-- The pieces of a pattern make up its text. -/
theorem text_pieces (p : Pattern) : Piece.text p.pieces = p.chars := by
  induction p with
  | any => rfl
  | scalar s =>
      have hk : (s.kind == .pipe || s.kind.isAttributeOperator) = false := by
        rcases s with _ | (_ | _) | _ | _ | _ <;> rfl
      simp [pieces, chars, chars_tight hk]
  | regexp kind r => simp [pieces, chars, chars_tight (k := .regexp) rfl]
  | node className as ih =>
      have hattributes : (as.map attributePieces).map Piece.text = attributeChars as := by
        rw [List.map_map, attributeChars_eq]
        exact List.map_congr_left fun a ha => text_attributePieces (ih a ha)
      rw [pieces_node, Piece.text_cons, chars_tight (k := .className) rfl, text_angled, hattributes,
        chars, nodeChars]
  | choice p ps ih ihs =>
      have halternatives : (ps.map pieces).map Piece.text = alternativeChars ps := by
        rw [List.map_map, alternativeChars_eq]
        exact List.map_congr_left ihs
      rw [pieces_choice, Piece.text_joined_bar, List.map_cons, List.map_cons, ih, halternatives,
        chars]
  | array items ih =>
      have hitems : (items.map itemPieces).map Piece.text = itemsChars items := by
        rw [List.map_map, itemsChars_eq]
        exact List.map_congr_left fun x hx => text_itemPieces (ih x hx)
      rw [pieces_array, Piece.text_cons, Piece.text_append, Piece.text_joined_comma, hitems, chars,
        chars_tight (k := .leftBracket) rfl, Piece.text_cons, chars_tight (k := .rightBracket) rfl,
        Piece.text_nil, List.append_nil, List.append_assoc]

end Pattern

end TreePattern
