import TreePattern.Proofs.Errors.Blame

/-! Reading with a counter of the expressions that are open. The counter is threaded through the
whole run: an expression adds one to it, compares it with the limit, and takes one off when it has
been read; everything else hands it on as it finds it. Main statements: every run gives the counter
back as it got it, so that it is what is missing from the limit to the levels that the parser has
left; and a smaller limit does nothing but cut a run off. -/

namespace TreePattern

open Pattern.Parser (attributeName operand peek eat expect quantifier scalarOf alternatives)
open Token (Kind)

namespace Pattern

variable {α β γ : Type}

/-- Reads something at a position with a number of expressions open, and returns the position behind
it with the number then. -/
abbrev Counting (α : Type) := Cursor → Nat → Except PatternError (α × Cursor × Nat)

namespace Counting

/-! ## The parser with its counter -/

/-- Reads something without a look at the counter. -/
def keeping (P : Parser α) : Counting α := fun c depth => do
  let (a, c) ← P c
  return (a, c, depth)

def separatedBy (separator : Kind) (one : Counting α) : Nat → Counting (List α)
  | 0, _, _ => .error .endOfText
  | fuel + 1, c, depth => do
    let (x, c, depth) ← one c depth
    let (more, c) ← eat separator c
    if more then
      let (xs, c, depth) ← separatedBy separator one fuel c depth
      return (x :: xs, c, depth)
    else return ([x], c, depth)

def separated (separator : Kind) (one : Counting α) : Counting (List α) := fun c =>
  separatedBy separator one (c.rest.length + 1) c

def constraint (sizeLimit : Nat) (inner : Counting Pattern) : Counting (String × Pattern) :=
  fun c depth => do
    let (name, c) ← attributeName c
    let operator ← peek c
    match operator with
    | none => throw .endOfText
    | some (t, c) =>
      let (p, c, depth) ←
        match t.kind with
        | .equals => inner c depth
        | .startsWith => keeping (operand sizeLimit .start) c depth
        | .endsWith => keeping (operand sizeLimit .stop) c depth
        | .contains => keeping (operand sizeLimit .anywhere) c depth
        | _ => throw (.misplacedToken t.lexeme t.offset)
      return ((name, p), c, depth)

def attributes (sizeLimit : Nat) (inner : Counting Pattern) : Counting (List (String × Pattern)) :=
  fun c depth => do
    let (present, c) ← eat .leftAngle c
    if present then
      let (as, c, depth) ← separated .comma (constraint sizeLimit inner) c depth
      let (_, c) ← expect .rightAngle c
      return (as, c, depth)
    else return ([], c, depth)

def item (inner : Counting Pattern) : Counting (Item Pattern) := fun c depth => do
  let (p, c, depth) ← inner c depth
  let (q, c) ← quantifier c
  match q with
  | some q => return (.many q p, c, depth)
  | none => return (.one p, c, depth)

def items (inner : Counting Pattern) : Counting (List (Item Pattern)) := fun c depth => do
  let (isEmpty, c) ← eat .rightBracket c
  if isEmpty then return ([], c, depth)
  else
    let (xs, c, depth) ← separated .comma (item inner) c depth
    let (_, c) ← expect .rightBracket c
    return (xs, c, depth)

def primary (sizeLimit : Nat) (inner : Counting Pattern) : Counting Pattern := fun c depth => do
  match ← peek c with
  | none => throw .endOfText
  | some (t, c) =>
    match t.kind with
    | .className =>
      let (as, c, depth) ← attributes sizeLimit inner c depth
      return (node (.ofAttributes (.ofList t.lexeme) as), c, depth)
    | .leftBracket =>
      let (xs, c, depth) ← items inner c depth
      return (array xs, c, depth)
    | .anyKeyword => return (any, c, depth)
    | _ => return (scalar (← scalarOf t), c, depth)

/-- Reads an expression. The second argument bounds how many are read inside each other; it is no
part of the program, and any bound that the limit does not reach gives the same. -/
def expression (options : Options) : (fuel : Nat) → Counting Pattern
  | 0, _, _ => .error .endOfText
  | fuel + 1, c, depth => do
    let depth := depth + 1
    if depth > options.maxDepth then throw (.nestedTooDeeply options.maxDepth)
    let inner := expression options fuel
    let (ps, c, depth) ← separated .pipe (primary options.regexSizeLimit inner) c depth
    return (alternatives ps, c, depth - 1)

/-- The pattern that a text denotes, read with no expression open at its beginning. -/
def parse (options : Options) (text : String) : Except PatternError Pattern := do
  let (p, c, _) ← expression options (options.maxDepth + 1) (.start text.toList) 0
  match ← peek c with
  | none => return p
  | some (t, _) => throw (.misplacedToken t.lexeme t.offset)

/-! ## Runs beside each other -/

/-- The run `x` with a counter ends like the run `y` without one, and the counter is at `depth`
then. Where cuts are allowed, it may instead have reached its limit. -/
def Follows (cuts : Prop) (limit depth : Nat) (x : Except PatternError (α × Cursor × Nat))
    (y : Except PatternError (α × Cursor)) : Prop :=
  x = y.map (fun r => (r.1, r.2, depth)) ∨ cuts ∧ x = .error (.nestedTooDeeply limit)

section

variable {cuts : Prop} {limit depth : Nat}

theorem follows_ok (a : α) (c : Cursor) :
    Follows cuts limit depth (.ok (a, c, depth)) (.ok (a, c)) :=
  .inl rfl

theorem follows_error (e : PatternError) :
    Follows (α := α) cuts limit depth (.error e) (.error e) :=
  .inl rfl

theorem follows_keeping (P : Parser α) (c : Cursor) :
    Follows cuts limit depth (keeping P c depth) (P c) := by
  refine .inl ?_
  unfold keeping
  cases P c <;> rfl

/-- What comes first is the same in both runs. -/
theorem Follows.behind {f : γ → Except PatternError (α × Cursor × Nat)}
    {g : γ → Except PatternError (α × Cursor)} (z : Except PatternError γ)
    (h : ∀ a, Follows cuts limit depth (f a) (g a)) :
    Follows cuts limit depth (z >>= f) (z >>= g) := by
  cases z with
  | error e => exact follows_error e
  | ok a => exact h a

theorem Follows.bind {depth' : Nat} {x : Except PatternError (α × Cursor × Nat)}
    {y : Except PatternError (α × Cursor)}
    {f : α × Cursor × Nat → Except PatternError (β × Cursor × Nat)}
    {g : α × Cursor → Except PatternError (β × Cursor)} (h : Follows cuts limit depth' x y)
    (hnext : ∀ a c, Follows cuts limit depth (f (a, c, depth')) (g (a, c))) :
    Follows cuts limit depth (x >>= f) (y >>= g) := by
  rcases h with rfl | ⟨hcuts, rfl⟩
  · cases y with
    | error e => exact follows_error e
    | ok r => exact hnext r.1 r.2
  · exact .inr ⟨hcuts, rfl⟩

/-! ## The functions of the parser -/

variable {one : Counting α} {one' : Parser α} {inner : Counting Pattern} {inner' : Parser Pattern}

theorem follows_separatedBy (separator : Kind)
    (h : ∀ c, Follows cuts limit depth (one c depth) (one' c)) (fuel : Nat) (c : Cursor) :
    Follows cuts limit depth (separatedBy separator one fuel c depth)
      (Parser.separatedBy separator one' fuel c) := by
  induction fuel generalizing c with
  | zero => exact follows_error _
  | succ fuel ih =>
      refine .bind (h c) fun x c => .behind (eat separator c) fun ⟨more, c⟩ => ?_
      cases more with
      | true => exact .bind (ih c) fun xs c => follows_ok _ c
      | false => exact follows_ok _ c

theorem follows_separated (separator : Kind)
    (h : ∀ c, Follows cuts limit depth (one c depth) (one' c)) (c : Cursor) :
    Follows cuts limit depth (separated separator one c depth)
      (Parser.separated separator one' c) :=
  follows_separatedBy separator h _ c

section

variable (sizeLimit : Nat) (h : ∀ c, Follows cuts limit depth (inner c depth) (inner' c))
include h

theorem follows_constraint (c : Cursor) :
    Follows cuts limit depth (constraint sizeLimit inner c depth)
      (Parser.constraint sizeLimit inner' c) := by
  refine .behind (attributeName c) fun ⟨name, c⟩ => .behind (peek c) fun operator => ?_
  cases operator with
  | none => exact follows_error _
  | some next =>
      obtain ⟨⟨kind, lexeme, offset⟩, c⟩ := next
      cases kind
      case equals => exact .bind (h c) fun p c => follows_ok _ c
      case startsWith | endsWith | contains =>
        exact .bind (follows_keeping _ c) fun p c => follows_ok _ c
      all_goals exact follows_error _

theorem follows_attributes (c : Cursor) :
    Follows cuts limit depth (attributes sizeLimit inner c depth)
      (Parser.attributes sizeLimit inner' c) := by
  refine .behind (eat .leftAngle c) fun ⟨present, c⟩ => ?_
  cases present with
  | true =>
      exact .bind (follows_separated .comma (follows_constraint sizeLimit h) c) fun as c =>
        .behind (expect .rightAngle c) fun ⟨_, c⟩ => follows_ok _ c
  | false => exact follows_ok _ c

theorem follows_item (c : Cursor) :
    Follows cuts limit depth (item inner c depth) (Parser.item inner' c) := by
  refine .bind (h c) fun p c => .behind (quantifier c) fun ⟨q, c⟩ => ?_
  cases q <;> exact follows_ok _ c

theorem follows_items (c : Cursor) :
    Follows cuts limit depth (items inner c depth) (Parser.items inner' c) := by
  refine .behind (eat .rightBracket c) fun ⟨isEmpty, c⟩ => ?_
  cases isEmpty with
  | true => exact follows_ok _ c
  | false =>
      exact .bind (follows_separated .comma (follows_item h) c) fun xs c =>
        .behind (expect .rightBracket c) fun ⟨_, c⟩ => follows_ok _ c

theorem follows_primary (c : Cursor) :
    Follows cuts limit depth (primary sizeLimit inner c depth)
      (Parser.primary sizeLimit inner' c) := by
  refine .behind (peek c) fun next => ?_
  cases next with
  | none => exact follows_error _
  | some next =>
      obtain ⟨⟨kind, lexeme, offset⟩, c⟩ := next
      cases kind
      case className =>
        exact .bind (follows_attributes sizeLimit h c) fun as c => follows_ok _ c
      case leftBracket => exact .bind (follows_items h c) fun xs c => follows_ok _ c
      case anyKeyword => exact follows_ok _ c
      all_goals exact .behind (scalarOf _) fun s => follows_ok _ c

end

end

/-! ## Expressions -/

/-- The parser has as many levels left as the counter is below the larger limit. By induction on the
expressions that are read inside each other. -/
theorem follows_expression (options : Options) {low high : Nat} (hle : low ≤ high)
    {fuel depth levels : Nat} (hfuel : low < fuel + depth) (hdepth : depth ≤ low)
    (hlevels : levels + depth = high) (c : Cursor) :
    Follows (low < high) low depth (expression { options with maxDepth := low } fuel c depth)
      (Parser.expression { options with maxDepth := high } levels c) := by
  induction fuel generalizing depth levels c with
  | zero => omega
  | succ fuel ih =>
      rw [expression]
      by_cases hlimit : depth + 1 > low
      · simp only [if_pos hlimit]
        rcases hle.lt_or_eq with hlt | rfl
        · exact .inr ⟨hlt, rfl⟩
        · obtain rfl : levels = 0 := by omega
          exact follows_error _
      · obtain ⟨levels, rfl⟩ : ∃ n, levels = n + 1 := ⟨levels - 1, by omega⟩
        have hinner (c : Cursor) := @ih (depth + 1) levels (by omega) (by omega) (by omega) c
        simp only [if_neg hlimit]
        exact .bind (follows_separated .pipe (follows_primary _ hinner) c)
          fun ps c => follows_ok _ c

/-- A run that starts with no expression open. -/
theorem follows_start (options : Options) {low high : Nat} (hle : low ≤ high) (text : String) :
    Follows (low < high) low 0
      (expression { options with maxDepth := low } (low + 1) (.start text.toList) 0)
      (Parser.expression { options with maxDepth := high } high (.start text.toList)) :=
  follows_expression options hle (Nat.lt_succ_self low) (Nat.zero_le low) rfl _

/-- Each text is read with the counter as it is with levels. -/
theorem parse_eq (options : Options) (text : String) :
    parse options text = Pattern.parse options text := by
  rcases follows_start options (Nat.le_refl options.maxDepth) text with h | ⟨hlt, _⟩
  · rw [parse, Pattern.parse, h]
    cases Parser.expression options options.maxDepth (.start text.toList) <;> rfl
  · exact absurd hlt (Nat.lt_irrefl _)

end Counting

/-- A smaller limit for the nesting changes nothing, or cuts the run off. -/
theorem parse_cut_off (options : Options) {low high : Nat} (hle : low ≤ high) (text : String) :
    parse { options with maxDepth := low } text = parse { options with maxDepth := high } text ∨
      parse { options with maxDepth := low } text = .error (.nestedTooDeeply low) := by
  rw [← Counting.parse_eq { options with maxDepth := low }]
  unfold Counting.parse parse
  rcases Counting.follows_start options hle text with h | ⟨_, h⟩
  · rw [h]
    refine .inl ?_
    cases Parser.expression { options with maxDepth := high } high (.start text.toList) <;> rfl
  · rw [h]
    exact .inr rfl

end Pattern

end TreePattern
