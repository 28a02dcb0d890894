import TreePattern.Regex.Bracket
import TreePattern.Unicode.Revision

/-! Reading regular expressions. An expression is refused if it is malformed or nested too deeply,
and outside Unicode mode also if it could match bytes that are no text. -/

namespace TreePattern.Regex

open Unicode

/-- A part of an expression, and how deeply its written form is nested. A change of modes is a
part that cannot be repeated. -/
structure Part where
  regex : Regex
  depth : Nat := 0
  repeatable : Bool := true

namespace Part

/-- A change of modes. -/
def mark : Part := ⟨.empty, 0, false⟩

/-- The parts of a branch, latest first. -/
def sequence : List Part → Part
  | [] => mark
  | [p] => p
  | ps => ⟨.sequence (ps.reverse.map (·.regex)), (ps.map (·.depth)).foldl max 0 + 1, true⟩

/-- A last branch and those before it, latest first. -/
def choice (last : Part) : List Part → Part
  | [] => last
  | ps =>
    match (last :: ps).reverse with
    | [] => last
    | p :: rest =>
      ⟨.choice p.regex (rest.map (·.regex)), ((last :: ps).map (·.depth)).foldl max 0 + 1, true⟩

def group (p : Part) (index : Option Nat) : Part := ⟨.group index p.regex, p.depth + 1, true⟩

def iterate (p : Part) (least : Nat) (most : Option Nat) (greedy : Bool) : Part :=
  ⟨.iterate p.regex least most greedy, p.depth + 1, true⟩

end Part

/-- What is carried along from one part to the next: the modes, and how many groups there have been
that capture, with the names in use. -/
structure Context where
  modes : Modes
  groups : Nat := 0
  names : List (List Char) := []

/-! ## Repetition -/

/-- A repetition count is less than 2^32. -/
def countValue? (digits : List Char) : Option Nat :=
  let value := Digit.number 10 digits
  if digits.isEmpty || value ≥ UInt32.size then none else some value

/-- Reads a count. White space is allowed around it in every mode. -/
def count? (x : Bool) (cs : List Char) : Option (Nat × List Char) :=
  let (digits, rest) := takeAll x (Digit.isDigit 10) (cs.dropWhile Property.isWhiteSpace)
  (countValue? digits).map (·, rest.dropWhile Property.isWhiteSpace)

/-- The bounds of a repetition, and whether a question mark follows them. -/
structure Bounds where
  least : Nat
  most : Option Nat
  marked : Bool := false

/-- Reads the question mark after a repetition operator. -/
def Bounds.marks (b : Bounds) : List Char → Bounds × List Char
  | '?' :: cs => ({ b with marked := true }, cs)
  | cs => (b, cs)

/-- Reads the bounds of a repetition after the opening brace. -/
def bounds? (x : Bool) (cs : List Char) : Option (Bounds × List Char) := do
  let (least, cs) ← count? x (skip x cs)
  match cs with
  | '\x7d' :: cs => some (Bounds.marks ⟨least, some least, false⟩ (skip x cs))
  | ',' :: cs =>
    match skip x cs with
    | '\x7d' :: cs => some (Bounds.marks ⟨least, none, false⟩ (skip x cs))
    | cs => do
      let (most, cs) ← count? x cs
      match cs with
      | '\x7d' :: cs =>
        if least ≤ most then some (Bounds.marks ⟨least, some most, false⟩ (skip x cs)) else none
      | _ => none
  | _ => none

/-- Reads a repetition operator, if one comes next, and the bounds it sets. -/
def repetition? (x : Bool) : List Char → Option (Option (Bounds × List Char))
  | '?' :: cs => some (some (Bounds.marks ⟨0, some 1, false⟩ cs))
  | '*' :: cs => some (some (Bounds.marks ⟨0, none, false⟩ cs))
  | '+' :: cs => some (some (Bounds.marks ⟨1, none, false⟩ cs))
  | '\x7b' :: cs => (bounds? x cs).map some
  | _ => some none

/-! ## Groups -/

def isNameStart (c : Char) : Bool := c == '_' || Revision.alphabetic.contains c

def isNameChar (c : Char) : Bool :=
  c == '_' || c == '.' || c == '[' || c == ']' || Revision.alphanumeric.contains c

/-- Reads the name of a group and the angle bracket after it. -/
def groupName? (cs : List Char) : Option (List Char × List Char) :=
  match cs.takeWhile (· != '>'), cs.dropWhile (· != '>') with
  | c :: name, _ :: rest =>
    if isNameStart c && name.all isNameChar then some (c :: name, rest) else none
  | _, _ => none

/-- What an opening parenthesis begins. -/
inductive Opening where
  | change (modes : Modes)
  | group (ctx : Context) (index : Option Nat)

/-- A group that captures what it encloses. -/
def Opening.capture (ctx : Context) : Opening :=
  .group { ctx with groups := ctx.groups + 1 } (some (ctx.groups + 1))

def namedGroup? (ctx : Context) (cs : List Char) : Option (Opening × List Char) := do
  let (name, rest) ← groupName? cs
  if name ∈ ctx.names then none else some (.capture { ctx with names := name :: ctx.names }, rest)

/-- Reads what follows an opening parenthesis up to the contents of the group. -/
def opening? (ctx : Context) (cs : List Char) : Option (Opening × List Char) :=
  match skip ctx.modes.extended cs with
  | '?' :: 'P' :: '<' :: cs => namedGroup? ctx cs
  | '?' :: '<' :: '=' :: _ | '?' :: '<' :: '!' :: _ => none
  | '?' :: '<' :: cs => namedGroup? ctx cs
  | '?' :: cs => do
    match ← ctx.modes.read? [] cs with
    | (modes, isEmpty, ')' :: rest) => if isEmpty then none else some (.change modes, rest)
    | (modes, _, _ :: rest) => some (.group { ctx with modes } none, rest)
    | (_, _, []) => none
  | cs => some (.capture ctx, cs)

/-! ## Expressions -/

/-- Reads a part that is neither a group nor repeated. -/
def part? (levels : Nat) (m : Modes) : List Char → Option (Part × List Char)
  | [] => none
  | '[' :: cs => (bracket levels m cs).map fun r => (⟨.char r.1.set, r.1.depth, true⟩, r.2)
  | '.' :: cs => m.dot?.map fun s => (⟨.char s, 0, true⟩, cs)
  | '^' :: cs => some (⟨.look m.caret, 0, true⟩, cs)
  | '$' :: cs => some (⟨.look m.dollar, 0, true⟩, cs)
  | '\\' :: cs => do
    match ← escape? m cs with
    | (.literal c byte, rest) => (m.literal? c byte).map (⟨·, 0, true⟩, rest)
    | (.look l, rest) => some (⟨.look l, 0, true⟩, rest)
    | (.set s, rest) => some (⟨.char s, 0, true⟩, rest)
  | c :: cs => (m.literal? c false).map (⟨·, 0, true⟩, cs)

/-- Reads the branches of a group up to its closing parenthesis or the end of the text; `inner`
reads the branches of a group inside this one. `branches` and `parts` are what has been read,
latest first. -/
def readBranches (inner : Context → List Char → Option (Part × Context × List Char))
    (levels : Nat) : Nat → Context → (branches parts : List Part) → List Char →
    Option (Part × Context × List Char)
  | 0, _, _, _, _ => none
  | fuel + 1, ctx, branches, parts, cs =>
    match skip ctx.modes.extended cs with
    | [] => some (.choice (.sequence parts) branches, ctx, [])
    | ')' :: cs => some (.choice (.sequence parts) branches, ctx, ')' :: cs)
    | '|' :: cs => readBranches inner levels fuel ctx (.sequence parts :: branches) [] cs
    | '(' :: cs => do
      match ← opening? ctx cs with
      | (.change modes, cs) =>
        readBranches inner levels fuel { ctx with modes } branches (.mark :: parts) cs
      | (.group ctx' index, cs) =>
        match ← inner ctx' cs with
        | (part, ctx', ')' :: cs) =>
          readBranches inner levels fuel { ctx' with modes := ctx.modes } branches
            (part.group index :: parts) cs
        | _ => none
    | cs => do
      match ← repetition? ctx.modes.extended cs, parts with
      | some (bounds, rest), part :: parts =>
        let part' := part.iterate bounds.least bounds.most (bounds.marked == ctx.modes.swapGreed)
        if part.repeatable then readBranches inner levels fuel ctx branches (part' :: parts) rest
        else none
      | some _, [] => none
      | none, parts => do
        let (part, rest) ← part? levels ctx.modes cs
        readBranches inner levels fuel ctx branches (part :: parts) rest

/-- Reads the contents of a group, with at most `levels` groups inside each other. -/
def readGroup : (levels : Nat) → Context → List Char → Option (Part × Context × List Char)
  | 0, _, _ => none
  | levels + 1, ctx, cs => readBranches (readGroup levels) (levels + 1) (cs.length + 1) ctx [] [] cs

/-- The deepest nesting of groups, classes, repetitions, sequences and choices in each other. -/
def nestingLimit : Nat := 250

/-- The expression that a source denotes under the given modes. -/
def read? (modes : Modes) (source : List Char) : Option Regex :=
  match readGroup (nestingLimit + 1) ⟨modes, 0, []⟩ source with
  | some (part, _, []) => if part.depth ≤ nestingLimit then some part.regex else none
  | _ => none

end TreePattern.Regex
