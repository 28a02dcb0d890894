import TreePattern.Regex.Escape

/-! Bracketed character classes. -/

namespace TreePattern.Regex

open Unicode

/-- A class or a part of one, and how deeply its written form is nested. -/
structure ClassPart where
  set : CharSet
  depth : Nat := 0

inductive ClassOperator where
  | intersection
  | difference
  | symmetricDifference

def ClassOperator.apply : ClassOperator → CharSet → CharSet → CharSet
  | intersection, s, t => s ∩ t
  | difference, s, t => s \ t
  | symmetricDifference, s, t => .symmDiff s t

namespace ClassPart

/-- The union of the parts read so far, latest first. Only two or more of them count as a level. -/
def union : List ClassPart → ClassPart
  | [] => ⟨.empty, 0⟩
  | [p] => p
  | ps => ⟨.unions (ps.map (·.set)), (ps.map (·.depth)).foldl max 0 + 1⟩

/-- Ends an operand: combines it with the one to its left, if there is one. -/
def combine (left : Option (ClassOperator × ClassPart)) (right : ClassPart) : ClassPart :=
  match left with
  | none => right
  | some (op, left) => ⟨op.apply left.set right.set, max left.depth right.depth + 1⟩

/-- Closes a bracket. -/
def close? (m : Modes) (negated : Bool) (p : ClassPart) : Option ClassPart :=
  (m.negate? negated p.set).map (⟨·, p.depth + 1⟩)

end ClassPart

/-! ## Named ASCII classes -/

def asciiClass? : String → Option Ranges
  | "alnum" => some [(0x30, 0x39), (0x41, 0x5A), (0x61, 0x7A)]
  | "alpha" => some [(0x41, 0x5A), (0x61, 0x7A)]
  | "ascii" => some [(0, 0x7F)]
  | "blank" => some [(0x9, 0x9), (0x20, 0x20)]
  | "cntrl" => some [(0, 0x1F), (0x7F, 0x7F)]
  | "digit" => some [(0x30, 0x39)]
  | "graph" => some [(0x21, 0x7E)]
  | "lower" => some [(0x61, 0x7A)]
  | "print" => some [(0x20, 0x7E)]
  | "punct" => some [(0x21, 0x2F), (0x3A, 0x40), (0x5B, 0x60), (0x7B, 0x7E)]
  | "space" => some [(0x9, 0xD), (0x20, 0x20)]
  | "upper" => some [(0x41, 0x5A)]
  | "word" => some [(0x30, 0x39), (0x41, 0x5A), (0x5F, 0x5F), (0x61, 0x7A)]
  | "xdigit" => some [(0x30, 0x39), (0x41, 0x46), (0x61, 0x66)]
  | _ => none

/-- Reads `[:name:]` or `[:^name:]` after its first bracket. Whatever has another form is a nested
class. -/
def namedClass? : List Char → Option (Bool × Ranges × List Char)
  | ':' :: cs =>
    let (negated, cs) := match cs with
      | '^' :: cs => (true, cs)
      | cs => (false, cs)
    match cs.dropWhile (· != ':') with
    | ':' :: ']' :: rest =>
      (asciiClass? (.ofList (cs.takeWhile (· != ':')))).map (negated, ·, rest)
    | _ => none
  | _ => none

/-! ## Members -/

/-- Reads a character or an escape. -/
def classAtom? (m : Modes) : List Char → Option (Atom × List Char)
  | [] => none
  | '\\' :: cs => escape? m cs
  | c :: cs => some (.literal c false, cs)

/-- Whether the hyphen before `cs` separates the ends of a range. -/
def startsRange (m : Modes) (cs : List Char) : Bool :=
  match lookAhead m.extended cs with
  | some c => c != ']' && c != '-'
  | none => true

/-- Reads a member: a range, a character or a set. Where case does not count, single characters and
ranges stand for their other forms as well; what is built from such sets contains with a character
all its forms, as the sets that an escape stands for do. -/
def classMember? (m : Modes) (cs : List Char) : Option (CharSet × List Char) := do
  let (atom, cs) ← classAtom? m cs
  let cs := skip m.extended cs
  let single : Option (CharSet × List Char) :=
    match atom with
    | .literal c _ => (m.member? c).map fun c => (m.fold (.singleton c), cs)
    | .set s => some (s, cs)
    | .look _ => none
  match cs with
  | [] => none
  | '-' :: rest =>
    if !startsRange m rest then single
    else match atom, ← classAtom? m (skip m.extended rest) with
      | .literal first _, (.literal last _, cs) => do
        let first ← m.member? first
        let last ← m.member? last
        if first ≤ last then some (m.fold (.ranges [(first.toNat, last.toNat)]), cs) else none
      | _, _ => none
  | _ => single

/-! ## Brackets -/

/-- Reads the members of a class up to the closing bracket; `nested` reads an inner class. -/
def classBody (nested : List Char → Option (ClassPart × List Char)) (m : Modes) :
    Nat → Option (ClassOperator × ClassPart) → List ClassPart → List Char →
    Option (ClassPart × List Char)
  | 0, _, _, _ => none
  | fuel + 1, left, parts, cs =>
    let continueWith (op : ClassOperator) (cs : List Char) :=
      classBody nested m fuel (some (op, .combine left (.union parts))) [] cs
    match skip m.extended cs with
    | [] => none
    | ']' :: cs => some (.combine left (.union parts), cs)
    | '[' :: cs =>
      match namedClass? cs with
      | some (negated, rs, cs) => do
        let set ← m.negate? negated (m.fold (.ranges rs))
        classBody nested m fuel left (⟨set, 0⟩ :: parts) cs
      | none => do
        let (part, cs) ← nested cs
        classBody nested m fuel left (part :: parts) cs
    | '&' :: '&' :: cs => continueWith .intersection cs
    | '-' :: '-' :: cs => continueWith .difference cs
    | '~' :: '~' :: cs => continueWith .symmetricDifference cs
    | cs => do
      let (set, cs) ← classMember? m cs
      classBody nested m fuel left (⟨set, 0⟩ :: parts) cs

/-- Reads a class after its opening bracket, with at most `levels` brackets inside each other.
Hyphens at the start, or else one closing bracket, are members. -/
def bracket : (levels : Nat) → Modes → List Char → Option (ClassPart × List Char)
  | 0, _, _ => none
  | levels + 1, m, cs => do
    let (negated, cs) :=
      match skip m.extended cs with
      | '^' :: cs => (true, skip m.extended cs)
      | cs => (false, cs)
    let (hyphens, cs) := takeAll m.extended (· == '-') cs
    let (first, cs) :=
      match hyphens, cs with
      | [], ']' :: cs => ([']'], skip m.extended cs)
      | _, _ => (hyphens, cs)
    let parts := first.map fun c => ⟨.singleton c, 0⟩
    let (part, cs) ← classBody (bracket levels m) m (cs.length + 1) none parts cs
    return (← part.close? m negated, cs)

end TreePattern.Regex
