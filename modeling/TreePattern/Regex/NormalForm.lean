import TreePattern.Regex.Basic
import TreePattern.Unicode.Ascending

/-! The normal form of regular expressions. Neighbouring characters are joined to one literal, a
choice between characters is a set, and what all branches of a choice begin with is taken out of
it. -/

namespace TreePattern.Regex

open Unicode

inductive NormalForm where
  | look (l : Look)
  | literal (cs : List Char)
  | set (rs : Ranges)
  | iterate (e : NormalForm) (least : Nat) (most : Option Nat) (greedy : Bool)
  | group (index : Nat) (e : NormalForm)
  | sequence (es : List NormalForm)
  | choice (es : List NormalForm)

namespace NormalForm

def empty : NormalForm := sequence []

mutual

/-- Equality. -/
def same : NormalForm → NormalForm → Bool
  | look l, look m => l == m
  | literal cs, literal ds => cs == ds
  | set rs, set ss => rs == ss
  | iterate d least most greedy, iterate e least' most' greedy' =>
    least == least' && most == most' && greedy == greedy' && d.same e
  | group i d, group j e => i == j && d.same e
  | sequence ds, sequence es | choice ds, choice es => allSame ds es
  | _, _ => false

def allSame : List NormalForm → List NormalForm → Bool
  | [], [] => true
  | d :: ds, e :: es => d.same e && allSame ds es
  | _, _ => false

end

mutual

/-- Whether every match is empty. An expression without matches does not count as such. -/
def isZeroWidth : NormalForm → Bool
  | look _ => true
  | literal _ | set _ => false
  | iterate e _ _ _ | group _ e => e.isZeroWidth
  | sequence es | choice es => allZeroWidth es

def allZeroWidth : List NormalForm → Bool
  | [] => true
  | e :: es => e.isZeroWidth && allZeroWidth es

end

/-! ## Sets and repetitions -/

/-- Any one of the characters in ascending ranges. -/
def ofRanges : Ranges → NormalForm
  | [(a, b)] => if a = b then literal [.ofNat a] else set [(a, b)]
  | rs => set rs

/-- Repeating what has no width more than once adds nothing. -/
def repeated (e : NormalForm) (least : Nat) (most : Option Nat) (greedy : Bool) : NormalForm :=
  let (least, most) :=
    if e.isZeroWidth then (min least 1, some (most.elim 1 (min · 1))) else (least, most)
  match least, most with
  | 0, some 0 => empty
  | 1, some 1 => e
  | _, _ => iterate e least most greedy

/-! ## Sequences -/

/-- The parts of an expression that follow each other. -/
def parts : NormalForm → List NormalForm
  | sequence es => es
  | e => [e]

def ofParts : List NormalForm → NormalForm
  | [e] => e
  | es => sequence es

/-- Puts a part in front of others. -/
def precede : NormalForm → List NormalForm → List NormalForm
  | literal cs, literal ds :: es => literal (cs ++ ds) :: es
  | e, es => e :: es

def append (d e : NormalForm) : NormalForm := ofParts (d.parts.foldr precede e.parts)

/-! ## Choices -/

def branches : NormalForm → List NormalForm
  | choice es => es
  | e => [e]

/-- The only character of a literal. -/
def char? : NormalForm → Option Nat
  | literal [c] => some c.toNat
  | _ => none

def set? : NormalForm → Option Ranges
  | set rs => some rs
  | _ => none

/-- A choice between characters, or between sets of them, as a set. -/
def setOf? (es : List NormalForm) : Option NormalForm :=
  match es.mapM char?, es.mapM set? with
  | some ns, _ => some (ofRanges (Ranges.ascending (ns.map fun n => (n, n))))
  | none, some rss => some (ofRanges (Ranges.ascending rss.flatten))
  | none, none => none

/-- The parts of a sequence of two or more. -/
def sequence? : NormalForm → Option (List NormalForm)
  | sequence (e :: es) => some (e :: es)
  | _ => none

/-- How many parts two sequences have in common at their start. -/
def commonLength : List NormalForm → List NormalForm → Nat
  | d :: ds, e :: es => if d.same e then commonLength ds es + 1 else 0
  | _, _ => 0

/-- One of several expressions, with choices among them opened up. -/
def merge (es : List NormalForm) : NormalForm :=
  match es.flatMap branches with
  | [e] => e
  | es => (setOf? es).getD (choice es)

/-- One of several expressions. Where all of them are sequences that begin alike, what follows the
common start has no common start any more, and is merged. -/
def oneOf (es : List NormalForm) : NormalForm :=
  match merge es with
  | choice es =>
    match es.mapM sequence? with
    | some (ds :: rest) =>
      match (rest.map (commonLength ds)).foldl min ds.length with
      | 0 => choice es
      | n => append (ofParts (ds.take n)) (merge ((ds :: rest).map fun es => ofParts (es.drop n)))
    | _ => choice es
  | e => e

end NormalForm

/-- The branches of an expression in normal form. -/
def normalBranches : Regex → List NormalForm
  | empty => [.empty]
  | look l => [.look l]
  | char s => [.ofRanges s.toRanges]
  | cat a b => [.append (.oneOf a.normalBranches) (.oneOf b.normalBranches)]
  | alt a b => .oneOf a.normalBranches :: b.normalBranches
  | iterate e least most greedy => [.repeated (.oneOf e.normalBranches) least most greedy]
  | group none e => [.oneOf e.normalBranches]
  | group (some i) e => [.group i (.oneOf e.normalBranches)]

def normalForm (e : Regex) : NormalForm := .oneOf e.normalBranches

end TreePattern.Regex
