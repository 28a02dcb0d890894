import TreePattern.Regex.NormalForm
import TreePattern.Unicode.Utf8

/-! The room that the automata of an expression take. There are two of them, one that reads a text
forwards and one that reads it backwards, byte by byte. -/

namespace TreePattern.Regex

open Unicode Utf8

/-- The bytes of a state. -/
def stateSize : Nat := 32

/-- The bytes of an edge for one range of bytes, where a state has several of them. -/
def byteEdgeSize : Nat := 8

/-- The bytes of an edge from a state that branches without reading anything. -/
def branchSize : Nat := 4

/-! ## Parts of an automaton -/

/-- A part of an automaton: its size, and whether it ends in a state that branches and so has one
more edge when something follows. -/
structure Fragment where
  size : Nat
  branches : Bool := false

namespace Fragment

/-- One state that leads on. -/
def state : Fragment := ⟨stateSize, false⟩

/-- The size of a fragment that is followed by another one. -/
def linked (f : Fragment) : Nat := if f.branches then f.size + branchSize else f.size

def append (f g : Fragment) : Fragment := ⟨f.linked + g.size, g.branches⟩

/-- Fragments one after the other. -/
def chain : List Fragment → Fragment
  | [] => state
  | f :: fs => fs.foldl append f

def power (f : Fragment) : Nat → Fragment
  | 0 => state
  | n + 1 => ⟨n * f.linked + f.size, f.branches⟩

/-- One or more times. -/
def plus (f : Fragment) : Fragment := ⟨f.linked + stateSize + branchSize, true⟩

/-- Any number of times. The short form is for what cannot be empty. -/
def star (canBeEmpty : Bool) (f : Fragment) : Fragment :=
  if canBeEmpty then ⟨f.linked + 3 * stateSize + 4 * branchSize, false⟩ else f.plus

/-- Up to `n` times. -/
def upTo (f : Fragment) (n : Nat) : Fragment :=
  ⟨n * (f.linked + stateSize + 2 * branchSize) + stateSize, false⟩

/-- Between `least` and `most` times. -/
def iterate (canBeEmpty : Bool) (f : Fragment) (least : Nat) : Option Nat → Fragment
  | some most =>
    if most = least then f.power least
    else if least = 0 ∧ most = 1 then f.upTo 1
    else (f.power least).append (f.upTo (most - least))
  | none =>
    match least with
    | 0 => f.star canBeEmpty
    | 1 => f.plus
    | n + 1 => (f.power n).append f.plus

/-- One of several. -/
def choice (fs : List Fragment) : Fragment :=
  ⟨2 * stateSize + (fs.map fun f => branchSize + f.linked).foldl (· + ·) 0, false⟩

end Fragment

/-! ## Sets of characters -/

/-- What can follow the first byte ranges of forms, of which equal ones stand together. -/
def stems (forms : List (List ByteRange)) : List (List (List ByteRange)) :=
  ((forms.filter (!·.isEmpty)).splitBy fun f g => f.head? == g.head?).map (·.map List.tail)

/-- The continuations of forms after any number of bytes, up to `n`. -/
def continuations : Nat → List (List (List ByteRange)) → List (List (List ByteRange))
  | 0, _ => []
  | n + 1, nodes =>
    let nodes := (nodes.filter (·.any (!·.isEmpty))).eraseDups
    nodes ++ continuations n (nodes.flatMap stems)

/-- How many different beginnings forms of up to `n` bytes have. -/
def beginnings : Nat → List (List ByteRange) → Nat
  | 0, _ => 0
  | n + 1, forms => ((stems forms).map fun fs => 1 + beginnings n fs).foldl (· + ·) 0

/-- A single state with an edge for each range, and the state where they lead. -/
def bytesSize (edges : Nat) : Nat := 2 * stateSize + edges * byteEdgeSize

/-- Forwards, characters share what follows in their forms, and backwards, what precedes. -/
def setSize (backwards : Bool) (rs : Ranges) : Nat :=
  if rs.all (·.2 < 0x80) then bytesSize rs.length
  else
    let forms := forms rs
    if backwards then
      2 * stateSize + forms.length * branchSize + beginnings 4 forms * stateSize
    else
      stateSize + ((continuations 4 [forms]).eraseDups.map fun node =>
        stateSize + (stems node).length * byteEdgeSize).foldl (· + ·) 0

/-! ## Choices between literals -/

/-- The size of the tree that tells apart the words of a choice, from one of its nodes on. A word
that ends here divides those before it from those behind it, which share nothing. The first
argument bounds the length of the words. -/
def treeSize : Nat → List (List UInt8) → Nat
  | 0, _ => 0
  | n + 1, words =>
    if words.all (·.isEmpty) then 0
    else
      let rest := words.dropWhile (·.isEmpty)
      let ends := rest.countP (·.isEmpty) + (if rest.length < words.length then 1 else 0)
      let runs := (rest.splitOnP (·.isEmpty)).filter (!·.isEmpty)
      let runSize (run : List (List UInt8)) : Nat :=
        let firsts := (run.filterMap List.head?).eraseDups
        stateSize + (if firsts.length = 1 then 0 else firsts.length * byteEdgeSize) +
          (firsts.map fun b =>
            treeSize n ((run.filter (·.head? == some b)).map List.tail)).foldl (· + ·) 0
      stateSize + (runs.length + ends) * branchSize + (runs.map runSize).foldl (· + ·) 0

def wordsSize (words : List (List UInt8)) : Nat :=
  stateSize + treeSize ((words.map List.length).foldl max 0 + 1) words

namespace NormalForm

/-! ## Whole expressions -/

mutual

/-- A number of bytes that every match has, zero only if some match is empty. There is none where a
set without members occurs. -/
def minLength : NormalForm → Option Nat
  | look _ => some 0
  | literal cs => some (encode cs).length
  | set rs => if rs.isEmpty then none else some 1
  | iterate e least _ _ => e.minLength.map (least * ·)
  | group _ e => e.minLength
  | sequence es => totalLength es
  | choice es => leastLength es

def totalLength : List NormalForm → Option Nat
  | [] => some 0
  | e :: es => do return (← e.minLength) + (← totalLength es)

def leastLength : List NormalForm → Option Nat
  | [] => none
  | [e] => e.minLength
  | e :: es => do return min (← e.minLength) (← leastLength es)

end

def bytes? : NormalForm → Option (List UInt8)
  | literal cs => some (encode cs)
  | _ => none

mutual

def fragment (backwards : Bool) : NormalForm → Fragment
  | look _ => .state
  | literal cs => Fragment.state.power (encode cs).length
  | set rs => ⟨setSize backwards rs, false⟩
  | iterate e least most _ =>
    .iterate (e.minLength.all (· == 0)) (e.fragment backwards) least most
  | group _ e =>
    let f := e.fragment backwards
    -- what a group captures is noted in a state before it and in one behind it
    if backwards then f else ⟨f.linked + 2 * stateSize, false⟩
  | sequence es =>
    let fs := fragments backwards es
    .chain (if backwards then fs.reverse else fs)
  | choice es =>
    match es.mapM bytes? with
    | some words => ⟨wordsSize (if backwards then words.map List.reverse else words), false⟩
    | none => .choice (fragments backwards es)

def fragments (backwards : Bool) : List NormalForm → List Fragment
  | [] => []
  | e :: es => e.fragment backwards :: fragments backwards es

end

mutual

/-- Whether every match has the given condition at its start, or at its end. -/
def requires (l : Look) (atEnd : Bool) : NormalForm → Bool
  | look m => m == l
  | literal _ | set _ => false
  | iterate e least _ _ => 0 < least && e.requires l atEnd
  | group _ e => e.requires l atEnd
  | sequence es => if atEnd then lastRequires l es else firstRequires l es
  | choice es => allRequire l atEnd es

def allRequire (l : Look) (atEnd : Bool) : List NormalForm → Bool
  | [] => true
  | e :: es => e.requires l atEnd && allRequire l atEnd es

def firstRequires (l : Look) : List NormalForm → Bool
  | [] => false
  | e :: es => e.requires l false || (e.isZeroWidth && firstRequires l es)

def lastRequires (l : Look) : List NormalForm → Bool
  | [] => false
  | e :: es => lastRequires l es || (allZeroWidth es && e.requires l true)

end

/-- The size of an automaton with a loop over what precedes a match, unless a match can start only
where the reading does, and with a state for success. The whole expression counts as a group. -/
def automatonSize (backwards : Bool) (e : NormalForm) : Nat :=
  let anchored := e.requires (if backwards then .textEnd else .textStart) backwards
  let anything : Fragment := .star false ⟨bytesSize 1, false⟩
  (if anchored then stateSize else anything.linked) +
    (fragment backwards (.group 0 e)).linked + stateSize

end NormalForm

end TreePattern.Regex
