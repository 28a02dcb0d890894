import TreePattern.Regex.Automaton

/-! Expressions that stand for a few given texts. A text has a match if one of them occurs in it,
which needs no automaton. -/

namespace TreePattern.Regex

open Unicode

/-- The bytes that a match can begin with; `whole` tells that they can be all of it. -/
structure Needle where
  bytes : List UInt8
  whole : Bool := true

namespace Needle

def empty : Needle := ⟨[], true⟩

/-- Keeps `n` bytes. -/
def cut (n : Nat) (s : Needle) : Needle :=
  if s.bytes.length ≤ n then s else ⟨s.bytes.take n, false⟩

def unfinished (s : Needle) : Needle := { s with whole := false }

def append (s t : Needle) : Needle := ⟨s.bytes ++ t.bytes, t.whole⟩

/-- Puts a needle in front of others, or joins it to the first one if that has the same bytes. -/
def precede (s : Needle) : List Needle → List Needle
  | t :: ss =>
    if s.bytes == t.bytes then ⟨s.bytes, s.whole && t.whole⟩ :: ss else s :: t :: ss
  | [] => [s]

/-- Joins neighbours with the same bytes. -/
def dedup (ss : List Needle) : List Needle := ss.foldr precede []

/-- Drops needles that an earlier one is the beginning of, since that one is found first. -/
def prune (ss : List Needle) : List Needle :=
  (ss.foldl (fun kept s =>
    if kept.any (·.bytes.isPrefixOf s.bytes) then kept else s :: kept) []).reverse

/-- The bytes that all needles begin with. -/
def commonStart : List Needle → List UInt8
  | [] => []
  | [s] => s.bytes
  | s :: ss =>
    ((s.bytes.zip (commonStart ss)).takeWhile fun b => b.1 == b.2).map (·.1)

end Needle

/-- The needles of an expression in the order in which they are tried, or none where there are too
many of them. -/
abbrev Needles := Option (List Needle)

namespace Needles

/-- How many needles there can be. -/
def limit : Nat := 250

/-- How many bytes of a needle are kept. -/
def lengthLimit : Nat := 100

/-- How many characters of a set, and how many repetitions, are written out. -/
def expansionLimit : Nat := 10

def one (s : Needle) : Needles := some [s]

def unfinish (ss : Needles) : Needles := ss.map (·.map .unfinished)

/-- Whether some needle can be continued. -/
def continues (ss : Needles) : Bool := ss.any (·.any (·.whole))

/-- The needles of one expression before another one. If there would be too many, those of the first
one are left as they are. -/
def cross (ss ts : Needles) : Needles := do
  let ss ← ss
  let cut : List Needle → List Needle := List.map (.cut lengthLimit)
  match ts.filter fun ts => ss.length * ts.length ≤ limit with
  | some ts =>
    return cut (Needle.dedup (ss.flatMap fun s => if s.whole then ts.map s.append else [s]))
  | none => if ss.any (·.bytes.isEmpty) then none else return cut (ss.map .unfinished)

/-- The needles of a number of repetitions. -/
def power (ss : Needles) : Nat → Needles → Needles
  | 0, before => before
  | n + 1, before => if before.continues then power ss n (before.cross ss) else before

/-- The needles of one expression or of another one. If there are too many, some may become equal
when they are cut. -/
def union (ss ts : Needles) : Needles := do
  let (ss, ts) := (← ss, ← ts)
  if ss.length + ts.length ≤ limit then return Needle.dedup (ss ++ ts)
  let short (ss : List Needle) := Needle.dedup (ss.map (.cut 4))
  if (short ss).length + (short ts).length ≤ limit then
    return Needle.dedup (short ss ++ short ts)
  else none

/-- Bytes that are common in texts, so that a search for one of them is of little use. -/
def isCommon (b : UInt8) : Bool :=
  0xC0 ≤ b || "\n\r (),-./0129:_abcdefghilmnoprstuvxy|".toList.any (·.toUInt8 == b)

/-- Shortens needles to the given lengths in turn, as long as there are more than go with a length.
-/
def shorten : List (Nat × Nat) → List Needle → List Needle
  | [], ss => ss
  | (length, most) :: steps, ss =>
    if ss.length ≤ most then ss else shorten steps (Needle.prune (ss.map (.cut length)))

/-- Lengths of needles, and how many needles may be longer. -/
def lengthSteps : List (Nat × Nat) := [(5, 10), (4, 10), (3, 64), (2, 64), (1, 10)]

/-- Whether a search for the needles finds just the matches. Some sets of needles are better
searched for by their first bytes, and then each find has to be looked at more closely. -/
def suffice : Needles → Bool
  | none => false
  | some all =>
    let ss := Needle.prune all
    let start := Needle.commonStart ss
    let allWhole (ss : List Needle) := ss.all (·.whole)
    if all.isEmpty || all.any (·.bytes.isEmpty) then false
    else if 1 < all.length && start.length ≤ 3 && start.head?.any (!isCommon ·) then
      ss.all fun s => s.whole && s.bytes.length = 1
    else
      let isFew := allWhole ss && ss.length ≤ 16
      let ss := if 4 < start.length || (1 < start.length && !isFew) then
          Needle.dedup (ss.map (.cut start.length))
        else ss
      let short := shorten lengthSteps ss
      let isPoor := 64 < short.length || short.any (·.bytes.length ≤ 2)
      allWhole ss && (isPoor || allWhole short)

end Needles

namespace NormalForm

mutual

def needles : NormalForm → Needles
  | look _ => .one .empty
  | literal cs => .one (.cut Needles.lengthLimit ⟨Utf8.encode cs, true⟩)
  | set rs =>
    if rs.count ≤ Needles.expansionLimit then
      some (rs.flatMap fun r =>
        (List.range' r.1 (r.2 + 1 - r.1)).map fun n => ⟨Utf8.encode [.ofNat n], true⟩)
    else none
  | iterate e least most greedy =>
    let ss := e.needles
    if least = 0 then
      let ss := if most = some 1 then ss else ss.unfinish
      if greedy then ss.union (.one .empty) else Needles.union (.one .empty) ss
    else
      let ss := ss.power (min least Needles.expansionLimit) (.one .empty)
      if most = some least ∧ least ≤ Needles.expansionLimit then ss else ss.unfinish
  | group _ e => e.needles
  | sequence es => crossNeedles (.one .empty) es
  | choice es => unionNeedles (some []) es

def crossNeedles (before : Needles) : List NormalForm → Needles
  | [] => before
  | e :: es => if before.continues then crossNeedles (before.cross e.needles) es else before

def unionNeedles (before : Needles) : List NormalForm → Needles
  | [] => before
  | e :: es => unionNeedles (before.union e.needles) es

end

mutual

/-- Whether neither conditions nor groups occur. -/
def isPlain : NormalForm → Bool
  | look _ | group _ _ => false
  | literal _ | set _ => true
  | iterate e _ _ _ => e.isPlain
  | sequence es | choice es => allPlain es

def allPlain : List NormalForm → Bool
  | [] => true
  | e :: es => e.isPlain && allPlain es

end

/-- How many literals, and no fewer, are always searched for one by one. -/
def manyLiterals : Nat := 3000

def isLongList : NormalForm → Bool
  | choice es => manyLiterals ≤ es.length && es.all (·.bytes?.isSome)
  | _ => false

/-- Whether a match is found by a search for given texts. -/
def isTextSearch (e : NormalForm) : Bool := e.isPlain && (e.needles.suffice || e.isLongList)

/-- Whether an expression gets by with a number of bytes. -/
def fits (e : NormalForm) (limit : Nat) : Bool :=
  (e.automatonSize false ≤ limit && e.automatonSize true ≤ limit) || e.isTextSearch

end NormalForm

end TreePattern.Regex
