import TreePattern.Unicode.CharSet

/-! Sets of characters as lists of ascending ranges. Every set has one such list. -/

namespace TreePattern.Unicode

namespace Ranges

/-- Adds a range to ascending ranges with gaps between them. -/
def add (r : Nat × Nat) : Ranges → Ranges
  | [] => [r]
  | s :: ss =>
    if r.2 + 1 < s.1 then r :: s :: ss
    else if s.2 + 1 < r.1 then s :: add r ss
    else add (min r.1 s.1, max r.2 s.2) ss

/-- Adds ranges to ascending ranges with gaps between them. -/
def merge (rs ss : Ranges) : Ranges := rs.foldr add ss

/-- The same code points in ascending ranges with gaps between them. -/
def ascending (rs : Ranges) : Ranges := merge rs []

/-- The code points from `first` on that lie in none of the given ascending ranges. -/
def gaps (first : Nat) : Ranges → Ranges
  | [] => if first ≤ 0x10FFFF then [(first, 0x10FFFF)] else []
  | r :: rs => (if first < r.1 then [(first, r.1 - 1)] else []) ++ gaps (r.2 + 1) rs

/-- The code points that two lists of ascending ranges have in common. -/
def common (rs ss : Ranges) : Ranges := gaps 0 (merge (gaps 0 rs) (gaps 0 ss))

/-- The code points of characters, which surrogates are not. -/
def scalars : Ranges := [(0, 0xD7FF), (0xE000, 0x10FFFF)]

def hasMember (rs : Ranges) (n : Nat) : Bool := rs.any fun r => r.1 ≤ n && n ≤ r.2

/-- Adds to ascending ranges all of every given group that has a member in them. -/
def closure (groups : List (List Nat)) (rs : Ranges) : Ranges :=
  merge ((groups.filter (·.any rs.hasMember)).flatten.map fun n => (n, n)) rs

/-- How many code points there are in ascending ranges. -/
def count (rs : Ranges) : Nat := (rs.map fun r => r.2 + 1 - r.1).foldl (· + ·) 0

end Ranges

/-- The letters that differ in case only, in groups, of which some occur more than once. -/
def caseGroups : List (List Nat) :=
  let keys := caseRuns.flatMap fun r =>
    (List.range ((r.last - r.first) / r.stride + 1)).map (r.lower + r.stride * ·)
  (keys ++ letterVariants.map (·.2)).map fun n => (caseOrbit (.ofNat n)).map (·.toNat)

def asciiCaseGroups : List (List Nat) := (List.range 26).map fun n => [0x41 + n, 0x61 + n]

namespace CharSet

/-- The code points of a set, surrogates included where a complement has them. -/
def codes : CharSet → Ranges
  | ranges rs => rs.ascending
  | compl s => s.codes.gaps 0
  | union s t => s.codes.merge t.codes
  | inter s t => s.codes.common t.codes
  | symmDiff s t =>
    let (s, t) := (s.codes, t.codes)
    (s.common (t.gaps 0)).merge (t.common (s.gaps 0))
  | anyCase s => s.codes.closure caseGroups
  | anyAsciiCase s => s.codes.closure asciiCaseGroups

def toRanges (s : CharSet) : Ranges := s.codes.common Ranges.scalars

end CharSet

end TreePattern.Unicode
