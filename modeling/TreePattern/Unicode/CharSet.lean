import TreePattern.Unicode.Case
import TreePattern.Unicode.Ranges

/-! Sets of characters, built from ranges by the operations of a character class. -/

namespace TreePattern.Unicode

inductive CharSet where
  | ranges (rs : Ranges)
  | compl (s : CharSet)
  | union (s t : CharSet)
  | inter (s t : CharSet)
  /-- The characters of just one of two sets. -/
  | symmDiff (s t : CharSet)
  /-- Closed under change of case. -/
  | anyCase (s : CharSet)
  /-- Closed under change of case of the letters `a` to `z`. -/
  | anyAsciiCase (s : CharSet)
  deriving DecidableEq, Repr

namespace CharSet

/-- The other case of an ASCII letter. -/
def asciiSwapCase (c : Char) : Char :=
  if c.isUpper then c.toLower else c.toUpper

def contains : CharSet → Char → Bool
  | ranges rs, c => rs.contains c
  | compl s, c => !s.contains c
  | union s t, c => s.contains c || t.contains c
  | inter s t, c => s.contains c && t.contains c
  | symmDiff s t, c => s.contains c != t.contains c
  | anyCase s, c => (caseOrbit c).any s.contains
  | anyAsciiCase s, c => s.contains c || s.contains (asciiSwapCase c)

instance : Membership Char CharSet where
  mem s c := s.contains c = true

instance (s : CharSet) (c : Char) : Decidable (c ∈ s) :=
  inferInstanceAs (Decidable (_ = true))

instance : Union CharSet := ⟨union⟩

instance : Inter CharSet := ⟨inter⟩

instance : Complement CharSet := ⟨compl⟩

instance : SDiff CharSet := ⟨fun s t => s ∩ ~~~t⟩

@[simp] theorem mem_ranges {rs : Ranges} {c : Char} : c ∈ ranges rs ↔ rs.contains c = true :=
  Iff.rfl

@[simp] theorem mem_union {s t : CharSet} {c : Char} : c ∈ s ∪ t ↔ c ∈ s ∨ c ∈ t :=
  Bool.or_eq_true_iff

@[simp] theorem mem_inter {s t : CharSet} {c : Char} : c ∈ s ∩ t ↔ c ∈ s ∧ c ∈ t :=
  Bool.and_eq_true_iff

@[simp] theorem mem_compl {s : CharSet} {c : Char} : c ∈ ~~~s ↔ c ∉ s := by
  simp [Membership.mem, Complement.complement, contains]

theorem mem_symmDiff {s t : CharSet} {c : Char} : c ∈ symmDiff s t ↔ ¬(c ∈ s ↔ c ∈ t) := by
  simp [Membership.mem, contains]

theorem mem_anyCase {s : CharSet} {c : Char} : c ∈ anyCase s ↔ ∃ d ∈ caseOrbit c, d ∈ s :=
  List.any_eq_true

def empty : CharSet := ranges []

def singleton (c : Char) : CharSet := ranges [(c.toNat, c.toNat)]

/-- The union of several sets. -/
def unions (sets : List CharSet) : CharSet := sets.foldr union empty

@[simp] theorem not_mem_empty {c : Char} : c ∉ empty := by
  simp [empty, Ranges.contains]

@[simp] theorem mem_singleton {c d : Char} : c ∈ singleton d ↔ c = d := by
  simp only [singleton, mem_ranges, Ranges.contains_iff, List.mem_singleton, exists_eq_left]
  exact ⟨fun h => Char.ext (UInt32.toNat.inj (Nat.le_antisymm h.2 h.1)), by rintro rfl; simp⟩

theorem mem_unions {sets : List CharSet} {c : Char} : c ∈ unions sets ↔ ∃ s ∈ sets, c ∈ s := by
  induction sets with
  | nil => simp [unions]
  | cons s sets ih =>
    have : c ∈ unions (s :: sets) ↔ c ∈ s ∨ c ∈ unions sets := mem_union
    simp [this, ih]

end CharSet

end TreePattern.Unicode
