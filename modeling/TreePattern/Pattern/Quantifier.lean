import TreePattern.Text.Numeral

/-! Quantifiers: how many elements of an array one item of a pattern may cover. -/

namespace TreePattern

/-- At least `min` elements, at most `max` if there is a bound, and a whole number of steps above
`min`. -/
structure Quantifier where
  min : Nat
  max : Option Nat
  step : Nat
  step_pos : 0 < step
  min_le_max : ∀ m ∈ max, min ≤ m
  deriving DecidableEq

namespace Quantifier

theorem ext {q r : Quantifier} (hmin : q.min = r.min) (hmax : q.max = r.max)
    (hstep : q.step = r.step) : q = r := by
  obtain ⟨_, _, _, _, _⟩ := q
  cases hmin
  cases hmax
  cases hstep
  rfl

/-- The quantifier with the given bounds, if the step is positive and the bounds are in order. -/
def ofBounds? (min : Nat) (max : Option Nat) (step : Nat) : Option Quantifier :=
  if h : 0 < step ∧ ∀ m ∈ max, min ≤ m then some ⟨min, max, step, h.1, h.2⟩ else none

def atLeast (min : Nat) : Quantifier := ⟨min, none, 1, by simp, by simp⟩

def zeroOrMore : Quantifier := atLeast 0

def oneOrMore : Quantifier := atLeast 1

def optional : Quantifier := ⟨0, some 1, 1, by simp, by simp⟩

def exactly (count : Nat) : Quantifier := ⟨count, some count, 1, by simp, by simp⟩

def even : Quantifier := ⟨0, none, 2, Nat.two_pos, by simp⟩

def odd : Quantifier := ⟨1, none, 2, Nat.two_pos, by simp⟩

/-- Whether `n` elements are a number that the quantifier allows. -/
def allows (q : Quantifier) (n : Nat) : Bool :=
  q.min ≤ n && q.max.all (n ≤ ·) && (n - q.min) % q.step == 0

/-- The quantifier as it is written behind its pattern. A step other than one shows only in the
words for the even and the odd numbers. -/
def chars (q : Quantifier) : List Char :=
  match q.min, q.max, q.step with
  | 0, none, 1 => ['*']
  | 1, none, 1 => ['+']
  | 0, some 1, 1 => ['?']
  | 0, none, 2 => "\x7beven\x7d".toList
  | 1, none, 2 => "\x7bodd\x7d".toList
  | min, none, _ => ['\x7b'] ++ Numeral.ofNat min ++ [',', '\x7d']
  | min, some max, _ =>
    if min = max then ['\x7b'] ++ Numeral.ofNat min ++ ['\x7d']
    else if min = 0 then ['\x7b', ','] ++ Numeral.ofNat max ++ ['\x7d']
    else ['\x7b'] ++ Numeral.ofNat min ++ [','] ++ Numeral.ofNat max ++ ['\x7d']

end Quantifier

end TreePattern
