import Mathlib.Data.Nat.Bitwise
import TreePattern.Regex.Matching

/-! The meaning of regular expressions as a relation between positions of a text, and its agreement
with matching by sets of positions. Every part of a plan leads from a set of positions to those that
the expression ends at; repetitions follow from what one round does, and no round leads back. -/

namespace TreePattern.Regex

/-- A number of steps of a relation, one after the other. -/
inductive Steps (R : Nat → Nat → Prop) : Nat → Nat → Nat → Prop where
  | zero (p) : Steps R 0 p p
  | succ {k p m q} (h : R p m) (hmore : Steps R k m q) : Steps R (k + 1) p q

/-- The expression matches what stands between two positions of a text. -/
def Spans (text : List Char) : Regex → Nat → Nat → Prop
  | empty, p, q => p = q
  | look l, p, q => p = q ∧ l.holds (text.take p).getLast? text[p]? = true
  | char s, p, q => q = p + 1 ∧ ∃ c, text[p]? = some c ∧ s.contains c = true
  | cat a b, p, q => ∃ m, a.Spans text p m ∧ b.Spans text m q
  | alt a b, p, q => a.Spans text p q ∨ b.Spans text p q
  | iterate e least most _, p, q =>
    ∃ k, least ≤ k ∧ (∀ m ∈ most, k ≤ m) ∧ Steps (e.Spans text) k p q
  | group _ e, p, q => e.Spans text p q

/-- No repetition asks for more rounds than it allows. -/
def Ordered : Regex → Prop
  | empty | look _ | char _ => True
  | cat a b | alt a b => a.Ordered ∧ b.Ordered
  | iterate e least most _ => e.Ordered ∧ ∀ m ∈ most, least ≤ m
  | group _ e => e.Ordered

/-! ## Steps -/

section

variable {R S : Nat → Nat → Prop} {n j k p q : Nat}

theorem steps_zero_iff : Steps R 0 p q ↔ p = q := by
  constructor
  · rintro ⟨⟩
    rfl
  · rintro rfl
    exact .zero p

theorem steps_succ_iff : Steps R (k + 1) p q ↔ ∃ m, R p m ∧ Steps R k m q := by
  constructor
  · rintro (_ | ⟨h, hmore⟩)
    exact ⟨_, h, hmore⟩
  · rintro ⟨m, h, hmore⟩
    exact .succ h hmore

theorem Steps.append {m : Nat} (h : Steps R j p m) (h' : Steps R k m q) : Steps R (j + k) p q := by
  induction h with
  | zero => rwa [Nat.zero_add]
  | succ h _ ih =>
      rw [Nat.succ_add]
      exact .succ h (ih h')

theorem steps_add_iff : Steps R (j + k) p q ↔ ∃ m, Steps R j p m ∧ Steps R k m q := by
  constructor
  · intro h
    induction j generalizing p with
    | zero => exact ⟨p, .zero p, by rwa [Nat.zero_add] at h⟩
    | succ j ih =>
        rw [Nat.succ_add] at h
        obtain ⟨m, hm, hmore⟩ := steps_succ_iff.mp h
        obtain ⟨m', hm', hmore'⟩ := ih hmore
        exact ⟨m', .succ hm hm', hmore'⟩
  · rintro ⟨m, h, h'⟩
    exact h.append h'

/-- Steps that may stand still are fewer steps. -/
theorem steps_or_iff : Steps (fun p q => p = q ∨ R p q) k p q ↔ ∃ j ≤ k, Steps R j p q := by
  induction k generalizing p with
  | zero => simp [steps_zero_iff]
  | succ k ih =>
      rw [steps_succ_iff]
      constructor
      · rintro ⟨m, hm, hmore⟩
        obtain ⟨j, hj, hsteps⟩ := ih.mp hmore
        rcases hm with rfl | hm
        · exact ⟨j, Nat.le_succ_of_le hj, hsteps⟩
        · exact ⟨j + 1, Nat.succ_le_succ hj, .succ hm hsteps⟩
      · rintro ⟨j, hj, hsteps⟩
        cases hsteps with
        | zero => exact ⟨_, .inl rfl, ih.mpr ⟨0, Nat.zero_le k, .zero _⟩⟩
        | succ hm hmore => exact ⟨_, .inr hm, ih.mpr ⟨_, Nat.le_of_succ_le_succ hj, hmore⟩⟩

/-- Steps that lead nowhere are all alike. -/
theorem steps_of_eq_iff (h : ∀ p q, R p q → p = q) :
    Steps R k p q ↔ p = q ∧ (k = 0 ∨ R p p) := by
  induction k generalizing p with
  | zero => simp [steps_zero_iff]
  | succ k ih =>
      rw [steps_succ_iff]
      constructor
      · rintro ⟨m, hm, hmore⟩
        obtain rfl := h p m hm
        exact ⟨(ih.mp hmore).1, .inr hm⟩
      · rintro ⟨rfl, hzero | hp⟩
        · cases hzero
        · exact ⟨p, hp, ih.mpr ⟨rfl, .inr hp⟩⟩

end

/-! ## Sets of positions -/

/-- Only positions up to `n` belong to the set. -/
def Bounded (n here : Nat) : Prop := ∀ p, here.testBit p = true → p ≤ n

/-- A function on sets of positions up to `n` finds where a relation leads to, which is never
back. -/
structure Computes (n : Nat) (step : Nat → Nat) (R : Nat → Nat → Prop) : Prop where
  le : ∀ {p q}, p ≤ n → R p q → p ≤ q ∧ q ≤ n
  testBit_iff : ∀ {here}, Bounded n here → ∀ q,
    (step here).testBit q = true ↔ ∃ p, here.testBit p = true ∧ R p q

namespace Computes

variable {R S : Nat → Nat → Prop} {step step' : Nat → Nat} {n : Nat}

theorem bounded (h : Computes n step R) {here : Nat} (hhere : Bounded n here) :
    Bounded n (step here) := by
  intro q hq
  obtain ⟨p, hp, hR⟩ := (h.testBit_iff hhere q).mp hq
  exact (h.le (hhere p hp) hR).2

theorem congr (h : Computes n step R) (hiff : ∀ p q, p ≤ n → (R p q ↔ S p q)) :
    Computes n step S where
  le hp hS := h.le hp ((hiff _ _ hp).mpr hS)
  testBit_iff hhere q := by
    rw [h.testBit_iff hhere]
    exact exists_congr fun p => and_congr_right fun hp => hiff p q (hhere p hp)

theorem id : Computes n (fun here => here) (fun p q => p = q) where
  le hp := by
    rintro rfl
    exact ⟨Nat.le_refl _, hp⟩
  testBit_iff _ _ := by simp

theorem comp (h : Computes n step R) (h' : Computes n step' S) :
    Computes n (fun here => step' (step here)) (fun p q => ∃ m, R p m ∧ S m q) where
  le hp := by
    rintro ⟨m, hR, hS⟩
    obtain ⟨hpm, hm⟩ := h.le hp hR
    obtain ⟨hmq, hq⟩ := h'.le hm hS
    exact ⟨hpm.trans hmq, hq⟩
  testBit_iff hhere q := by
    simp only [h'.testBit_iff (h.bounded hhere), h.testBit_iff hhere]
    constructor
    · rintro ⟨m, ⟨p, hp, hR⟩, hS⟩
      exact ⟨p, hp, m, hR, hS⟩
    · rintro ⟨p, hp, m, hR, hS⟩
      exact ⟨m, ⟨p, hp, hR⟩, hS⟩

theorem union (h : Computes n step R) (h' : Computes n step' S) :
    Computes n (fun here => step here ||| step' here) (fun p q => R p q ∨ S p q) where
  le hp := Or.rec (h.le hp) (h'.le hp)
  testBit_iff hhere q := by
    simp only [Nat.testBit_or, Bool.or_eq_true, h.testBit_iff hhere, h'.testBit_iff hhere]
    rw [← exists_or]
    exact exists_congr fun p => and_or_left.symm

end Computes

/-! ## Repetitions -/

theorem times_of_eq {step : Nat → Nat} {here : Nat} (h : step here = here) (k : Nat) :
    times step k here = here := by
  cases k with
  | zero => rfl
  | succ k => simp [times, h]

theorem times_succ (step : Nat → Nat) (k here : Nat) :
    times step (k + 1) here = times step k (step here) := by
  by_cases h : step here = here
  · rw [h, times_of_eq h, times_of_eq h]
  · simp [times, h]

namespace Computes

variable {R : Nat → Nat → Prop} {step step' : Nat → Nat} {n : Nat}

theorem times (h : Computes n step R) (k : Nat) :
    Computes n (Regex.times step k) (Steps R k) := by
  induction k with
  | zero => exact id.congr fun _ _ _ => steps_zero_iff.symm
  | succ k ih =>
      rw [funext (times_succ step k)]
      exact (h.comp ih).congr fun _ _ _ => steps_succ_iff.symm

theorem within (h : Computes n step R) (k : Nat) :
    Computes n (Regex.within step k) (fun p q => ∃ j ≤ k, Steps R j p q) :=
  ((id.union h).times k).congr fun _ _ _ => steps_or_iff

/-- As steps do not lead back, there need not be more of them than positions are passed. -/
theorem steps_le (h : Computes n step R) {k p q : Nat} (hp : p ≤ n) (hsteps : Steps R k p q) :
    p ≤ q ∧ q ≤ n ∧ ∃ j ≤ q - p, Steps R j p q := by
  induction hsteps with
  | zero p => exact ⟨Nat.le_refl p, hp, 0, Nat.zero_le _, .zero p⟩
  | @succ k p m q hR _ ih =>
      obtain ⟨hpm, hm⟩ := h.le hp hR
      obtain ⟨hmq, hq, j, hj, hsteps⟩ := ih hm
      refine ⟨hpm.trans hmq, hq, ?_⟩
      rcases hpm.eq_or_lt with rfl | hlt
      · exact ⟨j, hj, hsteps⟩
      · exact ⟨j + 1, by omega, .succ hR hsteps⟩

theorem loop (h : Computes n step R) :
    Computes n (Regex.within step (n + 1)) (fun p q => ∃ j, Steps R j p q) := by
  refine (h.within (n + 1)).congr fun p q hp => ⟨fun ⟨j, _, hj⟩ => ⟨j, hj⟩, fun ⟨k, hk⟩ => ?_⟩
  obtain ⟨_, hq, j, hj, hsteps⟩ := h.steps_le hp hk
  exact ⟨j, by omega, hsteps⟩

/-- Behind as many steps as there have to be, there may be some more. -/
theorem times_comp (h : Computes n step R) {P : Nat → Prop}
    (h' : Computes n step' fun p q => ∃ j, P j ∧ Steps R j p q) (k : Nat) :
    Computes n (fun here => step' (Regex.times step k here))
      (fun p q => ∃ j, P j ∧ Steps R (k + j) p q) := by
  refine ((h.times k).comp h').congr fun p q _ => ?_
  simp only [steps_add_iff]
  constructor
  · rintro ⟨m, hm, j, hj, hmore⟩
    exact ⟨j, hj, m, hm, hmore⟩
  · rintro ⟨j, hj, m, hm, hmore⟩
    exact ⟨m, hm, j, hj, hmore⟩

/-- Where steps lead nowhere, one does as well as many. -/
theorem times_min (h : Computes n step R) (hstill : ∀ p q, R p q → p = q) (k : Nat) :
    Computes n (Regex.times step (min k 1)) (Steps R k) := by
  refine (h.times (min k 1)).congr fun p q _ => ?_
  rw [steps_of_eq_iff hstill, steps_of_eq_iff hstill]
  have hzero : min k 1 = 0 ↔ k = 0 := by omega
  rw [hzero]

end Computes

/-! ## Tables -/

theorem testBit_gather (rows : List Nat) (set q : Nat) : (gather rows set).testBit q = true ↔
    ∃ i row, rows[i]? = some row ∧ set.testBit i = true ∧ row.testBit q = true := by
  induction rows generalizing set with
  | nil => simp [gather]
  | cons row rows ih =>
      have hfirst : (if set % 2 = 1 then row else 0).testBit q = true ↔
          set.testBit 0 = true ∧ row.testBit q = true := by
        rw [Nat.testBit_zero, decide_eq_true_eq]
        by_cases hset : set % 2 = 1 <;> simp [hset]
      rw [gather, Nat.testBit_or, Bool.or_eq_true, hfirst, ih]
      constructor
      · rintro (⟨hset, hrow⟩ | ⟨i, row', hi, hset, hrow⟩)
        · exact ⟨0, row, rfl, hset, hrow⟩
        · exact ⟨i + 1, row', hi, by rwa [Nat.testBit_succ], hrow⟩
      · rintro ⟨_ | i, row', hi, hset, hrow⟩
        · cases hi
          exact .inl ⟨hset, hrow⟩
        · exact .inr ⟨i, row', hi, by rwa [Nat.testBit_succ] at hset, hrow⟩

/-- One row of a table: a position itself, and what the rows of later positions lead to. -/
def row (step : Nat → Nat) (p : Nat) (rows : List Nat) : Nat :=
  1 <<< p ||| gather rows (step (1 <<< p) >>> (p + 1))

/-- The rows of the positions from `start` on. -/
def Tabulates (R : Nat → Nat → Prop) (start : Nat) (rows : List Nat) : Prop :=
  ∀ i row, rows[i]? = some row → ∀ q, row.testBit q = true ↔ ∃ k, Steps R k (start + i) q

namespace Computes

variable {R : Nat → Nat → Prop} {step : Nat → Nat} {n : Nat}

theorem testBit_one_shiftLeft (h : Computes n step R) {p : Nat} (hp : p ≤ n) (q : Nat) :
    (step (1 <<< p)).testBit q = true ↔ R p q := by
  have hbit (r : Nat) : (1 <<< p).testBit r = true ↔ p = r := by
    rw [Nat.one_shiftLeft, Nat.testBit_two_pow, decide_eq_true_eq]
  have hbounded : Bounded n (1 <<< p) := by
    intro r hr
    rwa [← (hbit r).mp hr]
  rw [h.testBit_iff hbounded]
  simp only [hbit, exists_eq_left']

/-- Steps begin with one that leads on, if they lead on at all. -/
theorem steps_iff_first (h : Computes n step R) {p q : Nat} (hp : p ≤ n) :
    (∃ k, Steps R k p q) ↔ p = q ∨ ∃ m, p < m ∧ m ≤ n ∧ R p m ∧ ∃ k, Steps R k m q := by
  constructor
  · rintro ⟨k, hsteps⟩
    induction hsteps with
    | zero => exact .inl rfl
    | @succ k p m q hR hmore ih =>
        obtain ⟨hpm, hm⟩ := h.le hp hR
        rcases hpm.eq_or_lt with rfl | hlt
        · exact ih hp
        · exact .inr ⟨m, hlt, hm, hR, k, hmore⟩
  · rintro (rfl | ⟨m, _, _, hR, k, hmore⟩)
    · exact ⟨0, .zero p⟩
    · exact ⟨k + 1, .succ hR hmore⟩

theorem tabulates_cons (h : Computes n step R) {p : Nat} {rows : List Nat}
    (hlength : p + 1 + rows.length = n + 1) (hrows : Tabulates R (p + 1) rows) :
    Tabulates R p (row step p rows :: rows) := by
  rintro (_ | i) r hr q
  · cases hr
    rw [Nat.add_zero, h.steps_iff_first (by omega), row, Nat.testBit_or, Bool.or_eq_true,
      Nat.one_shiftLeft, Nat.testBit_two_pow, decide_eq_true_eq, testBit_gather]
    refine or_congr_right ⟨?_, ?_⟩
    · rintro ⟨i, r, hr, hstep, hq⟩
      rw [Nat.testBit_shiftRight, ← Nat.one_shiftLeft,
        h.testBit_one_shiftLeft (by omega)] at hstep
      obtain ⟨hi, _⟩ := List.getElem?_eq_some_iff.mp hr
      exact ⟨p + 1 + i, by omega, by omega, hstep, (hrows i r hr q).mp hq⟩
    · rintro ⟨m, hlt, hm, hR, hsteps⟩
      obtain ⟨i, rfl⟩ := Nat.exists_eq_add_of_le (Nat.succ_le_of_lt hlt)
      have hi : i < rows.length := by omega
      refine ⟨i, rows[i], List.getElem?_eq_getElem hi, ?_,
        (hrows i _ (List.getElem?_eq_getElem hi) q).mpr hsteps⟩
      rw [Nat.testBit_shiftRight, ← Nat.one_shiftLeft]
      exact (h.testBit_one_shiftLeft (by omega) _).mpr hR
  · have hshift : p + (i + 1) = p + 1 + i := by omega
    rw [hshift]
    exact hrows i r hr q

/-- The table is built from its last row on. -/
theorem tabulates_reachable (h : Computes n step R) : Tabulates R 0 (reachable step n) ∧
    (reachable step n).length = n + 1 := by
  have hrange (start len : Nat) (hlen : start + len = n + 1) :
      let rows := (List.range' start len).foldr (fun p rows => row step p rows :: rows) []
      Tabulates R start rows ∧ rows.length = len := by
    induction len generalizing start with
    | zero => exact ⟨fun i r hr => by simp at hr, rfl⟩
    | succ len ih =>
        obtain ⟨hrows, hlength⟩ := ih (start + 1) (by omega)
        rw [List.range'_succ, List.foldr_cons]
        exact ⟨h.tabulates_cons (by omega) hrows, by rw [List.length_cons, hlength]⟩
  rw [reachable, List.range_eq_range']
  exact hrange 0 (n + 1) (Nat.zero_add _)

theorem table (h : Computes n step R) :
    Computes n (gather (reachable step n)) (fun p q => ∃ k, Steps R k p q) where
  le hp := by
    rintro ⟨k, hsteps⟩
    obtain ⟨hpq, hq, _⟩ := h.steps_le hp hsteps
    exact ⟨hpq, hq⟩
  testBit_iff hhere q := by
    obtain ⟨hrows, hlength⟩ := h.tabulates_reachable
    rw [testBit_gather]
    constructor
    · rintro ⟨p, r, hr, hp, hq⟩
      have hsteps := (hrows p r hr q).mp hq
      rw [Nat.zero_add] at hsteps
      exact ⟨p, hp, hsteps⟩
    · rintro ⟨p, hp, hsteps⟩
      have hlt : p < (reachable step n).length := by
        have := hhere p hp
        omega
      refine ⟨p, _, List.getElem?_eq_getElem hlt, hp, ?_⟩
      rw [hrows p _ (List.getElem?_eq_getElem hlt), Nat.zero_add]
      exact hsteps

end Computes

/-! ## Plans -/

theorem testBit_bits (bs : List Bool) (p : Nat) :
    (bits bs).testBit p = true ↔ bs[p]? = some true := by
  induction bs generalizing p with
  | nil => simp [bits]
  | cons b bs ih =>
      cases p with
      | zero => cases b <;> simp [bits, Nat.testBit_zero]
      | succ p =>
          have hhalf : (b.toNat + 2 * bits bs) / 2 = bits bs := by
            cases b
            all_goals
              simp only [Bool.toNat_true, Bool.toNat_false]
              omega
          rw [bits, Nat.testBit_succ, hhalf, ih, List.getElem?_cons_succ]

theorem testBit_all (n p : Nat) : (1 <<< (n + 1) - 1).testBit p = true ↔ p ≤ n := by
  rw [Nat.one_shiftLeft, Nat.testBit_two_pow_sub_one, decide_eq_true_eq, Nat.lt_succ_iff]

theorem bounded_all (n : Nat) : Bounded n (1 <<< (n + 1) - 1) :=
  fun p => (testBit_all n p).mp

section

variable {text : List Char}

/-- What stands on the sides of a position. -/
theorem getElem?_sides {p : Nat} (hp : p ≤ text.length) :
    (sides text)[p]? = some ((text.take p).getLast?, text[p]?) := by
  have hbefore : (none :: text.map some)[p]? = some (text.take p).getLast? := by
    cases p with
    | zero => simp
    | succ p => simp [List.getLast?_take, List.getElem?_eq_getElem hp]
  have hbehind : (text.map some ++ [none])[p]? = some text[p]? := by
    rcases hp.eq_or_lt with rfl | hlt
    · simp
    · rw [List.getElem?_append_left (by simpa using hlt)]
      simp [hlt]
  exact List.getElem?_zip_eq_some.mpr ⟨hbefore, hbehind⟩

theorem computes_empty : Computes text.length ((plan text empty).ends text.length)
    (empty.Spans text) where
  le := Computes.id.le
  testBit_iff hhere q := by
    rw [plan, Plan.ends, Nat.testBit_and, Bool.and_eq_true, testBit_all,
      and_iff_left_of_imp (hhere q)]
    simp [Spans]

theorem computes_look (l : Look) : Computes text.length ((plan text (look l)).ends text.length)
    ((look l).Spans text) where
  le hp := by
    rintro ⟨rfl, _⟩
    exact ⟨Nat.le_refl _, hp⟩
  testBit_iff {here} hhere q := by
    rw [plan, Plan.ends, Nat.testBit_and, Bool.and_eq_true, testBit_bits, List.getElem?_map]
    constructor
    · rintro ⟨hq, hholds⟩
      rw [getElem?_sides (hhere q hq), Option.map_some, Option.some.injEq] at hholds
      exact ⟨q, hq, rfl, hholds⟩
    · rintro ⟨p, hp, rfl, hholds⟩
      rw [getElem?_sides (hhere p hp), Option.map_some, Option.some.injEq]
      exact ⟨hp, hholds⟩

theorem computes_char (s : Unicode.CharSet) :
    Computes text.length ((plan text (char s)).ends text.length) ((char s).Spans text) where
  le {p q} _ := by
    rintro ⟨rfl, c, hc, _⟩
    obtain ⟨hlt, _⟩ := List.getElem?_eq_some_iff.mp hc
    exact ⟨Nat.le_succ p, hlt⟩
  testBit_iff {here} _ q := by
    have hset (p : Nat) : (bits (text.map s.contains)).testBit p = true ↔
        ∃ c, text[p]? = some c ∧ s.contains c = true := by
      rw [testBit_bits, List.getElem?_map, Option.map_eq_some_iff]
    rw [plan, Plan.ends, Nat.testBit_shiftLeft, Bool.and_eq_true, decide_eq_true_eq,
      Nat.testBit_and, Bool.and_eq_true, hset]
    constructor
    · rintro ⟨hq, hhere, hc⟩
      exact ⟨q - 1, hhere, by omega, hc⟩
    · rintro ⟨p, hp, rfl, hc⟩
      exact ⟨Nat.le_add_left 1 p, hp, hc⟩

theorem plan_iterate (e : Regex) (least : Nat) (most : Option Nat) (greedy : Bool) :
    plan text (iterate e least most greedy) =
      if e.isZeroWidth then .repeated (plan text e) (min least 1) 0
      else match most with
        | some most => .repeated (plan text e) least (most - least)
        | none => .cat (.repeated (plan text e) least 0) ((plan text e).star text.length) :=
  rfl

/-- What consumes no character ends where it starts. -/
theorem Spans.eq {e : Regex} {p q : Nat} (h : e.Spans text p q) (hzero : e.isZeroWidth = true)
    (hordered : e.Ordered) : p = q := by
  induction e generalizing p q with
  | empty => exact h
  | look l => exact h.1
  | char s => cases hzero
  | cat a b iha ihb =>
      obtain ⟨m, ha, hb⟩ := h
      obtain ⟨hza, hzb⟩ := Bool.and_eq_true_iff.mp hzero
      exact (iha ha hza hordered.1).trans (ihb hb hzb hordered.2)
  | alt a b iha ihb =>
      obtain ⟨hza, hzb⟩ := Bool.and_eq_true_iff.mp hzero
      exact h.elim (iha · hza hordered.1) (ihb · hzb hordered.2)
  | iterate e least most greedy ih =>
      obtain ⟨k, _, hmost, hsteps⟩ := h
      rcases Bool.or_eq_true_iff.mp hzero with hnone | hzero
      · obtain rfl : k = 0 := Nat.le_zero.mp (hmost 0 (eq_of_beq hnone))
        exact steps_zero_iff.mp hsteps
      · exact ((steps_of_eq_iff fun p q h => ih h hzero hordered.1).mp hsteps).1
  | group index e ih => exact ih h hzero hordered

theorem computes_star {R : Nat → Nat → Prop} {n : Nat} {a : Plan}
    (h : Computes n (a.ends n) R) :
    Computes n ((a.star n).ends n) (fun p q => ∃ j, Steps R j p q) := by
  rw [Plan.star]
  split
  · exact h.table
  · exact h.loop

theorem computes_iterate {e : Regex} {least : Nat} {most : Option Nat} {greedy : Bool}
    (he : Computes text.length ((plan text e).ends text.length) (e.Spans text))
    (h : (iterate e least most greedy).Ordered) :
    Computes text.length ((plan text (iterate e least most greedy)).ends text.length)
      ((iterate e least most greedy).Spans text) := by
  obtain ⟨hordered, hmost⟩ := h
  rw [plan_iterate]
  by_cases hzero : e.isZeroWidth = true
  · have hstill (p q : Nat) (hspans : e.Spans text p q) : p = q := hspans.eq hzero hordered
    rw [if_pos hzero]
    refine (he.times_min hstill least).congr fun p q _ => ⟨?_, ?_⟩
    · exact fun hsteps => ⟨least, Nat.le_refl least, hmost, hsteps⟩
    · rintro ⟨k, hk, _, hsteps⟩
      rw [steps_of_eq_iff hstill] at hsteps ⊢
      exact ⟨hsteps.1, hsteps.2.imp_left (by omega)⟩
  · rw [if_neg hzero]
    cases most with
    | some most =>
        have hle : least ≤ most := hmost most rfl
        refine (he.times_comp (he.within (most - least)) least).congr fun p q _ => ⟨?_, ?_⟩
        · rintro ⟨j, hj, hsteps⟩
          refine ⟨least + j, Nat.le_add_right least j, ?_, hsteps⟩
          rintro _ ⟨⟩
          omega
        · rintro ⟨k, hk, hbound, hsteps⟩
          obtain ⟨j, rfl⟩ := Nat.exists_eq_add_of_le hk
          have hj := hbound most rfl
          exact ⟨j, by omega, hsteps⟩
    | none =>
        have hstar := (computes_star he).congr (S := fun p q =>
          ∃ j, True ∧ Steps (e.Spans text) j p q) fun p q _ => by simp only [true_and]
        refine (he.times_comp hstar least).congr fun p q _ => ⟨?_, ?_⟩
        · rintro ⟨j, _, hsteps⟩
          exact ⟨least + j, Nat.le_add_right least j, nofun, hsteps⟩
        · rintro ⟨k, hk, _, hsteps⟩
          obtain ⟨j, rfl⟩ := Nat.exists_eq_add_of_le hk
          exact ⟨j, trivial, hsteps⟩

/-- A plan leads to the positions that its expression ends at, by induction on the expression. -/
theorem computes_plan (e : Regex) (h : e.Ordered) :
    Computes text.length ((plan text e).ends text.length) (e.Spans text) := by
  induction e with
  | empty => exact computes_empty
  | look l => exact computes_look l
  | char s => exact computes_char s
  | cat a b iha ihb => exact (iha h.1).comp (ihb h.2)
  | alt a b iha ihb => exact (iha h.1).union (ihb h.2)
  | group index e ih => exact ih h
  | iterate e least most greedy ih => exact computes_iterate (ih h.1) h

/-- Matching finds out whether the expression matches what stands between two positions of the
text. -/
theorem isMatch_iff_spans {e : Regex} (h : e.Ordered) :
    e.isMatch text = true ↔ ∃ p ≤ text.length, ∃ q, e.Spans text p q := by
  have hcomputes : Computes text.length ((plan text e).ends text.length) (e.Spans text) :=
    computes_plan e h
  have hbit (q : Nat) : ((plan text e).ends text.length (1 <<< (text.length + 1) - 1)).testBit q =
      true ↔ ∃ p ≤ text.length, e.Spans text p q := by
    simp only [hcomputes.testBit_iff (bounded_all text.length), testBit_all]
  rw [isMatch, bne_iff_ne]
  constructor
  · intro hne
    by_contra hnone
    refine hne (Nat.zero_of_testBit_eq_false fun q => Bool.eq_false_iff.mpr fun hq => hnone ?_)
    obtain ⟨p, hp, hspans⟩ := (hbit q).mp hq
    exact ⟨p, hp, q, hspans⟩
  · rintro ⟨p, hp, q, hspans⟩ hzero
    have hq := (hbit q).mpr ⟨p, hp, hspans⟩
    rw [hzero, Nat.zero_testBit] at hq
    cases hq

end

end TreePattern.Regex
