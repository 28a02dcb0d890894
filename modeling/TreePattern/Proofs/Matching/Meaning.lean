import Mathlib.Algebra.GroupWithZero.Nat
import Mathlib.Data.List.Basic
import TreePattern.Pattern.Matching
import TreePattern.Proofs.Pattern.Induction

/-! The meaning of patterns as a relation, and its agreement with the evaluation. An array is cut
into consecutive segments, one for each item; the relation says what a segment may be, not how it
is found. -/

namespace TreePattern

namespace Pattern

/-! ## Nodes and choices -/

theorem attributesAccept_iff (attributes : List (String × Pattern)) (m : Tree) :
    attributesAccept attributes m = true ↔
      ∀ a ∈ attributes, ∃ v, m.get? a.1 = some v ∧ a.2.accepts v = true := by
  induction attributes with
  | nil => simp [attributesAccept]
  | cons a rest ih =>
      obtain ⟨name, p⟩ := a
      cases h : m.get? name <;> simp [attributesAccept, h, ih]

theorem anyAccepts_iff (ps : List Pattern) (v : Value) :
    anyAccepts ps v = true ↔ ∃ p ∈ ps, p.accepts v = true := by
  induction ps with
  | nil => simp [anyAccepts]
  | cons p ps ih => simp [anyAccepts, ih]

theorem accepts_node {className : String} {attributes : List (String × Pattern)} {m : Tree} :
    (node ⟨className, attributes⟩).accepts (.node m) = true ↔ className = m.className ∧
      ∀ a ∈ attributes, ∃ v, m.get? a.1 = some v ∧ a.2.accepts v = true := by
  rw [accepts, nodeAccepts, Bool.and_eq_true, beq_iff_eq, attributesAccept_iff]

theorem accepts_choice {p : Pattern} {ps : List Pattern} {v : Value} :
    (choice p ps).accepts v = true ↔ p.accepts v = true ∨ ∃ q ∈ ps, q.accepts v = true := by
  rw [accepts, Bool.or_eq_true, anyAccepts_iff]

/-! ## The relation -/

mutual

/-- The values that a pattern stands for. -/
inductive Matches : Pattern → Value → Prop where
  | any (v) : Matches any v
  | scalar (s) : Matches (scalar s) (.scalar s)
  | regexpSymbol {kind r s} (hk : kind ≠ .string) (hr : r.isMatch s = true) :
      Matches (regexp kind r) (.scalar (.symbol s))
  | regexpString {kind r s} (hk : kind ≠ .symbol) (hr : r.isMatch s = true) :
      Matches (regexp kind r) (.scalar (.string s))
  | node {n : Node Pattern} {m : Tree} (hc : m.className = n.className)
      (hs : ∀ a ∈ n.attributes, (m.get? a.1).isSome)
      (ha : ∀ a ∈ n.attributes, ∀ v, m.get? a.1 = some v → Matches a.2 v) :
      Matches (node n) (.node m)
  | choice {p ps q v} (hq : q ∈ p :: ps) (h : Matches q v) : Matches (choice p ps) v
  | array {items segments} (h : Segmented items segments) :
      Matches (array items) (.array segments.flatten)

/-- The segments of an array that an item stands for. -/
inductive Covers : Item Pattern → List Value → Prop where
  | one {p v} (h : Matches p v) : Covers (.one p) [v]
  | many {q : Quantifier} {p s} (j : Nat) (hj : s.length = q.min + j * q.step)
      (hm : ∀ m ∈ q.max, s.length ≤ m) (h : ∀ v ∈ s, Matches p v) : Covers (.many q p) s

/-- One segment for each item, in order. -/
inductive Segmented : List (Item Pattern) → List (List Value) → Prop where
  | nil : Segmented [] []
  | cons {x s xs ss} (h : Covers x s) (hs : Segmented xs ss) : Segmented (x :: xs) (s :: ss)

end

end Pattern

/-! ## Quantifiers -/

namespace Quantifier

theorem allows_iff (q : Quantifier) (n : Nat) :
    q.allows n = true ↔ (∃ j, n = q.min + j * q.step) ∧ ∀ m ∈ q.max, n ≤ m := by
  have hmax : q.max.all (n ≤ ·) = true ↔ ∀ m ∈ q.max, n ≤ m := by
    cases q.max <;> simp
  simp only [allows, Bool.and_eq_true, decide_eq_true_eq, hmax, beq_iff_eq]
  constructor
  · rintro ⟨⟨hmin, hm⟩, hmod⟩
    refine ⟨⟨(n - q.min) / q.step, ?_⟩, hm⟩
    have hdiv := Nat.div_add_mod (n - q.min) q.step
    rw [hmod, Nat.mul_comm] at hdiv
    omega
  · rintro ⟨⟨j, rfl⟩, hm⟩
    refine ⟨⟨by omega, hm⟩, ?_⟩
    rw [Nat.add_sub_cancel_left, Nat.mul_mod_left]

theorem splits_iff (q : Quantifier) (elements suffixes : List Bool) :
    q.splits elements suffixes = true ↔
      ∃ k, k ≤ elements.length ∧ q.allows k = true ∧ (∀ b ∈ elements.take k, b = true) ∧
        suffixes[k]? = some true := by
  have htake : ∀ k, k ≤ (elements.takeWhile id).length ↔
      k ≤ elements.length ∧ ∀ b ∈ elements.take k, b = true := by
    intro k
    induction elements generalizing k with
    | nil => simp
    | cons b elements ih =>
        cases k with
        | zero => simp
        | succ k => cases b <;> simp [ih]
  simp only [splits, List.any_eq_true, Bool.and_eq_true, Prod.exists, List.mem_zipIdx_iff_getElem?,
    List.getElem?_take]
  constructor
  · rintro ⟨b, k, hk, rfl, ha⟩
    split at hk
    · rename_i hlt
      obtain ⟨hle, hall⟩ := (htake k).mp (by omega)
      exact ⟨k, hle, ha, hall, hk⟩
    · cases hk
  · rintro ⟨k, hle, ha, hall, hk⟩
    have hlt := (htake k).mpr ⟨hle, hall⟩
    exact ⟨true, k, by rw [if_pos (by omega)]; exact hk, rfl, ha⟩

end Quantifier

/-! ## Answers for all suffixes -/

/-- The Booleans say of each suffix of an array, from the whole array to the empty one, whether it
has a property. -/
def Answers (P : List Value → Prop) : List Value → List Bool → Prop
  | [], answers => ∃ b, answers = [b] ∧ (b = true ↔ P [])
  | v :: vs, answers => ∃ b rest, answers = b :: rest ∧ (b = true ↔ P (v :: vs)) ∧ Answers P vs rest

namespace Answers

variable {P : List Value → Prop} {vs : List Value} {answers : List Bool}

theorem headD_iff (h : Answers P vs answers) : answers.headD false = true ↔ P vs := by
  cases vs with
  | nil =>
      obtain ⟨b, rfl, hb⟩ := h
      exact hb
  | cons v vs =>
      obtain ⟨b, rest, rfl, hb, _⟩ := h
      exact hb

theorem getElem?_iff (h : Answers P vs answers) (k : Nat) :
    answers[k]? = some true ↔ k ≤ vs.length ∧ P (vs.drop k) := by
  induction vs generalizing answers k with
  | nil =>
      obtain ⟨b, rfl, hb⟩ := h
      cases k <;> simp [hb]
  | cons v vs ih =>
      obtain ⟨b, rest, rfl, hb, hrest⟩ := h
      cases k with
      | zero => simp [hb]
      | succ k => simp [ih hrest k]

/-- Without a first element there is nothing that one element could be. -/
theorem single {accepts : Value → Bool} (h : Answers P vs answers) :
    Answers (fun s => ∃ v rest, s = v :: rest ∧ accepts v = true ∧ P rest) vs
      ((vs.map accepts).zipWith (· && ·) answers.tail ++ [false]) := by
  induction vs generalizing answers with
  | nil => exact ⟨false, by simp, by simp⟩
  | cons v vs ih =>
      obtain ⟨b, rest, rfl, _, hrest⟩ := h
      refine ⟨accepts v && rest.headD false, _, ?_, ?_, ih hrest⟩
      · cases vs with
        | nil =>
            obtain ⟨c, rfl, _⟩ := hrest
            simp
        | cons w vs =>
            obtain ⟨c, others, rfl, _, _⟩ := hrest
            simp
      · rw [Bool.and_eq_true, headD_iff hrest]
        simp

theorem repeated {accepts : Value → Bool} (q : Quantifier) (h : Answers P vs answers) :
    Answers (fun s => ∃ k, k ≤ s.length ∧ q.allows k = true ∧ (∀ v ∈ s.take k, accepts v = true) ∧
      P (s.drop k)) vs (q.splitsEach (vs.map accepts) answers) := by
  have hsplits : ∀ {vs answers}, Answers P vs answers → (q.splits (vs.map accepts) answers = true ↔
      ∃ k, k ≤ vs.length ∧ q.allows k = true ∧ (∀ v ∈ vs.take k, accepts v = true) ∧
        P (vs.drop k)) := by
    intro vs answers h
    rw [q.splits_iff]
    apply exists_congr
    intro k
    rw [getElem?_iff h k, ← List.map_take]
    simp only [List.length_map, List.forall_mem_map]
    tauto
  induction vs generalizing answers with
  | nil => exact ⟨_, rfl, hsplits h⟩
  | cons v vs ih =>
      refine ⟨_, _, rfl, hsplits h, ?_⟩
      obtain ⟨b, rest, rfl, _, hrest⟩ := h
      exact ih hrest

end Answers

/-! ## Cutting an array -/

namespace Pattern

/-- An array can be cut into one segment for each item. -/
def Cut (items : List (Item Pattern)) (vs : List Value) : Prop :=
  ∃ segments, Segmented items segments ∧ segments.flatten = vs

theorem cut_nil (vs : List Value) : Cut [] vs ↔ vs = [] := by
  constructor
  · rintro ⟨_, ⟨⟩, rfl⟩
    rfl
  · rintro rfl
    exact ⟨[], .nil, rfl⟩

theorem cut_one (p : Pattern) (items : List (Item Pattern)) (vs : List Value) :
    Cut (.one p :: items) vs ↔ ∃ v rest, vs = v :: rest ∧ Matches p v ∧ Cut items rest := by
  constructor
  · rintro ⟨_, hsegmented, rfl⟩
    cases hsegmented with
    | cons hx hs =>
        cases hx with
        | one hv => exact ⟨_, _, rfl, hv, _, hs, rfl⟩
  · rintro ⟨v, _, rfl, hv, segments, hs, rfl⟩
    exact ⟨[v] :: segments, .cons (.one hv) hs, rfl⟩

theorem cut_many (q : Quantifier) (p : Pattern) (items : List (Item Pattern)) (vs : List Value) :
    Cut (.many q p :: items) vs ↔ ∃ k, k ≤ vs.length ∧ q.allows k = true ∧
      (∀ v ∈ vs.take k, Matches p v) ∧ Cut items (vs.drop k) := by
  constructor
  · rintro ⟨_, hsegmented, rfl⟩
    cases hsegmented with
    | @cons _ s _ segments hx hs =>
        cases hx with
        | many j hj hm hv =>
            refine ⟨s.length, by simp, (q.allows_iff _).mpr ⟨⟨j, hj⟩, hm⟩, ?_, segments, hs, ?_⟩
            · simpa using hv
            · simp
  · rintro ⟨k, hk, ha, hv, segments, hs, hflat⟩
    obtain ⟨⟨j, hj⟩, hm⟩ := (q.allows_iff k).mp ha
    have hlength : (vs.take k).length = k := by simp [hk]
    refine ⟨vs.take k :: segments, .cons (.many j ?_ ?_ hv) hs, ?_⟩
    · rw [hlength, hj]
    · rwa [hlength]
    · rw [List.flatten_cons, hflat, List.take_append_drop]

/-! ## The evaluation agrees with the meaning -/

/-- The answer for each suffix is whether the suffix can be cut. -/
theorem answers_itemsAccept {items : List (Item Pattern)} (vs : List Value)
    (h : ∀ x ∈ items, ∀ v, x.pattern.accepts v = true ↔ Matches x.pattern v) :
    Answers (Cut items) vs (itemsAccept items vs) := by
  induction items with
  | nil =>
      induction vs with
      | nil => exact ⟨true, rfl, by simp [cut_nil]⟩
      | cons v vs ih => exact ⟨false, _, rfl, by simp [cut_nil], ih⟩
  | cons x items ih =>
      have hrest := ih fun y hy => h y (by simp [hy])
      have hx := h x (by simp)
      cases x with
      | one p =>
          have hp : ∀ v, p.accepts v = true ↔ Matches p v := hx
          have hcut : Cut (.one p :: items) = fun s =>
              ∃ v rest, s = v :: rest ∧ p.accepts v = true ∧ Cut items rest := by
            funext s
            simp only [cut_one, hp]
          rw [hcut, itemsAccept, itemAccepts]
          exact hrest.single
      | many q p =>
          have hp : ∀ v, p.accepts v = true ↔ Matches p v := hx
          have hcut : Cut (.many q p :: items) = fun s => ∃ k, k ≤ s.length ∧ q.allows k = true ∧
              (∀ v ∈ s.take k, p.accepts v = true) ∧ Cut items (s.drop k) := by
            funext s
            simp only [cut_many, hp]
          rw [hcut, itemsAccept, itemAccepts]
          exact hrest.repeated q

theorem accepts_scalar_iff (s : Scalar) (v : Value) :
    (scalar s).accepts v = true ↔ Matches (scalar s) v := by
  constructor
  · intro h
    cases v <;> simp [accepts] at h
    subst h
    exact .scalar s
  · rintro ⟨⟩
    simp [accepts]

theorem accepts_regexp_iff (kind : TextKind) (r : Regexp) (v : Value) :
    (regexp kind r).accepts v = true ↔ Matches (regexp kind r) v := by
  constructor
  · intro h
    rcases v with (_ | _ | _ | s | s) | _ | _ <;> cases kind <;>
      simp [accepts, TextKind.text?] at h
    · exact .regexpString (by simp) h
    · exact .regexpString (by simp) h
    · exact .regexpSymbol (by simp) h
    · exact .regexpSymbol (by simp) h
  · rintro (_ | _)
    · cases kind <;> simp_all [accepts, TextKind.text?]
    · cases kind <;> simp_all [accepts, TextKind.text?]

theorem accepts_node_iff {className : String} {attributes : List (String × Pattern)}
    (h : ∀ a ∈ attributes, ∀ v, a.2.accepts v = true ↔ Matches a.2 v) (v : Value) :
    (node ⟨className, attributes⟩).accepts v = true ↔ Matches (node ⟨className, attributes⟩) v := by
  cases v with
  | scalar s => exact iff_of_false (by simp [accepts]) (fun h => by cases h)
  | array vs => exact iff_of_false (by simp [accepts]) (fun h => by cases h)
  | node m =>
      rw [accepts_node]
      constructor
      · rintro ⟨hc, ha⟩
        refine .node hc.symm (fun a hmem => ?_) (fun a hmem w hw => ?_)
        · obtain ⟨w, hw, _⟩ := ha a hmem
          simp [hw]
        · obtain ⟨u, hu, haccepts⟩ := ha a hmem
          rw [hw] at hu
          cases hu
          exact (h a hmem w).mp haccepts
      · intro hmatches
        cases hmatches with
        | node hc hs ha =>
            refine ⟨hc.symm, fun a hmem => ?_⟩
            obtain ⟨w, hw⟩ := Option.isSome_iff_exists.mp (hs a hmem)
            exact ⟨w, hw, (h a hmem w).mpr (ha a hmem w hw)⟩

theorem accepts_choice_iff {p : Pattern} {ps : List Pattern} {v : Value}
    (hp : p.accepts v = true ↔ Matches p v) (hps : ∀ q ∈ ps, q.accepts v = true ↔ Matches q v) :
    (choice p ps).accepts v = true ↔ Matches (choice p ps) v := by
  rw [accepts_choice]
  constructor
  · rintro (h | ⟨q, hq, h⟩)
    · exact .choice List.mem_cons_self (hp.mp h)
    · exact .choice (List.mem_cons_of_mem p hq) ((hps q hq).mp h)
  · intro h
    cases h with
    | choice hq h =>
        rcases List.mem_cons.mp hq with rfl | hq
        · exact .inl (hp.mpr h)
        · exact .inr ⟨_, hq, (hps _ hq).mpr h⟩

theorem accepts_array_iff {items : List (Item Pattern)}
    (h : ∀ x ∈ items, ∀ v, x.pattern.accepts v = true ↔ Matches x.pattern v) (v : Value) :
    (array items).accepts v = true ↔ Matches (array items) v := by
  cases v with
  | scalar s => exact iff_of_false (by simp [accepts]) (fun h => by cases h)
  | node m => exact iff_of_false (by simp [accepts]) (fun h => by cases h)
  | array vs =>
      rw [accepts, (answers_itemsAccept vs h).headD_iff]
      constructor
      · rintro ⟨segments, hs, rfl⟩
        exact .array hs
      · intro hmatches
        cases hmatches with
        | array hs => exact ⟨_, hs, rfl⟩

theorem accepts_iff (p : Pattern) (v : Value) : p.accepts v = true ↔ Matches p v := by
  induction p generalizing v with
  | any => simp [accepts, Matches.any]
  | scalar s => exact accepts_scalar_iff s v
  | regexp kind r => exact accepts_regexp_iff kind r v
  | node className attributes ih => exact accepts_node_iff ih v
  | choice p ps hp hps => exact accepts_choice_iff (hp v) fun q hq => hps q hq v
  | array items ih => exact accepts_array_iff ih v

end Pattern

end TreePattern
