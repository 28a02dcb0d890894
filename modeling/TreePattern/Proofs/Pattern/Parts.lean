import TreePattern.Proofs.Pattern.Induction

/-! The parts of a pattern: the pattern itself, and what stands anywhere inside it. -/

namespace TreePattern.Pattern

inductive IsPart (q : Pattern) : Pattern → Prop where
  | refl : IsPart q q
  | attribute {className as a} (ha : a ∈ as) (h : IsPart q a.2) : IsPart q (node ⟨className, as⟩)
  | alternative {p ps r} (hr : r ∈ p :: ps) (h : IsPart q r) : IsPart q (choice p ps)
  | item {xs x} (hx : x ∈ xs) (h : IsPart q x.pattern) : IsPart q (array xs)

variable {q : Pattern}

theorem isPart_any : IsPart q any ↔ q = any := by
  constructor
  · rintro ⟨⟩
    rfl
  · rintro rfl
    exact .refl

theorem isPart_scalar {s : Scalar} : IsPart q (scalar s) ↔ q = scalar s := by
  constructor
  · rintro ⟨⟩
    rfl
  · rintro rfl
    exact .refl

theorem isPart_node {className : String} {as : List (String × Pattern)} :
    IsPart q (node ⟨className, as⟩) ↔ q = node ⟨className, as⟩ ∨ ∃ a ∈ as, IsPart q a.2 := by
  constructor
  · rintro (_ | ⟨ha, h⟩)
    · exact .inl rfl
    · exact .inr ⟨_, ha, h⟩
  · rintro (rfl | ⟨a, ha, h⟩)
    · exact .refl
    · exact .attribute ha h

theorem isPart_choice {p : Pattern} {ps : List Pattern} :
    IsPart q (choice p ps) ↔ q = choice p ps ∨ ∃ r ∈ p :: ps, IsPart q r := by
  constructor
  · rintro (_ | _ | ⟨hr, h⟩)
    · exact .inl rfl
    · exact .inr ⟨_, hr, h⟩
  · rintro (rfl | ⟨r, hr, h⟩)
    · exact .refl
    · exact .alternative hr h

theorem isPart_array {xs : List (Item Pattern)} :
    IsPart q (array xs) ↔ q = array xs ∨ ∃ x ∈ xs, IsPart q x.pattern := by
  constructor
  · rintro (_ | _ | _ | ⟨hx, h⟩)
    · exact .inl rfl
    · exact .inr ⟨_, hx, h⟩
  · rintro (rfl | ⟨x, hx, h⟩)
    · exact .refl
    · exact .item hx h

/-! ## Indifferent regular expressions -/

mutual

/-- The pattern with all its regular expressions indifferent to symbols and strings. -/
def indifferent : Pattern → Pattern
  | any => any
  | scalar s => scalar s
  | regexp _ r => regexp .either r
  | node n => node (indifferentNode n)
  | choice p ps => choice p.indifferent (indifferentAll ps)
  | array items => array (indifferentItems items)

def indifferentNode : Node Pattern → Node Pattern
  | ⟨className, attributes⟩ => ⟨className, indifferentAttributes attributes⟩

def indifferentAttributes : List (String × Pattern) → List (String × Pattern)
  | [] => []
  | (name, p) :: rest => (name, p.indifferent) :: indifferentAttributes rest

def indifferentAll : List Pattern → List Pattern
  | [] => []
  | p :: ps => p.indifferent :: indifferentAll ps

def indifferentItems : List (Item Pattern) → List (Item Pattern)
  | [] => []
  | x :: xs => indifferentItem x :: indifferentItems xs

def indifferentItem : Item Pattern → Item Pattern
  | .one p => .one p.indifferent
  | .many q p => .many q p.indifferent

end

theorem indifferent_node (className : String) (as : List (String × Pattern)) :
    (node ⟨className, as⟩).indifferent =
      node ⟨className, as.map fun a => (a.1, a.2.indifferent)⟩ := by
  have hattributes : indifferentAttributes as = as.map fun a => (a.1, a.2.indifferent) := by
    induction as with
    | nil => rfl
    | cons a as ih => rw [indifferentAttributes, ih, List.map_cons]
  rw [indifferent, indifferentNode, hattributes]

theorem indifferent_choice (p : Pattern) (ps : List Pattern) :
    (choice p ps).indifferent = choice p.indifferent (ps.map indifferent) := by
  have hall : indifferentAll ps = ps.map indifferent := by
    induction ps with
    | nil => rfl
    | cons q ps ih => rw [indifferentAll, ih, List.map_cons]
  rw [indifferent, hall]

theorem indifferent_array (xs : List (Item Pattern)) :
    (array xs).indifferent = array (xs.map indifferentItem) := by
  have hitems : indifferentItems xs = xs.map indifferentItem := by
    induction xs with
    | nil => rfl
    | cons x xs ih => rw [indifferentItems, ih, List.map_cons]
  rw [indifferent, hitems]

/-- A pattern without regular expressions stays as it is. -/
theorem indifferent_eq_self {p : Pattern} (h : ∀ kind r, ¬ IsPart (regexp kind r) p) :
    p.indifferent = p := by
  induction p with
  | any => rfl
  | scalar s => rfl
  | regexp kind r => exact absurd .refl (h kind r)
  | node className as ih =>
      have hattributes : (as.map fun a => (a.1, a.2.indifferent)) = as.map id :=
        List.map_congr_left fun a ha =>
          Prod.ext rfl (ih a ha fun kind r hpart => h kind r (.attribute ha hpart))
      rw [indifferent_node, hattributes, List.map_id]
  | choice p ps ih ihs =>
      have hfirst := ih fun kind r hpart => h kind r (.alternative List.mem_cons_self hpart)
      have hothers : ps.map indifferent = ps.map id := List.map_congr_left fun q hq =>
        ihs q hq fun kind r hpart => h kind r (.alternative (List.mem_cons_of_mem p hq) hpart)
      rw [indifferent_choice, hfirst, hothers, List.map_id]
  | array items ih =>
      have hitem (x : Item Pattern) (hx : x.pattern.indifferent = x.pattern) :
          indifferentItem x = x := by
        cases x with
        | one p => exact congrArg Item.one hx
        | many q p => exact congrArg (Item.many q) hx
      have hitems : items.map indifferentItem = items.map id := List.map_congr_left fun x hx =>
        hitem x (ih x hx fun kind r hpart => h kind r (.item hx hpart))
      rw [indifferent_array, hitems, List.map_id]

end TreePattern.Pattern
