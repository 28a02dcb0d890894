import TreePattern.Pattern.Equality
import TreePattern.Proofs.Pattern.Induction
import TreePattern.Proofs.Tree.Attributes

/-! Equality of patterns. It is an equality of the attributes by name, so it is reflexive only where
the names of a node are distinct. -/

namespace TreePattern

/-- Items of one kind and with the same quantifier, if there is one, whose patterns are related. -/
inductive Item.Related {α β : Type} (R : α → β → Prop) : Item α → Item β → Prop where
  | one {p q} (h : R p q) : Related R (.one p) (.one q)
  | many {p q} (k : Quantifier) (h : R p q) : Related R (.many k p) (.many k q)

theorem Item.Related.refl {α : Type} {R : α → α → Prop} {x : Item α} (h : R x.pattern x.pattern) :
    x.Related R x := by
  cases x with
  | one p => exact .one h
  | many q p => exact .many q h

section

variable {α β γ : Type} {R S : α → β → Prop} {x : Item α} {y : Item β}

theorem Item.Related.imp (h : x.Related R y)
    (himp : R x.pattern y.pattern → S x.pattern y.pattern) : x.Related S y := by
  cases h with
  | one h => exact .one (himp h)
  | many k h => exact .many k (himp h)

theorem Item.Related.symm (h : x.Related R y) : y.Related (fun w v => R v w) x := by
  cases h with
  | one h => exact .one h
  | many k h => exact .many k h

theorem Item.Related.comp {T : β → γ → Prop} {U : α → γ → Prop} {z : Item γ} (h : x.Related R y)
    (h' : y.Related T z) (hcomp : ∀ v w u, R v w → T w u → U v u) : x.Related U z := by
  cases h with
  | one h =>
      cases h' with
      | one h' => exact .one (hcomp _ _ _ h h')
  | many k h =>
      cases h' with
      | many _ h' => exact .many k (hcomp _ _ _ h h')

theorem forall₂_imp_of_mem {xs : List α} {ys : List β} (h : List.Forall₂ R xs ys)
    (himp : ∀ x ∈ xs, ∀ y ∈ ys, R x y → S x y) : List.Forall₂ S xs ys := by
  induction h with
  | nil => exact .nil
  | cons hxy _ ih =>
      exact .cons (himp _ List.mem_cons_self _ List.mem_cons_self hxy)
        (ih fun x hx y hy => himp x (List.mem_cons_of_mem _ hx) y (List.mem_cons_of_mem _ hy))

theorem forall₂_comp {T : β → γ → Prop} {U : α → γ → Prop} {xs : List α} {ys : List β} {zs : List γ}
    (h : List.Forall₂ R xs ys) (h' : List.Forall₂ T ys zs)
    (hcomp : ∀ x y z, R x y → T y z → U x z) : List.Forall₂ U xs zs := by
  induction h generalizing zs with
  | nil =>
      cases h'
      exact .nil
  | cons hxy _ ih =>
      cases h' with
      | cons hyz h' => exact .cons (hcomp _ _ _ hxy hyz) (ih h')

end

namespace Pattern

/-- Whether a pattern is a choice between others. -/
def isChoice : Pattern → Bool
  | choice _ _ => true
  | _ => false

/-- Patterns in which no node has two attributes of one name and no alternative is itself a choice.
-/
inductive WellFormed : Pattern → Prop where
  | any : WellFormed any
  | scalar (s) : WellFormed (scalar s)
  | regexp (kind r) : WellFormed (regexp kind r)
  | node {className as} (hnames : (as.map (·.1)).Nodup) (h : ∀ a ∈ as, WellFormed a.2) :
      WellFormed (node ⟨className, as⟩)
  | choice {p ps} (hflat : ∀ q ∈ p :: ps, q.isChoice = false) (h : ∀ q ∈ p :: ps, WellFormed q) :
      WellFormed (choice p ps)
  | array {xs} (h : ∀ x ∈ xs, WellFormed x.pattern) : WellFormed (array xs)

/-- Patterns in which no node has two attributes of one name. -/
inductive Keyed : Pattern → Prop where
  | any : Keyed any
  | scalar (s) : Keyed (scalar s)
  | regexp (kind r) : Keyed (regexp kind r)
  | node {className as} (hnames : (as.map (·.1)).Nodup) (h : ∀ a ∈ as, Keyed a.2) :
      Keyed (node ⟨className, as⟩)
  | choice {p ps} (h : ∀ q ∈ p :: ps, Keyed q) : Keyed (choice p ps)
  | array {xs} (h : ∀ x ∈ xs, Keyed x.pattern) : Keyed (array xs)

theorem WellFormed.keyed {p : Pattern} (h : WellFormed p) : Keyed p := by
  induction h with
  | any => exact .any
  | scalar s => exact .scalar s
  | regexp kind r => exact .regexp kind r
  | node hnames _ ih => exact .node hnames ih
  | choice _ _ ih => exact .choice ih
  | array _ ih => exact .array ih

theorem equalAttributes_iff {as : List (String × Pattern)} {n : Node Pattern} :
    equalAttributes as n = true ↔ ∀ a ∈ as, ∃ q, n.get? a.1 = some q ∧ a.2.equal q = true := by
  induction as with
  | nil => simp [equalAttributes]
  | cons a as ih =>
      rw [equalAttributes, Bool.and_eq_true, ih, List.forall_mem_cons]
      apply and_congr_left'
      cases n.get? a.1 <;> simp

theorem equalAll_iff {ps qs : List Pattern} :
    equalAll ps qs = true ↔ List.Forall₂ (fun p q => p.equal q = true) ps qs := by
  induction ps generalizing qs with
  | nil => cases qs <;> simp [equalAll]
  | cons p ps ih => cases qs <;> simp [equalAll, ih]

theorem equalItems_iff {xs ys : List (Item Pattern)} :
    equalItems xs ys = true ↔ List.Forall₂ (fun x y => equalItem x y = true) xs ys := by
  induction xs generalizing ys with
  | nil => cases ys <;> simp [equalItems]
  | cons x xs ih => cases ys <;> simp [equalItems, ih]

theorem equal_node_iff {className : String} {as : List (String × Pattern)} {n : Node Pattern} :
    (node ⟨className, as⟩).equal (node n) = true ↔ className = n.className ∧
      as.length = n.size ∧ ∀ a ∈ as, ∃ q, n.get? a.1 = some q ∧ a.2.equal q = true := by
  rw [equal, equalNode, Bool.and_eq_true, Bool.and_eq_true, equalAttributes_iff, beq_iff_eq,
    beq_iff_eq, and_assoc]

theorem equal_choice_iff {p q : Pattern} {ps qs : List Pattern} :
    (choice p ps).equal (choice q qs) = true ↔
      List.Forall₂ (fun p q => p.equal q = true) (p :: ps) (q :: qs) := by
  rw [equal, Bool.and_eq_true, equalAll_iff, List.forall₂_cons]

theorem equalItem_iff {x y : Item Pattern} :
    equalItem x y = true ↔ x.Related (fun p q => p.equal q = true) y := by
  constructor
  · intro h
    rcases x with p | ⟨j, p⟩ <;> rcases y with q | ⟨k, q⟩ <;> simp [equalItem] at h
    · exact .one h
    · obtain ⟨rfl, h⟩ := h
      exact .many j h
  · rintro (h | ⟨j, h⟩) <;> simpa [equalItem] using h

theorem equal_array_iff {xs ys : List (Item Pattern)} : (array xs).equal (array ys) = true ↔
    List.Forall₂ (Item.Related fun p q => p.equal q = true) xs ys := by
  rw [equal, equalItems_iff]
  simp only [equalItem_iff]

/-- A pattern with distinct attributes is equal to itself. -/
theorem Keyed.equal_refl {p : Pattern} (h : Keyed p) : p.equal p = true := by
  induction h with
  | any => simp [equal]
  | scalar s => simp [equal]
  | regexp kind r => simp [equal]
  | node hnames _ ih =>
      exact equal_node_iff.mpr
        ⟨rfl, rfl, fun a ha => ⟨a.2, Node.lookup_of_mem hnames ha, ih a ha⟩⟩
  | choice _ ih => exact equal_choice_iff.mpr (List.forall₂_same.mpr ih)
  | array _ ih => exact equal_array_iff.mpr (List.forall₂_same.mpr fun x hx => .refl (ih x hx))

theorem equal_refl {p : Pattern} (h : WellFormed p) : p.equal p = true := h.keyed.equal_refl

end Pattern

end TreePattern
