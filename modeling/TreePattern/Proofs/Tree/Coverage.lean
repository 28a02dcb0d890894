import TreePattern.Proofs.Matching.Meaning
import TreePattern.Proofs.Printing.Layout
import TreePattern.Proofs.Tree.Attributes
import TreePattern.Proofs.Tree.Induction

/-! The pattern that asks for a value and its parts. It has the text of the value, and it accepts
the values that cover this one: they may have more attributes, and attributes in another order. -/

namespace TreePattern

namespace Value

mutual

/-- The pattern that is written like a value. -/
def toPattern : Value → Pattern
  | scalar s => .scalar s
  | array vs => .array (itemPatterns vs)
  | node n => .node (nodePattern n)

def nodePattern : Node Value → Node Pattern
  | ⟨className, attributes⟩ => ⟨className, attributePatterns attributes⟩

def itemPatterns : List Value → List (Item Pattern)
  | [] => []
  | v :: vs => .one v.toPattern :: itemPatterns vs

def attributePatterns : List (String × Value) → List (String × Pattern)
  | [] => []
  | (name, v) :: rest => (name, v.toPattern) :: attributePatterns rest

end

theorem toPattern_array (vs : List Value) :
    (array vs).toPattern = .array (vs.map fun v => .one v.toPattern) := by
  have hitems : itemPatterns vs = vs.map fun v => .one v.toPattern := by
    induction vs with
    | nil => rfl
    | cons v vs ih => rw [itemPatterns, ih, List.map_cons]
  rw [toPattern, hitems]

theorem toPattern_node (className : String) (as : List (String × Value)) :
    (node ⟨className, as⟩).toPattern =
      .node ⟨className, as.map fun a => (a.1, a.2.toPattern)⟩ := by
  have hattributes : attributePatterns as = as.map fun a => (a.1, a.2.toPattern) := by
    induction as with
    | nil => rfl
    | cons a as ih => rw [attributePatterns, ih, List.map_cons]
  rw [toPattern, nodePattern, hattributes]

/-- Nothing but regular expressions is searched for. -/
theorem operatorChars_toPattern (v : Value) : v.toPattern.operatorChars = " = ".toList := by
  cases v <;> rw [toPattern] <;> rfl

/-- The pattern of a value has the text of the value. -/
theorem chars_toPattern (v : Value) : v.toPattern.chars = v.chars := by
  induction v with
  | scalar s => rw [toPattern, Pattern.chars, chars]
  | array vs ih =>
      have hitems :
          (vs.map fun v => Item.one v.toPattern).map Pattern.itemChars = vs.map chars := by
        rw [List.map_map]
        exact List.map_congr_left ih
      rw [toPattern_array, Pattern.chars, Pattern.itemsChars_eq, hitems, chars, itemChars_eq]
  | node className as ih =>
      have hattributes : (as.map fun a => (a.1, a.2.toPattern)).map
          (fun a => a.1.toList ++ a.2.operatorChars ++ a.2.chars) =
            as.map fun a => a.1.toList ++ " = ".toList ++ a.2.chars := by
        rw [List.map_map]
        refine List.map_congr_left fun a ha => ?_
        simp only [Function.comp_apply, operatorChars_toPattern, ih a ha]
      rw [toPattern_node, Pattern.chars, Pattern.nodeChars, Pattern.attributeChars_eq, hattributes,
        chars, nodeChars, attributeChars_eq]

/-! ## Coverage -/

/-- `w` covers `v`: it has the same scalars and classes, arrays of the same lengths, and at least
the attributes of `v`, each with a value that covers the one there. -/
inductive Covers : (w v : Value) → Prop where
  | scalar (s) : Covers (scalar s) (scalar s)
  | array {ws vs} (h : List.Forall₂ Covers ws vs) : Covers (array ws) (array vs)
  | node {m n : Tree} (hclass : m.className = n.className)
      (hsome : ∀ a ∈ n.attributes, (m.get? a.1).isSome)
      (h : ∀ a ∈ n.attributes, ∀ w, m.get? a.1 = some w → Covers w a.2) :
      Covers (node m) (node n)

theorem covers_scalar_iff {w : Value} {s : Scalar} : Covers w (scalar s) ↔ w = scalar s := by
  constructor
  · rintro ⟨⟩
    rfl
  · rintro rfl
    exact .scalar s

theorem covers_array_iff {w : Value} {vs : List Value} :
    Covers w (array vs) ↔ ∃ ws, w = array ws ∧ List.Forall₂ Covers ws vs := by
  constructor
  · rintro (_ | h)
    exact ⟨_, rfl, h⟩
  · rintro ⟨ws, rfl, h⟩
    exact .array h

theorem covers_node_iff {w : Value} {n : Tree} : Covers w (node n) ↔
    ∃ m : Tree, w = node m ∧ m.className = n.className ∧
      ∀ a ∈ n.attributes, ∃ u, m.get? a.1 = some u ∧ Covers u a.2 := by
  constructor
  · rintro (_ | _ | ⟨hclass, hsome, h⟩)
    refine ⟨_, rfl, hclass, fun a ha => ?_⟩
    obtain ⟨u, hu⟩ := Option.isSome_iff_exists.mp (hsome a ha)
    exact ⟨u, hu, h a ha u hu⟩
  · rintro ⟨m, rfl, hclass, h⟩
    refine .node hclass (fun a ha => ?_) fun a ha w hw => ?_
    · obtain ⟨u, hu, _⟩ := h a ha
      simp [hu]
    · obtain ⟨u, hu, hcovers⟩ := h a ha
      rw [hw] at hu
      cases hu
      exact hcovers

/-- A cut into single elements is a comparison element by element. -/
theorem cut_one_iff {vs ws : List Value}
    (h : ∀ v ∈ vs, ∀ w, Pattern.Matches v.toPattern w ↔ Covers w v) :
    Pattern.Cut (vs.map fun v => .one v.toPattern) ws ↔ List.Forall₂ Covers ws vs := by
  induction vs generalizing ws with
  | nil => rw [List.map_nil, Pattern.cut_nil, List.forall₂_nil_right_iff]
  | cons v vs ih =>
      have hrest (ws : List Value) : Pattern.Cut (vs.map fun v => .one v.toPattern) ws ↔
          List.Forall₂ Covers ws vs := ih fun u hu => h u (List.mem_cons_of_mem v hu)
      rw [List.map_cons, Pattern.cut_one, List.forall₂_cons_right_iff]
      constructor
      · rintro ⟨w, rest, rfl, hw, hcut⟩
        exact ⟨w, rest, (h v List.mem_cons_self w).mp hw, (hrest rest).mp hcut, rfl⟩
      · rintro ⟨w, rest, hw, hcovers, rfl⟩
        exact ⟨w, rest, rfl, (h v List.mem_cons_self w).mpr hw, (hrest rest).mpr hcovers⟩

/-- The pattern of a value stands for the values that cover it. -/
theorem matches_toPattern_iff (v w : Value) : Pattern.Matches v.toPattern w ↔ Covers w v := by
  induction v generalizing w with
  | scalar s =>
      rw [toPattern, covers_scalar_iff]
      constructor
      · rintro ⟨⟩
        rfl
      · rintro rfl
        exact .scalar s
  | array vs ih =>
      rw [toPattern_array, covers_array_iff]
      constructor
      · intro h
        cases h with
        | array hsegmented => exact ⟨_, rfl, (cut_one_iff ih).mp ⟨_, hsegmented, rfl⟩⟩
      · rintro ⟨ws, rfl, hcovers⟩
        obtain ⟨segments, hsegmented, rfl⟩ := (cut_one_iff ih).mpr hcovers
        exact .array hsegmented
  | node className as ih =>
      rw [toPattern_node, covers_node_iff]
      constructor
      · intro h
        cases h with
        | node hclass hsome hmatches =>
            refine ⟨_, rfl, hclass, fun a ha => ?_⟩
            have hmem := List.mem_map_of_mem (f := fun a => (a.1, a.2.toPattern)) ha
            obtain ⟨u, hu⟩ := Option.isSome_iff_exists.mp (hsome _ hmem)
            exact ⟨u, hu, (ih a ha u).mp (hmatches _ hmem u hu)⟩
      · rintro ⟨m, rfl, hclass, h⟩
        refine .node hclass ?_ ?_
        · rintro _ hmem
          obtain ⟨a, ha, rfl⟩ := List.mem_map.mp hmem
          obtain ⟨u, hu, _⟩ := h a ha
          simp [hu]
        · rintro _ hmem w hw
          obtain ⟨a, ha, rfl⟩ := List.mem_map.mp hmem
          obtain ⟨u, hu, hcovers⟩ := h a ha
          rw [hw] at hu
          cases hu
          exact (ih a ha w).mpr hcovers

end Value

/-- The pattern of a tree accepts the trees that cover it. -/
theorem Tree.acceptsTree_toPattern_iff (t u : Tree) :
    (Value.node t).toPattern.acceptsTree u = true ↔ Value.Covers (.node u) (.node t) := by
  rw [Pattern.acceptsTree, Pattern.accepts_iff, Value.matches_toPattern_iff]

end TreePattern
