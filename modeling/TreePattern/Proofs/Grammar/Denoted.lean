import TreePattern.Proofs.Grammar.Basic
import TreePattern.Proofs.Pattern.Equality

/-! What derivations denote: patterns with distinct attributes and flat choices. -/

namespace TreePattern.Grammar

open Pattern (WellFormed)

variable {limit : Nat} {E : List Terminal → Pattern → Prop} {ts : List Terminal}

theorem IsConstraint.wellFormed {a : String × Pattern} (hE : ∀ us p, E us p → WellFormed p)
    (h : IsConstraint limit E ts a) : WellFormed a.2 := by
  cases h with
  | equals b l h => exact hE _ _ h
  | matching b l hop h => cases h <;> exact .regexp _ _

theorem IsItem.wellFormed {x : Item Pattern} (hE : ∀ us p, E us p → WellFormed p)
    (h : IsItem E ts x) : WellFormed x.pattern := by
  cases h with
  | one h | many h _ => exact hE _ _ h

theorem IsPrimary.wellFormed {p : Pattern} (hE : ∀ us p, E us p → WellFormed p)
    (h : IsPrimary limit E ts p) : WellFormed p ∧ p.isChoice = false := by
  cases h with
  | any l => exact ⟨.any, rfl⟩
  | scalar h => exact ⟨.scalar _, rfl⟩
  | @node us as l h =>
      refine ⟨.node (Node.nodup_map_fst_lastValues as) fun a ha => ?_, rfl⟩
      have hmem := (Node.lastValues_subperm as).subset ha
      cases h with
      | absent => cases hmem
      | present _ _ h =>
          obtain ⟨vs, _, hconstraint⟩ := h.mem a hmem
          exact hconstraint.wellFormed hE
  | @array us xs l h =>
      refine ⟨.array fun x hx => ?_, rfl⟩
      cases h with
      | nil => cases hx
      | cons _ h =>
          obtain ⟨vs, _, hitem⟩ := h.mem x hx
          exact hitem.wellFormed hE

/-- What an expression denotes is well-formed, by induction on the expressions inside. -/
theorem IsExpression.wellFormed {levels : Nat} {p : Pattern} (h : IsExpression limit levels ts p) :
    WellFormed p := by
  induction levels generalizing ts p with
  | zero => exact absurd h id
  | succ levels ih =>
      obtain ⟨ps, hps, hchoice⟩ := h
      have hprimary : ∀ q ∈ ps, WellFormed q ∧ q.isChoice = false := by
        intro q hq
        obtain ⟨us, _, hprimary⟩ := hps.mem q hq
        exact hprimary.wellFormed fun us p => ih
      cases hchoice with
      | single p => exact (hprimary p List.mem_cons_self).1
      | choice p q qs => exact .choice (fun r hr => (hprimary r hr).2) fun r hr => (hprimary r hr).1

end TreePattern.Grammar
