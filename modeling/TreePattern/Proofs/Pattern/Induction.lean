import TreePattern.Pattern.Basic

/-! Induction over patterns, with one case for each constructor and the parts of a pattern given by
membership in its lists. -/

namespace TreePattern.Pattern

@[elab_as_elim, induction_eliminator]
theorem induction {motive : Pattern → Prop} (any : motive any) (scalar : ∀ s, motive (scalar s))
    (regexp : ∀ kind r, motive (regexp kind r))
    (node : ∀ className attributes, (∀ a ∈ attributes, motive a.2) →
      motive (node ⟨className, attributes⟩))
    (choice : ∀ p ps, motive p → (∀ q ∈ ps, motive q) → motive (choice p ps))
    (array : ∀ items, (∀ x ∈ items, motive x.pattern) → motive (array items)) (p : Pattern) :
    motive p := by
  refine @Pattern.rec motive (fun n => motive (.node n)) (fun ps => ∀ q ∈ ps, motive q)
    (fun xs => ∀ x ∈ xs, motive x.pattern) (fun as => ∀ a ∈ as, motive a.2)
    (fun x => motive x.pattern) (fun a => motive a.2) any scalar regexp (fun _ h => h) choice array
    node ?_ ?_ ?_ ?_ ?_ ?_ (fun _ h => h) (fun _ _ h => h) (fun _ _ h => h) p
  all_goals simp +contextual

end TreePattern.Pattern
