import TreePattern.Proofs.Tree.RoundTrip
import TreePattern.Query

/-! Printed trees and themselves. The text of a tree is a pattern that the tree matches, unless a
node of it ends in a symbol that runs together with the bracket behind it. Such a text closes fewer
brackets than it opens, so that no pattern is read from it. -/

namespace TreePattern

open Token (Kind)
open Terminal (plain name)
open Piece (tight)

namespace Grammar

/-! ## Brackets -/

/-- As many angle brackets are opened as closed. -/
def Balanced (ts : List Terminal) : Prop :=
  ts.countP (·.kind == .leftAngle) = ts.countP (·.kind == .rightAngle)

namespace Balanced

variable {t : Terminal} {ts us : List Terminal}

theorem append (hts : Balanced ts) (hus : Balanced us) : Balanced (ts ++ us) := by
  simp only [Balanced, List.countP_append] at hts hus ⊢
  omega

theorem cons (hleft : t.kind ≠ .leftAngle) (hright : t.kind ≠ .rightAngle) (h : Balanced ts) :
    Balanced (t :: ts) := by
  simpa [Balanced, List.countP_cons, hleft, hright] using h

theorem bracketed (h : Balanced ts) (l l' : List Char) :
    Balanced (plain .leftAngle l :: (ts ++ [plain .rightAngle l'])) := by
  simp only [Balanced, List.countP_cons, List.countP_append, List.countP_nil, plain] at h ⊢
  simp
  omega

end Balanced

variable {limit : Nat} {E : List Terminal → Pattern → Prop} {ts : List Terminal}

theorem Separated.balanced {α : Type} {separator : Kind} {One : List Terminal → α → Prop}
    {xs : List α} (hleft : separator ≠ .leftAngle) (hright : separator ≠ .rightAngle)
    (hone : ∀ us x, One us x → Balanced us) (h : Separated separator One ts xs) : Balanced ts := by
  induction h with
  | last h => exact hone _ _ h
  | more l h _ ih => exact (hone _ _ h).append (ih.cons hleft hright)

theorem IsCount.balanced {n : Nat} (h : IsCount ts n) : Balanced ts := by
  cases h
  rfl

theorem Optional.balanced {n : Option Nat} (h : Optional IsCount ts n) : Balanced ts := by
  cases h with
  | absent => rfl
  | present h => exact h.balanced

theorem IsQuantifier.balanced {q : Quantifier} (h : IsQuantifier ts q) : Balanced ts := by
  cases h with
  | zeroOrMore l | oneOrMore l | optional l => rfl
  | braced l h =>
      apply Balanced.cons (by simp [plain]) (by simp [plain])
      cases h with
      | even l l' | odd l l' => rfl
      | exactly l h => exact h.balanced.append rfl
      | between l l' hmin hmax hq hstep =>
          have hbrace : Balanced [plain .rightBrace l'] := rfl
          exact hmin.balanced.append
            ((hmax.balanced.append hbrace).cons (by simp [plain]) (by simp [plain]))

section

variable (hE : ∀ us p, E us p → Balanced us)

include hE

theorem IsConstraint.balanced {a : String × Pattern} (h : IsConstraint limit E ts a) :
    Balanced ts := by
  cases h with
  | equals b l h =>
      exact ((hE _ _ h).cons (by simp [plain]) (by simp [plain])).cons nofun nofun
  | @matching k anchor us p b l hop h =>
      have hus : Balanced us := by cases h <;> rfl
      have hk : k ≠ .leftAngle ∧ k ≠ .rightAngle := by
        constructor <;> rintro rfl <;> cases hop
      exact (hus.cons hk.1 hk.2).cons nofun nofun

theorem IsItem.balanced {x : Item Pattern} (h : IsItem E ts x) : Balanced ts := by
  cases h with
  | one h => exact hE _ _ h
  | many h hq => exact (hE _ _ h).append hq.balanced

theorem IsPrimary.balanced {p : Pattern} (h : IsPrimary limit E ts p) : Balanced ts := by
  cases h with
  | any l => rfl
  | scalar h => cases h <;> rfl
  | node l h =>
      apply Balanced.cons (by simp [plain]) (by simp [plain])
      cases h with
      | absent => rfl
      | present l' l'' h =>
          have hconstraints :=
            h.balanced (by decide) (by decide) fun _ _ => IsConstraint.balanced hE
          exact hconstraints.bracketed l' l''
  | array l h =>
      apply Balanced.cons (by simp [plain]) (by simp [plain])
      cases h with
      | nil l' => rfl
      | cons l' h =>
          have hitems := h.balanced (by decide) (by decide) fun _ _ => IsItem.balanced hE
          exact hitems.append rfl

end

/-- Derivations open as many angle brackets as they close, by induction on the levels inside. -/
theorem IsExpression.balanced {levels : Nat} {p : Pattern} (h : IsExpression limit levels ts p) :
    Balanced ts := by
  induction levels generalizing ts p with
  | zero => exact absurd h id
  | succ levels ih =>
      obtain ⟨ps, hps, _⟩ := h
      exact hps.balanced (by decide) (by decide) fun _ _ => IsPrimary.balanced fun _ _ => ih

end Grammar

namespace Piece

/-- What fuses with a symbol is no opening bracket. -/
theorem countP_leftAngle_fuse (ps : List Piece) :
    (fuse ps).countP (·.kind == .leftAngle) =
      (ps.map terminal).countP (·.kind == .leftAngle) := by
  induction ps using fuse.induct with
  | case1 => rfl
  | case2 p => rfl
  | case3 p q ps hfuses ih =>
      obtain ⟨⟨_, _, hp⟩, hq, _⟩ := fuses_iff.mp hfuses
      have hne : q.terminal.kind ≠ .leftAngle := by
        intro heq
        simp [heq] at hq
      rw [fuse, if_pos hfuses]
      simp [ih, hp, hne, plain]
  | case4 p q ps hfuses ih =>
      rw [fuse, if_neg hfuses]
      simp only [List.map_cons, List.countP_cons] at ih ⊢
      omega

/-- Without quantifiers, nothing but closing brackets fuses with a symbol. -/
theorem countP_rightAngle_fuse {ps : List Piece}
    (hkind : ∀ p ∈ ps, p.terminal.kind ∉ [Kind.question, .star]) :
    (fuse ps).countP (·.kind == .rightAngle) ≤ (ps.map terminal).countP (·.kind == .rightAngle) ∧
      (¬ Apart ps → (fuse ps).countP (·.kind == .rightAngle) <
        (ps.map terminal).countP (·.kind == .rightAngle)) := by
  induction ps using fuse.induct with
  | case1 => exact ⟨Nat.le_refl _, fun h => absurd .nil h⟩
  | case2 p => exact ⟨Nat.le_refl _, fun h => absurd (.singleton p) h⟩
  | case3 p q ps hfuses ih =>
      simp only [List.forall_mem_cons] at hkind
      obtain ⟨hle, _⟩ := ih hkind.2.2
      obtain ⟨⟨_, _, hp⟩, hq, _⟩ := fuses_iff.mp hfuses
      have hangle : q.terminal.kind = .rightAngle := by
        have hnot := hkind.2.1
        simp at hq hnot
        tauto
      rw [fuse, if_pos hfuses]
      simp [plain, hp, hangle] at hle ⊢
      omega
  | case4 p q ps hfuses ih =>
      obtain ⟨hle, hlt⟩ := ih fun r hr => hkind r (List.mem_cons_of_mem p hr)
      rw [fuse, if_neg hfuses]
      simp only [List.map_cons, List.countP_cons] at hle hlt ⊢
      refine ⟨by omega, fun hapart => ?_⟩
      have hrest := hlt fun h =>
        hapart (List.isChain_cons_cons.mpr ⟨Bool.eq_false_iff.mpr hfuses, h⟩)
      omega

/-- Pieces that stay balanced are apart: what fuses would close fewer brackets than are opened. -/
theorem apart_of_balanced {ps : List Piece}
    (hkind : ∀ p ∈ ps, p.terminal.kind ∉ [Kind.question, .star])
    (hpieces : Grammar.Balanced (ps.map terminal)) (hfuse : Grammar.Balanced (fuse ps)) :
    Apart ps := by
  by_contra hapart
  obtain ⟨_, hlt⟩ := countP_rightAngle_fuse hkind
  have hclosed := hlt hapart
  rw [Grammar.Balanced, countP_leftAngle_fuse] at hfuse
  rw [Grammar.Balanced] at hpieces
  omega

end Piece

namespace Value

/-- The text of a value has no quantifiers. -/
theorem Spelled.kind_of_mem_pieces {v : Value} (h : Spelled v) :
    ∀ p ∈ v.toPattern.pieces, p.terminal.kind ∉ [Kind.question, .star] := by
  have hscalar (s : Scalar) : s.kind ∉ [Kind.question, .star] := by
    rcases s with _ | (_ | _) | _ | _ | _ <;> simp [Scalar.kind]
  apply h.forall_pieces (P := fun p => p.terminal.kind ∉ [Kind.question, .star])
  · decide
  · decide
  · decide
  · exact fun s _ => hscalar s
  · exact fun l _ => by simp [tight, plain]
  · exact fun l _ => by simp [name]

theorem Covers.refl {v : Value} (h : Spelled v) : Covers v v := by
  induction h with
  | scalar => exact .scalar _
  | array _ ih => exact .array (List.forall₂_same.mpr ih)
  | node _ hdistinct _ _ ih =>
      exact covers_node_iff.mpr
        ⟨_, rfl, rfl, fun a ha => ⟨a.2, Node.lookup_of_mem hdistinct ha, ih a ha⟩⟩

end Value

namespace Tree

open Value (Spelled)

/-- No pattern is read from a text that runs a symbol together with a bracket. -/
theorem parse_toString_ne_ok {t : Tree} (h : Spelled (.node t))
    (hends : ∃ u ∈ t.preorder, u.EndsInFusion) (options : Options) (p : Pattern) :
    Pattern.parse options (toString t) ≠ .ok p := by
  intro hparse
  rw [← toString_toPattern] at hparse
  rw [← Value.nodes_node] at hends
  have hrestates := h.restates 0 (Nat.le_refl _)
  have hfuse := (Pattern.derives_fuse hrestates hparse).1.balanced
  exact h.apart_iff.mp
    (Piece.apart_of_balanced h.kind_of_mem_pieces hrestates.derives.balanced hfuse) hends

end Tree

namespace Query

open Value (Spelled)

theorem accepts_text (s : String) (t : Tree) :
    (text s).accepts t = (Pattern.parse {} s).map (·.acceptsTree t) := by
  rw [accepts, toPattern]
  cases Pattern.parse {} s <;> rfl

/-- A printed tree matches itself, exactly if no node of it ends in a symbol that runs together with
the bracket behind it. Otherwise its text is not even a pattern. -/
theorem accepts_toString_iff (t : Tree) (h : Spelled (.node t))
    (hdepth : (Value.node t).depth ≤ 128) :
    ((text (toString t)).accepts t = .ok true ↔ ∀ u ∈ t.preorder, ¬ u.EndsInFusion) ∧
      ∀ u ∈ t.preorder, u.EndsInFusion → ∃ e, (text (toString t)).accepts t = .error e := by
  have herror : ∀ u ∈ t.preorder, u.EndsInFusion →
      ∃ e, (text (toString t)).accepts t = .error e := by
    intro u hu hends
    rw [accepts_text]
    cases hparse : Pattern.parse {} (toString t) with
    | error e => exact ⟨e, rfl⟩
    | ok p => exact absurd hparse (t.parse_toString_ne_ok h ⟨u, hu, hends⟩ {} p)
  refine ⟨⟨fun haccepts u hu hends => ?_, fun hends => ?_⟩, herror⟩
  · obtain ⟨e, he⟩ := herror u hu hends
    rw [he] at haccepts
    cases haccepts
  · have hparse : Pattern.parse {} (toString t) = .ok (Value.node t).toPattern :=
      Tree.parse_toString h hdepth (by simpa using hends)
    have hself := (t.acceptsTree_toPattern_iff t).mpr (.refl h)
    rw [accepts_text, hparse]
    exact congrArg Except.ok hself

theorem accepts_toString_greater : ∃ t : Tree,
    t = ⟨"Foo", [("a", .scalar (.symbol ">")), ("b", .scalar .nil)]⟩ ∧ Spelled (.node t) ∧
      (Value.node t).depth ≤ 128 ∧
      ((text (toString t)).accepts t = .ok true ↔ ∀ u ∈ t.preorder, ¬ u.EndsInFusion) ∧
        ∀ u ∈ t.preorder, u.EndsInFusion → ∃ e, (text (toString t)).accepts t = .error e := by
  have hgreater : Scalar.Spelled (.symbol ">") := by
    rintro _ ⟨⟩
    exact ⟨['>'], rfl, .inr (by decide)⟩
  have hspelled : Spelled
      (.node ⟨"Foo", [("a", .scalar (.symbol ">")), ("b", .scalar .nil)]⟩) := by
    refine .node ⟨'F', ['o', 'o'], rfl, by decide, List.all_eq_true.mp rfl⟩ (by decide) ?_ ?_
    · simp only [List.forall_mem_cons, List.not_mem_nil, false_implies, implies_true, and_true]
      exact ⟨@Token.IsAttributeName.identifier 'a' [] [] ⟨by decide, nofun, by simp⟩,
        @Token.IsAttributeName.identifier 'b' [] [] ⟨by decide, nofun, by simp⟩⟩
    · simp only [List.forall_mem_cons, List.not_mem_nil, false_implies, implies_true, and_true]
      exact ⟨.scalar hgreater, .scalar nofun⟩
  have hdepth :
      (Value.node ⟨"Foo", [("a", .scalar (.symbol ">")), ("b", .scalar .nil)]⟩).depth ≤ 128 := by
    simp [Value.depth, Value.nodeDepth, Value.attributesDepth]
  exact ⟨_, rfl, hspelled, hdepth, accepts_toString_iff _ hspelled hdepth⟩

/-- A node that ends in the symbol of the greater-than sign does not match its text, which is not
even read as a pattern. -/
theorem not_accepts_toString_greater : ∃ t : Tree,
    t = ⟨"Foo", [("a", .scalar (.symbol ">"))]⟩ ∧ Spelled (.node t) ∧
      (Value.node t).depth ≤ 128 ∧ toString t = "Foo<a = :>>" ∧
      (text (toString t)).accepts t = .error .endOfText := by
  have hgreater : Scalar.Spelled (.symbol ">") := by
    rintro _ ⟨⟩
    exact ⟨['>'], rfl, .inr (by decide)⟩
  refine ⟨_, rfl, ?_, ?_, rfl, rfl⟩
  · refine .node ⟨'F', ['o', 'o'], rfl, by decide, List.all_eq_true.mp rfl⟩ (by decide) ?_ ?_
    · rw [List.forall_mem_singleton]
      exact @Token.IsAttributeName.identifier 'a' [] [] ⟨by decide, nofun, by simp⟩
    · rw [List.forall_mem_singleton]
      exact .scalar hgreater
  · simp [Value.depth, Value.nodeDepth, Value.attributesDepth]

end Query

end TreePattern
