import TreePattern.Proofs.Pattern.Parts
import TreePattern.Proofs.Pattern.Equality
import TreePattern.Proofs.Printing.Apart

/-! Where the text of a pattern runs a symbol together with the operator behind it: before a
quantifier that is written as one character, and before the bracket that closes the attributes of a
node. -/

namespace TreePattern

open Token (Kind)
open Piece (tight Apart)

namespace Pattern

/-- The pattern is a symbol, or a choice whose last alternative is that symbol. -/
inductive EndsIn (s : String) : Pattern → Prop where
  | symbol : EndsIn s (scalar (.symbol s))
  | choice {p ps} (h : (p :: ps).getLast? = some (scalar (.symbol s))) : EndsIn s (choice p ps)

/-- The patterns that run a symbol together with something of their own. -/
inductive Fuses : Pattern → Prop where
  | optional {items p s} (hitem : .many .optional p ∈ items) (hp : EndsIn s p)
      (hs : Token.isBareName s.toList = true) : Fuses (array items)
  | zeroOrMore {items p} (hitem : .many .zeroOrMore p ∈ items) (hp : EndsIn "*" p) :
      Fuses (array items)
  | node {className as a} (ha : as.getLast? = some a) (hp : EndsIn ">" a.2 ∨ EndsIn "<=" a.2) :
      Fuses (node ⟨className, as⟩)

/-- Whether something is run together anywhere in the pattern. -/
def HasFusion (p : Pattern) : Prop := ∃ q, IsPart q p ∧ Fuses q

theorem endsIn_iff {s : String} {p : Pattern} (h : p.isChoice = false) :
    EndsIn s p ↔ p = scalar (.symbol s) := by
  constructor
  · rintro (_ | _)
    · rfl
    · cases h
  · rintro rfl
    exact .symbol

theorem endsIn_choice_iff {s : String} {p : Pattern} {ps : List Pattern} :
    EndsIn s (choice p ps) ↔ (p :: ps).getLast? = some (scalar (.symbol s)) := by
  constructor
  · rintro (_ | h)
    exact h
  · exact .choice

/-! ## The last piece of a pattern -/

/-- The last piece is a symbol or none, depending on whether the pattern ends in a symbol. -/
def LastPiece (p : Pattern) (r : Piece) : Prop :=
  (∃ s, r = tight .symbol (':' :: s.toList) ∧ EndsIn s p) ∨
    r.terminal.kind ≠ .symbol ∧ ∀ s, ¬ EndsIn s p

theorem lastPiece_of_not_choice {p : Pattern} (h : p.isChoice = false) :
    ∃ r, p.pieces.getLast? = some r ∧ LastPiece p r := by
  have hnone {k : Token.Kind} {l : List Char} (hk : k ≠ .symbol)
      (hp : ∀ s, p ≠ scalar (.symbol s)) : LastPiece p (tight k l) :=
    .inr ⟨hk, fun s hs => hp s ((endsIn_iff h).mp hs)⟩
  cases p with
  | any => exact ⟨tight .anyKeyword _, rfl, hnone (by decide) (by simp)⟩
  | regexp kind r => exact ⟨tight .regexp _, rfl, hnone (by decide) (by simp)⟩
  | scalar s =>
      refine ⟨tight s.kind s.chars, rfl, ?_⟩
      rcases s with _ | (_ | _) | _ | _ | name
      case symbol => exact .inl ⟨name, rfl, .symbol⟩
      all_goals exact hnone (by simp [Scalar.kind]) (by simp)
  | node n =>
      obtain ⟨className, as⟩ := n
      rw [pieces_node, angled]
      split
      · exact ⟨tight .className _, rfl, hnone (by decide) (by simp)⟩
      · rw [← List.cons_append, ← List.cons_append, List.getLast?_concat]
        exact ⟨_, rfl, hnone (by decide) (by simp)⟩
  | choice p ps => cases h
  | array items =>
      rw [pieces_array, ← List.cons_append, List.getLast?_concat]
      exact ⟨_, rfl, hnone (by decide) (by simp)⟩

theorem exists_lastPiece {p : Pattern} (h : WellFormed p) :
    ∃ r, p.pieces.getLast? = some r ∧ LastPiece p r := by
  cases h with
  | @choice p ps hflat _ =>
      obtain ⟨q, hq⟩ : ∃ q, (p :: ps).getLast? = some q :=
        ⟨_, List.getLast?_eq_some_getLast (List.cons_ne_nil p ps)⟩
      have hchoice := hflat q (List.mem_of_getLast? hq)
      obtain ⟨r, hr, hlast⟩ := lastPiece_of_not_choice hchoice
      have hends (s : String) : EndsIn s (choice p ps) ↔ EndsIn s q := by
        rw [endsIn_choice_iff, endsIn_iff hchoice, hq, Option.some_inj]
      refine ⟨r, ?_, ?_⟩
      · rw [pieces_choice, Piece.getLast?_joined, List.getLast?_map, hq]
        · exact hr
        · intro ps' hps'
          obtain ⟨q', _, rfl⟩ := List.mem_map.mp hps'
          exact pieces_ne_nil q'
      · simpa only [LastPiece, hends] using hlast
  | _ => exact lastPiece_of_not_choice rfl

theorem EndsIn.unique {s t : String} {p : Pattern} (hs : EndsIn s p) (ht : EndsIn t p) : s = t := by
  cases hs with
  | symbol =>
      cases ht
      rfl
  | choice h =>
      rw [endsIn_choice_iff, h] at ht
      cases ht
      rfl

/-- The symbols that an operator of one character makes longer. -/
theorem apart_last_iff {p : Pattern} (h : WellFormed p)
    (hstands : ∀ r ∈ p.pieces, r.terminal.Stands) {k : Kind} {c : Char}
    (hk : k ∈ [Kind.question, .star, .rightAngle]) (hc : c ∈ Token.boundaries) :
    (∀ r ∈ p.pieces.getLast?, r.fuses (tight k [c]) = false) ↔ ∀ s, EndsIn s p →
      ¬ (c = '?' ∧ Token.isBareName s.toList = true ∨ c = '*' ∧ s.toList = ['*'] ∨
        c = '>' ∧ (s.toList = ['>'] ∨ s.toList = ['<', '='])) := by
  obtain ⟨r, hr, hlast⟩ := exists_lastPiece h
  have hsome : (∀ q ∈ some r, q.fuses (tight k [c]) = false) ↔ r.fuses (tight k [c]) = false := by
    simp
  rw [hr, hsome]
  rcases hlast with ⟨s, rfl, hs⟩ | ⟨hne, hnot⟩
  · have hsymbol : Token.symbol? (':' :: s.toList ++ []) = some (':' :: s.toList) :=
      (hstands _ (List.mem_of_getLast? hr)).symbol? rfl rfl
    have hlonger := Token.symbol?_concat_iff hsymbol hc
    rw [← Bool.not_eq_true, Piece.fuses_iff]
    constructor
    · intro hapart t ht hcase
      obtain rfl := hs.unique ht
      exact hapart ⟨⟨rfl, rfl, rfl⟩, hk, hlonger.mpr hcase⟩
    · intro hall hfuses
      exact hall s hs (hlonger.mp hfuses.2.2)
  · exact iff_of_true (Piece.fuses_of_ne_symbol hne _) fun s hs => absurd hs (hnot s)

section

variable {p : Pattern} (h : WellFormed p) (hstands : ∀ r ∈ p.pieces, r.terminal.Stands)

include h hstands

theorem apart_question_iff : (∀ r ∈ p.pieces.getLast?, r.fuses (tight .question ['?']) = false) ↔
    ∀ s, EndsIn s p → Token.isBareName s.toList = false := by
  rw [apart_last_iff h hstands (by decide) (by decide)]
  simp

theorem apart_star_iff :
    (∀ r ∈ p.pieces.getLast?, r.fuses (tight .star ['*']) = false) ↔ ¬ EndsIn "*" p := by
  have hname (s : String) : s.toList = ['*'] ↔ s = "*" := by
    rw [← String.toList_inj]
    rfl
  rw [apart_last_iff h hstands (by decide) (by decide)]
  simp only [hname]
  constructor
  · exact fun hall hp => hall "*" hp (.inr (.inl ⟨trivial, rfl⟩))
  · rintro hnot s hs (⟨hc, _⟩ | ⟨_, rfl⟩ | ⟨hc, _⟩)
    · cases hc
    · exact hnot hs
    · cases hc

theorem apart_angle_iff : (∀ r ∈ p.pieces.getLast?, r.fuses (tight .rightAngle ['>']) = false) ↔
    ¬ (EndsIn ">" p ∨ EndsIn "<=" p) := by
  have hgreater (s : String) : s.toList = ['>'] ↔ s = ">" := by
    rw [← String.toList_inj]
    rfl
  have hless (s : String) : s.toList = ['<', '='] ↔ s = "<=" := by
    rw [← String.toList_inj]
    rfl
  rw [apart_last_iff h hstands (by decide) (by decide)]
  simp only [hgreater, hless]
  constructor
  · rintro hall (hp | hp)
    · exact hall ">" hp (.inr (.inr ⟨trivial, .inl rfl⟩))
    · exact hall "<=" hp (.inr (.inr ⟨trivial, .inr rfl⟩))
  · rintro hnot s hs (⟨hc, _⟩ | ⟨hc, _⟩ | ⟨_, rfl | rfl⟩)
    · cases hc
    · cases hc
    · exact hnot (.inl hs)
    · exact hnot (.inr hs)

end

/-! ## Patterns whose pieces are apart -/

theorem hasFusion_node_iff {className : String} {as : List (String × Pattern)} :
    HasFusion (node ⟨className, as⟩) ↔
      Fuses (node ⟨className, as⟩) ∨ ∃ a ∈ as, HasFusion a.2 := by
  simp only [HasFusion, isPart_node]
  constructor
  · rintro ⟨q, rfl | ⟨a, ha, hpart⟩, hfuses⟩
    · exact .inl hfuses
    · exact .inr ⟨a, ha, q, hpart, hfuses⟩
  · rintro (hfuses | ⟨a, ha, q, hpart, hfuses⟩)
    · exact ⟨_, .inl rfl, hfuses⟩
    · exact ⟨q, .inr ⟨a, ha, hpart⟩, hfuses⟩

theorem hasFusion_choice_iff {p : Pattern} {ps : List Pattern} :
    HasFusion (choice p ps) ↔ ∃ q ∈ p :: ps, HasFusion q := by
  simp only [HasFusion, isPart_choice]
  constructor
  · rintro ⟨q, rfl | ⟨r, hr, hpart⟩, hfuses⟩
    · cases hfuses
    · exact ⟨r, hr, q, hpart, hfuses⟩
  · rintro ⟨r, hr, q, hpart, hfuses⟩
    exact ⟨q, .inr ⟨r, hr, hpart⟩, hfuses⟩

theorem hasFusion_array_iff {xs : List (Item Pattern)} :
    HasFusion (array xs) ↔ Fuses (array xs) ∨ ∃ x ∈ xs, HasFusion x.pattern := by
  simp only [HasFusion, isPart_array]
  constructor
  · rintro ⟨q, rfl | ⟨x, hx, hpart⟩, hfuses⟩
    · exact .inl hfuses
    · exact .inr ⟨x, hx, q, hpart, hfuses⟩
  · rintro (hfuses | ⟨x, hx, q, hpart, hfuses⟩)
    · exact ⟨_, .inl rfl, hfuses⟩
    · exact ⟨q, .inr ⟨x, hx, hpart⟩, hfuses⟩

theorem fuses_node_iff {className : String} {as : List (String × Pattern)} {a : String × Pattern}
    (ha : as.getLast? = some a) :
    Fuses (node ⟨className, as⟩) ↔ EndsIn ">" a.2 ∨ EndsIn "<=" a.2 := by
  constructor
  · rintro (_ | _ | ⟨hb, hp⟩)
    rw [ha] at hb
    cases hb
    exact hp
  · exact .node ha

/-- Whether a quantifier makes a longer symbol of the end of its pattern. -/
def FusesItem : Item Pattern → Prop
  | .one _ => False
  | .many q p => q = .optional ∧ (∃ s, EndsIn s p ∧ Token.isBareName s.toList = true) ∨
      q = .zeroOrMore ∧ EndsIn "*" p

theorem fuses_array_iff {xs : List (Item Pattern)} :
    Fuses (array xs) ↔ ∃ x ∈ xs, FusesItem x := by
  constructor
  · rintro (⟨hitem, hp, hs⟩ | ⟨hitem, hp⟩)
    · exact ⟨_, hitem, .inl ⟨rfl, _, hp, hs⟩⟩
    · exact ⟨_, hitem, .inr ⟨rfl, hp⟩⟩
  · rintro ⟨_ | ⟨q, p⟩, hitem, hfuses⟩
    · cases hfuses
    · rcases hfuses with ⟨rfl, s, hp, hs⟩ | ⟨rfl, hp⟩
      · exact .optional hitem hp hs
      · exact .zeroOrMore hitem hp

theorem apart_attributePieces (a : String × Pattern) :
    Apart (attributePieces a) ↔ Apart a.2.pieces := by
  obtain ⟨a, p⟩ := a
  have hname : (⟨Terminal.name a.toList, 0⟩ : Piece).terminal.kind ≠ .symbol := Kind.noConfusion
  have hoperator : p.operatorPiece.terminal.kind ≠ .symbol := by
    cases p <;> exact Kind.noConfusion
  rw [attributePieces, Piece.apart_cons hname, Piece.apart_cons hoperator]

theorem forall_head?_iff {qs : List Piece} {q : Piece} (h : qs.head? = some q) (r : Piece) :
    (∀ t ∈ qs.head?, r.fuses t = false) ↔ r.fuses q = false := by
  simp [h]

theorem apart_many_iff {p : Pattern} (h : WellFormed p)
    (hstands : ∀ r ∈ p.pieces, r.terminal.Stands) (q : Quantifier) :
    Apart (p.pieces ++ q.pieces) ↔ Apart p.pieces ∧ ¬ FusesItem (.many q p) := by
  have hq : Apart q.pieces := Piece.apart_of_ne_symbol q.kind_ne_symbol
  rw [Piece.apart_append, and_iff_right hq]
  apply and_congr_right
  intro _
  rcases q.pieces_cases with rfl | rfl | ⟨hstar, hquestion, hhead⟩
  · have hne : Quantifier.zeroOrMore ≠ .optional := by decide
    simp only [forall_head?_iff (rfl : (Quantifier.zeroOrMore).pieces.head? = some _), FusesItem,
      hne, false_and, false_or, true_and]
    exact apart_star_iff h hstands
  · have hne : Quantifier.optional ≠ .zeroOrMore := by decide
    simp only [forall_head?_iff (rfl : (Quantifier.optional).pieces.head? = some _), FusesItem, hne,
      false_and, or_false, true_and, not_exists, not_and, Bool.not_eq_true]
    exact apart_question_iff h hstands
  · apply iff_of_true (fun r _ t ht => Piece.fuses_of_not_mem (hhead t ht) r)
    simp [FusesItem, hstar, hquestion]

theorem apart_itemPieces {x : Item Pattern} (h : WellFormed x.pattern)
    (hstands : ∀ r ∈ x.pattern.pieces, r.terminal.Stands) :
    Apart (itemPieces x) ↔ Apart x.pattern.pieces ∧ ¬ FusesItem x := by
  cases x with
  | one p => exact (and_iff_left id).symm
  | many q p => exact apart_many_iff h hstands q

theorem mem_itemPieces {x : Item Pattern} {r : Piece} (hr : r ∈ x.pattern.pieces) :
    r ∈ itemPieces x := by
  cases x with
  | one p => exact hr
  | many q p => exact List.mem_append_left _ hr

theorem mem_pieces_node {className : String} {as : List (String × Pattern)} {a : String × Pattern}
    {r : Piece} (ha : a ∈ as) (hr : r ∈ a.2.pieces) : r ∈ (node ⟨className, as⟩).pieces := by
  have hne : (as.map attributePieces).isEmpty = false := by simpa using List.ne_nil_of_mem ha
  have hattribute : r ∈ attributePieces a := by
    obtain ⟨b, p⟩ := a
    exact List.mem_cons_of_mem _ (List.mem_cons_of_mem _ hr)
  rw [pieces_node, angled, hne, if_neg Bool.false_ne_true]
  exact List.mem_cons_of_mem _ (List.mem_cons_of_mem _ (List.mem_append_left _
    (Piece.mem_joined_of_mem (List.mem_map_of_mem ha) hattribute)))

theorem getLast?_attributePieces (a : String × Pattern) :
    (attributePieces a).getLast? = a.2.pieces.getLast? := by
  obtain ⟨a, p⟩ := a
  obtain ⟨r, rs, hpieces⟩ := List.exists_cons_of_ne_nil (pieces_ne_nil p)
  simp only [attributePieces, hpieces, List.getLast?_cons_cons]

/-- The attributes of a node are apart if the last one is apart from the closing bracket. -/
theorem apart_node_iff {className : String} {as : List (String × Pattern)} {a : String × Pattern}
    (ha : as.getLast? = some a) : Apart (node ⟨className, as⟩).pieces ↔
      (∀ b ∈ as, Apart b.2.pieces) ∧
        ∀ r ∈ a.2.pieces.getLast?, r.fuses (tight .rightAngle ['>']) = false := by
  have hne : (as.map attributePieces).isEmpty = false := by
    simpa using List.ne_nil_of_mem (List.mem_of_getLast? ha)
  have hlast : (Piece.comma.joined (as.map attributePieces)).getLast? = a.2.pieces.getLast? := by
    rw [Piece.getLast?_joined, List.getLast?_map, ha]
    · exact getLast?_attributePieces a
    · intro ps hps
      obtain ⟨⟨b, p⟩, _, rfl⟩ := List.mem_map.mp hps
      exact List.cons_ne_nil _ _
  rw [pieces_node, Piece.apart_tight_cons (by decide), angled, hne, if_neg Bool.false_ne_true,
    Piece.apart_tight_cons (by decide), Piece.apart_append, hlast,
    Piece.apart_joined (by decide) (by decide), List.forall_mem_map]
  simp only [apart_attributePieces]
  apply and_congr_right
  intro _
  rw [and_iff_right (.singleton _)]
  exact forall₂_congr fun r _ => forall_head?_iff rfl r

/-- The pieces of a pattern are apart exactly if nothing in it is run together. -/
theorem apart_pieces_iff {p : Pattern} (h : WellFormed p)
    (hstands : ∀ r ∈ p.pieces, r.terminal.Stands) : Apart p.pieces ↔ ¬ HasFusion p := by
  induction h with
  | any | scalar s | regexp kind r =>
      apply iff_of_true (.singleton _)
      rintro ⟨_, ⟨⟩, ⟨⟩⟩
  | @node className as hnames has ih =>
      have hparts : ∀ a ∈ as, Apart a.2.pieces ↔ ¬ HasFusion a.2 := fun a ha =>
        ih a ha fun r hr => hstands r (mem_pieces_node ha hr)
      cases hlast : as.getLast? with
      | none =>
          obtain rfl := List.getLast?_eq_none_iff.mp hlast
          apply iff_of_true (.singleton _)
          intro hfusion
          rcases hasFusion_node_iff.mp hfusion with (_ | _ | ⟨ha, _⟩) | ⟨a, ha, _⟩
          · cases ha
          · cases ha
      | some a =>
          have ha := List.mem_of_getLast? hlast
          rw [apart_node_iff hlast, hasFusion_node_iff, fuses_node_iff hlast, not_or, and_comm,
            apart_angle_iff (has a ha) fun r hr => hstands r (mem_pieces_node ha hr)]
          apply and_congr_right'
          simp only [not_exists, not_and]
          exact forall₂_congr hparts
  | @choice p ps hflat hps ih =>
      rw [pieces_choice] at hstands
      have hparts : ∀ q ∈ p :: ps, Apart q.pieces ↔ ¬ HasFusion q := fun q hq =>
        ih q hq fun r hr => hstands r (Piece.mem_joined_of_mem (List.mem_map_of_mem hq) hr)
      rw [pieces_choice, Piece.apart_joined (by decide) (by decide), List.forall_mem_map,
        hasFusion_choice_iff]
      simp only [not_exists, not_and]
      exact forall₂_congr hparts
  | @array xs hxs ih =>
      rw [pieces_array] at hstands
      have hparts : ∀ x ∈ xs, Apart (itemPieces x) ↔ ¬ FusesItem x ∧ ¬ HasFusion x.pattern := by
        intro x hx
        have hstands' : ∀ r ∈ x.pattern.pieces, r.terminal.Stands := fun r hr =>
          hstands r (List.mem_cons_of_mem _ (List.mem_append_left _
            (Piece.mem_joined_of_mem (List.mem_map_of_mem hx) (mem_itemPieces hr))))
        rw [apart_itemPieces (hxs x hx) hstands', ih x hx hstands', and_comm]
      rw [pieces_array, Piece.apart_tight_cons (by decide),
        Piece.apart_append_cons (by decide) (by decide), Piece.apart_joined (by decide) (by decide),
        List.forall_mem_map, hasFusion_array_iff, fuses_array_iff, and_iff_left .nil, not_or]
      simp only [not_exists, not_and]
      rw [← forall₂_and]
      exact forall₂_congr hparts

end Pattern

end TreePattern
