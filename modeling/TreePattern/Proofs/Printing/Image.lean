import TreePattern.Proofs.Pattern.Parts
import TreePattern.Proofs.Printing.Canonical
import TreePattern.Proofs.Printing.RoundTrip

/-! Which patterns have a text: without regular expressions, exactly the canonical ones that are not
too deep. Whatever is read is canonical, as every name comes from a token that was scanned; and a
canonical pattern is read from its own tokens with a space behind each of them. -/

namespace TreePattern

open Token (isBlank)
open Terminal (plain name)
open Pattern (Canonical IsPart)

namespace Grammar

variable {limit levels : Nat} {E : List Terminal → Pattern → Prop} {ts : List Terminal}

/-! ## What is read is canonical -/

theorem Scanned.isClassName {l : List Char} (h : Scanned (plain .className l)) :
    Token.IsClassName l := by
  obtain ⟨behind, hscan⟩ := h
  exact ((Token.isLongest_className _).of_eq_some ((Token.scan_of_lexeme? hscan).1 rfl)).1

theorem Scanned.isAttributeName {l : List Char} (h : Scanned (name l)) :
    Token.IsAttributeName l := by
  obtain ⟨behind, hscan⟩ := h
  exact Token.isAttributeName_of_methodName? (Token.methodName?_of_scan? hscan)

section

variable (hE : ∀ us p, E us p → (∀ t ∈ us, Scanned t) →
  (∀ kind r, ¬ IsPart (.regexp kind r) p) → Canonical p)
include hE

theorem IsConstraint.canonical {a : String × Pattern} (h : IsConstraint limit E ts a)
    (hts : ∀ t ∈ ts, Scanned t) (hregexp : ∀ kind r, ¬ IsPart (.regexp kind r) a.2) :
    Token.IsAttributeName a.1.toList ∧ Canonical a.2 := by
  cases h with
  | @equals us p l l' h =>
      obtain ⟨hname, hts'⟩ := List.forall_mem_cons.mp hts
      rw [String.toList_ofList]
      exact ⟨hname.isAttributeName, hE us p h (List.forall_mem_cons.mp hts').2 hregexp⟩
  | matching l l' hop h =>
      cases h <;> exact absurd .refl (hregexp _ _)

theorem IsItem.canonical {x : Item Pattern} (h : IsItem E ts x) (hts : ∀ t ∈ ts, Scanned t)
    (hregexp : ∀ kind r, ¬ IsPart (.regexp kind r) x.pattern) :
    Canonical x.pattern ∧ ∀ q p, x = .many q p → q.IsCanonical := by
  cases h with
  | one h => exact ⟨hE _ _ h hts hregexp, nofun⟩
  | many h hq =>
      refine ⟨hE _ _ h (fun t ht => hts t (List.mem_append_left _ ht)) hregexp, ?_⟩
      rintro q p ⟨⟩
      exact Quantifier.isWritable_iff.mp hq.isWritable

theorem IsPrimary.canonical {p : Pattern} (h : IsPrimary limit E ts p)
    (hts : ∀ t ∈ ts, Scanned t) (hregexp : ∀ kind r, ¬ IsPart (.regexp kind r) p) :
    Canonical p := by
  cases h with
  | any l => exact .any
  | scalar h => exact .scalar (h.spelled hts)
  | @node us as l h =>
      obtain ⟨hclass, hus⟩ := List.forall_mem_cons.mp hts
      have hconstraint : ∀ a ∈ Node.lastValues as,
          Token.IsAttributeName a.1.toList ∧ Canonical a.2 := by
        intro a ha
        have hmem := (Node.lastValues_subperm as).subset ha
        cases h with
        | absent => cases hmem
        | present _ _ h =>
            obtain ⟨vs, hvs, hconstraint⟩ := h.mem a hmem
            refine hconstraint.canonical hE (fun t ht => hus t ?_) fun kind r hpart =>
              hregexp kind r (.attribute ha hpart)
            exact List.mem_cons_of_mem _ (List.mem_append_left _ (hvs ht))
      refine .node ?_ (Node.nodup_map_fst_lastValues as) (fun a ha => (hconstraint a ha).1)
        fun a ha => (hconstraint a ha).2
      rw [String.toList_ofList]
      exact hclass.isClassName
  | @array us xs l h =>
      obtain ⟨_, hus⟩ := List.forall_mem_cons.mp hts
      have hitem : ∀ x ∈ xs,
          Canonical x.pattern ∧ ∀ q p, x = .many q p → q.IsCanonical := by
        intro x hx
        cases h with
        | nil => cases hx
        | cons _ h =>
            obtain ⟨vs, hvs, hitem⟩ := h.mem x hx
            exact hitem.canonical hE (fun t ht => hus t (List.mem_append_left _ (hvs ht)))
              fun kind r hpart => hregexp kind r (.item hx hpart)
      exact .array (fun q p hx => (hitem _ hx).2 q p rfl) fun x hx => (hitem x hx).1

end

/-- A derivation from scanned terminals denotes a canonical pattern, by induction on the expressions
inside. -/
theorem IsExpression.canonical {p : Pattern} (h : IsExpression limit levels ts p)
    (hts : ∀ t ∈ ts, Scanned t) (hregexp : ∀ kind r, ¬ IsPart (.regexp kind r) p) :
    Canonical p := by
  induction levels generalizing ts p with
  | zero => exact absurd h id
  | succ levels ih =>
      obtain ⟨ps, hps, hchoice⟩ := h
      have hprimary : ∀ q ∈ ps, (∀ kind r, ¬ IsPart (.regexp kind r) q) → Canonical q := by
        intro q hq hregexp
        obtain ⟨us, hus, hprimary⟩ := hps.mem q hq
        exact hprimary.canonical (fun _ _ => ih) (fun t ht => hts t (hus ht)) hregexp
      have hflat : ∀ q ∈ ps, q.isChoice = false := by
        intro q hq
        obtain ⟨us, _, hprimary⟩ := hps.mem q hq
        cases hprimary <;> rfl
      cases hchoice with
      | single p => exact hprimary p List.mem_cons_self hregexp
      | choice p q qs =>
          exact .choice (List.cons_ne_nil q qs) hflat fun r hr =>
            hprimary r hr fun kind e hpart => hregexp kind e (.alternative hr hpart)

end Grammar

namespace Pattern

variable {options : Options} {p : Pattern}

/-! ## What is canonical is read -/

/-- A text of the pattern with a space behind every token. -/
def spacedText (p : Pattern) : String :=
  .ofList (Piece.text ((p.pieces.map Piece.terminal).map (Piece.mk · 1)))

theorem parse_spacedText (h : Canonical p) (hdepth : p.nesting ≤ options.maxDepth) :
    parse options p.spacedText = .ok p := by
  have hderives := h.derives options.regexSizeLimit hdepth
  have hphrase := hderives.phrase
  have hstands : ∀ u ∈ p.pieces.map Piece.terminal, u.Stands := by
    rw [List.forall_mem_map]
    exact h.stands
  have hblank : ∀ c ∈ ([] : List Char), isBlank c = true := nofun
  obtain ⟨rest, htiles, hrest⟩ := Piece.tiles_spaced hblank hphrase.chain_pipe
    (fun t ht => (hphrase.last t ht).1) hstands
  refine parse_of_derivation hderives ?_ hrest
  rw [spacedText, String.toList_ofList]
  exact htiles

/-- Without regular expressions, a pattern has a text exactly if it is canonical and not nested too
deeply. -/
theorem exists_parse_eq_ok_iff (p : Pattern) (hregexp : ∀ kind r, ¬ IsPart (regexp kind r) p) :
    (∃ text, parse {} text = .ok p) ↔ Canonical p ∧ p.nesting ≤ 128 := by
  constructor
  · rintro ⟨text, h⟩
    obtain ⟨ts, rest, hts, htiles, _⟩ := exists_derivation h
    exact ⟨hts.canonical htiles.scanned hregexp, nesting_le_of_parse h⟩
  · rintro ⟨h, hdepth⟩
    exact ⟨p.spacedText, parse_spacedText h hdepth⟩

/-- An operator and a setter as names, and a symbol that runs together with its quantifier where the
pattern is printed. -/
theorem exists_parse_eq_ok_iff_setter :
    let p := node ⟨"Foo", [("==", choice (scalar (.symbol "a?")) [scalar .nil]),
      ("b=", array [.many .odd any, .many .zeroOrMore (scalar (.symbol "*"))])]⟩
    (∀ kind r, ¬ IsPart (regexp kind r) p) ∧ Canonical p ∧ p.nesting = 3 ∧
      ∃ text, parse {} text = .ok p := by
  intro p
  have hregexp : ∀ kind r, ¬ IsPart (regexp kind r) p := by
    simp [p, isPart_node, isPart_choice, isPart_array, isPart_scalar, isPart_any, Item.pattern]
  have hquestion : Scalar.Spelled (.symbol "a?") := by
    rintro _ ⟨⟩
    exact ⟨_, rfl, .inl ⟨'a', [], ['?'], rfl, rfl, List.forall_mem_nil _,
      .inr (.inl rfl)⟩⟩
  have hstar : Scalar.Spelled (.symbol "*") := by
    rintro _ ⟨⟩
    exact ⟨_, rfl, .inr (by decide)⟩
  have hnil : Scalar.Spelled .nil := by
    rintro _ ⟨⟩
  have hchoice : Canonical (choice (scalar (.symbol "a?")) [scalar .nil]) :=
    .choice (List.cons_ne_nil _ _) (by simp [isChoice])
      (by simpa using ⟨.scalar hquestion, .scalar hnil⟩)
  have harray : Canonical
      (array [.many .odd any, .many .zeroOrMore (scalar (.symbol "*"))]) := by
    refine .array ?_ (by simpa [Item.pattern] using ⟨.any, .scalar hstar⟩)
    intro q r hmem
    simp only [List.mem_cons, List.not_mem_nil, or_false, Item.many.injEq] at hmem
    rcases hmem with ⟨rfl, rfl⟩ | ⟨rfl, rfl⟩
    · exact .inl ⟨.inr rfl, rfl, rfl⟩
    · refine .inr ⟨rfl, Nat.zero_le _, ?_⟩
      rintro _ ⟨⟩
  have hcanonical : Canonical p := by
    refine .node ⟨'F', ['o', 'o'], rfl, by decide, List.all_eq_true.mp rfl⟩ (by decide) ?_
      (by simpa using ⟨hchoice, harray⟩)
    simp only [List.forall_mem_cons, List.not_mem_nil, false_implies, implies_true, and_true]
    exact ⟨.operator (by decide), @Token.IsAttributeName.setter 'b' []
      ⟨by decide, List.forall_mem_nil _, by simp⟩⟩
  have hnesting : p.nesting = 3 := rfl
  exact ⟨hregexp, hcanonical, hnesting, (exists_parse_eq_ok_iff p hregexp).mpr
    ⟨hcanonical, by omega⟩⟩

end Pattern

end TreePattern
