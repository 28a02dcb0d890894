import TreePattern.Pattern.Regexp
import TreePattern.Proofs.Regex.Semantics

/-! Reading regular expressions. Whatever is read repeats nothing more often at least than at most,
which is what matching relies on. -/

namespace TreePattern

namespace Regex

theorem ordered_sequence {es : List Regex} (h : ∀ e ∈ es, e.Ordered) : (sequence es).Ordered := by
  induction es with
  | nil => trivial
  | cons e es ih =>
      obtain ⟨he, hes⟩ := List.forall_mem_cons.mp h
      cases es with
      | nil => exact he
      | cons d es => exact ⟨he, ih hes⟩

theorem ordered_choice {e : Regex} {es : List Regex} (he : e.Ordered) (h : ∀ d ∈ es, d.Ordered) :
    (choice e es).Ordered := by
  induction es generalizing e with
  | nil => exact he
  | cons d es ih =>
      obtain ⟨hd, hes⟩ := List.forall_mem_cons.mp h
      exact ⟨he, ih hd hes⟩

/-- All parts stand for expressions in order. -/
def PartsOrdered (ps : List Part) : Prop := ∀ p ∈ ps, p.regex.Ordered

theorem partsOrdered_nil : PartsOrdered [] := List.forall_mem_nil _

theorem PartsOrdered.cons {p : Part} {ps : List Part} (h : PartsOrdered ps)
    (hp : p.regex.Ordered) : PartsOrdered (p :: ps) :=
  List.forall_mem_cons.mpr ⟨hp, h⟩

namespace Part

variable {p : Part} {ps : List Part}

theorem ordered_sequence (h : PartsOrdered ps) : (sequence ps).regex.Ordered := by
  match ps with
  | [] => trivial
  | [p] => exact h p List.mem_cons_self
  | p :: q :: ps =>
      refine Regex.ordered_sequence fun e he => ?_
      obtain ⟨r, hr, rfl⟩ := List.mem_map.mp he
      exact h r (List.mem_reverse.mp hr)

theorem ordered_choice (hp : p.regex.Ordered) (h : PartsOrdered ps) :
    (choice p ps).regex.Ordered := by
  have hall := h.cons hp
  unfold choice
  split
  · exact hp
  · split
    · exact hp
    · rename_i q rest hreverse
      have hmem : ∀ r ∈ q :: rest, r.regex.Ordered := fun r hr =>
        hall r (List.mem_reverse.mp (hreverse ▸ hr))
      obtain ⟨hq, hrest⟩ := List.forall_mem_cons.mp hmem
      exact Regex.ordered_choice hq (List.forall_mem_map.mpr hrest)

end Part

/-! ## Repetitions -/

/-- The bounds are in order. -/
def Bounds.Ordered (b : Bounds) : Prop := ∀ m ∈ b.most, b.least ≤ m

theorem Bounds.ordered_none (n : Nat) : (⟨n, none, false⟩ : Bounds).Ordered := nofun

theorem Bounds.ordered_some {n k : Nat} (h : n ≤ k) : (⟨n, some k, false⟩ : Bounds).Ordered := by
  rintro _ ⟨⟩
  exact h

theorem Bounds.Ordered.of_marks {b b' : Bounds} {cs rest : List Char} (hb : b.Ordered)
    (h : b.marks cs = (b', rest)) : b'.Ordered := by
  unfold marks at h
  split at h <;>
  · cases h
    exact hb

theorem ordered_of_bounds? {x : Bool} {cs rest : List Char} {b : Bounds}
    (h : bounds? x cs = some (b, rest)) : b.Ordered := by
  unfold bounds? at h
  obtain ⟨⟨least, cs₁⟩, _, h⟩ := Option.bind_eq_some_iff.mp h
  dsimp only at h
  split at h
  · exact (Bounds.ordered_some (Nat.le_refl least)).of_marks (Option.some.inj h)
  · split at h
    · exact (Bounds.ordered_none least).of_marks (Option.some.inj h)
    · obtain ⟨⟨most, cs₂⟩, _, h⟩ := Option.bind_eq_some_iff.mp h
      dsimp only at h
      split at h
      · split at h
        · rename_i hle
          exact (Bounds.ordered_some hle).of_marks (Option.some.inj h)
        · cases h
      · cases h
  · cases h

theorem ordered_of_repetition? {x : Bool} {cs rest : List Char} {b : Bounds}
    (h : repetition? x cs = some (some (b, rest))) : b.Ordered := by
  unfold repetition? at h
  split at h
  · exact (Bounds.ordered_some (Nat.zero_le 1)).of_marks (Option.some.inj (Option.some.inj h))
  · exact (Bounds.ordered_none 0).of_marks (Option.some.inj (Option.some.inj h))
  · exact (Bounds.ordered_none 1).of_marks (Option.some.inj (Option.some.inj h))
  · obtain ⟨bounds, hbounds, heq⟩ := Option.map_eq_some_iff.mp h
    cases heq
    exact ordered_of_bounds? hbounds
  · cases h

/-! ## Parts and groups -/

theorem ordered_of_literal? {m : Modes} {c : Char} {byte : Bool} {e : Regex}
    (h : m.literal? c byte = some e) : e.Ordered := by
  unfold Modes.literal? at h
  split at h
  · cases h
    trivial
  · split at h
    · cases h
      trivial
    · split at h
      · cases h
      · cases h
        trivial

theorem ordered_of_part? {levels : Nat} {m : Modes} {cs rest : List Char} {p : Part}
    (h : part? levels m cs = some (p, rest)) : p.regex.Ordered := by
  unfold part? at h
  split at h
  · cases h
  · obtain ⟨_, _, heq⟩ := Option.map_eq_some_iff.mp h
    cases heq
    trivial
  · obtain ⟨_, _, heq⟩ := Option.map_eq_some_iff.mp h
    cases heq
    trivial
  · cases h
    trivial
  · cases h
    trivial
  · obtain ⟨⟨atom, rest'⟩, _, h⟩ := Option.bind_eq_some_iff.mp h
    cases atom with
    | literal c byte =>
        obtain ⟨e, he, heq⟩ := Option.map_eq_some_iff.mp h
        cases heq
        exact ordered_of_literal? he
    | look l | set s =>
        cases h
        trivial
  · obtain ⟨e, he, heq⟩ := Option.map_eq_some_iff.mp h
    cases heq
    exact ordered_of_literal? he

/-- A reader of groups yields expressions in order. -/
def Orders (read : Context → List Char → Option (Part × Context × List Char)) : Prop :=
  ∀ ctx cs p ctx' rest, read ctx cs = some (p, ctx', rest) → p.regex.Ordered

/-- The branches of a group are in order if the groups inside are, by induction on the fuel. -/
theorem ordered_of_readBranches {inner : Context → List Char → Option (Part × Context × List Char)}
    (hinner : Orders inner) {levels fuel : Nat} {ctx ctx' : Context} {branches parts : List Part}
    {cs rest : List Char} {p : Part} (hbranches : PartsOrdered branches)
    (hparts : PartsOrdered parts)
    (h : readBranches inner levels fuel ctx branches parts cs = some (p, ctx', rest)) :
    p.regex.Ordered := by
  have hclosed {branches parts : List Part} (hbranches : PartsOrdered branches)
      (hparts : PartsOrdered parts) : (Part.choice (.sequence parts) branches).regex.Ordered :=
    Part.ordered_choice (Part.ordered_sequence hparts) hbranches
  induction fuel generalizing ctx branches parts cs with
  | zero => cases h
  | succ fuel ih =>
      rw [readBranches] at h
      split at h
      · cases h
        exact hclosed hbranches hparts
      · cases h
        exact hclosed hbranches hparts
      · exact ih (hbranches.cons (Part.ordered_sequence hparts)) partsOrdered_nil h
      · obtain ⟨⟨opening, cs₁⟩, _, h⟩ := Option.bind_eq_some_iff.mp h
        cases opening with
        | change modes =>
            have hmark : Part.mark.regex.Ordered := trivial
            exact ih hbranches (hparts.cons hmark) h
        | group ctx₁ index =>
            obtain ⟨⟨q, ctx₂, cs₂⟩, hq, h⟩ := Option.bind_eq_some_iff.mp h
            split at h
            · rename_i heq
              cases heq
              have hq : q.regex.Ordered := hinner _ _ _ _ _ hq
              have hgroup : (q.group index).regex.Ordered := hq
              exact ih hbranches (hparts.cons hgroup) h
            · cases h
      · obtain ⟨repetition, hrepetition, h⟩ := Option.bind_eq_some_iff.mp h
        split at h
        · rename_i bounds cs₁ q parts _
          split at h
          · obtain ⟨hq, hparts⟩ := List.forall_mem_cons.mp hparts
            have hiterate : (Part.iterate q bounds.least bounds.most
                (bounds.marked == ctx.modes.swapGreed)).regex.Ordered :=
              ⟨hq, ordered_of_repetition? hrepetition⟩
            exact ih hbranches (PartsOrdered.cons hparts hiterate) h
          · cases h
        · cases h
        · obtain ⟨⟨q, cs₁⟩, hq, h⟩ := Option.bind_eq_some_iff.mp h
          exact ih hbranches (hparts.cons (ordered_of_part? hq)) h

theorem orders_readGroup (levels : Nat) : Orders (readGroup levels) := by
  induction levels with
  | zero =>
      intro ctx cs p ctx' rest h
      rw [readGroup] at h
      cases h
  | succ levels ih =>
      intro ctx cs p ctx' rest h
      rw [readGroup] at h
      exact ordered_of_readBranches ih partsOrdered_nil partsOrdered_nil h

theorem ordered_of_read? {m : Modes} {source : List Char} {e : Regex}
    (h : read? m source = some e) : e.Ordered := by
  unfold read? at h
  split at h
  · rename_i p ctx hread
    split at h
    · cases h
      exact orders_readGroup _ _ _ _ _ _ hread
    · cases h
  · cases h

end Regex

/-- A regular expression occurs in a text exactly if it matches what stands between two positions
of the text. -/
theorem Regexp.isMatch_iff (r : Regexp) (text : String) : r.isMatch text = true ↔
    ∃ p ≤ text.toList.length, ∃ q, r.program.Spans text.toList p q :=
  Regex.isMatch_iff_spans (Regex.ordered_of_read? r.denotes)

end TreePattern
