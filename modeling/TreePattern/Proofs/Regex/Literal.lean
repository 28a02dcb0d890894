import TreePattern.Proofs.Printing.Leaves
import TreePattern.Proofs.Regex.Quoted
import TreePattern.Proofs.Regex.Reading

/-! What the expression of an anchored text matches: the texts that start with it, end with it or
contain it. The conditions at its ends ask for the ends of the whole text, whatever the modes say of
lines. -/

namespace TreePattern

namespace Regex

variable {text : List Char} {p q : Nat}

theorem spans_sequence_cons {e : Regex} {es : List Regex} :
    (sequence (e :: es)).Spans text p q ↔
      ∃ m, e.Spans text p m ∧ (sequence es).Spans text m q := by
  cases es with
  | nil => simp [sequence, Spans]
  | cons d es => rfl

theorem spans_sequence_append {es es' : List Regex} :
    (sequence (es ++ es')).Spans text p q ↔
      ∃ m, (sequence es).Spans text p m ∧ (sequence es').Spans text m q := by
  induction es generalizing p with
  | nil => simp [sequence, Spans]
  | cons e es ih =>
      rw [List.cons_append, spans_sequence_cons]
      simp only [ih, spans_sequence_cons]
      constructor
      · rintro ⟨m, he, k, hes, hes'⟩
        exact ⟨k, ⟨m, he, hes⟩, hes'⟩
      · rintro ⟨k, ⟨m, he, hes⟩, hes'⟩
        exact ⟨m, he, k, hes, hes'⟩

/-- The characters of a text match where the text stands. -/
theorem spans_characters {x : List Char} :
    (sequence (characters x)).Spans text p q ↔ q = p + x.length ∧ x <+: text.drop p := by
  induction x generalizing p with
  | nil => simp [characters, sequence, Spans, eq_comm]
  | cons c x ih =>
      rw [characters, List.map_cons, spans_sequence_cons, ← characters]
      simp only [ih, Spans]
      constructor
      · rintro ⟨m, ⟨rfl, d, hd, hmem⟩, rfl, hx⟩
        obtain rfl : d = c := Unicode.CharSet.mem_singleton.mp hmem
        obtain ⟨hlt, rfl⟩ := List.getElem?_eq_some_iff.mp hd
        rw [List.drop_eq_getElem_cons hlt]
        exact ⟨by rw [List.length_cons]; omega, List.cons_prefix_cons.mpr ⟨rfl, hx⟩⟩
      · rintro ⟨rfl, hx⟩
        have hlt : p < text.length := by
          have hlength := hx.length_le
          rw [List.length_drop, List.length_cons] at hlength
          omega
        rw [List.drop_eq_getElem_cons hlt] at hx
        obtain ⟨hc, hx⟩ := List.cons_prefix_cons.mp hx
        refine ⟨p + 1, ⟨rfl, c, ?_, Unicode.CharSet.mem_singleton.mpr rfl⟩, ?_, hx⟩
        · rw [List.getElem?_eq_getElem hlt, hc]
        · rw [List.length_cons]
          omega

theorem spans_textStart (hp : p ≤ text.length) :
    (look .textStart).Spans text p q ↔ p = q ∧ p = 0 := by
  rw [Spans, Look.holds, Option.isNone_iff_eq_none, List.getLast?_eq_none_iff]
  refine and_congr_right fun _ => ?_
  rw [List.take_eq_nil_iff]
  constructor
  · rintro (rfl | rfl)
    · rfl
    · exact Nat.le_zero.mp hp
  · exact .inl

theorem spans_textEnd : (look .textEnd).Spans text p q ↔ p = q ∧ text.length ≤ p := by
  rw [Spans, Look.holds, Option.isNone_iff_eq_none, List.getElem?_eq_none_iff]

end Regex

/-- A text occurs where the anchor says. -/
def Anchor.Occurs (a : Anchor) (x text : List Char) : Prop :=
  match a with
  | start => x <+: text
  | stop => x <:+ text
  | anywhere => x <:+: text

/-- The expression of an anchored text matches part of a text exactly if the anchored text occurs
there. -/
theorem Anchor.spans_iff_occurs (a : Anchor) (x text : List Char) :
    (∃ p ≤ text.length, ∃ q, (Regex.sequence (a.parts x)).Spans text p q) ↔ a.Occurs x text := by
  cases a with
  | start =>
      simp only [parts, Regex.spans_sequence_cons, Regex.spans_characters, Occurs]
      constructor
      · rintro ⟨p, hp, q, m, hstart, rfl, hx⟩
        obtain ⟨rfl, rfl⟩ := (Regex.spans_textStart hp).mp hstart
        exact hx
      · intro hx
        have hstart : (Regex.look .textStart).Spans text 0 0 :=
          (Regex.spans_textStart (Nat.zero_le _)).mpr ⟨rfl, rfl⟩
        exact ⟨0, Nat.zero_le _, _, 0, hstart, rfl, hx⟩
  | stop =>
      simp only [parts, Regex.spans_sequence_append, Regex.spans_characters, Occurs,
        Regex.sequence, Regex.spans_textEnd]
      constructor
      · rintro ⟨p, hp, q, m, ⟨rfl, hx⟩, rfl, hend⟩
        have hlength : (text.drop p).length ≤ x.length := by
          rw [List.length_drop]
          omega
        rw [hx.eq_of_length_le hlength]
        exact List.drop_suffix p text
      · rintro ⟨front, rfl⟩
        refine ⟨front.length, by simp, _, _, ⟨rfl, by simp⟩, rfl, by simp⟩
  | anywhere =>
      simp only [parts, Regex.spans_characters, Occurs]
      constructor
      · rintro ⟨p, _, _, _, hx⟩
        exact hx.isInfix.trans (List.drop_suffix p text).isInfix
      · rintro ⟨front, behind, rfl⟩
        exact ⟨front.length, by simp, _, rfl, by simp⟩

/-- The modes without flags read every character that has no meaning of its own as itself. -/
theorem Regexp.Flags.verbatim_modes : ({} : Regexp.Flags).modes.Verbatim := ⟨rfl, rfl, rfl⟩

/-- A regular expression made of an anchored text is found in the texts where that occurs. -/
theorem Regexp.isMatch_source_iff {a : Anchor} {x : List Char} {limit : Nat} {r : Regexp}
    (h : compile? (.ofList (a.source x)) {} limit = some r) (text : String) :
    r.isMatch text = true ↔ a.Occurs x text.toList := by
  obtain ⟨hsource, hflags⟩ := Grammar.compile?_eq_some h
  have hprogram : some r.program = some (.sequence (a.parts x)) := by
    rw [← r.denotes, hsource, hflags, String.toList_ofList]
    exact a.read?_source Flags.verbatim_modes x
  rw [isMatch_iff, Option.some.inj hprogram]
  exact a.spans_iff_occurs x text.toList

end TreePattern
