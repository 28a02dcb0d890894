import Mathlib.Algebra.Group.Nat.Even
import TreePattern.Proofs.Token.Longest
import TreePattern.Proofs.Token.Standing

/-! Strings and regular expressions as tokens. A text between quotes and a source between slashes
are scanned as one token, whatever the text is, and are read back from it as they were. Main
statements: `Quoted.next_quoted` and `Regexp.literal_exact`. -/

namespace TreePattern

namespace Quoted

/-- A text in either kind of quotes is one string token, whatever it holds and whatever follows it,
and the token stands for the text. -/
theorem next_quoted (text rest : List Char) (offset : Nat) :
    (Cursor.next ⟨offset, encode text ++ rest⟩ = .ok (some (⟨.string, encode text, offset⟩,
        ⟨offset + Cursor.utf8Length (encode text), rest⟩)) ∧
      value (encode text) = text) ∧
    Cursor.next ⟨offset, encodeSingle text ++ rest⟩ =
        .ok (some (⟨.string, encodeSingle text, offset⟩,
          ⟨offset + Cursor.utf8Length (encodeSingle text), rest⟩)) ∧
      value (encodeSingle text) = text := by
  refine ⟨⟨?_, value_encode text⟩, ?_, value_encodeSingle text⟩
  · apply Cursor.next_of_lexeme?
    exact Token.lexeme?_of_string? (Token.string?_append text rest)
  · apply Cursor.next_of_lexeme?
    exact Token.lexeme?_of_string? (Token.string?_append_single text rest)

end Quoted

namespace Regexp

/-! ## Runs of backslashes -/

/-- How many backslashes a text ends in. -/
def backslashes (cs : List Char) : Nat := (cs.reverse.takeWhile (· == '\\')).length

/-- An even number of backslashes stands before every slash and at the end. -/
structure EvenRuns (source : List Char) : Prop where
  slash : ∀ before after, source = before ++ '/' :: after → Even (backslashes before)
  last : Even (backslashes source)

theorem backslashes_le_length (cs : List Char) : backslashes cs ≤ cs.length := by
  have hle := (List.takeWhile_prefix (· == '\\') (l := cs.reverse)).length_le
  rwa [List.length_reverse] at hle

/-- A character counts only if it is a backslash and backslashes alone follow it. -/
theorem backslashes_cons (c : Char) (cs : List Char) : backslashes (c :: cs) =
    if c = '\\' ∧ backslashes cs = cs.length then cs.length + 1 else backslashes cs := by
  rw [backslashes, List.reverse_cons, List.takeWhile_append]
  by_cases hall : backslashes cs = cs.length
  · have hall' : (cs.reverse.takeWhile (· == '\\')).length = cs.reverse.length := by
      rw [List.length_reverse]
      exact hall
    by_cases hc : c = '\\'
    · simp [hall, hall', hc]
    · simp [hall, hall', hc]
  · have hall' : (cs.reverse.takeWhile (· == '\\')).length ≠ cs.reverse.length := by
      rw [List.length_reverse]
      exact hall
    rw [if_neg hall', if_neg fun h => hall h.2]
    rfl

theorem backslashes_cons_of_ne {c : Char} (hc : c ≠ '\\') (cs : List Char) :
    backslashes (c :: cs) = backslashes cs := by
  rw [backslashes_cons, if_neg fun h => hc h.1]

/-- A backslash and the character after it change no parity. -/
theorem even_backslashes_pair (c : Char) (cs : List Char) :
    Even (backslashes ('\\' :: c :: cs)) ↔ Even (backslashes cs) := by
  have hle := backslashes_le_length cs
  by_cases hc : c = '\\'
  · by_cases hall : backslashes cs = cs.length
    · have hpair : backslashes ('\\' :: c :: cs) = backslashes cs + 2 := by
        simp [backslashes_cons, hc, hall]
      rw [hpair, Nat.even_iff, Nat.even_iff]
      omega
    · have hpair : backslashes ('\\' :: c :: cs) = backslashes cs := by
        have hne : backslashes cs ≠ cs.length + 1 := by omega
        simp [backslashes_cons, hc, hall, hne]
      rw [hpair]
  · have hne : backslashes cs ≠ cs.length + 1 := by omega
    have hpair : backslashes ('\\' :: c :: cs) = backslashes cs := by
      simp [backslashes_cons, hc, hne]
    rw [hpair]

theorem evenRuns_pair_iff {c : Char} {cs : List Char} :
    EvenRuns ('\\' :: c :: cs) ↔ c ≠ '/' ∧ EvenRuns cs := by
  constructor
  · intro h
    refine ⟨?_, ?_, (even_backslashes_pair c cs).mp h.last⟩
    · rintro rfl
      exact absurd (h.slash ['\\'] cs rfl) (by decide)
    · rintro before after rfl
      exact (even_backslashes_pair c before).mp (h.slash ('\\' :: c :: before) after rfl)
  · rintro ⟨hc, h⟩
    refine ⟨?_, (even_backslashes_pair c cs).mpr h.last⟩
    intro before after heq
    match before with
    | [] => simp at heq
    | [_] =>
        simp only [List.cons_append, List.nil_append, List.cons.injEq] at heq
        exact absurd heq.2.1 hc
    | b :: d :: before =>
        simp only [List.cons_append, List.cons.injEq] at heq
        obtain ⟨rfl, rfl, hcs⟩ := heq
        exact (even_backslashes_pair c before).mpr (h.slash before after hcs)

theorem evenRuns_cons_iff {c : Char} {cs : List Char} (hc : c ≠ '\\') :
    EvenRuns (c :: cs) ↔ EvenRuns cs := by
  constructor
  · intro h
    refine ⟨?_, ?_⟩
    · rintro before after rfl
      rw [← backslashes_cons_of_ne hc]
      exact h.slash (c :: before) after rfl
    · rw [← backslashes_cons_of_ne hc]
      exact h.last
  · intro h
    refine ⟨?_, ?_⟩
    · intro before after heq
      cases before with
      | nil => exact Even.zero
      | cons b before =>
          simp only [List.cons_append, List.cons.injEq] at heq
          obtain ⟨rfl, hcs⟩ := heq
          rw [backslashes_cons_of_ne hc]
          exact h.slash before after hcs
    · rw [backslashes_cons_of_ne hc]
      exact h.last

theorem IsWritable.evenRuns {source : List Char} (h : IsWritable source) : EvenRuns source := by
  induction h with
  | nil => exact ⟨by simp, by decide⟩
  | pair hslash _ ih => exact evenRuns_pair_iff.mpr ⟨hslash, ih⟩
  | cons hc _ ih => exact (evenRuns_cons_iff hc).mpr ih

/-- Where all runs are even, backslashes can be paired with what follows them. -/
theorem EvenRuns.isWritable {source : List Char} (h : EvenRuns source) : IsWritable source := by
  -- a pair is two characters long, so that the induction is on the length
  induction hlength : source.length using Nat.strong_induction_on generalizing source with
  | h n ih =>
      cases source with
      | nil => exact .nil
      | cons c cs =>
          rw [List.length_cons] at hlength
          by_cases hc : c = '\\'
          · subst hc
            cases cs with
            | nil => exact absurd h.last (by decide)
            | cons d ds =>
                rw [List.length_cons] at hlength
                obtain ⟨hslash, hds⟩ := evenRuns_pair_iff.mp h
                exact .pair hslash (ih ds.length (by omega) hds rfl)
          · exact .cons hc (ih cs.length (by omega) ((evenRuns_cons_iff hc).mp h) rfl)

/-! ## Flags -/

theorem ofChar?_getD (c : Char) :
    (Flags.ofChar? c).getD {} = ⟨c == 'i', c == 'm', c == 'x'⟩ := by
  unfold Flags.ofChar?
  split
  · rfl
  · rfl
  · rfl
  · rename_i hi hm hx
    simp [beq_false_of_ne hi, beq_false_of_ne hm, beq_false_of_ne hx]

theorem foldl_ofChar? (cs : List Char) (f : Flags) :
    cs.foldl (fun flags c => flags ∪ (Flags.ofChar? c).getD {}) f =
      ⟨f.ignoreCase || cs.contains 'i', f.dotAll || cs.contains 'm',
        f.extended || cs.contains 'x'⟩ := by
  induction cs generalizing f with
  | nil => simp
  | cons c cs ih =>
      rw [List.foldl_cons, ih, ofChar?_getD]
      change (⟨(f.ignoreCase || c == 'i') || cs.contains 'i', (f.dotAll || c == 'm') ||
        cs.contains 'm', (f.extended || c == 'x') || cs.contains 'x'⟩ : Flags) = _
      simp only [List.contains_cons, Bool.or_assoc, BEq.comm (b := c)]

/-- Flags are written with the letters that they were read from. -/
theorem mem_suffix_ofChars {cs : List Char} (h : ∀ c ∈ cs, Token.isFlag c = true) (c : Char) :
    c ∈ (Flags.ofChars cs).suffix ↔ c ∈ cs := by
  rw [Flags.ofChars, foldl_ofChar?, Flags.suffix]
  constructor
  · intro hc
    simp only [List.mem_append] at hc
    rcases hc with (hc | hc) | hc
    all_goals
      split at hc
      · rename_i hmem
        obtain rfl := List.mem_singleton.mp hc
        simpa using hmem
      · cases hc
  · intro hc
    have hflag := h c hc
    simp only [Token.isFlag, Bool.or_eq_true, beq_iff_eq] at hflag
    rcases hflag with (rfl | rfl) | rfl <;> simp [hc]

/-! ## Regular expressions as tokens -/

/-- Texts between slashes that differ at most in the order and number of the flags behind them. -/
def SameButFlags (l m : List Char) : Prop :=
  ∃ body flags flags', l = '/' :: (body ++ '/' :: flags) ∧ m = '/' :: (body ++ '/' :: flags') ∧
    (∀ c ∈ flags, c ∈ ['i', 'm', 'x']) ∧ ∀ c, c ∈ flags' ↔ c ∈ flags

theorem isFlag_iff {c : Char} : Token.isFlag c = true ↔ c ∈ ['i', 'm', 'x'] := by
  simp [Token.isFlag, or_assoc]

/-- What is read from a regular expression between slashes is written as it was, but for the flags.
-/
theorem literal_split {l : List Char} (h : Token.IsRegexp l) :
    EvenRuns (split l).1 ∧ SameButFlags l (literal (split l).1 (split l).2) := by
  obtain ⟨body, flags, rfl, hbody, hflags⟩ := h
  have hslash : '/' ∉ flags := by
    intro hmem
    exact absurd (hflags '/' hmem) (by decide)
  rw [split_eq body hslash]
  refine ⟨(isWritable_unescapeSlashes hbody).evenRuns, body, flags, (Flags.ofChars flags).suffix,
    rfl, ?_, ?_, mem_suffix_ofChars hflags⟩
  · rw [literal_eq, escapeSlashes_unescapeSlashes hbody]
  · intro c hc
    exact isFlag_iff.mp (hflags c hc)

/-- A source whose runs of backslashes are even is one token between slashes, in front of everything
but further flags, and is read back from it with its flags. Of every token between slashes such a
source is read, and written down with its flags it is that token, but for the order and number of
the flags. -/
theorem literal_exact :
    (∀ r : Regexp, r.chars = literal r.source.toList r.flags) ∧
      (∀ (source rest : List Char) (flags : Flags) (offset : Nat), EvenRuns source →
        (∀ c ∈ rest.head?, c ∉ ['i', 'm', 'x']) →
          Cursor.next ⟨offset, literal source flags ++ rest⟩ =
            .ok (some (⟨.regexp, literal source flags, offset⟩,
              ⟨offset + Cursor.utf8Length (literal source flags), rest⟩)) ∧
          split (literal source flags) = (source, flags)) ∧
      ∀ (c c' : Cursor) (request : Cursor.Request) (t : TreePattern.Token),
        c.answer request = .ok (some (t, c')) → t.kind = .regexp →
          EvenRuns (split t.lexeme).1 ∧
            SameButFlags t.lexeme (literal (split t.lexeme).1 (split t.lexeme).2) := by
  refine ⟨chars_eq, ?_, ?_⟩
  · intro source rest flags offset hruns hrest
    have hflag : ∀ c ∈ rest.head?, Token.isFlag c = false := by
      intro c hc
      rw [Bool.eq_false_iff]
      exact fun hflag => hrest c hc (isFlag_iff.mp hflag)
    refine ⟨?_, split_literal hruns.isWritable flags⟩
    apply Cursor.next_of_lexeme?
    exact Token.lexeme?_of_regexp? (Token.regexp?_append_literal hruns.isWritable flags hflag)
  · intro c c' request t h hk
    obtain ⟨L, hword⟩ := Cursor.exists_word_of_answer h (by simp [hk])
    rw [hk] at hword
    exact literal_split hword.isRegexp

/-- A slash behind two backslashes and in front of a bracket, and a token with repeated flags. -/
theorem literal_exact_backslashes :
    (EvenRuns ['a', '\\', '\\', '/'] ∧ (∀ c ∈ [']'].head?, c ∉ ['i', 'm', 'x']) ∧
      Cursor.next ⟨3, literal ['a', '\\', '\\', '/'] { ignoreCase := true } ++ [']']⟩ =
        .ok (some (⟨.regexp, literal ['a', '\\', '\\', '/'] { ignoreCase := true }, 3⟩,
          ⟨11, [']']⟩)) ∧
      split (literal ['a', '\\', '\\', '/'] { ignoreCase := true }) =
        (['a', '\\', '\\', '/'], { ignoreCase := true })) ∧
    Cursor.answer ⟨0, [' ', '/', '\\', '/', '/', 'x', 'i', 'x', '>']⟩ .token =
      .ok (some (⟨.regexp, ['/', '\\', '/', '/', 'x', 'i', 'x'], 1⟩, ⟨8, ['>']⟩)) ∧
    EvenRuns (split ['/', '\\', '/', '/', 'x', 'i', 'x']).1 ∧
    SameButFlags ['/', '\\', '/', '/', 'x', 'i', 'x']
      (literal (split ['/', '\\', '/', '/', 'x', 'i', 'x']).1
        (split ['/', '\\', '/', '/', 'x', 'i', 'x']).2) := by
  obtain ⟨_, hwrite, hread⟩ := literal_exact
  have hruns : EvenRuns ['a', '\\', '\\', '/'] :=
    (IsWritable.cons (by decide) (.pair (by decide) (.cons (by decide) .nil))).evenRuns
  have hrest : ∀ c ∈ [']'].head?, c ∉ ['i', 'm', 'x'] := by simp
  have hanswer : Cursor.answer ⟨0, [' ', '/', '\\', '/', '/', 'x', 'i', 'x', '>']⟩ .token =
      .ok (some (⟨.regexp, ['/', '\\', '/', '/', 'x', 'i', 'x'], 1⟩, ⟨8, ['>']⟩)) := by
    decide +kernel
  exact ⟨⟨hruns, hrest, hwrite _ _ _ 3 hruns hrest⟩, hanswer, hread _ _ _ _ hanswer rfl⟩

end Regexp

end TreePattern
