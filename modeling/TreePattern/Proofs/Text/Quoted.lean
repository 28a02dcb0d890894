import TreePattern.Text.Quoted

/-! Texts between quotes are read as the texts that they are written for. -/

namespace TreePattern.Quoted

/-- The four ways in which a character is written between double quotes. -/
theorem encodeChar_cases (c : Char) :
    (c = '"' ∨ c = '\\') ∧ encodeChar c = ['\\', c] ∨
      (∃ letter, (letter, c) ∈ namedEscapes ∧ encodeChar c = ['\\', letter]) ∨
      isControl c = true ∧
        encodeChar c = ['\\', 'x', Nat.digitChar (c.toNat / 16), Nat.digitChar (c.toNat % 16)] ∨
      c ≠ '"' ∧ c ≠ '\\' ∧ encodeChar c = [c] := by
  unfold encodeChar
  split
  · rename_i h
    exact .inl ⟨h, rfl⟩
  · rename_i h
    obtain ⟨hquote, hslash⟩ := not_or.mp h
    split
    · rename_i letter d hfind
      have hd : d = c := by simpa using List.find?_some hfind
      exact .inr (.inl ⟨letter, hd ▸ List.mem_of_find?_eq_some hfind, rfl⟩)
    · split
      · rename_i hcontrol
        exact .inr (.inr (.inl ⟨hcontrol, rfl⟩))
      · exact .inr (.inr (.inr ⟨hquote, hslash, rfl⟩))

theorem unescape_self {c : Char} (hc : c = '"' ∨ c = '\\') (cs : List Char) :
    unescape (c :: cs) = ([c], cs) := by
  rcases hc with rfl | rfl <;> rfl

theorem unescape_letter {letter c : Char} (h : (letter, c) ∈ namedEscapes) (cs : List Char) :
    unescape (letter :: cs) = ([c], cs) := by
  simp only [namedEscapes, List.mem_cons, Prod.mk.injEq, List.not_mem_nil, or_false] at h
  rcases h with ⟨rfl, rfl⟩ | ⟨rfl, rfl⟩ | ⟨rfl, rfl⟩ | ⟨rfl, rfl⟩ | ⟨rfl, rfl⟩ | ⟨rfl, rfl⟩ |
    ⟨rfl, rfl⟩ | ⟨rfl, rfl⟩ <;> rfl

theorem value?_digitChar {n : Nat} (h : n < 16) : Digit.value? 16 (Nat.digitChar n) = some n := by
  have hall : ∀ m : Fin 16, Digit.value? 16 (Nat.digitChar m) = some m.val := by decide
  exact hall ⟨n, h⟩

theorem toNat_lt_of_isControl {c : Char} (h : isControl c = true) : c.toNat < 128 := by
  simp only [isControl, Bool.or_eq_true, decide_eq_true_eq, beq_iff_eq] at h
  omega

theorem unescape_hexadecimal {c : Char} (h : isControl c = true) (cs : List Char) :
    unescape ('x' :: Nat.digitChar (c.toNat / 16) :: Nat.digitChar (c.toNat % 16) :: cs) =
      ([c], cs) := by
  have hc := toNat_lt_of_isControl h
  have hhigh : Digit.value? 16 (Nat.digitChar (c.toNat / 16)) = some (c.toNat / 16) :=
    value?_digitChar (by omega)
  have hlow : Digit.value? 16 (Nat.digitChar (c.toNat % 16)) = some (c.toNat % 16) :=
    value?_digitChar (by omega)
  have hdigits : digits 16 2 (Nat.digitChar (c.toNat / 16) :: Nat.digitChar (c.toNat % 16) :: cs) =
      [Nat.digitChar (c.toNat / 16), Nat.digitChar (c.toNat % 16)] := by
    simp [digits, Digit.isDigit, hhigh, hlow]
  have hnumber : Digit.number 16 [Nat.digitChar (c.toNat / 16), Nat.digitChar (c.toNat % 16)] =
      c.toNat := by
    simp only [Digit.number, List.foldl_cons, List.foldl_nil, hhigh, hlow, Option.getD_some]
    omega
  have hchar : byteChar c.toNat = c := by
    rw [byteChar, Nat.mod_eq_of_lt (by omega), Char.ofNat_toNat]
  simp only [unescape, numbered, hdigits, hnumber, hchar]
  rfl

theorem decode_encodeChar (c : Char) (cs : List Char) :
    decode (encodeChar c ++ cs) = c :: decode cs := by
  rcases encodeChar_cases c with ⟨hc, heq⟩ | ⟨letter, hletter, heq⟩ | ⟨hcontrol, heq⟩ |
    ⟨_, hslash, heq⟩
  · rw [heq, List.cons_append, decode, if_pos rfl, List.singleton_append, unescape_self hc]
    rfl
  · rw [heq, List.cons_append, decode, if_pos rfl, List.singleton_append, unescape_letter hletter]
    rfl
  · rw [heq, List.cons_append, decode, if_pos rfl]
    simp only [List.cons_append, List.nil_append, unescape_hexadecimal hcontrol]
  · rw [heq, List.singleton_append, decode, if_neg hslash]

/-- Writing a text between double quotes and reading it again changes nothing. -/
theorem value_encode (cs : List Char) : value (encode cs) = cs := by
  change decode (cs.flatMap encodeChar ++ ['"']).dropLast = cs
  rw [List.dropLast_concat]
  induction cs with
  | nil => rw [List.flatMap_nil, decode]
  | cons c cs ih => rw [List.flatMap_cons, decode_encodeChar, ih]

/-! ## Single quotes -/

/-- How a character is written between single quotes. -/
def encodeSingleChar (c : Char) : List Char := if c = '\\' ∨ c = '\'' then ['\\', c] else [c]

/-- The text between single quotes. -/
def encodeSingle (cs : List Char) : List Char := '\'' :: (cs.flatMap encodeSingleChar ++ ['\''])

theorem decodeSingle_cons {c : Char} (h : c ≠ '\\') (cs : List Char) :
    decodeSingle (c :: cs) = c :: decodeSingle cs := by
  rw [decodeSingle]
  · exact fun _ hc => absurd hc h
  · exact fun _ hc => absurd hc h

theorem decodeSingle_encodeSingleChar (c : Char) (cs : List Char) :
    decodeSingle (encodeSingleChar c ++ cs) = c :: decodeSingle cs := by
  unfold encodeSingleChar
  split
  · rename_i h
    rcases h with rfl | rfl <;> rfl
  · rename_i h
    exact decodeSingle_cons (not_or.mp h).1 cs

/-- Writing a text between single quotes and reading it again changes nothing. -/
theorem value_encodeSingle (cs : List Char) : value (encodeSingle cs) = cs := by
  change decodeSingle (cs.flatMap encodeSingleChar ++ ['\'']).dropLast = cs
  rw [List.dropLast_concat]
  induction cs with
  | nil => rfl
  | cons c cs ih => rw [List.flatMap_cons, decodeSingle_encodeSingleChar, ih]

end TreePattern.Quoted
