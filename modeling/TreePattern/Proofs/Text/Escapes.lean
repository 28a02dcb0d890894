import TreePattern.Proofs.Token.Integer

/-! Escapes between double quotes. A text between double quotes is a sequence of units, each of them
a character that stands for itself or an escape. What an escape stands for is said by the numbers of
characters. Main statement: `Quoted.value_units` — a text made of units is read as what its units
stand for, one after the other. -/

namespace TreePattern

/-! ## Digits -/

namespace Digit

open Numeral (hexadecimalDigits)

theorem toNat_lt_of_toLower {c : Char} (h : c.toLower.toNat < 128) : c.toNat < 128 := by
  unfold Char.toLower at h
  split at h
  · rename_i hc
    have hle : c.toNat ≤ 90 := UInt32.le_iff_toNat_le.mp hc.2
    omega
  · exact h

/-- The value of a digit is its place among the hexadecimal digits, in either case. -/
theorem value?_eq_some_iff {radix d : Nat} {c : Char} :
    value? radix c = some d ↔ d < radix ∧ hexadecimalDigits[d]? = some c.toLower := by
  have hall : ∀ n : Fin 128, ∀ m : Fin 16, value? 16 (Char.ofNat n) = some m.val ↔
      hexadecimalDigits[m.val]? = some (Char.ofNat n).toLower := by
    decide +kernel
  have hhexadecimal (hc : c.toNat < 128) (hd : d < 16) :
      value? 16 c = some d ↔ hexadecimalDigits[d]? = some c.toLower := by
    have hplace := hall ⟨c.toNat, hc⟩ ⟨d, hd⟩
    rwa [Char.ofNat_toNat] at hplace
  -- the radix matters only as a bound
  have hradix (r : Nat) : value? r c = some d ↔ d < r ∧ value? (d + 1) c = some d := by
    simp [value?, Option.filter_eq_some_iff, and_comm]
  constructor
  · intro h
    obtain ⟨hc, h16⟩ := Numeral.bounds_of_value? h
    exact ⟨((hradix radix).mp h).1, (hhexadecimal hc ((hradix 16).mp h16).1).mp h16⟩
  · rintro ⟨hd, hget⟩
    obtain ⟨hlt, _⟩ := List.getElem?_eq_some_iff.mp hget
    have hascii : ∀ e ∈ hexadecimalDigits, e.toNat < 128 := by simp [hexadecimalDigits]
    have hc := toNat_lt_of_toLower (hascii _ (List.mem_of_getElem? hget))
    have h16 := (hhexadecimal hc hlt).mpr hget
    exact (hradix radix).mpr ⟨hd, ((hradix 16).mp h16).2⟩

theorem isDigit_iff_mem_take {radix : Nat} {c : Char} :
    isDigit radix c = true ↔ c.toLower ∈ hexadecimalDigits.take radix := by
  rw [isDigit, Option.isSome_iff_exists, List.mem_iff_getElem?]
  apply exists_congr
  intro d
  rw [value?_eq_some_iff, List.getElem?_take]
  simp

end Digit

namespace Quoted

open Numeral (hexadecimalDigits positional)

/-! ## Units -/

/-- The letters that stand for a character behind a backslash. -/
def letters : List (Char × Char) := [
  ('n', '\n'), ('t', '\t'), ('r', '\r'), ('f', '\x0c'), ('v', '\x0b'), ('a', '\x07'), ('e', '\x1b'),
  ('b', '\x08'), ('s', ' ')]

/-- The characters with a meaning of their own behind a backslash. -/
def escapeStarts : List Char := [
  'n', 't', 'r', 'f', 'v', 'a', 'e', 'b', 's', '\n', '0', '1', '2', '3', '4', '5', '6', '7', 'x',
  'u', 'c', 'C', 'M']

/-- Between one and `most` digits, with letters of either case. -/
structure IsNumber (radix most : Nat) (ds : List Char) : Prop where
  ne_nil : ds ≠ []
  digits : ∀ d ∈ ds, d.toLower ∈ hexadecimalDigits.take radix
  length_le : ds.length ≤ most

/-- The characters that a number below its greatest length would go on with. -/
def GoesOn (radix most : Nat) (ds : List Char) (c : Char) : Prop :=
  ds.length < most ∧ c.toLower ∈ hexadecimalDigits.take radix

/-- The scalar value with a number, or the replacement character if there is none. -/
inductive IsScalarOf (n : Nat) : Char → Prop where
  | scalar {c : Char} (hc : c.toNat = n) : IsScalarOf n c
  | replacement (hn : ∀ c : Char, c.toNat ≠ n) : IsScalarOf n '\uFFFD'

/-- The control character of a character. Beyond ASCII it is the character itself. -/
inductive IsControlOf : Char → Char → Prop where
  | delete : IsControlOf '?' '\x7f'
  | ascii {c d : Char} (hc : c ≠ '?') (hascii : c.toNat < 128) (hd : d.toNat = c.toNat % 32) :
      IsControlOf c d
  | other {c : Char} (hc : 128 ≤ c.toNat) : IsControlOf c c

/-- The lowest byte of a character with its top bit set. -/
def IsMetaOf (c d : Char) : Prop := d.toNat = c.toNat % 256 ||| 128

/-- A unit of a text between double quotes, the text that it stands for, and the characters that
would belong to it if they followed. -/
inductive IsUnit : (unit text : List Char) → (next : Char → Prop) → Prop where
  | plain {c} (hc : c ≠ '\\') : IsUnit [c] [c] fun _ => False
  | letter {l c} (h : (l, c) ∈ letters) : IsUnit ['\\', l] [c] fun _ => False
  | newline : IsUnit ['\\', '\n'] [] fun _ => False
  | octal {ds c} (hds : IsNumber 8 3 ds) (hc : c.toNat = positional 8 ds % 256) :
      IsUnit ('\\' :: ds) [c] (GoesOn 8 3 ds)
  | hexadecimal {ds c} (hds : IsNumber 16 2 ds) (hc : c.toNat = positional 16 ds % 256) :
      IsUnit ('\\' :: 'x' :: ds) [c] (GoesOn 16 2 ds)
  | codePoint {ds c} (hds : IsNumber 16 4 ds) (hc : IsScalarOf (positional 16 ds) c) :
      IsUnit ('\\' :: 'u' :: ds) [c] (GoesOn 16 4 ds)
  | braced {ds c} (hds : IsNumber 16 6 ds) (hc : IsScalarOf (positional 16 ds) c) :
      IsUnit ('\\' :: 'u' :: '\x7b' :: (ds ++ ['\x7d'])) [c] fun _ => False
  | control {lead x c} (hlead : lead = ['c'] ∨ lead = ['C', '-']) (hc : IsControlOf x c) :
      IsUnit ('\\' :: (lead ++ [x])) [c] fun _ => False
  | high {x c} (hx : x ≠ '\\') (hc : IsMetaOf x c) : IsUnit ['\\', 'M', '-', x] [c] fun _ => False
  | highControl {x d c} (hd : IsControlOf x d) (hc : IsMetaOf d c) :
      IsUnit ['\\', 'M', '-', '\\', 'c', x] [c] fun _ => False
  | other {c} (hc : c ∉ escapeStarts) : IsUnit ['\\', c] [c] fun _ => False

/-- Units, each with the text that it stands for, of which none is followed by a character that
would belong to it. -/
inductive AreUnits : List (List Char × List Char) → Prop where
  | nil : AreUnits []
  | cons {unit text next us} (h : IsUnit unit text next)
      (hnext : ∀ c ∈ (us.flatMap (·.1)).head?, ¬ next c) (hus : AreUnits us) :
      AreUnits ((unit, text) :: us)

/-! ## Characters by number -/

theorem toNat_ofNat_of_isValidChar {n : Nat} (h : n.isValidChar) : (Char.ofNat n).toNat = n := by
  rw [Char.ofNat, dif_pos h]
  rfl

theorem eq_byteChar_iff {n : Nat} {c : Char} : c = byteChar n ↔ c.toNat = n % 256 := by
  have hvalid : (n % 256).isValidChar := .inl (by omega)
  rw [← Char.toNat_inj, byteChar, toNat_ofNat_of_isValidChar hvalid]

theorem eq_scalarChar_iff {n : Nat} {c : Char} : c = scalarChar n ↔ IsScalarOf n c := by
  unfold scalarChar
  split
  · rename_i hn
    have htoNat := toNat_ofNat_of_isValidChar hn
    rw [← Char.toNat_inj, htoNat]
    constructor
    · exact .scalar
    · rintro (hc | hn)
      · exact hc
      · exact absurd htoNat (hn _)
  · rename_i hn
    have hnone (d : Char) : d.toNat ≠ n := fun heq => hn (heq ▸ d.valid)
    constructor
    · rintro rfl
      exact .replacement hnone
    · rintro (hc | _)
      · exact absurd hc (hnone c)
      · rfl

theorem eq_controlOf_iff {c d : Char} : d = controlOf c ↔ IsControlOf c d := by
  unfold controlOf
  by_cases hc : c = '?'
  · subst hc
    constructor
    · rintro rfl
      exact .delete
    · rintro (_ | hc | hc)
      · rfl
      · exact absurd rfl hc
      · exact absurd hc (by decide)
  by_cases hascii : c.toNat < 128
  · have hvalid : (c.toNat % 32).isValidChar := .inl (by omega)
    rw [if_neg hc, if_pos hascii, ← Char.toNat_inj, toNat_ofNat_of_isValidChar hvalid]
    constructor
    · exact .ascii hc hascii
    · rintro (_ | ⟨_, _, hd⟩ | hc')
      · exact absurd rfl hc
      · exact hd
      · omega
  · rw [if_neg hc, if_neg hascii]
    constructor
    · rintro rfl
      exact .other (by omega)
    · rintro (_ | ⟨_, hascii', _⟩ | _)
      · exact absurd rfl hc
      · omega
      · rfl

/-- Setting the top bit of a byte adds it to the lower seven bits. -/
theorem eq_byteChar_iff_isMetaOf {c d : Char} :
    d = byteChar (c.toNat % 128 + 128) ↔ IsMetaOf c d := by
  have hall : ∀ m : Fin 256, m.val ||| 128 = m.val % 128 + 128 := by decide +kernel
  have htop : c.toNat % 256 ||| 128 = c.toNat % 128 + 128 := by
    rw [hall ⟨c.toNat % 256, Nat.mod_lt _ (by decide)⟩, Nat.mod_mod_of_dvd _ (by decide)]
  rw [eq_byteChar_iff, IsMetaOf, htop, Nat.mod_eq_of_lt (by omega)]

/-! ## Numbers -/

variable {radix most : Nat} {ds cs : List Char}

theorem IsNumber.isDigit (h : IsNumber radix most ds) :
    ∀ d ∈ ds, Digit.isDigit radix d = true := fun d hd =>
  Digit.isDigit_iff_mem_take.mpr (h.digits d hd)

theorem number_eq_positional (hds : ∀ d ∈ ds, Digit.isDigit radix d = true) :
    Digit.number radix ds = positional radix ds := by
  have hmore : Token.IsMoreDigits radix ds := by
    induction ds with
    | nil => exact .nil
    | cons d ds ih =>
        exact .digit (hds d List.mem_cons_self) (ih fun e he => hds e (List.mem_cons_of_mem d he))
  have hfilter : ds.filter (· != '_') = ds := by
    refine List.filter_eq_self.mpr fun d hd => bne_iff_ne.mpr ?_
    rintro rfl
    exact absurd (hds _ hd) (by simp [Token.isDigit_underscore])
  rw [← Numeral.number_eq_positional hmore, hfilter]

/-- A number ends where it has its greatest length or where no digit follows. -/
theorem digits_append (hds : IsNumber radix most ds)
    (hcs : ∀ c ∈ cs.head?, ¬ GoesOn radix most ds c) : digits radix most (ds ++ cs) = ds := by
  rw [digits, List.take_append, List.take_of_length_le hds.length_le]
  apply Token.takeWhile_append_of_head hds.isDigit
  intro c hc
  rw [List.head?_take] at hc
  split at hc
  · cases hc
  · have hstop := hcs c hc
    rw [GoesOn, ← Digit.isDigit_iff_mem_take] at hstop
    rw [Bool.eq_false_iff]
    exact fun hdigit => hstop ⟨by omega, hdigit⟩

theorem numbered_append (letter : Char) (make : Nat → Char) (hds : IsNumber radix most ds)
    (hcs : ∀ c ∈ cs.head?, ¬ GoesOn radix most ds c) :
    numbered letter radix most make (ds ++ cs) = (make (positional radix ds), cs) := by
  have hempty : ds.isEmpty = false := by simpa using hds.ne_nil
  simp only [numbered, digits_append hds hcs, hempty, number_eq_positional hds.isDigit,
    List.drop_left, Bool.false_eq_true, if_false]

/-! ## Escapes -/

/-- Behind a backslash, a character other than these is looked up among the letters, and then among
the octal digits. -/
theorem unescape_of_not_mem {c : Char} (hc : c ∉ ['\n', 's', 'x', 'u', 'c', 'C', 'M'])
    (cs : List Char) : unescape (c :: cs) = match namedEscapes.lookup c with
      | some d => ([d], cs)
      | none =>
        if Digit.isDigit 8 c then
          let (d, rest) := numbered c 8 3 byteChar (c :: cs); ([d], rest)
        else ([c], cs) := by
  simp only [List.mem_cons, List.not_mem_nil, or_false, not_or] at hc
  rw [unescape]
  all_goals first | rfl | simp [hc]

theorem unescape_of_mem_letters {l c : Char} (h : (l, c) ∈ letters) (cs : List Char) :
    unescape (l :: cs) = ([c], cs) := by
  have hsplit : letters = namedEscapes ++ [('s', ' ')] := rfl
  rw [hsplit, List.mem_append, List.mem_singleton] at h
  rcases h with h | h
  · exact unescape_letter h cs
  · cases h
    rfl

theorem lookup_namedEscapes_eq_none {c : Char} (hc : c ∉ namedEscapes.map (·.1)) :
    namedEscapes.lookup c = none := by
  refine List.lookup_eq_none_iff.mpr fun a ha => bne_iff_ne.mpr ?_
  rintro rfl
  exact hc (List.mem_map_of_mem ha)

theorem not_mem_of_isDigit {c : Char} (h : Digit.isDigit 8 c = true) :
    c ∉ ['\n', 's', 'x', 'u', 'c', 'C', 'M'] ∧ namedEscapes.lookup c = none := by
  have hspecial : (['\n', 's', 'x', 'u', 'c', 'C', 'M'].any (Digit.isDigit 8)) = false := by decide
  have hnamed : ((namedEscapes.map (·.1)).any (Digit.isDigit 8)) = false := by decide
  exact ⟨fun hmem => List.any_eq_false.mp hspecial c hmem h,
    lookup_namedEscapes_eq_none fun hmem => List.any_eq_false.mp hnamed c hmem h⟩

theorem unescape_octal (hds : IsNumber 8 3 ds) (hcs : ∀ c ∈ cs.head?, ¬ GoesOn 8 3 ds c) :
    unescape (ds ++ cs) = ([byteChar (positional 8 ds)], cs) := by
  obtain ⟨d, tail, rfl⟩ := List.exists_cons_of_ne_nil hds.ne_nil
  have hd := hds.isDigit d List.mem_cons_self
  obtain ⟨hspecial, hnamed⟩ := not_mem_of_isDigit hd
  have hnumber := numbered_append d byteChar hds hcs
  rw [List.cons_append] at hnumber ⊢
  rw [unescape_of_not_mem hspecial, hnamed]
  simp [hd, hnumber]

theorem unescape_byte (hds : IsNumber 16 2 ds) (hcs : ∀ c ∈ cs.head?, ¬ GoesOn 16 2 ds c) :
    unescape ('x' :: (ds ++ cs)) = ([byteChar (positional 16 ds)], cs) := by
  rw [unescape, numbered_append 'x' byteChar hds hcs]

theorem unescape_codePoint (hds : IsNumber 16 4 ds) (hcs : ∀ c ∈ cs.head?, ¬ GoesOn 16 4 ds c) :
    unescape ('u' :: (ds ++ cs)) = ([scalarChar (positional 16 ds)], cs) := by
  have hbrace : ∀ rest, ds ++ cs ≠ '\x7b' :: rest := by
    obtain ⟨d, tail, rfl⟩ := List.exists_cons_of_ne_nil hds.ne_nil
    rintro rest heq
    cases heq
    exact absurd (hds.isDigit _ List.mem_cons_self) (by decide)
  rw [unescape]
  · rw [numbered_append 'u' scalarChar hds hcs]
  · exact hbrace

theorem unescape_braced (hds : IsNumber 16 6 ds) (cs : List Char) :
    unescape ('u' :: '\x7b' :: (ds ++ '\x7d' :: cs)) = ([scalarChar (positional 16 ds)], cs) := by
  have hbrace : ∀ c ∈ ('\x7d' :: cs).head?, ¬ GoesOn 16 6 ds c := by
    rintro _ ⟨⟩ ⟨_, hdigit⟩
    exact absurd hdigit (by decide)
  rw [unescape, numbered_append 'u' scalarChar hds hbrace]
  rfl

theorem unescape_other {c : Char} (hc : c ∉ escapeStarts) (cs : List Char) :
    unescape (c :: cs) = ([c], cs) := by
  have hsubset : ['\n', 's', 'x', 'u', 'c', 'C', 'M'] ⊆ escapeStarts := by decide
  have hnamed : namedEscapes.map (·.1) ⊆ escapeStarts := by decide
  have hdigit : Digit.isDigit 8 c = false := by
    have hall : ∀ n : Fin 128, Digit.isDigit 8 (Char.ofNat n) = true →
        Char.ofNat n ∈ escapeStarts := by decide +kernel
    rw [Bool.eq_false_iff]
    intro hdigit
    obtain ⟨n, hn⟩ := Option.isSome_iff_exists.mp hdigit
    have hmem := hall ⟨c.toNat, (Numeral.bounds_of_value? hn).1⟩
    simp only [Char.ofNat_toNat] at hmem
    exact hc (hmem hdigit)
  rw [unescape_of_not_mem (fun hmem => hc (hsubset hmem)),
    lookup_namedEscapes_eq_none fun hmem => hc (hnamed hmem)]
  simp [hdigit]

theorem unescape_high {c : Char} (hc : c ≠ '\\') (cs : List Char) :
    unescape ('M' :: '-' :: c :: cs) = ([byteChar (c.toNat % 128 + 128)], cs) := by
  have hbase : metaBase (c :: cs) = (c, cs) := by
    rw [metaBase]
    all_goals simp [hc]
  rw [unescape, hbase]

theorem decode_backslash {text : List Char} (h : unescape ds = (text, cs)) :
    decode ('\\' :: ds) = text ++ decode cs := by
  rw [decode, if_pos rfl, h]

/-- A unit is read as what it stands for, and no more than the unit is read. -/
theorem decode_unit {unit text : List Char} {next : Char → Prop} (h : IsUnit unit text next)
    (hcs : ∀ c ∈ cs.head?, ¬ next c) : decode (unit ++ cs) = text ++ decode cs := by
  cases h with
  | plain hc => rw [List.singleton_append, decode, if_neg hc, List.singleton_append]
  | letter h => exact decode_backslash (unescape_of_mem_letters h cs)
  | newline => exact decode_backslash rfl
  | octal hds hc =>
      obtain rfl := eq_byteChar_iff.mpr hc
      exact decode_backslash (unescape_octal hds hcs)
  | hexadecimal hds hc =>
      obtain rfl := eq_byteChar_iff.mpr hc
      exact decode_backslash (unescape_byte hds hcs)
  | codePoint hds hc =>
      obtain rfl := eq_scalarChar_iff.mpr hc
      exact decode_backslash (unescape_codePoint hds hcs)
  | braced hds hc =>
      obtain rfl := eq_scalarChar_iff.mpr hc
      rw [List.cons_append, List.cons_append, List.cons_append, List.append_assoc]
      exact decode_backslash (unescape_braced hds cs)
  | control hlead hc =>
      obtain rfl := eq_controlOf_iff.mpr hc
      rcases hlead with rfl | rfl
      · exact decode_backslash rfl
      · exact decode_backslash rfl
  | high hx hc =>
      obtain rfl := eq_byteChar_iff_isMetaOf.mpr hc
      exact decode_backslash (unescape_high hx cs)
  | highControl hd hc =>
      obtain rfl := eq_controlOf_iff.mpr hd
      obtain rfl := eq_byteChar_iff_isMetaOf.mpr hc
      exact decode_backslash rfl
  | other hc => exact decode_backslash (unescape_other hc cs)

/-- A text between double quotes that is made of units is read as what they stand for, one after
the other. -/
theorem value_units {us : List (List Char × List Char)} (h : AreUnits us) :
    value ('"' :: (us.flatMap (·.1) ++ ['"'])) = us.flatMap (·.2) := by
  change decode (us.flatMap (·.1) ++ ['"']).dropLast = us.flatMap (·.2)
  rw [List.dropLast_concat]
  induction h with
  | nil => rw [List.flatMap_nil, decode, List.flatMap_nil]
  | cons hunit hnext _ ih => rw [List.flatMap_cons, decode_unit hunit hnext, ih, List.flatMap_cons]

/-- An octal number of greatest length in front of a digit, and a control escape that takes a quote
with it. -/
theorem value_units_octal_and_quote :
    AreUnits [(['\\', '1', '0', '1'], ['A']), (['2'], ['2']),
        (['\\', 'M', '-', '\\', 'c', '"'], ['\u0082']), (['\\', 'x', '4'], ['\x04']),
        (['g'], ['g'])] ∧
      value ['"', '\\', '1', '0', '1', '2', '\\', 'M', '-', '\\', 'c', '"', '\\', 'x', '4', 'g',
        '"'] = ['A', '2', '\u0082', '\x04', 'g'] := by
  have hunits : AreUnits [(['\\', '1', '0', '1'], ['A']), (['2'], ['2']),
      (['\\', 'M', '-', '\\', 'c', '"'], ['\u0082']), (['\\', 'x', '4'], ['\x04']),
      (['g'], ['g'])] := by
    refine .cons (.octal ⟨by decide, by simp [hexadecimalDigits], by decide⟩ (by decide))
      (by simp [GoesOn]) ?_
    refine .cons (.plain (by decide)) (by simp) ?_
    refine .cons (.highControl (d := '\x02') (.ascii (by decide) (by decide) rfl) rfl) (by simp) ?_
    refine .cons
      (.hexadecimal ⟨by decide, by simp [hexadecimalDigits], by decide⟩ (by decide)) ?_ ?_
    · rintro _ ⟨⟩ ⟨_, hdigit⟩
      exact absurd hdigit (by decide)
    · exact .cons (.plain (by decide)) (by simp) .nil
  exact ⟨hunits, value_units hunits⟩

end Quoted

end TreePattern
