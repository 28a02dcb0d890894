import TreePattern.Proofs.Token.Symbol

/-! The languages of tokens, described without the scans that find their words. For each language,
its scan yields the longest word at the beginning of a text, or nothing if the text begins with no
word. -/

namespace TreePattern.Token

/-- The longest beginning of a text that belongs to a language, or nothing if none does. -/
def IsLongest (P : List Char → Prop) (cs : List Char) : Option (List Char) → Prop
  | some l => P l ∧ l <+: cs ∧ ∀ m, P m → m <+: cs → m.length ≤ l.length
  | none => ∀ m, P m → ¬ m <+: cs

namespace IsLongest

variable {P Q : List Char → Prop} {cs : List Char} {l? m? : Option (List Char)}

theorem le_length (h : IsLongest P cs l?) {m : List Char} (hm : P m) (hbegins : m <+: cs) :
    ∃ l, l? = some l ∧ m.length ≤ l.length := by
  cases l? with
  | none => exact absurd hbegins (h m hm)
  | some l => exact ⟨l, rfl, h.2.2 m hm hbegins⟩

theorem of_eq_some (h : IsLongest P cs l?) {l : List Char} (hl : l? = some l) : P l ∧ l <+: cs := by
  subst hl
  exact ⟨h.1, h.2.1⟩

/-- A text that is a word is its own longest beginning. -/
theorem eq_some_self (h : IsLongest P cs l?) (hcs : P cs) : l? = some cs := by
  obtain ⟨l, rfl, hle⟩ := h.le_length hcs (List.prefix_refl cs)
  rw [h.2.1.eq_of_length (Nat.le_antisymm h.2.1.length_le hle)]

/-- Two languages with the same words at the beginning of a text have the same longest one. -/
theorem congr (h : IsLongest P cs l?) (hPQ : ∀ m, m <+: cs → (P m ↔ Q m)) : IsLongest Q cs l? := by
  cases l? with
  | none => exact fun m hm hbegins => h m ((hPQ m hbegins).mpr hm) hbegins
  | some l =>
      obtain ⟨hl, hbegins, hmax⟩ := h
      refine ⟨(hPQ l hbegins).mp hl, hbegins, fun m hm hm' => ?_⟩
      exact hmax m ((hPQ m hm').mpr hm) hm'

/-- The words with one more character in front. -/
theorem cons (c : Char) (h : IsLongest P cs l?) :
    IsLongest (fun l => ∃ m, l = c :: m ∧ P m) (c :: cs) (l?.map (c :: ·)) := by
  cases l? with
  | none =>
      rintro _ ⟨m, rfl, hm⟩ hbegins
      exact h m hm ((List.prefix_cons_inj c).mp hbegins)
  | some l =>
      obtain ⟨hl, hbegins, hmax⟩ := h
      refine ⟨⟨l, rfl, hl⟩, (List.prefix_cons_inj c).mpr hbegins, ?_⟩
      rintro _ ⟨m, rfl, hm⟩ hm'
      exact Nat.succ_le_succ (hmax m hm ((List.prefix_cons_inj c).mp hm'))

theorem longer (hP : IsLongest P cs l?) (hQ : IsLongest Q cs m?) :
    IsLongest (fun l => P l ∨ Q l) cs (longer List.length l? m?) := by
  cases h : Token.longer List.length l? m? with
  | none =>
      intro m hm hbegins
      rcases hm with hm | hm
      · obtain ⟨l, rfl, _⟩ := hP.le_length hm hbegins
        cases m? with
        | none => cases h
        | some m =>
            simp only [Token.longer] at h
            split at h <;> cases h
      · obtain ⟨l, rfl, _⟩ := hQ.le_length hm hbegins
        cases l? with
        | none => cases h
        | some m =>
            simp only [Token.longer] at h
            split at h <;> cases h
  | some l =>
      obtain ⟨hleft, hright⟩ := le_size_longer h
      refine ⟨?_, ?_, fun m hm hbegins => ?_⟩
      · rcases longer_eq_some h with rfl | rfl
        · exact .inl hP.1
        · exact .inr hQ.1
      · rcases longer_eq_some h with rfl | rfl
        · exact hP.2.1
        · exact hQ.2.1
      · rcases hm with hm | hm
        · obtain ⟨k, hk, hle⟩ := hP.le_length hm hbegins
          exact Nat.le_trans hle (hleft k hk)
        · obtain ⟨k, hk, hle⟩ := hQ.le_length hm hbegins
          exact Nat.le_trans hle (hright k hk)

end IsLongest

/-! ## Names -/

def IsVariableName (l : List Char) : Prop :=
  ∃ c cs, l = c :: cs ∧ (c.isLower || c == '_') = true ∧ ∀ d ∈ cs, isNameChar d = true

def IsClassName (l : List Char) : Prop :=
  ∃ c cs, l = c :: cs ∧ c.isUpper = true ∧ ∀ d ∈ cs, isNameChar d = true

/-- A colon with an identifier or with an operator behind it. -/
def IsSymbol (l : List Char) : Prop :=
  ∃ name, l = ':' :: name ∧
    ((∃ c body mark, name = c :: (body ++ mark) ∧ IsIdentifier c body mark) ∨ name ∈ operatorNames)

theorem length_le_takeWhile {p : Char → Bool} {cs ds : List Char} (h : ds <+: cs)
    (hds : ∀ d ∈ ds, p d = true) : ds.length ≤ (cs.takeWhile p).length := by
  obtain ⟨rest, rfl⟩ := h
  rw [List.takeWhile_append_of_pos hds, List.length_append]
  exact Nat.le_add_right _ _

/-- A first character of some class with all the name characters behind it. -/
theorem isLongest_word (isFirst : Char → Bool) {c : Char} (hc : isFirst c = true)
    (cs : List Char) :
    IsLongest (fun l => ∃ c cs, l = c :: cs ∧ isFirst c = true ∧ ∀ d ∈ cs, isNameChar d = true)
      (c :: cs) (some (c :: cs.takeWhile isNameChar)) := by
  refine ⟨⟨c, _, rfl, hc, fun d hd => List.mem_takeWhile_imp hd⟩, ?_, ?_⟩
  · exact (List.prefix_cons_inj c).mpr (List.takeWhile_prefix _)
  · rintro _ ⟨d, ds, rfl, _, hds⟩ hbegins
    obtain ⟨_, hds'⟩ := List.cons_prefix_cons.mp hbegins
    exact Nat.succ_le_succ (length_le_takeWhile hds' hds)

theorem isLongest_variableName (cs : List Char) :
    IsLongest IsVariableName cs (variableName? cs) := by
  cases cs with
  | nil =>
      rintro _ ⟨c, cs, rfl, _⟩ hbegins
      cases List.prefix_nil.mp hbegins
  | cons c cs =>
      rw [variableName?]
      split
      · exact isLongest_word (fun c => c.isLower || c == '_') ‹_› cs
      · rintro _ ⟨d, ds, rfl, hd, _⟩ hbegins
        obtain ⟨rfl, _⟩ := List.cons_prefix_cons.mp hbegins
        contradiction

theorem isLongest_className (cs : List Char) : IsLongest IsClassName cs (className? cs) := by
  cases cs with
  | nil =>
      rintro _ ⟨c, cs, rfl, _⟩ hbegins
      cases List.prefix_nil.mp hbegins
  | cons c cs =>
      rw [className?]
      split
      · exact isLongest_word Char.isUpper ‹_› cs
      · rintro _ ⟨d, ds, rfl, hd, _⟩ hbegins
        obtain ⟨rfl, _⟩ := List.cons_prefix_cons.mp hbegins
        contradiction

theorem isPrefix_identifier {cs l : List Char} (h : identifier? cs = some l) : l <+: cs :=
  (begins_identifier h).isPrefix

theorem isLongest_identifier (cs : List Char) :
    IsLongest (fun l => ∃ c body mark, l = c :: (body ++ mark) ∧ IsIdentifier c body mark) cs
      (identifier? cs) := by
  cases h : identifier? cs with
  | none =>
      rintro _ ⟨c, body, mark, rfl, hname⟩ ⟨rest, rfl⟩
      simp [identifier?, hname.start] at h
  | some l =>
      refine ⟨identifier?_eq_some h, isPrefix_identifier h, ?_⟩
      rintro _ ⟨c, body, mark, rfl, hname⟩ ⟨rest, rfl⟩
      by_cases hmark : mark = []
      · subst hmark
        rw [List.cons_append, identifier?, if_pos hname.start, Option.some.injEq] at h
        have hle : body.length ≤ ((body ++ [] ++ rest).takeWhile isNameChar).length :=
          length_le_takeWhile (by simp) hname.body
        rw [← h]
        simp only [List.length_cons, List.length_append, List.append_nil] at hle ⊢
        omega
      · -- behind a mark the scan cannot go on
        rw [identifier?_append hname fun hnil => absurd hnil hmark, Option.some.injEq] at h
        rw [h]

theorem isLongest_operatorName {names : List (List Char)} (cs : List Char) :
    IsLongest (· ∈ names) cs (operatorName? names cs) := by
  have hmem : ∀ m ∈ names, m <+: cs → m ∈ names.filter (·.isPrefixOf cs) := by
    intro m hm hbegins
    simpa using ⟨hm, hbegins⟩
  cases h : operatorName? names cs with
  | none =>
      intro m hm hbegins
      have hfilter := hmem m hm hbegins
      rw [longest_eq_none.mp h] at hfilter
      cases hfilter
  | some l =>
      obtain ⟨hl, hbegins⟩ := operatorName?_eq_some h
      exact ⟨hl, hbegins, fun m hm hm' => le_size_longest h m (hmem m hm hm')⟩

theorem isLongest_symbol (cs : List Char) : IsLongest IsSymbol cs (symbol? cs) := by
  unfold symbol?
  split
  · rename_i cs
    exact ((isLongest_identifier cs).longer (isLongest_operatorName cs)).cons ':'
  · rename_i hcolon
    rintro _ ⟨name, rfl, _⟩ ⟨rest, rfl⟩
    exact (hcolon _ rfl).elim

/-! ## Integers -/

/-- Digits, with at most one underscore before each. -/
inductive IsMoreDigits (radix : Nat) : List Char → Prop where
  | nil : IsMoreDigits radix []
  | digit {c cs} (hc : Digit.isDigit radix c = true) (h : IsMoreDigits radix cs) :
      IsMoreDigits radix (c :: cs)
  | underscore {c cs} (hc : Digit.isDigit radix c = true) (h : IsMoreDigits radix cs) :
      IsMoreDigits radix ('_' :: c :: cs)

/-- Digits that begin with one, with single underscores between them. -/
def IsDigits (radix : Nat) (l : List Char) : Prop :=
  ∃ c cs, l = c :: cs ∧ Digit.isDigit radix c = true ∧ IsMoreDigits radix cs

/-- A letter that tells a radix, with digits of that radix. -/
def IsRadixDigits (l : List Char) : Prop :=
  ∃ c radix cs, l = c :: cs ∧ radix? c = some radix ∧ IsDigits radix cs

/-- The digits of an integer: decimal ones, and behind a zero octal ones or those of some radix. -/
inductive IsUnsigned : List Char → Prop where
  | decimal {c cs} (hc : c ≠ '0') (h : IsDigits 10 (c :: cs)) : IsUnsigned (c :: cs)
  | octal {cs} (h : IsMoreDigits 8 cs) : IsUnsigned ('0' :: cs)
  | radix {cs} (h : IsRadixDigits cs) : IsUnsigned ('0' :: cs)

def IsInteger (l : List Char) : Prop :=
  IsUnsigned l ∨ ∃ cs, (l = '+' :: cs ∨ l = '-' :: cs) ∧ IsUnsigned cs

namespace IsMoreDigits

variable {radix : Nat} {c : Char} {cs : List Char}

theorem cons_iff (hc : Digit.isDigit radix c = true) :
    IsMoreDigits radix (c :: cs) ↔ IsMoreDigits radix cs := by
  refine ⟨fun h => ?_, .digit hc⟩
  cases h with
  | digit _ h => exact h
  | underscore => simp [isDigit_underscore] at hc

theorem underscore_iff : IsMoreDigits radix ('_' :: cs) ↔
    ∃ d ds, cs = d :: ds ∧ Digit.isDigit radix d = true ∧ IsMoreDigits radix (d :: ds) := by
  constructor
  · intro h
    cases h with
    | digit hc => simp [isDigit_underscore] at hc
    | underscore hd hds => exact ⟨_, _, rfl, hd, .digit hd hds⟩
  · rintro ⟨d, ds, rfl, hd, hds⟩
    exact .underscore hd ((cons_iff hd).mp hds)

theorem head (h : IsMoreDigits radix (c :: cs)) : Digit.isDigit radix c = true ∨ c = '_' := by
  cases h with
  | digit hc => exact .inl hc
  | underscore => exact .inr rfl

end IsMoreDigits

theorem isLongest_moreDigits (radix : Nat) (cs : List Char) :
    IsLongest (IsMoreDigits radix) cs (some (moreDigits radix cs)) := by
  -- a word that begins where no digits do is empty
  have hempty {cs : List Char} (h : moreDigits radix cs = [])
      (hnil : ∀ c m, IsMoreDigits radix (c :: m) → ¬ c :: m <+: cs) :
      IsLongest (IsMoreDigits radix) cs (some (moreDigits radix cs)) := by
    rw [h]
    refine ⟨.nil, List.nil_prefix, fun m hm hbegins => ?_⟩
    cases m with
    | nil => exact Nat.le_refl _
    | cons c m => exact absurd hbegins (hnil c m hm)
  induction cs using moreDigits.induct radix with
  | case1 => exact hempty (by simp [moreDigits]) fun c m _ => by simp
  | case2 c cs hc ih =>
      obtain ⟨hdigits, hbegins, hmax⟩ := ih
      rw [moreDigits_cons hc]
      refine ⟨.digit hc hdigits, (List.prefix_cons_inj c).mpr hbegins, fun m hm hm' => ?_⟩
      cases m with
      | nil => simp
      | cons _ m =>
          obtain ⟨rfl, hbehind⟩ := List.cons_prefix_cons.mp hm'
          exact Nat.succ_le_succ (hmax m ((IsMoreDigits.cons_iff hc).mp hm) hbehind)
  | case3 d cs hd _ ih =>
      obtain ⟨hdigits, hbegins, hmax⟩ := ih
      rw [moreDigits_underscore hd]
      refine ⟨?_, (List.prefix_cons_inj '_').mpr hbegins, fun m hm hm' => ?_⟩
      · rw [moreDigits_cons hd] at hdigits ⊢
        exact IsMoreDigits.underscore_iff.mpr ⟨d, _, rfl, hd, hdigits⟩
      · cases m with
        | nil => simp
        | cons _ m =>
            obtain ⟨rfl, hbehind⟩ := List.cons_prefix_cons.mp hm'
            obtain ⟨_, _, rfl, _, hds⟩ := IsMoreDigits.underscore_iff.mp hm
            exact Nat.succ_le_succ (hmax _ hds hbehind)
  | case4 d cs hd =>
      refine hempty (moreDigits_stop (isDigit_underscore radix) (by simpa using hd)) ?_
      intro _ m hm hbegins
      obtain ⟨rfl, hbehind⟩ := List.cons_prefix_cons.mp hbegins
      obtain ⟨_, _, rfl, hd', _⟩ := IsMoreDigits.underscore_iff.mp hm
      obtain ⟨rfl, _⟩ := List.cons_prefix_cons.mp hbehind
      exact hd hd'
  | case5 c cs hc h =>
      refine hempty (moreDigits_stop (by simpa using hc) ?_) ?_
      · intro hu d hd
        obtain ⟨rest, rfl⟩ := List.head?_eq_some_iff.mp hd
        exact (h d rest hu rfl).elim
      · intro _ m hm hbegins
        obtain ⟨rfl, rest, rfl⟩ := List.cons_prefix_cons.mp hbegins
        rcases hm.head with hd | rfl
        · exact hc hd
        · obtain ⟨d, ds, rfl, _⟩ := IsMoreDigits.underscore_iff.mp hm
          exact h d _ rfl rfl

theorem isLongest_digits (radix : Nat) (cs : List Char) :
    IsLongest (IsDigits radix) cs (digits? radix cs) := by
  cases cs with
  | nil =>
      rintro _ ⟨c, cs, rfl, _⟩ hbegins
      cases List.prefix_nil.mp hbegins
  | cons c cs =>
      obtain ⟨hdigits, hbegins, hmax⟩ := isLongest_moreDigits radix cs
      rw [digits?]
      split
      · refine ⟨⟨c, _, rfl, ‹_›, hdigits⟩, (List.prefix_cons_inj c).mpr hbegins, ?_⟩
        rintro _ ⟨d, ds, rfl, _, hds⟩ hbegins'
        obtain ⟨_, hds'⟩ := List.cons_prefix_cons.mp hbegins'
        exact Nat.succ_le_succ (hmax ds hds hds')
      · rintro _ ⟨d, ds, rfl, hd, _⟩ hbegins'
        obtain ⟨rfl, _⟩ := List.cons_prefix_cons.mp hbegins'
        contradiction

/-- The letter of a radix goes on no octal number. -/
theorem not_digit_of_radix? {c : Char} {radix : Nat} (h : radix? c = some radix) :
    Digit.isDigit 8 c = false ∧ c ≠ '_' := by
  unfold radix? at h
  split at h
  all_goals first | exact ⟨rfl, by decide⟩ | cases h

theorem isLongest_radixDigits (c : Char) (cs : List Char) :
    IsLongest IsRadixDigits (c :: cs) (((radix? c).bind (digits? · cs)).map (c :: ·)) := by
  cases hradix : radix? c with
  | none =>
      rintro _ ⟨d, radix, ds, rfl, hd, _⟩ hbegins
      obtain ⟨rfl, _⟩ := List.cons_prefix_cons.mp hbegins
      simp [hradix] at hd
  | some radix =>
      refine ((isLongest_digits radix cs).cons c).congr fun m hbegins => ?_
      constructor
      · rintro ⟨ds, rfl, hds⟩
        exact ⟨c, radix, ds, rfl, hradix, hds⟩
      · rintro ⟨d, radix', ds, rfl, hd, hds⟩
        obtain ⟨rfl, _⟩ := List.cons_prefix_cons.mp hbegins
        rw [hradix] at hd
        cases hd
        exact ⟨ds, rfl, hds⟩

theorem isUnsigned_zero_iff {cs : List Char} :
    IsUnsigned ('0' :: cs) ↔ IsMoreDigits 8 cs ∨ IsRadixDigits cs := by
  constructor
  · intro h
    cases h with
    | decimal hc => exact absurd rfl hc
    | octal h => exact .inl h
    | radix h => exact .inr h
  · rintro (h | h)
    · exact .octal h
    · exact .radix h

/-- The words behind a zero are the octal ones and those of some radix. -/
theorem IsLongest.zero {cs : List Char} {l? : Option (List Char)}
    (h : IsLongest (fun l => IsMoreDigits 8 l ∨ IsRadixDigits l) cs l?) :
    IsLongest IsUnsigned ('0' :: cs) (l?.map ('0' :: ·)) := by
  refine (h.cons '0').congr fun m hbegins => ?_
  constructor
  · rintro ⟨ds, rfl, hds⟩
    exact isUnsigned_zero_iff.mpr hds
  · intro hm
    cases m with
    | nil => cases hm
    | cons d ds =>
        obtain ⟨rfl, _⟩ := List.cons_prefix_cons.mp hbegins
        exact ⟨ds, rfl, isUnsigned_zero_iff.mp hm⟩

theorem isLongest_unsigned (cs : List Char) : IsLongest IsUnsigned cs (unsigned? cs) := by
  unfold unsigned?
  split
  · rename_i cs
    have hoctal := isLongest_moreDigits 8 cs
    split
    · have hradix : IsLongest IsRadixDigits [] none := by
        rintro _ ⟨c, radix, cs, rfl, _⟩ hbegins
        cases List.prefix_nil.mp hbegins
      exact (hoctal.longer hradix).zero
    · rename_i c rest
      have hboth := (hoctal.longer (isLongest_radixDigits c rest)).zero
      cases hds : (radix? c).bind (digits? · rest) with
      | none => simpa [hds, longer] using hboth
      | some ds =>
          -- behind the letter of a radix there are no octal digits
          obtain ⟨radix, hc, _⟩ := Option.bind_eq_some_iff.mp hds
          obtain ⟨hdigit, hne⟩ := not_digit_of_radix? hc
          rw [moreDigits_stop hdigit fun heq => absurd heq hne] at hboth
          simpa [hds, longer] using hboth
  · rename_i hzero
    refine (isLongest_digits 10 cs).congr fun m hbegins => ?_
    constructor
    · rintro ⟨c, ds, rfl, hc, hds⟩
      refine .decimal ?_ ⟨c, ds, rfl, hc, hds⟩
      rintro rfl
      obtain ⟨rest, rfl⟩ := hbegins
      exact hzero _ rfl
    · intro hm
      cases hm with
      | decimal _ h => exact h
      | octal | radix =>
          obtain ⟨rest, rfl⟩ := hbegins
          exact (hzero _ rfl).elim

theorem IsUnsigned.isDigit {c : Char} {cs : List Char} (h : IsUnsigned (c :: cs)) :
    Digit.isDigit 10 c = true := by
  cases h with
  | decimal _ h =>
      obtain ⟨_, _, heq, hc, _⟩ := h
      cases heq
      exact hc
  | octal | radix => rfl

theorem isLongest_integer (cs : List Char) : IsLongest IsInteger cs (integer? cs) := by
  have hsign {c : Char} (hc : c = '+' ∨ c = '-') (cs m : List Char) (hbegins : m <+: c :: cs) :
      (∃ ds, m = c :: ds ∧ IsUnsigned ds) ↔ IsInteger m := by
    constructor
    · rintro ⟨ds, rfl, hds⟩
      refine .inr ⟨ds, ?_, hds⟩
      rcases hc with rfl | rfl <;> simp
    · rintro (hm | ⟨ds, heq, hds⟩)
      · cases m with
        | nil => cases hm
        | cons d ds =>
            obtain ⟨rfl, _⟩ := List.cons_prefix_cons.mp hbegins
            have hdigit := hm.isDigit
            rcases hc with rfl | rfl <;> exact absurd hdigit (by decide)
      · refine ⟨ds, ?_, hds⟩
        rcases heq with rfl | rfl
        all_goals
          obtain ⟨rfl, _⟩ := List.cons_prefix_cons.mp hbegins
          rfl
  unfold integer?
  split
  · exact ((isLongest_unsigned _).cons '+').congr (hsign (.inl rfl) _)
  · exact ((isLongest_unsigned _).cons '-').congr (hsign (.inr rfl) _)
  · rename_i hplus hminus
    refine (isLongest_unsigned cs).congr fun m hbegins => ⟨.inl, ?_⟩
    rintro (hm | ⟨ds, rfl | rfl, _⟩)
    · exact hm
    · obtain ⟨rest, rfl⟩ := hbegins
      exact (hplus _ rfl).elim
    · obtain ⟨rest, rfl⟩ := hbegins
      exact (hminus _ rfl).elim

/-! ## Quoted texts -/

/-- A text between two quotes of one kind. -/
def IsString (l : List Char) : Prop :=
  ∃ quote body, (quote = '\'' ∨ quote = '"') ∧ l = quote :: (body ++ [quote]) ∧ IsBody quote body

/-- A regular expression between slashes, with flags behind it. -/
def IsRegexp (l : List Char) : Prop :=
  ∃ body flags, l = '/' :: (body ++ '/' :: flags) ∧ IsBody '/' body ∧ ∀ c ∈ flags, isFlag c = true

/-- Where a quoted text ends is determined by its beginning. -/
theorem IsBody.eq_of_append {quote : Char} (hquote : quote ≠ '\\') {body body' cs cs' : List Char}
    (h : IsBody quote body) (h' : IsBody quote body')
    (heq : body ++ quote :: cs = body' ++ quote :: cs') : body = body' ∧ cs = cs' := by
  have hfirst := (quoted?_eq_some_iff hquote).mpr ⟨body, cs, h, rfl, rfl⟩
  have hsecond := (quoted?_eq_some_iff hquote).mpr ⟨body', cs', h', rfl, heq⟩
  rw [hfirst] at hsecond
  obtain ⟨rfl, _⟩ := List.append_inj' (Option.some.inj hsecond) rfl
  simpa using heq

theorem isLongest_quoted {quote : Char} (hquote : quote ≠ '\\') (cs : List Char) :
    IsLongest (fun l => ∃ body, l = body ++ [quote] ∧ IsBody quote body) cs (quoted? quote cs) := by
  cases h : quoted? quote cs with
  | none =>
      rintro _ ⟨body, rfl, hbody⟩ ⟨rest, rfl⟩
      have hsome := (quoted?_eq_some_iff hquote).mpr ⟨body, rest, hbody, rfl, rfl⟩
      rw [List.append_assoc, List.singleton_append, hsome] at h
      cases h
  | some l =>
      obtain ⟨body, rest, hbody, rfl, rfl⟩ := (quoted?_eq_some_iff hquote).mp h
      refine ⟨⟨body, rfl, hbody⟩, ⟨rest, by simp⟩, ?_⟩
      rintro _ ⟨body', rfl, hbody'⟩ ⟨rest', heq⟩
      rw [List.append_assoc, List.singleton_append] at heq
      obtain ⟨rfl, _⟩ := hbody.eq_of_append hquote hbody' heq.symm
      exact Nat.le_refl _

theorem isLongest_string (cs : List Char) : IsLongest IsString cs (string? cs) := by
  have hquoted {quote : Char} (hquote : quote = '\'' ∨ quote = '"') (cs : List Char) :
      IsLongest IsString (quote :: cs) ((quoted? quote cs).map (quote :: ·)) := by
    have hne : quote ≠ '\\' := by rcases hquote with rfl | rfl <;> decide
    refine ((isLongest_quoted hne cs).cons quote).congr fun m hbegins => ?_
    constructor
    · rintro ⟨_, rfl, body, rfl, hbody⟩
      exact ⟨quote, body, hquote, rfl, hbody⟩
    · rintro ⟨quote', body, _, rfl, hbody⟩
      obtain ⟨rfl, _⟩ := List.cons_prefix_cons.mp hbegins
      exact ⟨_, rfl, body, rfl, hbody⟩
  unfold string?
  split
  · exact hquoted (.inl rfl) _
  · exact hquoted (.inr rfl) _
  · rename_i hsingle hdouble
    rintro _ ⟨quote, body, rfl | rfl, rfl, _⟩ ⟨rest, rfl⟩
    · exact (hsingle _ rfl).elim
    · exact (hdouble _ rfl).elim

theorem isLongest_regexp (cs : List Char) : IsLongest IsRegexp cs (regexp? cs) := by
  unfold regexp?
  split
  · rename_i cs
    have hlongest := isLongest_quoted (show '/' ≠ '\\' by decide) cs
    cases h : quoted? '/' cs with
    | none =>
        rw [h] at hlongest
        rintro _ ⟨body, flags, rfl, hbody, _⟩ hbegins
        have hbegins' := (List.prefix_cons_inj '/').mp hbegins
        refine hlongest _ ⟨body, rfl, hbody⟩ (List.IsPrefix.trans ⟨flags, ?_⟩ hbegins')
        simp
    | some l =>
        obtain ⟨body, rest, hbody, rfl, rfl⟩ := (quoted?_eq_some_iff (by decide)).mp h
        have hsplit : body ++ '/' :: rest = body ++ ['/'] ++ rest := by simp
        have hdrop : (body ++ '/' :: rest).drop (body ++ ['/']).length = rest := by
          rw [hsplit, List.drop_left]
        rw [Option.map_some, hdrop]
        refine ⟨⟨body, rest.takeWhile isFlag, by simp, hbody, fun c hc => ?_⟩, ?_, ?_⟩
        · exact List.mem_takeWhile_imp hc
        · rw [List.prefix_cons_inj, List.append_assoc, List.prefix_append_right_inj,
            List.singleton_append, List.prefix_cons_inj]
          exact List.takeWhile_prefix _
        · rintro _ ⟨body', flags, rfl, hbody', hflags⟩ ⟨rest', heq⟩
          rw [List.cons_append, List.append_assoc, List.cons_append, List.cons.injEq] at heq
          obtain ⟨rfl, rfl⟩ := hbody'.eq_of_append (by decide) hbody heq.2
          have hle : flags.length ≤ ((flags ++ rest').takeWhile isFlag).length :=
            length_le_takeWhile (List.prefix_append _ _) hflags
          simp only [List.length_cons, List.length_append, List.length_nil]
          omega
  · rename_i hslash
    rintro _ ⟨body, flags, rfl, _⟩ ⟨rest, rfl⟩
    exact (hslash _ rfl).elim

end TreePattern.Token
