import TreePattern.Proofs.Text.Quoted
import TreePattern.Proofs.Text.Slashes
import TreePattern.Proofs.Token.Symbol

/-! Attribute names, integers and quoted texts in front of other text. What follows a lexeme can
make the scan end later than the lexeme does; the lemmas say for each kind what may follow it. -/

namespace TreePattern.Token

/-! ## Attribute names -/

theorem mem_of_isAttributeOperator {l : List Char} {k : Kind} (h : (l, k) ∈ operators)
    (hk : k.isAttributeOperator = true) : l ∈ [['='], ['^', '='], ['$', '='], ['*', '=']] := by
  have hall : ∀ a ∈ operators, a.2.isAttributeOperator = true →
      a.1 ∈ [['='], ['^', '='], ['$', '='], ['*', '=']] := by decide
  exact hall _ h hk

theorem operatorFollows_append {blanks l : List Char} {k : Kind}
    (hblank : ∀ c ∈ blanks, isBlank c = true) (h : (l, k) ∈ operators)
    (hk : k.isAttributeOperator = true) (cs : List Char) :
    operatorFollows (blanks ++ (l ++ cs)) = true := by
  have hl := mem_of_isAttributeOperator h hk
  obtain ⟨c, tail, _, rfl, _, _, hc⟩ := begins_operator h (List.prefix_refl l)
  rw [operatorFollows, Terminal.dropWhile_isBlank hblank, List.cons_append,
    List.dropWhile_cons_of_neg (by simpa using hc), ← List.cons_append]
  exact List.any_eq_true.mpr ⟨_, hl, by simp⟩

/-- Whether an attribute operator comes next is seen from the next token. -/
theorem operatorFollows_of_tiles {cs rest : List Char} {u : Terminal} {us : List Terminal}
    (h : Tiles cs (u :: us) rest) (hu : u.request = .token) :
    operatorFollows cs = u.kind.isAttributeOperator := by
  obtain ⟨_, k, l⟩ := u
  obtain rfl : _ = Cursor.Request.token := hu
  obtain ⟨behind, hread, _⟩ := Tiles.cons_iff.mp h
  obtain ⟨_, blanks, hblank, rfl, hscan⟩ := Terminal.read?_eq_some_iff.mp hread
  have hlexeme : lexeme? (l ++ behind) = some (k, l) := hscan
  rw [Bool.eq_iff_iff]
  constructor
  · intro hfollows
    have hkinds : ∀ o ∈ [['='], ['^', '='], ['$', '='], ['*', '=']],
        ∃ j, (o, j) ∈ operators ∧ j.isFree = true ∧ j.isAttributeOperator = true := by
      simp only [List.forall_mem_cons, List.not_mem_nil, false_implies, implies_true, and_true]
      exact ⟨⟨.equals, by decide⟩, ⟨.startsWith, by decide⟩, ⟨.endsWith, by decide⟩,
        ⟨.contains, by decide⟩⟩
    obtain ⟨c, tail, _, hl, _, _, hc⟩ := begins_lexeme hlexeme
    rw [operatorFollows, Terminal.dropWhile_isBlank hblank, hl, List.cons_append,
      List.dropWhile_cons_of_neg (by simpa using hc), ← List.cons_append, ← hl] at hfollows
    obtain ⟨o, ho, hbegins⟩ := List.any_eq_true.mp hfollows
    obtain ⟨j, hj, hfree, hoperator⟩ := hkinds o ho
    obtain ⟨rest, heq⟩ := List.isPrefixOf_iff_prefix.mp hbegins
    rw [← heq, lexeme?_of_isFree hj hfree, Option.some.injEq, Prod.mk.injEq] at hlexeme
    obtain ⟨rfl, _⟩ := hlexeme
    exact hoperator
  · intro hk
    have hall (j : Kind) : j.isAttributeOperator = true → operators.any (·.2 == j) = true := by
      cases j <;> decide
    exact operatorFollows_append hblank (mem_operators_of_lexeme? hlexeme (hall k hk)) hk behind

theorem attributeNames_subset (cs : List Char) :
    (operatorNames.filter fun n => n != ['[', ']', '='] || operatorFollows cs) ⊆ operatorNames :=
  List.filter_subset_self _

/-- An identifier, with the equals sign behind it if the two name a setter. -/
def setterName (name cs : List Char) : List Char :=
  match name.getLast?, cs with
  | some '?', _ | some '!', _ => name
  | _, '=' :: rest => if operatorFollows rest then name ++ ['='] else name
  | _, _ => name

theorem setterName_of_ne {c : Char} (hc : c ≠ '=') (name cs : List Char) :
    setterName name (c :: cs) = name := by
  unfold setterName
  split
  · rfl
  · rfl
  · rename_i heq _ _
    cases heq
    exact absurd rfl hc
  · rfl

theorem setterName_equals {name cs : List Char} (hquestion : name.getLast? ≠ some '?')
    (hexclamation : name.getLast? ≠ some '!') (hcs : operatorFollows cs = true) :
    setterName name ('=' :: cs) = name ++ ['='] := by
  unfold setterName
  split
  · exact absurd ‹_› hquestion
  · exact absurd ‹_› hexclamation
  · rename_i heq _ _
    cases heq
    rw [if_pos hcs]
  · rename_i hother
    exact (hother _ rfl).elim

theorem methodName?_of_identifier? {name cs : List Char}
    (h : identifier? (name ++ cs) = some name) :
    methodName? (name ++ cs) = some (setterName name cs) := by
  obtain ⟨c, tail, rest, hc, hcs, _, hstart⟩ := begins_identifier h
  simp only [methodName?, h, Option.map_some, List.drop_left]
  rw [hcs, operatorName?_eq_none (attributeNames_subset _) hstart, longer_none_right]
  rfl

/-- The names that an attribute may have: identifiers, setters and operators. -/
inductive IsAttributeName : List Char → Prop where
  | identifier {c body mark} (h : IsIdentifier c body mark) : IsAttributeName (c :: (body ++ mark))
  | setter {c body} (h : IsIdentifier c body []) : IsAttributeName (c :: (body ++ ['=']))
  | operator {l} (h : l ∈ operatorNames) : IsAttributeName l

theorem IsIdentifier.mark_eq_nil {c : Char} {body mark : List Char} (h : IsIdentifier c body mark)
    (hquestion : (c :: (body ++ mark)).getLast? ≠ some '?')
    (hexclamation : (c :: (body ++ mark)).getLast? ≠ some '!') : mark = [] := by
  rcases h.mark with rfl | rfl | rfl
  · rfl
  · rw [← List.cons_append, List.getLast?_concat] at hquestion
    exact absurd rfl hquestion
  · rw [← List.cons_append, List.getLast?_concat] at hexclamation
    exact absurd rfl hexclamation

/-- An identifier without a mark ends in a character that goes on a name. -/
theorem IsIdentifier.getLast?_ne {c d : Char} {body : List Char} (h : IsIdentifier c body [])
    (hd : isNameStart d = false ∧ isNameChar d = false) : (c :: body).getLast? ≠ some d := by
  intro hlast
  rcases List.mem_cons.mp (List.mem_of_getLast? hlast) with rfl | hmem
  · rw [h.start] at hd
    cases hd.1
  · rw [h.body d hmem] at hd
    cases hd.2

/-- What is scanned as the name of an attribute is one. -/
theorem isAttributeName_of_methodName? {cs l : List Char} (h : methodName? cs = some l) :
    IsAttributeName l := by
  rcases methodName?_eq_some h with hl | ⟨n, rest, hn, _, rfl, hquestion, hexclamation⟩ | ⟨hl, _⟩
  · obtain ⟨c, body, mark, rfl, hname⟩ := identifier?_eq_some hl
    exact .identifier hname
  · obtain ⟨c, body, mark, rfl, hname⟩ := identifier?_eq_some hn
    obtain rfl := hname.mark_eq_nil hquestion hexclamation
    rw [List.append_nil]
    exact .setter hname
  · exact .operator hl

/-- The name of an attribute stands before a space and an attribute operator. -/
theorem IsAttributeName.methodName?_append {l cs : List Char} (h : IsAttributeName l)
    (hcs : operatorFollows (' ' :: cs) = true) : methodName? (l ++ ' ' :: cs) = some l := by
  cases h with
  | @identifier c body mark hname =>
      have hstands : identifier? (c :: (body ++ mark) ++ ' ' :: cs) = some (c :: (body ++ mark)) :=
        identifier?_append hname fun _ => by
          rintro _ ⟨⟩
          decide
      rw [methodName?_of_identifier? hstands, setterName_of_ne (by decide)]
  | @setter c body hname =>
      have hstands : identifier? (c :: (body ++ []) ++ '=' :: ' ' :: cs) =
          some (c :: (body ++ [])) :=
        identifier?_append hname fun _ => by
          rintro _ ⟨⟩
          decide
      rw [List.append_nil] at hstands
      have hsetter := setterName_equals (hname.getLast?_ne (d := '?') (by decide))
        (hname.getLast?_ne (d := '!') (by decide)) hcs
      have hsplit : c :: (body ++ ['=']) ++ ' ' :: cs = c :: body ++ '=' :: ' ' :: cs := by simp
      rw [hsplit, methodName?_of_identifier? hstands, hsetter, List.cons_append]
  | operator hl =>
      have hne : ∀ m ∈ operatorNames, ' ' ∉ m := by decide
      obtain ⟨c, tail, _, rfl, _, _, hc⟩ := begins_of_mem_operatorNames hl (List.prefix_refl _)
      simp only [Bool.and_eq_true, Bool.not_eq_true'] at hc
      have hmem : c :: tail ∈ operatorNames.filter fun n =>
          n != ['[', ']', '='] || operatorFollows ((c :: tail ++ ' ' :: cs).drop 3) := by
        refine List.mem_filter.mpr ⟨hl, ?_⟩
        by_cases hsetter : c :: tail = ['[', ']', '=']
        · rw [hsetter]
          simpa using hcs
        · simp [hsetter]
      rw [methodName?, List.cons_append, identifier?_eq_none hc.1, Option.map_none,
        ← List.cons_append]
      refine operatorName?_append hmem fun m hm hle hprefix => ?_
      obtain ⟨rest, rfl⟩ := hle
      cases rest with
      | nil => rw [List.append_nil]
      | cons d rest =>
          obtain ⟨more, hmore⟩ := (List.prefix_append_right_inj _).mp hprefix
          cases hmore
          exact absurd (by simp) (hne _ (List.mem_filter.mp hm).1)

/-! ## Integers and quoted texts -/

theorem moreDigits_append {digits cs : List Char}
    (hdigits : ∀ c ∈ digits, Digit.isDigit 10 c = true) (hcs : ∀ c ∈ cs.head?, c ∈ boundaries)
    : moreDigits 10 (digits ++ cs) = digits := by
  induction digits with
  | nil =>
      cases cs with
      | nil => rfl
      | cons c cs =>
          obtain ⟨_, _, hc, hne⟩ := not_number_of_boundary c (hcs c rfl)
          exact moreDigits_stop hc fun heq => absurd heq hne
  | cons c digits ih =>
      rw [List.cons_append, moreDigits_cons (hdigits c List.mem_cons_self),
        ih fun d hd => hdigits d (List.mem_cons_of_mem c hd)]

theorem unsigned?_append (n : Nat) {cs : List Char} (hcs : ∀ c ∈ cs.head?, c ∈ boundaries) :
    unsigned? (Numeral.ofNat n ++ cs) = some (Numeral.ofNat n) := by
  have hdigits : ∀ c ∈ Numeral.ofNat n, Digit.isDigit 10 c = true := by
    intro c hc
    rw [Numeral.isDigit_ten]
    exact Numeral.isDigit_of_mem_ofNat hc
  obtain ⟨c, tail, hcons, hzero⟩ := Numeral.exists_ofNat_eq_cons n
  by_cases hc : c = '0'
  · rw [hzero hc, Numeral.ofNat_zero]
    cases cs with
    | nil => rfl
    | cons d cs =>
        obtain ⟨hradix, hdigit, _, hne⟩ := not_number_of_boundary d (hcs d rfl)
        simp only [List.singleton_append, unsigned?, hradix, Option.bind_none]
        rw [moreDigits_stop hdigit fun heq => absurd heq hne]
  · rw [hcons] at hdigits ⊢
    have hunsigned : unsigned? (c :: tail ++ cs) = digits? 10 (c :: (tail ++ cs)) := by
      unfold unsigned?
      split
      · rename_i heq
        cases heq
        exact absurd rfl hc
      · rfl
    rw [hunsigned, digits?, if_pos (hdigits c List.mem_cons_self),
      moreDigits_append (fun d hd => hdigits d (List.mem_cons_of_mem c hd)) hcs]

theorem integer?_append_ofNat (n : Nat) {cs : List Char} (hcs : ∀ c ∈ cs.head?, c ∈ boundaries) :
    integer? (Numeral.ofNat n ++ cs) = some (Numeral.ofNat n) := by
  have hunsigned := unsigned?_append n hcs
  obtain ⟨c, tail, hcons, _⟩ := Numeral.exists_ofNat_eq_cons n
  have hc : c.isDigit = true := Numeral.isDigit_of_mem_ofNat (hcons ▸ List.mem_cons_self)
  rw [hcons] at hunsigned ⊢
  rw [← hunsigned]
  unfold integer?
  split
  · rename_i heq
    cases heq
    exact absurd hc (by decide)
  · rename_i heq
    cases heq
    exact absurd hc (by decide)
  · rfl

/-- The numeral of a number stands before every boundary. -/
theorem integer?_append (n : Int64) {cs : List Char} (hcs : ∀ c ∈ cs.head?, c ∈ boundaries) :
    integer? (Numeral.ofInt64 n ++ cs) = some (Numeral.ofInt64 n) := by
  rw [Numeral.ofInt64]
  split
  · rw [List.cons_append, integer?, unsigned?_append _ hcs]
    rfl
  · exact integer?_append_ofNat _ hcs

theorem IsBody.append {quote : Char} {cs ds : List Char} (hcs : IsBody quote cs)
    (hds : IsBody quote ds) : IsBody quote (cs ++ ds) := by
  induction hcs with
  | nil => exact hds
  | pair c _ ih => exact .pair c ih
  | cons hc hquote _ ih => exact .cons hc hquote ih

theorem isBody_encodeChar (c : Char) : IsBody '"' (Quoted.encodeChar c) := by
  rcases Quoted.encodeChar_cases c with ⟨_, heq⟩ | ⟨letter, _, heq⟩ | ⟨hcontrol, heq⟩ |
    ⟨hquote, hslash, heq⟩
  · rw [heq]
    exact .pair c .nil
  · rw [heq]
    exact .pair letter .nil
  · have hall : ∀ n : Fin 16, Nat.digitChar n ≠ '\\' ∧ Nat.digitChar n ≠ '"' := by decide
    have hlt := Quoted.toNat_lt_of_isControl hcontrol
    have hhigh := hall ⟨c.toNat / 16, by omega⟩
    have hlow := hall ⟨c.toNat % 16, by omega⟩
    rw [heq]
    exact .pair 'x' (.cons hhigh.1 hhigh.2 (.cons hlow.1 hlow.2 .nil))
  · rw [heq]
    exact .cons hslash hquote .nil

theorem IsBody.flatMap {quote : Char} {f : Char → List Char} (h : ∀ c, IsBody quote (f c))
    (cs : List Char) : IsBody quote (cs.flatMap f) := by
  induction cs with
  | nil => exact .nil
  | cons c cs ih => exact (h c).append ih

/-- A text between quotes stands whatever follows it. -/
theorem IsBody.string?_append {quote : Char} {body : List Char} (h : IsBody quote body)
    (hquote : quote = '\'' ∨ quote = '"') (cs : List Char) :
    string? (quote :: (body ++ [quote]) ++ cs) = some (quote :: (body ++ [quote])) := by
  have hne : quote ≠ '\\' := by rcases hquote with rfl | rfl <;> decide
  have hquoted : quoted? quote (body ++ [quote] ++ cs) = some (body ++ [quote]) :=
    (quoted?_eq_some_iff hne).mpr ⟨body, cs, h, rfl, by simp⟩
  rcases hquote with rfl | rfl
  all_goals
    rw [List.cons_append, string?, hquoted]
    rfl

theorem string?_append (text cs : List Char) :
    string? (Quoted.encode text ++ cs) = some (Quoted.encode text) :=
  (IsBody.flatMap isBody_encodeChar text).string?_append (.inr rfl) cs

theorem isBody_encodeSingleChar (c : Char) : IsBody '\'' (Quoted.encodeSingleChar c) := by
  unfold Quoted.encodeSingleChar
  split
  · exact .pair c .nil
  · rename_i h
    obtain ⟨hslash, hquote⟩ := not_or.mp h
    exact .cons hslash hquote .nil

theorem string?_append_single (text cs : List Char) :
    string? (Quoted.encodeSingle text ++ cs) = some (Quoted.encodeSingle text) :=
  (IsBody.flatMap isBody_encodeSingleChar text).string?_append (.inl rfl) cs

theorem drop_length_concat (cs ds : List Char) (c : Char) :
    (cs ++ c :: ds).drop (cs ++ [c]).length = ds := by
  have hsplit : cs ++ c :: ds = cs ++ [c] ++ ds := by simp
  rw [hsplit, List.drop_left]

/-- A regular expression between slashes stands before everything but flags. -/
theorem regexp?_append_literal {source : List Char} (h : Regexp.IsWritable source)
    (flags : Regexp.Flags) {cs : List Char} (hcs : ∀ c ∈ cs.head?, isFlag c = false) :
    regexp? (Regexp.literal source flags ++ cs) = some (Regexp.literal source flags) := by
  have hquoted : quoted? '/' (Regexp.escapeSlashes false source ++ '/' :: (flags.suffix ++ cs)) =
      some (Regexp.escapeSlashes false source ++ ['/']) :=
    (quoted?_eq_some_iff (by decide)).mpr ⟨_, _, Regexp.isBody_escapeSlashes h, rfl, rfl⟩
  have hflags : (flags.suffix ++ cs).takeWhile isFlag = flags.suffix := by
    refine takeWhile_append_of_head ?_ hcs
    apply List.all_eq_true.mp
    obtain ⟨_ | _, _ | _, _ | _⟩ := flags <;> rfl
  have hsplit : Regexp.literal source flags ++ cs =
      '/' :: (Regexp.escapeSlashes false source ++ '/' :: (flags.suffix ++ cs)) := by
    simp [Regexp.literal]
  rw [hsplit, regexp?, hquoted, Option.map_some, drop_length_concat, hflags]
  simp [Regexp.literal]

/-- A regular expression between slashes stands before every boundary. -/
theorem regexp?_append {r : Regexp} (h : Regexp.IsWritable r.source.toList) {cs : List Char}
    (hcs : ∀ c ∈ cs.head?, c ∈ boundaries) : regexp? (r.chars ++ cs) = some r.chars := by
  have hall : ∀ c ∈ boundaries, isFlag c = false := forall_mem_boundaries.mpr (by decide)
  exact regexp?_append_literal h r.flags fun c hc => hall c (hcs c hc)

end TreePattern.Token
