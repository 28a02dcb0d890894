import Mathlib.Data.List.Chain
import TreePattern.Proofs.Token.Longest
import TreePattern.Proofs.Token.Standing
import TreePattern.Proofs.Token.Tiling

/-! Texts that are cut off behind a token, and end there or go on with white space. The tokens in
front of the cut stay as they are: no word but a quoted one contains white space, and the end of a
quoted one is determined by its beginning. -/

namespace TreePattern

namespace Token

/-! ## White space in words -/

theorem not_of_isBlank {p : Char → Bool} (hp : [' ', '\t', '\r', '\n'].any p = false) {c : Char}
    (hc : p c = true) : isBlank c = false := by
  by_contra hblank
  simp only [isBlank, Bool.not_eq_false, Bool.or_eq_true, beq_iff_eq] at hblank
  have hmem : c ∈ [' ', '\t', '\r', '\n'] := by simpa [or_assoc] using hblank
  exact List.any_eq_false.mp hp c hmem hc

theorem not_isBlank_of_isNameChar {c : Char} (h : isNameChar c = true) : isBlank c = false :=
  not_of_isBlank (by decide) h

theorem not_isBlank_of_isDigit {radix : Nat} {c : Char} (h : Digit.isDigit radix c = true) :
    isBlank c = false :=
  not_of_isBlank (by simp [Digit.isDigit, Digit.value?, Char.isDigit]) h

theorem not_isBlank_of_isFlag {c : Char} (h : isFlag c = true) : isBlank c = false :=
  not_of_isBlank (by decide) h

theorem not_isBlank_of_radix? {c : Char} {radix : Nat} (h : radix? c = some radix) :
    isBlank c = false :=
  not_of_isBlank (p := fun c => (radix? c).isSome) (by decide) (by simp [h])

theorem IsIdentifier.not_isBlank {c : Char} {body mark : List Char} (h : IsIdentifier c body mark) :
    ∀ d ∈ c :: (body ++ mark), isBlank d = false := by
  have hmark : ∀ d ∈ mark, isBlank d = false := by
    rcases h.mark with rfl | rfl | rfl <;> simp [isBlank]
  simp only [List.forall_mem_cons, List.forall_mem_append]
  exact ⟨not_isBlank_of_isNameStart h.start, fun d hd => not_isBlank_of_isNameChar (h.body d hd),
    hmark⟩

theorem not_isBlank_of_mem_operatorNames {l : List Char} (h : l ∈ operatorNames) :
    ∀ c ∈ l, isBlank c = false := by
  have hall : ∀ l ∈ operatorNames, l.any isBlank = false := by decide
  exact fun c hc => Bool.eq_false_iff.mpr (List.any_eq_false.mp (hall l h) c hc)

theorem IsMoreDigits.not_isBlank {radix : Nat} {l : List Char} (h : IsMoreDigits radix l) :
    ∀ c ∈ l, isBlank c = false := by
  induction h with
  | nil => nofun
  | digit hc _ ih => exact List.forall_mem_cons.mpr ⟨not_isBlank_of_isDigit hc, ih⟩
  | underscore hc _ ih =>
      exact List.forall_mem_cons.mpr ⟨rfl, List.forall_mem_cons.mpr
        ⟨not_isBlank_of_isDigit hc, ih⟩⟩

theorem IsDigits.not_isBlank {radix : Nat} {l : List Char} (h : IsDigits radix l) :
    ∀ c ∈ l, isBlank c = false := by
  obtain ⟨c, cs, rfl, hc, hcs⟩ := h
  exact List.forall_mem_cons.mpr ⟨not_isBlank_of_isDigit hc, hcs.not_isBlank⟩

theorem IsUnsigned.not_isBlank {l : List Char} (h : IsUnsigned l) : ∀ c ∈ l, isBlank c = false := by
  cases h with
  | decimal _ h => exact h.not_isBlank
  | octal h => exact List.forall_mem_cons.mpr ⟨rfl, h.not_isBlank⟩
  | radix h =>
      obtain ⟨c, radix, cs, rfl, hc, hcs⟩ := h
      exact List.forall_mem_cons.mpr ⟨rfl, List.forall_mem_cons.mpr
        ⟨not_isBlank_of_radix? hc, hcs.not_isBlank⟩⟩

theorem IsInteger.not_isBlank {l : List Char} (h : IsInteger l) : ∀ c ∈ l, isBlank c = false := by
  rcases h with h | ⟨cs, rfl | rfl, h⟩
  · exact h.not_isBlank
  · exact List.forall_mem_cons.mpr ⟨rfl, h.not_isBlank⟩
  · exact List.forall_mem_cons.mpr ⟨rfl, h.not_isBlank⟩

theorem IsVariableName.not_isBlank {l : List Char} (h : IsVariableName l) :
    ∀ c ∈ l, isBlank c = false := by
  obtain ⟨c, cs, rfl, hc, hcs⟩ := h
  exact List.forall_mem_cons.mpr ⟨not_isBlank_of_isNameStart (isNameStart_of_word hc),
    fun d hd => not_isBlank_of_isNameChar (hcs d hd)⟩

theorem IsClassName.not_isBlank {l : List Char} (h : IsClassName l) :
    ∀ c ∈ l, isBlank c = false := by
  obtain ⟨c, cs, rfl, hc, hcs⟩ := h
  exact List.forall_mem_cons.mpr ⟨not_isBlank_of_isNameStart (isNameStart_of_isUpper hc),
    fun d hd => not_isBlank_of_isNameChar (hcs d hd)⟩

theorem IsSymbol.not_isBlank {l : List Char} (h : IsSymbol l) : ∀ c ∈ l, isBlank c = false := by
  obtain ⟨name, rfl, ⟨c, body, mark, rfl, hname⟩ | hname⟩ := h
  · exact List.forall_mem_cons.mpr ⟨rfl, hname.not_isBlank⟩
  · exact List.forall_mem_cons.mpr ⟨rfl, not_isBlank_of_mem_operatorNames hname⟩

/-- No string goes on behind a string. -/
theorem IsString.eq_nil_of_append {l m : List Char} (hl : IsString l) (hm : IsString (l ++ m)) :
    m = [] := by
  obtain ⟨quote, body, hquote, rfl, hbody⟩ := hl
  obtain ⟨_, body', _, heq, hbody'⟩ := hm
  obtain ⟨rfl, htail⟩ := List.cons.inj heq
  have hne : quote ≠ '\\' := by rcases hquote with rfl | rfl <;> decide
  rw [List.append_eq, List.append_assoc, List.singleton_append] at htail
  exact (hbody.eq_of_append hne hbody' htail).2

/-- Only flags go on behind a regular expression. -/
theorem IsRegexp.not_isBlank_of_append {l m : List Char} (hl : IsRegexp l)
    (hm : IsRegexp (l ++ m)) : ∀ c ∈ m, isBlank c = false := by
  obtain ⟨body, flags, rfl, hbody, _⟩ := hl
  obtain ⟨body', flags', heq, hbody', hflags'⟩ := hm
  obtain ⟨_, htail⟩ := List.cons.inj heq
  rw [List.append_eq, List.append_assoc, List.cons_append] at htail
  obtain ⟨_, rfl⟩ := hbody.eq_of_append (by decide) hbody' htail
  exact fun c hc => not_isBlank_of_isFlag (hflags' c (List.mem_append_right _ hc))

/-- A longer word has no white space in what it has more. -/
theorem Word.not_isBlank_of_append {L M : Language} {l m : List Char} {j k : Kind}
    (hl : Word L l j) (hm : Word M (l ++ m) k) : ∀ c ∈ m, isBlank c = false := by
  suffices h : (∀ c ∈ l ++ m, isBlank c = false) ∨ ∀ c ∈ m, isBlank c = false by
    rcases h with h | h
    · exact fun c hc => h c (List.mem_append_right l hc)
    · exact h
  obtain ⟨d, ds, rfl, hL⟩ := hl.language_eq
  generalize hn : d :: ds ++ m = n at hm ⊢
  cases hm with
  | operator h =>
      have hall : ∀ a ∈ operators, a.1.any isBlank = false := by decide
      exact .inl fun c hc => Bool.eq_false_iff.mpr (List.any_eq_false.mp (hall _ h) c hc)
  | keyword h => exact .inl (isVariableName_of_keyword h).not_isBlank
  | variableName h => exact .inl h.not_isBlank
  | className h => exact .inl h.not_isBlank
  | symbol h => exact .inl h.not_isBlank
  | integer h => exact .inl h.not_isBlank
  | string h =>
      subst hn
      obtain rfl : L = .strings := by
        obtain ⟨quote, body, hquote, heq, _⟩ := h
        obtain ⟨rfl, _⟩ := List.cons.inj heq
        rcases hquote with rfl | rfl <;> exact hL
      cases hl with
      | string hl => simp [hl.eq_nil_of_append h]
  | regexp h =>
      subst hn
      obtain rfl : L = .regexps := by
        obtain ⟨body, flags, heq, _⟩ := h
        obtain ⟨rfl, _⟩ := List.cons.inj heq
        exact hL
      cases hl with
      | regexp hl => exact .inr (hl.not_isBlank_of_append h)

/-! ## Longest words in front of white space -/

/-- A text without white space that begins a text with a cut does not reach behind the cut. -/
theorem prefix_of_cut {m v y : List Char} (hy : ∀ c ∈ y.head?, isBlank c = true)
    (hm : ∀ c ∈ m, isBlank c = false) (hbegins : m <+: v ++ y) : m <+: v := by
  rcases List.prefix_or_prefix_of_prefix hbegins (List.prefix_append v _) with hv | ⟨n, rfl⟩
  · exact hv
  · cases n with
    | nil => simp
    | cons d n =>
        obtain ⟨rest, rfl⟩ := (List.prefix_append_right_inj v).mp hbegins
        have hblank := hm d (by simp)
        rw [hy d rfl] at hblank
        cases hblank

/-- The longest word stays the longest, if the text is cut off somewhere behind it and ends there or
goes on with white space. -/
theorem IsLongest.cut {P : List Char → Prop} {l v x y : List Char}
    (h : IsLongest P (l ++ (v ++ x)) (some l)) (hy : ∀ c ∈ y.head?, isBlank c = true)
    (hP : ∀ m, P (l ++ m) → ∀ c ∈ m, isBlank c = false) :
    IsLongest P (l ++ (v ++ y)) (some l) := by
  obtain ⟨hl, _, hmax⟩ := h
  refine ⟨hl, List.prefix_append _ _, fun n hn hbegins => ?_⟩
  rcases List.prefix_or_prefix_of_prefix hbegins (List.prefix_append l _) with hle | ⟨m, rfl⟩
  · exact hle.length_le
  · have hv := prefix_of_cut hy (hP m hn) ((List.prefix_append_right_inj l).mp hbegins)
    exact hmax _ hn ((List.prefix_append_right_inj l).mpr (hv.trans (List.prefix_append v x)))

theorem IsLongest.unique {P : List Char → Prop} {cs l : List Char} {m? : Option (List Char)}
    (h : IsLongest P cs (some l)) (hm : IsLongest P cs m?) : m? = some l := by
  obtain ⟨hl, hbegins, hmax⟩ := h
  obtain ⟨m, rfl, hle⟩ := hm.le_length hl hbegins
  have hlength := Nat.le_antisymm hle (hmax m hm.1 hm.2.1)
  rw [(List.prefix_of_prefix_length_le hbegins hm.2.1 hlength.le).eq_of_length hlength]

section

variable {l v x y : List Char} (hy : ∀ c ∈ y.head?, isBlank c = true)

include hy

theorem lexeme?_cut {k : Kind} (h : lexeme? (l ++ (v ++ x)) = some (k, l)) :
    lexeme? (l ++ (v ++ y)) = some (k, l) := by
  obtain ⟨⟨L, hl⟩, hbegins, hmax⟩ := lexeme?_eq_some_iff.mp h
  have hlongest : IsLongest (fun m => ∃ M j, Word M m j) (l ++ (v ++ x)) (some l) :=
    ⟨⟨L, k, hl⟩, hbegins, fun m ⟨M, j, hm⟩ hm' => hmax M m j hm hm'⟩
  obtain ⟨_, hbegins', hmax'⟩ := hlongest.cut hy fun m ⟨M, j, hm⟩ =>
    hl.not_isBlank_of_append hm
  exact lexeme?_eq_some_iff.mpr ⟨⟨L, hl⟩, hbegins', fun M m j hm => hmax' m ⟨M, j, hm⟩⟩

theorem identifier?_cut (h : identifier? (l ++ (v ++ x)) = some l) :
    identifier? (l ++ (v ++ y)) = some l := by
  have hlongest := isLongest_identifier (l ++ (v ++ x))
  rw [h] at hlongest
  have hcut := hlongest.cut hy fun m ⟨c, body, mark, heq, hname⟩ d hd =>
    hname.not_isBlank d (heq ▸ List.mem_append_right l hd)
  exact hcut.unique (isLongest_identifier _)

/-! ## Attribute names in front of white space -/

omit hy in
theorem setterName_of_head {name cs : List Char} (h : cs.head? ≠ some '=') :
    setterName name cs = name := by
  cases cs with
  | nil =>
      unfold setterName
      split <;> simp_all
  | cons c cs => exact setterName_of_ne (fun hc => h (congrArg some hc)) name cs

omit hy in
theorem setterName_eq_self_iff {name cs : List Char} : setterName name ('=' :: cs) = name ↔
    name.getLast? = some '?' ∨ name.getLast? = some '!' ∨ operatorFollows cs = false := by
  by_cases hmark : name.getLast? = some '?' ∨ name.getLast? = some '!'
  · rcases hmark with hmark | hmark
    all_goals simp [setterName, hmark]
  · rw [not_or] at hmark
    cases hcs : operatorFollows cs with
    | true => simp [setterName_equals hmark.1 hmark.2 hcs, hmark]
    | false =>
        unfold setterName
        split <;> simp_all

/-- The operators that an attribute may have as its name, if `cs` stands behind the third character.
-/
def attributeNames (cs : List Char) : List (List Char) :=
  operatorNames.filter fun n => n != ['[', ']', '='] || operatorFollows cs

omit hy in
theorem methodName?_of_not_isNameStart {c : Char} (hc : isNameStart c = false) (cs : List Char) :
    methodName? (c :: cs) = operatorName? (attributeNames ((c :: cs).drop 3)) (c :: cs) := by
  rw [methodName?, identifier?_eq_none hc]
  rfl

omit hy in
theorem mem_attributeNames_iff {cs m : List Char} : m ∈ attributeNames cs ↔
    m ∈ operatorNames ∧ (m = ['[', ']', '='] → operatorFollows cs = true) := by
  simp [attributeNames, List.mem_filter, imp_iff_not_or]

theorem isLongest_operatorName_cut
    (h : operatorName? (attributeNames ((l ++ (v ++ x)).drop 3)) (l ++ (v ++ x)) = some l)
    (hop : operatorFollows (v ++ x) = true → operatorFollows (v ++ y) = true)
    (hset : ∀ w, v = '=' :: w → operatorFollows (w ++ y) = true →
      operatorFollows (w ++ x) = true) :
    IsLongest (· ∈ attributeNames ((l ++ (v ++ y)).drop 3)) (l ++ (v ++ y)) (some l) := by
  have hindex : ∀ m ∈ operatorNames, m <+: ['[', ']', '='] → m = ['[', ']'] ∨ m = ['[', ']', '='] :=
    by decide
  have hlongest :
      IsLongest (· ∈ attributeNames ((l ++ (v ++ x)).drop 3)) (l ++ (v ++ x)) (some l) :=
    h ▸ isLongest_operatorName _
  obtain ⟨hl, hbegins, hmax⟩ := hlongest.cut hy fun m hm c hc =>
    not_isBlank_of_mem_operatorNames (mem_attributeNames_iff.mp hm).1 c (List.mem_append_right _ hc)
  obtain ⟨hmem, hfollows⟩ := mem_attributeNames_iff.mp hl
  refine ⟨mem_attributeNames_iff.mpr ⟨hmem, ?_⟩, hbegins, fun m hm hm' => ?_⟩
  · rintro rfl
    exact hop (hfollows rfl)
  obtain ⟨hmem', hfollows'⟩ := mem_attributeNames_iff.mp hm
  by_cases hset' : m = ['[', ']', '=']
  · subst hset'
    rcases List.prefix_or_prefix_of_prefix hbegins hm' with hle | hle
    · rcases hindex l hmem hle with rfl | rfl
      · -- the equals sign stands in front of the cut, and was no part of the name there
        obtain ⟨w, rfl⟩ : ∃ w, v = '=' :: w := by
          cases v with
          | nil =>
              obtain ⟨rest, heq⟩ := hm'
              cases heq
              cases hy '=' rfl
          | cons d w =>
              obtain ⟨rest, heq⟩ := hm'
              cases heq
              exact ⟨w, rfl⟩
        have hfollows : operatorFollows (w ++ x) = true := hset w rfl (hfollows' rfl)
        exact hmax _ (mem_attributeNames_iff.mpr ⟨hmem', fun _ => hfollows⟩) hm'
      · exact Nat.le_refl _
    · exact hle.length_le
  · exact hmax m (mem_attributeNames_iff.mpr ⟨hmem', fun heq => absurd heq hset'⟩) hm'

/-- Whether an equals sign belongs to a name may depend on what follows the cut. The hypotheses say
that it does not. -/
theorem methodName?_cut (h : methodName? (l ++ (v ++ x)) = some l)
    (hop : operatorFollows (v ++ x) = true → operatorFollows (v ++ y) = true)
    (hset : ∀ w, v = '=' :: w → operatorFollows (w ++ y) = true →
      operatorFollows (w ++ x) = true) :
    methodName? (l ++ (v ++ y)) = some l := by
  rcases methodName?_eq_some h with hl | ⟨name, rest, hname, heq, rfl, hquestion, hexclamation⟩ |
    ⟨hmem, _⟩
  · have hsetter := methodName?_of_identifier? hl
    rw [h, Option.some.injEq] at hsetter
    rw [methodName?_of_identifier? (identifier?_cut hy hl), Option.some.injEq]
    cases v with
    | nil =>
        refine setterName_of_head fun hequals => ?_
        cases hy '=' hequals
    | cons d w =>
        rw [List.cons_append] at hsetter ⊢
        by_cases hd : d = '='
        · subst hd
          rw [eq_comm, setterName_eq_self_iff] at hsetter
          rw [setterName_eq_self_iff]
          refine hsetter.imp_right (Or.imp_right fun hx => ?_)
          exact Bool.eq_false_iff.mpr fun hfollows => by simp [hset w rfl hfollows] at hx
        · exact setterName_of_ne hd l _
  · rw [List.append_assoc, List.append_cancel_left_eq, List.singleton_append,
      List.cons.injEq] at heq
    obtain ⟨_, rfl⟩ := heq
    have hsplit (cs : List Char) : name ++ ['='] ++ cs = name ++ ('=' :: cs) := by simp
    rw [hsplit] at h hname ⊢
    have hname' : identifier? (name ++ '=' :: (v ++ y)) = some name :=
      identifier?_cut hy (v := '=' :: v) hname
    rw [methodName?_of_identifier? hname, Option.some.injEq] at h
    have hfollows : operatorFollows (v ++ x) = true := by
      by_contra hnot
      rw [setterName_eq_self_iff.mpr (.inr (.inr (Bool.eq_false_iff.mpr hnot)))] at h
      simp at h
    rw [methodName?_of_identifier? hname', setterName_equals hquestion hexclamation (hop hfollows)]
  · obtain ⟨c, tail, _, rfl, _, _, hc⟩ := begins_of_mem_operatorNames hmem (List.prefix_refl _)
    simp only [Bool.and_eq_true, Bool.not_eq_true'] at hc
    have hmethod (cs : List Char) : methodName? (c :: tail ++ cs) =
        operatorName? (attributeNames ((c :: tail ++ cs).drop 3)) (c :: tail ++ cs) := by
      rw [List.cons_append, methodName?_of_not_isNameStart hc.1]
    rw [hmethod] at h ⊢
    exact (isLongest_operatorName_cut hy h hop hset).unique (isLongest_operatorName _)

omit hy in
theorem methodName?_eq_none_iff {cs : List Char} : methodName? cs = none ↔
    identifier? cs = none ∧ ∀ m ∈ operatorNames, ¬ m <+: cs := by
  have hlonger {α : Type} {size : α → Nat} {x? y? : Option α} :
      longer size x? y? = none ↔ x? = none ∧ y? = none := by
    cases x? <;> cases y? <;> simp only [longer] <;> try simp
    split <;> simp
  change longer List.length _ (operatorName? (attributeNames (cs.drop 3)) cs) = none ↔ _
  rw [hlonger, Option.map_eq_none_iff]
  refine and_congr_right fun _ => ?_
  have hlongest : IsLongest (· ∈ attributeNames (cs.drop 3)) cs
      (operatorName? (attributeNames (cs.drop 3)) cs) := isLongest_operatorName cs
  constructor
  · intro hnone m hm hbegins
    rw [hnone] at hlongest
    by_cases hset : m = ['[', ']', '=']
    · subst hset
      have hindex : ['[', ']'] ∈ attributeNames (cs.drop 3) :=
        mem_attributeNames_iff.mpr ⟨by decide, by simp⟩
      exact hlongest _ hindex (List.IsPrefix.trans ⟨['='], rfl⟩ hbegins)
    · exact hlongest m (mem_attributeNames_iff.mpr ⟨hm, fun heq => absurd heq hset⟩) hbegins
  · intro hall
    cases h : operatorName? (attributeNames (cs.drop 3)) cs with
    | none => rfl
    | some m =>
        obtain ⟨hm, hbegins⟩ := operatorName?_eq_some h
        exact absurd hbegins (hall m (mem_attributeNames_iff.mp hm).1)

theorem methodName?_eq_none_cut (hl : l ≠ []) (h : methodName? (l ++ (v ++ x)) = none) :
    methodName? (l ++ (v ++ y)) = none := by
  obtain ⟨hidentifier, hnames⟩ := methodName?_eq_none_iff.mp h
  refine methodName?_eq_none_iff.mpr ⟨?_, fun m hm hbegins => hnames m hm ?_⟩
  · obtain ⟨c, tail, rfl⟩ := List.exists_cons_of_ne_nil hl
    apply identifier?_eq_none
    by_contra hc
    rw [Bool.not_eq_false] at hc
    simp [identifier?, hc] at hidentifier
  · rw [← List.append_assoc] at hbegins ⊢
    exact (prefix_of_cut hy (not_isBlank_of_mem_operatorNames hm) hbegins).trans
      (List.prefix_append _ x)

theorem scan?_cut {request : Cursor.Request} {k : Kind}
    (h : scan? request (l ++ (v ++ x)) = some (k, l))
    (hop : k = .methodName → operatorFollows (v ++ x) = true → operatorFollows (v ++ y) = true)
    (hset : k = .methodName → ∀ w, v = '=' :: w → operatorFollows (w ++ y) = true →
      operatorFollows (w ++ x) = true) :
    scan? request (l ++ (v ++ y)) = some (k, l) := by
  cases request with
  | token => exact lexeme?_cut hy h
  | name =>
      cases hname : methodName? (l ++ (v ++ x)) with
      | some name =>
          simp only [scan?, hname, Option.some.injEq, Prod.mk.injEq] at h
          obtain ⟨rfl, rfl⟩ := h
          simp only [scan?, methodName?_cut hy hname (hop rfl) (hset rfl)]
      | none =>
          simp only [scan?, hname] at h
          simp only [scan?, methodName?_eq_none_cut hy (begins_lexeme h).ne_nil hname,
            lexeme?_cut hy h]

end

end Token

/-! ## Tilings in front of white space -/

open Token (isBlank)

/-- The name of an attribute. -/
def Terminal.IsName (t : Terminal) : Prop := t.request = .name ∧ t.kind = .methodName

/-- Behind a name and behind an equals sign, a token is asked for in the regular way. -/
def Terminal.Settled (t u : Terminal) : Prop := t.IsName ∨ t.kind = .equals → u.request = .token

namespace Tiles

theorem exists_append {cs rest : List Char} {ts : List Terminal} (h : Tiles cs ts rest) :
    ∃ w, cs = w ++ rest := by
  induction h with
  | nil rest => exact ⟨[], rfl⟩
  | @cons blanks behind rest t ts _ _ _ ih =>
      obtain ⟨w, rfl⟩ := ih
      exact ⟨blanks ++ (t.lexeme ++ w), by simp⟩

/-- The end of a name may depend on what follows the cut, if it is the last terminal or the last but
one in front of an equals sign. -/
structure EndsBefore (ts : List Terminal) (cs : List Char) : Prop where
  name : ∀ t, [t] <:+ ts → t.IsName → Token.operatorFollows cs = true
  equals : ∀ t u, [t, u] <:+ ts → t.IsName → u.kind = .equals → Token.operatorFollows cs = false

theorem EndsBefore.tail {t : Terminal} {ts : List Terminal} {cs : List Char}
    (h : EndsBefore (t :: ts) cs) : EndsBefore ts cs where
  name u hu := h.name u (hu.trans (List.suffix_cons t ts))
  equals u v huv := h.equals u v (huv.trans (List.suffix_cons t ts))

theorem uncons_equals {cs rest : List Char} {u : Terminal} {us : List Terminal}
    (h : Tiles ('=' :: cs) (u :: us) rest) (hu : u.request = .token) :
    u.kind = .equals ∧ Tiles cs us rest := by
  have hequals : Tiles ('=' :: cs) [⟨.token, .equals, ['=']⟩] cs :=
    .of_lexeme? (Token.lexeme?_of_isFree (l := ['=']) (by decide) rfl cs)
  obtain ⟨rfl, hus⟩ := h.head_unique hequals hu
  exact ⟨rfl, hus⟩

section

variable {t : Terminal} {ts : List Terminal} {v x y : List Char}
  (hname : t.IsName) (hsettled : (t :: ts).IsChain Terminal.Settled)
  (hends : EndsBefore (t :: ts) y)

include hname hsettled hends

/-- What the name of a setter needs behind it is still there. -/
theorem operatorFollows_cut (hx : Tiles (v ++ x) ts x) (hy : Tiles (v ++ y) ts y)
    (h : Token.operatorFollows (v ++ x) = true) : Token.operatorFollows (v ++ y) = true := by
  cases ts with
  | nil =>
      obtain rfl : v = [] := by simpa using nil_iff.mp hx
      exact hends.name t (List.suffix_refl _) hname
  | cons u us =>
      have hu := (List.isChain_cons_cons.mp hsettled).1 (.inl hname)
      rw [Token.operatorFollows_of_tiles hx hu] at h
      rw [Token.operatorFollows_of_tiles hy hu, h]

/-- No name takes up an equals sign that stood behind it. -/
theorem operatorFollows_of_cut (hx : Tiles ('=' :: (v ++ x)) ts x)
    (hy : Tiles ('=' :: (v ++ y)) ts y)
    (h : Token.operatorFollows (v ++ y) = true) : Token.operatorFollows (v ++ x) = true := by
  cases ts with
  | nil =>
      have hlength := congrArg List.length (nil_iff.mp hx)
      simp only [List.length_append, List.length_cons] at hlength
      omega
  | cons u us =>
      obtain ⟨hadjacent, hsettled'⟩ := List.isChain_cons_cons.mp hsettled
      have hu := hadjacent (.inl hname)
      obtain ⟨hequals, hus⟩ := hx.uncons_equals hu
      obtain ⟨_, hus'⟩ := hy.uncons_equals hu
      cases us with
      | nil =>
          obtain rfl : v = [] := by simpa using nil_iff.mp hus
          have hfalse := hends.equals t u (List.suffix_refl _) hname hequals
          rw [List.nil_append, hfalse] at h
          cases h
      | cons w ws =>
          have hw := (List.isChain_cons_cons.mp hsettled').1 (.inr hequals)
          rw [Token.operatorFollows_of_tiles hus' hw] at h
          rw [Token.operatorFollows_of_tiles hus hw, h]

end

/-- A text that is tiled up to a cut is tiled in the same way if it ends there or goes on with white
space. -/
theorem cut {w x y : List Char} {ts : List Terminal} (h : Tiles (w ++ x) ts x)
    (hy : ∀ c ∈ y.head?, isBlank c = true) (hsettled : ts.IsChain Terminal.Settled)
    (hends : EndsBefore ts y) :
    Tiles (w ++ y) ts y := by
  induction ts generalizing w with
  | nil =>
      obtain rfl : w = [] := by simpa using nil_iff.mp h
      exact .nil _
  | cons t ts ih =>
      obtain ⟨behind, hread, htail⟩ := cons_iff.mp h
      obtain ⟨v, rfl⟩ := htail.exists_append
      obtain ⟨_, blanks, hblank, heq, hscan⟩ := Terminal.read?_eq_some_iff.mp hread
      obtain rfl : w = blanks ++ (t.lexeme ++ v) := by
        rw [← List.append_assoc, ← List.append_assoc, List.append_cancel_right_eq] at heq
        rw [heq, List.append_assoc]
      have hcut : Tiles (v ++ y) ts y := ih htail hsettled.tail hends.tail
      have hname (hk : t.kind = .methodName) : t.IsName := by
        refine ⟨?_, hk⟩
        cases hrequest : t.request with
        | name => rfl
        | token => exact absurd hk (Terminal.kind_of_read? hread hrequest)
      have hscan' : Token.scan? t.request (t.lexeme ++ (v ++ y)) = some (t.kind, t.lexeme) := by
        refine Token.scan?_cut hy hscan (fun hk => ?_) fun hk v' hv' => ?_
        · exact operatorFollows_cut (hname hk) hsettled hends htail hcut
        · subst hv'
          exact operatorFollows_of_cut (hname hk) hsettled hends htail hcut
      simpa using Tiles.cons hblank hscan' hcut

end Tiles

end TreePattern
