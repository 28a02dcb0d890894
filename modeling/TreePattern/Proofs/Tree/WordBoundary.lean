import TreePattern.Proofs.Token.Start
import TreePattern.Tree.ClassName

/-! Where the words of a class name begin. Main statement: `ClassName.underscore_marks_words` — two
replacements, one after the other, set an underscore before exactly those capitals that begin a
word, which is seen from the characters next to them. -/

namespace TreePattern.ClassName

open Unicode (isDecimalDigit)

/-! ## Replacing from left to right -/

/-- Whether a text begins with a match. -/
def StartsMatch (Match : List Char → List Char → Prop) (text : List Char) : Prop :=
  ∃ found new, Match found new ∧ found <+: text

/-- `out` is `text` with its matches replaced, from left to right, each of them behind the end of
the one before. `Match found new` says that `found` is a match and that `new` stands for it. -/
inductive Replaced (Match : List Char → List Char → Prop) : (text out : List Char) → Prop where
  | nil : Replaced Match [] []
  | keep {c text out} (h : ¬ StartsMatch Match (c :: text)) :
      Replaced Match text out → Replaced Match (c :: text) (c :: out)
  | replace {found new text out} (h : Match found new) :
      Replaced Match text out → Replaced Match (found ++ text) (new ++ out)

/-- A function that replaces the matches of a text. -/
structure Replaces (Match : List Char → List Char → Prop) (f : List Char → List Char) : Prop where
  ne_nil {found new} : Match found new → found ≠ []
  nil : f [] = []
  keep {c text} : ¬ StartsMatch Match (c :: text) → f (c :: text) = c :: f text
  replace {found new} (text) : Match found new → f (found ++ text) = new ++ f text

section

variable {Match : List Char → List Char → Prop} {f : List Char → List Char}

/-- Every text can be replaced, since a match is never empty. -/
theorem Replaces.replaced (h : Replaces Match f) (text : List Char) :
    Replaced Match text (f text) := by
  induction hn : text.length using Nat.strongRecOn generalizing text with
  | ind n ih =>
      cases text with
      | nil =>
          rw [h.nil]
          exact .nil
      | cons c text =>
          by_cases hstart : StartsMatch Match (c :: text)
          · obtain ⟨found, new, hmatch, rest, hrest⟩ := hstart
            have hlength := congrArg List.length hrest
            rw [List.length_append] at hlength
            have hpos := List.length_pos_iff.mpr (h.ne_nil hmatch)
            rw [← hrest, h.replace rest hmatch]
            exact .replace hmatch (ih rest.length (by omega) rest rfl)
          · rw [h.keep hstart]
            rw [List.length_cons] at hn
            exact .keep hstart (ih text.length (by omega) text rfl)

theorem Replaces.replaced_iff (h : Replaces Match f) {text out : List Char} :
    Replaced Match text out ↔ out = f text := by
  constructor
  · intro hout
    induction hout with
    | nil => exact h.nil.symm
    | keep hstart _ ih => rw [h.keep hstart, ih]
    | replace hmatch _ ih => rw [h.replace _ hmatch, ih]
  · rintro rfl
    exact h.replaced text

end

/-! ## What is replaced -/

/-- Two colons, for which a slash stands. -/
inductive ColonPair : List Char → List Char → Prop where
  | intro : ColonPair [':', ':'] ['/']

/-- Capitals that touch a capitalised word, and that word's beginning. -/
inductive AcronymEnd : List Char → List Char → Prop where
  | intro {run c d} (hne : run ≠ []) (hrun : ∀ b ∈ run, b.isUpper = true) (hc : c.isUpper = true)
      (hd : d.isLower = true) : AcronymEnd (run ++ [c, d]) (run ++ ['_', c, d])

/-- A small letter or a digit, and the capital that it touches. -/
inductive WordEnd : List Char → List Char → Prop where
  | intro {b c} (hb : b.isLower = true ∨ isDecimalDigit b = true) (hc : c.isUpper = true) :
      WordEnd [b, c] [b, '_', c]

theorem replaces_slashes : Replaces ColonPair slashes where
  ne_nil := by
    rintro _ _ ⟨⟩
    exact List.cons_ne_nil _ _
  nil := rfl
  keep {c text} h := by
    rw [slashes]
    rintro rest rfl rfl
    exact h ⟨_, _, .intro, List.prefix_append [':', ':'] rest⟩
  replace := by
    rintro _ _ text ⟨⟩
    rfl

/-! ## Setting neighbours apart -/

/-- Sets an underscore between two neighbours where the rule holds of them and of the text behind
them. -/
def setApart (rule : Char → Char → List Char → Bool) : List Char → List Char
  | b :: c :: cs =>
    if rule b c cs then b :: '_' :: setApart rule (c :: cs) else b :: setApart rule (c :: cs)
  | cs => cs

/-- Whether a capital and the one behind it belong to different words, since a small letter follows
both. -/
def endsAcronym (b c : Char) (cs : List Char) : Bool :=
  b.isUpper && c.isUpper && cs.head?.any Char.isLower

/-- Whether a capital follows a small letter or a digit. -/
def endsWord (b c : Char) (_ : List Char) : Bool := (b.isLower || isDecimalDigit b) && c.isUpper

def endsAcronymOrWord (b c : Char) (cs : List Char) : Bool := endsAcronym b c cs || endsWord b c cs

theorem not_isLower_of_isUpper {c : Char} (h : c.isUpper = true) : c.isLower = false := by
  rw [Bool.eq_false_iff, ne_eq, Token.isLower_iff]
  have hbounds := Token.isUpper_iff.mp h
  omega

theorem not_isDecimalDigit_of_isUpper {c : Char} (h : c.isUpper = true) :
    isDecimalDigit c = false := by
  have hzeros : ∀ z ∈ Unicode.decimalZeros, z + 9 < 65 ∨ 90 < z := by decide
  have hbounds := Token.isUpper_iff.mp h
  rw [Bool.eq_false_iff, ne_eq, Unicode.isDecimalDigit_iff]
  rintro ⟨z, hz, hlow, hhigh⟩
  have hzero := hzeros z hz
  omega

section

variable {rule : Char → Char → List Char → Bool} {b c d : Char} {cs run : List Char}

theorem setApart_of_rule (h : rule b c cs = true) :
    setApart rule (b :: c :: cs) = b :: '_' :: setApart rule (c :: cs) := by
  rw [setApart, if_pos h]

theorem setApart_of_not_rule (h : rule b c cs = false) :
    setApart rule (b :: c :: cs) = b :: setApart rule (c :: cs) := by
  rw [setApart, h, if_neg Bool.false_ne_true]

theorem setApart_of_forall (h : ∀ c rest, rule b c rest = false) :
    setApart rule (b :: cs) = b :: setApart rule cs := by
  cases cs with
  | nil => rfl
  | cons c rest => exact setApart_of_not_rule (h c rest)

theorem exists_setApart_cons (rule : Char → Char → List Char → Bool) (c : Char) (cs : List Char) :
    ∃ out, setApart rule (c :: cs) = c :: out := by
  cases cs with
  | nil => exact ⟨[], rfl⟩
  | cons d cs =>
      rw [setApart]
      split
      · exact ⟨_, rfl⟩
      · exact ⟨_, rfl⟩

/-- A rule that sees the beginning of each match computes the replacement if it does so on the
matches themselves. -/
theorem replaces_setApart {Match : List Char → List Char → Prop}
    (hne : ∀ {found new}, Match found new → found ≠ [])
    (hrule : ∀ b c cs, rule b c cs = true → StartsMatch Match (b :: c :: cs))
    (hmatch : ∀ {found new} text, Match found new →
      setApart rule (found ++ text) = new ++ setApart rule text) :
    Replaces Match (setApart rule) where
  ne_nil := hne
  nil := rfl
  keep {b text} h := by
    cases text with
    | nil => rfl
    | cons c cs =>
        exact setApart_of_not_rule (Bool.eq_false_iff.mpr fun htrue => h (hrule b c cs htrue))
  replace := hmatch

/-! ## Small letters and digits before capitals -/

theorem splitWords_eq (cs : List Char) : splitWords cs = setApart endsWord cs := by
  fun_induction splitWords cs with
  | case1 => rfl
  | case2 c => rfl
  | case3 b c cs h ih => rw [setApart_of_rule h, ih]
  | case4 b c cs h ih => rw [setApart_of_not_rule (Bool.eq_false_iff.mpr h), ih]

theorem replaces_splitWords : Replaces WordEnd splitWords := by
  rw [funext splitWords_eq]
  refine replaces_setApart ?_ ?_ ?_
  · intro found new h
    cases h with
    | intro hb hc => exact List.cons_ne_nil _ _
  · intro b c cs h
    simp only [endsWord, Bool.and_eq_true, Bool.or_eq_true] at h
    exact ⟨_, _, .intro h.1 h.2, List.prefix_append [b, c] cs⟩
  · intro found new text h
    cases h with
    | @intro b c hb hc =>
        have hword : endsWord b c text = true := by simp [endsWord, hb, hc]
        have hcapital (d : Char) (rest : List Char) : endsWord c d rest = false := by
          simp [endsWord, not_isLower_of_isUpper hc, not_isDecimalDigit_of_isUpper hc]
        rw [List.cons_append, List.singleton_append, setApart_of_rule hword,
          setApart_of_forall hcapital]
        rfl

/-! ## Runs of capitals -/

theorem setApart_of_not_isUpper (hb : b.isUpper = false) :
    setApart endsAcronym (b :: cs) = b :: setApart endsAcronym cs :=
  setApart_of_forall fun c rest => by rw [endsAcronym, hb]; rfl

theorem setApart_of_head (hc : c.isUpper = false) :
    setApart endsAcronym (b :: c :: cs) = b :: c :: setApart endsAcronym cs := by
  have hrule : endsAcronym b c cs = false := by simp [endsAcronym, hc]
  rw [setApart_of_not_rule hrule, setApart_of_not_isUpper hc]

/-- No underscore comes between two characters in front of a capital or at the end. -/
theorem setApart_of_isUpper (hcs : ∀ d ∈ cs.head?, d.isUpper = true) :
    setApart endsAcronym (b :: c :: cs) = b :: setApart endsAcronym (c :: cs) := by
  apply setApart_of_not_rule
  cases cs with
  | nil => simp [endsAcronym]
  | cons d cs => simp [endsAcronym, not_isLower_of_isUpper (hcs d rfl)]

theorem setApart_of_forall_isUpper (hrun : ∀ b ∈ run, b.isUpper = true) :
    setApart endsAcronym run = run := by
  induction run with
  | nil => rfl
  | cons b run ih =>
      have hrest := ih fun c hc => hrun c (List.mem_cons_of_mem b hc)
      cases run with
      | nil => rfl
      | cons c run =>
          rw [setApart_of_isUpper, hrest]
          intro d hd
          exact hrun d (by simp [List.mem_of_mem_head? hd])

/-- Behind capitals the last one is set apart from the others if a small letter follows, by
induction on the others. -/
theorem setApart_run (hne : run ≠ []) (hrun : ∀ b ∈ run, b.isUpper = true) (hc : c.isUpper = true)
    (hd : d.isUpper = false) : setApart endsAcronym (run ++ c :: d :: cs) =
      run ++ (if d.isLower then ['_', c, d] else [c, d]) ++ setApart endsAcronym cs := by
  induction run with
  | nil => exact absurd rfl hne
  | cons b run ih =>
      rw [List.forall_mem_cons] at hrun
      cases run with
      | nil =>
          have hrule : endsAcronym b c (d :: cs) = d.isLower := by simp [endsAcronym, hrun.1, hc]
          rw [List.singleton_append, setApart, hrule, setApart_of_head hd]
          split
          · rfl
          · rfl
      | cons b' run =>
          rw [List.cons_append, List.cons_append, setApart_of_isUpper, ← List.cons_append,
            ih (List.cons_ne_nil _ _) hrun.2]
          · rfl
          · cases run with
            | nil => simpa using hc
            | cons b'' run => simpa using hrun.2 b'' (by simp)

/-- The capitals that were just read stand in front of the rest of the text, by induction on it. -/
theorem splitAcronyms_eq_of_run (hrun : ∀ b ∈ run, b.isUpper = true) :
    splitAcronyms run cs = setApart endsAcronym (run.reverse ++ cs) := by
  have hreverse : ∀ b ∈ run.reverse, b.isUpper = true := fun b hb => hrun b (List.mem_reverse.mp hb)
  fun_induction splitAcronyms run cs with
  | case1 run => rw [List.append_nil, setApart_of_forall_isUpper hreverse]
  | case2 run c cs hc ih =>
      have hmore : ∀ b ∈ c :: run, b.isUpper = true := List.forall_mem_cons.mpr ⟨hc, hrun⟩
      rw [ih hmore fun b hb => hmore b (List.mem_reverse.mp hb), List.reverse_cons,
        List.append_assoc, List.singleton_append]
  | case3 c cs hc last second more ih =>
      have hfront : (last :: second :: more).reverse ++ c :: cs =
          (second :: more).reverse ++ last :: c :: cs := by
        rw [List.reverse_cons, List.append_assoc, List.singleton_append]
      have hcapitals : ∀ b ∈ (second :: more).reverse, b.isUpper = true := fun b hb =>
        hrun b (List.mem_cons_of_mem last (List.mem_reverse.mp hb))
      rw [hfront, setApart_run (by simp) hcapitals (hrun last List.mem_cons_self)
        (Bool.eq_false_iff.mpr hc), ih (by simp) (by simp)]
      by_cases hlower : c.isLower = true
      · simp [hlower]
      · simp [hlower]
  | case4 run c cs hc hmore ih =>
      have hrest := ih (by simp) (by simp)
      rw [hrest]
      match run, hmore with
      | [], _ => exact (setApart_of_not_isUpper (Bool.eq_false_iff.mpr hc)).symm
      | [last], _ => exact (setApart_of_head (Bool.eq_false_iff.mpr hc)).symm
      | last :: second :: more, hmore => exact absurd rfl (hmore last second more)

theorem splitAcronyms_eq (cs : List Char) : splitAcronyms [] cs = setApart endsAcronym cs :=
  splitAcronyms_eq_of_run (List.forall_mem_nil _)

theorem replaces_splitAcronyms : Replaces AcronymEnd (splitAcronyms []) := by
  rw [funext splitAcronyms_eq]
  refine replaces_setApart ?_ ?_ ?_
  · intro found new h
    cases h with
    | intro hne hrun hc hd => exact List.append_ne_nil_of_left_ne_nil hne _
  · intro b c cs h
    simp only [endsAcronym, Bool.and_eq_true] at h
    cases cs with
    | nil => exact absurd h.2 (by simp)
    | cons d cs =>
        refine ⟨[b] ++ [c, d], _, .intro (List.cons_ne_nil b []) ?_ h.1.2 h.2, ?_⟩
        · simpa using h.1.1
        · exact List.prefix_append [b, c, d] cs
  · intro found new text h
    cases h with
    | @intro run c d hne hrun hc hd =>
        have hsmall : d.isUpper = false := by
          rw [Bool.eq_false_iff]
          exact fun hcapital => absurd (not_isLower_of_isUpper hcapital) (by simp [hd])
        rw [List.append_assoc, List.cons_append, List.cons_append, List.nil_append,
          setApart_run hne hrun hc hsmall, if_pos hd]

/-! ## Both passes -/

/-- An underscore that the first pass sets is no place for the second one, which sees the same
neighbours everywhere else. -/
theorem setApart_setApart (cs : List Char) :
    setApart endsWord (setApart endsAcronym cs) = setApart endsAcronymOrWord cs := by
  have hunderscore (c : Char) (rest : List Char) : endsWord '_' c rest = false := by
    have hdigit : isDecimalDigit '_' = false := by decide
    rw [endsWord, hdigit]
    rfl
  fun_induction setApart endsAcronymOrWord cs with
  | case1 b c cs h ih =>
      obtain ⟨out, hout⟩ := exists_setApart_cons endsAcronym c cs
      by_cases hacronym : endsAcronym b c cs = true
      · -- The second pass meets the new underscore on either side of it.
        have hbefore : endsWord b '_' (c :: out) = false := by simp [endsWord]
        rw [setApart_of_rule hacronym, ← ih, hout, setApart_of_not_rule hbefore,
          setApart_of_forall hunderscore]
      · have hword : endsWord b c out = true := by
          have hboth : (endsAcronym b c cs || endsWord b c out) = true := h
          simpa [hacronym] using hboth
        rw [setApart_of_not_rule (Bool.eq_false_iff.mpr hacronym), ← ih, hout,
          setApart_of_rule hword]
  | case2 b c cs h ih =>
      obtain ⟨out, hout⟩ := exists_setApart_cons endsAcronym c cs
      have hneither : (endsAcronym b c cs || endsWord b c out) = false := Bool.eq_false_iff.mpr h
      obtain ⟨hacronym, hword⟩ := Bool.or_eq_false_iff.mp hneither
      rw [setApart_of_not_rule hacronym, ← ih, hout, setApart_of_not_rule hword]
  | case3 cs hcs =>
      match cs, hcs with
      | [], _ => rfl
      | [b], _ => rfl
      | b :: c :: cs, hcs => exact absurd rfl (hcs b c cs)

theorem underscore_eq (name : List Char) :
    underscore name = Unicode.lowercase ((setApart endsAcronymOrWord (slashes name)).map fun c =>
      if c = '-' then '_' else c) := by
  rw [underscore, splitAcronyms_eq, splitWords_eq, setApart_setApart]

/-! ## The beginnings of words -/

/-- Whether the character at a place is a capital that begins a word: behind a small letter or a
digit, or behind a capital and before a small letter. -/
def BeginsWord (text : List Char) (i : Nat) : Prop :=
  0 < i ∧ text[i]?.any Char.isUpper ∧
    (text[i - 1]?.any (fun b => b.isLower || isDecimalDigit b) ∨
      text[i - 1]?.any Char.isUpper ∧ text[i + 1]?.any Char.isLower)

instance (text : List Char) (i : Nat) : Decidable (BeginsWord text i) :=
  inferInstanceAs (Decidable (_ ∧ _))

/-- A text with an underscore before each character that begins a word. -/
def wordsApart (text : List Char) : List Char :=
  (text.mapIdx fun i c => if BeginsWord text i then ['_', c] else [c]).flatten

theorem not_beginsWord_zero (text : List Char) : ¬ BeginsWord text 0 := fun h =>
  Nat.lt_irrefl 0 h.1

theorem beginsWord_one : BeginsWord (b :: c :: cs) 1 ↔ endsAcronymOrWord b c cs = true := by
  have hplaces : BeginsWord (b :: c :: cs) 1 ↔ c.isUpper = true ∧
      ((b.isLower || isDecimalDigit b) = true ∨
        b.isUpper = true ∧ cs.head?.any Char.isLower = true) := by
    simp [BeginsWord, List.head?_eq_getElem?]
  rw [hplaces, endsAcronymOrWord, endsAcronym, endsWord]
  simp only [Bool.or_eq_true, Bool.and_eq_true]
  tauto

theorem beginsWord_succ {i : Nat} : BeginsWord (b :: cs) (i + 2) ↔ BeginsWord cs (i + 1) := by
  simp [BeginsWord]

theorem setApart_cons_eq (b : Char) (cs : List Char) : setApart endsAcronymOrWord (b :: cs) =
    b :: (cs.mapIdx fun i c => if BeginsWord (b :: cs) (i + 1) then ['_', c] else [c]).flatten := by
  induction cs generalizing b with
  | nil => rfl
  | cons c cs ih =>
      rw [List.mapIdx_cons, setApart]
      simp only [beginsWord_one, beginsWord_succ, ih c, Nat.zero_add, List.flatten_cons]
      split
      · rfl
      · rfl

theorem setApart_eq_wordsApart (text : List Char) :
    setApart endsAcronymOrWord text = wordsApart text := by
  cases text with
  | nil => rfl
  | cons b cs =>
      rw [setApart_cons_eq, wordsApart, List.mapIdx_cons, if_neg (not_beginsWord_zero _)]
      rfl

end

/-- The snake case of a class name. Its pairs of colons become slashes, from left to right. Then an
underscore comes before each character that begins a word, which takes two replacements from left to
right, and the text with underscores for its dashes is lower-cased. -/
theorem underscore_marks_words (name : List Char) :
    (∀ text, Replaced ColonPair name text ↔ text = slashes name) ∧
      (∀ text, (∃ between, Replaced AcronymEnd (slashes name) between ∧
        Replaced WordEnd between text) ↔ text = wordsApart (slashes name)) ∧
      underscore name = Unicode.lowercase ((wordsApart (slashes name)).map fun c =>
        if c = '-' then '_' else c) := by
  refine ⟨fun text => replaces_slashes.replaced_iff, fun text => ?_, ?_⟩
  · simp only [replaces_splitAcronyms.replaced_iff, replaces_splitWords.replaced_iff,
      exists_eq_left, splitAcronyms_eq, splitWords_eq, setApart_setApart, setApart_eq_wordsApart]
  · rw [underscore_eq, setApart_eq_wordsApart]

example : wordsApart "HTTPServer2Go-On".toList = "HTTP_Server2_Go-On".toList := by decide

end TreePattern.ClassName
