import Mathlib.Data.List.Chain
import TreePattern.Proofs.Text.Escapes
import TreePattern.Unicode.Lowercase

/-! Lower-casing is settled after one pass. Main statement: `Unicode.lowercase_lowercase` — what
lower-casing yields is not changed by it, since no lower-case form is a letter that has one. The
letters and the forms of the tables are compared as the bits of two numbers. -/

namespace TreePattern.Unicode

/-! ## Texts, character by character -/

section

variable {d : Char} {before cs : List Char}

theorem lowercaseChar_cases (before : List Char) (c : Char) (after : List Char) :
    (∃ d, lowercaseChar before c after = [d]) ∨ lowercaseChar before c after = ['i', '\u0307'] := by
  unfold lowercaseChar
  split
  · exact .inl ⟨_, rfl⟩
  · split
    · exact .inr rfl
    · exact .inl ⟨_, rfl⟩

theorem mem_lowercaseAfter (hd : d ∈ lowercaseAfter before cs) :
    ∃ front c back, c ∈ cs ∧ d ∈ lowercaseChar front c back := by
  induction cs generalizing before with
  | nil => exact absurd hd List.not_mem_nil
  | cons c cs ih =>
      rw [lowercaseAfter, List.mem_append] at hd
      rcases hd with hd | hd
      · exact ⟨before, c, cs, List.mem_cons_self, hd⟩
      · obtain ⟨front, e, back, he, hd⟩ := ih hd
        exact ⟨front, e, back, List.mem_cons_of_mem c he, hd⟩

theorem head?_lowercaseAfter (hd : d ∈ (lowercaseAfter before cs).head?) :
    ∃ c ∈ cs.head?, ∃ front back, d ∈ lowercaseChar front c back := by
  cases cs with
  | nil => exact absurd hd (by simp [lowercaseAfter])
  | cons c cs =>
      have hne : lowercaseChar before c cs ≠ [] := by
        rcases lowercaseChar_cases before c cs with ⟨e, he⟩ | he
        · simp [he]
        · simp [he]
      rw [lowercaseAfter, List.head?_append_of_ne_nil _ hne] at hd
      exact ⟨c, rfl, before, cs, List.mem_of_mem_head? hd⟩

end

/-! ## Sets of characters as the bits of numbers -/

/-- The bits of the numbers `f x`, taken together. -/
def bitUnion {α : Type} (f : α → Nat) (xs : List α) : Nat := xs.foldr (fun x bits => f x ||| bits) 0

/-- The number that has the bits of a list. -/
def bitSet (ns : List Nat) : Nat := bitUnion (1 <<< ·) ns

theorem testBit_bitUnion {α : Type} {f : α → Nat} {x : α} {xs : List α} {n : Nat} (hx : x ∈ xs)
    (hn : (f x).testBit n = true) : (bitUnion f xs).testBit n = true := by
  induction xs with
  | nil => exact absurd hx List.not_mem_nil
  | cons y xs ih =>
      rw [bitUnion, List.foldr_cons, Nat.testBit_or, Bool.or_eq_true]
      rcases List.mem_cons.mp hx with rfl | hx
      · exact .inl hn
      · exact .inr (ih hx)

theorem testBit_bitSet {ns : List Nat} {n : Nat} (hn : n ∈ ns) : (bitSet ns).testBit n = true :=
  testBit_bitUnion hn (by simp)

/-! ## Runs of letters and their lower-case forms -/

namespace CaseRun

/-- How many letters a run has. -/
def count (r : CaseRun) : Nat := (r.last - r.first) / r.stride + 1

def letters (r : CaseRun) : List Nat := List.range' r.first r.count r.stride

/-- The lower-case forms of the letters of a run. -/
def forms (r : CaseRun) : List Nat := List.range' r.lower r.count r.stride

/-- The lower-case forms of a run are characters, none of which comes before the small letters. -/
def HasForms (r : CaseRun) : Prop :=
  'a'.toNat ≤ r.lower ∧ (r.lower + (r.last - r.first) < 0xD800 ∨
    0xDFFF < r.lower ∧ r.lower + (r.last - r.first) < 0x110000)

instance (r : CaseRun) : Decidable r.HasForms := inferInstanceAs (Decidable (_ ∧ _))

variable {r : CaseRun} {n : Nat}

theorem covers_iff :
    r.covers n = true ↔ r.first ≤ n ∧ n ≤ r.last ∧ (n - r.first) % r.stride = 0 := by
  simp [covers, and_assoc]

/-- One letter with one of its lower-case forms. -/
def single (letter form : Char) : CaseRun := ⟨letter.toNat, letter.toNat, 1, form.toNat⟩

theorem covers_single {letter form c : Char} :
    (single letter form).covers c.toNat = decide (c = letter) := by
  rw [Bool.eq_iff_iff, covers_iff, decide_eq_true_iff, ← Char.toNat_inj]
  constructor
  · rintro ⟨hfirst, hlast, -⟩
    exact Nat.le_antisymm hlast hfirst
  · intro h
    exact ⟨h.ge, h.le, Nat.mod_one _⟩

theorem exists_lt_count (hn : r.covers n = true) : ∃ i < r.count, n - r.first = r.stride * i := by
  obtain ⟨-, hlast, hstride⟩ := covers_iff.mp hn
  refine ⟨(n - r.first) / r.stride, ?_, ?_⟩
  · exact Nat.lt_succ_of_le (Nat.div_le_div_right (Nat.sub_le_sub_right hlast r.first))
  · exact (Nat.mul_div_cancel' (Nat.dvd_of_mod_eq_zero hstride)).symm

theorem mem_letters (hn : r.covers n = true) : n ∈ r.letters := by
  obtain ⟨i, hi, hstep⟩ := exists_lt_count hn
  have hfirst := (covers_iff.mp hn).1
  exact List.mem_range'.mpr ⟨i, hi, by omega⟩

theorem mem_forms (hn : r.covers n = true) : r.lower + (n - r.first) ∈ r.forms := by
  obtain ⟨i, hi, hstep⟩ := exists_lt_count hn
  exact List.mem_range'.mpr ⟨i, hi, by rw [hstep]⟩

theorem HasForms.toNat_ofNat (h : r.HasForms) (hn : r.covers n = true) :
    (Char.ofNat (r.lower + (n - r.first))).toNat = r.lower + (n - r.first) := by
  obtain ⟨hfirst, hlast, -⟩ := covers_iff.mp hn
  apply Quoted.toNat_ofNat_of_isValidChar
  rcases h.2 with hlow | hhigh
  · exact .inl (by omega)
  · exact .inr ⟨by omega, by omega⟩

end CaseRun

/-- The letters with one character for their lower-case form. -/
def letterRuns : List CaseRun := caseRuns ++ Revision.addedCaseRuns

/-- The capital sigma, whose form depends on its place, and the dotted capital I, whose form has two
characters. -/
def specialRuns : List CaseRun :=
  [.single '\u03A3' '\u03C2', .single '\u03A3' '\u03C3', .single '\u0130' 'i',
    .single '\u0130' '\u0307']

/-- The letters with a lower-case form. -/
def capitalRuns : List CaseRun := specialRuns ++ letterRuns

/-- The letters with a lower-case form, as bits. -/
def letterBits : Nat := bitUnion (bitSet ·.letters) capitalRuns

/-- The lower-case forms, as bits. -/
def formBits : Nat := bitUnion (bitSet ·.forms) capitalRuns

section

variable {r s : CaseRun} {n : Nat}

theorem testBit_letterBits (hr : r ∈ capitalRuns) (hn : r.covers n = true) :
    letterBits.testBit n = true :=
  testBit_bitUnion hr (testBit_bitSet (CaseRun.mem_letters hn))

theorem testBit_formBits (hr : r ∈ capitalRuns) (hn : r.covers n = true) :
    formBits.testBit (r.lower + (n - r.first)) = true :=
  testBit_bitUnion hr (testBit_bitSet (CaseRun.mem_forms hn))

/-- The forms are characters, and none of them is a letter with a form of its own. -/
theorem capitalRuns_settled :
    (∀ r ∈ capitalRuns, r.HasForms) ∧ letterBits &&& formBits = 0 := by
  -- The whole tables are evaluated. Run by run there would be thousands of pairs to compare.
  decide +kernel

theorem covers_form_eq_false (hr : r ∈ capitalRuns) (hs : s ∈ capitalRuns)
    (hn : r.covers n = true) : s.covers (r.lower + (n - r.first)) = false := by
  rw [Bool.eq_false_iff]
  intro hcovers
  have hboth := Nat.testBit_and letterBits formBits (r.lower + (n - r.first))
  rw [capitalRuns_settled.2, Nat.zero_testBit, testBit_letterBits hs hcovers,
    testBit_formBits hr hn] at hboth
  exact Bool.false_ne_true hboth

end

/-! ## Single characters -/

/-- Whether a character has a lower-case form other than itself. -/
def hasLower (c : Char) : Bool := capitalRuns.any (·.covers c.toNat)

/-- The lower-case form of a letter of some run. -/
def IsForm (d : Char) : Prop :=
  ∃ r ∈ capitalRuns, ∃ n, r.covers n = true ∧ d = .ofNat (r.lower + (n - r.first))

section

variable {c d : Char} {before after cs : List Char}

theorem hasLower_eq_false_iff : hasLower c = false ↔
    c ≠ '\u03A3' ∧ c ≠ '\u0130' ∧ ∀ r ∈ letterRuns, r.covers c.toNat = false := by
  simp [hasLower, capitalRuns, specialRuns, CaseRun.covers_single]

theorem IsForm.hasLower_eq_false (h : IsForm d) : hasLower d = false := by
  obtain ⟨r, hr, n, hn, rfl⟩ := h
  rw [hasLower, List.any_eq_false]
  intro s hs
  rw [(capitalRuns_settled.1 r hr).toNat_ofNat hn, covers_form_eq_false hr hs hn]
  exact Bool.false_ne_true

theorem IsForm.le_toNat (h : IsForm d) : 'a'.toNat ≤ d.toNat := by
  obtain ⟨r, hr, n, hn, rfl⟩ := h
  have hforms := capitalRuns_settled.1 r hr
  rw [hforms.toNat_ofNat hn]
  exact hforms.1.trans (Nat.le_add_right _ _)

theorem IsForm.of_single (h : CaseRun.single c d ∈ specialRuns) : IsForm d := by
  refine ⟨_, List.mem_append_left letterRuns h, c.toNat, by simp [CaseRun.covers_single], ?_⟩
  rw [CaseRun.single, Nat.sub_self, Nat.add_zero, Char.ofNat_toNat]

theorem toLower_of_hasLower_eq_false (hc : hasLower c = false) : Revision.toLower c = c := by
  have hnone : letterRuns.find? (·.covers c.toNat) = none :=
    List.find?_eq_none.mpr fun r hr => by simp [(hasLower_eq_false_iff.mp hc).2.2 r hr]
  rw [letterRuns] at hnone
  rw [Revision.toLower, lowerBy, hnone]

theorem lowercaseChar_of_hasLower_eq_false (hc : hasLower c = false) :
    lowercaseChar before c after = [c] := by
  obtain ⟨hsigma, hdotted, -⟩ := hasLower_eq_false_iff.mp hc
  rw [lowercaseChar, if_neg hsigma, if_neg hdotted, toLower_of_hasLower_eq_false hc]

theorem toLower_cases (hsigma : c ≠ '\u03A3') (hdotted : c ≠ '\u0130') :
    hasLower c = false ∧ Revision.toLower c = c ∨ IsForm (Revision.toLower c) := by
  rw [Revision.toLower, lowerBy]
  split
  · rename_i r hfind
    have hr : r ∈ letterRuns := List.mem_of_find?_eq_some hfind
    have hn := List.find?_some hfind
    exact .inr ⟨r, List.mem_append_right specialRuns hr, c.toNat, hn, rfl⟩
  · rename_i hfind
    refine .inl ⟨hasLower_eq_false_iff.mpr ⟨hsigma, hdotted, fun r hr => ?_⟩, rfl⟩
    simpa using List.find?_eq_none.mp hfind r hr

/-- Lower-casing either keeps a character that has no lower-case form or yields forms. -/
theorem mem_lowercaseChar (hd : d ∈ lowercaseChar before c after) :
    hasLower c = false ∧ d = c ∨ IsForm d := by
  unfold lowercaseChar at hd
  split at hd
  · obtain rfl := List.mem_singleton.mp hd
    split
    · exact .inr (.of_single (c := '\u03A3') (by simp [specialRuns]))
    · exact .inr (.of_single (c := '\u03A3') (by simp [specialRuns]))
  · rename_i hsigma
    split at hd
    · rcases List.mem_pair.mp hd with rfl | rfl
      · exact .inr (.of_single (c := '\u0130') (by simp [specialRuns]))
      · exact .inr (.of_single (c := '\u0130') (by simp [specialRuns]))
    · rename_i hdotted
      obtain rfl := List.mem_singleton.mp hd
      exact toLower_cases hsigma hdotted

theorem hasLower_of_mem_lowercaseChar (hd : d ∈ lowercaseChar before c after) :
    hasLower d = false := by
  rcases mem_lowercaseChar hd with ⟨hc, rfl⟩ | hform
  · exact hc
  · exact hform.hasLower_eq_false

/-- The forms do not come before the small letters. -/
theorem eq_of_mem_lowercaseChar (hd : d ∈ lowercaseChar before c after)
    (hlt : d.toNat < 'a'.toNat) : d = c := by
  rcases mem_lowercaseChar hd with ⟨-, hkept⟩ | hform
  · exact hkept
  · exact absurd hform.le_toNat (Nat.not_le.mpr hlt)

theorem hasLower_of_isUpper (hc : c.isUpper = true) : hasLower c = true := by
  have hbounds := Token.isUpper_iff.mp hc
  have hmem : ⟨0x41, 0x5A, 1, 0x61⟩ ∈ capitalRuns :=
    List.mem_append_right _ (List.mem_append_left _ List.mem_cons_self)
  exact List.any_eq_true.mpr ⟨_, hmem, CaseRun.covers_iff.mpr ⟨hbounds.1, hbounds.2, Nat.mod_one _⟩⟩

/-! ## Whole texts -/

theorem hasLower_of_mem_lowercase (hd : d ∈ lowercase cs) : hasLower d = false := by
  obtain ⟨front, c, back, -, hd⟩ := mem_lowercaseAfter hd
  exact hasLower_of_mem_lowercaseChar hd

theorem lowercaseAfter_of_hasLower_eq_false (hcs : ∀ c ∈ cs, hasLower c = false) :
    lowercaseAfter before cs = cs := by
  induction cs generalizing before with
  | nil => rfl
  | cons c cs ih =>
      rw [List.forall_mem_cons] at hcs
      rw [lowercaseAfter, lowercaseChar_of_hasLower_eq_false hcs.1, ih hcs.2]
      rfl

/-- Two neighbours that are not both `x`. -/
def NotBoth (x b c : Char) : Prop := ¬ (b = x ∧ c = x)

/-- Two of a character that comes before the small letters are brought together only if they were
neighbours, by induction on the text. -/
theorem isChain_lowercaseAfter {x : Char} (hx : x.toNat < 'a'.toNat)
    (hcs : cs.IsChain (NotBoth x)) : (lowercaseAfter before cs).IsChain (NotBoth x) := by
  induction cs generalizing before with
  | nil => exact .nil
  | cons c cs ih =>
      rw [lowercaseAfter, List.isChain_append]
      refine ⟨?_, ih hcs.tail, ?_⟩
      · rcases lowercaseChar_cases before c cs with ⟨e, he⟩ | he
        · rw [he]
          exact .singleton e
        · rw [he, List.isChain_pair]
          rintro ⟨rfl, -⟩
          exact absurd hx (by decide)
      · rintro _ hlast _ hhead ⟨rfl, rfl⟩
        obtain ⟨d, hd, front, back, hx'⟩ := head?_lowercaseAfter hhead
        obtain rfl := eq_of_mem_lowercaseChar hx' hx
        obtain rfl := eq_of_mem_lowercaseChar (List.mem_of_mem_getLast? hlast) hx
        obtain ⟨rest, rfl⟩ := List.head?_eq_some_iff.mp hd
        exact (List.isChain_cons_cons.mp hcs).1 ⟨rfl, rfl⟩

end

theorem lowercase_eq_self_iff {cs : List Char} :
    lowercase cs = cs ↔ ∀ c ∈ cs, hasLower c = false := by
  constructor
  · intro h c hc
    rw [← h] at hc
    exact hasLower_of_mem_lowercase hc
  · exact lowercaseAfter_of_hasLower_eq_false

theorem lowercase_lowercase (cs : List Char) : lowercase (lowercase cs) = lowercase cs :=
  lowercase_eq_self_iff.mpr fun _ => hasLower_of_mem_lowercase

end TreePattern.Unicode
