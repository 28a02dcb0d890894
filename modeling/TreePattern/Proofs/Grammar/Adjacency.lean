import Mathlib.Data.List.Chain
import TreePattern.Proofs.Grammar.Basic

/-! Which terminals stand next to each other in a derivation. -/

namespace TreePattern.Grammar

open Token (Kind)
open Terminal (plain name)

/-- The kinds of tokens that may end a piece of a pattern. -/
def isEnd (k : Kind) : Bool :=
  k ∈ [.className, .symbol, .integer, .string, .regexp, .trueKeyword, .falseKeyword, .nilKeyword,
    .anyKeyword, .evenKeyword, .oddKeyword, .rightAngle, .rightBracket, .rightBrace, .star, .plus,
    .question]

/-- The kinds of tokens that may follow such an end. -/
def isLink (k : Kind) : Bool :=
  k ∈ [.pipe, .rightAngle, .comma, .rightBracket, .leftBrace, .rightBrace, .star, .plus, .question]

/-- The kinds of tokens that something else has to follow. -/
def isOpener (k : Kind) : Bool :=
  k ∈ [.pipe, .comma, .equals, .startsWith, .endsWith, .contains, .leftBracket, .leftBrace]

/-- A token of regular scanning whose kind is one of the given ones. -/
def Regular (isKind : Kind → Bool) (t : Terminal) : Prop :=
  t.request = .token ∧ isKind t.kind = true

/-- Whether the second terminal may follow the first one. Only a comma leaves it open in which way
the next token is asked for. -/
structure Adjacent (t u : Terminal) : Prop where
  name_kind : u.request = .name → u.kind = .methodName
  of_name : t.request = .name → Regular Kind.isAttributeOperator u
  of_token : t.request = .token → u.request = .token → u.kind.isAttributeOperator = false
  of_angle : Regular (· == .leftAngle) t → u.request = .name
  of_comma : Regular (· == .comma) t → u.request = .token →
    beginsPrimary u.kind = true ∨ u.kind = .rightBrace
  of_other : t.request = .token → t.kind ≠ .leftAngle → t.kind ≠ .comma → u.request = .token
  of_end : t.request = .token → t.kind ≠ .leftAngle → isOpener t.kind = false →
    isLink u.kind = true ∨ t.kind = .className ∧ u.kind = .leftAngle

theorem regular_plain {isKind : Kind → Bool} {k : Kind} (h : isKind k = true) (l : List Char) :
    Regular isKind (plain k l) :=
  ⟨rfl, h⟩

theorem Regular.mono {isKind isKind' : Kind → Bool} {t : Terminal} (h : Regular isKind t)
    (himp : ∀ k, isKind k = true → isKind' k = true) : Regular isKind' t :=
  ⟨h.1, himp _ h.2⟩

/-- A link behind an end. -/
theorem adjacent_link {t u : Terminal} (ht : Regular isEnd t) (hu : Regular isLink u) :
    Adjacent t u where
  name_kind h := by
    rw [hu.1] at h
    cases h
  of_name h := by
    rw [ht.1] at h
    cases h
  of_token _ _ := by
    obtain ⟨_, k, _⟩ := u
    have hk : isLink k = true := hu.2
    cases k <;> first | rfl | cases hk
  of_angle h := by
    obtain ⟨_, k, _⟩ := t
    obtain rfl : k = .leftAngle := eq_of_beq h.2
    cases ht.2
  of_comma h := by
    obtain ⟨_, k, _⟩ := t
    obtain rfl : k = .comma := eq_of_beq h.2
    cases ht.2
  of_other _ _ _ := hu.1
  of_end _ _ _ := .inl hu.2

/-- The kinds of tokens that something may begin with. -/
def isStart (k : Kind) : Bool :=
  beginsPrimary k || k ∈ [.regexp, .rightBracket, .rightBrace, .evenKeyword, .oddKeyword, .comma]

theorem adjacent_start {t u : Terminal} (ht : Regular isOpener t) (hu : Regular isStart u)
    (hcomma : t.kind = .comma → beginsPrimary u.kind = true ∨ u.kind = .rightBrace) :
    Adjacent t u where
  name_kind h := by
    rw [hu.1] at h
    cases h
  of_name h := by
    rw [ht.1] at h
    cases h
  of_token _ _ := by
    obtain ⟨_, k, _⟩ := u
    have hk : isStart k = true := hu.2
    cases k <;> first | rfl | cases hk
  of_angle h := by
    obtain ⟨_, k, _⟩ := t
    obtain rfl : k = .leftAngle := eq_of_beq h.2
    cases ht.2
  of_comma h _ := hcomma (eq_of_beq h.2)
  of_other _ _ _ := hu.1
  of_end _ _ h := by
    rw [ht.2] at h
    cases h

/-- An attribute name behind an opening angle or a comma. -/
theorem adjacent_name {t : Terminal} (ht : Regular (fun k => k == .leftAngle || k == .comma) t)
    (l : List Char) : Adjacent t (name l) where
  name_kind _ := rfl
  of_name h := by
    rw [ht.1] at h
    cases h
  of_token _ h := by cases h
  of_angle _ := rfl
  of_comma _ h := by cases h
  of_other _ hangle hcomma := by
    rcases Bool.or_eq_true_iff.mp ht.2 with h | h
    · exact absurd (eq_of_beq h) hangle
    · exact absurd (eq_of_beq h) hcomma
  of_end _ hangle h := by
    rcases Bool.or_eq_true_iff.mp ht.2 with heq | heq
    · exact absurd (eq_of_beq heq) hangle
    · rw [eq_of_beq heq] at h
      cases h

theorem adjacent_operator (a : List Char) {u : Terminal}
    (hu : Regular Kind.isAttributeOperator u) : Adjacent (name a) u where
  name_kind h := by
    rw [hu.1] at h
    cases h
  of_name _ := hu
  of_token h := by cases h
  of_angle h := by cases h.1
  of_comma h := by cases h.1
  of_other h := by cases h
  of_end h := by cases h

theorem adjacent_angle (l : List Char) {u : Terminal} (hu : Regular (· == .leftAngle) u) :
    Adjacent (plain .className l) u where
  name_kind h := by
    rw [hu.1] at h
    cases h
  of_name h := by cases h
  of_token _ _ := by
    rw [eq_of_beq hu.2]
    rfl
  of_angle h := by cases h.2
  of_comma h := by cases h.2
  of_other _ _ _ := hu.1
  of_end _ _ _ := .inr ⟨rfl, eq_of_beq hu.2⟩

/-! ## Phrases -/

/-- Terminals of which each may follow the one before, from one of the given first ones to an end.
-/
structure Phrase (First : Terminal → Prop) (ts : List Terminal) : Prop where
  first : ∃ t us, ts = t :: us ∧ First t
  chain : ts.IsChain Adjacent
  last : ∀ t ∈ ts.getLast?, Regular isEnd t

namespace Phrase

variable {First First' : Terminal → Prop} {t : Terminal} {ts us : List Terminal}

theorem singleton (hfirst : First t) (ht : Regular isEnd t) : Phrase First [t] where
  first := ⟨t, [], rfl, hfirst⟩
  chain := List.isChain_singleton t
  last := by
    rintro _ ⟨⟩
    exact ht

theorem cons (hfirst : First' t) (h : Phrase First ts) (hadjacent : ∀ u, First u → Adjacent t u) :
    Phrase First' (t :: ts) where
  first := ⟨t, ts, rfl, hfirst⟩
  chain := by
    obtain ⟨u, us, rfl, hu⟩ := h.first
    exact .cons_cons (hadjacent u hu) h.chain
  last := by
    obtain ⟨u, us, rfl, hu⟩ := h.first
    rw [List.getLast?_cons_cons]
    exact h.last

theorem append (h : Phrase First ts) (h' : Phrase First' us)
    (hadjacent : ∀ t u, Regular isEnd t → First' u → Adjacent t u) : Phrase First (ts ++ us) where
  first := by
    obtain ⟨t, vs, rfl, ht⟩ := h.first
    exact ⟨t, vs ++ us, rfl, ht⟩
  chain := by
    refine h.chain.append h'.chain fun t ht u hu => hadjacent t u (h.last t ht) ?_
    obtain ⟨v, vs, rfl, hv⟩ := h'.first
    cases hu
    exact hv
  last := by
    obtain ⟨v, vs, rfl, hv⟩ := h'.first
    rw [List.getLast?_append_cons]
    exact h'.last

theorem mono (h : Phrase First ts) (himp : ∀ t, First t → First' t) : Phrase First' ts where
  first := by
    obtain ⟨t, us, rfl, ht⟩ := h.first
    exact ⟨t, us, rfl, himp t ht⟩
  chain := h.chain
  last := h.last

/-- Something that begins with a link may follow every phrase. -/
theorem link (h : Phrase First ts) (h' : Phrase (Regular isLink) us) : Phrase First (ts ++ us) :=
  h.append h' fun _ _ => adjacent_link

end Phrase

variable {limit : Nat} {E : List Terminal → Pattern → Prop}

theorem Separated.phrase {α : Type} {separator : Kind} {One : List Terminal → α → Prop}
    {First : Terminal → Prop} {ts : List Terminal} {xs : List α} (hlink : isLink separator = true)
    (hone : ∀ {us x}, One us x → Phrase First us)
    (hfirst : ∀ l u, First u → Adjacent (plain separator l) u)
    (h : Separated separator One ts xs) : Phrase First ts := by
  induction h with
  | last h => exact hone h
  | more l h _ ih => exact (hone h).link (.cons (regular_plain hlink l) ih (hfirst l))

theorem IsScalar.phrase {ts : List Terminal} {s : Scalar} (h : IsScalar ts s) :
    Phrase (Regular beginsPrimary) ts := by
  cases h <;> exact .singleton ⟨rfl, rfl⟩ ⟨rfl, rfl⟩

theorem IsOperand.phrase {anchor : Anchor} {ts : List Terminal} {p : Pattern}
    (h : IsOperand limit anchor ts p) : Phrase (Regular isStart) ts := by
  cases h <;> exact .singleton ⟨rfl, rfl⟩ ⟨rfl, rfl⟩

theorem IsCount.phrase {ts : List Terminal} {n : Nat} (h : IsCount ts n) :
    Phrase (Regular beginsPrimary) ts := by
  cases h
  exact .singleton ⟨rfl, rfl⟩ ⟨rfl, rfl⟩

theorem regular_isStart {t : Terminal} (h : Regular beginsPrimary t) : Regular isStart t :=
  h.mono fun _ hk => Bool.or_eq_true_iff.mpr (.inl hk)

theorem adjacent_primary {k : Kind} (hk : isOpener k = true) (l : List Char) {u : Terminal}
    (hu : Regular beginsPrimary u) : Adjacent (plain k l) u :=
  adjacent_start (regular_plain hk l) (regular_isStart hu) fun _ => .inl hu.2

theorem phrase_plain {isKind : Kind → Bool} {k : Kind} (hkind : isKind k = true)
    (hend : isEnd k = true) (l : List Char) : Phrase (Regular isKind) [plain k l] :=
  .singleton (regular_plain hkind l) (regular_plain hend l)

/-- What follows the opening bracket of an array that is not empty. -/
theorem phrase_bracketed {α : Type} {One : List Terminal → α → Prop} {ts : List Terminal}
    {xs : List α} (hone : ∀ {us x}, One us x → Phrase (Regular beginsPrimary) us)
    (h : Separated .comma One ts xs) (l : List Char) :
    Phrase (Regular isStart) (ts ++ [plain .rightBracket l]) := by
  have hphrase := h.phrase rfl hone fun l _ => adjacent_primary rfl l
  exact (hphrase.link (phrase_plain rfl rfl l)).mono fun _ => regular_isStart

/-- What follows the comma of a quantifier: a count with the closing brace, or the brace alone. -/
theorem phrase_bound {ts : List Terminal} {n : Option Nat} (h : Optional IsCount ts n)
    (l : List Char) : Phrase (Regular fun k => beginsPrimary k || k == .rightBrace)
      (ts ++ [plain .rightBrace l]) := by
  cases h with
  | absent => exact phrase_plain rfl rfl l
  | present h =>
      apply (h.phrase.link (phrase_plain rfl rfl l)).mono
      intro t ht
      exact ht.mono fun _ hk => Bool.or_eq_true_iff.mpr (.inl hk)

/-- The comma of a quantifier. -/
theorem phrase_comma {isKind : Kind → Bool} (hkind : isKind .comma = true) {ts : List Terminal}
    (h : Phrase (Regular fun k => beginsPrimary k || k == .rightBrace) ts) (l : List Char) :
    Phrase (Regular isKind) (plain .comma l :: ts) := by
  refine h.cons (regular_plain hkind l) fun u hu => ?_
  have hor : beginsPrimary u.kind = true ∨ u.kind = .rightBrace := by
    simpa using hu.2
  refine adjacent_start (regular_plain rfl l) (hu.mono fun k hk => ?_) fun _ => hor
  rcases Bool.or_eq_true_iff.mp hk with hk | hk
  · exact Bool.or_eq_true_iff.mpr (.inl hk)
  · obtain rfl := eq_of_beq hk
    rfl

theorem IsBraced.phrase {ts : List Terminal} {q : Quantifier} (h : IsBraced ts q) :
    Phrase (Regular isStart) ts := by
  cases h with
  | even l l' =>
      exact (phrase_plain (k := .evenKeyword) rfl rfl l).link (phrase_plain rfl rfl l')
  | odd l l' =>
      exact (phrase_plain (k := .oddKeyword) rfl rfl l).link (phrase_plain rfl rfl l')
  | exactly l h =>
      exact (h.phrase.link (phrase_plain rfl rfl l)).mono fun _ => regular_isStart
  | @between ts us min q l l' hmin hmax _ _ =>
      have htail {isKind : Kind → Bool} (hkind : isKind .comma = true) :=
        phrase_comma hkind (phrase_bound hmax l') l
      cases hmin with
      | absent => exact htail rfl
      | present hmin =>
          exact (hmin.phrase.link (htail rfl)).mono fun _ => regular_isStart

theorem IsQuantifier.phrase {ts : List Terminal} {q : Quantifier} (h : IsQuantifier ts q) :
    Phrase (Regular isLink) ts := by
  cases h with
  | zeroOrMore l | oneOrMore l | optional l => exact phrase_plain rfl rfl l
  | braced l h =>
      exact h.phrase.cons (regular_plain rfl l) fun u hu =>
        adjacent_start (regular_plain rfl l) hu nofun

section

variable (hE : ∀ {ts p}, E ts p → Phrase (Regular beginsPrimary) ts)

include hE

theorem IsConstraint.phrase {ts : List Terminal} {a : String × Pattern}
    (h : IsConstraint limit E ts a) : Phrase (fun t => ∃ l, t = name l) ts := by
  have hoperator {k : Kind} {us : List Terminal} (hk : k.isAttributeOperator = true)
      (hopener : isOpener k = true) (l : List Char) (h : Phrase (Regular isStart) us) :
      Phrase (Regular Kind.isAttributeOperator) (plain k l :: us) :=
    h.cons (regular_plain hk l) fun u hu =>
      adjacent_start (regular_plain hopener l) hu (by rintro rfl; cases hk)
  cases h with
  | equals a l h =>
      have hvalue := (hE h).mono fun _ => regular_isStart
      exact (hoperator rfl rfl l hvalue).cons ⟨a, rfl⟩ fun u => adjacent_operator a
  | @matching k anchor ts p a l hop h =>
      have hk : k.isAttributeOperator = true ∧ isOpener k = true := by
        cases k <;> first | exact ⟨rfl, rfl⟩ | cases hop
      exact (hoperator hk.1 hk.2 l h.phrase).cons ⟨a, rfl⟩ fun u => adjacent_operator a

theorem IsItem.phrase {ts : List Terminal} {x : Item Pattern} (h : IsItem E ts x) :
    Phrase (Regular beginsPrimary) ts := by
  cases h with
  | one h => exact hE h
  | many h hq => exact (hE h).link hq.phrase

theorem IsItems.phrase {ts : List Terminal} {xs : List (Item Pattern)} (h : IsItems E ts xs) :
    Phrase (Regular isStart) ts := by
  cases h with
  | nil l => exact phrase_plain rfl rfl l
  | cons l h => exact phrase_bracketed (IsItem.phrase hE) h l

theorem IsPrimary.phrase {ts : List Terminal} {p : Pattern} (h : IsPrimary limit E ts p) :
    Phrase (Regular beginsPrimary) ts := by
  cases h with
  | any l => exact phrase_plain rfl rfl l
  | scalar h => exact h.phrase
  | node l h =>
      cases h with
      | absent => exact phrase_plain rfl rfl l
      | present l' l'' h =>
          have hconstraints := h.phrase rfl (IsConstraint.phrase hE) fun l _ ⟨a, ha⟩ =>
            ha ▸ adjacent_name (regular_plain rfl l) a
          have hangle : Phrase (Regular (· == .leftAngle)) _ :=
            (hconstraints.link (phrase_plain (k := .rightAngle) rfl rfl l'')).cons
              (regular_plain rfl l') fun _ ⟨a, ha⟩ =>
                ha ▸ adjacent_name (regular_plain (k := .leftAngle) rfl l') a
          exact hangle.cons (regular_plain rfl l) fun _ => adjacent_angle l
  | array l h =>
      exact (h.phrase hE).cons (regular_plain rfl l) fun u hu =>
        adjacent_start (regular_plain rfl l) hu nofun

end

/-- The terminals of an expression form a phrase, by induction on the expressions inside. -/
theorem IsExpression.phrase {levels : Nat} {ts : List Terminal} {p : Pattern}
    (h : IsExpression limit levels ts p) : Phrase (Regular beginsPrimary) ts := by
  induction levels generalizing ts p with
  | zero => exact absurd h id
  | succ levels ih =>
      obtain ⟨ps, hps, _⟩ := h
      exact hps.phrase rfl (IsPrimary.phrase ih) fun l _ => adjacent_primary rfl l

end TreePattern.Grammar
