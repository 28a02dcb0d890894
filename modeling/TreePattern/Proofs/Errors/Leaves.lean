import TreePattern.Proofs.Errors.Blame
import TreePattern.Proofs.Grammar.Leaves

/-! Errors where nothing has a pattern inside: in operands of regular expressions and in
quantifiers. -/

namespace TreePattern

open Token (Kind isBlank)
open Terminal (plain name)

/-- Two tilings of one text agree as far as both go, if all their tokens are asked for in the
regular way. -/
theorem Tiles.prefix_or_prefix {cs rest rest' : List Char} {ts us : List Terminal}
    (hts : Tiles cs ts rest) (hus : Tiles cs us rest') (htoken : ∀ t ∈ ts, t.request = .token)
    (htoken' : ∀ t ∈ us, t.request = .token) : ts <+: us ∨ us <+: ts := by
  induction ts generalizing cs us with
  | nil => exact .inl List.nil_prefix
  | cons t ts ih =>
      cases us with
      | nil => exact .inr List.nil_prefix
      | cons u us =>
          obtain ⟨ht, hts₁⟩ := List.forall_mem_cons.mp htoken
          obtain ⟨hu, hus₁⟩ := List.forall_mem_cons.mp htoken'
          obtain ⟨behind, hu', hus'⟩ := Tiles.uncons_iff.mp hus
          obtain ⟨rfl, hts'⟩ := hts.head_unique hu' (ht.trans hu.symm)
          simpa [List.cons_prefix_cons] using ih hts' hus' hts₁ hus₁

namespace Grammar

theorem IsCount.exists_eq {ts : List Terminal} {n : Nat} (h : IsCount ts n) :
    ∃ l, ts = [plain .integer l] := by
  cases h
  exact ⟨_, rfl⟩

theorem IsCount.unique {ts : List Terminal} {m n : Nat} (hm : IsCount ts m) (hn : IsCount ts n) :
    m = n := by
  cases hm with
  | numeral hm _ =>
      cases hn with
      | numeral hn _ =>
          rw [hm] at hn
          cases hn
          rfl

/-- What stands behind the opening brace of a quantifier, one token after the other. -/
inductive BracedShape : List Terminal → Prop where
  | word {k} (hk : k = .evenKeyword ∨ k = .oddKeyword) (l l') :
      BracedShape [plain k l, plain .rightBrace l']
  | exactly {a n} (ha : IsCount [plain .integer a] n) (l) :
      BracedShape [plain .integer a, plain .rightBrace l]
  | unbounded (l l') : BracedShape [plain .comma l, plain .rightBrace l']
  | atLeast {a n} (ha : IsCount [plain .integer a] n) (l l') :
      BracedShape [plain .integer a, plain .comma l, plain .rightBrace l']
  | atMost {b m} (hb : IsCount [plain .integer b] m) (l l') :
      BracedShape [plain .comma l, plain .integer b, plain .rightBrace l']
  | between {a b m n} (ha : IsCount [plain .integer a] n) (hb : IsCount [plain .integer b] m)
      (hle : n ≤ m) (l l') : BracedShape
        [plain .integer a, plain .comma l, plain .integer b, plain .rightBrace l']

theorem IsBraced.shape {ts : List Terminal} {q : Quantifier} (h : IsBraced ts q) :
    BracedShape ts := by
  cases h with
  | even l l' => exact .word (.inl rfl) l l'
  | odd l l' => exact .word (.inr rfl) l l'
  | exactly l hn =>
      obtain ⟨a, rfl⟩ := hn.exists_eq
      exact .exactly hn l
  | @between us vs min q l l' hmin hmax hq _ =>
      generalize hm : q.max = max at hmax
      cases hmin with
      | absent =>
          cases hmax with
          | absent => exact .unbounded l l'
          | present hmax =>
              obtain ⟨b, rfl⟩ := hmax.exists_eq
              exact .atMost hmax l l'
      | present hmin =>
          obtain ⟨a, rfl⟩ := hmin.exists_eq
          cases hmax with
          | absent => exact .atLeast hmin l l'
          | present hmax =>
              obtain ⟨b, rfl⟩ := hmax.exists_eq
              have hle := q.min_le_max _ hm
              rw [hq] at hle
              exact .between hmin hmax hle l l'

end Grammar

namespace Pattern.Parser

open Grammar

variable {α : Type} {c c' : Cursor} {e : PatternError}

/-- A parser that reads only what a relation derives fails on texts that begin like no derivation.
-/
theorem fails_of_sound {P : Parser α} {R : List Terminal → α → Prop} {xs : List Terminal}
    (hsound : ∀ {c c' a}, P c = .ok (a, c') → ∃ ts, R ts a ∧ c.Reaches ts c')
    (htoken : ∀ {ts a}, R ts a → ∀ t ∈ ts, t.request = .token) (hxs : ∀ t ∈ xs, t.request = .token)
    (hdiffer : ∀ ts a, R ts a → ¬ (ts <+: xs ∨ xs <+: ts)) : Fails P xs := by
  intro d rest htiles
  cases hP : P d with
  | error e => exact ⟨e, rfl⟩
  | ok a =>
      obtain ⟨ts, hts, hreaches⟩ := hsound hP
      exact absurd (hreaches.tiles.prefix_or_prefix htiles (htoken hts) hxs) (hdiffer ts _ hts)

/-- What is read whatever follows is read on every text that begins with it. -/
theorem Reads.leads {P : Parser α} {R : List Terminal → α → Prop} (hP : Reads P R [])
    {ts : List Terminal} {a : α} (h : R ts a) {u : Terminal} (hu : u.request = .token) :
    Leads P (done a) ts [u] := by
  intro d rest htiles
  obtain ⟨_, k, l⟩ := u
  obtain rfl : _ = Cursor.Request.token := hu
  obtain ⟨behind, hts, hu⟩ := Tiles.append_iff.mp htiles
  obtain ⟨d', hd, rfl⟩ := hP.complete h hts (.of_tiles hu (by simp))
  exact ⟨d', hd, hu⟩

/-! ## Operands -/

theorem fits_mono {limit limit' : Nat} (hle : limit ≤ limit') {e : Regex.NormalForm}
    (h : e.fits limit = true) : e.fits limit' = true := by
  simp only [Regex.NormalForm.fits, Bool.or_eq_true, Bool.and_eq_true, decide_eq_true_eq] at h ⊢
  exact h.imp_left fun h => ⟨h.1.trans hle, h.2.trans hle⟩

theorem compile?_mono {limit limit' : Nat} (hle : limit ≤ limit') {source : String}
    {flags : Regexp.Flags} {r : Regexp} (h : Regexp.compile? source flags limit = some r) :
    Regexp.compile? source flags limit' = some r := by
  unfold Regexp.compile? at h ⊢
  split at h
  · obtain ⟨hfits, heq⟩ := Option.ite_none_right_eq_some.mp h
    exact (if_pos (fits_mono hle hfits)).trans heq
  · cases h

/-- An empty string may be written behind every operator. -/
theorem viable_operand {limit : Nat} (hlimit : minRegexSizeLimit ≤ limit) (anchor : Anchor) :
    Viable (IsOperand limit anchor) [] := by
  have hsome :
      (Regexp.compile? (.ofList (anchor.source [])) {} minRegexSizeLimit).isSome = true := by
    cases anchor <;> decide +kernel
  obtain ⟨r, hr⟩ := Option.isSome_iff_exists.mp hsome
  rw [← Quoted.value_encode []] at hr
  have hstring : IsOperand limit anchor ([] ++ [plain .string (Quoted.encode [])]) _ :=
    .string (compile?_mono hlimit hr)
  exact (Viable.of_derives hstring).of_append
    (List.forall_mem_singleton.mpr (Terminal.stands_string []))

theorem traced_operand {limit : Nat} {anchor : Anchor}
    (hviable : Viable (IsOperand limit anchor) []) :
    Traced .token (IsOperand limit anchor) (operand limit anchor) where
  reads h := by
    obtain ⟨ts, hts, hreaches⟩ := (reads_operand limit anchor).sound h
    exact ⟨ts, hts, hreaches, fun u _ hu _ => (reads_operand limit anchor).leads hts hu⟩
  blames {c e} h := by
    have hsingle {ts p} (h : IsOperand limit anchor ts p) : ∃ k l, ts = [plain k l] := by
      cases h <;> exact ⟨_, _, rfl⟩
    have hcompile {source : List Char} {flags : Regexp.Flags}
        (h : compile limit source flags = .error e) : e = .invalidRegexp (.ofList source) := by
      unfold compile at h
      split at h <;> cases h
      rfl
    rcases bind_eq_error.mp h with hpeek | ⟨_ | ⟨⟨k, l, offset⟩, c'⟩, hpeek, h₁⟩
    · exact blames_peek hpeek (.nil c) (.inl hviable)
    · cases h₁
      exact .ending (.nil c) (.inl hviable) (peek_eq_none_iff.mp hpeek)
    · simp only at h₁
      split at h₁
      · rcases bind_eq_error.mp h₁ with hr | ⟨_, _, h₂⟩
        · exact hcompile hr ▸ .regexp _
        · cases h₂
      · rcases bind_eq_error.mp h₁ with hr | ⟨_, _, h₂⟩
        · exact hcompile hr ▸ .regexp _
        · cases h₂
      · rcases bind_eq_error.mp h₁ with hr | ⟨_, _, h₂⟩
        · exact hcompile hr ▸ .regexp _
        · cases h₂
      · rename_i hsymbol hstring hregexp
        cases h₁
        refine blames_token hpeek (.nil c) (.inl hviable) (.empty _) nofun ?_
        refine fails_of_sound (reads_operand limit anchor).sound (fun hts t ht => ?_) ?_ ?_
        · obtain ⟨_, _, rfl⟩ := hsingle hts
          rw [List.mem_singleton.mp ht]
          rfl
        · simp [plain]
        · intro ts p hts hsame
          obtain ⟨k', l', rfl⟩ := hsingle hts
          have heq : plain k' l' = plain k l := by
            rcases hsame with hsame | hsame
            all_goals simpa [eq_comm] using List.singleton_prefix_cons_iff.mp hsame
          cases heq
          cases hts with
          | symbol h => exact hsymbol rfl
          | string h => exact hstring rfl
          | regexp h => exact hregexp rfl rfl

/-! ## Quantifiers -/

theorem count_eq_error (h : count c = .error e) : peek c = .error e ∨ ∃ t c',
    peek c = .ok (some (t, c')) ∧ e = .misplacedToken t.lexeme t.offset ∧ t.kind = .integer ∧
      ∀ n, ¬ IsCount [plain .integer t.lexeme] n := by
  rcases bind_eq_error.mp h with h | ⟨_ | ⟨t, c'⟩, hpeek, h₁⟩
  · exact .inl h
  · cases h₁
  · simp only at h₁
    split at h₁
    · rename_i hk
      split at h₁
      · rename_i n hn
        split at h₁
        · cases h₁
        · rename_i hneg
          cases h₁
          refine .inr ⟨t, c', hpeek, rfl, hk, fun m hm => ?_⟩
          cases hm with
          | numeral hm hpos =>
              rw [hn] at hm
              cases hm
              exact hneg hpos
      · rename_i hnone
        cases h₁
        refine .inr ⟨t, c', hpeek, rfl, hk, fun m hm => ?_⟩
        cases hm with
        | numeral hm _ =>
            rw [hnone] at hm
            cases hm
    · cases h₁

theorem count_eq_none (h : count c = .ok (none, c')) :
    c' = c ∧ ∀ t c'', peek c = .ok (some (t, c'')) → t.kind ≠ .integer := by
  obtain ⟨_ | ⟨t, c₁⟩, hpeek, h₁⟩ := bind_eq_ok.mp h
  · cases h₁
    refine ⟨rfl, fun t c'' hsome => ?_⟩
    rw [hpeek] at hsome
    cases hsome
  · simp only at h₁
    split at h₁
    · split at h₁
      · split at h₁ <;> cases h₁
      · cases h₁
    · rename_i hk
      cases h₁
      refine ⟨rfl, fun t' c'' hsome => ?_⟩
      rw [hpeek] at hsome
      cases hsome
      exact hk

theorem count_eq_some {n : Nat} {t : Token} (h : count c = .ok (some (n, t), c')) :
    peek c = .ok (some (t, c')) ∧ t.kind = .integer ∧ IsCount [plain .integer t.lexeme] n := by
  obtain ⟨_ | ⟨t', c₁⟩, hpeek, h₁⟩ := bind_eq_ok.mp h
  · cases h₁
  · simp only at h₁
    split at h₁
    · rename_i hk
      split at h₁
      · rename_i n' hn
        split at h₁
        · rename_i hpos
          cases h₁
          exact ⟨hpeek, hk, .numeral hn hpos⟩
        · cases h₁
      · cases h₁
    · cases h₁

theorem kind_ne_of_peek {kind : Kind} {t : Token} {c'' : Cursor}
    (heat : eat kind c = .ok (false, c')) (hpeek : peek c = .ok (some (t, c''))) : t.kind ≠ kind :=
  kind_ne_of_eat (u := plain t.kind t.lexeme) heat rfl (peek_eq_some hpeek).1.tiles

/-- The two bounds are in order, or the second one is reported behind the closing brace. -/
theorem closeBounds_eq_error {min : Nat} {max : Option (Nat × Token)}
    (h : closeBounds min max c = .error e) : expect .rightBrace c = .error e ∨
      ∃ n t, max = some (n, t) ∧ n < min ∧ e = .misplacedToken t.lexeme t.offset := by
  rcases bind_eq_error.mp h with h | ⟨_, _, h₁⟩
  · exact .inl h
  · right
    simp only at h₁
    split at h₁
    · cases h₁
    · rename_i n t hnone
      cases h₁
      refine ⟨n, t, rfl, ?_, rfl⟩
      by_contra hle
      simp [Quantifier.ofBounds?, Nat.le_of_not_lt hle] at hnone
    · rename_i hnone
      simp [Quantifier.ofBounds?] at hnone

theorem fails_braced {xs : List Terminal} (hxs : ∀ t ∈ xs, t.request = .token)
    (hdiffer : ∀ ts, BracedShape ts → ¬ (ts <+: xs ∨ xs <+: ts)) : Fails braced xs := by
  refine fails_of_sound sound_braced (fun h => ?_) hxs fun ts q h => hdiffer ts h.shape
  cases h.shape <;> simp [plain]

/-- What is missing of a quantifier is its closing brace. -/
theorem viable_braced {us : List Terminal} {q : Quantifier} (l : List Char)
    (h : IsBraced (us ++ [plain .rightBrace ['\x7d']]) q) :
    Viable (Optional IsQuantifier) (plain .leftBrace l :: us) := by
  refine ⟨[plain .rightBrace ['\x7d']], some q, .present (.braced l h), ?_⟩
  rw [List.forall_mem_singleton]
  exact Terminal.stands_operator (by decide)

/-- The terminals in front of an error behind the opening brace are such that only the closing brace
is missing, or the second bound is below the first. -/
def OpenBraced (l : List Char) (us : List Terminal) : Prop :=
  Resumable (Optional IsQuantifier) (plain .leftBrace l :: us)

theorem viable_comma {ns : List Terminal} {min : Option Nat} (l l' : List Char)
    (hns : Optional IsCount ns min) :
    Viable (Optional IsQuantifier) (plain .leftBrace l :: (ns ++ [plain .comma l'])) := by
  refine viable_braced (q := .atLeast (min.getD 0)) l ?_
  rw [List.append_assoc]
  exact .between l' _ hns .absent rfl rfl

theorem openBraced_nil (l : List Char) : OpenBraced l [] :=
  have hcomma : Viable (Optional IsQuantifier) ([plain .leftBrace l] ++ [plain .comma [',']]) :=
    viable_comma l [','] .absent
  .inl (hcomma.of_append (List.forall_mem_singleton.mpr (Terminal.stands_operator (by decide))))

theorem openBraced_count {ns : List Terminal} {min : Option Nat} (l : List Char)
    (hns : Optional IsCount ns min) : OpenBraced l ns := by
  cases hns with
  | absent => exact openBraced_nil l
  | present hn => exact .inl (viable_braced l (.exactly _ hn))

theorem openBraced_counts {ns ms : List Terminal} {min max : Option Nat} (l l' : List Char)
    (hns : Optional IsCount ns min) (hms : Optional IsCount ms max) :
    OpenBraced l (ns ++ plain .comma l' :: ms) := by
  by_cases hle : ∀ m ∈ max, min.getD 0 ≤ m
  · refine .inl (viable_braced (q := ⟨min.getD 0, max, 1, Nat.one_pos, hle⟩) l ?_)
    rw [List.append_assoc]
    exact .between l' _ hns hms rfl rfl
  · simp only [not_forall, Nat.not_le] at hle
    obtain ⟨m, rfl, hlt⟩ := hle
    cases hms with
    | present hm =>
        cases hns with
        | absent => exact absurd hlt (Nat.not_lt_zero m)
        | present hn =>
            have hviable : Viable (Optional IsQuantifier)
                ([] ++ plain .leftBrace l :: (ns ++ [plain .comma l'])) :=
              viable_comma l l' (.present hn)
            exact .inr (.bounds l l' hn hm hlt hviable)

/-- A number that is no repetition count is reported. -/
theorem blames_count {V : List Terminal → Prop} {P : Parser α} {us : List Terminal}
    (h : count c' = .error e) (hreaches : c.Reaches us c') (hus : V us)
    (htoken : ∀ t ∈ us, t.request = .token)
    (hfails : ∀ b, (∀ n, ¬ IsCount [plain .integer b] n) → Fails P (us ++ [plain .integer b])) :
    Blames .token V P c e := by
  rcases count_eq_error h with hpeek | ⟨t, c'', hpeek, rfl, hk, hnone⟩
  · exact blames_peek hpeek hreaches hus
  · have hstuck := hfails t.lexeme hnone
    rw [← hk] at hstuck
    exact blames_token hpeek hreaches hus (joins_tokens htoken) (not_isName_of_tokens htoken) hstuck

/-- An error in front of the closing brace. -/
theorem blames_close (kinds : List Kind) {us : List Terminal} (l : List Char)
    (h : expect .rightBrace c' = .error e) (hreaches : c.Reaches us c') (hus : OpenBraced l us)
    (htoken : ∀ t ∈ us, t.request = .token)
    (hkinds : ∀ t c'', peek c' = .ok (some (t, c'')) → t.kind ∉ kinds)
    (hdiffer : ∀ k b, k ∉ .rightBrace :: kinds → ∀ ts, BracedShape ts →
      ¬ (ts <+: us ++ [plain k b] ∨ us ++ [plain k b] <+: ts)) :
    Blames .token (OpenBraced l) braced c e := by
  refine blames_expect h hreaches hus (joins_tokens htoken) (not_isName_of_tokens htoken)
    fun t c'' hpeek hne => fails_braced ?_ (hdiffer _ _ ?_)
  · exact List.forall_mem_append.mpr ⟨htoken, List.forall_mem_singleton.mpr rfl⟩
  · rw [List.mem_cons, not_or]
    exact ⟨hne, hkinds t c'' hpeek⟩

theorem blames_word {k : Kind} {w : List Char} (l : List Char)
    (hk : k = .evenKeyword ∨ k = .oddKeyword) (hw : c.Reaches [plain k w] c')
    (h : expect .rightBrace c' = .error e) : Blames .token (OpenBraced l) braced c e := by
  have hopen : OpenBraced l [plain k w] := by
    rcases hk with rfl | rfl
    · exact .inl (viable_braced l (.even w _))
    · exact .inl (viable_braced l (.odd w _))
  refine blames_close [] l h hw hopen (by simp [plain]) (fun _ _ _ => List.not_mem_nil)
    fun j b hj ts hts => ?_
  rcases hk with rfl | rfl
  all_goals cases hts <;> grind [plain]

/-- Errors behind the comma between two bounds. -/
theorem blames_upper {ns : List Terminal} {min : Option Nat} (l l' : List Char)
    (hns : Optional IsCount ns min) (hreaches : c.Reaches (ns ++ [plain .comma l']) c')
    (h : (count c' >>= fun a => closeBounds (min.getD 0) a.1 a.2) = .error e) :
    Blames .token (OpenBraced l) braced c e := by
  have hlower : ns = [] ∨ ∃ a, ns = [plain .integer a] := by
    cases hns with
    | absent => exact .inl rfl
    | present hn => exact .inr hn.exists_eq
  have htoken : ∀ t ∈ ns ++ [plain .comma l'], t.request = .token := by
    rcases hlower with rfl | ⟨a, rfl⟩ <;> simp [plain]
  have hinteger (b : List Char) : ∀ t ∈ ns ++ [plain .comma l'] ++ [plain .integer b],
      t.request = .token :=
    List.forall_mem_append.mpr ⟨htoken, List.forall_mem_singleton.mpr rfl⟩
  have hopen : OpenBraced l (ns ++ [plain .comma l']) := openBraced_counts l l' hns .absent
  rcases bind_eq_error.mp h with hcount | ⟨⟨max, c₁⟩, hcount, hclose⟩
  · refine blames_count hcount hreaches hopen htoken fun b hb =>
      fails_braced (hinteger b) fun ts hts => ?_
    rcases hlower with rfl | ⟨a, rfl⟩ <;> cases hts <;> grind [plain]
  · rcases closeBounds_eq_error hclose with hclose | ⟨m, t, rfl, hlt, rfl⟩
    · cases max with
      | none =>
          obtain ⟨rfl, hkinds⟩ := count_eq_none hcount
          refine blames_close [.integer] l hclose hreaches hopen htoken (by simpa using hkinds)
            fun k b hk ts hts => ?_
          rcases hlower with rfl | ⟨a, rfl⟩ <;> cases hts <;> grind [plain]
      | some b =>
          obtain ⟨m, t⟩ := b
          obtain ⟨hpeek, hk, hm⟩ := count_eq_some hcount
          obtain ⟨hreaches', _⟩ := peek_eq_some hpeek
          rw [hk] at hreaches'
          have hopen' : OpenBraced l (ns ++ [plain .comma l'] ++ [plain .integer t.lexeme]) := by
            simpa using openBraced_counts l l' hns (.present hm)
          refine blames_close [] l hclose (hreaches.append hreaches') hopen'
            (hinteger _) (fun _ _ _ => List.not_mem_nil) fun k b hk ts hts => ?_
          rcases hlower with rfl | ⟨a, rfl⟩ <;> cases hts <;> grind [plain]
    · -- the bounds are compared behind the brace, and the second one is reported
      obtain ⟨hpeek, hk, hm⟩ := count_eq_some hcount
      refine blames_token hpeek hreaches hopen (joins_tokens htoken)
        (not_isName_of_tokens htoken) ?_
      rw [hk]
      refine fails_braced (hinteger _) fun ts hts => ?_
      cases hns with
      | absent => cases hlt
      | present hn =>
          obtain ⟨a, rfl⟩ := hn.exists_eq
          cases hts <;> grind [plain, IsCount.unique]

theorem blames_braced (l : List Char) (h : braced c = .error e) :
    Blames .token (OpenBraced l) braced c e := by
  rcases bind_eq_error.mp h with heven | ⟨⟨isEven, c₁⟩, heven, h₁⟩
  · exact blames_peek (eat_eq_error heven) (.nil c) (openBraced_nil l)
  rcases eat_eq_ok heven with ⟨rfl, w, hw⟩ | ⟨rfl, rfl⟩
  · rcases bind_eq_error.mp h₁ with hclose | ⟨_, _, h₂⟩
    · exact blames_word l (.inl rfl) hw hclose
    · cases h₂
  rcases bind_eq_error.mp h₁ with hodd | ⟨⟨isOdd, c₂⟩, hodd, h₂⟩
  · exact blames_peek (eat_eq_error hodd) (.nil _) (openBraced_nil l)
  rcases eat_eq_ok hodd with ⟨rfl, w, hw⟩ | ⟨rfl, rfl⟩
  · rcases bind_eq_error.mp h₂ with hclose | ⟨_, _, h₃⟩
    · exact blames_word l (.inr rfl) hw hclose
    · cases h₃
  rcases bind_eq_error.mp h₂ with hcount | ⟨⟨min, c₃⟩, hcount, h₃⟩
  · refine blames_count hcount (.nil _) (openBraced_nil l) (by simp) fun b hb =>
      fails_braced (by simp [plain]) fun ts hts => ?_
    cases hts <;> grind [plain]
  obtain ⟨ns, hns, hreaches⟩ := count_eq_ok hcount
  rcases bind_eq_error.mp h₃ with hcomma | ⟨⟨comma, c₄⟩, hcomma, h₄⟩
  · exact blames_peek (eat_eq_error hcomma) hreaches (openBraced_count l hns)
  rcases eat_eq_ok hcomma with ⟨rfl, l', hl'⟩ | ⟨rfl, rfl⟩
  · exact blames_upper l l' hns (hreaches.append hl') h₄
  cases min with
  | none =>
      obtain ⟨rfl, hinteger⟩ := count_eq_none hcount
      rcases bind_eq_error.mp h₄ with hpeek | ⟨_ | ⟨t, c₅⟩, hpeek, h₅⟩
      · exact blames_peek hpeek (.nil _) (openBraced_nil l)
      · cases h₅
        exact .ending (.nil _) (openBraced_nil l) (peek_eq_none_iff.mp hpeek)
      · cases h₅
        have hkind : t.kind ≠ .evenKeyword ∧ t.kind ≠ .oddKeyword ∧ t.kind ≠ .comma ∧
            t.kind ≠ .integer :=
          ⟨kind_ne_of_peek heven hpeek, kind_ne_of_peek hodd hpeek, kind_ne_of_peek hcomma hpeek,
            hinteger t c₅ hpeek⟩
        refine blames_token hpeek (.nil _) (openBraced_nil l) (.empty _) (by simp)
          (fails_braced (by simp [plain]) fun ts hts => ?_)
        cases hts <;> grind [plain]
  | some a =>
      obtain ⟨n, t⟩ := a
      obtain ⟨hpeek, hk, hn⟩ := count_eq_some hcount
      rcases closeBounds_eq_error h₄ with hclose | ⟨m, t', heq, hlt, rfl⟩
      · obtain ⟨hl, _⟩ := peek_eq_some hpeek
        rw [hk] at hl
        refine blames_close [.comma] l hclose hl (openBraced_count l (.present hn))
          (by simp [plain]) (fun t' c'' hpeek' => ?_) fun k b hk ts hts => ?_
        · simpa using kind_ne_of_peek hcomma hpeek'
        · cases hts <;> grind [plain]
      · cases heq
        exact absurd hlt (Nat.lt_irrefl _)

/-- A quantifier in braces is read to its end, whatever comes behind the opening brace. -/
theorem leads_leftBrace (l : List Char) (us : List Terminal) :
    Leads quantifier (mapped some braced) [plain .leftBrace l] us := by
  intro d rest htiles
  obtain ⟨behind, hl, hus⟩ := Tiles.uncons_iff.mp htiles
  obtain ⟨offset, d', hpeek, rfl⟩ := peek_of_tiles hl
  refine ⟨d', ?_, hus⟩
  change peek d >>= _ = _
  rw [hpeek]
  rfl

theorem traced_quantifier : Traced .token (Optional IsQuantifier) quantifier where
  reads {c c' o} h := by
    obtain ⟨ts, hts, hreaches⟩ := quantifier_eq_ok h
    refine ⟨ts, hts, hreaches, fun u rest hu htiles d rest' htiles' => ?_⟩
    obtain ⟨_, k, l⟩ := u
    obtain rfl : _ = Cursor.Request.token := hu
    cases hts with
    | absent =>
        have hk : k ∉ quantifierKinds := by
          intro hk
          rw [← Tiles.nil_iff.mp hreaches.tiles] at htiles
          obtain ⟨offset, c₁, hpeek, _⟩ := peek_of_tiles htiles
          obtain ⟨_, hpeek', h'⟩ := bind_eq_ok.mp h
          rw [hpeek] at hpeek'
          cases hpeek'
          cases k
          case leftBrace =>
            obtain ⟨_, _, h₂⟩ := bind_eq_ok.mp h'
            cases h₂
          all_goals first | exact absurd hk (by decide) | cases h'
        exact ⟨d, quantifier_of_stops (.of_tiles htiles' hk), htiles'⟩
    | present hq =>
        obtain ⟨behind, hts, hu⟩ := Tiles.append_iff.mp htiles'
        obtain ⟨d', hd, rfl⟩ := complete_quantifier hq hts
        exact ⟨d', hd, hu⟩
  blames {c e} h := by
    have hempty : Resumable (Optional IsQuantifier) [] := .inl (.of_derives .absent)
    rcases bind_eq_error.mp h with hpeek | ⟨_ | ⟨⟨k, l, offset⟩, c₁⟩, hpeek, h₁⟩
    · exact blames_peek hpeek (.nil c) hempty
    · cases h₁
    · obtain ⟨hl, _⟩ := peek_eq_some hpeek
      cases k
      case leftBrace =>
        rcases bind_eq_error.mp h₁ with hbraced | ⟨_, _, h₂⟩
        · refine (blames_braced l hbraced).after hl (joins_plain nofun) not_isName_plain
            (fun us hus => hus) fun u rest us _ _ hfails => ?_
          exact (leads_leftBrace l (u :: us)).fails (hfails.bind _)
        · cases h₂
      all_goals cases h₁

end Pattern.Parser

end TreePattern
