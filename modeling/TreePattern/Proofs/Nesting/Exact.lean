import TreePattern.Proofs.Grammar.Reading
import TreePattern.Proofs.Nesting.Counter
import TreePattern.Proofs.Pattern.Nesting

/-! Where the limit for the nesting lies. A derivation needs as many levels as the pattern is deep
that it denotes; if no node repeats the name of an attribute, so that every constraint of the text
is in the pattern, these are enough. -/

namespace TreePattern

open Token (isBlank)
open Terminal (plain name)

namespace Grammar

variable {α : Type} {limit levels n : Nat} {E E' : List Terminal → Pattern → Prop}
  {ts : List Terminal}

/-! ## The levels that a derivation needs -/

section

variable (hE : ∀ us p, E us p → p.nesting ≤ n)
include hE

theorem IsConstraint.nesting_le {a : String × Pattern} (h : IsConstraint limit E ts a) :
    a.2.nesting ≤ n := by
  cases h with
  | equals b l h => exact hE _ _ h
  | matching b l hop h => cases h <;> simp [Pattern.nesting]

theorem IsItem.nesting_le {x : Item Pattern} (h : IsItem E ts x) : x.pattern.nesting ≤ n := by
  cases h with
  | one h | many h _ => exact hE _ _ h

theorem IsPrimary.nesting_le {p : Pattern} (h : IsPrimary limit E ts p) : p.nesting ≤ n + 1 := by
  cases h with
  | any l => simp [Pattern.nesting]
  | scalar h => simp [Pattern.nesting]
  | @node us as l h =>
      refine Pattern.nesting_node_le_iff.mpr fun a ha => ?_
      have hmem := (Node.lastValues_subperm as).subset ha
      cases h with
      | absent => cases hmem
      | present _ _ h =>
          obtain ⟨vs, _, hconstraint⟩ := h.mem a hmem
          exact hconstraint.nesting_le hE
  | @array us xs l h =>
      refine Pattern.nesting_array_le_iff.mpr fun x hx => ?_
      cases h with
      | nil => cases hx
      | cons _ h =>
          obtain ⟨vs, _, hitem⟩ := h.mem x hx
          exact hitem.nesting_le hE

end

/-- By induction on the levels: each of them is used up by a node or an array. -/
theorem IsExpression.nesting_le {p : Pattern} (h : IsExpression limit levels ts p) :
    p.nesting ≤ levels := by
  induction levels generalizing ts p with
  | zero => exact absurd h id
  | succ levels ih =>
      obtain ⟨ps, hps, hchoice⟩ := h
      have hprimary : ∀ q ∈ ps, q.nesting ≤ levels + 1 := by
        intro q hq
        obtain ⟨us, _, hprimary⟩ := hps.mem q hq
        exact hprimary.nesting_le fun us p => ih
      cases hchoice with
      | single p => exact hprimary p List.mem_cons_self
      | choice p q qs => exact Pattern.nesting_choice_le_iff.mpr hprimary

/-! ## Derivations with as few levels as possible -/

theorem Separated.imp {separator : Token.Kind} {One One' : List Terminal → α → Prop} {xs : List α}
    (h : Separated separator One ts xs)
    (himp : ∀ us x, us <:+: ts → x ∈ xs → One us x → One' us x) :
    Separated separator One' ts xs := by
  induction h with
  | last h => exact .last (himp _ _ (List.infix_refl _) List.mem_cons_self h)
  | @more ts us x xs l h _ ih =>
      have htail : us <:+: ts ++ plain separator l :: us :=
        ⟨ts ++ [plain separator l], [], by simp⟩
      refine .more l (himp _ _ (List.prefix_append _ _).isInfix List.mem_cons_self h) ?_
      exact ih fun vs y hvs hy => himp vs y (hvs.trans htail) (List.mem_cons_of_mem x hy)

/-- Whatever stretch of the terminals is derived as the attributes of a node, no name stands twice
among them. -/
def NamesOnce (limit : Nat) (ts : List Terminal) : Prop :=
  ∀ levels us as, us <:+: ts → IsAttributes limit (IsExpression limit levels) us as →
    (as.map (·.1)).Nodup

theorem NamesOnce.of_infix {us : List Terminal} (h : NamesOnce limit ts) (hus : us <:+: ts) :
    NamesOnce limit us :=
  fun levels vs as hvs has => h levels vs as (hvs.trans hus) has

section

variable (hE : ∀ us p, us <:+: ts → E us p → p.nesting ≤ n → E' us p)
include hE

theorem IsConstraint.of_nesting_le {a : String × Pattern} (h : IsConstraint limit E ts a)
    (hn : a.2.nesting ≤ n) : IsConstraint limit E' ts a := by
  cases h with
  | @equals us p b l h =>
      have hus : us <:+: name b :: plain .equals l :: us := ⟨[name b, plain .equals l], [], by simp⟩
      exact .equals b l (hE us p hus h hn)
  | matching b l hop h => exact .matching b l hop h

theorem IsItem.of_nesting_le {x : Item Pattern} (h : IsItem E ts x) (hn : x.pattern.nesting ≤ n) :
    IsItem E' ts x := by
  cases h with
  | one h => exact .one (hE _ _ (List.infix_refl _) h hn)
  | many h hq => exact .many (hE _ _ (List.prefix_append _ _).isInfix h hn) hq

theorem IsAttributes.of_nesting_le {as : List (String × Pattern)} (h : IsAttributes limit E ts as)
    (hn : ∀ a ∈ as, a.2.nesting ≤ n) : IsAttributes limit E' ts as := by
  cases h with
  | absent => exact .absent
  | @present us as l l' h =>
      have hus : us <:+: plain .leftAngle l :: (us ++ [plain .rightAngle l']) :=
        ⟨[plain .leftAngle l], [plain .rightAngle l'], by simp⟩
      refine .present l l' (h.imp fun vs a hvs ha hconstraint => ?_)
      exact hconstraint.of_nesting_le (fun ws p hws => hE ws p (hws.trans (hvs.trans hus)))
        (hn a ha)

theorem IsItems.of_nesting_le {xs : List (Item Pattern)} (h : IsItems E ts xs)
    (hn : ∀ x ∈ xs, x.pattern.nesting ≤ n) : IsItems E' ts xs := by
  cases h with
  | nil l => exact .nil l
  | @cons us xs l h =>
      have hus : us <:+: us ++ [plain .rightBracket l] := (List.prefix_append _ _).isInfix
      refine .cons l (h.imp fun vs x hvs hx hitem => ?_)
      exact hitem.of_nesting_le (fun ws p hws => hE ws p (hws.trans (hvs.trans hus))) (hn x hx)

end

theorem IsPrimary.nesting_pos {p : Pattern} (h : IsPrimary limit E ts p) : 0 < p.nesting := by
  cases h <;> simp [Pattern.nesting, Pattern.nodeNesting]

theorem IsExpression.nesting_pos {p : Pattern} (h : IsExpression limit levels ts p) :
    0 < p.nesting := by
  cases levels with
  | zero => exact absurd h id
  | succ levels =>
      obtain ⟨ps, hps, hchoice⟩ := h
      have hprimary : ∀ q ∈ ps, 0 < q.nesting := by
        intro q hq
        obtain ⟨us, _, hprimary⟩ := hps.mem q hq
        exact hprimary.nesting_pos
      cases hchoice with
      | single p => exact hprimary p List.mem_cons_self
      | choice p q qs =>
          exact (hprimary p List.mem_cons_self).trans_le
            (Pattern.nesting_choice_le_iff.mp le_rfl p List.mem_cons_self)

theorem IsPrimary.of_nesting_le {p : Pattern}
    (hE : ∀ us q, us <:+: ts → IsExpression limit levels us q → q.nesting ≤ n →
      IsExpression limit n us q)
    (hnames : NamesOnce limit ts) (h : IsPrimary limit (IsExpression limit levels) ts p)
    (hn : p.nesting ≤ n + 1) : IsPrimary limit (IsExpression limit n) ts p := by
  cases h with
  | any l => exact .any l
  | scalar h => exact .scalar h
  | @node us as l h =>
      have hus : us <:+: plain .className l :: us := (List.suffix_cons _ _).isInfix
      have hkept : Node.lastValues as = as := Node.lastValues_of_nodup (hnames levels us as hus h)
      have hvalues := Pattern.nesting_node_le_iff.mp hn
      rw [hkept] at hvalues
      exact .node l (h.of_nesting_le (fun vs q hvs => hE vs q (hvs.trans hus)) hvalues)
  | @array us xs l h =>
      have hus : us <:+: plain .leftBracket l :: us := (List.suffix_cons _ _).isInfix
      have hitems := Pattern.nesting_array_le_iff.mp hn
      exact .array l (h.of_nesting_le (fun vs q hvs => hE vs q (hvs.trans hus)) hitems)

/-- A pattern is derived with as many levels as it is deep, if no name is repeated: a constraint
that another one replaces may be deeper than what is left. -/
theorem IsExpression.of_nesting_le {p : Pattern} (h : IsExpression limit levels ts p)
    (hnames : NamesOnce limit ts) (hn : p.nesting ≤ n) : IsExpression limit n ts p := by
  induction levels generalizing n ts p with
  | zero => exact absurd h id
  | succ levels ih =>
      obtain ⟨n, rfl⟩ : ∃ m, n = m + 1 := ⟨n - 1, by have := h.nesting_pos; omega⟩
      obtain ⟨ps, hps, hchoice⟩ := h
      have hdepth : ∀ q ∈ ps, q.nesting ≤ n + 1 := by
        cases hchoice with
        | single p => exact List.forall_mem_singleton.mpr hn
        | choice p q qs => exact Pattern.nesting_choice_le_iff.mp hn
      refine ⟨ps, hps.imp fun us q hus hq hprimary => ?_, hchoice⟩
      have husOnce := hnames.of_infix hus
      exact hprimary.of_nesting_le (fun vs r hvs hr => ih hr (husOnce.of_infix hvs)) husOnce
        (hdepth q hq)

/-! ## Names that stand once -/

/-- The names of attributes among terminals, in order. -/
def names (ts : List Terminal) : List String :=
  (ts.filter fun t => t.request = .name).map fun t => .ofList t.lexeme

theorem IsConstraint.name_sublist {a : String × Pattern} (h : IsConstraint limit E ts a) :
    [a.1].Sublist (names ts) := by
  cases h <;> simp [names, name]

theorem Separated.names_sublist {as : List (String × Pattern)}
    (h : Separated .comma (IsConstraint limit E) ts as) : (as.map (·.1)).Sublist (names ts) := by
  induction h with
  | last h => exact h.name_sublist
  | @more ts us a as l h _ ih =>
      have hnames : names (ts ++ plain .comma l :: us) = names ts ++ names us := by
        simp [names, plain]
      rw [hnames]
      exact h.name_sublist.append ih

/-- A text in which all attributes have different names repeats none within a node. -/
theorem namesOnce_of_nodup (h : (names ts).Nodup) : NamesOnce limit ts := by
  intro levels us as hus has
  have hinside : (names us).Nodup := h.sublist ((hus.sublist.filter _).map _)
  cases has with
  | absent => exact List.nodup_nil
  | @present us as l l' has =>
      have hnames : names (plain .leftAngle l :: (us ++ [plain .rightAngle l'])) = names us := by
        simp [names, plain]
      rw [hnames] at hinside
      exact hinside.sublist has.names_sublist

end Grammar

namespace Pattern

/-- The text is read in such a way that no node in it repeats the name of an attribute. -/
def RepeatsNoName (sizeLimit : Nat) (text : String) : Prop :=
  ∃ levels ts p rest, Grammar.IsExpression sizeLimit levels ts p ∧ Tiles text.toList ts rest ∧
    (∀ c ∈ rest, isBlank c = true) ∧ Grammar.NamesOnce sizeLimit ts

variable {options : Options} {text : String} {p : Pattern} {low high : Nat}

theorem nesting_le_of_parse (h : parse options text = .ok p) : p.nesting ≤ options.maxDepth := by
  obtain ⟨ts, rest, hts, _⟩ := exists_derivation h
  exact hts.nesting_le

/-- Whatever the limits are, a text denotes one pattern. -/
theorem parse_unique {q : Pattern} (hp : parse { options with maxDepth := low } text = .ok p)
    (hq : parse { options with maxDepth := high } text = .ok q) : p = q := by
  wlog hle : low ≤ high generalizing low high p q
  · exact (this hq hp (Nat.le_of_not_le hle)).symm
  rcases parse_cut_off options hle text with h | h
  · rw [hp, hq] at h
    exact Except.ok.inj h
  · rw [hp] at h
    cases h

theorem parse_of_nesting_le (h : parse { options with maxDepth := high } text = .ok p)
    (hnames : RepeatsNoName options.regexSizeLimit text) (hlow : p.nesting ≤ low) :
    parse { options with maxDepth := low } text = .ok p := by
  obtain ⟨levels, ts, q, rest, hts, htiles, hblank, honce⟩ := hnames
  have hq : parse { options with maxDepth := levels } text = .ok q :=
    parse_of_derivation hts htiles hblank
  obtain rfl := parse_unique hq h
  exact parse_of_derivation (hts.of_nesting_le honce hlow) htiles hblank

theorem parse_of_lt_nesting (h : parse { options with maxDepth := high } text = .ok p)
    (hlow : low < p.nesting) :
    parse { options with maxDepth := low } text = .error (.nestedTooDeeply low) := by
  have hhigh : p.nesting ≤ high := nesting_le_of_parse h
  rcases parse_cut_off options (by omega : low ≤ high) text with heq | heq
  · rw [h] at heq
    have hle : p.nesting ≤ low := nesting_le_of_parse heq
    omega
  · exact heq

/-- The limit for the nesting does nothing but cut off, and it does so exactly at the nesting of the
pattern. The counter of open expressions, which is handed through the whole run, comes to the
same. -/
theorem limit_cuts_off_at_nesting (options : Options) (text : String) (low high : Nat)
    (hle : low ≤ high) :
    Counting.parse { options with maxDepth := low } text =
        parse { options with maxDepth := low } text ∧
      (parse { options with maxDepth := low } text = parse { options with maxDepth := high } text ∨
        parse { options with maxDepth := low } text = .error (.nestedTooDeeply low)) ∧
      ∀ p, parse { options with maxDepth := high } text = .ok p →
        (low < p.nesting →
          parse { options with maxDepth := low } text = .error (.nestedTooDeeply low)) ∧
        (RepeatsNoName options.regexSizeLimit text → p.nesting ≤ low →
          parse { options with maxDepth := low } text = .ok p) :=
  ⟨Counting.parse_eq _ text, parse_cut_off options hle text, fun _ h =>
    ⟨parse_of_lt_nesting h, parse_of_nesting_le h⟩⟩

/-- An array inside of an attribute and a node inside of another one. -/
theorem limit_cuts_off_at_nesting_node :
    let text := "Foo<a = [1], b = Bar>"
    let p := node ⟨"Foo", [("a", array [.one (scalar (.integer 1))]), ("b", node ⟨"Bar", []⟩)]⟩
    RepeatsNoName Regexp.defaultSizeLimit text ∧ parse {} text = .ok p ∧ p.nesting = 3 ∧
      parse { maxDepth := 2 } text = .error (.nestedTooDeeply 2) ∧
      parse { maxDepth := 3 } text = .ok p := by
  intro text p
  have hparse : parse {} text = .ok p := by
    simp only [text, p]
    rfl
  have hnesting : p.nesting = 3 := rfl
  have hnames : RepeatsNoName Regexp.defaultSizeLimit text := by
    let one := [plain .leftBracket ['['], plain .integer ['1'], plain .rightBracket [']']]
    let ts := plain .className ['F', 'o', 'o'] :: plain .leftAngle ['<'] ::
      ((name ['a'] :: plain .equals ['='] :: one ++ plain .comma [','] ::
        [name ['b'], plain .equals ['='], plain .className ['B', 'a', 'r']]) ++
          [plain .rightAngle ['>']])
    have hitem : Grammar.IsExpression Regexp.defaultSizeLimit 1 [plain .integer ['1']] _ :=
      ⟨_, .last (.scalar (.integer (n := 1) rfl)), .single _⟩
    have hone : Grammar.IsExpression Regexp.defaultSizeLimit 2 one _ :=
      ⟨_, .last (.array _ (.cons _ (.last (.one hitem)))), .single _⟩
    have hbar : Grammar.IsExpression Regexp.defaultSizeLimit 2 [plain .className _] _ :=
      ⟨_, .last (.node ['B', 'a', 'r'] .absent), .single _⟩
    have hts : Grammar.IsExpression Regexp.defaultSizeLimit 3 ts _ :=
      ⟨_, .last (.node _ (.present _ _ (.more _ (.equals _ _ hone) (.last (.equals _ _ hbar))))),
        .single _⟩
    have htiles : Tiles text.toList ts [] := by
      simp only [text, ts, one, List.cons_append, List.nil_append]
      repeat refine Tiles.cons_iff.mpr ⟨_, rfl, ?_⟩
      exact .nil _
    exact ⟨3, ts, _, [], hts, htiles, nofun, Grammar.namesOnce_of_nodup (by decide)⟩
  obtain ⟨_, _, htwo⟩ := limit_cuts_off_at_nesting {} text 2 128 (by decide)
  obtain ⟨_, _, hthree⟩ := limit_cuts_off_at_nesting {} text 3 128 (by decide)
  exact ⟨hnames, hparse, hnesting, (htwo p hparse).1 (by omega), (hthree p hparse).2 hnames
    hnesting.le⟩

/-- A constraint that another one replaces counts for the limit, but not for the pattern. -/
example :
    parse { maxDepth := 2 } "Foo<a = [1], a = 1>" = .error (.nestedTooDeeply 2) ∧
      parse {} "Foo<a = [1], a = 1>" = .ok (node ⟨"Foo", [("a", scalar (.integer 1))]⟩) :=
  ⟨rfl, rfl⟩

end Pattern

end TreePattern
