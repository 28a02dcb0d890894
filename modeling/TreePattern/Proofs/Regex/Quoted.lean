import TreePattern.Pattern.Regexp

/-! Reading quoted texts. Every character of a quoted text is read as a part of its own that stands
for the character, so that the source of an anchored text denotes the anchor and the characters, one
after the other. -/

namespace TreePattern

namespace Regex

/-- The part of an expression that is not nested and may be repeated. -/
def Part.simple (e : Regex) : Part := ⟨e, 0, true⟩

theorem Part.sequence_simple (es : List Regex) :
    (sequence (es.reverse.map simple)).regex = .sequence es ∧
      (sequence (es.reverse.map simple)).depth ≤ 1 := by
  have hdepth (ds : List Regex) : ((ds.map simple).map (·.depth)).foldl max 0 = 0 := by
    induction ds with
    | nil => rfl
    | cons d ds ih => exact ih
  obtain ⟨ds, rfl⟩ : ∃ ds : List Regex, es = ds.reverse := ⟨es.reverse, by simp⟩
  rw [List.reverse_reverse]
  match ds with
  | [] => exact ⟨rfl, Nat.zero_le 1⟩
  | [d] => exact ⟨rfl, Nat.zero_le 1⟩
  | d :: d' :: ds =>
      refine ⟨?_, ?_⟩
      · have hmap : ((d :: d' :: ds).map simple).reverse.map (·.regex) =
            (d :: d' :: ds).reverse := by
          rw [← List.map_reverse, List.map_map]
          exact List.map_id _
        exact congrArg Regex.sequence hmap
      · exact Nat.le_of_eq (congrArg (· + 1) (hdepth (d :: d' :: ds)))

/-- The characters at which no part begins that stands by itself. -/
def operators : List Char := ['(', ')', '|', '?', '*', '+', '\x7b']

variable {m : Modes} {inner : Context → List Char → Option (Part × Context × List Char)}
  {levels fuel : Nat} {ctx : Context} {branches parts : List Part}

theorem readBranches_part {c : Char} {cs rest : List Char} {part : Part}
    (hextended : ctx.modes.extended = false) (hc : c ∉ operators)
    (h : part? levels ctx.modes (c :: cs) = some (part, rest)) :
    readBranches inner levels (fuel + 1) ctx branches parts (c :: cs) =
      readBranches inner levels fuel ctx branches (part :: parts) rest := by
  have hskip : skip ctx.modes.extended (c :: cs) = c :: cs := by rw [hextended, skip, if_neg nofun]
  have hrepetition : repetition? ctx.modes.extended (c :: cs) = some none := by
    unfold repetition?
    split <;> simp_all [operators]
  rw [readBranches, hskip]
  split <;> simp_all [operators]

/-- The source consists of parts that stand by themselves, one for each expression. -/
inductive Written (m : Modes) : List Char → List Regex → Prop where
  | nil : Written m [] []
  | part {c l cs e es} (hc : c ∉ operators)
      (hpart : ∀ levels tail, part? levels m (c :: (l ++ tail)) = some (.simple e, tail))
      (h : Written m cs es) : Written m (c :: (l ++ cs)) (e :: es)

theorem Written.append {cs ds : List Char} {es es' : List Regex} (h : Written m cs es)
    (h' : Written m ds es') : Written m (cs ++ ds) (es ++ es') := by
  induction h with
  | nil => exact h'
  | part hc hpart _ ih =>
      rw [List.cons_append, List.append_assoc]
      exact .part hc hpart ih

/-- Written parts are read one after the other up to the end of the source. -/
theorem Written.readBranches {cs : List Char} {es : List Regex} (h : Written ctx.modes cs es)
    (hextended : ctx.modes.extended = false) (hfuel : cs.length < fuel) :
    readBranches inner levels fuel ctx [] parts cs =
      some (.sequence ((es.map .simple).reverse ++ parts), ctx, []) := by
  induction h generalizing fuel parts with
  | nil =>
      obtain ⟨fuel, rfl⟩ := Nat.exists_eq_add_one_of_ne_zero (Nat.ne_of_gt hfuel)
      rw [Regex.readBranches, hextended]
      rfl
  | @part c l cs e es hc hpart _ ih =>
      obtain ⟨fuel, rfl⟩ := Nat.exists_eq_add_one_of_ne_zero (Nat.ne_zero_of_lt hfuel)
      have hfuel' : cs.length < fuel := by
        simp only [List.length_cons, List.length_append] at hfuel
        omega
      rw [readBranches_part hextended hc (hpart levels cs), ih hfuel']
      simp

theorem Written.read? {cs : List Char} {es : List Regex} (h : Written m cs es)
    (hextended : m.extended = false) : read? m cs = some (.sequence es) := by
  obtain ⟨hregex, hdepth⟩ := Part.sequence_simple es
  have hread : Regex.readBranches (readGroup nestingLimit) (nestingLimit + 1) (cs.length + 1)
      ⟨m, 0, []⟩ [] [] cs = some (.sequence ((es.map .simple).reverse ++ []), ⟨m, 0, []⟩, []) :=
    Written.readBranches h hextended (Nat.lt_succ_self _)
  rw [List.append_nil, ← List.map_reverse] at hread
  have hlimit : (Part.sequence (es.reverse.map .simple)).depth ≤ nestingLimit :=
    Nat.le_trans hdepth (by decide)
  rw [Regex.read?, readGroup, hread]
  dsimp only
  rw [if_pos hlimit, hregex]

/-! ## Texts and anchors -/

/-- Modes in which every character without a meaning of its own stands for itself. -/
structure Modes.Verbatim (m : Modes) : Prop where
  unicode : m.unicode = true
  ignoreCase : m.ignoreCase = false
  extended : m.extended = false

theorem Modes.Verbatim.literal? (hm : m.Verbatim) (c : Char) :
    m.literal? c false = some (char (.singleton c)) := by
  simp [Modes.literal?, Modes.fold, hm.unicode, hm.ignoreCase]

/-- The characters of a text, as expressions. -/
def characters (text : List Char) : List Regex := text.map fun c => char (.singleton c)

theorem written_quote (hm : m.Verbatim) (text : List Char) :
    Written m (quote text) (characters text) := by
  induction text with
  | nil => exact .nil
  | cons c text ih =>
      rw [quote, List.flatMap_cons, ← quote]
      by_cases hc : c ∈ metacharacters
      · have hall : ∀ d ∈ metacharacters, isPunctuation d = true := List.all_eq_true.mp rfl
        have hescape (tail : List Char) :
            escape? m (c :: tail) = some (.literal c false, tail) := by
          unfold escape?
          simp [hall c hc]
        rw [if_pos hc]
        refine .part (l := [c]) (by decide) (fun levels tail => ?_) ih
        rw [part?, List.singleton_append, hescape]
        simp only [Option.bind_eq_bind, Option.bind_some, hm.literal?]
        rfl
      · have hsub : operators ⊆ metacharacters := by decide
        have hpart (levels : Nat) (tail : List Char) : part? levels m (c :: tail) =
            (m.literal? c false).map (⟨·, 0, true⟩, tail) := by
          unfold part?
          split <;> simp_all [metacharacters]
        rw [if_neg hc]
        refine .part (l := []) (fun hmem => hc (hsub hmem)) (fun levels tail => ?_) ih
        rw [hpart, hm.literal?]
        rfl

end Regex

/-- The parts of the expression that an anchored text denotes. -/
def Anchor.parts (a : Anchor) (text : List Char) : List Regex :=
  match a with
  | start => .look .textStart :: Regex.characters text
  | stop => Regex.characters text ++ [.look .textEnd]
  | anywhere => Regex.characters text

/-- The source of an anchored text is read as its characters with a condition in front of them or
behind them. -/
theorem Anchor.read?_source {m : Regex.Modes} (hm : m.Verbatim) (a : Anchor) (text : List Char) :
    Regex.read? m (a.source text) = some (.sequence (a.parts text)) := by
  have hlook {c : Char} {l : Look} (h : ∀ levels tail,
      Regex.part? levels m ('\\' :: c :: tail) = some (.simple (.look l), tail)) :
      Regex.Written m ['\\', c] [.look l] :=
    .part (l := [c]) (by decide) h .nil
  have hquote := Regex.written_quote hm text
  have hwritten : Regex.Written m (a.source text) (a.parts text) := by
    cases a with
    | start => exact (hlook fun _ _ => rfl).append hquote
    | stop => exact hquote.append (hlook fun _ _ => rfl)
    | anywhere => exact hquote
  exact hwritten.read? hm.extended

end TreePattern
