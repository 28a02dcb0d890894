import TreePattern.Proofs.Grammar.Reading
import TreePattern.Proofs.Pattern.Parts
import TreePattern.Tree.Builder

/-! Attributes that are inserted one after another, by hand, by a builder or by reading a text. Main
statement: `Node.insertions_keepLast` — in each of these ways a node has every name once, where it
came first, with the value that it was given last. -/

namespace TreePattern

namespace Node

variable {α : Type}

/-- The value that a name is given last. -/
def IsLastValue (as : List (String × α)) (name : String) (v : α) : Prop :=
  ∃ before after, as = before ++ (name, v) :: after ∧ name ∉ after.map (·.1)

/-- A node with what is left of attributes that are inserted in turn: every name once, in the order
in which the names came first, with the value that it was given last. -/
structure KeepsLast (as : List (String × α)) (n : Node α) : Prop where
  nodup : n.names.Nodup
  mem_names : ∀ name, name ∈ n.names ↔ name ∈ as.map (·.1)
  order : n.names.Pairwise fun a b => (as.map (·.1)).idxOf a < (as.map (·.1)).idxOf b
  mem_attributes : ∀ name v, (name, v) ∈ n.attributes ↔ IsLastValue as name v
  get?_eq_some : ∀ name v, n.get? name = some v ↔ IsLastValue as name v
  get?_eq_none : ∀ name, n.get? name = none ↔ name ∉ as.map (·.1)
  size : n.size = (as.map (·.1)).toFinset.card

/-! ## One insertion after another -/

theorem lookup_lastValues (as : List (String × α)) (name : String) :
    (lastValues as).lookup name = as.reverse.lookup name := by
  induction as using List.reverseRecOn with
  | nil => rfl
  | append_singleton as a ih =>
      rw [lastValues_append_singleton, lookup_setIn, ih, List.reverse_append,
        List.reverse_singleton, List.singleton_append, List.lookup_cons]
      by_cases h : name = a.1
      · simp [h]
      · simp [h, beq_false_of_ne]

theorem forall_bne_iff {name : String} {l : List (String × α)} :
    (∀ a ∈ l, (name != a.1) = true) ↔ name ∉ l.map (·.1) := by
  simp only [bne_iff_ne, List.mem_map, not_exists, not_and, ne_comm (a := name), ne_eq]

theorem lookup_reverse_eq_some_iff {as : List (String × α)} {name : String} {v : α} :
    as.reverse.lookup name = some v ↔ IsLastValue as name v := by
  simp only [List.lookup_eq_some_iff, forall_bne_iff]
  constructor
  · rintro ⟨l, l', h, hl⟩
    refine ⟨l'.reverse, l.reverse, ?_, by simpa using hl⟩
    rw [← List.reverse_reverse as, h]
    simp
  · rintro ⟨before, after, rfl, hafter⟩
    exact ⟨after.reverse, before.reverse, by simp, by simpa using hafter⟩

/-- Without the repetitions, names stand in the order in which they came first. -/
theorem pairwise_idxOf_eraseDups (names : List String) :
    names.eraseDups.Pairwise fun a b => names.idxOf a < names.idxOf b := by
  induction names using List.reverseRecOn with
  | nil => simp
  | append_singleton names a ih =>
      have hold : names.eraseDups.Pairwise fun b c =>
          (names ++ [a]).idxOf b < (names ++ [a]).idxOf c := by
        refine ih.imp_of_mem fun hb hc hlt => ?_
        rwa [List.idxOf_append_of_mem (List.mem_eraseDups.mp hb),
          List.idxOf_append_of_mem (List.mem_eraseDups.mp hc)]
      by_cases ha : a ∈ names
      · rwa [eraseDups_concat_of_mem ha]
      · rw [eraseDups_concat_of_not_mem ha, List.pairwise_append]
        refine ⟨hold, List.pairwise_singleton _ a, fun b hb c hc => ?_⟩
        obtain rfl := List.mem_singleton.mp hc
        have hb' := List.mem_eraseDups.mp hb
        rw [List.idxOf_append_of_mem hb', List.idxOf_append_of_notMem ha]
        exact Nat.lt_add_right _ (List.idxOf_lt_length_iff.mpr hb')

theorem keepsLast_lastValues (className : String) (as : List (String × α)) :
    KeepsLast as ⟨className, lastValues as⟩ := by
  have hnames : names ⟨className, lastValues as⟩ = (as.map (·.1)).eraseDups := map_fst_lastValues as
  have hsome (name : String) (v : α) :
      (lastValues as).lookup name = some v ↔ IsLastValue as name v := by
    rw [lookup_lastValues, lookup_reverse_eq_some_iff]
  constructor
  case nodup => exact nodup_map_fst_lastValues as
  case mem_names =>
    intro name
    rw [hnames, List.mem_eraseDups]
  case order =>
    rw [hnames]
    exact pairwise_idxOf_eraseDups _
  case mem_attributes =>
    intro name v
    rw [← hsome]
    exact ⟨lookup_of_mem (nodup_map_fst_lastValues as), mem_of_lookup⟩
  case get?_eq_some => exact hsome
  case get?_eq_none =>
    intro name
    rw [get?, lookup_lastValues, List.lookup_eq_none_iff, forall_bne_iff, List.map_reverse,
      List.mem_reverse]
  case size =>
    have hlength : size ⟨className, lastValues as⟩ = (names ⟨className, lastValues as⟩).length := by
      rw [names, List.length_map, size]
    rw [hlength, hnames, length_eraseDups]

end Node

open Pattern (IsPart)
open Terminal (plain name)

namespace Grammar

open Pattern (isPart_node isPart_choice isPart_array)

variable {limit : Nat} {E : List Terminal → Pattern → Prop} {ts us : List Terminal} {p : Pattern}

/-! ## Nodes of a text -/

/-- A class name somewhere among terminals, with the attributes behind it. -/
def HasNode (limit : Nat) (ts : List Terminal) (className : String)
    (as : List (String × Pattern)) : Prop :=
  ∃ levels l us, plain .className l :: us <:+: ts ∧
    IsAttributes limit (IsExpression limit levels) us as ∧ className = .ofList l

/-- Every node of the pattern keeps the attributes that stand behind a class name among the
terminals. -/
def KeepsAttributes (limit : Nat) (ts : List Terminal) (p : Pattern) : Prop :=
  ∀ n, IsPart (.node n) p → ∃ as, HasNode limit ts n.className as ∧ n.KeepsLast as

theorem KeepsAttributes.mono (h : KeepsAttributes limit us p) (hus : us <:+: ts) :
    KeepsAttributes limit ts p := by
  intro n hn
  obtain ⟨as, ⟨levels, l, vs, hvs, has⟩, hkeeps⟩ := h n hn
  exact ⟨as, ⟨levels, l, vs, hvs.trans hus, has⟩, hkeeps⟩

section

variable (hE : ∀ us p, E us p → KeepsAttributes limit us p)
include hE

theorem IsConstraint.keepsAttributes {a : String × Pattern} (h : IsConstraint limit E ts a) :
    KeepsAttributes limit ts a.2 := by
  cases h with
  | equals b l h => exact (hE _ _ h).mono ⟨[name b, plain .equals l], [], by simp⟩
  | matching b l hop h => cases h <;> rintro n ⟨⟩

theorem IsItem.keepsAttributes {x : Item Pattern} (h : IsItem E ts x) :
    KeepsAttributes limit ts x.pattern := by
  cases h with
  | one h => exact hE _ _ h
  | many h _ => exact (hE _ _ h).mono (List.prefix_append _ _).isInfix

end

theorem IsPrimary.keepsAttributes {levels : Nat}
    (hE : ∀ us p, IsExpression limit levels us p → KeepsAttributes limit us p)
    (h : IsPrimary limit (IsExpression limit levels) ts p) : KeepsAttributes limit ts p := by
  intro n hn
  cases h with
  | any l => cases hn
  | scalar h => cases hn
  | @node us as l h =>
      rcases isPart_node.mp hn with heq | ⟨a, ha, hn⟩
      · cases heq
        exact ⟨as, ⟨levels, l, us, List.infix_refl _, h, rfl⟩, Node.keepsLast_lastValues _ as⟩
      · have hmem := (Node.lastValues_subperm as).subset ha
        cases h with
        | absent => cases hmem
        | @present us _ l₁ l₂ h =>
            obtain ⟨vs, hvs, hconstraint⟩ := h.mem_infix a hmem
            have hus : us <:+: plain .className l :: plain .leftAngle l₁ ::
                (us ++ [plain .rightAngle l₂]) :=
              ⟨[plain .className l, plain .leftAngle l₁], [plain .rightAngle l₂], by simp⟩
            exact (hconstraint.keepsAttributes hE).mono (hvs.trans hus) n hn
  | @array us xs l h =>
      rcases isPart_array.mp hn with heq | ⟨x, hx, hn⟩
      · cases heq
      · cases h with
        | nil => cases hx
        | @cons us _ l' h =>
            obtain ⟨vs, hvs, hitem⟩ := h.mem_infix x hx
            have hus : us <:+: plain .leftBracket l :: (us ++ [plain .rightBracket l']) :=
              ⟨[plain .leftBracket l], [plain .rightBracket l'], by simp⟩
            exact (hitem.keepsAttributes hE).mono (hvs.trans hus) n hn

/-- Nodes at every depth keep their attributes, by induction on the expressions inside. -/
theorem IsExpression.keepsAttributes {levels : Nat} (h : IsExpression limit levels ts p) :
    KeepsAttributes limit ts p := by
  induction levels generalizing ts p with
  | zero => exact absurd h id
  | succ levels ih =>
      obtain ⟨ps, hps, hchoice⟩ := h
      have hprimary : ∀ q ∈ ps, KeepsAttributes limit ts q := by
        intro q hq
        obtain ⟨us, hus, hprimary⟩ := hps.mem_infix q hq
        exact (hprimary.keepsAttributes fun _ _ => ih).mono hus
      cases hchoice with
      | single p => exact hprimary p List.mem_cons_self
      | choice p q qs =>
          intro n hn
          rcases isPart_choice.mp hn with heq | ⟨r, hr, hn⟩
          · cases heq
          · exact hprimary r hr n hn

end Grammar

namespace Node

/-- However attributes are inserted one after another, into the node of a tree or of a pattern, by a
builder, or as the attributes behind a class name in a text, the node keeps the last value of each
name, at the place where the name came first. -/
theorem insertions_keepLast :
    (∀ (className : String) (as : List (String × Value)),
      KeepsLast as (as.foldl (fun t a => t.set a.1 a.2) { className })) ∧
    (∀ (className : String) (as : List (String × Pattern)),
      KeepsLast as (as.foldl (fun n a => n.set a.1 a.2) { className })) ∧
    (∀ (b : Builder) (name : String) (as : List (String × Value)) (className : String),
      b.className? name = some className →
        ∃ t, b.node name as = .ok t ∧ t.className = className ∧ KeepsLast as t) ∧
    ∀ (options : Options) (text : String) (p : Pattern),
      Pattern.parse options text = .ok p →
        ∃ ts rest, Grammar.IsExpression options.regexSizeLimit options.maxDepth ts p ∧
          Tiles text.toList ts rest ∧ (∀ c ∈ rest, Token.isBlank c = true) ∧
          ∀ n, IsPart (.node n) p →
            ∃ as, Grammar.HasNode options.regexSizeLimit ts n.className as ∧ n.KeepsLast as := by
  have hfold {α : Type} (className : String) (as : List (String × α)) :
      KeepsLast as (ofAttributes className as) := by
    rw [ofAttributes_eq]
    exact keepsLast_lastValues className as
  refine ⟨hfold, hfold, fun b name as className hname => ?_, fun options text p hparse => ?_⟩
  · refine ⟨ofAttributes className as, ?_, ?_, hfold className as⟩
    · rw [Builder.node, hname]
    · rw [ofAttributes_eq]
  · obtain ⟨ts, rest, hts, htiles, hblank⟩ := Pattern.exists_derivation hparse
    exact ⟨ts, rest, hts, htiles, hblank, hts.keepsAttributes⟩

/-- A name that comes twice, given to a builder and in a text. -/
theorem insertions_keepLast_repeated :
    (Builder.className? ⟨[("send_node", "SendNode")]⟩ "send_node" = some "SendNode" ∧
      ∃ t, Builder.node ⟨[("send_node", "SendNode")]⟩ "send_node"
          [("a", .scalar .nil), ("b", .array []), ("a", .scalar (.integer 3))] = .ok t ∧
        t.className = "SendNode" ∧
        KeepsLast [("a", .scalar .nil), ("b", .array []), ("a", .scalar (.integer 3))] t) ∧
    Pattern.parse {} "Foo<a = 1, b = nil, a = any>" =
        .ok (.node ⟨"Foo", [("a", .any), ("b", .scalar .nil)]⟩) ∧
      ∃ ts as, Grammar.HasNode Regexp.defaultSizeLimit ts "Foo" as ∧
        KeepsLast as ⟨"Foo", [("a", .any), ("b", .scalar .nil)]⟩ := by
  obtain ⟨_, _, hbuilder, hparsed⟩ := insertions_keepLast
  have hname : Builder.className? ⟨[("send_node", "SendNode")]⟩ "send_node" = some "SendNode" := rfl
  have hparse : Pattern.parse {} "Foo<a = 1, b = nil, a = any>" =
      .ok (.node ⟨"Foo", [("a", .any), ("b", .scalar .nil)]⟩) := rfl
  obtain ⟨ts, _, _, _, _, hkeeps⟩ := hparsed {} _ _ hparse
  exact ⟨⟨hname, hbuilder _ _ _ _ hname⟩, hparse, ts, hkeeps _ .refl⟩

end Node

end TreePattern
