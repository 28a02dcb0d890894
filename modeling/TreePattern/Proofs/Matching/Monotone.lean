import TreePattern.Proofs.Pattern.Equality
import TreePattern.Proofs.Tree.Coverage

/-! Matching is open on attributes. What matches a value matches every value that covers it: the
segments into which an array is cut do the same for the covering elements, and an attribute that a
pattern asks for is there again. The order of attributes therefore never matters. -/

namespace TreePattern

namespace Value

/-- The second value is the first one with the attributes of nodes, at any depth, in another
order. -/
inductive Reordered : Value → Value → Prop where
  | scalar (s) : Reordered (scalar s) (scalar s)
  | array {vs ws} (h : List.Forall₂ Reordered vs ws) : Reordered (array vs) (array ws)
  | node {as bs cs} (className) (hdistinct : (as.map (·.1)).Nodup)
      (h : List.Forall₂ (Node.Paired Reordered) as bs) (hperm : bs.Perm cs) :
      Reordered (node ⟨className, as⟩) (node ⟨className, cs⟩)

theorem reordered_node_iff {className : String} {as : List (String × Value)} {w : Value} :
    Reordered (node ⟨className, as⟩) w ↔
      ∃ bs, w = node ⟨className, bs⟩ ∧ Node.Corresponds Reordered as bs := by
  constructor
  · rintro (_ | _ | ⟨_, hdistinct, h, hperm⟩)
    exact ⟨_, rfl, Node.corresponds_iff_perm.mpr ⟨hdistinct, _, h, hperm⟩⟩
  · rintro ⟨bs, rfl, h⟩
    obtain ⟨hdistinct, cs, hcs, hperm⟩ := Node.corresponds_iff_perm.mp h
    exact .node className hdistinct hcs hperm

/-- Values that differ only in the order of attributes cover each other. -/
theorem Reordered.covers {v w : Value} (h : Reordered v w) : Covers w v ∧ Covers v w := by
  induction v generalizing w with
  | scalar s =>
      cases h
      exact ⟨.scalar s, .scalar s⟩
  | array vs ih =>
      cases h with
      | @array _ ws h =>
          have hboth : List.Forall₂ (fun v w => Covers w v ∧ Covers v w) vs ws :=
            forall₂_imp_of_mem h fun v hv w _ => ih v hv
          exact ⟨.array (hboth.imp fun _ _ => And.left).flip,
            .array (hboth.imp fun _ _ => And.right)⟩
  | node className as ih =>
      obtain ⟨bs, rfl, hcorresponds⟩ := reordered_node_iff.mp h
      refine ⟨covers_node_iff.mpr ⟨_, rfl, rfl, fun a ha => ?_⟩,
        covers_node_iff.mpr ⟨_, rfl, rfl, fun b hb => ?_⟩⟩
      · obtain ⟨w, hw, haw⟩ := hcorresponds.lookup a ha
        exact ⟨w, hw, (ih a ha haw).1⟩
      · obtain ⟨v, hv, hvb⟩ := hcorresponds.symm.lookup b hb
        exact ⟨v, hv, (ih _ (Node.mem_of_lookup hv) hvb).2⟩

end Value

namespace Pattern

theorem matches_of_forall₂ {p : Pattern} {vs ws : List Value}
    (hp : ∀ v w, Matches p v → Value.Covers w v → Matches p w)
    (hcovers : List.Forall₂ Value.Covers ws vs) (h : ∀ v ∈ vs, Matches p v) :
    ∀ w ∈ ws, Matches p w := by
  induction hcovers with
  | nil => nofun
  | cons hwv _ ih =>
      obtain ⟨hv, hvs⟩ := List.forall_mem_cons.mp h
      exact List.forall_mem_cons.mpr ⟨hp _ _ hv hwv, ih hvs⟩

/-- The same cut goes through the covering elements. -/
theorem cut_mono {items : List (Item Pattern)} {vs ws : List Value}
    (hitems : ∀ x ∈ items, ∀ v w, Matches x.pattern v → Value.Covers w v → Matches x.pattern w)
    (hcovers : List.Forall₂ Value.Covers ws vs) (h : Cut items vs) : Cut items ws := by
  induction items generalizing vs ws with
  | nil =>
      obtain rfl := (cut_nil vs).mp h
      exact (cut_nil ws).mpr (List.forall₂_nil_right_iff.mp hcovers)
  | cons x items ih =>
      obtain ⟨hx, hrest⟩ := List.forall_mem_cons.mp hitems
      cases x with
      | one p =>
          obtain ⟨v, rest, rfl, hv, hcut⟩ := (cut_one p items vs).mp h
          obtain ⟨w, rest', hw, hrest', rfl⟩ := List.forall₂_cons_right_iff.mp hcovers
          exact (cut_one p items _).mpr ⟨w, rest', rfl, hx v w hv hw, ih hrest hrest' hcut⟩
      | many q p =>
          obtain ⟨k, hk, hallows, hmatches, hcut⟩ := (cut_many q p items vs).mp h
          have hk' : k ≤ ws.length := hcovers.length_eq ▸ hk
          exact (cut_many q p items ws).mpr ⟨k, hk', hallows,
            matches_of_forall₂ hx (List.forall₂_take k hcovers) hmatches,
            ih hrest (List.forall₂_drop k hcovers) hcut⟩

/-- A pattern stands for every value that covers one that it stands for, by induction on the
pattern. -/
theorem matches_mono {p : Pattern} {v w : Value} (h : Matches p v) (hcovers : Value.Covers w v) :
    Matches p w := by
  induction p generalizing v w with
  | any => exact .any w
  | scalar s =>
      cases h
      obtain rfl := Value.covers_scalar_iff.mp hcovers
      exact .scalar s
  | regexp kind r =>
      cases h with
      | regexpSymbol hk hr =>
          obtain rfl := Value.covers_scalar_iff.mp hcovers
          exact .regexpSymbol hk hr
      | regexpString hk hr =>
          obtain rfl := Value.covers_scalar_iff.mp hcovers
          exact .regexpString hk hr
  | node className attributes ih =>
      cases h with
      | @node _ m hclass hsome hmatches =>
          obtain ⟨m', rfl, hclass', hlookup⟩ := Value.covers_node_iff.mp hcovers
          have hattribute : ∀ a ∈ attributes, ∃ u, m'.get? a.1 = some u ∧ Matches a.2 u := by
            intro a ha
            obtain ⟨x, hx⟩ := Option.isSome_iff_exists.mp (hsome a ha)
            obtain ⟨u, hu, hux⟩ := hlookup _ (Node.mem_of_lookup hx)
            exact ⟨u, hu, ih a ha (hmatches a ha x hx) hux⟩
          refine .node (hclass'.trans hclass) (fun a ha => ?_) fun a ha u hu => ?_
          · obtain ⟨u, hu, _⟩ := hattribute a ha
            exact Option.isSome_iff_exists.mpr ⟨u, hu⟩
          · obtain ⟨u', hu', hmatches'⟩ := hattribute a ha
            obtain rfl := Option.some.inj (hu.symm.trans hu')
            exact hmatches'
  | choice p ps ih ihs =>
      cases h with
      | @choice _ _ q _ hq h =>
          refine .choice hq ?_
          rcases List.mem_cons.mp hq with rfl | hmem
          · exact ih h hcovers
          · exact ihs q hmem h hcovers
  | array items ih =>
      cases h with
      | @array _ segments h =>
          obtain ⟨ws, rfl, hws⟩ := Value.covers_array_iff.mp hcovers
          have hitems : ∀ x ∈ items, ∀ v w, Matches x.pattern v → Value.Covers w v →
              Matches x.pattern w := fun x hx v w => ih x hx
          obtain ⟨segments', h', rfl⟩ := cut_mono hitems hws ⟨segments, h, rfl⟩
          exact .array h'

/-- Whatever covers an accepted value is accepted, and reordering attributes changes nothing. -/
theorem accepts_mono (p : Pattern) :
    (∀ v w, Value.Covers w v → p.accepts v = true → p.accepts w = true) ∧
      ∀ v w, Value.Reordered v w → p.accepts v = p.accepts w := by
  have hmono : ∀ v w, Value.Covers w v → p.accepts v = true → p.accepts w = true := by
    intro v w hcovers h
    rw [accepts_iff] at h ⊢
    exact matches_mono h hcovers
  refine ⟨hmono, fun v w h => ?_⟩
  rw [Bool.eq_iff_iff]
  exact ⟨hmono v w h.covers.1, hmono w v h.covers.2⟩

/-- More attributes, and these in another order, around an array with a quantifier. -/
theorem accepts_mono_nested :
    let p := node ⟨"Foo", [("a", array [.many .odd (node ⟨"Bar", [("b", any)]⟩), .one any])]⟩
    let bar := Value.node ⟨"Bar", [("b", .scalar .nil)]⟩
    let bar' := Value.node ⟨"Bar", [("c", .array []), ("b", .scalar .nil)]⟩
    let bar'' := Value.node ⟨"Bar", [("b", .scalar .nil), ("c", .array [])]⟩
    let v := Value.node ⟨"Foo", [("a", .array [bar, .scalar .nil])]⟩
    let w := Value.node ⟨"Foo", [("a", .array [bar', .scalar .nil]), ("d", .scalar .nil)]⟩
    let u := Value.node ⟨"Foo", [("d", .scalar .nil), ("a", .array [bar'', .scalar .nil])]⟩
    (Value.Covers w v ∧ p.accepts v = true ∧ p.accepts w = true) ∧
      Value.Reordered w u ∧ p.accepts w = p.accepts u := by
  intro p bar bar' bar'' v w u
  have hnil : Value.Covers (.scalar .nil) (.scalar .nil) := .scalar .nil
  have hbar : Value.Covers bar' bar :=
    Value.covers_node_iff.mpr ⟨_, rfl, rfl, List.forall_mem_singleton.mpr ⟨_, rfl, hnil⟩⟩
  have hcovers : Value.Covers w v :=
    Value.covers_node_iff.mpr ⟨_, rfl, rfl,
      List.forall_mem_singleton.mpr ⟨_, rfl, .array (.cons hbar (.cons hnil .nil))⟩⟩
  have hnil' : Value.Reordered (.scalar .nil) (.scalar .nil) := .scalar .nil
  have hbar' : Value.Reordered bar' bar'' :=
    .node "Bar" (by decide) (.cons (.mk "c" (.array .nil)) (.cons (.mk "b" hnil') .nil))
      (.swap _ _ _)
  have hreordered : Value.Reordered w u :=
    .node "Foo" (by decide) (.cons (.mk "a" (.array (.cons hbar' (.cons hnil' .nil))))
      (.cons (.mk "d" hnil') .nil)) (.swap _ _ _)
  have haccepts : p.accepts v = true := rfl
  exact ⟨⟨hcovers, haccepts, (accepts_mono p).1 v w hcovers haccepts⟩, hreordered,
    (accepts_mono p).2 w u hreordered⟩

end Pattern

end TreePattern
