import TreePattern.Proofs.Matching.Meaning
import TreePattern.Proofs.Printing.RoundTrip

/-! Equality of the patterns that can be built. It is an equivalence, relates the patterns that
differ only in the order of attributes, and is not told apart by matching. The comparison of two
nodes goes through the attributes of the first one only; it is symmetric because no name occurs
twice. -/

namespace TreePattern

namespace Pattern

/-! ## Patterns that can be built -/

/-- The patterns that the constructors and the parser make. -/
inductive Built : Pattern → Prop where
  | any : Built any
  | scalar (s) : Built (scalar s)
  | regexp (kind r) : Built (regexp kind r)
  | node (className) : Built (node { className })
  | set {n : Node Pattern} {p} (name) (hn : Built (node n)) (hp : Built p) :
      Built (node (n.set name p))
  | choice {ps p} (h : ∀ q ∈ ps, Built q) (hp : choice? ps = some p) : Built p
  | or {p q} (hp : Built p) (hq : Built q) : Built (p.or q)
  | array {xs} (h : ∀ x ∈ xs, Built x.pattern) : Built (array xs)
  | parsed {options text p} (h : parse options text = .ok p) : Built p

theorem Keyed.set {n : Node Pattern} {p : Pattern} (name : String) (hn : Keyed (.node n))
    (hp : Keyed p) : Keyed (.node (n.set name p)) := by
  cases hn with
  | node hnames h =>
      refine .node (Node.nodup_map_fst_setIn name p hnames) fun b hb => ?_
      rcases Node.mem_of_mem_setIn hb with rfl | hb
      · exact hp
      · exact h b hb

theorem Keyed.or {p q : Pattern} (hp : Keyed p) (hq : Keyed q) : Keyed (p.or q) := by
  have hpair : Keyed (.choice p [q]) :=
    .choice (List.forall_mem_cons.mpr ⟨hp, List.forall_mem_singleton.mpr hq⟩)
  cases hp with
  | choice h =>
      rw [Pattern.or, ← List.concat_eq_append]
      refine .choice fun r hr => ?_
      rw [List.concat_eq_append, ← List.cons_append, List.mem_append, List.mem_singleton] at hr
      rcases hr with hr | rfl
      · exact h r hr
      · exact hq
  | any | scalar s | regexp kind r | node hnames h | array h => exact hpair

/-- Setting attributes in turn never gives a node two of one name. -/
theorem Built.keyed {p : Pattern} (h : Built p) : Keyed p := by
  induction h with
  | any => exact .any
  | scalar s => exact .scalar s
  | regexp kind r => exact .regexp kind r
  | node className => exact .node List.nodup_nil nofun
  | set name _ _ hn hp => exact hn.set name hp
  | @choice ps p _ hp ih =>
      cases ps with
      | nil => cases hp
      | cons q ps =>
          cases hp
          exact .choice ih
  | or _ _ hp hq => exact hp.or hq
  | array _ ih => exact .array ih
  | parsed h => exact (wellFormed_of_parse h).keyed

/-! ## Induction over equal patterns -/

/-- Induction over two equal patterns with distinct attributes: wherever one has a part, the other
has the equal one. -/
@[elab_as_elim]
theorem equal_induction {motive : Pattern → Pattern → Prop} (any : motive any any)
    (scalar : ∀ s, motive (scalar s) (scalar s))
    (regexp : ∀ kind r, motive (regexp kind r) (regexp kind r))
    (node : ∀ className as bs, Node.Corresponds motive as bs →
      motive (node ⟨className, as⟩) (node ⟨className, bs⟩))
    (choice : ∀ p ps q qs, List.Forall₂ motive (p :: ps) (q :: qs) →
      motive (choice p ps) (choice q qs))
    (array : ∀ xs ys, List.Forall₂ (Item.Related motive) xs ys → motive (array xs) (array ys))
    {p q : Pattern} (hp : Keyed p) (hq : Keyed q) (h : p.equal q = true) : motive p q := by
  induction hp generalizing q with
  | any =>
      cases q with
      | any => exact any
      | _ => simp [equal] at h
  | scalar s =>
      cases q with
      | scalar t =>
          rw [equal, beq_iff_eq] at h
          exact h ▸ scalar s
      | _ => simp [equal] at h
  | regexp kind r =>
      cases q with
      | regexp kind' r' =>
          rw [equal, Bool.and_eq_true, beq_iff_eq, beq_iff_eq] at h
          obtain ⟨rfl, rfl⟩ := h
          exact regexp kind r
      | _ => simp [equal] at h
  | @node className as hnames _ ih =>
      cases hq with
      | @node className' bs hnames' hbs =>
          obtain ⟨rfl, hlength, hequal⟩ := equal_node_iff.mp h
          refine node className as bs ⟨hnames, hnames', hlength, fun a ha => ?_⟩
          obtain ⟨w, hw, haw⟩ := hequal a ha
          exact ⟨w, hw, ih a ha (hbs _ (Node.mem_of_lookup hw)) haw⟩
      | _ => simp [equal] at h
  | @choice p ps _ ih =>
      cases hq with
      | @choice q qs hqs =>
          refine choice p ps q qs ?_
          have hequal := equal_choice_iff.mp h
          exact forall₂_imp_of_mem hequal fun r hr s hs => ih r hr (hqs s hs)
      | _ => simp [equal] at h
  | @array xs _ ih =>
      cases hq with
      | @array ys hys =>
          refine array xs ys ?_
          have hequal := equal_array_iff.mp h
          exact forall₂_imp_of_mem hequal fun x hx y hy hxy =>
            hxy.imp fun hpq => ih x hx (hys y hy) hpq
      | _ => simp [equal] at h

theorem equal_symm {p q : Pattern} (hp : Keyed p) (hq : Keyed q) (h : p.equal q = true) :
    q.equal p = true := by
  refine equal_induction (motive := fun p q => q.equal p = true) ?any ?scalar ?regexp ?node ?choice
    ?array hp hq h
  case any => simp [equal]
  case scalar =>
    intro s
    simp [equal]
  case regexp =>
    intro kind r
    simp [equal]
  case node =>
    intro className as bs h
    exact equal_node_iff.mpr ⟨rfl, h.symm.length_eq, h.symm.lookup⟩
  case choice =>
    intro p ps q qs h
    exact equal_choice_iff.mpr h.flip
  case array =>
    intro xs ys h
    exact equal_array_iff.mpr (List.Forall₂.flip (h.imp fun _ _ => Item.Related.symm))

theorem equal_trans {p q r : Pattern} (hp : Keyed p) (hq : Keyed q) (h : p.equal q = true)
    (h' : q.equal r = true) : p.equal r = true := by
  refine equal_induction (motive := fun p q => ∀ r, q.equal r = true → p.equal r = true)
    (fun _ h => h) (fun _ _ h => h) (fun _ _ _ h => h) ?node ?choice ?array hp hq h r h'
  case node =>
    intro className as bs h r h'
    cases r with
    | node n =>
        obtain ⟨rfl, hlength, hlookup⟩ := equal_node_iff.mp h'
        refine equal_node_iff.mpr ⟨rfl, h.length_eq.trans hlength, fun a ha => ?_⟩
        obtain ⟨q, hq, haq⟩ := h.lookup a ha
        obtain ⟨r, hr, hqr⟩ := hlookup _ (Node.mem_of_lookup hq)
        exact ⟨r, hr, haq r hqr⟩
    | _ => simp [equal] at h'
  case choice =>
    intro p ps q qs h r h'
    cases r with
    | choice r rs =>
        have hcomp := forall₂_comp h (equal_choice_iff.mp h') fun _ _ r hpq hqr => hpq r hqr
        exact equal_choice_iff.mpr hcomp
    | _ => simp [equal] at h'
  case array =>
    intro xs ys h r h'
    cases r with
    | array zs =>
        have hcomp := forall₂_comp h (equal_array_iff.mp h') fun _ _ _ hxy hyz =>
          hxy.comp hyz fun _ _ r hpq hqr => hpq r hqr
        exact equal_array_iff.mpr hcomp
    | _ => simp [equal] at h'

/-! ## Matching -/

theorem anyAccepts_congr {ps qs : List Pattern} {v : Value}
    (h : List.Forall₂ (fun p q => ∀ v, p.accepts v = q.accepts v) ps qs) :
    anyAccepts ps v = anyAccepts qs v := by
  induction h with
  | nil => rfl
  | cons hpq _ ih => rw [anyAccepts, anyAccepts, hpq v, ih]

theorem itemsAccept_congr {xs ys : List (Item Pattern)} {vs : List Value}
    (h : List.Forall₂ (Item.Related fun p q => ∀ v, p.accepts v = q.accepts v) xs ys) :
    itemsAccept xs vs = itemsAccept ys vs := by
  induction h with
  | nil => rfl
  | cons hxy _ ih =>
      rw [itemsAccept, itemsAccept, ih]
      cases hxy with
      | one h => rw [itemAccepts, itemAccepts, funext h]
      | many k h => rw [itemAccepts, itemAccepts, funext h]

theorem attributesAccept_of_corresponds {as bs : List (String × Pattern)} {m : Tree}
    (h : Node.Corresponds (fun p q => ∀ v, p.accepts v = q.accepts v) as bs)
    (hbs : attributesAccept bs m = true) : attributesAccept as m = true := by
  rw [attributesAccept_iff] at hbs ⊢
  intro a ha
  obtain ⟨q, hq, haq⟩ := h.lookup a ha
  obtain ⟨v, hv, haccepts⟩ := hbs _ (Node.mem_of_lookup hq)
  exact ⟨v, hv, (haq v).trans haccepts⟩

/-- Equal patterns accept the same values. -/
theorem accepts_congr {p q : Pattern} (hp : Keyed p) (hq : Keyed q) (h : p.equal q = true)
    (v : Value) : p.accepts v = q.accepts v := by
  refine equal_induction (motive := fun p q => ∀ v, p.accepts v = q.accepts v) ?any ?scalar ?regexp
    ?node ?choice ?array hp hq h v
  case any => exact fun v => rfl
  case scalar => exact fun s v => rfl
  case regexp => exact fun kind r v => rfl
  case node =>
    intro className as bs h v
    cases v with
    | node m =>
        have hattributes : attributesAccept as m = attributesAccept bs m := by
          rw [Bool.eq_iff_iff]
          exact ⟨attributesAccept_of_corresponds (by simpa only [eq_comm] using h.symm),
            attributesAccept_of_corresponds h⟩
        rw [accepts, accepts, nodeAccepts, nodeAccepts, hattributes]
    | _ => rfl
  case choice =>
    intro p ps q qs h v
    rw [accepts, accepts, ← anyAccepts, ← anyAccepts, anyAccepts_congr h]
  case array =>
    intro xs ys h v
    cases v with
    | array vs => rw [accepts, accepts, itemsAccept_congr h]
    | _ => rfl

/-! ## Other orders of attributes -/

/-- Patterns that differ only in the order in which attributes, of distinct names, have been set on
their nodes, at any depth. -/
inductive Rearranged : Pattern → Pattern → Prop where
  | any : Rearranged any any
  | scalar (s) : Rearranged (scalar s) (scalar s)
  | regexp (kind r) : Rearranged (regexp kind r) (regexp kind r)
  | node {as bs cs} (className) (hdistinct : (as.map (·.1)).Nodup)
      (h : List.Forall₂ (Node.Paired Rearranged) as bs) (hperm : bs.Perm cs) :
      Rearranged (node (.ofAttributes className as)) (node (.ofAttributes className cs))
  | choice {p ps q qs} (h : List.Forall₂ Rearranged (p :: ps) (q :: qs)) :
      Rearranged (choice p ps) (choice q qs)
  | array {xs ys} (h : List.Forall₂ (Item.Related Rearranged) xs ys) :
      Rearranged (array xs) (array ys)

theorem rearranged_of_equal {p q : Pattern} (hp : Keyed p) (hq : Keyed q) (h : p.equal q = true) :
    Rearranged p q := by
  refine equal_induction .any .scalar .regexp ?node (fun _ _ _ _ => .choice) (fun _ _ => .array)
    hp hq h
  intro className as bs h
  obtain ⟨hdistinct, cs, hcs, hperm⟩ := Node.corresponds_iff_perm.mp h
  rw [← Node.ofAttributes_of_nodup className h.left, ← Node.ofAttributes_of_nodup className h.right]
  exact .node className hdistinct hcs hperm

theorem rearranged_node {m : Node Pattern} {q : Pattern} (h : Rearranged (node m) q) :
    ∃ className as bs, m = ⟨className, as⟩ ∧ q = node ⟨className, bs⟩ ∧
      Node.Corresponds Rearranged as bs := by
  cases h with
  | node className hdistinct h hperm =>
      have hcorresponds := Node.corresponds_iff_perm.mpr ⟨hdistinct, _, h, hperm⟩
      rw [Node.ofAttributes_of_nodup className hcorresponds.left,
        Node.ofAttributes_of_nodup className hcorresponds.right]
      exact ⟨className, _, _, rfl, rfl, hcorresponds⟩

theorem equal_of_rearranged {p q : Pattern} (h : Rearranged p q) : p.equal q = true := by
  induction p generalizing q with
  | any | scalar s | regexp kind r =>
      cases h
      simp [equal]
  | node className as ih =>
      obtain ⟨_, _, bs, ⟨⟩, rfl, hcorresponds⟩ := rearranged_node h
      refine equal_node_iff.mpr ⟨rfl, hcorresponds.length_eq, fun a ha => ?_⟩
      obtain ⟨w, hw, haw⟩ := hcorresponds.lookup a ha
      exact ⟨w, hw, ih a ha haw⟩
  | choice p ps ih ihs =>
      cases h with
      | choice h =>
          refine equal_choice_iff.mpr (forall₂_imp_of_mem h fun r hr s _ hrs => ?_)
          rcases List.mem_cons.mp hr with rfl | hr
          · exact ih hrs
          · exact ihs r hr hrs
  | array xs ih =>
      cases h with
      | array h =>
          exact equal_array_iff.mpr
            (forall₂_imp_of_mem h fun x hx y _ hxy => hxy.imp fun hpq => ih x hx hpq)

theorem equal_iff_rearranged {p q : Pattern} (hp : Keyed p) (hq : Keyed q) :
    p.equal q = true ↔ Rearranged p q :=
  ⟨rearranged_of_equal hp hq, equal_of_rearranged⟩

/-- On the patterns that can be built, equality is an equivalence. It means that the patterns differ
in nothing but the order in which attributes have been set, and then they accept the same values. -/
theorem equal_congruence (p q r : Pattern) (hp : Built p) (hq : Built q) :
    (p == p) = true ∧ ((p == q) = true → (q == p) = true) ∧
      ((p == q) = true → (q == r) = true → (p == r) = true) ∧
      ((p == q) = true ↔ Rearranged p q) ∧
      ((p == q) = true → ∀ v, p.accepts v = q.accepts v) :=
  ⟨hp.keyed.equal_refl, equal_symm hp.keyed hq.keyed, equal_trans hp.keyed hq.keyed,
    equal_iff_rearranged hp.keyed hq.keyed, accepts_congr hp.keyed hq.keyed⟩

/-- A pattern that has been read, and one that has been built the other way round. -/
theorem equal_congruence_reordered :
    let p := node ⟨"Foo", [("a", array [.many .odd (node ⟨"Bar", [("c", any), ("d", any)]⟩)]),
      ("b", scalar .nil)]⟩
    let q := node ⟨"Foo", [("b", scalar .nil),
      ("a", array [.many .odd (node ⟨"Bar", [("d", any), ("c", any)]⟩)])]⟩
    Built p ∧ Built q ∧ (p == q) = true ∧ (q == p) = true ∧ Rearranged p q ∧
      ∀ v, p.accepts v = q.accepts v := by
  intro p q
  have hparse : parse {} "Foo<a = [Bar<c = any, d = any>\x7bodd\x7d], b = nil>" = .ok p := by
    simp only [p]
    rfl
  have hp : Built p := .parsed hparse
  have hbar : Built (node ⟨"Bar", [("d", any), ("c", any)]⟩) :=
    .set "c" (.set "d" (.node "Bar") .any) .any
  have hq : Built q :=
    .set "a" (.set "b" (.node "Foo") (.scalar .nil)) (.array (List.forall_mem_singleton.mpr hbar))
  have hequal : (p == q) = true := by decide +kernel
  obtain ⟨_, hsymm, _, hrearranged, haccepts⟩ := equal_congruence p q p hp hq
  exact ⟨hp, hq, hequal, hsymm hequal, hrearranged.mp hequal, haccepts hequal⟩

end Pattern

end TreePattern
