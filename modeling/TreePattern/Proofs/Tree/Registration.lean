import TreePattern.Proofs.Tree.Attributes
import TreePattern.Tree.Builder

/-! Builders know the classes that were registered with them. Main statement:
`Builder.ofClassNames_spec` — registering succeeds exactly if different names have different builder
names, and otherwise reports the first name that collides with an earlier one. -/

namespace TreePattern.Builder

open ClassName (builderName)

/-- Different names have different builder names. -/
def NamesApart (classNames : List String) : Prop :=
  ∀ c ∈ classNames, ∀ d ∈ classNames, builderName c = builderName d → c = d

/-- `second` is the first name that has the builder name of a different one before it, and `first`
is that one. -/
def FirstCollision (classNames : List String) (first second : String) : Prop :=
  ∃ before after, classNames = before ++ second :: after ∧ NamesApart before ∧ first ∈ before ∧
    first ≠ second ∧ builderName first = builderName second

/-- A builder for the nodes of the given classes and no others. -/
structure Knows (b : Builder) (classNames : List String) : Prop where
  className?_eq_some : ∀ name c,
    b.className? name = some c ↔ c ∈ classNames ∧ builderName c = name
  size : b.size = classNames.toFinset.card
  node_eq_error : ∀ name attributes e, b.node name attributes = .error e ↔
    e = .unknownNode name ∧ ∀ c ∈ classNames, builderName c ≠ name

/-! ## The builder of a list of names -/

/-- The builder with each of the names once, in the order in which they come first. -/
def ofNames (classNames : List String) : Builder :=
  ⟨classNames.eraseDups.map fun c => (builderName c, c)⟩

section

variable {classNames : List String} {name c : String}

theorem NamesApart.of_subset {names : List String} (h : NamesApart classNames)
    (hsubset : names ⊆ classNames) : NamesApart names :=
  fun c hc d hd => h c (hsubset hc) d (hsubset hd)

theorem NamesApart.concat (h : NamesApart classNames)
    (hc : ∀ d ∈ classNames, builderName d = builderName c → d = c) :
    NamesApart (classNames ++ [c]) := by
  intro a ha b hb hname
  simp only [List.mem_append, List.mem_singleton] at ha hb
  rcases ha with ha | rfl
  · rcases hb with hb | rfl
    · exact h a ha b hb hname
    · exact hc a ha hname
  · rcases hb with hb | rfl
    · exact (hc b hb hname.symm).symm
    · rfl

theorem className?_ofNames (h : NamesApart classNames) :
    (ofNames classNames).className? name = some c ↔ c ∈ classNames ∧ builderName c = name := by
  have hkeys : ((ofNames classNames).kinds.map (·.1)).Nodup := by
    have hmap : (ofNames classNames).kinds.map (·.1) = classNames.eraseDups.map builderName := by
      simp only [ofNames, List.map_map, Function.comp_def]
    rw [hmap]
    refine List.Nodup.map_on (fun c hc d hd => ?_) (Node.nodup_eraseDups classNames)
    exact h c (List.mem_eraseDups.mp hc) d (List.mem_eraseDups.mp hd)
  have hmem : (name, c) ∈ (ofNames classNames).kinds ↔ c ∈ classNames ∧ builderName c = name := by
    simp [ofNames, List.mem_map, and_comm]
  rw [← hmem]
  exact ⟨Node.mem_of_lookup, Node.lookup_of_mem hkeys⟩

theorem className?_ofNames_eq_none (h : NamesApart classNames) :
    (ofNames classNames).className? name = none ↔ ∀ c ∈ classNames, builderName c ≠ name := by
  rw [Option.eq_none_iff_forall_ne_some]
  simp only [ne_eq, className?_ofNames h, not_and]

theorem size_ofNames (classNames : List String) :
    (ofNames classNames).size = classNames.toFinset.card := by
  rw [size, ofNames, List.length_map, Node.length_eraseDups]

theorem knows_ofNames (h : NamesApart classNames) : Knows (ofNames classNames) classNames where
  className?_eq_some _ _ := className?_ofNames h
  size := size_ofNames classNames
  node_eq_error name attributes e := by
    rw [← className?_ofNames_eq_none h, node]
    cases (ofNames classNames).className? name <;> simp [eq_comm]

/-! ## Registering -/

/-- One more name, which collides with none before it. -/
theorem register_ofNames (h : NamesApart (classNames ++ [c])) :
    (ofNames classNames).register c = .ok (ofNames (classNames ++ [c])) := by
  have hbefore : NamesApart classNames := h.of_subset (List.subset_append_left _ _)
  by_cases hc : c ∈ classNames
  · have hknown := (className?_ofNames hbefore).mpr ⟨hc, rfl⟩
    rw [register, hknown]
    simp [ofNames, Node.eraseDups_concat_of_mem hc]
  · have hunknown : (ofNames classNames).className? (builderName c) = none := by
      refine (className?_ofNames_eq_none hbefore).mpr fun d hd heq => hc ?_
      rwa [← h d (List.mem_append_left _ hd) c (by simp) heq]
    rw [register, hunknown]
    simp [ofNames, Node.eraseDups_concat_of_not_mem hc]

theorem register_collision {first : String} (h : NamesApart classNames)
    (hfirst : first ∈ classNames) (hne : first ≠ c) (hname : builderName first = builderName c) :
    (ofNames classNames).register c = .error (.duplicateName (builderName c) first c) := by
  have hknown := (className?_ofNames h).mpr ⟨hfirst, hname⟩
  rw [register, hknown]
  exact if_neg hne

/-- Names apart are all registered, by induction on the names that are left. -/
theorem foldlM_register {rest : List String} (h : NamesApart (classNames ++ rest)) :
    rest.foldlM register (ofNames classNames) = .ok (ofNames (classNames ++ rest)) := by
  induction rest generalizing classNames with
  | nil => rw [List.append_nil]; rfl
  | cons c rest ih =>
      have hsplit : classNames ++ c :: rest = classNames ++ [c] ++ rest := by simp
      rw [hsplit] at h ⊢
      rw [List.foldlM_cons, register_ofNames (h.of_subset (List.subset_append_left _ _))]
      exact ih h

theorem ofClassNames_of_namesApart (h : NamesApart classNames) :
    ofClassNames classNames = .ok (ofNames classNames) :=
  @foldlM_register [] classNames h

theorem ofClassNames_of_firstCollision {first second : String}
    (h : FirstCollision classNames first second) :
    ofClassNames classNames = .error (.duplicateName (builderName second) first second) := by
  obtain ⟨before, after, rfl, hbefore, hfirst, hne, hname⟩ := h
  have hstart : before.foldlM register {} = .ok (ofNames before) :=
    ofClassNames_of_namesApart hbefore
  rw [ofClassNames, List.foldlM_append, hstart]
  change ((second :: after).foldlM register (ofNames before) : Except BuilderError Builder) = _
  rw [List.foldlM_cons, register_collision hbefore hfirst hne hname]
  rfl

/-- Either the names are apart or one of them is the first to collide, by induction on the list from
its end: behind names that are apart, a name collides with one of them or is apart from all. -/
theorem namesApart_or_firstCollision (classNames : List String) :
    NamesApart classNames ∨ ∃ first second, FirstCollision classNames first second := by
  induction classNames using List.reverseRecOn with
  | nil => exact .inl (List.forall_mem_nil _)
  | append_singleton classNames c ih =>
      rcases ih with h | ⟨first, second, before, after, rfl, hbefore⟩
      · by_cases hc : ∃ first ∈ classNames, first ≠ c ∧ builderName first = builderName c
        · obtain ⟨first, hfirst, hne⟩ := hc
          exact .inr ⟨first, c, classNames, [], rfl, h, hfirst, hne⟩
        · refine .inl (h.concat fun d hd hname => ?_)
          by_contra hne
          exact hc ⟨d, hd, hne, hname⟩
      · exact .inr ⟨first, second, before, after ++ [c], by simp, hbefore⟩

theorem ofClassNames_eq_ok_iff {b : Builder} :
    ofClassNames classNames = .ok b ↔ NamesApart classNames ∧ b = ofNames classNames := by
  constructor
  · intro hok
    rcases namesApart_or_firstCollision classNames with h | ⟨first, second, h⟩
    · rw [ofClassNames_of_namesApart h] at hok
      exact ⟨h, (Except.ok.inj hok).symm⟩
    · rw [ofClassNames_of_firstCollision h] at hok
      cases hok
  · rintro ⟨h, rfl⟩
    exact ofClassNames_of_namesApart h

theorem ofClassNames_eq_error_iff {e : BuilderError} :
    ofClassNames classNames = .error e ↔ ∃ first second,
      FirstCollision classNames first second ∧
        e = .duplicateName (builderName second) first second := by
  constructor
  · intro herror
    rcases namesApart_or_firstCollision classNames with h | ⟨first, second, h⟩
    · rw [ofClassNames_of_namesApart h] at herror
      cases herror
    · rw [ofClassNames_of_firstCollision h] at herror
      exact ⟨first, second, h, (Except.error.inj herror).symm⟩
  · rintro ⟨first, second, h, rfl⟩
    exact ofClassNames_of_firstCollision h

theorem exists_ofClassNames_eq_ok_iff :
    (∃ b, ofClassNames classNames = .ok b) ↔ NamesApart classNames := by
  simp only [ofClassNames_eq_ok_iff, exists_and_left, exists_eq, and_true]

end

/-- A list of class names gives a builder exactly if its different names have different builder
names, in whatever order they stand and however often. The builder knows the listed classes and no
others. Otherwise the error tells the first name that collides with a different one before it. -/
theorem ofClassNames_spec (classNames : List String) :
    ((∃ b, ofClassNames classNames = .ok b) ↔ NamesApart classNames) ∧
      (∀ names : List String, (∀ c, c ∈ names ↔ c ∈ classNames) →
        ((∃ b, ofClassNames names = .ok b) ↔ ∃ b, ofClassNames classNames = .ok b)) ∧
      (∀ b, ofClassNames classNames = .ok b → b.Knows classNames) ∧
      ∀ e, ofClassNames classNames = .error e ↔ ∃ first second,
        FirstCollision classNames first second ∧
          e = .duplicateName (builderName second) first second := by
  refine ⟨exists_ofClassNames_eq_ok_iff, fun names hnames => ?_, fun b h => ?_,
    fun e => ofClassNames_eq_error_iff⟩
  · rw [exists_ofClassNames_eq_ok_iff, exists_ofClassNames_eq_ok_iff]
    simp only [NamesApart, hnames]
  · obtain ⟨hapart, rfl⟩ := ofClassNames_eq_ok_iff.mp h
    exact knows_ofNames hapart

/-- A class that is listed twice, and two collisions of which the first one is reported. -/
theorem ofClassNames_spec_twice_and_collision :
    ((∀ c, c ∈ ["FooBar", "Send", "FooBar"] ↔ c ∈ ["Send", "FooBar"]) ∧
      NamesApart ["Send", "FooBar"] ∧ (∃ b, ofClassNames ["Send", "FooBar"] = .ok b) ∧
      ∃ b, ofClassNames ["FooBar", "Send", "FooBar"] = .ok b ∧
        b.Knows ["FooBar", "Send", "FooBar"]) ∧
    FirstCollision ["FooBar", "Send", "FooBar", "Foo_Bar", "_Send"] "FooBar" "Foo_Bar" ∧
      ofClassNames ["FooBar", "Send", "FooBar", "Foo_Bar", "_Send"] =
        .error (.duplicateName "foo_bar" "FooBar" "Foo_Bar") := by
  have hmem (c : String) : c ∈ ["FooBar", "Send", "FooBar"] ↔ c ∈ ["Send", "FooBar"] := by
    simp only [List.mem_cons, List.not_mem_nil, or_false]
    tauto
  have hapart : NamesApart ["FooBar", "Send", "FooBar"] := by
    unfold NamesApart
    decide +kernel
  have hname : builderName "Foo_Bar" = "foo_bar" := by decide +kernel
  have hcollision : FirstCollision ["FooBar", "Send", "FooBar", "Foo_Bar", "_Send"] "FooBar"
      "Foo_Bar" :=
    ⟨["FooBar", "Send", "FooBar"], ["_Send"], rfl, hapart, by decide, by decide,
      by decide +kernel⟩
  obtain ⟨hok, hsame, hknows, _⟩ := ofClassNames_spec ["FooBar", "Send", "FooBar"]
  obtain ⟨b, hb⟩ := hok.mpr hapart
  have hother := hsame ["Send", "FooBar"] fun c => (hmem c).symm
  have hotherOk := hother.mpr ⟨b, hb⟩
  refine ⟨⟨hmem, (ofClassNames_spec ["Send", "FooBar"]).1.mp hotherOk, hotherOk, b, hb,
    hknows b hb⟩, hcollision, ?_⟩
  rw [← hname]
  obtain ⟨_, _, _, herror⟩ := ofClassNames_spec ["FooBar", "Send", "FooBar", "Foo_Bar", "_Send"]
  exact (herror _).mpr ⟨"FooBar", "Foo_Bar", hcollision, rfl⟩

end TreePattern.Builder
