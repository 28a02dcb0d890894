import TreePattern.Proofs.Grammar.Basic

/-! Parsers that read what a relation derives, and the tokens that tell them what to read. A parser
looks at one token beyond what it reads. -/

namespace TreePattern.Pattern.Parser

open Grammar
open Token (Kind isBlank)
open Terminal (plain name)

variable {α β : Type}

theorem bind_eq_ok {ε : Type} {x : Except ε α} {f : α → Except ε β} {b : β} :
    x >>= f = .ok b ↔ ∃ a, x = .ok a ∧ f a = .ok b := by
  cases x with
  | error e => exact iff_of_false nofun nofun
  | ok a => exact ⟨fun h => ⟨a, rfl, h⟩, fun ⟨_, rfl, h⟩ => h⟩

theorem mapError_eq_ok {ε δ : Type} {x : Except ε α} {f : ε → δ} {a : α} :
    x.mapError f = .ok a ↔ x = .ok a := by
  cases x <;> simp [Except.mapError]

theorem ite_throw_eq_ok {ε : Type} {b : Prop} [Decidable b] {x : Except ε α} {e : ε} {a : α} :
    (if b then x else throw e) = .ok a ↔ b ∧ x = .ok a := by
  by_cases hb : b
  · rw [if_pos hb, and_iff_right hb]
  · rw [if_neg hb]
    exact iff_of_false nofun fun h => hb h.1

/-! ## Tokens -/

/-- The text has ended, or another token than one of the given kinds comes next. -/
def Stops (kinds : List Kind) (cs : List Char) : Prop :=
  (∀ c ∈ cs, isBlank c = true) ∨ ∃ k l rest, k ∉ kinds ∧ Tiles cs [plain k l] rest

theorem Stops.mono {kinds kinds' : List Kind} {cs : List Char} (h : Stops kinds cs)
    (hsub : kinds' ⊆ kinds) : Stops kinds' cs := by
  rcases h with hblank | ⟨k, l, rest, hk, h⟩
  · exact .inl hblank
  · exact .inr ⟨k, l, rest, fun hmem => hk (hsub hmem), h⟩

theorem Stops.of_tiles {kinds : List Kind} {cs rest : List Char} {k : Kind} {l : List Char}
    {ts : List Terminal} (h : Tiles cs (plain k l :: ts) rest) (hk : k ∉ kinds) :
    Stops kinds cs := by
  obtain ⟨behind, hl, _⟩ := Tiles.uncons_iff.mp h
  exact .inr ⟨k, l, behind, hk, hl⟩

variable {c c' : Cursor} {kind : Kind}

theorem peek_eq_none_iff : peek c = .ok none ↔ ∀ a ∈ c.rest, isBlank a = true := by
  rw [peek, mapError_eq_ok, Cursor.next_eq_none_iff]

theorem peek_eq_some {t : Token} (h : peek c = .ok (some (t, c'))) :
    c.Reaches [plain t.kind t.lexeme] c' ∧ t.offset = c.skipBlank.offset :=
  Cursor.reaches_of_next (mapError_eq_ok.mp h)

theorem peek_of_tiles {l rest : List Char} (h : Tiles c.rest [plain kind l] rest) :
    ∃ offset c', peek c = .ok (some (⟨kind, l, offset⟩, c')) ∧ c'.rest = rest := by
  obtain ⟨⟨_, _, offset⟩, c', hnext, rfl, rfl, hrest⟩ :=
    Cursor.next_of_read? (Tiles.singleton_iff.mp h)
  exact ⟨offset, c', mapError_eq_ok.mpr hnext, hrest⟩

theorem eat_eq_ok {b : Bool} (h : eat kind c = .ok (b, c')) :
    (b = true ∧ ∃ l, c.Reaches [plain kind l] c') ∨ (b = false ∧ c' = c) := by
  obtain ⟨_ | ⟨t, c''⟩, hpeek, h⟩ := bind_eq_ok.mp h
  · cases h
    exact .inr ⟨rfl, rfl⟩
  · by_cases hk : t.kind = kind
    · simp only [if_pos hk] at h
      cases h
      exact .inl ⟨rfl, t.lexeme, hk ▸ (peek_eq_some hpeek).1⟩
    · simp only [if_neg hk] at h
      cases h
      exact .inr ⟨rfl, rfl⟩

theorem eat_of_tiles {l rest : List Char} (h : Tiles c.rest [plain kind l] rest) :
    ∃ c', eat kind c = .ok (true, c') ∧ c'.rest = rest := by
  obtain ⟨offset, c', hpeek, hrest⟩ := peek_of_tiles h
  exact ⟨c', bind_eq_ok.mpr ⟨_, hpeek, by simp [pure, Except.pure]⟩, hrest⟩

theorem eat_of_stops {kinds : List Kind} (h : Stops kinds c.rest) (hk : kind ∈ kinds) :
    eat kind c = .ok (false, c) := by
  rcases h with hblank | ⟨k, l, rest, hne, htiles⟩
  · exact bind_eq_ok.mpr ⟨_, peek_eq_none_iff.mpr hblank, rfl⟩
  · obtain ⟨offset, c', hpeek, _⟩ := peek_of_tiles htiles
    refine bind_eq_ok.mpr ⟨_, hpeek, ?_⟩
    have hkind : k ≠ kind := fun heq => hne (heq ▸ hk)
    simp [hkind, pure, Except.pure]

theorem expect_eq_ok {t : Token} (h : expect kind c = .ok (t, c')) :
    c.Reaches [plain kind t.lexeme] c' := by
  obtain ⟨_ | ⟨t, c''⟩, hpeek, h⟩ := bind_eq_ok.mp h
  · cases h
  · obtain ⟨hk, h⟩ := ite_throw_eq_ok.mp h
    cases h
    exact hk ▸ (peek_eq_some hpeek).1

theorem expect_of_tiles {l rest : List Char} (h : Tiles c.rest [plain kind l] rest) :
    ∃ t c', expect kind c = .ok (t, c') ∧ c'.rest = rest := by
  obtain ⟨offset, c', hpeek, hrest⟩ := peek_of_tiles h
  exact ⟨_, c', bind_eq_ok.mpr ⟨_, hpeek, if_pos rfl⟩, hrest⟩

theorem attributeName_eq_ok {a : String} (h : attributeName c = .ok (a, c')) :
    ∃ l, a = .ofList l ∧ c.Reaches [name l] c' := by
  obtain ⟨_ | ⟨t, c''⟩, hnext, h⟩ := bind_eq_ok.mp h
  · cases h
  · obtain ⟨hk, h⟩ := ite_throw_eq_ok.mp h
    cases h
    obtain ⟨hname, _⟩ := Cursor.reaches_of_nextName (mapError_eq_ok.mp hnext)
    rw [hk] at hname
    exact ⟨t.lexeme, rfl, hname⟩

theorem attributeName_of_tiles {l rest : List Char} (h : Tiles c.rest [name l] rest) :
    ∃ c', attributeName c = .ok (.ofList l, c') ∧ c'.rest = rest := by
  obtain ⟨⟨_, _, offset⟩, c', hnext, rfl, rfl, hrest⟩ :=
    Cursor.nextName_of_read? (Tiles.singleton_iff.mp h) rfl
  exact ⟨c', bind_eq_ok.mpr ⟨_, mapError_eq_ok.mpr hnext, rfl⟩, hrest⟩

/-- The parser reads what the relation derives, unless a token of the given kinds follows. -/
structure Reads (P : Parser α) (R : List Terminal → α → Prop) (kinds : List Kind) : Prop where
  sound {c c' x} (h : P c = .ok (x, c')) : ∃ ts, R ts x ∧ c.Reaches ts c'
  complete {c ts x rest} (h : R ts x) (htiles : Tiles c.rest ts rest) (hstops : Stops kinds rest) :
    ∃ c', P c = .ok (x, c') ∧ c'.rest = rest

section

variable {separator : Kind} {one : Parser α} {One : List Terminal → α → Prop} {kinds : List Kind}

theorem sound_separatedBy (hone : Reads one One kinds) {fuel : Nat} {xs : List α}
    (h : separatedBy separator one fuel c = .ok (xs, c')) :
    ∃ ts, Separated separator One ts xs ∧ c.Reaches ts c' := by
  induction fuel generalizing c xs with
  | zero => cases h
  | succ fuel ih =>
      obtain ⟨⟨x, c₁⟩, hx, h₁⟩ := bind_eq_ok.mp h
      obtain ⟨ts, hts, htiles⟩ := hone.sound hx
      obtain ⟨⟨more, c₂⟩, heat, h₂⟩ := bind_eq_ok.mp h₁
      rcases eat_eq_ok heat with ⟨rfl, l, hl⟩ | ⟨rfl, rfl⟩
      · obtain ⟨⟨xs', c₃⟩, hrest, h₃⟩ := bind_eq_ok.mp h₂
        cases h₃
        obtain ⟨us, hus, htiles'⟩ := ih hrest
        exact ⟨_, .more l hts hus, htiles.append (hl.append htiles')⟩
      · cases h₂
        exact ⟨ts, .last hts, htiles⟩

theorem complete_separatedBy (hone : Reads one One kinds) (hsep : separator ∉ kinds) {fuel : Nat}
    {ts : List Terminal} {xs : List α} {rest : List Char} (h : Separated separator One ts xs)
    (hfuel : c.rest.length < fuel) (htiles : Tiles c.rest ts rest)
    (hstops : Stops (separator :: kinds) rest) :
    ∃ c', separatedBy separator one fuel c = .ok (xs, c') ∧ c'.rest = rest := by
  induction h generalizing c fuel with
  | last hx =>
      obtain ⟨fuel, rfl⟩ := Nat.exists_eq_add_one_of_ne_zero (Nat.ne_zero_of_lt hfuel)
      obtain ⟨c₁, hone₁, rfl⟩ := hone.complete hx htiles (hstops.mono (List.subset_cons_self _ _))
      exact ⟨c₁, bind_eq_ok.mpr ⟨_, hone₁, bind_eq_ok.mpr
        ⟨_, eat_of_stops hstops List.mem_cons_self, rfl⟩⟩, rfl⟩
  | @more ts us x xs l hx _ ih =>
      obtain ⟨fuel, rfl⟩ := Nat.exists_eq_add_one_of_ne_zero (Nat.ne_zero_of_lt hfuel)
      obtain ⟨behind, hts, hmore⟩ := Tiles.append_iff.mp htiles
      obtain ⟨c₁, hone₁, rfl⟩ := hone.complete hx hts (.of_tiles hmore hsep)
      obtain ⟨behind', hl, hus⟩ := Tiles.uncons_iff.mp hmore
      obtain ⟨c₂, heat, rfl⟩ := eat_of_tiles hl
      have hlen := hts.length_le
      have hlen' := hl.length_le
      simp only [List.length_singleton] at hlen'
      have hfuel' : c₂.rest.length < fuel := by omega
      obtain ⟨c₃, hmore, hrest⟩ := ih hfuel' hus
      exact ⟨c₃, bind_eq_ok.mpr ⟨_, hone₁, bind_eq_ok.mpr ⟨_, heat,
        bind_eq_ok.mpr ⟨_, hmore, rfl⟩⟩⟩, hrest⟩

theorem reads_separated (hone : Reads one One kinds) (hsep : separator ∉ kinds) :
    Reads (separated separator one) (Separated separator One) (separator :: kinds) where
  sound h := sound_separatedBy hone h
  complete h htiles hstops := complete_separatedBy hone hsep h (Nat.lt_succ_self _) htiles hstops

end

end TreePattern.Pattern.Parser
