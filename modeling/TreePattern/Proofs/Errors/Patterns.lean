import TreePattern.Proofs.Errors.Leaves
import TreePattern.Proofs.Grammar.Reading

/-! Errors in patterns. Each function of the parser is traced with the relation of the grammar that
has its name; the function of the whole pattern follows by induction on the number of expressions
inside each other. -/

namespace TreePattern

open Token (Kind isBlank)
open Terminal (plain name)

namespace Grammar

theorem IsItem.of_optional {E : List Terminal → Pattern → Prop} {ts us : List Terminal}
    {p : Pattern} {o : Option Quantifier} (hp : E ts p) (ho : Optional IsQuantifier us o) :
    IsItem E (ts ++ us) (o.elim (.one p) (.many · p)) := by
  cases ho with
  | absent =>
      rw [List.append_nil]
      exact .one hp
  | present hq => exact .many hp hq

end Grammar

namespace Pattern.Parser

open Grammar

variable {α β : Type} {c c' : Cursor} {e : PatternError}

/-- What is read in front of one token is read in front of all terminals that begin with it. -/
theorem leads_cons {P : Parser α} {a : α} {ts us : List Terminal} {u : Terminal} {rest : List Char}
    (h : ∀ u rest, u.request = .token → Tiles c.rest [u] rest → Leads P (done a) ts [u])
    (hu : u.request = .token) (htiles : Tiles c.rest (u :: us) rest) :
    Leads P (done a) ts (u :: us) := by
  obtain ⟨behind, hfirst, _⟩ := Tiles.uncons_iff.mp htiles
  exact (h u behind hu hfirst).extend us

theorem leads_expect {a : α} (k : Kind) (l : List Char) (us : List Terminal) :
    Leads (mapped (fun _ => a) (expect k)) (done a) [plain k l] us := by
  intro d rest htiles
  obtain ⟨behind, hl, hus⟩ := Tiles.uncons_iff.mp htiles
  obtain ⟨t, d', hexpect, rfl⟩ := expect_of_tiles hl
  refine ⟨d', ?_, hus⟩
  change expect k d >>= _ = _
  rw [hexpect]
  rfl

theorem fails_expect {k k' : Kind} (hk : k' ≠ k) (l : List Char) :
    Fails (expect k) [plain k' l] := by
  intro d rest htiles
  obtain ⟨offset, d', hpeek, _⟩ := peek_of_tiles htiles
  exact ⟨.misplacedToken l offset, bind_eq_error.mpr (.inr ⟨_, hpeek, if_neg hk⟩)⟩

/-! ## What stands in front of a closing token -/

/-- Reads something with a token of the given kind behind it. -/
def closed (close : Kind) (P : Parser α) : Parser α := fun c => do
  let (a, c) ← P c
  let (_, c) ← expect close c
  return (a, c)

/-- Derivations with a token of the given kind behind them. -/
inductive IsClosed (close : Kind) (R : List Terminal → α → Prop) : List Terminal → α → Prop where
  | close {ts a} (l) (h : R ts a) : IsClosed close R (ts ++ [plain close l]) a

theorem Traced.closed {m : Cursor.Request} {R : List Terminal → α → Prop} {P : Parser α}
    (hP : Traced m R P) (hphrase : ∀ {ts a}, R ts a → Phrase (fun t => t.request = m) ts)
    {close : Kind} {l : List Char} (hclose : (l, close) ∈ Token.operators) :
    Traced m (IsClosed close R) (closed close P) where
  reads {c c' a} h := by
    obtain ⟨⟨a', c₁⟩, ha, h₁⟩ := bind_eq_ok.mp h
    obtain ⟨⟨t, c₂⟩, hexpect, h₂⟩ := bind_eq_ok.mp h₁
    cases h₂
    obtain ⟨ts, hts, hreaches, hleads⟩ := hP.reads ha
    have ht := expect_eq_ok hexpect
    refine ⟨_, .close t.lexeme hts, hreaches.append ht, fun u rest _ _ => ?_⟩
    have hfirst : Leads P (done a) ts ([plain close t.lexeme] ++ [u]) :=
      (hleads _ _ rfl ht.tiles).extend [u]
    exact (hfirst.bind _).trans (leads_expect close t.lexeme [u])
  blames {c e} h := by
    have hviable {ts a} (h : R ts a) : Viable (IsClosed close R) ts :=
      (Viable.of_derives (.close l h)).of_append
        (List.forall_mem_singleton.mpr (Terminal.stands_operator hclose))
    rcases bind_eq_error.mp h with ha | ⟨⟨a, c₁⟩, ha, h₁⟩
    · exact (hP.blames ha).bind (fun us hus => hus.imp fun vs a hvs => hviable hvs) _
    rcases bind_eq_error.mp h₁ with hexpect | ⟨_, _, h₂⟩
    · obtain ⟨ts, hts, hreaches, hleads⟩ := hP.reads ha
      refine blames_expect hexpect hreaches (.inl (hviable hts)) (hphrase hts).joins
        (hphrase hts).not_isName fun t c₂ hpeek hne => ?_
      have htiles := (peek_eq_some hpeek).1.tiles
      exact ((hleads _ _ rfl htiles).bind _).fails ((fails_expect hne t.lexeme).bind _)
    · cases h₂

/-! ## Choices between two parsers -/

/-- Goes on in one way behind a token of the given kind, and in another one without it. -/
def branch (k : Kind) (P Q : Parser α) : Parser α := fun c => do
  let (present, c) ← eat k c
  if present then P c else Q c

theorem leads_branch {P Q : Parser α} (k : Kind) (l : List Char) (us : List Terminal) :
    Leads (branch k P Q) P [plain k l] us := by
  intro d rest htiles
  obtain ⟨behind, hl, hus⟩ := Tiles.uncons_iff.mp htiles
  obtain ⟨d', heat, rfl⟩ := eat_of_tiles hl
  refine ⟨d', ?_, hus⟩
  rw [branch, heat]
  rfl

theorem leads_branch_of_ne {P Q : Parser α} {k : Kind} {u : Terminal} {us : List Terminal}
    (hu : u.request = .token) (hk : u.kind ≠ k) : Leads (branch k P Q) Q [] (u :: us) := by
  intro d rest htiles
  obtain ⟨_, k', l⟩ := u
  obtain rfl : _ = Cursor.Request.token := hu
  have heat : eat k d = .ok (false, d) :=
    eat_of_stops (.of_tiles htiles (by simpa using hk)) (List.mem_singleton_self _)
  refine ⟨d, ?_, htiles⟩
  rw [branch, heat]
  rfl

theorem traced_done (m : Cursor.Request) (a : α) :
    Traced m (fun ts b => ts = [] ∧ b = a) (done a) where
  reads {c c' b} h := by
    cases h
    exact ⟨[], ⟨rfl, rfl⟩, .nil c, fun u rest _ _ d rest' htiles => ⟨d, rfl, htiles⟩⟩
  blames h := by cases h

theorem Traced.branch {m : Cursor.Request} {k : Kind} {P Q : Parser α}
    {RP RQ R : List Terminal → α → Prop} (hP : Traced m RP P) (hQ : Traced .token RQ Q)
    (hk : k ≠ .equals) (hempty : Viable R [])
    (hpresent : ∀ l {ts a}, RP ts a → R (plain k l :: ts) a) (habsent : ∀ {ts a}, RQ ts a → R ts a)
    (hhead : ∀ {ts a}, RQ ts a → ∀ t ∈ ts.head?, t.request = .token) :
    Traced .token R (branch k P Q) where
  reads {c c' a} h := by
    obtain ⟨⟨present, c₁⟩, heat, h₁⟩ := bind_eq_ok.mp h
    rcases eat_eq_ok heat with ⟨rfl, l, hl⟩ | ⟨rfl, rfl⟩
    · exact (hP.imp (hpresent l)).reads_behind hl (leads_branch k l) h₁
    · obtain ⟨ts, hts, hreaches, hleads⟩ := hQ.reads h₁
      refine ⟨ts, habsent hts, hreaches, fun u rest hu htiles => ?_⟩
      have hne {v : Terminal} {vs : List Terminal} (hv : v.request = .token)
          (heq : ts ++ [u] = v :: vs) : v.kind ≠ k := by
        obtain ⟨behind, hfirst, _⟩ := Tiles.uncons_iff.mp (heq ▸ hreaches.tiles.append htiles)
        exact kind_ne_of_eat heat hv hfirst
      have hfirst : Leads (Parser.branch k P Q) Q [] (ts ++ [u]) := by
        cases ts with
        | nil => exact leads_branch_of_ne hu (hne hu rfl)
        | cons v vs =>
            have hv : v.request = .token := hhead hts v rfl
            exact leads_branch_of_ne hv (hne hv rfl)
      exact hfirst.trans (hleads u rest hu htiles)
  blames {c e} h := by
    rcases bind_eq_error.mp h with heat | ⟨⟨present, c₁⟩, heat, h₁⟩
    · exact blames_peek (eat_eq_error heat) (.nil c) (.inl hempty)
    rcases eat_eq_ok heat with ⟨rfl, l, hl⟩ | ⟨rfl, rfl⟩
    · exact (hP.imp (hpresent l)).blames_behind hl (leads_branch k l)
        (joins_plain fun heq => absurd heq hk) not_isName_plain h₁
    · refine ((hQ.imp habsent).blames h₁).after (.nil _) (.empty _) nofun (fun us hus => hus)
        fun u rest us hu htiles hfails => ?_
      exact (leads_branch_of_ne hu (kind_ne_of_eat heat hu htiles)).fails hfails

/-! ## Constraints -/

section

variable {limit : Nat} {inner : Parser Pattern} {E : List Terminal → Pattern → Prop}

/-- Reads what follows the operator of an attribute. -/
def value (limit : Nat) (inner : Parser Pattern) (t : Token) : Parser Pattern := fun c =>
  match t.kind with
  | .equals => inner c
  | .startsWith => operand limit .start c
  | .endsWith => operand limit .stop c
  | .contains => operand limit .anywhere c
  | _ => .error (.misplacedToken t.lexeme t.offset)

theorem constraint_eq (c : Cursor) : constraint limit inner c = (do
    let (a, c) ← attributeName c
    match ← peek c with
    | none => throw .endOfText
    | some (t, c) =>
      let (p, c) ← value limit inner t c
      return ((a, p), c)) := by
  rw [constraint]
  refine bind_congr fun a => bind_congr fun o => ?_
  match o with
  | none => rfl
  | some (⟨k, l, offset⟩, c) => cases k <;> rfl

theorem constraint_of_tiles {a l rest : List Char} {k : Kind} {us : List Terminal}
    (h : Tiles c.rest (name a :: plain k l :: us) rest) : ∃ offset c', Tiles c'.rest us rest ∧
      constraint limit inner c = (value limit inner ⟨k, l, offset⟩ c' >>= fun b =>
        .ok ((.ofList a, b.1), b.2)) := by
  obtain ⟨behind, ha, htail⟩ := Tiles.uncons_iff.mp h
  obtain ⟨behind', hl, hus⟩ := Tiles.uncons_iff.mp htail
  obtain ⟨c₁, hname, rfl⟩ := attributeName_of_tiles ha
  obtain ⟨offset, c₂, hpeek, rfl⟩ := peek_of_tiles hl
  refine ⟨offset, c₂, hus, ?_⟩
  rw [constraint_eq, hname]
  change (peek c₁ >>= _) = _
  rw [hpeek]
  rfl

/-- What is read behind an operator is traced, and completes a constraint. -/
theorem exists_traced_value (hinner : Traced .token E inner)
    (hoperand : ∀ anchor, Viable (IsOperand limit anchor) []) {k : Kind}
    (hk : k.isAttributeOperator = true) : ∃ Q, (∀ l offset, value limit inner ⟨k, l, offset⟩ = Q) ∧
      ∀ a l, Traced .token (fun ts x => IsConstraint limit E ([name a, plain k l] ++ ts) x)
        (mapped (fun p => (.ofList a, p)) Q) := by
  have hmatching (anchor : Anchor) (hop : anchor? k = some anchor) (a l : List Char) :
      Traced .token (fun ts x => IsConstraint limit E ([name a, plain k l] ++ ts) x)
        (mapped (fun p => (.ofList a, p)) (operand limit anchor)) :=
    (traced_operand (hoperand anchor)).map _ fun h => .matching a l hop h
  cases k
  case equals => exact ⟨inner, fun _ _ => rfl, fun a l => hinner.map _ fun h => .equals a l h⟩
  case startsWith => exact ⟨_, fun _ _ => rfl, hmatching .start rfl⟩
  case endsWith => exact ⟨_, fun _ _ => rfl, hmatching .stop rfl⟩
  case contains => exact ⟨_, fun _ _ => rfl, hmatching .anywhere rfl⟩
  all_goals cases hk

theorem value_eq_error {k : Kind} (hk : k.isAttributeOperator = false) (l : List Char)
    (offset : Nat) (c : Cursor) :
    value limit inner ⟨k, l, offset⟩ c = .error (.misplacedToken l offset) := by
  cases k <;> first | rfl | cases hk

/-- Behind the operator, everything depends on what the operator asks for. -/
theorem leads_value {k : Kind} {Q : Parser Pattern}
    (hQ : ∀ l offset, value limit inner ⟨k, l, offset⟩ = Q) (a l : List Char) (us : List Terminal) :
    Leads (constraint limit inner) (mapped (fun p => (.ofList a, p)) Q) [name a, plain k l] us := by
  intro d rest htiles
  obtain ⟨offset, d', hus, heq⟩ := constraint_of_tiles htiles
  rw [hQ] at heq
  exact ⟨d', heq, hus⟩

theorem fails_value {k : Kind} (hk : k.isAttributeOperator = false) (a l : List Char) :
    Fails (constraint limit inner) [name a, plain k l] := by
  intro d rest htiles
  obtain ⟨offset, d', _, heq⟩ := constraint_of_tiles htiles
  rw [value_eq_error hk] at heq
  exact ⟨_, heq⟩

/-- Without a name, there is no constraint. -/
theorem fails_name {k : Kind} (hk : k ≠ .methodName) (l : List Char) :
    Fails (constraint limit inner) [⟨.name, k, l⟩] := by
  intro d rest htiles
  cases hname : attributeName d with
  | error e => exact ⟨e, bind_eq_error.mpr (.inl hname)⟩
  | ok a =>
      obtain ⟨l', _, hl'⟩ := attributeName_eq_ok hname
      obtain ⟨heq, _⟩ := htiles.head_unique hl'.tiles rfl
      cases heq
      exact absurd rfl hk

/-- The error of a missing name. -/
theorem blames_attributeName {V : List Terminal → Prop} (hV : V [])
    (h : attributeName c = .error e) : Blames .name V (constraint limit inner) c e := by
  rcases bind_eq_error.mp h with hnext | ⟨_ | ⟨t, c'⟩, hnext, h₁⟩
  · obtain ⟨s, herror, rfl⟩ := mapError_eq_error.mp hnext
    obtain ⟨tail, hrest, hoffset⟩ := Cursor.nextName_eq_error herror
    exact .stray (.nil c) hV hrest hoffset
  · cases h₁
    exact .ending (.nil c) hV (Cursor.nextName_eq_none (mapError_eq_ok.mp hnext))
  · by_cases hk : t.kind = .methodName
    · simp only [if_pos hk] at h₁
      cases h₁
    · simp only [if_neg hk] at h₁
      cases h₁
      obtain ⟨ht, hoffset⟩ := Cursor.reaches_of_nextName (mapError_eq_ok.mp hnext)
      exact .token (u := ⟨.name, t.kind, t.lexeme⟩) (.nil c) hV ht hoffset (.empty .name) hk nofun
        (fails_name hk t.lexeme)

theorem constraint_eq_ok {x : String × Pattern} (h : constraint limit inner c = .ok (x, c')) :
    ∃ a t c₁, attributeName c = .ok (a, c₁) ∧ ∃ c₂, peek c₁ = .ok (some (t, c₂)) ∧
      ∃ p, value limit inner t c₂ = .ok (p, c') ∧ x = (a, p) := by
  rw [constraint_eq] at h
  obtain ⟨⟨a, c₁⟩, hname, h₁⟩ := bind_eq_ok.mp h
  obtain ⟨_ | ⟨t, c₂⟩, hpeek, h₂⟩ := bind_eq_ok.mp h₁
  · cases h₂
  · obtain ⟨⟨p, c₃⟩, hvalue, h₃⟩ := bind_eq_ok.mp h₂
    cases h₃
    exact ⟨a, t, c₁, hname, c₂, hpeek, p, hvalue, rfl⟩

theorem joins_name {a : List Char} : Joins .name [name a] .token where
  head := by
    rintro _ ⟨⟩
    rfl
  nil := nofun
  last _ _ _ := rfl

theorem viable_name (h : Viable (IsOperand limit .anywhere) []) (a : List Char) :
    Viable (IsConstraint limit E) [name a] := by
  have hoperator : Viable (IsConstraint limit E) ([name a, plain .contains ['*', '=']] ++ []) :=
    h.mono fun vs p hp => .of_derives (.matching a _ rfl hp)
  change Viable (IsConstraint limit E) ([name a] ++ [plain .contains ['*', '=']]) at hoperator
  exact hoperator.of_append (List.forall_mem_singleton.mpr (Terminal.stands_operator (by decide)))

theorem viable_constraint (h : Viable (IsOperand limit .anywhere) []) :
    Viable (IsConstraint limit E) [] := by
  have hname : Viable (IsConstraint limit E) ([] ++ [name ['a']]) := viable_name h ['a']
  refine hname.of_append (List.forall_mem_singleton.mpr ?_)
  have ha : Token.IsIdentifier 'a' [] [] := ⟨by decide, nofun, .inl rfl⟩
  exact Terminal.stands_attributeName (.identifier ha)

theorem traced_constraint (hinner : Traced .token E inner)
    (hoperand : ∀ anchor, Viable (IsOperand limit anchor) []) :
    Traced .name (IsConstraint limit E) (constraint limit inner) where
  reads {c c' x} h := by
    obtain ⟨a, t, c₁, hname, c₂, hpeek, p, hvalue, rfl⟩ := constraint_eq_ok h
    obtain ⟨a, rfl, ha⟩ := attributeName_eq_ok hname
    obtain ⟨k, l, offset⟩ := t
    obtain ⟨hl, _⟩ := peek_eq_some hpeek
    cases hk : k.isAttributeOperator with
    | false =>
        rw [value_eq_error hk] at hvalue
        cases hvalue
    | true =>
        obtain ⟨Q, hQ, htraced⟩ := exists_traced_value hinner hoperand hk
        rw [hQ] at hvalue
        exact (htraced a l).reads_behind (ha.append hl) (leads_value hQ a l)
          (bind_eq_ok.mpr ⟨_, hvalue, rfl⟩)
  blames {c e} h := by
    have hviable := viable_name (E := E) (hoperand .anywhere)
    rw [constraint_eq] at h
    rcases bind_eq_error.mp h with hname | ⟨⟨a, c₁⟩, hname, h₁⟩
    · exact blames_attributeName (.inl (viable_constraint (hoperand .anywhere))) hname
    obtain ⟨a, rfl, ha⟩ := attributeName_eq_ok hname
    rcases bind_eq_error.mp h₁ with hpeek | ⟨_ | ⟨⟨k, l, offset⟩, c₂⟩, hpeek, h₂⟩
    · exact blames_peek hpeek ha (.inl (hviable a))
    · cases h₂
      exact .ending ha (.inl (hviable a)) (peek_eq_none_iff.mp hpeek)
    obtain ⟨hl, hoffset⟩ := peek_eq_some hpeek
    rcases bind_eq_error.mp h₂ with hvalue | ⟨_, _, h₃⟩
    · cases hk : k.isAttributeOperator with
      | false =>
          rw [value_eq_error hk] at hvalue
          cases hvalue
          refine .token (u := plain k l) ha (.inl (hviable a)) hl hoffset joins_name
            (kind_of_peek hpeek) ?_ (fails_value hk a l)
          rintro _ _ _ rfl
          cases hk
      | true =>
          obtain ⟨Q, hQ, htraced⟩ := exists_traced_value hinner hoperand hk
          rw [hQ] at hvalue
          exact (htraced a l).blames_behind (ha.append hl) (leads_value hQ a l)
            (joins_name.append (joins_plain fun _ => rfl)) not_isName_plain
            (bind_eq_error.mpr (.inl hvalue))
    · cases h₃

/-! ## Nodes and arrays -/

section

/-- Reads what follows the first token of a pattern that is no choice. -/
def remainder (limit : Nat) (inner : Parser Pattern) (t : Token) : Parser Pattern := fun c =>
  match t.kind with
  | .className => do
    let (as, c) ← attributes limit inner c
    return (node (.ofAttributes (.ofList t.lexeme) as), c)
  | .leftBracket => do
    let (xs, c) ← items inner c
    return (array xs, c)
  | .anyKeyword => return (any, c)
  | _ => do return (scalar (← scalarOf t), c)

theorem leads_remainder {k : Kind} {l : List Char} {Q : Parser Pattern}
    (hQ : ∀ offset, remainder limit inner ⟨k, l, offset⟩ = Q) (us : List Terminal) :
    Leads (primary limit inner) Q [plain k l] us := by
  intro d rest htiles
  obtain ⟨behind, hl, hus⟩ := Tiles.uncons_iff.mp htiles
  obtain ⟨offset, d', hpeek, rfl⟩ := peek_of_tiles hl
  refine ⟨d', ?_, hus⟩
  change (peek d >>= _) = _
  rw [hpeek, ← hQ offset]
  cases k <;> rfl

theorem leads_className (l : List Char) (us : List Terminal) :
    Leads (primary limit inner)
      (mapped (fun as => node (.ofAttributes (.ofList l) as)) (attributes limit inner))
      [plain .className l] us :=
  leads_remainder (fun _ => rfl) us

theorem leads_leftBracket (l : List Char) (us : List Terminal) :
    Leads (primary limit inner) (mapped array (items inner)) [plain .leftBracket l] us :=
  leads_remainder (fun _ => rfl) us

theorem leads_scalar {k : Kind} {l : List Char} {s : Scalar} (h : IsScalar [plain k l] s)
    (us : List Terminal) : Leads (primary limit inner) (done (scalar s)) [plain k l] us := by
  refine leads_remainder (fun offset => funext fun d => ?_) us
  have hs : scalarOf ⟨k, l, offset⟩ = .ok s := scalarOf_eq_ok_iff.mpr h
  cases h
  all_goals
    change (scalarOf _ >>= _) = _
    rw [hs]
    rfl

theorem fails_scalar {k : Kind} {l : List Char}
    (hk : k ∉ [.className, .leftBracket, .anyKeyword]) (h : ∀ s, ¬ IsScalar [plain k l] s) :
    Fails (primary limit inner) [plain k l] := by
  intro d rest htiles
  obtain ⟨offset, d', hpeek, rfl⟩ := peek_of_tiles htiles
  have hscalar : remainder limit inner ⟨k, l, offset⟩ d' =
      (scalarOf ⟨k, l, offset⟩ >>= fun s => .ok (scalar s, d')) := by
    cases k <;> first | rfl | exact absurd (by decide) hk
  cases hs : scalarOf ⟨k, l, offset⟩ with
  | ok s => exact absurd (scalarOf_eq_ok_iff.mp hs) (h s)
  | error e =>
      rw [hs] at hscalar
      exact ⟨e, bind_eq_error.mpr (.inr ⟨_, hpeek, hscalar⟩)⟩

theorem scalarOf_eq_error {t : Token} (h : scalarOf t = .error e) :
    e = .integerOutOfRange t.lexeme t.offset ∨
      e = .misplacedToken t.lexeme t.offset ∧ ∀ s, ¬ IsScalar [plain t.kind t.lexeme] s := by
  unfold scalarOf at h
  split at h
  · split at h <;> cases h
    exact .inl rfl
  · cases h
  · cases h
  · cases h
  · cases h
  · cases h
  · rename_i hinteger hstring hsymbol htrue hfalse hnil
    cases h
    refine .inr ⟨rfl, fun s hs => ?_⟩
    obtain ⟨k, l, offset⟩ := t
    cases hs
    · exact hinteger rfl
    · exact hstring rfl
    · exact hsymbol rfl
    · exact htrue rfl
    · exact hfalse rfl
    · exact hnil rfl

theorem item_eq (c : Cursor) : item inner c = (do
    let (p, c) ← inner c
    let (o, c) ← quantifier c
    return (o.elim (.one p) (.many · p), c)) := by
  rw [item]
  refine bind_congr fun a => bind_congr fun b => ?_
  obtain ⟨_ | q, c⟩ := b <;> rfl

theorem leads_item {p : Pattern} {ts us : List Terminal} (h : Leads inner (done p) ts us) :
    Leads (item inner) (mapped (fun o => o.elim (.one p) (.many · p)) quantifier) ts us := by
  rw [funext item_eq]
  exact h.bind _

variable (hinner : Traced .token E inner)
  (hE : ∀ {ts p}, E ts p → Phrase (Regular beginsPrimary) ts)

include hinner hE

theorem traced_attributes (hoperand : ∀ anchor, Viable (IsOperand limit anchor) []) :
    Traced .token (IsAttributes limit E) (attributes limit inner) := by
  have hphrase {ts a} (h : IsConstraint limit E ts a) : Phrase (fun t => ∃ l, t = name l) ts :=
    h.phrase hE
  have hname {ts : List Terminal} (h : Phrase (fun t => ∃ l, t = name l) ts) :
      Phrase (fun t => t.request = .name) ts :=
    h.mono fun t ⟨l, hl⟩ => hl ▸ rfl
  have hlist : Traced .name (Separated .comma (IsConstraint limit E))
      (separated .comma (constraint limit inner)) :=
    (traced_constraint hinner hoperand).separated (fun h => hname (hphrase h)) nofun
  have hclosed : Traced .name (IsClosed .rightAngle (Separated .comma (IsConstraint limit E)))
      (closed .rightAngle (separated .comma (constraint limit inner))) :=
    hlist.closed (l := ['>']) (fun h => hname (h.phrase rfl hphrase fun l _ ⟨a, ha⟩ =>
      ha ▸ adjacent_name (regular_plain rfl l) a)) (by decide)
  refine hclosed.branch (k := .leftAngle) (traced_done .token []) nofun (.of_derives .absent)
    (fun l ts as h => ?_) (fun ⟨hts, has⟩ => hts ▸ has ▸ .absent) fun ⟨hts, _⟩ => hts ▸ nofun
  obtain ⟨l', h⟩ := h
  exact .present l l' h

theorem traced_item : Traced .token (IsItem E) (item inner) where
  reads {c c' x} h := by
    rw [item_eq] at h
    obtain ⟨⟨p, c₁⟩, hp, h₁⟩ := bind_eq_ok.mp h
    obtain ⟨⟨o, c₂⟩, ho, h₂⟩ := bind_eq_ok.mp h₁
    cases h₂
    obtain ⟨ts, hts, hreaches, hleads⟩ := hinner.reads hp
    obtain ⟨us, hus, hreaches', hleads'⟩ := traced_quantifier.reads ho
    refine ⟨_, .of_optional hts hus, hreaches.append hreaches', fun u rest hu htiles => ?_⟩
    have hfirst : Leads inner (done p) ts (us ++ [u]) := by
      have hrest := hreaches'.tiles.append htiles
      cases us with
      | nil => exact leads_cons hleads hu hrest
      | cons v vs =>
          cases hus with
          | present hq =>
              obtain ⟨_, _, heq, hv, _⟩ := hq.phrase.first
              cases heq
              exact leads_cons hleads hv hrest
    exact (leads_item hfirst).trans ((hleads' u rest hu htiles).bind _)
  blames {c e} h := by
    rw [item_eq] at h
    rcases bind_eq_error.mp h with hp | ⟨⟨p, c₁⟩, hp, h₁⟩
    · exact (hinner.blames hp).bind (fun us hus => hus.imp fun vs p hvs => .of_derives (.one hvs)) _
    obtain ⟨ts, hts, hreaches, hleads⟩ := hinner.reads hp
    have htoken : Phrase (fun t => t.request = .token) ts := (hE hts).mono fun t ht => ht.1
    rcases bind_eq_error.mp h₁ with hq | ⟨_, _, h₂⟩
    · refine (traced_quantifier.blames hq).after hreaches htoken.joins htoken.not_isName
        (fun us hus => hus.mono fun vs q hvs => .of_derives (.of_optional hts hvs))
        fun u rest us hu htiles hfails => ?_
      exact (leads_item ((hleads u rest hu htiles).extend us)).fails (hfails.bind _)
    · cases h₂

theorem traced_items : Traced .token (IsItems E) (items inner) := by
  have hphrase {ts x} (h : IsItem E ts x) : Phrase (Regular beginsPrimary) ts := h.phrase hE
  have htoken {ts : List Terminal} (h : Phrase (Regular beginsPrimary) ts) :
      Phrase (fun t => t.request = .token) ts :=
    h.mono fun t ht => ht.1
  have hlist : Traced .token (Separated .comma (IsItem E)) (separated .comma (item inner)) :=
    (traced_item hinner hE).separated (fun h => htoken (hphrase h)) nofun
  have hitems {ts xs} (h : Separated .comma (IsItem E) ts xs) : Phrase (Regular beginsPrimary) ts :=
    h.phrase rfl hphrase fun l _ => adjacent_primary rfl l
  have hclosed : Traced .token (IsClosed .rightBracket (Separated .comma (IsItem E)))
      (closed .rightBracket (separated .comma (item inner))) :=
    hlist.closed (l := [']']) (fun h => htoken (hitems h)) (by decide)
  have hempty : Viable (IsItems E) ([] ++ [plain .rightBracket [']']]) :=
    .of_derives (.nil _)
  refine (traced_done .token []).branch (k := .rightBracket) hclosed nofun
    (hempty.of_append (List.forall_mem_singleton.mpr (Terminal.stands_operator (by decide))))
    (fun l ts xs ⟨hts, hxs⟩ => hts ▸ hxs ▸ .nil l) (fun h => ?_) (fun h => ?_)
  · obtain ⟨l, h⟩ := h
    exact .cons l h
  · obtain ⟨l, h⟩ := h
    obtain ⟨t, us, rfl, ht⟩ := (hitems h).first
    rintro _ ⟨⟩
    exact ht.1

theorem traced_node (hoperand : ∀ anchor, Viable (IsOperand limit anchor) []) (l : List Char) :
    Traced .token (fun ts p => IsPrimary limit E ([plain .className l] ++ ts) p)
      (mapped (fun as => node (.ofAttributes (.ofList l) as)) (attributes limit inner)) :=
  (traced_attributes hinner hE hoperand).map _ fun h => Node.ofAttributes_eq _ _ ▸ .node l h

theorem traced_array (l : List Char) :
    Traced .token (fun ts p => IsPrimary limit E ([plain .leftBracket l] ++ ts) p)
      (mapped array (items inner)) :=
  (traced_items hinner hE).map _ fun h => .array l h

omit hinner hE in
theorem viable_primary : Viable (IsPrimary limit E) [] := by
  have hany : Viable (IsPrimary limit E) ([] ++ [plain .anyKeyword "any".toList]) :=
    .of_derives (.any _)
  refine hany.of_append (List.forall_mem_singleton.mpr ?_)
  exact Terminal.stands_keyword (by decide) (by decide) rfl nofun

theorem traced_primary (hoperand : ∀ anchor, Viable (IsOperand limit anchor) []) :
    Traced .token (IsPrimary limit E) (primary limit inner) where
  reads {c c' p} h := by
    obtain ⟨_ | ⟨⟨k, l, offset⟩, c₁⟩, hpeek, h₁⟩ := bind_eq_ok.mp h
    · cases h₁
    obtain ⟨hl, _⟩ := peek_eq_some hpeek
    cases k
    case className =>
      exact (traced_node hinner hE hoperand l).reads_behind hl (leads_className l) h₁
    case leftBracket =>
      exact (traced_array hinner hE l).reads_behind hl (leads_leftBracket l) h₁
    case anyKeyword =>
      cases h₁
      exact ⟨_, .any l, hl, fun u _ _ _ => leads_remainder (fun _ => rfl) [u]⟩
    all_goals
      obtain ⟨s, hs, h₂⟩ := bind_eq_ok.mp h₁
      cases h₂
      have hscalar := scalarOf_eq_ok_iff.mp hs
      exact ⟨_, .scalar hscalar, hl, fun u _ _ _ => leads_scalar hscalar [u]⟩
  blames {c e} h := by
    have hempty : Viable (IsPrimary limit E) [] := viable_primary
    rcases bind_eq_error.mp h with hpeek | ⟨_ | ⟨⟨k, l, offset⟩, c₁⟩, hpeek, h₁⟩
    · exact blames_peek hpeek (.nil c) (.inl hempty)
    · cases h₁
      exact .ending (.nil c) (.inl hempty) (peek_eq_none_iff.mp hpeek)
    obtain ⟨hl, _⟩ := peek_eq_some hpeek
    cases k
    case className =>
      exact (traced_node hinner hE hoperand l).blames_behind hl (leads_className l)
        (joins_plain nofun) not_isName_plain h₁
    case leftBracket =>
      exact (traced_array hinner hE l).blames_behind hl (leads_leftBracket l)
        (joins_plain nofun) not_isName_plain h₁
    case anyKeyword => cases h₁
    all_goals
      rcases bind_eq_error.mp h₁ with hs | ⟨_, _, h₂⟩
      · rcases scalarOf_eq_error hs with rfl | ⟨rfl, hnot⟩
        · exact .integer _ _
        · exact blames_token hpeek (.nil c) (.inl hempty) (.empty _) nofun
            (fails_scalar (by simp) hnot)
      · cases h₂

end

end

/-! ## Whole patterns -/

/-- A list of alternatives is read as one pattern, by induction on how many expressions may stand
inside each other. -/
theorem traced_expression (options : Options)
    (hoperand : ∀ anchor, Viable (IsOperand options.regexSizeLimit anchor) []) (levels : Nat) :
    Traced .token (IsExpression options.regexSizeLimit levels) (expression options levels) := by
  induction levels with
  | zero =>
      constructor
      · intro c c' p h
        cases h
      · intro c e h
        cases h
        exact .depth _
  | succ levels ih =>
      have hphrase {ts p} (h : IsPrimary options.regexSizeLimit
          (IsExpression options.regexSizeLimit levels) ts p) :
          Phrase (fun t => t.request = .token) ts :=
        (h.phrase IsExpression.phrase).mono fun t ht => ht.1
      have hps : Traced .token
          (Separated .pipe (IsPrimary options.regexSizeLimit _))
          (separated .pipe (primary options.regexSizeLimit (expression options levels))) :=
        (traced_primary ih IsExpression.phrase hoperand).separated hphrase nofun
      exact hps.map alternatives fun hts => ⟨_, hts, (isChoice_iff hts).mpr rfl⟩

/-- Reads a pattern, behind which the text has to end. -/
def whole (options : Options) : Parser Pattern := fun c => do
  let (p, c) ← expression options options.maxDepth c
  match ← peek c with
  | none => return (p, c)
  | some (t, _) => throw (.misplacedToken t.lexeme t.offset)

theorem parse_eq_map (options : Options) (text : String) :
    parse options text = (whole options (.start text.toList)).map (·.1) := by
  rw [parse, whole]
  cases expression options options.maxDepth (.start text.toList) with
  | error e => rfl
  | ok a =>
      obtain ⟨p, c⟩ := a
      change (peek c >>= _) = (peek c >>= _).map _
      rcases peek c with e | _ | ⟨t, c'⟩ <;> rfl

theorem parse_eq_error_iff {options : Options} {text : String} :
    parse options text = .error e ↔ whole options (.start text.toList) = .error e := by
  rw [parse_eq_map]
  cases whole options (.start text.toList) <;> simp [Except.map]

theorem blames_whole {options : Options}
    (hoperand : ∀ anchor, Viable (IsOperand options.regexSizeLimit anchor) [])
    (h : whole options c = .error e) : Blames .token
      (Resumable (IsExpression options.regexSizeLimit options.maxDepth)) (whole options) c e := by
  have hexpression := traced_expression options hoperand options.maxDepth
  rcases bind_eq_error.mp h with hread | ⟨⟨p, c₁⟩, hread, h₁⟩
  · exact (hexpression.blames hread).bind (fun us hus => hus) _
  obtain ⟨ts, hts, hreaches, hleads⟩ := hexpression.reads hread
  have hviable : Resumable (IsExpression options.regexSizeLimit options.maxDepth) ts :=
    .inl (.of_derives hts)
  rcases bind_eq_error.mp h₁ with hpeek | ⟨_ | ⟨t, c₂⟩, hpeek, h₂⟩
  · exact blames_peek hpeek hreaches hviable
  · cases h₂
  · cases h₂
    have hphrase := hts.phrase
    refine blames_token hpeek hreaches hviable (hphrase.mono fun t ht => ht.1).joins
      hphrase.not_isName ?_
    have htiles := (peek_eq_some hpeek).1.tiles
    refine ((hleads _ _ rfl htiles).bind _).fails fun d rest htiles' => ?_
    obtain ⟨offset, d', hpeek', _⟩ := peek_of_tiles htiles'
    exact ⟨_, bind_eq_error.mpr (.inr ⟨_, hpeek', rfl⟩)⟩

end Pattern.Parser

end TreePattern
