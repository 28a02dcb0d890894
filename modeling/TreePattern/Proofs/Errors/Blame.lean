import TreePattern.Proofs.Grammar.Lookahead
import TreePattern.Proofs.Printing.Standing
import TreePattern.Proofs.Token.Spacing

/-! What an error of a parser says about the text: the terminals in front of the error can be
completed to a derivation, and with the token that is reported the parser fails whatever follows. -/

namespace TreePattern

open Token (Kind isBlank)
open Terminal (plain name)

namespace Grammar

variable {α β : Type} {R : List Terminal → α → Prop} {S : List Terminal → β → Prop}

/-- The beginnings of derivations of which the rest can be written down. -/
def Viable (R : List Terminal → α → Prop) (us : List Terminal) : Prop :=
  ∃ vs a, R (us ++ vs) a ∧ ∀ t ∈ vs, t.Stands

theorem Viable.of_derives {us : List Terminal} {a : α} (h : R us a) : Viable R us :=
  ⟨[], a, by rwa [List.append_nil], nofun⟩

theorem Viable.of_append {us vs : List Terminal} (h : Viable R (us ++ vs))
    (hvs : ∀ t ∈ vs, t.Stands) : Viable R us := by
  obtain ⟨ws, a, hderives, hws⟩ := h
  rw [List.append_assoc] at hderives
  exact ⟨vs ++ ws, a, hderives, List.forall_mem_append.mpr ⟨hvs, hws⟩⟩

theorem Viable.mono {ts us : List Terminal} (h : Viable S us)
    (hclose : ∀ vs b, S vs b → Viable R (ts ++ vs)) : Viable R (ts ++ us) := by
  obtain ⟨vs, b, hderives, hvs⟩ := h
  have hviable := hclose _ b hderives
  rw [← List.append_assoc] at hviable
  exact hviable.of_append hvs

/-- The terminals end with the bounds of a quantifier that has not been closed, of which the second
is below the first. Without it they can be completed. -/
inductive Reversed (R : List Terminal → α → Prop) : List Terminal → Prop where
  | bounds {us ns ms m n} (l l') (hn : IsCount ns n) (hm : IsCount ms m) (hlt : m < n)
      (h : Viable R (us ++ plain .leftBrace l :: (ns ++ [plain .comma l']))) :
      Reversed R (us ++ plain .leftBrace l :: (ns ++ plain .comma l' :: ms))

/-- Nothing but a second bound below the first is in the way of completing the terminals. -/
def Resumable (R : List Terminal → α → Prop) (us : List Terminal) : Prop :=
  Viable R us ∨ Reversed R us

theorem Resumable.mono {ts us : List Terminal} (h : Resumable S us)
    (hclose : ∀ vs b, S vs b → Viable R (ts ++ vs)) : Resumable R (ts ++ us) := by
  rcases h with h | @⟨us, ns, ms, m, n, l, l', hn, hm, hlt, h⟩
  · exact .inl (h.mono hclose)
  · have hviable := h.mono hclose
    rw [← List.append_assoc] at hviable ⊢
    exact .inr (.bounds l l' hn hm hlt hviable)

theorem Resumable.imp {us : List Terminal} (h : Resumable S us)
    (hclose : ∀ vs b, S vs b → Viable R vs) : Resumable R us :=
  (h.mono hclose : Resumable R ([] ++ us))

/-! ## Terminals read one after the other -/

/-- How terminals that are read first fit what is read next: the request that comes first is `m`,
and behind them comes `k`. -/
structure Joins (m : Cursor.Request) (ts : List Terminal) (k : Cursor.Request) : Prop where
  head : ∀ t ∈ ts.head?, t.request = m
  nil : ts = [] → k = m
  last : ∀ t ∈ ts.getLast?, t.IsName ∨ t.kind = .equals → k = .token

theorem Joins.empty (m : Cursor.Request) : Joins m [] m := ⟨nofun, fun _ => rfl, nofun⟩

theorem Joins.append {m k j : Cursor.Request} {ts us : List Terminal} (h : Joins m ts k)
    (h' : Joins k us j) : Joins m (ts ++ us) j where
  head t ht := by
    cases ts with
    | nil => exact (h'.head t ht).trans (h.nil rfl)
    | cons u ts => exact h.head t ht
  nil heq := by
    obtain ⟨rfl, rfl⟩ := List.append_eq_nil_iff.mp heq
    exact (h'.nil rfl).trans (h.nil rfl)
  last t ht hkind := by
    cases us with
    | nil =>
        rw [List.append_nil] at ht
        exact (h'.nil rfl).trans (h.last t ht hkind)
    | cons u us =>
        rw [List.getLast?_append_cons] at ht
        exact h'.last t ht hkind

theorem joins_plain {k : Cursor.Request} {kind : Kind} {l : List Char}
    (h : kind = .equals → k = .token) : Joins .token [plain kind l] k where
  head := by
    rintro _ ⟨⟩
    rfl
  nil := nofun
  last := by
    rintro _ ⟨⟩ (⟨hrequest, _⟩ | hkind)
    · cases hrequest
    · exact h hkind

theorem joins_tokens {us : List Terminal} (h : ∀ t ∈ us, t.request = .token) :
    Joins .token us .token where
  head t ht := h t (List.mem_of_head? ht)
  nil _ := rfl
  last _ _ _ := rfl

theorem not_isName_of_tokens {us : List Terminal} (h : ∀ t ∈ us, t.request = .token) :
    ∀ t ∈ us.getLast?, ¬ t.IsName := by
  rintro t ht ⟨hname, _⟩
  rw [h t (List.mem_of_getLast? ht)] at hname
  cases hname

theorem not_isName_plain {k : Kind} {l : List Char} : ∀ t ∈ [plain k l].getLast?, ¬ t.IsName :=
  not_isName_of_tokens (List.forall_mem_singleton.mpr rfl)

theorem Phrase.not_isName {First : Terminal → Prop} {ts : List Terminal} (h : Phrase First ts) :
    ∀ t ∈ ts.getLast?, ¬ t.IsName := by
  rintro t ht ⟨hname, _⟩
  rw [(h.last t ht).1] at hname
  cases hname

/-- Anything may be read behind a phrase. -/
theorem Phrase.joins {m k : Cursor.Request} {ts : List Terminal}
    (h : Phrase (fun t => t.request = m) ts) : Joins m ts k where
  head t ht := by
    obtain ⟨u, us, rfl, hu⟩ := h.first
    cases ht
    exact hu
  nil heq := by
    obtain ⟨u, us, rfl, _⟩ := h.first
    cases heq
  last t ht hkind := by
    obtain ⟨hrequest, hend⟩ := h.last t ht
    rcases hkind with ⟨hname, _⟩ | hkind
    · rw [hrequest] at hname
      cases hname
    · rw [hkind] at hend
      cases hend

end Grammar

namespace Pattern.Parser

open Grammar

variable {α β γ : Type}

/-! ## Runs on all texts that begin with the same terminals -/

/-- Reads nothing. -/
def done (a : α) : Parser α := fun c => .ok (a, c)

/-- On every text that begins with `ts` and `us`, the parser `P` does what `Q` does behind `ts`. -/
def Leads (P Q : Parser α) (ts us : List Terminal) : Prop :=
  ∀ d rest, Tiles d.rest (ts ++ us) rest → ∃ d', P d = Q d' ∧ Tiles d'.rest us rest

/-- The parser fails on every text that begins with the terminals. -/
def Fails (P : Parser α) (ts : List Terminal) : Prop :=
  ∀ d rest, Tiles d.rest ts rest → ∃ e, P d = .error e

section

variable {P Q S : Parser α} {ts us vs : List Terminal}

theorem Leads.fails (h : Leads P Q ts us) (hQ : Fails Q us) : Fails P (ts ++ us) := by
  intro d rest htiles
  obtain ⟨d', heq, hus⟩ := h d rest htiles
  rw [heq]
  exact hQ d' rest hus

theorem Leads.trans (h : Leads P Q ts (us ++ vs)) (h' : Leads Q S us vs) :
    Leads P S (ts ++ us) vs := by
  intro d rest htiles
  rw [List.append_assoc] at htiles
  obtain ⟨d', heq, hus⟩ := h d rest htiles
  rw [heq]
  exact h' d' rest hus

theorem Leads.extend (h : Leads P Q ts us) (vs : List Terminal) : Leads P Q ts (us ++ vs) := by
  intro d rest htiles
  rw [← List.append_assoc] at htiles
  obtain ⟨behind, hus, hvs⟩ := Tiles.append_iff.mp htiles
  obtain ⟨d', heq, hus'⟩ := h d behind hus
  exact ⟨d', heq, hus'.append hvs⟩

theorem Leads.bind {a : α} (h : Leads P (done a) ts us)
    (f : α × Cursor → Except PatternError (β × Cursor)) :
    Leads (fun c => P c >>= f) (fun c => f (a, c)) ts us := by
  intro d rest htiles
  obtain ⟨d', heq, hus⟩ := h d rest htiles
  refine ⟨d', ?_, hus⟩
  change P d >>= f = _
  rw [heq]
  rfl

theorem Fails.bind (h : Fails P ts) (f : α × Cursor → Except PatternError (β × Cursor)) :
    Fails (fun c => P c >>= f) ts := by
  intro d rest htiles
  obtain ⟨e, heq⟩ := h d rest htiles
  refine ⟨e, ?_⟩
  change P d >>= f = _
  rw [heq]
  rfl

end

/-! ## Errors -/

theorem bind_eq_error {ε : Type} {x : Except ε α} {f : α → Except ε β} {e : ε} :
    x >>= f = .error e ↔ x = .error e ∨ ∃ a, x = .ok a ∧ f a = .error e := by
  cases x with
  | error e' => simp [bind, Except.bind]
  | ok a => simp [bind, Except.bind]

/-- What the error of a parser says. The terminals in front of the place where it is found are such
that `V` holds of them; if a token is reported, the parser fails on all texts that begin with them
and that token. The first of these terminals is asked for by `m`. -/
inductive Blames (m : Cursor.Request) (V : List Terminal → Prop) (P : Parser α) (c : Cursor) :
    PatternError → Prop where
  | ending {us c'} (h : c.Reaches us c') (hus : V us) (hend : ∀ a ∈ c'.rest, isBlank a = true) :
      Blames m V P c .endOfText
  | stray {us c' e tail} (h : c.Reaches us c') (hus : V us)
      (hrest : c'.rest.dropWhile isBlank = e.character :: tail)
      (hoffset : e.offset = c'.skipBlank.offset) : Blames m V P c (stray e)
  | token {us c' c'' u offset} (h : c.Reaches us c') (hus : V us) (hu : c'.Reaches [u] c'')
      (hoffset : offset = c'.skipBlank.offset) (hjoins : Joins m us u.request)
      (hkind : u.kind ≠ .methodName) (hname : ∀ t ∈ us.getLast?, t.IsName → u.kind ≠ .equals)
      (hfails : Fails P (us ++ [u])) : Blames m V P c (.misplacedToken u.lexeme offset)
  | integer (lexeme offset) : Blames m V P c (.integerOutOfRange lexeme offset)
  | regexp (source) : Blames m V P c (.invalidRegexp source)
  | depth (limit) : Blames m V P c (.nestedTooDeeply limit)

section

variable {m k : Cursor.Request} {U V : List Terminal → Prop} {P : Parser α} {Q : Parser β}
  {c c' : Cursor} {ts : List Terminal} {e : PatternError}

/-- The error of what is read behind `ts` is an error of the whole, if the whole goes on in the same
way behind `ts` on every text. -/
theorem Blames.after (h : Blames k U Q c' e) (hreaches : c.Reaches ts c') (hjoins : Joins m ts k)
    (hname : ∀ t ∈ ts.getLast?, ¬ t.IsName) (hV : ∀ us, U us → V (ts ++ us))
    (hfails : ∀ u rest us, u.request = k → Tiles c'.rest [u] rest → Fails Q (u :: us) →
      Fails P (ts ++ u :: us)) : Blames m V P c e := by
  cases h with
  | ending h hus hend => exact .ending (hreaches.append h) (hV _ hus) hend
  | stray h hus hrest hoffset => exact .stray (hreaches.append h) (hV _ hus) hrest hoffset
  | @token us c₁ c₂ u _ h hus hu hoffset hjoins' hkind hname' hfails' =>
      refine .token (hreaches.append h) (hV _ hus) hu hoffset (hjoins.append hjoins') hkind
        (fun t ht hisName => ?_) ?_
      · cases us with
        | nil =>
            rw [List.append_nil] at ht
            exact absurd hisName (hname t ht)
        | cons v vs =>
            rw [List.getLast?_append_cons] at ht
            exact hname' t ht hisName
      · rw [List.append_assoc]
        cases us with
        | nil => exact hfails u _ [] (hjoins'.nil rfl) (h.append hu).tiles hfails'
        | cons v vs =>
            obtain ⟨behind, hv, _⟩ := Tiles.uncons_iff.mp h.tiles
            exact hfails v behind _ (hjoins'.head v rfl) hv hfails'
  | integer l o => exact .integer l o
  | regexp source => exact .regexp source
  | depth limit => exact .depth limit

/-- The error of what is read first is an error of the whole. -/
theorem Blames.bind (h : Blames m U P c e) (hV : ∀ us, U us → V us)
    (f : α × Cursor → Except PatternError (β × Cursor)) :
    Blames m V (fun c => P c >>= f) c e :=
  h.after (.nil c) (.empty m) nofun hV fun _ _ _ _ _ hfails => hfails.bind f

end

/-! ## Errors where a token is looked at -/

section

variable {m : Cursor.Request} {V : List Terminal → Prop} {P : Parser α} {c c' : Cursor}
  {us : List Terminal} {e : PatternError} {kind : Kind}

theorem mapError_eq_error {ε δ : Type} {x : Except ε α} {f : ε → δ} {e : δ} :
    x.mapError f = .error e ↔ ∃ e', x = .error e' ∧ f e' = e := by
  cases x <;> simp [Except.mapError]

theorem blames_peek (h : peek c' = .error e) (hreaches : c.Reaches us c') (hus : V us) :
    Blames m V P c e := by
  obtain ⟨s, hnext, rfl⟩ := mapError_eq_error.mp h
  obtain ⟨tail, hrest, hoffset⟩ := Cursor.next_eq_error hnext
  exact .stray hreaches hus hrest hoffset

theorem eat_eq_error (h : eat kind c = .error e) : peek c = .error e := by
  rcases bind_eq_error.mp h with h | ⟨_ | ⟨t, c'⟩, _, h⟩
  · exact h
  · cases h
  · by_cases hk : t.kind = kind
    · simp only [if_pos hk] at h
      cases h
    · simp only [if_neg hk] at h
      cases h

theorem kind_of_peek {t : Token} (h : peek c = .ok (some (t, c'))) : t.kind ≠ .methodName := by
  obtain ⟨behind, hread, _⟩ := Tiles.cons_iff.mp (peek_eq_some h).1.tiles
  exact Terminal.kind_of_read? hread rfl

/-- A token that is looked at and does not fit. -/
theorem blames_token {t : Token} {c'' : Cursor} (h : peek c' = .ok (some (t, c'')))
    (hreaches : c.Reaches us c') (hus : V us) (hjoins : Joins m us .token)
    (hname : ∀ t ∈ us.getLast?, ¬ t.IsName) (hfails : Fails P (us ++ [plain t.kind t.lexeme])) :
    Blames m V P c (.misplacedToken t.lexeme t.offset) := by
  obtain ⟨hu, hoffset⟩ := peek_eq_some h
  exact .token (u := plain t.kind t.lexeme) hreaches hus hu hoffset hjoins (kind_of_peek h)
    (fun t ht hisName => absurd hisName (hname t ht)) hfails

/-- Where a token of some kind is expected, another one is reported. -/
theorem blames_expect (h : expect kind c' = .error e) (hreaches : c.Reaches us c') (hus : V us)
    (hjoins : Joins m us .token) (hname : ∀ t ∈ us.getLast?, ¬ t.IsName)
    (hfails : ∀ t c'', peek c' = .ok (some (t, c'')) → t.kind ≠ kind →
      Fails P (us ++ [plain t.kind t.lexeme])) : Blames m V P c e := by
  rcases bind_eq_error.mp h with hpeek | ⟨_ | ⟨t, c''⟩, hpeek, h⟩
  · exact blames_peek hpeek hreaches hus
  · cases h
    exact .ending hreaches hus (peek_eq_none_iff.mp hpeek)
  · by_cases hk : t.kind = kind
    · simp only [if_pos hk] at h
      cases h
    · simp only [if_neg hk] at h
      cases h
      exact blames_token hpeek hreaches hus hjoins hname (hfails t c'' hpeek hk)

end

/-! ## Parsers -/

/-- The parser reads what the relation derives, and its errors say where no derivation goes on. The
first token is asked for by `m`, the one behind what is read in the regular way. -/
structure Traced (m : Cursor.Request) (R : List Terminal → α → Prop) (P : Parser α) : Prop where
  reads {c c' a} (h : P c = .ok (a, c')) : ∃ ts, R ts a ∧ c.Reaches ts c' ∧
    ∀ u rest, u.request = .token → Tiles c'.rest [u] rest → Leads P (done a) ts [u]
  blames {c e} (h : P c = .error e) : Blames m (Resumable R) P c e

section

variable {m k : Cursor.Request} {P Q : Parser α} {R : List Terminal → α → Prop}
  {us : List Terminal} {c c₁ c' : Cursor}

theorem Traced.imp {S : List Terminal → α → Prop} (hP : Traced m R P)
    (himp : ∀ {ts a}, R ts a → S ts a) : Traced m S P where
  reads h := by
    obtain ⟨ts, hts, hread⟩ := hP.reads h
    exact ⟨ts, himp hts, hread⟩
  blames {c e} h := (hP.blames h).after (.nil c) (.empty m) nofun
    (fun _ hus => hus.imp fun _ _ hvs => .of_derives (himp hvs)) fun _ _ _ _ _ hfails => hfails

/-- Reads something, and changes it. -/
def mapped (f : α → β) (P : Parser α) : Parser β := fun c => P c >>= fun a => .ok (f a.1, a.2)

theorem Traced.map {S : List Terminal → β → Prop} (hP : Traced m R P) (f : α → β)
    (hclose : ∀ {ts a}, R ts a → S ts (f a)) : Traced m S (mapped f P) where
  reads {c c' b} h := by
    obtain ⟨⟨a, c₁⟩, ha, h₁⟩ := bind_eq_ok.mp h
    cases h₁
    obtain ⟨ts, hts, hreaches, hleads⟩ := hP.reads ha
    exact ⟨ts, hclose hts, hreaches, fun u rest hu htiles => (hleads u rest hu htiles).bind _⟩
  blames {c e} h := by
    rcases bind_eq_error.mp h with ha | ⟨_, _, h₁⟩
    · exact (hP.blames ha).bind (fun us hus => hus.imp fun vs a hvs => .of_derives (hclose hvs)) _
    · cases h₁

/-- A parser reads on behind some terminals in another way, which is traced. -/
theorem Traced.reads_behind (hQ : Traced k (fun ts a => R (us ++ ts) a) Q)
    (hreaches : c.Reaches us c₁) (hleads : ∀ vs, Leads P Q us vs) {a : α}
    (h : Q c₁ = .ok (a, c')) : ∃ ts, R ts a ∧ c.Reaches ts c' ∧
      ∀ u rest, u.request = .token → Tiles c'.rest [u] rest → Leads P (done a) ts [u] := by
  obtain ⟨ts, hts, hreaches', hleads'⟩ := hQ.reads h
  exact ⟨us ++ ts, hts, hreaches.append hreaches', fun u rest hu htiles =>
    (hleads (ts ++ [u])).trans (hleads' u rest hu htiles)⟩

theorem Traced.blames_behind (hQ : Traced k (fun ts a => R (us ++ ts) a) Q)
    (hreaches : c.Reaches us c₁) (hleads : ∀ vs, Leads P Q us vs) (hjoins : Joins m us k)
    (hname : ∀ t ∈ us.getLast?, ¬ t.IsName) {e : PatternError} (h : Q c₁ = .error e) :
    Blames m (Resumable R) P c e :=
  (hQ.blames h).after hreaches hjoins hname
    (fun _ hvs => hvs.mono fun _ _ hws => .of_derives hws)
    fun u _ vs _ _ hfails => (hleads (u :: vs)).fails hfails

end

/-! ## Lists with separators -/

section

variable {m : Cursor.Request} {separator : Kind} {one : Parser α} {One : List Terminal → α → Prop}

theorem Traced.length_le (hone : Traced m One one) {c c' : Cursor} {x : α}
    (h : one c = .ok (x, c')) : c'.rest.length ≤ c.rest.length := by
  obtain ⟨ts, _, hreaches, _⟩ := hone.reads h
  have hlength := hreaches.tiles.length_le
  omega

/-- How often a list may be continued does not matter, if it is more often than there are
characters. -/
theorem separatedBy_congr (hone : Traced m One one) {c : Cursor} {fuel fuel' : Nat}
    (h : c.rest.length < fuel) (h' : c.rest.length < fuel') :
    separatedBy separator one fuel c = separatedBy separator one fuel' c := by
  induction fuel generalizing fuel' c with
  | zero => omega
  | succ fuel ih =>
      obtain ⟨fuel', rfl⟩ := Nat.exists_eq_add_one_of_ne_zero (Nat.ne_zero_of_lt h')
      rw [separatedBy, separatedBy]
      cases hx : one c with
      | error e => rfl
      | ok a =>
          obtain ⟨x, c₁⟩ := a
          have hle := hone.length_le hx
          change (eat separator c₁ >>= _) = (eat separator c₁ >>= _)
          cases heat : eat separator c₁ with
          | error e => rfl
          | ok a =>
              obtain ⟨more, c₂⟩ := a
              rcases eat_eq_ok heat with ⟨rfl, l, hl⟩ | ⟨rfl, rfl⟩
              · have hlt := hl.tiles.length_le
                simp only [List.length_singleton] at hlt
                have heq : separatedBy separator one fuel c₂ = separatedBy separator one fuel' c₂ :=
                  ih (by omega) (by omega)
                change (separatedBy separator one fuel c₂ >>= _) =
                  (separatedBy separator one fuel' c₂ >>= _)
                rw [heq]
              · rfl

theorem separated_eq (hone : Traced m One one) (c : Cursor) :
    separated separator one c = (do
      let (x, c) ← one c
      let (more, c) ← eat separator c
      if more then
        let (xs, c) ← separated separator one c
        return (x :: xs, c)
      else return ([x], c)) := by
  rw [separated, separatedBy]
  cases hx : one c with
  | error e => rfl
  | ok a =>
      obtain ⟨x, c₁⟩ := a
      have hle := hone.length_le hx
      change (eat separator c₁ >>= _) = (eat separator c₁ >>= _)
      cases heat : eat separator c₁ with
      | error e => rfl
      | ok a =>
          obtain ⟨more, c₂⟩ := a
          rcases eat_eq_ok heat with ⟨rfl, l, hl⟩ | ⟨rfl, rfl⟩
          · have hlt := hl.tiles.length_le
            simp only [List.length_singleton] at hlt
            change (separatedBy separator one c.rest.length c₂ >>= _) =
              (separatedBy separator one (c₂.rest.length + 1) c₂ >>= _)
            rw [separatedBy_congr hone (show c₂.rest.length < c.rest.length by omega)
              (Nat.lt_succ_self _)]
          · rfl

/-- Behind an element with a separator, the list goes on as at its beginning. -/
theorem leads_separator (hone : Traced m One one) {ts : List Terminal} {x : α} {l : List Char}
    (h : Leads one (done x) ts [plain separator l]) (us : List Terminal) :
    Leads (separated separator one) (mapped (x :: ·) (separated separator one))
      (ts ++ [plain separator l]) us := by
  intro d rest htiles
  obtain ⟨behind, htiles, hus⟩ := Tiles.append_iff.mp htiles
  obtain ⟨d₁, hx, hl⟩ := h d behind htiles
  obtain ⟨d₂, heat, rfl⟩ := eat_of_tiles hl
  refine ⟨d₂, ?_, hus⟩
  rw [separated_eq hone, hx]
  change (eat separator d₁ >>= _) = _
  rw [heat]
  rfl

theorem kind_ne_of_eat {c c' : Cursor} {u : Terminal} {rest : List Char}
    (h : eat separator c = .ok (false, c')) (hu : u.request = .token)
    (htiles : Tiles c.rest [u] rest) : u.kind ≠ separator := by
  obtain ⟨_, k, l⟩ := u
  obtain rfl : _ = Cursor.Request.token := hu
  rintro rfl
  obtain ⟨c'', heat, _⟩ := eat_of_tiles htiles
  rw [h] at heat
  cases heat

/-- What a list reads, by induction on what is left of the text. -/
theorem Traced.reads_separated (hone : Traced m One one) {c c' : Cursor} {xs : List α}
    (h : Parser.separated separator one c = .ok (xs, c')) :
    ∃ ts, Separated separator One ts xs ∧ c.Reaches ts c' ∧
      ∀ u rest, u.request = .token → Tiles c'.rest [u] rest →
        Leads (Parser.separated separator one) (done xs) ts [u] := by
  generalize hn : c.rest.length = n
  induction n using Nat.strongRecOn generalizing c xs with
  | ind n ih =>
      subst hn
      rw [separated_eq hone] at h
      obtain ⟨⟨x, c₁⟩, hx, h₁⟩ := bind_eq_ok.mp h
      obtain ⟨⟨more, c₂⟩, heat, h₂⟩ := bind_eq_ok.mp h₁
      obtain ⟨ts, hts, hreaches, hleads⟩ := hone.reads hx
      have hle := hone.length_le hx
      rcases eat_eq_ok heat with ⟨rfl, l, hl⟩ | ⟨rfl, rfl⟩
      · obtain ⟨⟨xs', c₃⟩, hxs, h₃⟩ := bind_eq_ok.mp h₂
        cases h₃
        have hlt := hl.tiles.length_le
        simp only [List.length_singleton] at hlt
        obtain ⟨us, hus, hreaches', hleads'⟩ := ih c₂.rest.length (by omega) hxs rfl
        refine ⟨ts ++ plain separator l :: us, .more l hts hus,
          hreaches.append (hl.append hreaches'), fun u rest hu htiles => ?_⟩
        have hfirst := leads_separator hone (hleads _ _ rfl hl.tiles) (us ++ [u])
        have hmore : Leads (mapped (x :: ·) (Parser.separated separator one)) (done (x :: xs'))
            us [u] :=
          (hleads' u rest hu htiles).bind _
        simpa using hfirst.trans hmore
      · cases h₂
        refine ⟨ts, .last hts, hreaches, fun u rest hu htiles d rest' htiles' => ?_⟩
        obtain ⟨d₁, hone', hu'⟩ := hleads u rest hu htiles d rest' htiles'
        have hne : u.kind ≠ separator := kind_ne_of_eat heat hu htiles
        obtain ⟨_, k, l⟩ := u
        obtain rfl : _ = Cursor.Request.token := hu
        have heat' : eat separator d₁ = .ok (false, d₁) :=
          eat_of_stops (.of_tiles hu' (by simpa using hne)) (List.mem_singleton_self _)
        refine ⟨d₁, ?_, hu'⟩
        rw [separated_eq hone, hone']
        change (eat separator d₁ >>= _) = _
        rw [heat']
        rfl

/-- An error of an element is an error of the list: the elements in front of it make a list with a
separator behind it. -/
theorem Traced.blames_separated (hone : Traced m One one)
    (hphrase : ∀ {ts x}, One ts x → Phrase (fun t => t.request = m) ts)
    (hsep : separator ≠ .equals) {c : Cursor} {e : PatternError}
    (h : Parser.separated separator one c = .error e) :
    Blames m (Resumable (Separated separator One)) (Parser.separated separator one) c e := by
  have hlast {ts x} (h : One ts x) : Viable (Separated separator One) ts :=
    .of_derives (.last h)
  generalize hn : c.rest.length = n
  induction n using Nat.strongRecOn generalizing c with
  | ind n ih =>
      subst hn
      rw [separated_eq hone] at h
      rcases bind_eq_error.mp h with hx | ⟨⟨x, c₁⟩, hx, h₁⟩
      · rw [funext (separated_eq hone)]
        exact (hone.blames hx).bind (fun us hus => hus.imp fun vs b hb => hlast hb) _
      obtain ⟨ts, hts, hreaches, hleads⟩ := hone.reads hx
      have hle := hone.length_le hx
      rcases bind_eq_error.mp h₁ with heat | ⟨⟨more, c₂⟩, heat, h₂⟩
      · exact blames_peek (eat_eq_error heat) hreaches (.inl (hlast hts))
      rcases eat_eq_ok heat with ⟨rfl, l, hl⟩ | ⟨rfl, rfl⟩
      · rcases bind_eq_error.mp h₂ with hxs | ⟨_, _, h₃⟩
        · have hlt := hl.tiles.length_le
          simp only [List.length_singleton] at hlt
          have hjoins : Joins m (ts ++ [plain separator l]) m :=
            (hphrase hts).joins.append (joins_plain fun heq => absurd heq hsep)
          refine (ih c₂.rest.length (by omega) hxs rfl).after (hreaches.append hl) hjoins
            ?_ (fun us hus => hus.mono fun vs b hb => ?_) fun u rest us hu htiles hfails => ?_
          · simp [Terminal.IsName, plain]
          · simpa using Viable.of_derives (Separated.more l hts hb)
          · exact (leads_separator hone (hleads _ _ rfl hl.tiles) (u :: us)).fails (hfails.bind _)
        · cases h₃
      · cases h₂

theorem Traced.separated (hone : Traced m One one)
    (hphrase : ∀ {ts x}, One ts x → Phrase (fun t => t.request = m) ts)
    (hsep : separator ≠ .equals) :
    Traced m (Separated separator One) (Parser.separated separator one) :=
  ⟨hone.reads_separated, hone.blames_separated hphrase hsep⟩

end

end Pattern.Parser

end TreePattern
