import TreePattern.Proofs.Grammar.Synchrony
import TreePattern.Proofs.Printing.Layout
import TreePattern.Proofs.Printing.Standing

/-! How printed pieces are divided into tokens again. Every piece is scanned as it was written, but
for a symbol that becomes longer by the operator right behind it. -/

namespace TreePattern

open Token (Kind isBlank boundaries symbol? scan?)
open Terminal (plain name)
open Grammar (Adjacent Regular Continues)

/-! ## Fusing pieces -/

namespace Piece

/-- Whether a symbol becomes longer by the operator right behind it. -/
def fuses (p q : Piece) : Bool :=
  p.spaces == 0 && p.terminal.request == .token && p.terminal.kind == .symbol &&
    q.terminal.kind ∈ [.question, .star, .rightAngle] &&
    symbol? (p.terminal.lexeme ++ q.terminal.lexeme) ==
      some (p.terminal.lexeme ++ q.terminal.lexeme)

/-- The terminals that pieces are divided into. -/
def fuse : List Piece → List Terminal
  | [] => []
  | [p] => [p.terminal]
  | p :: q :: ps =>
    if p.fuses q then plain .symbol (p.terminal.lexeme ++ q.terminal.lexeme) :: fuse ps
    else p.terminal :: fuse (q :: ps)

/-- Pieces of which none fuses with the next one. -/
def Apart (ps : List Piece) : Prop := ps.IsChain fun p q => p.fuses q = false

theorem fuse_of_apart {ps : List Piece} (h : Apart ps) : fuse ps = ps.map terminal := by
  induction ps using fuse.induct with
  | case1 => rfl
  | case2 p => rfl
  | case3 p q ps hfuses _ =>
      rw [(List.isChain_cons_cons.mp h).1] at hfuses
      cases hfuses
  | case4 p q ps hfuses ih =>
      rw [fuse, if_neg hfuses, ih (List.isChain_cons_cons.mp h).2]
      rfl

theorem length_fuse_le (ps : List Piece) : (fuse ps).length ≤ ps.length := by
  induction ps using fuse.induct with
  | case1 => exact Nat.le_refl _
  | case2 p => exact Nat.le_refl _
  | case3 p q ps hfuses ih =>
      rw [fuse, if_pos hfuses]
      simp only [List.length_cons]
      omega
  | case4 p q ps hfuses ih =>
      rw [fuse, if_neg hfuses]
      simp only [List.length_cons] at ih ⊢
      omega

theorem length_fuse_lt {ps : List Piece} (h : ¬ Apart ps) : (fuse ps).length < ps.length := by
  induction ps using fuse.induct with
  | case1 => exact absurd .nil h
  | case2 p => exact absurd (.singleton p) h
  | case3 p q ps hfuses _ =>
      have hle := length_fuse_le ps
      rw [fuse, if_pos hfuses]
      simp only [List.length_cons]
      omega
  | case4 p q ps hfuses ih =>
      have hlt := ih fun hapart =>
        h (List.isChain_cons_cons.mpr ⟨Bool.eq_false_iff.mpr hfuses, hapart⟩)
      rw [fuse, if_neg hfuses]
      simp only [List.length_cons] at hlt ⊢
      omega

/-! ## Pieces that follow each other -/

theorem isBlank_of_mem_replicate (n : Nat) : ∀ c ∈ List.replicate n ' ', isBlank c = true := by
  intro c hc
  rw [List.eq_of_mem_replicate hc]
  rfl

/-- A space comes first, if there is one before or behind other spaces. -/
theorem replicate_append_space (n : Nat) (cs : List Char) :
    ∃ ds, List.replicate n ' ' ++ ' ' :: cs = ' ' :: ds := by
  cases n with
  | zero => exact ⟨cs, rfl⟩
  | succ n => exact ⟨_, rfl⟩

/-- The operator of a constraint is in the way of no attribute name. -/
theorem clear_of_name {p q : Piece} (hname : p.terminal.request = .name)
    (h : Adjacent p.terminal q.terminal) (hq : q.terminal.Stands) (cs : List Char) :
    p.terminal.Clear (List.replicate p.spaces ' ' ++ (q.chars ++ cs)) := by
  obtain ⟨htoken, hk⟩ := h.of_name hname
  have hmem := hq.mem_operators htoken (Terminal.isOperator_of_isAttributeOperator hk)
  have hindent : q.terminal.indent = [' '] := by simp [Terminal.indent, hk]
  have hsplit : List.replicate p.spaces ' ' ++ (q.chars ++ cs) = List.replicate p.spaces ' ' ++
      ' ' :: (q.terminal.lexeme ++ (List.replicate q.spaces ' ' ++ cs)) := by
    simp [chars, hindent]
  have hblank : ∀ c ∈ List.replicate p.spaces ' ' ++ [' '], isBlank c = true := by
    rw [← List.replicate_succ']
    exact isBlank_of_mem_replicate _
  have hfollows := Token.operatorFollows_append hblank hmem hk (List.replicate q.spaces ' ' ++ cs)
  rw [List.append_assoc, List.singleton_append] at hfollows
  rw [hsplit, Terminal.Clear, hname]
  exact ⟨replicate_append_space _ _, hfollows⟩

/-- A link that is no bar is written as a boundary. -/
theorem lexeme_of_link {t : Terminal} (h : t.Stands) (hlink : Regular Grammar.isLink t)
    (hpipe : t.kind ≠ .pipe) : t.indent = [] ∧ ∃ c ∈ boundaries, t.lexeme = [c] := by
  have hall : ∀ a ∈ Token.operators, Grammar.isLink a.2 = true → a.2 ≠ .pipe →
      a.1 ∈ boundaries.map fun c => [c] := by decide
  have hindent : ∀ k, Grammar.isLink k = true → k ≠ .pipe →
      (k == .pipe || k.isAttributeOperator) = false := by
    intro k
    cases k <;> decide
  have hmem := h.mem_operators hlink.1 (Terminal.isOperator_of_isLink hlink.2)
  obtain ⟨c, hc, heq⟩ := List.mem_map.mp (hall _ hmem hlink.2 hpipe)
  exact ⟨by simp [Terminal.indent, hindent _ hlink.2 hpipe], c, hc, heq.symm⟩

/-- The boundaries that may make a symbol longer are operators of the kinds that fuse. -/
theorem fuses_of_symbol? {p q : Piece} (hp : p.terminal.Stands) (hq : q.terminal.Stands)
    (hspaces : p.spaces = 0) (htoken : p.terminal.request = .token)
    (hk : p.terminal.kind = .symbol) (hqtoken : q.terminal.request = .token)
    (hlink : Grammar.isLink q.terminal.kind = true) {c : Char} (hc : c ∈ boundaries)
    (hl : q.terminal.lexeme = [c])
    (hlonger : symbol? (p.terminal.lexeme ++ [c]) = some (p.terminal.lexeme ++ [c])) :
    p.fuses q = true := by
  have hall : ∀ a ∈ Token.operators, a.1 = ['?'] ∨ a.1 = ['*'] ∨ a.1 = ['>'] →
      a.2 ∈ [.question, .star, .rightAngle] := by decide
  have hmem := hq.mem_operators hqtoken (Terminal.isOperator_of_isLink hlink)
  have hsymbol := hp.symbol? htoken hk
  have hkind : q.terminal.kind ∈ [Kind.question, .star, .rightAngle] := by
    apply hall _ hmem
    obtain ⟨_, name, _, heq, _, _, hcolon⟩ := Token.begins_symbol hsymbol
    obtain rfl := eq_of_beq hcolon
    rw [heq] at hsymbol hlonger
    rw [hl]
    rcases (Token.symbol?_concat_iff hsymbol hc).mp hlonger with ⟨rfl, _⟩ | ⟨rfl, _⟩ | ⟨rfl, _⟩
    · exact .inl rfl
    · exact .inr (.inl rfl)
    · exact .inr (.inr rfl)
  rw [← hl] at hlonger
  simp only [fuses, Bool.and_eq_true, beq_iff_eq, decide_eq_true_eq]
  exact ⟨⟨⟨⟨hspaces, htoken⟩, hk⟩, hkind⟩, hlonger⟩

theorem clear_of_link {p q : Piece} (hp : p.terminal.Stands) (hq : q.terminal.Stands)
    (hspaces : p.spaces = 0) (htoken : p.terminal.request = .token)
    (hlink : Regular Grammar.isLink q.terminal) (hapart : p.fuses q = false) (cs : List Char) :
    p.terminal.Clear (q.terminal.indent ++ (q.terminal.lexeme ++ cs)) := by
  by_cases hpipe : q.terminal.kind = .pipe
  · have hindent : q.terminal.indent = [' '] := by simp [Terminal.indent, hpipe]
    rw [hindent]
    exact Terminal.clear_space hp htoken _
  · obtain ⟨hindent, c, hc, hl⟩ := lexeme_of_link hq hlink hpipe
    rw [hindent, hl, Terminal.Clear, htoken]
    right
    rintro _ ⟨⟩
    refine ⟨.inl hc, fun hk hlonger => ?_⟩
    rw [fuses_of_symbol? hp hq hspaces htoken hk hlink.1 hlink.2 hc hl hlonger] at hapart
    cases hapart

theorem clear_of_leftAngle {p q : Piece} (hq : q.terminal.Stands)
    (htoken : p.terminal.request = .token) (hclass : p.terminal.kind = .className)
    (hqtoken : q.terminal.request = .token) (hleft : q.terminal.kind = .leftAngle)
    (cs : List Char) : p.terminal.Clear (q.terminal.indent ++ (q.terminal.lexeme ++ cs)) := by
  have hall : ∀ a ∈ Token.operators, a.2 = .leftAngle → a.1 = ['<'] := by decide
  have hl : q.terminal.lexeme = ['<'] :=
    hall _ (hq.mem_operators hqtoken (by rw [hleft]; rfl)) hleft
  have hindent : q.terminal.indent = [] := by
    rw [Terminal.indent, hleft]
    rfl
  rw [hindent, hl, Terminal.Clear, htoken]
  right
  rintro _ ⟨⟩
  refine ⟨.inr ⟨hclass, rfl⟩, fun hk => ?_⟩
  rw [hclass] at hk
  cases hk

/-- What follows a piece is clear, unless the two fuse. -/
theorem clear_of_adjacent {p q : Piece} (h : Adjacent p.terminal q.terminal)
    (hp : p.terminal.Stands) (hq : q.terminal.Stands) (hapart : p.fuses q = false)
    (cs : List Char) : p.terminal.Clear (List.replicate p.spaces ' ' ++ (q.chars ++ cs)) := by
  have hopeners : ∀ k : Kind, k.isFree = false → k ≠ .leftAngle ∧ k ≠ .comma ∧
      Grammar.isOpener k = false := by
    intro k
    cases k <;> decide
  cases hrequest : p.terminal.request with
  | name => exact clear_of_name hrequest h hq cs
  | token =>
      cases hfree : p.terminal.kind.isFree with
      | true =>
          rw [Terminal.Clear, hrequest]
          exact .inl hfree
      | false =>
          obtain ⟨hangle, hcomma, hopener⟩ := hopeners _ hfree
          have hqtoken := h.of_other hrequest hangle hcomma
          cases hspaces : p.spaces with
          | succ n => exact Terminal.clear_space hp hrequest _
          | zero =>
              rw [List.replicate_zero, List.nil_append, chars, List.append_assoc,
                List.append_assoc]
              rcases h.of_end hrequest hangle hopener with hlink | ⟨hclass, hleft⟩
              · exact clear_of_link hp hq hspaces hrequest ⟨hqtoken, hlink⟩ hapart _
              · exact clear_of_leftAngle hq hrequest hclass hqtoken hleft _

theorem append_text_cons (blanks : List Char) (p : Piece) (ps : List Piece) :
    blanks ++ text (p :: ps) = (blanks ++ p.terminal.indent) ++
      (p.terminal.lexeme ++ (List.replicate p.spaces ' ' ++ text ps)) := by
  simp [chars]

theorem isBlank_indent {blanks : List Char} (h : ∀ c ∈ blanks, isBlank c = true) (t : Terminal) :
    ∀ c ∈ blanks ++ t.indent, isBlank c = true := by
  intro c hc
  rcases List.mem_append.mp hc with hc | hc
  · exact h c hc
  · unfold Terminal.indent at hc
    split at hc
    · rw [List.mem_singleton.mp hc]
      rfl
    · cases hc

theorem fuses_iff {p q : Piece} : p.fuses q = true ↔ (p.spaces = 0 ∧ p.terminal.request = .token ∧
    p.terminal.kind = .symbol) ∧ q.terminal.kind ∈ [Kind.question, .star, .rightAngle] ∧
      symbol? (p.terminal.lexeme ++ q.terminal.lexeme) =
        some (p.terminal.lexeme ++ q.terminal.lexeme) := by
  simp only [fuses, Bool.and_eq_true, beq_iff_eq, decide_eq_true_eq]
  tauto

/-- What follows an operator that fuses may follow the longer symbol. -/
theorem adjacent_of_fuses {t u : Terminal} (ht : t.kind ∈ [Kind.question, .star, .rightAngle])
    (htoken : t.request = .token) (h : Adjacent t u) (l : List Char) :
    Adjacent (plain .symbol l) u := by
  have hkind : ∀ k ∈ [Kind.question, .star, .rightAngle],
      k ≠ .leftAngle ∧ k ≠ .comma ∧ k ≠ .className ∧ Grammar.isOpener k = false := by decide
  obtain ⟨hangle, hcomma, hclass, hopener⟩ := hkind _ ht
  have hlink := (h.of_end htoken hangle hopener).resolve_right fun heq => hclass heq.1
  exact Grammar.adjacent_link (Grammar.regular_plain rfl l) ⟨h.of_other htoken hangle hcomma, hlink⟩

/-- A symbol and the operator that makes it longer are scanned as one symbol. -/
theorem continues_of_fuses {t : Terminal} {p q : Piece} {ps : List Piece} {us : List Terminal}
    {blanks : List Char} (hfuses : p.fuses q = true) (hblank : ∀ c ∈ blanks, isBlank c = true)
    (hadjacent : Adjacent t p.terminal) (hadjacent' : Adjacent p.terminal q.terminal)
    (hp : p.terminal.Stands) (hq : q.terminal.Stands)
    (h : Continues (plain .symbol (p.terminal.lexeme ++ q.terminal.lexeme))
      (List.replicate q.spaces ' ' ++ text ps) us) :
    Continues t (blanks ++ text (p :: q :: ps))
      (plain .symbol (p.terminal.lexeme ++ q.terminal.lexeme) :: us) := by
  have hlinks : ∀ k ∈ [Kind.question, .star, .rightAngle], Grammar.isLink k = true ∧ k ≠ .pipe := by
    decide
  obtain ⟨⟨hspaces, htoken, hk⟩, hkind, hlonger⟩ := fuses_iff.mp hfuses
  have hqtoken : q.terminal.request = .token :=
    hadjacent'.of_other htoken (by simp [hk]) (by simp [hk])
  obtain ⟨hlink, hpipe⟩ := hlinks _ hkind
  obtain ⟨hindent, c, hc, hl⟩ := lexeme_of_link hq ⟨hqtoken, hlink⟩ hpipe
  have hsplit : blanks ++ text (p :: q :: ps) = (blanks ++ p.terminal.indent) ++
      (p.terminal.lexeme ++ [c] ++ (List.replicate q.spaces ' ' ++ text ps)) := by
    rw [append_text_cons, hspaces, List.replicate_zero, text_cons, chars, hindent, hl]
    simp
  have hterminal : p.terminal = plain .symbol p.terminal.lexeme := by
    obtain ⟨⟨_, k, l⟩, _⟩ := p
    obtain rfl : _ = Cursor.Request.token := htoken
    obtain rfl : k = .symbol := hk
    rfl
  have hjoined : Adjacent t (plain .symbol (p.terminal.lexeme ++ [c])) := by
    rw [hterminal] at hadjacent
    exact { hadjacent with }
  rw [hl] at hlonger h ⊢
  have hscan : Token.lexeme? (p.terminal.lexeme ++ [c] ++
      (List.replicate q.spaces ' ' ++ text ps)) = some (.symbol, p.terminal.lexeme ++ [c]) := by
    rw [List.append_assoc]
    exact Token.lexeme?_of_symbol?
      (Token.symbol?_append_of_boundary (hp.symbol? htoken hk) hc hlonger)
  rw [hsplit]
  exact .cons hjoined (isBlank_indent hblank _) hscan (fun _ => rfl) h

theorem fuse_ne_nil (p : Piece) (ps : List Piece) : fuse (p :: ps) ≠ [] := by
  cases ps with
  | nil => exact List.cons_ne_nil _ _
  | cons q ps =>
      rw [fuse]
      split <;> exact List.cons_ne_nil _ _

/-- The text of pieces that may follow each other is divided into what they fuse to. -/
theorem continues_fuse {ps : List Piece} {t : Terminal} {blanks : List Char}
    (hblank : ∀ c ∈ blanks, isBlank c = true)
    (hchain : (t :: ps.map terminal).IsChain Adjacent)
    (hlast : ∀ u ∈ (ps.map terminal).getLast?, u.request = .token)
    (hstands : ∀ p ∈ ps, p.terminal.Stands) : Continues t (blanks ++ text ps) (fuse ps) := by
  induction ps using fuse.induct generalizing t blanks with
  | case1 =>
      rw [text_nil, List.append_nil]
      exact .nil hblank t
  | case2 p =>
      obtain ⟨hadjacent, _⟩ := List.isChain_cons_cons.mp hchain
      have htoken : p.terminal.request = .token := hlast _ rfl
      have hclear : p.terminal.Clear (List.replicate p.spaces ' ' ++ text []) := by
        cases p.spaces with
        | zero => exact Terminal.clear_nil htoken
        | succ n => exact Terminal.clear_space (hstands p List.mem_cons_self) htoken _
      rw [append_text_cons]
      refine .cons hadjacent (isBlank_indent hblank _) (hstands p List.mem_cons_self _ hclear)
        (fun _ => htoken) (.nil ?_ _)
      rw [text_nil, List.append_nil]
      exact isBlank_of_mem_replicate _
  | case3 p q ps hfuses ih =>
      obtain ⟨hadjacent, hchain₁⟩ := List.isChain_cons_cons.mp hchain
      obtain ⟨hadjacent', hchain₂⟩ := List.isChain_cons_cons.mp hchain₁
      obtain ⟨⟨_, htoken, hk⟩, hkind, _⟩ := fuses_iff.mp hfuses
      have hqtoken : q.terminal.request = .token :=
        hadjacent'.of_other htoken (by simp [hk]) (by simp [hk])
      have htail : (plain .symbol (p.terminal.lexeme ++ q.terminal.lexeme) ::
          ps.map terminal).IsChain Adjacent := by
        cases ps with
        | nil => exact .singleton _
        | cons r ps =>
            obtain ⟨hadjacent₂, hchain₃⟩ := List.isChain_cons_cons.mp hchain₂
            exact .cons_cons (adjacent_of_fuses hkind hqtoken hadjacent₂ _) hchain₃
      have hlast' : ∀ u ∈ (ps.map terminal).getLast?, u.request = .token := by
        cases ps with
        | nil => exact nofun
        | cons r ps => simpa [List.getLast?_cons_cons] using hlast
      rw [fuse, if_pos hfuses]
      exact continues_of_fuses hfuses hblank hadjacent hadjacent' (hstands p List.mem_cons_self)
        (hstands q (List.mem_cons_of_mem p List.mem_cons_self))
        (ih (isBlank_of_mem_replicate _) htail hlast' fun r hr =>
          hstands r (List.mem_cons_of_mem p (List.mem_cons_of_mem q hr)))
  | case4 p q ps hfuses ih =>
      obtain ⟨hadjacent, hchain₁⟩ := List.isChain_cons_cons.mp hchain
      obtain ⟨hadjacent', _⟩ := List.isChain_cons_cons.mp hchain₁
      have hclear := clear_of_adjacent hadjacent' (hstands p List.mem_cons_self)
        (hstands q (List.mem_cons_of_mem p List.mem_cons_self)) (Bool.eq_false_iff.mpr hfuses)
        (text ps)
      rw [fuse, if_neg hfuses, append_text_cons]
      exact .cons hadjacent (isBlank_indent hblank _) (hstands p List.mem_cons_self _ hclear)
        (fun hnil => absurd hnil (fuse_ne_nil q ps))
        (ih (isBlank_of_mem_replicate _) hchain₁ hlast fun r hr =>
          hstands r (List.mem_cons_of_mem p hr))

/-- Pieces with a space behind each of them are kept apart. -/
theorem apart_spaced (ts : List Terminal) : Apart (ts.map (mk · 1)) :=
  (List.pairwise_map.mpr (List.pairwise_of_forall fun _ _ => rfl)).isChain

/-- Terminals that may follow each other can be written down with spaces behind them. -/
theorem tiles_spaced {ts : List Terminal} {t : Terminal} {blanks : List Char}
    (hblank : ∀ c ∈ blanks, isBlank c = true) (hchain : (t :: ts).IsChain Adjacent)
    (hlast : ∀ u ∈ ts.getLast?, u.request = .token) (hstands : ∀ u ∈ ts, u.Stands) :
    ∃ rest, Tiles (blanks ++ text (ts.map (mk · 1))) ts rest ∧ ∀ c ∈ rest, isBlank c = true := by
  have hterminals : (ts.map (mk · 1)).map terminal = ts := by simp [Function.comp_def]
  have hcontinues : Continues t (blanks ++ text (ts.map (mk · 1))) (fuse (ts.map (mk · 1))) := by
    refine continues_fuse hblank ?_ ?_ (by simpa using hstands)
    · rwa [hterminals]
    · rwa [hterminals]
  rw [fuse_of_apart (apart_spaced ts), hterminals] at hcontinues
  exact hcontinues.tiles

end Piece

end TreePattern
