import Mathlib.Data.List.DropRight
import Mathlib.Data.List.TakeWhile
import TreePattern.Proofs.Token.Lexeme

/-! Tilings: a text divided into terminals with nothing but white space before, between and behind
them, where each terminal is the lexeme that a scan finds at its place. -/

namespace TreePattern

/-- A token without its place, and the way in which it is asked for. -/
structure Terminal where
  request : Cursor.Request
  kind : Token.Kind
  lexeme : List Char
  deriving DecidableEq

namespace Token

/-- The lexeme that a text begins with, for one way of asking. -/
def scan? : Cursor.Request → List Char → Option (Kind × List Char)
  | .token, cs => lexeme? cs
  | .name, cs =>
    match methodName? cs with
    | some l => some (.methodName, l)
    | none => lexeme? cs

theorem begins_scan {request : Cursor.Request} {cs l : List Char} {k : Kind}
    (h : scan? request cs = some (k, l)) : Begins (fun c => !isBlank c) cs l := by
  cases request with
  | token => exact begins_lexeme h
  | name =>
      cases hname : methodName? cs with
      | some name =>
          simp only [scan?, hname, Option.some.injEq, Prod.mk.injEq] at h
          obtain ⟨_, rfl⟩ := h
          exact begins_methodName hname
      | none =>
          simp only [scan?, hname] at h
          exact begins_lexeme h

/-- Only the scan for a name yields a method name. -/
theorem methodName?_of_scan? {cs l : List Char} (h : scan? .name cs = some (.methodName, l)) :
    methodName? cs = some l := by
  cases hname : methodName? cs with
  | some name =>
      simp only [scan?, hname, Option.some.injEq, Prod.mk.injEq] at h
      rw [h.2]
  | none =>
      simp only [scan?, hname] at h
      exact absurd rfl (kind_ne_methodName h)

end Token

open Token

/-- The terminals tile a text up to `rest`. -/
inductive Tiles : List Char → List Terminal → List Char → Prop where
  | nil (rest) : Tiles rest [] rest
  | cons {blanks behind rest : List Char} {t : Terminal} {ts : List Terminal}
      (hblank : ∀ c ∈ blanks, isBlank c = true)
      (hscan : scan? t.request (t.lexeme ++ behind) = some (t.kind, t.lexeme))
      (h : Tiles behind ts rest) : Tiles (blanks ++ (t.lexeme ++ behind)) (t :: ts) rest

namespace Terminal

/-- The first terminal of a text and what follows it. -/
def read? (request : Cursor.Request) (cs : List Char) : Option (Terminal × List Char) :=
  (scan? request (cs.dropWhile isBlank)).map fun a =>
    (⟨request, a.1, a.2⟩, (cs.dropWhile isBlank).drop a.2.length)

theorem dropWhile_isBlank {blanks : List Char} (hblank : ∀ c ∈ blanks, isBlank c = true)
    (cs : List Char) : (blanks ++ cs).dropWhile isBlank = cs.dropWhile isBlank := by
  rw [List.dropWhile_append, if_pos (by simpa [List.dropWhile_eq_nil_iff] using hblank)]

theorem read?_eq_some_iff {request : Cursor.Request} {cs rest : List Char} {t : Terminal} :
    read? request cs = some (t, rest) ↔ t.request = request ∧ ∃ blanks : List Char,
      (∀ c ∈ blanks, isBlank c = true) ∧ cs = blanks ++ (t.lexeme ++ rest) ∧
        scan? t.request (t.lexeme ++ rest) = some (t.kind, t.lexeme) := by
  constructor
  · intro h
    obtain ⟨⟨k, l⟩, hscan, heq⟩ := Option.map_eq_some_iff.mp h
    cases heq
    obtain ⟨behind, hbehind⟩ := (begins_scan hscan).isPrefix
    refine ⟨rfl, cs.takeWhile isBlank, fun c hc => List.mem_takeWhile_imp hc, ?_, ?_⟩
    · simp only [← hbehind, List.drop_left]
      rw [hbehind, List.takeWhile_append_dropWhile]
    · simpa only [← hbehind, List.drop_left] using hscan
  · rintro ⟨rfl, blanks, hblank, rfl, hscan⟩
    obtain ⟨c, tail, _, hl, _, _, hc⟩ := begins_scan hscan
    have hdrop : (t.lexeme ++ rest).dropWhile isBlank = t.lexeme ++ rest := by
      rw [hl, List.cons_append, List.dropWhile_cons_of_neg (by simpa using hc)]
    rw [read?, dropWhile_isBlank hblank, hdrop, hscan]
    simp

/-- Regular scanning never yields the name of a method. -/
theorem kind_of_read? {request : Cursor.Request} {cs rest : List Char} {t : Terminal}
    (h : read? request cs = some (t, rest)) (hrequest : t.request = .token) :
    t.kind ≠ .methodName := by
  obtain ⟨_, _, _, _, hscan⟩ := read?_eq_some_iff.mp h
  rw [hrequest] at hscan
  exact kind_ne_methodName hscan

end Terminal

namespace Tiles

variable {cs rest : List Char} {t : Terminal} {ts us : List Terminal}

theorem nil_iff : Tiles cs [] rest ↔ cs = rest := by
  constructor
  · rintro ⟨⟩
    rfl
  · rintro rfl
    exact .nil cs

theorem cons_iff : Tiles cs (t :: ts) rest ↔
    ∃ behind, Terminal.read? t.request cs = some (t, behind) ∧ Tiles behind ts rest := by
  constructor
  · rintro (_ | ⟨hblank, hscan, h⟩)
    exact ⟨_, Terminal.read?_eq_some_iff.mpr ⟨rfl, _, hblank, rfl, hscan⟩, h⟩
  · rintro ⟨behind, hread, h⟩
    obtain ⟨_, blanks, hblank, rfl, hscan⟩ := Terminal.read?_eq_some_iff.mp hread
    exact .cons hblank hscan h

theorem append_iff : Tiles cs (ts ++ us) rest ↔
    ∃ behind, Tiles cs ts behind ∧ Tiles behind us rest := by
  induction ts generalizing cs with
  | nil => simp [nil_iff]
  | cons t ts ih =>
      simp only [List.cons_append, cons_iff, ih]
      constructor
      · rintro ⟨behind, hread, middle, hts, hus⟩
        exact ⟨middle, ⟨behind, hread, hts⟩, hus⟩
      · rintro ⟨middle, ⟨behind, hread, hts⟩, hus⟩
        exact ⟨behind, hread, middle, hts, hus⟩

theorem singleton_iff : Tiles cs [t] rest ↔ Terminal.read? t.request cs = some (t, rest) := by
  simp [cons_iff, nil_iff]

theorem uncons_iff : Tiles cs (t :: ts) rest ↔
    ∃ behind, Tiles cs [t] behind ∧ Tiles behind ts rest := by
  rw [cons_iff]
  simp only [singleton_iff]

/-- The first terminal is determined by the way in which it is asked for. -/
theorem head_unique {behind : List Char} {u : Terminal} (h : Tiles cs (t :: ts) rest)
    (hu : Tiles cs [u] behind) (hrequest : t.request = u.request) :
    t = u ∧ Tiles behind ts rest := by
  obtain ⟨behind', hread, hts⟩ := cons_iff.mp h
  rw [singleton_iff, ← hrequest, hread] at hu
  cases hu
  exact ⟨rfl, hts⟩

theorem append {behind : List Char} (hts : Tiles cs ts behind) (hus : Tiles behind us rest) :
    Tiles cs (ts ++ us) rest :=
  append_iff.mpr ⟨behind, hts, hus⟩

theorem length_le (h : Tiles cs ts rest) : ts.length + rest.length ≤ cs.length := by
  induction h with
  | nil => simp
  | cons hblank hscan _ ih =>
      have hpos := List.length_pos_of_ne_nil (begins_scan hscan).ne_nil
      simp only [List.length_append, List.length_cons]
      omega

/-- A lexeme at the beginning of a text is a terminal of it. -/
theorem of_lexeme? {l : List Char} {k : Kind} (h : lexeme? (l ++ rest) = some (k, l)) :
    Tiles (l ++ rest) [⟨.token, k, l⟩] rest :=
  singleton_iff.mpr (Terminal.read?_eq_some_iff.mpr ⟨rfl, [], by simp, rfl, h⟩)

end Tiles

/-! ## Cursors -/

namespace Cursor

theorem rest_skipBlank (c : Cursor) : c.skipBlank.rest = c.rest.dropWhile isBlank :=
  calc c.skipBlank.rest
      = (c.rest.takeWhile isBlank ++ c.rest.dropWhile isBlank).drop
          (c.rest.takeWhile isBlank).length := by
        rw [List.takeWhile_append_dropWhile, skipBlank, advance]
    _ = c.rest.dropWhile isBlank := List.drop_left

theorem next_eq_none_iff (c : Cursor) : c.next = .ok none ↔ ∀ a ∈ c.rest, isBlank a = true := by
  rw [← List.dropWhile_eq_nil_iff, ← rest_skipBlank, next]
  constructor
  · intro h
    split at h
    · assumption
    · split at h <;> cases h
  · intro h
    simp [h]

theorem next_eq_some {c c' : Cursor} {t : Token} (h : c.next = .ok (some (t, c'))) :
    Terminal.read? .token c.rest = some (⟨.token, t.kind, t.lexeme⟩, c'.rest) := by
  rw [next] at h
  split at h
  · cases h
  · split at h
    · rename_i k l hlexeme
      cases h
      rw [rest_skipBlank] at hlexeme
      simp [Terminal.read?, scan?, hlexeme, advance, rest_skipBlank]
    · cases h

theorem next_of_read? {c : Cursor} {rest : List Char} {t : Terminal}
    (h : Terminal.read? .token c.rest = some (t, rest)) :
    ∃ t' c', c.next = .ok (some (t', c')) ∧ t'.kind = t.kind ∧ t'.lexeme = t.lexeme ∧
      c'.rest = rest := by
  obtain ⟨⟨k, l⟩, hlexeme, heq⟩ := Option.map_eq_some_iff.mp h
  cases heq
  rw [scan?, ← rest_skipBlank] at hlexeme
  rw [next]
  split
  · rename_i hnil
    exact absurd (begins_lexeme hlexeme).isPrefix (by
      simpa [hnil] using (begins_lexeme hlexeme).ne_nil)
  · exact ⟨_, _, by rw [hlexeme], rfl, rfl, by simp [token, advance, rest_skipBlank]⟩

theorem nextName_eq_some {c c' : Cursor} {t : Token} (h : c.nextName = .ok (some (t, c'))) :
    Terminal.read? .name c.rest = some (⟨.name, t.kind, t.lexeme⟩, c'.rest) := by
  rw [nextName] at h
  split at h
  · rename_i l hname
    cases h
    rw [rest_skipBlank] at hname
    simp [Terminal.read?, scan?, hname, advance, rest_skipBlank]
  · rename_i hname
    have hnext := next_eq_some h
    rw [rest_skipBlank] at hname
    simpa [Terminal.read?, scan?, hname, rest_skipBlank,
      List.dropWhile_idempotent] using hnext

theorem nextName_of_read? {c : Cursor} {rest : List Char} {t : Terminal}
    (h : Terminal.read? .name c.rest = some (t, rest)) (hkind : t.kind = .methodName) :
    ∃ t' c', c.nextName = .ok (some (t', c')) ∧ t'.kind = .methodName ∧ t'.lexeme = t.lexeme ∧
      c'.rest = rest := by
  obtain ⟨⟨k, l⟩, hscan, heq⟩ := Option.map_eq_some_iff.mp h
  cases heq
  rw [← rest_skipBlank] at hscan
  obtain rfl : k = .methodName := hkind
  have hname := methodName?_of_scan? hscan
  exact ⟨_, _, by rw [nextName, hname], rfl, rfl, by simp [token, advance, rest_skipBlank]⟩

/-! ## Positions -/

theorem utf8Length_append (cs ds : List Char) :
    utf8Length (cs ++ ds) = utf8Length cs + utf8Length ds := by
  have hsum (ns : List Nat) : ns.foldl (· + ·) 0 = ns.sum := List.sum_eq_foldl.symm
  simp only [utf8Length, hsum, List.map_append, List.sum_append]

theorem offset_advance (c : Cursor) (n : Nat) :
    (c.advance n).offset + utf8Length (c.advance n).rest = c.offset + utf8Length c.rest := by
  have hsplit := utf8Length_append (c.rest.take n) (c.rest.drop n)
  rw [List.take_append_drop] at hsplit
  simp only [advance]
  omega

/-- The terminals lead from one position of a text to another. -/
structure Reaches (c : Cursor) (ts : List Terminal) (c' : Cursor) : Prop where
  tiles : Tiles c.rest ts c'.rest
  offset : c'.offset + utf8Length c'.rest = c.offset + utf8Length c.rest

theorem Reaches.nil (c : Cursor) : c.Reaches [] c := ⟨.nil _, rfl⟩

theorem Reaches.append {c c' c'' : Cursor} {ts us : List Terminal} (hts : c.Reaches ts c')
    (hus : c'.Reaches us c'') : c.Reaches (ts ++ us) c'' :=
  ⟨hts.tiles.append hus.tiles, hus.offset.trans hts.offset⟩

theorem not_isBlank_of_dropWhile {cs ds : List Char} {d : Char}
    (h : cs.dropWhile isBlank = d :: ds) : isBlank d = false := by
  have hhead := List.head?_dropWhile_not isBlank cs
  rw [h] at hhead
  simpa using hhead

theorem skipBlank_skipBlank (c : Cursor) : c.skipBlank.skipBlank = c.skipBlank := by
  have hblank : c.skipBlank.rest.takeWhile isBlank = [] := by
    rw [rest_skipBlank]
    cases h : c.rest.dropWhile isBlank with
    | nil => rfl
    | cons d ds => simp [not_isBlank_of_dropWhile h]
  rw [skipBlank.eq_def c.skipBlank, hblank]
  simp [advance, utf8Length]

/-- The next token begins behind the white space. -/
theorem reaches_of_next {c c' : Cursor} {t : Token} (h : c.next = .ok (some (t, c'))) :
    c.Reaches [⟨.token, t.kind, t.lexeme⟩] c' ∧ t.offset = c.skipBlank.offset := by
  have htiles : Tiles c.rest [⟨.token, t.kind, t.lexeme⟩] c'.rest :=
    Tiles.singleton_iff.mpr (next_eq_some h)
  have hmoved := offset_advance c (c.rest.takeWhile isBlank).length
  rw [next] at h
  split at h
  · cases h
  · split at h
    · cases h
      exact ⟨⟨htiles, (offset_advance _ _).trans hmoved⟩, rfl⟩
    · cases h

theorem reaches_of_nextName {c c' : Cursor} {t : Token} (h : c.nextName = .ok (some (t, c'))) :
    c.Reaches [⟨.name, t.kind, t.lexeme⟩] c' ∧ t.offset = c.skipBlank.offset := by
  have htiles : Tiles c.rest [⟨.name, t.kind, t.lexeme⟩] c'.rest :=
    Tiles.singleton_iff.mpr (nextName_eq_some h)
  have hmoved := offset_advance c (c.rest.takeWhile isBlank).length
  rw [nextName] at h
  split at h
  · cases h
    exact ⟨⟨htiles, (offset_advance _ _).trans hmoved⟩, rfl⟩
  · obtain ⟨hnext, hoffset⟩ := reaches_of_next h
    rw [skipBlank_skipBlank] at hoffset
    exact ⟨⟨htiles, hnext.offset.trans hmoved⟩, hoffset⟩

/-- Where no token begins, the first character behind the white space is reported. -/
theorem next_eq_error {c : Cursor} {e : StrayCharacter} (h : c.next = .error e) :
    ∃ tail, c.rest.dropWhile isBlank = e.character :: tail ∧ e.offset = c.skipBlank.offset := by
  rw [next] at h
  split at h
  · cases h
  · rename_i d ds hrest
    split at h
    · cases h
    · cases h
      exact ⟨ds, by rw [← rest_skipBlank, hrest], rfl⟩

theorem nextName_eq_error {c : Cursor} {e : StrayCharacter} (h : c.nextName = .error e) :
    ∃ tail, c.rest.dropWhile isBlank = e.character :: tail ∧ e.offset = c.skipBlank.offset := by
  rw [nextName] at h
  split at h
  · cases h
  · obtain ⟨tail, hrest, hoffset⟩ := next_eq_error h
    rw [rest_skipBlank, List.dropWhile_idempotent] at hrest
    rw [skipBlank_skipBlank] at hoffset
    exact ⟨tail, hrest, hoffset⟩

theorem nextName_eq_none {c : Cursor} (h : c.nextName = .ok none) :
    ∀ a ∈ c.rest, isBlank a = true := by
  rw [nextName] at h
  split at h
  · cases h
  · rw [next_eq_none_iff, rest_skipBlank, ← List.dropWhile_eq_nil_iff,
      List.dropWhile_idempotent] at h
    exact List.dropWhile_eq_nil_iff.mp h

end Cursor

end TreePattern
