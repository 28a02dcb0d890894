import Mathlib.Data.List.TakeWhile
import TreePattern.Pattern.Regexp
import TreePattern.Proofs.Token.Lexeme

/-! Sources of regular expressions between slashes. What stands between the slashes of a pattern is
read as a source in which no slash has a backslash of its own, and such a source is written so that
it is read as itself. -/

namespace TreePattern.Regexp

open Token (IsBody isFlag quoted?_eq_some_iff)

/-- A source that can be written between slashes: no slash has a backslash of its own. -/
inductive IsWritable : List Char → Prop where
  | nil : IsWritable []
  | pair {c cs} (hslash : c ≠ '/') (h : IsWritable cs) : IsWritable ('\\' :: c :: cs)
  | cons {c cs} (hc : c ≠ '\\') (h : IsWritable cs) : IsWritable (c :: cs)

theorem IsWritable.append {cs ds : List Char} (hcs : IsWritable cs) (hds : IsWritable ds) :
    IsWritable (cs ++ ds) := by
  induction hcs with
  | nil => exact hds
  | pair hslash _ ih => exact .pair hslash ih
  | cons hc _ ih => exact .cons hc ih

/-! ## Removing the backslashes -/

theorem unescapeSlashes_slash (cs : List Char) :
    unescapeSlashes ('\\' :: '/' :: cs) = '/' :: unescapeSlashes cs := rfl

theorem unescapeSlashes_cons {c : Char} (cs : List Char) (hc : c ≠ '\\') :
    unescapeSlashes (c :: cs) = c :: unescapeSlashes cs := by
  rw [unescapeSlashes]
  rintro _ rfl
  exact absurd rfl hc

theorem unescapeSlashes_backslash {cs : List Char} (h : ∀ ds, cs ≠ '/' :: ds) :
    unescapeSlashes ('\\' :: cs) = '\\' :: unescapeSlashes cs := by
  rw [unescapeSlashes]
  intro ds _ heq
  exact h ds heq

theorem ne_slash_of_isBody {cs : List Char} (h : IsBody '/' cs) (ds : List Char) :
    cs ≠ '/' :: ds := by
  rintro rfl
  cases h with
  | cons _ hslash _ => exact hslash rfl

/-- A backslash before another character than a slash keeps that character behind it. -/
theorem unescapeSlashes_pair {c : Char} {cs : List Char} (hc : c ≠ '/') (h : IsBody '/' cs) :
    unescapeSlashes ('\\' :: c :: cs) = '\\' :: c :: unescapeSlashes cs := by
  rw [unescapeSlashes_backslash fun ds heq => hc (List.cons.inj heq).1]
  by_cases hslash : c = '\\'
  · rw [hslash, unescapeSlashes_backslash (ne_slash_of_isBody h)]
  · rw [unescapeSlashes_cons _ hslash]

theorem isWritable_unescapeSlashes {body : List Char} (h : IsBody '/' body) :
    IsWritable (unescapeSlashes body) := by
  induction h with
  | nil => exact .nil
  | pair c hcs ih =>
      by_cases hc : c = '/'
      · rw [hc, unescapeSlashes_slash]
        exact .cons (by decide) ih
      · rw [unescapeSlashes_pair hc hcs]
        exact .pair hc ih
  | cons hc _ _ ih =>
      rw [unescapeSlashes_cons _ hc]
      exact .cons hc ih

/-! ## Adding backslashes -/

theorem escapeSlashes_pair (c : Char) (cs : List Char) :
    escapeSlashes false ('\\' :: c :: cs) = '\\' :: c :: escapeSlashes false cs := by
  simp [escapeSlashes]

theorem escapeSlashes_cons {c : Char} (hc : c ≠ '\\') (cs : List Char) :
    escapeSlashes false (c :: cs) =
      (if c = '/' then ['\\', '/'] else [c]) ++ escapeSlashes false cs := by
  simp [escapeSlashes, beq_false_of_ne hc]

theorem isBody_escapeSlashes {cs : List Char} (h : IsWritable cs) :
    IsBody '/' (escapeSlashes false cs) := by
  induction h with
  | nil => exact .nil
  | @pair c cs _ _ ih =>
      rw [escapeSlashes_pair]
      exact .pair c ih
  | cons hc _ ih =>
      rw [escapeSlashes_cons hc]
      split
      · exact .pair '/' ih
      · rename_i hslash
        exact .cons hc hslash ih

/-- Adding backslashes before slashes and removing them again changes nothing. -/
theorem unescapeSlashes_escapeSlashes {cs : List Char} (h : IsWritable cs) :
    unescapeSlashes (escapeSlashes false cs) = cs := by
  induction h with
  | nil => rfl
  | pair hc hcs ih =>
      rw [escapeSlashes_pair, unescapeSlashes_pair hc (isBody_escapeSlashes hcs), ih]
  | cons hc _ ih =>
      rw [escapeSlashes_cons hc]
      split
      · rename_i hslash
        rw [hslash, List.cons_append, List.singleton_append, unescapeSlashes_slash, ih]
      · rw [List.singleton_append, unescapeSlashes_cons _ hc, ih]

/-- Removing the backslashes before slashes and adding them again changes nothing. -/
theorem escapeSlashes_unescapeSlashes {body : List Char} (h : IsBody '/' body) :
    escapeSlashes false (unescapeSlashes body) = body := by
  induction h with
  | nil => rfl
  | @pair body c hbody ih =>
      by_cases hc : c = '/'
      · rw [hc, unescapeSlashes_slash, escapeSlashes_cons (by decide), if_pos rfl, ih]
        rfl
      · rw [unescapeSlashes_pair hc hbody, escapeSlashes_pair, ih]
  | cons hc hslash _ ih =>
      rw [unescapeSlashes_cons _ hc, escapeSlashes_cons hc, if_neg hslash, ih]
      rfl

/-! ## Between slashes -/

theorem isWritable_quote (text : List Char) : IsWritable (Regex.quote text) := by
  induction text with
  | nil => exact .nil
  | cons c text ih =>
      rw [Regex.quote, List.flatMap_cons, ← Regex.quote]
      split
      · rename_i hmeta
        have hslash : c ≠ '/' := by
          rintro rfl
          exact absurd hmeta (by decide)
        exact .pair hslash ih
      · rename_i hmeta
        have hbackslash : c ≠ '\\' := by
          rintro rfl
          exact absurd (by decide) hmeta
        exact .cons hbackslash ih

theorem isWritable_source (anchor : Anchor) (text : List Char) :
    IsWritable (anchor.source text) := by
  cases anchor with
  | start => exact .pair (by decide) (isWritable_quote text)
  | stop => exact (isWritable_quote text).append (.pair (by decide) .nil)
  | anywhere => exact isWritable_quote text

theorem split_eq (body : List Char) {flags : List Char} (hflags : '/' ∉ flags) :
    split ('/' :: (body ++ '/' :: flags)) = (unescapeSlashes body, .ofChars flags) := by
  have hends : ('/' :: (body ++ '/' :: flags)).reverse.takeWhile (· != '/') = flags.reverse := by
    rw [List.reverse_cons, List.reverse_append, List.reverse_cons, List.append_assoc,
      List.append_assoc, List.takeWhile_append_of_pos]
    · simp
    · intro c hc
      rw [bne_iff_ne]
      rintro rfl
      exact hflags (List.mem_reverse.mp hc)
  have htake : ('/' :: (body ++ '/' :: flags)).take
      (('/' :: (body ++ '/' :: flags)).length - flags.length - 1) = '/' :: body := by
    have hlength : ('/' :: (body ++ '/' :: flags)).length - flags.length - 1 = body.length + 1 := by
      simp only [List.length_cons, List.length_append]
      omega
    rw [hlength, List.take_succ_cons, List.take_left]
  rw [split, hends, List.reverse_reverse, htake]
  rfl

theorem slash_not_mem_suffix (flags : Flags) : '/' ∉ flags.suffix := by
  obtain ⟨_ | _, _ | _, _ | _⟩ := flags <;> decide

theorem ofChars_suffix (flags : Flags) : Flags.ofChars flags.suffix = flags := by
  obtain ⟨_ | _, _ | _, _ | _⟩ := flags <;> rfl

/-- A source and flags as they are written in a pattern. -/
def literal (source : List Char) (flags : Flags) : List Char :=
  ['/'] ++ escapeSlashes false source ++ ['/'] ++ flags.suffix

theorem literal_eq (source : List Char) (flags : Flags) :
    literal source flags = '/' :: (escapeSlashes false source ++ '/' :: flags.suffix) := by
  simp [literal]

theorem chars_eq (r : Regexp) : r.chars = literal r.source.toList r.flags := rfl

/-- A source and flags are read between slashes as they were written. -/
theorem split_literal {source : List Char} (h : IsWritable source) (flags : Flags) :
    split (literal source flags) = (source, flags) := by
  rw [literal_eq, split_eq _ (slash_not_mem_suffix _), unescapeSlashes_escapeSlashes h,
    ofChars_suffix]

theorem split_chars {r : Regexp} (h : IsWritable r.source.toList) :
    split r.chars = (r.source.toList, r.flags) :=
  split_literal h r.flags

/-- What is read between slashes can be written between slashes. -/
theorem isWritable_split {cs l : List Char} (h : Token.regexp? cs = some l) :
    IsWritable (split l).1 := by
  unfold Token.regexp? at h
  split at h
  · rename_i cs
    obtain ⟨quoted, hquoted, rfl⟩ := Option.map_eq_some_iff.mp h
    obtain ⟨body, rest, hbody, rfl, rfl⟩ := (quoted?_eq_some_iff (by decide)).mp hquoted
    have hflags (cs : List Char) : '/' ∉ cs.takeWhile isFlag := fun hmem => by
      have := List.mem_takeWhile_imp hmem
      cases this
    rw [List.append_assoc, List.singleton_append, split_eq body (hflags _)]
    exact isWritable_unescapeSlashes hbody
  · cases h

end TreePattern.Regexp
