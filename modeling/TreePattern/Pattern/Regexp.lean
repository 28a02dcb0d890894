import TreePattern.Regex.Matching
import TreePattern.Regex.Needle
import TreePattern.Regex.Quote
import TreePattern.Regex.Reader

/-! Regular expressions of patterns: a source with flags, and the expression that they denote. -/

namespace TreePattern

namespace Regexp

structure Flags where
  ignoreCase : Bool := false
  /-- A dot also stands for a line feed. -/
  dotAll : Bool := false
  /-- White space and comments in the source do not count. -/
  extended : Bool := false
  deriving DecidableEq, Repr

namespace Flags

def ofChar? : Char → Option Flags
  | 'i' => some { ignoreCase := true }
  | 'm' => some { dotAll := true }
  | 'x' => some { extended := true }
  | _ => none

def union (f g : Flags) : Flags :=
  ⟨f.ignoreCase || g.ignoreCase, f.dotAll || g.dotAll, f.extended || g.extended⟩

instance : Union Flags := ⟨union⟩

/-- The flags among the given characters. -/
def ofChars (cs : List Char) : Flags :=
  cs.foldl (fun flags c => flags ∪ (ofChar? c).getD {}) {}

/-- The flags as they are written behind a regular expression. -/
def suffix (f : Flags) : List Char :=
  (if f.dotAll then ['m'] else []) ++ (if f.ignoreCase then ['i'] else []) ++
    (if f.extended then ['x'] else [])

/-- The flags as a number with one bit for each. -/
def bits (f : Flags) : Nat := f.ignoreCase.toNat + 2 * f.dotAll.toNat + 4 * f.extended.toNat

/-- Carets and dollar signs stand for the ends of lines in every case. -/
def modes (f : Flags) : Regex.Modes :=
  { ignoreCase := f.ignoreCase, multiLine := true, dotAll := f.dotAll, extended := f.extended }

end Flags

/-- The size, in bytes, up to which expressions are accepted if nothing else is said. -/
def defaultSizeLimit : Nat := 1024 * 1024

end Regexp

/-- A source and flags that denote an expression. -/
structure Regexp where
  source : String
  flags : Regexp.Flags
  program : Regex
  denotes : Regex.read? flags.modes source.toList = some program

namespace Regexp

/-- Source and flags determine the expression. -/
theorem ext {r s : Regexp} (hs : r.source = s.source) (hf : r.flags = s.flags) : r = s := by
  obtain ⟨source, flags, p, hp⟩ := r
  obtain ⟨_, _, q, hq⟩ := s
  obtain rfl : source = _ := hs
  obtain rfl : flags = _ := hf
  obtain rfl : p = q := Option.some.inj (hp.symm.trans hq)
  rfl

instance : DecidableEq Regexp := fun r s =>
  if h : r.source = s.source ∧ r.flags = s.flags then isTrue (ext h.1 h.2)
  else isFalse fun e => h (by simp [e])

/-- The regular expression with a source and flags, unless it is malformed or too large. -/
def compile? (source : String) (flags : Flags) (sizeLimit : Nat) : Option Regexp :=
  match h : Regex.read? flags.modes source.toList with
  | some e => if e.normalForm.fits sizeLimit then some ⟨source, flags, e, h⟩ else none
  | none => none

def isMatch (r : Regexp) (text : String) : Bool := r.program.isMatch text.toList

/-- A source between slashes, as it is written in a pattern: a slash without a backslash gets one.
-/
def escapeSlashes (escaped : Bool) : List Char → List Char
  | [] => []
  | c :: cs =>
    (if c = '/' ∧ escaped = false then ['\\', '/'] else [c]) ++
      escapeSlashes (c == '\\' && !escaped) cs

def chars (r : Regexp) : List Char :=
  ['/'] ++ escapeSlashes false r.source.toList ++ ['/'] ++ r.flags.suffix

/-- Removes the backslashes before slashes. -/
def unescapeSlashes : List Char → List Char
  | '\\' :: '/' :: cs => '/' :: unescapeSlashes cs
  | c :: cs => c :: unescapeSlashes cs
  | [] => []

/-- The source and the flags of a regular expression between slashes. The last slash closes it. -/
def split (lexeme : List Char) : List Char × Flags :=
  let flags := (lexeme.reverse.takeWhile (· != '/')).reverse
  (unescapeSlashes ((lexeme.take (lexeme.length - flags.length - 1)).drop 1), .ofChars flags)

end Regexp

/-- Where a given text has to occur in another one. -/
inductive Anchor where
  | start
  | stop
  | anywhere
  deriving DecidableEq, Repr

/-- The source of an expression that matches where `text` occurs. -/
def Anchor.source (a : Anchor) (text : List Char) : List Char :=
  match a with
  | start => ['\\', 'A'] ++ Regex.quote text
  | stop => Regex.quote text ++ ['\\', 'z']
  | anywhere => Regex.quote text

end TreePattern
