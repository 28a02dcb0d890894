import TreePattern.Json.Basic
import TreePattern.Pattern.Options

/-! Options as JSON objects. A missing field has its default value, and other fields do not count.
-/

namespace TreePattern.Options

/-- The numbers that a field can hold are those of 64 bits. -/
def fieldValue? : Json → Option Nat
  | .number (some n) => if n < UInt64.size then some n else none
  | _ => none

/-- The value of a field, which must not occur twice. -/
def field? (name : String) (default : Nat) (fields : List (List Char × Json)) : Option Nat :=
  match fields.filter (·.1 == name.toList) with
  | [] => some default
  | [(_, v)] => fieldValue? v
  | _ => none

def ofJson? (text : String) : Option Options :=
  match Json.read? text with
  | some (.object fields) => do
    let fields ← fields.mapM fun f => f.1.map (·, f.2)
    let defaults : Options := {}
    return {
      maxDepth := ← field? "max_depth" defaults.maxDepth fields
      regexSizeLimit := ← field? "regex_size_limit" defaults.regexSizeLimit fields }
  | _ => none

def toJson (o : Options) : String :=
  "\x7b\"max_depth\":" ++ .ofList (Nat.toDigits 10 o.maxDepth) ++ ",\"regex_size_limit\":" ++
    .ofList (Nat.toDigits 10 o.regexSizeLimit) ++ "\x7d"

end TreePattern.Options
