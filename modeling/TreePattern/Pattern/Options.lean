import TreePattern.Pattern.Regexp

/-! Options for reading patterns. -/

namespace TreePattern

structure Options where
  /-- How many expressions may stand inside each other. -/
  maxDepth : Nat := 128
  /-- The size, in bytes, up to which regular expressions are accepted. -/
  regexSizeLimit : Nat := Regexp.defaultSizeLimit
  deriving DecidableEq, Repr

inductive OptionsError where
  | maxDepthTooSmall (given : Nat)
  | regexSizeLimitTooSmall (given : Nat)
  deriving DecidableEq, Repr

def minRegexSizeLimit : Nat := 1024

def OptionsError.message : OptionsError → String
  | maxDepthTooSmall given =>
    "max_depth must be at least 1 (got " ++ .ofList (Nat.toDigits 10 given) ++ ")"
  | regexSizeLimitTooSmall given =>
    "regex_size_limit must be at least " ++ .ofList (Nat.toDigits 10 minRegexSizeLimit) ++
      " bytes (got " ++ .ofList (Nat.toDigits 10 given) ++ ")"

namespace Options

/-- The options, if both limits are large enough. The depth is looked at first. -/
def check (o : Options) : Except OptionsError Options :=
  if o.maxDepth = 0 then .error (.maxDepthTooSmall o.maxDepth)
  else if o.regexSizeLimit < minRegexSizeLimit then
    .error (.regexSizeLimitTooSmall o.regexSizeLimit)
  else .ok o

end Options

end TreePattern
