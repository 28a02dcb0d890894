import TreePattern.Tree.ClassName
import TreePattern.Tree.Value

/-! Building nodes of known kinds by their builder names. -/

namespace TreePattern

inductive BuilderError where
  | unknownNode (name : String)
  | duplicateName (builderName first second : String)
  deriving DecidableEq, Repr

def BuilderError.message : BuilderError → String
  | unknownNode name => "unknown node kind '" ++ name ++ "'"
  | duplicateName builderName first second =>
    "node kinds '" ++ first ++ "' and '" ++ second ++ "' share the builder name '" ++ builderName ++
      "'"

/-- Class names by builder name. -/
structure Builder where
  kinds : List (String × String) := []
  deriving Repr

namespace Builder

def className? (b : Builder) (name : String) : Option String := b.kinds.lookup name

def size (b : Builder) : Nat := b.kinds.length

def isEmpty (b : Builder) : Bool := b.kinds.isEmpty

/-- Adds a kind, unless another one has its builder name. -/
def register (b : Builder) (className : String) : Except BuilderError Builder :=
  let name := ClassName.builderName className
  match b.className? name with
  | none => .ok ⟨b.kinds ++ [(name, className)]⟩
  | some first =>
    if first = className then .ok b else .error (.duplicateName name first className)

def ofClassNames (classNames : List String) : Except BuilderError Builder :=
  classNames.foldlM register {}

/-- A node of a kind with attributes set in turn. -/
def node (b : Builder) (name : String) (attributes : List (String × Value)) :
    Except BuilderError Tree :=
  match b.className? name with
  | some className => .ok (.ofAttributes className attributes)
  | none => .error (.unknownNode name)

/-- A node without attributes. -/
def leaf (b : Builder) (name : String) : Except BuilderError Tree := b.node name []

end Builder

end TreePattern
