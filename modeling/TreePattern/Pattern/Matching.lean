import TreePattern.Pattern.Basic

/-! Which values a pattern accepts. -/

namespace TreePattern

/-- The text of a symbol or a string, where the kind asks for it. -/
def TextKind.text? : TextKind → Value → Option String
  | symbol, .scalar (.symbol s) | either, .scalar (.symbol s) => some s
  | string, .scalar (.string s) | either, .scalar (.string s) => some s
  | _, _ => none

/-- Whether some beginning of an array has an allowed length, accepted elements, and an accepted
rest. The elements and the suffixes of the array are given by whether each is accepted. -/
def Quantifier.splits (q : Quantifier) (elements suffixes : List Bool) : Bool :=
  (suffixes.take ((elements.takeWhile id).length + 1)).zipIdx.any fun s => s.1 && q.allows s.2

/-- `splits` for each suffix of an array, from the whole array to the empty one. -/
def Quantifier.splitsEach (q : Quantifier) : List Bool → List Bool → List Bool
  | [], suffixes => [q.splits [] suffixes]
  | b :: elements, suffixes =>
    q.splits (b :: elements) suffixes :: q.splitsEach elements suffixes.tail

namespace Pattern

mutual

def accepts : Pattern → Value → Bool
  | any, _ => true
  | scalar s, v =>
    match v with
    | .scalar t => s == t
    | _ => false
  | regexp kind r, v => (kind.text? v).any r.isMatch
  | node n, v =>
    match v with
    | .node m => nodeAccepts n m
    | _ => false
  | choice p ps, v => p.accepts v || anyAccepts ps v
  | array items, v =>
    match v with
    | .array vs => (itemsAccept items vs).headD false
    | _ => false

/-- A node has to have the class and the listed attributes, and may have others. -/
def nodeAccepts : Node Pattern → Tree → Bool
  | ⟨className, attributes⟩, m => className == m.className && attributesAccept attributes m

def attributesAccept : List (String × Pattern) → Tree → Bool
  | [], _ => true
  | (name, p) :: rest, m =>
    (match m.get? name with
      | some v => p.accepts v
      | none => false) && attributesAccept rest m

def anyAccepts : List Pattern → Value → Bool
  | [], _ => false
  | p :: ps, v => p.accepts v || anyAccepts ps v

/-- For each suffix of an array, from the whole array to the empty one, whether it can be cut into
one segment for each item. -/
def itemsAccept : List (Item Pattern) → List Value → List Bool
  | [], vs => vs.map (fun _ => false) ++ [true]
  | x :: xs, vs => itemAccepts x (itemsAccept xs vs) vs

/-- The same with one item more, in front of the items that accept the given suffixes. -/
def itemAccepts : Item Pattern → List Bool → List Value → List Bool
  | .one p, suffixes, vs => (vs.map p.accepts).zipWith (· && ·) suffixes.tail ++ [false]
  | .many q p, suffixes, vs => q.splitsEach (vs.map p.accepts) suffixes

end

/-- Whether a pattern accepts the root of a tree. -/
def acceptsTree (p : Pattern) (t : Tree) : Bool := p.accepts (.node t)

end Pattern

end TreePattern
