import TreePattern.Pattern.Basic

/-! Equality of patterns. The order in which the attributes of a node are listed does not count. -/

namespace TreePattern.Pattern

mutual

def equal : Pattern → Pattern → Bool
  | any, any => true
  | scalar s, scalar t => s == t
  | regexp j r, regexp k s => j == k && r == s
  | node m, node n => equalNode m n
  | choice p ps, choice q qs => p.equal q && equalAll ps qs
  | array xs, array ys => equalItems xs ys
  | _, _ => false

def equalNode : Node Pattern → Node Pattern → Bool
  | ⟨className, attributes⟩, n =>
    className == n.className && attributes.length == n.size && equalAttributes attributes n

/-- Whether a node has all the given attributes with equal patterns. -/
def equalAttributes : List (String × Pattern) → Node Pattern → Bool
  | [], _ => true
  | (name, p) :: rest, n =>
    (match n.get? name with
      | some q => p.equal q
      | none => false) && equalAttributes rest n

def equalAll : List Pattern → List Pattern → Bool
  | [], [] => true
  | p :: ps, q :: qs => p.equal q && equalAll ps qs
  | _, _ => false

def equalItems : List (Item Pattern) → List (Item Pattern) → Bool
  | [], [] => true
  | x :: xs, y :: ys => equalItem x y && equalItems xs ys
  | _, _ => false

def equalItem : Item Pattern → Item Pattern → Bool
  | .one p, .one q => p.equal q
  | .many j p, .many k q => j == k && p.equal q
  | _, _ => false

end

instance : BEq Pattern := ⟨equal⟩

end TreePattern.Pattern
