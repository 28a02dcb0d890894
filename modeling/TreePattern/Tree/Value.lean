import TreePattern.Tree.Node

/-! Values of a tree: scalars, arrays and nodes. -/

namespace TreePattern

/-- A value without parts. A symbol is a name, which is not the same as a string. -/
inductive Scalar where
  | nil
  | bool (b : Bool)
  | integer (n : Int64)
  | string (s : String)
  | symbol (name : String)
  deriving DecidableEq, Repr

inductive Value where
  | scalar (s : Scalar)
  | array (items : List Value)
  | node (n : Node Value)

/-- A tree is given by its root. -/
abbrev Tree := Node Value

namespace Value

mutual

/-- Values are equal if they have equal parts in the same order. -/
def decEq : (v w : Value) → Decidable (v = w)
  | scalar s, scalar t =>
    if h : s = t then isTrue (by rw [h]) else isFalse fun e => h (Value.scalar.inj e)
  | array vs, array ws =>
    match decEqItems vs ws with
    | isTrue h => isTrue (by rw [h])
    | isFalse h => isFalse fun e => h (Value.array.inj e)
  | node m, node n =>
    match decEqNode m n with
    | isTrue h => isTrue (by rw [h])
    | isFalse h => isFalse fun e => h (Value.node.inj e)
  | scalar _, array _ | scalar _, node _ | array _, scalar _ | array _, node _ | node _, scalar _
  | node _, array _ => isFalse nofun
termination_by structural v => v

def decEqNode : (m n : Node Value) → Decidable (m = n)
  | ⟨c, as⟩, ⟨d, bs⟩ =>
    if hc : c = d then
      match decEqAttributes as bs with
      | isTrue h => isTrue (by rw [hc, h])
      | isFalse h => isFalse fun e => h (Node.mk.inj e).2
    else isFalse fun e => hc (Node.mk.inj e).1
termination_by structural m => m

def decEqItems : (vs ws : List Value) → Decidable (vs = ws)
  | [], [] => isTrue rfl
  | v :: vs, w :: ws =>
    match decEq v w, decEqItems vs ws with
    | isTrue h, isTrue hs => isTrue (by rw [h, hs])
    | isFalse h, _ => isFalse fun e => h (List.cons.inj e).1
    | _, isFalse hs => isFalse fun e => hs (List.cons.inj e).2
  | [], _ :: _ | _ :: _, [] => isFalse nofun
termination_by structural vs => vs

def decEqAttributes : (as bs : List (String × Value)) → Decidable (as = bs)
  | [], [] => isTrue rfl
  | (a, v) :: as, (b, w) :: bs =>
    if ha : a = b then
      match decEq v w, decEqAttributes as bs with
      | isTrue h, isTrue hs => isTrue (by rw [ha, h, hs])
      | isFalse h, _ => isFalse fun e => h (Prod.mk.inj (List.cons.inj e).1).2
      | _, isFalse hs => isFalse fun e => hs (List.cons.inj e).2
    else isFalse fun e => ha (Prod.mk.inj (List.cons.inj e).1).1
  | [], _ :: _ | _ :: _, [] => isFalse nofun
termination_by structural as => as

end

instance : DecidableEq Value := decEq

instance : DecidableEq (Node Value) := decEqNode

end Value

end TreePattern
