import TreePattern.Proofs.Matching.Meaning

/-! The search from left to right: a quantified item first takes as few elements as it may, and
takes one step more whenever the rest of the array does not fit the items behind it. Sizes are
numbers of 64 bits; a slice that an array does not have, and nothing else, makes the search break
down. Main statement: it never does, and finds a cut whenever there is one. -/

namespace TreePattern

/-- The elements from `first` up to `last`, if an array has that slice. -/
def slice? {α : Type} (vs : List α) (first last : Nat) : Option (List α) :=
  if first ≤ last ∧ last ≤ vs.length then some ((vs.drop first).take (last - first)) else none

/-- A sum of two sizes, unless it needs more than 64 bits. -/
def checkedAdd (m n : Nat) : Option Nat := if m + n < 2 ^ 64 then some (m + n) else none

theorem lt_of_checkedAdd {m n k : Nat} (h : checkedAdd m n = some k) (hn : 0 < n) : m < k := by
  unfold checkedAdd at h
  split at h
  · cases h
    omega
  · cases h

namespace Quantifier

/-- Tries the rest of an array behind its first `taken` elements, then behind ever more of them. -/
def searchFrom (q : Quantifier) (accepts rest : List Value → Option Bool) (vs : List Value)
    (taken : Nat) : Option Bool := do
  if ← rest (← slice? vs taken vs.length) then return true
  else
    match _hnext : checkedAdd taken q.step with
    | none => return false
    | some next =>
      if q.max.all (next ≤ ·) = true ∧ next ≤ vs.length then
        if ← accepts (← slice? vs taken next) then q.searchFrom accepts rest vs next
        else return false
      else return false
termination_by vs.length - taken
decreasing_by
  have := lt_of_checkedAdd _hnext q.step_pos
  omega

end Quantifier

namespace Pattern

mutual

def search : Pattern → Value → Option Bool
  | any, _ => some true
  | scalar s, v =>
    match v with
    | .scalar t => some (s == t)
    | _ => some false
  | regexp kind r, v => some ((kind.text? v).any r.isMatch)
  | node n, v =>
    match v with
    | .node m => searchNode n m
    | _ => some false
  | choice p ps, v => do
    if ← p.search v then return true
    else searchAny ps v
  | array items, v =>
    match v with
    | .array vs => searchItems items vs
    | _ => some false

def searchNode : Node Pattern → Tree → Option Bool
  | ⟨className, attributes⟩, m =>
    if m.className = className then searchAttributes attributes m else some false

def searchAttributes : List (String × Pattern) → Tree → Option Bool
  | [], _ => some true
  | (name, p) :: rest, m =>
    match m.get? name with
    | none => some false
    | some v => do
      if ← p.search v then searchAttributes rest m
      else return false

def searchAny : List Pattern → Value → Option Bool
  | [], _ => some false
  | p :: ps, v => do
    if ← p.search v then return true
    else searchAny ps v

def searchItems : List (Item Pattern) → List Value → Option Bool
  | [], vs => some vs.isEmpty
  | x :: xs, vs => searchItem x (searchItems xs) vs

/-- One item, in front of items that are searched for by `rest`. -/
def searchItem : Item Pattern → (List Value → Option Bool) → List Value → Option Bool
  | .one p, rest, vs =>
    match vs with
    | [] => some false
    | v :: vs => do
      if ← p.search v then rest vs
      else return false
  | .many q p, rest, vs => do
    if vs.length < q.min then return false
    else if ← (← slice? vs 0 q.min).allM p.search then
      q.searchFrom (·.allM p.search) rest vs q.min
    else return false

end

end Pattern

/-! ## Answers of a search -/

/-- A search has not broken down, and its answer says whether something holds. -/
def Decides (answer : Option Bool) (P : Prop) : Prop := ∃ b, answer = some b ∧ (b = true ↔ P)

namespace Decides

variable {P Q : Prop} {answer : Option Bool}

theorem of_true (h : P) : Decides (some true) P := ⟨true, rfl, by simp [h]⟩

theorem of_false (h : ¬ P) : Decides (some false) P := ⟨false, rfl, by simp [h]⟩

theorem congr (h : Decides answer P) (hiff : P ↔ Q) : Decides answer Q := by
  obtain ⟨b, hb, hP⟩ := h
  exact ⟨b, hb, hP.trans hiff⟩

/-- Going on in one of two ways, after an answer that says which. -/
theorem ite {yes no : Option Bool} (h : Decides answer P) (hyes : P → Decides yes Q)
    (hno : ¬ P → Decides no Q) : Decides (answer >>= fun b => if b = true then yes else no) Q := by
  obtain ⟨b, rfl, hP⟩ := h
  cases b with
  | true => exact hyes (hP.mp rfl)
  | false => exact hno fun hp => by simpa using hP.mpr hp

theorem allM {accepts : Value → Option Bool} {A : Value → Prop} {vs : List Value}
    (h : ∀ v ∈ vs, Decides (accepts v) (A v)) : Decides (vs.allM accepts) (∀ v ∈ vs, A v) := by
  induction vs with
  | nil => exact of_true (by simp)
  | cons v vs ih =>
      obtain ⟨b, hb, hA⟩ := h v (by simp)
      cases b with
      | true =>
          rw [List.allM, hb]
          exact (ih fun w hw => h w (by simp [hw])).congr (by simp [hA.mp rfl])
      | false =>
          rw [List.allM, hb]
          exact of_false fun hall => by simpa using hA.mpr (hall v (by simp))

end Decides

/-! ## The loop of a quantifier -/

theorem slice?_eq {α : Type} {vs : List α} {first last : Nat} (h : first ≤ last)
    (hlast : last ≤ vs.length) :
    slice? vs first last = some ((vs.drop first).take (last - first)) :=
  if_pos ⟨h, hlast⟩

/-- The elements that are not yet taken can be cut into a number of steps and an accepted rest. -/
def Quantifier.Extends (q : Quantifier) (A : Value → Prop) (P : List Value → Prop)
    (vs : List Value) (taken : Nat) : Prop :=
  ∃ j, taken + j * q.step ≤ vs.length ∧ (j ≠ 0 → ∀ m ∈ q.max, taken + j * q.step ≤ m) ∧
    (∀ v ∈ (vs.drop taken).take (j * q.step), A v) ∧ P (vs.drop (taken + j * q.step))

namespace Quantifier

variable {q : Quantifier} {A : Value → Prop} {P : List Value → Prop} {vs : List Value} {taken : Nat}

theorem extends_of_rest (htaken : taken ≤ vs.length) (h : P (vs.drop taken)) :
    q.Extends A P vs taken :=
  ⟨0, by simpa using htaken, by simp, by simp, by simpa using h⟩

/-- If the rest is not accepted at once, there has to be one step more. -/
theorem extends_step (h : ¬ P (vs.drop taken)) : q.Extends A P vs taken ↔
    taken + q.step ≤ vs.length ∧ (∀ m ∈ q.max, taken + q.step ≤ m) ∧
      (∀ v ∈ (vs.drop taken).take q.step, A v) ∧ q.Extends A P vs (taken + q.step) := by
  constructor
  · rintro ⟨j, hlength, hm, hA, hP⟩
    cases j with
    | zero => exact absurd (by simpa using hP) h
    | succ j =>
        have hsum : taken + (j + 1) * q.step = taken + q.step + j * q.step := by
          rw [Nat.succ_mul]
          omega
        rw [hsum] at hlength hm hP
        rw [Nat.succ_mul, Nat.add_comm, List.take_add, List.drop_drop] at hA
        refine ⟨by omega, fun m hmem => ?_, fun v hv => hA v (by simp [hv]), j, hlength,
          fun _ => hm (by simp), fun v hv => hA v (by simp [hv]), hP⟩
        have := hm (by simp) m hmem
        omega
  · rintro ⟨hlength, hm, hA, j, hlength', hm', hA', hP⟩
    have hsum : taken + (j + 1) * q.step = taken + q.step + j * q.step := by
      rw [Nat.succ_mul]
      omega
    refine ⟨j + 1, by omega, fun _ => ?_, ?_, by rwa [hsum]⟩
    · rw [hsum]
      cases j with
      | zero => simpa using hm
      | succ j => exact hm' (by simp)
    · rw [Nat.succ_mul, Nat.add_comm, List.take_add, List.drop_drop]
      intro v hv
      rcases List.mem_append.mp hv with hv | hv
      · exact hA v hv
      · exact hA' v hv

theorem decides_searchFrom {accepts rest : List Value → Option Bool} (hsize : vs.length < 2 ^ 64)
    (haccepts : ∀ s, (∀ v ∈ s, v ∈ vs) → Decides (accepts s) (∀ v ∈ s, A v))
    (hrest : ∀ s, s <:+ vs → Decides (rest s) (P s)) (htaken : taken ≤ vs.length) :
    Decides (q.searchFrom accepts rest vs taken) (q.Extends A P vs taken) := by
  induction taken using searchFrom.induct q vs with
  | case1 taken ih =>
      have hslice : slice? vs taken vs.length = some (vs.drop taken) := by
        rw [slice?_eq htaken (Nat.le_refl _), List.take_of_length_le (by simp)]
      rw [searchFrom, hslice]
      refine (hrest _ (List.drop_suffix taken vs)).ite ?_ ?_
      · intro h
        exact .of_true (extends_of_rest htaken h)
      · intro h
        refine Decides.congr ?_ (extends_step h).symm
        split
        · rename_i hnone
          refine .of_false fun hstep => ?_
          unfold checkedAdd at hnone
          split at hnone
          · cases hnone
          · omega
        · rename_i next hsome
          have hnext : next = taken + q.step := by
            unfold checkedAdd at hsome
            split at hsome
            · exact (Option.some.inj hsome).symm
            · cases hsome
          subst hnext
          split
          · rename_i hbound
            have hmax : ∀ m ∈ q.max, taken + q.step ≤ m := by
              intro m hm
              simpa [Option.mem_def.mp hm] using hbound.1
            rw [slice?_eq (by omega) hbound.2, Nat.add_sub_cancel_left]
            refine (haccepts _ fun v hv => List.mem_of_mem_drop (List.mem_of_mem_take hv)).ite
              (fun hall => ?_) (fun hall => .of_false fun hstep => hall hstep.2.2.1)
            exact (ih _ hsome hbound hbound.2).congr (by tauto)
          · rename_i hbound
            refine .of_false fun hstep => hbound ⟨?_, hstep.1⟩
            cases hm : q.max with
            | none => rfl
            | some m => simpa using hstep.2.1 m hm

end Quantifier

/-! ## The whole search -/

/-- Every array in a value has a size of 64 bits. -/
inductive Value.Addressable : Value → Prop where
  | scalar (s) : Addressable (.scalar s)
  | array {vs} (hsize : vs.length < 2 ^ 64) (h : ∀ v ∈ vs, Addressable v) : Addressable (.array vs)
  | node {m : Tree} (h : ∀ a ∈ m.attributes, Addressable a.2) : Addressable (.node m)

theorem Node.mem_of_get? {α : Type} {n : Node α} {name : String} {x : α}
    (h : n.get? name = some x) : (name, x) ∈ n.attributes := by
  obtain ⟨before, after, heq, _⟩ := List.lookup_eq_some_iff.mp h
  rw [heq]
  simp

namespace Pattern

theorem decides_searchAttributes {attributes : List (String × Pattern)} {m : Tree}
    (hm : (Value.node m).Addressable)
    (ih : ∀ a ∈ attributes, ∀ v, v.Addressable → Decides (a.2.search v) (Matches a.2 v)) :
    Decides (searchAttributes attributes m)
      (∀ a ∈ attributes, ∃ v, m.get? a.1 = some v ∧ Matches a.2 v) := by
  induction attributes with
  | nil => exact .of_true (by simp)
  | cons a rest ihrest =>
      obtain ⟨name, p⟩ := a
      rw [searchAttributes]
      cases hv : m.get? name with
      | none => exact .of_false fun h => by simpa [hv] using h (name, p) (by simp)
      | some v =>
          have haddressable : v.Addressable := by
            cases hm with
            | node h => exact h _ (Node.mem_of_get? hv)
          refine (ih (name, p) (by simp) v haddressable).ite (fun hp => ?_) (fun hp => ?_)
          · exact (ihrest fun a ha => ih a (by simp [ha])).congr (by simp [hv, hp])
          · exact .of_false fun h => hp (by simpa [hv] using h (name, p) (by simp))

theorem decides_searchAny {ps : List Pattern} {v : Value}
    (ih : ∀ p ∈ ps, Decides (p.search v) (Matches p v)) :
    Decides (searchAny ps v) (∃ p ∈ ps, Matches p v) := by
  induction ps with
  | nil => exact .of_false (by simp)
  | cons p ps ihps =>
      rw [searchAny]
      refine (ih p (by simp)).ite (fun hp => .of_true ⟨p, by simp, hp⟩) (fun hp => ?_)
      exact (ihps fun q hq => ih q (by simp [hq])).congr (by simp [hp])

/-- The beginning that a quantified item has to take, and what the loop adds to it. -/
theorem cut_many_iff_extends (q : Quantifier) (p : Pattern) (items : List (Item Pattern))
    (vs : List Value) : Cut (.many q p :: items) vs ↔ q.min ≤ vs.length ∧
      (∀ v ∈ vs.take q.min, Matches p v) ∧ q.Extends (Matches p) (Cut items) vs q.min := by
  rw [cut_many]
  constructor
  · rintro ⟨k, hk, ha, hp, hrest⟩
    obtain ⟨⟨j, rfl⟩, hm⟩ := (q.allows_iff k).mp ha
    rw [List.take_add] at hp
    exact ⟨by omega, fun v hv => hp v (by simp [hv]), j, hk, fun _ => hm,
      fun v hv => hp v (by simp [hv]), hrest⟩
  · rintro ⟨hmin, hp, j, hk, hm, hp', hrest⟩
    refine ⟨q.min + j * q.step, hk, (q.allows_iff _).mpr ⟨⟨j, rfl⟩, fun m hmem => ?_⟩, ?_, hrest⟩
    · by_cases hj : j = 0
      · subst hj
        simpa using q.min_le_max m hmem
      · exact hm hj m hmem
    · rw [List.take_add]
      intro v hv
      rcases List.mem_append.mp hv with hv | hv
      · exact hp v hv
      · exact hp' v hv

theorem decides_searchItems {items : List (Item Pattern)} {vs : List Value}
    (hsize : vs.length < 2 ^ 64)
    (ih : ∀ x ∈ items, ∀ v ∈ vs, Decides (x.pattern.search v) (Matches x.pattern v)) :
    Decides (searchItems items vs) (Cut items vs) := by
  induction items generalizing vs with
  | nil =>
      rw [searchItems]
      refine ⟨_, rfl, ?_⟩
      rw [cut_nil, List.isEmpty_iff]
  | cons x items ihitems =>
      have hx := ih x (by simp)
      have hrest : ∀ s, s <:+ vs → Decides (searchItems items s) (Cut items s) := by
        intro s hs
        apply ihitems (Nat.lt_of_le_of_lt hs.length_le hsize)
        intro y hy v hv
        exact ih y (by simp [hy]) v (hs.subset hv)
      rw [searchItems]
      cases x with
      | one p =>
          cases vs with
          | nil => exact .of_false (by simp [cut_one])
          | cons v vs =>
              refine (hx v (by simp)).ite (fun hp => ?_) (fun hp => ?_)
              · have hp : Matches p v := hp
                exact (hrest vs (List.suffix_cons v vs)).congr (by simp [cut_one, hp])
              · have hp : ¬ Matches p v := hp
                exact .of_false (by simp [cut_one, hp])
      | many q p =>
          have hall : ∀ s : List Value, (∀ v ∈ s, v ∈ vs) →
              Decides (s.allM p.search) (∀ v ∈ s, Matches p v) :=
            fun s hs => .allM fun v hv => hx v (hs v hv)
          refine Decides.congr ?_ (cut_many_iff_extends q p items vs).symm
          rw [searchItem]
          split
          · rename_i hshort
            exact .of_false fun h => by omega
          · rename_i hlong
            have hmin : q.min ≤ vs.length := by omega
            rw [slice?_eq (Nat.zero_le _) hmin]
            refine (hall (vs.take q.min) fun v hv => List.mem_of_mem_take hv).ite
              (fun hp => ?_) (fun hp => .of_false fun ⟨_, h, _⟩ => hp h)
            exact (q.decides_searchFrom hsize hall hrest hmin).congr (by tauto)

/-- The search neither asks for a slice that is not there nor misses a cut. -/
theorem decides_search (p : Pattern) {v : Value} (hv : v.Addressable) :
    Decides (p.search v) (Matches p v) := by
  induction p generalizing v with
  | any => exact .of_true (.any v)
  | scalar s =>
      refine ⟨(scalar s).accepts v, ?_, accepts_iff _ v⟩
      cases v <;> rfl
  | regexp kind r => exact ⟨_, rfl, accepts_iff (regexp kind r) v⟩
  | node className attributes ih =>
      cases v with
      | scalar s => exact .of_false fun h => by cases h
      | array vs => exact .of_false fun h => by cases h
      | node m =>
          have hnode : Matches (node ⟨className, attributes⟩) (.node m) ↔ className = m.className ∧
              ∀ a ∈ attributes, ∃ v, m.get? a.1 = some v ∧ Matches a.2 v := by
            simp only [← accepts_iff, accepts_node]
          refine Decides.congr ?_ hnode.symm
          rw [search, searchNode]
          split
          · rename_i hc
            exact (decides_searchAttributes hv ih).congr (by simp [hc])
          · rename_i hc
            exact .of_false fun h => hc h.1.symm
  | choice p ps hp hps =>
      have hchoice : Matches (choice p ps) v ↔ Matches p v ∨ ∃ q ∈ ps, Matches q v := by
        simp only [← accepts_iff, accepts_choice]
      refine Decides.congr ?_ hchoice.symm
      rw [search]
      refine (hp hv).ite (fun h => .of_true (.inl h)) (fun h => ?_)
      exact (decides_searchAny fun q hq => hps q hq hv).congr (by simp [h])
  | array items ih =>
      cases v with
      | scalar s => exact .of_false fun h => by cases h
      | node m => exact .of_false fun h => by cases h
      | array vs =>
          cases hv with
          | array hsize hvs =>
              refine (decides_searchItems hsize fun x hx v hmem => ih x hx (hvs v hmem)).congr ?_
              constructor
              · rintro ⟨segments, hs, rfl⟩
                exact .array hs
              · intro h
                cases h with
                | array hs => exact ⟨_, hs, rfl⟩

/-- A pattern accepts exactly the values that it stands for, and the search from left to right
comes to the same answer without an index out of range. -/
theorem accepts_iff_matches (p : Pattern) (v : Value) :
    (p.accepts v = true ↔ Matches p v) ∧ (v.Addressable → p.search v = some (p.accepts v)) := by
  refine ⟨accepts_iff p v, fun hv => ?_⟩
  obtain ⟨b, hb, hiff⟩ := decides_search p hv
  rw [hb, Bool.eq_iff_iff.mpr (hiff.trans (accepts_iff p v).symm)]

/-- Two quantifiers over the same three elements. -/
theorem search_odd_behind_any :
    let p := array [.many .zeroOrMore any, .many .odd (scalar (.integer 2))]
    let v := Value.array [.scalar (.integer 1), .scalar (.integer 2), .scalar (.integer 2)]
    v.Addressable ∧ Matches p v ∧ p.search v = some true := by
  intro p v
  have hv : v.Addressable := .array (by simp) (by simp [Value.Addressable.scalar])
  have haccepts : p.accepts v = true := by decide
  obtain ⟨hiff, hsearch⟩ := accepts_iff_matches p v
  exact ⟨hv, hiff.mp haccepts, (hsearch hv).trans (congrArg some haccepts)⟩

end Pattern

end TreePattern
