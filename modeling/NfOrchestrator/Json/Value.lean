import NfOrchestrator.Text.Number

/-!
# NfOrchestrator.Json.Value

The values `json.loads` produces, with the operations Python programs apply to
them before they know what they hold: truth, subscription, `.get`, iteration,
`==`, `>`, `max` and `int`. An operation a value does not support raises
the exception Python raises; `None` is `Json.null`.

A float is the exact rational its literal denotes, or an infinity or NaN. The
rounding of a literal to the nearest double is not modelled, except that a
literal beyond the largest double is an infinity.
-/

namespace NfOrchestrator

/-- The built-in exceptions these operations raise, by class. -/
inductive PyError where
  | typeError
  | keyError
  | attributeError
  /-- Also `json.JSONDecodeError`, a subclass. -/
  | valueError
  | overflowError
  | assertionError
  | runtimeError
  deriving DecidableEq, Repr

/-- A sequence of computations returns when each of them does. -/
theorem bind_eq_ok {ε α β : Type} {x : Except ε α} {f : α → Except ε β} {b : β} :
    (x >>= f) = .ok b ↔ ∃ a, x = .ok a ∧ f a = .ok b := by
  cases x with
  | ok a =>
      constructor
      · intro h
        exact ⟨a, rfl, h⟩
      · intro hex
        obtain ⟨_, hx, h⟩ := hex
        obtain rfl := Except.ok.inj hx
        exact h
  | error e =>
      constructor
      · intro h
        cases h
      · intro hex
        obtain ⟨_, hx, _⟩ := hex
        cases hx

/-- A Python number. -/
inductive Num where
  | fin (q : ℚ)
  | posInf
  | negInf
  | nan
  deriving DecidableEq

/-- A value read from a JSON document. -/
inductive Json where
  | null
  | bool (b : Bool)
  | int (n : ℤ)
  | float (x : Num)
  | str (s : String)
  | arr (items : List Json)
  | obj (fields : List (String × Json))

namespace Num

/-- `a == b`. -/
def eq : Num → Num → Bool
  | .fin p, .fin q => p == q
  | .posInf, .posInf => true
  | .negInf, .negInf => true
  | _, _ => false

/-- `a > b`. -/
def gt : Num → Num → Bool
  | .fin p, .fin q => decide (q < p)
  | .fin _, .negInf => true
  | .posInf, .fin _ => true
  | .posInf, .negInf => true
  | _, _ => false

/-- `int(x)`: truncation toward zero. -/
def toInt : Num → Except PyError ℤ
  | .fin q => .ok (if 0 ≤ q then q.floor else q.ceil)
  | .posInf => .error .overflowError
  | .negInf => .error .overflowError
  | .nan => .error .valueError

end Num

namespace Json

mutual
/-- Equality of documents is decidable; the deriving handler does not reach a type
nested in lists of itself. -/
def decEq : (a b : Json) → Decidable (a = b)
  | .null, b => match b with
      | .null => isTrue rfl
      | .bool _ | .int _ | .float _ | .str _ | .arr _ | .obj _ => isFalse (by simp)
  | .bool x, b => match b with
      | .bool y => decidable_of_iff (x = y) (by simp)
      | .null | .int _ | .float _ | .str _ | .arr _ | .obj _ => isFalse (by simp)
  | .int x, b => match b with
      | .int y => decidable_of_iff (x = y) (by simp)
      | .null | .bool _ | .float _ | .str _ | .arr _ | .obj _ => isFalse (by simp)
  | .float x, b => match b with
      | .float y => decidable_of_iff (x = y) (by simp)
      | .null | .bool _ | .int _ | .str _ | .arr _ | .obj _ => isFalse (by simp)
  | .str x, b => match b with
      | .str y => decidable_of_iff (x = y) (by simp)
      | .null | .bool _ | .int _ | .float _ | .arr _ | .obj _ => isFalse (by simp)
  | .arr x, b => match b with
      | .arr y => @decidable_of_iff _ (x = y) (by simp) (decEqItems x y)
      | .null | .bool _ | .int _ | .float _ | .str _ | .obj _ => isFalse (by simp)
  | .obj x, b => match b with
      | .obj y => @decidable_of_iff _ (x = y) (by simp) (decEqFields x y)
      | .null | .bool _ | .int _ | .float _ | .str _ | .arr _ => isFalse (by simp)
def decEqItems : (a b : List Json) → Decidable (a = b)
  | [], b => match b with
      | [] => isTrue rfl
      | _ :: _ => isFalse (by simp)
  | x :: xs, b => match b with
      | [] => isFalse (by simp)
      | y :: ys => @decidable_of_iff _ (x = y ∧ xs = ys) (by simp)
          (@instDecidableAnd _ _ (decEq x y) (decEqItems xs ys))
def decEqFields : (a b : List (String × Json)) → Decidable (a = b)
  | [], b => match b with
      | [] => isTrue rfl
      | _ :: _ => isFalse (by simp)
  | (k, x) :: xs, b => match b with
      | [] => isFalse (by simp)
      | (l, y) :: ys => @decidable_of_iff _ (k = l ∧ x = y ∧ xs = ys) (by simp [and_assoc])
          (@instDecidableAnd _ _ inferInstance
            (@instDecidableAnd _ _ (decEq x y) (decEqFields xs ys)))
end
instance : DecidableEq Json := decEq

/-! ### Truth, lookup, iteration -/

/-- `bool(v)`. -/
def truthy : Json → Bool
  | .null => false
  | .bool b => b
  | .int n => n != 0
  | .float x => !x.eq (.fin 0)
  | .str s => s != ""
  | .arr items => !items.isEmpty
  | .obj fields => !fields.isEmpty

/-- `v[key]` for a string key. -/
def subscript (v : Json) (key : String) : Except PyError Json :=
  match v with
  | .obj fields =>
      match fields.lookup key with
      | some w => .ok w
      | none => .error .keyError
  | _ => .error .typeError

/-- `v.get(key, default)`. -/
def getD (v : Json) (key : String) (default : Json) : Except PyError Json :=
  match v with
  | .obj fields => .ok ((fields.lookup key).getD default)
  | _ => .error .attributeError

/-- `v.get(key)`. -/
def get (v : Json) (key : String) : Except PyError Json := v.getD key .null

/-- What `for x in v` runs over. -/
def iter : Json → Except PyError (List Json)
  | .arr items => .ok items
  | .obj fields => .ok (fields.map fun f => .str f.1)
  | .str s => .ok (s.toList.map fun c => .str (String.ofList [c]))
  | _ => .error .typeError

/-- `len(v)`. -/
def len : Json → Except PyError ℕ
  | .arr items => .ok items.length
  | .obj fields => .ok fields.length
  | .str s => .ok s.toList.length
  | _ => .error .typeError

/-- Can the value be a member of a set or a key of a dict? -/
def hashable : Json → Bool
  | .arr _ => false
  | .obj _ => false
  | _ => true

/-- `v == s` for a string. -/
def isStr (v : Json) (s : String) : Bool :=
  match v with
  | .str t => t == s
  | _ => false

/-! ### Comparison -/

/-- The number a value counts as; `bool` is a kind of `int`. -/
def number? : Json → Option Num
  | .bool b => some (.fin (if b then 1 else 0))
  | .int n => some (.fin n)
  | .float x => some x
  | _ => none

mutual
/-- `a == b`. -/
def pyEq : Json → Json → Bool
  | .null, b => match b with | .null => true | _ => false
  | .str s, b => b.isStr s
  | .arr as, b => match b with | .arr bs => pyEqItems as bs | _ => false
  | .obj as, b =>
      match b with
      | .obj bs => as.length == bs.length && pyEqFields as bs
      | _ => false
  | .bool x, b =>
      match b.number? with | some m => Num.eq (.fin (if x then 1 else 0)) m | none => false
  | .int x, b => match b.number? with | some m => Num.eq (.fin x) m | none => false
  | .float x, b => match b.number? with | some m => Num.eq x m | none => false
def pyEqItems : List Json → List Json → Bool
  | [], bs => bs.isEmpty
  | a :: as, bs => match bs with | [] => false | b :: bs => pyEq a b && pyEqItems as bs
def pyEqFields : List (String × Json) → List (String × Json) → Bool
  | [], _ => true
  | (k, a) :: as, bs =>
      (match bs.lookup k with | some b => pyEq a b | none => false) && pyEqFields as bs
end

mutual
/-- `a > b`. Lists compare at the first place they differ. -/
def pyGt : Json → Json → Except PyError Bool
  | .str s, b => match b with | .str t => .ok (decide (t < s)) | _ => .error .typeError
  | .arr as, b => match b with | .arr bs => pyGtItems as bs | _ => .error .typeError
  | .null, _ => .error .typeError
  | .obj _, _ => .error .typeError
  | .bool x, b =>
      match b.number? with
      | some m => .ok (Num.gt (.fin (if x then 1 else 0)) m)
      | none => .error .typeError
  | .int x, b =>
      match b.number? with | some m => .ok (Num.gt (.fin x) m) | none => .error .typeError
  | .float x, b => match b.number? with | some m => .ok (Num.gt x m) | none => .error .typeError
def pyGtItems : List Json → List Json → Except PyError Bool
  | [], _ => .ok false
  | a :: as, bs =>
      match bs with
      | [] => .ok true
      | b :: bs => if pyEq a b then pyGtItems as bs else pyGt a b
end

/-- The rest of `max`: a later item replaces the best so far only when its key is
greater. -/
def maxByFrom (key : Json → Except PyError Json) (best bestKey : Json) :
    List Json → Except PyError Json
  | [] => .ok best
  | x :: rest => do
      let k ← key x
      if ← pyGt k bestKey then maxByFrom key x k rest
      else maxByFrom key best bestKey rest

/-- `max(items, key=key)`. -/
def maxBy (key : Json → Except PyError Json) : List Json → Except PyError Json
  | [] => .error .valueError
  | x :: rest => do
      let k ← key x
      maxByFrom key x k rest

/-! ### `int` -/

/-- The digits of an integer literal, `_` allowed between two of them. -/
def literalDigits : List Char → Option (List ℕ)
  | [] => none
  | [c] => (Unicode.decimalValue? c).map ([·])
  | c :: '_' :: rest => do
      let d ← Unicode.decimalValue? c
      return d :: (← literalDigits rest)
  | c :: rest => do
      let d ← Unicode.decimalValue? c
      return d :: (← literalDigits rest)

/-- The number a string of decimal digits denotes. -/
def ofDigits (digits : List ℕ) : ℕ := digits.foldl (fun n d => 10 * n + d) 0

/-- Python refuses to convert a string of more decimal digits than this. -/
def maxDigits : ℕ := 4300

/-- `int(s)` for a string. -/
def intOfStr (s : String) : Except PyError ℤ :=
  let (negative, digits) := match Str.trimChars Unicode.isIntSpace s.toList with
    | '-' :: rest => (true, literalDigits rest)
    | '+' :: rest => (false, literalDigits rest)
    | cs => (false, literalDigits cs)
  match digits with
  | none => .error .valueError
  | some ds =>
      if maxDigits < ds.length then .error .valueError
      else .ok (if negative then -(ofDigits ds : ℤ) else ofDigits ds)

/-- `int(v)`. -/
def toInt : Json → Except PyError ℤ
  | .int n => .ok n
  | .bool b => .ok (if b then 1 else 0)
  | .float x => x.toInt
  | .str s => intOfStr s
  | _ => .error .typeError

end Json

end NfOrchestrator
