import NfOrchestrator.Json.Text

/-!
# NfOrchestrator.Yaml.Scalar

YAML values, and the **core rules** that make a value of an unquoted scalar: what looks
like a null, a boolean or a number is one, and everything else is a string
(`resolve_eq_str_iff`).
-/

namespace NfOrchestrator

/-- A value read from a YAML document. The value of a float is kept as its text. -/
inductive Yaml where
  | null
  | bool (b : Bool)
  | int (n : ℤ)
  | float (text : List Char)
  | str (s : String)
  | seq (items : List Yaml)
  | map (entries : List (Yaml × Yaml))

namespace Yaml

open Json (asciiDigit hexValue?)

/-! ### Numbers -/

/-- `[0-9]+` -/
def digits (cs : List Char) : Bool := !cs.isEmpty && cs.all asciiDigit

/-- A text without its sign, `[-+]?`. -/
def unsigned : List Char → List Char
  | '-' :: rest => rest
  | '+' :: rest => rest
  | cs => cs

/-- A number in another base: `0o [0-7]+`, `0x [0-9a-fA-F]+`. -/
def based (mark : Char) (digit : Char → Bool) : List Char → Bool
  | '0' :: c :: rest => c == mark && !rest.isEmpty && rest.all digit
  | _ => false

def octalDigit (c : Char) : Bool := '0' ≤ c && c ≤ '7'

def hexDigit (c : Char) : Bool := (hexValue? c).isSome

/-- `( [eE] [-+]? [0-9]+ )?` -/
def exponent : List Char → Bool
  | [] => true
  | c :: rest => (c == 'e' || c == 'E') && digits (unsigned rest)

/-- `( \. [0-9]+ | [0-9]+ ( \. [0-9]* )? )`, and an exponent. -/
def fraction (cs : List Char) : Bool :=
  match cs.dropWhile asciiDigit with
  | '.' :: rest =>
      (asciiDigit (cs.headD '.') || asciiDigit (rest.headD '.')) &&
        exponent (rest.dropWhile asciiDigit)
  | rest => asciiDigit (cs.headD '.') && exponent rest

/-- The number that digits of a base denote. -/
def ofBase (base : ℕ) (cs : List Char) : ℕ :=
  cs.foldl (fun n c => base * n + (hexValue? c).getD 0) 0

/-! ### The core rules -/

def nulls : List (List Char) := ["".toList, "null".toList, "Null".toList, "NULL".toList, "~".toList]

def trues : List (List Char) := ["true".toList, "True".toList, "TRUE".toList]

def falses : List (List Char) := ["false".toList, "False".toList, "FALSE".toList]

def infinities : List (List Char) := [".inf".toList, ".Inf".toList, ".INF".toList]

def nans : List (List Char) := [".nan".toList, ".NaN".toList, ".NAN".toList]

def isFloat (cs : List Char) : Bool :=
  fraction (unsigned cs) || decide (unsigned cs ∈ infinities) || decide (cs ∈ nans)

/-- The value of an unquoted scalar. -/
def resolve (cs : List Char) : Yaml :=
  if cs ∈ nulls then .null
  else if cs ∈ trues then .bool true
  else if cs ∈ falses then .bool false
  else if digits (unsigned cs) then
    .int (if cs.head? = some '-' then -(ofBase 10 (unsigned cs) : ℤ) else ofBase 10 (unsigned cs))
  else if based 'o' octalDigit cs then .int (ofBase 8 (cs.drop 2))
  else if based 'x' hexDigit cs then .int (ofBase 16 (cs.drop 2))
  else if isFloat cs then .float cs
  else .str (String.ofList cs)

/-- An unquoted scalar is a string when no other rule takes it. -/
theorem resolve_eq_str_iff {cs : List Char} : resolve cs = .str (String.ofList cs) ↔
    cs ∉ nulls ∧ cs ∉ trues ∧ cs ∉ falses ∧ digits (unsigned cs) = false ∧
      based 'o' octalDigit cs = false ∧ based 'x' hexDigit cs = false ∧ isFloat cs = false := by
  rw [resolve]
  split_ifs <;> simp_all

end Yaml

end NfOrchestrator
