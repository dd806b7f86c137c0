import NfOrchestrator.Json.Value

/-!
# NfOrchestrator.Json.Text

`json.loads` and `json.dumps`, and Python's `str` on a value.

`loads` reads a document by recursion on a fuel argument that starts above the
length of the text: every nested call has read at least one character, so it never
runs out. A document `loads` refuses raises `ValueError`, the parent class of
`JSONDecodeError`. Two limits of the interpreter are not modelled: the recursion
limit on deep nesting, and a lone surrogate escape, which has no Lean character
and is read as U+FFFD.
-/

namespace NfOrchestrator.Json

/-! ### Reading -/

def asciiDigit (c : Char) : Bool := '0' ≤ c && c ≤ '9'

def hexValue? (c : Char) : Option ℕ :=
  if asciiDigit c then some (c.toNat - '0'.toNat)
  else if 'a' ≤ c && c ≤ 'f' then some (c.toNat - 'a'.toNat + 10)
  else if 'A' ≤ c && c ≤ 'F' then some (c.toNat - 'A'.toNat + 10)
  else none

/-- The code unit written by four hexadecimal digits. -/
def hex4 (a b c d : Char) : Option ℕ := do
  return (← hexValue? a) * 4096 + (← hexValue? b) * 256 + (← hexValue? c) * 16 + (← hexValue? d)

/-- The character of a code unit that is not half of a surrogate pair. -/
def unitChar (n : ℕ) : Char := if 0xd800 ≤ n && n ≤ 0xdfff then Char.ofNat 0xfffd else Char.ofNat n

/-- The character a surrogate pair stands for. -/
def pairChar? (hi lo : ℕ) : Option Char :=
  if 0xd800 ≤ hi && hi ≤ 0xdbff && 0xdc00 ≤ lo && lo ≤ 0xdfff then
    some (Char.ofNat (0x10000 + (hi - 0xd800) * 0x400 + (lo - 0xdc00)))
  else none

def simpleEscape? : Char → Option Char
  | '"' => some '"'
  | '\\' => some '\\'
  | '/' => some '/'
  | 'b' => some (Char.ofNat 8)
  | 'f' => some (Char.ofNat 12)
  | 'n' => some '\n'
  | 'r' => some '\r'
  | 't' => some '\t'
  | _ => none

/-- The characters of a string literal after its opening quote, and the text
after its closing one. -/
def stringTail : ℕ → List Char → Option (List Char × List Char)
  | 0, _ => none
  | n + 1, cs =>
      match cs with
      | [] => none
      | '"' :: rest => some ([], rest)
      | '\\' :: 'u' :: a :: b :: c :: d :: rest => do
          let hi ← hex4 a b c d
          let paired := match rest with
            | '\\' :: 'u' :: e :: f :: g :: h :: rest' =>
                ((hex4 e f g h).bind (pairChar? hi)).map (·, rest')
            | _ => none
          let (x, rest) := paired.getD (unitChar hi, rest)
          let (xs, rest) ← stringTail n rest
          return (x :: xs, rest)
      | '\\' :: c :: rest => do
          let x ← simpleEscape? c
          let (xs, rest) ← stringTail n rest
          return (x :: xs, rest)
      | c :: rest => do
          guard (0x20 ≤ c.toNat)
          let (xs, rest) ← stringTail n rest
          return (c :: xs, rest)

def skipSpace (cs : List Char) : List Char :=
  cs.dropWhile fun c => c == ' ' || c == '\t' || c == '\n' || c == '\r'

def digitsValue (cs : List Char) : ℕ := ofDigits (cs.map fun c => c.toNat - '0'.toNat)

/-- The exponent part of a number, if there is one. -/
def exponent? : List Char → Option (ℤ × List Char)
  | [] => none
  | c :: rest =>
      if c == 'e' || c == 'E' then
        let (negative, digits) := match rest with
          | '-' :: ds => (true, ds)
          | '+' :: ds => (false, ds)
          | ds => (false, ds)
        let ds := digits.takeWhile asciiDigit
        if ds.isEmpty then none
        else
          let n : ℤ := digitsValue ds
          some (if negative then -n else n, digits.dropWhile asciiDigit)
      else none

/-- The fractional digits of a number; none when no digit follows the point. -/
def fraction : List Char → List Char × List Char
  | '.' :: rest =>
      let ds := rest.takeWhile asciiDigit
      if ds.isEmpty then ([], '.' :: rest) else (ds, rest.dropWhile asciiDigit)
  | cs => ([], cs)

/-- The least rational that rounds to no finite double. -/
def doubleOverflow : ℚ := 2 ^ 1024 - 2 ^ 970

def floatOf (q : ℚ) : Num :=
  if doubleOverflow ≤ q then .posInf else if q ≤ -doubleOverflow then .negInf else .fin q

def numberTail (negative : Bool) (whole : List Char) (rest : List Char) :
    Option (Json × List Char) :=
  let (frac, rest') := fraction rest
  let (exponent, rest'') := match exponent? rest' with
    | some (e, r) => (some e, r)
    | none => (none, rest')
  if frac.isEmpty && exponent.isNone then
    if maxDigits < whole.length then none
    else
      let n : ℤ := digitsValue whole
      some (.int (if negative then -n else n), rest'')
  else
    let m : ℚ := digitsValue (whole ++ frac)
    let q := m * 10 ^ (exponent.getD 0 - frac.length)
    some (.float (floatOf (if negative then -q else q)), rest'')

def number (cs : List Char) : Option (Json × List Char) :=
  let (negative, cs) := match cs with
    | '-' :: rest => (true, rest)
    | _ => (false, cs)
  match cs with
  | '0' :: rest => numberTail negative ['0'] rest
  | _ =>
      let whole := cs.takeWhile asciiDigit
      if whole.isEmpty then none else numberTail negative whole (cs.dropWhile asciiDigit)

/-- A later field of the same name replaces the value of the earlier one. -/
def setField (fields : List (String × Json)) (key : String) (v : Json) : List (String × Json) :=
  if fields.any (·.1 == key) then fields.map fun f => if f.1 == key then (key, v) else f
  else fields ++ [(key, v)]

mutual
/-- One value, and the text after it. -/
def value : ℕ → List Char → Option (Json × List Char)
  | 0, _ => none
  | n + 1, cs =>
      match cs with
      | '"' :: rest =>
          (stringTail (rest.length + 1) rest).map fun r => (.str (String.ofList r.1), r.2)
      | '{' :: rest =>
          match skipSpace rest with
          | '}' :: rest => some (.obj [], rest)
          | rest => (fieldsTail n [] rest).map fun r => (.obj r.1, r.2)
      | '[' :: rest =>
          match skipSpace rest with
          | ']' :: rest => some (.arr [], rest)
          | rest => (itemsTail n rest).map fun r => (.arr r.1, r.2)
      | 'n' :: 'u' :: 'l' :: 'l' :: rest => some (.null, rest)
      | 't' :: 'r' :: 'u' :: 'e' :: rest => some (.bool true, rest)
      | 'f' :: 'a' :: 'l' :: 's' :: 'e' :: rest => some (.bool false, rest)
      | 'N' :: 'a' :: 'N' :: rest => some (.float .nan, rest)
      | 'I' :: 'n' :: 'f' :: 'i' :: 'n' :: 'i' :: 't' :: 'y' :: rest => some (.float .posInf, rest)
      | '-' :: 'I' :: 'n' :: 'f' :: 'i' :: 'n' :: 'i' :: 't' :: 'y' :: rest =>
          some (.float .negInf, rest)
      | cs => number cs
/-- The items of an array from its first one, and the text after its `]`. -/
def itemsTail : ℕ → List Char → Option (List Json × List Char)
  | 0, _ => none
  | n + 1, cs => do
      let (v, rest) ← value n cs
      match skipSpace rest with
      | ']' :: rest => return ([v], rest)
      | ',' :: rest => do
          let (vs, rest) ← itemsTail n (skipSpace rest)
          return (v :: vs, rest)
      | _ => none
/-- The fields of an object from its next key, and the text after its closing
brace. -/
def fieldsTail : ℕ → List (String × Json) → List Char → Option (List (String × Json) × List Char)
  | 0, _, _ => none
  | n + 1, fields, cs => do
      match cs with
      | '"' :: rest => do
          let (key, rest) ← stringTail (rest.length + 1) rest
          match skipSpace rest with
          | ':' :: rest => do
              let (v, rest) ← value n (skipSpace rest)
              let fields := setField fields (String.ofList key) v
              match skipSpace rest with
              | '}' :: rest => return (fields, rest)
              | ',' :: rest => fieldsTail n fields (skipSpace rest)
              | _ => none
          | _ => none
      | _ => none
end

/-- `json.loads(s)`. -/
def loads (s : String) : Except PyError Json :=
  let cs := skipSpace s.toList
  match value (cs.length + 1) cs with
  | some (v, rest) => if (skipSpace rest).isEmpty then .ok v else .error .valueError
  | none => .error .valueError

/-- A text given by its characters is read without taking it apart. -/
theorem loads_ofList {cs : List Char} {v : Json}
    (h : value ((skipSpace cs).length + 1) (skipSpace cs) = some (v, [])) :
    loads (String.ofList cs) = .ok v := by
  rw [loads, String.toList_ofList]
  simp only [h]
  rfl

/-! ### Writing -/

/-- `repr` of a finite float: its decimal expansion, with at least one digit after
the point. -/
def floatRepr (q : ℚ) : String :=
  let whole := Str.decimal (|q|.floor.toNat)
  let frac := Str.stripZeros ((Str.fixedChars (4 * (Str.decimal q.den).length) |q|).drop
    (whole.length + 1))
  String.ofList (Str.signChars q ++ whole ++ '.' :: if frac.isEmpty then ['0'] else frac)

def hexDigits4 (n : ℕ) : List Char :=
  [Nat.digitChar (n / 4096 % 16), Nat.digitChar (n / 256 % 16), Nat.digitChar (n / 16 % 16),
    Nat.digitChar (n % 16)]

/-- One character of a string as `json.dumps` writes it, in ASCII. -/
def escapeChar (c : Char) : List Char :=
  if c == '"' then ['\\', '"']
  else if c == '\\' then ['\\', '\\']
  else if c == '\n' then ['\\', 'n']
  else if c == '\r' then ['\\', 'r']
  else if c == '\t' then ['\\', 't']
  else if c.toNat = 12 then ['\\', 'f']
  else if c.toNat = 8 then ['\\', 'b']
  else if 0x20 ≤ c.toNat && c.toNat < 0x7f then [c]
  else if c.toNat < 0x10000 then '\\' :: 'u' :: hexDigits4 c.toNat
  else
    '\\' :: 'u' :: hexDigits4 (0xd800 + (c.toNat - 0x10000) / 0x400) ++
      '\\' :: 'u' :: hexDigits4 (0xdc00 + (c.toNat - 0x10000) % 0x400)

def quoted (s : String) : String :=
  String.ofList ('"' :: s.toList.flatMap escapeChar ++ ['"'])

mutual
/-- `json.dumps(v)`. -/
def dumps : Json → String
  | .null => "null"
  | .bool b => if b then "true" else "false"
  | .int n => toString n
  | .float (.fin q) => floatRepr q
  | .float .posInf => "Infinity"
  | .float .negInf => "-Infinity"
  | .float .nan => "NaN"
  | .str s => quoted s
  | .arr items => "[" ++ Str.join ", " (dumpsItems items) ++ "]"
  | .obj fields => "\x7b" ++ Str.join ", " (dumpsFields fields) ++ "\x7d"
def dumpsItems : List Json → List String
  | [] => []
  | v :: rest => dumps v :: dumpsItems rest
def dumpsFields : List (String × Json) → List String
  | [] => []
  | (k, v) :: rest => (quoted k ++ ": " ++ dumps v) :: dumpsFields rest
end

/-- `str(v)`. A list or a dict is written as its JSON text, without Python's choice
of quotes. -/
def pyStr : Json → String
  | .null => "None"
  | .bool b => if b then "True" else "False"
  | .str s => s
  | .float .posInf => "inf"
  | .float .negInf => "-inf"
  | .float .nan => "nan"
  | v => dumps v

example : (loads "[1, \x7b\"a\": null\x7d]").map dumps = .ok "[1, \x7b\"a\": null\x7d]" := by
  decide +kernel

end NfOrchestrator.Json
