import Mathlib.Data.List.Sort
import NfOrchestrator.Deploy.Intent
import NfOrchestrator.Effects.Pool

/-!
# NfOrchestrator.Translate.Boundary

**From free text to a candidate intent.** Whatever proposes the candidate is not trusted:
the text is bounded before it is asked, only the intent's own fields are read from what it
returns, and these are validated like any other intent (`translate`).

A proposal may be any Python value. The boundary looks at whether it is a dict, at its
keys, and at the values of three of them; a key or a value that is neither a text nor an
integer is one of an arbitrary type `Obj`. Validation is pydantic's, and an argument here.
-/

namespace NfOrchestrator.Translate

/-! ### Proposals -/

/-- A Python value that is a key of a proposal, or the value of one. -/
inductive Value (Obj : Type) where
  | str (s : String)
  | int (n : ℤ)
  | other (o : Obj)
  deriving DecidableEq

/-- What a translator returned. -/
inductive Proposal (Obj : Type) where
  | dict (items : List (Value Obj × Value Obj)) (nodup : (items.map Prod.fst).Nodup)
  | notDict (typeName : String)

/-- What can leave `translate`. -/
inductive Raised where
  | translationError (message : String)
  | py (e : PyError)
  deriving DecidableEq

variable (Obj : Type)

/-- The one operation is asking the translator about a text. It may raise. -/
abbrev sig : Signature := ⟨String, fun _ => Except Raised (Proposal Obj)⟩

abbrev Translating (α : Type) := Prog (sig Obj) Raised α

variable {Obj}

def propose (text : String) : Translating Obj (Proposal Obj) := do
  Prog.ofExcept (← Prog.op (S := sig Obj) text)

/-! ### The boundary -/

def maxTextLength : ℕ := 500

def intentFields : List String := ["name", "replicas", "environment"]

variable [DecidableEq Obj]

/-- Take only the intent's own fields out of what the translator returned. -/
def pickFields : Proposal Obj → Except Raised (List (String × Value Obj))
  | .dict items _ =>
      .ok (intentFields.filterMap fun key => (items.lookup (.str key)).map fun v => (key, v))
  | .notDict typeName =>
      .error (.translationError ("translator returned " ++ typeName ++ ", expected an object"))

/-- A key that is not one of the intent's fields. -/
def Foreign (key : Value Obj) : Prop := ∀ field ∈ intentFields, key ≠ .str field

instance (key : Value Obj) : Decidable (Foreign key) := inferInstanceAs (Decidable (∀ _ ∈ _, _))

def droppedKeys : Proposal Obj → List (Value Obj)
  | .dict items _ => (items.map Prod.fst).filter fun key => Foreign key
  | .notDict _ => []

def Value.text? : Value Obj → Option String
  | .str s => some s
  | .int _ | .other _ => none

/-- `", ".join(sorted(keys))`. With a key that is not a text either `sorted` or `join`
raises `TypeError`. -/
def joinSorted (keys : List (Value Obj)) : Except Raised String :=
  match keys.mapM Value.text? with
  | some texts => .ok (Str.join ", " (texts.insertionSort (· ≤ ·)))
  | none => .error (.py .typeError)

def prodNote : String :=
  "text was translated into a prod intent; deploying it is a separate, deliberate call"

def droppedNote : String :=
  "translator proposed fields that are not part of an intent and were dropped: "

def warningsFor (intent : Intent) (dropped : List (Value Obj)) : Except Raised (List String) := do
  let notes := if intent.environment = .prod then [prodNote] else []
  if dropped.isEmpty then return notes
  else return notes ++ [droppedNote ++ (← joinSorted dropped)]

/-- `intent.model_dump()`. -/
def modelDump (intent : Intent) : List (String × Value Obj) :=
  [("name", .str intent.name), ("replicas", .int intent.replicas),
    ("environment", .str intent.environment.value)]

/-- What `translate` returns. -/
structure Translated (Obj : Type) where
  intent : List (String × Value Obj)
  translator : String
  warnings : List String
  deriving DecidableEq

/-- What `translate` makes of a proposal: only known fields are taken from it, then they are
validated. `modelValidate` gives the intent, or the text of pydantic's exception. -/
def fromProposal (modelValidate : List (String × Value Obj) → Except String Intent)
    (translator : String) (proposal : Proposal Obj) : Except Raised (Translated Obj) := do
  let fields ← pickFields proposal
  match modelValidate fields with
  | .error exc => throw (.translationError ("candidate failed intent validation: " ++ exc))
  | .ok intent => do
      let warnings ← warningsFor intent (droppedKeys proposal)
      return { intent := modelDump intent, translator := translator, warnings := warnings }

/-- A validated intent out of a text, or the exception that says why not. -/
def translate (modelValidate : List (String × Value Obj) → Except String Intent)
    (translator text : String) : Translating Obj (Translated Obj) := do
  if Str.strip text = "" then throw (.translationError "text is empty")
  else if maxTextLength < text.toList.length then
    throw (.translationError ("text is " ++ toString text.toList.length ++
      " characters, over the " ++ toString maxTextLength ++ " limit"))
  else do
    let proposal ← propose text
    Prog.ofExcept (fromProposal modelValidate translator proposal)

end NfOrchestrator.Translate
