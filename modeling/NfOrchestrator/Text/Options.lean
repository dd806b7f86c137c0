import Mathlib.Data.String.Basic
import Mathlib.Tactic.Common

/-!
# NfOrchestrator.Text.Options

**Reading a command line.** A program sorts its arguments into options, the values of
options, and positional arguments. Which options are followed by a value is the program's
own; that an option starts with a dash is not (`place_of_undashed`).
-/

namespace NfOrchestrator.Options

/-- The argument starts with a dash. -/
def dashed (arg : String) : Bool := arg.toList.head? == some '-'

/-- What an argument is read as. -/
inductive Place where
  | option
  | value
  | positional
  deriving DecidableEq

/-- What each argument is read as, where `due` says that the first is still owed to the
option before it. A lone dash is positional, and so is all that follows `--`. -/
def placesFrom (takesValue : String → Bool) : Bool → List String → List Place
  | _, [] => []
  | true, _ :: rest => .value :: placesFrom takesValue false rest
  | false, arg :: rest =>
      if arg = "--" then .option :: rest.map fun _ => .positional
      else if dashed arg ∧ arg ≠ "-" then .option :: placesFrom takesValue (takesValue arg) rest
      else .positional :: placesFrom takesValue false rest

/-- What each argument of a command line is read as. -/
def places (takesValue : String → Bool) (args : List String) : List Place :=
  placesFrom takesValue false args

/-- An argument that does not start with a dash is positional or an option's value, whatever
stands around it. -/
theorem place_of_undashed {takesValue : String → Bool} {due : Bool} {args : List String} {i : ℕ}
    {arg : String} (harg : args[i]? = some arg) (hdash : dashed arg = false) :
    (placesFrom takesValue due args)[i]? = some .value ∨
      (placesFrom takesValue due args)[i]? = some .positional := by
  induction args generalizing due i with
  | nil => cases harg
  | cons first rest ih =>
      cases due with
      | true =>
          cases i with
          | zero => exact .inl rfl
          | succ i => exact ih harg
      | false =>
          rw [placesFrom]
          cases i with
          | zero =>
              obtain rfl : first = arg := Option.some.inj harg
              have hend : first ≠ "--" := by
                rintro rfl
                cases hdash
              rw [if_neg hend, if_neg (by simp [hdash])]
              exact .inr rfl
          | succ i =>
              -- behind `--` everything is positional
              have hrest : rest[i]? = some arg := harg
              split_ifs
              · right
                rw [List.getElem?_cons_succ, List.getElem?_map, hrest]
                rfl
              · exact ih hrest
              · exact ih hrest

end NfOrchestrator.Options
