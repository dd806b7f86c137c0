import NfOrchestrator.Text.Lines

/-!
# NfOrchestrator.Scripts.BannedTerms

The gate that fails a build when a **private term** appears in a tracked file: which
terms it looks for, what it finds in a text, and the exit code it makes of that.

Paths are bytes, as on disk. What `git ls-files` prints of a path is a parameter.
-/

namespace NfOrchestrator.Scripts

/-! ### Terms and texts -/

/-- Newline- or comma-separated, comments and blanks dropped, lowercased. -/
def parseTerms (raw : String) : List String :=
  (Str.splitlines (raw.map fun c => if c = ',' then '\n' else c)).filterMap fun chunk =>
    let term := Str.lower (Str.strip chunk)
    if term ≠ "" ∧ term.toList.head? ≠ some '#' then some term else none

/-- A match: the path, the line number and the index of the term, but not the term. -/
structure Hit where
  path : String
  number : ℕ
  index : ℕ
  deriving DecidableEq

/-- The terms found in one line. -/
def scanLine (path : String) (terms : List String) (number : ℕ) (line : String) : List Hit :=
  terms.zipIdx.filterMap fun (term, index) =>
    if Str.contains term (Str.lower line) then some ⟨path, number, index⟩ else none

def scanText (path text : String) (terms : List String) : List Hit :=
  ((Str.splitlines text).zipIdx 1).flatMap fun (line, number) => scanLine path terms number line

/-! ### Files -/

/-- What `open` and `read` make of a file. -/
inductive Contents where
  | text (decoded : String)
  /-- A `UnicodeDecodeError`. -/
  | binary
  /-- An `OSError`: no such file, a directory. -/
  | unreadable

/-- The files of the working tree, by the bytes of their paths. -/
abbrev Files := List UInt8 → Contents

/-- The bytes that `open` looks for. -/
def fsencode (path : String) : List UInt8 := path.toList.flatMap String.utf8EncodeChar

/-- Text content, or nothing if the file is binary or unreadable. -/
def readText (files : Files) (path : String) : Option String :=
  match files (fsencode path) with
  | .text decoded => some (Str.universalNewlines decoded)
  | .binary | .unreadable => none

def scan (files : Files) (paths terms : List String) : List Hit :=
  paths.flatMap fun path =>
    match readText files path with
    | some text => scanText path text terms
    | none => []

/-- The lines of what git printed, without empty ones. -/
def trackedFiles (output : String) : List String :=
  (Str.splitlines output).filter fun line => line != ""

/-! ### The gate -/

/-- git could not be started, or exited non-zero. -/
inductive GitError where
  | osError
  | calledProcessError
  deriving DecidableEq

def notConfigured : ℕ := 2

/-- The exit code. -/
def main (bannedTerms : Option String) (git : Except GitError String) (files : Files) :
    Except GitError ℕ := do
  let terms := parseTerms (bannedTerms.getD "")
  if terms.isEmpty then return notConfigured
  let hits := scan files (trackedFiles (← git)) terms
  if hits.isEmpty then return 0
  return 1

end NfOrchestrator.Scripts
