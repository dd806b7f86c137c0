import NfOrchestrator.Deploy.Engine

/-!
# NfOrchestrator.Deploy.Listing

**Listing the releases**, page by page. A page is read and its names are added to a dict,
so that a name on two pages is kept once; a page that is not full is the last one.

A listing goes on while helm returns full pages. Here it is given a number of pages it may
read, and is still unfinished (`none`) when it has read them all.
-/

namespace NfOrchestrator.Deploy

variable (cfg : Settings)

def listPage : ℕ := 256

def listArgs (page offset : ℕ) : List String :=
  ["list", "--kube-context", cfg.kubeContext, "--max", toString page, "--offset",
    toString offset, "--output", "json"]

/-- Insert a key into a dict, which keeps the first of two equal keys. -/
def addName (names : List Json) (name : Json) : List Json :=
  if names.any fun known => Json.pyEq known name then names else names ++ [name]

/-- Add the name of each release of a page. -/
def addNames (names : List Json) : List Json → Except PyError (List Json)
  | [] => .ok names
  | release :: rest => do
      let name ← release.subscript "name"
      if name.hashable then addNames (addName names name) rest else .error .typeError

/-- The names after what helm printed for a page, and whether it was the last page. -/
def readPage (page : ℕ) (names : List Json) (output : String) :
    Except PyError (List Json × Bool) := do
  let batch ← Json.loads output
  let names ← addNames names (← batch.iter)
  return (names, decide ((← batch.len) < page))

/-- Read pages from an offset on, as many as `pages`. -/
def listFrom (page : ℕ) : (pages offset : ℕ) → (names : List Json) → Eff (Option (List Json))
  | 0, _, _ => return none
  | pages + 1, offset, names => do
      let output ← runHelm cfg (listArgs cfg page offset)
      let (names, last) ← ofPy (readPage page names output)
      if last then return some names else listFrom page pages (offset + page) names

/-- Every Helm release name in the context, if they fit in this many pages. -/
def listReleases (page pages : ℕ) : Eff (Option (List Json)) := listFrom cfg page pages 0 []

end NfOrchestrator.Deploy
