import NfOrchestrator.Yaml.Scalar

/-!
# NfOrchestrator.Yaml.Read

A reader of YAML documents in block style: nested mappings and sequences by indentation,
unquoted scalars, double-quoted ones without escapes, `\x7b\x7d` and comments. A document
with anything else in it, or with an indentation that does not fit, is not read.
-/

namespace NfOrchestrator.Yaml

/-! ### The tokens of a line -/

/-- A value on one line, as it is written. -/
inductive Leaf where
  | plain (cs : List Char)
  | quoted (cs : List Char)
  | emptyMap
  deriving DecidableEq

/-- What there is on a line, with the column it is at. -/
inductive Token where
  /-- The hyphen before an item of a sequence. -/
  | item (column : ℕ)
  /-- A key and its colon. -/
  | key (column : ℕ) (name : List Char)
  | leaf (column : ℕ) (leaf : Leaf)
  deriving DecidableEq

/-- Characters that an unquoted scalar does not begin with. -/
def indicators : List Char :=
  [',', '[', ']', '{', '}', '#', '&', '*', '!', '|', '>', '"', '%', '@', Char.ofNat 0x27,
    Char.ofNat 0x60]

/-- Can an unquoted scalar begin so? -/
def plainStart : List Char → Bool
  | [] => false
  | c :: rest =>
      !indicators.contains c && (!(['-', '?', ':'].contains c) || rest.head?.any (· != ' '))

/-- A text up to a comment. -/
def uncommented : List Char → List Char
  | [] => []
  | ' ' :: '#' :: _ => []
  | c :: rest => c :: uncommented rest

/-- A text without the spaces at its end. -/
def trimEnd (cs : List Char) : List Char := (cs.reverse.dropWhile (· == ' ')).reverse

/-- The text before the first colon that ends a key, and the text behind it. -/
def splitKey : List Char → Option (List Char × List Char)
  | [] => none
  | [':'] => some ([], [])
  | ':' :: ' ' :: rest => some ([], rest)
  | ' ' :: '#' :: _ => none
  | c :: rest => (splitKey rest).map fun (name, value) => (c :: name, value)

/-- An unquoted scalar. -/
def plain (cs : List Char) : Option (List Char) :=
  if plainStart cs && (splitKey cs).isNone then some (trimEnd (uncommented cs)) else none

/-- Nothing more on this line. -/
def blank (cs : List Char) : Bool :=
  match cs.dropWhile (· == ' ') with
  | [] => true
  | '#' :: _ => cs.head? == some ' '
  | _ => false

/-- A value on the rest of a line, if there is one. -/
def lexValue (column : ℕ) : List Char → Option (List Token)
  | [] => some []
  | ' ' :: rest => lexValue (column + 1) rest
  | '#' :: _ => some []
  | '"' :: rest =>
      let body := rest.takeWhile (· != '"')
      if !body.contains '\\' && body.length < rest.length &&
          blank (rest.drop (body.length + 1)) then
        some [.leaf column (.quoted body)]
      else none
  | '{' :: '}' :: rest => if blank rest then some [.leaf column .emptyMap] else none
  | cs => (plain cs).map fun body => [.leaf column (.plain body)]

/-- The tokens of a line from a column on. -/
def lexFrom (column : ℕ) : List Char → Option (List Token)
  | [] => some []
  | ' ' :: rest => lexFrom (column + 1) rest
  | '#' :: _ => some []
  | ['-'] => some [.item column]
  | '-' :: ' ' :: rest => (lexFrom (column + 2) rest).map (.item column :: ·)
  | cs =>
      match splitKey cs with
      | some (name, rest) => do
          let name ← plain name
          return .key column name :: (← lexValue (column + name.length + 2) rest)
      | none => lexValue column cs

def lexLine (line : List Char) : Option (List Token) := lexFrom 0 line

/-! ### The tree -/

def Leaf.value : Leaf → Yaml
  | .plain cs => resolve cs
  | .quoted cs => .str (String.ofList cs)
  | .emptyMap => .map []

/-- Where the value of a key may begin: behind the key's column, or, for a sequence, at it. -/
def valueColumn (column : ℕ) : List Token → ℕ
  | .item _ :: _ => column
  | _ => column + 1

mutual
/-- The value that begins at one of the columns from `least` on, and the tokens behind it. -/
def node : ℕ → ℕ → List Token → Option (Yaml × List Token)
  | 0, _, _ => none
  | fuel + 1, least, tokens =>
      match tokens with
      | .leaf column leaf :: rest =>
          if least ≤ column then some (leaf.value, rest) else some (.null, tokens)
      | .key column _ :: _ =>
          if least ≤ column then entries fuel column [] tokens else some (.null, tokens)
      | .item column :: _ =>
          if least ≤ column then items fuel column [] tokens else some (.null, tokens)
      | [] => some (.null, [])
/-- The entries of a mapping at a column, behind those that are read. -/
def entries : ℕ → ℕ → List (Yaml × Yaml) → List Token → Option (Yaml × List Token)
  | 0, _, _, _ => none
  | fuel + 1, column, done, tokens =>
      match tokens with
      | .key c name :: rest =>
          if c = column then do
            let (value, rest) ← node fuel (valueColumn column rest) rest
            entries fuel column (done ++ [(resolve name, value)]) rest
          else some (.map done, tokens)
      | _ => some (.map done, tokens)
/-- The items of a sequence at a column, behind those that are read. -/
def items : ℕ → ℕ → List Yaml → List Token → Option (Yaml × List Token)
  | 0, _, _, _ => none
  | fuel + 1, column, done, tokens =>
      match tokens with
      | .item c :: rest =>
          if c = column then do
            let (value, rest) ← node fuel (column + 1) rest
            items fuel column (done ++ [value]) rest
          else some (.seq done, tokens)
      | _ => some (.seq done, tokens)
end

/-- The value that all these tokens make. -/
def ofTokens (tokens : List Token) : Option Yaml :=
  match node (2 * tokens.length + 2) 0 tokens with
  | some (value, []) => some value
  | _ => none

/-- The tokens of lines. -/
def lexLines : List (List Char) → Option (List Token)
  | [] => some []
  | line :: lines => do
      let tokens ← lexLine line
      return tokens ++ (← lexLines lines)

/-- The value of a document. -/
def read (text : String) : Option Yaml := do ofTokens (← lexLines (text.toList.splitOn '\n'))

/-! ### Looking into a value -/

/-- The value of a key of a mapping. -/
def get (value : Yaml) (key : String) : Option Yaml :=
  match value with
  | .map entries => entries.findSome? fun entry =>
      match entry.1 with
      | .str s => if s = key then some entry.2 else none
      | _ => none
  | _ => none

/-- The value at the end of a path of keys. -/
def follow (value : Yaml) (path : List String) : Option Yaml := path.foldlM get value

theorem follow_append (value : Yaml) (path more : List String) :
    value.follow (path ++ more) = (value.follow path).bind fun v => v.follow more :=
  List.foldlM_append

/-! ### Lines with one entry -/

/-- An unquoted scalar without spaces, colons and line breaks. -/
def Word (cs : List Char) : Prop := plainStart cs = true ∧ ' ' ∉ cs ∧ ':' ∉ cs ∧ '\n' ∉ cs

instance (cs : List Char) : Decidable (Word cs) := inferInstanceAs (Decidable (_ ∧ _))

section word

variable {cs name value : List Char}

theorem splitKey_notMem (h : ':' ∉ cs) : splitKey cs = none := by
  induction cs with
  | nil => rfl
  | cons c rest ih =>
      rw [List.mem_cons, not_or] at h
      have hrest := ih h.2
      unfold splitKey
      split <;> simp_all

theorem splitKey_append (hspace : ' ' ∉ name) (hcolon : ':' ∉ name) (value : List Char) :
    splitKey (name ++ ':' :: ' ' :: value) = some (name, value) := by
  induction name with
  | nil => rfl
  | cons c rest ih =>
      rw [List.mem_cons, not_or] at hspace hcolon
      have hrest := ih hspace.2 hcolon.2
      rw [List.cons_append]
      unfold splitKey
      split <;> simp_all

theorem uncommented_notMem (h : ' ' ∉ cs) : uncommented cs = cs := by
  induction cs with
  | nil => rfl
  | cons c rest ih =>
      rw [List.mem_cons, not_or] at h
      have hrest := ih h.2
      unfold uncommented
      split <;> simp_all

theorem trimEnd_notMem (h : ' ' ∉ cs) : trimEnd cs = cs := by
  have hkeep : cs.reverse.dropWhile (· == ' ') = cs.reverse := by
    rw [List.dropWhile_eq_self_iff]
    intro hpos hfirst
    have hmem : cs.reverse[0] ∈ cs := List.mem_reverse.mp (List.getElem_mem hpos)
    rw [eq_of_beq hfirst] at hmem
    exact h hmem
  rw [trimEnd, hkeep, List.reverse_reverse]

theorem plain_word (h : Word cs) : plain cs = some cs := by
  obtain ⟨hstart, hspace, hcolon, -⟩ := h
  rw [plain, hstart, splitKey_notMem hcolon, uncommented_notMem hspace, trimEnd_notMem hspace]
  rfl

theorem lexValue_word (h : Word cs) (column : ℕ) :
    lexValue column cs = some [.leaf column (.plain cs)] := by
  have hplain := plain_word h
  obtain ⟨hstart, hspace, -⟩ := h
  unfold lexValue
  split
  · cases hstart
  · simp at hspace
  · simp [plainStart, indicators] at hstart
  · simp [plainStart, indicators] at hstart
  · simp [plainStart, indicators] at hstart
  · rw [hplain]
    rfl

theorem lexFrom_spaces (n column : ℕ) (cs : List Char) :
    lexFrom column (List.replicate n ' ' ++ cs) = lexFrom (column + n) cs := by
  induction n generalizing column with
  | zero => rfl
  | succ n ih =>
      rw [List.replicate_succ, List.cons_append, lexFrom, ih, Nat.add_right_comm]
      rfl

theorem plainStart_append (h : plainStart cs = true) (rest : List Char) :
    plainStart (cs ++ rest) = true := by
  cases cs with
  | nil => cases h
  | cons c cs =>
      cases cs with
      | nil => simp_all [plainStart]
      | cons d cs => simpa [plainStart] using h

/-- The tokens of a line that begins with a key. -/
theorem lexFrom_key {content : List Char} (hstart : plainStart content = true)
    (hspace : content.head? ≠ some ' ') (hsplit : splitKey content = some (name, value))
    (hplain : plain name = some name) (column : ℕ) :
    lexFrom column content =
      (lexValue (column + name.length + 2) value).map (.key column name :: ·) := by
  unfold lexFrom
  split
  · cases hstart
  · exact absurd rfl hspace
  · simp [plainStart, indicators] at hstart
  · simp [plainStart, indicators] at hstart
  · simp [plainStart, indicators] at hstart
  · rw [hsplit]
    simp only [hplain, Option.bind_eq_bind, Option.bind_some]
    cases lexValue (column + name.length + 2) value <;> rfl

theorem head?_word_append (h : Word cs) (rest : List Char) : (cs ++ rest).head? ≠ some ' ' := by
  obtain ⟨hstart, hspace, -⟩ := h
  cases cs with
  | nil => cases hstart
  | cons c cs =>
      intro hhead
      obtain rfl : c = ' ' := Option.some.inj hhead
      exact hspace List.mem_cons_self

/-- The tokens of a key and its value. -/
def entry (column : ℕ) (name value : List Char) : List Token :=
  [.key column name, .leaf (column + name.length + 2) (.plain value)]

/-- One line, with these tokens on it. -/
def Lexes (line : List Char) (tokens : List Token) : Prop :=
  '\n' ∉ line ∧ lexLine line = some tokens

instance (line : List Char) (tokens : List Token) : Decidable (Lexes line tokens) :=
  inferInstanceAs (Decidable (_ ∧ _))

theorem lexes_entry (hname : Word name) (hvalue : Word value) (column : ℕ) :
    Lexes (List.replicate column ' ' ++ (name ++ ':' :: ' ' :: value))
      (entry column name value) := by
  refine ⟨by simp [List.mem_replicate, hname.2.2.2, hvalue.2.2.2], ?_⟩
  rw [lexLine, lexFrom_spaces, Nat.zero_add, lexFrom_key (plainStart_append hname.1 _)
    (head?_word_append hname _) (splitKey_append hname.2.1 hname.2.2.1 value) (plain_word hname),
    lexValue_word hvalue]
  rfl

end word

/-! ### The lines of a document -/

theorem lexLines_of_forall₂ {lines : List (List Char)} {tokens : List (List Token)}
    (h : List.Forall₂ Lexes lines tokens) :
    (∀ line ∈ lines, '\n' ∉ line) ∧ lexLines lines = some tokens.flatten := by
  induction h with
  | nil => exact ⟨fun line hline => absurd hline List.not_mem_nil, rfl⟩
  | cons hline _ ih =>
      refine ⟨List.forall_mem_cons.mpr ⟨hline.1, ih.1⟩, ?_⟩
      rw [lexLines, hline.2, ih.2]
      rfl

theorem lexLines_append {lines more : List (List Char)} {tokens others : List Token}
    (h : lexLines lines = some tokens) (hmore : lexLines more = some others) :
    lexLines (lines ++ more) = some (tokens ++ others) := by
  induction lines generalizing tokens with
  | nil =>
      obtain rfl := Option.some.inj h
      exact hmore
  | cons line lines ih =>
      obtain ⟨first, hfirst, hrest⟩ := Option.bind_eq_some_iff.mp h
      obtain ⟨rest, hlines, htokens⟩ := Option.bind_eq_some_iff.mp hrest
      obtain rfl := Option.some.inj htokens
      rw [List.cons_append, lexLines, hfirst, ih hlines, List.append_assoc]
      rfl

theorem splitOn_lines {lines : List (List Char)} (h : ∀ line ∈ lines, '\n' ∉ line) :
    (lines.flatMap fun line => line ++ ['\n']).splitOn '\n' = lines ++ [[]] := by
  induction lines with
  | nil => rfl
  | cons line lines ih =>
      rw [List.flatMap_cons, List.append_assoc, List.singleton_append,
        List.splitOn_append_cons_self, List.splitOn_eq_singleton (h line List.mem_cons_self),
        ih fun l hl => h l (List.mem_cons_of_mem line hl)]
      rfl

/-- A document is read line by line. -/
theorem read_lines {lines : List (List Char)} {tokens : List Token}
    (h : ∀ line ∈ lines, '\n' ∉ line) (htokens : lexLines lines = some tokens) :
    read (String.ofList (lines.flatMap fun line => line ++ ['\n'])) = ofTokens tokens := by
  have hlast : lexLines [[]] = some [] := rfl
  rw [read, String.toList_ofList, splitOn_lines h, lexLines_append htokens hlast,
    List.append_nil]
  rfl

/-! ### More fuel -/

theorem mono (fuel : ℕ) :
    (∀ {least tokens r}, node fuel least tokens = some r →
      node (fuel + 1) least tokens = some r) ∧
    (∀ {column done tokens r}, entries fuel column done tokens = some r →
      entries (fuel + 1) column done tokens = some r) ∧
    ∀ {column done tokens r}, items fuel column done tokens = some r →
      items (fuel + 1) column done tokens = some r := by
  induction fuel with
  | zero =>
      refine ⟨fun h => ?_, fun h => ?_, fun h => ?_⟩
      · simp only [node, reduceCtorEq] at h
      · simp only [entries, reduceCtorEq] at h
      · simp only [items, reduceCtorEq] at h
  | succ fuel ih =>
      -- the three readers call one another with one unit of fuel less
      obtain ⟨hnode, hentries, hitems⟩ := ih
      refine ⟨fun {least tokens r} h => ?_, fun {column done tokens r} h => ?_,
        fun {column done tokens r} h => ?_⟩
      · rcases tokens with _ | ⟨_ | ⟨c, name⟩ | ⟨c, leaf⟩, rest⟩ <;> simp only [node] at h ⊢
        · exact h
        · split_ifs at h ⊢
          · exact hitems h
          · exact h
        · split_ifs at h ⊢
          · exact hentries h
          · exact h
        · exact h
      · rcases tokens with _ | ⟨_ | ⟨c, name⟩ | ⟨c, leaf⟩, rest⟩ <;> simp only [entries] at h ⊢
        · exact h
        · exact h
        · split_ifs at h ⊢
          · obtain ⟨⟨value, rest⟩, hvalue, hrest⟩ := Option.bind_eq_some_iff.mp h
            exact Option.bind_eq_some_iff.mpr ⟨_, hnode hvalue, hentries hrest⟩
          · exact h
        · exact h
      · rcases tokens with _ | ⟨_ | ⟨c, name⟩ | ⟨c, leaf⟩, rest⟩ <;> simp only [items] at h ⊢
        · exact h
        · split_ifs at h ⊢
          · obtain ⟨⟨value, rest⟩, hvalue, hrest⟩ := Option.bind_eq_some_iff.mp h
            exact Option.bind_eq_some_iff.mpr ⟨_, hnode hvalue, hitems hrest⟩
          · exact h
        · exact h
        · exact h

/-- What fits into some fuel fits into more. -/
theorem node_mono {fuel more least : ℕ} {tokens rest : List Token} {value : Yaml}
    (h : node fuel least tokens = some (value, rest)) (hmore : fuel ≤ more) :
    node more least tokens = some (value, rest) := by
  induction hmore with
  | refl => exact h
  | step _ ih => exact (mono _).1 ih

/-! ### Rules for reading -/

/-- The value at the front of these tokens, and the tokens behind it. -/
structure Reads (least : ℕ) (tokens : List Token) (value : Yaml) (rest : List Token) : Prop where
  le : rest.length ≤ tokens.length
  node : ∀ fuel, 2 * (tokens.length - rest.length) + 2 ≤ fuel →
    node fuel least tokens = some (value, rest)

/-- The mapping that the entries at the front of these tokens complete. -/
structure ReadsEntries (column : ℕ) (done : List (Yaml × Yaml)) (tokens : List Token)
    (value : Yaml) (rest : List Token) : Prop where
  le : rest.length ≤ tokens.length
  entries : ∀ fuel, 2 * (tokens.length - rest.length) + 1 ≤ fuel →
    entries fuel column done tokens = some (value, rest)

section rules

variable {least column : ℕ} {done : List (Yaml × Yaml)} {name : List Char} {value v : Yaml}
  {tokens rest between : List Token}

theorem Reads.leaf {leaf : Leaf} (h : least ≤ column) :
    Reads least (.leaf column leaf :: rest) leaf.value rest where
  le := Nat.le_succ _
  node fuel hfuel := by
    obtain ⟨fuel, rfl⟩ := Nat.exists_eq_add_of_le' (Nat.le_of_add_left_le hfuel : 2 ≤ fuel)
    simp only [Yaml.node, if_pos h]

theorem Reads.map (h : least ≤ column)
    (hentries : ReadsEntries column [] (.key column name :: tokens) value rest) :
    Reads least (.key column name :: tokens) value rest where
  le := hentries.le
  node fuel hfuel := by
    obtain ⟨fuel, rfl⟩ := Nat.exists_eq_add_of_le' (Nat.le_of_add_left_le hfuel : 2 ≤ fuel)
    simp only [Yaml.node, if_pos h]
    exact hentries.entries _ (by omega)

theorem ReadsEntries.key (hvalue : Reads (valueColumn column tokens) tokens v between)
    (hrest : ReadsEntries column (done ++ [(resolve name, v)]) between value rest) :
    ReadsEntries column done (.key column name :: tokens) value rest where
  le := (hrest.le.trans hvalue.le).trans (Nat.le_succ _)
  entries fuel hfuel := by
    have hle := hrest.le
    have hle' := hvalue.le
    rw [List.length_cons] at hfuel
    obtain ⟨fuel, rfl⟩ := Nat.exists_eq_add_of_le' (show 1 ≤ fuel by omega)
    have hnode := hvalue.node fuel (by omega)
    have hentries := hrest.entries fuel (by omega)
    simp [Yaml.entries, hnode, hentries]

theorem ReadsEntries.stop (h : ∀ name after, tokens ≠ .key column name :: after) :
    ReadsEntries column done tokens (.map done) tokens where
  le := le_rfl
  entries fuel hfuel := by
    obtain ⟨fuel, rfl⟩ := Nat.exists_eq_add_of_le' (show 1 ≤ fuel by omega)
    rcases tokens with _ | ⟨_ | ⟨c, name⟩ | ⟨c, leaf⟩, rest⟩ <;> simp only [Yaml.entries]
    split_ifs with hcolumn
    · exact absurd (hcolumn ▸ rfl) (h name rest)
    · rfl

/-- A key with an unquoted value on its line. -/
theorem ReadsEntries.entry {text : List Char}
    (hrest : ReadsEntries column (done ++ [(resolve name, resolve text)]) tokens value rest) :
    ReadsEntries column done (Yaml.entry column name text ++ tokens) value rest := by
  refine .key (.leaf ?_) hrest
  show column + 1 ≤ column + name.length + 2
  omega

/-- All tokens make one value. -/
theorem Reads.ofTokens (h : Reads 0 tokens value []) : ofTokens tokens = some value := by
  rw [Yaml.ofTokens, h.node _ (by simp)]

end rules

end NfOrchestrator.Yaml
