import FloodGuard.Config.Tree

/-!
Configuration files in TOML: tables, lists of tables, strings, whole numbers, flags, lists and
inline tables. Names may be quoted and may be joined with dots. Nothing can be given twice, and the
items of a list are of one kind.
-/
namespace FloodGuard.Config.Toml

/-- The part of a text that is still to be read. -/
abbrev Rest := List Char

def skipSpace (text : Rest) : Rest := text.dropWhile isSpace

/-- The characters that a comment may hold. -/
def isCommentChar (c : Char) : Bool := c = '\t' ∨ 0x20 ≤ c.toNat

def skipComment : Rest → Rest
  | '#' :: rest => rest.dropWhile isCommentChar
  | text => text

/-- Skips blanks, comments and ends of lines. -/
def skipLines (text : Rest) : Nat → Rest
  | 0 => text
  | fuel + 1 =>
    match skipComment (skipSpace text) with
    | '\n' :: rest => skipLines rest fuel
    | other => other

def skipAll (text : Rest) : Rest := skipLines text (text.length + 1)

def isBareChar (c : Char) : Bool := c.isAlphanum ∨ c = '_' ∨ c = '-'

/-- The character with a code, if there is one. -/
def charOf? (code : Nat) : Option Char :=
  if code.isValidChar then some (Char.ofNat code) else none

/-- The character that an escape by a single letter stands for. -/
def escaped? : Char → Option Char
  | 'b' => some '\x08'
  | 't' => some '\t'
  | 'n' => some '\n'
  | 'f' => some '\x0c'
  | 'r' => some '\r'
  | '"' => some '"'
  | '\\' => some '\\'
  | _ => none

/-- An escape behind its backslash. -/
def cutEscape : Rest → Option (Char × Rest)
  | 'u' :: rest => do
    let code ← Numeral.value? 16 (rest.take 4)
    if 4 ≤ rest.length then some (← charOf? code, rest.drop 4) else none
  | 'U' :: rest => do
    let code ← Numeral.value? 16 (rest.take 8)
    if 8 ≤ rest.length then some (← charOf? code, rest.drop 8) else none
  | c :: rest => do some (← escaped? c, rest)
  | [] => none

/-- How a string is delimited, and whether a backslash escapes in it. -/
structure Quoting where
  quote : Char
  escapes : Bool
  multiline : Bool
deriving DecidableEq, Repr

/-- Whether a text begins with the end of a string. -/
def Quoting.ends (q : Quoting) (text : Rest) : Bool :=
  (List.replicate (if q.multiline then 3 else 1) q.quote).isPrefixOf text

/-- The body of a string and the text behind its end. In a string of several lines a backslash at
the end of a line joins it to the next character that is not blank. -/
def cutBody (q : Quoting) (text : Rest) : Nat → Option (List Char × Rest)
  | 0 => none
  | fuel + 1 =>
    if q.ends text then some ([], text.drop (if q.multiline then 3 else 1))
    else match text with
      | [] => none
      | c :: rest =>
        if c = '\\' ∧ q.escapes then
          match q.multiline, skipSpace rest with
          | true, '\n' :: lines =>
            cutBody q (lines.dropWhile fun c => isSpace c ∨ c = '\n') fuel
          | _, _ => do
            let (escaped, behind) ← cutEscape rest
            let (body, behind) ← cutBody q behind fuel
            some (escaped :: body, behind)
        else if c = '\t' ∨ 0x20 ≤ c.toNat ∧ c.toNat ≠ 0x7F ∨
            (c = '\n' ∧ q.multiline) then
          (cutBody q rest fuel).map fun (body, behind) => (c :: body, behind)
        else none

/-- A string that begins with a quote. The end of the line right behind the opening quotes of a
string of several lines is not part of it. -/
def cutString (text : Rest) : Option (String × Rest) := do
  let quote ← text.head?
  let multiline := (List.replicate 3 quote).isPrefixOf text
  let q : Quoting := ⟨quote, quote = '"', multiline⟩
  let inside := text.drop (if multiline then 3 else 1)
  let body := if multiline ∧ inside.head? = some '\n' then inside.tail else inside
  let (chars, behind) ← cutBody q body (body.length + 1)
  some (String.ofList chars, behind)

def isQuote (c : Char) : Bool := c = '"' ∨ c = '\''

/-- One name: bare, or quoted on one line. -/
def cutName (text : Rest) : Option (String × Rest) :=
  match text with
  | [] => none
  | c :: _ =>
    if isQuote c then
      if (List.replicate 3 c).isPrefixOf text then none else cutString text
    else match text.takeWhile isBareChar with
      | [] => none
      | name => some (String.ofList name, text.dropWhile isBareChar)

/-- Names between dots, with blanks around the dots. -/
def cutNames (text : Rest) : Nat → Option (List String × Rest)
  | 0 => none
  | fuel + 1 => do
    let (name, behind) ← cutName text
    match skipSpace behind with
    | '.' :: rest =>
      let (names, behind) ← cutNames (skipSpace rest) fuel
      some (name :: names, behind)
    | other => some ([name], other)

/-- The digits of a number in which single underscores stand between digits. -/
def ungroup : List Char → Option (List Char)
  | [] => some []
  | [c] => if c = '_' then none else some [c]
  | c :: '_' :: d :: rest =>
    if c = '_' ∨ d = '_' then none else (ungroup (d :: rest)).map (c :: ·)
  | c :: d :: rest => if c = '_' then none else (ungroup (d :: rest)).map (c :: ·)

/-- A whole number in base ten, or in another base that its first two characters tell. -/
def integer? (text : List Char) : Option Int :=
  let based (base : Nat) (digits : List Char) : Option Int := do
    let n ← Numeral.value? base (← ungroup digits)
    if n < Nat.pow 2 63 then some n else none
  let decimal (digits : List Char) : Option Nat := do
    let plain ← ungroup digits
    if plain.head? = some '0' ∧ plain.length ≠ 1 then none else Numeral.value? 10 plain
  match text with
  | '0' :: 'x' :: digits => based 16 digits
  | '0' :: 'o' :: digits => based 8 digits
  | '0' :: 'b' :: digits => based 2 digits
  | '-' :: digits => ((decimal digits).filter (· ≤ Nat.pow 2 63)).map fun n => -(n : Int)
  | '+' :: digits => ((decimal digits).filter (· < Nat.pow 2 63)).map Int.ofNat
  | digits => ((decimal digits).filter (· < Nat.pow 2 63)).map Int.ofNat

/-- A flag or a number: everything up to the next character that belongs to neither. -/
def cutWord (text : Rest) : Option (Json × Rest) :=
  let isWordChar (c : Char) : Bool := isBareChar c ∨ c = '+' ∨ c = '.' ∨ c = ':'
  let word := text.takeWhile isWordChar
  let behind := text.dropWhile isWordChar
  if word = "true".toList then some (.bool true, behind)
  else if word = "false".toList then some (.bool false, behind)
  else (integer? word).map fun n => (.int n, behind)

/-- Whether two values are of one kind. -/
def sameKind : Json → Json → Bool
  | .str _, .str _ => true
  | .int _, .int _ => true
  | .bool _, .bool _ => true
  | .arr _, .arr _ => true
  | .obj _, .obj _ => true
  | _, _ => false

/-- Puts a value into an inline table, in which a name must be new. -/
def addMember (names : List String) (value table : Json) : Option Json :=
  match names with
  | [] => none
  | [name] =>
    match table, Json.member? name table with
    | .obj _, none => some (setMember name value table)
    | _, _ => none
  | name :: next :: rest =>
    match table with
    | .obj _ => do
      let inner ← addMember (next :: rest) value ((Json.member? name table).getD (.obj []))
      some (setMember name inner table)
    | _ => none

mutual

/-- A value. -/
def cutValue (text : Rest) : Nat → Option (Json × Rest)
  | 0 => none
  | fuel + 1 =>
    match text with
    | '[' :: rest => cutItems [] (skipAll rest) fuel
    | '\x7b' :: rest =>
      match skipSpace rest with
      | '\x7d' :: behind => some (.obj [], behind)
      | inside => cutMembers (.obj []) inside fuel
    | c :: _ =>
      if isQuote c then (cutString text).map fun (body, behind) => (.str body, behind)
      else cutWord text
    | [] => none

/-- The items of a list behind those that were read, up to its end. -/
def cutItems (items : List Json) (text : Rest) : Nat → Option (Json × Rest)
  | 0 => none
  | fuel + 1 =>
    match text with
    | ']' :: behind => some (.arr items, behind)
    | _ => do
      let (item, behind) ← cutValue text fuel
      if items.all (sameKind item) then
        match skipAll behind with
        | ',' :: rest => cutItems (items ++ [item]) (skipAll rest) fuel
        | ']' :: rest => some (.arr (items ++ [item]), rest)
        | _ => none
      else none

/-- The members of an inline table behind those that were read, up to its end. -/
def cutMembers (table : Json) (text : Rest) : Nat → Option (Json × Rest)
  | 0 => none
  | fuel + 1 => do
    let (names, behind) ← cutNames text (text.length + 1)
    match behind with
    | '=' :: rest =>
      let (value, behind) ← cutValue (skipSpace rest) fuel
      let extended ← addMember names value table
      match skipSpace behind with
      | ',' :: others => cutMembers extended (skipSpace others) fuel
      | '\x7d' :: others => some (extended, others)
      | _ => none
    | _ => none

end

/-- A line of a file: the head of a table, the head of one more table of a list, or a setting. -/
inductive Line where
  | table (names : List String)
  | listed (names : List String)
  | setting (names : List String) (value : Json)
deriving Repr

def cutLine (text : Rest) : Option (Line × Rest) :=
  match text with
  | '[' :: '[' :: rest => do
    let (names, behind) ← cutNames (skipSpace rest) (text.length + 1)
    match behind with
    | ']' :: ']' :: behind => some (.listed names, behind)
    | _ => none
  | '[' :: rest => do
    let (names, behind) ← cutNames (skipSpace rest) (text.length + 1)
    match behind with
    | ']' :: behind => some (.table names, behind)
    | _ => none
  | _ => do
    let (names, behind) ← cutNames text (text.length + 1)
    match behind with
    | '=' :: rest =>
      let (value, behind) ← cutValue (skipSpace rest) (text.length + 1)
      some (.setting names value, behind)
    | _ => none

/-- All lines of a text. Behind a line only blanks and a comment may stand. -/
def lines? (text : Rest) : Nat → Option (List Line)
  | 0 => none
  | fuel + 1 =>
    match skipAll text with
    | [] => some []
    | first => do
      let (line, behind) ← cutLine first
      match skipComment (skipSpace behind) with
      | [] => some [line]
      | '\n' :: rest => (lines? rest fuel).map (line :: ·)
      | _ => none

/-- A file that is partly read. -/
structure Reading where
  tree : Json := .obj []
  /-- The table that settings belong to. -/
  place : List Step := []
  /-- The tables that cannot be opened again. -/
  opened : List (List Step) := []
  /-- The lists that can be extended. -/
  lists : List (List Step) := []
  /-- The tables that are complete. -/
  complete : List (List Step) := []
deriving Repr

namespace Reading

/-- The place of a table below another one; of a list that can be extended the last item is
meant. -/
def below (r : Reading) (place : List Step) (name : String) : Option (List Step) :=
  let inner := place ++ [.member name]
  match at? inner r.tree with
  | none => some inner
  | some (.obj _) => if inner ∈ r.complete then none else some inner
  | some (.arr items) =>
    if inner ∈ r.lists then some (inner ++ [.item (items.length - 1)]) else none
  | some _ => none

/-- The place of the table that a path of names leads to, and the last name of the path. -/
def locate (r : Reading) (place : List Step) (names : List String) :
    Option (List Step × String) := do
  let last ← names.getLast?
  some (← names.dropLast.foldlM r.below place, last)

/-- The places of the tables that a path of names goes through. -/
def through (r : Reading) (place : List Step) : List String → List (List Step)
  | [] => []
  | name :: rest =>
    match r.below place name with
    | some inner => inner :: r.through inner rest
    | none => []

def step (r : Reading) : Line → Option Reading
  | .table names => do
    let (place, name) ← r.locate [] names
    let inner := place ++ [.member name]
    match at? inner r.tree with
    | some (.obj _) =>
      if inner ∈ r.opened ∨ inner ∈ r.complete then none
      else some { r with place := inner, opened := inner :: r.opened }
    | none =>
      some { r with
        tree := assign (.obj []) inner r.tree
        place := inner
        opened := inner :: r.opened }
    | some _ => none
  | .listed names => do
    let (place, name) ← r.locate [] names
    let inner := place ++ [.member name]
    match at? inner r.tree with
    | none =>
      let item := inner ++ [.item 0]
      some { r with
        tree := assign (.obj []) item r.tree
        place := item
        lists := inner :: r.lists }
    | some (.arr items) =>
      if inner ∈ r.lists then
        let item := inner ++ [.item items.length]
        some { r with tree := assign (.obj []) item r.tree, place := item }
      else none
    | some _ => none
  | .setting names value => do
    let (place, name) ← r.locate r.place names
    let inner := place ++ [.member name]
    match at? inner r.tree with
    | some _ => none
    | none =>
      let tables := r.through r.place names.dropLast
      some { r with
        tree := assign value inner r.tree
        opened := tables ++ r.opened
        complete := inner :: r.complete }

end Reading

/-- The text with the ends of lines written in one way, without a mark of its byte order. -/
def unify : List Char → List Char
  | [] => []
  | '\r' :: '\n' :: rest => '\n' :: unify rest
  | c :: rest => c :: unify rest

def parse? (text : String) : Option Json := do
  let chars := unify (if text.toList.head? = some '\uFEFF' then text.toList.tail else text.toList)
  let lines ← lines? chars (chars.length + 1)
  let r ← lines.foldlM Reading.step {}
  some r.tree

end FloodGuard.Config.Toml
