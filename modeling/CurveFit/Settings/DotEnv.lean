import CurveFit.Error
import CurveFit.Settings.DotEnv.Entry
import CurveFit.Text.Letters

/-!
# Variable files

A file of `NAME=value` entries that adds to the environment.  An entry may start with `export`;
empty ones are skipped; a value may be quoted, with backslash escapes outside single quotes and
`$NAME` replaced by the variable's value; a number sign after a blank starts a comment.  A variable
that the environment already has keeps its value there, and of several entries for one name the
first counts.  Reading stops at the first entry that has none of these forms.
-/

namespace CurveFit.DotEnv

open CurveFit.Text

/-- Names with their values, each name once. -/
abbrev Bindings := List (String × String)

/-- How a character of a value is read. -/
inductive Mode where
  | plain
  | strong
  | weak
  /-- After a backslash; the flag tells whether inside double quotes. -/
  | escaped (weak : Bool)
  /-- In the name after a dollar sign. -/
  | name (weak : Bool) (soFar : List Char)
  /-- In a name in braces after a dollar sign. -/
  | braced (weak : Bool) (soFar : List Char)
  /-- After the end of the value. -/
  | ended

/-- The mode outside or inside double quotes. -/
def Mode.back (weak : Bool) : Mode := if weak then .weak else .plain

/-- Reads the value of an entry; `lookup` gives the values that dollar signs refer to.  The output
is kept in reverse. -/
def readValue (lookup : String → Option String) : List Char → Mode → List Char → Option (List Char)
  | [], .plain, out => some out.reverse
  | [], .ended, out => some out.reverse
  | [], .escaped false, out => some out.reverse
  | [], .name false n, out =>
    some (out.reverse ++ ((lookup (String.ofList n.reverse)).getD "").toList)
  | [], _, _ => none
  | c :: rest, .ended, out =>
    if c = ' ' ∨ c = '\t' then readValue lookup rest .ended out
    else if c = '#' then some out.reverse
    else none
  | c :: rest, .escaped w, out =>
    if c = '\\' ∨ c = '\'' ∨ c = '"' ∨ c = '$' ∨ c = ' ' then
      readValue lookup rest (.back w) (c :: out)
    else if c = 'n' then readValue lookup rest (.back w) ('\n' :: out)
    else none
  | c :: rest, .strong, out =>
    if c = '\'' then readValue lookup rest .plain out else readValue lookup rest .strong (c :: out)
  | c :: rest, .name w n, out =>
    if isWordChar c then readValue lookup rest (.name w (c :: n)) out
    else if c = '\x7b' ∧ n.isEmpty then readValue lookup rest (.braced w []) out
    else
      let out := ((lookup (String.ofList n.reverse)).getD "").toList.reverse ++ out
      if c = '$' then readValue lookup rest (.name w []) out
      else readValue lookup rest (.back w) (c :: out)
  | c :: rest, .braced w n, out =>
    if c = '\x7d' then
      readValue lookup rest (.back w)
        (((lookup (String.ofList n.reverse)).getD "").toList.reverse ++ out)
    else readValue lookup rest (.braced w (c :: n)) out
  | c :: rest, .weak, out =>
    if c = '$' then readValue lookup rest (.name true []) out
    else if c = '"' then readValue lookup rest .plain out
    else if c = '\\' then readValue lookup rest (.escaped true) out
    else readValue lookup rest .weak (c :: out)
  | c :: rest, .plain, out =>
    if c = '$' then readValue lookup rest (.name false []) out
    else if c = '\'' then readValue lookup rest .strong out
    else if c = '"' then readValue lookup rest .weak out
    else if c = '\\' then readValue lookup rest (.escaped false) out
    else if c = ' ' ∨ c = '\t' then readValue lookup rest .ended out
    else readValue lookup rest .plain (c :: out)

/-- A name at the start of a text, and the rest. -/
def readName (s : List Char) : Option (String × List Char) :=
  match s with
  | c :: _ =>
    if c.isAlpha || c = '_' then
      let inName (c : Char) : Bool := c.isAlphanum || c = '_' || c = '.'
      some (String.ofList (s.takeWhile inName), s.dropWhile inName)
    else none
  | [] => none

/-- What follows an equals sign. -/
def afterEquals : List Char → Option (List Char)
  | '=' :: rest => some rest
  | _ => none

/-- What an entry says: nothing, a binding, or something that is neither. -/
inductive Statement where
  | blank
  | binding (name value : String)
  | malformed

/-- The name of an entry, and what follows its equals sign. -/
def splitEntry (s : List Char) : Option (String × List Char) := do
  let (name, rest) ← readName s
  match afterEquals (trimStart rest) with
  | some value => pure (name, value)
  | none =>
    if name = "export" then
      let (name, rest) ← readName (trimStart rest)
      let value ← afterEquals (trimStart rest)
      pure (name, value)
    else none

/-- Reads one entry. -/
def readEntry (lookup : String → Option String) (entry : List Char) : Statement :=
  let s := trim entry
  match s with
  | [] => .blank
  | '#' :: _ => .blank
  | _ =>
    match splitEntry s with
    | none => .malformed
    | some (name, rest) =>
      match trimStart rest with
      | [] => .binding name ""
      | '#' :: _ => .binding name ""
      | value =>
        match readValue lookup value .plain [] with
        | some v => .binding name (String.ofList v)
        | none => .malformed

/-- An environment, and what stopped its extension, if anything did. -/
structure Extended where
  lookup? : String → Option String
  fault? : Option Fault

/-- The environment with some bindings below it. -/
def below (environment : String → Option String) (bindings : Bindings) (name : String) :
    Option String :=
  (environment name).or (bindings.lookup name)

/-- What follows a start in a text. -/
def after? (start s : List Char) : Option (List Char) :=
  if start.isPrefixOf s then some (s.drop start.length) else none

/-- What a reference stands for.  An environment is a list of texts `NAME=value`, and a reference
finds the one that starts with it and an equals sign; so a reference with an equals sign in it
stands for the end of a value. -/
def refer (environment : String → Option String) (reference : String) : Option String :=
  let name := reference.toList.takeWhile (· != '=')
  match reference.toList.dropWhile (· != '=') with
  | [] => environment reference
  | _ :: start => do
    let value ← environment (String.ofList name)
    (after? (start ++ ['=']) value.toList).map String.ofList

/-- The environment with the entries added below it and below the bindings of earlier ones, up to
the first malformed one.  A value with a null character in it cannot be added. -/
def addEntries (environment : String → Option String) : List (List Char) → Bindings → Extended
  | [], acc => ⟨below environment acc, none⟩
  | entry :: rest, acc =>
    match readEntry (refer (below environment acc)) entry with
    | .blank => addEntries environment rest acc
    | .binding name value =>
      if (below environment acc name).isSome then addEntries environment rest acc
      else if value.toList.contains '\x00' then ⟨below environment acc, some .unusableValue⟩
      else addEntries environment rest ((name, value) :: acc)
    | .malformed => ⟨below environment acc, none⟩

/-- The environment with a variable file added below it. -/
def extend (environment : String → Option String) (text? : Option String) : Extended :=
  match text? with
  | none => ⟨environment, none⟩
  | some text => addEntries environment (entries text) []

/-- The names that the entries of a text may bind. -/
def bound (text : String) : List String :=
  (entries text).filterMap fun entry => (splitEntry (trim entry)).map (·.1)

/-- The names that the references after dollar signs in a text start with. -/
def mentioned : List Char → List String
  | [] => []
  | c :: rest =>
    if c = '$' then
      let name := match rest with
        | '\x7b' :: braced => braced.takeWhile fun c => c != '\x7d' && c != '='
        | _ => rest.takeWhile isWordChar
      String.ofList name :: mentioned rest
    else mentioned rest

end CurveFit.DotEnv
