import DeclGraph.Rows
import DeclGraph.Text.DecimalDigit

/-!
Command lines by a grammar of options and positions. An option may be shortened as long as it stays
unambiguous, its value may follow after `=` or as the next word, and after `--` every word is a value.
-/

namespace DeclGraph.CommandLine

inductive Exit where
  /-- The words do not fit the grammar. -/
  | usage
  | help
  deriving DecidableEq, Repr, Inhabited

def Exit.status : Exit → Nat
  | usage => 2
  | help => 0

inductive Arity where
  | one
  | oneOrMore
  | anyNumber
  /-- All words that follow, options included. -/
  | everything
  deriving DecidableEq, Repr, Inhabited

/-- An option with its name. Without a reader it takes no value; the reader may refuse a value. -/
structure Opt where
  name : String
  reader : Option (String → Option String)

structure Position where
  name : String
  arity : Arity

structure Grammar where
  options : List Opt
  positions : List Position

inductive Word where
  | option (option : Opt) (attached : Option String)
  | help (short : Bool) (attached : Option String)
  | unknownOption
  | value (text : String)
  | separator
  deriving Inhabited

abbrev Found := Rows (List String)

/-- A number with a minus sign, in digits of any script. A line break at the end does not count. -/
def isNegativeNumber (cs : List Char) : Bool :=
  match if cs.getLast? = some '\n' then cs.dropLast else cs with
  | '-' :: rest =>
    let whole := rest.takeWhile Text.isDecimalDigit
    match rest.dropWhile Text.isDecimalDigit with
    | [] => !whole.isEmpty
    | '.' :: fraction => !fraction.isEmpty && fraction.all Text.isDecimalDigit
    | _ => false
  | _ => false

def splitAttached (cs : List Char) : List Char × Option String :=
  match cs.dropWhile (· ≠ '=') with
  | [] => (cs, none)
  | _ :: value => (cs.takeWhile (· ≠ '='), some (String.ofList value))

namespace Grammar

/-- The options that have a name or, if `exact` is not set, a longer name that starts like it. -/
def matching (grammar : Grammar) (exact : Bool) (name : List Char) :
    List (Option String → Word) :=
  let fits (full : String) : Bool :=
    if exact then full.toList = name else name.isPrefixOf full.toList
  (if fits "--help" then [Word.help false] else [])
    ++ (grammar.options.filter fun option => fits option.name).map Word.option

def dashed (grammar : Grammar) (cs : List Char) : Except Exit Word :=
  let (name, attached) := splitAttached cs
  match grammar.matching true cs with
  | make :: _ => .ok (make none)
  | [] =>
    if cs = ['-', 'h'] then .ok (.help true none)
    else if cs = ['-'] then .ok (.value "-")
    else
      match attached, grammar.matching true name with
      | some value, make :: _ => .ok (make (some value))
      | _, _ =>
        if name = ['-', 'h'] then .ok (.help true attached)
        else
          match cs with
          | '-' :: '-' :: _ =>
            match grammar.matching false name with
            | [make] => .ok (make attached)
            | [] => .ok (loose cs)
            | _ => .error .usage
          | '-' :: 'h' :: rest => .ok (.help true (some (String.ofList rest)))
          | _ => .ok (loose cs)
where
  /-- A word that is no known option: a number or a text with a blank is a value. -/
  loose (cs : List Char) : Word :=
    if isNegativeNumber cs || ' ' ∈ cs then .value (String.ofList cs) else .unknownOption

def classify (grammar : Grammar) : List String → Except Exit (List (Word × String))
  | [] => .ok []
  | text :: rest =>
    if text = "--" then .ok ((.separator, text) :: rest.map fun word => (.value word, word))
    else do
      let word ← if text.toList.head? = some '-' then grammar.dashed text.toList else pure (.value text)
      let more ← grammar.classify rest
      pure ((word, text) :: more)

end Grammar

def Word.isValue : Word → Bool
  | .value _ => true
  | _ => false

-- The word is an option, known or not.
def Word.isOption : Word → Bool
  | .option .. | .help .. | .unknownOption => true
  | _ => false

abbrev Words := List (Word × String)

def isPlain (word : Word × String) : Bool := !word.1.isOption

def Arity.take? (arity : Arity) (words : Words) : Option Nat :=
  let isSeparator (word : Word × String) : Bool := !word.1.isOption && !word.1.isValue
  let lead := (words.takeWhile isSeparator).length
  let after := words.drop lead
  match arity with
  | .anyNumber => some (words.takeWhile isPlain).length
  | .one =>
    match after with
    | first :: rest => if first.1.isValue then some (lead + 1 + (rest.takeWhile isSeparator).length) else none
    | [] => none
  | .oneOrMore =>
    match after with
    | first :: rest => if first.1.isValue then some (lead + 1 + (rest.takeWhile isPlain).length) else none
    | [] => none
  | .everything =>
    match after with
    | first :: _ => if first.1.isValue then some words.length else none
    | [] => none

/-- The texts of words; the separator is left out except where a position takes everything. -/
def textsFor (arity : Arity) (words : Words) : List String :=
  let texts := words.map (·.2)
  if arity = .everything then texts else texts.erase "--"

-- Fills positions from the next words, as many as fit.
def fillPositions : List Position → Words → Found → List Position × Words × Found
  | [], words, found => ([], words, found)
  | position :: rest, words, found =>
    match position.arity.take? words with
    | none => (position :: rest, words, found)
    | some count =>
      fillPositions rest (words.drop count)
        (Rows.set found position.name (textsFor position.arity (words.take count)))

def takeOption (word : Word) (rest : Words) (found : Found) : Except Exit (Words × Found × Bool) :=
  match word with
  | .unknownOption => .ok (rest, found, true)
  | .help short attached =>
    match attached with
    | none => .error .help
    | some text =>
      if short && text ≠ "" && text.toList.all (· = 'h') then .error .help else .error .usage
  | .option option attached =>
    match option.reader, attached with
    | none, none => .ok (rest, Rows.append found option.name "", false)
    | none, some _ => .error .usage
    | some reader, some text =>
      match reader text with
      | some value => .ok (rest, Rows.append found option.name value, false)
      | none => .error .usage
    | some reader, none =>
      match rest with
      | (.value text, _) :: after =>
        match reader text with
        | some value => .ok (after, Rows.append found option.name value, false)
        | none => .error .usage
      | _ => .error .usage
  | _ => .ok (rest, found, true)

structure Arranged where
  found : Found
  complete : Bool

/-- Goes through the words. `extra` tells that some word found no place. -/
def arrange : Nat → List Position → Words → Found → Bool → Except Exit Arranged
  | 0, _, _, _, _ => .error .usage
  | fuel + 1, positions, words, found, extra =>
    if words.any fun word => word.1.isOption then
      match words with
      | [] => .error .usage
      | (word, _) :: rest =>
        if word.isOption then do
          let (after, found, unknown) ← takeOption word rest found
          arrange fuel positions after found (extra || unknown)
        else
          let (left, after, found) := fillPositions positions words found
          if after.length < words.length then arrange fuel left after found extra
          else arrange fuel left (after.dropWhile isPlain) found true
    else
      let (left, after, found) := fillPositions positions words found
      .ok ⟨found, left.isEmpty && after.isEmpty && !extra⟩

def Grammar.arranged (grammar : Grammar) (words : List String) : Except Exit Arranged := do
  let classified ← grammar.classify words
  arrange (2 * words.length + 2) grammar.positions classified [] false

def Grammar.parse (grammar : Grammar) (words : List String) : Except Exit Found := do
  let arranged ← grammar.arranged words
  if arranged.complete then pure arranged.found else throw .usage

def Found.last? (found : Found) (name : String) : Option String :=
  (List.lookup name found).bind List.getLast?

def Found.all (found : Found) (name : String) : List String := (List.lookup name found).getD []

end DeclGraph.CommandLine
