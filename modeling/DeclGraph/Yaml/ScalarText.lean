import DeclGraph.Numeral.Digits
import DeclGraph.Text.Surrogate
import DeclGraph.Yaml.Token

/-!
The text of a scalar: plain, quoted, or a block that keeps or folds its lines. Each function takes the
place where the scalar starts and gives its text and the place after it. Loops over lines carry fuel;
the length of the remaining text is always enough.
-/

namespace DeclGraph.Yaml

/-- Line breaks with the blanks around them, as far as they go. Fails at a document separator. -/
def quotedBreaks : Nat → Cursor → Except Failure (List Char × Cursor)
  | 0, _ => .error .malformed
  | fuel + 1, cursor =>
    if cursor.atSeparator then .error .malformed
    else
      let after := cursor.skip fun c => c = ' ' || c = '\t'
      match after.lineBreak? with
      | none => .ok ([], after)
      | some (c, next) => do
        let (more, last) ← quotedBreaks fuel next
        pure (c :: more, last)

/-- What a run of line breaks leaves: one break folds to a blank, further ones stay. -/
def foldBreaks (first : Char) (more : List Char) : List Char :=
  (if first ≠ '\n' then [first] else if more.isEmpty then [' '] else []) ++ more

def quotedSpaces (cursor : Cursor) : Except Failure (List Char × Cursor) :=
  let (blanks, after) := cursor.span fun c => c = ' ' || c = '\t'
  if after.rest.isEmpty then .error .cutShort
  else
    match after.lineBreak? with
    | none => .ok (blanks, after)
    | some (c, next) => do
      let (more, last) ← quotedBreaks (next.rest.length + 1) next
      pure (foldBreaks c more, last)

def escapeImage? (c : Char) : Option Char :=
  match c with
  | '0' => some '\x00'
  | 'a' => some '\x07'
  | 'b' => some '\x08'
  | 't' => some '\t'
  | '\t' => some '\t'
  | 'n' => some '\n'
  | 'v' => some '\x0b'
  | 'f' => some '\x0c'
  | 'r' => some '\r'
  | 'e' => some '\x1b'
  | ' ' => some ' '
  | '"' => some '"'
  | '\\' => some '\\'
  | '/' => some '/'
  | 'N' => some '\x85'
  | '_' => some '\xa0'
  | 'L' => some '\u2028'
  | 'P' => some '\u2029'
  | _ => none

def escapeWidth? (c : Char) : Option Nat :=
  match c with
  | 'x' => some 2
  | 'u' => some 4
  | 'U' => some 8
  | _ => none

def codeChar (code : Nat) : Except Failure Char :=
  if 0x80000000 ≤ code then .error (.unusable (.tooLarge .word))
  else if 0x110000 ≤ code then
    .error (.unusable (.unacceptable "chr() arg not in range(0x110000)"))
  else .ok (Text.ofCode code)

def escapeText (cursor : Cursor) : Except Failure (List Char × Cursor) :=
  let c := cursor.peek
  match escapeImage? c with
  | some image => .ok ([image], cursor.next)
  | none =>
    match escapeWidth? c with
    | some width =>
      let digits := cursor.next.rest.take width
      match (if digits.length = width then Numeral.hexNumber? digits else none) with
      | some code => do
        let image ← codeChar code
        pure ([image], cursor.next.forward width)
      | none => .error .malformed
    | none =>
      match cursor.lineBreak? with
      | some (_, next) => quotedBreaks (next.rest.length + 1) next
      | none => .error .malformed

-- The rest of a quoted scalar, up to its closing quote.
def quotedRest (double : Bool) : Nat → Cursor → Except Failure (List Char × Cursor)
  | 0, _ => .error .malformed
  | fuel + 1, cursor =>
    let onward (text : List Char) (next : Cursor) : Except Failure (List Char × Cursor) := do
      let (more, last) ← quotedRest double fuel next
      pure (text ++ more, last)
    match cursor.rest with
    | [] => .error .cutShort
    | c :: rest =>
      if isGapOrEnd c then do
        let (text, next) ← quotedSpaces cursor
        onward text next
      else if double then
        if c = '"' then .ok ([], cursor.next)
        else if c = '\\' then do
          let (text, next) ← escapeText cursor.next
          onward text next
        else onward [c] cursor.next
      else if c = '\'' then
        if rest.head? = some '\'' then onward ['\''] (cursor.forward 2) else .ok ([], cursor.next)
      else onward [c] cursor.next

def quotedText (double : Bool) (cursor : Cursor) : Except Failure (List Char × Cursor) :=
  quotedRest double (cursor.rest.length + 1) cursor.next

inductive Chomping where
  | strip
  | clip
  | keep
  deriving DecidableEq, Inhabited

def chomping? (c : Char) : Option Chomping :=
  if c = '+' then some .keep else if c = '-' then some .strip else none

def increment? (c : Char) : Except Failure (Option Nat) :=
  if '0' ≤ c ∧ c ≤ '9' then
    if c = '0' then .error .malformed else .ok (some (c.toNat - '0'.toNat))
  else .ok none

def blockHeader (cursor : Cursor) : Except Failure (Chomping × Option Nat × Cursor) := do
  let (chomping, increment, after) ← match chomping? cursor.peek with
    | some chomping => do
      let increment ← increment? cursor.next.peek
      pure (chomping, increment, if increment.isSome then cursor.forward 2 else cursor.next)
    | none => do
      match ← increment? cursor.peek with
      | none => pure (.clip, none, cursor)
      | some increment =>
        match chomping? cursor.next.peek with
        | some chomping => pure (chomping, some increment, cursor.forward 2)
        | none => pure (.clip, some increment, cursor.next)
  if isSpaceOrEnd after.peek then pure (chomping, increment, after) else throw .malformed

def blockIndentation : Nat → Cursor → Nat → List Char × Nat × Cursor
  | 0, cursor, deepest => ([], deepest, cursor)
  | fuel + 1, cursor, deepest =>
    if cursor.peek = ' ' then
      let next := cursor.next
      blockIndentation fuel next (max deepest next.column)
    else
      match cursor.lineBreak? with
      | none => ([], deepest, cursor)
      | some (c, next) =>
        let (more, deepest, last) := blockIndentation fuel next deepest
        (c :: more, deepest, last)

def skipIndent : Nat → Nat → Cursor → Cursor
  | 0, _, cursor => cursor
  | fuel + 1, indent, cursor =>
    if cursor.column < indent ∧ cursor.peek = ' ' then skipIndent fuel indent cursor.next else cursor

def blockBreaks (indent : Nat) : Nat → Cursor → List Char × Cursor
  | 0, cursor => ([], cursor)
  | fuel + 1, cursor =>
    let after := skipIndent indent indent cursor
    match after.lineBreak? with
    | none => ([], after)
    | some (c, next) =>
      let (more, last) := blockBreaks indent fuel next
      (c :: more, last)

/-- The lines of a block and what its end leaves. `breaks` holds the empty lines before this place. -/
def blockLines (folded : Bool) (chomping : Chomping) (indent : Nat) :
    Nat → List Char → Cursor → List Char × Cursor
  | 0, _, cursor => ([], cursor)
  | fuel + 1, breaks, cursor =>
    let startsSolid := !(cursor.peek = ' ' || cursor.peek = '\t')
    let (line, atEnd) := cursor.span fun c => !isBreakOrEnd c
    let (ending, next) := match atEnd.lineBreak? with
      | some (c, next) => ([c], next)
      | none => ([], atEnd)
    let (empty, after) := blockBreaks indent (next.rest.length + 1) next
    if after.column = indent ∧ ¬after.rest.isEmpty then
      let glue :=
        if folded && ending = ['\n'] && startsSolid && !(after.peek = ' ' || after.peek = '\t') then
          if empty.isEmpty then [' '] else []
        else ending
      let (more, last) := blockLines folded chomping indent fuel empty after
      (breaks ++ line ++ glue ++ more, last)
    else
      let tail := match chomping with
        | .strip => []
        | .clip => ending
        | .keep => ending ++ empty
      (breaks ++ line ++ tail, after)

def blockText (folded : Bool) (parent : Int) (cursor : Cursor) :
    Except Failure (List Char × Cursor) := do
  let (chomping, increment, afterHeader) ← blockHeader cursor.next
  let start ← afterHeader.endOfLine
  let least := max 1 (parent + 1).toNat
  let fuel := start.rest.length + 1
  let (breaks, indent, first) := match increment with
    | none =>
      let (breaks, deepest, first) := blockIndentation fuel start 0
      (breaks, max least deepest, first)
    | some increment =>
      let indent := least + increment - 1
      let (breaks, first) := blockBreaks indent fuel start
      (breaks, indent, first)
  if first.column = indent ∧ ¬first.rest.isEmpty then
    pure (blockLines folded chomping indent (first.rest.length + 1) breaks first)
  else pure (if chomping = .keep then breaks else [], first)

def endsPlain (inFlow : Bool) (c following : Char) : Bool :=
  isGapOrEnd c
    || (c = ':' && (isGapOrEnd following || (inFlow && following ∈ [',', '[', ']', '\x7b', '\x7d'])))
    || (inFlow && c ∈ [',', '?', '[', ']', '\x7b', '\x7d'])

def plainWord (inFlow : Bool) : List Char → List Char
  | [] => []
  | c :: rest =>
    if endsPlain inFlow c (rest.headD '\x00') then [] else c :: plainWord inFlow rest

/-- Empty lines between the lines of a plain scalar; nothing if a document separator follows. -/
def plainBreaks : Nat → Cursor → Option (List Char × Cursor) × Cursor
  | 0, cursor => (none, cursor)
  | fuel + 1, cursor =>
    if cursor.peek = ' ' then plainBreaks fuel cursor.next
    else
      match cursor.lineBreak? with
      | none => (some ([], cursor), cursor)
      | some (c, next) =>
        if next.atSeparator then (none, next)
        else
          let (more, last) := plainBreaks fuel next
          (more.map fun (breaks, last) => (c :: breaks, last), last)

/-- What stands between two words of a plain scalar: the glue, whether a line ended, and the place
after. No glue means that the scalar is over. -/
def plainSpaces (cursor : Cursor) : List Char × Bool × Cursor :=
  let (blanks, after) := cursor.span (· = ' ')
  match after.lineBreak? with
  | none => (blanks, false, after)
  | some (c, next) =>
    if next.atSeparator then ([], true, next)
    else
      match plainBreaks (next.rest.length + 1) next with
      | (some (breaks, last), _) => (foldBreaks c breaks, true, last)
      | (none, last) => ([], true, last)

/-- A plain scalar: its text, whether a line ended after its last word, and the place after. -/
def plainRest (inFlow : Bool) (indent : Int) :
    Nat → List Char → Bool → Cursor → List Char × Bool × Cursor
  | 0, _, lineEnded, cursor => ([], lineEnded, cursor)
  | fuel + 1, glue, lineEnded, cursor =>
    let word := plainWord inFlow cursor.rest
    if cursor.peek = '#' ∨ word.isEmpty then ([], lineEnded, cursor)
    else
      let (spaces, ended, after) := plainSpaces (cursor.forward word.length)
      if spaces.isEmpty ∨ after.peek = '#' ∨ (¬inFlow ∧ Int.ofNat after.column < indent) then
        (glue ++ word, ended, after)
      else
        let (more, lastEnded, last) := plainRest inFlow indent fuel spaces ended after
        (glue ++ word ++ more, lastEnded, last)

def plainText (inFlow : Bool) (parent : Int) (cursor : Cursor) : List Char × Bool × Cursor :=
  plainRest inFlow (parent + 1) (cursor.rest.length + 1) [] false cursor

end DeclGraph.Yaml
