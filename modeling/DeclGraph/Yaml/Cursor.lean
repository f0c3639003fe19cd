import DeclGraph.Fault

/-!
A place in a YAML text: what is left, and how far it is from the beginning of the text and of the
line. Past the end stands a NUL, which no YAML text holds.
-/

namespace DeclGraph.Yaml

inductive Failure where
  /-- The text is not YAML, or asks for something that a plain document cannot hold. -/
  | malformed
  /-- A scalar does not spell what it should. -/
  | unusable (fault : Fault)
  /-- The text that could be read ends inside a token. -/
  | cutShort
  deriving Inhabited

structure Cursor where
  rest : List Char
  index : Nat := 0
  line : Nat := 0
  column : Nat := 0
  deriving Inhabited

def isBreak (c : Char) : Bool :=
  c = '\r' || c = '\n' || c = '\x85' || c = '\u2028' || c = '\u2029'

def isBreakOrEnd (c : Char) : Bool := c = '\x00' || isBreak c

def isSpaceOrEnd (c : Char) : Bool := c = ' ' || isBreakOrEnd c

def isGapOrEnd (c : Char) : Bool := c = '\t' || isSpaceOrEnd c

def isWordChar (c : Char) : Bool :=
  ('0' ≤ c && c ≤ '9') || ('A' ≤ c && c ≤ 'Z') || ('a' ≤ c && c ≤ 'z') || c = '-' || c = '_'

namespace Cursor

def peekAt (cursor : Cursor) (offset : Nat) : Char := cursor.rest.getD offset '\x00'

def peek (cursor : Cursor) : Char := cursor.peekAt 0

def next (cursor : Cursor) : Cursor :=
  match cursor.rest with
  | [] => cursor
  | c :: rest =>
    let endsLine := c = '\n' || c = '\x85' || c = '\u2028' || c = '\u2029'
      || (c = '\r' && rest.head? ≠ some '\n')
    if endsLine then ⟨rest, cursor.index + 1, cursor.line + 1, 0⟩
    else if c = '\ufeff' then ⟨rest, cursor.index + 1, cursor.line, cursor.column⟩
    else ⟨rest, cursor.index + 1, cursor.line, cursor.column + 1⟩

def forward (cursor : Cursor) : Nat → Cursor
  | 0 => cursor
  | count + 1 => cursor.next.forward count

def span (cursor : Cursor) (test : Char → Bool) : List Char × Cursor :=
  let taken := cursor.rest.takeWhile test
  (taken, cursor.forward taken.length)

def skip (cursor : Cursor) (test : Char → Bool) : Cursor := (cursor.span test).2

def skipSpaces (cursor : Cursor) : Cursor := cursor.skip (· = ' ')

def skipComment (cursor : Cursor) : Cursor :=
  if cursor.peek = '#' then cursor.skip fun c => !isBreakOrEnd c else cursor

-- A line break, joined to one character.
def lineBreak? (cursor : Cursor) : Option (Char × Cursor) :=
  match cursor.rest with
  | '\r' :: '\n' :: _ => some ('\n', cursor.forward 2)
  | c :: _ =>
    if c = '\r' || c = '\n' || c = '\x85' then some ('\n', cursor.next)
    else if c = '\u2028' || c = '\u2029' then some (c, cursor.next)
    else none
  | [] => none

/-- `---` or `...` followed by a gap. -/
def atSeparator (cursor : Cursor) : Bool :=
  let mark := cursor.rest.take 3
  (mark = ['-', '-', '-'] || mark = ['.', '.', '.']) && isGapOrEnd (cursor.peekAt 3)

def endOfLine (cursor : Cursor) : Except Failure Cursor :=
  let after := cursor.skipSpaces.skipComment
  if isBreakOrEnd after.peek then .ok ((after.lineBreak?.map (·.2)).getD after)
  else .error .malformed

end Cursor

end DeclGraph.Yaml
