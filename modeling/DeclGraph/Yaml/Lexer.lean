import DeclGraph.Yaml.ScalarText

/-!
Splits a YAML text into tokens. Indentation opens and closes blocks. A scalar or a bracket that is
followed by `: ` on the same line turns out to be a key only then, so for each bracket level the place
of the last candidate is kept and the key token is put in front of it afterwards. No more of the text
is read than the next token needs.
-/

namespace DeclGraph.Yaml

structure Candidate where
  /-- The bracket level it stands at. -/
  level : Nat
  /-- The number of tokens before it. -/
  position : Nat
  /-- It stands where a block mapping needs a key. -/
  required : Bool
  index : Nat
  line : Nat
  column : Nat
  deriving Inhabited

structure Lexer where
  cursor : Cursor
  /-- Why the text goes no further, if it was not read to its end. -/
  ending : Option Failure := none
  tokens : Array Token := #[]
  /-- Tokens that were taken. -/
  taken : Nat := 0
  /-- All tokens were read. -/
  done : Bool := false
  /-- Open brackets. -/
  level : Nat := 0
  /-- The column of the innermost block, -1 outside of blocks. -/
  indent : Int := -1
  /-- The columns of the blocks around it. -/
  outer : List Int := []
  /-- A key may start here. -/
  keyAllowed : Bool := true
  candidates : List Candidate := []
  deriving Inhabited

namespace Lexer

/-- How far a key may be from its colon. -/
def keyReach : Nat := 1024

def inFlow (lexer : Lexer) : Bool := lexer.level ≠ 0

def push (lexer : Lexer) (token : Token) : Lexer := { lexer with tokens := lexer.tokens.push token }

def moveTo (lexer : Lexer) (cursor : Cursor) : Lexer := { lexer with cursor }

def forward (lexer : Lexer) (count : Nat) : Lexer := lexer.moveTo (lexer.cursor.forward count)

/-- A candidate can no longer be a key: its line is over, or the colon is too far. -/
def isStale (cursor : Cursor) (candidate : Candidate) : Bool :=
  candidate.line ≠ cursor.line || keyReach < cursor.index - candidate.index

-- Drops the candidates that a test picks; a required one cannot be dropped.
def drop (lexer : Lexer) (test : Candidate → Bool) : Except Failure Lexer :=
  if lexer.candidates.any fun candidate => test candidate && candidate.required then .error .malformed
  else .ok { lexer with candidates := lexer.candidates.filter fun candidate => !test candidate }

def dropStale (lexer : Lexer) : Except Failure Lexer := lexer.drop (isStale lexer.cursor)

def dropHere (lexer : Lexer) : Except Failure Lexer :=
  lexer.drop fun candidate => candidate.level = lexer.level

def offer (lexer : Lexer) : Except Failure Lexer :=
  if !lexer.keyAllowed then .ok lexer
  else do
    let cleared ← lexer.dropHere
    let candidate : Candidate :=
      { level := lexer.level
        position := lexer.tokens.size
        required := !lexer.inFlow && decide (lexer.indent = Int.ofNat lexer.cursor.column)
        index := lexer.cursor.index
        line := lexer.cursor.line
        column := lexer.cursor.column }
    pure { cleared with candidates := candidate :: cleared.candidates }

def unwind (column : Int) : List Int → Int → Array Token → List Int × Int × Array Token
  | [], indent, tokens => ([], indent, tokens)
  | around :: outer, indent, tokens =>
    if column < indent then unwind column outer around (tokens.push .blockEnd)
    else (around :: outer, indent, tokens)

/-- Closes the blocks that are deeper than a column; brackets keep them open. -/
def closeBlocks (lexer : Lexer) (column : Int) : Lexer :=
  if lexer.inFlow then lexer
  else
    let (outer, indent, tokens) := unwind column lexer.outer lexer.indent lexer.tokens
    { lexer with outer, indent, tokens }

-- Opens a block at a column that is deeper than the innermost one; the token goes to a position.
def openBlock (lexer : Lexer) (column : Nat) (position : Nat) (token : Token) : Lexer :=
  if lexer.indent < Int.ofNat column then
    { lexer with
      outer := lexer.indent :: lexer.outer
      indent := Int.ofNat column
      tokens := lexer.tokens.insertIdxIfInBounds position token }
  else lexer

/-- Goes to the next token, past blanks, comments and line breaks. A new line allows a key. -/
def skipGap (lexer : Lexer) : Nat → Lexer
  | 0 => lexer
  | fuel + 1 =>
    let cursor := lexer.cursor.skipSpaces.skipComment
    match cursor.lineBreak? with
    | none => lexer.moveTo cursor
    | some (_, next) =>
      skipGap { lexer with cursor := next, keyAllowed := lexer.keyAllowed || !lexer.inFlow } fuel

/-- Ends all blocks and candidates in front of a marker at the start of a line. -/
def settle (lexer : Lexer) : Except Failure Lexer := do
  let settled ← (lexer.closeBlocks (-1)).dropHere
  pure { settled with keyAllowed := false }

def versionNumber (cursor : Cursor) : Except Failure (Nat × Cursor) :=
  let (digits, after) := cursor.span Char.isDigit
  if digits.isEmpty then .error .malformed
  else if Numeral.digitLimit < digits.length then
    .error (.unusable (.numeral (.tooManyDigits digits.length)))
  else .ok (Numeral.natOfDigits digits, after)

def versionDirective (cursor : Cursor) : Except Failure (Directive × Cursor) := do
  let (major, afterMajor) ← versionNumber cursor.skipSpaces
  if afterMajor.peek ≠ '.' then throw .malformed
  let (_, after) ← versionNumber afterMajor.next
  if !isSpaceOrEnd after.peek then throw .malformed
  pure (.version major, after)

def tagHandle (cursor : Cursor) : Except Failure (String × Cursor) :=
  if cursor.peek ≠ '!' then .error .malformed
  else if cursor.peekAt 1 = ' ' then .ok ("!", cursor.next)
  else
    let (word, after) := cursor.next.span isWordChar
    if after.peek = '!' then .ok (String.ofList ('!' :: word ++ ['!']), after.next)
    else .error .malformed

def isTagChar (c : Char) : Bool :=
  isWordChar c || c ∈ [';', '/', '?', ':', '@', '&', '=', '+', '$', ',', '.', '!', '~', '*', '\'', '(',
    ')', '[', ']']

def percentBytes : Nat → Cursor → Except Failure (List UInt8 × Cursor)
  | 0, cursor => .ok ([], cursor)
  | fuel + 1, cursor =>
    if cursor.peek ≠ '%' then .ok ([], cursor)
    else
      let digits := cursor.next.rest.take 2
      match (if digits.length = 2 then Numeral.hexNumber? digits else none) with
      | none => .error .malformed
      | some byte => do
        let (more, last) ← percentBytes fuel (cursor.forward 3)
        pure (byte.toUInt8 :: more, last)

def tagSuffix : Nat → Cursor → Except Failure (List Char × Cursor)
  | 0, cursor => .ok ([], cursor)
  | fuel + 1, cursor =>
    if cursor.peek = '%' then do
      let (bytes, after) ← percentBytes (cursor.rest.length + 1) cursor
      match String.fromUTF8? (ByteArray.mk bytes.toArray) with
      | none => throw .malformed
      | some text =>
        let (more, last) ← tagSuffix fuel after
        pure (text.toList ++ more, last)
    else if isTagChar cursor.peek then do
      let (more, last) ← tagSuffix fuel cursor.next
      pure (cursor.peek :: more, last)
    else .ok ([], cursor)

def tagUri (cursor : Cursor) : Except Failure (String × Cursor) := do
  let (text, after) ← tagSuffix (cursor.rest.length + 1) cursor
  if text.isEmpty ∧ after.index = cursor.index then throw .malformed
  pure (String.ofList text, after)

def tagDirective (cursor : Cursor) : Except Failure (Directive × Cursor) := do
  let (handle, afterHandle) ← tagHandle cursor.skipSpaces
  if afterHandle.peek ≠ ' ' then throw .malformed
  let (start, after) ← tagUri afterHandle.skipSpaces
  if !isSpaceOrEnd after.peek then throw .malformed
  pure (.tagHandle handle start, after)

def directive (cursor : Cursor) : Except Failure (Directive × Cursor) := do
  let (name, after) := cursor.next.span isWordChar
  if name.isEmpty ∨ ¬isSpaceOrEnd after.peek then throw .malformed
  let (value, last) ← match String.ofList name with
    | "YAML" => versionDirective after
    | "TAG" => tagDirective after
    | _ => pure (Directive.unknown, after.skip fun c => !isBreakOrEnd c)
  pure (value, ← last.endOfLine)

def anchorName (cursor : Cursor) : Except Failure (String × Cursor) :=
  let (name, after) := cursor.next.span isWordChar
  if name.isEmpty then .error .malformed
  else if isGapOrEnd after.peek || after.peek ∈ ['?', ':', ',', ']', '\x7d', '%', '@', '\x60'] then
    .ok (String.ofList name, after)
  else .error .malformed

def hasHandle (cursor : Cursor) : Bool :=
  (cursor.rest.drop 1).takeWhile (fun c => !isSpaceOrEnd c) |>.contains '!'

def tagText (cursor : Cursor) : Except Failure (TagText × Cursor) := do
  let (text, after) ←
    if cursor.peekAt 1 = '<' then do
      let (suffix, after) ← tagUri (cursor.forward 2)
      if after.peek ≠ '>' then throw .malformed
      pure (TagText.mk none suffix, after.next)
    else if isGapOrEnd (cursor.peekAt 1) then pure (TagText.mk none "!", cursor.next)
    else if hasHandle cursor then do
      let (handle, afterHandle) ← tagHandle cursor
      let (suffix, after) ← tagUri afterHandle
      pure (TagText.mk (some handle) suffix, after)
    else do
      let (suffix, after) ← tagUri cursor.next
      pure (TagText.mk (some "!") suffix, after)
  if isSpaceOrEnd after.peek then pure (text, after) else throw .malformed

def fetchEnd (lexer : Lexer) : Except Failure Lexer := do
  let settled ← lexer.settle
  pure { settled.push .streamEnd with candidates := [], done := true }

def fetchDirective (lexer : Lexer) : Except Failure Lexer := do
  let settled ← lexer.settle
  let (value, after) ← directive settled.cursor
  pure ((settled.push (.directive value)).moveTo after)

def fetchMarker (lexer : Lexer) (token : Token) : Except Failure Lexer := do
  let settled ← lexer.settle
  pure ((settled.push token).forward 3)

def fetchOpen (lexer : Lexer) (token : Token) : Except Failure Lexer := do
  let offered ← lexer.offer
  pure { (offered.push token).forward 1 with level := lexer.level + 1, keyAllowed := true }

def fetchClose (lexer : Lexer) (token : Token) : Except Failure Lexer := do
  if !lexer.inFlow then throw .malformed
  let cleared ← lexer.dropHere
  pure { (cleared.push token).forward 1 with level := lexer.level - 1, keyAllowed := false }

def fetchFlowEntry (lexer : Lexer) : Except Failure Lexer := do
  let cleared ← lexer.dropHere
  pure { (cleared.push .flowEntry).forward 1 with keyAllowed := true }

def fetchBlockEntry (lexer : Lexer) : Except Failure Lexer := do
  if !lexer.inFlow && !lexer.keyAllowed then throw .malformed
  let opened :=
    if lexer.inFlow then lexer
    else lexer.openBlock lexer.cursor.column lexer.tokens.size .blockSequenceStart
  let cleared ← opened.dropHere
  pure { (cleared.push .blockEntry).forward 1 with keyAllowed := true }

def fetchKey (lexer : Lexer) : Except Failure Lexer := do
  if !lexer.inFlow && !lexer.keyAllowed then throw .malformed
  let opened :=
    if lexer.inFlow then lexer
    else lexer.openBlock lexer.cursor.column lexer.tokens.size .blockMappingStart
  let cleared ← opened.dropHere
  pure { (cleared.push .key).forward 1 with keyAllowed := !lexer.inFlow }

/-- The colon of a value. The candidate of this level, if there is one, is its key. -/
def fetchValue (lexer : Lexer) : Except Failure Lexer := do
  match lexer.candidates.find? fun candidate => candidate.level = lexer.level with
  | some candidate =>
    let marked : Lexer :=
      { lexer with
        candidates := lexer.candidates.filter fun other => other.level ≠ lexer.level
        tokens := lexer.tokens.insertIdxIfInBounds candidate.position .key }
    let opened :=
      if lexer.inFlow then marked
      else marked.openBlock candidate.column candidate.position .blockMappingStart
    pure { (opened.push .value).forward 1 with keyAllowed := false }
  | none =>
    if !lexer.inFlow && !lexer.keyAllowed then throw .malformed
    let opened :=
      if lexer.inFlow then lexer
      else lexer.openBlock lexer.cursor.column lexer.tokens.size .blockMappingStart
    let cleared ← opened.dropHere
    pure { (cleared.push .value).forward 1 with keyAllowed := !lexer.inFlow }

def fetchOffered (lexer : Lexer) (read : Cursor → Except Failure (Token × Cursor)) :
    Except Failure Lexer := do
  let offered ← lexer.offer
  let (token, after) ← read offered.cursor
  pure { (offered.push token).moveTo after with keyAllowed := false }

def fetchBlockScalar (lexer : Lexer) (folded : Bool) : Except Failure Lexer := do
  let cleared ← lexer.dropHere
  let (text, after) ← blockText folded lexer.indent cleared.cursor
  pure { (cleared.push (.scalar (String.ofList text) false)).moveTo after with keyAllowed := true }

def fetchQuoted (lexer : Lexer) (double : Bool) : Except Failure Lexer :=
  lexer.fetchOffered fun cursor => do
    let (text, after) ← quotedText double cursor
    pure (.scalar (String.ofList text) false, after)

def fetchPlain (lexer : Lexer) : Except Failure Lexer := do
  let offered ← lexer.offer
  let (text, lineEnded, after) := plainText lexer.inFlow lexer.indent offered.cursor
  pure { (offered.push (.scalar (String.ofList text) true)).moveTo after with keyAllowed := lineEnded }

def startsPlain (lexer : Lexer) (c following : Char) : Bool :=
  !(isGapOrEnd c || c ∈ ['-', '?', ':', ',', '[', ']', '\x7b', '\x7d', '#', '&', '*', '!', '|', '>',
      '\'', '"', '%', '@', '\x60'])
    || (!isGapOrEnd following && (c = '-' || (!lexer.inFlow && (c = '?' || c = ':'))))

def fetchAt (lexer : Lexer) (c following : Char) : Except Failure Lexer :=
  let cursor := lexer.cursor
  let indicates := lexer.inFlow || isGapOrEnd following
  if c = '%' && cursor.column = 0 then lexer.fetchDirective
  else if cursor.column = 0 && c = '-' && cursor.atSeparator then lexer.fetchMarker .documentStart
  else if cursor.column = 0 && c = '.' && cursor.atSeparator then lexer.fetchMarker .documentEnd
  else if c = '[' then lexer.fetchOpen .flowSequenceStart
  else if c = '\x7b' then lexer.fetchOpen .flowMappingStart
  else if c = ']' then lexer.fetchClose .flowSequenceEnd
  else if c = '\x7d' then lexer.fetchClose .flowMappingEnd
  else if c = ',' then lexer.fetchFlowEntry
  else if c = '-' && isGapOrEnd following then lexer.fetchBlockEntry
  else if c = '?' && indicates then lexer.fetchKey
  else if c = ':' && indicates then lexer.fetchValue
  else if c = '*' then
    lexer.fetchOffered fun cursor => do
      let (name, after) ← anchorName cursor
      pure (.alias name, after)
  else if c = '&' then
    lexer.fetchOffered fun cursor => do
      let (name, after) ← anchorName cursor
      pure (.anchor name, after)
  else if c = '!' then
    lexer.fetchOffered fun cursor => do
      let (text, after) ← tagText cursor
      pure (.tag text, after)
  else if c = '|' && !lexer.inFlow then lexer.fetchBlockScalar false
  else if c = '>' && !lexer.inFlow then lexer.fetchBlockScalar true
  else if c = '\'' then lexer.fetchQuoted false
  else if c = '"' then lexer.fetchQuoted true
  else if lexer.startsPlain c following then lexer.fetchPlain
  else .error .malformed

def fetch (lexer : Lexer) : Except Failure Lexer := do
  let reached := lexer.skipGap (lexer.cursor.rest.length + 1)
  match reached.cursor.rest, reached.ending with
  | [], some failure => throw failure
  | rest, _ =>
    let placed ← reached.dropStale
    let ready := placed.closeBlocks (Int.ofNat placed.cursor.column)
    match rest with
    | [] => ready.fetchEnd
    | c :: more => ready.fetchAt c (more.headD '\x00')

def settleNext : Nat → Lexer → Except Failure Lexer
  | 0, lexer => .ok lexer
  | fuel + 1, lexer => do
    if lexer.done then pure lexer
    else if lexer.taken < lexer.tokens.size then
      let kept ← lexer.dropStale
      if kept.candidates.any fun candidate => candidate.position = kept.taken then
        settleNext fuel (← kept.fetch)
      else pure kept
    else settleNext fuel (← lexer.fetch)

/-- The next token, read as far as it needs. Each token takes up text, so its length bounds the
reading. A text cut short inside a token ends for the reason it was cut. -/
def next (lexer : Lexer) : Except Failure (Token × Lexer) :=
  match settleNext (lexer.cursor.rest.length + 2) lexer with
  | .ok settled => .ok (settled.tokens.getD settled.taken .streamEnd, settled)
  | .error .cutShort => .error (lexer.ending.getD .malformed)
  | .error failure => .error failure

def advance (lexer : Lexer) : Lexer := { lexer with taken := lexer.taken + 1 }

/-- The state before the first token. A byte-order mark in front is passed over. -/
def start (chars : List Char) (ending : Option Failure) : Lexer :=
  let cursor : Cursor := { rest := chars }
  { cursor := if cursor.peek = '\ufeff' then cursor.next else cursor, ending }

end Lexer

end DeclGraph.Yaml
