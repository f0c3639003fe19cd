import DeclGraph.Yaml.Lexer
import DeclGraph.Yaml.Source
import DeclGraph.Yaml.Tag

/-!
The nodes of a YAML document, read from its tokens. Nodes are numbered and refer to their parts by
number, so an alias is the number of the node it names, and a collection may contain itself. Every step
of the reading takes up tokens or goes one level deeper, so the length of the text bounds it.
-/

namespace DeclGraph.Yaml

abbrev NodeId := Nat

inductive NodeContent where
  | scalar (text : String)
  | sequence (items : List NodeId)
  | mapping (pairs : List (NodeId × NodeId))
  deriving Inhabited

structure Node where
  tag : Tag
  content : NodeContent
  deriving Inhabited

structure NodeReader where
  lexer : Lexer
  nodes : Array Node := #[]
  anchors : List (String × NodeId) := []
  /-- What the tag handles stand for. -/
  handles : List (String × String) := []

abbrev Reading := StateT NodeReader (Except Failure)

namespace NodeReader

def defaultHandles : List (String × String) := [("!", "!"), ("!!", tagStart)]

def peek : Reading Token := do
  let (token, lexer) ← (← get).lexer.next
  modify fun reader => { reader with lexer }
  pure token

def advance : Reading Unit := modify fun reader => { reader with lexer := reader.lexer.advance }

def add (tag : Tag) (content : NodeContent) : Reading NodeId := do
  let number := (← get).nodes.size
  modify fun reader => { reader with nodes := reader.nodes.push ⟨tag, content⟩ }
  pure number

def emptyNode : Reading NodeId := add .null (.scalar "")

def properties : Reading (Option String × Option TagText) := do
  match ← peek with
  | .anchor name =>
    advance
    match ← peek with
    | .tag text => advance; pure (some name, some text)
    | _ => pure (some name, none)
  | .tag text =>
    advance
    match ← peek with
    | .anchor name => advance; pure (some name, some text)
    | _ => pure (none, some text)
  | _ => pure (none, none)

def fullTag (text : TagText) : Reading String := do
  match text.handle with
  | none => pure text.suffix
  | some handle =>
    match (← get).handles.lookup handle with
    | some start => pure (start ++ text.suffix)
    | none => throw .malformed

/-- The tag of a collection: the given one, or the usual one if none or `!` is given. -/
def collectionTag (tag : Option String) (usual : Tag) : Tag :=
  match tag with
  | none => usual
  | some text => if text = "!" then usual else Tag.ofText text

/-- The tag of a scalar. Without quotes, or under `!`, the text decides. -/
def scalarTag (tag : Option String) (plain : Bool) (text : String) : Tag :=
  match tag with
  | none => if plain then Tag.ofPlain text else .str
  | some name => if name = "!" then Tag.ofPlain text else Tag.ofText name

def closesBlockItem : Token → Bool
  | .blockEntry | .blockEnd => true
  | _ => false

def closesLooseItem : Token → Bool
  | .blockEntry | .key | .value | .blockEnd => true
  | _ => false

def closesBlockPart : Token → Bool
  | .key | .value | .blockEnd => true
  | _ => false

def closesFlowValue (square : Bool) : Token → Bool
  | .flowEntry => true
  | .flowSequenceEnd => square
  | .flowMappingEnd => !square
  | _ => false

def closesFlowKey (square : Bool) : Token → Bool
  | .value => true
  | token => closesFlowValue square token

-- Adds a node under an anchor, which has to be new.
def addAnchored (anchor : Option String) (tag : Tag) (content : NodeContent) : Reading NodeId := do
  match anchor with
  | none => add tag content
  | some name =>
    if ((← get).anchors.lookup name).isSome then throw .malformed
    let number ← add tag content
    modify fun reader => { reader with anchors := (name, number) :: reader.anchors }
    pure number

def addFilled (anchor : Option String) (tag : Tag) (empty : NodeContent) (read : Reading NodeContent) :
    Reading NodeId := do
  let number ← addAnchored anchor tag empty
  let content ← read
  modify fun reader => { reader with nodes := reader.nodes.setIfInBounds number ⟨tag, content⟩ }
  pure number

-- Adds a sequence, whose items are read after it is there.
def addSequence (anchor : Option String) (tag : Tag) (items : Reading (List NodeId)) : Reading NodeId :=
  addFilled anchor tag (.sequence []) (NodeContent.sequence <$> items)

-- Adds a mapping, whose pairs are read after it is there.
def addMapping (anchor : Option String) (tag : Tag) (pairs : Reading (List (NodeId × NodeId))) :
    Reading NodeId :=
  addFilled anchor tag (.mapping []) (NodeContent.mapping <$> pairs)

/-- What an anchor or a tag stands in front of when nothing follows; without either it is missing. -/
def addBare (anchor tag : Option String) : Reading NodeId :=
  if anchor.isSome || tag.isSome then addAnchored anchor (scalarTag tag true "") (.scalar "")
  else throw .malformed

mutual

/-- A node. Blocks are allowed outside brackets, lists without indentation as parts of a mapping. -/
def node (block loose : Bool) : Nat → Reading NodeId
  | 0 => throw .malformed
  | fuel + 1 => do
    match ← peek with
    | .alias name =>
      advance
      match (← get).anchors.lookup name with
      | some number => pure number
      | none => throw .malformed
    | _ =>
      let (anchor, tagText) ← properties
      let tag ← match tagText with
        | none => pure none
        | some text => some <$> fullTag text
      content block loose anchor tag fuel

def content (block loose : Bool) (anchor tag : Option String) : Nat → Reading NodeId
  | 0 => throw .malformed
  | fuel + 1 => do
    match ← peek with
    | .blockEntry =>
      if loose then addSequence anchor (collectionTag tag .seq) (looseItems fuel)
      else addBare anchor tag
    | .scalar text plain =>
      advance
      addAnchored anchor (scalarTag tag plain text) (.scalar text)
    | .flowSequenceStart =>
      advance
      addSequence anchor (collectionTag tag .seq) (flowItems true fuel)
    | .flowMappingStart =>
      advance
      addMapping anchor (collectionTag tag .map) (flowPairs true fuel)
    | .blockSequenceStart =>
      if block then do
        advance
        addSequence anchor (collectionTag tag .seq) (blockItems fuel)
      else addBare anchor tag
    | .blockMappingStart =>
      if block then do
        advance
        addMapping anchor (collectionTag tag .map) (blockPairs fuel)
      else addBare anchor tag
    | _ => addBare anchor tag

def blockItems : Nat → Reading (List NodeId)
  | 0 => throw .malformed
  | fuel + 1 => do
    match ← peek with
    | .blockEntry =>
      advance
      let item ← if closesBlockItem (← peek) then emptyNode else node true false fuel
      return item :: (← blockItems fuel)
    | .blockEnd => advance; pure []
    | _ => throw .malformed

def looseItems : Nat → Reading (List NodeId)
  | 0 => throw .malformed
  | fuel + 1 => do
    match ← peek with
    | .blockEntry =>
      advance
      let item ← if closesLooseItem (← peek) then emptyNode else node true false fuel
      return item :: (← looseItems fuel)
    | _ => pure []

def blockPairs : Nat → Reading (List (NodeId × NodeId))
  | 0 => throw .malformed
  | fuel + 1 => do
    match ← peek with
    | .key =>
      advance
      let name ← if closesBlockPart (← peek) then emptyNode else node true true fuel
      let value ← blockValue fuel
      return (name, value) :: (← blockPairs fuel)
    | .blockEnd => advance; pure []
    | _ => throw .malformed

def blockValue : Nat → Reading NodeId
  | 0 => throw .malformed
  | fuel + 1 => do
    match ← peek with
    | .value =>
      advance
      if closesBlockPart (← peek) then emptyNode else node true true fuel
    | _ => emptyNode

def flowItems (first : Bool) : Nat → Reading (List NodeId)
  | 0 => throw .malformed
  | fuel + 1 => do
    match ← peek with
    | .flowSequenceEnd => advance; pure []
    | token =>
      if !first then
        match token with
        | .flowEntry => advance
        | _ => throw .malformed
      match ← peek with
      | .key =>
        advance
        let pair ← addMapping none .map do
          let name ←
            if closesFlowKey true (← peek) then emptyNode else node false false fuel
          return [(name, ← flowValue true fuel)]
        return pair :: (← flowItems false fuel)
      | .flowSequenceEnd => advance; pure []
      | _ =>
        let item ← node false false fuel
        return item :: (← flowItems false fuel)

def flowValue (square : Bool) : Nat → Reading NodeId
  | 0 => throw .malformed
  | fuel + 1 => do
    match ← peek with
    | .value =>
      advance
      if closesFlowValue square (← peek) then emptyNode else node false false fuel
    | _ => emptyNode

def flowPairs (first : Bool) : Nat → Reading (List (NodeId × NodeId))
  | 0 => throw .malformed
  | fuel + 1 => do
    match ← peek with
    | .flowMappingEnd => advance; pure []
    | token =>
      if !first then
        match token with
        | .flowEntry => advance
        | _ => throw .malformed
      match ← peek with
      | .key =>
        advance
        let name ←
          if closesFlowKey false (← peek) then emptyNode else node false false fuel
        let value ← flowValue false fuel
        return (name, value) :: (← flowPairs false fuel)
      | .flowMappingEnd => advance; pure []
      | _ =>
        let name ← node false false fuel
        let value ← emptyNode
        return (name, value) :: (← flowPairs false fuel)

end

/-- The directives in front of a document: one version at most, each handle once. -/
def directives : Nat → Bool → List (String × String) → Reading (List (String × String))
  | 0, _, _ => throw .malformed
  | fuel + 1, versioned, handles => do
    match ← peek with
    | .directive (.version major) =>
      advance
      if versioned || major ≠ 1 then throw .malformed
      directives fuel true handles
    | .directive (.tagHandle handle start) =>
      advance
      if (handles.lookup handle).isSome then throw .malformed
      directives fuel versioned ((handle, start) :: handles)
    | .directive .unknown => advance; directives fuel versioned handles
    | _ => pure handles

def skipEnds : Nat → Reading Unit
  | 0 => pure ()
  | fuel + 1 => do
    match ← peek with
    | .documentEnd => advance; skipEnds fuel
    | _ => pure ()

def explicitContent (fuel : Nat) : Reading NodeId := do
  match ← peek with
  | .directive _ | .documentStart | .documentEnd | .streamEnd => emptyNode
  | _ => node true false fuel

/-- Nothing but end markers may follow a document. Another one is refused once its start marker is
reached. -/
def finish (fuel : Nat) : Reading Unit := do
  skipEnds fuel
  match ← peek with
  | .streamEnd => pure ()
  | _ =>
    let _ ← directives fuel false []
    throw .malformed

def stream (fuel : Nat) : Reading (Option NodeId) := do
  match ← peek with
  | .streamEnd => pure none
  | .directive _ | .documentStart =>
    let handles ← directives fuel false []
    match ← peek with
    | .documentStart => advance
    | _ => throw .malformed
    modify fun reader => { reader with handles := handles ++ defaultHandles }
    let found ← explicitContent fuel
    finish fuel
    pure (some found)
  | _ =>
    modify fun reader => { reader with handles := defaultHandles }
    let found ← node true false fuel
    finish fuel
    pure (some found)

end NodeReader

def nodesOf (source : Source) : Except Failure (Array Node × Option NodeId) := do
  let lexer := Lexer.start source.chars source.ending
  let (root, reader) ← (NodeReader.stream (16 * source.chars.length + 64)).run { lexer }
  pure (reader.nodes, root)

end DeclGraph.Yaml
