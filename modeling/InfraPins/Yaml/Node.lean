import InfraPins.Yaml.Resolution
import InfraPins.Yaml.Token

namespace InfraPins.Yaml

inductive Node where
  | scalar (tag text : String)
  | sequence (tag : String) (items : List Node)
  | mapping (tag : String) (fields : List (Node × Node))
  deriving Inhabited

namespace Node

def tag : Node → String
  | scalar tag _ => tag
  | sequence tag _ => tag
  | mapping tag _ => tag

/-- The scalar that stands where nothing is written. -/
def empty : Node :=
  .scalar (plainTag "") ""

/-- The tokens to come, the tags' openings by handle, and what has been anchored so far: a node, or
nothing while the node is still being read. -/
structure Reading where
  tokens : List Token
  handles : List (String × String)
  anchors : List (String × Option Node)

/-- Reads something off tokens, if they have the right form. -/
abbrev Reader := StateT Reading Option

def peek : Reader (Option Token) := do
  return (← get).tokens.head?

def isNext (tokens : List Token) : Reader Bool := do
  return (← peek).any tokens.contains

/-- Drops the next token. -/
def drop : Reader Unit :=
  modify fun reading => { reading with tokens := reading.tokens.drop 1 }

/-- Drops the next token if it is a given one, and says whether it was. -/
def dropIf (token : Token) : Reader Bool := do
  if (← isNext [token]) then
    drop
    return true
  else return false

/-- Drops the next token, which has to be a given one. -/
def expect (token : Token) : Reader Unit := do
  if (← dropIf token) then pure () else failure

/-- Says what an anchor stands for. -/
def anchorAs (anchor : Option String) (node : Option Node) : Reader Unit :=
  match anchor with
  | none => pure ()
  | some name => modify fun reading => { reading with anchors := (name, node) :: reading.anchors }

def anchorOf? : Token → Option String
  | .anchor name => some name
  | _ => none

/-- The handle and the suffix in a tag token. -/
def tagOf? : Token → Option (Option String × String)
  | .tag handle suffix => some (handle, suffix)
  | _ => none

/-- What the next token holds, if it is of a kind; the token is dropped then. -/
def take? (kind : Token → Option α) : Reader (Option α) := do
  match (← peek).bind kind with
  | some found =>
    drop
    return some found
  | none => return none

/-- The anchor and the tag before a node, in either order. -/
def properties : Reader (Option String × Option (Option String × String)) := do
  match (← take? anchorOf?) with
  | some anchor => return (some anchor, ← take? tagOf?)
  | none =>
    match (← take? tagOf?) with
    | some tag => return (← take? anchorOf?, some tag)
    | none => return (none, none)

/-- A tag in full. Its handle has to be known. -/
def fullTag (tag : Option (Option String × String)) : Reader (Option String) := do
  match tag with
  | none => return none
  | some (none, suffix) => return some suffix
  | some (some handle, suffix) =>
    match (← get).handles.lookup handle with
    | some opening => return some (opening ++ suffix)
    | none => failure

/-- Whether a tag leaves a node's type to the node. -/
def isOpenTag (tag : Option String) : Bool :=
  tag.all (· == "!")

def scalarTag (tag : Option String) (text : String) (plain : Bool) : String :=
  match tag with
  | none => if plain then plainTag text else coreTag ++ "str"
  | some "!" => plainTag text
  | some tag => tag

/-- The tag of a list or a mapping. -/
def collectionTag (tag : Option String) (type : String) : String :=
  if isOpenTag tag then coreTag ++ type else tag.getD ""

/-- What may stand for a node: in a block more may than between brackets, and behind the mark of a
key or a value even a list without indentation. -/
inductive Place where
  | flow
  | block
  | keyOrValue
  deriving DecidableEq, Repr

mutual

def node (place : Place) : Nat → Reader Node
  | 0 => failure
  | steps + 1 => do
    match (← peek) with
    | some (.alias name) =>
      drop
      match (← get).anchors.lookup name with
      | some (some node) => return node
      | _ => failure
    | _ =>
      let (anchor, tag) ← properties
      if anchor.any ((← get).anchors.map (·.1)).contains then failure
      else
        let tag ← fullTag tag
        anchorAs anchor none
        let node ← content place anchor.isSome tag steps
        anchorAs anchor (some node)
        return node

/-- A node behind its properties. -/
def content (place : Place) (anchored : Bool) (tag : Option String) : Nat → Reader Node
  | 0 => failure
  | steps + 1 => do
    let block := place ≠ .flow
    match (← peek) with
    | some (.scalar text plain) =>
      drop
      return .scalar (scalarTag tag text plain) text
    | some .entry =>
      if place = .keyOrValue then return .sequence (collectionTag tag "seq") (← looseEntries steps)
      else bare
    | some .flowSequence =>
      drop
      return .sequence (collectionTag tag "seq") (← flowItems true steps)
    | some .flowMapping =>
      drop
      return .mapping (collectionTag tag "map") (← flowFields true steps)
    | some .blockSequence =>
      if block then
        drop
        return .sequence (collectionTag tag "seq") (← entries steps)
      else bare
    | some .blockMapping =>
      if block then
        drop
        return .mapping (collectionTag tag "map") (← fields steps)
      else bare
    | _ => bare
where
  /-- Properties alone stand before an empty scalar. -/
  bare : Reader Node :=
    if anchored || tag.isSome then
      return .scalar (if isOpenTag tag then plainTag "" else tag.getD "") ""
    else failure

/-- The entries of an indented list, up to its end. -/
def entries : Nat → Reader (List Node)
  | 0 => failure
  | steps + 1 => do
    if (← dropIf .entry) then
      let item ← if (← isNext [.entry, .blockEnd]) then pure empty else node .block steps
      return item :: (← entries steps)
    else
      expect .blockEnd
      return []

def looseEntries : Nat → Reader (List Node)
  | 0 => failure
  | steps + 1 => do
    if (← dropIf .entry) then
      let item ← if (← isNext [.entry, .key, .value, .blockEnd]) then pure empty
        else node .block steps
      return item :: (← looseEntries steps)
    else return []

/-- The fields of an indented mapping, up to its end. -/
def fields : Nat → Reader (List (Node × Node))
  | 0 => failure
  | steps + 1 => do
    let marks : List Token := [.key, .value, .blockEnd]
    if (← isNext [.key, .value]) then
      let key ← if (← dropIf .key) then
          if (← isNext marks) then pure empty else node .keyOrValue steps
        else failure
      let value ← if (← dropIf .value) then
          if (← isNext marks) then pure empty else node .keyOrValue steps
        else pure empty
      return (key, value) :: (← fields steps)
    else
      expect .blockEnd
      return []

/-- The items of a list between brackets, up to the closing one. -/
def flowItems (first : Bool) : Nat → Reader (List Node)
  | 0 => failure
  | steps + 1 => do
    if (← dropIf .flowSequenceEnd) then return []
    else
      if first then pure () else expect .flowEntry
      if (← dropIf .flowSequenceEnd) then return []
      else
        let item ← if (← dropIf .key) then do
            let key ← if (← isNext [.value, .flowEntry, .flowSequenceEnd]) then pure empty
              else node .flow steps
            let value ← if (← dropIf .value) then
                if (← isNext [.flowEntry, .flowSequenceEnd]) then pure empty
                else node .flow steps
              else pure empty
            pure (.mapping (coreTag ++ "map") [(key, value)])
          else node .flow steps
        return item :: (← flowItems false steps)

/-- The fields of a mapping between brackets, up to the closing one. -/
def flowFields (first : Bool) : Nat → Reader (List (Node × Node))
  | 0 => failure
  | steps + 1 => do
    if (← dropIf .flowMappingEnd) then return []
    else
      if first then pure () else expect .flowEntry
      if (← dropIf .flowMappingEnd) then return []
      else
        let marked ← dropIf .key
        let key ← if marked && (← isNext [.value, .flowEntry, .flowMappingEnd]) then pure empty
          else node .flow steps
        let value ← if marked then
            if (← dropIf .value) then
              if (← isNext [.flowEntry, .flowMappingEnd]) then pure empty else node .flow steps
            else pure empty
          else pure empty
        return (key, value) :: (← flowFields false steps)

end

/-- The openings of the handles that every document knows. -/
def commonHandles : List (String × String) := [("!", "!"), ("!!", coreTag)]

/-- Takes note of directives: at most one version, which has to be a first one, and one opening for
each handle. -/
def directives (versioned : Bool) (handles : List (String × String)) :
    List Token → Option (List (String × String) × List Token)
  | .directive (.version major) :: rest =>
    if versioned || major ≠ 1 then none else directives true handles rest
  | .directive (.tag handle opening) :: rest =>
    if (handles.lookup handle).isSome then none
    else directives versioned ((handle, opening) :: handles) rest
  | .directive .unknown :: rest => directives versioned handles rest
  | rest => some (handles, rest)

def dropEnds (tokens : List Token) : List Token :=
  tokens.dropWhile (· == .documentEnd)

/-- A document that starts without a line of its own, or behind one. -/
def document (tokens : List Token) : Option (Node × List Token) := do
  let steps := 2 * tokens.length + 2
  let read (handles : List (String × String)) (tokens : List Token) : Option (Node × List Token) := do
    let (found, reading) ← (node .block steps).run ⟨tokens, handles, []⟩
    return (found, reading.tokens)
  match tokens with
  | .directive _ :: _ | .documentStart :: _ =>
    let (handles, rest) ← directives false [] tokens
    match rest with
    | .documentStart :: rest =>
      match rest with
      | [] | .directive _ :: _ | .documentStart :: _ | .documentEnd :: _ => return (empty, rest)
      | _ => read (handles ++ commonHandles) rest
    | _ => none
  | _ => read commonHandles tokens

/-- The node of the only document that tokens make up; none when there is no document. -/
def ofTokens? (tokens : List Token) : Option (Option Node) :=
  if tokens.isEmpty then some none
  else do
    let (found, rest) ← document tokens
    if (dropEnds rest).isEmpty then some (some found) else none

end Node

end InfraPins.Yaml
