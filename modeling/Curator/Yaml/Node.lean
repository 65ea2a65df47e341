import Curator.Yaml.Token
/-!
The nodes of a YAML text as they are written, with anchors and aliases. A text holds one document;
an empty one is `nothing`.
-/

set_option autoImplicit false

namespace Curator.Yaml

inductive Node where
  | nothing
  | scalar (tag : Option String) (text : String) (style : Style)
  | sequence (tag : Option String) (items : List Node)
  | mapping (tag : Option String) (members : List (Node × Node))
  | anchored (number : Nat) (node : Node)
  | aliasOf (number : Nat)
deriving Repr, Inhabited

namespace Node

def empty : Node := .scalar none "" .plain

structure State where
  tokens : List Token
  anchors : List (String × Nat)
  handles : List (String × String)

abbrev Reader := StateT State Option

def peek : Reader Token := do
  match (← get).tokens with
  | token :: _ => return token
  | [] => failure

def skip : Reader Unit := modify fun state => { state with tokens := state.tokens.tail }

def skipIf (token : Token) : Reader Bool := do
  if (← peek) = token then
    skip
    return true
  else return false

def expect (token : Token) : Reader Unit := do
  if !(← skipIf token) then failure

def resolveTag (handle suffix : String) : Reader String := do
  if handle.isEmpty then return suffix
  match (← get).handles.lookup handle with
  | some stem => return stem ++ suffix
  | none => failure

def readTag : Reader (Option String) := do
  match ← peek with
  | .tag handle suffix =>
      skip
      return some (← resolveTag handle suffix)
  | _ => return none

def readAnchor : Reader (Option String) := do
  match ← peek with
  | .anchor name =>
      skip
      return some name
  | _ => return none

def readProperties : Reader (Option String × Option String) := do
  match ← readAnchor with
  | some anchor => return (some anchor, ← readTag)
  | none =>
      match ← readTag with
      | some tag => return (← readAnchor, some tag)
      | none => return (none, none)

-- The number of an anchor: how many names were in use before it. A name that is used again moves
-- on to a new number but stays one name, so two names can come to share a number.
def numberAnchor : Option String → Reader (Option Nat)
  | none => return none
  | some name => do
      let known := (← get).anchors
      modify fun state => { state with
        anchors := (name, known.length) :: known.filter fun anchor => anchor.1 ≠ name }
      return some known.length

def withAnchor : Option Nat → Node → Node
  | some number, node => .anchored number node
  | none, node => node

def endsBlockItem : Token → Bool
  | .key | .value | .blockEnd => true
  | _ => false

def endsFlowItem (close : Token) (token : Token) : Bool :=
  token = .flowEntry || token = close

-- Block nodes are read where block collections may stand; `indentless` says that a sequence may
-- begin with its first entry. Every reader takes at least one step off the fuel.
structure Place where
  block : Bool
  indentless : Bool

mutual
def readNode (place : Place) : Nat → Reader Node
  | 0 => failure
  | fuel + 1 => do
      match ← peek with
      | .aliasOf name =>
          skip
          match (← get).anchors.lookup name with
          | some number => return .aliasOf number
          | none => failure
      | _ =>
          let (anchor, tag) ← readProperties
          let node := withAnchor (← numberAnchor anchor)
          match ← peek with
          | .scalar text style =>
              skip
              return node (.scalar tag text style)
          | .blockEntry =>
              if place.indentless then return node (.sequence tag (← readIndentless fuel))
              else if anchor.isSome || tag.isSome then return node (.scalar tag "" .plain)
              else failure
          | .flowSequenceStart =>
              skip
              return node (.sequence tag (← readFlowItems true fuel))
          | .flowMappingStart =>
              skip
              return node (.mapping tag (← readFlowMembers true fuel))
          | .blockSequenceStart =>
              if !place.block then failure
              skip
              return node (.sequence tag (← readBlockItems fuel))
          | .blockMappingStart =>
              if !place.block then failure
              skip
              return node (.mapping tag (← readBlockMembers fuel))
          | _ =>
              if anchor.isSome || tag.isSome then return node (.scalar tag "" .plain)
              else failure

def readBlockItems : Nat → Reader (List Node)
  | 0 => failure
  | fuel + 1 => do
      if ← skipIf .blockEnd then return []
      expect .blockEntry
      let next ← peek
      let item ← if next = .blockEntry || next = .blockEnd then pure empty
        else readNode ⟨true, false⟩ fuel
      return item :: (← readBlockItems fuel)

def readIndentless : Nat → Reader (List Node)
  | 0 => failure
  | fuel + 1 => do
      if ← skipIf .blockEntry then
        let next ← peek
        let item ← if next = .blockEntry || endsBlockItem next then pure empty
          else readNode ⟨true, false⟩ fuel
        return item :: (← readIndentless fuel)
      else return []

def readBlockMembers : Nat → Reader (List (Node × Node))
  | 0 => failure
  | fuel + 1 => do
      if ← skipIf .blockEnd then return []
      expect .key
      let key ← if endsBlockItem (← peek) then pure empty else readNode ⟨true, true⟩ fuel
      let value ←
        if ← skipIf .value then
          if endsBlockItem (← peek) then pure empty else readNode ⟨true, true⟩ fuel
        else pure empty
      return (key, value) :: (← readBlockMembers fuel)

def readFlowItems (first : Bool) : Nat → Reader (List Node)
  | 0 => failure
  | fuel + 1 => do
      if ← skipIf .flowSequenceEnd then return []
      if !first then expect .flowEntry
      if ← skipIf .key then
        let member ← readPair .flowSequenceEnd fuel
        return .mapping none [member] :: (← readFlowItems false fuel)
      else if ← skipIf .flowSequenceEnd then return []
      else
        let item ← readNode ⟨false, false⟩ fuel
        return item :: (← readFlowItems false fuel)

def readFlowMembers (first : Bool) : Nat → Reader (List (Node × Node))
  | 0 => failure
  | fuel + 1 => do
      if ← skipIf .flowMappingEnd then return []
      if !first then expect .flowEntry
      if ← skipIf .key then
        let member ← readPair .flowMappingEnd fuel
        return member :: (← readFlowMembers false fuel)
      else if ← skipIf .flowMappingEnd then return []
      else
        let key ← readNode ⟨false, false⟩ fuel
        return (key, empty) :: (← readFlowMembers false fuel)

def readPair (close : Token) : Nat → Reader (Node × Node)
  | 0 => failure
  | fuel + 1 => do
      let next ← peek
      let key ← if next = .value || endsFlowItem close next then pure empty
        else readNode ⟨false, false⟩ fuel
      let value ←
        if ← skipIf .value then
          if endsFlowItem close (← peek) then pure empty else readNode ⟨false, false⟩ fuel
        else pure empty
      return (key, value)
end

def isDirective : Token → Bool
  | .versionDirective _ _ | .tagDirective _ _ => true
  | _ => false

def readDirectives : Nat → Bool → Reader Unit
  | 0, _ => failure
  | fuel + 1, versioned => do
      match ← peek with
      | .versionDirective major minor =>
          if versioned || major != 1 || (minor != 1 && minor != 2) then failure
          skip
          readDirectives fuel true
      | .tagDirective handle stem =>
          if ((← get).handles.map Prod.fst).contains handle then failure
          skip
          modify fun state => { state with handles := (handle, stem) :: state.handles }
          readDirectives fuel versioned
      | _ => return ()

def defaultHandles : List (String × String) := [("!", "!"), ("!!", "tag:yaml.org,2002:")]

def addDefaultHandles : Reader Unit :=
  modify fun state => { state with
    handles := state.handles ++ defaultHandles.filter fun handle =>
      !(state.handles.map Prod.fst).contains handle.1 }

def dropDocumentEnds (tokens : List Token) : List Token := tokens.dropWhile (· = .documentEnd)

def expectEnd : Reader Unit := do
  modify fun state => { state with tokens := dropDocumentEnds state.tokens }
  expect .streamEnd

def readExplicit (fuel : Nat) : Reader Node := do
  readDirectives fuel false
  addDefaultHandles
  expect .documentStart
  let next ← peek
  if isDirective next || next = .documentStart || next = .documentEnd || next = .streamEnd then
    return empty
  else readNode ⟨true, false⟩ fuel

def readDocument (fuel : Nat) : Reader Node := do
  let next ← peek
  if next = .streamEnd then return .nothing
  let node ←
    if isDirective next || next = .documentStart then readExplicit fuel
    else do
      addDefaultHandles
      readNode ⟨true, false⟩ fuel
  expectEnd
  return node

def ofTokens? (tokens : List Token) : Option Node :=
  ((readDocument (3 * tokens.length + 3)).run ⟨tokens, [], []⟩).map Prod.fst

def parse? (text : String) : Option Node := (tokens? text).bind ofTokens?

/-! ## Views -/

mutual
def anchors : Node → List (Nat × Node)
  | .anchored number node => (number, node) :: node.anchors
  | .sequence _ items => itemAnchors items
  | .mapping _ members => memberAnchors members
  | _ => []

def itemAnchors : List Node → List (Nat × Node)
  | [] => []
  | item :: rest => item.anchors ++ itemAnchors rest

def memberAnchors : List (Node × Node) → List (Nat × Node)
  | [] => []
  | (key, value) :: rest => key.anchors ++ value.anchors ++ memberAnchors rest
end

mutual
def size : Node → Nat
  | .anchored _ node => node.size
  | .sequence _ items => itemSizes items + 2
  | .mapping _ members => memberSizes members + 2
  | _ => 1

def itemSizes : List Node → Nat
  | [] => 0
  | item :: rest => item.size + itemSizes rest

def memberSizes : List (Node × Node) → Nat
  | [] => 0
  | (key, value) :: rest => key.size + value.size + memberSizes rest
end

end Node

end Curator.Yaml
