import DocSite.Yaml.Token
/-! YAML documents as trees. A mapping keeps its entries in order, those with the
same key included. -/
namespace DocSite.Yaml

inductive Node where
  | scalar (tag? : Option String) (style : Style) (text : String)
  | sequence (tag? : Option String) (items : List Node)
  | mapping (tag? : Option String) (entries : List (Node × Node))
deriving Inhabited, Repr

/-- A node with an anchor, for the aliases after it. -/
structure Anchored where
  name : String
  /-- Nothing while the node is still being read. -/
  node? : Option Node
  /-- How many aliases are followed to read the node in full. -/
  aliases : Nat

structure Reader where
  tokens : List Token
  handles : List (String × String)
  anchors : List Anchored
  /-- The nodes read and closed so far. -/
  events : Nat
  /-- How many aliases are followed to read all nodes in full. -/
  aliases : Nat

abbrev ReadM := StateT Reader Option

namespace Reader

def peek : ReadM (Option Token) := return (← get).tokens.head?

def drop : ReadM Unit := modify fun r => { r with tokens := r.tokens.drop 1 }

def event : ReadM Unit := modify fun r => { r with events := r.events + 1 }

/-- Takes the next token if it is this one. -/
def accept (token : Token) : ReadM Bool := do
  if (← peek) = some token then drop; return true else return false

def expect (token : Token) : ReadM Unit := do if !(← accept token) then failure

def isAt (tokens : List Token) : ReadM Bool := return (← peek).any tokens.contains

def anchor? : ReadM (Option String) := do
  match ← peek with
  | some (.anchor name) => drop; return some name
  | _ => return none

def defaultHandles : List (String × String) := [("!", "!"), ("!!", "tag:yaml.org,2002:")]

def tag? : ReadM (Option String) := do
  match ← peek with
  | some (.tag handle suffix) =>
    drop
    if handle.isEmpty then return some suffix
    match ((← get).handles ++ defaultHandles).lookup handle with
    | some leading => return some (leading ++ suffix)
    | none => failure
  | _ => return none

/-- The anchor and the tag before a node, in either order. -/
def properties : ReadM (Option String × Option String) := do
  match ← anchor? with
  | some name => return (some name, ← tag?)
  | none => let tag ← tag?; return (← anchor?, tag)

/-- The node that an alias stands for. A node is not part of itself. -/
def follow (name : String) : ReadM Node := do
  match (← get).anchors.find? (·.name == name) with
  | some ⟨_, some node, aliases⟩ =>
    modify fun r => { r with events := r.events + 1, aliases := r.aliases + aliases + 1 }
    return node
  | _ => failure

/-- Reads a node and remembers it under its anchor, which counts from where the node begins. -/
def anchored (name? : Option String) (read : ReadM Node) : ReadM Node := do
  match name? with
  | none => read
  | some name =>
    let before ← get
    set { before with anchors := ⟨name, none, 0⟩ :: before.anchors }
    let node ← read
    modify fun r =>
      let place := r.anchors.length - before.anchors.length - 1
      { r with anchors := r.anchors.set place ⟨name, some node, r.aliases - before.aliases⟩ }
    return node

def leaf (tag? : Option String) (style : Style) (text : String) : ReadM Node := do
  event
  return .scalar tag? style text

/-- The node that stands where nothing is written. -/
def empty : ReadM Node := leaf none .plain ""

/-- Where a node stands: it may be a block, and it may be a sequence without indentation. -/
structure Position where
  block : Bool
  flatSequence : Bool

mutual

def node (fuel : Nat) (position : Position) : ReadM Node :=
  match fuel with
  | 0 => failure
  | fuel + 1 => do
    match ← peek with
    | some (.alias name) => drop; follow name
    | _ =>
      let (name?, tag?) ← properties
      anchored name? do
        match ← peek with
        | some .blockEntry =>
          if position.flatSequence then
            event
            let items ← entries fuel [.blockEntry, .key, .value, .blockEnd] .blockEntry
            event
            return .sequence tag? items
          else blank name? tag?
        | some (.scalar style text) => drop; leaf tag? style text
        | some .sequenceStart =>
          drop; event
          let items ← flowItems fuel true
          event
          return .sequence tag? items
        | some .mappingStart =>
          drop; event
          let pairs ← flowPairs fuel true
          event
          return .mapping tag? pairs
        | some .blockSequence =>
          if !position.block then blank name? tag?
          else
            drop; event
            let items ← entries fuel [.blockEntry, .blockEnd] .blockEntry
            expect .blockEnd
            event
            return .sequence tag? items
        | some .blockMapping =>
          if !position.block then blank name? tag?
          else
            drop; event
            let pairs ← blockPairs fuel
            event
            return .mapping tag? pairs
        | _ => blank name? tag?
where
  /-- A node with only properties is empty. -/
  blank (name? tag? : Option String) : ReadM Node :=
    if name?.isSome || tag?.isSome then leaf tag? .plain "" else failure

def nodeOr (fuel : Nat) (position : Position) (absent : List Token) : ReadM Node :=
  match fuel with
  | 0 => failure
  | fuel + 1 => do
    if (← peek).isNone || (← isAt absent) then empty else node fuel position

def entries (fuel : Nat) (absent : List Token) (mark : Token) : ReadM (List Node) :=
  match fuel with
  | 0 => failure
  | fuel + 1 => do
    if ← accept mark then
      let item ← nodeOr fuel ⟨true, false⟩ absent
      return item :: (← entries fuel absent mark)
    else return []

def blockPairs (fuel : Nat) : ReadM (List (Node × Node)) :=
  match fuel with
  | 0 => failure
  | fuel + 1 => do
    if ← accept .blockEnd then return []
    else
      expect .key
      let absent : List Token := [.key, .value, .blockEnd]
      let key ← nodeOr fuel ⟨true, true⟩ absent
      let value ← if ← accept .value then nodeOr fuel ⟨true, true⟩ absent else empty
      return (key, value) :: (← blockPairs fuel)

/-- The items of a sequence in brackets up to its end. An item may be a single pair. -/
def flowItems (fuel : Nat) (first : Bool) : ReadM (List Node) :=
  match fuel with
  | 0 => failure
  | fuel + 1 => do
    if ← accept .sequenceEnd then return []
    else
      if !first then expect .flowEntry
      if ← accept .key then
        event
        let key ← if ← isAt [.value, .flowEntry, .sequenceEnd] then do drop; empty
          else node fuel ⟨false, false⟩
        let value ← if ← accept .value then
            nodeOr fuel ⟨false, false⟩ [.flowEntry, .sequenceEnd]
          else empty
        event
        return .mapping none [(key, value)] :: (← flowItems fuel false)
      else if ← accept .sequenceEnd then return []
      else
        let item ← node fuel ⟨false, false⟩
        return item :: (← flowItems fuel false)

def flowPairs (fuel : Nat) (first : Bool) : ReadM (List (Node × Node)) :=
  match fuel with
  | 0 => failure
  | fuel + 1 => do
    if ← accept .mappingEnd then return []
    else
      if !first then expect .flowEntry
      if ← accept .key then
        let key ← nodeOr fuel ⟨false, false⟩ [.value, .flowEntry, .mappingEnd]
        let value ← if ← accept .value then
            nodeOr fuel ⟨false, false⟩ [.flowEntry, .mappingEnd]
          else empty
        return (key, value) :: (← flowPairs fuel false)
      else if ← accept .mappingEnd then return []
      else
        let key ← node fuel ⟨false, false⟩
        let value ← empty
        return (key, value) :: (← flowPairs fuel false)

end

/-- Reads the directives before a document. Each may be given once. -/
def directives (fuel : Nat) (versioned : Bool) : ReadM Bool :=
  match fuel with
  | 0 => failure
  | fuel + 1 => do
    match ← peek with
    | some (.version major minor) =>
      if versioned ∨ major ≠ 1 ∨ minor = 0 ∨ 2 < minor then failure
      drop
      let _ ← directives fuel true
      return true
    | some (.tagDirective handle leading) =>
      if ((← get).handles.lookup handle).isSome then failure
      drop
      modify fun r => { r with handles := (handle, leading) :: r.handles }
      let _ ← directives fuel versioned
      return true
    | _ => return false

def document : ReadM Node := do
  let size := 4 * (← get).tokens.length + 4
  let directed ← directives size false
  let explicit ← accept .documentStart
  if directed && !explicit then failure
  if (← peek).isNone && !explicit then failure
  let root ←
    if explicit && ((← peek).isNone || (← isAt [.documentStart, .documentEnd])) then empty
    else node size ⟨true, false⟩
  let rest := (← get).tokens
  if rest.all (· = .documentEnd) then return root else failure

end Reader

/-- Following aliases may not visit more nodes than this many times those written. -/
def maxExpansion : Nat := 100

def Node.read? (text : List Char) : Option Node := do
  let tokens ← Token.readAll? text
  let (root, reader) ← Reader.document.run ⟨tokens, [], [], 0, 0⟩
  if maxExpansion * reader.events < reader.aliases then none else some root

end DocSite.Yaml
