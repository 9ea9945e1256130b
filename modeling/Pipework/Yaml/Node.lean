import Pipework.Yaml.Token

set_option autoImplicit false

/-! # Nodes

A `Tree` is what the tokens of a text spell: scalars, sequences, mappings and aliases. An alias
refers to an anchor by a number, and what the number stands for is kept beside the tree
(`Tree.anchored`), so an alias may even stand inside of what it refers to. Tags are complete here,
their handles being replaced by what they stand for. -/

namespace Pipework.Yaml

/-! ## Types -/

mutual

/-- A part of a document. -/
inductive Node
  /-- What the anchor with that number stands for. -/
  | alias (number : Nat)
  | content (content : Content)

/-- A part of a document that is spelled out. -/
inductive Content
  | scalar (tag : Option String) (isPlain : Bool) (text : String)
  | sequence (tag : Option String) (items : List Node)
  | mapping (tag : Option String) (entries : List (Node × Node))

end

/-- What an anchor stands for. -/
structure Anchored where
  number : Nat
  /-- Where in the document it starts; the last start counts for a number. -/
  start : Nat
  content : Content

/-- A document. -/
structure Tree where
  /-- There is none if the text holds no document. -/
  root : Option Node
  anchored : List Anchored
  /-- How many parts the document has, starts and ends of collections counted apart. -/
  size : Nat

/-- What the anchor with that number stands for. -/
def Tree.get? (tree : Tree) (number : Nat) : Option Content :=
  let later (best : Option Anchored) (a : Anchored) : Option Anchored :=
    if a.number == number && best.all (·.start < a.start) then some a else best
  (tree.anchored.foldl later none).map (·.content)

/-! ## Reading tokens -/

/-- Tokens that are partly read. -/
structure NodeState where
  tokens : List Token
  /-- What the handles of tags stand for. -/
  handles : List (String × String)
  /-- How many parts are read. -/
  size : Nat
  /-- The numbers of the names of anchors. -/
  numbers : List (String × Nat)
  anchored : List Anchored

/-- A reader of tokens. -/
abbrev NodeReader := StateT NodeState Option

namespace NodeReader

/-- The next token. -/
def next? : NodeReader (Option Token) := do return (← get).tokens.head?

/-- Steps over the next token. -/
def skip : NodeReader Unit := modify fun s => { s with tokens := s.tokens.tail }

/-- Counts one more part. -/
def count : NodeReader Unit := modify fun s => { s with size := s.size + 1 }

/-- The next token is one of some. -/
def isAt (tokens : List Token) : NodeReader Bool := do return (← next?).any tokens.contains

/-- Steps over the next token, which has to be that one. -/
def expect (token : Token) : NodeReader Unit := do
  if (← next?) == some token then skip else failure

/-- An empty scalar, where a node is left out. -/
def emptyScalar : NodeReader Node := do
  count
  return .content (.scalar none true "")

/-! ## Properties -/

/-- The anchor that comes next, if one does. -/
def anchor? : NodeReader (Option String) := do
  match ← next? with
  | some (.anchor name) => do
    skip
    return some name
  | _ => return none

/-- A tag in full. -/
def fullTag (handles : List (String × String)) (tag : RawTag) : Option String :=
  if tag.handle.isEmpty then some tag.suffix
  else (handles.lookup tag.handle).map (· ++ tag.suffix)

/-- The tag that comes next, if one does. -/
def tag? : NodeReader (Option String) := do
  match ← next? with
  | some (.tag tag) => do
    skip
    return some (← fullTag (← get).handles tag)
  | _ => return none

/-- An anchor and a tag in either order, each of which may be left out. -/
def properties : NodeReader (Option String × Option String) := do
  match ← anchor? with
  | some anchor => return (some anchor, ← tag?)
  | none =>
    match ← tag? with
    | some tag => return (← anchor?, some tag)
    | none => return (none, none)

/-- Gives a number to the anchor of the part that starts here: how many names there were before. -/
def declare (anchor : Option String) : NodeReader (Option (Nat × Nat)) := do
  match anchor with
  | none => return none
  | some name => do
    let s ← get
    let number := s.numbers.length
    let others := s.numbers.filter (·.1 != name)
    set { s with numbers := (name, number) :: others }
    return some (number, s.size)

/-- The node of some content, which an anchor may stand for. -/
def define (anchor : Option (Nat × Nat)) (content : Content) : NodeReader Node := do
  match anchor with
  | none => return .content content
  | some (number, start) => do
    modify fun s => { s with anchored := ⟨number, start, content⟩ :: s.anchored }
    return .content content

/-! ## Nodes -/

/-- Where a node stands. -/
structure NodeContext where
  /-- A block collection may stand here. -/
  inBlock : Bool
  /-- A sequence that is not indented may stand here. -/
  mayBeIndentless : Bool

/-- As an item or at the top. -/
def NodeContext.block : NodeContext := ⟨true, false⟩

/-- As a key or a value. -/
def NodeContext.entry : NodeContext := ⟨true, true⟩

/-- Within brackets or braces. -/
def NodeContext.flow : NodeContext := ⟨false, false⟩

/-- A number of readings that is never reached: each token is looked at by at most four readers, one
    within the other. -/
def depthFor (tokens : List Token) : Nat := 4 * tokens.length + 4

mutual

/-- A node. -/
def node (depth : Nat) (context : NodeContext) : NodeReader Node :=
  match depth with
  | 0 => failure
  | depth + 1 => do
    match ← next? with
    | some (.alias name) => do
      skip
      count
      return .alias (← (← get).numbers.lookup name)
    | _ => do
      let (anchor, tag) ← properties
      let slot ← declare anchor
      match ← content depth context tag with
      | some content => define slot content
      | none => do
        if anchor.isNone && tag.isNone then failure
        count
        define slot (.scalar tag true "")
termination_by structural depth

/-- What a node spells out, if the next token starts something. -/
def content (depth : Nat) (context : NodeContext) (tag : Option String) :
    NodeReader (Option Content) :=
  match depth with
  | 0 => failure
  | depth + 1 => do
    match ← next? with
    | some (.scalar text isPlain) => do
      skip
      count
      return some (.scalar (tag.filter (· != "!")) isPlain text)
    | some .flowSequenceStart => do
      skip
      count
      return some (.sequence tag (← flowItems depth true))
    | some .flowMappingStart => do
      skip
      count
      return some (.mapping tag (← flowEntries depth true))
    | some .blockSequenceStart => do
      if !context.inBlock then failure
      skip
      count
      return some (.sequence tag (← blockItems depth))
    | some .blockMappingStart => do
      if !context.inBlock then failure
      skip
      count
      return some (.mapping tag (← blockEntries depth))
    | some .blockEntry => do
      if !context.mayBeIndentless then return none
      count
      return some (.sequence tag (← indentlessItems depth))
    | _ => return none
termination_by structural depth

/-- A node, or an empty scalar if the next token is one of `ends`. -/
def nodeUnless (depth : Nat) (ends : List Token) (context : NodeContext) : NodeReader Node :=
  match depth with
  | 0 => failure
  | depth + 1 => do if ← isAt ends then emptyScalar else node depth context
termination_by structural depth

/-- The items of a block sequence, up to its end. -/
def blockItems (depth : Nat) : NodeReader (List Node) :=
  match depth with
  | 0 => failure
  | depth + 1 => do
    match ← next? with
    | some .blockEntry => do
      skip
      let item ← nodeUnless depth [.blockEntry, .blockEnd] .block
      return item :: (← blockItems depth)
    | some .blockEnd => do
      skip
      count
      return []
    | _ => failure
termination_by structural depth

/-- The items of a sequence that is not indented. -/
def indentlessItems (depth : Nat) : NodeReader (List Node) :=
  match depth with
  | 0 => failure
  | depth + 1 => do
    match ← next? with
    | some .blockEntry => do
      skip
      let item ← nodeUnless depth [.blockEntry, .key, .value, .blockEnd] .block
      return item :: (← indentlessItems depth)
    | _ => do
      count
      return []
termination_by structural depth

/-- The entries of a block mapping, up to its end. -/
def blockEntries (depth : Nat) : NodeReader (List (Node × Node)) :=
  match depth with
  | 0 => failure
  | depth + 1 => do
    match ← next? with
    | some .key => do
      skip
      let key ← nodeUnless depth [.key, .value, .blockEnd] .entry
      let value ← mappingValue depth [.key, .value, .blockEnd] .entry
      return (key, value) :: (← blockEntries depth)
    | some .blockEnd => do
      skip
      count
      return []
    | _ => failure
termination_by structural depth

/-- The value of an entry, which may be left out. -/
def mappingValue (depth : Nat) (ends : List Token) (context : NodeContext) : NodeReader Node :=
  match depth with
  | 0 => failure
  | depth + 1 => do
    if (← next?) == some .value then do
      skip
      nodeUnless depth ends context
    else emptyScalar
termination_by structural depth

/-- The items of a flow sequence, up to its end. An item may be a single entry of a mapping. -/
def flowItems (depth : Nat) (isFirst : Bool) : NodeReader (List Node) :=
  match depth with
  | 0 => failure
  | depth + 1 => do
    if !isFirst && (← next?) != some .flowSequenceEnd then expect .flowEntry
    match ← next? with
    | some .flowSequenceEnd => do
      skip
      count
      return []
    | some .key => do
      skip
      count
      let entry ← flowPair depth
      count
      return .content (.mapping none [entry]) :: (← flowItems depth false)
    | _ => do
      let item ← node depth .flow
      return item :: (← flowItems depth false)
termination_by structural depth

/-- An entry of a mapping that is an item of a flow sequence. Where the key is left out, the token
    in its place is stepped over. -/
def flowPair (depth : Nat) : NodeReader (Node × Node) :=
  match depth with
  | 0 => failure
  | depth + 1 => do
    let ends := [Token.value, .flowEntry, .flowSequenceEnd]
    let isEmpty ← isAt ends
    if isEmpty then skip
    let key ← if isEmpty then emptyScalar else node depth .flow
    let value ← mappingValue depth [.flowEntry, .flowSequenceEnd] .flow
    return (key, value)
termination_by structural depth

/-- The entries of a flow mapping, up to its end. -/
def flowEntries (depth : Nat) (isFirst : Bool) : NodeReader (List (Node × Node)) :=
  match depth with
  | 0 => failure
  | depth + 1 => do
    if !isFirst && (← next?) != some .flowMappingEnd then expect .flowEntry
    match ← next? with
    | some .flowMappingEnd => do
      skip
      count
      return []
    | some .key => do
      skip
      let key ← nodeUnless depth [.value, .flowEntry, .flowMappingEnd] .flow
      let value ← mappingValue depth [.flowEntry, .flowMappingEnd] .flow
      return (key, value) :: (← flowEntries depth false)
    | _ => do
      let key ← node depth .flow
      let value ← emptyScalar
      return (key, value) :: (← flowEntries depth false)
termination_by structural depth

end

/-! ## Documents -/

/-- The handles that are known without a directive. -/
def commonHandles : List (String × String) := [("!", "!"), ("!!", "tag:yaml.org,2002:")]

/-- The handles that directives declare, each at most once; there may be one version. -/
def declaredHandles (hasVersion : Bool) (handles : List (String × String)) :
    List Directive → Option (List (String × String))
  | [] => some handles
  | .version major minor :: rest =>
    if hasVersion || major != 1 || !(minor == 1 || minor == 2) then none
    else declaredHandles true handles rest
  | .tag handle start :: rest =>
    if (handles.lookup handle).isSome then none
    else declaredHandles hasVersion ((handle, start) :: handles) rest

/-- The directives that tokens start with, and what follows. -/
def splitDirectives : List Token → List Directive × List Token
  | .directive directive :: rest =>
    let (directives, rest) := splitDirectives rest
    (directive :: directives, rest)
  | tokens => ([], tokens)

/-- The node at the top of a document, which is left out if nothing comes before the end. -/
def root (isExplicit : Bool) : NodeReader Node := do
  let tokens := (← get).tokens
  match tokens with
  | .documentStart :: _ | .documentEnd :: _ | .directive _ :: _ | [] =>
    if isExplicit then emptyScalar else failure
  | _ => node (depthFor tokens) .block

end NodeReader

/-- The state before anything is read. -/
def NodeState.start (tokens : List Token) (declared : List (String × String)) : NodeState :=
  { tokens, handles := declared ++ NodeReader.commonHandles, size := 0, numbers := []
    anchored := [] }

/-- The document that tokens spell, if they spell no more than one. -/
def Tree.ofTokens? (tokens : List Token) : Option Tree := do
  if tokens.isEmpty then return ⟨none, [], 1⟩
  let (directives, rest) := NodeReader.splitDirectives tokens
  let declared ← NodeReader.declaredHandles false [] directives
  let isExplicit := rest.head? == some .documentStart
  if !directives.isEmpty && !isExplicit then none
  let (root, state) ←
    (NodeReader.root isExplicit).run (.start (if isExplicit then rest.tail else rest) declared)
  if (state.tokens.dropWhile (· == .documentEnd)).isEmpty then
    return ⟨some root, state.anchored, state.size⟩
  else none

end Pipework.Yaml
