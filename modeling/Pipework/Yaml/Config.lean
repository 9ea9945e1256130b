import Pipework.Cookbook.Config
import Pipework.Yaml.Node
import Pipework.Yaml.Scalar

set_option autoImplicit false

/-! # Configurations in YAML

`readConfig?` reads a configuration from a text. Definitions are mappings with known fields; unknown
fields are ignored without a look at what they hold, and any scalar will do where text is expected.
Collections may nest 128 deep, and aliases may be followed a hundred times for each part of the
document, so a document cannot grow without bound. -/

namespace Pipework.Yaml

/-- The reading of a tree; the state is how many more aliases may be followed. -/
abbrev TreeReader := StateT Nat Option

namespace TreeReader

/-- How deep collections may nest. -/
def maxDepth : Nat := 128

/-- How many aliases may be followed. -/
def maxAliases (tree : Tree) : Nat := 100 * tree.size

/-- What a node stands for. -/
def contentOf (tree : Tree) : Node → TreeReader Content
  | .content content => return content
  | .alias number => do
    match ← get with
    | 0 => failure
    | left + 1 => do
      set left
      tree.get? number

/-! ## Documents -/

/-- `document` under a tag, if the tag stays with it. -/
def tagged (tag : Option String) (document : Document) : Option Document :=
  match tag.map Scalar.tagMeaning with
  | some (.kept name) => some (.tagged name document)
  | some .nameless => none
  | _ => some document

/-- Adds an entry to those of a mapping; a key may stand once. -/
def addEntry (entries : List (Document × Document)) (key content : Document) :
    Option (List (Document × Document)) :=
  if Document.hasKey entries key then none else some (entries ++ [(key, content)])

/-- The document that some content is, with collections nesting at most `depth` deep. -/
def document (tree : Tree) (depth : Nat) (content : Content) : TreeReader Document :=
  match depth, content with
  | _, .scalar tag isPlain text => Scalar.document? tag isPlain text
  | 0, _ => failure
  | depth + 1, .sequence tag items => do
    let items ← items.mapM fun item => do document tree depth (← contentOf tree item)
    tagged tag (.sequence items)
  | depth + 1, .mapping tag entries => do
    let entries ← entries.foldlM
      (fun done (key, value) => do
        let key ← document tree depth (← contentOf tree key)
        let value ← document tree depth (← contentOf tree value)
        addEntry done key value) []
    tagged tag (.mapping entries)
termination_by structural depth

/-! ## Fields -/

/-- The text of a scalar of any kind. -/
def text (tree : Tree) (node : Node) : TreeReader String := do
  match ← contentOf tree node with
  | .scalar _ _ text => return text
  | _ => failure

/-- The entries of a mapping, and how deep collections may nest in it; nothing has no entries. -/
def entries (depth : Nat) : Content → TreeReader (Nat × List (Node × Node))
  | .mapping _ entries =>
    match depth with
    | 0 => failure
    | depth + 1 => return (depth, entries)
  | .scalar _ true "" => return (depth, [])
  | _ => failure

/-- The items of a sequence, and how deep collections may nest in it; nothing counts as no items. -/
def items (depth : Nat) : Content → TreeReader (Nat × List Node)
  | .sequence _ items =>
    match depth with
    | 0 => failure
    | depth + 1 => return (depth, items)
  | .scalar _ true "" => return (depth, [])
  | _ => failure

/-- The entries whose keys are among `names`, each of which may stand once. -/
def fields (tree : Tree) (names : List String) (entries : List (Node × Node)) :
    TreeReader (List (String × Node)) :=
  entries.foldlM
    (fun done (key, value) => do
      let key ← text tree key
      if !names.contains key then return done
      if (done.lookup key).isSome then failure
      return done ++ [(key, value)]) []

/-- The text of a field that has to be there. -/
def needText (tree : Tree) (fields : List (String × Node)) (name : String) : TreeReader String :=
  match fields.lookup name with
  | some node => text tree node
  | none => failure

/-- The content of a field that may be left out or null. -/
def filled? (tree : Tree) (fields : List (String × Node)) (name : String) :
    TreeReader (Option Content) :=
  match fields.lookup name with
  | none => return none
  | some node => do
    let content ← contentOf tree node
    match content with
    | .scalar tag true text =>
      match tag.map Scalar.tagMeaning with
      | none => return if text.isEmpty || Scalar.isNull text then none else some content
      | some (.core .null) => if Scalar.isNull text then return none else failure
      | some _ => return some content
    | _ => return some content

/-- What `read` makes of each item of a field, which may be left out. -/
def needItems {α : Type} (tree : Tree) (depth : Nat) (fields : List (String × Node)) (name : String)
    (read : Nat → Content → TreeReader α) : TreeReader (List α) :=
  match fields.lookup name with
  | none => return []
  | some node => do
    let (depth, items) ← items depth (← contentOf tree node)
    items.mapM fun item => do read depth (← contentOf tree item)

/-! ## Definitions -/

/-- Named arguments; of two for one name the later stays. -/
def namedArguments (tree : Tree) (depth : Nat) (content : Content) :
    TreeReader (Dict Document) := do
  let (depth, entries) ← entries depth content
  entries.foldlM
    (fun done (key, value) => do
      let key ← text tree key
      return done.insert key (← document tree depth (← contentOf tree value))) Dict.empty

/-- The definition of a step. -/
def stepDefinition (tree : Tree) (depth : Nat) (content : Content) :
    TreeReader StepDefinition := do
  let (depth, entries) ← entries depth content
  let fields ← fields tree ["name", "from", "args", "kwargs"] entries
  let name ← needText tree fields "name"
  let base ← needText tree fields "from"
  let args ← (← filled? tree fields "args").mapM (document tree depth)
  let kwargs ← (← filled? tree fields "kwargs").mapM (namedArguments tree depth)
  return { name, base, args, kwargs }

/-- The definition of a pipeline. -/
def pipelineDefinition (tree : Tree) (depth : Nat) (content : Content) :
    TreeReader PipelineDefinition := do
  let (depth, entries) ← entries depth content
  let fields ← fields tree ["name", "steps"] entries
  let name ← needText tree fields "name"
  let steps ← needItems tree depth fields "steps" (document tree)
  return { name, steps }

/-- A configuration. -/
def config (tree : Tree) (depth : Nat) (content : Content) : TreeReader Config := do
  let (depth, entries) ← entries depth content
  let fields ← fields tree ["steps", "pipelines"] entries
  let steps ← needItems tree depth fields "steps" (stepDefinition tree)
  let pipelines ← needItems tree depth fields "pipelines" (pipelineDefinition tree)
  return { steps, pipelines }

end TreeReader

/-- The configuration that a text holds; an empty text defines nothing. -/
def readConfig? (text : String) : Option Config := do
  let tree ← Tree.ofTokens? (← Token.ofText? text)
  match tree.root with
  | none => return .empty
  | some (.alias _) => none
  | some (.content content) =>
    (TreeReader.config tree TreeReader.maxDepth content).run' (TreeReader.maxAliases tree)

end Pipework.Yaml
