import SemanticDiff.Yaml.Token

/-!
# YAML nodes

The tokens of a text make up a document: a scalar, a sequence or a mapping.  A
reference stands for the node that has its anchor.
-/

namespace SemanticDiff.Yaml

/-- A node of a document. -/
inductive Node where
  | scalar (plain : Bool) (text : String)
  | sequence (items : List Node)
  | mapping (entries : List (Node × Node))

namespace Node

/-- The node of a place where nothing is written. -/
def empty : Node :=
  .scalar true ""

end Node

/-- The tokens that are left, and the anchors met so far. -/
structure Source where
  tokens : List Token
  anchors : List (String × Node)

namespace Source

/-- Whether the next token is one of these. -/
def isAt (source : Source) (tokens : List Token) : Bool :=
  match source.tokens with
  | token :: _ => tokens.contains token
  | [] => false

/-- Step over a token. -/
def step (source : Source) : Source :=
  { source with tokens := source.tokens.drop 1 }

/-- Step over anchors and tags, at most one of each. -/
def properties (source : Source) : Option String × Bool × Source :=
  match source.tokens with
  | .anchor name :: .tag :: rest => (some name, true, { source with tokens := rest })
  | .anchor name :: rest => (some name, true, { source with tokens := rest })
  | .tag :: .anchor name :: rest => (some name, true, { source with tokens := rest })
  | .tag :: rest => (none, true, { source with tokens := rest })
  | _ => (none, false, source)

/-- Remember a node under its anchor. -/
def define (source : Source) (anchor : Option String) (node : Node) : Source :=
  match anchor with
  | some name => { source with anchors := (name, node) :: source.anchors }
  | none => source

end Source

mutual

/-- Read a node.  Block collections are read outside of flow collections only, and
a sequence may stand at the column of the mapping around it. -/
def readNode (block indentless : Bool) : Nat → Source → Option (Node × Source)
  | 0, _ => none
  | budget + 1, source =>
      match source.tokens with
      | .alias name :: _ =>
          (source.anchors.lookup name).map fun node => (node, source.step)
      | _ =>
          let (anchor, marked, source) := source.properties
          let finish (result : Option (Node × Source)) : Option (Node × Source) :=
            result.map fun (node, source) => (node, source.define anchor node)
          match source.tokens with
          | .scalar plain text :: _ => finish (some (.scalar plain text, source.step))
          | .flowSequenceStart :: _ =>
              finish ((readFlowItems budget true source.step).map fun (items, source) =>
                (.sequence items, source))
          | .flowMappingStart :: _ =>
              finish ((readFlowEntries budget true source.step).map fun (entries, source) =>
                (.mapping entries, source))
          | token :: _ =>
              if indentless && token = .entry then
                finish ((readIndentless budget source).map fun (items, source) =>
                  (.sequence items, source))
              else if block && token = .sequenceStart then
                finish ((readItems budget source.step).map fun (items, source) =>
                  (.sequence items, source))
              else if block && token = .mappingStart then
                finish ((readEntries budget source.step).map fun (entries, source) =>
                  (.mapping entries, source))
              else if marked then finish (some (.empty, source))
              else none
          | [] => if marked then finish (some (.empty, source)) else none

/-- Read a node, or the empty one if one of the tokens comes instead. -/
def readNodeUnless (block indentless : Bool) (tokens : List Token) :
    Nat → Source → Option (Node × Source)
  | 0, _ => none
  | budget + 1, source =>
      if source.isAt tokens then some (.empty, source)
      else readNode block indentless budget source

/-- Read the items of a block sequence and its end. -/
def readItems : Nat → Source → Option (List Node × Source)
  | 0, _ => none
  | budget + 1, source =>
      if source.isAt [.entry] then do
        let (item, source) ←
          readNodeUnless true false [.entry, .blockEnd] budget source.step
        let (items, source) ← readItems budget source
        return (item :: items, source)
      else if source.isAt [.blockEnd] then some ([], source.step)
      else none

/-- Read the items of a sequence at the column of the mapping around it. -/
def readIndentless : Nat → Source → Option (List Node × Source)
  | 0, _ => none
  | budget + 1, source =>
      if source.isAt [.entry] then do
        let (item, source) ←
          readNodeUnless true false [.entry, .key, .value, .blockEnd] budget source.step
        let (items, source) ← readIndentless budget source
        return (item :: items, source)
      else some ([], source)

/-- Read the entries of a block mapping and its end. -/
def readEntries : Nat → Source → Option (List (Node × Node) × Source)
  | 0, _ => none
  | budget + 1, source =>
      let after : List Token := [.key, .value, .blockEnd]
      if source.isAt [.key] then do
        let (key, source) ← readNodeUnless true true after budget source.step
        let (value, source) ←
          if source.isAt [.value] then readNodeUnless true true after budget source.step
          else some (.empty, source)
        let (entries, source) ← readEntries budget source
        return ((key, value) :: entries, source)
      else if source.isAt [.blockEnd] then some ([], source.step)
      else none

/-- Read the items of a flow sequence and its end.  A key makes an item a mapping
with one entry. -/
def readFlowItems : Nat → Bool → Source → Option (List Node × Source)
  | 0, _, _ => none
  | budget + 1, first, source =>
      if source.isAt [.flowSequenceEnd] then some ([], source.step)
      else if !first && !source.isAt [.separator] then none
      else
        let source := if first then source else source.step
        let after : List Token := [.separator, .flowSequenceEnd]
        if source.isAt [.flowSequenceEnd] then some ([], source.step)
        else if source.isAt [.key] then do
          let source := source.step
          let (key, source) ←
            if source.isAt (.value :: after) then some (.empty, source.step)
            else readNode false false budget source
          let (value, source) ←
            if source.isAt [.value] then readNodeUnless false false after budget source.step
            else some (.empty, source)
          let (items, source) ← readFlowItems budget false source
          return (.mapping [(key, value)] :: items, source)
        else do
          let (item, source) ← readNode false false budget source
          let (items, source) ← readFlowItems budget false source
          return (item :: items, source)

/-- Read the entries of a flow mapping and its end. -/
def readFlowEntries : Nat → Bool → Source → Option (List (Node × Node) × Source)
  | 0, _, _ => none
  | budget + 1, first, source =>
      if source.isAt [.flowMappingEnd] then some ([], source.step)
      else if !first && !source.isAt [.separator] then none
      else
        let source := if first then source else source.step
        let after : List Token := [.separator, .flowMappingEnd]
        if source.isAt [.flowMappingEnd] then some ([], source.step)
        else if source.isAt [.key] then do
          let (key, source) ←
            readNodeUnless false false (.value :: after) budget source.step
          let (value, source) ←
            if source.isAt [.value] then readNodeUnless false false after budget source.step
            else some (.empty, source)
          let (entries, source) ← readFlowEntries budget false source
          return ((key, value) :: entries, source)
        else do
          let (key, source) ← readNode false false budget source
          let (entries, source) ← readFlowEntries budget false source
          return ((key, .empty) :: entries, source)

end

/-- Read the document of a text: none if the text holds no document or several of
them, and an empty one if it holds nothing. -/
def document? (text : String) : Option (Option Node) := do
  let tokens ← tokens text
  if tokens.isEmpty then return none
  let directives := tokens.takeWhile (· == .directive)
  let body := tokens.drop directives.length
  let explicit := body.head? == some .documentStart
  if !directives.isEmpty && !explicit then none
  let source : Source := { tokens := if explicit then body.drop 1 else body, anchors := [] }
  let (node, source) ←
    if explicit && (source.tokens.isEmpty ||
        source.isAt [.directive, .documentStart, .documentEnd]) then
      some (.empty, source)
    else readNode true false (4 * tokens.length + 4) source
  if (source.tokens.dropWhile (· == .documentEnd)).isEmpty then return some node else none

end SemanticDiff.Yaml
