import GrantPlan.Yaml.Lexer
/-!
# YAML nodes

The tree that the tokens of a document build up. It goes as far as the tokens follow the grammar:
where they stop doing so stands `Node.missing`, and every collection that encloses that place ends
with it as well. So a reader that goes through the tree from front to back meets a fault of form
exactly where a reader of the text would, after whatever stands in front of it.

Anchors are numbered. A name that is used for a second anchor takes a new number, the count of the
names so far, which a later anchor may take again; an alias stands for the last node that has its
number (`Document.anchored?`).
-/

namespace GrantPlan.Yaml

/-- What may stand in front of a node. -/
structure Properties where
  anchor? : Option Nat
  tag? : Option TagText
deriving DecidableEq, Repr

/-- A node of a document. -/
inductive Node
  | scalar (properties : Properties) (style : ScalarStyle) (text : String)
  | sequence (properties : Properties) (items : List Node)
  | mapping (properties : Properties) (entries : List (Node × Node))
  | alias (anchor : Nat)
  /-- The text is not well formed from here on. -/
  | missing
deriving Repr

namespace Node

/-- The node that stands where nothing but properties is written. -/
def blank (properties : Properties) : Node := scalar properties .plain ""

/-- The node that stands where nothing is written. -/
def nothing : Node := blank ⟨none, none⟩

/-- The tag of a node. -/
def tag? : Node → Option TagText
  | scalar properties _ _ => properties.tag?
  | sequence properties _ => properties.tag?
  | mapping properties _ => properties.tag?
  | _ => none

/-- The anchor of a node. -/
def anchor? : Node → Option Nat
  | scalar properties _ _ => properties.anchor?
  | sequence properties _ => properties.anchor?
  | mapping properties _ => properties.anchor?
  | _ => none

mutual

/-- The node and all nodes in it, in the order of the text. -/
def all : Node → List Node
  | sequence properties items => sequence properties items :: allItems items
  | mapping properties entries => mapping properties entries :: allEntries entries
  | node => [node]

/-- All nodes in items. -/
def allItems : List Node → List Node
  | [] => []
  | item :: items => item.all ++ allItems items

/-- All nodes in entries. -/
def allEntries : List (Node × Node) → List Node
  | [] => []
  | (key, value) :: entries => key.all ++ (value.all ++ allEntries entries)

end

/-- How many steps it takes to go through the node alone: a collection has a beginning and an end,
unless the text breaks off in it. -/
def ownSteps : Node → Nat
  | sequence _ items => if items.getLast? matches some missing then 1 else 2
  | mapping _ entries => if entries.getLast? matches some (missing, _) then 1 else 2
  | missing => 0
  | _ => 1

end Node

/-! ## Reading nodes -/

/-- The handles that tags may have, with what each stands for. -/
abbrev TagHandles := List (String × TagText)

/-- The tokens that are left, and the number of each anchor's name. -/
structure Reader where
  tokens : List Token
  anchors : List (String × Nat)

namespace Reader

/-- The reader with other tokens left. -/
def goOn (reader : Reader) (tokens : List Token) : Reader := { reader with tokens }

/-- Whether one of some tokens comes next. -/
def comes (reader : Reader) (expected : List Token) : Bool :=
  reader.tokens.head?.any expected.contains

/-- The tag that a handle and a suffix make up. -/
def resolveTag (handles : TagHandles) (handle : String) (suffix : TagText) : Option TagText :=
  if handle.isEmpty then some suffix else (handles.lookup handle).map (· ++ suffix)

/-- The name of the anchor and the tag that come next, in any order, and the tokens behind them.
A tag whose handle stands for nothing is refused. -/
def properties (handles : TagHandles) :
    List Token → Option (Option String × Option TagText × List Token)
  | .anchor name :: .tag handle suffix :: rest =>
    (resolveTag handles handle suffix).map fun tag => (some name, some tag, rest)
  | .anchor name :: rest => some (some name, none, rest)
  | .tag handle suffix :: .anchor name :: rest =>
    (resolveTag handles handle suffix).map fun tag => (some name, some tag, rest)
  | .tag handle suffix :: rest =>
    (resolveTag handles handle suffix).map fun tag => (none, some tag, rest)
  | rest => some (none, none, rest)

/-- Numbers the name of an anchor. -/
def numberAnchor (reader : Reader) (name? : Option String) : Option Nat × Reader :=
  match name? with
  | none => (none, reader)
  | some name =>
    let number := reader.anchors.length
    let others := reader.anchors.filter (·.1 ≠ name)
    (some number, { reader with anchors := (name, number) :: others })

mutual

/-- Reads a node. Block collections may begin only in block context, and block sequences without
indentation of their own only where `indentless` allows them. The result holds what could be read,
and the reader that goes on unless the tokens break off. The first argument bounds the nesting. -/
def node (handles : TagHandles) (block indentless : Bool) :
    Nat → Reader → Node × Option Reader
  | 0, _ => (.missing, none)
  | fuel + 1, reader =>
    match reader.tokens with
    | .alias name :: rest =>
      match reader.anchors.lookup name with
      | some number => (.alias number, some (reader.goOn rest))
      | none => (.missing, none)
    | tokens =>
      match properties handles tokens with
      | none => (.missing, none)
      | some (name?, tag?, tokens) =>
        let (anchor?, reader) := reader.numberAnchor name?
        let properties : Properties := ⟨anchor?, tag?⟩
        match tokens with
        | [] => (.missing, none)
        | token :: rest =>
          let sequence (result : List Node × Option Reader) :=
            (Node.sequence properties result.1, result.2)
          let mapping (result : List (Node × Node) × Option Reader) :=
            (Node.mapping properties result.1, result.2)
          match token, block, indentless with
          | .blockEntry, _, true => sequence (indentlessItems handles fuel (reader.goOn tokens))
          | .scalar style text, _, _ => (.scalar properties style text, some (reader.goOn rest))
          | .flowSequenceStart, _, _ => sequence (flowItems handles fuel (reader.goOn rest))
          | .flowMappingStart, _, _ => mapping (flowEntries handles fuel (reader.goOn rest))
          | .blockSequenceStart, true, _ => sequence (blockItems handles fuel (reader.goOn rest))
          | .blockMappingStart, true, _ => mapping (blockEntries handles fuel (reader.goOn rest))
          | _, _, _ =>
            if name?.isSome || tag?.isSome then (.blank properties, some (reader.goOn tokens))
            else (.missing, none)

/-- Reads the node behind a mark, or nothing if one of the tokens in `ends` comes next. -/
def nodeUnless (handles : TagHandles) (block indentless : Bool) (ends : List Token) :
    Nat → Reader → Node × Option Reader
  | 0, _ => (.missing, none)
  | fuel + 1, reader =>
    if reader.comes ends then (.nothing, some reader) else node handles block indentless fuel reader

/-- Reads the value of a mapping, where a mark announces one. -/
def value (handles : TagHandles) (block : Bool) (ends : List Token) :
    Nat → Reader → Node × Option Reader
  | 0, _ => (.missing, none)
  | fuel + 1, reader =>
    match reader.tokens with
    | [] => (.missing, none)
    | .value :: rest => nodeUnless handles block block ends fuel (reader.goOn rest)
    | _ => (.nothing, some reader)

/-- Reads the items of a block sequence. -/
def blockItems (handles : TagHandles) : Nat → Reader → List Node × Option Reader
  | 0, _ => ([.missing], none)
  | fuel + 1, reader =>
    match reader.tokens with
    | .blockEntry :: rest =>
      match nodeUnless handles true false [.blockEntry, .blockEnd] fuel (reader.goOn rest) with
      | (item, none) => ([item, .missing], none)
      | (item, some reader) =>
        let (items, reader?) := blockItems handles fuel reader
        (item :: items, reader?)
    | .blockEnd :: rest => ([], some (reader.goOn rest))
    | _ => ([.missing], none)

/-- Reads the items of a block sequence that stands at the indentation of what encloses it. -/
def indentlessItems (handles : TagHandles) : Nat → Reader → List Node × Option Reader
  | 0, _ => ([.missing], none)
  | fuel + 1, reader =>
    match reader.tokens with
    | .blockEntry :: rest =>
      let ends := [.blockEntry, .key, .value, .blockEnd]
      match nodeUnless handles true false ends fuel (reader.goOn rest) with
      | (item, none) => ([item, .missing], none)
      | (item, some reader) =>
        let (items, reader?) := indentlessItems handles fuel reader
        (item :: items, reader?)
    | [] => ([.missing], none)
    | _ => ([], some reader)

/-- Reads the entries of a block mapping. -/
def blockEntries (handles : TagHandles) : Nat → Reader → List (Node × Node) × Option Reader
  | 0, _ => ([(.missing, .missing)], none)
  | fuel + 1, reader =>
    let ends := [.key, .value, .blockEnd]
    match reader.tokens with
    | .key :: rest =>
      match nodeUnless handles true true ends fuel (reader.goOn rest) with
      | (key, none) => ([(key, .missing), (.missing, .missing)], none)
      | (key, some reader) =>
        match value handles true ends fuel reader with
        | (value, none) => ([(key, value), (.missing, .missing)], none)
        | (value, some reader) =>
          let (entries, reader?) := blockEntries handles fuel reader
          ((key, value) :: entries, reader?)
    | .blockEnd :: rest => ([], some (reader.goOn rest))
    | _ => ([(.missing, .missing)], none)

/-- Reads the single entry of a mapping that stands as an item in a flow sequence. Where its key is
left out, the token in front of which it is left out does not count. -/
def pair (handles : TagHandles) : Nat → Reader → Node × Option Reader
  | 0, _ => (.missing, none)
  | fuel + 1, reader =>
    let ends := [.flowEntry, .flowSequenceEnd]
    let mapping (entries : List (Node × Node)) := Node.mapping ⟨none, none⟩ entries
    let (key, reader?) :=
      if reader.comes (.value :: ends) then (.nothing, some (reader.goOn reader.tokens.tail))
      else node handles false false fuel reader
    match reader? with
    | none => (mapping [(key, .missing), (.missing, .missing)], none)
    | some reader =>
      match value handles false ends fuel reader with
      | (value, none) => (mapping [(key, value), (.missing, .missing)], none)
      | (value, some reader) =>
        if reader.tokens.isEmpty then (mapping [(key, value), (.missing, .missing)], none)
        else (mapping [(key, value)], some reader)

/-- Reads the items of a flow sequence, up to and with the bracket that closes it. -/
def flowItems (handles : TagHandles) : Nat → Reader → List Node × Option Reader
  | 0, _ => ([.missing], none)
  | fuel + 1, reader =>
    let result : Option (Node × Option Reader) :=
      match reader.tokens with
      | .flowSequenceEnd :: _ => none
      | .key :: rest => some (pair handles fuel (reader.goOn rest))
      | _ => some (node handles false false fuel reader)
    match result with
    | none => ([], some (reader.goOn reader.tokens.tail))
    | some (item, none) => ([item, .missing], none)
    | some (item, some reader) =>
      match reader.tokens with
      | .flowEntry :: rest =>
        let (items, reader?) := flowItems handles fuel (reader.goOn rest)
        (item :: items, reader?)
      | .flowSequenceEnd :: rest => ([item], some (reader.goOn rest))
      | _ => ([item, .missing], none)

/-- Reads the entries of a flow mapping, up to and with the brace that closes it. A node without a
mark in front of it is a key without a value. -/
def flowEntries (handles : TagHandles) : Nat → Reader → List (Node × Node) × Option Reader
  | 0, _ => ([(.missing, .missing)], none)
  | fuel + 1, reader =>
    let ends := [.flowEntry, .flowMappingEnd]
    let result : Option ((Node × Node) × Option Reader) :=
      match reader.tokens with
      | .flowMappingEnd :: _ => none
      | .key :: rest =>
        match nodeUnless handles false false (.value :: ends) fuel (reader.goOn rest) with
        | (key, none) => some ((key, .missing), none)
        | (key, some reader) =>
          let (value, reader?) := value handles false ends fuel reader
          some ((key, value), reader?)
      | _ =>
        match node handles false false fuel reader with
        | (key, none) => some ((key, .missing), none)
        | (key, some reader) =>
          if reader.tokens.isEmpty then some ((key, .missing), none)
          else some ((key, .nothing), some reader)
    match result with
    | none => ([], some (reader.goOn reader.tokens.tail))
    | some (entry, none) => ([entry, (.missing, .missing)], none)
    | some (entry, some reader) =>
      match reader.tokens with
      | .flowEntry :: rest =>
        let (entries, reader?) := flowEntries handles fuel (reader.goOn rest)
        (entry :: entries, reader?)
      | .flowMappingEnd :: rest => ([entry], some (reader.goOn rest))
      | _ => ([entry, (.missing, .missing)], none)

end

/-! ## Directives -/

/-- The handles that every document knows. -/
def standardHandles : TagHandles :=
  [("!", .ofString "!"), ("!!", .ofString "tag:yaml.org,2002:")]

/-- Reads the directives of a document up to the mark that begins it: the handles that they
introduce, and the tokens behind the mark. There is at most one version, which is 1.1 or 1.2, and
at most one meaning for each handle. -/
def directives (versioned : Bool) (handles : TagHandles) :
    List Token → Option (TagHandles × List Token)
  | .version major minor :: rest =>
    if !versioned && major = 1 && (minor = 1 || minor = 2) then directives true handles rest
    else none
  | .tagHandle handle start :: rest =>
    if (handles.lookup handle).isSome then none
    else directives versioned (handles ++ [(handle, start)]) rest
  | .documentStart :: rest => some (handles ++ standardHandles, rest)
  | _ => none

end Reader

/-! ## Documents -/

/-- The first document of a text. -/
structure Document where
  root : Node
  /-- The document is well formed, and nothing follows it. -/
  closed : Bool
deriving Repr

namespace Document

/-- The nodes of the document in the order of the text. -/
def nodes (document : Document) : List Node := document.root.all

/-- The node that an alias stands for. -/
def anchored? (document : Document) (anchor : Nat) : Option Node :=
  document.nodes.reverse.find? fun node => node.anchor? = some anchor

/-- How many steps it takes to go through the document. -/
def steps (document : Document) : Nat :=
  document.nodes.foldl (fun total node => total + node.ownSteps) 0

/-- Whether nothing but marks that end a document follows. -/
def endsHere (tokens : List Token) : Bool :=
  tokens.dropWhile (· = .documentEnd) = [.streamEnd]

/-- The first document that tokens make up. A document whose contents are left out holds nothing. -/
def ofTokens (tokens : List Token) : Document :=
  let fuel := 4 * (tokens.length + 2)
  let finish (result : Node × Option Reader) : Document :=
    ⟨result.1, result.2.any fun reader => endsHere reader.tokens⟩
  let begins (token : Token) : Bool :=
    match token with
    | .version .. | .tagHandle .. | .documentStart => true
    | _ => false
  match tokens with
  | [] => ⟨.missing, false⟩
  | .streamEnd :: _ => ⟨.nothing, true⟩
  | token :: _ =>
    if begins token then
      match Reader.directives false [] tokens with
      | none => ⟨.missing, false⟩
      | some (handles, rest) =>
        let reader : Reader := ⟨rest, []⟩
        let isEmpty := rest.head?.any fun token =>
          begins token || token = .documentEnd || token = .streamEnd
        finish (if isEmpty then (.nothing, some reader) else reader.node handles true false fuel)
    else finish (Reader.node Reader.standardHandles true false fuel ⟨tokens, []⟩)

/-- The first document of a text. -/
def ofText (text : String) : Document := ofTokens (tokens text.toList)

end Document

end GrantPlan.Yaml
