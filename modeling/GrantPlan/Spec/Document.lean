import GrantPlan.DocumentError
import GrantPlan.Spec
import GrantPlan.Text.Blank
import GrantPlan.Yaml.Node
import GrantPlan.Yaml.Value
/-!
# Spec documents

A spec as a YAML document: a mapping from the names of roles to what is said of each. Names, groups
and targets are the text of scalars, however it is written; only flags look at what a plain scalar
denotes. Fields that are not known do not count, but a kind or an access level that is not known is
refused.
-/

namespace GrantPlan

open Yaml (Node Document TagText)

namespace SpecDocument

/-! ## Following aliases -/

/-- Reading with a count of the aliases followed so far. -/
abbrev Reading := StateT Nat (Except DocumentError)

/-- The reading that refuses a document for its form. -/
def malformed {α : Type} : Reading α := throw .malformed

/-- What aliases stand for, and how many of them may be followed. -/
structure Anchors where
  nodes : List Node
  limit : Nat

/-- The anchors of a document. Each step through the document allows for a hundred aliases. -/
def Anchors.ofDocument (document : Document) : Anchors :=
  ⟨document.nodes.reverse, 100 * document.steps⟩

/-- The node itself, or what it stands for if it is an alias. -/
def Anchors.follow (anchors : Anchors) : Node → Reading Node
  | .alias number => do
    let count ← get
    if anchors.limit < count + 1 then malformed
    else
      set (count + 1)
      match anchors.nodes.find? fun node => node.anchor? = some number with
      | some node => return node
      | none => malformed
  | node => return node

/-! ## Scalars -/

/-- The word that a local tag names: what stands behind its mark, or the mark if nothing does. A
tag that is no text names none. -/
def localTag? (tag? : Option TagText) : Option String :=
  match (tag?.bind TagText.text?).map String.toList with
  | some ['!'] => some "!"
  | some ('!' :: rest) => some (String.ofList rest)
  | _ => none

/-- The tags of the standard scalars all begin like this. -/
def standardTag (name : String) : TagText := .ofString ("tag:yaml.org,2002:" ++ name)

/-- Reads the text of a scalar. -/
def readText (anchors : Anchors) (node : Node) : Reading String := do
  match ← anchors.follow node with
  | .scalar _ _ text => return text
  | _ => malformed

/-- The flag that a text spells. White space around it and the case of its letters do not count. -/
def flagOfText (text : String) : Except DocumentError Bool :=
  let word := (trimText text).map Char.toLower
  if ["true", "yes", "on", "1"].contains word then .ok true
  else if ["false", "no", "off", "0", ""].contains word then .ok false
  else .error (.notFlag text)

/-- The flag that an integer stands for. Integers beyond 64 bits are no candidates. -/
def flagOfInt (n : Int) : Except DocumentError Bool :=
  if n = 0 then .ok false
  else if n = 1 then .ok true
  else if Int64.minValue.toInt ≤ n && n ≤ Int64.maxValue.toInt then .error (.notFlagNumber n)
  else .error .malformed

/-- The flag that a plain scalar stands for. -/
def flagOfPlain (text : String) : Except DocumentError Bool :=
  match Yaml.Value.ofPlain text with
  | .bool flag => .ok flag
  | .int n => flagOfInt n
  | .text => flagOfText text
  | .null => .error .malformed
  | .float => .error .malformed

/-- The flag that a scalar stands for. A standard tag says what to take the text for, and every
other tag that it is to be taken as it is. A local tag is no flag; one that is no text does not
count. -/
def flagOfScalar (tag? : Option TagText) (style : Yaml.ScalarStyle) (text : String) :
    Except DocumentError Bool :=
  match tag? with
  | none => if style = .plain then flagOfPlain text else flagOfText text
  | some tag =>
    if (localTag? tag).isSome then .error .malformed
    else if tag = standardTag "bool" then
      match Yaml.Value.bool? text with
      | some flag => .ok flag
      | none => .error .malformed
    else if tag = standardTag "int" then
      match Yaml.Value.int? text with
      | some n => flagOfInt n
      | none => .error .malformed
    else if tag = standardTag "float" || tag = standardTag "null" then .error .malformed
    else if tag.isLocal && style = .plain then flagOfPlain text
    else flagOfText text

/-- Reads a flag. -/
def readFlag (anchors : Anchors) (node : Node) : Reading Bool := do
  match ← anchors.follow node with
  | .scalar properties style text => liftM (flagOfScalar properties.tag? style text)
  | _ => malformed

/-! ## Collections -/

/-- Whether a node is a plain scalar of which nothing is written. -/
def isBlankNode : Node → Bool
  | .scalar _ .plain text => text.isEmpty
  | _ => false

/-- Reads a list of texts. Where nothing is written, it is empty. -/
def readTexts (anchors : Anchors) (node : Node) : Reading (List String) := do
  match ← anchors.follow node with
  | .sequence _ items => items.mapM (readText anchors)
  | node => if isBlankNode node then return [] else malformed

/-- Takes the entries of a mapping into a draft, one after the other. Where nothing is written,
there are none. -/
def readEntries {δ : Type} (anchors : Anchors) (draft : δ) (take : δ → Node → Node → Reading δ)
    (node : Node) : Reading δ := do
  match ← anchors.follow node with
  | .mapping _ entries => entries.foldlM (fun draft (key, value) => take draft key value) draft
  | node => if isBlankNode node then return draft else malformed

/-- Whether a node says that there is nothing. -/
def isNull : Node → Reading Bool
  | .scalar properties .plain text =>
    match properties.tag? with
    | none => return text.isEmpty || Yaml.Value.isNull text
    | some tag =>
      if tag = standardTag "null" then
        if Yaml.Value.isNull text then return true else malformed
      else return false
  | .missing => malformed
  | _ => return false

/-- Reads what there is, or `default` where there is nothing. -/
def readUnlessNull {α : Type} (anchors : Anchors) (default : α) (read : Node → Reading α)
    (node : Node) : Reading α := do
  let node ← anchors.follow node
  if ← isNull node then return default else read node

/-! ## Words that are fixed -/

/-- The value that a word names. -/
def variant {α : Type} (ofName? : String → Option α) (expected : List String) (word : String) :
    Reading α :=
  match ofName? word with
  | some value => return value
  | none => throw (.unknownVariant word expected)

/-- Reads a word: a scalar, or a local tag on a node that says that there is nothing. -/
def readVariant {α : Type} (ofName? : String → Option α) (expected : List String)
    (anchors : Anchors) (node : Node) : Reading α := do
  let node ← anchors.follow node
  match localTag? node.tag?, node with
  | some word, node =>
    let value ← variant ofName? expected word
    match node with
    | .scalar _ .plain text =>
      if text.isEmpty || Yaml.Value.isNull text then return value else malformed
    | _ => malformed
  | none, .scalar _ _ text => variant ofName? expected text
  | none, _ => malformed

/-- Reads a kind of object. -/
def readKind : Anchors → Node → Reading ObjectKind :=
  readVariant ObjectKind.ofName? (ObjectKind.all.map ObjectKind.name)

/-- Reads an access level. -/
def readAccess : Anchors → Node → Reading Access :=
  readVariant Access.ofName? (Access.all.map Access.name)

/-! ## Roles -/

/-- What is known of a role so far. -/
structure Draft where
  isSuperuser? : Option Bool
  hasPersonalSchema? : Option Bool
  memberOf? : Option (List String)
  ownedSchemas? : Option (List String)
  targets? : Option TargetLists

/-- Nothing is known yet. -/
def Draft.empty : Draft := ⟨none, none, none, none, none⟩

/-- What a draft says of a role. -/
def Draft.finish (draft : Draft) : RoleConfig :=
  ⟨draft.isSuperuser?.getD false, draft.hasPersonalSchema?.getD false, draft.memberOf?.getD [],
    draft.ownedSchemas?.getD [], draft.targets?.getD ∅⟩

/-- Fills a field, which must be open still. -/
def fill {α : Type} (field : String) (current : Option α) (read : Reading α) :
    Reading (Option α) :=
  match current with
  | some _ => throw (.duplicateField field)
  | none => some <$> read

/-- Reads what a role owns. Only schemas are known. -/
def readOwned (anchors : Anchors) (node : Node) : Reading (List String) := do
  let schemas? ← readEntries anchors none
    (fun schemas? key value => do
      if (← readText anchors key) = "schemas" then
        fill "schemas" schemas? (readTexts anchors value)
      else return schemas?)
    node
  return schemas?.getD []

/-- Reads the targets of a role. A kind or a level that comes again takes the place of the former. -/
def readTargets (anchors : Anchors) : Node → Reading TargetLists :=
  readEntries anchors ∅ fun targets key value => do
    let kind ← readKind anchors key
    let levels ← readEntries anchors ∅
      (fun (levels : OrderedMap Access (List String)) key value => do
        let access ← readAccess anchors key
        return levels.insert access (← readTexts anchors value))
      value
    return targets.insert kind levels

/-- Reads one field of a role. -/
def readField (anchors : Anchors) (draft : Draft) (key value : Node) : Reading Draft := do
  let field ← readText anchors key
  match field with
  | "is_superuser" => do
    return { draft with isSuperuser? := ← fill field draft.isSuperuser? (readFlag anchors value) }
  | "has_personal_schema" => do
    let flag? ← fill field draft.hasPersonalSchema? (readFlag anchors value)
    return { draft with hasPersonalSchema? := flag? }
  | "member_of" => do
    return { draft with memberOf? := ← fill field draft.memberOf? (readTexts anchors value) }
  | "owns" => do
    return { draft with ownedSchemas? := ← fill field draft.ownedSchemas? (readOwned anchors value) }
  | "privileges" => do
    return { draft with targets? := ← fill field draft.targets? (readTargets anchors value) }
  | _ => return draft

/-- Reads what is said of a role. -/
def readRole (anchors : Anchors) (node : Node) : Reading RoleConfig :=
  readUnlessNull anchors .default
    (fun node => Draft.finish <$> readEntries anchors .empty (readField anchors) node) node

/-- Reads the roles of a spec. A role that comes again keeps its place. -/
def readSpec (anchors : Anchors) (node : Node) : Reading Spec :=
  readUnlessNull anchors ∅
    (readEntries anchors ∅ fun spec key value => do
      let role ← readText anchors key
      return spec.declare role (← readRole anchors value))
    node

end SpecDocument

/-- The spec that a document describes. -/
def Spec.ofDocument (document : Document) : Except DocumentError Spec := do
  let anchors := SpecDocument.Anchors.ofDocument document
  let spec ← (SpecDocument.readSpec anchors document.root).run' 0
  if document.closed then .ok spec else .error .malformed

/-- The spec that a text describes. A text without anything but white space declares no role. -/
def Spec.ofText (text : String) : Except DocumentError Spec :=
  if (trimText text).isEmpty then .ok ∅ else ofDocument (.ofText text)

end GrantPlan
