import FabricLoader.Yaml.Token

/-! The documents of a list of tokens. An alias is kept as a reference to the node that carries its
anchor, so that a node may well contain a reference to itself. -/
namespace FabricLoader.Yaml

/-- A node of a document. Tags matter for scalars only. -/
inductive Node where
  | scalar (plain : Bool) (tag : Option Tag) (text : String)
  | sequence (items : List Node)
  | mapping (pairs : List (Node × Node))
  | alias (anchor : Nat)

/-- A node that was left out reads as if it were a tilde. -/
def Node.omitted : Node := .scalar true none "~"

structure Document where
  root : Node
  anchored : List (Nat × Node)

structure Reader where
  tokens : List Token
  /-- Anchor names of this document, latest first. -/
  names : List (String × Nat)
  /-- The number of the next anchor. -/
  fresh : Nat
  anchored : List (Nat × Node)

abbrev Read (α : Type) : Type := StateT Reader (Except Malformed) α

namespace Read

def peek : Read Token := return (← get).tokens.headD .streamEnd

def drop : Read Unit := modify fun reader => { reader with tokens := reader.tokens.tail }

def register (name : String) : Read Nat := do
  let reader ← get
  set { reader with names := (name, reader.fresh) :: reader.names, fresh := reader.fresh + 1 }
  return reader.fresh

def aliasNode (name : String) : Read Node := do
  match (← get).names.lookup name with
  | some anchor => return .alias anchor
  | none => throw (.unknownAlias name)

/-- An anchor and a tag in front of a node, at most one of each, in either order. -/
def properties : Read (Option Nat × Option Tag) := do
  match ← peek with
  | .anchor name =>
    drop
    let anchor ← register name
    match ← peek with
    | .tag tag => drop; return (some anchor, some tag)
    | _ => return (some anchor, none)
  | .tag tag =>
    drop
    match ← peek with
    | .anchor name => drop; return (some (← register name), some tag)
    | _ => return (none, some tag)
  | _ => return (none, none)

def remember (anchor : Option Nat) (node : Node) : Read Unit :=
  match anchor with
  | some anchor => modify fun reader => { reader with anchored := (anchor, node) :: reader.anchored }
  | none => pure ()

/-- No content. That is a node only if properties came before it. -/
def absent (tag : Option Tag) (optional : Bool) : Read Node :=
  if optional then return .scalar true tag "" else throw .unexpectedToken

mutual

/-- A node. Block collections are read only where `inBlock` allows them, and a sequence that is not
indented only where `unindented` does. -/
def node : Nat → (inBlock unindented : Bool) → Read Node
  | 0, _, _ => throw .unexpectedToken
  | fuel + 1, inBlock, unindented => do
    if let .alias name := ← peek then
      drop
      return ← aliasNode name
    let (anchor, tag) ← properties
    let content ← content fuel inBlock unindented tag (anchor.isSome || tag.isSome)
    remember anchor content
    return content

def content : Nat → (inBlock unindented : Bool) → Option Tag → (optional : Bool) → Read Node
  | 0, _, _, _, _ => throw .unexpectedToken
  | fuel + 1, inBlock, unindented, tag, optional => do
    match ← peek with
    | .scalar plain text => drop; return .scalar plain tag text
    | .flowSequenceStart => drop; return .sequence (← flowItems fuel true)
    | .flowMappingStart => drop; return .mapping (← flowPairs fuel true)
    | .blockEntry =>
      if unindented then return .sequence (← unindentedItems fuel) else absent tag optional
    | .blockSequenceStart =>
      if inBlock then drop; return .sequence (← blockItems fuel) else absent tag optional
    | .blockMappingStart =>
      if inBlock then drop; return .mapping (← blockPairs fuel) else absent tag optional
    | _ => absent tag optional

def blockNode : Nat → (unindented : Bool) → List Token → Read Node
  | 0, _, _ => throw .unexpectedToken
  | fuel + 1, unindented, ends => do
    if ends.contains (← peek) then return .omitted else node fuel true unindented

def flowNode : Nat → List Token → Read Node
  | 0, _ => throw .unexpectedToken
  | fuel + 1, ends => do
    if ends.contains (← peek) then return .omitted else node fuel false false

def blockItems : Nat → Read (List Node)
  | 0 => throw .unexpectedToken
  | fuel + 1 => do
    match ← peek with
    | .blockEnd => drop; return []
    | .blockEntry =>
      drop
      let item ← blockNode fuel false [.blockEntry, .blockEnd]
      return item :: (← blockItems fuel)
    | _ => throw .unexpectedToken

def unindentedItems : Nat → Read (List Node)
  | 0 => throw .unexpectedToken
  | fuel + 1 => do
    match ← peek with
    | .blockEntry =>
      drop
      let item ← blockNode fuel false [.blockEntry, .key, .value, .blockEnd]
      return item :: (← unindentedItems fuel)
    | _ => return []

def blockPairs : Nat → Read (List (Node × Node))
  | 0 => throw .unexpectedToken
  | fuel + 1 => do
    let ends := [.key, .value, .blockEnd]
    match ← peek with
    | .blockEnd => drop; return []
    | .key =>
      drop
      let key ← blockNode fuel true ends
      let value ← blockValue fuel ends
      return (key, value) :: (← blockPairs fuel)
    | .value =>
      let value ← blockValue fuel ends
      return (.omitted, value) :: (← blockPairs fuel)
    | _ => throw .unexpectedToken

def blockValue : Nat → List Token → Read Node
  | 0, _ => throw .unexpectedToken
  | fuel + 1, ends => do
    match ← peek with
    | .value => drop; blockNode fuel true ends
    | _ => return .omitted

/-- The items of a flow sequence, past its closing bracket; all but the first follow a comma. A pair
among them is a mapping of its own. -/
def flowItems : Nat → (first : Bool) → Read (List Node)
  | 0, _ => throw .unexpectedToken
  | fuel + 1, first => do
    if (← peek) == .flowSequenceEnd then
      drop
      return []
    if !first then
      if (← peek) == .flowEntry then drop else throw .unexpectedToken
    match ← peek with
    | .flowSequenceEnd => drop; return []
    | .key =>
      drop
      let key ← flowItemKey fuel
      let value ← flowValue fuel [.flowEntry, .flowSequenceEnd]
      return .mapping [(key, value)] :: (← flowItems fuel false)
    | _ =>
      let item ← node fuel false false
      return item :: (← flowItems fuel false)

/-- The key of a pair in a flow sequence. The token that shows it to be left out is passed over. -/
def flowItemKey : Nat → Read Node
  | 0 => throw .unexpectedToken
  | fuel + 1 => do
    if [.value, .flowEntry, .flowSequenceEnd].contains (← peek) then
      drop
      return .omitted
    node fuel false false

def flowValue : Nat → List Token → Read Node
  | 0, _ => throw .unexpectedToken
  | fuel + 1, ends => do
    match ← peek with
    | .value => drop; flowNode fuel ends
    | _ => return .omitted

/-- The pairs of a flow mapping, past its closing brace; all but the first follow a comma. A key
without a sign in front of it has no value. -/
def flowPairs : Nat → (first : Bool) → Read (List (Node × Node))
  | 0, _ => throw .unexpectedToken
  | fuel + 1, first => do
    if (← peek) == .flowMappingEnd then
      drop
      return []
    if !first then
      if (← peek) == .flowEntry then drop else throw .unexpectedToken
    match ← peek with
    | .flowMappingEnd => drop; return []
    | .key =>
      drop
      let key ← flowNode fuel [.value, .flowEntry, .flowMappingEnd]
      let value ← flowValue fuel [.flowEntry, .flowMappingEnd]
      return (key, value) :: (← flowPairs fuel false)
    | .value =>
      let value ← flowValue fuel [.flowEntry, .flowMappingEnd]
      return (.omitted, value) :: (← flowPairs fuel false)
    | _ =>
      let key ← node fuel false false
      return (key, .omitted) :: (← flowPairs fuel false)

end

def skipDirectives : Nat → Read Unit
  | 0 => pure ()
  | fuel + 1 => do
    if (← peek) == .directive then
      drop
      skipDirectives fuel

def skipEnds : Nat → Read Unit
  | 0 => pure ()
  | fuel + 1 => do
    if (← peek) == .documentEnd then
      drop
      skipEnds fuel

def markedRoot (fuel : Nat) : Read Node := do
  skipDirectives fuel
  if (← peek) != .documentStart then throw .unexpectedToken
  drop
  if [.directive, .documentStart, .documentEnd, .streamEnd].contains (← peek) then return .omitted
  node fuel true false

/-- The next document, unless the tokens end. Only the first one may begin without a mark. -/
def document? (fuel : Nat) (first : Bool) : Read (Option Document) := do
  if !first then skipEnds fuel
  let next ← peek
  if next == .streamEnd then return none
  modify fun reader => { reader with names := [] }
  let root ←
    if first && next != .directive && next != .documentStart then node fuel true false
    else markedRoot fuel
  if (← peek) == .documentEnd then drop
  return some ⟨root, (← get).anchored⟩

def documents (fuel : Nat) : Nat → (first : Bool) → Read (List Document)
  | 0, _ => return []
  | count + 1, first => do
    match ← document? fuel first with
    | some document => return document :: (← documents fuel count false)
    | none => return []

end Read

/-- The documents of a text. Each token takes a bounded number of steps to read, and each document at
least one token. -/
def documents (text : List Char) : Except Malformed (List Document) := do
  let tokens ← tokens text
  let reader : Reader := ⟨tokens, [], 1, []⟩
  return (← (Read.documents (4 * tokens.length + 4) (tokens.length + 1) true).run reader).1

namespace Document

/-- The node itself, or the one that an alias refers to. The latter is never an alias. -/
def resolve (document : Document) : Node → Node
  | .alias anchor => (document.anchored.lookup anchor).getD (.alias anchor)
  | node => node

end Document
end FabricLoader.Yaml
