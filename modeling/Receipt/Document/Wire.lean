/-
Documents as JSON.

A node is an object with its tag under `type`, or a list of the four parts in
order.  Properties, style and children may be missing, and members of other names
are passed over.  Writing gives an object with all four.
-/
import Receipt.Document.Node
import Receipt.Json.Shape

namespace Receipt

/-! ### Writing -/

mutual

def Node.toJson : Node → Json
  | ⟨kind, props, style, children⟩ =>
    .object
      [("children", .array (nodesToJson children)), ("props", .ofDict props),
        ("style", .ofDict style), ("type", .string kind.tag)]

def nodesToJson : List Node → List Json
  | [] => []
  | n :: rest => n.toJson :: nodesToJson rest

end

/-! ### Reading -/

/-- The parts of a node that have been read. -/
structure NodeParts where
  kind : Option NodeKind
  props : Option (Dict Json)
  style : Option Style
  children : Option (List Node)

namespace NodeParts

def none : NodeParts :=
  ⟨.none, .none, .none, .none⟩

/-- The node of the parts.  Only its tag has to be there. -/
def node (p : NodeParts) (missing : Json.DataError) : Except JsonError Node :=
  match p.kind with
  | some kind =>
    .ok ⟨kind, p.props.getD .empty, p.style.getD .empty, p.children.getD []⟩
  | .none => .error (.data missing)

end NodeParts

/-- A part that must not be there yet. -/
def once {α : Type} (name : String) (part : Option α) : Except JsonError Unit :=
  if part.isSome then .error (.data (.duplicateField name)) else .ok ()

open Json (Origin Reading Items Members scanned)

/-- The kind of the node whose tag is read. -/
def readKind (r : Reading) : Except JsonError NodeKind :=
  r.asString.map NodeKind.ofTag

mutual

def readNode (o : Origin) : Reading → Except JsonError Node
  | .object members => do readNodeMembers (← o.enter) .none members
  | .array items => do readNodeItems (← o.enter) 0 .none items
  | r => r.mismatch "struct PrintNode"

/-- The members of a node that is written as an object. -/
def readNodeMembers (o : Origin) (p : NodeParts) : Members → Except JsonError Node
  | .done => p.node (.missingField "type")
  | .broken cause => .error (.syntactic cause.whenRead)
  | .unkeyed _ => .error (.syntactic .keyMustBeString)
  | .next key value rest => do
    let key ← scanned key
    if key == "type" then
      once key p.kind
      let kind ← readKind value
      readNodeMembers o { p with kind := some kind } rest
    else if key == "props" then
      once key p.props
      let props ← value.asDict o
      readNodeMembers o { p with props := some props } rest
    else if key == "style" then
      once key p.style
      let style ← value.asDict o
      readNodeMembers o { p with style := some style } rest
    else if key == "children" then
      once key p.children
      let children ← readNodes o value
      readNodeMembers o { p with children := some children } rest
    else
      value.skip
      readNodeMembers o p rest

/-- The parts of a node that is written as a list, from the one at `position`. -/
def readNodeItems (o : Origin) (position : Nat) (p : NodeParts) :
    Items → Except JsonError Node
  | .done => p.node (.invalidLength 0 "struct PrintNode with 4 elements")
  | .broken cause =>
    .error (.syntactic (if position < 4 then cause.whenRead else cause.whenFull))
  | .next value rest =>
    match position with
    | 0 => do
      let kind ← readKind value
      readNodeItems o 1 { p with kind := some kind } rest
    | 1 => do
      let props ← value.asDict o
      readNodeItems o 2 { p with props := some props } rest
    | 2 => do
      let style ← value.asDict o
      readNodeItems o 3 { p with style := some style } rest
    | 3 => do
      let children ← readNodes o value
      readNodeItems o 4 { p with children := some children } rest
    | taken => do
      (Items.next value rest).close o taken
      p.node (.missingField "type")

def readNodes (o : Origin) : Reading → Except JsonError (List Node)
  | .array items => do readNodeList (← o.enter) items
  | r => r.mismatch "a sequence"

def readNodeList (o : Origin) : Items → Except JsonError (List Node)
  | .done => .ok []
  | .broken cause => .error (.syntactic cause.whenRead)
  | .next first rest => do
    let first ← readNode o first
    let rest ← readNodeList o rest
    return first :: rest

end

def Node.ofJson (v : Json) : Except JsonError Node :=
  Json.ofValue readNode v

def Node.parse (s : String) : Except JsonError Node :=
  Json.ofText readNode s

end Receipt
