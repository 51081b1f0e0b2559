/-
Documents: trees of nodes, each with properties, a style and children.

Containers hold other nodes, texts and images are leaves in what they print, and
a node of any other kind is kept but never printed.
-/
import Receipt.Document.Style

namespace Receipt

/-- The kinds of node. -/
inductive NodeKind where
  | document
  | page
  | view
  | text
  | image
  | textNode
  /-- A tag of no known kind, as it was written. -/
  | other (tag : String)
  deriving DecidableEq, Repr, Inhabited

namespace NodeKind

def known : List (String × NodeKind) :=
  [("document", .document), ("page", .page), ("view", .view), ("text", .text),
    ("image", .image), ("textnode", .textNode)]

/-- The kind of a tag, whose case does not matter. -/
def ofTag (tag : String) : NodeKind :=
  (known.lookup (Text.lower tag)).getD (.other tag)

def tag : NodeKind → String
  | .document => "document"
  | .page => "page"
  | .view => "view"
  | .text => "text"
  | .image => "image"
  | .textNode => "textnode"
  | .other tag => tag

/-- Whether nodes of this kind lay out their children. -/
def isContainer : NodeKind → Bool
  | .document | .page | .view => true
  | _ => false

def isText : NodeKind → Bool
  | .text | .textNode => true
  | _ => false

end NodeKind

/-- An element of a document. -/
structure Node where
  kind : NodeKind
  props : Dict Json
  style : Style
  children : List Node

namespace Node

/-- An empty node of a kind. -/
def ofKind (kind : NodeKind) : Node :=
  ⟨kind, .empty, .empty, []⟩

instance : Inhabited Node := ⟨ofKind .document⟩

def document (children : List Node) : Node :=
  { ofKind .document with children := children }

def view (children : List Node) : Node :=
  { ofKind .view with children := children }

def withProp (n : Node) (key : String) (value : Json) : Node :=
  { n with props := n.props.insert key value }

def withStyle (n : Node) (style : Style) : Node :=
  { n with style := style }

def withChildren (n : Node) (children : List Node) : Node :=
  { n with children := children }

def withChild (n : Node) (child : Node) : Node :=
  { n with children := n.children ++ [child] }

def ofText (content : String) : Node :=
  (ofKind .text).withProp "children" (.string content)

def ofImage (source : String) : Node :=
  (ofKind .image).withProp "source" (.string source)

end Node

/-! ### Text -/

mutual

/-- The text that a value spells: a text itself, the text of a number, or what
the items of a list spell one after the other. -/
def Json.literal? : Json → Option String
  | .string s => some s
  | .number n => some n.text
  | .array items => literals? items
  | _ => none

/-- The texts of the values that spell one, joined, unless none does. -/
def literals? : List Json → Option String
  | [] => none
  | item :: rest =>
    match item.literal?, literals? rest with
    | some s, some t => some (s ++ t)
    | some s, none => some s
    | none, t => t

end

namespace Node

/-- The text in the properties of the node itself.  The leaf inside a text keeps
it under a name of its own. -/
def ownText? (n : Node) : Option String :=
  let children := (n.props.get? "children").bind Json.literal?
  match n.kind with
  | .textNode => ((n.props.get? "text").bind Json.literal?).or children
  | _ => children

def textChildren (n : Node) : List Node :=
  n.children.filter fun c => c.kind.isText

end Node

mutual

/-- The text of a node: its own, or else that of the children that hold text. -/
def Node.textContent : Node → String
  | ⟨kind, props, style, children⟩ =>
    match (Node.mk kind props style children).ownText? with
    | some s => s
    | none => textContents children

/-- The text of the nodes that hold text, joined. -/
def textContents : List Node → String
  | [] => ""
  | n :: rest => if n.kind.isText then n.textContent ++ textContents rest else textContents rest

end

/-! ### Images -/

namespace Node

/-- The source that a property names: a text, or the `uri` of an object, unless it
is empty. -/
def sourceOf? (v : Json) : Option String :=
  let s := match v with
    | .string s => some s
    | .object _ => (v.member? "uri").bind Json.string?
    | _ => none
  s.filter fun s => !s.isEmpty

/-- Where the picture of an image comes from.  A property that names no source
leaves the word to the next one. -/
def imageSource? (n : Node) : Option String :=
  ((n.props.get? "source").bind sourceOf?).or ((n.props.get? "src").bind sourceOf?)

end Node

end Receipt
