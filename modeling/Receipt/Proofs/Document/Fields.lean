/-
What a node is read from.

A node has four fields, which stand under their names in an object and at their places in a list.
Both ways come to the same: fields are read one after the other, none of them twice, and each part
of the node comes of one field and of no other.  So what was read shows what was written, part by
part, whatever else stands there.
-/
import Mathlib.Data.List.Forall2
import Receipt.Document.Wire
import Receipt.Proofs.Json.Shape

namespace Receipt

open Json (Origin Reading Items Members scanned)

/-! ### The four fields -/

/-- The fields that a node is written with. -/
inductive NodeField where
  | kind
  | props
  | style
  | children
  deriving DecidableEq

namespace NodeField

/-- The fields in the order of a list. -/
def all : List NodeField :=
  [.kind, .props, .style, .children]

/-- The name of a field in an object. -/
def name : NodeField → String
  | .kind => "type"
  | .props => "props"
  | .style => "style"
  | .children => "children"

def ofName? (name : String) : Option NodeField :=
  all.find? fun f => f.name == name

end NodeField

namespace NodeParts

/-- Whether a field has been read. -/
def has (p : NodeParts) : NodeField → Bool
  | .kind => p.kind.isSome
  | .props => p.props.isSome
  | .style => p.style.isSome
  | .children => p.children.isSome

/-- The parts with one field read. -/
def read (o : Origin) (p : NodeParts) (value : Reading) : NodeField → Except JsonError NodeParts
  | .kind => do
    let kind ← readKind value
    return { p with kind := some kind }
  | .props => do
    let props ← value.asDict o
    return { p with props := some props }
  | .style => do
    let style ← value.asDict o
    return { p with style := some style }
  | .children => do
    let children ← readNodes o value
    return { p with children := some children }

end NodeParts

variable {o : Origin} {p q r : NodeParts} {value : Reading} {f g : NodeField}

/-- What follows the reading of a field follows that of its value. -/
theorem NodeParts.read_bind (next : NodeParts → Except JsonError Node) :
    p.read o value f >>= next =
      match f with
      | .kind => readKind value >>= fun kind => next { p with kind := some kind }
      | .props => value.asDict o >>= fun props => next { p with props := some props }
      | .style => value.asDict o >>= fun style => next { p with style := some style }
      | .children => readNodes o value >>= fun children =>
          next { p with children := some children } := by
  cases f <;> exact bind_assoc ..

/-- A field is read by reading its part. -/
theorem NodeParts.read_eq_ok_iff :
    p.read o value f = .ok q ↔
      match f with
      | .kind => ∃ kind, readKind value = .ok kind ∧ q = { p with kind := some kind }
      | .props => ∃ props, value.asDict o = .ok props ∧ q = { p with props := some props }
      | .style => ∃ style, value.asDict o = .ok style ∧ q = { p with style := some style }
      | .children => ∃ children, readNodes o value = .ok children ∧
          q = { p with children := some children } := by
  constructor
  · intro h
    cases f <;> exact (bind_eq_ok h).imp fun _ h => ⟨h.1, (Except.ok.inj h.2).symm⟩
  · intro h
    cases f <;>
      · obtain ⟨_, hvalue, rfl⟩ := h
        rw [read, hvalue]
        rfl

/-- A field that is read is there, and no other field is touched. -/
theorem NodeParts.has_read (h : p.read o value f = .ok q) (g : NodeField) :
    q.has g = if g = f then true else p.has g := by
  cases f <;> obtain ⟨_, -, rfl⟩ := read_eq_ok_iff.mp h <;> cases g <;> rfl

/-! ### Members and items -/

theorem once_bind {α β : Type} (name : String) (part : Option α) (x : Except JsonError β) :
    (once name part >>= fun _ => x)
      = if part.isSome then .error (.data (.duplicateField name)) else x := by
  unfold once
  cases part <;> rfl

theorem NodeField.ofName?_name (f : NodeField) : ofName? f.name = some f := by
  cases f <;> decide

theorem NodeField.name_of_ofName? {key : String} {f : NodeField} (h : ofName? key = some f) :
    f.name = key := by
  have hname := List.find?_some h
  simpa using hname

/-- **A member of an object** is one of the fields, which must not have been read, or is skipped. -/
theorem readNodeMembers_next (key : String) (rest : Members) :
    readNodeMembers o p (.next (.ok key) value rest) =
      match NodeField.ofName? key with
      | some f =>
        if p.has f then .error (.data (.duplicateField key))
        else p.read o value f >>= fun p => readNodeMembers o p rest
      | none => value.skip >>= fun _ => readNodeMembers o p rest := by
  rw [readNodeMembers]
  cases hfield : NodeField.ofName? key with
  | none =>
      have hname (f : NodeField) : (key == f.name) = false := by
        rw [beq_eq_false_iff_ne]
        intro hkey
        rw [hkey, NodeField.ofName?_name] at hfield
        exact nomatch hfield
      have htype : (key == "type") = false := hname .kind
      have hprops : (key == "props") = false := hname .props
      have hstyle : (key == "style") = false := hname .style
      have hchildren : (key == "children") = false := hname .children
      simp [scanned, Except.mapError, bind, Except.bind, htype, hprops, hstyle, hchildren]
  | some f =>
      obtain rfl := NodeField.name_of_ofName? hfield
      dsimp only
      rw [NodeParts.read_bind]
      cases f with
      | kind => exact once_bind "type" p.kind _
      | props => exact once_bind "props" p.props _
      | style => exact once_bind "style" p.style _
      | children => exact once_bind "children" p.children _

theorem readNodeItems_next (position : Nat) (rest : Items) :
    readNodeItems o position p (.next value rest) =
      match NodeField.all[position]? with
      | some f => p.read o value f >>= fun p => readNodeItems o (position + 1) p rest
      | none => (Items.next value rest).close o position >>= fun _ =>
          p.node (.missingField "type") := by
  match position with
  | 0 =>
      rw [readNodeItems]
      exact (NodeParts.read_bind (f := .kind) fun p => readNodeItems o 1 p rest).symm
  | 1 =>
      rw [readNodeItems]
      exact (NodeParts.read_bind (f := .props) fun p => readNodeItems o 2 p rest).symm
  | 2 =>
      rw [readNodeItems]
      exact (NodeParts.read_bind (f := .style) fun p => readNodeItems o 3 p rest).symm
  | 3 =>
      rw [readNodeItems]
      exact (NodeParts.read_bind (f := .children) fun p => readNodeItems o 4 p rest).symm
  | taken + 4 =>
      rw [readNodeItems]
      · rfl
      all_goals simp

/-! ### One field after the other -/

/-- The members that are fields, up to the first break. -/
def Json.Members.fields : Members → List (NodeField × Reading)
  | .next (.ok key) value rest =>
    match NodeField.ofName? key with
    | some f => (f, value) :: fields rest
    | none => fields rest
  | _ => []

/-- The items up to the first break. -/
def Json.Items.toList : Items → List Reading
  | .next first rest => first :: toList rest
  | _ => []

/-- The fields in what a node is read from: by name in an object, by place in a list, which must
not have more items than there are fields. -/
def Json.Reading.fields? : Reading → Option (List (NodeField × Reading))
  | .object members => some members.fields
  | .array items =>
    if items.toList.length ≤ NodeField.all.length then some (NodeField.all.zip items.toList)
    else none
  | _ => none

/-- Fields that are read one after the other, none of them twice. -/
inductive Gathers (o : Origin) : NodeParts → List (NodeField × Reading) → NodeParts → Prop
  | nothing (p : NodeParts) : Gathers o p [] p
  | field {p q r : NodeParts} {f : NodeField} {value : Reading}
      {rest : List (NodeField × Reading)} (fresh : p.has f = false)
      (read : p.read o value f = .ok q) (others : Gathers o q rest r) :
      Gathers o p ((f, value) :: rest) r

theorem Gathers.once {fields : List (NodeField × Reading)} (h : Gathers o p fields q) :
    (fields.map Prod.fst).Nodup ∧ ∀ g ∈ fields.map Prod.fst, p.has g = false := by
  induction h with
  | nothing p => simp
  | @field p q r f value rest fresh read others ih =>
      obtain ⟨hnodup, hfresh⟩ := ih
      rw [List.map_cons]
      have hf : f ∉ rest.map Prod.fst := by
        intro hf
        have hq := hfresh f hf
        rw [NodeParts.has_read read, if_pos rfl] at hq
        exact nomatch hq
      refine ⟨List.nodup_cons.mpr ⟨hf, hnodup⟩, List.forall_mem_cons.mpr ⟨fresh, ?_⟩⟩
      intro g hg
      have hq := hfresh g hg
      rwa [NodeParts.has_read read, if_neg fun hgf : g = f => hf (hgf ▸ hg)] at hq

theorem gathers_of_readNodeMembers {p : NodeParts} {members : Members} {n : Node}
    (h : readNodeMembers o p members = .ok n) :
    ∃ q, Gathers o p members.fields q ∧ q.node (.missingField "type") = .ok n := by
  match members with
  | .done =>
      rw [readNodeMembers] at h
      exact ⟨p, .nothing p, h⟩
  | .broken cause =>
      rw [readNodeMembers] at h
      exact nomatch h
  | .unkeyed found =>
      rw [readNodeMembers] at h
      exact nomatch h
  | .next (.error e) value rest =>
      rw [readNodeMembers] at h
      exact nomatch h
  | .next (.ok key) value rest =>
      rw [readNodeMembers_next] at h
      unfold Json.Members.fields
      cases hfield : NodeField.ofName? key with
      | none =>
          rw [hfield] at h
          obtain ⟨-, -, hrest⟩ := bind_eq_ok h
          exact gathers_of_readNodeMembers hrest
      | some f =>
          rw [hfield] at h
          dsimp only at h
          split at h
          · exact nomatch h
          · rename_i hfresh
            obtain ⟨q, hread, hrest⟩ := bind_eq_ok h
            obtain ⟨r, hothers, hnode⟩ := gathers_of_readNodeMembers hrest
            exact ⟨r, .field (by simpa using hfresh) hread hothers, hnode⟩

/-- The field at a place, and those behind it. -/
theorem NodeField.drop_all {position : Nat} (h : all[position]? = some f) :
    all.drop position = f :: all.drop (position + 1) ∧ f ∉ all.drop (position + 1) := by
  obtain ⟨hlt, hget⟩ := List.getElem?_eq_some_iff.mp h
  have hdrop : all.drop position = f :: all.drop (position + 1) := by
    rw [List.drop_eq_getElem_cons hlt, hget]
  have hall : all.Nodup := by decide
  have hnodup := (List.drop_sublist position all).nodup hall
  rw [hdrop] at hnodup
  exact ⟨hdrop, (List.nodup_cons.mp hnodup).1⟩

theorem gathers_of_readNodeItems {p : NodeParts} {items : Items} {position : Nat} {n : Node}
    (hplace : position ≤ NodeField.all.length)
    (hfresh : ∀ f ∈ NodeField.all.drop position, p.has f = false)
    (h : readNodeItems o position p items = .ok n) :
    items.toList.length + position ≤ NodeField.all.length ∧
      ∃ q missing, Gathers o p ((NodeField.all.drop position).zip items.toList) q ∧
        q.node missing = .ok n := by
  match items with
  | .done =>
      rw [readNodeItems] at h
      refine ⟨by simpa [Json.Items.toList] using hplace, p, _, ?_, h⟩
      unfold Json.Items.toList
      rw [List.zip_nil_right]
      exact .nothing p
  | .broken cause =>
      rw [readNodeItems] at h
      exact nomatch h
  | .next value rest =>
      rw [readNodeItems_next] at h
      cases hfield : NodeField.all[position]? with
      | none =>
          rw [hfield] at h
          -- An item too many is refused, in a value as in a text.
          obtain ⟨_, hclose, -⟩ := bind_eq_ok h
          cases o <;> exact nomatch hclose
      | some f =>
          rw [hfield] at h
          obtain ⟨hlt, -⟩ := List.getElem?_eq_some_iff.mp hfield
          obtain ⟨hdrop, hnot⟩ := NodeField.drop_all hfield
          obtain ⟨q, hread, hrest⟩ := bind_eq_ok h
          rw [hdrop, List.forall_mem_cons] at hfresh
          have hothers : ∀ g ∈ NodeField.all.drop (position + 1), q.has g = false := by
            intro g hg
            rw [NodeParts.has_read hread, if_neg fun hgf : g = f => hnot (hgf ▸ hg)]
            exact hfresh.2 g hg
          obtain ⟨hlength, r, missing, hgathers, hnode⟩ :=
            gathers_of_readNodeItems hlt hothers hrest
          rw [hdrop]
          refine ⟨?_, r, missing, .field hfresh.1 hread hgathers, hnode⟩
          rw [Json.Items.toList, List.length_cons]
          omega

/-! ### One part from one field -/

/-- A part of a node that comes of one field and of no other. -/
structure ComesOf {α : Type} (o : Origin) (f : NodeField) (part : NodeParts → Option α)
    (reads : Reading → Except JsonError α) : Prop where
  has (p : NodeParts) : p.has f = (part p).isSome
  own {p q : NodeParts} {value : Reading} (h : p.read o value f = .ok q) :
    ∃ a, reads value = .ok a ∧ part q = some a
  other {p q : NodeParts} {value : Reading} {g : NodeField} (hne : g ≠ f)
    (h : p.read o value g = .ok q) : part q = part p

/-- The reading of a field leaves the parts of the other fields as they are. -/
theorem NodeParts.read_others (h : p.read o value g = .ok q) :
    (g ≠ .kind → q.kind = p.kind) ∧ (g ≠ .props → q.props = p.props) ∧
      (g ≠ .style → q.style = p.style) ∧ (g ≠ .children → q.children = p.children) := by
  cases g <;> obtain ⟨_, -, rfl⟩ := read_eq_ok_iff.mp h <;> simp

theorem comesOf_kind : ComesOf o .kind NodeParts.kind readKind where
  has _ := rfl
  own h := by
    obtain ⟨a, hvalue, rfl⟩ := NodeParts.read_eq_ok_iff.mp h
    exact ⟨a, hvalue, rfl⟩
  other hne h := (NodeParts.read_others h).1 hne

theorem comesOf_props : ComesOf o .props NodeParts.props (Reading.asDict o) where
  has _ := rfl
  own h := by
    obtain ⟨a, hvalue, rfl⟩ := NodeParts.read_eq_ok_iff.mp h
    exact ⟨a, hvalue, rfl⟩
  other hne h := (NodeParts.read_others h).2.1 hne

theorem comesOf_style : ComesOf o .style NodeParts.style (Reading.asDict o) where
  has _ := rfl
  own h := by
    obtain ⟨a, hvalue, rfl⟩ := NodeParts.read_eq_ok_iff.mp h
    exact ⟨a, hvalue, rfl⟩
  other hne h := (NodeParts.read_others h).2.2.1 hne

theorem comesOf_children : ComesOf o .children NodeParts.children (readNodes o) where
  has _ := rfl
  own h := by
    obtain ⟨a, hvalue, rfl⟩ := NodeParts.read_eq_ok_iff.mp h
    exact ⟨a, hvalue, rfl⟩
  other hne h := (NodeParts.read_others h).2.2.2 hne

/-- What comes of a field that may be missing. -/
def FieldReads {α : Type} (reads : Reading → Except JsonError α) :
    Option Reading → Option α → Prop
  | none, part => part = none
  | some value, part => ∃ a, reads value = .ok a ∧ part = some a

/-- **A part is read from its field**, if there is one. -/
theorem ComesOf.gathered {α : Type} {part : NodeParts → Option α}
    {reads : Reading → Except JsonError α} (hpart : ComesOf o f part reads)
    {fields : List (NodeField × Reading)} (h : Gathers o p fields q) :
    (∀ a, part p = some a → part q = some a) ∧
      (part p = none → FieldReads reads (fields.lookup f) (part q)) := by
  induction h with
  | nothing p => exact ⟨fun _ h => h, fun h => h⟩
  | @field p q r g value rest fresh read others ih =>
      obtain ⟨hkept, hread⟩ := ih
      by_cases hg : g = f
      · subst hg
        have hnone : part p = none := by
          rw [hpart.has] at fresh
          simpa using fresh
        obtain ⟨a, hvalue, hq⟩ := hpart.own read
        refine ⟨fun b hb => ?_, fun _ => ?_⟩
        · rw [hnone] at hb
          exact nomatch hb
        · rw [List.lookup_cons_self]
          exact ⟨a, hvalue, hkept a hq⟩
      · have hbeq : (f == g) = false := beq_eq_false_iff_ne.mpr (Ne.symm hg)
        rw [hpart.other hg read] at hkept hread
        rw [List.lookup_cons, hbeq]
        exact ⟨hkept, hread⟩

/-- What a part is that may be missing: empty, or what is read from its field. -/
def PartReads {α : Type} (reads : Reading → Except JsonError α) (empty : α) :
    Option Reading → α → Prop
  | none, a => a = empty
  | some value, a => reads value = .ok a

theorem FieldReads.partReads_iff {α : Type} {reads : Reading → Except JsonError α} {empty a : α}
    {written : Option Reading} {part : Option α} (h : FieldReads reads written part) :
    PartReads reads empty written a ↔ part.getD empty = a := by
  cases written with
  | none =>
      obtain rfl : part = none := h
      exact eq_comm
  | some value =>
      obtain ⟨b, hvalue, rfl⟩ := h
      show reads value = .ok a ↔ b = a
      rw [hvalue, Except.ok.injEq]

/-! ### A node from its fields -/

/-- A node that is read from fields: its tag has to be written, and its other parts may be. -/
structure ReadsAs (o : Origin) (fields : List (NodeField × Reading)) (n : Node) : Prop where
  once : (fields.map Prod.fst).Nodup
  kind : ∃ tag, fields.lookup .kind = some tag ∧ readKind tag = .ok n.kind
  props : PartReads (Reading.asDict o) .empty (fields.lookup .props) n.props
  style : PartReads (Reading.asDict o) .empty (fields.lookup .style) n.style
  children : PartReads (readNodes o) [] (fields.lookup .children) n.children

/-- The node of parts that were gathered from fields is what they are read as, if they hold a
tag. -/
theorem Gathers.node_eq_ok_iff {fields : List (NodeField × Reading)}
    (h : Gathers o .none fields q) {missing : Json.DataError} {n : Node} :
    q.node missing = .ok n ↔ ReadsAs o fields n := by
  have hkind := (comesOf_kind.gathered h).2 rfl
  have hprops := (comesOf_props.gathered h).2 rfl
  have hstyle := (comesOf_style.gathered h).2 rfl
  have hchildren := (comesOf_children.gathered h).2 rfl
  unfold NodeParts.node
  cases htag : fields.lookup .kind with
  | none =>
      rw [htag] at hkind
      have hnone : q.kind = none := hkind
      rw [hnone]
      constructor
      · intro hnode
        exact nomatch hnode
      · intro hn
        obtain ⟨tag, hsome, -⟩ := hn.kind
        rw [htag] at hsome
        exact nomatch hsome
  | some tag =>
      rw [htag] at hkind
      obtain ⟨kind, hread, hsome⟩ := hkind
      rw [hsome, Except.ok.injEq]
      constructor
      · rintro rfl
        exact ⟨h.once.1, ⟨tag, htag, hread⟩, hprops.partReads_iff.mpr rfl,
          hstyle.partReads_iff.mpr rfl, hchildren.partReads_iff.mpr rfl⟩
      · intro hn
        obtain ⟨_, hsame, hagain⟩ := hn.kind
        obtain rfl := Option.some.inj (htag.symm.trans hsame)
        obtain rfl := Except.ok.inj (hread.symm.trans hagain)
        rw [hprops.partReads_iff.mp hn.props, hstyle.partReads_iff.mp hn.style,
          hchildren.partReads_iff.mp hn.children]
        cases n
        rfl

/-- **What a node is read from.** -/
theorem readNode_ok {r : Reading} {n : Node} (h : readNode o r = .ok n) :
    ∃ o' fields, o.enter = .ok o' ∧ r.fields? = some fields ∧ ReadsAs o' fields n := by
  cases r with
  | object members =>
      rw [readNode] at h
      obtain ⟨o', henter, hmembers⟩ := bind_eq_ok h
      obtain ⟨q, hgathers, hnode⟩ := gathers_of_readNodeMembers hmembers
      exact ⟨o', members.fields, henter, rfl, hgathers.node_eq_ok_iff.mp hnode⟩
  | array items =>
      rw [readNode] at h
      obtain ⟨o', henter, hitems⟩ := bind_eq_ok h
      have hfresh : ∀ f ∈ NodeField.all.drop 0, NodeParts.none.has f = false := by decide
      obtain ⟨hlength, q, missing, hgathers, hnode⟩ :=
        gathers_of_readNodeItems (Nat.zero_le _) hfresh hitems
      exact ⟨o', _, henter, if_pos hlength, hgathers.node_eq_ok_iff.mp hnode⟩
  | _ =>
      rw [readNode] at h
      · exact absurd h (Json.mismatch_ne_ok _ _ _)
      all_goals simp

theorem readNodeList_ok {items : Items} {ns : List Node} (h : readNodeList o items = .ok ns) :
    List.Forall₂ (fun r n => readNode o r = .ok n) items.toList ns := by
  match items with
  | .done =>
      rw [readNodeList] at h
      obtain rfl := Except.ok.inj h
      exact .nil
  | .broken cause =>
      rw [readNodeList] at h
      exact nomatch h
  | .next first rest =>
      rw [readNodeList] at h
      obtain ⟨n, hfirst, h⟩ := bind_eq_ok h
      obtain ⟨ns, hrest, h⟩ := bind_eq_ok h
      obtain rfl := Except.ok.inj h
      exact .cons hfirst (readNodeList_ok hrest)

/-- Children are read one by one, from the items of a list. -/
theorem readNodes_ok {r : Reading} {ns : List Node} (h : readNodes o r = .ok ns) :
    ∃ items o', r = .array items ∧ o.enter = .ok o' ∧
      List.Forall₂ (fun r n => readNode o' r = .ok n) items.toList ns := by
  cases r with
  | array items =>
      rw [readNodes] at h
      obtain ⟨o', henter, hitems⟩ := bind_eq_ok h
      exact ⟨items, o', rfl, henter, readNodeList_ok hitems⟩
  | _ =>
      rw [readNodes] at h
      · exact absurd h (Json.mismatch_ne_ok _ _ _)
      all_goals simp

end Receipt
