import MachineTuning.Schema.OfJson
import MachineTuning.Yaml.Scalar

namespace MachineTuning

/-!
# Reading YAML nodes by a schema

`Schema.ofNode` reads a node.  Where a text is expected any scalar is taken as it is spelled;
where something else is expected its meaning counts.  The members of a mapping are visited in the
order of the document, a declared one may stand there only once, and the first that does not fit
decides the outcome.  A `Yaml.Fault` says what was wrong and where: the path to the value and the
place of the node, or for a missing or repeated member those of the mapping around it.
-/

namespace Yaml

/-- The words of mismatches in YAML documents. -/
def wording : Wording := ⟨"unit value", Binary64.positionalText⟩

/-- The way from the root of a document to a node. -/
inductive Path where
  | root
  | item (parent : Path) (index : Nat)
  | member (parent : Path) (key : String)
  /-- A value whose key is not spelled where it stands. -/
  | unnamed (parent : Path)

namespace Path

/-- A path in front of the name of a part. -/
def beforePart (path : Path) (text : String) : String :=
  match path with
  | .root => ""
  | _ => text ++ "."

/-- A path as text; the root is a dot. -/
def text : Path → String
  | .root => "."
  | .item parent index => parent.text ++ "[" ++ toString index ++ "]"
  | .member parent key => parent.beforePart parent.text ++ key
  | .unnamed parent => parent.beforePart parent.text ++ "?"

end Path

/-- What was wrong in a document, and where. -/
structure Fault where
  mismatch : Mismatch
  place : Option (Path × Mark) := none

namespace Fault

/-- The fault with a place, unless it has one. -/
def placedAt (path : Path) (mark : Mark) (fault : Fault) : Fault :=
  { fault with place := fault.place <|> some (path, mark) }

/-- A place in a text as people count; the very start is not mentioned. -/
def describeMark (mark : Mark) : String :=
  if mark.line = 0 ∧ mark.column = 0 then ""
  else " at line " ++ toString (mark.line + 1) ++ " column " ++ toString (mark.column + 1)

/-- A fault in words. -/
def message (fault : Fault) : String :=
  let words := fault.mismatch.message wording
  match fault.place with
  | none => words
  | some (.root, mark) => words ++ describeMark mark
  | some (path, mark) => path.text ++ ": " ++ words ++ describeMark mark

end Fault

/-- Why a node does not fit where something else is expected. -/
def Node.mismatch (expected : String) : Node → Mismatch
  | .scalar props style s => Scalar.mismatch props style s expected
  | .sequence _ _ => .invalidType .sequence expected
  | .mapping _ _ => .invalidType .map expected
  | .alias _ _ => .invalidType .null expected

/-- A node that does not fit, as an outcome. -/
def Node.refuse {α : Type} (path : Path) (expected : String) (node : Node) : Except Fault α :=
  .error ⟨node.mismatch expected, some (path, node.mark)⟩

/-- The outcome of reading a scalar's text. -/
def placed {α : Type} (path : Path) (mark : Mark) (outcome : Except Mismatch α) :
    Except Fault α :=
  outcome.mapError fun mismatch => ⟨mismatch, some (path, mark)⟩

/-- A key of a mapping and the path to its value. -/
def readKey (anchors : List (Nat × Node)) (path : Path) (expected : String) (key : Node) :
    Except Fault (String × Path) :=
  match key with
  | .scalar _ _ s => .ok (s, .member path s)
  | key =>
    -- A path tells only the keys that are written where they stand.
    match key.target anchors with
    | .scalar _ _ s => .ok (s, .unnamed path)
    | key => key.refuse path expected

/-- The members of a mapping as changes to a record.  `read?` reads a declared member and gives
    nothing for the others; `seen` are the declared keys so far. -/
def readMembers {α : Type} (anchors : List (Nat × Node)) (path : Path)
    (read? : String → Path → Node → Option (Except Fault (α → α))) (seen : List String) :
    List (Node × Node) → Except Fault (List (String × (α → α)))
  | [] => .ok []
  | (keyNode, value) :: members => do
    let (key, valuePath) ← readKey anchors path "field identifier" keyNode
    match read? key valuePath value with
    | none => readMembers anchors path read? seen members
    | some outcome =>
      -- Members that are not declared may come again, declared ones may not.
      if key ∈ seen then .error ⟨.duplicateField key, none⟩
      else
        let update ← outcome
        return (key, update) :: (← readMembers anchors path read? (key :: seen) members)

/-- The entries of a mapping of texts. -/
def readLabels (anchors : List (Nat × Node)) (path : Path) :
    List (Node × Node) → Except Fault (List (String × String))
  | [] => .ok []
  | (keyNode, value) :: members => do
    let (key, valuePath) ← readKey anchors path "a string" keyNode
    match value.target anchors with
    | .scalar _ _ s => return (key, s) :: (← readLabels anchors path members)
    | value => value.refuse valuePath "a string"

/-- The items of a sequence, each read with the path to it. -/
def readItems {α : Type} (path : Path) (read : Path → Node → Except Fault α) (index : Nat) :
    List Node → Except Fault (List α)
  | [] => .ok []
  | item :: items => do
    let a ← read (.item path index) item
    return a :: (← readItems path read (index + 1) items)

/-- The members of a mapping.  Where nothing is written there are none. -/
def Node.members? : Node → Option (List (Node × Node))
  | .mapping _ members => some members
  | .scalar _ .plain "" => some []
  | _ => none

/-- The items of a sequence.  Where nothing is written there are none. -/
def Node.items? : Node → Option (List Node)
  | .sequence _ items => some items
  | .scalar _ .plain "" => some []
  | _ => none

/-- The name that a choice spells: its text, or its tag if that is one of the document's own. -/
def choiceName (props : Properties) (s : String) : String :=
  match props.tag with
  | some tag =>
    match tag.toList with
    | '!' :: c :: cs => String.ofList (c :: cs)
    | _ => s
  | none => s

end Yaml

open Yaml

mutual
/-- The value that a node spells, or what was wrong with it.  `anchors` are the nodes that
    aliases stand for. -/
def Schema.ofNode {α : Type} (anchors : List (Nat × Node)) :
    Schema α → Path → Node → Except Fault α
  | .text, path, node =>
    match node.target anchors with
    | .scalar _ _ s => .ok s
    | node => node.refuse path "a string"
  | .flag, path, node =>
    match node.target anchors with
    | .scalar props style s =>
      match if Scalar.isOpen props style "bool" then Scalar.boolean? s else none with
      | some b => .ok b
      | none => Node.refuse path "a boolean" (.scalar props style s)
    | node => node.refuse path "a boolean"
  | .int32, path, node =>
    match node.target anchors with
    | .scalar props style s =>
      match if Scalar.isOpen props style "int" then Scalar.signed? s else none with
      | some n =>
        match int32OfInt? n with
        | some word => .ok word
        | none => placed path props.mark (.error (.invalidValue (.integer n) "i32"))
      | none => Node.refuse path "i32" (.scalar props style s)
    | node => node.refuse path "i32"
  | .uint32, path, node =>
    match node.target anchors with
    | .scalar props style s =>
      match if Scalar.isOpen props style "int" then Scalar.unsigned? 64 s else none with
      | some n =>
        match uint32OfInt? n with
        | some word => .ok word
        | none => placed path props.mark (.error (.invalidValue (.integer n) "u32"))
      | none => Node.refuse path "u32" (.scalar props style s)
    | node => node.refuse path "u32"
  | .optional inner, path, node =>
    match node.target anchors with
    | .scalar props style s =>
      match Scalar.isAbsent props style s with
      -- Such a fault is placed by the collection around the scalar.
      | .error mismatch => .error ⟨mismatch, none⟩
      | .ok true => .ok none
      | .ok false => (inner.ofNode anchors path (.scalar props style s)).map some
    | node => (inner.ofNode anchors path node).map some
  | .list item, path, node =>
    let node := node.target anchors
    match node.items? with
    | some items =>
      (readItems path (fun path node => item.ofNode anchors path node) 0 items).mapError
        (Fault.placedAt path node.mark)
    | none => node.refuse path "a sequence"
  | .labels, path, node =>
    let node := node.target anchors
    match node.members? with
    | some members => do return KeyMap.ofList (← readLabels anchors path members)
    | none => node.refuse path "a map"
  | .choice options _, path, node =>
    match node.target anchors with
    | .scalar props _ s => placed path props.mark (optionNamed options (choiceName props s))
    | node => node.refuse path "a YAML tag starting with '!'"
  | .record name blank fields, path, node =>
    let node := node.target anchors
    match node.members? with
    | some members =>
      Except.mapError (Fault.placedAt path node.mark) do
        let updates ← readMembers anchors path
          (fun key path value => fields.ofNodeMember? anchors key path value) [] members
        -- A missing member is placed where the record starts.
        (fields.complete updates blank).mapError fun mismatch => ⟨mismatch, none⟩
    | none => node.refuse path ("struct " ++ name)

/-- The reading of a member as a change to the record, if the member is declared. -/
def Fields.ofNodeMember? {α : Type} (anchors : List (Nat × Node)) :
    Fields α → String → Path → Node → Option (Except Fault (α → α))
  | .nil, _, _, _ => none
  | .cons key _ schema _ set rest, name, path, node =>
    if name = key then some ((schema.ofNode anchors path node).map set)
    else rest.ofNodeMember? anchors name path node
end

-- Every proof about the reader goes by these equations, so they are derived here, once for all.
attribute [grind =] Schema.ofNode Fields.ofNodeMember?

end MachineTuning
