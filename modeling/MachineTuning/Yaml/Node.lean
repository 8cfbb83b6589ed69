import MachineTuning.Yaml.Token

namespace MachineTuning.Yaml

/-!
# Nodes — what a document holds

A document is a tree of scalars, sequences and mappings.  A node knows the place where it starts,
may have a tag, and may be anchored, so that aliases elsewhere stand for it.  Anchors are
numbered; `Node.target` finds the node that an alias stands for.
-/

/-- What stands in front of the content of a node. -/
structure Properties where
  /-- The place where the node starts. -/
  mark : Mark
  anchor : Option Nat := none
  tag : Option String := none
  deriving DecidableEq

/-- A node of a document. -/
inductive Node where
  | scalar (props : Properties) (style : ScalarStyle) (text : String)
  | sequence (props : Properties) (items : List Node)
  | mapping (props : Properties) (members : List (Node × Node))
  | alias (mark : Mark) (anchor : Nat)

namespace Node

mutual
/-- Whether two nodes are the same. -/
def decEq : (node node' : Node) → Decidable (node = node')
  | .scalar props style text, .scalar props' style' text' =>
    decidable_of_iff (props = props' ∧ style = style' ∧ text = text') (by simp)
  | .sequence props items, .sequence props' items' =>
    let _ := decEqItems items items'
    decidable_of_iff (props = props' ∧ items = items') (by simp)
  | .mapping props members, .mapping props' members' =>
    let _ := decEqMembers members members'
    decidable_of_iff (props = props' ∧ members = members') (by simp)
  | .alias mark anchor, .alias mark' anchor' =>
    decidable_of_iff (mark = mark' ∧ anchor = anchor') (by simp)
  | .scalar .., .sequence .. | .scalar .., .mapping .. | .scalar .., .alias ..
  | .sequence .., .scalar .. | .sequence .., .mapping .. | .sequence .., .alias ..
  | .mapping .., .scalar .. | .mapping .., .sequence .. | .mapping .., .alias ..
  | .alias .., .scalar .. | .alias .., .sequence .. | .alias .., .mapping .. => isFalse nofun

/-- Whether two lists hold the same items. -/
def decEqItems : (items items' : List Node) → Decidable (items = items')
  | [], [] => isTrue rfl
  | item :: items, item' :: items' =>
    let _ := decEq item item'
    let _ := decEqItems items items'
    decidable_of_iff (item = item' ∧ items = items') (by simp)
  | [], _ :: _ | _ :: _, [] => isFalse nofun

/-- Whether two lists hold the same members. -/
def decEqMembers : (members members' : List (Node × Node)) → Decidable (members = members')
  | [], [] => isTrue rfl
  | (key, value) :: members, (key', value') :: members' =>
    let _ := decEq key key'
    let _ := decEq value value'
    let _ := decEqMembers members members'
    decidable_of_iff (key = key' ∧ value = value' ∧ members = members') (by simp [and_assoc])
  | [], _ :: _ | _ :: _, [] => isFalse nofun
end

/-- Whether two nodes are equal can be computed. -/
instance : DecidableEq Node := decEq

/-- The scalar that stands where nothing is written. -/
def absent (mark : Mark) : Node :=
  .scalar { mark } .plain ""

/-- The place where a node starts. -/
def mark : Node → Mark
  | .scalar props _ _ => props.mark
  | .sequence props _ => props.mark
  | .mapping props _ => props.mark
  | .alias mark _ => mark

mutual
/-- The anchored nodes of a tree, in the order in which they start. -/
def anchored : Node → List (Nat × Node)
  | .scalar props style text =>
    props.anchor.toList.map fun n => (n, .scalar props style text)
  | .sequence props items =>
    (props.anchor.toList.map fun n => (n, .sequence props items)) ++ anchoredItems items
  | .mapping props members =>
    (props.anchor.toList.map fun n => (n, .mapping props members)) ++ anchoredMembers members
  | .alias _ _ => []

/-- The anchored nodes of several items. -/
def anchoredItems : List Node → List (Nat × Node)
  | [] => []
  | item :: items => anchored item ++ anchoredItems items

/-- The anchored nodes of several members. -/
def anchoredMembers : List (Node × Node) → List (Nat × Node)
  | [] => []
  | (key, value) :: members => anchored key ++ anchored value ++ anchoredMembers members
end

/-- The node that a node stands for: of those with an alias's anchor the last, and otherwise the
    node itself. -/
def target (anchors : List (Nat × Node)) : Node → Node
  | .alias mark anchor =>
    ((anchors.reverse.find? (·.1 = anchor)).map (·.2)).getD (.alias mark anchor)
  | node => node

end Node

end MachineTuning.Yaml
