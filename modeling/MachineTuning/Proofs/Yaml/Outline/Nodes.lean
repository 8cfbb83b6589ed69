import MachineTuning.Proofs.Yaml.Block.Nodes
import MachineTuning.Proofs.Yaml.Outline.Tokens

namespace MachineTuning.Yaml

/-!
# Outlines as nodes

The tokens of an outline are read as a node of the same form, with every text as it is written.  Not
even the words for nothing are an exception: that is for the reader of the node to see.

* `Outline.takes`, `Outline.Members.takes` — the nodes of the parts;
* `Outline.Members.exists_parse?_eq` — the document that is written.
-/

namespace Node

mutual
/-- A node has the form of an outline, and its texts are the ones that are written. -/
def Shows (node : Node) : Outline → Prop
  | .text s => ∃ mark, node = .scalar { mark } .plain s.text
  | .mapping members => ∃ mark nodes, node = .mapping { mark } nodes ∧ ShowMembers nodes members

/-- So have the members of a mapping. -/
def ShowMembers (nodes : List (Node × Node)) : Outline.Members → Prop
  | .last key value =>
    ∃ keyNode valueNode rest, nodes = (keyNode, valueNode) :: rest ∧ keyNode.IsText key.text ∧
      Shows valueNode value ∧ rest = []
  | .cons key value members =>
    ∃ keyNode valueNode rest, nodes = (keyNode, valueNode) :: rest ∧ keyNode.IsText key.text ∧
      Shows valueNode value ∧ ShowMembers rest members
end

end Node

namespace Outline

open Node (take? takeBlockMembers? endsBlockPart)

variable {handles : TagHandles}

/-- An outline has tokens, and the first one ends no part of a block. -/
theorem exists_kinds_eq_cons (outline : Outline) :
    ∃ kind kinds, outline.kinds = kind :: kinds ∧ endsBlockPart kind = false := by
  cases outline <;> exact ⟨_, _, rfl, rfl⟩

mutual
/-- **A node for each outline.** -/
theorem takes : ∀ (outline : Outline) {indentless : Bool} {o : Outlook} {rest : List TokenKind}
    {fuel : Nat}, o.kinds = outline.kinds ++ rest → 2 * outline.kinds.length ≤ fuel →
    Takes (take? handles fuel true indentless o) True (·.Shows outline) rest
  | .text s, indentless, o, rest, fuel, ho, hfuel => by
    rw [kinds, List.length_singleton] at hfuel
    obtain ⟨fuel, rfl⟩ : ∃ n, fuel = n + 1 := ⟨fuel - 1, by omega⟩
    refine .of_eq_some (Node.take?_scalar ho) ⟨o.start, ?_⟩ (o.kinds_drop ho)
    rw [String.ofList_toList]
  | .mapping members, indentless, o, rest, fuel, ho, hfuel => by
    -- Start and end of the block take a token each, and the members what is between.
    have hstart : o.kinds = .blockMappingStart :: (members.kinds ++ .blockEnd :: rest) := by
      rw [ho, kinds, List.cons_append, List.cons_append, List.append_assoc, List.singleton_append]
    rw [kinds, List.length_append, List.length_cons, List.length_singleton] at hfuel
    obtain ⟨fuel, rfl⟩ : ∃ n, fuel = n + 2 := ⟨fuel - 2, by omega⟩
    rw [Node.take?_blockMapping hstart]
    refine (members.takes (o.kinds_drop hstart) (by omega)).andThen fun nodes o' hnodes ho' => ?_
    exact .of_eq_some rfl ⟨o.start, nodes, rfl, hnodes⟩ ho'

/-- **The nodes of members**, up to the end of their block. -/
theorem Members.takes : ∀ (members : Members) {o : Outlook} {rest : List TokenKind} {fuel : Nat},
    o.kinds = members.kinds ++ .blockEnd :: rest → 2 * members.kinds.length ≤ fuel + 1 →
    Takes (takeBlockMembers? handles fuel o) True (Node.ShowMembers · members) rest
  | .last key value, o, rest, fuel, ho, hfuel => by
    simp only [Members.kinds, List.cons_append, List.length_cons] at ho hfuel
    obtain ⟨fuel, rfl⟩ : ∃ n, fuel = n + 3 := ⟨fuel - 3, by omega⟩
    refine takes_blockMember value.exists_kinds_eq_cons ho
      (fun _ ho' => value.takes ho' (by omega)) fun o' ho' => ?_
    exact .of_eq_some (Node.takeBlockMembers?_end ho') rfl (o'.kinds_drop ho')
  | .cons key value members, o, rest, fuel, ho, hfuel => by
    simp only [Members.kinds, List.cons_append, List.append_assoc, List.length_cons,
      List.length_append] at ho hfuel
    obtain ⟨fuel, rfl⟩ : ∃ n, fuel = n + 3 := ⟨fuel - 3, by omega⟩
    exact takes_blockMember value.exists_kinds_eq_cons ho
      (fun _ ho' => value.takes ho' (by omega)) fun _ ho' => members.takes ho' (by omega)
end

/-- **An outline as a document.**  What is written for members, with or without a break at the end,
    is a document whose root shows them. -/
theorem Members.exists_parse?_eq (members : Members) {ending : List Char}
    (hending : ending = [] ∨ ending = ['\n']) :
    ∃ document, Document.parse? (String.ofList (members.chars 0 ++ ending)) = some document ∧
      document.root.Shows (.mapping members) := by
  refine exists_parse?_of_takes (·.Shows (.mapping members)) (members.ofChars?_eq hending)
    fun o fuel ho hfuel => Outline.takes (.mapping members) ho ?_
  simpa [Outline.kinds] using hfuel

end Outline

end MachineTuning.Yaml
