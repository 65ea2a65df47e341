import Curator.Shape
import Curator.Yaml.Node
/-!
The trees that the nodes of a YAML text stand for: aliases are followed, and members that a reader
does not look at are left out. An alias may lie inside the very node that it refers to, which does
no harm where nobody looks; elsewhere the tree would never end. So the depth of a tree is limited,
and so is the number of aliases that are followed, in proportion to the size of the text.
-/

set_option autoImplicit false

namespace Curator.Yaml

inductive Tree where
  | nothing
  | scalar (tag : Option String) (text : String) (style : Style)
  | sequence (tag : Option String) (items : List Tree)
  | mapping (tag : Option String) (members : List (Tree × Tree))
deriving Repr, Inhabited

namespace Tree

def text? : Tree → Option String
  | .scalar _ text _ => some text
  | _ => none

def maxDepth : Nat := 128

def maxFollowed (size : Nat) : Nat := 100 * size

abbrev Unfolding := StateT Nat Option

def follow (anchors : List (Nat × Node)) : Node → Unfolding Node
  | .aliasOf number => do
      match ← get with
      | 0 => failure
      | left + 1 =>
          set left
          anchors.lookup number
  | .anchored _ node => return node
  | node => return node

def unfoldMembers (unfold : Shape → Node → Unfolding Tree) (shape : Shape) :
    List (Node × Node) → Unfolding (List (Tree × Tree))
  | [] => return []
  | (key, value) :: rest => do
      let key ← unfold .whole key
      match key.text?.elim (some .whole) shape.member? with
      | some member => return (key, ← unfold member value) :: (← unfoldMembers unfold shape rest)
      | none => unfoldMembers unfold shape rest

def unfold (anchors : List (Nat × Node)) (depth : Nat) (shape : Shape) (node : Node) :
    Unfolding Tree := do
  match ← follow anchors node, depth with
  | .nothing, _ => return .nothing
  | .scalar tag text style, _ => return .scalar tag text style
  | .sequence tag items, depth + 1 =>
      return .sequence tag (← items.mapM (unfold anchors depth shape.item))
  | .mapping tag members, depth + 1 =>
      return .mapping tag (← unfoldMembers (unfold anchors depth) shape members)
  | _, _ => failure
termination_by structural depth

def ofNode? (shape : Shape) (node : Node) : Option Tree :=
  ((unfold node.anchors.reverse maxDepth shape node).run (maxFollowed node.size)).map Prod.fst

def parse? (shape : Shape) (text : String) : Option Tree := (Node.parse? text).bind (ofNode? shape)

end Tree

end Curator.Yaml
