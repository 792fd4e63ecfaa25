/-
**Documents as trees, and their written forms.**

A value is turned into a tree of texts, whole numbers, lists and objects, and the tree is written
out in a layout.  The compact layout puts nothing between the tokens.  The spread layout starts a
line for every element, two spaces further in at each depth, and leaves a space behind each colon;
empty brackets stay together in both.

Main definitions:

* `Tree` — the trees;
* `Layout`, `Layout.compact`, `Layout.spread` — what stands between tokens;
* `Tree.write` — the written form of a tree.
-/

import StudyTime.Json.Text
import StudyTime.Json.Number

set_option relaxedAutoImplicit false
set_option autoImplicit false

namespace StudyTime.Json

/-- A document. -/
inductive Tree where
  | text (s : String)
  | number (n : Int)
  | list (items : List Tree)
  /-- An object, its members in the order in which they are written. -/
  | object (members : List (String × Tree))

/-- What stands between the tokens of a written document. -/
structure Layout where
  /-- What stands in front of an element at this depth, and of a closing bracket. -/
  line : Nat → List Char
  gap : List Char

/-- Nothing between the tokens. -/
def Layout.compact : Layout := ⟨fun _ => [], []⟩

/-- A line for every element, indented by two spaces for each depth. -/
def Layout.spread : Layout := ⟨fun depth => '\n' :: List.replicate (2 * depth) ' ', [' ']⟩

mutual

/-- The written form of a tree whose brackets stand at this depth. -/
def Tree.write (l : Layout) (depth : Nat) : Tree → List Char
  | .text s => quote s
  | .number n => writeInt n
  | .list [] => ['[', ']']
  | .list (t :: ts) =>
    '[' :: (l.line (depth + 1) ++ t.write l (depth + 1) ++ writeItems l (depth + 1) ts ++
      l.line depth ++ [']'])
  | .object [] => [braceOpen, braceClose]
  | .object (m :: ms) =>
    braceOpen :: (l.line (depth + 1) ++ writeMember l (depth + 1) m ++
      writeMembers l (depth + 1) ms ++ l.line depth ++ [braceClose])

/-- The written form of the elements that follow another one. -/
def Tree.writeItems (l : Layout) (depth : Nat) : List Tree → List Char
  | [] => []
  | t :: ts => ',' :: (l.line depth ++ t.write l depth ++ writeItems l depth ts)

/-- The written form of a member. -/
def Tree.writeMember (l : Layout) (depth : Nat) : String × Tree → List Char
  | (name, t) => quote name ++ ':' :: (l.gap ++ t.write l depth)

/-- The written form of the members that follow another one. -/
def Tree.writeMembers (l : Layout) (depth : Nat) : List (String × Tree) → List Char
  | [] => []
  | m :: ms => ',' :: (l.line depth ++ writeMember l depth m ++ writeMembers l depth ms)

end

end StudyTime.Json
