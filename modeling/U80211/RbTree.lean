import Mathlib.Logic.Function.Basic
import U80211.Lib.RedBlack

/-!
# `src/rbtree.c`: intrusive red-black trees

The nodes live in memory that belongs to the callers; `RbTree` is this memory and the pointer to the
root. An access through `NULL`, or to a node that is not there, answers `none`. A loop takes a
bound on its rounds, and answers `none` when it has not ended by then.
-/

namespace U80211

open RedBlack

/-- `u80211_rbtree_t`. The colour is the least significant bit of the parent pointer there, which is
`0` in the address of a node. -/
structure RbNode (α : Type) where
  left : Option α
  right : Option α
  parent : Option α
  colour : Colour
deriving DecidableEq

/-- The nodes in memory, and the pointer to the root. -/
structure RbTree (α : Type) where
  nodes : α → Option (RbNode α)
  root : Option α

namespace RbNode

variable {α : Type}

/-- The child on a side. -/
def child (n : RbNode α) : Side → Option α
  | .left => n.left
  | .right => n.right

def setChild (n : RbNode α) : Side → Option α → RbNode α
  | .left, x => { n with left := x }
  | .right, x => { n with right := x }

end RbNode

namespace RbTree

variable {α : Type} [DecidableEq α]

/-! ## Accesses -/

/-- The node that a pointer points to. -/
def load (t : RbTree α) (x : Option α) : Option (RbNode α) := x.bind t.nodes

/-- Change the node that a pointer points to. -/
def modify (t : RbTree α) (x : Option α) (f : RbNode α → RbNode α) : Option (RbTree α) := do
  let y ← x
  let n ← t.nodes y
  some { t with nodes := Function.update t.nodes y (some (f n)) }

/-- `RBTREE_NODE_GET_COLOUR` -/
def colourOf (t : RbTree α) (x : Option α) : Option Colour :=
  match x with
  | none => some .black
  | some y => (t.nodes y).map (·.colour)

/-- `RBTREE_NODE_SET_COLOUR` -/
def setColour (t : RbTree α) (x : Option α) (colour : Colour) : Option (RbTree α) :=
  t.modify x fun n => { n with colour }

/-- `RBTREE_NODE_SET_PARENT` -/
def setParent (t : RbTree α) (x parent : Option α) : Option (RbTree α) :=
  t.modify x fun n => { n with parent }

def setChild (t : RbTree α) (s : Side) (x child : Option α) : Option (RbTree α) :=
  t.modify x fun n => n.setChild s child

/-- The pointer to `old`, in its parent or to the root, is set to `new`. -/
def replaceChild (t : RbTree α) (parent old new : Option α) : Option (RbTree α) :=
  match parent with
  | none => some { t with root := new }
  | some _ => do
    if (← t.load parent).left = old then t.setChild .left parent new
    else t.setChild .right parent new

/-! ## Rotations -/

/-- `node`, which is the child on side `s` of its parent, takes the place of its parent. -/
def rotate (s : Side) (t : RbTree α) (node : Option α) : Option (RbTree α) := do
  let parent := (← t.load node).parent
  let grandParent := (← t.load parent).parent
  let t ← t.replaceChild grandParent parent node
  let t ← t.setParent node grandParent
  let subtree := (← t.load node).child s.other
  let t ← t.setChild s.other node parent
  let t ← t.setParent parent node
  let t ← t.setChild s parent subtree
  if subtree.isSome then t.setParent subtree parent else some t

/-- `rotate_right` -/
def rotateRight : RbTree α → Option α → Option (RbTree α) := rotate .left

/-- `rotate_left` -/
def rotateLeft : RbTree α → Option α → Option (RbTree α) := rotate .right

/-! ## Search -/

section Search

variable {κ : Type}

/-- `u80211_rbtree_find_first_larger_equal`, with the candidate that has been found so far. -/
def findFirstLargerEqual (compare : κ → α → Int) (key : κ) (t : RbTree α) :
    Nat → Option α → Option α → Option (Option α)
  | 0, _, _ => none
  | _ + 1, found, none => some found
  | fuel + 1, found, some rbtree =>
    let comparison := compare key rbtree
    if comparison = 0 then some (some rbtree)
    else do
      let found := if comparison = -1 then some rbtree else found
      let n ← t.nodes rbtree
      t.findFirstLargerEqual compare key fuel found (if comparison = 1 then n.right else n.left)

/-- `u80211_rbtree_lookup` -/
def lookup (compare : κ → α → Int) (key : κ) (t : RbTree α) :
    Nat → Option α → Option (Option α)
  | 0, _ => none
  | _ + 1, none => some none
  | fuel + 1, some rbtree =>
    let comparison := compare key rbtree
    if comparison = 0 then some (some rbtree)
    else do
      let n ← t.nodes rbtree
      t.lookup compare key fuel (if comparison > 0 then n.right else n.left)

end Search

/-! ## Iteration -/

/-- The last node on the way down that takes the child on side `s`. -/
def descend (s : Side) (t : RbTree α) : Nat → α → Option α
  | 0, _ => none
  | fuel + 1, rbtree => do
    match (← t.nodes rbtree).child s with
    | none => some rbtree
    | some next => t.descend s fuel next

/-- `u80211_rbtree_first` -/
def first : RbTree α → Nat → α → Option α := descend .left

/-- `u80211_rbtree_last` -/
def last : RbTree α → Nat → α → Option α := descend .right

/-- The first node on the way up that is left from its child on side `s`. -/
def ascend (s : Side) (t : RbTree α) : Nat → α → Option α → Option (Option α)
  | 0, _, _ => none
  | _ + 1, _, none => some none
  | fuel + 1, iterator, some parent => do
    let n ← t.nodes parent
    if n.child s = some iterator then some (some parent) else t.ascend s fuel parent n.parent

/-- The next node in the direction of side `s`. -/
def neighbour (s : Side) (t : RbTree α) (fuel : Nat) (node : α) : Option (Option α) := do
  let n ← t.nodes node
  match n.child s with
  | none => t.ascend s.other fuel node n.parent
  | some iterator => (t.descend s.other fuel iterator).map some

/-- `u80211_rbtree_successor` -/
def successor : RbTree α → Nat → α → Option (Option α) := neighbour .right

/-- `u80211_rbtree_predecessor` -/
def predecessor : RbTree α → Nat → α → Option (Option α) := neighbour .left

/-! ## Insertion -/

/-- The loop of `u80211_rbtree_insert` that goes down: the last node, and the side of the new
one. -/
def insertDescend (compare : α → α → Int) (node : α) (t : RbTree α) : Nat → α → Option (α × Side)
  | 0, _ => none
  | fuel + 1, rbtree => do
    let n ← t.nodes rbtree
    let next := if compare node rbtree > 0 then Side.right else .left
    match n.child next with
    | none => some (rbtree, next)
    | some rbtree => t.insertDescend compare node fuel rbtree

/-- The last rotation of `u80211_rbtree_insert`, and the colours. -/
def insertFinish (t : RbTree α) (parent grandParent : Option α) : Option (RbTree α) := do
  let t ←
    if (← t.load grandParent).left = parent then t.rotateRight parent else t.rotateLeft parent
  let t ← t.setColour parent .black
  t.setColour grandParent .red

/-- The end of `u80211_rbtree_insert`: the uncle is black. -/
def insertRotate (t : RbTree α) (node parent grandParent : Option α) : Option (RbTree α) := do
  let g ← t.load grandParent
  let p ← t.load parent
  if g.left = parent ∧ p.right = node then
    let t ← t.rotateLeft node
    t.insertFinish (← t.load grandParent).left grandParent
  else if g.right = parent ∧ p.left = node then
    let t ← t.rotateRight node
    t.insertFinish (← t.load grandParent).right grandParent
  else t.insertFinish parent grandParent

/-- The loop of `u80211_rbtree_insert` that goes up. -/
def insertFix (t : RbTree α) (node : Option α) : Nat → Option (RbTree α)
  | 0 => none
  | fuel + 1 => do
    let parent := (← t.load node).parent
    if (← t.colourOf parent) = .black then some t
    else
      let grandParent := (← t.load parent).parent
      let g ← t.load grandParent
      let uncle := if g.left = parent then g.right else g.left
      if (← t.colourOf uncle) = .black then t.insertRotate node parent grandParent
      else
        let t ← t.setColour parent .black
        let t ← t.setColour uncle .black
        let t ←
          if (← t.load grandParent).parent.isSome then t.setColour grandParent .red else some t
        t.insertFix grandParent fuel

/-- `u80211_rbtree_insert` -/
def insert (compare : α → α → Int) (fuel : Nat) (t : RbTree α) (node : α) :
    Option (RbTree α) :=
  match t.root with
  | none =>
    { t with root := some node }.modify (some node) fun _ =>
      { left := none, right := none, parent := none, colour := .black }
  | some rbtree => do
    let (rbtree, next) ← t.insertDescend compare node fuel rbtree
    let t ← t.setChild next (some rbtree) (some node)
    let t ← t.modify (some node) fun _ =>
      { left := none, right := none, parent := some rbtree, colour := .red }
    t.insertFix (some node) fuel

/-! ## Removal -/

/-- `do_remove` in `u80211_rbtree_remove_leaf` -/
def unlink (t : RbTree α) (node : α) : Option (RbTree α) := do
  let parent := (← t.nodes node).parent
  if (← t.load parent).left = some node then t.setChild .left parent none
  else t.setChild .right parent none

/-- A red sibling becomes the grandparent: the tree and the new sibling. -/
def removeRedSibling (t : RbTree α) (parent sibling : Option α) :
    Option (RbTree α × Option α) := do
  let t ← t.setColour parent .red
  let t ← t.setColour sibling .black
  if (← t.load parent).left = sibling then
    let t ← t.rotateRight sibling
    some (t, (← t.load parent).left)
  else
    let t ← t.rotateLeft sibling
    some (t, (← t.load parent).right)

/-- A red close nephew becomes the sibling, which becomes the far nephew. -/
def removeCloseNephew (t : RbTree α) (sibling closeNephew : Option α) : Option (RbTree α) := do
  let t ←
    if (← t.load sibling).left = closeNephew then t.rotateRight closeNephew
    else t.rotateLeft closeNephew
  let t ← t.setColour sibling .red
  t.setColour closeNephew .black

/-- The sibling becomes the grandparent, above a black parent and a black far nephew. -/
def removeFarNephew (t : RbTree α) (parent sibling farNephew : Option α) : Option (RbTree α) := do
  let t ←
    if (← t.load parent).right = sibling then t.rotateLeft sibling else t.rotateRight sibling
  let t ← t.setColour sibling (← t.colourOf parent)
  let t ← t.setColour parent .black
  t.setColour farNephew .black

/-- The rest of `u80211_rbtree_remove_leaf` when the sibling is black and one of the nephews is
red. -/
def removeNephews (t : RbTree α) (parent sibling : Option α) : Option (RbTree α) := do
  let s ← t.load sibling
  let p ← t.load parent
  let closeNephew := if p.right = sibling then s.left else s.right
  let farNephew := if p.right = sibling then s.right else s.left
  if (← t.colourOf closeNephew) = .red ∧ (← t.colourOf farNephew) = .black then
    let t ← t.removeCloseNephew sibling closeNephew
    t.removeFarNephew parent closeNephew sibling
  else t.removeFarNephew parent sibling farNephew

/-- What `u80211_rbtree_remove_leaf` does once the sibling is black. -/
def removeBlackSibling (t : RbTree α) (parent sibling : Option α) : Option (RbTree α) := do
  let s ← t.load sibling
  if (← t.colourOf parent) = .red ∧ (← t.colourOf sibling) = .black ∧
      (← t.colourOf s.left) = .black ∧ (← t.colourOf s.right) = .black then
    let t ← t.setColour parent .black
    t.setColour sibling .red
  else t.removeNephews parent sibling

/-- What `u80211_rbtree_remove_leaf` does after its loop, up to the removal. -/
def removeRebalance (t : RbTree α) (parent sibling : Option α) : Option (RbTree α) := do
  if (← t.colourOf sibling) = .red then
    let (t, sibling) ← t.removeRedSibling parent sibling
    t.removeBlackSibling parent sibling
  else t.removeBlackSibling parent sibling

/-- A node around that is red ends the loop of `u80211_rbtree_remove_leaf`. -/
def redAround (t : RbTree α) (parent sibling : Option α) : Option Bool := do
  if (← t.colourOf parent) = .red then some true
  else if (← t.colourOf sibling) = .red then some true
  else
    let s ← t.load sibling
    some ((← t.colourOf s.left) = .red ∨ (← t.colourOf s.right) = .red)

/-- The loop of `u80211_rbtree_remove_leaf`, and what comes after it up to the removal. -/
def removeFix (t : RbTree α) (node parent : Option α) : Nat → Option (RbTree α)
  | 0 => none
  | fuel + 1 =>
    if parent = none then some t
    else do
      let p ← t.load parent
      let sibling := if p.left = node then p.right else p.left
      if ← t.redAround parent sibling then t.removeRebalance parent sibling
      else
        let t ← t.setColour sibling .red
        t.removeFix parent (← t.load parent).parent fuel

/-- `u80211_rbtree_remove_leaf` -/
def removeLeaf (fuel : Nat) (t : RbTree α) (node : α) : Option (RbTree α) :=
  if t.root = some node then some { t with root := none }
  else do
    let n ← t.nodes node
    let t ← if n.colour = .red then some t else t.removeFix (some node) n.parent fuel
    t.unlink node

/-- The end of `u80211_rbtree_remove` for a node with one child, which takes its place. -/
def removeSplice (t : RbTree α) (node : α) : Option (RbTree α) := do
  let n ← t.nodes node
  let child := if n.left.isSome then n.left else n.right
  let t ← t.replaceChild n.parent (some node) child
  t.modify child fun c => { c with parent := n.parent, colour := .black }

/-- The node and its successor change places. -/
def swapSuccessor (fuel : Nat) (t : RbTree α) (node : α) : Option (RbTree α) := do
  let succ ← t.successor fuel node
  let succParent := (← t.load succ).parent
  let parent := (← t.nodes node).parent
  let t ← t.replaceChild parent (some node) succ
  let succColour ← t.colourOf succ
  let n ← t.nodes node
  let oldSuccRight := (← t.load succ).right
  let t ← t.modify succ fun _ =>
    { left := n.left, right := n.right, parent := n.parent, colour := n.colour }
  let t ← t.setParent (← t.load succ).left succ
  let t ←
    if succParent ≠ some node then t.setParent (← t.load succ).right succ else some t
  let t ←
    if succParent = some node then do
      let t ← t.setChild .right succ (some node)
      t.modify (some node) fun n => { n with parent := succ, colour := succColour }
    else do
      let t ← t.setChild .left succParent (some node)
      t.modify (some node) fun n => { n with parent := succParent, colour := succColour }
  let t ← t.modify (some node) fun n => { n with left := none, right := oldSuccRight }
  if oldSuccRight.isSome then t.setParent oldSuccRight (some node) else some t

/-- `u80211_rbtree_remove` -/
def remove (t : RbTree α) (node : α) : Nat → Option (RbTree α)
  | 0 => none
  | fuel + 1 => do
    let n ← t.nodes node
    if n.left = none ∧ n.right = none then t.removeLeaf fuel node
    else if ¬ (n.left.isSome ∧ n.right.isSome) then t.removeSplice node
    else
      let t ← t.swapSuccessor fuel node
      t.remove node fuel

end RbTree

end U80211
