import Mathlib.Logic.Function.Basic

/-!
# `include/u80211/list.h`: intrusive lists

The nodes are members of structures that belong to the callers; a node goes by the address of its
structure. `IntrusiveList` is the memory of the nodes and the two pointers of the list. An access
to a node that is not in memory answers `none`. A loop takes a bound on its rounds, and answers
`none` when it has not ended by then.
-/

namespace U80211

/-- `u80211_list_node_t` -/
structure ListNode (α : Type) where
  prev : Option α
  next : Option α
deriving DecidableEq

/-- `u80211_list_t`, and the nodes in memory. -/
structure IntrusiveList (α : Type) where
  nodes : α → Option (ListNode α)
  head : Option α
  tail : Option α

namespace IntrusiveList

variable {α : Type} [DecidableEq α]

/-- `u80211_list_init` -/
def init (nodes : α → Option (ListNode α)) : IntrusiveList α where
  nodes := nodes
  head := none
  tail := none

/-- Change a node. -/
def modify (list : IntrusiveList α) (node : α) (f : ListNode α → ListNode α) :
    Option (IntrusiveList α) := do
  let n ← list.nodes node
  some { list with nodes := Function.update list.nodes node (some (f n)) }

def setPrev (list : IntrusiveList α) (node : α) (prev : Option α) : Option (IntrusiveList α) :=
  list.modify node fun n => { n with prev }

def setNext (list : IntrusiveList α) (node : α) (next : Option α) : Option (IntrusiveList α) :=
  list.modify node fun n => { n with next }

/-- `u80211_list_push_front` -/
def pushFront (list : IntrusiveList α) (node : α) : Option (IntrusiveList α) := do
  let list ← list.setPrev node none
  let list ← list.setNext node list.head
  let list ←
    match list.head with
    | some head => list.setPrev head (some node)
    | none => some { list with tail := some node }
  some { list with head := some node }

/-- `u80211_list_push_back` -/
def pushBack (list : IntrusiveList α) (node : α) : Option (IntrusiveList α) := do
  let list ← list.setNext node none
  let list ← list.setPrev node list.tail
  let list ←
    match list.tail with
    | some tail => list.setNext tail (some node)
    | none => some { list with head := some node }
  some { list with tail := some node }

/-- `u80211_list_remove`: the pointer to the node from before it. -/
def unlinkPrev (list : IntrusiveList α) (n : ListNode α) : Option (IntrusiveList α) :=
  match n.prev with
  | some prev => list.setNext prev n.next
  | none => some { list with head := n.next }

/-- `u80211_list_remove`: the pointer to the node from behind it. -/
def unlinkNext (list : IntrusiveList α) (n : ListNode α) : Option (IntrusiveList α) :=
  match n.next with
  | some next => list.setPrev next n.prev
  | none => some { list with tail := n.prev }

/-- `u80211_list_remove` -/
def remove (list : IntrusiveList α) (node : α) : Option (IntrusiveList α) := do
  let list ← list.unlinkPrev (← list.nodes node)
  let list ← list.unlinkNext (← list.nodes node)
  let list ← list.setPrev node none
  list.setNext node none

/-- `u80211_list_pop_front` -/
def popFront (list : IntrusiveList α) : Option (IntrusiveList α × Option α) :=
  match list.head with
  | none => some (list, none)
  | some node => do
    let list ← list.remove node
    some (list, some node)

/-- `u80211_list_pop_back` -/
def popBack (list : IntrusiveList α) : Option (IntrusiveList α × Option α) :=
  match list.tail with
  | none => some (list, none)
  | some node => do
    let list ← list.remove node
    some (list, some node)

/-- `u80211_list_for_each` from a node on, with a body that only leaves the loop: the node at which
it does. -/
def forEach (list : IntrusiveList α) (leaves : α → Option Bool) :
    Nat → Option α → Option (Option α)
  | 0, _ => none
  | _ + 1, none => some none
  | fuel + 1, some node => do
    if ← leaves node then some (some node)
    else list.forEach leaves fuel (← list.nodes node).next

/-- `u80211_list_for_each_safe` from a node on, with a body that changes a state which the nodes are
part of: the state after the loop, and the nodes that the body has run with. `_next` is read before
the body runs. -/
def forEachSafe {σ : Type} (nodes : σ → α → Option (ListNode α)) (body : α → σ → Option σ) :
    Nat → Option α → σ → Option (σ × List α)
  | 0, _, _ => none
  | _ + 1, none, s => some (s, [])
  | fuel + 1, some node, s => do
    let next := (← nodes s node).next
    let s ← body node s
    let (s, visited) ← forEachSafe nodes body fuel next s
    some (s, node :: visited)

end IntrusiveList

/-! ## Several lists -/

/-- Lists whose nodes are in one memory. -/
structure IntrusiveLists (ι α : Type) where
  nodes : α → Option (ListNode α)
  head : ι → Option α
  tail : ι → Option α

/-- The calls that change a list. -/
inductive ListCall (ι α : Type) where
  | pushFront (list : ι) (node : α)
  | pushBack (list : ι) (node : α)
  | remove (list : ι) (node : α)
  | popFront (list : ι)
  | popBack (list : ι)
deriving DecidableEq

namespace IntrusiveLists

variable {ι α : Type} [DecidableEq ι] [DecidableEq α]

/-- Every list after `u80211_list_init`. -/
def init (nodes : α → Option (ListNode α)) : IntrusiveLists ι α where
  nodes := nodes
  head := fun _ => none
  tail := fun _ => none

def list (s : IntrusiveLists ι α) (i : ι) : IntrusiveList α where
  nodes := s.nodes
  head := s.head i
  tail := s.tail i

def setList (s : IntrusiveLists ι α) (i : ι) (list : IntrusiveList α) : IntrusiveLists ι α where
  nodes := list.nodes
  head := Function.update s.head i list.head
  tail := Function.update s.tail i list.tail

/-- Make a call, and the node that it answers. -/
def call (s : IntrusiveLists ι α) : ListCall ι α → Option (IntrusiveLists ι α × Option α)
  | .pushFront i node => ((s.list i).pushFront node).map fun list => (s.setList i list, none)
  | .pushBack i node => ((s.list i).pushBack node).map fun list => (s.setList i list, none)
  | .remove i node => ((s.list i).remove node).map fun list => (s.setList i list, none)
  | .popFront i => (s.list i).popFront.map fun (list, node) => (s.setList i list, node)
  | .popBack i => (s.list i).popBack.map fun (list, node) => (s.setList i list, node)

/-- Make the calls in order. -/
def calls (s : IntrusiveLists ι α) : List (ListCall ι α) → Option (IntrusiveLists ι α)
  | [] => some s
  | c :: cs => do
    let (s, _) ← s.call c
    s.calls cs

end IntrusiveLists

end U80211
