import Mathlib.Algebra.Group.Nat.Defs
import Mathlib.Data.List.Nodup
import Mathlib.Data.Nat.Log

/-!
# Red-black trees

Trees with coloured nodes, and the way from a place in a tree up to its root.

* `CTree.node'`: a node seen from one of its sides, so that a fact and its mirror image are one fact
* `plug`: the tree that a subtree and the path above it make
* `toList_plug`: the in-order list is split at a place of the tree
* `Balanced`, `Accepts`: the red-black properties of a subtree, and what the path above it expects
* `Valid.height_le`: **the height of a valid tree is at most twice the logarithm of its size**
-/

namespace RedBlack

universe u

inductive Colour where
  | black
  | red
deriving DecidableEq

inductive Side where
  | left
  | right
deriving DecidableEq

def Side.other : Side → Side
  | .left => .right
  | .right => .left

@[simp] theorem Side.other_other (s : Side) : s.other.other = s := by cases s <;> rfl

/-- Trees whose nodes have a colour. -/
inductive CTree (α : Type u) where
  | nil
  | node (colour : Colour) (left : CTree α) (label : α) (right : CTree α)

variable {α : Type u}

namespace CTree

/-- The node at the top. -/
def root : CTree α → Option α
  | nil => none
  | node _ _ x _ => some x

/-- The colour of the node at the top; there is a black one at the end of every path. -/
def colour : CTree α → Colour
  | nil => .black
  | node c _ _ _ => c

/-- The nodes in order. -/
def toList : CTree α → List α
  | nil => []
  | node _ l x r => l.toList ++ x :: r.toList

/-- The number of nodes on the longest path down. -/
def height : CTree α → Nat
  | nil => 0
  | node _ l _ r => max l.height r.height + 1

/-- A node with the subtree on side `s` first. -/
def node' (s : Side) (c : Colour) (inner : CTree α) (x : α) (outer : CTree α) : CTree α :=
  match s with
  | .left => node c inner x outer
  | .right => node c outer x inner

theorem node'_other (s : Side) (c : Colour) (a : CTree α) (x : α) (b : CTree α) :
    node' s.other c a x b = node' s c b x a := by cases s <;> rfl

/-- A tree that is not empty can be seen from either side. -/
theorem exists_node' (s : Side) {t : CTree α} {x : α} (h : t.root = some x) :
    ∃ a b, t = node' s t.colour a x b := by
  cases t with
  | nil => cases h
  | node c l y r =>
    cases h
    cases s with
    | left => exact ⟨l, r, rfl⟩
    | right => exact ⟨r, l, rfl⟩

@[simp] theorem root_nil : (nil : CTree α).root = none := rfl

@[simp] theorem colour_nil : (nil : CTree α).colour = .black := rfl

@[simp] theorem toList_nil : (nil : CTree α).toList = [] := rfl

@[simp] theorem root_node' (s : Side) (c : Colour) (a : CTree α) (x : α) (b : CTree α) :
    (node' s c a x b).root = some x := by cases s <;> rfl

@[simp] theorem colour_node' (s : Side) (c : Colour) (a : CTree α) (x : α) (b : CTree α) :
    (node' s c a x b).colour = c := by cases s <;> rfl

/-- A tree without a root is empty. -/
theorem eq_nil_of_root {t : CTree α} (h : t.root = none) : t = nil := by
  cases t with
  | nil => rfl
  | node c l x r => cases h

/-- The root is in the tree. -/
theorem mem_of_root {t : CTree α} {x : α} (h : t.root = some x) : x ∈ t.toList := by
  cases t with
  | nil => cases h
  | node c l y r =>
    cases h
    exact List.mem_append_right _ List.mem_cons_self

/-- What is in a node, whichever side it is seen from. -/
theorem perm_node' (s : Side) (c : Colour) (a : CTree α) (x : α) (b : CTree α) :
    (node' s c a x b).toList.Perm (x :: (a.toList ++ b.toList)) := by
  cases s with
  | left => exact List.perm_middle
  | right => exact List.perm_middle.trans (List.Perm.cons x List.perm_append_comm)

end CTree

open CTree

/-! ## Places -/

/-- One step up from a place: the side that the place is on, and the rest of the node above. -/
structure Frame (α : Type u) where
  side : Side
  colour : Colour
  label : α
  sibling : CTree α

/-- The way up from a place, the nearest node first. -/
abbrev Path (α : Type u) := List (Frame α)

/-- The node above a place with a subtree put there. -/
def Frame.plug (f : Frame α) (t : CTree α) : CTree α := node' f.side f.colour t f.label f.sibling

/-- The whole tree with a subtree put at a place. -/
def plug (t : CTree α) : Path α → CTree α
  | [] => t
  | f :: p => plug (f.plug t) p

/-- The node above a place. -/
def Path.parent (p : Path α) : Option α := p.head?.map (·.label)

/-- The nodes that come before a place, in order. -/
def before : Path α → List α
  | [] => []
  | ⟨.left, _, _, _⟩ :: p => before p
  | ⟨.right, _, x, t⟩ :: p => before p ++ (t.toList ++ [x])

/-- The nodes that come after a place, in order. -/
def after : Path α → List α
  | [] => []
  | ⟨.left, _, x, t⟩ :: p => x :: t.toList ++ after p
  | ⟨.right, _, _, _⟩ :: p => after p

/-- The nodes that are not in the subtree at a place. -/
def Path.labels : Path α → List α
  | [] => []
  | f :: p => f.label :: (f.sibling.toList ++ Path.labels p)

@[simp] theorem plug_nil (t : CTree α) : plug t [] = t := rfl

@[simp] theorem plug_cons (t : CTree α) (f : Frame α) (p : Path α) :
    plug t (f :: p) = plug (f.plug t) p := rfl

/-- Filling a hole at the end of two paths, one after another. -/
theorem plug_append (t : CTree α) (p q : Path α) : plug t (p ++ q) = plug (plug t p) q := by
  induction p generalizing t with
  | nil => rfl
  | cons f p ih => exact ih (f.plug t)

/-- The hole moves down to the inner child. -/
theorem plug_inner (s : Side) (c : Colour) (a : CTree α) (x : α) (b : CTree α) (p : Path α) :
    plug (node' s c a x b) p = plug a (⟨s, c, x, b⟩ :: p) := rfl

/-- The hole moves down to the outer child. -/
theorem plug_outer (s : Side) (c : Colour) (a : CTree α) (x : α) (b : CTree α) (p : Path α) :
    plug (node' s c a x b) p = plug b (⟨s.other, c, x, a⟩ :: p) := by
  rw [plug_cons, Frame.plug, node'_other]

/-- A place seen from its sibling. -/
theorem plug_sibling (s : Side) (c : Colour) (a : CTree α) (x : α) (b : CTree α) (p : Path α) :
    plug b (⟨s.other, c, x, a⟩ :: p) = plug a (⟨s, c, x, b⟩ :: p) := by
  rw [← plug_outer, plug_inner]

/-- What stands before the hole, over two paths. -/
theorem before_append (p q : Path α) : before (p ++ q) = before q ++ before p := by
  induction p with
  | nil => exact (List.append_nil _).symm
  | cons f p ih =>
    obtain ⟨s, c, x, t⟩ := f
    cases s <;> simp [before, ih]

/-- What stands after the hole, over two paths. -/
theorem after_append (p q : Path α) : after (p ++ q) = after p ++ after q := by
  induction p with
  | nil => rfl
  | cons f p ih =>
    obtain ⟨s, c, x, t⟩ := f
    cases s <;> simp [after, ih]

/-- **The list in order is split at a place.** -/
theorem toList_plug (t : CTree α) (p : Path α) :
    (plug t p).toList = before p ++ (t.toList ++ after p) := by
  induction p generalizing t with
  | nil => simp [before, after]
  | cons f p ih =>
    obtain ⟨s, c, x, u⟩ := f
    rw [plug_cons, ih]
    cases s <;> simp [Frame.plug, node', toList, before, after]

/-- The tree has the nodes of its part and those of the path. -/
theorem perm_plug (t : CTree α) (p : Path α) :
    (plug t p).toList.Perm (t.toList ++ Path.labels p) := by
  induction p generalizing t with
  | nil => simp [Path.labels]
  | cons f p ih =>
    obtain ⟨s, c, x, u⟩ := f
    refine (ih _).trans ?_
    have hnode := (perm_node' s c t x u).append_right (Path.labels p)
    refine hnode.trans ?_
    rw [Path.labels, List.cons_append, List.append_assoc]
    exact List.perm_middle.symm

/-- Every node of a tree has a place. -/
theorem exists_place {t : CTree α} {x : α} (h : x ∈ t.toList) :
    ∃ c l r p, t = plug (node c l x r) p := by
  induction t with
  | nil => cases h
  | node c l y r ihl ihr =>
    rw [toList, List.mem_append, List.mem_cons] at h
    rcases h with h | rfl | h
    · obtain ⟨c', l', r', p, rfl⟩ := ihl h
      exact ⟨c', l', r', p ++ [⟨.left, c, y, r⟩], by rw [plug_append]; rfl⟩
    · exact ⟨c, l, r, [], rfl⟩
    · obtain ⟨c', l', r', p, rfl⟩ := ihr h
      exact ⟨c', l', r', p ++ [⟨.right, c, y, l⟩], by rw [plug_append]; rfl⟩

theorem plug_root {t u : CTree α} {p : Path α} (h : t.root = u.root) :
    (plug t p).root = (plug u p).root := by
  cases p with
  | nil => exact h
  | cons f p =>
    rw [plug_cons, plug_cons]
    have hroot : (f.plug t).root = (f.plug u).root := by simp [Frame.plug]
    exact plug_root hroot

/-! ## Both directions -/

/-- The nodes of a tree in the order from side `s` on. -/
def CTree.fromSide (t : CTree α) : Side → List α
  | .left => t.toList
  | .right => t.toList.reverse

/-- The nodes that follow a place on the way to side `s`. -/
def beyond (p : Path α) : Side → List α
  | .left => (before p).reverse
  | .right => after p

@[simp] theorem fromSide_nil (s : Side) : (nil : CTree α).fromSide s = [] := by cases s <;> rfl

/-- The order seen from a side begins with that side's child. -/
theorem fromSide_node' (s : Side) (c : Colour) (a : CTree α) (x : α) (b : CTree α) :
    (node' s c a x b).fromSide s = a.fromSide s ++ x :: b.fromSide s := by
  cases s <;> simp [node', CTree.fromSide, toList]

/-- The order seen from a side, around a hole. -/
theorem fromSide_plug (s : Side) (t : CTree α) (p : Path α) :
    (plug t p).fromSide s =
      (beyond p s).reverse ++ (t.fromSide s ++ beyond p s.other) := by
  cases s with
  | left => simp [CTree.fromSide, beyond, Side.other, toList_plug]
  | right => simp [CTree.fromSide, beyond, Side.other, toList_plug]

/-- A place on side `s` is left in that direction without passing the node above. -/
theorem beyond_cons_same (s : Side) (c : Colour) (x : α) (u : CTree α) (p : Path α) :
    beyond (⟨s, c, x, u⟩ :: p) s = beyond p s := by
  cases s <;> simp [beyond, before, after]

theorem beyond_cons_other (s : Side) (c : Colour) (x : α) (u : CTree α) (p : Path α) :
    beyond (⟨s, c, x, u⟩ :: p) s.other = x :: u.fromSide s ++ beyond p s.other := by
  cases s <;> simp [beyond, before, after, CTree.fromSide, Side.other]

theorem mem_fromSide {s : Side} {t : CTree α} {x : α} : x ∈ t.fromSide s ↔ x ∈ t.toList := by
  cases s <;> simp [CTree.fromSide]

theorem nodup_fromSide {s : Side} {t : CTree α} : (t.fromSide s).Nodup ↔ t.toList.Nodup := by
  cases s <;> simp [CTree.fromSide]

/-- A path is not longer than the nodes beside it. -/
theorem length_le_labels (p : Path α) : p.length ≤ (Path.labels p).length := by
  induction p with
  | nil => simp
  | cons f p ih =>
    simp only [Path.labels, List.length_cons, List.length_append]
    omega

/-- A tree is not higher than it has nodes. -/
theorem height_le_length (t : CTree α) : t.height ≤ t.toList.length := by
  induction t with
  | nil => simp [height]
  | node c l x r ihl ihr =>
    simp only [height, toList, List.length_append, List.length_cons]
    omega

/-! ## The red-black properties -/

/-- No red node has a red child, and there are `n` black nodes on every path down. -/
inductive Balanced : CTree α → Nat → Prop
  | nil : Balanced nil 0
  | red {l r : CTree α} {x : α} {n : Nat} (hl : Balanced l n) (hr : Balanced r n)
      (hlc : l.colour = .black) (hrc : r.colour = .black) : Balanced (node .red l x r) n
  | black {l r : CTree α} {x : α} {n : Nat} (hl : Balanced l n) (hr : Balanced r n) :
      Balanced (node .black l x r) (n + 1)

/-- A valid tree is balanced and has a black root. -/
def Valid (t : CTree α) : Prop := t.colour = .black ∧ ∃ n, Balanced t n

/-- A balanced subtree with the root colour `c` and `n` black nodes on every path down makes a valid
tree at a place. -/
inductive Accepts : Path α → Colour → Nat → Prop
  | root {n : Nat} : Accepts [] .black n
  | red {s : Side} {x : α} {u : CTree α} {p : Path α} {n : Nat} (hu : Balanced u n)
      (huc : u.colour = .black) (hp : Accepts p .red n) : Accepts (⟨s, .red, x, u⟩ :: p) .black n
  | black {s : Side} {x : α} {u : CTree α} {p : Path α} {c : Colour} {n : Nat} (hu : Balanced u n)
      (hp : Accepts p .black (n + 1)) : Accepts (⟨s, .black, x, u⟩ :: p) c n

/-- A red node has black children of its own height. -/
theorem Balanced.red' {s : Side} {a b : CTree α} {x : α} {n : Nat} (ha : Balanced a n)
    (hb : Balanced b n) (hac : a.colour = .black) (hbc : b.colour = .black) :
    Balanced (node' s .red a x b) n := by
  cases s with
  | left => exact .red ha hb hac hbc
  | right => exact .red hb ha hbc hac

/-- A black node is one higher than its children. -/
theorem Balanced.black' {s : Side} {a b : CTree α} {x : α} {n : Nat} (ha : Balanced a n)
    (hb : Balanced b n) : Balanced (node' s .black a x b) (n + 1) := by
  cases s with
  | left => exact .black ha hb
  | right => exact .black hb ha

theorem Balanced.of_red' {s : Side} {a b : CTree α} {x : α} {n : Nat}
    (h : Balanced (node' s .red a x b) n) :
    Balanced a n ∧ Balanced b n ∧ a.colour = .black ∧ b.colour = .black := by
  cases s with
  | left =>
    cases h with
    | red hl hr hlc hrc => exact ⟨hl, hr, hlc, hrc⟩
  | right =>
    cases h with
    | red hl hr hlc hrc => exact ⟨hr, hl, hrc, hlc⟩

theorem Balanced.of_black' {s : Side} {a b : CTree α} {x : α} {n : Nat}
    (h : Balanced (node' s .black a x b) n) :
    ∃ m, n = m + 1 ∧ Balanced a m ∧ Balanced b m := by
  cases s with
  | left =>
    cases h with
    | black hl hr => exact ⟨_, rfl, hl, hr⟩
  | right =>
    cases h with
    | black hl hr => exact ⟨_, rfl, hr, hl⟩

/-- A tree with a black node on every path has a root. -/
theorem Balanced.exists_node' (s : Side) {t : CTree α} {n : Nat} (h : Balanced t (n + 1)) :
    ∃ x a b, t = node' s t.colour a x b := by
  cases t with
  | nil => cases h
  | node c l x r => exact ⟨x, CTree.exists_node' s rfl⟩

/-- The root of a balanced tree may be coloured black. -/
theorem Accepts.of_red {p : Path α} {n : Nat} (h : Accepts p .red n) : Accepts p .black n := by
  cases h with
  | black hu hp => exact .black hu hp

/-- Above a place that takes a red node there is a black one. -/
theorem Accepts.red_cases {p : Path α} {n : Nat} (h : Accepts p .red n) :
    ∃ s x u q, p = ⟨s, .black, x, u⟩ :: q ∧ Balanced u n ∧ Accepts q .black (n + 1) := by
  cases h with
  | black hu hp => exact ⟨_, _, _, _, rfl, hu, hp⟩

/-- **A balanced subtree that a place accepts makes a valid tree.** -/
theorem Accepts.valid {p : Path α} {c : Colour} {n : Nat} (h : Accepts p c n) {t : CTree α}
    (ht : Balanced t n) (hc : t.colour = c) : Valid (plug t p) := by
  induction h generalizing t with
  | root => exact ⟨hc, _, ht⟩
  | red hu huc _ ih => exact ih (ht.red' hu hc huc) (colour_node' _ _ _ _ _)
  | black hu _ ih => exact ih (ht.black' hu) (colour_node' _ _ _ _ _)

/-- **The parts of a valid tree**: every subtree is balanced, and its place accepts it. -/
theorem Valid.split {p : Path α} {t : CTree α} (h : Valid (plug t p)) :
    ∃ n, Balanced t n ∧ Accepts p t.colour n := by
  induction p generalizing t with
  | nil =>
    obtain ⟨hc, n, hn⟩ := h
    rw [plug_nil] at hc hn
    exact ⟨n, hn, by rw [hc]; exact .root⟩
  | cons f p ih =>
    obtain ⟨s, c, x, u⟩ := f
    obtain ⟨n, hn, hp⟩ := ih h
    rw [Frame.plug, colour_node'] at hp
    cases c with
    | black =>
      obtain ⟨m, rfl, ht, hu⟩ := hn.of_black'
      exact ⟨m, ht, .black hu hp⟩
    | red =>
      obtain ⟨ht, hu, htc, huc⟩ := hn.of_red'
      exact ⟨n, ht, by rw [htc]; exact .red hu huc hp⟩

/-- The sibling may be exchanged for another black subtree. -/
theorem Accepts.exchange {s : Side} {c c' : Colour} {x : α} {u v : CTree α} {p : Path α} {n : Nat}
    (h : Accepts (⟨s, c, x, u⟩ :: p) c' n) (hv : Balanced v n) (hc : v.colour = .black) :
    Accepts (⟨s, c, x, v⟩ :: p) c' n := by
  cases h with
  | red _ _ hp => exact .red hv hc hp
  | black _ hp => exact .black hv hp

/-- What a place accepts does not depend on the names of the nodes above it. -/
theorem Accepts.relabel {q : Path α} {s : Side} {c : Colour} {x : α} (y : α) {u : CTree α}
    {p : Path α} {c' : Colour} {n : Nat} (h : Accepts (q ++ ⟨s, c, x, u⟩ :: p) c' n) :
    Accepts (q ++ ⟨s, c, y, u⟩ :: p) c' n := by
  induction q generalizing c' n with
  | nil =>
    cases h with
    | red hu huc hp => exact .red hu huc hp
    | black hu hp => exact .black hu hp
  | cons f q ih =>
    cases h with
    | red hu huc hp => exact .red hu huc (ih hp)
    | black hu hp => exact .black hu (ih hp)

/-- Two nodes may change places, one of them with one subtree at most. -/
theorem Valid.relabel {q : Path α} {s : Side} {c c' : Colour} {x y : α} {l u : CTree α} {p : Path α}
    (h : Valid (plug (node c' nil y u) (q ++ ⟨s, c, x, l⟩ :: p))) :
    Valid (plug (node c' nil x u) (q ++ ⟨s, c, y, l⟩ :: p)) := by
  obtain ⟨n, hn, hp⟩ := h.split
  have hn' : Balanced (node c' nil x u) n := by
    cases hn with
    | red hl hr hlc hrc => exact .red hl hr hlc hrc
    | black hl hr => exact .black hl hr
  exact (hp.relabel y).valid hn' rfl

/-! ## The height -/

/-- There are at least as many nodes as in a full tree of black ones. -/
theorem Balanced.two_pow_le {t : CTree α} {n : Nat} (h : Balanced t n) :
    2 ^ n ≤ t.toList.length + 1 := by
  induction h with
  | nil => simp
  | red _ _ _ _ ihl ihr =>
    simp only [toList, List.length_append, List.length_cons]
    omega
  | black _ _ ihl ihr =>
    simp only [toList, List.length_append, List.length_cons, Nat.pow_succ]
    omega

/-- At most every second node of a path is red. -/
theorem Balanced.height_le {t : CTree α} {n : Nat} (h : Balanced t n) :
    t.height ≤ 2 * n + if t.colour = .red then 1 else 0 := by
  induction h with
  | nil => simp [height]
  | red _ _ hlc hrc ihl ihr =>
    simp only [hlc, hrc, reduceCtorEq, if_false] at ihl ihr
    simp only [height, colour, if_true]
    omega
  | @black l r _ _ _ _ ihl ihr =>
    have hlr : ∀ u : CTree α, (if u.colour = .red then 1 else 0) ≤ 1 := fun u => by split <;> omega
    have hl := hlr l
    have hr := hlr r
    simp only [height, colour, reduceCtorEq, if_false]
    omega

/-- **The height of a valid tree is at most twice the logarithm of its size.** -/
theorem Valid.height_le {t : CTree α} (h : Valid t) :
    t.height ≤ 2 * Nat.log 2 (t.toList.length + 1) := by
  obtain ⟨hc, n, hn⟩ := h
  have hheight := hn.height_le
  rw [hc, if_neg (by decide)] at hheight
  have hlog : n ≤ Nat.log 2 (t.toList.length + 1) :=
    Nat.le_log_of_pow_le (by decide) hn.two_pow_le
  omega

end RedBlack
