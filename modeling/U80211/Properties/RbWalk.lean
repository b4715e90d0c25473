import U80211.Properties.RbMemory

/-!
# Walking through a tree

* `neighbour_spec`: the next node in a direction is the next one of the list
* `iteration_in_order`: **from the first node on the successors are the list, from the last one on
  the predecessors are the list backwards**
-/

namespace U80211

namespace RbTree

open RedBlack CTree

variable {α : Type} [DecidableEq α] {t : RbTree α} {T : CTree α} {p : Path α} {s : Side} {x : α}
  {parent : Option α} {fuel : Nat}

/-! ## Down and up -/

omit [DecidableEq α] in
/-- The way down to one side ends at the first node from that side. -/
theorem descend_spec (h : Holds t.nodes parent T) (hx : T.root = some x) (hf : T.height ≤ fuel) :
    t.descend s fuel x = (T.fromSide s).head? := by
  induction fuel generalizing T x parent with
  | zero =>
    cases T with
    | nil => cases hx
    | node c l y r => exact absurd hf (Nat.not_succ_le_zero _)
  | succ fuel ih =>
    obtain ⟨a, b, hT⟩ := exists_node' s hx
    rw [hT] at h hf ⊢
    obtain ⟨hnode, ha, -⟩ := holds_node'.mp h
    simp only [descend, hnode, Option.bind_eq_bind, Option.bind_some, child_record]
    rw [fromSide_node']
    cases hroot : a.root with
    | none =>
      rw [eq_nil_of_root hroot, fromSide_nil]
      rfl
    | some y =>
      have hheight : a.height ≤ fuel := by
        have hle : (node' s T.colour a x b).height = max a.height b.height + 1 := by
          cases s
          · rfl
          · exact congrArg (· + 1) (Nat.max_comm _ _)
        omega
      have hne : a.fromSide s ≠ [] := List.ne_nil_of_mem (mem_fromSide.mpr (mem_of_root hroot))
      rw [List.head?_append_of_ne_nil _ hne]
      exact ih ha hroot hheight

/-- The way up ends at the first node beyond. -/
theorem ascend_spec (h : HoldsPath t.nodes (some x) p) (hn : (x :: Path.labels p).Nodup)
    (hf : p.length < fuel) :
    t.ascend s.other fuel x (Path.parent p) = some (beyond p s).head? := by
  induction p generalizing fuel x with
  | nil =>
    obtain ⟨fuel, rfl⟩ := Nat.exists_eq_succ_of_ne_zero (Nat.ne_zero_of_lt hf)
    cases s <;> rfl
  | cons f p ih =>
    obtain ⟨fuel, rfl⟩ := Nat.exists_eq_succ_of_ne_zero (Nat.ne_zero_of_lt hf)
    obtain ⟨s', c, y, u⟩ := f
    obtain ⟨hnode, -, hp⟩ := h
    dsimp only at hnode hp
    rw [Path.labels, List.nodup_cons, List.mem_cons, List.mem_append, not_or, not_or,
      List.nodup_cons, List.mem_append, not_or] at hn
    obtain ⟨⟨-, hxu, -⟩, ⟨-, hyp⟩, hn⟩ := hn
    have hstep : t.ascend s.other (fuel + 1) x (some y) =
        if (record s' (some x) u.root (Path.parent p) c).child s.other = some x then some (some y)
        else t.ascend s.other fuel y (Path.parent p) := by
      simp only [ascend, hnode, Option.bind_eq_bind, Option.bind_some, parent_record]
    refine hstep.trans ?_
    by_cases hs : s' = s
    · subst hs
      have hroot : u.root ≠ some x := fun he => hxu (mem_of_root he)
      rw [child_other_record, if_neg hroot, beyond_cons_same]
      refine ih hp (List.nodup_cons.mpr ⟨hyp, (List.nodup_append.mp hn).2.1⟩) ?_
      exact Nat.lt_of_succ_lt_succ hf
    · obtain rfl : s' = s.other := by
        cases s <;> cases s' <;> first | rfl | exact absurd rfl hs
      have hbeyond := beyond_cons_other s.other c y u p
      rw [Side.other_other] at hbeyond
      rw [child_record, if_pos rfl, hbeyond]
      rfl

/-! ## Neighbours -/

omit [DecidableEq α] in
/-- A node of a tree at its place, seen from one side. -/
theorem exists_place' (s : Side) (hx : x ∈ T.toList) :
    ∃ c a b p, T = plug (node' s c a x b) p := by
  obtain ⟨c, l, r, p, rfl⟩ := exists_place hx
  obtain ⟨a, b, hnode⟩ := exists_node' s (t := node c l x r) rfl
  exact ⟨_, a, b, p, congrArg (plug · p) hnode⟩

/-- **The next node in a direction is the next one of the list.** -/
theorem neighbour_spec (h : IsTree t T) (hf : T.toList.length < fuel) {pre post : List α}
    (hx : T.fromSide s.other = pre ++ x :: post) :
    t.neighbour s fuel x = some post.head? := by
  have hin : x ∈ T.toList := (mem_fromSide (s := s.other)).mp (by rw [hx]; simp)
  obtain ⟨c, b, a, p, rfl⟩ := exists_place' s hin
  obtain ⟨-, hholds, hpath, hn⟩ := isTree_plug.mp h
  obtain ⟨hload, hb, -⟩ := holds_node'.mp hholds
  rw [root_node'] at hpath
  have hperm := (perm_plug (node' s c b x a) p).trans ((perm_node' s c b x a).append_right _)
  rw [hperm.length_eq] at hf
  simp only [List.length_append, List.length_cons] at hf
  rw [nodup_node', List.nodup_cons] at hn
  -- what follows the node in the list
  have hpost : post = b.fromSide s.other ++ beyond p s := by
    have hsplit := fromSide_plug s.other (node' s c b x a) p
    rw [← node'_other, fromSide_node', Side.other_other, node'_other, hx, List.append_assoc,
      ← List.append_assoc] at hsplit
    have hnodup := (nodup_fromSide (s := s.other)).mpr h.nodup
    rw [hx, List.nodup_middle, List.nodup_cons, List.mem_append, not_or] at hnodup
    exact ((List.append_cons_inj_of_notMem hnodup.1.1 hnodup.1.2).mp hsplit).2.2
  rw [neighbour, hload, hpost, Option.bind_eq_bind, Option.bind_some, child_record]
  cases hroot : b.root with
  | none =>
    rw [eq_nil_of_root hroot, fromSide_nil, List.nil_append]
    dsimp only
    rw [parent_record]
    refine ascend_spec hpath ?_ ?_
    · rw [List.nodup_cons]
      refine ⟨fun hin => hn.1 (List.mem_append_right _ hin), (List.nodup_append.mp hn.2).2.1⟩
    · have hle := length_le_labels p
      omega
  | some y =>
    have hle := height_le_length b
    have hne : b.fromSide s.other ≠ [] :=
      List.ne_nil_of_mem (mem_fromSide.mpr (mem_of_root hroot))
    rw [List.head?_append_of_ne_nil _ hne]
    dsimp only
    rw [descend_spec hb hroot (by omega)]
    cases hlist : b.fromSide s.other with
    | nil => exact absurd hlist hne
    | cons y' ys => rfl

omit [DecidableEq α] in
/-- The first node in a direction. -/
theorem extreme_spec (h : IsTree t T) (hf : T.toList.length < fuel) (hx : t.root = some x) :
    t.descend s fuel x = (T.fromSide s).head? := by
  have hle := height_le_length T
  exact descend_spec h.holds (h.root.symm.trans hx) (by omega)

theorem successor_spec (h : IsTree t T) (hf : T.toList.length < fuel) {pre post : List α}
    (hx : T.toList = pre ++ x :: post) : t.successor fuel x = some post.head? :=
  neighbour_spec (s := .right) h hf hx

theorem predecessor_spec (h : IsTree t T) (hf : T.toList.length < fuel) {pre post : List α}
    (hx : T.toList = pre ++ x :: post) : t.predecessor fuel x = some pre.getLast? := by
  have hsplit : T.toList.reverse = post.reverse ++ x :: pre.reverse := by
    rw [hx, List.reverse_append, List.reverse_cons, List.append_assoc]
    rfl
  rw [← List.head?_reverse]
  exact neighbour_spec (s := .left) h hf hsplit

/-! ## Iteration -/

/-- The nodes that a loop passes which starts at a node and goes on to `next` until `NULL`. -/
def traverse (next : α → Option (Option α)) : Nat → Option α → Option (List α)
  | 0, _ => none
  | _ + 1, none => some []
  | fuel + 1, some x => do
    let xs ← traverse next fuel (← next x)
    some (x :: xs)

omit [DecidableEq α] in
/-- A loop passes a list when each node leads to the next one of the list. -/
theorem traverse_spec {next : α → Option (Option α)} {l : List α}
    (hnext : ∀ pre x post, l = pre ++ x :: post → next x = some post.head?) (hf : l.length < fuel) :
    traverse next fuel l.head? = some l := by
  induction l generalizing fuel with
  | nil =>
    obtain ⟨fuel, rfl⟩ := Nat.exists_eq_succ_of_ne_zero (Nat.ne_zero_of_lt hf)
    rfl
  | cons x l ih =>
    obtain ⟨fuel, rfl⟩ := Nat.exists_eq_succ_of_ne_zero (Nat.ne_zero_of_lt hf)
    have hrest := ih (fun pre y post hl => hnext (x :: pre) y post (by rw [hl]; rfl))
      (Nat.lt_of_succ_lt_succ hf)
    simp only [List.head?_cons, traverse, hnext [] x l rfl, Option.bind_eq_bind, Option.bind_some,
      hrest]

/-- **Iteration is in order.** The loop that starts at the first node and goes on to successors
passes all nodes in order, the one that starts at the last node and goes on to predecessors passes
them backwards, each ends, and a successor's predecessor is the node itself. -/
theorem iteration_in_order (h : IsTree t T) {r : α} (hr : t.root = some r)
    (hf : T.toList.length < fuel) :
    (∃ x, t.first fuel r = some x ∧
      traverse (t.successor fuel) fuel (some x) = some T.toList) ∧
    (∃ x, t.last fuel r = some x ∧
      traverse (t.predecessor fuel) fuel (some x) = some T.toList.reverse) ∧
    T.toList.Nodup ∧
    ∀ x ∈ T.toList, ∀ y ∈ T.toList,
      t.successor fuel x = some (some y) ↔ t.predecessor fuel y = some (some x) := by
  have hne : T.toList ≠ [] := List.ne_nil_of_mem (mem_of_root (h.root.symm.trans hr))
  refine ⟨?_, ?_, h.nodup, ?_⟩
  · refine ⟨T.toList.head hne, ?_, ?_⟩
    · rw [← List.head?_eq_some_head]
      exact extreme_spec (s := .left) h hf hr
    · rw [← List.head?_eq_some_head]
      exact traverse_spec (fun pre x post hl => successor_spec h hf hl) hf
  · refine ⟨T.toList.getLast hne, ?_, ?_⟩
    · rw [← List.getLast?_eq_some_getLast, ← List.head?_reverse]
      exact extreme_spec (s := .right) h hf hr
    · rw [← List.getLast?_eq_some_getLast, ← List.head?_reverse]
      refine traverse_spec (fun pre x post hl => ?_) (by rwa [List.length_reverse])
      exact neighbour_spec (s := .left) h hf hl
  · intro x hx y hy
    constructor
    · intro hsucc
      obtain ⟨pre, post, hl⟩ := List.append_of_mem hx
      rw [successor_spec h hf hl, Option.some_inj] at hsucc
      obtain ⟨rest, rfl⟩ := List.head?_eq_some_iff.mp hsucc
      have hl' : T.toList = (pre ++ [x]) ++ y :: rest := by rw [hl, List.append_assoc]; rfl
      rw [predecessor_spec h hf hl', List.getLast?_concat]
    · intro hpred
      obtain ⟨pre, post, hl⟩ := List.append_of_mem hy
      rw [predecessor_spec h hf hl, Option.some_inj] at hpred
      obtain ⟨rest, rfl⟩ := List.getLast?_eq_some_iff.mp hpred
      have hl' : T.toList = rest ++ x :: (y :: post) := by rw [hl, List.append_assoc]; rfl
      rw [successor_spec h hf hl']
      rfl

/-! ## A tree for the examples -/

namespace Scenario

/-- The tree of three numbers. -/
def shape : CTree Nat := .node .black (.node .red .nil 1 .nil) 2 (.node .red .nil 3 .nil)

/-- Its memory, with one more node that is not in the tree. -/
def threeNodes : RbTree Nat where
  nodes
    | 1 => some { left := none, right := none, parent := some 2, colour := .red }
    | 2 => some { left := some 1, right := some 3, parent := none, colour := .black }
    | 3 => some { left := none, right := none, parent := some 2, colour := .red }
    | 4 => some { left := none, right := none, parent := none, colour := .black }
    | _ => none
  root := some 2

theorem isTree_threeNodes : IsTree threeNodes shape :=
  ⟨rfl, ⟨rfl, ⟨rfl, trivial, trivial⟩, ⟨rfl, trivial, trivial⟩⟩, by decide⟩

end Scenario

open RbTree.Scenario in
theorem iteration_in_order_three :
    ∃ x, threeNodes.first 4 2 = some x ∧
      traverse (threeNodes.successor 4) 4 (some x) = some [1, 2, 3] := by
  have hsize : shape.toList.length < 4 := by decide
  obtain ⟨hforward, -⟩ := iteration_in_order isTree_threeNodes (r := 2) rfl hsize
  exact hforward

end RbTree

end U80211
