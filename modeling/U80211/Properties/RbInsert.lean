import U80211.Properties.RbMemory

/-!
# Insertion into a tree

* `insertDescend_spec`: the place that the way down ends at
* `insertFix_spec`: the way up makes a valid tree of the one with the new leaf
* `insert_spec`: **insertion keeps the tree valid and puts the node where its order says**
-/

namespace U80211

namespace RbTree

open RedBlack CTree

variable {α : Type}

/-- The comparator is a total preorder. -/
structure IsPreorder (compare : α → α → Int) : Prop where
  swap : ∀ a b, compare a b < 0 ↔ 0 < compare b a
  trans : ∀ a b c, compare a b ≤ 0 → compare b c ≤ 0 → compare a c ≤ 0

/-- The nodes are in the order of the comparator. -/
def Ordered (compare : α → α → Int) (T : CTree α) : Prop :=
  T.toList.Pairwise fun a b => compare a b ≤ 0

section Order

variable {compare : α → α → Int} {x y : α}

/-- What is before a node that is smaller is smaller too. -/
theorem IsPreorder.pos_of_le (h : IsPreorder compare) {a : α} (hle : compare a y ≤ 0)
    (hx : 0 < compare x y) : 0 < compare x a := by
  by_contra hxa
  have := h.trans x a y (by omega) hle
  omega

theorem Ordered.node {c : Colour} {l r : CTree α} (h : Ordered compare (node c l y r)) :
    Ordered compare l ∧ Ordered compare r ∧ (∀ a ∈ l.toList, compare a y ≤ 0) ∧
      ∀ b ∈ r.toList, compare y b ≤ 0 := by
  rw [Ordered, toList, List.pairwise_append, List.pairwise_cons] at h
  exact ⟨h.1, h.2.1.2, fun a ha => h.2.2 a ha y List.mem_cons_self, h.2.1.1⟩

/-- A list in order keeps its order when a node is put where it belongs. -/
theorem ordered_of_belongs {pre post : List α} (ho : (pre ++ post).Pairwise (compare · · ≤ 0))
    (hc : IsPreorder compare) (hpre : ∀ a ∈ pre, 0 < compare x a)
    (hpost : ∀ b ∈ post, compare x b ≤ 0) :
    (pre ++ x :: post).Pairwise (compare · · ≤ 0) := by
  rw [List.pairwise_append] at ho
  rw [List.pairwise_append, List.pairwise_cons]
  refine ⟨ho.1, ⟨hpost, ho.2.1⟩, ?_⟩
  intro a ha b hb
  rcases List.mem_cons.mp hb with rfl | hb
  · exact Int.le_of_lt ((hc.swap a b).mpr (hpre a ha))
  · exact ho.2.2 a ha b hb

end Order

variable [DecidableEq α] {t : RbTree α} {T : CTree α} {p : Path α} {compare : α → α → Int} {x : α}

/-- A new node belongs at a place: all nodes before it are smaller, and none after it. -/
def Belongs (compare : α → α → Int) (x : α) (p : Path α) : Prop :=
  (∀ a ∈ before p, 0 < compare x a) ∧ ∀ b ∈ after p, compare x b ≤ 0

/-! ## Down -/

omit [DecidableEq α] in
/-- **The way down ends at the place that the new node belongs at.** -/
theorem insertDescend_spec (hc : IsPreorder compare) {parent : Option α} {r : α} {fuel : Nat}
    (h : Holds t.nodes parent T) (hr : T.root = some r) (ho : Ordered compare T)
    (hf : T.height ≤ fuel) :
    ∃ f q, T = plug nil (f :: q) ∧ t.insertDescend compare x fuel r = some (f.label, f.side) ∧
      Belongs compare x (f :: q) := by
  induction T generalizing parent fuel r with
  | nil => cases hr
  | node c l y u ihl ihu =>
    cases hr
    rw [height] at hf
    obtain ⟨fuel, rfl⟩ := Nat.exists_eq_succ_of_ne_zero (show fuel ≠ 0 by omega)
    obtain ⟨hy, hl, hu⟩ := h
    obtain ⟨hol, hou, hly, hyu⟩ := ho.node
    simp only [insertDescend, hy, Option.bind_eq_bind, Option.bind_some]
    by_cases hxy : compare x y > 0
    · rw [if_pos hxy]
      -- the new node belongs behind this one and all that is before it
      have hbefore : ∀ a ∈ l.toList ++ [y], 0 < compare x a := by
        intro a ha
        rcases List.mem_append.mp ha with ha | ha
        · exact hc.pos_of_le (hly a ha) hxy
        · rw [List.mem_singleton.mp ha]
          exact hxy
      cases hroot : u.root with
      | none =>
        refine ⟨⟨.right, c, y, l⟩, [], ?_, ?_, ?_, ?_⟩
        · rw [eq_nil_of_root hroot]
          rfl
        · simp only [RbNode.child]
        · exact hbefore
        · intro b hb
          cases hb
      | some z =>
        have hheight : u.height ≤ fuel := by omega
        obtain ⟨f, q, hplug, he, hbelow, habove⟩ := ihu hu hroot hou hheight
        refine ⟨f, q ++ [⟨.right, c, y, l⟩], ?_, ?_, ?_, ?_⟩
        · rw [← List.cons_append, plug_append, ← hplug]
          rfl
        · simp only [RbNode.child]
          exact he
        · rw [← List.cons_append, before_append]
          intro a ha
          rcases List.mem_append.mp ha with ha | ha
          · exact hbefore a ha
          · exact hbelow a ha
        · rw [← List.cons_append, after_append]
          intro b hb
          rcases List.mem_append.mp hb with hb | hb
          · exact habove b hb
          · cases hb
    · rw [if_neg hxy]
      have hafter : ∀ b ∈ y :: u.toList, compare x b ≤ 0 := by
        intro b hb
        rcases List.mem_cons.mp hb with rfl | hb
        · omega
        · exact hc.trans x y b (by omega) (hyu b hb)
      cases hroot : l.root with
      | none =>
        refine ⟨⟨.left, c, y, u⟩, [], ?_, ?_, ?_, ?_⟩
        · rw [eq_nil_of_root hroot]
          rfl
        · simp only [RbNode.child]
        · intro a ha
          cases ha
        · rw [after, after, List.append_nil]
          exact hafter
      | some z =>
        have hheight : l.height ≤ fuel := by omega
        obtain ⟨f, q, hplug, he, hbelow, habove⟩ := ihl hl hroot hol hheight
        refine ⟨f, q ++ [⟨.left, c, y, u⟩], ?_, ?_, ?_, ?_⟩
        · rw [← List.cons_append, plug_append, ← hplug]
          rfl
        · simp only [RbNode.child]
          exact he
        · rw [← List.cons_append, before_append]
          intro a ha
          rcases List.mem_append.mp ha with ha | ha
          · cases ha
          · exact hbelow a ha
        · rw [← List.cons_append, after_append]
          intro b hb
          rcases List.mem_append.mp hb with hb | hb
          · exact habove b hb
          · rw [after, after, List.append_nil] at hb
            exact hafter b hb

/-! ## Up -/

section Up

variable {c : Colour} {y z : α} {u w : CTree α} {n : Nat}

/-- The last rotation puts a black node above two red ones. -/
theorem insertFinish_spec {s : Side}
    (h : IsTree t (plug (node' s .black (node' s .red T y u) z w) p)) :
    ∃ t', t.insertFinish (some y) (some z) = some t' ∧
      Rebuilt t t' (plug (node' s .black (node' s .red T y u) z w) p)
        (plug (node' s .black T y (node' s .red u z w)) p) := by
  have hz := h.node
  have hw : w.root ≠ some y := h.root_ne
  rw [root_node'] at hz
  obtain ⟨t₁, he₁, hb₁⟩ := rebuilt_rotate h
  obtain ⟨t₂, he₂, hb₂⟩ := rebuilt_setColour hb₁.isTree .black
  have ht₂ := hb₂.isTree
  rw [plug_outer] at ht₂
  obtain ⟨t₃, he₃, hb₃⟩ := rebuilt_setColour ht₂ .red
  rw [← plug_outer, ← plug_outer] at hb₃
  refine ⟨t₃, ?_, (hb₁.trans hb₂).trans hb₃⟩
  simp only [insertFinish, load_of hz, Option.bind_eq_bind, Option.bind_some,
    rotate_of_record hw, he₁, he₂, he₃]

/-- The two sides of a node that both are not on one side. -/
theorem Side.eq_other {s s' : Side} (h : s ≠ s') : s = s'.other := by
  cases s <;> cases s' <;> first | rfl | exact absurd rfl h

/-- **The end of the insertion**: with a black uncle, one or two rotations make the tree valid. -/
theorem insertRotate_spec {s s' : Side} (hx : T.root = some x) (hc : T.colour = .red)
    (hT : Balanced T n) (hu : Balanced u n) (hw : Balanced w n) (huc : u.colour = .black)
    (hwc : w.colour = .black) (hp : Accepts p .black (n + 1))
    (h : IsTree t (plug (node' s' .black (node' s .red T y u) z w) p)) :
    ∃ t' T', t.insertRotate (some x) (some y) (some z) = some t' ∧ Valid T' ∧
      Rebuilt t t' (plug (node' s' .black (node' s .red T y u) z w) p) T' := by
  have hz := h.node
  have hwy : w.root ≠ some y := h.root_ne
  rw [root_node'] at hz
  have hy : t.nodes y = some (record s (some x) u.root (some z) .red) := by
    rw [plug_inner] at h
    rw [← hx]
    exact h.node
  have hux : u.root ≠ some x := by
    rw [plug_inner] at h
    obtain ⟨a, b, hT'⟩ := exists_node' .left hx
    rw [hT'] at h
    exact h.root_ne
  by_cases hs : s = s'
  · subst hs
    obtain ⟨t', he, hb⟩ := insertFinish_spec h
    refine ⟨t', _, ?_, hp.valid (hT.black' (hu.red' hw huc hwc)) (colour_node' _ _ _ _ _), hb⟩
    simp only [insertRotate, load_of hz, load_of hy, Option.bind_eq_bind, Option.bind_some]
    cases s with
    | left => simp [record, hux, hwy, he]
    | right => simp [record, hux, hwy, he]
  · obtain rfl := Side.eq_other hs
    -- the node takes the place of its parent first
    obtain ⟨a, b, hT'⟩ := exists_node' s'.other hx
    rw [hc] at hT'
    subst hT'
    obtain ⟨ha, hb, hac, hbc⟩ := hT.of_red'
    rw [plug_inner] at h
    obtain ⟨t₁, he₁, hb₁⟩ := rebuilt_rotate h
    rw [node'_other s' .red a x (node' s'.other .red b y u), ← plug_inner, ← plug_inner] at hb₁
    have hz₁ := hb₁.isTree.node
    rw [root_node'] at hz₁
    obtain ⟨t₂, he₂, hb₂⟩ := insertFinish_spec hb₁.isTree
    refine ⟨t₂, _, ?_, ?_, hb₁.trans hb₂⟩
    · simp only [insertRotate, load_of hz, load_of hy, Option.bind_eq_bind, Option.bind_some]
      cases s' with
      | left =>
        have hr : t.rotateLeft (some x) = some t₁ := he₁
        simp [record, Side.other, hr, load_of hz₁, he₂]
      | right =>
        have hr : t.rotateRight (some x) = some t₁ := he₁
        simp [record, Side.other, hwy, hr, load_of hz₁, he₂]
    · have hY : Balanced (node' s'.other .red b y u) n := hb.red' hu hbc huc
      exact hp.valid (hY.black' (ha.red' hw hac hwc)) (colour_node' _ _ _ _ _)

/-- Below a black parent, or without one, there is nothing to do. -/
theorem insertFix_of_black (fuel : Nat) (h : IsTree t (plug T p)) (hx : T.root = some x)
    (hp : ∀ f q, p = f :: q → f.colour = .black) : t.insertFix (some x) (fuel + 1) = some t := by
  obtain ⟨n, hn, hparent⟩ := h.parentOf hx
  have hcolour : t.colourOf n.parent = some .black := by
    rw [hparent]
    cases p with
    | nil => rfl
    | cons f q =>
      have hf := h.above
      show (t.nodes f.label).map (·.colour) = some .black
      rw [hf, Option.map_some, colour_record, hp f q rfl]
  simp only [insertFix, load_of hn, hcolour, Option.bind_eq_bind, Option.bind_some, if_true]

/-- A red uncle: the colours move one level up. -/
theorem recolour_spec {s s' : Side} (hwc : w.colour = .red)
    (h : IsTree t (plug (node' s' .black (node' s .red T y u) z w) p)) :
    ∃ t₁ t₂ a b v, w = node' .left .red a v b ∧ t.setColour (some y) .black = some t₁ ∧
      t₁.setColour w.root .black = some t₂ ∧
      Rebuilt t t₂ (plug (node' s' .black (node' s .red T y u) z w) p)
        (plug (node' s' .black (node' s .black T y u) z (node' .left .black a v b)) p) := by
  obtain ⟨t₁, he₁, hb₁⟩ := rebuilt_setColour (p := ⟨s', .black, z, w⟩ :: p) h .black
  have hw : ∃ v, w.root = some v := by
    cases w with
    | nil => cases hwc
    | node c l v r => exact ⟨v, rfl⟩
  obtain ⟨v, hv⟩ := hw
  obtain ⟨a, b, hnode⟩ := exists_node' .left hv
  rw [hwc] at hnode
  subst hnode
  have ht₁ := hb₁.isTree
  rw [← plug_inner, plug_outer] at ht₁
  obtain ⟨t₂, he₂, hb₂⟩ := rebuilt_setColour ht₁ .black
  rw [← plug_outer, ← plug_outer] at hb₂
  exact ⟨t₁, t₂, a, b, v, rfl, he₁, by rw [root_node']; exact he₂, hb₁.trans hb₂⟩

/-- **The way up**: the red node at a place that takes a black one becomes part of a valid tree. -/
theorem insertFix_spec {fuel : Nat} (h : IsTree t (plug T p)) (hx : T.root = some x)
    (hc : T.colour = .red) (hT : Balanced T n) (hp : Accepts p .black n) (hne : p ≠ [])
    (hf : p.length < fuel) :
    ∃ t' T', t.insertFix (some x) fuel = some t' ∧ Valid T' ∧ Rebuilt t t' (plug T p) T' := by
  induction fuel generalizing t T p x n with
  | zero => cases hf
  | succ fuel ih =>
    cases hp with
    | root => exact absurd rfl hne
    | @black s y u p _ _ hu hp =>
      have hred : Accepts (⟨s, .black, y, u⟩ :: p) .red n := .black hu hp
      refine ⟨t, _, insertFix_of_black fuel h hx ?_, hred.valid hT hc, h, rfl, .refl⟩
      rintro f q hq
      cases hq
      rfl
    | @red s y u p _ hu huc hp =>
      obtain ⟨s', z, w, q, rfl, hw, hq⟩ := hp.red_cases
      obtain ⟨nx, hnx, hparent⟩ := h.parentOf hx
      have hy := h.above
      rw [← plug_inner] at h
      have hz := h.above
      rw [← plug_inner] at h
      rw [root_node'] at hz
      have hwy : w.root ≠ some y := h.root_ne
      have hcy : t.colourOf (some y) = some .red := by
        show (t.nodes y).map (·.colour) = some .red
        rw [hy, Option.map_some, colour_record]
      have hcw : t.colourOf w.root = some w.colour := by
        have hw' := h
        rw [plug_outer] at hw'
        exact hw'.colourOf
      have hparent' : nx.parent = some y := hparent
      cases hwc : w.colour with
      | black =>
        obtain ⟨t', T', he, hvalid, hb⟩ := insertRotate_spec hx hc hT hu hw huc hwc hq h
        refine ⟨t', T', ?_, hvalid, hb⟩
        rw [hwc] at hcw
        simp only [insertFix, load_of hnx, hparent', hcy, load_of hy, load_of hz, parent_record,
          Path.parent, List.head?_cons, Option.map_some, Option.bind_eq_bind, Option.bind_some,
          reduceCtorEq, if_false, sibling_record hwy, hcw, if_true, he]
      | red =>
        obtain ⟨t₁, t₂, a, b, v, rfl, he₁, he₂, hb₁₂⟩ := recolour_spec hwc h
        obtain ⟨ha, hb, hac, hbc⟩ := hw.of_red'
        have hz₂ := hb₁₂.isTree.node
        have hbalanced : Balanced (node' s .black T y u) (n + 1) := hT.black' hu
        have hbalanced' : Balanced (node' .left .black a v b) (n + 1) := ha.black' hb
        rw [root_node'] at he₂ hwy
        rw [hwc, root_node'] at hcw
        simp only [List.length_cons] at hf
        simp only [insertFix, load_of hnx, hparent', hcy, load_of hy, load_of hz, parent_record,
          Path.parent, List.head?_cons, Option.map_some, Option.bind_eq_bind, Option.bind_some,
          reduceCtorEq, if_false, sibling_record hwy, hcw, he₁, root_node', he₂, load_of hz₂]
        cases q with
        | nil =>
          -- the root stays black
          obtain ⟨fuel, rfl⟩ := Nat.exists_eq_succ_of_ne_zero (show fuel ≠ 0 by omega)
          have hdone := insertFix_of_black fuel hb₁₂.isTree (root_node' _ _ _ _ _)
            fun f q hq => by cases hq
          exact ⟨t₂, _, hdone, Accepts.root.valid (hbalanced.black' hbalanced')
            (colour_node' _ _ _ _ _), hb₁₂⟩
        | cons f q =>
          obtain ⟨t₃, he₃, hb₃⟩ := rebuilt_setColour hb₁₂.isTree .red
          simp only [List.head?_cons, Option.map_some, Option.isSome_some, if_true, he₃,
            Option.bind_some]
          have hred := hbalanced.red' (s := s') (x := z) hbalanced' (colour_node' _ _ _ _ _)
            (colour_node' _ _ _ _ _)
          obtain ⟨t', T', he, hvalid, hb'⟩ := ih hb₃.isTree (root_node' _ _ _ _ _)
            (colour_node' _ _ _ _ _) hred hq (List.cons_ne_nil _ _) (by
              rw [List.length_cons] at hf ⊢
              omega)
          exact ⟨t', T', he, hvalid, (hb₁₂.trans hb₃).trans hb'⟩

end Up

/-! ## The whole insertion -/

/-- **Insertion keeps the tree valid and puts the node where its order says**: behind all nodes that
are smaller and before all others. -/
theorem insert_spec (hc : IsPreorder compare) (h : IsTree t T) (hv : Valid T)
    (ho : Ordered compare T) (hx : t.nodes x ≠ none) (hn : x ∉ T.toList) {fuel : Nat}
    (hf : T.toList.length < fuel) :
    ∃ t' T', t.insert compare fuel x = some t' ∧ IsTree t' T' ∧ Valid T' ∧
      Ordered compare T' ∧ Changes t t' (x :: T.toList) ∧
      ∃ pre post, T.toList = pre ++ post ∧ T'.toList = pre ++ x :: post ∧
        (∀ a ∈ pre, 0 < compare x a) ∧ ∀ b ∈ post, compare x b ≤ 0 := by
  cases hr : t.root with
  | none =>
    obtain rfl : T = nil := eq_nil_of_root (h.root.symm.trans hr)
    obtain ⟨n, hn⟩ := Option.ne_none_iff_exists'.mp hx
    obtain ⟨t', he, hroot, hx', hchanges⟩ := modify_spec (t := { t with root := some x }) hn
      fun _ => { left := none, right := none, parent := none, colour := .black }
    refine ⟨t', node .black nil x nil, ?_, ⟨hroot, ⟨hx', trivial, trivial⟩, List.nodup_singleton x⟩,
      ⟨rfl, 1, .black .nil .nil⟩, List.pairwise_singleton _ _,
      ⟨hchanges.outside, hchanges.allocated⟩, [], [], rfl, rfl, ?_, ?_⟩
    · rw [insert, hr]
      exact he
    · simp
    · simp
  | some r =>
    have hle := height_le_length T
    have hheight : T.height ≤ fuel := by omega
    obtain ⟨f, q, rfl, he, hbelongs⟩ :=
      insertDescend_spec (x := x) hc h.holds (h.root.symm.trans hr) ho hheight
    obtain ⟨s, c, y, u⟩ := f
    obtain ⟨n, hnil, haccepts⟩ := hv.split
    obtain ⟨t₁, t₂, he₁, he₂, ht₂, hc₂⟩ := link_spec h hx hn .red
    cases hnil
    have hleaf : Balanced (node .red nil x nil) 0 := .red .nil .nil rfl rfl
    have hlen : (⟨s, c, y, u⟩ :: q : Path α).length < fuel := by
      have hlabels := length_le_labels (⟨s, c, y, u⟩ :: q : Path α)
      rw [(perm_plug _ _).length_eq, toList_nil, List.nil_append] at hf
      omega
    obtain ⟨t', T', he', hvalid, hb⟩ := insertFix_spec ht₂ rfl rfl hleaf haccepts
      (List.cons_ne_nil _ _) hlen
    have hlist : T'.toList = before (⟨s, c, y, u⟩ :: q) ++ x :: after (⟨s, c, y, u⟩ :: q) := by
      rw [hb.toList, toList_plug]
      rfl
    have hold : (plug nil (⟨s, c, y, u⟩ :: q)).toList =
        before (⟨s, c, y, u⟩ :: q) ++ after (⟨s, c, y, u⟩ :: q) := toList_plug _ _
    refine ⟨t', T', ?_, hb.isTree, hvalid, ?_, ?_, _, _, hold, hlist, hbelongs.1, hbelongs.2⟩
    · simp only [insert, hr, he, Option.bind_eq_bind, Option.bind_some, he₁, he₂, he']
    · rw [Ordered, hlist]
      rw [Ordered, hold] at ho
      exact ordered_of_belongs ho hc hbelongs.1 hbelongs.2
    · refine hc₂.trans (hb.changes.mono ?_)
      intro z hz
      rw [toList_plug] at hz
      rw [List.mem_cons, hold, List.mem_append]
      simp only [toList, List.nil_append, List.mem_append, List.cons_append, List.mem_cons] at hz
      tauto

end RbTree

end U80211
