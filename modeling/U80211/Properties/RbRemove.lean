import U80211.Properties.RbInsert
import U80211.Properties.RbSearch

/-!
# Removal from a tree

* `removeFarNephew_spec` to `removeRebalance_spec`: the cases around a place that lacks a black node
* `removeFix_spec`: the loop gives every path the black node back that the removal takes away
* `swap_adjacent`, `swap_distant`: a node with two children and its successor change places
* `remove_spec`: **removal keeps the tree valid and takes the node alone out of the list**
-/

namespace U80211

namespace RbTree

open RedBlack CTree

variable {α : Type} [DecidableEq α] {t : RbTree α} {N : CTree α} {p : Path α} {k y z : α}
  {s : Side} {c : Colour} {a b u : CTree α} {m : Nat}

/-! ## Around a place -/

/-- A node is coloured, at a subtree beside a place. -/
theorem rebuilt_setColour_root {T : CTree α} (h : IsTree t (plug T p)) (hT : T.root ≠ none)
    (hc : T.colour = c) (c' : Colour) :
    ∃ t' a x b, T = node' .left c a x b ∧ t.setColour T.root c' = some t' ∧
      Rebuilt t t' (plug T p) (plug (node' .left c' a x b) p) := by
  obtain ⟨x, hx⟩ := Option.ne_none_iff_exists'.mp hT
  obtain ⟨a, b, hnode⟩ := exists_node' .left hx
  rw [hc] at hnode
  subst hnode
  obtain ⟨t', he, hb⟩ := rebuilt_setColour h c'
  exact ⟨t', a, x, b, rfl, by rw [root_node']; exact he, hb⟩

/-- The rotation that the code picks by looking which child the sibling is. -/
theorem rotate_of_sibling {inner parent : Option α} (h : inner ≠ some z)
    (f : RbTree α → Option (RbTree α)) :
    (if (record s inner (some z) parent c).right = some z then (t.rotateLeft (some z)).bind f
      else (t.rotateRight (some z)).bind f) = (rotate s.other t (some z)).bind f := by
  cases s with
  | left => exact if_pos rfl
  | right => exact if_neg h

omit [DecidableEq α] in
/-- The node at a place and its sibling are two nodes. -/
theorem IsTree.sibling_ne {c' : Colour} (hk : N.root = some k)
    (h : IsTree t (plug N (⟨s, c, y, node' s c' a z b⟩ :: p))) : some k ≠ some z := by
  rw [← plug_inner, ← node'_other] at h
  have hne := h.root_ne
  rwa [hk] at hne

/-- The far nephew is red: the sibling `z` becomes the grandparent. `a` is the close nephew, `b` the
far one. -/
theorem removeFarNephew_spec (hk : N.root = some k) (ha : Balanced a m) (hb : Balanced b m)
    (hbc : b.colour = .red)
    (hp : Accepts (⟨s, c, y, node' s .black a z b⟩ :: p) .black (m + 1))
    (h : IsTree t (plug N (⟨s, c, y, node' s .black a z b⟩ :: p))) :
    ∃ t' q, t.removeFarNephew (some y) (some z) b.root = some t' ∧
      Rebuilt t t' (plug N (⟨s, c, y, node' s .black a z b⟩ :: p)) (plug N q) ∧
      Accepts q .black m ∧ q ≠ [] := by
  have hy := h.above
  have hkz := h.sibling_ne hk
  rw [root_node', hk] at hy
  have hrotate := h
  rw [← plug_inner, ← node'_other, ← node'_other s .black] at hrotate
  obtain ⟨t₁, he₁, hb₁⟩ := rebuilt_rotate hrotate
  -- the colours of the sibling, of the parent and of the far nephew
  have hcolour : t₁.colourOf (some y) = some c := by
    have ht₁ := hb₁.isTree
    rw [plug_outer] at ht₁
    have hcy := ht₁.colourOf
    rwa [root_node', colour_node'] at hcy
  obtain ⟨t₂, he₂, hb₂⟩ := rebuilt_setColour hb₁.isTree c
  have ht₂ := hb₂.isTree
  rw [plug_outer] at ht₂
  obtain ⟨t₃, he₃, hb₃⟩ := rebuilt_setColour ht₂ .black
  have ht₃ := hb₃.isTree
  rw [← plug_outer, plug_inner] at ht₃
  obtain ⟨t₄, b₁, v, b₂, hb, he₄, hb₄⟩ := rebuilt_setColour_root ht₃ (by
    intro hnil
    rw [eq_nil_of_root hnil] at hbc
    cases hbc) hbc .black
  have hplace : plug (node' .left .black b₁ v b₂)
      (⟨s.other, c, z, node' s.other .black a y N⟩ :: p) =
        plug N (⟨s, .black, y, a⟩ :: ⟨s, c, z, node' .left .black b₁ v b₂⟩ :: p) := by
    rw [← plug_inner, plug_outer, plug_outer, Side.other_other]
  have hstart : plug (node' s.other c (node' s.other .black b z a) y N) p =
      plug N (⟨s, c, y, node' s .black a z b⟩ :: p) := by
    rw [plug_outer, Side.other_other, node'_other]
  rw [← plug_outer, ← plug_outer] at hb₃
  rw [← plug_inner, hplace] at hb₄
  rw [hstart] at hb₁
  subst hb
  obtain ⟨hb₁', hb₂', -, -⟩ := hb.of_red'
  refine ⟨t₄, _, ?_, ((hb₁.trans hb₂).trans hb₃).trans hb₄, ?_, List.cons_ne_nil _ _⟩
  · simp only [removeFarNephew, load_of hy, Option.bind_eq_bind, Option.bind_some,
      rotate_of_sibling hkz, he₁, hcolour, he₂, he₃, he₄]
  · refine .black ha ?_
    cases hp with
    | red _ _ hp => exact .red (hb₁'.black' hb₂') (colour_node' _ _ _ _ _) hp
    | black _ hp => exact .black (hb₁'.black' hb₂') hp

omit [DecidableEq α] in
/-- The colour of a subtree two levels below a place's parent. -/
theorem IsTree.colourOf_nephews {c' : Colour}
    (h : IsTree t (plug N (⟨s, c, y, node' s c' a z b⟩ :: p))) :
    t.nodes z = some (record s a.root b.root (some y) c') ∧
      t.colourOf a.root = some a.colour ∧ t.colourOf b.root = some b.colour := by
  rw [← plug_inner, plug_outer] at h
  refine ⟨h.node, ?_, ?_⟩
  · rw [plug_inner] at h
    exact h.colourOf
  · rw [plug_outer] at h
    exact h.colourOf

/-- **A black sibling with a red nephew**: one or two rotations give the place its black node. -/
theorem removeNephews_spec (hk : N.root = some k) (ha : Balanced a m) (hb : Balanced b m)
    (hred : a.colour = .red ∨ b.colour = .red)
    (hp : Accepts (⟨s, c, y, node' s .black a z b⟩ :: p) .black (m + 1))
    (h : IsTree t (plug N (⟨s, c, y, node' s .black a z b⟩ :: p))) :
    ∃ t' q, t.removeNephews (some y) (some z) = some t' ∧
      Rebuilt t t' (plug N (⟨s, c, y, node' s .black a z b⟩ :: p)) (plug N q) ∧
      Accepts q .black m ∧ q ≠ [] := by
  have hy := h.above
  have hkz := h.sibling_ne hk
  obtain ⟨hz, hca, hcb⟩ := h.colourOf_nephews
  rw [root_node', hk] at hy
  have hright : (record s (some k) (some z) (Path.parent p) c).right = some z ↔ s = .left := by
    cases s with
    | left => exact iff_of_true rfl rfl
    | right => exact iff_of_false hkz (by decide)
  have hclose : (if s = Side.left then (record s a.root b.root (some y) .black).left
      else (record s a.root b.root (some y) .black).right) = a.root := by cases s <;> rfl
  have hfar : (if s = Side.left then (record s a.root b.root (some y) .black).right
      else (record s a.root b.root (some y) .black).left) = b.root := by cases s <;> rfl
  have hstep : t.removeNephews (some y) (some z) =
      if a.colour = .red ∧ b.colour = .black then
        (t.removeCloseNephew (some z) a.root).bind fun t =>
          t.removeFarNephew (some y) a.root (some z)
      else t.removeFarNephew (some y) (some z) b.root := by
    simp only [removeNephews, load_of hz, load_of hy, Option.bind_eq_bind, Option.bind_some,
      hright, hclose, hfar, hca, hcb]
  by_cases hbc : b.colour = .red
  · rw [hstep, if_neg (by simp [hbc])]
    exact removeFarNephew_spec hk ha hb hbc hp h
  · -- the close nephew takes the place of the sibling first
    have hac : a.colour = .red := hred.resolve_right hbc
    have hbb : b.colour = .black := by
      cases hcol : b.colour with
      | black => rfl
      | red => exact absurd hcol hbc
    obtain ⟨v, hv⟩ : ∃ v, a.root = some v := by
      cases a with
      | nil => cases hac
      | node c l v r => exact ⟨v, rfl⟩
    obtain ⟨a₁, a₂, hnode⟩ := exists_node' s hv
    rw [hac] at hnode
    subst hnode
    obtain ⟨ha₁, ha₂, ha₁c, ha₂c⟩ := ha.of_red'
    have hrotate := h
    rw [← plug_inner, plug_outer] at hrotate
    have hbv : b.root ≠ some v := hrotate.root_ne
    obtain ⟨t₁, he₁, hb₁⟩ := rebuilt_rotate hrotate
    have ht₁ := hb₁.isTree
    rw [plug_outer] at ht₁
    obtain ⟨t₂, he₂, hb₂⟩ := rebuilt_setColour ht₁ .red
    simp only [← plug_outer s .red a₁ v] at hb₂
    obtain ⟨t₃, he₃, hb₃⟩ := rebuilt_setColour hb₂.isTree .black
    have hb₁₃ := (hb₁.trans hb₂).trans hb₃
    rw [plug_sibling, plug_sibling] at hb₁₃
    have hfar : Balanced (node' s .red a₂ z b) m := ha₂.red' hb ha₂c hbb
    obtain ⟨t', q, he, hb', hq⟩ := removeFarNephew_spec hk ha₁ hfar (colour_node' _ _ _ _ _)
      (hp.exchange (ha₁.black' hfar) (colour_node' _ _ _ _ _)) hb₁₃.isTree
    refine ⟨t', q, ?_, hb₁₃.trans hb', hq⟩
    rw [root_node'] at he hz
    have hclosed : t.removeCloseNephew (some z) (some v) = some t₃ := by
      simp only [removeCloseNephew, load_of hz, Option.bind_eq_bind, Option.bind_some,
        rotate_of_record hbv, he₁, he₂, he₃]
    rw [hstep, if_pos ⟨hac, hbb⟩, root_node', hclosed, Option.bind_some, he]

/-- **A black sibling.** -/
theorem removeBlackSibling_spec (hk : N.root = some k) (ha : Balanced a m) (hb : Balanced b m)
    (hred : c = .red ∨ a.colour = .red ∨ b.colour = .red)
    (hp : Accepts (⟨s, c, y, node' s .black a z b⟩ :: p) .black (m + 1))
    (h : IsTree t (plug N (⟨s, c, y, node' s .black a z b⟩ :: p))) :
    ∃ t' q, t.removeBlackSibling (some y) (some z) = some t' ∧
      Rebuilt t t' (plug N (⟨s, c, y, node' s .black a z b⟩ :: p)) (plug N q) ∧
      Accepts q .black m ∧ q ≠ [] := by
  have hy := h.above
  obtain ⟨hz, hca, hcb⟩ := h.colourOf_nephews
  have hcy : t.colourOf (some y) = some c := by
    show (t.nodes y).map (·.colour) = some c
    rw [hy, Option.map_some, colour_record]
  have hcz : t.colourOf (some z) = some .black := by
    show (t.nodes z).map (·.colour) = some .black
    rw [hz, Option.map_some, colour_record]
  have hstep : t.removeBlackSibling (some y) (some z) =
      if c = .red ∧ a.colour = .black ∧ b.colour = .black then
        (t.setColour (some y) .black).bind fun t => t.setColour (some z) .red
      else t.removeNephews (some y) (some z) := by
    cases s with
    | left =>
      have hl : (record Side.left a.root b.root (some y) .black).left = a.root := rfl
      have hr : (record Side.left a.root b.root (some y) .black).right = b.root := rfl
      simp only [removeBlackSibling, load_of hz, Option.bind_eq_bind, Option.bind_some, hcy, hcz,
        hl, hr, hca, hcb, true_and]
    | right =>
      have hl : (record Side.right a.root b.root (some y) .black).left = b.root := rfl
      have hr : (record Side.right a.root b.root (some y) .black).right = a.root := rfl
      simp only [removeBlackSibling, load_of hz, Option.bind_eq_bind, Option.bind_some, hcy, hcz,
        hl, hr, hca, hcb, true_and, and_comm]
  by_cases hall : c = .red ∧ a.colour = .black ∧ b.colour = .black
  · obtain ⟨rfl, hac, hbc⟩ := hall
    -- the parent gives its place in the path a black node, the sibling one away
    have h₁ := h
    rw [← plug_inner] at h₁
    obtain ⟨t₁, he₁, hb₁⟩ := rebuilt_setColour h₁ .black
    have ht₁ := hb₁.isTree
    rw [plug_outer] at ht₁
    obtain ⟨t₂, he₂, hb₂⟩ := rebuilt_setColour ht₁ .red
    simp only [← plug_outer s .black N y] at hb₂
    have hb₁₂ := hb₁.trans hb₂
    rw [plug_inner, plug_inner] at hb₁₂
    refine ⟨t₂, _, ?_, hb₁₂, ?_, List.cons_ne_nil _ _⟩
    · rw [hstep, if_pos ⟨rfl, hac, hbc⟩, he₁, Option.bind_some, he₂]
    · cases hp with
      | red _ _ hp => exact .black (ha.red' hb hac hbc) hp.of_red
  · rw [hstep, if_neg hall]
    refine removeNephews_spec hk ha hb ?_ hp h
    cases hca' : a.colour with
    | red => exact Or.inl rfl
    | black =>
      cases hcb' : b.colour with
      | red => exact Or.inr rfl
      | black =>
        rw [hca', hcb'] at hred
        rcases hred with rfl | hred | hred
        · exact absurd ⟨rfl, hca', hcb'⟩ hall
        · cases hred
        · cases hred

/-- **A red sibling** becomes the grandparent; the close nephew, which is black, becomes the sibling
below a red parent. -/
theorem removeRedSibling_spec (hk : N.root = some k)
    (h : IsTree t (plug N (⟨s, .black, y, node' s .red a z b⟩ :: p))) :
    ∃ t', t.removeRedSibling (some y) (some z) = some (t', a.root) ∧
      Rebuilt t t' (plug N (⟨s, .black, y, node' s .red a z b⟩ :: p))
        (plug N (⟨s, .red, y, a⟩ :: ⟨s, .black, z, b⟩ :: p)) := by
  have hkz := h.sibling_ne hk
  have h₁ := h
  rw [← plug_inner] at h₁
  obtain ⟨t₁, he₁, hb₁⟩ := rebuilt_setColour h₁ .red
  have ht₁ := hb₁.isTree
  rw [plug_outer] at ht₁
  obtain ⟨t₂, he₂, hb₂⟩ := rebuilt_setColour ht₁ .black
  simp only [← plug_outer s .red N y] at hb₂
  have hb₁₂ := hb₁.trans hb₂
  have ht₂ := hb₁₂.isTree
  have hy := ht₂.node
  rw [root_node', hk] at hy
  rw [← node'_other, ← node'_other s .black] at ht₂
  obtain ⟨t₃, he₃, hb₃⟩ := rebuilt_rotate ht₂
  simp only [node'_other s .black, node'_other s .red] at hb₃
  have hb₁₃ := hb₁₂.trans hb₃
  have ht₃ := hb₁₃.isTree
  rw [plug_inner] at ht₃
  have hy₃ := ht₃.node
  rw [plug_inner, plug_inner, plug_inner] at hb₁₃
  refine ⟨t₃, ?_, hb₁₃⟩
  cases s with
  | left =>
    have hne : (record Side.left (some k) (some z) (Path.parent p) .red).left ≠ some z := hkz
    have hrotate : t₂.rotateLeft (some z) = some t₃ := he₃
    simp only [removeRedSibling, he₁, he₂, load_of hy, Option.bind_eq_bind, Option.bind_some,
      if_neg hne, hrotate, load_of hy₃]
    rfl
  | right =>
    have heq : (record Side.right (some k) (some z) (Path.parent p) .red).left = some z := rfl
    have hrotate : t₂.rotateRight (some z) = some t₃ := he₃
    simp only [removeRedSibling, he₁, he₂, load_of hy, Option.bind_eq_bind, Option.bind_some,
      heq, if_true, hrotate, load_of hy₃]
    rfl

/-- **Around a place that lacks a black node**, with a red node nearby, the tree is changed so that
the place needs one black node less. -/
theorem removeRebalance_spec {cS : Colour} (hk : N.root = some k)
    (hS : Balanced (node' s cS a z b) (m + 1))
    (hred : c = .red ∨ cS = .red ∨ a.colour = .red ∨ b.colour = .red)
    (hp : Accepts (⟨s, c, y, node' s cS a z b⟩ :: p) .black (m + 1))
    (h : IsTree t (plug N (⟨s, c, y, node' s cS a z b⟩ :: p))) :
    ∃ t' q, t.removeRebalance (some y) (some z) = some t' ∧
      Rebuilt t t' (plug N (⟨s, c, y, node' s cS a z b⟩ :: p)) (plug N q) ∧
      Accepts q .black m ∧ q ≠ [] := by
  obtain ⟨hz, -, -⟩ := h.colourOf_nephews
  have hcz : t.colourOf (some z) = some cS := by
    show (t.nodes z).map (·.colour) = _
    rw [hz, Option.map_some, colour_record]
  cases cS with
  | black =>
    obtain ⟨n, hn, ha, hb⟩ := hS.of_black'
    cases hn
    obtain ⟨t', q, he, hb', hq⟩ := removeBlackSibling_spec hk ha hb (by simpa using hred) hp h
    refine ⟨t', q, ?_, hb', hq⟩
    simp only [removeRebalance, hcz, Option.bind_eq_bind, Option.bind_some, reduceCtorEq, if_false,
      he]
  | red =>
    obtain ⟨ha, hb, hac, hbc⟩ := hS.of_red'
    cases hp with
    | red _ hSc _ =>
      rw [colour_node'] at hSc
      cases hSc
    | black _ hp =>
      obtain ⟨t₁, he₁, hb₁⟩ := removeRedSibling_spec hk h
      obtain ⟨v, a₁, a₂, hnode⟩ := ha.exists_node' s
      rw [hac] at hnode
      subst hnode
      obtain ⟨n, hn, ha₁, ha₂⟩ := ha.of_black'
      cases hn
      have hp' : Accepts (⟨s, .red, y, node' s .black a₁ v a₂⟩ :: ⟨s, .black, z, b⟩ :: p) .black
          (m + 1) := .red ha hac (.black hb hp)
      obtain ⟨t', q, he, hb', hq⟩ :=
        removeBlackSibling_spec hk ha₁ ha₂ (Or.inl rfl) hp' hb₁.isTree
      refine ⟨t', q, ?_, hb₁.trans hb', hq⟩
      rw [root_node'] at he₁
      simp only [removeRebalance, hcz, Option.bind_eq_bind, Option.bind_some, if_true, he₁, he]

omit [DecidableEq α] in
theorem redAround_spec {cS : Colour} (h : IsTree t (plug N (⟨s, c, y, node' s cS a z b⟩ :: p))) :
    t.redAround (some y) (some z) =
      some (decide (c = .red ∨ cS = .red ∨ a.colour = .red ∨ b.colour = .red)) := by
  have hy := h.above
  obtain ⟨hz, hca, hcb⟩ := h.colourOf_nephews
  have hcy : t.colourOf (some y) = some c := by
    show (t.nodes y).map (·.colour) = _
    rw [hy, Option.map_some, colour_record]
  have hcz : t.colourOf (some z) = some cS := by
    show (t.nodes z).map (·.colour) = _
    rw [hz, Option.map_some, colour_record]
  simp only [redAround, hcy, hcz, load_of hz, Option.bind_eq_bind, Option.bind_some]
  cases c with
  | red => simp
  | black =>
    cases cS with
    | red => simp
    | black => cases s <;> simp [record, hca, hcb, Bool.or_comm]

/-! ## The loop -/

/-- **The loop of the removal**: the leaf `x` stays where it is, and the tree is changed so that it
is valid without it. -/
theorem removeFix_spec {x : α} {q : Path α} {fuel : Nat}
    (h : IsTree t (plug (plug (node .black nil x nil) q) p))
    (hk : (plug (node .black nil x nil) q).root = some k) (hN : Balanced (plug nil q) m)
    (hNc : (plug nil q).colour = .black) (hp : Accepts p .black (m + 1)) (hne : q ++ p ≠ [])
    (hf : p.length < fuel) :
    ∃ t' r, t.removeFix (some k) (Path.parent p) fuel = some t' ∧
      Rebuilt t t' (plug (plug (node .black nil x nil) q) p) (plug (node .black nil x nil) r) ∧
      Valid (plug nil r) ∧ r ≠ [] := by
  induction fuel generalizing t p q k m with
  | zero => cases hf
  | succ fuel ih =>
    cases p with
    | nil =>
      rw [List.append_nil] at hne
      exact ⟨t, q, rfl, ⟨h, rfl, .refl⟩, ⟨hNc, m, hN⟩, hne⟩
    | cons f p =>
      obtain ⟨s, c, y, S⟩ := f
      have hS : Balanced S (m + 1) := by
        cases hp with
        | red hu _ _ => exact hu
        | black hu _ => exact hu
      obtain ⟨z, a, b, hnode⟩ := hS.exists_node' s
      generalize S.colour = cS at hnode
      subst hnode
      have hy := h.above
      have hkz := h.sibling_ne hk
      rw [root_node', hk] at hy
      have haround := redAround_spec h
      have hstep : t.removeFix (some k) (some y) (fuel + 1) =
          if c = .red ∨ cS = .red ∨ a.colour = .red ∨ b.colour = .red then
            t.removeRebalance (some y) (some z)
          else (t.setColour (some z) .red).bind fun t =>
            (t.load (some y)).bind fun n => t.removeFix (some y) n.parent fuel := by
        simp only [removeFix, reduceCtorEq, if_false, load_of hy, Option.bind_eq_bind,
          Option.bind_some, sibling_record hkz.symm, haround, decide_eq_true_eq]
      by_cases hred : c = .red ∨ cS = .red ∨ a.colour = .red ∨ b.colour = .red
      · obtain ⟨t', r, he, hb, hr, hrne⟩ := removeRebalance_spec hk hS hred hp h
        rw [← plug_append _ q r] at hb
        refine ⟨t', q ++ r, (hstep.trans (if_pos hred)).trans he, hb, ?_, ?_⟩
        · rw [plug_append]
          exact hr.valid hN hNc
        · exact fun he => hrne (List.append_eq_nil_iff.mp he).2
      · -- all are black: the sibling gives its black node away, and the node above lacks one
        obtain ⟨rfl, rfl, hac, hbc⟩ : c = .black ∧ cS = .black ∧ a.colour = .black ∧
            b.colour = .black := by
          have hblack : ∀ c' : Colour, c' ≠ .red → c' = .black := by
            intro c' hc'
            cases c' with
            | black => rfl
            | red => exact absurd rfl hc'
          rw [not_or, not_or, not_or] at hred
          exact ⟨hblack _ hred.1, hblack _ hred.2.1, hblack _ hred.2.2.1, hblack _ hred.2.2.2⟩
        obtain ⟨n, hn, ha, hb⟩ := hS.of_black'
        cases hn
        have h₁ := h
        rw [← plug_sibling] at h₁
        obtain ⟨t₁, he₁, hb₁⟩ := rebuilt_setColour h₁ .red
        simp only [plug_sibling] at hb₁
        have hgrow : plug (plug (node .black nil x nil) q)
            (⟨s, .black, y, node' s .red a z b⟩ :: p) =
              plug (plug (node .black nil x nil)
                (q ++ [⟨s, .black, y, node' s .red a z b⟩])) p := by
          rw [plug_append _ q [_]]
          rfl
        have ht₁ := hb₁.isTree
        have hy₁ := ht₁.above
        rw [hgrow] at ht₁
        have hroot : (plug (node .black nil x nil)
            (q ++ [⟨s, .black, y, node' s .red a z b⟩])).root = some y := by
          rw [plug_append]
          exact root_node' _ _ _ _ _
        have hN' : Balanced (plug nil (q ++ [⟨s, .black, y, node' s .red a z b⟩])) (m + 1) := by
          rw [plug_append]
          exact hN.black' (ha.red' hb hac hbc)
        have hNc' : (plug nil (q ++ [⟨s, .black, y, node' s .red a z b⟩])).colour = .black := by
          rw [plug_append]
          exact colour_node' _ _ _ _ _
        cases hp with
        | black _ hp =>
          obtain ⟨t', r, he, hb', hr⟩ := ih ht₁ hroot hN' hNc' hp (by simp)
            (Nat.lt_of_succ_lt_succ hf)
          rw [← hgrow] at hb'
          refine ⟨t', r, ?_, hb₁.trans hb', hr⟩
          refine hstep.trans ?_
          rw [if_neg hred, he₁, Option.bind_some, load_of hy₁, Option.bind_some, parent_record]
          exact he

/-! ## Leaves and nodes with one child -/

/-- What a removal makes of a tree. -/
structure Removed (t t' : RbTree α) (x : α) (T T' : CTree α) : Prop where
  isTree : IsTree t' T'
  valid : Valid T'
  toList : ∃ pre post, T.toList = pre ++ x :: post ∧ T'.toList = pre ++ post
  changes : Changes t t' T.toList

omit [DecidableEq α] in
theorem root_mem_labels {T : CTree α} {r : α} (hp : p ≠ []) (hr : (plug T p).root = some r) :
    r ∈ Path.labels p := by
  induction p generalizing T with
  | nil => exact absurd rfl hp
  | cons f p ih =>
    cases p with
    | nil =>
      rw [plug_cons, plug_nil, Frame.plug, root_node'] at hr
      rw [← Option.some.inj hr]
      exact List.mem_cons_self
    | cons g p =>
      exact List.mem_cons_of_mem _ (List.mem_append_right _ (ih (List.cons_ne_nil _ _) hr))

omit [DecidableEq α] in
/-- A leaf that has been taken away leaves the rest of the list. -/
theorem removed_of_unlink {t₁ t₂ : RbTree α} {T : CTree α} {x : α} (h₁ : Rebuilt t t₁ T
    (plug (node c nil x nil) p)) (h₂ : IsTree t₂ (plug nil p)) (hv : Valid (plug nil p))
    (hc : Changes t₁ t₂ (plug nil p).toList) : Removed t t₂ x T (plug nil p) := by
  refine ⟨h₂, hv, ⟨before p, after p, ?_, toList_plug _ _⟩, h₁.changes.trans (hc.mono ?_)⟩
  · rw [← h₁.toList, toList_plug]
    rfl
  · intro v hv
    rw [toList_plug, toList_nil, List.nil_append, List.mem_append] at hv
    rw [← h₁.toList, toList_plug, List.mem_append, List.mem_append]
    exact hv.imp_right Or.inr

theorem removeLeaf_spec {x : α} {fuel : Nat} (h : IsTree t (plug (node c nil x nil) p))
    (hv : Valid (plug (node c nil x nil) p)) (hf : p.length < fuel) :
    ∃ t' T', t.removeLeaf fuel x = some t' ∧ Removed t t' x (plug (node c nil x nil) p) T' := by
  cases p with
  | nil =>
    have hroot : t.root = some x := h.root
    refine ⟨{ t with root := none }, nil, by rw [removeLeaf, if_pos hroot],
      ⟨rfl, trivial, List.nodup_nil⟩, ⟨rfl, 0, .nil⟩, ⟨[], [], rfl, rfl⟩,
      fun _ _ => rfl, fun _ => rfl⟩
  | cons f p =>
    obtain ⟨-, ⟨hx, -, -⟩, -, hnodup⟩ := isTree_plug.mp h
    have hroot : t.root ≠ some x := by
      intro hr
      rw [h.root] at hr
      exact (List.nodup_cons.mp hnodup).1 (root_mem_labels (List.cons_ne_nil _ _) hr)
    obtain ⟨n, hn, hp⟩ := hv.split
    cases hn with
    | red hl _ _ _ =>
      cases hl
      obtain ⟨t', he, ht', hc⟩ := unlink_spec h
      refine ⟨t', _, ?_, removed_of_unlink ⟨h, rfl, .refl⟩ ht'
        ((Accepts.of_red hp).valid .nil rfl) hc⟩
      simp only [removeLeaf, if_neg hroot, hx, Option.bind_eq_bind, Option.bind_some, if_true, he]
    | black hl _ =>
      cases hl
      obtain ⟨t₁, r, he₁, hb, hvalid, hr⟩ :=
        removeFix_spec (q := []) h rfl .nil rfl hp (List.cons_ne_nil _ _) hf
      obtain ⟨g, r, rfl⟩ := List.exists_cons_of_ne_nil hr
      obtain ⟨t', he, ht', hc⟩ := unlink_spec hb.isTree
      refine ⟨t', _, ?_, removed_of_unlink hb ht' hvalid hc⟩
      simp only [removeLeaf, if_neg hroot, hx, Option.bind_eq_bind, Option.bind_some, reduceCtorEq,
        if_false, he₁, he]

omit [DecidableEq α] in
/-- The only child of a node in a balanced tree is a red leaf, and the node is black. -/
theorem only_child {x : α} {n : Nat} (h : Balanced (node' s c a x nil) n) (ha : a ≠ nil) :
    c = .black ∧ n = 1 ∧ ∃ v, a = node .red nil v nil := by
  have hleaf : ∀ {b : CTree α}, Balanced b 0 → b.colour = .black → b = nil := by
    intro b hb hc
    cases hb with
    | nil => rfl
    | red _ _ _ _ => cases hc
  cases c with
  | red =>
    obtain ⟨hb, hn, hbc, -⟩ := h.of_red'
    cases hn
    exact absurd (hleaf hb hbc) ha
  | black =>
    obtain ⟨m, rfl, hb, hn⟩ := h.of_black'
    cases hn
    refine ⟨rfl, rfl, ?_⟩
    cases hb with
    | nil => exact absurd rfl ha
    | red hl hr hlc hrc => exact ⟨_, by rw [hleaf hl hlc, hleaf hr hrc]⟩

theorem removeSplice_spec {x : α} (h : IsTree t (plug (node' s c a x nil) p))
    (hv : Valid (plug (node' s c a x nil) p)) (ha : a ≠ nil) :
    ∃ t' T', t.removeSplice x = some t' ∧ Removed t t' x (plug (node' s c a x nil) p) T' := by
  obtain ⟨n, hn, hp⟩ := hv.split
  obtain ⟨rfl, rfl, v, rfl⟩ := only_child hn ha
  obtain ⟨hroot, hholds, hpath, hnodup⟩ := isTree_plug.mp h
  obtain ⟨hx, ⟨hv', -, -⟩, -⟩ := holds_node'.mp hholds
  rw [root_node'] at hpath
  rw [colour_node'] at hp
  rw [nodup_node'] at hnodup
  simp only [toList, List.append_nil, List.nil_append, List.cons_append, List.nodup_cons,
    List.mem_cons, not_or] at hnodup
  obtain ⟨⟨hxv, hxp⟩, hvp, hlabels⟩ := hnodup
  obtain ⟨t₁, he₁, hroot₁, hpath₁, hc₁⟩ := replaceChild_spec hroot hpath
    (List.nodup_cons.mpr ⟨hxp, hlabels⟩) (node .black nil v nil)
  have hparent : ∀ w ∈ (Path.parent p).toList, w ∈ Path.labels p := fun w hw =>
    mem_labels_of_parent hw
  have hv₁ : t₁.nodes v = _ := (hc₁.outside v fun hin => hvp (hparent v hin)).trans hv'
  obtain ⟨t₂, he₂, hroot₂, hv₂, hc₂⟩ := modify_spec hv₁ fun c =>
    { c with parent := Path.parent p, colour := .black }
  refine ⟨t₂, plug (node .black nil v nil) p, ?_, isTree_plug.mpr ⟨hroot₂.trans hroot₁,
    ⟨hv₂, trivial, trivial⟩, hpath₁.congr ?_, ?_⟩, hp.valid (.black .nil .nil) rfl, ?_,
    (hc₁.append hc₂).mono ?_⟩
  · have hchild : (if (record s (some v) none (Path.parent p) .black).left.isSome then
        (record s (some v) none (Path.parent p) .black).left
        else (record s (some v) none (Path.parent p) .black).right) = some v := by
      cases s <;> rfl
    have hx' : t.nodes x = some (record s (some v) none (Path.parent p) .black) := hx
    simp only [removeSplice, hx', Option.bind_eq_bind, Option.bind_some, parent_record, hchild]
    rw [show t.replaceChild (Path.parent p) (some x) (some v) = some t₁ from he₁, Option.bind_some]
    exact he₂
  · intro w hw
    refine hc₂.outside w ?_
    rw [List.mem_singleton]
    rintro rfl
    exact hvp hw
  · exact List.nodup_cons.mpr ⟨hvp, hlabels⟩
  · rw [toList_plug, toList_plug]
    cases s with
    | left => exact ⟨before p ++ [v], after p, by simp [node', toList], by simp [toList]⟩
    | right => exact ⟨before p, v :: after p, by simp [node', toList], by simp [toList]⟩
  · intro w hw
    rw [(perm_plug _ _).mem_iff, List.mem_append, (perm_node' _ _ _ _ _).mem_iff]
    rw [List.mem_append, List.mem_singleton] at hw
    rcases hw with hw | rfl
    · exact Or.inr (hparent w hw)
    · exact Or.inl (by simp [toList])

/-! ## The successor -/

/-- The node that a path ends at, or the place itself. -/
def spineParent (top : Option α) : Path α → Option α
  | [] => top
  | f :: _ => some f.label

/-- The nodes of a path below a node `top` are in memory. -/
def HoldsSpine (m : α → Option (RbNode α)) (top : Option α) : Option α → Path α → Prop
  | _, [] => True
  | hole, f :: q =>
    m f.label = some (record f.side hole f.sibling.root (spineParent top q) f.colour) ∧
      Holds m (some f.label) f.sibling ∧ HoldsSpine m top (some f.label) q

section Spine

variable {m' : α → Option (RbNode α)} {mem : α → Option (RbNode α)} {top hole : Option α}
  {q : Path α}

omit [DecidableEq α] in
theorem holds_plug_spine (T : CTree α) (q : Path α) :
    Holds mem top (plug T q) ↔ Holds mem (spineParent top q) T ∧ HoldsSpine mem top T.root q := by
  induction q generalizing T with
  | nil => exact (and_iff_left trivial).symm
  | cons f q ih =>
    rw [plug_cons, ih, Frame.plug, holds_node', root_node']
    constructor
    · rintro ⟨⟨hf, hT, hu⟩, hq⟩
      exact ⟨hT, hf, hu, hq⟩
    · rintro ⟨hT, hf, hu, hq⟩
      exact ⟨⟨hf, hT, hu⟩, hq⟩

omit [DecidableEq α] in
theorem HoldsSpine.congr (h : HoldsSpine mem top hole q)
    (hm : ∀ y ∈ Path.labels q, m' y = mem y) : HoldsSpine m' top hole q := by
  induction q generalizing hole with
  | nil => trivial
  | cons f q ih =>
    obtain ⟨hf, hu, hq⟩ := h
    rw [Path.labels] at hm
    refine ⟨?_, hu.congr fun y hy => hm y (by simp [hy]), ih hq fun y hy => hm y (by simp [hy])⟩
    rw [hm f.label (by simp), hf]

/-- The node at the top of a path gets another parent. -/
theorem setTop_spec {g : α} {T : CTree α} (h : HoldsSpine t.nodes top hole q) (hq : q ≠ [])
    (hg : (plug T q).root = some g) (hn : (Path.labels q).Nodup) (top' : Option α) :
    ∃ t', t.setParent (some g) top' = some t' ∧ t'.root = t.root ∧
      HoldsSpine t'.nodes top' hole q ∧ Changes t t' [g] := by
  induction q generalizing hole T with
  | nil => exact absurd rfl hq
  | cons f q ih =>
    obtain ⟨hf, hu, hrest⟩ := h
    rw [Path.labels, List.nodup_cons, List.mem_append, not_or] at hn
    cases q with
    | nil =>
      rw [plug_cons, plug_nil, Frame.plug, root_node'] at hg
      cases hg
      obtain ⟨t', he, hroot, hf', hc⟩ := modify_spec hf fun n => { n with parent := top' }
      refine ⟨t', he, hroot, ⟨?_, hu.congr fun v hv => ?_, trivial⟩, hc⟩
      · rw [hf', setParent_record]
        rfl
      · exact hc.outside v (by
          rw [List.mem_singleton]
          rintro rfl
          exact hn.1.1 hv)
    | cons f' q =>
      obtain ⟨t', he, hroot, hrest', hc⟩ :=
        ih hrest (List.cons_ne_nil _ _) hg (List.nodup_append.mp hn.2).2.1
      have hgin : g ∈ Path.labels (f' :: q) := root_mem_labels (List.cons_ne_nil _ _) hg
      refine ⟨t', he, hroot, ⟨?_, hu.congr fun v hv => ?_, hrest'⟩, hc⟩
      · rw [hc.outside f.label (by
          rw [List.mem_singleton]
          rintro rfl
          exact hn.1.2 hgin), hf]
        rfl
      · exact hc.outside v (by
          rw [List.mem_singleton]
          rintro rfl
          exact (List.nodup_append.mp hn.2).2.2 v hv v hgin rfl)

/-- The pointer down from a path is set. -/
theorem setHole_spec {f : Frame α} (h : HoldsSpine t.nodes top hole (f :: q))
    (hn : (Path.labels (f :: q)).Nodup) (hole' : Option α) :
    ∃ t', t.setChild f.side (some f.label) hole' = some t' ∧ t'.root = t.root ∧
      HoldsSpine t'.nodes top hole' (f :: q) ∧ Changes t t' [f.label] := by
  obtain ⟨hf, hu, hrest⟩ := h
  rw [Path.labels, List.nodup_cons, List.mem_append, not_or] at hn
  obtain ⟨t', he, hroot, hf', hc⟩ := modify_spec hf fun n => n.setChild f.side hole'
  refine ⟨t', he, hroot, ⟨?_, hu.congr fun v hv => ?_, hrest.congr fun v hv => ?_⟩, hc⟩
  · rw [hf', setChild_record]
  · exact hc.outside v (by
      rw [List.mem_singleton]
      rintro rfl
      exact hn.1.1 hv)
  · exact hc.outside v (by
      rw [List.mem_singleton]
      rintro rfl
      exact hn.1.2 hv)

end Spine

omit [DecidableEq α] in
/-- The first node of a tree, and the way up from it. -/
theorem exists_first {r : CTree α} {g : α} (hr : r.root = some g) :
    ∃ c y u q, r = plug (node c nil y u) q ∧ ∀ f ∈ q, f.side = .left := by
  induction r generalizing g with
  | nil => cases hr
  | node c l y u ihl _ =>
    cases hl : l.root with
    | none =>
      rw [eq_nil_of_root hl]
      exact ⟨c, y, u, [], rfl, fun f hf => absurd hf List.not_mem_nil⟩
    | some g' =>
      obtain ⟨c', y', u', q, rfl, hq⟩ := ihl hl
      refine ⟨c', y', u', q ++ [⟨.left, c, y, u⟩], ?_, ?_⟩
      · rw [plug_append]
        rfl
      · intro f hf
        rcases List.mem_append.mp hf with hf | hf
        · exact hq f hf
        · rw [List.mem_singleton.mp hf]

omit [DecidableEq α] in
theorem before_of_left {q : Path α} (hq : ∀ f ∈ q, f.side = Side.left) : before q = [] := by
  induction q with
  | nil => rfl
  | cons f q ih =>
    obtain ⟨s, c, x, u⟩ := f
    obtain rfl : s = .left := hq _ List.mem_cons_self
    exact ih fun f hf => hq f (List.mem_cons_of_mem _ hf)

section Swap

/-- A computation goes on with what its first part answers. -/
theorem bind_of {β γ : Type} {m : Option β} {b : β} (h : m = some b) (f : β → Option γ) :
    m >>= f = f b := by
  rw [h]
  rfl

variable {x : α} {l : CTree α} {cy : Colour} {q : Path α} {fuel : Nat}

omit [DecidableEq α] in
/-- The nodes that a node with two children and its successor are among. -/
theorem perm_swap (c cy : Colour) (x y : α) (l u : CTree α) (q p : Path α) :
    (plug (node c l x (plug (node cy nil y u) q)) p).toList.Perm
    (x :: y :: (l.toList ++ u.toList ++ Path.labels q ++ Path.labels p)) := by
  refine (perm_plug _ _).trans ?_
  have hr := perm_plug (node cy nil y u) q
  have hx : (node c l x (plug (node cy nil y u) q)).toList.Perm
      (x :: (l.toList ++ ((node cy nil y u).toList ++ Path.labels q))) :=
    List.perm_middle.trans ((hr.append_left l.toList).cons x)
  refine (hx.append_right (Path.labels p)).trans ?_
  simp only [toList, List.nil_append, List.cons_append, List.append_assoc]
  exact (List.perm_middle.trans (List.Perm.refl _)).cons x

omit [DecidableEq α] in
theorem nodup_swap (h : (plug (node c l x (plug (node cy nil y u) q)) p).toList.Nodup) :
    (plug (node c l y (plug (node cy nil x u) q)) p).toList.Nodup := by
  have hperm := perm_swap c cy x y l u q p
  have hperm' := perm_swap c cy y x l u q p
  exact ((hperm.trans (List.Perm.swap y x _)).trans hperm'.symm).nodup_iff.mp h

omit [DecidableEq α] in
theorem mem_swap {l u q p : List α} {v : α} (h : v ∈ y :: (l ++ p) ∨ v ∈ x :: (u ++ q)) :
    v ∈ x :: y :: (l ++ u ++ q ++ p) := by
  simp only [List.mem_cons, List.mem_append] at h ⊢
  tauto

/-- What the first steps of the swap change, what they leave to the path between the two nodes and
what they leave to the last steps is told apart. -/
structure Apart (x y : α) (l u q p : List α) : Prop where
  first : (y :: (l ++ p)).Nodup
  middle : q.Nodup
  last : (x :: u).Nodup
  last_middle : ∀ v ∈ x :: u, v ∉ q
  below_first : ∀ v ∈ x :: (u ++ q), v ∉ y :: (l ++ p)

theorem apart_of_nodup (h : (plug (node c l x (plug (node cy nil y u) q)) p).toList.Nodup) :
    Apart x y l.toList u.toList (Path.labels q) (Path.labels p) := by
  have hparts : (x :: (u.toList ++ Path.labels q) ++ y :: (l.toList ++ Path.labels p)).Nodup := by
    refine (List.Perm.nodup_iff ?_).mp ((perm_swap c cy x y l u q p).nodup_iff.mp h)
    rw [List.perm_iff_count]
    intro v
    simp only [List.cons_append, List.count_cons, List.count_append]
    omega
  obtain ⟨hbelow, hfirst, hdisjoint⟩ := List.nodup_append.mp hparts
  obtain ⟨hlast, hmiddle, hdisjoint'⟩ := List.nodup_append.mp (List.cons_append ▸ hbelow)
  exact ⟨hfirst, hmiddle, hlast, fun v hv hv' => hdisjoint' v hv v hv' rfl,
    fun v hv hv' => hdisjoint v hv v hv' rfl⟩

omit [DecidableEq α] in
/-- The first steps stay away from the nodes that the others are about, and these from theirs. -/
theorem Apart.first_below {l u q p : List α} (h : Apart x y l u q p) {v : α}
    (hv : v ∈ y :: (l ++ p)) : v ∉ x :: (u ++ q) := fun hv' => h.below_first v hv' hv

omit [DecidableEq α] in
theorem Apart.ne_of_below {l u q p : List α} (h : Apart x y l u q p) {v : α}
    (hv : v ∈ x :: (u ++ q)) : v ≠ y := fun he => h.below_first v hv (he ▸ List.mem_cons_self)

omit [DecidableEq α] in
theorem Apart.ne_of_rest {l u q p : List α} (h : Apart x y l u q p) {v : α} (hv : v ∈ l ++ p) :
    v ≠ y := fun he => (List.nodup_cons.mp h.first).1 (he ▸ hv)

omit [DecidableEq α] in
/-- The list of a tree is the same but for a node and its successor, which have changed places. -/
theorem swap_place : plug (node cy nil x u) (q ++ ⟨.right, c, y, l⟩ :: p) =
    plug (node c l y (plug (node cy nil x u) q)) p := by
  rw [plug_append]
  rfl

theorem successor_of_right (h : IsTree t (plug (node c l x (plug (node cy nil y u) q)) p))
    (hq : ∀ f ∈ q, f.side = .left)
    (hf : (plug (node c l x (plug (node cy nil y u) q)) p).toList.length < fuel) :
    t.successor fuel x = some (some y) := by
  have hlist : (plug (node c l x (plug (node cy nil y u) q)) p).toList =
      (before p ++ l.toList) ++ x :: (y :: (u.toList ++ (after q ++ after p))) := by
    rw [toList_plug, toList, toList_plug, before_of_left hq]
    simp [toList]
  rw [successor_spec h hf hlist]
  rfl

/-- The first steps of the swap, which are the same wherever the successor is: the pointer down,
what the node holds, and the left child. -/
theorem swap_first (h : IsTree t (plug (node c l x (plug (node cy nil y u) q)) p)) (hl : l ≠ nil) :
    ∃ t₁ t₂ t₃, t.replaceChild (Path.parent p) (some x) (some y) = some t₁ ∧
      t₁.modify (some y) (fun _ =>
        { left := l.root, right := (plug (node cy nil y u) q).root, parent := Path.parent p,
          colour := c }) = some t₂ ∧
      t₂.setParent l.root (some y) = some t₃ ∧ t₃.root = (plug (node c l y nil) p).root ∧
      HoldsPath t₃.nodes (some y) p ∧ Holds t₃.nodes (some y) l ∧
      t₃.nodes y =
        some (record .left l.root (plug (node cy nil y u) q).root (Path.parent p) c) ∧
      (∀ v ∈ x :: (u.toList ++ Path.labels q), t₃.nodes v = t.nodes v) ∧
      t₁.nodes x = t.nodes x ∧ t₁.nodes y = t.nodes y ∧
      t₂.nodes y = t₃.nodes y ∧
      Changes t t₃ (y :: (l.toList ++ Path.labels p)) := by
  have hapart := apart_of_nodup h.nodup
  obtain ⟨hyfirst, hfirst⟩ := List.nodup_cons.mp hapart.first
  obtain ⟨hlnodup, hpnodup, hlp⟩ := List.nodup_append.mp hfirst
  have hxp : x ∉ Path.labels p := fun hin => hapart.below_first x List.mem_cons_self (by simp [hin])
  have hyp : y ∉ Path.labels p := fun hin => hyfirst (by simp [hin])
  have hyl : y ∉ l.toList := fun hin => hyfirst (by simp [hin])
  have hxy : x ≠ y := by
    rintro rfl
    exact hapart.below_first x List.mem_cons_self List.mem_cons_self
  obtain ⟨hroot, ⟨hx, hl', hr⟩, hpath, hn⟩ := isTree_plug.mp h
  obtain ⟨⟨hy, -, hu⟩, hspine⟩ := (holds_plug_spine _ _).mp hr
  obtain ⟨t₁, he₁, hroot₁, hpath₁, hc₁⟩ := replaceChild_spec hroot hpath
    (List.nodup_cons.mpr ⟨hxp, hpnodup⟩) (node c l y nil)
  have hparent : ∀ w ∈ (Path.parent p).toList, w ∈ Path.labels p := fun w hw =>
    mem_labels_of_parent hw
  have hx₁ : t₁.nodes x = t.nodes x := hc₁.outside x fun hin => hxp (hparent x hin)
  have hy₁ : t₁.nodes y = t.nodes y := hc₁.outside y fun hin => hyp (hparent y hin)
  obtain ⟨t₂, he₂, hroot₂, hy₂, hc₂⟩ := modify_spec (hy₁.trans hy) fun _ =>
    { left := l.root, right := (plug (node cy nil y u) q).root, parent := Path.parent p,
      colour := c }
  have hc₁₂ := hc₁.append hc₂
  obtain ⟨t₃, he₃, hroot₃, hl₃, hc₃⟩ := reparent_spec (t := t₂) (T := l)
    (hl'.congr fun v hv => hc₁₂.outside v fun hin => by
      rcases List.mem_append.mp hin with hin | hin
      · exact hlp v hv v (hparent v hin) rfl
      · rw [List.mem_singleton.mp hin] at hv
        exact hyl hv) hlnodup (some y)
  have hlroot : ∀ w ∈ l.root.toList, w ∈ l.toList := fun w hw =>
    mem_of_root (Option.mem_toList.mp hw)
  have hc₁₃ : Changes t t₃ (y :: (l.toList ++ Path.labels p)) := by
    refine (hc₁₂.append hc₃).mono fun v hv => ?_
    rw [List.mem_append, List.mem_append, List.mem_singleton] at hv
    rw [List.mem_cons, List.mem_append]
    rcases hv with (hv | hv) | hv
    · exact Or.inr (Or.inr (hparent v hv))
    · exact Or.inl hv
    · exact Or.inr (Or.inl (hlroot v hv))
  have hl_some : l.root.isSome = true := by
    cases l with
    | nil => exact absurd rfl hl
    | node _ _ _ _ => rfl
  rw [if_pos hl_some] at he₃
  have hy₃ : t₃.nodes y = t₂.nodes y := hc₃.outside y fun hin => hyl (hlroot y hin)
  refine ⟨t₁, t₂, t₃, he₁, he₂, he₃, ?_, ?_, hl₃, hy₃.trans hy₂, ?_, hx₁, hy₁, hy₃.symm, hc₁₃⟩
  · rw [hroot₃, hroot₂, hroot₁]
  · refine hpath₁.congr fun v hv => (hc₂.append hc₃).outside v fun hin => ?_
    rcases List.mem_append.mp hin with hin | hin
    · rw [List.mem_singleton.mp hin] at hv
      exact hyp hv
    · exact hlp v (hlroot v hin) v hv rfl
  · exact fun v hv => hc₁₃.outside v (hapart.below_first v hv)

/-- The last steps of the swap: the node is put where the successor was. -/
theorem swap_last (par : Option α) (cy : Colour) {n : RbNode α} (hx : t.nodes x = some n)
    (hu : Holds t.nodes (some y) u) (hn : (x :: u.toList).Nodup) :
    ∃ t₁ t₂ t₃, t.modify (some x) (fun n => { n with parent := par, colour := cy }) = some t₁ ∧
      t₁.modify (some x) (fun n => { n with left := none, right := u.root }) = some t₂ ∧
      (if u.root.isSome then t₂.setParent u.root (some x) else some t₂) = some t₃ ∧
      t₃.root = t.root ∧ Holds t₃.nodes par (node cy nil x u) ∧ Changes t t₃ (x :: u.toList) := by
  rw [List.nodup_cons] at hn
  obtain ⟨t₁, he₁, hroot₁, hx₁, hc₁⟩ := modify_spec hx fun n =>
    { n with parent := par, colour := cy }
  obtain ⟨t₂, he₂, hroot₂, hx₂, hc₂⟩ := modify_spec hx₁ fun n =>
    { n with left := none, right := u.root }
  have hc₁₂ := hc₁.append hc₂
  have huroot : ∀ w ∈ u.root.toList, w ∈ u.toList := fun w hw =>
    mem_of_root (Option.mem_toList.mp hw)
  obtain ⟨t₃, he₃, hroot₃, hu₃, hc₃⟩ := reparent_spec (t := t₂) (T := u)
    (hu.congr fun v hv => hc₁₂.outside v (by grind)) hn.2 (some x)
  refine ⟨t₁, t₂, t₃, he₁, he₂, he₃, ?_, ⟨?_, trivial, hu₃⟩, (hc₁₂.append hc₃).mono ?_⟩
  · rw [hroot₃, hroot₂, hroot₁]
  · rw [hc₃.outside x fun hin => hn.1 (huroot x hin), hx₂]
    rfl
  · intro v hv
    grind

/-- The successor is the right child. -/
theorem swap_adjacent (h : IsTree t (plug (node c l x (node cy nil y u)) p)) (hl : l ≠ nil)
    (hf : (plug (node c l x (node cy nil y u)) p).toList.length < fuel) :
    ∃ t', t.swapSuccessor fuel x = some t' ∧
      IsTree t' (plug (node c l y (node cy nil x u)) p) ∧
      Changes t t' (plug (node c l x (node cy nil y u)) p).toList := by
  have hsucc := successor_of_right (q := []) h (fun f hf => absurd hf List.not_mem_nil) hf
  have hperm := perm_swap c cy x y l u [] p
  have hapart := apart_of_nodup (q := []) h.nodup
  rw [Path.labels] at hapart
  obtain ⟨-, ⟨hx, -, hy, -, hu⟩, -, -⟩ := isTree_plug.mp h
  obtain ⟨t₁, t₂, t₃, he₁, he₂, he₃, hroot₃, hpath₃, hl₃, hy₃, hsame₃, hx₁, hy₁, hy₂, hc₃⟩ :=
    swap_first (q := []) h hl
  rw [plug_nil] at he₂ hy₃
  obtain ⟨t₅, he₅, hroot₅, hy₅, hc₅⟩ := modify_spec hy₃ fun n => n.setChild .right (some x)
  have hsame₅ : ∀ v ∈ x :: (u.toList ++ []), t₅.nodes v = t₃.nodes v := fun v hv =>
    hc₅.outside v (by
      rw [List.mem_singleton]
      exact hapart.ne_of_below hv)
  have hx₅ : t₅.nodes x = t.nodes x := by
    rw [hsame₅ x List.mem_cons_self, hsame₃ x List.mem_cons_self]
  obtain ⟨t₆, t₇, t₈, he₆, he₇, he₈, hroot₈, hholds₈, hc₈⟩ := swap_last (t := t₅) (y := y) (u := u)
    (some y) cy (hx₅.trans hx) (hu.congr fun v hv => by
      rw [hsame₅ v (by simp [hv]), hsame₃ v (by simp [hv])]) hapart.last
  have hc₅₈ := hc₅.append hc₈
  have hrest : ∀ v ∈ l.toList ++ Path.labels p, t₈.nodes v = t₃.nodes v := by
    intro v hv
    refine hc₅₈.outside v fun hin => ?_
    rcases List.mem_append.mp hin with hin | hin
    · exact hapart.ne_of_rest hv (List.mem_singleton.mp hin)
    · exact hapart.first_below (List.mem_cons_of_mem y hv) (by simpa using hin)
  have hloady₁ : t₁.load (some y) = _ := hy₁.trans hy
  have hloady₂ : t₂.load (some y) = _ := hy₂.trans hy₃
  have hcolour : t₁.colourOf (some y) = some cy := by
    show (t₁.nodes y).map (·.colour) = _
    rw [hy₁, hy]
    rfl
  refine ⟨t₈, ?_, isTree_plug.mpr ⟨?_, ⟨?_, ?_, hholds₈⟩, ?_, ?_⟩, ?_⟩
  · -- one access after the other
    refine (bind_of hsucc _).trans ?_
    refine (bind_of (load_of hy) _).trans ?_
    refine (bind_of hx _).trans ?_
    refine (bind_of he₁ _).trans ?_
    refine (bind_of hcolour _).trans ?_
    refine (bind_of (hx₁.trans hx) _).trans ?_
    refine (bind_of hloady₁ _).trans ?_
    refine (bind_of he₂ _).trans ?_
    refine (bind_of hloady₂ _).trans ?_
    refine (bind_of he₃ _).trans ?_
    refine (if_neg (not_not_intro rfl)).trans ?_
    refine (if_pos rfl).trans ?_
    refine (bind_of he₅ _).trans ?_
    refine (bind_of he₆ _).trans ?_
    refine (bind_of he₇ _).trans ?_
    exact he₈
  · rw [hroot₈, hroot₅, hroot₃]
    exact plug_root rfl
  · rw [hc₈.outside y (fun hin => hapart.first_below List.mem_cons_self (by simpa using hin)), hy₅]
    rfl
  · exact hl₃.congr fun v hv => hrest v (List.mem_append_left _ hv)
  · exact hpath₃.congr fun v hv => hrest v (List.mem_append_right _ hv)
  · exact (perm_plug _ _).nodup_iff.mp (nodup_swap (q := []) h.nodup)
  · refine (hc₃.append hc₅₈).mono fun v hv => hperm.mem_iff.mpr (mem_swap ?_)
    rcases List.mem_append.mp hv with hv | hv
    · exact Or.inl hv
    · rcases List.mem_append.mp hv with hv | hv
      · exact Or.inl (List.mem_singleton.mp hv ▸ List.mem_cons_self)
      · exact Or.inr (List.cons_append ▸ List.mem_append_left _ hv)

/-- The successor is further down. -/
theorem swap_distant {f : Frame α}
    (h : IsTree t (plug (node c l x (plug (node cy nil y u) (f :: q))) p)) (hl : l ≠ nil)
    (hq : ∀ g ∈ f :: q, g.side = .left)
    (hf : (plug (node c l x (plug (node cy nil y u) (f :: q))) p).toList.length < fuel) :
    ∃ t', t.swapSuccessor fuel x = some t' ∧
      IsTree t' (plug (node c l y (plug (node cy nil x u) (f :: q))) p) ∧
      Changes t t' (plug (node c l x (plug (node cy nil y u) (f :: q))) p).toList := by
  have hsucc := successor_of_right h hq hf
  have hperm := perm_swap c cy x y l u (f :: q) p
  have hapart := apart_of_nodup h.nodup
  obtain ⟨-, ⟨hx, -, hr⟩, -, -⟩ := isTree_plug.mp h
  obtain ⟨⟨hy, -, hu⟩, hspine⟩ := (holds_plug_spine _ _).mp hr
  obtain ⟨t₁, t₂, t₃, he₁, he₂, he₃, hroot₃, hpath₃, hl₃, hy₃, hsame₃, hx₁, hy₁, hy₂, hc₃⟩ :=
    swap_first h hl
  -- the path between the two nodes
  have hroots : (plug (node cy nil x u) (f :: q)).root = (plug (node cy nil y u) (f :: q)).root :=
    plug_root (p := q) (by simp [Frame.plug])
  obtain ⟨g, hg⟩ : ∃ g, (plug (node cy nil y u) (f :: q)).root = some g := by
    cases hg : (plug (node cy nil y u) (f :: q)).root with
    | some g => exact ⟨g, rfl⟩
    | none =>
      have hin : y ∈ (plug (node cy nil y u) (f :: q)).toList := by
        rw [toList_plug]
        simp [toList]
      rw [eq_nil_of_root hg] at hin
      cases hin
  have hgin : g ∈ Path.labels (f :: q) := root_mem_labels (List.cons_ne_nil _ _) hg
  have hfin : f.label ∈ Path.labels (f :: q) := List.mem_cons_self
  have hbelow : ∀ v ∈ Path.labels (f :: q), v ∈ x :: (u.toList ++ Path.labels (f :: q)) :=
    fun v hv => List.mem_cons_of_mem x (List.mem_append_right _ hv)
  obtain ⟨t₄, he₄, hroot₄, hspine₄, hc₄⟩ := setTop_spec
    (hspine.congr fun v hv => hsame₃ v (hbelow v hv)) (List.cons_ne_nil _ _) hg hapart.middle
    (some y)
  obtain ⟨t₅, he₅, hroot₅, hspine₅, hc₅⟩ := setHole_spec hspine₄ hapart.middle (some x)
  have hc₄₅ : Changes t₃ t₅ (Path.labels (f :: q)) := by
    refine (hc₄.append hc₅).mono fun v hv => ?_
    rcases List.mem_append.mp hv with hv | hv
    · exact List.mem_singleton.mp hv ▸ hgin
    · exact List.mem_singleton.mp hv ▸ hfin
  have hsame₅ : ∀ v ∈ x :: u.toList, t₅.nodes v = t.nodes v := by
    intro v hv
    rw [hc₄₅.outside v (hapart.last_middle v hv),
      hsame₃ v (List.cons_append ▸ List.mem_append_left _ hv)]
  have hx₅ : t₅.nodes x = t.nodes x := hsame₅ x List.mem_cons_self
  obtain ⟨t₆, t₇, t₈, he₆, he₇, he₈, hroot₈, hholds₈, hc₈⟩ := swap_last (t := t₅) (y := y) (u := u)
    (some f.label) cy (hx₅.trans hx)
    (hu.congr fun v hv => hsame₅ v (List.mem_cons_of_mem x hv)) hapart.last
  have hc₄₈ := hc₄₅.append hc₈
  have hrest : ∀ v ∈ y :: (l.toList ++ Path.labels p), t₈.nodes v = t₃.nodes v := by
    intro v hv
    refine hc₄₈.outside v fun hin => hapart.first_below hv ?_
    rcases List.mem_append.mp hin with hin | hin
    · exact hbelow v hin
    · exact List.cons_append ▸ List.mem_append_left _ hin
  have hloady₁ : t₁.load (some y) = _ := hy₁.trans hy
  have hloady₂ : t₂.load (some y) = _ := hy₂.trans hy₃
  have hloady₃ : t₃.load (some y) = _ := hy₃
  have hcolour : t₁.colourOf (some y) = some cy := by
    show (t₁.nodes y).map (·.colour) = _
    rw [hy₁, hy]
    rfl
  have hfx : some f.label ≠ some x := by
    rw [ne_eq, Option.some_inj]
    exact fun he => hapart.last_middle x List.mem_cons_self (he ▸ hfin)
  have he₄' : t₃.setParent (plug (node cy nil y u) (f :: q)).root (some y) = some t₄ := by
    rw [hg]
    exact he₄
  have hside : f.side = .left := hq f List.mem_cons_self
  rw [hside] at he₅
  refine ⟨t₈, ?_, isTree_plug.mpr ⟨?_, ⟨?_, ?_, (holds_plug_spine _ _).mpr ⟨hholds₈, ?_⟩⟩, ?_, ?_⟩,
    ?_⟩
  · -- one access after the other
    refine (bind_of hsucc _).trans ?_
    refine (bind_of (load_of hy) _).trans ?_
    refine (bind_of hx _).trans ?_
    refine (bind_of he₁ _).trans ?_
    refine (bind_of hcolour _).trans ?_
    refine (bind_of (hx₁.trans hx) _).trans ?_
    refine (bind_of hloady₁ _).trans ?_
    refine (bind_of he₂ _).trans ?_
    refine (bind_of hloady₂ _).trans ?_
    refine (bind_of he₃ _).trans ?_
    refine (if_pos hfx).trans ?_
    refine (bind_of hloady₃ _).trans ?_
    refine (bind_of he₄' _).trans ?_
    refine (if_neg hfx).trans ?_
    refine (bind_of he₅ _).trans ?_
    refine (bind_of he₆ _).trans ?_
    refine (bind_of he₇ _).trans ?_
    exact he₈
  · rw [hroot₈, hroot₅, hroot₄, hroot₃]
    exact plug_root rfl
  · rw [hrest y List.mem_cons_self, hy₃, hroots]
    rfl
  · exact hl₃.congr fun v hv => hrest v (by simp [hv])
  · exact hspine₅.congr fun v hv => hc₈.outside v fun hin => hapart.last_middle v hin hv
  · exact hpath₃.congr fun v hv => hrest v (by simp [hv])
  · exact (perm_plug _ _).nodup_iff.mp (nodup_swap h.nodup)
  · refine (hc₃.append hc₄₈).mono fun v hv => hperm.mem_iff.mpr (mem_swap ?_)
    rcases List.mem_append.mp hv with hv | hv
    · exact Or.inl hv
    · rcases List.mem_append.mp hv with hv | hv
      · exact Or.inr (hbelow v hv)
      · exact Or.inr (List.cons_append ▸ List.mem_append_left _ hv)

end Swap

/-! ## The whole removal -/

section Remove

variable {x : α} {T : CTree α} {fuel : Nat} {compare : α → α → Int}

omit [DecidableEq α] in
theorem length_lt_of_place {T : CTree α} (hT : T ≠ nil) (hf : (plug T p).toList.length ≤ fuel) :
    p.length < fuel := by
  have hlabels := length_le_labels p
  have hpos : 0 < T.toList.length := by
    cases T with
    | nil => exact absurd rfl hT
    | node c l x r =>
      rw [toList, List.length_append, List.length_cons]
      omega
  rw [(perm_plug T p).length_eq, List.length_append] at hf
  omega

/-- A node with at most one child. -/
theorem remove_single (h : IsTree t (plug (node' s c a x nil) p))
    (hv : Valid (plug (node' s c a x nil) p))
    (hf : (plug (node' s c a x nil) p).toList.length ≤ fuel) :
    ∃ t' T', t.remove x (fuel + 1) = some t' ∧
      Removed t t' x (plug (node' s c a x nil) p) T' := by
  have hx := h.node
  cases ha : a.root with
  | none =>
    obtain rfl := eq_nil_of_root ha
    have hnode : node' s c nil x nil = node c nil x nil := by cases s <;> rfl
    rw [hnode] at h hv hf ⊢
    obtain ⟨t', T', he, hr⟩ := removeLeaf_spec h hv (length_lt_of_place (by simp) hf)
    refine ⟨t', T', ?_, hr⟩
    cases s <;> simpa [remove, hx, record] using he
  | some v =>
    have hne : a ≠ nil := by
      rintro rfl
      cases ha
    obtain ⟨t', T', he, hr⟩ := removeSplice_spec h hv hne
    refine ⟨t', T', ?_, hr⟩
    cases s <;> simpa [remove, hx, record, ha] using he

/-- **Removal**, whatever children the node has. -/
theorem remove_spec (h : IsTree t T) (hv : Valid T) (hx : x ∈ T.toList)
    (hf : T.toList.length + 2 ≤ fuel) :
    ∃ t' T', t.remove x fuel = some t' ∧ Removed t t' x T T' := by
  obtain ⟨fuel, rfl⟩ := Nat.exists_eq_succ_of_ne_zero (show fuel ≠ 0 by omega)
  obtain ⟨c, l, r, p, rfl⟩ := exists_place hx
  by_cases hr : r = nil
  · subst hr
    exact remove_single (s := .left) h hv (Nat.le_of_succ_le (Nat.le_of_succ_le_succ hf))
  by_cases hl : l = nil
  · subst hl
    exact remove_single (s := .right) h hv (Nat.le_of_succ_le (Nat.le_of_succ_le_succ hf))
  -- the node takes the place of its successor first
  obtain ⟨g, hg⟩ : ∃ g, r.root = some g := by
    cases r with
    | nil => exact absurd rfl hr
    | node _ _ g _ => exact ⟨g, rfl⟩
  obtain ⟨cy, y, u, q, rfl, hq⟩ := exists_first hg
  have hswap : ∃ t₁, t.swapSuccessor fuel x = some t₁ ∧
      IsTree t₁ (plug (node c l y (plug (node cy nil x u) q)) p) ∧
      Changes t t₁ (plug (node c l x (plug (node cy nil y u) q)) p).toList := by
    cases q with
    | nil => exact swap_adjacent h hl (Nat.le_of_succ_le_succ hf)
    | cons f q => exact swap_distant h hl hq (Nat.le_of_succ_le_succ hf)
  obtain ⟨t₁, he₁, ht₁, hc₁⟩ := hswap
  have hperm := (perm_swap c cy x y l u q p).trans
    ((List.Perm.swap y x _).trans (perm_swap c cy y x l u q p).symm)
  obtain ⟨fuel, rfl⟩ := Nat.exists_eq_succ_of_ne_zero (show fuel ≠ 0 by omega)
  have hv₁ : Valid (plug (node c l y (plug (node cy nil x u) q)) p) := by
    rw [← swap_place]
    rw [← swap_place] at hv
    exact hv.relabel
  have hlen := hperm.length_eq
  have hfuel : (plug (node c l y (plug (node cy nil x u) q)) p).toList.length ≤ fuel := by omega
  rw [← swap_place] at ht₁ hv₁ hfuel
  obtain ⟨t', T', he, hremoved⟩ := remove_single (s := .right) ht₁ hv₁ hfuel
  refine ⟨t', T', ?_, hremoved.isTree, hremoved.valid, ?_, ?_⟩
  · obtain ⟨-, ⟨hload, -⟩, -⟩ := isTree_plug.mp h
    have hlroot : l.root ≠ none := fun he => hl (eq_nil_of_root he)
    have hrroot : (plug (node cy nil y u) q).root ≠ none := fun he => hr (eq_nil_of_root he)
    rw [remove, hload]
    simp only [Option.bind_eq_bind, Option.bind_some, hlroot, hrroot, if_false,
      Option.isSome_iff_ne_none, ne_eq, not_false_eq_true, and_self, not_true_eq_false, he₁]
    exact he
  · obtain ⟨pre, post, hold, hnew⟩ := hremoved.toList
    refine ⟨before p ++ l.toList, y :: (u.toList ++ (after q ++ after p)), ?_, ?_⟩
    · rw [toList_plug, toList, toList_plug, before_of_left hq]
      simp [toList]
    · -- the list that the swap has made, with the node behind its successor
      have hlist : (plug (node c l y (plug (node cy nil x u) q)) p).toList =
          (before p ++ l.toList ++ [y]) ++ x :: (u.toList ++ (after q ++ after p)) := by
        rw [toList_plug, toList, toList_plug, before_of_left hq]
        simp [toList]
      have hnodup : (pre ++ x :: post).Nodup := by
        rw [← hold]
        exact ht₁.nodup
      rw [List.nodup_middle, List.nodup_cons, List.mem_append, not_or] at hnodup
      have hsplit : pre ++ x :: post =
          (before p ++ l.toList ++ [y]) ++ x :: (u.toList ++ (after q ++ after p)) := by
        rw [← hold, ← hlist, ← swap_place]
        rfl
      obtain ⟨rfl, -, rfl⟩ :=
        (List.append_cons_inj_of_notMem hnodup.1.1 hnodup.1.2).mp hsplit
      rw [hnew]
      simp only [List.append_assoc, List.cons_append, List.nil_append]
  · refine hc₁.trans (hremoved.changes.mono fun v hv => ?_)
    have hin : v ∈ (plug (node c l y (plug (node cy nil x u) q)) p).toList := by
      rw [← swap_place]
      exact hv
    exact hperm.mem_iff.mpr hin

/-- **Removal keeps the tree valid and takes the node alone out of the list.** It ends, follows no
`NULL`, and leaves all other memory as it is. -/
theorem remove_correct (h : IsTree t T) (hv : Valid T) (ho : Ordered compare T)
    (hx : x ∈ T.toList) (hf : T.toList.length + 2 ≤ fuel) :
    ∃ t' T', t.remove x fuel = some t' ∧ IsTree t' T' ∧ Valid T' ∧ Ordered compare T' ∧
      T'.toList = T.toList.erase x ∧ (t'.root = none ↔ T.toList = [x]) ∧
      ∀ y ∉ T.toList, t'.nodes y = t.nodes y := by
  obtain ⟨t', T', he, ht', hv', ⟨pre, post, hold, hnew⟩, hc⟩ := remove_spec h hv hx hf
  have hnodup := h.nodup
  rw [hold, List.nodup_middle, List.nodup_cons, List.mem_append, not_or] at hnodup
  have herase : T'.toList = T.toList.erase x := by
    rw [hold, List.erase_append_right _ hnodup.1.1, List.erase_cons_head, hnew]
  refine ⟨t', T', he, ht', hv', ?_, herase, ?_, hc.outside⟩
  · rw [Ordered, herase]
    exact List.Pairwise.sublist List.erase_sublist ho
  · rw [ht'.root]
    constructor
    · intro hroot
      rw [eq_nil_of_root hroot, toList_nil] at hnew
      obtain ⟨rfl, rfl⟩ := List.append_eq_nil_iff.mp hnew.symm
      exact hold
    · intro hlist
      rw [hlist, List.erase_cons_head] at herase
      cases T' with
      | nil => rfl
      | node c l y r => exact absurd herase (by simp [toList])

end Remove

open RbTree.Scenario in
theorem remove_correct_three :
    ∃ t' T', threeNodes.remove 2 5 = some t' ∧ IsTree t' T' ∧ Valid T' ∧ T'.toList = [1, 3] := by
  have hvalid : Valid shape :=
    ⟨rfl, 1, .black (.red .nil .nil rfl rfl) (.red .nil .nil rfl rfl)⟩
  have hordered : Ordered natCompare shape := by
    unfold Ordered
    decide
  have hin : 2 ∈ shape.toList := by decide
  have hsize : shape.toList.length + 2 ≤ 5 := by decide
  obtain ⟨t', T', he, ht', hv', -, herase, -, -⟩ :=
    remove_correct isTree_threeNodes hvalid hordered hin hsize
  exact ⟨t', T', he, ht', hv', herase⟩

/-! ## Trees that are built -/

/-- The trees that insertions and removals make of an empty one, with the nodes that are in them.
Between two operations the callers may change all other memory. -/
inductive Built (compare : α → α → Int) : RbTree α → List α → Prop
  | empty {t : RbTree α} (h : t.root = none) : Built compare t []
  | insert {t t' : RbTree α} {xs : List α} {x : α} {fuel : Nat} (h : Built compare t xs)
      (hx : t.nodes x ≠ none) (hn : x ∉ xs) (hf : xs.length < fuel)
      (he : t.insert compare fuel x = some t') : Built compare t' (x :: xs)
  | remove {t t' : RbTree α} {xs : List α} {x : α} {fuel : Nat} (h : Built compare t xs)
      (hx : x ∈ xs) (hf : xs.length + 2 ≤ fuel) (he : t.remove x fuel = some t') :
      Built compare t' (xs.erase x)
  | other {t t' : RbTree α} {xs : List α} (h : Built compare t xs) (hroot : t'.root = t.root)
      (hsame : ∀ x ∈ xs, t'.nodes x = t.nodes x) : Built compare t' xs

/-- A built tree is valid. -/
theorem Built.valid {compare : α → α → Int} (hc : IsPreorder compare) {xs : List α}
    (h : Built compare t xs) :
    ∃ T, IsTree t T ∧ Valid T ∧ Ordered compare T ∧ T.toList.Perm xs := by
  induction h with
  | empty h => exact ⟨nil, ⟨h, trivial, List.nodup_nil⟩, ⟨rfl, 0, .nil⟩, .nil, .nil⟩
  | insert _ hx hn hf he ih =>
    obtain ⟨T, hT, hv, ho, hperm⟩ := ih
    obtain ⟨t', T', he', hT', hv', ho', -, pre, post, hold, hnew, -⟩ :=
      insert_spec hc hT hv ho hx (fun hin => hn (hperm.mem_iff.mp hin)) (hperm.length_eq ▸ hf)
    cases he.symm.trans he'
    refine ⟨T', hT', hv', ho', ?_⟩
    rw [hnew]
    refine List.perm_middle.trans (List.Perm.cons _ ?_)
    rw [← hold]
    exact hperm
  | remove _ hx hf he ih =>
    obtain ⟨T, hT, hv, ho, hperm⟩ := ih
    obtain ⟨t', T', he', hT', hv', ho', herase, -⟩ :=
      remove_correct hT hv ho (hperm.mem_iff.mpr hx) (hperm.length_eq ▸ hf)
    cases he.symm.trans he'
    refine ⟨T', hT', hv', ho', ?_⟩
    rw [herase]
    exact hperm.erase _
  | other _ hroot hsame ih =>
    obtain ⟨T, hT, hv, ho, hperm⟩ := ih
    refine ⟨T, ⟨hroot.trans hT.root, hT.holds.congr fun y hy => ?_, hT.nodup⟩, hv, ho, hperm⟩
    exact hsame y (hperm.mem_iff.mp hy)

/-- **Insertion is correct**: it ends, follows no `NULL`, keeps the tree valid and puts the node
behind all that are smaller and before all others; and a tree that insertions and removals have
made is at most twice as high as the logarithm of its size. -/
theorem insert_correct {compare : α → α → Int} (hc : IsPreorder compare) :
    (∀ (t : RbTree α) (T : CTree α) (x : α) (fuel : Nat), IsTree t T → Valid T →
      Ordered compare T → t.nodes x ≠ none → x ∉ T.toList → T.toList.length < fuel →
      ∃ t' T', t.insert compare fuel x = some t' ∧ IsTree t' T' ∧ Valid T' ∧ Ordered compare T' ∧
        (∀ y ∉ x :: T.toList, t'.nodes y = t.nodes y) ∧
        ∃ pre post, T.toList = pre ++ post ∧ T'.toList = pre ++ x :: post ∧
          (∀ a ∈ pre, compare a x < 0) ∧ ∀ b ∈ post, 0 ≤ compare b x) ∧
    ∀ (t : RbTree α) (xs : List α), Built compare t xs →
      ∃ T, IsTree t T ∧ Valid T ∧ T.toList.Perm xs ∧
        T.height ≤ 2 * Nat.log 2 (xs.length + 1) := by
  refine ⟨?_, ?_⟩
  · intro t T x fuel h hv ho hx hn hf
    obtain ⟨t', T', he, ht', hv', ho', hchanges, pre, post, hold, hnew, hpre, hpost⟩ :=
      insert_spec hc h hv ho hx hn hf
    refine ⟨t', T', he, ht', hv', ho', hchanges.outside, pre, post, hold, hnew, ?_, ?_⟩
    · intro a ha
      exact (hc.swap a x).mpr (hpre a ha)
    · intro b hb
      by_contra hneg
      have hpos := (hc.swap b x).mp (by omega)
      have hle := hpost b hb
      omega
  · intro t xs h
    obtain ⟨T, hT, hv, -, hperm⟩ := h.valid hc
    refine ⟨T, hT, hv, hperm, ?_⟩
    rw [← hperm.length_eq]
    exact hv.height_le

open RbTree.Scenario in
theorem insert_correct_three :
    ∃ t' T', threeNodes.insert natCompare 5 4 = some t' ∧ IsTree t' T' ∧ Valid T' := by
  have hpreorder : IsPreorder natCompare := by
    refine ⟨?_, ?_⟩ <;> unfold natCompare <;> grind
  have hvalid : Valid shape :=
    ⟨rfl, 1, .black (.red .nil .nil rfl rfl) (.red .nil .nil rfl rfl)⟩
  have hordered : Ordered natCompare shape := by
    unfold Ordered
    decide
  obtain ⟨hinsert, -⟩ := insert_correct hpreorder
  obtain ⟨t', T', he, ht', hv', -⟩ := hinsert threeNodes shape 4 5 isTree_threeNodes hvalid
    hordered (by decide) (by decide) (by decide)
  exact ⟨t', T', he, ht', hv'⟩

end RbTree

end U80211
