import U80211.RbTree

/-!
# Trees in memory

* `IsTree`: the memory holds the nodes of a tree, with the pointers that belong to it
* `isTree_plug`: a tree in memory is a subtree and the path above it
* `rotate_spec`, `setColour_spec`: what the changes of one place do to the tree
-/

namespace U80211

namespace RbTree

open RedBlack CTree

variable {α : Type}

/-! ## Representation -/

/-- A node with the child on side `s` first. -/
def record (s : Side) (inner outer parent : Option α) (colour : Colour) : RbNode α :=
  match s with
  | .left => { left := inner, right := outer, parent, colour }
  | .right => { left := outer, right := inner, parent, colour }

/-- The nodes of a tree are in memory, and the parent pointer of its root is the given one. -/
def Holds (m : α → Option (RbNode α)) : Option α → CTree α → Prop
  | _, .nil => True
  | parent, .node colour l x r =>
    m x = some { left := l.root, right := r.root, parent, colour } ∧
      Holds m (some x) l ∧ Holds m (some x) r

/-- The nodes of a path are in memory, and the pointer to the place below is the given one. -/
def HoldsPath (m : α → Option (RbNode α)) : Option α → Path α → Prop
  | _, [] => True
  | hole, f :: p =>
    m f.label = some (record f.side hole f.sibling.root (Path.parent p) f.colour) ∧
      Holds m (some f.label) f.sibling ∧ HoldsPath m (some f.label) p

/-- The memory is that of a tree. -/
structure IsTree (t : RbTree α) (T : CTree α) : Prop where
  root : t.root = T.root
  holds : Holds t.nodes none T
  nodup : T.toList.Nodup

section Record

variable {s : Side} {inner outer parent : Option α} {colour : Colour}

@[simp] theorem child_record : (record s inner outer parent colour).child s = inner := by
  cases s <;> rfl

@[simp] theorem child_other_record :
    (record s inner outer parent colour).child s.other = outer := by cases s <;> rfl

@[simp] theorem parent_record : (record s inner outer parent colour).parent = parent := by
  cases s <;> rfl

@[simp] theorem colour_record : (record s inner outer parent colour).colour = colour := by
  cases s <;> rfl

@[simp] theorem setChild_record (x : Option α) :
    (record s inner outer parent colour).setChild s x = record s x outer parent colour := by
  cases s <;> rfl

@[simp] theorem setChild_other_record (x : Option α) :
    (record s inner outer parent colour).setChild s.other x = record s inner x parent colour := by
  cases s <;> rfl

theorem setParent_record (x : Option α) :
    { record s inner outer parent colour with parent := x } = record s inner outer x colour := by
  cases s <;> rfl

theorem setColour_record (c : Colour) :
    { record s inner outer parent colour with colour := c } = record s inner outer parent c := by
  cases s <;> rfl

end Record

section Holds

variable {m m' : α → Option (RbNode α)} {parent hole : Option α} {T U : CTree α} {p : Path α}

/-- What the memory of a node says, seen from a side. -/
theorem holds_node' {s : Side} {c : Colour} {a b : CTree α} {x : α} :
    Holds m parent (node' s c a x b) ↔
      m x = some (record s a.root b.root parent c) ∧ Holds m (some x) a ∧ Holds m (some x) b := by
  cases s with
  | left => exact Iff.rfl
  | right => exact and_congr_right fun _ => and_comm

/-- The memory of a subtree and of the path above it is the memory of the whole tree. -/
theorem holds_plug (T : CTree α) (p : Path α) :
    Holds m none (plug T p) ↔ Holds m (Path.parent p) T ∧ HoldsPath m T.root p := by
  induction p generalizing T with
  | nil => exact (and_iff_left trivial).symm
  | cons f p ih =>
    rw [plug_cons, ih, Frame.plug, holds_node', root_node']
    constructor
    · rintro ⟨⟨hf, hT, hu⟩, hp⟩
      exact ⟨hT, hf, hu, hp⟩
    · rintro ⟨hT, hf, hu, hp⟩
      exact ⟨⟨hf, hT, hu⟩, hp⟩

/-- Only the nodes of the tree count. -/
theorem Holds.congr (h : Holds m parent T) (hm : ∀ y ∈ T.toList, m' y = m y) :
    Holds m' parent T := by
  induction T generalizing parent with
  | nil => trivial
  | node c l x r ihl ihr =>
    obtain ⟨hx, hl, hr⟩ := h
    rw [toList] at hm
    refine ⟨?_, ihl hl fun y hy => hm y (by simp [hy]), ihr hr fun y hy => hm y (by simp [hy])⟩
    rw [hm x (by simp), hx]

theorem HoldsPath.congr (h : HoldsPath m hole p) (hm : ∀ y ∈ Path.labels p, m' y = m y) :
    HoldsPath m' hole p := by
  induction p generalizing hole with
  | nil => trivial
  | cons f p ih =>
    obtain ⟨hf, hu, hp⟩ := h
    rw [Path.labels] at hm
    refine ⟨?_, hu.congr fun y hy => hm y (by simp [hy]), ih hp fun y hy => hm y (by simp [hy])⟩
    rw [hm f.label (by simp), hf]

/-- Every node of a tree in memory can be read. -/
theorem Holds.allocated (h : Holds m parent T) {x : α} (hx : x ∈ T.toList) : m x ≠ none := by
  induction T generalizing parent with
  | nil => cases hx
  | node c l y r ihl ihr =>
    obtain ⟨hy, hl, hr⟩ := h
    rw [toList, List.mem_append, List.mem_cons] at hx
    rcases hx with hx | rfl | hx
    · exact ihl hl hx
    · rw [hy]
      exact Option.some_ne_none _
    · exact ihr hr hx

/-- A tree stays one when its nodes are not written. -/
theorem IsTree.congr {t t' : RbTree α} (h : IsTree t T) (hroot : t'.root = t.root)
    (hnodes : ∀ y ∈ T.toList, t'.nodes y = t.nodes y) : IsTree t' T :=
  ⟨hroot.trans h.root, h.holds.congr hnodes, h.nodup⟩

/-- The parent of a hole is on its path. -/
theorem mem_labels_of_parent {x : α} (h : x ∈ (Path.parent p).toList) : x ∈ Path.labels p := by
  cases p with
  | nil => cases h
  | cons f p =>
    rw [List.mem_singleton.mp h]
    exact List.mem_cons_self

end Holds

/-! ## Changes -/

/-- The nodes that may have changed, with all others as they were. -/
structure Changes (t t' : RbTree α) (S : List α) : Prop where
  outside : ∀ y ∉ S, t'.nodes y = t.nodes y
  allocated : ∀ y, (t'.nodes y).isSome = (t.nodes y).isSome

section Changes

variable {t t₁ t₂ : RbTree α} {S S' : List α}

theorem Changes.refl : Changes t t S := ⟨fun _ _ => rfl, fun _ => rfl⟩

theorem Changes.mono (h : Changes t t₁ S) (hS : ∀ y ∈ S, y ∈ S') : Changes t t₁ S' :=
  ⟨fun y hy => h.outside y fun hin => hy (hS y hin), h.allocated⟩

theorem Changes.append (h₁ : Changes t t₁ S) (h₂ : Changes t₁ t₂ S') :
    Changes t t₂ (S ++ S') := by
  refine ⟨?_, fun y => (h₂.allocated y).trans (h₁.allocated y)⟩
  intro y hy
  rw [List.mem_append, not_or] at hy
  rw [h₂.outside y hy.2, h₁.outside y hy.1]

theorem Changes.trans (h₁ : Changes t t₁ S) (h₂ : Changes t₁ t₂ S) : Changes t t₂ S :=
  (h₁.append h₂).mono fun y hy => by simpa using hy

end Changes

/-! ## Single accesses -/

variable [DecidableEq α] {t t' : RbTree α} {x : α} {n : RbNode α}

omit [DecidableEq α] in
theorem load_of (h : t.nodes x = some n) : t.load (some x) = some n := h

theorem modify_spec (h : t.nodes x = some n) (f : RbNode α → RbNode α) :
    ∃ t', t.modify (some x) f = some t' ∧ t'.root = t.root ∧ t'.nodes x = some (f n) ∧
      Changes t t' [x] := by
  refine ⟨{ t with nodes := Function.update t.nodes x (some (f n)) }, ?_, rfl,
    Function.update_self .., ?_, ?_⟩
  · simp only [modify, Option.bind_eq_bind, Option.bind_some, h]
  · intro y hy
    exact Function.update_of_ne (List.ne_of_not_mem_cons hy) ..
  · intro y
    by_cases hy : y = x
    · subst hy
      rw [h]
      simp
    · dsimp only
      rw [Function.update_of_ne hy]

omit [DecidableEq α] in
theorem colourOf_root {parent : Option α} {T : CTree α} (h : Holds t.nodes parent T) :
    t.colourOf T.root = some T.colour := by
  cases T with
  | nil => rfl
  | node c l x r =>
    obtain ⟨hx, -, -⟩ := h
    show (t.nodes x).map (·.colour) = some c
    rw [hx]
    rfl

/-- The root of a subtree gets another parent. -/
theorem reparent_spec {parent : Option α} {T : CTree α} (h : Holds t.nodes parent T)
    (hn : T.toList.Nodup) (parent' : Option α) :
    ∃ t', (if T.root.isSome then t.setParent T.root parent' else some t) = some t' ∧
      t'.root = t.root ∧ Holds t'.nodes parent' T ∧ Changes t t' T.root.toList := by
  cases T with
  | nil => exact ⟨t, rfl, rfl, trivial, .refl⟩
  | node c l x r =>
    obtain ⟨hx, hl, hr⟩ := h
    obtain ⟨t', he, hroot, hx', hchanges⟩ := modify_spec hx fun n => { n with parent := parent' }
    rw [toList, List.nodup_middle, List.nodup_cons, List.mem_append, not_or] at hn
    have hother : ∀ y ≠ x, t'.nodes y = t.nodes y := fun y hy => hchanges.outside y (by simp [hy])
    refine ⟨t', he, hroot, ⟨hx', hl.congr ?_, hr.congr ?_⟩, hchanges⟩
    · intro y hy
      exact hother y fun he => hn.1.1 (he ▸ hy)
    · intro y hy
      exact hother y fun he => hn.1.2 (he ▸ hy)

/-- The pointer down to a place is set. -/
theorem replaceChild_spec {T : CTree α} {p : Path α} (hroot : t.root = (plug T p).root)
    (h : HoldsPath t.nodes (some x) p) (hn : (x :: Path.labels p).Nodup) (U : CTree α) :
    ∃ t', t.replaceChild (Path.parent p) (some x) U.root = some t' ∧
      t'.root = (plug U p).root ∧ HoldsPath t'.nodes U.root p ∧
      Changes t t' (Path.parent p).toList := by
  cases p with
  | nil => exact ⟨_, rfl, rfl, trivial, fun _ _ => rfl, fun _ => rfl⟩
  | cons f p =>
    obtain ⟨s, c, y, u⟩ := f
    obtain ⟨hf, hu, hp⟩ := h
    dsimp only at hf hu hp
    obtain ⟨t', he, hroot', hf', hchanges⟩ := modify_spec hf fun n => n.setChild s U.root
    have hset : t.replaceChild (some y) (some x) U.root = some t' := by
      have hx : u.root ≠ some x := by
        intro hx
        rw [Path.labels] at hn
        have hin := mem_of_root hx
        simp [hin] at hn
      rw [replaceChild, load_of hf]
      cases s with
      | left => exact (if_pos rfl).trans he
      | right => exact (if_neg hx).trans he
    rw [Path.labels, List.nodup_cons, List.nodup_cons, List.mem_append, not_or] at hn
    have hother : ∀ z ≠ y, t'.nodes z = t.nodes z := fun z hz => hchanges.outside z (by simp [hz])
    refine ⟨t', hset, ?_, ⟨?_, hu.congr ?_, hp.congr ?_⟩, hchanges⟩
    · rw [hroot', hroot]
      exact plug_root (p := p) (by simp [Frame.plug])
    · rw [hf', setChild_record]
    · intro z hz
      exact hother z fun he => hn.2.1.1 (he ▸ hz)
    · intro z hz
      exact hother z fun he => hn.2.1.2 (he ▸ hz)

/-! ## Places of a tree -/

section Places

variable {T : CTree α} {p : Path α} {s : Side} {c : Colour} {a b : CTree α}

omit [DecidableEq α] in
/-- **A tree in memory is a subtree and the path above it.** -/
theorem isTree_plug : IsTree t (plug T p) ↔ t.root = (plug T p).root ∧
    Holds t.nodes (Path.parent p) T ∧ HoldsPath t.nodes T.root p ∧
      (T.toList ++ Path.labels p).Nodup := by
  constructor
  · rintro ⟨hroot, hholds, hn⟩
    obtain ⟨hT, hp⟩ := (holds_plug T p).mp hholds
    exact ⟨hroot, hT, hp, (perm_plug T p).nodup_iff.mp hn⟩
  · rintro ⟨hroot, hT, hp, hn⟩
    exact ⟨hroot, (holds_plug T p).mpr ⟨hT, hp⟩, (perm_plug T p).nodup_iff.mpr hn⟩

omit [DecidableEq α] in
/-- What a node of a tree holds. -/
theorem IsTree.node (h : IsTree t (plug (node' s c a x b) p)) :
    t.nodes x = some (record s a.root b.root (Path.parent p) c) := by
  obtain ⟨-, hT, -, -⟩ := isTree_plug.mp h
  exact (holds_node'.mp hT).1

omit [DecidableEq α] in
theorem IsTree.subtree (h : IsTree t (plug T p)) : Holds t.nodes (Path.parent p) T :=
  (isTree_plug.mp h).2.1

omit [DecidableEq α] in
/-- The nodes of a subtree of two levels, apart from each other and from the path. -/
theorem nodup_node' : ((node' s c a x b).toList ++ Path.labels p).Nodup ↔
    (x :: (a.toList ++ b.toList ++ Path.labels p)).Nodup := by
  rw [((perm_node' s c a x b).append_right _).nodup_iff]
  rfl

/-- A node is coloured. -/
theorem setColour_spec (h : IsTree t (plug (node' s c a x b) p)) (c' : Colour) :
    ∃ t', t.setColour (some x) c' = some t' ∧ IsTree t' (plug (node' s c' a x b) p) ∧
      Changes t t' [x] := by
  obtain ⟨hroot, hT, hp, hn⟩ := isTree_plug.mp h
  obtain ⟨hx, ha, hb⟩ := holds_node'.mp hT
  obtain ⟨t', he, hroot', hx', hchanges⟩ := modify_spec hx fun n => { n with colour := c' }
  rw [nodup_node', List.nodup_cons] at hn
  have hother : ∀ y ∈ a.toList ++ b.toList ++ Path.labels p, t'.nodes y = t.nodes y := by
    intro y hy
    refine hchanges.outside y ?_
    rw [List.mem_singleton]
    rintro rfl
    exact hn.1 hy
  refine ⟨t', he, isTree_plug.mpr ⟨?_, holds_node'.mpr ⟨?_, ha.congr ?_, hb.congr ?_⟩, ?_, ?_⟩,
    hchanges⟩
  · rw [hroot', hroot]
    exact plug_root (by simp)
  · rw [hx', setColour_record]
  · exact fun y hy => hother y (by simp [hy])
  · exact fun y hy => hother y (by simp [hy])
  · rw [root_node'] at hp ⊢
    exact hp.congr fun y hy => hother y (by simp [hy])
  · rw [nodup_node', List.nodup_cons]
    exact hn

omit [DecidableEq α] in
/-- A rotation keeps the order. -/
theorem toList_rotate (s : Side) (c₁ c₂ : Colour) (a b d : CTree α) (x y : α) :
    (node' s c₂ a x (node' s c₁ b y d)).toList = (node' s c₁ (node' s c₂ a x b) y d).toList := by
  cases s <;> simp [node', toList]

/-- **A rotation**: the child on side `s` takes the place of its parent. -/
theorem rotate_spec {c₁ c₂ : Colour} {y : α} {a b d : CTree α}
    (h : IsTree t (plug (node' s c₁ (node' s c₂ a x b) y d) p)) :
    ∃ t', rotate s t (some x) = some t' ∧
      IsTree t' (plug (node' s c₂ a x (node' s c₁ b y d)) p) ∧
      Changes t t' (plug (node' s c₁ (node' s c₂ a x b) y d) p).toList := by
  obtain ⟨hroot, hT, hp, hn⟩ := isTree_plug.mp h
  obtain ⟨hy, hT', hd⟩ := holds_node'.mp hT
  obtain ⟨hx, ha, hb⟩ := holds_node'.mp hT'
  rw [root_node'] at hy hp
  have hnodup : (y :: x :: (a.toList ++ b.toList ++ d.toList ++ Path.labels p)).Nodup := by
    have hperm := (perm_node' s c₁ (node' s c₂ a x b) y d).trans
      (((perm_node' s c₂ a x b).append_right d.toList).cons y)
    exact (hperm.append_right (Path.labels p)).nodup_iff.mp hn
  have hin : ∀ z, z = x ∨ z = y ∨ z ∈ b.toList ∨ z ∈ Path.labels p →
      z ∈ (plug (node' s c₁ (node' s c₂ a x b) y d) p).toList := by
    intro z hz
    rw [(perm_plug _ p).mem_iff, List.mem_append, (perm_node' s c₁ _ y d).mem_iff, List.mem_cons,
      List.mem_append, (perm_node' s c₂ a x b).mem_iff]
    simp only [List.mem_cons, List.mem_append]
    tauto
  have hsub : (b.toList).Nodup ∧ (y :: Path.labels p).Nodup := by
    refine ⟨?_, ?_⟩ <;> grind
  -- the pointer down to the parent
  obtain ⟨t₁, he₁, hroot₁, hp₁, hc₁⟩ := replaceChild_spec hroot hp hsub.2
    (node' s c₂ a x (node' s c₁ b y d))
  rw [root_node'] at he₁ hp₁
  have hG : ∀ z ∈ (Path.parent p).toList, z ∈ Path.labels p := fun z hz =>
    mem_labels_of_parent hz
  -- the node and its parent
  obtain ⟨t₂, he₂, hroot₂, hx₂, hc₂⟩ := modify_spec (t := t₁) (x := x)
    (n := record s a.root b.root (some y) c₂) (by rw [hc₁.outside x (by grind), hx])
    fun n => { n with parent := Path.parent p }
  obtain ⟨t₃, he₃, hroot₃, hx₃, hc₃⟩ := modify_spec hx₂ fun n => n.setChild s.other (some y)
  obtain ⟨t₄, he₄, hroot₄, hy₄, hc₄⟩ := modify_spec (t := t₃) (x := y)
    (n := record s (some x) d.root (Path.parent p) c₁)
    (by rw [hc₃.outside y (by grind), hc₂.outside y (by grind), hc₁.outside y (by grind), hy])
    fun n => { n with parent := some x }
  obtain ⟨t₅, he₅, hroot₅, hy₅, hc₅⟩ := modify_spec hy₄ fun n => n.setChild s b.root
  -- the subtree between them
  have hc₁₅ := (((hc₁.append hc₂).append hc₃).append hc₄).append hc₅
  obtain ⟨t₆, he₆, hroot₆, hb₆, hc₆⟩ := reparent_spec (t := t₅) (T := b)
    (hb.congr fun z hz => hc₁₅.outside z (by grind)) hsub.1 (some y)
  have hb₆' : ∀ z ∈ b.root.toList, z ∈ b.toList := fun z hz =>
    mem_of_root (Option.mem_toList.mp hz)
  have hc₁₆ := hc₁₅.append hc₆
  refine ⟨t₆, ?_, isTree_plug.mpr ⟨?_, holds_node'.mpr ⟨?_, ?_, holds_node'.mpr ⟨?_, hb₆, ?_⟩⟩,
    ?_, ?_⟩, hc₁₆.mono ?_⟩
  · have hloadx : t.load (some x) = some (record s a.root b.root (some y) c₂) := hx
    have hloady : t.load (some y) = some (record s (some x) d.root (Path.parent p) c₁) := hy
    have hloadx₂ : t₂.load (some x) = _ := hx₂
    simp only [rotate, hloadx, hloady, Option.bind_eq_bind, Option.bind_some, parent_record, he₁,
      setParent, he₂, hloadx₂, setParent_record, child_other_record, RbTree.setChild, he₃, he₄, he₅]
    exact he₆
  · rw [hroot₆, hroot₅, hroot₄, hroot₃, hroot₂, hroot₁]
  · rw [hc₆.outside x (by grind), hc₅.outside x (by grind), hc₄.outside x (by grind), hx₃,
      setParent_record, setChild_other_record, root_node']
  · exact ha.congr fun z hz => hc₁₆.outside z (by grind)
  · rw [hc₆.outside y (by grind), hy₅, setParent_record, setChild_record]
  · exact hd.congr fun z hz => hc₁₆.outside z (by grind)
  · rw [root_node']
    have hc₂₆ := (((hc₂.append hc₃).append hc₄).append hc₅).append hc₆
    exact hp₁.congr fun z hz => hc₂₆.outside z (by grind)
  · rw [toList_rotate]
    exact hn
  · intro z hz
    refine hin z ?_
    grind

omit [DecidableEq α] in
/-- The pointer to the node above a place. -/
theorem IsTree.parentOf (h : IsTree t (plug T p)) (hx : T.root = some x) :
    ∃ n, t.nodes x = some n ∧ n.parent = Path.parent p := by
  obtain ⟨a, b, hT⟩ := exists_node' .left hx
  rw [hT] at h
  exact ⟨_, h.node, parent_record⟩

omit [DecidableEq α] in
/-- What the node above a place holds. -/
theorem IsTree.above {y : α} {u : CTree α} (h : IsTree t (plug T (⟨s, c, y, u⟩ :: p))) :
    t.nodes y = some (record s T.root u.root (Path.parent p) c) := h.node

omit [DecidableEq α] in
theorem IsTree.colourOf (h : IsTree t (plug T p)) : t.colourOf T.root = some T.colour :=
  colourOf_root h.subtree

/-- The child that is not the given one. -/
theorem sibling_record {outer parent : Option α} (h : outer ≠ some x) :
    (if (record s (some x) outer parent c).left = some x then
      (record s (some x) outer parent c).right else (record s (some x) outer parent c).left) =
        outer := by
  cases s with
  | left => exact if_pos rfl
  | right => exact if_neg h

/-- A node is put at an empty place. -/
theorem link_spec {y : α} {u : CTree α} (h : IsTree t (plug nil (⟨s, c, y, u⟩ :: p)))
    (hx : t.nodes x ≠ none) (hn : x ∉ (plug nil (⟨s, c, y, u⟩ :: p)).toList) (c' : Colour) :
    ∃ t₁ t₂, t.setChild s (some y) (some x) = some t₁ ∧
      t₁.modify (some x) (fun _ =>
        { left := none, right := none, parent := some y, colour := c' }) = some t₂ ∧
      IsTree t₂ (plug (node c' nil x nil) (⟨s, c, y, u⟩ :: p)) ∧
      Changes t t₂ (x :: (plug nil (⟨s, c, y, u⟩ :: p)).toList) := by
  obtain ⟨hroot, -, ⟨hy, hu, hp⟩, hnodup⟩ := isTree_plug.mp h
  dsimp only at hy hu hp
  rw [(perm_plug _ _).mem_iff, toList_nil, List.nil_append] at hn
  rw [toList_nil, List.nil_append, Path.labels, List.nodup_cons] at hnodup
  rw [Path.labels, List.mem_cons, not_or] at hn
  obtain ⟨t₁, he₁, hroot₁, hy₁, hc₁⟩ := modify_spec hy fun n => n.setChild s (some x)
  obtain ⟨n, hn₁⟩ := Option.ne_none_iff_exists'.mp hx
  rw [← hc₁.outside x (by simp [hn.1])] at hn₁
  obtain ⟨t₂, he₂, hroot₂, hx₂, hc₂⟩ := modify_spec hn₁ fun _ =>
    { left := none, right := none, parent := some y, colour := c' }
  have hc₁₂ := hc₁.append hc₂
  have hother : ∀ z ∈ u.toList ++ Path.labels p, t₂.nodes z = t.nodes z := by
    intro z hz
    refine hc₁₂.outside z ?_
    simp only [List.mem_append, List.mem_singleton, not_or]
    exact ⟨fun he => hnodup.1 (he ▸ hz), fun he => hn.2 (he ▸ hz)⟩
  refine ⟨t₁, t₂, he₁, he₂, isTree_plug.mpr ⟨?_, ⟨hx₂, trivial, trivial⟩,
    ⟨?_, hu.congr fun z hz => hother z (by simp [hz]),
      hp.congr fun z hz => hother z (by simp [hz])⟩, ?_⟩, hc₁₂.mono ?_⟩
  · rw [hroot₂, hroot₁, hroot]
    exact plug_root (p := p) (by simp [Frame.plug])
  · rw [hc₂.outside y (by simpa using Ne.symm hn.1), hy₁, setChild_record]
    rfl
  · show (x :: Path.labels _).Nodup
    rw [Path.labels, List.nodup_cons, List.mem_cons, not_or, List.nodup_cons]
    exact ⟨hn, hnodup⟩
  · intro z hz
    rw [List.mem_append, List.mem_singleton, List.mem_singleton] at hz
    rw [List.mem_cons, (perm_plug _ _).mem_iff, toList_nil, List.nil_append, Path.labels,
      List.mem_cons]
    rcases hz with rfl | rfl
    · exact Or.inr (Or.inl rfl)
    · exact Or.inl rfl

/-- A leaf is taken away. -/
theorem unlink_spec {f : Frame α} (h : IsTree t (plug (node c nil x nil) (f :: p))) :
    ∃ t', t.unlink x = some t' ∧ IsTree t' (plug nil (f :: p)) ∧
      Changes t t' (plug nil (f :: p)).toList := by
  obtain ⟨hroot, ⟨hx, -, -⟩, hpath, hnodup⟩ := isTree_plug.mp h
  obtain ⟨t', he, hroot', hpath', hchanges⟩ := replaceChild_spec hroot hpath hnodup nil
  refine ⟨t', ?_, isTree_plug.mpr ⟨hroot', trivial, hpath', ?_⟩, hchanges.mono ?_⟩
  · rw [unlink, hx]
    exact he
  · exact (List.nodup_cons.mp hnodup).2
  · intro z hz
    rw [(perm_plug _ _).mem_iff]
    exact mem_labels_of_parent hz

omit [DecidableEq α] in
/-- The other child of a node is another node. -/
theorem IsTree.root_ne {y z : α} {c₁ c₂ : Colour} {s' : Side} {d : CTree α}
    (h : IsTree t (plug (node' s c₁ (node' s' c₂ a y b) z d) p)) : d.root ≠ some y := by
  obtain ⟨-, -, -, hn⟩ := isTree_plug.mp h
  rw [nodup_node', List.nodup_cons] at hn
  intro hd
  have hin := mem_of_root hd
  have hin' : y ∈ (node' s' c₂ a y b).toList := mem_of_root (root_node' _ _ _ _ _)
  rw [List.append_assoc, List.nodup_append] at hn
  exact hn.2.2.2 y hin' y (List.mem_append_left _ hin) rfl

/-! ## Operations that keep the order -/

/-- What an operation that keeps the order of the nodes makes of a tree. -/
structure Rebuilt (t t' : RbTree α) (T T' : CTree α) : Prop where
  isTree : IsTree t' T'
  toList : T'.toList = T.toList
  changes : Changes t t' T.toList

omit [DecidableEq α] in
theorem Rebuilt.trans {t t₁ t₂ : RbTree α} {T T₁ T₂ : CTree α} (h₁ : Rebuilt t t₁ T T₁)
    (h₂ : Rebuilt t₁ t₂ T₁ T₂) : Rebuilt t t₂ T T₂ :=
  ⟨h₂.isTree, h₂.toList.trans h₁.toList,
    h₁.changes.trans (h₂.changes.mono fun y hy => by rwa [← h₁.toList])⟩

/-- Changing a colour rebuilds one node. -/
theorem rebuilt_setColour (h : IsTree t (plug (node' s c a x b) p)) (c' : Colour) :
    ∃ t', t.setColour (some x) c' = some t' ∧
      Rebuilt t t' (plug (node' s c a x b) p) (plug (node' s c' a x b) p) := by
  obtain ⟨t', he, hT, hchanges⟩ := setColour_spec h c'
  refine ⟨t', he, hT, ?_, hchanges.mono ?_⟩
  · rw [toList_plug, toList_plug]
    cases s <;> rfl
  · intro y hy
    rw [List.mem_singleton.mp hy, (perm_plug _ _).mem_iff]
    exact List.mem_append_left _ (mem_of_root (root_node' _ _ _ _ _))

/-- A rotation rebuilds the two nodes. -/
theorem rebuilt_rotate {c₁ c₂ : Colour} {y : α} {d : CTree α}
    (h : IsTree t (plug (node' s c₁ (node' s c₂ a x b) y d) p)) :
    ∃ t', rotate s t (some x) = some t' ∧
      Rebuilt t t' (plug (node' s c₁ (node' s c₂ a x b) y d) p)
        (plug (node' s c₂ a x (node' s c₁ b y d)) p) := by
  obtain ⟨t', he, hT, hchanges⟩ := rotate_spec h
  refine ⟨t', he, hT, ?_, hchanges⟩
  rw [toList_plug, toList_plug, toList_rotate]

/-- The rotation that the code picks by looking which child the node is. -/
theorem rotate_of_record {outer parent : Option α} (h : outer ≠ some x)
    (k : RbTree α → Option (RbTree α)) :
    (if (record s (some x) outer parent c).left = some x then (t.rotateRight (some x)).bind k
      else (t.rotateLeft (some x)).bind k) = (rotate s t (some x)).bind k := by
  cases s with
  | left => exact if_pos rfl
  | right => exact if_neg h

end Places

end RbTree

end U80211
