import U80211.Properties.RbRemove

/-!
# What the operations of the cache do

A cache is described by the list of its access points, in the order of their addresses, and by the
references that callers own. Each operation is a change of these two. A counter has 32 bits; what
gives references back asks that no access point has more of them than the counter tells apart.

* `Represents`: the tree, the count and the counters are those of the list and the references
* `Countable`: the counters tell the numbers of references apart
* `drop_spec`, `insert_spec`, `remove_spec`, `find_spec`, `getAps_spec`, `purge_spec`, `deinit_spec`
-/

namespace U80211

namespace BssCache

open RedBlack RbTree

/-- The cache holds the access points of the list, and callers own the given references. -/
structure Represents (c : BssCache) (l : List AccessPoint) (owned : AccessPoint → Nat) : Prop where
  tree : ∃ T, IsTree c.tree T ∧ Valid T ∧ T.toList = l
  sorted : l.Pairwise (rbtreeMacCompare · · < 0)
  entryCount : c.entryCount = l.length
  refcount : ∀ ap, c.Allocated ap → c.refcount ap = .ofNat (l.count ap + owned ap)
  allocated : ∀ ap, c.Allocated ap ↔ 0 < l.count ap + owned ap

/-- No access point has more references than its counter tells apart. -/
def Countable (l : List AccessPoint) (owned : AccessPoint → Nat) : Prop :=
  ∀ ap, l.count ap + owned ap ≤ 2 ^ 32

variable {c : BssCache} {l pre post : List AccessPoint} {owned : AccessPoint → Nat}
  {ap : AccessPoint} {mac : MacAddress} {fuel : Nat}

/-! ## Counters -/

/-- A counter is what it counts up to the largest `int`, and not positive from there on. -/
theorem toInt_ofNat_cases {n : Nat} (h : n ≤ 2 ^ 32) :
    n < 2 ^ 31 ∧ (Int32.ofNat n).toInt = n ∨ 2 ^ 31 ≤ n ∧ (Int32.ofNat n).toInt ≤ 0 := by
  rw [Int32.toInt_ofNat']
  simp only [Int32.size, Int.bmod]
  omega

theorem ofNat_eq_one_iff {n : Nat} (h : n ≤ 2 ^ 32) : Int32.ofNat n = 1 ↔ n = 1 := by
  rw [← Int32.toInt_inj, Int32.toInt_ofNat', Int32.toInt_one]
  simp only [Int32.size, Int.bmod]
  omega

theorem ofNat_add_one (n : Nat) : Int32.ofNat n + 1 = .ofNat (n + 1) := (Int32.ofNat_add n 1).symm

theorem ofNat_sub_one {n : Nat} (h : 0 < n) : Int32.ofNat n - 1 = .ofNat (n - 1) :=
  (Int32.ofNat_sub n 1 h).symm

/-- A release that leaves 0 has given the last reference back. -/
theorem ofNat_sub_one_eq_zero_iff {n : Nat} (h : n ≤ 2 ^ 32) :
    Int32.ofNat n - 1 = 0 ↔ n = 1 := by
  rw [Int32.sub_eq_iff_eq_add]
  exact ofNat_eq_one_iff h

/-! ## The order of the list -/

theorem ne_of_compare {a b : AccessPoint} (h : rbtreeMacCompare a b < 0) :
    a.macAddress ≠ b.macAddress := by
  intro he
  rw [rbtreeMacCompare, macCompare_eq_zero_iff.mpr he] at h
  omega

theorem compare_neg_of_le {a b : AccessPoint} (h : rbtreeMacCompare a b ≤ 0)
    (hne : a.macAddress ≠ b.macAddress) : rbtreeMacCompare a b < 0 :=
  lt_of_le_of_ne h fun he => hne (macCompare_eq_zero_iff.mp he)

theorem Represents.nodup_addresses (h : c.Represents l owned) :
    (l.map AccessPoint.macAddress).Nodup := List.pairwise_map.mpr (h.sorted.imp ne_of_compare)

theorem Represents.nodup (h : c.Represents l owned) : l.Nodup := h.nodup_addresses.of_map

/-- There is one access point with an address at most. -/
theorem Represents.unique (h : c.Represents l owned) {a b : AccessPoint} (ha : a ∈ l) (hb : b ∈ l)
    (hab : a.macAddress = b.macAddress) : a = b :=
  List.inj_on_of_nodup_map h.nodup_addresses ha hb hab

theorem isPreorder_macCompare : IsPreorder rbtreeMacCompare where
  swap a b := macCompare_neg_iff.trans macCompare_pos_iff.symm
  trans a b c hab hbc := by
    have hle {x y : MacAddress} : macCompare x y ≤ 0 ↔ x.toList ≤ y.toList := by
      rw [← not_lt, macCompare_pos_iff, List.not_lt]
    exact hle.mpr (List.le_trans (hle.mp hab) (hle.mp hbc))

/-- The look-up of an address. -/
theorem Represents.lookup (h : c.Represents l owned) (hf : l.length < fuel) (mac : MacAddress) :
    c.tree.lookup rbtreeValueCompare mac fuel c.tree.root =
      some (l.find? (·.macAddress = mac)) := by
  obtain ⟨T, hT, -, rfl⟩ := h.tree
  have hheight : T.height < fuel := Nat.lt_of_le_of_lt (height_le_length T) hf
  rw [hT.root, lookup_spec fits_macCompare hT.holds h.sorted hheight]
  simp only [rbtreeValueCompare, macCompare_eq_zero_iff, eq_comm (a := mac)]

/-! ## References -/

theorem Represents.congr {owned' : AccessPoint → Nat} (h : c.Represents l owned)
    (howned : ∀ a, owned' a = owned a) : c.Represents l owned' := by
  obtain rfl : owned' = owned := funext howned
  exact h

theorem count_singleton (a ap : AccessPoint) : [ap].count a = if ap = a then 1 else 0 := by
  simp only [List.count_singleton, beq_iff_eq]

/-- Callers get a reference to an access point. -/
theorem Represents.held (h : c.Represents l owned) (hap : c.Allocated ap) :
    ∃ c', c.apHold ap = some c' ∧ c'.Represents l (fun a => owned a + [ap].count a) ∧
      c'.tree = c.tree ∧ c'.entryCount = c.entryCount ∧ c'.rwlock = c.rwlock := by
  refine ⟨_, if_pos hap, ⟨h.tree, h.sorted, h.entryCount, ?_, ?_⟩, rfl, rfl, rfl⟩
  · intro a ha
    have hcount := h.refcount a ha
    rw [count_singleton]
    show Function.update c.refcount ap (c.refcount ap + 1) a = _
    by_cases he : a = ap
    · subst he
      rw [Function.update_self, if_pos rfl, hcount, ofNat_add_one, Nat.add_assoc]
    · rw [Function.update_of_ne he, if_neg (Ne.symm he), hcount, Nat.add_zero]
  · intro a
    refine (h.allocated a).trans ?_
    rw [count_singleton]
    by_cases he : a = ap
    · subst he
      have hpos := (h.allocated a).mp hap
      rw [if_pos rfl]
      omega
    · rw [if_neg (Ne.symm he), Nat.add_zero]

/-- A caller gives a reference back. The memory goes with the last one. -/
theorem Represents.released (h : c.Represents l owned) (hn : Countable l owned)
    (hap : 0 < owned ap) :
    ∃ c', c.apRelease ap = some c' ∧ c'.Represents l (Function.update owned ap (owned ap - 1)) ∧
      c'.entryCount = c.entryCount ∧ c'.rwlock = c.rwlock := by
  have halloc : c.Allocated ap := (h.allocated ap).mpr (by omega)
  have hcount := h.refcount ap halloc
  have hother : ∀ a ≠ ap, Function.update owned ap (owned ap - 1) a = owned a := fun a ha =>
    Function.update_of_ne ha _ _
  have hself : Function.update owned ap (owned ap - 1) ap = owned ap - 1 :=
    Function.update_self _ _ _
  by_cases hlast : l.count ap + owned ap = 1
  · -- nobody holds it any more
    have hnot : ap ∉ l := List.count_eq_zero.mp (by omega)
    refine ⟨_, (if_pos halloc).trans (congrArg some (if_pos ?_)), ⟨?_, h.sorted, h.entryCount, ?_,
      ?_⟩, rfl, rfl⟩
    · show Function.update c.refcount ap (c.refcount ap - 1) ap = 0
      rw [Function.update_self, hcount]
      exact (ofNat_sub_one_eq_zero_iff (hn ap)).mpr hlast
    · obtain ⟨T, hT, hv, rfl⟩ := h.tree
      refine ⟨T, hT.congr rfl fun y hy => Function.update_of_ne ?_ _ _, hv, rfl⟩
      rintro rfl
      exact hnot hy
    · intro a ha
      have hne : a ≠ ap := by
        rintro rfl
        exact ha (Function.update_self _ _ _)
      have haold : c.Allocated a := by
        change Function.update c.tree.nodes ap none a ≠ none at ha
        rwa [Function.update_of_ne hne] at ha
      rw [hother a hne]
      exact (Function.update_of_ne hne _ _).trans (h.refcount a haold)
    · intro a
      by_cases he : a = ap
      · subst he
        rw [hself]
        refine iff_of_false (fun ha => ha (Function.update_self _ _ _)) ?_
        omega
      · rw [hother a he, ← h.allocated a]
        change Function.update c.tree.nodes ap none a ≠ none ↔ _
        rw [Function.update_of_ne he]
        rfl
  · refine ⟨_, (if_pos halloc).trans (congrArg some (if_neg ?_)), ⟨h.tree, h.sorted, h.entryCount,
      ?_, ?_⟩, rfl, rfl⟩
    · show Function.update c.refcount ap (c.refcount ap - 1) ap ≠ 0
      rw [Function.update_self, hcount]
      exact (ofNat_sub_one_eq_zero_iff (hn ap)).not.mpr hlast
    · intro a ha
      by_cases he : a = ap
      · subst he
        refine (Function.update_self _ _ _).trans ?_
        rw [hself, hcount, ofNat_sub_one (by omega), Nat.add_sub_assoc hap]
      · rw [hother a he]
        exact (Function.update_of_ne he _ _).trans (h.refcount a ha)
    · intro a
      refine (h.allocated a).trans ?_
      by_cases he : a = ap
      · subst he
        rw [hself]
        omega
      · rw [hother a he]

/-- An access point is freed when its counter is 1, whatever its counter should be. -/
theorem apRelease_one (hap : c.Allocated ap) (hone : c.refcount ap = 1) :
    ∃ c', c.apRelease ap = some c' ∧ c'.tree.root = c.tree.root ∧ ¬ c'.Allocated ap := by
  refine ⟨_, (if_pos hap).trans (congrArg some (if_pos ?_)), rfl, ?_⟩
  · show Function.update c.refcount ap (c.refcount ap - 1) ap = 0
    rw [Function.update_self, hone]
    rfl
  · show ¬ Function.update c.tree.nodes ap none ap ≠ none
    rw [Function.update_self, not_not]

theorem Countable.released (h : Countable l owned) :
    Countable l (Function.update owned ap (owned ap - 1)) := by
  intro a
  have hle := h a
  by_cases ha : a = ap
  · subst ha
    rw [Function.update_self]
    omega
  · rwa [Function.update_of_ne ha]

/-! ## The tree changes -/

/-- Only the tree and the count change, and the tree by an access point that callers have more or
fewer references to. -/
theorem Represents.retree (h : c.Represents l owned) (t : RbTree AccessPoint) (n : Nat)
    (l' : List AccessPoint) (owned' : AccessPoint → Nat)
    (ht : ∃ T, IsTree t T ∧ Valid T ∧ T.toList = l') (hs : l'.Pairwise (rbtreeMacCompare · · < 0))
    (hn : n = l'.length) (hchanges : ∀ a, (t.nodes a).isSome = (c.tree.nodes a).isSome)
    (hrefs : ∀ a, l'.count a + owned' a = l.count a + owned a) :
    ({ c with tree := t, entryCount := n } : BssCache).Represents l' owned' := by
  have halloc : ∀ a, t.nodes a ≠ none ↔ c.Allocated a := by
    intro a
    rw [Allocated, ← Option.isSome_iff_ne_none, ← Option.isSome_iff_ne_none, hchanges a]
  refine ⟨ht, hs, hn, ?_, ?_⟩
  · intro a ha
    have hcount := h.refcount a ((halloc a).mp ha)
    show c.refcount a = _
    rw [hcount, hrefs a]
  · intro a
    rw [hrefs a]
    exact (halloc a).trans (h.allocated a)

theorem count_middle (a x : AccessPoint) (pre post : List AccessPoint) :
    (pre ++ x :: post).count a = (pre ++ post).count a + if x = a then 1 else 0 := by
  simp only [List.count_append, List.count_cons, beq_iff_eq, Nat.add_assoc]

/-- An access point is taken out, and the reference of the cache is given back. -/
theorem drop_spec (h : c.Represents (pre ++ ap :: post) owned)
    (hn : Countable (pre ++ ap :: post) owned) (hf : (pre ++ ap :: post).length + 2 ≤ fuel) :
    ∃ c', c.drop fuel ap = some c' ∧ c'.Represents (pre ++ post) owned ∧
      c'.rwlock = c.rwlock := by
  obtain ⟨T, hT, hv, hlist⟩ := h.tree
  obtain ⟨t, T', he, hremoved⟩ := remove_spec hT hv (x := ap) (by rw [hlist]; simp) (hlist ▸ hf)
  obtain ⟨pre', post', hold, hnew⟩ := hremoved.toList
  -- the list falls apart at the access point in one way only
  have hsplit : pre' = pre ∧ post' = post := by
    have hnodup := hT.nodup
    rw [hold, List.nodup_middle, List.nodup_cons, List.mem_append, not_or] at hnodup
    have hsame := (List.append_cons_inj_of_notMem hnodup.1.1 hnodup.1.2).mp (hold.symm.trans hlist)
    exact ⟨hsame.1, hsame.2.2⟩
  obtain ⟨rfl, rfl⟩ := hsplit
  have hcount : c.entryCount = (pre' ++ post').length + 1 := by
    rw [h.entryCount]
    simp only [List.length_append, List.length_cons]
    omega
  have hrefs : ∀ a, (pre' ++ post').count a + Function.update owned ap (owned ap + 1) a =
      (pre' ++ ap :: post').count a + owned a := by
    intro a
    rw [count_middle]
    by_cases ha : a = ap
    · subst ha
      rw [Function.update_self, if_pos rfl]
      omega
    · rw [Function.update_of_ne ha, if_neg (Ne.symm ha)]
      omega
  have hrep := h.retree t (c.entryCount - 1) (pre' ++ post')
    (Function.update owned ap (owned ap + 1))
    ⟨T', hremoved.isTree, hremoved.valid, hnew⟩
    (h.sorted.sublist (List.Sublist.append_left (List.sublist_cons_self _ _) _)) (by omega)
    hremoved.changes.allocated hrefs
  have hpos : 0 < Function.update owned ap (owned ap + 1) ap := by simp
  obtain ⟨c', hc', hrep', -, hlock⟩ := hrep.released (fun a => (hrefs a).trans_le (hn a)) hpos
  refine ⟨c', ?_, ?_, hlock⟩
  · rw [drop]
    refine (bind_of he _).trans ?_
    refine (bind_of (if_neg (by show c.entryCount ≠ 0; omega)) _).trans ?_
    exact hc'
  · simpa using hrep'

/-! ## Insertion, removal and look-up -/

/-- The answer of a look-up of the list. -/
theorem Represents.find?_eq_some (h : c.Represents l owned) :
    l.find? (·.macAddress = mac) = some ap ↔ ap ∈ l ∧ ap.macAddress = mac := by
  constructor
  · intro hfind
    exact ⟨List.mem_of_find?_eq_some hfind, by simpa using List.find?_some hfind⟩
  · rintro ⟨hin, rfl⟩
    cases hfind : l.find? (·.macAddress = ap.macAddress) with
    | none =>
      have hne := List.find?_eq_none.mp hfind ap hin
      exact absurd (decide_eq_true rfl) hne
    | some b =>
      have hb : b.macAddress = ap.macAddress := by simpa using List.find?_some hfind
      rw [h.unique (List.mem_of_find?_eq_some hfind) hin hb]

/-- An access point that is inserted goes where its address says, unless there is one with its
address. -/
theorem insert_spec (h : c.Represents l owned) (hlock : c.rwlock = true) (hap : 0 < owned ap)
    (hf : l.length < fuel) :
    ∃ c' l', c.insert fuel ap = some c' ∧ c'.Represents l' owned ∧ c'.rwlock = true ∧
      (l.find? (·.macAddress = ap.macAddress) ≠ none → c' = c ∧ l' = l) ∧
      (l.find? (·.macAddress = ap.macAddress) = none →
        ∃ pre post, l = pre ++ post ∧ l' = pre ++ ap :: post) := by
  have halloc : c.Allocated ap := (h.allocated ap).mpr (by omega)
  rw [insert, locked, if_pos hlock, if_neg (not_not_intro halloc), h.lookup hf]
  cases hfind : l.find? (·.macAddress = ap.macAddress) with
  | some b => exact ⟨c, l, rfl, h, hlock, fun _ => ⟨rfl, rfl⟩, fun he => by cases he⟩
  | none =>
    have hfree : ∀ a ∈ l, a.macAddress ≠ ap.macAddress := by
      simpa using List.find?_eq_none.mp hfind
    have hnot : ap ∉ l := fun hin => hfree ap hin rfl
    obtain ⟨T, hT, hv, rfl⟩ := h.tree
    have hordered : Ordered rbtreeMacCompare T := h.sorted.imp Int.le_of_lt
    obtain ⟨t, T', he, hT', hv', -, hchanges, pre, post, hold, hnew, hpre, hpost⟩ :=
      RbTree.insert_spec isPreorder_macCompare hT hv hordered halloc hnot hf
    have hrep := h.retree t (c.entryCount + 1) T'.toList
      (Function.update owned ap (owned ap - 1)) ⟨T', hT', hv', rfl⟩ ?_ ?_
      hchanges.allocated ?_
    · have halloc' : ({ c with tree := t, entryCount := c.entryCount + 1 } : BssCache).Allocated
          ap := by
        rw [Allocated, ← Option.isSome_iff_ne_none, hchanges.allocated, Option.isSome_iff_ne_none]
        exact halloc
      obtain ⟨c', hc', hrep', -⟩ := hrep.held halloc'
      cases (if_pos halloc').symm.trans hc'
      refine ⟨{ c with tree := t, entryCount := c.entryCount + 1,
                       refcount := Function.update c.refcount ap (c.refcount ap + 1) },
        T'.toList, ?_, ?_, hlock, fun hne => absurd rfl hne, fun _ => ⟨pre, post, hold, hnew⟩⟩
      · refine (bind_of he _).trans ?_
        exact bind_of (if_pos halloc') _
      · refine hrep'.congr fun a => ?_
        rw [count_singleton]
        by_cases ha : a = ap
        · subst ha
          rw [Function.update_self, if_pos rfl, Nat.sub_add_cancel hap]
        · rw [Function.update_of_ne ha, if_neg (Ne.symm ha), Nat.add_zero]
    · rw [hnew, List.pairwise_append, List.pairwise_cons]
      have hsorted := h.sorted
      rw [hold, List.pairwise_append] at hsorted
      refine ⟨hsorted.1, ⟨?_, hsorted.2.1⟩, ?_⟩
      · intro b hb
        have hne := hfree b (by rw [hold]; exact List.mem_append_right _ hb)
        exact compare_neg_of_le (hpost b hb) hne.symm
      · intro a ha b hb
        rcases List.mem_cons.mp hb with rfl | hb
        · exact (isPreorder_macCompare.swap a b).mpr (hpre a ha)
        · exact hsorted.2.2 a ha b hb
    · rw [hnew, h.entryCount, hold]
      simp only [List.length_append, List.length_cons]
      omega
    · intro a
      rw [hnew, hold, count_middle]
      by_cases ha : a = ap
      · subst ha
        rw [Function.update_self, if_pos rfl]
        omega
      · rw [Function.update_of_ne ha, if_neg (Ne.symm ha), Nat.add_zero]

/-- The access point with the address is removed. -/
theorem remove_spec (mac : MacAddress) (h : c.Represents l owned) (hn : Countable l owned)
    (hlock : c.rwlock = true) (hf : l.length + 2 ≤ fuel) :
    ∃ c', c.remove fuel mac = some c' ∧
      c'.Represents (l.filter (·.macAddress ≠ mac)) owned ∧ c'.rwlock = true := by
  rw [remove, locked, if_pos hlock, h.lookup (by omega)]
  cases hfind : l.find? (·.macAddress = mac) with
  | none =>
    refine ⟨c, rfl, ?_, hlock⟩
    rw [List.filter_eq_self.mpr (by simpa using List.find?_eq_none.mp hfind)]
    exact h
  | some b =>
    obtain ⟨hin, rfl⟩ := h.find?_eq_some.mp hfind
    obtain ⟨pre, post, rfl⟩ := List.append_of_mem hin
    obtain ⟨c', hc', hrep, hlock'⟩ := drop_spec h hn hf
    refine ⟨c', hc', ?_, hlock'.trans hlock⟩
    have hnodup := h.nodup_addresses
    rw [List.map_append, List.map_cons, List.nodup_middle, List.nodup_cons, List.mem_append,
      not_or] at hnodup
    have hself {l : List AccessPoint} (hl : b.macAddress ∉ l.map AccessPoint.macAddress) :
        l.filter (·.macAddress ≠ b.macAddress) = l := by
      rw [List.filter_eq_self]
      intro a ha
      exact decide_eq_true fun he => hl (he ▸ List.mem_map_of_mem ha)
    rw [List.filter_append, List.filter_cons_of_neg (by simp), hself hnodup.1.1, hself hnodup.1.2]
    exact hrep

/-- The access point with the address is answered, with a reference for the caller. -/
theorem find_spec (mac : MacAddress) (h : c.Represents l owned) (hlock : c.rwlock = true)
    (hf : l.length < fuel) :
    ∃ c', c.find fuel mac = some (c', l.find? (·.macAddress = mac)) ∧
      c'.Represents l (fun a => owned a + (l.find? (·.macAddress = mac)).toList.count a) ∧
      c'.rwlock = true := by
  rw [find, locked, if_pos hlock, h.lookup hf]
  cases hfind : l.find? (·.macAddress = mac) with
  | none => exact ⟨c, rfl, by simpa using h, hlock⟩
  | some b =>
    have hin := (h.find?_eq_some.mp hfind).1
    have halloc := (h.allocated b).mpr (by have := List.count_pos_iff.mpr hin; omega)
    obtain ⟨c', hc', hrep, -, -, hlock'⟩ := h.held halloc
    exact ⟨c', bind_of hc' _, hrep, hlock'.trans hlock⟩

/-! ## Loops over the tree -/

theorem Represents.firstNode (h : c.Represents l owned) (hf : l.length < fuel) :
    c.firstNode fuel = some l.head? := by
  obtain ⟨T, hT, -, rfl⟩ := h.tree
  rw [BssCache.firstNode]
  cases hr : c.tree.root with
  | none =>
    obtain rfl : T = .nil := CTree.eq_nil_of_root (hT.root.symm.trans hr)
    rfl
  | some r =>
    have hfirst : c.tree.first fuel r = T.toList.head? := extreme_spec (s := .left) hT hf hr
    have hne : T.toList ≠ [] := List.ne_nil_of_mem (CTree.mem_of_root (hT.root.symm.trans hr))
    rw [List.head?_eq_some_head hne] at hfirst ⊢
    simp only [hfirst, Option.map_some]

theorem Represents.successor (h : c.Represents (pre ++ ap :: post) owned)
    (hf : (pre ++ ap :: post).length < fuel) : c.tree.successor fuel ap = some post.head? := by
  obtain ⟨T, hT, -, hlist⟩ := h.tree
  exact successor_spec hT (hlist ▸ hf) hlist

/-- There are fewer references when an access point is taken out. -/
theorem Countable.drop (h : Countable (pre ++ ap :: post) owned) :
    Countable (pre ++ post) owned := by
  intro a
  have hle := h a
  rw [count_middle] at hle
  omega

/-- The loop of the purge has passed `pre` and goes on with `post`. -/
theorem purgeLoop_spec (h : c.Represents (pre ++ post) owned)
    (hcount : Countable (pre ++ post) owned) {n : Nat} (hn : post.length < n)
    (hf : (pre ++ post).length + 2 ≤ fuel) :
    ∃ c', c.purgeLoop fuel n post.head? = some c' ∧
      c'.Represents (pre ++ post.filter (owned · ≠ 0)) owned ∧ c'.rwlock = c.rwlock := by
  induction post generalizing c pre n with
  | nil =>
    obtain ⟨n, rfl⟩ := Nat.exists_eq_succ_of_ne_zero (Nat.ne_zero_of_lt hn)
    exact ⟨c, rfl, h, rfl⟩
  | cons x post ih =>
    obtain ⟨n, rfl⟩ := Nat.exists_eq_succ_of_ne_zero (Nat.ne_zero_of_lt hn)
    have hsucc := h.successor (Nat.lt_of_succ_lt hf)
    have hone : (pre ++ x :: post).count x = 1 :=
      List.count_eq_one_of_mem h.nodup (by simp)
    -- the counter is 1 exactly when nobody but the cache has a reference
    have honly : c.refcount x = 1 ↔ owned x = 0 := by
      rw [h.refcount x ((h.allocated x).mpr (by omega)), ofNat_eq_one_iff (hcount x), hone]
      omega
    have hn' : post.length < n := Nat.lt_of_succ_lt_succ hn
    have hlen : (pre ++ x :: post).length = (pre ++ post).length + 1 := by simp; omega
    by_cases hx : owned x = 0
    · obtain ⟨c₁, hc₁, hrep₁, hlock₁⟩ := drop_spec h hcount hf
      obtain ⟨c', hc', hrep', hlock'⟩ := ih hrep₁ hcount.drop hn' (by omega)
      refine ⟨c', ?_, ?_, hlock'.trans hlock₁⟩
      · refine (bind_of hsucc _).trans ?_
        refine (if_pos (honly.mpr hx)).trans ?_
        exact (bind_of hc₁ _).trans hc'
      · rw [List.filter_cons_of_neg (by simpa using hx)]
        exact hrep'
    · rw [List.append_cons] at h hf hcount
      obtain ⟨c', hc', hrep', hlock'⟩ := ih h hcount hn' hf
      refine ⟨c', ?_, ?_, hlock'⟩
      · refine (bind_of hsucc _).trans ?_
        refine (if_neg (honly.not.mpr hx)).trans ?_
        exact hc'
      · rw [List.filter_cons_of_pos (by simpa using hx), List.append_cons]
        exact hrep'

/-- The access points that only the cache holds are removed. -/
theorem purge_spec (h : c.Represents l owned) (hn : Countable l owned) (hlock : c.rwlock = true)
    (hf : l.length + 2 ≤ fuel) :
    ∃ c', c.purge fuel = some c' ∧ c'.Represents (l.filter (owned · ≠ 0)) owned ∧
      c'.rwlock = true := by
  have hall : c.Represents ([] ++ l) owned := h
  have hrounds : l.length < fuel := by omega
  obtain ⟨c', hc', hrep, hlock'⟩ := purgeLoop_spec hall hn hrounds hf
  refine ⟨c', ?_, hrep, hlock'.trans hlock⟩
  rw [purge, locked, if_pos hlock]
  exact (bind_of (h.firstNode (by omega)) _).trans hc'

theorem deinitLoop_spec (h : c.Represents l owned) (hcount : Countable l owned) {n : Nat}
    (hn : l.length < n) (hf : l.length + 2 ≤ fuel) :
    ∃ c', c.deinitLoop fuel n l.head? = some c' ∧ c'.Represents [] owned := by
  induction l generalizing c n with
  | nil =>
    obtain ⟨n, rfl⟩ := Nat.exists_eq_succ_of_ne_zero (Nat.ne_zero_of_lt hn)
    exact ⟨c, rfl, h⟩
  | cons x l ih =>
    obtain ⟨n, rfl⟩ := Nat.exists_eq_succ_of_ne_zero (Nat.ne_zero_of_lt hn)
    have hall : c.Represents ([] ++ x :: l) owned := h
    have hsucc := hall.successor (Nat.lt_of_succ_lt hf)
    have hcount' : Countable ([] ++ x :: l) owned := hcount
    obtain ⟨c₁, hc₁, hrep₁, -⟩ := drop_spec hall hcount' hf
    obtain ⟨c', hc', hrep'⟩ :=
      ih hrep₁ hcount'.drop (Nat.lt_of_succ_lt_succ hn) (Nat.le_of_succ_le hf)
    exact ⟨c', (bind_of hsucc _).trans ((bind_of hc₁ _).trans hc'), hrep'⟩

/-- All access points are removed. -/
theorem deinit_spec (h : c.Represents l owned) (hn : Countable l owned) (hlock : c.rwlock = true)
    (hf : l.length + 2 ≤ fuel) :
    ∃ c', c.deinit fuel = some c' ∧ c'.Represents [] owned ∧ c'.rwlock = false := by
  obtain ⟨c', hc', hrep⟩ := deinitLoop_spec h hn (n := fuel) (by omega) hf
  refine ⟨{ c' with rwlock := false, tree := { c'.tree with root := none } }, ?_, ?_, rfl⟩
  · rw [deinit, locked, if_pos hlock]
    exact (bind_of (h.firstNode (by omega)) _).trans (bind_of hc' _)
  · obtain ⟨T, hT, hv, hlist⟩ := hrep.tree
    refine ⟨⟨.nil, ⟨rfl, trivial, List.nodup_nil⟩, ⟨rfl, 0, .nil⟩, rfl⟩, hrep.sorted,
      hrep.entryCount, hrep.refcount, hrep.allocated⟩

/-- The loop has written `buffer` and goes on with `post`. -/
theorem getApsLoop_spec (buffer : List AccessPoint) (capacity : Nat)
    (h : c.Represents (pre ++ post) owned) {n : Nat} (hn : post.length < n)
    (hf : (pre ++ post).length < fuel) :
    ∃ c', c.getApsLoop fuel capacity buffer n post.head? =
        some (c', buffer ++ post.take (capacity - buffer.length)) ∧
      c'.Represents (pre ++ post)
        (fun a => owned a + (post.take (capacity - buffer.length)).count a) ∧
      c'.rwlock = c.rwlock := by
  induction post generalizing c pre n owned buffer with
  | nil =>
    obtain ⟨n, rfl⟩ := Nat.exists_eq_succ_of_ne_zero (Nat.ne_zero_of_lt hn)
    exact ⟨c, by simp [getApsLoop], by simpa using h, rfl⟩
  | cons x post ih =>
    obtain ⟨n, rfl⟩ := Nat.exists_eq_succ_of_ne_zero (Nat.ne_zero_of_lt hn)
    rw [List.head?_cons, getApsLoop]
    by_cases hroom : buffer.length < capacity
    · have hsucc := h.successor hf
      have hin : 0 < (pre ++ x :: post).count x := List.count_pos_iff.mpr (by simp)
      obtain ⟨c₁, hc₁, hrep₁, htree₁, -, hlock₁⟩ := h.held ((h.allocated x).mpr (by omega))
      rw [List.append_cons] at hrep₁ hf
      obtain ⟨c', hc', hrep', hlock'⟩ := ih (buffer ++ [x]) hrep₁ (Nat.lt_of_succ_lt_succ hn) hf
      have htake : (x :: post).take (capacity - buffer.length) =
          x :: post.take (capacity - (buffer ++ [x]).length) := by
        obtain ⟨k, hk⟩ := Nat.exists_eq_succ_of_ne_zero (Nat.sub_ne_zero_of_lt hroom)
        rw [hk, List.take_succ_cons, List.length_append, List.length_singleton]
        congr 2
        omega
      refine ⟨c', ?_, ?_, hlock'.trans hlock₁⟩
      · rw [if_pos hroom, htake]
        refine (bind_of hc₁ _).trans ?_
        refine (bind_of (htree₁ ▸ hsucc) _).trans ?_
        rw [hc', List.append_assoc, List.singleton_append]
      · rw [htake, List.append_cons]
        refine hrep'.congr fun a => ?_
        rw [count_singleton]
        simp only [List.count_cons, beq_iff_eq]
        omega
    · have htake : capacity - buffer.length = 0 := Nat.sub_eq_zero_of_le (Nat.le_of_not_lt hroom)
      rw [if_neg hroom, htake, List.take_zero, List.append_nil]
      exact ⟨c, rfl, by simpa using h, rfl⟩

/-- The first access points are answered, as many as there is room for. -/
theorem getAps_spec (capacity : Nat) (h : c.Represents l owned) (hlock : c.rwlock = true)
    (hf : l.length < fuel) :
    ∃ c', c.getAps fuel capacity = some (c', l.take capacity) ∧
      c'.Represents l (fun a => owned a + (l.take capacity).count a) ∧ c'.rwlock = true := by
  have hall : c.Represents ([] ++ l) owned := h
  obtain ⟨c', hc', hrep, hlock'⟩ := getApsLoop_spec [] capacity hall hf hf
  refine ⟨c', ?_, hrep, hlock'.trans hlock⟩
  rw [getAps, locked, if_pos hlock]
  exact (bind_of (h.firstNode hf) _).trans hc'

/-- Memory that is not in use is allocated for a caller. -/
theorem apAllocate_spec (h : c.Represents l owned) (hap : ¬ c.Allocated ap)
    (node : RbNode AccessPoint) :
    (c.apAllocate ap node).Represents l (fun a => owned a + [ap].count a) := by
  have hnone := (h.allocated ap).not.mp hap
  have hnot : ap ∉ l := fun hin => hnone (by have := List.count_pos_iff.mpr hin; omega)
  obtain ⟨T, hT, hv, rfl⟩ := h.tree
  refine ⟨⟨T, hT.congr rfl fun y hy => Function.update_of_ne ?_ _ _, hv, rfl⟩, h.sorted,
    h.entryCount, ?_, ?_⟩
  · rintro rfl
    exact hnot hy
  · intro a ha
    rw [count_singleton]
    by_cases he : a = ap
    · subst he
      show Function.update c.refcount a 1 a = _
      rw [Function.update_self, if_pos rfl, ← Nat.add_assoc, Nat.eq_zero_of_not_pos hnone]
      rfl
    · have haold : c.Allocated a := by
        change Function.update c.tree.nodes ap (some node) a ≠ none at ha
        rwa [Function.update_of_ne he] at ha
      have hcount := h.refcount a haold
      show Function.update c.refcount ap 1 a = _
      rw [Function.update_of_ne he, if_neg (Ne.symm he), hcount, Nat.add_zero]
  · intro a
    rw [count_singleton]
    change Function.update c.tree.nodes ap (some node) a ≠ none ↔ _
    by_cases he : a = ap
    · subst he
      rw [Function.update_self, if_pos rfl]
      exact iff_of_true (Option.some_ne_none _) (by omega)
    · rw [Function.update_of_ne he, if_neg (Ne.symm he), Nat.add_zero]
      exact h.allocated a

end BssCache

end U80211
