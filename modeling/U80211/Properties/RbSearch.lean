import U80211.BssCache
import U80211.Properties.RbWalk

/-!
# Searching a tree

* `lookup_spec`, `findFirstLargerEqual_spec`: the searches answer what a search of the list does
* `search_exact`: **the searches are exact**, with any comparator that fits the order of the tree
* `macCompare_spec`: `mac_compare` is the lexicographic order of the six bytes
-/

namespace U80211

namespace RbTree

open RedBlack CTree

variable {α : Type} {κ : Type}

/-! ## Comparators -/

/-- The comparator answers -1, 0 or 1. -/
def IsSign (n : Int) : Prop := n = -1 ∨ n = 0 ∨ n = 1

/-- A value comparator fits the order of the nodes: a key that is not smaller than a node is larger
than all nodes before it. -/
structure Fits (compare : α → α → Int) (valueCompare : κ → α → Int) : Prop where
  sign : ∀ key a, IsSign (valueCompare key a)
  order : ∀ key a b, compare a b < 0 → 0 ≤ valueCompare key b → valueCompare key a = 1

/-- A search tree without equal keys. -/
def Sorted (compare : α → α → Int) (T : CTree α) : Prop :=
  T.toList.Pairwise fun a b => compare a b < 0

theorem Fits.neg {compare : α → α → Int} {valueCompare : κ → α → Int}
    (h : Fits compare valueCompare) {key : κ} {a b : α} (hab : compare a b < 0)
    (ha : valueCompare key a ≤ 0) : valueCompare key b = -1 := by
  have hb : ¬ 0 ≤ valueCompare key b := by
    intro hb
    have hone := h.order key a b hab hb
    omega
  rcases h.sign key b with hs | hs | hs <;> omega

section Search

variable [DecidableEq α] {t : RbTree α} {T : CTree α} {parent : Option α} {fuel : Nat}
  {compare : α → α → Int} {valueCompare : κ → α → Int} {key : κ}

omit [DecidableEq α] in
/-- What the order says about the two sides of a node. -/
theorem Sorted.node {c : Colour} {l r : CTree α} {x : α} (h : Sorted compare (node c l x r)) :
    Sorted compare l ∧ Sorted compare r ∧ (∀ a ∈ l.toList, compare a x < 0) ∧
      ∀ b ∈ r.toList, compare x b < 0 := by
  rw [Sorted, toList, List.pairwise_append, List.pairwise_cons] at h
  exact ⟨h.1, h.2.1.2, fun a ha => h.2.2 a ha x List.mem_cons_self, h.2.1.1⟩

omit [DecidableEq α] in
/-- **The search answers the node that is equal to the key.** -/
theorem lookup_spec (hfits : Fits compare valueCompare) (h : Holds t.nodes parent T)
    (hs : Sorted compare T) (hf : T.height < fuel) :
    t.lookup valueCompare key fuel T.root = some (T.toList.find? (valueCompare key · = 0)) := by
  induction T generalizing parent fuel with
  | nil =>
    obtain ⟨fuel, rfl⟩ := Nat.exists_eq_succ_of_ne_zero (Nat.ne_zero_of_lt hf)
    rfl
  | node c l x r ihl ihr =>
    obtain ⟨fuel, rfl⟩ := Nat.exists_eq_succ_of_ne_zero (Nat.ne_zero_of_lt hf)
    obtain ⟨hx, hl, hr⟩ := h
    obtain ⟨hsl, hsr, hlx, hxr⟩ := hs.node
    rw [height] at hf
    have hstep : t.lookup valueCompare key (fuel + 1) (some x) =
        if valueCompare key x = 0 then some (some x)
        else t.lookup valueCompare key fuel
          (if valueCompare key x > 0 then r.root else l.root) := by
      simp only [lookup, hx, Option.bind_eq_bind, Option.bind_some]
    have hleft (hle : 0 ≤ valueCompare key x) : l.toList.find? (valueCompare key · = 0) = none := by
      rw [List.find?_eq_none]
      intro a ha
      simp [hfits.order key a x (hlx a ha) hle]
    have hright (hle : valueCompare key x ≤ 0) :
        r.toList.find? (valueCompare key · = 0) = none := by
      rw [List.find?_eq_none]
      intro b hb
      simp [hfits.neg (hxr b hb) hle]
    rw [toList, List.find?_append]
    refine hstep.trans ?_
    rcases hfits.sign key x with hsign | hsign | hsign
    · rw [if_neg (by omega), if_neg (by omega), ihl hl hsl (by omega),
        List.find?_cons_of_neg (by simp [hsign]), hright (by omega), Option.or_none]
    · rw [if_pos hsign, hleft (by omega), List.find?_cons_of_pos (by simp [hsign]), Option.none_or]
    · rw [if_neg (by omega), if_pos (by omega), ihr hr hsr (by omega), hleft (by omega),
        List.find?_cons_of_neg (by simp [hsign]), Option.none_or]

omit [DecidableEq α] in
/-- **The search for a lower bound answers the first node that is not smaller than the key**, or
the candidate that it has come with. -/
theorem findFirstLargerEqual_spec (hfits : Fits compare valueCompare) (h : Holds t.nodes parent T)
    (hs : Sorted compare T) (hf : T.height < fuel) (found : Option α) :
    t.findFirstLargerEqual valueCompare key fuel found T.root =
      some ((T.toList.find? (valueCompare key · ≤ 0)).or found) := by
  induction T generalizing parent fuel found with
  | nil =>
    obtain ⟨fuel, rfl⟩ := Nat.exists_eq_succ_of_ne_zero (Nat.ne_zero_of_lt hf)
    rfl
  | node c l x r ihl ihr =>
    obtain ⟨fuel, rfl⟩ := Nat.exists_eq_succ_of_ne_zero (Nat.ne_zero_of_lt hf)
    obtain ⟨hx, hl, hr⟩ := h
    obtain ⟨hsl, hsr, hlx, hxr⟩ := hs.node
    rw [height] at hf
    have hstep : t.findFirstLargerEqual valueCompare key (fuel + 1) found (some x) =
        if valueCompare key x = 0 then some (some x)
        else t.findFirstLargerEqual valueCompare key fuel
          (if valueCompare key x = -1 then some x else found)
          (if valueCompare key x = 1 then r.root else l.root) := by
      simp only [findFirstLargerEqual, hx, Option.bind_eq_bind, Option.bind_some]
    have hleft (hle : 0 ≤ valueCompare key x) : l.toList.find? (valueCompare key · ≤ 0) = none := by
      rw [List.find?_eq_none]
      intro a ha
      simp [hfits.order key a x (hlx a ha) hle]
    rw [toList, List.find?_append]
    refine hstep.trans ?_
    rcases hfits.sign key x with hsign | hsign | hsign
    · rw [if_neg (by omega), if_pos hsign, if_neg (by omega), ihl hl hsl (by omega),
        List.find?_cons_of_pos (by simp [hsign]), Option.or_assoc, Option.some_or]
    · rw [if_pos hsign, hleft (by omega), List.find?_cons_of_pos (by simp [hsign]),
        Option.none_or, Option.some_or]
    · rw [if_neg (by omega), if_neg (by omega), if_pos hsign, ihr hr hsr (by omega),
        hleft (by omega), List.find?_cons_of_neg (by simp [hsign]), Option.none_or]

end Search

end RbTree

/-! ## The order of addresses -/

theorem bytesCompare_spec (as bs : List UInt8) (h : as.length = bs.length) :
    bytesCompare as bs = -1 ∧ as < bs ∨ bytesCompare as bs = 0 ∧ as = bs ∨
      bytesCompare as bs = 1 ∧ bs < as := by
  induction as generalizing bs with
  | nil =>
    rw [List.eq_nil_of_length_eq_zero h.symm]
    exact Or.inr (Or.inl ⟨rfl, rfl⟩)
  | cons a as ih =>
    cases bs with
    | nil => cases h
    | cons b bs =>
      rw [bytesCompare]
      split
      · next hlt => exact Or.inl ⟨rfl, List.cons_lt_cons_iff.mpr (Or.inl hlt)⟩
      · next hnlt =>
        split
        · next hgt => exact Or.inr (Or.inr ⟨rfl, List.cons_lt_cons_iff.mpr (Or.inl hgt)⟩)
        · next hngt =>
          have hab : a = b := UInt8.le_antisymm (UInt8.not_lt.mp hngt) (UInt8.not_lt.mp hnlt)
          subst hab
          rcases ih bs (Nat.succ.inj h) with ⟨hc, ho⟩ | ⟨hc, ho⟩ | ⟨hc, ho⟩
          · exact Or.inl ⟨hc, List.cons_lt_cons_iff.mpr (Or.inr ⟨rfl, ho⟩)⟩
          · exact Or.inr (Or.inl ⟨hc, congrArg (a :: ·) ho⟩)
          · exact Or.inr (Or.inr ⟨hc, List.cons_lt_cons_iff.mpr (Or.inr ⟨rfl, ho⟩)⟩)


theorem macCompare_spec (a b : MacAddress) :
    macCompare a b = -1 ∧ a.toList < b.toList ∨ macCompare a b = 0 ∧ a = b ∨
      macCompare a b = 1 ∧ b.toList < a.toList := by
  rcases bytesCompare_spec a.toList b.toList (by rw [a.length_toList, b.length_toList]) with
    h | h | h
  · exact Or.inl h
  · exact Or.inr (Or.inl ⟨h.1, Memory.FixedBytes.ext_iff'.mpr h.2⟩)
  · exact Or.inr (Or.inr h)

theorem macCompare_neg_iff {a b : MacAddress} : macCompare a b < 0 ↔ a.toList < b.toList := by
  rcases macCompare_spec a b with ⟨hc, ho⟩ | ⟨hc, rfl⟩ | ⟨hc, ho⟩
  · exact iff_of_true (by omega) ho
  · exact iff_of_false (by omega) (List.lt_irrefl _)
  · exact iff_of_false (by omega) fun h => List.lt_irrefl _ (List.lt_trans h ho)

theorem macCompare_eq_zero_iff {a b : MacAddress} : macCompare a b = 0 ↔ a = b := by
  rcases macCompare_spec a b with ⟨hc, ho⟩ | ⟨hc, rfl⟩ | ⟨hc, ho⟩
  · exact iff_of_false (by omega) fun h => List.lt_irrefl _ (h ▸ ho)
  · exact iff_of_true hc rfl
  · exact iff_of_false (by omega) fun h => List.lt_irrefl _ (h ▸ ho)

theorem macCompare_pos_iff {a b : MacAddress} : 0 < macCompare a b ↔ b.toList < a.toList := by
  rcases macCompare_spec a b with ⟨hc, ho⟩ | ⟨hc, rfl⟩ | ⟨hc, ho⟩
  · exact iff_of_false (by omega) fun h => List.lt_irrefl _ (List.lt_trans h ho)
  · exact iff_of_false (by omega) (List.lt_irrefl _)
  · exact iff_of_true (by omega) ho

/-- The two comparators of the cache fit each other. -/
theorem fits_macCompare : RbTree.Fits rbtreeMacCompare rbtreeValueCompare where
  sign key a := by
    rcases macCompare_spec key a.macAddress with ⟨hc, -⟩ | ⟨hc, -⟩ | ⟨hc, -⟩
    · exact Or.inl hc
    · exact Or.inr (Or.inl hc)
    · exact Or.inr (Or.inr hc)
  order key a b hab hb := by
    have hab := macCompare_neg_iff.mp hab
    rcases macCompare_spec key b.macAddress with ⟨hc, -⟩ | ⟨-, rfl⟩ | ⟨-, ho⟩
    · rw [rbtreeValueCompare, hc] at hb
      omega
    · have hpos := macCompare_pos_iff.mpr hab
      rcases macCompare_spec b.macAddress a.macAddress with ⟨hc, -⟩ | ⟨hc, -⟩ | ⟨hc, -⟩
      · omega
      · omega
      · exact hc
    · have hpos := macCompare_pos_iff.mpr (List.lt_trans hab ho)
      rcases macCompare_spec key a.macAddress with ⟨hc, -⟩ | ⟨hc, -⟩ | ⟨hc, -⟩
      · omega
      · omega
      · exact hc

namespace RbTree

open RedBlack CTree

/-- **The searches are exact.** The look-up answers the node that is equal to the key, the search
for a lower bound the first one that is not smaller; and the comparators of the cache fit each other
and follow the lexicographic order of the bytes of the addresses. -/
theorem search_exact {α κ : Type} [DecidableEq α] {t : RbTree α} {T : CTree α}
    {compare : α → α → Int} {valueCompare : κ → α → Int} (h : IsTree t T)
    (hs : Sorted compare T) (hfits : Fits compare valueCompare) (key : κ) {fuel : Nat}
    (hf : T.toList.length < fuel) :
    (∃ found, t.lookup valueCompare key fuel t.root = some found ∧
      ∀ n, found = some n ↔ n ∈ T.toList ∧ valueCompare key n = 0) ∧
    (∃ found, t.findFirstLargerEqual valueCompare key fuel none t.root = some found ∧
      (∀ n, found = some n ↔ ∃ pre post, T.toList = pre ++ n :: post ∧ valueCompare key n ≤ 0 ∧
        ∀ a ∈ pre, 0 < valueCompare key a) ∧
      (found = none ↔ ∀ n ∈ T.toList, 0 < valueCompare key n)) ∧
    Fits rbtreeMacCompare rbtreeValueCompare ∧
    ∀ a b : MacAddress, macCompare a b = -1 ∧ a.toList < b.toList ∨ macCompare a b = 0 ∧ a = b ∨
      macCompare a b = 1 ∧ b.toList < a.toList := by
  have hheight : T.height < fuel := Nat.lt_of_le_of_lt (height_le_length T) hf
  refine ⟨⟨_, h.root ▸ lookup_spec hfits h.holds hs hheight, ?_⟩,
    ⟨_, h.root ▸ findFirstLargerEqual_spec hfits h.holds hs hheight none, ?_, ?_⟩,
    fits_macCompare, macCompare_spec⟩
  · intro n
    constructor
    · intro hfound
      have hzero := List.find?_some hfound
      exact ⟨List.mem_of_find?_eq_some hfound, of_decide_eq_true hzero⟩
    · rintro ⟨hn, hzero⟩
      cases hfound : T.toList.find? (valueCompare key · = 0) with
      | none => exact absurd hzero (by simpa using List.find?_eq_none.mp hfound n hn)
      | some m =>
        -- no two nodes are equal to the key
        obtain ⟨hm, pre, post, hl, hpre⟩ := List.find?_eq_some_iff_append.mp hfound
        rw [Sorted, hl, List.pairwise_append, List.pairwise_cons] at hs
        rw [hl, List.mem_append, List.mem_cons] at hn
        rcases hn with hn | rfl | hn
        · exact absurd hzero (by simpa using hpre n hn)
        · rfl
        · have hneg := hfits.neg (hs.2.1.1 n hn) (Int.le_of_eq (of_decide_eq_true hm))
          omega
  · intro n
    rw [Option.or_none, List.find?_eq_some_iff_append]
    simp only [decide_eq_true_eq, Bool.not_eq_true', decide_eq_false_iff_not, not_le]
    constructor
    · rintro ⟨hn, pre, post, hl, hpre⟩
      exact ⟨pre, post, hl, hn, hpre⟩
    · rintro ⟨pre, post, hl, hn, hpre⟩
      exact ⟨hn, pre, post, hl, hpre⟩
  · rw [Option.or_none, List.find?_eq_none]
    simp only [decide_eq_true_eq, not_le]

namespace Scenario

/-- The order of the numbers. -/
def natCompare (a b : Nat) : Int := if a < b then -1 else if a > b then 1 else 0

/-- A node stands for an even number, so there are keys between the nodes. -/
def evenCompare (key n : Nat) : Int := natCompare key (2 * n)

theorem fits_evenCompare : Fits natCompare evenCompare := by
  refine ⟨?_, ?_⟩
  · intro key a
    unfold IsSign evenCompare natCompare
    split
    · exact Or.inl rfl
    · split
      · exact Or.inr (Or.inr rfl)
      · exact Or.inr (Or.inl rfl)
  · intro key a b hab hb
    unfold evenCompare natCompare at *
    grind

end Scenario

open RbTree.Scenario in
theorem search_exact_between :
    threeNodes.lookup evenCompare 3 4 threeNodes.root = some none ∧
      threeNodes.findFirstLargerEqual evenCompare 3 4 none threeNodes.root = some (some 2) ∧
      threeNodes.findFirstLargerEqual evenCompare 7 4 none threeNodes.root = some none := by
  have hsize : shape.toList.length < 4 := by decide
  have hsorted : Sorted natCompare shape := by
    unfold Sorted
    decide
  obtain ⟨⟨found, hfound, hequal⟩, ⟨first, hfirst, hlarger, -⟩, -⟩ :=
    search_exact isTree_threeNodes hsorted fits_evenCompare 3 hsize
  obtain ⟨-, ⟨last, hlast, -, hnone⟩, -⟩ :=
    search_exact isTree_threeNodes hsorted fits_evenCompare 7 hsize
  obtain rfl : found = none := by
    by_contra hne
    obtain ⟨n, hn⟩ := Option.ne_none_iff_exists'.mp hne
    obtain ⟨hmem, hzero⟩ := (hequal n).mp hn
    have hodd : ∀ n ∈ shape.toList, evenCompare 3 n ≠ 0 := by decide
    exact hodd n hmem hzero
  obtain rfl : first = some 2 := (hlarger 2).mpr ⟨[1], [3], rfl, by decide, by decide⟩
  obtain rfl : last = none := hnone.mpr (by decide)
  exact ⟨hfound, hfirst, hlast⟩

end RbTree

end U80211
