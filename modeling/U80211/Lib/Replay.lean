import Mathlib.Data.List.Basic
import Mathlib.Order.Lattice

/-!
# Receivers that take only what is newer

A packet has a number. The receiver remembers the largest number that it has taken, and only a
packet with a larger one passes.

* `fresh`: the packets that pass
* `fresh_concat`: whether one more packet passes
* `pairwise_fresh`: **what passes is in the order of the numbers**, each of them once
* `fresh_of_pairwise`: everything passes that comes in this order
-/

namespace Replay

universe u v

variable {α : Type u} {ν : Type v} [LinearOrder ν] {number : α → ν} {last : ν} {x : α} {xs : List α}

/-- The packets that pass. -/
def fresh (number : α → ν) : ν → List α → List α
  | _, [] => []
  | last, x :: xs =>
    if last < number x then x :: fresh number (number x) xs else fresh number last xs

/-- The largest number so far. -/
def largest (number : α → ν) (last : ν) (xs : List α) : ν :=
  xs.foldl (fun last x => max last (number x)) last

@[simp] theorem fresh_nil : fresh number last [] = [] := rfl

theorem fresh_cons_of_lt (h : last < number x) :
    fresh number last (x :: xs) = x :: fresh number (number x) xs := if_pos h

theorem fresh_cons_of_le (h : number x ≤ last) :
    fresh number last (x :: xs) = fresh number last xs := if_neg (not_lt.mpr h)

@[simp] theorem largest_nil : largest number last [] = last := rfl

@[simp] theorem largest_cons :
    largest number last (x :: xs) = largest number (max last (number x)) xs := rfl

@[simp] theorem largest_concat :
    largest number last (xs ++ [x]) = max (largest number last xs) (number x) := by
  simp [largest]

/-- One more packet passes when it is newer than all that have passed. -/
theorem fresh_concat : fresh number last (xs ++ [x]) =
    fresh number last xs ++ if largest number last xs < number x then [x] else [] := by
  induction xs generalizing last with
  | nil => rfl
  | cons y ys ih =>
    rw [List.cons_append, largest_cons]
    rcases lt_or_ge last (number y) with h | h
    · rw [fresh_cons_of_lt h, fresh_cons_of_lt h, ih, max_eq_right h.le, List.cons_append]
    · rw [fresh_cons_of_le h, fresh_cons_of_le h, ih, max_eq_left h]

theorem fresh_sublist : (fresh number last xs).Sublist xs := by
  induction xs generalizing last with
  | nil => exact List.Sublist.refl _
  | cons y ys ih =>
    rcases lt_or_ge last (number y) with h | h
    · rw [fresh_cons_of_lt h]
      exact ih.cons_cons y
    · rw [fresh_cons_of_le h]
      exact ih.cons y

theorem lt_of_mem_fresh : ∀ x ∈ fresh number last xs, last < number x := by
  induction xs generalizing last with
  | nil => exact fun x hx => absurd hx List.not_mem_nil
  | cons y ys ih =>
    intro x hx
    rcases lt_or_ge last (number y) with h | h
    · rw [fresh_cons_of_lt h, List.mem_cons] at hx
      rcases hx with rfl | hx
      · exact h
      · exact h.trans (ih x hx)
    · rw [fresh_cons_of_le h] at hx
      exact ih x hx

/-- **What passes is in the order of the numbers.** -/
theorem pairwise_fresh :
    (fresh number last xs).Pairwise fun x y => number x < number y := by
  induction xs generalizing last with
  | nil => exact List.Pairwise.nil
  | cons y ys ih =>
    rcases lt_or_ge last (number y) with h | h
    · rw [fresh_cons_of_lt h]
      exact .cons lt_of_mem_fresh ih
    · rw [fresh_cons_of_le h]
      exact ih

/-- Everything passes that comes in the order of the numbers. -/
theorem fresh_of_pairwise (h : xs.Pairwise fun x y => number x < number y)
    (hlast : ∀ x ∈ xs, last < number x) : fresh number last xs = xs := by
  induction xs generalizing last with
  | nil => rfl
  | cons y ys ih =>
    rw [List.pairwise_cons] at h
    rw [fresh_cons_of_lt (hlast y List.mem_cons_self), ih h.2 h.1]

/-- Only the order of the numbers matters. -/
theorem fresh_congr {ν' : Type v} [LinearOrder ν'] {number' : α → ν'} {last' : ν'}
    (hnumber : ∀ x y, number x < number y ↔ number' x < number' y)
    (hlast : ∀ x, last < number x ↔ last' < number' x) :
    fresh number last xs = fresh number' last' xs := by
  induction xs generalizing last last' with
  | nil => rfl
  | cons y ys ih =>
    rcases lt_or_ge last (number y) with h | h
    · rw [fresh_cons_of_lt h, fresh_cons_of_lt ((hlast y).mp h), ih (hnumber y)]
    · have h' : number' y ≤ last' := not_lt.mp fun hlt => not_lt.mpr h ((hlast y).mpr hlt)
      rw [fresh_cons_of_le h, fresh_cons_of_le h', ih hlast]

/-- Positions in increasing order pick a sublist. -/
theorem filterMap_getElem?_sublist {l : List α} {is : List Nat} (h : is.Pairwise (· < ·)) :
    (is.filterMap fun i => l[i]?).Sublist l := by
  have hdrop (n : Nat) (hn : ∀ i ∈ is, n ≤ i) :
      (is.filterMap fun i => l[i]?).Sublist (l.drop n) := by
    induction is generalizing n with
    | nil => exact List.nil_sublist _
    | cons i is ih =>
      rw [List.pairwise_cons] at h
      have htail := ih h.2 (i + 1) fun j hj => h.1 j hj
      have hle := List.drop_sublist_drop_left l (hn i List.mem_cons_self)
      rw [List.filterMap_cons]
      rcases lt_or_ge i l.length with hi | hi
      · rw [List.getElem?_eq_getElem hi]
        rw [List.drop_eq_getElem_cons hi] at hle
        exact (htail.cons_cons _).trans hle
      · rw [List.getElem?_eq_none hi]
        exact htail.trans ((List.drop_sublist_drop_left l (Nat.le_succ i)).trans hle)
  exact hdrop 0 fun _ _ => Nat.zero_le _

end Replay
