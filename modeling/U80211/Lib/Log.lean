import Mathlib.Algebra.Ring.Nat
import Mathlib.Order.Bounds.Defs

/-!
# Logs of several objects

A log is a list of events in the order in which they happened, each with the object that it is
about. `Log.of` is what the log says about one of the objects.
-/

namespace Log

variable {ι ν : Type} [DecidableEq ι]

/-- The events of one object, in order. -/
def of (log : List (ι × ν)) (o : ι) : List ν :=
  log.filterMap fun e => if e.1 = o then some e.2 else none

@[simp] theorem of_nil (o : ι) : of ([] : List (ι × ν)) o = [] := rfl

theorem of_append (l m : List (ι × ν)) (o : ι) : of (l ++ m) o = of l o ++ of m o :=
  List.filterMap_append

theorem of_concat_self (l : List (ι × ν)) (o : ι) (n : ν) :
    of (l ++ [(o, n)]) o = of l o ++ [n] := by
  simp [of]

theorem of_concat_ne {o o' : ι} (h : o' ≠ o) (l : List (ι × ν)) (n : ν) :
    of (l ++ [(o', n)]) o = of l o := by
  simp [of, h]

theorem mem_of_iff {l : List (ι × ν)} {o : ι} {n : ν} : n ∈ of l o ↔ (o, n) ∈ l := by
  rw [of, List.mem_filterMap]
  constructor
  · rintro ⟨⟨o', n'⟩, hm, he⟩
    by_cases ho : o' = o
    · rw [if_pos ho, Option.some.injEq] at he
      rwa [← ho, ← he]
    · rw [if_neg ho] at he
      cases he
  · intro hm
    exact ⟨_, hm, if_pos rfl⟩

/-- An object that the log does not name has no events. -/
theorem of_eq_nil {l : List (ι × ν)} {o : ι} (h : ∀ n, (o, n) ∉ l) : of l o = [] := by
  rw [List.eq_nil_iff_forall_not_mem]
  intro n hn
  exact h n (mem_of_iff.mp hn)

/-- A log has no event twice when none of its objects has one twice. -/
theorem nodup_of_forall_of {l : List (ι × ν)} (h : ∀ o, (of l o).Nodup) : l.Nodup := by
  induction l with
  | nil => exact List.nodup_nil
  | cons e l ih =>
    obtain ⟨o, n⟩ := e
    have hsplit : ∀ o', of ((o, n) :: l) o' = of [(o, n)] o' ++ of l o' :=
      fun o' => of_append [(o, n)] l o'
    rw [List.nodup_cons]
    refine ⟨?_, ih fun o' => ?_⟩
    · intro hin
      have hself := h o
      rw [hsplit, show of [(o, n)] o = [n] from of_concat_self [] o n, List.singleton_append,
        List.nodup_cons] at hself
      exact hself.1 (mem_of_iff.mpr hin)
    · have hrest := h o'
      rw [hsplit] at hrest
      exact (List.nodup_append.mp hrest).2.1

/-! ## Increasing numbers -/

/-- No number of an increasing list is above the last one. -/
theorem le_getLastD {a : Nat} {l : List Nat} (h : (a :: l).Pairwise (· < ·)) :
    ∀ n ∈ a :: l, n ≤ l.getLastD a := by
  induction l generalizing a with
  | nil => simp
  | cons b l ih =>
    obtain ⟨ha, hb⟩ := List.pairwise_cons.mp h
    intro n hn
    rw [List.getLastD_cons]
    rcases List.mem_cons.mp hn with rfl | hn
    · exact Nat.le_trans (Nat.le_of_lt (ha b List.mem_cons_self)) (ih hb b List.mem_cons_self)
    · exact ih hb n hn

/-- The last number of an increasing list is the largest one. -/
theorem isGreatest_getLastD {a : Nat} {l : List Nat} (h : (a :: l).Pairwise (· < ·)) :
    IsGreatest {n | n ∈ a :: l} (l.getLastD a) :=
  ⟨List.getLastD_mem_cons, le_getLastD h⟩

/-- A number above the last one keeps a list increasing. -/
theorem pairwise_lt_concat {a n : Nat} {l : List Nat} (h : (a :: l).Pairwise (· < ·))
    (hn : l.getLastD a < n) : (a :: (l ++ [n])).Pairwise (· < ·) := by
  rw [← List.cons_append, List.pairwise_append]
  refine ⟨h, List.pairwise_singleton _ _, ?_⟩
  intro x hx y hy
  rw [List.mem_singleton.mp hy]
  exact Nat.lt_of_le_of_lt (le_getLastD h x hx) hn

theorem getLastD_concat (a n : Nat) (l : List Nat) : (l ++ [n]).getLastD a = n := by
  simp

end Log
