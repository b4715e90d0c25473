/-!
# Processing a list in blocks

`absorb n f s l` feeds the whole blocks of `n` elements of `l` to `f`, one after another, and gives
back the state and the elements that are left. A context that keeps the state and these elements can
take a list piece by piece: `absorb_append` says that the next piece goes behind what is left.
-/

namespace Blocks

universe u v

variable {σ : Type u} {α : Type v} (n : Nat) (f : σ → List α → σ)

/-- Feed the whole blocks to `f`; what is left. -/
def absorb (s : σ) (l : List α) : σ × List α :=
  if 0 < n ∧ n ≤ l.length then absorb (f s (l.take n)) (l.drop n) else (s, l)
termination_by l.length
decreasing_by
  rw [List.length_drop]
  omega

variable {n f} {s : σ} {l : List α}

theorem absorb_of_lt (h : l.length < n) : absorb n f s l = (s, l) := by
  rw [absorb, if_neg (by omega)]

theorem absorb_of_le (hn : 0 < n) (h : n ≤ l.length) :
    absorb n f s l = absorb n f (f s (l.take n)) (l.drop n) := by
  rw [absorb, if_pos ⟨hn, h⟩]

/-- One block and what follows it. -/
theorem absorb_block (hn : 0 < n) {block : List α} (hblock : block.length = n) :
    absorb n f s (block ++ l) = absorb n f (f s block) l := by
  rw [absorb_of_le hn (by rw [List.length_append]; omega), List.take_left' hblock,
    List.drop_left' hblock]

/-- What is left is shorter than a block. -/
theorem length_absorb (hn : 0 < n) (s : σ) (l : List α) :
    (absorb n f s l).2.length = l.length % n := by
  induction hl : l.length using Nat.strongRecOn generalizing s l with
  | ind m ih =>
    by_cases h : n ≤ m
    · rw [absorb_of_le hn (by omega),
        ih (m - n) (by omega) _ _ (by rw [List.length_drop, hl]), ← Nat.mod_eq_sub_mod h]
    · rw [absorb_of_lt (by omega), hl, Nat.mod_eq_of_lt (by omega)]

/-- **A list can be fed in two pieces**: the second one goes behind what the first one has left. -/
theorem absorb_append (hn : 0 < n) (s : σ) (l l' : List α) :
    absorb n f s (l ++ l') = absorb n f (absorb n f s l).1 ((absorb n f s l).2 ++ l') := by
  induction hl : l.length using Nat.strongRecOn generalizing s l with
  | ind m ih =>
    by_cases h : n ≤ m
    · have hblock : (l.take n).length = n := by
        rw [List.length_take]
        omega
      rw [absorb_of_le hn (l := l) (by omega),
        ← ih (m - n) (by omega) _ _ (by rw [List.length_drop, hl])]
      rw [← absorb_block hn hblock, ← List.append_assoc, List.take_append_drop]
    · rw [absorb_of_lt (l := l) (by omega)]

end Blocks
