import Mathlib.Data.List.Chain
import Mathlib.Data.List.Forall2

/-!
# Receivers that drop retransmissions

A packet has a key, and it may be marked as sent again. The receiver remembers the key of the last
packet, and a marked packet with this key does not pass.

* `passing`: the packets that pass
* `Bursts`: every frame is sent as a burst of copies, of which all but the first are marked
* `Bursts.passing`: **one copy of every frame passes, in order**
-/

namespace Retransmission

universe u v

variable {α : Type u} {κ : Type v} [DecidableEq κ] {key : α → κ} {marked : α → Bool}

/-- The packet is the last one, sent again. -/
def repeats (key : α → κ) (marked : α → Bool) (last : Option κ) (x : α) : Bool :=
  marked x && decide (last = some (key x))

theorem repeats_iff {last : Option κ} {x : α} :
    repeats key marked last x = true ↔ marked x = true ∧ last = some (key x) := by
  simp [repeats]

/-- The key of the last packet. -/
def remembered (key : α → κ) (last : Option κ) (xs : List α) : Option κ :=
  xs.foldl (fun _ x => some (key x)) last

omit [DecidableEq κ] in
@[simp] theorem remembered_nil {last : Option κ} : remembered key last [] = last := rfl

omit [DecidableEq κ] in
@[simp] theorem remembered_cons {last : Option κ} {x : α} {xs : List α} :
    remembered key last (x :: xs) = remembered key (some (key x)) xs := rfl

omit [DecidableEq κ] in
@[simp] theorem remembered_concat {last : Option κ} {xs : List α} {x : α} :
    remembered key last (xs ++ [x]) = some (key x) := by
  simp [remembered]

/-- The packets that pass. -/
def passing (key : α → κ) (marked : α → Bool) : Option κ → List α → List α
  | _, [] => []
  | last, x :: xs =>
    if repeats key marked last x then passing key marked (some (key x)) xs
    else x :: passing key marked (some (key x)) xs

@[simp] theorem passing_nil {last : Option κ} : passing key marked last [] = [] := rfl

theorem passing_cons_of_repeats {last : Option κ} {x : α} {xs : List α}
    (h : repeats key marked last x = true) :
    passing key marked last (x :: xs) = passing key marked (some (key x)) xs := by
  simp [passing, h]

theorem passing_cons_of_not_repeats {last : Option κ} {x : α} {xs : List α}
    (h : repeats key marked last x = false) :
    passing key marked last (x :: xs) = x :: passing key marked (some (key x)) xs := by
  simp [passing, h]

/-- Whether one more packet passes depends on what is remembered of those before it. -/
theorem passing_concat {last : Option κ} {xs : List α} {x : α} :
    passing key marked last (xs ++ [x]) = passing key marked last xs ++
      if repeats key marked (remembered key last xs) x then [] else [x] := by
  induction xs generalizing last with
  | nil => rfl
  | cons y ys ih =>
    rw [List.cons_append, remembered_cons]
    cases hy : repeats key marked last y with
    | true => rw [passing_cons_of_repeats hy, passing_cons_of_repeats hy, ih]
    | false =>
      rw [passing_cons_of_not_repeats hy, passing_cons_of_not_repeats hy, ih, List.cons_append]

/-! ## Bursts -/

/-- The second list is the first one as it is sent: for every frame a burst of one or more copies,
of which all but the first are marked. -/
inductive Bursts (marked : α → Bool) (copy : α → α → Prop) : List α → List α → Prop
  | nil : Bursts marked copy [] []
  | burst {f x : α} {again fs xs : List α} (hfirst : copy f x)
      (hagain : ∀ y ∈ again, copy f y ∧ marked y = true) (h : Bursts marked copy fs xs) :
      Bursts marked copy (f :: fs) (x :: (again ++ xs))

variable {copy : α → α → Prop} {fs xs : List α}

/-- The first packet is a copy of the first frame. -/
theorem Bursts.head (h : Bursts marked copy fs xs) : ∀ x ∈ xs.head?, ∃ f ∈ fs.head?, copy f x := by
  cases h with
  | nil => simp
  | @burst f x _ _ _ hfirst => simp [hfirst]

/-- Every packet is a copy of a frame. -/
theorem Bursts.exists_copy (h : Bursts marked copy fs xs) : ∀ x ∈ xs, ∃ f ∈ fs, copy f x := by
  induction h with
  | nil => simp
  | @burst f x again fs xs hfirst hagain _ ih =>
    intro y hy
    rw [List.mem_cons, List.mem_append] at hy
    rcases hy with rfl | hy | hy
    · exact ⟨f, by simp, hfirst⟩
    · exact ⟨f, by simp, (hagain y hy).1⟩
    · obtain ⟨g, hg, hgy⟩ := ih y hy
      exact ⟨g, List.mem_cons_of_mem _ hg, hgy⟩

/-- The copies of a burst after its first one do not pass. -/
theorem passing_again {k : κ} {again : List α} (h : ∀ y ∈ again, key y = k ∧ marked y = true) :
    passing key marked (some k) (again ++ xs) = passing key marked (some k) xs := by
  induction again with
  | nil => rfl
  | cons y ys ih =>
    rw [List.forall_mem_cons] at h
    obtain ⟨⟨rfl, hy⟩, hys⟩ := h
    rw [List.cons_append, passing_cons_of_repeats (repeats_iff.mpr ⟨hy, rfl⟩), ih hys]

/-- **One copy of every frame passes, in order**, when neighbouring frames have different keys and
the first packet does not repeat what is remembered at the start. -/
theorem Bursts.passing (hcopy : ∀ f x, copy f x → key x = key f) (h : Bursts marked copy fs xs)
    (hne : fs.IsChain fun f g => key f ≠ key g) {last : Option κ}
    (hfirst : ∀ x ∈ xs.head?, repeats key marked last x = false) :
    List.Forall₂ copy fs (passing key marked last xs) := by
  induction h generalizing last with
  | nil => exact .nil
  | @burst f x again fs xs hx hagain h ih =>
    have hstart : repeats key marked last x = false := hfirst x rfl
    have hkeys : ∀ y ∈ again, key y = key x ∧ marked y = true := by
      intro y hy
      exact ⟨(hcopy f y (hagain y hy).1).trans (hcopy f x hx).symm, (hagain y hy).2⟩
    rw [passing_cons_of_not_repeats hstart, passing_again hkeys]
    refine .cons hx (ih hne.tail ?_)
    -- the next burst is of another key
    intro y hy
    obtain ⟨g, hg, hgy⟩ := h.head y hy
    have hkey : key x ≠ key y := by
      rw [hcopy f x hx, hcopy g y hgy]
      exact hne.rel_head? hg
    simp [repeats, hkey]

end Retransmission
