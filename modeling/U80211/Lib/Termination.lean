import Mathlib.Algebra.BigOperators.Group.Finset.Basic
import Mathlib.Algebra.BigOperators.Intervals
import U80211.Lib.Lts

/-!
# Systems that come to rest

Some actions of a system are internal: they go on with what has been begun, and wait for nobody
outside. When every internal step makes a weight smaller, internal steps alone come to an end, in
whatever order they are taken.

* `InternalRun.length_add_le`: the weight bounds the number of steps
* `exists_halted`: from every state internal steps lead to one that has none
* `sum_map_set`, `sum_update`: the weight of a collection when one of its members changes
-/

namespace Lts

universe u v

variable {σ : Type u} {α : Type v}

/-- The runs from a state that take internal actions only. -/
structure InternalRun (step : α → σ → Option σ) (internal : α → Prop) (s : σ)
    (τ : List (Transition σ α)) (s' : σ) : Prop where
  run : Run step s τ s'
  internal : ∀ t ∈ τ, internal t.action

/-- No internal action is enabled. -/
def Halted (step : α → σ → Option σ) (internal : α → Prop) (s : σ) : Prop :=
  ∀ a, internal a → step a s = none

variable {step : α → σ → Option σ} {internal : α → Prop} {init s s' s₁ : σ}
  {τ τ' : List (Transition σ α)} {μ : σ → Nat}

theorem InternalRun.nil : InternalRun step internal s [] s :=
  ⟨.nil, fun _ ht => absurd ht List.not_mem_nil⟩

theorem InternalRun.append (h : InternalRun step internal s τ s₁)
    (h' : InternalRun step internal s₁ τ' s') : InternalRun step internal s (τ ++ τ') s' := by
  refine ⟨h.run.append h'.run, fun t ht => ?_⟩
  rcases List.mem_append.mp ht with ht | ht
  · exact h.internal t ht
  · exact h'.internal t ht

theorem InternalRun.single {a : α} (ha : internal a) (hs : step a s = some s') :
    InternalRun step internal s [⟨s, a, s'⟩] s' := by
  refine ⟨Run.nil.snoc hs, fun t ht => ?_⟩
  rw [List.mem_singleton] at ht
  rw [ht]
  exact ha

/-- Every step makes the weight smaller, in the states that can be reached. -/
def Decreases (step : α → σ → Option σ) (internal : α → Prop) (init : σ) (μ : σ → Nat) : Prop :=
  ∀ s a s', Reachable step init s → internal a → step a s = some s' → μ s' < μ s

/-- **The weight of a state bounds the number of internal steps from there.** -/
theorem InternalRun.length_add_le (hμ : Decreases step internal init μ)
    (hs : Reachable step init s) (h : InternalRun step internal s τ s') :
    τ.length + μ s' ≤ μ s := by
  obtain ⟨hrun, hint⟩ := h
  induction hrun with
  | nil => simp
  | @snoc τ s₁ s' a hr hstep ih =>
    have hbefore := ih fun t ht => hint t (List.mem_append_left _ ht)
    have ha : internal a := hint ⟨s₁, a, s'⟩ (by simp)
    have hlt := hμ s₁ a s' (hs.run hr) ha hstep
    rw [List.length_append, List.length_singleton]
    omega

/-- **From every state internal steps lead to one that has none.** -/
theorem exists_halted (hμ : Decreases step internal init μ) (hs : Reachable step init s) :
    ∃ τ s', InternalRun step internal s τ s' ∧ Halted step internal s' := by
  induction hn : μ s using Nat.strong_induction_on generalizing s with
  | _ n ih =>
    by_cases hstep : ∃ a s₁, internal a ∧ step a s = some s₁
    · obtain ⟨a, s₁, ha, hs₁⟩ := hstep
      have hfirst : InternalRun step internal s _ s₁ := .single ha hs₁
      obtain ⟨τ, s', hrest, hhalted⟩ :=
        ih (μ s₁) (hn ▸ hμ s a s₁ hs ha hs₁) (hs.run hfirst.run) rfl
      exact ⟨_, s', hfirst.append hrest, hhalted⟩
    · refine ⟨[], s, .nil, fun a ha => ?_⟩
      rw [Option.eq_none_iff_forall_ne_some]
      exact fun s₁ hs₁ => hstep ⟨a, s₁, ha, hs₁⟩

/-! ## Weights -/

section Weights

variable {β : Type} {w : β → Nat}

/-- A member of a list changes. -/
theorem sum_map_set {l : List β} {i : Nat} {b c : β} (hb : l[i]? = some b) :
    ((l.set i c).map w).sum + w b = (l.map w).sum + w c := by
  induction l generalizing i with
  | nil => cases hb
  | cons d l ih =>
    cases i with
    | zero =>
      cases hb
      simp only [List.set_cons_zero, List.map_cons, List.sum_cons]
      omega
    | succ i =>
      have hrest := ih hb
      simp only [List.set_cons_succ, List.map_cons, List.sum_cons]
      omega

/-- The value of a function changes at one place. -/
theorem sum_update {f : Nat → β} {n k : Nat} (hk : k < n) (b : β) :
    (∑ j ∈ Finset.range n, w (Function.update f k b j)) + w (f k) =
      (∑ j ∈ Finset.range n, w (f j)) + w b := by
  have hmem : k ∈ Finset.range n := Finset.mem_range.mpr hk
  have hrest : ∑ j ∈ (Finset.range n).erase k, w (Function.update f k b j) =
      ∑ j ∈ (Finset.range n).erase k, w (f j) :=
    Finset.sum_congr rfl fun j hj => by rw [Function.update_of_ne (Finset.ne_of_mem_erase hj)]
  rw [← Finset.sum_erase_add _ _ hmem, ← Finset.sum_erase_add _ (fun j => w (f j)) hmem, hrest,
    Function.update_self]
  omega

end Weights

end Lts
