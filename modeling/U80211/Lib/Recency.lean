import Mathlib.Data.List.Nodup

/-!
# Finite maps ordered by recency

A history of a finite map is a list of steps: a key is bound, it is unbound, or its value changes
in place. `live` are the bindings that a history leaves, in the order in which they were made, and
`recent` the same with the last one first.
-/

namespace Recency

variable {ι ν : Type} [DecidableEq ι]

/-- A step in the history of a map. -/
inductive Step (ι ν : Type) where
  | put (i : ι) (v : ν)
  | delete (i : ι)
  | modify (i : ι) (f : ν → ν)

/-- The step ends what was bound to the key. -/
def Step.rebinds (i : ι) : Step ι ν → Bool
  | .put j _ => j = i
  | .delete j => j = i
  | .modify _ _ => false

/-- What the step makes of the value of a key. -/
def Step.apply (i : ι) (v : ν) : Step ι ν → ν
  | .modify j f => if j = i then f v else v
  | _ => v

/-- What the steps after a binding make of its value. -/
def current (i : ι) (v : ν) (later : List (Step ι ν)) : ν :=
  later.foldl (Step.apply i) v

/-- A binding stays when no later step is about its key. -/
def live : List (Step ι ν) → List (ι × ν)
  | [] => []
  | .put i v :: later =>
    if later.any (Step.rebinds i) then live later else (i, current i v later) :: live later
  | _ :: later => live later

/-- The bindings that the history leaves, the last one first. -/
def recent (steps : List (Step ι ν)) : List (ι × ν) := (live steps).reverse

@[simp] theorem recent_nil : recent ([] : List (Step ι ν)) = [] := rfl

/-! ## One more step -/

theorem current_concat (i : ι) (v : ν) (later : List (Step ι ν)) (e : Step ι ν) :
    current i v (later ++ [e]) = e.apply i (current i v later) := by
  simp [current]

/-- A step takes out the binding of its key, or changes its value, and adds its own. -/
theorem live_concat (steps : List (Step ι ν)) (e : Step ι ν) :
    live (steps ++ [e]) =
      ((live steps).filter fun b => !e.rebinds b.1).map (fun b => (b.1, e.apply b.1 b.2)) ++
        live [e] := by
  induction steps with
  | nil => rfl
  | cons e' steps ih =>
    cases e' with
    | put i v =>
      rw [List.cons_append, live, live, List.any_append, ih, current_concat]
      by_cases hany : steps.any (Step.rebinds i)
      · simp [hany]
      · by_cases he : e.rebinds i <;> simp [hany, he]
    | delete i => exact ih
    | modify i f => exact ih

/-- A key that is bound becomes the most recent one. -/
theorem recent_put (i : ι) (v : ν) (steps : List (Step ι ν)) :
    recent (steps ++ [.put i v]) = (i, v) :: (recent steps).filter (·.1 ≠ i) := by
  simp [recent, live_concat, live, current, Step.rebinds, Step.apply, eq_comm]

theorem recent_delete (i : ι) (steps : List (Step ι ν)) :
    recent (steps ++ [.delete i]) = (recent steps).filter (·.1 ≠ i) := by
  simp [recent, live_concat, live, Step.rebinds, Step.apply, eq_comm]

theorem recent_modify (i : ι) (f : ν → ν) (steps : List (Step ι ν)) :
    recent (steps ++ [.modify i f]) =
      (recent steps).map fun b => (b.1, if i = b.1 then f b.2 else b.2) := by
  simp [recent, live_concat, live, Step.rebinds, Step.apply]

/-! ## What is found first -/

/-- The history binds a key and the binding is still there: `v` is its value now, and `later` has
been done since. -/
structure Binds (steps : List (Step ι ν)) (i : ι) (v : ν) (later : List (Step ι ν)) : Prop where
  put : ∃ before v₀, steps = before ++ .put i v₀ :: later ∧ v = current i v₀ later
  kept : ∀ e ∈ later, e.rebinds i = false

theorem Binds.cons {steps later : List (Step ι ν)} {i : ι} {v : ν} (h : Binds steps i v later)
    (e : Step ι ν) : Binds (e :: steps) i v later where
  put := by
    obtain ⟨before, v₀, rfl, hv⟩ := h.put
    exact ⟨e :: before, v₀, rfl, hv⟩
  kept := h.kept

/-- The bindings that are left after one of them have been made after it. -/
theorem binds_of_live {steps : List (Step ι ν)} {l r : List (ι × ν)} {i : ι} {v : ν}
    (h : live steps = l ++ (i, v) :: r) : ∃ later, Binds steps i v later ∧ live later = r := by
  induction steps generalizing l with
  | nil => simp [live] at h
  | cons e steps ih =>
    have hskip : live steps = l ++ (i, v) :: r →
        ∃ later, Binds (e :: steps) i v later ∧ live later = r := by
      intro h
      obtain ⟨later, hbinds, hr⟩ := ih h
      exact ⟨later, hbinds.cons e, hr⟩
    cases e with
    | put j w =>
      rw [live] at h
      split at h
      · exact hskip h
      · next hany =>
        cases l with
        | nil =>
          obtain ⟨⟨rfl, rfl⟩, rfl⟩ := by simpa using h
          refine ⟨steps, ⟨⟨[], w, rfl, rfl⟩, ?_⟩, rfl⟩
          simpa using hany
        | cons b l =>
          obtain ⟨later, hbinds, hr⟩ := ih (List.cons_eq_cons.mp h).2
          exact ⟨later, hbinds.cons _, hr⟩
    | delete j => exact hskip h
    | modify j f => exact hskip h

/-- What has been bound last, among the bindings that are still there and have a property. -/
def Latest (steps : List (Step ι ν)) (p : ι × ν → Bool) : Option (ι × ν) → Prop
  | some b =>
    p b = true ∧ ∃ later, Binds steps b.1 b.2 later ∧ ∀ b' ∈ live later, p b' = false
  | none => ∀ b ∈ live steps, p b = false

/-- **A search from the front finds what has been bound last.** -/
theorem latest_find? (steps : List (Step ι ν)) (p : ι × ν → Bool) :
    Latest steps p ((recent steps).find? p) := by
  cases h : (recent steps).find? p with
  | none => simpa [Latest, recent] using h
  | some b =>
    obtain ⟨hp, l, r, hsplit, hnone⟩ := List.find?_eq_some_iff_append.mp h
    rw [recent, List.reverse_eq_iff, List.reverse_append, List.reverse_cons, List.append_assoc,
      List.singleton_append] at hsplit
    obtain ⟨later, hbinds, hlater⟩ := binds_of_live hsplit
    refine ⟨hp, later, hbinds, fun b' hb' => ?_⟩
    rw [hlater, List.mem_reverse] at hb'
    simpa using hnone b' hb'

/-! ## Keys -/

/-- A key that is still bound has been bound. -/
theorem rebinds_of_mem_live {steps : List (Step ι ν)} {b : ι × ν} (hb : b ∈ live steps) :
    steps.any (Step.rebinds b.1) = true := by
  obtain ⟨l, r, hsplit⟩ := List.append_of_mem hb
  obtain ⟨later, ⟨⟨before, v₀, rfl, -⟩, -⟩, -⟩ := binds_of_live hsplit
  simp [Step.rebinds]

/-- No key is bound twice. -/
theorem nodup_recent (steps : List (Step ι ν)) : ((recent steps).map Prod.fst).Nodup := by
  rw [recent, List.map_reverse, List.nodup_reverse]
  induction steps with
  | nil => exact List.nodup_nil
  | cons e steps ih =>
    cases e with
    | put i v =>
      rw [live]
      split
      · exact ih
      · next hany =>
        refine List.nodup_cons.mpr ⟨fun hi => ?_, ih⟩
        obtain ⟨b, hb, rfl⟩ := List.mem_map.mp hi
        exact hany (rebinds_of_mem_live hb)
    | delete i => exact ih
    | modify i f => exact ih

end Recency
