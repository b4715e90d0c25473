/-!
# Transition systems given by a step function

A system is a state type, an action type and a step function that answers `none` for an
action that is not enabled. A run is the list of its transitions, each with the state before
and the state after, so that a theorem about histories speaks about members of that list.

* `Run.history`: what holds initially and is kept by every step, of a run and the state it ends in
* `Reachable.invariant`: the same for properties of the state alone
* `Run.forall_after_iff`: where every step keeps the property exactly when it meets the
  condition, a run keeps the property exactly when all of its steps do
* `Run.split`: a run up to one of its transitions is a run
* `Run.forall_event`, `Run.nodup_events`: what holds of all events of a run, and that there is none
  twice
* `Run.simulation`: where each step is matched by steps of another system that show the same
  events, so is each run
* `exec_run`: a list of actions that executes is a run
-/

namespace Lts

universe u v

/-- One transition of a run: the action and the states around it. -/
structure Transition (σ : Type u) (α : Type v) where
  before : σ
  action : α
  after : σ

variable {σ : Type u} {α : Type v}

/-- The runs from `init`, the latest transition last. -/
inductive Run (step : α → σ → Option σ) (init : σ) : List (Transition σ α) → σ → Prop
  | nil : Run step init [] init
  | snoc {τ : List (Transition σ α)} {s s' : σ} {a : α} :
      Run step init τ s → step a s = some s' → Run step init (τ ++ [⟨s, a, s'⟩]) s'

/-- The states some run ends in. -/
def Reachable (step : α → σ → Option σ) (init s : σ) : Prop := ∃ τ, Run step init τ s

variable {step : α → σ → Option σ} {init : σ}

theorem Run.reachable {τ : List (Transition σ α)} {s : σ} (h : Run step init τ s) :
    Reachable step init s := ⟨τ, h⟩

/-- A run goes on from the state it ends in. -/
theorem Run.append {τ τ' : List (Transition σ α)} {s s' : σ} (h : Run step init τ s)
    (h' : Run step s τ' s') : Run step init (τ ++ τ') s' := by
  induction h' with
  | nil => rwa [List.append_nil]
  | snoc _ hs ih =>
    rw [← List.append_assoc]
    exact ih.snoc hs

theorem Reachable.run {τ : List (Transition σ α)} {s s' : σ} (h : Reachable step init s)
    (h' : Run step s τ s') : Reachable step init s' := by
  obtain ⟨τ', hτ'⟩ := h
  exact (hτ'.append h').reachable

/-- An invariant that may also speak about the transitions taken so far. -/
theorem Run.history {P : List (Transition σ α) → σ → Prop} (h0 : P [] init)
    (hstep : ∀ τ s a s', Run step init τ s → P τ s → step a s = some s' →
      P (τ ++ [⟨s, a, s'⟩]) s') {τ : List (Transition σ α)} {s : σ}
    (h : Run step init τ s) : P τ s := by
  induction h with
  | nil => exact h0
  | snoc hr hs ih => exact hstep _ _ _ _ hr ih hs

/-- What holds initially and is kept by every step that can be taken holds of every reachable
state. -/
theorem Reachable.invariant {P : σ → Prop} (h0 : P init)
    (hstep : ∀ s a s', Reachable step init s → P s → step a s = some s' → P s') {s : σ}
    (h : Reachable step init s) : P s := by
  obtain ⟨τ, hτ⟩ := h
  exact hτ.history (P := fun _ s => P s) h0
    fun _ s a s' hr hp hs => hstep s a s' hr.reachable hp hs

/-- Every transition of a run is a step taken from a state that a run ends in. -/
theorem Run.of_mem {τ : List (Transition σ α)} {s : σ} (h : Run step init τ s) :
    ∀ t ∈ τ, Reachable step init t.before ∧ step t.action t.before = some t.after := by
  induction h with
  | nil => intro t ht; cases ht
  | snoc hr hs ih =>
    intro t ht
    rcases List.mem_append.mp ht with ht | ht
    · exact ih t ht
    · rw [List.mem_singleton] at ht
      subst ht
      exact ⟨hr.reachable, hs⟩

/-- The transitions before one of a run lead to the state it is taken from. -/
theorem Run.split {ρ : List (Transition σ α)} {s : σ} (h : Run step init ρ s) :
    ∀ {τ : List (Transition σ α)} {t : Transition σ α} {τ' : List (Transition σ α)},
      ρ = τ ++ t :: τ' → Run step init τ t.before ∧ step t.action t.before = some t.after := by
  induction h with
  | nil => intro τ t τ' he; exact absurd he.symm (by simp)
  | snoc hr hs ih =>
    intro τ t τ' he
    rcases List.eq_nil_or_concat τ' with rfl | ⟨τ'', t', rfl⟩
    · obtain ⟨rfl, ht⟩ := List.append_inj' he rfl
      rw [List.cons.injEq] at ht
      rw [← ht.1]
      exact ⟨hr, hs⟩
    · rw [List.concat_eq_append, ← List.cons_append, ← List.append_assoc] at he
      exact ih (List.append_inj' he rfl).1

/-- The end of a run is its start or the end of one of its transitions. -/
theorem Run.after_or_init {τ : List (Transition σ α)} {s : σ} (h : Run step init τ s) :
    s = init ∨ ∃ t ∈ τ, s = t.after := by
  cases h with
  | nil => exact Or.inl rfl
  | snoc _ _ => exact Or.inr ⟨_, List.mem_append_right _ (List.mem_singleton.mpr rfl), rfl⟩

/--
If every step from a good state leads to a good state exactly when it meets `Q`, a run stays
in good states exactly when all of its steps meet `Q`.
-/
theorem Run.forall_after_iff {P : σ → Prop} {Q : Transition σ α → Prop} (h0 : P init)
    (hstep : ∀ s a s', Reachable step init s → P s → step a s = some s' →
      (P s' ↔ Q ⟨s, a, s'⟩)) {τ : List (Transition σ α)} {s : σ} (h : Run step init τ s) :
    (∀ t ∈ τ, P t.after) ↔ ∀ t ∈ τ, Q t := by
  induction h with
  | nil =>
    exact ⟨fun _ t ht => (List.not_mem_nil ht).elim, fun _ t ht => (List.not_mem_nil ht).elim⟩
  | snoc hr hs ih =>
    rename_i τ s s' a
    constructor
    · intro hp t ht
      have hp' : ∀ t ∈ τ, P t.after := fun t ht => hp t (List.mem_append_left _ ht)
      rcases List.mem_append.mp ht with ht | ht
      · exact ih.mp hp' t ht
      · rw [List.mem_singleton] at ht
        subst ht
        have hps : P s := by
          rcases hr.after_or_init with he | ⟨t, ht, he⟩
          · rw [he]; exact h0
          · rw [he]; exact hp' t ht
        refine (hstep s a s' hr.reachable hps hs).mp ?_
        exact hp ⟨s, a, s'⟩ (List.mem_append_right _ (List.mem_singleton.mpr rfl))
    · intro hq t ht
      have hq' : ∀ t ∈ τ, Q t := fun t ht => hq t (List.mem_append_left _ ht)
      rcases List.mem_append.mp ht with ht | ht
      · exact ih.mpr hq' t ht
      · rw [List.mem_singleton] at ht
        subst ht
        have hps : P s := by
          rcases hr.after_or_init with he | ⟨t, ht, he⟩
          · rw [he]; exact h0
          · rw [he]; exact ih.mpr hq' t ht
        refine (hstep s a s' hr.reachable hps hs).mpr ?_
        exact hq ⟨s, a, s'⟩ (List.mem_append_right _ (List.mem_singleton.mpr rfl))

/-! ## Events -/

section Events

variable {β : Type} {f : Transition σ α → Option β}

theorem filterMap_concat (τ : List (Transition σ α)) (t : Transition σ α) :
    (τ ++ [t]).filterMap f = τ.filterMap f ++ (f t).toList := by
  rw [List.filterMap_append]
  cases h : f t <;> simp [h]

theorem filterMap_concat_none (τ : List (Transition σ α)) {t : Transition σ α} (h : f t = none) :
    (τ ++ [t]).filterMap f = τ.filterMap f := by
  rw [filterMap_concat, h]
  exact List.append_nil _

theorem filterMap_concat_some (τ : List (Transition σ α)) {t : Transition σ α} {b : β}
    (h : f t = some b) : (τ ++ [t]).filterMap f = τ.filterMap f ++ [b] := by
  rw [filterMap_concat, h]
  rfl

/-- What holds of an event when it happens, and is kept by every step, holds of all events. -/
theorem Run.forall_event {P : List (Transition σ α) → σ → β → Prop}
    (hnew : ∀ τ s a s' b, Run step init τ s → step a s = some s' → f ⟨s, a, s'⟩ = some b →
      P (τ ++ [⟨s, a, s'⟩]) s' b)
    (hkept : ∀ τ s a s' b, Run step init τ s → step a s = some s' → P τ s b →
      P (τ ++ [⟨s, a, s'⟩]) s' b) {τ : List (Transition σ α)} {s : σ}
    (h : Run step init τ s) : ∀ b ∈ τ.filterMap f, P τ s b := by
  induction h with
  | nil => exact fun b hb => absurd hb List.not_mem_nil
  | snoc hr hs ih =>
    intro b hb
    rw [filterMap_concat, List.mem_append, Option.mem_toList] at hb
    rcases hb with hb | hb
    · exact hkept _ _ _ _ b hr hs (ih b hb)
    · exact hnew _ _ _ _ b hr hs hb

/-- No event of a run happens twice when none is among those before it. -/
theorem Run.nodup_events {ρ : List (Transition σ α)} {s : σ} (h : Run step init ρ s)
    (hnew : ∀ τ t τ' b, ρ = τ ++ t :: τ' → f t = some b → b ∉ τ.filterMap f) :
    (ρ.filterMap f).Nodup := by
  induction h with
  | nil => exact List.nodup_nil
  | @snoc ρ s s' a _ _ ih =>
    have hbefore : (ρ.filterMap f).Nodup := by
      refine ih ?_
      rintro τ t τ' b rfl
      exact hnew τ t (τ' ++ [⟨s, a, s'⟩]) b (by simp)
    rw [filterMap_concat, List.nodup_append]
    refine ⟨hbefore, ?_, ?_⟩
    · cases f _ <;> simp
    · rintro b hb b' hb' rfl
      exact hnew ρ _ [] b rfl (Option.mem_toList.mp hb') hb

/-- **A forward simulation carries the events of a run over to a run of the other system.** `P` is
what is known of the transitions of the run. -/
theorem Run.simulation {σ' : Type u} {α' : Type v} {step' : α' → σ' → Option σ'} {init' : σ'}
    {g : Transition σ' α' → Option β} {P : Transition σ α → Prop} {R : σ → σ' → Prop}
    (h0 : R init init')
    (hstep : ∀ s a s' x, Reachable step init s → step a s = some s' → P ⟨s, a, s'⟩ → R s x →
      ∃ ρ x', Run step' x ρ x' ∧ ρ.filterMap g = (f ⟨s, a, s'⟩).toList ∧ R s' x')
    {τ : List (Transition σ α)} {s : σ} (h : Run step init τ s) (hP : ∀ t ∈ τ, P t) :
    ∃ ρ x, Run step' init' ρ x ∧ ρ.filterMap g = τ.filterMap f ∧ R s x := by
  induction h with
  | nil => exact ⟨[], init', .nil, rfl, h0⟩
  | @snoc τ s s' a hr hs ih =>
    obtain ⟨ρ, x, hρ, hevents, hrel⟩ := ih fun t ht => hP t (List.mem_append_left _ ht)
    obtain ⟨ρ', x', hρ', hevents', hrel'⟩ :=
      hstep s a s' x hr.reachable hs (hP ⟨s, a, s'⟩ (by simp)) hrel
    refine ⟨ρ ++ ρ', x', hρ.append hρ', ?_, hrel'⟩
    rw [List.filterMap_append, hevents, hevents', filterMap_concat]

end Events

/-! ## Executing a list of actions -/

/-- Take the actions in order; `none` when one of them is not enabled. -/
def exec (step : α → σ → Option σ) : List α → σ → Option σ
  | [], s => some s
  | a :: as, s =>
    match step a s with
    | some s' => exec step as s'
    | none => none

/-- The transitions that a list of actions takes, up to the first one that is not enabled. -/
def trace (step : α → σ → Option σ) : List α → σ → List (Transition σ α)
  | [], _ => []
  | a :: as, s =>
    match step a s with
    | some s' => ⟨s, a, s'⟩ :: trace step as s'
    | none => []

theorem Run.exec {as : List α} : ∀ {τ : List (Transition σ α)} {s s' : σ}, Run step init τ s →
    Lts.exec step as s = some s' → Run step init (τ ++ trace step as s) s' := by
  induction as with
  | nil =>
    intro τ s s' h he
    rw [Lts.exec, Option.some.injEq] at he
    rw [trace, List.append_nil, ← he]
    exact h
  | cons a as ih =>
    intro τ s s' h he
    rw [Lts.exec] at he
    cases hs : step a s with
    | none => rw [hs] at he; cases he
    | some s₁ =>
      rw [hs] at he
      have hr := ih (h.snoc hs) he
      rw [trace, hs, List.append_cons]
      exact hr

theorem action_mem_of_trace {as : List α} : ∀ {s : σ}, ∀ t ∈ trace step as s, t.action ∈ as := by
  induction as with
  | nil => exact fun t ht => absurd ht List.not_mem_nil
  | cons a as ih =>
    intro s t ht
    rw [trace] at ht
    split at ht
    · rcases List.mem_cons.mp ht with rfl | ht
      · exact List.mem_cons_self
      · exact List.mem_cons_of_mem _ (ih t ht)
    · exact absurd ht List.not_mem_nil

/-- A list of actions that executes from the start is a run. -/
theorem exec_run {as : List α} {s : σ} (h : exec step as init = some s) :
    Run step init (trace step as init) s := by
  have hnil : Run step init [] init := .nil
  exact hnil.exec h

end Lts
