import Mathlib.Algebra.Order.Group.Multiset
import Mathlib.Algebra.BigOperators.Group.List.Basic
import Mathlib.Tactic.Abel
import U80211.Lib.Lts

/-!
# Programs that allocate, free and share objects

Threads ask an allocator for objects of several kinds, free them and update a state that they
share. A program is checked alone: it says at each point which objects it owns, and what it hands
over to the shared state or takes from it. Threads that pass the check may run in any
interleaving, whatever requests the allocator refuses.

* `Program`, `Threads.step`: programs, and how several of them run
* `Owns`: what a program owns while it runs
* `Owns.bind`, `Owns.frame`, `Owns.forM`: how the check of a program is put together
* `Accounted.step`: **each live object has one owner**, a thread or the shared state
* `Accounted.exists_step`: what a thread frees is live, and of the right kind
* `Owns.exec`: the same for a program that runs alone
-/

namespace Ownership

/-! ## Programs -/

/-- Programs on a shared state `σ` and objects of the kinds `κ`. -/
inductive Program (σ κ α : Type) : Type where
  | pure (r : α)
  /-- the address of a new object, `none` when the request is refused -/
  | allocate (kind : κ) (next : Option Nat → Program σ κ α)
  | free (address : Nat) (kind : κ) (next : Program σ κ α)
  /-- one step on the shared state, which waits while it answers `none`; the program goes on with
  the state before -/
  | update (f : σ → Option σ) (next : σ → Program σ κ α)

namespace Program

variable {σ κ α β : Type}

def bind : Program σ κ α → (α → Program σ κ β) → Program σ κ β
  | .pure r, f => f r
  | .allocate kind next, f => .allocate kind fun a => (next a).bind f
  | .free address kind next, f => .free address kind (next.bind f)
  | .update g next, f => .update g fun s => (next s).bind f

instance : Monad (Program σ κ) where
  pure := .pure
  bind := bind

theorem bind_pure' (p : Program σ κ α) : p.bind .pure = p := by
  induction p with
  | pure r => rfl
  | allocate kind next ih => exact congrArg _ (funext ih)
  | free a kind next ih => exact congrArg _ ih
  | update f next ih => exact congrArg _ (funext ih)

/-- Sequences of programs can be put together either way. -/
theorem bind_assoc' {γ : Type} (p : Program σ κ α) (f : α → Program σ κ β)
    (g : β → Program σ κ γ) : (p.bind f).bind g = p.bind fun r => (f r).bind g := by
  induction p with
  | pure r => rfl
  | allocate kind next ih => exact congrArg _ (funext ih)
  | free a kind next ih => exact congrArg _ ih
  | update f next ih => exact congrArg _ (funext ih)

instance : LawfulMonad (Program σ κ) := .mk' _ bind_pure' (fun _ _ => rfl) bind_assoc'

/-- The program has returned. -/
def Returned : Program σ κ α → Prop
  | .pure _ => True
  | _ => False

instance : DecidablePred (Returned : Program σ κ α → Prop)
  | .pure _ => .isTrue trivial
  | .allocate _ _ => .isFalse id
  | .free _ _ _ => .isFalse id
  | .update _ _ => .isFalse id

/-- The program does not touch the shared state. -/
def Local : Program σ κ α → Prop
  | .pure _ => True
  | .allocate _ next => ∀ a, (next a).Local
  | .free _ _ next => next.Local
  | .update _ _ => False

@[simp] theorem local_pure (r : α) : (Pure.pure r : Program σ κ α).Local := trivial

/-- A program of local parts is local. -/
theorem Local.bind {p : Program σ κ α} {f : α → Program σ κ β} (h : p.Local)
    (hf : ∀ r, (f r).Local) : (p >>= f).Local := by
  change (p.bind f).Local
  induction p with
  | pure r => exact hf r
  | allocate kind next ih => exact fun a => ih a (h a)
  | free address kind next ih => exact ih h
  | update g next => exact h.elim

end Program

section

variable {σ κ : Type}

def allocate (kind : κ) : Program σ κ (Option Nat) := .allocate kind .pure

def free (address : Nat) (kind : κ) : Program σ κ Unit := .free address kind (.pure ())

/-- The answer is the state before. -/
def update (f : σ → Option σ) : Program σ κ σ := .update f .pure

namespace Program

variable {α β : Type}

@[simp] theorem local_allocate_bind {kind : κ} {f : Option Nat → Program σ κ β} :
    (Ownership.allocate kind >>= f).Local ↔ ∀ a, (f a).Local := Iff.rfl

@[simp] theorem local_free {a : Nat} {kind : κ} :
    (Ownership.free a kind : Program σ κ Unit).Local := trivial

@[simp] theorem local_free_bind {a : Nat} {kind : κ} {f : Unit → Program σ κ β} :
    (Ownership.free a kind >>= f).Local ↔ (f ()).Local := Iff.rfl

@[simp] theorem local_map {p : Program σ κ α} {f : α → β} : (f <$> p).Local ↔ p.Local := by
  change (p.bind fun r => .pure (f r)).Local ↔ p.Local
  induction p with
  | pure r => exact Iff.rfl
  | allocate kind next ih => exact forall_congr' ih
  | free a kind next ih => exact ih
  | update g next => exact Iff.rfl

theorem local_forM {δ : Type} {f : δ → Program σ κ PUnit} (h : ∀ x, (f x).Local) (xs : List δ) :
    (xs.forM f).Local := by
  induction xs with
  | nil => trivial
  | cons x xs ih => exact (h x).bind fun _ => ih

end Program

/-- What is allocated, by address and kind; addresses from `next` on have never been used. -/
structure Heap (κ : Type) where
  live : Multiset (Nat × κ)
  next : Nat

def Heap.empty : Heap κ where
  live := 0
  next := 0

def Heap.allocate (h : Heap κ) (kind : κ) : Heap κ where
  live := (h.next, kind) ::ₘ h.live
  next := h.next + 1

variable [DecidableEq κ]

/-- `none` when there is no such object. -/
def Heap.free (h : Heap κ) (address : Nat) (kind : κ) : Option (Heap κ) :=
  if (address, kind) ∈ h.live then some { h with live := h.live.erase (address, kind) } else none

/-! ## Runs -/

variable {α : Type}

/-- The next step of a program, and whether a request is granted. -/
def Program.step (granted : Bool) :
    Program σ κ α → Heap κ → σ → Option (Program σ κ α × Heap κ × σ)
  | .pure _, _, _ => none
  | .allocate kind next, h, s =>
    if granted then some (next (some h.next), h.allocate kind, s) else some (next none, h, s)
  | .free address kind next, h, s => (h.free address kind).map fun h => (next, h, s)
  | .update f next, h, s => (f s).map fun s' => (next s, h, s')

/-- A program that runs alone, with the answers to its requests. -/
def Program.exec : Program σ κ α → List Bool → Heap κ → σ → Option (α × Heap κ × σ)
  | .pure r, _, h, s => some (r, h, s)
  | .allocate kind next, answers, h, s =>
    if answers.headD false then (next (some h.next)).exec answers.tail (h.allocate kind) s
    else (next none).exec answers.tail h s
  | .free address kind next, answers, h, s =>
    (h.free address kind).bind fun h => next.exec answers h s
  | .update f next, answers, h, s => (f s).bind fun s' => (next s).exec answers h s'

/-- Threads that run at the same time. -/
structure Threads (σ κ α : Type) where
  heap : Heap κ
  shared : σ
  threads : List (Program σ κ α)

inductive Action (ι : Type) where
  /-- a new thread -/
  | start (call : ι)
  /-- a step of a thread -/
  | run (i : Nat) (granted : Bool)

variable {ι : Type}

/-- A step of threads that run the programs of calls. -/
def Threads.step (program : ι → Program σ κ α) :
    Action ι → Threads σ κ α → Option (Threads σ κ α)
  | .start call, t => some { t with threads := t.threads ++ [program call] }
  | .run i granted, t => do
    let p ← t.threads[i]?
    let (p, heap, shared) ← p.step granted t.heap t.shared
    some { heap, shared, threads := t.threads.set i p }

end

/-! ## Ownership -/

/-- What can be owned: each of the two halves of an object, and tokens that stand for a right to do
something. Who owns a half knows that the object is live; who owns both may free it. -/
abbrev Resource (κ γ : Type) := ((Nat × κ) × Bool) ⊕ γ

abbrev half {κ γ : Type} (address : Nat) (kind : κ) (second : Bool) : Resource κ γ :=
  .inl ((address, kind), second)

/-- Both halves of an object. -/
def object {κ γ : Type} (address : Nat) (kind : κ) : Multiset (Resource κ γ) :=
  {half address kind false} + {half address kind true}

/-- What the shared state owns, and what holds of it between two steps. -/
structure Sharing (σ κ γ : Type) where
  owned : σ → Multiset (Resource κ γ)
  invariant : σ → Prop

variable {σ κ γ α β ι : Type} {S : Sharing σ κ γ} {A A' F : Multiset (Resource κ γ)}
  {B : α → Multiset (Resource κ γ)} {C : β → Multiset (Resource κ γ)}

/-- A program that owns `A` frees only what it owns, keeps the invariant, and owns `B` when it
returns. With an update it may give resources to the shared state and take others from it. -/
def Owns (S : Sharing σ κ γ) (A : Multiset (Resource κ γ)) :
    Program σ κ α → (α → Multiset (Resource κ γ)) → Prop
  | .pure r, B => A = B r
  | .allocate kind next, B =>
    Owns S A (next none) B ∧ ∀ a, Owns S (object a kind + A) (next (some a)) B
  | .free a kind next, B => ∃ A', A = object a kind + A' ∧ Owns S A' next B
  | .update f next, B => ∀ s s', S.invariant s → (A + S.owned s).Nodup → f s = some s' →
    S.invariant s' ∧ ∃ A', A' + S.owned s' = A + S.owned s ∧ Owns S A' (next s) B

namespace Owns

@[simp] theorem pure_iff {r : α} : Owns S A (Pure.pure r) B ↔ A = B r := Iff.rfl

@[simp] theorem allocate_bind_iff {kind : κ} {f : Option Nat → Program σ κ β} :
    Owns S A (allocate kind >>= f) C ↔
      Owns S A (f none) C ∧ ∀ a, Owns S (object a kind + A) (f (some a)) C := Iff.rfl

@[simp] theorem free_iff {a : Nat} {kind : κ} {C : Unit → Multiset (Resource κ γ)} :
    Owns S A (free a kind) C ↔ ∃ A', A = object a kind + A' ∧ A' = C () := Iff.rfl

@[simp] theorem free_bind_iff {a : Nat} {kind : κ} {f : Unit → Program σ κ β} :
    Owns S A (free a kind >>= f) C ↔ ∃ A', A = object a kind + A' ∧ Owns S A' (f ()) C := Iff.rfl

@[simp] theorem map_free_iff {a : Nat} {kind : κ} {f : Unit → β} :
    Owns S A (f <$> free a kind) C ↔ ∃ A', A = object a kind + A' ∧ A' = C (f ()) := Iff.rfl

theorem update_bind_iff {f : σ → Option σ} {g : σ → Program σ κ β} :
    Owns S A (update f >>= g) C ↔ ∀ s s', S.invariant s → (A + S.owned s).Nodup → f s = some s' →
      S.invariant s' ∧ ∃ A', A' + S.owned s' = A + S.owned s ∧ Owns S A' (g s) C := Iff.rfl

/-- One program after another. -/
theorem bind {p : Program σ κ α} {f : α → Program σ κ β} (h : Owns S A p B)
    (hf : ∀ r, Owns S (B r) (f r) C) : Owns S A (p >>= f) C := by
  change Owns S A (p.bind f) C
  induction p generalizing A with
  | pure r =>
    rw [show A = B r from h]
    exact hf r
  | allocate kind next ih => exact ⟨ih none h.1, fun a => ih (some a) (h.2 a)⟩
  | free a kind next ih =>
    obtain ⟨A', hA, hnext⟩ := h
    exact ⟨A', hA, ih hnext⟩
  | update g next ih =>
    intro s s' hi hn hs
    obtain ⟨hi', A', hA, hnext⟩ := h s s' hi hn hs
    exact ⟨hi', A', hA, ih s hnext⟩

theorem map {p : Program σ κ α} {f : α → β} (h : Owns S A p B) (hf : ∀ r, B r = C (f r)) :
    Owns S A (f <$> p) C := bind h fun r => hf r

/-- An update that takes nothing from the shared state and gives nothing to it. -/
theorem update_bind {f : σ → Option σ} {g : σ → Program σ κ β}
    (hf : ∀ s s', S.invariant s → f s = some s' → S.invariant s' ∧ S.owned s' = S.owned s)
    (hg : ∀ s, Owns S A (g s) C) : Owns S A (update f >>= g) C := by
  intro s s' hi _ hs
  obtain ⟨hi', ho⟩ := hf s s' hi hs
  exact ⟨hi', A, by rw [ho], hg s⟩

/-- What a program does not need stays as it is. -/
theorem frame {p : Program σ κ α} (h : Owns S A p B) : Owns S (A + F) p fun r => B r + F := by
  induction p generalizing A with
  | pure r => exact congrArg (· + F) h
  | allocate kind next ih =>
    refine ⟨ih none h.1, fun a => ?_⟩
    rw [← add_assoc]
    exact ih (some a) (h.2 a)
  | free a kind next ih =>
    obtain ⟨A', rfl, hnext⟩ := h
    exact ⟨A' + F, add_assoc _ _ _, ih hnext⟩
  | update g next ih =>
    intro s s' hi hn hs
    have hle : A + S.owned s ≤ A + F + S.owned s := by
      gcongr
      exact Multiset.le_add_right A F
    obtain ⟨hi', A', hA, hnext⟩ := h s s' hi (Multiset.nodup_of_le hle hn) hs
    refine ⟨hi', A' + F, ?_, ih s hnext⟩
    rw [add_right_comm, hA, add_right_comm]

/-- A loop that frees the resources of each member of a list. -/
theorem forM {δ : Type} {f : δ → Program σ κ PUnit} {R : δ → Multiset (Resource κ γ)}
    (h : ∀ x, Owns S (R x) (f x) fun _ => 0) (xs : List δ) :
    Owns S (xs.map R).sum (xs.forM f) fun _ => 0 := by
  induction xs with
  | nil => exact rfl
  | cons x xs ih =>
    rw [List.map_cons, List.sum_cons]
    refine bind ((h x).frame (F := (xs.map R).sum)) fun _ => ?_
    rw [zero_add]
    exact ih

end Owns

/-! ## The allocator -/

/-- No object is there twice, and addresses in use are old. -/
def Heap.Valid (h : Heap κ) : Prop := h.live.Nodup ∧ ∀ x ∈ h.live, x.1 < h.next

theorem Heap.Valid.empty : (Heap.empty : Heap κ).Valid :=
  ⟨Multiset.nodup_zero, fun _ hx => absurd hx (Multiset.notMem_zero _)⟩

theorem Heap.Valid.allocate {h : Heap κ} (hv : h.Valid) (kind : κ) : (h.allocate kind).Valid := by
  refine ⟨Multiset.nodup_cons.mpr ⟨fun hm => (hv.2 _ hm).false, hv.1⟩, fun x hx => ?_⟩
  rcases Multiset.mem_cons.mp hx with rfl | hx
  · exact Nat.lt_succ_self _
  · exact Nat.lt_succ_of_lt (hv.2 x hx)

/-- All resources: the halves of the live objects, and the tokens. -/
def Heap.resources (h : Heap κ) (tokens : Multiset γ) : Multiset (Resource κ γ) :=
  h.live.map (fun x => .inl (x, false)) + h.live.map (fun x => .inl (x, true)) +
    tokens.map .inr

theorem Heap.resources_allocate (h : Heap κ) (kind : κ) (tokens : Multiset γ) :
    (h.allocate kind).resources tokens = object h.next kind + h.resources tokens := by
  unfold Heap.resources Heap.allocate object
  simp only [← Multiset.singleton_add, Multiset.map_add, Multiset.map_singleton]
  abel

theorem Heap.mem_resources {h : Heap κ} {tokens : Multiset γ} {a : Nat} {kind : κ}
    {second : Bool} : half a kind second ∈ h.resources tokens ↔ (a, kind) ∈ h.live := by
  unfold Heap.resources
  cases second <;> simp

/-- The resources are different from each other. -/
theorem Heap.Valid.nodup {h : Heap κ} (hv : h.Valid) {tokens : Multiset γ} (ht : tokens.Nodup) :
    (h.resources tokens).Nodup := by
  have hmap (second : Bool) :
      (h.live.map fun x => (.inl (x, second) : Resource κ γ)).Nodup :=
    hv.1.map fun x y he => congrArg Prod.fst (Sum.inl_injective he)
  refine Multiset.nodup_add.mpr ⟨Multiset.nodup_add.mpr ⟨hmap false, hmap true, ?_⟩,
    ht.map Sum.inr_injective, ?_⟩
  · simp [Multiset.disjoint_left]
  · simp [Multiset.disjoint_left]

variable [DecidableEq κ]

/-- What is freed was live, and is not any more. -/
theorem Heap.Valid.free {h h' : Heap κ} (hv : h.Valid) {a : Nat} {kind : κ}
    (hf : h.free a kind = some h') : h'.Valid ∧ h.live = (a, kind) ::ₘ h'.live := by
  unfold Heap.free at hf
  split at hf
  · next hm =>
    cases hf
    exact ⟨⟨hv.1.erase _, fun x hx => hv.2 x (Multiset.mem_of_mem_erase hx)⟩,
      (Multiset.cons_erase hm).symm⟩
  · cases hf

theorem Heap.resources_free {h h' : Heap κ} (hv : h.Valid) {a : Nat} {kind : κ}
    (hf : h.free a kind = some h') (tokens : Multiset γ) :
    h.resources tokens = object a kind + h'.resources tokens := by
  unfold Heap.resources object
  rw [(hv.free hf).2]
  simp only [← Multiset.singleton_add, Multiset.map_add, Multiset.map_singleton]
  abel

/-- What is live can be freed. -/
theorem Heap.free_of_mem {h : Heap κ} {a : Nat} {kind : κ} (hm : (a, kind) ∈ h.live) :
    ∃ h', h.free a kind = some h' := ⟨_, if_pos hm⟩

/-! ## One step -/

variable {h h' : Heap κ} {s s' : σ} {p p' : Program σ κ α} {tokens : Multiset γ}

omit [DecidableEq κ] in
/-- What is owned is live, when all resources are. -/
theorem mem_live {a : Nat} {kind : κ} (ht : object a kind + A = h.resources tokens) :
    (a, kind) ∈ h.live := by
  have hm : half a kind false ∈ h.resources tokens := by
    rw [← ht]
    simp [object]
  exact Heap.mem_resources.mp hm

/-- A step of a program moves resources between the program, the shared state and the heap. -/
theorem Owns.step {granted : Bool} (hp : Owns S A p B) (hv : h.Valid) (hi : S.invariant s)
    (hn : tokens.Nodup) (ht : A + F + S.owned s = h.resources tokens)
    (hs : p.step granted h s = some (p', h', s')) :
    ∃ A', Owns S A' p' B ∧ h'.Valid ∧ S.invariant s' ∧
      A' + F + S.owned s' = h'.resources tokens := by
  cases p with
  | pure r => cases hs
  | allocate kind next =>
    rw [Program.step] at hs
    split at hs
    · cases hs
      refine ⟨_, hp.2 h.next, hv.allocate kind, hi, ?_⟩
      rw [Heap.resources_allocate, add_assoc, add_assoc, ← add_assoc A, ht]
    · cases hs
      exact ⟨A, hp.1, hv, hi, ht⟩
  | free a kind next =>
    obtain ⟨A', rfl, hnext⟩ := hp
    obtain ⟨h₁, hf, he⟩ := Option.map_eq_some_iff.mp hs
    cases he
    refine ⟨A', hnext, (hv.free hf).1, hi, ?_⟩
    rw [Heap.resources_free hv hf, add_assoc, add_assoc, ← add_assoc A'] at ht
    exact add_left_cancel ht
  | update f next =>
    obtain ⟨s₁, hf, he⟩ := Option.map_eq_some_iff.mp hs
    cases he
    have hle : A + S.owned s ≤ h.resources tokens := by
      rw [← ht]
      gcongr
      exact Multiset.le_add_right A F
    obtain ⟨hi', A', hA, hnext⟩ := hp s s' hi (Multiset.nodup_of_le hle (hv.nodup hn)) hf
    refine ⟨A', hnext, hv, hi', ?_⟩
    rw [← ht, add_right_comm, hA, add_right_comm]

/-- A program waits when its next step is an update that is not possible. -/
def Program.Waits (s : σ) : Program σ κ α → Prop
  | .update f _ => f s = none
  | _ => False

/-- A step of a program is only impossible when it has returned or waits. -/
theorem Owns.exists_step (hp : Owns S A p B) (hr : ¬ p.Returned) (hw : ¬ p.Waits s)
    (ht : A + F + S.owned s = h.resources tokens) (granted : Bool) :
    ∃ x, p.step granted h s = some x := by
  cases p with
  | pure r => exact absurd trivial hr
  | allocate kind next => cases granted <;> exact ⟨_, rfl⟩
  | free a kind next =>
    obtain ⟨A', rfl, -⟩ := hp
    rw [add_assoc, add_assoc] at ht
    obtain ⟨h', hf⟩ := Heap.free_of_mem (mem_live ht)
    exact ⟨_, by rw [Program.step, hf, Option.map_some]⟩
  | update f next =>
    obtain ⟨s', hs⟩ := Option.ne_none_iff_exists'.mp hw
    exact ⟨_, by rw [Program.step, hs, Option.map_some]⟩

/-- A program that runs alone returns, whatever is refused, and owns what it says. -/
theorem Owns.exec (hl : p.Local) (hp : Owns S A p B) (hv : h.Valid)
    (ht : A + F = h.resources tokens) (answers : List Bool) (s : σ) :
    ∃ r h', p.exec answers h s = some (r, h', s) ∧ h'.Valid ∧
      B r + F = h'.resources tokens := by
  induction p generalizing A h answers with
  | pure r =>
    rw [show A = B r from hp] at ht
    exact ⟨r, h, rfl, hv, ht⟩
  | allocate kind next ih =>
    rw [Program.exec]
    split
    · refine ih _ (hl _) (hp.2 h.next) (hv.allocate kind) ?_ _
      rw [Heap.resources_allocate, add_assoc, ht]
    · exact ih _ (hl _) hp.1 hv ht _
  | free a kind next ih =>
    obtain ⟨A', rfl, hnext⟩ := hp
    rw [add_assoc] at ht
    obtain ⟨h', hf⟩ := Heap.free_of_mem (mem_live ht)
    rw [Heap.resources_free hv hf] at ht
    obtain ⟨r, h'', he, hrest⟩ := ih hl hnext (hv.free hf).1 (add_left_cancel ht) answers
    exact ⟨r, h'', by rw [Program.exec, hf, Option.bind_some, he], hrest⟩
  | update f next => exact hl.elim

/-! ## Threads -/

/-- What each thread owns, and the shared state, is all that there is. -/
structure Accounted (S : Sharing σ κ γ) (tokens : Multiset γ) (t : Threads σ κ α)
    (owned : List (Multiset (Resource κ γ))) : Prop where
  valid : t.heap.Valid
  invariant : S.invariant t.shared
  threads : List.Forall₂ (fun A p => Owns S A p fun _ => 0) owned t.threads
  total : owned.sum + S.owned t.shared = t.heap.resources tokens

/-- One member of two lists that belong together, and what may stand in its place. -/
theorem exists_of_forall₂ {μ ν : Type} [AddCommMonoid μ] {R : μ → ν → Prop} {xs : List μ}
    {ys : List ν} (h : List.Forall₂ R xs ys) {i : Nat} {y : ν} (hy : ys[i]? = some y) :
    ∃ x rest, R x y ∧ xs.sum = x + rest ∧ ∀ x' y', R x' y' →
      List.Forall₂ R (xs.set i x') (ys.set i y') ∧ (xs.set i x').sum = x' + rest := by
  induction h generalizing i with
  | nil => cases hy
  | @cons x y₀ xs ys hxy hrest ih =>
    cases i with
    | zero =>
      rw [List.getElem?_cons_zero, Option.some.injEq] at hy
      subst hy
      exact ⟨x, xs.sum, hxy, List.sum_cons, fun x' y' h' => ⟨.cons h' hrest, List.sum_cons⟩⟩
    | succ i =>
      rw [List.getElem?_cons_succ] at hy
      obtain ⟨x₁, rest, h₁, hsum, hset⟩ := ih hy
      refine ⟨x₁, x + rest, h₁, ?_, fun x' y' h' => ⟨.cons hxy (hset x' y' h').1, ?_⟩⟩
      · rw [List.sum_cons, hsum, add_left_comm]
      · rw [List.set_cons_succ, List.sum_cons, (hset x' y' h').2, add_left_comm]

namespace Accounted

variable {program : ι → Program σ κ α} {t t' : Threads σ κ α}
  {owned : List (Multiset (Resource κ γ))}

/-- **Each step of each thread keeps one owner for each object.** -/
theorem step (hprogram : ∀ call, Owns S 0 (program call) fun _ => 0) (hn : tokens.Nodup)
    (ha : Accounted S tokens t owned) {a : Action ι} (hs : Threads.step program a t = some t') :
    ∃ owned', Accounted S tokens t' owned' := by
  cases a with
  | start call =>
    cases hs
    refine ⟨owned ++ [0], ha.valid, ha.invariant, ?_, ?_⟩
    · exact List.rel_append ha.threads (.cons (hprogram call) .nil)
    · rw [List.sum_append, List.sum_singleton, add_zero]
      exact ha.total
  | run i granted =>
    obtain ⟨p, hp, hs⟩ := Option.bind_eq_some_iff.mp hs
    obtain ⟨⟨p', h', s'⟩, hstep, he⟩ := Option.bind_eq_some_iff.mp hs
    cases he
    obtain ⟨A, rest, hA, hsum, hset⟩ := exists_of_forall₂ ha.threads hp
    have ht := ha.total
    rw [hsum] at ht
    obtain ⟨A', hA', hv', hi', ht'⟩ := hA.step ha.valid ha.invariant hn ht hstep
    refine ⟨owned.set i A', hv', hi', (hset A' p' hA').1, ?_⟩
    rw [(hset A' p' hA').2]
    exact ht'

/-- Every run accounts for what is live. -/
theorem run (hprogram : ∀ call, Owns S 0 (program call) fun _ => 0) (hn : tokens.Nodup)
    {t₀ : Threads σ κ α} (h₀ : Accounted S tokens t₀ owned)
    {τ : List (Lts.Transition (Threads σ κ α) (Action ι))}
    (hr : Lts.Run (Threads.step program) t₀ τ t) : ∃ owned', Accounted S tokens t owned' :=
  hr.history (P := fun _ t => ∃ owned', Accounted S tokens t owned') ⟨owned, h₀⟩
    fun _ _ _ _ _ ⟨_, ha⟩ hs => ha.step hprogram hn hs

/-- **A thread that has not returned can go on unless it waits**: what it frees is live, and of the
right kind. -/
theorem exists_step (ha : Accounted S tokens t owned) {i : Nat} {p : Program σ κ α}
    (hp : t.threads[i]? = some p) (hr : ¬ p.Returned) (hw : ¬ p.Waits t.shared) (granted : Bool) :
    ∃ t', Threads.step program (.run i granted) t = some t' := by
  obtain ⟨A, rest, hA, hsum, -⟩ := exists_of_forall₂ ha.threads hp
  have ht := ha.total
  rw [hsum] at ht
  obtain ⟨⟨p', h', s'⟩, hs⟩ := hA.exists_step hr hw ht granted
  exact ⟨_, by rw [Threads.step, hp, Option.bind_eq_bind, Option.bind_some, hs,
    Option.bind_eq_bind, Option.bind_some]⟩

omit [DecidableEq κ] in
/-- **When every thread has returned, the shared state owns what is live.** -/
theorem owned_of_returned (ha : Accounted S tokens t owned) (hr : ∀ p ∈ t.threads, p.Returned) :
    S.owned t.shared = t.heap.resources tokens := by
  have hall := ha.threads
  have hsum : owned.sum = 0 := by
    have ht := ha.total
    clear ha ht
    generalize t.threads = ps at hall hr
    induction hall with
    | nil => rfl
    | @cons A p owned ps hp _ ih =>
      rw [List.sum_cons, ih fun q hq => hr q (List.mem_cons_of_mem _ hq), add_zero]
      have hp' := hr p List.mem_cons_self
      cases p with
      | pure r => exact hp
      | allocate | free | update => exact hp'.elim
  have ht := ha.total
  rwa [hsum, zero_add] at ht

end Accounted

end Ownership
