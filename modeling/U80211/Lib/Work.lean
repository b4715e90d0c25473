/-!
# Work objects of a kernel work queue

A work object runs one callback on a thread of its own. It is asked to run either at once or
when a timer expires; a request made while another one is pending is ignored, a request made
while the callback runs makes it run again, and the callback never runs concurrently with
itself. `φ` is the position of a running callback in its code.

Freeing a timer cancels the request that waits for it. Freeing a work object cancels a pending
request and waits for a running callback to return, so it is not enabled before that. A
request made to a freed object is ignored.
-/

namespace WorkQueue

/-- What a work object has been asked to do. -/
inductive Request where
  /-- nothing -/
  | idle
  /-- to run once its timer expires -/
  | armed
  /-- to run as soon as its thread is free -/
  | queued
deriving DecidableEq, Repr

structure Work (φ : Type) where
  request : Request
  running : Option φ
  freed : Bool
deriving DecidableEq

namespace Work

variable {φ : Type}

/-- A work object as it is allocated. -/
def allocate : Work φ := { request := .idle, running := none, freed := false }

def enqueue (w : Work φ) : Work φ :=
  if w.freed = false ∧ w.request = .idle then { w with request := .queued } else w

/-- Take the pending request and start the callback at `entry`. -/
def start (w : Work φ) (entry : φ) : Option (Work φ) :=
  if w.request = .queued ∧ w.running = none ∧ w.freed = false then
    some { w with request := .idle, running := some entry }
  else none

/-- The running callback goes on at `next`, or returns. -/
def goto (w : Work φ) (next : Option φ) : Work φ := { w with running := next }

/-- Free the object; not enabled while the callback runs. -/
def free (w : Work φ) : Option (Work φ) :=
  match w.running with
  | some _ => none
  | none => some { request := .idle, running := none, freed := true }

@[simp] theorem enqueue_running (w : Work φ) : w.enqueue.running = w.running := by
  unfold enqueue; split <;> rfl

@[simp] theorem enqueue_freed (w : Work φ) : w.enqueue.freed = w.freed := by
  unfold enqueue; split <;> rfl

/-- A callback starts when a request is queued and no callback runs. -/
theorem start_eq_some {w w' : Work φ} {entry : φ} (h : w.start entry = some w') :
    w.request = .queued ∧ w.running = none ∧ w.freed = false ∧
      w' = { request := .idle, running := some entry, freed := false } := by
  unfold start at h
  split at h
  · next hc =>
    obtain ⟨h1, h2, h3⟩ := hc
    rw [Option.some.injEq] at h
    exact ⟨h1, h2, h3, by rw [← h, h3]⟩
  · cases h

/-- A work object is freed when no callback of it runs. -/
theorem free_eq_some {w w' : Work φ} (h : w.free = some w') :
    w.running = none ∧ w' = { request := .idle, running := none, freed := true } := by
  unfold free at h
  split at h
  · cases h
  · next hr => exact ⟨hr, (Option.some.inj h).symm⟩

end Work

/-- A work object together with the timer of its delayed requests. -/
structure DelayedWork (φ : Type) where
  work : Work φ
  timerFreed : Bool
deriving DecidableEq

namespace DelayedWork

variable {φ : Type}

def allocate : DelayedWork φ := { work := .allocate, timerFreed := false }

/-- Ask for a run once the timer has expired. -/
def enqueue (d : DelayedWork φ) : DelayedWork φ :=
  if d.timerFreed = false ∧ d.work.freed = false ∧ d.work.request = .idle then
    { d with work := { d.work with request := .armed } }
  else d

/-- The timer expires. -/
def expire (d : DelayedWork φ) : Option (DelayedWork φ) :=
  if d.work.request = .armed then some { d with work := { d.work with request := .queued } }
  else none

def start (d : DelayedWork φ) (entry : φ) : Option (DelayedWork φ) :=
  (d.work.start entry).map fun w => { d with work := w }

def goto (d : DelayedWork φ) (next : Option φ) : DelayedWork φ :=
  { d with work := d.work.goto next }

/-- Free the timer at once, and with it the request that waits for it. -/
def freeTimer (d : DelayedWork φ) : DelayedWork φ :=
  { timerFreed := true,
    work := if d.work.request = .armed then { d.work with request := .idle } else d.work }

def freeWork (d : DelayedWork φ) : Option (DelayedWork φ) :=
  d.work.free.map fun w => { d with work := w }

/-- The work is to run: a request is pending. -/
def Pending (d : DelayedWork φ) : Prop := d.work.request ≠ .idle

@[simp] theorem enqueue_running (d : DelayedWork φ) : d.enqueue.work.running = d.work.running := by
  unfold enqueue; split <;> rfl

@[simp] theorem enqueue_freed (d : DelayedWork φ) : d.enqueue.work.freed = d.work.freed := by
  unfold enqueue; split <;> rfl

@[simp] theorem enqueue_timerFreed (d : DelayedWork φ) : d.enqueue.timerFreed = d.timerFreed := by
  unfold enqueue; split <;> rfl

@[simp] theorem goto_running (d : DelayedWork φ) (next : Option φ) :
    (d.goto next).work.running = next := rfl

@[simp] theorem freeTimer_running (d : DelayedWork φ) :
    d.freeTimer.work.running = d.work.running := by
  unfold freeTimer; dsimp only; split <;> rfl

@[simp] theorem freeTimer_freed (d : DelayedWork φ) :
    d.freeTimer.work.freed = d.work.freed := by
  unfold freeTimer; dsimp only; split <;> rfl

/-- A request is pending after it has been made, unless an object is freed. -/
theorem enqueue_pending {d : DelayedWork φ} (ht : d.timerFreed = false)
    (hw : d.work.freed = false) : d.enqueue.Pending := by
  unfold enqueue Pending
  split
  · simp
  · next hn => exact fun he => hn ⟨ht, hw, he⟩

/-- The timer that expires was armed, and the request goes to the queue. -/
theorem expire_eq_some {d d' : DelayedWork φ} (h : d.expire = some d') :
    d.work.request = .armed ∧ d' = { d with work := { d.work with request := .queued } } := by
  unfold expire at h
  split at h
  · next hr => exact ⟨hr, (Option.some.inj h).symm⟩
  · cases h

/-- A delayed callback starts like one that is not delayed. -/
theorem start_eq_some {d d' : DelayedWork φ} {entry : φ} (h : d.start entry = some d') :
    d.work.request = .queued ∧ d.work.running = none ∧ d.work.freed = false ∧
      d' = { d with work := { request := .idle, running := some entry, freed := false } } := by
  obtain ⟨w, hw, rfl⟩ := Option.map_eq_some_iff.mp h
  obtain ⟨h1, h2, h3, rfl⟩ := Work.start_eq_some hw
  exact ⟨h1, h2, h3, rfl⟩

/-- The work is freed when no callback of it runs. -/
theorem freeWork_eq_some {d d' : DelayedWork φ} (h : d.freeWork = some d') :
    d.work.running = none ∧
      d' = { d with work := { request := .idle, running := none, freed := true } } := by
  obtain ⟨w, hw, rfl⟩ := Option.map_eq_some_iff.mp h
  obtain ⟨h1, rfl⟩ := Work.free_eq_some hw
  exact ⟨h1, rfl⟩

theorem freed_of_freeWork {d d' : DelayedWork φ} (h : d.freeWork = some d') :
    d'.work.freed = true ∧ d'.timerFreed = d.timerFreed := by
  obtain ⟨-, rfl⟩ := freeWork_eq_some h
  exact ⟨rfl, rfl⟩

end DelayedWork

/-! ## A work object as its callers see it -/

/-- A work object with its timer, and the callback of the pending request. -/
structure Object (φ : Type) where
  work : DelayedWork φ
  callback : Option φ

inductive ObjectAction (φ : Type) where
  | enqueue (callback : φ)
  | enqueueDelayed (callback : φ)
  /-- the timer expires -/
  | expire
  | start
  /-- the callback returns -/
  | finish
  | freeTimer
  | freeWork

namespace Object

variable {φ : Type}

def allocate : Object φ := { work := .allocate, callback := none }

/-- The callback of a request that is ignored is ignored with it. -/
def request (x : Object φ) (callback : φ) : Option φ :=
  if x.work.work.request = .idle then some callback else x.callback

def step (action : ObjectAction φ) (x : Object φ) : Option (Object φ) :=
  match action with
  | .enqueue callback =>
    some { work := { x.work with work := x.work.work.enqueue }, callback := x.request callback }
  | .enqueueDelayed callback =>
    some { work := x.work.enqueue, callback := x.request callback }
  | .expire => x.work.expire.map fun work => { x with work }
  | .start => x.callback.bind fun callback =>
    (x.work.start callback).map fun work => { x with work }
  | .finish => x.work.work.running.map fun _ => { x with work := x.work.goto none }
  | .freeTimer => some { x with work := x.work.freeTimer }
  | .freeWork => x.work.freeWork.map fun work => { x with work }

end Object

/-! ## What is left to do

A request and a position each stand for a number of steps that are still to come. `q` is the number
for a request that is queued, `f` the one for a position.
-/

section Weight

variable {φ : Type} {q : Nat} {f : φ → Nat}

def Request.weight (q : Nat) : Request → Nat
  | .idle => 0
  | .queued => q
  | .armed => q + 1

def Work.weight (q : Nat) (f : φ → Nat) (w : Work φ) : Nat :=
  w.request.weight q + w.running.elim 0 f

def DelayedWork.weight (q : Nat) (f : φ → Nat) (d : DelayedWork φ) : Nat := d.work.weight q f

@[simp] theorem Work.weight_allocate : (Work.allocate : Work φ).weight q f = 0 := rfl

@[simp] theorem DelayedWork.weight_allocate :
    (DelayedWork.allocate : DelayedWork φ).weight q f = 0 := rfl

/-- A request adds its own weight at most. -/
theorem Work.weight_enqueue_le (w : Work φ) : w.enqueue.weight q f ≤ w.weight q f + q := by
  unfold Work.enqueue
  split
  · next h => simp [Work.weight, Request.weight, h.2, Nat.add_comm]
  · exact Nat.le_add_right _ _

/-- The start turns the weight of a request into that of the entry. -/
theorem Work.weight_start {w w' : Work φ} {entry : φ} (h : w.start entry = some w') :
    w'.weight q f + q = w.weight q f + f entry := by
  obtain ⟨hq, hr, -, rfl⟩ := Work.start_eq_some h
  simp [Work.weight, Request.weight, hq, hr, Nat.add_comm]

/-- The callback goes on: its weight becomes that of the next position. -/
theorem Work.weight_goto {w : Work φ} {pc : φ} (h : w.running = some pc) (next : Option φ) :
    (w.goto next).weight q f + f pc = w.weight q f + next.elim 0 f := by
  simp only [Work.weight, Work.goto, h, Option.elim_some]
  omega

/-- Freeing adds no weight. -/
theorem Work.weight_free {w w' : Work φ} (h : w.free = some w') :
    w'.weight q f ≤ w.weight q f := by
  obtain ⟨-, rfl⟩ := Work.free_eq_some h
  exact Nat.zero_le _

namespace DelayedWork

theorem weight_enqueue_le (d : DelayedWork φ) :
    d.enqueue.weight q f ≤ d.weight q f + (q + 1) := by
  unfold DelayedWork.enqueue
  split
  · next h => simp [DelayedWork.weight, Work.weight, Request.weight, h.2.2, Nat.add_comm]
  · exact Nat.le_add_right _ _

/-- The expiry of the timer takes one from the weight. -/
theorem weight_expire {d d' : DelayedWork φ} (h : d.expire = some d') :
    d'.weight q f + 1 = d.weight q f := by
  obtain ⟨hr, rfl⟩ := expire_eq_some h
  simp only [DelayedWork.weight, Work.weight, Request.weight, hr]
  omega

theorem weight_start {d d' : DelayedWork φ} {entry : φ} (h : d.start entry = some d') :
    d'.weight q f + q = d.weight q f + f entry := by
  obtain ⟨w, hw, rfl⟩ := Option.map_eq_some_iff.mp h
  exact Work.weight_start hw

theorem weight_goto {d : DelayedWork φ} {pc : φ} (h : d.work.running = some pc)
    (next : Option φ) : (d.goto next).weight q f + f pc = d.weight q f + next.elim 0 f :=
  Work.weight_goto h next

/-- Freeing the timer adds no weight. -/
theorem weight_freeTimer_le (d : DelayedWork φ) : d.freeTimer.weight q f ≤ d.weight q f := by
  unfold freeTimer DelayedWork.weight
  dsimp only
  split
  · exact Nat.add_le_add_right (Nat.zero_le _) _
  · exact Nat.le_refl _

theorem weight_freeWork_le {d d' : DelayedWork φ} (h : d.freeWork = some d') :
    d'.weight q f ≤ d.weight q f := by
  obtain ⟨w, hw, rfl⟩ := Option.map_eq_some_iff.mp h
  exact Work.weight_free hw

end DelayedWork

end Weight

/-! ## Nothing left to do -/

/-- A freed object has no request and no callback. -/
def Work.Sound {φ : Type} (w : Work φ) : Prop :=
  w.freed = true → w.request = .idle ∧ w.running = none

namespace Work

variable {φ : Type} {w w' : Work φ}

theorem sound_allocate : (allocate : Work φ).Sound := nofun

/-- A callback that goes on belongs to an object that is not freed. -/
theorem Sound.goto (h : w.Sound) (hr : w.running ≠ none) (next : Option φ) :
    (w.goto next).Sound := fun hf => absurd (h hf).2 hr

/-- A sound object with a request that nobody can start, and no callback, has none queued. -/
theorem Sound.ne_queued (h : w.Sound) {entry : φ} (hs : w.start entry = none)
    (hr : w.running = none) : w.request ≠ .queued := by
  intro hq
  have hf : w.freed = false := by
    cases hf : w.freed with
    | false => rfl
    | true => exact absurd (hq.symm.trans (h hf).1) (by decide)
  rw [Work.start, if_pos ⟨hq, hr, hf⟩] at hs
  cases hs

end Work

namespace DelayedWork

variable {φ : Type} {d d' : DelayedWork φ}

/-- A request to a freed object is ignored. -/
theorem sound_enqueue (h : d.work.Sound) : d.enqueue.work.Sound := by
  unfold DelayedWork.enqueue
  split
  · next hc => exact fun hf => absurd (hc.2.1.symm.trans hf) (by decide)
  · exact h

theorem sound_expire (h : d.work.Sound) (he : d.expire = some d') : d'.work.Sound := by
  obtain ⟨hr, rfl⟩ := expire_eq_some he
  exact fun hf => absurd (hr.symm.trans (h hf).1) (by decide)

theorem sound_start {entry : φ} (hs : d.start entry = some d') : d'.work.Sound := by
  obtain ⟨-, -, -, rfl⟩ := start_eq_some hs
  exact nofun

/-- Freeing the timer takes the request away that waits for it. -/
theorem sound_freeTimer (h : d.work.Sound) : d.freeTimer.work.Sound := by
  unfold freeTimer
  dsimp only
  split
  · exact fun hf => ⟨rfl, (h hf).2⟩
  · exact h

/-- A freed object has neither a request nor a callback. -/
theorem sound_freeWork (hf : d.freeWork = some d') : d'.work.Sound := by
  obtain ⟨-, rfl⟩ := freeWork_eq_some hf
  exact fun _ => ⟨rfl, rfl⟩

/-- A request whose timer has not expired can expire, and one that is queued can be started. -/
theorem idle_of_halted (h : d.work.Sound) {entry : φ} (he : d.expire = none)
    (hs : d.start entry = none) (hr : d.work.running = none) : d.work.request = .idle := by
  cases hq : d.work.request with
  | idle => rfl
  | armed =>
    rw [expire, if_pos hq] at he
    cases he
  | queued => exact absurd hq (h.ne_queued (Option.map_eq_none_iff.mp hs) hr)

end DelayedWork

end WorkQueue
