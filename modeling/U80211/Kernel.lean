import Mathlib.Logic.Function.Basic
import U80211.Lib.Lts

/-!
# `tests/kernel_interface.c`: work objects on threads

The work queue of the kernel interface as the tests implement it: each work object has a thread and
a condition variable, and one mutex protects all objects. One step is what a thread does from one
acquisition of the mutex to the release after it, so the mutex does not appear. `φ` stands for a
callback together with its argument.

A signal reaches a thread that waits; what the thread does not take is lost with the next wait.
Waits may also end without a signal. A step that would follow a pointer to a freed object, or call
a callback that was never set, does not exist: the theorems show that none of them is needed.
-/

namespace U80211

/-! ## Time -/

/-- `struct timespec` -/
structure Timespec where
  sec : Nat
  nsec : Nat
deriving DecidableEq, Repr

namespace Timespec

/-- `timespec_compare` -/
def compare (a b : Timespec) : Int :=
  if a.sec < b.sec then -1
  else if b.sec < a.sec then 1
  else if a.nsec < b.nsec then -1
  else if b.nsec < a.nsec then 1
  else 0

/-- What `clock_gettime` returns. -/
def Normal (a : Timespec) : Prop := a.nsec < 1000000000

instance (a : Timespec) : Decidable a.Normal := inferInstanceAs (Decidable (_ < _))

/-- `deadline_after_ms`, called at the time `now`. -/
def deadlineAfterMs (now : Timespec) (ms : UInt64) : Timespec :=
  let sec := now.sec + ms.toNat / 1000
  let nsec := now.nsec + ms.toNat % 1000 * 1000000
  if 1000000000 ≤ nsec then { sec := sec + 1, nsec := nsec - 1000000000 } else { sec, nsec }

end Timespec

/-! ## Objects -/

/-- Positions in `work_thread` at which the mutex is not held. -/
inductive ThreadPc (φ : Type) where
  /-- before `pthread_mutex_lock` -/
  | locking
  /-- in `pthread_cond_wait` -/
  | waiting
  /-- in `pthread_cond_timedwait`, up to a deadline -/
  | timedWaiting (deadline : Timespec)
  /-- in the callback -/
  | running (callback : φ)
  /-- the thread has returned -/
  | exited
deriving DecidableEq

/-- `kernel_timer_t`; `work` is the address of a work object. -/
structure KernelTimer where
  work : Option Nat
deriving DecidableEq

/-- `kernel_work_t` with its thread. -/
structure KernelWork (φ : Type) where
  thread : ThreadPc φ
  /-- `condition` has been signalled since the thread waits -/
  signalled : Bool
  stopping : Bool
  pending : Bool
  deadline : Timespec
  /-- the address of a timer -/
  timer : Option Nat
  /-- `function` and `context` -/
  callback : Option φ
deriving DecidableEq

structure Kernel (φ : Type) where
  /-- `CLOCK_MONOTONIC` -/
  now : Timespec
  works : Nat → Option (KernelWork φ)
  timers : Nat → Option KernelTimer
  /-- the next addresses -/
  nextWork : Nat
  nextTimer : Nat

variable {φ : Type}

/-- `u80211_kernel_allocate_work` -/
def KernelWork.allocate : KernelWork φ where
  thread := .locking
  signalled := false
  stopping := false
  pending := false
  deadline := { sec := 0, nsec := 0 }
  timer := none
  callback := none

/-- `pthread_cond_signal` -/
def KernelWork.signal (o : KernelWork φ) : KernelWork φ :=
  match o.thread with
  | .waiting | .timedWaiting _ => { o with signalled := true }
  | _ => o

namespace Kernel

def init : Kernel φ where
  now := { sec := 0, nsec := 0 }
  works := fun _ => none
  timers := fun _ => none
  nextWork := 0
  nextTimer := 0

def setWork (k : Kernel φ) (w : Nat) (o : KernelWork φ) : Kernel φ :=
  { k with works := Function.update k.works w (some o) }

def setTimer (k : Kernel φ) (t : Nat) (timer : KernelTimer) : Kernel φ :=
  { k with timers := Function.update k.timers t (some timer) }

/-- `timer->work = NULL` of the timer that a work object points to; `none` when it has been
freed. -/
def unlink (k : Kernel φ) : Option Nat → Option (Kernel φ)
  | none => some k
  | some t => (k.timers t).map fun _ => k.setTimer t { work := none }

/-! ## `work_thread` -/

/-- From the second `if (work->stopping)` on: the thread goes on to wait, returns or takes the
request. -/
def take (k : Kernel φ) (w : Nat) (o : KernelWork φ) : Option (Kernel φ) :=
  if o.stopping then some (k.setWork w { o with thread := .exited })
  else if ¬ o.pending then some (k.setWork w { o with thread := .waiting, signalled := false })
  else do
    let callback ← o.callback
    let k ← k.unlink o.timer
    some (k.setWork w { o with thread := .running callback, timer := none, pending := false })

/-- The inner loop. -/
def waitForDeadline (k : Kernel φ) (w : Nat) (o : KernelWork φ) : Option (Kernel φ) :=
  if ¬ o.stopping ∧ o.pending ∧ o.timer ≠ none then
    if 0 ≤ k.now.compare o.deadline then k.take w o
    else some (k.setWork w { o with thread := .timedWaiting o.deadline, signalled := false })
  else k.take w o

/-- The head of the outer loop. -/
def waitForRequest (k : Kernel φ) (w : Nat) (o : KernelWork φ) : Option (Kernel φ) :=
  if ¬ o.stopping ∧ ¬ o.pending then
    some (k.setWork w { o with thread := .waiting, signalled := false })
  else if o.stopping then some (k.setWork w { o with thread := .exited })
  else k.waitForDeadline w o

/-- The thread acquires the mutex and goes on. -/
def resume (k : Kernel φ) (w : Nat) (o : KernelWork φ) : Option (Kernel φ) :=
  match o.thread with
  | .locking | .waiting => k.waitForRequest w o
  | .timedWaiting _ => k.waitForDeadline w o
  | .running _ | .exited => none

/-! ## Calls -/

/-- `u80211_kernel_enqueue_work` -/
def enqueueWork (k : Kernel φ) (w : Nat) (callback : φ) : Option (Kernel φ) := do
  let o ← k.works w
  if ¬ o.pending ∧ ¬ o.stopping then
    some (k.setWork w { o with callback := some callback, pending := true }.signal)
  else some k

/-- `u80211_kernel_enqueue_delayed_work` -/
def enqueueDelayedWork (k : Kernel φ) (w t : Nat) (callback : φ) (ms : UInt64) :
    Option (Kernel φ) :=
  if ms = 0 then k.enqueueWork w callback
  else do
    let o ← k.works w
    let timer ← k.timers t
    if ¬ o.pending ∧ ¬ o.stopping ∧ timer.work = none then
      let o : KernelWork φ :=
        { o with
          callback := some callback
          deadline := k.now.deadlineAfterMs ms
          timer := some t
          pending := true }
      some ((k.setTimer t { work := some w }).setWork w o.signal)
    else some k

/-- What `u80211_kernel_free_timer` does when the timer points to a work object. -/
def cancel (k : Kernel φ) (t w : Nat) : Option (Kernel φ) := do
  let o ← k.works w
  if o.timer = some t then
    some (k.setWork w { o with timer := none, pending := false }.signal)
  else some k

/-- `u80211_kernel_free_timer` -/
def freeTimer (k : Kernel φ) (t : Nat) : Option (Kernel φ) := do
  let timer ← k.timers t
  let k ← timer.work.elim (some k) (k.cancel t)
  some { k with timers := Function.update k.timers t none }

/-- `u80211_kernel_free_work`, up to the release of the mutex. -/
def freeWork (k : Kernel φ) (w : Nat) : Option (Kernel φ) := do
  let o ← k.works w
  let k ← k.unlink o.timer
  some (k.setWork w { o with stopping := true, pending := false, timer := none }.signal)

/-- `pthread_join` and `destroy_work` at the end of it. -/
def join (k : Kernel φ) (w : Nat) : Option (Kernel φ) := do
  let o ← k.works w
  match o.stopping, o.thread with
  | true, .exited => some { k with works := Function.update k.works w none }
  | _, _ => none

end Kernel

/-! ## Steps -/

inductive KernelAction (φ : Type) where
  /-- the clock goes on -/
  | tick (now : Timespec)
  | allocateWork
  | allocateTimer
  | enqueueWork (w : Nat) (callback : φ)
  | enqueueDelayedWork (w t : Nat) (callback : φ) (ms : UInt64)
  | freeTimer (t : Nat)
  | freeWork (w : Nat)
  | join (w : Nat)
  /-- the thread of a work object gets the mutex, after a wait with or without a signal -/
  | resume (w : Nat)
  /-- the callback returns -/
  | finish (w : Nat)

namespace Kernel

/-- The step of an action; `none` when it is not enabled. A work object is freed once. -/
def step (action : KernelAction φ) (k : Kernel φ) : Option (Kernel φ) :=
  match action with
  | .tick now => if now.Normal ∧ 0 ≤ now.compare k.now then some { k with now } else none
  | .allocateWork =>
    some { k.setWork k.nextWork .allocate with nextWork := k.nextWork + 1 }
  | .allocateTimer =>
    some { k.setTimer k.nextTimer { work := none } with nextTimer := k.nextTimer + 1 }
  | .enqueueWork w callback => k.enqueueWork w callback
  | .enqueueDelayedWork w t callback ms => k.enqueueDelayedWork w t callback ms
  | .freeTimer t => k.freeTimer t
  | .freeWork w => do
    let o ← k.works w
    if o.stopping then none else k.freeWork w
  | .join w => k.join w
  | .resume w => do
    let o ← k.works w
    k.resume w o
  | .finish w => do
    let o ← k.works w
    match o.thread with
    | .running _ => some (k.setWork w { o with thread := .locking })
    | _ => none

abbrev Transition (φ : Type) := Lts.Transition (Kernel φ) (KernelAction φ)

abbrev Run : List (Transition φ) → Kernel φ → Prop := Lts.Run step init

abbrev Reachable : Kernel φ → Prop := Lts.Reachable step init

end Kernel

end U80211
