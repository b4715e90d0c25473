import U80211.Kernel

/-!
# Work objects on threads: pointers and wake-ups

A work object points to the timer of its request, and the timer points back. Freeing either of them
goes through these pointers, and so does a thread that takes a request. Threads sleep until they
are signalled or a deadline has passed.

* `step_effect`: what one step of the kernel can do
* `Reachable.consistent`: the pointers agree, and no thread sleeps through its work
* `kernel_never_stuck`: no step follows a pointer to a freed object or calls a callback that was
  never set; a request whose time has come is started by the next step of its thread
-/

namespace U80211

/-! ## Time -/

namespace Timespec

variable {a b : Timespec}

def ns (a : Timespec) : Nat := a.sec * 1000000000 + a.nsec

/-- On normal times the order of the seconds and nanoseconds is that of the time. -/
theorem compare_nonneg_iff (ha : a.Normal) (hb : b.Normal) : 0 ≤ a.compare b ↔ b.ns ≤ a.ns := by
  unfold Normal at ha hb
  unfold compare ns
  split
  · constructor <;> intro h <;> omega
  · split
    · constructor <;> intro h <;> omega
    · split
      · constructor <;> intro h <;> omega
      · split <;> constructor <;> intro h <;> omega

/-- The carry from the nanoseconds to the seconds. -/
theorem ns_carry (sec nsec : Nat) :
    (if 1000000000 ≤ nsec then { sec := sec + 1, nsec := nsec - 1000000000 }
      else { sec, nsec } : Timespec).ns = sec * 1000000000 + nsec := by
  by_cases h : 1000000000 ≤ nsec
  · rw [if_pos h]
    show (sec + 1) * 1000000000 + (nsec - 1000000000) = _
    omega
  · rw [if_neg h]
    rfl

/-- A carry out of the nanoseconds gives a normal time. -/
theorem normal_carry {sec nsec : Nat} (hn : nsec < 2000000000) :
    (if 1000000000 ≤ nsec then { sec := sec + 1, nsec := nsec - 1000000000 }
      else { sec, nsec } : Timespec).Normal := by
  by_cases h : 1000000000 ≤ nsec
  · rw [if_pos h]
    show nsec - 1000000000 < 1000000000
    omega
  · rw [if_neg h]
    exact Nat.lt_of_not_le h

/-- The deadline is the delay away. -/
theorem ns_deadlineAfterMs (now : Timespec) (ms : UInt64) :
    (now.deadlineAfterMs ms).ns = now.ns + ms.toNat * 1000000 := by
  refine (ns_carry _ _).trans ?_
  unfold ns
  have hms := Nat.div_add_mod ms.toNat 1000
  generalize ms.toNat / 1000 = q at *
  generalize ms.toNat % 1000 = r at *
  generalize ms.toNat = m at *
  subst hms
  omega

theorem normal_deadlineAfterMs {now : Timespec} (h : now.Normal) (ms : UInt64) :
    (now.deadlineAfterMs ms).Normal := by
  refine normal_carry ?_
  have hms : ms.toNat % 1000 < 1000 := Nat.mod_lt _ (by decide)
  have hnow : now.nsec < 1000000000 := h
  generalize ms.toNat % 1000 = r at *
  omega

end Timespec

variable {φ : Type}

/-! ## What one step can do -/

namespace KernelWork

variable {o : KernelWork φ}

@[simp] theorem signal_stopping (o : KernelWork φ) : o.signal.stopping = o.stopping := by
  unfold signal; split <;> rfl

@[simp] theorem signal_pending (o : KernelWork φ) : o.signal.pending = o.pending := by
  unfold signal; split <;> rfl

@[simp] theorem signal_deadline (o : KernelWork φ) : o.signal.deadline = o.deadline := by
  unfold signal; split <;> rfl

@[simp] theorem signal_timer (o : KernelWork φ) : o.signal.timer = o.timer := by
  unfold signal; split <;> rfl

@[simp] theorem signal_callback (o : KernelWork φ) : o.signal.callback = o.callback := by
  unfold signal; split <;> rfl

@[simp] theorem signal_thread (o : KernelWork φ) : o.signal.thread = o.thread := by
  unfold signal; split <;> rfl

/-- The thread is not in the callback, and has not returned. -/
def Ready (o : KernelWork φ) : Prop :=
  o.thread = .locking ∨ o.thread = .waiting ∨ ∃ d, o.thread = .timedWaiting d

/-- The request need not wait any longer. -/
def Due (o : KernelWork φ) (now : Timespec) : Prop := o.timer = none ∨ o.deadline.ns ≤ now.ns

end KernelWork

namespace Kernel

variable {k k' : Kernel φ} {w t : Nat} {o : KernelWork φ} {callback : φ} {ms : UInt64}

/-- What the acquisition of the mutex leads a thread to. -/
inductive Resumes (k : Kernel φ) (w : Nat) (o : KernelWork φ) : Kernel φ → Prop
  | exits (hs : o.stopping = true) : Resumes k w o (k.setWork w { o with thread := .exited })
  | waits (hs : o.stopping = false) (hp : o.pending = false) :
      Resumes k w o (k.setWork w { o with thread := .waiting, signalled := false })
  | waitsTimed (hs : o.stopping = false) (hp : o.pending = true) (ht : o.timer ≠ none)
      (hd : ¬ 0 ≤ k.now.compare o.deadline) :
      Resumes k w o (k.setWork w { o with thread := .timedWaiting o.deadline, signalled := false })
  | takes {callback : φ} {k₁ : Kernel φ} (hs : o.stopping = false) (hp : o.pending = true)
      (hd : o.timer = none ∨ 0 ≤ k.now.compare o.deadline) (hc : o.callback = some callback)
      (hu : k.unlink o.timer = some k₁) :
      Resumes k w o
        (k₁.setWork w { o with thread := .running callback, timer := none, pending := false })

/-- **What one step of the kernel can do.** -/
inductive Effect (k : Kernel φ) : KernelAction φ → Kernel φ → Prop
  | tick {now : Timespec} (hn : now.Normal) (hle : 0 ≤ now.compare k.now) :
      Effect k (.tick now) { k with now }
  | allocateWork :
      Effect k .allocateWork { k.setWork k.nextWork .allocate with nextWork := k.nextWork + 1 }
  | allocateTimer :
      Effect k .allocateTimer
        { k.setTimer k.nextTimer { work := none } with nextTimer := k.nextTimer + 1 }
  | ignored {w : Nat} {callback : φ} {o : KernelWork φ} (ho : k.works w = some o)
      (hb : o.pending = true ∨ o.stopping = true) : Effect k (.enqueueWork w callback) k
  | enqueued {w : Nat} {callback : φ} {o : KernelWork φ} (ho : k.works w = some o)
      (hp : o.pending = false) (hs : o.stopping = false) :
      Effect k (.enqueueWork w callback)
        (k.setWork w ({ o with callback := some callback, pending := true } : KernelWork φ).signal)
  | undelayed {w t : Nat} {callback : φ} {k' : Kernel φ}
      (he : Effect k (.enqueueWork w callback) k') :
      Effect k (.enqueueDelayedWork w t callback 0) k'
  | ignoredDelayed {w t : Nat} {callback : φ} {ms : UInt64} {o : KernelWork φ} {timer : KernelTimer}
      (hms : ms ≠ 0) (ho : k.works w = some o) (ht : k.timers t = some timer)
      (hb : o.pending = true ∨ o.stopping = true ∨ timer.work ≠ none) :
      Effect k (.enqueueDelayedWork w t callback ms) k
  | armed {w t : Nat} {callback : φ} {ms : UInt64} {o : KernelWork φ} (hms : ms ≠ 0)
      (ho : k.works w = some o) (ht : k.timers t = some { work := none }) (hp : o.pending = false)
      (hs : o.stopping = false) :
      Effect k (.enqueueDelayedWork w t callback ms)
        ((k.setTimer t { work := some w }).setWork w
          ({ o with
            callback := some callback
            deadline := k.now.deadlineAfterMs ms
            timer := some t
            pending := true } : KernelWork φ).signal)
  | freeIdleTimer {t : Nat} (ht : k.timers t = some { work := none }) :
      Effect k (.freeTimer t) { k with timers := Function.update k.timers t none }
  | freeStaleTimer {t w : Nat} {o : KernelWork φ} (ht : k.timers t = some { work := some w })
      (ho : k.works w = some o) (hne : o.timer ≠ some t) :
      Effect k (.freeTimer t) { k with timers := Function.update k.timers t none }
  | cancel {t w : Nat} {o : KernelWork φ} (ht : k.timers t = some { work := some w })
      (ho : k.works w = some o) (he : o.timer = some t) :
      Effect k (.freeTimer t)
        { k.setWork w ({ o with timer := none, pending := false } : KernelWork φ).signal with
          timers := Function.update k.timers t none }
  | freeWork {w : Nat} {o : KernelWork φ} {k₁ : Kernel φ} (ho : k.works w = some o)
      (hs : o.stopping = false) (hu : k.unlink o.timer = some k₁) :
      Effect k (.freeWork w)
        (k₁.setWork w
          ({ o with stopping := true, pending := false, timer := none } : KernelWork φ).signal)
  | join {w : Nat} {o : KernelWork φ} (ho : k.works w = some o) (hs : o.stopping = true)
      (he : o.thread = .exited) :
      Effect k (.join w) { k with works := Function.update k.works w none }
  | resume {w : Nat} {o : KernelWork φ} {k' : Kernel φ} (ho : k.works w = some o) (hr : o.Ready)
      (hk : Resumes k w o k') : Effect k (.resume w) k'
  | finish {w : Nat} {o : KernelWork φ} {callback : φ} (ho : k.works w = some o)
      (hc : o.thread = .running callback) :
      Effect k (.finish w) (k.setWork w { o with thread := .locking })

/-- The thread takes a request whose time has come. -/
theorem take_resumes (h : k.take w o = some k')
    (hd : o.pending = true → o.timer = none ∨ 0 ≤ k.now.compare o.deadline) :
    Resumes k w o k' := by
  unfold take at h
  split at h
  · next hs =>
    cases h
    exact .exits hs
  · next hs =>
    rw [Bool.not_eq_true] at hs
    split at h
    · next hp =>
      cases h
      rw [Bool.not_eq_true] at hp
      exact .waits hs hp
    · next hp =>
      rw [not_not] at hp
      obtain ⟨callback, hc, h⟩ := Option.bind_eq_some_iff.mp h
      obtain ⟨k₁, hu, h⟩ := Option.bind_eq_some_iff.mp h
      cases h
      exact .takes hs hp (hd hp) hc hu

/-- The thread goes to sleep until the deadline, or without one. -/
theorem waitForDeadline_resumes (h : k.waitForDeadline w o = some k') : Resumes k w o k' := by
  unfold waitForDeadline at h
  split at h
  · next hc =>
    obtain ⟨hs, hp, ht⟩ := hc
    split at h
    · next hd => exact take_resumes h fun _ => Or.inr hd
    · next hd =>
      cases h
      exact .waitsTimed (Bool.not_eq_true _ ▸ hs) hp ht hd
  · next hn =>
    by_cases hs : o.stopping = true
    · rw [take, if_pos hs] at h
      cases h
      exact .exits hs
    · refine take_resumes h fun hp => Or.inl ?_
      by_contra ht
      exact hn ⟨hs, hp, ht⟩

/-- A thread that goes on was ready, and does one of the four things. -/
theorem resume_resumes (h : k.resume w o = some k') : o.Ready ∧ Resumes k w o k' := by
  have houter (h : k.waitForRequest w o = some k') : Resumes k w o k' := by
    unfold waitForRequest at h
    split at h
    · next hc =>
      cases h
      exact .waits (Bool.not_eq_true _ ▸ hc.1) (Bool.not_eq_true _ ▸ hc.2)
    · split at h
      · next hs =>
        cases h
        exact .exits hs
      · exact waitForDeadline_resumes h
  unfold resume at h
  split at h
  · next hthread => exact ⟨Or.inl hthread, houter h⟩
  · next hthread => exact ⟨Or.inr (Or.inl hthread), houter h⟩
  · next d hthread => exact ⟨Or.inr (Or.inr ⟨d, hthread⟩), waitForDeadline_resumes h⟩
  · cases h
  · cases h

/-- What `kernel_enqueue_work` does. -/
theorem enqueueWork_effect (h : k.enqueueWork w callback = some k') :
    Effect k (.enqueueWork w callback) k' := by
  obtain ⟨o, ho, h⟩ := Option.bind_eq_some_iff.mp h
  split at h
  · next hc =>
    cases h
    exact .enqueued ho (Bool.not_eq_true _ ▸ hc.1) (Bool.not_eq_true _ ▸ hc.2)
  · next hn =>
    cases h
    refine .ignored ho ?_
    by_contra hb
    obtain ⟨hp, hs⟩ := not_or.mp hb
    exact hn ⟨hp, hs⟩

/-- What `kernel_enqueue_delayed_work` does. -/
theorem enqueueDelayedWork_effect (h : k.enqueueDelayedWork w t callback ms = some k') :
    Effect k (.enqueueDelayedWork w t callback ms) k' := by
  unfold enqueueDelayedWork at h
  split at h
  · next hms =>
    subst hms
    exact .undelayed (enqueueWork_effect h)
  · next hms =>
    obtain ⟨o, ho, h⟩ := Option.bind_eq_some_iff.mp h
    obtain ⟨⟨work⟩, ht, h⟩ := Option.bind_eq_some_iff.mp h
    split at h
    · next hc =>
      obtain ⟨hp, hs, hwork⟩ := hc
      dsimp only at hwork
      subst hwork
      cases h
      exact .armed hms ho ht (Bool.not_eq_true _ ▸ hp) (Bool.not_eq_true _ ▸ hs)
    · next hn =>
      cases h
      refine .ignoredDelayed hms ho ht ?_
      by_contra hb
      obtain ⟨hp, hb⟩ := not_or.mp hb
      obtain ⟨hs, hwork⟩ := not_or.mp hb
      exact hn ⟨hp, hs, not_not.mp hwork⟩

/-- What `kernel_free_timer` does. -/
theorem freeTimer_effect (h : k.freeTimer t = some k') : Effect k (.freeTimer t) k' := by
  obtain ⟨⟨work⟩, ht, h⟩ := Option.bind_eq_some_iff.mp h
  obtain ⟨k₁, h₁, h⟩ := Option.bind_eq_some_iff.mp h
  cases h
  cases work with
  | none =>
    cases h₁
    exact .freeIdleTimer ht
  | some w =>
    obtain ⟨o, ho, h₁⟩ := Option.bind_eq_some_iff.mp h₁
    split at h₁
    · next he =>
      cases h₁
      exact .cancel ht ho he
    · next hne =>
      cases h₁
      exact .freeStaleTimer ht ho hne

/-- **Every step of the kernel is one of them.** -/
theorem step_effect {action : KernelAction φ} (h : step action k = some k') :
    Effect k action k' := by
  cases action with
  | tick now =>
    simp only [step] at h
    split at h
    · next hc =>
      cases h
      exact .tick hc.1 hc.2
    · cases h
  | allocateWork => cases h; exact .allocateWork
  | allocateTimer => cases h; exact .allocateTimer
  | enqueueWork w callback => exact enqueueWork_effect h
  | enqueueDelayedWork w t callback ms => exact enqueueDelayedWork_effect h
  | freeTimer t => exact freeTimer_effect h
  | freeWork w =>
    obtain ⟨o, ho, h⟩ := Option.bind_eq_some_iff.mp h
    split at h
    · cases h
    · next hs =>
      obtain ⟨o₁, ho₁, h⟩ := Option.bind_eq_some_iff.mp h
      obtain ⟨k₁, hu, h⟩ := Option.bind_eq_some_iff.mp h
      obtain rfl := Option.some.inj (ho.symm.trans ho₁)
      cases h
      exact .freeWork ho (Bool.not_eq_true _ ▸ hs) hu
  | join w =>
    obtain ⟨o, ho, h⟩ := Option.bind_eq_some_iff.mp h
    split at h
    · next hs he =>
      cases h
      exact .join ho hs he
    · cases h
  | resume w =>
    obtain ⟨o, ho, h⟩ := Option.bind_eq_some_iff.mp h
    obtain ⟨hr, hk⟩ := resume_resumes h
    exact .resume ho hr hk
  | finish w =>
    obtain ⟨o, ho, h⟩ := Option.bind_eq_some_iff.mp h
    split at h
    · next callback hc =>
      cases h
      exact .finish ho hc
    · cases h

end Kernel

/-! ## Work objects -/

namespace KernelWork

variable {o : KernelWork φ}

/-- The fields of a work object agree. -/
structure Valid (o : KernelWork φ) : Prop where
  armed : o.timer ≠ none → o.pending = true
  stopped : o.stopping = true → o.pending = false
  callback : o.pending = true → o.callback ≠ none
  exited : o.thread = .exited → o.stopping = true
  normal : o.deadline.Normal

/-- A thread that sleeps has nothing to do before its deadline, or has been signalled. -/
structure Woken (o : KernelWork φ) : Prop where
  waiting : o.thread = .waiting → o.pending = true ∨ o.stopping = true → o.signalled = true
  timed : ∀ d, o.thread = .timedWaiting d → o.signalled = true ∨
    (o.stopping = false ∧ o.pending = true ∧ o.timer ≠ none ∧ o.deadline = d)

theorem valid_allocate : (allocate : KernelWork φ).Valid where
  armed := by simp [allocate]
  stopped := by simp [allocate]
  callback := by simp [allocate]
  exited := by simp [allocate]
  normal := by simp [allocate, Timespec.Normal]

theorem woken_allocate : (allocate : KernelWork φ).Woken where
  waiting := by simp [allocate]
  timed := by simp [allocate]

theorem Valid.signal (h : o.Valid) : o.signal.Valid where
  armed := by simpa using h.armed
  stopped := by simpa using h.stopped
  callback := by simpa using h.callback
  exited := by simpa using h.exited
  normal := by simpa using h.normal

/-- After a signal nobody waits unwoken. -/
theorem woken_signal (o : KernelWork φ) : o.signal.Woken := by
  constructor
  · intro hw _
    rw [signal_thread] at hw
    simp [KernelWork.signal, hw]
  · intro d hw
    rw [signal_thread] at hw
    simp [KernelWork.signal, hw]

/-- A thread that does not sleep cannot miss a signal. -/
theorem woken_of_awake (hw : o.thread ≠ .waiting) (ht : ∀ d, o.thread ≠ .timedWaiting d) :
    o.Woken := ⟨fun h => absurd h hw, fun d h => absurd h (ht d)⟩

/-- A timer belongs to a request. -/
theorem Valid.timer_none (h : o.Valid) (hp : o.pending = false) : o.timer = none := by
  by_contra ht
  rw [h.armed ht] at hp
  cases hp

end KernelWork

namespace Kernel

variable {k k' k₁ : Kernel φ} {w t : Nat} {o o' : KernelWork φ} {action : KernelAction φ}

/-! ## The invariant -/

/-- The pointers between work objects and timers agree. -/
structure Linked (works : Nat → Option (KernelWork φ)) (timers : Nat → Option KernelTimer) :
    Prop where
  work : ∀ w o t, works w = some o → o.timer = some t → timers t = some { work := some w }
  timer : ∀ t w, timers t = some { work := some w } → ∃ o, works w = some o ∧ o.timer = some t

structure Consistent (k : Kernel φ) : Prop where
  linked : Linked k.works k.timers
  valid : ∀ w o, k.works w = some o → o.Valid
  woken : ∀ w o, k.works w = some o → o.Woken
  now : k.now.Normal
  works : ∀ w o, k.works w = some o → w < k.nextWork
  timers : ∀ t timer, k.timers t = some timer → t < k.nextTimer

/-- What `unlink` does to the timers. -/
theorem unlink_eq_some (h : Linked k.works k.timers) (ho : k.works w = some o) :
    k.unlink o.timer = some { k with
      timers := fun t => if o.timer = some t then some { work := none } else k.timers t } := by
  cases ht : o.timer with
  | none => simp [unlink]
  | some t =>
    rw [unlink, h.work w o t ho ht, Option.map_some]
    refine congrArg some (congrArg (fun timers => { k with timers }) ?_)
    funext t'
    rw [Function.update_apply]
    by_cases he : t' = t
    · rw [if_pos he, if_pos (by rw [he])]
    · rw [if_neg he, if_neg fun hs => he (Option.some.inj hs).symm]

/-- A work object changes, but not its pointer. -/
theorem Linked.setWork (h : Linked k.works k.timers) (ho : k.works w = some o)
    (ht : o'.timer = o.timer) : Linked (Function.update k.works w (some o')) k.timers := by
  constructor
  · intro v p t hv hp
    by_cases he : v = w
    · subst he
      rw [Function.update_self, Option.some.injEq] at hv
      subst hv
      exact h.work v o t ho (ht ▸ hp)
    · rw [Function.update_of_ne he] at hv
      exact h.work v p t hv hp
  · intro t v hv
    obtain ⟨p, hp, htimer⟩ := h.timer t v hv
    by_cases he : v = w
    · subst he
      rw [ho, Option.some.injEq] at hp
      subst hp
      exact ⟨o', Function.update_self _ _ _, ht.trans htimer⟩
    · exact ⟨p, (Function.update_of_ne he _ _).trans hp, htimer⟩

/-- A work object and its timer are separated; the timer may be freed at the same time. -/
theorem Linked.unlink (h : Linked k.works k.timers) (ho : k.works w = some o)
    (ht : o'.timer = none) {timers : Nat → Option KernelTimer}
    (htimers : ∀ t, (o.timer = some t → ∀ v, timers t ≠ some { work := some v }) ∧
      (o.timer ≠ some t → timers t = k.timers t)) :
    Linked (Function.update k.works w (some o')) timers := by
  constructor
  · intro v p t hv hp
    by_cases he : v = w
    · subst he
      rw [Function.update_self, Option.some.injEq] at hv
      subst hv
      rw [ht] at hp
      cases hp
    · rw [Function.update_of_ne he] at hv
      have hlink := h.work v p t hv hp
      rw [(htimers t).2 fun hot => ?_]
      · exact hlink
      · have hown := h.work w o t ho hot
        rw [hlink, Option.some.injEq, KernelTimer.mk.injEq, Option.some.injEq] at hown
        exact he hown
  · intro t v hv
    by_cases hot : o.timer = some t
    · exact absurd hv ((htimers t).1 hot v)
    · rw [(htimers t).2 hot] at hv
      obtain ⟨p, hp, htimer⟩ := h.timer t v hv
      have he : v ≠ w := by
        rintro rfl
        rw [ho, Option.some.injEq] at hp
        subst hp
        exact hot htimer
      exact ⟨p, (Function.update_of_ne he _ _).trans hp, htimer⟩

/-- A work object and an idle timer are linked. -/
theorem Linked.link (h : Linked k.works k.timers) (ho : k.works w = some o) (hnone : o.timer = none)
    (htimer : k.timers t = some { work := none }) (ht : o'.timer = some t) :
    Linked (Function.update k.works w (some o'))
      (Function.update k.timers t (some { work := some w })) := by
  constructor
  · intro v p u hv hp
    by_cases he : v = w
    · subst he
      rw [Function.update_self, Option.some.injEq] at hv
      subst hv
      rw [ht, Option.some.injEq] at hp
      subst hp
      exact Function.update_self _ _ _
    · rw [Function.update_of_ne he] at hv
      have hlink := h.work v p u hv hp
      have hu : u ≠ t := by
        rintro rfl
        rw [htimer] at hlink
        cases hlink
      rw [Function.update_of_ne hu]
      exact hlink
  · intro u v hv
    by_cases hu : u = t
    · subst hu
      rw [Function.update_self, Option.some.injEq, KernelTimer.mk.injEq, Option.some.injEq] at hv
      subst hv
      exact ⟨o', Function.update_self _ _ _, ht⟩
    · rw [Function.update_of_ne hu] at hv
      obtain ⟨p, hp, hpu⟩ := h.timer u v hv
      have he : v ≠ w := by
        rintro rfl
        rw [ho, Option.some.injEq] at hp
        subst hp
        rw [hnone] at hpu
        cases hpu
      exact ⟨p, (Function.update_of_ne he _ _).trans hp, hpu⟩

/-- A timer that no work object uses is allocated or freed. -/
theorem Linked.setTimer (h : Linked k.works k.timers) {timer : Option KernelTimer}
    (hold : ∀ v, k.timers t ≠ some { work := some v })
    (hnew : ∀ v, timer ≠ some { work := some v }) :
    Linked k.works (Function.update k.timers t timer) := by
  constructor
  · intro v p u hv hp
    have hlink := h.work v p u hv hp
    have hu : u ≠ t := by
      rintro rfl
      exact hold v hlink
    rw [Function.update_of_ne hu]
    exact hlink
  · intro u v hv
    by_cases hu : u = t
    · subst hu
      rw [Function.update_self] at hv
      exact absurd hv (hnew v)
    · rw [Function.update_of_ne hu] at hv
      exact h.timer u v hv

/-- A work object changes. -/
theorem Consistent.setWork (h : k.Consistent) (ho : k.works w = some o)
    {timers : Nat → Option KernelTimer}
    (hlinked : Linked (Function.update k.works w (some o')) timers)
    (htimers : ∀ t timer, timers t = some timer → t < k.nextTimer) (hvalid : o'.Valid)
    (hwoken : o'.Woken) : ({ k.setWork w o' with timers } : Kernel φ).Consistent where
  linked := hlinked
  valid := by
    intro v p (hv : Function.update k.works w (some o') v = some p)
    rw [Function.update_apply] at hv
    split at hv
    · cases hv
      exact hvalid
    · exact h.valid v p hv
  woken := by
    intro v p (hv : Function.update k.works w (some o') v = some p)
    rw [Function.update_apply] at hv
    split at hv
    · cases hv
      exact hwoken
    · exact h.woken v p hv
  now := h.now
  works := by
    intro v p (hv : Function.update k.works w (some o') v = some p)
    rw [Function.update_apply] at hv
    split at hv
    · next he => exact he ▸ h.works w o ho
    · exact h.works v p hv
  timers := htimers

/-- A work object changes, and is separated from its timer. -/
theorem Consistent.unlink (h : k.Consistent) (ho : k.works w = some o)
    (hu : k.unlink o.timer = some k₁) (ht : o'.timer = none) (hvalid : o'.Valid)
    (hwoken : o'.Woken) : (k₁.setWork w o').Consistent := by
  rw [unlink_eq_some h.linked ho, Option.some.injEq] at hu
  subst hu
  refine h.setWork ho (h.linked.unlink ho ht fun t => ⟨fun hot v he => ?_, fun hot => ?_⟩) ?_ hvalid
    hwoken
  · cases (if_pos hot).symm.trans he
  · exact if_neg hot
  · intro t timer hn
    dsimp only at hn
    split at hn
    · next hot => exact h.timers t _ (h.linked.work w o t ho hot)
    · exact h.timers t timer hn

/-- A work object changes, but not its timer. -/
theorem Consistent.keep (h : k.Consistent) (ho : k.works w = some o) (ht : o'.timer = o.timer)
    (hvalid : o'.Valid) (hwoken : o'.Woken) : (k.setWork w o').Consistent :=
  h.setWork ho (h.linked.setWork ho ht) h.timers hvalid hwoken

/-- A timer that is replaced keeps its number. -/
theorem Consistent.timers_update (h : k.Consistent) {timer : KernelTimer}
    (ht : k.timers t = some timer) (n : Option KernelTimer) :
    ∀ u timer', Function.update k.timers t n u = some timer' → u < k.nextTimer := by
  intro u timer' hu
  rw [Function.update_apply] at hu
  split at hu
  · next he => exact he ▸ h.timers t timer ht
  · exact h.timers u timer' hu

/-- The thread of a work object goes on. -/
theorem Consistent.resumes (h : k.Consistent) (ho : k.works w = some o)
    (hk : Resumes k w o k') : k'.Consistent := by
  have hv := h.valid w o ho
  cases hk with
  | exits hs =>
    exact h.keep ho rfl ⟨hv.armed, hv.stopped, hv.callback, fun _ => hs, hv.normal⟩
      (KernelWork.woken_of_awake (by simp) (by simp))
  | waits hs hp =>
    refine h.keep ho rfl ⟨hv.armed, hv.stopped, hv.callback, by simp, hv.normal⟩ ⟨?_, by simp⟩
    intro _ hb
    simp [hs, hp] at hb
  | waitsTimed hs hp ht hd =>
    refine h.keep ho rfl ⟨hv.armed, hv.stopped, hv.callback, by simp, hv.normal⟩ ⟨by simp, ?_⟩
    intro d hthread
    cases hthread
    exact Or.inr ⟨hs, hp, ht, rfl⟩
  | takes hs hp hd hc hu =>
    exact h.unlink ho hu rfl ⟨by simp, fun _ => rfl, by simp, by simp, hv.normal⟩
      (KernelWork.woken_of_awake (by simp) (by simp))

/-- **Every step keeps the pointers together, and lets no thread sleep through its work.** -/
theorem Effect.consistent (h : k.Consistent) (he : Effect k action k') : k'.Consistent := by
  induction he with
  | tick hn hle => exact ⟨h.linked, h.valid, h.woken, hn, h.works, h.timers⟩
  | allocateWork =>
    have hfresh : k.works k.nextWork = none := by
      by_contra hne
      obtain ⟨o, ho⟩ := Option.ne_none_iff_exists'.mp hne
      exact Nat.lt_irrefl _ (h.works _ o ho)
    have hnew {P : Nat → KernelWork φ → Prop} (hold : ∀ w o, k.works w = some o → P w o)
        (hself : P k.nextWork .allocate) (w : Nat) (o : KernelWork φ)
        (ho : Function.update k.works k.nextWork (some .allocate) w = some o) : P w o := by
      rw [Function.update_apply] at ho
      split at ho
      · next he =>
        cases ho
        exact he ▸ hself
      · exact hold w o ho
    refine ⟨⟨?_, fun t w ht => ?_⟩, ?_, ?_, h.now, ?_, h.timers⟩
    · intro w o t ho
      exact hnew (P := fun w o => o.timer = some t → k.timers t = some { work := some w })
        (fun w o ho => h.linked.work w o t ho) (by simp [KernelWork.allocate]) w o ho
    · obtain ⟨o, ho, hot⟩ := h.linked.timer t w ht
      refine ⟨o, (Function.update_of_ne ?_ _ _).trans ho, hot⟩
      rintro rfl
      rw [hfresh] at ho
      cases ho
    · exact hnew (P := fun _ o => o.Valid) h.valid KernelWork.valid_allocate
    · exact hnew (P := fun _ o => o.Woken) h.woken KernelWork.woken_allocate
    · exact hnew (P := fun w _ => w < k.nextWork + 1)
        (fun w o ho => Nat.lt_succ_of_lt (h.works w o ho)) (Nat.lt_succ_self _)
  | allocateTimer =>
    have hfresh (v : Nat) : k.timers k.nextTimer ≠ some { work := some v } := fun ht =>
      Nat.lt_irrefl _ (h.timers _ _ ht)
    refine ⟨h.linked.setTimer hfresh (by simp), h.valid, h.woken, h.now, h.works, ?_⟩
    intro t timer ht
    have ht' : Function.update k.timers k.nextTimer (some { work := none }) t = some timer := ht
    rw [Function.update_apply] at ht'
    split at ht'
    · next he => exact he ▸ Nat.lt_succ_self _
    · exact Nat.lt_succ_of_lt (h.timers t timer ht')
  | ignored | ignoredDelayed => exact h
  | undelayed _ ih => exact ih
  | enqueued ho hp hs =>
    have hv := h.valid _ _ ho
    refine h.keep ho (KernelWork.signal_timer _) (KernelWork.Valid.signal ?_)
      (KernelWork.woken_signal _)
    exact ⟨fun _ => rfl, fun he => absurd (hs.symm.trans he) (by simp), by simp, hv.exited,
      hv.normal⟩
  | armed hms ho ht hp hs =>
    have hv := h.valid _ _ ho
    refine h.setWork ho (h.linked.link ho (hv.timer_none hp) ht (KernelWork.signal_timer _))
      (h.timers_update ht _) (KernelWork.Valid.signal ?_) (KernelWork.woken_signal _)
    exact ⟨fun _ => rfl, fun he => absurd (hs.symm.trans he) (by simp), by simp, hv.exited,
      Timespec.normal_deadlineAfterMs h.now _⟩
  | freeIdleTimer ht =>
    refine ⟨h.linked.setTimer (fun v hv => ?_) (by simp), h.valid, h.woken, h.now, h.works,
      h.timers_update ht _⟩
    rw [ht] at hv
    cases hv
  | freeStaleTimer ht ho hne =>
    obtain ⟨o, ho', hot⟩ := h.linked.timer _ _ ht
    obtain rfl := Option.some.inj (ho.symm.trans ho')
    exact absurd hot hne
  | cancel ht ho he =>
    have hv := h.valid _ _ ho
    refine h.setWork ho (h.linked.unlink ho (KernelWork.signal_timer _) fun u => ?_)
      (h.timers_update ht _) (KernelWork.Valid.signal ?_) (KernelWork.woken_signal _)
    · rw [he, Option.some.injEq, ne_eq, Option.some.injEq]
      refine ⟨fun hu v => ?_, fun hu => Function.update_of_ne (Ne.symm hu) _ _⟩
      rw [← hu, Function.update_self]
      simp
    · exact ⟨by simp, fun _ => rfl, by simp, hv.exited, hv.normal⟩
  | freeWork ho hs hu =>
    have hv := h.valid _ _ ho
    refine h.unlink ho hu (KernelWork.signal_timer _) (KernelWork.Valid.signal ?_)
      (KernelWork.woken_signal _)
    exact ⟨by simp, fun _ => rfl, by simp, fun _ => rfl, hv.normal⟩
  | @join w o ho hs he =>
    have hv := h.valid _ _ ho
    have hnone := hv.timer_none (hv.stopped hs)
    have hold {v : Nat} {p : KernelWork φ} (hp : Function.update k.works w none v = some p) :
        v ≠ w ∧ k.works v = some p := by
      rw [Function.update_apply] at hp
      split at hp
      · cases hp
      · next hne => exact ⟨hne, hp⟩
    refine ⟨⟨fun v p t hp hpt => h.linked.work v p t (hold hp).2 hpt, fun t v ht => ?_⟩,
      fun v p hp => h.valid v p (hold hp).2, fun v p hp => h.woken v p (hold hp).2, h.now,
      fun v p hp => h.works v p (hold hp).2, h.timers⟩
    obtain ⟨p, hp, hpt⟩ := h.linked.timer t v ht
    refine ⟨p, (Function.update_of_ne ?_ _ _).trans hp, hpt⟩
    rintro rfl
    obtain rfl := Option.some.inj (ho.symm.trans hp)
    rw [hnone] at hpt
    cases hpt
  | resume ho hr hk => exact h.resumes ho hk
  | finish ho hc =>
    have hv := h.valid _ _ ho
    exact h.keep ho rfl ⟨hv.armed, hv.stopped, hv.callback, by simp, hv.normal⟩
      (KernelWork.woken_of_awake (by simp) (by simp))

theorem consistent_init : (init : Kernel φ).Consistent where
  linked := ⟨fun _ _ _ ho => (by cases ho), fun _ _ ht => (by cases ht)⟩
  valid _ _ ho := by cases ho
  woken _ _ ho := by cases ho
  now := by simp [init, Timespec.Normal]
  works _ _ ho := by cases ho
  timers _ _ ht := by cases ht

/-- It holds in every reachable state. -/
theorem Reachable.consistent (h : Reachable k) : k.Consistent :=
  h.invariant consistent_init fun _ _ _ _ hc hs => (step_effect hs).consistent hc

/-! ## No step is stuck -/

/-- The thread can take what its object has. -/
theorem Consistent.take (h : k.Consistent) (ho : k.works w = some o) :
    ∃ k', k.take w o = some k' := by
  unfold Kernel.take
  split
  · exact ⟨_, rfl⟩
  · split
    · exact ⟨_, rfl⟩
    · next hp =>
      obtain ⟨callback, hc⟩ :=
        Option.ne_none_iff_exists'.mp ((h.valid w o ho).callback (not_not.mp hp))
      rw [hc, unlink_eq_some h.linked ho]
      exact ⟨_, rfl⟩

/-- The thread can always go to sleep. -/
theorem Consistent.waitForDeadline (h : k.Consistent) (ho : k.works w = some o) :
    ∃ k', k.waitForDeadline w o = some k' := by
  unfold Kernel.waitForDeadline
  split
  · split
    · exact h.take ho
    · exact ⟨_, rfl⟩
  · exact h.take ho

/-- A thread that is ready goes on. -/
theorem Consistent.resume (h : k.Consistent) (ho : k.works w = some o) (hr : o.Ready) :
    ∃ k', k.resume w o = some k' := by
  have houter : ∃ k', k.waitForRequest w o = some k' := by
    unfold waitForRequest
    split
    · exact ⟨_, rfl⟩
    · split
      · exact ⟨_, rfl⟩
      · exact h.waitForDeadline ho
  unfold Kernel.resume
  rcases hr with hr | hr | ⟨d, hr⟩ <;> rw [hr]
  · exact houter
  · exact houter
  · exact h.waitForDeadline ho

/-- A request finds its object. -/
theorem Consistent.enqueueWork (ho : k.works w = some o) (callback : φ) :
    ∃ k', k.enqueueWork w callback = some k' := by
  rw [Kernel.enqueueWork, ho, Option.bind_eq_bind, Option.bind_some]
  split <;> exact ⟨_, rfl⟩

/-- A delayed request finds its object and its timer. -/
theorem Consistent.enqueueDelayedWork (ho : k.works w = some o) {timer : KernelTimer}
    (ht : k.timers t = some timer) (callback : φ) (ms : UInt64) :
    ∃ k', k.enqueueDelayedWork w t callback ms = some k' := by
  unfold Kernel.enqueueDelayedWork
  split
  · exact Consistent.enqueueWork ho callback
  · rw [ho, ht, Option.bind_eq_bind, Option.bind_some, Option.bind_eq_bind, Option.bind_some]
    split <;> exact ⟨_, rfl⟩

/-- A timer that is there can be freed. -/
theorem Consistent.freeTimer (h : k.Consistent) {timer : KernelTimer}
    (ht : k.timers t = some timer) : ∃ k', k.freeTimer t = some k' := by
  obtain ⟨work⟩ := timer
  cases work with
  | none => exact ⟨_, by rw [Kernel.freeTimer, ht]; rfl⟩
  | some w =>
    obtain ⟨o, ho, hot⟩ := h.linked.timer t w ht
    have hcancel : ∃ k₁, k.cancel t w = some k₁ := by
      rw [Kernel.cancel, ho, Option.bind_eq_bind, Option.bind_some, if_pos hot]
      exact ⟨_, rfl⟩
    obtain ⟨k₁, hcancel⟩ := hcancel
    refine ⟨{ k₁ with timers := Function.update k₁.timers t none }, ?_⟩
    rw [Kernel.freeTimer, ht, Option.bind_eq_bind, Option.bind_some, Option.elim_some, hcancel]
    rfl

/-- A work object that is there can be told to stop. -/
theorem Consistent.freeWork (h : k.Consistent) (ho : k.works w = some o) :
    ∃ k', k.freeWork w = some k' := by
  rw [Kernel.freeWork, ho, Option.bind_eq_bind, Option.bind_some, unlink_eq_some h.linked ho]
  exact ⟨_, rfl⟩

end Kernel

/-- The thread goes on without any signal that is still to come. -/
def KernelWork.Awake (o : KernelWork φ) (now : Timespec) : Prop :=
  o.thread = .locking ∨ o.signalled = true ∨ ∃ d, o.thread = .timedWaiting d ∧ d.ns ≤ now.ns

/-- A thread that has been told to stop has been woken. -/
theorem KernelWork.Woken.awake_of_stopping {o : KernelWork φ} (h : o.Woken) (hr : o.Ready)
    (hs : o.stopping = true) (now : Timespec) : o.Awake now := by
  rcases hr with hr | hr | ⟨d, hr⟩
  · exact Or.inl hr
  · exact Or.inr (Or.inl (h.waiting hr (Or.inr hs)))
  · rcases h.timed d hr with hsig | ⟨hn, -⟩
    · exact Or.inr (Or.inl hsig)
    · rw [hs] at hn
      cases hn

/-- A thread whose request is due has been woken, or wakes by itself. -/
theorem KernelWork.Woken.awake_of_due {o : KernelWork φ} (h : o.Woken) (hr : o.Ready)
    (hp : o.pending = true) {now : Timespec} (hd : o.Due now) : o.Awake now := by
  rcases hr with hr | hr | ⟨d, hr⟩
  · exact Or.inl hr
  · exact Or.inr (Or.inl (h.waiting hr (Or.inl hp)))
  · rcases h.timed d hr with hsig | ⟨-, -, ht, rfl⟩
    · exact Or.inr (Or.inl hsig)
    · exact Or.inr (Or.inr ⟨_, hr, hd.resolve_left ht⟩)

namespace Kernel

variable {k : Kernel φ} {w : Nat} {o : KernelWork φ}

/-- A due request is taken. -/
theorem Consistent.resume_of_due (h : k.Consistent) (ho : k.works w = some o) (hr : o.Ready)
    (hp : o.pending = true) (hd : o.Due k.now) :
    ∃ k' o' callback, o.callback = some callback ∧ step (.resume w) k = some k' ∧
      k'.works w = some o' ∧ o'.thread = .running callback := by
  obtain ⟨k', hk⟩ := h.resume ho hr
  have hstep : step (.resume w) k = some k' := by
    rw [step, ho, Option.bind_eq_bind, Option.bind_some]
    exact hk
  have hv := h.valid w o ho
  have hns : o.stopping = false := by
    by_contra hs
    rw [Bool.not_eq_false] at hs
    rw [hv.stopped hs] at hp
    cases hp
  obtain ⟨-, hresumes⟩ := resume_resumes hk
  cases hresumes with
  | exits hs =>
    rw [hns] at hs
    cases hs
  | waits _ hn =>
    rw [hp] at hn
    cases hn
  | waitsTimed _ _ ht hnot =>
    rw [Timespec.compare_nonneg_iff h.now hv.normal] at hnot
    exact absurd (hd.resolve_left ht) hnot
  | takes _ _ _ hc hu => exact ⟨_, _, _, hc, hstep, Function.update_self _ _ _, rfl⟩

/-- A thread that is to stop returns. -/
theorem Consistent.resume_of_stopping (h : k.Consistent) (ho : k.works w = some o) (hr : o.Ready)
    (hs : o.stopping = true) :
    ∃ k' o', step (.resume w) k = some k' ∧ k'.works w = some o' ∧ o'.thread = .exited := by
  obtain ⟨k', hk⟩ := h.resume ho hr
  have hstep : step (.resume w) k = some k' := by
    rw [step, ho, Option.bind_eq_bind, Option.bind_some]
    exact hk
  obtain ⟨-, hresumes⟩ := resume_resumes hk
  cases hresumes with
  | exits => exact ⟨_, _, hstep, Function.update_self _ _ _, rfl⟩
  | waits hn | waitsTimed hn | takes hn =>
    rw [hs] at hn
    cases hn

/-- **No step of the work queue is stuck, and no wake-up is lost.** In every reachable state each
call with objects that have not been freed can be made, and each thread goes on once it has the
mutex, without a pointer to a freed object or a callback that was never set. A thread outside of
its callback with a request whose time has come need not be signalled any more and starts the
callback with its next step; and with its next step it returns when its object is to be freed. -/
theorem kernel_never_stuck (h : Reachable k) :
    (∀ w o, k.works w = some o →
      (∀ callback, ∃ k', step (.enqueueWork w callback) k = some k') ∧
      (∀ t timer callback ms, k.timers t = some timer →
        ∃ k', step (.enqueueDelayedWork w t callback ms) k = some k') ∧
      (o.stopping = false → ∃ k', step (.freeWork w) k = some k') ∧
      (o.Ready → ∃ k', step (.resume w) k = some k') ∧
      (o.thread = .exited → ∃ k', step (.join w) k = some k')) ∧
    (∀ t timer, k.timers t = some timer → ∃ k', step (.freeTimer t) k = some k') ∧
    ∀ w o, k.works w = some o → o.Ready →
      (o.pending = true → o.Due k.now → o.Awake k.now ∧
        ∃ k' o' callback, o.callback = some callback ∧ step (.resume w) k = some k' ∧
          k'.works w = some o' ∧ o'.thread = .running callback) ∧
      (o.stopping = true → o.Awake k.now ∧
        ∃ k' o', step (.resume w) k = some k' ∧ k'.works w = some o' ∧ o'.thread = .exited) := by
  have hc := h.consistent
  refine ⟨fun w o ho => ⟨fun callback => Consistent.enqueueWork ho callback,
    fun t timer callback ms ht => Consistent.enqueueDelayedWork ho ht callback ms, fun hs => ?_,
    fun hr => ?_, fun he => ?_⟩, fun t timer ht => hc.freeTimer ht, fun w o ho hr => ⟨?_, ?_⟩⟩
  · obtain ⟨k', hk⟩ := hc.freeWork ho
    refine ⟨k', ?_⟩
    rw [step, ho, Option.bind_eq_bind, Option.bind_some, if_neg (by simp [hs])]
    exact hk
  · obtain ⟨k', hk⟩ := hc.resume ho hr
    refine ⟨k', ?_⟩
    rw [step, ho, Option.bind_eq_bind, Option.bind_some]
    exact hk
  · refine ⟨{ k with works := Function.update k.works w none }, ?_⟩
    simp only [step, join, ho, Option.bind_eq_bind, Option.bind_some, he,
      (hc.valid w o ho).exited he]
  · exact fun hp hd => ⟨(hc.woken w o ho).awake_of_due hr hp hd, hc.resume_of_due ho hr hp hd⟩
  · exact fun hs =>
      ⟨(hc.woken w o ho).awake_of_stopping hr hs k.now, hc.resume_of_stopping ho hr hs⟩

/-- The thread waits for the end of the delay. -/
def delayed : List (KernelAction Nat) :=
  [.allocateWork, .allocateTimer, .resume 0, .enqueueDelayedWork 0 0 7 75, .resume 0,
    .tick { sec := 1, nsec := 0 }]

/-- The object, and whether its deadline has passed. -/
def delayedWork : KernelWork Nat where
  thread := .timedWaiting { sec := 0, nsec := 75000000 }
  signalled := false
  stopping := false
  pending := true
  deadline := { sec := 0, nsec := 75000000 }
  timer := some 0
  callback := some 7

theorem kernel_never_stuck_delayed :
    ∃ k o k' o', Lts.exec step delayed init = some k ∧ k.works 0 = some o ∧
      o.thread = .timedWaiting { sec := 0, nsec := 75000000 } ∧ o.Awake k.now ∧
      step (.resume 0) k = some k' ∧ k'.works 0 = some o' ∧ o'.thread = .running 7 := by
  have hrun : (Lts.exec step delayed init).map (fun k => (k.works 0, k.now)) =
      some (some delayedWork, { sec := 1, nsec := 0 }) := by decide
  obtain ⟨k, hk, he⟩ := Option.map_eq_some_iff.mp hrun
  obtain ⟨ho, hnow⟩ := Prod.mk.inj he
  have hd : delayedWork.Due k.now := by
    rw [hnow]
    exact Or.inr (by decide)
  have hrun := (Lts.exec_run hk).reachable
  obtain ⟨hawake, k', o', callback, hc, hstep, ho', hthread⟩ :=
    ((kernel_never_stuck hrun).2.2 0 _ ho (Or.inr (Or.inr ⟨_, rfl⟩))).1 rfl hd
  cases hc
  exact ⟨k, _, k', o', hk, ho, rfl, hawake, hstep, ho', hthread⟩

end Kernel

end U80211
