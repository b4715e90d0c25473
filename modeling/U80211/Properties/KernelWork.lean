import U80211.Lib.Work
import U80211.Properties.Kernel

/-!
# Work objects on threads are work objects of a work queue

The threads of `tests/kernel_interface.c` do what the work objects of the model of the library do:
`U80211/Lib/Work.lean` describes them, and `src/association.c` and `src/scan.c` are modelled over
them. A timer serves one work object.

* `Effect.simulates`: each step of the kernel is matched by steps of the work object
* `kernel_refines_work_object`: what happens to a work object in a run of the kernel happens in a
  run of the work object
* `kernel_keeps_delays`: what a thread starts is the request that was accepted last, and not before
  its time
-/

namespace U80211

open WorkQueue

variable {φ : Type}

/-! ## What can be observed of a work object -/

inductive Observation (φ : Type) where
  | enqueue (callback : φ)
  | enqueueDelayed (callback : φ)
  | started (callback : φ)
  | finished
  | timerFreed
  | workFreed

/-- What is seen of a step of the work object; that its timer expires is not. -/
def observeObject (t : Lts.Transition (Object φ) (ObjectAction φ)) : Option (Observation φ) :=
  match t.action with
  | .enqueue callback => some (.enqueue callback)
  | .enqueueDelayed callback => some (.enqueueDelayed callback)
  | .expire => none
  | .start => t.before.callback.map .started
  | .finish => some .finished
  | .freeTimer => some .timerFreed
  | .freeWork => some .workFreed

/-- The callback that a thread is in. -/
def ThreadPc.callback : ThreadPc φ → Option φ
  | .running callback => some callback
  | _ => none

namespace Kernel

/-- What is seen of a step of the kernel at work object `w` with timer `t`. -/
def observe (w t : Nat) (tr : Transition φ) : Option (Observation φ) :=
  match tr.action with
  | .enqueueWork v callback => if v = w then some (.enqueue callback) else none
  | .enqueueDelayedWork v _ callback ms =>
    if v = w then some (if ms = 0 then .enqueue callback else .enqueueDelayed callback) else none
  | .freeTimer u => if u = t then some .timerFreed else none
  | .join v => if v = w then some .workFreed else none
  | .resume v =>
    if v = w then (tr.after.works w).bind fun o => o.thread.callback.map .started else none
  | .finish v => if v = w then some .finished else none
  | _ => none

/-- A delayed request for `w`, and no other one, goes by `t`. -/
def Pairs (w t : Nat) (tr : Transition φ) : Prop :=
  ∀ v u callback ms, tr.action = .enqueueDelayedWork v u callback ms → (v = w ↔ u = t)

/-! ## The simulation -/

end Kernel

/-- The request that the fields of a work object stand for. -/
def KernelWork.request (o : KernelWork φ) : Request :=
  if o.pending = false then .idle else if o.timer = none then .queued else .armed

/-- A work object with its thread stands for a work object of the queue. Once it is to be freed, its
requests do not matter any more. -/
structure KernelWork.Stands (o : KernelWork φ) (x : Object φ) : Prop where
  freed : x.work.work.freed = false
  running : x.work.work.running = o.thread.callback
  request : o.stopping = false → x.work.work.request = o.request
  callback : o.stopping = false → o.pending = true → x.callback = o.callback

namespace Kernel

variable {k k' : Kernel φ} {w t : Nat} {o o' : KernelWork φ} {x : Object φ}
  {action : KernelAction φ}

/-- The work object `w` with the timer `t` stands for the object of the queue. -/
structure Matches (w t : Nat) (k : Kernel φ) (x : Object φ) : Prop where
  work : ∀ o, k.works w = some o → o.Stands x
  fresh : k.nextWork ≤ w → x.work.work = .allocate
  timer : k.timers t ≠ none ∨ k.nextTimer ≤ t → x.work.timerFreed = false
  own : ∀ o u, k.works w = some o → o.timer = some u → u = t
  other : ∀ v o, k.works v = some o → o.timer = some t → v = w

theorem matches_init (w t : Nat) : Matches w t (init : Kernel φ) .allocate where
  work _ ho := by cases ho
  fresh _ := rfl
  timer _ := rfl
  own _ _ ho := by cases ho
  other _ _ ho := by cases ho

/-- A step that neither the work object nor its timer takes part in. -/
theorem Matches.frame (h : Matches w t k x) (hworks : k'.works w = k.works w)
    (hnext : k.nextWork ≤ k'.nextWork)
    (htimer : k'.timers t ≠ none ∨ k'.nextTimer ≤ t → k.timers t ≠ none ∨ k.nextTimer ≤ t)
    (hother : ∀ v o, v ≠ w → k'.works v = some o → o.timer = some t →
      ∃ p, k.works v = some p ∧ p.timer = some t) : Matches w t k' x where
  work o ho := h.work o (hworks ▸ ho)
  fresh hle := h.fresh (Nat.le_trans hnext hle)
  timer ht := h.timer (htimer ht)
  own o u ho hu := h.own o u (hworks ▸ ho) hu
  other v o ho ht := by
    by_contra hne
    obtain ⟨p, hp, hpt⟩ := hother v o hne ho ht
    exact hne (h.other v p hp hpt)

/-- Another work object changes. -/
theorem Matches.other_work (h : Matches w t k x) {v : Nat} (hv : v ≠ w) (ho : k.works v = some o)
    (hworks : k'.works = Function.update k.works v (some o')) (hnext : k'.nextWork = k.nextWork)
    (hnextTimer : k'.nextTimer = k.nextTimer) (htimer : k'.timers t ≠ none → k.timers t ≠ none)
    (ht : o'.timer = some t → o.timer = some t) : Matches w t k' x := by
  refine h.frame ?_ (Nat.le_of_eq hnext.symm) ?_ ?_
  · rw [hworks, Function.update_of_ne (Ne.symm hv)]
  · rw [hnextTimer]
    exact Or.imp_left htimer
  · intro u p _ hp hpt
    rw [hworks, Function.update_apply] at hp
    split at hp
    · next he =>
      cases hp
      exact ⟨o, he ▸ ho, ht hpt⟩
    · exact ⟨p, hp, hpt⟩

/-- The work object itself changes. -/
theorem Matches.own_work (h : Matches w t k x) (hc : k.Consistent) (ho : k.works w = some o)
    {x' : Object φ} (hworks : k'.works = Function.update k.works w (some o'))
    (hnext : k'.nextWork = k.nextWork) (hstands : o'.Stands x')
    (htimer : k'.timers t ≠ none ∨ k'.nextTimer ≤ t → x'.work.timerFreed = false)
    (ht : ∀ u, o'.timer = some u → u = t) : Matches w t k' x' where
  work p hp := by
    rw [hworks, Function.update_self, Option.some.injEq] at hp
    exact hp ▸ hstands
  fresh hle := by
    rw [hnext] at hle
    exact absurd (hc.works w o ho) (Nat.not_lt.mpr hle)
  timer := htimer
  own p u hp hu := by
    rw [hworks, Function.update_self, Option.some.injEq] at hp
    subst hp
    exact ht u hu
  other v p hp hpt := by
    rw [hworks, Function.update_apply] at hp
    split at hp
    · assumption
    · exact h.other v p hp hpt

/-- A step of the kernel is matched. -/
def Simulated (w t : Nat) (tr : Transition φ) (x : Object φ) : Prop :=
  ∃ ρ x', Lts.Run Object.step x ρ x' ∧
    ρ.filterMap observeObject = (observe w t tr).toList ∧ Matches w t tr.after x'

theorem Simulated.stutter (hobserve : observe w t ⟨k, action, k'⟩ = none)
    (h : Matches w t k' x) : Simulated w t ⟨k, action, k'⟩ x :=
  ⟨[], x, .nil, by rw [hobserve]; rfl, h⟩

theorem Simulated.single {x' : Object φ} {a : ObjectAction φ} (hs : Object.step a x = some x')
    (hobserve : observe w t ⟨k, action, k'⟩ = observeObject ⟨x, a, x'⟩)
    (h : Matches w t k' x') : Simulated w t ⟨k, action, k'⟩ x := by
  refine ⟨_, x', .snoc .nil hs, ?_, h⟩
  rw [hobserve, Lts.filterMap_concat]
  rfl

/-! ## Requests -/

end Kernel

namespace KernelWork

variable {o : KernelWork φ} {x : Object φ}

theorem Stands.pending (h : o.Stands x) (hs : o.stopping = false) (hp : o.pending = true) :
    x.work.work.request ≠ .idle := by
  rw [h.request hs, KernelWork.request, if_neg (by simp [hp])]
  split <;> simp

theorem Stands.idle (h : o.Stands x) (hs : o.stopping = false) (hp : o.pending = false) :
    x.work.work.request = .idle := by
  rw [h.request hs, KernelWork.request, if_pos hp]

/-- What is asked of an object that is to be freed does not matter. -/
theorem Stands.of_stopping {x' : Object φ} (h : o.Stands x) (hs : o.stopping = true)
    (hfreed : x'.work.work.freed = x.work.work.freed)
    (hrunning : x'.work.work.running = x.work.work.running) : o.Stands x' where
  freed := hfreed.trans h.freed
  running := hrunning.trans h.running
  request hn := by
    rw [hs] at hn
    cases hn
  callback hn := by
    rw [hs] at hn
    cases hn

end KernelWork

namespace Kernel

variable {k k' : Kernel φ} {w t : Nat} {o o' : KernelWork φ} {x : Object φ}
  {action : KernelAction φ}

/-- A request that is ignored. -/
theorem step_ignored (hc : k.Consistent) (h : Matches w t k x) (ho : k.works w = some o)
    (hb : o.pending = true ∨ o.stopping = true) (callback : φ) :
    (∃ x', Object.step (.enqueue callback) x = some x' ∧ Matches w t k x') ∧
      ∃ x', Object.step (.enqueueDelayed callback) x = some x' ∧ Matches w t k x' := by
  have hst := h.work o ho
  have hself : Function.update k.works w (some o) = k.works :=
    Function.update_eq_self_iff.mpr ho.symm
  have hown := h.own o
  cases hs : o.stopping with
  | true =>
    refine ⟨⟨_, rfl, ?_⟩, ⟨_, rfl, ?_⟩⟩
    · exact h.own_work hc ho hself.symm rfl
        (hst.of_stopping hs (Work.enqueue_freed _) (Work.enqueue_running _)) h.timer
        fun u hu => hown u ho hu
    · refine h.own_work hc ho hself.symm rfl
        (hst.of_stopping hs (DelayedWork.enqueue_freed _) (DelayedWork.enqueue_running _)) ?_
        fun u hu => hown u ho hu
      exact fun ht => (DelayedWork.enqueue_timerFreed _).trans (h.timer ht)
  | false =>
    have hp : o.pending = true := hb.resolve_right (by simp [hs])
    have hne := hst.pending hs hp
    have hrequest : x.request callback = x.callback := if_neg hne
    have henqueue : x.work.work.enqueue = x.work.work := if_neg fun hc => hne hc.2
    have hdelayed : x.work.enqueue = x.work := if_neg fun hc => hne hc.2.2
    refine ⟨⟨x, ?_, h⟩, ⟨x, ?_, h⟩⟩
    · simp only [Object.step, hrequest, henqueue]
    · simp only [Object.step, hrequest, hdelayed]

theorem enqueueWork_simulates (hc : k.Consistent) (h : Matches w t k x) {callback : φ}
    (he : Effect k (.enqueueWork w callback) k') :
    ∃ x', Object.step (.enqueue callback) x = some x' ∧ Matches w t k' x' := by
  cases he with
  | ignored ho hb => exact (step_ignored hc h ho hb callback).1
  | @enqueued _ _ o ho hp hs =>
    have hst := h.work o ho
    have hnone := (hc.valid w o ho).timer_none hp
    have hidle := hst.idle hs hp
    refine ⟨_, rfl, h.own_work hc ho rfl rfl ⟨?_, ?_, fun _ => ?_, fun _ _ => ?_⟩ h.timer ?_⟩
    · exact (Work.enqueue_freed _).trans hst.freed
    · rw [KernelWork.signal_thread]
      exact (Work.enqueue_running _).trans hst.running
    · show x.work.work.enqueue.request = _
      rw [Work.enqueue, if_pos ⟨hst.freed, hidle⟩]
      simp [KernelWork.request, hnone]
    · rw [KernelWork.signal_callback]
      exact if_pos hidle
    · intro u hu
      rw [KernelWork.signal_timer] at hu
      exact h.own o u ho hu

/-- A call for another work object. -/
theorem enqueueWork_other (h : Matches w t k x) {v : Nat} (hv : v ≠ w) {callback : φ}
    (he : Effect k (.enqueueWork v callback) k') : Matches w t k' x := by
  cases he with
  | ignored => exact h
  | enqueued ho hp hs =>
    refine h.other_work hv ho rfl rfl rfl id ?_
    rw [KernelWork.signal_timer]
    exact id

/-- A delayed request of the work object is accepted. -/
theorem armed_simulates (hc : k.Consistent) (h : Matches w t k x) (ho : k.works w = some o)
    (ht : k.timers t = some { work := none }) (hp : o.pending = false) (hs : o.stopping = false)
    (callback : φ) (deadline : Timespec) :
    ∃ x', Object.step (.enqueueDelayed callback) x = some x' ∧
      Matches w t ((k.setTimer t { work := some w }).setWork w
        ({ o with
          callback := some callback
          deadline := deadline
          timer := some t
          pending := true } : KernelWork φ).signal) x' := by
  have hst := h.work o ho
  have hidle := hst.idle hs hp
  have htimer : x.work.timerFreed = false := h.timer (Or.inl (by rw [ht]; simp))
  refine ⟨_, rfl, h.own_work hc ho rfl rfl ⟨?_, ?_, fun _ => ?_, fun _ _ => ?_⟩ ?_ ?_⟩
  · exact (DelayedWork.enqueue_freed _).trans hst.freed
  · rw [KernelWork.signal_thread]
    exact (DelayedWork.enqueue_running _).trans hst.running
  · show x.work.enqueue.work.request = _
    rw [DelayedWork.enqueue, if_pos ⟨htimer, hst.freed, hidle⟩]
    simp [KernelWork.request]
  · rw [KernelWork.signal_callback]
    exact if_pos hidle
  · exact fun _ => (DelayedWork.enqueue_timerFreed _).trans htimer
  · intro u hu
    rw [KernelWork.signal_timer] at hu
    exact (Option.some.inj hu).symm

theorem enqueueDelayedWork_simulates (hc : k.Consistent) (h : Matches w t k x) {v u : Nat}
    {callback : φ} {ms : UInt64} (he : Effect k (.enqueueDelayedWork v u callback ms) k')
    (hp : Pairs w t ⟨k, .enqueueDelayedWork v u callback ms, k'⟩) :
    Simulated w t ⟨k, .enqueueDelayedWork v u callback ms, k'⟩ x := by
  have hpair := hp v u callback ms rfl
  by_cases hv : v = w
  · obtain rfl := hpair.mp hv
    subst hv
    have hobserve {x' : Object φ} {a : ObjectAction φ}
        (ha : observeObject ⟨x, a, x'⟩ =
          some (if ms = 0 then .enqueue callback else .enqueueDelayed callback)) :
        observe v u ⟨k, .enqueueDelayedWork v u callback ms, k'⟩ = observeObject ⟨x, a, x'⟩ := by
      rw [ha, observe]
      exact if_pos rfl
    cases he with
    | undelayed he =>
      obtain ⟨x', hs, hm⟩ := enqueueWork_simulates hc h he
      exact .single hs (hobserve rfl) hm
    | @ignoredDelayed _ _ _ _ o timer hms ho ht hb =>
      have hbusy : o.pending = true ∨ o.stopping = true := by
        rcases hb with hb | hb | hb
        · exact Or.inl hb
        · exact Or.inr hb
        · -- the timer serves a request of this work object
          obtain ⟨v', hv'⟩ := Option.ne_none_iff_exists'.mp hb
          obtain ⟨work⟩ := timer
          dsimp only at hv'
          subst hv'
          obtain ⟨p, hp', hpt⟩ := hc.linked.timer u v' ht
          obtain rfl := h.other v' p hp' hpt
          obtain rfl := Option.some.inj (ho.symm.trans hp')
          exact Or.inl ((hc.valid _ _ ho).armed (by rw [hpt]; simp))
      obtain ⟨x', hs, hm⟩ := (step_ignored hc h ho hbusy callback).2
      exact .single hs (hobserve (by rw [if_neg hms]; rfl)) hm
    | @armed _ _ _ _ o hms ho ht hpending hs =>
      obtain ⟨x', hstep, hm⟩ := armed_simulates hc h ho ht hpending hs callback _
      exact .single hstep (hobserve (by rw [if_neg hms]; rfl)) hm
  · have hu : u ≠ t := fun hu => hv (hpair.mpr hu)
    refine .stutter (if_neg hv) ?_
    cases he with
    | undelayed he => exact enqueueWork_other h hv he
    | ignoredDelayed => exact h
    | armed hms ho ht hpending hs =>
      refine h.other_work hv ho rfl rfl rfl (fun hn => ?_) fun hut => ?_
      · rwa [← Function.update_of_ne (Ne.symm hu) (some { work := some v }) k.timers]
      · rw [KernelWork.signal_timer] at hut
        exact absurd (Option.some.inj hut) hu

/-- The timer is freed that nothing waits for. -/
theorem Matches.freeTimer (hc : k.Consistent) (h : Matches w t k x)
    (ht : k.timers t = some { work := none }) :
    Matches w t { k with timers := Function.update k.timers t none }
      { x with work := x.work.freeTimer } := by
  have hlt := hc.timers t _ ht
  have hgone : Function.update k.timers t none t ≠ none ∨ k.nextTimer ≤ t → False := by
    rw [Function.update_self]
    rintro (hne | hle)
    · exact hne rfl
    · exact Nat.not_lt.mpr hle hlt
  have hkept (hr : x.work.work.request ≠ .armed) : x.work.freeTimer.work = x.work.work :=
    if_neg hr
  refine ⟨fun o ho => ?_, fun hle => ?_, fun hor => (hgone hor).elim, h.own, h.other⟩
  · have hst := h.work o ho
    have hnone : o.timer = none := by
      by_contra hne
      obtain ⟨u, hu⟩ := Option.ne_none_iff_exists'.mp hne
      obtain rfl := h.own o u ho hu
      rw [hc.linked.work w o u ho hu] at ht
      cases ht
    cases hs : o.stopping with
    | true =>
      exact hst.of_stopping hs (DelayedWork.freeTimer_freed _) (DelayedWork.freeTimer_running _)
    | false =>
      have hr : x.work.work.request ≠ .armed := by
        rw [hst.request hs, KernelWork.request, hnone]
        split <;> simp
      exact ⟨(DelayedWork.freeTimer_freed _).trans hst.freed,
        (DelayedWork.freeTimer_running _).trans hst.running,
        fun hs => (congrArg Work.request (hkept hr)).trans (hst.request hs), hst.callback⟩
  · have hfresh := h.fresh hle
    refine (hkept ?_).trans hfresh
    rw [hfresh]
    simp [Work.allocate]

/-- Freeing its timer cancels the delayed request of the work object. -/
theorem freeTimer_simulates (hc : k.Consistent) (h : Matches w t k x) {u : Nat}
    (he : Effect k (.freeTimer u) k') : Simulated w t ⟨k, .freeTimer u, k'⟩ x := by
  by_cases hu : u = t
  · subst hu
    refine .single (a := .freeTimer) rfl (if_pos rfl) ?_
    cases he with
    | freeIdleTimer ht => exact h.freeTimer hc ht
    | freeStaleTimer ht ho hne =>
      obtain ⟨p, hp, hpt⟩ := hc.linked.timer _ _ ht
      obtain rfl := Option.some.inj (ho.symm.trans hp)
      exact absurd hpt hne
    | @cancel _ v o ht ho hot =>
      obtain rfl := h.other v o ho hot
      have hst := h.work o ho
      have hpending : o.pending = true := (hc.valid v o ho).armed (by rw [hot]; simp)
      have hs : o.stopping = false := by
        by_contra hne
        rw [Bool.not_eq_false] at hne
        rw [(hc.valid v o ho).stopped hne] at hpending
        cases hpending
      have harmed : x.work.work.request = .armed := by
        rw [hst.request hs, KernelWork.request, if_neg (by simp [hpending]), if_neg (by simp [hot])]
      refine h.own_work hc ho rfl rfl ⟨?_, ?_, fun _ => ?_, fun _ hp => ?_⟩ ?_ ?_
      · exact (DelayedWork.freeTimer_freed _).trans hst.freed
      · rw [KernelWork.signal_thread]
        exact (DelayedWork.freeTimer_running _).trans hst.running
      · show x.work.freeTimer.work.request = _
        rw [DelayedWork.freeTimer, if_pos harmed]
        simp [KernelWork.request]
      · rw [KernelWork.signal_pending] at hp
        cases hp
      · rintro (hne | hle)
        · exact absurd (Function.update_self _ _ _) hne
        · exact absurd (hc.timers _ _ ht) (Nat.not_lt.mpr hle)
      · intro u' hu'
        rw [KernelWork.signal_timer] at hu'
        cases hu'
  · refine .stutter (if_neg hu) ?_
    have htimer (hn : Function.update k.timers u none t ≠ none) : k.timers t ≠ none := by
      rwa [Function.update_of_ne (Ne.symm hu)] at hn
    cases he with
    | freeIdleTimer ht =>
      exact h.frame rfl (Nat.le_refl _) (Or.imp_left htimer) fun _ o _ ho hot => ⟨o, ho, hot⟩
    | freeStaleTimer ht ho hne =>
      exact h.frame rfl (Nat.le_refl _) (Or.imp_left htimer) fun _ o _ ho hot => ⟨o, ho, hot⟩
    | @cancel _ v o ht ho hot =>
      have hv : v ≠ w := by
        rintro rfl
        exact hu (h.own o u ho hot)
      refine h.other_work hv ho rfl rfl rfl htimer fun hn => ?_
      rw [KernelWork.signal_timer] at hn
      cases hn

/-- The timers that are left when a work object is separated from its own. -/
theorem unlink_timers {k₁ : Kernel φ} (hc : k.Consistent) (ho : k.works w = some o)
    (hu : k.unlink o.timer = some k₁) :
    k₁.works = k.works ∧ k₁.nextWork = k.nextWork ∧ k₁.nextTimer = k.nextTimer ∧
      ∀ t, k₁.timers t ≠ none → k.timers t ≠ none := by
  rw [unlink_eq_some hc.linked ho, Option.some.injEq] at hu
  subst hu
  refine ⟨rfl, rfl, rfl, fun t hn => ?_⟩
  dsimp only at hn
  split at hn
  · next hot =>
    rw [hc.linked.work w o t ho hot]
    simp
  · exact hn

theorem freeWork_simulates (hc : k.Consistent) (h : Matches w t k x) {v : Nat}
    (he : Effect k (.freeWork v) k') : Simulated w t ⟨k, .freeWork v, k'⟩ x := by
  cases he with
  | @freeWork _ o k₁ ho hs hu =>
    obtain ⟨hworks, hnext, hnextTimer, htimers⟩ := unlink_timers hc ho hu
    have hupdate : (k₁.setWork v ({ o with
        stopping := true, pending := false, timer := none } : KernelWork φ).signal).works =
        Function.update k.works v (some ({ o with
          stopping := true, pending := false, timer := none } : KernelWork φ).signal) :=
      congrArg (Function.update · v _) hworks
    refine .stutter rfl ?_
    by_cases hv : v = w
    · subst hv
      have hst := h.work o ho
      refine h.own_work hc ho hupdate hnext ⟨hst.freed, ?_, ?_, ?_⟩ (fun ht => h.timer ?_) ?_
      · rw [KernelWork.signal_thread]
        exact hst.running
      · intro hn
        rw [KernelWork.signal_stopping] at hn
        cases hn
      · intro hn
        rw [KernelWork.signal_stopping] at hn
        cases hn
      · exact ht.imp (htimers t) fun hle => hnextTimer ▸ hle
      · intro u hut
        rw [KernelWork.signal_timer] at hut
        cases hut
    · refine h.other_work hv ho hupdate hnext hnextTimer (htimers t) fun hn => ?_
      rw [KernelWork.signal_timer] at hn
      cases hn

end Kernel

theorem KernelWork.Ready.callback {o : KernelWork φ} (h : o.Ready) : o.thread.callback = none := by
  rcases h with h | h | ⟨d, h⟩ <;> rw [h] <;> rfl

/-- The thread moves, but not into its callback. -/
theorem KernelWork.Stands.thread {o o' : KernelWork φ} {x : Object φ} (h : o.Stands x)
    (hthread : o'.thread.callback = o.thread.callback) (hstopping : o'.stopping = o.stopping)
    (hpending : o'.pending = o.pending) (htimer : o'.timer = o.timer)
    (hcallback : o'.callback = o.callback) : o'.Stands x where
  freed := h.freed
  running := h.running.trans hthread.symm
  request hs := by
    rw [KernelWork.request, hpending, htimer]
    exact h.request (hstopping ▸ hs)
  callback hs hp := by
    rw [hcallback]
    exact h.callback (hstopping ▸ hs) (hpending ▸ hp)

namespace Kernel

variable {k k' : Kernel φ} {w t : Nat} {o o' : KernelWork φ} {x : Object φ}
  {action : KernelAction φ}

/-- The work object starts the callback of its request. -/
theorem start_simulates (hst : o.Stands x) (hr : o.Ready) (hs : o.stopping = false)
    (hp : o.pending = true) {callback : φ} (hc : o.callback = some callback) :
    ∃ ρ x', Lts.Run Object.step x ρ x' ∧ ρ.filterMap observeObject = [.started callback] ∧
      x'.work.timerFreed = x.work.timerFreed ∧
      x'.work.work = { request := .idle, running := some callback, freed := false } := by
  have hcallback : x.callback = some callback := (hst.callback hs hp).trans hc
  have hrunning : x.work.work.running = none := hst.running.trans hr.callback
  -- the step from a request that is queued
  have hstart (y : Object φ) (hy : y.callback = some callback)
      (hq : y.work.work.request = .queued) (hrun : y.work.work.running = none)
      (hf : y.work.work.freed = false) :
      Object.step .start y = some { y with work := { y.work with work :=
        { request := .idle, running := some callback, freed := false } } } := by
    simp [Object.step, hy, DelayedWork.start, Work.start, hq, hrun, hf]
  have hrequest := hst.request hs
  rw [KernelWork.request, if_neg (by simp [hp])] at hrequest
  split at hrequest
  · refine ⟨_, _, .snoc .nil (hstart x hcallback hrequest hrunning hst.freed), ?_, rfl, rfl⟩
    rw [Lts.filterMap_concat]
    simp [observeObject, hcallback]
  · have hexpire : Object.step .expire x = some { x with work :=
        { x.work with work := { x.work.work with request := .queued } } } := by
      simp [Object.step, DelayedWork.expire, hrequest]
    refine ⟨_, _, .snoc (.snoc .nil hexpire) (hstart _ hcallback rfl hrunning hst.freed), ?_, rfl,
      rfl⟩
    rw [Lts.filterMap_concat, Lts.filterMap_concat]
    simp [observeObject, hcallback]

theorem resume_simulates (hc : k.Consistent) (h : Matches w t k x) {v : Nat}
    (he : Effect k (.resume v) k') : Simulated w t ⟨k, .resume v, k'⟩ x := by
  cases he with
  | @resume _ o _ ho hr hk =>
    by_cases hv : v = w
    · subst hv
      have hst := h.work o ho
      have hown := h.own o
      have hobserve {o' : KernelWork φ} (ho' : k'.works v = some o') :
          observe v t ⟨k, .resume v, k'⟩ = o'.thread.callback.map .started := by
        simp only [observe, if_true, ho', Option.bind_some]
      -- the thread does not take a request
      have hsleep {o' : KernelWork φ} (hk' : k' = k.setWork v o')
          (hthread : o'.thread.callback = none)
          (hstopping : o'.stopping = o.stopping) (hpending : o'.pending = o.pending)
          (htimer : o'.timer = o.timer) (hcallback : o'.callback = o.callback) :
          Simulated v t ⟨k, .resume v, k'⟩ x := by
        subst hk'
        refine .stutter ?_ (h.own_work hc ho rfl rfl
          (hst.thread (hthread.trans hr.callback.symm) hstopping hpending htimer hcallback) h.timer
          fun u hu => hown u ho (htimer ▸ hu))
        rw [hobserve (Function.update_self _ _ _), hthread]
        rfl
      cases hk with
      | exits => exact hsleep rfl rfl rfl rfl rfl rfl
      | waits => exact hsleep rfl rfl rfl rfl rfl rfl
      | waitsTimed => exact hsleep rfl rfl rfl rfl rfl rfl
      | @takes callback k₁ hs hp hd hcallback hu =>
        obtain ⟨hworks, hnext, hnextTimer, htimers⟩ := unlink_timers hc ho hu
        obtain ⟨ρ, x', hρ, hevents, htimer, hwork⟩ := start_simulates hst hr hs hp hcallback
        refine ⟨ρ, x', hρ, ?_, h.own_work hc ho (congrArg (Function.update · v _) hworks) hnext
          ⟨?_, ?_, fun _ => ?_, fun _ hn => ?_⟩ (fun ht => ?_) fun u hu => ?_⟩
        · rw [hevents, hobserve (Function.update_self _ _ _)]
          rfl
        · rw [hwork]
        · rw [hwork]
          rfl
        · rw [hwork]
          simp [KernelWork.request]
        · cases hn
        · rw [htimer]
          exact h.timer (ht.imp (htimers t) fun hle => hnextTimer ▸ hle)
        · cases hu
    · refine .stutter (if_neg hv) ?_
      cases hk with
      | exits | waits | waitsTimed => exact h.other_work hv ho rfl rfl rfl id id
      | takes hs hp hd hcallback hu =>
        obtain ⟨hworks, hnext, hnextTimer, htimers⟩ := unlink_timers hc ho hu
        exact h.other_work hv ho (congrArg (Function.update · v _) hworks) hnext hnextTimer
          (htimers t) fun hn => by cases hn

theorem join_simulates (hc : k.Consistent) (h : Matches w t k x) {v : Nat}
    (he : Effect k (.join v) k') : Simulated w t ⟨k, .join v, k'⟩ x := by
  cases he with
  | @join _ o ho hs hthread =>
    by_cases hv : v = w
    · subst hv
      have hst := h.work o ho
      have hrunning : x.work.work.running = none := hst.running.trans (by rw [hthread]; rfl)
      have hstep : Object.step .freeWork x = some { x with work := { x.work with work :=
          { request := .idle, running := none, freed := true } } } := by
        simp [Object.step, DelayedWork.freeWork, Work.free, hrunning]
      have hne {u : Nat} {p : KernelWork φ} (hp : Function.update k.works v none u = some p) :
          u ≠ v ∧ k.works u = some p := by
        rw [Function.update_apply] at hp
        split at hp
        · cases hp
        · next hne => exact ⟨hne, hp⟩
      refine .single hstep (if_pos rfl) ⟨fun p hp => absurd rfl (hne hp).1, fun hle => ?_, h.timer,
        fun p u hp => absurd rfl (hne hp).1, fun u p hp hpt => h.other u p (hne hp).2 hpt⟩
      exact absurd (hc.works v o ho) (Nat.not_lt.mpr hle)
    · refine .stutter (if_neg hv) (h.frame (Function.update_of_ne (Ne.symm hv) _ _) (Nat.le_refl _)
        id fun u p _ hp hpt => ⟨p, ?_, hpt⟩)
      have hp' : Function.update k.works v none u = some p := hp
      rw [Function.update_apply] at hp'
      split at hp'
      · cases hp'
      · exact hp'

theorem finish_simulates (hc : k.Consistent) (h : Matches w t k x) {v : Nat}
    (he : Effect k (.finish v) k') : Simulated w t ⟨k, .finish v, k'⟩ x := by
  cases he with
  | @finish _ o callback ho hthread =>
    by_cases hv : v = w
    · subst hv
      have hst := h.work o ho
      have hrunning : x.work.work.running = some callback :=
        hst.running.trans (by rw [hthread]; rfl)
      have hstep : Object.step .finish x = some { x with work := x.work.goto none } := by
        simp [Object.step, hrunning]
      exact .single hstep (if_pos rfl) (h.own_work hc ho rfl rfl
        ⟨hst.freed, rfl, hst.request, hst.callback⟩ h.timer fun u hu => h.own o u ho hu)
    · exact .stutter (if_neg hv) (h.other_work hv ho rfl rfl rfl id id)

theorem allocateWork_matches (h : Matches w t k x) :
    Matches w t { k.setWork k.nextWork .allocate with nextWork := k.nextWork + 1 } x := by
  by_cases hw : k.nextWork = w
  · subst hw
    have hfresh := h.fresh (Nat.le_refl _)
    have hself {p : KernelWork φ}
        (hp : Function.update k.works k.nextWork (some .allocate) k.nextWork = some p) :
        p = .allocate := by
      rw [Function.update_self, Option.some.injEq] at hp
      exact hp.symm
    refine ⟨fun p hp => ?_, fun hle => absurd hle (Nat.not_succ_le_self _), h.timer,
      fun p u hp hu => ?_, fun v p hp hpt => ?_⟩
    · rw [hself hp]
      exact ⟨by rw [hfresh]; rfl, by rw [hfresh]; rfl, fun _ => by rw [hfresh]; rfl,
        fun _ hn => by cases hn⟩
    · rw [hself hp] at hu
      cases hu
    · by_contra hne
      exact hne (h.other v p ((Function.update_of_ne hne _ _).symm.trans hp) hpt)
  · refine h.frame (Function.update_of_ne (Ne.symm hw) _ _) (Nat.le_succ _) id
      fun v p _ hp hpt => ⟨p, ?_, hpt⟩
    have hp' : Function.update k.works k.nextWork (some .allocate) v = some p := hp
    rw [Function.update_apply] at hp'
    split at hp'
    · cases hp'
      cases hpt
    · exact hp'

theorem allocateTimer_matches (h : Matches w t k x) :
    Matches w t
      { k.setTimer k.nextTimer { work := none } with nextTimer := k.nextTimer + 1 } x := by
  refine h.frame rfl (Nat.le_refl _) (fun ht => ?_) fun v p _ hp hpt => ⟨p, hp, hpt⟩
  by_cases he : t = k.nextTimer
  · exact Or.inr (Nat.le_of_eq he.symm)
  · refine ht.imp (fun hn => ?_) Nat.le_of_succ_le
    rwa [← Function.update_of_ne he (some { work := none }) k.timers]

/-- **Each step of the kernel is matched by steps of the work object.** -/
theorem Effect.simulates (hc : k.Consistent) (h : Matches w t k x) (he : Effect k action k')
    (hp : Pairs w t ⟨k, action, k'⟩) : Simulated w t ⟨k, action, k'⟩ x := by
  cases action with
  | tick now =>
    cases he with
    | tick => exact .stutter rfl (h.frame rfl (Nat.le_refl _) id fun _ o _ ho ht => ⟨o, ho, ht⟩)
  | allocateWork =>
    cases he with
    | allocateWork => exact .stutter rfl (allocateWork_matches h)
  | allocateTimer =>
    cases he with
    | allocateTimer => exact .stutter rfl (allocateTimer_matches h)
  | enqueueWork v callback =>
    by_cases hv : v = w
    · subst hv
      obtain ⟨x', hs, hm⟩ := enqueueWork_simulates hc h he
      exact .single hs (if_pos rfl) hm
    · exact .stutter (if_neg hv) (enqueueWork_other h hv he)
  | enqueueDelayedWork v u callback ms => exact enqueueDelayedWork_simulates hc h he hp
  | freeTimer u => exact freeTimer_simulates hc h he
  | freeWork v => exact freeWork_simulates hc h he
  | join v => exact join_simulates hc h he
  | resume v => exact resume_simulates hc h he
  | finish v => exact finish_simulates hc h he

/-- **What happens to a work object in a run of the kernel happens in a run of the work object of
the queue.** The calls and the callbacks are the same, with the same arguments and in the same
order; that the timer expires cannot be seen. -/
theorem kernel_refines_work_object {τ : List (Transition φ)} (h : Run τ k)
    (hp : ∀ tr ∈ τ, Pairs w t tr) :
    ∃ ρ x, Lts.Run Object.step .allocate ρ x ∧
      ρ.filterMap observeObject = τ.filterMap (observe w t) ∧
      ∀ o, k.works w = some o → o.Stands x := by
  obtain ⟨ρ, x, hρ, hevents, hm⟩ := h.simulation (R := Matches w t) (P := Pairs w t)
    (f := observe w t) (g := observeObject) (matches_init w t)
    (fun k action k' x hr hs hp hm => (step_effect hs).simulates (Reachable.consistent hr) hm hp) hp
  exact ⟨ρ, x, hρ, hevents, hm.work⟩

/-- The delayed request is started. -/
def startedDelayed : List (KernelAction Nat) := delayed ++ [.resume 0]

theorem kernel_refines_work_object_delayed :
    ∃ ρ x, Lts.Run Object.step .allocate ρ x ∧
      ρ.filterMap observeObject = [.enqueueDelayed 7, .started 7] ∧
      x.work.work.running = some 7 := by
  have hrun : (Lts.exec step startedDelayed init).map (fun k => k.works 0) =
      some (some { delayedWork with thread := .running 7, timer := none, pending := false }) := by
    decide
  obtain ⟨k, hk, ho⟩ := Option.map_eq_some_iff.mp hrun
  have hobserve : (Lts.trace step startedDelayed init).filterMap (observe 0 0) =
      [.enqueueDelayed 7, .started 7] := rfl
  have hpairs : ∀ tr ∈ Lts.trace step startedDelayed init, Pairs 0 0 tr := by
    intro tr htr v u callback ms he
    have hmem := Lts.action_mem_of_trace tr htr
    rw [he] at hmem
    simp only [startedDelayed, delayed, List.cons_append, List.nil_append, List.mem_cons,
      reduceCtorEq, KernelAction.enqueueDelayedWork.injEq, List.not_mem_nil, or_false,
      false_or] at hmem
    simp [hmem.1, hmem.2.1]
  obtain ⟨ρ, x, hρ, hevents, hstands⟩ := kernel_refines_work_object (Lts.exec_run hk) hpairs
  exact ⟨ρ, x, hρ, hevents.trans hobserve, (hstands _ ho).running⟩

/-! ## Delays -/

/-- The request for `w` that is accepted in the step, with the time and the delay. -/
def accepted (w : Nat) (tr : Transition φ) : Option (φ × Option (Timespec × UInt64)) :=
  let free := (tr.before.works w).any fun o => !o.pending && !o.stopping
  match tr.action with
  | .enqueueWork v callback => if v = w ∧ free then some (callback, none) else none
  | .enqueueDelayedWork v t callback ms =>
    if v = w ∧ free then
      if ms = 0 then some (callback, none)
      else if tr.before.timers t = some { work := none } then
        some (callback, some (tr.before.now, ms))
      else none
    else none
  | _ => none

/-- The callback that the thread of `w` starts in the step. -/
def started (w : Nat) (tr : Transition φ) : Option φ :=
  match tr.action with
  | .resume v => if v = w then (tr.after.works w).bind fun o => o.thread.callback else none
  | _ => none

end Kernel

/-- The request that is pending is the one that was accepted last, and has not been started. -/
structure KernelWork.Keeps (o : KernelWork φ) (starts : List φ)
    (requests : List (φ × Option (Timespec × UInt64))) : Prop where
  exists_last : ∃ before callback delay, requests = before ++ [(callback, delay)] ∧
    starts.Sublist (before.map Prod.fst) ∧ o.callback = some callback ∧
    (o.timer = none → delay = none) ∧
    (o.timer ≠ none → ∃ now ms, delay = some (now, ms) ∧ o.deadline = now.deadlineAfterMs ms)

namespace Kernel

variable {k k' : Kernel φ} {w : Nat} {o o' : KernelWork φ} {action : KernelAction φ}
  {τ : List (Transition φ)}

structure Keeps (w : Nat) (τ : List (Transition φ)) (k : Kernel φ) : Prop where
  starts : (τ.filterMap (started w)).Sublist ((τ.filterMap (accepted w)).map Prod.fst)
  pending : ∀ o, k.works w = some o → o.pending = true →
    o.Keeps (τ.filterMap (started w)) (τ.filterMap (accepted w))

/-- A step that neither accepts nor starts a request of the work object. -/
theorem Keeps.frame (h : Keeps w τ k) (ha : accepted w ⟨k, action, k'⟩ = none)
    (hs : started w ⟨k, action, k'⟩ = none)
    (hw : ∀ o', k'.works w = some o' → o'.pending = true → ∃ o, k.works w = some o ∧
      o.pending = true ∧ o'.callback = o.callback ∧ o'.timer = o.timer ∧
      o'.deadline = o.deadline) : Keeps w (τ ++ [⟨k, action, k'⟩]) k' := by
  constructor <;> rw [Lts.filterMap_concat_none τ ha, Lts.filterMap_concat_none τ hs]
  · exact h.starts
  · intro o' ho' hp'
    obtain ⟨o, ho, hp, hcallback, htimer, hdeadline⟩ := hw o' ho' hp'
    obtain ⟨before, callback, delay, hrequests, hsub, hc, hnone, hsome⟩ :=
      (h.pending o ho hp).exists_last
    refine ⟨before, callback, delay, hrequests, hsub, hcallback.trans hc, ?_, ?_⟩
    · rw [htimer]
      exact hnone
    · rw [htimer, hdeadline]
      exact hsome

/-- The work object changes, but not its request. -/
theorem Keeps.update (h : Keeps w τ k) {v : Nat} (ha : accepted w ⟨k, action, k'⟩ = none)
    (hs : started w ⟨k, action, k'⟩ = none) (ho : k.works v = some o)
    (hworks : k'.works = Function.update k.works v (some o'))
    (ho' : v = w → o'.pending = true → o.pending = true ∧ o'.callback = o.callback ∧
      o'.timer = o.timer ∧ o'.deadline = o.deadline) :
    Keeps w (τ ++ [⟨k, action, k'⟩]) k' := by
  refine h.frame ha hs fun p hp hpending => ?_
  rw [hworks, Function.update_apply] at hp
  split at hp
  · next he =>
    cases hp
    exact ⟨o, he ▸ ho, ho' he.symm hpending⟩
  · exact ⟨p, hp, hpending, rfl, rfl, rfl⟩

/-- A request is accepted. -/
theorem Keeps.accept (h : Keeps w τ k) {callback : φ} {delay : Option (Timespec × UInt64)}
    (ha : accepted w ⟨k, action, k'⟩ = some (callback, delay))
    (hs : started w ⟨k, action, k'⟩ = none)
    (hworks : k'.works = Function.update k.works w (some o')) (hc : o'.callback = some callback)
    (hnone : o'.timer = none → delay = none)
    (hsome : o'.timer ≠ none → ∃ now ms, delay = some (now, ms) ∧
      o'.deadline = now.deadlineAfterMs ms) : Keeps w (τ ++ [⟨k, action, k'⟩]) k' := by
  constructor <;> rw [Lts.filterMap_concat_some τ ha, Lts.filterMap_concat_none τ hs]
  · rw [List.map_append]
    exact h.starts.trans (List.sublist_append_left _ _)
  · intro p hp _
    rw [hworks, Function.update_self, Option.some.injEq] at hp
    subst hp
    exact ⟨_, _, _, rfl, h.starts, hc, hnone, hsome⟩

/-- The request is started. -/
theorem Keeps.start (h : Keeps w τ k) {callback : φ} (ha : accepted w ⟨k, action, k'⟩ = none)
    (hs : started w ⟨k, action, k'⟩ = some callback) (ho : k.works w = some o)
    (hp : o.pending = true) (hc : o.callback = some callback)
    (hworks : k'.works = Function.update k.works w (some o')) (hp' : o'.pending = false) :
    Keeps w (τ ++ [⟨k, action, k'⟩]) k' := by
  constructor <;> rw [Lts.filterMap_concat_none τ ha, Lts.filterMap_concat_some τ hs]
  · obtain ⟨before, c, delay, hrequests, hsub, hcallback, -⟩ := (h.pending o ho hp).exists_last
    obtain rfl := Option.some.inj (hc.symm.trans hcallback)
    rw [hrequests, List.map_append]
    exact hsub.append (List.Sublist.refl _)
  · intro p hp hpending
    rw [hworks, Function.update_self, Option.some.injEq] at hp
    subst hp
    rw [hp'] at hpending
    cases hpending

theorem started_resume (ho : k'.works w = some o) :
    started w ⟨k, .resume w, k'⟩ = o.thread.callback := by
  refine (if_pos rfl).trans ?_
  rw [ho]
  rfl

theorem enqueueWork_keeps (h : Keeps w τ k) {v : Nat} {callback : φ}
    (hs : started w ⟨k, action, k'⟩ = none)
    (ha : accepted w ⟨k, action, k'⟩ = accepted w ⟨k, .enqueueWork v callback, k'⟩)
    (hc : k.Consistent) (he : Effect k (.enqueueWork v callback) k') :
    Keeps w (τ ++ [⟨k, action, k'⟩]) k' := by
  cases he with
  | @ignored _ _ o ho hb =>
    refine h.frame (ha.trans ?_) hs fun o ho hp => ⟨o, ho, hp, rfl, rfl, rfl⟩
    refine if_neg fun hfree => ?_
    obtain ⟨rfl, hfree⟩ := hfree
    rcases hb with hb | hb <;> simp [ho, hb] at hfree
  | @enqueued _ _ o ho hp hstop =>
    by_cases hv : v = w
    · subst hv
      have hfree : v = v ∧ (k.works v).any (fun o => !o.pending && !o.stopping) = true :=
        ⟨rfl, by simp [ho, hp, hstop]⟩
      refine h.accept (ha.trans (if_pos hfree)) hs rfl (KernelWork.signal_callback _)
        (fun _ => rfl) fun hn => ?_
      rw [KernelWork.signal_timer] at hn
      exact absurd ((hc.valid v o ho).timer_none hp) hn
    · exact h.update (ha.trans (if_neg fun hfree => hv hfree.1)) hs ho rfl fun he => absurd he hv

theorem enqueueDelayedWork_keeps (h : Keeps w τ k) {v t : Nat} {callback : φ} {ms : UInt64}
    (hc : k.Consistent) (he : Effect k (.enqueueDelayedWork v t callback ms) k') :
    Keeps w (τ ++ [⟨k, .enqueueDelayedWork v t callback ms, k'⟩]) k' := by
  have hs : started w ⟨k, .enqueueDelayedWork v t callback ms, k'⟩ = none := rfl
  cases he with
  | undelayed he => exact enqueueWork_keeps h hs rfl hc he
  | @ignoredDelayed _ _ _ _ o timer hms ho ht hb =>
    refine h.frame ?_ hs fun o ho hp => ⟨o, ho, hp, rfl, rfl, rfl⟩
    by_cases hfree : v = w ∧ (k.works v).any (fun o => !o.pending && !o.stopping) = true
    · obtain ⟨rfl, hfree⟩ := hfree
      refine (if_pos ⟨rfl, hfree⟩).trans ((if_neg hms).trans (if_neg fun hn => ?_))
      dsimp only at hn
      rw [ht, Option.some.injEq] at hn
      rcases hb with hb | hb | hb
      · simp [ho, hb] at hfree
      · simp [ho, hb] at hfree
      · exact hb (by rw [hn])
    · refine if_neg ?_
      rintro ⟨rfl, hn⟩
      exact hfree ⟨rfl, hn⟩
  | @armed _ _ _ _ o hms ho ht hp hstop =>
    by_cases hv : v = w
    · subst hv
      have hfree : v = v ∧ (k.works v).any (fun o => !o.pending && !o.stopping) = true :=
        ⟨rfl, by simp [ho, hp, hstop]⟩
      refine h.accept ((if_pos hfree).trans ((if_neg hms).trans (if_pos ht))) hs rfl
        (KernelWork.signal_callback _) (fun hn => ?_)
        fun _ => ⟨_, _, rfl, KernelWork.signal_deadline _⟩
      rw [KernelWork.signal_timer] at hn
      cases hn
    · exact h.update (if_neg fun hfree => hv hfree.1) hs ho rfl fun he => absurd he hv

/-- **Each step of the kernel keeps the order of requests and starts.** -/
theorem Effect.keeps (h : Keeps w τ k) (hc : k.Consistent) (he : Effect k action k') :
    Keeps w (τ ++ [⟨k, action, k'⟩]) k' := by
  cases action with
  | tick now =>
    cases he with
    | tick => exact h.frame rfl rfl fun o ho hp => ⟨o, ho, hp, rfl, rfl, rfl⟩
  | allocateWork =>
    cases he with
    | allocateWork =>
      refine h.frame rfl rfl fun o ho hp => ?_
      have ho' : Function.update k.works k.nextWork (some .allocate) w = some o := ho
      rw [Function.update_apply] at ho'
      split at ho'
      · cases ho'
        cases hp
      · exact ⟨o, ho', hp, rfl, rfl, rfl⟩
  | allocateTimer =>
    cases he with
    | allocateTimer => exact h.frame rfl rfl fun o ho hp => ⟨o, ho, hp, rfl, rfl, rfl⟩
  | enqueueWork v callback => exact enqueueWork_keeps h rfl rfl hc he
  | enqueueDelayedWork v t callback ms => exact enqueueDelayedWork_keeps h hc he
  | freeTimer u =>
    cases he with
    | freeIdleTimer | freeStaleTimer =>
      exact h.frame rfl rfl fun o ho hp => ⟨o, ho, hp, rfl, rfl, rfl⟩
    | cancel ht ho hot =>
      refine h.update rfl rfl ho rfl fun _ hp => ?_
      rw [KernelWork.signal_pending] at hp
      cases hp
  | freeWork v =>
    cases he with
    | freeWork ho hs hu =>
      obtain ⟨hworks, -⟩ := unlink_timers hc ho hu
      refine h.update rfl rfl ho (congrArg (Function.update · v _) hworks) fun _ hp => ?_
      rw [KernelWork.signal_pending] at hp
      cases hp
  | join v =>
    cases he with
    | join ho hs hthread =>
      refine h.frame rfl rfl fun o ho hp => ?_
      have ho' : Function.update k.works v none w = some o := ho
      rw [Function.update_apply] at ho'
      split at ho'
      · cases ho'
      · exact ⟨o, ho', hp, rfl, rfl, rfl⟩
  | resume v =>
    cases he with
    | @resume _ o _ ho hr hk =>
      -- the thread does not take a request
      have hsleep {o' : KernelWork φ} (hk' : k' = k.setWork v o')
          (hthread : o'.thread.callback = none) (hpending : o'.pending = o.pending)
          (hcallback : o'.callback = o.callback) (htimer : o'.timer = o.timer)
          (hdeadline : o'.deadline = o.deadline) :
          Keeps w (τ ++ [⟨k, .resume v, k'⟩]) k' := by
        subst hk'
        refine h.update rfl ?_ ho rfl fun _ hp => ⟨hpending ▸ hp, hcallback, htimer, hdeadline⟩
        by_cases hv : v = w
        · subst hv
          exact (started_resume (Function.update_self _ _ _)).trans hthread
        · exact if_neg hv
      cases hk with
      | exits => exact hsleep rfl rfl rfl rfl rfl rfl
      | waits => exact hsleep rfl rfl rfl rfl rfl rfl
      | waitsTimed => exact hsleep rfl rfl rfl rfl rfl rfl
      | @takes callback k₁ hs hp hd hcallback hu =>
        obtain ⟨hworks, -⟩ := unlink_timers hc ho hu
        have hupdate := congrArg (Function.update · v (some ({ o with
          thread := .running callback, timer := none, pending := false } : KernelWork φ))) hworks
        by_cases hv : v = w
        · subst hv
          have hself := (congrFun hupdate v).trans (Function.update_self _ _ _)
          exact h.start rfl ((started_resume hself).trans rfl) ho hp hcallback hupdate rfl
        · exact h.update rfl (if_neg hv) ho hupdate fun he => absurd he hv
  | finish v =>
    cases he with
    | finish ho hthread => exact h.update rfl rfl ho rfl fun _ hp => ⟨hp, rfl, rfl, rfl⟩

theorem keeps_run (h : Run τ k) : Keeps w τ k :=
  h.history (P := Keeps w) ⟨List.Sublist.refl _, fun _ ho => by cases ho⟩
    fun _ _ _ _ hr hk hs => (step_effect hs).keeps hk (Reachable.consistent hr.reachable)

/-- **A thread starts the requests that were accepted, each at most once and in their order, and
none before its time.** What it starts is the request that was accepted last; when that one is
delayed, the delay has passed since the call. -/
theorem kernel_keeps_delays (h : Run τ k) :
    (τ.filterMap (started w)).Sublist ((τ.filterMap (accepted w)).map Prod.fst) ∧
    ∀ τ₁ tr τ₂ callback, τ = τ₁ ++ tr :: τ₂ → started w tr = some callback →
      ∃ delay, (τ₁.filterMap (accepted w)).getLast? = some (callback, delay) ∧
        ∀ now ms, delay = some (now, ms) → now.ns + ms.toNat * 1000000 ≤ tr.before.now.ns := by
  refine ⟨(keeps_run h).starts, ?_⟩
  rintro τ₁ ⟨k₁, action, k₂⟩ τ₂ callback rfl hstarted
  obtain ⟨hrun, hstep⟩ := h.split rfl
  have hc := Reachable.consistent hrun.reachable
  unfold started at hstarted
  dsimp only at hrun hstep hstarted ⊢
  split at hstarted
  · next v =>
    split at hstarted
    · next hv =>
      subst hv
      obtain ⟨o', ho', hthread⟩ := Option.bind_eq_some_iff.mp hstarted
      cases step_effect hstep with
      | @resume _ o _ ho hr hk =>
        have hself {p : KernelWork φ} {works : Nat → Option (KernelWork φ)}
            (hp : Function.update works v (some p) v = some o') :
            p.thread.callback = some callback := by
          rw [Function.update_self, Option.some.injEq] at hp
          exact hp ▸ hthread
        cases hk with
        | exits | waits | waitsTimed => cases hself ho'
        | takes hs hp hd hcallback hu =>
          obtain ⟨before, c, delay, hrequests, -, hlast, hnone, hsome⟩ :=
            ((keeps_run hrun).pending o ho hp).exists_last
          obtain rfl := Option.some.inj (hself ho')
          obtain rfl := Option.some.inj (hcallback.symm.trans hlast)
          refine ⟨delay, by rw [hrequests, List.getLast?_concat], ?_⟩
          rintro now ms rfl
          have htimer : o.timer ≠ none := fun hn => by cases hnone hn
          obtain ⟨now', ms', he, hdeadline⟩ := hsome htimer
          cases he
          have hle := hd.resolve_left htimer
          rw [Timespec.compare_nonneg_iff hc.now (hc.valid v o ho).normal, hdeadline,
            Timespec.ns_deadlineAfterMs] at hle
          exact hle
    · cases hstarted
  · cases hstarted

theorem kernel_keeps_delays_delayed :
    ∃ k τ tr, Lts.exec step startedDelayed init = some k ∧
      Lts.trace step startedDelayed init = τ ++ [tr] ∧ started 0 tr = some 7 ∧
      (τ.filterMap (accepted 0)).getLast? = some (7, some (⟨0, 0⟩, 75)) ∧
      75 * 1000000 ≤ tr.before.now.ns := by
  have hrun : (Lts.exec step startedDelayed init).isSome = true := by decide
  obtain ⟨k, hk⟩ := Option.isSome_iff_exists.mp hrun
  have hne : Lts.trace step startedDelayed init ≠ [] := List.cons_ne_nil _ _
  have hsplit := (List.dropLast_concat_getLast hne).symm
  have hstarted : started 0 ((Lts.trace step startedDelayed init).getLast hne) = some 7 := rfl
  obtain ⟨delay, hlast, hdelay⟩ :=
    (kernel_keeps_delays (w := 0) (Lts.exec_run hk)).2 _ _ [] 7 hsplit hstarted
  have haccepted : ((Lts.trace step startedDelayed init).dropLast.filterMap
      (accepted 0)).getLast? = some (7, some (⟨0, 0⟩, 75)) := rfl
  obtain rfl : delay = some (⟨0, 0⟩, 75) := by
    rw [haccepted, Option.some.injEq] at hlast
    exact (Prod.ext_iff.mp hlast).2.symm
  have hle : (⟨0, 0⟩ : Timespec).ns + (75 : UInt64).toNat * 1000000 ≤ _ := hdelay _ _ rfl
  rw [show (⟨0, 0⟩ : Timespec).ns = 0 from rfl, Nat.zero_add] at hle
  exact ⟨k, _, _, hk, hsplit, hstarted, haccepted, hle⟩

end Kernel

end U80211
