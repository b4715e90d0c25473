import U80211.Properties.Contexts

/-!
# No attempt gets stuck

While an attempt waits for the access point, something of it is still to come: the call that
started it, its completion work, or the timeout of the phase it is in.

* `Reachable.pursued`: that holds in every reachable state
* `attempt_never_stuck`: and the timeout of the phase ends the attempt, while any other timeout
  changes nothing
-/

namespace U80211

open WorkQueue

variable {s s' : System} {ownAddress : MacAddress}

/-- A timeout is armed or about to run its section. -/
def Due (d : DelayedWork TimeoutPc) : Prop :=
  d.work.request ≠ .idle ∨ d.work.running = some .critical

theorem Due.enqueue {d : DelayedWork TimeoutPc} (ht : d.timerFreed = false)
    (hw : d.work.freed = false) : Due d.enqueue :=
  Or.inl (DelayedWork.enqueue_pending ht hw)

theorem Due.enqueue_of_due {d : DelayedWork TimeoutPc} (h : Due d) : Due d.enqueue := by
  unfold DelayedWork.enqueue
  split
  · exact Or.inl (by simp)
  · exact h

theorem Due.expire {d d' : DelayedWork TimeoutPc} (h : d.expire = some d') : Due d' := by
  obtain ⟨-, rfl⟩ := DelayedWork.expire_eq_some h
  exact Or.inl (by simp)

theorem Due.start {d d' : DelayedWork TimeoutPc} (h : d.start .critical = some d') : Due d' := by
  obtain ⟨-, -, -, rfl⟩ := DelayedWork.start_eq_some h
  exact Or.inr rfl

/-- A callback that is past its section leaves a pending request alone. -/
theorem Due.goto {d : DelayedWork TimeoutPc} (h : Due d)
    (hw : d.work.running = some .enqueueCleanup) (next : Option TimeoutPc) :
    Due (d.goto next) := by
  rcases h with h | h
  · exact Or.inl h
  · rw [hw] at h
    cases h

/-- What is still to come for the current attempt with the context's objects `o`. -/
def Pursued (s : System) (o : ContextObjects) : Prop :=
  (s.association.state = .authenticating →
    (∃ call ∈ s.calls, call.attempt = some o.context) ∨ Due (o.timeoutWork .auth)) ∧
  (s.association.state = .associating →
    o.completionWork.request = .queued ∨ o.completionWork.running ≠ none ∨
      Due (o.timeoutWork .assoc))

/-! ## Steps -/

/-- The call that started an attempt goes on, or arms the timeout. -/
theorem attempt_set {calls : List Call} {i : Nat} {c : AssociationContext} {old new : Call}
    (hi : calls[i]? = some old) (h : ∃ call ∈ calls, call.attempt = some c)
    (hn : old.attempt = some c → new.attempt = some c) :
    ∃ call ∈ calls.set i new, call.attempt = some c := by
  obtain ⟨call, hm, hc⟩ := h
  obtain ⟨j, hj⟩ := List.getElem?_of_mem hm
  by_cases hji : i = j
  · subst hji
    rw [hi, Option.some.injEq] at hj
    subst hj
    have hlt := (List.getElem?_eq_some_iff.mp hi).1
    exact ⟨new, List.mem_of_getElem? (by rw [List.getElem?_set_self hlt]), hn hc⟩
  · exact ⟨call, List.mem_of_getElem? (by rw [List.getElem?_set_ne hji, hj]), hc⟩

theorem mem_wake_of_mem {result : Status} {c : Call} (hc : ∀ n r, c ≠ .waiting n r)
    {waiters : List Nat} {calls : List Call} (h : c ∈ calls) :
    c ∈ System.wakeAssociationWaiters calls waiters result := by
  induction waiters generalizing calls with
  | nil => exact h
  | cons w ws ih =>
    have hsig : c ∈ System.signal result calls w := by
      unfold System.signal
      split
      · next n r hw =>
        obtain ⟨j, hj⟩ := List.getElem?_of_mem h
        have hne : w ≠ j := by
          rintro rfl
          rw [hw, Option.some.injEq] at hj
          exact hc _ _ hj.symm
        exact List.mem_of_getElem? (by rw [List.getElem?_set_ne hne, hj])
      · exact h
    have hwake : c ∈ System.wakeAssociationWaiters (System.signal result calls w) ws result :=
      ih hsig
    exact hwake

theorem Effect.attempt_persist {action : Action} (he : Effect s action s') {c : AssociationContext}
    (h : ∃ call ∈ s.calls, call.attempt = some c) :
    (∃ call ∈ s'.calls, call.attempt = some c) ∨
      ∃ o, s.objects c.id = some o ∧
        s'.objects c.id = some (o.updateTimeout .auth (o.timeoutWork .auth).enqueue) := by
  cases he with
  | invoke =>
    obtain ⟨call, hm, hc⟩ := h
    exact Or.inl ⟨call, List.mem_append_left _ hm, hc⟩
  | quiet hcall hq => exact Or.inl (attempt_set hcall h fun hc => by rw [hq.attempt, hc])
  | @arm _ _ context ob hcall ho =>
    by_cases hctx : context = c
    · subst hctx
      exact Or.inr ⟨ob, ho, objects_setObjects_self _ _ _⟩
    · refine Or.inl (attempt_set hcall h ?_)
      intro hc
      exact absurd (Option.some.inj hc) hctx
  | process hcall hr =>
    rw [System.setCall_calls, applySection_calls]
    exact Or.inl (attempt_set hcall h nofun)
  | timeout ho hw hr =>
    rw [System.setObjects_calls, applySection_calls]
    exact Or.inl h
  | cleanupSecond hw =>
    obtain ⟨call, hm, hc⟩ := h
    refine Or.inl ⟨call, mem_wake_of_mem ?_ hm, hc⟩
    rintro n r rfl
    cases hc
  | takeDisconnected hcall | releaseTaken hcall | install hcall | deauthenticateFirst hcall
  | deauthenticateSecond hcall | deauthenticateRelease hcall | answer hcall | wait hcall
  | woken hcall | receive hcall | filter hcall | enqueueCleanup hcall =>
    exact Or.inl (attempt_set hcall h nofun)
  | _ => exact Or.inl h

/-- An attempt that goes on either stays in its phase or is accepted by the access point. -/
theorem Effect.phase_cases (hc : s.association.Consistent) {action : Action}
    (he : Effect s action s') {c : AssociationContext}
    (h : s.association.associationContext = some c)
    (h' : s'.association.associationContext = some c) :
    s'.association.state = s.association.state ∨
      s.association.state = .authenticating ∧ s'.association.state = .associating ∧
        s'.objects c.id = (s.objects c.id).map fun o =>
          o.updateCompletion o.completionWork.enqueue := by
  have hin := hc.inProgress_of_context h
  cases he with
  | install hcall hp hs hid hg => rw [hs] at hin; cases hin
  | deauthenticateFirst hcall hs => rw [hs] at hin; cases hin
  | deauthenticateSecond hcall hs ha => rw [hs] at hin; cases hin
  | scanBegin hs => rw [hs] at hin; cases hin
  | scanEnd hs => rw [hs] at hin; cases hin
  | process hcall hr =>
    cases hr with
    | unchanged _ => exact Or.inl rfl
    | authenticated hcx hs ha =>
      rw [h, Option.some.injEq] at hcx
      subst hcx
      refine Or.inr ⟨hs, rfl, ?_⟩
      show Function.update s.objects c.id _ c.id = _
      rw [Function.update_self]
      rfl
    | ended _ _ => cases h'
    | disconnected hs _ _ => rw [hs] at hin; cases hin
  | timeout ho hw hr =>
    cases hr with
    | unchanged _ => exact Or.inl rfl
    | authenticated _ _ ha => cases ha
    | ended _ _ => cases h'
    | disconnected _ _ hd => cases hd
  | _ => exact Or.inl rfl

/-- The cleanup frees something of the objects `o`. -/
def FreedBy (s : System) (o : ContextObjects) : Prop :=
  ∃ c d pc next o', s.cleanupWork.running = some pc ∧ s.objects c.id = some o ∧
    Destroys c d pc next o o'

/-- A timeout that is due stays due until it ends the attempt or the cleanup frees it. -/
theorem ObjectStep.due {action : Action} {k : Nat} {o o' : ContextObjects}
    (h : ObjectStep s action s' k o o') (ho : s.objects k = some o) {kind : TimeoutKind}
    (hd : Due (o.timeoutWork kind)) :
    Due (o'.timeoutWork kind) ∨ FreedBy s o ∨
      (s.association.associationContext = some o.context →
        s.association.state = kind.expectedState → s'.association.associationContext = none) := by
  -- an update of one timeout of the context
  have hupdate : ∀ {kind₁ : TimeoutKind} {w : DelayedWork TimeoutPc},
      (kind₁ = kind → Due w) → Due ((o.updateTimeout kind₁ w).timeoutWork kind) := by
    intro kind₁ w hw
    by_cases hk : kind = kind₁
    · subst hk
      simpa using hw rfl
    · simpa [Function.update_of_ne hk] using hd
  cases h with
  | arm => exact Or.inl (hupdate fun hk => by subst hk; exact hd.enqueue_of_due)
  | expire hw => exact Or.inl (hupdate fun _ => .expire hw)
  | startTimeout hw => exact Or.inl (hupdate fun _ => .start hw)
  | @timeout kind₁ r next hw hr ha =>
    by_cases hk : kind₁ = kind
    · subst hk
      refine Or.inr (Or.inr ?_)
      intro hcx hst
      rw [ha]
      cases hr with
      | unchanged hi => exact absurd (.expired hst) (hi.ends _ .timedOut hcx)
      | authenticated _ _ h => cases h
      | ended _ _ => rfl
      | disconnected _ _ h => cases h
    · exact Or.inl (hupdate fun h => absurd h hk)
  | timeoutEnqueue hw hq => exact Or.inl (hupdate fun hk => by subst hk; exact hd.goto hw none)
  | enqueueTimeout ha hw =>
    exact Or.inl (hupdate fun hk => by subst hk; exact hd.enqueue_of_due)
  | destroy ha hid hw hdes hr =>
    exact Or.inr (Or.inl ⟨_, _, _, _, _, hw, hid ▸ ho, hdes⟩)
  | _ => exact Or.inl hd

/-- A completion work that is to run, or runs, does so until it has armed the timeout. -/
theorem ObjectStep.completionLive {action : Action} {k : Nat} {o o' : ContextObjects}
    (h : ObjectStep s action s' k o o') (ho : s.objects k = some o) (hint : ¬ o.Destroyed)
    (hl : o.completionWork.request = .queued ∨ o.completionWork.running ≠ none) :
    (o'.completionWork.request = .queued ∨ o'.completionWork.running ≠ none) ∨
      Due (o'.timeoutWork .assoc) ∨ FreedBy s o := by
  cases h with
  | authenticated hc hold hid =>
    refine Or.inl ?_
    rcases hl with hq | hr
    · refine Or.inl ?_
      simp [Work.enqueue, hq]
    · exact Or.inr (by simpa using hr)
  | startCompletion ha hw =>
    obtain ⟨-, -, -, rfl⟩ := Work.start_eq_some hw
    exact Or.inl (Or.inr (by simp))
  | sendAssociationRequest ha hw => exact Or.inl (Or.inr (by simp [Work.goto]))
  | enqueueTimeout ha hw =>
    simp only [ContextObjects.Destroyed, not_or, Bool.not_eq_true] at hint
    refine Or.inr (Or.inl ?_)
    simpa using Due.enqueue hint.2.1 hint.2.2.2.2.1
  | destroy ha hid hw hdes hr =>
    exact Or.inr (Or.inr ⟨_, _, _, _, _, hw, hid ▸ ho, hdes⟩)
  | _ => exact Or.inl hl

/-! ## Reachable states -/

/-- The current attempt is pursued. -/
def ProgressInvariant (s : System) : Prop :=
  ∀ c o, s.association.associationContext = some c → s.objects c.id = some o → Pursued s o

/-- Nothing of a current context is freed. -/
theorem not_freedBy (hr : Reachable ownAddress s) {c : AssociationContext}
    (hcx : s.association.associationContext = some c) (o : ContextObjects) : ¬ FreedBy s o := by
  rintro ⟨c₁, d, pc, next, o', hw, ho₁, hd⟩
  have hcc := hr.cleanup.context pc c₁ hw hd.context_eq.1
  rw [hr.consistent.cleanupContext_of_context hcx] at hcc
  cases hcc

/-- Every step keeps an attempt that goes on pursued. -/
theorem progress_step (hr : Reachable ownAddress s) {action : Action} (hp : ProgressInvariant s)
    (hs : step action s = some s') : ProgressInvariant s' := by
  have he := hr.effect hs
  have hinv := hr.contexts
  intro c o' hcx' ho'
  rcases he.context_cases hcx' with hcx | ⟨-, hnew, hst, hcall⟩
  · obtain ⟨o, ho, hoc, hint⟩ := hinv.current c hcx
    have hlt := (hinv.id _ _ ho).2
    have hnf := not_freedBy hr hcx o
    obtain ⟨hauth, hassoc⟩ := hp c o hcx ho
    have hctx' : o'.context = c := by
      obtain ⟨o₁, ho₁, hoc₁⟩ := he.objects_persist hlt ho
      rw [ho', Option.some.injEq] at ho₁
      rw [ho₁, hoc₁, hoc]
    -- what is due stays due: nothing frees the objects of the current context, and the timeout of
    -- the phase, once it runs, ends the attempt
    have hdue : ∀ kind : TimeoutKind, s.association.state = kind.expectedState →
        Due (o.timeoutWork kind) → Due (o'.timeoutWork kind) := by
      intro kind hst hd
      rcases (he.objectStep hlt ho ho').due ho hd with h | h | h
      · exact h
      · exact absurd h hnf
      · have hnone := h (by rw [hoc, hcx]) hst
        rw [hcx'] at hnone
        cases hnone
    rcases he.phase_cases hr.consistent hcx hcx' with hsame | ⟨hst, hst', hob⟩
    · constructor
      · intro hst'
        rw [hsame] at hst'
        rcases hauth hst' with hcall | hd
        · rw [hoc] at hcall
          rw [hctx']
          rcases he.attempt_persist hcall with hcall' | ⟨o₁, ho₁, ho₁'⟩
          · exact Or.inl hcall'
          · rw [ho, Option.some.injEq] at ho₁
            subst ho₁
            rw [ho', Option.some.injEq] at ho₁'
            subst ho₁'
            simp only [ContextObjects.Destroyed, not_or, Bool.not_eq_true] at hint
            refine Or.inr ?_
            simpa using Due.enqueue hint.1 hint.2.2.2.1
        · exact Or.inr (hdue .auth hst' hd)
      · intro hst'
        rw [hsame] at hst'
        rcases or_assoc.mpr (hassoc hst') with hl | hd
        · rcases (he.objectStep hlt ho ho').completionLive ho hint hl with (h | h) | h | h
          · exact Or.inl h
          · exact Or.inr (Or.inl h)
          · exact Or.inr (Or.inr h)
          · exact absurd h hnf
        · exact Or.inr (Or.inr (hdue .assoc hst' hd))
    · -- the access point has accepted the authentication: the completion work is queued
      refine ⟨?_, fun _ => Or.inl ?_⟩
      · intro hst₁
        rw [hst'] at hst₁
        cases hst₁
      · rw [ho, ho', Option.map_some, Option.some.injEq] at hob
        subst hob
        simp only [ContextObjects.Destroyed, not_or, Bool.not_eq_true] at hint
        rcases (hinv.completion _ _ ho).request with hidle | hq
        · simp [Work.enqueue, hint.2.2.1, hidle]
        · simp [Work.enqueue, hq]
  · -- the attempt has just been started
    rw [ho', Option.some.injEq] at hnew
    subst hnew
    constructor
    · intro _
      exact Or.inl hcall
    · intro hst'
      rw [hst] at hst'
      cases hst'

theorem Reachable.pursued (h : Reachable ownAddress s) : ProgressInvariant s := by
  refine Lts.Reachable.invariant (P := ProgressInvariant) (fun _ _ hc => by cases hc) ?_ h
  intro s action s' hr ih hs
  exact progress_step hr ih hs

/-- What the step of a timeout does whose section is next. -/
theorem step_timeout {k : Nat} {kind : TimeoutKind} {o : ContextObjects}
    (ho : s.objects k = some o) (hw : (o.timeoutWork kind).work.running = some .critical) :
    step (.advanceTimeout k kind) s =
      some (stepTimeout s k kind o .critical) := by
  simp [step, stepObjects, ho, hw]

/-- **No attempt gets stuck.** An authenticating device still has the call that started the attempt
before it arms the timeout, or the authentication timeout is due; an associating device has the
completion work queued or running, or the association timeout is due. The timeout of the phase
ends the attempt, and any other timeout changes nothing but its own work object. -/
theorem attempt_never_stuck (h : Reachable ownAddress s) :
    (s.association.state = .authenticating →
      ∃ c o, s.association.associationContext = some c ∧ s.objects c.id = some o ∧
        o.context = c ∧ ¬ o.Destroyed ∧
        ((∃ call ∈ s.calls, call.attempt = some c) ∨ Due (o.timeoutWork .auth))) ∧
    (s.association.state = .associating →
      ∃ c o, s.association.associationContext = some c ∧ s.objects c.id = some o ∧
        o.context = c ∧ ¬ o.Destroyed ∧
        (o.completionWork.request = .queued ∨ o.completionWork.running ≠ none ∨
          Due (o.timeoutWork .assoc))) ∧
    ∀ k kind o, s.objects k = some o →
      (o.timeoutWork kind).work.running = some .critical →
      ∃ s', step (.advanceTimeout k kind) s = some s' ∧
        (s.association.associationContext = some o.context →
          s.association.state = kind.expectedState →
          s.association.ap = some o.context.ap ∧
            s.association.associationGeneration = o.context.generation ∧
            s'.association.state = .down ∧ s'.association.associationResult = .timedOut ∧
            s'.association.associationContext = none ∧
            s'.association.associationCleanupPending = true ∧
            s'.association.associationCleanupContext = some o.context ∧
            s'.objects k = some
              (o.updateTimeout kind ((o.timeoutWork kind).goto (some .enqueueCleanup)))) ∧
        (¬ (s.association.associationContext = some o.context ∧
            s.association.state = kind.expectedState) →
          s' = s.setObjects k
            (o.updateTimeout kind ((o.timeoutWork kind).goto none))) := by
  have hcons := h.consistent
  refine ⟨?_, ?_, fun k kind o ho hw => ⟨_, step_timeout ho hw, ?_, ?_⟩⟩
  · intro hst
    obtain ⟨c, hcx⟩ := hcons.context_of_inProgress (by rw [hst]; rfl)
    obtain ⟨o, ho, hoc, hint⟩ := h.contexts.current c hcx
    exact ⟨c, o, hcx, ho, hoc, hint, hoc ▸ (h.pursued c o hcx ho).1 hst⟩
  · intro hst
    obtain ⟨c, hcx⟩ := hcons.context_of_inProgress (by rw [hst]; rfl)
    obtain ⟨o, ho, hoc, hint⟩ := h.contexts.current c hcx
    exact ⟨c, o, hcx, ho, hoc, hint, (h.pursued c o hcx ho).2 hst⟩
  · intro hcx hst
    refine ⟨hcons.context_ap _ hcx, hcons.context_generation _ hcx, ?_⟩
    simp only [stepTimeout, associationTimeout_current hcons hcx hst]
    exact ⟨rfl, rfl, rfl, rfl, rfl, objects_setObjects_self _ _ _⟩
  · intro hn
    simp only [stepTimeout, associationTimeout_other hn]
    rfl

open Scenario in
theorem attempt_never_stuck_expired :
    ∃ s s', Scenario.run (join 0 2 ++ [.expire 0 .auth, .startTimeout 0 .auth]) = some s ∧
      step (.advanceTimeout 0 .auth) s = some s' ∧ s'.association.state = .down ∧
      s'.association.associationResult = .timedOut := by
  have hrun : (run (join 0 2 ++ [.expire 0 .auth, .startTimeout 0 .auth])).map
      (fun s => (s.association.state, s.association.associationContext, (s.objects 0).map
        fun o => (o.context, (o.timeoutWork .auth).work.running))) =
      some (.authenticating,
        some { id := 0, generation := 0, ap := accessPoint 2, informationElements := [] },
        some ({ id := 0, generation := 0, ap := accessPoint 2, informationElements := [] },
          some .critical)) := by decide
  obtain ⟨s, hs, he⟩ := exists_of_run hrun
  rw [Prod.mk.injEq, Prod.mk.injEq] at he
  obtain ⟨hst, hcx, ho⟩ := he
  obtain ⟨o, ho, hoe⟩ := Option.map_eq_some_iff.mp ho
  rw [Prod.mk.injEq] at hoe
  obtain ⟨-, -, htimeout⟩ := attempt_never_stuck (reachable_of_run hs)
  obtain ⟨s', hstep, hends, -⟩ := htimeout 0 .auth o ho hoe.2
  obtain ⟨-, -, hdown, hres, -⟩ := hends (by rw [hcx, hoe.1]) hst
  exact ⟨s, s', hs, hstep, hdown, hres⟩

end U80211
