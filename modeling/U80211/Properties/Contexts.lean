import U80211.Properties.Cleanup

/-!
# Association contexts and their work objects

* `Reachable.contexts`: the context of the current attempt is allocated and nothing of it has been
  freed; a call that goes on with a context finds it allocated; the completion work of a context
  is asked to run, or runs, only while the context is the current one or waits for its cleanup
-/

namespace U80211

open WorkQueue

variable {s s' : System} {ownAddress : MacAddress}

/-! ## Objects -/

/-- The context is the current one or waits for its cleanup. -/
def Association.Live (a : Association) (c : AssociationContext) : Prop :=
  a.associationContext = some c ∨ a.associationCleanupContext = some c

/-- Where the completion work of a context stands with respect to the context. -/
structure CompletionOk (a : Association) (o : ContextObjects) : Prop where
  request : o.completionWork.request = .idle ∨ o.completionWork.request = .queued
  attempt : o.completionWork.request = .queued ∨ o.completionWork.running ≠ none →
    a.Live o.context
  freed : o.completionWork.freed = true →
    o.completionWork.request = .idle ∧ o.completionWork.running = none
  context : o.freed = true → o.completionWork.freed = true

namespace CompletionOk

variable {a : Association} {o : ContextObjects}

/-- A new context has no request yet. -/
theorem allocate (c : AssociationContext) : CompletionOk a (.allocate c) where
  request := Or.inl rfl
  attempt := fun h => by
    rcases h with h | h
    · cases h
    · exact absurd rfl h
  freed := fun h => by cases h
  context := fun h => by cases h

/-- The timeouts have nothing to do with the completion work. -/
theorem updateTimeout (h : CompletionOk a o) {kind : TimeoutKind} {w : DelayedWork TimeoutPc} :
    CompletionOk a (o.updateTimeout kind w) :=
  ⟨h.request, h.attempt, h.freed, h.context⟩

/-- The completion work of a live context goes on, or starts. -/
theorem updateCompletion (h : CompletionOk a o) (hlive : a.Live o.context)
    (hf : o.completionWork.freed = false) {w : Work CompletionPc}
    (hr : w.request = .idle ∨ w.request = .queued) (hw : w.freed = false) :
    CompletionOk a (o.updateCompletion w) where
  request := hr
  attempt := fun _ => hlive
  freed := fun he => by
    rw [ContextObjects.updateCompletion_completionWork, hw] at he
    cases he
  context := fun he => by
    rw [h.context he] at hf
    cases hf

/-- A freed completion work asks for nothing. -/
theorem free (a : Association) (o : ContextObjects) :
    CompletionOk a (o.updateCompletion { request := .idle, running := none, freed := true }) where
  request := Or.inl rfl
  attempt := fun he => by
    rcases he with he | he
    · cases he
    · exact absurd rfl he
  freed := fun _ => ⟨rfl, rfl⟩
  context := fun _ => rfl

/-- A completion work that is to run, or runs, has not been freed. -/
theorem not_freed (h : CompletionOk a o)
    (hlive : o.completionWork.request = .queued ∨ o.completionWork.running ≠ none) :
    o.completionWork.freed = false := by
  cases hf : o.completionWork.freed with
  | false => rfl
  | true =>
    obtain ⟨hreq, hrun⟩ := h.freed hf
    rw [hreq, hrun] at hlive
    rcases hlive with hl | hl
    · cases hl
    · exact absurd rfl hl

/-- `complete_association` goes on. -/
theorem goto (h : CompletionOk a o) (hr : o.completionWork.running ≠ none)
    (next : Option CompletionPc) :
    CompletionOk a (o.updateCompletion (o.completionWork.goto next)) :=
  h.updateCompletion (h.attempt (Or.inr hr)) (h.not_freed (Or.inr hr)) h.request
    (h.not_freed (Or.inr hr))

/-- The completion work of the live context may be asked to run. -/
theorem enqueue (h : CompletionOk a o) (hlive : a.associationContext = some o.context)
    (hf : o.completionWork.freed = false) :
    CompletionOk a (o.updateCompletion o.completionWork.enqueue) := by
  refine h.updateCompletion (Or.inl hlive) hf ?_ (by rw [Work.enqueue_freed, hf])
  unfold Work.enqueue
  split
  · exact Or.inr rfl
  · exact h.request

end CompletionOk

/-- What has been freed when the cleanup stands at a position. -/
def CleanupPc.Freed (o : ContextObjects) : CleanupPc → Prop
  | .freeAssocTimer _ _ | .freeCompletionWork _ _ => (o.timeoutWork .auth).timerFreed = true
  | .freeAuthTimeoutWork _ _ | .freeAssocTimeoutWork _ _ | .freeContext _ _
  | .releaseDisconnected (some _) _ | .second _ =>
    (o.timeoutWork .auth).timerFreed = true ∧ o.completionWork.freed = true
  | .first | .releaseAp _ _ | .freeAuthTimer _ _ | .releaseDisconnected none _ => True

/-- The objects of a context after a step: the same context, and nothing freed that was not. -/
structure SameLife (o o' : ContextObjects) : Prop where
  context : o'.context = o.context
  freed : o'.freed = o.freed
  completionWork : o'.completionWork.freed = o.completionWork.freed
  timer : ∀ kind, (o'.timeoutWork kind).timerFreed = (o.timeoutWork kind).timerFreed
  timeoutWork : ∀ kind, (o'.timeoutWork kind).work.freed = (o.timeoutWork kind).work.freed

/-- What is not freed by a step is as destroyed as before. -/
theorem SameLife.destroyed_iff {o o' : ContextObjects} (h : SameLife o o') :
    o'.Destroyed ↔ o.Destroyed := by
  simp only [ContextObjects.Destroyed, h.freed, h.completionWork, h.timer, h.timeoutWork]

/-- The cleanup has come as far as before. -/
theorem SameLife.freedAt_iff {o o' : ContextObjects} (h : SameLife o o') (pc : CleanupPc) :
    pc.Freed o' ↔ pc.Freed o := by
  unfold CleanupPc.Freed
  simp only [h.completionWork, h.timer]

theorem SameLife.updateCompletion {o : ContextObjects} {w : Work CompletionPc}
    (h : w.freed = o.completionWork.freed) : SameLife o (o.updateCompletion w) :=
  ⟨rfl, rfl, h, fun _ => rfl, fun _ => rfl⟩

theorem SameLife.updateTimeout {o : ContextObjects} {kind : TimeoutKind}
    {w : DelayedWork TimeoutPc} (ht : w.timerFreed = (o.timeoutWork kind).timerFreed)
    (hw : w.work.freed = (o.timeoutWork kind).work.freed) :
    SameLife o (o.updateTimeout kind w) := by
  refine ⟨rfl, rfl, rfl, ?_, ?_⟩
  · intro k
    by_cases hk : k = kind
    · subst hk; simp [ht]
    · simp [Function.update_of_ne hk]
  · intro k
    by_cases hk : k = kind
    · subst hk; simp [hw]
    · simp [Function.update_of_ne hk]

theorem SameLife.trans {o o' o'' : ContextObjects} (h : SameLife o o') (h' : SameLife o' o'') :
    SameLife o o'' :=
  ⟨h'.context.trans h.context, h'.freed.trans h.freed, h'.completionWork.trans h.completionWork,
    fun k => (h'.timer k).trans (h.timer k), fun k => (h'.timeoutWork k).trans (h.timeoutWork k)⟩

/-- A new context is not destroyed. -/
theorem not_destroyed_allocate (c : AssociationContext) :
    ¬ (ContextObjects.allocate c).Destroyed := by
  simp [ContextObjects.Destroyed, ContextObjects.allocate, Work.allocate, DelayedWork.allocate]

/-! ## What a step does to the objects of one context -/

/-- The objects of context `k` after a step: freshly allocated, changed without freeing anything,
or freed in part by the cleanup. -/
inductive ObjectsAfter (s : System) (action : Action) (s' : System) (k : Nat)
    (o' : ContextObjects) : Prop
  | allocated {c : AssociationContext} (hid : c.id = k) (hk : k = s.nextContext)
      (ho : o' = .allocate c) (hn : s'.nextContext = s.nextContext + 1)
  | used {o : ContextObjects} (ho : s.objects k = some o) (h : SameLife o o')
  | freed {o : ContextObjects} {c : AssociationContext} {d : Option AccessPoint}
      {pc next : CleanupPc} (ha : action = .advanceCleanup) (hid : c.id = k)
      (ho : s.objects k = some o) (hw : s.cleanupWork.running = some pc)
      (hd : Destroys c d pc next o o') (hr : s'.cleanupWork.running = some next)

theorem SameLife.refl (o : ContextObjects) : SameLife o o :=
  ⟨rfl, rfl, rfl, fun _ => rfl, fun _ => rfl⟩

theorem objects_setObjects_self (s : System) (k : Nat) (o : ContextObjects) :
    (s.setObjects k o).objects k = some o := by
  simp

/-- An update of one context leaves the others alone. -/
theorem objects_setObjects {k j : Nat} {o o' : ContextObjects}
    (h : (s.setObjects k o).objects j = some o') : (j = k ∧ o' = o) ∨ s.objects j = some o' := by
  rw [System.setObjects_objects, Function.update_apply] at h
  split at h
  · next hj => exact Or.inl ⟨hj, (Option.some.inj h).symm⟩
  · exact Or.inr h

/-- The section of a frame or a timeout touches at most the completion work of the current
context. -/
theorem objects_applySection {cause : Cause} {r : SectionResult}
    (hr : SectionStep s.association cause r) {k : Nat} {o' : ContextObjects}
    (h : (s.applySection r).objects k = some o') :
    s.objects k = some o' ∨ ∃ c o, s.association.associationContext = some c ∧
      r.association.associationContext = some c ∧ c.id = k ∧ s.objects k = some o ∧
      o' = o.updateCompletion o.completionWork.enqueue := by
  cases hr with
  | unchanged _ => exact Or.inl h
  | ended _ _ => exact Or.inl h
  | disconnected _ _ _ => exact Or.inl h
  | @authenticated c hc hs ha =>
    have h' : Function.update s.objects c.id
        ((s.objects c.id).map fun o => o.updateCompletion o.completionWork.enqueue) k = some o' := h
    rw [Function.update_apply] at h'
    split at h'
    · next hk =>
      obtain ⟨o, ho, rfl⟩ := Option.map_eq_some_iff.mp h'
      exact Or.inr ⟨c, o, hc, hc, hk.symm, hk ▸ ho, rfl⟩
    · exact Or.inl h'

/-- A timeout never queues the completion work. -/
theorem objects_applySection_timeout {c : AssociationContext} {kind : TimeoutKind}
    {r : SectionResult} (hr : SectionStep s.association (.timeout c kind) r) :
    (s.applySection r).objects = s.objects := by
  cases hr with
  | unchanged _ => rfl
  | ended _ _ => rfl
  | disconnected _ _ h => cases h
  | authenticated _ _ h => cases h

/-- The start of a timeout frees nothing. -/
theorem start_sameLife {o : ContextObjects} {kind : TimeoutKind} {w : DelayedWork TimeoutPc}
    {entry : TimeoutPc} (h : (o.timeoutWork kind).start entry = some w) :
    SameLife o (o.updateTimeout kind w) := by
  obtain ⟨-, -, hf, rfl⟩ := DelayedWork.start_eq_some h
  exact .updateTimeout rfl hf.symm

/-- The expiry of a timer frees nothing. -/
theorem expire_sameLife {o : ContextObjects} {kind : TimeoutKind} {w : DelayedWork TimeoutPc}
    (h : (o.timeoutWork kind).expire = some w) : SameLife o (o.updateTimeout kind w) := by
  obtain ⟨-, rfl⟩ := DelayedWork.expire_eq_some h
  exact .updateTimeout rfl rfl

theorem enqueue_sameLife (o : ContextObjects) (kind : TimeoutKind) :
    SameLife o (o.updateTimeout kind (o.timeoutWork kind).enqueue) :=
  .updateTimeout (DelayedWork.enqueue_timerFreed _) (DelayedWork.enqueue_freed _)

theorem gotoTimeout_sameLife (o : ContextObjects) (kind : TimeoutKind) (next : Option TimeoutPc) :
    SameLife o (o.updateTimeout kind ((o.timeoutWork kind).goto next)) :=
  .updateTimeout rfl rfl

theorem gotoCompletion_sameLife (o : ContextObjects) (next : Option CompletionPc) :
    SameLife o (o.updateCompletion (o.completionWork.goto next)) :=
  .updateCompletion rfl

/-- What one step can do to the objects of a context that is allocated already. -/
inductive ObjectStep (s : System) (action : Action) (s' : System) (k : Nat) (o : ContextObjects) :
    ContextObjects → Prop
  | same : ObjectStep s action s' k o o
  | arm : ObjectStep s action s' k o (o.updateTimeout .auth (o.timeoutWork .auth).enqueue)
  | authenticated {c : AssociationContext} (hc : s'.association.associationContext = some c)
      (hold : s.association.associationContext = some c) (hid : c.id = k) :
      ObjectStep s action s' k o (o.updateCompletion o.completionWork.enqueue)
  | expire {kind : TimeoutKind} {w : DelayedWork TimeoutPc}
      (hw : (o.timeoutWork kind).expire = some w) :
      ObjectStep s action s' k o (o.updateTimeout kind w)
  | startTimeout {kind : TimeoutKind} {w : DelayedWork TimeoutPc}
      (hw : (o.timeoutWork kind).start .critical = some w) :
      ObjectStep s action s' k o (o.updateTimeout kind w)
  | timeout {kind : TimeoutKind} {r : SectionResult} {next : Option TimeoutPc}
      (hw : (o.timeoutWork kind).work.running = some .critical)
      (hr : SectionStep s.association (.timeout o.context kind) r)
      (ha : s'.association = r.association) :
      ObjectStep s action s' k o (o.updateTimeout kind ((o.timeoutWork kind).goto next))
  | timeoutEnqueue {kind : TimeoutKind}
      (hw : (o.timeoutWork kind).work.running = some .enqueueCleanup)
      (hq : s'.cleanupWork = s.cleanupWork.enqueue) :
      ObjectStep s action s' k o (o.updateTimeout kind ((o.timeoutWork kind).goto none))
  | startCompletion {w : Work CompletionPc} (ha : action = .startCompletion k)
      (hw : o.completionWork.start .sendAssociationRequest = some w) :
      ObjectStep s action s' k o (o.updateCompletion w)
  | sendAssociationRequest (ha : action = .advanceCompletion k)
      (hw : o.completionWork.running = some .sendAssociationRequest) :
      ObjectStep s action s' k o
        (o.updateCompletion (o.completionWork.goto (some .enqueueTimeout)))
  | enqueueTimeout (ha : action = .advanceCompletion k)
      (hw : o.completionWork.running = some .enqueueTimeout) :
      ObjectStep s action s' k o
        ((o.updateCompletion (o.completionWork.goto none)).updateTimeout .assoc
          (o.timeoutWork .assoc).enqueue)
  | destroy {c : AssociationContext} {d : Option AccessPoint} {pc next : CleanupPc}
      {o' : ContextObjects} (ha : action = .advanceCleanup) (hid : c.id = k)
      (hw : s.cleanupWork.running = some pc) (hd : Destroys c d pc next o o')
      (hr : s'.cleanupWork.running = some next) : ObjectStep s action s' k o o'

/-- A step that replaces the objects of one context leaves the other ones alone. -/
theorem ObjectStep.ofSetObjects {action : Action} {k j : Nat} {o o₁ o' : ContextObjects}
    (ho : s.objects k = some o) (hstep : ObjectStep s action s' k o o₁)
    (h : (s.setObjects k o₁).objects j = some o') :
    ∃ o, s.objects j = some o ∧ ObjectStep s action s' j o o' := by
  rcases objects_setObjects h with ⟨rfl, rfl⟩ | h
  · exact ⟨o, ho, hstep⟩
  · exact ⟨o', h, .same⟩

/-- The objects of a context after a step have been allocated by it, or come from those before. -/
theorem Effect.objects_cases {action : Action} (he : Effect s action s') {k : Nat}
    {o' : ContextObjects} (h : s'.objects k = some o') :
    (∃ c, c.id = k ∧ k = s.nextContext ∧ o' = .allocate c ∧
        s'.nextContext = s.nextContext + 1) ∨
      ∃ o, s.objects k = some o ∧ ObjectStep s action s' k o o' := by
  cases he with
  | @install _ _ _ c hc hp hs hid hg =>
    rcases objects_setObjects h with ⟨rfl, rfl⟩ | h
    · exact Or.inl ⟨c, rfl, hid, rfl, rfl⟩
    · exact Or.inr ⟨o', h, .same⟩
  | arm hc ho => exact Or.inr (ObjectStep.ofSetObjects ho .arm h)
  | process hc hr =>
    rcases objects_applySection hr h with h | ⟨c, o, hc, hc', hid, ho, rfl⟩
    · exact Or.inr ⟨o', h, .same⟩
    · exact Or.inr ⟨o, ho, .authenticated (by simpa using hc') hc hid⟩
  | expire ho hw => exact Or.inr (ObjectStep.ofSetObjects ho (.expire hw) h)
  | startTimeout ho hw => exact Or.inr (ObjectStep.ofSetObjects ho (.startTimeout hw) h)
  | timeout ho hw hr =>
    rcases objects_setObjects h with ⟨rfl, rfl⟩ | h
    · exact Or.inr ⟨_, ho, .timeout hw hr (by simp)⟩
    · rw [objects_applySection_timeout hr] at h
      exact Or.inr ⟨o', h, .same⟩
  | timeoutEnqueue ho hw => exact Or.inr (ObjectStep.ofSetObjects ho (.timeoutEnqueue hw rfl) h)
  | startCompletion ho hw => exact Or.inr (ObjectStep.ofSetObjects ho (.startCompletion rfl hw) h)
  | sendAssociationRequest ho hw =>
    exact Or.inr (ObjectStep.ofSetObjects ho (.sendAssociationRequest rfl hw) h)
  | enqueueTimeout ho hw => exact Or.inr (ObjectStep.ofSetObjects ho (.enqueueTimeout rfl hw) h)
  | cleanupDestroy hw ho hd =>
    exact Or.inr (ObjectStep.ofSetObjects ho (.destroy rfl rfl hw hd rfl) h)
  | _ => exact Or.inr ⟨o', h, .same⟩

/-- What a step does to the objects of a context that is there before and after it. -/
theorem Effect.objectStep {action : Action} (he : Effect s action s') {k : Nat}
    {o o' : ContextObjects} (hlt : k < s.nextContext) (ho : s.objects k = some o)
    (ho' : s'.objects k = some o') : ObjectStep s action s' k o o' := by
  rcases he.objects_cases ho' with ⟨c, -, hk, -⟩ | ⟨o₁, ho₁, hstep⟩
  · omega
  · rw [ho, Option.some.injEq] at ho₁
    exact ho₁ ▸ hstep

/-- The objects that are there after a step were there before, or are new. -/
theorem Effect.objectsAfter {action : Action} (he : Effect s action s') {k : Nat}
    {o' : ContextObjects} (h : s'.objects k = some o') : ObjectsAfter s action s' k o' := by
  rcases he.objects_cases h with ⟨c, hid, hk, ho, hn⟩ | ⟨o, ho, hstep⟩
  · exact .allocated hid hk ho hn
  · cases hstep with
    | same => exact .used ho (.refl _)
    | arm => exact .used ho (enqueue_sameLife _ _)
    | authenticated => exact .used ho (.updateCompletion (Work.enqueue_freed _))
    | expire hw => exact .used ho (expire_sameLife hw)
    | startTimeout hw => exact .used ho (start_sameLife hw)
    | timeout | timeoutEnqueue => exact .used ho (gotoTimeout_sameLife _ _ _)
    | startCompletion ha hw =>
      obtain ⟨-, -, hf, rfl⟩ := Work.start_eq_some hw
      exact .used ho (.updateCompletion hf.symm)
    | sendAssociationRequest => exact .used ho (gotoCompletion_sameLife _ _)
    | enqueueTimeout =>
      exact .used ho ((gotoCompletion_sameLife _ _).trans (enqueue_sameLife _ .assoc))
    | destroy ha hid hw hd hr => exact .freed ha hid ho hw hd hr

/-- The cleanup frees objects, but leaves the context as it is. -/
theorem Destroys.sameContext {c : AssociationContext} {d : Option AccessPoint}
    {pc next : CleanupPc} {o o' : ContextObjects} (h : Destroys c d pc next o o') :
    o'.context = o.context := by
  cases h <;> rfl

/-- The current context after a step is the one before, or has been installed by the step. -/
theorem Effect.context_cases {action : Action} (he : Effect s action s') {c : AssociationContext}
    (h : s'.association.associationContext = some c) :
    s.association.associationContext = some c ∨
      c.id = s.nextContext ∧ s'.objects c.id = some (.allocate c) ∧
        s'.association.state = .authenticating ∧ ∃ call ∈ s'.calls, call.attempt = some c := by
  cases he with
  | @install _ _ _ c' hc hp hs hid hg =>
    have heq : c' = c := Option.some.inj h
    subst heq
    have hlt := (List.getElem?_eq_some_iff.mp hc).1
    exact Or.inr ⟨hid, by simp, rfl, .associateSetChannel c',
      List.mem_of_getElem? (List.getElem?_set_self hlt), rfl⟩
  | process hc hr =>
    cases hr with
    | ended _ _ => cases h
    | _ => exact Or.inl h
  | timeout ho hw hr =>
    cases hr with
    | ended _ _ => cases h
    | _ => exact Or.inl h
  | _ => exact Or.inl h

/-- A context that waits for its cleanup after a step did so before, or was the current one. -/
theorem Effect.cleanupContext_cases {action : Action} (he : Effect s action s')
    {c : AssociationContext} (h : s'.association.associationCleanupContext = some c) :
    s.association.associationCleanupContext = some c ∨
      s.association.associationContext = some c := by
  cases he with
  | process hc hr =>
    cases hr with
    | ended hcx _ => exact Or.inr (hcx.trans h)
    | _ => exact Or.inl h
  | timeout ho hw hr =>
    cases hr with
    | ended hcx _ => exact Or.inr (hcx.trans h)
    | _ => exact Or.inl h
  | cleanupSecond hw => cases h
  | _ => exact Or.inl h

/-- Once allocated, the objects of a context stay. -/
theorem Effect.objects_persist {action : Action} (he : Effect s action s') {k : Nat}
    {o : ContextObjects} (hk : k < s.nextContext) (h : s.objects k = some o) :
    ∃ o', s'.objects k = some o' ∧ o'.context = o.context := by
  have hsome : ∃ o', s'.objects k = some o' := by
    have hset : ∀ {j : Nat} {o₁ : ContextObjects} {s₁ : System}, s₁.objects = s.objects →
        ∃ o', (s₁.setObjects j o₁).objects k = some o' := by
      intro j o₁ s₁ hs₁
      rw [System.setObjects_objects, Function.update_apply, hs₁]
      split
      · exact ⟨_, rfl⟩
      · exact ⟨o, h⟩
    cases he with
    | install => exact hset rfl
    | arm => exact hset rfl
    | expire => exact hset rfl
    | startTimeout => exact hset rfl
    | timeout ho hw hr => exact hset (objects_applySection_timeout hr)
    | timeoutEnqueue => exact hset rfl
    | startCompletion => exact hset rfl
    | sendAssociationRequest => exact hset rfl
    | enqueueTimeout => exact hset rfl
    | cleanupDestroy => exact hset rfl
    | process hc hr =>
      cases hr with
      | @authenticated c hcx hs ha =>
        show ∃ o', Function.update s.objects c.id
          ((s.objects c.id).map fun o => o.updateCompletion o.completionWork.enqueue) k = some o'
        rw [Function.update_apply]
        split
        · next hkc =>
          rw [← hkc, h]
          exact ⟨_, rfl⟩
        · exact ⟨o, h⟩
      | _ => exact ⟨o, h⟩
    | _ => exact ⟨o, h⟩
  obtain ⟨o', ho'⟩ := hsome
  refine ⟨o', ho', ?_⟩
  cases he.objectsAfter ho' with
  | allocated hid hk' ho hn => omega
  | used ho hl =>
    rw [h, Option.some.injEq] at ho
    rw [hl.context, ho]
  | freed hact hid ho hw hd hr =>
    rw [h, Option.some.injEq] at ho
    rw [hd.sameContext, ho]

/-- The number of contexts never falls. -/
theorem Effect.nextContext_le {action : Action} (he : Effect s action s') :
    s.nextContext ≤ s'.nextContext := by
  cases he with
  | install => exact Nat.le_succ _
  | process => simp
  | timeout => simp
  | _ => exact Nat.le_refl _

/-- A context that is current or waits for its cleanup goes on doing so until the cleanup has
ended. -/
theorem Effect.live (hc : s.association.Consistent) (hi : CleanupInvariant s) {action : Action}
    (he : Effect s action s') {c : AssociationContext} (h : s.association.Live c) :
    s'.association.Live c ∨ s.cleanupWork.running = some (.second c) ∧
      s'.association.associationWaiters = [] := by
  -- an attempt that ends leaves its context to the cleanup
  have hended : ∀ {c' : AssociationContext} {result : Status},
      s.association.associationContext = some c' →
      (s.association.endAttempt c' result).Live c := by
    intro c' result hcx
    refine Or.inr ?_
    rcases h with h | h
    · rw [hcx] at h
      exact h
    · rw [hc.cleanupContext_of_context hcx] at h
      cases h
  cases he with
  | install hcall hp hs hid hg =>
    rcases h with h | h
    · exact absurd h (hc.not_context (by rw [hs]; rfl))
    · rw [hc.pending_iff.mpr (by rw [h]; rfl)] at hp
      cases hp
  | process hcall hr =>
    cases hr with
    | ended hcx _ => exact Or.inl (hended hcx)
    | _ => exact Or.inl h
  | timeout ho hw hr =>
    cases hr with
    | ended hcx _ => exact Or.inl (hended hcx)
    | _ => exact Or.inl h
  | cleanupSecond hw =>
    rcases h with h | h
    · exact Or.inl (Or.inl h)
    · have hcc := hi.context _ _ hw rfl
      rw [h, Option.some.injEq] at hcc
      rw [hcc]
      exact Or.inr ⟨hw, rfl⟩
  | _ => exact Or.inl h

/-! ## Calls -/

/-- A signal changes the waiter only. -/
theorem mem_signal {result : Status} {calls : List Call} {w : Nat} {c : Call}
    (h : c ∈ System.signal result calls w) : c ∈ calls ∨ ∃ n r, c = .waiting n r := by
  unfold System.signal at h
  split at h
  · rcases List.mem_or_eq_of_mem_set h with h | h
    · exact Or.inl h
    · exact Or.inr ⟨_, _, h⟩
  · exact Or.inl h

/-- Waking the waiters changes no other call. -/
theorem mem_wake {result : Status} {c : Call} {waiters : List Nat} {calls : List Call}
    (h : c ∈ System.wakeAssociationWaiters calls waiters result) :
    c ∈ calls ∨ ∃ n r, c = .waiting n r := by
  induction waiters generalizing calls with
  | nil => exact Or.inl h
  | cons w ws ih =>
    have h' : c ∈ System.wakeAssociationWaiters (System.signal result calls w) ws result := h
    rcases ih h' with h | h
    · exact mem_signal h
    · exact Or.inr h

/-- A call that has just begun belongs to no attempt. -/
theorem Entry.start_attempt (entry : Entry) : entry.start.attempt = none := by
  cases entry <;> rfl

/-- A call that goes on with a context after a step did so before, or has just installed it. -/
theorem Effect.attempt_cases {action : Action} (he : Effect s action s') {call : Call}
    {c : AssociationContext} (h : call ∈ s'.calls) (hc : call.attempt = some c) :
    (∃ call ∈ s.calls, call.attempt = some c) ∨
      s'.association.associationContext = some c ∧ s'.objects c.id = some (.allocate c) ∧
        c.id = s.nextContext := by
  -- a call that steps to a position without a context is not the one looked at
  have hset : ∀ {i : Nat} {c' : Call} {calls : List Call}, call ∈ calls.set i c' →
      c'.attempt = none → call ∈ calls := by
    intro i c' calls hm hn
    rcases List.mem_or_eq_of_mem_set hm with hm | rfl
    · exact hm
    · rw [hn] at hc
      cases hc
  cases he with
  | @invoke entry =>
    rcases List.mem_append.mp h with h | h
    · exact Or.inl ⟨call, h, hc⟩
    · rw [List.mem_singleton] at h
      rw [h, entry.start_attempt] at hc
      cases hc
  | quiet hcall hq =>
    rcases List.mem_or_eq_of_mem_set h with h | rfl
    · exact Or.inl ⟨call, h, hc⟩
    · exact Or.inl ⟨_, List.mem_of_getElem? hcall, by rw [← hq.attempt, hc]⟩
  | install hcall hp hs hid hg =>
    rcases List.mem_or_eq_of_mem_set h with h | rfl
    · exact Or.inl ⟨call, h, hc⟩
    · cases hc
      exact Or.inr ⟨rfl, by simp, hid⟩
  | @receive _ _ frame plan hcall hp =>
    exact Or.inl ⟨call, hset h (by cases plan <;> rfl), hc⟩
  | filter hcall hn =>
    refine Or.inl ⟨call, hset h ?_, hc⟩
    rcases hn with rfl | ⟨m, -, rfl, -⟩ <;> rfl
  | process hcall hr =>
    rw [System.setCall_calls, applySection_calls] at h
    exact Or.inl ⟨call, hset h (by split <;> rfl), hc⟩
  | timeout ho hw hr =>
    rw [System.setObjects_calls, applySection_calls] at h
    exact Or.inl ⟨call, h, hc⟩
  | cleanupSecond hw =>
    rcases mem_wake h with h | ⟨n, r, rfl⟩
    · exact Or.inl ⟨call, h, hc⟩
    · cases hc
  | takeDisconnected | releaseTaken | arm | deauthenticateFirst | deauthenticateSecond
  | deauthenticateRelease | answer | wait | woken | enqueueCleanup =>
    exact Or.inl ⟨call, hset h rfl, hc⟩
  | _ => exact Or.inl ⟨call, h, hc⟩

/-! ## The cleanup -/

/-- The position of the cleanup after a step: where it was, where nothing needs to be freed yet,
further on without freeing anything, or past a line that frees something. -/
inductive RunningAfter (s s' : System) (pc' : CleanupPc) : Prop
  | same (hw : s.cleanupWork.running = some pc')
  | fresh (hf : ∀ o, pc'.Freed o)
  | moved {pc : CleanupPc} (hw : s.cleanupWork.running = some pc)
      (hctx : pc'.context = pc.context) (hf : ∀ o, pc.Freed o → pc'.Freed o)
      (ho : s'.objects = s.objects)
  | freed {c : AssociationContext} {d : Option AccessPoint} {pc : CleanupPc}
      {o o' : ContextObjects} (hw : s.cleanupWork.running = some pc)
      (hd : Destroys c d pc pc' o o') (ho : s.objects c.id = some o)
      (ho' : s'.objects c.id = some o')

/-- Where the cleanup stands after a step. -/
theorem Effect.runningAfter {action : Action} (he : Effect s action s') {pc' : CleanupPc}
    (h : s'.cleanupWork.running = some pc') : RunningAfter s s' pc' := by
  cases he with
  | process hc hr => exact .same (by simpa using h)
  | timeout ho hw hr => exact .same (by simpa using h)
  | enqueueCleanup hc => exact .same (by simpa using h)
  | timeoutEnqueue ho hw => exact .same (by simpa using h)
  | startCleanup hw =>
    obtain ⟨-, -, -, rfl⟩ := Work.start_eq_some hw
    cases h
    exact .fresh fun _ => trivial
  | cleanupFirst hw =>
    cases h
    cases s.association.associationCleanupContext <;> exact .fresh fun _ => trivial
  | cleanupRelease hw => cases h; exact .fresh fun _ => trivial
  | cleanupDestroy hw ho hd => cases h; exact .freed hw hd ho (by simp)
  | @cleanupReleaseDisconnected context disconnected hw =>
    cases context with
    | none => cases h
    | some c => cases h; exact .moved hw rfl (fun _ hf => hf) rfl
  | cleanupSecond hw => cases h
  | _ => exact .same h

/-- Each line of the cleanup frees what the next position expects to be freed. -/
theorem Destroys.freedAt {c : AssociationContext} {d : Option AccessPoint} {pc next : CleanupPc}
    {o o' : ContextObjects} (h : Destroys c d pc next o o') (hf : pc.Freed o) : next.Freed o' := by
  cases h with
  | authTimer => simp [CleanupPc.Freed, DelayedWork.freeTimer]
  | assocTimer => simpa [CleanupPc.Freed] using hf
  | completionWork hr => exact ⟨hf, rfl⟩
  | authTimeoutWork hw =>
    obtain ⟨-, rfl⟩ := DelayedWork.freeWork_eq_some hw
    simpa [CleanupPc.Freed] using hf
  | assocTimeoutWork hw => simpa [CleanupPc.Freed] using hf
  | context => exact hf

/-! ## The invariant -/

/-- What holds of the contexts and their objects in every reachable state. -/
structure ContextInvariant (s : System) : Prop where
  id : ∀ k o, s.objects k = some o → o.context.id = k ∧ k < s.nextContext
  current : ∀ c, s.association.associationContext = some c →
    ∃ o, s.objects c.id = some o ∧ o.context = c ∧ ¬ o.Destroyed
  cleanup : ∀ c, s.association.associationCleanupContext = some c →
    ∃ o, s.objects c.id = some o ∧ o.context = c
  call : ∀ call ∈ s.calls, ∀ c, call.attempt = some c →
    ∃ o, s.objects c.id = some o ∧ o.context = c
  stage : ∀ pc c o, s.cleanupWork.running = some pc → pc.context = some c →
    s.objects c.id = some o → pc.Freed o
  completion : ∀ k o, s.objects k = some o → CompletionOk s.association o

namespace ContextInvariant

/-- It holds when the device has been registered. -/
theorem registered : ContextInvariant (.registered ownAddress) where
  id := fun _ _ h => by cases h
  current := fun _ h => by cases h
  cleanup := fun _ h => by cases h
  call := fun _ h => by cases h
  stage := fun _ _ _ h => by cases h
  completion := fun _ _ h => by cases h

variable {action : Action}

/-- The objects of a context are found under its number. -/
theorem id_step (h : ContextInvariant s) (he : Effect s action s') (k : Nat) (o' : ContextObjects)
    (ho' : s'.objects k = some o') : o'.context.id = k ∧ k < s'.nextContext := by
  have hle := he.nextContext_le
  cases he.objectsAfter ho' with
  | allocated hid hk ho hn =>
    subst ho
    exact ⟨hid, by omega⟩
  | used ho hl =>
    obtain ⟨hid, hlt⟩ := h.id k _ ho
    exact ⟨by rw [hl.context, hid], by omega⟩
  | freed hact hid ho hw hd hr =>
    obtain ⟨hid, hlt⟩ := h.id k _ ho
    exact ⟨by rw [hd.sameContext, hid], by omega⟩

/-- The current context is freshly allocated, or it was current before and the cleanup works on
another one. -/
theorem current_step (h : ContextInvariant s) (hc : s.association.Consistent)
    (hi : CleanupInvariant s) (he : Effect s action s') (c : AssociationContext)
    (hcx : s'.association.associationContext = some c) :
    ∃ o, s'.objects c.id = some o ∧ o.context = c ∧ ¬ o.Destroyed := by
  rcases he.context_cases hcx with hold | ⟨-, ho, -⟩
  · obtain ⟨o, ho, hoc, hdes⟩ := h.current c hold
    have hlt := (h.id _ _ ho).2
    obtain ⟨o', ho', hoc'⟩ := he.objects_persist hlt ho
    refine ⟨o', ho', hoc'.trans hoc, ?_⟩
    cases he.objectsAfter ho' with
    | allocated hid hk ho₁ hn => omega
    | used ho₁ hl =>
      rw [ho, Option.some.injEq] at ho₁
      rw [hl.destroyed_iff, ← ho₁]
      exact hdes
    | freed hact hid ho₁ hw hd hr =>
      -- the cleanup works on a context that is no longer current
      have hcc := hi.context _ _ hw hd.context_eq.1
      rw [hc.cleanupContext_of_context hold] at hcc
      cases hcc
  · exact ⟨_, ho, rfl, not_destroyed_allocate c⟩

/-- The context that the cleanup is to free has its objects. -/
theorem cleanup_step (h : ContextInvariant s) (he : Effect s action s') (c : AssociationContext)
    (hcc : s'.association.associationCleanupContext = some c) :
    ∃ o, s'.objects c.id = some o ∧ o.context = c := by
  have hold : ∃ o, s.objects c.id = some o ∧ o.context = c := by
    rcases he.cleanupContext_cases hcc with hold | hold
    · exact h.cleanup c hold
    · obtain ⟨o, ho, hoc, -⟩ := h.current c hold
      exact ⟨o, ho, hoc⟩
  obtain ⟨o, ho, hoc⟩ := hold
  obtain ⟨o', ho', hoc'⟩ := he.objects_persist (h.id _ _ ho).2 ho
  exact ⟨o', ho', hoc'.trans hoc⟩

/-- The context that a call has in hand has its objects. -/
theorem call_step (h : ContextInvariant s) (he : Effect s action s') (call : Call)
    (hm : call ∈ s'.calls) (c : AssociationContext) (hcx : call.attempt = some c) :
    ∃ o, s'.objects c.id = some o ∧ o.context = c := by
  rcases he.attempt_cases hm hcx with ⟨call', hm', hcx'⟩ | ⟨-, ho, -⟩
  · obtain ⟨o, ho, hoc⟩ := h.call call' hm' c hcx'
    obtain ⟨o', ho', hoc'⟩ := he.objects_persist (h.id _ _ ho).2 ho
    exact ⟨o', ho', hoc'.trans hoc⟩
  · exact ⟨_, ho, rfl⟩

/-- The cleanup has freed what stands before its position. -/
theorem stage_step (h : ContextInvariant s) (hi : CleanupInvariant s) (he : Effect s action s')
    (pc' : CleanupPc) (c : AssociationContext) (o' : ContextObjects)
    (hr : s'.cleanupWork.running = some pc') (hpc : pc'.context = some c)
    (ho' : s'.objects c.id = some o') : pc'.Freed o' := by
  cases he.runningAfter hr with
  | same hw =>
    cases he.objectsAfter ho' with
    | allocated hid hk ho hn =>
      obtain ⟨o, ho, -⟩ := h.cleanup c (hi.context pc' c hw hpc)
      have hlt := (h.id _ _ ho).2
      omega
    | used ho hl => exact (hl.freedAt_iff pc').mpr (h.stage pc' c _ hw hpc ho)
    | freed hact hid ho hw₁ hd hr₁ =>
      rw [hw, Option.some.injEq] at hw₁
      rw [hr, Option.some.injEq] at hr₁
      subst hw₁
      subst hr₁
      cases hd
  | fresh hf => exact hf o'
  | moved hw hctx hf hobj =>
    rw [hobj] at ho'
    exact hf o' (h.stage _ c o' hw (hctx ▸ hpc) ho')
  | freed hw hd ho ho₁ =>
    have hc := hd.context_eq.2
    rw [hpc, Option.some.injEq] at hc
    subst hc
    rw [ho', Option.some.injEq] at ho₁
    subst ho₁
    exact hd.freedAt (h.stage _ _ _ hw hd.context_eq.1 ho)

/-- The objects before a step, seen with the guarded fields after it: a context stops waiting for
its cleanup only when its completion work has been freed. -/
theorem completion_fields (h : ContextInvariant s) (hc : s.association.Consistent)
    (hi : CleanupInvariant s) (he : Effect s action s') (k : Nat) (o : ContextObjects)
    (ho : s.objects k = some o) : CompletionOk s'.association o := by
  have hok := h.completion k o ho
  refine ⟨hok.request, ?_, hok.freed, hok.context⟩
  intro hrun
  rcases he.live hc hi (hok.attempt hrun) with hlive | ⟨hw, -⟩
  · exact hlive
  · exfalso
    -- the second section comes after the completion work has been freed
    have hid := (h.id k o ho).1
    have hfreed := (h.stage _ _ o hw rfl (by rw [hid]; exact ho)).2
    rw [hok.not_freed hrun] at hfreed
    cases hfreed

/-- A completion work that is to run belongs to an attempt, also after the step. -/
theorem completion_step (h : ContextInvariant s) (hc : s.association.Consistent)
    (hi : CleanupInvariant s) (he : Effect s action s') (k : Nat) (o' : ContextObjects)
    (ho' : s'.objects k = some o') : CompletionOk s'.association o' := by
  rcases he.objects_cases ho' with ⟨c, -, -, rfl, -⟩ | ⟨o, ho, hstep⟩
  · exact .allocate c
  have hok := h.completion_fields hc hi he k o ho
  cases hstep with
  | same => exact hok
  | @authenticated c hcx hold hid =>
    obtain ⟨o₁, ho₁, hoc, hdes⟩ := h.current c hold
    rw [hid, ho, Option.some.injEq] at ho₁
    subst ho₁
    have hf : o.completionWork.freed = false := by
      rw [← Bool.not_eq_true]
      exact fun hf => hdes (Or.inr (Or.inr (Or.inl hf)))
    exact hok.enqueue (by rw [hcx, hoc]) hf
  | startCompletion ha hw =>
    obtain ⟨hq, -, hf, rfl⟩ := Work.start_eq_some hw
    exact hok.updateCompletion (hok.attempt (Or.inl hq)) hf (Or.inl rfl) rfl
  | sendAssociationRequest ha hw => exact hok.goto (by rw [hw]; exact Option.some_ne_none _) _
  | enqueueTimeout ha hw =>
    exact (hok.goto (by rw [hw]; exact Option.some_ne_none _) none).updateTimeout
  | @destroy c d pc next _ ha hid hw hd hr =>
    have hst := h.stage pc c o hw hd.context_eq.1 (hid ▸ ho)
    cases hd with
    | completionWork hr => exact .free _ _
    | context => exact ⟨hok.request, hok.attempt, hok.freed, fun _ => hst.2⟩
    | _ => exact hok.updateTimeout
  | _ => exact hok.updateTimeout

/-- Every step keeps the invariant. -/
theorem effect (h : ContextInvariant s) (hc : s.association.Consistent) (hi : CleanupInvariant s)
    (he : Effect s action s') : ContextInvariant s' where
  id := h.id_step he
  current := h.current_step hc hi he
  cleanup := h.cleanup_step he
  call := h.call_step he
  stage := h.stage_step hi he
  completion := h.completion_step hc hi he

end ContextInvariant

/-- It holds in every reachable state. -/
theorem Reachable.contexts (h : Reachable ownAddress s) : ContextInvariant s := by
  refine Lts.Reachable.invariant (P := ContextInvariant) .registered ?_ h
  intro s action s' hr ih hs
  have hreach : Reachable ownAddress s := hr
  exact ih.effect hreach.consistent hreach.cleanup (hreach.effect hs)

end U80211
