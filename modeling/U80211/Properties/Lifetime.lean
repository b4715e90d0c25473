import U80211.Properties.Contexts

/-!
# Uses of a context and of its access point

`u80211_associate` and `auth_completion_work` go on with a context after the lock is released,
while the cleanup work may already destroy it and a frame may already reset `device->ap`.

* `inUse_iff`: no context is destroyed under a call to `u80211_associate` exactly in the runs in
  which the cleanup never begins to destroy a context that such a call still uses
* `associate_arms_live_context`: in those runs the call finds the context it arms the timeout of
* `completion_iff`: `auth_completion_work` keeps what it needs exactly in the runs in which it does
  not start too late, nothing resets `device->ap` before it has sent its request, and the cleanup
  does not free the timer while it runs
* `completion_finds_what_it_needs`: in those runs the work finds what it needs
-/

namespace U80211

open WorkQueue

variable {s s' : System} {ownAddress : MacAddress}

/-! ## The tail of `u80211_associate` -/

/-- The step makes the cleanup begin to destroy a context that a call to `u80211_associate` goes
on to use. -/
def DestroysInUse (s : System) (action : Action) : Prop :=
  action = .advanceCleanup ∧ ∃ c d, s.cleanupWork.running = some (.freeAuthTimer c d) ∧
    ∃ call ∈ s.calls, call.attempt = some c

/-- No context that a call to `u80211_associate` goes on to use has been destroyed. -/
def InUseIntact (s : System) : Prop :=
  ∀ call ∈ s.calls, ∀ c ∈ call.attempt, ∀ o ∈ s.objects c.id, ¬ o.Destroyed

instance : Decidable (InUseIntact s) := inferInstanceAs (Decidable (∀ call ∈ s.calls, _))

theorem Destroys.destroyed {c : AssociationContext} {d : Option AccessPoint} {pc next : CleanupPc}
    {o o' : ContextObjects} (h : Destroys c d pc next o o') (hf : pc.Freed o) :
    pc = .freeAuthTimer c d ∨ o.Destroyed := by
  cases h with
  | authTimer => exact Or.inl rfl
  | assocTimer => exact Or.inr (Or.inl hf)
  | completionWork _ => exact Or.inr (Or.inl hf)
  | authTimeoutWork _ => exact Or.inr (Or.inl hf.1)
  | assocTimeoutWork _ => exact Or.inr (Or.inl hf.1)
  | context => exact Or.inr (Or.inl hf.1)

/-- One step destroys a context in use exactly when it begins to. -/
theorem inUseIntact_step (hr : Reachable ownAddress s) {action : Action} (hp : InUseIntact s)
    (hs : step action s = some s') : InUseIntact s' ↔ ¬ DestroysInUse s action := by
  have he := hr.effect hs
  have hinv := hr.contexts
  constructor
  · rintro hp' ⟨rfl, c, d, hw, call, hm, hc⟩
    obtain ⟨o, ho, -⟩ := hinv.call call hm c hc
    have hs' : step .advanceCleanup s = some
        ({ s with cleanupWork := s.cleanupWork.goto (some (.freeAssocTimer c d)) }.setObjects c.id
          (o.updateTimeout .auth (o.timeoutWork .auth).freeTimer)) := by
      simp [step, hw, stepCleanup, stepDestroy, stepObjects, ho, ContextObjects.freeTimer]
    rw [hs, Option.some.injEq] at hs'
    subst hs'
    refine hp' call hm c hc _ (objects_setObjects_self _ _ _) (Or.inl ?_)
    simp [DelayedWork.freeTimer]
  · intro hn call hm c hc o' ho' hdes
    rcases he.attempt_cases hm hc with ⟨call', hm', hc'⟩ | ⟨-, ho, -⟩
    · obtain ⟨o, ho, hoc⟩ := hinv.call call' hm' c hc'
      cases he.objectsAfter ho' with
      | allocated hid hk ho₁ hnext =>
        have hlt := (hinv.id _ _ ho).2
        omega
      | used ho₁ hl => exact hp call' hm' c hc' _ ho₁ (hl.destroyed_iff.mp hdes)
      | @freed o₁ c₁ d pc next hact hid ho₁ hw hd hrun =>
        rw [ho, Option.some.injEq] at ho₁
        subst ho₁
        have hcc := hr.cleanup.context pc c₁ hw hd.context_eq.1
        obtain ⟨o₂, ho₂, hoc₂⟩ := hinv.cleanup c₁ hcc
        rw [hid, ho, Option.some.injEq] at ho₂
        have heq : c₁ = c := by rw [← hoc₂, ← ho₂, hoc]
        subst heq
        rcases hd.destroyed (hinv.stage pc c₁ o hw hd.context_eq.1 ho) with rfl | hdo
        · exact hn ⟨hact, c₁, d, hw, call', hm', hc'⟩
        · exact hp call' hm' c₁ hc' o ho hdo
    · rw [ho', Option.some.injEq] at ho
      subst ho
      exact not_destroyed_allocate c hdes

theorem inUse_iff {τ : List Transition} (h : Run ownAddress τ s) :
    (∀ t ∈ τ, InUseIntact t.after) ↔ ∀ t ∈ τ, ¬ DestroysInUse t.before t.action := by
  refine h.forall_after_iff (P := InUseIntact) ?_ ?_
  · intro call hm
    cases hm
  · intro s action s' hr hp hs
    exact inUseIntact_step hr hp hs

/-- **The call that arms the authentication timeout finds its context intact**, in a run in which
the cleanup never begins to destroy a context that such a call still uses. -/
theorem associate_arms_live_context {τ : List Transition}
    (h : Run ownAddress τ s) (hτ : ∀ t ∈ τ, ¬ DestroysInUse t.before t.action) {i : Nat}
    {c : AssociationContext} (hc : s.calls[i]? = some (.associateArm c)) :
    ∃ o, s.objects c.id = some o ∧ o.context = c ∧ ¬ o.Destroyed := by
  have hm := List.mem_of_getElem? hc
  obtain ⟨o, ho, hoc⟩ := (Reachable.contexts h.reachable).call _ hm c rfl
  refine ⟨o, ho, hoc, ?_⟩
  rcases h.after_or_init with hinit | ⟨t, ht, hs⟩
  · rw [hinit] at hm
    cases hm
  · have hp := (inUse_iff h).mpr hτ t ht
    rw [← hs] at hp
    exact hp _ hm c rfl o ho

open Scenario in
theorem associate_arms_live_context_accepted :
    ∃ s c o, Scenario.run (join 0 2 ++ accept 1 2 0 ++ cleanup ++ receive 3 (deauthentication 2) ++
        .invoke (.associate (accessPoint 3) []) :: advance 4 6) = some s ∧
      s.calls[4]? = some (.associateArm c) ∧ s.objects c.id = some o ∧ ¬ o.Destroyed := by
  have hrun : (run (join 0 2 ++ accept 1 2 0 ++ cleanup ++ receive 3 (deauthentication 2) ++
      .invoke (.associate (accessPoint 3) []) :: advance 4 6)).map (fun s => s.calls[4]?) =
      some (some (.associateArm
        { id := 1, generation := 2, ap := accessPoint 3, informationElements := [] })) := by
    decide
  obtain ⟨s, hs, hc⟩ := exists_of_run hrun
  obtain ⟨o, ho, -, hdes⟩ := associate_arms_live_context (run_trace hs)
    ((inUse_iff (run_trace hs)).mp (by decide)) hc
  exact ⟨s, _, o, hs, hc, ho, hdes⟩

/-- The access point refuses the attempt before the call has armed the timeout. -/
def Scenario.earlyDeauthentication : List Action :=
  .invoke (.associate (accessPoint 2) []) :: advance 0 5 ++ receive 1 (deauthentication 2) ++
    cleanup ++ advance 0 1

open Scenario in
/-- **A destroyed context is used**: the call is about to arm the timeout of a context that the
cleanup has freed. -/
theorem associate_arms_destroyed_context :
    ∃ s c o, Scenario.run earlyDeauthentication = some s ∧ Reachable device s ∧
      s.calls[0]? = some (.associateArm c) ∧ s.objects c.id = some o ∧ o.context = c ∧
      o.Destroyed ∧ o.freed = true := by
  have hrun : (run earlyDeauthentication).map (fun s => (s.calls[0]?, (s.objects 0).map
      fun o => (o.context, o.freed))) = some (some (.associateArm
        { id := 0, generation := 0, ap := accessPoint 2, informationElements := [] }), some
        ({ id := 0, generation := 0, ap := accessPoint 2, informationElements := [] }, true)) := by
    decide
  obtain ⟨s, hs, he⟩ := exists_of_run hrun
  rw [Prod.mk.injEq] at he
  obtain ⟨o, ho, hoe⟩ := Option.map_eq_some_iff.mp he.2
  rw [Prod.mk.injEq] at hoe
  exact ⟨s, _, o, hs, reachable_of_run hs, he.1, ho, hoe.1,
    by simp [ContextObjects.Destroyed, hoe.2], hoe.2⟩

/-! ## `auth_completion_work` -/

/-- The step resets `device->ap`. -/
inductive ClearsAp (s : System) : Action → Prop
  | ended {i : Nat} {o : Outcome} {frame : Frame} {message : Message} {c : AssociationContext}
      {result : Status} (hc : s.calls[i]? = some (.process frame message))
      (hcx : s.association.associationContext = some c)
      (h : EndsAttempt s.association.state c (.message message) result)
      (hr : result ≠ .success) : ClearsAp s (.advance i o)
  | disconnected {i : Nat} {o : Outcome} {frame : Frame} {message : Message} {ap : AccessPoint}
      (hc : s.calls[i]? = some (.process frame message)) (ha : s.association.ap = some ap)
      (hs : s.association.state = .associated) (h : Disconnects ap (.message message)) :
      ClearsAp s (.advance i o)
  | expired {k : Nat} {kind : TimeoutKind} {ob : ContextObjects} (ho : s.objects k = some ob)
      (hw : (ob.timeoutWork kind).work.running = some .critical)
      (hcx : s.association.associationContext = some ob.context)
      (hs : s.association.state = kind.expectedState) : ClearsAp s (.advanceTimeout k kind)
  | left {i : Nat} {o : Outcome} {status : Status}
      (hc : s.calls[i]? = some (.deauthenticateSecond status))
      (hs : s.association.state = .deauthenticating) : ClearsAp s (.advance i o)

/-- The step takes from an `auth_completion_work` what it needs: the work starts without an access
point or after its timer has been freed, `device->ap` is reset before the work has read it, or the
cleanup frees the timer while the work runs. -/
inductive Disturbs (s : System) : Action → Prop
  | startsLate {k : Nat} {o : ContextObjects} (ho : s.objects k = some o)
      (h : s.association.ap = none ∨ (o.timeoutWork .assoc).timerFreed = true) :
      Disturbs s (.startCompletion k)
  | clearsAp {action : Action} {k : Nat} {o : ContextObjects} (ho : s.objects k = some o)
      (hr : o.completionWork.running = some .sendAssociationRequest) (h : ClearsAp s action) :
      Disturbs s action
  | freesTimer {c : AssociationContext} {d : Option AccessPoint} {o : ContextObjects}
      (hw : s.cleanupWork.running = some (.freeAssocTimer c d)) (ho : s.objects c.id = some o)
      (hr : o.completionWork.running ≠ none) : Disturbs s .advanceCleanup

/-- A running `auth_completion_work` has the timer that it arms and, until it has sent its request,
the access point that it reads. -/
def ContextObjects.Ready (o : ContextObjects) (a : Association) : Prop :=
  o.completionWork.running ≠ none →
    (o.timeoutWork .assoc).timerFreed = false ∧
      (o.completionWork.running = some .sendAssociationRequest → a.ap = some o.context.ap)

instance (o : ContextObjects) (a : Association) : Decidable (o.Ready a) :=
  inferInstanceAs (Decidable (_ → _ ∧ (_ → _)))

def CompletionReady (s : System) : Prop :=
  ∀ k o, s.objects k = some o → o.Ready s.association

/-- Where `auth_completion_work` stands after a step. -/
theorem Effect.completionRunning {action : Action} (he : Effect s action s') {k : Nat}
    {o' : ContextObjects} (ho' : s'.objects k = some o') {pc : CompletionPc}
    (hr : o'.completionWork.running = some pc) :
    ∃ o, s.objects k = some o ∧ o'.context = o.context ∧
      (o.completionWork.running = some pc ∨
        (pc = .sendAssociationRequest ∧ action = .startCompletion k ∧
          o.completionWork.request = .queued) ∨
        (pc = .enqueueTimeout ∧ o.completionWork.running = some .sendAssociationRequest)) := by
  rcases he.objects_cases ho' with ⟨c, -, -, rfl, -⟩ | ⟨o, ho, hstep⟩
  · cases hr
  refine ⟨o, ho, ?_⟩
  cases hstep with
  | authenticated => exact ⟨rfl, Or.inl (by simpa using hr)⟩
  | startCompletion ha hw =>
    obtain ⟨hq, -, -, rfl⟩ := Work.start_eq_some hw
    cases hr
    exact ⟨rfl, Or.inr (Or.inl ⟨rfl, ha, hq⟩)⟩
  | sendAssociationRequest ha hw =>
    cases hr
    exact ⟨rfl, Or.inr (Or.inr ⟨rfl, hw⟩)⟩
  | enqueueTimeout ha hw => cases hr
  | destroy ha hid hw hd hr₁ =>
    refine ⟨hd.sameContext, Or.inl ?_⟩
    cases hd with
    | completionWork _ => cases hr
    | _ => exact hr
  | _ => exact ⟨rfl, Or.inl hr⟩

/-- A step keeps `device->ap`, resets it, or sets it in a device that was down. -/
theorem Effect.ap_cases (hc : s.association.Consistent) {action : Action}
    (he : Effect s action s') :
    s'.association.ap = s.association.ap ∨ ClearsAp s action ∨ s.association.state = .down := by
  cases he with
  | install hcall hp hs hid hg => exact Or.inr (Or.inr hs)
  | deauthenticateSecond hcall hs ha => exact Or.inr (Or.inl (.left hcall hs))
  | process hcall hr =>
    cases hr with
    | unchanged _ => exact Or.inl rfl
    | authenticated _ _ _ => exact Or.inl rfl
    | @ended c result hcx hend =>
      by_cases hres : result = .success
      · refine Or.inl ?_
        simp [SectionResult.ended, hres, hc.context_ap c hcx]
      · exact Or.inr (Or.inl (.ended hcall hcx hend hres))
    | disconnected hs ha hd => exact Or.inr (Or.inl (.disconnected hcall ha hs hd))
  | timeout ho hw hr =>
    cases hr with
    | unchanged _ => exact Or.inl rfl
    | authenticated _ _ h => cases h
    | disconnected _ _ h => cases h
    | ended hcx hend =>
      cases hend with
      | expired hs => exact Or.inr (Or.inl (.expired ho hw hcx hs))
  | _ => exact Or.inl rfl

/-- A step that disturbs no completion work leaves every running one what it needs. -/
theorem completionReady_of_not_disturbs (hr : Reachable ownAddress s) {action : Action}
    (hp : CompletionReady s) (hs : step action s = some s') (hn : ¬ Disturbs s action) :
    CompletionReady s' := by
  have he := hr.effect hs
  intro k o' ho' hrun'
  obtain ⟨pc, hpc⟩ := Option.ne_none_iff_exists'.mp hrun'
  obtain ⟨o, ho, hctx, hcases⟩ := he.completionRunning ho' hpc
  -- what the work finds before the step, also when the step starts it
  have hbefore : (o.timeoutWork .assoc).timerFreed = false ∧
      (pc = .sendAssociationRequest → s.association.ap = some o.context.ap) := by
    rcases hcases with hsame | ⟨rfl, rfl, hq⟩ | ⟨rfl, hsend⟩
    · obtain ⟨ht, ha⟩ := hp k o ho (by rw [hsame]; exact Option.some_ne_none _)
      exact ⟨ht, fun heq => ha (by rw [hsame, heq])⟩
    · have hlate : ¬ (s.association.ap = none ∨ (o.timeoutWork .assoc).timerFreed = true) :=
        fun h => hn (.startsLate ho h)
      rw [not_or, Bool.not_eq_true] at hlate
      refine ⟨hlate.2, ?_⟩
      intro _
      rcases ((hr.contexts.completion k o ho).attempt (Or.inl hq)) with hcx | hcc
      · exact hr.consistent.context_ap _ hcx
      · rcases hr.cleanup.ap _ hcc with hnone | hsome
        · exact absurd hnone hlate.1
        · exact hsome
    · obtain ⟨ht, -⟩ := hp k o ho (by rw [hsend]; exact Option.some_ne_none _)
      exact ⟨ht, fun heq => by cases heq⟩
  constructor
  · cases he.objectsAfter ho' with
    | allocated hid hk ho₁ hnext => rw [ho₁]; rfl
    | used ho₁ hl =>
      rw [ho, Option.some.injEq] at ho₁
      rw [hl.timer, ← ho₁]
      exact hbefore.1
    | freed hact hid ho₁ hw hd hrun =>
      rw [ho, Option.some.injEq] at ho₁
      subst ho₁
      cases hd with
      | assocTimer =>
        refine absurd (.freesTimer hw (hid ▸ ho) ?_) (hact ▸ hn)
        exact hrun'
      | authTimeoutWork h => simpa using hbefore.1
      | assocTimeoutWork h =>
        obtain ⟨-, rfl⟩ := DelayedWork.freeWork_eq_some h
        simpa using hbefore.1
      | _ => simpa using hbefore.1
  · intro hsend
    rw [hpc, Option.some.injEq] at hsend
    have hap := hbefore.2 hsend
    rw [hctx]
    rcases he.ap_cases hr.consistent with hsame | hclears | hdown
    · rw [hsame, hap]
    · rcases hcases with hsame | ⟨-, rfl, -⟩ | ⟨h, -⟩
      · exact absurd (.clearsAp ho (hsame.trans (congrArg some hsend)) hclears) hn
      · cases hclears
      · rw [hsend] at h
        cases h
    · rw [hr.consistent.ap_idle (Or.inl hdown)] at hap
      cases hap

/-- A section does what its cause asks for. -/
theorem SectionStep.ap_none_of_ends {a : Association} {cause : Cause} {r : SectionResult}
    (hr : SectionStep a cause r) {c : AssociationContext} {result : Status}
    (hc : a.associationContext = some c) (h : EndsAttempt a.state c cause result)
    (hres : result ≠ .success) : r.association.ap = none := by
  cases hr with
  | unchanged hi => exact absurd h (hi.ends c result hc)
  | authenticated hc' _ ha =>
    rw [hc, Option.some.injEq] at hc'
    subst hc'
    exact absurd h ha.not_ends
  | ended hc' h' =>
    rw [hc, Option.some.injEq] at hc'
    subst hc'
    rw [← h.unique h']
    simp [SectionResult.ended, hres]
  | disconnected _ _ _ => rfl

theorem SectionStep.ap_none_of_disconnects {a : Association} (hcons : a.Consistent) {cause : Cause}
    {r : SectionResult} (hr : SectionStep a cause r) {ap : AccessPoint} (hap : a.ap = some ap)
    (hs : a.state = .associated) (h : Disconnects ap cause) : r.association.ap = none := by
  have hcx := hcons.context_none (by rw [hs]; rfl)
  cases hr with
  | unchanged hi => exact absurd h (hi.disconnects ap hap hs)
  | authenticated hc' _ _ =>
    rw [hcx] at hc'
    cases hc'
  | ended hc' _ =>
    rw [hcx] at hc'
    cases hc'
  | disconnected _ _ _ => rfl

theorem ClearsAp.ap_none (hr : Reachable ownAddress s) {action : Action} (h : ClearsAp s action)
    (hs : step action s = some s') : s'.association.ap = none := by
  have hcons := hr.consistent
  cases h with
  | ended hc hcx hend hres =>
    simp only [step, hc, stepCall, Option.some.injEq] at hs
    subst hs
    have hsec := associationProcess_step hcons _ |>.ap_none_of_ends hcx hend hres
    simpa using hsec
  | disconnected hc ha hst hd =>
    simp only [step, hc, stepCall, Option.some.injEq] at hs
    subst hs
    have hsec := associationProcess_step hcons _ |>.ap_none_of_disconnects hcons ha hst hd
    simpa using hsec
  | expired ho hw hcx hst =>
    simp only [step, stepObjects, ho, hw, Option.map_some, Option.some.injEq, stepTimeout,
      associationTimeout_current hcons hcx hst] at hs
    subst hs
    simp [SectionResult.ended]
  | left hc hst =>
    obtain ⟨ap, hap⟩ := Option.isSome_iff_exists.mp (hcons.ap_connected (Or.inr hst))
    rcases deauthenticateSecond_cases s.association with ⟨ap', -, -, he⟩ | ⟨hn, -⟩
    · simp only [step, hc, stepCall, he, Option.some.injEq] at hs
      subst hs
      rfl
    · rw [hn hst] at hap
      cases hap

/-- A running completion work stands where it stood, unless it is the one that takes the step. -/
theorem ObjectStep.completionRunning_keep {action : Action} {k : Nat} {o o' : ContextObjects}
    (h : ObjectStep s action s' k o o') (hr : o.completionWork.running ≠ none) :
    action = .advanceCompletion k ∨ o'.completionWork.running = o.completionWork.running := by
  cases h with
  | authenticated => exact Or.inr (by simp)
  | startCompletion ha hw => exact absurd (Work.start_eq_some hw).2.1 hr
  | sendAssociationRequest ha hw => exact Or.inl ha
  | enqueueTimeout ha hw => exact Or.inl ha
  | destroy ha hid hw hd hr₁ =>
    cases hd with
    | completionWork hn => exact absurd hn hr
    | _ => exact Or.inr rfl
  | _ => exact Or.inr rfl

/-- A step that disturbs a completion work leaves it without something that it needs. -/
theorem not_completionReady_of_disturbs (hr : Reachable ownAddress s) {action : Action}
    (hs : step action s = some s') (h : Disturbs s action) : ¬ CompletionReady s' := by
  have he := hr.effect hs
  intro hp
  cases h with
  | @startsLate k o ho hlate =>
    cases he with
    | scanBusy ha => rcases ha with ha | ha <;> cases ha
    | startCompletion ho₁ hw =>
      rw [ho, Option.some.injEq] at ho₁
      subst ho₁
      obtain ⟨-, -, -, rfl⟩ := Work.start_eq_some hw
      obtain ⟨ht, ha⟩ := hp k _ (objects_setObjects_self _ _ _) (by simp)
      rcases hlate with hnone | hfreed
      · have hsome : s.association.ap = some o.context.ap := ha rfl
        rw [hnone] at hsome
        cases hsome
      · have hfalse : (o.timeoutWork .assoc).timerFreed = false := ht
        rw [hfreed] at hfalse
        cases hfalse
  | @clearsAp _ k o ho hrun hclears =>
    have hlt := (hr.contexts.id k o ho).2
    obtain ⟨o', ho', -⟩ := he.objects_persist hlt ho
    rcases (he.objectStep hlt ho ho').completionRunning_keep
      (by rw [hrun]; exact Option.some_ne_none _) with hact | hkeep
    · subst hact
      cases hclears
    · rw [hrun] at hkeep
      obtain ⟨-, ha⟩ := hp k o' ho' (by rw [hkeep]; exact Option.some_ne_none _)
      have hsome := ha hkeep
      rw [hclears.ap_none hr hs] at hsome
      cases hsome
  | @freesTimer c d o hw ho hrun =>
    have hs' : step .advanceCleanup s = some
        ({ s with cleanupWork := s.cleanupWork.goto (some (.freeCompletionWork c d)) }.setObjects
          c.id (o.updateTimeout .assoc (o.timeoutWork .assoc).freeTimer)) := by
      simp [step, hw, stepCleanup, stepDestroy, stepObjects, ho, ContextObjects.freeTimer]
    rw [hs, Option.some.injEq] at hs'
    subst hs'
    obtain ⟨ht, -⟩ := hp c.id _ (objects_setObjects_self _ _ _) hrun
    simp [DelayedWork.freeTimer] at ht

theorem completion_iff {τ : List Transition} (h : Run ownAddress τ s) :
    (∀ t ∈ τ, CompletionReady t.after) ↔ ∀ t ∈ τ, ¬ Disturbs t.before t.action := by
  refine h.forall_after_iff (P := CompletionReady) ?_ ?_
  · intro k o ho
    cases ho
  · intro s action s' hr hp hs
    constructor
    · intro hp' hd
      exact not_completionReady_of_disturbs hr hs hd hp'
    · exact completionReady_of_not_disturbs hr hp hs

/-- **Every run of `auth_completion_work` finds the access point of its own context when it sends
the association request, and its context and timer when it arms the timeout**, in a run of the
system in which no step disturbs it. -/
theorem completion_finds_what_it_needs {τ : List Transition}
    (h : Run ownAddress τ s) (hτ : ∀ t ∈ τ, ¬ Disturbs t.before t.action) {k : Nat}
    {o : ContextObjects} (ho : s.objects k = some o) :
    (o.completionWork.running = some .sendAssociationRequest →
      s.association.ap = some o.context.ap) ∧
    (o.completionWork.running = some .enqueueTimeout →
      o.freed = false ∧ (o.timeoutWork .assoc).timerFreed = false) := by
  have hp : CompletionReady s := by
    rcases h.after_or_init with hinit | ⟨t, ht, hs⟩
    · rw [hinit] at ho
      cases ho
    · have hp := (completion_iff h).mpr hτ t ht
      rwa [← hs] at hp
  have hok := (Reachable.contexts h.reachable).completion k o ho
  constructor
  · intro hrun
    exact (hp k o ho (by rw [hrun]; exact Option.some_ne_none _)).2 hrun
  · intro hrun
    have hne : o.completionWork.running ≠ none := by rw [hrun]; exact Option.some_ne_none _
    refine ⟨?_, (hp k o ho hne).1⟩
    rw [← Bool.not_eq_true]
    intro hf
    exact hne (hok.freed (hok.context hf)).2

/-- Only allocated contexts need to be looked at. -/
theorem completionReady_iff_lt (hr : Reachable ownAddress s) :
    CompletionReady s ↔ ∀ k < s.nextContext, ∀ o ∈ s.objects k, o.Ready s.association := by
  constructor
  · intro hp k _ o ho
    exact hp k o ho
  · intro hp k o ho
    exact hp k (hr.contexts.id k o ho).2 o ho

open Scenario in
theorem completion_finds_what_it_needs_accepted :
    ∃ s o, Scenario.run (join 0 2 ++ receive 1 (authentication 2 0) ++ [.startCompletion 0]) =
        some s ∧ s.objects 0 = some o ∧
      o.completionWork.running = some .sendAssociationRequest ∧
      s.association.ap = some o.context.ap := by
  have hrun : (run (join 0 2 ++ receive 1 (authentication 2 0) ++ [.startCompletion 0])).map
      (fun s => (s.objects 0).map fun o => o.completionWork.running) =
        some (some (some .sendAssociationRequest)) := by decide
  have hcheck : ∀ t ∈ trace (join 0 2 ++ receive 1 (authentication 2 0) ++ [.startCompletion 0]),
      ∀ k < t.after.nextContext, ∀ o ∈ t.after.objects k, o.Ready t.after.association := by decide
  obtain ⟨s, hs, he⟩ := exists_of_run hrun
  obtain ⟨o, ho, hoe⟩ := Option.map_eq_some_iff.mp he
  have hr := run_trace hs
  have hready := (completion_iff hr).mp fun t ht => by
    obtain ⟨hbefore, hstep⟩ := hr.of_mem t ht
    obtain ⟨τ, hτ⟩ := hbefore
    exact (completionReady_iff_lt (hτ.snoc hstep).reachable).mpr (hcheck t ht)
  exact ⟨s, o, hs, ho, hoe, (completion_finds_what_it_needs hr hready ho).1 hoe⟩

/-- The access point deauthenticates the device after it has accepted its authentication. -/
def Scenario.lateDeauthentication : List Action :=
  join 0 2 ++ receive 1 (authentication 2 0) ++ receive 2 (deauthentication 2) ++
    [.startCompletion 0]

open Scenario in
/-- **The completion work finds neither**: first it is about to send its association request while
`device->ap` is reset, and then to arm a timer that the cleanup has freed, which waits for the work
to return. -/
theorem completion_finds_nothing :
    (∃ s o, Scenario.run lateDeauthentication = some s ∧ Reachable device s ∧
      s.objects 0 = some o ∧ o.completionWork.running = some .sendAssociationRequest ∧
      s.association.ap = none) ∧
    ∃ s o, Scenario.run (lateDeauthentication ++ .startCleanup ::
        List.replicate 4 .advanceCleanup ++ [.advanceCompletion 0]) = some s ∧
      Reachable device s ∧ s.objects 0 = some o ∧
      o.completionWork.running = some .enqueueTimeout ∧
      (o.timeoutWork .assoc).timerFreed = true := by
  constructor
  · have hrun : (run lateDeauthentication).map (fun s => (s.association.ap, (s.objects 0).map
        fun o => o.completionWork.running)) =
          some (none, some (some .sendAssociationRequest)) := by decide
    obtain ⟨s, hs, he⟩ := exists_of_run hrun
    rw [Prod.mk.injEq] at he
    obtain ⟨o, ho, hoe⟩ := Option.map_eq_some_iff.mp he.2
    exact ⟨s, o, hs, reachable_of_run hs, ho, hoe, he.1⟩
  · have hrun : (run (lateDeauthentication ++ .startCleanup ::
        List.replicate 4 .advanceCleanup ++ [.advanceCompletion 0])).map (fun s =>
          (s.objects 0).map fun o =>
            (o.completionWork.running, (o.timeoutWork .assoc).timerFreed)) =
          some (some (some .enqueueTimeout, true)) := by decide
    obtain ⟨s, hs, he⟩ := exists_of_run hrun
    obtain ⟨o, ho, hoe⟩ := Option.map_eq_some_iff.mp he
    rw [Prod.mk.injEq] at hoe
    exact ⟨s, o, hs, reachable_of_run hs, ho, hoe⟩

end U80211
