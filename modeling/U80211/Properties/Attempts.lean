import U80211.Properties.Contexts

/-!
# Attempts and their outcomes

An attempt is named by its context. It ends in one step, whose frame or timeout determines the
result, and the result stays in `association_result` until the cleanup of the context is done.

* `Run.ended`: an attempt ends at most once, and while its context waits for the cleanup,
  `association_result` is its result
* `Run.outcome`: the result tells how the attempt ended
-/

namespace U80211

open WorkQueue

variable {s s' : System} {ownAddress : MacAddress}

/-- The frame or the timeout whose section a step runs. -/
inductive Causes (s : System) : Action → Cause → Prop
  | message {i : Nat} {o : Outcome} {frame : Frame} {message : Message}
      (hc : s.calls[i]? = some (.process frame message)) :
      Causes s (.advance i o) (.message message)
  | timeout {k : Nat} {kind : TimeoutKind} {ob : ContextObjects} (ho : s.objects k = some ob)
      (hw : (ob.timeoutWork kind).work.running = some .critical) :
      Causes s (.advanceTimeout k kind) (.timeout ob.context kind)

/-- An action has one cause at most. -/
theorem Causes.unique {action : Action} {cause cause' : Cause} (h : Causes s action cause)
    (h' : Causes s action cause') : cause = cause' := by
  cases h with
  | message hc =>
    cases h' with
    | message hc' =>
      rw [hc, Option.some.injEq, Call.process.injEq] at hc'
      rw [hc'.2]
  | timeout ho hw =>
    cases h' with
    | timeout ho' hw' =>
      rw [ho, Option.some.injEq] at ho'
      rw [ho']

/-- The transition ends the attempt of the context with the result; the result is a success exactly
when the device is associated by it. -/
structure Ends (t : Transition) (c : AssociationContext) (result : Status) : Prop where
  context : t.before.association.associationContext = some c
  cause : ∃ cause, Causes t.before t.action cause ∧
    EndsAttempt t.before.association.state c cause result
  reached : t.after.association.state = .associated ↔ result = .success

/-- The attempt of the context has ended with the result. -/
def Ended (τ : List Transition) (c : AssociationContext) (result : Status) : Prop :=
  ∃ t ∈ τ, Ends t c result

theorem Ended.append {τ : List Transition} {c : AssociationContext} {result : Status}
    (h : Ended τ c result) (t : Transition) : Ended (τ ++ [t]) c result := by
  obtain ⟨t', ht', he⟩ := h
  exact ⟨t', List.mem_append_left _ ht', he⟩

theorem Ended.last {τ : List Transition} {t : Transition} {c : AssociationContext}
    {result : Status} (h : Ends t c result) : Ended (τ ++ [t]) c result :=
  ⟨t, List.mem_append_right _ (List.mem_singleton.mpr rfl), h⟩

/-- An attempt has ended before the last transition, or in it. -/
theorem Ended.cases {τ : List Transition} {t : Transition} {c : AssociationContext}
    {result : Status} (h : Ended (τ ++ [t]) c result) : Ended τ c result ∨ Ends t c result := by
  obtain ⟨t', ht', he⟩ := h
  rcases List.mem_append.mp ht' with ht' | ht'
  · exact Or.inl ⟨t', ht', he⟩
  · rw [List.mem_singleton] at ht'
    exact Or.inr (ht' ▸ he)

/-- What a section for a cause ends, seen from the step that runs it. -/
theorem Ends.ofSection {a : Action} {c : AssociationContext} {cause : Cause} {result : Status}
    (hcx : s.association.associationContext = some c) (hca : Causes s a cause)
    (hend : EndsAttempt s.association.state c cause result)
    (hs' : s'.association = s.association.endAttempt c result) : Ends ⟨s, a, s'⟩ c result := by
  refine ⟨hcx, ⟨cause, hca, hend⟩, ?_⟩
  have hafter : (Lts.Transition.mk s a s').after.association =
      s.association.endAttempt c result := hs'
  rw [hafter, Association.endAttempt_state]
  split
  · next h => simp [h]
  · next h => simp [h]

/-- A context that waits for its cleanup after a step did so before with the same result, or its
attempt ends in the step. -/
theorem Effect.outcome_cases (hc : s.association.Consistent) {action : Action}
    (he : Effect s action s') {c : AssociationContext}
    (h : s'.association.associationCleanupContext = some c) :
    (s.association.associationCleanupContext = some c ∧
        s'.association.associationResult = s.association.associationResult) ∨
      Ends ⟨s, action, s'⟩ c s'.association.associationResult := by
  cases he with
  | install hcall hp hs hid hg =>
    have hcc : s.association.associationCleanupContext = some c := h
    rw [hc.pending_iff.mpr (by rw [hcc]; rfl)] at hp
    cases hp
  | process hcall hr =>
    cases hr with
    | @ended c' result hcx hend =>
      have heq : c' = c := Option.some.inj h
      subst heq
      exact Or.inr (.ofSection hcx (.message hcall) hend rfl)
    | _ => exact Or.inl ⟨h, rfl⟩
  | timeout ho hw hr =>
    cases hr with
    | @ended c' result hcx hend =>
      have heq : c' = c := Option.some.inj h
      subst heq
      exact Or.inr (.ofSection hcx (.timeout ho hw) hend rfl)
    | _ => exact Or.inl ⟨h, rfl⟩
  | cleanupSecond hw => cases h
  | _ => exact Or.inl ⟨h, rfl⟩

/-- An attempt that a step ends is not the current one afterwards. -/
theorem Ends.context_ne (hc : s.association.Consistent) {action : Action}
    (he : Effect s action s') {c : AssociationContext} {result : Status}
    (h : Ends ⟨s, action, s'⟩ c result) : s'.association.associationContext = none := by
  obtain ⟨hcx, ⟨cause, hca, hend⟩, -⟩ := h
  have hsec : ∀ {r : SectionResult}, SectionStep s.association cause r →
      r.association.associationContext = none := by
    intro r hr
    cases hr with
    | unchanged hi => exact absurd hend (hi.ends c result hcx)
    | authenticated hcx' _ ha =>
      rw [show s.association.associationContext = some c from hcx, Option.some.injEq] at hcx'
      subst hcx'
      exact absurd hend ha.not_ends
    | ended _ _ => rfl
    | disconnected hs _ _ =>
      exact hc.context_none (by rw [hs]; rfl)
  cases hca with
  | message hcall =>
    cases he with
    | process hcall' hr =>
      rw [hcall, Option.some.injEq, Call.process.injEq] at hcall'
      rw [hcall'.2] at hsec
      simpa using hsec hr
    | quiet hcall' hq =>
      rw [hcall, Option.some.injEq] at hcall'
      subst hcall'
      cases hq
    | scanBusy ha => rcases ha with ha | ha <;> cases ha
    | takeDisconnected hcall' | releaseTaken hcall' | install hcall' | arm hcall'
    | deauthenticateFirst hcall' | deauthenticateSecond hcall' | deauthenticateRelease hcall'
    | answer hcall' | wait hcall' | woken hcall' | receive hcall' | filter hcall'
    | enqueueCleanup hcall' =>
      rw [hcall] at hcall'
      cases hcall'
  | timeout ho hw =>
    cases he with
    | scanBusy ha => rcases ha with ha | ha <;> cases ha
    | timeout ho' hw' hr =>
      rw [ho, Option.some.injEq] at ho'
      subst ho'
      simpa using hsec hr
    | timeoutEnqueue ho' hw' =>
      rw [ho, Option.some.injEq] at ho'
      subst ho'
      rw [hw] at hw'
      cases hw'

/-- What holds of the attempts that have ended in a run. -/
structure EndedInvariant (τ : List Transition) (s : System) : Prop where
  past : ∀ c result, Ended τ c result →
    s.association.associationContext ≠ some c ∧ c.id < s.nextContext
  unique : ∀ c r r', Ended τ c r → Ended τ c r' → r = r'
  pending : ∀ c, s.association.associationCleanupContext = some c →
    Ended τ c s.association.associationResult

theorem Run.ended {τ : List Transition} (h : Run ownAddress τ s) : EndedInvariant τ s := by
  refine h.history (P := EndedInvariant) ⟨?_, ?_, ?_⟩ ?_
  · rintro c result ⟨t, ht, -⟩
    cases ht
  · rintro c r r' ⟨t, ht, -⟩
    cases ht
  · intro c hc
    cases hc
  · intro τ s action s' hr ih hs
    have hreach : Reachable ownAddress s := hr.reachable
    have he := hreach.effect hs
    have hcons := hreach.consistent
    have hnew : ∀ c result, Ends ⟨s, action, s'⟩ c result → c.id < s.nextContext := by
      intro c result hend
      obtain ⟨o, ho, -⟩ := hreach.contexts.current c hend.context
      exact (hreach.contexts.id _ _ ho).2
    refine ⟨?_, ?_, ?_⟩
    · intro c result hend
      rcases hend.cases with hold | hlast
      · obtain ⟨hne, hlt⟩ := ih.past c result hold
        refine ⟨?_, Nat.lt_of_lt_of_le hlt he.nextContext_le⟩
        intro hcx
        rcases he.context_cases hcx with hcx | ⟨hid, -⟩
        · exact hne hcx
        · omega
      · refine ⟨?_, Nat.lt_of_lt_of_le (hnew c result hlast) he.nextContext_le⟩
        intro hcx
        rw [hlast.context_ne hcons he] at hcx
        cases hcx
    · intro c r r' hr hr'
      rcases hr.cases with h | h <;> rcases hr'.cases with h' | h'
      · exact ih.unique c r r' h h'
      · exact absurd h'.context (ih.past c r h).1
      · exact absurd h.context (ih.past c r' h').1
      · obtain ⟨cause, hca, hend⟩ := h.cause
        obtain ⟨cause', hca', hend'⟩ := h'.cause
        rw [← hca.unique hca'] at hend'
        exact hend.unique hend'
    · intro c hcc
      rcases he.outcome_cases hcons hcc with ⟨hold, hres⟩ | hend
      · rw [hres]
        exact (ih.pending c hold).append _
      · exact Ended.last hend

/-! ## The outcome of an attempt -/

/-- The transition ends the attempt of the context. -/
def Leaves (t : Transition) (c : AssociationContext) : Prop :=
  t.before.association.associationContext = some c ∧
    t.after.association.associationContext ≠ some c

/-- An attempt leaves its states only when it ends. -/
theorem Effect.ends_of_leaves (hc : s.association.Consistent) {action : Action}
    (he : Effect s action s') {c : AssociationContext} (h : Leaves ⟨s, action, s'⟩ c) :
    ∃ result, Ends ⟨s, action, s'⟩ c result := by
  obtain ⟨hcx, hne⟩ := h
  have hcx : s.association.associationContext = some c := hcx
  cases he with
  | install hcall hp hs hid hg =>
    exact absurd hcx (hc.not_context (by rw [hs]; rfl))
  | process hcall hr =>
    cases hr with
    | ended hcx' hend =>
      rw [hcx, Option.some.injEq] at hcx'
      subst hcx'
      exact ⟨_, .ofSection hcx (.message hcall) hend rfl⟩
    | _ => exact absurd hcx hne
  | timeout ho hw hr =>
    cases hr with
    | ended hcx' hend =>
      rw [hcx, Option.some.injEq] at hcx'
      subst hcx'
      exact ⟨_, .ofSection hcx (.timeout ho hw) hend rfl⟩
    | _ => exact absurd hcx hne
  | _ => exact absurd hcx hne

theorem Run.leaves_iff {τ : List Transition} (h : Run ownAddress τ s) {t : Transition}
    (ht : t ∈ τ) (c : AssociationContext) : Leaves t c ↔ ∃ result, Ends t c result := by
  obtain ⟨hr, hs⟩ := h.of_mem t ht
  have hreach : Reachable ownAddress t.before := hr
  have he := hreach.effect hs
  constructor
  · intro hl
    exact he.ends_of_leaves hreach.consistent hl
  · rintro ⟨result, hend⟩
    refine ⟨hend.context, ?_⟩
    rw [hend.context_ne hreach.consistent he]
    exact (Option.some_ne_none c).symm

/-- The result is the outcome of the attempt of the context: a success when the attempt has reached
`U80211_DEVICE_STATE_ASSOCIATED`, a rejection when a frame has ended it otherwise, and timed out
when one of its timeouts has. -/
structure AttemptOutcome (τ : List Transition) (c : AssociationContext) (result : Status) :
    Prop where
  ended : Ended τ c result
  unique : ∀ r, Ended τ c r → r = result
  success : result = .success ↔
    ∃ t ∈ τ, Leaves t c ∧ t.after.association.state = .associated
  rejected : result = .rejected ↔
    ∃ t ∈ τ, Leaves t c ∧ t.after.association.state ≠ .associated ∧
      ∃ message, Causes t.before t.action (.message message)
  timedOut : result = .timedOut ↔
    ∃ t ∈ τ, Leaves t c ∧ ∃ kind, Causes t.before t.action (.timeout c kind)
  known : result ≠ .unknownError

theorem EndsAttempt.ne_unknownError {state : DeviceState} {c : AssociationContext} {cause : Cause}
    {result : Status} (h : EndsAttempt state c cause result) : result ≠ .unknownError := by
  cases h <;> exact Status.noConfusion

/-- A frame rejects the attempt unless it is the one that completes it. -/
theorem EndsAttempt.of_message {state : DeviceState} {c : AssociationContext} {message : Message}
    {result : Status} (h : EndsAttempt state c (.message message) result)
    (hr : result ≠ .success) : result = .rejected := by
  cases h with
  | accepted => exact absurd rfl hr
  | _ => rfl

theorem EndsAttempt.of_timeout {state : DeviceState} {c c' : AssociationContext}
    {kind : TimeoutKind} {result : Status} (h : EndsAttempt state c (.timeout c' kind) result) :
    result = .timedOut := by
  cases h
  rfl

/-- Only a message rejects an attempt. -/
theorem EndsAttempt.message_of_rejected {state : DeviceState} {c : AssociationContext}
    {cause : Cause} (h : EndsAttempt state c cause .rejected) :
    ∃ message, cause = .message message := by
  cases h <;> exact ⟨_, rfl⟩

/-- Only a timeout of its own makes it time out. -/
theorem EndsAttempt.timeout_of_timedOut {state : DeviceState} {c : AssociationContext}
    {cause : Cause} (h : EndsAttempt state c cause .timedOut) :
    ∃ kind, cause = .timeout c kind := by
  cases h
  exact ⟨_, rfl⟩

/-- **The result of an ended attempt tells how it ended.** -/
theorem Run.outcome {τ : List Transition} (h : Run ownAddress τ s) {c : AssociationContext}
    {result : Status} (hend : Ended τ c result) : AttemptOutcome τ c result := by
  have hinv := Run.ended h
  obtain ⟨t, ht, hends⟩ := hend
  have hl : Leaves t c := (Run.leaves_iff h ht c).mpr ⟨result, hends⟩
  obtain ⟨cause, hca, hea⟩ := hends.cause
  -- every transition that ends the attempt does so with this result
  have hsame : ∀ t' ∈ τ, Leaves t' c → Ends t' c result := by
    intro t' ht' hl'
    obtain ⟨r, hr⟩ := (Run.leaves_iff h ht' c).mp hl'
    rwa [hinv.unique c result r ⟨t, ht, hends⟩ ⟨t', ht', hr⟩]
  refine ⟨⟨t, ht, hends⟩, fun r hr => hinv.unique c r result hr ⟨t, ht, hends⟩, ?_, ?_, ?_,
    hea.ne_unknownError⟩
  · constructor
    · exact fun hs => ⟨t, ht, hl, hends.reached.mpr hs⟩
    · rintro ⟨t', ht', hl', hs⟩
      exact (hsame t' ht' hl').reached.mp hs
  · constructor
    · rintro rfl
      obtain ⟨message, rfl⟩ := hea.message_of_rejected
      exact ⟨t, ht, hl, fun hs => absurd (hends.reached.mp hs) nofun, message, hca⟩
    · rintro ⟨t', ht', hl', hs, message, hca'⟩
      have hends' := hsame t' ht' hl'
      obtain ⟨cause', hca'', hea'⟩ := hends'.cause
      rw [← hca'.unique hca''] at hea'
      exact hea'.of_message fun hr => hs (hends'.reached.mpr hr)
  · constructor
    · rintro rfl
      obtain ⟨kind, rfl⟩ := hea.timeout_of_timedOut
      exact ⟨t, ht, hl, kind, hca⟩
    · rintro ⟨t', ht', hl', kind, hca'⟩
      obtain ⟨cause', hca'', hea'⟩ := (hsame t' ht' hl').cause
      rw [← hca'.unique hca''] at hea'
      exact hea'.of_timeout

end U80211
