import U80211.System

/-!
# What the critical sections can do

`Association.Consistent` is what the guarded fields satisfy whenever the lock is free. Under it
every section that handles a frame or a timeout does one of four things (`SectionStep`): nothing,
take the attempt from the authentication on to the association, end the attempt, or take a
connected device down. Later proofs go through the cases of `SectionStep` and never through the
bodies of the sections.

* `associationProcess_step`, `associationTimeout_step`: the sections are such steps
* `SectionStep.consistent` and its siblings: every section keeps the fields consistent
-/

namespace U80211

/-! ## Consistency -/

/-- The guarded fields agree with each other and with the device state. -/
structure Association.Consistent (a : Association) : Prop where
  context_iff : a.state.inProgress = true ↔ a.associationContext.isSome = true
  context_ap : ∀ c, a.associationContext = some c → a.ap = some c.ap
  context_generation : ∀ c, a.associationContext = some c →
    a.associationGeneration = c.generation
  ap_connected : a.state = .associated ∨ a.state = .deauthenticating → a.ap.isSome = true
  ap_idle : a.state = .down ∨ a.state = .scanning → a.ap = none
  pending_iff : a.associationCleanupPending = true ↔ a.associationCleanupContext.isSome = true
  pending_context : a.associationCleanupPending = true → a.associationContext = none

namespace Association.Consistent

variable {a : Association}

theorem registered : Association.registered.Consistent where
  context_iff := by decide
  context_ap := fun _ h => by cases h
  context_generation := fun _ h => by cases h
  ap_connected := by decide
  ap_idle := fun _ => rfl
  pending_iff := by decide
  pending_context := fun _ => rfl

/-- An attempt in progress has a context. -/
theorem context_of_inProgress (h : a.Consistent) (hs : a.state.inProgress = true) :
    ∃ c, a.associationContext = some c :=
  Option.isSome_iff_exists.mp (h.context_iff.mp hs)

/-- A context in the device is that of an attempt in progress. -/
theorem inProgress_of_context (h : a.Consistent) {c : AssociationContext}
    (hc : a.associationContext = some c) : a.state.inProgress = true := by
  rw [h.context_iff, hc, Option.isSome_some]

/-- Without an attempt in progress there is no context. -/
theorem context_none (h : a.Consistent) (hs : a.state.inProgress = false) :
    a.associationContext = none := by
  cases hc : a.associationContext with
  | none => rfl
  | some c =>
    rw [h.inProgress_of_context hc] at hs
    cases hs

/-- Where no attempt is in progress, the device has no context. -/
theorem not_context (h : a.Consistent) (hs : a.state.inProgress = false) {c : AssociationContext} :
    a.associationContext ≠ some c := by
  rw [h.context_none hs]
  exact (Option.some_ne_none c).symm

/-- While an attempt is in progress no cleanup is pending. -/
theorem pending_of_context (h : a.Consistent) {c : AssociationContext}
    (hc : a.associationContext = some c) : a.associationCleanupPending = false := by
  cases hp : a.associationCleanupPending with
  | false => rfl
  | true =>
    rw [h.pending_context hp] at hc
    cases hc

/-- While an attempt has its context, no other one is to be freed. -/
theorem cleanupContext_of_context (h : a.Consistent) {c : AssociationContext}
    (hc : a.associationContext = some c) : a.associationCleanupContext = none := by
  have hp := h.pending_of_context hc
  cases hcc : a.associationCleanupContext with
  | none => rfl
  | some _ =>
    have hpt := h.pending_iff.mpr (by rw [hcc, Option.isSome_some])
    rw [hp] at hpt
    cases hpt

end Association.Consistent

/-! ## Steps -/

/-- What makes a section run: a received frame, or the timeout of a context. -/
inductive Cause where
  | message (message : Message)
  | timeout (context : AssociationContext) (kind : TimeoutKind)

/-- The cause accepts the device's authentication with the access point. -/
inductive Authenticates (ap : AccessPoint) : Cause → Prop
  | accepted {data : AuthData} (address : data.address = ap.macAddress)
      (algorithm : data.authAlgorithm = authAlgorithmOpen)
      (transaction : data.authTransaction = 2) (status : data.status = 0) :
      Authenticates ap (.message (.authentication data))

/-- The cause ends the attempt of the context with the result. -/
inductive EndsAttempt (state : DeviceState) (context : AssociationContext) :
    Cause → Status → Prop
  | refused {data : AuthData} (hstate : state = .authenticating)
      (address : data.address = context.ap.macAddress)
      (algorithm : data.authAlgorithm = authAlgorithmOpen)
      (transaction : data.authTransaction = 2) (status : data.status ≠ 0) :
      EndsAttempt state context (.message (.authentication data)) .rejected
  | declined {data : AssociationResponseData} (hstate : state = .associating)
      (address : data.address = context.ap.macAddress) (status : data.status ≠ 0) :
      EndsAttempt state context (.message (.response data)) .rejected
  | accepted {data : AssociationResponseData} (hstate : state = .associating)
      (address : data.address = context.ap.macAddress) (status : data.status = 0) :
      EndsAttempt state context (.message (.response data)) .success
  | tornDown {data : DeauthenticationData} (address : data.address = context.ap.macAddress) :
      EndsAttempt state context (.message (.deauthentication data)) .rejected
  | expired {kind : TimeoutKind} (hstate : state = kind.expectedState) :
      EndsAttempt state context (.timeout context kind) .timedOut

/-- A cause ends an attempt with one result. -/
theorem EndsAttempt.unique {state : DeviceState} {c : AssociationContext} {cause : Cause}
    {r r' : Status} (h : EndsAttempt state c cause r) (h' : EndsAttempt state c cause r') :
    r = r' := by
  cases h <;> cases h' <;> first | rfl | contradiction

/-- The response that goes on to the association does not end the attempt. -/
theorem Authenticates.not_ends {c : AssociationContext} {cause : Cause} {state : DeviceState}
    {r : Status} (h : Authenticates c.ap cause) : ¬ EndsAttempt state c cause r := by
  intro h'
  cases h with
  | accepted _ _ _ hs =>
    cases h' with
    | refused _ _ _ _ hn => exact hn hs

/-- The cause tears down the connection with the access point. -/
inductive Disconnects (ap : AccessPoint) : Cause → Prop
  | deauthentication {data : DeauthenticationData} (address : data.address = ap.macAddress) :
      Disconnects ap (.message (.deauthentication data))
  | disassociation {data : DisassociationData} (address : data.address = ap.macAddress) :
      Disconnects ap (.message (.disassociation data))

/-- The attempt of the context has ended. -/
@[simps] def Association.endAttempt (a : Association) (context : AssociationContext)
    (result : Status) : Association :=
  { a with
    state := if result = .success then .associated else .down
    associationContext := none
    associationCleanupContext := some context
    associationCleanupPending := true
    associationGeneration := a.associationGeneration + 1
    associationResult := result
    ap := if result = .success then some context.ap else none }

/-- The access point has taken the connection down. -/
@[simps] def Association.disconnect (a : Association) : Association :=
  { a with
    state := .down
    associationGeneration := a.associationGeneration + 1
    ap := none
    disconnectedAp := a.ap }

/-- A section that ends the attempt. -/
def SectionResult.ended (a : Association) (context : AssociationContext) (result : Status) :
    SectionResult :=
  { association := a.endAttempt context result
    held := if result = .success then some context.ap else none
    cleanupNeeded := true }

/-- A section that takes the attempt from the authentication on to the association. -/
def SectionResult.authenticated (a : Association) (context : AssociationContext) :
    SectionResult :=
  { association := { a with state := .associating }
    completion := some context }

/-- A section that takes a connected device down. -/
def SectionResult.disconnected (a : Association) : SectionResult :=
  { association := a.disconnect
    cleanupNeeded := true }

/-- The cause is none of the device's business in its present state. -/
structure Ignores (a : Association) (cause : Cause) : Prop where
  authenticates : ∀ c, a.associationContext = some c → a.state = .authenticating →
    ¬ Authenticates c.ap cause
  ends : ∀ c result, a.associationContext = some c → ¬ EndsAttempt a.state c cause result
  disconnects : ∀ ap, a.ap = some ap → a.state = .associated → ¬ Disconnects ap cause

/-- **What a section that handles a frame or a timeout can do.** -/
inductive SectionStep (a : Association) (cause : Cause) : SectionResult → Prop
  | unchanged (h : Ignores a cause) : SectionStep a cause (.unchanged a)
  | authenticated {context : AssociationContext} (hc : a.associationContext = some context)
      (hs : a.state = .authenticating) (h : Authenticates context.ap cause) :
      SectionStep a cause (.authenticated a context)
  | ended {context : AssociationContext} {result : Status}
      (hc : a.associationContext = some context)
      (h : EndsAttempt a.state context cause result) :
      SectionStep a cause (.ended a context result)
  | disconnected {ap : AccessPoint} (hs : a.state = .associated) (ha : a.ap = some ap)
      (h : Disconnects ap cause) : SectionStep a cause (.disconnected a)

variable {a a' : Association}

/-- The swap succeeds from the expected state only. -/
theorem setDeviceState_eq_some {s s' : DeviceState} (h : setDeviceState a s s' = some a') :
    a.state = s ∧ a' = { a with state := s' } := by
  unfold setDeviceState at h
  split at h
  · next hs => exact ⟨hs, (Option.some.inj h).symm⟩
  · cases h

/-- The swap fails when the device is in another state. -/
theorem setDeviceState_eq_none {s s' : DeviceState} (h : setDeviceState a s s' = none) :
    a.state ≠ s := by
  unfold setDeviceState at h
  split at h
  · cases h
  · next hs => exact hs

/-- The access point with a context's address is the context's. -/
theorem Association.Consistent.apHasAddress_iff (h : a.Consistent) {c : AssociationContext}
    (hc : a.associationContext = some c) {address : MacAddress} :
    apHasAddress a address = true ↔ address = c.ap.macAddress := by
  rw [apHasAddress, h.context_ap c hc, macAddressEqual_iff, eq_comm]

/-- An authentication response that nobody waits for changes nothing. -/
theorem Ignores.authentication {data : AuthData}
    (h : ∀ c, a.associationContext = some c → a.state = .authenticating →
      data.address = c.ap.macAddress → data.authAlgorithm = authAlgorithmOpen →
      data.authTransaction ≠ 2) : Ignores a (.message (.authentication data)) where
  authenticates := fun c hc hs ha => by
    cases ha with
    | accepted address algorithm transaction status => exact h c hc hs address algorithm transaction
  ends := fun c result hc he => by
    cases he with
    | refused hs address algorithm transaction status =>
      exact h c hc hs address algorithm transaction
  disconnects := fun ap _ _ hd => by cases hd

/-- An association response of a stranger changes nothing. -/
theorem Ignores.response {data : AssociationResponseData}
    (h : ∀ c, a.associationContext = some c → a.state = .associating →
      data.address ≠ c.ap.macAddress) : Ignores a (.message (.response data)) where
  authenticates := fun c _ _ ha => by cases ha
  ends := fun c result hc he => by
    cases he with
    | declined hs address _ => exact h c hc hs address
    | accepted hs address _ => exact h c hc hs address
  disconnects := fun ap _ _ hd => by cases hd

/-- The section of `u80211_association_process_authentication`. -/
theorem associationProcessAuthentication_step (h : a.Consistent) (data : AuthData) :
    SectionStep a (.message (.authentication data)) (associationProcessAuthentication a data) := by
  unfold associationProcessAuthentication
  split
  · next ha =>
    refine .unchanged (.authentication ?_)
    intro c hc _ haddr
    exact absurd ((h.apHasAddress_iff hc).mpr haddr) ha
  · next ha =>
    rw [Decidable.not_not] at ha
    split
    · next hd =>
      refine .unchanged (.authentication ?_)
      intro c _ _ _ halg htr
      rcases hd with hd | hd
      · exact hd halg
      · exact hd htr
    · next hd =>
      rw [not_or, Decidable.not_not, Decidable.not_not] at hd
      obtain ⟨halg, htr⟩ := hd
      split
      · next hst =>
        split
        · next hset =>
          exact .unchanged (.authentication fun _ _ hs => absurd hs (setDeviceState_eq_none hset))
        · next a' hset =>
          obtain ⟨hs, rfl⟩ := setDeviceState_eq_some hset
          obtain ⟨c, hc⟩ := h.context_of_inProgress (by rw [hs]; rfl)
          have hend : EndsAttempt a.state c (.message (.authentication data)) .rejected :=
            .refused hs ((h.apHasAddress_iff hc).mp ha) halg htr hst
          have hstep := SectionStep.ended hc hend
          simpa only [SectionResult.ended, Association.endAttempt, scheduleAssociationCleanup, hc,
            reduceCtorEq, if_false] using hstep
      · next hst =>
        rw [Decidable.not_not] at hst
        split
        · next hset =>
          exact .unchanged (.authentication fun _ _ hs => absurd hs (setDeviceState_eq_none hset))
        · next a' hset =>
          obtain ⟨hs, rfl⟩ := setDeviceState_eq_some hset
          obtain ⟨c, hc⟩ := h.context_of_inProgress (by rw [hs]; rfl)
          have hstep := SectionStep.authenticated hc hs
            (Authenticates.accepted ((h.apHasAddress_iff hc).mp ha) halg htr hst)
          simpa only [SectionResult.authenticated, hc] using hstep

/-- The section of `u80211_association_process_response`. -/
theorem associationProcessResponse_step (h : a.Consistent) (data : AssociationResponseData) :
    SectionStep a (.message (.response data)) (associationProcessResponse a data) := by
  unfold associationProcessResponse
  split
  · next c ap hc hap =>
    rw [h.context_ap c hc, Option.some.injEq] at hap
    subst hap
    split
    · next haddr =>
      rw [macAddressEqual_iff] at haddr
      refine .unchanged (.response fun c' hc' _ he => haddr ?_)
      rw [hc, Option.some.injEq] at hc'
      rw [hc', he]
    · next haddr =>
      rw [Decidable.not_not, macAddressEqual_iff] at haddr
      by_cases hst : data.status = 0
      · simp only [hst, ne_eq, not_true_eq_false, if_false]
        split
        · next hset =>
          exact .unchanged (.response fun _ _ hs => absurd hs (setDeviceState_eq_none hset))
        · next a' hset =>
          obtain ⟨hs, rfl⟩ := setDeviceState_eq_some hset
          have hstep := SectionStep.ended hc (EndsAttempt.accepted hs haddr.symm hst)
          simpa [SectionResult.ended, Association.endAttempt, scheduleAssociationCleanup,
            h.context_ap c hc] using hstep
      · simp only [hst, ne_eq, not_false_eq_true, if_true]
        split
        · next hset =>
          exact .unchanged (.response fun _ _ hs => absurd hs (setDeviceState_eq_none hset))
        · next a' hset =>
          obtain ⟨hs, rfl⟩ := setDeviceState_eq_some hset
          have hstep := SectionStep.ended hc (EndsAttempt.declined hs haddr.symm hst)
          simpa [SectionResult.ended, Association.endAttempt, scheduleAssociationCleanup]
            using hstep
  · next hn =>
    refine .unchanged (.response ?_)
    intro c hc
    exact absurd (h.context_ap c hc) (hn c c.ap hc)

/-- The section of both teardown frames, for a cause that is one of them. -/
theorem associationProcessTeardown_step (h : a.Consistent) {address : MacAddress}
    {deauthentication : Bool} {cause : Cause} (hauth : ∀ ap, ¬ Authenticates ap cause)
    (hend : ∀ c result, EndsAttempt a.state c cause result ↔
      deauthentication = true ∧ address = c.ap.macAddress ∧ result = .rejected)
    (hdis : ∀ ap, Disconnects ap cause ↔ address = ap.macAddress) :
    SectionStep a cause (associationProcessTeardown a address deauthentication) := by
  unfold associationProcessTeardown
  split
  · next ha =>
    refine .unchanged ⟨fun c _ _ => hauth c.ap, ?_, ?_⟩
    · intro c result hc he
      exact ha ((h.apHasAddress_iff hc).mpr ((hend c result).mp he).2.1)
    · intro ap hap _ hd
      exact ha (apHasAddress_iff.mpr ⟨ap, hap, ((hdis ap).mp hd).symm⟩)
  · next ha =>
    rw [Decidable.not_not] at ha
    simp only
    split
    · next hstop =>
      refine .unchanged ⟨fun c _ _ => hauth c.ap, ?_,
        fun _ _ hs => absurd hs hstop.1⟩
      intro c result hc he
      rcases hstop.2 with hn | hn
      · exact hn ((hend c result).mp he).1
      · have hin := h.inProgress_of_context hc
        cases hs : a.state <;> simp_all [DeviceState.inProgress]
    · next hgo =>
      split
      · next hset => exact absurd rfl (setDeviceState_eq_none hset)
      · next a' hset =>
        obtain ⟨-, rfl⟩ := setDeviceState_eq_some hset
        simp only
        split
        · next hprog =>
          have hin : a.state.inProgress = true := by
            rcases hprog with hp | hp <;> rw [hp] <;> rfl
          obtain ⟨c, hc⟩ := h.context_of_inProgress hin
          have hde : deauthentication = true := by
            by_contra hn
            refine hgo ⟨?_, Or.inl hn⟩
            rcases hprog with hp | hp <;> rw [hp] <;> decide
          have hstep := SectionStep.ended hc
            ((hend c .rejected).mpr ⟨hde, (h.apHasAddress_iff hc).mp ha, rfl⟩)
          simpa only [hc, SectionResult.ended, Association.endAttempt, scheduleAssociationCleanup,
            reduceCtorEq, if_false] using hstep
        · next hprog =>
          have hs : a.state = .associated := by
            by_contra hn
            exact hgo ⟨hn, Or.inr hprog⟩
          obtain ⟨ap, hap, he⟩ := apHasAddress_iff.mp ha
          exact SectionStep.disconnected hs hap ((hdis ap).mpr he.symm)

/-- **The section for a message is one of the steps.** -/
theorem associationProcess_step (h : a.Consistent) (message : Message) :
    SectionStep a (.message message) (associationProcess a message) := by
  cases message with
  | authentication data => exact associationProcessAuthentication_step h data
  | response data => exact associationProcessResponse_step h data
  | deauthentication data =>
    refine associationProcessTeardown_step h (fun _ ha => by cases ha) ?_
      fun ap => ⟨fun hd => by cases hd; assumption, .deauthentication⟩
    intro c result
    constructor
    · intro he
      cases he with
      | tornDown address => exact ⟨rfl, address, rfl⟩
    · rintro ⟨-, address, rfl⟩
      exact .tornDown address
  | disassociation data =>
    refine associationProcessTeardown_step h (fun _ ha => by cases ha) ?_
      fun ap => ⟨fun hd => by cases hd; assumption, .disassociation⟩
    intro c result
    constructor
    · intro he
      cases he
    · rintro ⟨hd, -⟩
      cases hd

/-- The timeout of the phase that the current attempt is in ends the attempt. -/
theorem associationTimeout_current (h : a.Consistent) {c : AssociationContext}
    (hc : a.associationContext = some c) {kind : TimeoutKind} (hs : a.state = kind.expectedState) :
    associationTimeout a c kind.expectedState = .ended a c .timedOut := by
  have hguard : ¬ (a.associationContext ≠ some c ∨ a.ap = none ∨
      a.associationGeneration ≠ c.generation) := by
    rintro (hne | hne | hne)
    · exact hne hc
    · rw [h.context_ap c hc] at hne
      cases hne
    · exact hne (h.context_generation c hc)
  rw [associationTimeout, if_neg hguard, setDeviceState, if_pos hs]
  simp [SectionResult.ended, Association.endAttempt, scheduleAssociationCleanup]

/-- Any other timeout changes nothing. -/
theorem associationTimeout_other {c : AssociationContext} {kind : TimeoutKind}
    (hn : ¬ (a.associationContext = some c ∧ a.state = kind.expectedState)) :
    associationTimeout a c kind.expectedState = .unchanged a := by
  unfold associationTimeout
  split
  · rfl
  · next hg =>
    rw [not_or, Decidable.not_not] at hg
    rw [setDeviceState, if_neg fun hs => hn ⟨hg.1, hs⟩]

/-- **The section of a timeout is one of the steps.** -/
theorem associationTimeout_step (h : a.Consistent) (c : AssociationContext) (kind : TimeoutKind) :
    SectionStep a (.timeout c kind) (associationTimeout a c kind.expectedState) := by
  by_cases hcur : a.associationContext = some c ∧ a.state = kind.expectedState
  · obtain ⟨hc, hs⟩ := hcur
    rw [associationTimeout_current h hc hs]
    exact .ended hc (.expired hs)
  · rw [associationTimeout_other hcur]
    refine .unchanged ⟨fun _ _ _ ha => (by cases ha), ?_,
      fun _ _ _ hd => by cases hd⟩
    intro c' result hc he
    cases he with
    | expired hs => exact hcur ⟨hc, hs⟩

/-! ## Calls -/

/-- The attempt of the context has been started. -/
@[simps] def Association.install (a : Association) (context : AssociationContext) : Association :=
  { a with
    state := .authenticating
    receivedSequenceControl := 0
    receivedSequenceControlValid := false
    associationContext := some context
    associationResult := .unknownError
    ap := some context.ap }

/-- The device has left the access point. -/
@[simps] def Association.leave (a : Association) : Association :=
  { a with
    state := .down
    associationGeneration := a.associationGeneration + 1
    ap := none }

/-- When `u80211_associate` goes on, and what it installs. -/
theorem associate_eq_some {ap : AccessPoint} {id : Nat} {ies : List UInt8}
    {c : AssociationContext} (h : associate a ap id ies = some (c, a')) :
    a.associationCleanupPending = false ∧ a.state = .down ∧ c.id = id ∧ c.ap = ap ∧
      c.generation = a.associationGeneration ∧ a' = a.install c := by
  unfold associate at h
  split at h
  · cases h
  · next hp =>
    split at h
    · cases h
    · next a₁ hset =>
      obtain ⟨hs, rfl⟩ := setDeviceState_eq_some hset
      simp only [Option.some.injEq, Prod.mk.injEq] at h
      obtain ⟨rfl, rfl⟩ := h
      exact ⟨Bool.not_eq_true _ ▸ hp, hs, rfl, rfl, rfl, rfl⟩

/-- When `u80211_deauthenticate` goes on. -/
theorem deauthenticateFirst_eq_some {address : MacAddress}
    (h : deauthenticateFirst a = some (address, a')) :
    a.state = .associated ∧ a' = { a with state := .deauthenticating } := by
  unfold deauthenticateFirst at h
  split at h
  · cases h
  · split at h
    · cases h
    · next hs =>
      obtain ⟨a₁, hset, he⟩ := Option.map_eq_some_iff.mp h
      obtain ⟨hs, rfl⟩ := setDeviceState_eq_some hset
      rw [Prod.mk.injEq] at he
      exact ⟨hs, he.2.symm⟩

/-- The second section takes the access point only from a device that is leaving it. -/
theorem deauthenticateSecond_cases (a : Association) :
    (∃ ap, a.ap = some ap ∧ a.state = .deauthenticating ∧
      deauthenticateSecond a = (some ap, a.leave)) ∨
    (a.state = .deauthenticating → a.ap = none) ∧ deauthenticateSecond a = (none, a) := by
  unfold deauthenticateSecond
  cases hap : a.ap with
  | none => exact Or.inr ⟨fun _ => rfl, rfl⟩
  | some ap =>
    by_cases hs : a.state = .deauthenticating
    · refine Or.inl ⟨ap, rfl, hs, ?_⟩
      simp [hs, setDeviceState, Association.leave]
    · refine Or.inr ⟨fun h => absurd h hs, ?_⟩
      simp [hs]

/-- A caller gets the result at once, or enters the queue. -/
theorem waitForAssociationCompletion_cases (a : Association) (i : Nat) :
    (a.state.inProgress = false ∧ a.associationCleanupPending = false ∧
      waitForAssociationCompletion a i = (some a.associationResult, a)) ∨
    ((a.state.inProgress = true ∨ a.associationCleanupPending = true) ∧
      waitForAssociationCompletion a i =
        (none, { a with associationWaiters := a.associationWaiters ++ [i] })) := by
  unfold waitForAssociationCompletion
  by_cases hg : a.state ≠ .authenticating ∧ a.state ≠ .associating ∧ ¬ a.associationCleanupPending
  · obtain ⟨h1, h2, h3⟩ := hg
    refine Or.inl ⟨?_, Bool.not_eq_true _ ▸ h3, if_pos ⟨h1, h2, h3⟩⟩
    cases hs : a.state <;> simp_all [DeviceState.inProgress]
  · refine Or.inr ⟨?_, if_neg hg⟩
    by_contra hn
    rw [not_or] at hn
    refine hg ⟨fun hs => hn.1 ?_, fun hs => hn.1 ?_, hn.2⟩ <;> rw [hs] <;> rfl

/-- The filter for retransmissions touches only what it remembers. -/
theorem associationIsDuplicate_cases (a : Association) (header : HeaderDescription)
    (expectedState : DeviceState) :
    ∃ control valid, (associationIsDuplicate a header expectedState).2 =
      { a with receivedSequenceControl := control, receivedSequenceControlValid := valid } := by
  unfold associationIsDuplicate
  split
  · split
    · exact ⟨_, _, rfl⟩
    · exact ⟨_, _, rfl⟩
  · exact ⟨_, _, rfl⟩

/-! ## The sections keep the fields consistent -/

/-- The end of an attempt leaves the fields consistent. -/
theorem Association.Consistent.endAttempt (c : AssociationContext)
    (result : Status) : (a.endAttempt c result).Consistent where
  context_iff := by
    by_cases hr : result = .success <;> simp [Association.endAttempt, hr, DeviceState.inProgress]
  context_ap := fun _ h => by cases h
  context_generation := fun _ h => by cases h
  ap_connected := by
    by_cases hr : result = .success <;> simp [Association.endAttempt, hr]
  ap_idle := by
    by_cases hr : result = .success <;> simp [Association.endAttempt, hr]
  pending_iff := by simp [Association.endAttempt]
  pending_context := fun _ => rfl

/-- A disconnect keeps the fields consistent. -/
theorem Association.Consistent.disconnect (h : a.Consistent) (hs : a.state = .associated) :
    a.disconnect.Consistent where
  context_iff := by
    simp [Association.disconnect, DeviceState.inProgress, h.context_none (by rw [hs]; rfl)]
  context_ap := fun _ hc => (h.not_context (by rw [hs]; rfl) hc).elim
  context_generation := fun _ hc => (h.not_context (by rw [hs]; rfl) hc).elim
  ap_connected := by simp [Association.disconnect]
  ap_idle := fun _ => rfl
  pending_iff := h.pending_iff
  pending_context := h.pending_context

/-- **A section that handles a frame or a timeout keeps the fields consistent.** -/
theorem SectionStep.consistent {cause : Cause} {r : SectionResult} (h : a.Consistent)
    (hr : SectionStep a cause r) : r.association.Consistent := by
  cases hr with
  | unchanged _ => exact h
  | authenticated hc hs _ =>
    refine ⟨?_, h.context_ap, h.context_generation, ?_, ?_, h.pending_iff, h.pending_context⟩
    · simp [SectionResult.authenticated, DeviceState.inProgress, hc]
    · simp [SectionResult.authenticated]
    · simp [SectionResult.authenticated]
  | ended hc _ => exact .endAttempt _ _
  | disconnected hs _ _ => exact h.disconnect hs

/-- A new attempt keeps them consistent, when no cleanup is pending. -/
theorem Association.Consistent.install (h : a.Consistent) (hp : a.associationCleanupPending = false)
    {c : AssociationContext} (hg : c.generation = a.associationGeneration) :
    (a.install c).Consistent where
  context_iff := by simp [Association.install, DeviceState.inProgress]
  context_ap := fun c' hc => by
    rw [show a.install c = { a.install c with associationContext := some c } from rfl] at hc
    rw [← Option.some.inj hc]
    rfl
  context_generation := fun c' hc => by
    have he : c = c' := Option.some.inj hc
    rw [← he, hg]
    rfl
  ap_connected := by simp [Association.install]
  ap_idle := by simp [Association.install]
  pending_iff := h.pending_iff
  pending_context := fun hpt => by
    rw [show a.associationCleanupPending = true from hpt] at hp
    cases hp

/-- The end of a deauthentication keeps them consistent. -/
theorem Association.Consistent.leave (h : a.Consistent) (hs : a.state = .deauthenticating) :
    a.leave.Consistent where
  context_iff := by
    simp [Association.leave, DeviceState.inProgress, h.context_none (by rw [hs]; rfl)]
  context_ap := fun _ hc => (h.not_context (by rw [hs]; rfl) hc).elim
  context_generation := fun _ hc => (h.not_context (by rw [hs]; rfl) hc).elim
  ap_connected := by simp [Association.leave]
  ap_idle := fun _ => rfl
  pending_iff := h.pending_iff
  pending_context := h.pending_context

/-- A swap between two states with the same obligations. -/
theorem Association.Consistent.swap (h : a.Consistent) {state : DeviceState}
    (hp : state.inProgress = a.state.inProgress)
    (hi : state = .down ∨ state = .scanning → a.state = .down ∨ a.state = .scanning)
    (hc : state = .associated ∨ state = .deauthenticating →
      a.state = .associated ∨ a.state = .deauthenticating) :
    { a with state := state }.Consistent where
  context_iff := by rw [hp]; exact h.context_iff
  context_ap := h.context_ap
  context_generation := h.context_generation
  ap_connected := fun hs => h.ap_connected (hc hs)
  ap_idle := fun hs => h.ap_idle (hi hs)
  pending_iff := h.pending_iff
  pending_context := h.pending_context

/-- The last section of the cleanup keeps them consistent. -/
theorem Association.Consistent.cleanupSecond (h : a.Consistent) :
    (cleanupAssociationSecond a).2.2.Consistent where
  context_iff := h.context_iff
  context_ap := h.context_ap
  context_generation := h.context_generation
  ap_connected := h.ap_connected
  ap_idle := h.ap_idle
  pending_iff := by simp [cleanupAssociationSecond]
  pending_context := fun hp => by cases hp

end U80211
