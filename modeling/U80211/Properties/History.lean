import U80211.Properties.Contexts

/-!
# How the device becomes associated

* `Reachable.frames`: a message that is about to be processed comes from a received frame that has
  passed the checks of its handler and, if it has to, the duplicate filter
* `Run.phase`: while an attempt waits for the access point, the history of the run ends with the
  steps of that attempt
* `associated_by_handshake`: there is no shortcut into `U80211_DEVICE_STATE_ASSOCIATED`
-/

namespace U80211

open WorkQueue Memory

variable {s s' : System} {ownAddress : MacAddress}

/-! ## Received frames -/

theorem Effect.ownAddress_eq {action : Action} (he : Effect s action s') :
    s'.ownAddress = s.ownAddress := by
  cases he with
  | process hc hr => simp
  | timeout ho hw hr => simp
  | _ => rfl

theorem Reachable.ownAddress_eq (h : Reachable ownAddress s) : s.ownAddress = ownAddress := by
  refine Lts.Reachable.invariant (P := fun s => s.ownAddress = ownAddress) rfl ?_ h
  intro s action s' hr ih hs
  have hreach : Reachable ownAddress s := hr
  rw [(hreach.effect hs).ownAddress_eq, ih]

/-- The message that a received frame carries at a position. -/
def Call.message : Call → Option Message
  | .filter _ _ message => message
  | .process _ message => some message
  | _ => none

/-- The transition lets the frame pass the duplicate filter: the call that handles it goes on to
process the message. -/
structure PassesFilter (t : Transition) (frame : Frame)
    (expectedState : DeviceState) (message : Message) : Prop where
  call : ∃ i o, t.action = .advance i o ∧
    t.before.calls[i]? = some (.filter frame expectedState (some message)) ∧
    t.after.calls[i]? = some (.process frame message)
  fresh : (associationIsDuplicate t.before.association frame.header expectedState).1 = false

theorem PassesFilter.mem {t : Transition} {frame : Frame} {expectedState : DeviceState}
    {message : Message} (h : PassesFilter t frame expectedState message) :
    .filter frame expectedState (some message) ∈ t.before.calls := by
  obtain ⟨i, o, -, hcall, -⟩ := h.call
  exact List.mem_of_getElem? hcall

/-- Where a position with a message comes from. -/
theorem Effect.message_cases {action : Action} (he : Effect s action s') {call : Call}
    (h : call ∈ s'.calls) (hm : call.message ≠ none) :
    call ∈ s.calls ∨
      (∃ frame plan, processManagementPacket s.ownAddress frame.header frame.data = some plan ∧
        call = plan.next frame) ∨
      ∃ frame expectedState message, PassesFilter ⟨s, action, s'⟩ frame expectedState message ∧
        call = .process frame message := by
  have hset : ∀ {i : Nat} {c' : Call} {calls : List Call}, call ∈ calls.set i c' →
      c'.message = none → call ∈ calls := by
    intro i c' calls hmem hn
    rcases List.mem_or_eq_of_mem_set hmem with hmem | rfl
    · exact hmem
    · exact absurd hn hm
  cases he with
  | @invoke entry =>
    rcases List.mem_append.mp h with h | h
    · exact Or.inl h
    · rw [List.mem_singleton] at h
      subst h
      cases entry <;> exact absurd rfl hm
  | quiet hcall hq => exact Or.inl (hset h (by cases hq <;> rfl))
  | @receive i o frame plan hcall hp =>
    rcases List.mem_or_eq_of_mem_set h with h | h
    · exact Or.inl h
    · exact Or.inr (Or.inl ⟨frame, plan, hp, h⟩)
  | filter hcall hn =>
    rcases List.mem_or_eq_of_mem_set h with h | rfl
    · exact Or.inl h
    · rcases hn with rfl | ⟨m, rfl, rfl, hdup⟩
      · exact absurd rfl hm
      · have hlt := (List.getElem?_eq_some_iff.mp hcall).1
        refine Or.inr (Or.inr ⟨_, _, m, ⟨⟨_, _, rfl, hcall, ?_⟩, hdup⟩, rfl⟩)
        exact List.getElem?_set_self hlt
  | process hcall hr =>
    rw [System.setCall_calls, applySection_calls] at h
    exact Or.inl (hset h (by split <;> rfl))
  | timeout ho hw hr =>
    rw [System.setObjects_calls, applySection_calls] at h
    exact Or.inl h
  | cleanupSecond hw =>
    rcases mem_wake h with h | ⟨n, r, rfl⟩
    · exact Or.inl h
    · exact absurd rfl hm
  | takeDisconnected | releaseTaken | install | arm | deauthenticateFirst | deauthenticateSecond
  | deauthenticateRelease | answer | wait | woken | enqueueCleanup => exact Or.inl (hset h rfl)
  | _ => exact Or.inl h

/-- What is known of the frames that are being handled. -/
structure FrameInvariant (ownAddress : MacAddress) (τ : List Transition)
    (s : System) : Prop where
  filter : ∀ frame expectedState message, .filter frame expectedState (some message) ∈ s.calls →
    Checked ownAddress frame.header frame.data (.filter expectedState message)
  process : ∀ frame message, .process frame message ∈ s.calls →
    Checked ownAddress frame.header frame.data (.process message) ∨ ∃ expectedState,
      Checked ownAddress frame.header frame.data (.filter expectedState message) ∧
        ∃ t ∈ τ, PassesFilter t frame expectedState message

theorem Run.frames {τ : List Transition} (h : Run ownAddress τ s) :
    FrameInvariant ownAddress τ s := by
  refine h.history (P := FrameInvariant ownAddress) ⟨?_, ?_⟩ ?_
  · intro frame expectedState message hm
    cases hm
  · intro frame message hm
    cases hm
  intro τ s action s' hr ih hs
  have hreach : Reachable ownAddress s := hr.reachable
  have he := hreach.effect hs
  have hown := hreach.ownAddress_eq
  constructor
  · intro frame expectedState message hm
    rcases he.message_cases hm (Option.some_ne_none message) with
      hold | ⟨frame', plan, hp, heq⟩ | ⟨frame', st, m, -, heq⟩
    · exact ih.filter frame expectedState message hold
    · rw [hown] at hp
      cases plan with
      | filter st m => cases heq; exact processManagementPacket_checked hp
      | _ => cases heq
    · cases heq
  · intro frame message hm
    rcases he.message_cases hm (Option.some_ne_none message) with
      hold | ⟨frame', plan, hp, heq⟩ | ⟨frame', st, m, hf, heq⟩
    · rcases ih.process frame message hold with hc | ⟨st, hc, t, ht, hf⟩
      · exact Or.inl hc
      · exact Or.inr ⟨st, hc, t, List.mem_append_left _ ht, hf⟩
    · rw [hown] at hp
      cases plan with
      | process m => cases heq; exact Or.inl (processManagementPacket_checked hp)
      | _ => cases heq
    · cases heq
      exact Or.inr ⟨st, ih.filter frame st message hf.mem, _,
        List.mem_append_right _ (List.mem_singleton.mpr rfl), hf⟩

/-! ## The steps of an attempt -/

/-- The transition is the section of `u80211_associate` that starts the attempt of `c`. -/
structure Installs (t : Transition) (c : AssociationContext) : Prop where
  call : ∃ i o ies, t.action = .advance i o ∧
    t.before.calls[i]? = some (.associateCritical c.ap ies)
  down : t.before.association.state = .down
  state : t.after.association.state = .authenticating
  context : t.after.association.associationContext = some c
  ap : t.after.association.ap = some c.ap

/-- The transition leaves the attempt of `c` in its phase. -/
structure Stays (t : Transition) (c : AssociationContext) (state : DeviceState) :
    Prop where
  before : t.before.association.state = state ∧ t.before.association.associationContext = some c
  after : t.after.association.state = state ∧ t.after.association.associationContext = some c

/-- The transition processes, in the given phase of the attempt of `c`, a message of a frame that
the access point has sent to the device alone and that has passed the duplicate filter before. -/
structure Processes (ownAddress : MacAddress) (τ : List Transition)
    (t : Transition) (c : AssociationContext) (state : DeviceState)
    (frame : Frame) (message : Message) : Prop where
  call : ∃ i o, t.action = .advance i o ∧ t.before.calls[i]? = some (.process frame message)
  before : t.before.association.state = state ∧ t.before.association.associationContext = some c
  filtered : ∃ t' ∈ τ, PassesFilter t' frame state message
  address1 : frame.header.address1 = ownAddress
  address2 : frame.header.address2 = c.ap.macAddress
  address3 : frame.header.address3 = c.ap.macAddress

/-- The transition processes an authentication frame with the open-system algorithm, transaction 2
and status 0, and the attempt of `c` goes on to its second phase. -/
structure AcceptsAuthentication (ownAddress : MacAddress)
    (τ : List Transition) (t : Transition)
    (c : AssociationContext) : Prop where
  frame : ∃ frame data,
    Processes ownAddress τ t c .authenticating frame (.authentication data) ∧
      frameControlGetSubtype frame.header.frameControl = frameControlSubtypeAuthentication ∧
      deserializeLe16 frame.data 0 = some authAlgorithmOpen ∧
      deserializeLe16 frame.data 2 = some 2 ∧ deserializeLe16 frame.data 4 = some 0
  after : t.after.association.state = .associating ∧
    t.after.association.associationContext = some c

/-- The transition processes an association response with status 0, and the device is associated
with the access point of `c`. -/
structure AcceptsResponse (ownAddress : MacAddress) (τ : List Transition)
    (t : Transition) (c : AssociationContext) : Prop where
  frame : ∃ frame data,
    Processes ownAddress τ t c .associating frame (.response data) ∧
      frameControlGetSubtype frame.header.frameControl = frameControlSubtypeAssociationResponse ∧
      deserializeLe16 frame.data 2 = some 0
  after : t.after.association.state = .associated ∧ t.after.association.ap = some c.ap

/-- The history ends with the first phase of the attempt of `c`. -/
def Authenticating (τ : List Transition) (c : AssociationContext) : Prop :=
  ∃ τ₀ t τ₁, τ = τ₀ ++ t :: τ₁ ∧ Installs t c ∧ ∀ t' ∈ τ₁, Stays t' c .authenticating

/-- The history ends with both phases of the attempt of `c`. -/
def Associating (ownAddress : MacAddress) (τ : List Transition)
    (c : AssociationContext) : Prop :=
  ∃ τ₁ t τ₂, τ = τ₁ ++ t :: τ₂ ∧ Authenticating τ₁ c ∧ AcceptsAuthentication ownAddress τ₁ t c ∧
    ∀ t' ∈ τ₂, Stays t' c .associating

theorem forall_stays_append {τ : List Transition}
    {t : Transition} {c : AssociationContext} {state : DeviceState}
    (h : ∀ t' ∈ τ, Stays t' c state) (ht : Stays t c state) :
    ∀ t' ∈ τ ++ [t], Stays t' c state := by
  intro t' ht'
  rcases List.mem_append.mp ht' with ht' | ht'
  · exact h t' ht'
  · rw [List.mem_singleton] at ht'
    exact ht' ▸ ht

theorem Authenticating.snoc {τ : List Transition}
    {t : Transition} {c : AssociationContext} (h : Authenticating τ c)
    (ht : Stays t c .authenticating) : Authenticating (τ ++ [t]) c := by
  obtain ⟨τ₀, t₀, τ₁, rfl, hi, hs⟩ := h
  exact ⟨τ₀, t₀, τ₁ ++ [t], by simp, hi, forall_stays_append hs ht⟩

theorem Associating.snoc {τ : List Transition}
    {t : Transition} {c : AssociationContext} (h : Associating ownAddress τ c)
    (ht : Stays t c .associating) : Associating ownAddress (τ ++ [t]) c := by
  obtain ⟨τ₁, t₁, τ₂, rfl, hau, hac, hs⟩ := h
  exact ⟨τ₁, t₁, τ₂ ++ [t], by simp, hau, hac, forall_stays_append hs ht⟩

/-- An attempt that goes on after a step stays in its phase, has just been started, or has just been
accepted by the access point. -/
theorem Effect.attempt_step (hc : s.association.Consistent) {action : Action}
    (he : Effect s action s') {c : AssociationContext}
    (h : s'.association.associationContext = some c) :
    Stays ⟨s, action, s'⟩ c s'.association.state ∨ Installs ⟨s, action, s'⟩ c ∨
      ∃ i o frame data, action = .advance i o ∧
        s.calls[i]? = some (.process frame (.authentication data)) ∧
        s.association.associationContext = some c ∧ s.association.state = .authenticating ∧
        Authenticates c.ap (.message (.authentication data)) ∧
        s'.association.state = .associating := by
  have hstays : s'.association.state = s.association.state →
      s.association.associationContext = some c →
      Stays ⟨s, action, s'⟩ c s'.association.state :=
    fun hst hcx => ⟨⟨hst.symm, hcx⟩, rfl, h⟩
  have hidle : s.association.state.inProgress = false →
      s.association.associationContext ≠ some c := by
    intro hst
    exact hc.not_context hst
  cases he with
  | @install i o ies context hcall hp hs hid hg =>
    have heq : context = c := Option.some.inj h
    subst heq
    exact Or.inr (Or.inl ⟨⟨i, o, ies, rfl, hcall⟩, hs, rfl, h, rfl⟩)
  | @process i o frame message r hcall hr =>
    cases hr with
    | unchanged _ => exact Or.inl (hstays rfl h)
    | @authenticated context hcx hs ha =>
      have heq : context = c := by
        rw [show s.association.associationContext = some c from h] at hcx
        exact (Option.some.inj hcx).symm
      subst heq
      cases message with
      | authentication data =>
        exact Or.inr (Or.inr ⟨i, o, frame, data, rfl, hcall, hcx, hs, ha, rfl⟩)
      | _ => cases ha
    | ended _ _ => cases h
    | disconnected hs _ _ => exact absurd h (hidle (by rw [hs]; rfl))
  | timeout ho hw hr =>
    cases hr with
    | unchanged _ => exact Or.inl (hstays rfl h)
    | authenticated _ _ ha => cases ha
    | ended _ _ => cases h
    | disconnected _ _ hd => cases hd
  | deauthenticateFirst _ hs | deauthenticateSecond _ hs | scanBegin hs | scanEnd hs =>
    exact absurd h (hidle (by rw [hs]; rfl))
  | _ => exact Or.inl (hstays rfl h)

/-- A message that passes the guards of its section has been filtered and comes from a unicast
frame of the access point. -/
theorem FrameInvariant.authentication {τ : List Transition}
    (h : FrameInvariant ownAddress τ s) {frame : Frame} {data : AuthData}
    (hm : .process frame (.authentication data) ∈ s.calls) {ap : AccessPoint}
    (ha : Authenticates ap (.message (.authentication data))) :
    (∃ t ∈ τ, PassesFilter t frame .authenticating (.authentication data)) ∧
      (frame.header.address1 = ownAddress ∧ frame.header.address2 = ap.macAddress ∧
        frame.header.address3 = ap.macAddress) ∧
      frameControlGetSubtype frame.header.frameControl = frameControlSubtypeAuthentication ∧
      deserializeLe16 frame.data 0 = some authAlgorithmOpen ∧
      deserializeLe16 frame.data 2 = some 2 ∧ deserializeLe16 frame.data 4 = some 0 := by
  rcases h.process frame _ hm with hc | ⟨st, hc, hf⟩
  · cases hc
  · cases hc with
    | authentication hsub hdev haddr halg htr hst =>
      cases ha with
      | accepted haddr' halg' htr' hst' =>
        obtain ⟨h23, h1⟩ := managementPacketForDevice_iff.mp hdev
        have h3 : frame.header.address3 = ap.macAddress := by rw [← haddr, haddr']
        exact ⟨hf, ⟨h1, h23.trans h3, h3⟩, hsub, by rw [halg, halg'], by rw [htr, htr'],
          by rw [hst, hst']⟩

theorem FrameInvariant.response {τ : List Transition}
    (h : FrameInvariant ownAddress τ s) {frame : Frame} {data : AssociationResponseData}
    (hm : .process frame (.response data) ∈ s.calls) {ap : AccessPoint}
    (ha : data.address = ap.macAddress) (hs : data.status = 0) :
    (∃ t ∈ τ, PassesFilter t frame .associating (.response data)) ∧
      (frame.header.address1 = ownAddress ∧ frame.header.address2 = ap.macAddress ∧
        frame.header.address3 = ap.macAddress) ∧
      frameControlGetSubtype frame.header.frameControl = frameControlSubtypeAssociationResponse ∧
      deserializeLe16 frame.data 2 = some 0 := by
  rcases h.process frame _ hm with hc | ⟨st, hc, hf⟩
  · cases hc
  · cases hc with
    | response hsub hdev haddr hst =>
      obtain ⟨h23, h1⟩ := managementPacketForDevice_iff.mp hdev
      have h3 : frame.header.address3 = ap.macAddress := by rw [← haddr, ha]
      exact ⟨hf, ⟨h1, h23.trans h3, h3⟩, hsub, by rw [hst, hs]⟩

/-- Where the history of a run stands in the current attempt. -/
structure PhaseInvariant (ownAddress : MacAddress) (τ : List Transition)
    (s : System) : Prop where
  authenticating : ∀ c, s.association.associationContext = some c →
    s.association.state = .authenticating → Authenticating τ c
  associating : ∀ c, s.association.associationContext = some c →
    s.association.state = .associating → Associating ownAddress τ c

theorem Run.phase {τ : List Transition} (h : Run ownAddress τ s) :
    PhaseInvariant ownAddress τ s := by
  refine h.history (P := PhaseInvariant ownAddress) ⟨?_, ?_⟩ ?_
  · intro c hcx
    cases hcx
  · intro c hcx
    cases hcx
  intro τ s action s' hr ih hs
  have hreach : Reachable ownAddress s := hr.reachable
  have he := hreach.effect hs
  -- the step stays in the phase, installs the context, or accepts the authentication
  constructor
  · intro c hcx hst
    rcases he.attempt_step hreach.consistent hcx with
      hstays | hinst | ⟨i, o, frame, data, -, -, -, -, -, hst'⟩
    · rw [hst] at hstays
      exact (ih.authenticating c hstays.before.2 hstays.before.1).snoc hstays
    · exact ⟨τ, _, [], rfl, hinst, fun t' ht' => (List.not_mem_nil ht').elim⟩
    · rw [hst] at hst'
      cases hst'
  · intro c hcx hst
    rcases he.attempt_step hreach.consistent hcx with
      hstays | hinst | ⟨i, o, frame, data, rfl, hcall, hold, hold', ha, -⟩
    · rw [hst] at hstays
      exact (ih.associating c hstays.before.2 hstays.before.1).snoc hstays
    · rw [show s'.association.state = .authenticating from hinst.state] at hst
      cases hst
    · have hm := List.mem_of_getElem? hcall
      obtain ⟨hf, ⟨h1, h2, h3⟩, hdata⟩ := (Run.frames hr).authentication hm ha
      have hproc : Processes ownAddress τ ⟨s, .advance i o, s'⟩ c .authenticating frame
          (.authentication data) := ⟨⟨i, o, rfl, hcall⟩, ⟨hold', hold⟩, hf, h1, h2, h3⟩
      exact ⟨τ, _, [], rfl, ih.authenticating c hold hold', ⟨⟨frame, data, hproc, hdata⟩, hst, hcx⟩,
        fun t' ht' => (List.not_mem_nil ht').elim⟩

/-- A step that associates the device processes an association response. -/
theorem Effect.associates {action : Action} (he : Effect s action s')
    (h : s.association.state ≠ .associated) (h' : s'.association.state = .associated) :
    ∃ i o frame data c, action = .advance i o ∧
      s.calls[i]? = some (.process frame (.response data)) ∧
      s.association.associationContext = some c ∧ s.association.state = .associating ∧
      data.address = c.ap.macAddress ∧ data.status = 0 ∧ s'.association.ap = some c.ap := by
  cases he with
  | @process i o frame message r hcall hr =>
    cases hr with
    | ended hcx hend =>
      cases hend with
      | accepted hst haddr hs =>
        exact ⟨i, o, frame, _, _, rfl, hcall, hcx, hst, haddr, hs, rfl⟩
      | refused => cases h'
      | declined => cases h'
      | tornDown => cases h'
    | unchanged _ => exact absurd h' h
    | authenticated _ _ _ => cases h'
    | disconnected _ _ _ => cases h'
  | timeout ho hw hr =>
    cases hr with
    | ended hcx hend => cases hend; cases h'
    | unchanged _ => exact absurd h' h
    | authenticated _ _ _ => cases h'
    | disconnected _ _ _ => cases h'
  | install | deauthenticateFirst | deauthenticateSecond | scanBegin | scanEnd => cases h'
  | _ => exact absurd h' h

/-! ## No shortcut -/

/-- A transition that associates the device ends the handshake of an attempt. -/
theorem Run.handshake {τ : List Transition} {t : Transition} (hr : Run ownAddress τ t.before)
    (hs : step t.action t.before = some t.after) (hb : t.before.association.state ≠ .associated)
    (ha : t.after.association.state = .associated) :
    ∃ c, t.after.association.ap = some c.ap ∧ Associating ownAddress τ c ∧
      AcceptsResponse ownAddress τ t c := by
  have hreach : Reachable ownAddress t.before := hr.reachable
  obtain ⟨i, o, frame, data, c, hact, hcall, hcx, hst, haddr, hstatus, hap⟩ :=
    (hreach.effect hs).associates hb ha
  have hm := List.mem_of_getElem? hcall
  obtain ⟨hf, ⟨h1, h2, h3⟩, hdata⟩ := (Run.frames hr).response hm haddr hstatus
  have hproc : Processes ownAddress τ t c .associating frame (.response data) :=
    ⟨⟨i, o, hact, hcall⟩, ⟨hst, hcx⟩, hf, h1, h2, h3⟩
  exact ⟨c, hap, (Run.phase hr).associating c hcx hst, ⟨⟨frame, data, hproc, hdata⟩, ha, hap⟩⟩

/-- A section that runs while no attempt is in progress and the device is not associated changes
nothing. -/
theorem associationProcess_of_idle {a : Association} (hc : a.Consistent)
    (hst : a.state = .down ∨ a.state = .scanning ∨ a.state = .deauthenticating)
    (message : Message) : (associationProcess a message).association = a := by
  have hcx : a.associationContext = none :=
    hc.context_none (by rcases hst with hst | hst | hst <;> rw [hst] <;> rfl)
  have hsec := associationProcess_step hc message
  generalize associationProcess a message = r at hsec
  cases hsec with
  | unchanged _ => rfl
  | authenticated h _ _ =>
    rw [hcx] at h
    cases h
  | ended h _ =>
    rw [hcx] at h
    cases h
  | disconnected hs' _ _ =>
    rw [hs'] at hst
    simp at hst

/-- A frame that the filter drops leaves the filter's own fields alone, too. -/
theorem associationIsDuplicate_of_dropped {a : Association} {header : HeaderDescription}
    {expectedState : DeviceState} (h : (associationIsDuplicate a header expectedState).1 = true) :
    associationIsDuplicate a header expectedState = (true, a) := by
  unfold associationIsDuplicate at h ⊢
  split
  · next hactive =>
    rw [if_pos hactive] at h
    split
    · rfl
    · next hn =>
      rw [if_neg hn] at h
      cases h
  · next hn =>
    rw [if_neg hn] at h
    cases h

/-- **There is no shortcut into `U80211_DEVICE_STATE_ASSOCIATED`.** In every run:
* a transition that associates the device does so with the access point of an attempt, and processes
  its association response; the history before it ends with the steps of that attempt, which are the
  section of `u80211_associate`, the processing of one authentication frame, and steps that leave
  the phase alone
* a frame whose section runs while the device is down, scanning or deauthenticating changes nothing
* a frame that the duplicate filter recognizes is dropped and changes nothing -/
theorem associated_by_handshake {τ : List Transition}
    (h : Run ownAddress τ s) :
    (∀ τ₁ t τ₂, τ = τ₁ ++ t :: τ₂ → t.before.association.state ≠ .associated →
      t.after.association.state = .associated →
      ∃ c, t.after.association.ap = some c.ap ∧ Associating ownAddress τ₁ c ∧
        AcceptsResponse ownAddress τ₁ t c) ∧
    (∀ t ∈ τ, ∀ i o frame message, t.action = .advance i o →
      t.before.calls[i]? = some (.process frame message) →
      (t.before.association.state = .down ∨ t.before.association.state = .scanning ∨
        t.before.association.state = .deauthenticating) →
      t.after.association = t.before.association) ∧
    ∀ t ∈ τ, ∀ i o frame expectedState message, t.action = .advance i o →
      t.before.calls[i]? = some (.filter frame expectedState message) →
      (associationIsDuplicate t.before.association frame.header expectedState).1 = true →
      t.after.calls[i]? = some .handled ∧ t.after.association = t.before.association := by
  refine ⟨?_, ?_, ?_⟩
  · intro τ₁ t τ₂ heq hb ha
    obtain ⟨hr, hs⟩ := h.split heq
    exact Run.handshake hr hs hb ha
  · intro t ht i o frame message hact hcall hst
    obtain ⟨hr, hs⟩ := h.of_mem t ht
    have hreach : Reachable ownAddress t.before := hr
    rw [hact] at hs
    simp only [step, hcall, stepCall, Option.some.injEq] at hs
    rw [← hs]
    simp only [System.setCall_association, applySection_association]
    exact associationProcess_of_idle hreach.consistent hst message
  · intro t ht i o frame st message hact hcall hdup
    obtain ⟨-, hs⟩ := h.of_mem t ht
    have hlt := (List.getElem?_eq_some_iff.mp hcall).1
    rw [hact] at hs
    simp only [step, hcall, stepCall, associationIsDuplicate_of_dropped hdup,
      Option.some.injEq] at hs
    rw [← hs]
    refine ⟨?_, rfl⟩
    cases message <;> exact List.getElem?_set_self hlt

open Scenario in
theorem associated_by_handshake_accepted :
    ∃ τ₁ t τ₂ c, Scenario.trace (join 0 2 ++ accept 1 2 0) = τ₁ ++ t :: τ₂ ∧
      t.after.association.state = .associated ∧ AcceptsResponse device τ₁ t c := by
  have hmem : ∃ t ∈ trace (join 0 2 ++ accept 1 2 0),
      t.before.association.state ≠ .associated ∧ t.after.association.state = .associated := by
    decide
  have hrun : ((run (join 0 2 ++ accept 1 2 0)).map fun s => s.nextContext) = some 1 := by decide
  obtain ⟨s, hs, -⟩ := exists_of_run hrun
  obtain ⟨t, ht, hb, ha⟩ := hmem
  obtain ⟨τ₁, τ₂, heq⟩ := List.append_of_mem ht
  obtain ⟨c, -, -, hacc⟩ := (associated_by_handshake (run_trace hs)).1 τ₁ t τ₂ heq hb ha
  exact ⟨τ₁, t, τ₂, c, heq, ha, hacc⟩

end U80211
