import U80211.Properties.Contexts
import U80211.Properties.ScanOwner

/-!
# The channel of the radio

A scan and an attempt to associate claim the device by a change of its state, and tune the radio
later. A scan does not end before it has tuned the radio for the last time, but an attempt may: then
its `set_channel` hits a radio that belongs to somebody else.

* `tuned_iff`: the radio stays where the owner of the device needs it exactly in the runs without
  such a step
* `radio_stays_tuned`: then a scan receives on its channel and an attempt sends on its own
* `radio_retuned`: runs in which they do not
-/

namespace U80211

open WorkQueue

variable {s s' : System}

/-- A call that is about to send its authentication request was so before, or has just tuned the
radio. -/
theorem Effect.send_cases {action : Action} (he : Effect s action s')
    {context : AssociationContext} (h : Call.associateSend context ∈ s'.calls) :
    Call.associateSend context ∈ s.calls ∨
      ∃ i o, action = .advance i o ∧ s.calls[i]? = some (.associateSetChannel context) := by
  -- a call that steps to another position is not the one looked at
  have hset {i : Nat} {c : Call} {calls : List Call}
      (hm : Call.associateSend context ∈ calls.set i c) (hc : c ≠ .associateSend context) :
      Call.associateSend context ∈ calls := by
    rcases List.mem_or_eq_of_mem_set hm with hm | he
    · exact hm
    · exact absurd he.symm hc
  cases he with
  | @invoke entry =>
    rcases List.mem_append.mp h with h | h
    · exact Or.inl h
    · rw [List.mem_singleton] at h
      have hattempt := entry.start_attempt
      rw [← h] at hattempt
      cases hattempt
  | @quiet i o c c' hcall hq =>
    rcases List.mem_or_eq_of_mem_set h with h | he
    · exact Or.inl h
    · subst he
      cases hq with
      | setChannel => exact Or.inr ⟨i, o, rfl, hcall⟩
  | @receive _ _ frame plan hcall hp =>
    exact Or.inl (hset h (by cases plan <;> simp [ManagementPlan.next]))
  | filter hcall hn =>
    refine Or.inl (hset h ?_)
    rcases hn with rfl | ⟨m, -, rfl, -⟩ <;> simp
  | process hcall hr =>
    rw [System.setCall_calls, applySection_calls] at h
    exact Or.inl (hset h (by split <;> simp))
  | timeout ho hw hr =>
    rw [System.setObjects_calls, applySection_calls] at h
    exact Or.inl h
  | cleanupSecond hw =>
    rcases mem_wake h with h | ⟨n, r, he⟩
    · exact Or.inl h
    · cases he
  | takeDisconnected | releaseTaken | install | arm | deauthenticateFirst | deauthenticateSecond
  | deauthenticateRelease | answer | wait | woken | enqueueCleanup =>
    exact Or.inl (hset h (by simp))
  | _ => exact Or.inl h

namespace Machine

variable {m m' : Machine} {w : Option Owner} {event : Event} {own : MacAddress}

/-! ## What the radio is needed for -/

/-- The scan has tuned the radio to its channel, and goes on listening there. -/
def Listens (m : Machine) (k : Nat) (o : ScanState) : Prop :=
  o.receiving = true ∨ o.work.work.running = some (.listen .receive) ∨
    ∃ i : Nat, m.scanCalls[i]? = some (.scanListen k .receive)

/-- The radio is on the channel of the scan that listens, and of the attempt that is about to send
its authentication request. -/
structure Tuned (m : Machine) : Prop where
  scan : ∀ k o, m.scanStates k = some o → m.Listens k o → m.radio = some o.currentChannel
  attempt : ∀ context, Call.associateSend context ∈ m.system.calls →
    m.system.association.associationContext = some context →
    m.radio = some context.ap.channel.toNat

/-- The owner of the device has tuned the radio, and needs it on that channel. -/
def RadioInUse (m : Machine) : Prop :=
  (∃ k o, m.scanStates k = some o ∧ m.Listens k o) ∨
    ∃ context, m.system.association.associationContext = some context ∧
      Call.associateSend context ∈ m.system.calls

/-- The step is `set_channel` of a call to `u80211_associate` whose attempt has ended, and takes the
radio away from the channel that the owner of the device needs. -/
def Retunes (t : Transition) : Prop :=
  ∃ i outcome context, t.action = .association (.advance i outcome) ∧
    t.before.system.calls[i]? = some (.associateSetChannel context) ∧
    t.before.system.association.associationContext ≠ some context ∧ t.before.RadioInUse ∧
    t.before.radio ≠ some context.ap.channel.toNat

theorem Fits.of_listens (h : m.Fits w) {k : Nat} {o : ScanState} (ho : m.scanStates k = some o)
    (hl : m.Listens k o) : ∃ x, w = some x ∧ x.scan = k := by
  rcases hl with hr | hr | ⟨i, hc⟩
  · obtain ⟨x, hx, hk, -⟩ := h.of_receiving ho hr
    exact ⟨x, hx, hk⟩
  · exact ⟨_, h.of_running ho hr, rfl⟩
  · exact ⟨_, (h.calls i k _ rfl).mp hc, rfl⟩

/-- While a scan has the device no attempt is current. -/
theorem Fits.context_none (h : m.Fits w) (hc : m.system.association.Consistent) (hw : w ≠ none) :
    m.system.association.associationContext = none := by
  refine hc.context_none ?_
  rw [h.state.mpr hw]
  rfl

/-! ## Steps -/

/-- A step of a scan that stays on its channel. -/
theorem Tuned.setScanState (h : m.Tuned) {k : Nat} {o o' : ScanState}
    (ho : m.scanStates k = some o) (hcalls : m'.system.calls = m.system.calls)
    (hcontext : m'.system.association.associationContext =
      m.system.association.associationContext)
    (hstates : m'.scanStates = Function.update m.scanStates k (some o'))
    (hradio : m'.radio = m.radio)
    (hlisten : ∀ i k : Nat, m'.scanCalls[i]? = some (.scanListen k .receive) →
      m.scanCalls[i]? = some (.scanListen k .receive))
    (hown : m'.Listens k o' → m.Listens k o ∧ o'.currentChannel = o.currentChannel) :
    m'.Tuned where
  scan := by
    intro k' o₁ ho₁ hl
    rw [hradio]
    by_cases hk : k' = k
    · subst hk
      rw [hstates, Function.update_self, Option.some.injEq] at ho₁
      subst ho₁
      obtain ⟨hl, hchannel⟩ := hown hl
      rw [hchannel]
      exact h.scan k' o ho hl
    · rw [hstates, Function.update_of_ne hk] at ho₁
      refine h.scan k' o₁ ho₁ (hl.imp_right (Or.imp_right ?_))
      rintro ⟨i, hi⟩
      exact ⟨i, hlisten i k' hi⟩
  attempt := by
    rw [hcalls, hcontext, hradio]
    exact h.attempt

/-- A step that has nothing to do with the radio. -/
theorem Tuned.frame (h : m.Tuned) (hcalls : m'.system.calls = m.system.calls)
    (hcontext : m'.system.association.associationContext =
      m.system.association.associationContext)
    (hstates : m'.scanStates = m.scanStates) (hradio : m'.radio = m.radio)
    (hlisten : ∀ i k : Nat, m'.scanCalls[i]? = some (.scanListen k .receive) →
      m.scanCalls[i]? = some (.scanListen k .receive)) : m'.Tuned where
  scan := by
    intro k o ho hl
    rw [hstates] at ho
    rw [hradio]
    refine h.scan k o ho (hl.imp_right (Or.imp_right ?_))
    rintro ⟨i, hi⟩
    exact ⟨i, hlisten i k hi⟩
  attempt := by
    rw [hcalls, hcontext, hradio]
    exact h.attempt

/-- `scan_work` goes on at a position where it does not need the radio for the next line. -/
theorem Tuned.goto (h : m.Tuned) {k : Nat} {o o' : ScanState}
    (ho : m.scanStates k = some o) (hsystem : m'.system = m.system)
    (hstates : m'.scanStates = Function.update m.scanStates k (some o'))
    (hradio : m'.radio = m.radio) (hcalls : m'.scanCalls = m.scanCalls)
    (hreceiving : o'.receiving = true → o.receiving = true)
    (hchannel : o'.currentChannel = o.currentChannel)
    (hrunning : o'.work.work.running ≠ some (.listen .receive)) : m'.Tuned := by
  refine h.setScanState ho (by rw [hsystem]) (by rw [hsystem]) hstates hradio
    (fun i k hi => hcalls ▸ hi) fun hl => ⟨?_, hchannel⟩
  rcases hl with hr | hr | ⟨i, hi⟩
  · exact Or.inl (hreceiving hr)
  · exact absurd hr hrunning
  · exact Or.inr (Or.inr ⟨i, hcalls ▸ hi⟩)

/-- The owner of the device tunes the radio. -/
theorem Tuned.tune (hw : m.Fits w) (hc : m.system.association.Consistent) {k : Nat}
    {o' : ScanState} {x : Owner} (hx : w = some x) (hk : x.scan = k)
    (hsystem : m'.system = m.system)
    (hstates : m'.scanStates = Function.update m.scanStates k (some o'))
    (hradio : m'.radio = some o'.currentChannel)
    (hlisten : ∀ i k' : Nat, k' ≠ k → m'.scanCalls[i]? = some (.scanListen k' .receive) →
      m.scanCalls[i]? = some (.scanListen k' .receive)) : m'.Tuned where
  scan := by
    intro k' o₁ ho₁ hl
    by_cases hk' : k' = k
    · subst hk'
      rw [hstates, Function.update_self, Option.some.injEq] at ho₁
      rw [← ho₁, hradio]
    · -- nobody else listens
      rw [hstates, Function.update_of_ne hk'] at ho₁
      have hold : m.Listens k' o₁ := by
        refine hl.imp_right (Or.imp_right ?_)
        rintro ⟨i, hi⟩
        exact ⟨i, hlisten i k' hk' hi⟩
      obtain ⟨y, hy, hyk⟩ := hw.of_listens ho₁ hold
      rw [hx, Option.some.injEq] at hy
      subst hy
      exact absurd (hyk.symm.trans hk) hk'
  attempt := by
    intro context _ hcontext
    rw [hsystem, hw.context_none hc (hx ▸ Option.some_ne_none _)] at hcontext
    cases hcontext

/-- A step of the association leaves the radio where its owner needs it, unless it is that of an
attempt that has ended. -/
theorem Tuned.association (h : m.Tuned) (hw : m.Fits w) (hr : U80211.Reachable own m.system)
    {action : Action} {system : System} (hs : U80211.step action m.system = some system)
    (hq : ¬ Retunes ⟨m, .association action, m'⟩) (hsystem : m'.system = system)
    (hstates : m'.scanStates = m.scanStates)
    (hradio : m'.radio = (m.system.tunes action).or m.radio)
    (hlisten : ∀ i k : Nat, m'.scanCalls[i]? = some (.scanListen k .receive) →
      m.scanCalls[i]? = some (.scanListen k .receive)) : m'.Tuned := by
  have he := U80211.Reachable.effect hr hs
  have hc := hr.consistent
  -- the radio is tuned anew by the attempt that is current, or not at all
  have htunes : m'.radio = m.radio ∨ (¬ m.RadioInUse) ∨
      ∃ context, m.system.association.associationContext = some context ∧
        m'.radio = some context.ap.channel.toNat := by
    cases hch : m.system.tunes action with
    | none => exact Or.inl (by rw [hradio, hch]; rfl)
    | some ch =>
      unfold System.tunes at hch
      split at hch
      · next i outcome =>
        split at hch
        · next context hcall =>
          cases hch
          by_cases hcurrent : m.system.association.associationContext = some context
          · refine Or.inr (Or.inr ⟨context, hcurrent, ?_⟩)
            rw [hradio, System.tunes, hcall]
            rfl
          · by_cases huse : m.RadioInUse
            · by_cases hch : m.radio = some context.ap.channel.toNat
              · refine Or.inl ?_
                rw [hradio, System.tunes, hcall, hch]
                rfl
              · exact absurd ⟨i, outcome, context, rfl, hcall, hcurrent, huse, hch⟩ hq
            · exact Or.inr (Or.inl huse)
        · cases hch
      · cases hch
  refine ⟨?_, ?_⟩
  · intro k o ho hl
    rw [hstates] at ho
    have hold : m.Listens k o := by
      refine hl.imp_right (Or.imp_right ?_)
      rintro ⟨i, hi⟩
      exact ⟨i, hlisten i k hi⟩
    rcases htunes with hsame | huse | ⟨context, hcurrent, -⟩
    · rw [hsame]
      exact h.scan k o ho hold
    · exact absurd (Or.inl ⟨k, o, ho, hold⟩) huse
    · obtain ⟨x, hx, -⟩ := hw.of_listens ho hold
      rw [hw.context_none hc (hx ▸ Option.some_ne_none _)] at hcurrent
      cases hcurrent
  · intro context hcall hcurrent
    rw [hsystem] at hcall hcurrent
    have hsend := he.send_cases hcall
    -- the attempt is not one that this step has begun
    have hold : m.system.association.associationContext = some context := by
      rcases he.context_cases hcurrent with hold | ⟨hid, -⟩
      · exact hold
      · have hcalled : ∃ c ∈ m.system.calls, c.attempt = some context := by
          rcases hsend with hsend | ⟨i, outcome, -, hsend⟩
          · exact ⟨_, hsend, rfl⟩
          · exact ⟨_, List.mem_of_getElem? hsend, rfl⟩
        obtain ⟨c, hcm, hca⟩ := hcalled
        obtain ⟨o, ho, -⟩ := hr.contexts.call c hcm context hca
        have hlt := (hr.contexts.id _ o ho).2
        omega
    rcases hsend with hsend | ⟨i, outcome, rfl, hsend⟩
    · rcases htunes with hsame | huse | ⟨context', hcurrent', hch⟩
      · rw [hsame]
        exact h.attempt context hsend hold
      · exact absurd (Or.inr ⟨context, hold, hsend⟩) huse
      · rw [hold, Option.some.injEq] at hcurrent'
        rw [hch, hcurrent']
    · rw [hradio, System.tunes, hsend]
      rfl

/-- Calls at the line in question are not new where a call steps to another position. -/
theorem listen_of_set {calls : List ScanCall} {i : Nat} {c c' : ScanCall} (hc : calls[i]? = some c)
    (hne : ∀ k, c' ≠ .scanListen k .receive) (j k : Nat)
    (hj : (calls.set i c')[j]? = some (.scanListen k .receive)) :
    calls[j]? = some (.scanListen k .receive) := by
  rw [getElem?_set_of hc] at hj
  split at hj
  · exact absurd hj (hne k)
  · exact hj

theorem SameScans.listen {calls calls' : List ScanCall} (h : SameScans calls calls') (i k : Nat)
    (hi : calls'[i]? = some (.scanListen k .receive)) :
    calls[i]? = some (.scanListen k .receive) :=
  (h i _ (by simp [ScanCall.scan])).mp hi

/-- The lines of `u80211_scan` from `set_channel` on. -/
theorem Tuned.listenCall (h : m.Tuned) (hw : m.Fits w) (hc : m.system.association.Consistent)
    {i k : Nat} {line : Listen} {o : ScanState}
    (hcall : m.scanCalls[i]? = some (.scanListen k line)) (ho : m.scanStates k = some o) :
    ((m.listen k o line).setScanCall i
      (match line.next with
      | none => .returned .success
      | some line => .scanListen k line)).Tuned := by
  cases line with
  | setChannel =>
    refine .tune hw hc ((hw.calls i k _ rfl).mp hcall) rfl rfl rfl rfl ?_
    intro j k' hk' hj
    rw [setScanCall_scanCalls] at hj
    change (m.scanCalls.set i (.scanListen k .receive))[j]? = _ at hj
    rw [getElem?_set_of hcall] at hj
    split at hj
    · cases hj
      exact absurd rfl hk'
    · exact hj
  | receive =>
    refine h.setScanState ho rfl rfl rfl rfl (listen_of_set hcall (by simp [Listen.next])) ?_
    intro _
    exact ⟨Or.inr (Or.inr ⟨i, hcall⟩), rfl⟩
  | sendProbe =>
    refine h.setScanState ho rfl rfl rfl rfl (listen_of_set hcall (by simp [Listen.next])) ?_
    intro hl
    refine ⟨hl.imp_right (Or.imp_right ?_), rfl⟩
    rintro ⟨j, hj⟩
    exact ⟨j, listen_of_set hcall (by simp [Listen.next]) j k hj⟩
  | arm =>
    refine h.setScanState ho rfl rfl rfl rfl (listen_of_set hcall (by simp [Listen.next])) ?_
    intro hl
    refine ⟨hl.imp_right (Or.imp ?_ ?_), rfl⟩
    · intro hr
      rwa [show ((o.listen .arm).work.work.running) = _ from DelayedWork.enqueue_running _] at hr
    · rintro ⟨j, hj⟩
      exact ⟨j, listen_of_set hcall (by simp [Listen.next]) j k hj⟩

/-- The same lines of `scan_work`. -/
theorem Tuned.listenWork (h : m.Tuned) (hw : m.Fits w) (hc : m.system.association.Consistent)
    {k : Nat} {line : Listen} {o : ScanState} (ho : m.scanStates k = some o)
    (hrun : o.work.work.running = some (.listen line)) :
    (m.listen k (o.goto (line.next.map .listen)) line).Tuned := by
  cases line with
  | setChannel =>
    exact .tune hw hc (hw.of_running ho hrun) rfl rfl rfl rfl fun _ _ _ hj => hj
  | receive =>
    exact h.setScanState ho rfl rfl rfl rfl (fun _ _ hi => hi)
      fun _ => ⟨Or.inr (Or.inl hrun), rfl⟩
  | sendProbe => exact h.goto ho rfl rfl rfl rfl id rfl (by simp [ScanState.listen, Listen.next])
  | arm =>
    refine h.goto ho rfl rfl rfl rfl id rfl ?_
    simp only [ScanState.listen]
    rw [DelayedWork.enqueue_running]
    exact Option.some_ne_none _ |>.symm

/-- **Every step keeps the radio where its owner needs it, unless it is that of an attempt that has
ended.** -/
theorem Effect.tuned (h : m.Tuned) (hw : m.Fits w) (hr : U80211.Reachable own m.system)
    (he : Effect m event m') (hq : ¬ Retunes ⟨m, event, m'⟩) : m'.Tuned := by
  have hc := hr.consistent
  cases he with
  | @association action system cache ha hs hcount =>
    refine h.association hw hr hs hq rfl rfl rfl (SameScans.listen (.append fun c hc => ?_))
    obtain ⟨beacon, -, rfl⟩ := List.mem_map.mp hc
    rfl
  | cache ha hs => exact h.frame rfl rfl rfl rfl fun _ _ hi => hi
  | @invoke entry =>
    refine h.frame rfl rfl rfl rfl (SameScans.listen (.append fun c hc => ?_))
    rw [List.mem_singleton] at hc
    subst hc
    cases entry <;> rfl
  | quiet hcall hquiet =>
    exact h.frame rfl rfl rfl rfl (SameScans.listen (.set hcall hquiet.scan.1 hquiet.scan.2))
  | @allocate i channel _ buffer hcall hb hn =>
    refine ⟨?_, h.attempt⟩
    intro k o ho hl
    rw [setScanCall_scanStates, setScanState_scanStates] at ho
    by_cases hk : k = m.nextScanState
    · -- nobody listens with a new state
      subst hk
      rw [Function.update_self, Option.some.injEq] at ho
      subst ho
      obtain hr | hr | ⟨j, hj⟩ := hl
      · cases hr
      · cases hr
      · have hj := listen_of_set hcall (by simp) j _ hj
        obtain ⟨o, ho, -⟩ := hw.own _ ((hw.calls j _ _ rfl).mp hj)
        exact absurd (hw.fresh _ o ho) (lt_irrefl _)
    · rw [Function.update_of_ne hk] at ho
      refine h.scan k o ho (hl.imp_right (Or.imp_right ?_))
      rintro ⟨j, hj⟩
      exact ⟨j, listen_of_set hcall (by simp) j k hj⟩
  | claim hcall hs => exact h.frame rfl rfl rfl rfl (listen_of_set hcall (by simp))
  | busy hcall ho hs =>
    refine h.setScanState ho rfl rfl rfl rfl (listen_of_set hcall (by simp)) fun hl => ⟨?_, rfl⟩
    refine hl.imp_right (Or.imp_right ?_)
    rintro ⟨j, hj⟩
    exact ⟨j, listen_of_set hcall (by simp) j _ hj⟩
  | publish hcall => exact h.frame rfl rfl rfl rfl (listen_of_set hcall (by simp))
  | purge hcall hp => exact h.frame rfl rfl rfl rfl (listen_of_set hcall (by simp))
  | listenCall hcall ho => exact h.listenCall hw hc hcall ho
  | wait hcall hs => exact h.frame rfl rfl rfl rfl (listen_of_set hcall (by simp))
  | response hcall hx ho hresponse =>
    obtain ⟨buffer, rfl⟩ := ScanState.processResponse_cases hresponse
    refine h.setScanState ho rfl rfl rfl rfl (listen_of_set hcall (by simp)) fun hl => ⟨?_, rfl⟩
    refine hl.imp_right (Or.imp_right ?_)
    rintro ⟨j, hj⟩
    exact ⟨j, listen_of_set hcall (by simp) j _ hj⟩
  | expire ho hwork =>
    obtain ⟨-, rfl⟩ := DelayedWork.expire_eq_some hwork
    exact h.setScanState ho rfl rfl rfl rfl (fun _ _ hi => hi) fun hl => ⟨hl, rfl⟩
  | startWork ho hwork =>
    obtain ⟨-, -, -, rfl⟩ := DelayedWork.start_eq_some hwork
    exact h.goto ho rfl rfl rfl rfl id rfl (by simp)
  | stop ho hrun => exact h.goto ho rfl rfl rfl rfl (by simp) rfl (by simp)
  | drain ho hrun hd =>
    obtain ⟨⟨buffer, rfl⟩, hpc⟩ := ScanState.drain_cases hd
    refine h.goto ho rfl rfl rfl rfl id rfl ?_
    rcases hpc with ⟨beacon, rsnSize, rfl⟩ | hl
    · simp
    · rcases ScanState.leaveDrain_cases hl with rfl | ⟨channel, rfl⟩ <;> simp
  | pass ho hrun hp =>
    cases hp with
    | short hread hl =>
      obtain ⟨buffer, rfl⟩ := ScanState.readRsn_cases hread
      refine h.goto ho rfl rfl rfl rfl id rfl ?_
      rcases ScanState.leaveDrain_cases hl with rfl | ⟨channel, rfl⟩ <;> simp
    | skipped hread | enomem hread ha =>
      obtain ⟨buffer, rfl⟩ := ScanState.readRsn_cases hread
      exact h.goto ho rfl rfl rfl rfl id rfl (by simp)
  | allocateAp ho hrun hread ha hn =>
    obtain ⟨buffer, rfl⟩ := ScanState.readRsn_cases hread
    exact h.goto ho rfl rfl rfl rfl id rfl (by simp)
  | insert ho hrun hi => exact h.goto ho rfl rfl rfl rfl id rfl (by simp)
  | release ho hrun hrel => exact h.goto ho rfl rfl rfl rfl id rfl (by simp)
  | setCurrent ho hrun =>
    -- the scan does not listen while it changes its channel
    refine h.setScanState ho rfl rfl rfl rfl (fun _ _ hi => hi) fun hl => ?_
    have hx := hw.of_running ho hrun
    rcases hl with hrec | hrun' | ⟨i, hi⟩
    · obtain ⟨x, hx', -, hxr⟩ := hw.of_receiving ho hrec
      rw [hx, Option.some.injEq] at hx'
      subst hx'
      cases hxr
    · cases hrun'
    · have hx' := (hw.calls i _ _ rfl).mp hi
      rw [hx] at hx'
      cases hx'
  | listenWork ho hrun => exact h.listenWork hw hc ho hrun
  | complete ho hrun => exact h.goto ho rfl rfl rfl rfl id rfl (by simp)
  | enqueueCleanup ho hrun => exact h.goto ho rfl rfl rfl rfl id rfl (by simp)
  | startCleanup hwork => exact h.frame rfl rfl rfl rfl fun _ _ hi => hi
  | destroy hrun ho hd =>
    refine h.setScanState ho rfl rfl rfl rfl (fun _ _ hi => hi) fun hl => ?_
    cases hd with
    | timer =>
      refine ⟨hl.imp_right (Or.imp_left fun hr => ?_), rfl⟩
      rwa [DelayedWork.freeTimer_running] at hr
    | work hf =>
      obtain ⟨-, rfl⟩ := DelayedWork.freeWork_eq_some hf
      refine ⟨hl.imp_right (Or.imp_left fun hr => ?_), rfl⟩
      cases hr
    | buffer => exact ⟨hl, rfl⟩
    | state => exact ⟨hl, rfl⟩
  | last hrun hs =>
    cases hs
    refine h.frame rfl ?_ rfl rfl (SameScans.wake _ _).listen
    unfold setDeviceState
    split <;> rfl

/-- A call that has been overtaken takes the radio away from its owner. -/
theorem Retunes.not_tuned (h : m.Tuned) (hs : step event m = some m')
    (hq : Retunes ⟨m, event, m'⟩) : ¬ m'.Tuned := by
  intro h'
  obtain ⟨i, outcome, context, rfl, hcall, hcurrent, huse, hradio⟩ := hq
  cases step_effect hs with
  | @association _ system cache ha hsystem hcount =>
    have htuned : (m.system.tunes (.advance i outcome)).or m.radio =
        some context.ap.channel.toNat := by
      simp only [System.tunes, hcall]
      rfl
    have hstep : U80211.stepCall m.system i outcome (.associateSetChannel context) =
        some system := by
      simpa only [U80211.step, hcall] using hsystem
    cases hstep
    rcases huse with ⟨k, o, ho, hl⟩ | ⟨context', hcontext', hsend⟩
    · -- the scan listens as before
      have hl' := h'.scan k o ho (hl.imp_right (Or.imp_right ?_))
      · rw [h.scan k o ho hl] at hradio
        exact hradio (hl'.symm.trans htuned)
      · rintro ⟨j, hj⟩
        exact ⟨j, (List.getElem?_append_left (List.getElem?_eq_some_iff.mp hj).1).trans hj⟩
    · rw [h.attempt context' hsend hcontext'] at hradio
      refine hradio ((h'.attempt context' ?_ hcontext').symm.trans htuned)
      obtain ⟨j, hj⟩ := List.getElem?_of_mem hsend
      have hne : i ≠ j := by
        rintro rfl
        rw [hcall] at hj
        cases hj
      exact List.mem_of_getElem? ((List.getElem?_set_ne hne).trans hj)

/-- **The radio stays where the owner of the device needs it exactly in the runs in which no call to
`u80211_associate` takes it away after its attempt has ended.** -/
theorem tuned_iff {ρ : List Transition} (h : Run own ρ m) :
    (∀ t ∈ ρ, t.after.Tuned) ↔ ∀ t ∈ ρ, ¬ Retunes t := by
  refine Lts.Run.forall_after_iff (P := Tuned) (Q := fun t => ¬ Retunes t) ?_ ?_ h
  · refine ⟨fun k o ho => ?_, fun context hm => ?_⟩
    · cases ho
    · cases hm
  · intro m event m' hr htuned hs
    obtain ⟨w, hw⟩ := Reachable.owner hr
    constructor
    · intro h' hq
      exact hq.not_tuned htuned hs h'
    · exact (step_effect hs).tuned htuned hw (Reachable.system hr)

/-- **In a run in which no call to `u80211_associate` takes the radio away after its attempt has
ended, a scan receives on its channel, and an attempt sends on its own.** -/
theorem radio_stays_tuned {ρ : List Transition} (h : Run own ρ m) (hq : ∀ t ∈ ρ, ¬ Retunes t) :
    (∀ k o, m.scanStates k = some o → o.receiving = true → m.radio = some o.currentChannel) ∧
    ∀ t ∈ ρ, ∀ i outcome context, t.action = .association (.advance i outcome) →
      t.before.system.calls[i]? = some (.associateSend context) →
      t.before.system.association.associationContext = some context →
      t.before.radio = some context.ap.channel.toNat := by
  have hinit : (registered own).Tuned := by
    refine ⟨fun k o ho => ?_, fun context hm => ?_⟩
    · cases ho
    · cases hm
  have htuned := (tuned_iff h).mpr hq
  refine ⟨fun k o ho hr => ?_, ?_⟩
  · rcases Lts.Run.after_or_init h with rfl | ⟨t, ht, rfl⟩
    · cases ho
    · exact (htuned t ht).scan k o ho (Or.inl hr)
  · intro t ht i outcome context _ hcall hcontext
    obtain ⟨τ, τ', rfl⟩ := List.append_of_mem ht
    obtain ⟨hr, -⟩ := Lts.Run.split h rfl
    refine Tuned.attempt ?_ context (List.mem_of_getElem? hcall) hcontext
    rcases Lts.Run.after_or_init hr with he | ⟨t', ht', he⟩
    · rw [he]
      exact hinit
    · rw [he]
      exact htuned t' (List.mem_append_left _ ht')

namespace Scenario

/-- The access point on another channel. -/
def otherChannel : AccessPoint := { U80211.Scenario.accessPoint 3 with channel := 11 }

/-- An attempt ends before `set_channel`, by a frame of its access point. -/
def overtaken : List Event :=
  allocate (U80211.Scenario.accessPoint 2) ++
    associations (.invoke (.associate (U80211.Scenario.accessPoint 2) []) ::
      U80211.Scenario.advance 0 4 ++
      U80211.Scenario.receive 1 (U80211.Scenario.deauthentication 2))

/-- Call `i` sets the channel. -/
def setChannel (i : Nat) : List Event := associations (U80211.Scenario.advance i 1)

/-- A scan receives on channel 1 by then. -/
def overtakenByScan : List Event :=
  overtaken ++ .invoke .scan :: advance 0 6 ++ setChannel 0

/-- Another attempt has tuned the radio by then. -/
def overtakenByAttempt : List Event :=
  overtaken ++ associations U80211.Scenario.cleanup ++ allocate otherChannel ++
    associations (.invoke (.associate otherChannel []) :: U80211.Scenario.advance 2 5) ++
    setChannel 0

/-- The event is a step of an association. -/
def ofAssociation : Event → Bool
  | .association _ => true
  | _ => false

end Scenario

open Machine.Scenario in
theorem radio_stays_tuned_scan :
    ∃ m, Scenario.run (.invoke .scan :: advance 0 6) = some m ∧
      (∃ o, m.scanStates 0 = some o ∧ o.receiving = true ∧ m.radio = some o.currentChannel) := by
  have hrun : (run (.invoke .scan :: advance 0 6)).map
      (fun m => (m.scanStates 0).map (·.receiving)) = some (some true) := by decide
  obtain ⟨m, hm, he⟩ := exists_of_run hrun
  obtain ⟨o, ho, hr⟩ := Option.map_eq_some_iff.mp he
  have hquiet : ∀ t ∈ trace (.invoke .scan :: advance 0 6), ¬ Retunes t := by
    rintro t ht ⟨i, outcome, context, haction, -⟩
    -- no step of the run is one of an association
    have hscan : ∀ t ∈ trace (.invoke .scan :: advance 0 6), ofAssociation t.action = false := by
      decide
    have hfalse := hscan t ht
    rw [haction] at hfalse
    cases hfalse
  exact ⟨m, hm, o, ho, hr, (radio_stays_tuned (run_trace hm) hquiet).1 0 o ho hr⟩

open Machine.Scenario in
/-- **The radio is taken away from a scan that receives, and from an attempt before it sends.** -/
theorem radio_retuned :
    (∃ m, Scenario.run overtakenByScan = some m ∧ Reachable U80211.Scenario.device m ∧
      ∃ o, m.scanStates 0 = some o ∧ o.receiving = true ∧ o.currentChannel = 1 ∧
        m.radio = some 6) ∧
    ∃ m, Scenario.run overtakenByAttempt = some m ∧ Reachable U80211.Scenario.device m ∧
      ∃ context, m.system.calls[2]? = some (.associateSend context) ∧
        m.system.association.associationContext = some context ∧ context.ap.channel = 11 ∧
        m.radio = some 6 := by
  constructor
  · have hrun : (run overtakenByScan).map
        (fun m => ((m.scanStates 0).map fun o => (o.receiving, o.currentChannel), m.radio)) =
          some (some (true, 1), some 6) := by decide
    obtain ⟨m, hm, he⟩ := exists_of_run hrun
    rw [Prod.mk.injEq] at he
    obtain ⟨o, ho, hstate⟩ := Option.map_eq_some_iff.mp he.1
    rw [Prod.mk.injEq] at hstate
    exact ⟨m, hm, (run_trace hm).reachable, o, ho, hstate.1, hstate.2, he.2⟩
  · have hrun : (run overtakenByAttempt).map
        (fun m => (m.system.calls[2]?, m.system.association.associationContext, m.radio)) =
          some (some (.associateSend ⟨1, 1, otherChannel, []⟩), some ⟨1, 1, otherChannel, []⟩,
            some 6) := by decide
    obtain ⟨m, hm, he⟩ := exists_of_run hrun
    simp only [Prod.mk.injEq] at he
    exact ⟨m, hm, (run_trace hm).reachable, _, he.1, he.2.1, rfl, he.2.2⟩

end Machine

end U80211
