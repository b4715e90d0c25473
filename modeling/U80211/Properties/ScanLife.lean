import U80211.Properties.ScanOwner

/-!
# The life of a scan, and its waiters

* `Effect.waiterStep`: what a step does to `scan_waiters` and the calls in it
* `Run.waiters`: a call is in the list exactly while it waits, and the scan that it was put there
  during is still under way
* `scan_life_cycle`: what the owner of the device means for `scan_context`, the scan states, the
  ring buffer, the waiters and the associations
-/

namespace U80211

open WorkQueue

/-- The position is one of a waiter, or the end of a call. -/
def ScanCall.Settled (c : ScanCall) : Prop :=
  (∃ semaphore, c = .waiting semaphore) ∨ ∃ status, c = .returned status

/-- `scan_work` is in its loop. -/
def ScanPc.drains : ScanPc → Bool
  | .drain | .readRsn _ _ | .insert _ | .release _ => true
  | _ => false

namespace Machine

variable {m m' : Machine} {event : Event} {own : MacAddress}

/-! ## Signals -/

theorem signal_getElem? {calls : List ScanCall} {waiter n : Nat}
    (hw : calls[waiter]? = some (.waiting n)) (i : Nat) :
    (signal calls waiter)[i]? = if i = waiter then some (.waiting (n + 1)) else calls[i]? := by
  have hlt := (List.getElem?_eq_some_iff.mp hw).1
  unfold signal
  rw [hw]
  by_cases hi : i = waiter
  · subst hi
    rw [if_pos rfl]
    exact List.getElem?_set_self hlt
  · rw [if_neg hi]
    exact List.getElem?_set_ne (Ne.symm hi)

/-- `wake_scan_waiters` signals every waiter once. -/
theorem wake_getElem? {waiters : List Nat} {calls : List ScanCall} (hnd : waiters.Nodup)
    (hw : ∀ w ∈ waiters, calls[w]? = some (.waiting 0)) (i : Nat) :
    (wakeScanWaiters calls waiters)[i]? =
      if i ∈ waiters then some (.waiting 1) else calls[i]? := by
  induction waiters generalizing calls with
  | nil => simp [wakeScanWaiters]
  | cons w ws ih =>
    obtain ⟨hnot, hnd⟩ := List.nodup_cons.mp hnd
    have hsig := signal_getElem? (hw w List.mem_cons_self)
    have hws : ∀ w' ∈ ws, (signal calls w)[w']? = some (.waiting 0) := by
      intro w' hw'
      have hne : w' ≠ w := fun he => hnot (he ▸ hw')
      rw [hsig, if_neg hne]
      exact hw w' (List.mem_cons_of_mem _ hw')
    refine (ih hnd hws).trans ?_
    by_cases hi : i = w
    · subst hi
      rw [if_neg hnot, hsig, if_pos rfl, if_pos List.mem_cons_self]
    · rw [hsig, if_neg hi]
      simp [hi]

/-! ## What a step does to the waiters -/

/-- What a step does to the waiters and their calls. -/
inductive WaiterStep (m : Machine) (event : Event) (m' : Machine) : Prop
  /-- nothing -/
  | other (hw : m'.scanWaiters = m.scanWaiters)
      (hwait : ∀ (i n : Nat),
        m'.scanCalls[i]? = some (.waiting n) ↔ m.scanCalls[i]? = some (.waiting n))
      (hret : ∀ (i : Nat) (status : Status),
        m.scanCalls[i]? = some (.returned status) → m'.scanCalls[i]? = some (.returned status))
  /-- call `i` goes on the list -/
  | wait {i : Nat} (hc : m.scanCalls[i]? = some .waitCritical)
      (hs : m.system.association.state = .scanning) (hw : m'.scanWaiters = m.scanWaiters ++ [i])
      (hcalls : m'.scanCalls = m.scanCalls.set i (.waiting 0))
  /-- a call that has been signalled returns -/
  | woken {i n : Nat} (hc : m.scanCalls[i]? = some (.waiting n)) (hn : n ≠ 0)
      (hw : m'.scanWaiters = m.scanWaiters)
      (hcalls : m'.scanCalls = m.scanCalls.set i (.returned .success))
  /-- the cleanup wakes all waiters -/
  | wake {k : Nat} (hevent : event = .advanceCleanup)
      (hrun : m.scanCleanupWork.running = some (.last k)) (hw : m'.scanWaiters = [])
      (hcalls : m'.scanCalls = wakeScanWaiters m.scanCalls m.scanWaiters)

/-- A call moves that is no waiter. -/
theorem WaiterStep.ofSet {i : Nat} {c c' : ScanCall} (hc : m.scanCalls[i]? = some c)
    (hold : ¬ c.Settled) (hnew : ∀ n, c' ≠ .waiting n) (hw : m'.scanWaiters = m.scanWaiters)
    (hcalls : m'.scanCalls = m.scanCalls.set i c') : WaiterStep m event m' := by
  refine .other hw ?_ ?_
  · intro j n
    rw [hcalls, getElem?_set_of hc]
    by_cases hj : j = i
    · subst hj
      rw [if_pos rfl, hc, Option.some.injEq]
      exact iff_of_false (hnew n) fun he => hold (Or.inl ⟨n, he⟩)
    · rw [if_neg hj]
  · intro j status hj
    rw [hcalls, getElem?_set_of hc]
    by_cases hji : j = i
    · subst hji
      rw [hc, Option.some.injEq] at hj
      exact absurd (Or.inr ⟨status, hj⟩) hold
    · rw [if_neg hji, hj]

/-- Calls are added that wait for nothing. -/
theorem WaiterStep.ofAppend {added : List ScanCall} (hnew : ∀ c ∈ added, ∀ n, c ≠ .waiting n)
    (hw : m'.scanWaiters = m.scanWaiters) (hcalls : m'.scanCalls = m.scanCalls ++ added) :
    WaiterStep m event m' := by
  refine .other hw ?_ ?_
  · intro i n
    rw [hcalls, List.getElem?_append]
    split
    · rfl
    · next hi =>
      rw [List.getElem?_eq_none (Nat.le_of_not_lt hi)]
      refine iff_of_false (fun he => ?_) (by simp)
      exact hnew _ (List.mem_of_getElem? he) n rfl
  · intro i status hi
    rw [hcalls, List.getElem?_append_left (List.getElem?_eq_some_iff.mp hi).1, hi]

theorem Effect.waiterStep (he : Effect m event m') : WaiterStep m event m' := by
  cases he with
  | association ha hs hc =>
    refine .ofAppend ?_ rfl rfl
    intro c hc n
    obtain ⟨beacon, -, rfl⟩ := List.mem_map.mp hc
    simp
  | @invoke entry =>
    refine .ofAppend ?_ rfl rfl
    intro c hc n
    rw [List.mem_singleton] at hc
    subst hc
    cases entry <;> simp [ScanEntry.start]
  | @quiet i _ c c' hc hq =>
    cases hq with
    | woken hn => exact .woken hc hn rfl rfl
    | _ => exact .ofSet hc (by simp [ScanCall.Settled]) (by simp) rfl rfl
  | wait hc hs => exact .wait hc hs rfl rfl
  | @listenCall i k _ line o hc ho =>
    refine .ofSet hc (by simp [ScanCall.Settled]) ?_ rfl rfl
    intro n
    cases line <;> simp [Listen.next]
  | allocate hc | claim hc | busy hc | publish hc | purge hc | response hc =>
    exact .ofSet hc (by simp [ScanCall.Settled]) (by simp) rfl rfl
  | last hw hs => exact .wake rfl hw rfl rfl
  | _ => exact .other rfl (fun _ _ => Iff.rfl) fun _ _ h => h

/-- The step signals the semaphore of call `i`. -/
def Signals (t : Transition) (i : Nat) : Prop :=
  ∃ n, t.before.scanCalls[i]? = some (.waiting n) ∧
    t.after.scanCalls[i]? = some (.waiting (n + 1))

/-- The step puts call `i` on `scan_waiters`, during scan `k`. -/
def Queues (t : Transition) (i k : Nat) : Prop :=
  t.before.scanCalls[i]? = some .waitCritical ∧ i ∈ t.after.scanWaiters ∧ t.before.Outstanding k

/-- Only the last step of `cleanup_scan` ends a scan, and it empties the list. -/
theorem Turn.waiters {w : Option Owner} {x : Owner} (ht : Turn m event w none) (hw : w = some x)
    (hf : m.Fits w) (he : Effect m event m') :
    ∃ k, x = .cleanup (.last k) ∧ m'.scanWaiters = [] := by
  subst hw
  cases ht with
  | stays hx => cases hx
  | @ends k =>
    have hrun := hf.cleanup.running
    refine ⟨k, rfl, ?_⟩
    cases he with
    | destroy hw ho hd =>
      rw [hw] at hrun
      cases hrun
      cases hd
    | last => rfl

/-- A scan that is under way goes on, or its last step empties the list of the waiters. -/
theorem Effect.outstanding {w : Option Owner} (hf : m.Fits w)
    (hr : U80211.Reachable own m.system) (he : Effect m event m') {k : Nat}
    (hk : m.Outstanding k) : m'.Outstanding k ∨ m'.scanWaiters = [] := by
  obtain ⟨w', hf', ht⟩ := he.fits hf hr
  obtain ⟨x, hw, hx⟩ := hf.outstanding_iff.mp hk
  cases w' with
  | none =>
    obtain ⟨-, -, hnil⟩ := ht.waiters hw hf he
    exact Or.inr hnil
  | some x' =>
    refine Or.inl (hf'.outstanding_iff.mpr ⟨x', rfl, ?_⟩)
    subst hw
    cases ht with
    | stays h => exact (Option.some.inj h).trans hx

/-- The call has been signalled, or has returned. -/
def Signalled (m : Machine) (i : Nat) : Prop :=
  m.scanCalls[i]? = some (.waiting 1) ∨ ∃ status, m.scanCalls[i]? = some (.returned status)

/-- What holds of the waiters after a run. -/
structure WaiterInvariant (τ : List Transition) (m : Machine) : Prop where
  nodup : m.scanWaiters.Nodup
  listed : ∀ i ∈ m.scanWaiters, m.scanCalls[i]? = some (.waiting 0)
  waiting : ∀ i n : Nat, m.scanCalls[i]? = some (.waiting n) →
    n = 0 ∧ i ∈ m.scanWaiters ∨ n = 1 ∧ i ∉ m.scanWaiters
  queued : ∀ i ∈ m.scanWaiters, ∃ k, m.Outstanding k ∧ ∃ t ∈ τ, Queues t i k
  signalled : ∀ t ∈ τ, ∀ i, Signals t i → Signalled m i

/-- A call that has been signalled is no longer in the list. -/
theorem WaiterInvariant.not_mem {τ : List Transition} (h : WaiterInvariant τ m) {i : Nat}
    (hi : Signalled m i) : i ∉ m.scanWaiters := by
  intro hm
  have hlisted := h.listed i hm
  rcases hi with hi | ⟨status, hi⟩ <;> rw [hi] at hlisted <;> cases hlisted

/-- The step signals the calls in the list, when `cleanup_scan` wakes them, and no other ones. -/
theorem WaiterInvariant.signals {τ : List Transition} (h : WaiterInvariant τ m)
    (hs : WaiterStep m event m') {i : Nat} (hi : Signals ⟨m, event, m'⟩ i) :
    i ∈ m.scanWaiters ∧ event = .advanceCleanup ∧
      ∃ k, m.scanCleanupWork.running = some (.last k) := by
  obtain ⟨n, hbefore, hafter⟩ := hi
  dsimp only at hbefore hafter
  cases hs with
  | other hw hwait hret =>
    rw [hwait] at hafter
    rw [hbefore] at hafter
    simp at hafter
  | wait hc hst hw hcalls =>
    rw [hcalls, getElem?_set_of hc] at hafter
    split at hafter
    · cases hafter
    · rw [hbefore] at hafter
      simp at hafter
  | woken hc hn hw hcalls =>
    rw [hcalls, getElem?_set_of hc] at hafter
    split at hafter
    · cases hafter
    · rw [hbefore] at hafter
      simp at hafter
  | @wake k hevent hrun hw hcalls =>
    refine ⟨?_, hevent, k, hrun⟩
    by_contra hnot
    rw [hcalls, wake_getElem? h.nodup h.listed, if_neg hnot, hbefore] at hafter
    simp at hafter

theorem WaiterInvariant.signalled_step {τ : List Transition} (h : WaiterInvariant τ m)
    (hs : WaiterStep m event m') {i : Nat} (hi : Signalled m i) : Signalled m' i := by
  have hnot := h.not_mem hi
  cases hs with
  | other hw hwait hret =>
    rcases hi with hi | ⟨status, hi⟩
    · exact Or.inl ((hwait i 1).mpr hi)
    · exact Or.inr ⟨status, hret i status hi⟩
  | @wait j hc hst hw hcalls =>
    have hne : i ≠ j := by
      rintro rfl
      rcases hi with hi | ⟨status, hi⟩ <;> rw [hc] at hi <;> cases hi
    rw [Signalled, hcalls, List.getElem?_set_ne (Ne.symm hne)]
    exact hi
  | @woken j n hc hn hw hcalls =>
    by_cases hij : i = j
    · refine Or.inr ⟨.success, ?_⟩
      rw [hcalls, getElem?_set_of hc, if_pos hij]
    · rw [Signalled, hcalls, List.getElem?_set_ne (Ne.symm hij)]
      exact hi
  | wake hevent hrun hw hcalls =>
    rw [Signalled, hcalls, wake_getElem? h.nodup h.listed, if_neg hnot]
    exact hi

theorem WaiterInvariant.step {τ : List Transition} (h : WaiterInvariant τ m)
    (hs : WaiterStep m event m')
    (hout : ∀ k, m.Outstanding k → m'.Outstanding k ∨ m'.scanWaiters = [])
    (hscanning : m.system.association.state = .scanning → ∃ k, m.Outstanding k) :
    WaiterInvariant (τ ++ [⟨m, event, m'⟩]) m' := by
  have hkept : ∀ i ∈ m.scanWaiters, i ∈ m'.scanWaiters →
      ∃ k, m'.Outstanding k ∧ ∃ t ∈ τ ++ [⟨m, event, m'⟩], Queues t i k := by
    intro i hi hi'
    obtain ⟨k, hk, t, ht, hq⟩ := h.queued i hi
    rcases hout k hk with hk' | hnil
    · exact ⟨k, hk', t, List.mem_append_left _ ht, hq⟩
    · rw [hnil] at hi'
      cases hi'
  have hsignalled : ∀ t ∈ τ ++ [⟨m, event, m'⟩], ∀ i, Signals t i → Signalled m' i := by
    intro t ht i hi
    rcases List.mem_append.mp ht with ht | ht
    · exact h.signalled_step hs (h.signalled t ht i hi)
    · rw [List.mem_singleton] at ht
      subst ht
      have hlisted := h.listed i (h.signals hs hi).1
      obtain ⟨n, hbefore, hafter⟩ := hi
      rw [hlisted, Option.some.injEq, ScanCall.waiting.injEq] at hbefore
      subst hbefore
      exact Or.inl hafter
  cases hs with
  | other hw hwait hret =>
    refine ⟨hw ▸ h.nodup, ?_, ?_, ?_, ?_⟩
    · intro i hi
      rw [hw] at hi
      exact (hwait i 0).mpr (h.listed i hi)
    · intro i n hi
      rw [hw]
      exact h.waiting i n ((hwait i n).mp hi)
    · intro i hi
      exact hkept i (hw ▸ hi) hi
    · exact hsignalled
  | @wait i hc hst hw hcalls =>
    have hnot : i ∉ m.scanWaiters := by
      intro hi
      have hlisted := h.listed i hi
      rw [hc] at hlisted
      cases hlisted
    have hset := getElem?_set_of hc (.waiting 0)
    refine ⟨?_, ?_, ?_, ?_, ?_⟩
    · rw [hw, List.nodup_append]
      refine ⟨h.nodup, by simp, ?_⟩
      rintro a ha b hb rfl
      rw [List.mem_singleton] at hb
      exact hnot (hb ▸ ha)
    · intro j hj
      rw [hcalls, hset]
      rw [hw, List.mem_append, List.mem_singleton] at hj
      by_cases hji : j = i
      · rw [if_pos hji]
      · rw [if_neg hji]
        exact h.listed j (hj.resolve_right hji)
    · intro j n hj
      rw [hcalls, hset] at hj
      rw [hw, List.mem_append, List.mem_singleton]
      by_cases hji : j = i
      · rw [if_pos hji, ScanCall.waiting.injEq] at hj
        exact Or.inl ⟨hj.symm, Or.inr hji⟩
      · rw [if_neg hji] at hj
        simpa [hji] using h.waiting j n hj
    · intro j hj
      have hj' := hj
      rw [hw, List.mem_append, List.mem_singleton] at hj'
      rcases hj' with hj' | rfl
      · exact hkept j hj' hj
      · obtain ⟨k, hk⟩ := hscanning hst
        rcases hout k hk with hk' | hnil
        · exact ⟨k, hk', _, List.mem_append_right _ (List.mem_singleton.mpr rfl), hc, hj, hk⟩
        · rw [hnil] at hj
          cases hj
    · exact hsignalled
  | @woken i n hc hn hw hcalls =>
    have hset := getElem?_set_of hc (.returned .success)
    refine ⟨hw ▸ h.nodup, ?_, ?_, ?_, ?_⟩
    · intro j hj
      rw [hw] at hj
      have hlisted := h.listed j hj
      rw [hcalls, hset]
      by_cases hji : j = i
      · subst hji
        rw [hc, Option.some.injEq, ScanCall.waiting.injEq] at hlisted
        exact absurd hlisted hn
      · rw [if_neg hji]
        exact hlisted
    · intro j n' hj
      rw [hcalls, hset] at hj
      rw [hw]
      by_cases hji : j = i
      · rw [if_pos hji] at hj
        cases hj
      · rw [if_neg hji] at hj
        exact h.waiting j n' hj
    · intro j hj
      exact hkept j (hw ▸ hj) hj
    · exact hsignalled
  | @wake k hevent hrun hw hcalls =>
    have hset := wake_getElem? h.nodup h.listed
    refine ⟨by rw [hw]; exact List.nodup_nil, ?_, ?_, ?_, ?_⟩
    · intro i hi
      rw [hw] at hi
      cases hi
    · intro i n hi
      rw [hcalls, hset] at hi
      rw [hw]
      split at hi
      · rw [Option.some.injEq, ScanCall.waiting.injEq] at hi
        exact Or.inr ⟨hi.symm, List.not_mem_nil⟩
      · next hnot =>
        rcases h.waiting i n hi with ⟨-, hin⟩ | ⟨h1, -⟩
        · exact absurd hin hnot
        · exact Or.inr ⟨h1, List.not_mem_nil⟩
    · intro i hi
      rw [hw] at hi
      cases hi
    · exact hsignalled

theorem Run.waiters {τ : List Transition} (h : Run own τ m) : WaiterInvariant τ m := by
  refine h.history (P := WaiterInvariant) ⟨List.nodup_nil, ?_, ?_, ?_, ?_⟩ ?_
  · intro i hi
    cases hi
  · intro i n hi
    cases hi
  · intro i hi
    cases hi
  · intro t ht
    cases ht
  · intro τ m event m' hr ih hs
    obtain ⟨w, hw⟩ := Reachable.owner hr.reachable
    have he := step_effect hs
    refine ih.step he.waiterStep (fun k hk => he.outstanding hw (Run.system hr).reachable hk) ?_
    intro hst
    obtain ⟨x, hx⟩ := Option.ne_none_iff_exists'.mp (hw.state.mp hst)
    exact ⟨x.scan, hw.outstanding_iff.mpr ⟨x, hx, rfl⟩⟩

/-! ## The life of a scan -/

/-- The step uses scan state `k`. -/
def Uses (m : Machine) : Event → Nat → Prop
  | .advance i _, k =>
    ∃ c, m.scanCalls[i]? = some c ∧
      (c.scan = some k ∨ (∃ beacon, c = .response beacon) ∧ m.scanContext = some k)
  | .expire k', k | .startWork k', k | .advanceWork k' _, k => k' = k
  | _, _ => False

theorem Fits.live {w : Option Owner} (h : m.Fits w) {x : Owner} (hx : w = some x)
    (hfreed : x.freed = 0) : ∃ o, m.scanStates x.scan = some o ∧ ¬ o.Destroyed := by
  obtain ⟨o, ho, hshape⟩ := h.own x hx
  have hlive := hshape.freed
  rw [hfreed] at hlive
  exact ⟨o, ho, hlive.not_destroyed⟩

/-- `scan_context` points to the state of the scan that is under way, all of which is there. -/
theorem Fits.context_live {w : Option Owner} (h : m.Fits w) {k : Nat}
    (hk : m.scanContext = some k) :
    m.Outstanding k ∧ ∃ o, m.scanStates k = some o ∧ ¬ o.Destroyed := by
  obtain ⟨x, rfl, rfl, hx⟩ := h.of_context hk
  refine ⟨h.outstanding_iff.mpr ⟨x, rfl, rfl⟩, h.live rfl ?_⟩
  cases x with
  | cleanup pc => cases hx
  | _ => rfl

/-- No step uses a scan state that has been destroyed. -/
theorem Fits.uses_live {w : Option Owner} (h : m.Fits w) (he : Effect m event m') {k : Nat}
    (hk : m.Uses event k) : ∃ o, m.scanStates k = some o ∧ ¬ o.Destroyed := by
  have hrunning {o : ScanState} {pc : ScanPc} (ho : m.scanStates k = some o)
      (hw : o.work.work.running = some pc) : ∃ o, m.scanStates k = some o ∧ ¬ o.Destroyed :=
    h.live (h.of_running ho hw) rfl
  cases event with
  | advance i outcome =>
    obtain ⟨c, hc, hk | ⟨-, hk⟩⟩ := hk
    · by_cases hclaimed : c.claimed = some k
      · exact h.live ((h.calls i k c hclaimed).mp hc) rfl
      · have hclaim : c = .scanClaim k := by
          cases c <;> cases hk <;> first | rfl | exact absurd rfl hclaimed
        subst hclaim
        obtain ⟨⟨o, ho, hlive⟩, -⟩ := h.unclaimed i k hc
        exact ⟨o, ho, hlive.not_destroyed⟩
    · exact (h.context_live hk).2
  | expire k' =>
    cases hk
    cases he with
    | expire ho hw =>
      have hrequest := (DelayedWork.expire_eq_some hw).1
      exact h.live (h.of_pending ho (by rw [hrequest]; simp)) rfl
  | startWork k' =>
    cases hk
    cases he with
    | startWork ho hw =>
      have hrequest := (DelayedWork.start_eq_some hw).1
      exact h.live (h.of_pending ho (by rw [hrequest]; simp)) rfl
  | advanceWork k' outcome =>
    cases hk
    cases he with
    | stop ho hw | drain ho hw | pass ho hw | allocateAp ho hw | insert ho hw | release ho hw
    | setCurrent ho hw | listenWork ho hw | complete ho hw | enqueueCleanup ho hw =>
      exact hrunning ho hw
  | association | cache | invoke | startCleanup | advanceCleanup => cases hk

theorem processResponse_receiving {o o' : ScanState} {beacon : BeaconData}
    {pointer : BeaconPointer} (h : o.processResponse beacon pointer = some o') (hne : o' ≠ o) :
    o.receiving = true := by
  by_contra hr
  rw [ScanState.processResponse, if_pos (Or.inl (Bool.eq_false_iff.mpr hr))] at h
  exact hne (Option.some.inj h).symm

/-- A response is written to the ring buffer only while `scan_work` is not in its loop. -/
theorem Fits.not_drains {w : Option Owner} (h : m.Fits w) {k : Nat} {o : ScanState}
    (ho : m.scanStates k = some o) (hr : o.receiving = true) :
    ∀ pc, o.work.work.running = some pc → pc.drains = false := by
  intro pc hpc
  obtain ⟨x, hx, -, hxr⟩ := h.of_receiving ho hr
  rw [h.of_running ho hpc, Option.some.injEq] at hx
  subst hx
  cases pc with
  | drain | readRsn | insert | release => cases hxr
  | _ => rfl

/-- A response that changes a ring buffer finds its scan receiving. -/
theorem Effect.response_receiving (he : Effect m event m') {i k : Nat} {outcome : ScanOutcome}
    {beacon : BeaconData} {o o' : ScanState} (hevent : event = .advance i outcome)
    (hc : m.scanCalls[i]? = some (.response beacon)) (ho : m.scanStates k = some o)
    (ho' : m'.scanStates k = some o') (hne : o'.buffer ≠ o.buffer) : o.receiving = true := by
  subst hevent
  have hsame (hstates : m'.scanStates k = m.scanStates k) : False := by
    rw [hstates, ho, Option.some.injEq] at ho'
    exact hne (congrArg ScanState.buffer ho'.symm)
  cases he with
  | quiet hc' hq => exact (hsame rfl).elim
  | @response i k' _ b o₁ o₁' hc' hx ho₁ hr =>
    by_cases hk : k = k'
    · subst hk
      rw [ho, Option.some.injEq] at ho₁
      subst ho₁
      rw [setScanCall_scanStates, setScanState_scanStates, Function.update_self,
        Option.some.injEq] at ho'
      subst ho'
      exact processResponse_receiving hr fun he => hne (congrArg ScanState.buffer he)
    · exact (hsame (Function.update_of_ne hk _ _)).elim
  | allocate hc' | claim hc' | busy hc' | publish hc' | purge hc' | listenCall hc' | wait hc' =>
    rw [hc] at hc'
    cases hc'

/-- **One scan at a time owns the device, its state is there as long as it is used, and it wakes the
waiters that were put on the list while it was under way.** -/
theorem scan_life_cycle {ρ : List Transition} (h : Run own ρ m) :
    (m.system.association.state = .scanning ↔ ∃ k, m.Outstanding k) ∧
    (∀ k k', m.Outstanding k → m.Outstanding k' → k = k') ∧
    (∀ k, m.scanContext = some k →
      m.Outstanding k ∧ ∃ o, m.scanStates k = some o ∧ ¬ o.Destroyed) ∧
    (∀ pc, m.scanCleanupWork.running = some pc → ∃ o, m.scanStates pc.scan = some o ∧
      o.Freed pc.freed ∧ o.work.work.request = .idle ∧ o.work.work.running = none) ∧
    (∀ t ∈ ρ, ∀ k, t.before.Uses t.action k →
      ∃ o, t.before.scanStates k = some o ∧ ¬ o.Destroyed) ∧
    (∀ t ∈ ρ, ∀ (i k : Nat) (outcome : ScanOutcome) (beacon : BeaconData) (o o' : ScanState),
      t.action = .advance i outcome → t.before.scanCalls[i]? = some (.response beacon) →
      t.before.scanStates k = some o → t.after.scanStates k = some o' → o'.buffer ≠ o.buffer →
      ∀ pc, o.work.work.running = some pc → pc.drains = false) ∧
    (m.scanWaiters ≠ [] → m.system.association.state = .scanning) ∧
    (∀ i : Nat, m.scanCalls[i]? = some (.waiting 0) ↔ i ∈ m.scanWaiters) ∧
    (∀ τ t τ' i, ρ = τ ++ t :: τ' → Signals t i →
      (∀ t' ∈ τ, ¬ Signals t' i) ∧ t.action = .advanceCleanup ∧
        ∃ k, t.before.scanCleanupWork.running = some (.last k) ∧ ∃ q ∈ τ, Queues q i k) ∧
    (∀ t ∈ ρ, ∀ action, t.action = .association action →
      t.before.system.association.state = .scanning →
      t.after.system.association.state = .scanning) := by
  obtain ⟨w, hw⟩ := Reachable.owner (Lts.Run.reachable h)
  have hbefore : ∀ t ∈ ρ, Reachable own t.before ∧ Effect t.before t.action t.after := by
    intro t ht
    obtain ⟨hr, hs⟩ := Lts.Run.of_mem h t ht
    exact ⟨hr, step_effect hs⟩
  have hinv := Run.waiters h
  have hscanning : m.system.association.state = .scanning ↔ ∃ k, m.Outstanding k := by
    refine hw.state.trans ⟨fun hne => ?_, ?_⟩
    · obtain ⟨x, hx⟩ := Option.ne_none_iff_exists'.mp hne
      exact ⟨x.scan, hw.outstanding_iff.mpr ⟨x, hx, rfl⟩⟩
    · rintro ⟨k, hk⟩
      obtain ⟨x, hx, -⟩ := hw.outstanding_iff.mp hk
      rw [hx]
      exact Option.some_ne_none _
  refine ⟨hscanning, ?_, fun k hk => hw.context_live hk, ?_, ?_, ?_, ?_, ?_, ?_, ?_⟩
  · intro k k' hk hk'
    obtain ⟨x, hx, rfl⟩ := hw.outstanding_iff.mp hk
    obtain ⟨x', hx', rfl⟩ := hw.outstanding_iff.mp hk'
    rw [hx, Option.some.injEq] at hx'
    rw [hx']
  · intro pc hpc
    obtain ⟨o, ho, hshape⟩ := hw.own _ (hw.of_cleaning hpc)
    exact ⟨o, ho, hshape.freed, hshape.idle rfl, hshape.running⟩
  · intro t ht k hk
    obtain ⟨hr, he⟩ := hbefore t ht
    obtain ⟨w', hw'⟩ := hr.owner
    exact hw'.uses_live he hk
  · intro t ht i k outcome beacon o o' hevent hc ho ho' hne
    obtain ⟨hr, he⟩ := hbefore t ht
    obtain ⟨w', hw'⟩ := hr.owner
    exact hw'.not_drains ho (he.response_receiving hevent hc ho ho' hne)
  · intro hne
    obtain ⟨i, hi⟩ := List.exists_mem_of_ne_nil _ hne
    obtain ⟨k, hk, -⟩ := hinv.queued i hi
    exact hscanning.mpr ⟨k, hk⟩
  · intro i
    refine ⟨fun hi => ?_, hinv.listed i⟩
    rcases hinv.waiting i 0 hi with ⟨-, hin⟩ | ⟨h1, -⟩
    · exact hin
    · cases h1
  · intro τ t τ' i he hi
    obtain ⟨hr, hs⟩ := Lts.Run.split h he
    have hwaiters := Run.waiters hr
    obtain ⟨hin, hevent, k, hk⟩ := hwaiters.signals (step_effect hs).waiterStep hi
    refine ⟨?_, hevent, k, hk, ?_⟩
    · intro t' ht' hi'
      exact hwaiters.not_mem (hwaiters.signalled t' ht' i hi') hin
    · -- the scan that is cleaned up is the one that the call was put on the list during
      obtain ⟨k', hk', q, hq, hqueues⟩ := hwaiters.queued i hin
      obtain ⟨w', hw'⟩ := Reachable.owner (Lts.Run.reachable hr)
      obtain ⟨x, hx, hxk⟩ := hw'.outstanding_iff.mp hk'
      rw [hw'.of_cleaning hk, Option.some.injEq] at hx
      subst hx
      cases hxk
      exact ⟨q, hq, hqueues⟩
  · intro t ht action hevent hst
    obtain ⟨hr, he⟩ := hbefore t ht
    have hsystem := hr.system
    rw [hevent] at he
    generalize t.after = m' at he
    cases he with
    | association ha hs hc =>
      refine ((U80211.Reachable.effect hsystem hs).scanning_iff hsystem.consistent ?_ ?_).mpr hst
      · rintro rfl
        exact ha
      · rintro rfl
        exact ha

/-- A scan has published its state, and another call waits for its completion. -/
def Scenario.waited : List Event :=
  .invoke .scan :: advance 0 3 ++ .invoke .waitForScanCompletion :: advance 1 2

open Machine.Scenario in
theorem scan_life_cycle_waited :
    ∃ m, Scenario.run waited = some m ∧ m.scanWaiters = [1] ∧
      m.system.association.state = .scanning ∧ m.Outstanding 0 := by
  have hrun : (run waited).map (fun m => (m.scanWaiters, m.scanContext)) = some ([1], some 0) := by
    decide
  obtain ⟨m, hm, he⟩ := exists_of_run hrun
  rw [Prod.mk.injEq] at he
  obtain ⟨-, -, hcontext, -, -, -, hwaiters, -⟩ := scan_life_cycle (run_trace hm)
  exact ⟨m, hm, he.1, hwaiters (by rw [he.1]; simp), (hcontext 0 he.2).1⟩

end Machine

end U80211
