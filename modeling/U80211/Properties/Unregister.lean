import U80211.Properties.MachineMemory

/-!
# The references that unregistering gives back

`u80211_unregister_device` releases the access points in the cache and the one in
`disconnected_ap`. It does not look at `device->ap`, whose reference a connected device owns, nor
can it find the references that were lost when `disconnected_ap` was written over.

* `references_returned_iff`: as long as the counters are in range, all references are given back
  exactly when the device is down, no frame has written over `disconnected_ap`, and callers do not
  own more references than an `int` counts
* `references_kept`: runs after which an access point that nobody owns stays in memory
-/

namespace U80211

open WorkQueue

/-- The call has returned. -/
def Call.Finished : Call → Prop
  | .returned _ | .handled => True
  | _ => False

instance : DecidablePred Call.Finished := fun c => by
  unfold Call.Finished
  split <;> infer_instance

def ScanCall.Finished : ScanCall → Prop
  | .returned _ | .handled => True
  | _ => False

instance : DecidablePred ScanCall.Finished := fun c => by
  unfold ScanCall.Finished
  split <;> infer_instance

theorem Call.Finished.held {c : Call} (h : c.Finished) : c.held = none := by
  cases c <;> first | rfl | cases h

/-- No callback of the context runs. -/
def ContextObjects.Still (o : ContextObjects) : Prop :=
  o.completionWork.running = none ∧ (o.timeoutWork .auth).work.running = none ∧
    (o.timeoutWork .assoc).work.running = none

instance : DecidablePred ContextObjects.Still := fun _ => inferInstanceAs (Decidable (_ ∧ _))

namespace Machine

variable {m : Machine} {own : MacAddress} {l : List AccessPoint} {held : Option AccessPoint}
  {others : AccessPoint → Nat}

/-- No call and no work runs, the device is down or connected, and no cleanup is pending. -/
structure Quiescent (m : Machine) : Prop where
  calls : ∀ c ∈ m.system.calls, c.Finished
  scanCalls : ∀ c ∈ m.scanCalls, c.Finished
  objects : ∀ k o, m.system.objects k = some o → o.Still
  scanStates : ∀ k o, m.scanStates k = some o → o.work.work.running = none
  cleanupWork : m.system.cleanupWork.running = none
  scanCleanupWork : m.scanCleanupWork.running = none
  state : m.system.association.state = .down ∨ m.system.association.state = .associated
  pending : m.system.association.associationCleanupPending = false

/-- After unregistering the counters are those of the references of the callers, and what nobody
owns has been freed. -/
def ReferencesReturned (m : Machine) : Prop :=
  ∃ c, m.unregister = some c ∧
    ∀ ap, (c.Allocated ap ↔ m.callers.owned ap ≠ 0) ∧
      (c.Allocated ap → (c.refcount ap).toInt = m.callers.owned ap)

/-! ## What a device at rest owns -/

theorem heldByCalls_finished {calls : List Call} (h : ∀ c ∈ calls, c.Finished) (a : AccessPoint) :
    heldByCalls calls a = 0 := by
  refine List.sum_eq_zero fun n hn => ?_
  obtain ⟨c, hc, rfl⟩ := List.mem_map.mp hn
  rw [(h c hc).held, owns_none]

/-- A device at rest owns a reference in `ap` and one in `disconnected_ap` at most. -/
theorem Quiescent.owners (h : m.Quiescent) (hc : m.system.association.Consistent)
    (a : AccessPoint) :
    m.system.owners a =
      owns m.system.association.ap a + owns m.system.association.disconnectedAp a := by
  have hcontext : m.system.association.associationContext = none := by
    refine hc.context_none ?_
    rcases h.state with hs | hs <;> rw [hs] <;> rfl
  have hcleanup : m.system.association.associationCleanupContext = none := by
    have hsome := hc.pending_iff.not.mp (by rw [h.pending]; decide)
    exact Option.not_isSome_iff_eq_none.mp hsome
  have hconnected : connectedSlot m.system.association.state m.system.association.ap =
      m.system.association.ap := by
    unfold connectedSlot
    split
    · rfl
    · next hn =>
      -- a device that is down has no access point
      exact (hc.ap_idle (Or.inl (h.state.resolve_right fun hs => hn (Or.inl hs)))).symm
  simp [System.owners, hcontext, hcleanup, hconnected, h.cleanupWork, cleanupLocal, attemptSlot,
    heldByCalls_finished h.calls]

theorem Quiescent.holds (h : m.Quiescent) (hholds : m.Holds held) : held = none := by
  cases held with
  | none => rfl
  | some ap =>
    obtain ⟨k, hk⟩ := (hholds ap).mp rfl
    obtain ⟨o, ho, hheld⟩ := Option.bind_eq_some_iff.mp hk
    rw [ScanState.held, h.scanStates k o ho] at hheld
    cases hheld

/-! ## Unregistering -/

/-- After unregistering an access point has the references of the callers and those of others that
are not the one in `disconnected_ap`. -/
theorem Backed.unregister (h : m.Backed l held others) (hn : m.InRange) (hholds : held = none)
    (hd : ∀ ap, m.system.association.disconnectedAp = some ap → 0 < others ap) :
    ∃ (c : BssCache) (rest : AccessPoint → Nat), m.unregister = some c ∧
      c.Represents [] (fun a => m.callers.owned a + rest a) ∧
      ∀ a, (rest a : Int) =
        m.system.references a - owns m.system.association.disconnectedAp a := by
  have hrounds : l.length + 2 ≤ m.callers.rounds := (congrArg (· + 2) h.cache.entryCount).ge
  have hcountable := h.countable hn
  subst hholds
  have hcount := h.count
  simp only [owns_none, Int.add_zero] at hcount
  cases hap : m.system.association.disconnectedAp with
  | none =>
    obtain ⟨c, hc, hrep, -⟩ := BssCache.deinit_spec h.cache hcountable h.rwlock hrounds
    refine ⟨c, others, ?_, hrep, fun a => ?_⟩
    · rw [Machine.unregister, hap]
      exact hc
    · rw [hcount a, owns_none, Int.sub_zero]
  | some ap =>
    have hpos := hd ap hap
    obtain ⟨c, hc, hrep, -, hlock⟩ :=
      h.cache.released hcountable (show 0 < m.callers.owned ap + others ap by omega)
    obtain ⟨c', hc', hrep', -⟩ :=
      BssCache.deinit_spec hrep hcountable.released (hlock.trans h.rwlock) hrounds
    refine ⟨c', Function.update others ap (others ap - 1), ?_, hrep'.congr fun a => ?_, fun a => ?_⟩
    · rw [Machine.unregister, hap]
      exact (RbTree.bind_of hc _).trans hc'
    · by_cases ha : a = ap
      · subst ha
        simp only [Function.update_self]
        omega
      · simp only [Function.update_of_ne ha]
    · have hold := hcount a
      by_cases ha : a = ap
      · subst ha
        rw [Function.update_self, owns_self]
        omega
      · have hne : owns (some ap) a = 0 := if_neg fun he => ha (Option.some.inj he).symm
        rw [Function.update_of_ne ha, hold, hne, Int.sub_zero]

/-- An access point stays in memory for exactly the references of others that are left. -/
theorem returned_iff {c : BssCache} {owned rest : AccessPoint → Nat}
    (h : c.Represents [] fun a => owned a + rest a) (hle : ∀ ap, owned ap + rest ap ≤ 2 ^ 32) :
    (∀ ap, (c.Allocated ap ↔ owned ap ≠ 0) ∧
        (c.Allocated ap → (c.refcount ap).toInt = owned ap)) ↔
      ∀ ap, rest ap = 0 ∧ owned ap < 2 ^ 31 := by
  have halloc (ap : AccessPoint) : c.Allocated ap ↔ 0 < owned ap + rest ap := by
    rw [h.allocated ap, List.count_nil, Nat.zero_add]
  have hright (ap : AccessPoint) (hap : c.Allocated ap) :
      (c.refcount ap).toInt = (Int32.ofNat (owned ap + rest ap)).toInt := by
    rw [h.refcount ap hap, List.count_nil, Nat.zero_add]
  constructor
  · intro hreturned ap
    obtain ⟨hiff, hvalue⟩ := hreturned ap
    by_cases howned : owned ap = 0
    · have hnot := (halloc ap).not.mp (hiff.not.mpr (not_not_intro howned))
      exact ⟨by omega, by omega⟩
    · -- the counter says what the callers own, and what is not negative has not gone around
      have hsame := (hright ap (hiff.mpr howned)).symm.trans (hvalue (hiff.mpr howned))
      have hvalues := BssCache.toInt_ofNat_cases (hle ap)
      omega
  · intro hrest ap
    obtain ⟨hzero, hlt⟩ := hrest ap
    refine ⟨(halloc ap).trans (by omega), fun hap => ?_⟩
    rw [hright ap hap, hzero, Nat.add_zero]
    exact Int32.toInt_ofNat_of_lt hlt

theorem overwriteCount_eq_zero_iff {τ : List U80211.Transition} :
    (∀ a, overwriteCount τ a = 0) ↔ ∀ t ∈ τ, t.before.overwrites t.action = none := by
  constructor
  · intro hzero t ht
    cases ho : t.before.overwrites t.action with
    | none => rfl
    | some a =>
      have hle : owns (t.before.overwrites t.action) a ≤ overwriteCount τ a := by
        refine List.single_le_sum ?_ _ (List.mem_map_of_mem ht)
        intro n hn
        obtain ⟨t', -, rfl⟩ := List.mem_map.mp hn
        exact owns_nonneg _ _
      rw [hzero a, ho, owns_self] at hle
      omega
  · intro hnone a
    refine List.sum_eq_zero fun n hn => ?_
    obtain ⟨t, ht, rfl⟩ := List.mem_map.mp hn
    rw [hnone t ht, owns_none]

/-- **Unregistering a device at rest gives every reference back exactly when the device is down, no
step of the run has written over a reference in `disconnected_ap`, and callers own no more
references than an `int` counts**, in every run that keeps the counters in range. -/
theorem references_returned_iff {τ : List Transition} (h : Run own τ m)
    (hn : ∀ t ∈ τ, t.after.InRange) (hq : m.Quiescent) :
    m.ReferencesReturned ↔ m.system.association.state = .down ∧
      (∀ t ∈ τ.filterMap systemTransition, t.before.overwrites t.action = none) ∧
      ∀ ap, m.callers.owned ap < 2 ^ 31 := by
  have hsystem := Run.system h
  have hconsistent := Reachable.consistent hsystem.reachable
  have hcounted : Counted own m := ⟨τ, h, hn⟩
  obtain ⟨l, held, others, hb⟩ := hcounted.backed
  have hheld := hq.holds hb.holds
  have hrefs : ∀ a, m.system.references a = owns m.system.association.ap a +
      owns m.system.association.disconnectedAp a +
      overwriteCount (τ.filterMap systemTransition) a := fun a => by
    rw [references_eq hsystem a, hq.owners hconsistent a]
  have hdisconnected : ∀ ap, m.system.association.disconnectedAp = some ap → 0 < others ap := by
    intro ap hap
    have hcount := hb.count ap
    rw [hrefs ap, hap, owns_self, hheld, owns_none] at hcount
    have happ := owns_nonneg m.system.association.ap ap
    have hover := overwriteCount_nonneg (τ.filterMap systemTransition) ap
    omega
  obtain ⟨c, rest, hc, hrep, hrest⟩ := hb.unregister hcounted.inRange hheld hdisconnected
  -- what is left are the references of the connected device and those that were lost
  have hleft : ∀ a, (rest a : Int) = owns m.system.association.ap a +
      overwriteCount (τ.filterMap systemTransition) a := fun a => by
    rw [hrest a, hrefs a]
    omega
  have hle : ∀ a, m.callers.owned a + rest a ≤ 2 ^ 32 := fun a => by
    have hrange := hcounted.inRange a
    have hpos := owns_nonneg m.system.association.disconnectedAp a
    have hrest := hrest a
    omega
  have hreturned : m.ReferencesReturned ↔ ∀ ap, rest ap = 0 ∧ m.callers.owned ap < 2 ^ 31 := by
    rw [← returned_iff hrep hle]
    constructor
    · rintro ⟨c', hc', hall⟩
      cases hc.symm.trans hc'
      exact hall
    · exact fun hall => ⟨c, hc, hall⟩
  rw [hreturned, forall_and, ← overwriteCount_eq_zero_iff, ← and_assoc]
  refine and_congr_left fun _ => ?_
  constructor
  · intro hzero
    have hsum : ∀ a, owns m.system.association.ap a = 0 ∧
        overwriteCount (τ.filterMap systemTransition) a = 0 := fun a => by
      have hsum := hleft a
      rw [hzero a] at hsum
      have happ := owns_nonneg m.system.association.ap a
      have hover := overwriteCount_nonneg (τ.filterMap systemTransition) a
      omega
    refine ⟨hq.state.resolve_right fun hs => ?_, fun a => (hsum a).2⟩
    obtain ⟨ap, hap⟩ := Option.isSome_iff_exists.mp (hconsistent.ap_connected (Or.inl hs))
    have hone := (hsum ap).1
    rw [hap, owns_self] at hone
    omega
  · rintro ⟨hs, hzero⟩ a
    have hsum := hleft a
    rw [hconsistent.ap_idle (Or.inl hs), owns_none, hzero a] at hsum
    omega

/-! ## Runs -/

namespace Scenario

/-- The device is at rest, as far as addresses have been allocated. -/
def AtRest (m : Machine) : Prop :=
  (∀ c ∈ m.system.calls, c.Finished) ∧ (∀ c ∈ m.scanCalls, c.Finished) ∧
    (∀ k < m.system.nextContext, ∀ o ∈ m.system.objects k, o.Still) ∧
    (∀ k < m.nextScanState, ∀ o ∈ m.scanStates k, o.work.work.running = none) ∧
    m.system.cleanupWork.running.isNone = true ∧ m.scanCleanupWork.running.isNone = true ∧
    (m.system.association.state = .down ∨ m.system.association.state = .associated) ∧
    m.system.association.associationCleanupPending = false

instance : DecidablePred AtRest := fun _ => inferInstanceAs (Decidable (_ ∧ _))

theorem quiescent_of (h : Reachable own m) (hr : AtRest m) : m.Quiescent := by
  obtain ⟨hcalls, hscanCalls, hobjects, hstates, hcleanup, hscanCleanup, hstate, hpending⟩ := hr
  obtain ⟨w, hw⟩ := Reachable.owner h
  have hcontexts := U80211.Reachable.contexts (Reachable.system h)
  exact ⟨hcalls, hscanCalls, fun k o ho => hobjects k (hcontexts.id k o ho).2 o ho,
    fun k o ho => hstates k (hw.fresh k o ho) o ho, Option.isNone_iff_eq_none.mp hcleanup,
    Option.isNone_iff_eq_none.mp hscanCleanup, hstate, hpending⟩

/-- The access points of a caller. -/
def station (n : UInt8) : AccessPoint := U80211.Scenario.accessPoint n

/-- The device is connected, and the caller has given its reference back. -/
def connected : List Event :=
  allocate (station 2) ++
    associations (U80211.Scenario.join 0 2 ++ U80211.Scenario.accept 1 2 0 ++
      U80211.Scenario.cleanup) ++
    [.cache (.release (station 2))]

/-- The device has left the access point in addition. -/
def disconnected : List Event :=
  connected ++ associations (.invoke .disassociate :: U80211.Scenario.advance 3 4)

/-- The second access point disconnects while the first one is still in `disconnected_ap`. -/
def twoConnections : List Event :=
  allocate (station 2) ++ allocate (station 3) ++ associations U80211.Scenario.twoDisconnects ++
    [.cache (.release (station 2)), .cache (.release (station 3))]

end Scenario

open Machine.Scenario in
theorem references_returned_iff_disconnected :
    ∃ m, Scenario.run disconnected = some m ∧ m.Quiescent ∧ m.ReferencesReturned := by
  have hrun : (run disconnected).map (fun m => (decide (AtRest m), m.system.association.state)) =
      some (true, .down) := by decide
  obtain ⟨m, hm, he⟩ := exists_of_run hrun
  rw [Prod.mk.injEq, decide_eq_true_eq] at he
  have hr := (run_trace hm).reachable
  have hq := quiescent_of hr he.1
  have hlen : (trace disconnected).length + 2 ^ 31 + 2 ≤ 2 ^ 32 := by decide
  obtain ⟨hn, hroom⟩ := (counted_registered _).room (run_trace hm) (room_registered hlen)
  have howned : ∀ ap, m.callers.owned ap < 2 ^ 31 := by
    intro ap
    have hle := hroom ap
    have hnonneg := references_nonneg (Reachable.system hr) ap
    omega
  exact ⟨m, hm, hq, (references_returned_iff (run_trace hm) hn hq).mpr ⟨he.2, by decide, howned⟩⟩

/-- An access point that stays in memory although nobody owns it has not been given back. -/
theorem not_returned {ap : AccessPoint} (howned : m.callers.owned ap = 0)
    (h : (m.unregister.map fun c => decide (c.Allocated ap)) = some true) :
    ¬ m.ReferencesReturned := by
  rintro ⟨c, hc, hall⟩
  rw [hc, Option.map_some, Option.some.injEq, decide_eq_true_eq] at h
  exact (hall ap).1.mp h howned

open Machine.Scenario in
/-- **An access point that nobody owns stays in memory**: the one that the device is connected to,
and the one that `disconnected_ap` held before it was written over. -/
theorem references_kept :
    (∃ m, Scenario.run connected = some m ∧ Reachable U80211.Scenario.device m ∧ m.Quiescent ∧
      m.system.association.state = .associated ∧ m.callers.owned (station 2) = 0 ∧
      ¬ m.ReferencesReturned) ∧
    ∃ m, Scenario.run twoConnections = some m ∧ Reachable U80211.Scenario.device m ∧ m.Quiescent ∧
      m.system.association.state = .down ∧ m.callers.owned (station 2) = 0 ∧
      ¬ m.ReferencesReturned := by
  have hconnected : (run connected).map (fun m =>
      (decide (AtRest m), m.system.association.state, m.callers.owned (station 2),
        m.unregister.map fun c => decide (c.Allocated (station 2)))) =
      some (true, .associated, 0, some true) := by decide
  have hoverwritten : (run twoConnections).map (fun m =>
      (decide (AtRest m), m.system.association.state, m.callers.owned (station 2),
        m.unregister.map fun c => decide (c.Allocated (station 2)))) =
      some (true, .down, 0, some true) := by decide
  obtain ⟨m, hm, he⟩ := exists_of_run hconnected
  obtain ⟨m', hm', he'⟩ := exists_of_run hoverwritten
  simp only [Prod.mk.injEq, decide_eq_true_eq] at he he'
  have hr := (run_trace hm).reachable
  have hr' := (run_trace hm').reachable
  exact ⟨⟨m, hm, hr, quiescent_of hr he.1, he.2.1, he.2.2.1, not_returned he.2.2.1 he.2.2.2⟩,
    ⟨m', hm', hr', quiescent_of hr' he'.1, he'.2.1, he'.2.2.1, not_returned he'.2.2.1 he'.2.2.2⟩⟩

end Machine

end U80211
