import U80211.Properties.MachineMemory

/-!
# Who has a reference to an entry of the cache

* `step_cached`: what a step of the machine does to the entries
* `step_unheld`: nobody gets a first reference to an access point but by an operation of the cache
* `Counted.inserting`: so the access point that `scan_work` is about to insert is its own
* `Run.unheld`: entries that nobody holds stay so while nobody else operates on the cache
-/

namespace U80211

open WorkQueue

/-! ## Callers -/

namespace CacheSystem

variable {c c' : CacheSystem} {others : AccessPoint → Nat} {l : List AccessPoint}
  {a : CacheAction} {ap : AccessPoint}

theorem count_eq_zero_of_ne {ap' : AccessPoint} (h : ap' ≠ ap) : [ap'].count ap = 0 :=
  (BssCache.count_singleton ap ap').trans (if_neg h)

/-- A call gives no first reference to an access point that is not in the cache; the ones that do
not run under the lock give none at all. -/
theorem owned_of_step (h : c.cache.Represents l (c.more others).owned)
    (hlock : c.cache.rwlock = true) (hs : step a c = some c') (hap : c.owned ap = 0)
    (halloc : c.cache.Allocated ap) (hout : a.onCache = true → ap ∉ l) : c'.owned ap = 0 := by
  have hrounds : l.length < c.rounds := by
    have hlength := h.entryCount
    unfold rounds
    omega
  cases a with
  | allocate ap' node =>
    simp only [step] at hs
    split at hs
    · cases hs
    · next hn =>
      cases hs
      have hne : ap' ≠ ap := by
        rintro rfl
        exact hn halloc
      simp [give, hap, count_eq_zero_of_ne hne]
  | hold ap' =>
    simp only [step] at hs
    split at hs
    · cases hs
    · next hpos =>
      obtain ⟨cache, -, hs⟩ := Option.bind_eq_some_iff.mp hs
      cases hs
      have hne : ap' ≠ ap := by
        rintro rfl
        exact hpos hap
      simp [give, hap, count_eq_zero_of_ne hne]
  | release ap' =>
    simp only [step] at hs
    split at hs
    · cases hs
    · next hpos =>
      obtain ⟨cache, -, hs⟩ := Option.bind_eq_some_iff.mp hs
      cases hs
      have hne : ap ≠ ap' := by
        rintro rfl
        exact hpos hap
      simp [giveBack, hne, hap]
  | find mac =>
    obtain ⟨⟨cache, found⟩, hfind, hs⟩ := Option.bind_eq_some_iff.mp hs
    cases hs
    obtain ⟨cache', hfind', -⟩ := BssCache.find_spec mac h hlock hrounds
    cases hfind.symm.trans hfind'
    have hnot : ap ∉ (l.find? (·.macAddress = mac)).toList := by
      rw [Option.mem_toList]
      exact fun hmem => hout rfl (List.mem_of_find?_eq_some hmem)
    simp [give, hap, List.count_eq_zero.mpr hnot]
  | getAps capacity =>
    obtain ⟨⟨cache, buffer⟩, hget, hs⟩ := Option.bind_eq_some_iff.mp hs
    cases hs
    obtain ⟨cache', hget', -⟩ := BssCache.getAps_spec capacity h hlock hrounds
    cases hget.symm.trans hget'
    have hnot : ap ∉ l.take capacity := fun hmem => hout rfl (List.mem_of_mem_take hmem)
    simp [give, hap, List.count_eq_zero.mpr hnot]
  | insert ap' =>
    simp only [step] at hs
    split at hs
    · cases hs
    · obtain ⟨cache, -, hs⟩ := Option.bind_eq_some_iff.mp hs
      cases hs
      exact hap
  | remove mac | getCount | purge | deinit =>
    obtain ⟨x, -, hs⟩ := Option.bind_eq_some_iff.mp hs
    cases hs
    exact hap

end CacheSystem

/-! ## The association -/

/-- The association gets a first reference only to an access point that a caller has passed. -/
theorem references_of_step {s s' : System} {own : MacAddress} {action : Action}
    (hr : Reachable own s) (hs : step action s = some s') {ap : AccessPoint}
    (hap : s.references ap = 0) (hb : ¬ ∃ c ∈ s.calls, c.borrowed = some ap) :
    s'.references ap = 0 := by
  have hchange := counting_references hs ap
  have hnonneg := references_nonneg (hr.run (Lts.Run.nil.snoc hs)) ap
  rw [hap] at hchange
  cases hcounting : s.counting action with
  | none =>
    rw [hcounting] at hchange
    exact hchange
  | some counting =>
    rw [hcounting] at hchange
    cases counting with
    | hold ap' =>
      have hne : ap' ≠ ap := by
        rintro rfl
        rcases counting_hold_cases hr hcounting with hborrowed | hpos
        · exact hb hborrowed
        · omega
      have hzero : owns (some ap') ap = 0 := if_neg fun he => hne (Option.some.inj he)
      change _ = 0 + owns (some ap') ap at hchange
      omega
    | release ap' =>
      have hown := owns_nonneg (some ap') ap
      change _ = 0 + -owns (some ap') ap at hchange
      omega

namespace Machine

variable {m m' : Machine} {own : MacAddress} {event : Event} {ap : AccessPoint} {k : Nat}

/-- Only the cache and `scan_work` may have references to the access point. -/
structure Unheld (m : Machine) (ap : AccessPoint) : Prop where
  owned : m.callers.owned ap = 0
  references : m.system.references ap = 0

/-- **Nobody gets a first reference to an access point in memory, but by an operation of the cache
that finds it there.** -/
theorem step_unheld (h : Counted own m) (hs : step event m = some m') (hu : m.Unheld ap)
    (halloc : m.callers.cache.Allocated ap)
    (hout : ∀ action, event = .cache action → action.onCache = true →
      ∀ mac, m.cached mac ≠ some ap) : m'.Unheld ap := by
  constructor
  · by_cases hcache : ∃ action, event = .cache action
    · obtain ⟨action, rfl⟩ := hcache
      obtain ⟨l, held, others, hb⟩ := h.backed
      cases step_effect hs with
      | cache ha hstep =>
        refine CacheSystem.owned_of_step hb.cache hb.rwlock hstep hu.owned halloc fun hon hin => ?_
        exact hout action rfl hon ap.macAddress (hb.cached_iff.mpr ⟨hin, rfl⟩)
    · rw [owned_of_step hs fun action he => hcache ⟨action, he⟩]
      exact hu.owned
  · rcases step_system_cases hs with hsame | ⟨action, hsys⟩
    · rw [hsame]
      exact hu.references
    · refine references_of_step (Reachable.system h.reachable) hsys hu.references
        fun hborrowed => ?_
      exact Reachable.borrowed h.reachable hborrowed hu.owned

/-! ## The entries -/

/-- **What a step does to the entries of the cache.** -/
theorem step_cached (h : Counted own m) (hs : step event m = some m') :
    Refills m event m'.cached := by
  obtain ⟨l, held, others, hb⟩ := h.backed
  obtain ⟨w, hw⟩ := Reachable.owner h.reachable
  have hr' := Reachable.system (h.reachable.run (Lts.Run.nil.snoc hs))
  obtain ⟨l', held', others', -, hrefills⟩ :=
    (step_effect hs).refills hb h.inRange hw (Reachable.system h.reachable) hr'
  exact hrefills

/-- `u80211_scan` removes the entries that nobody has a reference to. -/
theorem cached_of_purge (h : Counted own m) {i : Nat} {outcome : ScanOutcome}
    (hs : step (.advance i outcome) m = some m') (hc : m.scanCalls[i]? = some (.scanPurge k)) :
    m'.cached = fun mac => (m.cached mac).filter fun ap => m.callers.cache.refcount ap ≠ 1 := by
  obtain ⟨l, held, others, hb⟩ := h.backed
  have hcall : m.stepScanCall i outcome (.scanPurge k) = some m' := by
    rwa [step, hc] at hs
  obtain ⟨cache, hp, hm⟩ := Option.bind_eq_some_iff.mp hcall
  cases hm
  exact hb.cached_purge h.inRange (hb.purge h.inRange hp rfl rfl rfl)

/-- `scan_work` adds an entry unless there is one with the address. -/
theorem cached_of_insert (h : Counted own m) {outcome : ScanOutcome} {o : ScanState}
    (hs : step (.advanceWork k outcome) m = some m') (ho : m.scanStates k = some o)
    (hrun : o.work.work.running = some (.insert ap)) :
    m'.cached = if m.cached ap.macAddress = none then
      Function.update m.cached ap.macAddress (some ap) else m.cached := by
  obtain ⟨l, held, others, hb⟩ := h.backed
  obtain ⟨w, hw⟩ := Reachable.owner h.reachable
  have hwork : m.stepScanWork k o outcome (.insert ap) = some m' := by
    rw [step, withScanState, ho] at hs
    dsimp only at hs
    rwa [hrun] at hs
  obtain ⟨cache, hi, hm⟩ := Option.bind_eq_some_iff.mp hwork
  cases hm
  have hstates := scanStates_setScanState (m.setCache cache) k (o.goto (some (.release ap)))
  obtain ⟨l', hb', hold, hnew⟩ :=
    hb.insert hw ho hrun hstates rfl (Reachable.system h.reachable) rfl hi rfl rfl
  exact hb.cached_insert hb' hold hnew

theorem Counted.allocated (h : Counted own m) {mac : MacAddress}
    (hap : m.cached mac = some ap) : m.callers.cache.Allocated ap := by
  obtain ⟨l, held, others, hb⟩ := h.backed
  have hin := List.count_pos_iff.mpr (hb.cached_iff.mp hap).1
  exact (hb.cache.allocated ap).mpr (by omega)

/-! ## The access point that is about to be inserted -/

/-- Where `scan_work` of a scan state is. -/
def workAt (m : Machine) (k : Nat) : Option ScanPc :=
  (m.scanStates k).bind fun o => o.work.work.running

theorem workAt_of {o : ScanState} (ho : m.scanStates k = some o) :
    m.workAt k = o.work.work.running := by
  rw [workAt, ho, Option.bind_some]

theorem workAt_update {j : Nat} {o : ScanState}
    (hstates : m'.scanStates = Function.update m.scanStates j (some o)) :
    m'.workAt k = if k = j then o.work.work.running else m.workAt k := by
  rw [workAt, hstates]
  by_cases hk : k = j
  · subst hk
    rw [Function.update_self, Option.bind_some, if_pos rfl]
  · rw [Function.update_of_ne hk, if_neg hk, workAt]

/-- `scan_work` is moved by its own steps, once it has been started. -/
theorem Effect.workAt_cases {w : Option Owner} (hw : m.Fits w) (he : Effect m event m')
    (hne : ∀ outcome, event ≠ .advanceWork k outcome) :
    m'.workAt k = m.workAt k ∨ m.workAt k = none ∧ m'.workAt k = some .stop := by
  have hsame {m' : Machine} {j : Nat} {o o' : ScanState} (ho : m.scanStates j = some o)
      (hstates : m'.scanStates = Function.update m.scanStates j (some o'))
      (hrun : o'.work.work.running = o.work.work.running) : m'.workAt k = m.workAt k := by
    rw [workAt_update hstates]
    split
    · next hk => rw [hk, workAt_of ho, hrun]
    · rfl
  have hother {m' : Machine} {j : Nat} {outcome : ScanOutcome} {o' : ScanState}
      (hj : ∀ outcome', Event.advanceWork j outcome ≠ .advanceWork k outcome')
      (hstates : m'.scanStates = Function.update m.scanStates j (some o')) :
      m'.workAt k = m.workAt k := by
    rw [workAt_update hstates, if_neg]
    rintro rfl
    exact hj outcome rfl
  cases he with
  | @allocate i channel outcome buffer hc hb hn =>
    refine Or.inl ?_
    have hstates : (({ m with nextScanState := m.nextScanState + 1 }.setScanState m.nextScanState
        (.allocate buffer channel)).setScanCall i (.scanClaim m.nextScanState)).scanStates =
          Function.update m.scanStates m.nextScanState (some (.allocate buffer channel)) := rfl
    rw [workAt_update hstates]
    split
    · next hk =>
      -- the state is a new one
      cases ho : m.scanStates m.nextScanState with
      | none => rw [hk, workAt, ho]; rfl
      | some o => exact absurd (hw.fresh _ _ ho) (Nat.lt_irrefl _)
    · rfl
  | busy hc ho hst => exact Or.inl (hsame ho rfl rfl)
  | @listenCall i j outcome line o hc ho =>
    refine Or.inl (hsame ho rfl ?_)
    cases line <;> simp [ScanState.listen]
  | response hc hx ho hr =>
    obtain ⟨buffer, rfl⟩ := ScanState.processResponse_cases hr
    exact Or.inl (hsame ho rfl rfl)
  | expire ho hexpire =>
    obtain ⟨-, rfl⟩ := DelayedWork.expire_eq_some hexpire
    exact Or.inl (hsame ho rfl rfl)
  | @startWork j o work ho hstart =>
    obtain ⟨-, hrun, -, hwork⟩ := DelayedWork.start_eq_some hstart
    rw [workAt_update (scanStates_setScanState m j { o with work })]
    split
    · next hk =>
      rw [hk, workAt_of ho]
      exact Or.inr ⟨hrun, congrArg (·.work.running) hwork⟩
    · exact Or.inl rfl
  | destroy hrun ho hd =>
    refine Or.inl (hsame ho rfl ?_)
    cases hd with
    | timer => simp
    | work hfree =>
      obtain ⟨hnone, rfl⟩ := DelayedWork.freeWork_eq_some hfree
      exact hnone.symm
    | buffer => rfl
    | state => rfl
  | stop | drain | pass | allocateAp | insert | release | setCurrent | complete | enqueueCleanup =>
    exact Or.inl (hother hne rfl)
  | listenWork => exact Or.inl (hother hne rfl)
  | _ => exact Or.inl rfl

/-- `scan_work` changes the entries when it inserts. -/
theorem cached_of_advanceWork (h : Counted own m) {outcome : ScanOutcome}
    (hs : step (.advanceWork k outcome) m = some m')
    (hk : ∀ ap, m.workAt k ≠ some (.insert ap)) : m'.cached = m.cached := by
  have hrefills := step_cached h hs
  generalize m'.cached = entries at hrefills
  cases hrefills with
  | kept => rfl
  | @insert _ _ o ap ho hrun => exact absurd ((workAt_of ho).trans hrun) (hk ap)

/-- The access point that is about to be inserted is in memory. -/
theorem Counted.allocated_of_inserting (h : Counted own m)
    (hk : m.workAt k = some (.insert ap)) : m.callers.cache.Allocated ap := by
  obtain ⟨l, held, others, hb⟩ := h.backed
  obtain ⟨o, ho, hrun⟩ := Option.bind_eq_some_iff.mp hk
  have hheld : held = some ap := by
    refine (hb.holds ap).mpr ⟨k, ?_⟩
    rw [heldAt_of ho, ScanState.held, hrun]
    rfl
  have hcount := hb.count ap
  rw [hheld, owns_self] at hcount
  have hnonneg := references_nonneg (Reachable.system h.reachable) ap
  exact (hb.cache.allocated ap).mpr (by omega)

/-- A new access point is nobody's. -/
theorem Backed.unheld_of_not_allocated {l : List AccessPoint} {held : Option AccessPoint}
    {others : AccessPoint → Nat} (hb : m.Backed l held others)
    (hr : U80211.Reachable own m.system) (hn : ¬ m.callers.cache.Allocated ap) :
    m.Unheld ap ∧ ∀ mac, m.cached mac ≠ some ap := by
  have hzero := (not_congr (hb.cache.allocated ap)).mp hn
  have hcount := hb.count ap
  have hnonneg := references_nonneg hr ap
  have hown := owns_nonneg held ap
  refine ⟨⟨by omega, by omega⟩, fun mac hap => ?_⟩
  have hin := List.count_pos_iff.mpr (hb.cached_iff.mp hap).1
  omega

/-- What `scan_work` is about to insert has just been allocated. -/
theorem Effect.inserting {outcome : ScanOutcome} (he : Effect m (.advanceWork k outcome) m')
    (hk : m'.workAt k = some (.insert ap)) :
    (∃ beacon rsnSize, m.workAt k = some (.readRsn beacon rsnSize)) ∧
      ¬ m.callers.cache.Allocated ap ∧ m'.callers.owned = m.callers.owned ∧
      m'.system = m.system := by
  have hnext {o' : ScanState} (hstates : m'.scanStates = Function.update m.scanStates k (some o')) :
      o'.work.work.running = some (.insert ap) := by
    rw [workAt_update hstates, if_pos rfl] at hk
    exact hk
  have hleft {o' : ScanState} {pc : ScanPc} (hl : o'.leaveDrain = some pc)
      (hpc : some pc = some (.insert ap)) : False := by
    rcases ScanState.leaveDrain_cases hl with rfl | ⟨channel, rfl⟩ <;> cases hpc
  cases he with
  | drain ho hrun hd =>
    obtain ⟨-, ⟨beacon, rsnSize, rfl⟩ | hl⟩ := ScanState.drain_cases hd
    · cases hnext rfl
    · exact (hleft hl (hnext rfl)).elim
  | pass ho hrun hp =>
    cases hp with
    | short hread hl => exact (hleft hl (hnext rfl)).elim
    | skipped hread => cases hnext rfl
    | enomem hread ha => cases hnext rfl
  | allocateAp ho hrun hread ha hn =>
    cases hnext rfl
    exact ⟨⟨_, _, (workAt_of ho).trans hrun⟩, hn, rfl, rfl⟩
  | @listenWork _ _ o line ho hrun =>
    have hpc := hnext rfl
    cases line with
    | arm => exact absurd (hpc.symm.trans (DelayedWork.enqueue_running _)) (Option.some_ne_none _)
    | _ => cases hpc
  | stop | insert | release | setCurrent | complete | enqueueCleanup => cases hnext rfl

/-- **Nobody else knows the access point that `scan_work` is about to insert.** -/
theorem Counted.inserting (h : Counted own m) (hk : m.workAt k = some (.insert ap)) :
    m.Unheld ap ∧ ∀ mac, m.cached mac ≠ some ap := by
  refine Counted.invariant (P := fun m => ∀ k ap, m.workAt k = some (.insert ap) →
    m.Unheld ap ∧ ∀ mac, m.cached mac ≠ some ap) ?_ ?_ h k ap hk
  · intro k ap hk
    cases hk
  intro m event m' h ih hs k ap hk
  obtain ⟨w, hw⟩ := Reachable.owner h.reachable
  obtain ⟨l, held, others, hb⟩ := h.backed
  have he := step_effect hs
  by_cases hmine : ∃ outcome, event = .advanceWork k outcome
  · obtain ⟨outcome, rfl⟩ := hmine
    obtain ⟨⟨beacon, rsnSize, hread⟩, hn, howned, hsystem⟩ := he.inserting hk
    obtain ⟨⟨hunowned, hrefs⟩, hnot⟩ := hb.unheld_of_not_allocated (Reachable.system h.reachable) hn
    refine ⟨⟨by rw [howned, hunowned], by rw [hsystem, hrefs]⟩, fun mac hap => hnot mac ?_⟩
    rwa [cached_of_advanceWork h hs fun ap => by rw [hread]; simp] at hap
  · -- the work stays where it is, and nobody gets hold of the access point
    have hstays : m.workAt k = some (.insert ap) := by
      rcases he.workAt_cases hw (fun outcome ho => hmine ⟨outcome, ho⟩) with hsame | ⟨-, hstop⟩
      · rw [← hsame]
        exact hk
      · rw [hstop] at hk
        cases hk
    obtain ⟨hu, hnot⟩ := ih k ap hstays
    refine ⟨step_unheld h hs hu (Counted.allocated_of_inserting h hstays) fun _ _ _ => hnot,
      fun mac hap => ?_⟩
    generalize hentries : m'.cached = entries at hap
    have hrefills := step_cached h hs
    rw [hentries] at hrefills
    cases hrefills with
    | kept => exact hnot mac hap
    | cache hon hcases =>
      rcases hcases mac ap hap with hold | howned
      · exact hnot mac hold
      · exact howned hu.owned
    | purge hc => exact hnot mac (Option.filter_eq_some_iff.mp hap).1
    | @insert j outcome o ap' ho hrun =>
      -- the owner is one scan
      obtain ⟨o', ho', hrun'⟩ := Option.bind_eq_some_iff.mp hstays
      cases (hw.of_running ho hrun).symm.trans (hw.of_running ho' hrun')
      exact hmine ⟨outcome, rfl⟩

/-! ## Runs -/

/-- An operation of the cache that is not one of a scan. -/
def Event.outside : Event → Bool
  | .cache action => action.onCache
  | _ => false

/-- An entry that only the cache has a reference to is nobody's. -/
theorem Counted.unheld_of_refcount (h : Counted own m) {mac : MacAddress}
    (hap : m.cached mac = some ap) (hone : m.callers.cache.refcount ap = 1) : m.Unheld ap := by
  obtain ⟨l, held, others, hb⟩ := h.backed
  have hcount := (hb.refcount_eq_one_iff h.inRange hap).mp hone
  have hnonneg := references_nonneg (Reachable.system h.reachable) ap
  have hown := owns_nonneg held ap
  exact ⟨by omega, by omega⟩

/-- The counter of an entry that is nobody's, while no work holds an access point. -/
theorem Counted.refcount_of_unheld (h : Counted own m) {i : Nat} {c : ScanCall}
    (hc : m.scanCalls[i]? = some c) (hk : c.claimed = some k) {mac : MacAddress}
    (hap : m.cached mac = some ap) (hu : m.Unheld ap) : m.callers.cache.refcount ap = 1 := by
  obtain ⟨l, held, others, hb⟩ := h.backed
  obtain ⟨w, hw⟩ := Reachable.owner h.reachable
  refine (hb.refcount_eq_one_iff h.inRange hap).mpr ?_
  rw [hb.holds.of_call hw hc hk, hu.owned, hu.references, owns_none]
  rfl

/-- A step that is no operation of somebody else keeps the entries out of other hands. -/
theorem step_entries_unheld (h : Counted own m) (hs : step event m = some m')
    (hout : event.outside = false) (hfree : ∀ mac ap, m.cached mac = some ap → m.Unheld ap)
    {mac : MacAddress} (hap : m'.cached mac = some ap) : m'.Unheld ap := by
  have hlookup (action : CacheAction) (he : event = .cache action) : action.onCache = false := by
    rw [he] at hout
    exact hout
  have hkeep {ap : AccessPoint} (hu : m.Unheld ap) (halloc : m.callers.cache.Allocated ap) :
      m'.Unheld ap := by
    refine step_unheld h hs hu halloc fun action he hon => ?_
    rw [hlookup action he] at hon
    cases hon
  have hold {ap : AccessPoint} (hap : m.cached mac = some ap) : m'.Unheld ap :=
    hkeep (hfree mac ap hap) (Counted.allocated h hap)
  have hrefills := step_cached h hs
  generalize m'.cached = entries at hap hrefills
  cases hrefills with
  | kept => exact hold hap
  | cache hon => cases hon.symm.trans (hlookup _ rfl)
  | purge hc => exact hold (Option.filter_eq_some_iff.mp hap).1
  | @insert k outcome o ap' ho hrun =>
    have hk := (workAt_of ho).trans hrun
    split at hap
    · by_cases hmac : mac = ap'.macAddress
      · rw [hmac, Function.update_self, Option.some_inj] at hap
        subst hap
        exact hkeep (Counted.inserting h hk).1 (Counted.allocated_of_inserting h hk)
      · rw [Function.update_of_ne hmac] at hap
        exact hold hap
    · exact hold hap

/-- **Entries that nobody holds stay so while nobody else operates on the cache.** -/
theorem Run.unheld {m₀ : Machine} (h₀ : Counted own m₀) {σ : List Transition}
    (h : Lts.Run step m₀ σ m) (hn : ∀ t ∈ σ, t.after.InRange)
    (hout : ∀ t ∈ σ, t.action.outside = false)
    (hfree : ∀ mac ap, m₀.cached mac = some ap → m₀.callers.cache.refcount ap = 1)
    {mac : MacAddress} (hap : m.cached mac = some ap) : m.Unheld ap := by
  induction h generalizing mac ap with
  | nil => exact Counted.unheld_of_refcount h₀ hap (hfree mac ap hap)
  | @snoc σ m m' event hr hs ih =>
    have hn' : ∀ t ∈ σ, t.after.InRange := fun t ht => hn t (List.mem_append_left _ ht)
    have hout' : ∀ t ∈ σ, t.action.outside = false :=
      fun t ht => hout t (List.mem_append_left _ ht)
    refine step_entries_unheld (h₀.run hr hn') hs ?_ (fun mac ap => ih hn' hout') hap
    exact hout ⟨m, event, m'⟩ (List.mem_append_right _ (List.mem_singleton.mpr rfl))

end Machine

end U80211
