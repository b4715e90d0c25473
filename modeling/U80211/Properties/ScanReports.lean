import Mathlib.Data.List.Find
import U80211.Properties.CacheEntries
import U80211.Properties.ScanRecords

/-!
# What a completed scan reports

* `Machine.Early`: a scan that has not purged the cache yet, and has heard nothing
* `step_gathered`: from then on the cache has the records that the scan has read and that pass the
  checks of its loop, the first one of each address
* `scan_reports_heard`: **so a completed scan has exactly what it heard**, as long as the counters
  tell the numbers of references apart
* `heard_entry_freed`: what happens when a counter has gone around
-/

namespace U80211

open WorkQueue

/-! ## Before the scan -/

/-- The scan state of a call that has not got to `u80211_bss_cache_purge` yet. -/
def ScanCall.early : ScanCall → Option Nat
  | .scanClaim k | .scanPublish k | .scanPurge k => some k
  | _ => none

theorem ScanCall.scan_of_early {c : ScanCall} {k : Nat} (h : c.early = some k) :
    c.scan = some k := by
  cases c <;> first | exact h | cases h

namespace Machine

variable {m m' : Machine} {own : MacAddress} {event : Event} {τ : List Transition} {k : Nat}
  {w : Option Owner}

/-- Scan `k` has not got to `u80211_bss_cache_purge` yet, or not even to its allocations. -/
def Early (m : Machine) (k : Nat) : Prop :=
  m.scanStates k = none ∨ ∃ c ∈ m.scanCalls, c.early = some k

/-- A scan that owns the device and is early is in its call. -/
theorem Early.owner {x : Owner} (h : m.Early k) (hw : m.Fits (some x)) (hk : x.scan = k) :
    ∃ (i : Nat) (c : ScanCall), x = .call i k c ∧ c.early = some k := by
  rcases h with hnone | ⟨c, hc, hearly⟩
  · obtain ⟨o, ho, -⟩ := hw.own x rfl
    rw [hk, hnone] at ho
    cases ho
  · obtain ⟨i, hi⟩ := List.getElem?_of_mem hc
    cases c with
    | scanClaim k' =>
      cases hearly
      exact absurd hk ((hw.unclaimed i k hi).2.1 x rfl)
    | scanPublish k' | scanPurge k' =>
      cases hearly
      exact ⟨i, _, Option.some.inj ((hw.calls i k _ rfl).mp hi), rfl⟩
    | _ => cases hearly

/-- Nothing is stored for an early scan. -/
theorem stored_of_early (h : m.Early k) (hw : m.Fits w) : stored k ⟨m, event, m'⟩ = none := by
  unfold stored
  split
  · next i outcome =>
    split
    · next beacon o hc ho =>
      refine if_neg fun ⟨_, hs⟩ => ?_
      obtain ⟨x, rfl, hk, hreceiving⟩ := hw.of_receiving ho hs.1
      obtain ⟨i, c, rfl, he⟩ := h.owner hw hk
      cases c <;> first | cases hreceiving | cases he
    · rfl
  · rfl

/-- An early scan reads nothing. -/
theorem readBy_of_early (h : m.Early k) (hw : m.Fits w) : readBy k ⟨m, event, m'⟩ = none := by
  unfold readBy
  split
  · next j outcome =>
    split
    · refine Option.bind_eq_none_iff.mpr fun o ho => ?_
      split
      · next beacon rsnSize hr =>
        obtain rfl := hw.of_running ho hr
        obtain ⟨i, c, hx, -⟩ := h.owner hw rfl
        cases hx
      · rfl
    · rfl
  · rfl

/-! ## Steps of an early scan -/

theorem early_set {calls : List ScanCall} {i : Nat} {c c' : ScanCall} (hc : calls[i]? = some c)
    (he : c'.early = some k ↔ c.early = some k) :
    (∃ d ∈ calls.set i c', d.early = some k) ↔ ∃ d ∈ calls, d.early = some k := by
  constructor
  · rintro ⟨d, hd, hk⟩
    rcases List.mem_or_eq_of_mem_set hd with hd | rfl
    · exact ⟨d, hd, hk⟩
    · exact ⟨c, List.mem_of_getElem? hc, he.mp hk⟩
  · rintro ⟨d, hd, hk⟩
    obtain ⟨j, hj⟩ := List.getElem?_of_mem hd
    by_cases hji : j = i
    · subst hji
      cases hc.symm.trans hj
      have hset := (getElem?_set_of hc c' c' j).mpr (by rw [if_pos rfl])
      exact ⟨c', List.mem_of_getElem? hset, he.mpr hk⟩
    · refine ⟨d, List.mem_of_getElem? ((getElem?_set_of hc c' d j).mpr ?_), hk⟩
      rwa [if_neg hji]

theorem SameScans.early {calls calls' : List ScanCall} (h : SameScans calls calls') :
    (∃ d ∈ calls', d.early = some k) ↔ ∃ d ∈ calls, d.early = some k := by
  constructor
  · rintro ⟨d, hd, hk⟩
    obtain ⟨i, hi⟩ := List.getElem?_of_mem hd
    have hscan : d.scan ≠ none := by rw [ScanCall.scan_of_early hk]; exact Option.some_ne_none k
    exact ⟨d, List.mem_of_getElem? ((h i d hscan).mp hi), hk⟩
  · rintro ⟨d, hd, hk⟩
    obtain ⟨i, hi⟩ := List.getElem?_of_mem hd
    have hscan : d.scan ≠ none := by rw [ScanCall.scan_of_early hk]; exact Option.some_ne_none k
    exact ⟨d, List.mem_of_getElem? ((h i d hscan).mpr hi), hk⟩

/-- A step that changes neither the calls nor the scan states as far as the scan is concerned. -/
theorem Early.congr (hstates : m'.scanStates k = none ↔ m.scanStates k = none)
    (hcalls : (∃ d ∈ m'.scanCalls, d.early = some k) ↔ ∃ d ∈ m.scanCalls, d.early = some k) :
    m'.Early k ↔ m.Early k := or_congr hstates hcalls

theorem update_eq_none_iff {j : Nat} {o o' : ScanState} (ho : m.scanStates j = some o)
    (hstates : m'.scanStates = Function.update m.scanStates j (some o')) :
    m'.scanStates k = none ↔ m.scanStates k = none := by
  rw [hstates]
  by_cases hk : k = j
  · subst hk
    rw [Function.update_self, ho]
    simp
  · rw [Function.update_of_ne hk]

/-- A scan stays early until it purges the cache, or finds the device busy. -/
theorem Effect.early_cases (hw : m.Fits w) (he : Effect m event m') :
    (m'.Early k ↔ m.Early k) ∨ m.Early k ∧ ∃ (i : Nat) (outcome : ScanOutcome),
      event = .advance i outcome ∧
        (m.scanCalls[i]? = some (.scanPurge k) ∨ m.scanCalls[i]? = some (.scanClaim k)) := by
  -- a step of a scan state that a call or a work has
  have hstep {m' : Machine} {j : Nat} {o o' : ScanState} (ho : m.scanStates j = some o)
      (hstates : m'.scanStates = Function.update m.scanStates j (some o'))
      (hcalls : m'.scanCalls = m.scanCalls) : m'.Early k ↔ m.Early k :=
    Early.congr (update_eq_none_iff ho hstates) (by rw [hcalls])
  cases he with
  | association ha hs hc =>
    refine Or.inl (Early.congr Iff.rfl (SameScans.early (.append ?_)))
    intro c hc
    obtain ⟨beacon, -, rfl⟩ := List.mem_map.mp hc
    rfl
  | @invoke entry =>
    refine Or.inl (Early.congr Iff.rfl (SameScans.early (.append ?_)))
    intro c hc
    rw [List.mem_singleton] at hc
    subst hc
    cases entry <;> rfl
  | quiet hc hq =>
    exact Or.inl (Early.congr Iff.rfl (SameScans.early (.set hc hq.scan.1 hq.scan.2)))
  | @allocate i channel outcome buffer hc hb hn =>
    refine Or.inl ?_
    have hlt := (List.getElem?_eq_some_iff.mp hc).1
    by_cases hk : k = m.nextScanState
    · subst hk
      have hcall : (m.scanCalls.set i (.scanClaim m.nextScanState))[i]? =
          some (.scanClaim m.nextScanState) := List.getElem?_set_self hlt
      refine iff_of_true (Or.inr ⟨_, List.mem_of_getElem? hcall, rfl⟩) (Or.inl ?_)
      by_contra hne
      obtain ⟨o, ho⟩ := Option.ne_none_iff_exists'.mp hne
      exact Nat.lt_irrefl _ (hw.fresh _ o ho)
    · refine Early.congr ?_ (early_set hc (iff_of_false ?_ (by simp [ScanCall.early])))
      · show Function.update m.scanStates _ _ k = none ↔ _
        rw [Function.update_of_ne hk]
      · exact fun he => hk (Option.some.inj he).symm
  | claim hc hst | publish hc => exact Or.inl (Early.congr Iff.rfl (early_set hc Iff.rfl))
  | @busy i j outcome o hc ho hst =>
    by_cases hk : j = k
    · subst hk
      exact Or.inr ⟨Or.inr ⟨_, List.mem_of_getElem? hc, rfl⟩, i, outcome, rfl, Or.inr hc⟩
    · refine Or.inl (Early.congr (update_eq_none_iff ho rfl) (early_set hc ?_))
      exact iff_of_false (by simp [ScanCall.early]) fun he => hk (Option.some.inj he)
  | @purge i j outcome cache hc hp =>
    by_cases hk : j = k
    · subst hk
      exact Or.inr ⟨Or.inr ⟨_, List.mem_of_getElem? hc, rfl⟩, i, outcome, rfl, Or.inl hc⟩
    · refine Or.inl (Early.congr Iff.rfl (early_set hc ?_))
      exact iff_of_false (by simp [ScanCall.early]) fun he => hk (Option.some.inj he)
  | @listenCall i j outcome line o hc ho =>
    refine Or.inl (Early.congr (update_eq_none_iff ho rfl) (early_set hc ?_))
    cases line <;> exact Iff.rfl
  | wait hc hst => exact Or.inl (Early.congr Iff.rfl (early_set hc Iff.rfl))
  | response hc hx ho hr =>
    exact Or.inl (Early.congr (update_eq_none_iff ho rfl) (early_set hc Iff.rfl))
  | last hrun hs =>
    exact Or.inl (Early.congr Iff.rfl (SameScans.early (.wake m.scanWaiters m.scanCalls)))
  | expire ho | startWork ho | stop ho | drain ho | pass ho | allocateAp ho | insert ho
  | release ho | setCurrent ho | complete ho | enqueueCleanup ho =>
    exact Or.inl (hstep ho rfl rfl)
  | listenWork ho => exact Or.inl (hstep ho rfl rfl)
  | destroy hrun ho => exact Or.inl (hstep ho rfl rfl)
  | cache | startCleanup => exact Or.inl Iff.rfl

/-- An early scan has stored nothing and read nothing. -/
theorem Run.early (h : Run own τ m) (hk : m.Early k) : accepted k τ = [] ∧ consumed k τ = [] := by
  refine h.history (P := fun τ m => m.Early k → accepted k τ = [] ∧ consumed k τ = []) ?_ ?_ hk
  · exact fun _ => ⟨rfl, rfl⟩
  · intro τ m event m' hr ih hs hk
    obtain ⟨w, hw⟩ := Reachable.owner hr.reachable
    have hbefore : m.Early k := by
      rcases (step_effect hs).early_cases hw with hiff | ⟨hearly, -⟩
      · exact hiff.mp hk
      · exact hearly
    obtain ⟨ha, hc⟩ := ih hbefore
    rw [accepted_concat, consumed_concat, ha, hc, stored_of_early hbefore hw,
      readBy_of_early hbefore hw]
    exact ⟨rfl, rfl⟩

end Machine

/-! ## What the cache has -/

/-- The data that an access point has been allocated with. -/
def AccessPoint.beacon (ap : AccessPoint) : BeaconData where
  macAddress := ap.macAddress
  interval := ap.interval
  capabilities := ap.capabilities
  channel := ap.channel
  rateBitmap := ap.rateBitmap
  ssid := ap.ssid
  rsn := ap.rsn

/-- The record that `scan_work` is about to insert. -/
def ScanPc.inserts : Option ScanPc → List BeaconData
  | some (.insert ap) => [ap.beacon]
  | _ => []

theorem ScanPc.inserts_eq_nil {pc : Option ScanPc} (h : ∀ ap, pc ≠ some (.insert ap)) :
    ScanPc.inserts pc = [] := by
  unfold ScanPc.inserts
  split
  · next ap => exact absurd rfl (h ap)
  · rfl

/-- A list that an element is added to, as a table in which the first element of an address
stays. -/
theorem find?_concat (aps : List AccessPoint) (ap : AccessPoint) :
    (fun mac : MacAddress => (aps ++ [ap]).find? (·.macAddress = mac)) =
      if aps.find? (·.macAddress = ap.macAddress) = none then
        Function.update (fun mac : MacAddress => aps.find? (·.macAddress = mac)) ap.macAddress
          (some ap)
      else fun mac => aps.find? (·.macAddress = mac) := by
  funext mac
  rw [List.find?_append]
  by_cases hmac : mac = ap.macAddress
  · subst hmac
    split
    · next hnone => rw [hnone, Function.update_self]; simp
    · next hne =>
      obtain ⟨first, hfirst⟩ := Option.ne_none_iff_exists'.mp hne
      rw [hfirst]
      exact hfirst.symm
  · have hnone : [ap].find? (·.macAddress = mac) = none := by simp [Ne.symm hmac]
    rw [hnone, Option.or_none]
    split
    · rw [Function.update_of_ne hmac]
    · rfl

namespace Machine

variable {m m' : Machine} {own : MacAddress} {event : Event} {τ : List Transition} {k : Nat}
  {w : Option Owner}

/-- The record passes the checks of the loop of `scan_work`. -/
def passes (p : BeaconData × Nat) : Bool := p.1.channel.toNat = p.2 ∧ validBssid p.1.macAddress

/-- The records that pass the checks. -/
def passed (records : List (BeaconData × Nat)) : List BeaconData :=
  (records.filter passes).map Prod.fst

/-- The cache has the records that the scan has read and that pass the checks, the first one of each
address; the last one may be about to be inserted. -/
def Gathered (τ : List Transition) (m : Machine) (k : Nat) : Prop :=
  ∃ offered : List AccessPoint,
    passed (consumed k τ) = offered.map AccessPoint.beacon ++ ScanPc.inserts (m.workAt k) ∧
      m.cached = fun mac => offered.find? (·.macAddress = mac)

/-- A step that neither reads nor inserts a record. -/
theorem Gathered.frame (h : Gathered τ m k) (hr : readBy k ⟨m, event, m'⟩ = none)
    (hwork : ScanPc.inserts (m'.workAt k) = ScanPc.inserts (m.workAt k))
    (hcached : m'.cached = m.cached) : Gathered (τ ++ [⟨m, event, m'⟩]) m' k := by
  obtain ⟨offered, hpassed, hentries⟩ := h
  refine ⟨offered, ?_, hcached.trans hentries⟩
  rw [consumed_concat, hr, Option.toList_none, List.append_nil, hwork]
  exact hpassed

/-- The record that has been read goes into the cache unless there is one with its address. -/
theorem Gathered.insert (h : Gathered τ m k) (hm : Counted own m) {outcome : ScanOutcome}
    {o : ScanState} {ap : AccessPoint} (hs : step (.advanceWork k outcome) m = some m')
    (ho : m.scanStates k = some o) (hrun : o.work.work.running = some (.insert ap))
    (hwork : ScanPc.inserts (m'.workAt k) = []) :
    Gathered (τ ++ [⟨m, .advanceWork k outcome, m'⟩]) m' k := by
  obtain ⟨offered, hpassed, hentries⟩ := h
  refine ⟨offered ++ [ap], ?_, ?_⟩
  · rw [consumed_concat, readBy_of_running ho hrun (by simp), Option.toList_none, List.append_nil,
      hpassed, hwork, workAt_of ho, hrun, List.map_append, List.append_nil]
    rfl
  · rw [cached_of_insert hm hs ho hrun, hentries, find?_concat]

theorem passed_concat (records : List (BeaconData × Nat)) (p : BeaconData × Nat) :
    passed (records ++ [p]) = passed records ++ if passes p then [p.1] else [] := by
  cases hp : passes p with
  | true => simp [passed, hp]
  | false => simp [passed, hp]

/-- What the checks of the loop leave of a record. -/
theorem passes_iff {beacon : BeaconData} {channel : Nat} :
    passes (beacon, channel) = true ↔
      ¬ (beacon.channel.toNat ≠ channel ∨ validBssid beacon.macAddress = false) := by
  simp [passes]

/-- The record that is read is allocated if it passes. -/
theorem Gathered.read (h : Gathered τ m k) (hτ : Run own τ m)
    (hn : ∀ t ∈ τ, t.after.InRange) {outcome : ScanOutcome}
    (hs : step (.advanceWork k outcome) m = some m') {o : ScanState} {beacon : BeaconData}
    {rsnSize : UInt64} (ho : m.scanStates k = some o)
    (hrun : o.work.work.running = some (.readRsn beacon rsnSize))
    (ha : outcome.allocated = true) : Gathered (τ ++ [⟨m, .advanceWork k outcome, m'⟩]) m' k := by
  have hm : Counted own m := ⟨τ, hτ, hn⟩
  obtain ⟨w, hw⟩ := Reachable.owner hm.reachable
  obtain ⟨records, -, hf, -⟩ := ((hτ.recorded k).2 o ho).records
  have hreceiving : o.receiving = false := by
    obtain rfl := hw.of_running ho hrun
    exact (hw.shapes (x := .work k (.readRsn beacon rsnSize)) ho).receiving
  obtain ⟨r, rest, buffer, -, hread, hfirst, hresult, -⟩ := hf.readRsn hrun hreceiving
  have hnot (ap : AccessPoint) : m.workAt k ≠ some (.insert ap) := by
    rw [workAt_of ho, hrun]
    simp
  obtain ⟨offered, hpassed, hentries⟩ := h
  rw [ScanPc.inserts_eq_nil hnot, List.append_nil] at hpassed
  refine ⟨offered, ?_, (cached_of_advanceWork hm hs hnot).trans hentries⟩
  rw [consumed_concat, readBy_of_readRsn ho hrun hread, hfirst, Option.toList_some, passed_concat,
    hpassed]
  congr 1
  cases step_effect hs with
  | pass ho' hrun' hp =>
    cases ho.symm.trans ho'
    cases hrun.symm.trans hrun'
    rw [workAt_update (scanStates_setScanState _ _ _), if_pos rfl]
    cases hp with
    | short hr => cases hresult.symm.trans hr
    | skipped hr =>
      have hskipped := hresult.symm.trans hr
      split at hskipped
      · next hfails =>
        rw [if_neg fun hp => passes_iff.mp hp hfails]
        rfl
      · cases hskipped
    | enomem hr hn => cases hn.symm.trans ha
  | allocateAp ho' hrun' hr _ hn =>
    cases ho.symm.trans ho'
    cases hrun.symm.trans hrun'
    rw [workAt_update (scanStates_setScanState _ _ _), if_pos rfl]
    have hkept := hresult.symm.trans hr
    split at hkept
    · cases hkept
    · next hpass =>
      cases hkept
      rw [if_pos (passes_iff.mpr hpass)]
      rfl
  | stop ho' hrun' | drain ho' hrun' | insert ho' hrun' | release ho' hrun' | setCurrent ho' hrun'
  | complete ho' hrun' | enqueueCleanup ho' hrun' =>
    cases ho.symm.trans ho'
    cases hrun.symm.trans hrun'
  | listenWork ho' hrun' =>
    cases ho.symm.trans ho'
    cases hrun.symm.trans hrun'

/-- **From the purge on, the cache has what the scan has read.** -/
theorem step_gathered (h : Gathered τ m k) (hτ : Run own τ m)
    (hn : ∀ t ∈ τ, t.after.InRange) (hs : step event m = some m') {x : Owner}
    (hw : m.Fits (some x)) (hk : x.scan = k) (hearly : ¬ m.Early k) (hout : event.outside = false)
    (ha : ∀ outcome, event = .advanceWork k outcome → outcome.allocated = true) :
    Gathered (τ ++ [⟨m, event, m'⟩]) m' k := by
  have hm : Counted own m := ⟨τ, hτ, hn⟩
  have he := step_effect hs
  by_cases hmine : ∃ outcome, event = .advanceWork k outcome
  · obtain ⟨outcome, rfl⟩ := hmine
    obtain ⟨o, ho, hrun⟩ := withScanState_eq_some hs
    split at hrun
    · cases hrun
    next pc hpc =>
    by_cases hread : ∃ beacon rsnSize, pc = .readRsn beacon rsnSize
    · obtain ⟨beacon, rsnSize, rfl⟩ := hread
      exact h.read hτ hn hs ho hpc (ha outcome rfl)
    -- the work does not come to an insertion in another way
    have hnot (ap : AccessPoint) : m'.workAt k ≠ some (.insert ap) := by
      intro hinsert
      obtain ⟨⟨beacon, rsnSize, hbefore⟩, -⟩ := he.inserting hinsert
      rw [workAt_of ho, hpc, Option.some.injEq] at hbefore
      exact hread ⟨beacon, rsnSize, hbefore⟩
    by_cases hinsert : ∃ ap, pc = .insert ap
    · obtain ⟨ap, rfl⟩ := hinsert
      exact h.insert hm hs ho hpc (ScanPc.inserts_eq_nil hnot)
    have hnot' (ap : AccessPoint) : m.workAt k ≠ some (.insert ap) := by
      rw [workAt_of ho, hpc, ne_eq, Option.some.injEq]
      exact fun he => hinsert ⟨ap, he⟩
    refine h.frame (readBy_of_running ho hpc fun beacon rsnSize he => hread ⟨beacon, rsnSize, he⟩)
      ?_ (cached_of_advanceWork hm hs hnot')
    rw [ScanPc.inserts_eq_nil hnot, ScanPc.inserts_eq_nil hnot']
  · have hne (outcome : ScanOutcome) : event ≠ .advanceWork k outcome :=
      fun he => hmine ⟨outcome, he⟩
    refine h.frame ?_ ?_ ?_
    · cases event with
      | advanceWork j outcome =>
        refine readBy_of_ne fun hj => hne outcome ?_
        rw [hj]
      | _ => rfl
    · rcases he.workAt_cases hw hne with hsame | ⟨hnone, hstop⟩
      · rw [hsame]
      · rw [hnone, hstop]
        rfl
    · have hrefills := step_cached hm hs
      generalize m'.cached = entries at hrefills
      cases hrefills with
      | kept => rfl
      | cache hon => cases hon.symm.trans hout
      | @purge i j outcome hc =>
        -- the device belongs to one scan
        cases Option.some.inj ((hw.calls i j _ rfl).mp hc)
        exact absurd (Or.inr ⟨_, List.mem_of_getElem? hc, congrArg some hk⟩) hearly
      | @insert j outcome o ap ho hrun =>
        cases Option.some.inj (hw.of_running ho hrun)
        exact absurd (congrArg (Event.advanceWork · outcome) hk) (hne outcome)

/-- The purge leaves nothing when nobody holds an entry. -/
theorem gathered_of_purge (hτ : Run own τ m) (hn : ∀ t ∈ τ, t.after.InRange) {i : Nat}
    {outcome : ScanOutcome} (hs : step (.advance i outcome) m = some m')
    (hc : m.scanCalls[i]? = some (.scanPurge k))
    (hfree : ∀ mac ap, m.cached mac = some ap → m.Unheld ap) :
    Gathered (τ ++ [⟨m, .advance i outcome, m'⟩]) m' k := by
  have hm : Counted own m := ⟨τ, hτ, hn⟩
  obtain ⟨w, hw⟩ := Reachable.owner hm.reachable
  have hearly : m.Early k := Or.inr ⟨_, List.mem_of_getElem? hc, rfl⟩
  refine ⟨[], ?_, ?_⟩
  · have hnot (ap : AccessPoint) : m'.workAt k ≠ some (.insert ap) := by
      intro hinsert
      have hwork := (step_effect hs).workAt_cases (k := k) hw (by simp)
      rcases hwork with hsame | ⟨-, hstop⟩
      · -- the scan is in its call
        rw [hsame] at hinsert
        obtain ⟨o, ho, hrun⟩ := Option.bind_eq_some_iff.mp hinsert
        cases (hw.of_running ho hrun).symm.trans ((hw.calls i k _ rfl).mp hc)
      · rw [hstop] at hinsert
        cases hinsert
    rw [consumed_concat, (hτ.early hearly).2, ScanPc.inserts_eq_nil hnot,
      readBy_of_early hearly hw]
    rfl
  · rw [cached_of_purge hm hs hc]
    funext mac
    refine Option.filter_eq_none_iff.mpr fun ap hap => ?_
    have hone := Counted.refcount_of_unheld hm hc rfl hap (hfree mac ap hap)
    simp [hone]

/-- **While the scan is under way, the cache has what the scan has read.** -/
theorem Run.gathered {m₀ : Machine} {τ₀ σ : List Transition} (h₀ : Run own τ₀ m₀)
    (h : Lts.Run step m₀ σ m) (hn : ∀ t ∈ τ₀ ++ σ, t.after.InRange) (hearly : m₀.Early k)
    (hfree : ∀ mac ap, m₀.cached mac = some ap → m₀.callers.cache.refcount ap = 1)
    (hout : ∀ t ∈ σ, t.action.outside = false)
    (ha : ∀ t ∈ σ, ∀ outcome, t.action = .advanceWork k outcome → outcome.allocated = true)
    (hk : m.Outstanding k) (hnot : ¬ m.Early k) : Gathered (τ₀ ++ σ) m k := by
  induction h with
  | nil => exact absurd hearly hnot
  | @snoc σ m m' event hr hs ih =>
    have hrun := Lts.Run.append h₀ hr
    have hlast : (⟨m, event, m'⟩ : Transition) ∈ σ ++ [⟨m, event, m'⟩] :=
      List.mem_append_right _ (List.mem_singleton.mpr rfl)
    rw [← List.append_assoc] at hn
    have hn' : ∀ t ∈ τ₀ ++ σ, t.after.InRange := fun t ht => hn t (List.mem_append_left _ ht)
    have hout' : ∀ t ∈ σ, t.action.outside = false :=
      fun t ht => hout t (List.mem_append_left _ ht)
    have ha' : ∀ t ∈ σ, ∀ outcome, t.action = .advanceWork k outcome → outcome.allocated = true :=
      fun t ht => ha t (List.mem_append_left _ ht)
    rw [← List.append_assoc]
    obtain ⟨w, hw⟩ := Reachable.owner hrun.reachable
    have he := step_effect hs
    obtain ⟨w', hw', hturn⟩ := he.fits hw (Reachable.system hrun.reachable)
    obtain ⟨x', rfl, hx'⟩ := hw'.outstanding_iff.mp hk
    -- the device has belonged to the scan before, unless the scan has just begun
    have howner : (∃ x, w = some x ∧ x.scan = k) ∨ m'.Early k := by
      cases hturn with
      | stays hsame =>
        obtain ⟨x, hx, hscan⟩ := Option.map_eq_some_iff.mp hsame.symm
        exact Or.inl ⟨x, hx, hscan.trans hx'⟩
      | begins hc =>
        refine Or.inr (Or.inr ⟨_, List.mem_of_getElem? ((hw'.calls _ _ _ rfl).mpr rfl), ?_⟩)
        exact congrArg some hx'
    obtain ⟨x, rfl, hx⟩ := howner.resolve_right hnot
    rcases he.early_cases hw (k := k) with hiff | ⟨-, i, outcome, rfl, hc | hc⟩
    · have hbefore : ¬ m.Early k := fun hm => hnot (hiff.mpr hm)
      have hg := ih hn' hout' ha' (hw.outstanding_iff.mpr ⟨x, rfl, hx⟩) hbefore
      exact step_gathered hg hrun hn' hs hw hx hbefore (hout _ hlast) (ha _ hlast)
    · have hn₀ : ∀ t ∈ τ₀, t.after.InRange := fun t ht => hn' t (List.mem_append_left _ ht)
      exact gathered_of_purge hrun hn' hs hc fun mac ap => Run.unheld ⟨τ₀, h₀, hn₀⟩ hr
        (fun t ht => hn' t (List.mem_append_right _ ht)) hout' hfree
    · exact absurd hx ((hw.unclaimed i k hc).2.1 x rfl)

/-! ## What the scan has heard -/

/-- The response is from the station at `mac`, which has an address of its own, and does not say
that the station is on another channel than the one that the scan is on. -/
def Reports (mac : MacAddress) (p : BeaconData × Nat) : Prop :=
  p.1.macAddress = mac ∧ mac ≠ .zero 6 ∧ mac.isGroup = false ∧
    (p.1.channel = 0 ∨ p.1.channel.toNat = p.2)

instance (mac : MacAddress) : DecidablePred (Reports mac) :=
  fun _ => inferInstanceAs (Decidable (_ ∧ _))

theorem validBssid_iff {mac : MacAddress} :
    validBssid mac = true ↔ mac ≠ .zero 6 ∧ mac.isGroup = false := by
  have hall {v : UInt8} (h : mac.toList.all (· == v) = true) : mac.toList = List.replicate 6 v := by
    refine List.eq_replicate_iff.mpr ⟨mac.length_toList, fun b hb => ?_⟩
    simpa using List.all_eq_true.mp h b hb
  have hzero : mac.toList.all (· == 0) = true ↔ mac = .zero 6 := by
    rw [Memory.FixedBytes.ext_iff']
    refine ⟨hall, fun he => ?_⟩
    rw [he]
    rfl
  -- an address of ones is a group address
  have hgroup (h : mac.toList.all (· == 0xff) = true) : mac.isGroup = true := by
    rw [MacAddress.isGroup, hall h]
    rfl
  unfold validBssid
  simp only [Bool.and_eq_true, Bool.not_eq_true', ← Bool.not_eq_true, hzero, and_assoc]
  refine and_congr_right fun _ => ⟨fun h => h.2, fun h => ⟨fun hall => h (hgroup hall), h⟩⟩

/-- A response reports its station when its record passes the checks of the loop. -/
theorem reports_iff {mac : MacAddress} {p : BeaconData × Nat} (hc : p.2 ≤ channelCount) :
    passes (p.1.stamped p.2, p.2) = true ∧ p.1.macAddress = mac ↔ Reports mac p := by
  obtain ⟨beacon, channel⟩ := p
  have hlt : channel < 256 := Nat.lt_of_le_of_lt hc (by decide)
  have hchannel : (beacon.stamped channel).channel.toNat = channel ↔
      beacon.channel = 0 ∨ beacon.channel.toNat = channel := by
    unfold BeaconData.stamped
    by_cases hzero : beacon.channel = 0
    · simp [hzero, Nat.mod_eq_of_lt hlt]
    · simp [hzero]
  have hmac : (beacon.stamped channel).macAddress = beacon.macAddress := rfl
  rw [passes_iff, not_or, not_not, Bool.not_eq_false, hchannel, hmac, validBssid_iff, Reports]
  constructor
  · rintro ⟨⟨hch, hvalid⟩, rfl⟩
    exact ⟨rfl, hvalid.1, hvalid.2, hch⟩
  · rintro ⟨rfl, hne, hgroup, hch⟩
    exact ⟨⟨hch, hne, hgroup⟩, rfl⟩

/-- A response is stored while the scan is on a channel of the band. -/
theorem Run.stored_channel (h : Run own τ m) {t : Transition} (ht : t ∈ τ) {p : BeaconData × Nat}
    (hp : stored k t = some p) : p.2 ≤ channelCount := by
  obtain ⟨⟨τ', hτ'⟩, -⟩ := Lts.Run.of_mem h t ht
  unfold stored at hp
  split at hp
  · split at hp
    · next beacon o hc ho =>
      split at hp
      · cases hp
        obtain ⟨records, -, hf, -⟩ := ((Run.recorded hτ' k).2 o ho).records
        exact hf.channel.2
      · cases hp
    · cases hp
  · cases hp

/-- The first record that passes and has the address is that of the first response that reports
it. -/
theorem find?_passed {σ : List Transition} {mac : MacAddress}
    (hc : ∀ t ∈ σ, ∀ p, stored k t = some p → p.2 ≤ channelCount) :
    (passed (accepted k σ)).find? (·.macAddress = mac) =
      ((σ.filterMap (stored k)).find? (Reports mac ·)).map fun p => p.1.stamped p.2 := by
  rw [passed, accepted, List.find?_map, List.find?_filter, List.find?_map, Option.map_map]
  refine congrArg _ (List.find?_congr fun p hp => ?_)
  obtain ⟨t, ht, hstored⟩ := List.mem_filterMap.mp hp
  have hiff : _ ∧ p.1.macAddress = mac ↔ Reports mac p := reports_iff (hc t ht p hstored)
  rw [Bool.eq_iff_iff, decide_eq_true_iff, ← hiff]
  simp [BeaconData.stamped]

theorem cached_congr (h : m'.callers = m.callers) : m'.cached = m.cached := by
  funext mac
  rw [cached, cached, h]

/-- **A completed scan reports exactly what it heard.** When it starts while nobody has a reference
to an entry of the cache, and nobody else operates on the cache and no allocation fails until it is
done, the cache then has an entry for a BSSID if and only if a response that reports it has been
stored, and the entry is that of the first such response. No counter has gone around until then, or
the cache could have an access point that has been freed. -/
theorem scan_reports_heard {m₀ : Machine} {σ : List Transition} (h₀ : Run own τ m₀)
    (hstart : m₀.Early k)
    (hfree : ∀ mac ap, m₀.cached mac = some ap → m₀.callers.cache.refcount ap = 1)
    (h : Lts.Run step m₀ σ m) (hn : ∀ t ∈ τ ++ σ, t.after.InRange)
    (hout : ∀ t ∈ σ, t.action.outside = false)
    (ha : ∀ t ∈ σ, ∀ outcome, t.action = .advanceWork k outcome → outcome.allocated = true)
    (hlast : m.scanCleanupWork.running = some (.last k))
    (hs : step .advanceCleanup m = some m') (mac : MacAddress) :
    (∃ cache, m'.callers.cache.find m'.callers.rounds mac = some (cache, m'.cached mac)) ∧
      ((∃ ap, m'.cached mac = some ap) ↔
        ∃ t ∈ σ, ∃ p, stored k t = some p ∧ Reports mac p) ∧
      (m'.cached mac).map AccessPoint.beacon =
        ((σ.filterMap (stored k)).find? (Reports mac ·)).map fun p => p.1.stamped p.2 := by
  have hrun := Lts.Run.append h₀ h
  have hcounted : Counted own m := ⟨τ ++ σ, hrun, hn⟩
  have hm := Lts.Run.reachable hrun
  obtain ⟨w, hw⟩ := Reachable.owner hm
  obtain rfl := hw.of_cleaning hlast
  have houtstanding : m.Outstanding k := hw.outstanding_iff.mpr ⟨_, rfl, rfl⟩
  have hnot : ¬ m.Early k := by
    intro hearly
    obtain ⟨i, c, hx, -⟩ := hearly.owner hw rfl
    cases hx
  obtain ⟨offered, hpassed, hentries⟩ :=
    Run.gathered h₀ h hn hstart hfree hout ha houtstanding hnot
  -- everything has been read, and nothing is left to be inserted
  have hread : consumed k (τ ++ σ) = accepted k σ := by
    obtain ⟨o, ho, hshape⟩ := hw.own _ rfl
    obtain ⟨records, hrecords, -, hclean⟩ := ((Run.recorded hrun k).2 o ho).records
    rw [hclean (Or.inr ⟨_, hlast, rfl⟩), List.map_nil, List.append_nil] at hrecords
    rw [← hrecords, accepted, List.filterMap_append, List.map_append]
    exact congrArg (· ++ accepted k σ) (Run.early h₀ hstart).1
  have hidle (ap : AccessPoint) : m.workAt k ≠ some (.insert ap) := by
    intro hinsert
    obtain ⟨o, ho, hr⟩ := Option.bind_eq_some_iff.mp hinsert
    cases hw.of_running ho hr
  rw [ScanPc.inserts_eq_nil hidle, List.append_nil, hread] at hpassed
  have hcallers : m'.callers = m.callers := by
    cases step_effect hs with
    | destroy => rfl
    | last => rfl
  have hcached : m'.cached = m.cached := cached_congr hcallers
  have hfirst : (m'.cached mac).map AccessPoint.beacon =
      ((σ.filterMap (stored k)).find? (Reports mac ·)).map fun p => p.1.stamped p.2 := by
    have hchannels : ∀ t ∈ σ, ∀ p, stored k t = some p → p.2 ≤ channelCount :=
      fun t ht p hp => Run.stored_channel hrun (List.mem_append_right _ ht) hp
    rw [← find?_passed hchannels, hpassed, List.find?_map, hcached, hentries]
    rfl
  refine ⟨?_, ?_, hfirst⟩
  · obtain ⟨l, held, others, hb⟩ := hcounted.backed
    rw [hcallers, hcached, hb.cached_eq]
    exact hb.find mac
  · rw [← Option.isSome_iff_exists, ← Option.isSome_map (f := AccessPoint.beacon), hfirst,
      Option.isSome_map, List.find?_isSome]
    simp only [List.mem_filterMap, decide_eq_true_eq]
    constructor
    · rintro ⟨p, ⟨t, ht, hp⟩, hreports⟩
      exact ⟨t, ht, p, hp, hreports⟩
    · rintro ⟨t, ht, p, hp, hreports⟩
      exact ⟨p, ⟨t, ht, hp⟩, hreports⟩

/-- Does the step find memory when it needs some? -/
def Event.allocates : Event → Bool
  | .advanceWork _ outcome => outcome.allocated
  | _ => true

/-- The window of a channel passes with nothing heard. -/
def Scenario.window : List Event := .expire 0 :: .startWork 0 :: Scenario.work 0 7

open Machine.Scenario in
/-- A scan that hears three responses on the first channel, up to the last section of its
cleanup. -/
def Scenario.scanned : List Event :=
  answers ++ .expire 0 :: .startWork 0 :: work 0 19 ++ (List.replicate 9 window).flatten ++
    .expire 0 :: .startWork 0 :: work 0 4 ++ .startCleanup :: List.replicate 4 .advanceCleanup

open Machine.Scenario in
theorem scan_reports_heard_once :
    ∃ m m', Scenario.run scanned = some m ∧ step .advanceCleanup m = some m' ∧
      (m'.cached beacon.macAddress).map (fun ap => (ap.channel, ap.rsn)) = some (1, beacon.rsn) ∧
      (m'.cached other.macAddress).map (fun ap => (ap.channel, ap.rsn)) = some (1, other.rsn) := by
  have hrun : (run scanned).map (fun m => m.scanCleanupWork.running) = some (some (.last 0)) := by
    decide +kernel
  obtain ⟨m, hm, hlast⟩ := exists_of_run hrun
  obtain ⟨m', hs⟩ : ∃ m', step .advanceCleanup m = some m' := by
    rw [step, hlast]
    exact ⟨_, rfl⟩
  have hfree : ∀ mac ap, (registered U80211.Scenario.device).cached mac = some ap →
      (registered U80211.Scenario.device).callers.cache.refcount ap = 1 := by
    intro mac ap hap
    cases ((backed_registered U80211.Scenario.device).cached_iff.mp hap).1
  have hout : ∀ t ∈ trace scanned, t.action.outside = false := by decide +kernel
  have hallocates : ∀ t ∈ trace scanned, t.action.allocates = true := by decide +kernel
  have ha : ∀ t ∈ trace scanned, ∀ outcome, t.action = .advanceWork 0 outcome →
      outcome.allocated = true := by
    intro t ht outcome he
    have hone := hallocates t ht
    rwa [he] at hone
  have hlen : (trace scanned).length + 2 ≤ 2 ^ 32 := by decide +kernel
  -- the first response of a station counts
  have hfirst (mac : MacAddress) (rsn : List UInt8)
      (hstored : ((((trace scanned).filterMap (stored 0)).find? (Reports mac ·)).map
        fun p => p.1.stamped p.2).map (fun b => (b.channel, b.rsn)) = some (1, rsn)) :
      (m'.cached mac).map (fun ap => (ap.channel, ap.rsn)) = some (1, rsn) := by
    have hreports := scan_reports_heard Lts.Run.nil (Or.inl rfl) hfree (run_trace hm)
      (Run.inRange (run_trace hm) hlen) hout ha hlast hs mac
    rw [← hreports.2.2, Option.map_map] at hstored
    exact hstored
  exact ⟨m, m', hm, hs, hfirst _ _ (by decide +kernel), hfirst _ _ (by decide +kernel)⟩

/-! ## A counter that has gone around -/

/-- An operation that its caller may make is a step. -/
theorem step_cache {action : CacheAction} {callers : CacheSystem} (ha : m.AllowsCache action)
    (h : CacheSystem.step action m.callers = some callers) :
    step (.cache action) m = some { m with callers } := by
  rw [step, if_neg (not_not_intro ha), h]
  rfl

/-- Nothing is found in an empty tree. -/
theorem cached_of_root (h : m.callers.cache.tree.root = none) (mac : MacAddress) :
    m.cached mac = none := by
  unfold cached BssCache.find BssCache.locked
  rw [h]
  split <;> rfl

namespace Scenario

/-- The access point that the scan allocates for the first response. -/
def first : AccessPoint := (beacon.stamped 1).accessPoint 0

/-- A caller allocates it before, and takes `n` more references to it. -/
def sharing (n : Nat) : List Event :=
  .cache (.allocate first CacheSystem.Scenario.node) :: List.replicate n (.cache (.hold first))

theorem sharing_succ (n : Nat) : sharing (n + 1) = sharing n ++ [.cache (.hold first)] := by
  rw [sharing, List.replicate_succ', sharing, List.cons_append]

/-- The device after that. -/
def shared (n : Nat) : Machine :=
  { registered U80211.Scenario.device with
    callers := {
      cache := { BssCache.init.apAllocate first CacheSystem.Scenario.node with
        refcount := Function.update BssCache.init.refcount first (.ofNat (n + 1)) }
      owned := fun ap => (n + 1) * [first].count ap
      answer := if n = 0 then .ap (some first) else .done } }

theorem step_allocate : step (.cache (.allocate first CacheSystem.Scenario.node))
    (registered U80211.Scenario.device) = some (shared 0) := by
  have hfree : ¬ CacheSystem.init.cache.Allocated first := fun h => h rfl
  have hgive : CacheSystem.give CacheSystem.init.owned [first] = (shared 0).callers.owned :=
    funext fun ap => (Nat.zero_add _).trans (Nat.one_mul _).symm
  refine step_cache trivial ?_
  show CacheSystem.step _ CacheSystem.init = some (shared 0).callers
  rw [CacheSystem.step, if_neg hfree, hgive]
  rfl

theorem step_hold (n : Nat) : step (.cache (.hold first)) (shared n) = some (shared (n + 1)) := by
  have halloc : (shared n).callers.cache.Allocated first := by
    simp [BssCache.Allocated, shared, BssCache.apAllocate]
  have howned : (shared n).callers.owned first ≠ 0 := by simp [shared]
  have hhold : (shared n).callers.cache.apHold first = some (shared (n + 1)).callers.cache := by
    rw [BssCache.apHold, if_pos halloc]
    simp [shared, Int32.ofNat_add]
  have hgive :
      CacheSystem.give (shared n).callers.owned [first] = (shared (n + 1)).callers.owned :=
    funext fun ap => (Nat.succ_mul (n + 1) _).symm
  refine step_cache trivial ?_
  rw [CacheSystem.step, if_neg howned, hhold, hgive]
  rfl

theorem run_sharing (n : Nat) :
    ∃ τ, Run U80211.Scenario.device τ (shared n) ∧ τ.map (·.action) = sharing n := by
  induction n with
  | zero => exact ⟨_, Lts.Run.nil.snoc step_allocate, rfl⟩
  | succ n ih =>
    obtain ⟨τ, hτ, hactions⟩ := ih
    refine ⟨_, hτ.snoc (step_hold n), ?_⟩
    rw [List.map_append, hactions, sharing_succ]
    rfl

/-- The scan hears the three responses; after it has read them the caller releases one of the
references that it still owns. -/
def stale : List Event :=
  answers ++ .expire 0 :: .startWork 0 :: work 0 19 ++ .cache (.release first) ::
    (List.replicate 9 window).flatten ++ .expire 0 :: .startWork 0 :: work 0 4 ++
    .startCleanup :: List.replicate 4 .advanceCleanup

end Scenario

open Machine.Scenario in
/-- **What a scan has heard is freed while it is in the cache**, when a caller owns references to an
access point that was freed at that address because its counter had gone around: the scan starts
with an empty cache, stores a response, and ends with a cache in which its station is not found. -/
theorem heard_entry_freed :
    ∃ τ m₀ m m', Run U80211.Scenario.device τ m₀ ∧
      τ.map (·.action) = sharing (2 ^ 32) ++ [.cache (.release first)] ∧ m₀.Early 0 ∧
      (∀ mac ap, m₀.cached mac = some ap → m₀.callers.cache.refcount ap = 1) ∧
      Lts.Run step m₀ (Lts.trace step stale m₀) m ∧
      (∀ t ∈ Lts.trace step stale m₀, t.action.outside = false) ∧
      (∀ t ∈ Lts.trace step stale m₀, ∀ outcome, t.action = .advanceWork 0 outcome →
        outcome.allocated = true) ∧
      m.scanCleanupWork.running = some (.last 0) ∧ step .advanceCleanup m = some m' ∧
      (∃ t ∈ Lts.trace step stale m₀, ∃ p, stored 0 t = some p ∧ Reports first.macAddress p) ∧
      m'.callers.cache.tree.root = some first ∧ ¬ m'.callers.cache.Allocated first ∧
      ¬ ∃ ap, m'.cached first.macAddress = some ap := by
  obtain ⟨τ, hτ, hactions⟩ := run_sharing (2 ^ 32)
  -- the release that brings the counter to 0
  obtain ⟨m₀, hrelease⟩ : ∃ m₀, step (.cache (.release first)) (shared (2 ^ 32)) = some m₀ :=
    Option.isSome_iff_exists.mp (by decide +kernel)
  have hfact {P : Machine → Bool}
      (h : (step (.cache (.release first)) (shared (2 ^ 32))).map P = some true) : P m₀ = true := by
    rw [hrelease] at h
    exact Option.some.inj h
  have hempty : m₀.callers.cache.tree.root.isNone = true :=
    hfact (P := fun m => m.callers.cache.tree.root.isNone) (by decide +kernel)
  have hstart : (m₀.scanStates 0).isNone = true :=
    hfact (P := fun m => (m.scanStates 0).isNone) (by decide +kernel)
  have hout : (Lts.trace step stale m₀).all (fun t => !t.action.outside) = true :=
    hfact (P := fun m => (Lts.trace step stale m).all fun t => !t.action.outside)
      (by decide +kernel)
  have hallocates : (Lts.trace step stale m₀).all (fun t => t.action.allocates) = true :=
    hfact (P := fun m => (Lts.trace step stale m).all fun t => t.action.allocates)
      (by decide +kernel)
  have hheard : ((Lts.trace step stale m₀).filterMap (stored 0)).any
      (Reports first.macAddress ·) = true :=
    hfact (P := fun m => ((Lts.trace step stale m).filterMap (stored 0)).any
      (Reports first.macAddress ·)) (by decide +kernel)
  have hend : (step (.cache (.release first)) (shared (2 ^ 32))).bind (fun m₀ =>
      (Lts.exec step stale m₀).bind fun m => (step .advanceCleanup m).map fun m' =>
        (m.scanCleanupWork.running, m'.callers.cache.tree.root,
          decide (m'.callers.cache.Allocated first), m'.cached first.macAddress)) =
      some (some (.last 0), some first, false, none) := by
    decide +kernel
  rw [hrelease, Option.bind_some] at hend
  obtain ⟨m, hm, hend⟩ := Option.bind_eq_some_iff.mp hend
  obtain ⟨m', hm', hend⟩ := Option.map_eq_some_iff.mp hend
  simp only [Prod.mk.injEq, decide_eq_false_iff_not] at hend
  obtain ⟨hlast, hroot, hfreed, hcached⟩ := hend
  refine ⟨_, m₀, m, m', hτ.snoc hrelease, ?_, Or.inl (Option.isNone_iff_eq_none.mp hstart), ?_,
    Lts.exec_run hm, ?_, ?_, hlast, hm', ?_, hroot, hfreed, ?_⟩
  · rw [List.map_append, hactions]
    rfl
  · intro mac ap hap
    rw [cached_of_root (Option.isNone_iff_eq_none.mp hempty)] at hap
    cases hap
  · intro t ht
    simpa using List.all_eq_true.mp hout t ht
  · intro t ht outcome he
    have hone := List.all_eq_true.mp hallocates t ht
    rwa [he] at hone
  · obtain ⟨p, hp, hreports⟩ := List.any_eq_true.mp hheard
    obtain ⟨t, ht, hstored⟩ := List.mem_filterMap.mp hp
    exact ⟨t, ht, p, hstored, of_decide_eq_true hreports⟩
  · rintro ⟨ap, hap⟩
    rw [hcached] at hap
    cases hap

end Machine

end U80211
