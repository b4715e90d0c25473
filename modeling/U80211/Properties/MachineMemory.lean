import Mathlib.Algebra.Order.BigOperators.Group.List
import U80211.Properties.CacheMap
import U80211.Properties.Contexts
import U80211.Properties.References
import U80211.Properties.ScanOwner

/-!
# The counters of the access points in a run

The counter of an access point is the number of references that the cache, the callers, the
association and `scan_work` own. So nobody uses an access point that has been freed, and every step
that changes a counter can be taken.

* `counting_references`: the counter that a step of the association changes is the one that
  `System.references` tells of
* `Effect.backed`: every step of the machine keeps the counters right, while they are in range
* `Run.inRange`: they are, in every run of fewer than `2 ^ 32 - 2` steps
* `association_enabled`: a step of the association finds its access point in memory
-/

namespace U80211

open WorkQueue

variable {s s' : System} {own : MacAddress}

/-! ## References of the association -/

theorem owns_nonneg (slot : Option AccessPoint) (a : AccessPoint) : 0 ≤ owns slot a := by
  unfold owns
  split <;> decide

theorem owns_le_one (slot : Option AccessPoint) (a : AccessPoint) : owns slot a ≤ 1 := by
  unfold owns
  split <;> decide

theorem owns_self (a : AccessPoint) : owns (some a) a = 1 := if_pos rfl

theorem count_singleton_eq_owns (ap a : AccessPoint) :
    (([ap].count a : Nat) : Int) = owns (some ap) a := by
  rw [BssCache.count_singleton, owns]
  by_cases ha : ap = a
  · rw [if_pos ha, if_pos (congrArg some ha), Nat.cast_one]
  · rw [if_neg ha, if_neg fun he => ha (Option.some.inj he), Nat.cast_zero]

theorem heldByCalls_nonneg (calls : List Call) (a : AccessPoint) : 0 ≤ heldByCalls calls a := by
  refine List.sum_nonneg fun n hn => ?_
  obtain ⟨c, -, rfl⟩ := List.mem_map.mp hn
  exact owns_nonneg _ _

theorem overwriteCount_nonneg (τ : List Transition) (a : AccessPoint) : 0 ≤ overwriteCount τ a := by
  refine List.sum_nonneg fun n hn => ?_
  obtain ⟨t, -, rfl⟩ := List.mem_map.mp hn
  exact owns_nonneg _ _

/-- What a slot owns is counted. -/
theorem owners_le_references (h : Reachable own s) (a : AccessPoint) :
    s.owners a ≤ s.references a := by
  obtain ⟨τ, hτ⟩ := h
  have heq := references_eq hτ a
  have hover := overwriteCount_nonneg τ a
  omega

/-- The reference of the attempt is among those that are owned. -/
theorem owns_attempt_le_owners (s : System) (a : AccessPoint) :
    owns (attemptSlot s.association.associationContext) a ≤ s.owners a := by
  have hcleanup := owns_nonneg
    (cleanupSlot s.cleanupWork.running s.association.associationCleanupContext) a
  have hconnected := owns_nonneg (connectedSlot s.association.state s.association.ap) a
  have hdisconnected := owns_nonneg s.association.disconnectedAp a
  have hlocal := owns_nonneg (cleanupLocal s.cleanupWork.running) a
  have hcalls := heldByCalls_nonneg s.calls a
  unfold System.owners
  omega

/-- No owner owns less than nothing. -/
theorem owners_nonneg (s : System) (a : AccessPoint) : 0 ≤ s.owners a :=
  (owns_nonneg _ a).trans (owns_attempt_le_owners s a)

/-- Nor is a number of references negative. -/
theorem references_nonneg (h : Reachable own s) (a : AccessPoint) : 0 ≤ s.references a :=
  (owners_nonneg s a).trans (owners_le_references h a)

/-- What a step adds to the references to `a`. -/
def Counting.change (counting : Option Counting) (a : AccessPoint) : Int :=
  match counting with
  | none => 0
  | some (.hold ap) => owns (some ap) a
  | some (.release ap) => -owns (some ap) a

theorem Counting.change_hold (ap : Option AccessPoint) (a : AccessPoint) :
    Counting.change (ap.map .hold) a = owns ap a := by
  cases ap <;> rfl

theorem Counting.change_release (ap : Option AccessPoint) (a : AccessPoint) :
    Counting.change (ap.map .release) a = -owns ap a := by
  cases ap <;> rfl

theorem stepObjects_references {k : Nat} {f : ContextObjects → Option System}
    (h : stepObjects s k f = some s') (hf : ∀ o s', f o = some s' → s'.references = s.references) :
    s'.references = s.references := by
  unfold stepObjects at h
  split at h
  · cases h
  · next o _ => exact hf o s' h

theorem stepDestroy_references {context : AssociationContext} {next : CleanupPc}
    {free : ContextObjects → Option ContextObjects}
    (h : stepDestroy s context next free = some s') : s'.references = s.references := by
  refine stepObjects_references h fun o s' ho => ?_
  obtain ⟨o', -, rfl⟩ := Option.map_eq_some_iff.mp ho
  rfl

/-- A call changes the counter that is said. -/
theorem stepCall_references {i : Nat} {outcome : Outcome} {c : Call} (hc : s.calls[i]? = some c)
    (hs : stepCall s i outcome c = some s') (a : AccessPoint) :
    s'.references a = s.references a + Counting.change (s.counting (.advance i outcome)) a := by
  simp only [System.counting, hc]
  cases c with
  | associateRelease ap ies disconnected =>
    cases hs
    simp [Counting.change_release, Int.sub_eq_add_neg]
  | associateCritical ap ies =>
    simp only [stepCall] at hs
    split at hs
    · next ha =>
      cases hs
      simp [ha, Counting.change]
    · next context association ha =>
      cases hs
      simp [ha, Counting.change]
  | deauthenticateRelease ap status =>
    cases hs
    simp [Counting.change, Int.sub_eq_add_neg]
  | process frame message =>
    cases hs
    simp [Counting.change_hold]
  | associateEnter ap ies =>
    simp only [stepCall] at hs
    split at hs <;> cases hs <;> simp [Counting.change]
  | associateAllocate ap ies | waitAllocate =>
    simp only [stepCall] at hs
    split at hs <;> cases hs <;> simp [Counting.change]
  | associateArm context =>
    have hsame := stepObjects_references hs fun o s' ho => by cases ho; rfl
    simp [Counting.change, hsame]
  | deauthenticateFirst reason | deauthenticateSecond status | waitCritical | receive frame =>
    simp only [stepCall] at hs
    split at hs <;> cases hs <;> simp [Counting.change]
  | waiting semaphore result =>
    simp only [stepCall] at hs
    split at hs <;> cases hs
    simp [Counting.change]
  | associateSetChannel context | associateSend context | deauthenticateSend reason address
  | filter frame expectedState message | enqueueCleanup =>
    cases hs
    simp [Counting.change]
  | returned status => cases hs
  | handled => cases hs

/-- **A step of the association changes the counter that it is said to change.** -/
theorem counting_references {action : Action} (hs : step action s = some s') (a : AccessPoint) :
    s'.references a = s.references a + Counting.change (s.counting action) a := by
  cases action with
  | advance i outcome =>
    simp only [step] at hs
    split at hs
    · cases hs
    · next c hc => exact stepCall_references hc hs a
  | advanceCleanup =>
    simp only [step] at hs
    split at hs
    · cases hs
    · next pc hw =>
      simp only [System.counting, hw]
      cases pc with
      | releaseAp context disconnected =>
        cases hs
        simp [Counting.change, Int.sub_eq_add_neg]
      | releaseDisconnected context disconnected =>
        cases hs
        simp [Counting.change_release, Int.sub_eq_add_neg]
      | first | second context =>
        cases hs
        simp [Counting.change]
      | freeAuthTimer context disconnected | freeAssocTimer context disconnected
      | freeCompletionWork context disconnected | freeAuthTimeoutWork context disconnected
      | freeAssocTimeoutWork context disconnected | freeContext context disconnected =>
        simp [Counting.change, stepDestroy_references hs]
  | invoke entry | scanBegin | scanEnd =>
    cases hs
    simp [System.counting, Counting.change]
  | expire k kind | startTimeout k kind | startCompletion k =>
    have hsame : s'.references = s.references := by
      refine stepObjects_references hs fun o s' ho => ?_
      obtain ⟨w, -, rfl⟩ := Option.map_eq_some_iff.mp ho
      rfl
    simp [System.counting, Counting.change, hsame]
  | advanceTimeout k kind =>
    have hsame : s'.references = s.references := by
      refine stepObjects_references hs fun o s' ho => ?_
      obtain ⟨pc, -, rfl⟩ := Option.map_eq_some_iff.mp ho
      cases pc with
      | critical =>
        have hheld : (associationTimeout s.association o.context kind.expectedState).held =
            none := by
          unfold associationTimeout
          split
          · rfl
          · split <;> rfl
        funext a
        simp [stepTimeout, hheld]
      | enqueueCleanup => rfl
    simp [System.counting, Counting.change, hsame]
  | advanceCompletion k =>
    have hsame : s'.references = s.references := by
      refine stepObjects_references hs fun o s' ho => ?_
      obtain ⟨pc, -, rfl⟩ := Option.map_eq_some_iff.mp ho
      cases pc <;> rfl
    simp [System.counting, Counting.change, hsame]
  | startCleanup =>
    obtain ⟨w, -, rfl⟩ := Option.map_eq_some_iff.mp hs
    simp [System.counting, Counting.change]

/-- A call needs an access point of a caller if it did so before, or if it has just been made with
it. -/
theorem Effect.borrowed_cases {action : Action} (he : Effect s action s') {ap : AccessPoint}
    (h : ∃ c ∈ s'.calls, c.borrowed = some ap) :
    (∃ c ∈ s.calls, c.borrowed = some ap) ∨ ∃ ies, action = .invoke (.associate ap ies) := by
  obtain ⟨call, h, hb⟩ := h
  -- a call that goes on needs nothing that it did not need before
  have hset {i : Nat} {c c' : Call} (hc : s.calls[i]? = some c) (hm : call ∈ s.calls.set i c')
      (hkept : c'.borrowed = none ∨ c'.borrowed = c.borrowed) :
      ∃ c ∈ s.calls, c.borrowed = some ap := by
    rcases List.mem_or_eq_of_mem_set hm with hm | rfl
    · exact ⟨call, hm, hb⟩
    · rcases hkept with hn | hsame
      · rw [hn] at hb
        cases hb
      · exact ⟨c, List.mem_of_getElem? hc, hsame.symm.trans hb⟩
  cases he with
  | @invoke entry =>
    rcases List.mem_append.mp h with h | h
    · exact Or.inl ⟨call, h, hb⟩
    · rw [List.mem_singleton] at h
      subst h
      cases entry with
      | associate ap' ies =>
        cases hb
        exact Or.inr ⟨ies, rfl⟩
      | _ => cases hb
  | quiet hcall hq =>
    refine Or.inl (hset hcall h ?_)
    cases hq with
    | allocated => exact Or.inr rfl
    | _ => exact Or.inl rfl
  | takeDisconnected hcall => exact Or.inl (hset hcall h (Or.inr rfl))
  | releaseTaken hcall => exact Or.inl (hset hcall h (Or.inr rfl))
  | @receive _ _ frame plan hcall hp =>
    exact Or.inl (hset hcall h (Or.inl (by cases plan <;> rfl)))
  | filter hcall hn =>
    refine Or.inl (hset hcall h (Or.inl ?_))
    rcases hn with rfl | ⟨m, -, rfl, -⟩ <;> rfl
  | process hcall hr =>
    rw [System.setCall_calls, applySection_calls] at h
    exact Or.inl (hset hcall h (Or.inl (by split <;> rfl)))
  | timeout ho hw hr =>
    rw [System.setObjects_calls, applySection_calls] at h
    exact Or.inl ⟨call, h, hb⟩
  | cleanupSecond hw =>
    rcases mem_wake h with h | ⟨n, r, rfl⟩
    · exact Or.inl ⟨call, h, hb⟩
    · cases hb
  | install hcall | arm hcall | deauthenticateFirst hcall | deauthenticateSecond hcall
  | deauthenticateRelease hcall | answer hcall | wait hcall | woken hcall | enqueueCleanup hcall =>
    exact Or.inl (hset hcall h (Or.inl rfl))
  | _ => exact Or.inl ⟨call, h, hb⟩

/-- An access point that a step of the association holds is one of the caller, or of the attempt. -/
theorem counting_hold_cases (hr : Reachable own s) {action : Action} {ap : AccessPoint}
    (hc : s.counting action = some (.hold ap)) :
    (∃ c ∈ s.calls, c.borrowed = some ap) ∨ 0 < s.references ap := by
  have hrelease {disconnected : Option AccessPoint} :
      disconnected.map Counting.release ≠ some (.hold ap) := by
    cases disconnected <;> simp
  cases action with
  | advance i outcome =>
    simp only [System.counting] at hc
    split at hc
    · exact absurd hc hrelease
    · next ap' ies hcall =>
      obtain ⟨_, -, he⟩ := Option.map_eq_some_iff.mp hc
      cases he
      exact Or.inl ⟨_, List.mem_of_getElem? hcall, rfl⟩
    · cases hc
    · next frame message hcall =>
      obtain ⟨ap', hheld, he⟩ := Option.map_eq_some_iff.mp hc
      cases he
      refine Or.inr ?_
      have hconsistent := Reachable.consistent hr
      -- only a section that ends an attempt takes a reference, and the attempt has one
      have hcontext : ∃ context, s.association.associationContext = some context ∧
          context.ap = ap := by
        have hstep := associationProcess_step hconsistent message
        generalize associationProcess s.association message = r at hheld hstep
        cases hstep with
        | unchanged => cases hheld
        | authenticated => cases hheld
        | @ended context result hx =>
          refine ⟨context, hx, ?_⟩
          simp only [SectionResult.ended] at hheld
          split at hheld
          · exact Option.some.inj hheld
          · cases hheld
        | disconnected => cases hheld
      obtain ⟨context, hx, rfl⟩ := hcontext
      have hle := owners_le_references hr context.ap
      have hslot : owns (attemptSlot s.association.associationContext) context.ap = 1 := by
        rw [hx]
        exact owns_self _
      have hattempt : owns (attemptSlot s.association.associationContext) context.ap ≤
          s.owners context.ap := owns_attempt_le_owners s context.ap
      omega
    · cases hc
  | advanceCleanup =>
    simp only [System.counting] at hc
    split at hc
    · cases hc
    · exact absurd hc hrelease
    · cases hc
  | _ => cases hc

/-! ## Callers among other owners -/

/-- The call runs under the lock of the cache; the other ones change a counter alone. -/
def CacheAction.onCache : CacheAction → Bool
  | .allocate _ _ | .hold _ | .release _ => false
  | _ => true

namespace CacheSystem

open RbTree

variable {c c' : CacheSystem} {others : AccessPoint → Nat} {l : List AccessPoint}
  {a : CacheAction}

/-- The callers own some more references. -/
def more (c : CacheSystem) (others : AccessPoint → Nat) : CacheSystem :=
  { c with owned := fun a => c.owned a + others a }

theorem give_more (owned : AccessPoint → Nat) (aps : List AccessPoint) :
    (fun a => give owned aps a + others a) = give (fun a => owned a + others a) aps := by
  funext a
  exact Nat.add_right_comm _ _ _

theorem owned_more_ne {ap : AccessPoint} (h : c.owned ap ≠ 0) : c.owned ap + others ap ≠ 0 := by
  omega

/-- A call does not look at the references of others. -/
theorem step_more (hs : step a c = some c') : step a (c.more others) = some (c'.more others) := by
  cases a with
  | allocate ap node =>
    simp only [step] at hs ⊢
    split at hs
    · cases hs
    · next hn =>
      cases hs
      rw [more, more, if_neg hn, give_more]
  | hold ap =>
    simp only [step] at hs ⊢
    split at hs
    · cases hs
    · next hpos =>
      obtain ⟨cache, hc, hs⟩ := Option.bind_eq_some_iff.mp hs
      cases hs
      rw [more, more, give_more, if_neg (owned_more_ne hpos)]
      exact bind_of hc _
  | release ap =>
    simp only [step] at hs ⊢
    split at hs
    · cases hs
    · next hpos =>
      obtain ⟨cache, hc, hs⟩ := Option.bind_eq_some_iff.mp hs
      cases hs
      have hback : (fun a => giveBack c.owned ap a + others a) =
          giveBack (fun a => c.owned a + others a) ap := by
        funext a
        unfold giveBack
        by_cases ha : a = ap
        · subst ha
          rw [Function.update_self, Function.update_self]
          show c.owned a - 1 + others a = c.owned a + others a - 1
          omega
        · rw [Function.update_of_ne ha, Function.update_of_ne ha]
      rw [more, more, hback, if_neg (owned_more_ne hpos)]
      exact bind_of hc _
  | insert ap =>
    simp only [step] at hs ⊢
    split at hs
    · cases hs
    · next hpos =>
      obtain ⟨cache, hc, hs⟩ := Option.bind_eq_some_iff.mp hs
      cases hs
      rw [more, if_neg (owned_more_ne hpos)]
      exact bind_of hc _
  | find mac =>
    obtain ⟨⟨cache, found⟩, hc, hs⟩ := Option.bind_eq_some_iff.mp hs
    cases hs
    rw [more, more, give_more]
    exact bind_of hc _
  | getAps capacity =>
    obtain ⟨⟨cache, buffer⟩, hc, hs⟩ := Option.bind_eq_some_iff.mp hs
    cases hs
    rw [more, more, give_more]
    exact bind_of hc _
  | remove mac | getCount | purge | deinit =>
    obtain ⟨x, hc, hs⟩ := Option.bind_eq_some_iff.mp hs
    cases hs
    exact bind_of hc _

/-- What a call does to the entries. -/
theorem entries_of_step {m m' : CacheMap} (hs : m.Step m' a) :
    (a.onCache = false → m'.entries = m.entries) ∧
      ∀ mac ap, m'.entries mac = some ap → m.entries mac = some ap ∨ a = .insert ap := by
  cases a with
  | allocate | hold | release | find | getCount =>
    cases hs
    exact ⟨fun _ => rfl, fun mac ap he => Or.inl he⟩
  | getAps capacity =>
    obtain ⟨aps, -, rfl⟩ := hs
    exact ⟨fun _ => rfl, fun mac ap he => Or.inl he⟩
  | insert ap =>
    cases hs
    refine ⟨(fun hc => by cases hc), fun mac ap' he => ?_⟩
    dsimp only at he
    split at he
    · by_cases hmac : mac = ap.macAddress
      · rw [hmac, Function.update_self, Option.some_inj] at he
        exact Or.inr (by rw [he])
      · rw [Function.update_of_ne hmac] at he
        exact Or.inl he
    · exact Or.inl he
  | remove mac =>
    cases hs
    refine ⟨(fun hc => by cases hc), fun mac' ap he => ?_⟩
    dsimp only at he
    by_cases hmac : mac' = mac
    · rw [hmac, Function.update_self] at he
      cases he
    · rw [Function.update_of_ne hmac] at he
      exact Or.inl he
  | purge =>
    cases hs
    exact ⟨(fun hc => by cases hc), fun mac ap he => Or.inl (Option.filter_eq_some_iff.mp he).1⟩
  | deinit =>
    cases hs
    exact ⟨(fun hc => by cases hc), fun mac ap he => by cases he⟩

/-- Callers insert what they own. -/
theorem owned_of_insert {ap : AccessPoint} (hs : step (.insert ap) c = some c') :
    c.owned ap ≠ 0 := by
  intro hzero
  rw [step, if_pos hzero] at hs
  cases hs

/-- A call of the callers keeps the counters right, and what it does to the entries. -/
theorem step_represents (h : c.cache.Represents l (c.more others).owned)
    (hn : BssCache.Countable l (c.more others).owned) (hlock : c.cache.rwlock = true)
    (ha : a ≠ .deinit) (hs : step a c = some c') :
    ∃ l', c'.cache.Represents l' (c'.more others).owned ∧ c'.cache.rwlock = true ∧
      ((c.more others).mapOf l).Step ((c'.more others).mapOf l') a := by
  have hrep : (c.more others).cache.Represents l (c.more others).owned := h
  have hmore : step a (c.more others) = some (c'.more others) := step_more hs
  obtain ⟨c₁, l', hstep, hrep', hmap⟩ := step_spec hrep hn (enabled_of_step hrep hmore)
  cases hmore.symm.trans hstep
  refine ⟨l', hrep', ?_, hmap⟩
  -- only the last call frees the lock
  have halive : ((c'.more others).mapOf l').alive = ((c.more others).mapOf l).alive := by
    cases a with
    | getAps capacity =>
      obtain ⟨aps, -, he⟩ := hmap
      rw [he]
    | deinit => exact absurd rfl ha
    | _ => rw [show _ = _ from hmap]
  exact halive.trans hlock

end CacheSystem

/-! ## The reference of `scan_work` -/

/-- The access point that `scan_work` has allocated and not released yet. -/
def ScanPc.held : ScanPc → Option AccessPoint
  | .insert ap | .release ap => some ap
  | _ => none

def ScanState.held (o : ScanState) : Option AccessPoint := o.work.work.running.bind ScanPc.held

namespace Machine

variable {m m' : Machine} {w : Option Owner} {event : Event} {held : Option AccessPoint}
  {l : List AccessPoint} {others : AccessPoint → Nat}

/-- The access point that the work of scan state `k` holds. -/
def heldAt (m : Machine) (k : Nat) : Option AccessPoint := (m.scanStates k).bind ScanState.held

/-- `held` is what the scans hold. -/
def Holds (m : Machine) (held : Option AccessPoint) : Prop :=
  ∀ a, held = some a ↔ ∃ k, m.heldAt k = some a

theorem scanStates_setScanState (m : Machine) (k : Nat) (o : ScanState) :
    (m.setScanState k o).scanStates = Function.update m.scanStates k (some o) := rfl

theorem heldAt_of {k : Nat} {o : ScanState} (ho : m.scanStates k = some o) :
    m.heldAt k = o.held := by
  rw [heldAt, ho, Option.bind_some]

theorem heldAt_update {k : Nat} {o : ScanState}
    (hstates : m'.scanStates = Function.update m.scanStates k (some o)) (j : Nat) :
    m'.heldAt j = if j = k then o.held else m.heldAt j := by
  rw [heldAt, hstates]
  by_cases hj : j = k
  · subst hj
    rw [Function.update_self, Option.bind_some, if_pos rfl]
  · rw [Function.update_of_ne hj, if_neg hj, heldAt]

theorem Holds.congr (h : m.Holds held) (he : ∀ k, m'.heldAt k = m.heldAt k) : m'.Holds held := by
  intro a
  simp only [he]
  exact h a

theorem Holds.states (h : m.Holds held) (hstates : m'.scanStates = m.scanStates) :
    m'.Holds held :=
  h.congr fun k => by rw [heldAt, heldAt, hstates]

/-- A step of a scan that stays out of the lines that hold an access point. -/
theorem Holds.update (h : m.Holds held) {k : Nat} {o : ScanState}
    (hstates : m'.scanStates = Function.update m.scanStates k (some o))
    (he : o.held = m.heldAt k) : m'.Holds held := by
  refine h.congr fun j => ?_
  rw [heldAt_update hstates]
  split
  · next hj => rw [he, hj]
  · rfl

/-- Only the work that runs holds an access point. -/
theorem Holds.work (h : m.Holds held) (hw : m.Fits w) {k : Nat} {o o' : ScanState} {pc : ScanPc}
    (ho : m.scanStates k = some o) (hrun : o.work.work.running = some pc)
    (hstates : m'.scanStates = Function.update m.scanStates k (some o')) :
    held = pc.held ∧ m'.Holds o'.held := by
  have hself : m.heldAt k = pc.held := by
    rw [heldAt_of ho, ScanState.held, hrun, Option.bind_some]
  have hother : ∀ j a, j ≠ k → m.heldAt j ≠ some a := by
    intro j a hj hheld
    obtain ⟨oj, hoj, hheld⟩ := Option.bind_eq_some_iff.mp hheld
    obtain ⟨pcj, hrunj, -⟩ := Option.bind_eq_some_iff.mp hheld
    cases (hw.of_running hoj hrunj).symm.trans (hw.of_running ho hrun)
    exact hj rfl
  constructor
  · refine Option.ext fun a => ?_
    rw [h a, ← hself]
    refine ⟨fun ⟨j, hj⟩ => ?_, fun hk => ⟨k, hk⟩⟩
    by_cases hjk : j = k
    · rwa [← hjk]
    · exact absurd hj (hother j a hjk)
  · intro a
    refine ⟨fun ha => ⟨k, ?_⟩, fun ⟨j, hj⟩ => ?_⟩
    · rw [heldAt_update hstates, if_pos rfl, ha]
    · rw [heldAt_update hstates] at hj
      split at hj
      · exact hj
      · next hjk => exact absurd hj (hother j a hjk)

/-! ## The counters -/

/-- The cache holds the access points of the list, the callers own what they own, and the
association and the scan that holds `held` own the other references. -/
structure Backed (m : Machine) (l : List AccessPoint) (held : Option AccessPoint)
    (others : AccessPoint → Nat) : Prop where
  cache : m.callers.cache.Represents l fun a => m.callers.owned a + others a
  rwlock : m.callers.cache.rwlock = true
  holds : m.Holds held
  count : ∀ a, (others a : Int) = m.system.references a + owns held a

/-- It holds when the device has been registered. -/
theorem backed_registered (own : MacAddress) :
    (Machine.registered own).Backed [] none fun _ => 0 where
  cache := CacheSystem.init_represents
  rwlock := rfl
  holds := fun a => iff_of_false (Option.some_ne_none a).symm (by rintro ⟨k, ⟨⟩⟩)
  count := fun _ => rfl

/-- The callers and the association own so few references to an access point that its counter tells
their number, with the one of the cache and the one of `scan_work`. -/
def InRange (m : Machine) : Prop :=
  ∀ a, (m.callers.owned a : Int) + m.system.references a + 2 ≤ 2 ^ 32

theorem Backed.countable (h : m.Backed l held others) (hn : m.InRange) :
    BssCache.Countable l fun a => m.callers.owned a + others a := by
  intro a
  have hone : l.count a ≤ 1 := List.nodup_iff_count_le_one.mp h.cache.nodup a
  have hheld := owns_le_one held a
  have hcount := h.count a
  have hrange := hn a
  show l.count a + (m.callers.owned a + others a) ≤ 2 ^ 32
  omega

/-- A step that has nothing to do with the memory of the access points. -/
theorem Backed.frame (h : m.Backed l held others) (hcallers : m'.callers = m.callers)
    (hrefs : m'.system.references = m.system.references) (hheld : m'.Holds held) :
    m'.Backed l held others where
  cache := by rw [hcallers]; exact h.cache
  rwlock := by rw [hcallers]; exact h.rwlock
  holds := hheld
  count := by rw [hrefs]; exact h.count

/-- A step of the association changes one counter at most. -/
theorem Backed.association (h : m.Backed l held others) (hn : m.InRange)
    {action : Action} {system : System} {cache : BssCache}
    (hs : U80211.step action m.system = some system) (hr : U80211.Reachable own system)
    (hc : m.callers.cache.count (m.system.counting action) = some cache)
    (hcallers : m'.callers = { m.callers with cache }) (hsystem : m'.system = system)
    (hstates : m'.scanStates = m.scanStates) : ∃ others', m'.Backed l held others' := by
  have hchange := counting_references hs
  have hheld : m'.Holds held := h.holds.states hstates
  have hrefs := h.count
  cases hcounting : m.system.counting action with
  | none =>
    rw [hcounting] at hc hchange
    cases hc
    refine ⟨others, ?_, ?_, hheld, fun a => ?_⟩
    · rw [hcallers]; exact h.cache
    · rw [hcallers]; exact h.rwlock
    · rw [hsystem, hchange a, hrefs a]
      simp [Counting.change]
  | some counting =>
    rw [hcounting] at hc hchange
    cases counting with
    | hold ap =>
      have halloc : m.callers.cache.Allocated ap := by
        by_contra hn
        rw [show m.callers.cache.count (some (.hold ap)) = none from if_neg hn] at hc
        cases hc
      obtain ⟨c, hc', hrep, -, -, hlock⟩ := h.cache.held halloc
      cases hc.symm.trans hc'
      refine ⟨fun a => others a + [ap].count a, ?_, ?_, hheld, fun a => ?_⟩
      · rw [hcallers]
        exact hrep.congr fun a => (Nat.add_assoc _ _ _).symm
      · rw [hcallers]
        exact hlock.trans h.rwlock
      · have hadd : system.references a = m.system.references a + owns (some ap) a := hchange a
        have hone := count_singleton_eq_owns ap a
        have hold := hrefs a
        rw [hsystem]
        omega
    | release ap =>
      -- what is released has been counted
      have hnonneg := references_nonneg hr ap
      have hadd : ∀ a, system.references a = m.system.references a + -owns (some ap) a := hchange
      have hone := hadd ap
      rw [owns_self] at hone
      have hold := hrefs ap
      have hself := owns_nonneg held ap
      have hpos : 0 < others ap := by omega
      obtain ⟨c, hc', hrep, -, hlock⟩ :=
        h.cache.released (h.countable hn) (show 0 < m.callers.owned ap + others ap by omega)
      cases hc.symm.trans hc'
      refine ⟨Function.update others ap (others ap - 1), ?_, ?_, hheld, fun a => ?_⟩
      · rw [hcallers]
        refine hrep.congr fun a => ?_
        by_cases ha : a = ap
        · subst ha
          simp only [Function.update_self]
          omega
        · simp only [Function.update_of_ne ha]
      · rw [hcallers]
        exact hlock.trans h.rwlock
      · rw [hsystem]
        by_cases ha : a = ap
        · subst ha
          rw [Function.update_self]
          omega
        · have hne : owns (some ap) a = 0 := if_neg fun he => ha (Option.some.inj he).symm
          rw [Function.update_of_ne ha, hrefs a, hadd a, hne]
          omega

/-- A call of the callers changes what they own alone. -/
theorem Backed.callers (h : m.Backed l held others) (hn : m.InRange) {action : CacheAction}
    {callers : CacheSystem} (ha : m.AllowsCache action)
    (hs : CacheSystem.step action m.callers = some callers) :
    ∃ l', ({ m with callers } : Machine).Backed l' held others ∧
      ((m.callers.more others).mapOf l).Step ((callers.more others).mapOf l') action := by
  have hne : action ≠ .deinit := by
    rintro rfl
    exact ha
  obtain ⟨l', hrep, hlock, hmap⟩ :=
    CacheSystem.step_represents h.cache (h.countable hn) h.rwlock hne hs
  exact ⟨l', ⟨hrep, hlock, h.holds.states rfl, h.count⟩, hmap⟩

/-- A scan removes what nobody else holds. -/
theorem Backed.purge (h : m.Backed l held others) (hn : m.InRange) {cache : BssCache}
    (hp : m.callers.cache.purge m.callers.rounds = some cache)
    (hcallers : m'.callers = { m.callers with cache }) (hsystem : m'.system = m.system)
    (hstates : m'.scanStates = m.scanStates) :
    m'.Backed (l.filter fun a => m.callers.owned a + others a ≠ 0) held others := by
  have hrounds : l.length + 2 ≤ m.callers.rounds := (congrArg (· + 2) h.cache.entryCount).ge
  obtain ⟨c, hc, hrep, hlock⟩ := BssCache.purge_spec h.cache (h.countable hn) h.rwlock hrounds
  cases hp.symm.trans hc
  refine ⟨?_, ?_, h.holds.states hstates, fun a => ?_⟩
  · rw [hcallers]; exact hrep
  · rw [hcallers]; exact hlock
  · rw [hsystem]; exact h.count a

section Work

variable (hw : m.Fits w) {k : Nat} {o o' : ScanState} {pc : ScanPc}
  (ho : m.scanStates k = some o) (hrun : o.work.work.running = some pc)
  (hstates : m'.scanStates = Function.update m.scanStates k (some o'))
  (hsystem : m'.system = m.system)

include hw ho hrun hstates hsystem

/-- A line of `scan_work` that holds what the line before it held. -/
theorem Backed.work (h : m.Backed l held others) (hcallers : m'.callers = m.callers)
    (he : o'.held = pc.held) : m'.Backed l held others := by
  obtain ⟨rfl, hholds⟩ := h.holds.work hw ho hrun hstates
  exact h.frame hcallers (by rw [hsystem]) (he ▸ hholds)

/-- `scan_work` gets an access point with the reference of an allocation. -/
theorem Backed.allocateAp (h : m.Backed l held others) {ap : AccessPoint}
    {node : RbNode AccessPoint} (hpc : pc.held = none)
    (hn : ¬ m.callers.cache.Allocated ap)
    (hcallers : m'.callers = { m.callers with cache := m.callers.cache.apAllocate ap node })
    (he : o'.held = some ap) :
    m'.Backed l (some ap) fun a => others a + [ap].count a := by
  obtain ⟨rfl, hholds⟩ := h.holds.work hw ho hrun hstates
  refine ⟨?_, ?_, he ▸ hholds, fun a => ?_⟩
  · rw [hcallers]
    exact (BssCache.apAllocate_spec h.cache hn node).congr fun a => (Nat.add_assoc _ _ _).symm
  · rw [hcallers]
    exact h.rwlock
  · have hcount := h.count a
    rw [hpc, owns_none] at hcount
    have hone := count_singleton_eq_owns ap a
    rw [hsystem]
    omega

/-- The access point of `scan_work` goes into the cache unless there is one with its address. -/
theorem Backed.insert (h : m.Backed l held others) (hr : U80211.Reachable own m.system)
    {ap : AccessPoint} {cache : BssCache} (hpc : pc.held = some ap)
    (hi : m.callers.cache.insert m.callers.rounds ap = some cache)
    (hcallers : m'.callers = { m.callers with cache }) (he : o'.held = some ap) :
    ∃ l', m'.Backed l' held others ∧
      (l.find? (·.macAddress = ap.macAddress) ≠ none → l' = l) ∧
      (l.find? (·.macAddress = ap.macAddress) = none →
        ∃ pre post, l = pre ++ post ∧ l' = pre ++ ap :: post) := by
  obtain ⟨rfl, hholds⟩ := h.holds.work hw ho hrun hstates
  have hpos : 0 < m.callers.owned ap + others ap := by
    have hcount := h.count ap
    rw [hpc, owns_self] at hcount
    have hnonneg := references_nonneg hr ap
    omega
  have hrounds : l.length < m.callers.rounds := by
    have hlength := h.cache.entryCount
    unfold CacheSystem.rounds
    omega
  obtain ⟨c, l', hc, hrep, hlock, hold, hnew⟩ :=
    BssCache.insert_spec h.cache h.rwlock hpos hrounds
  cases hi.symm.trans hc
  refine ⟨l', ⟨?_, ?_, ?_, fun a => ?_⟩, fun hfind => (hold hfind).2, hnew⟩
  · rw [hcallers]; exact hrep
  · rw [hcallers]; exact hlock
  · rw [hpc, ← he]; exact hholds
  · rw [hsystem]; exact h.count a

/-- `scan_work` gives back the reference of the allocation. -/
theorem Backed.release (h : m.Backed l held others) (hn : m.InRange)
    (hr : U80211.Reachable own m.system) {ap : AccessPoint} {cache : BssCache}
    (hpc : pc.held = some ap)
    (hrelease : m.callers.cache.apRelease ap = some cache)
    (hcallers : m'.callers = { m.callers with cache }) (he : o'.held = none) :
    m'.Backed l none (Function.update others ap (others ap - 1)) := by
  have hcountable := h.countable hn
  obtain ⟨rfl, hholds⟩ := h.holds.work hw ho hrun hstates
  have hcount := h.count
  rw [hpc] at hcount
  have hself := hcount ap
  rw [owns_self] at hself
  have hnonneg := references_nonneg hr ap
  obtain ⟨c, hc, hrep, -, hlock⟩ :=
    h.cache.released hcountable (show 0 < m.callers.owned ap + others ap by omega)
  cases hrelease.symm.trans hc
  refine ⟨?_, ?_, he ▸ hholds, fun a => ?_⟩
  · rw [hcallers]
    refine hrep.congr fun a => ?_
    by_cases ha : a = ap
    · subst ha
      simp only [Function.update_self]
      omega
    · simp only [Function.update_of_ne ha]
  · rw [hcallers]
    exact hlock.trans h.rwlock
  · rw [hsystem, owns_none]
    by_cases ha : a = ap
    · subst ha
      rw [Function.update_self]
      omega
    · have hne : owns (some ap) a = 0 := if_neg fun he => ha (Option.some.inj he).symm
      rw [Function.update_of_ne ha, hcount a, hne]

end Work

/-! ## The entries of the cache -/

/-- The access point that `u80211_bss_cache_find` answers. -/
def cached (m : Machine) (mac : MacAddress) : Option AccessPoint :=
  (m.callers.cache.find m.callers.rounds mac).bind Prod.snd

/-- What a step does to the entries of the cache. -/
inductive Refills (m : Machine) : Event → (MacAddress → Option AccessPoint) → Prop
  | kept {e : Event} : Refills m e m.cached
  | cache {action : CacheAction} {entries : MacAddress → Option AccessPoint}
      (ha : action.onCache = true)
      (h : ∀ mac ap, entries mac = some ap → m.cached mac = some ap ∨ m.callers.owned ap ≠ 0) :
      Refills m (.cache action) entries
  | purge {i k : Nat} {outcome : ScanOutcome} (hc : m.scanCalls[i]? = some (.scanPurge k)) :
      Refills m (.advance i outcome) fun mac =>
        (m.cached mac).filter fun ap => m.callers.cache.refcount ap ≠ 1
  | insert {k : Nat} {outcome : ScanOutcome} {o : ScanState} {ap : AccessPoint}
      (ho : m.scanStates k = some o) (hrun : o.work.work.running = some (.insert ap)) :
      Refills m (.advanceWork k outcome)
        (if m.cached ap.macAddress = none then
          Function.update m.cached ap.macAddress (some ap)
        else m.cached)

/-- A look-up answers the entry of the address. -/
theorem Backed.find (h : m.Backed l held others) (mac : MacAddress) :
    ∃ cache, m.callers.cache.find m.callers.rounds mac =
      some (cache, ((m.callers.more others).mapOf l).entries mac) := by
  have hrounds : l.length < m.callers.rounds := by
    have hlength := h.cache.entryCount
    unfold CacheSystem.rounds
    omega
  obtain ⟨cache, hfind, -⟩ := BssCache.find_spec mac h.cache h.rwlock hrounds
  exact ⟨cache, hfind⟩

theorem Backed.cached_eq (h : m.Backed l held others) :
    m.cached = ((m.callers.more others).mapOf l).entries := by
  funext mac
  obtain ⟨cache, hfind⟩ := h.find mac
  rw [cached, hfind, Option.bind_some]

/-- What a look-up in the cache finds. -/
theorem Backed.cached_iff (h : m.Backed l held others) {mac : MacAddress} {ap : AccessPoint} :
    m.cached mac = some ap ↔ ap ∈ l ∧ ap.macAddress = mac := by
  rw [h.cached_eq]
  exact h.cache.find?_eq_some

/-- The counter of an entry is 1 when the cache has the only reference. -/
theorem Backed.refcount_eq_one_iff (h : m.Backed l held others) (hn : m.InRange)
    {mac : MacAddress} {ap : AccessPoint} (hap : m.cached mac = some ap) :
    m.callers.cache.refcount ap = 1 ↔
      (m.callers.owned ap : Int) + (m.system.references ap + owns held ap) = 0 := by
  have hin := (h.cached_iff.mp hap).1
  have hone : l.count ap = 1 := by
    rw [h.cache.nodup.count, if_pos hin]
  have halloc : m.callers.cache.Allocated ap := (h.cache.allocated ap).mpr (by omega)
  have hcount := h.count ap
  rw [h.cache.refcount ap halloc, BssCache.ofNat_eq_one_iff (h.countable hn ap), hone]
  show 1 + (m.callers.owned ap + others ap) = 1 ↔ _
  omega

/-- The same entries as before. -/
theorem Refills.of_same (h : m.Backed l held others) {held' : Option AccessPoint}
    {others' : AccessPoint → Nat} (h' : m'.Backed l held' others') :
    Refills m event m'.cached := by
  have hsame : m'.cached = m.cached := by rw [h.cached_eq, h'.cached_eq]; rfl
  rw [hsame]
  exact .kept

/-- While a call has the scan, no work holds an access point. -/
theorem Holds.of_call (h : m.Holds held) (hw : m.Fits w) {i k : Nat} {c : ScanCall}
    (hc : m.scanCalls[i]? = some c) (hk : c.claimed = some k) : held = none := by
  refine Option.eq_none_iff_forall_ne_some.mpr fun ap hap => ?_
  obtain ⟨j, hj⟩ := (h ap).mp hap
  obtain ⟨o, ho, hheld⟩ := Option.bind_eq_some_iff.mp hj
  obtain ⟨pc, hrun, -⟩ := Option.bind_eq_some_iff.mp hheld
  cases (hw.of_running ho hrun).symm.trans ((hw.calls i k c hk).mp hc)

/-- A scan removes the entries that nobody has a reference to. -/
theorem Backed.cached_purge (h : m.Backed l held others) (hn : m.InRange)
    (h' : m'.Backed (l.filter fun a => m.callers.owned a + others a ≠ 0) held others) :
    m'.cached = fun mac => (m.cached mac).filter fun ap => m.callers.cache.refcount ap ≠ 1 := by
  funext mac
  refine Option.ext fun ap => ?_
  rw [h'.cached_iff, Option.filter_eq_some_iff, List.mem_filter, h.cached_iff, and_right_comm]
  refine and_congr_right fun hap => ?_
  have hone := h.refcount_eq_one_iff hn (h.cached_iff.mpr hap)
  have hothers := h.count ap
  simp only [decide_eq_true_eq, ne_eq, hone]
  omega

/-- `scan_work` adds an entry unless there is one with the address. -/
theorem Backed.cached_insert (h : m.Backed l held others) {l' : List AccessPoint}
    (h' : m'.Backed l' held others) {ap : AccessPoint}
    (hold : l.find? (·.macAddress = ap.macAddress) ≠ none → l' = l)
    (hnew : l.find? (·.macAddress = ap.macAddress) = none →
      ∃ pre post, l = pre ++ post ∧ l' = pre ++ ap :: post) :
    m'.cached = if m.cached ap.macAddress = none then
      Function.update m.cached ap.macAddress (some ap) else m.cached := by
  have hentry : m.cached ap.macAddress = l.find? (·.macAddress = ap.macAddress) := by
    rw [h.cached_eq]
    rfl
  by_cases hfind : l.find? (·.macAddress = ap.macAddress) = none
  · obtain ⟨pre, post, rfl, rfl⟩ := hnew hfind
    rw [if_pos (hentry.trans hfind), h.cached_eq, h'.cached_eq]
    exact CacheSystem.entries_insert (s := m.callers.more others) h.cache h'.cache
  · obtain rfl := hold hfind
    rw [if_neg fun he => hfind (hentry.symm.trans he), h.cached_eq, h'.cached_eq]
    rfl

theorem ScanPc.held_of_leaveDrain {o : ScanState} {pc : ScanPc} (h : o.leaveDrain = some pc) :
    pc.held = none := by
  rcases ScanState.leaveDrain_cases h with rfl | ⟨channel, rfl⟩ <;> rfl

/-- The lines of `destroy_scan_state` leave alone what the work holds. -/
theorem Destroys.held_eq {o o' : ScanState} {pc next : ScanCleanupPc} {k : Nat}
    (h : Destroys k pc next o o') : o'.held = o.held := by
  cases h with
  | timer => simp [ScanState.held]
  | work hfree =>
    obtain ⟨hnone, rfl⟩ := DelayedWork.freeWork_eq_some hfree
    rw [ScanState.held, ScanState.held, hnone]
  | buffer => rfl
  | state => rfl

/-- An operation of the callers adds what they own at most. -/
theorem Backed.refills_callers (h : m.Backed l held others) (hn : m.InRange)
    {action : CacheAction} {callers : CacheSystem} (ha : m.AllowsCache action)
    (hs : CacheSystem.step action m.callers = some callers) :
    ∃ l', ({ m with callers } : Machine).Backed l' held others ∧
      Refills m (.cache action) ({ m with callers } : Machine).cached := by
  obtain ⟨l', hb, hmap⟩ := h.callers hn ha hs
  refine ⟨l', hb, ?_⟩
  obtain ⟨hsame, hcases⟩ := CacheSystem.entries_of_step hmap
  cases hon : action.onCache with
  | false =>
    have hcached : ({ m with callers } : Machine).cached = m.cached := by
      rw [h.cached_eq, hb.cached_eq, hsame hon]
    rw [hcached]
    exact .kept
  | true =>
    refine .cache hon fun mac ap hap => ?_
    rw [hb.cached_eq] at hap
    rw [h.cached_eq]
    rcases hcases mac ap hap with hold | rfl
    · exact Or.inl hold
    · exact Or.inr (CacheSystem.owned_of_insert hs)

/-- **Every step of the machine keeps the counters right, and only few change the entries.** -/
theorem Effect.refills (h : m.Backed l held others) (hn : m.InRange) (hw : m.Fits w)
    (hr : U80211.Reachable own m.system) (hr' : U80211.Reachable own m'.system)
    (he : Effect m event m') :
    ∃ l' held' others', m'.Backed l' held' others' ∧ Refills m event m'.cached := by
  have hkept {m' : Machine} {event : Event} {held' : Option AccessPoint}
      {others' : AccessPoint → Nat} (hb : m'.Backed l held' others') :
      ∃ l' held' others', m'.Backed l' held' others' ∧ Refills m event m'.cached :=
    ⟨l, held', others', hb, .of_same h hb⟩
  have hsome {m' : Machine} {event : Event} {held' : Option AccessPoint}
      (hb : ∃ others', m'.Backed l held' others') :
      ∃ l' held' others', m'.Backed l' held' others' ∧ Refills m event m'.cached :=
    hb.elim fun _ hb => hkept hb
  -- a step on a scan state that no work holds an access point with
  have hupdate {m' : Machine} {event : Event} {k : Nat} {o o' : ScanState}
      (ho : m.scanStates k = some o) (hcallers : m'.callers = m.callers)
      (hsystem : m'.system = m.system)
      (hstates : m'.scanStates = Function.update m.scanStates k (some o'))
      (hsame : o'.held = o.held) :
      ∃ l' held' others', m'.Backed l' held' others' ∧ Refills m event m'.cached :=
    hkept (h.frame hcallers (by rw [hsystem])
      (h.holds.update hstates (hsame.trans (heldAt_of ho).symm)))
  cases he with
  | association ha hs hc =>
    exact hsome (h.association hn hs hr' hc rfl rfl rfl)
  | @cache action callers ha hs =>
    obtain ⟨l', hb, hrefills⟩ := h.refills_callers hn ha hs
    exact ⟨l', held, others, hb, hrefills⟩
  | invoke => exact hkept (h.frame rfl rfl (h.holds.states rfl))
  | quiet hc hq => exact hkept (h.frame rfl rfl (h.holds.states rfl))
  | allocate hc hb hn =>
    refine hkept (h.frame rfl rfl (h.holds.update rfl ?_))
    -- the state is a new one
    cases ho : m.scanStates m.nextScanState with
    | none => rw [heldAt, ho]; rfl
    | some o => exact absurd (hw.fresh _ _ ho) (Nat.lt_irrefl _)
  | claim hc hs => exact hkept (h.frame rfl rfl (h.holds.states rfl))
  | busy hc ho hs => exact hupdate ho rfl rfl rfl rfl
  | publish hc => exact hkept (h.frame rfl rfl (h.holds.states rfl))
  | @purge i k outcome cache hc hp =>
    have hb : ((m.setCache cache).setScanCall i (.scanListen k .setChannel)).Backed
        (l.filter fun a => m.callers.owned a + others a ≠ 0) held others :=
      h.purge hn hp rfl rfl rfl
    refine ⟨_, held, others, hb, ?_⟩
    rw [h.cached_purge hn hb]
    exact .purge hc
  | @listenCall i k outcome line o hc ho =>
    refine hupdate ho rfl rfl rfl ?_
    cases line <;> simp [ScanState.held, ScanState.listen]
  | wait hc hs => exact hkept (h.frame rfl rfl (h.holds.states rfl))
  | response hc hx ho hr =>
    obtain ⟨buffer, rfl⟩ := ScanState.processResponse_cases hr
    exact hupdate ho rfl rfl rfl rfl
  | expire ho hexpire =>
    obtain ⟨-, rfl⟩ := DelayedWork.expire_eq_some hexpire
    exact hupdate ho rfl rfl rfl rfl
  | startWork ho hstart =>
    obtain ⟨-, hrun, -, rfl⟩ := DelayedWork.start_eq_some hstart
    exact hupdate ho rfl rfl rfl (by rw [ScanState.held, ScanState.held, hrun]; rfl)
  | stop ho hrun => exact hkept (h.work hw ho hrun rfl rfl rfl rfl)
  | @drain k outcome o o' pc ho hrun hd =>
    obtain ⟨⟨buffer, rfl⟩, hpc⟩ := ScanState.drain_cases hd
    refine hkept (h.work hw ho hrun rfl rfl rfl ?_)
    rcases hpc with ⟨beacon, rsnSize, rfl⟩ | hl
    · rfl
    · exact ScanPc.held_of_leaveDrain hl
  | @pass k outcome o o' beacon rsnSize pc ho hrun hp =>
    refine hkept (h.work hw ho hrun rfl rfl rfl ?_)
    cases hp with
    | short hread hl => exact ScanPc.held_of_leaveDrain hl
    | skipped hread => rfl
    | enomem hread ha => rfl
  | @allocateAp k outcome o o' beacon b rsnSize ho hrun hread ha hn =>
    have hstates := scanStates_setScanState
      (m.setCache (m.callers.cache.apAllocate (b.accessPoint outcome.object) outcome.node)) k
      (o'.goto (some (.insert (b.accessPoint outcome.object))))
    exact hkept (h.allocateAp hw ho hrun hstates rfl rfl hn rfl rfl)
  | @insert k outcome o ap cache ho hrun hi =>
    have hstates := scanStates_setScanState (m.setCache cache) k (o.goto (some (.release ap)))
    obtain ⟨l', hb, hold, hnew⟩ := h.insert hw ho hrun hstates rfl hr rfl hi rfl rfl
    refine ⟨l', held, others, hb, ?_⟩
    rw [h.cached_insert hb hold hnew]
    exact .insert ho hrun
  | @release k outcome o ap cache ho hrun hrelease =>
    have hstates := scanStates_setScanState (m.setCache cache) k (o.goto (some .drain))
    exact hkept (h.release hw ho hrun hstates rfl hn hr rfl hrelease rfl rfl)
  | setCurrent ho hrun => exact hkept (h.work hw ho hrun rfl rfl rfl rfl)
  | @listenWork k outcome o line ho hrun =>
    refine hkept (h.work hw ho hrun rfl rfl rfl ?_)
    cases line <;> simp [ScanState.held, ScanState.listen, ScanPc.held, Listen.next]
  | complete ho hrun => exact hkept (h.work hw ho hrun rfl rfl rfl rfl)
  | enqueueCleanup ho hrun => exact hkept (h.work hw ho hrun rfl rfl rfl rfl)
  | startCleanup hstart => exact hkept (h.frame rfl rfl (h.holds.states rfl))
  | destroy hrun ho hd =>
    exact hupdate ho rfl rfl rfl hd.held_eq
  | last hrun hs =>
    cases hs
    exact hkept (h.frame rfl rfl (h.holds.states rfl))

/-- **Every step of the machine keeps the counters right.** -/
theorem Effect.backed (h : m.Backed l held others) (hn : m.InRange) (hw : m.Fits w)
    (hr : U80211.Reachable own m.system) (hr' : U80211.Reachable own m'.system)
    (he : Effect m event m') : ∃ l' held' others', m'.Backed l' held' others' := by
  obtain ⟨l', held', others', hb, -⟩ := he.refills h hn hw hr hr'
  exact ⟨l', held', others', hb⟩

/-- The states that runs end in which keep the counters in range. -/
def Counted (own : MacAddress) (m : Machine) : Prop :=
  ∃ τ, Run own τ m ∧ ∀ t ∈ τ, t.after.InRange

theorem Counted.reachable (h : Counted own m) : Reachable own m := by
  obtain ⟨τ, hτ, -⟩ := h
  exact hτ.reachable

/-- One more step, after which the counters still fit. -/
theorem Counted.step (h : Counted own m) (hs : Machine.step event m = some m') (hn : m'.InRange) :
    Counted own m' := by
  obtain ⟨τ, hτ, hrange⟩ := h
  refine ⟨_, hτ.snoc hs, fun t ht => ?_⟩
  rcases List.mem_append.mp ht with ht | ht
  · exact hrange t ht
  · rw [List.mem_singleton.mp ht]
    exact hn

/-- A run in which the counters fit. -/
theorem Counted.run {m₀ : Machine} (h : Counted own m₀) {σ : List Transition}
    (hσ : Lts.Run Machine.step m₀ σ m) (hn : ∀ t ∈ σ, t.after.InRange) : Counted own m := by
  induction hσ with
  | nil => exact h
  | snoc _ hs ih =>
    exact (ih fun t ht => hn t (List.mem_append_left _ ht)).step hs
      (hn _ (List.mem_append_right _ (List.mem_singleton.mpr rfl)))

theorem inRange_registered (own : MacAddress) : (registered own).InRange :=
  fun _ => (by decide : (0 : Int) + 0 + 2 ≤ 2 ^ 32)

theorem Counted.inRange (h : Counted own m) : m.InRange := by
  obtain ⟨τ, hτ, hrange⟩ := h
  rcases hτ.after_or_init with rfl | ⟨t, ht, rfl⟩
  · exact inRange_registered own
  · exact hrange t ht

/-- What holds initially and is kept by every step as long as the counters are in range. -/
theorem Counted.invariant {P : Machine → Prop} (h0 : P (registered own))
    (hstep : ∀ m event m', Counted own m → P m → Machine.step event m = some m' → P m')
    (h : Counted own m) : P m := by
  obtain ⟨τ, hτ, hrange⟩ := h
  induction hτ with
  | nil => exact h0
  | snoc hr hs ih =>
    have hrange' := fun t ht => hrange t (List.mem_append_left _ ht)
    exact hstep _ _ _ ⟨_, hr, hrange'⟩ (ih hrange') hs

/-- **As long as the counters are in range, the counter of an access point is the number of the
references to it.** -/
theorem Counted.backed (h : Counted own m) : ∃ l held others, m.Backed l held others := by
  refine Counted.invariant (P := fun m => ∃ l held others, m.Backed l held others)
    ⟨[], none, _, backed_registered own⟩ ?_ h
  rintro m event m' hm ⟨l, held, others, hb⟩ hs
  have hr := hm.reachable
  obtain ⟨w, hw⟩ := Reachable.owner hr
  exact (step_effect hs).backed hb hm.inRange hw (Reachable.system hr)
    (Reachable.system (hr.run (Lts.Run.nil.snoc hs)))

/-! ## How fast references grow in number -/

/-- A step of the callers is the only one that changes what they own. -/
theorem owned_of_step (hs : step event m = some m') (hne : ∀ action, event ≠ .cache action) :
    m'.callers.owned = m.callers.owned := by
  cases step_effect hs with
  | cache ha hstep => exact absurd rfl (hne _)
  | _ => rfl

/-- The system of associations takes a step or stays as it is. -/
theorem step_system_cases (hs : step event m = some m') :
    m'.system = m.system ∨ ∃ action, U80211.step action m.system = some m'.system := by
  have hsys := step_system hs
  split at hsys
  · exact Or.inl hsys
  · exact Or.inr ⟨_, hsys⟩

/-- A step of the association takes one reference to an access point at most. -/
theorem references_step_le {s s' : System} {action : Action} (hs : U80211.step action s = some s')
    (a : AccessPoint) : s'.references a ≤ s.references a + 1 := by
  rw [counting_references hs a]
  cases s.counting action with
  | none =>
    show _ + (0 : Int) ≤ _
    omega
  | some counting =>
    cases counting with
    | hold ap =>
      have hle := owns_le_one (some ap) a
      show _ + owns (some ap) a ≤ _
      omega
    | release ap =>
      have hnonneg := owns_nonneg (some ap) a
      show _ + -owns (some ap) a ≤ _
      omega

/-- There is room for `n` references more to each access point. -/
def Room (m : Machine) (n : Nat) : Prop :=
  ∀ a, (m.callers.owned a : Int) + m.system.references a + n + 2 ≤ 2 ^ 32

theorem Room.inRange {n : Nat} (h : m.Room n) : m.InRange := fun a => by
  have hroom := h a
  omega

theorem room_registered {n : Nat} (h : n + 2 ≤ 2 ^ 32) : (registered own).Room n := fun _ => by
  show (0 : Int) + 0 + n + 2 ≤ 2 ^ 32
  omega

/-- A step gives out one reference to an access point at most. -/
theorem Counted.growth (h : Counted own m) (hs : Machine.step event m = some m')
    (a : AccessPoint) :
    (m'.callers.owned a : Int) + m'.system.references a ≤
      m.callers.owned a + m.system.references a + 1 := by
  by_cases hcache : ∃ action, event = .cache action
  · obtain ⟨action, rfl⟩ := hcache
    obtain ⟨l, held, others, hb⟩ := h.backed
    cases step_effect hs with
    | @cache _ callers ha hstep =>
      obtain ⟨l', -, hmap⟩ := hb.callers h.inRange ha hstep
      have hle : callers.owned a + others a ≤ m.callers.owned a + others a + 1 :=
        CacheSystem.owned_le_of_step hmap a
      show (callers.owned a : Int) + m.system.references a ≤ _
      omega
  · rw [owned_of_step hs fun action he => hcache ⟨action, he⟩]
    rcases step_system_cases hs with hsame | ⟨action, hsys⟩
    · rw [hsame]
      omega
    · have hle := references_step_le hsys a
      omega

/-- A run for whose steps there is room keeps the counters in range. -/
theorem Counted.room {m₀ : Machine} (h : Counted own m₀) {σ : List Transition}
    (hσ : Lts.Run Machine.step m₀ σ m) {n : Nat} (hr : m₀.Room (σ.length + n)) :
    (∀ t ∈ σ, t.after.InRange) ∧ m.Room n := by
  induction hσ generalizing n with
  | nil =>
    rw [List.length_nil, Nat.zero_add] at hr
    exact ⟨fun t ht => absurd ht List.not_mem_nil, hr⟩
  | @snoc σ m m' event hrun hs ih =>
    rw [List.length_append, List.length_singleton, Nat.add_right_comm, Nat.add_assoc] at hr
    obtain ⟨hrange, hroom⟩ := ih hr
    have hroom' : m'.Room n := fun a => by
      have hgrowth := (h.run hrun hrange).growth hs a
      have hbefore := hroom a
      push_cast at hbefore
      omega
    refine ⟨fun t ht => ?_, hroom'⟩
    rcases List.mem_append.mp ht with ht | ht
    · exact hrange t ht
    · rw [List.mem_singleton.mp ht]
      exact hroom'.inRange

theorem counted_registered (own : MacAddress) : Counted own (registered own) :=
  ⟨[], .nil, fun _ ht => absurd ht List.not_mem_nil⟩

/-- The counters are in range for the first `2 ^ 32 - 2` steps. -/
theorem Run.inRange {τ : List Transition} (h : Run own τ m) (hlen : τ.length + 2 ≤ 2 ^ 32) :
    ∀ t ∈ τ, t.after.InRange :=
  ((counted_registered own).room h (n := 0) (room_registered hlen)).1

/-! ## Every access point that is used is in memory -/

/-- The callers keep the access points that they have passed to calls that go on. -/
theorem Reachable.borrowed (h : Reachable own m) {ap : AccessPoint} (hb : m.Borrowed ap) :
    m.callers.owned ap ≠ 0 := by
  obtain ⟨τ, hτ⟩ := h
  refine hτ.history (P := fun _ m => ∀ ap, m.Borrowed ap → m.callers.owned ap ≠ 0) ?_ ?_ ap hb
  · rintro ap ⟨c, hc, -⟩
    cases hc
  intro τ m event m' hr ih hs ap hb
  cases step_effect hs with
  | @association action system cache ha hsys hc =>
    have heff := U80211.Reachable.effect (Reachable.system hr.reachable) hsys
    rcases heff.borrowed_cases hb with hb | ⟨ies, rfl⟩
    · exact ih ap hb
    · exact ha
  | @cache action callers ha hstep =>
    have hpos := ih ap hb
    cases action with
    | allocate ap' node =>
      simp only [CacheSystem.step] at hstep
      split at hstep <;> cases hstep
      simp only [CacheSystem.give]
      omega
    | hold ap' =>
      simp only [CacheSystem.step] at hstep
      split at hstep
      · cases hstep
      · obtain ⟨c, -, hstep⟩ := Option.bind_eq_some_iff.mp hstep
        cases hstep
        simp only [CacheSystem.give]
        omega
    | release ap' =>
      simp only [CacheSystem.step] at hstep
      split at hstep
      · cases hstep
      · obtain ⟨c, -, hstep⟩ := Option.bind_eq_some_iff.mp hstep
        cases hstep
        simp only [CacheSystem.giveBack]
        by_cases hap : ap = ap'
        · -- the last reference is not given back while a call needs it
          subst hap
          have hone : m.callers.owned ap ≠ 1 := fun hone => ha hone hb
          rw [Function.update_self]
          omega
        · rwa [Function.update_of_ne hap]
    | insert ap' =>
      simp only [CacheSystem.step] at hstep
      split at hstep
      · cases hstep
      · obtain ⟨c, -, hstep⟩ := Option.bind_eq_some_iff.mp hstep
        cases hstep
        exact hpos
    | find mac | getAps capacity =>
      obtain ⟨c, -, hstep⟩ := Option.bind_eq_some_iff.mp hstep
      cases hstep
      simp only [CacheSystem.give]
      omega
    | remove mac | getCount | purge | deinit =>
      obtain ⟨c, -, hstep⟩ := Option.bind_eq_some_iff.mp hstep
      cases hstep
      exact hpos
  | last hrun hsys =>
    cases hsys
    exact ih ap hb
  | _ => exact ih ap hb

/-- **A step of the association finds the access point whose counter it changes in memory.** -/
theorem association_enabled (h : Counted own m) {action : Action} (ha : m.Allows action)
    {system : System} (hs : U80211.step action m.system = some system) :
    ∃ m', step (.association action) m = some m' := by
  obtain ⟨l, held, others, hb⟩ := h.backed
  have hr := Reachable.system h.reachable
  have hcount : ∃ cache, m.callers.cache.count (m.system.counting action) = some cache := by
    have hheld := owns_nonneg held
    cases hcounting : m.system.counting action with
    | none => exact ⟨_, rfl⟩
    | some counting =>
      cases counting with
      | hold ap =>
        have hpos : 0 < m.callers.owned ap + others ap := by
          rcases counting_hold_cases hr hcounting with hborrowed | hrefs
          · exact Nat.add_pos_left (Nat.pos_of_ne_zero (h.reachable.borrowed hborrowed)) _
          · have hothers := hb.count ap
            have hself := hheld ap
            omega
        have halloc : m.callers.cache.Allocated ap := (hb.cache.allocated ap).mpr (by omega)
        obtain ⟨c, hc, -⟩ := hb.cache.held halloc
        exact ⟨c, hc⟩
      | release ap =>
        obtain ⟨τ, hτ⟩ := hr
        have hnonneg := references_nonneg (hτ.snoc hs).reachable ap
        have hchange := counting_references hs ap
        rw [hcounting] at hchange
        change _ = _ + -owns (some ap) ap at hchange
        rw [owns_self] at hchange
        have hothers := hb.count ap
        have hself := hheld ap
        obtain ⟨c, hc, -⟩ := hb.cache.released (hb.countable h.inRange)
          (show 0 < m.callers.owned ap + others ap by omega)
        exact ⟨c, hc⟩
  obtain ⟨cache, hc⟩ := hcount
  simp only [step, stepAssociation]
  rw [if_neg (not_not_intro ha), hs]
  exact ⟨_, by rw [Option.bind_eq_bind, Option.bind_some, hc]; rfl⟩

end Machine

end U80211
