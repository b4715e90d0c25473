import U80211.Properties.Attempts
import U80211.Properties.Timeouts

/-!
# Waiters for an association

A call to `u80211_wait_for_association_completion` goes on `association_waiters` while an attempt
is in progress or waits for its cleanup, and the cleanup of the attempt takes it off and hands it
the result.

* `Run.waiters`: every waiter in the list waits for the attempt it was queued in
* `waiters_answered`: it is signalled at most once, when it leaves the list, and gets the outcome
  of that attempt; and while the list is not empty, the cleanup that empties it is still to come
-/

namespace U80211

open WorkQueue

variable {s s' : System} {ownAddress : MacAddress}

/-! ## The calls -/

/-- A signal reaches the waiter only. -/
theorem signal_getElem? (result : Status) {calls : List Call} {w : Nat} {n : Nat} {r : Status}
    (hw : calls[w]? = some (.waiting n r)) (i : Nat) :
    (System.signal result calls w)[i]? =
      if i = w then some (.waiting (n + 1) result) else calls[i]? := by
  have hlt := (List.getElem?_eq_some_iff.mp hw).1
  unfold System.signal
  rw [hw]
  by_cases hi : i = w
  · subst hi
    rw [if_pos rfl]
    exact List.getElem?_set_self hlt
  · rw [if_neg hi]
    exact List.getElem?_set_ne (Ne.symm hi)

/-- `wake_association_waiters` signals every waiter once. -/
theorem wake_getElem? (result : Status) {waiters : List Nat} {calls : List Call}
    (hnd : waiters.Nodup) (hw : ∀ w ∈ waiters, ∃ r, calls[w]? = some (.waiting 0 r)) (i : Nat) :
    (System.wakeAssociationWaiters calls waiters result)[i]? =
      if i ∈ waiters then some (.waiting 1 result) else calls[i]? := by
  induction waiters generalizing calls with
  | nil => simp [System.wakeAssociationWaiters]
  | cons w ws ih =>
    obtain ⟨hnot, hnd⟩ := List.nodup_cons.mp hnd
    obtain ⟨r, hwr⟩ := hw w List.mem_cons_self
    have hsig := signal_getElem? result hwr
    have hws : ∀ w' ∈ ws, ∃ r, (System.signal result calls w)[w']? = some (.waiting 0 r) := by
      intro w' hw'
      have hne : w' ≠ w := fun he => hnot (he ▸ hw')
      rw [hsig, if_neg hne]
      exact hw w' (List.mem_cons_of_mem _ hw')
    refine (ih hnd hws).trans ?_
    by_cases hi : i = w
    · subst hi
      rw [if_neg hnot, hsig, if_pos rfl, if_pos List.mem_cons_self]
    · rw [hsig, if_neg hi]
      simp [hi]

/-- What a step does to the waiters and their calls. -/
inductive WaiterStep (s s' : System) : Prop
  /-- nothing -/
  | other (hw : s'.association.associationWaiters = s.association.associationWaiters)
      (hwait : ∀ (i n : Nat) (r : Status),
        s'.calls[i]? = some (.waiting n r) ↔ s.calls[i]? = some (.waiting n r))
      (hret : ∀ (i : Nat) (r : Status),
        s.calls[i]? = some (.returned r) → s'.calls[i]? = some (.returned r))
  /-- call `i` goes on the list -/
  | wait {i : Nat} (hc : s.calls[i]? = some .waitCritical)
      (hw : s'.association.associationWaiters = s.association.associationWaiters ++ [i])
      (hcalls : s'.calls = s.calls.set i (.waiting 0 .success))
      (hlive : s.association.state.inProgress = true ∨
        s.association.associationCleanupPending = true)
  /-- a call that has been signalled returns -/
  | woken {i n : Nat} {r : Status} (hc : s.calls[i]? = some (.waiting n r)) (hn : n ≠ 0)
      (hw : s'.association.associationWaiters = s.association.associationWaiters)
      (hcalls : s'.calls = s.calls.set i (.returned r))
  /-- the cleanup wakes all waiters -/
  | wake {c : AssociationContext} (hrun : s.cleanupWork.running = some (.second c))
      (hw : s'.association.associationWaiters = [])
      (hcalls : s'.calls = System.wakeAssociationWaiters s.calls
        s.association.associationWaiters s.association.associationResult)

/-- The position is one of a waiter, or the end of a call. -/
def Call.Settled (c : Call) : Prop := (∃ n r, c = .waiting n r) ∨ ∃ r, c = .returned r

/-- A call moves that is no waiter. -/
theorem WaiterStep.ofSet {i : Nat} {old new : Call} (hi : s.calls[i]? = some old)
    (hold : ¬ old.Settled) (hnew : ∀ n r, new ≠ .waiting n r)
    (hw : s'.association.associationWaiters = s.association.associationWaiters)
    (hcalls : s'.calls = s.calls.set i new) : WaiterStep s s' := by
  have hlt := (List.getElem?_eq_some_iff.mp hi).1
  refine .other hw ?_ ?_
  · intro j n r
    rw [hcalls]
    by_cases hji : i = j
    · subst hji
      rw [List.getElem?_set_self hlt, hi, Option.some.injEq, Option.some.injEq]
      constructor
      · intro h
        exact absurd h (hnew n r)
      · intro h
        exact absurd (Or.inl ⟨n, r, h⟩) hold
    · rw [List.getElem?_set_ne hji]
  · intro j r hj
    rw [hcalls]
    by_cases hji : i = j
    · subst hji
      rw [hi, Option.some.injEq] at hj
      exact absurd (Or.inr ⟨r, hj⟩) hold
    · rw [List.getElem?_set_ne hji, hj]

/-- A quiet step neither settles a call nor makes it wait. -/
theorem Quiet.settled {c c' : Call} (h : Quiet c c') :
    ¬ c.Settled ∧ ∀ n r, c' ≠ .waiting n r := by
  cases h <;> simp [Call.Settled]

/-- No call begins as a waiter. -/
theorem Entry.start_ne_waiting (entry : Entry) (n : Nat) (r : Status) :
    entry.start ≠ .waiting n r := by
  cases entry <;> simp [Entry.start]

/-- What a step does to the waiters. -/
theorem Effect.waiterStep {action : Action} (he : Effect s action s') : WaiterStep s s' := by
  cases he with
  | @invoke entry =>
    refine .other rfl ?_ ?_
    · intro i n r
      show (s.calls ++ [entry.start])[i]? = some (.waiting n r) ↔ _
      rw [List.getElem?_append]
      split
      · rfl
      · next hge =>
        rw [List.getElem?_eq_none (by omega : s.calls.length ≤ i)]
        constructor
        · intro h
          have hm := List.mem_of_getElem? h
          rw [List.mem_singleton] at hm
          exact absurd hm.symm (entry.start_ne_waiting n r)
        · intro h
          cases h
    · intro i r hi
      have hlt := (List.getElem?_eq_some_iff.mp hi).1
      show (s.calls ++ [entry.start])[i]? = some (.returned r)
      rw [List.getElem?_append_left hlt, hi]
  | quiet hc hq => exact .ofSet hc hq.settled.1 hq.settled.2 rfl rfl
  | wait hc hs => exact .wait hc rfl rfl hs
  | woken hc hn => exact .woken hc hn rfl rfl
  | @receive _ _ frame plan hc hp =>
    refine .ofSet hc (by simp [Call.Settled]) ?_ rfl rfl
    intro n r
    cases plan <;> simp [ManagementPlan.next]
  | filter hc hn =>
    refine .ofSet hc (by simp [Call.Settled]) ?_ rfl rfl
    intro n r
    rcases hn with rfl | ⟨m, -, rfl, -⟩ <;> simp
  | process hc hr =>
    refine .ofSet hc (by simp [Call.Settled]) ?_ ?_ (by simp; rfl)
    · intro n r
      split <;> simp
    · cases hr <;> rfl
  | timeout ho hw hr =>
    refine .other ?_ ?_ ?_
    · cases hr <;> rfl
    · intro i n r
      rw [System.setObjects_calls, applySection_calls]
    · intro i r hi
      rw [System.setObjects_calls, applySection_calls, hi]
  | cleanupSecond hw => exact .wake hw rfl rfl
  | takeDisconnected hc | releaseTaken hc | install hc | arm hc | deauthenticateFirst hc
  | deauthenticateSecond hc | deauthenticateRelease hc | answer hc | enqueueCleanup hc =>
    exact .ofSet hc (by simp [Call.Settled]) (by simp) rfl rfl
  | _ => exact .other rfl (fun _ _ _ => Iff.rfl) fun _ _ h => h

/-! ## The list -/

structure WaiterInvariant (s : System) : Prop where
  nodup : s.association.associationWaiters.Nodup
  waiting : ∀ i ∈ s.association.associationWaiters, ∃ r, s.calls[i]? = some (.waiting 0 r)
  live : s.association.associationWaiters ≠ [] → ∃ c, s.association.Live c

/-- An attempt that is in progress or is cleaned up has a live context. -/
theorem Association.Consistent.exists_live {a : Association} (h : a.Consistent)
    (hl : a.state.inProgress = true ∨ a.associationCleanupPending = true) : ∃ c, a.Live c := by
  rcases hl with hs | hp
  · obtain ⟨c, hc⟩ := h.context_of_inProgress hs
    exact ⟨c, Or.inl hc⟩
  · obtain ⟨c, hc⟩ := Option.isSome_iff_exists.mp (h.pending_iff.mp hp)
    exact ⟨c, Or.inr hc⟩

/-- A waiter in the list is not the call that takes a step. -/
theorem not_mem_waiters_of_call (h : WaiterInvariant s) {i : Nat} {c : Call}
    (hc : s.calls[i]? = some c) (hn : ∀ r, c ≠ .waiting 0 r) :
    i ∉ s.association.associationWaiters := by
  intro hi
  obtain ⟨r, hr⟩ := h.waiting i hi
  rw [hc, Option.some.injEq] at hr
  exact hn r hr

/-- Every step keeps the queue of the waiters. -/
theorem WaiterInvariant.step (h : WaiterInvariant s) (hc : s.association.Consistent)
    (hi : CleanupInvariant s) {action : Action} (he : Effect s action s') : WaiterInvariant s' := by
  have hlive : s.association.associationWaiters ≠ [] →
      s'.association.associationWaiters ≠ [] → ∃ c, s'.association.Live c := by
    intro hne hne'
    obtain ⟨c, hcl⟩ := h.live hne
    rcases he.live hc hi hcl with hl | ⟨-, hnil⟩
    · exact ⟨c, hl⟩
    · exact absurd hnil hne'
  cases he.waiterStep with
  | other hw hwait hret =>
    refine ⟨hw ▸ h.nodup, ?_, fun hne => hlive (hw ▸ hne) hne⟩
    intro i hi'
    rw [hw] at hi'
    obtain ⟨r, hr⟩ := h.waiting i hi'
    exact ⟨r, (hwait i 0 r).mpr hr⟩
  | @wait i hcall hw hcalls hl =>
    have hlt := (List.getElem?_eq_some_iff.mp hcall).1
    have hnot := not_mem_waiters_of_call h hcall (by simp)
    -- the call is new in the list, because the waiters in it stand elsewhere
    refine ⟨?_, ?_, ?_⟩
    · rw [hw]
      exact List.nodup_append.mpr ⟨h.nodup, by simp, by
        rintro a ha b hb rfl
        rw [List.mem_singleton] at hb
        exact hnot (hb ▸ ha)⟩
    · intro j hj
      rw [hw] at hj
      rw [hcalls]
      rcases List.mem_append.mp hj with hj | hj
      · obtain ⟨r, hr⟩ := h.waiting j hj
        have hij : i ≠ j := fun he => hnot (he ▸ hj)
        exact ⟨r, by rw [List.getElem?_set_ne hij, hr]⟩
      · rw [List.mem_singleton] at hj
        subst hj
        exact ⟨_, List.getElem?_set_self hlt⟩
    · intro hne
      obtain ⟨c, hcl⟩ := hc.exists_live hl
      rcases he.live hc hi hcl with hl' | ⟨-, hnil⟩
      · exact ⟨c, hl'⟩
      · exact absurd hnil hne
  | @woken i n r hcall hn hw hcalls =>
    have hnot := not_mem_waiters_of_call h hcall (by
      rintro r' he
      cases he
      exact hn rfl)
    refine ⟨hw ▸ h.nodup, ?_, fun hne => hlive (hw ▸ hne) hne⟩
    intro j hj
    rw [hw] at hj
    obtain ⟨r', hr'⟩ := h.waiting j hj
    have hij : i ≠ j := fun he => hnot (he ▸ hj)
    exact ⟨r', by rw [hcalls, List.getElem?_set_ne hij, hr']⟩
  | wake hrun hw hcalls =>
    refine ⟨by rw [hw]; exact List.nodup_nil, ?_, fun hne => absurd hw hne⟩
    intro i hi'
    rw [hw] at hi'
    cases hi'

/-- It holds in every reachable state. -/
theorem Reachable.waiters (h : Reachable ownAddress s) : WaiterInvariant s := by
  refine Lts.Reachable.invariant (P := WaiterInvariant) ?_ ?_ h
  · exact ⟨List.nodup_nil, fun i hi => (by cases hi), fun hne => absurd rfl hne⟩
  · intro s action s' hr ih hs
    have hreach : Reachable ownAddress s := hr
    exact ih.step hreach.consistent hreach.cleanup (hreach.effect hs)

/-! ## Signals -/

/-- How often the semaphore of call `i` is signalled between two states of the calls. -/
def signalsBetween (calls calls' : List Call) (i : Nat) : Nat :=
  match calls[i]?, calls'[i]? with
  | some (.waiting n _), some (.waiting m _) => m - n
  | _, _ => 0

/-- How often a transition signals the semaphore of call `i`. -/
def signals (t : Transition) (i : Nat) : Nat := signalsBetween t.before.calls t.after.calls i

/-- Calls that wait as before have not been signalled. -/
theorem signalsBetween_eq_zero {calls calls' : List Call} {i : Nat}
    (h : ∀ n r m r', calls[i]? = some (.waiting n r) → calls'[i]? = some (.waiting m r') →
      m = n) : signalsBetween calls calls' i = 0 := by
  unfold signalsBetween
  split
  · next n r m r' hb ha =>
    rw [h n r m r' hb ha]
    exact Nat.sub_self n
  · rfl

/-- A call that is not the one that moves is not signalled. -/
theorem signalsBetween_set {calls : List Call} {j : Nat} {old new : Call}
    (hj : calls[j]? = some old) (hn : ∀ n r m r', old = .waiting n r → new ≠ .waiting m r')
    (i : Nat) : signalsBetween calls (calls.set j new) i = 0 := by
  have hlt := (List.getElem?_eq_some_iff.mp hj).1
  refine signalsBetween_eq_zero ?_
  intro n r m r' hb ha
  by_cases hij : j = i
  · subst hij
    rw [hj, Option.some.injEq] at hb
    rw [List.getElem?_set_self hlt, Option.some.injEq] at ha
    exact absurd ha (hn n r m r' hb)
  · rw [List.getElem?_set_ne hij, hb, Option.some.injEq, Call.waiting.injEq] at ha
    exact ha.1.symm

/-- **A waiter is signalled exactly when it leaves the list, and then once.** -/
theorem signals_eq (h : Reachable ownAddress s) {action : Action} (hs : step action s = some s')
    (i : Nat) :
    signals ⟨s, action, s'⟩ i =
      if i ∈ s.association.associationWaiters ∧ i ∉ s'.association.associationWaiters then 1
      else 0 := by
  have hinv := h.waiters
  show signalsBetween s.calls s'.calls i = _
  cases (h.effect hs).waiterStep with
  | other hw hwait hret =>
    rw [hw, if_neg fun hn => hn.2 hn.1]
    refine signalsBetween_eq_zero ?_
    intro n r m r' hb ha
    have hb' := (hwait i n r).mpr hb
    rw [ha, Option.some.injEq, Call.waiting.injEq] at hb'
    exact hb'.1
  | wait hcall hw hcalls hl =>
    rw [hw, if_neg fun hn => hn.2 (List.mem_append_left _ hn.1), hcalls]
    exact signalsBetween_set hcall (fun n r m r' he => by cases he) i
  | woken hcall hn hw hcalls =>
    rw [hw, if_neg fun hn => hn.2 hn.1, hcalls]
    exact signalsBetween_set hcall (fun n r m r' _ he => by cases he) i
  | wake hrun hw hcalls =>
    rw [hw, hcalls]
    unfold signalsBetween
    rw [wake_getElem? _ hinv.nodup hinv.waiting i]
    by_cases hi : i ∈ s.association.associationWaiters
    · obtain ⟨r, hr⟩ := hinv.waiting i hi
      simp [hi, hr]
    · rw [if_neg hi, if_neg fun hn => hi hn.1]
      exact signalsBetween_eq_zero fun n r m r' hb ha => by
        rw [hb, Option.some.injEq, Call.waiting.injEq] at ha
        exact ha.1.symm

/-- The number of signals a call can have received at a position. -/
def SignalBound (total : Nat) : Option Call → Prop
  | some (.waiting n _) => total = n ∧ n ≤ 1
  | some (.returned _) => total ≤ 1
  | _ => total = 0

/-- Hence nobody is signalled twice. -/
theorem SignalBound.le {total : Nat} {c : Option Call} (h : SignalBound total c) : total ≤ 1 := by
  unfold SignalBound at h
  split at h <;> omega

/-- A call that is no waiter has not been signalled, wherever it goes on. -/
theorem SignalBound.other {total : Nat} {c c' : Option Call} (h : SignalBound total c)
    (hwait : ∀ n r, c' = some (.waiting n r) ↔ c = some (.waiting n r))
    (hret : ∀ r, c = some (.returned r) → c' = some (.returned r)) : SignalBound total c' := by
  unfold SignalBound at h
  split at h
  · next n r => rw [(hwait n r).mpr rfl]; exact h
  · next r => rw [hret r rfl]; exact h
  · next hnw hnr =>
    unfold SignalBound
    split
    · next n r => exact absurd ((hwait n r).mp rfl) (hnw n r)
    · omega
    · exact h

/-- A run signals a call as often as its waiter says, once at most. -/
theorem signals_bound {τ : List Transition} (h : Run ownAddress τ s) (i : Nat) :
    SignalBound (τ.map (signals · i)).sum s.calls[i]? := by
  refine h.history (P := fun τ s => SignalBound (τ.map (signals · i)).sum s.calls[i]?) ?_ ?_
  · simp [SignalBound, System.registered]
  intro τ s action s' hr ih hs
  have hreach : Reachable ownAddress s := hr.reachable
  have hsig := signals_eq hreach hs i
  have hinv := hreach.waiters
  have hsum : ((τ ++ [Lts.Transition.mk s action s']).map (signals · i)).sum =
      (τ.map (signals · i)).sum + signals ⟨s, action, s'⟩ i := by simp
  rw [hsum, hsig]
  cases (hreach.effect hs).waiterStep with
  | other hw hwait hret =>
    rw [hw, if_neg fun hn => hn.2 hn.1]
    exact ih.other (hwait i) (hret i)
  | @wait j hcall hw hcalls hl =>
    have hlt := (List.getElem?_eq_some_iff.mp hcall).1
    rw [hw, if_neg fun hn => hn.2 (List.mem_append_left _ hn.1), hcalls]
    by_cases hij : j = i
    · subst hij
      rw [hcall] at ih
      rw [List.getElem?_set_self hlt]
      exact ⟨ih, Nat.zero_le 1⟩
    · rw [List.getElem?_set_ne hij]
      exact ih
  | @woken j n r hcall hn hw hcalls =>
    have hlt := (List.getElem?_eq_some_iff.mp hcall).1
    rw [hw, if_neg fun hn => hn.2 hn.1, hcalls]
    by_cases hij : j = i
    · subst hij
      rw [List.getElem?_set_self hlt]
      exact ih.le
    · rw [List.getElem?_set_ne hij]
      exact ih
  | wake hrun hw hcalls =>
    rw [hw, hcalls, wake_getElem? _ hinv.nodup hinv.waiting i]
    by_cases hi : i ∈ s.association.associationWaiters
    · obtain ⟨r, hr⟩ := hinv.waiting i hi
      -- a waiter in the list has not been signalled before
      rw [hr] at ih
      rw [if_pos ⟨hi, List.not_mem_nil⟩, if_pos hi]
      exact ⟨by rw [ih.1], Nat.le_refl 1⟩
    · rw [if_neg fun hn => hi hn.1, if_neg hi]
      exact ih

/-! ## The answer -/

/-- The transition puts call `i` on the list, during the attempt of `c` or while `c` waits for its
cleanup. -/
structure Queues (t : Transition) (i : Nat) (c : AssociationContext) : Prop where
  call : t.before.calls[i]? = some .waitCritical
  queued : i ∈ t.after.association.associationWaiters
  live : t.before.association.Live c

/-- Who enters the queue does so by waiting for the live attempt. -/
theorem queues_of_enters (h : Reachable ownAddress s) {action : Action}
    (hs : step action s = some s') {i : Nat} (hnot : i ∉ s.association.associationWaiters)
    (hin : i ∈ s'.association.associationWaiters) : ∃ c, Queues ⟨s, action, s'⟩ i c := by
  cases (h.effect hs).waiterStep with
  | other hw hwait hret => exact absurd (hw ▸ hin) hnot
  | woken hcall hn hw hcalls => exact absurd (hw ▸ hin) hnot
  | wake hrun hw hcalls =>
    rw [hw] at hin
    cases hin
  | @wait j hcall hw hcalls hl =>
    obtain ⟨c, hc⟩ := h.consistent.exists_live hl
    rw [hw] at hin
    rcases List.mem_append.mp hin with hin | hij
    · exact absurd hin hnot
    · rw [List.mem_singleton] at hij
      subst hij
      exact ⟨c, hcall, by rw [hw]; exact List.mem_append_right _ (List.mem_singleton.mpr rfl), hc⟩

/-- Where a waiter stands that was queued in the attempt of `c`: still in the list while the attempt
or its cleanup goes on, or signalled once with the outcome of that attempt. -/
inductive Answered (τ : List Transition) (s : System) (i : Nat) (c : AssociationContext) : Prop
  | waits (hi : i ∈ s.association.associationWaiters) (hl : s.association.Live c)
  | signalled {result : Status} (hi : i ∉ s.association.associationWaiters)
      (he : Ended τ c result)
      (hc : s.calls[i]? = some (.waiting 1 result) ∨ s.calls[i]? = some (.returned result))

/-- Every step keeps that the waiter is answered by its attempt. -/
theorem Answered.step {τ : List Transition} (hr : Run ownAddress τ s) {action : Action}
    (hs : step action s = some s') {i : Nat} {c : AssociationContext} (h : Answered τ s i c) :
    Answered (τ ++ [⟨s, action, s'⟩]) s' i c := by
  have hreach : Reachable ownAddress s := hr.reachable
  have he := hreach.effect hs
  have hinv := hreach.waiters
  have hcons := hreach.consistent
  cases h with
  | waits hi hl =>
    by_cases hi' : i ∈ s'.association.associationWaiters
    · rcases he.live hcons hreach.cleanup hl with hl' | ⟨-, hnil⟩
      · exact .waits hi' hl'
      · rw [hnil] at hi'
        cases hi'
    · cases he.waiterStep with
      | other hw hwait hret => exact absurd (hw ▸ hi) hi'
      | wait hcall hw hcalls hlive => exact absurd (hw ▸ List.mem_append_left _ hi) hi'
      | woken hcall hn hw hcalls => exact absurd (hw ▸ hi) hi'
      | @wake c' hrun hw hcalls =>
        -- the cleanup is that of `c`, and the result is still the attempt's
        have hcc := hreach.cleanup.context _ c' hrun rfl
        have hcx : s.association.associationContext = none :=
          hcons.pending_context (hcons.pending_iff.mpr (by rw [hcc]; rfl))
        have hcc' : s.association.associationCleanupContext = some c := by
          rcases hl with hl | hl
          · rw [hcx] at hl
            cases hl
          · exact hl
        refine .signalled hi' (((Run.ended hr).pending c hcc').append _) (Or.inl ?_)
        rw [hcalls, wake_getElem? _ hinv.nodup hinv.waiting i, if_pos hi]
  | @signalled result hi hend hc =>
    have hend' := hend.append ⟨s, action, s'⟩
    cases he.waiterStep with
    | other hw hwait hret =>
      refine .signalled (hw ▸ hi) hend' ?_
      rcases hc with hc | hc
      · exact Or.inl ((hwait i 1 result).mpr hc)
      · exact Or.inr (hret i result hc)
    | @wait j hcall hw hcalls hlive =>
      -- a call that has been signalled is not about to go on the list
      have hij : j ≠ i := by
        rintro rfl
        rw [hcall] at hc
        rcases hc with hc | hc <;> cases hc
      refine .signalled ?_ hend' ?_
      · rw [hw]
        intro hm
        rcases List.mem_append.mp hm with hm | hm
        · exact hi hm
        · rw [List.mem_singleton] at hm
          exact hij hm.symm
      · rw [hcalls, List.getElem?_set_ne hij]
        exact hc
    | @woken j n r hcall hn hw hcalls =>
      refine .signalled (hw ▸ hi) hend' ?_
      by_cases hij : j = i
      · subst hij
        have hlt := (List.getElem?_eq_some_iff.mp hcall).1
        rw [hcalls, List.getElem?_set_self hlt]
        rw [hcall] at hc
        rcases hc with hc | hc
        · cases hc
          exact Or.inr rfl
        · cases hc
      · rw [hcalls, List.getElem?_set_ne hij]
        exact hc
    | wake hrun hw hcalls =>
      refine .signalled (by rw [hw]; exact List.not_mem_nil) hend' ?_
      rw [hcalls, wake_getElem? _ hinv.nodup hinv.waiting i, if_neg hi]
      exact hc

/-- Whoever has queued in a run waits for its attempt, or has its result. -/
theorem Run.answered {τ : List Transition} (h : Run ownAddress τ s) :
    ∀ t ∈ τ, ∀ i c, Queues t i c → Answered τ s i c := by
  refine h.history (P := fun τ s => ∀ t ∈ τ, ∀ i c, Queues t i c → Answered τ s i c)
    (fun t ht => absurd ht List.not_mem_nil) ?_
  intro τ s action s' hr ih hs t ht i c hq
  have hreach : Reachable ownAddress s := hr.reachable
  rcases List.mem_append.mp ht with ht | ht
  · exact (ih t ht i c hq).step hr hs
  · rw [List.mem_singleton] at ht
    subst ht
    rcases (hreach.effect hs).live hreach.consistent hreach.cleanup hq.live with hl | ⟨-, hnil⟩
    · exact .waits hq.queued hl
    · have hmem := hq.queued
      rw [hnil] at hmem
      cases hmem

/-! ## The cleanup comes -/

/-- A timeout callback of the context is about to queue the cleanup. -/
def ContextObjects.EnqueuesCleanup (o : ContextObjects) : Prop :=
  ∃ kind, (o.timeoutWork kind).work.running = some .enqueueCleanup

/-- The cleanup work is queued, or runs and has not passed over the context that waits for it. -/
def CleanupScheduled (s : System) : Prop :=
  s.cleanupWork.request = .queued ∨
    ∃ pc, s.cleanupWork.running = some pc ∧ (pc = .first ∨ pc.context ≠ none)

/-- The cleanup work is scheduled, or a frame or a timeout is about to queue it. -/
def CleanupDue (s : System) : Prop :=
  CleanupScheduled s ∨ .enqueueCleanup ∈ s.calls ∨
    ∃ k o, s.objects k = some o ∧ o.EnqueuesCleanup

/-- The cleanup has been asked for. -/
theorem CleanupScheduled.enqueue (hi : CleanupInvariant s)
    (h : s'.cleanupWork = s.cleanupWork.enqueue) : CleanupScheduled s' := by
  refine Or.inl ?_
  rw [h]
  exact hi.enqueue_queued

/-- A pending cleanup stays scheduled. -/
theorem CleanupScheduled.effect (h : CleanupScheduled s) (hc : s.association.Consistent)
    (hi : CleanupInvariant s) {action : Action} (he : Effect s action s')
    (hp : s'.association.associationCleanupPending = true) : CleanupScheduled s' := by
  cases he with
  | process hcall hr => simpa [CleanupScheduled] using h
  | timeout ho hw hr => simpa [CleanupScheduled] using h
  | enqueueCleanup hcall => exact .enqueue hi rfl
  | timeoutEnqueue ho hw => exact .enqueue hi rfl
  | startCleanup hw =>
    obtain ⟨-, -, -, rfl⟩ := Work.start_eq_some hw
    exact Or.inr ⟨.first, rfl, Or.inl rfl⟩
  | cleanupFirst hw =>
    have hcc := hc.pending_iff.mp hp
    obtain ⟨c, hcc⟩ := Option.isSome_iff_exists.mp hcc
    refine Or.inr ⟨.releaseAp c s.association.disconnectedAp, ?_,
      Or.inr (by simp [CleanupPc.context])⟩
    rw [hcc]
    rfl
  | cleanupRelease hw => exact Or.inr ⟨_, rfl, Or.inr (by simp [CleanupPc.context])⟩
  | cleanupDestroy hw ho hd => exact Or.inr ⟨_, rfl, Or.inr (by simp [hd.context_eq.2])⟩
  | @cleanupReleaseDisconnected context disconnected hw =>
    rcases h with hq | ⟨pc, hpc, hcx⟩
    · exact Or.inl hq
    · rw [hw, Option.some.injEq] at hpc
      subst hpc
      cases context with
      | none => simp [CleanupPc.context] at hcx
      | some c => exact Or.inr ⟨.second c, rfl, Or.inr (by simp [CleanupPc.context])⟩
  | cleanupSecond hw => cases hp
  | _ => exact h

/-- Replacing another call leaves a call where it is. -/
theorem mem_set_of_ne {calls : List Call} {i : Nat} {c old new : Call} (hi : calls[i]? = some old)
    (hne : old ≠ c) (h : c ∈ calls) : c ∈ calls.set i new := by
  obtain ⟨j, hj⟩ := List.getElem?_of_mem h
  have hij : i ≠ j := by
    rintro rfl
    rw [hi, Option.some.injEq] at hj
    exact hne hj
  exact List.mem_of_getElem? (by rw [List.getElem?_set_ne hij, hj])

/-- A frame that is about to queue the cleanup remains so until it does. -/
theorem Effect.enqueueCleanup_mem {action : Action} (he : Effect s action s')
    (h : .enqueueCleanup ∈ s.calls) :
    .enqueueCleanup ∈ s'.calls ∨ s'.cleanupWork = s.cleanupWork.enqueue := by
  cases he with
  | invoke => exact Or.inl (List.mem_append_left _ h)
  | quiet hcall hq =>
    exact Or.inl (mem_set_of_ne hcall (by rintro rfl; cases hq) h)
  | enqueueCleanup => exact Or.inr rfl
  | timeoutEnqueue => exact Or.inr rfl
  | process hcall hr =>
    rw [System.setCall_calls, applySection_calls]
    exact Or.inl (mem_set_of_ne hcall nofun h)
  | timeout ho hw hr =>
    rw [System.setObjects_calls, applySection_calls]
    exact Or.inl h
  | cleanupSecond hw => exact Or.inl (mem_wake_of_mem (fun n r hn => by cases hn) h)
  | takeDisconnected hcall | releaseTaken hcall | install hcall | arm hcall
  | deauthenticateFirst hcall | deauthenticateSecond hcall | deauthenticateRelease hcall
  | answer hcall | wait hcall | woken hcall | receive hcall | filter hcall =>
    exact Or.inl (mem_set_of_ne hcall nofun h)
  | _ => exact Or.inl h

/-- A timeout that is about to queue the cleanup remains so until it does. -/
theorem ObjectStep.enqueuesCleanup {action : Action} {k : Nat} {o o' : ContextObjects}
    (h : ObjectStep s action s' k o o') (hq : o.EnqueuesCleanup) :
    o'.EnqueuesCleanup ∨ s'.cleanupWork = s.cleanupWork.enqueue := by
  obtain ⟨kind, hk⟩ := hq
  have hupdate : ∀ {kind₁ : TimeoutKind} {w : DelayedWork TimeoutPc},
      (kind₁ = kind → w.work.running = some .enqueueCleanup) →
      (o.updateTimeout kind₁ w).EnqueuesCleanup := by
    intro kind₁ w hw
    refine ⟨kind, ?_⟩
    by_cases he : kind = kind₁
    · subst he
      simpa using hw rfl
    · simpa [Function.update_of_ne he] using hk
  cases h with
  | arm => exact Or.inl (hupdate fun he => by subst he; simpa using hk)
  | expire hw =>
    obtain ⟨-, rfl⟩ := DelayedWork.expire_eq_some hw
    exact Or.inl (hupdate fun he => by subst he; exact hk)
  | startTimeout hw =>
    obtain ⟨-, hn, -, rfl⟩ := DelayedWork.start_eq_some hw
    exact Or.inl (hupdate fun he => by subst he; rw [hn] at hk; cases hk)
  | timeout hw hr ha => exact Or.inl (hupdate fun he => by subst he; rw [hw] at hk; cases hk)
  | timeoutEnqueue hw hq => exact Or.inr hq
  | enqueueTimeout ha hw => exact Or.inl (hupdate fun he => by subst he; simpa using hk)
  | destroy ha hid hw hd hr =>
    refine Or.inl ?_
    cases hd with
    | authTimer => exact hupdate fun he => by subst he; simpa using hk
    | assocTimer => exact hupdate fun he => by subst he; simpa using hk
    | authTimeoutWork hf =>
      obtain ⟨hn, -⟩ := DelayedWork.freeWork_eq_some hf
      exact hupdate fun he => by subst he; rw [hn] at hk; cases hk
    | assocTimeoutWork hf =>
      obtain ⟨hn, -⟩ := DelayedWork.freeWork_eq_some hf
      exact hupdate fun he => by subst he; rw [hn] at hk; cases hk
    | _ => exact ⟨kind, hk⟩
  | _ => exact Or.inl ⟨kind, hk⟩

/-- The step that makes a context wait for its cleanup is about to queue it. -/
theorem Effect.pending_cases {action : Action} (he : Effect s action s')
    (hp : s'.association.associationCleanupPending = true) :
    s.association.associationCleanupPending = true ∨ CleanupDue s' := by
  cases he with
  | @process i o frame message r hcall hr =>
    have hlt := (List.getElem?_eq_some_iff.mp hcall).1
    cases hr with
    | ended hcx hend =>
      refine Or.inr (Or.inr (Or.inl (List.mem_of_getElem? (i := i) ?_)))
      exact List.getElem?_set_self hlt
    | _ => exact Or.inl hp
  | @timeout k kind ob r ho hw hr =>
    cases hr with
    | ended hcx hend =>
      refine Or.inr (Or.inr (Or.inr ⟨_, _, objects_setObjects_self _ _ _, kind, ?_⟩))
      rw [ContextObjects.updateTimeout_timeoutWork, Function.update_self]
      rfl
    | _ => exact Or.inl hp
  | cleanupSecond hw => cases hp
  | _ => exact Or.inl hp

/-- A pending cleanup stays on its way. -/
theorem CleanupDue.effect (h : CleanupDue s) (hr : Reachable ownAddress s) {action : Action}
    (he : Effect s action s') (hp : s'.association.associationCleanupPending = true) :
    CleanupDue s' := by
  rcases h with h | h | ⟨k, o, ho, hq⟩
  · exact Or.inl (h.effect hr.consistent hr.cleanup he hp)
  · rcases he.enqueueCleanup_mem h with h | h
    · exact Or.inr (Or.inl h)
    · exact Or.inl (.enqueue hr.cleanup h)
  · have hlt := (hr.contexts.id k o ho).2
    obtain ⟨o', ho', -⟩ := he.objects_persist hlt ho
    rcases (he.objectStep hlt ho ho').enqueuesCleanup hq with h | h
    · exact Or.inr (Or.inr ⟨k, o', ho', h⟩)
    · exact Or.inl (.enqueue hr.cleanup h)

/-- **While a context waits for its cleanup, the cleanup is on its way.** -/
theorem Reachable.cleanupDue (h : Reachable ownAddress s) :
    s.association.associationCleanupPending = true → CleanupDue s := by
  refine Lts.Reachable.invariant (P := fun s => s.association.associationCleanupPending = true →
    CleanupDue s) (fun hp => by cases hp) ?_ h
  intro s action s' hr ih hs hp
  have hreach : Reachable ownAddress s := hr
  have he := hreach.effect hs
  rcases he.pending_cases hp with hold | hdue
  · exact (ih hold).effect hreach he hp
  · exact hdue

/-! ## The waiters -/

/--
**Waiters are neither lost nor woken with the wrong answer.** At the end of every run:
* no call has been signalled more than once
* a transition signals a call exactly when it takes it off the list
* a call that was put on the list was put there in some attempt, or while the context of that
  attempt waited for its cleanup; it either still waits, unsignalled and in the list, while that
  goes on, or has been signalled and returns the outcome of that attempt
* while the list is not empty, an attempt is in progress or a cleanup is pending, and then it is on
  its way
-/
theorem waiters_answered {τ : List Transition} (h : Run ownAddress τ s) :
    (∀ i, (τ.map (signals · i)).sum ≤ 1) ∧
    (∀ t ∈ τ, ∀ i, signals t i = 1 ↔
      i ∈ t.before.association.associationWaiters ∧
        i ∉ t.after.association.associationWaiters) ∧
    (∀ t ∈ τ, ∀ i, i ∉ t.before.association.associationWaiters →
      i ∈ t.after.association.associationWaiters → ∃ c, Queues t i c ∧
        (i ∈ s.association.associationWaiters ∧ s.association.Live c ∧
            (∃ r, s.calls[i]? = some (.waiting 0 r)) ∨
          i ∉ s.association.associationWaiters ∧ ∃ result, AttemptOutcome τ c result ∧
            (s.calls[i]? = some (.waiting 1 result) ∨ s.calls[i]? = some (.returned result)))) ∧
    (s.association.associationWaiters ≠ [] →
      s.association.state.inProgress = true ∨
        s.association.associationCleanupPending = true ∧ CleanupDue s) := by
  have hreach : Reachable ownAddress s := h.reachable
  refine ⟨?_, ?_, ?_, ?_⟩
  · intro i
    exact (signals_bound h i).le
  · intro t ht i
    obtain ⟨hr, hs⟩ := h.of_mem t ht
    have hsig := signals_eq hr hs i
    rw [show signals t i = _ from hsig]
    split
    · next hmem => simp [hmem]
    · next hmem => simp [hmem]
  · intro t ht i hnot hin
    obtain ⟨hr, hs⟩ := h.of_mem t ht
    have hb : Reachable ownAddress t.before := hr
    obtain ⟨c, hq⟩ := queues_of_enters hb hs hnot hin
    refine ⟨c, hq, ?_⟩
    cases Run.answered h t ht i c hq with
    | waits hi hl => exact Or.inl ⟨hi, hl, hreach.waiters.waiting i hi⟩
    | signalled hi he hc => exact Or.inr ⟨hi, _, Run.outcome h he, hc⟩
  · intro hne
    obtain ⟨c, hl | hl⟩ := hreach.waiters.live hne
    · exact Or.inl (hreach.consistent.inProgress_of_context hl)
    · have hp := hreach.consistent.pending_iff.mpr (by rw [hl]; rfl)
      exact Or.inr ⟨hp, hreach.cleanupDue hp⟩

/-- Call 1 waits for the attempt of call 0, which the access point accepts. -/
def Scenario.waiter : List Action :=
  join 0 2 ++ .invoke .waitForAssociationCompletion :: advance 1 2 ++ accept 2 2 0 ++ cleanup ++
    advance 1 1

open Scenario in
theorem waiters_answered_success :
    ∃ s c, Scenario.run Scenario.waiter = some s ∧
      AttemptOutcome (trace Scenario.waiter) c .success ∧
      s.calls[1]? = some (.returned .success) := by
  have hrun : (run Scenario.waiter).map (fun s => (s.association.associationWaiters, s.calls[1]?)) =
      some ([], some (.returned .success)) := by decide
  have hqueued : ∃ t ∈ trace Scenario.waiter, 1 ∉ t.before.association.associationWaiters ∧
      1 ∈ t.after.association.associationWaiters := by decide
  obtain ⟨s, hs, he⟩ := exists_of_run hrun
  rw [Prod.mk.injEq] at he
  obtain ⟨t, ht, hnot, hin⟩ := hqueued
  obtain ⟨-, -, hanswered, -⟩ := waiters_answered (run_trace hs)
  obtain ⟨c, -, ⟨hi, -⟩ | ⟨-, result, hout, hc⟩⟩ := hanswered t ht 1 hnot hin
  · rw [he.1] at hi
    cases hi
  · refine ⟨s, c, hs, ?_, he.2⟩
    rw [he.2] at hc
    rcases hc with hc | hc
    · cases hc
    · cases hc
      exact hout

end U80211
