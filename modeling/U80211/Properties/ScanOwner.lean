import U80211.Properties.MachineEffect

/-!
# The scan that owns the device

From the swap of the device state in `u80211_scan` to the one in `cleanup_scan` a scan goes from the
call to `scan_work`, to the request for the cleanup and to `cleanup_scan`. `Fits m w` says that all
parts of the machine agree that `w` is where the one such scan is.

* `Effect.fits`: every step of the machine moves the owner on, or leaves it where it is
* `Reachable.owner`: in every reachable state there is one owner at most
-/

namespace U80211

open WorkQueue

/-! ## Positions -/

/-- The scan that a call has claimed the device for. -/
def ScanCall.claimed : ScanCall → Option Nat
  | .scanPublish k | .scanPurge k | .scanListen k _ => some k
  | _ => none

/-- The scan state that a call to `u80211_scan` uses. -/
def ScanCall.scan : ScanCall → Option Nat
  | .scanClaim k | .scanPublish k | .scanPurge k | .scanListen k _ => some k
  | _ => none

/-- A call that owns a scan uses it. -/
theorem ScanCall.scan_of_claimed {c : ScanCall} {k : Nat} (h : c.claimed = some k) :
    c.scan = some k := by
  cases c <;> first | exact h | cases h

/-- Behind the section that sets `receiving`. -/
def Listen.receiving : Listen → Bool
  | .setChannel | .receive => false
  | .sendProbe | .arm => true

def ScanCall.receiving : ScanCall → Bool
  | .scanListen _ line => line.receiving
  | _ => false

/-- The scan that `scan_context` points to while the call is at a position. -/
def ScanCall.published : ScanCall → Option Nat
  | .scanPurge k | .scanListen k _ => some k
  | _ => none

def ScanPc.receiving : ScanPc → Bool
  | .stop => true
  | .listen line => line.receiving
  | _ => false

/-- `complete_scan` has not cleared `scan_context` yet. -/
def ScanPc.published : ScanPc → Bool
  | .enqueueCleanup => false
  | _ => true

def ScanCleanupPc.scan : ScanCleanupPc → Nat
  | .freeTimer k | .freeWork k | .freeBuffer k | .freeState k | .last k => k

/-- The number of lines of `destroy_scan_state` that have been executed. -/
def ScanCleanupPc.freed : ScanCleanupPc → Nat
  | .freeTimer _ => 0
  | .freeWork _ => 1
  | .freeBuffer _ => 2
  | .freeState _ => 3
  | .last _ => 4

namespace ScanState

/-- The first `n` lines of `destroy_scan_state` have been executed. -/
structure Freed (o : ScanState) (n : Nat) : Prop where
  timer : o.work.timerFreed = decide (0 < n)
  work : o.work.work.freed = decide (1 < n)
  buffer : o.bufferFreed = decide (2 < n)
  state : o.freed = decide (3 < n)

/-- Nothing is to run with the state, and nobody may write to it. -/
structure Idle (o : ScanState) : Prop where
  request : o.work.work.request = .idle
  running : o.work.work.running = none
  receiving : o.receiving = false

variable {o o' : ScanState} {beacon : BeaconData}

/-- A scan state of which nothing has been freed is not destroyed. -/
theorem Freed.not_destroyed (h : o.Freed 0) : ¬ o.Destroyed := by
  simp [Destroyed, h.timer, h.work, h.buffer, h.state]

/-- `scan_work` completes the scan, or goes to the next channel. -/
theorem leaveDrain_cases {pc : ScanPc} (h : o.leaveDrain = some pc) :
    pc = .complete ∨ ∃ channel, pc = .setCurrent channel := by
  obtain ⟨next, -, h⟩ := Option.bind_eq_some_iff.mp h
  cases next with
  | none => exact Or.inl (Option.some.inj h).symm
  | some channel => exact Or.inr ⟨channel, (Option.some.inj h).symm⟩

/-- The head of the loop changes the ring buffer only. -/
theorem drain_cases {pc : ScanPc} (h : o.drain = some (o', pc)) :
    (∃ buffer, o' = { o with buffer }) ∧
      ((∃ beacon rsnSize, pc = .readRsn beacon rsnSize) ∨ o'.leaveDrain = some pc) := by
  unfold drain at h
  split at h
  · obtain ⟨pc, hl, he⟩ := Option.map_eq_some_iff.mp h
    cases he
    exact ⟨⟨o.buffer, rfl⟩, Or.inr hl⟩
  · obtain ⟨⟨buffer, record⟩, -, h⟩ := Option.bind_eq_some_iff.mp h
    dsimp only at h
    split at h
    · obtain ⟨pc, hl, he⟩ := Option.map_eq_some_iff.mp h
      cases he
      exact ⟨⟨buffer, rfl⟩, Or.inr hl⟩
    · obtain ⟨⟨beacon, rsnSize⟩, -, h⟩ := Option.bind_eq_some_iff.mp h
      cases h
      exact ⟨⟨buffer, rfl⟩, Or.inl ⟨beacon, rsnSize, rfl⟩⟩

/-- The second read changes the buffer only. -/
theorem readRsn_cases {rsnSize : UInt64} {r : Except Unit (Option BeaconData)}
    (h : o.readRsn beacon rsnSize = some (o', r)) : ∃ buffer, o' = { o with buffer } := by
  obtain ⟨⟨buffer, rsn⟩, -, h⟩ := Option.bind_eq_some_iff.mp h
  dsimp only at h
  split at h
  · cases h
  · split at h
    · cases h; exact ⟨buffer, rfl⟩
    · split at h <;> cases h <;> exact ⟨buffer, rfl⟩

/-- A response changes the buffer only. -/
theorem processResponse_cases {pointer : BeaconPointer}
    (h : o.processResponse beacon pointer = some o') : ∃ buffer, o' = { o with buffer } := by
  unfold processResponse at h
  split at h
  · cases h; exact ⟨o.buffer, rfl⟩
  · split at h
    · cases h; exact ⟨o.buffer, rfl⟩
    · obtain ⟨⟨buffer, n⟩, -, h⟩ := Option.bind_eq_some_iff.mp h
      obtain ⟨⟨buffer', n'⟩, -, h⟩ := Option.bind_eq_some_iff.mp h
      cases h
      exact ⟨buffer', rfl⟩

end ScanState

/-- Outside of a scan's own swaps the device starts and ends no scan. -/
theorem Effect.scanning_iff {s s' : System} {action : Action} (hc : s.association.Consistent)
    (he : Effect s action s') (hb : action ≠ .scanBegin) (hn : action ≠ .scanEnd) :
    s'.association.state = .scanning ↔ s.association.state = .scanning := by
  have hsection {cause : Cause} {r : SectionResult} (hr : SectionStep s.association cause r) :
      r.association.state = .scanning ↔ s.association.state = .scanning := by
    cases hr with
    | unchanged => exact Iff.rfl
    | authenticated _ hs => simp [SectionResult.authenticated, hs]
    | ended hcx he =>
      have hin := hc.inProgress_of_context hcx
      refine iff_of_false ?_ fun hs => by rw [hs] at hin; cases hin
      simp only [SectionResult.ended, Association.endAttempt]
      split <;> simp
    | disconnected hs => simp [SectionResult.disconnected, Association.disconnect, hs]
  cases he with
  | install _ _ hs => simp [hs, Association.install]
  | deauthenticateFirst _ hs => simp [hs]
  | deauthenticateSecond _ hs => simp [hs, Association.leave]
  | process _ hr => simpa using hsection hr
  | timeout _ _ hr => simpa using hsection hr
  | scanBegin => exact absurd rfl hb
  | scanEnd => exact absurd rfl hn
  | scanBusy => exact Iff.rfl
  | _ => exact Iff.rfl

namespace Machine

/-- Where the scan is that owns the device. -/
inductive Owner where
  /-- in call `i` -/
  | call (i k : Nat) (c : ScanCall)
  /-- `scan_work` has been asked to run -/
  | queued (k : Nat)
  | work (k : Nat) (pc : ScanPc)
  /-- `cleanup_scan` has been asked to run -/
  | cleanupQueued (k : Nat)
  | cleanup (pc : ScanCleanupPc)

namespace Owner

def scan : Owner → Nat
  | .call _ k _ | .queued k | .work k _ | .cleanupQueued k => k
  | .cleanup pc => pc.scan

def context : Owner → Option Nat
  | .call _ _ c => c.published
  | .queued k => some k
  | .work k pc => if pc.published then some k else none
  | .cleanupQueued _ | .cleanup _ => none

def pending : Owner → Bool
  | .queued _ => true
  | _ => false

def running : Owner → Option ScanPc
  | .work _ pc => some pc
  | _ => none

def receiving : Owner → Bool
  | .call _ _ c => c.receiving
  | .queued _ => true
  | .work _ pc => pc.receiving
  | .cleanupQueued _ | .cleanup _ => false

def freed : Owner → Nat
  | .cleanup pc => pc.freed
  | _ => 0

/-- The argument of the pending request for the cleanup. -/
def cleanupArgument : Owner → Option Nat
  | .cleanupQueued k => some k
  | _ => none

def cleanupRunning : Owner → Option ScanCleanupPc
  | .cleanup pc => some pc
  | _ => none

/-- What the owner says about its scan state. -/
structure Shapes (x : Owner) (o : ScanState) : Prop where
  freed : o.Freed x.freed
  request : o.work.work.request ≠ .idle ↔ x.pending = true
  running : o.work.work.running = x.running
  receiving : o.receiving = x.receiving

/-- Only a queued owner has a request. -/
theorem Shapes.idle {x : Owner} {o : ScanState} (h : x.Shapes o) (hx : x.pending = false) :
    o.work.work.request = .idle := by
  by_contra hne
  rw [h.request.mp hne] at hx
  cases hx

end Owner

/-- What the owner says about `scan_cleanup_work`. -/
structure FitsCleanup (m : Machine) (w : Option Owner) : Prop where
  freed : m.scanCleanupWork.freed = false
  running : m.scanCleanupWork.running = w.bind Owner.cleanupRunning
  request : m.scanCleanupWork.request ≠ .idle ↔ w.bind Owner.cleanupArgument ≠ none
  argument : ∀ k, w.bind Owner.cleanupArgument = some k → m.scanCleanupArgument = k

/-- The cleanup has a request only when the owner has asked for it. -/
theorem FitsCleanup.idle {m : Machine} {w : Option Owner} (h : m.FitsCleanup w)
    (hw : w.bind Owner.cleanupArgument = none) : m.scanCleanupWork.request = .idle := by
  by_contra hne
  exact h.request.mp hne hw

/-- All parts of the machine agree that `w` is where the owner is. -/
structure Fits (m : Machine) (w : Option Owner) : Prop where
  state : m.system.association.state = .scanning ↔ w ≠ none
  context : m.scanContext = w.bind Owner.context
  calls : ∀ (i k : Nat) (c : ScanCall), c.claimed = some k →
    (m.scanCalls[i]? = some c ↔ w = some (.call i k c))
  claimed : ∀ i k c, w = some (.call i k c) → c.claimed = some k
  own : ∀ x, w = some x → ∃ o, m.scanStates x.scan = some o ∧ x.Shapes o
  idle : ∀ k o, m.scanStates k = some o → (∀ x, w = some x → x.scan ≠ k) → o.Idle
  cleanup : m.FitsCleanup w
  unclaimed : ∀ i k : Nat, m.scanCalls[i]? = some (.scanClaim k) →
    (∃ o, m.scanStates k = some o ∧ o.Freed 0) ∧ (∀ x, w = some x → x.scan ≠ k) ∧
      ∀ j : Nat, m.scanCalls[j]? = some (.scanClaim k) → j = i
  fresh : ∀ k o, m.scanStates k = some o → k < m.nextScanState

variable {m m' : Machine} {w : Option Owner} {x x' : Owner} {own : MacAddress} {event : Event}

/-! ## Steps that leave the owner where it is -/

/-- The calls that use a scan state stand where they stood. -/
def SameScans (calls calls' : List ScanCall) : Prop :=
  ∀ (i : Nat) (c : ScanCall), c.scan ≠ none → (calls'[i]? = some c ↔ calls[i]? = some c)

theorem getElem?_set_of {calls : List ScanCall} {i : Nat} {c : ScanCall} (h : calls[i]? = some c)
    (c' d : ScanCall) (j : Nat) :
    (calls.set i c')[j]? = some d ↔ if j = i then c' = d else calls[j]? = some d := by
  obtain ⟨hlt, -⟩ := List.getElem?_eq_some_iff.mp h
  by_cases hj : j = i
  · subst hj
    rw [List.getElem?_set_self hlt, if_pos rfl, Option.some.injEq]
  · rw [List.getElem?_set_ne (Ne.symm hj), if_neg hj]

/-- A call that is about to swap the state stands where it stood. -/
theorem claim_of_set {calls : List ScanCall} {i j k : Nat} {c c' : ScanCall}
    (h : calls[i]? = some c) (hc' : c'.scan ≠ some k ∨ c'.claimed ≠ none)
    (hj : (calls.set i c')[j]? = some (.scanClaim k)) :
    j ≠ i ∧ calls[j]? = some (.scanClaim k) := by
  rw [getElem?_set_of h] at hj
  split at hj
  · subst hj
    rcases hc' with hc' | hc'
    · exact absurd rfl hc'
    · exact absurd rfl hc'
  · next hne => exact ⟨hne, hj⟩

theorem SameScans.set {calls : List ScanCall} {i : Nat} {c c' : ScanCall}
    (h : calls[i]? = some c) (hc : c.scan = none) (hc' : c'.scan = none) :
    SameScans calls (calls.set i c') := by
  intro j d hd
  rw [getElem?_set_of h]
  by_cases hj : j = i
  · subst hj
    rw [if_pos rfl, h, Option.some.injEq]
    constructor
    · rintro rfl
      exact absurd hc' hd
    · rintro rfl
      exact absurd hc hd
  · rw [if_neg hj]

theorem SameScans.append {calls added : List ScanCall} (h : ∀ c ∈ added, c.scan = none) :
    SameScans calls (calls ++ added) := by
  intro i c hc
  rw [List.getElem?_append]
  split
  · rfl
  · next hi =>
    rw [List.getElem?_eq_none (Nat.le_of_not_lt hi)]
    refine iff_of_false (fun hadded => hc (h c ?_)) (by simp)
    exact List.mem_of_getElem? hadded

theorem SameScans.signal (calls : List ScanCall) (waiter : Nat) :
    SameScans calls (signal calls waiter) := by
  unfold Machine.signal
  split
  · next semaphore hc => exact .set hc rfl rfl
  · exact fun _ _ _ => Iff.rfl

theorem SameScans.wake (waiters : List Nat) (calls : List ScanCall) :
    SameScans calls (wakeScanWaiters calls waiters) := by
  induction waiters generalizing calls with
  | nil => exact fun _ _ _ => Iff.rfl
  | cons waiter waiters ih =>
    intro i c hc
    exact (ih (Machine.signal calls waiter) i c hc).trans (SameScans.signal calls waiter i c hc)

theorem FitsCleanup.frame (h : m.FitsCleanup w) (hwork : m'.scanCleanupWork = m.scanCleanupWork)
    (hargument : m'.scanCleanupArgument = m.scanCleanupArgument) : m'.FitsCleanup w where
  freed := by rw [hwork]; exact h.freed
  running := by rw [hwork]; exact h.running
  request := by rw [hwork]; exact h.request
  argument := by rw [hargument]; exact h.argument

/-- The owner stays where it is when nothing that it speaks of changes. -/
theorem Fits.frame (h : m.Fits w)
    (hstate : m'.system.association.state = .scanning ↔ m.system.association.state = .scanning)
    (hcontext : m'.scanContext = m.scanContext) (hstates : m'.scanStates = m.scanStates)
    (hnext : m'.nextScanState = m.nextScanState) (hwork : m'.scanCleanupWork = m.scanCleanupWork)
    (hargument : m'.scanCleanupArgument = m.scanCleanupArgument)
    (hcalls : SameScans m.scanCalls m'.scanCalls) : m'.Fits w where
  state := hstate.trans h.state
  context := hcontext.trans h.context
  calls i k c hc :=
    (hcalls i c (by rw [ScanCall.scan_of_claimed hc]; simp)).trans (h.calls i k c hc)
  claimed := h.claimed
  own := by rw [hstates]; exact h.own
  idle := by rw [hstates]; exact h.idle
  cleanup := h.cleanup.frame hwork hargument
  unclaimed := by
    intro i k hc
    have hscan : (ScanCall.scanClaim k).scan ≠ none := by simp [ScanCall.scan]
    rw [hcalls i _ hscan] at hc
    obtain ⟨hlive, hother, hunique⟩ := h.unclaimed i k hc
    refine ⟨by rwa [hstates], hother, fun j hj => hunique j ?_⟩
    exact (hcalls j _ hscan).mp hj
  fresh := by rw [hstates, hnext]; exact h.fresh

/-! ## Steps of the owner -/

/-- The owner moves on with its scan state. -/
theorem Fits.move (h : m.Fits (some x)) (hscan : x'.scan = x.scan)
    (hstate : m'.system.association.state = m.system.association.state)
    (hcontext : m'.scanContext = x'.context)
    (hstates : ∀ k, k ≠ x.scan → m'.scanStates k = m.scanStates k)
    (hown : ∃ o, m'.scanStates x.scan = some o ∧ x'.Shapes o)
    (hnext : m'.nextScanState = m.nextScanState)
    (hclaimed : ∀ i k c, x' = .call i k c → c.claimed = some k)
    (hcalls : ∀ (i k : Nat) (c : ScanCall), c.claimed = some k →
      (m'.scanCalls[i]? = some c ↔ some x' = some (.call i k c)))
    (hclaims : ∀ i k : Nat, m'.scanCalls[i]? = some (.scanClaim k) ↔
      m.scanCalls[i]? = some (.scanClaim k))
    (hcleanup : m'.FitsCleanup (some x')) : m'.Fits (some x') where
  state := by
    rw [hstate]
    exact iff_of_true (h.state.mpr (Option.some_ne_none _)) (Option.some_ne_none _)
  context := hcontext
  calls := hcalls
  claimed := by
    intro i k c hx
    exact hclaimed i k c (Option.some.inj hx)
  own := by
    rintro y hy
    obtain rfl := Option.some.inj hy
    rw [hscan]
    exact hown
  idle := by
    intro k o ho hne
    have hk : x.scan ≠ k := hscan ▸ hne x' rfl
    rw [hstates k (Ne.symm hk)] at ho
    refine h.idle k o ho fun y hy => ?_
    obtain rfl := Option.some.inj hy
    exact hk
  cleanup := hcleanup
  unclaimed := by
    intro i k hc
    obtain ⟨⟨o, ho, hlive⟩, hother, hunique⟩ := h.unclaimed i k ((hclaims i k).mp hc)
    have hk : x.scan ≠ k := hother x rfl
    refine ⟨⟨o, ?_, hlive⟩, ?_, fun j hj => hunique j ((hclaims j k).mp hj)⟩
    · rw [hstates k (Ne.symm hk)]
      exact ho
    · rintro y hy
      obtain rfl := Option.some.inj hy
      rw [hscan]
      exact hk
  fresh := by
    intro k o ho
    rw [hnext]
    by_cases hk : k = x.scan
    · subst hk
      obtain ⟨o, ho, -⟩ := h.own x rfl
      exact h.fresh _ o ho
    · rw [hstates k hk] at ho
      exact h.fresh k o ho

/-! ## What the parts of the machine tell about the owner -/

/-- What the owner says about its scan state holds of it. -/
theorem Fits.shapes (h : m.Fits (some x)) {o : ScanState} (ho : m.scanStates x.scan = some o) :
    x.Shapes o := by
  obtain ⟨o', ho', hshape⟩ := h.own x rfl
  rw [ho, Option.some.injEq] at ho'
  rw [ho']
  exact hshape

/-- A scan state that is not idle is that of the owner. -/
theorem Fits.of_scan (h : m.Fits w) {k : Nat} {o : ScanState} (ho : m.scanStates k = some o)
    (hbusy : ¬ o.Idle) : ∃ x, w = some x ∧ x.scan = k ∧ x.Shapes o := by
  by_cases hx : ∀ x, w = some x → x.scan ≠ k
  · exact absurd (h.idle k o ho hx) hbusy
  · obtain ⟨x, hx⟩ := not_forall.mp hx
    obtain ⟨hw, hk⟩ := Classical.not_imp.mp hx
    rw [not_not] at hk
    subst hw hk
    exact ⟨x, rfl, rfl, h.shapes ho⟩

/-- A running `scan_work` is the owner. -/
theorem Fits.of_running (h : m.Fits w) {k : Nat} {o : ScanState} {pc : ScanPc}
    (ho : m.scanStates k = some o) (hr : o.work.work.running = some pc) :
    w = some (.work k pc) := by
  obtain ⟨x, rfl, hk, hshape⟩ := h.of_scan ho fun hi => by rw [hi.running] at hr; cases hr
  have hrun := hshape.running
  rw [hr] at hrun
  cases x with
  | work k' pc' =>
    cases hrun
    cases hk
    rfl
  | _ => cases hrun

/-- A pending request is the owner. -/
theorem Fits.of_pending (h : m.Fits w) {k : Nat} {o : ScanState} (ho : m.scanStates k = some o)
    (hr : o.work.work.request ≠ .idle) : w = some (.queued k) := by
  obtain ⟨x, rfl, hk, hshape⟩ := h.of_scan ho fun hi => hr hi.request
  have hpending := hshape.request.mp hr
  cases x with
  | queued k' => cases hk; rfl
  | _ => cases hpending

/-- A scan that receives is that of the owner. -/
theorem Fits.of_receiving (h : m.Fits w) {k : Nat} {o : ScanState} (ho : m.scanStates k = some o)
    (hr : o.receiving = true) : ∃ x, w = some x ∧ x.scan = k ∧ x.receiving = true := by
  obtain ⟨x, hw, hk, hshape⟩ := h.of_scan ho fun hi => by rw [hi.receiving] at hr; cases hr
  exact ⟨x, hw, hk, hshape.receiving.symm.trans hr⟩

/-- A running cleanup is the owner. -/
theorem Fits.of_cleaning (h : m.Fits w) {pc : ScanCleanupPc}
    (hr : m.scanCleanupWork.running = some pc) : w = some (.cleanup pc) := by
  have hrun := h.cleanup.running
  rw [hr] at hrun
  obtain ⟨x, rfl, hx⟩ := Option.bind_eq_some_iff.mp hrun.symm
  cases x with
  | cleanup pc' => cases hx; rfl
  | _ => cases hx

/-- A pending cleanup is the owner. -/
theorem Fits.of_cleanupPending (h : m.Fits w) (hr : m.scanCleanupWork.request ≠ .idle) :
    w = some (.cleanupQueued m.scanCleanupArgument) := by
  obtain ⟨k, hk⟩ := Option.ne_none_iff_exists'.mp (h.cleanup.request.mp hr)
  have hargument := h.cleanup.argument k hk
  obtain ⟨x, rfl, hx⟩ := Option.bind_eq_some_iff.mp hk
  cases x with
  | cleanupQueued k' => cases hx; rw [hargument]
  | _ => cases hx

/-- `scan_cleanup_work` does not concern an owner that the cleanup has not got to. -/
theorem FitsCleanup.congr (h : m.FitsCleanup w) {w' : Option Owner}
    (hwork : m'.scanCleanupWork = m.scanCleanupWork)
    (hrunning : w'.bind Owner.cleanupRunning = w.bind Owner.cleanupRunning)
    (hargument : w'.bind Owner.cleanupArgument = none)
    (hargument' : w.bind Owner.cleanupArgument = none) : m'.FitsCleanup w' where
  freed := by rw [hwork]; exact h.freed
  running := by rw [hwork, hrunning]; exact h.running
  request := by
    have hrequest := h.request
    rw [hargument'] at hrequest
    rw [hwork, hargument]
    exact hrequest
  argument := by
    intro k hk
    rw [hargument] at hk
    cases hk

/-! ## Steps -/

/-- How a step of the machine moves the owner. -/
inductive Turn (m : Machine) : Event → Option Owner → Option Owner → Prop
  /-- the device belongs to the scan, or to no scan, that it belonged to -/
  | stays {event w w'} (h : w'.map Owner.scan = w.map Owner.scan) : Turn m event w w'
  /-- `u80211_scan` swaps the device state -/
  | begins {i k outcome} (hc : m.scanCalls[i]? = some (.scanClaim k)) :
      Turn m (.advance i outcome) none (some (.call i k (.scanPublish k)))
  /-- `cleanup_scan` swaps it back -/
  | ends {k} : Turn m .advanceCleanup (some (.cleanup (.last k))) none

/-- `scan_work` of the owner goes on, or returns. -/
theorem Fits.advanceWork (h : m.Fits w) {k : Nat} {o o' : ScanState} {pc : ScanPc}
    (ho : m.scanStates k = some o) (hw : o.work.work.running = some pc) (hscan : x'.scan = k)
    (hsystem : m'.system = m.system) (hcontext : m'.scanContext = x'.context)
    (hstates : m'.scanStates = Function.update m.scanStates k (some o'))
    (hshape : o.Freed 0 → o.work.work.request = .idle → o.receiving = pc.receiving → x'.Shapes o')
    (hnext : m'.nextScanState = m.nextScanState) (hcall : ∀ i k c, x' ≠ .call i k c)
    (hcalls : m'.scanCalls = m.scanCalls)
    (hcleanup : m.FitsCleanup (some (.work k pc)) → m'.FitsCleanup (some x')) :
    m'.Fits (some x') ∧ Turn m event w (some x') := by
  obtain rfl := h.of_running ho hw
  have hown := h.shapes (x := .work k pc) ho
  have hidle : o.work.work.request = .idle := hown.idle rfl
  refine ⟨h.move hscan (by rw [hsystem]) hcontext ?_ ⟨o', ?_, ?_⟩ hnext ?_ ?_ ?_
    (hcleanup h.cleanup), .stays (congrArg some hscan)⟩
  · intro k' hk'
    rw [hstates]
    exact Function.update_of_ne hk' _ _
  · rw [hstates]
    exact Function.update_self _ _ _
  · exact hshape hown.freed hidle hown.receiving
  · intro i k c hx
    exact absurd hx (hcall i k c)
  · intro i k c hc
    rw [hcalls, h.calls i k c hc]
    exact iff_of_false (by simp) (by simpa using hcall i k c)
  · intro i k
    rw [hcalls]

/-- `scan_work` of the owner goes on at another position, with another ring buffer, channel or flag
at most. -/
theorem Fits.gotoWork (h : m.Fits w) {k : Nat} {o o' : ScanState} {pc pc' : ScanPc}
    (ho : m.scanStates k = some o) (hw : o.work.work.running = some pc)
    (hsystem : m'.system = m.system)
    (hcontext : m'.scanContext = if pc'.published then some k else none)
    (hstates : m'.scanStates = Function.update m.scanStates k (some o'))
    (hwork : o'.work = o.work.goto (some pc')) (hbuffer : o'.bufferFreed = o.bufferFreed)
    (hfreed : o'.freed = o.freed)
    (hreceiving : o.receiving = pc.receiving → o'.receiving = pc'.receiving)
    (hnext : m'.nextScanState = m.nextScanState) (hcalls : m'.scanCalls = m.scanCalls)
    (hcleanup : m'.scanCleanupWork = m.scanCleanupWork) :
    m'.Fits (some (.work k pc')) ∧ Turn m event w (some (.work k pc')) := by
  refine h.advanceWork ho hw rfl hsystem hcontext hstates ?_ hnext (fun i k c => by simp) hcalls
    fun hc => hc.congr hcleanup rfl rfl rfl
  intro hlive hidle hr
  refine ⟨⟨?_, ?_, ?_, ?_⟩, ?_, ?_, hreceiving hr⟩
  · rw [hwork]; exact hlive.timer
  · rw [hwork]; exact hlive.work
  · rw [hbuffer]; exact hlive.buffer
  · rw [hfreed]; exact hlive.state
  · rw [hwork]
    exact iff_of_false (not_not.mpr hidle) (by simp [Owner.pending])
  · rw [hwork]
    rfl

/-- `scan_context` points to the scan while `scan_work` runs, up to `complete_scan`. -/
theorem Fits.context_work (h : m.Fits w) {k : Nat} {o : ScanState} {pc pc' : ScanPc}
    (ho : m.scanStates k = some o) (hw : o.work.work.running = some pc)
    (hpc : pc.published = true) (hpc' : pc'.published = true) :
    m.scanContext = if pc'.published then some k else none := by
  obtain rfl := h.of_running ho hw
  rw [h.context, if_pos hpc']
  exact if_pos hpc

/-- The scan of the device is that of the owner. -/
theorem Fits.of_context (h : m.Fits w) {k : Nat} (hx : m.scanContext = some k) :
    ∃ x, w = some x ∧ x.scan = k ∧ x.context = some k := by
  have hcontext := h.context
  rw [hx] at hcontext
  obtain ⟨x, rfl, hk⟩ := Option.bind_eq_some_iff.mp hcontext.symm
  refine ⟨x, rfl, ?_, hk⟩
  cases x with
  | call i k' c =>
    have hc := h.claimed i k' c rfl
    cases c <;> cases hc <;> cases hk <;> rfl
  | queued k' => cases hk; rfl
  | work k' pc =>
    obtain ⟨-, hk⟩ := Option.ite_none_right_eq_some.mp hk
    exact Option.some.inj hk
  | cleanupQueued k' => cases hk
  | cleanup pc => cases hk

/-- The owner stays where it is, and its scan state changes. -/
theorem Fits.setScanState (h : m.Fits (some x)) {o' : ScanState} (hshape : x.Shapes o') :
    (m.setScanState x.scan o').Fits (some x) := by
  refine h.move rfl rfl h.context ?_ ⟨o', Function.update_self _ _ _, hshape⟩ rfl ?_ h.calls
    (fun _ _ => Iff.rfl) (h.cleanup.frame rfl rfl)
  · intro k hk
    exact Function.update_of_ne hk _ _
  · intro i k c he
    exact h.claimed i k c (congrArg some he)

/-- The call of the owner goes on. -/
theorem Fits.advanceCall (h : m.Fits w) {i k : Nat} {c c' : ScanCall}
    (hc : m.scanCalls[i]? = some c) (hk : c.claimed = some k) (hscan : x'.scan = k)
    (hx : ∀ j k' d, d.claimed = some k' → (x' = .call j k' d ↔ j = i ∧ c' = d))
    (hx' : ∀ j k' d, x' = .call j k' d → d.claimed = some k')
    (hclaim : ∀ k', c' ≠ .scanClaim k') (hsystem : m'.system = m.system)
    (hcontext : m'.scanContext = x'.context)
    (hstates : ∀ k', k' ≠ k → m'.scanStates k' = m.scanStates k')
    (hown : ∀ o, m.scanStates k = some o → (Owner.call i k c).Shapes o →
      ∃ o', m'.scanStates k = some o' ∧ x'.Shapes o')
    (hnext : m'.nextScanState = m.nextScanState) (hcalls : m'.scanCalls = m.scanCalls.set i c')
    (hcleanup : m'.scanCleanupWork = m.scanCleanupWork)
    (hrunning : x'.cleanupRunning = none) (hargument : x'.cleanupArgument = none) :
    m'.Fits (some x') ∧ Turn m event w (some x') := by
  obtain rfl := (h.calls i k c hk).mp hc
  obtain ⟨o, ho, hshape₀⟩ := h.own _ rfl
  refine ⟨h.move hscan (by rw [hsystem]) hcontext hstates (hown o ho hshape₀) hnext hx' ?_ ?_
    (h.cleanup.congr hcleanup hrunning hargument rfl), .stays (congrArg some hscan)⟩
  · intro j k' d hd
    rw [hcalls, getElem?_set_of hc, Option.some.injEq, hx j k' d hd]
    by_cases hj : j = i
    · rw [if_pos hj]
      exact ⟨fun he => ⟨hj, he⟩, fun he => he.2⟩
    · rw [if_neg hj, h.calls j k' d hd]
      refine iff_of_false (fun he => ?_) fun he => hj he.1
      cases he
      exact hj rfl
  · intro j k'
    rw [hcalls, getElem?_set_of hc]
    by_cases hj : j = i
    · subst hj
      rw [if_pos rfl, hc, Option.some.injEq]
      refine iff_of_false (hclaim k') fun he => ?_
      subst he
      cases hk
    · rw [if_neg hj]

/-- A line of `u80211_scan` leads to the next one. -/
theorem call_eq_iff {i k : Nat} {c : ScanCall} (hc : c.claimed = some k) (j k' : Nat) (d : ScanCall)
    (hd : d.claimed = some k') : Owner.call i k c = .call j k' d ↔ j = i ∧ c = d := by
  constructor
  · intro he
    cases he
    exact ⟨rfl, rfl⟩
  · rintro ⟨rfl, rfl⟩
    rw [hc, Option.some.injEq] at hd
    rw [hd]

/-- A quiet step is of a call that uses no scan state. -/
theorem Quiet.scan {c c' : ScanCall} (h : Quiet m c c') : c.scan = none ∧ c'.scan = none := by
  cases h <;> exact ⟨rfl, rfl⟩

theorem Fits.stays (h : m'.Fits w) : ∃ w', m'.Fits w' ∧ Turn m event w w' :=
  ⟨w, h, .stays rfl⟩

/-- A new scan state is allocated. -/
theorem Fits.allocate (h : m.Fits w) {i channel : Nat} {buffer : RingBuffer}
    (hc : m.scanCalls[i]? = some .scanAllocate) :
    (({ m with nextScanState := m.nextScanState + 1 }.setScanState m.nextScanState
      (.allocate buffer channel)).setScanCall i (.scanClaim m.nextScanState)).Fits w := by
  have hnew : ∀ k o, m.scanStates k = some o → k ≠ m.nextScanState := fun k o ho =>
    Nat.ne_of_lt (h.fresh k o ho)
  have hold : ∀ x, w = some x → x.scan ≠ m.nextScanState := by
    intro x hx
    obtain ⟨o, ho, -⟩ := h.own x hx
    exact hnew _ o ho
  constructor
  · exact h.state
  · exact h.context
  · intro j k c hk
    refine (?_ : _ ↔ _).trans (h.calls j k c hk)
    show (m.scanCalls.set i _)[j]? = some c ↔ _
    rw [getElem?_set_of hc]
    by_cases hj : j = i
    · subst hj
      rw [if_pos rfl, hc, Option.some.injEq]
      constructor <;> rintro rfl <;> cases hk
    · rw [if_neg hj]
  · exact h.claimed
  · intro x hx
    obtain ⟨o, ho, hshape⟩ := h.own x hx
    exact ⟨o, (Function.update_of_ne (hnew _ o ho) _ _).trans ho, hshape⟩
  · intro k o ho hx
    by_cases hk : k = m.nextScanState
    · subst hk
      rw [setScanCall_scanStates, setScanState_scanStates, Function.update_self] at ho
      cases ho
      exact ⟨rfl, rfl, rfl⟩
    · rw [setScanCall_scanStates, setScanState_scanStates, Function.update_of_ne hk] at ho
      exact h.idle k o ho hx
  · exact h.cleanup.frame rfl rfl
  · intro j k hj
    rw [setScanCall_scanCalls, setScanState_scanCalls, getElem?_set_of hc] at hj
    by_cases hji : j = i
    · subst hji
      rw [if_pos rfl, ScanCall.scanClaim.injEq] at hj
      subst hj
      refine ⟨⟨_, Function.update_self _ _ _, rfl, rfl, rfl, rfl⟩, hold, ?_⟩
      intro j' hj'
      by_contra hne
      rw [setScanCall_scanCalls, setScanState_scanCalls, getElem?_set_of hc, if_neg hne] at hj'
      obtain ⟨⟨o, ho, -⟩, -⟩ := h.unclaimed j' _ hj'
      exact hnew _ o ho rfl
    · rw [if_neg hji] at hj
      obtain ⟨⟨o, ho, hlive⟩, hother, hunique⟩ := h.unclaimed j k hj
      refine ⟨⟨o, (Function.update_of_ne (hnew k o ho) _ _).trans ho, hlive⟩, hother, ?_⟩
      intro j' hj'
      rw [setScanCall_scanCalls, setScanState_scanCalls, getElem?_set_of hc] at hj'
      split at hj'
      · cases hj'
        exact absurd rfl (hnew _ o ho)
      · exact hunique j' hj'
  · intro k o ho
    show k < m.nextScanState + 1
    by_cases hk : k = m.nextScanState
    · omega
    · rw [setScanCall_scanStates, setScanState_scanStates, Function.update_of_ne hk] at ho
      exact Nat.lt_succ_of_lt (h.fresh k o ho)

/-- `u80211_scan` swaps the state of a device that belongs to no scan. -/
theorem Fits.claim (h : m.Fits w) {i k : Nat} (hc : m.scanCalls[i]? = some (.scanClaim k))
    (hs : m.system.association.state = .down) :
    w = none ∧ ((m.withState .scanning).setScanCall i (.scanPublish k)).Fits
      (some (.call i k (.scanPublish k))) := by
  obtain rfl : w = none := by
    by_contra hw
    have hst := h.state.mpr hw
    rw [hs] at hst
    cases hst
  obtain ⟨⟨o, ho, hlive⟩, -, hunique⟩ := h.unclaimed i k hc
  have hidle : o.Idle := h.idle k o ho fun x hx => by cases hx
  refine ⟨rfl, ?_⟩
  constructor
  · exact iff_of_true rfl (Option.some_ne_none _)
  · exact h.context
  · intro j k' d hd
    rw [Option.some.injEq, call_eq_iff rfl j k' d hd]
    show (m.scanCalls.set i _)[j]? = some d ↔ _
    rw [getElem?_set_of hc]
    by_cases hj : j = i
    · rw [if_pos hj]
      exact ⟨fun he => ⟨hj, he⟩, fun he => he.2⟩
    · rw [if_neg hj, h.calls j k' d hd]
      exact iff_of_false (by simp) fun he => hj he.1
  · intro j k' d he
    cases he
    rfl
  · intro x hx
    cases hx
    refine ⟨o, ho, hlive, ?_, hidle.running, hidle.receiving⟩
    exact iff_of_false (not_not.mpr hidle.request) (by simp [Owner.pending])
  · intro k' o' ho' _
    exact h.idle k' o' ho' fun x hx => by cases hx
  · exact h.cleanup.congr rfl rfl rfl rfl
  · intro j k' hj
    obtain ⟨hji, hold⟩ := claim_of_set hc (Or.inr (by simp [ScanCall.claimed])) hj
    obtain ⟨hlive', -, hunique'⟩ := h.unclaimed j k' hold
    refine ⟨hlive', ?_, ?_⟩
    · intro x hx hk
      cases hx
      subst hk
      exact hji (hunique j hold)
    · intro j' hj'
      exact hunique' j' (claim_of_set hc (Or.inr (by simp [ScanCall.claimed])) hj').2
  · exact h.fresh

/-- A scan that finds the device busy is dropped again. -/
theorem Fits.busy (h : m.Fits w) {i k : Nat} {o : ScanState}
    (hc : m.scanCalls[i]? = some (.scanClaim k)) (ho : m.scanStates k = some o) :
    ((m.setScanState k o.destroy).setScanCall i (.returned .busy)).Fits w := by
  obtain ⟨-, hother, hunique⟩ := h.unclaimed i k hc
  constructor
  · exact h.state
  · exact h.context
  · intro j k' d hd
    refine (?_ : _ ↔ _).trans (h.calls j k' d hd)
    show (m.scanCalls.set i _)[j]? = some d ↔ _
    rw [getElem?_set_of hc]
    by_cases hj : j = i
    · subst hj
      rw [if_pos rfl, hc, Option.some.injEq]
      constructor <;> rintro rfl <;> cases hd
    · rw [if_neg hj]
  · exact h.claimed
  · intro x hx
    obtain ⟨o', ho', hshape⟩ := h.own x hx
    exact ⟨o', (Function.update_of_ne (hother x hx) _ _).trans ho', hshape⟩
  · intro k' o' ho' hx
    by_cases hk : k' = k
    · subst hk
      rw [setScanCall_scanStates, setScanState_scanStates, Function.update_self] at ho'
      cases ho'
      obtain ⟨hr, hrun, hrec⟩ := h.idle k' o ho hx
      exact ⟨hr, hrun, hrec⟩
    · rw [setScanCall_scanStates, setScanState_scanStates, Function.update_of_ne hk] at ho'
      exact h.idle k' o' ho' hx
  · exact h.cleanup.frame rfl rfl
  · intro j k' hj
    have hreturned : (ScanCall.returned .busy).scan ≠ some k' := by simp [ScanCall.scan]
    obtain ⟨hji, hold⟩ := claim_of_set hc (Or.inl hreturned) hj
    obtain ⟨⟨o', ho', hlive⟩, hother', hunique'⟩ := h.unclaimed j k' hold
    have hk : k' ≠ k := by
      rintro rfl
      exact hji (hunique j hold)
    refine ⟨⟨o', (Function.update_of_ne hk _ _).trans ho', hlive⟩, hother', ?_⟩
    intro j' hj'
    exact hunique' j' (claim_of_set hc (Or.inl hreturned) hj').2
  · intro k' o' ho'
    by_cases hk : k' = k
    · subst hk
      exact h.fresh k' o ho
    · rw [setScanCall_scanStates, setScanState_scanStates, Function.update_of_ne hk] at ho'
      exact h.fresh k' o' ho'

/-- The timer is armed, and the request becomes the owner. -/
theorem Owner.Shapes.enqueue {k : Nat} {o : ScanState} (hlive : o.Freed 0)
    (hrunning : o.work.work.running = none) (hreceiving : o.receiving = true) :
    (Owner.queued k).Shapes { o with work := o.work.enqueue } where
  freed := by
    refine ⟨?_, ?_, hlive.buffer, hlive.state⟩
    · rw [DelayedWork.enqueue_timerFreed]; exact hlive.timer
    · rw [DelayedWork.enqueue_freed]; exact hlive.work
  request := iff_of_true (DelayedWork.enqueue_pending hlive.timer hlive.work) rfl
  running := by rw [DelayedWork.enqueue_running]; exact hrunning
  receiving := hreceiving

/-- `u80211_scan` tunes the radio, starts to receive and arms the timer. -/
theorem Fits.listenCall (h : m.Fits w) {i k : Nat} {line : Listen} {o : ScanState}
    (hc : m.scanCalls[i]? = some (.scanListen k line)) (ho : m.scanStates k = some o) :
    ∃ w', ((m.listen k o line).setScanCall i
      (match line.next with
      | none => .returned .success
      | some line => .scanListen k line)).Fits w' ∧ Turn m event w w' := by
  have hcontext : m.scanContext = some k := by
    rw [h.context, (h.calls i k _ rfl).mp hc]
    rfl
  have hothers : ∀ k', k' ≠ k → (m.listen k o line).scanStates k' = m.scanStates k' :=
    fun k' hk' => Function.update_of_ne hk' _ _
  have hown : ∀ o₁, m.scanStates k = some o₁ → o₁ = o := fun o₁ ho₁ =>
    Option.some.inj (ho₁.symm.trans ho)
  have hcalled {line' : Listen} (j k' : Nat) (d : ScanCall)
      (he : Owner.call i k (.scanListen k line') = .call j k' d) : d.claimed = some k' := by
    cases he
    rfl
  cases line with
  | setChannel | sendProbe =>
    refine ⟨_, h.advanceCall hc rfl rfl (call_eq_iff rfl) hcalled (fun _ => by simp) rfl hcontext
      hothers ?_ rfl rfl rfl rfl rfl⟩
    rintro o₁ ho₁ hshape
    obtain rfl := hown o₁ ho₁
    exact ⟨_, Function.update_self _ _ _, hshape.freed, hshape.request, hshape.running,
      hshape.receiving⟩
  | receive =>
    refine ⟨_, h.advanceCall hc rfl rfl (call_eq_iff rfl) hcalled (fun _ => by simp) rfl hcontext
      hothers ?_ rfl rfl rfl rfl rfl⟩
    rintro o₁ ho₁ hshape
    obtain rfl := hown o₁ ho₁
    exact ⟨_, Function.update_self _ _ _, ⟨hshape.freed.timer, hshape.freed.work,
      hshape.freed.buffer, hshape.freed.state⟩, hshape.request, hshape.running, rfl⟩
  | arm =>
    refine ⟨some (.queued k), h.advanceCall hc rfl rfl ?_ (fun _ _ _ he => by cases he)
      (fun _ he => by cases he) rfl hcontext hothers ?_ rfl rfl rfl rfl rfl⟩
    · intro j k' d hd
      refine iff_of_false (by simp) ?_
      rintro ⟨-, rfl⟩
      cases hd
    · rintro o₁ ho₁ hshape
      obtain rfl := hown o₁ ho₁
      exact ⟨_, Function.update_self _ _ _,
        .enqueue hshape.freed hshape.running hshape.receiving⟩

/-- `scan_work` does the same on the next channel. -/
theorem Fits.listenWork (h : m.Fits w) {k : Nat} {line : Listen} {o : ScanState}
    (ho : m.scanStates k = some o) (hw : o.work.work.running = some (.listen line)) :
    ∃ w', (m.listen k (o.goto (line.next.map .listen)) line).Fits w' ∧ Turn m event w w' := by
  cases line with
  | setChannel | sendProbe =>
    exact ⟨_, h.gotoWork ho hw rfl (h.context_work ho hw rfl rfl) rfl rfl rfl rfl id rfl rfl rfl⟩
  | receive =>
    exact ⟨_, h.gotoWork ho hw rfl (h.context_work ho hw rfl rfl) rfl rfl rfl rfl (fun _ => rfl)
      rfl rfl rfl⟩
  | arm =>
    refine ⟨some (.queued k), h.advanceWork ho hw rfl rfl ?_ rfl ?_ rfl (fun _ _ _ => by simp)
      rfl fun hc => hc.congr rfl rfl rfl rfl⟩
    · obtain rfl := h.of_running ho hw
      exact h.context
    · intro hlive _ hreceiving
      exact .enqueue ⟨hlive.timer, hlive.work, hlive.buffer, hlive.state⟩ rfl hreceiving

/-- `scan_work` becomes the owner. -/
theorem Fits.startWork (h : m.Fits w) {k : Nat} {o : ScanState} {work : DelayedWork ScanPc}
    (ho : m.scanStates k = some o) (hw : o.work.start .stop = some work) :
    ∃ w', (m.setScanState k { o with work }).Fits w' ∧ Turn m event w w' := by
  obtain ⟨hrequest, hrunning, hfreed, rfl⟩ := DelayedWork.start_eq_some hw
  obtain rfl := h.of_pending ho (by rw [hrequest]; simp)
  have hshape := h.shapes (x := .queued k) ho
  refine ⟨some (.work k .stop), h.move rfl rfl h.context ?_ ⟨_, Function.update_self _ _ _, ?_⟩ rfl
    (fun _ _ _ he => by cases he) ?_ (fun _ _ => Iff.rfl) (h.cleanup.congr rfl rfl rfl rfl),
    .stays rfl⟩
  · intro k' hk'
    exact Function.update_of_ne hk' _ _
  · refine ⟨⟨hshape.freed.timer, rfl, hshape.freed.buffer, hshape.freed.state⟩, ?_, rfl,
      hshape.receiving⟩
    exact iff_of_false (by simp) (by simp [Owner.pending])
  · intro j k' c hc
    refine (h.calls j k' c hc).trans (iff_of_false ?_ ?_) <;> simp

/-- The request for the cleanup becomes the owner. -/
theorem Fits.enqueueCleanup (h : m.Fits w) {k : Nat} {o : ScanState}
    (ho : m.scanStates k = some o) (hw : o.work.work.running = some .enqueueCleanup) :
    ∃ w', ({ m with
      scanCleanupWork := m.scanCleanupWork.enqueue
      scanCleanupArgument :=
        if m.scanCleanupWork.request = Request.idle then k
        else m.scanCleanupArgument }.setScanState k (o.goto none)).Fits w' ∧ Turn m event w w' := by
  refine ⟨some (.cleanupQueued k), h.advanceWork ho hw rfl rfl ?_ rfl ?_ rfl
    (fun _ _ _ => by simp) rfl ?_⟩
  · obtain rfl := h.of_running ho hw
    exact h.context
  · intro hlive hidle hreceiving
    refine ⟨⟨hlive.timer, hlive.work, hlive.buffer, hlive.state⟩, ?_, rfl, hreceiving⟩
    exact iff_of_false (not_not.mpr hidle) (by simp [Owner.pending])
  · -- nothing has asked for the cleanup before
    intro hc
    have hidle : m.scanCleanupWork.request = .idle := hc.idle rfl
    refine ⟨?_, ?_, ?_, ?_⟩
    · exact (Work.enqueue_freed _).trans hc.freed
    · exact (Work.enqueue_running _).trans hc.running
    · refine iff_of_true ?_ (by simp [Owner.cleanupArgument])
      show m.scanCleanupWork.enqueue.request ≠ .idle
      rw [Work.enqueue, if_pos ⟨hc.freed, hidle⟩]
      simp
    · intro k' hk'
      cases hk'
      exact if_pos hidle

/-- `cleanup_scan` becomes the owner. -/
theorem Fits.startCleanup (h : m.Fits w) {work : Work ScanCleanupPc}
    (hw : m.scanCleanupWork.start (.freeTimer m.scanCleanupArgument) = some work) :
    ∃ w', { m with scanCleanupWork := work }.Fits w' ∧ Turn m event w w' := by
  obtain ⟨hrequest, -, -, rfl⟩ := Work.start_eq_some hw
  obtain rfl := h.of_cleanupPending (by rw [hrequest]; simp)
  obtain ⟨o, ho, hshape⟩ := h.own _ rfl
  refine ⟨some (.cleanup (.freeTimer m.scanCleanupArgument)), h.move rfl rfl h.context
    (fun _ _ => rfl) ⟨o, ho, hshape.freed, hshape.request, hshape.running, hshape.receiving⟩ rfl
    (fun _ _ _ he => by cases he) ?_ (fun _ _ => Iff.rfl) ⟨rfl, rfl, ?_, ?_⟩, .stays rfl⟩
  · intro j k' c hc
    refine (h.calls j k' c hc).trans (iff_of_false ?_ ?_) <;> simp
  · exact iff_of_false (by simp) (by simp [Owner.cleanupArgument])
  · intro k hk
    cases hk

/-- `cleanup_scan` frees a part of the scan state. -/
theorem Fits.destroy (h : m.Fits w) {k : Nat} {o o' : ScanState} {pc next : ScanCleanupPc}
    (hw : m.scanCleanupWork.running = some pc) (ho : m.scanStates k = some o)
    (hd : Destroys k pc next o o') :
    ∃ w', ({ m with scanCleanupWork := m.scanCleanupWork.goto (some next) }.setScanState k o').Fits
      w' ∧ Turn m event w w' := by
  obtain rfl := h.of_cleaning hw
  obtain ⟨hpc, hnext⟩ : pc.scan = k ∧ next.scan = k := by cases hd <;> exact ⟨rfl, rfl⟩
  obtain ⟨o₁, ho₁, hshape⟩ := h.own _ rfl
  rw [show (Owner.cleanup pc).scan = k from hpc, ho, Option.some.injEq] at ho₁
  subst ho₁
  have hidle : o.work.work.request = .idle := hshape.idle rfl
  refine ⟨some (.cleanup next), h.move (hnext.trans hpc.symm) rfl h.context ?_ ⟨o', ?_, ?_⟩ rfl
    (fun _ _ _ he => by cases he) ?_ (fun _ _ => Iff.rfl) ⟨h.cleanup.freed, rfl, ?_, ?_⟩,
    .stays (congrArg some (hnext.trans hpc.symm))⟩
  · intro k' hk'
    exact Function.update_of_ne (fun he => hk' (he.trans hpc.symm)) _ _
  · rw [show (Owner.cleanup pc).scan = k from hpc]
    exact Function.update_self _ _ _
  · have hfreed := hshape.freed
    have hrunning := hshape.running
    have hreceiving := hshape.receiving
    have hnot : Owner.pending (.cleanup next) ≠ true := by simp [Owner.pending]
    cases hd with
    | timer =>
      have htimer : o.work.freeTimer = { o.work with timerFreed := true } := by
        simp [DelayedWork.freeTimer, hidle]
      rw [htimer]
      exact ⟨⟨rfl, hfreed.work, hfreed.buffer, hfreed.state⟩,
        iff_of_false (not_not.mpr hidle) hnot, hrunning, hreceiving⟩
    | work hf =>
      obtain ⟨-, rfl⟩ := DelayedWork.freeWork_eq_some hf
      exact ⟨⟨hfreed.timer, rfl, hfreed.buffer, hfreed.state⟩, iff_of_false (by simp) hnot, rfl,
        hreceiving⟩
    | buffer =>
      exact ⟨⟨hfreed.timer, hfreed.work, rfl, hfreed.state⟩,
        iff_of_false (not_not.mpr hidle) hnot, hrunning, hreceiving⟩
    | state =>
      exact ⟨⟨hfreed.timer, hfreed.work, hfreed.buffer, rfl⟩,
        iff_of_false (not_not.mpr hidle) hnot, hrunning, hreceiving⟩
  · intro j k' c hc
    refine (h.calls j k' c hc).trans (iff_of_false ?_ ?_) <;> simp
  · exact h.cleanup.request
  · intro k' hk'
    cases hk'

/-- At its end nobody owns a scan. -/
theorem Fits.last (h : m.Fits w) {k : Nat} {system : System}
    (hw : m.scanCleanupWork.running = some (.last k))
    (hs : U80211.step .scanEnd m.system = some system) :
    ∃ w', { m with
      system
      scanWaiters := []
      scanCalls := wakeScanWaiters m.scanCalls m.scanWaiters
      scanCleanupWork := m.scanCleanupWork.goto none }.Fits w' ∧ Turn m .advanceCleanup w w' := by
  obtain rfl := h.of_cleaning hw
  have hwake := SameScans.wake m.scanWaiters m.scanCalls
  have hscanning : m.system.association.state = .scanning := h.state.mpr (by simp)
  refine ⟨none, ?_, .ends⟩
  constructor
  · rw [U80211.step, setDeviceState, if_pos hscanning] at hs
    cases hs
    exact iff_of_false (by simp) (by simp)
  · exact h.context
  · intro j k' c hc
    refine (hwake j c (by rw [ScanCall.scan_of_claimed hc]; simp)).trans ?_
    exact (h.calls j k' c hc).trans (iff_of_false (by simp) (by simp))
  · intro j k' c he
    cases he
  · intro x hx
    cases hx
  · intro k' o ho _
    by_cases hk : k' = k
    · subst hk
      have hshape := h.shapes (x := .cleanup (.last k')) ho
      exact ⟨hshape.idle rfl, hshape.running, hshape.receiving⟩
    · refine h.idle k' o ho fun x hx he => hk ?_
      cases hx
      exact he.symm
  · refine ⟨h.cleanup.freed, rfl, ?_, fun _ he => by cases he⟩
    exact h.cleanup.request
  · intro j k' hj
    have hscan : (ScanCall.scanClaim k').scan ≠ none := by simp [ScanCall.scan]
    obtain ⟨hlive, -, hunique⟩ := h.unclaimed j k' ((hwake j _ hscan).mp hj)
    refine ⟨hlive, ?_, fun j' hj' => hunique j' ((hwake j' _ hscan).mp hj')⟩
    intro x hx
    cases hx
  · exact h.fresh

/-- **Every step of the machine moves the owner on, or leaves it where it is.** -/
theorem Effect.fits (h : m.Fits w) (hr : U80211.Reachable own m.system) (he : Effect m event m') :
    ∃ w', m'.Fits w' ∧ Turn m event w w' := by
  cases he with
  | @association action system cache ha hs hc =>
    have hb : action ≠ .scanBegin := by rintro rfl; exact ha
    have hn : action ≠ .scanEnd := by rintro rfl; exact ha
    refine Fits.stays (h.frame ?_ rfl rfl rfl rfl rfl ?_)
    · exact (U80211.Reachable.effect hr hs).scanning_iff hr.consistent hb hn
    · refine .append fun c hc => ?_
      obtain ⟨beacon, -, rfl⟩ := List.mem_map.mp hc
      rfl
  | cache ha hs =>
    exact Fits.stays (h.frame Iff.rfl rfl rfl rfl rfl rfl fun _ _ _ => Iff.rfl)
  | @invoke entry =>
    refine Fits.stays (h.frame Iff.rfl rfl rfl rfl rfl rfl (.append fun c hc => ?_))
    rw [List.mem_singleton] at hc
    subst hc
    cases entry <;> rfl
  | quiet hc hq =>
    exact Fits.stays (h.frame Iff.rfl rfl rfl rfl rfl rfl (.set hc hq.scan.1 hq.scan.2))
  | allocate hc hb hn => exact Fits.stays (h.allocate hc)
  | claim hc hs =>
    obtain ⟨rfl, hfits⟩ := h.claim hc hs
    exact ⟨_, hfits, .begins hc⟩
  | busy hc ho hs => exact Fits.stays (h.busy hc ho)
  | @publish i k _ hc =>
    refine ⟨_, h.advanceCall hc rfl rfl (call_eq_iff rfl) ?_
      (fun _ => by simp) rfl rfl (fun _ _ => rfl) ?_ rfl rfl rfl rfl rfl⟩
    · rintro j k' d he
      cases he
      rfl
    · intro o ho hshape
      exact ⟨o, ho, hshape.freed, hshape.request, hshape.running, hshape.receiving⟩
  | @purge i k _ cache hc hp =>
    have hcontext : m.scanContext = some k := by
      rw [h.context, (h.calls i k _ rfl).mp hc]
      rfl
    refine ⟨some (.call i k (.scanListen k .setChannel)), h.advanceCall hc rfl rfl (call_eq_iff rfl)
      ?_ (fun _ => by simp) rfl hcontext (fun _ _ => rfl) ?_ rfl rfl rfl rfl rfl⟩
    · rintro j k' d he
      cases he
      rfl
    · intro o ho hshape
      exact ⟨o, ho, hshape.freed, hshape.request, hshape.running, hshape.receiving⟩
  | listenCall hc ho => exact h.listenCall hc ho
  | wait hc hs => exact Fits.stays (h.frame Iff.rfl rfl rfl rfl rfl rfl (.set hc rfl rfl))
  | @response i k _ beacon o o' hc hx ho hr =>
    obtain ⟨buffer, rfl⟩ := ScanState.processResponse_cases hr
    obtain ⟨x, rfl, rfl, -⟩ := h.of_context hx
    have hshape := h.shapes ho
    have hwritten : (m.setScanState x.scan { o with buffer }).Fits (some x) :=
      h.setScanState
        ⟨⟨hshape.freed.timer, hshape.freed.work, hshape.freed.buffer, hshape.freed.state⟩,
          hshape.request, hshape.running, hshape.receiving⟩
    exact Fits.stays (hwritten.frame Iff.rfl rfl rfl rfl rfl rfl (.set hc rfl rfl))
  | @expire k o work ho hw =>
    obtain ⟨hrequest, rfl⟩ := DelayedWork.expire_eq_some hw
    obtain rfl := h.of_pending ho (by rw [hrequest]; simp)
    have hshape := h.shapes (x := .queued k) ho
    refine Fits.stays (h.setScanState (x := .queued k) ⟨⟨hshape.freed.timer, hshape.freed.work,
      hshape.freed.buffer, hshape.freed.state⟩, ?_, hshape.running, hshape.receiving⟩)
    exact iff_of_true (by simp) rfl
  | startWork ho hw => exact h.startWork ho hw
  | stop ho hw =>
    exact ⟨_, h.gotoWork ho hw rfl (h.context_work ho hw rfl rfl) rfl rfl rfl rfl (fun _ => rfl) rfl
      rfl
      rfl⟩
  | @drain k _ o o' pc ho hw hd =>
    obtain ⟨⟨buffer, rfl⟩, hpc⟩ := ScanState.drain_cases hd
    have hpub : pc.published = true ∧ pc.receiving = false := by
      rcases hpc with ⟨beacon, rsnSize, rfl⟩ | hl
      · exact ⟨rfl, rfl⟩
      · rcases ScanState.leaveDrain_cases hl with rfl | ⟨channel, rfl⟩ <;> exact ⟨rfl, rfl⟩
    exact ⟨_, h.gotoWork ho hw rfl (h.context_work ho hw rfl hpub.1) rfl rfl rfl rfl
      (fun hr => hr.trans hpub.2.symm) rfl rfl rfl⟩
  | @pass k _ o o' beacon rsnSize pc ho hw hp =>
    have hpass : (∃ buffer, o' = { o with buffer }) ∧ pc.published = true ∧
        pc.receiving = false := by
      cases hp with
      | short hr hl =>
        refine ⟨ScanState.readRsn_cases hr, ?_⟩
        rcases ScanState.leaveDrain_cases hl with rfl | ⟨channel, rfl⟩ <;> exact ⟨rfl, rfl⟩
      | skipped hr => exact ⟨ScanState.readRsn_cases hr, rfl, rfl⟩
      | enomem hr ha => exact ⟨ScanState.readRsn_cases hr, rfl, rfl⟩
    obtain ⟨⟨buffer, rfl⟩, hpub, hreceiving⟩ := hpass
    exact ⟨_, h.gotoWork ho hw rfl (h.context_work ho hw rfl hpub) rfl rfl rfl rfl
      (fun hr => hr.trans hreceiving.symm) rfl rfl rfl⟩
  | allocateAp ho hw hr ha hn =>
    obtain ⟨buffer, rfl⟩ := ScanState.readRsn_cases hr
    exact ⟨_, h.gotoWork ho hw rfl (h.context_work ho hw rfl rfl) rfl rfl rfl rfl id rfl rfl rfl⟩
  | insert ho hw hi =>
    exact ⟨_, h.gotoWork ho hw rfl (h.context_work ho hw rfl rfl) rfl rfl rfl rfl id rfl rfl rfl⟩
  | release ho hw hr =>
    exact ⟨_, h.gotoWork ho hw rfl (h.context_work ho hw rfl rfl) rfl rfl rfl rfl id rfl rfl rfl⟩
  | setCurrent ho hw =>
    exact ⟨_, h.gotoWork ho hw rfl (h.context_work ho hw rfl rfl) rfl rfl rfl rfl id rfl rfl rfl⟩
  | listenWork ho hw => exact h.listenWork ho hw
  | complete ho hw =>
    exact ⟨_, h.gotoWork ho hw rfl rfl rfl rfl rfl rfl id rfl rfl rfl⟩
  | enqueueCleanup ho hw => exact h.enqueueCleanup ho hw
  | startCleanup hw => exact h.startCleanup hw
  | destroy hw ho hd => exact h.destroy hw ho hd
  | last hw hs => exact h.last hw hs

/-! ## Reachable states -/

/-- At the start nobody owns a scan. -/
theorem fits_registered (own : MacAddress) : (Machine.registered own).Fits none := by
  constructor
  · exact iff_of_false (by simp [registered, System.registered, Association.registered]) (by simp)
  · rfl
  · intro i k c _
    exact iff_of_false (by simp [registered]) (by simp)
  · intro i k c he
    cases he
  · intro x hx
    cases hx
  · intro k o ho
    cases ho
  · exact ⟨rfl, rfl, iff_of_false (by simp [registered, Work.allocate]) (by simp),
      fun _ he => by cases he⟩
  · intro i k hc
    cases hc
  · intro k o ho
    cases ho

/-- **In every reachable state one scan at most owns the device, and all parts of the machine agree
on where it is.** -/
theorem Reachable.owner (h : Reachable own m) : ∃ w, m.Fits w := by
  obtain ⟨τ, hτ⟩ := h
  refine hτ.history (P := fun _ m => ∃ w, m.Fits w) ⟨none, fits_registered own⟩ ?_
  rintro τ m event m' hr ⟨w, hw⟩ hs
  obtain ⟨w', hw', -⟩ := (step_effect hs).fits hw (Run.system hr).reachable
  exact ⟨w', hw'⟩

/-- The scan is under way: its call has claimed the device and goes on, or `scan_work` or
`cleanup_scan` runs or has been asked to run with its state. -/
def Outstanding (m : Machine) (k : Nat) : Prop :=
  (∃ (i : Nat) (c : ScanCall), m.scanCalls[i]? = some c ∧ c.claimed = some k) ∨
    (∃ o, m.scanStates k = some o ∧
      (o.work.work.request ≠ .idle ∨ o.work.work.running ≠ none)) ∨
    (m.scanCleanupWork.request ≠ .idle ∧ m.scanCleanupArgument = k) ∨
    ∃ pc, m.scanCleanupWork.running = some pc ∧ pc.scan = k

/-- The outstanding scan is that of the owner. -/
theorem Fits.outstanding_iff (h : m.Fits w) {k : Nat} :
    m.Outstanding k ↔ ∃ x, w = some x ∧ x.scan = k := by
  constructor
  · rintro (⟨i, c, hc, hk⟩ | ⟨o, ho, hr | hr⟩ | ⟨hr, rfl⟩ | ⟨pc, hr, rfl⟩)
    · exact ⟨_, (h.calls i k c hk).mp hc, rfl⟩
    · exact ⟨_, h.of_pending ho hr, rfl⟩
    · obtain ⟨pc, hpc⟩ := Option.ne_none_iff_exists'.mp hr
      exact ⟨_, h.of_running ho hpc, rfl⟩
    · exact ⟨_, h.of_cleanupPending hr, rfl⟩
    · exact ⟨_, h.of_cleaning hr, rfl⟩
  · rintro ⟨x, rfl, rfl⟩
    obtain ⟨o, ho, hshape⟩ := h.own x rfl
    cases x with
    | call i k c =>
      have hk := h.claimed i k c rfl
      exact Or.inl ⟨i, c, (h.calls i k c hk).mpr rfl, hk⟩
    | queued k => exact Or.inr (Or.inl ⟨o, ho, Or.inl (hshape.request.mpr rfl)⟩)
    | work k pc =>
      refine Or.inr (Or.inl ⟨o, ho, Or.inr ?_⟩)
      rw [hshape.running]
      exact Option.some_ne_none _
    | cleanupQueued k =>
      refine Or.inr (Or.inr (Or.inl ⟨h.cleanup.request.mpr (Option.some_ne_none _), ?_⟩))
      exact h.cleanup.argument k rfl
    | cleanup pc => exact Or.inr (Or.inr (Or.inr ⟨pc, h.cleanup.running, rfl⟩))

end Machine

end U80211
