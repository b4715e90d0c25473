import U80211.Properties.Cleanup

/-!
# References to access points

The reference that an attempt takes passes through several slots before it is released: the
context, `device->ap` of a connected device, `disconnected_ap` and the locals of calls and of the
cleanup work. A section that takes down a connected device stores its access point in
`disconnected_ap` without looking at what is there.

* `Effect.balance`: one step changes the count and the slots alike, unless it overwrites
  `disconnected_ap`
* `references_eq`: at the end of a run the count is the number of the slots plus the number of
  times that the run has overwritten `disconnected_ap`
* `references_conserved_iff`: the count is right all along exactly in the runs that never do
-/

namespace U80211

open WorkQueue

variable {s s' : System} {ownAddress : MacAddress}

/-! ## The slots -/

/-- `cleanup_association` has released the access point of the context that it works on. -/
def CleanupPc.released : CleanupPc → Bool
  | .first | .releaseAp _ _ | .releaseDisconnected none _ => false
  | .freeAuthTimer _ _ | .freeAssocTimer _ _ | .freeCompletionWork _ _ | .freeAuthTimeoutWork _ _
  | .freeAssocTimeoutWork _ _ | .freeContext _ _ | .releaseDisconnected (some _) _
  | .second _ => true

/-- The access point of the active context. -/
def attemptSlot (context : Option AssociationContext) : Option AccessPoint := context.map (·.ap)

/-- The access point of the context to be cleaned up, until the cleanup at `running` has
released it. -/
def cleanupSlot (running : Option CleanupPc) (context : Option AssociationContext) :
    Option AccessPoint :=
  match running with
  | none => context.map (·.ap)
  | some pc => if pc.released then none else context.map (·.ap)

/-- `device->ap` of a device that is or was associated. -/
def connectedSlot (state : DeviceState) (ap : Option AccessPoint) : Option AccessPoint :=
  if state = .associated ∨ state = .deauthenticating then ap else none

/-- The local `disconnected_ap` of a running `cleanup_association`. -/
def cleanupLocal (running : Option CleanupPc) : Option AccessPoint :=
  running.bind (·.disconnected)

/-- One when the slot owns a reference to `a`. -/
def owns (slot : Option AccessPoint) (a : AccessPoint) : Int := if slot = some a then 1 else 0

/-- How many calls hold `a` in a local that they release next. -/
def heldByCalls (calls : List Call) (a : AccessPoint) : Int :=
  (calls.map fun c => owns c.held a).sum

/-- The number of places that own a reference to `a`. -/
def System.owners (s : System) (a : AccessPoint) : Int :=
  owns (attemptSlot s.association.associationContext) a +
    owns (cleanupSlot s.cleanupWork.running s.association.associationCleanupContext) a +
    owns (connectedSlot s.association.state s.association.ap) a +
    owns s.association.disconnectedAp a + owns (cleanupLocal s.cleanupWork.running) a +
    heldByCalls s.calls a

@[simp] theorem owns_none (a : AccessPoint) : owns none a = 0 := rfl

@[simp] theorem references_hold (s : System) (ap : Option AccessPoint) (a : AccessPoint) :
    (s.hold ap).references a = s.references a + owns ap a := by
  simp only [System.hold, owns]
  split <;> omega

@[simp] theorem references_release (s : System) (ap : Option AccessPoint) (a : AccessPoint) :
    (s.release ap).references a = s.references a - owns ap a := by
  simp only [System.release, owns]
  split <;> omega

/-- A call that goes on changes only what it holds itself. -/
theorem heldByCalls_set {calls : List Call} {i : Nat} {c : Call} (h : calls[i]? = some c)
    (c' : Call) (a : AccessPoint) :
    heldByCalls (calls.set i c') a = heldByCalls calls a - owns c.held a + owns c'.held a := by
  induction calls generalizing i with
  | nil => cases h
  | cons x xs ih =>
    cases i with
    | zero =>
      cases h
      simp only [heldByCalls, List.set_cons_zero, List.map_cons, List.sum_cons]
      omega
    | succ i =>
      have hx := ih (show xs[i]? = some c from h)
      simp only [heldByCalls, List.set_cons_succ, List.map_cons, List.sum_cons] at hx ⊢
      omega

/-- A new call adds what it holds. -/
theorem heldByCalls_append (calls : List Call) (c : Call) (a : AccessPoint) :
    heldByCalls (calls ++ [c]) a = heldByCalls calls a + owns c.held a := by
  simp [heldByCalls]

/-- Waking the waiters takes nothing from a call. -/
theorem heldByCalls_wake (result : Status) (a : AccessPoint) (waiters : List Nat)
    (calls : List Call) :
    heldByCalls (System.wakeAssociationWaiters calls waiters result) a = heldByCalls calls a := by
  induction waiters generalizing calls with
  | nil => rfl
  | cons w ws ih =>
    rw [System.wakeAssociationWaiters, List.foldl_cons]
    refine (ih (System.signal result calls w)).trans ?_
    unfold System.signal
    split
    · next semaphore old hc =>
      rw [heldByCalls_set hc]
      simp [Call.held]
    · rfl

/-- No call begins with a reference. -/
theorem Entry.start_held (entry : Entry) : entry.start.held = none := by
  cases entry <;> rfl

/-! ## Overwriting a reference -/

/-- The access point that a deauthentication or disassociation frame comes from. -/
def Message.teardownAddress : Message → Option MacAddress
  | .deauthentication data => some data.address
  | .disassociation data => some data.address
  | .authentication _ | .response _ => none

/-- The access point in `disconnected_ap` that the section for a message writes over: the frame
takes down a connected device while the access point of an earlier connection is still there. -/
def overwritten (a : Association) (message : Message) : Option AccessPoint :=
  match a.ap, message.teardownAddress with
  | some ap, some address =>
    if a.state = .associated ∧ address = ap.macAddress then a.disconnectedAp else none
  | _, _ => none

/-- The access point whose reference a step writes over. -/
def System.overwrites (s : System) (action : Action) : Option AccessPoint :=
  match action with
  | .advance i _ =>
    match s.calls[i]? with
    | some (.process _ message) => overwritten s.association message
    | _ => none
  | _ => none

/-- A message disconnects from an access point when it tears down that one's address. -/
theorem disconnects_iff {ap : AccessPoint} {message : Message} :
    Disconnects ap (.message message) ↔ message.teardownAddress = some ap.macAddress := by
  constructor
  · intro h
    cases h with
    | deauthentication address => exact congrArg some address
    | disassociation address => exact congrArg some address
  · intro h
    cases message with
    | authentication data => cases h
    | response data => cases h
    | deauthentication data => exact .deauthentication (Option.some.inj h)
    | disassociation data => exact .disassociation (Option.some.inj h)

/-- A disconnect overwrites the access point that waits for the cleanup. -/
theorem overwritten_of_disconnects {a : Association} {ap : AccessPoint} {message : Message}
    (hs : a.state = .associated) (ha : a.ap = some ap) (h : Disconnects ap (.message message)) :
    overwritten a message = a.disconnectedAp := by
  unfold overwritten
  rw [ha, disconnects_iff.mp h]
  simp [hs]

/-- Other messages overwrite nothing. -/
theorem overwritten_of_not_disconnects {a : Association} {message : Message}
    (h : ∀ ap, a.ap = some ap → a.state = .associated → ¬ Disconnects ap (.message message)) :
    overwritten a message = none := by
  unfold overwritten
  split
  · next ap address ha hm =>
    refine if_neg fun hc => h ap ha hc.1 (disconnects_iff.mpr ?_)
    rw [hm, hc.2]
  · rfl

/-- Neither does a quiet step. -/
theorem Quiet.overwrites {c c' : Call} (h : Quiet c c') {i : Nat} (hc : s.calls[i]? = some c)
    (o : Outcome) : s.overwrites (.advance i o) = none := by
  simp only [System.overwrites, hc]
  cases h <;> rfl

/-! ## The balance of one step -/

@[simp] theorem cleanupSlot_none (running : Option CleanupPc) :
    cleanupSlot running none = none := by
  unfold cleanupSlot
  split
  · rfl
  · split <;> rfl

/-- Before a context is to be cleaned up the cleanup has released nothing of it. -/
theorem CleanupInvariant.cleanupSlot_eq (hi : CleanupInvariant s)
    (hcc : s.association.associationCleanupContext = none) (c : AssociationContext) :
    cleanupSlot s.cleanupWork.running (some c) = some c.ap := by
  cases hw : s.cleanupWork.running with
  | none => rfl
  | some pc =>
    have hnone : pc.context = none := by
      cases hpc : pc.context with
      | none => rfl
      | some c' =>
        rw [hi.context pc c' hw hpc] at hcc
        cases hcc
    cases pc with
    | releaseDisconnected context d =>
      cases context with
      | none => rfl
      | some c' => cases hnone
    | _ => first | rfl | cases hnone

/-- What the count of a section's references and the slots in the guarded fields make up. -/
theorem SectionStep.balance (hc : s.association.Consistent) (hi : CleanupInvariant s)
    {cause : Cause} {r : SectionResult} (hr : SectionStep s.association cause r) (a : AccessPoint)
    (lost : Option AccessPoint)
    (hlost : ∀ ap, s.association.ap = some ap → s.association.state = .associated →
      Disconnects ap cause → lost = s.association.disconnectedAp)
    (hkept : (∀ ap, s.association.ap = some ap → s.association.state = .associated →
      ¬ Disconnects ap cause) → lost = none) :
    owns r.held a - ({ s with association := r.association }.owners a) =
      owns lost a - s.owners a := by
  cases hr with
  | unchanged h =>
    rw [hkept h.disconnects]
    simp [SectionResult.unchanged]
  | authenticated hcx hs hau =>
    rw [hkept fun ap _ hst => by rw [hs] at hst; cases hst]
    simp [SectionResult.authenticated, System.owners, connectedSlot, hs]
  | @ended c result hcx he =>
    -- the context moves from the attempt to the cleanup, and a success adds the device's own
    -- reference
    have hin := hc.inProgress_of_context hcx
    have hnot :
        ¬ (s.association.state = .associated ∨ s.association.state = .deauthenticating) := by
      rintro (hn | hn) <;> rw [hn] at hin <;> cases hin
    have hcc := hc.cleanupContext_of_context hcx
    have hrel : cleanupSlot s.cleanupWork.running (some c) = some c.ap :=
      hi.cleanupSlot_eq hcc c
    rw [hkept fun ap _ hst => absurd (Or.inl hst) hnot]
    by_cases hres : result = .success
    · simp [SectionResult.ended, System.owners, attemptSlot, cleanupSlot_none, connectedSlot, hcx,
        hcc, hnot, hrel, hres]
      omega
    · simp [SectionResult.ended, System.owners, attemptSlot, cleanupSlot_none, connectedSlot, hcx,
        hcc, hnot, hrel, hres]
  | disconnected hs ha hd =>
    rw [hlost _ ha hs hd]
    simp [SectionResult.disconnected, System.owners, connectedSlot, hs, ha]
    omega

/-- **One step changes the count as it changes the slots, but for what it overwrites.** -/
theorem Effect.balance (hc : s.association.Consistent) (hi : CleanupInvariant s) {action : Action}
    (he : Effect s action s') (a : AccessPoint) :
    s'.references a - s'.owners a =
      s.references a - s.owners a + owns (s.overwrites action) a := by
  cases he with
  | @invoke entry =>
    have happ := heldByCalls_append s.calls entry.start a
    rw [entry.start_held, owns_none] at happ
    simp [System.owners, System.overwrites, happ]
  | quiet hcall hq =>
    have hov : ∀ o, s.overwrites (.advance _ o) = none := hq.overwrites hcall
    simp [System.owners, heldByCalls_set hcall, hq.held, hov]
  | takeDisconnected hcall =>
    simp [System.owners, System.overwrites, hcall, heldByCalls_set hcall, Call.held]
    omega
  | releaseTaken hcall =>
    simp [System.owners, System.overwrites, hcall, heldByCalls_set hcall, Call.held]
    omega
  | install hcall hp hs hid hg =>
    -- the reference that the section takes is that of the attempt
    have hcx := hc.context_none (by rw [hs]; rfl)
    simp [System.owners, System.overwrites, hcall, heldByCalls_set hcall, Call.held, attemptSlot,
      connectedSlot, hcx, hs]
    omega
  | arm hcall ho =>
    simp [System.owners, System.overwrites, hcall, heldByCalls_set hcall, Call.held]
  | deauthenticateFirst hcall hs =>
    simp [System.owners, System.overwrites, hcall, heldByCalls_set hcall, Call.held, connectedSlot,
      hs]
  | deauthenticateSecond hcall hs ha =>
    simp [System.owners, System.overwrites, hcall, heldByCalls_set hcall, Call.held, connectedSlot,
      hs, ha]
    omega
  | deauthenticateRelease hcall =>
    simp [System.owners, System.overwrites, hcall, heldByCalls_set hcall, Call.held]
    omega
  | answer hcall hs hp =>
    simp [System.owners, System.overwrites, hcall, heldByCalls_set hcall, Call.held]
  | wait hcall hs =>
    simp [System.owners, System.overwrites, hcall, heldByCalls_set hcall, Call.held]
  | woken hcall hn =>
    simp [System.owners, System.overwrites, hcall, heldByCalls_set hcall, Call.held]
  | @receive _ _ frame plan hcall hp =>
    have hold : (Call.receive frame).held = none := rfl
    have hnext : (plan.next frame).held = none := by cases plan <;> rfl
    simp [System.owners, System.overwrites, hcall, heldByCalls_set hcall, hold, hnext]
  | @filter _ _ frame expectedState message _ _ next hcall hn =>
    have hold : (Call.filter frame expectedState message).held = none := rfl
    have hnext : next.held = none := by
      rcases hn with rfl | ⟨m, -, rfl, -⟩ <;> rfl
    simp [System.owners, System.overwrites, hcall, heldByCalls_set hcall, hold, hnext]
  | @process _ _ frame message r hcall hr =>
    have hold : (Call.process frame message).held = none := rfl
    have hnext : (if r.cleanupNeeded then Call.enqueueCleanup else .handled).held = none := by
      split <;> rfl
    have hbal := hr.balance hc hi a _ (fun ap ha hs hd => overwritten_of_disconnects hs ha hd)
      fun hn => overwritten_of_not_disconnects hn
    simp [System.owners, System.overwrites, hcall, heldByCalls_set hcall, hold, hnext] at hbal ⊢
    omega
  | enqueueCleanup hcall =>
    simp [System.owners, System.overwrites, hcall, heldByCalls_set hcall, Call.held]
  | expire ho hw => simp [System.owners, System.overwrites]
  | startTimeout ho hw => simp [System.owners, System.overwrites]
  | timeout ho hw hr =>
    have hbal := hr.balance hc hi a none (fun ap _ _ hd => by cases hd) fun _ => rfl
    simp [System.owners, System.overwrites] at hbal ⊢
    omega
  | timeoutEnqueue ho hw => simp [System.owners, System.overwrites]
  | startCompletion ho hw => simp [System.owners, System.overwrites]
  | sendAssociationRequest ho hw => simp [System.owners, System.overwrites]
  | enqueueTimeout ho hw => simp [System.owners, System.overwrites]
  | startCleanup hw =>
    obtain ⟨-, hrun, -, rfl⟩ := Work.start_eq_some hw
    simp [System.owners, System.overwrites, hrun, cleanupLocal, cleanupSlot, CleanupPc.released,
      CleanupPc.disconnected]
  | cleanupFirst hw =>
    cases hcc : s.association.associationCleanupContext <;>
      simp [System.owners, System.overwrites, Work.goto, hw, hcc, cleanupLocal, cleanupSlot,
        CleanupPc.released, CleanupPc.disconnected]
  | cleanupRelease hw =>
    -- the cleanup releases the reference of the context that still waits for it
    have hcc := hi.context _ _ hw rfl
    simp [System.owners, System.overwrites, Work.goto, hw, hcc, cleanupLocal, cleanupSlot,
      CleanupPc.released, CleanupPc.disconnected]
    omega
  | cleanupDestroy hw ho hd =>
    cases hd <;>
      simp [System.owners, System.overwrites, Work.goto, hw, cleanupLocal, cleanupSlot,
        CleanupPc.released, CleanupPc.disconnected]
  | @cleanupReleaseDisconnected context disconnected hw =>
    cases context with
    | none =>
      simp [System.owners, System.overwrites, Work.goto, hw, cleanupLocal, cleanupSlot,
        CleanupPc.released, CleanupPc.disconnected]
      omega
    | some c =>
      simp [System.owners, System.overwrites, Work.goto, hw, cleanupLocal, cleanupSlot,
        CleanupPc.released, CleanupPc.disconnected]
      omega
  | cleanupSecond hw =>
    simp [System.owners, System.overwrites, Work.goto, hw, cleanupLocal, cleanupSlot,
      cleanupAssociationSecond, CleanupPc.released, CleanupPc.disconnected, heldByCalls_wake]
  | scanBegin hs => simp [System.owners, System.overwrites, connectedSlot, hs]
  | scanEnd hs => simp [System.owners, System.overwrites, connectedSlot, hs]
  | scanBusy ha => rcases ha with rfl | rfl <;> simp [System.overwrites]

/-! ## Runs -/

/-- How often a run has written over a reference to `a`. -/
def overwriteCount (τ : List Transition) (a : AccessPoint) : Int :=
  (τ.map fun t => owns (t.before.overwrites t.action) a).sum

/-- At the start nobody owns a reference. -/
theorem owners_registered (a : AccessPoint) :
    (System.registered ownAddress).owners a = 0 := by
  simp [System.owners, System.registered, Association.registered, Work.allocate, attemptSlot,
    connectedSlot, cleanupLocal, heldByCalls]

/-- **The count exceeds the slots by the number of references that were written over.** -/
theorem references_eq {τ : List Transition} (h : Run ownAddress τ s)
    (a : AccessPoint) : s.references a = s.owners a + overwriteCount τ a := by
  refine h.history (P := fun τ s => s.references a = s.owners a + overwriteCount τ a) ?_ ?_
  · rw [owners_registered]
    rfl
  · intro τ s action s' hr ih hs
    have hreach : Reachable ownAddress s := hr.reachable
    have hbal := (Reachable.effect hreach hs).balance (Reachable.consistent hreach)
      (Reachable.cleanup hreach) a
    simp only [overwriteCount, List.map_append, List.map_cons, List.map_nil, List.sum_append,
      List.sum_cons, List.sum_nil] at ih ⊢
    omega

/-- **The references to every access point are the slots that own one, in every state of a run,
exactly when no step of the run writes over `disconnected_ap`.** -/
theorem references_conserved_iff {τ : List Transition}
    (h : Run ownAddress τ s) :
    (∀ t ∈ τ, ∀ a, t.after.references a = t.after.owners a) ↔
      ∀ t ∈ τ, t.before.overwrites t.action = none := by
  refine h.forall_after_iff (P := fun s => ∀ a, s.references a = s.owners a)
    (Q := fun t => t.before.overwrites t.action = none) ?_ ?_
  · intro a
    rw [owners_registered]
    rfl
  · intro s action s' hr ih hs
    have hbal := (Reachable.effect hr hs).balance (Reachable.consistent hr) (Reachable.cleanup hr)
    constructor
    · intro hafter
      cases ho : s.overwrites action with
      | none => rfl
      | some a =>
        have h1 := hbal a
        rw [hafter a, ih a, ho, owns, if_pos rfl] at h1
        omega
    · intro ho a
      have h1 := hbal a
      rw [ho, owns_none, ih a] at h1
      omega

open Scenario in
theorem references_conserved_iff_disconnect :
    ∃ t ∈ Scenario.trace (join 0 2 ++ accept 1 2 0 ++ cleanup ++ receive 3 (deauthentication 2)),
      t.after.association.disconnectedAp = some (accessPoint 2) ∧
      ∀ a, t.after.references a = t.after.owners a := by
  have hrun : (run (join 0 2 ++ accept 1 2 0 ++ cleanup ++ receive 3 (deauthentication 2))).map
      (fun s => s.association.disconnectedAp) = some (some (accessPoint 2)) := by decide
  obtain ⟨s, hs, -⟩ := exists_of_run hrun
  have hdisconnected :
      ∃ t ∈ trace (join 0 2 ++ accept 1 2 0 ++ cleanup ++ receive 3 (deauthentication 2)),
        t.after.association.disconnectedAp = some (accessPoint 2) := by decide
  obtain ⟨t, ht, hap⟩ := hdisconnected
  exact ⟨t, ht, hap, (references_conserved_iff (run_trace hs)).mpr (by decide) t ht⟩

/-- The frames of the access points and the cleanup work come in such an order that the second
access point disconnects while the first one is still in `disconnected_ap`. -/
def Scenario.twoDisconnects : List Action :=
  join 0 2 ++ accept 1 2 0 ++ cleanup ++
    -- the second call finds no disconnected access point to release
    .invoke (.associate (accessPoint 3) []) :: advance 3 3 ++
    receive 4 (deauthentication 2) ++ advance 3 4 ++ accept 5 3 1 ++
    receive 7 (deauthentication 3) ++ cleanup

open Scenario in
/-- **A reference is lost**: nothing owns the first access point's, and it is still counted. -/
theorem reference_lost :
    ∃ s, Scenario.run twoDisconnects = some s ∧ Reachable device s ∧
      s.references (accessPoint 2) = 1 ∧ s.owners (accessPoint 2) = 0 := by
  have hrun : (run twoDisconnects).map
      (fun s => (s.references (accessPoint 2), s.owners (accessPoint 2))) = some (1, 0) := by
    decide
  obtain ⟨s, hs, he⟩ := exists_of_run hrun
  rw [Prod.mk.injEq] at he
  exact ⟨s, hs, reachable_of_run hs, he⟩

end U80211
