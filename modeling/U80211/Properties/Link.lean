import U80211.Link
import U80211.Properties.History
import U80211.Properties.ReceivePath

/-!
# Handling a packet is a run of the association machine

The receive path handles a packet from start to end. The association machine takes the same packet
in steps between which others may run. Taken one after the other, they do the same.

* `Handles`: what a call does when nobody else takes a step
* `processPacket_handles`: **what a packet does to the association machine is what one of its calls
  does**
* `Reachable.system`: every state is one that the association machine can be in
-/

namespace U80211

open Memory

/-! ## A call that is left alone -/

/-- The system with one more call. -/
@[simps] def System.withCall (s : System) (c : Call) : System := { s with calls := s.calls ++ [c] }

/-- The call at the position handles its frame when nobody else takes a step. -/
def Handles (s : System) (c : Call) (s' : System) : Prop :=
  ∃ actions, Lts.exec step actions (s.withCall c) = some (s'.withCall .handled)

variable {s s₁ s' : System} {c c₁ : Call}

theorem Handles.handled : Handles s .handled s := ⟨[], rfl⟩

/-- The new call takes its next step. -/
theorem Handles.advance
    (hs : stepCall (s.withCall c) s.calls.length {} c = some (s₁.withCall c₁))
    (h : Handles s₁ c₁ s') : Handles s c s' := by
  obtain ⟨actions, h⟩ := h
  have hstep : step (.advance s.calls.length {}) (s.withCall c) = some (s₁.withCall c₁) := by
    simpa [step] using hs
  refine ⟨.advance s.calls.length {} :: actions, ?_⟩
  rw [Lts.exec, hstep]
  exact h

@[simp] theorem setCall_withCall {n : Nat} (hn : s.calls.length = n) (c c' : Call) :
    (s.withCall c).setCall n c' = s.withCall c' := by
  simp [System.withCall, System.setCall, ← hn]

theorem applySection_withCall (s : System) (c : Call) (r : SectionResult) :
    (s.withCall c).applySection r = (s.applySection r).withCall c := by
  unfold System.applySection
  cases r.completion <;> rfl

/-! ## Sections -/

/-- The system as the receive path leaves it. -/
def System.settled (s : System) (device : Device) (effects : List ReceiveEffect) : System :=
  effects.foldl ReceiveEffect.perform
    { s with association := device.association, references := device.references }

variable {device : Device} {frame : Frame}

theorem hold_references (href : device.references = s.references) (ap : AccessPoint) :
    (device.hold ap).references = (s.hold (some ap)).references := by
  funext a
  by_cases ha : a = ap
  · simp [Device.hold, System.hold, href, ha]
  · simp [Device.hold, System.hold, href, ha, Ne.symm ha]

theorem applySection_fields (href : device.references = s.references) (r : SectionResult) :
    (device.applySection r).1.association = r.association ∧
      (device.applySection r).1.references = (s.hold r.held).references := by
  unfold Device.applySection
  cases r.held with
  | none => exact ⟨rfl, by simp [System.hold, href]⟩
  | some ap => exact ⟨rfl, hold_references href ap⟩

/-- What the receive path does with a section is what the association machine does with it. -/
theorem settled_applySection (href : device.references = s.references) (r : SectionResult) :
    s.settled (device.applySection r).1 (device.applySection r).2 =
      if r.cleanupNeeded then
        { s.applySection r with cleanupWork := s.cleanupWork.enqueue }
      else s.applySection r := by
  obtain ⟨hassociation, hreferences⟩ := applySection_fields href r
  rw [System.settled, hassociation, hreferences]
  unfold Device.applySection System.applySection
  cases r.completion <;> cases r.cleanupNeeded <;> rfl

/-- The last two steps of a call. -/
theorem Handles.process (frame : Frame) (href : device.references = s.references)
    {message : Message} :
    Handles s (.process frame message)
      (s.settled (device.applySection (associationProcess s.association message)).1
        (device.applySection (associationProcess s.association message)).2) := by
  rw [settled_applySection href]
  generalize hr : associationProcess s.association message = r
  cases hc : r.cleanupNeeded with
  | false =>
    refine Handles.advance ?_ .handled
    simp [stepCall, hr, hc, applySection_withCall]
  | true =>
    have henqueue : Handles (s.applySection r) .enqueueCleanup
        { s.applySection r with cleanupWork := s.cleanupWork.enqueue } := by
      refine Handles.advance ?_ .handled
      simp [stepCall, System.withCall, System.setCall]
    refine Handles.advance ?_ henqueue
    simp [stepCall, hr, hc, applySection_withCall]

/-- The filter and what comes after it. -/
theorem Handles.filter (href : device.references = s.references)
    (hassociation : device.association = s.association) {expectedState : DeviceState}
    {message : Message} :
    Handles s (.filter frame expectedState (some message))
      (s.settled (runPlan device frame.header (.filter expectedState message)).1
        (runPlan device frame.header (.filter expectedState message)).2) := by
  rw [runPlan, hassociation]
  rcases hdup : associationIsDuplicate s.association frame.header expectedState with ⟨dup, a⟩
  cases dup with
  | true =>
    refine Handles.advance ?_ .handled
    simp [stepCall, hdup, System.settled, href, System.withCall, System.setCall]
  | false =>
    have href' : ({ device with association := a } : Device).references =
        ({ s with association := a } : System).references := href
    refine Handles.advance ?_ (Handles.process frame href')
    simp [stepCall, hdup, System.withCall, System.setCall]

/-- What is done for a management frame after its checks. -/
theorem Handles.plan (href : device.references = s.references)
    (hassociation : device.association = s.association) (plan : ManagementPlan) :
    Handles s (plan.next frame)
      (s.settled (runPlan device frame.header plan).1 (runPlan device frame.header plan).2) := by
  have hsame : s.settled device [] = s := by
    simp [System.settled, href, hassociation]
  cases plan with
  | ignore =>
    rw [runPlan, hsame]
    exact .handled
  | filter expectedState message => exact Handles.filter href hassociation
  | process message =>
    rw [runPlan, hassociation]
    exact Handles.process frame href
  | scanProcessResponse beacon =>
    have hscan : s.settled device [.scanProcessResponse beacon] = s := hsame
    rw [runPlan, hscan]
    exact .handled

/-! ## Packets -/

/-- A management frame of a subtype that has no handler. -/
def ignoredFrame : Frame where
  header :=
    { frameControl := 0xf0, durationId := 0, address1 := .zero 6, address2 := .zero 6,
      address3 := .zero 6, address4 := .zero 6, sequenceControl := 0 }
  data := []

/-- A call that takes in a frame. -/
theorem Handles.receive {plan : ManagementPlan}
    (hp : processManagementPacket s.ownAddress frame.header frame.data = some plan)
    (h : Handles s (plan.next frame) s') : Handles s (.receive frame) s' := by
  refine Handles.advance ?_ h
  simp [stepCall, hp]

/-- A data frame is only filtered. -/
theorem Handles.receiveData {duplicate : Bool} {association : Association}
    (h : associationIsDuplicate s.association frame.header .associated =
      (duplicate, association)) :
    Handles s (Entry.receiveData frame).start { s with association } := by
  refine Handles.advance ?_ .handled
  simp [Entry.start, stepCall, h, System.withCall, System.setCall]

/-- **What a packet does to the association machine is what one of its calls does.** -/
theorem processPacket_handles {l : Link} {packet : List UInt8} {device' : Device}
    {effects : List ReceiveEffect} (h : Received l.device packet device' effects) :
    ∃ entry : Entry, Handles l.system entry.start (l.system.settled device' effects) := by
  have hsame : ∀ d : Device, d.association = l.system.association →
      d.references = l.system.references → ∃ entry : Entry,
        Handles l.system entry.start (l.system.settled d []) := by
    intro d hassociation href
    have hs : l.system.settled d [] = l.system := by simp [System.settled, hassociation, href]
    rw [hs]
    exact ⟨.receiveManagement ignoredFrame, Handles.receive rfl .handled⟩
  cases h with
  | malformed _ => exact hsame _ rfl rfl
  | rejected _ _ => exact hsame _ rfl rfl
  | unhandled ha _ _ => exact hsame _ ha.association ha.references
  | misaddressed ha _ _ => exact hsame _ ha.association ha.references
  | @management header rx plan ha _ hp =>
    rw [ha.macAddress] at hp
    refine ⟨.receiveManagement ⟨header, slice packet rx.2.1 rx.2.2⟩, Handles.receive hp ?_⟩
    exact Handles.plan ha.references ha.association plan
  | @duplicate header rx association ha _ _ hdup =>
    rw [ha.association] at hdup
    have hframe : Handles l.system (Entry.receiveData ⟨header, []⟩).start
        { l.system with association } := Handles.receiveData hdup
    have href : rx.1.references = l.system.references := ha.references
    exact ⟨_, by simpa [System.settled, href] using hframe⟩
  | @data header rx association frame ha _ _ hdup _ =>
    rw [ha.association] at hdup
    have hframe : Handles l.system (Entry.receiveData ⟨header, []⟩).start
        { l.system with association } := Handles.receiveData hdup
    have href : rx.1.references = l.system.references := ha.references
    cases frame <;>
      exact ⟨_, by simpa [System.settled, href, ReceiveEffect.perform] using hframe⟩

/-! ## Runs -/

theorem foldl_perform_withCall (s : System) (c : Call) (effects : List ReceiveEffect) :
    effects.foldl ReceiveEffect.perform (s.withCall c) =
      (effects.foldl ReceiveEffect.perform s).withCall c := by
  induction effects generalizing s with
  | nil => rfl
  | cons e effects ih =>
    have he : e.perform (s.withCall c) = (e.perform s).withCall c := by cases e <;> rfl
    rw [List.foldl_cons, List.foldl_cons, he, ih]

theorem Link.receive_system (l : Link) (device : Device) (effects : List ReceiveEffect) :
    (l.receive device effects).system = (l.system.settled device effects).withCall .handled :=
  foldl_perform_withCall
    { l.system with association := device.association, references := device.references } .handled
    effects

/-- **What a step does to the association machine is a run of it.** -/
theorem Link.step_system {l l' : Link} {action : Link.Action} (hs : step action l = some l') :
    ∃ actions, Lts.exec U80211.step actions l.system = some l'.system := by
  cases action with
  | packet packet =>
    obtain ⟨device', effects, hp, hreceived⟩ := processPacket_received l.device packet
    obtain ⟨entry, actions, hexec⟩ := processPacket_handles hreceived
    simp only [step, hp, Option.map_some, Option.some_inj] at hs
    refine ⟨.invoke entry :: actions, ?_⟩
    rw [← hs, Link.receive_system]
    exact hexec
  | system action =>
    obtain ⟨s', hs', rfl⟩ := Option.map_eq_some_iff.mp hs
    exact ⟨[action], by simp [Lts.exec, hs']⟩
  | other packetCount txSequenceControl keys =>
    cases hs
    exact ⟨[], rfl⟩

/-- **Every state is one that the association machine can be in.** -/
theorem Link.Reachable.system {own : MacAddress} {l : Link} (h : Link.Reachable own l) :
    U80211.Reachable own l.system := by
  refine Lts.Reachable.invariant (P := fun l => U80211.Reachable own l.system) ?_ ?_ h
  · exact ⟨[], .nil⟩
  · rintro l action l' - ⟨τ, hτ⟩ hs
    obtain ⟨actions, hexec⟩ := Link.step_system hs
    exact ⟨_, hτ.exec hexec⟩

end U80211
