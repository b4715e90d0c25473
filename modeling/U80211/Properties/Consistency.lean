import U80211.Device
import U80211.Properties.Effect

/-!
# The guarded fields in every reachable state

* `Reachable.consistent`: the fields that `association_spinlock` guards are consistent
* `Reachable.effect`: a step from a reachable state is one of the steps of `Effect`
* `associationFields_agree`: what the fields say about each other, field by field
-/

namespace U80211

variable {s s' : System} {own : MacAddress}

/-- Every step keeps the guarded fields consistent. -/
theorem Effect.consistent (h : s.association.Consistent) {action : Action}
    (he : Effect s action s') : s'.association.Consistent := by
  cases he with
  | install hc hp hs hid hg => exact h.install hp hg
  | deauthenticateFirst hc hs =>
    exact h.swap (by rw [hs]; rfl) (by rintro (hn | hn) <;> cases hn) fun _ => Or.inl hs
  | deauthenticateSecond hc hs ha => exact h.leave hs
  | process hc hr => simpa using hr.consistent h
  | timeout ho hw hr => simpa using hr.consistent h
  | cleanupSecond hw => exact h.cleanupSecond
  | scanBegin hs =>
    exact h.swap (by rw [hs]; rfl) (fun _ => Or.inl hs) (by rintro (hn | hn) <;> cases hn)
  | scanEnd hs =>
    exact h.swap (by rw [hs]; rfl) (fun _ => Or.inr hs) (by rintro (hn | hn) <;> cases hn)
  -- these steps change only fields that the invariant does not speak of
  | takeDisconnected | wait | filter | cleanupFirst =>
    exact ⟨h.context_iff, h.context_ap, h.context_generation, h.ap_connected, h.ap_idle,
      h.pending_iff, h.pending_context⟩
  | _ => exact h

/-- The guarded fields are consistent in every reachable state. -/
theorem Reachable.consistent (h : Reachable own s) : s.association.Consistent :=
  Lts.Reachable.invariant (P := fun s => s.association.Consistent) .registered
    (fun _ _ _ _ h hs => (step_effect h hs).consistent h) h

/-- A step taken in a reachable state is one of the listed ones. -/
theorem Reachable.effect {action : Action} (h : Reachable own s)
    (hs : step action s = some s') : Effect s action s' :=
  step_effect h.consistent hs

/-- **What the guarded fields say about each other whenever the lock is free.** -/
theorem associationFields_agree (h : Reachable own s) :
    ((s.association.state = .authenticating ∨ s.association.state = .associating) ↔
      ∃ context, s.association.associationContext = some context) ∧
    (∀ context, s.association.associationContext = some context →
      s.association.ap = some context.ap ∧
        s.association.associationGeneration = context.generation) ∧
    (s.association.state = .associated ∨ s.association.state = .deauthenticating →
      ∃ ap, s.association.ap = some ap) ∧
    (s.association.state = .down ∨ s.association.state = .scanning → s.association.ap = none) ∧
    (s.association.associationCleanupPending = true ↔
      ∃ context, s.association.associationCleanupContext = some context) ∧
    (s.association.associationCleanupPending = true →
      s.association.associationContext = none ∧ s.association.state ≠ .authenticating ∧
        s.association.state ≠ .associating) := by
  have hc := h.consistent
  have hprog : (s.association.state = .authenticating ∨ s.association.state = .associating) ↔
      s.association.state.inProgress = true := by
    cases s.association.state <;> simp [DeviceState.inProgress]
  refine ⟨?_, fun c hcx => ⟨hc.context_ap c hcx, hc.context_generation c hcx⟩, ?_, hc.ap_idle, ?_,
    ?_⟩
  · rw [hprog, hc.context_iff, Option.isSome_iff_exists]
  · intro hs
    exact Option.isSome_iff_exists.mp (hc.ap_connected hs)
  · rw [hc.pending_iff, Option.isSome_iff_exists]
  · intro hp
    have hn := hc.pending_context hp
    have hs : ¬ s.association.state.inProgress = true := by
      rw [hc.context_iff, hn]
      simp
    exact ⟨hn, fun hs' => hs (hprog.mp (Or.inl hs')), fun hs' => hs (hprog.mp (Or.inr hs'))⟩

/-! ## A run

The access points, frames and actions of the runs by which the files after this one show that
a state can be reached.
-/

namespace Scenario

open Memory

def mac (n : UInt8) : MacAddress := ⟨[2, 0, 0, 0, 0, n], rfl⟩

/-- The device's own address. -/
def device : MacAddress := mac 1

def accessPoint (n : UInt8) : AccessPoint where
  object := n.toNat
  macAddress := mac n
  interval := 100
  capabilities := 1
  channel := 6
  rateBitmap := .zero 16
  ssid := .zero 33
  rsn := []

/-- The header of a management frame from access point `n`. -/
def header (subtype : UInt16) (n : UInt8) : HeaderDescription where
  frameControl := subtype <<< 4
  durationId := 0
  address1 := device
  address2 := mac n
  address3 := mac n
  address4 := mac 0
  sequenceControl := 0

def authentication (n status : UInt8) : Frame :=
  ⟨header frameControlSubtypeAuthentication n, [0, 0, 2, 0, status, 0]⟩

def response (n status : UInt8) : Frame :=
  ⟨header frameControlSubtypeAssociationResponse n, [1, 0, status, 0, 1, 0]⟩

def deauthentication (n : UInt8) : Frame :=
  ⟨header frameControlSubtypeDeauthentication n, [3, 0]⟩

/-- Call `i` takes `n` steps. -/
def advance (i n : Nat) : List Action := List.replicate n (.advance i {})

/-- Call `i` is `u80211_associate` with access point `n`, from start to end. -/
def join (i : Nat) (n : UInt8) : List Action :=
  .invoke (.associate (accessPoint n) []) :: advance i 7

/-- Call `i` handles a frame that passes its checks, up to its section. -/
def receive (i : Nat) (frame : Frame) : List Action :=
  .invoke (.receiveManagement frame) :: advance i 3

/-- `auth_completion_work` of context `k` runs. -/
def complete (k : Nat) : List Action :=
  [.startCompletion k, .advanceCompletion k, .advanceCompletion k]

/-- Access point `n` accepts the attempt with context `k`, in calls `i` and `i + 1`; the cleanup
work is queued but has not run. -/
def accept (i : Nat) (n : UInt8) (k : Nat) : List Action :=
  receive i (authentication n 0) ++ complete k ++ receive (i + 1) (response n 0) ++
    advance (i + 1) 1

/-- The cleanup work runs when there is a context to clean up. -/
def cleanup : List Action := .startCleanup :: List.replicate 10 .advanceCleanup

def run (actions : List Action) : Option System := Lts.exec step actions (.registered device)

/-- The transitions of the run. -/
def trace (actions : List Action) : List Transition :=
  Lts.trace step actions (.registered device)

theorem run_trace {actions : List Action} (h : run actions = some s) :
    Run device (trace actions) s :=
  Lts.exec_run h

theorem reachable_of_run {actions : List Action} (h : run actions = some s) :
    Reachable device s := by
  exact (run_trace h).reachable

/-- An execution that gives an observation gives the state it is made in. -/
theorem exists_of_run {α : Type} {f : System → α} {x : α} {actions : List Action}
    (h : (run actions).map f = some x) : ∃ s, run actions = some s ∧ f s = x :=
  Option.map_eq_some_iff.mp h

/-- What access point 2 has accepted, and the cleanup work has cleaned up. -/
def associated : Association :=
  { Association.registered with
    state := .associated
    receivedSequenceControlValid := true
    associationGeneration := 1
    associationResult := .success
    ap := some (accessPoint 2) }

theorem exists_associated :
    ∃ s, run (join 0 2 ++ accept 1 2 0 ++ cleanup) = some s ∧ s.association = associated :=
  exists_of_run (by decide)

/-- Station `n` as the transmit and receive paths see it. -/
def station (n : UInt8) (association : Association) (keys : List KeyMetadata) : Device where
  macAddress := mac n
  packetCount := 0
  txSequenceControl := 0
  keys := keys
  association := association
  references := fun _ => 0

end Scenario

open Scenario in
theorem associationFields_agree_associated :
    ∃ s, Scenario.run (join 0 2 ++ accept 1 2 0) = some s ∧
      s.association.state = .associated ∧ (∃ ap, s.association.ap = some ap) ∧
      s.association.associationContext = none := by
  have hrun : (run (join 0 2 ++ accept 1 2 0)).map
      (fun s => (s.association.state, s.association.associationCleanupPending)) =
        some (.associated, true) := by decide
  obtain ⟨s, hs, he⟩ := exists_of_run hrun
  rw [Prod.mk.injEq] at he
  obtain ⟨-, -, hap, -, -, hpending⟩ := associationFields_agree (reachable_of_run hs)
  exact ⟨s, hs, he.1, hap (Or.inl he.1), (hpending he.2).1⟩

end U80211
