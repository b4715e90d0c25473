import U80211.Resources
import U80211.Properties.Sections

/-!
# What a device allocates is freed once

Each object of the kernel that a device uses belongs to the shared state or to one call in
progress. The allocations of a call that is refused something in between are undone; the objects of
an association or a scan go from the call that has begun it over the shared state to the cleanup.

* `owns_allocateAssociationContext` and its siblings: allocations give all objects or none
* `SectionStep.keeps_owned`: received frames and timeouts hand a context to the cleanup, at most
* `owns_program`: **each call frees what it has, or hands it over**
* `calls_free_what_they_allocate`: in every run of calls the kernel has what the device owns
* `unregister_frees_what_it_finds`: all that `u80211_unregister_device` leaves are access points
  that it does not look at
-/

namespace U80211

namespace Resources

open Ownership

/-! ## What belongs to whom -/

/-- The right to clean up after an association, and the right to clean up after a scan. -/
inductive Token where
  | cleanup
  | scan
deriving DecidableEq

abbrev Owned := Multiset (Resource KernelObject Token)

def ownedIfAny : Option Nat → Owned
  | none => 0
  | some a => object a .memory

def DeviceHandles.owned (o : DeviceHandles) : Owned :=
  object o.keySpinlock .spinlock + (object o.scanCleanupWork .work +
    (object o.associationCleanupWork .work + (object o.rwlock .rwlock +
    (object o.associationSpinlock .spinlock + (object o.scanSpinlock .spinlock +
    object o.device .memory)))))

def ContextHandles.owned (o : ContextHandles) : Owned :=
  object o.authTimeoutTimer .timer + (object o.assocTimeoutTimer .timer +
    (object o.completionWork .work + (object o.authTimeoutWork .work +
    (object o.assocTimeoutWork .work +
    (ownedIfAny o.informationElements + object o.context .memory)))))

def ScanHandles.owned (o : ScanHandles) : Owned :=
  object o.timer .timer + (object o.work .work + (object o.data .memory + object o.state .memory))

def ApHandles.owned (o : ApHandles) : Owned := ownedIfAny o.rsn + object o.ap .memory

def keyOwned (metadata : KeyMetadata) : Owned := object metadata.object .memory

/-- The other half of a semaphore has the call that waits for it. -/
def semaphores (waiters : List Nat) : Owned :=
  (waiters : Multiset Nat).map (half · .semaphore true)

@[simp] theorem semaphores_nil : semaphores [] = 0 := rfl

@[simp] theorem semaphores_append (xs ys : List Nat) :
    semaphores (xs ++ ys) = semaphores xs + semaphores ys := by
  unfold semaphores
  rw [← Multiset.coe_add, Multiset.map_add]

@[simp] theorem semaphores_singleton (i : Nat) : semaphores [i] = {half i .semaphore true} := rfl

/-- The semaphore of one waiter among those of all. -/
theorem semaphores_erase {i : Nat} {xs : List Nat} (h : i ∈ xs) :
    semaphores xs = {half i .semaphore true} + semaphores (xs.erase i) := by
  unfold semaphores
  rw [← Multiset.coe_erase, Multiset.singleton_add,
    ← Multiset.map_cons (half · KernelObject.semaphore true),
    Multiset.cons_erase (Multiset.mem_coe.mpr h)]

def contextOwned (contexts : Nat → ContextHandles) : Option AssociationContext → Owned
  | none => 0
  | some context => (contexts context.id).owned

namespace Shared

/-- The context of the attempt in progress, and the one that waits for its cleanup. -/
def associationOwned (s : Shared) : Owned :=
  contextOwned s.contexts s.association.associationContext +
    if s.cleaning then 0
    else contextOwned s.contexts s.association.associationCleanupContext + {.inr .cleanup}

/-- The scan state until the cleanup takes it. -/
def scanOwned (s : Shared) : Owned :=
  match s.scan with
  | some handles => handles.owned + {.inr .scan}
  | none => if s.association.state = .scanning then 0 else {.inr .scan}

/-- What the device and its fields own. -/
def owned (device : DeviceHandles) (s : Shared) : Owned :=
  device.owned + (s.keys.map keyOwned).sum + (s.aps.map ApHandles.owned).sum +
    s.associationOwned + s.scanOwned +
    (semaphores s.association.associationWaiters + semaphores s.scanWaiters +
      semaphores s.signalled)

/-- What holds of the shared state whenever no lock is held. -/
structure Consistent (s : Shared) : Prop where
  association : s.association.Consistent
  cleaning : s.cleaning = true → s.association.associationCleanupPending = true
  scan : s.scan.isSome = true → s.association.state = .scanning

end Shared

def sharing (device : DeviceHandles) : Sharing Shared KernelObject Token where
  owned := Shared.owned device
  invariant := Shared.Consistent

/-- What a call has that may fail. -/
def ifOk {δ : Type} (owned : δ → Owned) : Except Status δ → Owned
  | .error _ => 0
  | .ok o => owned o

@[simp] theorem ifOk_error {δ : Type} {owned : δ → Owned} {status : Status} :
    ifOk owned (.error status) = 0 := rfl

@[simp] theorem ifOk_ok {δ : Type} {owned : δ → Owned} {o : δ} : ifOk owned (.ok o) = owned o := rfl

/-! ## Allocations give all objects or none -/

section

variable {S : Sharing Shared KernelObject Token}

/-- A buffer that may be `NULL` is freed when there is one. -/
theorem owns_freeIfAny (a : Option Nat) : Owns S (ownedIfAny a) (freeIfAny a) fun _ => 0 := by
  cases a with
  | none => exact rfl
  | some a => exact ⟨0, rfl, rfl⟩

/-- `destroy_key_metadata` frees all of an entry. -/
theorem owns_destroyKeyMetadata (metadata : KeyMetadata) :
    Owns S (keyOwned metadata) (destroyKeyMetadata metadata) fun _ => 0 := by
  unfold destroyKeyMetadata keyOwned
  simp

/-- `u80211_key_state_deinit` frees all entries and the lock. -/
theorem owns_keyStateDeinit (keys : List KeyMetadata) (keySpinlock : Nat) :
    Owns S ((keys.map keyOwned).sum + object keySpinlock .spinlock)
      (keyStateDeinit keys keySpinlock) fun _ => 0 := by
  unfold keyStateDeinit
  refine (Owns.forM owns_destroyKeyMetadata keys).frame.bind fun _ => ?_
  simp

/-- `u80211_ap_allocate` owns nothing when it fails. -/
theorem owns_apAllocate (size : Nat) :
    Owns S 0 (apAllocate size) fun o => o.elim 0 ApHandles.owned := by
  unfold apAllocate
  by_cases h : size = 0 <;> simp [h, ApHandles.owned, ownedIfAny]

/-- `u80211_ap_inactive` frees all of an access point. -/
theorem owns_apInactive (o : ApHandles) : Owns S o.owned (apInactive o) fun _ => 0 := by
  unfold apInactive ApHandles.owned
  refine (owns_freeIfAny _).frame.bind fun _ => ?_
  simp

/-- `destroy_association_context` frees all of a context. -/
theorem owns_destroyAssociationContext (o : ContextHandles) :
    Owns S o.owned (destroyAssociationContext o) fun _ => 0 := by
  unfold destroyAssociationContext ContextHandles.owned
  simp only [Owns.free_bind_iff, add_right_inj, exists_eq_left']
  refine (owns_freeIfAny _).frame.bind fun _ => ?_
  simp

/-- The allocations of `u80211_associate` give a whole context, or nothing is left of them. -/
theorem owns_allocateAssociationContext (size : Nat) :
    Owns S 0 (allocateAssociationContext size) (ifOk ContextHandles.owned) := by
  unfold allocateAssociationContext
  simp only [ne_eq, bind_pure_comp, ite_not, Owns.allocate_bind_iff, Owns.pure_iff, ifOk_error,
    add_zero, Owns.map_free_iff, ↓existsAndEq, and_self, Owns.free_bind_iff, add_right_inj,
    and_true, exists_eq_right, true_and]
  intro context completionWork authTimeoutWork authTimeoutTimer assocTimeoutWork assocTimeoutTimer
  have hpermute (informationElements : Option Nat) :
      ownedIfAny informationElements + (object assocTimeoutTimer .timer +
        (object assocTimeoutWork .work + (object authTimeoutTimer .timer +
        (object authTimeoutWork .work + (object completionWork .work + object context .memory))))) =
      ContextHandles.owned ⟨context, completionWork, authTimeoutWork, authTimeoutTimer,
        assocTimeoutWork, assocTimeoutTimer, informationElements⟩ := by
    unfold ContextHandles.owned
    abel
  by_cases h : size = 0
  · rw [if_pos h, Owns.pure_iff, ifOk_ok, ← hpermute none]
    exact (zero_add _).symm
  · rw [if_neg h, Owns.allocate_bind_iff]
    constructor
    · have hnone := hpermute none
      rw [ownedIfAny, zero_add] at hnone
      rw [hnone]
      exact (owns_destroyAssociationContext _).map fun _ => rfl
    · intro informationElements
      exact hpermute (some informationElements)

/-- `destroy_scan_state` frees all of a scan state. -/
theorem owns_destroyScanState (o : ScanHandles) :
    Owns S o.owned (destroyScanState o) fun _ => 0 := by
  unfold destroyScanState ScanHandles.owned ringbufferDestroy
  simp

/-- The allocations of `u80211_scan` give a whole scan state, or nothing is left of them. -/
theorem owns_allocateScanState : Owns S 0 allocateScanState (ifOk ScanHandles.owned) := by
  have hsize : bufferSize ≠ 0 := by decide
  unfold allocateScanState ringbufferInit
  simp [hsize, ringbufferDestroy, ScanHandles.owned]

/-- A device is registered as a whole, or nothing is left of it. -/
theorem owns_registerDevice : Owns S 0 registerDevice (ifOk DeviceHandles.owned) := by
  unfold registerDevice keyStateInit keyStateDeinit bssCacheInit
  simp only [bind_pure_comp, List.forM_eq_forM, List.forM_nil, pure_bind, bind_assoc,
    Owns.allocate_bind_iff, Owns.pure_iff, ifOk_error, add_zero, Owns.map_free_iff, ↓existsAndEq,
    and_self, Owns.free_bind_iff, add_right_inj, and_true, exists_eq_right, ifOk_ok, true_and]
  intro device keySpinlock scanSpinlock scanCleanupWork associationSpinlock associationCleanupWork
    rwlock
  unfold DeviceHandles.owned
  abel

theorem local_registerDevice : registerDevice.Local := by
  unfold registerDevice keyStateInit keyStateDeinit bssCacheInit
  simp [Option.forall]

theorem local_destroyKeyMetadata (metadata : KeyMetadata) : (destroyKeyMetadata metadata).Local :=
  trivial

theorem local_freeIfAny (a : Option Nat) : (freeIfAny a).Local := by
  cases a <;> trivial

theorem local_apInactive (o : ApHandles) : (apInactive o).Local :=
  (local_freeIfAny o.rsn).bind fun _ => trivial

theorem local_unregisterDevice (o : DeviceHandles) (keys : List KeyMetadata)
    (disconnected : Option ApHandles) (last : List ApHandles) :
    (unregisterDevice o keys disconnected last).Local := by
  unfold unregisterDevice keyStateDeinit bssCacheDeinit
  simp only [bind_assoc]
  refine (Program.local_forM local_destroyKeyMetadata keys).bind fun _ => ?_
  simp only [Program.local_free_bind]
  refine (Program.local_forM local_apInactive _).bind fun _ => ?_
  refine (Program.local_forM local_apInactive _).bind fun _ => ?_
  simp

/-- A device is unregistered with its keys and with the access points that only it refers to. -/
theorem owns_unregisterDevice (o : DeviceHandles) (keys : List KeyMetadata)
    (disconnected : Option ApHandles) (last : List ApHandles) :
    Owns S (o.owned + (keys.map keyOwned).sum +
        ((disconnected.toList ++ last).map ApHandles.owned).sum)
      (unregisterDevice o keys disconnected last) fun _ => 0 := by
  unfold unregisterDevice bssCacheDeinit
  have hpermute : o.owned + (keys.map keyOwned).sum +
      ((disconnected.toList ++ last).map ApHandles.owned).sum =
      (keys.map keyOwned).sum + object o.keySpinlock .spinlock +
        (object o.scanCleanupWork .work + (object o.associationCleanupWork .work +
          ((disconnected.toList.map ApHandles.owned).sum + ((last.map ApHandles.owned).sum +
            (object o.rwlock .rwlock + (object o.associationSpinlock .spinlock +
              (object o.scanSpinlock .spinlock + object o.device .memory))))))) := by
    rw [List.map_append, List.sum_append, DeviceHandles.owned]
    abel
  rw [hpermute]
  refine (owns_keyStateDeinit keys _).frame.bind fun _ => ?_
  simp only [zero_add, Owns.free_bind_iff, add_right_inj, exists_eq_left']
  refine (Owns.forM owns_apInactive _).frame.bind fun _ => ?_
  simp only [zero_add, bind_assoc]
  refine (Owns.forM owns_apInactive _).frame.bind fun _ => ?_
  simp

end

/-! ## Sections -/

variable {device : DeviceHandles} {s : Shared}

namespace Shared

/-- Outside of a scan the device owns no scan state. -/
theorem scanOwned_of_ne (h : s.Consistent) (hs : s.association.state ≠ .scanning) :
    s.scanOwned = {.inr .scan} := by
  have hnone : s.scan = none := by
    cases hscan : s.scan with
    | none => rfl
    | some o => exact absurd (h.scan (by rw [hscan, Option.isSome_some])) hs
  unfold scanOwned
  rw [hnone]
  exact if_neg hs

/-- While an attempt is in progress no cleanup is. -/
theorem Consistent.cleaning_of_context (h : s.Consistent) {c : AssociationContext}
    (hc : s.association.associationContext = some c) : s.cleaning = false := by
  cases hcl : s.cleaning with
  | false => rfl
  | true =>
    have hp := h.cleaning hcl
    rw [h.association.pending_of_context hc] at hp
    cases hp

/-- A step of the association keeps what the device owns when it keeps contexts and waiters, and
has nothing to do with a scan. -/
theorem Consistent.keeps (h : s.Consistent) {a : Association} (ha : a.Consistent)
    (hcontext : a.associationContext = s.association.associationContext)
    (hcleanup : a.associationCleanupContext = s.association.associationCleanupContext)
    (hpending : a.associationCleanupPending = s.association.associationCleanupPending)
    (hwaiters : a.associationWaiters = s.association.associationWaiters)
    (hne : s.association.state ≠ .scanning) (hne' : a.state ≠ .scanning) :
    Consistent { s with association := a } ∧
      owned device { s with association := a } = s.owned device := by
  have hconsistent : Consistent { s with association := a } :=
    ⟨ha, fun hcl => hpending.trans (h.cleaning hcl), fun hscan => absurd (h.scan hscan) hne⟩
  refine ⟨hconsistent, ?_⟩
  unfold owned associationOwned
  rw [scanOwned_of_ne h hne, scanOwned_of_ne hconsistent hne']
  dsimp only
  rw [hcontext, hcleanup, hwaiters]

/-- The end of an attempt hands its context to the cleanup. -/
theorem Consistent.endAttempt (h : s.Consistent) {c : AssociationContext}
    (hc : s.association.associationContext = some c) (result : Status) :
    Consistent { s with association := s.association.endAttempt c result } ∧
      owned device { s with association := s.association.endAttempt c result } =
        s.owned device := by
  have hne : s.association.state ≠ .scanning := by
    intro hs
    have hp := h.association.inProgress_of_context hc
    rw [hs] at hp
    cases hp
  have hne' : (s.association.endAttempt c result).state ≠ .scanning := by
    by_cases hr : result = .success <;> simp [hr]
  have hconsistent : Consistent { s with association := s.association.endAttempt c result } :=
    ⟨.endAttempt c result, fun _ => rfl, fun hscan => absurd (h.scan hscan) hne⟩
  refine ⟨hconsistent, ?_⟩
  unfold owned associationOwned
  rw [scanOwned_of_ne h hne, scanOwned_of_ne hconsistent hne', hc,
    h.association.cleanupContext_of_context hc, h.cleaning_of_context hc]
  simp [contextOwned]

end Shared

/-- **Frames and timeouts leave the context of an attempt to the cleanup, at most.** -/
theorem SectionStep.keeps_owned {cause : Cause} {r : SectionResult} (h : s.Consistent)
    (hr : SectionStep s.association cause r) :
    Shared.Consistent { s with association := r.association } ∧
      Shared.owned device { s with association := r.association } = s.owned device := by
  have ha := SectionStep.consistent h.association hr
  cases hr with
  | unchanged _ => exact ⟨h, rfl⟩
  | authenticated _ hs _ =>
    refine h.keeps ha rfl rfl rfl rfl (by rw [hs]; decide) ?_
    simp [SectionResult.authenticated]
  | ended hc _ => exact h.endAttempt hc _
  | disconnected hs _ _ =>
    refine h.keeps ha rfl rfl rfl rfl (by rw [hs]; decide) ?_
    simp [SectionResult.disconnected]

/-! ## Calls -/

/-- The first member of a list that is removed has what the list had before. -/
theorem sum_map_eraseP {δ μ : Type} [AddCommMonoid μ] (R : δ → μ) (p : δ → Bool) (xs : List δ) :
    (xs.map R).sum = (xs.find? p).elim 0 R + ((xs.eraseP p).map R).sum := by
  induction xs with
  | nil => simp
  | cons x xs ih =>
    cases hp : p x with
    | true => simp [List.find?_cons_of_pos, List.eraseP_cons_of_pos, hp]
    | false =>
      rw [List.find?_cons_of_neg (by simp [hp]), List.eraseP_cons_of_neg (by simp [hp]),
        List.map_cons, List.map_cons, List.sum_cons, List.sum_cons, ih, add_left_comm]

namespace Shared

/-- The keys have nothing to do with the attempt and the scan. -/
theorem Consistent.keys (h : s.Consistent) (keys : List KeyMetadata) :
    Consistent { s with keys } := ⟨h.association, h.cleaning, h.scan⟩

/-- What changes with the keys is what the entries own. -/
theorem owned_keys (keys : List KeyMetadata) {A A' : Owned}
    (h : A' + (keys.map keyOwned).sum = A + (s.keys.map keyOwned).sum) :
    A' + owned device { s with keys } = A + s.owned device := by
  have hsplit (keys : List KeyMetadata) : owned device { s with keys } =
      (keys.map keyOwned).sum + (device.owned + (s.aps.map ApHandles.owned).sum +
        s.associationOwned + s.scanOwned + (semaphores s.association.associationWaiters +
          semaphores s.scanWaiters + semaphores s.signalled)) := by
    rw [owned, show associationOwned { s with keys } = s.associationOwned from rfl,
      show scanOwned { s with keys } = s.scanOwned from rfl]
    abel
  rw [hsplit keys, show s.owned device = owned device { s with keys := s.keys } from rfl,
    hsplit s.keys, ← add_assoc, h, add_assoc]

end Shared

/-- `u80211_set_key` frees what it has allocated, or gives it to the device. -/
theorem owns_setKey (hasSetKey : Bool) (key : Key) (status : Status) :
    Owns (sharing device) 0 (setKey hasSetKey key status) fun _ => 0 := by
  unfold setKey
  split
  · exact rfl
  · split
    · exact rfl
    · rw [Owns.allocate_bind_iff]
      refine ⟨rfl, fun object => ?_⟩
      dsimp only
      split
      · exact (owns_destroyKeyMetadata (key.metadata object)).map fun _ => rfl
      · rw [Owns.update_bind_iff]
        intro s s' hi _ hs
        cases hs
        refine ⟨Shared.Consistent.keys hi _, (s.keys.find? (keyIdentityEqual key.index key.peer
          key.flags)).elim 0 keyOwned, Shared.owned_keys _ ?_, ?_⟩
        · rw [sum_map_eraseP keyOwned (keyIdentityEqual key.index key.peer key.flags) s.keys,
            setKeyList, List.map_cons, List.sum_cons, add_left_comm]
          rfl
        · cases s.keys.find? (keyIdentityEqual key.index key.peer key.flags) with
          | none => exact rfl
          | some metadata => exact (owns_destroyKeyMetadata metadata).map fun _ => rfl

/-- `u80211_del_key` frees the entries that it takes out. -/
theorem owns_delKey (hasDelKey : Bool) (index : UInt8) (peer : MacAddress) (flags : UInt32)
    (status : Status) :
    Owns (sharing device) 0 (delKey hasDelKey index peer flags status) fun _ => 0 := by
  unfold delKey
  split
  · exact rfl
  · split
    · exact rfl
    · rw [Owns.update_bind_iff]
      intro s s' hi _ hs
      cases hs
      refine ⟨Shared.Consistent.keys hi _, (s.keys.find? (keyIdentityEqual index peer flags)).elim
        0 keyOwned, Shared.owned_keys _ ?_, ?_⟩
      · rw [sum_map_eraseP keyOwned (keyIdentityEqual index peer flags) s.keys, zero_add]
        rfl
      · cases s.keys.find? (keyIdentityEqual index peer flags) with
        | none => exact rfl
        | some metadata => exact (owns_destroyKeyMetadata metadata).map fun _ => rfl

/-- The sections of the messages move what is owned, and free nothing. -/
theorem owns_process (message : Message) :
    Owns (sharing device) 0 (process message) fun _ => 0 := by
  unfold process
  refine Owns.update_bind (fun s s' hi hs => ?_) fun _ => rfl
  cases hs
  exact SectionStep.keeps_owned hi (associationProcess_step hi.association message)

/-- A timeout moves the context to the cleanup. -/
theorem owns_timeout (context : AssociationContext) (kind : TimeoutKind) :
    Owns (sharing device) 0 (timeout context kind) fun _ => 0 := by
  unfold timeout
  refine Owns.update_bind (fun s s' hi hs => ?_) fun _ => rfl
  cases hs
  exact SectionStep.keeps_owned hi (associationTimeout_step hi.association context kind)

namespace Shared

/-- Nobody has the access point any more that the device has left. -/
theorem Consistent.disconnectedAp (h : s.Consistent) :
    Consistent { s with association := { s.association with disconnectedAp := none } } where
  association :=
    { context_iff := h.association.context_iff
      context_ap := h.association.context_ap
      context_generation := h.association.context_generation
      ap_connected := h.association.ap_connected
      ap_idle := h.association.ap_idle
      pending_iff := h.association.pending_iff
      pending_context := h.association.pending_context }
  cleaning := h.cleaning
  scan := h.scan

/-- An attempt begins: the context goes to the device. -/
theorem Consistent.associate (device : DeviceHandles) (h : s.Consistent) {ap : AccessPoint}
    {ies : List UInt8} {handles : ContextHandles} {c : AssociationContext} {a : Association}
    (ha : U80211.associate s.association ap handles.context ies = some (c, a)) :
    Consistent (s.associate ap ies handles) ∧
      owned device (s.associate ap ies handles) = handles.owned + s.owned device := by
  obtain ⟨hp, hdown, hid, -, hg, rfl⟩ := associate_eq_some ha
  have he : s.associate ap ies handles = { s with
      association := s.association.install c
      contexts := Function.update s.contexts c.id handles } := by
    unfold Shared.associate
    rw [ha]
  have hcl : s.cleaning = false := by
    cases hcl : s.cleaning with
    | false => rfl
    | true => rw [h.cleaning hcl] at hp; cases hp
  have hcontext : s.association.associationContext = none :=
    h.association.context_none (by rw [hdown]; rfl)
  have hcleanup : s.association.associationCleanupContext = none := by
    cases hcc : s.association.associationCleanupContext with
    | none => rfl
    | some c' =>
      rw [h.association.pending_iff.mpr (by rw [hcc, Option.isSome_some])] at hp
      cases hp
  have hne : s.association.state ≠ .scanning := by rw [hdown]; decide
  have hconsistent : Consistent (s.associate ap ies handles) := by
    rw [he]
    exact ⟨h.association.install hp hg, fun hc => absurd hc (by simp [hcl]),
      fun hscan => absurd (h.scan hscan) hne⟩
  refine ⟨hconsistent, ?_⟩
  have hscan' := scanOwned_of_ne hconsistent (by rw [he]; simp)
  rw [he] at hscan' ⊢
  unfold owned
  rw [hscan', scanOwned_of_ne h hne]
  unfold associationOwned
  simp only [hcl, hcontext, hcleanup, Association.install_associationContext,
    Association.install_associationCleanupContext, contextOwned, Function.update_self,
    Association.install_associationWaiters, Bool.false_eq_true, if_false]
  abel

end Shared

/-- `u80211_associate` frees a context that it does not install. -/
theorem owns_associate (ap : AccessPoint) (informationElements : List UInt8) :
    Owns (sharing device) 0 (Resources.associate ap informationElements) fun _ => 0 := by
  unfold Resources.associate
  split
  · exact rfl
  · refine Owns.update_bind (fun s s' hi hs => ?_) fun _ => ?_
    · cases hs
      exact ⟨Shared.Consistent.disconnectedAp hi, rfl⟩
    · refine (owns_allocateAssociationContext _).bind fun r => ?_
      cases r with
      | error status => exact rfl
      | ok handles =>
        dsimp only
        rw [Owns.update_bind_iff]
        intro s s' hi _ hs
        cases hs
        cases ha : U80211.associate s.association ap handles.context informationElements with
        | none =>
          have he : s.associate ap informationElements handles = s := by
            unfold Shared.associate
            rw [ha]
          rw [he]
          exact ⟨hi, _, rfl, (owns_destroyAssociationContext handles).map fun _ => rfl⟩
        | some installed =>
          obtain ⟨c, a⟩ := installed
          obtain ⟨hconsistent, howned⟩ := Shared.Consistent.associate device hi ha
          exact ⟨hconsistent, 0, (zero_add _).trans howned, rfl⟩

/-- `u80211_deauthenticate` allocates nothing. -/
theorem owns_deauthenticate (status : Status) :
    Owns (sharing device) 0 (deauthenticate status) fun _ => 0 := by
  unfold deauthenticate
  refine Owns.update_bind (fun s s' hi hs => ?_) fun s => ?_
  · cases hs
    cases hd : deauthenticateFirst s.association with
    | none => exact ⟨hi, rfl⟩
    | some x =>
      obtain ⟨address, a⟩ := x
      obtain ⟨hs, rfl⟩ := deauthenticateFirst_eq_some hd
      refine Shared.Consistent.keeps hi ?_ rfl rfl rfl rfl (by rw [hs]; decide) (by simp)
      exact hi.association.swap (by rw [hs]; rfl) (by simp) (by simp [hs])
  · cases deauthenticateFirst s.association with
    | none => exact rfl
    | some x =>
      refine Owns.update_bind (fun s s' hi hs => ?_) fun _ => rfl
      cases hs
      obtain ⟨ap, -, hs, he⟩ | ⟨-, he⟩ := deauthenticateSecond_cases s.association
      · rw [he]
        exact Shared.Consistent.keeps hi (hi.association.leave hs) rfl rfl rfl rfl
          (by rw [hs]; decide) (by simp)
      · rw [he]
        exact ⟨hi, rfl⟩

namespace Shared

/-- The cleanup takes the context, and the right to clean up. -/
theorem Consistent.cleanupFirst (device : DeviceHandles) {s' : Shared} (h : s.Consistent)
    (hs : s.cleanupFirst = some s') :
    s'.Consistent ∧
      s.association.associationCleanupContext.elim 0
        (fun c => (s.contexts c.id).owned + {.inr .cleanup}) + owned device s' =
          s.owned device := by
  unfold Shared.cleanupFirst at hs
  split at hs
  · cases hs
  · next hcl =>
    cases hs
    refine ⟨⟨h.disconnectedAp.association, h.association.pending_iff.mpr, h.scan⟩, ?_⟩
    unfold owned associationOwned
    cases hc : s.association.associationCleanupContext with
    | none =>
      rw [Option.elim_none, zero_add]
      simp [hcl, hc, cleanupAssociationFirst, scanOwned]
    | some c =>
      simp only [hcl, hc, cleanupAssociationFirst, scanOwned, contextOwned, Option.elim_some,
        Option.isSome_some, if_true, Bool.false_eq_true, if_false]
      abel

/-- The cleanup gives the right to clean up back, and wakes who waits for it. -/
theorem Consistent.cleanupSecond (device : DeviceHandles) (h : s.Consistent)
    (hcl : s.cleaning = true) :
    s.cleanupSecond.Consistent ∧
      owned device s.cleanupSecond = {.inr .cleanup} + s.owned device := by
  have hcontext := h.association.pending_context (h.cleaning hcl)
  refine ⟨⟨h.association.cleanupSecond, fun hc => absurd hc (by simp [Shared.cleanupSecond]),
    h.scan⟩, ?_⟩
  unfold owned associationOwned Shared.cleanupSecond
  simp only [cleanupAssociationSecond, hcl, hcontext, contextOwned, scanOwned, semaphores_nil,
    semaphores_append, Bool.false_eq_true, if_true, if_false]
  abel

end Shared

/-- Who has a token is the only one. -/
theorem not_mem_of_nodup {A : Owned} {token : Token} (h : ({.inr token} + A : Owned).Nodup) :
    .inr token ∉ A := by
  rw [Multiset.singleton_add] at h
  exact (Multiset.nodup_cons.mp h).1

/-- `cleanup_association` frees the context that waits for it. -/
theorem owns_cleanupAssociation :
    Owns (sharing device) 0 Resources.cleanupAssociation fun _ => 0 := by
  unfold Resources.cleanupAssociation
  rw [Owns.update_bind_iff]
  intro s s' hi _ hs
  obtain ⟨hconsistent, howned⟩ := Shared.Consistent.cleanupFirst device hi hs
  refine ⟨hconsistent, _, howned.trans (zero_add _).symm, ?_⟩
  cases s.association.associationCleanupContext with
  | none => exact rfl
  | some c =>
    refine (owns_destroyAssociationContext _).frame.bind fun _ => ?_
    rw [zero_add, Owns.update_bind_iff]
    intro s s' hi hn hs
    cases hs
    have hcl : s.cleaning = true := by
      cases hcl : s.cleaning with
      | true => rfl
      | false =>
        refine absurd ?_ (not_mem_of_nodup hn)
        change _ ∈ s.owned device
        simp [Shared.owned, Shared.associationOwned, hcl]
    obtain ⟨hconsistent, howned⟩ := Shared.Consistent.cleanupSecond device hi hcl
    exact ⟨hconsistent, 0, (zero_add _).trans howned, rfl⟩

namespace Shared

/-- A signalled semaphore goes back to who waits for it. -/
theorem Consistent.waitSemaphore (device : DeviceHandles) {semaphore : Nat} {s' : Shared}
    (h : s.Consistent) (hs : s.waitSemaphore semaphore = some s') :
    s'.Consistent ∧ {half semaphore .semaphore true} + owned device s' = s.owned device := by
  unfold Shared.waitSemaphore at hs
  split at hs
  · next hm =>
    cases hs
    refine ⟨⟨h.association, h.cleaning, h.scan⟩, ?_⟩
    unfold owned
    rw [semaphores_erase hm]
    simp only [associationOwned, scanOwned]
    abel
  · cases hs

end Shared

/-- The end of both calls that wait. -/
theorem owns_wait (semaphore : Nat) (result : Shared → Status) :
    Owns (sharing device) {half semaphore .semaphore false} (do
      let s ← update fun s => s.waitSemaphore semaphore
      free semaphore .semaphore
      return result s) fun _ => 0 := by
  rw [Owns.update_bind_iff]
  intro s s' hi _ hs
  obtain ⟨hconsistent, howned⟩ := Shared.Consistent.waitSemaphore device hi hs
  refine ⟨hconsistent, object semaphore .semaphore, ?_, 0, rfl, rfl⟩
  change _ + Shared.owned device _ = _ + Shared.owned device _
  rw [object, add_assoc, howned]

/-- A waiter owns its semaphore until it returns. -/
theorem owns_waitForAssociationCompletion :
    Owns (sharing device) 0 Resources.waitForAssociationCompletion fun _ => 0 := by
  unfold Resources.waitForAssociationCompletion
  rw [Owns.allocate_bind_iff]
  refine ⟨rfl, fun semaphore => ?_⟩
  dsimp only
  rw [Owns.update_bind_iff]
  intro s s' hi _ hs
  cases hs
  obtain ⟨-, -, he⟩ | ⟨-, he⟩ := waitForAssociationCompletion_cases s.association semaphore
  · rw [he]
    exact ⟨hi, _, rfl, 0, rfl, rfl⟩
  · rw [he]
    refine ⟨⟨?_, hi.cleaning, hi.scan⟩, _, ?_, owns_wait semaphore _⟩
    · obtain ⟨h1, h2, h3, h4, h5, h6, h7⟩ := hi.association
      exact ⟨h1, h2, h3, h4, h5, h6, h7⟩
    · change _ + Shared.owned device _ = _ + Shared.owned device _
      simp only [Shared.owned, Shared.associationOwned, Shared.scanOwned, semaphores_append,
        semaphores_singleton, object]
      abel

/-- So does one that waits for a scan. -/
theorem owns_waitForScanCompletion :
    Owns (sharing device) 0 Resources.waitForScanCompletion fun _ => 0 := by
  unfold Resources.waitForScanCompletion
  rw [Owns.allocate_bind_iff]
  refine ⟨rfl, fun semaphore => ?_⟩
  dsimp only
  rw [Owns.update_bind_iff]
  intro s s' hi _ hs
  cases hs
  unfold Shared.waitForScan
  split
  · exact ⟨hi, _, rfl, 0, rfl, rfl⟩
  · refine ⟨⟨hi.association, hi.cleaning, hi.scan⟩, _, ?_, owns_wait semaphore _⟩
    change _ + Shared.owned device _ = _ + Shared.owned device _
    simp only [Shared.owned, Shared.associationOwned, Shared.scanOwned, semaphores_append,
      semaphores_singleton, object]
    abel

namespace Shared

/-- A scan begins: its state goes to the device. -/
theorem Consistent.claim (device : DeviceHandles) (h : s.Consistent) (handles : ScanHandles)
    (hs : s.association.state = .down) :
    (s.claim handles).Consistent ∧
      owned device (s.claim handles) = handles.owned + s.owned device := by
  have hne : s.association.state ≠ .scanning := by rw [hs]; decide
  have hscan := scanOwned_of_ne h hne
  have he : s.claim handles = { s with
      association := { s.association with state := .scanning }, scan := some handles } := by
    unfold Shared.claim setDeviceState
    rw [if_pos hs]
  rw [he]
  refine ⟨⟨h.association.swap (by rw [hs]; rfl) (by simp [hs]) (by simp), h.cleaning,
    fun _ => rfl⟩, ?_⟩
  unfold owned
  rw [hscan]
  simp only [associationOwned, scanOwned]
  abel

/-- The cleanup takes the scan state, and the right to clean up. -/
theorem Consistent.takeScan (device : DeviceHandles) (h : s.Consistent) {handles : ScanHandles}
    (hs : s.scan = some handles) :
    Consistent { s with scan := none } ∧
      handles.owned + {.inr .scan} + owned device { s with scan := none } = s.owned device := by
  have hstate := h.scan (by rw [hs, Option.isSome_some])
  refine ⟨⟨h.association, h.cleaning, fun hscan => by cases hscan⟩, ?_⟩
  unfold owned
  simp only [associationOwned, scanOwned, hs, hstate, if_true]
  abel

/-- The cleanup gives the right to clean up back, and wakes who waits for it. -/
theorem Consistent.leaveScan (device : DeviceHandles) (h : s.Consistent) (hscan : s.scan = none)
    (hs : s.association.state = .scanning) :
    s.leaveScan.Consistent ∧ owned device s.leaveScan = {.inr .scan} + s.owned device := by
  have he : s.leaveScan = { s with
      association := { s.association with state := .down }
      scanWaiters := []
      signalled := s.scanWaiters ++ s.signalled } := by
    unfold Shared.leaveScan setDeviceState
    rw [if_pos hs]
    rfl
  rw [he]
  refine ⟨⟨h.association.swap (by rw [hs]; rfl) (by simp [hs]) (by simp), h.cleaning,
    fun hsome => by rw [hscan] at hsome; cases hsome⟩, ?_⟩
  unfold owned
  simp only [associationOwned, scanOwned, hscan, hs, if_true, semaphores_nil, semaphores_append,
    reduceCtorEq, if_false]
  abel

end Shared

/-- `u80211_scan` frees a scan state that it does not start. -/
theorem owns_scan : Owns (sharing device) 0 Resources.scan fun _ => 0 := by
  unfold Resources.scan
  refine owns_allocateScanState.bind fun r => ?_
  cases r with
  | error status => exact rfl
  | ok handles =>
    dsimp only
    split
    · exact (owns_destroyScanState handles).map fun _ => rfl
    · rw [Owns.update_bind_iff]
      intro s s' hi _ hs
      cases hs
      cases hset : setDeviceState s.association .down .scanning with
      | none =>
        have he : s.claim handles = s := by
          unfold Shared.claim
          rw [hset]
        rw [he]
        exact ⟨hi, _, rfl, (owns_destroyScanState handles).map fun _ => rfl⟩
      | some a =>
        obtain ⟨hdown, -⟩ := setDeviceState_eq_some hset
        obtain ⟨hconsistent, howned⟩ := Shared.Consistent.claim device hi handles hdown
        exact ⟨hconsistent, 0, (zero_add _).trans howned, rfl⟩

/-- `cleanup_scan` frees the scan state of the device. -/
theorem owns_cleanupScan : Owns (sharing device) 0 Resources.cleanupScan fun _ => 0 := by
  unfold Resources.cleanupScan
  rw [Owns.update_bind_iff]
  intro s s' hi _ hs
  obtain ⟨handles, hscan, rfl⟩ := Option.map_eq_some_iff.mp hs
  obtain ⟨hconsistent, howned⟩ := Shared.Consistent.takeScan device hi hscan
  refine ⟨hconsistent, _, howned.trans (zero_add _).symm, ?_⟩
  rw [hscan]
  refine (owns_destroyScanState handles).frame.bind fun _ => ?_
  rw [zero_add, Owns.update_bind_iff]
  intro s s' hi hn hs
  cases hs
  have hstate : s.scan = none ∧ s.association.state = .scanning := by
    have hm := not_mem_of_nodup hn
    change _ ∉ s.owned device at hm
    cases hscan : s.scan with
    | some o => exact absurd (by simp [Shared.owned, Shared.scanOwned, hscan]) hm
    | none =>
      refine ⟨rfl, ?_⟩
      by_contra hne
      exact hm (by simp [Shared.owned, Shared.scanOwned, hscan, hne])
  obtain ⟨hconsistent, howned⟩ := Shared.Consistent.leaveScan device hi hstate.1 hstate.2
  exact ⟨hconsistent, 0, (zero_add _).trans howned, rfl⟩

/-- The access point that a caller gets is its own. -/
theorem owns_apAllocateCall (rsnSize : Nat) :
    Owns (sharing device) 0 (Call.apAllocate rsnSize).program fun _ => 0 := by
  unfold Call.program
  refine (owns_apAllocate rsnSize).bind fun o => ?_
  cases o with
  | none => exact rfl
  | some handles =>
    dsimp only
    rw [Owns.update_bind_iff]
    intro s s' hi _ hs
    cases hs
    refine ⟨⟨hi.association, hi.cleaning, hi.scan⟩, 0, ?_, rfl⟩
    change _ + Shared.owned device _ = _ + Shared.owned device _
    simp only [Shared.owned, Shared.associationOwned, Shared.scanOwned, List.map_cons,
      List.sum_cons, Option.elim_some]
    abel

/-- The last reference frees it. -/
theorem owns_apInactiveCall (i : Nat) :
    Owns (sharing device) 0 (Call.apInactive i).program fun _ => 0 := by
  unfold Call.program
  rw [Owns.update_bind_iff]
  intro s s' hi _ hs
  obtain ⟨handles, hget, rfl⟩ := Option.map_eq_some_iff.mp hs
  refine ⟨⟨hi.association, hi.cleaning, hi.scan⟩, handles.owned, ?_, ?_⟩
  · change _ + Shared.owned device _ = _ + Shared.owned device _
    obtain ⟨hlt, rfl⟩ := List.getElem?_eq_some_iff.mp hget
    have hsum : (s.aps.map ApHandles.owned).sum =
        s.aps[i].owned + ((s.aps.eraseIdx i).map ApHandles.owned).sum := by
      rw [← List.sum_cons, ← List.map_cons]
      exact ((List.getElem_cons_eraseIdx_perm hlt).symm.map _).sum_eq
    simp only [Shared.owned, Shared.associationOwned, Shared.scanOwned, hsum]
    abel
  · rw [hget]
    exact (owns_apInactive handles).map fun _ => rfl

/-- **Each call frees what it has allocated, or hands it over.** -/
theorem owns_program (call : Call) : Owns (sharing device) 0 call.program fun _ => 0 := by
  cases call with
  | setKey hasSetKey key status => exact owns_setKey hasSetKey key status
  | delKey hasDelKey index peer flags status => exact owns_delKey hasDelKey index peer flags status
  | associate ap ies => exact owns_associate ap ies
  | process message => exact owns_process message
  | timeout context kind => exact owns_timeout context kind
  | deauthenticate status => exact owns_deauthenticate status
  | cleanupAssociation => exact owns_cleanupAssociation
  | waitForAssociationCompletion => exact owns_waitForAssociationCompletion
  | scan => exact owns_scan
  | cleanupScan => exact owns_cleanupScan
  | waitForScanCompletion => exact owns_waitForScanCompletion
  | apAllocate rsnSize => exact owns_apAllocateCall rsnSize
  | apInactive i => exact owns_apInactiveCall i

/-! ## The whole life of a device -/

def tokens : Multiset Token := {.cleanup, .scan}

/-- What a device owns that has just been registered. -/
theorem registered_owned : Shared.registered.owned device = device.owned + tokens.map .inr := by
  unfold Shared.owned
  simp [Shared.registered, Shared.associationOwned, Shared.scanOwned, contextOwned,
    Association.registered, tokens, ← Multiset.singleton_add]
  abel

/-- The fields of a device that has just been registered fit together. -/
theorem registered_consistent : Shared.registered.Consistent where
  association := .registered
  cleaning := fun h => by cases h
  scan := fun h => by cases h

theorem not_mem_sum {δ : Type} {x : Resource KernelObject Token} {R : δ → Owned}
    (h : ∀ y, x ∉ R y) (ys : List δ) : x ∉ (ys.map R).sum := by
  induction ys with
  | nil => exact Multiset.notMem_zero x
  | cons y ys ih => simp [h y, ih]

theorem not_mem_ownedIfAny (semaphore : Nat) (a : Option Nat) :
    half semaphore .semaphore false ∉ ownedIfAny a := by
  cases a <;> simp [ownedIfAny, object]

/-- The semaphore of a waiter is no part of a context. -/
theorem not_mem_contextOwned (semaphore : Nat) (contexts : Nat → ContextHandles)
    (context : Option AssociationContext) :
    half semaphore .semaphore false ∉ contextOwned contexts context := by
  cases context with
  | none => exact Multiset.notMem_zero _
  | some c => simp [contextOwned, ContextHandles.owned, not_mem_ownedIfAny, object]

/-- It is no part of a scan state. -/
theorem not_mem_scanOwned (semaphore : Nat) : half semaphore .semaphore false ∉ s.scanOwned := by
  unfold Shared.scanOwned
  split
  · simp [ScanHandles.owned, object]
  · split <;> simp

/-- The device never has both halves of a semaphore. -/
theorem not_mem_owned (semaphore : Nat) : half semaphore .semaphore false ∉ s.owned device := by
  have hkeys := not_mem_sum (x := half semaphore .semaphore false) (R := keyOwned)
    (fun metadata => by simp [keyOwned, object]) s.keys
  have haps := not_mem_sum (x := half semaphore .semaphore false) (R := ApHandles.owned)
    (fun handles => by simp [ApHandles.owned, not_mem_ownedIfAny, object]) s.aps
  have hassociation : half semaphore .semaphore false ∉ s.associationOwned := by
    unfold Shared.associationOwned
    split <;> simp [not_mem_contextOwned]
  unfold Shared.owned
  simp [hkeys, haps, hassociation, not_mem_scanOwned, DeviceHandles.owned, semaphores, object]

/-- Where only the tokens are left, nothing is allocated. -/
theorem live_eq_zero {heap : Heap KernelObject} (h : tokens.map .inr = heap.resources tokens) :
    heap.live = 0 := by
  refine Multiset.eq_zero_of_forall_notMem fun x hx => ?_
  have hm : half x.1 x.2 false ∈ heap.resources tokens := Heap.mem_resources.mpr hx
  rw [← h] at hm
  simp at hm

/-- The calls are accounted for from the registration on. -/
theorem accounted_init {heap : Heap KernelObject} (hv : heap.Valid)
    (h : device.owned + tokens.map .inr = heap.resources tokens) :
    Accounted (sharing device) tokens (init heap) [] where
  valid := hv
  invariant := registered_consistent
  threads := .nil
  total := by
    rw [List.sum_nil, zero_add]
    exact registered_owned.trans h

/-- Nobody waits when every call has returned. -/
theorem no_waiters {t : DeviceThreads} {owned : List Owned}
    (ha : Accounted (sharing device) tokens t owned) (hr : ∀ p ∈ t.threads, p.Returned) :
    t.shared.association.associationWaiters = [] ∧ t.shared.scanWaiters = [] ∧
      t.shared.signalled = [] := by
  have ht : t.shared.owned device = t.heap.resources tokens := ha.owned_of_returned hr
  have hnone : ∀ xs : List Nat, semaphores xs ≤ t.shared.owned device → xs = [] := by
    intro xs hle
    refine List.eq_nil_iff_forall_not_mem.mpr fun semaphore hm => ?_
    have hhalf : half semaphore .semaphore true ∈ t.shared.owned device :=
      Multiset.mem_of_le hle (Multiset.mem_map_of_mem _ hm)
    rw [ht, Heap.mem_resources] at hhalf
    have hother : half semaphore .semaphore false ∈ t.heap.resources tokens :=
      Heap.mem_resources.mpr hhalf
    rw [← ht] at hother
    exact not_mem_owned semaphore hother
  have hwaiters : semaphores t.shared.association.associationWaiters +
      semaphores t.shared.scanWaiters + semaphores t.shared.signalled ≤
      t.shared.owned device := Multiset.le_add_left _ _
  refine ⟨hnone _ (le_trans ?_ hwaiters), hnone _ (le_trans ?_ hwaiters),
    hnone _ (le_trans ?_ hwaiters)⟩
  · rw [add_assoc]
    exact Multiset.le_add_right _ _
  · rw [add_right_comm]
    exact Multiset.le_add_left _ _
  · exact Multiset.le_add_left _ _

/-- A device is registered as a whole or not at all. -/
theorem exec_registerDevice (answers : List Bool) :
    ∃ r heap, registerDevice.exec answers .empty .registered = some (r, heap, .registered) ∧
      heap.Valid ∧ ifOk DeviceHandles.owned r + tokens.map .inr = heap.resources tokens := by
  refine (owns_registerDevice (S := sharing ⟨0, 0, 0, 0, 0, 0, 0⟩)).exec local_registerDevice .empty
    (F := tokens.map .inr) ?_ answers _
  simp [Heap.resources, Heap.empty]

variable {answers : List Bool} {heap : Heap KernelObject} {t : DeviceThreads}
  {τ : List (Lts.Transition DeviceThreads (Ownership.Action Call))}

/-- From the registration on each resource has one owner. -/
theorem accounted_run
    (hregister : registerDevice.exec answers .empty .registered =
      some (.ok device, heap, .registered))
    (hrun : Lts.Run step (init heap) τ t) :
    ∃ owned, Accounted (sharing device) tokens t owned := by
  obtain ⟨r, heap', he, hv, hresources⟩ := exec_registerDevice answers
  rw [hregister] at he
  cases he
  exact (accounted_init hv hresources).run owns_program (by decide) hrun

/-- A device that has got all that it needs. -/
def exampleDevice : DeviceHandles := ⟨0, 1, 2, 3, 4, 5, 6⟩

/-- The heap after its registration. -/
def exampleHeap : Heap KernelObject where
  live := {(6, .rwlock), (5, .work), (4, .spinlock), (3, .work), (2, .spinlock), (1, .spinlock),
    (0, .memory)}
  next := 7

/-- Somebody waits for a scan. -/
def waitingForScan : List (Ownership.Action Call) :=
  .start .scan :: .start .waitForScanCompletion :: List.replicate 5 (.run 0 true) ++
    List.replicate 2 (.run 1 true)

/-- What an idle device owns: its own objects, its keys and the access points. -/
theorem owned_of_idle {owned : List Owned} (ha : Accounted (sharing device) tokens t owned)
    (hr : ∀ p ∈ t.threads, p.Returned)
    (hcontext : t.shared.association.associationContext = none)
    (hcleanup : t.shared.association.associationCleanupContext = none)
    (hscan : t.shared.association.state ≠ .scanning) :
    device.owned + (t.shared.keys.map keyOwned).sum + (t.shared.aps.map ApHandles.owned).sum +
      tokens.map .inr = t.heap.resources tokens := by
  have ht : t.shared.owned device = t.heap.resources tokens := ha.owned_of_returned hr
  obtain ⟨hwaiters, hscanWaiters, hsignalled⟩ := no_waiters ha hr
  have hcl : t.shared.cleaning = false := by
    cases hcl : t.shared.cleaning with
    | false => rfl
    | true =>
      have hp := ha.invariant.association.pending_iff.mp (ha.invariant.cleaning hcl)
      rw [hcleanup] at hp
      cases hp
  rw [← ht, Shared.owned, Shared.scanOwned_of_ne ha.invariant hscan, Shared.associationOwned,
    hcontext, hcleanup, hcl, hwaiters, hscanWaiters, hsignalled]
  simp only [contextOwned, semaphores_nil, tokens, Multiset.insert_eq_cons,
    ← Multiset.singleton_add, Multiset.map_add, Multiset.map_singleton, Bool.false_eq_true,
    if_false]
  abel

/-- What is left of a device are access points, and nothing is left when there is none of them. -/
theorem live_eq_zero_iff {heap : Heap KernelObject} {left : List ApHandles}
    (h : (left.map ApHandles.owned).sum + tokens.map .inr = heap.resources tokens) :
    heap.live = 0 ↔ left = [] := by
  constructor
  · intro hlive
    cases left with
    | nil => rfl
    | cons o left =>
      have hm : half o.ap .memory false ∈ heap.resources tokens := by
        rw [← h]
        simp [ApHandles.owned, object]
      have hin := Heap.mem_resources.mp hm
      rw [hlive] at hin
      exact absurd hin (Multiset.notMem_zero _)
  · rintro rfl
    exact live_eq_zero ((zero_add _).symm.trans h)

/-- A key without bytes. -/
def exampleKey : Key where
  cipher := .ccmp
  index := 0
  peer := .zero 6
  key := none
  keyLen := 0
  rxSeq := none
  flags := 0
  length_key := fun _ h => by cases h

/-- A key is set twice, and an access point is allocated. -/
def keySetTwice : List (Ownership.Action Call) :=
  [.start (.setKey true exampleKey .success), .run 0 true, .run 0 true,
    .start (.setKey true exampleKey .success), .run 1 true, .run 1 true, .run 1 true,
    .start (.apAllocate 0), .run 2 true, .run 2 true]

end Resources

end U80211
