import U80211.Properties.MachineMemory
import U80211.Properties.Rest
import U80211.Properties.ScanLife
import U80211.Properties.ScanRecords

/-!
# The whole device comes to rest

A scan goes through the channels, drains its ring buffer after each of them and is cleaned up; it
does so while an association takes its own steps.

* `Effect.weight_lt`: every step that the device takes by itself makes the weight smaller
* `rest_of_halted`: when nothing can go on, no scan and no attempt is under way
* `device_comes_to_rest`: left alone, the device comes to rest after a bounded number of steps
-/

namespace U80211

open WorkQueue

namespace Machine

/-- What the device does by itself; the callers of the library and of the cache do the rest. -/
def Event.Internal : Event → Prop
  | .association action => action.Internal
  | .cache _ | .invoke _ => False
  | _ => True

end Machine

/-! ## Weights -/

def Listen.weight : Listen → Nat
  | .setChannel => 17
  | .receive => 16
  | .sendProbe => 15
  | .arm => 14

def ScanPc.weight : ScanPc → Nat
  | .readRsn _ _ => 13
  | .insert _ => 12
  | .release _ => 11
  | .stop => 11
  | .drain => 10
  | .setCurrent _ => 9
  | .listen line => line.weight
  | .complete => 8
  | .enqueueCleanup => 7

def ScanCleanupPc.weight : ScanCleanupPc → Nat
  | .freeTimer _ => 5
  | .freeWork _ => 4
  | .freeBuffer _ => 3
  | .freeState _ => 2
  | .last _ => 1

/-- A response adds no more bytes than this to a ring buffer, less one. -/
def responseWeight : Nat := beaconDataSize + maxRsnSize + 1

def ScanCall.weight : ScanCall → Nat
  | .scanAllocate => 147
  | .scanClaim _ => 20
  | .scanPublish _ => 19
  | .scanPurge _ => 18
  | .scanListen _ line => line.weight
  | .waitAllocate => 3
  | .waitCritical => 2
  | .waiting _ => 1
  | .response _ => responseWeight
  | .returned _ => 0
  | .handled => 0

/-- The channels that are left weigh as much as the way from one of them to the next; each byte in
the ring buffer is still to be read. -/
def ScanState.weight (o : ScanState) : Nat :=
  o.work.weight 12 ScanPc.weight + 9 * (channelCount - o.currentChannel) +
    o.buffer.dataCount.toNat

/-- A frame that carries a probe response hands on more than its own step weighs. -/
theorem weight_lt_of_responds {s s' : System} {v : Nat} {action : Action}
    {beacon : BeaconData} (hs : step action s = some s') (hb : s.responds action = some beacon) :
    s'.weight v + v < s.weight v := by
  unfold System.responds at hb
  split at hb
  · next i o =>
    split at hb
    · next frame hc =>
      split at hb
      · next b hp =>
        simp only [step, hc, stepCall, hp, Option.some.injEq] at hs
        subst hs
        have hset := weight_setCall (v := v) hc
          ((ManagementPlan.scanProcessResponse b).next frame)
        simp only [ManagementPlan.next, Call.weight] at hset
        simp only [ManagementPlan.next]
        omega
      · cases hb
    · cases hb
  · cases hb

namespace ScanState

variable {o o' : ScanState} {beacon : BeaconData}

/-- The way on from the loop is short. -/
theorem leaveDrain_weight_le {pc : ScanPc} (h : o.leaveDrain = some pc) : pc.weight ≤ 9 := by
  rcases leaveDrain_cases h with rfl | ⟨channel, rfl⟩ <;> simp [ScanPc.weight]

theorem weight_goto {pc : ScanPc} (h : o.work.work.running = some pc) (next : Option ScanPc) :
    (o.goto next).weight + pc.weight = o.weight + next.elim 0 ScanPc.weight := by
  have hgoto := DelayedWork.weight_goto (q := 12) (f := ScanPc.weight) h next
  simp only [weight, goto_work, goto_currentChannel, goto_buffer]
  omega

/-- The head of the loop takes a record, or leads out of the loop. -/
theorem weight_drain {pc : ScanPc} (hw : o.work.work.running = some .drain)
    (h : o.drain = some (o', pc)) : (o'.goto (some pc)).weight < o.weight := by
  have hdrain : ScanPc.drain.weight = 10 := rfl
  unfold drain at h
  split at h
  · obtain ⟨pc, hl, he⟩ := Option.map_eq_some_iff.mp h
    cases he
    have hgoto := weight_goto hw (some pc)
    have hle := leaveDrain_weight_le hl
    rw [Option.elim_some] at hgoto
    omega
  · next hcount =>
    obtain ⟨⟨buffer, record⟩, hread, h⟩ := Option.bind_eq_some_iff.mp h
    have hdata := RingBuffer.dataCount_of_read hread
    have hsize : (UInt64.ofNat beaconDataSize).toNat = 80 := rfl
    have hcount' : 80 ≤ o.buffer.dataCount.toNat := Nat.le_of_not_lt hcount
    have hgoto := fun pc => weight_goto (o := { o with buffer }) hw (some pc)
    have hbuffer : ({ o with buffer } : ScanState).weight + 80 = o.weight := by
      simp only [weight]
      omega
    dsimp only at h
    split at h
    · obtain ⟨pc, hl, he⟩ := Option.map_eq_some_iff.mp h
      cases he
      have hnext := hgoto pc
      have hle := leaveDrain_weight_le hl
      rw [Option.elim_some] at hnext
      omega
    · obtain ⟨⟨beacon, rsnSize⟩, -, h⟩ := Option.bind_eq_some_iff.mp h
      cases h
      have hnext := hgoto (.readRsn beacon rsnSize)
      have hpc : (ScanPc.readRsn beacon rsnSize).weight = 13 := rfl
      rw [Option.elim_some] at hnext
      dsimp only
      omega

theorem weight_readRsn_le {rsnSize : UInt64} {r : Except Unit (Option BeaconData)}
    (h : o.readRsn beacon rsnSize = some (o', r)) :
    o'.weight ≤ o.weight ∧ o'.work = o.work := by
  unfold readRsn at h
  obtain ⟨⟨buffer, rsn⟩, hread, h⟩ := Option.bind_eq_some_iff.mp h
  have hdata := RingBuffer.dataCount_of_read hread
  have hle : ({ o with buffer } : ScanState).weight ≤ o.weight := by
    simp only [weight]
    omega
  dsimp only at h
  split at h
  · cases h
  · split at h
    · cases h; exact ⟨hle, rfl⟩
    · split at h <;> cases h <;> exact ⟨hle, rfl⟩

/-- A response that is stored weighs less than one that is on its way. -/
theorem weight_processResponse_lt {pointer : BeaconPointer}
    (h : o.processResponse beacon pointer = some o') : o'.weight < o.weight + responseWeight := by
  have hpos : o.weight < o.weight + responseWeight := Nat.lt_add_of_pos_right (by decide)
  unfold processResponse at h
  split at h
  · cases h; exact hpos
  · next hrsn =>
    split at h
    · cases h; exact hpos
    · obtain ⟨⟨buffer, n⟩, hfirst, h⟩ := Option.bind_eq_some_iff.mp h
      obtain ⟨⟨buffer', n'⟩, hsecond, h⟩ := Option.bind_eq_some_iff.mp h
      cases h
      have hadd := RingBuffer.dataCount_of_write_le hfirst
      have hadd' := RingBuffer.dataCount_of_write_le hsecond
      have hsize : (UInt64.ofNat beaconDataSize).toNat = beaconDataSize := rfl
      have hlength : (UInt64.ofNat beacon.rsn.length).toNat ≤ beacon.rsn.length := by
        rw [UInt64.toNat_ofNat']
        exact Nat.mod_le _ _
      have hmax : beacon.rsn.length ≤ maxRsnSize := Nat.le_of_not_lt (not_or.mp hrsn).2
      simp only [weight, responseWeight]
      dsimp only at hadd'
      omega

end ScanState

namespace Machine

variable {m m' : Machine} {event : Event} {own : MacAddress}

def scanStateWeight (o : Option ScanState) : Nat := o.elim 0 ScanState.weight

def scanCallWeight (m : Machine) : Nat := (m.scanCalls.map ScanCall.weight).sum

def stateWeight (m : Machine) : Nat :=
  ∑ k ∈ Finset.range m.nextScanState, scanStateWeight (m.scanStates k)

def weight (m : Machine) : Nat :=
  m.system.weight responseWeight + m.scanCallWeight + m.stateWeight +
    m.scanCleanupWork.weight 6 ScanCleanupPc.weight

theorem Quiet.weight_lt {c c' : ScanCall} (h : Quiet m c c') : c'.weight < c.weight := by
  cases h <;> simp [ScanCall.weight, responseWeight]

theorem Destroys.weight_lt {k : Nat} {pc next : ScanCleanupPc} {o o' : ScanState}
    (h : Destroys k pc next o o') : next.weight < pc.weight ∧ o'.weight ≤ o.weight := by
  cases h with
  | timer =>
    refine ⟨by simp [ScanCleanupPc.weight], ?_⟩
    have hle := DelayedWork.weight_freeTimer_le (q := 12) (f := ScanPc.weight)
    exact Nat.add_le_add_right (Nat.add_le_add_right (hle _) _) _
  | work hw =>
    refine ⟨by simp [ScanCleanupPc.weight], ?_⟩
    have hle := DelayedWork.weight_freeWork_le (q := 12) (f := ScanPc.weight) hw
    exact Nat.add_le_add_right (Nat.add_le_add_right hle _) _
  | buffer => exact ⟨by simp [ScanCleanupPc.weight], Nat.le_refl _⟩
  | state => exact ⟨by simp [ScanCleanupPc.weight], Nat.le_refl _⟩

theorem weight_setScanCall {i : Nat} {c : ScanCall} (hc : m.scanCalls[i]? = some c)
    (c' : ScanCall) : (m.setScanCall i c').weight + c.weight = m.weight + c'.weight := by
  have hcalls : (m.setScanCall i c').scanCallWeight + c.weight = m.scanCallWeight + c'.weight :=
    Lts.sum_map_set hc
  have hrest : (m.setScanCall i c').stateWeight = m.stateWeight := rfl
  simp only [weight, setScanCall_scanCleanupWork, setScanCall_system, hrest]
  omega

theorem stateWeight_setScanState {k : Nat} {o : ScanState} (hk : k < m.nextScanState)
    (ho : m.scanStates k = some o) (o' : ScanState) :
    (m.setScanState k o').stateWeight + o.weight = m.stateWeight + o'.weight := by
  have hstates : (m.setScanState k o').stateWeight + scanStateWeight (m.scanStates k) =
      m.stateWeight + scanStateWeight (some o') := Lts.sum_update hk (some o')
  rw [ho] at hstates
  exact hstates

/-- A scan state that changes changes only its own part of the weight. -/
theorem weight_setScanState {k : Nat} {o : ScanState} (hk : k < m.nextScanState)
    (ho : m.scanStates k = some o) (o' : ScanState) :
    (m.setScanState k o').weight + o.weight = m.weight + o'.weight := by
  have hstates := stateWeight_setScanState hk ho o'
  have hrest : (m.setScanState k o').scanCallWeight = m.scanCallWeight := rfl
  simp only [weight, setScanState_scanCleanupWork, setScanState_system, hrest]
  omega

/-- A call takes a step that makes the rest of the machine heavier by at most `n`. -/
theorem weight_setScanCall_lt {t : Machine} {i n : Nat} {c c' : ScanCall}
    (hc : m.scanCalls[i]? = some c) (hcalls : t.scanCalls = m.scanCalls)
    (hw : t.weight ≤ m.weight + n) (h : c'.weight + n < c.weight) :
    (t.setScanCall i c').weight < m.weight := by
  rw [← hcalls] at hc
  have hset := weight_setScanCall hc c'
  omega

/-- A scan state takes a step that makes the rest of the machine heavier by at most `n`. -/
theorem weight_setScanState_lt {t : Machine} {k n : Nat} {o o' : ScanState}
    (hk : k < t.nextScanState) (ho : t.scanStates k = some o) (hw : t.weight ≤ m.weight + n)
    (h : o'.weight + n < o.weight) : (t.setScanState k o').weight < m.weight := by
  have hset := weight_setScanState hk ho o'
  omega

/-- The cleanup goes on at a position that weighs less. -/
theorem weight_goto_lt {t : Machine} {pc : ScanCleanupPc}
    (hw : m.scanCleanupWork.running = some pc) {next : Option ScanCleanupPc}
    (hsystem : t.system.weight responseWeight = m.system.weight responseWeight)
    (hcalls : t.scanCallWeight = m.scanCallWeight) (hstates : t.stateWeight ≤ m.stateWeight)
    (hwork : t.scanCleanupWork = m.scanCleanupWork.goto next)
    (h : next.elim 0 ScanCleanupPc.weight < pc.weight) : t.weight < m.weight := by
  have hgoto := Work.weight_goto (q := 6) (f := ScanCleanupPc.weight) hw next
  simp only [weight, hwork]
  omega

/-- A request for the cleanup adds its own weight at most. -/
theorem weight_enqueue_le (argument : Nat) :
    ({ m with
      scanCleanupWork := m.scanCleanupWork.enqueue
      scanCleanupArgument := argument }).weight ≤ m.weight + 6 := by
  have hle := m.scanCleanupWork.weight_enqueue_le (q := 6) (f := ScanCleanupPc.weight)
  exact (Nat.add_le_add_left hle _).trans_eq (Nat.add_assoc _ _ _).symm

/-- Who is woken stays as far from its end as before. -/
theorem weight_wake (waiters : List Nat) (calls : List ScanCall) :
    ((wakeScanWaiters calls waiters).map ScanCall.weight).sum =
      (calls.map ScanCall.weight).sum := by
  induction waiters generalizing calls with
  | nil => rfl
  | cons w ws ih =>
    refine (ih (Machine.signal calls w)).trans ?_
    unfold Machine.signal
    split
    · next n hw =>
      have hset := Lts.sum_map_set (w := ScanCall.weight) (c := .waiting (n + 1)) hw
      simp only [ScanCall.weight] at hset
      omega
    · rfl

theorem dataCount_of_init {size : UInt64} {memory : Option (Nat → UInt8)} {buffer : RingBuffer}
    (hb : ringbufferInit size memory = .ok buffer) : buffer.dataCount.toNat = 0 := by
  unfold ringbufferInit at hb
  split at hb
  · cases hb
  · split at hb <;> cases hb
    rw [RingBuffer.dataCount, UInt64.sub_self]
    rfl

/-- What a new scan state weighs. -/
theorem weight_allocate_le {buffer : RingBuffer} (hb : buffer.dataCount.toNat = 0)
    (channel : Nat) : (ScanState.allocate buffer channel).weight ≤ 126 := by
  have hwork : (DelayedWork.allocate : DelayedWork ScanPc).weight 12 ScanPc.weight = 0 := rfl
  have hchannels : channelCount = 14 := rfl
  simp only [ScanState.weight, ScanState.allocate]
  omega

/-- A new scan has all of its channels before it. -/
theorem weight_setScanState_new (o : ScanState) :
    ({ m with nextScanState := m.nextScanState + 1 }.setScanState m.nextScanState o).weight =
      m.weight + o.weight := by
  have hold : ∀ k ∈ Finset.range m.nextScanState,
      scanStateWeight (Function.update m.scanStates m.nextScanState (some o) k) =
        scanStateWeight (m.scanStates k) := by
    intro k hk
    rw [Finset.mem_range] at hk
    rw [Function.update_of_ne (by omega)]
  have hsum : ({ m with nextScanState := m.nextScanState + 1 }.setScanState m.nextScanState
      o).stateWeight = m.stateWeight + o.weight := by
    simp only [stateWeight, setScanState_scanStates, setScanState_nextScanState]
    rw [Finset.sum_range_succ, Finset.sum_congr rfl hold, Function.update_self]
    rfl
  have hcalls : ({ m with nextScanState := m.nextScanState + 1 }.setScanState m.nextScanState
      o).scanCallWeight = m.scanCallWeight := rfl
  simp only [weight, hsum, hcalls, setScanState_system, setScanState_scanCleanupWork]
  omega

/-- The lines from `set_channel` on, up to the request that the last of them makes. -/
theorem weight_listen_lt (o : ScanState) (line : Listen) :
    (o.listen line).weight + line.next.elim 0 Listen.weight < o.weight + line.weight := by
  cases line with
  | arm =>
    have hle := o.work.weight_enqueue_le (q := 12) (f := ScanPc.weight)
    simp only [ScanState.listen, ScanState.weight, Listen.next, Listen.weight, Option.elim_none]
    omega
  | _ => exact Nat.add_lt_add_left (by decide) o.weight

theorem weight_association_lt {system : System} {cache : BssCache} {radio : Option Nat}
    {calls : List ScanCall} (h : (calls.map ScanCall.weight).sum + system.weight responseWeight <
      m.scanCallWeight + m.system.weight responseWeight) :
    { m.setCache cache with system, radio, scanCalls := calls }.weight < m.weight := by
  show system.weight responseWeight + (calls.map ScanCall.weight).sum + m.stateWeight +
    m.scanCleanupWork.weight 6 ScanCleanupPc.weight < m.weight
  simp only [weight]
  omega

/-- What a line changes in the weight. -/
theorem weight_listen {k : Nat} {o : ScanState} (hk : k < m.nextScanState)
    (ho : m.scanStates k = some o) (o' : ScanState) (line : Listen) :
    (m.listen k o' line).weight + o.weight = m.weight + (o'.listen line).weight :=
  weight_setScanState (m := { m with
    radio := if line = Listen.setChannel then some o'.currentChannel else m.radio }) hk ho
    (o'.listen line)

theorem weight_listenCall_lt {i k : Nat} {line : Listen} {o : ScanState} {c : ScanCall}
    (hk : k < m.nextScanState) (ho : m.scanStates k = some o)
    (hc : m.scanCalls[i]? = some (.scanListen k line))
    (hn : c.weight = line.next.elim 0 Listen.weight) :
    ((m.listen k o line).setScanCall i c).weight < m.weight := by
  have hlisten := weight_listen hk ho o line
  have hset := weight_setScanCall (m := m.listen k o line) hc c
  have hlt := weight_listen_lt o line
  have hpc : (ScanCall.scanListen k line).weight = line.weight := rfl
  omega

theorem weight_listenWork_lt {k : Nat} {line : Listen} {o : ScanState} (hk : k < m.nextScanState)
    (ho : m.scanStates k = some o) (hw : o.work.work.running = some (.listen line)) :
    (m.listen k (o.goto (line.next.map .listen)) line).weight < m.weight := by
  have hlisten := weight_listen hk ho (o.goto (line.next.map .listen)) line
  have hgoto := ScanState.weight_goto hw (line.next.map .listen)
  have hlt := weight_listen_lt (o.goto (line.next.map .listen)) line
  have hpc : (ScanPc.listen line).weight = line.weight := rfl
  have hnext : (line.next.map ScanPc.listen).elim 0 ScanPc.weight =
      line.next.elim 0 Listen.weight := by
    cases line <;> rfl
  omega

/-- A channel that is left for the next one takes its share of the weight along. -/
theorem weight_setCurrent_lt {o : ScanState} {channel : Nat}
    (hw : o.work.work.running = some (.setCurrent channel)) (hlt : o.currentChannel < channel)
    (hle : channel ≤ channelCount) :
    (({ o with currentChannel := channel } : ScanState).goto
      (some (.listen .setChannel))).weight < o.weight := by
  have hgoto := ScanState.weight_goto (o := { o with currentChannel := channel }) hw
    (some (.listen .setChannel))
  have hpc : (ScanPc.setCurrent channel).weight = 9 := rfl
  have hnext : (ScanPc.listen .setChannel).weight = 17 := rfl
  rw [Option.elim_some] at hgoto
  have hchannel : ({ o with currentChannel := channel } : ScanState).weight + 9 ≤ o.weight := by
    simp only [ScanState.weight]
    omega
  omega

/-- **Every step that the device takes by itself makes the weight smaller.** -/
theorem Effect.weight_lt (h : Reachable own m) (he : Effect m event m') (hi : event.Internal) :
    m'.weight < m.weight := by
  obtain ⟨w, hw⟩ := h.owner
  obtain ⟨τ, hτ⟩ := h
  have hrecorded := Run.recorded hτ
  have hsystem := Reachable.system hτ.reachable
  have hfresh := hw.fresh
  -- a step of `scan_work` that moves on
  have hmove : ∀ {t : Machine} {k : Nat} {o o' : ScanState}, m.scanStates k = some o →
      t.scanStates = m.scanStates → t.nextScanState = m.nextScanState →
      t.weight = m.weight → o'.weight < o.weight → (t.setScanState k o').weight < m.weight := by
    intro t k o o' ho hstates hnext hweight hlt
    exact weight_setScanState_lt (n := 0) (hnext ▸ hfresh k o ho) (hstates ▸ ho) hweight.le hlt
  have hgoto : ∀ {t : Machine} {k : Nat} {o o' : ScanState} {pc next : ScanPc},
      m.scanStates k = some o → o.work.work.running = some pc → o'.work = o.work →
      o'.weight ≤ o.weight → t.scanStates = m.scanStates → t.nextScanState = m.nextScanState →
      t.weight = m.weight → next.weight < pc.weight →
      (t.setScanState k (o'.goto (some next))).weight < m.weight := by
    intro t k o o' pc next ho hpc hwork hle hstates hnext hweight hlt
    have hset := ScanState.weight_goto (o := o') (by rw [hwork]; exact hpc) (some next)
    rw [Option.elim_some] at hset
    exact hmove ho hstates hnext hweight (by omega)
  cases he with
  | @association action system cache ha hs hc =>
    refine weight_association_lt ?_
    rw [List.map_append, List.sum_append]
    cases hb : m.system.responds action with
    | none =>
      have hlt := (hsystem.effect hs).weight_lt (v := responseWeight) hsystem hi
      exact Nat.add_lt_add_left hlt _
    | some beacon =>
      have hlt := weight_lt_of_responds (v := responseWeight) hs hb
      simp only [Option.toList_some, List.map_cons, List.map_nil, List.sum_cons, List.sum_nil,
        ScanCall.weight, scanCallWeight]
      omega
  | cache => exact hi.elim
  | invoke => exact hi.elim
  | quiet hc hq => exact weight_setScanCall_lt (n := 0) hc rfl (Nat.le_refl _) hq.weight_lt
  | @allocate i channel _ buffer hc hb hn =>
    have hnew := weight_setScanState_new (m := m) (.allocate buffer channel)
    have hle := weight_allocate_le (dataCount_of_init hb) channel
    exact weight_setScanCall_lt (n := 126) hc rfl (by omega) (by simp [ScanCall.weight])
  | claim hc hs | publish hc | purge hc hp | wait hc hs =>
    exact weight_setScanCall_lt (n := 0) hc rfl (Nat.le_refl _)
      (by simp [ScanCall.weight, Listen.weight])
  | @busy i k outcome o hc ho hs =>
    have hset := weight_setScanState (hfresh k o ho) ho o.destroy
    have hsame : o.destroy.weight = o.weight := rfl
    exact weight_setScanCall_lt (n := 0) hc rfl (by omega) (by simp [ScanCall.weight])
  | @listenCall i k outcome line o hc ho =>
    exact weight_listenCall_lt (hfresh k o ho) ho hc (by cases line <;> rfl)
  | @response i k outcome beacon o o' hc hx ho hr =>
    have hset := weight_setScanState (hfresh k o ho) ho o'
    have hlt := ScanState.weight_processResponse_lt hr
    have hpc : (ScanCall.response beacon).weight = responseWeight := rfl
    have hdone : ScanCall.handled.weight = 0 := rfl
    have hpos : 0 < responseWeight := by decide
    exact weight_setScanCall_lt (n := responseWeight - 1) hc rfl (by omega) (by omega)
  | @expire k o work ho hexp =>
    have hexpire := DelayedWork.weight_expire (q := 12) (f := ScanPc.weight) hexp
    refine hmove ho rfl rfl rfl ?_
    simp only [ScanState.weight]
    omega
  | @startWork k o work ho hstart =>
    have hstart := DelayedWork.weight_start (q := 12) (f := ScanPc.weight) hstart
    have hpc : ScanPc.stop.weight = 11 := rfl
    refine hmove ho rfl rfl rfl ?_
    simp only [ScanState.weight]
    omega
  | stop ho hpc => exact hgoto ho hpc rfl (Nat.le_refl _) rfl rfl rfl (by decide)
  | drain ho hpc hd => exact hmove ho rfl rfl rfl (ScanState.weight_drain hpc hd)
  | @pass k outcome o o' beacon rsnSize pc ho hpc hp =>
    have hnext : ∀ {r}, o.readRsn beacon rsnSize = some (o', r) → pc.weight < 13 →
        (m.setScanState k (o'.goto (some pc))).weight < m.weight := by
      intro r hr hlt
      obtain ⟨hle, hwork⟩ := ScanState.weight_readRsn_le hr
      exact hgoto ho hpc hwork hle rfl rfl rfl hlt
    cases hp with
    | short hr hl =>
      exact hnext hr (Nat.lt_of_le_of_lt (ScanState.leaveDrain_weight_le hl) (by decide))
    | skipped hr => exact hnext hr (by decide)
    | enomem hr ha => exact hnext hr (by decide)
  | allocateAp ho hpc hr ha hn =>
    obtain ⟨hle, hwork⟩ := ScanState.weight_readRsn_le hr
    exact hgoto ho hpc hwork hle rfl rfl rfl (by simp [ScanPc.weight])
  | insert ho hpc | release ho hpc =>
    exact hgoto ho hpc rfl (Nat.le_refl _) rfl rfl rfl (by simp [ScanPc.weight])
  | @setCurrent k channel outcome o ho hpc =>
    obtain ⟨records, -, hf, -⟩ := ((hrecorded k).2 o ho).records
    obtain ⟨hlt, hle⟩ := hf.next channel hpc
    exact hmove ho rfl rfl rfl (weight_setCurrent_lt hpc hlt hle)
  | listenWork ho hpc => exact weight_listenWork_lt (hfresh _ _ ho) ho hpc
  | complete ho hpc => exact hgoto ho hpc rfl (Nat.le_refl _) rfl rfl rfl (by decide)
  | @enqueueCleanup k outcome o ho hpc =>
    have hset := ScanState.weight_goto hpc none
    have hpc' : ScanPc.enqueueCleanup.weight = 7 := rfl
    rw [Option.elim_none] at hset
    exact weight_setScanState_lt (n := 6) (hfresh k o ho) ho (weight_enqueue_le _) (by omega)
  | @startCleanup work hstart =>
    have hstart := Work.weight_start (q := 6) (f := ScanCleanupPc.weight) hstart
    have hpc : (ScanCleanupPc.freeTimer m.scanCleanupArgument).weight = 5 := rfl
    have hlt : work.weight 6 ScanCleanupPc.weight <
        m.scanCleanupWork.weight 6 ScanCleanupPc.weight := by omega
    exact Nat.add_lt_add_left hlt _
  | @destroy k o o' pc next hrun ho hd =>
    obtain ⟨hlt, hle⟩ := hd.weight_lt
    have hset := stateWeight_setScanState (hfresh k o ho) ho o'
    have hstates : (m.setScanState k o').stateWeight ≤ m.stateWeight := by omega
    exact weight_goto_lt hrun rfl rfl hstates rfl hlt
  | last hrun hs =>
    cases hs
    exact weight_goto_lt hrun rfl (weight_wake _ _) (Nat.le_refl _) rfl
      (by simp [ScanCleanupPc.weight])

/-! ## What a scan leaves behind -/

/-- Where the state of a scan comes from that is there after a step. -/
inductive StateAfter (m m' : Machine) (k : Nat) (o' : ScanState) : Prop
  | kept (ho : m.scanStates k = some o')
  | allocated {i : Nat} (hc : m'.scanCalls[i]? = some (.scanClaim k))
  | owned (hk : m.Outstanding k)
  | destroyed (hf : o'.Freed 4)

/-- What becomes of the scan states in a step. -/
theorem Effect.stateAfter {w : Option Owner} (hw : m.Fits w) (he : Effect m event m') {k : Nat}
    {o' : ScanState} (ho' : m'.scanStates k = some o') : StateAfter m m' k o' := by
  -- a step of another scan is of no concern
  have hset : ∀ {t : Machine} {j : Nat} {o : ScanState}, t.scanStates = m.scanStates →
      (t.setScanState j o).scanStates k = some o' → (k = j → StateAfter m m' k o') →
      StateAfter m m' k o' := by
    intro t j o hstates h hj
    rw [setScanState_scanStates, Function.update_apply] at h
    split at h
    · next hkj => exact hj hkj
    · exact .kept (hstates ▸ h)
  have hrunning : ∀ {j : Nat} {o : ScanState} {pc : ScanPc}, m.scanStates j = some o →
      o.work.work.running = some pc → k = j → StateAfter m m' k o' := by
    rintro j o pc ho hpc rfl
    exact .owned (hw.outstanding_iff.mpr ⟨_, hw.of_running ho hpc, rfl⟩)
  cases he with
  | @allocate i _ _ _ hc =>
    refine hset (t := { m with nextScanState := m.nextScanState + 1 }) rfl ho' ?_
    rintro rfl
    exact .allocated (i := i) (List.getElem?_set_self (List.getElem?_eq_some_iff.mp hc).1)
  | @busy i j _ o hc ho hs =>
    refine hset rfl ho' ?_
    rintro rfl
    rw [setScanCall_scanStates, setScanState_scanStates, Function.update_self,
      Option.some.injEq] at ho'
    exact .destroyed (ho' ▸ ⟨rfl, rfl, rfl, rfl⟩)
  | @listenCall i j _ line o hc ho =>
    refine hset (t := { m with
      radio := if line = Listen.setChannel then some o.currentChannel else m.radio }) rfl ho' ?_
    rintro rfl
    exact .owned (Or.inl ⟨i, _, hc, rfl⟩)
  | @response i j _ beacon o o₁ hc hx ho hr =>
    refine hset rfl ho' ?_
    rintro rfl
    obtain ⟨x, hx', hxk, -⟩ := hw.of_context hx
    exact .owned (hw.outstanding_iff.mpr ⟨x, hx', hxk⟩)
  | @expire j o work ho hexp =>
    refine hset rfl ho' ?_
    rintro rfl
    obtain ⟨hr, -⟩ := DelayedWork.expire_eq_some hexp
    exact .owned (Or.inr (Or.inl ⟨o, ho, Or.inl (by rw [hr]; simp)⟩))
  | @startWork j o work ho hstart =>
    refine hset rfl ho' ?_
    rintro rfl
    obtain ⟨hr, -⟩ := DelayedWork.start_eq_some hstart
    exact .owned (Or.inr (Or.inl ⟨o, ho, Or.inl (by rw [hr]; simp)⟩))
  | stop ho hpc | drain ho hpc | pass ho hpc | setCurrent ho hpc =>
    exact hset rfl ho' (hrunning ho hpc)
  | allocateAp ho hpc | insert ho hpc | release ho hpc =>
    exact hset (t := m.setCache _) rfl ho' (hrunning ho hpc)
  | @listenWork j _ o line ho hpc =>
    exact hset (t := { m with
      radio := if line = Listen.setChannel then some o.currentChannel else m.radio }) rfl ho'
      (hrunning ho hpc)
  | complete ho hpc =>
    exact hset (t := { m with scanContext := none }) rfl ho' (hrunning ho hpc)
  | @enqueueCleanup j _ o ho hpc =>
    exact hset (t := { m with
      scanCleanupWork := m.scanCleanupWork.enqueue
      scanCleanupArgument := if m.scanCleanupWork.request = Request.idle then j
        else m.scanCleanupArgument }) rfl ho' (hrunning ho hpc)
  | @destroy j o o₁ pc next hrun ho hd =>
    refine hset (t := { m with scanCleanupWork := m.scanCleanupWork.goto (some next) }) rfl ho' ?_
    rintro rfl
    exact .owned (Or.inr (Or.inr (Or.inr ⟨pc, hrun, by cases hd <;> rfl⟩)))
  | _ => exact .kept ho'

/-- A call that has a scan state for itself keeps it, gets the device, or destroys it. -/
theorem Effect.claim_cases (he : Effect m event m') {i k : Nat}
    (hc : m.scanCalls[i]? = some (.scanClaim k)) :
    m'.scanCalls[i]? = some (.scanClaim k) ∨ m'.Outstanding k ∨
      ∃ o', m'.scanStates k = some o' ∧ o'.Freed 4 := by
  have hlt := (List.getElem?_eq_some_iff.mp hc).1
  have hset : ∀ {j : Nat} {c c' : ScanCall}, m.scanCalls[j]? = some c → c ≠ .scanClaim k →
      (m.scanCalls.set j c')[i]? = some (.scanClaim k) := by
    intro j c c' hj hne
    have hji : j ≠ i := by
      rintro rfl
      rw [hc, Option.some.injEq] at hj
      exact hne hj.symm
    rw [List.getElem?_set_ne hji, hc]
  cases he with
  | association => exact Or.inl ((List.getElem?_append_left hlt).trans hc)
  | invoke => exact Or.inl ((List.getElem?_append_left hlt).trans hc)
  | quiet hc' hq => exact Or.inl (hset hc' (by rintro rfl; cases hq))
  | @claim j k' _ hc' hs =>
    by_cases hji : j = i
    · subst hji
      rw [hc, Option.some.injEq, ScanCall.scanClaim.injEq] at hc'
      subst hc'
      exact Or.inr (Or.inl (Or.inl ⟨j, _, List.getElem?_set_self hlt, rfl⟩))
    · exact Or.inl ((List.getElem?_set_ne hji).trans hc)
  | @busy j k' _ o hc' ho hs =>
    by_cases hji : j = i
    · subst hji
      rw [hc, Option.some.injEq, ScanCall.scanClaim.injEq] at hc'
      subst hc'
      exact Or.inr (Or.inr ⟨_, Function.update_self _ _ _, rfl, rfl, rfl, rfl⟩)
    · exact Or.inl ((List.getElem?_set_ne hji).trans hc)
  | allocate hc' | publish hc' | purge hc' | listenCall hc' | wait hc' | response hc' =>
    exact Or.inl (hset hc' nofun)
  | last => exact Or.inl ((SameScans.wake _ _ i _ (by simp [ScanCall.scan])).mpr hc)
  | _ => exact Or.inl hc

/-- A scan state is in use, belongs to a call that has not got the device yet, or has been freed
entirely. -/
def Released (m : Machine) : Prop :=
  ∀ k o, m.scanStates k = some o →
    m.Outstanding k ∨ (∃ i : Nat, m.scanCalls[i]? = some (.scanClaim k)) ∨ o.Freed 4

/-- Every step keeps that the states of finished scans are freed. -/
theorem Effect.released {w w' : Option Owner} (h : m.Released) (hw : m.Fits w) (hw' : m'.Fits w')
    (ht : Turn m event w w') (he : Effect m event m') : m'.Released := by
  -- a scan that no longer owns the device has been freed
  have howned : ∀ {k : Nat} {o' : ScanState}, m.Outstanding k → m'.scanStates k = some o' →
      m'.Outstanding k ∨ o'.Freed 4 := by
    intro k o' hk ho'
    obtain ⟨x, hx, hxk⟩ := hw.outstanding_iff.mp hk
    subst hx
    cases ht with
    | stays hsame =>
      obtain ⟨x', hx', hxk'⟩ := Option.map_eq_some_iff.mp hsame
      exact Or.inl (hw'.outstanding_iff.mpr ⟨x', hx', hxk'.trans hxk⟩)
    | @ends j =>
      have hrun := hw.cleanup.running
      simp only [Option.bind_some, Owner.cleanupRunning] at hrun
      cases he with
      | destroy hrun' ho hd =>
        rw [hrun, Option.some.injEq] at hrun'
        subst hrun'
        cases hd
      | last =>
        have ho : m.scanStates (Owner.cleanup (.last j)).scan = some o' := hxk ▸ ho'
        exact Or.inr (hw.shapes ho).freed
  intro k o' ho'
  cases he.stateAfter hw ho' with
  | kept ho =>
    rcases h k o' ho with hk | ⟨i, hc⟩ | hf
    · exact (howned hk ho').imp_right Or.inr
    · rcases he.claim_cases hc with hc' | hk | ⟨o₁, ho₁, hf⟩
      · exact Or.inr (Or.inl ⟨i, hc'⟩)
      · exact Or.inl hk
      · rw [ho', Option.some.injEq] at ho₁
        exact Or.inr (Or.inr (ho₁ ▸ hf))
    · exact Or.inr (Or.inr hf)
  | allocated hc => exact Or.inr (Or.inl ⟨_, hc⟩)
  | owned hk => exact (howned hk ho').imp_right Or.inr
  | destroyed hf => exact Or.inr (Or.inr hf)

/-- It holds in every reachable state. -/
theorem Reachable.released (h : Reachable own m) : m.Released := by
  refine Lts.Reachable.invariant (P := Released) (fun _ _ ho => by cases ho) ?_ h
  intro m event m' hr ih hs
  obtain ⟨w, hw⟩ := Reachable.owner hr
  obtain ⟨w', hw', ht⟩ := (step_effect hs).fits hw (Reachable.system hr)
  exact (step_effect hs).released ih hw hw' ht

/-! ## When nothing can go on -/

section Enabled

variable {τ : List Transition}

/-- A received response is either stored or dropped. -/
theorem Run.processResponse_isSome (h : Run own τ m) {k : Nat} {o : ScanState}
    (ho : m.scanStates k = some o) (beacon : BeaconData) (pointer : BeaconPointer) :
    ∃ o', o.processResponse beacon pointer = some o' := by
  by_cases hstores : o.Stores beacon
  · obtain ⟨w, hw⟩ := Reachable.owner h.reachable
    obtain ⟨records, -, hf, -⟩ := ((h.recorded k).2 o ho).records
    have hdrains := hw.not_drains ho hstores.1
    have hwhole : o.Whole := by
      intro b size hpc
      cases hdrains _ hpc
    -- what is past the loop has cleared `receiving`
    have hleft : ∀ pc, o.work.work.running = some pc → pc.left = false := by
      intro pc hpc
      obtain rfl := hw.of_running ho hpc
      have hreceiving := (hw.shapes (x := .work k pc) ho).receiving.symm.trans hstores.1
      cases pc <;> first | rfl | cases hreceiving
    obtain ⟨o', hr, -⟩ := hf.response hwhole hleft hstores pointer
    exact ⟨o', hr⟩
  · exact ⟨o, ScanState.processResponse_of_not_stores hstores pointer⟩

/-- A call that takes no further step has come to its end, or waits to be signalled. -/
theorem Run.stepScanCall_stopped (h : Run own τ m) (hn : ∀ t ∈ τ, t.after.InRange) {i : Nat}
    {c : ScanCall} (hc : m.scanCalls[i]? = some c) (hstop : m.stepScanCall i {} c = none) :
    c = .waiting 0 ∨ c = .handled ∨ ∃ status, c = .returned status := by
  obtain ⟨w, hw⟩ := Reachable.owner h.reachable
  have hcounted : Counted own m := ⟨τ, h, hn⟩
  obtain ⟨l, held, others, hb⟩ := hcounted.backed
  cases c with
  | scanAllocate =>
    have hbuffer : ∃ buffer, ringbufferInit bufferSize (some fun _ => 0) = .ok buffer :=
      ⟨_, rfl⟩
    have hnext : nextChannel 0 = some (some 1) := by decide
    obtain ⟨buffer, hbuffer⟩ := hbuffer
    simp [stepScanCall, hbuffer, hnext] at hstop
  | scanClaim k =>
    obtain ⟨⟨o, ho, -⟩, -⟩ := hw.unclaimed i k hc
    simp only [stepScanCall, withScanState, ho] at hstop
    split at hstop <;> cases hstop
  | scanPublish k => cases hstop
  | scanPurge k =>
    have hrounds : l.length + 2 ≤ m.callers.rounds := (congrArg (· + 2) hb.cache.entryCount).ge
    obtain ⟨cache, hcache, -⟩ :=
      BssCache.purge_spec hb.cache (hb.countable hcounted.inRange) hb.rwlock hrounds
    simp [stepScanCall, hcache] at hstop
  | scanListen k line =>
    obtain ⟨o, ho, -⟩ := hw.own _ ((hw.calls i k _ rfl).mp hc)
    have ho : m.scanStates k = some o := ho
    simp [stepScanCall, withScanState, ho] at hstop
  | waitAllocate => cases hstop
  | waitCritical =>
    simp only [stepScanCall] at hstop
    split at hstop <;> cases hstop
  | waiting semaphore =>
    simp only [stepScanCall] at hstop
    split at hstop
    · next hz => exact Or.inl (by rw [hz])
    · cases hstop
  | response beacon =>
    simp only [stepScanCall] at hstop
    split at hstop
    · cases hstop
    · next k hx =>
      obtain ⟨x, rfl, rfl, -⟩ := hw.of_context hx
      obtain ⟨o, ho, -⟩ := hw.own x rfl
      obtain ⟨o', hr⟩ := h.processResponse_isSome ho beacon
        { padding := .zero 4, rsn := .zero 8 }
      simp [withScanState, ho, hr] at hstop
  | returned status => exact Or.inr (Or.inr ⟨status, rfl⟩)
  | handled => exact Or.inr (Or.inl rfl)

/-- `scan_work` always goes on, also when no access point can be allocated. -/
theorem Run.stepScanWork_isSome (h : Run own τ m) (hn : ∀ t ∈ τ, t.after.InRange) {k : Nat}
    {o : ScanState} {pc : ScanPc} (ho : m.scanStates k = some o)
    (hrun : o.work.work.running = some pc) :
    ∃ m', m.stepScanWork k o { allocated := false } pc = some m' := by
  obtain ⟨w, hw⟩ := Reachable.owner h.reachable
  have hcounted : Counted own m := ⟨τ, h, hn⟩
  obtain ⟨l, held, others, hb⟩ := hcounted.backed
  obtain ⟨records, -, hf, -⟩ := ((h.recorded k).2 o ho).records
  have hreceiving : o.receiving = pc.receiving := by
    obtain rfl := hw.of_running ho hrun
    exact (hw.shapes (x := .work k pc) ho).receiving
  -- the reference that the callback holds is one of those that are counted
  have hheld : ∀ ap, pc.held = some ap → 0 < m.callers.owned ap + others ap := by
    intro ap hap
    have hholds : held = some ap := (hb.holds ap).mpr ⟨k, by
      rw [heldAt_of ho, ScanState.held, hrun, Option.bind_some, hap]⟩
    have hcount := hb.count ap
    rw [hholds, owns_self] at hcount
    have hnonneg := references_nonneg (Reachable.system h.reachable) ap
    omega
  cases pc with
  | drain =>
    rcases hf.drain hrun hreceiving with ⟨-, pc, hd, -⟩ | ⟨r, rest, buffer, -, hd, -⟩
    · simp [stepScanWork, hd]
    · simp [stepScanWork, hd]
  | readRsn beacon rsnSize =>
    obtain ⟨r, rest, buffer, -, -, -, hr, -⟩ := hf.readRsn hrun hreceiving
    split at hr
    · simp [stepScanWork, hr]
    · simp [stepScanWork, hr]
  | insert ap =>
    have hrounds : l.length < m.callers.rounds := by
      have hlength := hb.cache.entryCount
      unfold CacheSystem.rounds
      omega
    obtain ⟨cache, l', hcache, -⟩ := BssCache.insert_spec hb.cache hb.rwlock (hheld ap rfl) hrounds
    simp [stepScanWork, hcache]
  | release ap =>
    obtain ⟨cache, hcache, -⟩ := hb.cache.released (hb.countable hcounted.inRange) (hheld ap rfl)
    simp [stepScanWork, hcache]
  | _ => exact ⟨_, rfl⟩

end Enabled

/-- A request for the cleanup waits for no timer. -/
theorem Reachable.cleanupRequest (h : Reachable own m) :
    m.scanCleanupWork.request = .idle ∨ m.scanCleanupWork.request = .queued := by
  refine Lts.Reachable.invariant (P := fun m => m.scanCleanupWork.request = .idle ∨
    m.scanCleanupWork.request = .queued) (Or.inl rfl) ?_ h
  intro m event m' hr ih hs
  cases step_effect hs with
  | enqueueCleanup =>
    show m.scanCleanupWork.enqueue.request = .idle ∨ m.scanCleanupWork.enqueue.request = .queued
    unfold Work.enqueue
    split
    · exact Or.inr rfl
    · exact ih
  | startCleanup hw =>
    obtain ⟨-, -, -, rfl⟩ := Work.start_eq_some hw
    exact Or.inl rfl
  | _ => exact ih

/-- Nothing is going on and nothing is to come, in the association and in the scans. -/
structure AtRest (m : Machine) : Prop where
  system : m.system.AtRest
  state : m.system.association.state = .down ∨ m.system.association.state = .associated
  scanCalls : ∀ c ∈ m.scanCalls, c = .handled ∨ ∃ status, c = .returned status
  scanContext : m.scanContext = none
  scanWaiters : m.scanWaiters = []
  scanCleanupWork : m.scanCleanupWork.request = .idle ∧ m.scanCleanupWork.running = none
  idle : ∀ k o, m.scanStates k = some o → o.Idle
  freed : ∀ k o, m.scanStates k = some o → o.Freed 4

section Halted

variable (h : Counted own m) (hh : Lts.Halted step Event.Internal m)

include h hh

/-- At rest the association machine is at rest. -/
theorem system_halted : Lts.Halted U80211.step Action.Internal m.system := by
  intro action ha
  have hallows : m.Allows action := by
    cases action with
    | invoke | scanBegin | scanEnd => exact ha.elim
    | _ => trivial
  rw [Option.eq_none_iff_forall_ne_some]
  intro system hs
  obtain ⟨m', hm'⟩ := association_enabled h hallows hs
  rw [hh (.association action) ha] at hm'
  cases hm'

/-- At rest every call of a scan waits, or is done. -/
theorem scanCall_of_halted {i : Nat} {c : ScanCall} (hc : m.scanCalls[i]? = some c) :
    c = .waiting 0 ∨ c = .handled ∨ ∃ status, c = .returned status := by
  obtain ⟨τ, hτ, hn⟩ := h
  have hstop := hh (.advance i {}) trivial
  simp only [step, hc] at hstop
  exact Run.stepScanCall_stopped hτ hn hc hstop

/-- No scan owns the device: it could go on wherever it is. -/
theorem owner_of_halted {w : Option Owner} (hw : m.Fits w) : w = none := by
  cases hx : w with
  | none => rfl
  | some x =>
    exfalso
    subst hx
    obtain ⟨o, ho, hshape⟩ := hw.own x rfl
    cases x with
    | call i k c =>
      have hk := hw.claimed i k c rfl
      rcases scanCall_of_halted h hh ((hw.calls i k c hk).mpr rfl) with rfl | rfl | ⟨r, rfl⟩ <;>
        cases hk
    | queued k =>
      have ho : m.scanStates k = some o := ho
      have hexpire := hh (.expire k) trivial
      have hstart := hh (.startWork k) trivial
      simp only [step, withScanState, ho, Option.map_eq_none_iff] at hexpire hstart
      have hlive : o.work.work.freed = false := hshape.freed.work
      have hsound : o.work.work.Sound := fun hf => absurd (hlive.symm.trans hf) (by decide)
      exact hshape.request.mpr rfl
        (DelayedWork.idle_of_halted hsound hexpire hstart hshape.running)
    | work k pc =>
      have ho : m.scanStates k = some o := ho
      have hrun : o.work.work.running = some pc := hshape.running
      obtain ⟨τ, hτ, hn⟩ := h
      obtain ⟨m', hm'⟩ := Run.stepScanWork_isSome hτ hn ho hrun
      have hstop := hh (.advanceWork k { allocated := false }) trivial
      simp [step, withScanState, ho, hrun, hm'] at hstop
    | cleanupQueued k =>
      have hne := hw.cleanup.request.mpr (Option.some_ne_none k)
      have hstart := hh .startCleanup trivial
      simp only [step, Option.map_eq_none_iff] at hstart
      rw [Work.start, if_pos ⟨h.reachable.cleanupRequest.resolve_left hne, hw.cleanup.running,
        hw.cleanup.freed⟩] at hstart
      cases hstart
    | cleanup pc =>
      have hrun : m.scanCleanupWork.running = some pc := hw.cleanup.running
      have hn := hh .advanceCleanup trivial
      simp only [step, hrun] at hn
      have hidle : o.work.work.running = none := hshape.running
      cases pc with
      | last k => cases hn
      | freeWork k =>
        have ho : m.scanStates k = some o := ho
        simp [stepScanCleanup, stepScanDestroy, withScanState, ho, DelayedWork.freeWork, Work.free,
          hidle] at hn
      | freeTimer k | freeBuffer k | freeState k =>
        have ho : m.scanStates k = some o := ho
        simp [stepScanCleanup, stepScanDestroy, withScanState, ho] at hn

/-- **When nothing can go on, no scan and no attempt is under way.** -/
theorem rest_of_halted : m.AtRest := by
  obtain ⟨w, hw⟩ := h.reachable.owner
  obtain rfl := owner_of_halted h hh hw
  have hsystem := atRest_of_halted (Reachable.system h.reachable) (system_halted h hh)
  have hscanning : m.system.association.state ≠ .scanning := fun hs => hw.state.mp hs rfl
  have hwaiters : m.scanWaiters = [] := by
    obtain ⟨τ, hτ, -⟩ := h
    by_contra hne
    obtain ⟨i, hi⟩ := List.exists_mem_of_ne_nil _ hne
    obtain ⟨k, hk, -⟩ := (Run.waiters hτ).queued i hi
    obtain ⟨x, hx, -⟩ := hw.outstanding_iff.mp hk
    cases hx
  have hcalls : ∀ c ∈ m.scanCalls, c = .handled ∨ ∃ status, c = .returned status := by
    intro c hm
    obtain ⟨i, hi⟩ := List.getElem?_of_mem hm
    refine (scanCall_of_halted h hh hi).resolve_left ?_
    rintro rfl
    obtain ⟨τ, hτ, -⟩ := h
    rcases (Run.waiters hτ).waiting i 0 hi with ⟨-, hin⟩ | ⟨h1, -⟩
    · rw [hwaiters] at hin
      cases hin
    · cases h1
  refine ⟨hsystem, ?_, hcalls, hw.context, hwaiters, ⟨hw.cleanup.idle rfl, hw.cleanup.running⟩,
    ?_, ?_⟩
  · rcases hsystem.state with hs | hs | hs
    · exact Or.inl hs
    · exact absurd hs hscanning
    · exact Or.inr hs
  · exact fun k o ho => hw.idle k o ho nofun
  · intro k o ho
    rcases h.reachable.released k o ho with hk | ⟨i, hc⟩ | hf
    · obtain ⟨x, hx, -⟩ := hw.outstanding_iff.mp hk
      cases hx
    · rcases hcalls _ (List.mem_of_getElem? hc) with he | ⟨r, he⟩ <;> cases he
    · exact hf

end Halted

/-- Who is at rest does nothing by itself. -/
theorem AtRest.halted (h : m.AtRest) : Lts.Halted step Event.Internal m := by
  intro event hi
  cases event with
  | association action =>
    have hn := h.system.halted action hi
    simp only [step, stepAssociation, hn]
    split <;> rfl
  | cache | invoke => exact hi.elim
  | advance i outcome =>
    simp only [step]
    split
    · rfl
    · next c hc =>
      rcases h.scanCalls c (List.mem_of_getElem? hc) with rfl | ⟨r, rfl⟩ <;> rfl
  | expire k | startWork k | advanceWork k outcome =>
    simp only [step, withScanState]
    split
    · rfl
    · next o ho =>
      obtain ⟨hq, hr, -⟩ := h.idle k o ho
      simp [DelayedWork.expire, DelayedWork.start, Work.start, hq, hr]
  | startCleanup => simp [step, Work.start, h.scanCleanupWork.1]
  | advanceCleanup => simp [step, h.scanCleanupWork.2]

/-- Every internal step lowers the weight. -/
theorem decreases_weight (own : MacAddress) :
    Lts.Decreases step Event.Internal (registered own) weight :=
  fun _ _ _ hr hi hs => (step_effect hs).weight_lt hr hi

/-- There is room for the references that the steps of an internal run may give out. -/
theorem counted_of_internalRun (h : Counted own m) (hroom : m.Room m.weight)
    {τ : List Transition} {m' : Machine} (hτ : Lts.InternalRun step Event.Internal m τ m') :
    Counted own m' := by
  have hle := hτ.length_add_le (decreases_weight own) h.reachable
  have hfits : m.Room (τ.length + 0) := fun a => by
    have hroom := hroom a
    push_cast
    omega
  exact h.run hτ.run (h.room hτ.run hfits).1

/-- **The device comes to rest.** From every reachable state on, in whatever order the device takes
the steps that nobody outside has to bring about, it takes no more of them than the weight of the
state tells. As long as no counter has gone around and there is room for as many references, it can
only stop in a state in which all calls have come to their end, no timer runs, no callback is to
run, and everything that was allocated for attempts and scans is freed. -/
theorem device_comes_to_rest (h : Reachable own m) :
    (∀ τ m', Lts.InternalRun step Event.Internal m τ m' → τ.length + m'.weight ≤ m.weight) ∧
    (Counted own m → m.Room m.weight →
      (∃ τ m', Lts.InternalRun step Event.Internal m τ m' ∧ m'.AtRest) ∧
      ∀ τ m', Lts.InternalRun step Event.Internal m τ m' →
        (Lts.Halted step Event.Internal m' ↔ m'.AtRest)) := by
  have hdecreases := decreases_weight own
  refine ⟨fun τ m' hτ => hτ.length_add_le hdecreases h, fun hcounted hroom => ⟨?_,
    fun τ m' hτ => ⟨?_, AtRest.halted⟩⟩⟩
  · obtain ⟨τ, m', hτ, hh⟩ := Lts.exists_halted hdecreases h
    exact ⟨τ, m', hτ, rest_of_halted (counted_of_internalRun hcounted hroom hτ) hh⟩
  · exact rest_of_halted (counted_of_internalRun hcounted hroom hτ)

open Machine.Scenario in
theorem device_comes_to_rest_scan :
    ∃ m τ m', Scenario.run (.invoke .scan :: advance 0 6) = some m ∧
      m.system.association.state = .scanning ∧
      Lts.InternalRun step Event.Internal m τ m' ∧ m'.AtRest ∧
      m'.system.association.state ≠ .scanning := by
  have hrun : (run (.invoke .scan :: advance 0 6)).map
      (fun m => (m.system.association.state, decide (m.weight ≤ 1000))) =
        some (.scanning, true) := by decide
  obtain ⟨m, hm, he⟩ := exists_of_run hrun
  rw [Prod.mk.injEq, decide_eq_true_eq] at he
  obtain ⟨hst, hweight⟩ := he
  have hlen : (trace (.invoke .scan :: advance 0 6)).length + m.weight + 2 ≤ 2 ^ 32 := by
    have hseven : (trace (.invoke .scan :: advance 0 6)).length = 7 := by decide
    omega
  have hinit := counted_registered U80211.Scenario.device
  obtain ⟨hn, hroom⟩ := hinit.room (run_trace hm) (room_registered hlen)
  obtain ⟨-, hrests⟩ := device_comes_to_rest (run_trace hm).reachable
  obtain ⟨⟨τ, m', hτ, hrest⟩, -⟩ := hrests (hinit.run (run_trace hm) hn) hroom
  refine ⟨m, τ, m', hm, hst, hτ, hrest, ?_⟩
  rcases hrest.state with hs | hs <;> rw [hs] <;> decide

end Machine

end U80211
