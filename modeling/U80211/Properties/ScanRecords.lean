import U80211.Properties.Records
import U80211.Properties.ScanLife

/-!
# The records of a scan in a run of the machine

What has been stored for a scan is what its loop has read, followed by what the ring buffer holds.

* `ScanState.Buffers`: the ring buffer holds whole records, or all of them but the first piece of
  the first one
* `Run.recorded`: in every run that is so of every scan
* `scan_records_whole`: hence the loop reads the records that were stored, each one once and as a
  whole, and ends with an empty buffer
-/

namespace U80211

open Memory WorkQueue

/-- The scan listens, or is about to. -/
def ScanPc.listens : ScanPc → Bool
  | .listen _ => true
  | _ => false

/-- `scan_work` has left its loop and stored no new channel yet. -/
def ScanPc.left : ScanPc → Bool
  | .setCurrent _ | .complete | .enqueueCleanup => true
  | _ => false

namespace ScanState

variable {o o' : ScanState} {records : List Record}

/-! ## What the ring buffer holds -/

/-- The ring buffer holds the records, but for what has been read of the first one. -/
def Buffers (o : ScanState) (records : List Record) : Prop :=
  match o.work.work.running with
  | some (.readRsn beacon rsnSize) =>
    ∃ r rest, records = r :: rest ∧ beacon = r.beacon.head ∧
      rsnSize = UInt64.ofNat r.beacon.rsn.length ∧
      o.buffer.Holds (r.beacon.rsn ++ rest.flatMap Record.bytes)
  | _ => o.buffer.Holds (records.flatMap Record.bytes)

/-- What holds of a scan state whose buffer has the given records. -/
structure Framed (o : ScanState) (records : List Record) : Prop where
  buffers : o.Buffers records
  rsn : ∀ r ∈ records, r.beacon.rsn.length ≤ maxRsnSize
  size : o.buffer.size = bufferSize
  channel : 0 < o.currentChannel ∧ o.currentChannel ≤ channelCount
  -- a channel fills the ring buffer once at most
  write : o.buffer.write.toNat ≤ bufferSize.toNat * o.currentChannel
  room : o.receiving = true ∨ (∃ pc, o.work.work.running = some pc ∧ pc.listens = true) →
    o.buffer.read.toNat + bufferSize.toNat ≤ bufferSize.toNat * o.currentChannel
  next : ∀ channel, o.work.work.running = some (.setCurrent channel) →
    o.currentChannel < channel ∧ channel ≤ channelCount
  left : ∀ pc, o.work.work.running = some pc → pc.left = true → records = []

/-- The callback is not between the two reads of a record. -/
def Whole (o : ScanState) : Prop :=
  ∀ beacon rsnSize, o.work.work.running ≠ some (.readRsn beacon rsnSize)

theorem buffers_iff (h : o.Whole) :
    o.Buffers records ↔ o.buffer.Holds (records.flatMap Record.bytes) := by
  unfold Buffers
  split
  · next beacon rsnSize hr => exact absurd hr (h beacon rsnSize)
  · exact Iff.rfl

theorem whole_of_running {pc : ScanPc} (h : o.work.work.running = some pc)
    (hpc : ∀ beacon rsnSize, pc ≠ .readRsn beacon rsnSize) : o.Whole := by
  intro beacon rsnSize hr
  rw [h, Option.some.injEq] at hr
  exact hpc beacon rsnSize hr

theorem Framed.holds (h : o.Framed records) (hw : o.Whole) :
    o.buffer.Holds (records.flatMap Record.bytes) := (buffers_iff hw).mp h.buffers

/-- A step that neither reads nor writes. -/
theorem Framed.congr (h : o.Framed records) (hbuffer : o'.buffer = o.buffer)
    (hchannel : o'.currentChannel = o.currentChannel) (hwhole : o.Whole) (hwhole' : o'.Whole)
    (hroom : o'.receiving = true ∨ (∃ pc, o'.work.work.running = some pc ∧ pc.listens = true) →
      o.buffer.read.toNat + bufferSize.toNat ≤ bufferSize.toNat * o.currentChannel)
    (hnext : ∀ channel, o'.work.work.running = some (.setCurrent channel) →
      o.currentChannel < channel ∧ channel ≤ channelCount)
    (hleft : ∀ pc, o'.work.work.running = some pc → pc.left = true → records = []) :
    o'.Framed records where
  buffers := by
    rw [buffers_iff hwhole', hbuffer]
    exact h.holds hwhole
  rsn := h.rsn
  size := by rw [hbuffer]; exact h.size
  channel := by rw [hchannel]; exact h.channel
  write := by rw [hbuffer, hchannel]; exact h.write
  room := by rw [hbuffer, hchannel]; exact hroom
  next := by rw [hchannel]; exact hnext
  left := hleft

/-- A new scan. -/
theorem framed_allocate {buffer : RingBuffer} {memory : Nat → UInt8} {channel : Nat}
    (hb : ringbufferInit bufferSize (some memory) = .ok buffer)
    (hn : nextChannel 0 = some (some channel)) : (allocate buffer channel).Framed [] := by
  obtain rfl : { size := bufferSize, write := 0, read := 0, data := memory } = buffer := by
    rw [ringbufferInit, if_neg (by decide)] at hb
    exact Except.ok.inj hb
  have hchannel : 0 < channel ∧ channel ≤ channelCount := by
    rcases nextChannel_cases (Nat.zero_le channelCount) with hnone | ⟨c, hc, hlt, hle⟩
    · rw [hnone] at hn
      cases hn
    · rw [hc] at hn
      cases hn
      exact ⟨hlt, hle⟩
  have hsize : 0 < bufferSize.toNat := by decide
  refine ⟨⟨hsize, rfl, Nat.zero_le _, fun i v hv => by cases hv⟩, ?_, rfl, hchannel,
    Nat.zero_le _, ?_, ?_, ?_⟩
  · intro r hr
    cases hr
  · rintro (hr | ⟨pc, hr, -⟩) <;> cases hr
  · intro c hr
    cases hr
  · intro pc hr
    cases hr

/-! ## Steps -/

theorem stores_bound {beacon : BeaconData} (h : o.Framed records) (hs : o.Stores beacon)
    (hw : o.Whole) :
    o.buffer.write.toNat + (beaconDataSize + beacon.rsn.length) ≤
      bufferSize.toNat * o.currentChannel := by
  obtain ⟨hreceiving, -, hfree⟩ := hs
  have hroom := h.room (Or.inl hreceiving)
  have hholds := h.holds hw
  have hwrite := hholds.write
  have hspace := hholds.room
  rw [hholds.freeSpace, h.size] at hfree
  rw [h.size] at hspace
  omega

/-- A response is stored behind the records. -/
theorem Framed.response (h : o.Framed records) (hw : o.Whole)
    (hleft : ∀ pc, o.work.work.running = some pc → pc.left = false) {beacon : BeaconData}
    (hs : o.Stores beacon) (pointer : BeaconPointer) :
    ∃ o', o.processResponse beacon pointer = some o' ∧
      o'.currentChannel = o.currentChannel ∧ o'.work = o.work ∧
      o'.buffer.read = o.buffer.read ∧
      o'.Framed (records ++ [⟨beacon.stamped o.currentChannel, pointer⟩]) := by
  have hbound := stores_bound h hs hw
  have hmax : bufferSize.toNat * channelCount < 2 ^ 64 := by decide
  have hle := Nat.mul_le_mul_left bufferSize.toNat h.channel.2
  obtain ⟨buffer, hp, hholds, hsize, hread⟩ :=
    processResponse_of_stores hs (h.holds hw) pointer (by omega)
  have hflat : (records ++ [(⟨beacon.stamped o.currentChannel, pointer⟩ : Record)]).flatMap
      Record.bytes = records.flatMap Record.bytes ++
        Record.bytes ⟨beacon.stamped o.currentChannel, pointer⟩ := by
    rw [List.flatMap_append, List.flatMap_singleton]
  have hwrite := hholds.write
  rw [← hflat] at hholds
  refine ⟨_, hp, rfl, rfl, hread, ?_, ?_, hsize.trans h.size, h.channel, ?_, ?_, h.next, ?_⟩
  · exact (buffers_iff (o := { o with buffer }) hw).mpr hholds
  · intro r hr
    rcases List.mem_append.mp hr with hr | hr
    · exact h.rsn r hr
    · rw [List.mem_singleton] at hr
      subst hr
      exact hs.2.1
  · have hold := (h.holds hw).write
    rw [hread, List.length_append, Record.length_bytes] at hwrite
    change _ = _ + (_ + (_ + beacon.rsn.length)) at hwrite
    show buffer.write.toNat ≤ bufferSize.toNat * o.currentChannel
    omega
  · intro hlistens
    show buffer.read.toNat + bufferSize.toNat ≤ bufferSize.toNat * o.currentChannel
    rw [hread]
    exact h.room hlistens
  · intro pc hpc hl
    rw [hleft pc hpc] at hl
    cases hl

/-- The loop ends at a channel that is left to scan, or at the end of the scan. -/
theorem Framed.leaveDrain (h : o.Framed []) (hw : o.Whole) (hreceiving : o.receiving = false) :
    ∃ pc, o.leaveDrain = some pc ∧ pc.left = true ∧ (o.goto (some pc)).Framed [] := by
  have hcongr {pc : ScanPc} (hpc : ∀ beacon rsnSize, pc ≠ .readRsn beacon rsnSize)
      (hlistens : pc.listens = false)
      (hnext : ∀ channel, pc = .setCurrent channel →
        o.currentChannel < channel ∧ channel ≤ channelCount) : (o.goto (some pc)).Framed [] := by
    refine h.congr rfl rfl hw (whole_of_running rfl hpc) ?_ ?_ fun _ _ _ => rfl
    · rintro (hr | ⟨pc', hr, hl⟩)
      · rw [goto_receiving, hreceiving] at hr
        cases hr
      · cases hr
        rw [hlistens] at hl
        cases hl
    · intro channel hr
      exact hnext channel (Option.some.inj hr)
  rcases nextChannel_cases h.channel.2 with hn | ⟨channel, hn, hlt, hle⟩
  · refine ⟨.complete, ?_, rfl, hcongr (by simp) rfl (by simp)⟩
    rw [ScanState.leaveDrain, hn]
    rfl
  · refine ⟨.setCurrent channel, ?_, rfl, hcongr (by simp) rfl ?_⟩
    · rw [ScanState.leaveDrain, hn]
      rfl
    · intro c hc
      cases hc
      exact ⟨hlt, hle⟩

/-- The head of the loop reads the first piece of the first record, or finds the buffer empty. -/
theorem Framed.drain (h : o.Framed records) (hr : o.work.work.running = some .drain)
    (hreceiving : o.receiving = false) :
    (records = [] ∧ ∃ pc, o.drain = some (o, pc) ∧ o.leaveDrain = some pc ∧ pc.left = true ∧
        (o.goto (some pc)).Framed []) ∨
      ∃ r rest buffer, records = r :: rest ∧
        o.drain = some ({ o with buffer },
          .readRsn r.beacon.head (UInt64.ofNat r.beacon.rsn.length)) ∧
        (({ o with buffer } : ScanState).goto
          (some (.readRsn r.beacon.head (UInt64.ofNat r.beacon.rsn.length)))).Framed records := by
  have hw : o.Whole := whole_of_running hr (by simp)
  have hholds := h.holds hw
  cases records with
  | nil =>
    obtain ⟨pc, hpc, hl, hframed⟩ := h.leaveDrain hw hreceiving
    refine Or.inl ⟨rfl, pc, ?_, hpc, hl, hframed⟩
    rw [drain_empty hholds, hpc]
    rfl
  | cons r rest =>
    rw [List.flatMap_cons] at hholds
    obtain ⟨buffer, hd, hholds', hsize, hwrite⟩ :=
      drain_record hholds (h.rsn r List.mem_cons_self)
    refine Or.inr ⟨r, rest, buffer, rfl, hd, ⟨r, rest, rfl, rfl, rfl, hholds'⟩, h.rsn,
      hsize.trans h.size, h.channel, ?_, ?_, ?_, ?_⟩
    · show buffer.write.toNat ≤ _
      rw [hwrite]
      exact h.write
    · rintro (hrec | ⟨pc, hpc, hl⟩)
      · rw [goto_receiving, hreceiving] at hrec
        cases hrec
      · cases hpc
        cases hl
    · intro channel hpc
      cases hpc
    · intro pc hpc hl
      cases hpc
      cases hl

/-- The second read gives the first record back, and leaves the other ones. -/
theorem Framed.readRsn (h : o.Framed records) {beacon : BeaconData} {rsnSize : UInt64}
    (hr : o.work.work.running = some (.readRsn beacon rsnSize)) (hreceiving : o.receiving = false) :
    ∃ r rest buffer, records = r :: rest ∧
      ringbufferRead o.buffer rsnSize = some (buffer, r.beacon.rsn) ∧
      { beacon with rsn := r.beacon.rsn } = r.beacon ∧
      o.readRsn beacon rsnSize = some ({ o with buffer }, .ok
        (if r.beacon.channel.toNat ≠ o.currentChannel ∨ validBssid r.beacon.macAddress = false then
          none else some r.beacon)) ∧
      ∀ pc : ScanPc, (pc = .drain ∨ ∃ ap, pc = .insert ap) →
        (({ o with buffer } : ScanState).goto (some pc)).Framed rest := by
  have hbuffers := h.buffers
  unfold Buffers at hbuffers
  rw [hr] at hbuffers
  obtain ⟨r, rest, rfl, rfl, rfl, hholds⟩ := hbuffers
  have hrsn := h.rsn r List.mem_cons_self
  obtain ⟨buffer, hread, hholds', hsize, hwrite⟩ := read_rsn hholds hrsn
  refine ⟨r, rest, buffer, rfl, hread, rfl, readRsn_record hrsn hread, ?_⟩
  rintro pc hpc
  have hquiet : (∀ beacon rsnSize, pc ≠ .readRsn beacon rsnSize) ∧ pc.listens = false ∧
      (∀ channel, pc ≠ .setCurrent channel) ∧ pc.left = false := by
    rcases hpc with rfl | ⟨ap, rfl⟩ <;> exact ⟨by simp, rfl, by simp, rfl⟩
  obtain ⟨hwhole, hlistens, hcurrent, hleft⟩ := hquiet
  refine ⟨?_, fun r' hr' => h.rsn r' (List.mem_cons_of_mem _ hr'), hsize.trans h.size, h.channel,
    ?_, ?_, ?_, ?_⟩
  · exact (buffers_iff (whole_of_running rfl hwhole)).mpr hholds'
  · show buffer.write.toNat ≤ _
    rw [hwrite]
    exact h.write
  · rintro (hrec | ⟨pc', hpc', hl⟩)
    · rw [goto_receiving, hreceiving] at hrec
      cases hrec
    · cases hpc'
      rw [hlistens] at hl
      cases hl
  · intro channel hpc'
    exact absurd (Option.some.inj hpc') (hcurrent channel)
  · intro pc' hpc' hl
    cases hpc'
    rw [hleft] at hl
    cases hl

/-- A step of a scan whose callback does not run. -/
theorem Framed.rest (h : o.Framed records) (hbuffer : o'.buffer = o.buffer)
    (hchannel : o'.currentChannel = o.currentChannel) (hr : o.work.work.running = none)
    (hr' : o'.work.work.running = none) (hreceiving : o'.receiving = true →
      o.buffer.read.toNat + bufferSize.toNat ≤ bufferSize.toNat * o.currentChannel) :
    o'.Framed records := by
  refine h.congr hbuffer hchannel ?_ ?_ ?_ ?_ ?_
  · intro beacon rsnSize he
    rw [hr] at he
    cases he
  · intro beacon rsnSize he
    rw [hr'] at he
    cases he
  · rintro (hrec | ⟨pc, he, -⟩)
    · exact hreceiving hrec
    · rw [hr'] at he
      cases he
  · intro channel he
    rw [hr'] at he
    cases he
  · intro pc he
    rw [hr'] at he
    cases he

/-- The callback goes on at a line that has nothing to do with the ring buffer. -/
theorem Framed.goto (h : o.Framed records) {pc : ScanPc} (hw : o.Whole)
    (hbuffer : o'.buffer = o.buffer) (hchannel : o'.currentChannel = o.currentChannel)
    (hr : o'.work.work.running = some pc) (hlistens : pc.listens = false)
    (hwhole : o'.Whole) (hcurrent : ∀ channel, pc ≠ .setCurrent channel)
    (hreceiving : o'.receiving = true → o.receiving = true)
    (hleft : pc.left = true → records = []) : o'.Framed records := by
  refine h.congr hbuffer hchannel hw hwhole ?_ ?_ ?_
  · rintro (hrec | ⟨pc', he, hl⟩)
    · exact h.room (Or.inl (hreceiving hrec))
    · rw [hr, Option.some.injEq] at he
      subst he
      rw [hlistens] at hl
      cases hl
  · intro channel he
    rw [hr, Option.some.injEq] at he
    exact absurd he (hcurrent channel)
  · intro pc' he hl
    rw [hr, Option.some.injEq] at he
    subst he
    exact hleft hl

/-- The callback listens. -/
theorem Framed.listen (h : o.Framed records) {line : Listen}
    (hr : o.work.work.running = some (.listen line)) :
    ((o.goto (line.next.map .listen)).listen line).Framed records := by
  have hroom := h.room (Or.inr ⟨_, hr, rfl⟩)
  have hw : o.Whole := whole_of_running hr (by simp)
  cases line with
  | setChannel | receive | sendProbe =>
    refine h.congr rfl rfl hw (whole_of_running rfl (by simp)) (fun _ => hroom) ?_ ?_
    · intro channel he
      cases he
    · intro pc he hl
      cases he
      cases hl
  | arm =>
    have hnone : ((o.goto (Listen.arm.next.map .listen)).listen .arm).work.work.running = none :=
      DelayedWork.enqueue_running _
    refine h.congr rfl rfl hw ?_ (fun _ => hroom) ?_ ?_
    · intro beacon rsnSize he
      rw [hnone] at he
      cases he
    · intro channel he
      rw [hnone] at he
      cases he
    · intro pc he
      rw [hnone] at he
      cases he

/-- The next channel starts with an empty buffer. -/
theorem Framed.setCurrent (h : o.Framed records) {channel : Nat}
    (hr : o.work.work.running = some (.setCurrent channel)) :
    records = [] ∧ (({ o with currentChannel := channel } : ScanState).goto
      (some (.listen .setChannel))).Framed [] := by
  obtain ⟨hlt, hle⟩ := h.next channel hr
  obtain rfl := h.left _ hr rfl
  have hholds := h.holds (whole_of_running hr (by simp))
  have hwrite := hholds.write
  have hbound := h.write
  have hmul := Nat.mul_le_mul_left bufferSize.toNat (show o.currentChannel + 1 ≤ channel from hlt)
  rw [Nat.mul_add, Nat.mul_one] at hmul
  rw [List.flatMap_nil, List.length_nil, Nat.add_zero] at hwrite
  refine ⟨rfl, ⟨hholds, h.rsn, h.size, ⟨Nat.lt_of_le_of_lt (Nat.zero_le _) hlt, hle⟩, ?_, ?_, ?_,
    fun _ _ _ => rfl⟩⟩
  · show o.buffer.write.toNat ≤ bufferSize.toNat * channel
    omega
  · intro _
    show o.buffer.read.toNat + bufferSize.toNat ≤ bufferSize.toNat * channel
    omega
  · intro c hc
    cases hc

end ScanState

namespace Machine

variable {m m' : Machine} {event : Event} {own : MacAddress} {τ : List Transition} {k : Nat}
variable {o o' : ScanState}

/-! ## What is stored and what is read -/

/-- The response that a step stores for scan `k`, and the channel that the scan is on. -/
def stored (k : Nat) (t : Transition) : Option (BeaconData × Nat) :=
  match t.action with
  | .advance i _ =>
    match t.before.scanCalls[i]?, t.before.scanStates k with
    | some (.response beacon), some o =>
      if t.before.scanContext = some k ∧ o.Stores beacon then some (beacon, o.currentChannel)
      else none
    | _, _ => none
  | _ => none

/-- The record that a step of `scan_work` has read with its second read, and the channel that the
scan is on. -/
def readBy (k : Nat) (t : Transition) : Option (BeaconData × Nat) :=
  match t.action with
  | .advanceWork k' _ =>
    if k' = k then
      (t.before.scanStates k).bind fun o =>
        match o.work.work.running with
        | some (.readRsn beacon rsnSize) =>
          (ringbufferRead o.buffer rsnSize).map fun r =>
            ({ beacon with rsn := r.2 }, o.currentChannel)
        | _ => none
    else none
  | _ => none

/-- The responses that have been stored for scan `k`, as they are stored. -/
def accepted (k : Nat) (τ : List Transition) : List (BeaconData × Nat) :=
  (τ.filterMap (stored k)).map fun p => (p.1.stamped p.2, p.2)

/-- The records that scan `k` has read. -/
def consumed (k : Nat) (τ : List Transition) : List (BeaconData × Nat) := τ.filterMap (readBy k)

theorem accepted_concat (k : Nat) (τ : List Transition) (t : Transition) :
    accepted k (τ ++ [t]) =
      accepted k τ ++ (stored k t).toList.map fun p => (p.1.stamped p.2, p.2) := by
  rw [accepted, Lts.filterMap_concat, List.map_append]
  rfl

theorem consumed_concat (k : Nat) (τ : List Transition) (t : Transition) :
    consumed k (τ ++ [t]) = consumed k τ ++ (readBy k t).toList := Lts.filterMap_concat τ t

theorem stored_of_call {i : Nat} {outcome : ScanOutcome} {c : ScanCall}
    (hc : m.scanCalls[i]? = some c) (hne : ∀ beacon, c ≠ .response beacon) (k : Nat) :
    stored k ⟨m, .advance i outcome, m'⟩ = none := by
  simp only [stored, hc]
  split
  · next beacon o hcall ho => exact absurd (Option.some.inj hcall) (hne beacon)
  · rfl

theorem stored_of_response {i : Nat} {outcome : ScanOutcome} {beacon : BeaconData}
    (hc : m.scanCalls[i]? = some (.response beacon)) (ho : m.scanStates k = some o) :
    stored k ⟨m, .advance i outcome, m'⟩ =
      if m.scanContext = some k ∧ o.Stores beacon then some (beacon, o.currentChannel)
      else none := by
  simp only [stored, hc, ho]

theorem stored_of_context {i : Nat} {outcome : ScanOutcome} (hx : m.scanContext ≠ some k) :
    stored k ⟨m, .advance i outcome, m'⟩ = none := by
  simp only [stored]
  split
  · exact if_neg fun h => hx h.1
  · rfl

theorem readBy_of_ne {k' : Nat} {outcome : ScanOutcome} (hk : k' ≠ k) :
    readBy k' ⟨m, .advanceWork k outcome, m'⟩ = none := if_neg (Ne.symm hk)

theorem readBy_of_running {outcome : ScanOutcome} {pc : ScanPc} (ho : m.scanStates k = some o)
    (hr : o.work.work.running = some pc) (hpc : ∀ beacon rsnSize, pc ≠ .readRsn beacon rsnSize) :
    readBy k ⟨m, .advanceWork k outcome, m'⟩ = none := by
  simp only [readBy, if_true, ho, Option.bind_some]
  split
  · next beacon rsnSize he =>
    rw [hr, Option.some.injEq] at he
    exact absurd he (hpc beacon rsnSize)
  · rfl

theorem readBy_of_readRsn {outcome : ScanOutcome} {beacon : BeaconData} {rsnSize : UInt64}
    {buffer : RingBuffer} {rsn : List UInt8} (ho : m.scanStates k = some o)
    (hr : o.work.work.running = some (.readRsn beacon rsnSize))
    (hread : ringbufferRead o.buffer rsnSize = some (buffer, rsn)) :
    readBy k ⟨m, .advanceWork k outcome, m'⟩ = some ({ beacon with rsn }, o.currentChannel) := by
  simp only [readBy, if_true, ho, Option.bind_some, hr, hread, Option.map_some]

/-! ## The invariant -/

/-- A call to `u80211_scan` uses scan state `k`. -/
def Called (m : Machine) (k : Nat) : Prop := ∃ c ∈ m.scanCalls, c.scan = some k

/-- `cleanup_scan` has been asked to free scan state `k`, or does so. -/
def Cleans (m : Machine) (k : Nat) : Prop :=
  (m.scanCleanupWork.request ≠ .idle ∧ m.scanCleanupArgument = k) ∨
    ∃ pc, m.scanCleanupWork.running = some pc ∧ pc.scan = k

/-- What has been stored for a scan has been read, or is in its ring buffer. -/
structure Recorded (τ : List Transition) (m : Machine) (k : Nat) (o : ScanState) : Prop where
  records : ∃ records : List Record,
    accepted k τ = consumed k τ ++ records.map (fun r => (r.beacon, o.currentChannel)) ∧
      o.Framed records ∧ (m.Cleans k → records = [])
  call : m.Called k → o.buffer.read = 0

/-- So it is for all scans. -/
def Recording (τ : List Transition) (m : Machine) : Prop :=
  ∀ k, (m.scanStates k = none → accepted k τ = [] ∧ consumed k τ = []) ∧
    ∀ o, m.scanStates k = some o → Recorded τ m k o

theorem called_of_set {i : Nat} {c c' : ScanCall} (hc : m.scanCalls[i]? = some c)
    (hcalls : m'.scanCalls = m.scanCalls.set i c') (hscan : c'.scan = some k → c.scan = some k)
    (h : m'.Called k) : m.Called k := by
  obtain ⟨d, hd, hk⟩ := h
  rw [hcalls] at hd
  rcases List.mem_or_eq_of_mem_set hd with hd | rfl
  · exact ⟨d, hd, hk⟩
  · exact ⟨c, List.mem_of_getElem? hc, hscan hk⟩

theorem SameScans.called (h : SameScans m.scanCalls m'.scanCalls) (hk : m'.Called k) :
    m.Called k := by
  obtain ⟨d, hd, hk⟩ := hk
  obtain ⟨i, hi⟩ := List.getElem?_of_mem hd
  exact ⟨d, List.mem_of_getElem? ((h i d (by rw [hk]; simp)).mp hi), hk⟩

/-- While `scan_work` or `cleanup_scan` has a scan state, no call has it. -/
theorem Fits.not_called {x : Owner} (h : m.Fits (some x)) (hk : x.scan = k)
    (hcall : ∀ i k c, x ≠ .call i k c) : ¬ m.Called k := by
  rintro ⟨c, hc, hscan⟩
  obtain ⟨i, hi⟩ := List.getElem?_of_mem hc
  by_cases hclaimed : c.claimed = some k
  · exact hcall i k c (Option.some.inj ((h.calls i k c hclaimed).mp hi))
  · have hclaim : c = .scanClaim k := by
      cases c <;> cases hscan <;> first | rfl | exact absurd rfl hclaimed
    subst hclaim
    exact (h.unclaimed i k hi).2.1 x rfl hk

/-- The cleanup gets a scan state when all else is done with it. -/
theorem Fits.of_cleans {w : Option Owner} (h : m.Fits w) (hk : m.Cleans k) :
    w = some (.cleanupQueued k) ∨ ∃ pc, w = some (.cleanup pc) ∧ pc.scan = k := by
  rcases hk with ⟨hr, rfl⟩ | ⟨pc, hr, hk⟩
  · exact Or.inl (h.of_cleanupPending hr)
  · exact Or.inr ⟨pc, h.of_cleaning hr, hk⟩

/-- A step that neither stores nor reads a record of the scan. -/
theorem Recorded.moved (h : Recorded τ m k o) (hs : stored k ⟨m, event, m'⟩ = none)
    (hr : readBy k ⟨m, event, m'⟩ = none) (hcalled : m'.Called k → m.Called k)
    (hcleans : m'.Cleans k → m.Cleans k ∨ ∀ records, o.Framed records → records = [])
    (hchannel : o'.currentChannel = o.currentChannel) (hread : o'.buffer.read = o.buffer.read)
    (hframed : ∀ records, o.Framed records → o'.Framed records) :
    Recorded (τ ++ [⟨m, event, m'⟩]) m' k o' := by
  obtain ⟨⟨records, hrecords, hf, hclean⟩, hcall⟩ := h
  refine ⟨⟨records, ?_, hframed records hf, fun hk => ?_⟩, fun hk => ?_⟩
  · rw [accepted_concat, consumed_concat, hs, hr, hchannel, hrecords]
    simp
  · rcases hcleans hk with hk | hnil
    · exact hclean hk
    · exact hnil records hf
  · rw [hread]
    exact hcall (hcalled hk)

/-- A step that has nothing to do with the scans. -/
theorem Recording.frame (h : Recording τ m) (hstates : m'.scanStates = m.scanStates)
    (hs : ∀ k, stored k ⟨m, event, m'⟩ = none) (hr : ∀ k, readBy k ⟨m, event, m'⟩ = none)
    (hcalled : ∀ k, m'.Called k → m.Called k) (hcleans : ∀ k, m'.Cleans k → m.Cleans k) :
    Recording (τ ++ [⟨m, event, m'⟩]) m' := by
  intro k
  rw [hstates]
  refine ⟨fun hk => ?_, fun o ho => ?_⟩
  · obtain ⟨ha, hc⟩ := (h k).1 hk
    rw [accepted_concat, consumed_concat, ha, hc, hs, hr]
    exact ⟨rfl, rfl⟩
  · exact ((h k).2 o ho).moved (hs k) (hr k) (hcalled k) (fun hk => Or.inl (hcleans k hk)) rfl rfl
      fun _ hf => hf

/-- A step of one scan. -/
theorem Recording.update (h : Recording τ m) (ho : m.scanStates k = some o)
    (hstates : m'.scanStates = Function.update m.scanStates k (some o'))
    (hs : ∀ k' ≠ k, stored k' ⟨m, event, m'⟩ = none)
    (hr : ∀ k' ≠ k, readBy k' ⟨m, event, m'⟩ = none)
    (hcalled : ∀ k' ≠ k, m'.Called k' → m.Called k')
    (hcleans : ∀ k' ≠ k, m'.Cleans k' → m.Cleans k')
    (hown : Recorded τ m k o → Recorded (τ ++ [⟨m, event, m'⟩]) m' k o') :
    Recording (τ ++ [⟨m, event, m'⟩]) m' := by
  intro k'
  by_cases hk : k' = k
  · subst hk
    rw [hstates, Function.update_self]
    refine ⟨fun he => absurd he (Option.some_ne_none _), fun o₁ ho₁ => ?_⟩
    rw [Option.some.injEq] at ho₁
    subst ho₁
    exact hown ((h k').2 o ho)
  · rw [hstates, Function.update_of_ne hk]
    refine ⟨fun hn => ?_, fun o₁ ho₁ => ?_⟩
    · obtain ⟨ha, hc⟩ := (h k').1 hn
      rw [accepted_concat, consumed_concat, ha, hc, hs k' hk, hr k' hk]
      exact ⟨rfl, rfl⟩
    · exact ((h k').2 o₁ ho₁).moved (hs k' hk) (hr k' hk) (hcalled k' hk)
        (fun hc => Or.inl (hcleans k' hk hc)) rfl rfl fun _ hf => hf

/-! ## Steps -/

/-- A line of `scan_work` that does not read the second piece of a record. -/
theorem Recording.work (h : Recording τ m) {outcome : ScanOutcome} {pc : ScanPc}
    (ho : m.scanStates k = some o) (hrun : o.work.work.running = some pc)
    (hpc : ∀ beacon rsnSize, pc ≠ .readRsn beacon rsnSize)
    (hstates : m'.scanStates = Function.update m.scanStates k (some o'))
    (hcalls : m'.scanCalls = m.scanCalls)
    (hcleans : ∀ k', m'.Cleans k' → m.Cleans k' ∨ k' = k ∧ pc.left = true)
    (hchannel : o'.currentChannel = o.currentChannel ∨ ∀ records, o.Framed records → records = [])
    (hread : m.Called k → o'.buffer.read = o.buffer.read)
    (hframed : ∀ records, o.Framed records → o'.Framed records) :
    Recording (τ ++ [⟨m, .advanceWork k outcome, m'⟩]) m' := by
  have hcalled (k' : Nat) (hk : m'.Called k') : m.Called k' := by
    rwa [Called, hcalls] at hk
  refine h.update ho hstates (fun _ _ => rfl) (fun k' hk => readBy_of_ne hk)
    (fun k' _ => hcalled k') ?_ ?_
  · intro k' hk hc
    exact (hcleans k' hc).resolve_right fun he => hk he.1
  · rintro ⟨⟨records, hrecords, hf, hclean⟩, hcall⟩
    refine ⟨⟨records, ?_, hframed records hf, fun hk => ?_⟩, fun hk => ?_⟩
    · rw [accepted_concat, consumed_concat, readBy_of_running ho hrun hpc, hrecords]
      rcases hchannel with he | hnil
      · rw [he]
        simp [stored]
      · rw [hnil records hf]
        simp [stored]
    · rcases hcleans k hk with hk | ⟨-, hleft⟩
      · exact hclean hk
      · exact hf.left pc hrun hleft
    · rw [hread (hcalled k hk)]
      exact hcall (hcalled k hk)

/-- The second read takes the record that was stored first. -/
theorem Recording.readRsn (h : Recording τ m) {w : Option Owner} (hw : m.Fits w)
    {outcome : ScanOutcome} {beacon : BeaconData} {rsnSize : UInt64} {pc : ScanPc}
    (ho : m.scanStates k = some o) (hrun : o.work.work.running = some (.readRsn beacon rsnSize))
    (hpc : pc = .drain ∨ ∃ ap, pc = .insert ap) {r : Except Unit (Option BeaconData)}
    (hr : o.readRsn beacon rsnSize = some (o', r))
    (hstates : m'.scanStates = Function.update m.scanStates k (some (o'.goto (some pc))))
    (hcalls : m'.scanCalls = m.scanCalls) (hcleans : ∀ k', m'.Cleans k' → m.Cleans k') :
    Recording (τ ++ [⟨m, .advanceWork k outcome, m'⟩]) m' := by
  obtain rfl := hw.of_running ho hrun
  have hshape := hw.shapes (x := .work k (.readRsn beacon rsnSize)) ho
  have hnot : ¬ m.Called k := hw.not_called rfl (by simp)
  have hcalled (k' : Nat) (hk : m'.Called k') : m.Called k' := by
    rwa [Called, hcalls] at hk
  refine h.update ho hstates (fun _ _ => rfl) (fun k' hk => readBy_of_ne hk)
    (fun k' _ => hcalled k') (fun k' _ => hcleans k') ?_
  rintro ⟨⟨records, hrecords, hf, hclean⟩, hcall⟩
  obtain ⟨first, rest, buffer, rfl, hread, hfirst, hresult, hframed⟩ :=
    hf.readRsn hrun hshape.receiving
  rw [hr, Option.some.injEq, Prod.mk.injEq] at hresult
  obtain ⟨rfl, -⟩ := hresult
  refine ⟨⟨rest, ?_, hframed pc hpc, fun hk => ?_⟩, fun hk => absurd (hcalled k hk) hnot⟩
  · rw [accepted_concat, consumed_concat, readBy_of_readRsn ho hrun hread, hfirst, hrecords]
    simp [stored]
  · exact absurd (hclean (hcleans k hk)) (List.cons_ne_nil _ _)

/-- A call allocates a scan state, with an empty buffer. -/
theorem Recording.allocate (h : Recording τ m) {w : Option Owner} (hw : m.Fits w) {i channel : Nat}
    {outcome : ScanOutcome} {buffer : RingBuffer} (hc : m.scanCalls[i]? = some .scanAllocate)
    (hb : ringbufferInit bufferSize (some outcome.memory) = .ok buffer)
    (hn : nextChannel 0 = some (some channel))
    (hm : m' = ({ m with nextScanState := m.nextScanState + 1 }.setScanState m.nextScanState
      (.allocate buffer channel)).setScanCall i (.scanClaim m.nextScanState)) :
    Recording (τ ++ [⟨m, .advance i outcome, m'⟩]) m' := by
  have hfresh : m.scanStates m.nextScanState = none := by
    by_contra hne
    obtain ⟨o, ho⟩ := Option.ne_none_iff_exists'.mp hne
    exact Nat.lt_irrefl _ (hw.fresh _ o ho)
  have hs (k : Nat) : stored k ⟨m, .advance i outcome, m'⟩ = none :=
    stored_of_call hc (by simp) k
  have hstates : m'.scanStates =
      Function.update m.scanStates m.nextScanState (some (.allocate buffer channel)) := by
    rw [hm]
    rfl
  have hcleans (k : Nat) (hk : m'.Cleans k) : m.Cleans k := by
    rw [hm] at hk
    exact hk
  intro k
  obtain ⟨hnone, hsome⟩ := h k
  by_cases hk : k = m.nextScanState
  · subst hk
    obtain ⟨ha, hcons⟩ := hnone hfresh
    rw [hstates, Function.update_self]
    refine ⟨fun he => absurd he (Option.some_ne_none _), fun o ho => ?_⟩
    rw [Option.some.injEq] at ho
    subst ho
    refine ⟨⟨[], ?_, ScanState.framed_allocate hb hn, fun _ => rfl⟩, fun _ => ?_⟩
    · rw [accepted_concat, consumed_concat, ha, hcons, hs]
      rfl
    · rw [ringbufferInit, if_neg (by decide)] at hb
      cases hb
      rfl
  · rw [hstates, Function.update_of_ne hk]
    refine ⟨fun he => ?_, fun o ho => ?_⟩
    · obtain ⟨ha, hcons⟩ := hnone he
      rw [accepted_concat, consumed_concat, ha, hcons, hs]
      exact ⟨rfl, rfl⟩
    · refine (hsome o ho).moved (hs k) rfl (called_of_set hc (by rw [hm]; rfl) ?_)
        (fun hc => Or.inl (hcleans k hc)) rfl rfl fun _ hf => hf
      intro he
      exact absurd (Option.some.inj he).symm hk

/-- A call drops the scan state that it has allocated, or listens with it. -/
theorem Recording.call (h : Recording τ m) {w : Option Owner} (hw : m.Fits w) {i : Nat}
    {outcome : ScanOutcome} {c c' : ScanCall} (hc : m.scanCalls[i]? = some c)
    (hscan : c.scan = some k) (hscan' : ∀ k', c'.scan = some k' → k' = k)
    (ho : m.scanStates k = some o)
    (hstates : m'.scanStates = Function.update m.scanStates k (some o'))
    (hcalls : m'.scanCalls = m.scanCalls.set i c')
    (hcleans : ∀ k', m'.Cleans k' → m.Cleans k') (hbuffer : o'.buffer = o.buffer)
    (hchannel : o'.currentChannel = o.currentChannel)
    (hrunning : o'.work.work.running = o.work.work.running) :
    Recording (τ ++ [⟨m, .advance i outcome, m'⟩]) m' := by
  have hs (k' : Nat) : stored k' ⟨m, .advance i outcome, m'⟩ = none :=
    stored_of_call hc (by rintro beacon rfl; cases hscan) k'
  have hcalled : m.Called k := ⟨c, List.mem_of_getElem? hc, hscan⟩
  have hidle : o.work.work.running = none := by
    by_contra hne
    obtain ⟨pc, hpc⟩ := Option.ne_none_iff_exists'.mp hne
    obtain rfl := hw.of_running ho hpc
    exact hw.not_called rfl (by simp) hcalled
  refine h.update ho hstates (fun k' _ => hs k') (fun _ _ => rfl) ?_ (fun k' _ => hcleans k') ?_
  · intro k' hk
    refine called_of_set hc hcalls fun he => ?_
    exact absurd (hscan' k' he) hk
  · intro hr
    have hzero := hr.call hcalled
    refine hr.moved (hs k) rfl (fun _ => hcalled) (fun hk => Or.inl (hcleans k hk)) hchannel
      (by rw [hbuffer]) fun records hf => ?_
    refine hf.rest hbuffer hchannel hidle (hrunning.trans hidle) fun _ => ?_
    -- nothing has been read yet
    have hmul := Nat.mul_le_mul_left bufferSize.toNat (show 1 ≤ o.currentChannel from hf.channel.1)
    rw [Nat.mul_one] at hmul
    rw [hzero]
    show 0 + _ ≤ _
    omega

/-- A response is stored, or changes nothing. -/
theorem Recording.response (h : Recording τ m) {w : Option Owner} (hw : m.Fits w) {i : Nat}
    {outcome : ScanOutcome} {beacon : BeaconData} (hc : m.scanCalls[i]? = some (.response beacon))
    (hx : m.scanContext = some k) (ho : m.scanStates k = some o)
    (hr : o.processResponse beacon outcome.pointer = some o')
    (hm : m' = (m.setScanState k o').setScanCall i .handled) :
    Recording (τ ++ [⟨m, .advance i outcome, m'⟩]) m' := by
  have hstates : m'.scanStates = Function.update m.scanStates k (some o') := by
    rw [hm]
    rfl
  have hcalled (k' : Nat) : m'.Called k' → m.Called k' :=
    called_of_set hc (by rw [hm]; rfl) fun he => by cases he
  have hcleans (k' : Nat) (hk : m'.Cleans k') : m.Cleans k' := by
    rw [hm] at hk
    exact hk
  have hs : stored k ⟨m, .advance i outcome, m'⟩ =
      if m.scanContext = some k ∧ o.Stores beacon then some (beacon, o.currentChannel) else none :=
    stored_of_response hc ho
  refine h.update ho hstates (fun k' hk => stored_of_context ?_) (fun _ _ => rfl)
    (fun k' _ => hcalled k') (fun k' _ => hcleans k') fun hrec => ?_
  · rw [hx]
    exact fun he => hk (Option.some.inj he).symm
  by_cases hstores : o.Stores beacon
  · rw [if_pos ⟨hx, hstores⟩] at hs
    obtain ⟨x, rfl, -, hreceiving⟩ := hw.of_receiving ho hstores.1
    have hdrains := hw.not_drains ho hstores.1
    have hstopped : ∀ pc, o.work.work.running = some pc → pc.left = false := by
      intro pc hpc
      have hown := hw.of_running ho hpc
      rw [Option.some.injEq] at hown
      subst hown
      cases pc <;> first | rfl | cases hreceiving
    obtain ⟨⟨records, hrecords, hf, hclean⟩, hcall⟩ := hrec
    have hwhole : o.Whole := by
      intro b size hpc
      cases hdrains _ hpc
    obtain ⟨o₁, ho₁, hchannel, -, hread, hframed⟩ :=
      hf.response hwhole hstopped hstores outcome.pointer
    rw [hr, Option.some.injEq] at ho₁
    subst ho₁
    refine ⟨⟨_, ?_, hframed, fun hk => ?_⟩, fun hk => ?_⟩
    · rw [accepted_concat, consumed_concat, hs, hrecords, hchannel]
      simp [readBy]
    · -- a scan that receives is not cleaned up
      rcases hw.of_cleans (hcleans _ hk) with he | ⟨pc, he, -⟩
      · rw [Option.some.injEq] at he
        subst he
        cases hreceiving
      · rw [Option.some.injEq] at he
        subst he
        cases hreceiving
    · rw [hread]
      exact hcall (hcalled _ hk)
  · rw [if_neg fun he => hstores he.2] at hs
    rw [ScanState.processResponse_of_not_stores hstores, Option.some.injEq] at hr
    subst hr
    exact hrec.moved hs rfl (hcalled k) (fun hk => Or.inl (hcleans k hk)) rfl rfl fun _ hf => hf

/-- The callback goes on at a line that has nothing to do with the ring buffer. -/
theorem Recording.goto (h : Recording τ m) {outcome : ScanOutcome} {pc pc' : ScanPc}
    (ho : m.scanStates k = some o) (hrun : o.work.work.running = some pc)
    (hpc : ∀ beacon rsnSize, pc ≠ .readRsn beacon rsnSize)
    (hstates : m'.scanStates = Function.update m.scanStates k (some (o'.goto (some pc'))))
    (hcalls : m'.scanCalls = m.scanCalls) (hcleans : ∀ k', m'.Cleans k' → m.Cleans k')
    (hbuffer : o'.buffer = o.buffer) (hchannel : o'.currentChannel = o.currentChannel)
    (hreceiving : o'.receiving = true → o.receiving = true) (hlistens : pc'.listens = false)
    (hpc' : ∀ beacon rsnSize, pc' ≠ .readRsn beacon rsnSize)
    (hcurrent : ∀ channel, pc' ≠ .setCurrent channel)
    (hleft : pc'.left = true → pc.left = true) :
    Recording (τ ++ [⟨m, .advanceWork k outcome, m'⟩]) m' := by
  refine h.work ho hrun hpc hstates hcalls (fun k' hk => Or.inl (hcleans k' hk)) (Or.inl hchannel)
    (fun _ => congrArg RingBuffer.read hbuffer) fun records hf => ?_
  have hnext : (o'.goto (some pc')).work.work.running = some pc' := rfl
  exact hf.goto (ScanState.whole_of_running hrun hpc) hbuffer hchannel hnext hlistens
    (ScanState.whole_of_running hnext hpc') hcurrent hreceiving
    fun hl => hf.left pc hrun (hleft hl)

/-- The timer of a scan expires. -/
theorem Recording.expire {w : Option Owner} (h : Recording τ m) (hw : m.Fits w)
    {work : DelayedWork ScanPc} (ho : m.scanStates k = some o)
    (hwork : o.work.expire = some work) :
    Recording (τ ++ [⟨m, .expire k, m.setScanState k { o with work }⟩])
      (m.setScanState k { o with work }) := by
  obtain ⟨hrequest, rfl⟩ := DelayedWork.expire_eq_some hwork
  obtain rfl := hw.of_pending ho (by rw [hrequest]; simp)
  have hnone : o.work.work.running = none := (hw.shapes (x := .queued k) ho).running
  refine h.update ho rfl (fun _ _ => rfl) (fun _ _ => rfl) (fun _ _ hk => hk) (fun _ _ hk => hk)
    fun hrec => hrec.moved rfl rfl id (fun hk => Or.inl hk) rfl rfl fun records hf => ?_
  exact hf.rest rfl rfl hnone hnone fun hr => hf.room (Or.inl hr)

/-- `scan_work` begins. -/
theorem Recording.startWork (h : Recording τ m) {work : DelayedWork ScanPc}
    (ho : m.scanStates k = some o) (hwork : o.work.start .stop = some work) :
    Recording (τ ++ [⟨m, .startWork k, m.setScanState k { o with work }⟩])
      (m.setScanState k { o with work }) := by
  obtain ⟨hrequest, hnone, -, rfl⟩ := DelayedWork.start_eq_some hwork
  refine h.update ho rfl (fun _ _ => rfl) (fun _ _ => rfl) (fun _ _ hk => hk) (fun _ _ hk => hk)
    fun hrec => hrec.moved rfl rfl id (fun hk => Or.inl hk) rfl rfl fun records hf => ?_
  refine hf.goto ?_ rfl rfl (show _ = some ScanPc.stop from rfl) rfl
    (ScanState.whole_of_running rfl (by simp)) (by simp) id fun he => by cases he
  intro beacon rsnSize hr
  rw [hnone] at hr
  cases hr

/-- The head of the loop of `scan_work`. -/
theorem Recording.drain {w : Option Owner} (h : Recording τ m) (hw : m.Fits w)
    {outcome : ScanOutcome} {pc : ScanPc} (ho : m.scanStates k = some o)
    (hrun : o.work.work.running = some .drain) (hd : o.drain = some (o', pc)) :
    Recording (τ ++ [⟨m, .advanceWork k outcome, m.setScanState k (o'.goto (some pc))⟩])
      (m.setScanState k (o'.goto (some pc))) := by
  obtain rfl := hw.of_running ho hrun
  have hreceiving : o.receiving = false := (hw.shapes (x := .work k .drain) ho).receiving
  have hnot : ¬ m.Called k := hw.not_called rfl (by simp)
  obtain ⟨⟨buffer, rfl⟩, -⟩ := ScanState.drain_cases hd
  refine h.work ho hrun (by simp) rfl rfl (fun _ hk => Or.inl hk) (Or.inl rfl)
    (fun hk => absurd hk hnot) fun records hf => ?_
  rcases hf.drain hrun hreceiving with
    ⟨rfl, pc', hd', -, -, hf'⟩ | ⟨r, rest, buffer', rfl, hd', hf'⟩
  · rw [hd, Option.some.injEq, Prod.mk.injEq] at hd'
    obtain ⟨ho', rfl⟩ := hd'
    rw [ho']
    exact hf'
  · rw [hd, Option.some.injEq, Prod.mk.injEq] at hd'
    obtain ⟨ho', rfl⟩ := hd'
    rw [ho']
    exact hf'

/-- The second read takes no early `break`. -/
theorem Recording.not_short {w : Option Owner} (h : Recording τ m) (hw : m.Fits w)
    {beacon : BeaconData} {rsnSize : UInt64} (ho : m.scanStates k = some o)
    (hrun : o.work.work.running = some (.readRsn beacon rsnSize)) :
    o.readRsn beacon rsnSize ≠ some (o', .error ()) := by
  intro hr
  obtain rfl := hw.of_running ho hrun
  have hreceiving := (hw.shapes (x := .work k (.readRsn beacon rsnSize)) ho).receiving
  obtain ⟨records, -, hf, -⟩ := ((h k).2 o ho).records
  obtain ⟨r, rest, buffer, -, -, -, hresult, -⟩ := hf.readRsn hrun hreceiving
  rw [hr] at hresult
  cases hresult

/-- `scan_work` asks for the cleanup and returns. -/
theorem Recording.enqueueCleanup (h : Recording τ m) {outcome : ScanOutcome}
    (ho : m.scanStates k = some o) (hrun : o.work.work.running = some .enqueueCleanup)
    (hm : m' = { m with
      scanCleanupWork := m.scanCleanupWork.enqueue
      scanCleanupArgument :=
        if m.scanCleanupWork.request = Request.idle then k
        else m.scanCleanupArgument }.setScanState k (o.goto none)) :
    Recording (τ ++ [⟨m, .advanceWork k outcome, m'⟩]) m' := by
  subst hm
  refine h.work ho hrun (by simp) rfl rfl (fun k' hk => ?_) (Or.inl rfl) (fun _ => rfl)
    fun records hf => ?_
  · rcases hk with ⟨hr, rfl⟩ | ⟨pc, hpc, hk⟩
    · by_cases hidle : m.scanCleanupWork.request = .idle
      · exact Or.inr ⟨if_pos hidle, rfl⟩
      · exact Or.inl (Or.inl ⟨hidle, (if_neg hidle).symm⟩)
    · exact Or.inl (Or.inr ⟨pc, (Work.enqueue_running _).symm.trans hpc, hk⟩)
  · refine hf.congr rfl rfl (ScanState.whole_of_running hrun (by simp)) ?_ ?_ ?_ ?_
    · intro beacon rsnSize hr
      cases hr
    · rintro (hr | ⟨pc, hr, -⟩)
      · exact hf.room (Or.inl hr)
      · cases hr
    · intro channel hr
      cases hr
    · intro pc hr
      cases hr

/-- `cleanup_scan` begins. -/
theorem Recording.startCleanup (h : Recording τ m) {work : Work ScanCleanupPc}
    (hwork : m.scanCleanupWork.start (.freeTimer m.scanCleanupArgument) = some work) :
    Recording (τ ++ [⟨m, .startCleanup, { m with scanCleanupWork := work }⟩])
      { m with scanCleanupWork := work } := by
  obtain ⟨hrequest, -, -, rfl⟩ := Work.start_eq_some hwork
  refine h.frame rfl (fun _ => rfl) (fun _ => rfl) (fun _ hk => hk) fun k hk => ?_
  rcases hk with ⟨hr, -⟩ | ⟨pc, hr, hk⟩
  · exact absurd rfl hr
  · cases hr
    exact Or.inl ⟨by rw [hrequest]; simp, hk⟩

/-- `cleanup_scan` frees a part of the scan state. -/
theorem Recording.destroy {w : Option Owner} (h : Recording τ m) (hw : m.Fits w)
    {pc next : ScanCleanupPc} (hrun : m.scanCleanupWork.running = some pc)
    (ho : m.scanStates k = some o) (hd : Destroys k pc next o o')
    (hm : m' = { m with
      scanCleanupWork := m.scanCleanupWork.goto (some next) }.setScanState k o') :
    Recording (τ ++ [⟨m, .advanceCleanup, m'⟩]) m' := by
  have hcleans (k' : Nat) (hk : m'.Cleans k') : m.Cleans k' := by
    subst hm
    rcases hk with hk | ⟨pc', hr, hk⟩
    · exact Or.inl hk
    · refine Or.inr ⟨pc, hrun, ?_⟩
      cases hr
      cases hd <;> exact hk
  have hnone : o.work.work.running = none := by
    obtain rfl := hw.of_cleaning hrun
    have hscan : pc.scan = k := by cases hd <;> rfl
    subst hscan
    exact (hw.shapes (x := .cleanup pc) ho).running
  subst hm
  refine h.update ho rfl (fun _ _ => rfl) (fun _ _ => rfl) (fun _ _ hk => hk)
    (fun k' _ => hcleans k') fun hrec => hrec.moved rfl rfl id (fun hk => Or.inl (hcleans k hk))
    ?_ ?_ fun records hf => hf.rest ?_ ?_ hnone ?_ fun hr => hf.room (Or.inl ?_)
  · cases hd <;> rfl
  · cases hd <;> rfl
  · cases hd <;> rfl
  · cases hd <;> rfl
  · cases hd with
    | timer => exact (DelayedWork.freeTimer_running _).trans hnone
    | work hf =>
      obtain ⟨-, rfl⟩ := DelayedWork.freeWork_eq_some hf
      rfl
    | _ => exact hnone
  · cases hd <;> exact hr

/-- **Every step keeps what has been stored together with what has been read.** -/
theorem Effect.recording {w : Option Owner} (h : Recording τ m) (hw : m.Fits w)
    (he : Effect m event m') : Recording (τ ++ [⟨m, event, m'⟩]) m' := by
  cases he with
  | association ha hs hc =>
    refine h.frame rfl (fun _ => rfl) (fun _ => rfl) (fun k => SameScans.called (.append ?_))
      fun _ hk => hk
    intro c hc
    obtain ⟨beacon, -, rfl⟩ := List.mem_map.mp hc
    rfl
  | cache ha hs => exact h.frame rfl (fun _ => rfl) (fun _ => rfl) (fun _ hk => hk) fun _ hk => hk
  | @invoke entry =>
    refine h.frame rfl (fun _ => rfl) (fun _ => rfl) (fun k => SameScans.called (.append ?_))
      fun _ hk => hk
    intro c hc
    rw [List.mem_singleton] at hc
    subst hc
    cases entry <;> rfl
  | @quiet i outcome c c' hc hq =>
    refine h.frame rfl (fun k => ?_) (fun _ => rfl)
      (fun k => SameScans.called (.set hc hq.scan.1 hq.scan.2)) fun _ hk => hk
    cases hq with
    | ignored hx => exact stored_of_context (by rw [hx]; simp)
    | _ => exact stored_of_call hc (by simp) k
  | allocate hc hb hn => exact h.allocate hw hc hb hn rfl
  | claim hc hst =>
    exact h.frame rfl (stored_of_call hc (by simp)) (fun _ => rfl)
      (fun k => called_of_set hc rfl id) fun _ hk => hk
  | publish hc | purge hc hp =>
    exact h.frame rfl (stored_of_call hc (by simp)) (fun _ => rfl)
      (fun k => called_of_set hc rfl id) fun _ hk => hk
  | wait hc hst =>
    exact h.frame rfl (stored_of_call hc (by simp)) (fun _ => rfl)
      (fun k => called_of_set hc rfl fun he => by cases he) fun _ hk => hk
  | busy hc ho hst =>
    exact h.call hw hc rfl (fun _ he => by cases he) ho rfl rfl (fun _ hk => hk) rfl rfl rfl
  | @listenCall i k outcome line o hc ho =>
    refine h.call hw hc rfl ?_ ho rfl rfl (fun _ hk => hk) ?_ ?_ ?_
    · intro k' he
      cases line <;> cases he <;> rfl
    · cases line <;> rfl
    · cases line <;> rfl
    · cases line with
      | arm => exact DelayedWork.enqueue_running _
      | _ => rfl
  | response hc hx ho hr => exact h.response hw hc hx ho hr rfl
  | expire ho hwork => exact h.expire hw ho hwork
  | startWork ho hwork => exact h.startWork ho hwork
  | stop ho hrun =>
    exact h.goto ho hrun (by simp) rfl rfl (fun _ hk => hk) rfl rfl (fun hr => by cases hr) rfl
      (by simp) (by simp) fun hl => by cases hl
  | drain ho hrun hd => exact h.drain hw ho hrun hd
  | pass ho hrun hp =>
    cases hp with
    | short hr hl => exact absurd hr (h.not_short hw ho hrun)
    | skipped hr | enomem hr _ =>
      exact h.readRsn hw ho hrun (Or.inl rfl) hr rfl rfl fun _ hk => hk
  | allocateAp ho hrun hr ha hn =>
    exact h.readRsn hw ho hrun (Or.inr ⟨_, rfl⟩) hr rfl rfl fun _ hk => hk
  | insert ho hrun hi =>
    exact h.goto ho hrun (by simp) rfl rfl (fun _ hk => hk) rfl rfl id rfl (by simp) (by simp)
      fun hl => by cases hl
  | release ho hrun hr =>
    exact h.goto ho hrun (by simp) rfl rfl (fun _ hk => hk) rfl rfl id rfl (by simp) (by simp)
      fun hl => by cases hl
  | setCurrent ho hrun =>
    refine h.work ho hrun (by simp) rfl rfl (fun _ hk => Or.inl hk)
      (Or.inr fun records hf => (hf.setCurrent hrun).1) (fun _ => rfl) fun records hf => ?_
    obtain ⟨rfl, hf'⟩ := hf.setCurrent hrun
    exact hf'
  | @listenWork k outcome o line ho hrun =>
    refine h.work ho hrun (by simp) rfl rfl (fun _ hk => Or.inl hk) (Or.inl ?_) (fun _ => ?_)
      fun records hf => hf.listen hrun
    · cases line <;> rfl
    · cases line <;> rfl
  | complete ho hrun =>
    exact h.goto ho hrun (by simp) rfl rfl (fun _ hk => hk) rfl rfl id rfl (by simp) (by simp)
      fun _ => rfl
  | enqueueCleanup ho hrun => exact h.enqueueCleanup ho hrun rfl
  | startCleanup hwork => exact h.startCleanup hwork
  | destroy hrun ho hd => exact h.destroy hw hrun ho hd rfl
  | last hrun hs =>
    refine h.frame rfl (fun _ => rfl) (fun _ => rfl)
      (fun k => SameScans.called (.wake m.scanWaiters m.scanCalls)) fun k hk => ?_
    rcases hk with hk | ⟨pc, hr, -⟩
    · exact Or.inl hk
    · cases hr

/-- **In every run, what has been stored has been read or is in the ring buffer.** -/
theorem Run.recorded (h : Run own τ m) : Recording τ m := by
  refine h.history (P := Recording) ?_ ?_
  · intro k
    exact ⟨fun _ => ⟨rfl, rfl⟩, fun o ho => by cases ho⟩
  · intro τ m event m' hr ih hs
    obtain ⟨w, hw⟩ := Reachable.owner hr.reachable
    exact (step_effect hs).recording ih hw

/-- A response that is stored for no scan changes no scan state. -/
theorem Effect.response_dropped {i : Nat} {outcome : ScanOutcome} {beacon : BeaconData}
    (he : Effect m (.advance i outcome) m') (hcall : m.scanCalls[i]? = some (.response beacon))
    (hnone : ∀ k, stored k ⟨m, .advance i outcome, m'⟩ = none) : m'.scanStates = m.scanStates := by
  cases he with
  | quiet => rfl
  | @response _ k _ b o o' hc hx ho hr =>
    have hs := hnone k
    rw [stored_of_response hc ho, ite_eq_right_iff] at hs
    have hstores : ¬ o.Stores b := fun hstores => by cases hs ⟨hx, hstores⟩
    rw [ScanState.processResponse_of_not_stores hstores, Option.some.injEq] at hr
    subst hr
    exact Function.update_eq_self_iff.mpr ho.symm
  | allocate hc | claim hc | busy hc | publish hc | purge hc | listenCall hc | wait hc =>
    rw [hcall] at hc
    cases hc

/-- **The records of a scan are never torn or mixed.** The loop reads the responses that were
stored, in their order and each one once; it starts on whole records, takes no early `break` and
ends with an empty buffer; and a response that is not stored changes nothing. -/
theorem scan_records_whole (h : Run own τ m) (k : Nat) :
    consumed k τ <+: accepted k τ ∧
    (∀ t ∈ τ, ∀ (i : Nat) (outcome : ScanOutcome) (beacon : BeaconData),
      t.action = .advance i outcome → t.before.scanCalls[i]? = some (.response beacon) →
      (∀ k, stored k t = none) → t.after.scanStates = t.before.scanStates) ∧
    ∀ o, m.scanStates k = some o →
      (∀ beacon pointer, ∃ o', o.processResponse beacon pointer = some o') ∧
      (o.work.work.running = some .stop ∨ o.work.work.running = some .drain →
        ∃ records : List Record,
          accepted k τ = consumed k τ ++ records.map (fun r => (r.beacon, o.currentChannel)) ∧
            o.buffer.Holds (records.flatMap Record.bytes)) ∧
      (o.work.work.running = some .drain → beaconDataSize ≤ o.buffer.dataCount.toNat →
        ∃ o' beacon rsnSize, o.drain = some (o', .readRsn beacon rsnSize)) ∧
      (o.work.work.running = some .drain → o.buffer.dataCount.toNat < beaconDataSize →
        o.buffer.Holds [] ∧ consumed k τ = accepted k τ ∧ ∃ pc, o.drain = some (o, pc)) ∧
      (∀ beacon rsnSize, o.work.work.running = some (.readRsn beacon rsnSize) →
        ∃ o' result, o.readRsn beacon rsnSize = some (o', .ok result)) ∧
      (∀ pc, o.work.work.running = some pc → pc.left = true →
        o.buffer.Holds [] ∧ consumed k τ = accepted k τ) := by
  obtain ⟨w, hw⟩ := Reachable.owner (Lts.Run.reachable h)
  have hshape {o : ScanState} {pc : ScanPc} (ho : m.scanStates k = some o)
      (hr : o.work.work.running = some pc) : o.receiving = pc.receiving := by
    obtain rfl := hw.of_running ho hr
    exact (hw.shapes (x := .work k pc) ho).receiving
  refine ⟨?_, ?_, fun o ho => ?_⟩
  · cases ho : m.scanStates k with
    | none =>
      obtain ⟨ha, hc⟩ := (h.recorded k).1 ho
      rw [hc]
      exact List.nil_prefix
    | some o =>
      obtain ⟨records, hrecords, -⟩ := ((h.recorded k).2 o ho).records
      exact ⟨_, hrecords.symm⟩
  · rintro t ht i outcome beacon hevent hcall hnone
    obtain ⟨-, hs⟩ := Lts.Run.of_mem h t ht
    obtain ⟨before, action, after⟩ := t
    subst hevent
    exact (step_effect hs).response_dropped hcall hnone
  · obtain ⟨records, hrecords, hf, -⟩ := ((h.recorded k).2 o ho).records
    refine ⟨fun beacon pointer => ?_, ?_, ?_, ?_, ?_, ?_⟩
    · by_cases hstores : o.Stores beacon
      · have hdrains := hw.not_drains ho hstores.1
        have hwhole : o.Whole := by
          intro b size hpc
          cases hdrains _ hpc
        have hleft : ∀ pc, o.work.work.running = some pc → pc.left = false := by
          intro pc hpc
          have hreceiving := (hshape ho hpc).symm.trans hstores.1
          cases pc <;> first | rfl | cases hreceiving
        obtain ⟨o', hr, -⟩ := hf.response hwhole hleft hstores pointer
        exact ⟨o', hr⟩
      · exact ⟨o, ScanState.processResponse_of_not_stores hstores pointer⟩
    · intro hr
      refine ⟨records, hrecords, hf.holds ?_⟩
      rcases hr with hr | hr
      · exact ScanState.whole_of_running hr (by simp)
      · exact ScanState.whole_of_running hr (by simp)
    · intro hr hcount
      rcases hf.drain hr (hshape ho hr) with ⟨rfl, -⟩ | ⟨r, rest, buffer, rfl, hd, -⟩
      · rw [(hf.holds (ScanState.whole_of_running hr (by simp))).dataCount] at hcount
        exact absurd hcount (by decide)
      · exact ⟨_, _, _, hd⟩
    · intro hr hcount
      have hholds := hf.holds (ScanState.whole_of_running hr (by simp))
      rcases hf.drain hr (hshape ho hr) with ⟨rfl, pc, hd, -⟩ | ⟨r, rest, buffer, rfl, -⟩
      · rw [List.map_nil, List.append_nil] at hrecords
        exact ⟨hholds, hrecords.symm, pc, hd⟩
      · rw [hholds.dataCount, List.flatMap_cons, List.length_append, Record.length_bytes] at hcount
        omega
    · intro beacon rsnSize hr
      obtain ⟨r, rest, buffer, -, -, -, hresult, -⟩ := hf.readRsn hr (hshape ho hr)
      exact ⟨_, _, hresult⟩
    · intro pc hr hleft
      obtain rfl := hf.left pc hr hleft
      rw [List.map_nil, List.append_nil] at hrecords
      refine ⟨hf.holds (ScanState.whole_of_running hr ?_), hrecords.symm⟩
      intro beacon rsnSize he
      subst he
      cases hleft

/-- A response without a channel element, from a station with an RSN element. -/
def Scenario.beacon : BeaconData where
  macAddress := U80211.Scenario.mac 7
  interval := 100
  capabilities := 1
  channel := 0
  rateBitmap := .zero 16
  ssid := .zero 33
  rsn := [1, 0]

open Machine.Scenario in
/-- The station answers once more, without its RSN element. -/
def Scenario.again : BeaconData := { beacon with channel := 1, rsn := [] }

open Machine.Scenario in
/-- Another station answers, with a long RSN element. -/
def Scenario.other : BeaconData :=
  { beacon with macAddress := U80211.Scenario.mac 8, rsn := List.replicate 20 3 }

open Machine.Scenario in
/-- A scan stores three responses on its first channel. -/
def Scenario.answers : List Event :=
  .invoke .scan :: advance 0 8 ++
    [.invoke (.processResponse beacon), .advance 1 {}, .invoke (.processResponse again),
      .advance 2 {}, .invoke (.processResponse other), .advance 3 {}]

open Machine.Scenario in
/-- The scan has read the responses back. -/
def Scenario.heard : List Event := answers ++ .expire 0 :: .startWork 0 :: work 0 11

open Machine.Scenario in
theorem scan_records_whole_heard :
    ∃ m, Scenario.run heard = some m ∧
      (accepted 0 (trace heard)).map (fun p => p.1.rsn.length) = [2, 0, 20] ∧
      consumed 0 (trace heard) = accepted 0 (trace heard) := by
  have hrun : (run heard).map (fun m => (m.scanContext, m.radio)) = some (some 0, some 1) := by
    decide +kernel
  obtain ⟨m, hm, -⟩ := exists_of_run hrun
  have haccepted : (accepted 0 (trace heard)).map (fun p => p.1.rsn.length) = [2, 0, 20] := by
    decide +kernel
  have hconsumed : (consumed 0 (trace heard)).length = 3 := by decide +kernel
  have hlength : (accepted 0 (trace heard)).length = 3 := by
    rw [← List.length_map, haccepted]
    rfl
  refine ⟨m, hm, haccepted, ?_⟩
  have hprefix := (scan_records_whole (run_trace hm) 0).1
  exact hprefix.eq_of_length (hconsumed.trans hlength.symm)

end Machine

end U80211
