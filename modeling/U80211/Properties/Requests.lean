import Mathlib.Data.List.TakeWhile
import U80211.Properties.Consistency
import U80211.Properties.HeaderCodec
import U80211.Properties.InformationElements
import U80211.Requests

/-!
# The requests that are sent fill their buffer and parse back

* `Consecutive`: stores that follow one another, each byte once
* `serializeRateInformationElements_spec`: the elements of the rates
* `probeRequestBody_spec`, `associationRequestBody_spec`: the bodies
* `sendManagementPacket_spec`: what the driver is handed
* `generated_requests`: **each request is what its size says, and parses back**
-/

namespace U80211

open Memory TxBufferDescriptor Tlv

/-! ## Stores -/

/-- The bytes that are stored, in the order in which they are. -/
def storedBytes (stores : Stores) : List UInt8 := stores.flatMap fun store => store.2

/-- The offsets that are written, each as often as it is. -/
def storedOffsets (stores : Stores) : List Nat :=
  stores.flatMap fun store => List.range' store.1 store.2.length

@[simp] theorem storedBytes_nil : storedBytes [] = [] := rfl

@[simp] theorem storedBytes_cons (store : Nat × List UInt8) (stores : Stores) :
    storedBytes (store :: stores) = store.2 ++ storedBytes stores := List.flatMap_cons

@[simp] theorem storedBytes_append (a b : Stores) :
    storedBytes (a ++ b) = storedBytes a ++ storedBytes b := List.flatMap_append

/-- The stores follow one another from an offset on. -/
inductive Consecutive : Nat → Stores → Prop
  | nil {off : Nat} : Consecutive off []
  | cons {off : Nat} {bs : List UInt8} {stores : Stores}
      (rest : Consecutive (off + bs.length) stores) : Consecutive off ((off, bs) :: stores)

theorem consecutive_singleton (off : Nat) (bs : List UInt8) : Consecutive off [(off, bs)] :=
  .cons .nil

/-- Stores that go on where others end. -/
theorem Consecutive.append {off : Nat} {a b : Stores} (ha : Consecutive off a)
    (hb : Consecutive (off + (storedBytes a).length) b) : Consecutive off (a ++ b) := by
  induction ha with
  | nil => exact hb
  | cons _ ih =>
    refine .cons (ih ?_)
    rw [storedBytes_cons, List.length_append, ← Nat.add_assoc] at hb
    exact hb

/-- **Each offset is written once**, from the first to the last. -/
theorem Consecutive.offsets {off : Nat} {stores : Stores} (h : Consecutive off stores) :
    storedOffsets stores = List.range' off (storedBytes stores).length := by
  induction h with
  | nil => rfl
  | @cons off bs stores _ ih =>
    rw [storedBytes_cons, List.length_append, ← List.range'_append_1, ← ih]
    rfl

/-- Stores that follow one another are one write. -/
theorem Consecutive.store {off : Nat} {stores : Stores} (h : Consecutive off stores)
    (d : TxBufferDescriptor) (hin : off + (storedBytes stores).length ≤ d.buffer.length) :
    d.store stores = d.write off (storedBytes stores) := by
  induction h generalizing d with
  | @nil off =>
    have hw : writeBytes d.buffer off (storedBytes []) = some d.buffer := by
      rw [writeBytes_of_le hin, storedBytes_nil, List.append_nil, List.length_nil, Nat.add_zero,
        List.take_append_drop]
    rw [TxBufferDescriptor.write, hw]
    rfl
  | @cons off bs stores _ ih =>
    rw [storedBytes_cons, List.length_append, ← Nat.add_assoc] at hin
    rw [storedBytes_cons, ← write_append]
    unfold TxBufferDescriptor.store
    rw [List.foldlM_cons, Option.bind_eq_bind]
    cases hw : d.write off bs with
    | none => rfl
    | some d₁ =>
      have hlen : d₁.buffer.length = d.buffer.length := by
        unfold TxBufferDescriptor.write at hw
        obtain ⟨buffer, hb, rfl⟩ := Option.map_eq_some_iff.mp hw
        exact length_writeBytes hb
      exact ih d₁ (by rw [hlen]; exact hin)

/-! ## The elements of the rates -/

/-- The rates of a bitmap, in order. -/
def rates (rateBitmap : FixedBytes 16) : List Nat :=
  (List.range (maxRateValue + 1)).filter (hasRate rateBitmap)

/-- The loop over the bitmap meets the rates whose bit is set. -/
theorem mem_rates_iff {rateBitmap : FixedBytes 16} {rate : Nat} :
    rate ∈ rates rateBitmap ↔ rate ≤ maxRateValue ∧ hasRate rateBitmap rate = true := by
  rw [rates, List.mem_filter, List.mem_range, Nat.lt_succ_iff]

theorem length_rates_le (rateBitmap : FixedBytes 16) : (rates rateBitmap).length ≤ 126 :=
  Nat.le_trans (List.length_filter_le _ _) (by rw [List.length_range, maxRateValue])

theorem foldl_count (p : Nat → Bool) (l : List Nat) (n : Nat) :
    l.foldl (fun count x => if p x then count + 1 else count) n = n + (l.filter p).length := by
  induction l generalizing n with
  | nil => rfl
  | cons x l ih =>
    rw [List.foldl_cons, ih, List.filter_cons]
    split
    · rw [List.length_cons]
      omega
    · rfl

/-- The first loop counts the rates that the second one emits. -/
theorem countRates_eq (rateBitmap : FixedBytes 16) :
    countRates rateBitmap = (rates rateBitmap).length := by
  rw [countRates, foldl_count, Nat.zero_add, rates]

variable {w : RateWriter} {destination : Nat} {bytes : List UInt8}

/-- The writer has written the bytes from the destination on. -/
structure Wrote (w : RateWriter) (destination : Nat) (bytes : List UInt8) : Prop where
  consecutive : Consecutive destination w.stores
  stored : storedBytes w.stores = bytes
  offset : w.offset = bytes.length

/-- One more byte is stored. -/
theorem Wrote.put (h : Wrote w destination bytes) (b : UInt8) :
    Wrote (w.put destination b) destination (bytes ++ [b]) where
  consecutive := by
    refine h.consecutive.append ?_
    rw [h.stored, h.offset]
    exact consecutive_singleton _ _
  stored := by
    rw [RateWriter.put, storedBytes_append, h.stored]
    rfl
  offset := by
    rw [RateWriter.put, h.offset, List.length_append]
    rfl

/-- What the loop writes for the rates from the `k`-th on. -/
def emitted (supported extended : Nat) : Nat → List Nat → List UInt8
  | _, [] => []
  | k, rate :: rest =>
    (if k = supported ∧ extended ≠ 0 then [ieIdRatesExt, UInt8.ofNat extended] else []) ++
      UInt8.ofNat rate :: emitted supported extended (k + 1) rest

section Emitted

variable {supported extended k : Nat}

/-- A round for a rate of the bitmap. -/
theorem Wrote.round (h : Wrote w destination bytes) (hk : w.rateIndex = k)
    (supported extended : Nat) {rateBitmap : FixedBytes 16} {rate : Nat}
    (hrate : hasRate rateBitmap rate = true) :
    Wrote (w.round rateBitmap destination supported extended rate) destination
        (bytes ++ ((if k = supported ∧ extended ≠ 0 then
          [ieIdRatesExt, UInt8.ofNat extended] else []) ++ [UInt8.ofNat rate])) ∧
      (w.round rateBitmap destination supported extended rate).rateIndex = k + 1 := by
  unfold RateWriter.round
  rw [if_pos hrate, hk]
  split
  · have hput := ((h.put ieIdRatesExt).put (UInt8.ofNat extended)).put (UInt8.ofNat rate)
    simp only [List.append_assoc] at hput
    exact ⟨⟨hput.consecutive, hput.stored, hput.offset⟩, congrArg (· + 1) hk⟩
  · have hput := h.put (UInt8.ofNat rate)
    exact ⟨⟨hput.consecutive, hput.stored, hput.offset⟩, congrArg (· + 1) hk⟩

/-- **The loop writes the rates of the bitmap**, and the second header in front of one of them. -/
theorem Wrote.foldl_round (h : Wrote w destination bytes) (hk : w.rateIndex = k)
    (rateBitmap : FixedBytes 16) (supported extended : Nat) (l : List Nat) :
    Wrote (l.foldl (RateWriter.round rateBitmap destination supported extended) w) destination
      (bytes ++ emitted supported extended k (l.filter (hasRate rateBitmap))) := by
  induction l generalizing w bytes k with
  | nil =>
    rw [List.filter_nil, emitted, List.append_nil]
    exact h
  | cons rate l ih =>
    rw [List.foldl_cons, List.filter_cons]
    split
    · next hrate =>
      obtain ⟨hround, hindex⟩ := h.round hk supported extended hrate
      have hnext := ih hround hindex
      simp only [List.append_assoc] at hnext
      exact hnext
    · next hrate =>
      have hskip : w.round rateBitmap destination supported extended rate = w := if_neg hrate
      rw [hskip]
      exact ih h hk

/-- Without extended rates no second element begins. -/
theorem emitted_of_zero (k : Nat) (rs : List Nat) :
    emitted supported 0 k rs = rs.map UInt8.ofNat := by
  induction rs generalizing k with
  | nil => rfl
  | cons r rs ih =>
    rw [emitted, ih, if_neg fun h => h.2 rfl]
    rfl

/-- Behind the supported rates no element begins. -/
theorem emitted_of_lt (h : supported < k) (rs : List Nat) :
    emitted supported extended k rs = rs.map UInt8.ofNat := by
  induction rs generalizing k with
  | nil => rfl
  | cons r rs ih =>
    rw [emitted, ih (Nat.lt_succ_of_lt h), if_neg fun he => Nat.lt_irrefl _ (he.1 ▸ h)]
    rfl

/-- The second header stands in front of the rate with the index `supported`. -/
theorem emitted_split {n : Nat} (hk : k + n = supported) (hextended : extended ≠ 0)
    {rs : List Nat} (hn : n < rs.length) :
    emitted supported extended k rs = (rs.take n).map UInt8.ofNat ++
      ieIdRatesExt :: UInt8.ofNat extended :: (rs.drop n).map UInt8.ofNat := by
  induction rs generalizing k n with
  | nil => cases hn
  | cons r rs ih =>
    cases n with
    | zero =>
      rw [emitted, if_pos ⟨hk, hextended⟩, emitted_of_lt (by omega)]
      rfl
    | succ n =>
      rw [emitted, ih (by omega) (Nat.lt_of_succ_lt_succ hn), if_neg fun he => by omega]
      rfl

end Emitted

theorem map_ofNat_length_lt {rs : List Nat} (h : rs.length < 256) :
    (rs.map UInt8.ofNat).length < 256 := by
  rw [List.length_map]
  exact h

/-- The element with the first eight rates. -/
def supportedRates (rateBitmap : FixedBytes 16) : Element where
  id := ieIdRates
  body := ((rates rateBitmap).take 8).map UInt8.ofNat
  fits := map_ofNat_length_lt (by
    rw [List.length_take]
    omega)

/-- The element with the other ones. -/
def extendedRates (rateBitmap : FixedBytes 16) : Element where
  id := ieIdRatesExt
  body := ((rates rateBitmap).drop 8).map UInt8.ofNat
  fits := map_ofNat_length_lt (by
    have := length_rates_le rateBitmap
    rw [List.length_drop]
    omega)

/-- What `serialize_rate_information_elements` stands for. -/
def rateElements (rateBitmap : FixedBytes 16) : List Element :=
  supportedRates rateBitmap ::
    if 8 < (rates rateBitmap).length then [extendedRates rateBitmap] else []

/-- At most eight rates are supported ones. -/
theorem length_supportedRates (rateBitmap : FixedBytes 16) :
    (supportedRates rateBitmap).body.length = min (rates rateBitmap).length 8 := by
  rw [supportedRates, List.length_map, List.length_take, Nat.min_comm]

/-- The other ones are extended. -/
theorem length_extendedRates (rateBitmap : FixedBytes 16) :
    (extendedRates rateBitmap).body.length = (rates rateBitmap).length - 8 := by
  rw [extendedRates, List.length_map, List.length_drop]

/-- **The size that is computed is that of the elements.** -/
theorem rateInformationElementsSize_eq (rateBitmap : FixedBytes 16) :
    rateInformationElementsSize (countRates rateBitmap) =
      (encodeAll (rateElements rateBitmap)).length := by
  rw [countRates_eq, rateInformationElementsSize, rateElements]
  split
  · next h =>
    simp only [encodeAll_cons, encodeAll_nil, List.append_nil, List.length_append,
      Element.length_encode, length_supportedRates, length_extendedRates]
    omega
  · simp only [encodeAll_cons, encodeAll_nil, List.append_nil, Element.length_encode,
      length_supportedRates]
    omega

/-- The bytes of the elements, as the writer puts them together. -/
theorem encodeAll_rateElements (rateBitmap : FixedBytes 16) :
    let count := (rates rateBitmap).length
    encodeAll (rateElements rateBitmap) = [ieIdRates, UInt8.ofNat (min count 8)] ++
      emitted (min count 8) (count - min count 8) 0 (rates rateBitmap) := by
  dsimp only
  have hsupported : (supportedRates rateBitmap).size =
      UInt8.ofNat (min (rates rateBitmap).length 8) := by
    rw [Element.size, length_supportedRates]
  unfold rateElements
  split
  · next h =>
    have hextended : (extendedRates rateBitmap).size =
        UInt8.ofNat ((rates rateBitmap).length - 8) := by
      rw [Element.size, length_extendedRates]
    have hmin : min (rates rateBitmap).length 8 = 8 := by omega
    rw [hmin] at hsupported ⊢
    rw [emitted_split (show 0 + 8 = 8 from rfl) (by omega) h]
    simp only [encodeAll_cons, encodeAll_nil, Element.encode, hsupported, hextended,
      List.append_nil, List.cons_append, List.nil_append]
    rfl
  · next h =>
    have hmin : min (rates rateBitmap).length 8 = (rates rateBitmap).length := by omega
    have hbody : (supportedRates rateBitmap).body = (rates rateBitmap).map UInt8.ofNat :=
      congrArg (List.map UInt8.ofNat) (List.take_of_length_le (by omega))
    rw [hmin] at hsupported ⊢
    rw [Nat.sub_self, emitted_of_zero]
    simp only [encodeAll_cons, encodeAll_nil, Element.encode, hsupported, hbody, List.append_nil,
      List.cons_append, List.nil_append]
    rfl

/-- **The writer writes the elements**, and returns how many bytes they take. -/
theorem serializeRateInformationElements_spec (destination : Nat) (rateBitmap : FixedBytes 16) :
    let r := serializeRateInformationElements destination rateBitmap (countRates rateBitmap)
    Consecutive destination r.1 ∧ storedBytes r.1 = encodeAll (rateElements rateBitmap) ∧
      r.2 = (encodeAll (rateElements rateBitmap)).length := by
  have hstart : Wrote { stores := [], offset := 0, rateIndex := 0 } destination [] :=
    ⟨.nil, rfl, rfl⟩
  have hheader := (hstart.put ieIdRates).put (UInt8.ofNat (min (rates rateBitmap).length 8))
  have hwrote := hheader.foldl_round rfl rateBitmap (min (rates rateBitmap).length 8)
    ((rates rateBitmap).length - min (rates rateBitmap).length 8) (List.range (maxRateValue + 1))
  have hbytes := encodeAll_rateElements rateBitmap
  rw [countRates_eq]
  refine ⟨hwrote.consecutive, ?_, ?_⟩
  · rw [hbytes]
    exact hwrote.stored
  · rw [hbytes]
    exact hwrote.offset

/-! ## The bodies -/

def wildcardSsid : Element := ⟨ieIdSsid, [], by decide⟩

def probeRequestElements (rateBitmap : FixedBytes 16) : List Element :=
  wildcardSsid :: rateElements rateBitmap

/-- **The body of a probe request** is written once, from the first byte to the last. -/
theorem probeRequestBody_spec (rateBitmap : FixedBytes 16) (data : Nat) :
    Consecutive data (probeRequestBody rateBitmap data) ∧
      storedBytes (probeRequestBody rateBitmap data) =
        encodeAll (probeRequestElements rateBitmap) ∧
      (encodeAll (probeRequestElements rateBitmap)).length = probeRequestDataSize rateBitmap := by
  obtain ⟨hconsecutive, hbytes, -⟩ :=
    serializeRateInformationElements_spec (data + 2) rateBitmap
  refine ⟨?_, ?_, ?_⟩
  · exact .cons (.cons hconsecutive)
  · rw [probeRequestBody, storedBytes_append, hbytes]
    rfl
  · rw [probeRequestDataSize, rateInformationElementsSize_eq, probeRequestElements, encodeAll_cons,
      List.length_append]
    rfl

/-- The loop stays in the buffer and below its limit. -/
theorem ssidSizeLoop_le (limit : Nat) (l : List UInt8) :
    ssidSizeLoop limit l ≤ limit ∧ ssidSizeLoop limit l ≤ l.length := by
  induction limit generalizing l with
  | zero => exact ⟨Nat.le_refl _, Nat.zero_le _⟩
  | succ limit ih =>
    cases l with
    | nil => exact ⟨Nat.zero_le _, Nat.le_refl _⟩
    | cons b l =>
      rw [ssidSizeLoop]
      split
      · exact ⟨Nat.zero_le _, Nat.zero_le _⟩
      · obtain ⟨hlimit, hlen⟩ := ih l
        exact ⟨Nat.succ_le_succ hlimit, Nat.succ_le_succ hlen⟩

/-- The loop stops at the first `NUL`. -/
theorem ssidSizeLoop_eq {limit : Nat} {s rest : List UInt8} (hlimit : s.length ≤ limit) :
    ssidSizeLoop limit (s ++ 0 :: rest) = (s.takeWhile (· ≠ 0)).length := by
  induction s generalizing limit with
  | nil =>
    cases limit with
    | zero => rfl
    | succ limit => exact if_pos rfl
  | cons b s ih =>
    cases limit with
    | zero => cases hlimit
    | succ limit =>
      rw [List.cons_append, ssidSizeLoop, List.takeWhile_cons]
      by_cases hb : b = 0
      · rw [if_pos hb, if_neg (by simpa using hb)]
        rfl
      · rw [if_neg hb, if_pos (by simpa using hb), ih (Nat.le_of_succ_le_succ hlimit)]
        rfl

/-- **What is taken for the SSID** is the terminated string up to its first `NUL`. -/
theorem take_ssidSize {ssid : FixedBytes 33} {s rest : List UInt8}
    (h : ssid.toList = s ++ 0 :: rest) :
    ssid.toList.take (ssidSize ssid) = s.takeWhile (· ≠ 0) := by
  have hlen : s.length ≤ maxSsidSize := by
    have h := congrArg List.length h
    rw [ssid.length_toList, List.length_append, List.length_cons] at h
    rw [maxSsidSize]
    omega
  have hprefix : s.takeWhile (· ≠ 0) <+: s ++ 0 :: rest :=
    (List.takeWhile_prefix _).trans (List.prefix_append _ _)
  rw [ssidSize, h, ssidSizeLoop_eq hlen]
  exact (List.prefix_iff_eq_take.mp hprefix).symm

theorem takeWhile_eq_self_iff_not_mem {s : List UInt8} :
    s.takeWhile (· ≠ 0) = s ↔ (0 : UInt8) ∉ s := by
  rw [List.takeWhile_eq_self_iff]
  constructor
  · intro h hmem
    simpa using h 0 hmem
  · intro h b hb
    simp only [ne_eq, decide_not, Bool.not_eq_true', decide_eq_false_iff_not]
    rintro rfl
    exact h hb

theorem length_take_ssid (ssid : FixedBytes 33) :
    (ssid.toList.take (ssidSize ssid)).length = ssidSize ssid := by
  rw [List.length_take]
  exact Nat.min_eq_left (ssidSizeLoop_le _ _).2

/-- The element with the SSID of an access point. -/
def ssidElement (ssid : FixedBytes 33) : Element where
  id := ieIdSsid
  body := ssid.toList.take (ssidSize ssid)
  fits := by
    rw [length_take_ssid]
    exact Nat.lt_of_le_of_lt (ssidSizeLoop_le _ _).1 (by decide)

/-- The SSID fits into its element. -/
theorem length_ssidElement_le (ssid : FixedBytes 33) :
    (ssidElement ssid).body.length ≤ maxSsidSize := by
  show (ssid.toList.take (ssidSize ssid)).length ≤ maxSsidSize
  rw [length_take_ssid]
  exact (ssidSizeLoop_le _ _).1

def associationRequestElements (ap : AccessPoint) (rateBitmap : FixedBytes 16) : List Element :=
  ssidElement ap.ssid :: rateElements rateBitmap

/-- The part in front of the elements. -/
def associationRequestFixed : List UInt8 :=
  serializeLe16 associationCapabilities ++ serializeLe16 associationListenInterval

/-- **The body of an association request** is written once, from the first byte to the last. -/
theorem associationRequestBody_spec (ap : AccessPoint) (rateBitmap : FixedBytes 16)
    (informationElements : List UInt8) (data : Nat) :
    let body := associationRequestBody ap rateBitmap informationElements data
    Consecutive data body ∧
      storedBytes body = associationRequestFixed ++
        (encodeAll (associationRequestElements ap rateBitmap) ++ informationElements) ∧
      (storedBytes body).length =
        associationRequestDataSize ap rateBitmap informationElements := by
  obtain ⟨hconsecutive, hbytes, hoffset⟩ :=
    serializeRateInformationElements_spec (data + 6 + ssidSize ap.ssid) rateBitmap
  have hssid := length_take_ssid ap.ssid
  have hsize : (ssidElement ap.ssid).size = UInt8.ofNat (ssidSize ap.ssid) :=
    congrArg UInt8.ofNat hssid
  -- the part in front of the rates
  obtain ⟨front, hfront⟩ : ∃ front : Stores, front =
      [(data, serializeLe16 associationCapabilities),
        (data + 2, serializeLe16 associationListenInterval), (data + 4, [ieIdSsid]),
        (data + 5, [UInt8.ofNat (ssidSize ap.ssid)]),
        (data + 6, ap.ssid.toList.take (ssidSize ap.ssid))] := ⟨_, rfl⟩
  have hfrontConsecutive : Consecutive data front := by
    rw [hfront]
    exact .cons (.cons (.cons (.cons (.cons .nil))))
  have hfrontBytes : storedBytes front =
      associationRequestFixed ++ (ssidElement ap.ssid).encode := by
    rw [hfront, Element.encode, hsize]
    simp only [storedBytes_cons, storedBytes_nil, List.append_nil]
    rfl
  have hfrontLength : (storedBytes front).length = 6 + ssidSize ap.ssid := by
    rw [hfrontBytes, List.length_append, Element.length_encode,
      show (ssidElement ap.ssid).body.length = ssidSize ap.ssid from hssid,
      show associationRequestFixed.length = 4 from rfl]
    omega
  -- the caller's own elements
  obtain ⟨own, hown⟩ : ∃ own : Stores, own =
      if informationElements.length ≠ 0 then
        [(data + 6 + ssidSize ap.ssid + (encodeAll (rateElements rateBitmap)).length,
          informationElements)]
      else [] := ⟨_, rfl⟩
  have hownBytes : storedBytes own = informationElements := by
    rw [hown]
    split
    · exact List.append_nil _
    · next h => exact (List.eq_nil_of_length_eq_zero (not_not.mp h)).symm
  have hownConsecutive : Consecutive
      (data + 6 + ssidSize ap.ssid + (encodeAll (rateElements rateBitmap)).length) own := by
    rw [hown]
    split
    · exact consecutive_singleton _ _
    · exact .nil
  have hbody : associationRequestBody ap rateBitmap informationElements data =
      front ++ (serializeRateInformationElements (data + 6 + ssidSize ap.ssid) rateBitmap
        (countRates rateBitmap)).1 ++ own := by
    rw [hfront, hown, ← hoffset]
    rfl
  dsimp only
  rw [hbody]
  refine ⟨?_, ?_, ?_⟩
  · refine (hfrontConsecutive.append ?_).append ?_
    · rw [hfrontLength, ← Nat.add_assoc]
      exact hconsecutive
    · rw [storedBytes_append, List.length_append, hfrontLength, hbytes, ← Nat.add_assoc,
        ← Nat.add_assoc]
      exact hownConsecutive
  · rw [storedBytes_append, storedBytes_append, hfrontBytes, hbytes, hownBytes,
      associationRequestElements, encodeAll_cons]
    simp only [List.append_assoc]
  · rw [storedBytes_append, storedBytes_append, List.length_append, List.length_append,
      hfrontLength, hbytes, hownBytes, associationRequestDataSize, rateInformationElementsSize_eq,
      associationRequestFixedSize]

/-! ## What the parser makes of them -/

/-- The second element is there when there are more than eight rates. -/
theorem mem_rateElements_iff {rateBitmap : FixedBytes 16} {e : Element} :
    e ∈ rateElements rateBitmap ↔ e = supportedRates rateBitmap ∨
      8 < (rates rateBitmap).length ∧ e = extendedRates rateBitmap := by
  rw [rateElements, List.mem_cons]
  split
  · next h => rw [List.mem_singleton, and_iff_right h]
  · next h => simp [h]

theorem carriesRates_rateElements {rateBitmap : FixedBytes 16} {e : Element}
    (h : e ∈ rateElements rateBitmap) : CarriesRates e := by
  rcases mem_rateElements_iff.mp h with rfl | ⟨-, rfl⟩
  · exact Or.inl rfl
  · exact Or.inr rfl

/-- The element of the rates is one that the parser admits. -/
theorem admitted_rateElements {rateBitmap : FixedBytes 16} {e : Element}
    (h : e ∈ rateElements rateBitmap) : Admitted e := by
  refine ⟨fun he => ?_, fun he => ?_, fun he => ?_⟩
  · exact absurd (carriesRates_rateElements h) (not_carriesRates he (by decide) (by decide))
  · exact absurd (carriesRates_rateElements h) (not_carriesRates he (by decide) (by decide))
  · rcases mem_rateElements_iff.mp h with rfl | ⟨-, rfl⟩
    · rw [length_supportedRates]
      exact Nat.min_le_right _ _
    · cases he

/-- The byte of a rate names that rate and no other. -/
theorem namesRate_ofNat_iff {r : Nat} (h : r ≤ maxRateValue) (rate : Nat) :
    NamesRate rate (UInt8.ofNat r) ↔ rate = r := by
  rw [maxRateValue] at h
  have hvalue : (UInt8.ofNat r &&& 0x7f).toNat = r := by
    rw [UInt8.toNat_and, UInt8.toNat_ofNat_of_lt' (show r < 256 by omega)]
    show r &&& 2 ^ 7 - 1 = r
    rw [Nat.and_two_pow_sub_one_eq_mod, Nat.mod_eq_of_lt (by omega)]
  unfold NamesRate
  rw [hvalue]
  omega

/-- Bytes that are rates name these rates. -/
theorem names_map_ofNat {l : List Nat} (h : ∀ r ∈ l, r ≤ maxRateValue) (rate : Nat) :
    (∃ b ∈ l.map UInt8.ofNat, NamesRate rate b) ↔ rate ∈ l := by
  constructor
  · rintro ⟨b, hb, hnames⟩
    obtain ⟨r, hr, rfl⟩ := List.mem_map.mp hb
    rw [(namesRate_ofNat_iff (h r hr) rate).mp hnames]
    exact hr
  · intro hrate
    exact ⟨_, List.mem_map_of_mem hrate, (namesRate_ofNat_iff (h rate hrate) rate).mpr rfl⟩

/-- The elements name the rates of the bitmap. -/
theorem names_rateElements (rateBitmap : FixedBytes 16) (rate : Nat) :
    (∃ e ∈ rateElements rateBitmap, CarriesRates e ∧ ∃ b ∈ e.body, NamesRate rate b) ↔
      rate ≤ maxRateValue ∧ hasRate rateBitmap rate = true := by
  have hle (r : Nat) (hr : r ∈ rates rateBitmap) : r ≤ maxRateValue := (mem_rates_iff.mp hr).1
  have hsupported : (∃ b ∈ (supportedRates rateBitmap).body, NamesRate rate b) ↔
      rate ∈ (rates rateBitmap).take 8 :=
    names_map_ofNat (fun r hr => hle r (List.mem_of_mem_take hr)) rate
  have hextended : (∃ b ∈ (extendedRates rateBitmap).body, NamesRate rate b) ↔
      rate ∈ (rates rateBitmap).drop 8 :=
    names_map_ofNat (fun r hr => hle r (List.mem_of_mem_drop hr)) rate
  have hsplit : rate ∈ rates rateBitmap ↔
      rate ∈ (rates rateBitmap).take 8 ∨ rate ∈ (rates rateBitmap).drop 8 := by
    rw [← List.mem_append, List.take_append_drop]
  rw [← mem_rates_iff, hsplit, ← hsupported, ← hextended]
  constructor
  · rintro ⟨e, he, -, hb⟩
    rcases mem_rateElements_iff.mp he with rfl | ⟨-, rfl⟩
    · exact Or.inl hb
    · exact Or.inr hb
  · rintro (hb | hb)
    · exact ⟨_, mem_rateElements_iff.mpr (Or.inl rfl), Or.inl rfl, hb⟩
    · refine ⟨_, mem_rateElements_iff.mpr (Or.inr ⟨?_, rfl⟩), Or.inr rfl, hb⟩
      -- an element without rates would not name one
      obtain ⟨b, hmem, -⟩ := hb
      have hpos := List.length_pos_of_mem hmem
      rw [length_extendedRates] at hpos
      omega

/-- **The elements of a request parse back**: the SSID, and the rates of the bitmap and of the
caller's own elements. -/
theorem parses_back (e : Element) (he : e.id = ieIdSsid) (hlen : e.body.length ≤ maxSsidSize)
    (rateBitmap : FixedBytes 16) {own : List Element} (hown : ∀ e ∈ own, Admitted e)
    (hssid : ∀ e ∈ own, e.id ≠ ieIdSsid) {start : InformationElements} (hstart : start.Zeroed) :
    ∃ out, processInformationElements start
        (encodeAll (e :: rateElements rateBitmap) ++ encodeAll own) = some (some out) ∧
      out.ssid.isSome = start.ssid.isSome ∧
      (∀ ssid ∈ out.ssid, slice ssid.toList 0 (e.body.length + 1) = e.body ++ [0]) ∧
      ∀ rate, hasRate out.rateBitmap rate = true ↔
        rate ≤ maxRateValue ∧ hasRate rateBitmap rate = true ∨
          ∃ e ∈ own, CarriesRates e ∧ ∃ b ∈ e.body, NamesRate rate b := by
  have hadmitted : ∀ e' ∈ e :: rateElements rateBitmap ++ own, Admitted e' := by
    intro e' he'
    rcases List.mem_append.mp he' with hfront | hmem
    · rcases List.mem_cons.mp hfront with rfl | hmem
      · refine ⟨fun _ => hlen, fun h => ?_, fun h => ?_⟩ <;>
          exact absurd (he.symm.trans h) (by decide)
      · exact admitted_rateElements hmem
    · exact hown e' hmem
  have hnot : ¬ CarriesRates e := not_carriesRates he (by decide) (by decide)
  have hlast : last ieIdSsid (e :: rateElements rateBitmap ++ own) = some e := by
    have hrest : ∀ e' ∈ rateElements rateBitmap ++ own, e'.id ≠ ieIdSsid := by
      intro e' he' hid
      rcases List.mem_append.mp he' with hmem | hmem
      · exact not_carriesRates hid (by decide) (by decide) (carriesRates_rateElements hmem)
      · exact hssid e' hmem hid
    exact last_cons_of_forall_ne he hrest
  rw [← encodeAll_append]
  rcases processInformationElements_spec start
    (encodeAll (e :: rateElements rateBitmap ++ own)) with ⟨es, out, hes, -, hr, hm⟩ | ⟨-, hrefused⟩
  · cases encodeAll_injective hes
    refine ⟨out, hr, hm.sameSsid, fun ssid h => ?_, fun rate => ?_⟩
    · have hholds := (hm.ssid ssid h).of_zeroed hstart
      rw [hlast] at hholds
      exact hholds
    · have hskip := names_append [e] (rateElements rateBitmap) rate
      rw [names_singleton] at hskip
      rw [hm.rates_of_zeroed hstart, names_append, ← names_rateElements]
      exact or_congr_left (hskip.trans (or_iff_right fun h => hnot h.1))
  · exact absurd hadmitted (hrefused _ rfl)

/-! ## What the driver is handed -/

/-- The driver has a buffer of the size, with nothing in it. -/
def Driver.Provides (driver : Driver) (size : Nat) : Prop :=
  ∃ d, driver.allocateTxBuffer size = .ok d ∧ d.Holds [] ∧ size ≤ d.currentOffset

/-- A buffer of the right size is asked for, and handed back with a header in front of a body. -/
def SendsFrame (driver : Driver) (s : Ops) (header : HeaderDescription) (body : List UInt8)
    (result : Option (Ops × Status)) : Prop :=
  ∃ d, result = some ({ s.nextSequence with calls := s.calls ++
        [.allocateTxBuffer (managementHeaderSize + body.length),
          .transmit d { key := none, cipher := none }] },
      driver.transmit d { key := none, cipher := none }) ∧
    d.content = header.bytes ++ body

/-- **A management frame is sent**: the header, and the bytes that are stored behind it. -/
theorem sendManagementPacket_spec {driver : Driver} (s : Ops) (address : MacAddress)
    {subtype : UInt16} {dataSize : Nat} {body : Nat → Stores} {bytes : List UInt8}
    (htype : frameControlGetType (subtype <<< 4) = frameControlTypeManagement)
    (hprovides : driver.Provides (managementHeaderSize + dataSize))
    (hbody : ∀ data, Consecutive data (body data) ∧ storedBytes (body data) = bytes)
    (hbytes : bytes.length = dataSize) :
    SendsFrame driver s (managementHeader s.device address subtype) bytes
      (sendManagementPacket driver s address subtype dataSize body) := by
  obtain ⟨d, hallocate, hd, hspace⟩ := hprovides
  rw [managementHeaderSize] at hspace
  obtain ⟨header, hheader⟩ : ∃ header, header = managementHeader s.device address subtype :=
    ⟨_, rfl⟩
  have hmanagement : frameControlGetType header.frameControl = frameControlTypeManagement := by
    rw [hheader]
    exact htype
  have hwire : header.wire = header.bytes :=
    header.wire_of_three (HeaderDescription.not_hasAddress4_of_management hmanagement)
  -- the space of the body, and the header in front of it
  obtain ⟨old, hold, hreserved⟩ := hd.reserve (show dataSize ≤ d.currentOffset by omega)
  obtain ⟨d₂, hserialize, hholds, hbehind⟩ := serializeHeader_wire (Or.inl hmanagement) hreserved
    (by
      rw [hwire, header.length_bytes]
      show 24 ≤ d.currentOffset - dataSize
      omega)
  rw [hwire] at hholds hbehind
  -- the body goes where the space is
  have hplace : d.data + (d.currentOffset - dataSize) =
      d₂.data + d₂.currentOffset + header.bytes.length := by
    rw [hbehind.data, hbehind.currentOffset, header.length_bytes]
    show _ = d.data + (d.currentOffset - dataSize - 24) + 24
    omega
  obtain ⟨d₃, hwrite, hholds₃, -⟩ := hholds.overwrite (hbytes.trans hold.symm)
  obtain ⟨hconsecutive, hstored⟩ := hbody (d.data + (d.currentOffset - dataSize))
  have hstore : d₂.store (body (d.data + (d.currentOffset - dataSize))) = some d₃ := by
    rw [hconsecutive.store d₂, hstored, hplace]
    · exact hwrite
    · have hb := hd.bounds
      have ho := hd.offset
      rw [hstored, hbytes, hbehind.buffer]
      show d.data + (d.currentOffset - dataSize) + dataSize ≤ d.buffer.length
      omega
  refine ⟨d₃, ?_, ?_⟩
  · rw [sendManagementPacket, prepareManagementPacket, hallocate]
    dsimp only
    rw [allocateSpace_of_le (show dataSize ≤ d.currentOffset by omega)]
    have hserialize' : serializeHeader (managementHeader s.device address subtype)
        { d with currentOffset := d.currentOffset - dataSize } = some (.ok d₂) := by
      rw [← hheader]
      exact hserialize
    simp only [Ops.call, hserialize', hstore, Option.bind_eq_bind, Option.bind_some,
      Ops.nextSequence, List.append_assoc, List.cons_append, List.nil_append, hbytes]
  · rw [hholds₃.content, List.append_nil, hheader]

/-- `u80211_send_probe_request` sends the elements of a probe request. -/
theorem sendProbeRequest_spec {driver : Driver} (s : Ops) (rateBitmap : FixedBytes 16)
    (hprovides : driver.Provides (managementHeaderSize + probeRequestDataSize rateBitmap)) :
    SendsFrame driver s
      (managementHeader s.device broadcastAddress frameControlSubtypeProbeRequest)
      (encodeAll (probeRequestElements rateBitmap)) (sendProbeRequest driver s rateBitmap) := by
  have hbody (data : Nat) := probeRequestBody_spec rateBitmap data
  have htype : frameControlGetType (frameControlSubtypeProbeRequest <<< 4) =
      frameControlTypeManagement := by decide
  exact sendManagementPacket_spec s broadcastAddress htype hprovides
    (fun data => ⟨(hbody data).1, (hbody data).2.1⟩) (hbody 0).2.2

/-- The bytes of an association request. -/
def associationRequestBytes (ap : AccessPoint) (rateBitmap : FixedBytes 16)
    (informationElements : List UInt8) : List UInt8 :=
  associationRequestFixed ++
    (encodeAll (associationRequestElements ap rateBitmap) ++ informationElements)

/-- `u80211_send_association_request` sends the request for the access point. -/
theorem sendAssociationRequest_spec {driver : Driver} {s : Ops} {ap : AccessPoint}
    (hap : s.device.association.ap = some ap) (rateBitmap : FixedBytes 16) (u : List UInt8)
    (hprovides :
      driver.Provides (managementHeaderSize + associationRequestDataSize ap rateBitmap u)) :
    SendsFrame driver s
      (managementHeader s.device ap.macAddress frameControlSubtypeAssociationRequest)
      (associationRequestBytes ap rateBitmap u)
      (sendAssociationRequest driver s rateBitmap u) := by
  have hbody (data : Nat) := associationRequestBody_spec ap rateBitmap u data
  have htype : frameControlGetType (frameControlSubtypeAssociationRequest <<< 4) =
      frameControlTypeManagement := by decide
  rw [sendAssociationRequest, hap]
  exact sendManagementPacket_spec s ap.macAddress htype hprovides
    (fun data => ⟨(hbody data).1, (hbody data).2.1⟩)
    ((congrArg List.length (hbody 0).2.1.symm).trans (hbody 0).2.2)

/-- The part behind the fixed one parses back. -/
theorem associationRequestBytes_parses_back {ap : AccessPoint} {ssid rest : List UInt8}
    (hterminated : ap.ssid.toList = ssid ++ 0 :: rest) (hnul : (0 : UInt8) ∉ ssid)
    (rateBitmap : FixedBytes 16) {u : List UInt8} {outᵤ : InformationElements}
    (hu : processInformationElements .zeroed u = some (some outᵤ))
    (hnossid : ∀ es, u = encodeAll es → ∀ e ∈ es, e.id ≠ ieIdSsid) :
    ∃ out, processInformationElements .zeroed
        (encodeAll (associationRequestElements ap rateBitmap) ++ u) = some (some out) ∧
      (∃ buffer, out.ssid = some buffer ∧
        slice buffer.toList 0 (ssid.length + 1) = ssid ++ [0]) ∧
      ∀ rate, hasRate out.rateBitmap rate = true ↔
        rate ≤ maxRateValue ∧ hasRate rateBitmap rate = true ∨
          hasRate outᵤ.rateBitmap rate = true := by
  have hbody : (ssidElement ap.ssid).body = ssid :=
    (take_ssidSize hterminated).trans (takeWhile_eq_self_iff_not_mem.mpr hnul)
  rcases processInformationElements_spec .zeroed u with
    ⟨own, out', rfl, hown, hr, hm⟩ | ⟨hr, -⟩
  · cases hu.symm.trans hr
    obtain ⟨out, hout, hsome, hssid, hrates⟩ := parses_back (ssidElement ap.ssid) rfl
      (length_ssidElement_le ap.ssid) rateBitmap hown (hnossid own rfl) zeroed_zeroed
    rw [hbody] at hssid
    obtain ⟨buffer, hbuffer⟩ := Option.isSome_iff_exists.mp hsome
    refine ⟨out, hout, ⟨buffer, hbuffer, hssid buffer hbuffer⟩, fun rate => ?_⟩
    rw [hrates, hm.rates_of_zeroed zeroed_zeroed]
  · cases hu.symm.trans hr

/-- **The requests that are sent fill their buffer exactly and parse back.** Each byte of the space
is stored once, and what is stored are the SSID, the rates of the device, and for an association
request, behind four bytes, also the caller's own elements. -/
theorem generated_requests (driver : Driver) (s : Ops) (rateBitmap : FixedBytes 16) :
    ((∀ data, storedOffsets (probeRequestBody rateBitmap data) =
        List.range' data (probeRequestDataSize rateBitmap)) ∧
      (driver.Provides (managementHeaderSize + probeRequestDataSize rateBitmap) →
        ∃ body out, SendsFrame driver s
            (managementHeader s.device broadcastAddress frameControlSubtypeProbeRequest) body
            (sendProbeRequest driver s rateBitmap) ∧
          body.length = probeRequestDataSize rateBitmap ∧
          body = encodeAll (wildcardSsid :: rateElements rateBitmap) ∧
          processInformationElements .zeroed body = some (some out) ∧
          (∃ ssid, out.ssid = some ssid ∧ slice ssid.toList 0 1 = [0]) ∧
          ∀ rate, hasRate out.rateBitmap rate = true ↔
            rate ≤ maxRateValue ∧ hasRate rateBitmap rate = true)) ∧
    ∀ ap ssid rest u outᵤ, s.device.association.ap = some ap →
      ap.ssid.toList = ssid ++ 0 :: rest → 0 ∉ ssid →
      processInformationElements .zeroed u = some (some outᵤ) →
      (∀ es, u = encodeAll es → ∀ e ∈ es, e.id ≠ ieIdSsid) →
        (∀ data, storedOffsets (associationRequestBody ap rateBitmap u data) =
          List.range' data (associationRequestDataSize ap rateBitmap u)) ∧
        (driver.Provides (managementHeaderSize + associationRequestDataSize ap rateBitmap u) →
          ∃ body out, SendsFrame driver s
              (managementHeader s.device ap.macAddress frameControlSubtypeAssociationRequest) body
              (sendAssociationRequest driver s rateBitmap u) ∧
            body.length = associationRequestDataSize ap rateBitmap u ∧
            body.drop associationRequestFixedSize =
              encodeAll (ssidElement ap.ssid :: rateElements rateBitmap) ++ u ∧
            processInformationElements .zeroed (body.drop associationRequestFixedSize) =
              some (some out) ∧
            (∃ buffer, out.ssid = some buffer ∧
              slice buffer.toList 0 (ssid.length + 1) = ssid ++ [0]) ∧
            ∀ rate, hasRate out.rateBitmap rate = true ↔
              rate ≤ maxRateValue ∧ hasRate rateBitmap rate = true ∨
                hasRate outᵤ.rateBitmap rate = true) := by
  constructor
  · refine ⟨fun data => ?_, fun hprovides => ?_⟩
    · obtain ⟨hconsecutive, hbytes, hlength⟩ := probeRequestBody_spec rateBitmap data
      rw [hconsecutive.offsets, hbytes, hlength]
    · have hparses := parses_back wildcardSsid rfl (Nat.zero_le _) rateBitmap
        (fun e h => absurd h List.not_mem_nil) (fun e h => absurd h List.not_mem_nil)
        zeroed_zeroed
      obtain ⟨out, hout, hsome, hssid, hrates⟩ := hparses
      obtain ⟨ssid, hs⟩ := Option.isSome_iff_exists.mp hsome
      rw [encodeAll_nil, List.append_nil] at hout
      refine ⟨_, out, sendProbeRequest_spec s rateBitmap hprovides,
        (probeRequestBody_spec rateBitmap 0).2.2, rfl, hout, ⟨ssid, hs, hssid ssid hs⟩, ?_⟩
      intro rate
      rw [hrates]
      exact or_iff_left fun ⟨e, h, _⟩ => absurd h List.not_mem_nil
  · intro ap ssid rest u outᵤ hap hterminated hnul hu hnossid
    refine ⟨fun data => ?_, fun hprovides => ?_⟩
    · obtain ⟨hconsecutive, -, hlength⟩ := associationRequestBody_spec ap rateBitmap u data
      rw [hconsecutive.offsets, hlength]
    · obtain ⟨-, hbytes, hlength⟩ := associationRequestBody_spec ap rateBitmap u 0
      obtain ⟨out, hout, hssid, hrates⟩ :=
        associationRequestBytes_parses_back hterminated hnul rateBitmap hu hnossid
      refine ⟨_, out, sendAssociationRequest_spec hap rateBitmap u hprovides, ?_, rfl, hout,
        hssid, hrates⟩
      rw [associationRequestBytes, ← hbytes]
      exact hlength

namespace Scenario

/-- A driver that hands out zeroed buffers and sends everything. -/
def driver : Driver where
  allocateTxBuffer size := .ok ⟨List.replicate size 0, 0, size, size⟩
  transmit _ _ := .success

/-- Station 1 is about to ask the access point for an association. -/
def requesting (ap : AccessPoint) : Ops where
  device := station 1 { Association.registered with state := .associating, ap := some ap } []
  calls := []

theorem driver_provides (size : Nat) : driver.Provides size := by
  refine ⟨_, rfl, ⟨Nat.le_refl _, ?_, ?_⟩, Nat.le_refl _⟩
  · show 0 + size ≤ (List.replicate size (0 : UInt8)).length
    rw [List.length_replicate, Nat.zero_add]
  · show slice _ _ (size - size) = []
    rw [Nat.sub_self]
    rfl

/-- The access point to ask, with an SSID of two octets. -/
def named : AccessPoint :=
  { accessPoint 2 with ssid := ⟨[97, 98] ++ List.replicate 31 0, by decide⟩ }

/-- The rates 2 and 4 of the device. -/
def deviceRates : FixedBytes 16 := ⟨0x14 :: List.replicate 15 0, by decide⟩

/-- The caller names one more rate. -/
def callerElements : List UInt8 := encodeAll [⟨ieIdRatesExt, [0x96], by decide⟩]

end Scenario

open Scenario in
theorem generated_requests_named :
    ∃ probe body out,
      SendsFrame driver (requesting named)
        (managementHeader (requesting named).device broadcastAddress
          frameControlSubtypeProbeRequest) probe
        (sendProbeRequest driver (requesting named) deviceRates) ∧
      probe = encodeAll (wildcardSsid :: rateElements deviceRates) ∧
      SendsFrame driver (requesting named)
        (managementHeader (requesting named).device named.macAddress
          frameControlSubtypeAssociationRequest) body
        (sendAssociationRequest driver (requesting named) deviceRates callerElements) ∧
      processInformationElements .zeroed (body.drop associationRequestFixedSize) =
        some (some out) ∧
      hasRate out.rateBitmap 22 = true := by
  obtain ⟨⟨-, hprobe⟩, hassociation⟩ := generated_requests driver (requesting named) deviceRates
  obtain ⟨probe, -, hsendsProbe, -, hprobeBytes, -⟩ := hprobe (driver_provides _)
  have hread : (processInformationElements .zeroed callerElements).map
      (fun r => r.map fun u => hasRate u.rateBitmap 22) = some (some true) := by
    decide
  obtain ⟨r, hu, hr⟩ := Option.map_eq_some_iff.mp hread
  obtain ⟨u, rfl, hrate⟩ := Option.map_eq_some_iff.mp hr
  have hnossid : ∀ es, callerElements = encodeAll es → ∀ e ∈ es, e.id ≠ ieIdSsid := by
    intro es hes
    rw [← encodeAll_injective hes]
    decide
  obtain ⟨-, hrequest⟩ := hassociation named [97, 98] (List.replicate 30 0) callerElements u rfl
    rfl (by decide) hu hnossid
  obtain ⟨body, out, hsends, -, -, hparses, -, hrates⟩ := hrequest (driver_provides _)
  exact ⟨probe, body, out, hsendsProbe, hprobeBytes, hsends, hparses,
    (hrates 22).mpr (Or.inr hrate)⟩

end U80211
