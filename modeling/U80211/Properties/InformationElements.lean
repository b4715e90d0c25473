import Mathlib.Data.Nat.Bitwise
import U80211.Lib.Tlv
import U80211.Management

/-!
# What the parser of information elements accepts, and what it computes

* `Admitted`: the grammar of an element
* `Means`: what the outputs say about a string of elements
* `readsElement_of_admitted`, `processInformationElement_refused`: one element
* `informationElementsLoop_sound`, `informationElementsLoop_complete`: the loop
* `information_elements`: **the parser accepts its grammar and computes its meaning**
-/

namespace U80211

open Memory Tlv

/-! ## The rate bitmap -/

theorem toNat_shift_one {k : Nat} (h : k < 8) : (1 <<< UInt8.ofNat k : UInt8).toNat = 2 ^ k := by
  match k, h with
  | 0, _ | 1, _ | 2, _ | 3, _ | 4, _ | 5, _ | 6, _ | 7, _ => rfl

theorem hasRate_eq_testBit (b : FixedBytes 16) (rate : Nat) :
    hasRate b rate = (b.toList.getD (rate / 8) 0).toNat.testBit (rate % 8) := by
  have hk : rate % 8 < 8 := Nat.mod_lt _ (by decide)
  unfold hasRate
  simp only [ne_eq, ← UInt8.toNat_inj, UInt8.toNat_and, toNat_shift_one hk, Nat.and_two_pow]
  cases (b.toList.getD (rate / 8) 0).toNat.testBit (rate % 8) <;> simp

theorem hasRate_zero (rate : Nat) : hasRate (.zero 16) rate = false := by
  have hbyte : (FixedBytes.zero 16).toList.getD (rate / 8) 0 = 0 := by
    rw [FixedBytes.zero, List.getD_eq_getElem?_getD, List.getElem?_replicate]
    split <;> rfl
  rw [hasRate_eq_testBit, hbyte]
  exact Nat.zero_testBit _

/-- One more bit is set. -/
theorem hasRate_orByte {b b' : FixedBytes 16} {r : UInt8} (hr : r.toNat < 128)
    (h : b.orByte (r / 8).toNat (1 <<< (r % 8)) = some b') {rate : Nat} :
    hasRate b' rate = true ↔ hasRate b rate = true ∨ rate = r.toNat := by
  have hdiv : (r / 8).toNat = r.toNat / 8 := UInt8.toNat_div r 8
  have hmod : r % 8 = UInt8.ofNat (r.toNat % 8) := by
    rw [← UInt8.toNat_inj, UInt8.toNat_ofNat', UInt8.toNat_mod]
    show r.toNat % 8 = r.toNat % 8 % 256
    omega
  have hk : r.toNat % 8 < 8 := Nat.mod_lt _ (by decide)
  have hlt : r.toNat / 8 < 16 := by omega
  rw [FixedBytes.orByte, hdiv, if_pos hlt] at h
  cases h
  have hlen : r.toNat / 8 < b.toList.length := by rw [b.length_toList]; exact hlt
  simp only [hasRate_eq_testBit, List.getD_eq_getElem?_getD, List.getElem?_set]
  by_cases hbyte : r.toNat / 8 = rate / 8
  · rw [if_pos hbyte, if_pos hlen, Option.getD_some, UInt8.toNat_or, hmod, toNat_shift_one hk,
      Nat.testBit_or, Nat.testBit_two_pow, Bool.or_eq_true, decide_eq_true_eq, hbyte]
    constructor
    · rintro (hold | hnew)
      · exact Or.inl hold
      · exact Or.inr (by omega)
    · rintro (hold | hnew)
      · exact Or.inl hold
      · exact Or.inr (by omega)
  · rw [if_neg hbyte]
    constructor
    · exact Or.inl
    · rintro (hold | rfl)
      · exact hold
      · exact absurd rfl hbyte

/-- A byte of an element names the rate. -/
def NamesRate (rate : Nat) (b : UInt8) : Prop :=
  (b &&& 0x7f).toNat = rate ∧ rate ≠ 126 ∧ rate ≠ 127

/-- **The bits that are set are those of the rates that are named.** -/
theorem handleRates_spec {b b' : FixedBytes 16} {rates : List UInt8}
    (h : handleRates b rates = some b') (rate : Nat) :
    hasRate b' rate = true ↔ hasRate b rate = true ∨ ∃ r ∈ rates, NamesRate rate r := by
  induction rates generalizing b with
  | nil =>
    cases h
    simp
  | cons r rates ih =>
    have hr : (r &&& 0x7f).toNat < 128 := by
      have hle : (r &&& 0x7f).toNat ≤ 127 := by
        rw [UInt8.toNat_and]
        exact Nat.and_le_right
      omega
    rw [handleRates] at h
    split at h
    · next hspecial =>
      have hnot : ¬ NamesRate rate r := by
        rintro ⟨rfl, h₁, h₂⟩
        rcases hspecial with hs | hs <;> rw [hs] at h₁ h₂ <;> contradiction
      rw [ih h, List.exists_mem_cons_iff, or_iff_right hnot]
    · next hspecial =>
      split at h
      · cases h
      · next b₁ hb₁ =>
        have hiff : rate = (r &&& 0x7f).toNat ↔ NamesRate rate r := by
          constructor
          · rintro rfl
            refine ⟨rfl, fun he => hspecial (Or.inl ?_), fun he => hspecial (Or.inr ?_)⟩
            · rw [← UInt8.toNat_inj, he]
              rfl
            · rw [← UInt8.toNat_inj, he]
              rfl
          · exact fun hn => hn.1.symm
        rw [ih h, hasRate_orByte hr hb₁, hiff, or_assoc, List.exists_mem_cons_iff]

/-! ## Elements -/

/-- The grammar of an element. -/
structure Admitted (e : Element) : Prop where
  ssid : e.id = ieIdSsid → e.body.length ≤ maxSsidSize
  channel : e.id = ieIdChannel → e.body.length = 1
  rates : e.id = ieIdRates → e.body.length ≤ 8

/-- The element names rates. -/
def CarriesRates (e : Element) : Prop := e.id = ieIdRates ∨ e.id = ieIdRatesExt

/-- An offset and a size designate the body of an element that is the last of its type. -/
def Designates (es : List Element) (e : Element) (p : Option Nat × Nat) : Prop :=
  ∃ pre post, es = pre ++ e :: post ∧ (∀ e' ∈ post, e'.id ≠ e.id) ∧
    p = (some ((encodeAll pre).length + 2), e.body.length)

section Means

variable (start : InformationElements)

/-- The buffer starts with the last SSID and a `NUL`, or is as it was. -/
def HoldsSsid (es : List Element) (buffer : FixedBytes 33) : Prop :=
  match last ieIdSsid es with
  | none => start.ssid = some buffer
  | some e => slice buffer.toList 0 (e.body.length + 1) = e.body ++ [0]

def HoldsChannel (es : List Element) (channel : UInt8) : Prop :=
  match last ieIdChannel es with
  | none => start.channel = some channel
  | some e => e.body = [channel]

def HoldsRsn (es : List Element) (p : Option Nat × Nat) : Prop :=
  match last ieIdRsn es with
  | none => start.rsn = some p
  | some e => Designates es e p

/-- **The meaning of a string of elements**: what has become of the outputs that the caller has
asked for. -/
structure Means (es : List Element) (out : InformationElements) : Prop where
  rates : ∀ rate, hasRate out.rateBitmap rate = true ↔ hasRate start.rateBitmap rate = true ∨
    ∃ e ∈ es, CarriesRates e ∧ ∃ b ∈ e.body, NamesRate rate b
  ssid : ∀ buffer ∈ out.ssid, HoldsSsid start es buffer
  channel : ∀ channel ∈ out.channel, HoldsChannel start es channel
  rsn : ∀ p ∈ out.rsn, HoldsRsn start es p
  sameSsid : out.ssid.isSome = start.ssid.isSome
  sameChannel : out.channel.isSome = start.channel.isSome
  sameRsn : out.rsn.isSome = start.rsn.isSome

theorem means_nil : Means start [] start where
  rates rate := by simp
  ssid _ h := h
  channel _ h := h
  rsn _ h := h
  sameSsid := rfl
  sameChannel := rfl
  sameRsn := rfl

end Means

variable {start out out' : InformationElements} {data rest : List UInt8} {e : Element}
  {es es' : List Element} {offset : Nat}

theorem holdsSsid_concat (h : e.id ≠ ieIdSsid) (buffer : FixedBytes 33) :
    HoldsSsid start (es ++ [e]) buffer ↔ HoldsSsid start es buffer := by
  unfold HoldsSsid
  rw [last_concat, if_neg h]

theorem holdsChannel_concat (h : e.id ≠ ieIdChannel) (channel : UInt8) :
    HoldsChannel start (es ++ [e]) channel ↔ HoldsChannel start es channel := by
  unfold HoldsChannel
  rw [last_concat, if_neg h]

theorem HoldsRsn.concat {p : Option Nat × Nat} (hp : HoldsRsn start es p)
    (h : e.id ≠ ieIdRsn) : HoldsRsn start (es ++ [e]) p := by
  unfold HoldsRsn at hp ⊢
  rw [last_concat, if_neg h]
  split
  · next hnone => simpa only [hnone] using hp
  · next e' hlast =>
    simp only [hlast] at hp
    obtain ⟨pre, post, rfl, hpost, rfl⟩ := hp
    refine ⟨pre, post ++ [e], by simp, ?_, rfl⟩
    intro e'' he
    rcases List.mem_append.mp he with hmem | hmem
    · exact hpost e'' hmem
    · rw [List.mem_singleton.mp hmem, id_of_last hlast]
      exact h

theorem names_append (es es' : List Element) (rate : Nat) :
    (∃ e ∈ es ++ es', CarriesRates e ∧ ∃ b ∈ e.body, NamesRate rate b) ↔
      (∃ e ∈ es, CarriesRates e ∧ ∃ b ∈ e.body, NamesRate rate b) ∨
        ∃ e ∈ es', CarriesRates e ∧ ∃ b ∈ e.body, NamesRate rate b := by
  simp only [List.mem_append, or_and_right, exists_or]

theorem names_singleton (e : Element) (rate : Nat) :
    (∃ e' ∈ [e], CarriesRates e' ∧ ∃ b ∈ e'.body, NamesRate rate b) ↔
      CarriesRates e ∧ ∃ b ∈ e.body, NamesRate rate b := by
  simp only [List.mem_singleton, exists_eq_left]

theorem carriesRates_concat {rate : Nat} :
    (∃ e' ∈ es ++ [e], CarriesRates e' ∧ ∃ b ∈ e'.body, NamesRate rate b) ↔
      (∃ e' ∈ es, CarriesRates e' ∧ ∃ b ∈ e'.body, NamesRate rate b) ∨
        CarriesRates e ∧ ∃ b ∈ e.body, NamesRate rate b := by
  rw [names_append, names_singleton]

theorem not_carriesRates {id : UInt8} (hid : e.id = id) (h : id ≠ ieIdRates)
    (h' : id ≠ ieIdRatesExt) : ¬ CarriesRates e := by
  subst hid
  exact not_or.mpr ⟨h, h'⟩

/-- An element that names no rates leaves the bitmap as it is. -/
theorem Means.rates_concat (h : Means start es out) (he : ¬ CarriesRates e) (rate : Nat) :
    hasRate out.rateBitmap rate = true ↔ hasRate start.rateBitmap rate = true ∨
      ∃ e' ∈ es ++ [e], CarriesRates e' ∧ ∃ b ∈ e'.body, NamesRate rate b := by
  rw [carriesRates_concat, h.rates rate]
  exact or_congr_right (or_iff_left fun hboth => he hboth.1).symm

/-- An element that does not fit the grammar is refused. -/
theorem processInformationElement_refused (h : ¬ Admitted e) :
    processInformationElement out data e.id offset e.body.length = some none := by
  unfold processInformationElement
  split
  · next hid =>
    refine if_pos (Nat.not_le.mp fun hle => h ⟨fun _ => hle, ?_, ?_⟩) <;> rw [hid] <;> intro he <;>
      cases he
  · next hssid =>
    split
    · next hid =>
      refine if_pos fun hone => h ⟨fun he => absurd he hssid, fun _ => hone, ?_⟩
      rw [hid]
      intro he
      cases he
    · next hchannel =>
      refine if_pos ?_
      by_contra hnot
      refine h ⟨fun he => absurd he hssid, fun he => absurd he hchannel, fun he => ?_⟩
      exact Nat.not_lt.mp fun hlt => hnot ⟨he, hlt⟩

/-- The body and a `NUL` are written over the start of the buffer. -/
theorem write_ssid (ssid : FixedBytes 33) {body : List UInt8} (h : body.length ≤ 32) :
    ∃ s₁ s₂ : FixedBytes 33, ssid.write 0 body = some s₁ ∧ s₁.write body.length [0] = some s₂ ∧
      slice s₂.toList 0 (body.length + 1) = body ++ [0] := by
  obtain ⟨s₁, h₁, hs₁⟩ := ssid.write_of_le (show 0 + body.length ≤ 33 by omega)
  obtain ⟨s₂, h₂, hs₂⟩ := s₁.write_of_le (show body.length + [(0 : UInt8)].length ≤ 33 by
    rw [List.length_singleton]
    omega)
  refine ⟨s₁, s₂, h₁, h₂, ?_⟩
  have htake : s₁.toList.take body.length = body := by
    rw [hs₁, List.take_zero, List.nil_append, List.take_left]
  rw [hs₂, htake]
  have hdrop : (body ++ [0] ++ s₁.toList.drop (body.length + 1)).drop 0 =
      body ++ [0] ++ s₁.toList.drop (body.length + 1) := rfl
  exact slice_of_drop hdrop (by simp)

/-- The element at the offset is read for its meaning. -/
def ReadsElement (start out : InformationElements) (data : List UInt8) (offset : Nat)
    (es : List Element) (e : Element) : Prop :=
  ∃ out', processInformationElement out data e.id offset e.body.length = some (some out') ∧
    Means start (es ++ [e]) out'

section ReadsElement

variable (hm : Means start es out)
  (hread : readBytes data offset e.body.length = some ⟨e.body, rfl⟩)

include hm

/-- An element that is skipped is about none of the outputs. -/
theorem means_skip (hssid : e.id ≠ ieIdSsid) (hchannel : e.id ≠ ieIdChannel)
    (hrates : ¬ CarriesRates e) (hrsn : e.id ≠ ieIdRsn) : Means start (es ++ [e]) out where
  rates := hm.rates_concat hrates
  ssid buffer hb := (holdsSsid_concat hssid buffer).mpr (hm.ssid buffer hb)
  channel c hc := (holdsChannel_concat hchannel c).mpr (hm.channel c hc)
  rsn p hp := (hm.rsn p hp).concat hrsn
  sameSsid := hm.sameSsid
  sameChannel := hm.sameChannel
  sameRsn := hm.sameRsn

include hread

theorem readsElement_ssid (hid : e.id = ieIdSsid) (hlen : e.body.length ≤ maxSsidSize) :
    ReadsElement start out data offset es e := by
  have hrates := not_carriesRates hid (by decide) (by decide)
  have hchannel : e.id ≠ ieIdChannel := by rw [hid]; decide
  have hrsn : e.id ≠ ieIdRsn := by rw [hid]; decide
  unfold ReadsElement processInformationElement
  rw [if_pos hid, if_neg (Nat.not_lt.mpr hlen)]
  have hframe (c : UInt8) (hc : c ∈ out.channel) : HoldsChannel start (es ++ [e]) c :=
    (holdsChannel_concat hchannel c).mpr (hm.channel c hc)
  cases hssid : out.ssid with
  | none =>
    refine ⟨out, rfl, hm.rates_concat hrates, ?_, hframe, fun p hp => (hm.rsn p hp).concat hrsn,
      hm.sameSsid, hm.sameChannel, hm.sameRsn⟩
    rw [hssid]
    intro buffer hb
    cases hb
  | some ssid =>
    obtain ⟨s₁, s₂, h₁, h₂, hslice⟩ := write_ssid ssid hlen
    refine ⟨{ out with ssid := some s₂ }, ?_,
      hm.rates_concat hrates, ?_, hframe, fun p hp => (hm.rsn p hp).concat hrsn,
      by rw [← hm.sameSsid, hssid]; rfl, hm.sameChannel, hm.sameRsn⟩
    · simp only [hread, h₁, h₂, Option.bind_eq_bind, Option.bind_some]
    · intro buffer hb
      cases hb
      unfold HoldsSsid
      rw [last_concat, if_pos hid]
      exact hslice

theorem readsElement_channel (hid : e.id = ieIdChannel) (hlen : e.body.length = 1) :
    ReadsElement start out data offset es e := by
  have hrates := not_carriesRates hid (by decide) (by decide)
  have hssid : e.id ≠ ieIdSsid := by rw [hid]; decide
  have hrsn : e.id ≠ ieIdRsn := by rw [hid]; decide
  obtain ⟨c, hbody⟩ := List.length_eq_one_iff.mp hlen
  have hbyte : data[offset]? = some c := by
    obtain ⟨hle, hslice⟩ := readBytes_eq_some hread
    have hget : (slice data offset e.body.length)[0]? = data[offset]? := by
      rw [slice, List.getElem?_take_of_lt (by omega), List.getElem?_drop, Nat.add_zero]
    rw [← hget, ← hslice, FixedBytes.toList, hbody]
    rfl
  unfold ReadsElement processInformationElement
  rw [if_neg hssid, if_pos hid, if_neg (not_not.mpr hlen)]
  have hframe (b : FixedBytes 33) (hb : b ∈ out.ssid) : HoldsSsid start (es ++ [e]) b :=
    (holdsSsid_concat hssid b).mpr (hm.ssid b hb)
  cases hchannel : out.channel with
  | none =>
    refine ⟨out, rfl, hm.rates_concat hrates, hframe, ?_, fun p hp => (hm.rsn p hp).concat hrsn,
      hm.sameSsid, hm.sameChannel, hm.sameRsn⟩
    rw [hchannel]
    intro c' hc
    cases hc
  | some c₀ =>
    refine ⟨{ out with channel := some c }, ?_,
      hm.rates_concat hrates, hframe, ?_, fun p hp => (hm.rsn p hp).concat hrsn,
      hm.sameSsid, by rw [← hm.sameChannel, hchannel]; rfl, hm.sameRsn⟩
    · simp only [hbyte, Option.bind_eq_bind, Option.bind_some]
    · intro c' hc
      cases hc
      unfold HoldsChannel
      rw [last_concat, if_pos hid]
      exact hbody

theorem readsElement_rates (hrates : CarriesRates e)
    (hlen : e.id = ieIdRates → e.body.length ≤ 8) : ReadsElement start out data offset es e := by
  have hssid : e.id ≠ ieIdSsid := by rcases hrates with h | h <;> rw [h] <;> decide
  have hchannel : e.id ≠ ieIdChannel := by rcases hrates with h | h <;> rw [h] <;> decide
  have hrsn : e.id ≠ ieIdRsn := by rcases hrates with h | h <;> rw [h] <;> decide
  obtain ⟨bitmap, hbitmap⟩ := handleRates_isSome e.body out.rateBitmap
  unfold ReadsElement processInformationElement
  rw [if_neg hssid, if_neg hchannel, if_neg fun hlong => Nat.not_lt.mpr (hlen hlong.1) hlong.2,
    if_pos (show e.id = ieIdRates ∨ e.id = ieIdRatesExt from hrates)]
  refine ⟨{ out with rateBitmap := bitmap }, ?_, ?_, ?_, ?_, ?_, hm.sameSsid, hm.sameChannel,
    hm.sameRsn⟩
  · simp only [hread, hbitmap, Option.bind_eq_bind, Option.bind_some]
  · intro rate
    rw [carriesRates_concat, handleRates_spec hbitmap rate, hm.rates rate, or_assoc,
      and_iff_right hrates]
  · exact fun b hb => (holdsSsid_concat hssid b).mpr (hm.ssid b hb)
  · exact fun c hc => (holdsChannel_concat hchannel c).mpr (hm.channel c hc)
  · exact fun p hp => (hm.rsn p hp).concat hrsn

omit hread

theorem readsElement_rsn (hid : e.id = ieIdRsn) (hoffset : offset = (encodeAll es).length + 2) :
    ReadsElement start out data offset es e := by
  have hrates := not_carriesRates hid (by decide) (by decide)
  have hssid : e.id ≠ ieIdSsid := by rw [hid]; decide
  have hchannel : e.id ≠ ieIdChannel := by rw [hid]; decide
  have hlong : ¬ (e.id = ieIdRates ∧ 8 < e.body.length) := fun h => hrates (Or.inl h.1)
  unfold ReadsElement processInformationElement
  rw [if_neg hssid, if_neg hchannel, if_neg hlong,
    if_neg (show ¬ (e.id = ieIdRates ∨ e.id = ieIdRatesExt) from hrates), if_pos hid]
  have hframe (b : FixedBytes 33) (hb : b ∈ out.ssid) : HoldsSsid start (es ++ [e]) b :=
    (holdsSsid_concat hssid b).mpr (hm.ssid b hb)
  have hframe' (c : UInt8) (hc : c ∈ out.channel) : HoldsChannel start (es ++ [e]) c :=
    (holdsChannel_concat hchannel c).mpr (hm.channel c hc)
  cases hrsn : out.rsn with
  | none =>
    refine ⟨out, rfl, hm.rates_concat hrates, hframe, hframe', ?_, hm.sameSsid, hm.sameChannel,
      hm.sameRsn⟩
    rw [hrsn]
    intro p hp
    cases hp
  | some p₀ =>
    refine ⟨{ out with rsn := some (some offset, e.body.length) }, rfl,
      hm.rates_concat hrates, hframe, hframe', ?_, hm.sameSsid, hm.sameChannel,
      by rw [← hm.sameRsn, hrsn]; rfl⟩
    intro p hp
    cases hp
    unfold HoldsRsn
    rw [last_concat, if_pos hid]
    refine ⟨es, [], rfl, ?_, by rw [hoffset]⟩
    intro e' he
    cases he

include hread

/-- **An element that fits the grammar is read for its meaning.** -/
theorem readsElement_of_admitted (h : Admitted e) (hoffset : offset = (encodeAll es).length + 2) :
    ReadsElement start out data offset es e := by
  by_cases hssid : e.id = ieIdSsid
  · exact readsElement_ssid hm hread hssid (h.ssid hssid)
  by_cases hchannel : e.id = ieIdChannel
  · exact readsElement_channel hm hread hchannel (h.channel hchannel)
  by_cases hrates : CarriesRates e
  · exact readsElement_rates hm hread hrates h.rates
  by_cases hrsn : e.id = ieIdRsn
  · exact readsElement_rsn hm hrsn hoffset
  refine ⟨out, ?_, means_skip hm hssid hchannel hrates hrsn⟩
  have hlong : ¬ (e.id = ieIdRates ∧ 8 < e.body.length) := fun h => hrates (Or.inl h.1)
  unfold processInformationElement
  rw [if_neg hssid, if_neg hchannel, if_neg hlong,
    if_neg (show ¬ (e.id = ieIdRates ∨ e.id = ieIdRatesExt) from hrates), if_neg hrsn]

end ReadsElement

/-! ## The loop -/

variable {pre : List UInt8} {rounds : Nat}

/-- One round reads the element at the offset. -/
theorem informationElementsLoop_element (hdata : data = pre ++ (e.encode ++ rest)) :
    informationElementsLoop data (rounds + 1) pre.length out =
      (processInformationElement out data e.id (pre.length + 2) e.body.length).bind fun
        | none => some none
        | some out' => informationElementsLoop data rounds (pre ++ e.encode).length out' := by
  have hlen : data.length = pre.length + 2 + e.body.length + rest.length := by
    rw [hdata]
    simp only [List.length_append, Element.length_encode]
    omega
  have hid : data[pre.length]? = some e.id := by
    rw [hdata, List.getElem?_append_right (Nat.le_refl _), Nat.sub_self]
    rfl
  have hsize : data[pre.length + 1]? = some e.size := by
    rw [hdata, List.getElem?_append_right (Nat.le_add_right _ _), Nat.add_sub_cancel_left]
    rfl
  have hnext : (pre ++ e.encode).length = pre.length + 2 + e.body.length := by
    rw [List.length_append, Element.length_encode]
    omega
  have hshort : ¬ data.length - pre.length < 2 := by omega
  have hlong : ¬ data.length - (pre.length + 2) < e.body.length := by omega
  rw [informationElementsLoop, if_pos (by omega), hid, hsize, hnext]
  rcases hr : processInformationElement out data e.id (pre.length + 2) e.body.length with
    _ | _ | out' <;>
  simp only [subtractSize_of_le (show pre.length ≤ data.length by omega),
    subtractSize_of_le (show pre.length + 2 ≤ data.length by omega), Option.bind_eq_bind,
    Option.bind_some, Option.bind_none, Element.toNat_size, if_neg hshort, if_neg hlong, hr]

/-- What does not start with an element is refused. -/
theorem informationElementsLoop_truncated (hdata : data = pre ++ rest) (hrest : rest ≠ [])
    (h : rest.length < 2 ∨ ∃ id size tail, rest = id :: size :: tail ∧ tail.length < size.toNat) :
    informationElementsLoop data (rounds + 1) pre.length out = some none := by
  have hpos := List.length_pos_iff.mpr hrest
  have hlen : data.length = pre.length + rest.length := by rw [hdata, List.length_append]
  rw [informationElementsLoop, if_pos (by omega),
    subtractSize_of_le (show pre.length ≤ data.length by omega)]
  simp only [Option.bind_eq_bind, Option.bind_some]
  rcases h with hshort | ⟨id, size, tail, rfl, htail⟩
  · rw [if_pos (by omega)]
  · have hget : data[pre.length]? = some id := by
      rw [hdata, List.getElem?_append_right (Nat.le_refl _), Nat.sub_self]
      rfl
    have hget' : data[pre.length + 1]? = some size := by
      rw [hdata, List.getElem?_append_right (Nat.le_add_right _ _), Nat.add_sub_cancel_left]
      rfl
    simp only [List.length_cons] at hlen
    rw [if_neg (by omega), hget, hget']
    simp only [Option.bind_some, subtractSize_of_le (show pre.length + 2 ≤ data.length by omega)]
    rw [if_pos (by omega)]

/-- A string starts with an element, or is truncated. -/
theorem element_or_truncated (rest : List UInt8) :
    (∃ (e : Element) (rest' : List UInt8), rest = e.encode ++ rest') ∨
      (rest.length < 2 ∨
        ∃ id size tail, rest = id :: size :: tail ∧ tail.length < size.toNat) := by
  match rest with
  | [] => exact Or.inr (Or.inl (by decide))
  | [_] => exact Or.inr (Or.inl Nat.one_lt_two)
  | id :: size :: tail =>
    rcases Nat.lt_or_ge tail.length size.toNat with hlt | hle
    · exact Or.inr (Or.inr ⟨id, size, tail, rfl, hlt⟩)
    · obtain ⟨e, -, -, he⟩ := exists_element id size hle
      exact Or.inl ⟨e, _, he⟩

/-- The body of an element that stands in the string. -/
theorem readBytes_body (hdata : data = pre ++ (e.encode ++ rest)) :
    readBytes data (pre.length + 2) e.body.length = some ⟨e.body, rfl⟩ := by
  have hdrop : data.drop (pre.length + 2) = e.body ++ rest := by
    rw [hdata, ← List.drop_drop, List.drop_left]
    rfl
  have hle : pre.length + 2 + e.body.length ≤ data.length := by
    rw [hdata]
    simp only [List.length_append, Element.length_encode]
    omega
  rw [readBytes_of_le hle, Option.some.injEq, FixedBytes.ext_iff']
  exact slice_of_drop hdrop rfl

/-- **What the loop accepts is a string of admitted elements**, and it has read their meaning. -/
theorem informationElementsLoop_sound (hm : Means start es out)
    (hdata : data = encodeAll es ++ rest)
    (h : informationElementsLoop data rounds (encodeAll es).length out = some (some out')) :
    ∃ es', rest = encodeAll es' ∧ (∀ e ∈ es', Admitted e) ∧ Means start (es ++ es') out' := by
  induction rounds generalizing es out rest with
  | zero => cases h
  | succ rounds ih =>
    by_cases hrest : rest = []
    · subst hrest
      rw [informationElementsLoop, if_neg (by rw [hdata, List.append_nil]; omega)] at h
      cases h
      exact ⟨[], rfl, fun e he => absurd he List.not_mem_nil, by rw [List.append_nil]; exact hm⟩
    · rcases element_or_truncated rest with ⟨e, rest', rfl⟩ | htruncated
      · rw [informationElementsLoop_element hdata] at h
        by_cases hadmitted : Admitted e
        · obtain ⟨out₁, hstep, hm₁⟩ :=
            readsElement_of_admitted hm (readBytes_body hdata) hadmitted rfl
          rw [hstep, Option.bind_some] at h
          have hdata₁ : data = encodeAll (es ++ [e]) ++ rest' := by
            rw [hdata, encodeAll_append, encodeAll_cons, encodeAll_nil, List.append_nil,
              List.append_assoc]
          have hnext : encodeAll es ++ e.encode = encodeAll (es ++ [e]) := by simp
          simp only [hnext] at h
          obtain ⟨es', rfl, hes', hm'⟩ := ih hm₁ hdata₁ h
          refine ⟨e :: es', rfl, List.forall_mem_cons.mpr ⟨hadmitted, hes'⟩, ?_⟩
          rw [List.append_assoc] at hm'
          exact hm'
        · rw [processInformationElement_refused hadmitted, Option.bind_some] at h
          cases h
      · rw [informationElementsLoop_truncated hdata hrest htruncated] at h
        cases h

/-- **The loop accepts every string of admitted elements.** -/
theorem informationElementsLoop_complete (hm : Means start es out)
    (hdata : data = encodeAll es ++ encodeAll es') (h : ∀ e ∈ es', Admitted e)
    (hrounds : data.length < (encodeAll es).length + rounds) :
    ∃ out', informationElementsLoop data rounds (encodeAll es).length out = some (some out') := by
  induction es' generalizing es out rounds with
  | nil =>
    have hlen : data.length = (encodeAll es).length := by rw [hdata]; simp
    cases rounds with
    | zero => omega
    | succ rounds =>
      rw [informationElementsLoop, if_neg (by omega)]
      exact ⟨out, rfl⟩
  | cons e es' ih =>
    obtain ⟨hadmitted, hes'⟩ := List.forall_mem_cons.mp h
    rw [encodeAll_cons] at hdata
    have hlen : data.length =
        (encodeAll es).length + (e.body.length + 2 + (encodeAll es').length) := by
      rw [hdata]
      simp only [List.length_append, Element.length_encode]
    have hdata₁ : data = encodeAll (es ++ [e]) ++ encodeAll es' := by
      rw [hdata, encodeAll_append, encodeAll_cons, encodeAll_nil, List.append_nil,
        List.append_assoc]
    have hnext : encodeAll es ++ e.encode = encodeAll (es ++ [e]) := by simp
    cases rounds with
    | zero => omega
    | succ rounds =>
      obtain ⟨out₁, hstep, hm₁⟩ :=
        readsElement_of_admitted hm (readBytes_body hdata) hadmitted rfl
      rw [informationElementsLoop_element hdata, hstep, Option.bind_some]
      simp only [hnext]
      refine ih hm₁ hdata₁ hes' ?_
      rw [← hnext, List.length_append, Element.length_encode]
      omega

/-- The parser accepts a string, and has read its meaning, if it is one of admitted elements. -/
theorem processInformationElements_spec (start : InformationElements) (data : List UInt8) :
    (∃ es out, data = encodeAll es ∧ (∀ e ∈ es, Admitted e) ∧
        processInformationElements start data = some (some out) ∧ Means start es out) ∨
      processInformationElements start data = some none ∧
        ∀ es, data = encodeAll es → ¬ ∀ e ∈ es, Admitted e := by
  obtain ⟨r, hr⟩ := processInformationElements_isSome start data
  have hm := means_nil start
  cases r with
  | some out =>
    obtain ⟨es, hdata, hes, hmeans⟩ := informationElementsLoop_sound hm rfl hr
    exact Or.inl ⟨es, out, hdata, hes, hr, hmeans⟩
  | none =>
    refine Or.inr ⟨hr, fun es hdata hes => ?_⟩
    have hrounds : data.length < (encodeAll []).length + (data.length + 1) := by simp
    obtain ⟨out, hout⟩ := informationElementsLoop_complete hm hdata hes hrounds
    cases hr.symm.trans hout

/-- The caller has zeroed the outputs that it has asked for. -/
structure InformationElements.Zeroed (start : InformationElements) : Prop where
  rateBitmap : start.rateBitmap = .zero 16
  ssid : ∀ buffer ∈ start.ssid, buffer = .zero 33
  channel : ∀ channel ∈ start.channel, channel = 0
  rsn : ∀ p ∈ start.rsn, p = (none, 0)

/-- A caller that asks for all of the outputs. -/
def InformationElements.zeroed : InformationElements where
  rateBitmap := .zero 16
  ssid := some (.zero 33)
  channel := some 0
  rsn := some (none, 0)

theorem zeroed_zeroed : InformationElements.zeroed.Zeroed where
  rateBitmap := rfl
  ssid _ h := (Option.some.inj h).symm
  channel _ h := (Option.some.inj h).symm
  rsn _ h := (Option.some.inj h).symm

/-- The body that is designated stands in the string. -/
theorem Designates.slice {p : Option Nat × Nat} (h : Designates es e p) :
    ∃ off, p = (some off, e.body.length) ∧
      Memory.slice (encodeAll es) off e.body.length = e.body := by
  obtain ⟨pre, post, rfl, -, rfl⟩ := h
  have hdrop : (encodeAll (pre ++ e :: post)).drop ((encodeAll pre).length + 2) =
      e.body ++ encodeAll post := by
    rw [encodeAll_append, encodeAll_cons, ← List.drop_drop, List.drop_left]
    rfl
  exact ⟨_, rfl, slice_of_drop hdrop rfl⟩

theorem HoldsSsid.of_zeroed {ssid : FixedBytes 33} (h : HoldsSsid start es ssid)
    (hzero : start.Zeroed) : match last ieIdSsid es with
      | none => ssid = .zero 33
      | some e => Memory.slice ssid.toList 0 (e.body.length + 1) = e.body ++ [0] := by
  unfold HoldsSsid at h
  cases hlast : last ieIdSsid es with
  | none =>
    rw [hlast] at h
    exact hzero.ssid ssid h
  | some e =>
    rw [hlast] at h
    exact h

theorem HoldsChannel.of_zeroed {channel : UInt8} (h : HoldsChannel start es channel)
    (hzero : start.Zeroed) : match last ieIdChannel es with
      | none => channel = 0
      | some e => e.body = [channel] := by
  unfold HoldsChannel at h
  cases hlast : last ieIdChannel es with
  | none =>
    rw [hlast] at h
    exact hzero.channel channel h
  | some e =>
    rw [hlast] at h
    exact h

theorem HoldsRsn.of_zeroed {p : Option Nat × Nat} (h : HoldsRsn start es p)
    (hzero : start.Zeroed) : match last ieIdRsn es with
      | none => p = (none, 0)
      | some e => Designates es e p ∧ ∃ off, p = (some off, e.body.length) ∧
          Memory.slice (encodeAll es) off e.body.length = e.body := by
  unfold HoldsRsn at h
  cases hlast : last ieIdRsn es with
  | none =>
    rw [hlast] at h
    exact hzero.rsn p h
  | some e =>
    rw [hlast] at h
    exact ⟨h, h.slice⟩

theorem Means.rates_of_zeroed (h : Means start es out) (hzero : start.Zeroed) (rate : Nat) :
    hasRate out.rateBitmap rate = true ↔
      ∃ e ∈ es, CarriesRates e ∧ ∃ b ∈ e.body, NamesRate rate b := by
  rw [h.rates rate, hzero.rateBitmap, hasRate_zero]
  simp

/-- **The parser of information elements accepts exactly its grammar and computes exactly its
meaning.** -/
theorem information_elements (data : List UInt8) :
    (∀ start, ∃ r, processInformationElements start data = some r ∧
      (r.isSome = true ↔ ∃ es, data = encodeAll es ∧ ∀ e ∈ es, Admitted e)) ∧
    ∀ start out, start.Zeroed → processInformationElements start data = some (some out) →
      ∀ es, data = encodeAll es →
        (∀ rate, hasRate out.rateBitmap rate = true ↔
          ∃ e ∈ es, CarriesRates e ∧ ∃ b ∈ e.body, NamesRate rate b) ∧
        (out.ssid.isSome = start.ssid.isSome ∧ ∀ ssid ∈ out.ssid, match last ieIdSsid es with
          | none => ssid = .zero 33
          | some e => slice ssid.toList 0 (e.body.length + 1) = e.body ++ [0]) ∧
        (out.channel.isSome = start.channel.isSome ∧
          ∀ channel ∈ out.channel, match last ieIdChannel es with
            | none => channel = 0
            | some e => e.body = [channel]) ∧
        (out.rsn.isSome = start.rsn.isSome ∧ ∀ p ∈ out.rsn, match last ieIdRsn es with
          | none => p = (none, 0)
          | some e => Designates es e p ∧
            ∃ off, p = (some off, e.body.length) ∧ slice data off e.body.length = e.body) := by
  constructor
  · intro start
    rcases processInformationElements_spec start data with ⟨es, out, hdata, hes, hr, -⟩ | ⟨hr, hnot⟩
    · exact ⟨_, hr, iff_of_true rfl ⟨es, hdata, hes⟩⟩
    · exact ⟨_, hr, iff_of_false Bool.false_ne_true fun ⟨es, hdata, hes⟩ => hnot es hdata hes⟩
  · rintro start out hzero hr es rfl
    rcases processInformationElements_spec start (encodeAll es) with
      ⟨es', out', hdata, -, hr', hm⟩ | ⟨hr', -⟩
    · cases hr.symm.trans hr'
      cases encodeAll_injective hdata
      exact ⟨hm.rates_of_zeroed hzero,
        ⟨hm.sameSsid, fun ssid h => (hm.ssid ssid h).of_zeroed hzero⟩,
        ⟨hm.sameChannel, fun channel h => (hm.channel channel h).of_zeroed hzero⟩,
        ⟨hm.sameRsn, fun p h => (hm.rsn p h).of_zeroed hzero⟩⟩
    · cases hr.symm.trans hr'

namespace Scenario

/-- An SSID of two octets, two rates, a channel and an RSN element. -/
def elements : List Element :=
  [⟨ieIdSsid, [97, 98], by decide⟩, ⟨ieIdRates, [0x82, 0x04], by decide⟩,
    ⟨ieIdChannel, [6], by decide⟩, ⟨ieIdRsn, [1, 0, 5], by decide⟩]

theorem admitted_elements : ∀ e ∈ elements, Admitted e := by
  have hall : ∀ e ∈ elements, (e.id = ieIdSsid → e.body.length ≤ maxSsidSize) ∧
      (e.id = ieIdChannel → e.body.length = 1) ∧ (e.id = ieIdRates → e.body.length ≤ 8) := by
    decide
  intro e he
  obtain ⟨hssid, hchannel, hrates⟩ := hall e he
  exact ⟨hssid, hchannel, hrates⟩

end Scenario

open Scenario in
theorem information_elements_read :
    ∃ out, processInformationElements .zeroed (encodeAll elements) = some (some out) ∧
      out.channel = some 6 ∧ hasRate out.rateBitmap 4 = true := by
  obtain ⟨haccepts, hmeans⟩ := information_elements (encodeAll elements)
  obtain ⟨r, hr, hiff⟩ := haccepts .zeroed
  obtain ⟨out, rfl⟩ := Option.isSome_iff_exists.mp (hiff.mpr ⟨elements, rfl, admitted_elements⟩)
  obtain ⟨hrates, -, ⟨hsome, hchannel⟩, -⟩ := hmeans _ out zeroed_zeroed hr elements rfl
  refine ⟨out, hr, ?_, (hrates 4).mpr ?_⟩
  · obtain ⟨channel, hc⟩ := Option.isSome_iff_exists.mp (hsome.trans rfl)
    have hbody : [6] = [channel] := hchannel channel hc
    rw [hc, (List.cons.inj hbody).1]
  · have hnames : NamesRate 4 0x04 := ⟨rfl, by decide, by decide⟩
    exact ⟨_, List.mem_cons_of_mem _ (List.mem_cons_self ..), Or.inl rfl, 0x04, by decide, hnames⟩

end U80211
