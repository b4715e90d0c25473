import U80211.Properties.PacketNumbers
import U80211.Properties.Roundtrip

/-!
# The look-ups of one transmission

A transmission looks the key list up in three sections, and the list may change between them.

* `Draws`: what the last section reads from one entry, and what it makes of the frame
* `Call.LookedUp`: what a position says about the sections that have led to it
* `lookups_agree`: **a frame carries what one entry had at the moment of the last section**, or is
  sent as it is because the first section found no entry
-/

namespace U80211

namespace KeyStore

open Memory Decoder

/-! ## The section of a cipher -/

/-- The key for the integrity code of transmitted frames. -/
def txMicKey (k : KeyMetadata) : FixedBytes 8 :=
  (FixedBytes.zero 8).copy (slice k.key tkipTxMicKeyOffset 8)

/-- What the library puts behind a frame that an entry is used for. -/
def cipherTrailer (k : KeyMetadata) (header : HeaderDescription) (body : List UInt8) :
    List UInt8 :=
  match k.cipher with
  | .tkip =>
    (michaelMic (txMicKey k) header.address3 header.address2 0 body).toList
  | _ => []

/-- A frame is made from one entry of the list: its number is the next one of the entry, its cipher
header and trailer are those of the entry. -/
structure Draws (device : Device) (keys' : List KeyMetadata) (header : HeaderDescription)
    (body : List UInt8) (k : KeyMetadata) (sequence : FixedBytes 6) (content : List UInt8) :
    Prop where
  entry : k ∈ device.keys
  applies : keyMatchesHeader device.macAddress header k = true
  supported : k.cipher = .ccmp ∨ k.cipher = .tkip
  next : k.txSequence.increment = some sequence
  keys : Exchanged device.keys keys' k { k with txSequence := sequence }
  content : content = cipherHeader k.cipher k.index sequence ++ body ++
    cipherTrailer k header body

section Prepare

variable {device device' : Device} {header header' : HeaderDescription} {key : UInt8}
  {d d' : TxBufferDescriptor} {cipher : Option Cipher}

theorem prepareCcmpTx_draws (h : Converted header d)
    (he : prepareCcmpTx device header key d = some (.ok (device', header', d'))) :
    header' = header.protect ∧ ∃ k sequence, k.index = key ∧ k.cipher = .ccmp ∧
      Draws device device'.keys header d.content k sequence d'.content := by
  have hn : ccmpHeaderSize ≤ d.currentOffset := Nat.le_trans (by decide) h.headroom
  cases hk : keyNextTxSequence device.macAddress device.keys header key .ccmp with
  | none =>
    rw [prepareCcmpTx_of_none hk hn] at he
    cases he
  | some r =>
    obtain ⟨sequence, keys'⟩ := r
    obtain ⟨d₁, he₁, hh, -⟩ := prepareCcmpTx_spec hk h.holds hn
    cases he.symm.trans he₁
    obtain ⟨k, hfind, hindex, hcipher, hnext, hkeys⟩ := keyNextTxSequence_eq_some hk
    refine ⟨rfl, k, sequence, hindex, hcipher, List.mem_of_find?_eq_some hfind,
      List.find?_some hfind, Or.inl hcipher, hnext, hkeys, ?_⟩
    rw [hh.content, cipherHeader, if_neg (by rw [hcipher]; decide), cipherTrailer, hcipher, hindex,
      List.append_nil]

theorem prepareTkipTx_draws (h : Converted header d)
    (he : prepareTkipTx device header key d = some (.ok (device', header', d'))) :
    header' = header.protect ∧ ∃ k sequence, k.index = key ∧ k.cipher = .tkip ∧
      Draws device device'.keys header d.content k sequence d'.content := by
  have hn : tkipHeaderSize ≤ d.currentOffset := Nat.le_trans (by decide) h.headroom
  obtain ⟨r, hk⟩ := keyPrepareTkipTx_isSome device.macAddress device.keys
    (transmitTkipData header key d.content)
  cases r with
  | none =>
    rw [prepareTkipTx_of_none hk h.holds hn] at he
    cases he
  | some r =>
    obtain ⟨sequence, mic, keys'⟩ := r
    obtain ⟨d₁, he₁, hh, -⟩ := prepareTkipTx_spec hk h.holds hn h.tailroom
    cases he.symm.trans he₁
    obtain ⟨k, hfind, hcipher, hlength, hnext, hkeys, micKey, hmicKey, hmic⟩ :=
      keyPrepareTkipTx_eq_some hk
    have hmatch := List.find?_some hfind
    rw [Bool.and_eq_true, beq_iff_eq] at hmatch
    have hsame : micKey = txMicKey k := by
      rw [FixedBytes.ext_iff', hmicKey]
      refine (FixedBytes.copy_of_length _ (length_slice ?_)).symm
      rw [hlength]
      decide
    refine ⟨rfl, k, sequence, hmatch.1, hcipher, List.mem_of_find?_eq_some hfind, hmatch.2,
      Or.inr hcipher, hnext, hkeys, ?_⟩
    rw [hh.content, cipherHeader, if_pos hcipher, cipherTrailer, hcipher, hmatch.1, hmic, hsame,
      transmitTkipData]

/-- **The last section takes everything from one entry**, which has the index and the cipher that
the sections before it have found. -/
theorem prepareCipherTx_draws (h : Converted header d)
    (he : prepareCipherTx device header key d cipher = some (.ok (device', header', d'))) :
    header' = header.protect ∧ ∃ k sequence, k.index = key ∧ cipher = some k.cipher ∧
      Draws device device'.keys header d.content k sequence d'.content := by
  unfold prepareCipherTx at he
  split at he
  · obtain ⟨hheader, k, sequence, hindex, hcipher, hdraws⟩ := prepareCcmpTx_draws h he
    exact ⟨hheader, k, sequence, hindex, congrArg some hcipher.symm, hdraws⟩
  · obtain ⟨hheader, k, sequence, hindex, hcipher, hdraws⟩ := prepareTkipTx_draws h he
    exact ⟨hheader, k, sequence, hindex, congrArg some hcipher.symm, hdraws⟩
  · cases he

/-- A frame that is not prepared is given up with an error. -/
theorem prepareCipherTx_error {status : Status}
    (he : prepareCipherTx device header key d cipher = some (.error (status, d'))) :
    status ≠ .success := by
  rintro rfl
  unfold prepareCipherTx at he
  split at he
  · unfold prepareCcmpTx at he
    split at he
    · cases he
    · split at he
      · cases he
      · rw [Option.bind_eq_bind, Option.bind_eq_some_iff] at he
        obtain ⟨d₁, -, he⟩ := he
        cases he
  · unfold prepareTkipTx at he
    dsimp only at he
    split at he
    · cases he
    · simp only [Option.bind_eq_bind, Option.bind_eq_some_iff] at he
      obtain ⟨data, -, r, -, he⟩ := he
      split at he
      · cases he
      · simp only [Option.bind_eq_some_iff] at he
        obtain ⟨d₁, -, d₂, -, he⟩ := he
        cases he
  · cases he

/-- A frame that is not converted is given up with an error. -/
theorem transmitConvert_error {result : TransmitResult}
    (he : transmitConvert device d = some (device', .error result)) :
    ∃ d' status, result = .freed d' status ∧ status ≠ .success := by
  unfold transmitConvert at he
  split at he
  · cases he
  · split at he
    · cases he
      exact ⟨_, _, rfl, by decide⟩
    · split at he
      · cases he
        exact ⟨_, _, rfl, by decide⟩
      · dsimp only at he
        split at he
        · cases he
          exact ⟨_, _, rfl, by decide⟩
        · simp only [Option.bind_eq_bind, Option.bind_eq_some_iff] at he
          obtain ⟨destination, -, source, -, ethertype, -, he⟩ := he
          split at he
          · cases he
            exact ⟨_, _, rfl, by decide⟩
          · simp only [Option.bind_eq_some_iff] at he
            obtain ⟨d₁, -, d₂, -, he⟩ := he
            cases he

end Prepare

/-! ## The sections of a call -/

/-- The first section finds no entry for the frame of call `i`. -/
def FindsNoKey (t : Transition) (i : Nat) : Prop :=
  ∃ outcome header d, t.action = .advance i outcome ∧
    t.before.calls[i]? = some (.transmitSelect header d) ∧
    ∀ k ∈ t.before.device.keys, keyMatchesHeader t.before.device.macAddress header k = false

def FoundNoKey (τ : List Transition) (i : Nat) : Prop := ∃ t ∈ τ, FindsNoKey t i

/-- The last section makes a frame for call `i` from one entry, which has the index and the cipher
that the driver is told. -/
structure DrawsFor (t : Transition) (i : Nat) (header : HeaderDescription) (body : List UInt8)
    (k : KeyMetadata) (sequence : FixedBytes 6) (content : List UInt8)
    (options : TransmitOptions) : Prop where
  call : ∃ outcome d cipher, t.action = .advance i outcome ∧
    t.before.calls[i]? = some (.transmitPrepare header d k.index cipher) ∧ d.content = body
  draws : Draws t.before.device t.after.device.keys header body k sequence content
  index : k.index ≤ 3
  options : options = { key := some k.index, cipher := some k.cipher }

/-- The protected bit is set in the frame that the descriptor holds. -/
def isProtected (d : TxBufferDescriptor) : Bool :=
  match deserializeLe16 d.content 0 with
  | some frameControl => hasFlag frameControl frameControlProtectedFrame
  | none => false

/-- The two bits of the key index in the cipher header of a frame. -/
def keyIdBits (d : TxBufferDescriptor) : UInt8 := d.content.getD 27 0 >>> 6

/-- A frame that leaves protected. -/
def LeavesProtected (τ : List Transition) (i : Nat) (d : TxBufferDescriptor)
    (options : TransmitOptions) : Prop :=
  ¬ FoundNoKey τ i ∧ ∃ t ∈ τ, ∃ header body k sequence content,
    DrawsFor t i header body k sequence content options ∧
    d.content = header.protect.bytes ++ content ∧ keyIdBits d = k.index

/-- What has become of the frame of call `i`. -/
def Settled (τ : List Transition) (i : Nat) : TransmitResult → Prop
  | .freed _ status => status ≠ .success ∧ ¬ FoundNoKey τ i
  | .transmitted d options =>
    isProtected d = true ∧ LeavesProtected τ i d options ∨
      isProtected d = false ∧ options = { key := none, cipher := none } ∧ FoundNoKey τ i

/-- What the position of call `i` says about the sections that have led to it. -/
def Call.LookedUp (τ : List Transition) (i : Nat) : Call → Prop
  | .transmitCipher _ _ key => ¬ FoundNoKey τ i ∧ key ≤ 3
  | .transmitPrepare _ _ key _ => ¬ FoundNoKey τ i ∧ key ≤ 3
  | .transmitFrame header d options _ =>
    hasFlag header.frameControl frameControlProtectedFrame = true ∧ ¬ FoundNoKey τ i ∧
        (∃ t ∈ τ, ∃ header₀ body k sequence,
          DrawsFor t i header₀ body k sequence d.content options ∧ header = header₀.protect) ∨
      hasFlag header.frameControl frameControlProtectedFrame = false ∧
        options = { key := none, cipher := none } ∧ FoundNoKey τ i
  | .consumed result => Settled τ i result
  | _ => ¬ FoundNoKey τ i

section Steps

variable {τ : List Transition} {s s' : State} {i j : Nat} {outcome : Outcome} {c c' : Call}

theorem foundNoKey_concat {t : Transition} :
    FoundNoKey (τ ++ [t]) i ↔ FoundNoKey τ i ∨ FindsNoKey t i := by
  simp [FoundNoKey, or_and_right, exists_or]

/-- A step finds no entry for the call that takes it only. -/
theorem FindsNoKey.eq {t : Transition} (h : FindsNoKey t j) (ht : t.action = .advance i outcome) :
    j = i := by
  obtain ⟨_, _, _, haction, -⟩ := h
  cases ht.symm.trans haction
  rfl

theorem Settled.mono {t : Transition} {result : TransmitResult} (h : Settled τ i result)
    (ht : ¬ FindsNoKey t i) : Settled (τ ++ [t]) i result := by
  have hfound : FoundNoKey (τ ++ [t]) i ↔ FoundNoKey τ i := by
    rw [foundNoKey_concat, or_iff_left ht]
  cases result with
  | freed d status => exact ⟨h.1, hfound.not.mpr h.2⟩
  | transmitted d options =>
    rcases h with ⟨hset, hno, t', ht', hrest⟩ | ⟨hclear, hoptions, hfound'⟩
    · exact Or.inl ⟨hset, hfound.not.mpr hno, t', List.mem_append_left _ ht', hrest⟩
    · exact Or.inr ⟨hclear, hoptions, hfound.mpr hfound'⟩

/-- The steps of other calls change nothing for a call. -/
theorem Call.LookedUp.mono {t : Transition} (h : c.LookedUp τ i) (ht : ¬ FindsNoKey t i) :
    c.LookedUp (τ ++ [t]) i := by
  have hfound : FoundNoKey (τ ++ [t]) i ↔ FoundNoKey τ i := by
    rw [foundNoKey_concat, or_iff_left ht]
  cases c with
  | transmitCipher header d key => exact ⟨hfound.not.mpr h.1, h.2⟩
  | transmitPrepare header d key cipher => exact ⟨hfound.not.mpr h.1, h.2⟩
  | transmitFrame header d options draw =>
    rcases h with ⟨hset, hno, t', ht', hrest⟩ | ⟨hclear, hoptions, hfound'⟩
    · exact Or.inl ⟨hset, hfound.not.mpr hno, t', List.mem_append_left _ ht', hrest⟩
    · exact Or.inr ⟨hclear, hoptions, hfound.mpr hfound'⟩
  | consumed result => exact Settled.mono h ht
  | _ => exact hfound.not.mpr h

/-- A step from a position other than the first section does not find that there is no entry. -/
theorem not_findsNoKey (hc : s.calls[i]? = some c)
    (hne : ∀ header d, c ≠ .transmitSelect header d) :
    ¬ FindsNoKey ⟨s, .advance i outcome, s'⟩ i := by
  rintro ⟨_, header, d, -, hselect, -⟩
  exact hne header d (Option.some.inj (hc.symm.trans hselect))

theorem selectKey_eq_none {own : MacAddress} {keys : List KeyMetadata}
    {header : HeaderDescription} :
    selectKey own keys header = none ↔ ∀ k ∈ keys, keyMatchesHeader own header k = false := by
  rw [selectKey, findKey, Option.map_eq_none_iff, List.findFinIdx?_eq_none_iff]
  simp only [Bool.not_eq_true]

/-- A section that has selected a key has found an entry. -/
theorem not_findsNoKey_of_selectKey {header : HeaderDescription} {d : TxBufferDescriptor}
    {key : UInt8} (hc : s.calls[i]? = some (.transmitSelect header d))
    (h : selectKey s.device.macAddress s.device.keys header = some key) :
    ¬ FindsNoKey ⟨s, .advance i outcome, s'⟩ i := by
  rintro ⟨_, header', d', -, hselect, hnone⟩
  cases hc.symm.trans hselect
  rw [selectKey_eq_none.mpr hnone] at h
  cases h

theorem protect_protected {header : HeaderDescription} {d : TxBufferDescriptor}
    (h : Converted header d) :
    hasFlag header.protect.frameControl frameControlProtectedFrame = true := by
  obtain ⟨ap, source, destination, sequenceControl, rfl⟩ := h.header
  exact hasFlag_protect_protected

theorem converted_not_protected {header : HeaderDescription} {d : TxBufferDescriptor}
    (h : Converted header d) :
    hasFlag header.frameControl frameControlProtectedFrame = false := by
  obtain ⟨ap, source, destination, sequenceControl, rfl⟩ := h.header
  exact hasFlag_transmitHeader_protected

/-- The protected bit of a frame is the one of its header. -/
theorem isProtected_of_content {header : HeaderDescription} {d : TxBufferDescriptor}
    {body : List UInt8} (h : d.content = header.bytes ++ body) :
    isProtected d = hasFlag header.frameControl frameControlProtectedFrame := by
  have hbytes : d.content.drop 0 = serializeLe16 header.frameControl ++
      (serializeLe16 header.durationId ++ header.address1.toList ++ header.address2.toList ++
        header.address3.toList ++ serializeLe16 header.sequenceControl ++ body) := by
    rw [List.drop_zero, h, HeaderDescription.bytes]
    simp only [List.append_assoc]
  have hread : deserializeLe16 d.content 0 = some header.frameControl :=
    deserializeLe16_serializeLe16 hbytes
  rw [isProtected, hread]

/-- The two bits of a protected frame are the index of the entry. -/
theorem keyIdBits_of_content {header : HeaderDescription} {d : TxBufferDescriptor}
    {cipher : Cipher} {key : UInt8} {sequence : FixedBytes 6} {rest : List UInt8}
    (h : d.content = header.bytes ++ (cipherHeader cipher key sequence ++ rest))
    (hkey : key ≤ 3) : keyIdBits d = key := by
  have hbyte : d.content.getD 27 0 = extIv ||| key <<< 6 := by
    rw [h, List.getD_eq_getElem?_getD,
      List.getElem?_append_right (by rw [header.length_bytes]; decide), header.length_bytes,
      cipherHeader]
    split <;> rfl
  rw [keyIdBits, hbyte, (keyId_shift hkey).1]

/-- **A step of a call keeps what its position says.** -/
theorem stepCall_lookedUp {log : List Draw} (hc : s.calls[i]? = some c) (hsound : c.Sound log)
    (h : c.LookedUp τ i) (hstep : stepCall s i outcome c = some s') :
    ∃ c', s'.calls = s.calls.set i c' ∧
      c'.LookedUp (τ ++ [⟨s, .advance i outcome, s'⟩]) i := by
  obtain ⟨c', s₁, hcall, rfl⟩ := stepCall_eq_some hstep
  have hcalls : (s₁.setCall i c').calls = s.calls.set i c' := by cases hcall <;> rfl
  refine ⟨c', hcalls, ?_⟩
  -- only the first section can find that there is no entry
  have hsame (hne : ∀ header d, c ≠ .transmitSelect header d) :
      FoundNoKey (τ ++ [⟨s, .advance i outcome, s₁.setCall i c'⟩]) i ↔ FoundNoKey τ i := by
    rw [foundNoKey_concat, or_iff_left (not_findsNoKey hc hne)]
  cases hcall with
  | refused hconvert =>
    obtain ⟨d', status, rfl, hstatus⟩ := transmitConvert_error hconvert
    exact ⟨hstatus, (hsame (by simp)).not.mpr h⟩
  | @noKey header d hnone =>
    refine Or.inr ⟨converted_not_protected hsound.2, rfl, ?_⟩
    refine foundNoKey_concat.mpr (Or.inr ⟨outcome, header, d, rfl, hc, ?_⟩)
    exact selectKey_eq_none.mp hnone
  | keyTooLarge hkey hlarge =>
    refine ⟨by decide, ?_⟩
    rw [foundNoKey_concat, or_iff_right h]
    exact not_findsNoKey_of_selectKey hc hkey
  | keySelected hkey hsmall =>
    refine ⟨?_, UInt8.not_lt.mp hsmall⟩
    rw [foundNoKey_concat, or_iff_right h]
    exact not_findsNoKey_of_selectKey hc hkey
  | txCipherSelected => exact ⟨(hsame (by simp)).not.mpr h.1, h.2⟩
  | notPrepared hprepare =>
    exact ⟨prepareCipherTx_error hprepare, (hsame (by simp)).not.mpr h.1⟩
  | @prepared header header' d d' key cipher device hprepare =>
    obtain ⟨rfl, k, sequence, rfl, rfl, hdraws⟩ := prepareCipherTx_draws hsound.2 hprepare
    refine Or.inl ⟨protect_protected hsound.2, (hsame (by simp)).not.mpr h.1, _,
      List.mem_concat_self, header, d.content, k, sequence, ?_, rfl⟩
    exact ⟨⟨outcome, d, _, rfl, hc, rfl⟩, hdraws, h.2, rfl⟩
  | @framed header d options draw device result hframe =>
    obtain ⟨-, hframed⟩ := hsound
    obtain ⟨d', he, hholds, -⟩ :=
      transmitFrame_spec s.device options hframed.header hframed.holds hframed.headroom
    cases hframe.symm.trans he
    have hbit := isProtected_of_content hholds.content
    have hmono := h.mono (t := ⟨s, .advance i outcome,
      (s.setDevice s.device).setCall i (.consumed (.transmitted d' options))⟩)
      (not_findsNoKey hc (by simp))
    rcases hmono with ⟨hset, hno, t, ht, header₀, body, k, sequence, hdraws, rfl⟩ |
      ⟨hclear, hoptions, hfound⟩
    · have hcontent := hholds.content
      have hbits := hcontent
      rw [hdraws.draws.content, List.append_assoc] at hbits
      exact Or.inl ⟨hbit.trans hset, hno, t, ht, header₀, body, k, sequence, _, hdraws, hcontent,
        keyIdBits_of_content hbits hdraws.index⟩
    · exact Or.inr ⟨hbit.trans hclear, hoptions, hfound⟩
  | converted _ => exact (hsame (by simp)).not.mpr h
  | _ => exact (hsame (by simp)).not.mpr h

end Steps

/-! ## Runs -/

/-- What holds of all calls after a run. -/
structure LookedUp (τ : List Transition) (s : State) : Prop where
  calls : ∀ i (c : Call), s.calls[i]? = some c → c.LookedUp τ i
  started : ∀ i, FoundNoKey τ i → i < s.calls.length

section Runs

variable {τ : List Transition} {s s' : State} {action : Action} {own : MacAddress}
  {hasSetKey hasDelKey : Bool}

theorem LookedUp.invoke (h : LookedUp τ s) (entry : Entry)
    (hs : s'.calls = s.calls ++ [entry.start]) :
    LookedUp (τ ++ [⟨s, .invoke entry, s'⟩]) s' := by
  have hnone (i : Nat) : ¬ FindsNoKey ⟨s, .invoke entry, s'⟩ i := by
    rintro ⟨_, _, _, haction, -⟩
    cases haction
  refine ⟨?_, ?_⟩
  · intro i c hc
    rw [hs, List.getElem?_append] at hc
    split at hc
    · exact (h.calls i c hc).mono (hnone i)
    · next hge =>
      have hnew : ¬ FoundNoKey (τ ++ [⟨s, .invoke entry, s'⟩]) i := by
        rw [foundNoKey_concat, or_iff_left (hnone i)]
        exact fun hfound => hge (h.started i hfound)
      rw [List.mem_singleton.mp (List.mem_of_getElem? hc)]
      cases entry with
      | _ => exact hnew
  · intro i hfound
    rw [foundNoKey_concat, or_iff_left (hnone i)] at hfound
    rw [hs, List.length_append]
    exact Nat.lt_add_right _ (h.started i hfound)

theorem LookedUp.advance (h : LookedUp τ s) (hpositions : Positions τ s) {i : Nat}
    {outcome : Outcome} {c : Call} (hc : s.calls[i]? = some c)
    (hstep : stepCall s i outcome c = some s') :
    LookedUp (τ ++ [⟨s, .advance i outcome, s'⟩]) s' := by
  obtain ⟨c', hcalls, hlooked⟩ :=
    stepCall_lookedUp hc (hpositions.sound i c hc) (h.calls i c hc) hstep
  have hlt : i < s.calls.length := (List.getElem?_eq_some_iff.mp hc).1
  refine ⟨?_, ?_⟩
  · intro j c₁ hc₁
    rw [hcalls, List.getElem?_set] at hc₁
    split at hc₁
    · next hij =>
      subst hij
      cases hc₁
      exact hlooked
    · next hij => exact (h.calls j c₁ hc₁).mono fun hfinds => hij (hfinds.eq rfl).symm
  · intro j hfound
    rw [hcalls, List.length_set]
    rcases foundNoKey_concat.mp hfound with hfound | hfinds
    · exact h.started j hfound
    · rw [hfinds.eq rfl]
      exact hlt

theorem Run.lookedUp (h : Run own hasSetKey hasDelKey τ s) : LookedUp τ s := by
  refine Lts.Run.history (P := LookedUp) ⟨?_, ?_⟩ ?_ h
  · intro i c hc
    cases hc
  · rintro i ⟨t, ht, -⟩
    cases ht
  · intro τ s action s' hr hl hstep
    cases action with
    | invoke entry =>
      cases hstep
      exact hl.invoke entry rfl
    | advance i outcome =>
      rw [KeyStore.step] at hstep
      split at hstep
      · cases hstep
      · next c hc => exact hl.advance (Run.positions hr) hc hstep
    | associate association =>
      cases hstep
      have hnone (i : Nat) : ¬ FindsNoKey ⟨s, .associate association,
          s.setDevice { s.device with association }⟩ i := by
        rintro ⟨_, _, _, haction, -⟩
        cases haction
      refine ⟨fun i c hc => (hl.calls i c hc).mono (hnone i), ?_⟩
      intro i hfound
      rw [foundNoKey_concat, or_iff_left (hnone i)] at hfound
      exact hl.started i hfound

/-- **The look-ups of a transmission agree.** A frame that the driver gets with the protected bit
has been made by one section from one entry, whose index and cipher are those of the cipher header
and of the options; one without it is of a call whose first section has found no entry; and any
other frame is freed with an error. -/
theorem lookups_agree (h : Run own hasSetKey hasDelKey τ s) (i : Nat) :
    (∀ d options, s.calls[i]? = some (.consumed (.transmitted d options)) →
      isProtected d = true → LeavesProtected τ i d options) ∧
    (∀ d options, s.calls[i]? = some (.consumed (.transmitted d options)) →
      isProtected d = false →
        options = { key := none, cipher := none } ∧ FoundNoKey τ i) ∧
    (∀ result, s.calls[i]? = some (.consumed result) → FoundNoKey τ i →
      ∃ d, result = .transmitted d { key := none, cipher := none } ∧ isProtected d = false) ∧
    (∀ d status, s.calls[i]? = some (.consumed (.freed d status)) → status ≠ .success) ∧
    ∀ c outcome, s.calls[i]? = some c → c.finished = false →
      ∃ s', step (.advance i outcome) s = some s' := by
  have hlooked := h.lookedUp
  refine ⟨?_, ?_, ?_, ?_, ?_⟩
  · intro d options hc hset
    rcases hlooked.calls i _ hc with ⟨-, hleaves⟩ | ⟨hclear, -⟩
    · exact hleaves
    · rw [hset] at hclear
      cases hclear
  · intro d options hc hclear
    rcases hlooked.calls i _ hc with ⟨hset, -⟩ | ⟨-, hplain⟩
    · rw [hclear] at hset
      cases hset
    · exact hplain
  · intro result hc hfound
    cases result with
    | freed d status => exact absurd hfound (hlooked.calls i _ hc).2
    | transmitted d options =>
      rcases hlooked.calls i _ hc with ⟨-, hno, -⟩ | ⟨hclear, hoptions, -⟩
      · exact absurd hfound hno
      · exact ⟨d, by rw [hoptions], hclear⟩
  · intro d status hc
    exact (hlooked.calls i _ hc).1
  · intro c outcome hc hfinished
    exact Run.step_isSome h hc hfinished outcome

/-- What has become of the frame of call `i`: with or without the protected bit, or freed. -/
def State.settled (s : State) (i : Nat) : Option (Option Bool) :=
  match s.calls[i]? with
  | some (.consumed (.transmitted d _)) => some (some (isProtected d))
  | some (.consumed (.freed _ _)) => some none
  | _ => none

theorem State.transmitted_of_settled {b : Bool} {i : Nat} (h : s.settled i = some (some b)) :
    ∃ d options, s.calls[i]? = some (.consumed (.transmitted d options)) ∧ isProtected d = b := by
  unfold State.settled at h
  split at h
  · next d options hc =>
    cases h
    exact ⟨d, options, hc, rfl⟩
  · cases h
  · cases h

theorem State.freed_of_settled {i : Nat} (h : s.settled i = some none) :
    ∃ d status, s.calls[i]? = some (.consumed (.freed d status)) := by
  unfold State.settled at h
  split at h
  · cases h
  · next d status hc => exact ⟨d, status, hc⟩
  · cases h

open KeyStore.Scenario in
theorem lookups_agree_keys_changed :
    ∃ s d options, Lts.exec step keysChanged start = some s ∧
      s.calls[3]? = some (.consumed (.transmitted d options)) ∧
      LeavesProtected (Lts.trace step keysChanged start) 3 d options ∧
      (∃ d', s.calls[0]? = some (.consumed (.transmitted d' { key := none, cipher := none })) ∧
        FoundNoKey (Lts.trace step keysChanged start) 0) ∧
      (∃ d' status, s.calls[5]? = some (.consumed (.freed d' status)) ∧ status ≠ .success) ∧
      ∃ s', step (.advance 7 { }) s = some s' := by
  have hrun : (Lts.exec step keysChanged start).map (fun s =>
      (s.settled 3, s.settled 0, s.settled 5, s.calls[7]?.map Call.finished)) =
      some (some (some true), some (some false), some none, some false) := by decide +kernel
  obtain ⟨s, hs, hsettled⟩ := Option.map_eq_some_iff.mp hrun
  simp only [Prod.mk.injEq] at hsettled
  obtain ⟨hprotected, hplain, hfreed, hgoes⟩ := hsettled
  have hr := Lts.exec_run hs
  obtain ⟨d, options, hd, hset⟩ := State.transmitted_of_settled hprotected
  obtain ⟨d', options', hd', hclear⟩ := State.transmitted_of_settled hplain
  obtain ⟨d'', status, hd''⟩ := State.freed_of_settled hfreed
  obtain ⟨c, hc, hfinished⟩ := Option.map_eq_some_iff.mp hgoes
  obtain ⟨rfl, hfound⟩ := (lookups_agree hr 0).2.1 d' options' hd' hclear
  exact ⟨s, d, options, hs, hd, (lookups_agree hr 3).1 d options hd hset, ⟨d', hd', hfound⟩,
    ⟨d'', status, hd'', (lookups_agree hr 5).2.2.2.1 d'' status hd''⟩,
    (lookups_agree hr 7).2.2.2.2 c { } hc hfinished⟩

end Runs

end KeyStore

end U80211
