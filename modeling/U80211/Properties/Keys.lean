import Mathlib.Data.List.Nodup
import U80211.Key

/-!
# Looking up a key

* `findFinIdx?_of_find?`: the position that a look-up returns is that of the first entry that
  matches
* `selectCipherByIndex_of_first`: the first entry that matches is also the first one with its index
  that does
* `keyNextTxSequence_of_first`, `keyPrepareTkipTx_of_first`, `keyUpdateRxSequence_of_first`,
  `keyValidateTkipRx_of_first`: what the sections under `key_spinlock` do with that entry
-/

namespace U80211

open Memory

variable {own : MacAddress} {keys : List KeyMetadata} {header : HeaderDescription}
  {k : KeyMetadata}

/-! ## The first entry -/

/-- The entry at the position that a look-up returns is the first one with the property. -/
theorem findFinIdx?_of_find? {p : KeyMetadata → Bool} (h : keys.find? p = some k) :
    ∃ i, keys.findFinIdx? p = some i ∧ keys.get i = k := by
  rw [List.find?_eq_map_findFinIdx?_getElem] at h
  exact Option.map_eq_some_iff.mp h

theorem findFinIdx?_of_find?_none {p : KeyMetadata → Bool} (h : keys.find? p = none) :
    keys.findFinIdx? p = none := by
  rw [List.find?_eq_map_findFinIdx?_getElem] at h
  exact Option.map_eq_none_iff.mp h

theorem find?_of_findFinIdx? {p : KeyMetadata → Bool} {i : Fin keys.length}
    (h : keys.findFinIdx? p = some i) : keys.find? p = some (keys.get i) := by
  rw [List.find?_eq_map_findFinIdx?_getElem, h]
  rfl

/-- The first entry that matches is the first one with its index that matches. -/
theorem find?_index_of_find? {p : KeyMetadata → Bool} (h : keys.find? p = some k) :
    keys.find? (fun m => m.index == k.index && p m) = some k := by
  induction keys with
  | nil => cases h
  | cons m ms ih =>
    rw [List.find?_cons] at h ⊢
    cases hp : p m with
    | true =>
      rw [hp] at h
      cases h
      simp
    | false =>
      rw [hp] at h
      simp only [Bool.and_false]
      exact ih h

/-- `u80211_select_key` answers the index of the first entry that matches. -/
theorem selectKey_of_first (h : keys.find? (keyMatchesHeader own header) = some k) :
    selectKey own keys header = some k.index := by
  obtain ⟨i, hi, (rfl : keys[i] = k)⟩ := findFinIdx?_of_find? h
  rw [selectKey, findKey, hi]
  rfl

theorem selectKey_of_none (h : keys.find? (keyMatchesHeader own header) = none) :
    selectKey own keys header = none := by
  rw [selectKey, findKey, findFinIdx?_of_find?_none h]
  rfl

theorem selectCipherByIndex_of_find? {index : UInt8}
    (h : keys.find? (fun m => m.index == index && keyMatchesHeader own header m) = some k) :
    selectCipherByIndex own keys header index = some k.cipher := by
  obtain ⟨i, hi, (rfl : keys[i] = k)⟩ := findFinIdx?_of_find? h
  rw [selectCipherByIndex, findKeyByIndex, hi]
  rfl

/-- `u80211_select_cipher_by_index` answers its cipher. -/
theorem selectCipherByIndex_of_first (h : keys.find? (keyMatchesHeader own header) = some k) :
    selectCipherByIndex own keys header k.index = some k.cipher :=
  selectCipherByIndex_of_find? (find?_index_of_find? h)

/-! ## Matching -/

/-- The entry is pairwise, for the peer and in the direction. -/
def KeyMetadata.isPairwise (direction : UInt32) (peer : MacAddress) (metadata : KeyMetadata) :
    Bool :=
  metadata.hasFlag direction && metadata.hasFlag keyPairwise && macAddressEqual metadata.peer peer

/-- A frame that the device sends matches the transmit keys of its receiver. -/
theorem keyMatchesHeader_tx (h2 : header.address2 = own) (h1 : header.address1.isGroup = false) :
    keyMatchesHeader own header = KeyMetadata.isPairwise keyTx header.address1 := by
  funext m
  simp [keyMatchesHeader, KeyMetadata.isPairwise, h1, h2]

/-- A frame that it receives matches the receive keys of its sender. -/
theorem keyMatchesHeader_rx (h2 : header.address2 ≠ own) (h1 : header.address1.isGroup = false) :
    keyMatchesHeader own header = KeyMetadata.isPairwise keyRx header.address2 := by
  funext m
  simp [keyMatchesHeader, KeyMetadata.isPairwise, h1, h2]

/-! ## Packet numbers -/

theorem FixedBytes.copy_of_length {n : Nat} (b : FixedBytes n) {bs : List UInt8}
    (h : bs.length = n) : (b.copy bs).toList = bs := by
  have hb := b.length_toList
  show (bs ++ b.toList.drop bs.length).take n = bs
  rw [List.take_left' h]

/-- The next packet number is larger by one. -/
theorem increment_eq_some {n : Nat} {b b' : FixedBytes n} (h : b.increment = some b') :
    leValue b'.toList = leValue b.toList + 1 := by
  obtain ⟨bs, hbs, rfl⟩ := Option.map_eq_some_iff.mp h
  rw [FixedBytes.copy_of_length b (by rw [length_incrementSequence hbs, b.length_toList])]
  exact leValue_incrementSequence hbs

/-- A counter is incremented unless it is at its maximum. -/
theorem increment_isSome_iff {n : Nat} {b : FixedBytes n} :
    (∃ b', b.increment = some b') ↔ leValue b.toList + 1 < 256 ^ n := by
  constructor
  · rintro ⟨b', h⟩
    rw [← increment_eq_some h]
    have hlt := leValue_lt b'.toList
    rwa [b'.length_toList] at hlt
  · intro h
    obtain ⟨bs, hbs⟩ := incrementSequence_isSome
      (show leValue b.toList + 1 < 256 ^ b.toList.length by rw [b.length_toList]; exact h)
    exact ⟨b.copy bs, by rw [FixedBytes.increment, hbs, Option.map_some]⟩

/-! ## The sections -/

/-- The entry that has been selected gives the next number away. -/
theorem keyNextTxSequence_of_first (h : keys.find? (keyMatchesHeader own header) = some k)
    {sequence : FixedBytes 6} (hs : k.txSequence.increment = some sequence) :
    ∃ keys', keyNextTxSequence own keys header k.index k.cipher = some (sequence, keys') := by
  obtain ⟨i, hi, (rfl : keys[i] = k)⟩ := findFinIdx?_of_find? h
  refine ⟨keys.set i { keys[i] with txSequence := sequence }, ?_⟩
  rw [keyNextTxSequence, findKey, hi]
  simp only [ne_eq, not_true_eq_false, or_self, if_false, hs, Option.map_some]

/-- An entry without numbers left refuses. -/
theorem keyNextTxSequence_of_max (h : keys.find? (keyMatchesHeader own header) = some k)
    (hs : k.txSequence.increment = none) (cipher : Cipher) :
    keyNextTxSequence own keys header k.index cipher = none := by
  obtain ⟨i, hi, (rfl : keys[i] = k)⟩ := findFinIdx?_of_find? h
  rw [keyNextTxSequence, findKey, hi]
  dsimp only
  split
  · rfl
  · rw [hs]
    rfl

theorem keyPrepareTkipTx_of_first (data : TkipData)
    (h : keys.find? (keyMatchesHeader own data.header) = some k) (hindex : data.keyIndex = k.index)
    (hc : k.cipher = .tkip) (hkey : k.key.length = tkipKeySize) {sequence : FixedBytes 6}
    (hs : k.txSequence.increment = some sequence) {micKey : FixedBytes 8}
    (hm : micKey.toList = slice k.key tkipTxMicKeyOffset 8) :
    ∃ keys', keyPrepareTkipTx own keys data = some (some (sequence,
      michaelMic micKey data.destination data.source data.priority data.data, keys')) := by
  obtain ⟨i, hi, (hik : keys[i] = k)⟩ := findFinIdx?_of_find? (find?_index_of_find? h)
  have hread : readBytes k.key tkipTxMicKeyOffset 8 = some micKey := by
    rw [readBytes_of_le (by rw [hkey]; decide), Option.some.injEq, FixedBytes.ext_iff', hm]
  refine ⟨keys.set i { k with txSequence := sequence }, ?_⟩
  rw [keyPrepareTkipTx, findKeyByIndex, hindex, hi]
  dsimp only
  rw [hik, if_neg (by simp [hc, hkey]), hs]
  simp only [hread, Option.bind_eq_bind, Option.bind_some]

/-- Without a usable TKIP key no packet number is drawn. -/
theorem keyPrepareTkipTx_of_unusable (data : TkipData)
    (h : keys.find? (keyMatchesHeader own data.header) = some k) (hindex : data.keyIndex = k.index)
    (hu : k.key.length ≠ tkipKeySize ∨ k.txSequence.increment = none) :
    keyPrepareTkipTx own keys data = some none := by
  obtain ⟨i, hi, (rfl : keys[i] = k)⟩ := findFinIdx?_of_find? (find?_index_of_find? h)
  rw [keyPrepareTkipTx, findKeyByIndex, hindex, hi]
  dsimp only
  split
  · rfl
  · next hok =>
    rw [not_or, Decidable.not_not, Decidable.not_not] at hok
    rcases hu with hl | hn
    · exact absurd hok.2 hl
    · rw [hn]

/-! ## The list -/

/-- What `u80211_set_key` and `u80211_del_key` look an entry up by. -/
def KeyMetadata.identity (metadata : KeyMetadata) : UInt8 × MacAddress × UInt32 :=
  (metadata.index, metadata.peer, metadata.flags)

/-- An identity is the index, the peer and the flags. -/
theorem keyIdentityEqual_iff {index : UInt8} {peer : MacAddress} {flags : UInt32}
    {m : KeyMetadata} :
    keyIdentityEqual index peer flags m = true ↔ m.identity = (index, peer, flags) := by
  rw [keyIdentityEqual, KeyMetadata.identity, Bool.and_eq_true, Bool.and_eq_true, beq_iff_eq,
    beq_iff_eq, macAddressEqual_iff, Prod.mk.injEq, Prod.mk.injEq, and_assoc,
    and_comm (a := m.flags = _)]

/-- An identity that is deleted is no longer there. -/
theorem identity_of_mem_delKeyList (hn : (keys.map KeyMetadata.identity).Nodup) {index : UInt8}
    {peer : MacAddress} {flags : UInt32} {m : KeyMetadata}
    (hm : m ∈ delKeyList keys index peer flags) : m.identity ≠ (index, peer, flags) := by
  induction keys with
  | nil => cases hm
  | cons k ks ih =>
    obtain ⟨hk, hks⟩ := List.nodup_cons.mp hn
    rw [delKeyList, List.eraseP_cons] at hm
    cases hp : keyIdentityEqual index peer flags k with
    | true =>
      rw [hp, cond_true] at hm
      intro he
      rw [← keyIdentityEqual_iff.mp hp] at he
      exact hk (he ▸ List.mem_map_of_mem hm)
    | false =>
      rw [hp, cond_false, List.mem_cons] at hm
      rcases hm with rfl | hm
      · intro he
        rw [keyIdentityEqual_iff.mpr he] at hp
        cases hp
      · exact ih hks hm

/-- `keys'` is `keys` with `k'` in the place of `k`. -/
def Exchanged (keys keys' : List KeyMetadata) (k k' : KeyMetadata) : Prop :=
  ∃ pre post, keys = pre ++ k :: post ∧ keys' = pre ++ k' :: post

theorem exchanged_set {i : Fin keys.length} (hi : keys.get i = k) (k' : KeyMetadata) :
    Exchanged keys (keys.set i k') k k' := by
  refine ⟨keys.take i, keys.drop (i + 1), ?_, ?_⟩
  · rw [← hi, List.get_eq_getElem, ← List.drop_eq_getElem_cons i.isLt, List.take_append_drop]
  · rw [List.set_eq_take_append_cons_drop, if_pos i.isLt]

section Exchanged

variable {keys' : List KeyMetadata} {k' : KeyMetadata}

theorem Exchanged.mem (h : Exchanged keys keys' k k') : k ∈ keys := by
  obtain ⟨pre, post, rfl, -⟩ := h
  simp

/-- An exchange that keeps a property of the entry keeps it of all. -/
theorem Exchanged.map_eq {β : Type} (h : Exchanged keys keys' k k') {f : KeyMetadata → β}
    (hf : f k' = f k) : keys'.map f = keys.map f := by
  obtain ⟨pre, post, rfl, rfl⟩ := h
  simp [hf]

/-- The other entries are those that were there before. -/
theorem Exchanged.mem_after (h : Exchanged keys keys' k k')
    (hn : (keys.map KeyMetadata.object).Nodup) {m : KeyMetadata} (hm : m ∈ keys') :
    m = k' ∨ m ∈ keys ∧ m.object ≠ k.object := by
  obtain ⟨pre, post, rfl, rfl⟩ := h
  rw [List.map_append, List.map_cons, List.nodup_middle, List.nodup_cons, ← List.map_append] at hn
  have hother : ∀ m ∈ pre ++ post, m.object ≠ k.object := by
    intro m hm he
    refine hn.1 ?_
    rw [← he]
    exact List.mem_map_of_mem hm
  rw [List.mem_append, List.mem_cons] at hm
  rcases hm with hm | rfl | hm
  · exact Or.inr ⟨List.mem_append_left _ hm, hother m (List.mem_append_left _ hm)⟩
  · exact Or.inl rfl
  · exact Or.inr ⟨List.mem_append_right _ (List.mem_cons_of_mem _ hm),
      hother m (List.mem_append_right _ hm)⟩

end Exchanged

/-- What `u80211_key_next_tx_sequence` does when it returns true. -/
theorem keyNextTxSequence_eq_some {index : UInt8} {cipher : Cipher} {sequence : FixedBytes 6}
    {keys' : List KeyMetadata}
    (h : keyNextTxSequence own keys header index cipher = some (sequence, keys')) :
    ∃ k, keys.find? (keyMatchesHeader own header) = some k ∧ k.index = index ∧
      k.cipher = cipher ∧ k.txSequence.increment = some sequence ∧
      Exchanged keys keys' k { k with txSequence := sequence } := by
  unfold keyNextTxSequence at h
  split at h
  · cases h
  · next i hi =>
    dsimp only at h
    split at h
    · cases h
    · next hok =>
      rw [not_or, Decidable.not_not, Decidable.not_not] at hok
      obtain ⟨sequence', hs, he⟩ := Option.map_eq_some_iff.mp h
      cases he
      exact ⟨keys.get i, find?_of_findFinIdx? hi, hok.1, hok.2, hs, exchanged_set rfl _⟩

/-- What `u80211_key_prepare_tkip_tx` does when it returns true. -/
theorem keyPrepareTkipTx_eq_some {data : TkipData} {sequence : FixedBytes 6} {mic : FixedBytes 8}
    {keys' : List KeyMetadata}
    (h : keyPrepareTkipTx own keys data = some (some (sequence, mic, keys'))) :
    ∃ k, keys.find? (fun m => m.index == data.keyIndex && keyMatchesHeader own data.header m) =
        some k ∧ k.cipher = .tkip ∧ k.key.length = tkipKeySize ∧
      k.txSequence.increment = some sequence ∧
      Exchanged keys keys' k { k with txSequence := sequence } ∧
      ∃ micKey : FixedBytes 8, micKey.toList = slice k.key tkipTxMicKeyOffset 8 ∧
        mic = michaelMic micKey data.destination data.source data.priority data.data := by
  unfold keyPrepareTkipTx at h
  split at h
  · cases h
  · next i hi =>
    dsimp only at h
    split at h
    · cases h
    · next hok =>
      rw [not_or, Decidable.not_not, Decidable.not_not] at hok
      split at h
      · cases h
      · next sequence' hs =>
        simp only [Option.bind_eq_bind, Option.bind_eq_some_iff] at h
        obtain ⟨micKey, hread, h⟩ := h
        cases h
        exact ⟨keys.get i, find?_of_findFinIdx? hi, hok.1, hok.2, hs, exchanged_set rfl _, micKey,
          (readBytes_eq_some hread).2, rfl⟩

section Receive

variable {index : UInt8} {sequence : FixedBytes 6} {mic : FixedBytes 8}

/-- The comparison is that of the 48-bit numbers. -/
theorem sequenceIsNewer_six (k : KeyMetadata) (sequence : FixedBytes 6) :
    sequenceIsNewer sequence.toList k.rxSequence.toList 6 = true ↔
      leValue k.rxSequence.toList < leValue sequence.toList :=
  sequenceIsNewer_iff sequence.length_toList k.rxSequence.length_toList

/-- The entry takes a packet number of its cipher. -/
structure TakesNumber (k : KeyMetadata) (cipher : Cipher) (sequence : FixedBytes 6) : Prop where
  cipher : k.cipher = cipher
  newer : leValue k.rxSequence.toList < leValue sequence.toList

/-- What `u80211_key_update_rx_sequence` does. -/
theorem keyUpdateRxSequence_spec (own : MacAddress) (keys : List KeyMetadata)
    (header : HeaderDescription) (index : UInt8) (cipher : Cipher) (sequence : FixedBytes 6) :
    (∃ k keys', keys.find? (fun m => m.index == index && keyMatchesHeader own header m) = some k ∧
      TakesNumber k cipher sequence ∧ Exchanged keys keys' k { k with rxSequence := sequence } ∧
      keyUpdateRxSequence own keys header index cipher sequence = (true, keys')) ∨
    keyUpdateRxSequence own keys header index cipher sequence = (false, keys) ∧
      ∀ k, keys.find? (fun m => m.index == index && keyMatchesHeader own header m) = some k →
        ¬ TakesNumber k cipher sequence := by
  cases hfind : keys.find? (fun m => m.index == index && keyMatchesHeader own header m) with
  | none =>
    refine Or.inr ⟨?_, fun k hk => by cases hk⟩
    rw [keyUpdateRxSequence, findKeyByIndex, findFinIdx?_of_find?_none hfind]
  | some k =>
    obtain ⟨i, hi, hik⟩ := findFinIdx?_of_find? hfind
    rw [keyUpdateRxSequence, findKeyByIndex, hi]
    dsimp only
    have hget : keys[i] = k := hik
    rw [hget]
    split
    · next hok =>
      exact Or.inl ⟨k, _, rfl, ⟨hok.1, (sequenceIsNewer_six k sequence).mp hok.2⟩,
        exchanged_set hik _, rfl⟩
    · next hnot =>
      refine Or.inr ⟨rfl, ?_⟩
      intro k' hk' hok
      cases hk'
      exact hnot ⟨hok.cipher, (sequenceIsNewer_six k sequence).mpr hok.newer⟩

theorem foldl_difference (l : List (UInt8 × UInt8)) (d : UInt8) :
    l.foldl (fun difference x => difference ||| x.1 ^^^ x.2) d = 0 ↔
      d = 0 ∧ ∀ x ∈ l, x.1 = x.2 := by
  induction l generalizing d with
  | nil => simp
  | cons x xs ih =>
    rw [List.foldl_cons, ih, UInt8.or_eq_zero_iff, UInt8.xor_eq_zero_iff, List.forall_mem_cons,
      and_assoc]

theorem forall_mem_zip {as bs : List UInt8} (h : as.length = bs.length) :
    (∀ x ∈ as.zip bs, x.1 = x.2) ↔ as = bs := by
  induction as generalizing bs with
  | nil =>
    rw [List.eq_nil_of_length_eq_zero h.symm]
    simp
  | cons a as ih =>
    cases bs with
    | nil => cases h
    | cons b bs =>
      rw [List.zip_cons_cons, List.forall_mem_cons, ih (Nat.succ.inj h), List.cons.injEq]

/-- **The comparison in constant time is a comparison.** -/
theorem micEqual_iff {a b : FixedBytes 8} : micEqual a b = true ↔ a = b := by
  rw [micEqual, beq_iff_eq, foldl_difference,
    forall_mem_zip (by rw [a.length_toList, b.length_toList]), FixedBytes.ext_iff']
  simp

/-- The entry takes a packet number and an integrity code. -/
structure TakesTkip (k : KeyMetadata) (data : TkipData) (sequence : FixedBytes 6)
    (mic : FixedBytes 8) : Prop extends TakesNumber k .tkip sequence where
  key : k.key.length = tkipKeySize
  mic : ∃ micKey : FixedBytes 8, micKey.toList = slice k.key tkipRxMicKeyOffset 8 ∧
    mic = michaelMic micKey data.destination data.source data.priority data.data

/-- What `u80211_key_validate_tkip_rx` does. -/
theorem keyValidateTkipRx_spec (own : MacAddress) (keys : List KeyMetadata) (data : TkipData)
    (sequence : FixedBytes 6) (mic : FixedBytes 8) :
    (∃ k keys', keys.find? (fun m => m.index == data.keyIndex &&
        keyMatchesHeader own data.header m) = some k ∧ TakesTkip k data sequence mic ∧
      Exchanged keys keys' k { k with rxSequence := sequence } ∧
      keyValidateTkipRx own keys data sequence mic = some (true, keys')) ∨
    keyValidateTkipRx own keys data sequence mic = some (false, keys) ∧
      ∀ k, keys.find? (fun m => m.index == data.keyIndex &&
        keyMatchesHeader own data.header m) = some k → ¬ TakesTkip k data sequence mic := by
  cases hfind : keys.find? (fun m => m.index == data.keyIndex &&
      keyMatchesHeader own data.header m) with
  | none =>
    refine Or.inr ⟨?_, fun k hk => by cases hk⟩
    rw [keyValidateTkipRx, findKeyByIndex, findFinIdx?_of_find?_none hfind]
  | some k =>
    obtain ⟨i, hi, hik⟩ := findFinIdx?_of_find? hfind
    rw [keyValidateTkipRx, findKeyByIndex, hi]
    dsimp only
    have hget : keys[i] = k := hik
    rw [hget]
    split
    · next hbad =>
      refine Or.inr ⟨rfl, ?_⟩
      intro k' hk' hok
      cases hk'
      exact hbad.elim (fun h => h hok.cipher) (fun h => h hok.key)
    · next hok =>
      rw [not_or, Decidable.not_not, Decidable.not_not] at hok
      obtain ⟨hcipher, hkey⟩ := hok
      split
      · next hold =>
        refine Or.inr ⟨rfl, ?_⟩
        intro k' hk' hok
        cases hk'
        exact hold ((sequenceIsNewer_six k sequence).mpr hok.newer)
      · next hnew =>
        have hread : tkipRxMicKeyOffset + 8 ≤ k.key.length := by
          rw [hkey]
          decide
        rw [readBytes_of_le hread]
        simp only [Option.bind_eq_bind, Option.bind_some, micEqual_iff]
        split
        · next hmic =>
          refine Or.inr ⟨rfl, ?_⟩
          intro k' hk' hok
          cases hk'
          obtain ⟨micKey, hmicKey, hm⟩ := hok.mic
          have hsame : micKey = ⟨slice k.key tkipRxMicKeyOffset 8, length_slice hread⟩ :=
            FixedBytes.ext_iff'.mpr hmicKey
          rw [hsame] at hm
          exact hmic hm.symm
        · next hmic =>
          have hnew := (sequenceIsNewer_six k sequence).mp (Decidable.not_not.mp hnew)
          exact Or.inl ⟨k, _, rfl, ⟨⟨hcipher, hnew⟩, hkey, _, rfl,
            (Decidable.not_not.mp hmic).symm⟩, exchanged_set hik _, rfl⟩

end Receive

/-- An entry that takes the packet number is found. -/
theorem keyUpdateRxSequence_of_first {index : UInt8} {cipher : Cipher} {sequence : FixedBytes 6}
    (h : keys.find? (fun m => m.index == index && keyMatchesHeader own header m) = some k)
    (hk : TakesNumber k cipher sequence) :
    ∃ keys', keyUpdateRxSequence own keys header index cipher sequence = (true, keys') := by
  rcases keyUpdateRxSequence_spec own keys header index cipher sequence with
    ⟨_, keys', -, -, -, he⟩ | ⟨-, hnot⟩
  · exact ⟨keys', he⟩
  · exact absurd hk (hnot k h)

/-- A TKIP frame that is fresh and whose MIC is right is taken. -/
theorem keyValidateTkipRx_of_first (data : TkipData) {sequence : FixedBytes 6} {mic : FixedBytes 8}
    (h : keys.find? (fun m => m.index == data.keyIndex && keyMatchesHeader own data.header m) =
      some k) (hk : TakesTkip k data sequence mic) :
    ∃ keys', keyValidateTkipRx own keys data sequence mic = some (true, keys') := by
  rcases keyValidateTkipRx_spec own keys data sequence mic with
    ⟨_, keys', -, -, -, he⟩ | ⟨-, hnot⟩
  · exact ⟨keys', he⟩
  · exact absurd hk (hnot k h)

end U80211
