import U80211.Basic
import U80211.Michael

/-!
# `src/key.c`: the key list

A key is looked up by the header of a packet. The functions below are the sections under
`key_spinlock`; a pointer into the list is the position of its entry, and a section that changes
an entry returns the whole list.
-/

namespace U80211

open Memory

/-- `u80211_cipher_t` -/
inductive Cipher where
  | ccmp
  | tkip
  | wep40
  | wep104
deriving DecidableEq

def keyPairwise : UInt32 := 1
def keyGroup : UInt32 := 2
def keyRx : UInt32 := 4
def keyTx : UInt32 := 8

/-- `TKIP_KEY_SIZE` -/
def tkipKeySize : Nat := 32

/-- `TKIP_TX_MIC_KEY_OFFSET` -/
def tkipTxMicKeyOffset : Nat := 16

/-- `TKIP_RX_MIC_KEY_OFFSET` -/
def tkipRxMicKeyOffset : Nat := 24

/-- `u80211_key_metadata_t` without its list node; `key_len` is the length of `key`. `object` stands
for the address of the structure: every allocation has its own. -/
structure KeyMetadata where
  object : Nat
  cipher : Cipher
  index : UInt8
  peer : MacAddress
  flags : UInt32
  rxSequence : FixedBytes 6
  txSequence : FixedBytes 6
  key : List UInt8
deriving DecidableEq

/-- `(metadata->flags & flag) != 0` -/
def KeyMetadata.hasFlag (metadata : KeyMetadata) (flag : UInt32) : Bool :=
  metadata.flags &&& flag != 0

/-- `u80211_key_t`: the bytes that `key` and `rx_seq` point to, `none` for `NULL`. The length of
`rxSeq` is `rx_seq_len`. -/
structure Key where
  cipher : Cipher
  index : UInt8
  peer : MacAddress
  key : Option (List UInt8)
  keyLen : Nat
  rxSeq : Option (List UInt8)
  flags : UInt32
  length_key : ∀ bytes, key = some bytes → bytes.length = keyLen

/-- The bytes that are copied into the entry. -/
def Key.bytes (key : Key) : List UInt8 := key.key.getD []

/-- What `rx_sequence` of a new entry is set to. -/
def Key.rxSequence (key : Key) : FixedBytes 6 :=
  match key.rxSeq with
  | none => .zero 6
  | some bytes => if h : bytes.length = 6 then ⟨bytes, h⟩ else .zero 6

/-- `SIZE_MAX` -/
def sizeMax : Nat := 2 ^ 64 - 1

/-- `sizeof(u80211_key_metadata_t)` -/
def keyMetadataSize : Nat := 56

/-- The entry that `u80211_set_key` fills in before it calls the driver. -/
def Key.metadata (key : Key) (object : Nat) : KeyMetadata where
  object := object
  cipher := key.cipher
  index := key.index
  peer := key.peer
  flags := key.flags
  rxSequence := key.rxSequence
  txSequence := .zero 6
  key := key.bytes

/-- `u80211_set_key` up to the call of the driver, given whether there is an operation, whether the
allocation succeeds and the address that it returns. -/
def setKeyAllocate (key : Key) (hasSetKey allocated : Bool) (object : Nat) :
    Except Status KeyMetadata :=
  if ¬ hasSetKey then .error .unsupported
  else if key.key = none ∧ key.keyLen ≠ 0 ∨ sizeMax - keyMetadataSize < key.keyLen then
    .error .notPermitted
  else if ¬ allocated then .error .enomem
  else .ok (key.metadata object)

/-- `key_identity_equal` -/
def keyIdentityEqual (index : UInt8) (peer : MacAddress) (flags : UInt32)
    (metadata : KeyMetadata) : Bool :=
  metadata.index == index && metadata.flags == flags && macAddressEqual metadata.peer peer

/-- The section of `u80211_del_key`: the first entry of the identity is removed. -/
def delKeyList (keys : List KeyMetadata) (index : UInt8) (peer : MacAddress) (flags : UInt32) :
    List KeyMetadata :=
  keys.eraseP (keyIdentityEqual index peer flags)

/-- The section of `u80211_set_key`: the first entry of the identity is removed, and the new one
becomes the first of all. -/
def setKeyList (keys : List KeyMetadata) (metadata : KeyMetadata) : List KeyMetadata :=
  metadata :: delKeyList keys metadata.index metadata.peer metadata.flags

/-- `u80211_tkip_data_t`, without the results that `u80211_key_prepare_tkip_tx` writes into it. -/
structure TkipData where
  header : HeaderDescription
  keyIndex : UInt8
  destination : MacAddress
  source : MacAddress
  priority : UInt8
  data : List UInt8

/-- `key_matches_header` for a device with the address `own`. -/
def keyMatchesHeader (own : MacAddress) (header : HeaderDescription) (metadata : KeyMetadata) :
    Bool :=
  let tx := macAddressEqual header.address2 own
  let group := header.address1.isGroup
  let directionFlag := if tx then keyTx else keyRx
  let typeFlag := if group then keyGroup else keyPairwise
  let peer := if tx then header.address1 else header.address2
  metadata.hasFlag directionFlag && metadata.hasFlag typeFlag &&
    (group || macAddressEqual metadata.peer peer)

/-- `select_key` -/
def findKey (own : MacAddress) (keys : List KeyMetadata) (header : HeaderDescription) :
    Option (Fin keys.length) :=
  keys.findFinIdx? (keyMatchesHeader own header)

/-- `select_key_by_index` -/
def findKeyByIndex (own : MacAddress) (keys : List KeyMetadata) (header : HeaderDescription)
    (index : UInt8) : Option (Fin keys.length) :=
  keys.findFinIdx? fun metadata => metadata.index == index && keyMatchesHeader own header metadata

/-- `u80211_select_key`; `none` stands for -1. -/
def selectKey (own : MacAddress) (keys : List KeyMetadata) (header : HeaderDescription) :
    Option UInt8 :=
  (findKey own keys header).map fun i => keys[i].index

/-- `u80211_select_cipher_by_index`; `none` stands for -1. -/
def selectCipherByIndex (own : MacAddress) (keys : List KeyMetadata) (header : HeaderDescription)
    (index : UInt8) : Option Cipher :=
  (findKeyByIndex own keys header index).map fun i => keys[i].cipher

/-- `mic_equal` -/
def micEqual (a b : FixedBytes 8) : Bool :=
  (a.toList.zip b.toList).foldl (fun difference x => difference ||| x.1 ^^^ x.2) 0 == 0

/-- `u80211_key_validate_tkip_rx`: whether the packet is valid, and the list. The outer `none` is
an access outside of the key. -/
def keyValidateTkipRx (own : MacAddress) (keys : List KeyMetadata) (data : TkipData)
    (sequence : FixedBytes 6) (mic : FixedBytes 8) : Option (Bool × List KeyMetadata) :=
  match findKeyByIndex own keys data.header data.keyIndex with
  | none => some (false, keys)
  | some i =>
    let metadata := keys[i]
    if metadata.cipher ≠ .tkip ∨ metadata.key.length ≠ tkipKeySize then some (false, keys)
    else if ¬ sequenceIsNewer sequence.toList metadata.rxSequence.toList 6 then some (false, keys)
    else do
      let micKey ← readBytes metadata.key tkipRxMicKeyOffset 8
      let calculatedMic := michaelMic micKey data.destination data.source data.priority data.data
      if ¬ micEqual calculatedMic mic then some (false, keys)
      else some (true, keys.set i { metadata with rxSequence := sequence })

/-- `u80211_key_update_rx_sequence`: whether the packet is valid, and the list. -/
def keyUpdateRxSequence (own : MacAddress) (keys : List KeyMetadata) (header : HeaderDescription)
    (index : UInt8) (cipher : Cipher) (sequence : FixedBytes 6) : Bool × List KeyMetadata :=
  match findKeyByIndex own keys header index with
  | none => (false, keys)
  | some i =>
    let metadata := keys[i]
    if metadata.cipher = cipher ∧
        sequenceIsNewer sequence.toList metadata.rxSequence.toList 6 then
      (true, keys.set i { metadata with rxSequence := sequence })
    else (false, keys)

/-- `u80211_key_prepare_tkip_tx`: the packet number, the message integrity code and the list. The
outer `none` is an access outside of the key, the inner one `false`. -/
def keyPrepareTkipTx (own : MacAddress) (keys : List KeyMetadata) (data : TkipData) :
    Option (Option (FixedBytes 6 × FixedBytes 8 × List KeyMetadata)) :=
  match findKeyByIndex own keys data.header data.keyIndex with
  | none => some none
  | some i =>
    let metadata := keys[i]
    if metadata.cipher ≠ .tkip ∨ metadata.key.length ≠ tkipKeySize then some none
    else
      match metadata.txSequence.increment with
      | none => some none
      | some sequence => do
        let micKey ← readBytes metadata.key tkipTxMicKeyOffset 8
        let mic := michaelMic micKey data.destination data.source data.priority data.data
        some (some (sequence, mic, keys.set i { metadata with txSequence := sequence }))

/-- `u80211_key_next_tx_sequence`: the packet number and the list, `none` for `false`. -/
def keyNextTxSequence (own : MacAddress) (keys : List KeyMetadata) (header : HeaderDescription)
    (index : UInt8) (cipher : Cipher) : Option (FixedBytes 6 × List KeyMetadata) :=
  match findKey own keys header with
  | none => none
  | some i =>
    let metadata := keys[i]
    if metadata.index ≠ index ∨ metadata.cipher ≠ cipher then none
    else
      metadata.txSequence.increment.map fun sequence =>
        (sequence, keys.set i { metadata with txSequence := sequence })

end U80211
