import U80211.IntrusiveList
import U80211.Key
import U80211.Lib.Lts

/-!
# `src/key.c`: the key list in memory

`Key.lean` has the sections under `key_spinlock` on the list of the entries. Here the entries are in
memory, with the nodes of `device->keys` in them; an access to an entry that has been freed
answers `none`. An allocation gives memory that is not in use.
-/

namespace U80211

open Memory

/-- `device->keys`, and the entries in memory, without their nodes. -/
structure KeyMemory where
  list : IntrusiveList Nat
  entries : Nat → Option KeyMetadata

/-- What the kernel and the driver answer during a call: whether the allocation succeeds, the
address that it returns and what is in the node there, and the status of the driver. -/
structure KeyAnswers where
  allocated : Bool
  object : Nat
  node : ListNode Nat
  status : Status

namespace KeyMemory

/-- `u80211_key_state_init` when the lock can be allocated, with no entry in memory. -/
def init : KeyMemory where
  list := .init fun _ => none
  entries := fun _ => none

/-- An allocated entry whose members have been filled in. -/
def allocate (m : KeyMemory) (node : ListNode Nat) (metadata : KeyMetadata) : KeyMemory where
  list := { m.list with nodes := Function.update m.list.nodes metadata.object (some node) }
  entries := Function.update m.entries metadata.object (some metadata)

/-- `destroy_key_metadata` -/
def destroyKeyMetadata (m : KeyMemory) (object : Nat) : Option KeyMemory := do
  let _ ← m.entries object
  some
    { list := { m.list with nodes := Function.update m.list.nodes object none }
      entries := Function.update m.entries object none }

/-- The loops over `device->keys`, up to the first entry with a property. -/
def find (m : KeyMemory) (fuel : Nat) (p : KeyMetadata → Bool) : Option (Option Nat) :=
  m.list.forEach (fun node => (m.entries node).map p) fuel m.list.head

variable (fuel : Nat)

/-- The loop over `device->keys` that takes the entry of an identity out; the pointer to it. -/
def takeOut (m : KeyMemory) (index : UInt8) (peer : MacAddress) (flags : UInt32) :
    Option (KeyMemory × Option Nat) := do
  match ← m.find fuel (keyIdentityEqual index peer flags) with
  | none => some (m, none)
  | some node =>
    let list ← m.list.remove node
    some ({ m with list }, some node)

/-- `if (metadata != NULL) destroy_key_metadata(metadata)` -/
def destroyIfAny (m : KeyMemory) : Option Nat → Option KeyMemory
  | none => some m
  | some object => m.destroyKeyMetadata object

/-- `u80211_set_key` -/
def setKey (m : KeyMemory) (hasSetKey : Bool) (key : Key) (answers : KeyAnswers) :
    Option (KeyMemory × Status) :=
  match setKeyAllocate key hasSetKey answers.allocated answers.object with
  | .error status => some (m, status)
  | .ok metadata => do
    let m := m.allocate answers.node metadata
    if answers.status ≠ .success then
      let m ← m.destroyKeyMetadata metadata.object
      some (m, answers.status)
    else
      let (m, oldMetadata) ← m.takeOut fuel key.index key.peer key.flags
      let list ← m.list.pushFront metadata.object
      let m ← { m with list }.destroyIfAny oldMetadata
      some (m, .success)

/-- `u80211_del_key` -/
def delKey (m : KeyMemory) (hasDelKey : Bool) (index : UInt8) (peer : MacAddress) (flags : UInt32)
    (status : Status) : Option (KeyMemory × Status) :=
  if ¬ hasDelKey then some (m, .unsupported)
  else if status ≠ .success then some (m, status)
  else do
    let (m, removedMetadata) ← m.takeOut fuel index peer flags
    let m ← m.destroyIfAny removedMetadata
    some (m, .success)

/-- `select_key` -/
def selectKey (m : KeyMemory) (own : MacAddress) (header : HeaderDescription) :
    Option (Option Nat) :=
  m.find fuel (keyMatchesHeader own header)

/-- `select_key_by_index` -/
def selectKeyByIndex (m : KeyMemory) (own : MacAddress) (header : HeaderDescription)
    (index : UInt8) : Option (Option Nat) :=
  m.find fuel fun metadata => metadata.index == index && keyMatchesHeader own header metadata

/-- The counters of an entry are written: by `u80211_key_validate_tkip_rx`,
`u80211_key_update_rx_sequence`, `u80211_key_prepare_tkip_tx` or `u80211_key_next_tx_sequence`. -/
def setSequences (m : KeyMemory) (object : Nat) (rxSequence txSequence : FixedBytes 6) :
    Option KeyMemory := do
  let metadata ← m.entries object
  some
    { m with
      entries :=
        Function.update m.entries object (some { metadata with rxSequence, txSequence }) }

/-- `u80211_key_state_deinit` -/
def deinit (m : KeyMemory) : Nat → Option KeyMemory
  | 0 => none
  | fuel + 1 => do
    match ← m.list.popFront with
    | (list, none) => some { m with list }
    | (list, some node) =>
      let m ← { m with list }.destroyKeyMetadata node
      m.deinit fuel

end KeyMemory

/-! ## The calls -/

/-- The key list of a device, and the status of the last step, if it has been a call. -/
structure KeySystem where
  memory : KeyMemory
  /-- `device->ops->set_key` is there -/
  hasSetKey : Bool
  /-- `device->ops->del_key` is there -/
  hasDelKey : Bool
  /-- the number of steps that have been taken -/
  steps : Nat
  answer : Option Status

/-- The calls, with what they are answered, and what packets do to the counters between them. -/
inductive KeyAction where
  | setKey (key : Key) (answers : KeyAnswers)
  | delKey (index : UInt8) (peer : MacAddress) (flags : UInt32) (status : Status)
  | setSequences (object : Nat) (rxSequence txSequence : FixedBytes 6)

namespace KeySystem

/-- After `u80211_key_state_init`. -/
def init (hasSetKey hasDelKey : Bool) : KeySystem where
  memory := .init
  hasSetKey := hasSetKey
  hasDelKey := hasDelKey
  steps := 0
  answer := none

/-- A bound on the rounds of the loops: a step adds one entry at most. -/
def rounds (s : KeySystem) : Nat := s.steps + 1

/-- The memory is not in use. -/
def Free (s : KeySystem) (object : Nat) : Prop := s.memory.entries object = none

instance (s : KeySystem) (object : Nat) : Decidable (s.Free object) :=
  inferInstanceAs (Decidable (_ = none))

/-- The next state after a call has returned. -/
def returned (s : KeySystem) (result : KeyMemory × Status) : KeySystem :=
  { s with memory := result.1, steps := s.steps + 1, answer := some result.2 }

def step : KeyAction → KeySystem → Option KeySystem
  | .setKey key answers, s =>
    if answers.allocated ∧ ¬ s.Free answers.object then none
    else do
      let result ← s.memory.setKey s.rounds s.hasSetKey key answers
      some (s.returned result)
  | .delKey index peer flags status, s => do
    let result ← s.memory.delKey s.rounds s.hasDelKey index peer flags status
    some (s.returned result)
  | .setSequences object rxSequence txSequence, s => do
    let memory ← s.memory.setSequences object rxSequence txSequence
    some { s with memory, steps := s.steps + 1, answer := none }

end KeySystem

end U80211
