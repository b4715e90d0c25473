import Mathlib.Data.List.Find
import Mathlib.Data.List.Nodup
import U80211.KeyMemory
import U80211.Lib.Recency
import U80211.Properties.IntrusiveList
import U80211.Properties.Keys

/-!
# The key list is a map ordered by recency

* `KeyMemory.Holds`: the memory holds a list of entries, and nothing else
* `setKey_spec`, `delKey_spec`: the calls do in memory what the sections of `Key.lean` do to the
  list
* `key_list_refines_map`: **the list is what the successful calls have left**, the last one first
-/

namespace U80211

open Memory Recency

namespace KeyMemory

variable {m : KeyMemory} {keys loose loose' : List KeyMetadata} {k : KeyMetadata} {fuel : Nat}

/-! ## Representation -/

/-- The memory holds the entries of the list, some that are not on it, and nothing else. -/
structure Holds (m : KeyMemory) (keys loose : List KeyMetadata) : Prop where
  list : m.list.IsList (keys.map KeyMetadata.object)
  entries : ∀ object k, m.entries object = some k ↔ k ∈ keys ++ loose ∧ k.object = object
  nodup : ((keys ++ loose).map KeyMetadata.object).Nodup
  nodes : ∀ object, m.list.nodes object = none ↔ m.entries object = none

theorem Holds.perm (h : m.Holds keys loose) (hp : loose.Perm loose') : m.Holds keys loose' where
  list := h.list
  entries object k := by rw [h.entries, (hp.append_left keys).mem_iff]
  nodup := ((hp.append_left keys).map _).nodup_iff.mp h.nodup
  nodes := h.nodes

theorem holds_init : init.Holds [] [] where
  list := ⟨rfl, rfl, trivial, List.nodup_nil⟩
  entries object k := by simp [init]
  nodup := List.nodup_nil
  nodes object := by simp [init, IntrusiveList.init]

/-- Every entry of the list is in the memory. -/
theorem Holds.entry (h : m.Holds keys loose) (hk : k ∈ keys ++ loose) :
    m.entries k.object = some k := (h.entries _ _).mpr ⟨hk, rfl⟩

/-- An entry is on the list exactly when it is what the memory holds at its address. -/
theorem Holds.mem_iff (h : m.Holds keys []) : k ∈ keys ↔ m.entries k.object = some k := by
  simp [h.entries]

/-- A loose entry is none of those in the list. -/
theorem Holds.object_ne (h : m.Holds keys (k :: loose)) {k' : KeyMetadata}
    (hk' : k' ∈ keys ++ loose) : k'.object ≠ k.object := by
  have hn := h.nodup
  rw [List.map_append, List.map_cons, List.nodup_middle, List.nodup_cons, ← List.map_append] at hn
  intro he
  exact hn.1 (he ▸ List.mem_map_of_mem hk')

/-- The list is another one of the entries that are in memory. -/
theorem Holds.relist (h : m.Holds keys loose) {keys' : List KeyMetadata} {list : IntrusiveList Nat}
    (hlist : list.IsList (keys'.map KeyMetadata.object))
    (hnodes : ∀ object, list.nodes object = none ↔ m.list.nodes object = none)
    (hperm : (keys' ++ loose').Perm (keys ++ loose)) :
    KeyMemory.Holds { m with list } keys' loose' where
  list := hlist
  entries object k := (h.entries object k).trans (and_congr_left fun _ => hperm.mem_iff.symm)
  nodup := (hperm.map _).nodup_iff.mpr h.nodup
  nodes object := (hnodes object).trans (h.nodes object)

/-! ## Parts of the calls -/

/-- An allocation adds a loose entry. -/
theorem Holds.allocate (h : m.Holds keys loose) {metadata : KeyMetadata}
    (hfree : m.entries metadata.object = none) (node : ListNode Nat) :
    (m.allocate node metadata).Holds keys (metadata :: loose) := by
  have hother : ∀ k ∈ keys ++ loose, k.object ≠ metadata.object := by
    intro k hk he
    rw [← he, h.entry hk] at hfree
    cases hfree
  constructor
  · refine ⟨h.list.head, h.list.tail, h.list.segment.update (fun hmem => ?_) _, h.list.nodup⟩
    exact h.list.segment.allocated hmem ((h.nodes _).mpr hfree)
  · intro object k
    by_cases ho : object = metadata.object
    · subst ho
      simp only [KeyMemory.allocate, Function.update_self, Option.some_inj]
      constructor
      · rintro rfl
        simp
      · rintro ⟨hk, he⟩
        rcases List.perm_middle.mem_iff.mp hk with _ | ⟨_, hk⟩
        · rfl
        · exact absurd he (hother k hk)
    · simp only [KeyMemory.allocate, Function.update_of_ne ho, h.entries]
      refine and_congr_left fun he => ?_
      have hne : k ≠ metadata := fun hk => ho (by rw [← he, hk])
      simp [hne]
  · rw [List.map_append, List.map_cons, List.nodup_middle, List.nodup_cons, ← List.map_append]
    refine ⟨fun hmem => ?_, h.nodup⟩
    obtain ⟨k, hk, he⟩ := List.mem_map.mp hmem
    exact hother k hk he
  · intro object
    by_cases ho : object = metadata.object
    · simp [KeyMemory.allocate, ho]
    · simp [KeyMemory.allocate, ho, h.nodes]

/-- A loose entry can be freed. -/
theorem Holds.destroyKeyMetadata (h : m.Holds keys (k :: loose)) :
    ∃ m', m.destroyKeyMetadata k.object = some m' ∧ m'.Holds keys loose := by
  have hk : m.entries k.object = some k := h.entry (by simp)
  refine ⟨_, by rw [KeyMemory.destroyKeyMetadata, hk]; rfl, ?_, ?_, ?_, ?_⟩
  · refine ⟨h.list.head, h.list.tail, h.list.segment.update (fun hmem => ?_) _, h.list.nodup⟩
    obtain ⟨k', hk', he⟩ := List.mem_map.mp hmem
    exact h.object_ne (List.mem_append_left _ hk') he
  · intro object k'
    by_cases ho : object = k.object
    · subst ho
      simp only [Function.update_self, reduceCtorEq, false_iff, not_and]
      exact fun hk' => h.object_ne hk'
    · simp only [Function.update_of_ne ho, h.entries]
      refine and_congr_left fun he => ?_
      have hne : k' ≠ k := fun hk' => ho (by rw [← he, hk'])
      simp [hne]
  · have hn := h.nodup
    rw [List.map_append, List.map_cons, List.nodup_middle, List.nodup_cons, ← List.map_append] at hn
    exact hn.2
  · intro object
    by_cases ho : object = k.object
    · simp [ho]
    · simp [ho, h.nodes]

theorem Holds.destroyIfAny {old : Option KeyMetadata} (h : m.Holds keys (old.toList ++ loose)) :
    ∃ m', m.destroyIfAny (old.map KeyMetadata.object) = some m' ∧ m'.Holds keys loose := by
  cases old with
  | none => exact ⟨m, rfl, h⟩
  | some k => exact Holds.destroyKeyMetadata h

/-- A loop over the list finds the first entry with the property. -/
theorem Holds.find (h : m.Holds keys loose) (hfuel : keys.length < fuel) (p : KeyMetadata → Bool) :
    m.find fuel p = some ((keys.find? p).map KeyMetadata.object) := by
  have hentry : ∀ k ∈ keys, m.entries k.object = some k :=
    fun k hk => h.entry (List.mem_append_left _ hk)
  have hleaves : ∀ object ∈ keys.map KeyMetadata.object,
      (m.entries object).map p = some (((m.entries object).map p).getD false) := by
    simp +contextual [hentry]
  have hfuel' : (keys.map KeyMetadata.object).length < fuel := by simpa using hfuel
  have hloop := IntrusiveList.forEach_spec h.list.segment hleaves hfuel'
  have hsame : keys.find? ((fun object => ((m.entries object).map p).getD false) ∘
      KeyMetadata.object) = keys.find? p :=
    List.find?_congr fun k hk => by simp [hentry k hk]
  rw [KeyMemory.find, h.list.head, hloop, List.find?_map, hsame]

/-- The entry of an identity is taken out of the list. -/
theorem Holds.takeOut (h : m.Holds keys loose) (hfuel : keys.length < fuel) (index : UInt8)
    (peer : MacAddress) (flags : UInt32) :
    ∃ m', ∃ old : Option KeyMetadata,
      m.takeOut fuel index peer flags = some (m', old.map KeyMetadata.object) ∧
      m'.Holds (delKeyList keys index peer flags) (old.toList ++ loose) := by
  rw [KeyMemory.takeOut, h.find hfuel]
  cases hfind : keys.find? (keyIdentityEqual index peer flags) with
  | none =>
    refine ⟨m, none, rfl, ?_⟩
    have hkeys : delKeyList keys index peer flags = keys := by
      refine List.eraseP_of_forall_not fun k hk => ?_
      simpa using List.find?_eq_none.mp hfind k hk
    rwa [hkeys]
  | some k =>
    obtain ⟨hk, as, bs, rfl, has⟩ := List.find?_eq_some_iff_append.mp hfind
    have hkeys : delKeyList (as ++ k :: bs) index peer flags = as ++ bs := by
      rw [delKeyList, List.eraseP_append_right _ (by simpa using has), List.eraseP_cons_of_pos hk]
    have hlist := h.list
    rw [List.map_append, List.map_cons] at hlist
    obtain ⟨list, hremove, hlist', hnodes⟩ := IntrusiveList.remove_spec hlist
    refine ⟨{ m with list }, some k, by simp [hremove], ?_⟩
    rw [hkeys]
    refine h.relist (by rwa [List.map_append]) hnodes ?_
    simp only [List.append_assoc, List.cons_append]
    exact List.perm_middle.append_left as

/-- An entry that is in memory becomes the first of the list. -/
theorem Holds.pushFront (h : m.Holds keys (k :: loose)) :
    ∃ list, m.list.pushFront k.object = some list ∧
      KeyMemory.Holds { m with list } (k :: keys) loose := by
  have hk : m.list.nodes k.object ≠ none := by
    rw [Ne, h.nodes, h.entry (by simp)]
    exact Option.some_ne_none k
  have hout : k.object ∉ keys.map KeyMetadata.object := by
    intro hmem
    obtain ⟨k', hk', he⟩ := List.mem_map.mp hmem
    exact h.object_ne (List.mem_append_left _ hk') he
  obtain ⟨list, hpush, hlist, hnodes⟩ := IntrusiveList.pushFront_spec h.list hk hout
  exact ⟨list, hpush, h.relist hlist hnodes List.perm_middle.symm⟩

/-! ## The calls -/

/-- What a call leaves behind: a list when it succeeds, and everything as it was when it fails. -/
structure Returns (m : KeyMemory) (keys : List KeyMetadata) (m' : KeyMemory) (status : Status) :
    Prop where
  success : status = .success → m'.Holds keys []
  failure : status ≠ .success → m' = m

/-- Memory that is given back at once has not been in use. -/
theorem Holds.destroyKeyMetadata_allocate (h : m.Holds keys loose) {metadata : KeyMetadata}
    (hfree : m.entries metadata.object = none) (node : ListNode Nat) :
    (m.allocate node metadata).destroyKeyMetadata metadata.object = some m := by
  have hentries : Function.update m.entries metadata.object none = m.entries :=
    Function.update_eq_self_iff.mpr hfree.symm
  have hnodes : Function.update m.list.nodes metadata.object none = m.list.nodes :=
    Function.update_eq_self_iff.mpr ((h.nodes _).mpr hfree).symm
  simp [KeyMemory.allocate, KeyMemory.destroyKeyMetadata, hentries, hnodes]

/-- `u80211_set_key` fails, or has an entry for the key. -/
theorem setKeyAllocate_cases (key : Key) (hasSetKey allocated : Bool) (object : Nat) :
    (∃ status, setKeyAllocate key hasSetKey allocated object = .error status ∧
      status ≠ .success) ∨
      setKeyAllocate key hasSetKey allocated object = .ok (key.metadata object) ∧
        allocated = true := by
  unfold setKeyAllocate
  split
  · exact Or.inl ⟨_, rfl, by decide⟩
  · split
    · exact Or.inl ⟨_, rfl, by decide⟩
    · split
      · exact Or.inl ⟨_, rfl, by decide⟩
      · next hallocated => exact Or.inr ⟨rfl, by simpa using hallocated⟩

/-- `u80211_set_key` does in memory what its section does to the list, or fails. -/
theorem setKey_spec (h : m.Holds keys []) (hfuel : keys.length < fuel) (hasSetKey : Bool)
    (key : Key) (answers : KeyAnswers)
    (hfree : answers.allocated = true → m.entries answers.object = none) :
    ∃ m' status, m.setKey fuel hasSetKey key answers = some (m', status) ∧
      m.Returns (setKeyList keys (key.metadata answers.object)) m' status := by
  unfold setKey
  rcases setKeyAllocate_cases key hasSetKey answers.allocated answers.object with
    ⟨status, he, hstatus⟩ | ⟨he, hallocated⟩
  · rw [he]
    exact ⟨m, status, rfl, fun hs => absurd hs hstatus, fun _ => rfl⟩
  · rw [he]
    have hfree' : m.entries (key.metadata answers.object).object = none := hfree hallocated
    have hallocate := h.allocate hfree' answers.node
    by_cases hstatus : answers.status = .success
    · obtain ⟨m₁, old, h₁, hm₁⟩ := hallocate.takeOut hfuel key.index key.peer key.flags
      obtain ⟨list, h₂, hm₂⟩ := (hm₁.perm (List.perm_append_comm)).pushFront
      have hm₂' : KeyMemory.Holds { m₁ with list } (key.metadata answers.object ::
          delKeyList keys key.index key.peer key.flags) (old.toList ++ []) := hm₂.perm (by simp)
      obtain ⟨m₃, h₃, hm₃⟩ := hm₂'.destroyIfAny
      refine ⟨m₃, .success, ?_, fun _ => hm₃, fun hs => absurd rfl hs⟩
      simp [hstatus, h₁, h₂, h₃]
    · have hdestroy := h.destroyKeyMetadata_allocate hfree' answers.node
      refine ⟨m, answers.status, ?_, fun hs => absurd hs hstatus, fun _ => rfl⟩
      simp [hstatus, hdestroy]

/-- `u80211_del_key` does in memory what its section does to the list, or fails. -/
theorem delKey_spec (h : m.Holds keys []) (hfuel : keys.length < fuel) (hasDelKey : Bool)
    (index : UInt8) (peer : MacAddress) (flags : UInt32) (status : Status) :
    ∃ m' status', m.delKey fuel hasDelKey index peer flags status = some (m', status') ∧
      m.Returns (delKeyList keys index peer flags) m' status' := by
  unfold delKey
  split
  · exact ⟨m, _, rfl, fun hs => absurd hs (by decide), fun _ => rfl⟩
  · split
    · next hstatus => exact ⟨m, _, rfl, fun hs => absurd hs hstatus, fun _ => rfl⟩
    · obtain ⟨m₁, old, h₁, hm₁⟩ := h.takeOut hfuel index peer flags
      obtain ⟨m₂, h₂, hm₂⟩ := hm₁.destroyIfAny
      exact ⟨m₂, .success, by simp [h₁, h₂], fun _ => hm₂, fun hs => absurd rfl hs⟩

/-- `select_key` finds the entry that the list function finds. -/
theorem selectKey_spec (h : m.Holds keys []) (hfuel : keys.length < fuel) (own : MacAddress)
    (header : HeaderDescription) :
    m.selectKey fuel own header =
      some ((findKey own keys header).map fun i => keys[i].object) := by
  rw [selectKey, h.find hfuel, List.find?_eq_map_findFinIdx?_getElem, Option.map_map]
  rfl

/-- The look-up by index answers the entry that the list gives. -/
theorem selectKeyByIndex_spec (h : m.Holds keys []) (hfuel : keys.length < fuel)
    (own : MacAddress) (header : HeaderDescription) (index : UInt8) :
    m.selectKeyByIndex fuel own header index =
      some ((findKeyByIndex own keys header index).map fun i => keys[i].object) := by
  rw [selectKeyByIndex, h.find hfuel, List.find?_eq_map_findFinIdx?_getElem, Option.map_map]
  rfl

/-- The list with other counters in one of its entries. -/
def withSequences (keys : List KeyMetadata) (object : Nat) (rxSequence txSequence : FixedBytes 6) :
    List KeyMetadata :=
  keys.map fun k => if k.object = object then { k with rxSequence, txSequence } else k

/-- The counters of an entry are written in place. -/
theorem setSequences_spec (h : m.Holds keys []) {object : Nat} (ho : m.entries object ≠ none)
    (rxSequence txSequence : FixedBytes 6) :
    ∃ m', m.setSequences object rxSequence txSequence = some m' ∧
      m'.Holds (withSequences keys object rxSequence txSequence) [] := by
  obtain ⟨k, hk⟩ := Option.ne_none_iff_exists'.mp ho
  obtain ⟨hmem, rfl⟩ := (h.entries object k).mp hk
  have hobjects : (withSequences keys k.object rxSequence txSequence).map KeyMetadata.object =
      keys.map KeyMetadata.object := by
    rw [withSequences, List.map_map]
    refine List.map_congr_left fun k' _ => ?_
    rw [Function.comp_apply]
    split <;> rfl
  refine ⟨_, by rw [setSequences, hk]; rfl, ?_, ?_, ?_, ?_⟩
  · rw [hobjects]
    exact h.list
  · intro object k'
    rw [List.append_nil, withSequences, List.mem_map]
    by_cases ho : object = k.object
    · subst ho
      simp only [Function.update_self, Option.some_inj]
      constructor
      · rintro rfl
        exact ⟨⟨k, by simpa using hmem, if_pos rfl⟩, rfl⟩
      · rintro ⟨⟨a, ha, rfl⟩, he⟩
        have hsame : a.object = k.object := by
          split at he <;> exact he
        have hak := h.entry (List.mem_append_left _ ha)
        rw [hsame, hk, Option.some_inj] at hak
        rw [hak, if_pos rfl]
    · simp only [Function.update_of_ne ho, h.entries, List.append_nil]
      refine and_congr_left fun he => ?_
      constructor
      · intro hk'
        exact ⟨k', hk', if_neg fun hkk => ho (he ▸ hkk)⟩
      · rintro ⟨a, ha, rfl⟩
        split at he
        · next hak => exact absurd (he.symm.trans hak) ho
        · next hak => rwa [if_neg hak]
  · rw [List.append_nil, hobjects]
    exact h.list.nodup
  · intro object
    rw [h.nodes]
    by_cases ho : object = k.object
    · simp [ho, hk]
    · simp [ho]

/-- `u80211_key_state_deinit` frees every entry. -/
theorem deinit_spec (h : m.Holds keys []) (hfuel : keys.length < fuel) :
    ∃ m', m.deinit fuel = some m' ∧ m'.Holds [] [] := by
  induction keys generalizing m fuel with
  | nil =>
    cases fuel with
    | zero => exact absurd hfuel (Nat.not_lt_zero _)
    | succ fuel =>
      refine ⟨m, ?_, h⟩
      have hhead := h.list.head
      simp [deinit, IntrusiveList.popFront, hhead]
  | cons k keys ih =>
    cases fuel with
    | zero => exact absurd hfuel (Nat.not_lt_zero _)
    | succ fuel =>
      obtain ⟨list, hpop, hlist, hnodes⟩ := IntrusiveList.popFront_spec h.list
      have hm : KeyMemory.Holds { m with list } keys [k] := h.relist hlist hnodes (by simp)
      obtain ⟨m₁, h₁, hm₁⟩ := hm.destroyKeyMetadata
      obtain ⟨m₂, h₂, hm₂⟩ := ih hm₁ (Nat.lt_of_succ_lt_succ hfuel)
      exact ⟨m₂, by simp [deinit, hpop, h₁, h₂], hm₂⟩

end KeyMemory

/-! ## The list as a map -/

abbrev KeyIdentity := UInt8 × MacAddress × UInt32

/-- The entries with their identities. -/
def bindings (keys : List KeyMetadata) : List (KeyIdentity × KeyMetadata) :=
  keys.map fun k => (k.identity, k)

section Bindings

variable {keys : List KeyMetadata}

theorem map_fst_bindings : (bindings keys).map Prod.fst = keys.map KeyMetadata.identity := by
  rw [bindings, List.map_map]
  rfl

theorem mem_bindings {k : KeyMetadata} : (k.identity, k) ∈ bindings keys ↔ k ∈ keys := by
  simp [bindings]

/-- The deletion takes out the identity. -/
theorem delKeyList_eq_filter (hn : (keys.map KeyMetadata.identity).Nodup) (index : UInt8)
    (peer : MacAddress) (flags : UInt32) :
    delKeyList keys index peer flags = keys.filter (·.identity ≠ (index, peer, flags)) := by
  induction keys with
  | nil => rfl
  | cons k keys ih =>
    obtain ⟨hk, hkeys⟩ := List.nodup_cons.mp hn
    rw [delKeyList, List.eraseP_cons, List.filter_cons]
    by_cases he : k.identity = (index, peer, flags)
    · have hnone : ∀ k' ∈ keys, k'.identity ≠ (index, peer, flags) :=
        fun k' hk' hsame => hk (List.mem_map.mpr ⟨k', hk', hsame.trans he.symm⟩)
      rw [keyIdentityEqual_iff.mpr he, cond_true, if_neg (by simpa using he),
        List.filter_eq_self.mpr]
      simpa using hnone
    · have hne : keyIdentityEqual index peer flags k = false := by
        rw [Bool.eq_false_iff, Ne, keyIdentityEqual_iff]
        exact he
      rw [hne, cond_false, if_pos (by simpa using he), ← ih hkeys]
      rfl

/-- As a map, the deletion removes the binding. -/
theorem bindings_delKeyList (hn : (keys.map KeyMetadata.identity).Nodup) (index : UInt8)
    (peer : MacAddress) (flags : UInt32) :
    bindings (delKeyList keys index peer flags) =
      (bindings keys).filter (·.1 ≠ (index, peer, flags)) := by
  rw [delKeyList_eq_filter hn, bindings, bindings, List.filter_map]
  rfl

/-- As a map, setting a key replaces its binding. -/
theorem bindings_setKeyList (hn : (keys.map KeyMetadata.identity).Nodup) (k : KeyMetadata) :
    bindings (setKeyList keys k) =
      (k.identity, k) :: (bindings keys).filter (·.1 ≠ k.identity) := by
  rw [setKeyList, KeyMetadata.identity, ← bindings_delKeyList hn]
  rfl

/-- New packet numbers change the binding of their entry only. -/
theorem bindings_withSequences (hn : (keys.map KeyMetadata.identity).Nodup)
    (ho : (keys.map KeyMetadata.object).Nodup) {k : KeyMetadata} (hk : k ∈ keys)
    (rxSequence txSequence : FixedBytes 6) :
    bindings (KeyMemory.withSequences keys k.object rxSequence txSequence) =
      (bindings keys).map fun b =>
        (b.1, if k.identity = b.1 then { b.2 with rxSequence, txSequence } else b.2) := by
  rw [bindings, bindings, KeyMemory.withSequences, List.map_map, List.map_map]
  refine List.map_congr_left fun a ha => ?_
  have hsame : a.object = k.object ↔ k.identity = a.identity := by
    constructor
    · intro he
      rw [List.inj_on_of_nodup_map ho ha hk he]
    · intro he
      rw [List.inj_on_of_nodup_map hn hk ha he]
  simp only [Function.comp_apply]
  by_cases he : a.object = k.object
  · rw [if_pos he, if_pos (hsame.mp he)]
    rfl
  · rw [if_neg he, if_neg (mt hsame.mpr he)]

end Bindings

/-! ## The history of the list -/

namespace KeySystem

abbrev Transition := Lts.Transition KeySystem KeyAction

/-- The identity that a call is about. -/
def identity : KeyAction → Option KeyIdentity
  | .setKey key _ => some (key.index, key.peer, key.flags)
  | .delKey index peer flags _ => some (index, peer, flags)
  | .setSequences .. => none

/-- What a step does to the map: a call that succeeds installs or deletes a key. -/
def change (t : Transition) : Option (Step KeyIdentity KeyMetadata) :=
  match t.action with
  | .setKey key answers =>
    if t.after.answer = some .success then
      some (.put (key.index, key.peer, key.flags) (key.metadata answers.object))
    else none
  | .delKey index peer flags _ =>
    if t.after.answer = some .success then some (.delete (index, peer, flags)) else none
  | .setSequences object rxSequence txSequence =>
    (t.before.memory.entries object).map fun k =>
      .modify k.identity fun k => { k with rxSequence, txSequence }

def history (τ : List Transition) : List (Step KeyIdentity KeyMetadata) :=
  τ.filterMap change

/-- What the kernel must grant for a step: it allocates memory that is not in use, and only an
entry that is there has counters. -/
def Enabled (s : KeySystem) : KeyAction → Prop
  | .setKey _ answers => answers.allocated = true → s.Free answers.object
  | .delKey .. => True
  | .setSequences object _ _ => ¬ s.Free object

variable {s s' : KeySystem} {keys : List KeyMetadata} {a : KeyAction}
  {steps : List (Step KeyIdentity KeyMetadata)}

/-- The list in memory is what a history has left. -/
structure Tracks (s : KeySystem) (steps : List (Step KeyIdentity KeyMetadata))
    (keys : List KeyMetadata) : Prop where
  holds : s.memory.Holds keys []
  left : bindings keys = recent steps
  length : keys.length ≤ s.steps

theorem Tracks.nodup (h : s.Tracks steps keys) : (keys.map KeyMetadata.identity).Nodup := by
  rw [← map_fst_bindings, h.left]
  exact nodup_recent steps

theorem Tracks.lt_rounds (h : s.Tracks steps keys) : keys.length < s.rounds :=
  Nat.lt_succ_of_le h.length

/-- A call that returns has changed the map when it has been successful. -/
theorem Tracks.returned (h : s.Tracks steps keys) {keys' : List KeyMetadata} {m' : KeyMemory}
    {status : Status} {e : Step KeyIdentity KeyMetadata}
    (hr : s.memory.Returns keys' m' status) (hleft : bindings keys' = recent (steps ++ [e]))
    (hlength : keys'.length ≤ keys.length + 1) :
    ∃ keys'', (s.returned (m', status)).Tracks
      (steps ++ (if some status = some Status.success then some e else none).toList) keys'' := by
  have hsteps : keys.length + 1 ≤ s.steps + 1 := Nat.succ_le_succ h.length
  by_cases hs : status = .success
  · rw [if_pos (congrArg some hs)]
    exact ⟨keys', hr.success hs, hleft, Nat.le_trans hlength hsteps⟩
  · rw [if_neg fun he => hs (Option.some_inj.mp he)]
    refine ⟨keys, ?_, by simpa using h.left, Nat.le_trans (Nat.le_succ _) hsteps⟩
    rw [KeySystem.returned, hr.failure hs]
    exact h.holds

/-- Every step that is enabled is taken, and the list stays what the history has left. A call that
fails changes nothing. -/
theorem step_spec (h : s.Tracks steps keys) (he : s.Enabled a) :
    ∃ s' keys', step a s = some s' ∧ s'.Tracks (steps ++ (change ⟨s, a, s'⟩).toList) keys' ∧
      ((identity a).isSome → s'.answer ≠ some .success → s'.memory = s.memory) := by
  cases a with
  | setKey key answers =>
    obtain ⟨m', status, hset, hr⟩ :=
      KeyMemory.setKey_spec h.holds h.lt_rounds s.hasSetKey key answers he
    obtain ⟨keys', ht⟩ := h.returned hr (e := .put (key.index, key.peer, key.flags) _)
      (by rw [bindings_setKeyList h.nodup, recent_put, h.left]; rfl)
      (Nat.succ_le_succ (List.length_eraseP_le ..))
    refine ⟨s.returned (m', status), keys', ?_, ht, fun _ hs => hr.failure fun he => hs ?_⟩
    · rw [step, if_neg fun hn => hn.2 (he hn.1), hset]
      rfl
    · rw [returned, he]
  | delKey index peer flags status =>
    obtain ⟨m', status', hdel, hr⟩ :=
      KeyMemory.delKey_spec h.holds h.lt_rounds s.hasDelKey index peer flags status
    obtain ⟨keys', ht⟩ := h.returned hr (e := .delete (index, peer, flags))
      (by rw [bindings_delKeyList h.nodup, recent_delete, h.left])
      (Nat.le_succ_of_le (List.length_eraseP_le ..))
    refine ⟨s.returned (m', status'), keys', ?_, ht, fun _ hs => hr.failure fun he => hs ?_⟩
    · rw [step, hdel]
      rfl
    · rw [returned, he]
  | setSequences object rxSequence txSequence =>
    obtain ⟨k, hk⟩ := Option.ne_none_iff_exists'.mp he
    obtain ⟨hmem, rfl⟩ := (h.holds.entries object k).mp hk
    obtain ⟨m', hset, hm'⟩ := KeyMemory.setSequences_spec h.holds he rxSequence txSequence
    refine ⟨{ s with memory := m', steps := s.steps + 1, answer := none }, _,
      by rw [step, hset]; rfl, ⟨hm', ?_, ?_⟩, fun hi => absurd hi (by simp [identity])⟩
    · rw [bindings_withSequences h.nodup h.holds.list.nodup (by simpa using hmem), h.left]
      simp [change, hk, recent_modify]
    · rw [KeyMemory.withSequences, List.length_map]
      exact Nat.le_succ_of_le h.length

/-- A step is taken only where it makes sense. -/
theorem enabled_of_step (hs : step a s = some s') : s.Enabled a := by
  cases a with
  | setKey key answers =>
    intro hallocated
    by_contra hfree
    rw [step, if_pos ⟨hallocated, hfree⟩] at hs
    cases hs
  | delKey index peer flags status => trivial
  | setSequences object rxSequence txSequence =>
    intro hfree
    rw [step, KeyMemory.setSequences, hfree] at hs
    cases hs

/-- A call leaves the bindings of the other identities as they were. -/
theorem mem_recent_change {t : Transition} {i : KeyIdentity} (hi : identity t.action = some i)
    {b : KeyIdentity × KeyMetadata} (hb : b.1 ≠ i) :
    b ∈ recent (steps ++ (change t).toList) ↔ b ∈ recent steps := by
  unfold change
  cases ha : t.action with
  | setKey key answers =>
    rw [ha] at hi
    cases hi
    dsimp only
    split
    · have hne : b ≠ ((key.index, key.peer, key.flags), key.metadata answers.object) :=
        fun he => hb (he ▸ rfl)
      rw [Option.toList_some, recent_put]
      simp [hb, hne]
    · simp
  | delKey index peer flags status =>
    rw [ha] at hi
    cases hi
    dsimp only
    split
    · rw [Option.toList_some, recent_delete]
      simp [hb]
    · simp
  | setSequences object rxSequence txSequence =>
    rw [ha] at hi
    cases hi

/-- After a run the list is what the run has left. -/
theorem Run.tracks {hasSetKey hasDelKey : Bool} {τ : List Transition}
    (h : Lts.Run step (init hasSetKey hasDelKey) τ s) : ∃ keys, s.Tracks (history τ) keys := by
  refine h.history (P := fun τ s => ∃ keys, s.Tracks (history τ) keys) ?_ ?_
  · exact ⟨[], KeyMemory.holds_init, rfl, Nat.le_refl 0⟩
  · rintro τ s a s' - ⟨keys, ht⟩ hs
    obtain ⟨s₁, keys', hs₁, ht', -⟩ := step_spec ht (enabled_of_step hs)
    cases hs.symm.trans hs₁
    refine ⟨keys', ?_⟩
    rw [history, Lts.filterMap_concat]
    exact ht'

/-- A loop over the list finds the binding that has been made last. -/
theorem Tracks.find (h : s.Tracks steps keys) (p : KeyMetadata → Bool) :
    ∃ found, s.memory.find s.rounds p = some (found.map fun b => b.2.object) ∧
      Latest steps (fun b => p b.2) found := by
  refine ⟨_, ?_, latest_find? steps fun b => p b.2⟩
  rw [h.holds.find h.lt_rounds, ← h.left, bindings, List.find?_map, Option.map_map]
  rfl

/-- **The key list is a map ordered by recency.** Whatever calls have been made, with whatever the
kernel and the driver have answered: the list in memory holds one entry for each identity that has
been installed and not deleted since, as it was installed but for its counters, the last one first.
Every call returns; one that fails changes nothing, and none touches an entry of another identity.
Hence a look-up returns, of all that fits, what has been installed last. -/
theorem key_list_refines_map {hasSetKey hasDelKey : Bool} {τ : List Transition}
    (h : Lts.Run step (init hasSetKey hasDelKey) τ s) :
    ∃ keys : List KeyMetadata, s.memory.Holds keys [] ∧
      (keys.map KeyMetadata.identity).Nodup ∧
      bindings keys = recent (history τ) ∧
      (∀ a, s.Enabled a ↔ ∃ s', step a s = some s') ∧
      (∀ a s' i, step a s = some s' → identity a = some i →
        (s'.answer ≠ some .success → s'.memory = s.memory) ∧
        ∀ k : KeyMetadata, k.identity ≠ i →
          (s'.memory.entries k.object = some k ↔ s.memory.entries k.object = some k)) ∧
      (∀ own header, ∃ found,
        s.memory.selectKey s.rounds own header = some (found.map fun b => b.2.object) ∧
        Latest (history τ) (fun b => keyMatchesHeader own header b.2) found) ∧
      ∀ own header index, ∃ found,
        s.memory.selectKeyByIndex s.rounds own header index =
          some (found.map fun b => b.2.object) ∧
        Latest (history τ)
          (fun b => b.2.index == index && keyMatchesHeader own header b.2) found := by
  obtain ⟨keys, ht⟩ := Run.tracks h
  refine ⟨keys, ht.holds, ht.nodup, ht.left, fun a => ⟨fun he => ?_, ?_⟩, ?_, ?_, ?_⟩
  · obtain ⟨s', -, hs, -⟩ := step_spec ht he
    exact ⟨s', hs⟩
  · rintro ⟨s', hs⟩
    exact enabled_of_step hs
  · intro a s' i hs hi
    obtain ⟨s₁, keys', hs₁, ht', hfail⟩ := step_spec ht (enabled_of_step hs)
    cases hs.symm.trans hs₁
    refine ⟨hfail (by rw [hi]; rfl), fun k hk => ?_⟩
    rw [← ht'.holds.mem_iff, ← ht.holds.mem_iff, ← mem_bindings, ← mem_bindings, ht'.left, ht.left]
    exact mem_recent_change hi hk
  · exact fun own header => ht.find _
  · exact fun own header index => ht.find _

/-- Two keys are installed, the first one is installed again, and the driver refuses to delete the
other one. -/
def Scenario.keyCalls : List KeyAction :=
  let key (index byte : UInt8) : Key :=
    { cipher := .ccmp, index, peer := .zero 6, key := some [byte], keyLen := 1, rxSeq := none,
      flags := keyGroup ||| keyRx, length_key := by rintro _ ⟨⟩; rfl }
  let answers (object : Nat) : KeyAnswers :=
    { allocated := true, object, node := { prev := none, next := none }, status := .success }
  [.setKey (key 1 7) (answers 0), .setKey (key 2 8) (answers 1), .setKey (key 1 9) (answers 2),
    .delKey 2 (.zero 6) (keyGroup ||| keyRx) .notPermitted]

open KeySystem.Scenario in
theorem key_list_refines_map_twice :
    ∃ τ s keys, Lts.Run step (init true true) τ s ∧ τ.length = 4 ∧ s.memory.Holds keys [] ∧
      keys.map (·.key) = [[9], [8]] ∧ s.answer = some .notPermitted := by
  have hexec : ((Lts.exec step keyCalls (init true true)).map (·.answer)) =
      some (some .notPermitted) := by decide
  have hleft : (recent (history (Lts.trace step keyCalls (init true true)))).map (·.2.key) =
      [[9], [8]] := by decide
  obtain ⟨s, hs, hanswer⟩ := Option.map_eq_some_iff.mp hexec
  have hrun := Lts.exec_run hs
  obtain ⟨keys, hholds, -, hkeys, -⟩ := key_list_refines_map hrun
  refine ⟨_, s, keys, hrun, by decide, hholds, ?_, hanswer⟩
  rw [← hleft, ← hkeys, bindings, List.map_map]
  rfl

end KeySystem

end U80211
