import U80211.Lib.Log
import U80211.Properties.KeyEffect

/-!
# The history of an entry

* `Pending`: an entry that `u80211_set_key` has allocated and not yet put into the list
* `EntryHistory`: what the events of a run say about an entry of the list
* `Run.store`: **it holds of every entry after every run**
-/

namespace U80211

namespace KeyStore

open Memory

/-! ## Entries that are not in the list yet -/

/-- The entry that a call of `u80211_set_key` has allocated. -/
def Call.metadata? : Call → Option (Key × KeyMetadata)
  | .setKeyDriver key metadata => some (key, metadata)
  | .setKeyList key metadata => some (key, metadata)
  | _ => none

/-- Call `i` has allocated the entry and has not put it into the list. -/
def Pending (s : State) (i : Nat) (key : Key) (metadata : KeyMetadata) : Prop :=
  ∃ c, s.calls[i]? = some c ∧ c.metadata? = some (key, metadata)

section Calls

variable {s s' : State} {i j : Nat} {outcome : Outcome} {c c' : Call} {key : Key}
  {metadata : KeyMetadata}

/-- The step of call `i` leaves it at `c'` and leaves the other calls where they are. -/
theorem Pending.of_set (hc' : s'.calls = s.calls.set i c') (h : Pending s' j key metadata) :
    j = i ∧ c'.metadata? = some (key, metadata) ∨ j ≠ i ∧ Pending s j key metadata := by
  obtain ⟨c₁, hc₁, hm⟩ := h
  rw [hc', List.getElem?_set] at hc₁
  split at hc₁
  · next hij =>
    split at hc₁
    · cases hc₁
      exact Or.inl ⟨hij.symm, hm⟩
    · cases hc₁
  · next hij => exact Or.inr ⟨fun h => hij h.symm, c₁, hc₁, hm⟩

theorem setKeyAllocate_eq_ok {hasSetKey allocated : Bool} {object : Nat}
    (h : setKeyAllocate key hasSetKey allocated object = .ok metadata) :
    metadata = key.metadata object := by
  unfold setKeyAllocate at h
  split at h
  · cases h
  · split at h
    · cases h
    · split at h <;> cases h
      rfl

/-- What the step of a call does to the calls: it leaves its own at a place without an entry, or
with the one that it had, or allocates one. -/
inductive CallsStep (s s' : State) (i : Nat) (c : Call) : Prop
  | none (c' : Call) (hs : s'.calls = s.calls.set i c') (hn : s'.nextObject = s.nextObject)
      (hm : c'.metadata? = none)
  | kept (c' : Call) (hs : s'.calls = s.calls.set i c') (hn : s'.nextObject = s.nextObject)
      (hm : c'.metadata? = c.metadata?)
  | allocated (c' : Call) (key : Key) (hs : s'.calls = s.calls.set i c')
      (hn : s'.nextObject = s.nextObject + 1)
      (hm : c'.metadata? = some (key, key.metadata s.nextObject))

/-- **Only `u80211_set_key` allocates an entry.** -/
theorem stepCall_calls (h : stepCall s i outcome c = some s') : CallsStep s s' i c := by
  obtain ⟨c', s₁, hstep, rfl⟩ := stepCall_eq_some h
  cases hstep with
  | @setKeyAllocated key metadata hm =>
    rw [setKeyAllocate_eq_ok hm]
    exact .allocated _ key rfl rfl rfl
  | driverInstalled _ => exact .kept _ rfl rfl rfl
  | _ => exact .none _ rfl rfl rfl

/-- Where an entry that is pending after a step comes from. -/
inductive PendingStep (s s' : State) : Prop
  /-- it was pending before -/
  | kept (hn : s'.nextObject = s.nextObject)
      (h : ∀ i key metadata, Pending s' i key metadata → Pending s i key metadata)
  /-- it has been allocated by call `i` -/
  | allocated (i : Nat) (hn : s'.nextObject = s.nextObject + 1)
      (h : ∀ j key metadata, Pending s' j key metadata →
        j = i ∧ metadata = key.metadata s.nextObject ∨ j ≠ i ∧ Pending s j key metadata)

theorem step_pending {action : Action} (h : step action s = some s') : PendingStep s s' := by
  cases action with
  | invoke entry =>
    cases h
    refine .kept rfl ?_
    rintro i key metadata ⟨c, hc, hm⟩
    have hc : (s.calls ++ [entry.start])[i]? = some c := hc
    rw [List.getElem?_append] at hc
    split at hc
    · exact ⟨c, hc, hm⟩
    · have hentry := List.mem_of_getElem? hc
      rw [List.mem_singleton.mp hentry] at hm
      cases entry <;> cases hm
  | advance i outcome =>
    rw [step] at h
    split at h
    · cases h
    · next c hc =>
      cases stepCall_calls h with
      | none c' hs hn hm =>
        refine .kept hn ?_
        intro j key metadata hp
        rcases hp.of_set hs with ⟨-, hm'⟩ | ⟨-, hp⟩
        · cases hm.symm.trans hm'
        · exact hp
      | kept c' hs hn hm =>
        refine .kept hn ?_
        intro j key metadata hp
        rcases hp.of_set hs with ⟨rfl, hm'⟩ | ⟨-, hp⟩
        · exact ⟨c, hc, hm.symm.trans hm'⟩
        · exact hp
      | allocated c' key hs hn hm =>
        refine .allocated i hn ?_
        intro j key' metadata hp
        rcases hp.of_set hs with ⟨rfl, hm'⟩ | ⟨hne, hp⟩
        · cases hm.symm.trans hm'
          exact Or.inl ⟨rfl, rfl⟩
        · exact Or.inr ⟨hne, hp⟩
  | associate association =>
    cases h
    exact .kept rfl fun _ _ _ hp => hp

end Calls

/-! ## The events of a run -/

def installs (τ : List Transition) : List (Nat × Key) := τ.filterMap installed

/-- The packet numbers of the packets that have been accepted. -/
def accepts (τ : List Transition) : List (Nat × Nat) := τ.filterMap accepted

/-- The packet numbers that have been drawn. -/
def draws (τ : List Transition) : List (Nat × Nat) := τ.filterMap drawn

section Events

variable {τ : List Transition} {t : Transition}

theorem installs_concat_none (h : installed t = none) : installs (τ ++ [t]) = installs τ := by
  simp [installs, h]

theorem installs_concat_some {e : Nat × Key} (h : installed t = some e) :
    installs (τ ++ [t]) = installs τ ++ [e] := by
  simp [installs, h]

theorem accepts_concat_none (h : accepted t = none) : accepts (τ ++ [t]) = accepts τ := by
  simp [accepts, h]

theorem accepts_concat_some {e : Nat × Nat} (h : accepted t = some e) :
    accepts (τ ++ [t]) = accepts τ ++ [e] := by
  simp [accepts, h]

theorem draws_concat_none (h : drawnBy t = none) : draws (τ ++ [t]) = draws τ := by
  simp [draws, drawn, h]

theorem draws_concat_some {e : Nat × Draw} (h : drawnBy t = some e) :
    draws (τ ++ [t]) = draws τ ++ [(e.2.entry.object, e.2.number)] := by
  simp [draws, drawn, h]

end Events

/-- What a run says about an entry: it has been installed with `key`, the packet numbers that it has
taken increase from the one that it was installed with on, and those that it has given away are 1,
2, 3 and so on. -/
structure EntryHistory (τ : List Transition) (k : KeyMetadata) (key : Key) : Prop where
  installed : (k.object, key) ∈ installs τ
  origin : k = { key.metadata k.object with
    rxSequence := k.rxSequence
    txSequence := k.txSequence }
  accepted : (leValue key.rxSequence.toList :: Log.of (accepts τ) k.object).Pairwise (· < ·)
  last : leValue k.rxSequence.toList =
    (Log.of (accepts τ) k.object).getLastD (leValue key.rxSequence.toList)
  drawn : Log.of (draws τ) k.object = List.range' 1 (leValue k.txSequence.toList)

/-- What holds of the pending entries after a run. -/
structure PendingHistory (τ : List Transition) (s : State) : Prop where
  metadata : ∀ i key m, Pending s i key m → m = key.metadata m.object
  fresh : ∀ i key m, Pending s i key m → m.object < s.nextObject
  unique : ∀ i key m j key' m', Pending s i key m → Pending s j key' m' →
    m.object = m'.object → i = j
  not_installed : ∀ i key m, Pending s i key m → ∀ key', (m.object, key') ∉ installs τ
  installs_fresh : ∀ o key, (o, key) ∈ installs τ → o < s.nextObject
  installs_nodup : ((installs τ).map Prod.fst).Nodup

/-- The packet numbers of an address that an entry has been installed at, whether or not the entry
is still in the list. -/
structure Numbers (τ : List Transition) (o : Nat) (key : Key) : Prop where
  accepted : (leValue key.rxSequence.toList :: Log.of (accepts τ) o).Pairwise (· < ·)
  drawn : ∃ n < 2 ^ 48, Log.of (draws τ) o = List.range' 1 n

/-- What holds of the list and of the pending entries after a run. -/
structure Store (τ : List Transition) (s : State) : Prop extends PendingHistory τ s where
  accepts_installs : ∀ o n, (o, n) ∈ accepts τ → ∃ key, (o, key) ∈ installs τ
  draws_installs : ∀ o n, (o, n) ∈ draws τ → ∃ key, (o, key) ∈ installs τ
  keys_nodup : (s.device.keys.map KeyMetadata.object).Nodup
  identities : (s.device.keys.map KeyMetadata.identity).Nodup
  history : ∀ k ∈ s.device.keys, ∃ key, EntryHistory τ k key
  numbers : ∀ o key, (o, key) ∈ installs τ → Numbers τ o key

section Store

variable {τ τ' : List Transition} {s s' : State} {action : Action} {k : KeyMetadata} {key : Key}

theorem nextObject_le (h : step action s = some s') : s.nextObject ≤ s'.nextObject := by
  cases step_pending h with
  | kept hn _ => exact Nat.le_of_eq hn.symm
  | allocated i hn _ => omega

/-- The history of an entry that the transition does not concern. -/
theorem EntryHistory.of_logs (h : EntryHistory τ k key) (hi : (k.object, key) ∈ installs τ')
    (ha : Log.of (accepts τ') k.object = Log.of (accepts τ) k.object)
    (hd : Log.of (draws τ') k.object = Log.of (draws τ) k.object) : EntryHistory τ' k key where
  installed := hi
  origin := h.origin
  accepted := by rw [ha]; exact h.accepted
  last := by rw [ha]; exact h.last
  drawn := by rw [hd]; exact h.drawn

/-- An entry that has just been installed has no history. -/
theorem EntryHistory.of_new {o : Nat} (hi : (o, key) ∈ installs τ)
    (ha : Log.of (accepts τ) o = []) (hd : Log.of (draws τ) o = []) :
    EntryHistory τ (key.metadata o) key where
  installed := hi
  origin := rfl
  accepted := by
    show (_ :: Log.of (accepts τ) o).Pairwise _
    rw [ha]
    exact List.pairwise_singleton _ _
  last := by
    show _ = (Log.of (accepts τ) o).getLastD _
    rw [ha]
    rfl
  drawn := by
    show Log.of (draws τ) o = _
    rw [hd]
    rfl

theorem Numbers.of_logs {o : Nat} (h : Numbers τ o key)
    (ha : Log.of (accepts τ') o = Log.of (accepts τ) o)
    (hd : Log.of (draws τ') o = Log.of (draws τ) o) : Numbers τ' o key where
  accepted := by rw [ha]; exact h.accepted
  drawn := by rw [hd]; exact h.drawn

theorem EntryHistory.numbers (h : EntryHistory τ k key) : Numbers τ k.object key where
  accepted := h.accepted
  drawn := by
    have hlt := leValue_lt k.txSequence.toList
    rw [k.txSequence.length_toList] at hlt
    exact ⟨_, hlt, h.drawn⟩

/-- An entry takes a packet number. -/
theorem EntryHistory.accept (h : EntryHistory τ k key) {sequence : FixedBytes 6}
    (hnewer : leValue k.rxSequence.toList < leValue sequence.toList)
    (hi : installs τ' = installs τ)
    (ha : accepts τ' = accepts τ ++ [(k.object, leValue sequence.toList)])
    (hd : draws τ' = draws τ) : EntryHistory τ' { k with rxSequence := sequence } key where
  installed := by rw [hi]; exact h.installed
  origin := congrArg (fun m : KeyMetadata => { m with rxSequence := sequence }) h.origin
  accepted := by
    rw [ha, Log.of_concat_self]
    refine Log.pairwise_lt_concat h.accepted ?_
    rw [← h.last]
    exact hnewer
  last := by rw [ha, Log.of_concat_self, Log.getLastD_concat]
  drawn := by rw [hd]; exact h.drawn

/-- An entry gives a packet number away. -/
theorem EntryHistory.draw (h : EntryHistory τ k key) {sequence : FixedBytes 6}
    (hnext : k.txSequence.increment = some sequence) (hi : installs τ' = installs τ)
    (ha : accepts τ' = accepts τ)
    (hd : draws τ' = draws τ ++ [(k.object, leValue sequence.toList)]) :
    EntryHistory τ' { k with txSequence := sequence } key where
  installed := by rw [hi]; exact h.installed
  origin := congrArg (fun m : KeyMetadata => { m with txSequence := sequence }) h.origin
  accepted := by rw [ha]; exact h.accepted
  last := by rw [ha]; exact h.last
  drawn := by
    rw [hd, Log.of_concat_self, h.drawn, increment_eq_some hnext, List.range'_1_concat,
      Nat.add_comm 1]

/-- The entry that a transition puts into the list has been pending, and is no longer. -/
theorem installs_cases (h : step action s = some s') :
    installs (τ ++ [⟨s, action, s'⟩]) = installs τ ∨
      ∃ i key m, Pending s i key m ∧
        installs (τ ++ [⟨s, action, s'⟩]) = installs τ ++ [(m.object, key)] ∧
        ∀ j key' m', Pending s' j key' m' → j ≠ i ∧ Pending s j key' m' := by
  cases step_effect h with
  | quiet _ hi => exact Or.inl (installs_concat_none hi)
  | install i key m hc hs _ hi =>
    refine Or.inr ⟨i, key, m, ⟨_, hc, rfl⟩, installs_concat_some hi, ?_⟩
    intro j key' m' hp
    rcases hp.of_set hs with ⟨-, hm⟩ | hother
    · cases hm
    · exact hother
  | remove _ _ _ _ hi => exact Or.inl (installs_concat_none hi)
  | accept _ _ _ _ hi => exact Or.inl (installs_concat_none hi)
  | draw _ _ _ _ _ hi => exact Or.inl (installs_concat_none hi)

/-- Nothing is put into the list, and no entry is allocated. -/
theorem PendingHistory.kept (hp : PendingHistory τ s) (hi : installs τ' = installs τ)
    (hn : s'.nextObject = s.nextObject)
    (h : ∀ i key m, Pending s' i key m → Pending s i key m) : PendingHistory τ' s' where
  metadata := fun i key m hm => hp.metadata i key m (h i key m hm)
  fresh := by
    intro i key m hm
    rw [hn]
    exact hp.fresh i key m (h i key m hm)
  unique := fun i key m j key' m' hm hm' =>
    hp.unique i key m j key' m' (h i key m hm) (h j key' m' hm')
  not_installed := by
    intro i key m hm
    rw [hi]
    exact hp.not_installed i key m (h i key m hm)
  installs_fresh := by
    rw [hi, hn]
    exact hp.installs_fresh
  installs_nodup := by
    rw [hi]
    exact hp.installs_nodup

/-- Nothing is put into the list, and call `i` allocates an entry. -/
theorem PendingHistory.allocated {i : Nat} (hp : PendingHistory τ s)
    (hi : installs τ' = installs τ) (hn : s'.nextObject = s.nextObject + 1)
    (h : ∀ j key m, Pending s' j key m →
      j = i ∧ m = key.metadata s.nextObject ∨ j ≠ i ∧ Pending s j key m) :
    PendingHistory τ' s' where
  metadata := by
    intro j key m hm
    rcases h j key m hm with ⟨-, rfl⟩ | ⟨-, hm⟩
    · rfl
    · exact hp.metadata j key m hm
  fresh := by
    intro j key m hm
    rw [hn]
    rcases h j key m hm with ⟨-, rfl⟩ | ⟨-, hm⟩
    · exact Nat.lt_succ_self _
    · exact Nat.lt_succ_of_lt (hp.fresh j key m hm)
  unique := by
    intro j key m j' key' m' hm hm' ho
    rcases h j key m hm with ⟨hj, rfl⟩ | ⟨-, hm⟩ <;>
      rcases h j' key' m' hm' with ⟨hj', rfl⟩ | ⟨-, hm'⟩
    · rw [hj, hj']
    · have hlt := hp.fresh j' key' m' hm'
      rw [← ho] at hlt
      exact absurd hlt (Nat.lt_irrefl _)
    · have hlt := hp.fresh j key m hm
      rw [ho] at hlt
      exact absurd hlt (Nat.lt_irrefl _)
    · exact hp.unique j key m j' key' m' hm hm' ho
  not_installed := by
    intro j key m hm key' hin
    rw [hi] at hin
    rcases h j key m hm with ⟨-, rfl⟩ | ⟨-, hm⟩
    · exact absurd (hp.installs_fresh _ _ hin) (Nat.lt_irrefl _)
    · exact hp.not_installed j key m hm key' hin
  installs_fresh := by
    intro o key hin
    rw [hi] at hin
    rw [hn]
    exact Nat.lt_succ_of_lt (hp.installs_fresh o key hin)
  installs_nodup := by
    rw [hi]
    exact hp.installs_nodup

/-- The entry of call `i` is put into the list. -/
theorem PendingHistory.installed {i : Nat} {m : KeyMetadata} (hp : PendingHistory τ s)
    (hm : Pending s i key m) (hi : installs τ' = installs τ ++ [(m.object, key)])
    (hn : s.nextObject ≤ s'.nextObject)
    (h : ∀ j key' m', Pending s' j key' m' → j ≠ i ∧ Pending s j key' m') :
    PendingHistory τ' s' where
  metadata := fun j key' m' hm' => hp.metadata j key' m' (h j key' m' hm').2
  fresh := fun j key' m' hm' => Nat.lt_of_lt_of_le (hp.fresh j key' m' (h j key' m' hm').2) hn
  unique := fun j key' m' l key'' m'' hm' hm'' =>
    hp.unique j key' m' l key'' m'' (h j key' m' hm').2 (h l key'' m'' hm'').2
  not_installed := by
    intro j key' m' hm' key'' hin
    obtain ⟨hne, hm'⟩ := h j key' m' hm'
    rw [hi, List.mem_append, List.mem_singleton] at hin
    rcases hin with hin | he
    · exact hp.not_installed j key' m' hm' key'' hin
    · exact hne (hp.unique j key' m' i key m hm' hm (Prod.mk.inj he).1)
  installs_fresh := by
    intro o key' hin
    rw [hi, List.mem_append, List.mem_singleton] at hin
    refine Nat.lt_of_lt_of_le ?_ hn
    rcases hin with hin | he
    · exact hp.installs_fresh o key' hin
    · cases he
      exact hp.fresh i key m hm
  installs_nodup := by
    rw [hi, List.map_append, List.nodup_append]
    refine ⟨hp.installs_nodup, List.nodup_singleton _, ?_⟩
    intro o ho o' ho'
    obtain ⟨⟨_, key'⟩, hin, rfl⟩ := List.mem_map.mp ho
    rw [List.mem_singleton.mp ho']
    rintro rfl
    exact hp.not_installed i key m hm key' hin

theorem PendingHistory.step (hp : PendingHistory τ s) (h : step action s = some s') :
    PendingHistory (τ ++ [⟨s, action, s'⟩]) s' := by
  rcases installs_cases h with hi | ⟨i, key, m, hm, hi, hothers⟩
  · cases step_pending h with
    | kept hn hk => exact hp.kept hi hn hk
    | allocated i hn hk => exact hp.allocated hi hn hk
  · exact hp.installed hm hi (nextObject_le h) hothers

/-- What holds of the list after a step that puts nothing into it. -/
theorem Store.of_logs (hst : Store τ s) (hp : PendingHistory τ' s') (hi : installs τ' = installs τ)
    (ha : accepts τ' = accepts τ) (hd : draws τ' = draws τ)
    (hk : s'.device.keys.Sublist s.device.keys) : Store τ' s' where
  toPendingHistory := hp
  accepts_installs := by
    rw [ha, hi]
    exact hst.accepts_installs
  draws_installs := by
    rw [hd, hi]
    exact hst.draws_installs
  keys_nodup := hst.keys_nodup.sublist (hk.map _)
  identities := hst.identities.sublist (hk.map _)
  history := by
    intro k hmem
    obtain ⟨key, h⟩ := hst.history k (hk.subset hmem)
    exact ⟨key, h.of_logs (by rw [hi]; exact h.installed) (by rw [ha]) (by rw [hd])⟩
  numbers := by
    intro o key hin
    rw [hi] at hin
    exact (hst.numbers o key hin).of_logs (by rw [ha]) (by rw [hd])

/-- No packet has been accepted or sent with a pending entry. -/
theorem Store.no_events {i : Nat} {m : KeyMetadata} (hst : Store τ s) (hm : Pending s i key m) :
    Log.of (accepts τ) m.object = [] ∧ Log.of (draws τ) m.object = [] := by
  refine ⟨Log.of_eq_nil ?_, Log.of_eq_nil ?_⟩
  · intro n hin
    obtain ⟨key', hkey'⟩ := hst.accepts_installs _ n hin
    exact hst.not_installed i key m hm key' hkey'
  · intro n hin
    obtain ⟨key', hkey'⟩ := hst.draws_installs _ n hin
    exact hst.not_installed i key m hm key' hkey'

/-- The history of an entry that is new in the list. -/
theorem Store.new {i : Nat} {m : KeyMetadata} (hst : Store τ s) (hm : Pending s i key m)
    (hi : installs τ' = installs τ ++ [(m.object, key)]) (ha : accepts τ' = accepts τ)
    (hd : draws τ' = draws τ) : EntryHistory τ' (key.metadata m.object) key := by
  obtain ⟨hno_accept, hno_draw⟩ := hst.no_events hm
  refine .of_new ?_ (by rw [ha]; exact hno_accept) (by rw [hd]; exact hno_draw)
  rw [hi]
  exact List.mem_append_right _ List.mem_cons_self

/-- The entry of call `i` becomes the first of the list. -/
theorem Store.install {i : Nat} {m : KeyMetadata} (hst : Store τ s) (hp : PendingHistory τ' s')
    (hm : Pending s i key m) (hi : installs τ' = installs τ ++ [(m.object, key)])
    (ha : accepts τ' = accepts τ) (hd : draws τ' = draws τ)
    (hk : s'.device.keys = U80211.setKeyList s.device.keys m) : Store τ' s' where
  toPendingHistory := hp
  accepts_installs := by
    intro o n hin
    rw [ha] at hin
    obtain ⟨key', hkey'⟩ := hst.accepts_installs o n hin
    exact ⟨key', by rw [hi]; exact List.mem_append_left _ hkey'⟩
  draws_installs := by
    intro o n hin
    rw [hd] at hin
    obtain ⟨key', hkey'⟩ := hst.draws_installs o n hin
    exact ⟨key', by rw [hi]; exact List.mem_append_left _ hkey'⟩
  keys_nodup := by
    rw [hk, U80211.setKeyList, List.map_cons, List.nodup_cons]
    refine ⟨?_, hst.keys_nodup.sublist (List.eraseP_sublist.map _)⟩
    intro hin
    obtain ⟨k, hmem, ho⟩ := List.mem_map.mp hin
    obtain ⟨key', h⟩ := hst.history k (List.mem_of_mem_eraseP hmem)
    exact hst.not_installed i key m hm key' (ho ▸ h.installed)
  identities := by
    rw [hk, U80211.setKeyList, List.map_cons, List.nodup_cons]
    refine ⟨?_, hst.identities.sublist (List.eraseP_sublist.map _)⟩
    intro hin
    obtain ⟨k, hmem, hid⟩ := List.mem_map.mp hin
    exact identity_of_mem_delKeyList hst.identities hmem hid
  history := by
    intro k hmem
    rw [hk, U80211.setKeyList, List.mem_cons] at hmem
    rcases hmem with rfl | hmem
    · refine ⟨key, ?_⟩
      rw [hst.metadata i key k hm]
      exact hst.new hm hi ha hd
    · obtain ⟨key', h⟩ := hst.history k (List.mem_of_mem_eraseP hmem)
      have hin : (k.object, key') ∈ installs τ' := by
        rw [hi]
        exact List.mem_append_left _ h.installed
      exact ⟨key', h.of_logs hin (by rw [ha]) (by rw [hd])⟩
  numbers := by
    intro o key' hin
    rw [hi, List.mem_append, List.mem_singleton] at hin
    rcases hin with hin | he
    · exact (hst.numbers o key' hin).of_logs (by rw [ha]) (by rw [hd])
    · cases he
      exact (hst.new hm hi ha hd).numbers

/-- An entry of the list is exchanged for one with the same address. -/
theorem Store.exchange {k' : KeyMetadata} (hst : Store τ s) (hp : PendingHistory τ' s')
    (hi : installs τ' = installs τ)
    (ha : ∀ e ∈ accepts τ', e ∈ accepts τ ∨ e.1 = k.object)
    (hd : ∀ e ∈ draws τ', e ∈ draws τ ∨ e.1 = k.object)
    (hother : ∀ o, o ≠ k.object → Log.of (accepts τ') o = Log.of (accepts τ) o ∧
      Log.of (draws τ') o = Log.of (draws τ) o)
    (hk : Exchanged s.device.keys s'.device.keys k k') (ho : k'.object = k.object)
    (hid : k'.identity = k.identity)
    (hself : ∀ key, EntryHistory τ k key → EntryHistory τ' k' key) : Store τ' s' := by
  obtain ⟨key₀, hhistory⟩ := hst.history k hk.mem
  refine ⟨hp, ?_, ?_, ?_, ?_, ?_, ?_⟩
  · intro o n hin
    rw [hi]
    rcases ha _ hin with hin | he
    · exact hst.accepts_installs o n hin
    · refine ⟨key₀, ?_⟩
      rw [show o = k.object from he]
      exact hhistory.installed
  · intro o n hin
    rw [hi]
    rcases hd _ hin with hin | he
    · exact hst.draws_installs o n hin
    · refine ⟨key₀, ?_⟩
      rw [show o = k.object from he]
      exact hhistory.installed
  · rw [hk.map_eq ho]
    exact hst.keys_nodup
  · rw [hk.map_eq hid]
    exact hst.identities
  · intro m hm
    rcases hk.mem_after hst.keys_nodup hm with rfl | ⟨hm, hne⟩
    · exact ⟨key₀, hself key₀ hhistory⟩
    · obtain ⟨key, h⟩ := hst.history m hm
      obtain ⟨ha', hd'⟩ := hother _ hne
      exact ⟨key, h.of_logs (by rw [hi]; exact h.installed) ha' hd'⟩
  · intro o key hin
    rw [hi] at hin
    by_cases hne : o = k.object
    · have he := List.inj_on_of_nodup_map hst.installs_nodup hin hhistory.installed hne
      cases he
      rw [← ho]
      exact (hself _ hhistory).numbers
    · obtain ⟨ha', hd'⟩ := hother o hne
      exact (hst.numbers o key hin).of_logs ha' hd'

/-- Every step keeps the histories of the entries. -/
theorem Store.step (hst : Store τ s) (h : step action s = some s') :
    Store (τ ++ [⟨s, action, s'⟩]) s' := by
  have hp := hst.toPendingHistory.step h
  cases step_effect h with
  | quiet hk hi ha hd =>
    refine hst.of_logs hp (installs_concat_none hi) (accepts_concat_none ha)
      (draws_concat_none hd) ?_
    rw [show s'.device.keys = s.device.keys from hk]
  | install i key m hc hs hk hi ha hd =>
    exact hst.install hp ⟨_, hc, rfl⟩ (installs_concat_some hi) (accepts_concat_none ha)
      (draws_concat_none hd) hk
  | remove index peer flags hk hi ha hd =>
    refine hst.of_logs hp (installs_concat_none hi) (accepts_concat_none ha)
      (draws_concat_none hd) ?_
    have hk : s'.device.keys = s.device.keys.eraseP (keyIdentityEqual index peer flags) := hk
    rw [hk]
    exact List.eraseP_sublist
  | accept k sequence hnewer hk hi ha hd =>
    refine hst.exchange hp (installs_concat_none hi) ?_ ?_ ?_ hk rfl rfl ?_
    · intro e he
      rw [accepts_concat_some ha, List.mem_append, List.mem_singleton] at he
      exact he.imp_right fun he => by rw [he]
    · intro e he
      rw [draws_concat_none hd] at he
      exact Or.inl he
    · intro o hne
      rw [accepts_concat_some ha, draws_concat_none hd]
      exact ⟨Log.of_concat_ne hne.symm _ _, rfl⟩
    · intro key hhistory
      exact hhistory.accept hnewer (installs_concat_none hi) (accepts_concat_some ha)
        (draws_concat_none hd)
  | draw i k sequence hnext hk hi ha hd =>
    refine hst.exchange hp (installs_concat_none hi) ?_ ?_ ?_ hk rfl rfl ?_
    · intro e he
      rw [accepts_concat_none ha] at he
      exact Or.inl he
    · intro e he
      rw [draws_concat_some hd, List.mem_append, List.mem_singleton] at he
      exact he.imp_right fun he => by rw [he]
    · intro o hne
      rw [draws_concat_some hd, accepts_concat_none ha]
      exact ⟨rfl, Log.of_concat_ne hne.symm _ _⟩
    · intro key hhistory
      exact hhistory.draw hnext (installs_concat_none hi) (accepts_concat_none ha)
        (draws_concat_some hd)

variable {own : MacAddress} {hasSetKey hasDelKey : Bool}

/-- **The history of every entry, after every run.** -/
theorem Run.store (h : Run own hasSetKey hasDelKey τ s) : Store τ s := by
  refine Lts.Run.history (P := Store) ?_ (fun _ _ _ _ _ hst hs => hst.step hs) h
  have hpending : ∀ i key m, ¬ Pending (.registered own hasSetKey hasDelKey) i key m := by
    rintro i key m ⟨c, hc, -⟩
    cases hc
  refine ⟨⟨?_, ?_, ?_, ?_, ?_, List.nodup_nil⟩, ?_, ?_, List.nodup_nil, List.nodup_nil, ?_, ?_⟩
  · exact fun i key m hm => absurd hm (hpending i key m)
  · exact fun i key m hm => absurd hm (hpending i key m)
  · exact fun i key m _ _ _ hm => absurd hm (hpending i key m)
  · exact fun i key m hm => absurd hm (hpending i key m)
  · exact fun _ _ hin => absurd hin List.not_mem_nil
  · exact fun _ _ hin => absurd hin List.not_mem_nil
  · exact fun _ _ hin => absurd hin List.not_mem_nil
  · exact fun _ hin => absurd hin List.not_mem_nil
  · exact fun _ _ hin => absurd hin List.not_mem_nil

end Store

end KeyStore

end U80211
