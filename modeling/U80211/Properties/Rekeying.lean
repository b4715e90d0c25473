import U80211.Properties.PacketNumbers

/-!
# New keys

* `numbers_under_matching_keys`: under which condition the hardware never uses a packet number
  twice with a key
* `number_used_twice`: it does when a key is replaced while a frame is being transmitted
* `reinstalled_numbers`: what the packet numbers are when a key is installed once more
* `reinstallation_rewinds`: they start again
-/

namespace U80211

namespace KeyStore

open Memory Decoder

variable {τ : List Transition} {s s' : State} {action : Action} {own : MacAddress}
  {hasSetKey hasDelKey : Bool}

/-! ## Draws and entries -/

theorem draws_eq_map (τ : List Transition) :
    draws τ = (callDraws τ).map fun d => (d.2.entry.object, d.2.number) := by
  rw [draws, callDraws, List.map_filterMap]
  rfl

/-- No packet number is drawn twice from an entry. -/
theorem Run.draws_nodup (h : Run own hasSetKey hasDelKey τ s) : (draws τ).Nodup := by
  refine Log.nodup_of_forall_of ?_
  intro o
  by_cases hin : ∃ n, (o, n) ∈ draws τ
  · obtain ⟨n, hin⟩ := hin
    obtain ⟨key, hkey⟩ := h.store.draws_installs o n hin
    obtain ⟨m, -, hm⟩ := (h.store.numbers o key hkey).drawn
    rw [hm]
    exact List.nodup_range'
  · rw [Log.of_eq_nil fun n hn => hin ⟨n, hn⟩]
    exact List.nodup_nil

/-- The entry of a draw has the bytes that it has been installed with. -/
theorem Run.draw_origin (h : Run own hasSetKey hasDelKey τ s) :
    ∀ e ∈ callDraws τ, ∃ key, (e.2.entry.object, key) ∈ installs τ ∧ e.2.entry.key = key.bytes := by
  refine Lts.Run.forall_event (P := fun τ _ (e : Nat × Draw) => ∃ key,
    (e.2.entry.object, key) ∈ installs τ ∧ e.2.entry.key = key.bytes) ?_ ?_ h
  · intro τ s action s' e hr hs hdrawn
    cases step_effect hs with
    | draw i k sequence _ hk _ _ hd =>
      cases hd.symm.trans hdrawn
      obtain ⟨key, hhistory⟩ := (Run.store hr).history k hk.mem
      rw [installs, List.filterMap_append]
      refine ⟨key, List.mem_append_left _ hhistory.installed, ?_⟩
      rw [hhistory.origin]
      rfl
    | quiet _ _ _ hd => cases hd.symm.trans hdrawn
    | install _ _ _ _ _ _ _ _ hd => cases hd.symm.trans hdrawn
    | remove _ _ _ _ _ _ hd => cases hd.symm.trans hdrawn
    | accept _ _ _ _ _ _ hd => cases hd.symm.trans hdrawn
  · rintro τ s action s' e - - ⟨key, hkey, hbytes⟩
    rw [installs, List.filterMap_append]
    exact ⟨key, List.mem_append_left _ hkey, hbytes⟩

/-- A call that is over stays so. -/
theorem consumed_step (hs : step action s = some s') {i : Nat} {r : TransmitResult}
    (hc : s.calls[i]? = some (.consumed r)) : s'.calls[i]? = some (.consumed r) := by
  have hlt : i < s.calls.length := (List.getElem?_eq_some_iff.mp hc).1
  cases action with
  | invoke entry =>
    cases hs
    show (s.calls ++ [entry.start])[i]? = _
    rw [List.getElem?_append_left hlt, hc]
  | advance j outcome =>
    rw [step] at hs
    split at hs
    · cases hs
    · next c hcj =>
      have hne : j ≠ i := by
        rintro rfl
        cases hc.symm.trans hcj
        cases hs
      have hset : ∃ c', s'.calls = s.calls.set j c' := by
        cases stepCall_calls hs with
        | none c' hcalls => exact ⟨c', hcalls⟩
        | kept c' hcalls => exact ⟨c', hcalls⟩
        | allocated c' _ hcalls => exact ⟨c', hcalls⟩
      obtain ⟨c', hcalls⟩ := hset
      rw [hcalls, List.getElem?_set_ne hne, hc]
  | associate association =>
    cases hs
    exact hc

/-! ## The hardware -/

section Hardware

/- The key that the driver encrypts a frame with, of those that it has installed: it is given
`options->key` and the frame. -/
variable (choose : List HardwareKey → UInt8 → List UInt8 → Option HardwareKey)

/-- The key that the hardware encrypts a frame with when it is handed over. -/
def hardwareKey (t : Transition) : Option HardwareKey := do
  let (_, d, options) ← handedOver t
  let key ← options.key
  choose t.before.hardware key d.content

/-- The bytes of the key that a frame is encrypted with, and its packet number. -/
def encrypted (t : Transition) : Option (List UInt8 × Nat) := do
  let hardware ← hardwareKey choose t
  let (_, d, options) ← handedOver t
  some (hardware.bytes, readableNumber d options)

def encryptions (τ : List Transition) : List (List UInt8 × Nat) := τ.filterMap (encrypted choose)

/-- The entry that the packet number of a frame has been drawn from. -/
def drawnEntry (t : Transition) : Option KeyMetadata :=
  match t.action with
  | .advance i _ =>
    match t.before.calls[i]? with
    | some (.transmitFrame _ _ _ draw) => draw.map (·.entry)
    | _ => none
  | _ => none

/-- The hardware encrypts the frame, if there is one, with the key that its number has been drawn
for. -/
def KeysMatch (t : Transition) : Prop :=
  ∀ hardware ∈ hardwareKey choose t, ∀ k ∈ drawnEntry t, hardware.bytes = k.key

instance (t : Transition) : Decidable (KeysMatch choose t) :=
  inferInstanceAs (Decidable (∀ hardware ∈ hardwareKey choose t, ∀ k ∈ drawnEntry t,
    hardware.bytes = k.key))

variable {choose}

/-- A frame that is encrypted carries the number of a draw of its call, whose entry has the bytes
of the key. -/
theorem encrypted_eq_some (h : Run own hasSetKey hasDelKey τ s) (hs : step action s = some s')
    (hmatch : KeysMatch choose ⟨s, action, s'⟩) {bytes : List UInt8} {n : Nat}
    (he : encrypted choose ⟨s, action, s'⟩ = some (bytes, n)) :
    ∃ i e r, (∀ r', s.calls[i]? ≠ some (.consumed r')) ∧ s'.calls[i]? = some (.consumed r) ∧
      (i, e) ∈ callDraws τ ∧ e.entry.key = bytes ∧ e.number = n := by
  simp only [encrypted, Option.bind_eq_bind, Option.bind_eq_some_iff] at he
  obtain ⟨hardware, hhardware, ⟨i, d, options⟩, hover, he⟩ := he
  cases he
  have hkey : options.key ≠ none := by
    intro hnone
    simp [hardwareKey, hover, hnone] at hhardware
  obtain ⟨outcome, header, d₀, options₀, draw, haction, hc, hnext⟩ := handedOver_eq_some hover
  dsimp only at haction hc hnext
  subst haction
  rw [step, hc] at hs
  obtain ⟨rfl, hnumber⟩ := stepCall_of_transmitted (h.positions.sound _ _ hc) hs
    (List.getElem?_eq_some_iff.mp hc).1 hnext
  obtain ⟨e, hdraw, hlog, hread⟩ := hnumber hkey
  refine ⟨i, e, _, ?_, hnext, ?_, ?_, hread.symm⟩
  · intro r' hr'
    cases hc.symm.trans hr'
  · rw [← Log.mem_of_iff, hlog]
    exact List.mem_cons_self
  · refine (hmatch hardware hhardware e.entry ?_).symm
    simp [drawnEntry, hc, hdraw]

/-- Draws of the same number under the same bytes are the same draw of the same call. -/
theorem draw_unique (h : Run own hasSetKey hasDelKey τ s)
    (hfresh : ((installs τ).map fun e => e.2.bytes).Nodup) {i j : Nat} {e e' : Draw}
    (hi : (i, e) ∈ callDraws τ) (hj : (j, e') ∈ callDraws τ) (hk : e.entry.key = e'.entry.key)
    (hn : e.number = e'.number) : i = j := by
  obtain ⟨key, hkey, hbytes⟩ := h.draw_origin _ hi
  obtain ⟨key', hkey', hbytes'⟩ := h.draw_origin _ hj
  have hsame : key.bytes = key'.bytes := by rw [← hbytes, hk, hbytes']
  have hentry := List.inj_on_of_nodup_map hfresh hkey hkey' hsame
  have hdraws := h.draws_nodup
  rw [draws_eq_map] at hdraws
  have hdraw := List.inj_on_of_nodup_map hdraws hi hj
    (by dsimp only; rw [(Prod.mk.inj hentry).1, hn])
  exact (Prod.mk.inj hdraw).1

/-- What has been encrypted carries the number of a draw of a call that is over. -/
theorem Run.encrypted_draw (h : Run own hasSetKey hasDelKey τ s)
    (hmatch : ∀ t ∈ τ, KeysMatch choose t) : ∀ p ∈ encryptions choose τ, ∃ i e r,
      s.calls[i]? = some (.consumed r) ∧ (i, e) ∈ callDraws τ ∧ e.entry.key = p.1 ∧
        e.number = p.2 := by
  intro p hp
  refine Lts.Run.forall_event (P := fun τ s (p : List UInt8 × Nat) =>
    (∀ t ∈ τ, KeysMatch choose t) → ∃ i e r, s.calls[i]? = some (.consumed r) ∧
      (i, e) ∈ callDraws τ ∧ e.entry.key = p.1 ∧ e.number = p.2) ?_ ?_ h p hp hmatch
  · rintro τ s action s' ⟨bytes, n⟩ hr hs he hmatch
    obtain ⟨i, e, r, -, hafter, hdraw, hbytes, hn⟩ :=
      encrypted_eq_some hr hs (hmatch _ (List.mem_append_right _ List.mem_cons_self)) he
    rw [callDraws_concat]
    exact ⟨i, e, r, hafter, List.mem_append_left _ hdraw, hbytes, hn⟩
  · intro τ s action s' p _ hs ih hmatch
    obtain ⟨i, e, r, hc, hdraw, hbytes, hn⟩ :=
      ih fun t ht => hmatch t (List.mem_append_left _ ht)
    rw [callDraws_concat]
    exact ⟨i, e, r, consumed_step hs hc, List.mem_append_left _ hdraw, hbytes, hn⟩

/-- **The hardware uses no packet number twice with a key** when it encrypts every frame with the
key that the number of the frame has been drawn for, and no two entries with the same bytes are
installed. -/
theorem numbers_under_matching_keys (h : Run own hasSetKey hasDelKey τ s)
    (hfresh : ((installs τ).map fun e => e.2.bytes).Nodup)
    (hmatch : ∀ t ∈ τ, KeysMatch choose t) : (encryptions choose τ).Nodup := by
  refine Lts.Run.nodup_events h ?_
  rintro τ₁ t τ₂ ⟨bytes, n⟩ rfl he hin
  obtain ⟨hr, hs⟩ := h.split rfl
  have hmatch₁ : ∀ t' ∈ τ₁, KeysMatch choose t' :=
    fun t' ht => hmatch t' (List.mem_append_left _ ht)
  have hfresh₁ : ((installs τ₁).map fun e => e.2.bytes).Nodup := by
    rw [installs, List.filterMap_append, List.map_append] at hfresh
    exact (List.nodup_append.mp hfresh).1
  -- the frame would have its number from the same call as the one before
  obtain ⟨i, e, -, hbefore, -, hdraw, hbytes, hn⟩ :=
    encrypted_eq_some hr hs (hmatch t (List.mem_append_right _ List.mem_cons_self)) he
  obtain ⟨j, e', r', hc', hdraw', hbytes', hn'⟩ := Run.encrypted_draw hr hmatch₁ _ hin
  have hij := draw_unique hr hfresh₁ hdraw hdraw' (hbytes.trans hbytes'.symm) (hn.trans hn'.symm)
  exact hbefore r' (hij ▸ hc')

end Hardware

namespace Scenario

open U80211.Scenario

/-- A driver that encrypts with the key that it has installed for the index. -/
def byIndex (hardware : List HardwareKey) (index : UInt8) (_ : List UInt8) : Option HardwareKey :=
  hardware.find? fun h => h.index == index

/-- The bytes that `u80211_set_key` is called with. -/
def broughtBytes (t : Transition) : Option (List UInt8) :=
  match t.action with
  | .invoke (.setKey key) => some key.bytes
  | _ => none

/-- The driver replaces the key between the draw of a number and the hand-over of the frame. -/
def keyReplaced : List Action :=
  .associate associated :: call (.setKey (pairwiseKey 7)) 0 3 ++
    call (.transmitBuffer request) 1 4 ++ call (.setKey (pairwiseKey 8)) 2 2 ++ advance 1 1 ++
    advance 2 1 ++ call (.transmitBuffer request) 3 5

end Scenario

open KeyStore.Scenario in
theorem numbers_under_matching_keys_rekeyed :
    encryptions byIndex (Lts.trace step keysChanged start) =
        [(List.replicate 16 7, 1), (List.replicate 16 8, 1)] ∧
      (encryptions byIndex (Lts.trace step keysChanged start)).Nodup := by
  obtain ⟨s, hs⟩ := Option.isSome_iff_exists.mp
    (show (Lts.exec step keysChanged start).isSome = true by decide +kernel)
  refine ⟨by decide +kernel, numbers_under_matching_keys (Lts.exec_run hs) ?_ ?_⟩
  · decide +kernel
  · decide +kernel

open U80211.Scenario KeyStore.Scenario in
/-- **A new key is used with a number that has been drawn for the old one**, and with the same
number again once it has been drawn for the new one. -/
theorem number_used_twice :
    (∃ s, Run (mac 1) true true (Lts.trace step keyReplaced start) s) ∧
      ((Lts.trace step keyReplaced start).filterMap broughtBytes).Nodup ∧
      ¬ (encryptions byIndex (Lts.trace step keyReplaced start)).Nodup := by
  obtain ⟨s, hs⟩ := Option.isSome_iff_exists.mp
    (show (Lts.exec step keyReplaced start).isSome = true by decide +kernel)
  exact ⟨⟨s, Lts.exec_run hs⟩, by decide +kernel, by decide +kernel⟩

/-! ## Installing a key once more -/

section Reinstall

variable {τ₁ τ₂ : List Transition} {t : Transition} {o : Nat} {key : Key} {k₀ : KeyMetadata}

/-- What the transition that puts an entry into the list does. -/
theorem installed_eq_some (hs : step t.action t.before = some t.after)
    (hi : installed t = some (o, key)) :
    (∃ i m, Pending t.before i key m ∧ m.object = o ∧
      t.after.device.keys = setKeyList t.before.device.keys m) ∧
      accepted t = none ∧ drawnBy t = none := by
  cases step_effect hs with
  | install i key' m hc _ hk hi' ha hd =>
    cases hi.symm.trans hi'
    exact ⟨⟨i, m, ⟨_, hc, rfl⟩, rfl, hk⟩, ha, hd⟩
  | quiet _ hi' => cases hi.symm.trans hi'
  | remove _ _ _ _ hi' => cases hi.symm.trans hi'
  | accept _ _ _ _ hi' => cases hi.symm.trans hi'
  | draw _ _ _ _ _ hi' => cases hi.symm.trans hi'

/-- The events of an entry are those after it has been put into the list. -/
theorem events_of_installed (h : Run own hasSetKey hasDelKey (τ₁ ++ t :: τ₂) s)
    (hi : installed t = some (o, key)) :
    Log.of (accepts (τ₁ ++ t :: τ₂)) o = Log.of (accepts τ₂) o ∧
      Log.of (draws (τ₁ ++ t :: τ₂)) o = Log.of (draws τ₂) o := by
  obtain ⟨hbefore, hstep⟩ := h.split rfl
  obtain ⟨⟨i, m, hpending, rfl, -⟩, ha, hd⟩ := installed_eq_some hstep hi
  obtain ⟨hno_accept, hno_draw⟩ := (Run.store hbefore).no_events hpending
  have hd' : drawn t = none := by rw [drawn, hd]; rfl
  rw [accepts, draws, List.filterMap_append, List.filterMap_append, List.filterMap_cons_none ha,
    List.filterMap_cons_none hd', Log.of_append, Log.of_append]
  constructor
  · rw [show Log.of (τ₁.filterMap accepted) m.object = [] from hno_accept]
    rfl
  · rw [show Log.of (τ₁.filterMap drawn) m.object = [] from hno_draw]
    rfl

/-- **The counters of a key that is installed once more start again.** The entry of the identity is
replaced by a new one, whose numbers for transmission are 1, 2, 3 and so on, and whose numbers for
reception increase from the given one on. -/
theorem reinstalled_numbers (h : Run own hasSetKey hasDelKey (τ₁ ++ t :: τ₂) s)
    (hi : installed t = some (o, key)) (hk₀ : k₀ ∈ t.before.device.keys)
    (hid : keyIdentityEqual key.index key.peer key.flags k₀ = true) :
    key.metadata o ∈ t.after.device.keys ∧
      k₀.object ∉ t.after.device.keys.map KeyMetadata.object ∧
      (∃ n, Log.of (draws τ₂) o = List.range' 1 n) ∧
      (leValue key.rxSequence.toList :: Log.of (accepts τ₂) o).Pairwise (· < ·) ∧
      (leValue k₀.rxSequence.toList ≤ leValue key.rxSequence.toList →
        ∀ m ∈ Log.of (accepts τ₁) k₀.object, ∀ n ∈ Log.of (accepts τ₂) o, m < n) := by
  obtain ⟨hbefore, hstep⟩ := h.split rfl
  obtain ⟨haccepts, hdraws⟩ := events_of_installed h hi
  obtain ⟨⟨i, m, hpending, rfl, hkeys⟩, -, -⟩ := installed_eq_some hstep hi
  have hstore := Run.store hbefore
  have hm := hstore.metadata i key m hpending
  obtain ⟨key₀, hhistory⟩ := hstore.history k₀ hk₀
  have hin : (m.object, key) ∈ installs (τ₁ ++ t :: τ₂) := by
    rw [installs, List.filterMap_append, List.filterMap_cons_some hi]
    exact List.mem_append_right _ List.mem_cons_self
  obtain ⟨haccepted, n, -, hdrawn⟩ := (Run.store h).numbers _ _ hin
  rw [haccepts] at haccepted
  rw [hdraws] at hdrawn
  refine ⟨?_, ?_, ⟨n, hdrawn⟩, haccepted, ?_⟩
  · rw [hkeys, ← hm]
    exact List.mem_cons_self
  · rw [hkeys, U80211.setKeyList, List.map_cons, List.mem_cons]
    rintro (ho | ho)
    · exact hstore.not_installed i key m hpending key₀ (ho ▸ hhistory.installed)
    · obtain ⟨k, hk, ho⟩ := List.mem_map.mp ho
      -- an entry at the same address would be the one with the identity
      have hsame := List.inj_on_of_nodup_map hstore.keys_nodup (List.mem_of_mem_eraseP hk) hk₀ ho
      subst hsame
      rw [hm] at hk
      exact identity_of_mem_delKeyList hstore.identities hk (keyIdentityEqual_iff.mp hid)
  · intro hle a ha b hb
    have hlast := Log.le_getLastD hhistory.accepted a (List.mem_cons_of_mem _ ha)
    rw [← hhistory.last] at hlast
    have hlt := (List.pairwise_cons.mp haccepted).1 b hb
    omega

end Reinstall

namespace Scenario

open U80211.Scenario

/-- A frame is sent and a packet received, and the same key is about to be installed again. -/
def beforeReinstalled : List Action :=
  .associate associated :: call (.setKey (pairwiseKey 7)) 0 3 ++
    call (.transmitBuffer request) 1 5 ++ call (.processPacket (ccmpPacket 1)) 2 3 ++
    .invoke (.setKey (pairwiseKey 7)) :: advance 3 2

/-- Another frame is sent, and the same packet received. -/
def afterReinstalled : List Action :=
  call (.transmitBuffer request) 4 5 ++ call (.processPacket (ccmpPacket 1)) 5 3

/-- The key is put into the list once more. -/
def reinstallation : Transition :=
  let before := (Lts.exec step beforeReinstalled start).getD start
  { before
    action := .advance 3 { }
    after := (step (.advance 3 { }) before).getD start }

/-- The events before the key is put into the list once more. -/
def trace₁ : List Transition := Lts.trace step beforeReinstalled start

/-- The events after it. -/
def trace₂ : List Transition := Lts.trace step afterReinstalled reinstallation.after

theorem run_reinstalled :
    ∃ s, Run (mac 1) true true (trace₁ ++ reinstallation :: trace₂) s := by
  obtain ⟨s₁, h₁⟩ := Option.isSome_iff_exists.mp
    (show (Lts.exec step beforeReinstalled start).isSome = true by decide +kernel)
  obtain ⟨s₂, h₂⟩ := Option.isSome_iff_exists.mp
    (show (step (.advance 3 { }) reinstallation.before).isSome = true by decide +kernel)
  obtain ⟨s₃, h₃⟩ := Option.isSome_iff_exists.mp
    (show (Lts.exec step afterReinstalled reinstallation.after).isSome = true by decide +kernel)
  have hbefore : reinstallation.before = s₁ := by
    rw [reinstallation, h₁]
    rfl
  have hafter : reinstallation.after = s₂ := by
    rw [reinstallation]
    dsimp only
    rw [show (Lts.exec step beforeReinstalled start).getD start = reinstallation.before from rfl,
      h₂]
    rfl
  have hstep : step reinstallation.action reinstallation.before = some reinstallation.after := by
    rw [hafter]
    exact h₂
  have hrun : Run (mac 1) true true trace₁ reinstallation.before := by
    rw [hbefore]
    exact Lts.exec_run h₁
  refine ⟨s₃, ?_⟩
  rw [List.append_cons]
  exact (hrun.snoc hstep).exec h₃

end Scenario

open KeyStore.Scenario in
/-- **The same packet number is sent twice, and the same packet is accepted twice**, under the same
key bytes: the key has been installed again in between. -/
theorem reinstallation_rewinds :
    (∃ s, Run (U80211.Scenario.mac 1) true true (trace₁ ++ reinstallation :: trace₂) s) ∧
      installed reinstallation = some (1, pairwiseKey 7) ∧
      ∃ k₀ ∈ reinstallation.before.device.keys,
        keyIdentityEqual 0 (U80211.Scenario.mac 2) (pairwiseKey 7).flags k₀ = true ∧
        k₀.cipher = .ccmp ∧ k₀.key = (pairwiseKey 7).bytes ∧
        ¬ (∀ m ∈ Log.of (draws trace₁) k₀.object, ∀ n ∈ Log.of (draws trace₂) 1, m < n) ∧
        ¬ (∀ m ∈ Log.of (accepts trace₁) k₀.object, ∀ n ∈ Log.of (accepts trace₂) 1, m < n) := by
  refine ⟨run_reinstalled, rfl, ?_⟩
  decide +kernel

open KeyStore.Scenario in
theorem reinstalled_numbers_once :
    Log.of (draws trace₁) 0 = [1] ∧ Log.of (accepts trace₁) 0 = [1] ∧
      ∃ n, Log.of (draws trace₂) 1 = List.range' 1 n := by
  obtain ⟨s, hs⟩ := run_reinstalled
  obtain ⟨k₀, hk₀, hid⟩ : ∃ k₀ ∈ reinstallation.before.device.keys,
      keyIdentityEqual 0 (U80211.Scenario.mac 2) (pairwiseKey 7).flags k₀ = true := by
    decide +kernel
  obtain ⟨-, -, hnumbers, -, -⟩ :=
    @reinstalled_numbers _ _ _ _ _ _ _ 1 (pairwiseKey 7) _ hs rfl hk₀ hid
  exact ⟨by decide +kernel, by decide +kernel, hnumbers⟩

end KeyStore

end U80211
