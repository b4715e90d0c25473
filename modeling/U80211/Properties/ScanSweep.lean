import U80211.Properties.ScanRecords
import U80211.Properties.Tuning

/-!
# The sweep of a scan over the channels

`u80211_scan` begins with the first permitted channel, and `scan_work` goes from each one to the
next. On every channel the radio is tuned, `u80211_send_probe_request` is called, and the timer
expires.

* `nextChannel_eq`: `next_channel` finds the first permitted channel above the current one
* `Effect.sweeps`: where a scan stands tells what it has done so far
* `scan_sweeps_channels`: a scan visits the permitted channels in their order, each one once, and
  all of them before it is cleaned up
-/

namespace U80211

open WorkQueue

/-! ## The permitted channels -/

/-- `next_channel` stops at the channel. -/
def permitted (channel : Nat) : Bool :=
  match getChannelRules channel with
  | none => false
  | some rules => rules.flags &&& (channelRulesDisabled ||| channelRulesPassive) = 0

/-- The channels that a scan may listen on, in the order of their numbers. -/
def permittedChannels : List Nat := (List.range' 1 channelCount).filter permitted

/-- The permitted channels below a channel. -/
def permittedBelow (channel : Nat) : List Nat := (List.range' 1 (channel - 1)).filter permitted

theorem exists_getChannelRules {c : Nat} (h0 : 0 < c) (hc : c ≤ channelCount) :
    ∃ rules, getChannelRules c = some rules := by
  have hlt : c - 1 < channels.length := by
    have hlength : channels.length = channelCount := rfl
    omega
  refine ⟨channels[c - 1], ?_⟩
  rw [getChannelRules, if_neg (by omega), if_neg (by omega), List.getElem?_eq_getElem hlt]

theorem nextChannelLoop_eq {n c : Nat} (h0 : 0 < c) (hc : c + n ≤ channelCount + 1) :
    nextChannelLoop n c = some ((List.range' c n).find? permitted) := by
  induction n generalizing c with
  | zero => rfl
  | succ n ih =>
    obtain ⟨rules, hrules⟩ := exists_getChannelRules h0 (by omega)
    have hpermitted : permitted c = decide
        (rules.flags &&& (channelRulesDisabled ||| channelRulesPassive) = 0) := by
      rw [permitted, hrules]
    rw [nextChannelLoop, hrules, List.range'_succ, List.find?_cons, hpermitted, Option.bind_eq_bind,
      Option.bind_some]
    by_cases hflags : rules.flags &&& (channelRulesDisabled ||| channelRulesPassive) = 0
    · rw [if_neg (not_not.mpr hflags), decide_eq_true hflags]
    · rw [if_pos hflags, decide_eq_false hflags, ih (by omega) (by omega)]

/-- **`next_channel` finds the first permitted channel above the current one.** -/
theorem nextChannel_eq {c : Nat} (hc : c ≤ channelCount) :
    nextChannel c = some ((List.range' (c + 1) (channelCount - c)).find? permitted) := by
  have hcount : c + 1 + (channelCount - c) ≤ channelCount + 1 := by omega
  exact nextChannelLoop_eq (Nat.succ_pos c) hcount

theorem mem_permittedChannels {c : Nat} :
    c ∈ permittedChannels ↔ (0 < c ∧ c ≤ channelCount) ∧ permitted c = true := by
  rw [permittedChannels, List.mem_filter, List.mem_range'_1]
  refine and_congr_left fun _ => ?_
  omega

/-- The channels up to one that `next_channel` skips none of. -/
theorem permittedBelow_append {c n : Nat} (h0 : 0 < c) :
    permittedBelow (c + n) = permittedBelow c ++ (List.range' c n).filter permitted := by
  have hsplit : List.range' 1 (c + n - 1) = List.range' 1 (c - 1) ++ List.range' c n := by
    rw [show c + n - 1 = c - 1 + n from by omega, ← List.range'_append_1]
    congr 2
    omega
  rw [permittedBelow, hsplit, List.filter_append]
  rfl

/-- From a channel to the next one. -/
theorem permittedBelow_next {c channel : Nat} (hc : c ≤ channelCount)
    (hn : nextChannel c = some (some channel)) :
    channel ∈ permittedChannels ∧ permittedBelow channel =
      permittedBelow (c + 1) := by
  rw [nextChannel_eq hc, Option.some.injEq, List.find?_range'_eq_some] at hn
  obtain ⟨hp, hm, hskipped⟩ := hn
  rw [List.mem_range'_1] at hm
  refine ⟨mem_permittedChannels.mpr ⟨by omega, hp⟩, ?_⟩
  have hnone : (List.range' (c + 1) (channel - (c + 1))).filter permitted = [] := by
    refine List.filter_eq_nil_iff.mpr fun j hj => ?_
    rw [List.mem_range'_1] at hj
    simpa using hskipped j (by omega) (by omega)
  have happend := permittedBelow_append (c := c + 1) (n := channel - (c + 1)) (Nat.succ_pos c)
  rwa [hnone, List.append_nil, show c + 1 + (channel - (c + 1)) = channel from by omega] at happend

theorem permittedBelow_succ {c : Nat} (h0 : 0 < c) (hp : permitted c = true) :
    permittedBelow (c + 1) = permittedBelow c ++ [c] := by
  rw [permittedBelow_append h0, List.range'_one, List.filter_cons_of_pos hp, List.filter_nil]

/-- No permitted channel is left. -/
theorem permittedBelow_last {c : Nat} (hc : c ≤ channelCount) (hn : nextChannel c = some none) :
    permittedBelow (c + 1) = permittedChannels := by
  rw [nextChannel_eq hc, Option.some.injEq, List.find?_range'_eq_none] at hn
  have hnone : (List.range' (c + 1) (channelCount - c)).filter permitted = [] := by
    refine List.filter_eq_nil_iff.mpr fun j hj => ?_
    rw [List.mem_range'_1] at hj
    simpa using hn j (by omega) (by omega)
  have happend := permittedBelow_append (c := c + 1) (n := channelCount - c) (Nat.succ_pos c)
  rw [hnone, List.append_nil, show c + 1 + (channelCount - c) = channelCount + 1 from by omega]
    at happend
  rw [← happend]
  rfl

/-- A permitted channel comes after those below it. -/
theorem permittedBelow_prefix {c : Nat} (hc : c ∈ permittedChannels) :
    permittedBelow c ++ [c] <+: permittedChannels := by
  obtain ⟨⟨h0, hle⟩, hp⟩ := mem_permittedChannels.mp hc
  rw [← permittedBelow_succ h0 hp]
  have happend := permittedBelow_append (c := c + 1) (n := channelCount - c) (Nat.succ_pos c)
  rw [show c + 1 + (channelCount - c) = channelCount + 1 from by omega] at happend
  exact ⟨_, happend.symm⟩

/-! ## Visits -/

/-- What a scan does on a channel. -/
inductive Visit where
  /-- `set_channel` of the driver -/
  | tune (channel : Nat)
  /-- the call of `u80211_send_probe_request`, which sends nothing when its allocation fails -/
  | probe (channel : Nat)
  /-- the timer expires -/
  | expire (channel : Nat)
deriving DecidableEq

/-- What a scan does on one channel, in order. -/
def visit (channel : Nat) : List Visit := [.tune channel, .probe channel, .expire channel]

/-- What a line does on the channel of the scan. -/
def ScanState.visits (o : ScanState) : Listen → Option Visit
  | .setChannel => some (.tune o.currentChannel)
  | .sendProbe => some (.probe o.currentChannel)
  | .receive | .arm => none

/-- The number of visits of the current channel before a line. -/
def Listen.visited : Listen → Nat
  | .setChannel => 0
  | .receive | .sendProbe => 1
  | .arm => 2

/-- The number of visits after it. -/
def Listen.done : Listen → Nat
  | .setChannel | .receive => 1
  | .sendProbe | .arm => 2

def ScanCall.visited : ScanCall → Nat
  | .scanListen _ line => line.visited
  | _ => 0

def ScanPc.visited : ScanPc → Nat
  | .listen line => line.visited
  | _ => 3

/-- What `next_channel` has answered, where `scan_work` is about to act on it. -/
def ScanPc.answer : ScanPc → Option (Option Nat)
  | .setCurrent channel => some (some channel)
  | .complete | .enqueueCleanup => some none
  | _ => none

namespace Machine

/-- What the step does for scan `k`. -/
def visited (k : Nat) (t : Transition) : Option Visit :=
  match t.action with
  | .advance i _ =>
    match t.before.scanCalls[i]? with
    | some (.scanListen k' line) =>
      if k' = k then (t.before.scanStates k).bind (·.visits line) else none
    | _ => none
  | .expire k' => if k' = k then (t.before.scanStates k).map (.expire ·.currentChannel) else none
  | .advanceWork k' _ =>
    if k' = k then
      (t.before.scanStates k).bind fun o =>
        match o.work.work.running with
        | some (.listen line) => o.visits line
        | _ => none
    else none
  | _ => none

/-- What the run does for scan `k`, in order. -/
def sweep (k : Nat) (τ : List Transition) : List Visit := τ.filterMap (visited k)

namespace Owner

/-- The number of visits of the current channel. -/
def visited (o : ScanState) : Owner → Nat
  | .call _ _ c => c.visited
  | .queued _ => if o.work.work.request = .armed then 2 else 3
  | .work _ pc => pc.visited
  | .cleanupQueued _ | .cleanup _ => 3

def answer : Owner → Option (Option Nat)
  | .call _ _ _ | .queued _ => none
  | .work _ pc => pc.answer
  | .cleanupQueued _ | .cleanup _ => some none

/-- The owner is there. -/
def At (m : Machine) : Owner → Prop
  | .call i k c => m.scanCalls[i]? = some c ∧ c.claimed = some k
  | .queued k => ∃ o, m.scanStates k = some o ∧ o.work.work.request ≠ .idle
  | .work k pc => ∃ o, m.scanStates k = some o ∧ o.work.work.running = some pc
  | .cleanupQueued k => m.scanCleanupWork.request ≠ .idle ∧ m.scanCleanupArgument = k
  | .cleanup pc => m.scanCleanupWork.running = some pc

/-- What has been done for a scan, with the place where it is. -/
structure Swept (x : Owner) (o : ScanState) (visits : List Visit) : Prop where
  permitted : o.currentChannel ∈ permittedChannels
  visits : visits = (permittedBelow o.currentChannel).flatMap visit ++
    (visit o.currentChannel).take (x.visited o)
  answer : ∀ next, x.answer = some next → nextChannel o.currentChannel = some next

end Owner

variable {m m' : Machine} {event : Event} {own : MacAddress} {w : Option Owner} {x x' : Owner}
  {w' : Option Owner} {τ : List Transition} {k : Nat} {o o' : ScanState}

theorem sweep_concat (k : Nat) (τ : List Transition) (t : Transition) :
    sweep k (τ ++ [t]) = sweep k τ ++ (visited k t).toList :=
  Lts.filterMap_concat τ t

theorem Fits.at_iff (h : m.Fits w) : x.At m ↔ w = some x := by
  cases x with
  | call i k c =>
    constructor
    · rintro ⟨hc, hk⟩
      exact (h.calls i k c hk).mp hc
    · rintro rfl
      have hk := h.claimed i k c rfl
      exact ⟨(h.calls i k c hk).mpr rfl, hk⟩
  | queued k =>
    constructor
    · rintro ⟨o, ho, hr⟩
      exact h.of_pending ho hr
    · rintro rfl
      obtain ⟨o, ho, hshape⟩ := h.own _ rfl
      exact ⟨o, ho, hshape.request.mpr rfl⟩
  | work k pc =>
    constructor
    · rintro ⟨o, ho, hr⟩
      exact h.of_running ho hr
    · rintro rfl
      obtain ⟨o, ho, hshape⟩ := h.own _ rfl
      exact ⟨o, ho, hshape.running⟩
  | cleanupQueued k =>
    constructor
    · rintro ⟨hr, rfl⟩
      exact h.of_cleanupPending hr
    · rintro rfl
      exact ⟨h.cleanup.request.mpr (Option.some_ne_none _), h.cleanup.argument k rfl⟩
  | cleanup pc =>
    constructor
    · exact h.of_cleaning
    · rintro rfl
      exact h.cleanup.running

/-- What the visits of all scans are after a run. -/
structure Sweeps (τ : List Transition) (m : Machine) : Prop where
  fresh : ∀ k, m.scanStates k = none → sweep k τ = []
  unclaimed : ∀ (i k : Nat) (o : ScanState), m.scanCalls[i]? = some (.scanClaim k) →
    m.scanStates k = some o → (Owner.call i k (.scanPublish k)).Swept o (sweep k τ)
  owner : ∀ (x : Owner) (o : ScanState), x.At m → m.scanStates x.scan = some o →
    x.Swept o (sweep x.scan τ)
  other : ∀ k, (∀ x : Owner, x.At m → x.scan ≠ k) →
    sweep k τ = [] ∨ sweep k τ = permittedChannels.flatMap visit

/-! ## Steps -/

/-- A call moves that does not belong to the owner. -/
theorem claimed_iff_of_set {calls : List ScanCall} {i : Nat} {c c' : ScanCall}
    (hc : calls[i]? = some c) (hold : c.claimed = none) (hnew : c'.claimed = none) (j k : Nat)
    (d : ScanCall) (hd : d.claimed = some k) :
    (calls.set i c')[j]? = some d ↔ calls[j]? = some d := by
  rw [getElem?_set_of hc]
  by_cases hj : j = i
  · subst hj
    rw [if_pos rfl, hc, Option.some.injEq]
    constructor
    · rintro rfl
      rw [hnew] at hd
      cases hd
    · rintro rfl
      rw [hold] at hd
      cases hd
  · rw [if_neg hj]

/-- One scan state changes, but nothing that is asked of its work. -/
theorem work_iff_of_update (ho : m.scanStates k = some o)
    (hstates : m'.scanStates = Function.update m.scanStates k (some o')) {P : Work ScanPc → Prop}
    (hP : P o'.work.work ↔ P o.work.work) (j : Nat) :
    (∃ o, m'.scanStates j = some o ∧ P o.work.work) ↔
      ∃ o, m.scanStates j = some o ∧ P o.work.work := by
  by_cases hj : j = k
  · subst hj
    rw [hstates, Function.update_self, ho]
    simpa using hP
  · rw [hstates, Function.update_of_ne hj]

/-- The owner stays where it is. -/
theorem at_iff_of_same
    (hcalls : ∀ (i k : Nat) (c : ScanCall), c.claimed = some k →
      (m'.scanCalls[i]? = some c ↔ m.scanCalls[i]? = some c))
    (hqueued : ∀ k, (∃ o, m'.scanStates k = some o ∧ o.work.work.request ≠ .idle) ↔
      ∃ o, m.scanStates k = some o ∧ o.work.work.request ≠ .idle)
    (hrunning : ∀ pc k, (∃ o, m'.scanStates k = some o ∧ o.work.work.running = some pc) ↔
      ∃ o, m.scanStates k = some o ∧ o.work.work.running = some pc)
    (hwork : m'.scanCleanupWork = m.scanCleanupWork)
    (hargument : m'.scanCleanupArgument = m.scanCleanupArgument) (x : Owner) :
    x.At m' ↔ x.At m := by
  cases x with
  | call i k c => exact and_congr_left fun hk => hcalls i k c hk
  | queued k => exact hqueued k
  | work k pc => exact hrunning pc k
  | cleanupQueued k => rw [Owner.At, Owner.At, hwork, hargument]
  | cleanup pc => rw [Owner.At, Owner.At, hwork]

/-- A step that does nothing for a scan. -/
theorem Sweeps.frame (h : Sweeps τ m) (hv : ∀ k, visited k ⟨m, event, m'⟩ = none)
    (hat : ∀ x : Owner, x.At m' ↔ x.At m)
    (hnone : ∀ k, m'.scanStates k = none → m.scanStates k = none)
    (hstates : ∀ k o', m'.scanStates k = some o' → ∃ o, m.scanStates k = some o ∧
      o'.currentChannel = o.currentChannel ∧ o'.work.work.request = o.work.work.request)
    (hclaims : ∀ i k : Nat, m'.scanCalls[i]? = some (.scanClaim k) →
      m.scanCalls[i]? = some (.scanClaim k)) : Sweeps (τ ++ [⟨m, event, m'⟩]) m' := by
  have hsweep (k : Nat) : sweep k (τ ++ [⟨m, event, m'⟩]) = sweep k τ := by
    rw [sweep_concat, hv, Option.toList_none, List.append_nil]
  have hswept {x : Owner} {o o' : ScanState} {v : List Visit} (hs : x.Swept o v)
      (hc : o'.currentChannel = o.currentChannel)
      (hr : o'.work.work.request = o.work.work.request) : x.Swept o' v := by
    have hvisited : x.visited o' = x.visited o := by
      cases x <;> simp only [Owner.visited, hr]
    refine ⟨?_, ?_, ?_⟩
    · rw [hc]
      exact hs.permitted
    · rw [hc, hvisited]
      exact hs.visits
    · rw [hc]
      exact hs.answer
  refine ⟨fun k hk => ?_, fun i k o' hc ho' => ?_, fun x o' hx ho' => ?_, fun k hk => ?_⟩
  · rw [hsweep]
    exact h.fresh k (hnone k hk)
  · obtain ⟨o, ho, hchannel, hrequest⟩ := hstates k o' ho'
    rw [hsweep]
    exact hswept (h.unclaimed i k o (hclaims i k hc) ho) hchannel hrequest
  · obtain ⟨o, ho, hchannel, hrequest⟩ := hstates x.scan o' ho'
    rw [hsweep]
    exact hswept (h.owner x o ((hat x).mp hx) ho) hchannel hrequest
  · rw [hsweep]
    exact h.other k fun x hx => hk x ((hat x).mpr hx)

/-- The owner goes on with its scan. -/
theorem Sweeps.move (h : Sweeps τ m) (hw : m.Fits (some x)) (hw' : m'.Fits (some x'))
    (hscan : x'.scan = x.scan)
    (hstates : ∀ k, k ≠ x.scan → m'.scanStates k = m.scanStates k)
    (hv : ∀ k, k ≠ x.scan → visited k ⟨m, event, m'⟩ = none)
    (hclaims : ∀ i k : Nat, m'.scanCalls[i]? = some (.scanClaim k) →
      m.scanCalls[i]? = some (.scanClaim k))
    (hown : ∀ o o', m.scanStates x.scan = some o → m'.scanStates x.scan = some o' →
      x.Shapes o → x'.Shapes o' → x.Swept o (sweep x.scan τ) →
        x'.Swept o' (sweep x.scan τ ++ (visited x.scan ⟨m, event, m'⟩).toList)) :
    Sweeps (τ ++ [⟨m, event, m'⟩]) m' := by
  have hsweep {k : Nat} (hk : k ≠ x.scan) :
      sweep k (τ ++ [⟨m, event, m'⟩]) = sweep k τ := by
    rw [sweep_concat, hv k hk, Option.toList_none, List.append_nil]
  obtain ⟨o, ho, hshape⟩ := hw.own x rfl
  obtain ⟨o', ho', hshape'⟩ := hw'.own x' rfl
  rw [hscan] at ho'
  refine ⟨fun k hk => ?_, fun i k o₁ hc ho₁ => ?_, fun y o₁ hy ho₁ => ?_, fun k hk => ?_⟩
  · have hne : k ≠ x.scan := by
      rintro rfl
      rw [ho'] at hk
      cases hk
    rw [hsweep hne]
    exact h.fresh k (hstates k hne ▸ hk)
  · have hne : k ≠ x.scan := Ne.symm ((hw.unclaimed i k (hclaims i k hc)).2.1 x rfl)
    rw [hsweep hne]
    exact h.unclaimed i k o₁ (hclaims i k hc) (hstates k hne ▸ ho₁)
  · obtain rfl := Option.some.inj (hw'.at_iff.mp hy)
    rw [hscan, ho', Option.some.injEq] at ho₁
    subst ho₁
    rw [hscan, sweep_concat]
    exact hown o o' ho ho' hshape hshape' (h.owner x o (hw.at_iff.mpr rfl) ho)
  · have hne : k ≠ x.scan := by
      rw [← hscan]
      exact Ne.symm (hk x' (hw'.at_iff.mpr rfl))
    rw [hsweep hne]
    refine h.other k fun y hy => ?_
    obtain rfl := Option.some.inj (hw.at_iff.mp hy)
    exact Ne.symm hne

/-- The owner goes on without a visit. -/
theorem Sweeps.pass (h : Sweeps τ m) (hw : m.Fits (some x)) (hw' : m'.Fits (some x'))
    (hscan : x'.scan = x.scan) (ho : m.scanStates x.scan = some o)
    (hstates : m'.scanStates = Function.update m.scanStates x.scan (some o'))
    (hv : ∀ k, visited k ⟨m, event, m'⟩ = none) (hcalls : m'.scanCalls = m.scanCalls)
    (hown : x.Swept o (sweep x.scan τ) → x'.Swept o' (sweep x.scan τ)) :
    Sweeps (τ ++ [⟨m, event, m'⟩]) m' := by
  refine h.move hw hw' hscan (fun j hj => ?_) (fun j _ => hv j) (fun i j hc => hcalls ▸ hc)
    fun o₁ o₁' ho₁ ho₁' _ _ hs => ?_
  · rw [hstates]
    exact Function.update_of_ne hj _ _
  · rw [hstates, Function.update_self] at ho₁'
    obtain rfl := Option.some.inj (ho.symm.trans ho₁)
    obtain rfl := Option.some.inj ho₁'
    rw [hv, Option.toList_none, List.append_nil]
    exact hown hs

/-- A step that leaves the scan states alone, and moves no call that uses one. -/
theorem Sweeps.other_calls (h : Sweeps τ m) (hv : ∀ k, visited k ⟨m, event, m'⟩ = none)
    (hcalls : SameScans m.scanCalls m'.scanCalls) (hstates : m'.scanStates = m.scanStates)
    (hwork : m'.scanCleanupWork = m.scanCleanupWork)
    (hargument : m'.scanCleanupArgument = m.scanCleanupArgument) :
    Sweeps (τ ++ [⟨m, event, m'⟩]) m' := by
  refine h.frame hv (at_iff_of_same ?_ ?_ ?_ hwork hargument) ?_ ?_ ?_
  · exact fun i k c hc => hcalls i c (by rw [ScanCall.scan_of_claimed hc]; simp)
  · exact fun k => by rw [hstates]
  · exact fun pc k => by rw [hstates]
  · exact fun k hk => hstates ▸ hk
  · exact fun k o ho => ⟨o, hstates ▸ ho, rfl, rfl⟩
  · exact fun i k hc => (hcalls i _ (by simp [ScanCall.scan])).mp hc

/-- A step that changes a scan state, but neither its work nor its channel. -/
theorem Sweeps.other_state (h : Sweeps τ m) {i : Nat} {outcome : ScanOutcome} {c c' : ScanCall}
    (hc : m.scanCalls[i]? = some c) (hold : c.claimed = none) (hnew : c'.claimed = none)
    (hclaim : ∀ j, c' ≠ .scanClaim j)
    (hv : ∀ k, visited k ⟨m, .advance i outcome, (m.setScanState k o').setScanCall i c'⟩ = none)
    (ho : m.scanStates k = some o) (hchannel : o'.currentChannel = o.currentChannel)
    (hrequest : o'.work.work.request = o.work.work.request)
    (hrunning : o'.work.work.running = o.work.work.running) :
    Sweeps (τ ++ [⟨m, .advance i outcome, (m.setScanState k o').setScanCall i c'⟩])
      ((m.setScanState k o').setScanCall i c') := by
  have hstates : ((m.setScanState k o').setScanCall i c').scanStates =
      Function.update m.scanStates k (some o') := rfl
  refine h.frame hv (at_iff_of_same (claimed_iff_of_set hc hold hnew)
    (work_iff_of_update (P := fun w => w.request ≠ .idle) ho hstates (by rw [hrequest]))
    (fun pc => work_iff_of_update (P := fun w => w.running = some pc) ho hstates
      (by rw [hrunning])) rfl rfl) (fun j hj => ?_) (fun j o₁ ho₁ => ?_) fun j j' hj => ?_
  · rw [hstates, Function.update_apply] at hj
    split at hj
    · cases hj
    · exact hj
  · rw [hstates, Function.update_apply] at ho₁
    split at ho₁
    · next hjk =>
      cases ho₁
      exact ⟨o, hjk ▸ ho, hchannel, hrequest⟩
    · exact ⟨o₁, ho₁, rfl, rfl⟩
  · rw [setScanCall_scanCalls, setScanState_scanCalls, getElem?_set_of hc] at hj
    split at hj
    · exact absurd hj (hclaim j')
    · exact hj

/-! ## The visits of one scan -/

theorem Owner.Swept.congr {v : List Visit} (h : x.Swept o v)
    (hchannel : o'.currentChannel = o.currentChannel) (hvisited : x'.visited o' = x.visited o)
    (hanswer : ∀ next, x'.answer = some next →
      x.answer = some next ∨ nextChannel o.currentChannel = some next) : x'.Swept o' v where
  permitted := by
    rw [hchannel]
    exact h.permitted
  visits := by
    rw [hchannel, hvisited]
    exact h.visits
  answer := by
    intro next hn
    rw [hchannel]
    exact (hanswer next hn).elim (h.answer next) id

theorem take_visit (o : ScanState) (line : Listen) :
    (visit o.currentChannel).take line.visited ++ (o.visits line).toList =
      (visit o.currentChannel).take line.done := by
  cases line <;> rfl

/-- A line is executed. -/
theorem Owner.Swept.line {v : List Visit} {line : Listen} (h : x.Swept o v)
    (hchannel : o'.currentChannel = o.currentChannel) (hvisited : x.visited o = line.visited)
    (hdone : x'.visited o' = line.done) (hanswer : x'.answer = none) :
    x'.Swept o' (v ++ (o.visits line).toList) where
  permitted := by
    rw [hchannel]
    exact h.permitted
  visits := by
    rw [hchannel, hdone, h.visits, hvisited, List.append_assoc, take_visit]
  answer := by
    intro next hn
    rw [hanswer] at hn
    cases hn

/-- All visits up to a channel. -/
theorem visits_upTo {c : Nat} (hc : c ∈ permittedChannels) :
    (permittedBelow c).flatMap visit ++ visit c = (permittedBelow (c + 1)).flatMap visit := by
  obtain ⟨⟨h0, -⟩, hp⟩ := mem_permittedChannels.mp hc
  rw [permittedBelow_succ h0 hp, List.flatMap_append, List.flatMap_singleton]

/-- The scan goes on with another channel. -/
theorem Owner.Swept.setCurrent {v : List Visit} {channel : Nat}
    (h : (Owner.work k (.setCurrent channel)).Swept o v) (hchannel : o'.currentChannel = channel) :
    (Owner.work k (.listen .setChannel)).Swept o' v := by
  have hle := (mem_permittedChannels.mp h.permitted).1.2
  obtain ⟨hp, hbelow⟩ := permittedBelow_next hle (h.answer _ rfl)
  refine ⟨hchannel ▸ hp, ?_, fun next hn => by cases hn⟩
  rw [hchannel, hbelow, ← visits_upTo h.permitted, h.visits]
  simp [Owner.visited, ScanPc.visited, Listen.visited, visit]

/-- A scan that has no channel left has visited all of them. -/
theorem Owner.Swept.complete {v : List Visit} (h : x.Swept o v) (hanswer : x.answer = some none) :
    v = permittedChannels.flatMap visit := by
  have hle := (mem_permittedChannels.mp h.permitted).1.2
  have hvisited : x.visited o = 3 := by
    cases x with
    | call | queued => cases hanswer
    | work k pc => cases pc <;> first | rfl | cases hanswer
    | cleanupQueued | cleanup => rfl
  rw [h.visits, hvisited, ← permittedBelow_last hle (h.answer _ hanswer), ← visits_upTo h.permitted]
  rfl

/-- What has been done is the beginning of what is to be done. -/
theorem Owner.Swept.isPrefix {v : List Visit} (h : x.Swept o v) :
    v <+: permittedChannels.flatMap visit := by
  obtain ⟨rest, hrest⟩ := permittedBelow_prefix h.permitted
  rw [h.visits, ← hrest, List.flatMap_append, List.flatMap_append, List.flatMap_singleton,
    List.append_assoc]
  exact (List.prefix_append_right_inj _).mpr ((List.take_prefix _ _).trans (List.prefix_append _ _))

/-! ## Steps of a scan -/

theorem visited_of_call {i : Nat} {outcome : ScanOutcome} {c : ScanCall}
    (hc : m.scanCalls[i]? = some c) (hlisten : ∀ k line, c ≠ .scanListen k line) (k : Nat) :
    visited k ⟨m, .advance i outcome, m'⟩ = none := by
  simp only [visited, hc]
  cases c <;> first | rfl | exact absurd rfl (hlisten _ _)

theorem visited_of_listen {i : Nat} {outcome : ScanOutcome} {line : Listen}
    (hc : m.scanCalls[i]? = some (.scanListen k line)) (ho : m.scanStates k = some o) :
    visited k ⟨m, .advance i outcome, m'⟩ = o.visits line := by
  simp only [visited, hc, if_true, ho, Option.bind_some]

theorem visited_of_listen_ne {i j : Nat} {outcome : ScanOutcome} {line : Listen}
    (hc : m.scanCalls[i]? = some (.scanListen k line)) (hj : j ≠ k) :
    visited j ⟨m, .advance i outcome, m'⟩ = none := by
  simp only [visited, hc]
  exact if_neg (Ne.symm hj)

theorem visited_of_running {outcome : ScanOutcome} {pc : ScanPc} (ho : m.scanStates k = some o)
    (hr : o.work.work.running = some pc) (hpc : ∀ line, pc ≠ .listen line) :
    visited k ⟨m, .advanceWork k outcome, m'⟩ = none := by
  simp only [visited, if_true, ho, Option.bind_some, hr]
  cases pc <;> first | rfl | exact absurd rfl (hpc _)

theorem visited_of_listens {outcome : ScanOutcome} {line : Listen} (ho : m.scanStates k = some o)
    (hr : o.work.work.running = some (.listen line)) :
    visited k ⟨m, .advanceWork k outcome, m'⟩ = o.visits line := by
  simp only [visited, if_true, ho, Option.bind_some, hr]

theorem visited_of_ne {outcome : ScanOutcome} {j : Nat} (hj : j ≠ k) :
    visited j ⟨m, .advanceWork k outcome, m'⟩ = none := if_neg (Ne.symm hj)

/-- The call that the scan belongs to goes on. -/
theorem Sweeps.call (h : Sweeps τ m) (hw : m.Fits w) (hw' : m'.Fits (some x')) {i : Nat}
    {outcome : ScanOutcome} {c c' : ScanCall} (hc : m.scanCalls[i]? = some c)
    (hk : c.claimed = some k) (hscan : x'.scan = k)
    (hstates : ∀ j, j ≠ k → m'.scanStates j = m.scanStates j)
    (hcalls : m'.scanCalls = m.scanCalls.set i c') (hclaim : ∀ j, c' ≠ .scanClaim j)
    (hv : ∀ j, j ≠ k → visited j ⟨m, .advance i outcome, m'⟩ = none)
    (hown : ∀ o o', m.scanStates k = some o → m'.scanStates k = some o' →
      (Owner.call i k c).Shapes o → x'.Shapes o' →
      (Owner.call i k c).Swept o (sweep k τ) →
        x'.Swept o' (sweep k τ ++ (visited k ⟨m, .advance i outcome, m'⟩).toList)) :
    Sweeps (τ ++ [⟨m, .advance i outcome, m'⟩]) m' := by
  obtain rfl := (hw.calls i k c hk).mp hc
  refine h.move hw hw' hscan hstates hv (fun j k' hj => ?_) hown
  rw [hcalls, getElem?_set_of hc] at hj
  split at hj
  · exact absurd hj (hclaim k')
  · exact hj

/-- The call that the scan belongs to goes on without a visit. -/
theorem Sweeps.setCall (h : Sweeps τ m) (hw : m.Fits w) (hw' : m'.Fits w') {i : Nat}
    {outcome : ScanOutcome} {c c' : ScanCall} (hc : m.scanCalls[i]? = some c)
    (hk : c.claimed = some k) (hk' : c'.claimed = some k)
    (hlisten : ∀ k line, c ≠ .scanListen k line) (hclaim : ∀ j, c' ≠ .scanClaim j)
    (hstates : m'.scanStates = m.scanStates) (hcalls : m'.scanCalls = m.scanCalls.set i c')
    (hvisited : c'.visited = c.visited) :
    Sweeps (τ ++ [⟨m, .advance i outcome, m'⟩]) m' := by
  have hnext : m'.scanCalls[i]? = some c' := by
    rw [hcalls, getElem?_set_of hc, if_pos rfl]
  obtain rfl := (hw'.calls i k c' hk').mp hnext
  refine h.call hw hw' hc hk rfl (fun _ _ => by rw [hstates]) hcalls hclaim
    (fun j _ => visited_of_call hc hlisten j) fun o o' ho ho' _ _ hs => ?_
  rw [hstates] at ho'
  obtain rfl := Option.some.inj (ho.symm.trans ho')
  rw [visited_of_call hc hlisten, Option.toList_none, List.append_nil]
  exact hs.congr rfl hvisited (by simp [Owner.answer])

/-- `scan_work` goes on, or returns. -/
theorem Sweeps.work (h : Sweeps τ m) (hw : m.Fits w) (hw' : m'.Fits (some x'))
    {outcome : ScanOutcome} {pc : ScanPc} (ho : m.scanStates k = some o)
    (hr : o.work.work.running = some pc) (hscan : x'.scan = k)
    (hstates : m'.scanStates = Function.update m.scanStates k (some o'))
    (hcalls : m'.scanCalls = m.scanCalls)
    (hown : ∀ v, (Owner.work k pc).Swept o v →
      x'.Swept o' (v ++ (visited k ⟨m, .advanceWork k outcome, m'⟩).toList)) :
    Sweeps (τ ++ [⟨m, .advanceWork k outcome, m'⟩]) m' := by
  obtain rfl := hw.of_running ho hr
  refine h.move hw hw' hscan (fun j hj => ?_) (fun j hj => visited_of_ne hj) ?_ ?_
  · rw [hstates]
    exact Function.update_of_ne hj _ _
  · intro i j hc
    rwa [hcalls] at hc
  · rintro o₁ o₁' ho₁ ho₁' - - hs
    rw [show (Owner.work k pc).scan = k from rfl] at ho₁ ho₁' hs ⊢
    rw [ho, Option.some.injEq] at ho₁
    rw [hstates, Function.update_self, Option.some.injEq] at ho₁'
    subst ho₁ ho₁'
    exact hown _ hs

/-- `scan_work` goes on without a visit. -/
theorem Sweeps.goto (h : Sweeps τ m) (hw : m.Fits w) (hw' : m'.Fits w')
    {outcome : ScanOutcome} {pc pc' : ScanPc} (ho : m.scanStates k = some o)
    (hr : o.work.work.running = some pc) (hpc : ∀ line, pc ≠ .listen line)
    (hstates : m'.scanStates = Function.update m.scanStates k (some (o'.goto (some pc'))))
    (hcalls : m'.scanCalls = m.scanCalls) (hchannel : o'.currentChannel = o.currentChannel)
    (hvisited : pc'.visited = pc.visited)
    (hanswer : ∀ next, pc'.answer = some next →
      pc.answer = some next ∨ nextChannel o.currentChannel = some next) :
    Sweeps (τ ++ [⟨m, .advanceWork k outcome, m'⟩]) m' := by
  have hself : m'.scanStates k = some (o'.goto (some pc')) := by
    rw [hstates, Function.update_self]
  obtain rfl : w' = some (.work k pc') := hw'.of_running hself rfl
  refine h.work hw hw' ho hr rfl hstates hcalls fun v hs => ?_
  rw [visited_of_running ho hr hpc, Option.toList_none, List.append_nil]
  exact hs.congr hchannel hvisited hanswer

/-- `u80211_scan` gets a scan state at the first channel. -/
theorem Sweeps.allocate (h : Sweeps τ m) (hw : m.Fits w) {i channel : Nat} {outcome : ScanOutcome}
    {buffer : RingBuffer} (hc : m.scanCalls[i]? = some .scanAllocate)
    (hn : nextChannel 0 = some (some channel))
    (hm : m' = ({ m with nextScanState := m.nextScanState + 1 }.setScanState m.nextScanState
      (.allocate buffer channel)).setScanCall i (.scanClaim m.nextScanState)) :
    Sweeps (τ ++ [⟨m, .advance i outcome, m'⟩]) m' := by
  have hfresh : m.scanStates m.nextScanState = none := by
    by_contra hne
    obtain ⟨o, ho⟩ := Option.ne_none_iff_exists'.mp hne
    exact Nat.lt_irrefl _ (hw.fresh _ o ho)
  have hsweep (k : Nat) : sweep k (τ ++ [⟨m, .advance i outcome, m'⟩]) = sweep k τ := by
    rw [sweep_concat, visited_of_call hc (by simp), Option.toList_none, List.append_nil]
  have hself : m'.scanStates m.nextScanState = some (.allocate buffer channel) := by
    rw [hm]
    exact Function.update_self _ _ _
  have hne {k : Nat} (hk : k ≠ m.nextScanState) : m'.scanStates k = m.scanStates k := by
    rw [hm]
    exact Function.update_of_ne hk _ _
  -- the new state has no work yet
  have hwork {P : Work ScanPc → Prop} (hP : ¬ P .allocate) (k : Nat) :
      (∃ o, m'.scanStates k = some o ∧ P o.work.work) ↔
        ∃ o, m.scanStates k = some o ∧ P o.work.work := by
    by_cases hk : k = m.nextScanState
    · subst hk
      rw [hself, hfresh]
      refine iff_of_false ?_ (by simp)
      rintro ⟨o, ho, hp⟩
      cases ho
      exact hP hp
    · rw [hne hk]
  have hat (x : Owner) : x.At m' ↔ x.At m := by
    refine at_iff_of_same ?_ (hwork (P := fun w => w.request ≠ .idle) (by simp [Work.allocate]))
      (fun pc => hwork (P := fun w => w.running = some pc) (by simp [Work.allocate]))
      (by rw [hm]; rfl) (by rw [hm]; rfl) x
    rw [hm]
    exact claimed_iff_of_set hc rfl rfl
  refine ⟨fun k hk => ?_, fun j k o hj ho => ?_, fun x o hx ho => ?_, fun k hk => ?_⟩
  · have hk' : k ≠ m.nextScanState := by
      rintro rfl
      rw [hself] at hk
      cases hk
    rw [hsweep]
    exact h.fresh k (hne hk' ▸ hk)
  · rw [hsweep]
    by_cases hk : k = m.nextScanState
    · subst hk
      rw [hself, Option.some.injEq] at ho
      subst ho
      obtain ⟨hp, hbelow⟩ := permittedBelow_next (Nat.zero_le _) hn
      refine ⟨hp, ?_, fun next he => by cases he⟩
      rw [h.fresh _ hfresh, show (ScanState.allocate buffer channel).currentChannel = channel from
        rfl, hbelow]
      rfl
    · rw [hm, setScanCall_scanCalls, setScanState_scanCalls, getElem?_set_of hc] at hj
      split at hj
      · exact absurd hj (by simpa using Ne.symm hk)
      · exact h.unclaimed j k o hj (hne hk ▸ ho)
  · have hx' := (hat x).mp hx
    obtain ⟨o₁, ho₁, -⟩ := hw.own x (hw.at_iff.mp hx')
    have hk : x.scan ≠ m.nextScanState := by
      intro he
      rw [he, hfresh] at ho₁
      cases ho₁
    rw [hsweep]
    exact h.owner x o hx' (hne hk ▸ ho)
  · rw [hsweep]
    exact h.other k fun x hx => hk x ((hat x).mpr hx)

/-- `u80211_scan` swaps the device state. -/
theorem Sweeps.claim (h : Sweeps τ m) (hw : m.Fits none) {i : Nat} {outcome : ScanOutcome}
    (hc : m.scanCalls[i]? = some (.scanClaim k))
    (hw' : m'.Fits (some (.call i k (.scanPublish k)))) (hstates : m'.scanStates = m.scanStates)
    (hcalls : m'.scanCalls = m.scanCalls.set i (.scanPublish k)) :
    Sweeps (τ ++ [⟨m, .advance i outcome, m'⟩]) m' := by
  have hsweep (j : Nat) : sweep j (τ ++ [⟨m, .advance i outcome, m'⟩]) = sweep j τ := by
    rw [sweep_concat, visited_of_call hc (by simp), Option.toList_none, List.append_nil]
  refine ⟨fun j hj => ?_, fun j k' o hj ho => ?_, fun x o hx ho => ?_, fun j _ => ?_⟩
  · rw [hsweep]
    exact h.fresh j (hstates ▸ hj)
  · rw [hsweep]
    rw [hcalls, getElem?_set_of hc] at hj
    split at hj
    · cases hj
    · exact h.unclaimed j k' o hj (hstates ▸ ho)
  · obtain rfl := Option.some.inj (hw'.at_iff.mp hx)
    rw [hsweep]
    exact h.unclaimed i k o hc (hstates ▸ ho)
  · rw [hsweep]
    exact h.other j fun x hx => absurd (hw.at_iff.mp hx) (by simp)

/-- `cleanup_scan` swaps it back. -/
theorem Sweeps.last (h : Sweeps τ m) (hw : m.Fits (some (.cleanup (.last k)))) (hw' : m'.Fits none)
    (hstates : m'.scanStates = m.scanStates)
    (hcalls : m'.scanCalls = wakeScanWaiters m.scanCalls m.scanWaiters) :
    Sweeps (τ ++ [⟨m, .advanceCleanup, m'⟩]) m' := by
  have hsweep (j : Nat) : sweep j (τ ++ [⟨m, .advanceCleanup, m'⟩]) = sweep j τ := by
    rw [sweep_concat]
    exact List.append_nil _
  refine ⟨fun j hj => ?_, fun j k' o hj ho => ?_, fun x o hx ho => ?_, fun j _ => ?_⟩
  · rw [hsweep]
    exact h.fresh j (hstates ▸ hj)
  · rw [hsweep]
    rw [hcalls, SameScans.wake m.scanWaiters m.scanCalls j _ (by simp [ScanCall.scan])] at hj
    exact h.unclaimed j k' o hj (hstates ▸ ho)
  · exact absurd (hw'.at_iff.mp hx) (by simp)
  · rw [hsweep]
    by_cases hj : j = k
    · subst hj
      obtain ⟨o, ho, -⟩ := hw.own _ rfl
      exact Or.inr ((h.owner _ o (hw.at_iff.mpr rfl) ho).complete rfl)
    · refine h.other j fun x hx => ?_
      obtain rfl := Option.some.inj (hw.at_iff.mp hx)
      exact Ne.symm hj

/-- The timer is armed when the work was idle. -/
theorem armed_of_enqueue {d : DelayedWork ScanPc} (ht : d.timerFreed = false)
    (hf : d.work.freed = false) (hidle : d.work.request = .idle) :
    d.enqueue.work.request = .armed := by
  unfold DelayedWork.enqueue
  rw [if_pos ⟨ht, hf, hidle⟩]

/-- The call that the scan belongs to executes a line. -/
theorem Sweeps.listenCall (h : Sweeps τ m) (hw : m.Fits w) {i : Nat} {outcome : ScanOutcome}
    {line : Listen} {c' : ScanCall} (hc : m.scanCalls[i]? = some (.scanListen k line))
    (ho : m.scanStates k = some o) (hm : m' = (m.listen k o line).setScanCall i c')
    (hw' : m'.Fits (some x')) (hclaim : ∀ j, c' ≠ .scanClaim j) (hscan : x'.scan = k)
    (hdone : x'.visited (o.listen line) = line.done) (hanswer : x'.answer = none) :
    Sweeps (τ ++ [⟨m, .advance i outcome, m'⟩]) m' := by
  have hself : m'.scanStates k = some (o.listen line) := by
    rw [hm]
    exact Function.update_self _ _ _
  have hchannel : (o.listen line).currentChannel = o.currentChannel := by cases line <;> rfl
  refine h.call hw hw' hc rfl hscan (fun j hj => ?_) (by rw [hm]; rfl) hclaim
    (fun j hj => visited_of_listen_ne hc hj) fun o₁ o₁' ho₁ ho₁' _ _ hs => ?_
  · rw [hm]
    exact Function.update_of_ne hj _ _
  · obtain rfl := Option.some.inj (ho₁.symm.trans ho)
    obtain rfl := Option.some.inj (ho₁'.symm.trans hself)
    rw [visited_of_listen hc ho]
    exact hs.line hchannel rfl hdone hanswer

/-- `scan_work` executes a line. -/
theorem Sweeps.listenWork (h : Sweeps τ m) (hw : m.Fits w) {outcome : ScanOutcome}
    {line : Listen} (ho : m.scanStates k = some o)
    (hr : o.work.work.running = some (.listen line))
    (hm : m' = m.listen k (o.goto (line.next.map .listen)) line) (hw' : m'.Fits (some x'))
    (hscan : x'.scan = k)
    (hdone : x'.visited ((o.goto (line.next.map .listen)).listen line) = line.done)
    (hanswer : x'.answer = none) :
    Sweeps (τ ++ [⟨m, .advanceWork k outcome, m'⟩]) m' := by
  have hstates : m'.scanStates = Function.update m.scanStates k
      (some ((o.goto (line.next.map .listen)).listen line)) := by
    rw [hm]
    rfl
  refine h.work hw hw' ho hr hscan hstates (by rw [hm]; rfl) fun v hs => ?_
  rw [visited_of_listens ho hr]
  exact hs.line (by cases line <;> rfl) rfl hdone hanswer

theorem Listen.visited_next {line next : Listen} (h : line.next = some next) :
    next.visited = line.done := by
  cases line <;> cases h <;> rfl

/-- `u80211_scan` executes a line, and stands at the next one. -/
theorem Sweeps.callListens (h : Sweeps τ m) (hw : m.Fits w) (hw' : m'.Fits w') {i : Nat}
    {outcome : ScanOutcome} {line next : Listen}
    (hc : m.scanCalls[i]? = some (.scanListen k line)) (ho : m.scanStates k = some o)
    (hnext : line.next = some next)
    (hm : m' = (m.listen k o line).setScanCall i (.scanListen k next)) :
    Sweeps (τ ++ [⟨m, .advance i outcome, m'⟩]) m' := by
  have hcall : m'.scanCalls[i]? = some (.scanListen k next) := by
    subst hm
    exact (getElem?_set_of hc _ _ _).mpr (by rw [if_pos rfl])
  obtain rfl := (hw'.calls i k _ rfl).mp hcall
  exact h.listenCall hw hc ho hm hw' (fun _ he => by cases he) rfl (Listen.visited_next hnext) rfl

/-- `u80211_scan` arms the timer, and returns. -/
theorem Sweeps.callArms (h : Sweeps τ m) (hw : m.Fits w) (hw' : m'.Fits w') {i : Nat}
    {outcome : ScanOutcome} {r : Status} (hc : m.scanCalls[i]? = some (.scanListen k .arm))
    (ho : m.scanStates k = some o)
    (hm : m' = (m.listen k o .arm).setScanCall i (.returned r)) :
    Sweeps (τ ++ [⟨m, .advance i outcome, m'⟩]) m' := by
  obtain rfl := (hw.calls i k _ rfl).mp hc
  have hshape := hw.shapes (x := .call i k (.scanListen k .arm)) ho
  have harmed := armed_of_enqueue hshape.freed.timer hshape.freed.work (hshape.idle rfl)
  have hself : m'.scanStates k = some (o.listen .arm) := by
    subst hm
    exact Function.update_self _ _ _
  obtain rfl := hw'.of_pending hself (by simp [ScanState.listen, harmed])
  exact h.listenCall hw hc ho hm hw' (fun _ he => by cases he) rfl (if_pos harmed) rfl

/-- `scan_work` executes a line, and stands at the next one. -/
theorem Sweeps.workListens (h : Sweeps τ m) (hw : m.Fits w) (hw' : m'.Fits w')
    {outcome : ScanOutcome} {line next : Listen} (ho : m.scanStates k = some o)
    (hrun : o.work.work.running = some (.listen line)) (hnext : line.next = some next)
    (hm : m' = m.listen k (o.goto (line.next.map .listen)) line) :
    Sweeps (τ ++ [⟨m, .advanceWork k outcome, m'⟩]) m' := by
  have hself : m'.scanStates k = some ((o.goto (line.next.map .listen)).listen line) := by
    subst hm
    exact Function.update_self _ _ _
  have hrunning : ((o.goto (line.next.map .listen)).listen line).work.work.running =
      some (.listen next) := by
    cases line <;> cases hnext <;> rfl
  obtain rfl := hw'.of_running hself hrunning
  exact h.listenWork hw ho hrun hm hw' rfl (Listen.visited_next hnext) rfl

/-- `scan_work` arms the timer, and returns. -/
theorem Sweeps.workArms (h : Sweeps τ m) (hw : m.Fits w) (hw' : m'.Fits w')
    {outcome : ScanOutcome} (ho : m.scanStates k = some o)
    (hrun : o.work.work.running = some (.listen .arm))
    (hm : m' = m.listen k (o.goto none) .arm) :
    Sweeps (τ ++ [⟨m, .advanceWork k outcome, m'⟩]) m' := by
  obtain rfl := hw.of_running ho hrun
  have hshape := hw.shapes (x := .work k (.listen .arm)) ho
  have harmed : (o.goto none).work.enqueue.work.request = .armed :=
    armed_of_enqueue hshape.freed.timer hshape.freed.work (hshape.idle rfl)
  have hself : m'.scanStates k = some ((o.goto none).listen .arm) := by
    subst hm
    exact Function.update_self _ _ _
  obtain rfl := hw'.of_pending hself (by simp only [ScanState.listen, harmed]; simp)
  exact h.listenWork hw ho hrun hm hw' rfl (if_pos harmed) rfl

/-- The timer of a scan expires: that is the last visit of the channel. -/
theorem Sweeps.expire (h : Sweeps τ m) (hw : m.Fits w) {work : DelayedWork ScanPc}
    (ho : m.scanStates k = some o) (hwork : o.work.expire = some work)
    (hw' : (m.setScanState k { o with work }).Fits w') :
    Sweeps (τ ++ [⟨m, .expire k, m.setScanState k { o with work }⟩])
      (m.setScanState k { o with work }) := by
  obtain ⟨hrequest, rfl⟩ := DelayedWork.expire_eq_some hwork
  obtain rfl := hw.of_pending ho (by rw [hrequest]; simp)
  obtain rfl := hw'.of_pending (k := k) (Function.update_self _ _ _) (by simp)
  refine h.move hw hw' rfl (fun j hj => Function.update_of_ne hj _ _)
    (fun j hj => if_neg (Ne.symm hj)) (fun _ _ hj => hj) fun o₁ o₁' ho₁ ho₁' _ _ hs => ?_
  obtain rfl := Option.some.inj (ho₁.symm.trans ho)
  obtain rfl := Option.some.inj (ho₁'.symm.trans (Function.update_self _ _ _))
  refine ⟨hs.permitted, ?_, by simp [Owner.answer]⟩
  have hvisit : visited k ⟨m, .expire k, m.setScanState k { o₁ with
      work := { o₁.work with work := { o₁.work.work with request := .queued } } }⟩ =
      some (.expire o₁.currentChannel) := by
    simp only [visited, if_true, ho, Option.map_some]
  show sweep k τ ++ (visited k _).toList = _
  rw [show sweep k τ = _ from hs.visits, hvisit, List.append_assoc]
  simp [Owner.visited, hrequest, visit]

/-- `scan_work` begins. -/
theorem Sweeps.startWork (h : Sweeps τ m) (hw : m.Fits w) {work : DelayedWork ScanPc}
    (ho : m.scanStates k = some o) (hwork : o.work.start .stop = some work)
    (hw' : (m.setScanState k { o with work }).Fits w') :
    Sweeps (τ ++ [⟨m, .startWork k, m.setScanState k { o with work }⟩])
      (m.setScanState k { o with work }) := by
  obtain ⟨hrequest, -, -, rfl⟩ := DelayedWork.start_eq_some hwork
  obtain rfl := hw.of_pending ho (by rw [hrequest]; simp)
  obtain rfl := hw'.of_running (k := k) (Function.update_self _ _ _) rfl
  refine h.pass hw hw' rfl ho rfl (fun _ => rfl) rfl
    fun hs => hs.congr rfl ?_ (by simp [Owner.answer, ScanPc.answer])
  simp [Owner.visited, hrequest, ScanPc.visited]

theorem answer_of_leaveDrain {pc : ScanPc} (h : o.leaveDrain = some pc) {next : Option Nat}
    (hn : pc.answer = some next) : nextChannel o.currentChannel = some next := by
  obtain ⟨next', hnext, h⟩ := Option.bind_eq_some_iff.mp h
  cases next' with
  | none =>
    cases h
    cases hn
    exact hnext
  | some channel =>
    cases h
    cases hn
    exact hnext

theorem visited_of_leaveDrain {pc : ScanPc} (h : o.leaveDrain = some pc) : pc.visited = 3 := by
  rcases ScanState.leaveDrain_cases h with rfl | ⟨channel, rfl⟩ <;> rfl

/-- The loop of `scan_work` goes on, or is left. -/
theorem Sweeps.loop (h : Sweeps τ m) (hw : m.Fits w) {outcome : ScanOutcome} {pc pc' : ScanPc}
    (ho : m.scanStates k = some o) (hrun : o.work.work.running = some pc)
    (hpc : ∀ line, pc ≠ .listen line) (hvisited : pc.visited = 3)
    (hw' : (m.setScanState k (o'.goto (some pc'))).Fits w')
    (hchannel : o'.currentChannel = o.currentChannel)
    (hpc' : pc'.visited = 3 ∧ pc'.answer = none ∨ o.leaveDrain = some pc') :
    Sweeps (τ ++ [⟨m, .advanceWork k outcome, m.setScanState k (o'.goto (some pc'))⟩])
      (m.setScanState k (o'.goto (some pc'))) := by
  refine h.goto hw hw' ho hrun hpc rfl rfl hchannel ?_ fun next hn => ?_
  · rcases hpc' with ⟨hv, -⟩ | hl
    · exact hv.trans hvisited.symm
    · exact (visited_of_leaveDrain hl).trans hvisited.symm
  · rcases hpc' with ⟨-, ha⟩ | hl
    · rw [ha] at hn
      cases hn
    · exact Or.inr (answer_of_leaveDrain hl hn)

/-- `scan_work` asks for the cleanup, and returns. -/
theorem Sweeps.enqueueCleanup (h : Sweeps τ m) (hw : m.Fits w) {outcome : ScanOutcome}
    (ho : m.scanStates k = some o) (hrun : o.work.work.running = some .enqueueCleanup)
    (hw' : m'.Fits w') (hwork : m'.scanCleanupWork = m.scanCleanupWork.enqueue)
    (hargument : m.scanCleanupWork.request = .idle → m'.scanCleanupArgument = k)
    (hstates : m'.scanStates = Function.update m.scanStates k (some (o.goto none)))
    (hcalls : m'.scanCalls = m.scanCalls) :
    Sweeps (τ ++ [⟨m, .advanceWork k outcome, m'⟩]) m' := by
  obtain rfl := hw.of_running ho hrun
  have hidle := hw.cleanup.idle rfl
  have hpending : m'.scanCleanupWork.request ≠ .idle := by
    rw [hwork, Work.enqueue, if_pos ⟨hw.cleanup.freed, hidle⟩]
    simp
  obtain rfl := hw'.of_cleanupPending hpending
  refine h.work hw hw' ho hrun (hargument hidle) hstates hcalls fun v hs => ?_
  rw [visited_of_running ho hrun (by simp), Option.toList_none, List.append_nil]
  exact hs.congr rfl rfl fun next hn => Or.inl hn

/-- `cleanup_scan` begins. -/
theorem Sweeps.startCleanup (h : Sweeps τ m) (hw : m.Fits w) {work : Work ScanCleanupPc}
    (hwork : m.scanCleanupWork.start (.freeTimer m.scanCleanupArgument) = some work)
    (hw' : ({ m with scanCleanupWork := work } : Machine).Fits w') :
    Sweeps (τ ++ [⟨m, .startCleanup, { m with scanCleanupWork := work }⟩])
      { m with scanCleanupWork := work } := by
  obtain ⟨hrequest, -, -, rfl⟩ := Work.start_eq_some hwork
  obtain rfl := hw.of_cleanupPending (by rw [hrequest]; simp)
  obtain rfl := hw'.of_cleaning rfl
  obtain ⟨o, ho, -⟩ := hw.own _ rfl
  exact h.pass hw hw' rfl ho (Function.update_eq_self_iff.mpr ho.symm).symm (fun _ => rfl) rfl
    fun hs => hs.congr rfl rfl fun next hn => Or.inl hn

/-- `cleanup_scan` frees a part of the scan state. -/
theorem Sweeps.destroy (h : Sweeps τ m) (hw : m.Fits w) {pc next : ScanCleanupPc}
    (hrun : m.scanCleanupWork.running = some pc) (ho : m.scanStates k = some o)
    (hd : Destroys k pc next o o') (hw' : m'.Fits w')
    (hm : m' = { m with
      scanCleanupWork := m.scanCleanupWork.goto (some next) }.setScanState k o') :
    Sweeps (τ ++ [⟨m, .advanceCleanup, m'⟩]) m' := by
  subst hm
  obtain rfl := hw.of_cleaning hrun
  obtain rfl : w' = some (.cleanup next) := hw'.of_cleaning rfl
  have hchannel : o'.currentChannel = o.currentChannel := by cases hd <;> rfl
  obtain ⟨hpc, hnext⟩ : pc.scan = k ∧ next.scan = k := by cases hd <;> exact ⟨rfl, rfl⟩
  subst hpc
  exact h.pass hw hw' hnext ho rfl (fun _ => rfl) rfl
    fun hs => hs.congr hchannel rfl fun next hn => Or.inl hn

/-- **Where a scan stands tells what it has done so far.** -/
theorem Effect.sweeps (h : Sweeps τ m) (hw : m.Fits w) (hr : U80211.Reachable own m.system)
    (he : Effect m event m') : Sweeps (τ ++ [⟨m, event, m'⟩]) m' := by
  obtain ⟨w', hw', -⟩ := he.fits hw hr
  cases he with
  | association ha hs hc =>
    refine h.other_calls (fun _ => rfl) (.append fun c hc => ?_) rfl rfl rfl
    obtain ⟨beacon, -, rfl⟩ := List.mem_map.mp hc
    rfl
  | cache ha hs => exact h.other_calls (fun _ => rfl) (fun _ _ _ => Iff.rfl) rfl rfl rfl
  | @invoke entry =>
    refine h.other_calls (fun _ => rfl) (.append fun c hc => ?_) rfl rfl rfl
    rw [List.mem_singleton] at hc
    subst hc
    cases entry <;> rfl
  | quiet hc hq =>
    refine h.other_calls (visited_of_call hc ?_) (.set hc hq.scan.1 hq.scan.2) rfl rfl rfl
    cases hq <;> simp
  | wait hc hs =>
    exact h.other_calls (visited_of_call hc (by simp)) (.set hc rfl rfl) rfl rfl rfl
  | allocate hc hb hn => exact h.allocate hw hc hn rfl
  | claim hc hs =>
    obtain ⟨rfl, hclaimed⟩ := hw.claim hc hs
    exact h.claim hw hc hclaimed rfl rfl
  | busy hc ho hs =>
    exact h.other_state hc rfl rfl (by simp) (fun _ => visited_of_call hc (by simp) _) ho rfl rfl
      rfl
  | publish hc => exact h.setCall hw hw' hc rfl rfl (by simp) (by simp) rfl rfl rfl
  | purge hc hp => exact h.setCall hw hw' hc rfl rfl (by simp) (by simp) rfl rfl rfl
  | @listenCall i k outcome line o hc ho =>
    cases line with
    | setChannel | receive | sendProbe => exact h.callListens hw hw' hc ho rfl rfl
    | arm => exact h.callArms hw hw' hc ho rfl
  | response hc hx ho hr =>
    obtain ⟨buffer, rfl⟩ := ScanState.processResponse_cases hr
    exact h.other_state hc rfl rfl (by simp) (fun _ => visited_of_call hc (by simp) _) ho rfl rfl
      rfl
  | expire ho hwork => exact h.expire hw ho hwork hw'
  | startWork ho hwork => exact h.startWork hw ho hwork hw'
  | stop ho hrun =>
    exact h.goto hw hw' ho hrun (by simp) rfl rfl rfl rfl (by simp [ScanPc.answer])
  | drain ho hrun hd =>
    obtain ⟨⟨buffer, rfl⟩, hpc⟩ := ScanState.drain_cases hd
    refine h.loop hw ho hrun (by simp) rfl hw' rfl (hpc.imp ?_ id)
    rintro ⟨beacon, rsnSize, rfl⟩
    exact ⟨rfl, rfl⟩
  | pass ho hrun hp =>
    cases hp with
    | short hread hl =>
      obtain ⟨buffer, rfl⟩ := ScanState.readRsn_cases hread
      exact h.loop hw ho hrun (by simp) rfl hw' rfl (Or.inr hl)
    | skipped hread | enomem hread _ =>
      obtain ⟨buffer, rfl⟩ := ScanState.readRsn_cases hread
      exact h.loop hw ho hrun (by simp) rfl hw' rfl (Or.inl ⟨rfl, rfl⟩)
  | allocateAp ho hrun hread ha hn =>
    obtain ⟨buffer, rfl⟩ := ScanState.readRsn_cases hread
    exact h.goto hw hw' ho hrun (by simp) rfl rfl rfl rfl (by simp [ScanPc.answer])
  | insert ho hrun hi =>
    exact h.goto hw hw' ho hrun (by simp) rfl rfl rfl rfl (by simp [ScanPc.answer])
  | release ho hrun hrelease =>
    exact h.goto hw hw' ho hrun (by simp) rfl rfl rfl rfl (by simp [ScanPc.answer])
  | complete ho hrun =>
    exact h.goto hw hw' ho hrun (by simp) rfl rfl rfl rfl fun next hn => Or.inl hn
  | @setCurrent k channel outcome o ho hrun =>
    obtain rfl := hw'.of_running (k := k) (Function.update_self _ _ _) rfl
    refine h.work hw hw' ho hrun rfl rfl rfl fun v hs => ?_
    rw [visited_of_running ho hrun (by simp), Option.toList_none, List.append_nil]
    exact hs.setCurrent rfl
  | @listenWork k outcome o line ho hrun =>
    cases line with
    | setChannel | receive | sendProbe => exact h.workListens hw hw' ho hrun rfl rfl
    | arm => exact h.workArms hw hw' ho hrun rfl
  | enqueueCleanup ho hrun =>
    exact h.enqueueCleanup hw ho hrun hw' rfl (fun hidle => if_pos hidle) rfl rfl
  | startCleanup hwork => exact h.startCleanup hw hwork hw'
  | destroy hrun ho hd => exact h.destroy hw hrun ho hd hw' rfl
  | last hrun hs =>
    obtain rfl := hw.of_cleaning hrun
    have hscanning : m.system.association.state = .scanning := hw.state.mpr (by simp)
    obtain rfl : w' = none := by
      by_contra hne
      have hstill := hw'.state.mpr hne
      rw [U80211.step, setDeviceState, if_pos hscanning] at hs
      cases hs
      cases hstill
    exact h.last hw hw' rfl rfl

/-! ## Runs -/

theorem sweeps_registered (own : MacAddress) : Sweeps [] (registered own) where
  fresh _ _ := rfl
  unclaimed := by
    intro i k o hc
    cases hc
  owner := by
    intro x o hx ho
    cases ho
  other _ _ := Or.inl rfl

theorem Run.sweeps (h : Run own τ m) : Sweeps τ m := by
  refine h.history (P := Sweeps) (sweeps_registered own) ?_
  intro τ m event m' hr ih hs
  obtain ⟨w, hw⟩ := Reachable.owner hr.reachable
  exact (step_effect hs).sweeps ih hw (Run.system hr).reachable

theorem visits_eq_probe {line : Listen} {channel : Nat}
    (h : o.visits line = some (.probe channel)) :
    line = .sendProbe ∧ o.currentChannel = channel := by
  cases line <;> cases h
  exact ⟨rfl, rfl⟩

/-- A scan that calls `u80211_send_probe_request` receives. -/
theorem receiving_of_probe {t : Transition} {channel : Nat} (h : Reachable own t.before)
    (hv : visited k t = some (.probe channel)) :
    ∃ o, t.before.scanStates k = some o ∧ o.receiving = true ∧ o.currentChannel = channel := by
  obtain ⟨w, hw⟩ := h.owner
  unfold visited at hv
  split at hv
  · split at hv
    · next i outcome _ _ k' line hc =>
      obtain ⟨rfl, hv⟩ := Option.ite_none_right_eq_some.mp hv
      obtain ⟨o, ho, hvisit⟩ := Option.bind_eq_some_iff.mp hv
      obtain ⟨rfl, hchannel⟩ := visits_eq_probe hvisit
      obtain rfl := (hw.calls i k' _ rfl).mp hc
      have hshape := hw.shapes (x := .call i k' (.scanListen k' .sendProbe)) ho
      exact ⟨o, ho, hshape.receiving, hchannel⟩
    · cases hv
  · obtain ⟨rfl, hv⟩ := Option.ite_none_right_eq_some.mp hv
    obtain ⟨o, -, hvisit⟩ := Option.map_eq_some_iff.mp hv
    cases hvisit
  · obtain ⟨rfl, hv⟩ := Option.ite_none_right_eq_some.mp hv
    obtain ⟨o, ho, hvisit⟩ := Option.bind_eq_some_iff.mp hv
    split at hvisit
    · next line hrun =>
      obtain ⟨rfl, hchannel⟩ := visits_eq_probe hvisit
      obtain rfl := hw.of_running ho hrun
      exact ⟨o, ho, (hw.shapes (x := .work _ (.listen .sendProbe)) ho).receiving, hchannel⟩
    · cases hvisit
  · cases hv

theorem Run.tuned (h : Run own τ m) (hq : ∀ t ∈ τ, ¬ Retunes t) : m.Tuned := by
  rcases Lts.Run.after_or_init h with rfl | ⟨t, ht, rfl⟩
  · exact ⟨fun k o ho => (by cases ho), fun context hm => (by cases hm)⟩
  · exact (tuned_iff h).mpr hq t ht

/-- **A scan visits the permitted channels in their order.** On each of them it tunes the radio,
calls `u80211_send_probe_request` and waits for its timer, once; a scan that is over has done all of
it or, when the device was busy, nothing, and one that is cleaned up has done all of it. The radio
is on the channel when `u80211_send_probe_request` is called for it, unless a call to
`u80211_associate` takes the radio away. -/
theorem scan_sweeps_channels (h : Run own τ m) (k : Nat) :
    sweep k τ <+: permittedChannels.flatMap visit ∧
    (m.Cleans k → sweep k τ = permittedChannels.flatMap visit) ∧
    (¬ m.Outstanding k → sweep k τ = [] ∨ sweep k τ = permittedChannels.flatMap visit) ∧
    ((∀ t ∈ τ, ¬ Retunes t) → ∀ t ∈ τ, ∀ channel, visited k t = some (.probe channel) →
      t.before.radio = some channel) := by
  have hsweeps := Run.sweeps h
  obtain ⟨w, hw⟩ := Reachable.owner (Lts.Run.reachable h)
  have hother (hout : ¬ m.Outstanding k) :
      sweep k τ = [] ∨ sweep k τ = permittedChannels.flatMap visit :=
    hsweeps.other k fun x hx he => hout (hw.outstanding_iff.mpr ⟨x, hw.at_iff.mp hx, he⟩)
  have howner (hout : m.Outstanding k) : ∃ x o, w = some x ∧ x.Swept o (sweep k τ) := by
    obtain ⟨x, rfl, rfl⟩ := hw.outstanding_iff.mp hout
    obtain ⟨o, ho, -⟩ := hw.own x rfl
    exact ⟨x, o, rfl, hsweeps.owner x o (hw.at_iff.mpr rfl) ho⟩
  refine ⟨?_, fun hk => ?_, hother, fun hq t ht channel hv => ?_⟩
  · by_cases hout : m.Outstanding k
    · obtain ⟨x, o, -, hs⟩ := howner hout
      exact hs.isPrefix
    · rcases hother hout with hnil | hall
      · rw [hnil]
        exact List.nil_prefix
      · exact ⟨[], by rw [hall, List.append_nil]⟩
  · obtain ⟨x, o, hx, hs⟩ := howner (Or.inr (Or.inr hk))
    rcases hw.of_cleans hk with he | ⟨pc, he, -⟩
    · cases hx.symm.trans he
      exact hs.complete rfl
    · cases hx.symm.trans he
      exact hs.complete rfl
  · obtain ⟨τ₁, τ₂, rfl⟩ := List.append_of_mem ht
    obtain ⟨hr, -⟩ := Lts.Run.split h rfl
    obtain ⟨o, ho, hreceiving, rfl⟩ := receiving_of_probe (Lts.Run.reachable hr) hv
    have htuned := Run.tuned hr fun t' ht' => hq t' (List.mem_append_left _ ht')
    exact htuned.scan k o ho (Or.inl hreceiving)

open Machine.Scenario in
/-- A scan has reached its second channel. -/
def Scenario.swept : List Event :=
  .invoke .scan :: advance 0 8 ++ .expire 0 :: .startWork 0 :: work 0 4

open Machine.Scenario in
theorem scan_sweeps_channels_second :
    ∃ m, Scenario.run swept = some m ∧ m.scanContext = some 0 ∧
      sweep 0 (trace swept) = [.tune 1, .probe 1, .expire 1, .tune 2] ∧
      sweep 0 (trace swept) <+: permittedChannels.flatMap visit := by
  have hrun : (run swept).map (fun m => m.scanContext) = some (some 0) := by decide +kernel
  obtain ⟨m, hm, hcontext⟩ := exists_of_run hrun
  have hsweep : sweep 0 (trace swept) = [.tune 1, .probe 1, .expire 1, .tune 2] := by
    decide +kernel
  exact ⟨m, hm, hcontext, hsweep, (scan_sweeps_channels (run_trace hm) 0).1⟩

end Machine

end U80211
