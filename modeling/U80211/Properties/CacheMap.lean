import Mathlib.Data.Set.Card
import U80211.CacheSystem
import U80211.Lib.Lts
import U80211.Properties.CacheOps

/-!
# The cache is a finite map

* `CacheMap`: a map from addresses to access points, with the references that its users own
* `step_spec`: a call is enabled exactly when its caller may make it, and does what the map does
* `cache_refines_map`: **every sequence of calls is one of the map**, with the same answers, as long
  as the counters tell the numbers of references apart
* `cache_frees_owned`: what happens when a counter has gone around
-/

namespace U80211

/-! ## The map -/

/-- A map from addresses to access points, the references that its users own, whether it is in use,
and the answer of the last call. -/
structure CacheMap where
  entries : MacAddress → Option AccessPoint
  owned : AccessPoint → Nat
  alive : Bool
  answer : CacheAnswer

namespace CacheMap

open CacheSystem (give giveBack)

def init : CacheMap where
  entries := fun _ => none
  owned := fun _ => 0
  alive := true
  answer := .done

/-- The addresses that the map has an entry for. -/
def domain (m : CacheMap) : Set MacAddress := {mac | m.entries mac ≠ none}

noncomputable def size (m : CacheMap) : Nat := m.domain.ncard

/-- Somebody has a reference to the access point. -/
def InUse (m : CacheMap) (ap : AccessPoint) : Prop :=
  m.entries ap.macAddress = some ap ∨ 0 < m.owned ap

/-- The entries with the smallest addresses, as many as there is room for. -/
structure Smallest (m : CacheMap) (capacity : Nat) (aps : List AccessPoint) : Prop where
  length : aps.length = min capacity m.size
  increasing : aps.Pairwise fun a b => a.macAddress.toList < b.macAddress.toList
  entry : ∀ a ∈ aps, m.entries a.macAddress = some a
  smallest : ∀ a ∈ aps, ∀ b, m.entries b.macAddress = some b → b ∉ aps →
    a.macAddress.toList < b.macAddress.toList

/-- The calls that a caller may make. -/
def Enabled (m : CacheMap) : CacheAction → Prop
  | .allocate ap _ => ¬ m.InUse ap
  | .hold ap | .release ap => 0 < m.owned ap
  | .insert ap => m.alive = true ∧ 0 < m.owned ap
  | _ => m.alive = true

open Classical in
/-- What a call does to the map, and what it answers. -/
def Step (m m' : CacheMap) : CacheAction → Prop
  | .allocate ap _ => m' = { m with owned := give m.owned [ap], answer := .ap (some ap) }
  | .hold ap => m' = { m with owned := give m.owned [ap], answer := .done }
  | .release ap => m' = { m with owned := giveBack m.owned ap, answer := .done }
  | .insert ap =>
    m' = { m with
      entries := if m.entries ap.macAddress = none then
          Function.update m.entries ap.macAddress (some ap)
        else m.entries
      answer := .done }
  | .remove mac => m' = { m with entries := Function.update m.entries mac none, answer := .done }
  | .find mac =>
    m' = { m with owned := give m.owned (m.entries mac).toList, answer := .ap (m.entries mac) }
  | .getAps capacity =>
    ∃ aps, m.Smallest capacity aps ∧ m' = { m with owned := give m.owned aps, answer := .aps aps }
  | .getCount => m' = { m with answer := .count m.size }
  | .purge =>
    m' = { m with
      entries := fun mac => (m.entries mac).filter fun ap => m.owned ap ≠ 0
      answer := .done }
  | .deinit => m' = { m with entries := fun _ => none, alive := false, answer := .done }

/-- The sequences of calls, each of which its caller may make. -/
inductive Run : List CacheAction → CacheMap → Prop
  | nil : Run [] init
  | snoc {as : List CacheAction} {a : CacheAction} {m m' : CacheMap} :
      Run as m → m.Enabled a → m.Step m' a → Run (as ++ [a]) m'

end CacheMap

namespace CacheSystem

open Lts RedBlack RbTree

/-! ## Refinement -/

/-- The memory is that of the map: its tree has one node for each entry, the count and the counters
are right, and what is in memory is what somebody has a reference to. -/
structure Refines (s : CacheSystem) (m : CacheMap) : Prop where
  tree : ∃ T, IsTree s.cache.tree T ∧ Valid T ∧ (T.toList.map AccessPoint.macAddress).Nodup ∧
    ∀ ap, ap ∈ T.toList ↔ m.entries ap.macAddress = some ap
  address : ∀ mac ap, m.entries mac = some ap → ap.macAddress = mac
  finite : m.domain.Finite
  entryCount : s.cache.entryCount = m.size
  refcount : ∀ ap, s.cache.Allocated ap → s.cache.refcount ap =
    .ofNat ((if m.entries ap.macAddress = some ap then 1 else 0) + m.owned ap)
  allocated : ∀ ap, s.cache.Allocated ap ↔ m.InUse ap
  owned : s.owned = m.owned
  alive : s.cache.rwlock = m.alive
  answer : s.answer = m.answer

/-- The callers own fewer references to an access point than its counter has values. -/
def InRange (s : CacheSystem) : Prop := ∀ ap, s.owned ap < 2 ^ 32

/-- The map of a list of access points. -/
def mapOf (s : CacheSystem) (l : List AccessPoint) : CacheMap where
  entries := fun mac => l.find? (·.macAddress = mac)
  owned := s.owned
  alive := s.cache.rwlock
  answer := s.answer

variable {s s' : CacheSystem} {l l' : List AccessPoint} {a : CacheAction} {ap : AccessPoint}

/-- The map has an entry for every access point of the tree. -/
theorem mapOf_entry (h : s.cache.Represents l s.owned) :
    (s.mapOf l).entries ap.macAddress = some ap ↔ ap ∈ l := by
  rw [mapOf, h.find?_eq_some]
  exact and_iff_left rfl

theorem domain_mapOf : (s.mapOf l).domain = ↑(l.map AccessPoint.macAddress).toFinset := by
  ext mac
  simp [CacheMap.domain, mapOf]

/-- It has as many entries as the tree has nodes. -/
theorem size_mapOf (h : s.cache.Represents l s.owned) : (s.mapOf l).size = l.length := by
  rw [CacheMap.size, domain_mapOf, Set.ncard_coe_finset,
    List.toFinset_card_of_nodup h.nodup_addresses, List.length_map]

theorem count_eq (h : s.cache.Represents l s.owned) :
    l.count ap = if (s.mapOf l).entries ap.macAddress = some ap then 1 else 0 := by
  rw [h.nodup.count]
  simp only [mapOf_entry h]

/-- The cache and its callers together fit into the counter. -/
theorem countable_of_inRange (h : s.cache.Represents l s.owned) (hr : s.InRange) :
    BssCache.Countable l s.owned := by
  intro ap
  have hone : l.count ap ≤ 1 := List.nodup_iff_count_le_one.mp h.nodup ap
  have hlt := hr ap
  omega

/-- Up to the largest `int` the counter of an entry is the number of the references to it. -/
theorem Refines.refcount_toInt {m : CacheMap} (h : s.Refines m)
    (hentry : m.entries ap.macAddress = some ap) (hlt : 1 + m.owned ap < 2 ^ 31) :
    (s.cache.refcount ap).toInt = 1 + m.owned ap := by
  rw [h.refcount ap ((h.allocated ap).mpr (Or.inl hentry)), if_pos hentry,
    Int32.toInt_ofNat_of_lt hlt]
  push_cast
  rfl

/-- What is represented is the map. -/
theorem refines_mapOf (h : s.cache.Represents l s.owned) : s.Refines (s.mapOf l) := by
  obtain ⟨T, hT, hv, rfl⟩ := h.tree
  refine ⟨⟨T, hT, hv, h.nodup_addresses, fun ap => (mapOf_entry h).symm⟩, ?_, ?_, ?_, ?_, ?_, rfl,
    rfl, rfl⟩
  · intro mac ap hentry
    exact (h.find?_eq_some.mp hentry).2
  · rw [domain_mapOf]
    exact Finset.finite_toSet _
  · rw [h.entryCount, size_mapOf h]
  · intro ap hap
    rw [h.refcount ap hap, count_eq h]
    rfl
  · intro ap
    rw [h.allocated ap, CacheMap.InUse, mapOf_entry h, ← List.count_pos_iff]
    show _ ↔ _ ∨ 0 < s.owned ap
    omega

theorem mapOf_eq {m : CacheMap} (hentries : (s'.mapOf l').entries = m.entries)
    (howned : s'.owned = m.owned) (halive : s'.cache.rwlock = m.alive)
    (hanswer : s'.answer = m.answer) : s'.mapOf l' = m := by
  obtain ⟨entries, owned, alive, answer⟩ := m
  rw [CacheMap.mk.injEq]
  exact ⟨hentries, howned, halive, hanswer⟩

/-! ## Steps -/

/-- As a map, an insertion sets an entry. -/
theorem entries_insert {pre post : List AccessPoint}
    (hl : s.cache.Represents (pre ++ post) s.owned)
    (h' : s'.cache.Represents (pre ++ ap :: post) s'.owned) :
    (s'.mapOf (pre ++ ap :: post)).entries =
      Function.update (s.mapOf (pre ++ post)).entries ap.macAddress (some ap) := by
  funext mac
  refine Option.ext fun b => ?_
  rw [mapOf, h'.find?_eq_some]
  by_cases hmac : mac = ap.macAddress
  · subst hmac
    rw [Function.update_self, Option.some_inj]
    constructor
    · rintro ⟨hb, he⟩
      exact h'.unique (by simp) hb he.symm
    · rintro rfl
      exact ⟨by simp, rfl⟩
  · rw [Function.update_of_ne hmac, mapOf, hl.find?_eq_some]
    refine and_congr_left fun he => ?_
    have hne : b ≠ ap := by
      rintro rfl
      exact hmac he.symm
    simp [hne]

/-- As a map, a removal clears one. -/
theorem entries_remove {mac : MacAddress} (hl : s.cache.Represents l s.owned)
    (h' : s'.cache.Represents (l.filter (·.macAddress ≠ mac)) s'.owned) :
    (s'.mapOf (l.filter (·.macAddress ≠ mac))).entries =
      Function.update (s.mapOf l).entries mac none := by
  funext mac'
  refine Option.ext fun b => ?_
  rw [mapOf, h'.find?_eq_some, List.mem_filter, decide_eq_true_eq]
  by_cases hmac : mac' = mac
  · subst hmac
    rw [Function.update_self]
    refine iff_of_false ?_ (by simp)
    rintro ⟨⟨-, hne⟩, he⟩
    exact hne he
  · rw [Function.update_of_ne hmac, mapOf, hl.find?_eq_some]
    refine and_congr_left fun he => and_iff_left ?_
    rw [he]
    exact hmac

/-- As a map, the purge keeps what somebody owns. -/
theorem entries_purge (hl : s.cache.Represents l s.owned)
    (h' : s'.cache.Represents (l.filter (s.owned · ≠ 0)) s'.owned) :
    (s'.mapOf (l.filter (s.owned · ≠ 0))).entries =
      fun mac => ((s.mapOf l).entries mac).filter fun ap => s.owned ap ≠ 0 := by
  funext mac
  refine Option.ext fun b => ?_
  rw [mapOf, h'.find?_eq_some, List.mem_filter, Option.filter_eq_some_iff, mapOf,
    hl.find?_eq_some]
  tauto

/-- The first access points of the list are those with the smallest addresses. -/
theorem smallest_take (h : s.cache.Represents l s.owned) (capacity : Nat) :
    (s.mapOf l).Smallest capacity (l.take capacity) := by
  have hsorted : l.Pairwise fun a b => a.macAddress.toList < b.macAddress.toList :=
    h.sorted.imp macCompare_neg_iff.mp
  refine ⟨?_, hsorted.sublist (List.take_sublist _ _), ?_, ?_⟩
  · rw [List.length_take, size_mapOf h]
  · intro a ha
    exact (mapOf_entry h).mpr (List.mem_of_mem_take ha)
  · intro a ha b hb hnot
    rw [← List.take_append_drop capacity l, List.pairwise_append] at hsorted
    have hin := (mapOf_entry h).mp hb
    rw [← List.take_append_drop capacity l, List.mem_append] at hin
    exact hsorted.2.2 a ha b (hin.resolve_left hnot)

/-- A call that its caller may make is answered, and the map does the same. -/
theorem step_spec (h : s.cache.Represents l s.owned) (hn : BssCache.Countable l s.owned)
    (he : (s.mapOf l).Enabled a) :
    ∃ s' l', step a s = some s' ∧ s'.cache.Represents l' s'.owned ∧
      (s.mapOf l).Step (s'.mapOf l') a := by
  have hrounds : s.rounds = l.length + 2 := congrArg (· + 2) h.entryCount
  have hf : l.length + 2 ≤ s.rounds := hrounds.ge
  have hf' : l.length < s.rounds := by omega
  cases a with
  | allocate ap node =>
    have hnot : ¬ s.cache.Allocated ap := fun hap => he (((refines_mapOf h).allocated ap).mp hap)
    exact ⟨_, l, if_neg hnot, BssCache.apAllocate_spec h hnot node, rfl⟩
  | hold ap =>
    have hpos : 0 < s.owned ap := he
    obtain ⟨c, hc, hrep, -, -, hlock⟩ := h.held ((h.allocated ap).mpr (by omega))
    refine ⟨_, l, (if_neg hpos.ne').trans (bind_of hc _), hrep, ?_⟩
    exact mapOf_eq rfl rfl hlock rfl
  | release ap =>
    have hpos : 0 < s.owned ap := he
    obtain ⟨c, hc, hrep, -, hlock⟩ := h.released hn hpos
    refine ⟨_, l, (if_neg hpos.ne').trans (bind_of hc _), hrep, ?_⟩
    exact mapOf_eq rfl rfl hlock rfl
  | insert ap =>
    obtain ⟨hlock, hpos⟩ : s.cache.rwlock = true ∧ 0 < s.owned ap := he
    obtain ⟨c, l', hc, hrep, hlock', hold, hnew⟩ := BssCache.insert_spec h hlock hpos hf'
    refine ⟨{ s with cache := c, answer := .done }, l', (if_neg hpos.ne').trans (bind_of hc _),
      hrep, ?_⟩
    refine mapOf_eq ?_ rfl (hlock'.trans hlock.symm) rfl
    by_cases hfind : l.find? (·.macAddress = ap.macAddress) = none
    · obtain ⟨pre, post, rfl, rfl⟩ := hnew hfind
      exact (entries_insert h hrep).trans (if_pos hfind).symm
    · obtain ⟨rfl, rfl⟩ := hold hfind
      exact (if_neg hfind).symm
  | remove mac =>
    obtain ⟨c, hc, hrep, hlock⟩ := BssCache.remove_spec mac h hn he hf
    refine ⟨_, _, bind_of hc _, hrep, ?_⟩
    exact mapOf_eq (entries_remove h hrep) rfl (hlock.trans he.symm) rfl
  | find mac =>
    obtain ⟨c, hc, hrep, hlock⟩ := BssCache.find_spec mac h he hf'
    exact ⟨_, l, bind_of hc _, hrep, mapOf_eq rfl rfl (hlock.trans he.symm) rfl⟩
  | getAps capacity =>
    obtain ⟨c, hc, hrep, hlock⟩ := BssCache.getAps_spec capacity h he hf'
    refine ⟨_, l, bind_of hc _, hrep, l.take capacity, smallest_take h capacity, ?_⟩
    exact mapOf_eq rfl rfl (hlock.trans he.symm) rfl
  | getCount =>
    have hlock : s.cache.rwlock = true := he
    refine ⟨_, l, bind_of (if_pos hlock) _, h, ?_⟩
    refine mapOf_eq rfl rfl rfl ?_
    rw [size_mapOf h, ← h.entryCount]
  | purge =>
    obtain ⟨c, hc, hrep, hlock⟩ := BssCache.purge_spec h hn he hf
    refine ⟨_, _, bind_of hc _, hrep, ?_⟩
    exact mapOf_eq (entries_purge h hrep) rfl (hlock.trans he.symm) rfl
  | deinit =>
    obtain ⟨c, hc, hrep, hlock⟩ := BssCache.deinit_spec h hn he hf
    exact ⟨_, [], bind_of hc _, hrep, mapOf_eq rfl rfl hlock rfl⟩

/-- A call that its caller must not make is not enabled. -/
theorem enabled_of_step (h : s.cache.Represents l s.owned) (hs : step a s = some s') :
    (s.mapOf l).Enabled a := by
  have hlocked {β : Type} {x : Option β} {b : β} (hx : s.cache.locked x = some b) :
      s.cache.rwlock = true := by
    by_contra hlock
    rw [BssCache.locked, if_neg hlock] at hx
    cases hx
  cases a with
  | allocate ap node =>
    intro hin
    rw [step, if_pos (((refines_mapOf h).allocated ap).mpr hin)] at hs
    cases hs
  | hold ap =>
    refine Nat.pos_of_ne_zero fun hzero : s.owned ap = 0 => ?_
    rw [step, if_pos hzero] at hs
    cases hs
  | release ap =>
    refine Nat.pos_of_ne_zero fun hzero : s.owned ap = 0 => ?_
    rw [step, if_pos hzero] at hs
    cases hs
  | insert ap =>
    have hpos : s.owned ap ≠ 0 := by
      intro hzero
      rw [step, if_pos hzero] at hs
      cases hs
    rw [step, if_neg hpos] at hs
    obtain ⟨c, hc, -⟩ := Option.bind_eq_some_iff.mp hs
    exact ⟨hlocked hc, Nat.pos_of_ne_zero hpos⟩
  | remove mac | find mac | getAps capacity | getCount | purge | deinit =>
    obtain ⟨c, hc, -⟩ := Option.bind_eq_some_iff.mp hs
    exact hlocked hc

/-! ## Memory -/

/-- Only an allocation gives memory to an access point that nobody has a reference to. -/
theorem inUse_of_step {m m' : CacheMap} (hm : ∀ mac ap, m.entries mac = some ap →
    ap.macAddress = mac) (he : m.Enabled a) (hs : m.Step m' a) (hin : m'.InUse ap) :
    m.InUse ap ∨ ∃ node, a = .allocate ap node := by
  have hgive {aps : List AccessPoint} (haps : ∀ b ∈ aps, m.InUse b)
      (hpos : 0 < give m.owned aps ap) : m.InUse ap := by
    by_cases hmem : ap ∈ aps
    · exact haps ap hmem
    · rw [give, List.count_eq_zero.mpr hmem] at hpos
      exact Or.inr hpos
  cases a with
  | allocate ap₀ node =>
    cases hs
    by_cases hap : ap = ap₀
    · exact Or.inr ⟨node, by rw [hap]⟩
    · refine Or.inl (hin.imp_right fun hpos => ?_)
      change 0 < m.owned ap + [ap₀].count ap at hpos
      rwa [List.count_eq_zero.mpr (by simpa using hap)] at hpos
  | hold ap₀ =>
    cases hs
    refine Or.inl (hin.elim Or.inl (hgive ?_))
    rintro b hb
    rw [List.mem_singleton.mp hb]
    exact Or.inr he
  | release ap₀ =>
    cases hs
    refine Or.inl (hin.imp_right fun hpos => ?_)
    by_cases hap : ap = ap₀
    · rw [hap]
      exact he
    · change 0 < giveBack m.owned ap₀ ap at hpos
      rwa [giveBack, Function.update_of_ne hap] at hpos
  | insert ap₀ =>
    cases hs
    refine Or.inl (hin.elim (fun hentry => ?_) Or.inr)
    dsimp only at hentry
    split at hentry
    · by_cases hmac : ap.macAddress = ap₀.macAddress
      · rw [hmac, Function.update_self, Option.some_inj] at hentry
        rw [← hentry]
        exact Or.inr he.2
      · rw [Function.update_of_ne hmac] at hentry
        exact Or.inl hentry
    · exact Or.inl hentry
  | remove mac =>
    cases hs
    refine Or.inl (hin.imp_left fun hentry => ?_)
    dsimp only at hentry
    by_cases hmac : ap.macAddress = mac
    · rw [hmac, Function.update_self] at hentry
      cases hentry
    · rwa [Function.update_of_ne hmac] at hentry
  | find mac =>
    cases hs
    refine Or.inl (hin.elim Or.inl (hgive fun b hb => Or.inl ?_))
    rw [Option.mem_toList] at hb
    rw [hm mac b hb]
    exact hb
  | getAps capacity =>
    obtain ⟨aps, hsmall, rfl⟩ := hs
    exact Or.inl (hin.elim Or.inl (hgive fun b hb => Or.inl (hsmall.entry b hb)))
  | getCount =>
    cases hs
    exact Or.inl hin
  | purge =>
    cases hs
    exact Or.inl (hin.imp_left fun hentry => (Option.filter_eq_some_iff.mp hentry).1)
  | deinit =>
    cases hs
    exact Or.inl (hin.resolve_left (by simp) |> Or.inr)

/-- The call allocates the access point. -/
def allocates (ap : AccessPoint) (t : Transition CacheSystem CacheAction) : Bool :=
  match t.action with
  | .allocate ap' _ => ap' = ap
  | _ => false

/-- The call frees the access point. -/
def frees (ap : AccessPoint) (t : Transition CacheSystem CacheAction) : Bool :=
  t.before.cache.Allocated ap ∧ ¬ t.after.cache.Allocated ap

theorem init_represents : init.cache.Represents [] init.owned :=
  ⟨⟨.nil, ⟨rfl, trivial, List.nodup_nil⟩, ⟨rfl, 0, .nil⟩, rfl⟩, .nil, rfl,
    fun _ hap => absurd rfl hap, fun _ => iff_of_false (fun hap => hap rfl) (by simp [init])⟩

/-- A call changes what is in memory as it allocates and frees. -/
theorem count_step (ap : AccessPoint) (h : s.cache.Represents l s.owned)
    (h' : s'.cache.Represents l' s'.owned)
    (he : (s.mapOf l).Enabled a) (hs : (s.mapOf l).Step (s'.mapOf l') a) :
    ((if frees ap ⟨s, a, s'⟩ then 1 else 0) + if s'.cache.Allocated ap then 1 else 0) =
      (if s.cache.Allocated ap then 1 else 0) + if allocates ap ⟨s, a, s'⟩ then 1 else 0 := by
  have hbefore := (refines_mapOf h).allocated ap
  have hafter := (refines_mapOf h').allocated ap
  have hfrees : frees ap ⟨s, a, s'⟩ = true ↔ s.cache.Allocated ap ∧ ¬ s'.cache.Allocated ap :=
    decide_eq_true_iff
  by_cases hallocates : allocates ap ⟨s, a, s'⟩ = true
  · -- the memory has not been in use
    obtain ⟨node, rfl⟩ : ∃ node, a = .allocate ap node := by
      cases a with
      | allocate ap' node => exact ⟨node, by rw [of_decide_eq_true hallocates]⟩
      | _ => cases hallocates
    have hnot : ¬ s.cache.Allocated ap := fun hap => he (hbefore.mp hap)
    have hin : s'.cache.Allocated ap := by
      refine hafter.mpr (Or.inr ?_)
      rw [show (s'.mapOf l').owned = give (s.mapOf l).owned [ap] from
        congrArg CacheMap.owned hs, give, List.count_singleton_self]
      omega
    rw [if_pos hallocates, if_pos hin, if_neg hnot, if_neg fun hf => hnot (hfrees.mp hf).1]
  · rw [if_neg hallocates]
    have hkept : s'.cache.Allocated ap → s.cache.Allocated ap := by
      intro hin
      rcases inUse_of_step (refines_mapOf h).address he hs (hafter.mp hin) with hin | ⟨node, rfl⟩
      · exact hbefore.mpr hin
      · exact absurd (decide_eq_true rfl) hallocates
    by_cases hs' : s'.cache.Allocated ap
    · rw [if_pos hs', if_pos (hkept hs'), if_neg fun hf => (hfrees.mp hf).2 hs']
    · by_cases hs₀ : s.cache.Allocated ap
      · rw [if_neg hs', if_pos hs₀, if_pos (hfrees.mpr ⟨hs₀, hs'⟩)]
      · rw [if_neg hs', if_neg hs₀, if_neg fun hf => hs₀ (hfrees.mp hf).1]

/-- Every call gives its caller one reference to an access point at most. -/
theorem owned_le_of_step {m m' : CacheMap} (hs : m.Step m' a) (ap : AccessPoint) :
    m'.owned ap ≤ m.owned ap + 1 := by
  have hgive {aps : List AccessPoint} (haps : aps.Nodup) :
      give m.owned aps ap ≤ m.owned ap + 1 :=
    Nat.add_le_add_left (List.nodup_iff_count_le_one.mp haps ap) _
  cases a with
  | allocate ap₀ node =>
    cases hs
    exact hgive (List.nodup_singleton ap₀)
  | hold ap₀ =>
    cases hs
    exact hgive (List.nodup_singleton ap₀)
  | find mac =>
    cases hs
    refine hgive ?_
    cases m.entries mac with
    | none => exact List.nodup_nil
    | some found => exact List.nodup_singleton found
  | getAps capacity =>
    obtain ⟨aps, hsmall, rfl⟩ := hs
    refine hgive (hsmall.increasing.imp fun hlt he => ?_)
    rw [he] at hlt
    exact List.lt_irrefl _ hlt
  | release ap₀ =>
    cases hs
    by_cases hap : ap = ap₀
    · subst hap
      simp only [giveBack, Function.update_self]
      omega
    · simp only [giveBack, Function.update_of_ne hap]
      omega
  | insert | remove | getCount | purge | deinit =>
    cases hs
    exact Nat.le_succ _

/-- What holds of a run as long as the counters are in range. -/
structure Follows (τ : List (Transition CacheSystem CacheAction)) (s : CacheSystem)
    (l : List AccessPoint) : Prop where
  represents : s.cache.Represents l s.owned
  run : CacheMap.Run (τ.map (·.action)) (s.mapOf l)
  count : ∀ ap, τ.countP (allocates ap) = τ.countP (frees ap) +
    if s.cache.Allocated ap then 1 else 0

theorem follows_init : Follows [] init [] := ⟨init_represents, .nil, fun _ => rfl⟩

/-- One more operation, which gives away one reference at most. -/
theorem Follows.step {τ : List (Transition CacheSystem CacheAction)} (h : Follows τ s l)
    (hr : s.InRange) (hs : CacheSystem.step a s = some s') :
    ∃ l', Follows (τ ++ [⟨s, a, s'⟩]) s' l' ∧ ∀ ap, s'.owned ap ≤ s.owned ap + 1 := by
  have he := enabled_of_step h.represents hs
  obtain ⟨s₁, l', hs', hrep', hstep⟩ :=
    step_spec h.represents (countable_of_inRange h.represents hr) he
  cases hs.symm.trans hs'
  refine ⟨l', ⟨hrep', ?_, fun ap => ?_⟩, owned_le_of_step hstep⟩
  · rw [List.map_append]
    exact h.run.snoc he hstep
  · rw [List.countP_append, List.countP_append, h.count ap, List.countP_singleton,
      List.countP_singleton]
    have hone := count_step ap h.represents hrep' he hstep
    omega

theorem inRange_init : init.InRange := fun _ => Nat.two_pow_pos 32

/-- A run follows the map as long as the counters fit. -/
theorem Run.follows {τ : List (Transition CacheSystem CacheAction)} (h : Lts.Run step init τ s)
    (hr : ∀ t ∈ τ, t.after.InRange) : s.InRange ∧ ∃ l, Follows τ s l := by
  induction h with
  | nil => exact ⟨inRange_init, [], follows_init⟩
  | snoc _ hs ih =>
    obtain ⟨hrange, l, hf⟩ := ih fun t ht => hr t (List.mem_append_left _ ht)
    obtain ⟨l', hf', -⟩ := hf.step hrange hs
    exact ⟨hr _ (List.mem_append_right _ (List.mem_singleton.mpr rfl)), l', hf'⟩

/-- The counters are in range for the first `2 ^ 32 - 1` calls. -/
theorem Run.inRange {τ : List (Transition CacheSystem CacheAction)} (h : Lts.Run step init τ s)
    (hlen : τ.length < 2 ^ 32) : ∀ t ∈ τ, t.after.InRange := by
  suffices hall : (∀ t ∈ τ, t.after.InRange) ∧ ∀ ap, s.owned ap ≤ τ.length from hall.1
  induction h with
  | nil => exact ⟨fun t ht => absurd ht List.not_mem_nil, fun ap => Nat.le_refl 0⟩
  | @snoc τ s s' a hrun hs ih =>
    rw [List.length_append, List.length_singleton] at hlen
    obtain ⟨hbefore, hle⟩ := ih (by omega)
    obtain ⟨hrange, l, hf⟩ := Run.follows hrun hbefore
    obtain ⟨-, -, hstep⟩ := hf.step hrange hs
    have hle' : ∀ ap, s'.owned ap ≤ τ.length + 1 := fun ap =>
      (hstep ap).trans (Nat.add_le_add_right (hle ap) 1)
    refine ⟨fun t ht => ?_, fun ap => by simpa using hle' ap⟩
    rcases List.mem_append.mp ht with ht | ht
    · exact hbefore t ht
    · rw [List.mem_singleton.mp ht]
      exact fun ap => Nat.lt_of_le_of_lt (hle' ap) hlen

/-- **The cache is a finite map.** Whatever sequence of calls has been made, if the callers never
owned `2 ^ 32` references to an access point, the map has made it with the same answers and the
memory is that of the map; every call that its caller may make is answered; and each access point
has been freed once for each time it was allocated, unless somebody still has a reference to it. -/
theorem cache_refines_map {τ : List (Transition CacheSystem CacheAction)}
    (h : Lts.Run step init τ s) (hr : ∀ t ∈ τ, t.after.InRange) :
    ∃ m, CacheMap.Run (τ.map (·.action)) m ∧ s.Refines m ∧
      (∀ a, m.Enabled a ↔ ∃ s', step a s = some s') ∧
      ∀ ap, τ.countP (allocates ap) = τ.countP (frees ap) +
        if s.cache.Allocated ap then 1 else 0 := by
  obtain ⟨hrange, l, hf⟩ := Run.follows h hr
  refine ⟨s.mapOf l, hf.run, refines_mapOf hf.represents, fun a => ⟨fun he => ?_, ?_⟩, hf.count⟩
  · obtain ⟨s', -, hs, -⟩ :=
      step_spec hf.represents (countable_of_inRange hf.represents hrange) he
    exact ⟨s', hs⟩
  · rintro ⟨s', hs⟩
    exact enabled_of_step hf.represents hs

namespace Scenario

/-- The station that answers, for the examples. -/
def station : AccessPoint where
  object := 0
  macAddress := ⟨[2, 0, 0, 0, 0, 1], rfl⟩
  interval := 100
  capabilities := 1
  channel := 6
  rateBitmap := ⟨List.replicate 16 0, rfl⟩
  ssid := ⟨List.replicate 33 0, rfl⟩
  rsn := []

/-- What the allocator leaves in its tree node. -/
def node : RbNode AccessPoint :=
  { left := none, right := none, parent := none, colour := .black }

/-- A caller allocates and inserts the station and looks it up again and again. -/
def lookups (n : Nat) : List CacheAction :=
  .allocate station node :: .insert station :: List.replicate n (.find station.macAddress)

theorem lookups_succ (n : Nat) : lookups (n + 1) = lookups n ++ [.find station.macAddress] := by
  rw [lookups, List.replicate_succ', lookups, List.cons_append, List.cons_append]

end Scenario

theorem cache_refines_map_once :
    ∃ τ s m, Lts.Run step init τ s ∧ τ.length = 4 ∧ CacheMap.Run (τ.map (·.action)) m ∧
      s.Refines m ∧ s.answer = .aps [Scenario.station] := by
  let as : List CacheAction :=
    [.allocate Scenario.station Scenario.node, .insert Scenario.station, .purge, .getAps 3]
  have hexec : ((Lts.exec step as init).map (·.answer)) = some (.aps [Scenario.station]) := by
    decide
  obtain ⟨s, hs, hanswer⟩ := Option.map_eq_some_iff.mp hexec
  have hrun := exec_run hs
  have hlen : (Lts.trace step as init).length = 4 := by decide
  obtain ⟨m, hm, hrefines, -⟩ :=
    cache_refines_map hrun (Run.inRange hrun (by rw [hlen]; decide))
  exact ⟨_, s, m, hrun, hlen, hm, hrefines, hanswer⟩

section Scenario

open CacheSystem.Scenario

/-- The station is the only entry, and every look-up has given the caller a reference, however often
the counter has gone around. -/
theorem lookups_run (n : Nat) : ∃ τ s, Lts.Run step init τ s ∧ τ.map (·.action) = lookups n ∧
    s.cache.Represents [station] s.owned ∧ s.cache.rwlock = true ∧ s.owned station = n + 1 := by
  induction n with
  | zero =>
    have hfree : ¬ init.cache.Allocated station := fun h => h rfl
    have hnew := BssCache.apAllocate_spec init_represents hfree node
    have hpos : 0 < give init.owned [station] station := by decide
    have hrounds : ([] : List AccessPoint).length < 2 := by decide
    obtain ⟨c, l, hc, hrep, hlock, -, hinserted⟩ := BssCache.insert_spec hnew rfl hpos hrounds
    obtain ⟨pre, post, hnil, rfl⟩ := hinserted rfl
    obtain ⟨rfl, rfl⟩ := List.nil_eq_append_iff.mp hnil
    have hallocated : step (.allocate station node) init =
        some { cache := init.cache.apAllocate station node, owned := give init.owned [station],
               answer := .ap (some station) } := by
      rw [step, if_neg hfree]
    have hinsert : step (.insert station)
        { cache := init.cache.apAllocate station node, owned := give init.owned [station],
          answer := .ap (some station) } =
        some { cache := c, owned := give init.owned [station], answer := .done } := by
      rw [step, if_neg hpos.ne']
      exact bind_of hc _
    exact ⟨_, _, (Lts.Run.nil.snoc hallocated).snoc hinsert, rfl, hrep, hlock, rfl⟩
  | succ n ih =>
    obtain ⟨τ, s, hrun, hactions, hrep, hlock, howned⟩ := ih
    have hrounds : [station].length < s.rounds := by
      rw [rounds, hrep.entryCount]
      decide
    obtain ⟨c, hc, hrep', hlock'⟩ := BssCache.find_spec station.macAddress hrep hlock hrounds
    have hfound : step (.find station.macAddress) s = _ := bind_of hc _
    refine ⟨_, _, hrun.snoc hfound, ?_, hrep', hlock', ?_⟩
    · rw [List.map_append, hactions, lookups_succ]
      rfl
    · show s.owned station + 1 = n + 1 + 1
      rw [howned]

/-- **An access point is freed while it is an entry and callers own references to it**, when one of
`2 ^ 32` references is given back: with the one of the cache the counter has gone around. -/
theorem cache_frees_owned :
    ∃ τ s, Lts.Run step init τ s ∧
      τ.map (·.action) = lookups (2 ^ 32 - 1) ++ [.release station] ∧
      s.owned station = 2 ^ 32 - 1 ∧ s.cache.tree.root = some station ∧
      ¬ s.cache.Allocated station ∧ ¬ ∃ m, s.Refines m := by
  obtain ⟨τ, s, hrun, hactions, hrep, -, howned⟩ := lookups_run (2 ^ 32 - 1)
  have hone : [station].count station = 1 := List.count_singleton_self
  have halloc : s.cache.Allocated station := (hrep.allocated station).mpr (by omega)
  -- the counter is 1, as it is for a single reference
  have hcount : s.cache.refcount station = 1 := by
    rw [hrep.refcount station halloc, hone, howned]
    decide
  have hroot : s.cache.tree.root = some station := by
    obtain ⟨T, hT, -, hlist⟩ := hrep.tree
    cases hr : s.cache.tree.root with
    | none =>
      rw [CTree.eq_nil_of_root (hT.root.symm.trans hr)] at hlist
      cases hlist
    | some r =>
      have hr := CTree.mem_of_root (hT.root.symm.trans hr)
      rw [hlist] at hr
      rw [List.mem_singleton.mp hr]
  have howned' : s.owned station ≠ 0 := by omega
  obtain ⟨c, hc, hsame, hfreed⟩ := BssCache.apRelease_one halloc hcount
  have hstep : step (.release station) s =
      some { cache := c, owned := giveBack s.owned station, answer := .done } :=
    (if_neg howned').trans (bind_of hc _)
  have hleft : giveBack s.owned station station = 2 ^ 32 - 1 := by
    rw [giveBack, Function.update_self, howned]
    omega
  refine ⟨_, _, hrun.snoc hstep, ?_, hleft, hsame.trans hroot, hfreed, ?_⟩
  · rw [List.map_append, hactions]
    rfl
  · rintro ⟨m, hm⟩
    refine hfreed ((hm.allocated station).mpr (Or.inr ?_))
    rw [← hm.owned]
    show 0 < giveBack s.owned station station
    omega

end Scenario

end CacheSystem

end U80211
