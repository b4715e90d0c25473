import Mathlib.Data.List.Infix
import U80211.Properties.IntrusiveList

/-!
# Lists refine sequences

* `ListCall.Run`: what the calls do to sequences, as long as every node is in one list at most
* `IntrusiveLists.Represents`: the memory holds the sequences
* `Represents.performs`, `calls_left`: one call, and any sequence of calls
* `Represents.forEachSafe`: a loop whose body takes the visited node out
* `intrusive_lists_refine_sequences`: **what one finds in memory is the sequence**, and a safe loop
  meets all of it
-/

namespace U80211

open IntrusiveList

variable {ι α : Type}

/-! ## Sequences -/

namespace ListCall

/-- The list that a call is made with. -/
def list : ListCall ι α → ι
  | .pushFront i _ | .pushBack i _ | .remove i _ | .popFront i | .popBack i => i

/-- The node that a call links in. -/
def pushed : ListCall ι α → Option α
  | .pushFront _ node | .pushBack _ node => some node
  | _ => none

/-- The node that a call takes out of a list. -/
def removed (xs : List α) : ListCall ι α → Option α
  | .remove _ node => some node
  | .popFront _ => xs.head?
  | .popBack _ => xs.getLast?
  | _ => none

/-- The node that a call answers. -/
def answer (xs : List α) : ListCall ι α → Option α
  | .popFront _ => xs.head?
  | .popBack _ => xs.getLast?
  | _ => none

/-- Only a node in memory that is in no list is linked in, and only one in the list removed. -/
def Allowed (nodes : α → Option (ListNode α)) (seqs : ι → List α) : ListCall ι α → Prop
  | .pushFront _ node | .pushBack _ node => nodes node ≠ none ∧ ∀ i, node ∉ seqs i
  | .remove i node => node ∈ seqs i
  | .popFront _ | .popBack _ => True

variable [DecidableEq α]

/-- What a call makes of its list. -/
def result (xs : List α) : ListCall ι α → List α
  | .pushFront _ node => node :: xs
  | .pushBack _ node => xs ++ [node]
  | .remove _ node => xs.erase node
  | .popFront _ => xs.tail
  | .popBack _ => xs.dropLast

variable [DecidableEq ι]

/-- What a call makes of the sequences. -/
def apply (seqs : ι → List α) (c : ListCall ι α) : ι → List α :=
  Function.update seqs c.list (c.result (seqs c.list))

/-- Calls from empty lists on, and the sequences that they leave. -/
inductive Run (nodes : α → Option (ListNode α)) : List (ListCall ι α) → (ι → List α) → Prop where
  | init : Run nodes [] fun _ => []
  | call {cs : List (ListCall ι α)} {seqs : ι → List α} {c : ListCall ι α} :
    Run nodes cs seqs → c.Allowed nodes seqs → Run nodes (cs ++ [c]) (c.apply seqs)

variable {nodes : α → Option (ListNode α)} {seqs : ι → List α} {c : ListCall ι α} {xs : List α}
  {x : α}

omit [DecidableEq ι] in
instance [∀ x, Decidable (∀ i, x ∉ seqs i)] : Decidable (c.Allowed nodes seqs) :=
  match c with
  | .pushFront _ node | .pushBack _ node =>
    inferInstanceAs (Decidable (nodes node ≠ none ∧ ∀ i, node ∉ seqs i))
  | .remove i node => inferInstanceAs (Decidable (node ∈ seqs i))
  | .popFront _ | .popBack _ => inferInstanceAs (Decidable True)

omit [DecidableEq ι] [DecidableEq α] in
/-- What is pushed is a node that stands in no list. -/
theorem Allowed.pushed (h : c.Allowed nodes seqs) (hx : c.pushed = some x) :
    nodes x ≠ none ∧ ∀ i, x ∉ seqs i := by
  cases c <;> cases hx <;> exact h

omit [DecidableEq ι] [DecidableEq α] in
theorem Allowed.congr {nodes' : α → Option (ListNode α)} (h : c.Allowed nodes seqs)
    (hn : ∀ y, nodes' y = none ↔ nodes y = none) : c.Allowed nodes' seqs := by
  cases c with
  | pushFront i node | pushBack i node => exact ⟨mt (hn node).mp h.1, h.2⟩
  | remove i node => exact h
  | popFront i | popBack i => trivial

omit [DecidableEq ι] in
/-- A call loses no node: what was in its list or is linked in is in the list or taken out. -/
theorem mem_result_or_removed (hx : x ∈ xs ∨ c.pushed = some x) :
    x ∈ c.result xs ∨ c.removed xs = some x := by
  cases c with
  | pushFront i node => simpa [pushed, result, removed, eq_comm, or_comm] using hx
  | pushBack i node => simpa [pushed, result, removed, eq_comm] using hx
  | remove i node =>
    rcases eq_or_ne x node with rfl | hne
    · exact Or.inr rfl
    · simpa [pushed, result, removed, List.mem_erase_of_ne hne, hne.symm] using hx
  | popFront i =>
    cases xs with
    | nil => simp [pushed] at hx
    | cons y ys => simpa [pushed, result, removed, eq_comm, or_comm] using hx
  | popBack i =>
    rcases List.eq_nil_or_concat xs with rfl | ⟨ys, y, rfl⟩
    · simp [pushed] at hx
    · simpa [pushed, result, removed, eq_comm] using hx

omit [DecidableEq ι] in
/-- A call adds no element but the one that it pushes. -/
theorem mem_of_mem_result (hx : x ∈ c.result xs) : x ∈ xs ∨ c.pushed = some x := by
  cases c with
  | pushFront i node => simpa [pushed, result, eq_comm, or_comm] using hx
  | pushBack i node => simpa [pushed, result, eq_comm] using hx
  | remove i node => exact Or.inl (List.mem_of_mem_erase hx)
  | popFront i => exact Or.inl (List.mem_of_mem_tail hx)
  | popBack i => exact Or.inl (List.mem_of_mem_dropLast hx)

theorem apply_self : c.apply seqs c.list = c.result (seqs c.list) := Function.update_self ..

theorem apply_of_ne {i : ι} (h : i ≠ c.list) : c.apply seqs i = seqs i :=
  Function.update_of_ne h ..

end ListCall

/-! ## One call -/

namespace IntrusiveLists

variable [DecidableEq ι] [DecidableEq α] {s s' : IntrusiveLists ι α} {seqs : ι → List α}
  {c : ListCall ι α} {xs : List α} {nodes : α → Option (ListNode α)}

/-- What a call does to its list, and that it leaves all other nodes as they are. -/
theorem call_spec (h : (s.list c.list).IsList (seqs c.list)) (hc : c.Allowed s.nodes seqs) :
    ∃ list, s.call c = some (s.setList c.list list, c.answer (seqs c.list)) ∧
      list.IsList (c.result (seqs c.list)) ∧
      (∀ x, c.removed (seqs c.list) = some x →
        list.nodes x = some { prev := none, next := none }) ∧
      ∀ y, y ∉ seqs c.list → c.pushed ≠ some y → list.nodes y = s.nodes y := by
  cases c with
  | pushFront i node =>
    obtain ⟨list, hpush, hlist, hframe⟩ := pushFront_links h hc.1 (hc.2 i)
    refine ⟨list, congrArg (Option.map _) hpush, hlist, nofun, fun y hy hne => hframe y ?_⟩
    rw [List.mem_cons, not_or]
    exact ⟨fun he => hne (congrArg some he.symm), hy⟩
  | pushBack i node =>
    obtain ⟨list, hpush, hlist, hframe⟩ := pushBack_links h hc.1 (hc.2 i)
    refine ⟨list, congrArg (Option.map _) hpush, hlist, nofun, fun y hy hne => hframe y ?_⟩
    rw [List.mem_append, List.mem_singleton, not_or]
    exact ⟨hy, fun he => hne (congrArg some he.symm)⟩
  | remove i node =>
    obtain ⟨list, hremove, hlist, hnode, hframe⟩ := remove_erase h hc
    refine ⟨list, congrArg (Option.map _) hremove, hlist, ?_, fun y hy _ => hframe y hy⟩
    rintro x ⟨⟩
    exact hnode
  | popFront i =>
    obtain ⟨list, hpop, hlist, hnode, hframe⟩ := popFront_links h
    exact ⟨list, congrArg (Option.map _) hpop, hlist, hnode, fun y hy _ => hframe y hy⟩
  | popBack i =>
    obtain ⟨list, hpop, hlist, hnode, hframe⟩ := popBack_links h
    exact ⟨list, congrArg (Option.map _) hpop, hlist, hnode, fun y hy _ => hframe y hy⟩

/-! ## Representation -/

/-- The memory holds the sequences, and no node in two of them. -/
structure Represents (s : IntrusiveLists ι α) (seqs : ι → List α) : Prop where
  lists : ∀ i, (s.list i).IsList (seqs i)
  disjoint : ∀ {i j x}, x ∈ seqs i → x ∈ seqs j → i = j

omit [DecidableEq α] in
@[simp] theorem setList_list_self (i : ι) (list : IntrusiveList α) :
    (s.setList i list).list i = list := by
  simp [setList, IntrusiveLists.list]

omit [DecidableEq α] in
theorem setList_list_of_ne {i j : ι} (h : j ≠ i) (list : IntrusiveList α) :
    (s.setList i list).list j = { s.list j with nodes := list.nodes } := by
  simp [setList, IntrusiveLists.list, h]

omit [DecidableEq α] in
/-- A change of one list that leaves the nodes of the others alone. -/
theorem Represents.setList (h : s.Represents seqs) {i : ι} {list : IntrusiveList α}
    (hlist : list.IsList xs)
    (hframe : ∀ j, j ≠ i → ∀ y ∈ seqs j, y ∉ xs ∧ list.nodes y = s.nodes y) :
    (s.setList i list).Represents (Function.update seqs i xs) where
  lists j := by
    rcases eq_or_ne j i with rfl | hj
    · rwa [Function.update_self, setList_list_self]
    · rw [Function.update_of_ne hj, setList_list_of_ne hj]
      obtain ⟨hhead, htail, hsegment, hnodup⟩ := h.lists j
      exact ⟨hhead, htail, hsegment.congr fun y hy => (hframe j hj y hy).2, hnodup⟩
  disjoint {j k x} hxj hxk := by
    by_contra hjk
    rcases eq_or_ne j i with rfl | hj
    · rw [Function.update_self] at hxj
      rw [Function.update_of_ne (Ne.symm hjk)] at hxk
      exact (hframe k (Ne.symm hjk) x hxk).1 hxj
    · rw [Function.update_of_ne hj] at hxj
      rcases eq_or_ne k i with rfl | hk
      · rw [Function.update_self] at hxk
        exact (hframe j hj x hxj).1 hxk
      · rw [Function.update_of_ne hk] at hxk
        exact hjk (h.disjoint hxj hxk)

/-- What a call does: the lists hold what it makes of the sequences, it answers what is taken out,
whose links are `NULL` afterwards, and it does not touch a node outside its list. -/
structure Performs (s : IntrusiveLists ι α) (seqs : ι → List α) (c : ListCall ι α)
    (s' : IntrusiveLists ι α) : Prop where
  call : s.call c = some (s', c.answer (seqs c.list))
  represents : s'.Represents (c.apply seqs)
  removed : ∀ x, c.removed (seqs c.list) = some x →
    s'.nodes x = some { prev := none, next := none }
  frame : ∀ y, y ∉ seqs c.list → c.pushed ≠ some y → s'.nodes y = s.nodes y

/-- Every call that is allowed is performed. -/
theorem Represents.performs (h : s.Represents seqs) (hc : c.Allowed s.nodes seqs) :
    ∃ s', s.Performs seqs c s' := by
  obtain ⟨list, hcall, hlist, hremoved, hframe⟩ := call_spec (h.lists c.list) hc
  refine ⟨_, hcall, h.setList hlist fun j hj y hy => ?_, hremoved, hframe⟩
  have hlist : y ∉ seqs c.list := fun hmem => hj (h.disjoint hy hmem)
  have hpushed : c.pushed ≠ some y := fun hp => (hc.pushed hp).2 j hy
  refine ⟨fun hmem => ?_, hframe y hlist hpushed⟩
  exact (ListCall.mem_of_mem_result hmem).elim hlist hpushed

omit [DecidableEq ι] [DecidableEq α] in
theorem Represents.allocated (h : s.Represents seqs) {i : ι} {x : α} (hx : x ∈ seqs i) :
    s.nodes x ≠ none :=
  (h.lists i).segment.allocated hx

/-- Nodes stay in memory. -/
theorem Performs.none_iff (hp : s.Performs seqs c s') (h : s.Represents seqs)
    (hc : c.Allowed s.nodes seqs) (y : α) : s'.nodes y = none ↔ s.nodes y = none := by
  by_cases hy : y ∈ seqs c.list ∨ c.pushed = some y
  · refine iff_of_false ?_ ?_
    · rcases ListCall.mem_result_or_removed hy with hmem | hremoved
      · rw [← ListCall.apply_self] at hmem
        exact hp.represents.allocated hmem
      · rw [hp.removed y hremoved]
        exact Option.some_ne_none _
    · exact hy.elim h.allocated fun hpushed => (hc.pushed hpushed).1
  · rw [not_or] at hy
    rw [hp.frame y hy.1 hy.2]

/-! ## Any sequence of calls -/

theorem calls_concat (s : IntrusiveLists ι α) (cs : List (ListCall ι α)) (c : ListCall ι α) :
    s.calls (cs ++ [c]) = (s.calls cs).bind fun s => (s.call c).map Prod.fst := by
  induction cs generalizing s with
  | nil => cases hc : s.call c <;> simp [calls, hc]
  | cons d cs ih => cases hd : s.call d <;> simp [calls, hd, ih]

/-- What stands in a list has been pushed. -/
theorem mem_pushed {cs : List (ListCall ι α)} (h : ListCall.Run nodes cs seqs) {i : ι} {x : α}
    (hx : x ∈ seqs i) : ∃ c ∈ cs, c.pushed = some x := by
  induction h generalizing i with
  | init => exact absurd hx List.not_mem_nil
  | @call cs seqs c _ _ ih =>
    have hold : ∀ {i}, x ∈ seqs i → ∃ d ∈ cs ++ [c], d.pushed = some x := by
      intro i hi
      obtain ⟨d, hd, hpushed⟩ := ih hi
      exact ⟨d, List.mem_append_left _ hd, hpushed⟩
    rcases eq_or_ne i c.list with rfl | hi
    · rw [ListCall.apply_self] at hx
      rcases ListCall.mem_of_mem_result hx with hmem | hpushed
      · exact hold hmem
      · exact ⟨c, by simp, hpushed⟩
    · rw [ListCall.apply_of_ne hi] at hx
      exact hold hx

/-- What the calls have left: the sequences, and the nodes that are in none of them. One that has
been in a list is linked to nothing, any other is as it was at first. -/
structure Left (nodes : α → Option (ListNode α)) (cs : List (ListCall ι α)) (seqs : ι → List α)
    (s : IntrusiveLists ι α) : Prop where
  represents : s.Represents seqs
  none_iff : ∀ y, s.nodes y = none ↔ nodes y = none
  unlinked : ∀ y, (∀ i, y ∉ seqs i) → (∃ c ∈ cs, c.pushed = some y) →
    s.nodes y = some { prev := none, next := none }
  untouched : ∀ y, (∀ c ∈ cs, c.pushed ≠ some y) → s.nodes y = nodes y

/-- One more call leaves the removed nodes unlinked. -/
theorem Left.call {cs : List (ListCall ι α)} (h : s.Left nodes cs seqs)
    (hrun : ListCall.Run nodes cs seqs) (hc : c.Allowed s.nodes seqs)
    (hp : s.Performs seqs c s') : s'.Left nodes (cs ++ [c]) (c.apply seqs) where
  represents := hp.represents
  none_iff y := (hp.none_iff h.represents hc y).trans (h.none_iff y)
  unlinked y hout hpushed := by
    have hresult : y ∉ c.result (seqs c.list) := by
      rw [← ListCall.apply_self]
      exact hout c.list
    by_cases hy : y ∈ seqs c.list ∨ c.pushed = some y
    · exact hp.removed y ((ListCall.mem_result_or_removed hy).resolve_left hresult)
    · rw [not_or] at hy
      rw [hp.frame y hy.1 hy.2]
      refine h.unlinked y (fun i => ?_) ?_
      · rcases eq_or_ne i c.list with rfl | hi
        · exact hy.1
        · have hi' := hout i
          rwa [ListCall.apply_of_ne hi] at hi'
      · obtain ⟨d, hd, hpushed⟩ := hpushed
        rcases List.mem_append.mp hd with hd | hd
        · exact ⟨d, hd, hpushed⟩
        · cases List.mem_singleton.mp hd
          exact absurd hpushed hy.2
  untouched y hnever := by
    have hcs : ∀ d ∈ cs, d.pushed ≠ some y := fun d hd => hnever d (List.mem_append_left _ hd)
    have hy : y ∉ seqs c.list := fun hmem => by
      obtain ⟨d, hd, hpushed⟩ := mem_pushed hrun hmem
      exact hcs d hd hpushed
    rw [hp.frame y hy (hnever c (by simp))]
    exact h.untouched y hcs

theorem calls_left {cs : List (ListCall ι α)} (h : ListCall.Run nodes cs seqs) :
    ∃ s, (init nodes).calls cs = some s ∧ s.Left nodes cs seqs := by
  induction h with
  | init =>
    refine ⟨init nodes, rfl, ⟨fun i => ?_, nofun⟩, fun _ => Iff.rfl, nofun, fun _ _ => rfl⟩
    exact ⟨rfl, rfl, trivial, List.nodup_nil⟩
  | @call cs seqs c hrun hc ih =>
    obtain ⟨s, hcalls, hs⟩ := ih
    have hc' : c.Allowed s.nodes seqs := hc.congr hs.none_iff
    obtain ⟨s', hp⟩ := hs.represents.performs hc'
    refine ⟨s', ?_, hs.call hrun hc' hp⟩
    rw [calls_concat, hcalls, Option.bind_some, hp.call]
    rfl

/-! ## The safe loop -/

section Loop

variable {σ : Type} {lists : σ → IntrusiveLists ι α} {i : ι} {body : α → σ → Option σ}

/-- A body that leaves its list as it is or takes the visited node out. It may use that node's
memory for something else afterwards, and change the other lists. -/
def TakesOut (lists : σ → IntrusiveLists ι α) (i : ι) (body : α → σ → Option σ) : Prop :=
  ∀ node t seqs, (lists t).Represents seqs → node ∈ seqs i →
    ∃ t' seqs', body node t = some t' ∧ (lists t').Represents seqs' ∧
      (seqs' i = seqs i ∨ seqs' i = (seqs i).erase node)

omit [DecidableEq ι] in
/-- The safe loop visits every element, whatever its body takes out. -/
theorem Represents.forEachSafe {t : σ} {fuel : Nat} (h : (lists t).Represents seqs)
    (hbody : TakesOut lists i body) (hfuel : (seqs i).length < fuel) :
    ∃ t' seqs', IntrusiveList.forEachSafe (fun t => (lists t).nodes) body fuel
        ((lists t).head i) t = some (t', seqs i) ∧
      (lists t').Represents seqs' ∧ (seqs' i).Sublist (seqs i) := by
  -- what the loop sees of the state is the list, whatever the others are
  let R : σ → List α → Prop := fun t xs => ∃ seqs, (lists t).Represents seqs ∧ seqs i = xs
  have hsegment : ∀ t xs, R t xs → Segment (lists t).nodes none xs none := by
    rintro t xs ⟨seqs, hseqs, rfl⟩
    exact (hseqs.lists i).segment
  have hstep : ∀ x t as bs, R t (as ++ x :: bs) →
      ∃ t', body x t = some t' ∧ (R t' (as ++ x :: bs) ∨ R t' (as ++ bs)) := by
    rintro x t as bs ⟨seqs, hseqs, hi⟩
    obtain ⟨t', seqs', ht', hseqs', hkept | hremoved⟩ := hbody x t seqs hseqs (by simp [hi])
    · exact ⟨t', ht', Or.inl ⟨seqs', hseqs', hkept.trans hi⟩⟩
    · have hnodup := (hseqs.lists i).nodup
      rw [hi] at hnodup
      refine ⟨t', ht', Or.inr ⟨seqs', hseqs', ?_⟩⟩
      rw [hremoved, hi, erase_of_nodup hnodup]
  have hstart : R t ([] ++ seqs i) := ⟨seqs, h, rfl⟩
  obtain ⟨t', kept, hloop, hsub, seqs', hseqs', rfl⟩ :=
    forEachSafe_spec hsegment hstep hstart hfuel
  refine ⟨t', seqs', ?_, hseqs', hsub⟩
  rw [show (lists t).head i = (seqs i).head? from (h.lists i).head]
  exact hloop

end Loop

/-- The body of a loop that takes some nodes out. -/
def removeIf (i : ι) (p : α → Bool) (node : α) (s : IntrusiveLists ι α) :
    Option (IntrusiveLists ι α) :=
  if p node then (s.call (.remove i node)).map Prod.fst else some s

theorem takesOut_removeIf (i : ι) (p : α → Bool) :
    TakesOut (fun s : IntrusiveLists ι α => s) i (removeIf i p) := by
  intro node s seqs h hnode
  unfold removeIf
  cases p node with
  | false => exact ⟨s, seqs, rfl, h, Or.inl rfl⟩
  | true =>
    have hc : (ListCall.remove i node).Allowed s.nodes seqs := hnode
    obtain ⟨s', hp⟩ := h.performs hc
    exact ⟨s', _, by simp [hp.call], hp.represents, Or.inr ListCall.apply_self⟩

/-! ## What one finds in memory -/

/-- What one reads from the pointers is the sequences. -/
structure Reads (s : IntrusiveLists ι α) (seqs : ι → List α) : Prop where
  nodup : ∀ i, (seqs i).Nodup
  next : ∀ i fuel, (seqs i).length < fuel →
    follow s.nodes ListNode.next fuel (s.head i) = some (seqs i)
  prev : ∀ i fuel, (seqs i).length < fuel →
    follow s.nodes ListNode.prev fuel (s.tail i) = some (seqs i).reverse
  head : ∀ i, s.head i = none ↔ seqs i = []
  tail : ∀ i, s.tail i = none ↔ seqs i = []
  first : ∀ i x, s.head i = some x → ∃ next, s.nodes x = some { prev := none, next }
  last : ∀ i x, s.tail i = some x → ∃ prev, s.nodes x = some { prev, next := none }

omit [DecidableEq ι] [DecidableEq α] in
/-- The queries answer what the sequences say. -/
theorem Represents.reads (h : s.Represents seqs) : s.Reads seqs where
  nodup i := (h.lists i).nodup
  next i _ hfuel := ((h.lists i).follow hfuel).1
  prev i _ hfuel := ((h.lists i).follow hfuel).2
  head i := by
    rw [show s.head i = (seqs i).head? from (h.lists i).head, List.head?_eq_none_iff]
  tail i := by
    rw [show s.tail i = (seqs i).getLast? from (h.lists i).tail, List.getLast?_eq_none_iff]
  first i x hx := (h.lists i).first hx
  last i x hx := (h.lists i).last hx

end IntrusiveLists

open IntrusiveLists

variable [DecidableEq ι] [DecidableEq α]

/-- The lists refine sequences: after any calls from `u80211_list_init` on, with every node in one
list at most, one finds the sequences in memory, from the head on and in reverse from the tail on.
A node that has been taken out is linked to nothing, one that has never been in a list is
untouched. The next call does what it does to the sequences, and `u80211_list_for_each_safe` visits
the list in order, also when its body takes the visited node out. -/
theorem intrusive_lists_refine_sequences {nodes : α → Option (ListNode α)}
    {cs : List (ListCall ι α)} {seqs : ι → List α} (h : ListCall.Run nodes cs seqs) :
    ∃ s, (IntrusiveLists.init nodes).calls cs = some s ∧ s.Reads seqs ∧ s.Left nodes cs seqs ∧
      (∀ c : ListCall ι α, c.Allowed nodes seqs →
        ∃ s', s.Performs seqs c s' ∧ s'.Reads (c.apply seqs)) ∧
      ∀ {σ : Type} (lists : σ → IntrusiveLists ι α) (t : σ) (i : ι) (body : α → σ → Option σ)
        (fuel : Nat), lists t = s → TakesOut lists i body → (seqs i).length < fuel →
        ∃ t' seqs', forEachSafe (fun t => (lists t).nodes) body fuel (s.head i) t =
            some (t', seqs i) ∧
          (lists t').Represents seqs' ∧ (seqs' i).Sublist (seqs i) := by
  obtain ⟨s, hcalls, hs⟩ := calls_left h
  refine ⟨s, hcalls, hs.represents.reads, hs, fun c hc => ?_, ?_⟩
  · obtain ⟨s', hp⟩ := hs.represents.performs (hc.congr hs.none_iff)
    exact ⟨s', hp, hp.represents.reads⟩
  · rintro σ lists t i body fuel rfl hbody hfuel
    exact hs.represents.forEachSafe hbody hfuel

/-- Two lists: a node is taken out of the middle of the first one, and the only node of the second
one popped. A loop then empties the first one. -/
theorem intrusive_lists_refine_sequences_two_lists :
    let free : ListNode Nat := { prev := none, next := none }
    ∃ s : IntrusiveLists Bool Nat,
      (IntrusiveLists.init fun _ => some free).calls
        [.pushBack false 1, .pushFront false 0, .pushBack false 2, .pushBack true 5,
          .remove false 1, .popBack true] = some s ∧
      follow s.nodes ListNode.next 3 (s.head false) = some [0, 2] ∧
      follow s.nodes ListNode.prev 3 (s.tail false) = some [2, 0] ∧
      s.head true = none ∧ s.nodes 1 = some free ∧ s.nodes 7 = some free ∧
      ∃ t', forEachSafe IntrusiveLists.nodes (removeIf false fun _ => true) 3 (s.head false) s =
        some (t', [0, 2]) := by
  intro free
  have hrun : ListCall.Run (fun _ : Nat => some free)
      [.pushBack false 1, .pushFront false 0, .pushBack false 2, .pushBack true 5,
        .remove false 1, .popBack true] _ :=
    .call (.call (.call (.call (.call (.call .init (by decide)) (by decide)) (by decide))
      (by decide)) (by decide)) (by decide)
  obtain ⟨s, hcalls, hreads, hleft, -, hloop⟩ := intrusive_lists_refine_sequences hrun
  have htakes := takesOut_removeIf false fun _ : Nat => true
  obtain ⟨t', -, ht', -⟩ := hloop _ s false _ 3 rfl htakes (by decide)
  exact ⟨s, hcalls, hreads.next false 3 (by decide), hreads.prev false 3 (by decide),
    (hreads.head true).mpr (by decide), hleft.unlinked 1 (by decide) (by decide),
    hleft.untouched 7 (by decide), t', ht'⟩

end U80211
