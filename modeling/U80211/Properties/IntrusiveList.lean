import Mathlib.Data.List.Nodup
import U80211.IntrusiveList

/-!
# Lists in memory

* `IsList`: the memory holds the nodes of a list, linked in both directions
* `pushFront_links`, `pushBack_links`, `remove_links`, `popFront_links`, `popBack_links`: what the
  operations do to the list
* `IsList.follow`: what one finds by following the pointers from either end
* `forEach_spec`, `forEachSafe_spec`: a loop meets the nodes in order
-/

namespace U80211

namespace IntrusiveList

variable {α : Type}

/-! ## Representation -/

/-- The nodes of a part of a list are in memory, each linked to the ones beside it. -/
def Segment (nodes : α → Option (ListNode α)) : Option α → List α → Option α → Prop
  | _, [], _ => True
  | prev, x :: xs, next =>
    nodes x = some { prev, next := xs.head?.or next } ∧ Segment nodes (some x) xs next

/-- The memory is that of a list. -/
structure IsList (list : IntrusiveList α) (xs : List α) : Prop where
  head : list.head = xs.head?
  tail : list.tail = xs.getLast?
  segment : Segment list.nodes none xs none
  nodup : xs.Nodup

section Segment

variable {nodes nodes' : α → Option (ListNode α)} {prev next : Option α} {xs ys : List α} {x : α}

theorem segment_append :
    Segment nodes prev (xs ++ ys) next ↔
      Segment nodes prev xs (ys.head?.or next) ∧ Segment nodes (xs.getLast?.or prev) ys next := by
  induction xs generalizing prev with
  | nil => simp [Segment]
  | cons x xs ih => simp [Segment, ih, and_assoc, List.getLast?_cons, Option.or_assoc]

theorem segment_concat :
    Segment nodes prev (xs ++ [x]) next ↔
      Segment nodes prev xs (some x) ∧ nodes x = some { prev := xs.getLast?.or prev, next } := by
  simp [segment_append, Segment]

/-- Only the nodes of the segment count. -/
theorem Segment.congr (h : Segment nodes prev xs next) (hn : ∀ x ∈ xs, nodes' x = nodes x) :
    Segment nodes' prev xs next := by
  induction xs generalizing prev with
  | nil => trivial
  | cons x xs ih =>
    obtain ⟨hx, hxs⟩ := h
    rw [List.forall_mem_cons] at hn
    exact ⟨hn.1.trans hx, ih hxs hn.2⟩

theorem Segment.allocated (h : Segment nodes prev xs next) (hx : x ∈ xs) : nodes x ≠ none := by
  obtain ⟨as, bs, rfl⟩ := List.append_of_mem hx
  rw [segment_append, Segment] at h
  rw [h.2.1]
  exact Option.some_ne_none _

variable [DecidableEq α]

theorem Segment.update (h : Segment nodes prev xs next) (hx : x ∉ xs) (n : Option (ListNode α)) :
    Segment (Function.update nodes x n) prev xs next :=
  h.congr fun _ hy => Function.update_of_ne (ne_of_mem_of_not_mem hy hx) ..

end Segment

/-! ## Operations -/

variable {list : IntrusiveList α} {xs as bs : List α} {x : α}

theorem not_mem_of_nodup (h : (as ++ x :: bs).Nodup) : x ∉ as ∧ x ∉ bs := by
  rw [List.nodup_middle, List.nodup_cons, List.mem_append, not_or] at h
  exact h.1

variable [DecidableEq α]

theorem erase_of_nodup (h : (as ++ x :: bs).Nodup) : (as ++ x :: bs).erase x = as ++ bs := by
  rw [List.erase_append_right _ (not_mem_of_nodup h).1, List.erase_cons_head]

@[simp] theorem modify_of {n : ListNode α} (h : list.nodes x = some n)
    (f : ListNode α → ListNode α) :
    list.modify x f =
      some { list with nodes := Function.update list.nodes x (some (f n)) } := by
  rw [modify, h]
  rfl

omit [DecidableEq α] in
/-- Nodes stay in memory when those that change are there before and afterwards. -/
theorem none_iff_of_frame {list' : IntrusiveList α} {zs : List α}
    (h : ∀ z ∈ zs, list.nodes z ≠ none) (h' : ∀ z ∈ zs, list'.nodes z ≠ none)
    (hframe : ∀ y, y ∉ zs → list'.nodes y = list.nodes y) (y : α) :
    list'.nodes y = none ↔ list.nodes y = none := by
  by_cases hy : y ∈ zs
  · exact iff_of_false (h' y hy) (h y hy)
  · rw [hframe y hy]

/-- `u80211_list_push_front` links a node that is in memory in front of the list. Nodes outside the
list stay as they are. -/
theorem pushFront_links (h : list.IsList xs) (hx : list.nodes x ≠ none) (hxs : x ∉ xs) :
    ∃ list', list.pushFront x = some list' ∧ list'.IsList (x :: xs) ∧
      ∀ y, y ∉ x :: xs → list'.nodes y = list.nodes y := by
  obtain ⟨n, hn⟩ := Option.ne_none_iff_exists'.mp hx
  have hhead := h.head
  have htail := h.tail
  cases xs with
  | nil =>
    rw [List.head?_nil] at hhead
    refine ⟨_, by simp [pushFront, setPrev, setNext, modify_of, hn, hhead]; rfl, ?_, ?_⟩
    · exact ⟨rfl, rfl, ⟨by simp, trivial⟩, by simp⟩
    · intro y hy
      rw [List.mem_singleton] at hy
      simp [hy]
  | cons z zs =>
    rw [List.head?_cons] at hhead
    have hz : x ≠ z := fun he => hxs (he ▸ List.mem_cons_self)
    obtain ⟨hnz, hzs⟩ := h.segment
    have hzzs := List.nodup_cons.mp h.nodup
    refine ⟨_, by
      simp [pushFront, setPrev, setNext, modify_of, hn, hhead, hz.symm, hnz]; rfl, ?_, ?_⟩
    · refine ⟨rfl, by simpa using htail, ⟨?_, ?_, ?_⟩, List.nodup_cons.mpr ⟨hxs, h.nodup⟩⟩
      · simp [hz]
      · simp
      · exact (hzs.update (fun he => hxs (List.mem_cons_of_mem _ he)) _).update hzzs.1 _
    · intro y hy
      simp only [List.mem_cons, not_or] at hy
      simp [hy.1, hy.2.1]

/-- A node that is linked in is in memory before and afterwards, as are all others. -/
theorem pushFront_spec (h : list.IsList xs) (hx : list.nodes x ≠ none) (hxs : x ∉ xs) :
    ∃ list', list.pushFront x = some list' ∧ list'.IsList (x :: xs) ∧
      ∀ y, list'.nodes y = none ↔ list.nodes y = none := by
  obtain ⟨list', hpush, hlist', hframe⟩ := pushFront_links h hx hxs
  refine ⟨list', hpush, hlist', none_iff_of_frame ?_ (fun _ => hlist'.segment.allocated) hframe⟩
  rw [List.forall_mem_cons]
  exact ⟨hx, fun _ => h.segment.allocated⟩

/-- `u80211_list_push_back` links a node that is in memory behind the list. Nodes outside the list
stay as they are. -/
theorem pushBack_links (h : list.IsList xs) (hx : list.nodes x ≠ none) (hxs : x ∉ xs) :
    ∃ list', list.pushBack x = some list' ∧ list'.IsList (xs ++ [x]) ∧
      ∀ y, y ∉ xs ++ [x] → list'.nodes y = list.nodes y := by
  obtain ⟨n, hn⟩ := Option.ne_none_iff_exists'.mp hx
  have hhead := h.head
  have htail := h.tail
  rcases List.eq_nil_or_concat xs with rfl | ⟨zs, z, rfl⟩
  · rw [List.getLast?_nil] at htail
    refine ⟨_, by simp [pushBack, setPrev, setNext, modify_of, hn, htail]; rfl, ?_, ?_⟩
    · exact ⟨rfl, rfl, ⟨by simp, trivial⟩, by simp⟩
    · intro y hy
      rw [List.nil_append, List.mem_singleton] at hy
      simp [hy]
  · rw [List.concat_eq_append] at *
    rw [List.getLast?_concat] at htail
    have hz : x ≠ z := fun he => hxs (by simp [he])
    have hxzs : x ∉ zs := fun hmem => hxs (List.mem_append_left _ hmem)
    obtain ⟨hzs, hnz⟩ := segment_concat.mp h.segment
    have hzzs : z ∉ zs := (not_mem_of_nodup h.nodup).1
    refine ⟨_, by
      simp [pushBack, setPrev, setNext, modify_of, hn, htail, hz.symm, hnz]; rfl, ?_, ?_⟩
    · refine ⟨?_, by simp, ?_, ?_⟩
      · simpa using hhead
      · refine segment_concat.mpr ⟨segment_concat.mpr ⟨?_, by simp⟩, by simp [hz]⟩
        exact (hzs.update hxzs _).update hzzs _
      · rw [← List.concat_eq_append]
        exact List.Nodup.concat hxs h.nodup
    · intro y hy
      simp only [List.mem_append, List.mem_singleton, not_or] at hy
      simp [hy.1.2, hy.2]

/-- What stands before a node is linked to what stands behind it. -/
theorem unlinkPrev_spec (hhead : list.head = (as ++ x :: bs).head?)
    (h : Segment list.nodes none as (some x)) (hn : as.Nodup) :
    ∃ list', list.unlinkPrev { prev := as.getLast?, next := bs.head? } = some list' ∧
      list'.head = (as ++ bs).head? ∧ list'.tail = list.tail ∧
      Segment list'.nodes none as bs.head? ∧ ∀ y, y ∉ as → list'.nodes y = list.nodes y := by
  rcases List.eq_nil_or_concat as with rfl | ⟨as, p, rfl⟩
  · exact ⟨_, rfl, rfl, rfl, trivial, fun _ _ => rfl⟩
  · rw [List.concat_eq_append] at *
    obtain ⟨has, hp⟩ := segment_concat.mp h
    have hpas : p ∉ as := (not_mem_of_nodup hn).1
    refine ⟨_, by simp [unlinkPrev, setNext, modify_of, hp]; rfl, ?_, ?_, ?_, ?_⟩
    · simp [hhead]
    · rfl
    · exact segment_concat.mpr ⟨has.update hpas _, by simp⟩
    · intro y hy
      rw [List.mem_append, List.mem_singleton, not_or] at hy
      simp [hy.2]

/-- What stands behind a node is linked to what stands before it. -/
theorem unlinkNext_spec (htail : list.tail = (as ++ x :: bs).getLast?)
    (h : Segment list.nodes (some x) bs none) (hn : bs.Nodup) :
    ∃ list', list.unlinkNext { prev := as.getLast?, next := bs.head? } = some list' ∧
      list'.head = list.head ∧ list'.tail = (as ++ bs).getLast? ∧
      Segment list'.nodes as.getLast? bs none ∧ ∀ y, y ∉ bs → list'.nodes y = list.nodes y := by
  cases bs with
  | nil => exact ⟨_, rfl, rfl, by simp, trivial, fun _ _ => rfl⟩
  | cons z bs =>
    obtain ⟨hz, hbs⟩ := h
    refine ⟨_, by simp [unlinkNext, setPrev, modify_of, hz]; rfl, ?_, ?_, ?_, ?_⟩
    · rfl
    · simp [htail, List.getLast?_append, List.getLast?_cons]
    · exact ⟨by simp, hbs.update (List.nodup_cons.mp hn).1 _⟩
    · intro y hy
      rw [List.mem_cons, not_or] at hy
      simp [hy.1]

/-- `u80211_list_remove` takes a node out of the list. Its links are `NULL` afterwards, and nodes
outside the list stay as they are. -/
theorem remove_links (h : list.IsList (as ++ x :: bs)) :
    ∃ list', list.remove x = some list' ∧ list'.IsList (as ++ bs) ∧
      list'.nodes x = some { prev := none, next := none } ∧
      ∀ y, y ∉ as ++ x :: bs → list'.nodes y = list.nodes y := by
  obtain ⟨has, hx, hbs⟩ := segment_append.mp h.segment
  rw [Option.or_none, Option.or_none] at hx
  obtain ⟨hxas, hxbs⟩ := not_mem_of_nodup h.nodup
  obtain ⟨hnas, hnxbs, hdisjoint⟩ := List.nodup_append.mp h.nodup
  have hnbs := (List.nodup_cons.mp hnxbs).2
  obtain ⟨list₁, h₁, hhead₁, htail₁, hseg₁, hframe₁⟩ := unlinkPrev_spec h.head has hnas
  have hx₁ := (hframe₁ x hxas).trans hx
  have hbs₁ : Segment list₁.nodes (some x) bs none :=
    hbs.congr fun y hy => hframe₁ y fun hmem => hdisjoint y hmem y (by simp [hy]) rfl
  have htail₁' : list₁.tail = (as ++ x :: bs).getLast? := htail₁.trans h.tail
  obtain ⟨list₂, h₂, hhead₂, htail₂, hseg₂, hframe₂⟩ := unlinkNext_spec htail₁' hbs₁ hnbs
  have hx₂ := (hframe₂ x hxbs).trans hx₁
  have has₂ : Segment list₂.nodes none as bs.head? :=
    hseg₁.congr fun y hy => hframe₂ y fun hmem => hdisjoint y hy y (by simp [hmem]) rfl
  let list' : IntrusiveList α :=
    { list₂ with nodes := Function.update list₂.nodes x (some { prev := none, next := none }) }
  have hremove : list.remove x = some list' := by
    have hlast : list₂.setPrev x none = some { list₂ with
        nodes := Function.update list₂.nodes x (some { prev := none, next := bs.head? }) } := by
      simp [setPrev, modify_of, hx₂]
    simp only [remove, hx, Option.bind_eq_bind, Option.bind_some, h₁, hx₁, h₂, hlast]
    simp [setNext, list']
  have hlist' : list'.IsList (as ++ bs) := by
    refine ⟨hhead₂.trans hhead₁, htail₂, ?_, ?_⟩
    · rw [segment_append, Option.or_none, Option.or_none]
      exact ⟨has₂.update hxas _, hseg₂.update hxbs _⟩
    · exact h.nodup.sublist ((List.sublist_cons_self x bs).append_left as)
  refine ⟨list', hremove, hlist', Function.update_self .., fun y hy => ?_⟩
  simp only [List.mem_append, List.mem_cons, not_or] at hy
  rw [show list'.nodes y = list₂.nodes y from Function.update_of_ne hy.2.1 .., hframe₂ y hy.2.2,
    hframe₁ y hy.1]

/-- `u80211_list_remove` with any node of the list. -/
theorem remove_erase (h : list.IsList xs) (hx : x ∈ xs) :
    ∃ list', list.remove x = some list' ∧ list'.IsList (xs.erase x) ∧
      list'.nodes x = some { prev := none, next := none } ∧
      ∀ y, y ∉ xs → list'.nodes y = list.nodes y := by
  obtain ⟨as, bs, rfl⟩ := List.append_of_mem hx
  rw [erase_of_nodup h.nodup]
  exact remove_links h

/-- A node that is taken out stays in memory. -/
theorem remove_spec (h : list.IsList (as ++ x :: bs)) :
    ∃ list', list.remove x = some list' ∧ list'.IsList (as ++ bs) ∧
      ∀ y, list'.nodes y = none ↔ list.nodes y = none := by
  obtain ⟨list', hremove, hlist', hx, hframe⟩ := remove_links h
  refine ⟨list', hremove, hlist',
    none_iff_of_frame (fun _ => h.segment.allocated) (fun y hy => ?_) hframe⟩
  rcases eq_or_ne y x with rfl | hyx
  · rw [hx]
    exact Option.some_ne_none _
  · refine hlist'.segment.allocated ?_
    simpa [hyx] using hy

/-- What `u80211_list_pop_front` does is done by `u80211_list_remove`. -/
theorem popFront_eq_remove (h : list.IsList (x :: xs)) :
    list.popFront = (list.remove x).map fun list' => (list', some x) := by
  unfold popFront
  rw [h.head]
  cases hr : list.remove x <;> simp [hr]

/-- `u80211_list_pop_front` takes the first node out. -/
theorem popFront_spec (h : list.IsList (x :: xs)) :
    ∃ list', list.popFront = some (list', some x) ∧ list'.IsList xs ∧
      ∀ y, list'.nodes y = none ↔ list.nodes y = none := by
  have h' : list.IsList ([] ++ x :: xs) := h
  obtain ⟨list', hremove, hlist, hnodes⟩ := remove_spec h'
  refine ⟨list', ?_, hlist, hnodes⟩
  rw [popFront_eq_remove h, hremove, Option.map_some]

/-- What `u80211_list_pop_back` does is done by `u80211_list_remove`. -/
theorem popBack_eq_remove (h : list.IsList (xs ++ [x])) :
    list.popBack = (list.remove x).map fun list' => (list', some x) := by
  unfold popBack
  rw [h.tail, List.getLast?_concat]
  cases hr : list.remove x <;> simp [hr]

/-- `u80211_list_pop_front` of any list answers the first node and takes it out. -/
theorem popFront_links (h : list.IsList xs) :
    ∃ list', list.popFront = some (list', xs.head?) ∧ list'.IsList xs.tail ∧
      (∀ x, xs.head? = some x → list'.nodes x = some { prev := none, next := none }) ∧
      ∀ y, y ∉ xs → list'.nodes y = list.nodes y := by
  cases xs with
  | nil => exact ⟨list, by simp [popFront, h.head], h, nofun, fun _ _ => rfl⟩
  | cons x xs =>
    have h' : list.IsList ([] ++ x :: xs) := h
    obtain ⟨list', hremove, hlist, hx, hframe⟩ := remove_links h'
    refine ⟨list', by simp [popFront_eq_remove h, hremove], hlist, ?_, hframe⟩
    rintro y ⟨⟩
    exact hx

/-- `u80211_list_pop_back` of any list answers the last node and takes it out. -/
theorem popBack_links (h : list.IsList xs) :
    ∃ list', list.popBack = some (list', xs.getLast?) ∧ list'.IsList xs.dropLast ∧
      (∀ x, xs.getLast? = some x → list'.nodes x = some { prev := none, next := none }) ∧
      ∀ y, y ∉ xs → list'.nodes y = list.nodes y := by
  rcases List.eq_nil_or_concat xs with rfl | ⟨xs, x, rfl⟩
  · exact ⟨list, by simp [popBack, h.tail], h, nofun, fun _ _ => rfl⟩
  · rw [List.concat_eq_append] at *
    obtain ⟨list', hremove, hlist, hx, hframe⟩ := remove_links h
    refine ⟨list', by simp [popBack_eq_remove h, hremove], by simpa using hlist, ?_, hframe⟩
    intro y hy
    rw [List.getLast?_concat] at hy
    cases hy
    exact hx

/-! ## The mirror image -/

/-- The list read from its tail. -/
def mirror (list : IntrusiveList α) : IntrusiveList α where
  nodes := fun x => (list.nodes x).map fun n => { prev := n.next, next := n.prev }
  head := list.tail
  tail := list.head

section Mirror

omit [DecidableEq α]

theorem segment_mirror {prev next : Option α} :
    Segment list.mirror.nodes next xs.reverse prev ↔ Segment list.nodes prev xs next := by
  induction xs generalizing prev with
  | nil => exact Iff.rfl
  | cons x xs ih =>
    rw [List.reverse_cons, segment_concat, ih, List.getLast?_reverse, and_comm, Segment]
    refine and_congr_left fun _ => ?_
    show (list.nodes x).map _ = _ ↔ _
    cases list.nodes x with
    | none => simp
    | some n =>
      cases n
      simp [and_comm]

theorem IsList.mirror (h : list.IsList xs) : list.mirror.IsList xs.reverse where
  head := by rw [List.head?_reverse]; exact h.tail
  tail := by rw [List.getLast?_reverse]; exact h.head
  segment := segment_mirror.mpr h.segment
  nodup := List.nodup_reverse.mpr h.nodup

end Mirror

omit [DecidableEq α] in
/-- A loop over the list stops at the first node at which its body leaves it. -/
theorem forEach_spec {leaves : α → Option Bool} {p : α → Bool} {prev : Option α} {fuel : Nat}
    (h : Segment list.nodes prev xs none) (hp : ∀ x ∈ xs, leaves x = some (p x))
    (hfuel : xs.length < fuel) : list.forEach leaves fuel xs.head? = some (xs.find? p) := by
  induction xs generalizing prev fuel with
  | nil =>
    cases fuel with
    | zero => exact absurd hfuel (Nat.not_lt_zero _)
    | succ fuel => rfl
  | cons x xs ih =>
    cases fuel with
    | zero => exact absurd hfuel (Nat.not_lt_zero _)
    | succ fuel =>
      obtain ⟨hx, hxs⟩ := h
      rw [List.forall_mem_cons] at hp
      have hnext := ih hxs hp.2 (Nat.lt_of_succ_lt_succ hfuel)
      rw [Option.or_none] at hx
      cases hpx : p x <;> simp [forEach, hp.1, hpx, hx, hnext]

omit [DecidableEq α] in
/-- A safe loop meets all nodes in order, also when its body removes the node that it runs with. -/
theorem forEachSafe_spec {σ : Type} {nodes : σ → α → Option (ListNode α)}
    {body : α → σ → Option σ} {R : σ → List α → Prop}
    (hsegment : ∀ s xs, R s xs → Segment (nodes s) none xs none)
    (hbody : ∀ x s as bs, R s (as ++ x :: bs) →
      ∃ s', body x s = some s' ∧ (R s' (as ++ x :: bs) ∨ R s' (as ++ bs)))
    {s : σ} {fuel : Nat} (h : R s (as ++ bs)) (hfuel : bs.length < fuel) :
    ∃ s' kept, forEachSafe nodes body fuel bs.head? s = some (s', bs) ∧ kept.Sublist bs ∧
      R s' (as ++ kept) := by
  induction bs generalizing as s fuel with
  | nil =>
    cases fuel with
    | zero => exact absurd hfuel (Nat.not_lt_zero _)
    | succ fuel => exact ⟨s, [], rfl, List.Sublist.slnil, h⟩
  | cons x bs ih =>
    cases fuel with
    | zero => exact absurd hfuel (Nat.not_lt_zero _)
    | succ fuel =>
      have hlt := Nat.lt_of_succ_lt_succ hfuel
      obtain ⟨-, hx, -⟩ := segment_append.mp (hsegment s _ h)
      rw [Option.or_none] at hx
      obtain ⟨s₁, hs₁, hkept | hremoved⟩ := hbody x s as bs h
      · rw [List.append_cons] at hkept
        obtain ⟨s', kept, hloop, hsub, hR⟩ := ih hkept hlt
        refine ⟨s', x :: kept, by simp [forEachSafe, hx, hs₁, hloop], hsub.cons_cons x, ?_⟩
        rwa [List.append_cons]
      · obtain ⟨s', kept, hloop, hsub, hR⟩ := ih hremoved hlt
        exact ⟨s', kept, by simp [forEachSafe, hx, hs₁, hloop], hsub.cons x, hR⟩

/-! ## Following the pointers -/

omit [DecidableEq α]

/-- The nodes that pointers lead through up to `NULL`. -/
def follow (nodes : α → Option (ListNode α)) (pointer : ListNode α → Option α) :
    Nat → Option α → Option (List α)
  | 0, _ => none
  | _ + 1, none => some []
  | fuel + 1, some node => do
    let rest ← follow nodes pointer fuel (pointer (← nodes node))
    some (node :: rest)

theorem Segment.follow {nodes : α → Option (ListNode α)} {prev : Option α} {fuel : Nat}
    (h : Segment nodes prev xs none) (hfuel : xs.length < fuel) :
    IntrusiveList.follow nodes ListNode.next fuel xs.head? = some xs := by
  induction xs generalizing prev fuel with
  | nil =>
    cases fuel with
    | zero => exact absurd hfuel (Nat.not_lt_zero _)
    | succ fuel => rfl
  | cons x xs ih =>
    cases fuel with
    | zero => exact absurd hfuel (Nat.not_lt_zero _)
    | succ fuel =>
      obtain ⟨hx, hxs⟩ := h
      have hrest := ih hxs (Nat.lt_of_succ_lt_succ hfuel)
      rw [Option.or_none] at hx
      simp [IntrusiveList.follow, hx, hrest]

theorem follow_mirror (list : IntrusiveList α) (fuel : Nat) (start : Option α) :
    follow list.mirror.nodes ListNode.next fuel start =
      follow list.nodes ListNode.prev fuel start := by
  induction fuel generalizing start with
  | zero => rfl
  | succ fuel ih =>
    cases start with
    | none => rfl
    | some x => cases hx : list.nodes x <;> simp [follow, mirror, hx, ← ih]

/-- From the head on one finds the list, and from the tail on its reverse. -/
theorem IsList.follow (h : list.IsList xs) {fuel : Nat} (hfuel : xs.length < fuel) :
    IntrusiveList.follow list.nodes ListNode.next fuel list.head = some xs ∧
      IntrusiveList.follow list.nodes ListNode.prev fuel list.tail = some xs.reverse := by
  refine ⟨by rw [h.head]; exact h.segment.follow hfuel, ?_⟩
  have hlength : xs.reverse.length < fuel := by rwa [List.length_reverse]
  have hmirror := h.mirror.segment.follow hlength
  rwa [follow_mirror, List.head?_reverse, ← h.tail] at hmirror

/-- There is nothing before the first node. -/
theorem IsList.first (h : list.IsList xs) {x : α} (hx : list.head = some x) :
    ∃ next, list.nodes x = some { prev := none, next } := by
  rw [h.head, List.head?_eq_some_iff] at hx
  obtain ⟨ys, rfl⟩ := hx
  exact ⟨_, h.segment.1⟩

/-- There is nothing behind the last node. -/
theorem IsList.last (h : list.IsList xs) {x : α} (hx : list.tail = some x) :
    ∃ prev, list.nodes x = some { prev, next := none } := by
  rw [h.tail, List.getLast?_eq_some_iff] at hx
  obtain ⟨ys, rfl⟩ := hx
  exact ⟨_, (segment_concat.mp h.segment).2⟩

end IntrusiveList

end U80211
