import Mathlib.Tactic.IntervalCases
import U80211.Lib.Blocks
import U80211.Michael

/-!
# The message integrity code is Michael

`Michael.mic` is the definition: the words of the padded message, one after another. The code never
builds that message; it takes five pieces, keeps the bytes of an unfinished word, and pads from what
is pending.

* `michaelBlock_state`: one block
* `michaelUpdate_spec`: a piece goes behind what has been taken before it
* `michaelUpdate_append`: it does not matter how a message is cut into pieces
* `michaelMic_eq_mic`: **the code computes the definition**
-/

namespace U80211

open Memory Blocks

/-! ## The definition -/

namespace Michael

/-- The two words of the state. -/
abbrev State := BitVec 32 × BitVec 32

/-- The bytes of each half-word change places. -/
def swapHalfWords (x : BitVec 32) : BitVec 32 :=
  x.extractLsb' 16 8 ++ x.extractLsb' 24 8 ++ x.extractLsb' 0 8 ++ x.extractLsb' 8 8

/-- The block function. -/
def block (s : State) (word : BitVec 32) : State :=
  let l := s.1 ^^^ word
  let r := s.2 ^^^ l.rotateLeft 17
  let l := l + r
  let r := r ^^^ swapHalfWords l
  let l := l + r
  let r := r ^^^ l.rotateLeft 3
  let l := l + r
  let r := r ^^^ l.rotateRight 2
  let l := l + r
  (l, r)

/-- The word that four bytes stand for. -/
def word (bytes : List UInt8) : BitVec 32 := BitVec.ofNat 32 (leValue bytes)

def words : List UInt8 → List (BitVec 32)
  | b₀ :: b₁ :: b₂ :: b₃ :: bs => word [b₀, b₁, b₂, b₃] :: words bs
  | _ => []

/-- The message with its header, the marker and the given number of zeros. -/
def message (destination source : FixedBytes 6) (priority : UInt8) (data : List UInt8)
    (zeros : Nat) : List UInt8 :=
  destination.toList ++ source.toList ++ [priority, 0, 0, 0] ++ data ++ [0x5a] ++
    List.replicate zeros 0

/-- The state before the first block. -/
def start (key : FixedBytes 8) : State := (word (slice key.toList 0 4), word (slice key.toList 4 4))

/-- The code of a message whose length is a multiple of four. -/
def mic (key : FixedBytes 8) (message : List UInt8) : List UInt8 :=
  let s := (words message).foldl block (start key)
  leBytes 4 s.1.toNat ++ leBytes 4 s.2.toNat

/-- The empty message. -/
example : mic (.zero 8) [0x5a, 0, 0, 0, 0, 0, 0, 0] =
    [0x82, 0x92, 0x5c, 0x1c, 0xa1, 0xd1, 0x30, 0xb8] := by decide +kernel

/-- A block of four bytes. -/
def step (s : State) (bytes : List UInt8) : State := block s (word bytes)

theorem length_lt_of_no_block {l : List UInt8}
    (h : ∀ b₀ b₁ b₂ b₃ bs, l ≠ b₀ :: b₁ :: b₂ :: b₃ :: bs) : l.length < 4 := by
  rcases l with _ | ⟨a, _ | ⟨b, _ | ⟨c, _ | ⟨d, l⟩⟩⟩⟩
  · decide
  · simp
  · simp
  · simp
  · exact absurd rfl (h a b c d l)

/-- The whole words of a list. -/
theorem fst_absorb (s : State) (l : List UInt8) :
    (absorb 4 step s l).1 = (words l).foldl block s := by
  induction l using words.induct generalizing s with
  | case1 b₀ b₁ b₂ b₃ bs ih =>
    have hblock : absorb 4 step s ([b₀, b₁, b₂, b₃] ++ bs) =
        absorb 4 step (step s [b₀, b₁, b₂, b₃]) bs := absorb_block (by decide) rfl
    exact (congrArg Prod.fst hblock).trans (ih _)
  | case2 l hl =>
    rw [absorb_of_lt (length_lt_of_no_block hl), words]
    · rfl
    · exact hl

end Michael

/-! ## One block -/

/-- The state of a context. -/
def MichaelContext.state (context : MichaelContext) : Michael.State :=
  (context.left.toBitVec, context.right.toBitVec)

/-- The state as it is written out. -/
theorem serialize_state (context : MichaelContext) :
    serializeLe32 context.left ++ serializeLe32 context.right =
      leBytes 4 context.state.1.toNat ++ leBytes 4 context.state.2.toNat := rfl

/-- The bytes of the unfinished word. -/
def MichaelContext.rest (context : MichaelContext) : List UInt8 :=
  context.pending.toList.take context.pendingSize

theorem toBitVec_exchangeBytes (value : UInt32) :
    (exchangeBytes value).toBitVec = Michael.swapHalfWords value.toBitVec := by
  have hmasks : (exchangeBytes value).toBitVec =
      (value.toBitVec &&& 0x00ff00ff) <<< 8 ||| (value.toBitVec &&& 0xff00ff00) >>> 8 := rfl
  rw [hmasks]
  generalize value.toBitVec = x
  refine BitVec.eq_of_getLsbD_eq fun i hi => ?_
  rw [Michael.swapHalfWords, BitVec.getLsbD_append, BitVec.getLsbD_append, BitVec.getLsbD_append]
  simp only [BitVec.getLsbD_or, BitVec.getLsbD_shiftLeft, BitVec.getLsbD_ushiftRight,
    BitVec.getLsbD_and, BitVec.getLsbD_extractLsb']
  interval_cases i <;> simp

/-- The shifts of a rotation stay below the width of the word. -/
theorem toNat_sub_amount {amount : UInt32} (h : amount.toNat < 32) :
    (32 - amount).toNat = 32 - amount.toNat :=
  UInt32.toNat_sub_of_le 32 amount (UInt32.le_iff_toNat_le.mpr (Nat.le_of_lt h))

theorem toBitVec_shifts (value : UInt32) {a b : UInt32} (ha : a.toNat < 32) (hb : b.toNat < 32) :
    (value <<< a ||| value >>> b).toBitVec =
      value.toBitVec <<< a.toNat ||| value.toBitVec >>> b.toNat := by
  have hmod {n : UInt32} (hn : n.toNat < 32) : (n.toBitVec % 32).toNat = n.toNat :=
    Nat.mod_eq_of_lt hn
  rw [UInt32.toBitVec_or, UInt32.toBitVec_shiftLeft, UInt32.toBitVec_shiftRight,
    BitVec.shiftLeft_eq', BitVec.ushiftRight_eq', hmod ha, hmod hb]

theorem toBitVec_rotateLeft (value : UInt32) {amount : UInt32} (h0 : 0 < amount.toNat)
    (h : amount.toNat < 32) :
    (rotateLeft value amount).toBitVec = value.toBitVec.rotateLeft amount.toNat := by
  have hsub := toNat_sub_amount h
  rw [rotateLeft, toBitVec_shifts value h (by omega), hsub, BitVec.rotateLeft_def,
    Nat.mod_eq_of_lt h]

theorem toBitVec_rotateRight (value : UInt32) {amount : UInt32} (h0 : 0 < amount.toNat)
    (h : amount.toNat < 32) :
    (rotateRight value amount).toBitVec = value.toBitVec.rotateRight amount.toNat := by
  have hsub := toNat_sub_amount h
  rw [rotateRight, UInt32.or_comm, toBitVec_shifts value (by omega) h, hsub,
    BitVec.rotateRight_def, Nat.mod_eq_of_lt h, BitVec.or_comm]

/-- `michael_block` is the block function. -/
theorem michaelBlock_state (context : MichaelContext) (w : UInt32) :
    (michaelBlock context w).state = Michael.block context.state w.toBitVec := by
  simp (disch := decide) only [michaelBlock, MichaelContext.state, Michael.block,
    UInt32.toBitVec_add, UInt32.toBitVec_xor, toBitVec_exchangeBytes, toBitVec_rotateLeft,
    toBitVec_rotateRight]
  rfl

/-! ## The pieces -/

/-- The bytes of a context that has `n` bytes pending. -/
theorem MichaelContext.length_rest {context : MichaelContext} (h : context.pendingSize ≤ 4) :
    context.rest.length = context.pendingSize := by
  rw [rest, List.length_take, context.pending.length_toList, Nat.min_eq_left h]

/-- The first loop moves bytes behind those that are pending. -/
theorem michaelFill_spec (data : List UInt8) (context : MichaelContext)
    (h : context.pendingSize ≤ 4) :
    ∃ context' data', michaelFill context data = (context', data') ∧
      context'.state = context.state ∧ context'.pendingSize ≤ 4 ∧
      context'.rest ++ data' = context.rest ++ data ∧
      (data' = [] ∨ context'.pendingSize = 4) := by
  induction data generalizing context with
  | nil => exact ⟨context, [], rfl, rfl, h, rfl, Or.inl rfl⟩
  | cons b bs ih =>
    rw [michaelFill]
    by_cases hlt : context.pendingSize < 4
    · have hlength := context.pending.length_toList
      obtain ⟨context', data', he, hstate, hsize, hbytes, hend⟩ := ih
        { context with
          pending := context.pending.set context.pendingSize b
          pendingSize := context.pendingSize + 1 } hlt
      refine ⟨context', data', (if_pos hlt).trans he, hstate, hsize, ?_, hend⟩
      rw [hbytes]
      show (context.pending.toList.set context.pendingSize b).take (context.pendingSize + 1) ++ bs =
        context.pending.toList.take context.pendingSize ++ b :: bs
      rw [List.take_add_one, List.take_set_of_le (Nat.le_refl _),
        List.getElem?_set_self (by omega), List.append_assoc]
      rfl
    · exact ⟨context, b :: bs, if_neg hlt, rfl, h, rfl, Or.inr (by omega)⟩

/-- The second loop takes the whole words. -/
theorem michaelWords_spec (context : MichaelContext) (data : List UInt8) :
    ∃ context' data', michaelWords context data = (context', data') ∧
      absorb 4 Michael.step context.state data = (context'.state, data') ∧ data'.length < 4 ∧
      context'.pending = context.pending ∧ context'.pendingSize = context.pendingSize := by
  induction context, data using michaelWords.induct with
  | case1 context b₀ b₁ b₂ b₃ bs ih =>
    obtain ⟨context', data', he, habsorb, hlt, hpending, hsize⟩ := ih
    have hblock : absorb 4 Michael.step context.state ([b₀, b₁, b₂, b₃] ++ bs) =
        absorb 4 Michael.step (Michael.step context.state [b₀, b₁, b₂, b₃]) bs :=
      absorb_block (by decide) rfl
    rw [michaelBlock_state] at habsorb
    exact ⟨context', data', he, hblock.trans habsorb, hlt, hpending, hsize⟩
  | case2 context bs hbs =>
    have hlt := Michael.length_lt_of_no_block hbs
    refine ⟨context, bs, ?_, absorb_of_lt hlt, hlt, rfl, rfl⟩
    rw [michaelWords]
    exact hbs

/-- The second loop and what follows it, of a context that has nothing pending or gets nothing. -/
theorem michaelWords_rest {context : MichaelContext} {data : List UInt8}
    (h : context.pendingSize = 0 ∨ data = []) (hsize : context.pendingSize < 4)
    {context' : MichaelContext} {data' : List UInt8}
    (hw : michaelWords context data = (context', data')) {context'' : MichaelContext}
    (he : context'' = if data'.length ≠ 0 then
      { context' with pending := context'.pending.copy data', pendingSize := data'.length }
      else context') :
    absorb 4 Michael.step context.state (context.rest ++ data) =
        (context''.state, context''.rest) ∧ context''.pendingSize < 4 := by
  obtain ⟨c, d, hw', habsorb, hlt, hpending, hpendingSize⟩ := michaelWords_spec context data
  cases hw.symm.trans hw'
  rcases h with hzero | rfl
  · have hrest : context.rest = [] := by
      rw [MichaelContext.rest, hzero, List.take_zero]
    rw [hrest, List.nil_append, habsorb, he]
    by_cases hd : data'.length = 0
    · rw [if_neg (not_not_intro hd), List.eq_nil_of_length_eq_zero hd]
      have hnone : context'.pendingSize = 0 := hpendingSize.trans hzero
      exact ⟨by rw [MichaelContext.rest, hnone, List.take_zero], by omega⟩
    · rw [if_pos hd]
      refine ⟨Prod.ext rfl ?_, hlt⟩
      show data' = ((data' ++ context'.pending.toList.drop data'.length).take 4).take data'.length
      rw [List.take_take, Nat.min_eq_left (by omega), List.take_left]
  · have hnil : absorb 4 Michael.step context.state [] = (context.state, []) :=
      absorb_of_lt (by decide)
    rw [hnil, Prod.mk.injEq] at habsorb
    obtain ⟨hstate, rfl⟩ := habsorb
    have hsame : context''.state = context.state ∧ context''.rest = context.rest ∧
        context''.pendingSize = context.pendingSize := by
      rw [he]
      exact ⟨hstate.symm, by simp [MichaelContext.rest, hpending, hpendingSize], hpendingSize⟩
    rw [List.append_nil, hsame.1, hsame.2.1, hsame.2.2]
    exact ⟨absorb_of_lt (by rwa [MichaelContext.length_rest (Nat.le_of_lt hsize)]), hsize⟩

/-- **A piece goes behind what has been taken before it.** -/
theorem michaelUpdate_spec (context : MichaelContext) (h : context.pendingSize < 4)
    (data : List UInt8) :
    absorb 4 Michael.step context.state (context.rest ++ data) =
        ((michaelUpdate context data).state, (michaelUpdate context data).rest) ∧
      (michaelUpdate context data).pendingSize < 4 := by
  by_cases hzero : context.pendingSize = 0
  · refine michaelWords_rest (Or.inl hzero) h rfl ?_
    rw [michaelUpdate, if_neg (not_not_intro hzero)]
  obtain ⟨filled, left, hfill, hstate, hsize, hbytes, hend⟩ :=
    michaelFill_spec data context (Nat.le_of_lt h)
  by_cases hfour : filled.pendingSize = 4
  · -- the pending word is complete
    have hlength := filled.pending.length_toList
    have hrest : filled.rest = filled.pending.toList := by
      rw [MichaelContext.rest, hfour, List.take_of_length_le (by omega)]
    have hword : slice filled.pending.toList 0 4 = filled.pending.toList := by
      rw [slice, List.drop_zero, List.take_of_length_le (by omega)]
    have hblock : absorb 4 Michael.step context.state (context.rest ++ data) =
        absorb 4 Michael.step (michaelBlock filled (filled.pending.le32 0)).state left := by
      rw [← hbytes, hrest, absorb_block (by decide) hlength, ← hstate, michaelBlock_state,
        FixedBytes.le32, hword]
      rfl
    have hempty : ({ michaelBlock filled (filled.pending.le32 0) with pendingSize := 0 } :
        MichaelContext).pendingSize = 0 := rfl
    rw [hblock]
    refine michaelWords_rest (Or.inl hempty) (Nat.zero_lt_succ 3) rfl ?_
    rw [michaelUpdate, if_pos hzero, hfill]
    simp only [if_pos hfour]
  · obtain rfl := hend.resolve_right hfour
    rw [← hbytes, ← hstate]
    refine michaelWords_rest (Or.inr rfl) (by omega) rfl ?_
    rw [michaelUpdate, if_pos hzero, hfill]
    simp only [if_neg hfour]
    rfl

/-! ## The whole message -/

/-- The context has taken the message. -/
structure Absorbed (s : Michael.State) (context : MichaelContext) (message : List UInt8) :
    Prop where
  absorb : absorb 4 Michael.step s message = (context.state, context.rest)
  pendingSize : context.pendingSize < 4

variable {s : Michael.State} {context : MichaelContext} {message : List UInt8}

theorem Absorbed.update (h : Absorbed s context message) (data : List UInt8) :
    Absorbed s (michaelUpdate context data) (message ++ data) := by
  obtain ⟨hupdate, hsize⟩ := michaelUpdate_spec context h.pendingSize data
  refine ⟨?_, hsize⟩
  rw [absorb_append (by decide), h.absorb]
  exact hupdate

/-- What is pending is what does not fill a word. -/
theorem Absorbed.pending (h : Absorbed s context message) :
    context.pendingSize = message.length % 4 := by
  have hlength := length_absorb (f := Michael.step) (n := 4) (by decide) s message
  rw [h.absorb] at hlength
  rw [← hlength, MichaelContext.length_rest (Nat.le_of_lt h.pendingSize)]

/-- A context has taken the bytes of its unfinished word. -/
theorem absorbed_rest (h : context.pendingSize < 4) : Absorbed context.state context context.rest :=
  ⟨absorb_of_lt (by rwa [MichaelContext.length_rest (Nat.le_of_lt h)]), h⟩

/-- The message determines the context, but for the bytes that are no longer pending. -/
theorem Absorbed.unique {context' : MichaelContext} (h : Absorbed s context message)
    (h' : Absorbed s context' message) :
    context.left = context'.left ∧ context.right = context'.right ∧
      context.pendingSize = context'.pendingSize ∧ context.rest = context'.rest := by
  have hsame := h.absorb.symm.trans h'.absorb
  rw [Prod.mk.injEq, MichaelContext.state, MichaelContext.state, Prod.mk.injEq] at hsame
  obtain ⟨⟨hleft, hright⟩, hrest⟩ := hsame
  refine ⟨UInt32.toBitVec_inj.mp hleft, UInt32.toBitVec_inj.mp hright, ?_, hrest⟩
  rw [h.pending, h'.pending]

/-- **It does not matter how a message is cut into pieces.** -/
theorem michaelUpdate_append (context : MichaelContext) (h : context.pendingSize ≤ 3)
    (a b : List UInt8) :
    let split := michaelUpdate (michaelUpdate context a) b
    let whole := michaelUpdate context (a ++ b)
    split.left = whole.left ∧ split.right = whole.right ∧
      split.pendingSize = whole.pendingSize ∧
      split.pending.toList.take split.pendingSize = whole.pending.toList.take whole.pendingSize ∧
      whole.pendingSize ≤ 3 ∧
      whole.pendingSize % 4 = (context.pendingSize + a.length + b.length) % 4 := by
  intro split whole
  have hbegun := absorbed_rest (Nat.lt_succ_of_le h)
  have hsplit : Absorbed context.state split (context.rest ++ a ++ b) :=
    (hbegun.update a).update b
  have hwhole : Absorbed context.state whole (context.rest ++ a ++ b) := by
    rw [List.append_assoc]
    exact hbegun.update (a ++ b)
  obtain ⟨hleft, hright, hsize, hrest⟩ := hsplit.unique hwhole
  refine ⟨hleft, hright, hsize, hrest, Nat.le_of_lt_succ hwhole.pendingSize, ?_⟩
  rw [hwhole.pending, Nat.mod_mod, List.length_append, List.length_append,
    MichaelContext.length_rest (Nat.le_succ_of_le h)]

/-- Two bytes are pending; the pieces end in the middle of a word. -/
theorem michaelUpdate_append_short :
    let context : MichaelContext :=
      { left := 1, right := 2, pending := ⟨[3, 4, 0, 0], rfl⟩, pendingSize := 2 }
    (michaelUpdate (michaelUpdate context [5]) [6, 7]).left =
        (michaelUpdate context [5, 6, 7]).left ∧
      (michaelUpdate context [5, 6, 7]).pendingSize = 1 := by
  intro context
  obtain ⟨hleft, -⟩ := michaelUpdate_append context (by decide) [5] [6, 7]
  exact ⟨hleft, by decide⟩

/-- The state of a context without unfinished word is that of the whole message. -/
theorem Absorbed.state (h : Absorbed s context message) :
    context.state = (Michael.words message).foldl Michael.block s := by
  rw [← Michael.fst_absorb, h.absorb]

/-- The zeros after the marker. -/
def paddingSize (pendingSize : Nat) : Nat := (if pendingSize ≠ 0 then 4 - pendingSize else 0) + 4

/-- The last two pieces. -/
theorem Absorbed.pad (h : Absorbed s context message) :
    Absorbed s
      (michaelUpdate
        (if context.pendingSize ≠ 0 then
          michaelUpdate context (List.replicate (4 - context.pendingSize) 0)
        else context) (List.replicate 4 0))
      (message ++ List.replicate (paddingSize context.pendingSize) 0) := by
  rw [paddingSize, ← List.replicate_append_replicate, ← List.append_assoc]
  refine Absorbed.update ?_ _
  by_cases hpending : context.pendingSize ≠ 0
  · rw [if_pos hpending, if_pos hpending]
    exact h.update _
  · rw [if_neg hpending, if_neg hpending, List.replicate_zero, List.append_nil]
    exact h

/-- **The code computes Michael**: the zeros that it adds are between four and seven and fill up the
last word. -/
theorem michaelMic_eq_mic (key : FixedBytes 8) (destination source : FixedBytes 6)
    (priority : UInt8) (data : List UInt8) :
    ∃ zeros, 4 ≤ zeros ∧ zeros ≤ 7 ∧
      (Michael.message destination source priority data zeros).length % 4 = 0 ∧
      (michaelMic key destination source priority data).toList =
        Michael.mic key (Michael.message destination source priority data zeros) := by
  let begun : MichaelContext :=
    { left := key.le32 0, right := key.le32 4, pending := .zero 4, pendingSize := 0 }
  let header := destination.toList ++ source.toList ++ [priority, 0, 0, 0]
  let marked := michaelUpdate (michaelUpdate (michaelUpdate begun header) data) [0x5a]
  let padded := michaelUpdate
    (if marked.pendingSize ≠ 0 then
      michaelUpdate marked (List.replicate (4 - marked.pendingSize) 0)
    else marked) (List.replicate 4 0)
  have hbegun : Absorbed (Michael.start key) begun [] :=
    ⟨absorb_of_lt (by decide), Nat.zero_lt_succ 3⟩
  have hmarked : Absorbed (Michael.start key) marked (header ++ data ++ [0x5a]) :=
    ((hbegun.update header).update data).update [0x5a]
  have hpadded : Absorbed (Michael.start key) padded
      (Michael.message destination source priority data (paddingSize marked.pendingSize)) :=
    hmarked.pad
  have hpending := hmarked.pending
  refine ⟨paddingSize marked.pendingSize, Nat.le_add_left 4 _, ?_, ?_, ?_⟩
  · unfold paddingSize
    split <;> omega
  · rw [Michael.message, List.length_append, List.length_replicate, paddingSize]
    change ((header ++ data ++ [0x5a]).length + _) % 4 = 0
    rw [hpending]
    split <;> omega
  · change serializeLe32 padded.left ++ serializeLe32 padded.right = _
    rw [serialize_state, hpadded.state, Michael.mic]

end U80211
