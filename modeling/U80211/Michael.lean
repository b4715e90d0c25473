import U80211.Lib.Memory

/-!
# `src/michael.c`: the message integrity code of TKIP
-/

namespace U80211

open Memory

/-- `michael_context_t` -/
structure MichaelContext where
  left : UInt32
  right : UInt32
  pending : FixedBytes 4
  pendingSize : Nat
deriving DecidableEq

def rotateLeft (value amount : UInt32) : UInt32 := value <<< amount ||| value >>> (32 - amount)

def rotateRight (value amount : UInt32) : UInt32 := value >>> amount ||| value <<< (32 - amount)

def exchangeBytes (value : UInt32) : UInt32 :=
  (value &&& 0x00ff00ff) <<< 8 ||| (value &&& 0xff00ff00) >>> 8

/-- `michael_block` -/
def michaelBlock (context : MichaelContext) (word : UInt32) : MichaelContext :=
  let left := context.left ^^^ word
  let right := context.right ^^^ rotateLeft left 17
  let left := left + right
  let right := right ^^^ exchangeBytes left
  let left := left + right
  let right := right ^^^ rotateLeft left 3
  let left := left + right
  let right := right ^^^ rotateRight left 2
  let left := left + right
  { context with left, right }

/-- The first loop of `michael_update`: fill up the pending word; the bytes that are left. -/
def michaelFill (context : MichaelContext) : List UInt8 → MichaelContext × List UInt8
  | [] => (context, [])
  | b :: bs =>
    if context.pendingSize < 4 then
      michaelFill
        { context with
          pending := context.pending.set context.pendingSize b
          pendingSize := context.pendingSize + 1 } bs
    else (context, b :: bs)

/-- The second loop of `michael_update`: the whole words; the bytes that are left. -/
def michaelWords (context : MichaelContext) : List UInt8 → MichaelContext × List UInt8
  | b₀ :: b₁ :: b₂ :: b₃ :: bs =>
    michaelWords (michaelBlock context (UInt32.ofNat (leValue [b₀, b₁, b₂, b₃]))) bs
  | bs => (context, bs)

/-- `michael_update` -/
def michaelUpdate (context : MichaelContext) (data : List UInt8) : MichaelContext :=
  let (context, data) :=
    if context.pendingSize ≠ 0 then
      let (context, data) := michaelFill context data
      if context.pendingSize = 4 then
        ({ michaelBlock context (context.pending.le32 0) with pendingSize := 0 }, data)
      else (context, data)
    else (context, data)
  let (context, data) := michaelWords context data
  if data.length ≠ 0 then
    { context with pending := context.pending.copy data, pendingSize := data.length }
  else context

/-- `u80211_michael_mic` -/
def michaelMic (key : FixedBytes 8) (destination source : FixedBytes 6) (priority : UInt8)
    (data : List UInt8) : FixedBytes 8 :=
  let pseudoHeader := destination.toList ++ source.toList ++ [priority, 0, 0, 0]
  let context : MichaelContext :=
    { left := key.le32 0, right := key.le32 4, pending := .zero 4, pendingSize := 0 }
  let context := michaelUpdate context pseudoHeader
  let context := michaelUpdate context data
  let context := michaelUpdate context [0x5a]
  let context :=
    if context.pendingSize ≠ 0 then
      michaelUpdate context (List.replicate (4 - context.pendingSize) 0)
    else context
  let context := michaelUpdate context (List.replicate 4 0)
  ⟨serializeLe32 context.left ++ serializeLe32 context.right, by
    rw [List.length_append, serializeLe32, serializeLe32, length_leBytes, length_leBytes]⟩

end U80211
