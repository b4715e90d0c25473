import U80211.Basic
import U80211.RbTree

/-!
# `src/bss_cache.c`: the cache of access points

An access point stands for its address: what never changes in it is part of the name, its counter
and its tree node are in memory for as long as it is allocated. An access through `NULL` or to an
access point that has been freed answers `none`, as does a loop that has not ended within the
bound on its rounds.
-/

namespace U80211

/-! ## Comparison -/

/-- The loop of `mac_compare`. -/
def bytesCompare : List UInt8 → List UInt8 → Int
  | a :: as, b :: bs => if a < b then -1 else if a > b then 1 else bytesCompare as bs
  | _, _ => 0

/-- `mac_compare` -/
def macCompare (a b : MacAddress) : Int := bytesCompare a.toList b.toList

/-- `rbtree_mac_compare` -/
def rbtreeMacCompare (a b : AccessPoint) : Int := macCompare a.macAddress b.macAddress

/-- `rbtree_value_compare` -/
def rbtreeValueCompare (a : MacAddress) (b : AccessPoint) : Int := macCompare a b.macAddress

/-! ## State -/

/-- `bss_cache_t`, with the counters and the tree nodes of all access points in memory. -/
structure BssCache where
  /-- `root`, and the member `cache_node` of the access points -/
  tree : RbTree AccessPoint
  entryCount : Nat
  /-- `rwlock` is not `NULL` -/
  rwlock : Bool
  /-- the member `refcount` of the access points, an `int` that wraps around -/
  refcount : AccessPoint → Int32

namespace BssCache

/-- `u80211_bss_cache_init` when the lock can be allocated, with no access point in memory. -/
def init : BssCache where
  tree := { nodes := fun _ => none, root := none }
  entryCount := 0
  rwlock := true
  refcount := fun _ => 0

/-- The access point is in memory. -/
def Allocated (c : BssCache) (ap : AccessPoint) : Prop := c.tree.nodes ap ≠ none

instance (c : BssCache) (ap : AccessPoint) : Decidable (c.Allocated ap) :=
  inferInstanceAs (Decidable (_ ≠ _))

/-- `u80211_ap_allocate`: the memory comes with the reference of the caller. The tree node is as the
allocator leaves it. -/
def apAllocate (c : BssCache) (ap : AccessPoint) (node : RbNode AccessPoint) : BssCache :=
  { c with
    tree := { c.tree with nodes := Function.update c.tree.nodes ap (some node) }
    refcount := Function.update c.refcount ap 1 }

/-- `u80211_ap_inactive` -/
def apInactive (c : BssCache) (ap : AccessPoint) : BssCache :=
  { c with tree := { c.tree with nodes := Function.update c.tree.nodes ap none } }

/-- `u80211_ap_hold` -/
def apHold (c : BssCache) (ap : AccessPoint) : Option BssCache :=
  if c.Allocated ap then
    some { c with refcount := Function.update c.refcount ap (c.refcount ap + 1) }
  else none

/-- `u80211_ap_release` -/
def apRelease (c : BssCache) (ap : AccessPoint) : Option BssCache :=
  if c.Allocated ap then
    let c := { c with refcount := Function.update c.refcount ap (c.refcount ap - 1) }
    some (if c.refcount ap = 0 then c.apInactive ap else c)
  else none

/-- `--cache->entry_count` -/
def decrement (c : BssCache) : Option BssCache :=
  if c.entryCount = 0 then none else some { c with entryCount := c.entryCount - 1 }

/-- The body of a section under `rwlock`. -/
def locked {β : Type} (c : BssCache) (body : Option β) : Option β :=
  if c.rwlock then body else none

/-- The first node of the tree, `NULL` if it is empty. -/
def firstNode (c : BssCache) (fuel : Nat) : Option (Option AccessPoint) :=
  match c.tree.root with
  | none => some none
  | some root => (c.tree.first fuel root).map some

/-! ## Operations -/

variable (fuel : Nat)

/-- An access point is taken out of the tree and the reference of the cache is released. -/
def drop (c : BssCache) (ap : AccessPoint) : Option BssCache := do
  let tree ← c.tree.remove ap fuel
  let c ← { c with tree }.decrement
  c.apRelease ap

/-- The loop of `u80211_bss_cache_deinit`. -/
def deinitLoop (c : BssCache) : Nat → Option AccessPoint → Option BssCache
  | 0, _ => none
  | _ + 1, none => some c
  | n + 1, some iterator => do
    let next ← c.tree.successor fuel iterator
    let c ← c.drop fuel iterator
    c.deinitLoop n next

/-- `u80211_bss_cache_deinit` -/
def deinit (c : BssCache) : Option BssCache :=
  c.locked do
    let c ← c.deinitLoop fuel fuel (← c.firstNode fuel)
    some { c with rwlock := false, tree := { c.tree with root := none } }

/-- The loop of `u80211_bss_cache_purge`. -/
def purgeLoop (c : BssCache) : Nat → Option AccessPoint → Option BssCache
  | 0, _ => none
  | _ + 1, none => some c
  | n + 1, some iterator => do
    let next ← c.tree.successor fuel iterator
    let c ← if c.refcount iterator = 1 then c.drop fuel iterator else some c
    c.purgeLoop n next

/-- `u80211_bss_cache_purge` -/
def purge (c : BssCache) : Option BssCache :=
  c.locked do c.purgeLoop fuel fuel (← c.firstNode fuel)

/-- `u80211_bss_cache_insert` -/
def insert (c : BssCache) (ap : AccessPoint) : Option BssCache :=
  c.locked do
    if ¬ c.Allocated ap then none
    else
      match ← c.tree.lookup rbtreeValueCompare ap.macAddress fuel c.tree.root with
      | some _ => some c
      | none =>
        let tree ← c.tree.insert rbtreeMacCompare fuel ap
        let c ← { c with tree }.apHold ap
        some { c with entryCount := c.entryCount + 1 }

/-- `u80211_bss_cache_remove` -/
def remove (c : BssCache) (mac : MacAddress) : Option BssCache :=
  c.locked do
    match ← c.tree.lookup rbtreeValueCompare mac fuel c.tree.root with
    | none => some c
    | some node => c.drop fuel node

/-- `u80211_bss_cache_find` -/
def find (c : BssCache) (mac : MacAddress) : Option (BssCache × Option AccessPoint) :=
  c.locked do
    match ← c.tree.lookup rbtreeValueCompare mac fuel c.tree.root with
    | none => some (c, none)
    | some node =>
      let c ← c.apHold node
      some (c, some node)

/-- The loop of `u80211_bss_cache_get_aps`, with what the buffer holds so far. -/
def getApsLoop (c : BssCache) (capacity : Nat) (buffer : List AccessPoint) :
    Nat → Option AccessPoint → Option (BssCache × List AccessPoint)
  | 0, _ => none
  | _ + 1, none => some (c, buffer)
  | n + 1, some iterator =>
    if buffer.length < capacity then do
      let c ← c.apHold iterator
      c.getApsLoop capacity (buffer ++ [iterator]) n (← c.tree.successor fuel iterator)
    else some (c, buffer)

/-- `u80211_bss_cache_get_aps`: what it has written to the buffer. -/
def getAps (c : BssCache) (capacity : Nat) : Option (BssCache × List AccessPoint) :=
  c.locked do c.getApsLoop fuel capacity [] fuel (← c.firstNode fuel)

/-- `u80211_bss_cache_get_count` -/
def getCount (c : BssCache) : Option Nat := c.locked (some c.entryCount)

end BssCache

end U80211
