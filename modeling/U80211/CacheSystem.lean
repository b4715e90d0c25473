import U80211.BssCache

/-!
# The cache and its callers

Callers allocate access points, hold and release the references that they own, and call the
operations of the cache, each of which runs as a whole: it holds `rwlock` from its first access to
its last one. An allocation gives memory that is not in use. A call that a caller must not make, or
that would access memory it must not access, is not enabled.
-/

namespace U80211

/-- What a call answers. -/
inductive CacheAnswer where
  | done
  | ap (found : Option AccessPoint)
  | aps (buffer : List AccessPoint)
  | count (n : Nat)
deriving DecidableEq

/-- A cache, the references that the callers own, and the answer of the last call. -/
structure CacheSystem where
  cache : BssCache
  owned : AccessPoint → Nat
  answer : CacheAnswer

/-- The calls. `allocate` comes with the contents of the new tree node, which nobody has written. -/
inductive CacheAction where
  | allocate (ap : AccessPoint) (node : RbNode AccessPoint)
  | hold (ap : AccessPoint)
  | release (ap : AccessPoint)
  | insert (ap : AccessPoint)
  | remove (mac : MacAddress)
  | find (mac : MacAddress)
  | getAps (capacity : Nat)
  | getCount
  | purge
  | deinit

namespace CacheSystem

/-- After `u80211_bss_cache_init`. -/
def init : CacheSystem where
  cache := .init
  owned := fun _ => 0
  answer := .done

/-- A bound on the rounds of the loops, for a cache that has as many entries as it has counted. -/
def rounds (s : CacheSystem) : Nat := s.cache.entryCount + 2

/-- The references of the callers after one of them has got those of the list. -/
def give (owned : AccessPoint → Nat) (aps : List AccessPoint) (ap : AccessPoint) : Nat :=
  owned ap + aps.count ap

/-- The references of the callers after one of them has given one back. -/
def giveBack (owned : AccessPoint → Nat) (ap : AccessPoint) : AccessPoint → Nat :=
  Function.update owned ap (owned ap - 1)

def step : CacheAction → CacheSystem → Option CacheSystem
  | .allocate ap node, s =>
    if s.cache.Allocated ap then none
    else
      some { cache := s.cache.apAllocate ap node, owned := give s.owned [ap],
             answer := .ap (some ap) }
  | .hold ap, s =>
    if s.owned ap = 0 then none
    else do
      let cache ← s.cache.apHold ap
      some { cache, owned := give s.owned [ap], answer := .done }
  | .release ap, s =>
    if s.owned ap = 0 then none
    else do
      let cache ← s.cache.apRelease ap
      some { cache, owned := giveBack s.owned ap, answer := .done }
  | .insert ap, s =>
    if s.owned ap = 0 then none
    else do
      let cache ← s.cache.insert s.rounds ap
      some { s with cache, answer := .done }
  | .remove mac, s => do
    let cache ← s.cache.remove s.rounds mac
    some { s with cache, answer := .done }
  | .find mac, s => do
    let (cache, found) ← s.cache.find s.rounds mac
    some { cache, owned := give s.owned found.toList, answer := .ap found }
  | .getAps capacity, s => do
    let (cache, buffer) ← s.cache.getAps s.rounds capacity
    some { cache, owned := give s.owned buffer, answer := .aps buffer }
  | .getCount, s => do
    let n ← s.cache.getCount
    some { s with answer := .count n }
  | .purge, s => do
    let cache ← s.cache.purge s.rounds
    some { s with cache, answer := .done }
  | .deinit, s => do
    let cache ← s.cache.deinit s.rounds
    some { s with cache, answer := .done }

end CacheSystem

end U80211
