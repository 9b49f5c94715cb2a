/-! A cache that forgets: entries older than a time to live, and, when full, the entry used longest ago.
A capacity of zero is no limit. Times are given by the caller and do not decrease. -/
namespace Vdag

structure CacheEntry (ν : Type) where
  value : ν
  insertedAt : Nat
  lastUse : Nat
  deriving DecidableEq, Repr

/-- Uses are numbered, so no two entries were last used at once. -/
structure RecencyCache (κ ν : Type) where
  capacity : Nat
  timeToLive : Option Nat
  entries : List (κ × CacheEntry ν)
  uses : Nat
  deriving DecidableEq, Repr

namespace RecencyCache

variable {κ ν : Type} [DecidableEq κ]

def new (capacity : Nat) (timeToLive : Option Nat) : RecencyCache κ ν := ⟨capacity, timeToLive, [], 0⟩

def entry? (cache : RecencyCache κ ν) (key : κ) : Option (CacheEntry ν) :=
  (cache.entries.find? (fun entry => entry.1 == key)).map (·.2)

def hasExpired (cache : RecencyCache κ ν) (now : Nat) (entry : CacheEntry ν) : Bool :=
  match cache.timeToLive with
  | some limit => limit ≤ now - entry.insertedAt
  | none => false

def without (cache : RecencyCache κ ν) (key : κ) : RecencyCache κ ν :=
  { cache with entries := cache.entries.filter (fun entry => entry.1 != key) }

def get (cache : RecencyCache κ ν) (now : Nat) (key : κ) : Option ν × RecencyCache κ ν :=
  match cache.entry? key with
  | none => (none, { cache with uses := cache.uses + 1 })
  | some entry =>
      if cache.hasExpired now entry then (none, cache.without key)
      else
        let uses := cache.uses + 1
        (some entry.value,
          { cache with
            entries := cache.entries.map (fun other =>
              if other.1 = key then (key, { entry with lastUse := uses }) else other)
            uses })

def dropExpired (cache : RecencyCache κ ν) (now : Nat) : RecencyCache κ ν :=
  { cache with entries := cache.entries.filter (fun entry => !cache.hasExpired now entry.2) }

def leastRecent? : List (κ × CacheEntry ν) → Option κ
  | [] => none
  | entry :: rest =>
      some (rest.foldl (fun least other => if other.2.lastUse < least.2.lastUse then other else least) entry).1

def dropLeastRecent (cache : RecencyCache κ ν) : RecencyCache κ ν :=
  match leastRecent? cache.entries with
  | some key => cache.without key
  | none => cache

def dropOldest (cache : RecencyCache κ ν) : (count : Nat) → RecencyCache κ ν
  | 0 => cache
  | count + 1 => cache.dropLeastRecent.dropOldest count

def makeRoom (cache : RecencyCache κ ν) (now : Nat) : RecencyCache κ ν :=
  if cache.capacity = 0 then cache
  else
    let live := cache.dropExpired now
    live.dropOldest (live.entries.length + 1 - live.capacity)

def insert (cache : RecencyCache κ ν) (now : Nat) (key : κ) (value : ν) : RecencyCache κ ν :=
  let roomy := if (cache.entry? key).isSome then cache else cache.makeRoom now
  let uses := roomy.uses + 1
  { roomy.without key with entries := (key, ⟨value, now, uses⟩) :: (roomy.without key).entries, uses }

def invalidate (cache : RecencyCache κ ν) (key : κ) : Option ν × RecencyCache κ ν :=
  ((cache.entry? key).map (·.value), cache.without key)

def invalidateWhere (cache : RecencyCache κ ν) (dropped : κ → Bool) : Nat × RecencyCache κ ν :=
  let kept := cache.entries.filter (fun entry => !dropped entry.1)
  (cache.entries.length - kept.length, { cache with entries := kept })

def clear (cache : RecencyCache κ ν) : RecencyCache κ ν := { cache with entries := [] }

def size (cache : RecencyCache κ ν) : Nat := cache.entries.length

end RecencyCache

end Vdag
