import PlantManager.Mapping.Recency

/-! # A cache with a time to live

Each operation here is what one critical section of the cache does; the clock was read before the
section was entered. A write or a clear counts up the generation, and a computed value is stored
only if the generation is the one that its computation began with
(`Caching.TtlCache.publish`).
-/

namespace PlantManager.Caching

open Mapping

/-- An entry of the store: when it was stored, and its value. -/
abbrev Entry (ν : Type*) := ℚ × ν

structure TtlCache (κ ν : Type*) where
  ttl : ℚ
  maxEntries : ℕ
  store : Dictionary κ (Entry ν)
  generation : ℕ

namespace TtlCache

variable {κ ν : Type*} [DecidableEq κ] (cache : TtlCache κ ν)

def empty (κ ν : Type*) (ttl : ℚ) (maxEntries : ℕ) : TtlCache κ ν := ⟨ttl, maxEntries, ∅, 0⟩

/-- The entry of a key as the last, and no more entries than fit. -/
def storeLast (key : κ) (entry : Entry ν) : TtlCache κ ν :=
  { cache with store := (cache.store.push key entry).keepNewest cache.maxEntries }

/-- The unexpired entry of a key. -/
def fresh (now : ℚ) (key : κ) : Option (Entry ν) :=
  (cache.store.get key).filter fun entry => now - entry.1 < cache.ttl

/-- The entry of a key becomes the most recently used. -/
def touch (key : κ) (entry : Entry ν) : TtlCache κ ν :=
  { cache with store := cache.store.push key entry }

/-- The first section of `get_or_compute`. -/
def lookup (now : ℚ) (key : κ) : Option (Entry ν) × TtlCache κ ν :=
  match cache.fresh now key with
  | some entry => (some entry, cache.touch key entry)
  | none => (none, cache)

/-- The second section of `get_or_compute`. -/
def publish (generation : ℕ) (now : ℚ) (key : κ) (value : ν) : TtlCache κ ν :=
  if generation ≠ cache.generation then cache else cache.storeLast key (now, value)

/-- An expired entry is removed. -/
def peek (now : ℚ) (key : κ) : Option (Entry ν) × TtlCache κ ν :=
  match cache.fresh now key with
  | some entry => (some entry, cache.touch key entry)
  | none => (none, { cache with store := cache.store.erase key })

def set (now : ℚ) (key : κ) (value : ν) : TtlCache κ ν :=
  { cache.storeLast key (now, value) with generation := cache.generation + 1 }

def invalidate : Option κ → TtlCache κ ν
  | none => { cache with store := ∅, generation := cache.generation + 1 }
  | some key =>
      { cache with store := cache.store.erase key, generation := cache.generation + 1 }

/-! ## What the operations keep -/

variable {cache} {now : ℚ} {key : κ} {value : ν} {entry : Entry ν} {stored : κ × Entry ν}

theorem mem_of_fresh (found : cache.fresh now key = some entry) :
    (key, entry) ∈ cache.store.entries ∧ now - entry.1 < cache.ttl := by
  obtain ⟨got, unexpired⟩ := Option.filter_eq_some_iff.mp found
  exact ⟨Dictionary.get_eq_some_iff.mp got, of_decide_eq_true unexpired⟩

theorem lookup_of_some (found : cache.fresh now key = some entry) :
    cache.lookup now key = (some entry, cache.touch key entry) := by
  unfold lookup
  rw [found]

theorem lookup_of_none (missed : cache.fresh now key = none) :
    cache.lookup now key = (none, cache) := by
  unfold lookup
  rw [missed]

theorem peek_of_some (found : cache.fresh now key = some entry) :
    cache.peek now key = (some entry, cache.touch key entry) := by
  unfold peek
  rw [found]

theorem peek_of_none (missed : cache.fresh now key = none) :
    cache.peek now key = (none, { cache with store := cache.store.erase key }) := by
  unfold peek
  rw [missed]

theorem mem_touch (found : cache.fresh now key = some entry)
    (member : stored ∈ (cache.touch key entry).store.entries) : stored ∈ cache.store.entries := by
  rcases Dictionary.mem_entries_push.mp member with ⟨kept, -⟩ | rfl
  · exact kept
  · exact (mem_of_fresh found).1

theorem mem_storeLast (member : stored ∈ (cache.storeLast key entry).store.entries) :
    stored ∈ cache.store.entries ∧ stored.1 ≠ key ∨ stored = (key, entry) :=
  Dictionary.mem_entries_push.mp (Dictionary.mem_of_mem_keepNewest member)

theorem mem_invalidate {key : Option κ}
    (member : stored ∈ (cache.invalidate key).store.entries) :
    stored ∈ cache.store.entries ∧ ∃ other ∈ key, stored.1 ≠ other := by
  cases key with
  | none => exact absurd member List.not_mem_nil
  | some key =>
      obtain ⟨kept, other⟩ := Dictionary.mem_entries_erase.mp member
      exact ⟨kept, key, rfl, other⟩

@[simp]
theorem publish_ttl (generation : ℕ) : (cache.publish generation now key value).ttl = cache.ttl := by
  unfold publish
  split <;> rfl

@[simp]
theorem publish_generation (generation : ℕ) :
    (cache.publish generation now key value).generation = cache.generation := by
  unfold publish
  split <;> rfl

theorem mem_publish {generation : ℕ}
    (member : stored ∈ (cache.publish generation now key value).store.entries) :
    stored ∈ cache.store.entries ∨
      generation = cache.generation ∧ stored = (key, (now, value)) := by
  unfold publish at member
  split at member
  · exact .inl member
  · rename_i same
    exact (mem_storeLast member).imp And.left fun last => ⟨not_not.mp same, last⟩

@[simp]
theorem invalidate_ttl (key : Option κ) : (cache.invalidate key).ttl = cache.ttl := by
  cases key <;> rfl

@[simp]
theorem invalidate_generation (key : Option κ) :
    (cache.invalidate key).generation = cache.generation + 1 := by
  cases key <;> rfl

/-- The cache holds no more entries than it may. -/
def Bounded (cache : TtlCache κ ν) : Prop := cache.store.entries.length ≤ cache.maxEntries

theorem bounded_storeLast : (cache.storeLast key entry).Bounded :=
  Dictionary.length_keepNewest_le _ _

theorem Bounded.touch (bounded : cache.Bounded) (found : cache.fresh now key = some entry) :
    (cache.touch key entry).Bounded :=
  (Dictionary.length_push_of_mem entry
    (List.mem_map_of_mem (mem_of_fresh found).1)).trans bounded

theorem Bounded.erase (bounded : cache.Bounded) :
    TtlCache.Bounded { cache with store := cache.store.erase key } :=
  (Dictionary.length_erase_le _ _).trans bounded

theorem Bounded.publish (bounded : cache.Bounded) (generation : ℕ) :
    (cache.publish generation now key value).Bounded := by
  unfold TtlCache.publish
  split
  · exact bounded
  · exact bounded_storeLast

theorem Bounded.set : (cache.set now key value).Bounded :=
  Dictionary.length_keepNewest_le _ _

theorem Bounded.invalidate (bounded : cache.Bounded) (key : Option κ) :
    (cache.invalidate key).Bounded := by
  cases key with
  | none => exact Nat.zero_le _
  | some key => exact bounded.erase

end TtlCache

end PlantManager.Caching
