import PlantManager.Caching.TtlCache
import PlantManager.Transition.Runs

/-! # Calls to the caches

Sessions call the caches of one process; a critical section is one step, and so are the reading of
the clock, the reading of the data and a commit. Commits are numbered in their order. A page looks
for its response, reads the data, renders and stores the response.
-/

namespace PlantManager.Caching

/-- A value, and the number of the last commit when the first of its data were read. -/
structure Computed (β : Type*) where
  body : β
  readAt : ℕ
  deriving DecidableEq

/-- Where a session is. `floor` is the latest commit that the key was invalidated for when the call
began, and `now` what the call read from the clock. -/
inductive Call (ι κ β : Type*) where
  | idle
  /-- In `get_or_compute` before the lookup. -/
  | getting (cache : ι) (key : κ) (floor : ℕ) (now : ℚ)
  | computing (cache : ι) (key : κ) (floor generation : ℕ) (readAt : Option ℕ)
  | publishing (cache : ι) (key : κ) (floor generation : ℕ) (value : Computed β) (now : ℚ)
  | peeking (cache : ι) (key : κ) (floor : ℕ) (now : ℚ)
  /-- A page looks for its response. -/
  | paging (cache : ι) (key : κ) (floor : ℕ) (now : ℚ)
  | rendering (cache : ι) (key : κ) (readAt : Option ℕ)
  /-- In `set`, by a session whose last commit is `commit`. -/
  | setting (cache : ι) (key : κ) (value : Computed β) (now : ℚ) (commit : ℕ)
  /-- The session did the commit, and is to invalidate what depends on it. -/
  | writing (commit : ℕ)

/-- A value that a call returned. `age` is that of the entry when the value is from the store. -/
structure Served (ι κ β : Type*) where
  cache : ι
  key : κ
  floor : ℕ
  value : Computed β
  age : Option ℚ

/-- `floor` is the latest commit that a key of a cache was invalidated for. -/
structure World (ι κ β σ : Type*) where
  caches : ι → TtlCache κ (Computed β)
  clock : ℚ
  version : ℕ
  floor : ι → κ → ℕ
  calls : σ → Call ι κ β
  served : List (Served ι κ β)

inductive Action (ι κ β σ : Type*) where
  | wait (seconds : ℚ)
  | getOrCompute (session : σ) (cache : ι) (key : κ)
  | lookup (session : σ)
  /-- A computation or a page reads its first data. -/
  | read (session : σ)
  | compute (session : σ) (body : β)
  | publish (session : σ)
  | peek (session : σ) (cache : ι) (key : κ)
  | peekLocked (session : σ)
  | getCachedResponse (session : σ) (cache : ι) (key : κ)
  | pageLocked (session : σ)
  | storeCachedResponse (session : σ) (body : β)
  | set (session : σ) (cache : ι) (key : κ) (value : Computed β)
  | setLocked (session : σ)
  | commit (session : σ)
  | invalidate (session : σ) (cache : ι) (key : Option κ)
  /-- A writer returns, or a call raises. -/
  | leave (session : σ)

variable {ι κ β σ : Type*}

def World.initial (σ : Type*) (caches : ι → TtlCache κ (Computed β)) : World ι κ β σ where
  caches := caches
  clock := 0
  version := 0
  floor := fun _ _ => 0
  calls := fun _ => .idle
  served := []

/-- The last commit of a session that does not compute or look for anything. -/
def Call.lastCommit : Call ι κ β → Option ℕ
  | .idle => some 0
  | .writing commit => some commit
  | _ => none

/-- A session that has committed stays a writer. -/
def afterSet (commit : ℕ) : Call ι κ β := if commit = 0 then .idle else .writing commit

section Steps

variable [DecidableEq ι] [DecidableEq κ] [DecidableEq σ]

def World.goto (world : World ι κ β σ) (session : σ) (call : Call ι κ β) : World ι κ β σ :=
  { world with calls := Function.update world.calls session call }

def World.setCache (world : World ι κ β σ) (cache : ι) (changed : TtlCache κ (Computed β)) :
    World ι κ β σ :=
  { world with caches := Function.update world.caches cache changed }

def World.serve (world : World ι κ β σ) (served : Served ι κ β) : World ι κ β σ :=
  { world with served := served :: world.served }

/-- Later calls for these keys are to see a commit. -/
def raiseFloor (floor : ι → κ → ℕ) (cache : ι) (keys : κ → Prop) [DecidablePred keys]
    (commit : ℕ) : ι → κ → ℕ :=
  fun other key => if other = cache ∧ keys key then max (floor other key) commit else floor other key

def World.step (world : World ι κ β σ) : Action ι κ β σ → Option (World ι κ β σ)
  | .wait seconds =>
      if 0 ≤ seconds then some { world with clock := world.clock + seconds } else none
  | .getOrCompute session cache key =>
      match world.calls session with
      | .idle => some (world.goto session (.getting cache key (world.floor cache key) world.clock))
      | _ => none
  | .lookup session =>
      match world.calls session with
      | .getting cache key floor now =>
          match (world.caches cache).lookup now key with
          | (some entry, changed) =>
              some (((world.setCache cache changed).goto session .idle).serve
                ⟨cache, key, floor, entry.2, some (now - entry.1)⟩)
          | (none, _) =>
              some (world.goto session
                (.computing cache key floor (world.caches cache).generation none))
      | _ => none
  | .read session =>
      match world.calls session with
      | .computing cache key floor generation none =>
          some (world.goto session (.computing cache key floor generation (some world.version)))
      | .rendering cache key none =>
          some (world.goto session (.rendering cache key (some world.version)))
      | _ => none
  | .compute session body =>
      match world.calls session with
      | .computing cache key floor generation (some readAt) =>
          some (world.goto session
            (.publishing cache key floor generation ⟨body, readAt⟩ world.clock))
      | _ => none
  | .publish session =>
      match world.calls session with
      | .publishing cache key floor generation value now =>
          some (((world.setCache cache
              ((world.caches cache).publish generation now key value)).goto session .idle).serve
            ⟨cache, key, floor, value, none⟩)
      | _ => none
  | .peek session cache key =>
      match world.calls session with
      | .idle => some (world.goto session (.peeking cache key (world.floor cache key) world.clock))
      | _ => none
  | .peekLocked session =>
      match world.calls session with
      | .peeking cache key floor now =>
          match (world.caches cache).peek now key with
          | (some entry, changed) =>
              some (((world.setCache cache changed).goto session .idle).serve
                ⟨cache, key, floor, entry.2, some (now - entry.1)⟩)
          | (none, changed) => some ((world.setCache cache changed).goto session .idle)
      | _ => none
  | .getCachedResponse session cache key =>
      match world.calls session with
      | .idle => some (world.goto session (.paging cache key (world.floor cache key) world.clock))
      | _ => none
  | .pageLocked session =>
      match world.calls session with
      | .paging cache key floor now =>
          match (world.caches cache).peek now key with
          | (some entry, changed) =>
              some (((world.setCache cache changed).goto session .idle).serve
                ⟨cache, key, floor, entry.2, some (now - entry.1)⟩)
          | (none, changed) =>
              some ((world.setCache cache changed).goto session (.rendering cache key none))
      | _ => none
  | .storeCachedResponse session body =>
      match world.calls session with
      | .rendering cache key (some readAt) =>
          some (world.goto session (.setting cache key ⟨body, readAt⟩ world.clock 0))
      | _ => none
  | .set session cache key value =>
      match (world.calls session).lastCommit with
      | some commit =>
          if value.readAt ≤ world.version then
            some (world.goto session (.setting cache key value world.clock commit))
          else none
      | none => none
  | .setLocked session =>
      match world.calls session with
      | .setting cache key value now commit =>
          some { (world.setCache cache ((world.caches cache).set now key value)).goto session
              (afterSet commit) with
            floor := raiseFloor world.floor cache (· = key) commit }
      | _ => none
  | .commit session =>
      match (world.calls session).lastCommit with
      | some _ =>
          some { world.goto session (.writing (world.version + 1)) with
            version := world.version + 1 }
      | none => none
  | .invalidate session cache key =>
      match (world.calls session).lastCommit with
      | some commit =>
          some { world.setCache cache ((world.caches cache).invalidate key) with
            floor := raiseFloor world.floor cache (fun other => ∀ wanted ∈ key, other = wanted)
              commit }
      | none => none
  | .leave session => some (world.goto session .idle)

end Steps

/-! ## Responses of pages -/

/-- The caches of responses. -/
inductive Bucket where
  | today
  | past
  | stable
  deriving DecidableEq, Repr

def responseCache (κ ν : Type*) : Bucket → TtlCache κ ν
  | .today => .empty κ ν 60 64
  | .past => .empty κ ν 300 128
  | .stable => .empty κ ν 600 32

def bucketFor (includesToday stable : Bool) : Bucket :=
  if stable then .stable else if includesToday then .today else .past

/-- The sections of the functions that writers call. -/
def invalidateTodayCache {κ β σ : Type*} (session : σ) : List (Action Bucket κ β σ) :=
  [.invalidate session .today none]

def invalidateStableCache {κ β σ : Type*} (session : σ) : List (Action Bucket κ β σ) :=
  [.invalidate session .stable none]

def invalidateAllCache {κ β σ : Type*} (session : σ) : List (Action Bucket κ β σ) :=
  [.invalidate session .today none, .invalidate session .past none,
    .invalidate session .stable none]

end PlantManager.Caching
