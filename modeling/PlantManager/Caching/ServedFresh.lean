import PlantManager.Caching.CacheRuns

/-! # What the caches serve

No value is served beyond its time to live and no cache outgrows its limit
(`Caching.inTime_and_bounded`). As long as no `set` stores a value that was read before
a commit whose key was invalidated, a call returns nothing that was read before such a commit
(`Caching.served_fresh`). A page that renders while its data are changed does store
such a value (`Caching.stalePage`).
-/

namespace PlantManager.Caching

open Transition Mapping

section Claim

variable {ι κ β σ : Type*}

/-- A call returned nothing that was read before a commit that its key had been invalidated for when
the call began. -/
def Fresh (world : World ι κ β σ) : Prop :=
  ∀ served ∈ world.served, served.floor ≤ served.value.readAt

def InTime (world : World ι κ β σ) : Prop :=
  ∀ served ∈ world.served, ∀ age ∈ served.age, age < (world.caches served.cache).ttl

def Bounded (world : World ι κ β σ) : Prop := ∀ cache, (world.caches cache).Bounded

/-- What a `set` is to store was not read before a commit that its key is invalidated for, or before
the last commit of its own session. -/
def Call.SetsTimely (world : World ι κ β σ) : Call ι κ β → Prop
  | .setting cache key value _ commit => max (world.floor cache key) commit ≤ value.readAt
  | _ => True

instance (world : World ι κ β σ) : DecidablePred (Call.SetsTimely world)
  | .setting cache key value _ commit =>
      inferInstanceAs (Decidable (max (world.floor cache key) commit ≤ value.readAt))
  | .idle | .getting _ _ _ _ | .computing _ _ _ _ _ | .publishing _ _ _ _ _ _
  | .peeking _ _ _ _ | .paging _ _ _ _ | .rendering _ _ _ | .writing _ => isTrue trivial

def Timely (world : World ι κ β σ) : Action ι κ β σ → Prop
  | .setLocked session => (world.calls session).SetsTimely world
  | _ => True

instance (world : World ι κ β σ) : DecidablePred (Timely world)
  | .setLocked session => inferInstanceAs (Decidable ((world.calls session).SetsTimely world))
  | .wait _ | .getOrCompute _ _ _ | .lookup _ | .read _ | .compute _ _ | .publish _ | .peek _ _ _
  | .peekLocked _ | .getCachedResponse _ _ _ | .pageLocked _ | .storeCachedResponse _ _
  | .set _ _ _ _ | .commit _ | .invalidate _ _ _ | .leave _ => isTrue trivial

end Claim

variable {ι κ β σ : Type*} {world next : World ι κ β σ} {action : Action ι κ β σ}

/-! ## The invariant of a call -/

/-- What a call that is under way relies on. A computation whose generation is still that of its
cache has read nothing that was invalidated. -/
def Call.Sound (world : World ι κ β σ) : Call ι κ β → Prop
  | .idle | .rendering _ _ _ => True
  | .getting cache key floor _ | .peeking cache key floor _ | .paging cache key floor _ =>
      floor ≤ world.floor cache key
  | .computing cache key floor generation readAt =>
      floor ≤ world.floor cache key ∧ generation ≤ (world.caches cache).generation ∧
        ∀ read ∈ readAt, floor ≤ read ∧
          (generation = (world.caches cache).generation → world.floor cache key ≤ read)
  | .publishing cache key floor generation value _ =>
      floor ≤ value.readAt ∧ generation ≤ (world.caches cache).generation ∧
        (generation = (world.caches cache).generation → world.floor cache key ≤ value.readAt)
  | .setting _ _ _ _ commit | .writing commit => commit ≤ world.version

/-- A key is invalidated for more commits only together with a new generation. -/
structure Later (world next : World ι κ β σ) : Prop where
  version : world.version ≤ next.version
  floor : ∀ cache key, world.floor cache key ≤ next.floor cache key
  generation : ∀ cache, (world.caches cache).generation ≤ (next.caches cache).generation
  settled : ∀ cache, (world.caches cache).generation = (next.caches cache).generation →
    ∀ key, next.floor cache key = world.floor cache key

theorem Later.refl (world : World ι κ β σ) : Later world world :=
  ⟨le_rfl, fun _ _ => le_rfl, fun _ => le_rfl, fun _ _ _ => rfl⟩

variable {call : Call ι κ β}

theorem Call.Sound.later (sound : call.Sound world) (later : Later world next) :
    call.Sound next := by
  cases call with
  | idle | rendering cache key readAt => trivial
  | getting cache key floor now | peeking cache key floor now | paging cache key floor now =>
      exact le_trans sound (later.floor cache key)
  | computing cache key floor generation readAt =>
      obtain ⟨floor_le, generation_le, read⟩ := sound
      refine ⟨floor_le.trans (later.floor cache key),
        generation_le.trans (later.generation cache), fun at' known => ?_⟩
      refine ⟨(read at' known).1, fun same => ?_⟩
      have unchanged : (world.caches cache).generation = (next.caches cache).generation :=
        le_antisymm (later.generation cache) (same ▸ generation_le)
      rw [later.settled cache unchanged]
      exact (read at' known).2 (same.trans unchanged.symm)
  | publishing cache key floor generation value now =>
      obtain ⟨floor_le, generation_le, read⟩ := sound
      refine ⟨floor_le, generation_le.trans (later.generation cache), fun same => ?_⟩
      have unchanged : (world.caches cache).generation = (next.caches cache).generation :=
        le_antisymm (later.generation cache) (same ▸ generation_le)
      rw [later.settled cache unchanged]
      exact read (same.trans unchanged.symm)
  | setting cache key value now commit | writing commit => exact le_trans sound later.version

/-! ## What a step does -/

/-- A call asks for the unexpired entry of a key. -/
def Call.Asks (cache : ι) (key : κ) (floor : ℕ) (now : ℚ) (call : Call ι κ β) : Prop :=
  call = .getting cache key floor now ∨ call = .peeking cache key floor now ∨
    call = .paging cache key floor now

variable [DecidableEq ι] [DecidableEq κ] [DecidableEq σ]

inductive Did (world : World ι κ β σ) : Action ι κ β σ → World ι κ β σ → Prop
  | waited (action : Action ι κ β σ) (clock : ℚ) : Did world action { world with clock := clock }
  /-- Only the place of a call changes. -/
  | moved (action : Action ι κ β σ) (session : σ) (call : Call ι κ β)
      (kept : (∀ cache key, world.floor cache key ≤ world.version) →
        (world.calls session).Sound world → call.Sound world) :
      Did world action (world.goto session call)
  | hit (action : Action ι κ β σ) (session : σ) {cache : ι} {key : κ} {floor : ℕ} {now : ℚ}
      {entry : Entry (Computed β)} (asks : (world.calls session).Asks cache key floor now)
      (found : (world.caches cache).fresh now key = some entry) :
      Did world action
        (((world.setCache cache ((world.caches cache).touch key entry)).goto session .idle).serve
          ⟨cache, key, floor, entry.2, some (now - entry.1)⟩)
  | missed (action : Action ι κ β σ) (session : σ) (cache : ι) (key : κ) (call : Call ι κ β)
      (kept : ∀ world : World ι κ β σ, call.Sound world) :
      Did world action ((world.setCache cache
        { world.caches cache with store := (world.caches cache).store.erase key }).goto session call)
  | published (action : Action ι κ β σ) (session : σ) {cache : ι} {key : κ}
      {floor generation : ℕ} {value : Computed β} {now : ℚ}
      (publishing : world.calls session = .publishing cache key floor generation value now) :
      Did world action
        (((world.setCache cache ((world.caches cache).publish generation now key value)).goto
          session .idle).serve ⟨cache, key, floor, value, none⟩)
  | set (session : σ) {cache : ι} {key : κ} {value : Computed β} {now : ℚ} {commit : ℕ}
      (setting : world.calls session = .setting cache key value now commit) :
      Did world (.setLocked session)
        { (world.setCache cache ((world.caches cache).set now key value)).goto session
            (afterSet commit) with
          floor := raiseFloor world.floor cache (· = key) commit }
  | committed (action : Action ι κ β σ) (session : σ) :
      Did world action { world.goto session (.writing (world.version + 1)) with
        version := world.version + 1 }
  | invalidated (action : Action ι κ β σ) (session : σ) (cache : ι) (key : Option κ) {commit : ℕ}
      (last : (world.calls session).lastCommit = some commit) :
      Did world action { world.setCache cache ((world.caches cache).invalidate key) with
        floor := raiseFloor world.floor cache (fun other => ∀ wanted ∈ key, other = wanted)
          commit }

omit [DecidableEq ι] [DecidableEq κ] [DecidableEq σ] in
theorem Call.Sound.lastCommit_le {commit : ℕ} (sound : call.Sound world)
    (last : call.lastCommit = some commit) : commit ≤ world.version := by
  cases call <;> cases last
  · exact Nat.zero_le _
  · exact sound

theorem step_did (took : world.step action = some next) : Did world action next := by
  cases action with
  | wait seconds =>
      obtain ⟨-, rfl⟩ := Option.ite_some_none_eq_some.mp took
      exact .waited _ _
  | getOrCompute session cache key | peek session cache key | getCachedResponse session cache key =>
      rw [World.step] at took
      split at took
      · obtain rfl := Option.some.inj took
        exact .moved _ _ _ fun _ _ => le_refl (world.floor cache key)
      · cases took
  | lookup session =>
      rw [World.step] at took
      split at took
      · rename_i cache key floor now place
        cases found : (world.caches cache).fresh now key with
        | some entry =>
            rw [TtlCache.lookup_of_some found] at took
            obtain rfl := Option.some.inj took
            exact .hit _ _ (.inl place) found
        | none =>
            rw [TtlCache.lookup_of_none found] at took
            obtain rfl := Option.some.inj took
            refine .moved _ _ _ fun _ sound => ?_
            rw [place] at sound
            exact ⟨sound, le_rfl, fun _ known => absurd known (Option.not_mem_none _)⟩
      · cases took
  | peekLocked session =>
      rw [World.step] at took
      split at took
      · rename_i cache key floor now place
        cases found : (world.caches cache).fresh now key with
        | some entry =>
            rw [TtlCache.peek_of_some found] at took
            obtain rfl := Option.some.inj took
            exact .hit _ _ (.inr (.inl place)) found
        | none =>
            rw [TtlCache.peek_of_none found] at took
            obtain rfl := Option.some.inj took
            exact .missed _ _ _ _ _ fun _ => trivial
      · cases took
  | pageLocked session =>
      rw [World.step] at took
      split at took
      · rename_i cache key floor now place
        cases found : (world.caches cache).fresh now key with
        | some entry =>
            rw [TtlCache.peek_of_some found] at took
            obtain rfl := Option.some.inj took
            exact .hit _ _ (.inr (.inr place)) found
        | none =>
            rw [TtlCache.peek_of_none found] at took
            obtain rfl := Option.some.inj took
            exact .missed _ _ _ _ _ fun _ => trivial
      · cases took
  | read session =>
      rw [World.step] at took
      split at took
      · rename_i cache key floor generation place
        obtain rfl := Option.some.inj took
        refine .moved _ _ _ fun below sound => ?_
        rw [place] at sound
        refine ⟨sound.1, sound.2.1, fun read known => ?_⟩
        obtain rfl := Option.some.inj known
        exact ⟨sound.1.trans (below cache key), fun _ => below cache key⟩
      · obtain rfl := Option.some.inj took
        exact .moved _ _ _ fun _ _ => trivial
      · cases took
  | compute session body =>
      rw [World.step] at took
      split at took
      · rename_i cache key floor generation readAt place
        obtain rfl := Option.some.inj took
        refine .moved _ _ _ fun _ sound => ?_
        rw [place] at sound
        obtain ⟨-, generation_le, read⟩ := sound
        exact ⟨(read readAt rfl).1, generation_le, (read readAt rfl).2⟩
      · cases took
  | publish session =>
      rw [World.step] at took
      split at took
      · rename_i place
        obtain rfl := Option.some.inj took
        exact .published _ _ place
      · cases took
  | storeCachedResponse session body =>
      rw [World.step] at took
      split at took
      · obtain rfl := Option.some.inj took
        exact .moved _ _ _ fun _ _ => Nat.zero_le _
      · cases took
  | set session cache key value =>
      rw [World.step] at took
      split at took
      · rename_i commit last
        obtain ⟨-, rfl⟩ := Option.ite_some_none_eq_some.mp took
        exact .moved _ _ _ fun _ sound => sound.lastCommit_le last
      · cases took
  | setLocked session =>
      rw [World.step] at took
      split at took
      · rename_i place
        obtain rfl := Option.some.inj took
        exact .set _ place
      · cases took
  | commit session =>
      rw [World.step] at took
      split at took
      · obtain rfl := Option.some.inj took
        exact .committed _ _
      · cases took
  | invalidate session cache key =>
      rw [World.step] at took
      split at took
      · rename_i commit last
        obtain rfl := Option.some.inj took
        exact .invalidated _ _ _ _ last
      · cases took
  | leave session =>
      obtain rfl := Option.some.inj took
      exact .moved _ _ _ fun _ _ => trivial

/-! ## Time and room -/

omit [DecidableEq κ] [DecidableEq σ] in
/-- What holds of the caches, and of the new cache, holds after the change. -/
theorem forall_setCache (holds : ι → TtlCache κ (Computed β) → Prop) {cache : ι}
    {changed : TtlCache κ (Computed β)}
    (others : ∀ other, other ≠ cache → holds other (world.caches other)) (own : holds cache changed) (other : ι) :
    holds other ((world.setCache cache changed).caches other) := by
  change holds other (Function.update world.caches cache changed other)
  by_cases same : other = cache
  · rw [same, Function.update_self]
    exact own
  · rw [Function.update_of_ne same]
    exact others other same

theorem Did.ttl (did : Did world action next) (cache : ι) :
    (next.caches cache).ttl = (world.caches cache).ttl := by
  have kept : ∀ {changed : TtlCache κ (Computed β)} {at' : ι},
      changed.ttl = (world.caches at').ttl →
        ((world.setCache at' changed).caches cache).ttl = (world.caches cache).ttl :=
    fun same => forall_setCache (fun other changed => changed.ttl = (world.caches other).ttl)
      (fun _ _ => rfl) same cache
  cases did with
  | waited | moved | committed => rfl
  | hit | missed | set => exact kept rfl
  | published => exact kept (TtlCache.publish_ttl _)
  | invalidated => exact kept (TtlCache.invalidate_ttl _)

theorem Did.bounded (did : Did world action next) (bounded : Bounded world) : Bounded next := by
  have kept : ∀ {changed : TtlCache κ (Computed β)} {cache : ι}, changed.Bounded →
      Bounded (world.setCache cache changed) :=
    forall_setCache (fun _ changed => changed.Bounded) fun other _ => bounded other
  cases did with
  | waited | moved | committed => exact bounded
  | hit _ _ _ found => exact kept ((bounded _).touch found)
  | missed => exact kept (bounded _).erase
  | published => exact kept ((bounded _).publish _)
  | set => exact kept TtlCache.Bounded.set
  | invalidated => exact kept ((bounded _).invalidate _)

theorem Did.inTime (did : Did world action next) (inTime : InTime world) : InTime next := by
  intro served member age known
  rw [did.ttl served.cache]
  cases did with
  | waited | moved | committed | missed | set | invalidated =>
      exact inTime served member age known
  | hit _ _ _ found =>
      rcases List.mem_cons.mp member with rfl | member
      · obtain rfl := Option.some.inj known
        exact (TtlCache.mem_of_fresh found).2
      · exact inTime served member age known
  | published =>
      rcases List.mem_cons.mp member with rfl | member
      · exact absurd known (Option.not_mem_none _)
      · exact inTime served member age known

/-- Whatever is stored, no entry is served after its time and no cache holds too many. -/
theorem inTime_and_bounded {caches : ι → TtlCache κ (Computed β)}
    {allowed : World ι κ β σ → Action ι κ β σ → Prop}
    (bounded : ∀ cache, (caches cache).Bounded)
    (reachable : Reachable (World.initial σ caches) World.step allowed world) :
    InTime world ∧ Bounded world := by
  induction reachable with
  | initial => exact ⟨fun _ member => absurd member List.not_mem_nil, bounded⟩
  | step _ _ took ih => exact ⟨(step_did took).inTime ih.1, (step_did took).bounded ih.2⟩

/-! ## Freshness -/

/-- No entry was read before a commit that its key was invalidated for. -/
structure World.Sound (world : World ι κ β σ) : Prop where
  floor_le : ∀ cache key, world.floor cache key ≤ world.version
  stored : ∀ cache, ∀ stored ∈ (world.caches cache).store.entries,
    world.floor cache stored.1 ≤ stored.2.2.readAt
  calls : ∀ session, (world.calls session).Sound world
  served : Fresh world

omit [DecidableEq ι] [DecidableEq κ] in
theorem sound_goto (world : World ι κ β σ) {session : σ} (later : Later world next)
    (calls : ∀ other, (world.calls other).Sound world) (sound : call.Sound next) (other : σ) :
    (Function.update world.calls session call other).Sound next := by
  by_cases same : other = session
  · rw [same, Function.update_self]
    exact sound
  · rw [Function.update_of_ne same]
    exact (calls other).later later

omit [DecidableEq ι] [DecidableEq κ] [DecidableEq σ] in
/-- The calls and what is served do not matter here. -/
theorem Later.congr {other : World ι κ β σ} (later : Later world next)
    (caches : other.caches = next.caches) (version : other.version = next.version)
    (floor : other.floor = next.floor) : Later world other where
  version := version ▸ later.version
  floor := floor ▸ later.floor
  generation := caches ▸ later.generation
  settled := caches ▸ floor ▸ later.settled

omit [DecidableEq κ] [DecidableEq σ] in
theorem later_setCache (cache : ι) (changed : TtlCache κ (Computed β))
    (same : changed.generation = (world.caches cache).generation) :
    Later world (world.setCache cache changed) where
  version := le_rfl
  floor _ _ := le_rfl
  generation := forall_setCache
    (fun other changed => (world.caches other).generation ≤ changed.generation) (fun _ _ => le_rfl)
    same.ge
  settled _ _ _ := rfl

omit [DecidableEq κ] [DecidableEq σ] in
theorem floor_le_raiseFloor (floor : ι → κ → ℕ) (cache : ι) (keys : κ → Prop)
    [DecidablePred keys] (commit : ℕ) (other : ι) (key : κ) :
    floor other key ≤ raiseFloor floor cache keys commit other key := by
  unfold raiseFloor
  split
  · exact le_max_left _ _
  · exact le_rfl

omit [DecidableEq κ] [DecidableEq σ] in
/-- With a new generation the floor of a cache may be raised. -/
theorem later_raiseFloor (cache : ι) (changed : TtlCache κ (Computed β)) (keys : κ → Prop)
    [DecidablePred keys] (commit : ℕ)
    (counted : changed.generation = (world.caches cache).generation + 1) :
    Later world { world.setCache cache changed with
      floor := raiseFloor world.floor cache keys commit } where
  version := le_rfl
  floor := floor_le_raiseFloor _ _ _ _
  generation := forall_setCache
    (fun other changed => (world.caches other).generation ≤ changed.generation) (fun _ _ => le_rfl)
    (counted ▸ Nat.le_succ _)
  settled other unchanged key := by
    refine if_neg fun raised => ?_
    obtain ⟨rfl, -⟩ := raised
    change (world.caches other).generation =
      (Function.update world.caches other changed other).generation at unchanged
    rw [Function.update_self] at unchanged
    omega

theorem Did.later (did : Did world action next) : Later world next := by
  cases did with
  | waited | moved => exact (Later.refl world).congr rfl rfl rfl
  | @hit _ _ cache key _ _ entry =>
      exact (later_setCache cache ((world.caches cache).touch key entry) rfl).congr rfl rfl rfl
  | missed _ _ cache key =>
      exact (later_setCache cache { world.caches cache with
        store := (world.caches cache).store.erase key } rfl).congr rfl rfl rfl
  | @published _ _ cache key _ generation value now =>
      exact (later_setCache cache _ (TtlCache.publish_generation generation)).congr rfl rfl rfl
  | @set _ cache key value now commit =>
      exact (later_raiseFloor cache ((world.caches cache).set now key value) (· = key) commit
        rfl).congr rfl rfl rfl
  | committed => exact ⟨Nat.le_succ _, fun _ _ => le_rfl, fun _ => le_rfl, fun _ _ _ => rfl⟩
  | @invalidated _ _ cache key commit =>
      exact (later_raiseFloor cache _ (fun other => ∀ wanted ∈ key, other = wanted) commit
        (TtlCache.invalidate_generation key)).congr rfl rfl rfl

omit [DecidableEq κ] [DecidableEq σ] in
/-- A raised floor is either the old one or the commit, at a key it was raised for. -/
theorem raiseFloor_cases (floor : ι → κ → ℕ) (cache : ι) (keys : κ → Prop) [DecidablePred keys]
    (commit : ℕ) (other : ι) (key : κ) :
    raiseFloor floor cache keys commit other key = floor other key ∨
      other = cache ∧ keys key ∧
        raiseFloor floor cache keys commit other key = max (floor other key) commit := by
  unfold raiseFloor
  split
  · exact .inr ⟨‹_ ∧ _›.1, ‹_ ∧ _›.2, rfl⟩
  · exact .inl rfl

omit [DecidableEq κ] [DecidableEq σ] in
theorem raiseFloor_of_not {floor : ι → κ → ℕ} {cache other : ι} {keys : κ → Prop}
    [DecidablePred keys] {commit : ℕ} {key : κ} (elsewhere : ¬(other = cache ∧ keys key)) :
    raiseFloor floor cache keys commit other key = floor other key :=
  if_neg elsewhere

omit [DecidableEq κ] [DecidableEq σ] in
theorem raiseFloor_le {floor : ι → κ → ℕ} {cache : ι} {keys : κ → Prop} [DecidablePred keys]
    {commit version : ℕ} (below : ∀ cache key, floor cache key ≤ version)
    (commit_le : commit ≤ version) (other : ι) (key : κ) :
    raiseFloor floor cache keys commit other key ≤ version := by
  rcases raiseFloor_cases floor cache keys commit other key with same | ⟨-, -, raised⟩
  · exact same ▸ below other key
  · exact raised ▸ max_le (below other key) commit_le

omit [DecidableEq ι] [DecidableEq κ] [DecidableEq σ] in
theorem Call.Sound.asked {cache : ι} {key : κ} {floor : ℕ} {now : ℚ} (sound : call.Sound world)
    (asks : call.Asks cache key floor now) : floor ≤ world.floor cache key := by
  rcases asks with rfl | rfl | rfl <;> exact sound

theorem Did.sound (did : Did world action next) (sound : world.Sound)
    (timely : Timely world action) : next.Sound := by
  have later := did.later
  cases did with
  | waited =>
      exact ⟨sound.floor_le, sound.stored, fun session => (sound.calls session).later later,
        sound.served⟩
  | moved _ session call kept =>
      exact ⟨sound.floor_le, sound.stored,
        sound_goto world later sound.calls ((kept sound.floor_le (sound.calls session)).later later),
        sound.served⟩
  | @hit _ session cache key floor now entry asks found =>
      refine ⟨sound.floor_le, ?_, sound_goto world later sound.calls trivial, ?_⟩
      · exact forall_setCache (fun other changed => ∀ stored ∈ changed.store.entries,
          world.floor other stored.1 ≤ stored.2.2.readAt) (fun other _ => sound.stored other)
          fun stored member => sound.stored cache stored (TtlCache.mem_touch found member)
      · rintro served member
        rcases List.mem_cons.mp member with rfl | member
        · exact ((sound.calls session).asked asks).trans
            (sound.stored cache _ (TtlCache.mem_of_fresh found).1)
        · exact sound.served served member
  | missed _ session cache key call kept =>
      refine ⟨sound.floor_le, ?_, sound_goto world later sound.calls (kept _), sound.served⟩
      exact forall_setCache (fun other changed => ∀ stored ∈ changed.store.entries,
        world.floor other stored.1 ≤ stored.2.2.readAt) (fun other _ => sound.stored other)
        fun stored member => sound.stored cache stored (Dictionary.mem_entries_erase.mp member).1
  | @published _ session cache key floor generation value now publishing =>
      have known := sound.calls session
      rw [publishing] at known
      obtain ⟨floor_le, -, unchanged⟩ := known
      refine ⟨sound.floor_le, ?_, sound_goto world later sound.calls trivial, ?_⟩
      · refine forall_setCache (fun other changed => ∀ stored ∈ changed.store.entries,
          world.floor other stored.1 ≤ stored.2.2.readAt) (fun other _ => sound.stored other)
          fun stored member => ?_
        rcases TtlCache.mem_publish member with kept | ⟨same, rfl⟩
        · exact sound.stored cache stored kept
        · exact unchanged same
      · rintro served member
        rcases List.mem_cons.mp member with rfl | member
        · exact floor_le
        · exact sound.served served member
  | @set session cache key value now commit setting =>
      have commit_le := sound.calls session
      rw [setting] at commit_le
      have read : max (world.floor cache key) commit ≤ value.readAt := by
        simp only [Timely, setting] at timely
        exact timely
      refine ⟨raiseFloor_le sound.floor_le commit_le, ?_, ?_, sound.served⟩
      · refine forall_setCache (fun other changed => ∀ stored ∈ changed.store.entries,
          raiseFloor world.floor cache (· = key) commit other stored.1 ≤ stored.2.2.readAt)
          (fun other elsewhere stored member => ?_) fun stored member => ?_
        · rw [raiseFloor_of_not fun raised => elsewhere raised.1]
          exact sound.stored other stored member
        · rcases TtlCache.mem_storeLast member with ⟨kept, other⟩ | rfl
          · have same : raiseFloor world.floor cache (· = key) commit cache stored.1 =
                world.floor cache stored.1 := raiseFloor_of_not fun raised => other raised.2
            exact same ▸ sound.stored cache stored kept
          · exact (if_pos ⟨rfl, rfl⟩ : raiseFloor world.floor cache (· = key) commit cache key =
              max (world.floor cache key) commit).trans_le read
      · refine sound_goto world later sound.calls ?_
        unfold afterSet
        split
        · trivial
        · exact commit_le
  | committed _ session =>
      refine ⟨fun cache key => (sound.floor_le cache key).trans (Nat.le_succ _), sound.stored,
        sound_goto world later sound.calls (le_refl (world.version + 1)), sound.served⟩
  | @invalidated _ session cache key commit last =>
      refine ⟨raiseFloor_le sound.floor_le ((sound.calls session).lastCommit_le last), ?_,
        fun session => (sound.calls session).later later, sound.served⟩
      refine forall_setCache (fun other changed => ∀ stored ∈ changed.store.entries,
        raiseFloor world.floor cache (fun other => ∀ wanted ∈ key, other = wanted) commit other
          stored.1 ≤ stored.2.2.readAt) (fun other elsewhere stored member => ?_)
        fun stored member => ?_
      · rw [raiseFloor_of_not fun raised => elsewhere raised.1]
        exact sound.stored other stored member
      · obtain ⟨kept, wanted, isKey, other⟩ := TtlCache.mem_invalidate member
        have same : raiseFloor world.floor cache (fun other => ∀ wanted ∈ key, other = wanted) commit
            cache stored.1 = world.floor cache stored.1 :=
          raiseFloor_of_not fun raised => other (raised.2 wanted isKey)
        exact same ▸ sound.stored cache stored kept

/-- In a run whose every `set` is timely, no call returns what was read before a commit that its key
was invalidated for when it began; no entry is served after its time, and no cache holds more
entries than it may. -/
theorem served_fresh {caches : ι → TtlCache κ (Computed β)}
    (empty : ∀ cache, (caches cache).store = ∅)
    (reachable : Reachable (World.initial σ caches) World.step Timely world) :
    Fresh world ∧ InTime world ∧ Bounded world := by
  refine ⟨?_, inTime_and_bounded (fun cache => ?_) reachable⟩
  · have sound : world.Sound := by
      induction reachable with
      | initial =>
          refine ⟨fun _ _ => le_rfl, fun cache stored member => ?_, fun _ => trivial,
            fun _ member => absurd member List.not_mem_nil⟩
          exact absurd (empty cache ▸ member) List.not_mem_nil
      | step _ timely took ih => exact (step_did took).sound ih timely
    exact sound.served
  · rw [TtlCache.Bounded, empty cache]
    exact Nat.zero_le _

/-! ## A page that renders while its data change -/

/-- Session 0 renders a page of today, and session 1 saves and invalidates in the meantime. -/
def savedWhileRendering : List (Action Bucket ℕ ℕ ℕ) :=
  [.getCachedResponse 0 .today 7, .pageLocked 0, .read 0, .commit 1] ++ invalidateTodayCache 1 ++
    [.leave 1, .storeCachedResponse 0 5, .setLocked 0, .getCachedResponse 2 .today 7, .pageLocked 2]

theorem runs_savedWhileRendering :
    (run World.step (World.initial ℕ (responseCache ℕ (Computed ℕ)))
      savedWhileRendering).isSome = true := by
  decide +kernel

/-- The next page is the one without what was saved. -/
theorem stalePage : ∃ world : World Bucket ℕ ℕ ℕ,
    Reachable (World.initial ℕ (responseCache ℕ (Computed ℕ))) World.step (fun _ _ => True) world ∧
      ¬(Fresh world ∧ InTime world ∧ Bounded world) := by
  refine ⟨_, Reachable.run .initial (fun _ _ _ => trivial)
    (Option.some_get runs_savedWhileRendering).symm, fun holds => ?_⟩
  have stale : ∃ served ∈ ((run World.step (World.initial ℕ (responseCache ℕ (Computed ℕ)))
      savedWhileRendering).get runs_savedWhileRendering).served,
        served.value.readAt < served.floor := by
    decide +kernel
  obtain ⟨served, member, older⟩ := stale
  exact absurd (holds.1 served member) (not_le.mpr older)

/-- Two sessions compute the same key, and the data change in between. -/
def savedWhileComputing : List (Action Bucket ℕ ℕ ℕ) :=
  [.getOrCompute 0 .today 7, .lookup 0, .read 0, .commit 1] ++ invalidateAllCache 1 ++
    [.leave 1, .compute 0 5, .publish 0, .getOrCompute 2 .today 7, .lookup 2, .read 2,
      .compute 2 6, .publish 2, .wait 59, .peek 3 .today 7, .peekLocked 3]

theorem runs_savedWhileComputing :
    (run World.step (World.initial ℕ (responseCache ℕ (Computed ℕ)))
      savedWhileComputing).isSome = true := by
  decide +kernel

def computedWorld : World Bucket ℕ ℕ ℕ :=
  (run World.step (World.initial ℕ (responseCache ℕ (Computed ℕ))) savedWhileComputing).get
    runs_savedWhileComputing

theorem served_fresh_computed :
    Fresh computedWorld ∧ InTime computedWorld ∧ Bounded computedWorld :=
  served_fresh (fun cache => by cases cache <;> rfl)
    (Reachable.run_permitted .initial (by decide +kernel)
      (Option.some_get runs_savedWhileComputing).symm)

end PlantManager.Caching
