import PlantManager.Production.LeaderboardCache

/-! # The totals of a past day are those of the whole day

A call for a past day answers with the totals of all readings of the day, if the rows that it loads
were fetched when no reading was still to come and the clock cut nothing
(`Production.Leaderboard.past_day_whole`). Totals that were stored while the day was
not over are loaded later like any others
(`Production.Leaderboard.partial_day_served`).
-/

namespace PlantManager.Production.Leaderboard

open PlantManager.Ranking Transition

variable {plant : Plant} {readings : String → List Reading}

/-- An answer to a call after the day is what a fetch returns after the day. -/
def Answer.Whole (plant : Plant) (readings : String → List Reading) (answer : Answer) : Prop :=
  let ended := plant.calendar.dayStart (answer.day + 1)
  ended ≤ answer.begun → ∀ moment now, ended ≤ moment → (∀ clock ∈ now, ended ≤ clock) →
    answer.totals = leaderboard plant readings answer.stations answer.day moment now

/-- A row was fetched when no reading of the day was still to come, and the clock cut nothing. -/
def Settled (plant : Plant) (readings : String → List Reading) (day : ℤ) (row : Fetched) : Prop :=
  (∀ reading ∈ readingsUpTo readings row.total.station.meterId day (dayWindowUtc day).2,
    reading.eventDate ≤ row.fetchedAt) ∧ Uncut plant day row.total row.now

/-- A call for a past day loads settled rows, and a call for a day that was still to come ends
before what it keeps can be found after the day. -/
def InTime (plant : Plant) (readings : String → List Reading) (world : World) : Action → Prop
  | .load id true => ∀ call ∈ world.calls id, plant.calendar.dayStart (call.day + 1) ≤ call.begun →
      ∀ rows ∈ loadDay world.table call.missing call.day, ∀ row ∈ rows,
        Settled plant readings call.day row
  | .finish id => ∀ call ∈ world.calls id, call.begun < plant.calendar.dayStart call.day →
      world.now + pastTtl ≤ plant.calendar.dayStart (call.day + 1)
  | _ => True

instance (plant : Plant) (day : ℤ) (total : StationTotal) (now : Option ℤ) :
    Decidable (Uncut plant day total now) :=
  inferInstanceAs (Decidable (∀ clock ∈ now, ∀ last ∈ total.samples.getLast?, _ ∨ _))

instance (plant : Plant) (readings : String → List Reading) (day : ℤ) :
    DecidablePred (Settled plant readings day) :=
  fun _ => inferInstanceAs (Decidable (_ ∧ _))

instance (plant : Plant) (readings : String → List Reading) (world : World) :
    DecidablePred (InTime plant readings world)
  | .load id true => inferInstanceAs (Decidable (∀ call ∈ world.calls id,
      plant.calendar.dayStart (call.day + 1) ≤ call.begun →
        ∀ rows ∈ loadDay world.table call.missing call.day, ∀ row ∈ rows,
          Settled plant readings call.day row))
  | .finish id => inferInstanceAs (Decidable (∀ call ∈ world.calls id,
      call.begun < plant.calendar.dayStart call.day →
        world.now + pastTtl ≤ plant.calendar.dayStart (call.day + 1)))
  | .load _ false | .elapse _ | .begin .. | .fetch .. | .fail _ | .persist _ | .save .. |
    .restart _ | .evict .. => isTrue trivial

/-! ## Stores -/

theorem setEach_eq {α β : Type} {key : α → Key} {value : α → β} {store : Key → Option β}
    {items : List α} {at' : Key} {held : β} (set : setEach key value store items at' = some held) :
    store at' = some held ∨ ∃ item ∈ items, key item = at' ∧ held = value item := by
  unfold setEach at set
  induction items generalizing store with
  | nil => exact .inl set
  | cons item items ih =>
      rw [List.foldl_cons] at set
      rcases ih set with before | ⟨other, member, rest⟩
      · by_cases same : at' = key item
        · rw [same, Function.update_self] at before
          exact .inr ⟨item, List.mem_cons_self, same.symm, (Option.some.inj before).symm⟩
        · rw [Function.update_of_ne same] at before
          exact .inl before
      · exact .inr ⟨other, List.mem_cons_of_mem _ member, rest⟩

theorem of_mapM {α β : Type} {read : α → Option β} {items : List α} {found : List β}
    (read_all : items.mapM read = some found) :
    (∀ value ∈ found, ∃ item ∈ items, read item = some value) ∧
      ∀ item ∈ items, ∃ value ∈ found, read item = some value := by
  induction items generalizing found with
  | nil =>
      obtain rfl := Option.some.inj read_all
      exact ⟨List.forall_mem_nil _, List.forall_mem_nil _⟩
  | cons item items ih =>
      rw [List.mapM_cons] at read_all
      obtain ⟨value, first, rest⟩ := Option.bind_eq_some_iff.mp read_all
      obtain ⟨values, later, same⟩ := Option.bind_eq_some_iff.mp rest
      obtain rfl := Option.some.inj same
      obtain ⟨from_items, all_items⟩ := ih later
      refine ⟨fun other member => ?_, fun other member => ?_⟩
      · rcases List.mem_cons.mp member with rfl | old
        · exact ⟨item, List.mem_cons_self, first⟩
        · obtain ⟨source, known, same⟩ := from_items other old
          exact ⟨source, List.mem_cons_of_mem _ known, same⟩
      · rcases List.mem_cons.mp member with rfl | old
        · exact ⟨value, List.mem_cons_self, first⟩
        · obtain ⟨target, known, same⟩ := all_items other old
          exact ⟨target, List.mem_cons_of_mem _ known, same⟩

theorem of_loadDay {table : Table} {stations : List Station} {day : ℤ} {rows : List Fetched}
    (loaded : loadDay table stations day = some rows) :
    (∀ row ∈ rows, ∃ station ∈ stations, loadRow table day station = some row) ∧
      ∀ station ∈ stations, ∃ row ∈ rows, loadRow table day station = some row := by
  obtain ⟨found, all, rfl⟩ := Option.map_eq_some_iff.mp loaded
  simpa only [mem_sortBy] using of_mapM all

/-! ## What is kept -/

/-- Totals of all readings of a day. -/
def IsWhole (plant : Plant) (readings : String → List Reading) (day : ℤ) (total : StationTotal) :
    Prop :=
  total = wholeDay plant readings total.station day

/-- Totals are what was fetched at their instant. -/
def Fetched.Sound (plant : Plant) (readings : String → List Reading) (day : ℤ) (fetched : Fetched) :
    Prop :=
  fetched.total =
    stationTotalAt plant readings fetched.total.station day fetched.fetchedAt fetched.now

theorem Fetched.Sound.whole {day : ℤ} {fetched : Fetched}
    (sound : fetched.Sound plant readings day) (settled : Settled plant readings day fetched) :
    IsWhole plant readings day fetched.total := by
  obtain ⟨all, uncut⟩ := settled
  rw [sound] at uncut
  exact sound.trans (stationTotalAt_whole all uncut)

theorem Fetched.Sound.late {day : ℤ} {fetched : Fetched}
    (sound : fetched.Sound plant readings day)
    (late : plant.calendar.dayStart (day + 1) ≤ fetched.fetchedAt)
    (given : ∀ clock ∈ fetched.now, plant.calendar.dayStart (day + 1) ≤ clock) :
    IsWhole plant readings day fetched.total :=
  sound.trans (stationTotalAt_late ((plant.window_ends day).le.trans late)
    fun clock held => (plant.window_ends day).le.trans (given clock held))

/-- What a call fetched. -/
structure Call.Fetches (plant : Plant) (readings : String → List Reading) (call : Call)
    (fetched : Fetched) : Prop where
  sound : fetched.Sound plant readings call.day
  since : call.begun ≤ fetched.fetchedAt
  clock : fetched.now = call.now

def Call.PhaseSound (plant : Plant) (readings : String → List Reading) (call : Call) :
    Phase → Prop
  | .looking => True
  | .fetching fetched => ∀ one ∈ fetched, call.Fetches plant readings one
  | .saving fetched due _ =>
      (∀ one ∈ fetched, call.Fetches plant readings one) ∧ (∀ one ∈ due, one ∈ fetched) ∧
        ∀ station ∈ call.missing, ∃ one ∈ fetched, one.total.station.meterId = station.meterId
  | .ready totals =>
      (plant.calendar.dayStart (call.day + 1) ≤ call.begun →
        ∀ total ∈ totals, IsWhole plant readings call.day total) ∧
        ∀ station ∈ call.missing, ∃ total ∈ totals, total.station.meterId = station.meterId

structure Call.Sound (plant : Plant) (readings : String → List Reading) (now : ℤ) (call : Call) :
    Prop where
  begun : call.begun ≤ now
  today : call.isToday = decide (call.day = plant.calendar.dayOf call.begun)
  clock : ∀ clock ∈ call.now, clock = call.begun
  hits : plant.calendar.dayStart (call.day + 1) ≤ call.begun →
    (∀ total ∈ call.hits, IsWhole plant readings call.day total) ∧
      ∀ station ∈ call.stations,
        (∃ total ∈ call.hits, total.station.meterId = station.meterId) ∨
          ∃ other ∈ call.missing, other.meterId = station.meterId
  phase : call.PhaseSound plant readings call.phase

structure World.Sound (plant : Plant) (readings : String → List Reading) (world : World) :
    Prop where
  table : ∀ key row, world.table key = some row → 2 ≤ row.payloadVersion →
    row.fetched.total.station.meterId = key.1 ∧ row.fetched.Sound plant readings key.2
  kept : ∀ process key cached, (world.processes process).pastCache key = some cached →
    cached.total.station.meterId = key.1 ∧
      (plant.calendar.dayStart (key.2 + 1) < cached.storedAt + pastTtl →
        IsWhole plant readings key.2 cached.total)
  calls : ∀ id, ∀ call ∈ world.calls id, call.Sound plant readings world.now
  answers : ∀ answer ∈ world.answers, answer.Whole plant readings

variable {world next : World}

variable {call : Call}

theorem Call.Sound.clock_late {now : ℤ} (sound : call.Sound plant readings now)
    (past : plant.calendar.dayStart (call.day + 1) ≤ call.begun) :
    ∀ clock ∈ call.now, plant.calendar.dayStart (call.day + 1) ≤ clock := by
  intro clock held
  rw [sound.clock clock held]
  exact past

theorem Call.Fetches.whole {fetched : Fetched} {now : ℤ}
    (fetches : call.Fetches plant readings fetched) (sound : call.Sound plant readings now)
    (past : plant.calendar.dayStart (call.day + 1) ≤ call.begun) :
    IsWhole plant readings call.day fetched.total :=
  fetches.sound.late (past.trans fetches.since) (fetches.clock ▸ sound.clock_late past)

/-- A call that is not for the day itself is for a past day or for one that was still to come. -/
theorem Call.Sound.other_day {call : Call} {now : ℤ} (sound : call.Sound plant readings now)
    (other : call.isToday = false) : plant.calendar.dayStart (call.day + 1) ≤ call.begun ∨
      call.begun < plant.calendar.dayStart call.day := by
  have elsewhere : ¬ plant.calendar.dayOf call.begun = call.day := by
    rw [sound.today, decide_eq_false_iff_not] at other
    exact fun same => other same.symm
  rw [plant.calendar.dayOf_eq_iff] at elsewhere
  by_contra neither
  rw [not_or, not_le, not_lt] at neither
  exact elsewhere ⟨neither.2, neither.1⟩

theorem Call.Sound.elapse {now : ℤ} (sound : call.Sound plant readings now) (duration : ℕ) :
    call.Sound plant readings (now + duration) :=
  { sound with begun := sound.begun.trans (Int.le_add_of_nonneg_right (Int.natCast_nonneg _)) }

/-- A call goes on to another phase. -/
theorem Call.Sound.phase_to {call : Call} {now : ℤ} (sound : call.Sound plant readings now)
    {phase : Phase} (holds : call.PhaseSound plant readings phase) :
    ({ call with phase } : Call).Sound plant readings now where
  begun := sound.begun
  today := sound.today
  clock := sound.clock
  hits := sound.hits
  phase := by
    cases phase with
    | looking => trivial
    | fetching fetched => exact fun one member => { holds one member with }
    | saving fetched due since =>
        exact ⟨fun one member => { holds.1 one member with }, holds.2⟩
    | ready totals => exact holds

theorem World.Sound.setCall (sound : world.Sound plant readings) (id : ℕ) {call : Option Call}
    (holds : ∀ held ∈ call, held.Sound plant readings world.now) :
    (world.setCall id call).Sound plant readings where
  table := sound.table
  kept := sound.kept
  calls := fun other held member => by
    change Function.update world.calls id call other = some held at member
    by_cases same : other = id
    · rw [same, Function.update_self] at member
      exact holds held member
    · rw [Function.update_of_ne same] at member
      exact sound.calls other held member
  answers := sound.answers

theorem World.Sound.goto (sound : world.Sound plant readings) {id : ℕ}
    (held : world.calls id = some call) {phase : Phase}
    (holds : call.PhaseSound plant readings phase) :
    (world.goto id call phase).Sound plant readings := by
  refine sound.setCall id ?_
  rintro _ ⟨⟩
  exact (sound.calls id call held).phase_to holds

/-- A process changes, and what it keeps of other days is sound. -/
theorem World.Sound.setProcess (sound : world.Sound plant readings) (id : ℕ) {process : Process}
    (holds : ∀ key cached, process.pastCache key = some cached →
      cached.total.station.meterId = key.1 ∧
        (plant.calendar.dayStart (key.2 + 1) < cached.storedAt + pastTtl →
          IsWhole plant readings key.2 cached.total)) :
    (world.setProcess id process).Sound plant readings where
  table := sound.table
  kept := fun other key cached held => by
    change (Function.update world.processes id process other).pastCache key = some cached at held
    by_cases same : other = id
    · rw [same, Function.update_self] at held
      exact holds key cached held
    · rw [Function.update_of_ne same] at held
      exact sound.kept other key cached held
  calls := sound.calls
  answers := sound.answers

/-! ## Steps -/

theorem firstOfMeter_covers {stations : List Station} {station : Station}
    (member : station ∈ stations) :
    ∃ first ∈ firstOfMeter stations, first.meterId = station.meterId := by
  suffices general : ∀ first : List Station,
      (station ∈ stations ∨ ∃ other ∈ first, other.meterId = station.meterId) →
        ∃ other ∈ stations.foldl (fun first station =>
          if ∃ other ∈ first, other.meterId = station.meterId then first else first ++ [station])
            first, other.meterId = station.meterId from general [] (.inl member)
  clear member
  induction stations with
  | nil =>
      intro first held
      exact held.resolve_left List.not_mem_nil
  | cons item stations ih =>
      intro first held
      rw [List.foldl_cons]
      apply ih
      rcases held with member | ⟨other, known, same⟩
      · rcases List.mem_cons.mp member with rfl | old
        · right
          split
          · assumption
          · exact ⟨station, List.mem_append_right _ (List.mem_singleton_self _), rfl⟩
        · exact .inl old
      · right
        split
        · exact ⟨other, known, same⟩
        · exact ⟨other, List.mem_append_left _ known, same⟩

theorem of_peek {ttl now : ℤ} {cache : Cache} {key : Key} {total : StationTotal}
    (found : peek ttl now cache key = some total) :
    ∃ cached, cache key = some cached ∧ now < cached.storedAt + ttl ∧ cached.total = total := by
  obtain ⟨cached, held, same⟩ := Option.map_eq_some_iff.mp found
  obtain ⟨stored, alive⟩ := Option.filter_eq_some_iff.mp held
  exact ⟨cached, stored, by have := decide_eq_true_iff.mp alive; omega, same⟩

/-- The phase that a call begins with. -/
theorem Call.phase_begins (call : Call) : call.PhaseSound plant readings
    (if call.missing = [] then .ready [] else if call.isToday then .fetching [] else .looking) := by
  split
  · rename_i none_missing
    refine ⟨fun _ => List.forall_mem_nil _, fun station member => ?_⟩
    rw [none_missing] at member
    cases member
  · split
    · exact List.forall_mem_nil _
    · trivial

section

variable (sound : world.Sound plant readings)
include sound

theorem World.Sound.begin (id : ℕ) (stations : List Station) (day : ℤ) (given : Bool) :
    ((world.processes id).begin id (day = plant.calendar.dayOf world.now) stations day world.now
      (if given then some world.now else none)).Sound plant readings world.now where
  begun := le_rfl
  today := rfl
  clock := by
    intro clock held
    cases given with
    | true => exact (Option.some.inj held).symm
    | false => cases held
  hits := by
    intro past
    have other : decide (day = plant.calendar.dayOf world.now) = false := by
      rw [decide_eq_false_iff_not]
      intro same
      exact past.not_gt ((plant.calendar.dayOf_eq_iff _ _).mp same.symm).2
    unfold Process.begin Process.peek
    dsimp only
    rw [other]
    refine ⟨fun total member => ?_, fun station member => ?_⟩
    · obtain ⟨station, -, found⟩ := List.mem_filterMap.mp member
      obtain ⟨cached, held, alive, rfl⟩ := of_peek found
      exact (sound.kept id _ cached held).2 (past.trans_lt alive)
    · obtain ⟨first, known, same⟩ := firstOfMeter_covers member
      cases found : peek pastTtl world.now (world.processes id).pastCache (first.meterId, day) with
      | some total =>
          left
          obtain ⟨cached, held, -, rfl⟩ := of_peek found
          exact ⟨_, List.mem_filterMap.mpr ⟨first, known, found⟩,
            (sound.kept id _ cached held).1.trans same⟩
      | none =>
          right
          exact ⟨first, List.mem_filter.mpr ⟨known, by rw [if_neg Bool.false_ne_true, found]; rfl⟩,
            same⟩
  phase := Call.phase_begins _

theorem World.Sound.load {rows : List Fetched}
    (loaded : loadDay world.table call.missing call.day = some rows)
    (settled : plant.calendar.dayStart (call.day + 1) ≤ call.begun →
      ∀ row ∈ rows, Settled plant readings call.day row) :
    call.PhaseSound plant readings (.ready (rows.map Fetched.total)) := by
  obtain ⟨from_table, all⟩ := of_loadDay loaded
  have known : ∀ station, ∀ row ∈ loadRow world.table call.day station,
      row.total.station.meterId = station.meterId ∧ row.Sound plant readings call.day := by
    intro station row held
    obtain ⟨stored, filtered, rfl⟩ := Option.map_eq_some_iff.mp held
    obtain ⟨known, current⟩ := Option.filter_eq_some_iff.mp filtered
    exact sound.table _ stored known (decide_eq_true_iff.mp current)
  refine ⟨fun past total member => ?_, fun station member => ?_⟩
  · obtain ⟨row, held, rfl⟩ := List.mem_map.mp member
    obtain ⟨station, -, same⟩ := from_table row held
    exact (known station row same).2.whole (settled past row held)
  · obtain ⟨row, held, same⟩ := all station member
    exact ⟨row.total, List.mem_map.mpr ⟨row, held, rfl⟩, (known station row same).1⟩

theorem World.Sound.save {due : List Fetched}
    (fetches : ∀ one ∈ due, call.Fetches plant readings one) :
    ({ world with table := saveDay world.table due call.day } : World).Sound plant readings where
  table := fun key row held current => by
    rcases setEach_eq held with before | ⟨one, member, rfl, rfl⟩
    · exact sound.table key row before current
    · exact ⟨rfl, (fetches one member).sound⟩
  kept := sound.kept
  calls := sound.calls
  answers := sound.answers

/-- What a process keeps of the answer of a call. -/
theorem World.Sound.keep {id : ℕ} {totals : List StationTotal} (held : world.calls id = some call)
    (phase : call.phase = .ready totals) (soon : call.begun < plant.calendar.dayStart call.day →
      world.now + pastTtl ≤ plant.calendar.dayStart (call.day + 1)) (key : Key) (cached : Cached)
    (stored : ((world.processes call.process).keep call world.now totals).pastCache key =
      some cached) :
    cached.total.station.meterId = key.1 ∧
      (plant.calendar.dayStart (key.2 + 1) < cached.storedAt + pastTtl →
        IsWhole plant readings key.2 cached.total) := by
  have callSound := sound.calls id call held
  unfold Process.keep at stored
  cases other : call.isToday with
  | true =>
      rw [other, if_pos rfl] at stored
      exact sound.kept _ key cached stored
  | false =>
      rw [other, if_neg Bool.false_ne_true] at stored
      rcases setEach_eq stored with before | ⟨total, member, rfl, rfl⟩
      · exact sound.kept _ key cached before
      · refine ⟨rfl, fun alive => ?_⟩
        have ready := callSound.phase
        rw [phase] at ready
        rcases callSound.other_day other with past | future
        · exact ready.1 past total member
        · exact absurd alive (soon future).not_gt

end

theorem Call.Sound.answer {now : ℤ} {totals : List StationTotal}
    (sound : call.Sound plant readings now) (phase : call.phase = .ready totals) :
    (call.answer totals).Whole plant readings := by
  intro past moment clock late given
  obtain ⟨hits, covers⟩ := sound.hits past
  have ready := sound.phase
  rw [phase] at ready
  have whole : ∀ total ∈ call.hits ++ totals, IsWhole plant readings call.day total := by
    intro total member
    rcases List.mem_append.mp member with hit | fetched
    · exact hits total hit
    · exact ready.1 past total fetched
  have found : ∀ station ∈ call.stations, ∃ total ∈ call.hits ++ totals,
      total.station.meterId = station.meterId := by
    intro station member
    rcases covers station member with ⟨total, hit, same⟩ | ⟨other, missing, same⟩
    · exact ⟨total, List.mem_append_left _ hit, same⟩
    · obtain ⟨total, fetched, same'⟩ := ready.2 other missing
      exact ⟨total, List.mem_append_right _ fetched, same'.trans same⟩
  change sortBy boardKey (call.stations.filterMap _) = sortBy boardKey (call.stations.map _)
  congr 1
  rw [← List.filterMap_eq_map']
  refine List.filterMap_congr fun station member => ?_
  have window := (plant.window_ends call.day).le
  change _ = some (stationTotalAt plant readings station call.day moment clock)
  rw [stationTotalAt_late (window.trans late) fun clock held => window.trans (given clock held)]
  cases first : (call.hits ++ totals).find? fun total =>
      total.station.meterId = station.meterId with
  | none =>
      obtain ⟨total, known, same⟩ := found station member
      exact absurd (decide_eq_true same) (List.find?_eq_none.mp first total known)
  | some total =>
      have same : total.station.meterId = station.meterId := by
        simpa only [decide_eq_true_eq] using List.find?_some first
      have whole := whole total (List.mem_of_find?_eq_some first)
      refine congrArg some ?_
      rw [whole]
      exact wholeDay_station same

theorem World.Sound.step {action : Action} (sound : world.Sound plant readings)
    (inTime : InTime plant readings world action)
    (taken : Leaderboard.step plant readings world action = some next) :
    next.Sound plant readings := by
  cases action with
  | elapse duration =>
      obtain rfl := Option.some.inj taken
      exact { sound with calls := fun id call held => (sound.calls id call held).elapse duration }
  | begin id process stations day given =>
      simp only [Leaderboard.step] at taken
      split at taken
      · cases taken
      obtain rfl := Option.some.inj taken
      refine sound.setCall id ?_
      rintro _ ⟨⟩
      exact sound.begin process stations day given
  | load id available =>
      simp only [Leaderboard.step] at taken
      split at taken
      swap
      · cases taken
      rename_i call held
      split at taken
      swap
      · cases taken
      split at taken
      · rename_i rows loaded
        obtain rfl := Option.some.inj taken
        cases available with
        | false => cases loaded
        | true =>
            exact sound.goto held (sound.load loaded fun past => inTime call held past rows loaded)
      · obtain rfl := Option.some.inj taken
        exact sound.goto held (List.forall_mem_nil _)
  | fetch id station =>
      simp only [Leaderboard.step] at taken
      split at taken
      swap
      · cases taken
      rename_i call held
      split at taken
      swap
      · cases taken
      rename_i fetched phase
      split at taken
      swap
      · cases taken
      obtain rfl := Option.some.inj taken
      have callSound := sound.calls id call held
      have before := callSound.phase
      rw [phase] at before
      refine sound.goto held fun one member => ?_
      rcases List.mem_append.mp member with old | new
      · exact before one old
      · obtain rfl := List.mem_singleton.mp new
        exact ⟨rfl, callSound.begun, rfl⟩
  | fail id =>
      obtain ⟨_, -, rfl⟩ := Option.map_eq_some_iff.mp taken
      exact sound.setCall id fun _ held => nomatch held
  | persist id =>
      simp only [Leaderboard.step] at taken
      split at taken
      swap
      · cases taken
      rename_i call held
      split at taken
      swap
      · cases taken
      rename_i fetched phase
      split at taken
      swap
      · cases taken
      rename_i all
      obtain rfl := Option.some.inj taken
      have before := (sound.calls id call held).phase
      rw [phase] at before
      refine sound.goto held ⟨fun one member => before one ((mem_sortBy _).mp member), ?_, ?_⟩
      · intro one member
        unfold Process.due at member
        split at member
        · exact (List.mem_filter.mp member).1
        · exact member
      · intro station missing
        obtain ⟨one, member, same⟩ := all station missing
        exact ⟨one, (mem_sortBy _).mpr member, congrArg Station.meterId same⟩
  | save id stored noted =>
      simp only [Leaderboard.step] at taken
      split at taken
      swap
      · cases taken
      rename_i call held
      split at taken
      swap
      · cases taken
      rename_i fetched due since phase
      obtain rfl := Option.some.inj taken
      have callSound := sound.calls id call held
      have before := callSound.phase
      rw [phase] at before
      obtain ⟨fetches, known, covers⟩ := before
      have ready : call.PhaseSound plant readings (.ready (fetched.map Fetched.total)) := by
        refine ⟨fun past total member => ?_, fun station missing => ?_⟩
        · obtain ⟨one, held, rfl⟩ := List.mem_map.mp member
          exact (fetches one held).whole callSound past
        · obtain ⟨one, member, same⟩ := covers station missing
          exact ⟨one.total, List.mem_map.mpr ⟨one, member, rfl⟩, same⟩
      have went := sound.goto held ready
      have saved : ({ world.goto id call (.ready (fetched.map Fetched.total)) with
          table := if stored then saveDay world.table due call.day else world.table } :
            World).Sound plant readings := by
        cases stored with
        | true => exact went.save fun one member => fetches one (known one member)
        | false => exact went
      refine saved.setProcess call.process ?_
      have same : (if stored = true ∧ noted = true then
          (world.processes call.process).persisted call since due
            else world.processes call.process).pastCache =
              (world.processes call.process).pastCache := by
        unfold Process.persisted
        split
        · split <;> rfl
        · rfl
      rw [same]
      exact sound.kept call.process
  | finish id =>
      simp only [Leaderboard.step] at taken
      split at taken
      swap
      · cases taken
      rename_i call held
      split at taken
      swap
      · cases taken
      rename_i totals phase
      obtain rfl := Option.some.inj taken
      have ended : (world.setCall id none).Sound plant readings :=
        sound.setCall id fun _ held => nomatch held
      have answered : ({ world.setCall id none with
          answers := call.answer totals :: world.answers } : World).Sound plant readings :=
        { ended with
          answers := by
            rintro answer (_ | ⟨_, member⟩)
            · exact (sound.calls id call held).answer phase
            · exact sound.answers answer member }
      exact answered.setProcess call.process (sound.keep held phase (inTime call held))
  | restart process =>
      obtain rfl := Option.some.inj taken
      have dropped : ({ world with
          calls := fun id => (world.calls id).filter fun call => call.process ≠ process } :
            World).Sound plant readings :=
        { sound with
          calls := fun id call held => sound.calls id call (Option.filter_eq_some_iff.mp held).1 }
      exact dropped.setProcess process fun key cached held => nomatch held
  | evict process isToday key =>
      obtain rfl := Option.some.inj taken
      refine sound.setProcess process fun other cached held => sound.kept process other cached ?_
      unfold Process.evict at held
      split at held
      · exact held
      · change Function.update (world.processes process).pastCache key none other = some cached at held
        by_cases same : other = key
        · rw [same, Function.update_self] at held
          cases held
        · rw [Function.update_of_ne same] at held
          exact held

theorem World.Sound.initial (now : ℤ) (older : Key → Option Fetched) :
    (World.initial now older).Sound plant readings where
  table := fun key row held current => by
    obtain ⟨fetched, -, rfl⟩ := Option.map_eq_some_iff.mp held
    exact absurd current (by decide : ¬ 2 ≤ 1)
  kept := fun _ _ _ held => nomatch held
  calls := fun _ _ held => nomatch held
  answers := List.forall_mem_nil _

/-- If calls for a past day load settled rows only, and calls for a day to come do not last into
its end, every answer to a call after its day is what a fetch returns after the day. -/
theorem past_day_whole (plant : Plant) (readings : String → List Reading) {now : ℤ}
    {older : Key → Option Fetched} {world : World}
    (reachable : Reachable (World.initial now older) (step plant readings)
      (InTime plant readings) world) :
    ∀ answer ∈ world.answers, answer.Whole plant readings := by
  have sound : world.Sound plant readings := reachable.invariant (World.Sound.initial now older)
    fun _ _ _ sound inTime taken => sound.step inTime taken
  exact sound.answers

private def greenwich : Plant where
  calendar := {
    dayOf := (· / dayLength)
    dayStart := (· * dayLength)
    dayStart_strictMono := fun first second before =>
      Int.mul_lt_mul_of_pos_right before (by decide)
    dayOf_eq_iff := fun moment day => by
      rw [Int.ediv_eq_iff_of_pos (by decide), add_mul, one_mul] }
  timeOf := (· % dayLength)
  combine := fun day time => day * dayLength + time
  shiftOf := fun _ => ⟨true, 0, dayLength, []⟩
  window_ends := fun day => by
    change day * dayLength + dayLength - 1000 < (day + 1) * dayLength
    rw [add_mul, one_mul]
    exact Int.sub_lt_self _ (by decide)

private def dismantler : Station := ⟨"42711", "Dismantler 1", "Dismantler", "Recycling"⟩

/-- Units at ten and at eleven. -/
private def twoUnits : String → List Reading :=
  fun _ => [⟨39600 * second, 3, none, none⟩, ⟨36000 * second, 5, none, none⟩]


/-- What is served of some answers: the day, when the call began, the stations, and the units. -/
private def served (world : World) : List (ℤ × ℤ × List Station × List ℤ) :=
  world.answers.map fun answer =>
    (answer.day, answer.begun, answer.stations, answer.totals.map StationTotal.units)

/-- Totals that are stored after the day, and loaded by another process. -/
theorem past_day_whole_loaded : ∃ world : World, served world =
    [(0, 86400 * second, [dismantler], [8]), (0, 86400 * second, [dismantler], [8])] ∧
      ∀ answer ∈ world.answers, answer.Whole greenwich twoUnits := by
  have permitted : Permitted (step greenwich twoUnits) (InTime greenwich twoUnits)
      (World.initial (86400 * second) fun _ => none)
      [.begin 0 0 [dismantler] 0 false, .load 0 true, .fetch 0 dismantler, .persist 0,
        .save 0 true true, .finish 0, .begin 1 1 [dismantler] 0 false, .load 1 true,
        .finish 1] := by decide +kernel
  obtain ⟨world, ran, same⟩ : ∃ world, Transition.run (step greenwich twoUnits)
      (World.initial (86400 * second) fun _ => none)
      [.begin 0 0 [dismantler] 0 false, .load 0 true, .fetch 0 dismantler, .persist 0,
        .save 0 true true, .finish 0, .begin 1 1 [dismantler] 0 false, .load 1 true,
        .finish 1] = some world ∧ served world =
          [(0, 86400 * second, [dismantler], [8]), (0, 86400 * second, [dismantler], [8])] :=
    Option.map_eq_some_iff.mp (by decide +kernel)
  exact ⟨world, same, past_day_whole _ _ (Reachable.initial.run_permitted permitted ran)⟩

/-- Totals of ten o'clock are stored, and loaded on the next day. -/
theorem partial_day_served : ¬ ∀ (plant : Plant) (readings : String → List Reading) (now : ℤ)
    (older : Key → Option Fetched) (world : World),
      Reachable (World.initial now older) (step plant readings) (fun _ _ => True) world →
        ∀ answer ∈ world.answers, answer.Whole plant readings := by
  intro whole
  obtain ⟨world, ran, same⟩ : ∃ world, Transition.run (step greenwich twoUnits)
      (World.initial (36000 * second) fun _ => none)
      [.begin 0 0 [dismantler] 0 false, .fetch 0 dismantler, .persist 0, .save 0 true true,
        .finish 0, .elapse 86400000000, .begin 1 1 [dismantler] 0 false, .load 1 true,
        .finish 1] = some world ∧ served world =
          [(0, 122400 * second, [dismantler], [5]), (0, 36000 * second, [dismantler], [5])] :=
    Option.map_eq_some_iff.mp (by decide +kernel)
  obtain ⟨answer, others, answers, first, -⟩ := List.map_eq_cons_iff.mp same
  obtain ⟨stations, day, begun, totals⟩ := answer
  obtain ⟨rfl, rfl, rfl, units⟩ : day = 0 ∧ begun = 122400 * second ∧ stations = [dismantler] ∧
      totals.map StationTotal.units = [5] := by
    simpa only [Prod.mk.injEq] using first
  have late := whole greenwich twoUnits _ _ world (Reachable.initial.run (fun _ _ _ => trivial) ran)
    _ (answers ▸ List.mem_cons_self)
    (by decide : greenwich.calendar.dayStart (0 + 1) ≤ 122400 * second) (86400 * second) none
    (by decide : greenwich.calendar.dayStart (0 + 1) ≤ 86400 * second) nofun
  dsimp only at late
  rw [late] at units
  exact absurd units (by decide +kernel)

end PlantManager.Production.Leaderboard
