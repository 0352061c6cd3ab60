import PlantManager.Inbox.Reconcile

/-! # What the inbox history tells

As long as no tick finds an item gone for a grace period since it was last seen, while the person
who resolved it is still to write the event, the history of the inbox invents no automatic
resolution: `Inbox.history_honest`. `Inbox.resolution_invented` is a
run of regular ticks in which it does.
-/

namespace PlantManager.Inbox

open Mapping Transition

variable {Key : Type*} [LinearOrder Key] {kindOf : Key → ItemKind}

/-- The source of a kind erred, or the section of the kind is truncated. -/
def Snapshot.Degraded (snapshot : Snapshot kindOf) (kind : ItemKind) : Prop :=
  kindSource kind ∈ snapshot.sourceErrors ∨
    ∃ listed ∈ snapshot.sections, kind ∈ sectionKinds listed.id ∧
      (listed.complete = false ∨ listed.rows < listed.count)

instance (snapshot : Snapshot kindOf) (kind : ItemKind) : Decidable (snapshot.Degraded kind) :=
  inferInstanceAs (Decidable (_ ∨ ∃ listed ∈ snapshot.sections, _))

/-- An open item that departed, was last seen a grace period ago, and that no person's event
and no correction concerns. -/
def Overdue (state : State Key) (snapshot : Snapshot kindOf) (key : Key) (row : OpenItem) : Prop :=
  ((openNowFromSnapshot snapshot).get key = none ∧ row.itemKind ∈ completeKinds snapshot) ∧
    autoResolveGrace ≤ state.now - row.lastSeen ∧
    (row.itemKind ∈ correctionLinkedKinds → CorrectionAllowsResolution state key) ∧
    ¬HasHumanEventSince state.events key row.firstSeen

instance (state : State Key) (snapshot : Snapshot kindOf) (key : Key) (row : OpenItem) :
    Decidable (Overdue state snapshot key row) :=
  inferInstanceAs (Decidable (_ ∧ _))

/-- No tick finds an item overdue whose resolution is still to be written, or one of a blocked
cutover while the mode is off and the attendance timeline is degraded. -/
def Timely (state : State Key) : Action kindOf → Prop
  | .tick snapshot _ =>
      (∀ resolution ∈ state.resolving, ∀ row ∈ state.items.get resolution.key,
        row.openedBy = resolution.episode → ¬Overdue state snapshot resolution.key row) ∧
      (snapshot.attendanceLocationMode = .off → snapshot.Degraded .attendanceCutoverBlocked →
        ∀ entry ∈ state.items.entries, entry.2.itemKind = .attendanceCutoverBlocked →
          ¬Overdue state snapshot entry.1 entry.2)
  | _ => True

instance : ∀ (state : State Key) (action : Action kindOf), Decidable (Timely state action)
  | state, .tick snapshot _ =>
      haveI (resolution : Resolution Key) : DecidablePred fun row =>
          row.openedBy = resolution.episode → ¬Overdue state snapshot resolution.key row :=
        fun _ => inferInstance
      inferInstanceAs (Decidable ((∀ resolution ∈ state.resolving,
        ∀ row ∈ state.items.get resolution.key, _) ∧ _))
  | _, .resolve _ => isTrue trivial
  | _, .record _ _ _ => isTrue trivial
  | _, .undo _ => isTrue trivial
  | _, .job _ _ => isTrue trivial
  | _, .wait _ => isTrue trivial

/-- What the history tells in a state of a run, and what a permitted tick adds to it. -/
structure Honest (permitted : State Key → Action kindOf → Prop) (state : State Key) : Prop where
  /-- An open row is closed automatically at most once. -/
  once : ∀ key episode, (state.events.filter fun event =>
    event.action = .autoResolved ∧ event.itemKey = key ∧ event.episode = episode).length ≤ 1
  enumerated : ∀ snapshot failing, permitted state (.tick snapshot failing) →
    ∃ written, (runOnce snapshot failing state).events = written ++ state.events ∧
      ∀ event ∈ written, ¬snapshot.Degraded (kindOf event.itemKey)
  notResolved : ∀ event ∈ state.events, event.action = .autoResolved →
    (event.itemKey, event.episode) ∉ state.resolved
  shown : ∀ kind, ∀ key ∈ state.latest kind, ∃ row, state.items.get key = some row

/-! ## Snapshots -/

/-- The section that lists a kind. -/
def kindSection : ItemKind → SectionId
  | .odooRosterSync => .odooRosterSync
  | .autoLunch => .autoLunch
  | .quickPunchFix | .quickPunch => .quickPunch
  | .assignment => .assignments
  | .plantSchedule => .plantSchedule
  | .saturdayRecruiting => .saturdayRecruiting
  | .unexpectedWorkers => .unexpectedWorkers
  | .late => .late
  | .missingWc => .missingWc
  | .missedPunchOut => .missedPunchOut
  | .timeOff | .absencePto => .timeOff
  | .breakdown => .breakdown
  | .attendanceMissingLocation => .attendanceMissingLocation
  | .attendanceUnmappedLocation => .attendanceUnmappedLocation
  | .attendanceConflictingLocation => .attendanceConflictingLocation
  | .attendanceDuplicateLocation => .attendanceDuplicateLocation
  | .attendanceDepartmentRepairFailed => .attendanceDepartmentRepairFailed
  | .attendanceSourceStale => .attendanceSourceStale
  | .attendanceCutoverBlocked => .attendanceCutoverBlocked
  | .productionSourceUnavailable => .productionSourceUnavailable
  | .productionUnassignedRun => .productionUnassignedRun

theorem kindSection_of_mem {id : SectionId} :
    ∀ kind ∈ sectionKinds id, kindSection kind = id := by
  cases id <;> decide

omit [LinearOrder Key] in
theorem not_degraded_of_complete {snapshot : Snapshot kindOf} {kind : ItemKind}
    (complete : kind ∈ completeKinds snapshot)
    (cutover : snapshot.attendanceLocationMode = .off → kind ≠ .attendanceCutoverBlocked) :
    ¬snapshot.Degraded kind := by
  have listed : ∃ listed ∈ snapshot.sections, ¬(listed.complete = false ∨
      listed.rows < listed.count) ∧ kind ∈ sectionKinds listed.id ∧
      kindSource kind ∉ snapshot.sourceErrors := by
    rcases List.mem_append.mp complete with off | member
    · by_cases mode : snapshot.attendanceLocationMode = .off
      · rw [if_pos mode, List.mem_singleton] at off
        exact absurd off (cutover mode)
      · rw [if_neg mode] at off
        exact absurd off List.not_mem_nil
    · obtain ⟨listed, member, kinds⟩ := List.mem_flatMap.mp member
      split at kinds
      · exact absurd kinds List.not_mem_nil
      · rename_i whole
        obtain ⟨inSection, healthy⟩ := List.mem_filter.mp kinds
        exact ⟨listed, member, whole, inSection, of_decide_eq_true healthy⟩
  obtain ⟨listed, member, whole, inSection, healthy⟩ := listed
  rintro (erred | ⟨other, otherMember, otherSection, truncated⟩)
  · exact healthy erred
  · have same := List.inj_on_of_nodup_map snapshot.listedOnce member otherMember
      ((kindSection_of_mem kind inSection).symm.trans (kindSection_of_mem kind otherSection))
    exact whole (same ▸ truncated)

theorem itemKind_of_openNow {snapshot : Snapshot kindOf} {key : Key} {info : Info}
    (shown : (openNowFromSnapshot snapshot).get key = some info) : info.itemKind = kindOf key := by
  suffices each : ∀ (rows : List (QueueRow Key)) (out : SortedMap Key Info),
      (∀ row ∈ rows, row ∈ snapshot.queue) →
      (∀ key info, out.get key = some info → info.itemKind = kindOf key) →
      ∀ key info, (rows.foldl _ out).get key = some info → info.itemKind = kindOf key from
    each snapshot.queue ∅ (fun _ member => member) (fun _ _ found => nomatch found) key info shown
  intro rows
  induction rows with
  | nil => exact fun out _ keyed => keyed
  | cons row rest ih =>
      intro out members keyed
      apply ih
      · exact fun other member => members other (List.mem_cons_of_mem _ member)
      · intro key info found
        dsimp only at found
        cases named : row.itemKey with
        | none =>
            rw [named] at found
            exact keyed key info found
        | some own =>
            rw [named, SortedMap.get_set] at found
            by_cases same : key = own
            · rw [if_pos same] at found
              rw [← Option.some.inj found, same]
              exact snapshot.keyed row (members row List.mem_cons_self) own named
            · rw [if_neg same] at found
              exact keyed key info found

/-! ## What a tick keeps -/

/-- The rows were opened by earlier ticks, no row is open that was closed automatically, and a
resolved row that is open waits for its event or has it. -/
structure Kept (kindOf : Key → ItemKind) (bound : ℕ) (state : State Key) : Prop where
  rows : ∀ key row, state.items.get key = some row →
    row.firstSeen ≤ state.now ∧ row.openedBy < bound ∧ row.itemKind = kindOf key
  closed : ∀ event ∈ state.events, event.action = .autoResolved → event.episode < state.ticks ∧
    ∀ row, state.items.get event.itemKey = some row → row.openedBy ≠ event.episode
  once : ∀ key episode, (state.events.filter fun event =>
    event.action = .autoResolved ∧ event.itemKey = key ∧ event.episode = episode).length ≤ 1
  notResolved : ∀ event ∈ state.events, event.action = .autoResolved →
    (event.itemKey, event.episode) ∉ state.resolved
  accounted : ∀ key episode, (key, episode) ∈ state.resolved → episode < state.ticks ∧
    ∀ row, state.items.get key = some row → row.openedBy = episode →
      (∃ resolution ∈ state.resolving, resolution.key = key ∧ resolution.episode = episode) ∨
        HasHumanEventSince state.events key row.firstSeen

variable {key : Key} {state : State Key}

omit [LinearOrder Key] in
theorem HasHumanEventSince.append {events : List (Event Key)} {since : ℤ}
    (human : HasHumanEventSince events key since) (written : List (Event Key)) :
    HasHumanEventSince (written ++ events) key since := by
  obtain ⟨event, member, told⟩ := human
  exact ⟨event, List.mem_append_right _ member, told⟩

/-- A row of a mirror after an upsert is an older row, seen again, or a new one. -/
theorem get_upsert {other : Key} {info : Info} {row : OpenItem}
    (found : (upsert state key info).items.get other = some row) :
    (∃ old, state.items.get other = some old ∧ row.firstSeen = old.firstSeen ∧
      row.openedBy = old.openedBy ∧ row.itemKind = old.itemKind) ∨
    other = key ∧ row.firstSeen = state.now ∧ row.openedBy = state.ticks ∧
      row.itemKind = info.itemKind := by
  change (state.items.set key _).get other = some row at found
  rw [SortedMap.get_set] at found
  by_cases same : other = key
  · subst same
    rw [if_pos rfl] at found
    cases before : state.items.get other with
    | none =>
        rw [before] at found
        obtain rfl := Option.some.inj found
        exact .inr ⟨rfl, rfl, rfl, rfl⟩
    | some old =>
        rw [before] at found
        obtain rfl := Option.some.inj found
        exact .inl ⟨old, rfl, rfl, rfl, rfl⟩
  · rw [if_neg same] at found
    exact .inl ⟨row, found, rfl, rfl, rfl⟩

theorem kept_upsert {state : State Key} {key : Key} {info : Info}
    (kept : Kept kindOf (state.ticks + 1) state) (keyed : info.itemKind = kindOf key) :
    Kept kindOf (state.ticks + 1) (upsert state key info) where
  rows := by
    intro other row found
    rcases get_upsert found with ⟨old, before, first, opened, kind⟩ | ⟨rfl, first, opened, kind⟩
    · rw [first, opened, kind]
      exact kept.rows other old before
    · rw [first, opened, kind]
      exact ⟨Int.le_refl state.now, Nat.lt_succ_self state.ticks, keyed⟩
  closed := by
    intro event member auto
    obtain ⟨earlier, apart⟩ := kept.closed event member auto
    refine ⟨earlier, fun row found => ?_⟩
    rcases get_upsert found with ⟨old, before, -, opened, -⟩ | ⟨-, -, opened, -⟩
    · exact opened ▸ apart old before
    · exact opened ▸ earlier.ne'
  once := kept.once
  notResolved := kept.notResolved
  accounted := by
    intro other episode resolved
    obtain ⟨earlier, accounted⟩ := kept.accounted other episode resolved
    refine ⟨earlier, fun row found same => ?_⟩
    rcases get_upsert found with ⟨old, before, first, opened, -⟩ | ⟨-, -, opened, -⟩
    · exact first ▸ accounted old before (opened ▸ same)
    · exact absurd (opened.symm.trans same) earlier.ne'

/-- Only the mirror differs. -/
structure SameButItems (before after : State Key) : Prop where
  now : after.now = before.now
  ticks : after.ticks = before.ticks
  events : after.events = before.events
  jobs : after.jobs = before.jobs
  resolving : after.resolving = before.resolving
  resolved : after.resolved = before.resolved

theorem upsertAll_spec {snapshot : Snapshot kindOf} {keys : List Key} {state : State Key}
    (kept : Kept kindOf (state.ticks + 1) state) :
    let seen := upsertAll (openNowFromSnapshot snapshot) state keys
    Kept kindOf (seen.ticks + 1) seen ∧ SameButItems state seen ∧
      (∀ key, (openNowFromSnapshot snapshot).get key = none →
        seen.items.get key = state.items.get key) ∧
      ∀ key, state.items.get key ≠ none ∨
        key ∈ keys ∧ (openNowFromSnapshot snapshot).get key ≠ none →
        seen.items.get key ≠ none := by
  induction keys generalizing state with
  | nil =>
      refine ⟨kept, ⟨rfl, rfl, rfl, rfl, rfl, rfl⟩, fun _ _ => rfl, fun key open_ => ?_⟩
      exact open_.resolve_right fun none => absurd none.1 List.not_mem_nil
  | cons first rest ih =>
      cases shown : (openNowFromSnapshot snapshot).get first with
      | none =>
          have skipped : upsertAll (openNowFromSnapshot snapshot) state (first :: rest) =
              upsertAll (openNowFromSnapshot snapshot) state rest := by
            rw [upsertAll, List.foldl_cons, shown, upsertAll]
          obtain ⟨later, same, unseen, opened⟩ := ih kept
          rw [skipped]
          refine ⟨later, same, unseen, fun key open_ => opened key (open_.imp_right ?_)⟩
          rintro ⟨member, isShown⟩
          refine ⟨(List.mem_cons.mp member).resolve_left fun isFirst => ?_, isShown⟩
          exact isShown (isFirst ▸ shown)
      | some info =>
          have upserted : upsertAll (openNowFromSnapshot snapshot) state (first :: rest) =
              upsertAll (openNowFromSnapshot snapshot) (upsert state first info) rest := by
            rw [upsertAll, List.foldl_cons, shown, upsertAll]
          obtain ⟨later, same, unseen, opened⟩ :=
            @ih (upsert state first info) (kept_upsert kept (itemKind_of_openNow shown))
          rw [upserted]
          refine ⟨later, ⟨same.now, same.ticks, same.events, same.jobs, same.resolving,
            same.resolved⟩, fun key isNone => ?_, fun key open_ => opened key ?_⟩
          · rw [unseen key isNone]
            refine SortedMap.get_set_of_ne (fun isFirst => ?_) ..
            rw [isFirst, shown] at isNone
            exact absurd isNone (Option.some_ne_none info)
          · by_cases isFirst : key = first
            · refine .inl ?_
              rw [isFirst, upsert, SortedMap.get_set_self]
              exact Option.some_ne_none _
            · refine open_.imp (fun before => ?_) fun ⟨member, isShown⟩ =>
                ⟨List.mem_of_ne_of_mem isFirst member, isShown⟩
              rw [upsert, SortedMap.get_set_of_ne isFirst]
              exact before

/-- What a departure does to the tables, if it does anything. -/
theorem depart_cases (failing : List Key) (prev : SortedMap Key OpenItem) (state : State Key)
    (key : Key) :
    depart failing prev state key = state ∨
    ∃ row, prev.get key = some row ∧ autoResolveGrace ≤ state.now - row.lastSeen ∧
      (row.itemKind ∈ correctionLinkedKinds → CorrectionAllowsResolution state key) ∧
      state.items.get key ≠ none ∧
      depart failing prev state key = { state with
        items := state.items.erase key
        events := (if HasHumanEventSince state.events key row.firstSeen then none
          else some (autoEvent state.now key row)).toList ++ state.events } := by
  unfold depart
  cases before : prev.get key with
  | none => exact .inl rfl
  | some row =>
      dsimp only
      by_cases recent : state.now - row.lastSeen < autoResolveGrace
      · rw [if_pos recent]
        exact .inl rfl
      · rw [if_neg recent]
        by_cases fails : key ∈ failing
        · rw [if_pos fails]
          exact .inl rfl
        · rw [if_neg fails]
          unfold delete
          split
          · exact .inl rfl
          · rename_i allowed
            have linked (linkedKind : row.itemKind ∈ correctionLinkedKinds) :
                CorrectionAllowsResolution state key := by
              by_contra unfinished
              exact allowed ⟨decide_eq_true linkedKind, unfinished⟩
            split
            · exact .inl rfl
            · rename_i current found
              split
              · exact .inl rfl
              · refine .inr ⟨row, rfl, not_lt.mp recent, linked, ?_, rfl⟩
                rw [found]
                exact Option.some_ne_none current

/-- A tick that started from `start` while it works on the items that departed. -/
structure Departing (start : State Key) (snapshot : Snapshot kindOf) (departed : List Key)
    (state : State Key) : Prop where
  kept : Kept kindOf (start.ticks + 1) state
  now : state.now = start.now
  ticks : state.ticks = start.ticks
  jobs : state.jobs = start.jobs
  resolving : state.resolving = start.resolving
  resolved : state.resolved = start.resolved
  written : ∃ written, state.events = written ++ start.events ∧
    ∀ event ∈ written, ¬snapshot.Degraded (kindOf event.itemKey)
  unseen : ∀ key ∈ departed, state.items.get key = none ∨
    state.items.get key = start.items.get key

/-- The items that a tick finds departed. -/
def departedKeys (snapshot : Snapshot kindOf) (prev : SortedMap Key OpenItem) : List Key :=
  (planReconcile (openNowFromSnapshot snapshot) prev (completeKinds snapshot)).departed

theorem mem_departedKeys {snapshot : Snapshot kindOf} {prev : SortedMap Key OpenItem} :
    key ∈ departedKeys snapshot prev ↔ ∃ row, prev.get key = some row ∧
      (openNowFromSnapshot snapshot).get key = none ∧ row.itemKind ∈ completeKinds snapshot := by
  unfold departedKeys planReconcile
  dsimp only
  rw [List.mem_map]
  constructor
  · rintro ⟨⟨own, row⟩, member, rfl⟩
    obtain ⟨entry, gone⟩ := List.mem_filter.mp member
    exact ⟨row, SortedMap.get_eq_some_iff.mpr entry, of_decide_eq_true gone⟩
  · rintro ⟨row, found, gone⟩
    exact ⟨(key, row), List.mem_filter.mpr
      ⟨SortedMap.get_eq_some_iff.mp found, decide_eq_true gone⟩, rfl⟩

/-- Erasing a row of the mirror keeps the facts about the others. -/
theorem Kept.erase {bound : ℕ} (kept : Kept kindOf bound state) (key : Key) :
    Kept kindOf bound { state with items := state.items.erase key } := by
  have fewer : ∀ {other row}, (state.items.erase key).get other = some row →
      state.items.get other = some row := by
    intro other row found
    rw [SortedMap.get_erase] at found
    split at found
    · cases found
    · exact found
  exact {
    rows := fun other row found => kept.rows other row (fewer found)
    closed := fun event member auto =>
      ⟨(kept.closed event member auto).1,
        fun row found => (kept.closed event member auto).2 row (fewer found)⟩
    once := kept.once
    notResolved := kept.notResolved
    accounted := fun other episode resolved =>
      ⟨(kept.accounted other episode resolved).1,
        fun row found => (kept.accounted other episode resolved).2 row (fewer found)⟩ }

/-- An automatic event for a row that was open and not resolved. -/
theorem Kept.autoResolve {bound : ℕ} {row : OpenItem} (kept : Kept kindOf bound state)
    (open_ : state.items.get key = some row) (earlier : row.openedBy < state.ticks)
    (notResolved : (key, row.openedBy) ∉ state.resolved) :
    Kept kindOf bound { state with
      items := state.items.erase key
      events := autoEvent state.now key row :: state.events } where
  rows := (kept.erase key).rows
  closed := by
    intro event member auto
    rcases List.mem_cons.mp member with rfl | older
    · refine ⟨earlier, fun other found => ?_⟩
      change (state.items.erase key).get key = some other at found
      rw [SortedMap.get_erase, if_pos rfl] at found
      cases found
    · exact (kept.erase key).closed event older auto
  once := by
    intro other episode
    rw [List.filter_cons]
    split
    · rename_i same
      obtain ⟨-, rfl, rfl⟩ := of_decide_eq_true same
      -- No event closed the row before.
      have none_ : state.events.filter (fun event => event.action = .autoResolved ∧
          event.itemKey = key ∧ event.episode = row.openedBy) = [] := by
        rw [List.filter_eq_nil_iff]
        intro event member told
        obtain ⟨auto, sameKey, sameEpisode⟩ := of_decide_eq_true told
        exact (kept.closed event member auto).2 row (sameKey.symm ▸ open_) sameEpisode.symm
      change (_ :: state.events.filter (fun event => event.action = .autoResolved ∧
        event.itemKey = key ∧ event.episode = row.openedBy)).length ≤ 1
      rw [none_]
      exact Nat.le_refl 1
    · exact kept.once other episode
  notResolved := by
    intro event member auto
    rcases List.mem_cons.mp member with rfl | older
    · exact notResolved
    · exact kept.notResolved event older auto
  accounted := by
    intro other episode resolved
    obtain ⟨before, accounted⟩ := (kept.erase key).accounted other episode resolved
    exact ⟨before, fun found isOpen same => (accounted found isOpen same).imp_right fun human =>
      human.append [autoEvent state.now key row]⟩

theorem Kept.ticked {bound ticks : ℕ} {state : State Key} (kept : Kept kindOf bound state)
    (later : state.ticks ≤ ticks) (latest : ItemKind → List Key) :
    Kept kindOf bound { state with ticks := ticks, latest := latest } where
  rows := kept.rows
  closed := fun event member auto =>
    (kept.closed event member auto).imp_left fun earlier => earlier.trans_le later
  once := kept.once
  notResolved := kept.notResolved
  accounted := fun key episode resolved =>
    (kept.accounted key episode resolved).imp_left fun earlier => earlier.trans_le later

theorem departing_depart {start state : State Key} {snapshot : Snapshot kindOf}
    {failing : List Key} {key : Key} (before : Kept kindOf start.ticks start)
    (timely : Timely start (.tick snapshot failing))
    (departing : Departing start snapshot (departedKeys snapshot start.items) state)
    (departed : key ∈ departedKeys snapshot start.items) :
    Departing start snapshot (departedKeys snapshot start.items)
      (depart failing start.items state key) := by
  rcases depart_cases failing start.items state key with
    unchanged | ⟨row, found, grace, linked, isOpen, claimed⟩
  · exact unchanged.symm ▸ departing
  · obtain ⟨own, same, gone, complete⟩ := mem_departedKeys.mp departed
    obtain rfl := Option.some.inj (found.symm.trans same)
    have current : state.items.get key = some row :=
      ((departing.unseen key departed).resolve_left isOpen).trans found
    obtain ⟨-, earlier, keyed⟩ := before.rows key row found
    have unseen : ∀ other ∈ departedKeys snapshot start.items,
        (state.items.erase key).get other = none ∨
          (state.items.erase key).get other = start.items.get other := by
      intro other member
      rw [SortedMap.get_erase]
      split
      · exact .inl rfl
      · exact departing.unseen other member
    obtain ⟨written, events, enumerated⟩ := departing.written
    rw [claimed]
    by_cases human : HasHumanEventSince state.events key row.firstSeen
    · rw [if_pos human]
      exact {
        kept := departing.kept.erase key
        now := departing.now
        ticks := departing.ticks
        jobs := departing.jobs
        resolving := departing.resolving
        resolved := departing.resolved
        written := ⟨written, events, enumerated⟩
        unseen := unseen }
    · rw [if_neg human]
      -- The item is overdue where the tick started.
      have overdue : Overdue start snapshot key row := by
        refine ⟨⟨gone, complete⟩, departing.now ▸ grace, fun kind => ?_, fun told => human ?_⟩
        · unfold CorrectionAllowsResolution
          rw [← departing.jobs]
          exact linked kind
        · rw [events]
          exact told.append written
      have notResolved : (key, row.openedBy) ∉ state.resolved := by
        intro resolved
        rcases (departing.kept.accounted key row.openedBy resolved).2 row current rfl with
          ⟨resolution, waiting, rfl, opened⟩ | told
        · rw [departing.resolving] at waiting
          exact timely.1 resolution waiting row found opened.symm overdue
        · exact human told
      have enumeratedKind : ¬snapshot.Degraded row.itemKind := by
        intro degraded
        refine not_degraded_of_complete complete (fun off cutover => ?_) degraded
        exact timely.2 off (cutover ▸ degraded) (key, row)
          (SortedMap.get_eq_some_iff.mp found) cutover overdue
      exact {
        kept := departing.kept.autoResolve current (departing.ticks.symm ▸ earlier) notResolved
        now := departing.now
        ticks := departing.ticks
        jobs := departing.jobs
        resolving := departing.resolving
        resolved := departing.resolved
        written := ⟨autoEvent state.now key row :: written, congrArg _ events,
          List.forall_mem_cons.mpr ⟨keyed ▸ enumeratedKind, enumerated⟩⟩
        unseen := unseen }

theorem departing_foldl {start : State Key} {snapshot : Snapshot kindOf} {failing keys : List Key}
    (before : Kept kindOf start.ticks start) (timely : Timely start (.tick snapshot failing))
    (departed : ∀ key ∈ keys, key ∈ departedKeys snapshot start.items) {state : State Key}
    (departing : Departing start snapshot (departedKeys snapshot start.items) state) :
    Departing start snapshot (departedKeys snapshot start.items)
      (keys.foldl (depart failing start.items) state) := by
  induction keys generalizing state with
  | nil => exact departing
  | cons first rest ih =>
      apply ih
      · exact fun key member => departed key (List.mem_cons_of_mem _ member)
      · exact departing_depart before timely departing (departed first List.mem_cons_self)

/-- Departures leave the other items alone. -/
theorem get_foldl_depart {failing keys : List Key} {prev : SortedMap Key OpenItem}
    (other : key ∉ keys) :
    (keys.foldl (depart failing prev) state).items.get key = state.items.get key := by
  induction keys generalizing state with
  | nil => rfl
  | cons first rest ih =>
      obtain ⟨isOther, notLater⟩ := not_or.mp (mt List.mem_cons.mpr other)
      rw [List.foldl_cons, ih notLater]
      rcases depart_cases failing prev state first with unchanged | ⟨_, _, _, _, _, claimed⟩
      · rw [unchanged]
      · rw [claimed]
        rw [SortedMap.get_erase, if_neg isOther]

/-- What a tick leaves: the invariant, the events it wrote, and a row of every item that it saw
or could not judge. -/
theorem runOnce_spec {state : State Key} {snapshot : Snapshot kindOf} {failing : List Key}
    (kept : Kept kindOf state.ticks state) (timely : Timely state (.tick snapshot failing)) :
    Kept kindOf (state.ticks + 1) (runOnce snapshot failing state) ∧
      (∃ written, (runOnce snapshot failing state).events = written ++ state.events ∧
        ∀ event ∈ written, ¬snapshot.Degraded (kindOf event.itemKey)) ∧
      ∀ key, ((openNowFromSnapshot snapshot).get key ≠ none ∨
        state.items.get key ≠ none ∧ kindOf key ∉ completeKinds snapshot) →
        (runOnce snapshot failing state).items.get key ≠ none := by
  have weaker : Kept kindOf (state.ticks + 1) state :=
    { kept with rows := fun key row found =>
        (kept.rows key row found).imp_right (And.imp_left Nat.lt_succ_of_lt) }
  let actions := planReconcile (openNowFromSnapshot snapshot) state.items (completeKinds snapshot)
  obtain ⟨keptArrived, arrived, unseenArrived, openArrived⟩ :=
    @upsertAll_spec _ _ _ snapshot actions.arrivals state weaker
  obtain ⟨keptSeen, seen, unseen, openSeen⟩ :=
    @upsertAll_spec _ _ _ snapshot actions.stillOpen _ keptArrived
  have departing := departing_foldl kept timely (fun _ member => member)
    { kept := (seen.ticks.trans arrived.ticks) ▸ keptSeen
      now := seen.now.trans arrived.now
      ticks := seen.ticks.trans arrived.ticks
      jobs := seen.jobs.trans arrived.jobs
      resolving := seen.resolving.trans arrived.resolving
      resolved := seen.resolved.trans arrived.resolved
      written := ⟨[], seen.events.trans arrived.events, List.forall_mem_nil _⟩
      unseen := by
        intro key member
        obtain ⟨-, -, gone, -⟩ := mem_departedKeys.mp member
        exact .inr ((unseen key gone).trans (unseenArrived key gone)) }
  refine ⟨departing.kept.ticked (departing.ticks.le.trans (Nat.le_succ _)) _,
    departing.written, fun key open_ => ?_⟩
  have notDeparted : key ∉ departedKeys snapshot state.items := by
    intro departed
    obtain ⟨row, found, gone, complete⟩ := mem_departedKeys.mp departed
    rcases open_ with shown | ⟨-, unknown⟩
    · exact shown gone
    · exact unknown ((kept.rows key row found).2.2 ▸ complete)
  change (State.items (List.foldl (depart failing state.items) _
    (departedKeys snapshot state.items))).get key ≠ none
  rw [get_foldl_depart notDeparted]
  refine openSeen key (.inl (openArrived key ?_))
  by_cases before : state.items.get key = none
  · refine .inr ⟨List.mem_filter.mpr ⟨?_, decide_eq_true before⟩, ?_⟩
    · refine SortedMap.get_isSome_iff.mp (Option.isSome_iff_ne_none.mpr ?_)
      exact open_.resolve_right fun unknown => unknown.1 before
    · exact open_.resolve_right fun unknown => unknown.1 before
  · exact .inl before

/-! ## Runs -/

/-- The invariant of a run. -/
structure Inv (kindOf : Key → ItemKind) (state : State Key) : Prop where
  kept : Kept kindOf state.ticks state
  shown : ∀ kind, ∀ key ∈ state.latest kind, kindOf key = kind ∧ ∃ row, state.items.get key = some row

theorem inv_initial (now : ℤ) : Inv kindOf (State.initial Key now) where
  kept := {
    rows := fun _ _ found => nomatch found
    closed := List.forall_mem_nil _
    once := fun _ _ => Nat.zero_le 1
    notResolved := List.forall_mem_nil _
    accounted := fun _ _ member => absurd member List.not_mem_nil }
  shown := fun _ => List.forall_mem_nil _

theorem inv_tick {state : State Key} {snapshot : Snapshot kindOf} {failing : List Key}
    (inv : Inv kindOf state) (timely : Timely state (.tick snapshot failing)) :
    Inv kindOf (runOnce snapshot failing state) := by
  obtain ⟨kept, -, open_⟩ := runOnce_spec inv.kept timely
  refine ⟨kept, fun kind key member => ?_⟩
  change key ∈ latestAfter snapshot state.latest kind at member
  unfold latestAfter at member
  split at member
  · obtain ⟨shown, ofKind⟩ := List.mem_filter.mp member
    refine ⟨of_decide_eq_true ofKind, Option.ne_none_iff_exists'.mp (open_ key (.inl ?_))⟩
    exact Option.isSome_iff_ne_none.mp (SortedMap.get_isSome_iff.mpr shown)
  · rename_i unknown
    obtain ⟨ofKind, row, found⟩ := inv.shown kind key member
    refine ⟨ofKind, Option.ne_none_iff_exists'.mp (open_ key (.inr ⟨?_, ofKind ▸ unknown⟩))⟩
    exact found ▸ Option.some_ne_none row

/-- A step that logs nothing but what people do. -/
theorem Kept.human {bound : ℕ} (kept : Kept kindOf bound state) {event : Event Key}
    (human : event.action ≠ .autoResolved) {resolving : List (Resolution Key)}
    (written : ∀ resolution ∈ state.resolving, resolution ∈ resolving ∨
      ∀ since ≤ state.now, HasHumanEventSince [event] resolution.key since) :
    Kept kindOf bound { state with resolving := resolving, events := event :: state.events } where
  rows := kept.rows
  closed := by
    intro other member auto
    rcases List.mem_cons.mp member with rfl | older
    · exact absurd auto human
    · exact kept.closed other older auto
  once := by
    intro key episode
    rw [List.filter_cons_of_neg]
    · exact kept.once key episode
    · exact fun same => human (of_decide_eq_true same).1
  notResolved := by
    intro other member auto
    rcases List.mem_cons.mp member with rfl | older
    · exact absurd auto human
    · exact kept.notResolved other older auto
  accounted := by
    intro key episode resolved
    obtain ⟨earlier, accounted⟩ := kept.accounted key episode resolved
    refine ⟨earlier, fun row found same => ?_⟩
    rcases accounted row found same with ⟨resolution, waiting, rfl, opened⟩ | told
    · rcases written resolution waiting with still | told
      · exact .inl ⟨resolution, still, rfl, opened⟩
      · obtain ⟨own, member, told⟩ := told row.firstSeen (kept.rows _ row found).1
        exact .inr ⟨own, List.mem_append_left state.events member, told⟩
    · exact .inr (told.append [event])

variable {next : State Key}

theorem inv_resolve (inv : Inv kindOf state)
    (taken : step state (.resolve key : Action kindOf) = some next) : Inv kindOf next := by
  dsimp only [step] at taken
  cases found : state.items.get key with
  | none =>
      rw [found] at taken
      exact Option.some.inj taken ▸ inv
  | some row =>
      rw [found] at taken
      obtain rfl := Option.some.inj taken
      obtain ⟨-, earlier, -⟩ := inv.kept.rows key row found
      refine ⟨{
        rows := inv.kept.rows
        closed := inv.kept.closed
        once := inv.kept.once
        notResolved := fun event member auto resolved => ?_
        accounted := fun other episode resolved => ?_ }, inv.shown⟩
      · rcases List.mem_cons.mp resolved with same | before
        · obtain ⟨rfl, opened⟩ := Prod.mk.inj same
          exact (inv.kept.closed event member auto).2 row found opened.symm
        · exact inv.kept.notResolved event member auto before
      · rcases List.mem_cons.mp resolved with same | before
        · obtain ⟨rfl, rfl⟩ := Prod.mk.inj same
          exact ⟨earlier, fun _ _ _ => .inl ⟨_, List.mem_cons_self, rfl, rfl⟩⟩
        · obtain ⟨opened, accounted⟩ := inv.kept.accounted other episode before
          refine ⟨opened, fun own isOpen same => (accounted own isOpen same).imp_left ?_⟩
          rintro ⟨resolution, waiting, told⟩
          exact ⟨resolution, List.mem_cons_of_mem _ waiting, told⟩

theorem inv_record {resolution : Resolution Key} {action : String} {event : Event Key}
    (inv : Inv kindOf state)
    (taken : step state (.record resolution action event : Action kindOf) = some next) :
    Inv kindOf next := by
  obtain ⟨-, rfl⟩ := Option.ite_some_none_eq_some.mp taken
  refine ⟨inv.kept.human (fun same => by cases same) fun other waiting => ?_, inv.shown⟩
  by_cases same : other = resolution
  · refine .inr fun since before => ⟨_, List.mem_singleton_self _, ?_, before, ?_⟩
    · exact congrArg Resolution.key same.symm
    · constructor
      · exact fun auto => by cases auto
      · exact fun undo => by cases undo
  · exact .inl ((List.mem_erase_of_ne same).mpr waiting)

theorem inv_step {action : Action kindOf} (inv : Inv kindOf state) (timely : Timely state action)
    (taken : step state action = some next) : Inv kindOf next := by
  cases action with
  | tick snapshot failing => exact Option.some.inj taken ▸ inv_tick inv timely
  | resolve key => exact inv_resolve inv taken
  | record resolution action event => exact inv_record inv taken
  | undo event =>
      obtain rfl := Option.some.inj taken
      exact ⟨inv.kept.human (fun same => by cases same) fun _ waiting => .inl waiting, inv.shown⟩
  | job key status =>
      obtain rfl := Option.some.inj taken
      exact ⟨⟨inv.kept.rows, inv.kept.closed, inv.kept.once, inv.kept.notResolved,
        inv.kept.accounted⟩, inv.shown⟩
  | wait duration =>
      obtain ⟨-, rfl⟩ := Option.ite_some_none_eq_some.mp taken
      refine ⟨{
        rows := fun key row found => ?_
        closed := inv.kept.closed
        once := inv.kept.once
        notResolved := inv.kept.notResolved
        accounted := inv.kept.accounted }, inv.shown⟩
      refine (inv.kept.rows key row found).imp_left fun before => ?_
      change row.firstSeen ≤ state.now + duration
      omega

theorem history_honest (start : ℤ) (state : State Key)
    (reachable : Reachable (State.initial Key start) step (@Timely Key _ kindOf) state) :
    Honest (@Timely Key _ kindOf) state := by
  have inv : Inv kindOf state :=
    reachable.invariant (inv_initial start) fun _ _ _ inv timely taken => inv_step inv timely taken
  exact {
    once := inv.kept.once
    enumerated := fun snapshot failing timely => (runOnce_spec inv.kept timely).2.1
    notResolved := inv.kept.notResolved
    shown := fun kind key member => (inv.shown kind key member).2 }

/-- The late queue of a plant, with one employee or with none. -/
def lateQueue (isLate : Bool) : Snapshot fun _ : ℕ => .late where
  attendanceLocationMode := .off
  sourceErrors := []
  sections := [⟨.late, isLate.toNat, isLate.toNat, true⟩]
  queue := if isLate then [⟨some 7, .late, false, some "Ana", none, none⟩] else []
  listedOnce := List.nodup_singleton _
  keyed := by
    intro row member _ _
    cases isLate with
    | false => exact absurd member List.not_mem_nil
    | true => exact List.mem_singleton.mp member ▸ rfl

def lateEvent : Event ℕ where
  itemKind := .late
  itemKey := 7
  personName := some "Ana"
  categoryLabel := none
  action := .other "excused"
  outcome := none
  actorName := some "manager"
  resolvedAt := 0
  episode := 0

def seconds (count : ℕ) : ℕ := count * 1000000

/-- A tick each minute. The item leaves a second before the second tick, and its event is
written 71 seconds later. -/
def minuteTicks : List (Action fun _ : ℕ => .late) :=
  [.tick (lateQueue true) [], .wait (seconds 59), .resolve 7, .wait (seconds 1),
    .tick (lateQueue false) [], .wait (seconds 60), .tick (lateQueue false) [],
    .wait (seconds 10), .record ⟨7, 0, 59000000⟩ "excused" lateEvent]

theorem resolution_invented :
    ¬∀ state, Reachable (State.initial ℕ 0) step
      (fun _ (_ : Action fun _ : ℕ => .late) => True) state →
      Honest (fun _ (_ : Action fun _ : ℕ => .late) => True) state := by
  intro honest
  obtain ⟨state, ran, resolved⟩ : ∃ state, run step (State.initial ℕ 0) minuteTicks = some state ∧
      ∃ event ∈ state.events, event.action = .autoResolved ∧
        (event.itemKey, event.episode) ∈ state.resolved :=
    ⟨_, rfl, by decide⟩
  obtain ⟨event, member, auto, told⟩ := resolved
  have reachable := Reachable.initial.run (fun _ _ _ => trivial) ran
  exact (honest state reachable).notResolved event member auto told

/-- With the ticks closer to each other than that, the event comes first. -/
def closeTicks : List (Action fun _ : ℕ => .late) :=
  [.tick (lateQueue true) [], .wait (seconds 30), .resolve 7, .wait (seconds 30),
    .tick (lateQueue false) [], .record ⟨7, 0, 30000000⟩ "excused" lateEvent,
    .wait (seconds 60), .tick (lateQueue false) []]

theorem history_honest_closeTicks :
    ∃ state, run step (State.initial ℕ 0) closeTicks = some state ∧ state.items = ∅ ∧
      Honest (@Timely ℕ _ fun _ => .late) state := by
  refine ⟨_, rfl, rfl, ?_⟩
  apply history_honest 0
  have permitted : Permitted step (@Timely ℕ _ fun _ => .late) (State.initial ℕ 0) closeTicks := by
    decide
  exact Reachable.initial.run_permitted permitted rfl

end PlantManager.Inbox
