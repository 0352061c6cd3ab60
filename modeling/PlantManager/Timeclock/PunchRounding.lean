import PlantManager.Mapping.Updates
import PlantManager.Ranking.Sorting
import PlantManager.Timeclock.PunchSync

/-! # Rounded punches

A clock-in near the start of the shift is stored at the start, a clock-out near its end at the end,
and everything downstream sorts by the stored times. They are in the order of the log exactly if no
boundary that a punch is pulled to lies beyond what the next punch, or beyond where the one before
it, is stored (`Timeclock.Rounding.rounding_keeps_order`). Somebody who signs out before
the shift starts has a clock-in after the clock-out
(`Timeclock.Rounding.signedOutEarly`).
-/

namespace PlantManager.Timeclock.Rounding

open Mapping Ranking
open PunchSync (PunchAction)

/-- The rounding windows, in minutes. -/
structure RoundingSettings where
  inBeforeMin : ℕ
  inAfterMin : ℕ
  outBeforeMin : ℕ
  outAfterMin : ℕ

/-- The times of the day at which a shift starts and ends. -/
structure Shift where
  start : ℤ
  stop : ℤ

/-- The wall-clock time of an instant in the zone of the site, and back. Both are microseconds. -/
structure Zone where
  wall : ℤ → ℤ
  instant : ℤ → ℤ

def minutes (count : ℕ) : ℤ := count * 60000000

def dayLength : ℤ := 24 * 60 * 60000000

/-- A time of the day on the local date of an instant. -/
def Zone.scheduled (zone : Zone) (occurredAt time : ℤ) : ℤ :=
  zone.wall occurredAt / dayLength * dayLength + time

/-- The wall-clock time of an instant lies in a window around a scheduled time. -/
def Zone.InWindow (zone : Zone) (occurredAt time : ℤ) (before after : ℕ) : Prop :=
  zone.scheduled occurredAt time - minutes before ≤ zone.wall occurredAt ∧
    zone.wall occurredAt ≤ zone.scheduled occurredAt time + minutes after

instance (zone : Zone) (occurredAt time : ℤ) (before after : ℕ) :
    Decidable (zone.InWindow occurredAt time before after) :=
  inferInstanceAs (Decidable (_ ∧ _))

def applyRounding (zone : Zone) (action : PunchAction) (occurredAt : ℤ) (shift : Shift)
    (settings : RoundingSettings) : ℤ :=
  match action with
  | .transferIn | .transferOut => occurredAt
  | .clockIn =>
      if zone.InWindow occurredAt shift.start settings.inBeforeMin settings.inAfterMin then
        zone.instant (zone.scheduled occurredAt shift.start)
      else occurredAt
  | .clockOut =>
      if zone.InWindow occurredAt shift.stop settings.outBeforeMin settings.outAfterMin then
        zone.instant (zone.scheduled occurredAt shift.stop)
      else occurredAt

/-! ## The log -/

/-- A row of the punch log. -/
structure Punch where
  id : ℕ
  personOdooId : ℤ
  action : PunchAction
  wcName : Option String
  occurredAt : ℤ
  roundedAt : Option ℤ
  deriving DecidableEq

def Punch.storedAt (punch : Punch) : ℤ := punch.roundedAt.getD punch.occurredAt

def Punch.key (punch : Punch) : ℤ ×ₗ ℕ := toLex (punch.storedAt, punch.id)

/-- A punch that is about to be logged, with the hours and windows that are found for it. The
rounding can fail. -/
structure Attempt where
  personOdooId : ℤ
  action : PunchAction
  wcName : Option String
  occurredAt : ℤ
  shift : Shift
  windows : RoundingSettings
  fails : Bool

/-- The row that is stored. A punch whose rounding fails keeps its raw time. -/
def openLogRow (zone : Zone) (log : List Punch) (attempt : Attempt) : Punch where
  id := log.length
  personOdooId := attempt.personOdooId
  action := attempt.action
  wcName := attempt.wcName
  occurredAt := attempt.occurredAt
  roundedAt :=
    if attempt.fails then none
    else some (applyRounding zone attempt.action attempt.occurredAt attempt.shift attempt.windows)

def logged (zone : Zone) (attempts : List Attempt) : List Punch :=
  attempts.foldl (fun log attempt => log ++ [openLogRow zone log attempt]) []

def own (person : ℤ) (log : List Punch) : List Punch :=
  log.filter fun punch => punch.personOdooId = person

/-! ## The queries -/

def latestPunch (log : List Punch) (person : ℤ) : Option Punch :=
  (sortBy (fun punch => OrderDual.toDual punch.key) (own person log)).head?

/-- The first row of each person, in one query for many people. -/
def latestPunchesBulk (log : List Punch) (people : List ℤ) : Dictionary ℤ Punch :=
  (sortBy (fun punch => toLex (punch.personOdooId, OrderDual.toDual punch.key))
    (log.filter fun punch => punch.personOdooId ∈ people)).foldl
      (fun rows punch => rows.setDefault punch.personOdooId punch) ∅

def batchSize : ℕ := 50

/-- The punches that a retry takes up, in its order. -/
def retryQueue (synced : ℕ → Bool) (log : List Punch) : List Punch :=
  (sortBy Punch.key (log.filter fun punch => synced punch.id = false)).take batchSize

/-- The attendances of consecutive punches, as their stored times. -/
def attendances : List Punch → List (ℤ × ℤ)
  | first :: second :: rest =>
      if first.action = .clockIn ∨ first.action = .transferIn then
        (first.storedAt, second.storedAt) :: attendances rest
      else attendances (second :: rest)
  | _ => []

/-- What the log of a person looks like downstream is in the order in which it was written. -/
structure KeepsOrder (log : List Punch) (person : ℤ) : Prop where
  stored : (own person log).Pairwise fun first second => first.storedAt ≤ second.storedAt
  nonnegative : ∀ stay ∈ attendances (own person log), stay.1 ≤ stay.2
  apart : (attendances (own person log)).Pairwise fun first second => first.2 ≤ second.1
  latest : latestPunch log person = (own person log).getLast?
  bulk : ∀ people, person ∈ people →
    (latestPunchesBulk log people).get person = (own person log).getLast?
  queue : ∀ synced, (own person (retryQueue synced log)).Sublist (own person log)

/-! ## The condition -/

/-- The punch is in its rounding window. -/
def Attempt.Pulled (zone : Zone) (attempt : Attempt) : Prop :=
  attempt.fails = false ∧
    (attempt.action = .clockIn ∧ zone.InWindow attempt.occurredAt attempt.shift.start
        attempt.windows.inBeforeMin attempt.windows.inAfterMin ∨
      attempt.action = .clockOut ∧ zone.InWindow attempt.occurredAt attempt.shift.stop
        attempt.windows.outBeforeMin attempt.windows.outAfterMin)

instance (zone : Zone) : DecidablePred (Attempt.Pulled zone) := fun attempt =>
  inferInstanceAs (Decidable (attempt.fails = false ∧ (_ ∧ _ ∨ _ ∧ _)))

/-- The start of the shift of an in-punch, the end of that of an out-punch. -/
def Attempt.boundary (zone : Zone) (attempt : Attempt) : ℤ :=
  zone.instant (zone.scheduled attempt.occurredAt
    (if attempt.action = .clockIn then attempt.shift.start else attempt.shift.stop))

/-- A punch in its window is not followed by one before its boundary, nor does it follow one after
its boundary. -/
def InStep (zone : Zone) (first second : Attempt) : Prop :=
  (first.Pulled zone → ¬second.Pulled zone → first.boundary zone ≤ second.occurredAt) ∧
    (¬first.Pulled zone → second.Pulled zone → first.occurredAt ≤ second.boundary zone) ∧
      (first.Pulled zone → second.Pulled zone → first.boundary zone ≤ second.boundary zone)

instance (zone : Zone) : DecidableRel (InStep zone) := fun _ _ =>
  inferInstanceAs (Decidable (_ ∧ _ ∧ _))

def ownAttempts (person : ℤ) (attempts : List Attempt) : List Attempt :=
  attempts.filter fun attempt => attempt.personOdooId = person

variable {zone : Zone} {person : ℤ}

def Attempt.storedAt (zone : Zone) (attempt : Attempt) : ℤ :=
  (openLogRow zone [] attempt).storedAt

theorem Attempt.storedAt_eq (zone : Zone) (attempt : Attempt) :
    attempt.storedAt zone =
      if attempt.Pulled zone then attempt.boundary zone else attempt.occurredAt := by
  obtain ⟨_, action, _, occurredAt, shift, windows, fails⟩ := attempt
  cases fails with
  | true => simp [storedAt, Punch.storedAt, openLogRow, Pulled]
  | false =>
      cases action with
      | clockIn | clockOut => simp [storedAt, Punch.storedAt, openLogRow, Pulled, applyRounding, boundary]
      | transferIn | transferOut =>
          simp [storedAt, Punch.storedAt, openLogRow, Pulled, applyRounding]

/-- Of two punches in the order of their raw times, the stored times are in order exactly if the
punches are in step. -/
theorem storedAt_le_iff {first second : Attempt} (raw : first.occurredAt ≤ second.occurredAt) :
    first.storedAt zone ≤ second.storedAt zone ↔ InStep zone first second := by
  rw [first.storedAt_eq, second.storedAt_eq, InStep]
  by_cases one : first.Pulled zone
  · by_cases two : second.Pulled zone <;> simp [one, two]
  · by_cases two : second.Pulled zone <;> simp [one, two, raw]

theorem isChain_storedAt_iff {attempts : List Attempt}
    (raw : attempts.IsChain fun first second => first.occurredAt ≤ second.occurredAt) :
    (attempts.IsChain fun first second => first.storedAt zone ≤ second.storedAt zone) ↔
      attempts.IsChain (InStep zone) := by
  induction attempts with
  | nil => simp
  | cons first rest ih =>
      cases rest with
      | nil => simp
      | cons second rest =>
          rw [List.isChain_cons_cons] at raw
          rw [List.isChain_cons_cons, List.isChain_cons_cons, ih raw.2, storedAt_le_iff raw.1]

/-! ## What the log holds -/

theorem logged_concat (attempts : List Attempt) (attempt : Attempt) :
    logged zone (attempts ++ [attempt]) =
      logged zone attempts ++ [openLogRow zone (logged zone attempts) attempt] := by
  rw [logged, List.foldl_append]
  rfl

theorem map_own_logged {β : Type*} {read : Punch → β} {value : Attempt → β}
    (same : ∀ log attempt, read (openLogRow zone log attempt) = value attempt)
    (attempts : List Attempt) :
    (own person (logged zone attempts)).map read = (ownAttempts person attempts).map value := by
  induction attempts using List.reverseRecOn with
  | nil => rfl
  | append_singleton attempts attempt ih =>
      rw [logged_concat, own, ownAttempts, List.filter_append, List.filter_append, List.map_append,
        List.map_append]
      refine congrArg₂ (· ++ ·) ih ?_
      by_cases isOwn : attempt.personOdooId = person
      · simp [openLogRow, isOwn, ← same (logged zone attempts) attempt]
      · simp [openLogRow, isOwn]

/-- The identifiers follow the order of the log. -/
theorem pairwise_id_logged (attempts : List Attempt) :
    (logged zone attempts).Pairwise fun first second => first.id < second.id := by
  have bounded : (logged zone attempts).Pairwise (fun first second => first.id < second.id) ∧
      ∀ punch ∈ logged zone attempts, punch.id < (logged zone attempts).length := by
    induction attempts using List.reverseRecOn with
    | nil => exact ⟨List.Pairwise.nil, nofun⟩
    | append_singleton attempts attempt ih =>
        rw [logged_concat]
        constructor
        · refine List.pairwise_append.mpr ⟨ih.1, List.pairwise_singleton _ _, ?_⟩
          rintro earlier before last isLast
          rw [List.mem_singleton.mp isLast]
          exact ih.2 earlier before
        · rintro punch member
          rw [List.length_append, List.length_singleton]
          rcases List.mem_append.mp member with before | isLast
          · exact (ih.2 punch before).trans (Nat.lt_succ_self _)
          · rw [List.mem_singleton.mp isLast]
            exact Nat.lt_succ_self _
  exact bounded.1

/-! ## What the queries return -/

/-- Sorted by time and identifier, punches that are in that order stay as they are. -/
theorem eq_of_sorted {rows inOrder : List Punch} (perm : rows.Perm inOrder)
    (sorted : rows.Pairwise fun first second => first.key ≤ second.key)
    (ascending : inOrder.Pairwise fun first second => first.key < second.key) :
    rows = inOrder := by
  refine perm.eq_of_pairwise (fun one two isRow isOther below above => ?_) sorted
    (ascending.imp le_of_lt)
  have distinct : (inOrder.map Punch.key).Nodup :=
    (List.pairwise_map.mpr ascending).imp ne_of_lt
  exact List.inj_on_of_nodup_map distinct (perm.mem_iff.mp isRow) isOther (le_antisymm below above)

theorem head?_of_sorted {rows inOrder : List Punch} (perm : rows.Perm inOrder)
    (sorted : rows.Pairwise fun first second => second.key ≤ first.key)
    (ascending : inOrder.Pairwise fun first second => first.key < second.key) :
    rows.head? = inOrder.getLast? := by
  rw [← eq_of_sorted ((List.reverse_perm rows).trans perm) (List.pairwise_reverse.mpr sorted)
    ascending, List.getLast?_reverse]

variable {log : List Punch}

theorem mem_of_mem_attendances {stay : ℤ × ℤ} (member : stay ∈ attendances log) :
    ∃ punch ∈ log, stay.1 = punch.storedAt := by
  induction log using attendances.induct with
  | case1 first second rest isIn ih =>
      rw [attendances, if_pos isIn, List.mem_cons] at member
      rcases member with rfl | later
      · exact ⟨first, List.mem_cons_self, rfl⟩
      · obtain ⟨punch, isLater, same⟩ := ih later
        exact ⟨punch, List.mem_cons_of_mem _ (List.mem_cons_of_mem _ isLater), same⟩
  | case2 first second rest isOut ih =>
      rw [attendances, if_neg isOut] at member
      obtain ⟨punch, isLater, same⟩ := ih member
      exact ⟨punch, List.mem_cons_of_mem _ isLater, same⟩
  | case3 log few => rw [attendances] at member <;> simp_all

/-- Stays of punches in the order of their stored times are in order too. -/
theorem attendances_of_stored
    (stored : log.Pairwise fun first second => first.storedAt ≤ second.storedAt) :
    (∀ stay ∈ attendances log, stay.1 ≤ stay.2) ∧
      (attendances log).Pairwise fun first second => first.2 ≤ second.1 := by
  induction log using attendances.induct with
  | case1 first second rest isIn ih =>
      obtain ⟨before, later⟩ := List.pairwise_cons.mp stored
      obtain ⟨between, last⟩ := List.pairwise_cons.mp later
      obtain ⟨nonnegative, apart⟩ := ih last
      rw [attendances, if_pos isIn]
      refine ⟨List.forall_mem_cons.mpr ⟨before second List.mem_cons_self, nonnegative⟩,
        List.pairwise_cons.mpr ⟨fun stay member => ?_, apart⟩⟩
      obtain ⟨punch, isLater, same⟩ := mem_of_mem_attendances member
      exact same ▸ between punch isLater
  | case2 first second rest isOut ih =>
      rw [attendances, if_neg isOut]
      exact ih (List.pairwise_cons.mp stored).2
  | case3 log few => rw [attendances] <;> simp_all

theorem keepsOrder_of_stored (ids : log.Pairwise fun first second => first.id < second.id)
    (stored : (own person log).Pairwise fun first second => first.storedAt ≤ second.storedAt) :
    KeepsOrder log person := by
  have ascending : (own person log).Pairwise fun first second => first.key < second.key :=
    (stored.and (ids.filter _)).imp fun both => Prod.Lex.toLex_lt_toLex.mpr
      ((lt_or_eq_of_le both.1).imp_right fun same => ⟨same, both.2⟩)
  obtain ⟨nonnegative, apart⟩ := attendances_of_stored stored
  refine ⟨stored, nonnegative, apart, ?_, fun people isOne => ?_, fun synced => ?_⟩
  · exact head?_of_sorted (sortBy_perm _ _)
      (pairwise_sortBy (fun punch : Punch => OrderDual.toDual punch.key) _) ascending
  · have perm : (own person (sortBy
        (fun punch => toLex (punch.personOdooId, OrderDual.toDual punch.key))
          (log.filter fun punch => punch.personOdooId ∈ people))).Perm (own person log) := by
      refine ((sortBy_perm _ _).filter _).trans (.of_eq ?_)
      rw [List.filter_filter]
      refine List.filter_congr fun punch _ => ?_
      by_cases isOwn : punch.personOdooId = person <;> simp [isOwn, isOne]
    rw [latestPunchesBulk, Dictionary.get_foldl_setDefault]
    refine head?_of_sorted perm ?_ ascending
    have sorted := (pairwise_sortBy (fun punch : Punch =>
      toLex (punch.personOdooId, OrderDual.toDual punch.key))
        (log.filter fun punch => punch.personOdooId ∈ people)).filter
          fun punch => punch.personOdooId = person
    refine List.Pairwise.imp_of_mem (fun isFirst isSecond below => ?_) sorted
    have first := of_decide_eq_true (List.mem_filter.mp isFirst).2
    have second := of_decide_eq_true (List.mem_filter.mp isSecond).2
    rcases Prod.Lex.toLex_le_toLex.mp below with less | ⟨-, newer⟩
    · exact absurd (first.trans second.symm) less.ne
    · exact newer
  · have unsynced : own person (sortBy Punch.key (log.filter fun punch => synced punch.id = false)) =
        (own person log).filter fun punch => synced punch.id = false := by
      refine eq_of_sorted (((sortBy_perm _ _).filter _).trans (.of_eq ?_))
        ((pairwise_sortBy Punch.key _).filter _) (ascending.filter _)
      rw [own, List.filter_comm]
    have queued := (List.take_sublist batchSize (sortBy Punch.key
      (log.filter fun punch => synced punch.id = false))).filter
        fun punch => punch.personOdooId = person
    change (own person _).Sublist (own person _) at queued
    rw [unsynced] at queued
    exact queued.trans List.filter_sublist

/-! ## The claim -/

/-- Where a person's punches were logged in the order of their raw times, what is made of the log is
in that order exactly if neighbouring punches are in step. -/
theorem rounding_keeps_order (zone : Zone) (attempts : List Attempt) (person : ℤ)
    (raw : (ownAttempts person attempts).IsChain fun first second =>
      first.occurredAt ≤ second.occurredAt) :
    KeepsOrder (logged zone attempts) person ↔
      (ownAttempts person attempts).IsChain (InStep zone) := by
  have stored : ((own person (logged zone attempts)).Pairwise fun first second =>
      first.storedAt ≤ second.storedAt) ↔ (ownAttempts person attempts).IsChain (InStep zone) := by
    have same : (own person (logged zone attempts)).map Punch.storedAt =
        (ownAttempts person attempts).map (Attempt.storedAt zone) :=
      map_own_logged (fun _ _ => rfl) attempts
    rw [← isChain_storedAt_iff raw, ← List.pairwise_map, same, ← List.isChain_iff_pairwise,
      List.isChain_map]
  rw [← stored]
  exact ⟨KeepsOrder.stored, keepsOrder_of_stored (pairwise_id_logged attempts)⟩

/-- In, maybe from place to place, and out, for somebody who is in or not. -/
def Alternating : Bool → List PunchAction → Prop
  | _, [] => True
  | false, .clockIn :: rest => Alternating true rest
  | true, .transferOut :: .transferIn :: rest => Alternating true rest
  | true, .clockOut :: rest => Alternating false rest
  | _, _ => False

def minuteOf (hour minute : ℕ) : ℤ := minutes (60 * hour + minute)

/-- A zone without an offset, and a shift from seven to half past three with windows of a quarter of
an hour. -/
def utc : Zone := ⟨id, id⟩

def punched (action : PunchAction) (hour minute : ℕ) : Attempt :=
  ⟨7, action, some "Saw", minuteOf hour minute, ⟨minuteOf 7 0, minuteOf 15 30⟩, ⟨15, 5, 5, 15⟩,
    false⟩

def wholeDay : List Attempt :=
  [punched .clockIn 6 50, punched .transferOut 9 0, punched .transferIn 9 0, punched .clockOut 15 36]

theorem rounding_keeps_order_wholeDay : KeepsOrder (logged utc wholeDay) 7 :=
  (rounding_keeps_order utc wholeDay 7 (by decide +kernel)).mpr (by decide +kernel)

/-- Somebody signs in ten minutes early by mistake and signs out again. -/
def quickOut : List Attempt := [punched .clockIn 6 50, punched .clockOut 6 55]

theorem signedOutEarly :
    Alternating false (quickOut.map Attempt.action) ∧
      (latestPunch (logged utc quickOut) 7).map Punch.action = some .clockIn ∧
        ((logged utc quickOut).getLast?).map Punch.action = some .clockOut ∧
          attendances (logged utc quickOut) = [(minuteOf 7 0, minuteOf 6 55)] ∧
            ¬KeepsOrder (logged utc quickOut) 7 := by
  refine ⟨trivial, by decide +kernel, by decide +kernel, by decide +kernel, fun keeps => ?_⟩
  exact absurd keeps.stored (by decide +kernel)

end PlantManager.Timeclock.Rounding
