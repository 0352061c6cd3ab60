import PlantManager.Timeclock.PunchLedger

/-! # The order in which punches reach Odoo

`Timeclock.PunchSync.punchSync_history`: the rows in Odoo are those of syncing in the
order of the log if every immediate call fails after one that failed, or if the calls of an
in-punch and its out-punch fail together; and where every stay takes time, only then.
`Timeclock.PunchSync.punchSync_leaves_open` is a log whose person stays clocked in.
-/

namespace PlantManager.Timeclock.PunchSync

/-- In-punches and out-punches take turns, from an in-punch on. -/
def Alternating : List Punch → Prop
  | [] => True
  | [last] => last.isIn
  | first :: second :: rest => first.isIn ∧ second.isIn = false ∧ Alternating rest

instance Alternating.decidable : ∀ log, Decidable (Alternating log)
  | [] => isTrue trivial
  | [last] => inferInstanceAs (Decidable (last.isIn = true))
  | _ :: _ :: rest =>
      haveI := Alternating.decidable rest
      inferInstanceAs (Decidable (_ ∧ _ ∧ _))

/-- The calls of an in-punch and its out-punch both succeed or both fail, and an in-punch without
an out-punch fails. -/
def PairsTogether : List Bool → Prop
  | [] => True
  | [last] => last = false
  | first :: second :: rest => first = second ∧ PairsTogether rest

instance PairsTogether.decidable : ∀ oks, Decidable (PairsTogether oks)
  | [] => isTrue trivial
  | [last] => inferInstanceAs (Decidable (last = false))
  | _ :: _ :: rest =>
      haveI := PairsTogether.decidable rest
      inferInstanceAs (Decidable (_ ∧ _))

/-- Every call fails after one that failed. -/
def FailsOnwards (oks : List Bool) : Prop :=
  oks.Pairwise fun earlier later => later = true → earlier = true

/-- Every call fails after one that failed, or the calls of a stay fail together. -/
def FailsInOrder (oks : List Bool) : Prop := FailsOnwards oks ∨ PairsTogether oks

/-- The stays: each in-punch with the out-punch that follows it. -/
def stays : List Punch → List (Punch × Punch)
  | first :: second :: rest => (first, second) :: stays rest
  | _ => []

/-- Every stay takes time. -/
def StaysTakeTime (log : List Punch) : Prop :=
  ∀ stay ∈ stays log, stay.1.occurredAt < stay.2.occurredAt

def Shift.interval (shift : Shift) : ℤ × Option ℤ := (shift.checkIn, shift.checkOut)

/-- The intervals are those of syncing in order, and a row is open exactly if the last punch is an
in-punch. -/
structure SameHistory (log : List Punch) (inOrder final : Odoo) : Prop where
  intervals : (final.rows.map fun row => row.shift.interval).Perm
    (inOrder.rows.map fun row => row.shift.interval)
  current : (∃ row ∈ final.rows, row.shift.checkOut = none) ↔
    ∃ last ∈ log.getLast?, last.isIn = true

/-! ## What a sequence of punches leaves -/

/-- The shifts of punches that take turns. -/
def shiftsOf (mapping : Mapping) : List Punch → List Shift
  | [] => []
  | [last] => [last.opens mapping]
  | first :: second :: rest =>
      (first.opens mapping).close second.occurredAt :: shiftsOf mapping rest

/-- The shift of an in-punch at the end. -/
def lastOf (mapping : Mapping) : List Punch → Option Shift
  | [] => none
  | [last] => some (last.opens mapping)
  | _ :: _ :: rest => lastOf mapping rest

variable {mapping : Mapping}

variable {punch : Punch} {log : List Punch} {punches : List (Punch × Bool)}

theorem sync_in (isIn : punch.isIn) (done : List Shift) :
    Ledger.sync mapping ⟨done, none⟩ punch = ⟨done, some (punch.opens mapping)⟩ := by
  rw [Ledger.sync, isIn]

theorem sync_out (isOut : punch.isIn = false) (done : List Shift) (shift : Shift) :
    Ledger.sync mapping ⟨done, some shift⟩ punch =
      ⟨done ++ [shift.close punch.occurredAt], none⟩ := by
  rw [Ledger.sync, isOut]

theorem foldl_alternating (mapping : Mapping) (alternating : Alternating log) (done : List Shift) :
    (log.foldl (Ledger.sync mapping) ⟨done, none⟩).shifts = done ++ shiftsOf mapping log ∧
      (log.foldl (Ledger.sync mapping) ⟨done, none⟩).current = lastOf mapping log := by
  induction log using Alternating.induct generalizing done with
  | case1 => exact ⟨rfl, rfl⟩
  | case2 last =>
      rw [List.foldl_cons, sync_in alternating]
      exact ⟨rfl, rfl⟩
  | case3 first second rest ih =>
      obtain ⟨comes, goes, rest_⟩ := alternating
      rw [List.foldl_cons, List.foldl_cons, sync_in comes, sync_out goes]
      obtain ⟨shifts, current⟩ := ih rest_ (done ++ [(first.opens mapping).close second.occurredAt])
      exact ⟨shifts.trans (List.append_assoc ..), current⟩

theorem lastOf_isSome (mapping : Mapping) (alternating : Alternating log) :
    (lastOf mapping log).isSome ↔ ∃ last ∈ log.getLast?, last.isIn = true := by
  induction log using Alternating.induct with
  | case1 => simp [lastOf]
  | case2 last =>
      have comes : last.isIn = true := alternating
      simpa [lastOf] using comes
  | case3 first second rest ih =>
      obtain ⟨comes, goes, rest_⟩ := alternating
      rw [lastOf, ih rest_]
      cases rest with
      | nil => simp [goes]
      | cons third rest => simp [List.getLast?_cons_cons]

/-! ## Stays before other stays -/

/-- The punches whose call succeeds. -/
def succeeded (punches : List (Punch × Bool)) : List Punch :=
  (punches.filter Prod.snd).map Prod.fst

/-- The punches whose call fails. -/
def failed (punches : List (Punch × Bool)) : List Punch :=
  (punches.filter fun flag => !flag.2).map Prod.fst

/-- Whole stays and then the rest. -/
structure Stays (log : List Punch) : Prop where
  alternating : Alternating log
  even : log.length % 2 = 0

theorem Stays.nil : Stays [] := ⟨trivial, rfl⟩

variable {first : Punch} {rest : List Punch}

theorem Stays.cons {second : Punch} (stays : Stays rest) (comes : first.isIn)
    (goes : second.isIn = false) : Stays (first :: second :: rest) :=
  ⟨⟨comes, goes, stays.alternating⟩, (Nat.add_mod_right rest.length 2).trans stays.even⟩

theorem Stays.tail {second : Punch} (stays : Stays (first :: second :: rest)) : Stays rest :=
  ⟨stays.alternating.2.2, (Nat.add_mod_right rest.length 2).symm.trans stays.even⟩

theorem Stays.alternating_append {before : List Punch} (whole : Stays before)
    {after : List Punch} (alternating : Alternating after) : Alternating (before ++ after) := by
  induction before using Alternating.induct with
  | case1 => exact alternating
  | case2 last => cases whole.even
  | case3 first second rest ih =>
      exact ⟨whole.alternating.1, whole.alternating.2.1, ih whole.tail⟩

theorem Stays.append {before : List Punch} (whole : Stays before) (mapping : Mapping)
    (after : List Punch) :
    shiftsOf mapping (before ++ after) = shiftsOf mapping before ++ shiftsOf mapping after ∧
      lastOf mapping (before ++ after) = lastOf mapping after := by
  induction before using Alternating.induct with
  | case1 => exact ⟨rfl, rfl⟩
  | case2 last => cases whole.even
  | case3 first second rest ih =>
      obtain ⟨shifts, last⟩ := ih whole.tail
      exact ⟨congrArg _ shifts, last⟩

/-- Calls that fail in pairs leave whole stays to the immediate calls, and to the retries. -/
theorem pairsTogether_split (mapping : Mapping) : ∀ {punches : List (Punch × Bool)},
    Alternating (punches.map Prod.fst) → PairsTogether (punches.map Prod.snd) →
      Stays (succeeded punches) ∧ Alternating (failed punches) ∧
        (shiftsOf mapping (succeeded punches) ++ shiftsOf mapping (failed punches)).Perm
          (shiftsOf mapping (punches.map Prod.fst)) ∧
        lastOf mapping (failed punches) = lastOf mapping (punches.map Prod.fst)
  | [], _, _ => ⟨.nil, trivial, .refl _, rfl⟩
  | [(last, ok)], alternating, together => by
      obtain rfl : ok = false := together
      exact ⟨.nil, alternating, .refl _, rfl⟩
  | (first, ok) :: (second, other) :: rest, alternating, together => by
      obtain ⟨comes, goes, later⟩ := alternating
      obtain ⟨rfl, together⟩ : ok = other ∧ _ := together
      obtain ⟨whole, left, perm, last⟩ := pairsTogether_split mapping later together
      cases ok with
      | true => exact ⟨whole.cons comes goes, left, perm.cons _, last⟩
      | false => exact ⟨whole, ⟨comes, goes, left⟩, List.perm_middle.trans (perm.cons _), last⟩

/-- Calls that fail from one on leave the order of the log. -/
theorem failsOnwards_split (onwards : FailsOnwards (punches.map Prod.snd)) :
    succeeded punches ++ failed punches = punches.map Prod.fst := by
  induction punches with
  | nil => rfl
  | cons flag rest ih =>
      obtain ⟨punch, ok⟩ := flag
      obtain ⟨first, later⟩ := List.pairwise_cons.mp onwards
      cases ok with
      | true => exact congrArg _ (ih later)
      | false =>
          have none : ∀ flag ∈ rest, flag.2 = false := fun flag member =>
            Bool.eq_false_iff.mpr fun ok => by
              cases first flag.2 (List.mem_map_of_mem member) ok
          have nothing : succeeded rest = [] := by
            rw [succeeded, List.filter_eq_nil_iff.mpr fun flag member => by simp [none flag member]]
            rfl
          have everything : failed rest = rest.map Prod.fst := by
            rw [failed, List.filter_eq_self.mpr fun flag member => by simp [none flag member]]
          change succeeded rest ++ punch :: failed rest = punch :: rest.map Prod.fst
          rw [nothing, everything, List.nil_append]

/-! ## The intervals of any sequence -/

/-- The intervals that punches leave, the first of them from where a row is open. -/
def times : Option ℤ → List Punch → List (ℤ × Option ℤ)
  | none, [] => []
  | some start, [] => [(start, none)]
  | none, punch :: rest => if punch.isIn then times (some punch.occurredAt) rest else times none rest
  | some start, punch :: rest =>
      if punch.isIn then times (some start) rest
      else (start, some punch.occurredAt) :: times none rest

theorem foldl_times (mapping : Mapping) (log : List Punch) (ledger : Ledger)
    (opened : ∀ shift ∈ ledger.current, shift.checkOut = none) :
    (log.foldl (Ledger.sync mapping) ledger).shifts.map Shift.interval =
      ledger.done.map Shift.interval ++ times (ledger.current.map Shift.checkIn) log := by
  induction log generalizing ledger with
  | nil =>
      obtain ⟨done, _ | shift⟩ := ledger
      · simp [Ledger.shifts, times]
      · have open_ : shift.checkOut = none := opened shift rfl
        simp [Ledger.shifts, times, Shift.interval, open_]
  | cons punch rest ih =>
      rw [List.foldl_cons]
      obtain ⟨done, _ | shift⟩ := ledger
      · cases isIn : punch.isIn with
        | true =>
            rw [sync_in isIn, ih ⟨done, some (punch.opens mapping)⟩ (by rintro _ ⟨⟩; rfl)]
            simp [times, isIn, Punch.opens, attendanceCreatePayload]
        | false =>
            have same : Ledger.sync mapping ⟨done, none⟩ punch = ⟨done, none⟩ := by
              rw [Ledger.sync, isIn]
            rw [same, ih ⟨done, none⟩ (by rintro _ ⟨⟩)]
            simp [times, isIn]
      · have open_ : shift.checkOut = none := opened shift rfl
        cases isIn : punch.isIn with
        | true =>
            have same : Ledger.sync mapping ⟨done, some shift⟩ punch =
                ⟨done, some (punch.adopt mapping shift)⟩ := by
              rw [Ledger.sync, isIn]
            rw [same, ih ⟨done, some (punch.adopt mapping shift)⟩ (by
              rintro _ ⟨⟩
              rw [Punch.adopt_checkOut, open_])]
            simp [times, isIn]
        | false =>
            rw [sync_out isIn, ih ⟨done ++ [shift.close punch.occurredAt], none⟩ (by rintro _ ⟨⟩)]
            simp [times, isIn, Shift.interval, Shift.close]

/-- How many intervals are closed. -/
def closed (intervals : List (ℤ × Option ℤ)) : ℕ := intervals.countP fun interval => interval.2.isSome

/-- No in-punch opens two rows, and no out-punch closes two. -/
theorem times_le : ∀ seq : List Punch,
    ((times none seq).length ≤ seq.countP Punch.isIn ∧
        closed (times none seq) ≤ seq.countP fun punch => !punch.isIn) ∧
      ∀ start, (times (some start) seq).length ≤ seq.countP Punch.isIn + 1 ∧
        closed (times (some start) seq) ≤ seq.countP fun punch => !punch.isIn
  | [] => ⟨⟨le_rfl, le_rfl⟩, fun _ => ⟨le_rfl, le_rfl⟩⟩
  | punch :: rest => by
      obtain ⟨⟨ins, outs⟩, open_⟩ := times_le rest
      cases isIn : punch.isIn with
      | true =>
          simp only [times, isIn, if_true, List.countP_cons, Bool.not_true, Bool.false_eq_true,
            if_false, Nat.add_zero]
          exact ⟨open_ _, fun start => ⟨(open_ start).1.trans (Nat.le_succ _), (open_ start).2⟩⟩
      | false =>
          simp only [times, isIn, Bool.false_eq_true, if_false, List.countP_cons, Bool.not_false,
            if_true, Nat.add_zero, List.length_cons]
          refine ⟨⟨ins, outs.trans (Nat.le_succ _)⟩, fun start => ⟨Nat.succ_le_succ ins, ?_⟩⟩
          rw [closed, List.countP_cons_of_pos rfl]
          exact Nat.succ_le_succ outs

/-- Punches that each open or close a row take turns. -/
theorem alternating_of_times : ∀ seq : List Punch,
    ((times none seq).length = seq.countP Punch.isIn →
        closed (times none seq) = seq.countP (fun punch => !punch.isIn) → Alternating seq) ∧
      ∀ start, (times (some start) seq).length = seq.countP Punch.isIn + 1 →
        closed (times (some start) seq) = seq.countP (fun punch => !punch.isIn) →
          ∀ first rest, seq = first :: rest → first.isIn = false ∧ Alternating rest
  | [] => ⟨fun _ _ => trivial, nofun⟩
  | punch :: rest => by
      obtain ⟨shut, open_⟩ := alternating_of_times rest
      obtain ⟨⟨ins, outs⟩, more⟩ := times_le rest
      cases isIn : punch.isIn with
      | true =>
          simp only [times, isIn, if_true, List.countP_cons, Bool.not_true, Bool.false_eq_true,
            if_false, Nat.add_zero]
          constructor
          · intro length closes
            cases rest with
            | nil => exact isIn
            | cons second rest =>
                obtain ⟨goes, later⟩ := open_ _ length closes second rest rfl
                exact ⟨isIn, goes, later⟩
          · intro start length
            exact absurd (length ▸ (more start).1) (Nat.not_succ_le_self _)
      | false =>
          simp only [times, isIn, Bool.false_eq_true, if_false, List.countP_cons, Bool.not_false,
            if_true, Nat.add_zero, List.length_cons]
          constructor
          · intro _ closes
            exact absurd (closes ▸ outs) (Nat.not_succ_le_self _)
          · intro start length closes first others same
            rw [closed, List.countP_cons_of_pos rfl] at closes
            obtain ⟨rfl, rfl⟩ := List.cons.inj same
            exact ⟨isIn, shut (Nat.succ.inj length) (Nat.succ.inj closes)⟩

/-- Punches that take turns each open or close a row. -/
theorem times_of_alternating : ∀ {seq : List Punch}, Alternating seq →
    (times none seq).length = seq.countP Punch.isIn ∧
      closed (times none seq) = seq.countP (fun punch => !punch.isIn) ∧
      (∀ stay ∈ stays seq, (stay.1.occurredAt, some stay.2.occurredAt) ∈ times none seq) ∧
      ∀ start finish, (start, some finish) ∈ times none seq →
        ∃ stay ∈ stays seq, stay.1.occurredAt = start ∧ stay.2.occurredAt = finish
  | [], _ => ⟨rfl, rfl, by simp [stays], by simp [times]⟩
  | [last], comes => by
      have isIn : last.isIn = true := comes
      refine ⟨?_, ?_, ?_, ?_⟩
      · simp [times, isIn]
      · simp [times, isIn, closed]
      · simp [stays]
      · simp [times, isIn]
  | first :: second :: rest, ⟨comes, goes, later⟩ => by
      obtain ⟨length, closes, left, right⟩ := times_of_alternating later
      have unfolded : times none (first :: second :: rest) =
          (first.occurredAt, some second.occurredAt) :: times none rest := by
        simp [times, comes, goes]
      rw [unfolded]
      refine ⟨?_, ?_, ?_, ?_⟩
      · simp [comes, goes, length]
      · rw [closed, List.countP_cons_of_pos rfl]
        simpa [comes, goes, closed] using closes
      · intro stay member
        rcases List.mem_cons.mp member with rfl | member
        · exact List.mem_cons_self
        · exact List.mem_cons_of_mem _ (left stay member)
      · intro start finish member
        rcases List.mem_cons.mp member with same | member
        · obtain ⟨rfl, ends⟩ := Prod.mk.inj same
          exact ⟨(first, second), List.mem_cons_self, rfl, (Option.some.inj ends).symm⟩
        · obtain ⟨stay, present, times_⟩ := right start finish member
          exact ⟨stay, List.mem_cons_of_mem _ present, times_⟩

/-! ## Whose stays they are -/

theorem mem_of_stay {stay : Punch × Punch} (member : stay ∈ stays log) :
    stay.1 ∈ log ∧ stay.2 ∈ log := by
  induction log using Alternating.induct with
  | case1 => simp [stays] at member
  | case2 last => simp [stays] at member
  | case3 first second rest ih =>
      rcases List.mem_cons.mp member with rfl | member
      · exact ⟨List.mem_cons_self, List.mem_cons_of_mem _ List.mem_cons_self⟩
      · obtain ⟨left, right⟩ := ih member
        exact ⟨List.mem_cons_of_mem _ (List.mem_cons_of_mem _ left),
          List.mem_cons_of_mem _ (List.mem_cons_of_mem _ right)⟩

theorem isIn_of_stay (alternating : Alternating log) {stay : Punch × Punch}
    (member : stay ∈ stays log) : stay.1.isIn = true ∧ stay.2.isIn = false := by
  induction log using Alternating.induct with
  | case1 => simp [stays] at member
  | case2 last => simp [stays] at member
  | case3 first second rest ih =>
      obtain ⟨comes, goes, later⟩ := alternating
      rcases List.mem_cons.mp member with rfl | member
      · exact ⟨comes, goes⟩
      · exact ih later member

/-- Every out-punch ends a stay. -/
theorem stay_of_out (alternating : Alternating log) (member : punch ∈ log)
    (goes : punch.isIn = false) : ∃ stay ∈ stays log, stay.2 = punch := by
  induction log using Alternating.induct with
  | case1 => cases member
  | case2 last =>
      have comes : last.isIn = true := alternating
      rw [List.mem_singleton.mp member, comes] at goes
      cases goes
  | case3 first second rest ih =>
      obtain ⟨comes, -, later⟩ := alternating
      rcases List.mem_cons.mp member with rfl | member
      · rw [comes] at goes
        cases goes
      · rcases List.mem_cons.mp member with rfl | member
        · exact ⟨(first, punch), List.mem_cons_self, rfl⟩
        · obtain ⟨stay, present, same⟩ := ih later member
          exact ⟨stay, List.mem_cons_of_mem _ present, same⟩

/-- Where every stay takes time, the time tells the in-punch, and the out-punch. -/
theorem punch_of_time (alternating : Alternating log)
    (sorted : log.Pairwise fun first second => first.occurredAt ≤ second.occurredAt)
    (takes : StaysTakeTime log) {other : Punch} (member : punch ∈ log) (present : other ∈ log)
    (kind : punch.isIn = other.isIn) (time : punch.occurredAt = other.occurredAt) :
    punch = other := by
  induction log using Alternating.induct with
  | case1 => cases member
  | case2 last => exact (List.mem_singleton.mp member).trans (List.mem_singleton.mp present).symm
  | case3 first second rest ih =>
      obtain ⟨comes, goes, later⟩ := alternating
      obtain ⟨firsts, sorted⟩ := List.pairwise_cons.mp sorted
      obtain ⟨seconds, sorted⟩ := List.pairwise_cons.mp sorted
      have lasts : first.occurredAt < second.occurredAt :=
        takes (first, second) List.mem_cons_self
      have others : StaysTakeTime rest := fun stay inside =>
        takes stay (List.mem_cons_of_mem _ inside)
      have after_first : ∀ last ∈ rest, first.occurredAt < last.occurredAt := fun last inside =>
        lasts.trans_le (seconds last inside)
      have after_second : ∀ last ∈ rest, last.isIn = false →
          second.occurredAt < last.occurredAt := by
        intro last inside goes
        obtain ⟨stay, found, rfl⟩ := stay_of_out later inside goes
        exact (seconds stay.1 (mem_of_stay found).1).trans_lt (others stay found)
      have apart : first.isIn ≠ second.isIn := by
        rw [comes, goes]
        exact Bool.true_eq_false_eq_False
      simp only [List.mem_cons] at member present
      rcases member with rfl | rfl | member <;> rcases present with same | same | present
      · exact same.symm
      · exact absurd (same ▸ kind) apart
      · exact absurd time (after_first other present).ne
      · exact absurd (same ▸ kind).symm apart
      · exact same.symm
      · exact absurd time (after_second other present (kind ▸ goes)).ne
      · exact absurd (same ▸ time) (after_first punch member).ne'
      · exact absurd (same ▸ time) (after_second punch member (kind.trans (same ▸ goes))).ne'
      · exact ih later sorted others member present

/-! ## Which calls failed -/

theorem head_isIn (alternating : Alternating (first :: rest)) : first.isIn = true := by
  cases rest with
  | nil => exact alternating
  | cons second rest => exact alternating.1

/-- What takes turns begins with whole stays, or goes on with an out-punch. -/
theorem alternating_append : ∀ (before : List Punch) {after : List Punch},
    Alternating (before ++ after) →
    (before.length % 2 = 0 → Stays before ∧ Alternating after ∧
        stays (before ++ after) = stays before ++ stays after) ∧
      (before.length % 2 = 1 → ∀ first rest, after = first :: rest → first.isIn = false)
  | [], after, alternating => ⟨fun _ => ⟨.nil, alternating, rfl⟩, nofun⟩
  | [last], after, alternating => by
      refine ⟨nofun, ?_⟩
      rintro - first rest rfl
      exact alternating.2.1
  | first :: second :: rest, after, ⟨comes, goes, later⟩ => by
      obtain ⟨even, odd⟩ := alternating_append rest later
      have length : (first :: second :: rest).length % 2 = rest.length % 2 :=
        Nat.add_mod_right rest.length 2
      rw [length]
      refine ⟨fun parity => ?_, odd⟩
      obtain ⟨whole, left, split⟩ := even parity
      exact ⟨whole.cons comes goes, left, congrArg _ split⟩

theorem mem_split (member : punch ∈ succeeded punches ++ failed punches) :
    punch ∈ punches.map Prod.fst := by
  rcases List.mem_append.mp member with member | member <;>
    exact (List.filter_sublist.map Prod.fst).subset member

/-- Nobody's call succeeded, if none is among those that did. -/
theorem failsOnwards_of_nil (none : succeeded punches = []) :
    ∀ ok ∈ punches.map Prod.snd, ok = false := by
  intro ok member
  obtain ⟨flag, present, rfl⟩ := List.mem_map.mp member
  have dropped := List.filter_eq_nil_iff.mp (List.map_eq_nil_iff.mp none) flag present
  exact Bool.eq_false_iff.mpr dropped

/-- If the immediate calls and then the retries take turns in the stays of the log, the calls
failed in pairs, or from one on. -/
theorem fails_of_stays : ∀ {punches : List (Punch × Bool)},
    Alternating (punches.map Prod.fst) → (punches.map Prod.fst).Nodup →
    Alternating (succeeded punches ++ failed punches) →
    (∀ stay ∈ stays (succeeded punches ++ failed punches), stay ∈ stays (punches.map Prod.fst)) →
      ((succeeded punches).length % 2 = 0 → PairsTogether (punches.map Prod.snd)) ∧
        ((succeeded punches).length % 2 = 1 → FailsOnwards (punches.map Prod.snd))
  | [], _, _, _, _ => ⟨fun _ => trivial, fun _ => .nil⟩
  | [(last, ok)], _, _, _, _ => by
      refine ⟨fun even => ?_, fun _ => List.pairwise_singleton ..⟩
      cases ok with
      | true => cases even
      | false => rfl
  | (first, ok) :: (second, other) :: rest, alternating, nodup, turns, theirs => by
      obtain ⟨comes, goes, later⟩ := alternating
      obtain ⟨new_first, others⟩ := List.nodup_cons.mp nodup
      obtain ⟨new_second, unique⟩ := List.nodup_cons.mp others
      -- The stay of the first two punches belongs to no later punch.
      have inner : ∀ {stay}, stay ∈ stays ((first, ok) :: (second, other) :: rest |>.map Prod.fst) →
          stay.1 ∈ rest.map Prod.fst → stay ∈ stays (rest.map Prod.fst) := by
        intro stay member inside
        rcases List.mem_cons.mp member with rfl | member
        · exact absurd (List.mem_cons_of_mem _ inside) new_first
        · exact member
      cases ok with
      | true =>
          cases other with
          | true =>
              obtain ⟨even, odd⟩ := fails_of_stays later unique turns.2.2 fun stay member =>
                inner (theirs stay (List.mem_cons_of_mem _ member))
                  (mem_split (mem_of_stay member).1)
              have length : (succeeded ((first, true) :: (second, true) :: rest)).length % 2 =
                  (succeeded rest).length % 2 := Nat.add_mod_right (succeeded rest).length 2
              rw [length]
              refine ⟨fun parity => ⟨rfl, even parity⟩, fun parity => ?_⟩
              exact .cons (fun _ _ _ => rfl) (.cons (fun _ _ _ => rfl) (odd parity))
          | false =>
              -- The out-punch comes next, so no later call succeeded.
              have alone : succeeded rest = [] := by
                cases same : succeeded rest with
                | nil => rfl
                | cons third others =>
                    have member : (first, third) ∈ stays
                        (succeeded ((first, true) :: (second, false) :: rest) ++
                          failed ((first, true) :: (second, false) :: rest)) := by
                      change (first, third) ∈
                        stays (first :: (succeeded rest ++ second :: failed rest))
                      rw [same]
                      exact List.mem_cons_self
                    have inside : third ∈ rest.map Prod.fst :=
                      mem_split (List.mem_append_left _ (same ▸ List.mem_cons_self))
                    rcases List.mem_cons.mp (theirs _ member) with same | present
                    · obtain ⟨-, rfl⟩ := Prod.mk.inj same
                      exact absurd inside new_second
                    · exact absurd (List.mem_cons_of_mem _ (mem_of_stay present).1) new_first
              have none := failsOnwards_of_nil alone
              have length : (succeeded ((first, true) :: (second, false) :: rest)).length = 1 :=
                congrArg (fun punches => punches.length + 1) alone
              rw [length]
              refine ⟨nofun, fun _ => .cons (fun _ _ _ => rfl) (.cons ?_ ?_)⟩
              · intro ok member isOk
                rw [none ok member] at isOk
                cases isOk
              · refine List.pairwise_of_forall_mem_list fun _ _ ok member isOk => ?_
                rw [none ok member] at isOk
                cases isOk
      | false =>
          cases other with
          | true =>
              have isIn := head_isIn turns
              rw [goes] at isIn
              cases isIn
          | false =>
              obtain ⟨even, odd⟩ := alternating_append (succeeded rest) turns
              have parity : (succeeded rest).length % 2 = 0 := by
                rcases Nat.mod_two_eq_zero_or_one (succeeded rest).length with parity | parity
                · exact parity
                · have isOut := odd parity first _ rfl
                  rw [comes] at isOut
                  cases isOut
              obtain ⟨whole, left, split⟩ := even parity
              have alternates : Alternating (succeeded rest ++ failed rest) :=
                whole.alternating_append left.2.2
              have parts := (alternating_append _ alternates).1 parity
              obtain ⟨pairs, -⟩ := fails_of_stays later unique alternates fun stay member => by
                refine inner (theirs stay ?_) (mem_split (mem_of_stay member).1)
                rw [parts.2.2] at member
                change stay ∈ stays (succeeded rest ++ failed ((first, false) :: (second, false) ::
                  rest))
                rw [split]
                rcases List.mem_append.mp member with member | member
                · exact List.mem_append_left _ member
                · exact List.mem_append_right _ (List.mem_cons_of_mem _ member)
              refine ⟨fun _ => ⟨rfl, pairs parity⟩, fun odd_ => ?_⟩
              have length : (succeeded rest).length % 2 = 1 := odd_
              rw [parity] at length
              cases length

/-! ## The rows after the retries -/

theorem split_perm (punches : List (Punch × Bool)) :
    (succeeded punches ++ failed punches).Perm (punches.map Prod.fst) := by
  rw [succeeded, failed, ← List.map_append]
  exact (List.filter_append_perm Prod.snd punches).map _

/-- A row is open exactly if the ledger has a current shift. -/
theorem open_iff {odoo : Odoo} {ledger : Ledger} (reads : odoo.Reads ledger) :
    (∃ row ∈ odoo.rows, row.shift.checkOut = none) ↔ ledger.current.isSome := by
  obtain ⟨rows, current, holds, rfl⟩ := reads
  rw [holds.rows_eq]
  cases current with
  | none =>
      refine ⟨?_, nofun⟩
      rintro ⟨row, member, open_⟩
      exact absurd open_ (holds.closed row (by simpa using member))
  | some row =>
      exact ⟨fun _ => rfl, fun _ => ⟨row, by simp, holds.opened row rfl⟩⟩

section History

variable {odoo : Odoo} {done : List Shift} (start : odoo.Reads ⟨done, none⟩)

include start

/-- Syncing punches that take turns leaves their shifts, and the last in-punch open. -/
theorem alternating_rows (mapping : Mapping) {log : List Punch} (alternating : Alternating log) :
    (syncInOrder mapping log odoo).rows.map Attendance.shift = done ++ shiftsOf mapping log ∧
      ((∃ row ∈ (syncInOrder mapping log odoo).rows, row.shift.checkOut = none) ↔
        (lastOf mapping log).isSome) := by
  have reads := start.syncInOrder mapping log
  obtain ⟨shifts, current⟩ := foldl_alternating mapping alternating done
  exact ⟨reads.shifts.trans shifts, (open_iff reads).trans (by rw [current])⟩

/-- The intervals that syncing any sequence of punches leaves. -/
theorem sync_times (mapping : Mapping) (seq : List Punch) :
    ((syncInOrder mapping seq odoo).rows.map fun row => row.shift.interval) =
      done.map Shift.interval ++ times none seq := by
  have shifts := (start.syncInOrder mapping seq).shifts
  have intervals := foldl_times mapping seq ⟨done, none⟩ nofun
  rw [← shifts, List.map_map] at intervals
  exact intervals

/-- Syncing whole stays before others leaves the same rows. -/
theorem rows_of_pairsTogether (mapping : Mapping) {punches : List (Punch × Bool)}
    (alternating : Alternating (punches.map Prod.fst))
    (together : PairsTogether (punches.map Prod.snd)) :
    ((syncInOrder mapping (succeeded punches ++ failed punches) odoo).rows.map
        Attendance.shift).Perm
      ((syncInOrder mapping (punches.map Prod.fst) odoo).rows.map Attendance.shift) ∧
    ((∃ row ∈ (syncInOrder mapping (succeeded punches ++ failed punches) odoo).rows,
        row.shift.checkOut = none) ↔ (lastOf mapping (punches.map Prod.fst)).isSome) := by
  obtain ⟨whole, left, perm, last⟩ := pairsTogether_split mapping alternating together
  obtain ⟨shifts, ends⟩ := whole.append mapping (failed punches)
  obtain ⟨rows, open_⟩ := alternating_rows start mapping (whole.alternating_append left)
  rw [rows, (alternating_rows start mapping alternating).1, shifts]
  exact ⟨perm.append_left done, open_.trans (by rw [ends, last])⟩

/-- If the intervals are the same, the calls failed in order. -/
theorem failsInOrder_of_intervals (mapping : Mapping) {punches : List (Punch × Bool)}
    (alternating : Alternating (punches.map Prod.fst))
    (sorted : (punches.map Prod.fst).Pairwise fun first second =>
      first.occurredAt ≤ second.occurredAt ∧ first.id < second.id)
    (takes : StaysTakeTime (punches.map Prod.fst))
    (same : ((syncInOrder mapping (succeeded punches ++ failed punches) odoo).rows.map
        fun row => row.shift.interval).Perm
      ((syncInOrder mapping (punches.map Prod.fst) odoo).rows.map fun row => row.shift.interval)) :
    FailsInOrder (punches.map Prod.snd) := by
  rw [sync_times start, sync_times start, List.perm_append_left_iff] at same
  obtain ⟨length, closes, -, known⟩ := times_of_alternating alternating
  have perm := split_perm punches
  have turns : Alternating (succeeded punches ++ failed punches) := by
    refine (alternating_of_times _).1 ?_ ?_
    · rw [same.length_eq, length, perm.countP_eq]
    · rw [closed, same.countP_eq, ← closed, closes, perm.countP_eq]
  have nodup : (punches.map Prod.fst).Nodup := by
    refine sorted.imp fun before equal => ?_
    exact absurd (congrArg Punch.id equal) (Nat.ne_of_lt before.2)
  have times_ : (punches.map Prod.fst).Pairwise fun first second =>
      first.occurredAt ≤ second.occurredAt := sorted.imp And.left
  have theirs : ∀ stay ∈ stays (succeeded punches ++ failed punches),
      stay ∈ stays (punches.map Prod.fst) := by
    intro stay member
    obtain ⟨comes, goes⟩ := isIn_of_stay turns member
    obtain ⟨left, right⟩ := mem_of_stay member
    have interval := (times_of_alternating turns).2.2.1 stay member
    obtain ⟨other, present, begins, ends⟩ := known _ _ (same.subset interval)
    obtain ⟨comes_, goes_⟩ := isIn_of_stay alternating present
    obtain ⟨left_, right_⟩ := mem_of_stay present
    have first := punch_of_time alternating times_ takes left_ (mem_split left)
      (comes_.trans comes.symm) begins
    have second := punch_of_time alternating times_ takes right_ (mem_split right)
      (goes_.trans goes.symm) ends
    rwa [← Prod.ext first second]
  obtain ⟨even, odd⟩ := fails_of_stays alternating nodup turns theirs
  rcases Nat.mod_two_eq_zero_or_one (succeeded punches).length with parity | parity
  · exact .inr (even parity)
  · exact .inl (odd parity)

end History

/-- After immediate calls that may fail and retries that drain the queue, the rows are those of
syncing in the order of the log if the calls failed in order; and where every stay takes time,
only then. -/
theorem punchSync_history (mapping : Mapping) {punches : List (Punch × Bool)} {odoo : Odoo}
    (start : odoo.Holds odoo.rows none) (alternating : Alternating (punches.map Prod.fst))
    (sorted : (punches.map Prod.fst).Pairwise fun first second =>
      first.occurredAt ≤ second.occurredAt ∧ first.id < second.id) {retries : ℕ}
    (drained : unsynced (drain mapping retries (punchAll mapping punches ⟨[], odoo⟩)).log = []) :
    let log := punches.map Prod.fst
    let inOrder := syncInOrder mapping log odoo
    let final := (drain mapping retries (punchAll mapping punches ⟨[], odoo⟩)).odoo
    (FailsInOrder (punches.map Prod.snd) → SameHistory log inOrder final ∧
      (final.rows.map Attendance.shift).Perm (inOrder.rows.map Attendance.shift)) ∧
    (StaysTakeTime log → SameHistory log inOrder final →
      FailsInOrder (punches.map Prod.snd)) := by
  intro log inOrder final
  have reads : odoo.Reads ⟨odoo.rows.map Attendance.shift, none⟩ := ⟨odoo.rows, none, start, rfl⟩
  have synced : final = syncInOrder mapping (succeeded punches ++ failed punches) odoo :=
    drained_odoo mapping sorted drained
  have last := lastOf_isSome mapping alternating
  constructor
  · intro fails
    have rows : (final.rows.map Attendance.shift).Perm (inOrder.rows.map Attendance.shift) ∧
        ((∃ row ∈ final.rows, row.shift.checkOut = none) ↔ (lastOf mapping log).isSome) := by
      rw [synced]
      rcases fails with onwards | together
      · rw [failsOnwards_split onwards]
        exact ⟨.refl _, (alternating_rows reads mapping alternating).2⟩
      · exact rows_of_pairsTogether reads mapping alternating together
    refine ⟨⟨?_, rows.2.trans last⟩, rows.1⟩
    have intervals := rows.1.map Shift.interval
    rwa [List.map_map, List.map_map] at intervals
  · intro takes same
    have intervals := same.intervals
    rw [synced] at intervals
    exact failsInOrder_of_intervals reads mapping alternating sorted takes intervals

theorem Odoo.holds_empty (nextId : ℕ) : Odoo.Holds ⟨[], nextId⟩ [] none :=
  ⟨rfl, by simp, by simp, by simp, .nil⟩

def noMapping : Mapping := ⟨fun _ => none, fun _ => none⟩

/-- An in-punch and the out-punch after it, with what their immediate calls do. -/
def inAndOut (first second : Bool) : List (Punch × Bool) :=
  [(⟨1, .clockIn, some "Saw", none, false, 8⟩, first),
    (⟨2, .clockOut, none, none, false, 9⟩, second)]

theorem punchSync_history_inAndOut :
    SameHistory ((inAndOut false false).map Prod.fst)
      (syncInOrder noMapping ((inAndOut false false).map Prod.fst) ⟨[], 0⟩)
      (drain noMapping 1 (punchAll noMapping (inAndOut false false) ⟨[], ⟨[], 0⟩⟩)).odoo :=
  ((punchSync_history noMapping (Odoo.holds_empty 0) (by decide) (by decide) (by decide)).1 (.inr (by decide))).1

/-- Only the in-punch waits for the retry, which then opens a row that nobody closes. -/
theorem punchSync_leaves_open :
    Alternating ((inAndOut false true).map Prod.fst) ∧
      unsynced (drain noMapping 1 (punchAll noMapping (inAndOut false true) ⟨[], ⟨[], 0⟩⟩)).log =
        [] ∧
      ¬SameHistory ((inAndOut false true).map Prod.fst)
        (syncInOrder noMapping ((inAndOut false true).map Prod.fst) ⟨[], 0⟩)
        (drain noMapping 1 (punchAll noMapping (inAndOut false true) ⟨[], ⟨[], 0⟩⟩)).odoo := by
  refine ⟨by decide, by decide, fun same => ?_⟩
  have opened : ∃ row ∈ (drain noMapping 1
      (punchAll noMapping (inAndOut false true) ⟨[], ⟨[], 0⟩⟩)).odoo.rows,
        row.shift.checkOut = none := by decide
  obtain ⟨last, member, comes⟩ := same.current.mp opened
  cases member
  cases comes

end PlantManager.Timeclock.PunchSync
