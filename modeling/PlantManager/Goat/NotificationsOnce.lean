import PlantManager.Goat.Notifications

/-! # Alerts are fresh and delivered once

Every history is lawful (`Goat.Follows`), and a delivery only moves on
(`Goat.Delivery.Advances`). A pass that skips a day, because its cutover is pending,
still finalizes it (`Goat.skipped_day_finalized`); if none does, days are finalized and
alerts inserted from rows that were stored before, and each alert is delivered once
(`Goat.notifications_once`).
-/

namespace PlantManager.Goat

open Transition

/-- The delivery of the claim was claimed again since. -/
def TakenOver (history : List Event) (claim : Claim) : Prop :=
  ∃ later earlier pass, history =
      later ++ .claimed pass claim.deliveryId claim.claimToken :: earlier ∧
    ∃ other token, .claimed other claim.deliveryId token ∈ later

/-- The claim that a pass holds. -/
def Phase.claim : Phase → Option Claim
  | .judging claim | .suppressing claim _ | .posting claim | .marking claim _
  | .returning claim _ => some claim
  | _ => none

/-- The pass that takes a step. -/
def Action.pass : Action → Option ℕ
  | .list pass | .check pass | .prepare pass _ | .store pass | .read pass | .alert pass
  | .record pass | .drain pass | .claim pass _ | .judge pass _ | .suppress pass | .post pass _
  | .mark pass | .giveBack pass | .crash pass => some pass
  | .begin _ _ | .elapse _ | .configure _ _ _ _ | .outside _ _ _ => none

/-- Days are finalized after their rows were stored, and alerts are records of rows that were read
after that. Each alert has at most one delivery, a delivery that is done stays as it is, a claim
that was taken over changes nothing, and all posts of a delivery have one message id. -/
structure ExactlyOnce (world : World) : Prop where
  finalized : ∀ later past pass day, world.history = later ++ .finalized pass day :: past →
    .stored pass day ∈ past
  inserted : ∀ later past pass alert wcNames,
    world.history = later ++ .inserted pass alert wcNames :: past →
      ∃ records, .read pass alert.achievedDay records ∈ past ∧ alert.Beats wcNames records
  read : ∀ later past pass day records, world.history = later ++ .read pass day records :: past →
    .stored pass day ∈ past
  single : (world.deliveries.map Delivery.goatAlertId).Nodup
  settled : ∀ action next delivery, step world action = some next → delivery ∈ world.deliveries →
    delivery.status.settled →
      delivery ∈ next.deliveries ∧ ∀ other ∈ next.deliveries, other.id = delivery.id → other = delivery
  takenOver : ∀ action next pass state claim, step world action = some next →
    action.pass = some pass → world.passes pass = some state → state.phase.claim = some claim →
      TakenOver world.history claim → next.deliveries = world.deliveries
  posts : ∀ pass other deliveryId messageId messageId',
    .posted pass deliveryId messageId ∈ world.history →
      .posted other deliveryId messageId' ∈ world.history → messageId = messageId'

/-- The cutover lets a pass compute its day. -/
def RefreshReady (world : World) : Action → Prop
  | .check pass => ∀ today day rest, world.passes pass = some ⟨today, .days (day :: rest)⟩ →
      world.refreshReady day = true
  | .store pass => ∀ today day rest rows,
      world.passes pass = some ⟨today, .storing day rest rows⟩ → world.refreshReady day = true
  | _ => True

/-! ## Deliveries move on -/

/-- A delivery that is done stays as it is, and the others keep whose they are. -/
def Delivery.Advances (delivery next : Delivery) : Prop :=
  next = delivery ∨ delivery.status.settled = false ∧ next.id = delivery.id ∧
    next.goatAlertId = delivery.goatAlertId ∧
    ∀ messageId ∈ delivery.clientMsgId, next.clientMsgId = some messageId

namespace Delivery.Advances

variable {delivery next : Delivery}

section

variable (advances : delivery.Advances next)
include advances

theorem id_eq : next.id = delivery.id :=
  advances.elim (fun same => congrArg _ same) fun later => later.2.1

theorem goatAlertId_eq : next.goatAlertId = delivery.goatAlertId :=
  advances.elim (fun same => congrArg _ same) fun later => later.2.2.1

theorem clientMsgId_eq {messageId : ℕ} (held : delivery.clientMsgId = some messageId) :
    next.clientMsgId = some messageId :=
  advances.elim (fun same => same ▸ held) fun later => later.2.2.2 messageId held

theorem eq_of_settled (settled : delivery.status.settled) : next = delivery :=
  advances.resolve_right fun later => by simp [later.1] at settled

end

end Delivery.Advances

/-- What a step makes of the deliveries. -/
def Moves (world next : World) : Prop :=
  ∃ change added, (∀ delivery ∈ world.deliveries, delivery.Advances (change delivery)) ∧
    (∀ delivery ∈ added, delivery.id = world.nextDeliveryId) ∧
      next.deliveries = world.deliveries.map change ++ added

theorem Moves.of_eq {world next : World} (same : next.deliveries = world.deliveries) :
    Moves world next :=
  ⟨id, [], fun _ _ => .inl rfl, List.forall_mem_nil _, by rw [same, List.map_id, List.append_nil]⟩

/-- A change that keeps whose a delivery is and its message id. -/
structure KeepsOwner (change : Delivery → Delivery) : Prop where
  id_eq : ∀ delivery, (change delivery).id = delivery.id
  goatAlertId_eq : ∀ delivery, (change delivery).goatAlertId = delivery.goatAlertId
  clientMsgId_eq : ∀ delivery, (change delivery).clientMsgId = delivery.clientMsgId

variable {change : Delivery → Delivery}

theorem Claim.advances (claim : Claim) (keeps : KeepsOwner change) (delivery : Delivery) :
    delivery.Advances (claim.change change delivery) := by
  unfold Claim.change
  split
  · obtain ⟨-, sending, -⟩ := ‹_ ∧ _›
    exact .inr ⟨by rw [sending, Status.settled], keeps.id_eq _, keeps.goatAlertId_eq _,
      fun messageId held => (keeps.clientMsgId_eq _).trans held⟩
  · exact .inl rfl

theorem moves_update (claim : Claim) (world : World) (keeps : KeepsOwner change) :
    Moves world (claim.update change world) :=
  ⟨claim.change change, [], fun delivery _ => claim.advances keeps delivery, List.forall_mem_nil _,
    (List.append_nil _).symm⟩

theorem Delivery.Claimable.unsettled {world : World} {delivery : Delivery} {row : AlertRow}
    (claimable : delivery.Claimable world row) : delivery.status.settled = false := by
  obtain ⟨-, pending | ⟨sending, -⟩, -⟩ := claimable
  · rw [pending, Status.settled]
  · rw [sending, Status.settled]

theorem Delivery.Claimable.advances {world : World} {delivery : Delivery} {row : AlertRow}
    (claimable : delivery.Claimable world row) (messageId token : ℕ) (other : Delivery) :
    other.Advances (claimOne delivery world.now messageId token other) := by
  unfold claimOne
  split
  · subst_vars
    exact .inr ⟨claimable.unsettled, rfl, rfl, fun held same => by
      rw [Delivery.claim, same, Option.getD_some]⟩
  · exact .inl rfl

theorem step_moves {world next : World} {action : Action} (taken : step world action = some next) :
    Moves world next := by
  cases action with
  | alert pass =>
      simp only [step] at taken
      split at taken
      swap
      · cases taken
      split at taken
      · exact .of_eq (Option.some.inj taken ▸ rfl)
      split at taken
      · refine ⟨id, _, fun _ _ => .inl rfl, ?_, by
          rw [List.map_id, ← Option.some.inj taken]
          rfl⟩
        exact fun delivery member => List.mem_singleton.mp member ▸ rfl
      · exact .of_eq (Option.some.inj taken ▸ rfl)
  | claim pass found =>
      simp only [step] at taken
      split at taken
      · exact .of_eq (Option.some.inj taken ▸ rfl)
      · split at taken
        · obtain ⟨-, -, claimable⟩ := ‹_ ∧ _›
          exact ⟨_, [], fun other _ => claimable.advances _ _ other, List.forall_mem_nil _, by
            rw [List.append_nil, ← Option.some.inj taken]
            rfl⟩
        · cases taken
      · cases taken
  | suppress pass | mark pass | giveBack pass =>
      simp only [step] at taken
      split at taken
      · exact Option.some.inj taken ▸ moves_update _ world ⟨fun _ => rfl, fun _ => rfl, fun _ => rfl⟩
      · cases taken
  | store pass =>
      simp only [step] at taken
      split at taken
      · split at taken <;> exact .of_eq (Option.some.inj taken ▸ rfl)
      · cases taken
  | record pass =>
      simp only [step] at taken
      split at taken
      · refine .of_eq (Option.some.inj taken ▸ ?_)
        unfold recordFinalizedDay
        split <;> rfl
      · cases taken
  | crash pass =>
      obtain ⟨_, -, rfl⟩ := Option.map_eq_some_iff.mp taken
      exact .of_eq rfl
  | begin _ _ | elapse _ | configure _ _ _ _ | outside _ _ _ =>
      exact .of_eq (Option.some.inj taken ▸ rfl)
  | list _ | check _ | prepare _ _ | read _ | drain _ | judge _ _ | post _ _ =>
      simp only [step] at taken
      split at taken
      · exact .of_eq (Option.some.inj taken ▸ rfl)
      · cases taken

/-! ## Every step -/

/-- What the past of an event must be. -/
def Follows (past : List Event) : Event → Prop
  | .stored _ _ => True
  | .finalized pass day | .read pass day _ => .stored pass day ∈ past
  | .inserted pass alert wcNames =>
      ∃ records, .read pass alert.achievedDay records ∈ past ∧ alert.Beats wcNames records
  | .claimed _ _ token => ∀ pass deliveryId earlier, .claimed pass deliveryId earlier ∈ past →
      earlier < token
  | .posted _ deliveryId messageId => ∀ pass messageId',
      .posted pass deliveryId messageId' ∈ past → messageId' = messageId

/-- What the identifiers of the deliveries are. -/
structure Stored (world : World) : Prop where
  ids : (world.deliveries.map Delivery.id).Nodup
  single : (world.deliveries.map Delivery.goatAlertId).Nodup
  idBound : ∀ delivery ∈ world.deliveries, delivery.id < world.nextDeliveryId
  alertBound : ∀ delivery ∈ world.deliveries, delivery.goatAlertId < world.nextAlertId
  tokenBound : ∀ delivery ∈ world.deliveries, ∀ token ∈ delivery.claimToken,
    token < world.nextUuid

/-- A pass that is past storing a day stored it, the records that it reads are of that day, and the
delivery that it claimed has the message id of the claim. -/
def PhaseSound (history : List Event) (deliveries : List Delivery) (pass : ℕ) : Phase → Prop
  | .reading day _ => .stored pass day ∈ history
  | .inserting day _ records _ => .stored pass day ∈ history ∧ .read pass day records ∈ history ∧
      ∀ record ∈ records, awardsDataFloor ≤ record.day
  | .judging claim | .suppressing claim _ | .posting claim | .marking claim _
  | .returning claim _ => ∃ delivery ∈ deliveries, delivery.id = claim.deliveryId ∧
      delivery.clientMsgId = some claim.clientMsgId
  | .listing _ | .days _ | .preparing _ _ | .storing _ _ _ | .draining => True

structure Sound (world : World) : Prop where
  lawful : Lawful Follows world.history
  stored : Stored world
  phases : ∀ pass state, world.passes pass = some state →
    PhaseSound world.history world.deliveries pass state.phase
  /-- A delivery that is claimed has the newest token. -/
  claims : ∀ pass deliveryId token, .claimed pass deliveryId token ∈ world.history →
    token < world.nextUuid ∧ ∀ delivery ∈ world.deliveries, delivery.id = deliveryId →
      ∀ held ∈ delivery.claimToken, token ≤ held
  posts : ∀ pass deliveryId messageId, .posted pass deliveryId messageId ∈ world.history →
    ∃ delivery ∈ world.deliveries, delivery.id = deliveryId ∧ delivery.clientMsgId = some messageId

/-- What holds before the first pass: the tables meet their constraints. -/
structure World.Starts (world : World) : Prop where
  stored : Stored world
  passes : ∀ pass, world.passes pass = none
  history : world.history = []

theorem World.Starts.sound {world : World} (starts : world.Starts) : Sound world where
  lawful := starts.history ▸ trivial
  stored := starts.stored
  phases := by
    intro pass state held
    cases (starts.passes pass).symm.trans held
  claims := by
    rw [starts.history]
    nofun
  posts := by
    rw [starts.history]
    nofun

section

variable {world : World} {pass : ℕ} {changed : Option Pass}

theorem PhaseSound.mono {history later : List Event} {deliveries next : List Delivery}
    {phase : Phase} (sound : PhaseSound history deliveries pass phase)
    (past : ∀ event ∈ history, event ∈ later)
    (owners : ∀ delivery ∈ deliveries, ∀ messageId, delivery.clientMsgId = some messageId →
      ∃ moved ∈ next, moved.id = delivery.id ∧ moved.clientMsgId = some messageId) :
    PhaseSound later next pass phase := by
  cases phase with
  | reading day rest => exact past _ sound
  | inserting day rest records categories =>
      exact ⟨past _ sound.1, past _ sound.2.1, sound.2.2⟩
  | judging claim | suppressing claim _ | posting claim | marking claim _ | returning claim _ =>
      obtain ⟨delivery, member, id_eq, held⟩ := sound
      obtain ⟨moved, present, same, still⟩ := owners delivery member _ held
      exact ⟨moved, present, same.trans id_eq, still⟩
  | listing _ | days _ | preparing _ _ | storing _ _ _ | draining => trivial

theorem Sound.setPass (sound : Sound world) (known : ∀ state ∈ changed,
    PhaseSound world.history world.deliveries pass state.phase) :
    Sound (world.setPass pass changed) where
  lawful := sound.lawful
  stored := ⟨sound.stored.ids, sound.stored.single, sound.stored.idBound, sound.stored.alertBound,
    sound.stored.tokenBound⟩
  phases := by
    intro other state held
    change Function.update world.passes pass changed other = some state at held
    rw [Function.update_apply] at held
    split at held
    · exact ‹other = pass› ▸ known state held
    · exact sound.phases other state held
  claims := sound.claims
  posts := sound.posts

theorem Sound.endPass (sound : Sound world) (pass : ℕ) : Sound (world.setPass pass none) :=
  sound.setPass fun _ held => nomatch held

/-- An event that is neither a claim nor a post. -/
def Event.silent : Event → Bool
  | .claimed _ _ _ | .posted _ _ _ => false
  | _ => true

theorem Sound.note (sound : Sound world) (event : Event) (follows : Follows world.history event)
    (claims : ∀ pass deliveryId token, event = .claimed pass deliveryId token →
      token < world.nextUuid ∧ ∀ delivery ∈ world.deliveries, delivery.id = deliveryId →
        ∀ held ∈ delivery.claimToken, token ≤ held)
    (posts : ∀ pass deliveryId messageId, event = .posted pass deliveryId messageId →
      ∃ delivery ∈ world.deliveries, delivery.id = deliveryId ∧
        delivery.clientMsgId = some messageId) : Sound (world.note event) where
  lawful := ⟨follows, sound.lawful⟩
  stored := ⟨sound.stored.ids, sound.stored.single, sound.stored.idBound, sound.stored.alertBound,
    sound.stored.tokenBound⟩
  phases := fun other state held => (sound.phases other state held).mono
    (fun _ => List.mem_cons_of_mem _) fun delivery member _ held => ⟨delivery, member, rfl, held⟩
  claims := by
    intro other deliveryId token member
    rcases List.mem_cons.mp member with same | earlier
    · exact claims other deliveryId token same.symm
    · exact sound.claims other deliveryId token earlier
  posts := by
    intro other deliveryId messageId member
    rcases List.mem_cons.mp member with same | earlier
    · exact posts other deliveryId messageId same.symm
    · exact sound.posts other deliveryId messageId earlier

theorem Sound.note_silent (sound : Sound world) (event : Event) (silent : event.silent)
    (follows : Follows world.history event) : Sound (world.note event) :=
  sound.note event follows (by rintro _ _ _ rfl; cases silent) (by rintro _ _ _ rfl; cases silent)

variable {change : Delivery → Delivery}

/-- Deliveries move on, and a token that is new to one is new to all. -/
theorem Sound.map (sound : Sound world) {nextUuid : ℕ}
    (advances : ∀ delivery ∈ world.deliveries, delivery.Advances (change delivery))
    (later : world.nextUuid ≤ nextUuid)
    (tokens : ∀ delivery ∈ world.deliveries, ∀ token ∈ (change delivery).claimToken,
      token ∈ delivery.claimToken ∨ world.nextUuid ≤ token ∧ token < nextUuid) :
    Sound { world with deliveries := world.deliveries.map change, nextUuid } where
  lawful := sound.lawful
  stored := by
    have ids : (world.deliveries.map change).map Delivery.id = world.deliveries.map Delivery.id := by
      rw [List.map_map]
      exact List.map_congr_left fun delivery member => (advances delivery member).id_eq
    have alerts : (world.deliveries.map change).map Delivery.goatAlertId =
        world.deliveries.map Delivery.goatAlertId := by
      rw [List.map_map]
      exact List.map_congr_left fun delivery member => (advances delivery member).goatAlertId_eq
    refine ⟨ids ▸ sound.stored.ids, alerts ▸ sound.stored.single, ?_, ?_, ?_⟩
    · rintro _ member
      obtain ⟨delivery, present, rfl⟩ := List.mem_map.mp member
      rw [(advances delivery present).id_eq]
      exact sound.stored.idBound delivery present
    · rintro _ member
      obtain ⟨delivery, present, rfl⟩ := List.mem_map.mp member
      rw [(advances delivery present).goatAlertId_eq]
      exact sound.stored.alertBound delivery present
    · rintro _ member token held
      obtain ⟨delivery, present, rfl⟩ := List.mem_map.mp member
      rcases tokens delivery present token held with held | ⟨-, bound⟩
      · exact (sound.stored.tokenBound delivery present token held).trans_le later
      · exact bound
  phases := fun other state held => (sound.phases other state held).mono (fun _ => id)
    fun delivery member messageId held => ⟨change delivery, List.mem_map_of_mem member,
      (advances delivery member).id_eq, (advances delivery member).clientMsgId_eq held⟩
  claims := by
    intro other deliveryId token member
    obtain ⟨bound, newest⟩ := sound.claims other deliveryId token member
    refine ⟨bound.trans_le later, ?_⟩
    rintro _ moved id_eq held_token held
    obtain ⟨delivery, present, rfl⟩ := List.mem_map.mp moved
    rcases tokens delivery present held_token held with held | ⟨fresh, -⟩
    · exact newest delivery present ((advances delivery present).id_eq.symm.trans id_eq) _ held
    · exact bound.le.trans fresh
  posts := by
    intro other deliveryId messageId member
    obtain ⟨delivery, present, id_eq, held⟩ := sound.posts other deliveryId messageId member
    exact ⟨change delivery, List.mem_map_of_mem present, (advances delivery present).id_eq.trans id_eq,
      (advances delivery present).clientMsgId_eq held⟩

theorem Sound.update (sound : Sound world) (claim : Claim) (keeps : KeepsOwner change)
    (tokens : ∀ delivery, ∀ token ∈ (change delivery).claimToken, token ∈ delivery.claimToken) :
    Sound (claim.update change world) := by
  refine sound.map (fun delivery _ => claim.advances keeps delivery) le_rfl ?_
  intro delivery member token held
  refine .inl ?_
  unfold Claim.change at held
  split at held
  · exact tokens delivery token held
  · exact held

theorem Sound.insertAlertAndDelivery (sound : Sound world) (alert : Alert) :
    Sound (Goat.insertAlertAndDelivery world alert) where
  lawful := sound.lawful
  stored := by
    have fresh {field : Delivery → ℕ} {next : ℕ} (nodup : (world.deliveries.map field).Nodup)
        (bound : ∀ delivery ∈ world.deliveries, field delivery < next) (added : Delivery)
        (same : field added = next) : ((world.deliveries ++ [added]).map field).Nodup := by
      rw [List.map_append, List.nodup_append]
      refine ⟨nodup, List.nodup_singleton _, ?_⟩
      rintro _ member _ last rfl
      obtain ⟨delivery, present, same'⟩ := List.mem_map.mp member
      exact absurd (bound delivery present) (by simp_all)
    refine ⟨fresh sound.stored.ids sound.stored.idBound _ rfl,
      fresh sound.stored.single sound.stored.alertBound _ rfl, ?_, ?_, ?_⟩
    · intro delivery member
      rcases List.mem_append.mp member with member | member
      · exact Nat.lt_succ_of_lt (sound.stored.idBound delivery member)
      · exact List.mem_singleton.mp member ▸ Nat.lt_succ_self _
    · intro delivery member
      rcases List.mem_append.mp member with member | member
      · exact Nat.lt_succ_of_lt (sound.stored.alertBound delivery member)
      · exact List.mem_singleton.mp member ▸ Nat.lt_succ_self _
    · intro delivery member token held
      rcases List.mem_append.mp member with member | member
      · exact Nat.lt_succ_of_lt (sound.stored.tokenBound delivery member token held)
      · rw [List.mem_singleton.mp member] at held
        cases held
  phases := fun other state held => (sound.phases other state held).mono (fun _ => id)
    fun delivery member _ held => ⟨delivery, List.mem_append_left _ member, rfl, held⟩
  claims := by
    intro other deliveryId token member
    obtain ⟨bound, newest⟩ := sound.claims other deliveryId token member
    refine ⟨Nat.lt_succ_of_lt bound, fun delivery member id_eq held_token held => ?_⟩
    rcases List.mem_append.mp member with member | member
    · exact newest delivery member id_eq held_token held
    · rw [List.mem_singleton.mp member] at held
      cases held
  posts := by
    intro other deliveryId messageId member
    obtain ⟨delivery, present, same⟩ := sound.posts other deliveryId messageId member
    exact ⟨delivery, List.mem_append_left _ present, same⟩

theorem Sound.suppressDelivery (sound : Sound world) (claim : Claim) (reason : String) :
    Sound (Goat.suppressDelivery claim reason world) :=
  sound.update claim ⟨fun _ => rfl, fun _ => rfl, fun _ => rfl⟩ fun _ _ held => held

theorem Sound.markDeliverySent (sound : Sound world) (claim : Claim) (messageTs : String) :
    Sound (Goat.markDeliverySent claim messageTs world) :=
  sound.update claim ⟨fun _ => rfl, fun _ => rfl, fun _ => rfl⟩ fun _ _ held => held

theorem Sound.returnDeliveryToPending (sound : Sound world) (claim : Claim) (error : String) :
    Sound (Goat.returnDeliveryToPending claim error world) :=
  sound.update claim ⟨fun _ => rfl, fun _ => rfl, fun _ => rfl⟩ fun _ _ held => nomatch held

/-- A step that changes neither the history nor a delivery. -/
theorem Sound.frame {next : World} (sound : Sound world) (history : next.history = world.history)
    (passes : next.passes = world.passes) (deliveries : next.deliveries = world.deliveries)
    (alertIds : next.nextAlertId = world.nextAlertId)
    (deliveryIds : next.nextDeliveryId = world.nextDeliveryId)
    (uuids : next.nextUuid = world.nextUuid) : Sound next := by
  obtain ⟨lawful, ⟨ids, single, idBound, alertBound, tokenBound⟩, phases, claims, posts⟩ := sound
  rw [← history] at lawful phases claims posts
  rw [← deliveries] at ids single idBound alertBound tokenBound phases claims posts
  rw [← passes] at phases
  rw [← alertIds] at alertBound
  rw [← deliveryIds] at idBound
  rw [← uuids] at tokenBound claims
  exact ⟨lawful, ⟨ids, single, idBound, alertBound, tokenBound⟩, phases, claims, posts⟩

theorem recordFinalizedDay_frame (sound : Sound world) (day : ℤ) :
    Sound (recordFinalizedDay world day) := by
  unfold recordFinalizedDay
  split
  · exact sound
  · exact sound.frame rfl rfl rfl rfl rfl rfl

theorem recordFinalizedDay_history (world : World) (day : ℤ) :
    (recordFinalizedDay world day).history = world.history := by
  unfold recordFinalizedDay
  split <;> rfl

theorem floor_le_dailyRecords {last : ℤ} {record : Record}
    (member : record ∈ dailyRecords world awardsDataFloor last) : awardsDataFloor ≤ record.day := by
  have kept := (List.mem_filter.mp member).2
  exact (of_decide_eq_true kept).1.1

/-- A pass claims a delivery. -/
theorem Sound.claim (sound : Sound world) {delivery : Delivery} {row : AlertRow} {today : ℤ}
    (present : delivery ∈ world.deliveries) (claimable : delivery.Claimable world row) :
    Sound (({ world with
      nextUuid := world.nextUuid + 2
      deliveries := world.deliveries.map
        (claimOne delivery world.now world.nextUuid (world.nextUuid + 1)) }.note
          (.claimed pass delivery.id (world.nextUuid + 1))).setPass pass (some ⟨today, .judging
            ⟨delivery.id, delivery.clientMsgId.getD world.nextUuid, world.nextUuid + 1,
              row.toAlert⟩⟩)) := by
  have moved : Sound { world with
      nextUuid := world.nextUuid + 2
      deliveries := world.deliveries.map
        (claimOne delivery world.now world.nextUuid (world.nextUuid + 1)) } := by
    refine sound.map (fun other _ => claimable.advances _ _ other) (Nat.le_add_right _ _) ?_
    intro other member token held
    unfold claimOne at held
    split at held
    · obtain rfl : world.nextUuid + 1 = token := Option.some.inj held
      exact .inr ⟨Nat.le_add_right _ _, Nat.lt_succ_self _⟩
    · exact .inl held
  have token_of {other : Delivery} (member : other ∈ world.deliveries.map
      (claimOne delivery world.now world.nextUuid (world.nextUuid + 1)))
      (id_eq : other.id = delivery.id) : other = delivery.claim world.now world.nextUuid
        (world.nextUuid + 1) := by
    obtain ⟨before, earlier, rfl⟩ := List.mem_map.mp member
    have same : before = delivery := List.inj_on_of_nodup_map sound.stored.ids earlier present
      ((claimable.advances _ _ before).id_eq.symm.trans id_eq)
    rw [claimOne, if_pos same, same]
  have noted := moved.note (.claimed pass delivery.id (world.nextUuid + 1)) ?_ ?_ nofun
  · refine noted.setPass ?_
    rintro _ ⟨⟩
    exact ⟨_, List.mem_map_of_mem present, (claimable.advances _ _ delivery).id_eq, by
      rw [claimOne, if_pos rfl, Delivery.claim]⟩
  · intro other deliveryId earlier member
    exact (sound.claims other deliveryId earlier member).1.trans (Nat.lt_succ_self _)
  · rintro _ _ _ ⟨⟩
    refine ⟨Nat.lt_succ_self _, fun other member id_eq held_token held => ?_⟩
    rw [token_of member id_eq] at held
    exact (Option.some.inj held).le

theorem Sound.step_alert {next : World} (sound : Sound world)
    (taken : Goat.step world (.alert pass) = some next) : Sound next := by
  simp only [Goat.step] at taken
  split at taken
  swap
  · cases taken
  rename_i today day rest records category categories held
  have known := sound.phases pass _ held
  split at taken
  · obtain rfl := Option.some.inj taken
    refine sound.setPass ?_
    rintro _ ⟨⟩
    exact known
  rename_i alert found
  split at taken
  · obtain ⟨achieved, -, beats⟩ := alertFor_beats found known.2.2
    have inserted := sound.insertAlertAndDelivery alert
    have noted := inserted.note_silent
      (.inserted pass alert (workCenterNames world.sites category)) rfl
      ⟨records, achieved ▸ known.2.1, beats⟩
    obtain rfl := Option.some.inj taken
    refine noted.setPass ?_
    rintro _ ⟨⟩
    exact ⟨List.mem_cons_of_mem _ known.1, List.mem_cons_of_mem _ known.2.1, known.2.2⟩
  · obtain rfl := Option.some.inj taken
    refine sound.setPass ?_
    rintro _ ⟨⟩
    exact known

theorem Sound.step_post {next : World} {answer : Except String String} (sound : Sound world)
    (taken : Goat.step world (.post pass answer) = some next) : Sound next := by
  simp only [Goat.step] at taken
  split at taken
  · rename_i today claim held
    have known := sound.phases pass _ held
    obtain ⟨delivery, present, id_eq, messageId⟩ := known
    have noted := sound.note (.posted pass claim.deliveryId claim.clientMsgId) ?_ nofun ?_
    · obtain rfl := Option.some.inj taken
      refine noted.setPass ?_
      rintro _ ⟨⟩
      cases answer <;> exact ⟨delivery, present, id_eq, messageId⟩
    · intro other messageId' member
      obtain ⟨posted, among, same, held'⟩ := sound.posts other _ messageId' member
      obtain rfl : posted = delivery :=
        List.inj_on_of_nodup_map sound.stored.ids among present (same.trans id_eq.symm)
      exact Option.some.inj (held'.symm.trans messageId)
    · rintro _ _ _ ⟨⟩
      exact ⟨delivery, present, id_eq, messageId⟩
  · cases taken

theorem Sound.step {action : Action} {next : World} (sound : Sound world)
    (ready : RefreshReady world action) (taken : Goat.step world action = some next) :
    Sound next := by
  cases action with
  | begin today latest =>
      obtain rfl := Option.some.inj taken
      have changed : Sound { world with
          enabledOn := some (world.enabledOn.getD today), nextPass := world.nextPass + 1 } :=
        sound.frame rfl rfl rfl rfl rfl rfl
      refine changed.setPass ?_
      rintro _ ⟨⟩
      trivial
  | list pass =>
      simp only [Goat.step] at taken
      split at taken
      · obtain rfl := Option.some.inj taken
        refine sound.setPass ?_
        rintro _ ⟨⟩
        trivial
      · cases taken
  | check pass =>
      simp only [Goat.step] at taken
      split at taken
      · rename_i today day rest held
        rw [if_pos (ready today day rest held)] at taken
        obtain rfl := Option.some.inj taken
        refine sound.setPass ?_
        rintro _ ⟨⟩
        trivial
      · cases taken
  | prepare pass rows =>
      simp only [Goat.step] at taken
      split at taken
      · obtain rfl := Option.some.inj taken
        refine sound.setPass ?_
        intro state held
        obtain ⟨rows, -, rfl⟩ := Option.map_eq_some_iff.mp held
        trivial
      · cases taken
  | store pass =>
      simp only [Goat.step] at taken
      split at taken
      · rename_i today day rest rows held
        rw [if_pos (ready today day rest rows held)] at taken
        have stored : Sound (storePreparedDay world day rows) := sound.frame rfl rfl rfl rfl rfl rfl
        obtain rfl := Option.some.inj taken
        refine (stored.note_silent (.stored pass day) rfl trivial).setPass ?_
        rintro _ ⟨⟩
        exact List.mem_cons_self
      · cases taken
  | read pass =>
      simp only [Goat.step] at taken
      split at taken
      · rename_i today day rest held
        have known : .stored pass day ∈ world.history := sound.phases pass _ held
        obtain rfl := Option.some.inj taken
        refine (sound.note_silent
          (.read pass day (dailyRecords world awardsDataFloor day)) rfl known).setPass ?_
        rintro _ ⟨⟩
        exact ⟨List.mem_cons_of_mem _ known, List.mem_cons_self, fun _ => floor_le_dailyRecords⟩
      · cases taken
  | alert pass => exact sound.step_alert taken
  | record pass =>
      simp only [Goat.step] at taken
      split at taken
      · rename_i today day rest records held
        have known := sound.phases pass _ held
        have noted := (recordFinalizedDay_frame sound day).note_silent
          (.finalized pass day) rfl
          ((recordFinalizedDay_history world day).symm ▸ known.1)
        obtain rfl := Option.some.inj taken
        refine noted.setPass ?_
        rintro _ ⟨⟩
        trivial
      · cases taken
  | drain pass =>
      simp only [Goat.step] at taken
      split at taken
      · obtain rfl := Option.some.inj taken
        refine sound.setPass ?_
        intro state held
        obtain ⟨-, rfl⟩ := Option.ite_some_none_eq_some.mp held
        trivial
      · cases taken
  | claim pass found =>
      simp only [Goat.step] at taken
      split at taken
      · obtain rfl := Option.some.inj taken
        exact sound.endPass pass
      · split at taken
        · obtain ⟨present, -, claimable⟩ := ‹_ ∧ _›
          obtain rfl := Option.some.inj taken
          exact sound.claim present claimable
        · cases taken
      · cases taken
  | judge pass unreadable =>
      simp only [Goat.step] at taken
      split at taken
      · rename_i today claim held
        have known := sound.phases pass _ held
        obtain rfl := Option.some.inj taken
        refine sound.setPass ?_
        rintro _ ⟨⟩
        split <;> exact known
      · cases taken
  | suppress pass =>
      simp only [Goat.step] at taken
      split at taken
      · rename_i today claim reason held
        obtain rfl := Option.some.inj taken
        refine (sound.suppressDelivery claim reason).setPass ?_
        rintro _ ⟨⟩
        trivial
      · cases taken
  | post pass answer => exact sound.step_post taken
  | mark pass =>
      simp only [Goat.step] at taken
      split at taken
      · rename_i today claim messageTs held
        obtain rfl := Option.some.inj taken
        refine (sound.markDeliverySent claim messageTs).setPass ?_
        rintro _ ⟨⟩
        trivial
      · cases taken
  | giveBack pass =>
      simp only [Goat.step] at taken
      split at taken
      · rename_i today claim error held
        obtain rfl := Option.some.inj taken
        exact (sound.returnDeliveryToPending claim error).endPass pass
      · cases taken
  | crash pass =>
      obtain ⟨_, -, rfl⟩ := Option.map_eq_some_iff.mp taken
      exact sound.endPass pass
  | elapse _ | configure _ _ _ _ | outside _ _ _ =>
      obtain rfl := Option.some.inj taken
      exact sound.frame rfl rfl rfl rfl rfl rfl

/-- A delivery that is done is the same after every step. -/
theorem Sound.settled (sound : Sound world) {action : Action} {next : World} {delivery : Delivery}
    (taken : Goat.step world action = some next) (present : delivery ∈ world.deliveries)
    (settled : delivery.status.settled) : delivery ∈ next.deliveries ∧
      ∀ other ∈ next.deliveries, other.id = delivery.id → other = delivery := by
  obtain ⟨change, added, advances, fresh, deliveries⟩ := step_moves taken
  have stays := (advances delivery present).eq_of_settled settled
  rw [deliveries]
  refine ⟨List.mem_append_left _ (List.mem_map.mpr ⟨delivery, present, stays⟩), ?_⟩
  intro other member same
  rcases List.mem_append.mp member with moved | added_
  · obtain ⟨before, earlier, rfl⟩ := List.mem_map.mp moved
    obtain rfl : before = delivery := List.inj_on_of_nodup_map sound.stored.ids earlier present
      ((advances before earlier).id_eq.symm.trans same)
    exact stays
  · have bound := sound.stored.idBound delivery present
    rw [← same, fresh other added_] at bound
    exact absurd bound (Nat.lt_irrefl _)

/-- A claim that was taken over is not the token of its delivery. -/
theorem Sound.takenOver (sound : Sound world) {claim : Claim}
    (taken : TakenOver world.history claim) {delivery : Delivery}
    (present : delivery ∈ world.deliveries) (same : delivery.id = claim.deliveryId) :
    delivery.claimToken ≠ some claim.claimToken := by
  obtain ⟨later, earlier, first, history, other, token, member⟩ := taken
  have newer : claim.claimToken < token := by
    obtain ⟨before, between, rfl⟩ := List.append_of_mem member
    have lawful := sound.lawful
    rw [history, List.append_assoc, List.cons_append] at lawful
    exact lawful.follows rfl _ _ _ (List.mem_append_right _ List.mem_cons_self)
  intro held
  have newest := (sound.claims other claim.deliveryId token
    (history ▸ List.mem_append_left _ member)).2 delivery present same _ held
  exact absurd newer (not_lt.mpr newest)

theorem update_of_takenOver (sound : Sound world) {claim : Claim}
    (taken : TakenOver world.history claim) (change : Delivery → Delivery) :
    (claim.update change world).deliveries = world.deliveries := by
  refine (List.map_congr_left fun delivery member => ?_).trans (List.map_id _)
  refine if_neg fun ⟨same, _, held⟩ => ?_
  exact sound.takenOver taken member same held

/-- A pass whose claim was taken over changes no delivery. -/
theorem takenOver_unchanged {action : Action} {next : World} {state : Pass} {claim : Claim}
    (sound : Sound world) (taken : Goat.step world action = some next)
    (acts : action.pass = some pass) (held : world.passes pass = some state)
    (holds : state.phase.claim = some claim) (lost : TakenOver world.history claim) :
    next.deliveries = world.deliveries := by
  obtain ⟨today, phase⟩ := state
  cases action with
  | begin _ _ | elapse _ | configure _ _ _ _ | outside _ _ _ => cases acts
  | list _ | check _ | prepare _ _ | store _ | read _ | alert _ | record _ | drain _ | claim _ _ =>
      obtain rfl := Option.some.inj acts
      cases phase <;> first | (cases holds; done) | simp [Goat.step, held] at taken
  | crash _ =>
      obtain ⟨_, -, rfl⟩ := Option.map_eq_some_iff.mp taken
      rfl
  | judge _ _ | post _ _ =>
      obtain rfl := Option.some.inj acts
      simp only [Goat.step, held] at taken
      split at taken
      · exact Option.some.inj taken ▸ rfl
      · cases taken
  | suppress _ | mark _ | giveBack _ =>
      obtain rfl := Option.some.inj acts
      simp only [Goat.step, held] at taken
      split at taken
      · rename_i same
        obtain ⟨rfl, rfl⟩ := Pass.mk.inj (Option.some.inj same)
        obtain rfl := Option.some.inj holds
        obtain rfl := Option.some.inj taken
        exact update_of_takenOver sound lost _
      · cases taken

theorem Sound.exactlyOnce (sound : Sound world) : ExactlyOnce world where
  finalized := fun _ _ _ _ same => sound.lawful.follows same
  inserted := fun _ _ _ _ _ same => sound.lawful.follows same
  read := fun _ _ _ _ _ same => sound.lawful.follows same
  single := sound.stored.single
  settled := fun _ _ _ taken present settled => sound.settled taken present settled
  takenOver := fun _ _ _ _ _ taken acts held holds lost =>
    takenOver_unchanged sound taken acts held holds lost
  posts := by
    intro pass other deliveryId messageId messageId' posted posted'
    obtain ⟨delivery, present, id_eq, held⟩ := sound.posts pass deliveryId messageId posted
    obtain ⟨delivery', present', id_eq', held'⟩ := sound.posts other deliveryId messageId' posted'
    obtain rfl : delivery = delivery' :=
      List.inj_on_of_nodup_map sound.stored.ids present present' (id_eq.trans id_eq'.symm)
    exact Option.some.inj (held.symm.trans held')

end

/-- Passes whose days can be computed finalize them from fresh rows and deliver each alert once. -/
theorem notifications_once {start world : World} (starts : start.Starts)
    (reachable : Reachable start step RefreshReady world) : ExactlyOnce world := by
  have sound : Sound world :=
    reachable.invariant starts.sound fun _ _ _ sound ready taken => sound.step ready taken
  exact sound.exactlyOnce

private def repair : Location := ⟨"Repair 1", "Repair", some "m1"⟩

/-- A plant with one repair station and a record of five units on day 19999. -/
private def plant (refreshReady : Bool) : World where
  production := [⟨19999, "Ana", "Repair 1", 5, 8⟩]
  absences := []
  sites := ⟨fun groupName => if groupName = "Repairs" then [repair] else [], [repair]⟩
  workday := fun _ => true
  refreshReady := fun _ => refreshReady
  now := 0
  enabledOn := some 20000
  finalizedDays := []
  alerts := []
  nextAlertId := 0
  deliveries := []
  nextDeliveryId := 0
  nextUuid := 0
  channelConfigured := true
  passes := fun _ => none
  nextPass := 0
  history := []

private theorem plant_starts (refreshReady : Bool) : (plant refreshReady).Starts where
  stored := ⟨List.nodup_nil, List.nodup_nil, List.forall_mem_nil _, List.forall_mem_nil _,
    List.forall_mem_nil _⟩
  passes := fun _ => rfl
  history := rfl

/-- A pass that finds a new record. -/
theorem notifications_once_record : ∃ world : World, world.finalizedDays = [20000] ∧
    world.alerts.map (·.units) = [7] ∧ ExactlyOnce world := by
  have permitted : Permitted step RefreshReady (plant true)
      [.begin 20000 20000, .list 0, .check 0,
        .prepare 0 (some [⟨20000, "Ben", "Repair 1", 7, 8⟩]), .store 0, .read 0, .alert 0,
        .record 0] := by
    refine ⟨trivial, ?_⟩
    rintro _ ⟨⟩
    refine ⟨trivial, ?_⟩
    rintro _ ⟨⟩
    refine ⟨fun _ _ _ _ => rfl, ?_⟩
    rintro _ ⟨⟩
    refine ⟨trivial, ?_⟩
    rintro _ ⟨⟩
    refine ⟨fun _ _ _ _ _ => rfl, ?_⟩
    rintro _ ⟨⟩
    refine ⟨trivial, fun _ _ => ⟨trivial, fun _ _ => ⟨trivial, fun _ _ => trivial⟩⟩⟩
  have ran : (Transition.run step (plant true)
      [.begin 20000 20000, .list 0, .check 0,
        .prepare 0 (some [⟨20000, "Ben", "Repair 1", 7, 8⟩]), .store 0, .read 0, .alert 0,
        .record 0]).map (fun world => (world.finalizedDays, world.alerts.map (·.units))) =
          some ([20000], [7]) := by
    decide +kernel
  obtain ⟨last, ran, same⟩ := Option.map_eq_some_iff.mp ran
  obtain ⟨finalized, units⟩ := Prod.mk.inj same
  exact ⟨last, finalized, units, notifications_once (plant_starts true)
    (Reachable.initial.run_permitted permitted ran)⟩

/-- A day that is skipped because its cutover is pending, and finalized from the old rows. -/
theorem skipped_day_finalized : ¬ ∀ start world : World, start.Starts →
    Reachable start step (fun _ _ => True) world → ExactlyOnce world := by
  intro once
  obtain ⟨last, ran, history⟩ : ∃ last, Transition.run step (plant false)
      [.begin 20000 20000, .list 0, .check 0, .read 0, .alert 0, .record 0] = some last ∧
        ∃ records, last.history = [.finalized 0 20000, .read 0 20000 records] :=
    ⟨_, rfl, _, rfl⟩
  obtain ⟨records, history⟩ := history
  have reachable : Reachable (plant false) step (fun _ _ => True) last :=
    Reachable.initial.run (fun _ _ _ => trivial) ran
  have stored := (once _ _ (plant_starts false) reachable).finalized [] _ 0 20000 history
  cases List.mem_singleton.mp stored

end PlantManager.Goat
