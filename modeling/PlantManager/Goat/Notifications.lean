import PlantManager.Goat.Records
import PlantManager.Transition.Runs

/-! # Finalizing days and delivering alerts

A pass finalizes the workdays that are outstanding, one after another, and then delivers the alerts
(`Goat.step`). Passes run side by side. Every transaction, and every read that is not
in one with a write, is a step, and a pass can end before any of its steps. What a source or a call
answers, and which row a claim finds that is not locked, is part of the action.
-/

namespace PlantManager.Goat

inductive Status where
  | pending
  | sending
  | sent
  | suppressed
  deriving DecidableEq

/-- A delivery in one of these is done. -/
def Status.settled : Status → Bool
  | .pending | .sending => false
  | .sent | .suppressed => true

/-- A row of `goat_slack_deliveries`. -/
structure Delivery where
  id : ℕ
  goatAlertId : ℕ
  clientMsgId : Option ℕ
  claimToken : Option ℕ
  status : Status
  attempts : ℕ
  lastError : Option String
  attemptedAt : Option ℤ
  sentAt : Option ℤ
  suppressedAt : Option ℤ
  slackMessageTs : Option String
  deriving DecidableEq

/-- A row of `goat_alerts`. -/
structure AlertRow extends Alert where
  id : ℕ
  dismissed : Bool
  deriving DecidableEq

/-- A delivery as it was claimed. -/
structure Claim where
  deliveryId : ℕ
  clientMsgId : ℕ
  claimToken : ℕ
  alert : Alert
  deriving DecidableEq

/-- What `precompute_day` returns. -/
structure Precomputed where
  rowsWritten : ℕ
  queued : Bool
  skipped : Option String

/-- What a pass does next. -/
inductive Phase where
  | listing (throughDay : ℤ)
  | days (days : List ℤ)
  | preparing (day : ℤ) (rest : List ℤ)
  | storing (day : ℤ) (rest : List ℤ) (rows : List Record)
  | reading (day : ℤ) (rest : List ℤ)
  | inserting (day : ℤ) (rest : List ℤ) (records : List Record) (categories : List Category)
  | draining
  | judging (claim : Claim)
  | suppressing (claim : Claim) (reason : String)
  | posting (claim : Claim)
  | marking (claim : Claim) (messageTs : String)
  | returning (claim : Claim) (error : String)

structure Pass where
  today : ℤ
  phase : Phase

inductive Event where
  | stored (pass : ℕ) (day : ℤ)
  | finalized (pass : ℕ) (day : ℤ)
  | read (pass : ℕ) (day : ℤ) (records : List Record)
  /-- An alert was inserted, when the category had these work centers. -/
  | inserted (pass : ℕ) (alert : Alert) (wcNames : List String)
  | claimed (pass deliveryId claimToken : ℕ)
  | posted (pass deliveryId clientMsgId : ℕ)

/-- The database, the clock, the settings and the passes. The newest event is the first. -/
structure World where
  production : List Record
  absences : List (String × ℤ)
  sites : Sites
  workday : ℤ → Bool
  /-- Whether the cutover lets a day be computed. -/
  refreshReady : ℤ → Bool
  now : ℤ
  enabledOn : Option ℤ
  finalizedDays : List ℤ
  alerts : List AlertRow
  nextAlertId : ℕ
  deliveries : List Delivery
  nextDeliveryId : ℕ
  nextUuid : ℕ
  channelConfigured : Bool
  passes : ℕ → Option Pass
  nextPass : ℕ
  history : List Event

def World.note (world : World) (event : Event) : World :=
  { world with history := event :: world.history }

def World.setPass (world : World) (pass : ℕ) (state : Option Pass) : World :=
  { world with passes := Function.update world.passes pass state }

/-! ## Finalizing -/

/-- The days with units of people who are not absent. -/
def dailyRecords (world : World) (first last : ℤ) : List Record :=
  world.production.filter fun record =>
    (first ≤ record.day ∧ record.day ≤ last) ∧ 0 < record.units ∧ record.owner ∉ world.absences

/-- The enabled workdays that are outstanding. -/
def unfinalizedWorkdays (world : World) (throughDay : ℤ) : List ℤ :=
  match world.enabledOn with
  | none => []
  | some enabledOn =>
      let days := (List.range (throughDay - enabledOn + 1).toNat).map
        fun offset : ℕ => enabledOn + (offset : ℤ)
      days.filter fun day => world.workday day ∧ day ∉ world.finalizedDays

def cutoverPending : Precomputed := ⟨0, false, some "cutover_recalculation_pending"⟩

/-- A day is left for later if its result says that it is queued. -/
def Precomputed.next (result : Precomputed) (day : ℤ) (rest : List ℤ) : Phase :=
  if result.queued then .days rest else .reading day rest

def storePreparedDay (world : World) (day : ℤ) (rows : List Record) : World :=
  { world with production := (world.production.filter fun record => record.day ≠ day) ++ rows }

/-- No alert of the day is of the same work center of a group, or of the same category. -/
def Alert.Unique (alerts : List AlertRow) (alert : Alert) : Prop :=
  ∀ row ∈ alerts, row.achievedDay = alert.achievedDay →
    ¬ (row.groupName = alert.groupName ∧ row.wcName = alert.wcName) ∧
      ¬ (alert.categoryKey.isSome ∧ row.categoryKey = alert.categoryKey)

instance (alerts : List AlertRow) (alert : Alert) : Decidable (alert.Unique alerts) :=
  inferInstanceAs (Decidable (∀ row ∈ alerts, _ → _))

def insertAlertAndDelivery (world : World) (alert : Alert) : World :=
  { world with
    alerts := world.alerts ++ [{ alert with id := world.nextAlertId, dismissed := false }]
    nextAlertId := world.nextAlertId + 1
    deliveries := world.deliveries ++
      [⟨world.nextDeliveryId, world.nextAlertId, some world.nextUuid, none, .pending, 0, none, none,
        none, none, none⟩]
    nextDeliveryId := world.nextDeliveryId + 1
    nextUuid := world.nextUuid + 1 }

def recordFinalizedDay (world : World) (day : ℤ) : World :=
  if day ∈ world.finalizedDays then world
  else { world with finalizedDays := day :: world.finalizedDays }

/-! ## Delivering -/

def canonicalKey (groupName : String) : Option String :=
  (allCategories.find? fun category => category.label = groupName).map Category.key

/-- A dismissed alert without a category, when the category has one that day. -/
def Superseded (alerts : List AlertRow) (row : AlertRow) : Prop :=
  row.categoryKey = none ∧ row.dismissed = true ∧ ∃ key ∈ canonicalKey row.groupName,
    ∃ canonical ∈ alerts, canonical.achievedDay = row.achievedDay ∧
      canonical.categoryKey = some key

/-- How long a claim lasts, in seconds. -/
def claimSeconds : ℤ := 300

/-- A delivery that can be claimed. -/
def Delivery.Claimable (world : World) (delivery : Delivery) (row : AlertRow) : Prop :=
  row.id = delivery.goatAlertId ∧
    (delivery.status = .pending ∨
      delivery.status = .sending ∧ ∃ attemptedAt ∈ delivery.attemptedAt,
        attemptedAt < world.now - claimSeconds) ∧
    ¬ Superseded world.alerts row

instance (alerts : List AlertRow) (row : AlertRow) : Decidable (Superseded alerts row) :=
  inferInstanceAs (Decidable (_ ∧ _ ∧ ∃ key ∈ canonicalKey row.groupName, ∃ canonical ∈ alerts, _))

instance (world : World) (delivery : Delivery) (row : AlertRow) :
    Decidable (delivery.Claimable world row) :=
  inferInstanceAs (Decidable (_ ∧ (_ ∨ _ ∧ ∃ attemptedAt ∈ delivery.attemptedAt, _) ∧ _))

/-- Take a delivery over. -/
def Delivery.claim (now : ℤ) (messageId token : ℕ) (delivery : Delivery) : Delivery :=
  { delivery with
    status := .sending
    attempts := delivery.attempts + 1
    attemptedAt := some now
    clientMsgId := some (delivery.clientMsgId.getD messageId)
    claimToken := some token }

def claimOne (claimed : Delivery) (now : ℤ) (messageId token : ℕ) (delivery : Delivery) : Delivery :=
  if delivery = claimed then delivery.claim now messageId token else delivery

/-- Change the delivery of a claim, unless another claim took it over. -/
def Claim.change (claim : Claim) (change : Delivery → Delivery) (delivery : Delivery) : Delivery :=
  if delivery.id = claim.deliveryId ∧ delivery.status = .sending ∧
      delivery.claimToken = some claim.claimToken then change delivery
  else delivery

def Claim.update (claim : Claim) (change : Delivery → Delivery) (world : World) : World :=
  { world with deliveries := world.deliveries.map (claim.change change) }

def markDeliverySent (claim : Claim) (messageTs : String) (world : World) : World :=
  claim.update (fun delivery =>
    { delivery with
      status := .sent
      sentAt := some world.now
      slackMessageTs := some messageTs
      lastError := none }) world

def suppressDelivery (claim : Claim) (reason : String) (world : World) : World :=
  claim.update (fun delivery =>
    { delivery with
      status := .suppressed
      suppressedAt := some world.now
      lastError := some reason }) world

def returnDeliveryToPending (claim : Claim) (error : String) (world : World) : World :=
  claim.update (fun delivery =>
    { delivery with status := .pending, lastError := some error, claimToken := none }) world

/-- The next workday within two weeks, or else the next day. -/
def nextBusinessDay (workday : ℤ → Bool) (day : ℤ) : ℤ :=
  (((List.range 14).map fun offset : ℕ => day + 1 + (offset : ℤ)).find? fun next => workday next).getD
    (day + 1)

/-- Why an alert is not delivered; its records can be unreadable. -/
def deliverySuppressionReason (world : World) (alert : Alert) (today : ℤ) (unreadable : Bool) :
    Option String :=
  match allCategories.find? fun category => alert.categoryKey = some category.key with
  | none => some "unknown GOAT category"
  | some category =>
      if today < alert.achievedDay then some "achieved day is in the future"
      else if nextBusinessDay world.workday alert.achievedDay < today then
        some "delivery window expired"
      else if 1 < category.minimumDataDays then
        if unreadable then some (category.label ++ " GOAT readiness unavailable")
        else if isGoatReady world.sites category
            (dailyRecords world awardsDataFloor alert.achievedDay) then none
        else some (category.label ++ " GOAT requires " ++ toString category.minimumDataDays ++
          " production days")
      else none

/-! ## Steps -/

inductive Action where
  /-- A pass begins, and the last day that is over is given. -/
  | begin (today latestCompletedDay : ℤ)
  | list (pass : ℕ)
  | check (pass : ℕ)
  /-- The rows of the day, unless a source raises. -/
  | prepare (pass : ℕ) (rows : Option (List Record))
  | store (pass : ℕ)
  | read (pass : ℕ)
  | alert (pass : ℕ)
  | record (pass : ℕ)
  | drain (pass : ℕ)
  | claim (pass : ℕ) (found : Option (Delivery × AlertRow))
  | judge (pass : ℕ) (unreadable : Bool)
  | suppress (pass : ℕ)
  /-- Slack answers with the timestamp of the message or with an error. -/
  | post (pass : ℕ) (answer : Except String String)
  | mark (pass : ℕ)
  | giveBack (pass : ℕ)
  | crash (pass : ℕ)
  | elapse (seconds : ℕ)
  | configure (sites : Sites) (workday refreshReady : ℤ → Bool) (channelConfigured : Bool)
  /-- Others write the production and the absences, and dismiss an alert. -/
  | outside (production : List Record) (absences : List (String × ℤ)) (dismissed : List ℕ)

def step (world : World) : Action → Option World
  | .begin today latestCompletedDay =>
      some ({ world with
        enabledOn := some (world.enabledOn.getD today)
        nextPass := world.nextPass + 1 }.setPass world.nextPass
          (some ⟨today, .listing latestCompletedDay⟩))
  | .list pass =>
      match world.passes pass with
      | some ⟨today, .listing throughDay⟩ =>
          some (world.setPass pass (some ⟨today, .days (unfinalizedWorkdays world throughDay)⟩))
      | _ => none
  | .check pass =>
      match world.passes pass with
      | some ⟨today, .days (day :: rest)⟩ =>
          some (world.setPass pass (some ⟨today,
            if world.refreshReady day then .preparing day rest
            else cutoverPending.next day rest⟩))
      | _ => none
  | .prepare pass rows =>
      match world.passes pass with
      | some ⟨today, .preparing day rest⟩ =>
          -- A source that raises ends the pass.
          some (world.setPass pass (rows.map fun rows => ⟨today, .storing day rest rows⟩))
      | _ => none
  | .store pass =>
      match world.passes pass with
      | some ⟨today, .storing day rest rows⟩ =>
          if world.refreshReady day then
            let result : Precomputed := ⟨rows.length, false, none⟩
            some (((storePreparedDay world day rows).note (.stored pass day)).setPass pass
              (some ⟨today, result.next day rest⟩))
          else some (world.setPass pass (some ⟨today, cutoverPending.next day rest⟩))
      | _ => none
  | .read pass =>
      match world.passes pass with
      | some ⟨today, .reading day rest⟩ =>
          let records := dailyRecords world awardsDataFloor day
          some ((world.note (.read pass day records)).setPass pass
            (some ⟨today, .inserting day rest records
              (allCategories.filter (hasMeteredSource world.sites))⟩))
      | _ => none
  | .alert pass =>
      match world.passes pass with
      | some ⟨today, .inserting day rest records (category :: categories)⟩ =>
          let later := some ⟨today, .inserting day rest records categories⟩
          match alertFor world.sites day records category with
          | none => some (world.setPass pass later)
          | some alert =>
              if alert.Unique world.alerts then
                some (((insertAlertAndDelivery world alert).note
                  (.inserted pass alert (workCenterNames world.sites category))).setPass pass later)
              else some (world.setPass pass later)
      | _ => none
  | .record pass =>
      match world.passes pass with
      | some ⟨today, .inserting day rest _ []⟩ =>
          some (((recordFinalizedDay world day).note (.finalized pass day)).setPass pass
            (some ⟨today, .days rest⟩))
      | _ => none
  | .drain pass =>
      match world.passes pass with
      | some ⟨today, .days []⟩ =>
          some (world.setPass pass
            (if world.channelConfigured then some ⟨today, .draining⟩ else none))
      | _ => none
  | .claim pass found =>
      match world.passes pass, found with
      | some ⟨_, .draining⟩, none => some (world.setPass pass none)
      | some ⟨today, .draining⟩, some (delivery, row) =>
          if delivery ∈ world.deliveries ∧ row ∈ world.alerts ∧ delivery.Claimable world row then
            let messageId := world.nextUuid
            let token := world.nextUuid + 1
            let claim : Claim :=
              ⟨delivery.id, delivery.clientMsgId.getD messageId, token, row.toAlert⟩
            some (({ world with
              nextUuid := world.nextUuid + 2
              deliveries := world.deliveries.map (claimOne delivery world.now messageId token) }.note
                (.claimed pass delivery.id token)).setPass pass (some ⟨today, .judging claim⟩))
          else none
      | _, _ => none
  | .judge pass unreadable =>
      match world.passes pass with
      | some ⟨today, .judging claim⟩ =>
          some (world.setPass pass (some ⟨today,
            match deliverySuppressionReason world claim.alert today unreadable with
            | some reason => .suppressing claim reason
            | none => .posting claim⟩))
      | _ => none
  | .suppress pass =>
      match world.passes pass with
      | some ⟨today, .suppressing claim reason⟩ =>
          some ((suppressDelivery claim reason world).setPass pass (some ⟨today, .draining⟩))
      | _ => none
  | .post pass answer =>
      match world.passes pass with
      | some ⟨today, .posting claim⟩ =>
          some ((world.note (.posted pass claim.deliveryId claim.clientMsgId)).setPass pass
            (some ⟨today, match answer with
              | .ok messageTs => .marking claim messageTs
              | .error error => .returning claim error⟩))
      | _ => none
  | .mark pass =>
      match world.passes pass with
      | some ⟨today, .marking claim messageTs⟩ =>
          some ((markDeliverySent claim messageTs world).setPass pass (some ⟨today, .draining⟩))
      | _ => none
  | .giveBack pass =>
      match world.passes pass with
      | some ⟨_, .returning claim error⟩ =>
          some ((returnDeliveryToPending claim error world).setPass pass none)
      | _ => none
  | .crash pass => (world.passes pass).map fun _ => world.setPass pass none
  | .elapse seconds => some { world with now := world.now + seconds }
  | .configure sites workday refreshReady channelConfigured =>
      some { world with sites, workday, refreshReady, channelConfigured }
  | .outside production absences dismissed =>
      some { world with
        production, absences
        alerts := world.alerts.map fun row =>
          if row.id ∈ dismissed then { row with dismissed := true } else row }

end PlantManager.Goat
