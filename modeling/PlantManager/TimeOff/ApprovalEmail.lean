import PlantManager.Attendance.TimelineRange
import PlantManager.TimeOff.Leaves
import PlantManager.Transition.Job
import PlantManager.Transition.Runs

/-! # The approval email

An approved request leaves a row in the outbox (`TimeOff.capture`), and a worker turns
the row into a mail of Odoo (`TimeOff.runOnce`). Passes of the worker hold a lock, so
one ends before the next begins. The script of a pass says what becomes of each of its calls and
how the request and Odoo look by then. A statement of the database has no effect when it raises; a
call to Odoo can raise after it took effect, and a create can take effect even later
(`TimeOff.Action.lands`), except that Odoo takes back what it answers with a fault.
-/

namespace PlantManager.TimeOff

open Transition

inductive EmailState where
  | pending
  | sending
  | queued
  | sent
  | skipped
  | attention
  deriving DecidableEq, Repr

/-- The states in which the worker takes a row up. -/
def EmailState.live : EmailState → Bool
  | .pending | .sending | .queued => true
  | .sent | .skipped | .attention => false

/-- The fields of a request that its email is about. -/
structure Captured where
  personOdooId : ℤ
  dateFrom : ℤ
  dateTo : ℤ
  shape : Shape
  hourFrom : Option ℚ
  hourTo : Option ℚ
  deriving DecidableEq

/-- A row of `time_off_requests`. -/
structure Request extends Captured where
  state : String
  localRecord : Bool
  odooLeaveId : Option ℤ
  approvalSourceUpdatedAt : Option ℤ
  lastPulledAt : Option ℤ
  deriving DecidableEq

/-- A row of `time_off_approval_email`. -/
structure EmailRow extends Captured where
  deliveryKey : String
  state : EmailState
  odooMailId : Option ℤ
  attempts : ℕ
  nextAttemptAt : ℤ
  lastError : Option String
  deriving DecidableEq

structure Employee where
  id : ℤ
  active : Bool
  privateEmail : Option String
  workEmail : Option String
  deriving DecidableEq

structure Payload where
  emailTo : String
  emailFrom : String
  subject : String
  bodyHtml : String
  messageId : String
  deriving DecidableEq

/-- A mail of Odoo. Its id is missing when it is not a number. -/
structure Mail where
  id : Option ℤ
  payload : Payload
  deriving DecidableEq

/-- What a call raises. -/
inductive Problem where
  | fault
  | valueError
  | other
  deriving DecidableEq, Repr

/-- What others decide: the request, Odoo apart from the mails, the clock and the settings. -/
structure Outside where
  request : Option Request
  leaves : ℤ → List Leave
  employees : ℤ → List Employee
  emailFrom : Option String
  /-- The state of a mail that Odoo has still. -/
  mailState : Option ℤ → Option String
  newMailId : Option ℤ
  /-- What a call raises if it raises. -/
  problem : Problem
  now : ℤ
  today : ℤ
  installedAt : ℤ
  shift : ShiftBounds
  deliveryKey : String
  enabled : String
  policy : String
  /-- Five other rows are due before the one of this request. -/
  crowded : Bool

/-- What came of a create. -/
inductive Outcome where
  | answered
  | rejected
  | unknown
  deriving DecidableEq, Repr

inductive Event where
  /-- A pass got the lock of the worker. -/
  | began
  | readRequest (request : Option Request) (today : ℤ)
  | readLeave (leaveId : ℤ) (leaves : List Leave) (shift : ShiftBounds)
  /-- A create was sent for a row with these fields. -/
  | created (captured : Captured) (outcome : Outcome)
  | marked (state : EmailState)
  deriving DecidableEq

/-- The row of the request in the outbox, and what was done about it. The newest event of the
history is its first. -/
structure Outbox where
  email : Option EmailRow
  /-- The mails that were ever created for the row. -/
  mails : List Mail
  /-- What was sent to be created and can take effect still. -/
  inFlight : List Payload
  history : List Event

structure World extends Outbox where
  outside : Outside
  /-- What the last call raised. -/
  raising : Option Problem
  script : List (Job.Verdict × Outside)

def World.note (world : World) (event : Event) : World :=
  { world with history := event :: world.history }

/-! ## The capture of an approval -/

/-- A change of a request is one to an approval that the plant tells about. -/
def capturable (old new : Request) (today installedAt : ℤ) (inserted : Bool) : Bool :=
  if new.state ≠ "validate" ∨ new.dateTo < today then false
  else if ¬ inserted ∧ (old.state = "validate" ∨ old.state = "draft_cancel") then false
  else if (inserted ∨ new.lastPulledAt ≠ old.lastPulledAt) ∧
      ∀ updatedAt ∈ new.approvalSourceUpdatedAt, updatedAt < installedAt then false
  else true

/-- The row that the trigger of `time_off_requests` adds if the outbox has none. -/
def capture (old : Option Request) (outside : Outside) : Option EmailRow := do
  let new ← outside.request
  if capturable (old.getD new) new outside.today outside.installedAt old.isNone then
    some {
      toCaptured := new.toCaptured
      deliveryKey := outside.deliveryKey
      state := .pending
      odooMailId := none
      attempts := 0
      nextAttemptAt := outside.now
      lastError := none }
  else none

/-- Others move on; a row of the outbox stays as it is. -/
def World.become (world : World) (outside : Outside) : World :=
  { world with
    outside
    email := world.email.or (capture world.outside.request outside) }

/-! ## Calls -/

/-- The script comes first; later calls answer. -/
def channel : Job.Channel World where
  take world :=
    match world.script with
    | [] => (.answers, { world with raising := none })
    | (verdict, outside) :: rest =>
        (verdict, { world with script := rest, raising := none }.become outside)
  failed world := { world with raising := some world.outside.problem }

def rolledBack : Job.Verdict → Job.Verdict
  | .fails _ => .fails false
  | verdict => verdict

/-- The statements of the database. -/
def database : Job.Channel World where
  take world := ((channel.take world).map rolledBack id)
  failed world := { world with raising := some .other }

/-- A create that is not answered. -/
def World.unanswered (captured : Captured) (payload : Payload) (world : World) : World :=
  match world.outside.problem with
  | .fault => { world with raising := some .fault }.note (.created captured .rejected)
  | problem =>
      { world with raising := some problem, inFlight := payload :: world.inFlight }.note
        (.created captured .unknown)

/-- Calls that create a mail. -/
def creation (captured : Captured) (payload : Payload) : Job.Channel World where
  take := channel.take
  failed := World.unanswered captured payload

def execute {α : Type} (service : World → Except String (α × World)) : Job World α :=
  Job.call channel service

def query {α : Type} (service : World → Except String (α × World)) : Job World α :=
  Job.call database service

def raise {α : Type} (problem : Problem) : Job World α := fun world =>
  (.raised, { world with raising := some problem })

/-! ## Texts -/

/-- The functions of other packages that an email needs. -/
structure Texts where
  isoformat : ℤ → String
  lower : String → String
  /-- The address in a mail header. -/
  parseaddr : String → String

def isMailboxChar (char : Char) : Bool :=
  char.isAlphanum || char ∈ ".!#$%&'*+/=?^_`\x7b|\x7d~-".toList

def isLabelChar (char : Char) : Bool := char.isAlphanum || char = '-'

def isAddress (value : List Char) : Bool :=
  match value.splitOn '@' with
  | [mailbox, domain] =>
      mailbox ≠ [] && mailbox.all isMailboxChar && decide (2 ≤ (domain.splitOn '.').length) &&
        (domain.splitOn '.').all fun label => label ≠ [] && label.all isLabelChar
  | _ => false

def stripped (value : String) : String := String.ofList (Attendance.Projection.strip value.toList)

def Texts.address (texts : Texts) (value : Option String) : Option String := do
  let text ← value
  let cleaned := texts.lower (stripped text)
  if isAddress cleaned.toList then some cleaned else none

/-- The fields of an employee that a policy reads, in their order. -/
def recipientFields (employee : Employee) : String → Option (List (Option String))
  | "personal_then_work" => some [employee.privateEmail, employee.workEmail]
  | "personal" => some [employee.privateEmail]
  | "work" => some [employee.workEmail]
  | _ => none

def recipient (texts : Texts) (employee : Employee) (policy : String) : Job World (Option String) :=
  match recipientFields employee policy with
  | none => raise .valueError
  | some fields => return fields.findSome? texts.address

def hour (value : ℚ) : String :=
  let minutes := roundHalfEven (value * 60)
  let onClock := if minutes / 60 % 12 = 0 then 12 else minutes / 60 % 12
  let minute := minutes % 60
  let padding := if minute < 10 then "0" else ""
  s!"{onClock}:{padding}{minute} " ++ if minutes / 60 < 12 then "AM" else "PM"

/-- The line about the hours. Hours that are missing are an error. -/
def detail (captured : Captured) : Option String :=
  match captured.shape, captured.hourFrom, captured.hourTo with
  | .fullDay, _, _ => some "Full days off. / Días completos libres."
  | _, some hourFrom, some hourTo =>
      some ("Time off / Tiempo libre: " ++ hour hourFrom ++ " — " ++ hour hourTo ++
        " (Central time / hora central).")
  | _, _, _ => none

/-- The subject and the body. -/
def renderEmail (texts : Texts) (captured : Captured) : Job World (String × String) :=
  let start := texts.isoformat captured.dateFrom
  let last := texts.isoformat captured.dateTo
  let span := if start = last then start else start ++ " — " ++ last
  match detail captured with
  | none => raise .other
  | some detail =>
      return ("Your time off was approved / Tu tiempo libre fue aprobado",
        "<p>Your time off was approved.</p>" ++
        "<p>Tu tiempo libre fue aprobado.</p>" ++
        "<p><strong>" ++ span ++ "</strong><br>" ++ detail ++ "</p>" ++
        "<p>You can check your request at the time clock. " ++
        "Please see your supervisor if you have questions.</p>" ++
        "<p>Puedes consultar tu solicitud en el reloj de asistencia. " ++
        "Si tienes preguntas, habla con tu supervisor.</p>" ++
        "<p>GPI Plant Manager</p>")

def messageId (row : EmailRow) : String :=
  "<gpi-time-off-" ++ row.deliveryKey ++ "@gpiplantmanager.com>"

/-! ## One row -/

def EmailRow.mark (row : EmailRow) (state : EmailState) (error : Option String)
    (mailId : Option ℤ) (nextAttemptAt : ℤ) : EmailRow :=
  { row with
    state
    lastError := error
    odooMailId := mailId.or row.odooMailId
    attempts := row.attempts + 1
    nextAttemptAt }

def mark (state : EmailState) (error : Option String) (mailId : Option ℤ) (delay : ℤ) :
    Job World Unit :=
  query fun world =>
    .ok ((), { world with
      email := world.email.map fun row : EmailRow =>
        row.mark state error mailId (world.outside.now + delay) }.note (.marked state))

def currentRequest : Job World (Option Request × ℤ) :=
  query fun world =>
    .ok ((world.outside.request, world.outside.today),
      world.note (.readRequest world.outside.request world.outside.today))

def readLeave (leaveId : ℤ) : Job World (List Leave × ShiftBounds) :=
  execute fun world =>
    .ok ((world.outside.leaves leaveId, world.outside.shift),
      world.note (.readLeave leaveId (world.outside.leaves leaveId) world.outside.shift))

/-- A leave is approved with the fields that were captured. -/
def leaveApproved (captured : Captured) (shift : ShiftBounds) (leave : Leave) : Bool :=
  let (shape, hourFrom, hourTo) := mirrorShapeAndHours shift leave
  leave.state = "validate" &&
    leave.employeeId = some captured.personOdooId &&
    leave.requestDateFrom = some captured.dateFrom &&
    leave.requestDateTo = some captured.dateTo &&
    shape = captured.shape &&
    hoursEq hourFrom captured.hourFrom &&
    hoursEq hourTo captured.hourTo

/-- A request is approved with the fields that were captured, as far as the plant knows. -/
def requestApproved (captured : Captured) (today : ℤ) (request : Request) : Bool :=
  request.state = "validate" && decide (today ≤ captured.dateTo) && request.toCaptured = captured

def stillApproved (captured : Captured) : Job World Bool := do
  match ← currentRequest with
  | (none, _) => return false
  | (some request, today) =>
      if !requestApproved captured today request then return false
      else if request.localRecord then return true
      else
        match request.odooLeaveId with
        | none => return false
        | some leaveId =>
            if leaveId = 0 then return false
            else
              match ← readLeave leaveId with
              | ([leave], shift) => return leaveApproved captured shift leave
              | _ => return false

/-- The mails of a message that Odoo has still, with their states. At most two are read. -/
def World.search (world : World) (message : String) : List (Mail × String) :=
  ((world.mails.filter fun mail => mail.payload.messageId = message).filterMap fun mail =>
    (world.outside.mailState mail.id).map fun state => (mail, state)).take 2

/-- The id and the state of the mail of a row. -/
def findMail (row : EmailRow) : Job World (Option (ℤ × String)) := do
  match ← execute fun world => .ok (world.search (messageId row), world) with
  | [] => return none
  | [(mail, state)] =>
      match mail.id with
      | none => raise .valueError
      | some mailId =>
          if mailId ≤ 0 ∨ mail.payload.messageId ≠ messageId row ∨
              ∃ known ∈ row.odooMailId, known ≠ 0 ∧ known ≠ mailId then
            raise .valueError
          else return some (mailId, state)
  | _ => raise .valueError

/-- Ask Odoo to cancel a mail. What becomes of the state of the mail is up to Odoo. -/
def cancelMail : Job World Unit := execute fun world => .ok ((), world)

def observeMail (row : EmailRow) (mailId : ℤ) (state : String) : Job World Unit := do
  if state = "sent" then mark .sent none (some mailId) 60
  else if state = "outgoing" then
    if ← stillApproved row.toCaptured then mark .queued none (some mailId) 60
    else do
      cancelMail
      mark .skipped (some "request_changed") (some mailId) 60
  else mark .attention (some "mail_delivery_failed") (some mailId) 60

def readEmployee (personOdooId : ℤ) : Job World (List Employee) :=
  execute fun world => .ok (world.outside.employees personOdooId, world)

def senderAddress (texts : Texts) : Job World (Option String) := do
  let emailFrom ← execute fun world => .ok (world.outside.emailFrom, world)
  return texts.address (some (texts.parseaddr (emailFrom.getD "")))

/-- Mark a row and leave it there. -/
def settle (state : EmailState) (error : String) (delay : ℤ) : Job World (Option Payload) := do
  mark state (some error) none delay
  return none

/-- The last step before a create: the row says that it is being sent. -/
def intend (texts : Texts) (row : EmailRow) (address sender : String) :
    Job World (Option Payload) := do
  let (subject, body) ← renderEmail texts row.toCaptured
  mark .sending none none 60
  return some {
    emailTo := address
    emailFrom := "GPI Plant Manager <" ++ sender ++ ">"
    subject
    bodyHtml := body
    messageId := messageId row }

/-- Find out whom a mail goes to. -/
def addressMail (texts : Texts) (row : EmailRow) : Job World (Option Payload) := do
  match ← readEmployee row.personOdooId with
  | [employee] =>
      if employee.id ≠ row.personOdooId then settle .attention "employee_unavailable" 60
      else if !employee.active then settle .skipped "employee_inactive" 60
      else do
        let policy ← Job.read fun world : World => world.outside.policy
        match ← recipient texts employee policy with
        | none => settle .pending "missing_email" 3600
        | some address =>
            match ← senderAddress texts with
            | none => settle .pending "sender_unavailable" 3600
            | some sender => intend texts row address sender
  | _ => settle .attention "employee_unavailable" 60

/-- What a row comes to before a create: nothing more is to do, or the mail to create. -/
def prepare (texts : Texts) (row : EmailRow) : Job World (Option Payload) := do
  match ← findMail row with
  | some (mailId, state) => do
      observeMail row mailId state
      return none
  | none =>
      -- A create that was given up can take effect still, so only a new row goes on.
      if row.state = .sending ∨ row.state = .queued then settle .sending "delivery_unknown" 900
      else if ← stillApproved row.toCaptured then addressMail texts row
      else settle .skipped "request_changed" 60

/-- Odoo adds a mail, unless it answers with a fault. -/
def create (captured : Captured) (payload : Payload) (world : World) :
    Except String (Option ℤ × World) :=
  let mail : Mail := ⟨world.outside.newMailId, payload⟩
  match world.raising with
  | some .fault => .error "rolled back"
  | some _ =>
      .ok (mail.id, { world with
        mails := mail :: world.mails
        inFlight := world.inFlight.tail })
  | none =>
      .ok (mail.id, { world with mails := mail :: world.mails }.note (.created captured .answered))

def createMail (row : EmailRow) (payload : Payload) : Job World ℤ := do
  execute fun world => .ok ((), world)
  match ← Job.call (creation row.toCaptured payload) (create row.toCaptured payload) with
  | none => raise .valueError
  | some mailId => if mailId ≤ 0 then raise .valueError else return mailId

/-- What the last call raised. -/
def problem : Job World (Option Problem) := Job.read fun world => world.raising

def processOne (texts : Texts) (row : EmailRow) : Job World Unit := do
  match ← Job.tried (prepare texts row) with
  | none =>
      if (← problem) = some .valueError then
        mark .attention (some "invalid_delivery_data") none 60
      else mark row.state (some "lookup_failed") none 300
  | some none => return ()
  | some (some payload) =>
      match ← Job.tried (createMail row payload) with
      | some mailId => mark .queued none (some mailId) 60
      | none =>
          if (← problem) = some .fault then mark .pending (some "queue_rejected") none 300
          else mark .sending (some "delivery_unknown") none 900

/-! ## Passes -/

/-- The row of the request, when a pass takes it up. -/
def World.due (world : World) : Option EmailRow :=
  world.email.filter fun row =>
    row.state.live && decide (row.nextAttemptAt ≤ world.outside.now) && !world.outside.crowded

def runOnce (texts : Texts) : Job World ℕ := do
  let enabled ← Job.read fun world : World => world.outside.enabled
  if texts.lower (stripped enabled) ∈ ["0", "false", "no"] then return 0
  else
    match ← query fun world => .ok (world.due, world) with
    | none => return 0
    | some row => do
        processOne texts row
        return 1

inductive Action where
  | pass (script : List (Job.Verdict × Outside))
  | others (outside : Outside)
  /-- A create takes effect after its call was given up. -/
  | lands

def step (texts : Texts) (world : World) : Action → Option World
  | .pass script => some (runOnce texts { world.note .began with script }).2
  | .others outside => some (world.become outside)
  | .lands =>
      match world.inFlight with
      | [] => none
      | payload :: rest =>
          some { world with mails := ⟨world.outside.newMailId, payload⟩ :: world.mails
                            inFlight := rest }

/-- The world before the request was captured. -/
def World.initial (outside : Outside) : World :=
  { outside
    email := none
    mails := []
    inFlight := []
    raising := none
    script := []
    history := [] }

/-- The worlds that passes and others reach. -/
def Occurs (texts : Texts) (outside : Outside) : World → Prop :=
  Reachable (World.initial outside) (step texts) fun _ _ => True

end PlantManager.TimeOff
