import PlantManager.TimeOff.ApprovalEmail

/-! # Time off that is recorded locally

When Odoo does not validate a leave because of the work schedule, the approve call refuses the copy
of Odoo and approves the request here (`TimeOff.LocalRecord.Phase`). Polls mirror and
delete what they fetched before, and a manager can deny the request later. There is one request and
its leave in Odoo. A statement of the database has no effect when it fails; a refusal can raise after
it took effect. Others may change the leave at any time.
-/

namespace PlantManager.TimeOff.LocalRecord

inductive RequestState where
  | draft
  | draftEdit
  | draftCancel
  | confirm
  | validate1
  | validate
  | refuse
  | cancel
  deriving DecidableEq, Repr

/-- The states that the table takes. -/
def RequestState.ofString : String → Option RequestState
  | "draft" => some .draft
  | "draft_edit" => some .draftEdit
  | "draft_cancel" => some .draftCancel
  | "confirm" => some .confirm
  | "validate1" => some .validate1
  | "validate" => some .validate
  | "refuse" => some .refuse
  | "cancel" => some .cancel
  | _ => none

def RequestState.pending : RequestState → Bool
  | .draft | .draftEdit | .confirm | .validate1 => true
  | .draftCancel | .validate | .refuse | .cancel => false

def RequestState.terminal : RequestState → Bool
  | .refuse | .cancel => true
  | _ => false

/-- A row of `time_off_requests`. -/
structure Row extends Captured where
  state : RequestState
  localRecord : Bool
  odooLeaveId : Option ℤ
  deriving DecidableEq

/-! ## Notifications -/

inductive Kind where
  | approved
  | denied
  | cancelled
  deriving DecidableEq, Repr

def resolutionKind : RequestState → Option Kind
  | .validate => some .approved
  | .refuse => some .denied
  | .cancel => some .cancelled
  | _ => none

/-- The notifications of the request by their kind, and whether they are acknowledged. The others
are shown. -/
abbrev Notes := Kind → Option Bool

def createTimeOffNotification (notes : Notes) (kind : Kind) : Notes :=
  if notes kind = none then Function.update notes kind (some false) else notes

def suppressResolution (notes : Notes) (kind : Kind) : Notes :=
  Function.update notes kind (some true)

def unsuppressResolution (notes : Notes) (kind : Kind) : Notes :=
  if notes kind = some true then Function.update notes kind none else notes

def maybeNotifyResolution (enabled : Bool) (today : ℤ) (notes : Notes) (old new : Row) : Notes :=
  if enabled then
    match resolutionKind new.state with
    | none => notes
    | some kind =>
        if old.state = .draftCancel ∨ new.dateTo < today then notes
        else createTimeOffNotification notes kind
  else notes

/-! ## The mirror -/

/-- What the mirror stores of a leave, unless the table does not take it. -/
def mirror (shift : ShiftBounds) (leave : Leave) : Option (RequestState × Captured) := do
  let state ← RequestState.ofString leave.state
  let personOdooId ← leave.employeeId
  let dateFrom ← leave.requestDateFrom
  let dateTo ← leave.requestDateTo
  let (shape, hourFrom, hourTo) := mirrorShapeAndHours shift leave
  pure (state, ⟨personOdooId, dateFrom, dateTo, shape, hourFrom, hourTo⟩)

def unchanged (existing : Row) (state : RequestState) (captured : Captured) : Bool :=
  existing.state = state ∧ existing.personOdooId = captured.personOdooId ∧
    existing.shape = captured.shape ∧ existing.dateFrom = captured.dateFrom ∧
    existing.dateTo = captured.dateTo ∧ hoursEq existing.hourFrom captured.hourFrom ∧
    hoursEq existing.hourTo captured.hourTo

/-! ## Calls -/

/-- What a push does. -/
inductive Push where
  | create
  | edit
  | cancel
  /-- The edit of a local record is dropped. -/
  | restore
  deriving DecidableEq, Repr

/-- Where the approve call is. -/
inductive Phase where
  | idle
  | pushing
  | calling (push : Push)
  | updating (push : Push)
  | loading
  | approving
  | setting (state : RequestState)
  | suppressing
  | refusing
  | unsuppressing
  | recording
  /-- It recorded the approval here. -/
  | recorded
  /-- Odoo did not refuse. -/
  | aborted
  | ended
  deriving DecidableEq, Repr

def Phase.isOver : Phase → Bool
  | .recorded | .aborted | .ended => true
  | _ => false

/-- The leave that a pass of the poll fetched, whether it deletes what it did not fetch, and the
days it is about. -/
structure Pass where
  leave : Option Leave
  deletes : Bool
  window : ℤ × ℤ

inductive Poll where
  | fetched (pass : Pass)
  | read (pass : Pass) (existing : Option Row)
  | notifying (pass : Pass) (old new : Row)
  | selecting (pass : Pass)
  | deleting

/-- Where a deny is; it refuses the leave of the row it loaded. -/
inductive Deny where
  | refusing (row : Row)
  | settling

structure Site where
  shift : ShiftBounds
  leaveId : ℤ

/-- It also knows whether the approve call refused the leave, and whether a deny settled since the
approval was recorded. -/
structure World where
  row : Option Row
  odoo : Option Leave
  notes : Notes
  approve : Phase
  polls : ℕ → Option Poll
  denies : ℕ → Option Deny
  refused : Bool
  denied : Bool

inductive Refusal where
  | done
  | raised (landed : Bool)
  deriving DecidableEq, Repr

inductive Action where
  | load
  | readPush
  /-- Another request has the days, and the row is deleted. -/
  | dropRow
  | callOdoo (leave : Option Leave)
  | update
  | failPush
  | reload
  /-- Odoo answers a state, or raises a conflict with the work schedule or something else. -/
  | approveLeave (answer : Except Bool String)
  | setState
  | suppress (ok : Bool)
  | refuse (refusal : Refusal)
  | unsuppress (ok : Bool)
  | record (ok : Bool)
  | die
  | odooChanges (leave : Option Leave)
  /-- A pass fetches; Odoo lists the leave if it has it, and if it is one of those that are asked
  for. -/
  | fetchLeaves (poll : ℕ) (listed deletes : Bool) (window : ℤ × ℤ)
  | readExisting (poll : ℕ)
  | upsert (poll : ℕ) (ok : Bool)
  | notify (poll : ℕ) (enabled : Bool) (today : ℤ) (ok : Bool)
  | selectMissing (poll : ℕ)
  | deleteRow (poll : ℕ) (ok : Bool)
  | loadDeny (deny : ℕ)
  | refuseDeny (deny : ℕ) (refusal : Refusal)
  | settleDeny (deny : ℕ) (ok : Bool)

def loadRequest : Option Row → Phase
  | none => .ended
  | some row =>
      if row.state.pending then
        if row.odooLeaveId.isSome ∧ row.state ≠ .draftEdit then .approving else .pushing
      else .ended

def pushOne : Option Row → Phase
  | none => .loading
  | some row =>
      if row.odooLeaveId = none then .calling .create
      else
        match row.state with
        | .draftEdit => if row.localRecord then .updating .restore else .calling .edit
        | .draftCancel => if row.localRecord then .updating .cancel else .calling .cancel
        | _ => .loading

def Push.apply (leaveId : ℤ) (row : Row) : Push → Row
  | .create => { row with odooLeaveId := some leaveId, state := .confirm }
  | .edit => { row with state := .confirm }
  | .cancel => { row with state := .refuse }
  | .restore => { row with state := .validate }

def refuseLeave (leave : Leave) : Leave := { leave with state := "refuse" }

/-- Odoo refuses a leave that it has and that is not refused. -/
def Refusal.result (refusal : Refusal) (odoo : Option Leave) : Option (Option Leave) :=
  match refusal with
  | .done => if ∃ leave ∈ odoo, leave.state ≠ "refuse" then some (odoo.map refuseLeave) else none
  | .raised landed => some (if landed then odoo.map refuseLeave else odoo)

def World.setPoll (world : World) (poll : ℕ) (state : Option Poll) : World :=
  { world with polls := Function.update world.polls poll state }

def World.setDeny (world : World) (deny : ℕ) (state : Option Deny) : World :=
  { world with denies := Function.update world.denies deny state }

/-- The row as the mirror of a leave, unless it is a local record. -/
def mirrorRow (state : RequestState) (captured : Captured) (row : Row) : Row :=
  if row.localRecord then row else { row with toCaptured := captured, state := state }

/-- The mirror stores a leave. The write leaves out local records. -/
def upsertOne (shift : ShiftBounds) (poll : ℕ) (pass : Pass) (world : World) (leave : Leave)
    (existing : Row) (ok : Bool) : World :=
  if existing.localRecord then world.setPoll poll (some (.selecting pass))
  else
    match mirror shift leave with
    | none => world.setPoll poll none
    | some (state, captured) =>
        if unchanged existing state captured then world.setPoll poll (some (.selecting pass))
        else if ok then
          { world with row := world.row.map (mirrorRow state captured) }.setPoll poll
            (some (if (∃ row ∈ world.row, row.localRecord = false) ∧ existing.state ≠ state then
              .notifying pass existing { existing with toCaptured := captured, state := state }
            else .selecting pass))
        else world.setPoll poll none

def selected (window : ℤ × ℤ) (row : Row) : Bool :=
  row.odooLeaveId.isSome ∧ row.localRecord = false ∧ window.1 ≤ row.dateTo ∧
    row.dateFrom ≤ window.2

def step (site : Site) (world : World) : Action → Option World
  | .load =>
      if world.approve = .idle then some { world with approve := loadRequest world.row } else none
  | .readPush =>
      if world.approve = .pushing then some { world with approve := pushOne world.row } else none
  | .dropRow =>
      if world.approve = .calling .create then
        some { world with row := none, approve := .loading }
      else none
  | .callOdoo leave =>
      match world.approve with
      | .calling push => some { world with odoo := leave, approve := .updating push }
      | _ => none
  | .update =>
      match world.approve with
      | .updating push =>
          some { world with
            row := world.row.map fun row => push.apply site.leaveId row, approve := .loading }
      | _ => none
  | .failPush =>
      match world.approve with
      | .calling _ | .updating _ => some { world with approve := .loading }
      | _ => none
  | .reload =>
      if world.approve = .loading then
        some { world with
          approve := if ∃ row ∈ world.row, row.odooLeaveId ≠ none then .approving else .ended }
      else none
  | .approveLeave answer =>
      if world.approve = .approving then
        some { world with
          approve := match answer with
            | .error true => .suppressing
            | .error false => .ended
            | .ok state => match RequestState.ofString state with
                | some state => .setting state
                | none => .ended }
      else none
  | .setState =>
      match world.approve with
      | .setting state =>
          some { world with
            row := world.row.map fun row => { row with state := state, localRecord := false }
            approve := .ended }
      | _ => none
  | .suppress ok =>
      if world.approve = .suppressing then
        some { world with
          notes := if ok then suppressResolution world.notes .denied else world.notes
          approve := .refusing }
      else none
  | .refuse refusal =>
      if world.approve = .refusing then
        (refusal.result world.odoo).map fun odoo =>
          { world with
            odoo
            approve := if refusal = .done then .recording else .unsuppressing
            refused := world.refused || refusal != .raised false }
      else none
  | .unsuppress ok =>
      if world.approve = .unsuppressing then
        some { world with
          notes := if ok then unsuppressResolution world.notes .denied else world.notes
          approve := .aborted }
      else none
  | .record ok =>
      if world.approve = .recording then
        if ok then
          some { world with
            row := world.row.map fun row => { row with state := .validate, localRecord := true }
            approve := .recorded
            denied := false }
        else some { world with approve := .ended }
      else none
  | .die => if world.approve.isOver then none else some { world with approve := .ended }
  | .odooChanges leave => some { world with odoo := leave }
  | .fetchLeaves poll listed deletes window =>
      if (world.polls poll).isNone then
        some (world.setPoll poll (some (.fetched
          ⟨if listed then world.odoo else none, deletes, window⟩)))
      else none
  | .readExisting poll =>
      match world.polls poll with
      | some (.fetched pass) =>
          some (world.setPoll poll (some (.read pass
            (world.row.filter fun row => row.odooLeaveId = some site.leaveId))))
      | _ => none
  | .upsert poll ok =>
      match world.polls poll with
      | some (.read pass existing) =>
          match pass.leave, existing with
          | some leave, some existing =>
              some (upsertOne site.shift poll pass world leave existing ok)
          -- A leave without a row is stored in another row.
          | _, _ => some (world.setPoll poll (some (.selecting pass)))
      | _ => none
  | .notify poll enabled today ok =>
      match world.polls poll with
      | some (.notifying pass old new) =>
          some ({ world with
            notes := if ok then maybeNotifyResolution enabled today world.notes old new
              else world.notes }.setPoll poll (some (.selecting pass)))
      | _ => none
  | .selectMissing poll =>
      match world.polls poll with
      | some (.selecting pass) =>
          some (world.setPoll poll
            (if pass.deletes ∧ pass.leave = none ∧ ∃ row ∈ world.row, selected pass.window row then
              some .deleting
            else none))
      | _ => none
  | .deleteRow poll ok =>
      match world.polls poll with
      | some .deleting =>
          some ({ world with row := if ok then none else world.row }.setPoll poll none)
      | _ => none
  | .loadDeny deny =>
      if (world.denies deny).isNone then
        some (world.setDeny deny
          (match world.row with
            | none => none
            | some row =>
                if row.state.terminal then none
                else if row.odooLeaveId.isSome ∧ row.localRecord = false then some (.refusing row)
                else some .settling))
      else none
  | .refuseDeny deny refusal =>
      match world.denies deny with
      | some (.refusing _) =>
          (refusal.result world.odoo).map fun odoo =>
            ({ world with odoo } : World).setDeny deny
              (if refusal = .done then some .settling else none)
      | _ => none
  | .settleDeny deny ok =>
      match world.denies deny with
      | some .settling =>
          if ok then
            some (({ world with
              row := world.row.map fun row => { row with state := .refuse, localRecord := false }
              denied := true } : World).setDeny deny none)
          else some (world.setDeny deny none)
      | _ => none

def World.initial (row : Option Row) (odoo : Option Leave) (notes : Notes) : World :=
  ⟨row, odoo, notes, .idle, fun _ => none, fun _ => none, false, false⟩

end PlantManager.TimeOff.LocalRecord
