import PlantManager.TimeOff.LocalRecord

/-! # Replaying a local record

A pass of the backfill replays an absence that is recorded locally into its refused leave and then
hands the row back to the mirror (`TimeOff.LocalReplay.Phase`). Managers deny the
request and polls mirror the leave in between. There is one row and its leave, which nobody else
changes in Odoo. A call to Odoo takes effect or fails without effect, but the leave is always refused
again.
-/

namespace PlantManager.TimeOff.LocalReplay

open LocalRecord (Row Notes Kind RequestState suppressResolution unsuppressResolution
  maybeNotifyResolution mirror unchanged mirrorRow)

/-- Where a pass is. -/
inductive Phase where
  /-- The row was read. -/
  | chosen
  | resetting
  /-- The leave is approved in so many rounds, each of which reads its state first. -/
  | approving (rounds : ℕ)
  | acting (rounds : ℕ) (confirms : Bool)
  /-- The attempt failed, and the leave is refused again. -/
  | refusing
  /-- The row is handed back; the leave may have been validated before. -/
  | adopting (before : Bool)
  /-- The row was settled here in between, and the leave is refused again. -/
  | undoing
  | suppressing
  | unsuppressing
  deriving DecidableEq, Repr

/-- Where a poll is, with the leave that it fetched and the row that it read. -/
inductive Poll where
  | fetched (leave : Leave)
  | read (leave : Leave) (existing : Row)
  | notifying (old new : Row)

/-- Where a denial is; it knows whether it loaded a local record. -/
inductive Deny where
  | refusing
  | settling (loadedLocal : Bool)

/-- It also knows whether a denial loaded the row, and whether one returned success. -/
structure World where
  row : Row
  leave : Leave
  notes : Notes
  passes : ℕ → Option Phase
  polls : ℕ → Option Poll
  denies : ℕ → Option Deny
  begun : Bool
  denied : Bool

inductive Action where
  | readRows (pass : ℕ)
  /-- Odoo would not accept the leave yet. -/
  | skip (pass : ℕ)
  | fetchState (pass : ℕ) (ok : Bool)
  | reset (pass : ℕ) (ok : Bool)
  | readLeave (pass : ℕ) (ok : Bool)
  /-- Odoo confirms or approves the leave, which is then in a state, or fails. -/
  | act (pass : ℕ) (answer : Option String)
  | refuseAgain (pass : ℕ)
  | adopt (pass : ℕ) (ok : Bool)
  | suppress (pass : ℕ) (ok : Bool)
  | unsuppress (pass : ℕ) (ok : Bool)
  | die (pass : ℕ)
  | fetchLeaves (poll : ℕ)
  | readExisting (poll : ℕ)
  | upsert (poll : ℕ) (ok : Bool)
  | notify (poll : ℕ) (enabled : Bool) (today : ℤ) (ok : Bool)
  | loadDeny (deny : ℕ)
  | refuseDeny (deny : ℕ) (ok : Bool)
  | settleDeny (deny : ℕ) (ok : Bool)

def World.setPass (world : World) (pass : ℕ) (phase : Option Phase) : World :=
  { world with passes := Function.update world.passes pass phase }

def World.setPoll (world : World) (poll : ℕ) (state : Option Poll) : World :=
  { world with polls := Function.update world.polls poll state }

def World.setDeny (world : World) (deny : ℕ) (state : Option Deny) : World :=
  { world with denies := Function.update world.denies deny state }

def World.setLeave (world : World) (state : String) : World :=
  { world with leave := { world.leave with state } }

/-- What a pass does with a leave in a state. -/
def attempt : String → Phase
  | "validate" => .adopting true
  | "refuse" | "cancel" => .resetting
  | _ => .approving 3

/-- What a round of the approval does with a leave in a state. -/
def round (rounds : ℕ) (state : String) : Phase :=
  match rounds, state with
  | rounds + 1, "draft" => .acting rounds true
  | rounds + 1, "confirm" | rounds + 1, "validate1" => .acting rounds false
  | _, "validate" => .adopting false
  | _, _ => .refusing

/-- Whether Odoo can confirm or approve a leave so that it is in another state. -/
def Acts (confirms : Bool) (before after : String) : Prop :=
  if confirms then before = "draft" ∧ after = "confirm"
  else before ∈ ["confirm", "validate1"] ∧ after ∈ ["validate1", "validate"]

instance (confirms : Bool) (before after : String) : Decidable (Acts confirms before after) :=
  inferInstanceAs (Decidable (if confirms then before = "draft" ∧ after = "confirm"
    else before ∈ ["confirm", "validate1"] ∧ after ∈ ["validate1", "validate"]))

/-- The row is handed back if it is still an approved local record. -/
def adoptRow (row : Row) : Option Row :=
  if row.localRecord ∧ row.state = .validate then some { row with localRecord := false } else none

/-- A poll mirrors a leave into the row, unless that is a local record. -/
def upsertOne (shift : ShiftBounds) (world : World) (poll : ℕ) (leave : Leave) (existing : Row)
    (ok : Bool) : World :=
  if existing.localRecord then world.setPoll poll none
  else
    match mirror shift leave with
    | none => world.setPoll poll none
    | some (state, captured) =>
        if unchanged existing state captured ∨ ok = false then world.setPoll poll none
        else
          { world with row := mirrorRow state captured world.row }.setPoll poll
            (if world.row.localRecord = false ∧ existing.state ≠ state then
              some (.notifying existing { existing with toCaptured := captured, state := state })
            else none)

def step (shift : ShiftBounds) (world : World) : Action → Option World
  | .readRows pass =>
      if world.passes pass = none ∧ world.row.localRecord = true ∧ world.row.state = .validate then
        some (world.setPass pass (some .chosen))
      else none
  | .skip pass =>
      if world.passes pass = some .chosen then some (world.setPass pass none) else none
  | .fetchState pass ok =>
      if world.passes pass = some .chosen then
        some (world.setPass pass (if ok then some (attempt world.leave.state) else none))
      else none
  | .reset pass ok =>
      if world.passes pass = some .resetting then
        some (if ok then (world.setLeave "confirm").setPass pass (some (.approving 3))
          else world.setPass pass (some .refusing))
      else none
  | .readLeave pass ok =>
      match world.passes pass with
      | some (.approving rounds) =>
          some (world.setPass pass
            (some (if ok then round rounds world.leave.state else .refusing)))
      | _ => none
  | .act pass answer =>
      match world.passes pass, answer with
      | some (.acting _ _), none => some (world.setPass pass (some .refusing))
      | some (.acting rounds confirms), some state =>
          if Acts confirms world.leave.state state then
            some ((world.setLeave state).setPass pass (some (.approving rounds)))
          else none
      | _, _ => none
  | .refuseAgain pass =>
      match world.passes pass with
      | some .refusing | some .undoing => some ((world.setLeave "refuse").setPass pass none)
      | _ => none
  | .adopt pass ok =>
      match world.passes pass with
      | some (.adopting before) =>
          if ok then
            match adoptRow world.row with
            | some row => some ({ world with row }.setPass pass (some .suppressing))
            | none => some (world.setPass pass (if before then none else some .undoing))
          else some (world.setPass pass none)
      | _ => none
  | .suppress pass ok =>
      if world.passes pass = some .suppressing then
        some (if ok then
            { world with notes := suppressResolution world.notes .approved }.setPass pass
              (some .unsuppressing)
          else world.setPass pass none)
      else none
  | .unsuppress pass ok =>
      if world.passes pass = some .unsuppressing then
        some ({ world with
          notes := if ok then unsuppressResolution world.notes .denied else world.notes
          }.setPass pass none)
      else none
  | .die pass => (world.passes pass).map fun _ => world.setPass pass none
  | .fetchLeaves poll =>
      if (world.polls poll).isNone then
        some (world.setPoll poll (some (.fetched world.leave)))
      else none
  | .readExisting poll =>
      match world.polls poll with
      | some (.fetched leave) => some (world.setPoll poll (some (.read leave world.row)))
      | _ => none
  | .upsert poll ok =>
      match world.polls poll with
      | some (.read leave existing) => some (upsertOne shift world poll leave existing ok)
      | _ => none
  | .notify poll enabled today ok =>
      match world.polls poll with
      | some (.notifying old new) =>
          some ({ world with
            notes := if ok then maybeNotifyResolution enabled today world.notes old new
              else world.notes }.setPoll poll none)
      | _ => none
  | .loadDeny deny =>
      if (world.denies deny).isNone then
        some (if world.row.state.terminal then { world with denied := true }
          else { world with begun := true }.setDeny deny
            (some (if world.row.localRecord then .settling true else .refusing)))
      else none
  | .refuseDeny deny ok =>
      match world.denies deny with
      | some .refusing =>
          if ok then
            -- Odoo refuses no leave that is refused already.
            if world.leave.state ≠ "refuse" then
              some ((world.setLeave "refuse").setDeny deny (some (.settling false)))
            else none
          else some (world.setDeny deny none)
      | _ => none
  | .settleDeny deny ok =>
      match world.denies deny with
      | some (.settling _) =>
          some (if ok then
            { world with
              row := { world.row with state := .refuse, localRecord := false }
              denied := true }.setDeny deny none
          else world.setDeny deny none)
      | _ => none

/-- Nothing runs yet. -/
def World.initial (row : Row) (leave : Leave) (notes : Notes) : World :=
  ⟨row, leave, notes, fun _ => none, fun _ => none, fun _ => none, false, false⟩

end PlantManager.TimeOff.LocalReplay
