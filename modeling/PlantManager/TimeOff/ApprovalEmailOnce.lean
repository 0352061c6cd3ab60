import PlantManager.TimeOff.ApprovalEmail

/-! # The approval email is created once

Every history of the worker is lawful (`TimeOff.Follows`): a create is sent only when
Odoo rejected all creates before, and in a pass that saw the request approved, and no row is marked
again after the worker was done with it. A row that is pending has no mail and none in flight
(`TimeOff.Quiet`), so a pass that goes on to a create finds nothing there.
-/

namespace PlantManager.TimeOff

open Transition

/-! ## Histories -/

/-- What happened in this pass. -/
def thisPass (history : List Event) : List Event :=
  history.takeWhile fun event => event ≠ .began

variable {event : Event} {captured : Captured} {outbox : Outbox} {world : World}
  {state : EmailState} {mailId : Option ℤ}

theorem mem_thisPass_cons {other : Event} {past : List Event} (begins : other ≠ .began)
    (member : event ∈ thisPass past) : event ∈ thisPass (other :: past) := by
  unfold thisPass
  rw [List.takeWhile_cons_of_pos (by simpa using begins)]
  exact List.mem_cons_of_mem _ member

theorem head_mem_thisPass {past : List Event} (begins : event ≠ .began) :
    event ∈ thisPass (event :: past) := by
  unfold thisPass
  rw [List.takeWhile_cons_of_pos (by simpa using begins)]
  exact List.mem_cons_self

/-- This pass read the request and saw it approved with these fields; its leave too, unless the
request is kept by the plant alone. -/
def ApprovedIn (captured : Captured) (history : List Event) : Prop :=
  ∃ request today, .readRequest (some request) today ∈ thisPass history ∧
    requestApproved captured today request ∧
    (request.localRecord ∨ ∃ leaveId leave shift,
      request.odooLeaveId = some leaveId ∧ .readLeave leaveId [leave] shift ∈ thisPass history ∧
        leaveApproved captured shift leave)

variable {history : List Event} {delay : ℤ} {error : Option String} {payload : Payload}

theorem ApprovedIn.cons (approved : ApprovedIn captured history) (begins : event ≠ .began) :
    ApprovedIn captured (event :: history) := by
  obtain ⟨request, today, read, holds, known⟩ := approved
  refine ⟨request, today, mem_thisPass_cons begins read, holds, known.imp_right ?_⟩
  rintro ⟨leaveId, leave, shift, same, seen, matching⟩
  exact ⟨leaveId, leave, shift, same, mem_thisPass_cons begins seen, matching⟩

/-- Odoo rejected every create. -/
def AllRejected (history : List Event) : Prop :=
  ∀ captured outcome, .created captured outcome ∈ history → outcome = .rejected

/-- What the past of an event must be. -/
def Follows (past : List Event) : Event → Prop
  | .created captured _ => AllRejected past ∧ ApprovedIn captured past
  | .marked _ => ∀ state, .marked state ∈ past → state.live
  | _ => True

/-! ## The outbox -/

/-- No mail was created, and none can be. -/
structure Quiet (outbox : Outbox) : Prop where
  rejected : AllRejected outbox.history
  mails : outbox.mails = []
  inFlight : outbox.inFlight = []

structure Sound (outbox : Outbox) : Prop where
  lawful : Lawful Follows outbox.history
  single : outbox.mails.length + outbox.inFlight.length ≤ 1
  /-- A row that is yet to be captured, or pending, has no mail. -/
  quiet : (∀ row ∈ outbox.email, row.state = .pending) → Quiet outbox
  live : (∀ row ∈ outbox.email, row.state.live) →
    ∀ state, .marked state ∈ outbox.history → state.live
  captured : ∀ captured outcome, .created captured outcome ∈ outbox.history →
    ∃ row, outbox.email = some row ∧ row.toCaptured = captured

/-- An event that is neither a create nor a mark. -/
def Event.silent : Event → Bool
  | .created _ _ | .marked _ => false
  | _ => true

theorem AllRejected.cons_silent (quiet : event.silent) (rejected : AllRejected history) :
    AllRejected (event :: history) := by
  intro captured outcome member
  rcases List.mem_cons.mp member with rfl | earlier
  · cases quiet
  · exact rejected captured outcome earlier

def Outbox.note (outbox : Outbox) (event : Event) : Outbox :=
  { outbox with history := event :: outbox.history }

theorem Quiet.note (silent : event.silent) (quiet : Quiet outbox) : Quiet (outbox.note event) :=
  ⟨quiet.rejected.cons_silent silent, quiet.mails, quiet.inFlight⟩

theorem Sound.note {outbox : Outbox} {event : Event} (silent : event.silent)
    (sound : Sound outbox) : Sound (outbox.note event) where
  lawful := by
    refine ⟨?_, sound.lawful⟩
    cases event with
    | created _ _ => cases silent
    | marked _ => cases silent
    | _ => trivial
  single := sound.single
  quiet := fun pending => (sound.quiet pending).note silent
  live := by
    intro live state member
    rcases List.mem_cons.mp member with rfl | earlier
    · cases silent
    · exact sound.live live state earlier
  captured := by
    intro captured outcome member
    rcases List.mem_cons.mp member with rfl | earlier
    · cases silent
    · exact sound.captured captured outcome earlier

/-- A row that is captured has no mail yet. -/
theorem Sound.add {outbox : Outbox} (sound : Sound outbox) (absent : outbox.email = none)
    (row : EmailRow) : Sound { outbox with email := some row } where
  lawful := sound.lawful
  single := sound.single
  quiet := by
    intro _
    have none : Quiet outbox := sound.quiet (by simp [absent])
    exact ⟨none.rejected, none.mails, none.inFlight⟩
  live := fun _ => sound.live (by simp [absent])
  captured := by
    intro captured outcome member
    obtain ⟨row, same, -⟩ := sound.captured captured outcome member
    rw [absent] at same
    cases same

theorem become_outbox (here : world.email ≠ none) (outside : Outside) :
    (world.become outside).toOutbox = world.toOutbox := by
  obtain ⟨row, email⟩ := Option.ne_none_iff_exists'.mp here
  unfold World.become
  rw [email, Option.some_or, ← email]

theorem Sound.become (sound : Sound world.toOutbox) (outside : Outside) :
    Sound (world.become outside).toOutbox := by
  cases email : world.email with
  | some row =>
      rw [become_outbox (by simp [email])]
      exact sound
  | none =>
      cases added : capture world.outside.request outside with
      | none =>
          have same : (world.become outside).toOutbox = world.toOutbox := by
            unfold World.become
            rw [email, added, Option.none_or, ← email]
          rw [same]
          exact sound
      | some row =>
          have same : (world.become outside).toOutbox =
              { world.toOutbox with email := some row } := by
            unfold World.become
            rw [email, added, Option.none_or]
          rw [same]
          exact sound.add email row

/-! ## One row in a pass -/

/-- The worker has a row that is as it read it. -/
structure Ready (row : EmailRow) (outbox : Outbox) : Prop where
  sound : Sound outbox
  here : outbox.email = some row

def Outbox.mark (outbox : Outbox) (row : EmailRow) : Outbox :=
  { outbox with email := some row }.note (.marked row.state)

theorem AllRejected.marked (rejected : AllRejected history) :
    AllRejected (.marked state :: history) := by
  intro captured outcome member
  rcases List.mem_cons.mp member with same | earlier
  · cases same
  · exact rejected captured outcome earlier

theorem Quiet.mark {row : EmailRow} (quiet : Quiet outbox) : Quiet (outbox.mark row) :=
  ⟨quiet.rejected.marked, quiet.mails, quiet.inFlight⟩

theorem Sound.mark {row after : EmailRow} (sound : Sound outbox) (here : outbox.email = some row)
    (live : row.state.live) (same : after.toCaptured = row.toCaptured)
    (pending : after.state = .pending → Quiet outbox) : Sound (outbox.mark after) where
  lawful := ⟨sound.live (by simpa [here] using live), sound.lawful⟩
  single := sound.single
  quiet := fun waits => (pending (waits after rfl)).mark
  live := by
    intro lives state member
    rcases List.mem_cons.mp member with marked | earlier
    · cases marked
      exact lives after rfl
    · exact sound.live (by simpa [here] using live) state earlier
  captured := by
    intro captured outcome member
    rcases List.mem_cons.mp member with marked | earlier
    · cases marked
    · obtain ⟨other, known, rfl⟩ := sound.captured captured outcome earlier
      rw [here] at known
      cases known
      exact ⟨after, rfl, same⟩

/-- The worker marked the row that it read, and goes on with it. -/
structure Marked (captured : Captured) (state : EmailState) (outbox : Outbox) : Prop where
  sound : Sound outbox
  here : ∃ row, outbox.email = some row ∧ row.toCaptured = captured ∧ row.state = state

theorem Ready.marked {row : EmailRow} (ready : Ready row outbox) :
    Marked row.toCaptured row.state outbox :=
  ⟨ready.sound, row, ready.here, rfl, rfl⟩

theorem Marked.mark {old : EmailState} {row : EmailRow} (marked : Marked captured old outbox)
    (live : old.live) (here : outbox.email = some row) (after : EmailRow)
    (same : after.toCaptured = row.toCaptured) (pending : after.state = .pending → Quiet outbox) :
    Marked captured after.state (outbox.mark after) := by
  obtain ⟨sound, other, known, rfl, rfl⟩ := marked
  rw [here] at known
  cases known
  exact ⟨sound.mark here live same pending, after, rfl, same, rfl⟩

/-- All is ready for a create. -/
structure Going (captured : Captured) (outbox : Outbox) : Prop
    extends Marked captured .sending outbox where
  quiet : Quiet outbox
  approved : ApprovedIn captured outbox.history

theorem Marked.not_pending (marked : Marked captured .sending outbox) :
    ¬ ∀ row ∈ outbox.email, row.state = .pending := by
  obtain ⟨-, row, here, -, sending⟩ := marked
  intro pending
  have other := pending row here
  rw [sending] at other
  cases other

/-- The mails of a row do not matter while it is being sent. -/
theorem Marked.hold {captured : Captured} {outbox : Outbox}
    (marked : Marked captured .sending outbox) {mails : List Mail} {inFlight : List Payload}
    (single : mails.length + inFlight.length ≤ 1) :
    Marked captured .sending { outbox with mails, inFlight } where
  sound := {
    lawful := marked.sound.lawful
    single
    quiet := fun pending => absurd pending marked.not_pending
    live := marked.sound.live
    captured := marked.sound.captured }
  here := marked.here

/-- What came of a create is added to the history. -/
theorem Going.created (going : Going captured outbox) (outcome : Outcome) {mails : List Mail}
    {inFlight : List Payload} (single : mails.length + inFlight.length ≤ 1) :
    Marked captured .sending
      { outbox with mails, inFlight, history := .created captured outcome :: outbox.history } where
  sound := {
    lawful := ⟨⟨going.quiet.rejected, going.approved⟩, going.sound.lawful⟩
    single
    quiet := fun pending => absurd pending going.not_pending
    live := by
      intro live state member
      rcases List.mem_cons.mp member with same | earlier
      · cases same
      · exact going.sound.live live state earlier
    captured := by
      intro other answer member
      rcases List.mem_cons.mp member with same | earlier
      · cases same
        obtain ⟨row, here, same, -⟩ := going.here
        exact ⟨row, here, same⟩
      · exact going.sound.captured other answer earlier }
  here := going.here

/-! ## Calls -/

/-- A condition on the outbox. -/
def Of (condition : Outbox → Prop) (world : World) : Prop := condition world.toOutbox

theorem take_outbox (here : world.email ≠ none) :
    (channel.take world).2.toOutbox = world.toOutbox := by
  unfold channel
  dsimp only
  cases world.script with
  | nil => rfl
  | cons entry rest => exact become_outbox here _

section

variable {α : Type} {row : EmailRow} {before : Outbox → Prop} {after : α → World → Prop}
  {service : World → Except String (α × World)}

theorem ends_execute (ready : ∀ outbox, before outbox → Ready row outbox)
    (answered : ∀ world, before world.toOutbox → ∀ value last,
      service world = .ok (value, last) → after value last)
    (still : ∀ value last, after value last → Ready row last.toOutbox) :
    Job.Ends (Of before) (execute service) after (Of (Ready row)) (Of Sound) := by
  refine Job.Ends.call ?_ answered ?_ ?_
  · intro world holds
    have same : (channel.take world).2.toOutbox = world.toOutbox :=
      take_outbox (by simp [(ready _ holds).here])
    change before (channel.take world).2.toOutbox
    rw [same]
    exact holds
  · intro world holds value last served
    have done := still _ _ (answered (channel.failed world) holds value last served)
    exact ⟨done, done.sound⟩
  · intro world holds
    exact ⟨ready _ holds, (ready _ holds).sound⟩

theorem database_atomic (world : World) : (database.take world).1 ≠ .fails true := by
  change rolledBack (channel.take world).1 ≠ .fails true
  cases (channel.take world).1 <;> exact nofun

theorem ends_query {raises : Outbox → Prop} (here : ∀ outbox, before outbox → outbox.email ≠ none)
    (sound : ∀ outbox, before outbox → Sound outbox)
    (raised : ∀ outbox, before outbox → raises outbox)
    (answered : ∀ world, before world.toOutbox → ∀ value last,
      service world = .ok (value, last) → after value last)
    (still : ∀ value last, after value last → Sound last.toOutbox) :
    Job.Ends (Of before) (query service) after (Of raises) (Of Sound) := by
  refine Job.Ends.call_atomic database_atomic ?_ answered ?_ ?_
  · intro world holds
    change before (channel.take world).2.toOutbox
    rw [take_outbox (here _ holds)]
    exact holds
  · intro world holds value last served
    exact still _ _ (answered (database.failed world) holds value last served)
  · intro world holds
    exact ⟨raised _ holds, sound _ holds⟩

end

theorem ends_mark {before after raises : Outbox → Prop} {old : EmailState}
    (marked : ∀ outbox, before outbox → Marked captured old outbox)
    (raised : ∀ outbox, before outbox → raises outbox)
    (answered : ∀ outbox row next, before outbox → outbox.email = some row →
      after (outbox.mark (row.mark state error mailId next)))
    (still : ∀ outbox, after outbox → Sound outbox) :
    Job.Ends (Of before) (mark state error mailId delay) (fun _ => Of after) (Of raises)
      (Of Sound) := by
  have here : ∀ outbox, before outbox → ∃ row, outbox.email = some row := fun outbox holds =>
    let ⟨_, row, known, _⟩ := marked outbox holds
    ⟨row, known⟩
  refine ends_query ?_ ?_ raised ?_ ?_
  · intro outbox holds
    obtain ⟨row, known⟩ := here outbox holds
    simp [known]
  · exact fun outbox holds => (marked outbox holds).sound
  · intro world holds value last served
    obtain ⟨row, known⟩ := here _ holds
    cases served
    have done := answered world.toOutbox row (world.outside.now + delay) holds known
    rw [known]
    exact done
  · exact fun _ last => still last.toOutbox

/-! ## The steps of a pass -/

theorem Ready.note {row : EmailRow} (silent : event.silent) (ready : Ready row outbox) :
    Ready row (outbox.note event) :=
  ⟨ready.sound.note silent, ready.here⟩

/-- The row is as it was read, and this pass saw its request approved if it says so. -/
structure Checked (row : EmailRow) (approved : Bool) (outbox : Outbox) : Prop
    extends Ready row outbox where
  approved : approved → ApprovedIn row.toCaptured outbox.history

theorem Ready.unapproved {row : EmailRow} (ready : Ready row outbox) : Checked row false outbox :=
  ⟨ready, nofun⟩

theorem ends_currentRequest (row : EmailRow) :
    Job.Ends (Of (Ready row)) currentRequest
      (fun answer => Of fun outbox => Ready row outbox ∧
        .readRequest answer.1 answer.2 ∈ thisPass outbox.history)
      (Of (Ready row)) (Of Sound) := by
  refine ends_query ?_ ?_ ?_ ?_ ?_
  · intro outbox ready
    simp [ready.here]
  · exact fun _ ready => ready.sound
  · exact fun _ ready => ready
  · intro world ready value last served
    cases served
    exact ⟨ready.note rfl, head_mem_thisPass nofun⟩
  · exact fun _ _ done => done.1.sound

theorem ends_readLeave {row : EmailRow} {past : Event} (leaveId : ℤ) :
    Job.Ends (Of fun outbox => Ready row outbox ∧ past ∈ thisPass outbox.history)
      (readLeave leaveId)
      (fun answer => Of fun outbox => Ready row outbox ∧ past ∈ thisPass outbox.history ∧
        .readLeave leaveId answer.1 answer.2 ∈ thisPass outbox.history)
      (Of (Ready row)) (Of Sound) := by
  apply ends_execute
  · exact fun _ holds => holds.1
  · intro world holds value last served
    cases served
    exact ⟨holds.1.note rfl, mem_thisPass_cons nofun holds.2, head_mem_thisPass nofun⟩
  · exact fun _ _ done => done.1

theorem ends_stillApproved (row : EmailRow) :
    Job.Ends (Of (Ready row)) (stillApproved row.toCaptured)
      (fun approved => Of (Checked row approved)) (Of (Ready row)) (Of Sound) := by
  refine Job.Ends.bind _ (ends_currentRequest row) ?_
  rintro ⟨_ | request, today⟩
  · exact Job.Ends.pure fun _ holds => holds.1.unapproved
  dsimp only
  cases known : requestApproved row.toCaptured today request with
  | false => exact Job.Ends.pure fun _ holds => holds.1.unapproved
  | true =>
      simp only [Bool.not_true, Bool.false_eq_true, if_false]
      split
      · next alone =>
          exact Job.Ends.pure fun _ holds =>
            ⟨holds.1, fun _ => ⟨request, today, holds.2, known, .inl alone⟩⟩
      · cases identified : request.odooLeaveId with
        | none => exact Job.Ends.pure fun _ holds => holds.1.unapproved
        | some leaveId =>
            dsimp only
            split
            · exact Job.Ends.pure fun _ holds => holds.1.unapproved
            · refine Job.Ends.bind _ (ends_readLeave leaveId) ?_
              rintro ⟨leaves, shift⟩
              match leaves with
              | [] => exact Job.Ends.pure fun _ holds => holds.1.unapproved
              | [leave] =>
                  exact Job.Ends.pure fun _ holds => ⟨holds.1, fun agrees =>
                    ⟨request, today, holds.2.1, known,
                      .inr ⟨leaveId, leave, shift, identified, holds.2.2, agrees⟩⟩⟩
              | _ :: _ :: _ => exact Job.Ends.pure fun _ holds => holds.1.unapproved

theorem ends_raise {α : Type} {row : EmailRow} {before : Outbox → Prop} {after : α → World → Prop}
    (problem : Problem) (ready : ∀ outbox, before outbox → Ready row outbox) :
    Job.Ends (Of before) (raise problem) after (Of (Ready row)) (Of Sound) :=
  fun _ holds => ready _ holds

/-- A call that only looks. -/
theorem ends_look {α : Type} {row : EmailRow} {before : Outbox → Prop} {look : World → α}
    (ready : ∀ outbox, before outbox → Ready row outbox) :
    Job.Ends (Of before) (execute fun world => .ok (look world, world)) (fun _ => Of before)
      (Of (Ready row)) (Of Sound) := by
  apply ends_execute ready
  · intro world holds value last served
    cases served
    exact holds
  · exact fun _ last holds => ready _ holds

theorem ends_findMail (row : EmailRow) :
    Job.Ends (Of (Ready row)) (findMail row) (fun _ => Of (Ready row)) (Of (Ready row))
      (Of Sound) := by
  refine Job.Ends.bind _ (ends_look fun _ => id) ?_
  intro found
  match found with
  | [] => exact Job.Ends.pure fun _ => id
  | [(mail, state)] =>
      dsimp only
      cases mail.id with
      | none => exact ends_raise _ fun _ => id
      | some mailId =>
          dsimp only
          split
          · exact ends_raise _ fun _ => id
          · exact Job.Ends.pure fun _ => id
  | _ :: _ :: _ => exact ends_raise _ fun _ => id

/-- A row that is as it was read can be marked, and pending only if it was pending. -/
theorem ends_markReady {row : EmailRow} {before : Outbox → Prop} (live : row.state.live)
    (pending : state = .pending → row.state = .pending)
    (ready : ∀ outbox, before outbox → Ready row outbox) :
    Job.Ends (Of before) (mark state error mailId delay) (fun _ => Of Sound) (Of (Ready row))
      (Of Sound) := by
  apply ends_mark (fun outbox holds => (ready outbox holds).marked) ready
  · intro outbox other next holds here
    refine (ready outbox holds).sound.mark here ?_ rfl ?_
    · rw [(ready outbox holds).here] at here
      cases here
      exact live
    · intro waits
      refine (ready outbox holds).sound.quiet ?_
      rw [(ready outbox holds).here]
      rintro _ ⟨⟩
      exact pending waits
  · exact fun _ => id

theorem ends_observeMail {row : EmailRow} (live : row.state.live) (mailId : ℤ) (state : String) :
    Job.Ends (Of (Ready row)) (observeMail row mailId state) (fun _ => Of Sound) (Of (Ready row))
      (Of Sound) := by
  unfold observeMail
  split
  · exact ends_markReady live nofun fun _ => id
  split
  · refine Job.Ends.bind _ (ends_stillApproved row) ?_
    intro approved
    split
    · exact ends_markReady live nofun fun _ holds => holds.toReady
    · refine Job.Ends.bind _ (ends_look fun _ holds => holds.toReady) ?_
      exact fun _ => ends_markReady live nofun fun _ holds => holds.toReady
  · exact ends_markReady live nofun fun _ => id

/-- What a prepared row comes to. -/
def Prepared (row : EmailRow) : Option Payload → Outbox → Prop
  | none => Sound
  | some _ => Going row.toCaptured

theorem ends_settle {row : EmailRow} {before : Outbox → Prop} {error : String}
    (live : row.state.live) (pending : state = .pending → row.state = .pending)
    (ready : ∀ outbox, before outbox → Ready row outbox) :
    Job.Ends (Of before) (settle state error delay) (fun payload => Of (Prepared row payload))
      (Of (Ready row)) (Of Sound) :=
  Job.Ends.bind _ (ends_markReady live pending ready) fun _ => Job.Ends.pure fun _ => id

variable {texts : Texts} {row : EmailRow}

theorem ends_intend (pending : row.state = .pending) (address sender : String) :
    Job.Ends (Of (Checked row true)) (intend texts row address sender)
      (fun payload => Of (Prepared row payload)) (Of (Ready row)) (Of Sound) := by
  have live : row.state.live := by
    rw [pending]
    rfl
  have rendered : Job.Ends (Of (Checked row true)) (renderEmail texts row.toCaptured)
      (fun _ => Of (Checked row true)) (Of (Ready row)) (Of Sound) := by
    unfold renderEmail
    cases detail row.toCaptured with
    | none => exact ends_raise _ fun _ holds => holds.toReady
    | some _ => exact Job.Ends.pure fun _ => id
  refine Job.Ends.bind _ rendered ?_
  rintro ⟨subject, body⟩
  have marked : Job.Ends (Of (Checked row true)) (mark .sending none none 60)
      (fun _ => Of (Going row.toCaptured)) (Of (Ready row)) (Of Sound) := by
    apply ends_mark (fun _ holds => holds.toReady.marked) fun _ holds => holds.toReady
    · intro outbox other next holds here
      have quiet : Quiet outbox := holds.sound.quiet (by
        rw [holds.here]
        rintro _ ⟨⟩
        exact pending)
      exact {
        toMarked :=
          holds.toReady.marked.mark live here (other.mark .sending none none next) rfl nofun
        quiet := quiet.mark
        approved := (holds.approved rfl).cons nofun }
    · exact fun _ holds => holds.sound
  exact Job.Ends.bind _ marked fun _ => Job.Ends.pure fun _ => id

theorem ends_addressMail (pending : row.state = .pending) :
    Job.Ends (Of (Checked row true)) (addressMail texts row)
      (fun payload => Of (Prepared row payload)) (Of (Ready row)) (Of Sound) := by
  have live : row.state.live := by
    rw [pending]
    rfl
  have ready : ∀ outbox, Checked row true outbox → Ready row outbox := fun _ holds => holds.toReady
  refine Job.Ends.bind _ (ends_look ready) ?_
  intro employees
  match employees with
  | [] => exact ends_settle live nofun ready
  | [employee] =>
      dsimp only
      split
      · exact ends_settle live nofun ready
      split
      · exact ends_settle live nofun ready
      refine Job.Ends.bind (fun _ => Of (Checked row true)) (Job.Ends.read fun _ => id) ?_
      intro policy
      have chosen : Job.Ends (Of (Checked row true)) (recipient texts employee policy)
          (fun _ => Of (Checked row true)) (Of (Ready row)) (Of Sound) := by
        unfold recipient
        cases recipientFields employee policy with
        | none => exact ends_raise _ ready
        | some _ => exact Job.Ends.pure fun _ => id
      refine Job.Ends.bind _ chosen ?_
      rintro (_ | address)
      · exact ends_settle live (fun _ => pending) ready
      · have sender : Job.Ends (Of (Checked row true)) (senderAddress texts)
            (fun _ => Of (Checked row true)) (Of (Ready row)) (Of Sound) :=
          Job.Ends.bind _ (ends_look ready) fun _ => Job.Ends.pure fun _ => id
        refine Job.Ends.bind _ sender ?_
        rintro (_ | sender)
        · exact ends_settle live (fun _ => pending) ready
        · exact ends_intend pending address sender
  | _ :: _ :: _ => exact ends_settle live nofun ready

theorem ends_prepare (live : row.state.live) :
    Job.Ends (Of (Ready row)) (prepare texts row) (fun payload => Of (Prepared row payload))
      (Of (Ready row)) (Of Sound) := by
  refine Job.Ends.bind _ (ends_findMail row) ?_
  rintro (_ | ⟨mailId, state⟩)
  · dsimp only
    split
    · exact ends_settle live nofun fun _ => id
    · next fresh =>
        have pending : row.state = .pending := by
          cases known : row.state with
          | pending => rfl
          | sending => exact absurd (.inl known) fresh
          | queued => exact absurd (.inr known) fresh
          | _ =>
              rw [known] at live
              cases live
        refine Job.Ends.bind _ (ends_stillApproved row) ?_
        rintro (_ | _)
        · exact ends_settle live nofun fun _ holds => holds.toReady
        · exact ends_addressMail pending
  · exact Job.Ends.bind _ (ends_observeMail live mailId state) fun _ => Job.Ends.pure fun _ => id

/-- A create failed; nothing was created if Odoo says so. -/
structure Failed (captured : Captured) (world : World) : Prop
    extends Marked captured .sending world.toOutbox where
  quiet : world.raising = some .fault → Quiet world.toOutbox

theorem Going.failed (going : Going captured world.toOutbox) : Failed captured world :=
  ⟨going.toMarked, fun _ => going.quiet⟩

theorem Going.unanswered (going : Going captured world.toOutbox) (payload : Payload) :
    Failed captured (world.unanswered captured payload) := by
  have mails := going.quiet.mails
  have inFlight := going.quiet.inFlight
  unfold World.unanswered
  cases world.outside.problem with
  | fault =>
      refine ⟨going.created .rejected (by simp [mails, inFlight]), fun _ => ?_⟩
      refine ⟨fun captured outcome member => ?_, mails, inFlight⟩
      rcases List.mem_cons.mp member with same | earlier
      · cases same
        rfl
      · exact going.quiet.rejected captured outcome earlier
  | _ => exact ⟨going.created .unknown (by simp [mails, inFlight]), nofun⟩

theorem Going.answered {last : World} (going : Going captured world.toOutbox)
    (served : create captured payload world = .ok (mailId, last)) :
    Marked captured .sending last.toOutbox := by
  have mails := going.quiet.mails
  have inFlight := going.quiet.inFlight
  unfold create at served
  split at served
  · cases served
  · cases served
    exact going.toMarked.hold (by simp [mails, inFlight])
  · cases served
    exact going.created .answered (by simp [mails, inFlight])

/-- A create that took effect and was not answered. -/
theorem Going.unheard {last : World} (going : Going captured world.toOutbox)
    (served : create captured payload (world.unanswered captured payload) = .ok (mailId, last)) :
    Failed captured last := by
  have failed := (going.unanswered payload).toMarked
  have mails := going.quiet.mails
  have inFlight := going.quiet.inFlight
  unfold World.unanswered at served failed
  cases known : world.outside.problem with
  | fault =>
      rw [known] at served
      cases served
  | _ =>
      rw [known] at served failed
      cases served
      exact ⟨failed.hold (by simp [World.note, mails, inFlight]), nofun⟩

theorem ends_createMail (payload : Payload) :
    Job.Ends (Of (Going row.toCaptured)) (createMail row payload)
      (fun _ => Of (Marked row.toCaptured .sending)) (Failed row.toCaptured) (Of Sound) := by
  have taken : ∀ world, Of (Going row.toCaptured) world →
      Of (Going row.toCaptured) (channel.take world).2 := by
    intro world going
    obtain ⟨other, here, -, -⟩ := going.here
    change Going row.toCaptured (channel.take world).2.toOutbox
    rw [take_outbox (by simp [here])]
    exact going
  refine Job.Ends.bind (fun _ => Of (Going row.toCaptured)) ?_ fun _ => ?_
  · refine Job.Ends.call taken ?_ ?_ ?_
    · intro world going value last served
      cases served
      exact going
    · intro world going value last served
      cases served
      exact ⟨Going.failed going, going.sound⟩
    · exact fun world going => ⟨Going.failed going, going.sound⟩
  refine Job.Ends.bind (fun _ => Of (Marked row.toCaptured .sending)) ?_ ?_
  · refine Job.Ends.call taken ?_ ?_ ?_
    · exact fun world going value last served => Going.answered going served
    · intro world going value last served
      have failed := Going.unheard going served
      exact ⟨failed, failed.sound⟩
    · intro world going
      have failed := Going.unanswered going payload
      exact ⟨failed, failed.sound⟩
  · rintro (_ | mailId)
    · exact fun world marked => ⟨marked, nofun⟩
    · dsimp only
      split
      · exact fun world marked => ⟨marked, nofun⟩
      · exact Job.Ends.pure fun _ => id

/-- A row that is being sent can be marked, and pending only if nothing was created. -/
theorem ends_markSending {before : Outbox → Prop}
    (marked : ∀ outbox, before outbox → Marked captured .sending outbox)
    (quiet : state = .pending → ∀ outbox, before outbox → Quiet outbox) :
    Job.Ends (Of before) (mark state error mailId delay) (fun _ => Of Sound) (Of Sound)
      (Of Sound) := by
  apply ends_mark marked fun outbox holds => (marked outbox holds).sound
  · intro outbox row next holds here
    exact ((marked outbox holds).mark rfl here (row.mark state error mailId next) rfl
      fun waits => quiet waits outbox holds).sound
  · exact fun _ => id

theorem ends_processOne (live : row.state.live) :
    Job.Ends (Of (Ready row)) (processOne texts row) (fun _ => Of Sound) (Of Sound)
      (Of Sound) := by
  refine Job.Ends.bind
    (fun found => found.elim (Of (Ready row)) fun payload => Of (Prepared row payload)) ?_ ?_
  · exact Job.Ends.tried (ends_prepare live) (fun _ _ => id) fun _ => id
  rintro (_ | _ | payload)
  · -- The row is as it was read, so the state that is written is the state that it has.
    refine Job.Ends.bind (fun _ => Of (Ready row)) (Job.Ends.read fun _ => id) ?_
    intro raised
    have marks : ∀ state error delay, (state = .pending → row.state = .pending) →
        Job.Ends (Of (Ready row)) (mark state error none delay) (fun _ => Of Sound) (Of Sound)
          (Of Sound) := fun _ _ _ pending =>
      (ends_markReady live pending fun _ => id).weaken (fun _ => id) (fun _ _ => id)
        (fun _ ready => ready.sound) fun _ => id
    split
    · exact marks .attention _ _ (by rintro ⟨⟩)
    · exact marks row.state _ _ id
  · exact Job.Ends.pure fun _ => id
  · refine Job.Ends.bind
      (fun made => made.elim (Failed row.toCaptured) fun _ => Of (Marked row.toCaptured .sending))
      ?_ ?_
    · exact Job.Ends.tried (ends_createMail payload) (fun _ _ => id) fun _ => id
    rintro (_ | mailId)
    · refine Job.Ends.bind (fun raised => Of fun outbox => Marked row.toCaptured .sending outbox ∧
        (raised = some .fault → Quiet outbox))
          (Job.Ends.read fun _ failed => ⟨failed.toMarked, failed.quiet⟩) ?_
      intro raised
      split
      · next fault =>
          exact ends_markSending (fun _ holds => holds.1) fun _ _ holds => holds.2 fault
      · exact ends_markSending (fun _ holds => holds.1) (by rintro ⟨⟩)
    · exact ends_markSending (fun _ => id) (by rintro ⟨⟩)

theorem ends_runOnce : Job.Ends (Of Sound) (runOnce texts) (fun _ => Of Sound) (Of Sound)
    (Of Sound) := by
  refine Job.Ends.bind (fun _ => Of Sound) (Job.Ends.read fun _ => id) ?_
  intro enabled
  split
  · exact Job.Ends.pure fun _ => id
  have taken : ∀ world, Of Sound world → Of Sound (database.take world).2 := by
    intro world sound
    change Sound (channel.take world).2.toOutbox
    unfold channel
    dsimp only
    split
    · exact sound
    · exact Sound.become sound _
  refine Job.Ends.bind (fun due => due.elim (Of Sound) fun row world =>
    Ready row world.toOutbox ∧ row.state.live) ?_ ?_
  · refine Job.Ends.call taken ?_ ?_ ?_
    · intro world sound value last served
      cases served
      cases due : world.due with
      | none => exact sound
      | some row =>
          obtain ⟨here, picked⟩ := Option.filter_eq_some_iff.mp due
          simp only [Bool.and_eq_true] at picked
          exact ⟨⟨sound, here⟩, picked.1.1⟩
    · intro world sound value last served
      cases served
      exact ⟨sound, sound⟩
    · exact fun world sound => ⟨sound, sound⟩
  rintro (_ | row)
  · exact Job.Ends.pure fun _ => id
  · refine Job.Ends.bind (fun _ => Of Sound) ?_ fun _ => Job.Ends.pure fun _ => id
    exact fun world holds => ends_processOne holds.2 world holds.1

/-! ## Every history -/

/-- A create that takes effect late was in flight. -/
theorem Sound.lands (sound : Sound outbox) {rest : List Payload}
    (flying : outbox.inFlight = payload :: rest) (mail : Mail) :
    Sound { outbox with mails := mail :: outbox.mails, inFlight := rest } where
  lawful := sound.lawful
  single := by
    have single := sound.single
    rw [flying, List.length_cons] at single
    change outbox.mails.length + 1 + rest.length ≤ 1
    omega
  quiet := by
    intro pending
    have none := (sound.quiet pending).inFlight
    rw [flying] at none
    cases none
  live := sound.live
  captured := sound.captured

theorem Sound.step {next : World} {action : Action} (sound : Sound world.toOutbox)
    (taken : step texts world action = some next) : Sound next.toOutbox := by
  cases action with
  | pass script =>
      cases taken
      exact ends_runOnce.last (sound.note rfl)
  | others outside =>
      cases taken
      exact sound.become outside
  | lands =>
      unfold TimeOff.step at taken
      cases flying : world.inFlight with
      | nil =>
          rw [flying] at taken
          cases taken
      | cons payload rest =>
          rw [flying] at taken
          cases taken
          exact sound.lands flying _

theorem Occurs.sound {outside : Outside} (occurs : Occurs texts outside world) :
    Sound world.toOutbox := by
  have kept : ∀ world action next, Of Sound world → True →
      TimeOff.step texts world action = some next → Of Sound next :=
    fun _ _ _ sound _ taken => sound.step taken
  refine Reachable.invariant ?_ kept occurs
  exact ⟨trivial, Nat.zero_le 1, fun _ => ⟨nofun, rfl, rfl⟩, fun _ => nofun, nofun⟩

/-- A pass does nothing about a row that the worker is done with. -/
theorem ends_done (done : ¬ row.state.live) :
    Job.Ends (Of fun outbox => outbox.email = some row) (runOnce texts)
      (fun _ => Of fun outbox => outbox.email = some row)
      (Of fun outbox => outbox.email = some row) (Of fun outbox => outbox.email = some row) := by
  have skipped : ∀ world : World, world.email = some row → world.due = none := by
    intro world here
    unfold World.due
    rw [here, Option.filter_some, if_neg]
    simp [done]
  refine Job.Ends.bind (fun _ => Of fun outbox => outbox.email = some row)
    (Job.Ends.read fun _ => id) ?_
  intro enabled
  split
  · exact Job.Ends.pure fun _ => id
  refine Job.Ends.bind (fun due world => world.email = some row ∧ due = none) ?_ ?_
  · refine Job.Ends.call ?_ ?_ ?_ ?_
    · intro world here
      change (channel.take world).2.toOutbox.email = some row
      rw [take_outbox (by simp [show world.email = some row from here])]
      exact here
    · intro world here value last served
      cases served
      exact ⟨here, skipped world here⟩
    · intro world here value last served
      cases served
      exact ⟨here, here⟩
    · exact fun _ here => ⟨here, here⟩
  · intro due world holds
    obtain ⟨here, rfl⟩ := holds
    exact here

theorem done_stays {next : World} {action : Action} (here : world.email = some row)
    (done : ¬ row.state.live) (taken : step texts world action = some next) :
    next.email = some row := by
  cases action with
  | pass script =>
      cases taken
      exact (ends_done done).last here
  | others outside =>
      cases taken
      have same : (world.become outside).toOutbox = world.toOutbox :=
        become_outbox (by simp [here]) outside
      rw [← here, same]
  | lands =>
      unfold TimeOff.step at taken
      cases flying : world.inFlight with
      | nil =>
          rw [flying] at taken
          cases taken
      | cons payload rest =>
          rw [flying] at taken
          cases taken
          exact here

/-! ## The guarantee -/

/-- At most one mail is created for a request. A create is sent only when Odoo rejected all
creates before, in a pass that saw the request approved as it was captured, and nothing changes a
row that was sent, skipped or left to a human. -/
theorem approval_email_once {outside : Outside} {world : World}
    (occurs : Occurs texts outside world) :
    world.mails.length ≤ 1 ∧
    (∀ later past captured outcome, world.history = later ++ .created captured outcome :: past →
      AllRejected past ∧ ApprovedIn captured past ∧
        ∃ row, world.email = some row ∧ row.toCaptured = captured) ∧
    (∀ later past state, world.history = later ++ .marked state :: past →
      ∀ earlier, .marked earlier ∈ past → earlier.live) ∧
    ∀ row, world.email = some row → ¬ row.state.live →
      ∀ action next, step texts world action = some next → next.email = some row := by
  have sound := occurs.sound
  refine ⟨?_, ?_, ?_, ?_⟩
  · have single := sound.single
    omega
  · intro later past captured outcome same
    obtain ⟨rejected, approved⟩ := sound.lawful.follows same
    have member : .created captured outcome ∈ world.history := by
      rw [same]
      exact List.mem_append_right _ List.mem_cons_self
    exact ⟨rejected, approved, sound.captured captured outcome member⟩
  · intro later past state same
    exact sound.lawful.follows same
  · exact fun row here done action next taken => done_stays here done taken

/-! ## A create that is given up -/

/-- A request that is approved, in a plant where each call answers. -/
def calm : Outside :=
  { request := some {
      personOdooId := 7
      dateFrom := 10
      dateTo := 11
      shape := .fullDay
      hourFrom := none
      hourTo := none
      state := "validate"
      localRecord := true
      odooLeaveId := none
      approvalSourceUpdatedAt := some 1
      lastPulledAt := none }
    leaves := fun _ => []
    employees := fun _ => [⟨7, true, some "ana@plant.test", none⟩]
    emailFrom := some "plant@plant.test"
    mailState := fun _ => none
    newMailId := some 41
    problem := .other
    now := 100
    today := 9
    installedAt := 0
    shift := ⟨7, 15⟩
    deliveryKey := "key"
    enabled := "1"
    policy := "personal_then_work"
    crowded := false }

/-- The texts as they are where nothing is to be changed. -/
def plainTexts : Texts := ⟨fun _ => "2026-01-10", id, id⟩

/-- The request is captured, and the create of the first pass is not answered. It takes effect
after the pass, and a later pass does not find it. -/
def givenUp : List Action :=
  [.others calm,
    .pass ((List.replicate 7 (.answers, calm)) ++ [(.fails false, calm)]),
    .lands,
    .others { calm with now := 2000 },
    .pass []]

def givenUpWorld : World :=
  after (step plainTexts) givenUp (World.initial { calm with request := none })

theorem givenUp_occurs : Occurs plainTexts { calm with request := none } givenUpWorld :=
  Reachable.after (fun _ _ _ => trivial) .initial

/-- The create took effect, and the pass that came later sent none. -/
theorem approval_email_once_givenUp :
    (givenUpWorld.mails.length = 1 ∧ givenUpWorld.email.map (·.state) = some .sending) ∧
    givenUpWorld.mails.length ≤ 1 ∧
    (∀ later past captured outcome,
      givenUpWorld.history = later ++ .created captured outcome :: past →
      AllRejected past ∧ ApprovedIn captured past ∧
        ∃ row, givenUpWorld.email = some row ∧ row.toCaptured = captured) ∧
    (∀ later past state, givenUpWorld.history = later ++ .marked state :: past →
      ∀ earlier, .marked earlier ∈ past → earlier.live) ∧
    ∀ row, givenUpWorld.email = some row → ¬ row.state.live →
      ∀ action next, step plainTexts givenUpWorld action = some next → next.email = some row :=
  ⟨by decide +kernel, approval_email_once givenUp_occurs⟩

end PlantManager.TimeOff
