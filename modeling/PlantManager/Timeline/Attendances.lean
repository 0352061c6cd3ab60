import Mathlib

/-! # Attendances of a log of signs

A log of sign-ins and sign-outs, latest first, and the attendances between them
(`Timeline.attendances`). When the signs are in the order of their moments and nobody
signs in twice, no attendance ends before it begins and none overlaps another
(`Timeline.orderly_attendances`).
-/

namespace PlantManager.Timeline

inductive Sign where
  | signIn
  | signOut
  deriving DecidableEq

section Log

variable {T : Type*}

/-- Since when the latest sign is a sign-in. -/
def openSince : List (Sign × T) → Option T
  | (.signIn, moment) :: _ => some moment
  | _ => none

def lastOut (log : List (Sign × T)) : Option T :=
  (log.find? fun sign => sign.1 = .signOut).map Prod.snd

/-- The attendances, latest first; one without an end goes on. A sign-out without one that goes on
changes nothing. -/
def attendances : List (Sign × T) → List (T × Option T)
  | [] => []
  | (.signIn, moment) :: earlier => (moment, none) :: attendances earlier
  | (.signOut, moment) :: earlier =>
      match attendances earlier with
      | (start, none) :: rest => (start, some moment) :: rest
      | closed => closed

end Log

variable {T : Type*} [LinearOrder T]

/-- Attendances that do not end before they begin, nor overlap. -/
structure Orderly (intervals : List (T × Option T)) : Prop where
  forward : ∀ interval ∈ intervals, ∀ stop ∈ interval.2, interval.1 ≤ stop
  follow : intervals.Pairwise fun later earlier => ∃ stop ∈ earlier.2, stop ≤ later.1

/-- Signs in the order of their moments, no two sign-ins in a row. -/
structure Chronicle (log : List (Sign × T)) : Prop where
  ordered : log.Pairwise fun later earlier => earlier.2 ≤ later.2
  alternate : log.IsChain fun later earlier => later.1 = .signIn → earlier.1 = .signOut

theorem Chronicle.nil : Chronicle ([] : List (Sign × T)) := ⟨.nil, .nil⟩

/-- A later sign, which is a sign-in only where nobody is signed in. -/
theorem Chronicle.cons {log : List (Sign × T)} {sign : Sign × T} (chronicle : Chronicle log)
    (after : ∀ earlier ∈ log, earlier.2 ≤ sign.2)
    (signedOut : sign.1 = .signIn → openSince log = none) : Chronicle (sign :: log) where
  ordered := List.pairwise_cons.mpr ⟨after, chronicle.ordered⟩
  alternate := by
    cases log with
    | nil => exact .singleton sign
    | cons latest earlier =>
        refine .cons_cons (fun isIn => ?_) chronicle.alternate
        obtain ⟨kind, moment⟩ := latest
        cases kind with
        | signIn => cases signedOut isIn
        | signOut => rfl

variable {log : List (Sign × T)}

theorem Chronicle.le_of_openSince (chronicle : Chronicle log) {since : T}
    (signedIn : openSince log = some since) : ∀ sign ∈ log, sign.2 ≤ since := by
  cases log with
  | nil => cases signedIn
  | cons latest earlier =>
      obtain ⟨kind, moment⟩ := latest
      cases kind with
      | signOut => cases signedIn
      | signIn =>
          obtain rfl := Option.some.inj signedIn
          exact List.forall_mem_cons.mpr
            ⟨le_rfl, fun sign member => (List.pairwise_cons.mp chronicle.ordered).1 sign member⟩

theorem Chronicle.le_of_lastOut (chronicle : Chronicle log) {bound : T}
    (signedOut : openSince log = none) (ended : ∀ moment ∈ lastOut log, moment ≤ bound) :
    ∀ sign ∈ log, sign.2 ≤ bound := by
  cases log with
  | nil => exact List.forall_mem_nil _
  | cons latest earlier =>
      obtain ⟨kind, moment⟩ := latest
      cases kind with
      | signIn => cases signedOut
      | signOut =>
          have last : moment ≤ bound := ended moment rfl
          exact List.forall_mem_cons.mpr ⟨last, fun sign member =>
            ((List.pairwise_cons.mp chronicle.ordered).1 sign member).trans last⟩

theorem attendances_le {bound : T} (early : ∀ sign ∈ log, sign.2 ≤ bound) :
    ∀ interval ∈ attendances log, interval.1 ≤ bound ∧ ∀ stop ∈ interval.2, stop ≤ bound := by
  induction log with
  | nil => exact List.forall_mem_nil _
  | cons sign earlier ih =>
      obtain ⟨here, before⟩ := List.forall_mem_cons.mp early
      have rest := ih before
      obtain ⟨kind, moment⟩ := sign
      cases kind with
      | signIn => exact List.forall_mem_cons.mpr ⟨⟨here, nofun⟩, rest⟩
      | signOut =>
          rw [attendances]
          split
          · next start others found =>
              rw [found] at rest
              obtain ⟨first, rest⟩ := List.forall_mem_cons.mp rest
              refine List.forall_mem_cons.mpr ⟨⟨first.1, fun stop isStop => ?_⟩, rest⟩
              exact Option.some.inj isStop ▸ here
          · exact rest

/-- Nothing goes on where the latest sign is no sign-in. -/
theorem closed_of_openSince_eq_none (orderly : Orderly (attendances log))
    (signedOut : openSince log = none) :
    ∀ interval ∈ attendances log, ∃ stop, interval.2 = some stop := by
  have first : ∀ start rest, attendances log ≠ (start, none) :: rest := by
    intro start rest found
    cases log with
    | nil => cases found
    | cons sign earlier =>
        obtain ⟨kind, moment⟩ := sign
        cases kind with
        | signIn => cases signedOut
        | signOut =>
            rw [attendances] at found
            split at found
            · cases found
            · next ended => exact ended _ _ found
  cases found : attendances log with
  | nil => exact List.forall_mem_nil _
  | cons latest others =>
      rw [found] at orderly
      obtain ⟨follow, -⟩ := List.pairwise_cons.mp orderly.follow
      refine List.forall_mem_cons.mpr ⟨?_, fun interval member => ?_⟩
      · obtain ⟨start, stop⟩ := latest
        cases stop with
        | none => exact absurd found (first start others)
        | some stop => exact ⟨stop, rfl⟩
      · obtain ⟨stop, isStop, -⟩ := follow interval member
        exact ⟨stop, isStop⟩

theorem orderly_attendances (chronicle : Chronicle log) : Orderly (attendances log) := by
  induction log with
  | nil => exact ⟨List.forall_mem_nil _, .nil⟩
  | cons sign earlier ih =>
      obtain ⟨after, ordered⟩ := List.pairwise_cons.mp chronicle.ordered
      have before := ih ⟨ordered, chronicle.alternate.tail⟩
      have early := attendances_le after
      obtain ⟨kind, moment⟩ := sign
      cases kind with
      | signIn =>
          have signedOut : openSince earlier = none := by
            cases earlier with
            | nil => rfl
            | cons latest others =>
                have isOut := (List.isChain_cons_cons.mp chronicle.alternate).1 rfl
                obtain ⟨kind, other⟩ := latest
                cases isOut
                rfl
          refine ⟨List.forall_mem_cons.mpr ⟨nofun, before.forward⟩,
            List.pairwise_cons.mpr ⟨fun interval member => ?_, before.follow⟩⟩
          obtain ⟨stop, isStop⟩ := closed_of_openSince_eq_none before signedOut interval member
          exact ⟨stop, isStop, (early interval member).2 stop isStop⟩
      | signOut =>
          rw [attendances]
          split
          · next start others found =>
              rw [found] at before early
              obtain ⟨-, forward⟩ := List.forall_mem_cons.mp before.forward
              obtain ⟨follow, rest⟩ := List.pairwise_cons.mp before.follow
              refine ⟨List.forall_mem_cons.mpr ⟨fun stop isStop => ?_, forward⟩,
                List.pairwise_cons.mpr ⟨follow, rest⟩⟩
              exact Option.some.inj isStop ▸ (List.forall_mem_cons.mp early).1.1
          · exact before

end PlantManager.Timeline
