import PlantManager.Solver.MinimumCoverageOptimal
import PlantManager.Solver.CompleteScheduleOptimal
import PlantManager.Production.DayConserved
import PlantManager.Production.StoredSnapshot
import PlantManager.Production.LeaderboardOwnDay
import PlantManager.Production.Progress
import PlantManager.Production.DowntimeOnce
import PlantManager.Staffing.HoursConserved
import PlantManager.TimeOff.KioskRequest
import PlantManager.Production.UnassignedRunsExact
import PlantManager.Production.OnePlaceAtATime
import PlantManager.Production.DisplayScoresStable
import PlantManager.Production.LeaderboardWhole
import PlantManager.Attendance.RecalcFence
import PlantManager.Production.SmoothingPresence
import PlantManager.Attendance.TimelineRangeAgree
import PlantManager.Timeclock.LunchStamps
import PlantManager.Timeclock.PunchTurns
import PlantManager.Timeclock.PunchRounding
import PlantManager.Timeclock.KioskFresh
import PlantManager.Goat.NotificationsOnce
import PlantManager.Forklift.OntimeHistory
import PlantManager.Forklift.TotalsKept
import PlantManager.Feedback.TaskLease
import PlantManager.Feedback.Quarantine
import PlantManager.Feedback.Lifecycle
import PlantManager.Feedback.ReviewForward
import PlantManager.Attendance.RolloutGates
import PlantManager.Attendance.RepairRemembered
import PlantManager.Inbox.History
import PlantManager.Saturday.CoverageKept
import PlantManager.Payroll.GuardCorrections
import PlantManager.Payroll.CorrectionSettles
import PlantManager.TimeOff.ApprovalEmailOnce
import PlantManager.TimeOff.LocalRecordKept
import PlantManager.Forklift.DriverIdentity
import PlantManager.Staffing.DefaultTargetsApart
import PlantManager.Attendance.MissedPunchOut
import PlantManager.Caching.ServedFresh
import PlantManager.TimeOff.DecisionTold
import PlantManager.TimeOff.LocalReplayWins
import PlantManager.TimeOff.PtoReviewOnce
import PlantManager.Roster.LabelsApart
import PlantManager.Roster.SyncNames
import PlantManager.Skills.SkillLevelsKept
import PlantManager.Skills.AutomatedSkillsRight
import PlantManager.Rotation.DefaultsYield
import PlantManager.Rotation.SafeSeats
import PlantManager.Calendar.CompanyHolidays
import PlantManager.Attendance.MirrorReplay
import PlantManager.Staffing.ScheduleSavedAgain
