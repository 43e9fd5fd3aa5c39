import ResumableTasks.CallSite
import ResumableTasks.CallSite.Backtrace
import ResumableTasks.CallSite.Symbol
import ResumableTasks.Calls
import ResumableTasks.CancelReason
import ResumableTasks.Catalog
import ResumableTasks.Classifier
import ResumableTasks.Classifier.StackDepth
import ResumableTasks.Clock
import ResumableTasks.Context
import ResumableTasks.Error
import ResumableTasks.FileTree
import ResumableTasks.FrameStack
import ResumableTasks.FrameStack.Step
import ResumableTasks.Memo
import ResumableTasks.Memo.History
import ResumableTasks.Outcome
import ResumableTasks.Proofs.CancelledResume
import ResumableTasks.Proofs.ResumableStack
import ResumableTasks.Proofs.RunPhases
import ResumableTasks.Proofs.SuspensionCycles
import ResumableTasks.Proofs.TaskLifecycle
import ResumableTasks.Proofs.Transparency
import ResumableTasks.Proofs.WoundStack
import ResumableTasks.Proofs.WovenRun
import ResumableTasks.Scheduler
import ResumableTasks.Scheduler.Loop
import ResumableTasks.Scheduler.Pool
import ResumableTasks.Script
import ResumableTasks.Script.Routine
import ResumableTasks.Script.Woven
import ResumableTasks.Settings
import ResumableTasks.Settings.Environment
import ResumableTasks.Settings.File
import ResumableTasks.Settings.Toml
import ResumableTasks.Settings.Toml.Moment
import ResumableTasks.Settings.Toml.Number
import ResumableTasks.Settings.Toml.Reader
import ResumableTasks.Settings.Toml.Table
import ResumableTasks.Settings.Toml.Text
import ResumableTasks.Signature
import ResumableTasks.Task
import ResumableTasks.TaskId
import ResumableTasks.Text.Blank
import ResumableTasks.Text.Decimal
import ResumableTasks.Text.Invisible
import ResumableTasks.Text.Quoted
import ResumableTasks.Text.Split
import ResumableTasks.Unwind
import ResumableTasks.Value
import ResumableTasks.WaitReason
import ResumableTasks.World
import ResumableTasks.Classifier.History
import ResumableTasks.Proofs.MemoizedClassification
import ResumableTasks.Proofs.DisagreeingCandidates
import ResumableTasks.Proofs.ReachedSentinel
import ResumableTasks.Proofs.CheckedAccess
import ResumableTasks.Proofs.AtomicFailure
import ResumableTasks.Proofs.ConservedEntries
import ResumableTasks.Scheduler.History
import ResumableTasks.Proofs.SchedulerTurns
import ResumableTasks.Proofs.ConfinedRoutine
import ResumableTasks.Proofs.TaskCourse
import ResumableTasks.Proofs.SchedulerCompletion
import ResumableTasks.Proofs.PoolSafety
import ResumableTasks.Proofs.ScriptTrace
import ResumableTasks.Proofs.DepthBalance
import ResumableTasks.Proofs.FreshMarkers
import ResumableTasks.Proofs.RecoveredFrame
import ResumableTasks.Proofs.RoundRobin
import ResumableTasks.Proofs.RunReport
import ResumableTasks.Proofs.RepeatedSuspension
import ResumableTasks.Script.Method
import ResumableTasks.Proofs.StatefulRun
import ResumableTasks.Proofs.StatefulTask
import ResumableTasks.Proofs.ExitFromAnyDepth
import ResumableTasks.Proofs.KeptState
import ResumableTasks.Proofs.CountedFrames
import ResumableTasks.Proofs.RecoveredDepth
import ResumableTasks.Proofs.EnclosingBody
import ResumableTasks.Proofs.DeclarationOrder
import ResumableTasks.Proofs.SeparatedText
import ResumableTasks.Proofs.BacktraceText
import ResumableTasks.Proofs.AngleBrackets
import ResumableTasks.Proofs.DecoratedSymbol
import ResumableTasks.Proofs.QualifiedSymbol
import ResumableTasks.Proofs.GeneratedSegment
import ResumableTasks.Proofs.ComputedOnce
import ResumableTasks.Proofs.NotedHistory
import ResumableTasks.Proofs.AccumulatedRequests
import ResumableTasks.Proofs.RestartedRun
import ResumableTasks.Proofs.IdleTimeout
import ResumableTasks.Scheduler.Opening
import ResumableTasks.Proofs.JoinedPath
import ResumableTasks.Proofs.SettingsFields
import ResumableTasks.Proofs.NormalSettings
import ResumableTasks.Proofs.DenotedSetting
import ResumableTasks.Proofs.LayeredSettings
import ResumableTasks.Proofs.EndedRuns
import ResumableTasks.Proofs.ReportedTasks
import ResumableTasks.Proofs.WovenSignature
