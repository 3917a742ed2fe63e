import UempPlugin.Lib.Actions
import UempPlugin.Lib.Arena
import UempPlugin.Lib.Ring
import UempPlugin.Lib.Rolling
import UempPlugin.Proofs.BoundedQueue
import UempPlugin.Proofs.CalendarNames
import UempPlugin.Proofs.CallbackIds
import UempPlugin.Proofs.ConfigFile
import UempPlugin.Proofs.ContentType
import UempPlugin.Proofs.CountBound
import UempPlugin.Proofs.CountLayout
import UempPlugin.Proofs.CountLoss
import UempPlugin.Proofs.DailyFileClock
import UempPlugin.Proofs.DateGroups
import UempPlugin.Proofs.EmptyRotations
import UempPlugin.Proofs.FailedLoad
import UempPlugin.Proofs.FailedWrites
import UempPlugin.Proofs.FailingRenames
import UempPlugin.Proofs.FieldValues
import UempPlugin.Proofs.FormBody
import UempPlugin.Proofs.FormatRounds
import UempPlugin.Proofs.IdMixing
import UempPlugin.Proofs.LineChunks
import UempPlugin.Proofs.LogText
import UempPlugin.Proofs.Lookups
import UempPlugin.Proofs.NextRotation
import UempPlugin.Proofs.PoolDelivery
import UempPlugin.Proofs.PoolOrder
import UempPlugin.Proofs.PoolShutdown
import UempPlugin.Proofs.RequestHeaders
import UempPlugin.Proofs.RequestReturns
import UempPlugin.Proofs.ResponseHeaders
import UempPlugin.Proofs.RollingFiles
import UempPlugin.Proofs.RotatingFile
import UempPlugin.Proofs.RotationTime
import UempPlugin.Proofs.SameShift
import UempPlugin.Proofs.SavedText
import UempPlugin.Proofs.SetDef
import UempPlugin.Proofs.SharedDisk
import UempPlugin.Proofs.SharedNames
import UempPlugin.Proofs.SinglePass
import UempPlugin.Proofs.SinkLimits
import UempPlugin.Proofs.VolumeDays
import UempPlugin.Proofs.VolumeRuns
import UempPlugin.Ref.CircularQ
import UempPlugin.Ref.RotatingFile
import UempPlugin.Ref.ThreadPool
import UempPlugin.Spec.RollingLog
