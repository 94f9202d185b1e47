import Rollover.Clock.Timer
import Rollover.Config.Reader
import Rollover.Config.Writer
import Rollover.Handler
import Rollover.SharedClock
import Rollover.Width.Reader
import Rollover.Proofs.Grid
import Rollover.Proofs.LogicalNow
import Rollover.Proofs.Commands
import Rollover.Proofs.CurrentBucket
import Rollover.Proofs.Run
import Rollover.Proofs.DirectAnswers
import Rollover.Proofs.ForwardTime
import Rollover.Proofs.KeptOffset
import Rollover.Proofs.Restart
import Rollover.Proofs.Boundary
import Rollover.Proofs.GuardBand
import Rollover.Proofs.RefreshLoop
import Rollover.Proofs.FailedCommand
import Rollover.Proofs.NextRefresh
import Rollover.Proofs.Cells
import Rollover.Proofs.WrittenDigits
import Rollover.Proofs.WrittenTime
import Rollover.Proofs.DocumentGrammar
import Rollover.Proofs.WrittenDocument
import Rollover.Proofs.PassedOver
import Rollover.Proofs.ListsAndObjects
import Rollover.Proofs.ConfigMeaning
import Rollover.Proofs.RepeatedMembers
import Rollover.Proofs.KnownMembers
import Rollover.Proofs.WrittenConfig
import Rollover.Proofs.AnchorChange
import Rollover.Proofs.SetTime
import Rollover.Proofs.Rejection
import Rollover.Proofs.OffsetGrammar
import Rollover.Proofs.BucketStart
import Rollover.Proofs.SavedOffset
import Rollover.Proofs.AppliedConfig
import Rollover.Proofs.BucketNumbers
import Rollover.Proofs.DaysOfWeek
import Rollover.Proofs.ShiftedStart
import Rollover.Proofs.Saturation
import Rollover.Proofs.ManualTime
import Rollover.Proofs.WrittenOffset
