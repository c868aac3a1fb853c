import IsaacTeleop.AcyclicEquations
import IsaacTeleop.AdbShell
import IsaacTeleop.BookmarkRedaction
import IsaacTeleop.BoxSmoothing
import IsaacTeleop.CalibrationCancellation
import IsaacTeleop.CalibrationCommands
import IsaacTeleop.CalibrationEvents
import IsaacTeleop.CalibrationLimits
import IsaacTeleop.CalibrationLines
import IsaacTeleop.CalibrationSteps
import IsaacTeleop.CaptureTake
import IsaacTeleop.CheckReport
import IsaacTeleop.ClutchPreview
import IsaacTeleop.ClutchRetargeter
import IsaacTeleop.ConsoleLevel
import IsaacTeleop.ControllerTracking
import IsaacTeleop.DamiaoFrames
import IsaacTeleop.DetachedService
import IsaacTeleop.DeviceStatusPublisher
import IsaacTeleop.EePoseJumpGuard
import IsaacTeleop.EnvConfig
import IsaacTeleop.EscapedText
import IsaacTeleop.EventSizes
import IsaacTeleop.ExportWriter
import IsaacTeleop.FeetechBus
import IsaacTeleop.Fips180
import IsaacTeleop.FrameSession
import IsaacTeleop.GraphConstruction
import IsaacTeleop.HapticCommands
import IsaacTeleop.ImageMailbox
import IsaacTeleop.InputSelector
import IsaacTeleop.JointRateLimiter
import IsaacTeleop.JsonGrammar
import IsaacTeleop.JsonReader
import IsaacTeleop.KeyboardState
import IsaacTeleop.LeafDiscovery
import IsaacTeleop.LeastEnvelope
import IsaacTeleop.LerobotCalibration
import IsaacTeleop.LimiterOutputs
import IsaacTeleop.LineFraming
import IsaacTeleop.LogDrain
import IsaacTeleop.LogForwarding
import IsaacTeleop.ManifestResolution
import IsaacTeleop.ManifestTemplate
import IsaacTeleop.ManusGloves
import IsaacTeleop.McapReplay
import IsaacTeleop.MessageChannel
import IsaacTeleop.NativeCapture
import IsaacTeleop.NoitomFrames
import IsaacTeleop.OgloClock
import IsaacTeleop.OgloPackets
import IsaacTeleop.OobStatusFile
import IsaacTeleop.OptionalGroups
import IsaacTeleop.OvxrRetirement
import IsaacTeleop.OwnedMirror
import IsaacTeleop.ParameterState
import IsaacTeleop.PipelinedSession
import IsaacTeleop.PluginProcess
import IsaacTeleop.PythonStrings
import IsaacTeleop.RenderDemand
import IsaacTeleop.ReportReduction
import IsaacTeleop.RequiredInputs
import IsaacTeleop.SerialSalt
import IsaacTeleop.SessionLifecycle
import IsaacTeleop.Sha256
import IsaacTeleop.ShellText
import IsaacTeleop.StaticServing
import IsaacTeleop.StatusLatch
import IsaacTeleop.StepTimeline
import IsaacTeleop.SupervisionOutcome
import IsaacTeleop.TeleopStateManager
import IsaacTeleop.TensorSamples
import IsaacTeleop.TileLayout
import IsaacTeleop.TrackerMetadata
import IsaacTeleop.TwinJudges
import IsaacTeleop.UsbRecovery
import IsaacTeleop.ViveStreams
import IsaacTeleop.WifiRecovery
import IsaacTeleop.WindowPresent
import IsaacTeleop.XsensFrames
