import Blts.Lib.Run
import Blts.Lib.Count
import Blts.Sync.Barrier
import Blts.Sync.BarrierRounds
import Blts.Params.BoxedValue
import Blts.Params.SymbolTable
import Blts.Lib.MixedRadix
import Blts.Params.Variations
import Blts.Params.Combinations
import Blts.Params.TestVariations
import Blts.Wlan.KeyFrame
import Blts.Wlan.Eapol
import Blts.Wlan.EapolRuns
import Blts.Wlan.EventLoop
import Blts.Wlan.ReplayCounter
import Blts.Wlan.GroupRetries
import Blts.Wlan.EapolLoop
import Blts.Config.Actions
import Blts.Config.Automaton
import Blts.Config.Context
import Blts.Config.ContextMoves
import Blts.Config.ContextRuns
import Blts.Config.LostContext
import Blts.Config.ErrorFree
import Blts.Config.Grammar
import Blts.Config.GrammarRuns
import Blts.Config.GrammarShape
import Blts.Config.TestsetNames
import Blts.Config.Substitution
import Blts.Lib.Registry
import Blts.Params.Declare
import Blts.Params.GeneratedOrder
import Blts.Params.TableKept
import Blts.Config.TableChanges
import Blts.Config.Calls
import Blts.Config.TableRuns
import Blts.Params.TestEntries
import Blts.Params.DeclareSpec
import Blts.Params.DeclaredVariants
import Blts.Config.NoConfig
import Blts.Config.MissingTest
import Blts.Params.ParamLists
import Blts.Config.ExactLists
import Blts.Params.VariantValues
import Blts.Sync.Tags
import Blts.Sync.LockBalance
import Blts.Sync.MutualExclusion
import Blts.Cli.RunReports
import Blts.Cli.Main
import Blts.Cli.TestLists
import Blts.Cli.TestFields
import Blts.Cli.Completion
import Blts.Cli.ParseErrors
import Blts.Cli.Selection
import Blts.Sync.TimedRounds
import Blts.Sync.TimedResults
import Blts.Lib.Ends
import Blts.Alsa.Config
import Blts.Alsa.Text
import Blts.Alsa.Sections
import Blts.Alsa.Words
import Blts.Alsa.LineWords
import Blts.Alsa.Lines
import Blts.Alsa.FileLines
import Blts.Alsa.CleanLines
import Blts.Alsa.Verdicts
import Blts.Alsa.LineVerdicts
import Blts.Alsa.Reached
import Blts.Alsa.Capacities
import Blts.Alsa.Missing
import Blts.Alsa.Testcases
import Blts.Alsa.TestcaseTables
import Blts.Alsa.WrittenText
import Blts.Alsa.Documents
import Blts.Alsa.ReadStatements
import Blts.Alsa.RoundTrip
import Blts.Alsa.ControlWalk
import Blts.Alsa.PcmBarrier
import Blts.Alsa.BarrierCalls
import Blts.Alsa.StreamThreads
import Blts.Alsa.StreamResults
import Blts.Alsa.StreamReports
import Blts.V4l2.FrameBuffers
import Blts.Lib.Lock
import Blts.Usb.GadgetLock
import Blts.Usb.GadgetBuffers
import Blts.Usb.HostBuffers
import Blts.Usb.HostWaits
import Blts.Usb.HostTeardown
import Blts.Usb.HostProbe
import Blts.Lib.Bytes
import Blts.Bluetooth.HciDump
import Blts.Bluetooth.HciDumpRuns
import Blts.Ofono.SmsSend
import Blts.Ofono.DualCall
import Blts.Ofono.MainLoop
import Blts.Ofono.DualCallRuns
import Blts.Ofono.MultipartyStages
import Blts.Ofono.MultipartyCalls
import Blts.Bluetooth.AgentLock
import Blts.Bluetooth.PairingWaits
import Blts.Bluetooth.AgentCommands
import Blts.Bluetooth.AgentEvents
import Blts.Alsa.LayoutChanges
import Blts.Config.Scanner
import Blts.Config.NumberTokens
import Blts.Params.VariantIndexes
import Blts.Params.VariantPasses
import Blts.Params.TestWrites
import Blts.Config.ParamNames
import Blts.Mwts.Result
import Blts.Mwts.Verdicts
import Blts.Lib.LinkedList
import Blts.Gles.Compositor
import Blts.Gles.CompositorRuns
import Blts.Gles.ConfigFile
import Blts.Gles.ConfigLines
import Blts.Gles.ConfigReads
import Blts.Gles.ConvolutionFilter
import Blts.Lib.Table
import Blts.Gles.BlitterScene
import Blts.Pixel.Layouts
import Blts.Pixel.Planes
import Blts.Dep.Checks
import Blts.Dep.Depcheck
import Blts.Wlan.Unwrapping
import Blts.Wlan.KeyDataBounds
import Blts.Wlan.Trailer
import Blts.Wlan.RejectedFrames
import Blts.Alsa.Tuner
import Blts.V4l2.JpegFile
import Blts.Alsa.TimerPeriod
import Blts.Alsa.AsyncHandlers
import Blts.Alsa.MmapPointer
import Blts.Alsa.MmapWrite
import Blts.Alsa.MappedArea
import Blts.Alsa.PlayedPeriod
import Blts.Alsa.ControlSettings
import Blts.Lib.BitWords
import Blts.Alsa.Interval
import Blts.Alsa.Mask
import Blts.Alsa.HwParams
import Blts.Alsa.HwParamSet
import Blts.Alsa.HwParamRange
import Blts.Alsa.SectionNumbers
import Blts.Alsa.FileNumbers
import Blts.Lib.Loop
import Blts.V4l2.SelectStream
import Blts.V4l2.VideoStandards
import Blts.V4l2.Controls
import Blts.Usb.IsocUrb
import Blts.Usb.TransferRuns
import Blts.Lib.InOrder
import Blts.Bluetooth.IncomingAudit
import Blts.Bluetooth.EchoClient
import Blts.Bluetooth.EchoPair
import Blts.Mwts.Throughput
import Blts.Gles.ConfigText
import Blts.Gles.StoredSettings
import Blts.Gles.ReadBitmap
import Blts.Gles.BitmapPictures
import Blts.Sync.TimeDifference
import Blts.Cli.ResultLine
import Blts.Usb.SysfsLog
import Blts.Params.Unboxing
import Blts.Input.TouchEvents
import Blts.Input.SingleTouch
import Blts.Input.MultiTouch
import Blts.Sensors.Measurements
import Blts.Fbdev.VisibleWindow
import Blts.Xvideo.Verdicts
import Blts.Xvideo.Scroll
import Blts.Lib.Sha1
import Blts.Wlan.Sha1
import Blts.Lib.Hmac
import Blts.Wlan.KeyDerivation
import Blts.Wlan.CommandQueue
