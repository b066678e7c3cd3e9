import SmartHome.Found.Overlay
import SmartHome.Found.Runs
import SmartHome.Device.Frame
import SmartHome.Device.Gdevice
import SmartHome.Found.Pool
import SmartHome.Controls.ControlList
import SmartHome.Device.IniHandler
import SmartHome.Handler.Parts
import SmartHome.Handler.Sequential
import SmartHome.Handler.Safety
import SmartHome.Device.FrameBuffer
import SmartHome.Queue.ReceiveGet
import SmartHome.Producers.VoiceGet
import SmartHome.Producers.SocketControlGet
import SmartHome.Handler.Steps
import SmartHome.Concurrent.System
import SmartHome.Concurrent.FaceGate
import SmartHome.Concurrent.Commands
import SmartHome.Concurrent.Lock
import SmartHome.Handler.Dispatch
import SmartHome.Producers.SmokeGet
import SmartHome.Concurrent.Alarm
import SmartHome.Concurrent.Teardown
import SmartHome.Device.Configuration
import SmartHome.Device.ConfigurationOrder
import SmartHome.Producers.SmokeLatch
import SmartHome.Handler.Report
import SmartHome.Face.AlibabaFace
import SmartHome.Face.FaceScore
import SmartHome.Handler.Trace
import SmartHome.Handler.Configured
import SmartHome.Concurrent.Announcements
import SmartHome.Handler.VoiceSearch
import SmartHome.Found.Chunks
import SmartHome.Ini.Parse
import SmartHome.Ini.Entries
import SmartHome.Ini.HandedOn
import SmartHome.Device.Print
import SmartHome.Ini.Document
import SmartHome.Device.DeviceFile
import SmartHome.Concurrent.OneAtATime
import SmartHome.Concurrent.Provenance
import SmartHome.Concurrent.Crashes
import SmartHome.Concurrent.Progress
import SmartHome.Concurrent.ExactlyOnce
import SmartHome.Concurrent.Texts
import SmartHome.Found.Network
import SmartHome.Producers.Senders
import SmartHome.Concurrent.Hub
import SmartHome.Concurrent.Settles
