import Acs.Lib.Run
import Acs.Lib.Framing
import Acs.Lib.Effects
import Acs.Lib.Mailbox
import Acs.Lib.Notice
import Acs.Lib.Listing
import Acs.Bytes
import Acs.CJson
import Acs.Rdm6300
import Acs.Reader.Console
import Acs.Esp32.CardReader
import Acs.Link
import Acs.Esp32.CardCache
import Acs.Esp32.Mqtt
import Acs.Esp32.Signature
import Acs.Esp32.Actions
import Acs.Esp32.Controller
import Acs.Esp32.ControllerSafety
import Acs.Esp32.StateDiagram
import Acs.Esp32.Reports
import Acs.Esp32.SpaceStatus
import Acs.Esp32.LockStatus
import Acs.Esp32.FleetStatus
import Acs.Esp32.WifiCredentials
import Acs.Lib.Table
import Acs.Backend.Models
import Acs.Backend.ApiViews
import Acs.Backend.Auth
import Acs.Backend.Site
import Acs.Backend.Text
import Acs.Backend.Cards
import Acs.Bridge.Forwarding
import Acs.Opi.RemoteActions
import Acs.FrameFormat
import Acs.Reader.RfidTask
import Acs.Lib.CInt
import Acs.Lib.Decimal
import Acs.Lib.HexScan
import Acs.Esp32.Http
import Acs.Reader.Led
import Acs.Reader.LedPlayback
import Acs.Reader.Commands
import Acs.Reader.AppMain
import Acs.Orders
import Acs.Station
import Acs.Esp32.PrivateKey
import Acs.Esp32.Otafwu
import Acs.Esp32.LockedScreen
import Acs.Lib.Loop
import Acs.Lib.Grouping
import Acs.Opi.Wrap
import Acs.Opi.Display
import Acs.Opi.DisplayThread
import Acs.Opi.RemoteLock
import Acs.Opi.CardReader
import Acs.Camcontrol.Main
import Acs.Camcontrol.Relays
import Acs.Esp32.Display
import Acs.Barn.RfidReader
import Acs.Barn.Main
import Acs.Barn.Relocking
import Acs.Barn.CardForm
import Acs.Lib.Scroll
import Acs.Camcontrol.Display
import Acs.Esp32.ProgressLog
import Acs.Backend.UserMachines
import Acs.Lib.Trim
import Acs.Opi.Strip
import Acs.Lib.TimedDoor
import Acs.Opi.Door
import Acs.Opi.LockPin
import Acs.Esp32.Door
import Acs.Opi.Calls
import Acs.Opi.Slack
import Acs.Lib.Worker
import Acs.Opi.Services
import Acs.Opi.Revocation
import Acs.Opi.AuditTrail
import Acs.Esp32.ListedCards
