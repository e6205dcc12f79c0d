import ParkManager.Lib.History
import ParkManager.Lib.MapCount
import ParkManager.Lib.Wrap
import ParkManager.Lib.Split
import ParkManager.Lib.Inbox
import ParkManager.Lib.BoundedMap
import ParkManager.Lib.Calendar
import ParkManager.Lib.CommonPrefix
import ParkManager.Lib.Printf
import ParkManager.Lib.Scan
import ParkManager.Lib.Unicode
import ParkManager.Lib.Keyed
import ParkManager.Slots
import ParkManager.DoubleParking
import ParkManager.Stays
import ParkManager.Registration
import ParkManager.Admission
import ParkManager.EntranceTimes
import ParkManager.GateHandler
import ParkManager.FailedRequest
import ParkManager.Delivery
import ParkManager.SharedMap
import ParkManager.WebSocketServer
import ParkManager.StatusMonitor
import ParkManager.RoundTrip
import ParkManager.Correlation
import ParkManager.ExitAnswer
import ParkManager.Agreement
import ParkManager.Fee
import ParkManager.StatusRecord
import ParkManager.ResponseScan
import ParkManager.SlotNotice
import ParkManager.Logging
import ParkManager.UtcOffset
import ParkManager.JsonLibrary
import ParkManager.Charge
import ParkManager.ServerLoop
import ParkManager.UtcTime
import ParkManager.GateConfig
