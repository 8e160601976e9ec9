import OrangeBox.Camera.Stream
import OrangeBox.Config.Decode
import OrangeBox.Config.Decoding
import OrangeBox.Config.Provisioning
import OrangeBox.Config.Store
import OrangeBox.CredProtocol.Calendar
import OrangeBox.CredProtocol.Change
import OrangeBox.CredProtocol.Dates
import OrangeBox.CredProtocol.Listing
import OrangeBox.CredProtocol.Numbers
import OrangeBox.CredProtocol.Request
import OrangeBox.CredProtocol.Saving
import OrangeBox.Hal.Agenda
import OrangeBox.Hal.Contacts
import OrangeBox.Hal.Debounce
import OrangeBox.Hal.Gpio
import OrangeBox.Hal.Locks
import OrangeBox.Hal.Timer
import OrangeBox.Hal.TimerContract
import OrangeBox.Json
import OrangeBox.Keyboard.Entry
import OrangeBox.Keyboard.Keyboard
import OrangeBox.Keyboard.Phantom
import OrangeBox.Lib.Base64
import OrangeBox.Lib.BoundedWriter
import OrangeBox.Lib.Calendar
import OrangeBox.Lib.CircularBuffer
import OrangeBox.Lib.Clock
import OrangeBox.Lib.Conduit
import OrangeBox.Lib.Decimal
import OrangeBox.Lib.Durable
import OrangeBox.Lib.EraseWalk
import OrangeBox.Lib.Flash
import OrangeBox.Lib.Hexadecimal
import OrangeBox.Lib.InPlace
import OrangeBox.Lib.Ledger
import OrangeBox.Lib.Linked
import OrangeBox.Lib.Paging
import OrangeBox.Lib.PrintReal
import OrangeBox.Lib.Run
import OrangeBox.Lib.Segments
import OrangeBox.Lib.Separated
import OrangeBox.Lib.Strtoul
import OrangeBox.Lib.Walk
import OrangeBox.Logging.Accounting
import OrangeBox.Logging.Connection
import OrangeBox.Logging.Delivery
import OrangeBox.Logging.Dictionary
import OrangeBox.Logging.Escaping
import OrangeBox.Logging.Idle
import OrangeBox.Logging.Logger
import OrangeBox.Logging.Messages
import OrangeBox.Logging.Params
import OrangeBox.Logging.Record
import OrangeBox.Logging.Serialization
import OrangeBox.Logging.Steps
import OrangeBox.Logging.Transport
import OrangeBox.MainLoop.GetDoors
import OrangeBox.MainLoop.Locks
import OrangeBox.MainLoop.Loop
import OrangeBox.MainLoop.OpenDoor
import OrangeBox.PassStore.Boot
import OrangeBox.PassStore.Effects
import OrangeBox.PassStore.Failures
import OrangeBox.PassStore.Interrupted
import OrangeBox.PassStore.Lifetime
import OrangeBox.PassStore.Listing
import OrangeBox.PassStore.Ops
import OrangeBox.PassStore.Pool
import OrangeBox.PassStore.PowerLoss
import OrangeBox.PassStore.Ready
import OrangeBox.PassStore.Rebuild
import OrangeBox.PassStore.Record
import OrangeBox.PassStore.Recovery
import OrangeBox.PassStore.Repair
import OrangeBox.PassStore.Runs
import OrangeBox.PassStore.SingleUse
import OrangeBox.PassStore.Storage
import OrangeBox.PassStore.Surgery
import OrangeBox.PassStore.Verify
import OrangeBox.Scanner.Authentic
import OrangeBox.Scanner.Authorised
import OrangeBox.Scanner.BoxScanner
import OrangeBox.Scanner.ClockOrigin
import OrangeBox.Scanner.Frames
import OrangeBox.Scanner.QrPayload
import OrangeBox.Scanner.QrScanner
import OrangeBox.Scanner.Splitting
import OrangeBox.StateMachine.ClockOrigin
import OrangeBox.StateMachine.Consumption
import OrangeBox.StateMachine.Context
import OrangeBox.StateMachine.Countdown
import OrangeBox.StateMachine.Gating
import OrangeBox.StateMachine.Machine
import OrangeBox.StateMachine.Opening
import OrangeBox.StateMachine.RateLimit
import OrangeBox.StateMachine.Reactions
import OrangeBox.StateMachine.Rest
import OrangeBox.StateMachine.Steps
import OrangeBox.StateMachine.Vault
import OrangeBox.Text
import OrangeBox.Timeout
import OrangeBox.Tunnel.Carried
import OrangeBox.Tunnel.Channels
import OrangeBox.Tunnel.CircuitBreaker
import OrangeBox.Tunnel.DataRingBuffer
import OrangeBox.Tunnel.Fingerprint
import OrangeBox.Tunnel.Handlers
import OrangeBox.Tunnel.Orderly
import OrangeBox.Tunnel.Ownership
import OrangeBox.Tunnel.SSHSession
import OrangeBox.Tunnel.SSHTunnel
import OrangeBox.Tunnel.SessionCalls
import OrangeBox.Tunnel.Streams
import OrangeBox.Tunnel.Transport
import OrangeBox.Vpn.Interleavings
import OrangeBox.Vpn.Manager
import OrangeBox.WebSocket.Responsive
import OrangeBox.WebSocket.Sweep
import OrangeBox.WebSocket.Watchdog
