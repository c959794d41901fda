import Cmqtt.CString
import Cmqtt.Machine
import Cmqtt.Interleaving
import Cmqtt.Ledger
import Cmqtt.Process
import Cmqtt.Interaction
import Cmqtt.Framing
import Cmqtt.Keyed
import Cmqtt.Config.GetInitKey
import Cmqtt.Config.Lines
import Cmqtt.Config.Section
import Cmqtt.Config.Lookup
import Cmqtt.Config.Reading
import Cmqtt.Config.Termination
import Cmqtt.Topic.Table
import Cmqtt.Topic.Dispatch
import Cmqtt.Topic.Arrival
import Cmqtt.Main.Settings
import Cmqtt.Main.Buffers
import Cmqtt.Main.PidFile
import Cmqtt.Main.Heartbeat
import Cmqtt.Database.ExcuteSql
import Cmqtt.Command.Registry
import Cmqtt.Session.Client
import Cmqtt.Session.System
import Cmqtt.Session.Recovery
import Cmqtt.Session.Delivery
import Cmqtt.Session.Subscriptions
import Cmqtt.Paho.Packet
import Cmqtt.Paho.Publish
import Cmqtt.Paho.SocketBuffer
import Cmqtt.Paho.Socket
import Cmqtt.Paho.Sending
import Cmqtt.Paho.Receiving
import Cmqtt.Paho.Protocol
import Cmqtt.Paho.Phases
import Cmqtt.Paho.Handling
import Cmqtt.Paho.Exchange
import Cmqtt.Paho.Arrivals
import Cmqtt.Paho.Wire
import Cmqtt.Paho.Utf8
import Cmqtt.Paho.Identifiers
import Cmqtt.Paho.Commands
import Cmqtt.Paho.Requests
import Cmqtt.Paho.Effects
import Cmqtt.Paho.Orderly
import Cmqtt.Paho.Outcomes
import Cmqtt.Paho.Connection
