import Mzmq.Lib.Checked
import Mzmq.Lib.Consumer
import Mzmq.Lib.Run
import Mzmq.Lib.FixedVec
import Mzmq.Lib.Refine
import Mzmq.Lib.Writer
import Mzmq.Lib.Simulation
import Mzmq.Lib.Spelling
import Mzmq.Lib.Interaction
import Mzmq.Frame
import Mzmq.Greeting
import Mzmq.Null
import Mzmq.Plain
import Mzmq.SubTable
import Mzmq.GroupTable
import Mzmq.Tables
import Mzmq.Conn
import Mzmq.Connection
import Mzmq.RadioConnection
import Mzmq.Session
import Mzmq.Transport
import Mzmq.Driver
import Mzmq.Delivery
import Mzmq.Peer
import Mzmq.Wire
import Mzmq.Transcript
import Mzmq.Metadata
import Mzmq.Outbound
import Mzmq.Filter
import Mzmq.KeepAlive
import Mzmq.Endpoint
import Mzmq.Subscriber
import Mzmq.Conforming
import Mzmq.Async
import Mzmq.Network
import Mzmq.Lemmas.Decoder
import Mzmq.Lemmas.Wire
import Mzmq.Lemmas.Header
import Mzmq.Lemmas.Command
import Mzmq.Lemmas.Ready
import Mzmq.Lemmas.Greeting
import Mzmq.Lemmas.Handlers
import Mzmq.Lemmas.Roles
import Mzmq.Lemmas.Session
import Mzmq.Lemmas.Transcript
import Mzmq.Lemmas.Run
import Mzmq.Lemmas.Order
import Mzmq.Lemmas.Bounds
import Mzmq.Lemmas.Steady
import Mzmq.Lemmas.Driver
import Mzmq.Lemmas.Calls
import Mzmq.Lemmas.Deeds
import Mzmq.Lemmas.Acts
import Mzmq.Lemmas.Publish
import Mzmq.Lemmas.Outbound
import Mzmq.Lemmas.Tables
import Mzmq.Lemmas.Feeding
import Mzmq.Lemmas.Pings
import Mzmq.Lemmas.Heard
import Mzmq.Lemmas.Endpoint
import Mzmq.Lemmas.Conforming
import Mzmq.Lemmas.Async
import Mzmq.Lemmas.Network
import Mzmq.Theorems.Chunking
import Mzmq.Theorems.Handshake
import Mzmq.Theorems.FailStop
import Mzmq.Theorems.ErrorOnce
import Mzmq.Theorems.FrameHeader
import Mzmq.Theorems.FrameGrammar
import Mzmq.Theorems.GreetingOrder
import Mzmq.Theorems.OutputOrder
import Mzmq.Theorems.Lockstep
import Mzmq.Theorems.ReadyParser
import Mzmq.Theorems.ReadyGrammar
import Mzmq.Theorems.Width
import Mzmq.Theorems.Filter
import Mzmq.Theorems.ExactlyOnce
import Mzmq.Theorems.Publish
import Mzmq.Theorems.Outbound
import Mzmq.Theorems.Slicing
import Mzmq.Theorems.RadioDrivers
import Mzmq.Theorems.Tables
import Mzmq.Theorems.Hello
import Mzmq.Theorems.ErrorFrame
import Mzmq.Theorems.IndexSafety
import Mzmq.Theorems.Atomic
import Mzmq.Theorems.RawReady
import Mzmq.Theorems.BufferDiscipline
import Mzmq.Theorems.KeepAlive
import Mzmq.Theorems.Endpoint
import Mzmq.Theorems.Subscriber
import Mzmq.Theorems.Pacing
import Mzmq.Theorems.Conforming
import Mzmq.Theorems.PubHello
import Mzmq.Theorems.Async
import Mzmq.Theorems.Network
