import Mzmq.Greeting
import Mzmq.Null
import Mzmq.Plain
import Mzmq.RadioConnection
import Mzmq.Connection

/-!
# What a peer sends

The byte-level fixtures of `test_helpers.rs`: greetings, handshake commands and subscriptions of SUB and DISH peers.
-/

namespace Mzmq

namespace Peer

/-- A NULL greeting of a SUB or a DISH peer. -/
def subGreeting : List UInt8 := greetingOf Mechanism.null.name 0x00

/-- A PLAIN greeting of a client. -/
def plainSubGreeting : List UInt8 := greetingOf Mechanism.plain.name 0x00

/-- A short command frame. -/
def commandFrame (name payload : List UInt8) : List UInt8 :=
  [0x04, UInt8.ofNat (1 + name.length + payload.length), UInt8.ofNat name.length] ++ name ++ payload

/-- The metadata of READY: the Socket-Type property alone. -/
def socketTypeProperty (value : List UInt8) : List UInt8 :=
  (0x0B :: socketTypeName) ++ [0, 0, 0, UInt8.ofNat value.length] ++ value

/-- READY with Socket-Type SUB, and with Socket-Type DISH. -/
def subReady : List UInt8 := commandFrame readyName (socketTypeProperty subName)
def dishReady : List UInt8 := commandFrame readyName (socketTypeProperty dishName)

/-- HELLO with credentials. -/
def plainHello (username password : List UInt8) : List UInt8 :=
  commandFrame helloName
    ((UInt8.ofNat username.length :: username) ++ (UInt8.ofNat password.length :: password))

/-- The calls that bring a new NULL connection to where it reads READY. -/
def opening : List Conn.Op :=
  [.writeGreeting (List.replicate 64 0), .feed subGreeting, .writeReady (List.replicate 64 0)]

/-- SUBSCRIBE and JOIN. -/
def subSubscribe (p : List UInt8) : List UInt8 := commandFrame Connection.subscribeName p
def dishJoin (group : List UInt8) : List UInt8 := commandFrame RadioConnection.joinName group

end Peer

end Mzmq
