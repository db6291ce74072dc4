import Mzmq.Lib.Checked

/-!
# Greetings

The fixed 64-byte greetings and their parsers (`greeting.rs`).
-/

namespace Mzmq

/-- Size of a greeting. -/
def greetingLen : Nat := 64

/-- Index of the major version byte. -/
def versionMajor : Nat := 10

/-- Number of bytes in the partial greeting: the signature and the major version. -/
def greetingPartialLen : Nat := versionMajor + 1

def sig0 : Nat := 0
def sig9 : Nat := 9
def versionMinor : Nat := 11
def mechanismField : Nat := 12
def asServer : Nat := 32

/-- The security mechanism a connection is created for (`auth.rs`). -/
inductive Mechanism where
  | null
  | plain
  deriving DecidableEq, Repr

/-- `b"NULL"` and `b"PLAIN"`. -/
def Mechanism.name : Mechanism → List UInt8
  | .null => [0x4E, 0x55, 0x4C, 0x4C]
  | .plain => [0x50, 0x4C, 0x41, 0x49, 0x4E]

/-- The part of a peer's greeting that the library keeps. -/
structure PeerGreeting where
  versionMinor : UInt8
  deriving DecidableEq, Repr

inductive GreetingError where
  | invalidSignature
  | unsupportedVersionMajor
  | unsupportedMechanism
  | invalidAsServer
  deriving DecidableEq, Repr

/-- A greeting with a mechanism name and an `as_server` byte, every other field as both encoders set it. -/
def greetingOf (name : List UInt8) (server : UInt8) : List UInt8 :=
  [0xFF, 0, 0, 0, 0, 0, 0, 0, 0, 0x7F, 0x03, 0x01] ++ (name ++ List.replicate (20 - name.length) 0) ++
    [server] ++ List.replicate 31 0

/-- Our NULL greeting. -/
def encodeGreeting : List UInt8 := greetingOf Mechanism.null.name 0x00

/-- Our PLAIN greeting: the server identifies itself. -/
def encodePlainGreeting : List UInt8 := greetingOf Mechanism.plain.name 0x01

/-- Validate the first 11 bytes of a greeting: signature and major version. -/
def parsePartialGreeting (buf : List UInt8) : Except GreetingError Unit :=
  if buf.getD sig0 0 ≠ 0xFF ∨ buf.getD sig9 0 ≠ 0x7F then .error .invalidSignature
  else if buf.getD versionMajor 0 ≠ 0x03 then .error .unsupportedVersionMajor
  else .ok ()

/-- Parse a 64-byte greeting of a peer that names the mechanism `name`, padded with zero bytes to 20. -/
def parseGreetingOf (name : List UInt8) (buf : List.Vector UInt8 64) : Except GreetingError PeerGreeting :=
  let bytes := buf.toList
  if bytes.getD sig0 0 ≠ 0xFF ∨ bytes.getD sig9 0 ≠ 0x7F then .error .invalidSignature
  else if bytes.getD versionMajor 0 ≠ 0x03 then .error .unsupportedVersionMajor
  else if (bytes.drop mechanismField).take name.length ≠ name ∨
      ((bytes.drop (mechanismField + name.length)).take (20 - name.length)).any (· != 0) then
    .error .unsupportedMechanism
  else if bytes.getD asServer 0 ≠ 0x00 then .error .invalidAsServer
  else .ok { versionMinor := bytes.getD Mzmq.versionMinor 0 }

/-- Parse the greeting of a NULL peer. -/
def parseGreeting (buf : List.Vector UInt8 64) : Except GreetingError PeerGreeting :=
  parseGreetingOf Mechanism.null.name buf

/-- Parse the greeting of a PLAIN client. -/
def parsePlainGreeting (buf : List.Vector UInt8 64) : Except GreetingError PeerGreeting :=
  parseGreetingOf Mechanism.plain.name buf

end Mzmq
