import Mzmq.Lib.Checked
import Mzmq.Null

/-!
# PLAIN mechanism

The HELLO and WELCOME commands (`plain.rs`).
-/

namespace Mzmq

open Checked

inductive PlainError where
  | bufferTooSmall
  | notACommand
  | unknownCommand
  | malformedHello
  | authFailed
  | peerError
  deriving DecidableEq, Repr

/-- The WELCOME frame: flags 0x04, size 0x08, `"WELCOME"`. -/
def welcomeFrame : List UInt8 := [0x04, 0x08, 0x07, 0x57, 0x45, 0x4C, 0x43, 0x4F, 0x4D, 0x45]

/-- `b"HELLO"`. -/
def helloName : List UInt8 := [0x48, 0x45, 0x4C, 0x4C, 0x4F]

/-- Write a WELCOME command into `buf`. -/
def encodeWelcome (buf : List UInt8) : List UInt8 × Except PlainError Nat :=
  if buf.length < welcomeFrame.length then (buf, .error .bufferTooSmall)
  else (splice buf 0 welcomeFrame, .ok welcomeFrame.length)

/-- A one-byte length at `pos` and the field behind it, as the field and the position behind it. -/
def readField (body : List UInt8) (pos : Nat) : Res PlainError (List UInt8 × Nat) := do
  if pos ≥ body.length then throw (.err .malformedHello)
  let len := (← index body pos).toNat
  let pos := pos + 1
  if pos + len > body.length then throw (.err .malformedHello)
  let field ← slice body pos (pos + len)
  return (field, pos + len)

/-- Parse a HELLO command from a frame: the username and the password. No position exceeds `body.len() + 256`, so the
additions cannot overflow. -/
def parseHelloFrom (isCommand : Bool) (body : List UInt8) : Res PlainError (List UInt8 × List UInt8) :=
  if isCommand = false then .error (.err .notACommand)
  else
    match body with
    | [] => .error (.err .malformedHello)
    | nameLen :: _ =>
      if body.length < 1 + nameLen.toNat then .error (.err .malformedHello)
      else
        match slice body 1 (1 + nameLen.toNat) with
        | .error f => .error f
        | .ok name =>
          if name = errorName then .error (.err .peerError)
          else if name ≠ helloName then .error (.err .unknownCommand)
          else do
            let (username, pos) ← readField body (1 + nameLen.toNat)
            let (password, _) ← readField body pos
            return (username, password)

end Mzmq
