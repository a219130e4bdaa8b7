import CoolOnline.Library.Streams
import Mathlib.Algebra.Order.Ring.Int

/-! # WebSocket frames

`WebSocketHandler` of `net/WebSocketHandler.hpp`: the frames it builds and sends, and what it does
with the frames it receives.
-/

namespace CoolOnline

open Streams

abbrev Bytes := List UInt8

/-- `WSOpCode`, four bits. -/
inductive WSOpCode
  | continuation
  | text
  | binary
  | reserved (code : Nat)
  | close
  | ping
  | pong
  | reservedControl (code : Nat)
deriving DecidableEq, Repr

namespace WSOpCode

def ofNat (n : Nat) : WSOpCode :=
  if n = 0 then continuation
  else if n = 1 then text
  else if n = 2 then binary
  else if n < 8 then reserved n
  else if n = 8 then close
  else if n = 9 then ping
  else if n = 10 then pong
  else reservedControl n

def toNat : WSOpCode → Nat
  | continuation => 0
  | text => 1
  | binary => 2
  | reserved code => code
  | close => 8
  | ping => 9
  | pong => 10
  | reservedControl code => code

def isControlFrame : WSOpCode → Bool
  | close | ping | pong | reservedControl _ => true
  | _ => false

end WSOpCode

/-- A frame as it has been received, with the mask taken off its payload. -/
structure Frame where
  fin : Bool
  code : WSOpCode
  hasMask : Bool
  payload : Bytes
deriving DecidableEq, Repr

namespace WebSocketHandler

/-- Bytes shifted together, the highest one first. -/
def bigEndian (bytes : Bytes) : Nat := bytes.foldl (fun n b => n * 2 ^ 8 + b.toNat) 0

/-- Every byte with the byte of the mask for its place, the first one being at `i`. -/
def applyMask (mask : Bytes) (i : Nat) (data : Bytes) : Bytes :=
  data.mapIdx fun j b => b ^^^ mask.getD ((i + j) % 4) 0

/-! ## Building frames -/

def maskFlag (isMasking : Bool) : UInt8 := if isMasking then 0x80 else 0

/-- The length, with the bit for the mask. -/
def lengthBytes (maskFlag : UInt8) (len : Nat) : Bytes :=
  if len < 126 then [UInt8.ofNat len ||| maskFlag]
  else if len ≤ 0xffff then
    [126 ||| maskFlag, UInt8.ofNat (len / 2 ^ 8), UInt8.ofNat len]
  else
    [127 ||| maskFlag, UInt8.ofNat (len / 2 ^ 56), UInt8.ofNat (len / 2 ^ 48),
      UInt8.ofNat (len / 2 ^ 40), UInt8.ofNat (len / 2 ^ 32), UInt8.ofNat (len / 2 ^ 24),
      UInt8.ofNat (len / 2 ^ 16), UInt8.ofNat (len / 2 ^ 8), UInt8.ofNat len]

/-- The mask that is always used. -/
def maskBytes : Bytes := [0x81, 0x76, 0x81, 0x76]

/-- The loop that masks a block of `copy` at a time; every turn takes one byte at least. -/
def maskBlocks : Nat → Nat → Bytes → Bytes
  | 0, _, _ => []
  | fuel + 1, i, rest =>
      let toSend := min 16384 rest.length
      if toSend = 0 then []
      else
        applyMask maskBytes i (rest.take toSend) ++
          maskBlocks fuel (i + toSend) (rest.drop toSend)

def buildFrame (isMasking : Bool) (flags : UInt8) (data : Bytes) : Bytes :=
  (0x80 ||| flags) :: lengthBytes (maskFlag isMasking) data.length ++
    (if isMasking then maskBytes ++ maskBlocks (data.length + 1) 0 data else data)

/-! ## Reading frames -/

def readPayload (mask : Option Bytes) (data : Bytes) : Bytes :=
  match mask with
  | some mask => applyMask mask 0 data
  | none => data

/-- The length of the payload, when all of it is there. -/
def readLength (p1 : UInt8) (rest : Bytes) : Option (Nat × Bytes) :=
  let payloadLen := (p1 &&& 0x7f).toNat
  if payloadLen = 126 then
    (takeExact 2 rest).map fun (bytes, rest) => (bigEndian bytes, rest)
  else if payloadLen = 127 then
    (takeExact 8 rest).map fun (bytes, rest) => (bigEndian bytes, rest)
  else some (payloadLen, rest)

def readMask (hasMask : Bool) (rest : Bytes) : Option (Option Bytes × Bytes) :=
  if hasMask then (takeExact 4 rest).map fun (mask, rest) => (some mask, rest)
  else some (none, rest)

/-- The first frame in the buffer, when all of it is there, and what is behind it. -/
def readFrame : Bytes → Option (Frame × Bytes)
  | p0 :: p1 :: rest =>
      (readLength p1 rest).bind fun (payloadLen, rest) =>
        (readMask (p1 &&& 0x80 != 0) rest).bind fun (mask, rest) =>
          (takeExact payloadLen rest).map fun (data, rest) =>
            ({ fin := p0 &&& 0x80 != 0
               code := .ofNat (p0 &&& 0x0f).toNat
               hasMask := p1 &&& 0x80 != 0
               payload := readPayload mask data }, rest)
  | _ => none

end WebSocketHandler

/-- A handler, with what it has written to the socket and all the messages it has passed to
`handleMessage`, oldest first. -/
structure WebSocketHandler where
  wsPayload : Bytes
  inFragmentBlock : Bool
  shuttingDown : Bool
  outBuffer : Bytes
  handled : List Bytes
deriving DecidableEq, Repr

namespace WebSocketHandler

def fresh : WebSocketHandler := ⟨[], false, false, [], []⟩

/-- `StatusCodes::NORMAL_CLOSE`. -/
def normalClose : Nat := 1000

/-- `StatusCodes::PROTOCOL_ERROR`. -/
def protocolError : Nat := 1002

/-! ## Handling frames -/

section

-- The byte behind a payload of one byte, which a close frame is read up to.
variable (isClient isMasking : Bool) (beyond : UInt8) (s : WebSocketHandler)

/-- `sendFrame`, on an open socket. -/
def sendFrame (flags : UInt8) (data : Bytes) : WebSocketHandler :=
  if data = [] then s
  else { s with outBuffer := s.outBuffer ++ buildFrame isMasking flags data }

def sendCloseFrame (statusCode : Nat) (statusMessage : Bytes) : WebSocketHandler :=
  if s.shuttingDown then s
  else
    { s with shuttingDown := true }.sendFrame isMasking (0x80 ||| 0x08)
      (UInt8.ofNat (statusCode / 2 ^ 8) :: UInt8.ofNat statusCode :: statusMessage)

/-- `shutdown`, after which the socket ignores its input. -/
def shutdown (statusCode : Nat) (statusMessage : Bytes) : Turn WebSocketHandler UInt8 :=
  .stop { s.sendCloseFrame isMasking statusCode statusMessage with
    wsPayload := []
    inFragmentBlock := false
    shuttingDown := false }

/-- The status and the message of a close frame from the peer, if it is not an echo. -/
def closeReason (ctrlPayload : Bytes) : Nat × Bytes :=
  if s.shuttingDown ∨ ctrlPayload = [] then (normalClose, [])
  else
    ((ctrlPayload.getD 0 0).toNat * 2 ^ 8 + (ctrlPayload.getD 1 beyond).toNat, ctrlPayload.drop 2)

def handleControlFrame (frame : Frame) (rest : Bytes) : Turn WebSocketHandler UInt8 :=
  if !frame.fin then s.shutdown isMasking protocolError []
  else if frame.payload.length > 125 then s.shutdown isMasking protocolError []
  else
    match frame.code with
    | .pong => .next s rest
    | .ping => .next (s.sendFrame isMasking (0x80 ||| 0x0a) frame.payload) rest
    | .close =>
        s.shutdown isMasking (s.closeReason beyond frame.payload).1
          (s.closeReason beyond frame.payload).2
    | _ => s.shutdown isMasking protocolError []

/-- The message that the frame ends is passed to `handleMessage`. -/
def finishMessage (frame : Frame) : WebSocketHandler :=
  { s with
    wsPayload := []
    inFragmentBlock := false
    handled := s.handled ++ [s.wsPayload ++ frame.payload] }

def addFragment (frame : Frame) : WebSocketHandler :=
  { s with wsPayload := s.wsPayload ++ frame.payload, inFragmentBlock := true }

def handleDataFrame (frame : Frame) (rest : Bytes) : Turn WebSocketHandler UInt8 :=
  if frame.fin then .next (s.finishMessage frame) rest else .next (s.addFragment frame) rest

/-- What follows in `handleTCPStream` when a frame is there. -/
def handleFrame (frame : Frame) (rest : Bytes) : Turn WebSocketHandler UInt8 :=
  if frame.hasMask && isClient then s.shutdown isMasking protocolError []
  else if frame.code.isControlFrame then s.handleControlFrame isMasking beyond frame rest
  else if s.inFragmentBlock then
    if frame.code ≠ .continuation then s.shutdown isMasking protocolError []
    else s.handleDataFrame frame rest
  else if frame.code = .continuation then s.shutdown isMasking protocolError []
  else s.handleDataFrame frame rest

/-- `handleTCPStream`; `wait` is where it returns `false`. -/
def handleTCPStream (inBuffer : Bytes) : Turn WebSocketHandler UInt8 :=
  match readFrame inBuffer with
  | none => .wait
  | some (frame, rest) => s.handleFrame isClient isMasking beyond frame rest

end

end WebSocketHandler

end CoolOnline
