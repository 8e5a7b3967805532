import Mathlib.Data.UInt

/-! The tunnel protocol: limits, messages and their wire codec (`proto/src/lib.rs`). -/
namespace X2rp.Proto

abbrev Bytes := List UInt8

/-- Max concurrent tunnels per connector session. -/
def maxActiveStreams : Nat := 128

/-- Per-stream flow-control window of the WSS mux, in bytes per direction. -/
def streamRecvWindow : Nat := 256 * 1024

/-- Drained bytes are granted back once they reach half a window. -/
def windowUpdateThreshold : Nat := streamRecvWindow / 2

/-- Depth of the shared message channels between connector and transport. -/
def connectorChannelCapacity : Nat := 64

/-- Read chunk size for tunnel pumps. -/
def tunnelReadChunk : Nat := 32 * 1024

def maxDataPayloadLen : Nat := 128 * 1024

def maxConnectTargetLen : Nat := 2048

/-- Longer errors are truncated, never refused. -/
def maxConnectErrLen : Nat := 1024

def maxAuthTokenLen : Nat := 512

/-- A Data message: type, stream id, length, payload. -/
def maxMessageBodyLen : Nat := maxDataPayloadLen + 9

/-- The largest control message, a Connect: type, stream id, length, target. -/
def maxFrameBodyLen : Nat := maxConnectTargetLen + 7

/-- The two `io::ErrorKind`s the codec produces. -/
inductive ErrorKind
  | invalidData
  | invalidInput
deriving DecidableEq, Repr

structure IoError where
  kind : ErrorKind
  message : String
deriving DecidableEq, Repr

def bad (e : String) : IoError := ⟨.invalidData, e⟩

/-- Wire type of each message. -/
inductive MessageType
  | connect | connectOk | connectErr | data | close | reset | windowUpdate | auth
deriving DecidableEq, Repr

/-- The `repr(u8)` discriminants. -/
def MessageType.toUInt8 : MessageType → UInt8
  | .connect => 0x01
  | .connectOk => 0x02
  | .connectErr => 0x03
  | .data => 0x10
  | .close => 0x20
  | .reset => 0x21
  | .windowUpdate => 0x22
  | .auth => 0x40

def MessageType.tryFrom (value : UInt8) : Except IoError MessageType :=
  if value = 0x01 then .ok .connect
  else if value = 0x02 then .ok .connectOk
  else if value = 0x03 then .ok .connectErr
  else if value = 0x10 then .ok .data
  else if value = 0x20 then .ok .close
  else if value = 0x21 then .ok .reset
  else if value = 0x22 then .ok .windowUpdate
  else if value = 0x40 then .ok .auth
  else .error (bad "unknown message type")

/-- A connector protocol message. -/
inductive Message
  | connect (streamId : UInt32) (target : String)
  | connectOk (streamId : UInt32)
  | connectErr (streamId : UInt32) (error : String)
  | data (streamId : UInt32) (payload : Bytes)
  | close (streamId : UInt32)
  | reset (streamId : UInt32)
  | windowUpdate (streamId : UInt32) (bytes : UInt32)
  | auth (token : String)
deriving DecidableEq, Repr

/-- `u16::to_be_bytes`. -/
def toBeBytes16 (x : UInt16) : Bytes :=
  [UInt8.ofNat (x.toNat / 256), UInt8.ofNat x.toNat]

/-- `u32::to_be_bytes`. -/
def toBeBytes32 (x : UInt32) : Bytes :=
  [UInt8.ofNat (x.toNat / 2 ^ 24), UInt8.ofNat (x.toNat / 2 ^ 16),
    UInt8.ofNat (x.toNat / 2 ^ 8), UInt8.ofNat x.toNat]

/-- `str::as_bytes`. -/
def asBytes (s : String) : Bytes := s.toByteArray.data.toList

/-- `str::floor_char_boundary`: the last character boundary at or before `index`. -/
def floorCharBoundary (s : String) (index : Nat) : s.Pos :=
  if s.utf8ByteSize ≤ index then s.endPos else go index
where
  go : Nat → s.Pos
    | 0 => s.startPos
    | i + 1 => if h : (⟨i + 1⟩ : String.Pos.Raw).IsValid s then ⟨⟨i + 1⟩, h⟩ else go i

/-- `&s[..s.floor_char_boundary(max)]`: slicing at a boundary cannot panic. -/
def truncateStr (s : String) (max : Nat) : String :=
  s.extract s.startPos (floorCharBoundary s max)

/-- `[u16 BE len][utf-8]`, refusing a length outside `min..=max`. -/
def putStr (buf : Bytes) (s : String) (min max : Nat) : Except IoError Bytes :=
  let len := s.utf8ByteSize
  if min ≤ len ∧ len ≤ max then
    .ok (buf ++ toBeBytes16 (UInt16.ofNat len) ++ asBytes s)
  else .error ⟨.invalidInput, s!"string length {len} outside {min}..={max}"⟩

def getU32 : Bytes → Except IoError (UInt32 × Bytes)
  | a :: b :: c :: d :: rest =>
    .ok (UInt32.ofNat (a.toNat * 2 ^ 24 + b.toNat * 2 ^ 16 + c.toNat * 2 ^ 8 + d.toNat), rest)
  | _ => .error (bad "message truncated")

/-- `Utf8Error`: how much is valid, and how long the sequence behind that is which is not; none if
the input ends within one. -/
structure Utf8Error where
  validUpTo : Nat
  errorLen : Option Nat
deriving DecidableEq, Repr

def Utf8Error.toString : Utf8Error → String
  | ⟨validUpTo, some errorLen⟩ =>
    s!"invalid utf-8 sequence of {errorLen} bytes from index {validUpTo}"
  | ⟨validUpTo, none⟩ => s!"incomplete utf-8 byte sequence from index {validUpTo}"

/-- The ranges of the bytes that have to follow the first of a sequence, as `core::str` has them. -/
def utf8Owed (first : UInt8) : Option (List (UInt8 × UInt8)) :=
  let later := (0x80, 0xBF)
  if first < 0x80 then some []
  else if first < 0xC2 then none
  else if first < 0xE0 then some [later]
  else if first = 0xE0 then some [(0xA0, 0xBF), later]
  else if first = 0xED then some [(0x80, 0x9F), later]
  else if first < 0xF0 then some [later, later]
  else if first = 0xF0 then some [(0x90, 0xBF), later, later]
  else if first < 0xF4 then some [later, later, later]
  else if first = 0xF4 then some [(0x80, 0x8F), later, later]
  else none

/-- Where the check of an input that is not UTF-8 ends. It has `n` bytes of a sequence that begins
at `start`, and `owed` are the ranges of those that are still to come. -/
def utf8Error (start n : Nat) : List (UInt8 × UInt8) → Bytes → Utf8Error
  | _, [] => ⟨start, none⟩
  | [], first :: rest =>
    match utf8Owed first with
    | some owed => utf8Error (start + n) 1 owed rest
    | none => ⟨start + n, some 1⟩
  | (lo, hi) :: owed, b :: rest =>
    if lo ≤ b ∧ b ≤ hi then utf8Error start (n + 1) owed rest else ⟨start, some n⟩

-- a euro sign behind `a`, cut off and with a wrong third byte
example : utf8Error 0 0 [] [0x61, 0xE2, 0x82] = ⟨1, none⟩ ∧
    utf8Error 0 0 [] [0x61, 0xE2, 0x82, 0x61] = ⟨1, some 2⟩ := by
  decide

/-- `String::from_utf8`. -/
def fromUtf8 (bytes : Bytes) : Except Utf8Error String :=
  match String.fromUTF8? ⟨bytes.toArray⟩ with
  | some s => .ok s
  | none => .error (utf8Error 0 0 [] bytes)

def getStr (buf : Bytes) (min max : Nat) : Except IoError (String × Bytes) :=
  match buf with
  | a :: b :: rest =>
    let len := a.toNat * 256 + b.toNat
    if ¬ (min ≤ len ∧ len ≤ max) ∨ rest.length < len then
      .error (bad s!"string length {len} invalid")
    else
      match fromUtf8 (rest.take len) with
      | .ok s => .ok (s, rest.drop len)
      | .error e => .error (bad e.toString)
  | _ => .error (bad "message truncated")

namespace Message

def kind : Message → MessageType
  | .connect .. => .connect
  | .connectOk .. => .connectOk
  | .connectErr .. => .connectErr
  | .data .. => .data
  | .close .. => .close
  | .reset .. => .reset
  | .windowUpdate .. => .windowUpdate
  | .auth .. => .auth

def streamId? : Message → Option UInt32
  | .connect id _ | .connectOk id | .connectErr id _ | .data id _ | .close id | .reset id
  | .windowUpdate id _ => some id
  | .auth _ => none

/-- The type byte, then the stream id of every message that has one. -/
def header (m : Message) : Bytes :=
  m.kind.toUInt8 :: (m.streamId?.map toBeBytes32).getD []

def encodeInto (m : Message) (buf : Bytes) : Except IoError Bytes :=
  let buf := buf ++ m.header
  match m with
  | .connect _ target => putStr buf target 0 maxConnectTargetLen
  | .connectErr _ error => putStr buf (truncateStr error maxConnectErrLen) 0 maxConnectErrLen
  | .auth token => putStr buf token 1 maxAuthTokenLen
  | .data _ payload =>
    let len := payload.length
    if maxDataPayloadLen < len then
      .error ⟨.invalidInput, s!"data payload too large: {len} bytes"⟩
    else .ok (buf ++ toBeBytes32 (UInt32.ofNat len) ++ payload)
  | .windowUpdate _ bytes => .ok (buf ++ toBeBytes32 bytes)
  | .connectOk _ | .close _ | .reset _ => .ok buf

/-- The message body: one WebSocket binary message. -/
def encode (m : Message) : Except IoError Bytes := m.encodeInto []

/-- The fields after the type byte, with what is left of the buffer. -/
def decodeFields (kind : MessageType) (buf : Bytes) : Except IoError (Message × Bytes) :=
  match kind with
  | .connect => do
    let (streamId, buf) ← getU32 buf
    let (target, buf) ← getStr buf 0 maxConnectTargetLen
    pure (.connect streamId target, buf)
  | .connectOk => do
    let (streamId, buf) ← getU32 buf
    pure (.connectOk streamId, buf)
  | .connectErr => do
    let (streamId, buf) ← getU32 buf
    let (error, buf) ← getStr buf 0 maxConnectErrLen
    pure (.connectErr streamId error, buf)
  | .data => do
    let (streamId, buf) ← getU32 buf
    let (len, buf) ← getU32 buf
    let len := len.toNat
    if maxDataPayloadLen < len ∨ buf.length < len then
      .error (bad s!"data payload length {len} invalid")
    else pure (.data streamId (buf.take len), buf.drop len)
  | .close => do
    let (streamId, buf) ← getU32 buf
    pure (.close streamId, buf)
  | .reset => do
    let (streamId, buf) ← getU32 buf
    pure (.reset streamId, buf)
  | .windowUpdate => do
    let (streamId, buf) ← getU32 buf
    let (bytes, buf) ← getU32 buf
    pure (.windowUpdate streamId bytes, buf)
  | .auth => do
    let (token, buf) ← getStr buf 1 maxAuthTokenLen
    pure (.auth token, buf)

def decode : Bytes → Except IoError Message
  | [] => .error (bad "empty message")
  | b :: buf => do
    let kind ← MessageType.tryFrom b
    let (msg, buf) ← decodeFields kind buf
    if buf ≠ [] then .error (bad "trailing bytes after message") else pure msg

end Message

end X2rp.Proto
