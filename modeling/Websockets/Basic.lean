import Mathlib

/-!
# Bytes, error codes and payloads

The data both classes share. A `std::string` and a `std::vector<uint8_t>` are their octets;
`beast::error_code` is `Option ErrorCode`, with `none` for success; a payload keeps the two
buffers of its source struct and `buffer` picks one of them by `isText`, as `Buffer()` does.
-/

namespace Websockets

/-- The octets of a `std::string` or of a `std::vector<uint8_t>`. -/
abbrev Bytes := List UInt8

/-- An ASCII literal of the source. -/
def str (s : String) : Bytes := s.toList.map fun c => c.toNat.toUInt8

/-- A function the application registered, told apart by a number. -/
abbrev Fn := Nat

/-- The error values the code tells apart; every other one is `other`. -/
inductive ErrorCode where
  | operationAborted
  | closed
  | eof
  | connectionReset
  | timeout
  | endOfStream
  | other (value : Nat)
  deriving DecidableEq, Repr

/-- A line handed to `LogError`: `DescribeError(stage, ec)`, or a text of its own. -/
inductive LogLine where
  | failed (stage : String) (ec : ErrorCode)
  | text (line : String)
  deriving DecidableEq, Repr

/-- A websocket frame as a read delivers it (`got_text()` and the bytes). -/
structure Frame where
  isText : Bool
  data : Bytes
  deriving DecidableEq, Repr

/-- The frame of a completion that delivers none. -/
def noFrame : Frame := ⟨true, []⟩

/-- What `DoWrite` reads of a queued payload. -/
class Payload (P : Type) where
  isText : P → Bool
  buffer : P → Bytes

/-- `SPayload` of the server. The buffers are shared, so they may be absent. -/
structure SPayload where
  isText : Bool := false
  text : Option Bytes := none
  content : Option Bytes := none
  deriving DecidableEq, Repr

def makeTextPayload (message : Bytes) : SPayload :=
  { isText := true, text := some message }

def makeContentPayload (content : Bytes) : SPayload :=
  { isText := false, content := some content }

instance : Payload SPayload where
  isText := SPayload.isText
  buffer p := (if p.isText then p.text else p.content).getD []

/-- `SOutgoingMessage` of the client: text by value, binary shared with the caller. -/
structure SOutgoingMessage where
  isText : Bool := false
  text : Bytes := []
  binary : Option Bytes := none
  deriving DecidableEq, Repr

instance : Payload SOutgoingMessage where
  isText := SOutgoingMessage.isText
  buffer m := if m.isText then m.text else m.binary.getD []

end Websockets
