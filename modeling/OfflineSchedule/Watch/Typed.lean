import OfflineSchedule.Text.Utf8
import OfflineSchedule.Watch.Inbox
/-!
# Typed input

Bytes as they are typed, cut into lines. A line that is no text ends the input.
-/

namespace OfflineSchedule.Watch

structure Typed where
  /-- The line that is being typed, backwards. -/
  bytes : List UInt8 := []
  isClosed : Bool := false
deriving DecidableEq, Repr

namespace Typed

variable {ν : Type}

/-- A carriage return before the end of the line does not count. -/
def dropReturn : List UInt8 → List UInt8
  | 0x0D :: bytes => bytes
  | bytes => bytes

/-- The text of a line that is given backwards. -/
def textOf (bytes : List UInt8) : Option String := Text.Utf8.decode? bytes.reverse

def closed : Typed := { bytes := [], isClosed := true }

/-- Reads further bytes. -/
def feed : List UInt8 → Typed → List (Notice ν) × Typed
  | [], t => ([], t)
  | b :: bs, t =>
    if t.isClosed then ([], t)
    else if b = 0x0A then
      match textOf (dropReturn t.bytes) with
      | some text =>
        let (notices, t) := feed bs { t with bytes := [] }
        (.line text :: notices, t)
      | none => ([.closed], closed)
    else feed bs { t with bytes := b :: t.bytes }

/-- Ends the input. What was typed last counts as a line. -/
def close (t : Typed) : List (Notice ν) × Typed :=
  if t.isClosed then ([], t)
  else if t.bytes.isEmpty then ([.closed], closed)
  else
    match textOf t.bytes with
    | some text => ([.line text, .closed], closed)
    | none => ([.closed], closed)

end Typed

end OfflineSchedule.Watch
