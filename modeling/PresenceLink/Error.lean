import PresenceLink.ErrorCode

/-!
# Errors

A `TransportError` is what a transport reports: a code and a text. A
`ClientError` is what the client reports to its user.
-/

namespace PresenceLink

structure TransportError where
  code : Int32
  message : String
  deriving DecidableEq, Repr

namespace TransportError

def pipeClosed : TransportError := { code := ErrorCode.pipeClosed.code, message := "Pipe closed" }

def readCorrupt (detail : String) : TransportError :=
  { code := ErrorCode.readCorrupt.code, message := "Read corrupt: " ++ detail }

/-- The known meaning of the code, if it has one. -/
def known? (e : TransportError) : Option ErrorCode := ErrorCode.ofCode? e.code

def describe (e : TransportError) : String :=
  "transport error " ++ toString e.code.toInt ++ ": " ++ e.message

end TransportError

/-- What kind of failure the operating system reports. -/
inductive DeviceFault where
  | brokenPipe
  | connectionReset
  | connectionAborted
  | unexpectedEnd
  | other
  deriving DecidableEq, Repr

/-- A failure of the operating system, with its text. -/
structure DeviceError where
  fault : DeviceFault
  detail : String
  deriving DecidableEq, Repr

/-- The four faults that mean "the other end is gone" become one error; any
other keeps its text. -/
def DeviceError.toTransport (e : DeviceError) : TransportError :=
  match e.fault with
  | .other => { code := ErrorCode.pipeClosed.code, message := e.detail }
  | _ => .pipeClosed

inductive ClientError where
  | invalidApplicationId (detail : String)
  | messageTooLarge (capacity : Nat)
  | transport (error : TransportError)
  | device (error : DeviceError)
  deriving DecidableEq, Repr

def ClientError.message : ClientError → String
  | invalidApplicationId detail => "invalid application id: " ++ detail
  | messageTooLarge capacity =>
    "message exceeds slot capacity of " ++ toString capacity ++ " bytes"
  | transport error => error.describe
  | device error => "I/O error: " ++ error.detail

end PresenceLink
