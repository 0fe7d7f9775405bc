/-!
# Known error codes

Codes below 1000 are local, those from 1000 close a link, and those from 4000
are sent by the peer. Any other code is passed on as a number.

* `ofCode?_eq_some_iff`: a number is known exactly when it is a known code's.
-/

namespace PresenceLink

inductive ErrorCode where
  | pipeClosed
  | readCorrupt
  | normalClose
  | abnormalClose
  | invalidClientId
  | invalidOrigin
  | rateLimited
  | tokenRevoked
  | invalidVersion
  | invalidEncoding
  deriving DecidableEq, Repr

namespace ErrorCode

def code : ErrorCode → Int32
  | pipeClosed => 1
  | readCorrupt => 2
  | normalClose => 1000
  | abnormalClose => 1006
  | invalidClientId => 4000
  | invalidOrigin => 4001
  | rateLimited => 4002
  | tokenRevoked => 4003
  | invalidVersion => 4004
  | invalidEncoding => 4005

def all : List ErrorCode :=
  [pipeClosed, readCorrupt, normalClose, abnormalClose, invalidClientId, invalidOrigin,
    rateLimited, tokenRevoked, invalidVersion, invalidEncoding]

def ofCode? (n : Int32) : Option ErrorCode := all.find? fun e => e.code == n

def description : ErrorCode → String
  | pipeClosed => "The connection to the presence peer was closed."
  | readCorrupt => "Data received from the presence peer could not be framed or parsed."
  | normalClose => "The presence peer closed the connection normally."
  | abnormalClose => "The connection ended without a close handshake."
  | invalidClientId => "The application id was rejected. Check the id registered with the peer."
  | invalidOrigin => "The connection origin was rejected by the peer."
  | rateLimited => "Too many requests in a short time. Slow down and retry later."
  | tokenRevoked => "The authorization for this application was revoked."
  | invalidVersion => "The peer does not support the requested RPC version."
  | invalidEncoding => "The peer does not support the requested encoding."

theorem ofCode?_eq_some_iff {n : Int32} {e : ErrorCode} : ofCode? n = some e ↔ e.code = n := by
  constructor
  · intro h
    simpa using List.find?_some h
  · rintro rfl
    cases e <;> decide

end ErrorCode

end PresenceLink
