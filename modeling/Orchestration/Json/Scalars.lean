import Orchestration.Cents
import Orchestration.Json.Decoder
import Orchestration.Time.Text
import Orchestration.Uuid

namespace Orchestration

namespace Json

def ofUInt32 (n : UInt32) : Json := .int n.toNat

def ofUInt64 (n : UInt64) : Json := .int n.toNat

def ofCents (c : Cents) : Json := .int c.value

def ofUuid (u : Uuid) : Json := .string u.text

def ofUuids (us : List Uuid) : Json := .array (us.map ofUuid)

def ofTimestamp (t : Timestamp) : Json := .string t.text

end Json

namespace Decoder

def cents : Decoder Cents
  | _, .int n => Cents.ofInt? n
  | _, _ => none

def uuid : Decoder Uuid
  | _, .string s => Uuid.ofText? s
  | _, _ => none

def timestamp : Decoder Timestamp
  | _, .string s => Timestamp.ofText? s
  | _, _ => none

def named (all : List α) (name : α → String) : Decoder α := choice (all.map fun a => (name a, a))

end Decoder

end Orchestration
