import RightsPolicy.Json.Printer
import RightsPolicy.Json.Reader
import RightsPolicy.Vocabulary.Basic
import RightsPolicy.Calendar.Timestamp

namespace RightsPolicy

namespace Json

inductive ReadError where
  | malformed
  | mismatch
  | unknownTerm (unknown : UnknownTerm)
  | notScalar (found : Json)
  deriving Repr

def ReadError.detail? : ReadError → Option String
  | .unknownTerm unknown => some unknown.message
  | .notScalar found => some ("expected a scalar value, found " ++ found.sorted.render .compact)
  | .malformed => none
  | .mismatch => none

def unexpected (value : Json) : ReadError :=
  if value.isWhole then .mismatch else .malformed

end Json

structure Codec (α : Type) where
  write : α → Json
  read : Json → Except Json.ReadError α

namespace Codec

variable {α : Type}

def text : Codec String where
  write := .text
  read
    | .text s => .ok s
    | value => .error value.unexpected

def flag : Codec Bool where
  write := .bool
  read
    | .bool b => .ok b
    | value => .error value.unexpected

def word64 : Codec UInt64 where
  write n := .integer n.toNat
  read
    | .integer n =>
      if 0 ≤ n ∧ n < UInt64.size then .ok (UInt64.ofNat n.toNat) else .error .mismatch
    | value => .error value.unexpected

def int32 : Codec Int32 where
  write n := .integer n.toInt
  read
    | .integer n =>
      if Int32.minValue.toInt ≤ n ∧ n ≤ Int32.maxValue.toInt then .ok (Int32.ofInt n)
      else .error .mismatch
    | value => .error value.unexpected

def timestamp : Codec Instant where
  write t := .text (Timestamp.text t)
  read
    | .text s =>
      match Timestamp.read? s with
      | some t => .ok t
      | none => .error .mismatch
    | value => .error value.unexpected

def term [DecidableEq α] [Vocabulary α] : Codec α where
  write a := .text (Vocabulary.term a)
  read
    | .text s =>
      match Vocabulary.read s with
      | .ok a => .ok a
      | .error unknown => .error (.unknownTerm unknown)
    | value => .error value.unexpected

def scalar : Codec String where
  write := .text
  read
    | .text s => .ok s
    | .null => .ok ""
    | .array items =>
      .error (if Json.areReadable items then .notScalar (.array items) else .malformed)
    | .object members =>
      .error (if Json.membersAreReadable members then .notScalar (.object members)
        else .malformed)
    | .misnamed _ => .error .malformed
    | .unreadable => .error .malformed
    | .broken => .error .malformed
    | value => .ok (value.render .compact)

def option (codec : Codec α) : Codec (Option α) where
  write
    | some a => codec.write a
    | none => .null
  read
    | .null => .ok none
    | value => (codec.read value).map some

def readItems (codec : Codec α) : List Json → Except Json.ReadError (List α)
  | [] => .ok []
  | item :: rest => do
    let a ← codec.read item
    let as ← codec.readItems rest
    .ok (a :: as)

def list (codec : Codec α) : Codec (List α) where
  write as := .array (as.map codec.write)
  read
    | .array items => codec.readItems items
    | value => .error value.unexpected

def ofText (codec : Codec α) (s : String) : Except Json.ReadError α := do
  let reading := Json.ofText s
  let a ← codec.read reading.value
  if reading.rest.isEmpty then .ok a else .error .malformed

def toText (codec : Codec α) (layout : Json.Layout) (a : α) : String :=
  (codec.write a).render layout

end Codec

end RightsPolicy
