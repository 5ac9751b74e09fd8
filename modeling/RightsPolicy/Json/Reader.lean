import RightsPolicy.Json.Token

namespace RightsPolicy.Json

inductive Frame where
  | array (items : List Json)
  | object (members : List (String × Json)) (name : String)
  | misnamed (members : List (String × Json))

inductive Expect where
  | value
  | item
  | name
  | member
  | colon
  | next

structure Reading where
  value : Json
  rest : List Token

namespace Frame

def depthLimit : Nat := 127

def close (frame : Frame) (value : Json) : Json :=
  match frame with
  | .array items => .array (items.reverse ++ [value])
  | .object members name => .object (members.reverse ++ [(name, value)])
  | .misnamed members => .object (members.reverse ++ [("", value)])

def add (frame : Frame) (value : Json) : Frame :=
  match frame with
  | .array items => .array (value :: items)
  | .object members name => .object ((name, value) :: members) ""
  | .misnamed members => .misnamed members

end Frame

def limited (frames : List Frame) (value : Json) : Json :=
  if frames.length ≤ Frame.depthLimit then value else .unreadable

def breakOff (frames : List Frame) : Reading :=
  ⟨frames.foldl (fun value frame => frame.close value) .broken, []⟩

def readOn (frames : List Frame) (expect : Expect) : List Token → Reading
  | [] => breakOff frames
  | token :: rest =>
    let complete (value : Json) (outer : List Frame) : Reading :=
      match outer with
      | [] => ⟨value, rest⟩
      | frame :: outer => readOn (frame.add value :: outer) .next rest
    let opened (frame : Frame) (expect : Expect) : Reading :=
      readOn (frame :: frames) expect rest
    match expect, token, frames with
    | .value, .scalar value, frames => complete value frames
    | .value, .surrogate, frames => complete .unreadable frames
    | .value, .openArray, _ => opened (.array []) .item
    | .value, .openObject, _ => opened (.object [] "") .member
    | .item, .scalar value, frames => complete value frames
    | .item, .surrogate, frames => complete .unreadable frames
    | .item, .openArray, _ => opened (.array []) .item
    | .item, .openObject, _ => opened (.object [] "") .member
    | .item, .closeArray, .array items :: outer =>
      complete (limited frames (.array items.reverse)) outer
    | .name, .scalar (.text name), .object members _ :: outer =>
      readOn (.object members name :: outer) .colon rest
    | .name, .surrogate, .object members _ :: outer =>
      readOn (.misnamed members :: outer) .colon rest
    | .name, .scalar (.text _), .misnamed members :: outer =>
      readOn (.misnamed members :: outer) .colon rest
    | .name, .surrogate, .misnamed members :: outer =>
      readOn (.misnamed members :: outer) .colon rest
    | .member, .surrogate, .object members _ :: outer =>
      readOn (.misnamed members :: outer) .colon rest
    | .member, .scalar (.text name), .object members _ :: outer =>
      readOn (.object members name :: outer) .colon rest
    | .member, .closeObject, .object members _ :: outer =>
      complete (limited frames (.object members.reverse)) outer
    | .colon, .colon, frames => readOn frames .value rest
    | .next, .comma, .array items :: outer => readOn (.array items :: outer) .value rest
    | .next, .comma, .object members name :: outer =>
      readOn (.object members name :: outer) .name rest
    | .next, .comma, .misnamed members :: outer => readOn (.misnamed members :: outer) .name rest
    | .next, .closeArray, .array items :: outer =>
      complete (limited frames (.array items.reverse)) outer
    | .next, .closeObject, .object members _ :: outer =>
      complete (limited frames (.object members.reverse)) outer
    | .next, .closeObject, .misnamed members :: outer =>
      complete (limited frames (.misnamed members.reverse)) outer
    | _, _, frames => breakOff frames

def ofText (s : String) : Reading :=
  readOn [] .value (tokens s.toList)

end RightsPolicy.Json
