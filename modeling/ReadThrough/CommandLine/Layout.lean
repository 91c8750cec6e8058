import ReadThrough.Store.Response
import ReadThrough.Text.Escaped

namespace ReadThrough.CommandLine

inductive Layout where
  | atom (text : String)
  | block (opening closing : String) (parts : List (String × Layout))

namespace Layout

def indent (depth : Nat) : String :=
  String.ofList (List.replicate (4 * depth) ' ')

mutual

def render (depth : Nat) : Layout → String
  | .atom text => text
  | .block opening closing [] => opening ++ closing
  | .block opening closing (part :: parts) =>
      opening ++ "\n" ++ renderParts (depth + 1) (part :: parts) ++ indent depth ++ closing

def renderParts (depth : Nat) : List (String × Layout) → String
  | [] => ""
  | (label, part) :: parts =>
      indent depth ++ label ++ render depth part ++ ",\n" ++ renderParts depth parts

end

def unlabelled (parts : List Layout) : List (String × Layout) :=
  parts.map fun part => ("", part)

def record (name : String) (parts : List (String × Layout)) : Layout :=
  .block (name ++ " \x7b") "\x7d" (parts.map fun part => (part.1 ++ ": ", part.2))

def tuple (name : String) (parts : List Layout) : Layout :=
  .block (name ++ "(") ")" (unlabelled parts)

def list (parts : List Layout) : Layout :=
  .block "[" "]" (unlabelled parts)

def option : Option Layout → Layout
  | none => .atom "None"
  | some part => tuple "Some" [part]

def bytes (data : Bytes) : Layout :=
  .atom (Text.byteLiteral data)

def number (n : Nat) : Layout :=
  .atom (toString n)

def bool (b : Bool) : Layout :=
  .atom (if b then "true" else "false")

def sibling (s : Store.Sibling) : Layout :=
  record "Sibling"
    [("value", bytes s.value),
      ("content_type", option (s.contentType.map bytes)),
      ("last_modified", option (s.lastModified.map fun (secs, usecs) =>
        tuple "" [number secs.toNat, number usecs.toNat])),
      ("deleted", bool s.deleted)]

def response : Store.Response → Layout
  | .found siblings vclock =>
      record "GetResult"
        [("siblings", list (siblings.map sibling)), ("vclock", option (vclock.map bytes))]
  | .putAck vclock => record "PutAck" [("vclock", option (vclock.map bytes))]
  | .deleteAck => .atom "DeleteAck"
  | .set members context =>
      record "SetFetchResult"
        [("members", list (members.map bytes)), ("context", option (context.map bytes))]
  | .counter value => tuple "CounterValue" [.atom (toString value.toInt)]
  | .updateAck => .atom "UpdateAck"
  | .error message code =>
      record "Error" [("message", .atom (Text.quoted message)), ("code", number code.toNat)]

end Layout

end ReadThrough.CommandLine
