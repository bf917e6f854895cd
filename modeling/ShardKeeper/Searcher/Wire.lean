import ShardKeeper.Json.Printer
import ShardKeeper.Json.Reader
import ShardKeeper.Json.Record
import ShardKeeper.Searcher.Message

/-!
# Messages on the wire

## Main definitions

* `WireMessage` — a kind of message and its documents
* `WireMessage.encode` — the line of a message

## Design notes

A request travels in an envelope that names its method beside its parameters. The two members may
come in either order; when the parameters come first they have to be kept until the method is known,
and so must be a document that can be read as a whole.
-/

namespace ShardKeeper

/-- A kind of message that travels as a JSON document. -/
class WireMessage (α : Type) where
  toJson : α → Json
  ofJson? : Json → Option α

/-- The line of a message, with the line feed that ends it. -/
def WireMessage.encode {α : Type} [WireMessage α] (message : α) : Bytes :=
  (toJson message).render ++ [0x0A]

/-! ### Codes and slices -/

/-- The name of a code on the wire. -/
def ErrorCode.name : ErrorCode → String
  | .unknown => "UNKNOWN"
  | .others => "OTHERS"
  | .noRecord => "NO_RECORD"
  | .invalidRequest => "INVALID_REQUEST"
  | .unrecognized => "UNRECOGNIZED"

/-- The code of a name; names that are not known are all one code. -/
def ErrorCode.ofName (name : String) : ErrorCode :=
  if name = "UNKNOWN" then .unknown
  else if name = "OTHERS" then .others
  else if name = "NO_RECORD" then .noRecord
  else if name = "INVALID_REQUEST" then .invalidRequest
  else .unrecognized

/-- A name by itself, or as the only member of an object, whose value is `null`. -/
def Json.tag? : Json → Option String
  | .string s => s
  | .object [(name, .null)] => name
  | _ => none

instance : WireMessage ErrorCode where
  toJson code := .text code.name
  ofJson? v := v.tag?.map ErrorCode.ofName

instance : WireMessage HashSlice where
  toJson s := .record [("lo", .nat s.lo), ("hi", .nat s.hi)]
  ofJson? v := do
    match ← v.fields? ["lo", "hi"] with
    | [lo, hi] => return ⟨← lo.required Json.nat32?, ← hi.required Json.nat32?⟩
    | _ => none

/-! ### Requests -/

instance : WireMessage WriteRequest where
  toJson r := .record [("table", .text r.table), ("hash_id", .nat r.hashId),
    ("payload", .text r.payload)]
  ofJson? v := do
    match ← v.fields? ["table", "hash_id", "payload"] with
    | [table, hashId, payload] =>
      return ⟨← table.required Json.string?, ← hashId.required Json.nat32?,
        ← payload.required Json.string?⟩
    | _ => none

instance : WireMessage QueryRequest where
  toJson r := .record [("table", .text r.table),
    ("partition_range", WireMessage.toJson r.slice), ("doc_id", .text r.documentId)]
  ofJson? v := do
    match ← v.fields? ["table", "partition_range", "doc_id"] with
    | [table, slice, documentId] =>
      return ⟨← table.required Json.string?, ← slice.required WireMessage.ofJson?,
        ← documentId.required Json.string?⟩
    | _ => none

namespace Request

/-- The method of a request on the wire. -/
def method : Request → String
  | .write _ => "write"
  | .query _ => "query_table"

/-- The parameters of a request on the wire. -/
def parameters : Request → Json
  | .write r => WireMessage.toJson r
  | .query r => WireMessage.toJson r

/-- The request with a method and parameters. -/
def ofParts? (method : String) (parameters : Json) : Option Request :=
  if method = "write" then (WireMessage.ofJson? parameters).map .write
  else if method = "query_table" then (WireMessage.ofJson? parameters).map .query
  else none

/-- Whether the first of the members called `a` or `b` is called `a`. -/
def comesFirst (a b : String) (members : List (Option String × Json)) : Bool :=
  (members.find? fun m => m.1 = some a || m.1 = some b).any fun m => m.1 = some a

/-- The request in an envelope. In an array the method has to be a string. -/
def ofJson? : Json → Option Request
  | .array [method, parameters] => do ofParts? (← method.string?) parameters
  | .object members => do
    if members.all fun m => m.1.isSome then
      let method ← (← Json.field? "method" members)
      let parameters ← (← Json.field? "params" members)
      if comesFirst "method" "params" members
          || parameters.isGeneralBelow (Json.nestingLimit - 1) then
        ofParts? (← method.tag?) parameters
      else none
    else none
  | _ => none

end Request

instance : WireMessage Request where
  toJson r := .record [("method", .text r.method), ("params", r.parameters)]
  ofJson? := Request.ofJson?

/-! ### Responses -/

instance : WireMessage DocumentValue where
  toJson d := .record
    [("attrs", .record (d.attributes.entries.map fun e => (e.1, .integer e.2))),
      ("summary", .record (d.summary.entries.map fun e => (e.1, .text e.2)))]
  ofJson? v := do
    match ← v.fields? ["attrs", "summary"] with
    | [attributes, summary] =>
      return ⟨.ofList (← attributes.orElse [] (Json.entries? Json.int64?)),
        .ofList (← summary.orElse [] (Json.entries? Json.string?))⟩
    | _ => none

/-- The members that say why a request was refused, if it was. -/
def codeMember (code : Option ErrorCode) : List (String × Json) :=
  match code with
  | none => []
  | some code => [("error_code", WireMessage.toJson code)]

instance : WireMessage WriteResponse where
  toJson r := .record (codeMember r.code ++ [("error_message", .text r.message)])
  ofJson? v := do
    match ← v.fields? ["error_code", "error_message"] with
    | [code, message] =>
      return ⟨← code.orElse none (Json.nullable? WireMessage.ofJson?),
        ← message.orElse "" Json.string?⟩
    | _ => none

instance : WireMessage QueryResponse where
  toJson r := .record (codeMember r.code ++ [("error_message", .text r.message),
    ("values", .array (r.values.map WireMessage.toJson))])
  ofJson? v := do
    match ← v.fields? ["error_code", "error_message", "values"] with
    | [code, message, values] =>
      return ⟨← code.orElse none (Json.nullable? WireMessage.ofJson?),
        ← message.orElse "" Json.string?,
        ← values.orElse [] (Json.list? WireMessage.ofJson?)⟩
    | _ => none

end ShardKeeper
