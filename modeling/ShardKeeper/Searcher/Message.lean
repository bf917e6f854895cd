import ShardKeeper.HashSpace
import ShardKeeper.Text.NameMap
import ShardKeeper.Text.Substring

/-!
# Messages to and from the search engine

## Main definitions

* `WriteRequest`, `QueryRequest`, `Request` — what the node asks
* `WriteResponse`, `QueryResponse` — what the engine answers
* `ErrorCode` — why it refuses; an answer without a code is a success
* `Response` — what all answers have in common
* `Verdict`, `Response.verdict` — whether the same request may succeed later
-/

namespace ShardKeeper

/-- Why the engine refuses a request. -/
inductive ErrorCode where
  /-- An unclassified failure; also stands for a missing answer. -/
  | unknown
  /-- A failure described by the message alone. -/
  | others
  /-- No document was found. -/
  | noRecord
  /-- The request was malformed. -/
  | invalidRequest
  /-- A code that the node does not know. -/
  | unrecognized
deriving DecidableEq, Inhabited

/-- The name of a code in messages to a person. -/
def ErrorCode.title : ErrorCode → String
  | .unknown => "Unknown"
  | .others => "Others"
  | .noRecord => "NoRecord"
  | .invalidRequest => "InvalidRequest"
  | .unrecognized => "Unrecognized"

/-- Asks the engine to apply a change, routed by a hash id. -/
structure WriteRequest where
  table : String
  hashId : Nat
  payload : String
deriving DecidableEq

/-- Asks the engine for a document in one slice of a table. -/
structure QueryRequest where
  table : String
  slice : HashSlice
  documentId : String
deriving DecidableEq

/-- A request of either kind. -/
inductive Request where
  | write (request : WriteRequest)
  | query (request : QueryRequest)
deriving DecidableEq

/-- A document that the engine found: integer attributes and text fields. -/
structure DocumentValue where
  attributes : NameMap Int
  summary : NameMap String
deriving DecidableEq, Inhabited

/-- The answer to a write. -/
structure WriteResponse where
  code : Option ErrorCode
  message : String
deriving DecidableEq, Inhabited

/-- The answer to a query. -/
structure QueryResponse where
  code : Option ErrorCode
  message : String
  values : List DocumentValue
deriving DecidableEq, Inhabited

/-- What all answers have in common: a code, a message, and a form that says only these. -/
class Response (ρ : Type) where
  code : ρ → Option ErrorCode
  message : ρ → String
  failure : ErrorCode → String → ρ

instance : Response WriteResponse := ⟨(·.code), (·.message), fun code text => ⟨some code, text⟩⟩

instance : Response QueryResponse :=
  ⟨(·.code), (·.message), fun code text => ⟨some code, text, []⟩⟩

/-- What the message of a missing answer begins with. -/
def nullText : String := "response is null"

namespace Response

variable {ρ : Type} [Response ρ]

/-- The answer that stands for a missing one. -/
def null (detail : String) : ρ :=
  failure .unknown (if detail.isEmpty then nullText else nullText ++ ": " ++ detail)

end Response

/-! ### Verdicts -/

/-- What an answer means for a repetition of the request. -/
inductive Verdict where
  | success
  /-- The same request may succeed later. -/
  | retryable
  /-- Repeating it will not help. -/
  | fatal
deriving DecidableEq

/-- Whether a failure passes by itself: the answer is missing, the engine's queue is full, or it
does not serve the partition yet. -/
def ErrorCode.isTransient (code : ErrorCode) (message : String) : Bool :=
  match code with
  | .unknown => Text.contains message.toList nullText.toList
  | .others =>
    Text.contains message.toList "doc queue is full".toList
      || Text.contains message.toList "no valid table/range".toList
  | _ => false

/-- The verdict on a code and a message. -/
def Verdict.of (code : Option ErrorCode) (message : String) : Verdict :=
  match code with
  | none => .success
  | some code => if code.isTransient message then .retryable else .fatal

/-- The verdict on an answer. -/
def Response.verdict {ρ : Type} [Response ρ] (response : ρ) : Verdict :=
  .of (Response.code response) (Response.message response)

end ShardKeeper
