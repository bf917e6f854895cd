import ShardKeeper.Shard.Hosted

/-!
# Documents of a hosted shard

## Main definitions

* `HostedShard.writeRequest`, `HostedShard.afterWrite` — a change of a document
* `HostedShard.queryRequest`, `HostedShard.afterQuery` — a look-up of a document
* `FoundDocument` — a document that was found

## Design notes

A write that fails for good fails the shard, because the engine may now lack the document. One that
was cancelled does not, and neither does any look-up.
-/

namespace ShardKeeper

/-- A document that was found. -/
structure FoundDocument where
  sequence : Int
  term : Int
  version : Int
  source : Option String
  routing : Option String
deriving DecidableEq

/-- The document in an answer of the engine. A number that is missing is zero, and an empty routing
is none. -/
def FoundDocument.ofValue (v : DocumentValue) : FoundDocument :=
  let number (name : String) : Int := (v.attributes.get? name).getD 0
  ⟨number "_seq_no", number "_primary_term", number "_version", v.summary.get? "_source",
    (v.summary.get? "_routing").filter fun r => !r.isEmpty⟩

namespace HostedShard

/-- The name of a write in messages. -/
def writeLabel : String := "write"

/-- The name of a look-up in messages. -/
def queryLabel : String := "query_table"

/-- What is asked of the engine to change a document. -/
def writeRequest (s : HostedShard) (change : DocumentChange) : WriteRequest :=
  ⟨s.id.table, s.slice.lo, change.encode⟩

/-- The shard with a change counted. -/
def count (s : HostedShard) : DocumentChange.Operation → HostedShard
  | .index => { s with indexed := s.indexed + 1 }
  | .delete => { s with deleted := s.deleted + 1 }

/-- The shard after a write has ended, and what the write came to. -/
def afterWrite (s : HostedShard) (operation : DocumentChange.Operation)
    (result : CallResult WriteResponse) : HostedShard × Except ShardError Unit :=
  match result.toExcept writeLabel with
  | .ok _ => (s.count operation, .ok ())
  | .error e => (if e.isInterrupted then s else s.fail e.message, .error (.call e))

/-- What is asked of the engine to find a document. -/
def queryRequest (s : HostedShard) (documentId : String) : QueryRequest :=
  ⟨s.id.table, s.slice, documentId⟩

/-- What a look-up came to. -/
def afterQuery (result : CallResult QueryResponse) : Except ShardError (Option FoundDocument) :=
  if result.outcome = .fatal ∧ result.response.code = some .noRecord then .ok none
  else
    match result.toExcept queryLabel with
    | .error e => .error (.call e)
    | .ok response => .ok (response.values.head?.map FoundDocument.ofValue)

end HostedShard

end ShardKeeper
