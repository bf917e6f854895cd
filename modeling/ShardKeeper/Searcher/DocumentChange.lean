/-!
# Document changes

What one write tells the search engine: add or delete one document, given by flat fields.

## Main definitions

* `DocumentChange` — an operation and its fields
* `DocumentChange.encode` — the text sent to the engine

Every line ends with the unit separator and a line feed, and the record with the record separator
and a line feed. Names and values are written as they are.
-/

namespace ShardKeeper

/-- What is to be done with a document. -/
inductive DocumentChange.Operation where
  | index
  | delete
deriving DecidableEq

/-- One operation on one document, with the fields in the order given. -/
structure DocumentChange where
  operation : DocumentChange.Operation
  fields : List (String × String)
deriving DecidableEq

namespace DocumentChange

/-- The word that the engine has for an operation. -/
def Operation.command : Operation → String
  | .index => "add"
  | .delete => "delete"

/-- What ends a line of a record. -/
def fieldEnd : String := "\x1f\n"

/-- What ends a record. -/
def recordEnd : String := "\x1e\n"

/-- One field, as a line of the record. -/
def encodeField (field : String × String) : String := field.1 ++ "=" ++ field.2 ++ fieldEnd

/-- The record that tells the engine about a change. -/
def encode (change : DocumentChange) : String :=
  "CMD=" ++ change.operation.command ++ fieldEnd
    ++ String.join (change.fields.map encodeField) ++ recordEnd

/-- The change that adds a document. -/
def add (fields : List (String × String)) : DocumentChange := ⟨.index, fields⟩

/-- The change that deletes the document with an id. -/
def remove (documentId : String) : DocumentChange := ⟨.delete, [("_id", documentId)]⟩

end DocumentChange

end ShardKeeper
