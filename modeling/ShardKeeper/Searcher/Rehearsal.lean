import ShardKeeper.Searcher.Message
import ShardKeeper.Time

/-!
# A rehearsed search engine

A search engine whose answers are laid down in advance.

## Main definitions

* `Rehearsed` — the answers to come to one kind of request
* `RehearsedSearcher` — such an engine, and the requests it got
-/

namespace ShardKeeper

/-- Answers to come, each with the time it takes. When they are used up, every answer is the
default one and takes no time. -/
abbrev Rehearsed (ρ : Type) := List (ρ × Duration)

/-- The next answer, and those after it. -/
def Rehearsed.next {ρ : Type} [Inhabited ρ] : Rehearsed ρ → (ρ × Duration) × Rehearsed ρ
  | [] => ((default, default), [])
  | answer :: rest => (answer, rest)

/-- A search engine whose answers are laid down in advance. -/
structure RehearsedSearcher where
  writes : Rehearsed WriteResponse
  queries : Rehearsed QueryResponse
  /-- Every request so far. -/
  received : List Request
deriving DecidableEq

namespace RehearsedSearcher

/-- An engine that accepts everything and finds nothing. -/
def agreeable : RehearsedSearcher := ⟨[], [], []⟩

instance : Inhabited RehearsedSearcher := ⟨agreeable⟩

/-- The engine's answer to a write. -/
def write (s : RehearsedSearcher) (request : WriteRequest) :
    RehearsedSearcher × WriteResponse × Duration :=
  let (answer, writes) := s.writes.next
  ({ s with writes, received := s.received ++ [.write request] }, answer)

/-- The engine's answer to a query. -/
def query (s : RehearsedSearcher) (request : QueryRequest) :
    RehearsedSearcher × QueryResponse × Duration :=
  let (answer, queries) := s.queries.next
  ({ s with queries, received := s.received ++ [.query request] }, answer)

end RehearsedSearcher

end ShardKeeper
