import ShardKeeper.Catalog.Basic

/-!
# The catalog feed

The latest catalog the node has received, and the requests to look for a newer one.

## Main definitions

* `CatalogFeed` — the catalog, the number of requests made, and what becomes of a request
* `CatalogFeed.request` — asks for a newer catalog
* `CatalogFeed.listen`, `CatalogFeed.stopListening` — one listener waits for requests

## Design notes

A request wakes the listener if it waits and has not been woken yet. Otherwise the request is kept
for later, but no more than one is.
-/

namespace ShardKeeper

/-- The state of the one listener for requests. -/
inductive CatalogFeed.Listener where
  | away
  | waiting
  | woken
deriving DecidableEq

/-- The latest catalog and the requests for a newer one. -/
structure CatalogFeed where
  catalog : Option Catalog
  requests : Nat
  /-- Whether a request is kept for the next time somebody listens. -/
  pending : Bool
  listener : CatalogFeed.Listener
deriving DecidableEq

namespace CatalogFeed

/-- Nothing received and nothing requested. -/
def empty : CatalogFeed := ⟨none, 0, false, .away⟩

instance : Inhabited CatalogFeed := ⟨empty⟩

/-- Replaces the catalog. -/
def publish (f : CatalogFeed) (c : Catalog) : CatalogFeed := { f with catalog := some c }

/-- Drops the catalog, as if none had been received. -/
def clear (f : CatalogFeed) : CatalogFeed := { f with catalog := none }

/-- Asks for a newer catalog. -/
def request (f : CatalogFeed) : CatalogFeed :=
  match f.listener with
  | .waiting => { f with requests := f.requests + 1, listener := .woken }
  | _ => { f with requests := f.requests + 1, pending := true }

/-- Starts to wait for a request; one that was kept counts at once. -/
def listen (f : CatalogFeed) : CatalogFeed :=
  if f.pending then { f with pending := false, listener := .woken }
  else { f with listener := .waiting }

/-- Goes on after a request. -/
def hear (f : CatalogFeed) : CatalogFeed := { f with listener := .away }

/-- Stops waiting without having heard a request; one that has just come is kept. -/
def stopListening (f : CatalogFeed) : CatalogFeed :=
  { f with listener := .away, pending := f.pending || f.listener == .woken }

end CatalogFeed

end ShardKeeper
