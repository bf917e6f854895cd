import ShardKeeper.Durability.CommitPoint
import ShardKeeper.Proofs.Json.Record

/-!
# Records of commit points

## Main definitions

* `CommitPoint.Fits` — a commit point of 64-bit integers.

## Main results

* `CommitPoint.ofBytes?_render` — such a commit point is read back from its record.
-/

namespace ShardKeeper

namespace CommitPoint

/-- A commit point of 64-bit integers. -/
structure Fits (p : CommitPoint) : Prop where
  timestamp : Decimal.fitsInt64 p.timestamp = true
  version : Decimal.fitsInt64 p.version = true
  checkpoint : Decimal.fitsInt64 p.checkpoint = true

instance (p : CommitPoint) : Decidable p.Fits :=
  decidable_of_iff (Decimal.fitsInt64 p.timestamp = true ∧ Decimal.fitsInt64 p.version = true ∧
      Decimal.fitsInt64 p.checkpoint = true)
    ⟨fun ⟨h₁, h₂, h₃⟩ => ⟨h₁, h₂, h₃⟩, fun h => ⟨h.1, h.2, h.3⟩⟩

variable {p : CommitPoint}

theorem fields?_toJson (p : CommitPoint) :
    p.toJson.fields? fieldNames =
      some [some (.integer p.timestamp), some (.integer p.version),
        some (.integer p.checkpoint)] := by
  rfl

theorem ofJson?_toJson (h : p.Fits) : ofJson? p.toJson = some p := by
  have htimestamp := Json.int64?_integer h.timestamp
  have hversion := Json.int64?_integer h.version
  have hcheckpoint := Json.int64?_integer h.checkpoint
  rw [ofJson?, fields?_toJson]
  simp [Json.Field.orElse, htimestamp, hversion, hcheckpoint]

theorem isPlain_toJson (h : p.Fits) : p.toJson.IsPlain :=
  ⟨rfl, Json.isPlain_integer h.timestamp, rfl, Json.isPlain_integer h.version, rfl,
    Json.isPlain_integer h.checkpoint, trivial⟩

/-- **A commit point is read back from its record.** -/
theorem ofBytes?_render (h : p.Fits) : ofBytes? p.render = some p := by
  rw [ofBytes?, render, Json.ofBytes?_renderIndented (isPlain_toJson h), Option.bind_some,
    ofJson?_toJson h]

end CommitPoint

end ShardKeeper
