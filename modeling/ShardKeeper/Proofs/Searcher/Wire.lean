import ShardKeeper.Proofs.Json.Record
import ShardKeeper.Searcher.Wire

/-!
# Documents of messages

What is written for a message is read as that message, as long as its numbers are of
the widths that they have on the wire: 32 bits without a sign for hash ids, 64 bits
with a sign for attributes.  Texts and maps are free.

## Main definitions

* `WireMessage.ReadsBack` — a message whose document is plain and says that message.
* `WireKind` — the kinds of messages; `WireKind.Message` and `WireKind.Fits` are
  their messages and the widths of the numbers in these.

## Main results

* `WireKind.readsBack` — every message of every kind reads back.
-/

namespace ShardKeeper

/-- A message whose document is plain and says that message. -/
structure WireMessage.ReadsBack {α : Type} [WireMessage α] (message : α) : Prop where
  plain : (toJson message).IsPlain
  read : ofJson? (toJson message) = some message

open WireMessage (ReadsBack)

/-! ### Codes and slices -/

theorem ErrorCode.readsBack (code : ErrorCode) : ReadsBack code where
  plain := rfl
  read := by cases code <;> rfl

/-- A slice whose bounds have 32 bits. -/
def HashSlice.Fits (s : HashSlice) : Prop := s.lo < 2 ^ 32 ∧ s.hi < 2 ^ 32

instance (s : HashSlice) : Decidable s.Fits := inferInstanceAs (Decidable (_ ∧ _))

theorem HashSlice.readsBack {s : HashSlice} (h : s.Fits) : ReadsBack s where
  plain := ⟨rfl, Json.isPlain_nat h.1, rfl, Json.isPlain_nat h.2, trivial⟩
  read := by
    show (do return (⟨← Json.nat32? (.nat s.lo), ← Json.nat32? (.nat s.hi)⟩ : HashSlice)) = some s
    rw [Json.nat32?_nat h.1, Json.nat32?_nat h.2]
    rfl

/-! ### Requests -/

/-- A write whose hash id has 32 bits. -/
def WriteRequest.Fits (r : WriteRequest) : Prop := r.hashId < 2 ^ 32

instance (r : WriteRequest) : Decidable r.Fits := inferInstanceAs (Decidable (_ < _))

theorem WriteRequest.readsBack {r : WriteRequest} (h : r.Fits) : ReadsBack r where
  plain := ⟨rfl, rfl, rfl, Json.isPlain_nat h, rfl, rfl, trivial⟩
  read := by
    show (do return (⟨r.table, ← Json.nat32? (.nat r.hashId), r.payload⟩ : WriteRequest)) = some r
    rw [Json.nat32?_nat h]
    rfl

/-- A query whose slice has bounds of 32 bits. -/
def QueryRequest.Fits (r : QueryRequest) : Prop := r.slice.Fits

instance (r : QueryRequest) : Decidable r.Fits := inferInstanceAs (Decidable r.slice.Fits)

theorem QueryRequest.readsBack {r : QueryRequest} (h : r.Fits) : ReadsBack r where
  plain := ⟨rfl, rfl, rfl, (HashSlice.readsBack h).plain, rfl, rfl, trivial⟩
  read := by
    show (do return (⟨r.table, ← WireMessage.ofJson? (WireMessage.toJson r.slice), r.documentId⟩ :
      QueryRequest)) = some r
    rw [(HashSlice.readsBack h).read]
    rfl

/-- A request whose numbers have 32 bits. -/
def Request.Fits : Request → Prop
  | .write r => r.Fits
  | .query r => r.Fits

instance : (r : Request) → Decidable r.Fits
  | .write r => inferInstanceAs (Decidable r.Fits)
  | .query r => inferInstanceAs (Decidable r.Fits)

/-- The envelope of a request: the name of its method decides how its parameters are read. -/
theorem Request.readsBack {r : Request} (h : r.Fits) : ReadsBack r := by
  cases r with
  | write r =>
      have hr : ReadsBack r := WriteRequest.readsBack h
      refine ⟨⟨rfl, rfl, rfl, hr.plain, trivial⟩, ?_⟩
      show (WireMessage.ofJson? (WireMessage.toJson r)).map Request.write = _
      rw [hr.read]
      rfl
  | query r =>
      have hr : ReadsBack r := QueryRequest.readsBack h
      refine ⟨⟨rfl, rfl, rfl, hr.plain, trivial⟩, ?_⟩
      show (WireMessage.ofJson? (WireMessage.toJson r)).map Request.query = _
      rw [hr.read]
      rfl

/-! ### Responses -/

/-- A document whose attributes have 64 bits and a sign. -/
def DocumentValue.Fits (d : DocumentValue) : Prop :=
  ∀ e ∈ d.attributes.entries, Decimal.fitsInt64 e.2 = true

instance (d : DocumentValue) : Decidable d.Fits :=
  inferInstanceAs (Decidable (∀ e ∈ d.attributes.entries, Decimal.fitsInt64 e.2 = true))

theorem DocumentValue.readsBack {d : DocumentValue} (h : d.Fits) : ReadsBack d where
  plain := ⟨rfl, Json.isPlain_membersOf .integer fun e he => Json.isPlain_integer (h e he), rfl,
    Json.isPlain_membersOf .text fun _ _ => rfl, trivial⟩
  read := by
    have hattributes : Json.entries? Json.int64? (.record (Json.membersOf .integer d.attributes)) =
        some d.attributes.entries :=
      Json.entries?_map _ _ fun e he => Json.int64?_integer (h e he)
    have hsummary : Json.entries? Json.string? (.record (Json.membersOf .text d.summary)) =
        some d.summary.entries :=
      Json.entries?_map _ _ fun _ _ => rfl
    show (do return (⟨.ofList (← Json.entries? Json.int64? (.record (Json.membersOf Json.integer
      d.attributes))), .ofList (← Json.entries? Json.string? (.record (Json.membersOf Json.text
      d.summary)))⟩ : DocumentValue)) = some d
    rw [hattributes, hsummary]
    show some (⟨.ofList d.attributes.entries, .ofList d.summary.entries⟩ : DocumentValue) = some d
    rw [NameMap.ofList_entries, NameMap.ofList_entries]

theorem WriteResponse.readsBack (r : WriteResponse) : ReadsBack r := by
  obtain ⟨code, message⟩ := r
  cases code with
  | none => exact ⟨⟨rfl, rfl, trivial⟩, rfl⟩
  | some code =>
      refine ⟨⟨rfl, (ErrorCode.readsBack code).plain, rfl, rfl, trivial⟩, ?_⟩
      cases code <;> rfl

/-- An answer whose documents have attributes of 64 bits and a sign. -/
def QueryResponse.Fits (r : QueryResponse) : Prop := ∀ d ∈ r.values, d.Fits

instance (r : QueryResponse) : Decidable r.Fits :=
  inferInstanceAs (Decidable (∀ d ∈ r.values, d.Fits))

theorem QueryResponse.readsBack {r : QueryResponse} (h : r.Fits) : ReadsBack r := by
  obtain ⟨code, message, values⟩ := r
  have hplain := Json.arePlain_map fun d hd => (DocumentValue.readsBack (h d hd)).plain
  have hread := Json.list?_map fun d hd => (DocumentValue.readsBack (h d hd)).read
  cases code with
  | none =>
      refine ⟨⟨rfl, rfl, rfl, hplain, trivial⟩, ?_⟩
      show (do return (⟨none, message, ← Json.list? WireMessage.ofJson?
        (.array (values.map WireMessage.toJson))⟩ : QueryResponse)) = _
      rw [hread]
      rfl
  | some code =>
      refine ⟨⟨rfl, (ErrorCode.readsBack code).plain, rfl, rfl, rfl, hplain, trivial⟩, ?_⟩
      show (do return (⟨← (WireMessage.ofJson? (WireMessage.toJson code)).map some, message,
        ← Json.list? WireMessage.ofJson? (.array (values.map WireMessage.toJson))⟩ :
        QueryResponse)) = _
      rw [hread, (ErrorCode.readsBack code).read]
      rfl

/-! ### All kinds -/

/-- The kinds of messages. -/
inductive WireKind where
  | request
  | writeRequest
  | queryRequest
  | writeResponse
  | queryResponse
  | documentValue
  | hashSlice
  | errorCode

namespace WireKind

/-- The messages of a kind. -/
def Message : WireKind → Type
  | .request => Request
  | .writeRequest => WriteRequest
  | .queryRequest => QueryRequest
  | .writeResponse => WriteResponse
  | .queryResponse => QueryResponse
  | .documentValue => DocumentValue
  | .hashSlice => HashSlice
  | .errorCode => ErrorCode

instance : (kind : WireKind) → WireMessage kind.Message
  | .request => inferInstanceAs (WireMessage Request)
  | .writeRequest => inferInstanceAs (WireMessage WriteRequest)
  | .queryRequest => inferInstanceAs (WireMessage QueryRequest)
  | .writeResponse => inferInstanceAs (WireMessage WriteResponse)
  | .queryResponse => inferInstanceAs (WireMessage QueryResponse)
  | .documentValue => inferInstanceAs (WireMessage DocumentValue)
  | .hashSlice => inferInstanceAs (WireMessage HashSlice)
  | .errorCode => inferInstanceAs (WireMessage ErrorCode)

/-- Whether the numbers of a message have the widths that they have on the wire. -/
def Fits : (kind : WireKind) → kind.Message → Prop
  | .request, r => Request.Fits r
  | .writeRequest, r => WriteRequest.Fits r
  | .queryRequest, r => QueryRequest.Fits r
  | .writeResponse, _ => True
  | .queryResponse, r => QueryResponse.Fits r
  | .documentValue, d => DocumentValue.Fits d
  | .hashSlice, s => HashSlice.Fits s
  | .errorCode, _ => True

/-- **Every message of every kind reads back.** -/
theorem readsBack (kind : WireKind) {message : kind.Message} (h : kind.Fits message) :
    ReadsBack message := by
  cases kind with
  | request => exact Request.readsBack h
  | writeRequest => exact WriteRequest.readsBack h
  | queryRequest => exact QueryRequest.readsBack h
  | writeResponse => exact WriteResponse.readsBack message
  | queryResponse => exact QueryResponse.readsBack h
  | documentValue => exact DocumentValue.readsBack h
  | hashSlice => exact HashSlice.readsBack h
  | errorCode => exact ErrorCode.readsBack message

end WireKind

end ShardKeeper
