import ShardKeeper.Json.Reader

/-!
# The tokens of a document

A document is read back from its own tokens, whatever it is nested in and
whatever comes after it.

## Main definitions

* `Json.tokens` — the tokens of a document.

## Main results

* `Json.foldlM_tokens` — after the tokens of a document the reader has received it.
* `Json.ofTokens?_tokens` — a document is read back from its tokens.
-/

namespace ShardKeeper.Json

mutual

/-- The tokens of a document. -/
def tokens : Json → List Token
  | .null => [.leaf .null]
  | .bool b => [.leaf (.bool b)]
  | .integer n => [.leaf (.integer n)]
  | .decimal negative coefficient exponent => [.leaf (.decimal negative coefficient exponent)]
  | .string s => [.string s]
  | .array [] => [.openBracket, .closeBracket]
  | .array (v :: rest) => .openBracket :: tokens v ++ itemTokens rest ++ [.closeBracket]
  | .object [] => [.openBrace, .closeBrace]
  | .object ((k, v) :: rest) =>
    .openBrace :: .string k :: .colon :: tokens v ++ memberTokens rest ++ [.closeBrace]

/-- The tokens of the items after the first, each after a comma. -/
def itemTokens : List Json → List Token
  | [] => []
  | v :: rest => .comma :: tokens v ++ itemTokens rest

/-- The tokens of the members after the first, each after a comma. -/
def memberTokens : List (Option String × Json) → List Token
  | [] => []
  | (k, v) :: rest => .comma :: .string k :: .colon :: tokens v ++ memberTokens rest

end

namespace Reader

/-- The first token of a document does not close anything. -/
theorem tokens_head (v : Json) : ∃ t rest, v.tokens = t :: rest ∧ t ≠ .closeBracket := by
  unfold tokens
  split <;> exact ⟨_, _, rfl, by simp⟩

/-- The first item of an array is read as any other one. -/
theorem foldlM_itemOrEnd (stack : List Frame) (v : Json) (rest : List Token) :
    (v.tokens ++ rest).foldlM feed ⟨stack, .itemOrEnd⟩ =
      (v.tokens ++ rest).foldlM feed ⟨stack, .value⟩ := by
  obtain ⟨t, ts, htokens, hclose⟩ := tokens_head v
  have hfirst : feed ⟨stack, .itemOrEnd⟩ t = feed ⟨stack, .value⟩ t := by
    cases t <;> first | rfl | exact absurd rfl hclose
  rw [htokens, List.cons_append, List.foldlM_cons, List.foldlM_cons, hfirst]

mutual

/-- **After the tokens of a document the reader has received it.** -/
theorem foldlM_tokens (v : Json) (stack : List Frame) (rest : List Token) :
    (v.tokens ++ rest).foldlM feed ⟨stack, .value⟩ =
      (receive stack v).bind fun r => rest.foldlM feed r := by
  cases v with
  | null => rfl
  | bool b => rfl
  | integer n => rfl
  | decimal negative coefficient exponent => rfl
  | string s => rfl
  | array items =>
      cases items with
      | nil => rfl
      | cons v items =>
          show ((v.tokens ++ itemTokens items ++ [Token.closeBracket]) ++ rest).foldlM feed
            ⟨.items [] :: stack, .itemOrEnd⟩ = _
          rw [List.append_assoc, List.append_assoc, foldlM_itemOrEnd, foldlM_tokens v]
          show (itemTokens items ++ ([Token.closeBracket] ++ rest)).foldlM feed
            ⟨.items [v] :: stack, .separator⟩ = _
          rw [foldlM_itemTokens items]
          show (receive stack (.array (items.reverse ++ [v]).reverse)).bind _ = _
          rw [List.reverse_append, List.reverse_reverse]
          rfl
  | object members =>
      cases members with
      | nil => rfl
      | cons m members =>
          obtain ⟨k, v⟩ := m
          show ((v.tokens ++ memberTokens members ++ [Token.closeBrace]) ++ rest).foldlM feed
            ⟨.member [] k :: stack, .value⟩ = _
          rw [List.append_assoc, List.append_assoc, foldlM_tokens v]
          show (memberTokens members ++ ([Token.closeBrace] ++ rest)).foldlM feed
            ⟨.members [(k, v)] :: stack, .separator⟩ = _
          rw [foldlM_memberTokens members]
          show (receive stack (.object (members.reverse ++ [(k, v)]).reverse)).bind _ = _
          rw [List.reverse_append, List.reverse_reverse]
          rfl

theorem foldlM_itemTokens (items done : List Json) (stack : List Frame) (rest : List Token) :
    (itemTokens items ++ rest).foldlM feed ⟨.items done :: stack, .separator⟩ =
      rest.foldlM feed ⟨.items (items.reverse ++ done) :: stack, .separator⟩ := by
  cases items with
  | nil => rfl
  | cons v items =>
      show ((v.tokens ++ itemTokens items) ++ rest).foldlM feed ⟨.items done :: stack, .value⟩ = _
      rw [List.append_assoc, foldlM_tokens v]
      show (itemTokens items ++ rest).foldlM feed ⟨.items (v :: done) :: stack, .separator⟩ = _
      rw [foldlM_itemTokens items, List.reverse_cons, List.append_assoc]
      rfl

theorem foldlM_memberTokens (members done : List (Option String × Json)) (stack : List Frame)
    (rest : List Token) :
    (memberTokens members ++ rest).foldlM feed ⟨.members done :: stack, .separator⟩ =
      rest.foldlM feed ⟨.members (members.reverse ++ done) :: stack, .separator⟩ := by
  cases members with
  | nil => rfl
  | cons m members =>
      obtain ⟨k, v⟩ := m
      show ((v.tokens ++ memberTokens members) ++ rest).foldlM feed
        ⟨.member done k :: stack, .value⟩ = _
      rw [List.append_assoc, foldlM_tokens v]
      show (memberTokens members ++ rest).foldlM feed
        ⟨.members ((k, v) :: done) :: stack, .separator⟩ = _
      rw [foldlM_memberTokens members, List.reverse_cons, List.append_assoc]
      rfl

end

end Reader

/-- **A document is read back from its tokens.** -/
theorem ofTokens?_tokens (v : Json) : ofTokens? v.tokens = some v := by
  have htokens := Reader.foldlM_tokens v [] []
  rw [List.append_nil] at htokens
  rw [ofTokens?, Reader.start, htokens]
  rfl

end ShardKeeper.Json
