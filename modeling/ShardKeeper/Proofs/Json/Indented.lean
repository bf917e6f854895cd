import ShardKeeper.Proofs.Json.Lexing

/-!
# Indented documents

A document that was written with an item or a member a line is read back as it
was, at every level of nesting.

## Main definitions

* `Json.IsPlain` — a document of texts, booleans and integers of 64 bits and a sign.

## Main results

* `Json.lex_renderAt` — the tokens of an indented document.
* `Json.ofBytes?_renderIndented` — an indented document is read back.
-/

namespace ShardKeeper.Json

mutual

/-- A document of texts, booleans and integers of 64 bits and a sign. -/
def IsPlain : Json → Prop
  | .null => True
  | .bool _ => True
  | .integer n => n.natAbs < 2 ^ 64
  | .decimal _ _ _ => False
  | .string s => s.isSome = true
  | .array items => ArePlain items
  | .object members => MembersArePlain members

/-- `IsPlain` of every item. -/
def ArePlain : List Json → Prop
  | [] => True
  | v :: rest => IsPlain v ∧ ArePlain rest

/-- `IsPlain` of every member's value, where every name spells a text. -/
def MembersArePlain : List (Option String × Json) → Prop
  | [] => True
  | (k, v) :: rest => k.isSome = true ∧ IsPlain v ∧ MembersArePlain rest

end

/-! ### Words and signs -/

theorem afterWord?_append (word : String) (rest : Bytes) :
    afterWord? word (Utf8.ofString word ++ rest) = some rest := by
  rw [afterWord?]
  rw [if_pos (List.isPrefixOf_iff_prefix.mpr (List.prefix_append _ rest)), List.drop_left]

/-- A literal, by its first byte and the word behind it. -/
theorem lex_word (b : UInt8) (word : String) (v : Json) (hb : isSpace b = false)
    (h : ∀ tail, nextToken b tail = (afterWord? word tail).map fun rest => (.leaf v, rest))
    (rest : Bytes) :
    lex (b :: (Utf8.ofString word ++ rest)) = (lex rest).map (.leaf v :: ·) := by
  refine lex_cons_token hb ?_
  rw [h, afterWord?_append]
  rfl

theorem lex_null (rest : Bytes) :
    lex (Utf8.ofString "null" ++ rest) = (lex rest).map (.leaf .null :: ·) :=
  lex_word (ascii 'n') "ull" .null (by decide) (fun tail => by simp +decide [nextToken]) rest

theorem lex_bool (depth : Nat) (b : Bool) (rest : Bytes) :
    lex (renderAt depth (.bool b) ++ rest) = (lex rest).map (.leaf (.bool b) :: ·) := by
  cases b with
  | false =>
      exact lex_word (ascii 'f') "alse" (.bool false) (by decide)
        (fun tail => by simp +decide [nextToken]) rest
  | true =>
      exact lex_word (ascii 't') "rue" (.bool true) (by decide)
        (fun tail => by simp +decide [nextToken]) rest

theorem lex_openBrace (rest : Bytes) :
    lex (0x7B :: rest) = (lex rest).map (.openBrace :: ·) := lex_cons_token (by decide) rfl

theorem lex_closeBrace (rest : Bytes) :
    lex (0x7D :: rest) = (lex rest).map (.closeBrace :: ·) := lex_cons_token (by decide) rfl

theorem lex_openBracket (rest : Bytes) :
    lex (0x5B :: rest) = (lex rest).map (.openBracket :: ·) := lex_cons_token (by decide) rfl

theorem lex_closeBracket (rest : Bytes) :
    lex (0x5D :: rest) = (lex rest).map (.closeBracket :: ·) := lex_cons_token (by decide) rfl

theorem lex_comma (rest : Bytes) :
    lex (0x2C :: rest) = (lex rest).map (.comma :: ·) := lex_cons_token (by decide) rfl

theorem lex_colon (rest : Bytes) :
    lex (0x3A :: rest) = (lex rest).map (.colon :: ·) := lex_cons_token (by decide) rfl

/-- The name of a member and the colon behind it. -/
theorem lex_name (k : String) (rest : Bytes) :
    lex (renderString (some k) ++ [0x3A, 0x20] ++ rest) =
      (lex rest).map fun ts => .string (some k) :: .colon :: ts := by
  rw [List.append_assoc, lex_renderString]
  show (lex (0x3A :: 0x20 :: rest)).map _ = _
  rw [lex_colon, lex_cons_space (by decide), Option.map_map]
  rfl

/-! ### Documents -/

/-- Behind a value stands a comma or a line feed. -/
theorem delimits_renderItemsAt (depth : Nat) (items : List Json) {rest : Bytes}
    (hrest : Delimits rest) :
    Delimits (renderItemsAt depth items ++ rest) := by
  cases items with
  | nil => exact hrest
  | cons v items =>
      rw [renderItemsAt]
      exact delimits_cons (by decide) _

theorem delimits_renderMembersAt (depth : Nat) (members : List (Option String × Json))
    {rest : Bytes} (hrest : Delimits rest) : Delimits (renderMembersAt depth members ++ rest) := by
  cases members with
  | nil => exact hrest
  | cons m members =>
      rw [renderMembersAt]
      exact delimits_cons (by decide) _

mutual

/-- **The tokens of an indented document**, and of its items and members. -/
theorem lex_renderAt (depth : Nat) (v : Json) (hv : v.IsPlain) {rest : Bytes}
    (hrest : Delimits rest) :
    lex (renderAt depth v ++ rest) = (lex rest).map (v.tokens ++ ·) := by
  cases v with
  | null => exact lex_null rest
  | bool b => exact lex_bool depth b rest
  | integer n => exact lex_integer hv hrest
  | decimal negative coefficient exponent => exact hv.elim
  | string s =>
      obtain ⟨s, rfl⟩ := Option.isSome_iff_exists.mp hv
      exact lex_renderString s rest
  | array items =>
      cases items with
      | nil =>
          show lex (0x5B :: 0x5D :: rest) = _
          rw [lex_openBracket, lex_closeBracket, Option.map_map]
          rfl
      | cons v items =>
          obtain ⟨hv, hitems⟩ := hv
          have hend : Delimits (newLine depth ++ 0x5D :: rest) := delimits_newLine depth _
          simp only [renderAt, tokens, List.append_assoc, List.cons_append, List.nil_append]
          rw [lex_openBracket, lex_newLine,
            lex_renderAt (depth + 1) v hv (delimits_renderItemsAt _ items hend),
            lex_renderItemsAt (depth + 1) items hitems hend, lex_newLine, lex_closeBracket]
          simp only [Option.map_map]
          rfl
  | object members =>
      cases members with
      | nil =>
          show lex (0x7B :: 0x7D :: rest) = _
          rw [lex_openBrace, lex_closeBrace, Option.map_map]
          rfl
      | cons m members =>
          obtain ⟨k, v⟩ := m
          obtain ⟨hk, hv, hmembers⟩ := hv
          obtain ⟨k, rfl⟩ := Option.isSome_iff_exists.mp hk
          have hend : Delimits (newLine depth ++ 0x7D :: rest) := delimits_newLine depth _
          have hname := fun rest => lex_name k rest
          simp only [renderAt, tokens, List.append_assoc, List.cons_append,
            List.nil_append] at hname ⊢
          rw [lex_openBrace, lex_newLine, hname,
            lex_renderAt (depth + 1) v hv (delimits_renderMembersAt _ members hend),
            lex_renderMembersAt (depth + 1) members hmembers hend, lex_newLine, lex_closeBrace]
          simp only [Option.map_map]
          rfl

theorem lex_renderItemsAt (depth : Nat) (items : List Json) (hitems : ArePlain items)
    {rest : Bytes} (hrest : Delimits rest) :
    lex (renderItemsAt depth items ++ rest) = (lex rest).map (itemTokens items ++ ·) := by
  cases items with
  | nil => exact Option.map_id'.symm
  | cons v items =>
      obtain ⟨hv, hitems⟩ := hitems
      simp only [renderItemsAt, itemTokens, List.append_assoc, List.cons_append]
      rw [lex_comma, lex_newLine, lex_renderAt depth v hv (delimits_renderItemsAt _ items hrest),
        lex_renderItemsAt depth items hitems hrest]
      simp only [Option.map_map]
      rfl

theorem lex_renderMembersAt (depth : Nat) (members : List (Option String × Json))
    (hmembers : MembersArePlain members) {rest : Bytes} (hrest : Delimits rest) :
    lex (renderMembersAt depth members ++ rest) = (lex rest).map (memberTokens members ++ ·) := by
  cases members with
  | nil => exact Option.map_id'.symm
  | cons m members =>
      obtain ⟨k, v⟩ := m
      obtain ⟨hk, hv, hmembers⟩ := hmembers
      obtain ⟨k, rfl⟩ := Option.isSome_iff_exists.mp hk
      have hname := fun rest => lex_name k rest
      simp only [renderMembersAt, memberTokens, List.append_assoc, List.cons_append,
        List.nil_append] at hname ⊢
      rw [lex_comma, lex_newLine, hname,
        lex_renderAt depth v hv (delimits_renderMembersAt _ members hrest),
        lex_renderMembersAt depth members hmembers hrest]
      simp only [Option.map_map]
      rfl

end

/-- **An indented document is read back.** -/
theorem ofBytes?_renderIndented {v : Json} (hv : v.IsPlain) :
    ofBytes? v.renderIndented = some v := by
  have hlex := lex_renderAt 0 v hv delimits_nil
  have hend : lex [] = some [] := by
    rw [lex]
  rw [List.append_nil, hend] at hlex
  rw [ofBytes?, renderIndented, hlex, Option.map_some, List.append_nil]
  exact ofTokens?_tokens v

end ShardKeeper.Json
