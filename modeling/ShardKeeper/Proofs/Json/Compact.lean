import ShardKeeper.Proofs.Json.Indented
import ShardKeeper.Proofs.Text.Line

/-!
# Documents without space

A document that was written without any space is read back as it was.  The text of
any document fills one line: the escapes leave no control character in it, and it
begins and ends with a sign, a digit, a letter or a quote.

## Main definitions

* `Json.FillsLine` — bytes that spell a text that fills a line.

## Main results

* `Json.ofBytes?_render` — a document without space is read back.
* `Json.fillsLine_render` — every document without space fills a line.
-/

namespace ShardKeeper.Json

variable {rest : Bytes}

/-! ### Tokens -/

/-- The tokens of all items, with commas between them. -/
def listTokens : List Json → List Token
  | [] => []
  | v :: items => tokens v ++ itemTokens items

/-- The tokens of all members, with commas between them. -/
def recordTokens : List (Option String × Json) → List Token
  | [] => []
  | (k, v) :: members => .string k :: .colon :: tokens v ++ memberTokens members

theorem tokens_array (items : List Json) :
    tokens (.array items) = .openBracket :: listTokens items ++ [.closeBracket] := by
  cases items <;> rfl

theorem tokens_object (members : List (Option String × Json)) :
    tokens (.object members) = .openBrace :: recordTokens members ++ [.closeBrace] := by
  cases members <;> rfl

/-- A name and the colon behind it. -/
theorem lex_key (k : String) (rest : Bytes) :
    lex (renderString (some k) ++ 0x3A :: rest) =
      (lex rest).map fun ts => .string (some k) :: .colon :: ts := by
  rw [lex_renderString, lex_colon, Option.map_map]
  rfl

mutual

/-- **The tokens of a document without space**, and of its items and members. -/
theorem lex_render (v : Json) (hv : v.IsPlain) {rest : Bytes} (hrest : Delimits rest) :
    lex (render v ++ rest) = (lex rest).map (v.tokens ++ ·) := by
  cases v with
  | null => exact lex_null rest
  | bool b =>
      have hbool := lex_bool 0 b rest
      cases b <;> exact hbool
  | integer n => exact lex_integer hv hrest
  | decimal negative coefficient exponent => exact hv.elim
  | string s =>
      obtain ⟨s, rfl⟩ := Option.isSome_iff_exists.mp hv
      exact lex_renderString s rest
  | array items =>
      have hend : Delimits (0x5D :: rest) := delimits_cons (by decide) rest
      rw [tokens_array, render, List.append_assoc, List.cons_append, List.singleton_append,
        lex_openBracket, lex_renderItems items hv hend, lex_closeBracket, Option.map_map,
        Option.map_map]
      simp [Function.comp_def]
  | object members =>
      have hend : Delimits (0x7D :: rest) := delimits_cons (by decide) rest
      rw [tokens_object, render, List.append_assoc, List.cons_append, List.singleton_append,
        lex_openBrace, lex_renderMembers members hv hend, lex_closeBrace, Option.map_map,
        Option.map_map]
      simp [Function.comp_def]

theorem lex_renderItems (items : List Json) (hitems : ArePlain items) {rest : Bytes}
    (hrest : Delimits rest) :
    lex (renderItems items ++ rest) = (lex rest).map (listTokens items ++ ·) := by
  cases items with
  | nil => exact Option.map_id'.symm
  | cons v items =>
      obtain ⟨hv, hitems⟩ := hitems
      cases items with
      | nil =>
          rw [renderItems, lex_render v hv hrest, listTokens, itemTokens, List.append_nil]
      | cons w items =>
          have hcomma : ∀ tail, Delimits (0x2C :: tail) := delimits_cons (by decide)
          rw [renderItems, List.append_assoc, List.cons_append, lex_render v hv (hcomma _),
            lex_comma, lex_renderItems (w :: items) hitems hrest, Option.map_map, Option.map_map]
          simp [Function.comp_def, listTokens, itemTokens]

theorem lex_renderMembers (members : List (Option String × Json))
    (hmembers : MembersArePlain members) {rest : Bytes} (hrest : Delimits rest) :
    lex (renderMembers members ++ rest) = (lex rest).map (recordTokens members ++ ·) := by
  cases members with
  | nil => exact Option.map_id'.symm
  | cons m members =>
      obtain ⟨k, v⟩ := m
      obtain ⟨hk, hv, hmembers⟩ := hmembers
      obtain ⟨k, rfl⟩ := Option.isSome_iff_exists.mp hk
      cases members with
      | nil =>
          rw [renderMembers, List.append_assoc, List.cons_append, lex_key, lex_render v hv hrest,
            Option.map_map]
          simp [Function.comp_def, recordTokens, memberTokens]
      | cons m members =>
          have hcomma : ∀ tail, Delimits (0x2C :: tail) := delimits_cons (by decide)
          rw [renderMembers, List.append_assoc, List.append_assoc, List.cons_append,
            List.cons_append, lex_key, lex_render v hv (hcomma _), lex_comma,
            lex_renderMembers (m :: members) hmembers hrest, Option.map_map, Option.map_map,
            Option.map_map]
          obtain ⟨l, w⟩ := m
          simp [Function.comp_def, recordTokens, memberTokens]

end

/-- **A document without space is read back.** -/
theorem ofBytes?_render {v : Json} (hv : v.IsPlain) : ofBytes? v.render = some v := by
  have hlex := lex_render v hv delimits_nil
  have hend : lex [] = some [] := by
    rw [lex]
  rw [List.append_nil, hend] at hlex
  rw [ofBytes?, hlex, Option.map_some, List.append_nil]
  exact ofTokens?_tokens v

/-! ### Text -/

/-- Bytes that spell a text without control characters. -/
def Visible (bytes : Bytes) : Prop := ∃ text, bytes = Utf8.encode text ∧ Text.IsVisible text

/-- Bytes that spell a text that fills a line. -/
def FillsLine (bytes : Bytes) : Prop := ∃ text, bytes = Utf8.encode text ∧ Text.FillsLine text

theorem FillsLine.visible {bytes : Bytes} (h : FillsLine bytes) : Visible bytes := by
  obtain ⟨text, hbytes, htext⟩ := h
  exact ⟨text, hbytes, htext.visible⟩

theorem visible_nil : Visible [] := ⟨[], rfl, by decide⟩

theorem Visible.append {a b : Bytes} (ha : Visible a) (hb : Visible b) : Visible (a ++ b) := by
  obtain ⟨s, rfl, hs⟩ := ha
  obtain ⟨t, rfl, ht⟩ := hb
  exact ⟨s ++ t, (Utf8.encode_append s t).symm, hs.append ht⟩

/-- Visible bytes between two marks fill a line. -/
theorem Visible.between {bytes : Bytes} (h : Visible bytes) (first last : Char)
    (hfirst : Text.isMark first = true) (hlast : Text.isMark last = true) :
    FillsLine (Utf8.encode [first] ++ bytes ++ Utf8.encode [last]) := by
  obtain ⟨text, rfl, htext⟩ := h
  refine ⟨[first] ++ text ++ [last], ?_, Text.fillsLine_between hfirst hlast htext⟩
  rw [Utf8.encode_append, Utf8.encode_append]

theorem isVisible_escapeByte {b : UInt8} (h : needsEscape b = true) :
    Text.IsVisible (escapeByte b) := by
  -- there are few bytes, and each escape can be looked at
  have hall : ∀ n : Fin 256, needsEscape (UInt8.ofFin n) = true →
      Text.IsVisible (escapeByte (UInt8.ofFin n)) := by
    decide +kernel
  exact hall b.toFin h

theorem escapeBytes_eq_self {bytes : Bytes} (h : ∀ b ∈ bytes, needsEscape b = false) :
    escapeBytes bytes = bytes := by
  induction bytes with
  | nil => rfl
  | cons b bytes ih =>
      rw [escapeBytes, List.flatMap_cons, h b List.mem_cons_self]
      exact congrArg (b :: ·) (ih fun c hc => h c (List.mem_cons_of_mem b hc))

/-- No byte of a character outside of ASCII is escaped. -/
theorem needsEscape_of_le {b : UInt8} (h : 128 ≤ b.toNat) : needsEscape b = false := by
  have hne : ∀ d : UInt8, d.toNat < 128 → (b == d) = false := by
    intro d hd
    refine beq_false_of_ne ?_
    rintro rfl
    omega
  rw [needsEscape, hne 0x22 (by decide), hne 0x5C (by decide), Bool.or_false, Bool.or_false,
    decide_eq_false_iff_not, UInt8.lt_iff_toNat_lt]
  exact Nat.not_lt.mpr (Nat.le_trans (by decide) h)

/-- An ASCII character stands for its escape, or for itself if it has none. -/
theorem visible_escapeBytes_ascii {c : Char} (h : c.toNat < 128) :
    Visible (escapeBytes (Utf8.encode [c])) := by
  have hbyte : Utf8.encode [c] = [UInt8.ofNat c.toNat] := by
    refine Utf8.encode_of_ascii fun d hd => ?_
    rwa [List.mem_singleton.mp hd]
  rw [hbyte, escapeBytes, List.flatMap_singleton]
  cases hb : needsEscape (UInt8.ofNat c.toNat) with
  | true => exact ⟨_, rfl, isVisible_escapeByte hb⟩
  | false =>
      refine ⟨[c], hbyte.symm, fun d hd => ?_⟩
      rw [List.mem_singleton.mp hd]
      rw [needsEscape, Bool.or_eq_false_iff, Bool.or_eq_false_iff, decide_eq_false_iff_not,
        UInt8.lt_iff_toNat_lt, UInt8.toNat_ofNat_of_lt' (Nat.lt_trans h (by decide))] at hb
      exact Nat.le_of_not_lt hb.1.1

theorem visible_escapeBytes_char (c : Char) : Visible (escapeBytes (Utf8.encode [c])) := by
  rcases Nat.lt_or_ge c.toNat 128 with hascii | hlarge
  · exact visible_escapeBytes_ascii hascii
  · have hplain : ∀ b ∈ Utf8.encode [c], needsEscape b = false := by
      intro b hb
      rw [Utf8.encode, List.flatMap_singleton] at hb
      rcases Utf8.mem_utf8EncodeChar hb with ⟨hlt, -⟩ | ⟨-, hge⟩
      · omega
      · exact needsEscape_of_le hge
    refine ⟨[c], escapeBytes_eq_self hplain, fun d hd => ?_⟩
    rw [List.mem_singleton.mp hd]
    omega

theorem visible_escapeBytes (text : List Char) : Visible (escapeBytes (Utf8.encode text)) := by
  induction text with
  | nil => exact visible_nil
  | cons c text ih =>
      have hsplit : escapeBytes (Utf8.encode (c :: text)) =
          escapeBytes (Utf8.encode [c]) ++ escapeBytes (Utf8.encode text) := by
        rw [← List.singleton_append, Utf8.encode_append]
        exact List.flatMap_append
      rw [hsplit]
      exact (visible_escapeBytes_char c).append ih

/-- A string between its quotes fills a line, whatever it says. -/
theorem fillsLine_renderString (s : Option String) : FillsLine (renderString s) := by
  cases s with
  | some s => exact (visible_escapeBytes s.toList).between '"' '"' (by decide) (by decide)
  | none => exact ⟨"\"\\ud800\"".toList, rfl, Text.fillsLine_of_all (by decide) (by decide)⟩

theorem all_isMark_ofNat (n : Nat) : (Decimal.ofNat n).all Text.isMark = true := by
  refine List.all_eq_true.mpr fun c hc => Text.isMark_iff.mpr ?_
  have hbounds := Decimal.toNat_of_isDigit (Decimal.isDigit_of_mem_ofNat hc)
  refine ⟨by omega, ?_⟩
  rw [Text.isBlank]
  simp
  omega

theorem all_isMark_ofInt (n : Int) : (Decimal.ofInt n).all Text.isMark = true := by
  cases n with
  | ofNat n => exact all_isMark_ofNat n
  | negSucc n =>
      rw [Decimal.ofInt, List.all_cons, all_isMark_ofNat]
      rfl

theorem fillsLine_integer (n : Int) : FillsLine (Utf8.encode (Decimal.ofInt n)) := by
  refine ⟨_, rfl, Text.fillsLine_of_all ?_ (all_isMark_ofInt n)⟩
  cases n with
  | ofNat n => exact Decimal.ofNat_ne_nil n
  | negSucc n => exact List.cons_ne_nil _ _

theorem fillsLine_renderDecimal (negative : Bool) (coefficient : Nat) (exponent : Int) :
    FillsLine (renderDecimal negative coefficient exponent) := by
  refine ⟨_, rfl, Text.fillsLine_of_all (by simp) ?_⟩
  rw [List.all_append, List.all_append, List.all_append, all_isMark_ofNat, all_isMark_ofInt]
  cases negative <;> rfl

mutual

/-- **A document without space is a text that fills a line**, and what stands between the
brackets of a container has no control character. -/
theorem fillsLine_render (v : Json) : FillsLine v.render := by
  cases v with
  | null => exact ⟨"null".toList, rfl, Text.fillsLine_of_all (by decide) (by decide)⟩
  | bool b =>
      cases b with
      | false => exact ⟨"false".toList, rfl, Text.fillsLine_of_all (by decide) (by decide)⟩
      | true => exact ⟨"true".toList, rfl, Text.fillsLine_of_all (by decide) (by decide)⟩
  | integer n => exact fillsLine_integer n
  | decimal negative coefficient exponent =>
      exact fillsLine_renderDecimal negative coefficient exponent
  | string s => exact fillsLine_renderString s
  | array items => exact (visible_renderItems items).between '[' ']' (by decide) (by decide)
  | object members =>
      exact (visible_renderMembers members).between '\x7b' '\x7d' (by decide) (by decide)

theorem visible_renderItems (items : List Json) : Visible (renderItems items) := by
  cases items with
  | nil => exact visible_nil
  | cons v items =>
      have hfirst := (fillsLine_render v).visible
      cases items with
      | nil => exact hfirst
      | cons w items =>
          have hcomma : Visible [0x2C] := ⟨[','], rfl, by decide⟩
          exact hfirst.append (hcomma.append (visible_renderItems (w :: items)))

theorem visible_renderMembers (members : List (Option String × Json)) :
    Visible (renderMembers members) := by
  cases members with
  | nil => exact visible_nil
  | cons m members =>
      obtain ⟨k, v⟩ := m
      have hcolon : Visible [0x3A] := ⟨[':'], rfl, by decide⟩
      have hfirst := (fillsLine_renderString k).visible.append
        (hcolon.append (fillsLine_render v).visible)
      cases members with
      | nil => exact hfirst
      | cons m members =>
          have hcomma : Visible [0x2C] := ⟨[','], rfl, by decide⟩
          have hrest := hcomma.append (visible_renderMembers (m :: members))
          rw [renderMembers]
          exact hfirst.append hrest

end

end ShardKeeper.Json
