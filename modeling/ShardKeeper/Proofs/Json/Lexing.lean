import Mathlib.Algebra.Group.Nat.Defs
import ShardKeeper.Json.Printer
import ShardKeeper.Proofs.Json.Tokens
import ShardKeeper.Proofs.Text.Decimal

/-!
# Tokens in a text

What is written for a token is read as that token, whatever follows it.  Only
after a number it matters what follows, since digits, a point or an exponent
would go on with it.

## Main definitions

* `Json.Delimits` — a text that does not go on with a number.

## Main results

* `Json.scanString_escapeBytes` — a string is read as it was before it was escaped.
* `Json.scanNumber_ofInt` — an integer is read as it was.
* `Json.lex_renderString`, `Json.lex_integer`, `Json.lex_cons_token` — the same for their tokens.
-/

namespace ShardKeeper.Json

variable {b : UInt8} {rest tail : Bytes} {t : Token}

/-! ### One token after the other -/

theorem lex_cons_space (h : isSpace b = true) (rest : Bytes) : lex (b :: rest) = lex rest := by
  rw [lex, if_pos h]

theorem lex_cons_token (hb : isSpace b = false) (h : nextToken b tail = some (t, rest)) :
    lex (b :: tail) = (lex rest).map (t :: ·) := by
  rw [lex, if_neg (Bool.eq_false_iff.mp hb)]
  split
  · rename_i hnone
    rw [h] at hnone
    cases hnone
  · rename_i hsome
    rw [h] at hsome
    cases hsome
    rfl

theorem lex_newLine (depth : Nat) (rest : Bytes) : lex (newLine depth ++ rest) = lex rest := by
  have hspaces : ∀ n, lex (List.replicate n 0x20 ++ rest) = lex rest := by
    intro n
    induction n with
    | zero => rfl
    | succ n ih => rw [List.replicate_succ, List.cons_append, lex_cons_space (by decide), ih]
  rw [newLine, List.cons_append, lex_cons_space (by decide), hspaces]

/-! ### Strings -/

/-- How a byte is escaped: by a letter, or by its two hexadecimal digits. -/
theorem escapeByte_cases (h : needsEscape b = true) :
    (∃ e, Utf8.encode (escapeByte b) = [0x5C, e] ∧ e ≠ ascii 'u' ∧ escapedByte? e = some b) ∨
      ∃ e f high low, Utf8.encode (escapeByte b) = [0x5C, ascii 'u', ascii '0', ascii '0', e, f] ∧
        hexValue? e = some high ∧ hexValue? f = some low ∧
        Piece.ofUnit (high * 16 + low) = .byte b := by
  let written (b : UInt8) : Bytes := Utf8.encode (escapeByte b)
  let byLetter (b : UInt8) : Prop :=
    let e := (written b).getD 1 0
    written b = [0x5C, e] ∧ e ≠ ascii 'u' ∧ escapedByte? e = some b
  let byDigits (b : UInt8) : Prop :=
    let e := (written b).getD 4 0
    let f := (written b).getD 5 0
    written b = [0x5C, ascii 'u', ascii '0', ascii '0', e, f] ∧ (hexValue? e).isSome = true ∧
      (hexValue? f).isSome = true ∧
      Piece.ofUnit ((hexValue? e).getD 0 * 16 + (hexValue? f).getD 0) = .byte b
  have hall : ∀ n : Fin 256, needsEscape (UInt8.ofFin n) = true →
      byLetter (UInt8.ofFin n) ∨ byDigits (UInt8.ofFin n) := by
    decide +kernel
  rcases hall b.toFin h with hletter | ⟨hwritten, hhigh, hlow, hbyte⟩
  · exact Or.inl ⟨_, hletter⟩
  · obtain ⟨high, hhigh⟩ := Option.isSome_iff_exists.mp hhigh
    obtain ⟨low, hlow⟩ := Option.isSome_iff_exists.mp hlow
    rw [hhigh, hlow] at hbyte
    exact Or.inr ⟨_, _, high, low, hwritten, hhigh, hlow, hbyte⟩

/-- An escaped byte is read as that byte. -/
theorem scanString_escapeByte (h : needsEscape b = true) (rest : Bytes) :
    scanString (Utf8.encode (escapeByte b) ++ rest) =
      (scanString rest).map fun s => (.byte b :: s.1, s.2) := by
  have hquote : ¬(0x5C : UInt8) = ascii '"' := by decide
  have hbackslash : (0x5C : UInt8) = ascii '\\' := by decide
  have hzero : hexValue? (ascii '0') = some 0 := by decide
  rcases escapeByte_cases h with ⟨e, hwritten, hne, hbyte⟩ | ⟨e, f, x, y, hwritten, hx, hy, hbyte⟩
  · rw [hwritten, List.cons_append, List.cons_append, List.nil_append, scanString.eq_def]
    dsimp only
    rw [if_neg hquote, if_pos hbackslash, if_neg hne, hbyte]
    cases scanString rest <;> rfl
  · rw [hwritten, List.cons_append, scanString.eq_def]
    dsimp only [List.cons_append, List.nil_append]
    rw [if_neg hquote, if_pos hbackslash, if_pos rfl, hzero, hx, hy]
    cases scanString rest with
    | none => rfl
    | some s =>
        show some (Piece.ofUnit (0 + (x * 16 + y)) :: s.1, s.2) = _
        rw [Nat.zero_add, hbyte]
        rfl

/-- A byte that is not escaped is read as it stands. -/
theorem scanString_cons (h : needsEscape b = false) (rest : Bytes) :
    scanString (b :: rest) = (scanString rest).map fun s => (.byte b :: s.1, s.2) := by
  rw [needsEscape, Bool.or_eq_false_iff, Bool.or_eq_false_iff, decide_eq_false_iff_not,
    beq_eq_false_iff_ne, beq_eq_false_iff_ne] at h
  obtain ⟨⟨hcontrol, hquote⟩, hbackslash⟩ := h
  replace hquote : ¬b = ascii '"' := hquote
  replace hbackslash : ¬b = ascii '\\' := hbackslash
  rw [scanString.eq_def]
  dsimp only
  rw [if_neg hquote, if_neg hbackslash, if_neg hcontrol]
  cases scanString rest <;> rfl

/-- **A string is read as it was before it was escaped.** -/
theorem scanString_escapeBytes (bytes rest : Bytes) :
    scanString (escapeBytes bytes ++ 0x22 :: rest) = some (bytes.map .byte, rest) := by
  induction bytes with
  | nil =>
      rw [scanString.eq_def]
      rfl
  | cons b bytes ih =>
      rw [escapeBytes, List.flatMap_cons, List.append_assoc]
      change scanString (_ ++ (escapeBytes bytes ++ 0x22 :: rest)) = _
      cases h : needsEscape b with
      | true =>
          rw [if_pos rfl, scanString_escapeByte h, ih]
          rfl
      | false =>
          rw [if_neg Bool.false_ne_true, List.singleton_append, scanString_cons h, ih]
          rfl

theorem spell?_map_byte (bytes : Bytes) : spell? (bytes.map .byte) = some bytes := by
  induction bytes with
  | nil => rfl
  | cons b bytes ih =>
      rw [List.map_cons, spell?, ih]
      rfl

theorem lex_renderString (s : String) (rest : Bytes) :
    lex (renderString (some s) ++ rest) = (lex rest).map (.string (some s) :: ·) := by
  have hscan := scanString_escapeBytes (Utf8.ofString s) rest
  have htext : textOf ((Utf8.ofString s).map .byte) = some s := by
    rw [textOf, spell?_map_byte]
    exact Utf8.toString?_ofString s
  have htoken : nextToken 0x22 (escapeBytes (Utf8.ofString s) ++ 0x22 :: rest) =
      some (.string (some s), rest) := by
    show (scanString _).map _ = _
    rw [hscan, Option.map_some]
    dsimp only
    rw [htext]
  show lex (0x22 :: (escapeBytes (Utf8.ofString s) ++ [0x22] ++ rest)) = _
  rw [List.append_assoc, List.singleton_append, lex_cons_token (by decide) htoken]

/-! ### Numbers -/

/-- A text that does not go on with a number. -/
def Delimits (rest : Bytes) : Prop :=
  ∀ b ∈ rest.head?, isDigit b = false ∧ b ≠ ascii '.' ∧ b ≠ ascii 'e' ∧ b ≠ ascii 'E'

theorem delimits_nil : Delimits [] := fun _ h => absurd h (by simp)

theorem delimits_cons (h : isDigit b = false ∧ b ≠ ascii '.' ∧ b ≠ ascii 'e' ∧ b ≠ ascii 'E')
    (rest : Bytes) : Delimits (b :: rest) := by
  intro c hc
  obtain rfl : b = c := Option.some.inj hc
  exact h

theorem delimits_newLine (depth : Nat) (rest : Bytes) : Delimits (newLine depth ++ rest) :=
  delimits_cons (by decide) _

theorem scanFraction_of_delimits (h : Delimits rest) : scanFraction rest = some (none, rest) := by
  cases rest with
  | nil => rfl
  | cons b rest =>
      obtain ⟨-, hpoint, -⟩ := h b rfl
      rw [scanFraction, if_neg hpoint]

theorem scanExponent_of_delimits (h : Delimits rest) : scanExponent rest = some (none, rest) := by
  cases rest with
  | nil => rfl
  | cons b rest =>
      obtain ⟨-, -, hlower, hupper⟩ := h b rfl
      rw [scanExponent, if_neg]
      simp [hlower, hupper]

/-- The bytes of digits. -/
def digitBytes (digits : List Char) : Bytes := digits.map fun c => UInt8.ofNat c.toNat

theorem encode_digits {digits : List Char} (h : ∀ c ∈ digits, c.isDigit = true) :
    Utf8.encode digits = digitBytes digits := by
  refine Utf8.encode_of_ascii fun c hc => ?_
  have := (Decimal.toNat_of_isDigit (h c hc)).2
  omega

theorem toNat_digitByte {c : Char} (h : c.isDigit = true) :
    (UInt8.ofNat c.toNat).toNat = c.toNat := by
  have hlt := (Decimal.toNat_of_isDigit h).2
  exact UInt8.toNat_ofNat_of_lt' (Nat.lt_of_le_of_lt hlt (by decide))

theorem isDigit_digitByte {c : Char} (h : c.isDigit = true) :
    isDigit (UInt8.ofNat c.toNat) = true := by
  have hbounds := Decimal.toNat_of_isDigit h
  rw [isDigit, Bool.and_eq_true, decide_eq_true_eq, decide_eq_true_eq, UInt8.le_iff_toNat_le,
    UInt8.le_iff_toNat_le, toNat_digitByte h]
  exact hbounds

theorem spanDigits_digitBytes {digits : List Char} (h : ∀ c ∈ digits, c.isDigit = true)
    (hrest : Delimits rest) :
    spanDigits (digitBytes digits ++ rest) = (digitBytes digits, rest) := by
  have hall : ∀ b ∈ digitBytes digits, isDigit b = true := by
    intro b hb
    obtain ⟨c, hc, rfl⟩ := List.mem_map.mp hb
    exact isDigit_digitByte (h c hc)
  have hnone : rest.takeWhile isDigit = [] ∧ rest.dropWhile isDigit = rest := by
    cases rest with
    | nil => exact ⟨rfl, rfl⟩
    | cons b rest =>
        have hb := (hrest b rfl).1
        exact ⟨by rw [List.takeWhile_cons, hb]; rfl, by rw [List.dropWhile_cons, hb]; rfl⟩
  rw [spanDigits, List.takeWhile_append_of_pos hall, List.dropWhile_append_of_pos hall, hnone.1,
    hnone.2, List.append_nil]

theorem le_ofDigitChars (digits : List Char) (n : Nat) : n ≤ Nat.ofDigitChars 10 digits n := by
  induction digits generalizing n with
  | nil => exact Nat.le_refl n
  | cons c digits ih =>
      rw [Nat.ofDigitChars_cons]
      exact Nat.le_trans (by omega) (ih _)

/-- Digits whose number fits in 64 bits are all taken. -/
theorem takeDigits_digitBytes {digits : List Char} (h : ∀ c ∈ digits, c.isDigit = true) (n : Nat)
    (hfits : Nat.ofDigitChars 10 digits n < 2 ^ 64) :
    takeDigits n (digitBytes digits) = (Nat.ofDigitChars 10 digits n, []) := by
  induction digits generalizing n with
  | nil => rfl
  | cons c digits ih =>
      have hc := toNat_digitByte (h c List.mem_cons_self)
      rw [Nat.ofDigitChars_cons] at hfits ⊢
      have hnext := Nat.lt_of_le_of_lt (le_ofDigitChars digits _) hfits
      rw [digitBytes, List.map_cons, takeDigits, hc]
      exact (if_pos hnext).trans (ih (fun d hd => h d (List.mem_cons_of_mem c hd)) _ hfits)

/-- A numeral has a digit, and none but that of zero begins with a zero. -/
theorem leadsRightly_ofNat (n : Nat) :
    ((digitBytes (Decimal.ofNat n)).isEmpty ||
      (decide ((digitBytes (Decimal.ofNat n)).head? = some (ascii '0')) &&
        decide ((digitBytes (Decimal.ofNat n)).length ≠ 1))) = false := by
  rcases Nat.eq_zero_or_pos n with rfl | hpos
  · decide
  · have hhead := Decimal.head?_ofNat_ne (Nat.pos_iff_ne_zero.mp hpos)
    obtain ⟨c, digits, hcons⟩ := List.exists_cons_of_ne_nil (Decimal.ofNat_ne_nil n)
    have hc : c.isDigit = true :=
      Decimal.isDigit_of_mem_ofNat (by rw [hcons]; exact List.mem_cons_self)
    rw [hcons] at hhead ⊢
    have hbyte : UInt8.ofNat c.toNat ≠ ascii '0' := by
      intro heq
      have hnat := congrArg UInt8.toNat heq
      rw [toNat_digitByte hc] at hnat
      exact hhead (congrArg some (Char.toNat_inj.mp hnat))
    simp [digitBytes, hbyte]

/-- A natural number is read as it was, with a sign in front of it or without. -/
theorem scanUnsigned_ofNat (negative : Bool) {n : Nat} (hn : n < 2 ^ 64)
    (hsign : negative = true → n ≠ 0) (hrest : Delimits rest) :
    scanUnsigned negative (Utf8.encode (Decimal.ofNat n) ++ rest) =
      some (.integer (if negative then -n else n), rest) := by
  have hdigits : ∀ c ∈ Decimal.ofNat n, c.isDigit = true := fun c hc =>
    Decimal.isDigit_of_mem_ofNat hc
  have hspan := spanDigits_digitBytes hdigits hrest
  have htake : takeDigits 0 (digitBytes (Decimal.ofNat n)) = (n, []) := by
    have hvalue : Nat.ofDigitChars 10 (Decimal.ofNat n) 0 = n := Decimal.value_ofNat n
    have htake := takeDigits_digitBytes hdigits 0 (by rwa [hvalue])
    rwa [hvalue] at htake
  rw [encode_digits hdigits, scanUnsigned, hspan]
  dsimp only
  rw [if_neg (Bool.eq_false_iff.mp (leadsRightly_ofNat n)), scanFraction_of_delimits hrest]
  show ((scanExponent rest).bind fun e =>
    some (numberOf negative (digitBytes (Decimal.ofNat n)) none e.1, e.2)) = _
  rw [scanExponent_of_delimits hrest]
  show some (numberOf negative (digitBytes (Decimal.ofNat n)) none none, rest) = _
  rw [numberOf, htake]
  cases negative with
  | false => rfl
  | true => simp [hsign rfl]

/-- The first byte of a numeral. -/
theorem encode_ofNat_cons (n : Nat) :
    ∃ b tail, Utf8.encode (Decimal.ofNat n) = b :: tail ∧ isDigit b = true := by
  have hdigits : ∀ c ∈ Decimal.ofNat n, c.isDigit = true := fun c hc =>
    Decimal.isDigit_of_mem_ofNat hc
  obtain ⟨c, digits, hcons⟩ := List.exists_cons_of_ne_nil (Decimal.ofNat_ne_nil n)
  refine ⟨UInt8.ofNat c.toNat, digitBytes digits, ?_, isDigit_digitByte ?_⟩
  · rw [encode_digits hdigits, hcons]
    rfl
  · exact hdigits c (by rw [hcons]; exact List.mem_cons_self)

/-- The first byte of an integer. -/
theorem encode_ofInt_cons (n : Int) :
    ∃ b tail, Utf8.encode (Decimal.ofInt n) = b :: tail ∧ (isDigit b = true ∨ b = ascii '-') := by
  cases n with
  | ofNat n =>
      obtain ⟨b, tail, hcons, hb⟩ := encode_ofNat_cons n
      exact ⟨b, tail, hcons, Or.inl hb⟩
  | negSucc n => exact ⟨ascii '-', Utf8.encode (Decimal.ofNat (n + 1)), rfl, Or.inr rfl⟩

/-- **An integer is read as it was.** -/
theorem scanNumber_ofInt {n : Int} (hn : n.natAbs < 2 ^ 64) (hrest : Delimits rest) :
    scanNumber (Utf8.encode (Decimal.ofInt n) ++ rest) = some (.integer n, rest) := by
  cases n with
  | ofNat n =>
      have hscan : scanUnsigned false (Utf8.encode (Decimal.ofNat n) ++ rest) =
          some (.integer n, rest) :=
        scanUnsigned_ofNat false hn (fun h => absurd h Bool.false_ne_true) hrest
      obtain ⟨b, tail, hcons, hb⟩ := encode_ofNat_cons n
      have hminus : b ≠ ascii '-' := by
        rintro rfl
        exact absurd hb (by decide)
      show scanNumber (Utf8.encode (Decimal.ofNat n) ++ rest) = _
      rw [hcons, List.cons_append] at hscan ⊢
      rw [scanNumber, if_neg hminus]
      exact hscan
  | negSucc n =>
      have hscan := scanUnsigned_ofNat true hn (fun _ => Nat.succ_ne_zero n) hrest
      show scanNumber (ascii '-' :: (Utf8.encode (Decimal.ofNat (n + 1)) ++ rest)) = _
      rw [scanNumber, if_pos rfl]
      exact hscan

/-- The first byte of a number is that of no other token. -/
theorem ne_of_number (hb : isDigit b = true ∨ b = ascii '-') {c : UInt8}
    (hc : isDigit c = false ∧ c ≠ ascii '-') : b ≠ c := by
  rintro rfl
  rcases hb with hb | hb
  · rw [hc.1] at hb
    cases hb
  · exact hc.2 hb

/-- Where a number begins, a number is read. -/
theorem nextToken_of_number (hb : isDigit b = true ∨ b = ascii '-') (tail : Bytes) :
    nextToken b tail = (scanNumber (b :: tail)).map fun s => (.leaf s.1, s.2) := by
  have hne : ∀ c : Char, isDigit (ascii c) = false ∧ ascii c ≠ ascii '-' → b ≠ ascii c :=
    fun c hc => ne_of_number hb hc
  rw [nextToken, if_neg (hne '\x7b' (by decide)), if_neg (hne '\x7d' (by decide)),
    if_neg (hne '[' (by decide)), if_neg (hne ']' (by decide)), if_neg (hne ',' (by decide)),
    if_neg (hne ':' (by decide)), if_neg (hne '"' (by decide)), if_neg (hne 'n' (by decide)),
    if_neg (hne 't' (by decide)), if_neg (hne 'f' (by decide))]

theorem lex_integer {n : Int} (hn : n.natAbs < 2 ^ 64) (hrest : Delimits rest) :
    lex (Utf8.encode (Decimal.ofInt n) ++ rest) = (lex rest).map (.leaf (.integer n) :: ·) := by
  have hscan := scanNumber_ofInt hn hrest
  obtain ⟨b, tail, hcons, hb⟩ := encode_ofInt_cons n
  rw [hcons, List.cons_append] at hscan ⊢
  have htoken : nextToken b (tail ++ rest) = some (.leaf (.integer n), rest) := by
    rw [nextToken_of_number hb, hscan]
    rfl
  have hspace : isSpace b = false := by
    have hne : ∀ c : UInt8, isDigit c = false ∧ c ≠ ascii '-' → (b == c) = false :=
      fun c hc => beq_false_of_ne (ne_of_number hb hc)
    rw [isSpace, hne 0x20 (by decide), hne 0x09 (by decide), hne 0x0A (by decide),
      hne 0x0D (by decide)]
    rfl
  exact lex_cons_token hspace htoken

end ShardKeeper.Json
