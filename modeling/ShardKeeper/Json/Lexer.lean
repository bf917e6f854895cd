import ShardKeeper.Json.Basic
import ShardKeeper.Text.Decimal

/-!
# Tokens of a JSON text

## Main definitions

* `Json.scanString` — the inside of a string, up to its closing quote
* `Json.scanNumber` — a number
* `Json.lex` — all tokens of a text

The lemmas `nextToken_length` and `scanString_length` say that a token takes at least one byte,
which is why `lex` ends.
-/

namespace ShardKeeper.Json

/-- Space, tab, line feed and carriage return. -/
def isSpace (b : UInt8) : Bool := b == 0x20 || b == 0x09 || b == 0x0A || b == 0x0D

/-- The byte of an ASCII character. -/
def ascii (c : Char) : UInt8 := c.toUInt8

/-! ### Strings -/

/-- One step of a string: a byte as it stands, or a UTF-16 unit named by an escape. -/
inductive Piece where
  | byte (b : UInt8)
  | unit (n : Nat)
deriving DecidableEq

/-- The value of a hexadecimal digit. -/
def hexValue? (b : UInt8) : Option Nat :=
  let n := b.toNat
  if 48 ≤ n && n ≤ 57 then some (n - 48)
  else if 97 ≤ n && n ≤ 102 then some (n - 87)
  else if 65 ≤ n && n ≤ 70 then some (n - 55)
  else none

/-- The byte that a backslash and a letter stand for. -/
def escapedByte? (b : UInt8) : Option UInt8 :=
  if b = ascii '"' then some (ascii '"')
  else if b = ascii '\\' then some (ascii '\\')
  else if b = ascii '/' then some (ascii '/')
  else if b = ascii 'b' then some 0x08
  else if b = ascii 'f' then some 0x0C
  else if b = ascii 'n' then some 0x0A
  else if b = ascii 'r' then some 0x0D
  else if b = ascii 't' then some 0x09
  else none

/-- An escaped unit; one that names an ASCII character is that character. -/
def Piece.ofUnit (n : Nat) : Piece := if n < 0x80 then .byte n.toUInt8 else .unit n

/-- The pieces of a string up to its closing quote, and what follows the quote. Control characters
must be escaped. -/
def scanString : Bytes → Option (List Piece × Bytes)
  | [] => none
  | b :: rest =>
    if b = ascii '"' then some ([], rest)
    else if b = ascii '\\' then
      match rest with
      | [] => none
      | e :: rest =>
        if e = ascii 'u' then
          match rest with
          | h₁ :: h₂ :: h₃ :: h₄ :: rest => do
            let n := ((← hexValue? h₁) * 16 + (← hexValue? h₂)) * 256
              + ((← hexValue? h₃) * 16 + (← hexValue? h₄))
            let (pieces, rest) ← scanString rest
            return (Piece.ofUnit n :: pieces, rest)
          | _ => none
        else do
          let c ← escapedByte? e
          let (pieces, rest) ← scanString rest
          return (.byte c :: pieces, rest)
    else if b < 0x20 then none
    else do
      let (pieces, rest) ← scanString rest
      return (.byte b :: pieces, rest)

/-- The bytes that the pieces of a string spell. A unit in the surrogate range must be the first
half of a pair and be followed at once by the second. -/
def spell? : List Piece → Option Bytes
  | [] => some []
  | .byte b :: rest => (spell? rest).map (b :: ·)
  | .unit n :: rest =>
    if n < 0xD800 || 0xE000 ≤ n then
      (spell? rest).map (String.utf8EncodeChar (Char.ofNat n) ++ ·)
    else
      match rest with
      | .unit m :: rest =>
        if n < 0xDC00 && 0xDC00 ≤ m && m < 0xE000 then
          let c := Char.ofNat (0x10000 + (n - 0xD800) * 0x400 + (m - 0xDC00))
          (spell? rest).map (String.utf8EncodeChar c ++ ·)
        else none
      | _ => none

/-- The text of a string, or nothing when its pieces spell none. -/
def textOf (pieces : List Piece) : Option String := (spell? pieces).bind Utf8.toString?

/-! ### Numbers -/

/-- Whether a byte is an ASCII digit. -/
def isDigit (b : UInt8) : Bool := 48 ≤ b && b ≤ 57

/-- The number that ASCII digits spell. -/
def digitsValue (digits : Bytes) : Nat := digits.foldl (fun n b => 10 * n + (b.toNat - 48)) 0

/-- The digits at the front of a text, and the rest. -/
def spanDigits (bytes : Bytes) : Bytes × Bytes := (bytes.takeWhile isDigit, bytes.dropWhile isDigit)

/-- The part of a number after its whole digits: the digits of a fraction, if there is one. -/
def scanFraction (bytes : Bytes) : Option (Option Bytes × Bytes) :=
  match bytes with
  | b :: rest =>
    if b = ascii '.' then
      let (digits, rest) := spanDigits rest
      if digits.isEmpty then none else some (some digits, rest)
    else some (none, bytes)
  | [] => some (none, [])

/-- Whether a minus sign stands in front, and the text after a sign of either kind. -/
def scanSign : Bytes → Bool × Bytes
  | [] => (false, [])
  | b :: rest =>
    if b = ascii '-' then (true, rest)
    else if b = ascii '+' then (false, rest)
    else (false, b :: rest)

/-- The part of a number after its fraction: an exponent, if there is one. -/
def scanExponent (bytes : Bytes) : Option (Option Int × Bytes) :=
  match bytes with
  | b :: rest =>
    if b = ascii 'e' || b = ascii 'E' then
      let (negative, rest) := scanSign rest
      let (digits, rest) := spanDigits rest
      if digits.isEmpty then none
      else
        let n : Int := digitsValue digits
        some (some (if negative then -n else n), rest)
    else some (none, bytes)
  | [] => some (none, [])

/-- The number that `n` becomes with as many more digits as fit in 64 bits, and the digits left. -/
def takeDigits (n : Nat) : Bytes → Nat × Bytes
  | [] => (n, [])
  | b :: rest =>
    let next := 10 * n + (b.toNat - 48)
    if next < Nat.pow 2 64 then takeDigits next rest else (n, b :: rest)

/-- The number with the given parts. Whole digits that do not fit are zeros for it, and digits of
the fraction that do not fit are nothing. -/
def numberOf (negative : Bool) (whole : Bytes) (fraction : Option Bytes) (exponent : Option Int) :
    Json :=
  let (n, cut) := takeDigits 0 whole
  match fraction, exponent, cut with
  | none, none, [] =>
    if negative then if n = 0 then .decimal true 0 0 else .integer (-n) else .integer n
  | _, _, _ =>
    let places := fraction.getD []
    let (n, left) := takeDigits n places
    .decimal negative n (exponent.getD 0 + cut.length - (places.length - left.length : Nat))

/-- An unsigned number: whole digits without a needless leading zero, then an optional fraction and
an optional exponent. -/
def scanUnsigned (negative : Bool) (bytes : Bytes) : Option (Json × Bytes) := do
  let (whole, rest) := spanDigits bytes
  if whole.isEmpty || (whole.head? = some (ascii '0') && whole.length ≠ 1) then none
  else
    let (fraction, rest) ← scanFraction rest
    let (exponent, rest) ← scanExponent rest
    return (numberOf negative whole fraction exponent, rest)

/-- A number, with a minus sign or without. -/
def scanNumber (bytes : Bytes) : Option (Json × Bytes) :=
  match bytes with
  | b :: rest => if b = ascii '-' then scanUnsigned true rest else scanUnsigned false bytes
  | [] => none

/-! ### Tokens -/

/-- What follows `word` in `bytes`, if it begins so. -/
def afterWord? (word : String) (bytes : Bytes) : Option Bytes :=
  let w := Utf8.ofString word
  if w.isPrefixOf bytes then some (bytes.drop w.length) else none

/-- The token that begins with the byte `b`, and what follows it. -/
def nextToken (b : UInt8) (rest : Bytes) : Option (Token × Bytes) :=
  if b = ascii '\x7b' then some (.openBrace, rest)
  else if b = ascii '\x7d' then some (.closeBrace, rest)
  else if b = ascii '[' then some (.openBracket, rest)
  else if b = ascii ']' then some (.closeBracket, rest)
  else if b = ascii ',' then some (.comma, rest)
  else if b = ascii ':' then some (.colon, rest)
  else if b = ascii '"' then
    (scanString rest).map fun (pieces, rest) => (.string (textOf pieces), rest)
  else if b = ascii 'n' then (afterWord? "ull" rest).map fun rest => (.leaf .null, rest)
  else if b = ascii 't' then (afterWord? "rue" rest).map fun rest => (.leaf (.bool true), rest)
  else if b = ascii 'f' then (afterWord? "alse" rest).map fun rest => (.leaf (.bool false), rest)
  else (scanNumber (b :: rest)).map fun (value, rest) => (.leaf value, rest)

/-! ### Progress -/

theorem length_dropWhile_le {α : Type} (p : α → Bool) (l : List α) :
    (l.dropWhile p).length ≤ l.length := by
  induction l with
  | nil => simp
  | cons a l ih =>
    rw [List.dropWhile_cons]
    split
    · simp only [List.length_cons]; omega
    · simp

theorem scanString_length {bytes : Bytes} {pieces : List Piece} {rest : Bytes}
    (h : scanString bytes = some (pieces, rest)) : rest.length < bytes.length := by
  fun_induction scanString bytes generalizing pieces rest with
  | case1 => simp at h
  | case2 tail => simp at h; simp [h.2]
  | case3 => simp at h
  | case4 _ h₁ h₂ h₃ h₄ tail ih =>
    simp only [Option.bind_eq_bind, Option.bind_eq_some_iff, Option.pure_def, Option.some.injEq,
      Prod.mk.injEq, Prod.exists] at h
    obtain ⟨_, _, _, _, _, _, _, _, ps, r, hs, _, rfl⟩ := h
    have := ih hs
    simp only [List.length_cons]; omega
  | case5 => simp at h
  | case6 _ e tail _ ih =>
    simp only [Option.bind_eq_bind, Option.bind_eq_some_iff, Option.pure_def, Option.some.injEq,
      Prod.mk.injEq, Prod.exists] at h
    obtain ⟨_, _, ps, r, hs, _, rfl⟩ := h
    have := ih hs
    simp only [List.length_cons]; omega
  | case7 => simp at h
  | case8 b tail _ _ _ ih =>
    simp only [Option.bind_eq_bind, Option.bind_eq_some_iff, Option.pure_def, Option.some.injEq,
      Prod.mk.injEq, Prod.exists] at h
    obtain ⟨ps, r, hs, _, rfl⟩ := h
    have := ih hs
    simp only [List.length_cons]; omega

theorem scanFraction_length {bytes : Bytes} {f : Option Bytes} {rest : Bytes}
    (h : scanFraction bytes = some (f, rest)) : rest.length ≤ bytes.length := by
  unfold scanFraction spanDigits at h
  split at h
  · rename_i b tail
    split at h
    · dsimp only at h
      split at h
      · simp at h
      · simp only [Option.some.injEq, Prod.mk.injEq] at h
        have := length_dropWhile_le isDigit tail
        rw [← h.2]; simp only [List.length_cons]; omega
    · simp only [Option.some.injEq, Prod.mk.injEq] at h
      exact Nat.le_of_eq (congrArg List.length h.2.symm)
  · simp only [Option.some.injEq, Prod.mk.injEq] at h
    exact Nat.le_of_eq (congrArg List.length h.2.symm)

theorem scanSign_length (bytes : Bytes) : (scanSign bytes).2.length ≤ bytes.length := by
  unfold scanSign
  split
  · exact Nat.le_refl _
  · split
    · simp
    · split <;> simp

theorem scanExponent_length {bytes : Bytes} {e : Option Int} {rest : Bytes}
    (h : scanExponent bytes = some (e, rest)) : rest.length ≤ bytes.length := by
  unfold scanExponent spanDigits at h
  split at h
  · rename_i b tail
    split at h
    · dsimp only at h
      split at h
      · simp at h
      · simp only [Option.some.injEq, Prod.mk.injEq] at h
        have h₁ := length_dropWhile_le isDigit (scanSign tail).2
        have h₂ := scanSign_length tail
        rw [← h.2]
        simp only [List.length_cons]
        omega
    · simp only [Option.some.injEq, Prod.mk.injEq] at h
      exact Nat.le_of_eq (congrArg List.length h.2.symm)
  · simp only [Option.some.injEq, Prod.mk.injEq] at h
    exact Nat.le_of_eq (congrArg List.length h.2.symm)

theorem scanUnsigned_length {negative : Bool} {bytes : Bytes} {v : Json} {rest : Bytes}
    (h : scanUnsigned negative bytes = some (v, rest)) : rest.length < bytes.length := by
  unfold scanUnsigned spanDigits at h
  dsimp only at h
  split at h
  · simp at h
  · rename_i hd
    simp only [Option.bind_eq_bind, Option.bind_eq_some_iff, Option.pure_def, Option.some.injEq,
      Prod.mk.injEq, Prod.exists] at h
    obtain ⟨f, r₁, hf, e, r₂, he, _, rfl⟩ := h
    have h₁ := scanFraction_length hf
    have h₂ := scanExponent_length he
    have hsplit : (bytes.takeWhile isDigit).length + (bytes.dropWhile isDigit).length
        = bytes.length := by
      rw [← List.length_append, List.takeWhile_append_dropWhile]
    have hpos : 0 < (bytes.takeWhile isDigit).length := by
      simp only [Bool.or_eq_true, not_or, List.isEmpty_iff] at hd
      exact List.length_pos_iff.2 hd.1
    omega

theorem scanNumber_length {bytes : Bytes} {v : Json} {rest : Bytes}
    (h : scanNumber bytes = some (v, rest)) : rest.length < bytes.length := by
  unfold scanNumber at h
  split at h
  · split at h
    · have := scanUnsigned_length h
      simp only [List.length_cons]; omega
    · exact scanUnsigned_length h
  · simp at h

theorem afterWord?_length {word : String} {bytes rest : Bytes}
    (h : afterWord? word bytes = some rest) : rest.length ≤ bytes.length := by
  unfold afterWord? at h
  dsimp only at h
  split at h
  · simp only [Option.some.injEq] at h
    rw [← h, List.length_drop]; omega
  · simp at h

theorem nextToken_length {b : UInt8} {bytes : Bytes} {t : Token} {rest : Bytes}
    (h : nextToken b bytes = some (t, rest)) : rest.length ≤ bytes.length := by
  unfold nextToken at h
  repeat' split at h
  all_goals simp only [Option.some.injEq, Option.map_eq_some_iff, Prod.mk.injEq, Prod.exists] at h
  any_goals simp only [h.2, Nat.le_refl]
  · obtain ⟨_, _, hs, _, rfl⟩ := h
    exact Nat.le_of_lt (scanString_length hs)
  · obtain ⟨_, hs, _, rfl⟩ := h
    exact afterWord?_length hs
  · obtain ⟨_, hs, _, rfl⟩ := h
    exact afterWord?_length hs
  · obtain ⟨_, hs, _, rfl⟩ := h
    exact afterWord?_length hs
  · obtain ⟨_, _, hs, _, rfl⟩ := h
    have := scanNumber_length hs
    simp only [List.length_cons] at this
    omega

/-- All tokens of a text, with space allowed around each. -/
def lex (bytes : Bytes) : Option (List Token) :=
  match bytes with
  | [] => some []
  | b :: tail =>
    if isSpace b then lex tail
    else
      match _h : nextToken b tail with
      | none => none
      | some (t, rest) => (lex rest).map (t :: ·)
termination_by bytes.length
decreasing_by
  · simp
  · have := nextToken_length _h
    simp only [List.length_cons]
    omega

end ShardKeeper.Json
