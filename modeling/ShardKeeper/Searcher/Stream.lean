import ShardKeeper.Searcher.Wire
import ShardKeeper.Text.Blank

/-!
# Streams of messages

Messages follow each other on a stream of bytes, one a line.

## Main definitions

* `Stream.nextLine` — the first line of a stream and what follows it
* `Stream.decodeLine` — what one line says, unless it is blank
* `Stream.read` — the first message of a stream
* `Stream.readAll` — all of them

A line that is damaged is used up like any other, so the ones after it are read as if it were not
there. The last line needs no line feed.
-/

namespace ShardKeeper.Stream

/-- Why a stream yields no message. -/
inductive Fault where
  /-- Nothing is left. -/
  | closed
  /-- The line is no message of the kind asked for. -/
  | malformed
  /-- The line is no text. -/
  | notText
deriving DecidableEq

/-- The first line of a stream, with its line feed if it has one, and what follows it. -/
def nextLine : Bytes → Bytes × Bytes
  | [] => ([], [])
  | b :: rest =>
    if b = 0x0A then ([b], rest)
    else
      let (line, rest) := nextLine rest
      (b :: line, rest)

theorem nextLine_append (bytes : Bytes) : (nextLine bytes).1 ++ (nextLine bytes).2 = bytes := by
  fun_induction nextLine bytes <;> simp_all

theorem nextLine_length {b : UInt8} (bytes : Bytes) :
    (nextLine (b :: bytes)).2.length < (b :: bytes).length := by
  have h := congrArg List.length (nextLine_append (b :: bytes))
  have hpos : 0 < (nextLine (b :: bytes)).1.length := by
    unfold nextLine
    split <;> simp
  simp only [List.length_append] at h
  omega

variable {α : Type} [WireMessage α]

/-- What a line says, or nothing when it is blank. -/
def decodeLine (line : Bytes) : Option (Except Fault α) :=
  match Utf8.decode? line with
  | none => some (.error .notText)
  | some text =>
    let text := Text.trim text
    if text.isEmpty then none
    else
      match (Json.ofBytes? (Utf8.encode text)).bind WireMessage.ofJson? with
      | some message => some (.ok message)
      | none => some (.error .malformed)

/-- The first message of a stream and what follows it. Blank lines are passed over. -/
def read (bytes : Bytes) : Except Fault α × Bytes :=
  match bytes with
  | [] => (.error .closed, [])
  | b :: tail =>
    match decodeLine (nextLine (b :: tail)).1 with
    | some result => (result, (nextLine (b :: tail)).2)
    | none => read (nextLine (b :: tail)).2
termination_by bytes.length
decreasing_by exact nextLine_length tail

theorem read_length (bytes : Bytes) :
    (read (α := α) bytes).2.length < bytes.length
      ∨ (read (α := α) bytes) = (.error .closed, []) := by
  fun_induction read (α := α) bytes with
  | case1 => exact Or.inr rfl
  | case2 b tail result h => exact Or.inl (nextLine_length tail)
  | case3 b tail h ih =>
    rcases ih with ih | ih
    · exact Or.inl (Nat.lt_trans ih (nextLine_length tail))
    · exact Or.inr ih

/-- Whether a stream has nothing more to say. -/
def Fault.isEnd : Except Fault α → Bool
  | .error .closed => true
  | _ => false

/-- The results of reading messages until nothing is left; the last one says so. -/
def readAll (bytes : Bytes) : List (Except Fault α) :=
  match _h : read (α := α) bytes with
  | (result, rest) => if Fault.isEnd result then [result] else result :: readAll rest
termination_by bytes.length
decreasing_by
  rcases read_length (α := α) bytes with h | h
  · rw [_h] at h
    exact h
  · rw [_h] at h
    simp only [Prod.mk.injEq] at h
    simp [h.1, Fault.isEnd] at *

/-! ### Line by line -/

/-- The lines of a stream. -/
def lines (bytes : Bytes) : List Bytes :=
  match bytes with
  | [] => []
  | b :: tail => (nextLine (b :: tail)).1 :: lines (nextLine (b :: tail)).2
termination_by bytes.length
decreasing_by exact nextLine_length tail

/-- What the lines of a stream say, blank ones aside. -/
def lineResults (bytes : Bytes) : List (Except Fault α) := (lines bytes).filterMap decodeLine

end ShardKeeper.Stream
