import Mathlib.Data.List.Basic
import ShardKeeper.Proofs.Searcher.Stream

/-!
# A stream is read line by line

Whatever bytes a stream has, each of its lines says what it would say anywhere
else.  So a damaged line is one result among the others, and where a stream ends
with a whole line another one may follow.

## Main definitions

* `Stream.Says` — what the bytes of a line say.
* `Stream.Calls` — messages read one after the other until nothing is left.

## Main results

* `Stream.says_decodeLine` — every line says something, or it is blank.
* `Stream.decodeLine_append_lineFeed` — it says the same with its line feed and without.
* `Stream.readAll_eq_splitOn` — one result for each line that is not blank, and then the end.
* `Stream.read_line_by_line` — all of it, and how the results of two streams go together.
-/

namespace ShardKeeper.Stream

variable {α : Type} [WireMessage α] {bytes line rest : Bytes} {results : List (Except Fault α)}

/-! ### One line -/

/-- The message that a text spells, if it spells one. -/
def message? (text : List Char) : Option α :=
  (Json.ofBytes? (Utf8.encode text)).bind WireMessage.ofJson?

/-- What the bytes of a line say: nothing if they are blank, and else the message that is left when
the blanks around it are cut away, or what is wrong with it. -/
inductive Says (line : Bytes) : Option (Except Fault α) → Prop where
  | blank {text : List Char} (htext : Utf8.decode? line = some text)
      (hblank : ∀ c ∈ text, Text.isBlank c = true) : Says line none
  | notText (hnone : Utf8.decode? line = none) : Says line (some (.error .notText))
  | malformed {text : List Char} (htext : Utf8.decode? line = some text)
      (hmark : ∃ c ∈ text, Text.isBlank c = false)
      (hnone : message? (α := α) (Text.trim text) = none) : Says line (some (.error .malformed))
  | message {text : List Char} {message : α} (htext : Utf8.decode? line = some text)
      (hmark : ∃ c ∈ text, Text.isBlank c = false)
      (hmessage : message? (Text.trim text) = some message) : Says line (some (.ok message))

theorem says_decodeLine (line : Bytes) : Says line (decodeLine (α := α) line) := by
  rw [decodeLine]
  cases htext : Utf8.decode? line with
  | none => exact .notText htext
  | some text =>
      dsimp only
      split
      · rename_i hempty
        exact .blank htext (Text.trim_eq_nil_iff.mp (List.isEmpty_iff.mp hempty))
      · rename_i hempty
        have hmark : ∃ c ∈ text, Text.isBlank c = false := by
          rw [List.isEmpty_iff, Text.trim_eq_nil_iff] at hempty
          simpa using hempty
        split
        · rename_i message hmessage
          exact .message htext hmark hmessage
        · rename_i hnone
          exact .malformed htext hmark hnone

/-- No line says that the stream is over. -/
theorem decodeLine_ne_closed (line : Bytes) : decodeLine (α := α) line ≠ some (.error .closed) := by
  intro h
  have hline := says_decodeLine (α := α) line
  rw [h] at hline
  cases hline

theorem decodeLine_nil : decodeLine (α := α) [] = none := by
  have htext : Utf8.decode? [] = some [] := Utf8.decode?_encode []
  rw [decodeLine, htext]
  rfl

/-- **A line says the same with its line feed and without**, even if it is no text. -/
theorem decodeLine_append_lineFeed (line : Bytes) :
    decodeLine (α := α) (line ++ [0x0A]) = decodeLine line := by
  rw [decodeLine, decodeLine, Utf8.decode?_append_lineFeed]
  cases Utf8.decode? line with
  | none => rfl
  | some text =>
      dsimp only [Option.map_some]
      rw [Text.trim_concat_blank text (by decide)]

/-! ### All lines -/

/-- The first line of a stream reaches to its first line feed, or to the end. -/
theorem nextLine_cases (bytes : Bytes) :
    (0x0A ∉ bytes ∧ nextLine bytes = (bytes, [])) ∨
      ∃ body rest, 0x0A ∉ body ∧ bytes = body ++ 0x0A :: rest ∧
        nextLine bytes = (body ++ [0x0A], rest) := by
  by_cases hmem : 0x0A ∈ bytes
  · obtain ⟨body, rest, rfl, hbody⟩ := List.eq_append_cons_of_mem hmem
    have hline := nextLine_of_isLine ⟨body, hbody, rfl⟩ rest
    rw [List.append_assoc] at hline
    exact .inr ⟨body, rest, hbody, rfl, hline⟩
  · exact .inl ⟨hmem, nextLine_of_notMem hmem⟩

/-- What the lines say is said by the runs of bytes between line feeds. -/
theorem lineResults_eq_splitOn (bytes : Bytes) :
    lineResults (α := α) bytes = (bytes.splitOn 0x0A).filterMap decodeLine := by
  rw [lineResults]
  fun_induction lines bytes with
  | case1 =>
      rw [List.splitOn_nil, List.filterMap_cons_none decodeLine_nil]
  | case2 b tail ih =>
      rcases nextLine_cases (b :: tail) with ⟨hmem, hnext⟩ | ⟨body, rest, hbody, heq, hnext⟩
      · rw [hnext, List.splitOn_eq_singleton hmem, lines]
      · rw [hnext] at ih
        rw [hnext, heq, List.splitOn_append_cons_self_of_not_mem hbody, List.filterMap_cons,
          List.filterMap_cons, decodeLine_append_lineFeed, ih]

theorem isEnd_iff {β : Type} {result : Except Fault β} :
    Fault.isEnd result = true ↔ result = .error .closed := by
  rcases result with fault | message
  · cases fault <;> simp [Fault.isEnd]
  · simp [Fault.isEnd]

theorem readAll_congr {bytes' : Bytes} (h : read (α := α) bytes = read bytes') :
    readAll (α := α) bytes = readAll bytes' := by
  have hread : read bytes' = ((read (α := α) bytes').1, (read (α := α) bytes').2) := rfl
  rw [readAll_eq (h.trans hread), readAll_eq hread]

/-- Each line that is not blank is one result, and then comes the end. -/
theorem readAll_eq_lineResults (bytes : Bytes) :
    readAll (α := α) bytes = lineResults bytes ++ [.error .closed] := by
  rw [lineResults]
  fun_induction lines bytes with
  | case1 => exact readAll_nil
  | case2 b tail ih =>
      rw [List.filterMap_cons]
      cases hline : decodeLine (α := α) (nextLine (b :: tail)).1 with
      | none =>
          have hread : read (α := α) (b :: tail) = read (nextLine (b :: tail)).2 := by
            rw [read, hline]
          rw [readAll_congr hread, ih]
      | some result =>
          have hread := read_of_decodeLine (List.cons_ne_nil b tail) hline
          have hgoesOn : ¬Fault.isEnd result = true := fun hend =>
            decodeLine_ne_closed _ (hline.trans (congrArg some (isEnd_iff.mp hend)))
          rw [readAll_eq hread, if_neg hgoesOn, ih]
          rfl

theorem readAll_eq_splitOn (bytes : Bytes) :
    readAll (α := α) bytes = (bytes.splitOn 0x0A).filterMap decodeLine ++ [.error .closed] := by
  rw [readAll_eq_lineResults, lineResults_eq_splitOn]

/-! ### One call after the other -/

/-- The results of reading messages from a stream until one of them says that nothing is left. -/
inductive Calls : Bytes → List (Except Fault α) → Prop where
  | last {bytes rest : Bytes} (hread : read (α := α) bytes = (.error .closed, rest)) :
      Calls bytes [.error .closed]
  | more {bytes rest : Bytes} {result : Except Fault α} {results : List (Except Fault α)}
      (hread : read bytes = (result, rest)) (hgoesOn : result ≠ .error .closed)
      (hrest : Calls rest results) : Calls bytes (result :: results)

/-- Reading comes to an end on every stream. -/
theorem calls_readAll (bytes : Bytes) : Calls bytes (readAll (α := α) bytes) := by
  fun_induction readAll (α := α) bytes with
  | case1 bytes result rest hread hend =>
      obtain rfl := isEnd_iff.mp hend
      exact .last hread
  | case2 bytes result rest hread hgoesOn ih =>
      exact .more hread (mt isEnd_iff.mpr hgoesOn) ih

theorem calls_iff : Calls bytes results ↔ results = readAll bytes := by
  refine ⟨fun h => ?_, fun h => h ▸ calls_readAll bytes⟩
  induction h with
  | last hread => exact (readAll_eq hread).symm
  | more hread hgoesOn _ ih =>
      rw [readAll_eq hread, if_neg (mt isEnd_iff.mp hgoesOn), ih]

/-- **Every stream is read line by line.**  Reading comes to an end on every stream; each line that
is not blank is one result, by its own bytes alone, in the order of the lines, and the last result
says that nothing is left.  So behind a stream that is empty or ends with a line feed another stream
is read as if it stood alone, and so is what follows one more line, whatever that line is. -/
theorem read_line_by_line (α : Type) [WireMessage α] (bytes : Bytes) :
    (∀ results : List (Except Fault α), Calls bytes results ↔ results = readAll bytes) ∧
      readAll (α := α) bytes = (bytes.splitOn 0x0A).filterMap decodeLine ++ [.error .closed] ∧
      (∀ line, Says line (decodeLine (α := α) line)) ∧
      ((∀ b ∈ bytes.getLast?, b = 0x0A) → ∀ rest,
        readAll (α := α) (bytes ++ rest) = (readAll bytes).dropLast ++ readAll rest ∧
          ∀ line, 0x0A ∉ line → readAll (α := α) (bytes ++ (line ++ 0x0A :: rest)) =
            (readAll bytes).dropLast ++ ((decodeLine line).toList ++ readAll rest)) := by
  have hfront : ∀ bytes, (readAll (α := α) bytes).dropLast =
      (bytes.splitOn 0x0A).filterMap decodeLine := by
    intro bytes
    rw [readAll_eq_splitOn, List.dropLast_concat]
  -- the empty run behind the last line feed is blank
  have hends : (∀ b ∈ bytes.getLast?, b = 0x0A) → ∀ rest,
      ((bytes ++ rest).splitOn 0x0A).filterMap (decodeLine (α := α)) =
        (bytes.splitOn 0x0A).filterMap decodeLine ++ (rest.splitOn 0x0A).filterMap decodeLine := by
    intro hlast rest
    rcases List.eq_nil_or_concat bytes with rfl | ⟨front, b, rfl⟩
    · rw [List.nil_append, List.splitOn_nil, List.filterMap_cons_none decodeLine_nil]
      rfl
    · obtain rfl : b = 0x0A := hlast b (by rw [List.concat_eq_append, List.getLast?_concat]; rfl)
      rw [List.concat_eq_append, List.append_assoc, List.singleton_append,
        List.splitOn_append_cons_self, List.splitOn_append_cons_self, List.splitOn_nil,
        List.filterMap_append, List.filterMap_append, List.filterMap_cons_none decodeLine_nil,
        List.filterMap_nil, List.append_nil]
  refine ⟨fun _ => calls_iff, readAll_eq_splitOn bytes, says_decodeLine, fun hlast rest => ⟨?_, ?_⟩⟩
  · rw [readAll_eq_splitOn, hends hlast, hfront, List.append_assoc, readAll_eq_splitOn rest]
  · intro line hline
    rw [readAll_eq_splitOn, hends hlast, hfront, List.splitOn_append_cons_self_of_not_mem hline,
      List.filterMap_cons, readAll_eq_splitOn rest]
    cases decodeLine (α := α) line <;> simp

/-- A line that is no text, a blank line and one that is no answer, and then an answer without a
line feed. -/
theorem read_line_by_line_past_damage :
    let damaged : Bytes := [0xFF, 0x0A, 0x20, 0x0A]
    let answer : Bytes := Utf8.encode "\x7b\"error_message\":\"m\"\x7d".toList
    (∀ b ∈ damaged.getLast?, b = 0x0A) ∧ 0x0A ∉ [(0x78 : UInt8)] ∧
      readAll (α := QueryResponse) (damaged ++ ([0x78] ++ 0x0A :: answer)) =
        [.error .notText, .error .malformed, .ok ⟨none, "m", []⟩, .error .closed] := by
  intro damaged answer
  obtain ⟨-, hdamaged, -, happend⟩ := read_line_by_line QueryResponse damaged
  obtain ⟨-, hanswer, -⟩ := read_line_by_line QueryResponse answer
  have hlast : ∀ b ∈ damaged.getLast?, b = 0x0A := fun b hb => (Option.some.inj hb).symm
  have hwhole : 0x0A ∉ [(0x78 : UInt8)] := by decide
  refine ⟨hlast, hwhole, ?_⟩
  rw [(happend hlast answer).2 _ hwhole, hdamaged, hanswer]
  decide +kernel

end ShardKeeper.Stream
