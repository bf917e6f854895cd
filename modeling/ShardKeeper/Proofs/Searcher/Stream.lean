import ShardKeeper.Proofs.Json.Compact
import ShardKeeper.Proofs.Searcher.Wire
import ShardKeeper.Searcher.Stream

/-!
# Messages on a stream

The messages that were written on a stream, one a line, are read from it in their
order, and then its end.  The line feed behind the last one may be missing.

## Main definitions

* `Stream.IsLine` — bytes with one line feed, at their end.

## Main results

* `Stream.isLine_encode` — a message takes one line.
* `Stream.decodeLine_render` — the line of a message says that message.
* `Stream.readAll_flatMap_append` — messages that read back are read before what follows.
* `Stream.readAll_written` — both for every kind of message.
-/

namespace ShardKeeper.Stream

open WireMessage (ReadsBack encode)

variable {α : Type} [WireMessage α] {message : α} {messages : List α} {bytes body line : Bytes}

/-- Bytes with one line feed, at their end. -/
def IsLine (line : Bytes) : Prop := ∃ body, 0x0A ∉ body ∧ line = body ++ [0x0A]

/-! ### Lines -/

theorem nextLine_of_notMem (h : 0x0A ∉ body) : nextLine body = (body, []) := by
  induction body with
  | nil => rfl
  | cons b body ih =>
      rw [List.mem_cons, not_or] at h
      rw [nextLine, if_neg (Ne.symm h.1), ih h.2]

theorem nextLine_of_isLine (h : IsLine line) (rest : Bytes) :
    nextLine (line ++ rest) = (line, rest) := by
  obtain ⟨body, hbody, rfl⟩ := h
  induction body with
  | nil => rfl
  | cons b body ih =>
      rw [List.mem_cons, not_or] at hbody
      rw [List.cons_append, List.cons_append, nextLine, if_neg (Ne.symm hbody.1), ih hbody.2]

theorem lines_eq (h : bytes ≠ []) :
    lines bytes = (nextLine bytes).1 :: lines (nextLine bytes).2 := by
  obtain ⟨b, tail, rfl⟩ := List.exists_cons_of_ne_nil h
  rw [lines]

theorem IsLine.ne_nil (h : IsLine line) : line ≠ [] := by
  obtain ⟨body, -, rfl⟩ := h
  exact List.append_ne_nil_of_right_ne_nil _ (List.cons_ne_nil _ _)

theorem lines_append (h : IsLine line) (rest : Bytes) :
    lines (line ++ rest) = line :: lines rest := by
  rw [lines_eq (List.append_ne_nil_of_left_ne_nil h.ne_nil rest), nextLine_of_isLine h]

theorem lines_flatten {all : List Bytes} (h : ∀ line ∈ all, IsLine line) :
    lines all.flatten = all := by
  induction all with
  | nil =>
      show lines [] = []
      rw [lines]
  | cons line all ih =>
      rw [List.flatten_cons, lines_append (h line List.mem_cons_self),
        ih fun l hl => h l (List.mem_cons_of_mem line hl)]

/-! ### The line of a message -/

theorem render_ne_nil (message : α) : (WireMessage.toJson message).render ≠ [] := by
  obtain ⟨text, htext, hfills⟩ := Json.fillsLine_render (WireMessage.toJson message)
  obtain ⟨c, text, rfl⟩ := List.exists_cons_of_ne_nil hfills.ne_nil
  rw [htext]
  exact List.append_ne_nil_of_left_ne_nil (String.utf8EncodeChar_ne_nil) _

theorem lineFeed_notMem_render (message : α) :
    0x0A ∉ (WireMessage.toJson message).render := by
  obtain ⟨text, htext, hfills⟩ := Json.fillsLine_render (WireMessage.toJson message)
  rw [htext]
  exact Utf8.lineFeed_notMem_encode hfills.visible

/-- **A message takes one line**, whatever it says. -/
theorem isLine_encode (message : α) : IsLine (encode message) :=
  ⟨_, lineFeed_notMem_render message, rfl⟩

/-- **The line of a message says that message**, with its line feed or without: no blank of the
message stands at an end of its line. -/
theorem decodeLine_render (h : ReadsBack message) (blanks : List Char)
    (hblanks : blanks.all Text.isBlank = true) :
    decodeLine ((WireMessage.toJson message).render ++ Utf8.encode blanks) =
      some (.ok message) := by
  obtain ⟨text, htext, hfills⟩ := Json.fillsLine_render (WireMessage.toJson message)
  have hline : (WireMessage.toJson message).render ++ Utf8.encode blanks =
      Utf8.encode (text ++ blanks) := by
    rw [htext, Utf8.encode_append]
  have hsays : (Json.ofBytes? (Utf8.encode text)).bind WireMessage.ofJson? = some message := by
    rw [← htext, Json.ofBytes?_render h.plain]
    exact h.read
  have hempty : text.isEmpty = false := List.isEmpty_eq_false_iff.mpr hfills.ne_nil
  rw [hline, decodeLine, Utf8.decode?_encode]
  dsimp only
  rw [Text.trim_append_blanks hfills hblanks, hempty, hsays]
  rfl

theorem decodeLine_encode (h : ReadsBack message) :
    decodeLine (encode message) = some (.ok message) :=
  decodeLine_render h ['\n'] (by decide)

/-! ### Reading -/

theorem read_of_decodeLine {result : Except Fault α} (hne : bytes ≠ [])
    (h : decodeLine (nextLine bytes).1 = some result) :
    read bytes = (result, (nextLine bytes).2) := by
  obtain ⟨b, tail, rfl⟩ := List.exists_cons_of_ne_nil hne
  rw [read, h]

/-- The first message is read, and what follows it is left. -/
theorem read_append (h : ReadsBack message) (rest : Bytes) :
    read (encode message ++ rest) = (.ok message, rest) := by
  have hline := nextLine_of_isLine (isLine_encode message) rest
  have hsays := decodeLine_encode h
  rw [read_of_decodeLine (List.append_ne_nil_of_left_ne_nil (isLine_encode message).ne_nil rest)
    (by rw [hline, hsays]), hline]

/-- A message at the end of a stream is read without its line feed. -/
theorem read_render (h : ReadsBack message) :
    read (WireMessage.toJson message).render = (.ok message, []) := by
  have hline := nextLine_of_notMem (lineFeed_notMem_render message)
  have hsays := decodeLine_render h [] (by decide)
  rw [Utf8.encode_nil, List.append_nil] at hsays
  rw [read_of_decodeLine (render_ne_nil message) (by rw [hline, hsays]), hline]

theorem readAll_eq {result : Except Fault α} {rest : Bytes} (h : read bytes = (result, rest)) :
    readAll bytes = if Fault.isEnd result then [result] else result :: readAll rest := by
  rw [readAll]
  split
  rename_i hread
  rw [h] at hread
  cases hread
  rfl

theorem readAll_nil : readAll (α := α) [] = [.error .closed] := by
  have hread : read (α := α) [] = (.error .closed, []) := by
    rw [read]
  rw [readAll_eq hread]
  rfl

/-- **Messages that read back are read before what follows them**, one after the other. -/
theorem readAll_flatMap_append (h : ∀ m ∈ messages, ReadsBack m) (rest : Bytes) :
    readAll (messages.flatMap encode ++ rest) = messages.map .ok ++ readAll rest := by
  induction messages with
  | nil => rfl
  | cons m messages ih =>
      have hm := h m List.mem_cons_self
      have hmessages := ih fun n hn => h n (List.mem_cons_of_mem m hn)
      rw [List.flatMap_cons, List.append_assoc, readAll_eq (read_append hm _), hmessages]
      rfl

theorem readAll_flatMap (h : ∀ m ∈ messages, ReadsBack m) :
    readAll (messages.flatMap encode) = messages.map .ok ++ [.error .closed] := by
  have hall := readAll_flatMap_append h []
  rwa [List.append_nil, readAll_nil] at hall

/-- The line feed behind the last message may be missing. -/
theorem readAll_dropLast (h : ∀ m ∈ messages, ReadsBack m) :
    readAll (messages.flatMap encode).dropLast = messages.map .ok ++ [.error .closed] := by
  rcases List.eq_nil_or_concat messages with rfl | ⟨front, last, rfl⟩
  · exact readAll_nil
  · have hlast : ReadsBack last := h last (by simp)
    have hfront : ∀ m ∈ front, ReadsBack m := fun m hm => h m (by simp [hm])
    have hstream : ((front.concat last).flatMap encode).dropLast =
        front.flatMap encode ++ (WireMessage.toJson last).render := by
      rw [List.concat_eq_append, List.flatMap_append, List.flatMap_singleton, encode,
        ← List.append_assoc, List.dropLast_concat]
    rw [hstream, readAll_flatMap_append hfront, readAll_eq (read_render hlast)]
    -- the last message is read up to the end, and nothing is left
    show front.map .ok ++ .ok last :: readAll [] = _
    rw [readAll_nil, List.concat_eq_append, List.map_append, List.append_assoc]
    rfl

/-! ### Every kind -/

/-- **Messages of every kind cross a stream.**  Whatever their texts, maps and numbers are, each
takes one line, and they are read in their order and then the end of the stream, with the line feed
behind the last one or without it. -/
theorem readAll_written (kind : WireKind) (messages : List kind.Message)
    (h : ∀ m ∈ messages, kind.Fits m) :
    let stream := messages.flatMap encode
    (∀ m ∈ messages, IsLine (encode m)) ∧
      lines stream = messages.map encode ∧
      readAll stream = messages.map .ok ++ [.error .closed] ∧
      readAll stream.dropLast = messages.map .ok ++ [.error .closed] := by
  have hback : ∀ m ∈ messages, ReadsBack m := fun m hm => kind.readsBack (h m hm)
  refine ⟨fun m _ => isLine_encode m, ?_, readAll_flatMap hback, readAll_dropLast hback⟩
  rw [List.flatMap_def]
  refine lines_flatten fun line hline => ?_
  obtain ⟨m, -, rfl⟩ := List.mem_map.mp hline
  exact isLine_encode m

/-- Answers whose texts hold quotes, escapes and separators of lines, with the least and the
greatest attribute. -/
theorem readAll_written_answers :
    let found : DocumentValue :=
      ⟨⟨[("", Decimal.minInt64), ("\u2028\n", Decimal.maxInt64)], by decide⟩,
        ⟨[("\u0085", " \"\\\r\n\u0000 "), ("\ud7ff😀", "\u007f")], by decide⟩⟩
    let answers : List QueryResponse := [⟨none, "\n", [found, default]⟩, ⟨some .noRecord, "", []⟩]
    let stream := answers.flatMap encode
    (∀ r ∈ answers, r.Fits) ∧ (lines stream).length = 2 ∧
      readAll stream = [.ok answers[0], .ok answers[1], .error .closed] ∧
      readAll stream.dropLast = [.ok answers[0], .ok answers[1], .error .closed] := by
  intro found answers stream
  have hfits : ∀ r ∈ answers, r.Fits := by
    decide
  obtain ⟨-, hlines, hall, hdropped⟩ := readAll_written .queryResponse answers hfits
  refine ⟨hfits, ?_, hall, hdropped⟩
  exact (congrArg List.length hlines).trans (List.length_map encode)

end ShardKeeper.Stream
