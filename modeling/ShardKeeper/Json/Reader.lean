import ShardKeeper.Json.Lexer

/-!
# Reading a JSON document

A document is built from its tokens one at a time, with the containers that are still open held in
a list; nesting of any depth is read without recursion.

## Main definitions

* `Json.Reader` — the open containers and what may come next
* `Json.Reader.feed` — one token
* `Json.ofBytes?` — the document that a whole text spells
-/

namespace ShardKeeper.Json

/-- A container that is still open, its finished parts in reverse order. -/
inductive Frame where
  /-- An array. -/
  | items (done : List Json)
  /-- An object between two members. -/
  | members (done : List (Option String × Json))
  /-- An object inside the member named `key`. -/
  | member (done : List (Option String × Json)) (key : Option String)

/-- What may come next. -/
inductive Expect where
  /-- A value. -/
  | value
  /-- A value, or the end of an array without items. -/
  | itemOrEnd
  /-- A member name. -/
  | key
  /-- A member name, or the end of an object without members. -/
  | keyOrEnd
  /-- The colon after a member name. -/
  | colon
  /-- A comma, or the end of the innermost container. -/
  | separator
  /-- Nothing: the document is complete. -/
  | nothing (document : Json)

/-- A document part way through. -/
structure Reader where
  stack : List Frame
  expect : Expect

namespace Reader

/-- Nothing read yet. -/
def start : Reader := ⟨[], .value⟩

/-- The reader after a complete value inside the containers `stack`. -/
def receive (stack : List Frame) (v : Json) : Option Reader :=
  match stack with
  | [] => some ⟨[], .nothing v⟩
  | .items done :: outer => some ⟨.items (v :: done) :: outer, .separator⟩
  | .member done key :: outer => some ⟨.members ((key, v) :: done) :: outer, .separator⟩
  | .members _ :: _ => none

/-- The first token of a value. -/
def beginValue (stack : List Frame) : Token → Option Reader
  | .leaf v => receive stack v
  | .string s => receive stack (.string s)
  | .openBracket => some ⟨.items [] :: stack, .itemOrEnd⟩
  | .openBrace => some ⟨.members [] :: stack, .keyOrEnd⟩
  | _ => none

/-- A member name. -/
def beginMember (stack : List Frame) : Token → Option Reader
  | .string key =>
    match stack with
    | .members done :: outer => some ⟨.member done key :: outer, .colon⟩
    | _ => none
  | _ => none

/-- The end of the innermost container. -/
def close (stack : List Frame) : Token → Option Reader
  | .closeBracket =>
    match stack with
    | .items done :: outer => receive outer (.array done.reverse)
    | _ => none
  | .closeBrace =>
    match stack with
    | .members done :: outer => receive outer (.object done.reverse)
    | _ => none
  | _ => none

/-- One more token, or nothing when it may not stand here. -/
def feed (r : Reader) (t : Token) : Option Reader :=
  match r.expect with
  | .value => beginValue r.stack t
  | .itemOrEnd =>
    match t with
    | .closeBracket => close r.stack t
    | _ => beginValue r.stack t
  | .key => beginMember r.stack t
  | .keyOrEnd =>
    match t with
    | .closeBrace => close r.stack t
    | _ => beginMember r.stack t
  | .colon =>
    match t with
    | .colon => some ⟨r.stack, .value⟩
    | _ => none
  | .separator =>
    match t, r.stack with
    | .comma, .items _ :: _ => some ⟨r.stack, .value⟩
    | .comma, .members _ :: _ => some ⟨r.stack, .key⟩
    | _, _ => close r.stack t
  | .nothing _ => none

/-- The document, if it is complete. -/
def document? (r : Reader) : Option Json :=
  match r.expect with
  | .nothing v => some v
  | _ => none

end Reader

/-- The document that a sequence of tokens spells. -/
def ofTokens? (tokens : List Token) : Option Json :=
  (tokens.foldlM Reader.feed Reader.start).bind Reader.document?

/-- The document that a text spells, with nothing but space around it. -/
def ofBytes? (bytes : Bytes) : Option Json := (lex bytes).bind ofTokens?

end ShardKeeper.Json
