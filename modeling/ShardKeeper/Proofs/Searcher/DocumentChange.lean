import Mathlib.Data.List.Infix
import ShardKeeper.Searcher.DocumentChange

/-!
# What a payload tells

Names and values are written into a payload as they are.  This file says of which
changes a payload tells everything, and how little it tells of the others.

## Main definitions

* `DocumentChange.fieldChars`, `DocumentChange.body` — a field, and all fields of a payload.
* `DocumentChange.IsPlainField` — a field that its line tells.
* `DocumentChange.StandsApart` — a field that is no end of a record.

## Main results

* `DocumentChange.body_append_inj` — plain fields are told whatever follows them.
* `DocumentChange.payload_tells_change` — equal payloads of plain fields tell equal changes, and
  records in a row are told one by one.
* `DocumentChange.payload_of_two_changes` — without that condition fields merge, split, and end
  the record.
* `DocumentChange.payload_is_own_iff` — hardly any payload can be of one change only.
-/

namespace ShardKeeper.DocumentChange

variable {c d : DocumentChange} {f g : String × String} {fs gs : List (String × String)}
variable {a b x y : List Char}

/-! ### Characters of a payload -/

/-- The characters of a field, without what ends its line. -/
def fieldChars (f : String × String) : List Char := f.1.toList ++ '=' :: f.2.toList

/-- The lines of some fields. -/
def body (fs : List (String × String)) : List Char :=
  fs.flatMap fun f => fieldChars f ++ fieldEnd.toList

/-- The line of an operation. -/
def heading (o : Operation) : List Char := "CMD=".toList ++ o.command.toList ++ fieldEnd.toList

@[simp] theorem body_nil : body [] = [] := rfl

theorem body_cons (f : String × String) (fs : List (String × String)) (x : List Char) :
    body (f :: fs) ++ x = fieldChars f ++ (fieldEnd.toList ++ (body fs ++ x)) := by
  simp [body]

theorem toList_encodeField (f : String × String) :
    (encodeField f).toList = fieldChars f ++ fieldEnd.toList := by
  simp [encodeField, fieldChars]

theorem toList_encode (c : DocumentChange) :
    c.encode.toList = heading c.operation ++ (body c.fields ++ recordEnd.toList) := by
  simp [encode, heading, body, List.flatMap_map, toList_encodeField]

/-- The first line of a payload tells the operation. -/
theorem heading_append_inj {o o' : Operation} (h : heading o ++ x = heading o' ++ y) :
    o = o' ∧ x = y := by
  cases o <;> cases o'
  case index.index | delete.delete => exact ⟨rfl, List.append_cancel_left h⟩
  all_goals simp [heading, Operation.command] at h

theorem encode_eq_iff :
    c.encode = d.encode ↔ c.operation = d.operation ∧ body c.fields = body d.fields := by
  rw [← String.toList_inj, toList_encode, toList_encode]
  refine ⟨fun h => ?_, fun ⟨hoperation, hbody⟩ => by rw [hoperation, hbody]⟩
  obtain ⟨hoperation, hrest⟩ := heading_append_inj h
  exact ⟨hoperation, List.append_cancel_right hrest⟩

/-- The encoded parts are all there is of a change. -/
theorem eq_of_parts (hoperation : c.operation = d.operation) (hfields : c.fields = d.fields) :
    c = d := by
  cases c
  cases d
  cases hoperation
  cases hfields
  rfl

/-! ### Fields that are told -/

/-- A field whose name has no equals sign and whose line is over where it ends. -/
def IsPlainField (f : String × String) : Prop :=
  '=' ∉ f.1.toList ∧ ¬fieldEnd.toList <:+: fieldChars f

/-- A field whose name does not begin like the end of a record. -/
def StandsApart (f : String × String) : Prop := ¬recordEnd.toList <+: f.1.toList

instance (f : String × String) : Decidable (IsPlainField f) :=
  inferInstanceAs (Decidable (_ ∧ _))

instance (f : String × String) : Decidable (StandsApart f) :=
  inferInstanceAs (Decidable (¬_))

theorem fieldChars_ne_nil (f : String × String) : fieldChars f ≠ [] :=
  List.append_ne_nil_of_right_ne_nil _ (List.cons_ne_nil _ _)

theorem fieldChars_inj (hf : '=' ∉ f.1.toList) (hg : '=' ∉ g.1.toList)
    (h : fieldChars f = fieldChars g) : f = g := by
  -- the name is all there is before the first equals sign
  have hname : ∀ e : String × String, '=' ∉ e.1.toList →
      (fieldChars e).takeWhile (· ≠ '=') = e.1.toList := by
    intro e he
    have hall : ∀ a ∈ e.1.toList, decide (a ≠ '=') = true := fun a ha =>
      decide_eq_true fun heq => he (heq ▸ ha)
    rw [fieldChars, List.takeWhile_append_of_pos hall]
    simp
  have hfirst : f.1.toList = g.1.toList := by
    rw [← hname f hf, h, hname g hg]
  rw [fieldChars, fieldChars, hfirst] at h
  have hsecond := (List.cons.inj (List.append_cancel_left h)).2
  exact Prod.ext (String.toList_inj.mp hfirst) (String.toList_inj.mp hsecond)

/-- An end of a line cannot begin inside of one: its two characters differ. -/
theorem eq_nil_of_fieldEnd_append (hwhole : ¬fieldEnd.toList <:+: a ++ b)
    (h : fieldEnd.toList ++ x = b ++ (fieldEnd.toList ++ y)) : b = [] := by
  rcases b with _ | ⟨first, _ | ⟨second, rest⟩⟩
  · rfl
  · have hsecond := (List.cons.inj (List.cons.inj h).2).1
    exact absurd hsecond (by decide)
  · obtain ⟨hfirst, htail⟩ := List.cons.inj h
    obtain ⟨hsecond, -⟩ := List.cons.inj htail
    subst hfirst hsecond
    exact absurd (List.infix_append' a fieldEnd.toList rest) hwhole

/-- What stands before the first end of a line, and what comes after it. -/
theorem append_fieldEnd_inj (ha : ¬fieldEnd.toList <:+: a) (hb : ¬fieldEnd.toList <:+: b)
    (h : a ++ (fieldEnd.toList ++ x) = b ++ (fieldEnd.toList ++ y)) : a = b ∧ x = y := by
  rcases List.append_eq_append_iff.mp h with ⟨t, rfl, ht⟩ | ⟨t, rfl, ht⟩
  · obtain rfl := eq_nil_of_fieldEnd_append hb ht
    exact ⟨(List.append_nil a).symm, List.append_cancel_left ht⟩
  · obtain rfl := eq_nil_of_fieldEnd_append ha ht
    exact ⟨List.append_nil b, (List.append_cancel_left ht).symm⟩

/-- **Plain fields are told** by their lines, whatever comes behind them, unless that looks like one
more field. -/
theorem body_append_inj (hfs : ∀ f ∈ fs, IsPlainField f) (hgs : ∀ g ∈ gs, IsPlainField g)
    (hx : ∀ g ∈ gs, ¬fieldChars g <+: x) (hy : ∀ f ∈ fs, ¬fieldChars f <+: y)
    (h : body fs ++ x = body gs ++ y) : fs = gs ∧ x = y := by
  induction fs generalizing gs with
  | nil =>
      cases gs with
      | nil => exact ⟨rfl, h⟩
      | cons g gs =>
          rw [body_cons, body_nil, List.nil_append] at h
          exact absurd (h ▸ List.prefix_append _ _) (hx g List.mem_cons_self)
  | cons f fs ih =>
      cases gs with
      | nil =>
          rw [body_cons, body_nil, List.nil_append] at h
          exact absurd (h ▸ List.prefix_append _ _) (hy f List.mem_cons_self)
      | cons g gs =>
          have hf := hfs f List.mem_cons_self
          have hg := hgs g List.mem_cons_self
          rw [body_cons, body_cons] at h
          obtain ⟨hline, hrest⟩ := append_fieldEnd_inj hf.2 hg.2 h
          obtain rfl := fieldChars_inj hf.1 hg.1 hline
          obtain ⟨rfl, hends⟩ := ih (fun e he => hfs e (List.mem_cons_of_mem f he))
            (fun e he => hgs e (List.mem_cons_of_mem f he))
            (fun e he => hx e (List.mem_cons_of_mem f he))
            (fun e he => hy e (List.mem_cons_of_mem f he)) hrest
          exact ⟨rfl, hends⟩

/-- The end of a record is no beginning of a field that stands apart from it. -/
theorem StandsApart.not_begins (h : StandsApart f) (x : List Char) :
    ¬fieldChars f <+: recordEnd.toList ++ x := by
  rintro ⟨t, ht⟩
  unfold StandsApart at h
  rw [fieldChars] at ht
  rcases hname : f.1.toList with _ | ⟨first, _ | ⟨second, rest⟩⟩
  · rw [hname] at ht
    exact absurd (List.cons.inj ht).1 (by decide)
  · rw [hname] at ht
    exact absurd (List.cons.inj (List.cons.inj ht).2).1 (by decide)
  · rw [hname] at ht h
    obtain ⟨hfirst, htail⟩ := List.cons.inj ht
    obtain ⟨hsecond, -⟩ := List.cons.inj htail
    subst hfirst hsecond
    exact h (List.prefix_append recordEnd.toList rest)

/-! ### Payloads that tell -/

/-- **A payload tells its change** among all changes with plain fields: no equals sign stands in a
name, and no end of a line inside of a field.  When the fields also stand apart from the end of a
record, it does so with anything behind it, so records in a row are told one by one: nothing that is
written in a document can add a field or a record, change one or hide one. -/
theorem payload_tells_change (c d : DocumentChange) (hc : ∀ f ∈ c.fields, IsPlainField f)
    (hd : ∀ f ∈ d.fields, IsPlainField f) :
    (c.encode = d.encode → c = d) ∧
      ((∀ f ∈ c.fields, StandsApart f) → (∀ f ∈ d.fields, StandsApart f) →
        ∀ rest rest' : String, c.encode ++ rest = d.encode ++ rest' → c = d ∧ rest = rest') := by
  constructor
  · intro h
    obtain ⟨hoperation, hbody⟩ := encode_eq_iff.mp h
    have hends : ∀ f : String × String, ¬fieldChars f <+: [] := fun f hf =>
      fieldChars_ne_nil f (List.prefix_nil.mp hf)
    have hall : body c.fields ++ [] = body d.fields ++ [] := by rw [hbody]
    obtain ⟨hfields, -⟩ := body_append_inj hc hd (fun f _ => hends f) (fun f _ => hends f) hall
    exact eq_of_parts hoperation hfields
  · intro hcApart hdApart rest rest' h
    have hchars := congrArg String.toList h
    rw [String.toList_append, String.toList_append, toList_encode, toList_encode,
      List.append_assoc, List.append_assoc, List.append_assoc, List.append_assoc] at hchars
    obtain ⟨hoperation, hlines⟩ := heading_append_inj hchars
    obtain ⟨hfields, hends⟩ := body_append_inj hc hd (fun f hf => (hdApart f hf).not_begins _)
      (fun f hf => (hcApart f hf).not_begins _) hlines
    exact ⟨eq_of_parts hoperation hfields, String.toList_inj.mp (List.append_cancel_left hends)⟩

/-- Values may hold equals signs, ends of records and the halves of an end of a line. -/
theorem payload_tells_change_with_separators :
    let c := add [("_id", "1\x1e\n"), ("sum", "a=b\x1f"), ("\n", "\n=\x1e\n")]
    let d := add [("_id", "1\x1e\n"), ("sum", "a=b"), ("\x1f\x1f", "\n=\x1e\n")]
    (∀ f ∈ c.fields, IsPlainField f ∧ StandsApart f) ∧
      (∀ f ∈ d.fields, IsPlainField f ∧ StandsApart f) ∧
      c.encode ≠ d.encode ∧ ∀ rest rest' : String, c.encode ++ rest ≠ d.encode ++ rest' := by
  intro c d
  have hc : ∀ f ∈ c.fields, IsPlainField f ∧ StandsApart f := by decide
  have hd : ∀ f ∈ d.fields, IsPlainField f ∧ StandsApart f := by decide
  have hne : c ≠ d := by decide
  obtain ⟨halone, hstream⟩ :=
    payload_tells_change c d (fun f hf => (hc f hf).1) fun f hf => (hd f hf).1
  refine ⟨hc, hd, mt halone hne, fun rest rest' h => hne ?_⟩
  exact (hstream (fun f hf => (hc f hf).2) (fun f hf => (hd f hf).2) rest rest' h).1

/-! ### Payloads of several changes -/

/-- An equals sign may belong to the name or to the value, an id may go on with a field of its own,
and it may end the record and begin another one. -/
theorem payload_of_two_changes :
    (add [("_id", "1"), ("a", "b=c")]).encode = (add [("_id", "1"), ("a=b", "c")]).encode ∧
      add [("_id", "1"), ("a", "b=c")] ≠ add [("_id", "1"), ("a=b", "c")] ∧
      (remove "9\x1f\n_id=10").encode = encode ⟨.delete, [("_id", "9"), ("_id", "10")]⟩ ∧
      remove "9\x1f\n_id=10" ≠ ⟨.delete, [("_id", "9"), ("_id", "10")]⟩ ∧
      (remove "9\x1f\n\x1e\nCMD=delete\x1f\n_id=10").encode =
        (remove "9").encode ++ (remove "10").encode := by
  decide

/-- Two fields may as well be one, whose value goes on with the second. -/
theorem body_merge (f g : String × String) (fs : List (String × String)) :
    body ((f.1, f.2 ++ fieldEnd ++ g.1 ++ "=" ++ g.2) :: fs) = body (f :: g :: fs) := by
  simp [body, fieldChars]

/-- An equals sign inside of a name may as well be the one behind the name. -/
theorem exists_shorter_name (hf : '=' ∈ f.1.toList) :
    ∃ g, g.1 ≠ f.1 ∧ fieldChars g = fieldChars f := by
  obtain ⟨before, after, hname⟩ := List.append_of_mem hf
  refine ⟨(String.ofList before, String.ofList (after ++ '=' :: f.2.toList)), fun h => ?_, ?_⟩
  · have hlength := congrArg (fun s => s.toList.length) h
    rw [hname] at hlength
    simp at hlength
  · simp [fieldChars, hname]

/-- The equals sign behind a name may as well be inside of it, if there is one more. -/
theorem exists_longer_name (hf : '=' ∈ f.2.toList) :
    ∃ g, g.1 ≠ f.1 ∧ fieldChars g = fieldChars f := by
  obtain ⟨before, after, hvalue⟩ := List.append_of_mem hf
  refine ⟨(String.ofList (f.1.toList ++ '=' :: before), String.ofList after), fun h => ?_, ?_⟩
  · have hlength := congrArg (fun s => s.toList.length) h
    simp at hlength
  · simp [fieldChars, hvalue]

/-- Each field has an equals sign. -/
theorem length_le_count_body (fs : List (String × String)) : fs.length ≤ (body fs).count '=' := by
  induction fs with
  | nil => exact Nat.le_refl _
  | cons f fs ih =>
      have hcons := body_cons f fs []
      rw [List.append_nil, List.append_nil] at hcons
      rw [hcons, fieldChars, List.length_cons]
      simp only [List.count_append, List.count_cons_self]
      omega

/-- **Hardly any payload is of one change only**: that of a change with no field at all, or with one
that has no equals sign of its own. -/
theorem payload_is_own_iff (c : DocumentChange) :
    (∀ d : DocumentChange, d.encode = c.encode → d = c) ↔
      c.fields = [] ∨ ∃ f, c.fields = [f] ∧ '=' ∉ f.1.toList ∧ '=' ∉ f.2.toList := by
  obtain ⟨operation, fields⟩ := c
  constructor
  · intro hown
    -- other fields with the same lines are another change with the same payload
    have hsame : ∀ gs, body gs = body fields → gs = fields := fun gs h =>
      congrArg DocumentChange.fields (hown ⟨operation, gs⟩ (encode_eq_iff.mpr ⟨rfl, h⟩))
    have hline : ∀ f, fields = [f] → ∀ g, fieldChars g = fieldChars f → g.1 = f.1 := by
      rintro f rfl g hg
      have hfields : [g] = [f] := hsame [g] (by simp [body, hg])
      rw [List.singleton_inj.mp hfields]
    rcases fields with _ | ⟨f, _ | ⟨g, rest⟩⟩
    · exact .inl rfl
    · refine .inr ⟨f, rfl, fun hname => ?_, fun hvalue => ?_⟩
      · obtain ⟨g, hne, hg⟩ := exists_shorter_name hname
        exact hne (hline f rfl g hg)
      · obtain ⟨g, hne, hg⟩ := exists_longer_name hvalue
        exact hne (hline f rfl g hg)
    · have hlength := congrArg List.length (hsame _ (body_merge f g rest))
      simp at hlength
  · rintro h ⟨operation', gs⟩ hd
    obtain ⟨hoperation, hbody⟩ := encode_eq_iff.mp hd
    refine eq_of_parts hoperation ?_
    change gs = fields
    change body gs = body fields at hbody
    have hcount := length_le_count_body gs
    rw [hbody] at hcount
    rcases h with hnil | ⟨f, hf, hname, hvalue⟩
    · obtain rfl : fields = [] := hnil
      exact List.length_eq_zero_iff.mp (Nat.le_zero.mp hcount)
    · obtain rfl : fields = [f] := hf
      have hone : (body [f]).count '=' = 1 := by
        simp [body, fieldChars, List.count_eq_zero.mpr hname, List.count_eq_zero.mpr hvalue,
          fieldEnd]
      rcases gs with _ | ⟨g, _ | ⟨g', rest⟩⟩
      · have hempty := congrArg (List.count '=') hbody
        rw [hone] at hempty
        cases hempty
      · have hline : fieldChars g = fieldChars f := by simpa [body] using hbody
        have hparts := (List.append_cons_inj_of_notMem hname hvalue).mp hline.symm
        rw [Prod.ext (String.toList_inj.mp hparts.1) (String.toList_inj.mp hparts.2.2)]
      · rw [hone] at hcount
        exact absurd hcount (by simp)

end ShardKeeper.DocumentChange
