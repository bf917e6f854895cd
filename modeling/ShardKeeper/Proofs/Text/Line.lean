import Mathlib.Data.List.Basic
import Mathlib.Data.List.TakeWhile
import ShardKeeper.Proofs.Text.Decimal
import ShardKeeper.Text.Blank

/-!
# Texts that stand on a line

A text without control characters cannot break a line, and one that neither begins
nor ends with a blank is still there when the blanks around it are cut away.

## Main definitions

* `Text.IsVisible` — a text without control characters.
* `Text.FillsLine` — such a text with no blank at either end.

## Main results

* `Utf8.le_of_mem_encode` — the bytes of a text without control characters are no
  control characters.
* `Utf8.decode?_append_lineFeed` — a line is a text exactly when it is one without its line feed.
* `Text.trim_append_blanks` — what fills a line is what is left of the line.
* `Text.trim_eq_nil_iff` — nothing is left of a line only when all of it is blank.
-/

namespace ShardKeeper

namespace Text

variable {text : List Char}

/-- A text without control characters. -/
def IsVisible (text : List Char) : Prop := ∀ c ∈ text, 0x20 ≤ c.toNat

instance (text : List Char) : Decidable (IsVisible text) :=
  List.decidableBAll (fun c : Char => 0x20 ≤ c.toNat) text

/-- A character that is neither a control character nor a blank. -/
def isMark (c : Char) : Bool := decide (0x20 ≤ c.toNat) && !isBlank c

theorem isMark_iff {c : Char} : isMark c = true ↔ 0x20 ≤ c.toNat ∧ isBlank c = false := by
  rw [isMark, Bool.and_eq_true, decide_eq_true_eq, Bool.not_eq_true']

/-- A text without control characters that neither begins nor ends with a blank. -/
structure FillsLine (text : List Char) : Prop where
  visible : IsVisible text
  first : ∃ c ∈ text.head?, isBlank c = false
  last : ∃ c ∈ text.getLast?, isBlank c = false

theorem IsVisible.append {s t : List Char} (hs : IsVisible s) (ht : IsVisible t) :
    IsVisible (s ++ t) := fun c hc => (List.mem_append.mp hc).elim (hs c) (ht c)

theorem IsVisible.cons {c : Char} (hc : 0x20 ≤ c.toNat) (ht : IsVisible text) :
    IsVisible (c :: text) := fun d hd => (List.mem_cons.mp hd).elim (· ▸ hc) (ht d)

theorem FillsLine.ne_nil (h : FillsLine text) : text ≠ [] := by
  rintro rfl
  obtain ⟨c, hc, -⟩ := h.first
  cases hc

/-- A text between two marks fills a line. -/
theorem fillsLine_between {first last : Char} (hfirst : isMark first = true)
    (hlast : isMark last = true) (h : IsVisible text) : FillsLine (first :: text ++ [last]) where
  visible := .append (.cons (isMark_iff.mp hfirst).1 h)
    (.cons (isMark_iff.mp hlast).1 fun c hc => absurd hc List.not_mem_nil)
  first := ⟨first, rfl, (isMark_iff.mp hfirst).2⟩
  last := ⟨last, by rw [List.getLast?_append]; rfl, (isMark_iff.mp hlast).2⟩

/-- A text of marks fills a line, if it has any. -/
theorem fillsLine_of_all (hne : text ≠ []) (h : text.all isMark = true) : FillsLine text := by
  have hmark := fun c hc => isMark_iff.mp (List.all_eq_true.mp h c hc)
  exact {
    visible := fun c hc => (hmark c hc).1
    first := ⟨text.head hne, List.head?_eq_some_head hne, (hmark _ (List.head_mem hne)).2⟩
    last := ⟨text.getLast hne, List.getLast?_eq_some_getLast hne,
      (hmark _ (List.getLast_mem hne)).2⟩ }

theorem dropWhile_isBlank (h : ∃ c ∈ text.head?, isBlank c = false) (rest : List Char) :
    (text ++ rest).dropWhile isBlank = text ++ rest := by
  obtain ⟨c, hc, hblank⟩ := h
  cases text with
  | nil => cases hc
  | cons d text =>
      obtain rfl : d = c := Option.some.inj hc
      exact List.dropWhile_cons_of_neg (Bool.eq_false_iff.mp hblank)

/-- **What fills a line is what is left of the line** when blanks are cut away behind it. -/
theorem trim_append_blanks (h : FillsLine text) {blanks : List Char}
    (hblanks : blanks.all isBlank = true) : trim (text ++ blanks) = text := by
  have hreverse : ∃ c ∈ text.reverse.head?, isBlank c = false := by
    rw [List.head?_reverse]
    exact h.last
  have hback := dropWhile_isBlank hreverse []
  rw [List.append_nil] at hback
  rw [trim, dropWhile_isBlank h.first, List.reverse_append, List.dropWhile_append_of_pos, hback,
    List.reverse_reverse]
  exact fun c hc => List.all_eq_true.mp hblanks c (List.mem_reverse.mp hc)

/-- A blank behind a text is cut away. -/
theorem trim_concat_blank (text : List Char) {c : Char} (hc : isBlank c = true) :
    trim (text ++ [c]) = trim text := by
  rw [trim, trim, List.dropWhile_append]
  split
  · rename_i hblank
    rw [List.isEmpty_iff.mp hblank, List.dropWhile_cons_of_pos hc]
    rfl
  · rw [List.reverse_append, List.reverse_singleton, List.singleton_append,
      List.dropWhile_cons_of_pos hc]

/-- Nothing is left of a text only when all of it is blank. -/
theorem trim_eq_nil_iff : trim text = [] ↔ ∀ c ∈ text, isBlank c = true := by
  rw [trim, List.reverse_eq_nil_iff, List.dropWhile_eq_nil_iff]
  constructor
  · intro h
    -- what the front was cut from begins with no blank, so nothing was left of it
    have hfront : text.dropWhile isBlank = [] := by
      by_contra hne
      have hfirst := List.head_dropWhile_not isBlank hne
      rw [h _ (List.mem_reverse.mpr (List.head_mem hne))] at hfirst
      cases hfirst
    exact List.dropWhile_eq_nil_iff.mp hfront
  · intro h c hc
    exact h c ((List.dropWhile_sublist isBlank).subset (List.mem_reverse.mp hc))

end Text

/-! ### Bytes of a text -/

namespace Utf8

variable {b : UInt8} {c : Char} {text : List Char}

/-- The bytes of a character: its own number for ASCII, bytes outside of ASCII for any other. -/
theorem mem_utf8EncodeChar (h : b ∈ String.utf8EncodeChar c) :
    (c.toNat < 128 ∧ b.toNat = c.toNat) ∨ (128 ≤ c.toNat ∧ 128 ≤ b.toNat) := by
  have hbyte : ∀ n : Nat, (UInt8.ofNat n).toNat = n % 256 := fun n => rfl
  have hvalue : c.toNat = c.val.toNat := rfl
  rw [String.utf8EncodeChar] at h
  split at h
  · rename_i hascii
    obtain rfl := List.mem_singleton.mp h
    rw [hbyte]
    omega
  · refine Or.inr ⟨by omega, ?_⟩
    -- two, three or four bytes, each with its highest bit set
    split at h
    · rename_i htwo
      simp only [List.mem_cons, List.not_mem_nil, or_false] at h
      rcases h with rfl | rfl <;> rw [hbyte] <;> omega
    · split at h
      · simp only [List.mem_cons, List.not_mem_nil, or_false] at h
        rcases h with rfl | rfl | rfl <;> rw [hbyte] <;> omega
      · simp only [List.mem_cons, List.not_mem_nil, or_false] at h
        rcases h with rfl | rfl | rfl | rfl <;> rw [hbyte] <;> omega

/-- **The bytes of a text without control characters are no control characters.** -/
theorem le_of_mem_encode (h : Text.IsVisible text) (hb : b ∈ encode text) : 0x20 ≤ b.toNat := by
  obtain ⟨c, hc, hb⟩ := List.mem_flatMap.mp hb
  have hvisible := h c hc
  rcases mem_utf8EncodeChar hb with ⟨-, hsame⟩ | ⟨-, hlarge⟩
  · omega
  · omega

/-- Bytes spell a text exactly when they are the bytes of it. -/
theorem decode?_eq_some_iff {bytes : Bytes} : decode? bytes = some text ↔ bytes = encode text := by
  refine ⟨fun h => ?_, fun h => h ▸ decode?_encode text⟩
  obtain ⟨chars, hchars, rfl⟩ := Option.map_eq_some_iff.mp h
  have hbytes := ByteArray.utf8Encode_get_utf8Decode? (h := Option.isSome_of_eq_some hchars)
  rw [Option.get_of_eq_some _ hchars] at hbytes
  -- the array of some bytes determines them
  have hlist : (encode chars.toList).toByteArray.data.toList = bytes.toByteArray.data.toList :=
    congrArg (fun array : ByteArray => array.data.toList) hbytes
  rw [List.toList_data_toByteArray, List.toList_data_toByteArray] at hlist
  exact hlist.symm

/-- Only a line feed has the byte of a line feed, and it has no other. -/
theorem eq_lineFeed_of_mem (h : (0x0A : UInt8) ∈ String.utf8EncodeChar c) : c = '\n' := by
  have hbyte : (0x0A : UInt8).toNat = 10 := rfl
  rcases mem_utf8EncodeChar h with ⟨-, hsame⟩ | ⟨-, hlarge⟩
  · rw [hbyte] at hsame
    rw [← Char.ofNat_toNat c, ← hsame]
  · rw [hbyte] at hlarge
    exact absurd hlarge (by decide)

/-- A line feed behind some bytes spells a line feed, whether the bytes spell a text or not. -/
theorem decode?_append_lineFeed (bytes : Bytes) :
    decode? (bytes ++ [0x0A]) = (decode? bytes).map (· ++ ['\n']) := by
  have hlineFeed : encode ['\n'] = [0x0A] := rfl
  cases h : decode? bytes with
  | some text =>
      rw [decode?_eq_some_iff.mp h, ← hlineFeed, ← encode_append, decode?_encode]
      rfl
  | none =>
      rw [Option.map_none, Option.eq_none_iff_forall_ne_some]
      intro text htext
      have hbytes := decode?_eq_some_iff.mp htext
      rcases List.eq_nil_or_concat text with rfl | ⟨front, c, rfl⟩
      · exact List.append_ne_nil_of_right_ne_nil bytes (List.cons_ne_nil _ _) hbytes
      · -- the last byte of the text belongs to its last character
        rw [List.concat_eq_append, encode_append] at hbytes
        have hc : encode [c] = String.utf8EncodeChar c := List.append_nil _
        have hlast := congrArg List.getLast? hbytes
        rw [List.getLast?_concat, hc, List.getLast?_append_of_ne_nil _ String.utf8EncodeChar_ne_nil]
          at hlast
        obtain rfl := eq_lineFeed_of_mem (List.mem_of_getLast? hlast.symm)
        rw [hlineFeed] at hbytes
        rw [List.append_cancel_right hbytes, decode?_encode] at h
        cases h

/-- A text without control characters cannot break a line. -/
theorem lineFeed_notMem_encode (h : Text.IsVisible text) : (0x0A : UInt8) ∉ encode text :=
  fun hb => absurd (le_of_mem_encode h hb) (by decide)

end Utf8

end ShardKeeper
