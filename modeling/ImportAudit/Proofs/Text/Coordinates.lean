/-
# ImportAudit.Proofs.Text.Coordinates — bytes, characters, lines and columns of one text.

The same place in a text has an offset in bytes, one in characters, and a line with a column.  The
bytes before a character are those of the text that ends there, and they lead back to the character
(`decode_take_encode`).  A line and a column lead back through the table of line starts
(`IsPlace.offset_eq`), and from one character to the next the column grows by one, unless the
character is a line feed, behind which the next line begins (`place_succ`).
-/
import ImportAudit.Proofs.Text.Position
import ImportAudit.Proofs.Text.Utf8
import Mathlib.Data.Prod.Lex

namespace ImportAudit.Text

variable {text : List Char} {i j : Nat}

/-! ## Bytes -/

theorem encode_ofList (cs : List Char) :
    Utf8.encode (String.ofList cs) = cs.flatMap String.utf8EncodeChar := by
  rw [Utf8.encode_eq_flatMap, String.toList_ofList]

/-- The offset in bytes is how many bytes the text before it has. -/
theorem length_encode_take (text : List Char) (i : Nat) :
    (Utf8.encode (String.ofList (text.take i))).length = byteOffset text i := by
  rw [encode_ofList]
  induction text generalizing i with
  | nil => rw [List.take_nil, byteOffset]; rfl
  | cons c cs ih =>
      cases i with
      | zero => rfl
      | succ i =>
          rw [List.take_succ_cons, List.flatMap_cons, List.length_append,
            String.length_utf8EncodeChar, ih i, byteOffset]

/-- The bytes of a text up to a character are read as the text up to the character. -/
theorem decode_take_encode (text : List Char) (i : Nat) :
    Utf8.decode ((Utf8.encode (String.ofList text)).take (byteOffset text i)) =
      .ok (text.take i) := by
  have hsplit : Utf8.encode (String.ofList text) =
      Utf8.encode (String.ofList (text.take i)) ++ Utf8.encode (String.ofList (text.drop i)) := by
    rw [encode_ofList, encode_ofList, encode_ofList, ← List.flatMap_append,
      List.take_append_drop]
  rw [hsplit, ← length_encode_take, List.take_left, Utf8.decode_encode, String.toList_ofList]

/-! ## Lines and columns -/

/-- The line and the column of an offset of a text. -/
def place (text : List Char) (offset : Nat) : Nat × Nat :=
  lineAndColumn (lineStarts text).toArray offset

/-- The line and the column lead to the offset: the line is one of the text, and the column counts
from where the table says that the line starts. -/
structure IsPlace (text : List Char) (offset : Nat) (p : Nat × Nat) : Prop where
  one_le_line : 1 ≤ p.1
  line_le : p.1 ≤ text.count '\n' + 1
  one_le_column : 1 ≤ p.2
  reaches : ∃ start, (lineStarts text)[p.1 - 1]? = some start ∧ start + p.2 - 1 = offset

theorem isPlace_place (text : List Char) (i : Nat) : IsPlace text i (place text i) := by
  have hline : (place text i).1 = 1 + (text.take i).count '\n' := lineAndColumn_fst text i
  have hcolumn : ((place text i).2 : Int) = i - lastLineFeed text i := lineAndColumn_snd text i
  have hcount : (text.take i).count '\n' ≤ text.count '\n' :=
    (List.take_sublist i text).count_le '\n'
  have hbefore := lastLineFeed_lt text i
  refine ⟨by omega, by omega, by omega, ?_⟩
  obtain ⟨start, hstart, hval⟩ := Option.map_eq_some_iff.mp (lineStarts_getElem? text i)
  have hentry : (place text i).1 - 1 = (text.take i).count '\n' := by omega
  exact ⟨start, by rw [hentry, hstart], by omega⟩

/-- A line and a column lead to one offset. -/
theorem IsPlace.offset_eq {p : Nat × Nat} (hi : IsPlace text i p) (hj : IsPlace text j p) :
    i = j := by
  obtain ⟨start, hstart, rfl⟩ := hi.reaches
  obtain ⟨start', hstart', rfl⟩ := hj.reaches
  rw [hstart] at hstart'
  rw [Option.some.inj hstart']

/-- The place of the next character, which is at the start of a line just behind a line feed. -/
theorem place_succ (text : List Char) (i : Nat) :
    place text (i + 1) =
      if text[i]? = some '\n' then ((place text i).1 + 1, 1)
      else ((place text i).1, (place text i).2 + 1) := by
  have hline : ∀ k, (place text k).1 = 1 + (text.take k).count '\n' := lineAndColumn_fst text
  have hcolumn : ∀ k : Nat, ((place text k).2 : Int) = k - lastLineFeed text k :=
    lineAndColumn_snd text
  have hnext := hline (i + 1)
  have hnext' := hcolumn (i + 1)
  rw [count_take_succ] at hnext
  rw [lastLineFeed] at hnext'
  have hhere := hline i
  have hhere' := hcolumn i
  split
  · next hfeed =>
      rw [if_pos hfeed] at hnext hnext'
      exact Prod.ext (by dsimp only; omega) (by dsimp only; omega)
  · next hother =>
      rw [if_neg hother] at hnext hnext'
      exact Prod.ext (by dsimp only; omega) (by dsimp only; omega)

/-- The three ways to tell a place in a text lead to one another: as many bytes as the characters
before it have are read as these characters, so that counting them gives back its offset; its line
and column lead to it, and to no other place; they grow with the offset in lexicographic order; and
the next character is one column further, or behind a line feed at the start of the next line. -/
theorem coordinates_agree (hi : i ≤ text.length) :
    (Utf8.encode (String.ofList (text.take i))).length = byteOffset text i ∧
      Utf8.decode ((Utf8.encode (String.ofList text)).take (byteOffset text i)) =
        .ok (text.take i) ∧
      charOffset text (byteOffset text i) = i ∧
      IsPlace text i (place text i) ∧
      (∀ j ≤ text.length, place text j = place text i → j = i) ∧
      (∀ j ≤ text.length, i < j → Prod.Lex (· < ·) (· < ·) (place text i) (place text j)) ∧
      (i < text.length → place text (i + 1) =
        if text[i]? = some '\n' then ((place text i).1 + 1, 1)
        else ((place text i).1, (place text i).2 + 1)) := by
  refine ⟨length_encode_take text i, decode_take_encode text i, charOffset_byteOffset hi,
    isPlace_place text i, ?_, ?_, fun _ => place_succ text i⟩
  · intro j _ hsame
    have hj := isPlace_place text j
    rw [hsame] at hj
    exact hj.offset_eq (isPlace_place text i)
  · intro j _ hlt
    exact Prod.lex_def.mpr (lineAndColumn_lt text hlt)

/-- In a text with characters of one to four bytes, the place between two line feeds. -/
theorem coordinates_agree_betweenFeeds :
    3 ≤ "aé\n\n€😀".toList.length ∧
      (Utf8.encode (String.ofList ("aé\n\n€😀".toList.take 3))).length = 4 ∧
      charOffset "aé\n\n€😀".toList 4 = 3 ∧
      place "aé\n\n€😀".toList 3 = (2, 1) ∧ place "aé\n\n€😀".toList 4 = (3, 1) := by
  have hi : 3 ≤ "aé\n\n€😀".toList.length := by decide +kernel
  have hbytes : byteOffset "aé\n\n€😀".toList 3 = 4 := by decide +kernel
  have hplace : place "aé\n\n€😀".toList 3 = (2, 1) := by decide +kernel
  obtain ⟨hlength, -, hchars, -, -, -, hnext⟩ := coordinates_agree hi
  rw [hbytes] at hlength hchars
  refine ⟨hi, hlength, hchars, hplace, ?_⟩
  rw [hnext (by decide +kernel), if_pos (by decide +kernel), hplace]

end ImportAudit.Text
