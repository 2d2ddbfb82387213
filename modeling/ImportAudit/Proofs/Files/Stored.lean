/-
# ImportAudit.Proofs.Files.Stored — the forms in which a text may be stored.

A text may be stored behind a mark or without one, and its lines may end in one of three ways.  A
source file and a manifest are read as the same text whichever of these forms it is stored in
(`textOf_store`, `ofBytes_store`), unless the text begins with a mark itself or has a carriage
return in it.  Of several marks one is no part of the text, and no bytes are refused
(`textOf_marked`).
-/
import ImportAudit.Files.Source
import ImportAudit.Proofs.Text.Utf8

namespace ImportAudit

namespace Text.Utf8

/-! ## Repairing -/

/-- As many steps as there are bytes are enough. -/
theorem repairFrom_eq {fuel fuel' : Nat} {bytes : List UInt8} (h : bytes.length ≤ fuel)
    (h' : bytes.length ≤ fuel') : repairFrom fuel bytes = repairFrom fuel' bytes := by
  induction fuel generalizing fuel' bytes with
  | zero =>
      obtain rfl := List.eq_nil_of_length_eq_zero (Nat.le_zero.mp h)
      cases fuel' <;> rfl
  | succ fuel ih =>
      cases bytes with
      | nil => cases fuel' <;> rfl
      | cons b bs =>
          cases fuel' with
          | zero => cases h'
          | succ fuel' =>
              have hrest : ∀ more, repairFrom fuel (bs.drop more) =
                  repairFrom fuel' (bs.drop more) := by
                intro more
                apply ih <;> simp only [List.length_cons, List.length_drop] at h h' ⊢ <;> omega
              simp only [repairFrom, hrest]

/-- A character is read as it was stored, whatever stands behind it. -/
theorem repair_encodeChar (c : Char) (rest : List UInt8) :
    repair (String.utf8EncodeChar c ++ rest) = c :: repair rest := by
  obtain ⟨b, bs, hc, hfirst⟩ := decodeFirst_encodeChar c rest
  rw [hc, List.cons_append, repair, List.length_cons, repairFrom, hfirst]
  dsimp only
  rw [List.drop_left]
  refine congrArg (c :: ·) (repairFrom_eq ?_ (Nat.le_refl _))
  rw [List.length_append]
  omega

/-- Characters are read as they were stored, whatever stands behind them. -/
theorem repair_append (cs : List Char) (rest : List UInt8) :
    repair (encode (String.ofList cs) ++ rest) = cs ++ repair rest := by
  rw [encode_eq_flatMap, String.toList_ofList]
  induction cs with
  | nil => rfl
  | cons c cs ih =>
      rw [List.flatMap_cons, List.append_assoc, repair_encodeChar, ih, List.cons_append]

/-! ## Line ends -/

/-- How a line may end. -/
inductive LineEnd
  | lineFeed
  | carriageReturn
  | both
  deriving DecidableEq, Repr

/-- The characters that end a line. -/
def LineEnd.chars : LineEnd → List Char
  | .lineFeed => ['\n']
  | .carriageReturn => ['\r']
  | .both => ['\r', '\n']

/-- A text with each of its lines ended in this way. -/
def withLineEnds (e : LineEnd) (cs : List Char) : List Char :=
  cs.flatMap fun c => if c = '\n' then e.chars else [c]

/-- A carriage return that no line feed follows ends a line by itself. -/
theorem unifyLines_return {cs : List Char} (h : cs.head? ≠ some '\n') :
    unifyLines ('\r' :: cs) = '\n' :: unifyLines cs := by
  conv_lhs => unfold unifyLines
  split
  · next heq => cases heq
  · next heq =>
      obtain rfl := (List.cons.inj heq).2
      exact absurd rfl h
  · next heq => rw [(List.cons.inj heq).2]
  · next hreturn heq => exact (hreturn (List.cons.inj heq).1.symm).elim

/-- Lines that end in carriage returns have no line feed in them. -/
theorem notMem_withReturns (cs : List Char) : '\n' ∉ withLineEnds .carriageReturn cs := by
  intro hmem
  obtain ⟨c, -, hc⟩ := List.mem_flatMap.mp hmem
  split at hc
  · exact absurd hc (by decide)
  · next hne => exact hne (List.mem_singleton.mp hc).symm

/-- In whatever way its lines end, a text is read with line feeds. -/
theorem unifyLines_withLineEnds (e : LineEnd) {cs : List Char} (h : '\r' ∉ cs) :
    unifyLines (withLineEnds e cs) = cs := by
  induction cs with
  | nil => rfl
  | cons c cs ih =>
      rw [List.mem_cons, not_or] at h
      have hrest := ih h.2
      have hcons : withLineEnds e (c :: cs) =
          (if c = '\n' then e.chars else [c]) ++ withLineEnds e cs := List.flatMap_cons
      rw [hcons]
      split
      · next hc =>
          subst hc
          cases e with
          | lineFeed =>
              show unifyLines ('\n' :: withLineEnds .lineFeed cs) = _
              rw [unifyLines_cons (by decide), hrest]
          | carriageReturn =>
              show unifyLines ('\r' :: withLineEnds .carriageReturn cs) = _
              have hhead : (withLineEnds .carriageReturn cs).head? ≠ some '\n' := by
                intro hhead
                exact notMem_withReturns cs (List.mem_of_mem_head? hhead)
              rw [unifyLines_return hhead, hrest]
          | both =>
              show '\n' :: unifyLines (withLineEnds .both cs) = _
              rw [hrest]
      · rw [List.singleton_append, unifyLines_cons (Ne.symm h.1), hrest]

end Text.Utf8

namespace Manifest

open Text.Utf8 (LineEnd encode decode repair unifyLines unifyLines_cons withLineEnds
  unifyLines_withLineEnds decode_encode repair_append)

/-! ## Forms -/

/-- A form in which a text may be stored: behind a mark or without one, and with its lines ended in
one of three ways. -/
structure Form where
  marked : Bool
  lineEnd : LineEnd

/-- The characters that a text is stored as in a form. -/
def Form.chars (form : Form) (text : String) : List Char :=
  (if form.marked then [byteOrderMark] else []) ++ withLineEnds form.lineEnd text.toList

/-- The bytes that a text is stored as in a form. -/
def Form.store (form : Form) (text : String) : List UInt8 :=
  encode (String.ofList (form.chars text))

/-- The text has no carriage return and does not begin with a mark. -/
structure IsUniform (text : String) : Prop where
  noReturn : '\r' ∉ text.toList
  unmarked : text.toList.head? ≠ some byteOrderMark

theorem withoutMark_of_unmarked {cs : List Char} (h : cs.head? ≠ some byteOrderMark) :
    withoutMark cs = cs := by
  cases cs with
  | nil => rfl
  | cons c cs =>
      rw [List.head?_cons, ne_eq, Option.some.injEq] at h
      rw [withoutMark, if_neg h]

/-- Without the mark, and with line feeds, every form is the text. -/
theorem withoutMark_chars {text : String} (h : IsUniform text) (form : Form) :
    withoutMark (unifyLines (form.chars text)) = text.toList := by
  have hlines := unifyLines_withLineEnds form.lineEnd h.noReturn
  unfold Form.chars
  split
  · rw [List.singleton_append, unifyLines_cons (by decide), hlines, withoutMark, if_pos rfl]
  · rw [List.nil_append, hlines, withoutMark_of_unmarked h.unmarked]

/-- A manifest is read as the same text in every form. -/
theorem ofBytes_store {text : String} (h : IsUniform text) (path : String) (form : Form) :
    ofBytes path (form.store text) = ofText (some path) text.toList := by
  have hstored := withoutMark_chars h form
  have hplain := withoutMark_of_unmarked h.unmarked
  rw [ofBytes, Form.store, decode_encode, String.toList_ofList]
  dsimp only
  rw [ofText, ofText, hstored, hplain]

end Manifest

namespace SourceFile

open Manifest Text.Utf8

/-- A source file is read as the same text in every form. -/
theorem textOf_store {text : String} (h : IsUniform text) (form : Form) :
    textOf (form.store text) = text.toList := by
  have hrepair := repair_append (form.chars text) []
  rw [List.append_nil] at hrepair
  rw [textOf, Form.store, hrepair]
  show withoutMark (unifyLines (form.chars text ++ [])) = _
  rw [List.append_nil, withoutMark_chars h]

/-- Behind one mark the text is what the bytes say, also if they begin with a mark themselves. -/
theorem textOf_marked (bytes : List UInt8) :
    textOf (encode (String.ofList [byteOrderMark]) ++ bytes) = unifyLines (repair bytes) := by
  rw [textOf, repair_append, List.singleton_append, unifyLines_cons (by decide), withoutMark,
    if_pos rfl]

end SourceFile

end ImportAudit
