/-
# ImportAudit.Proofs.Console.Literal — texts that are printed as they are.

A text is literal if no tag begins anywhere in it, no bracket in it is escaped and no character of it
is dropped.  Rendering a literal text returns it (`render_of_isLiteral`), so a paragraph of one is
never a fault, and on a console on which its lines have room it is the text with a line feed behind it
(`paragraph_of_fits`).  Texts in front of which nothing but plain characters stands are as literal as
they are alone (`isLiteral_append`).
-/
import ImportAudit.Console.Panel
import ImportAudit.Proofs.Console.Lines

namespace ImportAudit.Console

variable {cs : List Char} {text : String} {width : Nat}

/-! ## Literal texts -/

/-- The text is printed as it is. -/
def isLiteral : List Char → Bool
  | [] => true
  | c :: cs =>
    (tag? (c :: cs)).isNone && !(c == '\\' && cs.head? == some '[') && !isControl c && isLiteral cs

/-- The character has no part in a tag or an escape, and is printed. -/
def isPlain (c : Char) : Bool := c != '[' && c != '\\' && !isControl c

theorem isLiteral_cons_of_isPlain {c : Char} (h : isPlain c = true) (cs : List Char) :
    isLiteral (c :: cs) = isLiteral cs := by
  simp only [isPlain, Bool.and_eq_true, bne_iff_ne, Bool.not_eq_true'] at h
  obtain ⟨⟨hbracket, hslash⟩, hcontrol⟩ := h
  have htag : tag? (c :: cs) = none := by
    unfold tag?
    split
    · next heq =>
        cases heq
        exact absurd rfl hbracket
    · rfl
  rw [isLiteral, htag, hcontrol, beq_false_of_ne hslash]
  rfl

theorem isLiteral_append {front : List Char} (h : front.all isPlain = true) (cs : List Char) :
    isLiteral (front ++ cs) = isLiteral cs := by
  induction front with
  | nil => rfl
  | cons c front ih =>
      rw [List.all_cons, Bool.and_eq_true] at h
      rw [List.cons_append, isLiteral_cons_of_isPlain h.1, ih h.2]

theorem isLiteral_of_isPlain (h : cs.all isPlain = true) : isLiteral cs = true := by
  rw [← List.append_nil cs, isLiteral_append h]
  rfl

/-- What stands at the end of a literal text is literal. -/
theorem isLiteral_drop (h : isLiteral cs = true) (n : Nat) : isLiteral (cs.drop n) = true := by
  induction n generalizing cs with
  | zero => exact h
  | succ n ih =>
      cases cs with
      | nil => rfl
      | cons c cs =>
          rw [List.drop_succ_cons]
          simp only [isLiteral, Bool.and_eq_true] at h
          exact ih h.2

theorem tag?_of_isLiteral (h : isLiteral cs = true) : tag? cs = none := by
  cases cs with
  | nil => rfl
  | cons c cs =>
      simp only [isLiteral, Bool.and_eq_true, Option.isNone_iff_eq_none] at h
      exact h.1.1.1

/-! ## Rendering -/

theorem unescape_of_isLiteral (h : isLiteral cs = true) : unescape cs = cs := by
  induction cs with
  | nil => rfl
  | cons c cs ih =>
      simp only [isLiteral, Bool.and_eq_true, Bool.not_eq_true', Bool.and_eq_false_iff] at h
      obtain ⟨⟨⟨-, hescape⟩, hcontrol⟩, hcs⟩ := h
      unfold unescape
      split
      · next heq => cases heq
      · next heq =>
          cases heq
          simp at hescape
      · next heq =>
          cases heq
          rw [hcontrol, ih hcs]
          rfl

/-- Without a tag, all that is left is one chunk. -/
theorem renderFrom_of_isLiteral (fuel position : Nat) (chunk : List Char) (open_ : List String)
    (hfuel : cs.length < fuel) (h : isLiteral cs = true) :
    renderFrom fuel position chunk open_ cs = .ok (unescape (chunk.reverse ++ cs)) := by
  induction fuel generalizing position chunk cs with
  | zero => omega
  | succ fuel ih =>
      cases cs with
      | nil => rw [renderFrom, List.append_nil]
      | cons c cs =>
          rw [renderFrom, tag?_of_isLiteral (isLiteral_drop h _)]
          dsimp only
          rw [ih _ _ ?_ (isLiteral_drop h _)]
          · rw [List.reverse_append, List.reverse_reverse, List.append_assoc,
              List.take_append_drop]
          · rw [List.length_drop]
            simp only [List.length_cons] at hfuel ⊢
            omega

/-- A literal text has no tags to be taken out, and no fault. -/
theorem render_of_isLiteral (h : isLiteral text.toList = true) : render text = .ok text.toList := by
  unfold render
  dsimp only
  rw [renderFrom_of_isLiteral _ _ _ _ (Nat.lt_succ_self _) h, List.reverse_nil, List.nil_append,
    unescape_of_isLiteral h]

/-! ## Paragraphs -/

theorem paragraph_of_isLiteral (h : isLiteral text.toList = true) (width : Nat) :
    paragraph width text = .ok (joinLines (wrap width .fold text.toList)) := by
  rw [paragraph, render_of_isLiteral h]

/-- A literal text whose lines have room is printed with a line feed behind it. -/
theorem paragraph_of_fits (h : isLiteral text.toList = true)
    (hfits : ∀ line ∈ Text.splitOn '\n' text.toList, FitsIn width line) :
    paragraph width text = .ok (text ++ "\n") := by
  rw [paragraph_of_isLiteral h, wrap_of_fits hfits, joinLines_splitOn, String.ofList_append,
    String.ofList_toList]

/-- A literal text without line feeds and tabs is printed on one line where there is room for two
cells for each of its characters, because none takes more. -/
theorem paragraph_of_short (h : isLiteral text.toList = true) (hbreak : '\n' ∉ text.toList)
    (htab : '\t' ∉ text.toList) (hroom : 2 * text.toList.length ≤ width) :
    paragraph width text = .ok (text ++ "\n") := by
  refine paragraph_of_fits h ?_
  have hcells := cells_le text.toList
  rw [splitOn_of_notMem hbreak, List.forall_mem_singleton]
  exact ⟨by omega, htab, .inl (by omega)⟩

end ImportAudit.Console
