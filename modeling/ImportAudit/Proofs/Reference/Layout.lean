/-
# ImportAudit.Proofs.Reference.Layout — where references stand.

The outline is placed by construction, and each reference is made by a leaf of it.  So references
never overlap and come in text order; each covers a literal from quote to quote, its text is what
stands in between, and its line and column are those of the opening quote.  This holds of whatever
outline lies over a text (`Reference.ofOutline_laidOut`, `Reference.ofOutline_pairwise`), and so of
the references of every source file.
-/
import ImportAudit.Proofs.Outline.Order
import ImportAudit.Proofs.Reference.Nodes
import ImportAudit.Proofs.Text.Position

namespace ImportAudit

open Outline Outline.Tree

/-! ## Literals that make references -/

namespace Outline

theorem Located.mem_of_callKind? {text : Array Char} {l : Located} {k : ImportKind}
    (h : l.callKind? text = some k) :
    k = .require ∨ k = .dynamicImport ∨ k = .importType := by
  unfold callKind? at h
  split at h
  · split at h
    · split at h
      · cases h
      · split at h
        · split at h <;> simp_all
        · split at h <;> simp_all
    · cases h
  · cases h

/-- A literal that names a module is a string, or a template that stands as an argument and
substitutes nothing. -/
theorem Located.literal_of_importKind? {text : Array Char} {l : Located} {k : ImportKind}
    (h : l.importKind? text = some k) :
    l.kind = .string ∨
      l.kind = .templateString ∧ (∀ t ∈ l.tree.children, t.kind ≠ .templateSubstitution) ∧
        (k = .require ∨ k = .dynamicImport ∨ k = .importType) := by
  unfold importKind? at h
  cases hk : l.kind <;> simp only [hk] at h <;> try cases h
  case string => exact .inl rfl
  case templateString =>
      split at h
      · cases h
      · next hsubs =>
        refine .inr ⟨rfl, ?_, mem_of_callKind? h⟩
        intro t ht heq
        exact hsubs (List.any_eq_true.2 ⟨t, ht, by simpa using heq⟩)

end Outline

namespace Reference

/-! ## One reference -/

/-- The reference is made by a template that substitutes nothing: the outline has a template on its
span that has no substitution, and the text between the backticks opens none. -/
structure OfPlainTemplate (text : Array Char) (outline : Tree) (r : Reference) : Prop where
  kind : r.kind = .require ∨ r.kind = .dynamicImport ∨ r.kind = .importType
  template : ∃ l ∈ outline.nodes, l.kind = .templateString ∧ l.tree.start = r.start ∧
    l.tree.stop = r.stop ∧ ∀ t ∈ l.tree.children, t.kind ≠ .templateSubstitution
  plain : Plain text (r.start + 1) (r.stop - 1)

/-- The reference covers a quoted literal of the text, and says of it what the text shows. -/
structure LaidOut (text : Array Char) (outline : Tree) (r : Reference) : Prop where
  room : r.start + 2 ≤ r.stop
  within : r.stop ≤ text.size
  quotes : ∃ q ∈ ['"', '\'', '`'], text[r.start]? = some q ∧ text[r.stop - 1]? = some q
  text_eq : r.text = String.ofList ((text.toList.take (r.stop - 1)).drop (r.start + 1))
  line_eq : r.line = 1 + (text.toList.take r.start).count '\n'
  column_eq : (r.column : Int) = r.start - Text.lastLineFeed text.toList r.start
  bytes : Text.charOffset text.toList (Text.byteOffset text.toList r.start) = r.start ∧
    Text.charOffset text.toList (Text.byteOffset text.toList r.stop) = r.stop
  template : text[r.start]? = some '`' → OfPlainTemplate text outline r

/-- What a node of a placed outline promises if it makes a reference: it has no children, it is
quoted, and with backticks it is a plain template. -/
theorem quoted_of_ofLocated? {text : Array Char} {outline : Tree} (hp : Placed text outline)
    {l : Located} (hl : l ∈ outline.nodes) {r : Reference} (h : ofLocated? text l = some r) :
    l.tree.children = [] ∧ (∃ q ∈ ['"', '\'', '`'], Quoted text q r.start r.stop) ∧
      (text[r.start]? = some '`' → OfPlainTemplate text outline r) := by
  obtain ⟨kind, hkind, rfl⟩ := Option.map_eq_some_iff.1 h
  have hplaced := (inside_of_mem_nodes hp hl).placed
  obtain ⟨⟨k, s, e, cs⟩, above⟩ := l
  simp only [Placed] at hplaced
  rcases Located.literal_of_importKind? hkind with hstring | ⟨htemplate, hnone, hforms⟩
  · obtain rfl : k = .string := hstring
    obtain ⟨hleaf, hquotes⟩ := hplaced.1
    -- a string has other quotes than backticks
    have hfirst : text[s]? = some '"' ∨ text[s]? = some '\'' :=
      hquotes.imp (fun h => h.2.1) (fun h => h.2.1)
    refine ⟨hleaf, ?_, ?_⟩
    · rcases hquotes with hq | hq
      · exact ⟨'"', by simp, hq⟩
      · exact ⟨'\'', by simp, hq⟩
    · intro hback
      change text[s]? = some '`' at hback
      rw [hback] at hfirst
      simp at hfirst
  · obtain rfl : k = .templateString := htemplate
    obtain ⟨hsubs, hquote, hplain⟩ := hplaced.1
    -- children of a template are substitutions, and there are none
    have hleaf : cs = [] := by
      rw [List.eq_nil_iff_forall_not_mem]
      intro t ht
      exact hnone t ht (hsubs t ht)
    exact ⟨hleaf, ⟨'`', by simp, hquote⟩,
      fun _ => ⟨hforms, ⟨_, hl, rfl, rfl, rfl, hnone⟩, hplain hleaf⟩⟩

theorem ofOutline_laidOut {text : Array Char} {kinds : List ImportKind} {outline : Tree}
    (hp : Placed text outline) {r : Reference} (hr : r ∈ ofOutline text kinds outline) :
    r.LaidOut text outline := by
  obtain ⟨l, hl, h⟩ := exists_located_of_mem hr
  obtain ⟨-, ⟨q, hq, hquoted⟩, htemplate⟩ := quoted_of_ofLocated? hp hl h
  have hstop : r.stop - 1 < text.size := by
    have hlast := hquoted.2.2
    rw [Array.getElem?_eq_some_iff] at hlast
    exact hlast.1
  have hroom := hquoted.1
  have hsize : text.toList.length = text.size := Array.length_toList
  obtain ⟨kind, -, hmade⟩ := Option.map_eq_some_iff.1 h
  refine
    { room := hroom
      within := by omega
      quotes := ⟨q, hq, hquoted.2⟩
      text_eq := ?_
      line_eq := ?_
      column_eq := ?_
      bytes := ?_
      template := htemplate }
  · subst hmade
    exact text_ofNode text _ kind l.tree
  · subst hmade
    exact Text.lineAndColumn_fst text.toList l.tree.start
  · subst hmade
    exact Text.lineAndColumn_snd text.toList l.tree.start
  · exact ⟨Text.charOffset_byteOffset (by omega), Text.charOffset_byteOffset (by omega)⟩

/-! ## References one after the other -/

/-- The reference ends before the other one begins, and its line and column come first. -/
structure Before (a b : Reference) : Prop where
  stop_le : a.stop ≤ b.start
  position_lt : a.line < b.line ∨ a.line = b.line ∧ a.column < b.column

theorem ofOutline_pairwise {text : Array Char} (kinds : List ImportKind) {outline : Tree}
    (hp : Placed text outline) : (ofOutline text kinds outline).Pairwise Before := by
  rw [ofOutline_eq_filter]
  refine List.Pairwise.filter _ ?_
  rw [List.pairwise_filterMap]
  refine List.Pairwise.imp_of_mem ?_ (pairwise_nodes hp)
  intro l l' hl _ hleaves r hr r' hr'
  obtain ⟨hleaf, ⟨q, -, hquoted⟩, -⟩ := quoted_of_ofLocated? hp hl hr
  have hroom := hquoted.1
  obtain ⟨kind, -, rfl⟩ := Option.map_eq_some_iff.1 hr
  obtain ⟨kind', -, rfl⟩ := Option.map_eq_some_iff.1 hr'
  -- a literal that makes a reference is a leaf, so it ends before the other one begins
  have hstop : l.tree.stop ≤ l'.tree.start := hleaves.stop_le hleaf
  change l.tree.start + 2 ≤ l.tree.stop at hroom
  exact ⟨hstop, Text.lineAndColumn_lt text.toList (by omega)⟩

end Reference

/-! ## Source files -/

-- a literal inside a substitution, behind a character of two bytes
example : (SourceFile.allReferences ⟨"a.ts", "f('é');\nf(`$\x7brequire(`x`)\x7d`, import('y'))"⟩).map
    (fun r => (r.text, r.start, r.stop, r.line, r.column)) =
    [("x", 21, 24, 2, 14), ("y", 36, 39, 2, 29)] := by decide +kernel

end ImportAudit
