/-
# ImportAudit.Outline.Tree — the outline of a script as a tree of spans.

A node has a kind, the span of text it covers and its children.  `Tree.Placed` says that a tree
lies over a text as an outline should: children follow one another without overlap inside their
parent, each literal runs from its quote to the same quote, and nothing lies below a name, a number,
a regular expression or a comment.  `Tree.Behind` is the same
statement for a list of finished siblings with the newest first, the form in which they come about
while a script is being read; `placedAll_reverse` turns the one into the other.
-/
import ImportAudit.Outline.Kind

namespace ImportAudit.Outline

/-- A node: its kind, the offsets of its first character and past its last one, its children. -/
inductive Tree
  | node (kind : Kind) (start stop : Nat) (children : List Tree)

namespace Tree

/-- The kind of the root. -/
def kind : Tree → Kind
  | .node k _ _ _ => k

/-- The offset of the first character. -/
def start : Tree → Nat
  | .node _ s _ _ => s

/-- The offset past the last character. -/
def stop : Tree → Nat
  | .node _ _ e _ => e

/-- The children, in text order. -/
def children : Tree → List Tree
  | .node _ _ _ cs => cs

@[simp] theorem kind_node (k s e cs) : (node k s e cs).kind = k := rfl
@[simp] theorem start_node (k s e cs) : (node k s e cs).start = s := rfl
@[simp] theorem stop_node (k s e cs) : (node k s e cs).stop = e := rfl
@[simp] theorem children_node (k s e cs) : (node k s e cs).children = cs := rfl

/-! ## Comparing trees -/

mutual

/-- Whether two trees are equal. -/
def decEq : (t u : Tree) → Decidable (t = u)
  | .node k s e cs, .node k' s' e' cs' =>
    match decEqAll cs cs' with
    | isFalse h => isFalse fun heq => h (node.inj heq).2.2.2
    | isTrue h =>
      if hk : k = k' then
        if hs : s = s' then
          if he : e = e' then isTrue (by rw [hk, hs, he, h])
          else isFalse fun heq => he (node.inj heq).2.2.1
        else isFalse fun heq => hs (node.inj heq).2.1
      else isFalse fun heq => hk (node.inj heq).1

/-- Whether two lists of trees are equal. -/
def decEqAll : (ts us : List Tree) → Decidable (ts = us)
  | [], [] => isTrue rfl
  | [], _ :: _ => isFalse nofun
  | _ :: _, [] => isFalse nofun
  | t :: ts, u :: us =>
    match decEq t u, decEqAll ts us with
    | isTrue h, isTrue h' => isTrue (by rw [h, h'])
    | isFalse h, _ => isFalse fun heq => h (List.cons.inj heq).1
    | _, isFalse h => isFalse fun heq => h (List.cons.inj heq).2

end

instance : DecidableEq Tree := decEq

/-! ## Trees that lie over a text -/

/-- The span from `start` to `stop` begins and ends with the quote `q`, and the two are distinct
characters of the text. -/
def Quoted (text : Array Char) (q : Char) (start stop : Nat) : Prop :=
  start + 2 ≤ stop ∧ text[start]? = some q ∧ text[stop - 1]? = some q

/-- From `lo` on, up to some offset, the text has no backtick and opens no substitution, unless
behind a backslash. -/
inductive Plain (text : Array Char) (lo : Nat) : Nat → Prop
  | empty : Plain text lo lo
  | char {i : Nat} {c : Char} : Plain text lo i → text[i]? = some c → c ≠ '`' → c ≠ '\\' →
      ¬(c = '$' ∧ text[i + 1]? = some '{') → Plain text lo (i + 1)
  | escape {i : Nat} : Plain text lo i → text[i]? = some '\\' → Plain text lo (i + 2)

/-- What a token promises of its span and children: a string is quoted and has no child; a template
is quoted by backticks, has only substitutions as children, and is plain if it has none; a bare token
has no child. -/
def TokenShape (text : Array Char) (start stop : Nat) (children : List Tree) : Kind → Prop
  | .string => children = [] ∧ (Quoted text '"' start stop ∨ Quoted text '\'' start stop)
  | .templateString =>
      (∀ c ∈ children, c.kind = .templateSubstitution) ∧ Quoted text '`' start stop ∧
        (children = [] → Plain text (start + 1) (stop - 1))
  | k => k.isBare = true → children = []

theorem tokenShape_of_not_isToken {text : Array Char} {start stop : Nat} {children : List Tree}
    {k : Kind} (h : k.isToken = false) : TokenShape text start stop children k := by
  cases k <;> simp_all [TokenShape, Kind.isToken, Kind.isBare]

theorem tokenShape_of_isBare {text : Array Char} {start stop : Nat} {k : Kind}
    (h : k.isBare = true) : TokenShape text start stop [] k := by
  cases k <;> simp_all [TokenShape, Kind.isBare]

mutual

/-- The tree lies over the text: its tokens have the shape of their kind, and its children lie in
order inside it. -/
def Placed (text : Array Char) : Tree → Prop
  | .node k s e cs => TokenShape text s e cs k ∧ PlacedAll text s e cs

/-- The trees lie over the text one after the other, between the offsets `lo` and `hi`. -/
def PlacedAll (text : Array Char) (lo hi : Nat) : List Tree → Prop
  | [] => lo ≤ hi
  | t :: ts => lo ≤ t.start ∧ Placed text t ∧ PlacedAll text t.stop hi ts

end

/-- The trees, newest first, lie over the text one before the other, between `lo` and `hi`. -/
def Behind (text : Array Char) (lo hi : Nat) : List Tree → Prop
  | [] => lo ≤ hi
  | t :: ts => t.stop ≤ hi ∧ Placed text t ∧ Behind text lo t.start ts

theorem PlacedAll.le {text : Array Char} {hi : Nat} :
    ∀ {ts : List Tree} {lo : Nat}, PlacedAll text lo hi ts → lo ≤ hi
  | [], _, h => by simpa [PlacedAll] using h
  | .node k s e cs :: ts, lo, h => by
    simp only [PlacedAll, start_node, stop_node, Placed] at h
    obtain ⟨h₁, ⟨-, h₂⟩, h₃⟩ := h
    exact Nat.le_trans h₁ (Nat.le_trans h₂.le h₃.le)

theorem Placed.start_le_stop {text : Array Char} {t : Tree} (h : Placed text t) :
    t.start ≤ t.stop := by
  obtain ⟨k, s, e, cs⟩ := t
  simp only [Placed] at h
  exact h.2.le

theorem Behind.le {text : Array Char} {lo hi : Nat} {ts : List Tree} (h : Behind text lo hi ts) :
    lo ≤ hi := by
  induction ts generalizing hi with
  | nil => exact h
  | cons t ts ih => exact Nat.le_trans (ih h.2.2) (Nat.le_trans h.2.1.start_le_stop h.1)

theorem Behind.mono {text : Array Char} {lo hi hi' : Nat} {ts : List Tree} (hle : hi ≤ hi')
    (h : Behind text lo hi ts) : Behind text lo hi' ts := by
  cases ts with
  | nil => exact Nat.le_trans (h : lo ≤ hi) hle
  | cons t ts => exact ⟨Nat.le_trans h.1 hle, h.2⟩

theorem Behind.append {text : Array Char} {lo mid hi : Nat} {us ts : List Tree}
    (hu : Behind text mid hi us) (ht : Behind text lo mid ts) :
    Behind text lo hi (us ++ ts) := by
  induction us generalizing hi with
  | nil => exact ht.mono hu
  | cons u us ih => exact ⟨hu.1, hu.2.1, ih hu.2.2⟩

theorem PlacedAll.append {text : Array Char} {hi : Nat} :
    ∀ {ts us : List Tree} {lo mid : Nat}, PlacedAll text lo mid ts → PlacedAll text mid hi us →
      PlacedAll text lo hi (ts ++ us)
  | [], [], lo, mid, ht, hu => by
    simp only [PlacedAll] at ht hu
    simpa [PlacedAll] using Nat.le_trans ht hu
  | [], u :: us, lo, mid, ht, hu => by
    simp only [PlacedAll] at ht hu
    simp only [List.nil_append, PlacedAll]
    exact ⟨Nat.le_trans ht hu.1, hu.2⟩
  | t :: ts, us, lo, mid, ht, hu => by
    simp only [PlacedAll] at ht
    simp only [List.cons_append, PlacedAll]
    exact ⟨ht.1, ht.2.1, ht.2.2.append hu⟩

/-- Finished siblings, put into text order, are placed as siblings should be. -/
theorem Behind.placedAll_reverse {text : Array Char} {lo hi : Nat} {ts : List Tree}
    (h : Behind text lo hi ts) : PlacedAll text lo hi ts.reverse := by
  induction ts generalizing hi with
  | nil =>
    have hle : lo ≤ hi := h
    simpa [PlacedAll] using hle
  | cons t ts ih =>
    rw [List.reverse_cons]
    refine (ih h.2.2).append ?_
    simp only [PlacedAll]
    exact ⟨Nat.le_refl _, h.2.1, h.1⟩

end Tree

end ImportAudit.Outline
