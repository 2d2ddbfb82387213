/-
# ImportAudit.Text.Resemblance — how alike two texts are.

Two texts share the longest stretch that both have, and what they share before it and behind it.
They are alike if what they share makes up three fifths of both.
-/
import ImportAudit.Text.Sorted

namespace ImportAudit.Text

/-- How many characters two texts begin with in common. -/
def commonStart : List Char → List Char → Nat
  | a :: as, b :: bs => if a = b then commonStart as bs + 1 else 0
  | _, _ => 0

/-- A stretch that two texts have in common: its length, and where it begins in either. -/
structure Stretch where
  size : Nat
  first : Nat
  second : Nat
  deriving DecidableEq, Repr

/-- The longest stretch that two texts have in common; of several that which begins first in the
first text, and of those that which begins first in the second. -/
def longestStretch (a b : List Char) : Stretch :=
  (List.range a.length).foldl (fun best i =>
    (List.range b.length).foldl (fun best j =>
      let size := commonStart (a.drop i) (b.drop j)
      if best.size < size then ⟨size, i, j⟩ else best) best) ⟨0, 0, 0⟩

/-- How many characters two texts share; `fuel` is at least the length of the first. -/
def sharedWithin : Nat → List Char → List Char → Nat
  | 0, _, _ => 0
  | fuel + 1, a, b =>
    let s := longestStretch a b
    if s.size = 0 then 0
    else
      sharedWithin fuel (a.take s.first) (b.take s.second) + s.size +
        sharedWithin fuel (a.drop (s.first + s.size)) (b.drop (s.second + s.size))

/-- How many characters two texts share. -/
def shared (a b : List Char) : Nat := sharedWithin a.length a b

/-- A candidate: what it shares with a word, and the characters of both. -/
structure Candidate where
  text : String
  shared : Nat
  total : Nat
  deriving Repr

/-- What a text shares with a word. -/
def Candidate.of (word text : String) : Candidate :=
  ⟨text, Text.shared text.toList word.toList, text.length + word.length⟩

/-- A candidate is alike: what is shared, twice, is at least three fifths of all. -/
def Candidate.isAlike (c : Candidate) : Bool := 3 * c.total ≤ 5 * (2 * c.shared)

/-- A candidate comes before another one: it is more alike, or as alike and later in order. -/
def Candidate.isBetter (c d : Candidate) : Bool :=
  if c.shared * d.total = d.shared * c.total then decide (d.text ≤ c.text)
  else decide (d.shared * c.total < c.shared * d.total)

/-- How many texts are named as alike. -/
def mostAlike : Nat := 3

/-- The texts that are most alike to a word, in order. -/
def resembling (word : String) (texts : List String) : List String :=
  sorted (((((texts.map (Candidate.of word)).filter Candidate.isAlike).mergeSort
    Candidate.isBetter).take mostAlike).map Candidate.text)

end ImportAudit.Text
