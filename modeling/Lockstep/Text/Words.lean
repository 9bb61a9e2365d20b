import Lockstep.Text.Basic

/-!
# Lockstep — words

Words are compared in two loose ways: without regard to small letters and
capitals, and by how much they have in common.

The capitals are those of letters whose capital is in ASCII: the small letters of
ASCII, two single letters beyond it, and the ligatures, which have two or three.
All other characters are left alone, so that a text is a word of ASCII capitals
after `capitalize` exactly if it is spelled with such letters.

Two words are alike in so far as they have characters in common, in the same
order: the longest run that both hold, and what is alike before it and after it.
A word that was mistyped is close to another one if at least six tenths of their
characters are in common.

* `Text.capitalize`, `Text.lowercase` — one case for all letters.
* `Text.similarTo` — the words of a list that are close to a text.
-/

namespace Lockstep

-- ---------------------------------------------------------------------------
-- Capitals
-- ---------------------------------------------------------------------------

/-- Letters beyond ASCII with capitals in ASCII. -/
def farCapitals : List (Letter × Text) :=
  [(char 'ı', "I".text), (char 'ſ', "S".text), (char 'ß', "SS".text), (char 'ﬀ', "FF".text), (char 'ﬁ', "FI".text),
   (char 'ﬂ', "FL".text), (char 'ﬃ', "FFI".text), (char 'ﬄ', "FFL".text), (char 'ﬅ', "ST".text), (char 'ﬆ', "ST".text)]

/-- The capitals of a letter. -/
def capitalsOf (c : Letter) : Text :=
  if char 'a' ≤ c ∧ c ≤ char 'z' then [c.map Char.toUpper] else (farCapitals.lookup c).getD [c]

namespace Text

/-- The text in capitals. -/
def capitalize (t : Text) : Text := t.flatMap capitalsOf

/-- The text in small letters of ASCII. -/
def lowercase (t : Text) : Text := t.map (Letter.map Char.toLower)

-- ---------------------------------------------------------------------------
-- Similar words
-- ---------------------------------------------------------------------------

/-- The length of the longest common beginning. -/
def commonPrefixLength : Text → Text → Nat
  | c :: a, d :: b => if c = d then commonPrefixLength a b + 1 else 0
  | _, _ => 0

/-- The longest run that both texts hold, as its places and its length; the first of several. -/
def longestCommonRun (a b : Text) : Nat × Nat × Nat :=
  (List.range a.length).foldl
    (fun best i => (List.range b.length).foldl
      (fun best j =>
        let size := commonPrefixLength (a.drop i) (b.drop j)
        if best.2.2 < size then (i, j, size) else best)
      best)
    (0, 0, 0)

/-- The number of characters in common; each run is followed by shorter texts, so
that `fuel` of the length of one of them is enough. -/
def commonCharacters : Nat → Text → Text → Nat
  | 0, _, _ => 0
  | fuel + 1, a, b =>
    let (i, j, size) := longestCommonRun a b
    if size = 0 then 0
    else
      size + commonCharacters fuel (a.take i) (b.take j) +
        commonCharacters fuel (a.drop (i + size)) (b.drop (j + size))

/-- Whether six tenths of the characters of two texts are in common. -/
def isSimilar (a b : Text) : Bool :=
  12 * (a.length + b.length) ≤ 40 * commonCharacters (a.length + 1) a b

/-- The words of a list that are close to a text. -/
def similarTo (t : Text) (words : List Text) : List Text :=
  words.filter fun w => isSimilar w t

end Text

end Lockstep
