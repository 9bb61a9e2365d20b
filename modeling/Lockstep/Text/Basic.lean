import Lockstep.Sorting

/-!
# Lockstep — texts

A text is the list of its letters, so that every reader recurses on its data,
equality of texts is equality of lists, and the order of texts is the
lexicographic order of code points.

A letter is a character, or half of a surrogate pair that stands alone. Such a
half is a code point, but no character: a document can name it by number, and
from there on it goes wherever the text goes. No file holds it, for it has no
bytes (`Lockstep.Utf8`).

* `Letter.code`, `Letter.ofCode` — letters and their code points.
* `splitOn`, `joinWith`  — pieces between separators, and the way back.
* `trimBy`, `trim`       — drops letters of a class, or blanks, from both ends.
* `replaceChar`          — one letter for another.
* `sort`                 — texts by code point, repetitions kept.
* `ofNat`, `ofInt`       — decimal digits.
* `unifyLineEnds`        — the three line ends as one.
-/

namespace Lockstep

-- ---------------------------------------------------------------------------
-- Letters
-- ---------------------------------------------------------------------------

/-- A letter of a text: a character, or a half of a surrogate pair that stands alone. -/
inductive Letter where
  | char (c : Char)
  /-- The code point `0xd800 + n`. -/
  | half (n : Fin 0x800)
  deriving DecidableEq, Repr

export Letter (char)

namespace Letter

/-- The code point of a letter. -/
def code : Letter → Nat
  | char c => c.toNat
  | half n => 0xd800 + n

/-- The letter of a code point. -/
def ofCode (n : Nat) : Letter :=
  if h : 0xd800 ≤ n ∧ n < 0xe000 then half ⟨n - 0xd800, by omega⟩ else char (Char.ofNat n)

/-- Whether a letter is half of a pair. -/
def isHalf : Letter → Bool
  | char _ => false
  | half _ => true

/-- The letter with another character; half of a pair stays as it is. -/
def map (f : Char → Char) : Letter → Letter
  | char c => char (f c)
  | half n => half n

/-- A character is never in the range of the halves, so that a code point has one letter. -/
theorem code_injective {a b : Letter} (h : a.code = b.code) : a = b := by
  cases a with
  | char c =>
    cases b with
    | char d => rw [Char.toNat_inj.1 h]
    | half n =>
      have hValid := c.valid
      simp only [code, Char.toNat, UInt32.isValidChar, Nat.isValidChar] at h hValid
      omega
  | half m =>
    cases b with
    | char d =>
      have hValid := d.valid
      simp only [code, Char.toNat, UInt32.isValidChar, Nat.isValidChar] at h hValid
      omega
    | half n => simp only [code] at h; congr 1; omega

instance : LT Letter := ⟨fun a b => a.code < b.code⟩

instance : LE Letter := ⟨fun a b => a.code ≤ b.code⟩

instance : DecidableLT Letter := fun a b => inferInstanceAs (Decidable (a.code < b.code))

instance : DecidableLE Letter := fun a b => inferInstanceAs (Decidable (a.code ≤ b.code))

/-- The order of code points; that of texts is the lexicographic one for it. -/
instance : Std.IsLinearOrder Letter where
  le_refl a := Nat.le_refl a.code
  le_trans _ _ _ := Nat.le_trans
  le_total a b := Nat.le_total a.code b.code
  le_antisymm _ _ hab hba := code_injective (Nat.le_antisymm hab hba)

instance : Std.LawfulOrderLT Letter where
  lt_iff _ _ := Nat.lt_iff_le_and_not_ge

end Letter

/-- A text is the list of its letters. -/
abbrev Text := List Letter

end Lockstep

/-- The text of a string. -/
def String.text (s : String) : Lockstep.Text := s.toList.map .char

theorem String.text_append (s t : String) : (s ++ t).text = s.text ++ t.text := by
  rw [String.text, String.toList_append, List.map_append]
  rfl

namespace Lockstep

namespace Text

-- ---------------------------------------------------------------------------
-- Splitting and joining
-- ---------------------------------------------------------------------------

/-- Puts a letter in front of the first piece. -/
def consHead (c : Letter) : List Text → List Text
  | [] => [[c]]
  | piece :: rest => (c :: piece) :: rest

/-- The pieces between the occurrences of `sep`; there is always at least one. -/
def splitOn (sep : Letter) : Text → List Text
  | [] => [[]]
  | c :: rest => if c = sep then [] :: splitOn sep rest else consHead c (splitOn sep rest)

/-- The pieces in a row, with `sep` between two of them. -/
def joinWith (sep : Text) (pieces : List Text) : Text :=
  sep.intercalate pieces

theorem splitOn_ne_nil (sep : Letter) (t : Text) : splitOn sep t ≠ [] := by
  cases t with
  | nil => simp [splitOn]
  | cons c rest =>
    simp only [splitOn]
    split
    · simp
    · cases splitOn sep rest <;> simp [consHead]

-- ---------------------------------------------------------------------------
-- Trimming and replacing
-- ---------------------------------------------------------------------------

/-- Drops the letters of a class from the end. -/
def trimEndBy (drop : Letter → Bool) (t : Text) : Text :=
  (t.reverse.dropWhile drop).reverse

/-- Drops the letters of a class from both ends. -/
def trimBy (drop : Letter → Bool) (t : Text) : Text :=
  trimEndBy drop (t.dropWhile drop)

/-- Every `old` becomes `new`. -/
def replaceChar (old new : Letter) (t : Text) : Text :=
  t.map fun c => if c = old then new else c

/-- Drops one `c` from the end, if the text ends in one. -/
def dropLastChar (c : Letter) (t : Text) : Text :=
  if t.getLast? = some c then t.dropLast else t

/-- Blanks after the text, up to the given width. -/
def padEnd (width : Nat) (t : Text) : Text :=
  t ++ List.replicate (width - t.length) (char ' ')

-- ---------------------------------------------------------------------------
-- Order
-- ---------------------------------------------------------------------------

/-- Texts in increasing order of code points; equal ones stay. -/
def sort (ts : List Text) : List Text :=
  Sorting.sortBy Sorting.upTo ts

/-- Values in increasing order of a text each has; equal ones keep their order. -/
def sortBy {α : Type} (key : α → Text) (xs : List α) : List α :=
  Sorting.sortBy (fun a b => Sorting.upTo (key a) (key b)) xs

-- ---------------------------------------------------------------------------
-- Numbers
-- ---------------------------------------------------------------------------

/-- The decimal digits of a number. -/
def ofNat (n : Nat) : Text := (Nat.toDigits 10 n).map char

/-- The decimal digits of a number, with a sign if it is negative. -/
def ofInt : Int → Text
  | .ofNat n => ofNat n
  | .negSucc n => char '-' :: ofNat (n + 1)

end Text

-- ---------------------------------------------------------------------------
-- Blanks
-- ---------------------------------------------------------------------------

/-- Ranges of code points of the blank characters. -/
def blankRanges : List (Nat × Nat) :=
  [(0x09, 0x0d), (0x1c, 0x20), (0x85, 0x85), (0xa0, 0xa0), (0x1680, 0x1680),
   (0x2000, 0x200a), (0x2028, 0x2029), (0x202f, 0x202f), (0x205f, 0x205f), (0x3000, 0x3000)]

/-- A character of one of the blank ranges. -/
def isBlank (c : Letter) : Bool :=
  blankRanges.any fun (lo, hi) => lo ≤ c.code && c.code ≤ hi

namespace Text

/-- The text without the blanks at its two ends. -/
def trim (t : Text) : Text := trimBy isBlank t

/-- A text of blanks only. -/
def isAllBlank (t : Text) : Bool := t.all isBlank

-- ---------------------------------------------------------------------------
-- Line ends
-- ---------------------------------------------------------------------------

/-- The text with a line feed for each of the three line ends. -/
def unifyLineEnds : Text → Text
  | [] => []
  | char '\r' :: char '\n' :: rest => char '\n' :: unifyLineEnds rest
  | c :: rest => (if c = char '\r' then char '\n' else c) :: unifyLineEnds rest

/-- Nothing but line feeds ends a line of the result. -/
theorem return_not_mem_unifyLineEnds (t : Text) : char '\r' ∉ t.unifyLineEnds := by
  fun_induction unifyLineEnds t with
  | case1 => simp
  | case2 rest ih => simp [ih]
  | case3 c rest _ ih =>
    simp only [List.mem_cons, not_or, ih, not_false_eq_true, and_true]
    split
    · decide
    · next h => exact fun e => h e.symm

theorem mem_unifyLineEnds {c : Letter} {t : Text} (h : c ∈ t.unifyLineEnds) :
    c = char '\n' ∨ c ∈ t := by
  fun_induction unifyLineEnds t with
  | case1 => exact Or.inr h
  | case2 rest ih =>
    rcases List.mem_cons.1 h with rfl | h
    · exact Or.inl rfl
    · exact (ih h).imp_right fun h => List.mem_cons_of_mem _ (List.mem_cons_of_mem _ h)
  | case3 d rest _ ih =>
    rcases List.mem_cons.1 h with rfl | h
    · split
      · exact Or.inl rfl
      · exact Or.inr List.mem_cons_self
    · exact (ih h).imp_right (List.mem_cons_of_mem _)

end Text

end Lockstep
