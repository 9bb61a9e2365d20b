import Lockstep.Json.Reader
import Mathlib.Data.List.TakeWhile

/-!
# Lockstep — the limits of the reader

A text that follows the grammar is still refused if it is nested too deeply or
has a whole number of too many digits. Such a refusal has a cause that can be
seen in the text (`ReadError.HasCause`): more openings than levels, or that many
digits in a row.

* `Stays` — what one reader does from a cursor on: it leaves the end of the text it was
  given, or refuses for a cause in it. Each reader stays within its text
  (`stays_readValue`), by induction on its fuel.
* `isWithinLimits_of_few` — a text without such causes is refused for its grammar only.
* `not_isWithinLimits_of_nested`, `not_isWithinLimits_of_digits` — texts of either kind
  that are refused.
-/

namespace Lockstep

namespace Json

-- ---------------------------------------------------------------------------
-- Causes
-- ---------------------------------------------------------------------------

/-- Whether a letter opens an array or an object, if it does not stand in a string. -/
def isOpening (c : Letter) : Bool := c = char '[' || c = char '\x7b'

/-- A text of digits only stands somewhere in the text. -/
def HasDigits (n : Nat) (t : Text) : Prop :=
  ∃ digits, digits <:+: t ∧ digits.length = n ∧ ∀ c ∈ digits, isDigit c = true

/-- What must stand in a text that is refused, if `depth` levels are allowed. -/
def ReadError.HasCause (depth : Nat) (t : Text) : ReadError → Prop
  | .malformed _ _ => True
  | .tooDeep _ => depth < t.countP isOpening
  | .tooManyDigits n => maxDigits < n ∧ HasDigits n t

/-- A result from a cursor before the text: the cursor is in it still, or it is
refused for a cause. -/
def Stays {α : Type} (depth : Nat) (t : Text) : Except ReadError (α × Cursor) → Prop
  | .ok (_, after) => after.rest <:+ t
  | .error e => e.HasCause depth t

section Stays

variable {α β : Type} {depth : Nat} {t t' : Text} {r : Except ReadError (α × Cursor)}

/-- An offence against the grammar needs no cause in the text. -/
theorem stays_fail (c : Cursor) (fault : Fault) :
    Stays depth t (c.fail fault : Except ReadError (α × Cursor)) := trivial

/-- A cause in a part of a text is a cause in the whole text, as openings and digits
of the part stand in the whole. -/
theorem ReadError.HasCause.mono {e : ReadError} (h : e.HasCause depth t) (ht : t <:+ t') :
    e.HasCause depth t' := by
  cases e with
  | malformed fault offset => trivial
  | tooDeep kind => exact Nat.lt_of_lt_of_le h ht.sublist.countP_le
  | tooManyDigits n =>
    obtain ⟨hn, digits, hInfix, hDigits⟩ := h
    exact ⟨hn, digits, hInfix.trans ht.isInfix, hDigits⟩

/-- A reader that stays within a part of a text stays within the whole text. -/
theorem Stays.mono (h : Stays depth t r) (ht : t <:+ t') : Stays depth t' r := by
  cases r with
  | ok v => exact List.IsSuffix.trans h ht
  | error e => exact ReadError.HasCause.mono h ht

/-- One level more is allowed before an opening. -/
theorem ReadError.HasCause.opened {e : ReadError} {c : Letter} (h : e.HasCause depth t)
    (hc : isOpening c = true) : e.HasCause (depth + 1) (c :: t) := by
  cases e with
  | tooDeep kind =>
    rw [HasCause, List.countP_cons_of_pos hc]
    exact Nat.succ_lt_succ h
  | malformed fault offset => trivial
  | tooManyDigits n =>
    obtain ⟨hn, digits, hInfix, hDigits⟩ := h
    exact ⟨hn, digits, hInfix.trans (List.suffix_cons c t).isInfix, hDigits⟩

/-- Readers inside an array or an object stay within the text from its opening on,
with the level that they were given back. -/
theorem Stays.opened {c : Letter} (h : Stays depth t r) (hc : isOpening c = true) :
    Stays (depth + 1) (c :: t) r := by
  cases r with
  | ok v => exact List.IsSuffix.trans h (List.suffix_cons c t)
  | error e => exact ReadError.HasCause.opened h hc

/-- Where a reader ends does not depend on what is made of its result. -/
theorem Stays.map {f : α × Cursor → β × Cursor} (h : Stays depth t r) (hf : ∀ v, (f v).2 = v.2) :
    Stays depth t (r.map f) := by
  cases r with
  | ok v =>
    show (f v).2.rest <:+ t
    rw [hf]
    exact h
  | error e => exact h

end Stays

-- ---------------------------------------------------------------------------
-- Strings
-- ---------------------------------------------------------------------------

namespace Cursor

theorem rest_advance_suffix (c : Cursor) (n : Nat) : (c.advance n).rest <:+ c.rest :=
  List.drop_suffix n c.rest

theorem rest_skipSpace_suffix (c : Cursor) : c.skipSpace.rest <:+ c.rest :=
  c.rest_advance_suffix _

/-- After a sign, the reader goes on at what comes after the space that follows. -/
theorem rest_next_suffix (c : Cursor) : (c.advance 1).skipSpace.rest <:+ c.rest :=
  (c.advance 1).rest_skipSpace_suffix.trans (c.rest_advance_suffix 1)

end Cursor

variable {depth : Nat}

/-- An escape of a code unit is refused for its digits only, never for a limit. -/
theorem codeEscape_error {c : Cursor} {e : ReadError} (t : Text) (h : codeEscape c = .error e) :
    e.HasCause depth t := by
  unfold codeEscape at h
  simp only [Cursor.fail] at h
  repeat' split at h
  all_goals cases h
  all_goals trivial

/-- No escape is refused for a limit, whichever letter follows the backslash. -/
theorem escape_error {start c : Cursor} {e : ReadError} (t : Text) (h : escape start c = .error e) :
    e.HasCause depth t := by
  unfold escape at h
  split at h
  · cases h
    trivial
  · exact codeEscape_error t h
  · split at h
    · cases h
    · cases h
      trivial

/-- The reader of a string ends within the text, or refuses it for its grammar. -/
theorem stays_stringTail (start : Cursor) (read : Text) (offset : Nat) (t : Text) :
    Stays depth t (stringTail start read offset t) := by
  fun_induction stringTail start read offset t with
  | case1 => exact stays_fail _ _
  | case2 => exact List.suffix_cons _ _
  | case3 _ _ _ _ _ h => exact escape_error _ h
  | case4 _ _ _ _ _ _ _ ih => exact ih.mono ((List.drop_suffix _ _).trans (List.suffix_cons _ _))
  | case5 => exact stays_fail _ _
  | case6 _ _ _ _ _ _ _ ih => exact ih.mono (List.suffix_cons _ _)

theorem stays_readString (c : Cursor) : Stays depth c.rest (readString c) :=
  (stays_stringTail c [] _ _).mono (List.drop_suffix 1 _)

-- ---------------------------------------------------------------------------
-- Words and numbers
-- ---------------------------------------------------------------------------

/-- The digits of the whole part stand at the beginning of the number. -/
theorem wholeDigits_prefix_self (t : Text) : wholeDigits t <+: t := by
  unfold wholeDigits
  split
  · exact List.prefix_append [char '0'] _
  · exact List.takeWhile_prefix _

/-- The whole part of a number is made of digits alone; a sign is not counted. -/
theorem isDigit_of_mem_wholeDigits {t : Text} {c : Letter} (h : c ∈ wholeDigits t) :
    isDigit c = true := by
  unfold wholeDigits at h
  split at h
  · rw [List.mem_singleton.1 h]
    decide
  · exact List.mem_takeWhile_imp h

/-- A number is refused for the digits of its whole part, which stand in a
row in the text. A fraction or an exponent does not count: such a number is
no whole one. -/
theorem stays_readNumber (c : Cursor) : Stays depth c.rest (readNumber c) := by
  unfold readNumber
  extract_lets negative body whole afterWhole fraction fractionLength signCount after
  have hBody : body <:+ c.rest := by
    show (if negative then c.rest.drop 1 else c.rest) <:+ c.rest
    -- a dash that no digit follows, then a fraction or exponent, then a whole number, which alone
    -- may be too long
    split
    · exact List.drop_suffix 1 _
    · exact List.suffix_rfl
  split
  · exact stays_fail _ _
  split
  · exact c.rest_advance_suffix _
  split
  · split
    · next hCount =>
      exact ⟨hCount, whole, (wholeDigits_prefix_self body).isInfix.trans hBody.isInfix, rfl,
        fun _ => isDigit_of_mem_wholeDigits⟩
    · exact c.rest_advance_suffix _
  · exact c.rest_advance_suffix _

/-- A word has a fixed spelling and no limit; anything else is read as a number. -/
theorem stays_readPlain (c : Cursor) : Stays depth c.rest (readPlain c) := by
  unfold readPlain
  split
  · exact c.rest_advance_suffix _
  · exact stays_readNumber c

-- ---------------------------------------------------------------------------
-- Arrays and objects
-- ---------------------------------------------------------------------------

/-- What stands after an opening is read with one level less, if there is one.
Inside, a cause is found with a level less than outside; the opening itself, which
stands in front, makes up for it. -/
theorem stays_nested {c : Cursor} {x close : Letter} {rest : Text} {kind : String} {v : Value}
    {more : Nat → Except ReadError (Value × Cursor)} (hRest : c.rest = x :: rest)
    (hx : isOpening x = true) (hMore : ∀ depth, Stays depth (c.advance 1).skipSpace.rest (more depth)) :
    Stays depth c.rest
      (if depth = 0 then .error (.tooDeep kind)
      else if (c.advance 1).skipSpace.rest.head? = some close then
        .ok (v, (c.advance 1).skipSpace.advance 1)
      else more (depth - 1)) := by
  have hInside : (c.advance 1).skipSpace.rest <:+ rest := by
    have hDrop : (c.advance 1).rest = rest := by
      rw [Cursor.advance, hRest, List.drop_one, List.tail_cons]
    exact hDrop ▸ (c.advance 1).rest_skipSpace_suffix
  rw [hRest]
  split
  · next hDepth =>
    show depth < (x :: rest).countP isOpening
    rw [hDepth, List.countP_cons_of_pos hx]
    exact Nat.succ_pos _
  next hDepth =>
  split
  · exact ((Cursor.rest_advance_suffix _ 1).trans hInside).trans (List.suffix_cons x rest)
  · -- the level that is taken away inside is given back for the opening itself
    have hOpened := ((hMore (depth - 1)).mono hInside).opened hx
    rwa [Nat.sub_add_cancel (Nat.pos_of_ne_zero hDepth)] at hOpened

section Step

variable {fuel : Nat}

/-- The reader of values, given that the readers of items and fields below it stay
within their text. -/
theorem stays_readValue_succ
    (hItems : ∀ depth read c, Stays depth c.rest (readItems fuel depth read c))
    (hFields : ∀ depth read c, Stays depth c.rest (readFields fuel depth read c))
    (depth : Nat) (c : Cursor) : Stays depth c.rest (readValue (fuel + 1) depth c) := by
  rw [readValue]
  split
  · exact stays_fail _ _
  · exact (stays_readString c).map fun _ => rfl
  · next rest hRest => exact stays_nested hRest (by decide) fun _ => hItems _ _ _
  · next rest hRest => exact stays_nested hRest (by decide) fun _ => hFields _ _ _
  · exact stays_readPlain c

/-- The reader of the items of an array, given one that reads values with less fuel.
The depth is the one of the items, from which the caller has taken a level. -/
theorem stays_readItems_succ
    (hValue : ∀ depth c, Stays depth c.rest (readValue fuel depth c))
    (hItems : ∀ depth read c, Stays depth c.rest (readItems fuel depth read c))
    (depth : Nat) (read : List Value) (c : Cursor) :
    Stays depth c.rest (readItems (fuel + 1) depth read c) := by
  have hv := hValue depth c
  rw [readItems]
  split
  · next e he => exact he ▸ hv
  -- after an item there is a closing bracket, or a comma and another item
  next v after hok =>
  rw [hok] at hv
  have hSpace : after.skipSpace.rest <:+ c.rest := after.rest_skipSpace_suffix.trans hv
  dsimp only
  split
  · exact (Cursor.rest_advance_suffix _ 1).trans hSpace
  · exact (hItems _ _ _).mono ((Cursor.rest_next_suffix _).trans hSpace)
  · exact stays_fail _ _

/-- The reader of the fields of an object, given one that reads values with less
fuel. From the name on each cursor is in the text of the one before it. -/
theorem stays_readFields_succ
    (hValue : ∀ depth c, Stays depth c.rest (readValue fuel depth c))
    (hFields : ∀ depth read c, Stays depth c.rest (readFields fuel depth read c))
    (depth : Nat) (read : List (Text × Value)) (c : Cursor) :
    Stays depth c.rest (readFields (fuel + 1) depth read c) := by
  have hName : Stays depth c.rest (readString c) := stays_readString c
  rw [readFields]
  split
  · exact stays_fail _ _
  split
  · next e he =>
    rw [he] at hName
    exact hName
  next name colon hok =>
  rw [hok] at hName
  -- the name, the colon, the value and the comma each leave an end of what was left before
  have hColon : colon.skipSpace.rest <:+ c.rest := colon.rest_skipSpace_suffix.trans hName
  dsimp only
  split
  · exact stays_fail _ _
  have hStart : (colon.skipSpace.advance 1).skipSpace.rest <:+ c.rest :=
    (Cursor.rest_next_suffix _).trans hColon
  have hv := (hValue depth (colon.skipSpace.advance 1).skipSpace).mono hStart
  split
  · next e he => exact he ▸ hv
  next v after hok =>
  rw [hok] at hv
  have hSpace : after.skipSpace.rest <:+ c.rest := after.rest_skipSpace_suffix.trans hv
  split
  · exact (Cursor.rest_advance_suffix _ 1).trans hSpace
  · exact (hFields _ _ _).mono ((Cursor.rest_next_suffix _).trans hSpace)
  · exact stays_fail _ _

end Step

/-- Whatever is read, the reader stays within the text. The three readers call
each other with one unit of fuel less, so that all three are carried through
one induction. -/
theorem stays_read_all (fuel : Nat) :
    (∀ depth c, Stays depth c.rest (readValue fuel depth c)) ∧
    (∀ depth read c, Stays depth c.rest (readItems fuel depth read c)) ∧
    ∀ depth read c, Stays depth c.rest (readFields fuel depth read c) := by
  induction fuel with
  -- without fuel each of the readers gives up, as if the text ended here
  | zero =>
    refine ⟨fun depth c => ?_, fun depth read c => ?_, fun depth read c => ?_⟩
    · rw [readValue]
      exact stays_fail _ _
    · rw [readItems]
      exact stays_fail _ _
    · rw [readFields]
      exact stays_fail _ _
  | succ fuel ih =>
    obtain ⟨hValue, hItems, hFields⟩ := ih
    exact ⟨stays_readValue_succ hItems hFields, stays_readItems_succ hValue hItems,
      stays_readFields_succ hValue hFields⟩

/-- Whatever value is read, the reader stays within the text from which it was read. -/
theorem stays_readValue (fuel depth : Nat) (c : Cursor) :
    Stays depth c.rest (readValue fuel depth c) :=
  (stays_read_all fuel).1 depth c

/-- A refusal has a cause that stands in the text. What follows the value, and a
byte order mark before it, are matters of the grammar. -/
theorem cause_of_read_eq_error {text : Text} {e : ReadError}
    (h : read depth text = .error e) : e.HasCause depth text := by
  have hValue := (stays_readValue (2 * text.length + 2) depth (Cursor.skipSpace ⟨0, text⟩)).mono
    (Cursor.rest_skipSpace_suffix ⟨0, text⟩)
  -- a byte order mark, then the value, then what is left after it
  rw [read] at h
  split at h
  · cases h
    trivial
  split at h
  · next e' he =>
    rw [he] at hValue
    cases h
    exact hValue
  · dsimp only at h
    split at h
    · cases h
    · cases h
      trivial

-- ---------------------------------------------------------------------------
-- Texts within the limits
-- ---------------------------------------------------------------------------

/-- A text that a reader with so many levels refuses, if at all, for not following
the grammar. -/
def IsWithinLimits (depth : Nat) (text : Text) : Prop :=
  ∀ e, read depth text = .error e → ∃ fault offset, e = .malformed fault offset

/-- A text with few openings and only short numbers is within the limits. -/
theorem isWithinLimits_of_few {text : Text} (hOpenings : text.countP isOpening ≤ depth)
    (hDigits : ∀ n, HasDigits n text → n ≤ maxDigits) : IsWithinLimits depth text := by
  intro e h
  have hCause := cause_of_read_eq_error h
  cases e with
  | malformed fault offset => exact ⟨fault, offset, rfl⟩
  | tooDeep kind => exact absurd hCause (Nat.not_lt.2 hOpenings)
  | tooManyDigits n => exact absurd hCause.1 (Nat.not_lt.2 (hDigits n hCause.2))

theorem skipSpace_eq_self {c : Cursor} {x : Letter} {rest : Text} (hRest : c.rest = x :: rest)
    (hx : Cursor.isSpace x = false) : c.skipSpace = c := by
  have hNone : c.rest.takeWhile Cursor.isSpace = [] := by
    rw [hRest, List.takeWhile_cons_of_neg (by simp [hx])]
  rw [Cursor.skipSpace, hNone]
  rfl

/-- Openings beyond the depth are refused, whatever follows them. The reader
gives up at the opening that is one too many, so that the rest of the text is
never looked at. -/
theorem readValue_nested {fuel n : Nat} {c : Cursor} {after : Text} (hFuel : 2 * depth < fuel)
    (hn : depth < n) (hRest : c.rest = List.replicate n (char '[') ++ after) :
    readValue fuel depth c = .error (.tooDeep "array") := by
  induction depth generalizing fuel n c with
  | zero =>
    obtain ⟨fuel, rfl⟩ := Nat.exists_eq_add_of_lt hFuel
    obtain ⟨n, rfl⟩ := Nat.exists_eq_add_of_lt hn
    rw [List.replicate_succ, List.cons_append] at hRest
    rw [readValue]
    simp only [hRest, if_true]
  | succ depth ih =>
    -- one unit of fuel is for the array, one for its first item
    obtain ⟨fuel, rfl⟩ : ∃ k, fuel = k + 1 + 1 := ⟨fuel - 2, by omega⟩
    obtain ⟨n, rfl⟩ : ∃ k, n = k + 1 + 1 := ⟨n - 2, by omega⟩
    rw [List.replicate_succ, List.cons_append] at hRest
    have hInside : (c.advance 1).rest = List.replicate (n + 1) (char '[') ++ after := by
      rw [Cursor.advance, hRest, List.drop_one, List.tail_cons]
    have hOpening : (c.advance 1).rest = char '[' :: (List.replicate n (char '[') ++ after) := by
      rw [hInside, List.replicate_succ, List.cons_append]
    have hDeeper : readValue fuel depth (c.advance 1) = .error (.tooDeep "array") :=
      ih (by omega) (Nat.lt_of_succ_lt_succ hn) hInside
    rw [readValue]
    simp only [hRest, skipSpace_eq_self hOpening (by decide)]
    rw [if_neg (Nat.succ_ne_zero depth), if_neg (by simp [hOpening]), readItems,
      Nat.add_sub_cancel, hDeeper]

/-- A refusal of the first value is the refusal of the text, if this begins with the value. -/
theorem read_eq_error {x : Letter} {rest : Text} {e : ReadError}
    (hSpace : Cursor.isSpace x = false) (hMark : x ≠ char '\ufeff')
    (h : readValue (2 * (x :: rest).length + 2) depth ⟨0, x :: rest⟩ = .error e) :
    read depth (x :: rest) = .error e := by
  rw [read, if_neg (by simpa using hMark), skipSpace_eq_self rfl hSpace, h]

/-- A text that begins with more openings than there are levels is not within the
limits. With `isWithinLimits_of_few` the bound is met from both sides: one opening
more than levels is enough. -/
theorem not_isWithinLimits_of_nested {n : Nat} (hn : depth < n) (after : Text) :
    ¬ IsWithinLimits depth (List.replicate n (char '[') ++ after) := by
  intro hWithin
  obtain ⟨n, rfl⟩ := Nat.exists_eq_add_of_lt hn
  have hRead : read depth (List.replicate (depth + n + 1) (char '[') ++ after) =
      .error (.tooDeep "array") := by
    have hFuel : 2 * depth < 2 * (List.replicate (depth + n + 1) (char '[') ++ after).length + 2 := by
      rw [List.length_append, List.length_replicate]
      omega
    exact read_eq_error (by decide) (by decide) (readValue_nested hFuel hn rfl)
  obtain ⟨fault, offset, heq⟩ := hWithin _ hRead
  exact ReadError.noConfusion heq

-- ---------------------------------------------------------------------------
-- Whole numbers alone
-- ---------------------------------------------------------------------------

section Digits

variable {x : Letter} {rest : Text}

theorem ne_of_isDigit {y : Letter} (hx : isDigit x = true) (hy : isDigit y = false) : x ≠ y := by
  rintro rfl
  rw [hx] at hy
  exact Bool.noConfusion hy

/-- No word begins with a digit, so that a number is read. The words are `true`,
`false`, `null` and the three names of numbers that are none. -/
theorem readPlain_digit {c : Cursor} (hRest : c.rest = x :: rest) (hx : isDigit x = true) :
    readPlain c = readNumber c := by
  -- each word has a first letter, and it is no digit
  have hHeads : ∀ w ∈ wordValues, w.1.head?.map isDigit = some false := by decide
  have hWord : (wordValues.find? fun w => w.1.isPrefixOf c.rest) = none := by
    rw [List.find?_eq_none]
    intro w hw hPrefix
    rw [List.isPrefixOf_iff_prefix, hRest] at hPrefix
    have hHead := hHeads w hw
    cases hWord : w.1 with
    | nil => simp [hWord] at hHead
    | cons y ys =>
      rw [hWord] at hHead hPrefix
      have hy : isDigit y = false := Option.some.inj hHead
      exact ne_of_isDigit hx hy (List.cons_prefix_cons.1 hPrefix).1.symm
  rw [readPlain, hWord]

/-- Where a digit stands, the reader of values reads a number. -/
theorem readValue_digit {fuel : Nat} {c : Cursor} (hRest : c.rest = x :: rest)
    (hx : isDigit x = true) : readValue (fuel + 1) depth c = readNumber c := by
  have hHead : ∀ {y : Letter} {ys : Text}, c.rest = y :: ys → y = x := fun h =>
    (List.cons.inj (h.symm.trans hRest)).1
  rw [readValue, ← readPlain_digit hRest hx]
  split
  · next hNil => rw [hNil] at hRest; exact absurd hRest (by simp)
  · next h => exact absurd (hHead h).symm (ne_of_isDigit hx (by decide))
  · next h => exact absurd (hHead h).symm (ne_of_isDigit hx (by decide))
  · next h => exact absurd (hHead h).symm (ne_of_isDigit hx (by decide))
  · rfl

/-- A text of digits that does not begin with a zero is a whole part of its own. -/
theorem wholeDigits_eq_self {text : Text} (hDigits : ∀ c ∈ text, isDigit c = true)
    (hZero : text.head? ≠ some (char '0')) : wholeDigits text = text := by
  unfold wholeDigits
  split
  · exact absurd rfl hZero
  · exact List.takeWhile_eq_self_iff.2 hDigits

theorem readNumber_digits {c : Cursor} (hRest : c.rest = x :: rest)
    (hDigits : ∀ y ∈ c.rest, isDigit y = true) (hZero : c.rest.head? ≠ some (char '0'))
    (hLength : maxDigits < c.rest.length) :
    readNumber c = .error (.tooManyDigits c.rest.length) := by
  have hx : isDigit x = true := hDigits x (hRest ▸ List.mem_cons_self)
  have hSign : (c.rest.head? == some (char '-')) = false := by
    simpa [hRest] using ne_of_isDigit hx (y := char '-') (by decide)
  have hne : c.rest ≠ [] := by simp [hRest]
  unfold readNumber
  simp [hSign, wholeDigits_eq_self hDigits hZero, hne, fractionDigits, exponentPart, hLength]

/-- A whole number of too many digits is not within the limits. It must not
begin with a zero, which would be the whole number by itself and leave the other
digits behind. -/
theorem not_isWithinLimits_of_digits {text : Text} (hDigits : ∀ c ∈ text, isDigit c = true)
    (hZero : text.head? ≠ some (char '0')) (hLength : maxDigits < text.length) : ¬ IsWithinLimits depth text := by
  intro hWithin
  have hRead : read depth text = .error (.tooManyDigits text.length) := by
    cases text with
    | nil => exact absurd hLength (by decide)
    | cons x rest =>
      have hx : isDigit x = true := hDigits x List.mem_cons_self
      -- a digit is no space and no byte order mark, so that the number is read from the first
      -- letter on
      have hno : ∀ y, isDigit y = false → x ≠ y := fun y => ne_of_isDigit hx
      have hSpace : Cursor.isSpace x = false := by
        simp [Cursor.isSpace, hno (char ' ') rfl, hno (char '\t') rfl, hno (char '\n') rfl, hno (char '\r') rfl]
      refine read_eq_error hSpace (hno (char '\ufeff') rfl) ?_
      rw [readValue_digit rfl hx, readNumber_digits rfl hDigits hZero hLength]
  obtain ⟨fault, offset, heq⟩ := hWithin _ hRead
  exact ReadError.noConfusion heq

end Digits

end Json

end Lockstep
