import Mathlib.Data.List.Forall2
import Lockstep.Snapshot.Build

/-!
# Lockstep — the grammar of snapshots

What a value of a document describes, said by the shape of the value alone: a
token by a text around it, a truth value by one of its spellings, a list by a list
of descriptions, and each part of a build by the fields of an object. A field may
be left out if there is a value for its absence; fields that are not named here do
not matter.

* `DescribesDependency`, `DescribesConfiguration`, `DescribesModule`,
  `DescribesBuild` — the parts of a document.
* `IsCheckFor` — a check has just the values that are described, wherever a value
  stands; so does every check of a document (`modules_eq_ok_iff`).
-/

namespace Lockstep

namespace Json.Value

/-- The text in a field of an object, as it is written. -/
def textAt? (v : Value) (name : String) : Option Text :=
  match v.field? name.text with
  | some (.string s) => some s
  | _ => none

/-- The items of the list in a field of an object; none if there is no such list. -/
def itemsAt (v : Value) (name : String) : List Value :=
  match v.field? name.text with
  | some (.array items) => items
  | _ => []

end Json.Value

namespace Snapshot

open Json (Value)

variable {α : Type}

-- ---------------------------------------------------------------------------
-- Plain values
-- ---------------------------------------------------------------------------

/-- A text, for itself. -/
def DescribesText (v : Value) (t : Text) : Prop := v = .string t

/-- A text, or null for none. -/
inductive DescribesOptionalText : Value → Option Text → Prop
  | null : DescribesOptionalText .null none
  | text (t : Text) : DescribesOptionalText (.string t) (some t)

/-- A text for what stands between the blanks at its ends, which must be something
and hold none of the separators. -/
inductive DescribesToken (separators : List Letter) : Value → Text → Prop
  | text (s : Text) (ne_nil : s.trim ≠ []) (no_separator : ∀ c ∈ separators, c ∉ s.trim) :
    DescribesToken separators (.string s) s.trim

/-- The spellings of a truth value. -/
def wordsFor (b : Bool) : List Text := if b then trueWords else falseWords

/-- A truth value for itself, the numbers 1 and 0, and the usual words in any case
of letters. -/
inductive DescribesBoolean : Value → Bool → Prop
  | bool (b : Bool) : DescribesBoolean (.bool b) b
  | int (b : Bool) : DescribesBoolean (.int b.toInt) b
  | float (x : Binary64) (b : Bool) (integral : x.toInt? = some b.toInt) :
    DescribesBoolean (.float x) b
  | word (s : Text) (b : Bool) (spelled : s.lowercase ∈ wordsFor b) :
    DescribesBoolean (.string s) b

-- ---------------------------------------------------------------------------
-- Lists and fields
-- ---------------------------------------------------------------------------

/-- A list that describes values one by one. -/
def DescribesList (P : Value → α → Prop) (v : Value) (xs : List α) : Prop :=
  ∃ items, v = .array items ∧ List.Forall₂ P items xs

/-- An object whose field of this name describes the value. -/
def FieldDescribes (P : Value → α → Prop) (v : Value) (name : String) (x : α) : Prop :=
  ∃ w, v.field? name.text = some w ∧ P w x

/-- The same, or the field is left out and the value is the one for its absence. -/
def FieldDescribesOr (P : Value → α → Prop) (default : α) (v : Value) (name : String) (x : α) :
    Prop :=
  (v.field? name.text = none ∧ x = default) ∨ FieldDescribes P v name x

-- ---------------------------------------------------------------------------
-- Parts of a document
-- ---------------------------------------------------------------------------

/-- An object with three tokens. -/
structure DescribesDependency (v : Value) (d : Coordinate) : Prop where
  group : FieldDescribes (DescribesToken coordinateSeparators) v "group" d.group
  artifact : FieldDescribes (DescribesToken coordinateSeparators) v "artifact" d.artifact
  version : FieldDescribes (DescribesToken coordinateSeparators) v "version" d.version

/-- An object with a token for the name; it can be resolved, and to nothing, if it
does not say otherwise. -/
structure DescribesConfiguration (v : Value) (conf : Configuration) : Prop where
  name : FieldDescribes (DescribesToken configurationSeparators) v "name" conf.name
  resolvable : FieldDescribesOr DescribesBoolean true v "can_be_resolved" conf.resolvable
  resolved : FieldDescribesOr (DescribesList DescribesDependency) [] v "resolved" conf.resolved

/-- An object with a name; it is the root module, without group and configurations,
if it does not say otherwise. The module is known by its path in normal form. -/
structure DescribesModule (v : Value) (e : Text × Project) : Prop where
  path : ∃ written, FieldDescribesOr DescribesText [] v "path" written ∧
    e.1 = ModulePath.ofSnapshot written
  name : FieldDescribes DescribesText v "name" e.2.name
  group : FieldDescribesOr DescribesOptionalText none v "group" e.2.group
  configurations : FieldDescribesOr (DescribesList DescribesConfiguration) [] v "configurations"
    e.2.configurations

/-- An object with the list of its modules. -/
def DescribesBuild (v : Value) (es : List (Text × Project)) : Prop :=
  FieldDescribes (DescribesList DescribesModule) v "modules" es

-- ---------------------------------------------------------------------------
-- What is written in a field
-- ---------------------------------------------------------------------------

section Written

variable {P : Value → α → Prop} {v : Value} {name : String}

theorem FieldDescribes.textAt? {t : Text} (h : FieldDescribes DescribesText v name t) :
    v.textAt? name = some t := by
  obtain ⟨w, hw, rfl⟩ := h
  rw [Value.textAt?, hw]

/-- A field describes one text at most. -/
theorem FieldDescribesOr.text_unique {default s t : Text}
    (h : FieldDescribesOr DescribesText default v name s)
    (h' : FieldDescribesOr DescribesText default v name t) : s = t := by
  rcases h with ⟨hNone, rfl⟩ | h
  · rcases h' with ⟨-, rfl⟩ | ⟨w, hw, -⟩
    · rfl
    · exact absurd (hNone.symm.trans hw) (by simp)
  · rcases h' with ⟨hNone, -⟩ | h'
    · obtain ⟨w, hw, -⟩ := h
      exact absurd (hNone.symm.trans hw) (by simp)
    · exact Option.some.inj (h.textAt?.symm.trans h'.textAt?)

/-- A field that may be left out or null, or else is a text, has this text if it has one. -/
theorem FieldDescribesOr.textAt? {t : Option Text}
    (h : FieldDescribesOr DescribesOptionalText none v name t) : v.textAt? name = t := by
  rcases h with ⟨hNone, rfl⟩ | ⟨w, hw, hDescribed⟩
  · rw [Value.textAt?, hNone]
  · rw [Value.textAt?, hw]
    cases hDescribed <;> rfl

/-- A token is what is written without the blanks at its ends. -/
theorem FieldDescribes.eq_trim {separators : List Letter} {s t : Text}
    (h : FieldDescribes (DescribesToken separators) v name t) (hs : v.textAt? name = some s) :
    t = s.trim := by
  obtain ⟨w, hw, written, -, -⟩ := h
  rw [Value.textAt?, hw] at hs
  rw [Option.some.inj hs]

/-- The items of a list describe the values one by one. -/
theorem FieldDescribes.forall₂_itemsAt {xs : List α}
    (h : FieldDescribes (DescribesList P) v name xs) : List.Forall₂ P (v.itemsAt name) xs := by
  obtain ⟨w, hw, items, rfl, hItems⟩ := h
  rwa [Value.itemsAt, hw]

theorem FieldDescribesOr.forall₂_itemsAt {xs : List α}
    (h : FieldDescribesOr (DescribesList P) [] v name xs) : List.Forall₂ P (v.itemsAt name) xs := by
  rcases h with ⟨hNone, rfl⟩ | h
  · rw [Value.itemsAt, hNone]
    exact .nil
  · exact h.forall₂_itemsAt

end Written

/-- Of two lists that are related item by item, each item of the first is related to
one of the second. -/
theorem exists_right_of_forall₂ {β : Type} {R : α → β → Prop} {xs : List α} {ys : List β}
    (h : List.Forall₂ R xs ys) {x : α} (hx : x ∈ xs) : ∃ y ∈ ys, R x y := by
  obtain ⟨i, hi, rfl⟩ := List.mem_iff_getElem.1 hx
  have hi' : i < ys.length := h.length_eq ▸ hi
  exact ⟨ys[i], List.getElem_mem hi', h.get hi hi'⟩

theorem exists_left_of_forall₂ {β : Type} {R : α → β → Prop} {xs : List α} {ys : List β}
    (h : List.Forall₂ R xs ys) {y : β} (hy : y ∈ ys) : ∃ x ∈ xs, R x y :=
  exists_right_of_forall₂ h.flip hy

-- ---------------------------------------------------------------------------
-- Checks that have a value
-- ---------------------------------------------------------------------------

namespace Checked

variable {β : Type}

theorem complain_ne_ok {place : List Segment} {problem : Problem} {x : α} :
    complain place problem ≠ .ok x := by
  simp [complain]

theorem map_eq_ok_iff {f : α → β} {a : Checked α} {y : β} :
    a.map f = .ok y ↔ ∃ x, a = .ok x ∧ f x = y := by
  cases a <;> simp [Except.map]

theorem both_eq_ok_iff {a : Checked α} {b : Checked β} {x : α} {y : β} :
    both a b = .ok (x, y) ↔ a = .ok x ∧ b = .ok y := by
  cases a <;> cases b <;> simp [both]

/-- Each value of a list has its own check. -/
theorem all_eq_ok_iff {checks : List (Checked α)} {xs : List α} :
    all checks = .ok xs ↔ List.Forall₂ (fun a x => a = .ok x) checks xs := by
  induction checks generalizing xs with
  | nil => cases xs <;> simp [all]
  | cons a rest ih =>
    cases xs with
    | nil => simp [all, map_eq_ok_iff]
    | cons y ys => simp [all, map_eq_ok_iff, both_eq_ok_iff, ih]

end Checked

/-- The check has just the values that are described, wherever the value stands. -/
def IsCheckFor (check : List Segment → Value → Checked α) (P : Value → α → Prop) : Prop :=
  ∀ place v x, check place v = .ok x ↔ P v x

-- ---------------------------------------------------------------------------
-- Checks of plain values
-- ---------------------------------------------------------------------------

theorem isCheckFor_text : IsCheckFor text DescribesText := by
  intro place v t
  cases v <;> simp [text, DescribesText, Checked.complain]

/-- A text passes for itself and null for none, and nothing else passes. -/
theorem isCheckFor_optionalText : IsCheckFor optionalText DescribesOptionalText := by
  intro place v t
  constructor
  · intro h
    -- of the seven kinds of values two pass
    cases v with
    | null =>
      obtain rfl := Except.ok.inj h
      exact .null
    | string s =>
      obtain rfl := Except.ok.inj h
      exact .text s
    | bool b => exact absurd h Checked.complain_ne_ok
    | int n => exact absurd h Checked.complain_ne_ok
    | float x => exact absurd h Checked.complain_ne_ok
    | array items => exact absurd h Checked.complain_ne_ok
    | object fields => exact absurd h Checked.complain_ne_ok
  · rintro (_ | t)
    · rfl
    · rfl

/-- A text passes for what stands between the blanks at its ends, unless nothing
does or a separator is among it. -/
theorem token?_eq_ok_iff {separators : List Letter} {s t : Text} :
    token? separators s = .ok t ↔
      t = s.trim ∧ s.trim ≠ [] ∧ ∀ c ∈ separators, c ∉ s.trim := by
  have hBad : (separators.filter fun c => s.trim.contains c).isEmpty = true ↔
      ∀ c ∈ separators, c ∉ s.trim := by
    rw [List.isEmpty_iff, List.filter_eq_nil_iff]
    simp
  simp only [token?, hBad, List.isEmpty_iff]
  by_cases hEmpty : s.trim = []
  · simp [hEmpty]
  · by_cases hno : ∀ c ∈ separators, c ∉ s.trim
    · rw [if_neg hEmpty, if_pos hno, Except.ok.injEq, eq_comm]
      exact (and_iff_left ⟨hEmpty, hno⟩).symm
    · simp [hEmpty, hno]

/-- Tokens pass as the grammar has them. What passes is the trimmed text: blanks at
the ends are taken off before the separators are looked for. -/
theorem isCheckFor_token (separators : List Letter) :
    IsCheckFor (token separators) (DescribesToken separators) := by
  intro place v t
  constructor
  · intro h
    -- the check of a text comes first, then that of its letters
    unfold token at h
    split at h
    · exact absurd h (by simp)
    next s hText =>
    obtain rfl := (isCheckFor_text place v s).1 hText
    split at h
    · next u hu =>
      obtain rfl := Except.ok.inj h
      obtain ⟨rfl, hne, hno⟩ := token?_eq_ok_iff.1 hu
      exact .text s hne hno
    · exact absurd h Checked.complain_ne_ok
  · rintro ⟨s, hne, hno⟩
    have hToken : token? separators s = .ok s.trim := token?_eq_ok_iff.2 ⟨rfl, hne, hno⟩
    simp [token, text, hToken]

/-- Of the numbers, 1 and 0 are truth values; it does not matter whether another one
would fit a word of the machine, which only decides about the complaint. -/
theorem booleanOfInt_eq_ok_iff {place : List Segment} {fit : Bool} {n : Int} {b : Bool} :
    booleanOfInt place fit n = .ok b ↔ n = b.toInt := by
  unfold booleanOfInt
  by_cases h0 : n = 0
  · subst h0
    cases b <;> simp
  · by_cases h1 : n = 1
    · subst h1
      cases b <;> simp
    · cases b <;> simp [h0, h1, Checked.complain]

/-- No word spells both truth values. -/
theorem not_mem_falseWords {s : Text} (h : s ∈ trueWords) : s ∉ falseWords := by
  have hAll : ∀ s ∈ trueWords, s ∉ falseWords := by decide
  exact hAll s h

/-- The words are made of characters, and the case of letters does not make a character of a half.
-/
theorem any_isHalf_of_mem_words {s : Text} {b : Bool} (h : s.lowercase ∈ wordsFor b) :
    s.any Letter.isHalf = false := by
  have hWords : ∀ b, ∀ word ∈ wordsFor b, word.any Letter.isHalf = false := by decide
  have hLetters : s.lowercase.any Letter.isHalf = s.any Letter.isHalf := by
    rw [Text.lowercase, List.any_map]
    refine congrArg s.any (funext fun c => ?_)
    cases c <;> rfl
  exact hLetters.symm.trans (hWords b _ h)

/-- Truth values pass in each of their spellings, and nothing else does. A float passes as the whole
number that it is, and a word in any case of its letters. -/
theorem isCheckFor_boolean : IsCheckFor boolean DescribesBoolean := by
  intro place v b
  constructor
  · intro h
    -- the four kinds of values that may be truth values, then those that never are
    cases v with
    | bool b' =>
      obtain rfl := Except.ok.inj h
      exact .bool b'
    | int n =>
      obtain rfl := booleanOfInt_eq_ok_iff.1 h
      exact .int b
    | float x =>
      simp only [boolean] at h
      split at h
      · next n hn =>
        obtain rfl := booleanOfInt_eq_ok_iff.1 h
        exact .float x b hn
      · exact absurd h Checked.complain_ne_ok
    | string s =>
      simp only [boolean, List.contains_iff_mem] at h
      split at h
      · exact absurd h Checked.complain_ne_ok
      split at h
      · next hWord =>
        obtain rfl := Except.ok.inj h
        exact .word s true hWord
      split at h
      · next hWord =>
        obtain rfl := Except.ok.inj h
        exact .word s false hWord
      · exact absurd h Checked.complain_ne_ok
    | null => exact absurd h Checked.complain_ne_ok
    | array items => exact absurd h Checked.complain_ne_ok
    | object fields => exact absurd h Checked.complain_ne_ok
  · intro h
    cases h with
    | bool => rfl
    | int => exact booleanOfInt_eq_ok_iff.2 rfl
    | float x _ hx =>
      simp only [boolean, hx]
      exact booleanOfInt_eq_ok_iff.2 rfl
    -- a text with half of a surrogate pair is refused before its letters are looked at, but no
    -- spelling has one
    | word s _ hs =>
      simp only [boolean, List.contains_iff_mem, any_isHalf_of_mem_words hs, Bool.false_eq_true, if_false]
      cases b with
      | true => exact if_pos hs
      | false => exact (if_neg fun hTrue => not_mem_falseWords hTrue hs).trans (if_pos hs)

-- ---------------------------------------------------------------------------
-- Checks of lists and fields
-- ---------------------------------------------------------------------------

section Fields

variable {check : List Segment → Value → Checked α} {P : Value → α → Prop} {place : List Segment}
  {fields : List (Text × Value)} {name : String} {x : α}

/-- A field that is required passes if it is there and its value passes. -/
theorem required_eq_ok_iff (h : IsCheckFor check P) :
    required check place fields name = .ok x ↔ FieldDescribes P (.object fields) name x := by
  simp only [required, FieldDescribes, Value.field?]
  cases fields.lookup name.text with
  | some w => simp [h _ w x]
  | none => simp [Checked.complain]

/-- A field that is optional passes if its value does, or if it is left out. -/
theorem optional_eq_ok_iff {default : α} (h : IsCheckFor check P) :
    optional check default place fields name = .ok x ↔
      FieldDescribesOr P default (.object fields) name x := by
  simp only [optional, FieldDescribesOr, FieldDescribes, Value.field?]
  cases fields.lookup name.text with
  | some w => simp [h _ w x]
  | none => simp [eq_comm]

/-- Each item is checked at a place of its own, which does not matter to its value.
A list passes if all of its items do. -/
theorem isCheckFor_list (h : IsCheckFor check P) : IsCheckFor (list check) (DescribesList P) := by
  intro place v xs
  -- for any number of the first item, since the items that follow are numbered from there on
  have hItems : ∀ (items : List Value) (k : Nat) (xs : List α),
      List.Forall₂ (fun a x => a = .ok x)
          ((items.zipIdx k).map fun e => check (indexAt place e.2) e.1) xs ↔
        List.Forall₂ P items xs := by
    intro items
    induction items with
    | nil => exact fun _ xs => by simp
    | cons w rest ih =>
      intro k xs
      cases xs with
      | nil => simp
      | cons y ys => simp [h _ w y, ih (k + 1) ys]
  have hArray : ∀ items, list check place (.array items) =
      Checked.all ((items.zipIdx 0).map fun e => check (indexAt place e.2) e.1) := fun _ => rfl
  cases v with
  | array items => simp [hArray, DescribesList, Checked.all_eq_ok_iff, hItems]
  | null => simp [list, DescribesList, Checked.complain]
  | bool b => simp [list, DescribesList, Checked.complain]
  | int n => simp [list, DescribesList, Checked.complain]
  | float y => simp [list, DescribesList, Checked.complain]
  | string s => simp [list, DescribesList, Checked.complain]
  | object fields => simp [list, DescribesList, Checked.complain]

/-- An object passes if its fields do, and nothing else passes for one. -/
theorem object_eq_ok_iff {shape : Shape} {v : Value}
    {check : List Segment → List (Text × Value) → Checked α} :
    object shape check place v = .ok x ↔
      ∃ fields, v = .object fields ∧ check place fields = .ok x := by
  cases v <;> simp [object, Checked.complain]

/-- Only objects have fields. -/
theorem FieldDescribes.exists_object {v : Value} (h : FieldDescribes P v name x) :
    ∃ fields, v = .object fields := by
  obtain ⟨w, hw, -⟩ := h
  unfold Value.field? at hw
  split at hw
  · exact ⟨_, rfl⟩
  · exact absurd hw (by simp)

end Fields

-- ---------------------------------------------------------------------------
-- Checks of the parts of a document
-- ---------------------------------------------------------------------------

theorem isCheckFor_dependency : IsCheckFor dependency DescribesDependency := by
  intro place v d
  -- the three fields are asked for in the same way
  have hPart {fields : List (Text × Value)} {name : String} {t : Text} :
      required (token coordinateSeparators) place fields name = .ok t ↔
        FieldDescribes (DescribesToken coordinateSeparators) (.object fields) name t :=
    required_eq_ok_iff (isCheckFor_token coordinateSeparators)
  rw [dependency, object_eq_ok_iff]
  simp only [Checked.map_eq_ok_iff, Prod.exists, Checked.both_eq_ok_iff]
  constructor
  · rintro ⟨fields, rfl, g, a, w, ⟨hg, ha, hw⟩, rfl⟩
    exact ⟨hPart.1 hg, hPart.1 ha, hPart.1 hw⟩
  · intro h
    obtain ⟨fields, rfl⟩ := h.group.exists_object
    exact ⟨fields, rfl, d.group, d.artifact, d.version,
      ⟨hPart.2 h.group, hPart.2 h.artifact, hPart.2 h.version⟩, rfl⟩

theorem isCheckFor_configuration : IsCheckFor configuration DescribesConfiguration := by
  intro place v conf
  rw [configuration, object_eq_ok_iff]
  simp only [Checked.map_eq_ok_iff, Prod.exists, Checked.both_eq_ok_iff]
  constructor
  · rintro ⟨fields, rfl, n, r, ds, ⟨hn, hr, hds⟩, rfl⟩
    exact ⟨(required_eq_ok_iff (isCheckFor_token _)).1 hn,
      (optional_eq_ok_iff isCheckFor_boolean).1 hr,
      (optional_eq_ok_iff (isCheckFor_list isCheckFor_dependency)).1 hds⟩
  · intro h
    obtain ⟨fields, rfl⟩ := h.name.exists_object
    exact ⟨fields, rfl, conf.name, conf.resolvable, conf.resolved,
      ⟨(required_eq_ok_iff (isCheckFor_token _)).2 h.name,
        (optional_eq_ok_iff isCheckFor_boolean).2 h.resolvable,
        (optional_eq_ok_iff (isCheckFor_list isCheckFor_dependency)).2 h.resolved⟩, rfl⟩

/-- A module passes as the grammar has it. Its path is brought into normal form
after the check, which is not said by the grammar of the field. -/
theorem isCheckFor_module : IsCheckFor module DescribesModule := by
  intro place v e
  rw [module, object_eq_ok_iff]
  simp only [Checked.map_eq_ok_iff, Prod.exists, Checked.both_eq_ok_iff]
  constructor
  · rintro ⟨fields, rfl, path, n, g, confs, ⟨hPath, hn, hg, hConfs⟩, rfl⟩
    exact ⟨⟨path, (optional_eq_ok_iff isCheckFor_text).1 hPath, rfl⟩,
      (required_eq_ok_iff isCheckFor_text).1 hn,
      (optional_eq_ok_iff isCheckFor_optionalText).1 hg,
      (optional_eq_ok_iff (isCheckFor_list isCheckFor_configuration)).1 hConfs⟩
  · intro h
    obtain ⟨fields, rfl⟩ := h.name.exists_object
    -- the document gives some path, of which the module has the normal form
    obtain ⟨path, hPath, hNormal⟩ := h.path
    exact ⟨fields, rfl, path, e.2.name, e.2.group, e.2.configurations,
      ⟨(optional_eq_ok_iff isCheckFor_text).2 hPath,
        (required_eq_ok_iff isCheckFor_text).2 h.name,
        (optional_eq_ok_iff isCheckFor_optionalText).2 h.group,
        (optional_eq_ok_iff (isCheckFor_list isCheckFor_configuration)).2 h.configurations⟩,
      by rw [← hNormal]⟩

/-- The modules of a document are those that it describes. With this the
checks, which also collect complaints, are compared with a grammar that knows
nothing of places. -/
theorem modules_eq_ok_iff {v : Value} {es : List (Text × Project)} :
    modules v = .ok es ↔ DescribesBuild v es := by
  have hField {fields : List (Text × Value)} :
      required (list module) [] fields "modules" = .ok es ↔ DescribesBuild (.object fields) es :=
    required_eq_ok_iff (isCheckFor_list isCheckFor_module)
  rw [modules, object_eq_ok_iff]
  constructor
  · rintro ⟨fields, rfl, h⟩
    exact hField.1 h
  · intro h
    obtain ⟨fields, rfl⟩ := FieldDescribes.exists_object h
    exact ⟨fields, rfl, hField.2 h⟩

end Snapshot

end Lockstep
