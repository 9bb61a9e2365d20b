import Mathlib.Data.List.Nodup
import Lockstep.Proofs.Snapshot.Grammar

/-!
# Lockstep — the offending places of a document

Below each value of a document stand the values that are asked about for
themselves: the fields of an object and the items of a list. A place **offends** if
it can be reached through values of the right kind and the value there is not of
the kind asked for, or a field is missing that has to be there (`Part.Offends`).

* `Part.fields`, `Part.item?`, `Part.Fits` — what is asked of each part.
* `Reports` — a check complains about the offending places, and about each of them
  once; so does the check of a whole document (`reports_modules`).
-/

namespace Lockstep

namespace Snapshot

open Json (Value)

-- ---------------------------------------------------------------------------
-- What is asked for
-- ---------------------------------------------------------------------------

/-- What can be asked of a value. -/
inductive Part where
  | build
  | modules
  | module
  | configurations
  | configuration
  | dependencies
  | dependency
  | text
  | optionalText
  | boolean
  | token (separators : List Letter)

/-- A field of an object, and what is asked of its value. -/
structure FieldRule where
  name : String
  part : Part
  /-- Whether the field has to be there. -/
  isRequired : Bool

/-- The step from an object to this field of it. -/
def FieldRule.segment (rule : FieldRule) : Segment := .field rule.name.text

namespace Part

/-- The fields of an object that are looked at. -/
def fields : Part → List FieldRule
  | .build => [⟨"modules", .modules, true⟩]
  | .module => [⟨"path", .text, false⟩, ⟨"name", .text, true⟩, ⟨"group", .optionalText, false⟩,
      ⟨"configurations", .configurations, false⟩]
  | .configuration => [⟨"name", .token configurationSeparators, true⟩,
      ⟨"can_be_resolved", .boolean, false⟩, ⟨"resolved", .dependencies, false⟩]
  | .dependency => [⟨"group", .token coordinateSeparators, true⟩,
      ⟨"artifact", .token coordinateSeparators, true⟩,
      ⟨"version", .token coordinateSeparators, true⟩]
  | _ => []

/-- What is asked of each item of a list. -/
def item? : Part → Option Part
  | .modules => some .module
  | .configurations => some .configuration
  | .dependencies => some .dependency
  | _ => none

/-- The value is of the kind asked for, whatever stands in its fields or items. -/
def Fits : Part → Value → Prop
  | .build, v | .module, v | .configuration, v | .dependency, v => ∃ fields, v = .object fields
  | .modules, v | .configurations, v | .dependencies, v => ∃ items, v = .array items
  | .text, v => ∃ t, DescribesText v t
  | .optionalText, v => ∃ t, DescribesOptionalText v t
  | .boolean, v => ∃ b, DescribesBoolean v b
  | .token separators, v => ∃ t, DescribesToken separators v t

/-- The places, as seen from a value, that are not as they must be. -/
inductive Offends : Part → Value → List Segment → Prop
  /-- The value is not of the kind asked for. -/
  | unfit {part : Part} {v : Value} (h : ¬ part.Fits v) : Offends part v []
  /-- A field is missing. -/
  | missing {part : Part} {fields : List (Text × Value)} {rule : FieldRule}
    (hRule : rule ∈ part.fields) (hRequired : rule.isRequired = true)
    (hMissing : fields.lookup rule.name.text = none) :
    Offends part (.object fields) [rule.segment]
  /-- A place in the value of a field. -/
  | field {part : Part} {fields : List (Text × Value)} {rule : FieldRule} {w : Value}
    {place : List Segment} (hRule : rule ∈ part.fields)
    (hField : fields.lookup rule.name.text = some w) (h : Offends rule.part w place) :
    Offends part (.object fields) (rule.segment :: place)
  /-- A place in an item. -/
  | item {part part' : Part} {items : List Value} {i : Nat} {w : Value} {place : List Segment}
    (hPart : part.item? = some part') (hItem : items[i]? = some w) (h : Offends part' w place) :
    Offends part (.array items) (.index i :: place)

end Part

/-- The places, as seen from the value of a field, at which the field offends. -/
def FieldRule.Offends (rule : FieldRule) (fields : List (Text × Value)) (place : List Segment) : Prop :=
  match fields.lookup rule.name.text with
  | none => rule.isRequired = true ∧ place = []
  | some w => rule.part.Offends w place

/-- The places, as seen from an object, at which one of these fields offends. -/
def OffendsIn (rules : List FieldRule) (fields : List (Text × Value)) (place : List Segment) : Prop :=
  ∃ rule ∈ rules, ∃ rest, rule.Offends fields rest ∧ place = rule.segment :: rest

section Offends

variable {part part' : Part} {v : Value} {place : List Segment}

/-- Nothing below a value that is not of the kind asked for is looked at. -/
theorem Part.offends_of_unfit (hObject : ∀ fields, v = .object fields → part.fields = [])
    (hArray : ∀ items, v = .array items → part.item? = none) (h : ¬ part.Fits v) :
    part.Offends v place ↔ place = [] := by
  constructor
  · rintro (_ | ⟨hRule, _, _⟩ | ⟨hRule, _, _⟩ | ⟨hPart, _, _⟩)
    · rfl
    · rw [hObject _ rfl] at hRule
      exact absurd hRule List.not_mem_nil
    · rw [hObject _ rfl] at hRule
      exact absurd hRule List.not_mem_nil
    · rw [hArray _ rfl] at hPart
      exact absurd hPart (by simp)
  · rintro rfl
    exact .unfit h

/-- Below an object of the right kind, places offend in its fields. Fields that are
not named in the table are not looked at, whatever they hold. -/
theorem Part.offends_object_iff {fields : List (Text × Value)} (h : part.Fits (.object fields)) :
    part.Offends (.object fields) place ↔ OffendsIn part.fields fields place := by
  constructor
  · rintro (hUnfit | ⟨hRule, hRequired, hMissing⟩ | ⟨hRule, hField, hRest⟩)
    · exact absurd h hUnfit
    · exact ⟨_, hRule, [], by simp [FieldRule.Offends, hMissing, hRequired], rfl⟩
    · exact ⟨_, hRule, _, by simpa [FieldRule.Offends, hField] using hRest, rfl⟩
  · rintro ⟨rule, hRule, rest, hRest, rfl⟩
    unfold FieldRule.Offends at hRest
    split at hRest
    · next hMissing =>
      obtain ⟨hRequired, rfl⟩ := hRest
      exact .missing hRule hRequired hMissing
    · next w hField => exact .field hRule hField hRest

/-- Below a list of the right kind, places offend in its items, each of which has its number. -/
theorem Part.offends_array_iff {items : List Value} (hPart : part.item? = some part')
    (h : part.Fits (.array items)) :
    part.Offends (.array items) place ↔
      ∃ e ∈ items.zipIdx, ∃ rest, part'.Offends e.1 rest ∧ place = .index e.2 :: rest := by
  constructor
  · rintro (hUnfit | _ | _ | ⟨hPart', hItem, hRest⟩)
    · exact absurd h hUnfit
    · rw [hPart, Option.some.injEq] at hPart'
      subst hPart'
      exact ⟨(_, _), List.mem_zipIdx_iff_getElem?.2 hItem, _, hRest, rfl⟩
  · rintro ⟨⟨w, i⟩, he, rest, hRest, rfl⟩
    exact .item hPart (List.mem_zipIdx_iff_getElem?.1 he) hRest

end Offends

-- ---------------------------------------------------------------------------
-- The places of complaints
-- ---------------------------------------------------------------------------

namespace Checked

variable {α β : Type}

/-- The places that are complained about. -/
def places (a : Checked α) : List (List Segment) := a.complaints.map (·.place)

@[simp] theorem places_ok (x : α) : places (.ok x : Checked α) = [] := rfl

@[simp] theorem places_complain (place : List Segment) (problem : Problem) :
    (complain place problem : Checked α).places = [place] := rfl

@[simp] theorem places_both (a : Checked α) (b : Checked β) :
    (both a b).places = a.places ++ b.places := by
  cases a <;> cases b <;> simp [both, places, complaints]

@[simp] theorem places_map (f : α → β) (a : Checked α) : places (a.map f) = a.places := by
  cases a <;> rfl

theorem places_all (checks : List (Checked α)) : (all checks).places = checks.flatMap places := by
  induction checks with
  | nil => rfl
  | cons a rest ih => simp [all, ih]

end Checked

/-- These are the places below the base that are described, and each of them once. -/
structure Locates (places : List (List Segment)) (base : List Segment) (P : List Segment → Prop) :
    Prop where
  nodup : places.Nodup
  mem_iff : ∀ q, q ∈ places ↔ ∃ rest, P rest ∧ q = base ++ rest

section Locates

variable {places places' : List (List Segment)} {base : List Segment} {P Q : List Segment → Prop}

theorem Locates.congr (h : Locates places base P) (hPQ : ∀ rest, P rest ↔ Q rest) :
    Locates places base Q where
  nodup := h.nodup
  mem_iff := fun q => by simp only [h.mem_iff, hPQ]

/-- No place is described where none is complained about. -/
theorem locates_nil (h : ∀ rest, ¬ P rest) : Locates [] base P :=
  ⟨List.nodup_nil, fun q => by simp [h]⟩

/-- A complaint about the value itself is one about the base. -/
theorem locates_base (h : ∀ rest, P rest ↔ rest = []) : Locates [base] base P :=
  ⟨List.nodup_singleton base, fun q => by simp [h]⟩

/-- Places below a step from the base are places below the base that begin with this step. -/
theorem Locates.below {s : Segment} (h : Locates places (base ++ [s]) P) :
    Locates places base fun q => ∃ rest, P rest ∧ q = s :: rest where
  nodup := h.nodup
  mem_iff := by
    intro q
    rw [h.mem_iff]
    constructor
    · rintro ⟨rest, hRest, rfl⟩
      exact ⟨s :: rest, ⟨rest, hRest, rfl⟩, by simp⟩
    · rintro ⟨_, ⟨rest, hRest, rfl⟩, rfl⟩
      exact ⟨rest, hRest, by simp⟩

/-- Places of two kinds without common places are located together. -/
theorem Locates.append (h : Locates places base P) (h' : Locates places' base Q)
    (hDisjoint : ∀ q, P q → ¬ Q q) : Locates (places ++ places') base fun q => P q ∨ Q q where
  nodup := by
    refine List.nodup_append'.2 ⟨h.nodup, h'.nodup, List.disjoint_left.2 fun q hq hq' => ?_⟩
    obtain ⟨rest, hRest, rfl⟩ := (h.mem_iff q).1 hq
    obtain ⟨rest', hRest', heq⟩ := (h'.mem_iff _).1 hq'
    rw [List.append_cancel_left_eq] at heq
    exact hDisjoint rest hRest (heq ▸ hRest')
  mem_iff := fun q => by simp only [List.mem_append, h.mem_iff, h'.mem_iff, or_and_right, exists_or]

/-- Places below different steps from the base are different places. So the
complaints about the items of a list need not be compared with each other. -/
theorem Locates.flatMap {ι : Type} {segment : ι → Segment} {places : ι → List (List Segment)}
    {P : ι → List Segment → Prop} {xs : List ι} (hSegments : (xs.map segment).Nodup)
    (h : ∀ x ∈ xs, Locates (places x) (base ++ [segment x]) (P x)) :
    Locates (xs.flatMap places) base
      fun q => ∃ x ∈ xs, ∃ rest, P x rest ∧ q = segment x :: rest := by
  induction xs with
  | nil => exact locates_nil fun rest => by simp
  | cons x rest ih =>
    obtain ⟨hx, hRest⟩ := List.nodup_cons.1 hSegments
    have hFirst := (h x List.mem_cons_self).below
    have hOthers := ih hRest fun y hy => h y (List.mem_cons_of_mem _ hy)
    refine (hFirst.append hOthers ?_).congr fun q => by simp
    rintro _ ⟨below, -, rfl⟩ ⟨y, hy, below', -, heq⟩
    exact hx (List.mem_map.2 ⟨y, hy, (List.cons.inj heq).1.symm⟩)

variable {fields : List (Text × Value)} {rule : FieldRule} {rules : List FieldRule}

theorem locates_field (h : Locates places (base ++ [rule.segment]) (rule.Offends fields)) :
    Locates places base (OffendsIn [rule] fields) :=
  h.below.congr fun q => by simp [OffendsIn]

/-- The places in one field more, of another name. -/
theorem Locates.cons (h : Locates places (base ++ [rule.segment]) (rule.Offends fields))
    (hNew : rule.segment ∉ rules.map FieldRule.segment)
    (hRules : Locates places' base (OffendsIn rules fields)) :
    Locates (places ++ places') base (OffendsIn (rule :: rules) fields) := by
  refine (h.below.append hRules ?_).congr fun q => by simp [OffendsIn]
  rintro _ ⟨below, -, rfl⟩ ⟨rule', hRule', below', -, heq⟩
  exact hNew (List.mem_map.2 ⟨rule', hRule', (List.cons.inj heq).1.symm⟩)

end Locates

-- ---------------------------------------------------------------------------
-- Reports of plain values, fields and lists
-- ---------------------------------------------------------------------------

variable {α : Type}

/-- The check complains about the offending places of a value, and about each of them once. -/
def Reports (check : List Segment → Value → Checked α) (part : Part) : Prop :=
  ∀ place v, Locates (check place v).places place (part.Offends v)

section Reports

variable {check : List Segment → Value → Checked α} {part part' : Part}

/-- The check has a value, or one complaint, about the place of the value itself. -/
def ComplainsOnce (check : List Segment → Value → Checked α) : Prop :=
  ∀ place v, (∃ x, check place v = .ok x) ∨
    ∃ problem, check place v = Checked.complain place problem

/-- In a plain value nothing is asked about but the value itself. There is one
complaint or none, and it is about the place of the value. -/
theorem reports_plain {P : Value → α → Prop} (hFields : part.fields = [])
    (hItem : part.item? = none) (hFits : ∀ v, part.Fits v ↔ ∃ x, P v x) (hCheck : IsCheckFor check P)
    (hOne : ComplainsOnce check) : Reports check part := by
  intro place v
  rcases hOne place v with ⟨x, hx⟩ | ⟨problem, hProblem⟩
  · have hFit : part.Fits v := (hFits v).2 ⟨x, (hCheck place v x).1 hx⟩
    rw [hx]
    refine locates_nil fun rest hOffends => ?_
    -- a plain value has neither fields nor items, so that only `unfit` is left, which the value
    -- contradicts
    cases hOffends with
    | unfit h => exact h hFit
    | missing hRule => exact absurd (hFields ▸ hRule) List.not_mem_nil
    | field hRule => exact absurd (hFields ▸ hRule) List.not_mem_nil
    | item hPart => exact absurd (hItem ▸ hPart) (by simp)
  · have hUnfit : ¬ part.Fits v := by
      rw [hFits]
      rintro ⟨x, hx⟩
      rw [← hCheck place v x, hProblem] at hx
      exact Checked.complain_ne_ok hx
    rw [hProblem]
    exact locates_base fun rest =>
      Part.offends_of_unfit (fun _ _ => hFields) (fun _ _ => hItem) hUnfit

/-- The check of a required field complains about the field itself if it is missing,
and else about places in its value. -/
theorem locates_required (rule : FieldRule) (hRequired : rule.isRequired = true)
    (h : Reports check rule.part) (base : List Segment) (fields : List (Text × Value)) :
    Locates (required check base fields rule.name).places (base ++ [rule.segment])
      (rule.Offends fields) := by
  unfold required FieldRule.Offends
  cases fields.lookup rule.name.text with
  | none => exact locates_base fun rest => by simp [hRequired]
  | some w => exact h _ w

/-- The check of an optional field complains about places in its value, if there is one. -/
theorem locates_optional (rule : FieldRule) (default : α) (hRequired : rule.isRequired = false)
    (h : Reports check rule.part) (base : List Segment) (fields : List (Text × Value)) :
    Locates (optional check default base fields rule.name).places (base ++ [rule.segment])
      (rule.Offends fields) := by
  unfold optional FieldRule.Offends
  cases fields.lookup rule.name.text with
  | none => exact locates_nil fun rest => by simp [hRequired]
  | some w => exact h _ w

/-- The check of an object reports what the checks of its fields locate, or that it
is no object. -/
theorem reports_object {shape : Shape} {check : List Segment → List (Text × Value) → Checked α}
    (hItem : part.item? = none) (hFits : ∀ v, part.Fits v ↔ ∃ fields, v = .object fields)
    (h : ∀ place fields, Locates (check place fields).places place (OffendsIn part.fields fields)) :
    Reports (object shape check) part := by
  intro place v
  by_cases hObject : ∃ fields, v = .object fields
  · obtain ⟨fields, rfl⟩ := hObject
    exact (h place fields).congr fun rest =>
      (Part.offends_object_iff ((hFits _).2 ⟨fields, rfl⟩)).symm
  · -- of a value that is no object only the value itself is looked at
    have hComplain : object shape check place v = Checked.complain place (.notObject shape) := by
      unfold object
      split
      · exact absurd ⟨_, rfl⟩ hObject
      · rfl
    rw [hComplain]
    exact locates_base fun rest => Part.offends_of_unfit (fun fields heq => absurd ⟨fields, heq⟩ hObject)
      (fun _ _ => hItem) fun hFit => hObject ((hFits v).1 hFit)

/-- The check of a list reports what the checks of its items report, or that it is no list. -/
theorem reports_list (hPart : part.item? = some part') (hFields : part.fields = [])
    (hFits : ∀ v, part.Fits v ↔ ∃ items, v = .array items) (h : Reports check part') :
    Reports (list check) part := by
  intro place v
  by_cases hArray : ∃ items, v = .array items
  · obtain ⟨items, rfl⟩ := hArray
    -- items stand at different numbers, so that no place is below two of them
    have hSegments : (items.zipIdx.map fun e => Segment.index e.2).Nodup := by
      have hIndices : (items.zipIdx.map (·.2)).Nodup := by
        rw [List.zipIdx_map_snd]
        exact List.nodup_range' ..
      rw [show (fun e : Value × Nat => Segment.index e.2) = Segment.index ∘ (·.2) from rfl,
        ← List.map_map]
      exact hIndices.map fun _ _ heq => Segment.index.inj heq
    rw [list, Checked.places_all, List.flatMap_map]
    refine (Locates.flatMap hSegments fun e _ => h (indexAt place e.2) e.1).congr fun q => ?_
    exact (Part.offends_array_iff hPart ((hFits _).2 ⟨items, rfl⟩)).symm
  · have hComplain : list check place v = Checked.complain place .notList := by
      unfold list
      split
      · exact absurd ⟨_, rfl⟩ hArray
      · rfl
    rw [hComplain]
    exact locates_base fun rest => Part.offends_of_unfit (fun _ _ => hFields)
      (fun items heq => absurd ⟨items, heq⟩ hArray) fun hFit => hArray ((hFits v).1 hFit)

end Reports

-- ---------------------------------------------------------------------------
-- Reports of the parts of a document
-- ---------------------------------------------------------------------------

theorem complainsOnce_text : ComplainsOnce text := by
  intro place v
  cases v with
  | string s => exact Or.inl ⟨s, rfl⟩
  | _ => exact Or.inr ⟨_, rfl⟩

theorem complainsOnce_optionalText : ComplainsOnce optionalText := by
  intro place v
  cases v with
  | null => exact Or.inl ⟨none, rfl⟩
  | string s => exact Or.inl ⟨some s, rfl⟩
  | _ => exact Or.inr ⟨_, rfl⟩

/-- The check of a truth value has one complaint at most, whichever kind of value
it is given. -/
theorem complainsOnce_boolean : ComplainsOnce boolean := by
  -- whole numbers and floats without a fraction are checked alike
  have hNumber : ∀ (place : List Segment) (fit : Bool) (n : Int),
      (∃ b, booleanOfInt place fit n = .ok b) ∨
        ∃ problem, booleanOfInt place fit n = Checked.complain place problem := by
    intro place fit n
    unfold booleanOfInt
    split
    · exact Or.inl ⟨_, rfl⟩
    split
    · exact Or.inl ⟨_, rfl⟩
    · exact Or.inr ⟨_, rfl⟩
  intro place v
  cases v with
  | bool b => exact Or.inl ⟨b, rfl⟩
  | int n => exact hNumber place _ n
  | float x =>
    simp only [boolean]
    split
    · exact hNumber place _ _
    · exact Or.inr ⟨_, rfl⟩
  | string s =>
    simp only [boolean]
    split
    · exact Or.inr ⟨_, rfl⟩
    split
    · exact Or.inl ⟨_, rfl⟩
    split
    · exact Or.inl ⟨_, rfl⟩
    · exact Or.inr ⟨_, rfl⟩
  | _ => exact Or.inr ⟨_, rfl⟩

/-- The check of a token has one complaint at most: the separators are looked at
only in what is not empty. -/
theorem complainsOnce_token (separators : List Letter) : ComplainsOnce (token separators) := by
  intro place v
  unfold token
  cases v with
  | string s =>
    simp only [text]
    split
    · exact Or.inl ⟨_, rfl⟩
    · exact Or.inr ⟨_, rfl⟩
  | _ => exact Or.inr ⟨_, rfl⟩

theorem reports_text : Reports text .text :=
  reports_plain rfl rfl (fun _ => Iff.rfl) isCheckFor_text complainsOnce_text

theorem reports_optionalText : Reports optionalText .optionalText :=
  reports_plain rfl rfl (fun _ => Iff.rfl) isCheckFor_optionalText complainsOnce_optionalText

theorem reports_boolean : Reports boolean .boolean :=
  reports_plain rfl rfl (fun _ => Iff.rfl) isCheckFor_boolean complainsOnce_boolean

theorem reports_token (separators : List Letter) :
    Reports (token separators) (.token separators) :=
  reports_plain rfl rfl (fun _ => Iff.rfl) (isCheckFor_token separators)
    (complainsOnce_token separators)

/-- The three fields of a dependency are located one after the other, each below
its own name. -/
theorem reports_dependency : Reports dependency .dependency := by
  refine reports_object rfl (fun _ => Iff.rfl) fun place fields => ?_
  have hPart (name : String) := locates_required ⟨name, .token coordinateSeparators, true⟩ rfl
    (reports_token coordinateSeparators) place fields
  rw [Checked.places_map, Checked.places_both, Checked.places_both]
  exact (hPart "group").cons (by decide) ((hPart "artifact").cons (by decide)
    (locates_field (hPart "version")))

/-- The fields of a configuration, of which only the name has to be there. -/
theorem reports_configuration : Reports configuration .configuration := by
  refine reports_object rfl (fun _ => Iff.rfl) fun place fields => ?_
  have hName := locates_required ⟨"name", .token configurationSeparators, true⟩ rfl
    (reports_token configurationSeparators) place fields
  have hResolvable := locates_optional ⟨"can_be_resolved", .boolean, false⟩ true rfl
    reports_boolean place fields
  have hResolved := locates_optional ⟨"resolved", .dependencies, false⟩ [] rfl
    (reports_list rfl rfl (fun _ => Iff.rfl) reports_dependency) place fields
  rw [Checked.places_map, Checked.places_both, Checked.places_both]
  exact hName.cons (by decide) (hResolvable.cons (by decide) (locates_field hResolved))

/-- The fields of a module, of which only the name has to be there. Its path
is checked as a text; that it is brought into normal form afterwards brings
no complaint. -/
theorem reports_module : Reports module .module := by
  refine reports_object rfl (fun _ => Iff.rfl) fun place fields => ?_
  have hPath := locates_optional ⟨"path", .text, false⟩ [] rfl reports_text place fields
  have hName := locates_required ⟨"name", .text, true⟩ rfl reports_text place fields
  have hGroup := locates_optional ⟨"group", .optionalText, false⟩ none rfl
    reports_optionalText place fields
  have hConfigurations := locates_optional ⟨"configurations", .configurations, false⟩ [] rfl
    (reports_list rfl rfl (fun _ => Iff.rfl) reports_configuration) place fields
  rw [Checked.places_map, Checked.places_both, Checked.places_both, Checked.places_both]
  exact hPath.cons (by decide) (hName.cons (by decide) (hGroup.cons (by decide)
    (locates_field hConfigurations)))

/-- The check of a document complains about its offending places, and about each
of them once. -/
theorem reports_modules (v : Value) : Locates (modules v).places [] (Part.build.Offends v) := by
  have hBuild : Reports (object .build fun place fields => required (list module) place fields "modules")
      .build := by
    refine reports_object rfl (fun _ => Iff.rfl) fun place fields => ?_
    exact locates_field (locates_required ⟨"modules", .modules, true⟩ rfl
      (reports_list rfl rfl (fun _ => Iff.rfl) reports_module) place fields)
  exact hBuild [] v

-- ---------------------------------------------------------------------------
-- A value or a complaint
-- ---------------------------------------------------------------------------

namespace Checked

variable {β : Type}

/-- A check without a value has a complaint. -/
def IsGrounded (a : Checked α) : Prop := a ≠ .error []

theorem isGrounded_ok (x : α) : IsGrounded (.ok x : Checked α) := fun h => by simp at h

theorem isGrounded_complain (place : List Segment) (problem : Problem) :
    IsGrounded (complain place problem : Checked α) := fun h => by simp [complain] at h

theorem IsGrounded.map {a : Checked α} (h : a.IsGrounded) (f : α → β) : IsGrounded (a.map f) := by
  cases a with
  | ok x => exact isGrounded_ok (f x)
  | error es => exact fun heq => h (by rw [Except.error.inj heq])

/-- Two checks together fail only if one of them does, and then with its complaints. -/
theorem IsGrounded.both {a : Checked α} {b : Checked β} (ha : a.IsGrounded) (hb : b.IsGrounded) :
    (both a b).IsGrounded := by
  cases a with
  | error es =>
    intro heq
    obtain ⟨rfl, -⟩ := List.append_eq_nil_iff.1 (Except.error.inj heq)
    exact ha rfl
  | ok x =>
    cases b with
    | ok y => exact isGrounded_ok (x, y)
    | error es => exact fun heq => hb (by rw [← Except.error.inj heq]; rfl)

/-- Checks of many values fail only with the complaints of one of them. -/
theorem isGrounded_all {checks : List (Checked α)} (h : ∀ a ∈ checks, a.IsGrounded) :
    (all checks).IsGrounded := by
  induction checks with
  | nil => exact isGrounded_ok []
  | cons a rest ih =>
    exact ((h a List.mem_cons_self).both (ih fun b hb => h b (List.mem_cons_of_mem _ hb))).map _

end Checked

/-- Wherever a value stands, the check has a value or a complaint. -/
def Answers (check : List Segment → Value → Checked α) : Prop :=
  ∀ place v, (check place v).IsGrounded

section Answers

variable {check : List Segment → Value → Checked α}

/-- A check with one complaint at most answers. -/
theorem ComplainsOnce.answers (h : ComplainsOnce check) : Answers check := by
  intro place v
  rcases h place v with ⟨x, hx⟩ | ⟨problem, hProblem⟩
  · rw [hx]
    exact Checked.isGrounded_ok x
  · rw [hProblem]
    exact Checked.isGrounded_complain place problem

/-- A required field that is missing is complained about, and else its value is answered for. -/
theorem Answers.required (h : Answers check) (place : List Segment) (fields : List (Text × Value))
    (name : String) : (required check place fields name).IsGrounded := by
  unfold Snapshot.required
  split
  · exact h _ _
  · exact Checked.isGrounded_complain _ _

/-- An optional field that is missing has its default, and else its value is answered for. -/
theorem Answers.optional (h : Answers check) (default : α) (place : List Segment)
    (fields : List (Text × Value)) (name : String) :
    (optional check default place fields name).IsGrounded := by
  unfold Snapshot.optional
  split
  · exact h _ _
  · exact Checked.isGrounded_ok default

/-- A list is answered for item by item. -/
theorem Answers.list (h : Answers check) : Answers (list check) := by
  intro place v
  unfold Snapshot.list
  split
  · refine Checked.isGrounded_all fun a ha => ?_
    obtain ⟨⟨w, i⟩, -, rfl⟩ := List.mem_map.1 ha
    exact h _ w
  · exact Checked.isGrounded_complain _ _

/-- An object is answered for field by field. -/
theorem answers_object {shape : Shape} {check : List Segment → List (Text × Value) → Checked α}
    (h : ∀ place fields, (check place fields).IsGrounded) : Answers (object shape check) := by
  intro place v
  unfold object
  split
  · exact h place _
  · exact Checked.isGrounded_complain _ _

end Answers

theorem answers_dependency : Answers dependency := by
  have hPart := (complainsOnce_token coordinateSeparators).answers.required
  exact answers_object fun place fields =>
    ((hPart place fields "group").both
      ((hPart place fields "artifact").both (hPart place fields "version"))).map _

theorem answers_configuration : Answers configuration :=
  answers_object fun place fields =>
    (((complainsOnce_token configurationSeparators).answers.required place fields "name").both
      ((complainsOnce_boolean.answers.optional true place fields "can_be_resolved").both
        (answers_dependency.list.optional [] place fields "resolved"))).map _

theorem answers_module : Answers module :=
  answers_object fun place fields =>
    ((complainsOnce_text.answers.optional [] place fields "path").both
      ((complainsOnce_text.answers.required place fields "name").both
        ((complainsOnce_optionalText.answers.optional none place fields "group").both
          (answers_configuration.list.optional [] place fields "configurations")))).map _

/-- No document is refused without a complaint. -/
theorem isGrounded_modules (v : Value) : (modules v).IsGrounded :=
  answers_object (fun place fields => answers_module.list.required place fields "modules") [] v

end Snapshot

end Lockstep
