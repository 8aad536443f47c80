import RuleTrade.Library.Json

/-! Documents without the items of arrays that a test tells to leave out. The test may
fail, and then there is no result. Items go with all that they hold; what is not an item of
an array stays. -/

namespace Library

namespace Json

abbrev Fields := List (String × Json)

section Definitions

variable (gone : Json → Option Bool)

mutual

def prune : Json → Option Json
  | .array items => (pruneItems items).map .array
  | .object fields => (pruneFields fields).map .object
  | value => some value

def pruneItems : List Json → Option (List Json)
  | [] => some []
  | item :: rest =>
      (gone item).bind (fun isGone =>
        if isGone then pruneItems rest
        else (prune item).bind (fun item' => (pruneItems rest).map (item' :: ·)))

def pruneFields : Fields → Option Fields
  | [] => some []
  | (key, value) :: rest =>
      (prune value).bind (fun value' => (pruneFields rest).map ((key, value') :: ·))

end

mutual

/-- A document and the same without some of the items to leave out. -/
inductive Without : Json → Json → Prop where
  | value (value : Json) : Without value value
  | array {items items' : List Json} :
      WithoutItems items items' → Without (.array items) (.array items')
  | object {fields fields' : Fields} :
      WithoutFields fields fields' → Without (.object fields) (.object fields')

inductive WithoutItems : List Json → List Json → Prop where
  | nil : WithoutItems [] []
  | gone {item : Json} {rest rest' : List Json} :
      gone item = some true → WithoutItems rest rest' → WithoutItems (item :: rest) rest'
  | keep {item item' : Json} {rest rest' : List Json} :
      Without item item' → WithoutItems rest rest' → WithoutItems (item :: rest) (item' :: rest')

inductive WithoutFields : Fields → Fields → Prop where
  | nil : WithoutFields [] []
  | keep {key : String} {value value' : Json} {rest rest' : Fields} :
      Without value value' → WithoutFields rest rest' →
        WithoutFields ((key, value) :: rest) ((key, value') :: rest')

end

variable {σ : Type} (label : Fields → Option σ)

mutual

/-- Labels of the objects of a document, from the outermost one on. -/
def collect : Json → List σ
  | .array items => collectItems items
  | .object fields => (label fields).toList ++ collectFields fields
  | _ => []

def collectItems : List Json → List σ
  | [] => []
  | item :: rest => collect item ++ collectItems rest

def collectFields : Fields → List σ
  | [] => []
  | (_, value) :: rest => collect value ++ collectFields rest

end

/-- The objects to leave out, and the labels of all others. -/
def leftOut (fields : Fields) : Option PUnit :=
  if gone (.object fields) = some true then some () else none

def labelOthers (fields : Fields) : Option σ :=
  if gone (.object fields) = some true then none else label fields

variable (stays : Json → Prop)

mutual

/-- Items to leave out hold no other labelled object, and nothing that stays would be an item
to leave out. -/
def LosesNothing : Json → Prop
  | .array items => ItemsLoseNothing items
  | .object fields => FieldsLoseNothing fields
  | _ => True

def ItemsLoseNothing : List Json → Prop
  | [] => True
  | item :: rest =>
      ((gone item = some true ∧ collect (labelOthers gone label) item = []) ∨
        (gone item = some false ∧ ¬ stays item ∧ LosesNothing item)) ∧ ItemsLoseNothing rest

def FieldsLoseNothing : Fields → Prop
  | [] => True
  | (_, value) :: rest => ¬ stays value ∧ LosesNothing value ∧ FieldsLoseNothing rest

end

end Definitions

section Without

variable {gone : Json → Option Bool}

mutual

theorem without_of_prune : ∀ {value value' : Json},
    prune gone value = some value' → Without gone value value'
  | .null, _, h => by cases h; exact .value _
  | .bool _, _, h => by cases h; exact .value _
  | .number _, _, h => by cases h; exact .value _
  | .text _, _, h => by cases h; exact .value _
  | .array items, _, h => by
      obtain ⟨items', hItems, rfl⟩ := Option.map_eq_some_iff.mp h
      exact .array (withoutItems_of_prune hItems)
  | .object fields, _, h => by
      obtain ⟨fields', hFields, rfl⟩ := Option.map_eq_some_iff.mp h
      exact .object (withoutFields_of_prune hFields)

theorem withoutItems_of_prune : ∀ {items items' : List Json},
    pruneItems gone items = some items' → WithoutItems gone items items'
  | [], _, h => by cases h; exact .nil
  | item :: rest, _, h => by
      obtain ⟨isGone, hGone, h⟩ := Option.bind_eq_some_iff.mp h
      cases isGone with
      | true => exact .gone hGone (withoutItems_of_prune h)
      | false =>
          obtain ⟨item', hItem, h⟩ := Option.bind_eq_some_iff.mp h
          obtain ⟨rest', hRest, rfl⟩ := Option.map_eq_some_iff.mp h
          exact .keep (without_of_prune hItem) (withoutItems_of_prune hRest)

theorem withoutFields_of_prune : ∀ {fields fields' : Fields},
    pruneFields gone fields = some fields' → WithoutFields gone fields fields'
  | [], _, h => by cases h; exact .nil
  | (key, value) :: rest, _, h => by
      obtain ⟨value', hValue, h⟩ := Option.bind_eq_some_iff.mp h
      obtain ⟨rest', hRest, rfl⟩ := Option.map_eq_some_iff.mp h
      exact .keep (without_of_prune hValue) (withoutFields_of_prune hRest)

end

end Without

section LosesNothing

variable {σ : Type} {gone : Json → Option Bool} {stays : Json → Prop} {label : Fields → Option σ}

/-- What a test and labels keep when items inside are left out. A document `stays` when the
test tells to leave it out after its own items are. -/
structure KeptByPruning (gone : Json → Option Bool) (stays : Json → Prop)
    (label : Fields → Option σ) : Prop where
  isObject : ∀ {value : Json}, gone value = some true → ∃ fields, value = .object fields
  stays_iff : ∀ {value value' : Json}, prune gone value = some value' →
    (gone value' = some true ↔ stays value)
  stays_of_gone : ∀ {value : Json}, gone value = some true → stays value
  isSome : ∀ {value value' : Json}, prune gone value = some value' →
    gone value = some false → gone value' ≠ none
  label_eq : ∀ {fields fields' : Fields}, pruneFields gone fields = some fields' →
    label fields' = label fields

/-- A pruned value without objects to leave out does not stay. -/
theorem not_stays_of_prune (hKept : KeptByPruning gone stays label) {value value' : Json}
    (hPrune : prune gone value = some value') (hNone : collect (leftOut gone) value' = []) :
    ¬ stays value := by
  intro hStays
  have hGone := (hKept.stays_iff hPrune).mpr hStays
  obtain ⟨fields', rfl⟩ := hKept.isObject hGone
  rw [collect, leftOut, if_pos hGone] at hNone
  cases hNone

/-- An object that does not stay has the label that it had. -/
theorem labelOthers_eq (hKept : KeptByPruning gone stays label)
    {fields fields' : Fields} (hPrune : pruneFields gone fields = some fields') (h : ¬ stays (.object fields)) :
    labelOthers gone label fields = label fields' := by
  rw [labelOthers, if_neg (fun hGone => h (hKept.stays_of_gone hGone)), hKept.label_eq hPrune]

mutual

theorem collect_sublist (hKept : KeptByPruning gone stays label) :
    ∀ {value value' : Json}, prune gone value = some value' →
    collect (leftOut gone) value' = [] →
      (collect label value').Sublist (collect (labelOthers gone label) value)
  | .null, _, h, _ => by cases h; exact .slnil
  | .bool _, _, h, _ => by cases h; exact .slnil
  | .number _, _, h, _ => by cases h; exact .slnil
  | .text _, _, h, _ => by cases h; exact .slnil
  | .array items, _, h, hNone => by
      obtain ⟨items', hItems, rfl⟩ := Option.map_eq_some_iff.mp h
      exact collectItems_sublist hKept hItems hNone
  | .object fields, _, h, hNone => by
      obtain ⟨fields', hFields, rfl⟩ := Option.map_eq_some_iff.mp h
      have hOwn := labelOthers_eq hKept hFields (not_stays_of_prune hKept h hNone)
      rw [collect, collect, hOwn]
      exact (List.Sublist.refl _).append
        (collectFields_sublist hKept hFields (List.append_eq_nil_iff.mp hNone).2)

theorem collectItems_sublist (hKept : KeptByPruning gone stays label) :
    ∀ {items items' : List Json}, pruneItems gone items = some items' →
    collectItems (leftOut gone) items' = [] →
      (collectItems label items').Sublist (collectItems (labelOthers gone label) items)
  | [], _, h, _ => by cases h; exact .slnil
  | item :: rest, _, h, hNone => by
      obtain ⟨isGone, -, h⟩ := Option.bind_eq_some_iff.mp h
      cases isGone with
      | true => exact (collectItems_sublist hKept h hNone).trans (List.sublist_append_right _ _)
      | false =>
          obtain ⟨item', hItem, h⟩ := Option.bind_eq_some_iff.mp h
          obtain ⟨rest', hRest, rfl⟩ := Option.map_eq_some_iff.mp h
          obtain ⟨hHead, hTail⟩ := List.append_eq_nil_iff.mp hNone
          exact (collect_sublist hKept hItem hHead).append (collectItems_sublist hKept hRest hTail)

theorem collectFields_sublist (hKept : KeptByPruning gone stays label) :
    ∀ {fields fields' : Fields}, pruneFields gone fields = some fields' → collectFields (leftOut gone) fields' = [] →
      (collectFields label fields').Sublist (collectFields (labelOthers gone label) fields)
  | [], _, h, _ => by cases h; exact .slnil
  | (key, value) :: rest, _, h, hNone => by
      obtain ⟨value', hValue, h⟩ := Option.bind_eq_some_iff.mp h
      obtain ⟨rest', hRest, rfl⟩ := Option.map_eq_some_iff.mp h
      obtain ⟨hHead, hTail⟩ := List.append_eq_nil_iff.mp hNone
      exact (collect_sublist hKept hValue hHead).append (collectFields_sublist hKept hRest hTail)

end

/-- Parts of two lists are the lists when all of it is. -/
theorem eq_of_append_sublist {xs xs' ys ys' : List σ} (hXs : xs'.Sublist xs)
    (hYs : ys'.Sublist ys) (h : xs' ++ ys' = xs ++ ys) : xs' = xs ∧ ys' = ys := by
  have hLength := congrArg List.length h
  simp only [List.length_append] at hLength
  have hShorter := hXs.length_le
  have hShort := hYs.length_le
  exact ⟨hXs.eq_of_length (by omega), hYs.eq_of_length (by omega)⟩

mutual

/-- What is pruned and lost nothing has nothing to lose. -/
theorem losesNothing_of_collect (hKept : KeptByPruning gone stays label) :
    ∀ {value value' : Json}, prune gone value = some value' →
      collect (leftOut gone) value' = [] →
      collect label value' = collect (labelOthers gone label) value →
        LosesNothing gone label stays value
  | .null, _, _, _, _ => trivial
  | .bool _, _, _, _, _ => trivial
  | .number _, _, _, _, _ => trivial
  | .text _, _, _, _, _ => trivial
  | .array items, _, h, hNone, hSame => by
      obtain ⟨items', hItems, rfl⟩ := Option.map_eq_some_iff.mp h
      exact itemsLoseNothing_of_collect hKept hItems hNone hSame
  | .object fields, _, h, hNone, hSame => by
      obtain ⟨fields', hFields, rfl⟩ := Option.map_eq_some_iff.mp h
      have hOwn := labelOthers_eq hKept hFields (not_stays_of_prune hKept h hNone)
      rw [collect, collect, hOwn] at hSame
      exact fieldsLoseNothing_of_collect hKept hFields (List.append_eq_nil_iff.mp hNone).2
        (List.append_cancel_left hSame)

theorem itemsLoseNothing_of_collect (hKept : KeptByPruning gone stays label) :
    ∀ {items items' : List Json}, pruneItems gone items = some items' →
      collectItems (leftOut gone) items' = [] →
      collectItems label items' = collectItems (labelOthers gone label) items →
        ItemsLoseNothing gone label stays items
  | [], _, _, _, _ => trivial
  | item :: rest, _, h, hNone, hSame => by
      obtain ⟨isGone, hGone, h⟩ := Option.bind_eq_some_iff.mp h
      cases isGone with
      | true =>
          have hRest := collectItems_sublist hKept h hNone
          obtain ⟨hEmpty, hTail⟩ := eq_of_append_sublist (List.nil_sublist
            (collect (labelOthers gone label) item)) hRest (by rw [List.nil_append, hSame]; rfl)
          exact ⟨Or.inl ⟨hGone, hEmpty.symm⟩, itemsLoseNothing_of_collect hKept h hNone hTail⟩
      | false =>
          obtain ⟨item', hItem, h⟩ := Option.bind_eq_some_iff.mp h
          obtain ⟨rest', hRest, rfl⟩ := Option.map_eq_some_iff.mp h
          obtain ⟨hHead, hTail⟩ := List.append_eq_nil_iff.mp hNone
          obtain ⟨hOne, hOthers⟩ := eq_of_append_sublist (collect_sublist hKept hItem hHead)
            (collectItems_sublist hKept hRest hTail) hSame
          have hStays : ¬ stays item := not_stays_of_prune hKept hItem hHead
          exact ⟨Or.inr ⟨hGone, hStays, losesNothing_of_collect hKept hItem hHead hOne⟩,
            itemsLoseNothing_of_collect hKept hRest hTail hOthers⟩

theorem fieldsLoseNothing_of_collect (hKept : KeptByPruning gone stays label) :
    ∀ {fields fields' : Fields}, pruneFields gone fields = some fields' →
      collectFields (leftOut gone) fields' = [] →
      collectFields label fields' = collectFields (labelOthers gone label) fields →
        FieldsLoseNothing gone label stays fields
  | [], _, _, _, _ => trivial
  | (key, value) :: rest, _, h, hNone, hSame => by
      obtain ⟨value', hValue, h⟩ := Option.bind_eq_some_iff.mp h
      obtain ⟨rest', hRest, rfl⟩ := Option.map_eq_some_iff.mp h
      obtain ⟨hHead, hTail⟩ := List.append_eq_nil_iff.mp hNone
      obtain ⟨hOne, hOthers⟩ := eq_of_append_sublist (collect_sublist hKept hValue hHead)
        (collectFields_sublist hKept hRest hTail) hSame
      exact ⟨not_stays_of_prune hKept hValue hHead,
        losesNothing_of_collect hKept hValue hHead hOne,
        fieldsLoseNothing_of_collect hKept hRest hTail hOthers⟩

end

mutual

/-- A document that loses nothing is pruned, and keeps the labels of all that is not left
out. -/
theorem prune_of_losesNothing (hKept : KeptByPruning gone stays label) :
    ∀ {value : Json}, LosesNothing gone label stays value → ¬ stays value →
      ∃ value', prune gone value = some value' ∧ collect (leftOut gone) value' = [] ∧
        collect label value' = collect (labelOthers gone label) value
  | .null, _, _ => ⟨.null, rfl, rfl, rfl⟩
  | .bool b, _, _ => ⟨.bool b, rfl, rfl, rfl⟩
  | .number q, _, _ => ⟨.number q, rfl, rfl, rfl⟩
  | .text t, _, _ => ⟨.text t, rfl, rfl, rfl⟩
  | .array items, h, _ => by
      obtain ⟨items', hItems, hNone, hSame⟩ := pruneItems_of_loseNothing hKept h
      exact ⟨.array items', Option.map_eq_some_iff.mpr ⟨items', hItems, rfl⟩, hNone, hSame⟩
  | .object fields, h, hStays => by
      obtain ⟨fields', hFields, hNone, hSame⟩ := pruneFields_of_loseNothing hKept h
      have hObject : prune gone (.object fields) = some (.object fields') :=
        Option.map_eq_some_iff.mpr ⟨fields', hFields, rfl⟩
      refine ⟨.object fields', hObject, ?_, ?_⟩
      · rw [collect, leftOut, if_neg (fun hGone => hStays ((hKept.stays_iff hObject).mp hGone)),
          hNone]
        rfl
      · rw [collect, collect, labelOthers_eq hKept hFields hStays, hSame]

theorem pruneItems_of_loseNothing (hKept : KeptByPruning gone stays label) :
    ∀ {items : List Json}, ItemsLoseNothing gone label stays items →
      ∃ items', pruneItems gone items = some items' ∧ collectItems (leftOut gone) items' = [] ∧
        collectItems label items' = collectItems (labelOthers gone label) items
  | [], _ => ⟨[], rfl, rfl, rfl⟩
  | item :: rest, h => by
      obtain ⟨rest', hRest, hNone, hSame⟩ := pruneItems_of_loseNothing hKept h.2
      rcases h.1 with ⟨hGone, hEmpty⟩ | ⟨hGone, hStays, hItem⟩
      · refine ⟨rest', by rw [pruneItems, hGone, Option.bind_some, if_pos rfl, hRest], hNone, ?_⟩
        rw [collectItems, hEmpty, List.nil_append, hSame]
      · obtain ⟨item', hItem', hHead, hOne⟩ := prune_of_losesNothing hKept hItem hStays
        refine ⟨item' :: rest', ?_, by rw [collectItems, hHead, hNone]; rfl,
          by rw [collectItems, collectItems, hOne, hSame]⟩
        rw [pruneItems, hGone, Option.bind_some, if_neg Bool.false_ne_true, hItem',
          Option.bind_some, hRest]
        rfl

theorem pruneFields_of_loseNothing (hKept : KeptByPruning gone stays label) :
    ∀ {fields : Fields}, FieldsLoseNothing gone label stays fields →
      ∃ fields', pruneFields gone fields = some fields' ∧
        collectFields (leftOut gone) fields' = [] ∧
        collectFields label fields' = collectFields (labelOthers gone label) fields
  | [], _ => ⟨[], rfl, rfl, rfl⟩
  | (key, value) :: rest, ⟨hStays, hValue, hOthers⟩ => by
      obtain ⟨rest', hRest, hNone, hSame⟩ := pruneFields_of_loseNothing hKept hOthers
      obtain ⟨value', hValue', hHead, hOne⟩ := prune_of_losesNothing hKept hValue hStays
      refine ⟨(key, value') :: rest', by rw [pruneFields, hValue', Option.bind_some, hRest]; rfl,
        by rw [collectFields, hHead, hNone]; rfl, by rw [collectFields, collectFields, hOne, hSame]⟩

end

mutual

/-- A pruned document is left as it is. -/
theorem prune_pruned (hKept : KeptByPruning gone stays label) :
    ∀ {value value' : Json}, prune gone value = some value' →
      collect (leftOut gone) value' = [] → prune gone value' = some value'
  | .null, _, h, _ => by cases h; rfl
  | .bool _, _, h, _ => by cases h; rfl
  | .number _, _, h, _ => by cases h; rfl
  | .text _, _, h, _ => by cases h; rfl
  | .array items, _, h, hNone => by
      obtain ⟨items', hItems, rfl⟩ := Option.map_eq_some_iff.mp h
      exact Option.map_eq_some_iff.mpr ⟨items', pruneItems_pruned hKept hItems hNone, rfl⟩
  | .object fields, _, h, hNone => by
      obtain ⟨fields', hFields, rfl⟩ := Option.map_eq_some_iff.mp h
      exact Option.map_eq_some_iff.mpr
        ⟨fields', pruneFields_pruned hKept hFields (List.append_eq_nil_iff.mp hNone).2, rfl⟩

theorem pruneItems_pruned (hKept : KeptByPruning gone stays label) :
    ∀ {items items' : List Json}, pruneItems gone items = some items' →
      collectItems (leftOut gone) items' = [] → pruneItems gone items' = some items'
  | [], _, h, _ => by cases h; rfl
  | item :: rest, _, h, hNone => by
      obtain ⟨isGone, hGone, h⟩ := Option.bind_eq_some_iff.mp h
      cases isGone with
      | true => exact pruneItems_pruned hKept h hNone
      | false =>
          obtain ⟨item', hItem, h⟩ := Option.bind_eq_some_iff.mp h
          obtain ⟨rest', hRest, rfl⟩ := Option.map_eq_some_iff.mp h
          obtain ⟨hHead, hTail⟩ := List.append_eq_nil_iff.mp hNone
          have hStays := not_stays_of_prune hKept hItem hHead
          have hAgain : gone item' = some false := by
            cases hTest : gone item' with
            | none => exact absurd hTest (hKept.isSome hItem hGone)
            | some isGone =>
                cases isGone with
                | false => rfl
                | true => exact absurd ((hKept.stays_iff hItem).mp hTest) hStays
          rw [pruneItems, hAgain, Option.bind_some, if_neg Bool.false_ne_true,
            prune_pruned hKept hItem hHead, Option.bind_some, pruneItems_pruned hKept hRest hTail]
          rfl

theorem pruneFields_pruned (hKept : KeptByPruning gone stays label) :
    ∀ {fields fields' : Fields}, pruneFields gone fields = some fields' →
      collectFields (leftOut gone) fields' = [] → pruneFields gone fields' = some fields'
  | [], _, h, _ => by cases h; rfl
  | (key, value) :: rest, _, h, hNone => by
      obtain ⟨value', hValue, h⟩ := Option.bind_eq_some_iff.mp h
      obtain ⟨rest', hRest, rfl⟩ := Option.map_eq_some_iff.mp h
      obtain ⟨hHead, hTail⟩ := List.append_eq_nil_iff.mp hNone
      rw [pruneFields, prune_pruned hKept hValue hHead, Option.bind_some,
        pruneFields_pruned hKept hRest hTail]
      rfl

end

/-- Pruning leaves none of the objects to leave out and the labels of all others exactly where
nothing is lost. -/
theorem pruned_exactly_iff (hKept : KeptByPruning gone stays label) {fields : Fields} :
    (∃ fields', pruneFields gone fields = some fields' ∧
      collectFields (leftOut gone) fields' = [] ∧
      collectFields label fields' = collectFields (labelOthers gone label) fields) ↔
      FieldsLoseNothing gone label stays fields := by
  refine ⟨?_, pruneFields_of_loseNothing hKept⟩
  rintro ⟨fields', hFields, hNone, hSame⟩
  exact fieldsLoseNothing_of_collect hKept hFields hNone hSame

end LosesNothing

end Json

end Library
