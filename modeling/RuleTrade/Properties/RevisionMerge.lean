import RuleTrade.Editor.RevisionConflict
import RuleTrade.Library.ThreeWay
import RuleTrade.Strategy.Documents

/-! What the merge of two Revisions keeps of their edits. Clashes of two edits and
the arrays the merge can rearrange are stated on the documents alone; the merge
is then compared with them. -/

namespace RuleTrade

open Library

section Documents

/-- An array element carries `semantic_id` or `id`, not both. -/
def singlyAddressed : Json → Bool
  | .object fields => (fieldOf fields "semantic_id").isNone || (fieldOf fields "id").isNone
  | _ => true

mutual

/-- All array elements of a document are singly addressed, as those of the
Strategy models are. -/
def addressable : Json → Bool
  | .array items => addressableItems items
  | .object fields => addressableFields fields
  | _ => true

def addressableItems : List Json → Bool
  | [] => true
  | item :: rest => singlyAddressed item && addressable item && addressableItems rest

def addressableFields : List (String × Json) → Bool
  | [] => true
  | (_, value) :: rest => addressable value && addressableFields rest

end

/-- Arrays whose order is that of execution or evaluation. -/
def executionOrdered (key : String) : Bool :=
  key ∈ ["statements", "then_statements", "otherwise_statements", "children"]

/-- Both sides changed the place and its parts are compared one by one. -/
def descends : Option Json → Option Json → Option Json → Bool
  | some (.array b), some (.array l), some (.array r) => identifiable b l r
  | some (.object _), some (.object _), some (.object _) => true
  | _, _, _ => false

/-- Somewhere the two sides changed one place to different contents that have
no parts to compare. -/
inductive EditsClash : Option Json → Option Json → Option Json → Prop where
  | place {base local_ remote : Option Json}
      (hOpen : ThreeWay.settled base local_ remote = none)
      (hWhole : descends base local_ remote = false) : EditsClash base local_ remote
  | element {b l r : List Json} (id : String)
      (hOpen : ThreeWay.settled (some (Json.array b)) (some (.array l)) (some (.array r)) = none)
      (hIds : identifiable b l r = true)
      (hElement : EditsClash (elementOf b id) (elementOf l id) (elementOf r id)) :
      EditsClash (some (.array b)) (some (.array l)) (some (.array r))
  | field {b l r : List (String × Json)} (key : String)
      (hOpen : ThreeWay.settled (some (Json.object b)) (some (.object l)) (some (.object r)) = none)
      (hField : EditsClash (fieldOf b key) (fieldOf l key) (fieldOf r key)) :
      EditsClash (some (.object b)) (some (.object l)) (some (.object r))

/-- A side that neither inserted nor reordered elements. -/
def OnlyDeletes (base side : List Json) : Prop := (identities side).Sublist (identities base)

/-- How often the two sides keep the elements under an id, if they agree. -/
def occurrences (b l r : List Json) (id : String) : Option Nat :=
  ThreeWay.settled ((identities b).count id) ((identities l).count id) ((identities r).count id)

/-- The merged array has every element as often as both sides keep it and, where
order is that of execution, the order of the one side that changed it. -/
structure ArrangementKept (key : String) (b l r merged : List Json) : Prop where
  occurrences : ∀ id n, occurrences b l r id = some n → (identities merged).count id = n
  localOrder : executionOrdered key → OnlyDeletes b r → ¬ OnlyDeletes b l →
    (identities merged).Sublist (identities l)
  remoteOrder : executionOrdered key → OnlyDeletes b l → ¬ OnlyDeletes b r →
    (identities merged).Sublist (identities r)

/-- The merged document has every edit, addition and deletion of both sides. -/
inductive ChangesKept :
    String → Option Json → Option Json → Option Json → Option Json → Prop where
  | settled {key : String} {base local_ remote merged : Option Json}
      (h : ThreeWay.settled base local_ remote = some merged) :
      ChangesKept key base local_ remote merged
  | array {key : String} {b l r merged : List Json}
      (hOpen : ThreeWay.settled (some (Json.array b)) (some (.array l)) (some (.array r)) = none)
      (hElements : ∀ id, ChangesKept key (elementOf b id) (elementOf l id) (elementOf r id)
        (elementOf merged id))
      (hArrangement : ArrangementKept key b l r merged) :
      ChangesKept key (some (.array b)) (some (.array l)) (some (.array r)) (some (.array merged))
  | object {key : String} {b l r merged : List (String × Json)}
      (hOpen : ThreeWay.settled (some (Json.object b)) (some (.object l)) (some (.object r)) = none)
      (hFields : ∀ field, ChangesKept field (fieldOf b field) (fieldOf l field) (fieldOf r field)
        (fieldOf merged field)) :
      ChangesKept key (some (.object b)) (some (.object l)) (some (.object r))
        (some (.object merged))

/-- No element is kept twice, and a local side that alone changed the order of
execution has what it kept in the remote order and its insertions behind that. -/
structure Arranged (key : String) (b l r : List Json) : Prop where
  single : ∀ id n, occurrences b l r id = some n → n ≤ 1
  behind : executionOrdered key → OnlyDeletes b r → ¬ OnlyDeletes b l →
    ((distinct (identities r)).filter (· ∈ identities l) ++
      (distinct (identities l)).filter (· ∉ identities b)).Sublist (identities l)

/-- Every array that both sides changed is arranged. -/
inductive OrdersAgree : String → Option Json → Option Json → Option Json → Prop where
  | settled {key : String} {base local_ remote merged : Option Json}
      (h : ThreeWay.settled base local_ remote = some merged) : OrdersAgree key base local_ remote
  | array {key : String} {b l r : List Json}
      (hOpen : ThreeWay.settled (some (Json.array b)) (some (.array l)) (some (.array r)) = none)
      (hElements : ∀ id, OrdersAgree key (elementOf b id) (elementOf l id) (elementOf r id))
      (hArranged : Arranged key b l r) :
      OrdersAgree key (some (.array b)) (some (.array l)) (some (.array r))
  | object {key : String} {b l r : List (String × Json)}
      (hOpen : ThreeWay.settled (some (Json.object b)) (some (.object l)) (some (.object r)) = none)
      (hFields : ∀ field, OrdersAgree field (fieldOf b field) (fieldOf l field) (fieldOf r field)) :
      OrdersAgree key (some (.object b)) (some (.object l)) (some (.object r))

end Documents

section Clashes

theorem EditsClash.unsettled {base local_ remote : Option Json}
    (h : EditsClash base local_ remote) : ThreeWay.settled base local_ remote = none := by
  cases h with
  | place hOpen => exact hOpen
  | element id hOpen => exact hOpen
  | field key hOpen => exact hOpen

theorem identifiable_comm (b l r : List Json) : identifiable b l r = identifiable b r l := by
  simp only [identifiable, List.all_append, Bool.and_assoc, Bool.and_comm (l.all _)]

theorem descends_comm (base local_ remote : Option Json) :
    descends base local_ remote = descends base remote local_ := by
  unfold descends
  split
  · exact identifiable_comm _ _ _
  · rfl
  · rename_i hArrays hObjects
    split
    · exact absurd rfl (hArrays _ _ _ rfl rfl)
    · exact absurd rfl (hObjects _ _ _ rfl rfl)
    · rfl

/-- Neither side goes first in a clash. -/
theorem EditsClash.comm {base local_ remote : Option Json} (h : EditsClash base local_ remote) :
    EditsClash base remote local_ := by
  induction h with
  | place hOpen hWhole =>
      rw [ThreeWay.settled_comm] at hOpen
      rw [descends_comm] at hWhole
      exact .place hOpen hWhole
  | element id hOpen hIds _ ih =>
      rw [ThreeWay.settled_comm] at hOpen
      rw [identifiable_comm] at hIds
      exact .element id hOpen hIds ih
  | field key hOpen _ ih =>
      rw [ThreeWay.settled_comm] at hOpen
      exact .field key hOpen ih

end Clashes

section Merge

variable {base local_ remote : Option Json} {path : String}

theorem mergeValue_settled {merged : Option Json}
    (h : ThreeWay.settled base local_ remote = some merged) :
    (mergeValue base local_ remote path).value = merged ∧
      (mergeValue base local_ remote path).conflicts = [] := by
  unfold mergeValue
  unfold ThreeWay.settled at h
  split_ifs at h ⊢ <;> exact ⟨Option.some.inj h, rfl⟩

theorem mergeValue_place (hOpen : ThreeWay.settled base local_ remote = none)
    (hWhole : descends base local_ remote = false) :
    (mergeValue base local_ remote path).conflicts = [path] := by
  obtain ⟨hLocal, hRemote, hSame⟩ := ThreeWay.settled_eq_none.mp hOpen
  unfold mergeValue
  rw [if_neg hLocal, if_neg hRemote, if_neg hSame]
  split
  · simp only [descends] at hWhole
    rw [hWhole]
    rfl
  · cases hWhole
  · rfl

/-- Elements are merged id by id. -/
theorem mergeValue_array {b l r : List Json}
    (hOpen : ThreeWay.settled (some (Json.array b)) (some (.array l)) (some (.array r)) = none)
    (hIds : identifiable b l r = true) :
    (mergeValue (some (.array b)) (some (.array l)) (some (.array r)) path).value =
        some (.array ((orderedIds b l r).filterMap (fun id =>
          (mergeValue (elementOf b id) (elementOf l id) (elementOf r id)
            (path ++ "/" ++ id)).value))) ∧
      (mergeValue (some (.array b)) (some (.array l)) (some (.array r)) path).conflicts =
        (orderedIds b l r).flatMap (fun id =>
          (mergeValue (elementOf b id) (elementOf l id) (elementOf r id)
            (path ++ "/" ++ id)).conflicts) := by
  obtain ⟨hLocal, hRemote, hSame⟩ := ThreeWay.settled_eq_none.mp hOpen
  rw [mergeValue, if_neg hLocal, if_neg hRemote, if_neg hSame]
  simp only [hIds, if_true, List.filterMap_map, List.flatMap_map, Function.comp_def, and_self]

/-- Fields are merged key by key. -/
theorem mergeValue_object {b l r : List (String × Json)}
    (hOpen : ThreeWay.settled (some (Json.object b)) (some (.object l)) (some (.object r)) =
      none) :
    (mergeValue (some (.object b)) (some (.object l)) (some (.object r)) path).value =
        some (.object ((mergedKeys b l r).filterMap (fun key =>
          (mergeValue (fieldOf b key) (fieldOf l key) (fieldOf r key)
            (path ++ "/" ++ key)).value.map (key, ·)))) ∧
      (mergeValue (some (.object b)) (some (.object l)) (some (.object r)) path).conflicts =
        (mergedKeys b l r).flatMap (fun key =>
          (mergeValue (fieldOf b key) (fieldOf l key) (fieldOf r key)
            (path ++ "/" ++ key)).conflicts) := by
  obtain ⟨hLocal, hRemote, hSame⟩ := ThreeWay.settled_eq_none.mp hOpen
  rw [mergeValue, if_neg hLocal, if_neg hRemote, if_neg hSame]
  simp only [List.filterMap_map, List.flatMap_map, Function.comp_def, and_self]

theorem elementsOf_eq_none {b l r : List Json} {id : String} (h : id ∉ orderedIds b l r) :
    elementOf b id = none ∧ elementOf l id = none ∧ elementOf r id = none := by
  simp only [orderedIds, mem_distinct, List.mem_append, not_or, ← isSome_elementOf,
    Option.not_isSome_iff_eq_none] at h
  exact ⟨h.2, h.1.2, h.1.1⟩

theorem fieldsOf_eq_none {b l r : List (String × Json)} {key : String}
    (h : key ∉ mergedKeys b l r) :
    fieldOf b key = none ∧ fieldOf l key = none ∧ fieldOf r key = none := by
  simp only [mergedKeys, Sequence.mem_sortBy, mem_distinct, List.mem_append, not_or] at h
  exact ⟨fieldOf_eq_none h.1.1, fieldOf_eq_none h.1.2, fieldOf_eq_none h.2⟩

/-- The merge reports a conflict exactly where two edits clash. -/
theorem conflicts_iff (base local_ remote : Option Json) (path : String) :
    (mergeValue base local_ remote path).conflicts ≠ [] ↔ EditsClash base local_ remote := by
  have hSettled : ∀ {base local_ remote merged : Option Json} {path : String},
      ThreeWay.settled base local_ remote = some merged →
      ((mergeValue base local_ remote path).conflicts ≠ [] ↔ EditsClash base local_ remote) := by
    intro base local_ remote merged path h
    rw [(mergeValue_settled h).2]
    exact ⟨fun hNe => absurd rfl hNe, fun hClash => by rw [hClash.unsettled] at h; cases h⟩
  have hPlace : ∀ {base local_ remote : Option Json} {path : String},
      ThreeWay.settled base local_ remote = none → descends base local_ remote = false →
      ((mergeValue base local_ remote path).conflicts ≠ [] ↔ EditsClash base local_ remote) := by
    intro base local_ remote path hOpen hWhole
    rw [mergeValue_place hOpen hWhole]
    exact ⟨fun _ => .place hOpen hWhole, fun _ => List.cons_ne_nil _ _⟩
  induction base, local_, remote, path using mergeValue.induct with
  | case1 base remote path => exact hSettled (ThreeWay.settled_left _ _)
  | case2 local_ base path => exact hSettled (ThreeWay.settled_right _ _)
  | case3 base side path => exact hSettled (ThreeWay.settled_same _ _)
  | case4 path b l r hIds hLocal hRemote hSame ih =>
      have hOpen := ThreeWay.settled_eq_none.mpr ⟨hLocal, hRemote, hSame⟩
      rw [(mergeValue_array hOpen hIds).2, ne_eq, List.flatMap_eq_nil_iff]
      constructor
      · intro h
        push Not at h
        obtain ⟨id, _, hConflict⟩ := h
        exact .element id hOpen hIds ((ih id).mp hConflict)
      · intro hClash hNone
        cases hClash with
        | place _ hWhole =>
            simp only [descends, hIds] at hWhole
            cases hWhole
        | element id _ _ hElement =>
            by_cases hMem : id ∈ orderedIds b l r
            · exact (ih id).mpr hElement (hNone id hMem)
            · obtain ⟨hb, hl, hr⟩ := elementsOf_eq_none hMem
              have hClosed := hElement.unsettled
              rw [hb, hl, hr, ThreeWay.settled_same] at hClosed
              cases hClosed
  | case5 path b l r hIds hLocal hRemote hSame =>
      exact hPlace (ThreeWay.settled_eq_none.mpr ⟨hLocal, hRemote, hSame⟩)
        (Bool.eq_false_of_not_eq_true hIds)
  | case6 path b l r hLocal hRemote hSame ih =>
      have hOpen := ThreeWay.settled_eq_none.mpr ⟨hLocal, hRemote, hSame⟩
      rw [(mergeValue_object hOpen).2, ne_eq, List.flatMap_eq_nil_iff]
      constructor
      · intro h
        push Not at h
        obtain ⟨key, _, hConflict⟩ := h
        exact .field key hOpen ((ih key).mp hConflict)
      · intro hClash hNone
        cases hClash with
        | place _ hWhole => cases hWhole
        | field key _ hField =>
            by_cases hMem : key ∈ mergedKeys b l r
            · exact (ih key).mpr hField (hNone key hMem)
            · obtain ⟨hb, hl, hr⟩ := fieldsOf_eq_none hMem
              have hClosed := hField.unsettled
              rw [hb, hl, hr, ThreeWay.settled_same] at hClosed
              cases hClosed
  | case7 base local_ path hLocal remote hArrays hObjects hRemote hSame =>
      apply hPlace (ThreeWay.settled_eq_none.mpr ⟨hLocal, hRemote, hSame⟩)
      unfold descends
      split
      · exact (hArrays _ _ _ rfl rfl rfl).elim
      · exact (hObjects _ _ _ rfl rfl rfl).elim
      · rfl

/-- Without a clash, what survives is what both sides have and what one side
added. -/
theorem isSome_merged (h : ¬ EditsClash base local_ remote) :
    (mergeValue base local_ remote path).value.isSome ↔
      (local_.isSome ∧ remote.isSome) ∨ (local_.isSome ∧ base.isSome = false) ∨
        (remote.isSome ∧ base.isSome = false) := by
  cases hSettled : ThreeWay.settled base local_ remote with
  | some merged =>
      rw [(mergeValue_settled hSettled).1]
      rcases ThreeWay.settled_eq_some hSettled with
        ⟨hSide, hValue⟩ | ⟨hSide, hValue⟩ | ⟨hSide, hValue⟩ <;> rw [hValue, hSide] <;> grind
  | none =>
      cases hWhole : descends base local_ remote with
      | false => exact absurd (.place hSettled hWhole) h
      | true =>
          unfold descends at hWhole
          split at hWhole
          · rw [(mergeValue_array hSettled hWhole).1]
            simp
          · rw [(mergeValue_object hSettled).1]
            simp
          · cases hWhole

/-- Fields of a merged object are the merged fields. -/
theorem fieldOf_merged {b l r : List (String × Json)} (key : String) :
    fieldOf ((mergedKeys b l r).filterMap (fun k =>
        (mergeValue (fieldOf b k) (fieldOf l k) (fieldOf r k) (path ++ "/" ++ k)).value.map (k, ·)))
      key =
      (mergeValue (fieldOf b key) (fieldOf l key) (fieldOf r key) (path ++ "/" ++ key)).value := by
  rw [fieldOf_filterMap (fun k =>
    (mergeValue (fieldOf b k) (fieldOf l k) (fieldOf r k) (path ++ "/" ++ k)).value)]
  split_ifs with hMem
  · rfl
  · obtain ⟨hb, hl, hr⟩ := fieldsOf_eq_none hMem
    rw [hb, hl, hr, (mergeValue_settled (ThreeWay.settled_same _ _)).1]

end Merge

section Addresses

theorem addressable_item {items : List Json} (h : addressableItems items = true) :
    ∀ item ∈ items, singlyAddressed item = true ∧ addressable item = true := by
  induction items with
  | nil => exact fun _ hItem => absurd hItem List.not_mem_nil
  | cons head rest ih =>
      simp only [addressableItems, Bool.and_eq_true] at h
      intro item hItem
      rcases List.mem_cons.mp hItem with rfl | hRest
      · exact h.1
      · exact ih h.2 item hRest

theorem addressable_field {fields : List (String × Json)} (h : addressableFields fields = true)
    {key : String} {value : Json} (hValue : fieldOf fields key = some value) :
    addressable value = true := by
  induction fields with
  | nil => cases hValue
  | cons head rest ih =>
      simp only [addressableFields, Bool.and_eq_true] at h
      by_cases hKey : head.1 = key
      · simp only [fieldOf, List.find?_cons, hKey, decide_true, Option.map_some,
          Option.some.injEq] at hValue
        rw [← hValue]
        exact h.1
      · simp only [fieldOf, List.find?_cons, hKey, decide_false] at hValue
        exact ih h.2 hValue

/-- An element is addressed by exactly one of the two fields. -/
theorem addressed_by {fields : List (String × Json)} {id : String}
    (hId : identity (.object fields) = some id) (hSingle : singlyAddressed (.object fields) = true) :
    (fieldOf fields "semantic_id" = some (.text id) ∧ fieldOf fields "id" = none) ∨
      (fieldOf fields "semantic_id" = none ∧ fieldOf fields "id" = some (.text id)) := by
  simp only [singlyAddressed, Bool.or_eq_true, Option.isNone_iff_eq_none] at hSingle
  simp only [identity] at hId
  rcases hSingle with hNone | hNone
  · right
    rw [hNone] at hId ⊢
    cases hField : fieldOf fields "id" with
    | none => simp [hField] at hId
    | some value => cases value <;> simp_all
  · left
    rw [hNone] at hId ⊢
    cases hField : fieldOf fields "semantic_id" with
    | none => simp [hField] at hId
    | some value => cases value <;> simp_all

/-- A merged element stands under the id of the elements it is merged from. -/
theorem identity_merged {base local_ remote : Option Json} {path id : String}
    (hBase : ∀ item ∈ base, identity item = some id ∧ singlyAddressed item = true)
    (hLocal : ∀ item ∈ local_, identity item = some id ∧ singlyAddressed item = true)
    (hRemote : ∀ item ∈ remote, identity item = some id ∧ singlyAddressed item = true)
    (h : ¬ EditsClash base local_ remote) {item : Json}
    (hItem : (mergeValue base local_ remote path).value = some item) : identity item = some id := by
  cases hSettled : ThreeWay.settled base local_ remote with
  | some merged =>
      rw [(mergeValue_settled hSettled).1] at hItem
      rcases ThreeWay.settled_eq_some hSettled with ⟨_, hValue⟩ | ⟨_, hValue⟩ | ⟨_, hValue⟩
      · exact (hRemote item (hValue ▸ hItem)).1
      · exact (hLocal item (hValue ▸ hItem)).1
      · exact (hLocal item (hValue ▸ hItem)).1
  | none =>
      cases hWhole : descends base local_ remote with
      | false => exact absurd (.place hSettled hWhole) h
      | true =>
          unfold descends at hWhole
          split at hWhole
          · have hNone := (hBase _ rfl).1
            cases hNone
          · rename_i b l r
            rw [(mergeValue_object hSettled).1, Option.some.injEq] at hItem
            have hSemantic := @fieldOf_merged path b l r "semantic_id"
            have hPlain := @fieldOf_merged path b l r "id"
            -- each side has one of the two fields, so the merge of each field is settled
            rw [← hItem]
            simp only [identity]
            rw [hSemantic, hPlain]
            rcases addressed_by (hBase _ rfl).1 (hBase _ rfl).2 with ⟨hb, hb'⟩ | ⟨hb, hb'⟩ <;>
              rcases addressed_by (hLocal _ rfl).1 (hLocal _ rfl).2 with ⟨hl, hl'⟩ | ⟨hl, hl'⟩ <;>
              rcases addressed_by (hRemote _ rfl).1 (hRemote _ rfl).2 with
                ⟨hr, hr'⟩ | ⟨hr, hr'⟩ <;>
              rw [hb, hb', hl, hl', hr, hr'] <;>
              simp [mergeValue]
          · cases hWhole

end Addresses

section Arrays

variable {b l r : List Json} {path : String}

/-- Merged elements are the remote ones that stay, then those that local added. -/
theorem identities_merged {value : String → Option Json}
    (hValue : ∀ id item, value id = some item → identity item = some id)
    (hSome : ∀ id, (value id).isSome ↔
      (id ∈ identities l ∧ id ∈ identities r) ∨ (id ∈ identities l ∧ id ∉ identities b) ∨
        (id ∈ identities r ∧ id ∉ identities b)) :
    identities ((orderedIds b l r).filterMap value) =
      (distinct (identities r)).filter (fun id => id ∈ identities l ∨ id ∉ identities b) ++
        (distinct (identities l)).filter (fun id => id ∉ identities r ∧ id ∉ identities b) := by
  rw [identities_filterMap hValue, orderedIds, distinct_append, distinct_append,
    List.filter_append, List.filter_append, List.filter_filter, List.filter_filter]
  have hBase : (distinct (identities b)).filter (fun id =>
      (value id).isSome && decide (id ∉ identities r ++ identities l)) = [] := by
    rw [List.filter_eq_nil_iff]
    intro id hId
    rw [mem_distinct] at hId
    simp only [Bool.and_eq_true, hSome, decide_eq_true_eq, List.mem_append]
    tauto
  rw [hBase, List.append_nil]
  congr 1
  · apply List.filter_congr
    intro id hId
    rw [mem_distinct] at hId
    rw [Bool.eq_iff_iff, hSome, decide_eq_true_eq]
    tauto
  · apply List.filter_congr
    intro id hId
    rw [mem_distinct] at hId
    rw [Bool.eq_iff_iff, Bool.and_eq_true, hSome, decide_eq_true_eq, decide_eq_true_eq]
    tauto

/-- A merge over ids keeps the arrangement exactly when the inputs are arranged. -/
theorem arrangementKept_iff {value : String → Option Json}
    (hValue : ∀ id item, value id = some item → identity item = some id)
    (hSome : ∀ id, (value id).isSome ↔
      (id ∈ identities l ∧ id ∈ identities r) ∨ (id ∈ identities l ∧ id ∉ identities b) ∨
        (id ∈ identities r ∧ id ∉ identities b)) (key : String) :
    ArrangementKept key b l r ((orderedIds b l r).filterMap value) ↔ Arranged key b l r := by
  have hNodup : (identities ((orderedIds b l r).filterMap value)).Nodup := by
    rw [identities_filterMap hValue]
    exact (nodup_distinct _).filter _
  have hMem : ∀ id, id ∈ identities ((orderedIds b l r).filterMap value) ↔
      (id ∈ identities l ∧ id ∈ identities r) ∨ (id ∈ identities l ∧ id ∉ identities b) ∨
        (id ∈ identities r ∧ id ∉ identities b) := by
    intro id
    rw [identities_filterMap hValue, List.mem_filter, hSome, orderedIds, mem_distinct]
    simp only [List.mem_append]
    tauto
  have hIds := identities_merged hValue hSome
  -- where remote only deleted, local alone decides what comes behind
  have hBehind : OnlyDeletes b r →
      identities ((orderedIds b l r).filterMap value) =
        (distinct (identities r)).filter (· ∈ identities l) ++
          (distinct (identities l)).filter (· ∉ identities b) := by
    intro hRemote
    have hSubset := hRemote.subset
    rw [hIds]
    congr 1
    · apply List.filter_congr
      intro id hId
      rw [mem_distinct] at hId
      simp [hSubset hId]
    · apply List.filter_congr
      intro id _
      rw [decide_eq_decide]
      exact ⟨fun h => h.2, fun h => ⟨fun hr => h (hSubset hr), h⟩⟩
  constructor
  · intro h
    refine ⟨fun id n hn => ?_, fun hKey hRemote hLocal => ?_⟩
    · rw [← h.occurrences id n hn]
      exact List.nodup_iff_count_le_one.mp hNodup id
    · rw [← hBehind hRemote]
      exact h.localOrder hKey hRemote hLocal
  · intro h
    refine ⟨fun id n hn => ?_, fun hKey hRemote hLocal => ?_, fun hKey hLocal _ => ?_⟩
    · have hSingle := h.single id n hn
      rw [hNodup.count]
      simp only [hMem, ← List.count_pos_iff]
      rcases ThreeWay.settled_eq_some hn with ⟨hSide, hn⟩ | ⟨hSide, hn⟩ | ⟨hSide, hn⟩ <;>
        split_ifs <;> omega
    · rw [hBehind hRemote]
      exact h.behind hKey hRemote hLocal
    · have hSubset := hLocal.subset
      have hNone : (distinct (identities l)).filter
          (fun id => id ∉ identities r ∧ id ∉ identities b) = [] := by
        rw [List.filter_eq_nil_iff]
        intro id hId
        rw [mem_distinct] at hId
        simp [hSubset hId]
      rw [hIds, hNone, List.append_nil]
      exact List.filter_sublist.trans (distinct_sublist _)

end Arrays

section Changes

theorem changesKept_of_settled {key : String} {base local_ remote merged value : Option Json}
    (h : ThreeWay.settled base local_ remote = some merged) :
    ChangesKept key base local_ remote value ↔ value = merged := by
  constructor
  · intro hKept
    cases hKept with
    | settled hValue => exact Option.some.inj (hValue.symm.trans h)
    | array hOpen => rw [hOpen] at h; cases h
    | object hOpen => rw [hOpen] at h; cases h
  · rintro rfl
    exact .settled h

theorem changesKept_array {key : String} {b l r merged : List Json}
    (hOpen : ThreeWay.settled (some (Json.array b)) (some (.array l)) (some (.array r)) = none) :
    ChangesKept key (some (.array b)) (some (.array l)) (some (.array r)) (some (.array merged)) ↔
      (∀ id, ChangesKept key (elementOf b id) (elementOf l id) (elementOf r id)
        (elementOf merged id)) ∧ ArrangementKept key b l r merged := by
  constructor
  · intro hKept
    cases hKept with
    | settled hValue => rw [hOpen] at hValue; cases hValue
    | array _ hElements hArrangement => exact ⟨hElements, hArrangement⟩
  · intro h
    exact .array hOpen h.1 h.2

theorem changesKept_object {key : String} {b l r merged : List (String × Json)}
    (hOpen : ThreeWay.settled (some (Json.object b)) (some (.object l)) (some (.object r)) = none) :
    ChangesKept key (some (.object b)) (some (.object l)) (some (.object r))
        (some (.object merged)) ↔
      ∀ field, ChangesKept field (fieldOf b field) (fieldOf l field) (fieldOf r field)
        (fieldOf merged field) := by
  constructor
  · intro hKept
    cases hKept with
    | settled hValue => rw [hOpen] at hValue; cases hValue
    | object _ hFields => exact hFields
  · exact .object hOpen

theorem ordersAgree_array {key : String} {b l r : List Json}
    (hOpen : ThreeWay.settled (some (Json.array b)) (some (.array l)) (some (.array r)) = none) :
    OrdersAgree key (some (.array b)) (some (.array l)) (some (.array r)) ↔
      (∀ id, OrdersAgree key (elementOf b id) (elementOf l id) (elementOf r id)) ∧
        Arranged key b l r := by
  constructor
  · intro hAgree
    cases hAgree with
    | settled hValue => rw [hOpen] at hValue; cases hValue
    | array _ hElements hArranged => exact ⟨hElements, hArranged⟩
  · intro h
    exact .array hOpen h.1 h.2

theorem ordersAgree_object {key : String} {b l r : List (String × Json)}
    (hOpen : ThreeWay.settled (some (Json.object b)) (some (.object l)) (some (.object r)) = none) :
    OrdersAgree key (some (.object b)) (some (.object l)) (some (.object r)) ↔
      ∀ field, OrdersAgree field (fieldOf b field) (fieldOf l field) (fieldOf r field) := by
  constructor
  · intro hAgree
    cases hAgree with
    | settled hValue => rw [hOpen] at hValue; cases hValue
    | object _ hFields => exact hFields
  · exact .object hOpen

/-- A merge without clash keeps all changes exactly when the arrays both sides
changed are arranged. -/
theorem changesKept_iff (base local_ remote : Option Json) (path : String) :
    ∀ key, (∀ document ∈ base, addressable document = true) →
      (∀ document ∈ local_, addressable document = true) →
      (∀ document ∈ remote, addressable document = true) → ¬ EditsClash base local_ remote →
      (ChangesKept key base local_ remote (mergeValue base local_ remote path).value ↔
        OrdersAgree key base local_ remote) := by
  have hSettled : ∀ {base local_ remote merged : Option Json} {path : String} (key : String),
      ThreeWay.settled base local_ remote = some merged →
      (ChangesKept key base local_ remote (mergeValue base local_ remote path).value ↔
        OrdersAgree key base local_ remote) := by
    intro base local_ remote merged path key h
    rw [changesKept_of_settled h]
    exact ⟨fun _ => .settled h, fun _ => (mergeValue_settled h).1⟩
  induction base, local_, remote, path using mergeValue.induct with
  | case1 base remote path => exact fun key _ _ _ _ => hSettled key (ThreeWay.settled_left _ _)
  | case2 local_ base path => exact fun key _ _ _ _ => hSettled key (ThreeWay.settled_right _ _)
  | case3 base side path => exact fun key _ _ _ _ => hSettled key (ThreeWay.settled_same _ _)
  | case4 path b l r hIds hLocal hRemote hSame ih =>
      intro key hBaseDocument hLocalDocument hRemoteDocument hClash
      have hOpen := ThreeWay.settled_eq_none.mpr ⟨hLocal, hRemote, hSame⟩
      have hElements : ∀ id, ¬ EditsClash (elementOf b id) (elementOf l id) (elementOf r id) :=
        fun id hElement => hClash (.element id hOpen hIds hElement)
      have hAddressed : ∀ {items : List Json},
          (∀ document ∈ some (Json.array items), addressable document = true) → ∀ id,
          ∀ item ∈ elementOf items id,
            (identity item = some id ∧ singlyAddressed item = true) ∧ addressable item = true := by
        intro items hItems id item hItem
        obtain ⟨hId, hMem⟩ := identity_of_elementOf hItem
        have hItem := addressable_item (hItems _ rfl) item hMem
        exact ⟨⟨hId, hItem.1⟩, hItem.2⟩
      have hBaseItems := hAddressed hBaseDocument
      have hLocalItems := hAddressed hLocalDocument
      have hRemoteItems := hAddressed hRemoteDocument
      have hValue : ∀ id item,
          (mergeValue (elementOf b id) (elementOf l id) (elementOf r id)
            (path ++ "/" ++ id)).value = some item → identity item = some id :=
        fun id item hItem => identity_merged (fun i hi => (hBaseItems id i hi).1)
          (fun i hi => (hLocalItems id i hi).1) (fun i hi => (hRemoteItems id i hi).1)
          (hElements id) hItem
      have hSome : ∀ id,
          (mergeValue (elementOf b id) (elementOf l id) (elementOf r id)
            (path ++ "/" ++ id)).value.isSome ↔
          (id ∈ identities l ∧ id ∈ identities r) ∨ (id ∈ identities l ∧ id ∉ identities b) ∨
            (id ∈ identities r ∧ id ∉ identities b) := by
        intro id
        rw [isSome_merged (hElements id)]
        simp only [isSome_elementOf, ← Bool.not_eq_true]
      rw [(mergeValue_array hOpen hIds).1, changesKept_array hOpen, ordersAgree_array hOpen,
        arrangementKept_iff hValue hSome]
      refine and_congr_left fun _ => forall_congr' fun id => ?_
      rw [elementOf_filterMap hValue]
      split_ifs with hMem
      · exact ih id key (fun i hi => (hBaseItems id i hi).2) (fun i hi => (hLocalItems id i hi).2)
          (fun i hi => (hRemoteItems id i hi).2) (hElements id)
      · obtain ⟨hb, hl, hr⟩ := elementsOf_eq_none hMem
        rw [hb, hl, hr]
        exact ⟨fun _ => .settled (ThreeWay.settled_same _ _),
          fun _ => .settled (ThreeWay.settled_same _ _)⟩
  | case5 path b l r hIds hLocal hRemote hSame =>
      intro key _ _ _ hClash
      exact absurd (.place (ThreeWay.settled_eq_none.mpr ⟨hLocal, hRemote, hSame⟩)
        (Bool.eq_false_of_not_eq_true hIds)) hClash
  | case6 path b l r hLocal hRemote hSame ih =>
      intro key hBaseDocument hLocalDocument hRemoteDocument hClash
      have hOpen := ThreeWay.settled_eq_none.mpr ⟨hLocal, hRemote, hSame⟩
      rw [(mergeValue_object hOpen).1, changesKept_object hOpen, ordersAgree_object hOpen]
      refine forall_congr' fun field => ?_
      rw [fieldOf_merged]
      exact ih field field (fun _ hd => addressable_field (hBaseDocument _ rfl) hd)
        (fun _ hd => addressable_field (hLocalDocument _ rfl) hd)
        (fun _ hd => addressable_field (hRemoteDocument _ rfl) hd)
        (fun hField => hClash (.field field hOpen hField))
  | case7 base local_ path hLocal remote hArrays hObjects hRemote hSame =>
      intro key _ _ _ hClash
      have hWhole : descends base local_ remote = false := by
        unfold descends
        split
        · exact (hArrays _ _ _ rfl rfl rfl).elim
        · exact (hObjects _ _ _ rfl rfl rfl).elim
        · rfl
      exact absurd (.place (ThreeWay.settled_eq_none.mpr ⟨hLocal, hRemote, hSame⟩) hWhole) hClash

end Changes

section Analysis

/-- The merge of two Revisions loses no change of either. -/
structure LosesNoChange (base local_ remote : Json) : Prop where
  remoteAlone : (analyzeBuilderRevisionConflict base base remote).merged = some remote
  localAlone : (analyzeBuilderRevisionConflict base local_ base).merged = some local_
  symmetric : (analyzeBuilderRevisionConflict base local_ remote).classification =
    (analyzeBuilderRevisionConflict base remote local_).classification
  changesKept : (analyzeBuilderRevisionConflict base local_ remote).classification =
      .compatibleSemanticChange →
    ∃ merged, (analyzeBuilderRevisionConflict base local_ remote).merged = some merged ∧
      ChangesKept "strategy" (some base) (some local_) (some remote) (some merged)

theorem conflictPaths_eq_nil_iff (base local_ remote : Json) :
    (analyzeBuilderRevisionConflict base local_ remote).conflictPaths = [] ↔
      ¬ EditsClash (some base) (some local_) (some remote) := by
  rw [← conflicts_iff (some base) (some local_) (some remote) "strategy", not_not]
  simp only [List.eq_nil_iff_forall_not_mem, analyzeBuilderRevisionConflict, Sequence.mem_sortBy,
    mem_distinct]

theorem classification_eq_iff (base local_ remote : Json) :
    (analyzeBuilderRevisionConflict base local_ remote).classification =
        .compatibleSemanticChange ↔
      ¬ EditsClash (some base) (some local_) (some remote) := by
  rw [← conflictPaths_eq_nil_iff]
  show (if _ then _ else _) = _ ↔ _
  split_ifs with h
  · exact ⟨fun _ => h, fun _ => rfl⟩
  · constructor
    · intro hEq
      cases hEq
    · intro hNone
      exact absurd hNone h

theorem merged_of_not_clash {base local_ remote : Json}
    (h : ¬ EditsClash (some base) (some local_) (some remote)) :
    (analyzeBuilderRevisionConflict base local_ remote).merged =
      (mergeValue (some base) (some local_) (some remote) "strategy").value :=
  if_pos ((conflictPaths_eq_nil_iff base local_ remote).mpr h)

/-- An unchanged side gives way to the other. -/
theorem merged_of_settled {base local_ remote merged : Json}
    (h : ThreeWay.settled (some base) (some local_) (some remote) = some (some merged)) :
    (analyzeBuilderRevisionConflict base local_ remote).merged = some merged := by
  rw [merged_of_not_clash (fun hClash => by rw [hClash.unsettled] at h; cases h)]
  exact (mergeValue_settled h).1

theorem classification_comm (base local_ remote : Json) :
    (analyzeBuilderRevisionConflict base local_ remote).classification =
      (analyzeBuilderRevisionConflict base remote local_).classification := by
  by_cases hClash : EditsClash (some base) (some local_) (some remote)
  · have hLeft := mt (classification_eq_iff base local_ remote).mp (not_not.mpr hClash)
    have hRight := mt (classification_eq_iff base remote local_).mp (not_not.mpr hClash.comm)
    cases hL : (analyzeBuilderRevisionConflict base local_ remote).classification with
    | compatibleSemanticChange => exact absurd hL hLeft
    | directConflict =>
        cases hR : (analyzeBuilderRevisionConflict base remote local_).classification with
        | compatibleSemanticChange => exact absurd hR hRight
        | directConflict => rfl
  · rw [(classification_eq_iff base local_ remote).mpr hClash,
      (classification_eq_iff base remote local_).mpr (fun h => hClash h.comm)]

theorem changesKept_iff_ordersAgree {base local_ remote : Json} (hBase : addressable base = true)
    (hLocal : addressable local_ = true) (hRemote : addressable remote = true)
    (hClash : ¬ EditsClash (some base) (some local_) (some remote)) :
    (∃ merged, (analyzeBuilderRevisionConflict base local_ remote).merged = some merged ∧
      ChangesKept "strategy" (some base) (some local_) (some remote) (some merged)) ↔
      OrdersAgree "strategy" (some base) (some local_) (some remote) := by
  rw [← changesKept_iff (some base) (some local_) (some remote) "strategy" "strategy"
    (fun _ h => Option.some.inj h ▸ hBase) (fun _ h => Option.some.inj h ▸ hLocal)
    (fun _ h => Option.some.inj h ▸ hRemote) hClash, merged_of_not_clash hClash]
  have hSome : (mergeValue (some base) (some local_) (some remote) "strategy").value.isSome := by
    rw [isSome_merged hClash]
    exact .inl ⟨rfl, rfl⟩
  obtain ⟨merged, hMerged⟩ := Option.isSome_iff_exists.mp hSome
  rw [hMerged]
  exact ⟨fun ⟨_, hEq, hKept⟩ => hEq ▸ hKept, fun hKept => ⟨merged, rfl, hKept⟩⟩

/-- Two Revisions merge without loss exactly when their edits clash, and no merge
is offered, or every array both changed is arranged. -/
theorem losesNoChange_iff (base local_ remote : Json) (hBase : addressable base = true)
    (hLocal : addressable local_ = true) (hRemote : addressable remote = true) :
    LosesNoChange base local_ remote ↔
      EditsClash (some base) (some local_) (some remote) ∨
        OrdersAgree "strategy" (some base) (some local_) (some remote) := by
  by_cases hClash : EditsClash (some base) (some local_) (some remote)
  · refine ⟨fun _ => .inl hClash, fun _ => ⟨?_, ?_, ?_, ?_⟩⟩
    · exact merged_of_settled (ThreeWay.settled_left _ _)
    · exact merged_of_settled (ThreeWay.settled_right _ _)
    · exact classification_comm base local_ remote
    · exact fun hCompatible => absurd hClash ((classification_eq_iff _ _ _).mp hCompatible)
  · rw [or_iff_right hClash, ← changesKept_iff_ordersAgree hBase hLocal hRemote hClash]
    constructor
    · exact fun h => h.changesKept ((classification_eq_iff _ _ _).mpr hClash)
    · exact fun hKept => ⟨merged_of_settled (ThreeWay.settled_left _ _),
        merged_of_settled (ThreeWay.settled_right _ _), classification_comm base local_ remote,
        fun _ => hKept⟩

end Analysis

section Insertion

/-- A Strategy over QQQ and VGT with the given statements. -/
def statementsRevision (statements : List Json) : Json :=
  .object [("api_version", .text "ruletrade.dev/strategy/v2"),
    ("semantic_profile", .text "profile-a/daily-compositional-core@1"),
    ("metadata", .object [("name", .text "Base"), ("description", .text ""),
      ("tags", .array [])]),
    ("definitions", .object [
      ("asset_sets", .array [.object [("id", .text "assets"),
        ("assets", .array [.text "QQQ", .text "VGT"])]]),
      ("groups", .array []),
      ("asset_axis", .object [("name", .text "asset"), ("domain_id", .text "growth"),
        ("coordinate_policy", .text "member_identity")])]),
    ("operator_lock", .object [("compare", .text "1")]), ("selection", .null),
    ("predicate", .null),
    ("program", .object [("semantic_id", .text "program"),
      ("clocks", .array [.object [("id", .text "daily"), ("timeframe", .text "daily"),
        ("boundary", .text "close"), ("timezone", .text "UTC"), ("completed_only", .bool true),
        ("terminal_boundary_policy", .text "not_due")]]),
      ("initial_state", .object [("mode", .text "idle")]), ("formalizations", .array []),
      ("statements", .array statements)])]

/-- Hold one asset. -/
def holdStatement (asset : String) : Json :=
  .object [("kind", .text "allocate"), ("semantic_id", .text "hold"), ("method", .text "equal"),
    ("legs", .array [.object [("semantic_id", .text "leg"),
      ("target", .object [("semantic_id", .text "target"), ("kind", .text "asset"),
        ("ref", .text asset)]), ("weight", .null)]]),
    ("clock_id", .text "daily"), ("minimum_weight", .null), ("maximum_weight", .null),
    ("cash_remainder_asset", .null)]

def armStatement : Json :=
  .object [("kind", .text "transition"), ("semantic_id", .text "arm"),
    ("transition", .object [("semantic_id", .text "arm-mode"), ("state_key", .text "mode"),
      ("from_value", .text "idle"), ("to_value", .text "armed"),
      ("when", .object [("kind", .text "state_equals"), ("semantic_id", .text "idle"),
        ("state_key", .text "mode"), ("expected", .text "idle")]), ("clock_id", .text "daily")])]

/-- A statement that local inserts before the one that remote edits is merged in
behind it, without a conflict. -/
theorem insertion_loses_order :
    ¬ LosesNoChange (statementsRevision [holdStatement "QQQ"])
      (statementsRevision [armStatement, holdStatement "QQQ"])
      (statementsRevision [holdStatement "VGT"]) := by
  intro h
  have hClash : ¬ EditsClash (some (statementsRevision [holdStatement "QQQ"]))
      (some (statementsRevision [armStatement, holdStatement "QQQ"]))
      (some (statementsRevision [holdStatement "VGT"])) :=
    (conflictPaths_eq_nil_iff _ _ _).mp (by decide +kernel)
  have hAgree := (changesKept_iff_ordersAgree (by decide) (by decide) (by decide) hClash).mp
    (h.changesKept ((classification_eq_iff _ _ _).mpr hClash))
  have hProgram := (ordersAgree_object (by decide +kernel)).mp hAgree "program"
  have hStatements := (ordersAgree_object (by decide +kernel)).mp hProgram "statements"
  have hArranged := ((ordersAgree_array (by decide +kernel)).mp hStatements).2
  have hBehind := hArranged.behind (by decide) (List.Sublist.refl _)
    (by unfold OnlyDeletes; decide +kernel)
  exact absurd hBehind (by decide +kernel)

/-- Two edits of one asset clash and are not merged. -/
theorem editedAsset_loses_nothing :
    LosesNoChange (statementsRevision [holdStatement "QQQ"])
      (statementsRevision [holdStatement "VGT"]) (statementsRevision [holdStatement "XLK"]) := by
  have hConflict : (analyzeBuilderRevisionConflict (statementsRevision [holdStatement "QQQ"])
      (statementsRevision [holdStatement "VGT"])
      (statementsRevision [holdStatement "XLK"])).conflictPaths ≠ [] := by decide +kernel
  rw [ne_eq, conflictPaths_eq_nil_iff, not_not] at hConflict
  exact (losesNoChange_iff _ _ _ (by decide) (by decide) (by decide)).mpr (.inl hConflict)

end Insertion

end RuleTrade
