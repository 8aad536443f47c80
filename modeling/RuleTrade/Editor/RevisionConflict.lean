import RuleTrade.Library.Json
import RuleTrade.Library.Sequence

/-! Three-way comparison of Revisions in the editor: the documents of a base, of
the local edits on it and of the Revision stored meanwhile. -/

namespace RuleTrade

open Library

section Documents

/-- Field of an object, absent when the object does not have it. -/
def fieldOf (fields : List (String × Json)) (key : String) : Option Json :=
  (fields.find? (fun field => field.1 = key)).map Prod.snd

/-- Id that an array element is addressed by. A null id counts as absent. -/
def identity : Json → Option String
  | .object fields =>
      let key := match fieldOf fields "semantic_id" with
        | none | some .null => fieldOf fields "id"
        | some key => some key
      match key with
      | some (.text id) => some id
      | _ => none
  | _ => none

/-- Ids of an array, in order. -/
def identities (items : List Json) : List String := items.filterMap identity

/-- Element under an id, the last of several. -/
def elementOf (items : List Json) (id : String) : Option Json :=
  items.reverse.find? (fun item => identity item = some id)

theorem sizeOf_fieldOf (fields : List (String × Json)) (key : String) :
    sizeOf (fieldOf fields key) < sizeOf (some (Json.object fields)) := by
  unfold fieldOf
  cases hFound : fields.find? (fun field => field.1 = key) with
  | none =>
      simp only [Option.map_none, Option.none.sizeOf_spec, Option.some.sizeOf_spec,
        Json.object.sizeOf_spec]
      omega
  | some field =>
      have hSize := List.sizeOf_lt_of_mem (List.mem_of_find?_eq_some hFound)
      obtain ⟨name, value⟩ := field
      simp only [Option.map_some, Option.some.sizeOf_spec, Json.object.sizeOf_spec,
        Prod.mk.sizeOf_spec] at hSize ⊢
      omega

theorem sizeOf_elementOf (items : List Json) (id : String) :
    sizeOf (elementOf items id) < sizeOf (some (Json.array items)) := by
  unfold elementOf
  cases hFound : items.reverse.find? (fun item => identity item = some id) with
  | none =>
      simp only [Option.none.sizeOf_spec, Option.some.sizeOf_spec, Json.array.sizeOf_spec]
      omega
  | some item =>
      have hSize := List.sizeOf_lt_of_mem (List.mem_reverse.mp (List.mem_of_find?_eq_some hFound))
      simp only [Option.some.sizeOf_spec, Json.array.sizeOf_spec]
      omega

theorem fieldOf_eq_none {fields : List (String × Json)} {key : String}
    (h : key ∉ fields.map Prod.fst) : fieldOf fields key = none := by
  rw [fieldOf, Option.map_eq_none_iff, List.find?_eq_none]
  intro field hField hKey
  exact h (List.mem_map.mpr ⟨field, hField, of_decide_eq_true hKey⟩)

/-- Fields of an object that is built key by key. -/
theorem fieldOf_filterMap (value : String → Option Json) (keys : List String) (key : String) :
    fieldOf (keys.filterMap (fun k => (value k).map (k, ·))) key =
      if key ∈ keys then value key else none := by
  induction keys with
  | nil => rfl
  | cons k keys ih =>
      cases hValue : value k with
      | none =>
          rw [List.filterMap_cons_none (by rw [hValue]; rfl), ih]
          by_cases hKey : key = k
          · rw [hKey, hValue]
            simp
          · simp only [List.mem_cons, hKey, false_or]
      | some v =>
          rw [List.filterMap_cons_some (b := (k, v)) (by rw [hValue]; rfl)]
          by_cases hKey : key = k
          · rw [if_pos (by rw [hKey]; exact List.mem_cons_self), hKey, hValue]
            simp [fieldOf]
          · simp only [List.mem_cons, hKey, false_or]
            rw [← ih]
            simp [fieldOf, Ne.symm hKey]

theorem identity_of_elementOf {items : List Json} {id : String} {item : Json}
    (h : elementOf items id = some item) : identity item = some id ∧ item ∈ items := by
  have hId := List.find?_some h
  exact ⟨of_decide_eq_true hId, List.mem_reverse.mp (List.mem_of_find?_eq_some h)⟩

theorem isSome_elementOf {items : List Json} {id : String} :
    (elementOf items id).isSome ↔ id ∈ identities items := by
  rw [elementOf, List.find?_isSome, identities, List.mem_filterMap]
  simp

/-- Elements of an array that is built id by id. -/
theorem elementOf_filterMap {value : String → Option Json}
    (hValue : ∀ id item, value id = some item → identity item = some id) (ids : List String)
    (id : String) : elementOf (ids.filterMap value) id = if id ∈ ids then value id else none := by
  induction ids with
  | nil => rfl
  | cons i ids ih =>
      cases hItem : value i with
      | none =>
          rw [List.filterMap_cons_none hItem, ih]
          by_cases hId : id = i
          · rw [hId, hItem]
            simp
          · simp only [List.mem_cons, hId, false_or]
      | some item =>
          have hCons : elementOf (item :: ids.filterMap value) id =
              (elementOf (ids.filterMap value) id).or
                (if identity item = some id then some item else none) := by
            simp [elementOf, List.find?_append]
          rw [List.filterMap_cons_some hItem, hCons, ih, hValue i item hItem]
          by_cases hId : id = i
          · rw [hId, hItem]
            by_cases hMem : i ∈ ids <;> simp [hMem]
          · simp [hId, Ne.symm hId]

theorem identities_filterMap {value : String → Option Json}
    (hValue : ∀ id item, value id = some item → identity item = some id) (ids : List String) :
    identities (ids.filterMap value) = ids.filter (fun id => (value id).isSome) := by
  induction ids with
  | nil => rfl
  | cons i ids ih =>
      cases hItem : value i with
      | none =>
          rw [List.filterMap_cons_none hItem, ih, List.filter_cons_of_neg (by simp [hItem])]
      | some item =>
          rw [List.filterMap_cons_some hItem, List.filter_cons_of_pos (by simp [hItem]), ← ih]
          exact List.filterMap_cons_some (hValue i item hItem)

end Documents

structure MergeResult where
  value : Option Json
  local_ : List String
  remote : List String
  conflicts : List String

section Merge

/-- Elements of a list, each at its first place. -/
def distinct : List String → List String
  | [] => []
  | x :: xs => x :: (distinct xs).filter (· ≠ x)

@[simp] theorem mem_distinct {xs : List String} {x : String} : x ∈ distinct xs ↔ x ∈ xs := by
  induction xs with
  | nil => rfl
  | cons y ys ih =>
      by_cases hEq : x = y
      · simp [distinct, hEq]
      · simp [distinct, hEq, ih]

theorem nodup_distinct : ∀ xs : List String, (distinct xs).Nodup
  | [] => List.nodup_nil
  | x :: xs => List.nodup_cons.mpr ⟨by simp, (nodup_distinct xs).filter _⟩

theorem distinct_sublist : ∀ xs : List String, (distinct xs).Sublist xs
  | [] => List.Sublist.slnil
  | _ :: xs => (List.filter_sublist.trans (distinct_sublist xs)).cons_cons _

theorem distinct_append (xs ys : List String) :
    distinct (xs ++ ys) = distinct xs ++ (distinct ys).filter (· ∉ xs) := by
  induction xs with
  | nil => simp [distinct]
  | cons x xs ih =>
      simp only [List.cons_append, distinct, ih, List.filter_append, List.filter_filter,
        List.cons.injEq, true_and]
      congr 1
      apply List.filter_congr
      intro y _
      simp

/-- Every element of the three arrays has an id. -/
def identifiable (base local_ remote : List Json) : Bool :=
  (base ++ local_ ++ remote).all (fun item => (identity item).isSome)

/-- Ids that three arrays are merged along, the remote ones first. -/
def orderedIds (base local_ remote : List Json) : List String :=
  distinct (identities remote ++ identities local_ ++ identities base)

def mergedKeys (base local_ remote : List (String × Json)) : List String :=
  Sequence.sortBy (fun key => key)
    (distinct (base.map Prod.fst ++ local_.map Prod.fst ++ remote.map Prod.fst))

/-- Merge two documents over a base, descending where both sides changed. Absent
documents are absent fields and elements. -/
def mergeValue (base local_ remote : Option Json) (path : String) : MergeResult :=
  if local_ = base then ⟨remote, [], if remote = base then [] else [path], []⟩
  else if remote = base then ⟨local_, [path], [], []⟩
  else if local_ = remote then ⟨local_, [path], [path], []⟩
  else match base, local_, remote with
    | some (.array b), some (.array l), some (.array r) =>
        if identifiable b l r then
          let children := (orderedIds b l r).map (fun id =>
            mergeValue (elementOf b id) (elementOf l id) (elementOf r id) (path ++ "/" ++ id))
          ⟨some (.array (children.filterMap MergeResult.value)),
            children.flatMap MergeResult.local_, children.flatMap MergeResult.remote,
            children.flatMap MergeResult.conflicts⟩
        else ⟨some (.array r), [path], [path], [path]⟩
    | some (.object b), some (.object l), some (.object r) =>
        let children := (mergedKeys b l r).map (fun key =>
          (key, mergeValue (fieldOf b key) (fieldOf l key) (fieldOf r key) (path ++ "/" ++ key)))
        ⟨some (.object (children.filterMap (fun child => child.2.value.map (child.1, ·)))),
          children.flatMap (fun child => child.2.local_),
          children.flatMap (fun child => child.2.remote),
          children.flatMap (fun child => child.2.conflicts)⟩
    | _, _, remote => ⟨remote, [path], [path], [path]⟩
  termination_by sizeOf base + sizeOf local_ + sizeOf remote
  decreasing_by
    · have hBase := sizeOf_elementOf b id
      have hLocal := sizeOf_elementOf l id
      have hRemote := sizeOf_elementOf r id
      omega
    · have hBase := sizeOf_fieldOf b key
      have hLocal := sizeOf_fieldOf l key
      have hRemote := sizeOf_fieldOf r key
      omega

end Merge

inductive ConflictClassification where
  | compatibleSemanticChange
  | directConflict
  deriving DecidableEq, Repr

structure RevisionConflictAnalysis where
  classification : ConflictClassification
  conflictPaths : List String
  localChangePaths : List String
  remoteChangePaths : List String
  merged : Option Json

/-- Compare the edits of two sides on one Revision. There is a merged document
only when no address was changed on both sides to different contents. -/
def analyzeBuilderRevisionConflict (base local_ remote : Json) : RevisionConflictAnalysis :=
  let result := mergeValue (some base) (some local_) (some remote) "strategy"
  let conflictPaths := Sequence.sortBy (fun path => path) (distinct result.conflicts)
  { classification :=
      if conflictPaths = [] then .compatibleSemanticChange else .directConflict
    conflictPaths := conflictPaths
    localChangePaths := Sequence.sortBy (fun path => path) (distinct result.local_)
    remoteChangePaths := Sequence.sortBy (fun path => path) (distinct result.remote)
    merged := if conflictPaths = [] then result.value else none }

end RuleTrade
