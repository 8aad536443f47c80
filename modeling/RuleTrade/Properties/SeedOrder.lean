import RuleTrade.Properties.RandomSeeds

/-! What the order of a strategy's parts does to its hash, and to the seeds. -/

namespace RuleTrade.V1

open Library Library.JsonText

section Trees

/-- The document of a value as the hash sees it. -/
def hashTree (value : Value) : Option Tree := (normalizeValue value).bind (encode fun _ => none)

theorem hashTree_fields (fields : List (String × Value)) :
    (normalizeFields fields).bind (encodeFields fun _ => none) =
      fields.mapM fun field => (hashTree field.2).map fun tree => (field.1, tree) := by
  induction fields with
  | nil => rfl
  | cons field rest ih =>
      obtain ⟨key, value⟩ := field
      rw [List.mapM_cons, ← ih, normalizeFields]
      cases hValue : normalizeValue value with
      | none => simp [hashTree, hValue]
      | some normal =>
          cases hRest : normalizeFields rest with
          | none => cases hTree : encode (fun _ => none) normal <;> simp [hashTree, hValue, hTree]
          | some others =>
              cases hTree : encode (fun _ => none) normal <;>
                simp [hashTree, hValue, hTree, encodeFields]

theorem keys_normalizeFields {fields normal : List (String × Value)}
    (h : normalizeFields fields = some normal) : normal.map Prod.fst = fields.map Prod.fst := by
  induction fields generalizing normal with
  | nil =>
      cases h
      rfl
  | cons field rest ih =>
      obtain ⟨key, value⟩ := field
      obtain ⟨first, -, h⟩ := Option.bind_eq_some_iff.mp h
      obtain ⟨others, hOthers, h⟩ := Option.bind_eq_some_iff.mp h
      cases h
      rw [List.map_cons, List.map_cons, ih hOthers]

/-- An object without a `kind` is written field by field. -/
theorem hashTree_dict {fields : List (String × Value)} (hKind : "kind" ∉ fields.map Prod.fst) :
    hashTree (.dict fields) =
      (fields.mapM fun field => (hashTree field.2).map fun tree => (field.1, tree)).map .object := by
  rw [← hashTree_fields, hashTree, normalizeValue]
  cases hFields : normalizeFields fields with
  | none => rfl
  | some normal =>
      have hNone : Dict.find "kind" normal = none := by
        rw [Dict.find_eq_none_iff, keys_normalizeFields hFields]
        exact hKind
      have hSame : withoutDailyDefaults normal = normal := by
        simp [withoutDailyDefaults, hNone, isText]
      rw [Option.map_some, Option.bind_some, Option.bind_some, hSame]
      rfl

theorem hashTree_list (items : List Value) :
    hashTree (.list items) = (items.mapM hashTree).map .array := by
  have hItems : (normalizeItems items).bind (encodeItems fun _ => none) =
      items.mapM hashTree := by
    induction items with
    | nil => rfl
    | cons item rest ih =>
        rw [List.mapM_cons, ← ih, normalizeItems]
        cases hItem : normalizeValue item with
        | none => simp [hashTree, hItem]
        | some normal =>
            cases hRest : normalizeItems rest with
            | none => cases hTree : encode (fun _ => none) normal <;> simp [hashTree, hItem, hTree]
            | some others =>
                cases hTree : encode (fun _ => none) normal <;>
                  simp [hashTree, hItem, hTree, encodeItems]
  rw [← hItems, hashTree, normalizeValue]
  cases normalizeItems items with
  | none => rfl
  | some normal => rfl

@[simp] theorem hashTree_text (text : String) : hashTree (.text text) = some (.text text) := rfl

@[simp] theorem hashTree_integer (n : Int) : hashTree (.integer n) = some (.atom (toString n)) := rfl

end Trees

section Definitions

def optionalTree (text : Option String) : Tree := (text.map Tree.text).getD (.atom "null")

@[simp] theorem hashTree_optionalText (text : Option String) :
    hashTree (optionalText text) = some (optionalTree text) := by
  cases text <;> rfl

/-- A group in the canonical document. -/
def groupTree (group : GroupDefinition) : Tree :=
  .object [("asset_set_ref", .text group.assetSetRef), ("description", .text group.description),
    ("id", .text group.id), ("name", .text group.name)]

def universeTree (definition : UniverseDefinition) : Tree :=
  .object [("asset_set_ref", optionalTree definition.assetSetRef),
    ("group_ref", optionalTree definition.groupRef), ("id", .text definition.id),
    ("name", .text definition.name), ("provider_id", optionalTree definition.providerId),
    ("query", optionalTree definition.query), ("source", .text definition.source.text)]

def groupsTree (groups : List GroupDefinition) : Tree := .array (groups.map groupTree)

def universesTree (universes : List UniverseDefinition) : Tree :=
  .array (universes.map universeTree)

@[simp] theorem sorted_optionalTree (text : Option String) :
    sorted (optionalTree text) = optionalTree text := by
  cases text <;> rfl

/-- Items that are written one by one are written together. -/
theorem hashTree_listOf {α : Type} {write : α → Value} {tree : α → Tree} {items : List α}
    (h : ∀ item ∈ items, (hashTree (write item)).map sorted = some (tree item)) :
    (hashTree (.list (items.map write))).map sorted = some (.array (items.map tree)) := by
  have hEach : ∃ trees, (items.map write).mapM hashTree = some trees ∧
      trees.map sorted = items.map tree := by
    induction items with
    | nil => exact ⟨[], rfl, rfl⟩
    | cons item rest ih =>
        obtain ⟨trees, hTrees, hSorted⟩ := ih fun other hOther => h other (List.mem_cons_of_mem _ hOther)
        obtain ⟨first, hFirst, hEq⟩ := Option.map_eq_some_iff.mp (h item List.mem_cons_self)
        refine ⟨first :: trees, ?_, by rw [List.map_cons, List.map_cons, hEq, hSorted]⟩
        rw [List.map_cons, List.mapM_cons, hFirst, hTrees]
        rfl
  obtain ⟨trees, hTrees, hSorted⟩ := hEach
  rw [hashTree_list, hTrees, Option.map_some, Option.map_some, sorted, sortedItems_eq, hSorted]

theorem hashTree_groups (groups : List GroupDefinition) :
    (hashTree (.list (groups.map GroupDefinition.dump))).map sorted = some (groupsTree groups) := by
  apply hashTree_listOf
  intro group _
  rw [GroupDefinition.dump, hashTree_dict (by simp)]
  simp [groupTree, sorted, sortedFields, byKey, List.insertionSort, List.orderedInsert]

theorem hashTree_universes (universes : List UniverseDefinition) :
    (hashTree (.list (universes.map UniverseDefinition.dump))).map sorted =
      some (universesTree universes) := by
  apply hashTree_listOf
  intro definition _
  rw [UniverseDefinition.dump, hashTree_dict (by simp)]
  simp [universeTree, sorted, sortedFields, byKey, List.insertionSort, List.orderedInsert]

theorem plain_optionalTree (text : Option String) : PlainAtoms (optionalTree text) := by
  cases text with
  | none => exact ⟨by decide, by decide⟩
  | some text => trivial

theorem plainItems_map {α : Type} {tree : α → Tree} (h : ∀ item, PlainAtoms (tree item))
    (items : List α) : PlainItems (items.map tree) := by
  induction items with
  | nil => trivial
  | cons item rest ih => exact ⟨h item, ih⟩

theorem plain_groupTree (group : GroupDefinition) : PlainAtoms (groupTree group) :=
  ⟨trivial, trivial, trivial, trivial, trivial⟩

theorem plain_universeTree (definition : UniverseDefinition) :
    PlainAtoms (universeTree definition) :=
  ⟨plain_optionalTree _, plain_optionalTree _, trivial, trivial, plain_optionalTree _,
    plain_optionalTree _, trivial, trivial⟩

theorem plain_groupsTree (groups : List GroupDefinition) : PlainAtoms (groupsTree groups) :=
  plainItems_map plain_groupTree groups

theorem plain_universesTree (universes : List UniverseDefinition) :
    PlainAtoms (universesTree universes) :=
  plainItems_map plain_universeTree universes

theorem optionalTree_injective : Function.Injective optionalTree := by
  intro left right h
  cases left <;> cases right <;> simp_all [optionalTree]

theorem groupsTree_injective : Function.Injective groupsTree := by
  have hEach : Function.Injective groupTree := by
    intro left right h
    cases left
    cases right
    simp_all [groupTree]
  intro left right h
  exact List.map_injective_iff.mpr hEach (by simpa [groupsTree] using h)

theorem universesTree_injective : Function.Injective universesTree := by
  have hSource : Function.Injective UniverseSource.text := by
    intro left right h
    cases left <;> cases right <;> first
      | rfl
      | exact absurd h (by decide)
  have hEach : Function.Injective universeTree := by
    intro left right h
    cases left
    cases right
    simp only [universeTree, Tree.object.injEq, List.cons.injEq, Prod.mk.injEq, true_and,
      Tree.text.injEq, and_true] at h
    obtain ⟨hAssetSet, hGroup, rfl, rfl, hProvider, hQuery, hText⟩ := h
    rw [optionalTree_injective hAssetSet, optionalTree_injective hGroup,
      optionalTree_injective hProvider, optionalTree_injective hQuery, hSource hText]
  intro left right h
  exact List.map_injective_iff.mpr hEach (by simpa [universesTree] using h)

end Definitions

section Document

/-- The parts of the canonical document in which order is not seen. -/
structure CommonParts where
  assetSets : Tree
  parameters : Tree
  state : Tree
  components : Tree
  connections : Tree
  entrypoints : Tree
  randomSeed : Int

/-- A collection in the canonical document. -/
def collectionTree (items : List Value) : Option Tree := (hashTree (.list items)).map sorted

def commonParts (strategy : CanonicalStrategyV1) : Option CommonParts := do
  let components ←
    (Sequence.sortBy Component.id strategy.graph.components).mapM hashedComponent
  let definitions := strategy.definitions
  let assetSets ← collectionTree
    ((Sequence.sortBy AssetSetDefinition.id definitions.assetSets).map AssetSetDefinition.dump)
  let parameters ← collectionTree
    ((Sequence.sortBy ParameterDefinition.id definitions.parameters).map ParameterDefinition.dump)
  let state ← collectionTree
    ((Sequence.sortBy StateDefinition.id definitions.state).map StateDefinition.dump)
  let components ← collectionTree components
  let connections ← collectionTree
    ((Sequence.sortBy connectionKey strategy.graph.connections).map Connection.dump)
  let entrypoints ← collectionTree
    ((Sequence.sortBy entrypointKey strategy.entrypoints).map Entrypoint.dump)
  pure { assetSets, parameters, state, components, connections, entrypoints
         randomSeed := strategy.randomSeed }

/-- The canonical document of its parts. -/
def documentTree (parts : CommonParts) (groups universes : Tree) : Tree :=
  .object [("api_version", .text "ruletrade.dev/strategy/v1"),
    ("definitions", .object [("asset_sets", parts.assetSets), ("groups", groups),
      ("parameters", parts.parameters), ("state", parts.state), ("universes", universes)]),
    ("entrypoints", parts.entrypoints),
    ("graph", .object [("components", parts.components), ("connections", parts.connections)]),
    ("random_seed", .atom (toString parts.randomSeed))]

theorem hashTree_definitions {definitions : StrategyDefinitions} :
    (hashTree (hashedDefinitions definitions)).map sorted = (do
      let assetSets ← collectionTree ((Sequence.sortBy AssetSetDefinition.id
        definitions.assetSets).map AssetSetDefinition.dump)
      let parameters ← collectionTree ((Sequence.sortBy ParameterDefinition.id
        definitions.parameters).map ParameterDefinition.dump)
      let state ← collectionTree
        ((Sequence.sortBy StateDefinition.id definitions.state).map StateDefinition.dump)
      pure (.object [("asset_sets", assetSets), ("groups", groupsTree definitions.groups),
        ("parameters", parameters), ("state", state),
        ("universes", universesTree definitions.universes)])) := by
  obtain ⟨groups, hGroups, hGroupsTree⟩ :=
    Option.map_eq_some_iff.mp (hashTree_groups definitions.groups)
  obtain ⟨universes, hUniverses, hUniversesTree⟩ :=
    Option.map_eq_some_iff.mp (hashTree_universes definitions.universes)
  rw [hashedDefinitions, hashTree_dict (by simp), ← hGroupsTree, ← hUniversesTree]
  simp only [collectionTree, List.mapM_cons, List.mapM_nil, hGroups, hUniverses]
  generalize hashTree (.list ((Sequence.sortBy AssetSetDefinition.id
    definitions.assetSets).map AssetSetDefinition.dump)) = assetSets
  generalize hashTree (.list ((Sequence.sortBy ParameterDefinition.id
    definitions.parameters).map ParameterDefinition.dump)) = parameters
  generalize hashTree (.list ((Sequence.sortBy StateDefinition.id
    definitions.state).map StateDefinition.dump)) = state
  cases assetSets <;> cases parameters <;> cases state <;>
    simp [sorted, sortedFields, byKey, List.insertionSort, List.orderedInsert]

theorem hashTree_graph {components connections : List Value} :
    (hashTree (.dict [("components", .list components),
        ("connections", .list connections)])).map sorted = (do
      let components ← collectionTree components
      let connections ← collectionTree connections
      pure (.object [("components", components), ("connections", connections)])) := by
  rw [hashTree_dict (by simp)]
  simp only [collectionTree, List.mapM_cons, List.mapM_nil]
  generalize hashTree (.list components) = components
  generalize hashTree (.list connections) = connections
  cases components <;> cases connections <;>
    simp [sorted, sortedFields, byKey, List.insertionSort]

/-- The document of a payload, whose keys are sorted. -/
theorem hashTree_payload {seed : Int} {definitions graph entrypoints : Value} :
    (hashTree (.dict [("api_version", .text "ruletrade.dev/strategy/v1"),
        ("random_seed", .integer seed), ("definitions", definitions), ("graph", graph),
        ("entrypoints", entrypoints)])).map sorted = (do
      let definitions ← (hashTree definitions).map sorted
      let graph ← (hashTree graph).map sorted
      let entrypoints ← (hashTree entrypoints).map sorted
      pure (.object [("api_version", .text "ruletrade.dev/strategy/v1"),
        ("definitions", definitions), ("entrypoints", entrypoints), ("graph", graph),
        ("random_seed", .atom (toString seed))])) := by
  rw [hashTree_dict (by simp)]
  simp only [List.mapM_cons, List.mapM_nil]
  generalize hashTree definitions = definitions
  generalize hashTree graph = graph
  generalize hashTree entrypoints = entrypoints
  cases definitions <;> cases graph <;> cases entrypoints <;>
    simp [sorted, sortedFields, byKey, List.insertionSort, List.orderedInsert]

theorem dumps_hashTree (value : Value) :
    (do
      let payload ← normalizeValue value
      pure (dumps (← encode (fun _ => none) payload))) =
      ((hashTree value).map sorted).map fun tree => String.ofList (render tree) := by
  rw [hashTree]
  cases normalizeValue value with
  | none => rfl
  | some payload => cases h : encode (fun _ => none) payload <;> simp [h, dumps]

/-- The canonical text is the document of the parts. -/
theorem canonicalJson_eq (strategy : CanonicalStrategyV1) :
    canonicalJson strategy = (commonParts strategy).map fun parts =>
      String.ofList (render (documentTree parts (groupsTree strategy.definitions.groups)
        (universesTree strategy.definitions.universes))) := by
  unfold canonicalJson semanticPayload commonParts
  cases (Sequence.sortBy Component.id strategy.graph.components).mapM hashedComponent with
  | none => rfl
  | some components =>
      have hDumps := dumps_hashTree (.dict [("api_version", .text "ruletrade.dev/strategy/v1"),
        ("random_seed", .integer strategy.randomSeed),
        ("definitions", hashedDefinitions strategy.definitions),
        ("graph", .dict [("components", .list components),
          ("connections", .list ((Sequence.sortBy connectionKey strategy.graph.connections).map
            Connection.dump))]),
        ("entrypoints", .list ((Sequence.sortBy entrypointKey strategy.entrypoints).map
          Entrypoint.dump))])
      rw [hashTree_payload, hashTree_definitions, hashTree_graph] at hDumps
      refine Eq.trans ?_ (hDumps.trans ?_)
      · rfl
      · simp only [Option.pure_def, Option.bind_eq_bind, Option.bind_some]
        cases collectionTree ((Sequence.sortBy AssetSetDefinition.id
          strategy.definitions.assetSets).map AssetSetDefinition.dump) with
        | none => rfl
        | some assetSets =>
        cases collectionTree ((Sequence.sortBy ParameterDefinition.id
          strategy.definitions.parameters).map ParameterDefinition.dump) with
        | none => rfl
        | some parameters =>
        cases collectionTree ((Sequence.sortBy StateDefinition.id
          strategy.definitions.state).map StateDefinition.dump) with
        | none => rfl
        | some state =>
        cases collectionTree components with
        | none => rfl
        | some componentsTree =>
        cases collectionTree ((Sequence.sortBy connectionKey
          strategy.graph.connections).map Connection.dump) with
        | none => rfl
        | some connections =>
        simp only [Option.bind_some]
        unfold collectionTree
        cases (hashTree (.list ((Sequence.sortBy entrypointKey
          strategy.entrypoints).map Entrypoint.dump))).map sorted with
        | none => rfl
        | some entrypoints => rfl

end Document

section Order

/-- The same strategy with its parts in another order. -/
structure Reordered (left right : CanonicalStrategyV1) : Prop where
  randomSeed : left.randomSeed = right.randomSeed
  assetSets : left.definitions.assetSets.Perm right.definitions.assetSets
  groups : left.definitions.groups.Perm right.definitions.groups
  universes : left.definitions.universes.Perm right.definitions.universes
  parameters : left.definitions.parameters.Perm right.definitions.parameters
  state : left.definitions.state.Perm right.definitions.state
  components : left.graph.components.Perm right.graph.components
  connections : left.graph.connections.Perm right.graph.connections
  entrypoints : left.entrypoints.Perm right.entrypoints

theorem connectionKey_injective : Function.Injective connectionKey := by
  rintro ⟨⟨a, b⟩, ⟨c, d⟩⟩ ⟨⟨a', b'⟩, ⟨c', d'⟩⟩ h
  simp only [connectionKey, List.cons.injEq, and_true] at h
  obtain ⟨rfl, rfl, rfl, rfl⟩ := h
  rfl

theorem entrypointKey_injective : Function.Injective entrypointKey := by
  rintro ⟨a, b⟩ ⟨a', b'⟩ h
  simp only [entrypointKey, List.cons.injEq, and_true] at h
  obtain ⟨rfl, rfl⟩ := h
  rfl

/-- Order is not seen in the common parts. -/
theorem commonParts_of_reordered {left right : CanonicalStrategyV1} (hWell : left.WellFormed)
    (h : Reordered left right) : commonParts left = commonParts right := by
  have hComponents : Sequence.sortBy Component.id left.graph.components =
      Sequence.sortBy Component.id right.graph.components :=
    Sequence.sortBy_of_perm h.components hWell.components
  have hAssetSets : Sequence.sortBy AssetSetDefinition.id left.definitions.assetSets =
      Sequence.sortBy AssetSetDefinition.id right.definitions.assetSets :=
    Sequence.sortBy_of_perm h.assetSets hWell.assetSets
  have hParameters : Sequence.sortBy ParameterDefinition.id left.definitions.parameters =
      Sequence.sortBy ParameterDefinition.id right.definitions.parameters :=
    Sequence.sortBy_of_perm h.parameters hWell.parameters
  have hState : Sequence.sortBy StateDefinition.id left.definitions.state =
      Sequence.sortBy StateDefinition.id right.definitions.state :=
    Sequence.sortBy_of_perm h.state hWell.state
  have hConnections : Sequence.sortBy connectionKey left.graph.connections =
      Sequence.sortBy connectionKey right.graph.connections :=
    Sequence.sortBy_of_perm_of_injective connectionKey_injective h.connections
  have hEntrypoints : Sequence.sortBy entrypointKey left.entrypoints =
      Sequence.sortBy entrypointKey right.entrypoints :=
    Sequence.sortBy_of_perm_of_injective entrypointKey_injective h.entrypoints
  simp only [commonParts, hComponents, hAssetSets, hParameters, hState, hConnections, hEntrypoints,
    h.randomSeed]

/-- Groups and universes can be read off the text of the document. -/
theorem documentTree_inj {parts : CommonParts} {groups groups' : List GroupDefinition}
    {universes universes' : List UniverseDefinition}
    (h : render (documentTree parts (groupsTree groups) (universesTree universes)) =
      render (documentTree parts (groupsTree groups') (universesTree universes'))) :
    groups = groups' ∧ universes = universes' := by
  simp only [documentTree, render, renderFields, List.cons_append, List.nil_append,
    List.append_assoc, List.cons.injEq, List.append_cancel_left_eq, true_and] at h
  obtain ⟨hGroups, hRest⟩ := render_append_inj _ _ (plain_groupsTree _) (plain_groupsTree _)
    (delimited_cons rfl) (delimited_cons rfl) h
  simp only [List.cons.injEq, List.append_cancel_left_eq, true_and] at hRest
  obtain ⟨hUniverses, -⟩ := render_append_inj _ _ (plain_universesTree _) (plain_universesTree _)
    (delimited_cons rfl) (delimited_cons rfl) hRest
  exact ⟨groupsTree_injective hGroups, universesTree_injective hUniverses⟩

/-- Groups and universes in one order in both strategies. -/
def SameGroupsAndUniverses (left right : CanonicalStrategyV1) : Prop :=
  left.definitions.groups = right.definitions.groups ∧
    left.definitions.universes = right.definitions.universes

/-- The hash sees the order of groups and universes, and no other. -/
theorem canonicalJson_eq_iff {left right : CanonicalStrategyV1} (hWell : left.WellFormed)
    (h : Reordered left right) (hSome : (canonicalJson left).isSome) :
    canonicalJson left = canonicalJson right ↔ SameGroupsAndUniverses left right := by
  rw [canonicalJson_eq, Option.isSome_map] at hSome
  obtain ⟨parts, hParts⟩ := Option.isSome_iff_exists.mp hSome
  rw [canonicalJson_eq, canonicalJson_eq, ← commonParts_of_reordered hWell h, hParts,
    Option.map_some, Option.map_some, Option.some_inj, String.ofList_inj]
  constructor
  · exact documentTree_inj
  · rintro ⟨hGroups, hUniverses⟩
    rw [hGroups, hUniverses]

end Order

section Bindings

/-- A run over a list in another order gives the same results in another order. -/
theorem mapM_of_perm {α β : Type} {f : α → Option β} {xs ys : List α} (h : xs.Perm ys) :
    (xs.mapM f = none ∧ ys.mapM f = none) ∨
      ∃ as bs, xs.mapM f = some as ∧ ys.mapM f = some bs ∧ as.Perm bs := by
  induction h with
  | nil => exact Or.inr ⟨[], [], rfl, rfl, .nil⟩
  | cons x _ ih =>
      rw [List.mapM_cons, List.mapM_cons]
      cases f x with
      | none => exact Or.inl ⟨rfl, rfl⟩
      | some a =>
          rcases ih with ⟨hLeft, hRight⟩ | ⟨as, bs, hLeft, hRight, hPerm⟩
          · rw [hLeft, hRight]
            exact Or.inl ⟨rfl, rfl⟩
          · rw [hLeft, hRight]
            exact Or.inr ⟨a :: as, a :: bs, rfl, rfl, hPerm.cons a⟩
  | swap x y xs =>
      rw [List.mapM_cons, List.mapM_cons, List.mapM_cons, List.mapM_cons]
      cases f x with
      | none => cases f y <;> exact Or.inl ⟨rfl, rfl⟩
      | some a =>
          cases f y with
          | none => exact Or.inl ⟨rfl, rfl⟩
          | some b =>
              cases xs.mapM f with
              | none => exact Or.inl ⟨rfl, rfl⟩
              | some as => exact Or.inr ⟨b :: a :: as, a :: b :: as, rfl, rfl, .swap a b as⟩
  | trans _ _ ih ih' =>
      rcases ih with ⟨hLeft, hMiddle⟩ | ⟨as, bs, hLeft, hMiddle, hPerm⟩
      · rcases ih' with ⟨-, hRight⟩ | ⟨cs, ds, hSome, -⟩
        · exact Or.inl ⟨hLeft, hRight⟩
        · rw [hMiddle] at hSome
          cases hSome
      · rcases ih' with ⟨hNone, -⟩ | ⟨cs, ds, hSome, hRight, hPerm'⟩
        · rw [hMiddle] at hNone
          cases hNone
        · rw [hMiddle] at hSome
          cases hSome
          exact Or.inr ⟨as, ds, hLeft, hRight, hPerm.trans hPerm'⟩

theorem encodeFields_eq (fallback : Value → Option String) (fields : List (String × Value)) :
    encodeFields fallback fields =
      fields.mapM fun field => (encode fallback field.2).map fun tree => (field.1, tree) := by
  induction fields with
  | nil => rfl
  | cons field rest ih =>
      obtain ⟨key, value⟩ := field
      rw [encodeFields, List.mapM_cons, ← ih]
      cases encode fallback value <;> rfl

theorem keys_encodeFields {fallback : Value → Option String} {fields : List (String × Value)}
    {trees : List (String × Tree)} (h : encodeFields fallback fields = some trees) :
    trees.map Prod.fst = fields.map Prod.fst := by
  induction fields generalizing trees with
  | nil =>
      cases h
      rfl
  | cons field rest ih =>
      obtain ⟨key, value⟩ := field
      obtain ⟨first, -, h⟩ := Option.bind_eq_some_iff.mp h
      obtain ⟨others, hOthers, h⟩ := Option.bind_eq_some_iff.mp h
      cases h
      rw [List.map_cons, List.map_cons, ih hOthers]

/-- The order of the parameters is not seen in the bindings. -/
theorem parameterBindings_of_reordered {left right : CanonicalStrategyV1} (hWell : left.WellFormed)
    (h : Reordered left right) (provided : Dict String Value) :
    canonicalParameterBindingsJson left provided =
      canonicalParameterBindingsJson right provided := by
  unfold canonicalParameterBindingsJson
  have hKnown : (provided.keys.all fun key =>
      left.definitions.parameters.any fun parameter => parameter.id = key) =
        provided.keys.all fun key =>
          right.definitions.parameters.any fun parameter => parameter.id = key := by
    congr 1
    funext key
    rw [Bool.eq_iff_iff, List.any_eq_true, List.any_eq_true]
    simp only [h.parameters.mem_iff]
  cases hAll : provided.keys.all fun key =>
      right.definitions.parameters.any fun parameter => parameter.id = key with
  | false => simp [normalizedParameterBindings, hKnown, hAll]
  | true =>
      rcases mapM_of_perm (f := fun parameter : ParameterDefinition =>
          (normalizeTypedValue (provided.getD parameter.id parameter.default)
            parameter.valueType).bind fun value => some (parameter.id, value)) h.parameters with
        ⟨hLeft, hRight⟩ | ⟨as, bs, hLeft, hRight, hPerm⟩
      · have hLeft : normalizedParameterBindings left provided = none := by
          simp only [normalizedParameterBindings, hKnown, hAll, if_true]
          exact hLeft
        have hRight : normalizedParameterBindings right provided = none := by
          simp only [normalizedParameterBindings, hAll, if_true]
          exact hRight
        rw [hLeft, hRight]
      · have hLeft : normalizedParameterBindings left provided = some as := by
          simp only [normalizedParameterBindings, hKnown, hAll, if_true]
          exact hLeft
        have hRight : normalizedParameterBindings right provided = some bs := by
          simp only [normalizedParameterBindings, hAll, if_true]
          exact hRight
        have hKeys : (as.map Prod.fst).Nodup := by
          rw [(normalizedParameterBindings_spec hLeft).1]
          exact hWell.parameters
        rw [hLeft, hRight]
        simp only [Option.bind_eq_bind, Option.bind_some, encode]
        rw [encodeFields_eq, encodeFields_eq]
        rcases mapM_of_perm (f := fun field : String × Value =>
            (encode jsonDefault field.2).map fun tree => (field.1, tree)) hPerm with
          ⟨hLeft, hRight⟩ | ⟨ts, us, hLeft, hRight, hTrees⟩
        · rw [hLeft, hRight]
        · rw [hLeft, hRight]
          have hTreeKeys : (ts.map Prod.fst).Nodup := by
            rw [← encodeFields_eq] at hLeft
            rw [keys_encodeFields hLeft]
            exact hKeys
          simp only [Option.map_some, Option.bind_some, dumps,
            sorted_object_of_perm hTrees hTreeKeys]

end Bindings

section Seeds

/-- What is hashed for a seed, over the text of the bindings. -/
def materialText (identity componentId bindingsJson : String) (event : Option String) : String :=
  String.ofList (keyText '{' "component_id" ++ quote componentId ++ eventText event ++
    keyText ',' "parameter_bindings" ++ bindingsJson.toList ++ keyText ',' "strategy" ++
      quote identity ++ ['}'])

theorem dumps_eq_materialText (identity componentId : String) (bindings : Tree)
    (event : Option String) :
    dumps (materialTree identity componentId bindings event) =
      materialText identity componentId (dumps bindings) event := by
  apply String.toList_inj.mp
  rw [dumps_materialTree, materialText, String.toList_ofList]

/-- Of a strategy the seed sees one component, the bindings and the hash. -/
theorem deterministicRandomSeed_eq (sha256 : ByteArray → Digest) (strategy : CanonicalStrategyV1)
    (componentId event : String) (provided : Dict String Value) :
    deterministicRandomSeed sha256 strategy componentId (some event) provided = (do
      let component ← strategy.component? componentId
      if !isRandomSelection component then none
      let resample ← resolvedResample component
      let perEvent := isText "per_event" (some resample)
      if perEvent && event.isEmpty then none
      let json ← canonicalParameterBindingsJson strategy provided
      let identity ← strategyHash sha256 strategy
      pure (fromBytes ((sha256 (materialText identity component.id json
        (if perEvent then some event else none)).toUTF8).toList.take 8))) := by
  unfold deterministicRandomSeed canonicalParameterBindingsJson
  cases strategy.component? componentId with
  | none => rfl
  | some component =>
      cases hRandom : isRandomSelection component with
      | false => simp [hRandom]
      | true =>
          cases hResample : resolvedResample component with
          | none => simp [hRandom, hResample]
          | some resample =>
              simp only [Option.bind_eq_bind, Option.bind_some, hRandom, hResample, Bool.not_true,
                Bool.false_eq_true, if_false, Option.getD_some, Option.pure_def]
              cases isText "per_event" (some resample) && event.isEmpty with
              | true => rfl
              | false =>
                  simp only [Bool.false_eq_true, if_false]
                  cases normalizedParameterBindings strategy provided with
                  | none => rfl
                  | some bindings =>
                      cases hTree : encode jsonDefault (.dict bindings) <;>
                        cases strategyHash sha256 strategy <;>
                          simp [hTree, encode_seedMaterial, dumps_eq_materialText]

theorem component?_of_reordered {left right : CanonicalStrategyV1} (hWell : left.WellFormed)
    (h : Reordered left right) (id : String) : left.component? id = right.component? id := by
  have hNodup : (right.graph.components.map Component.id).Nodup :=
    (h.components.map Component.id).nodup_iff.mp hWell.components
  cases hFind : right.component? id with
  | none =>
      rw [CanonicalStrategyV1.component?, List.find?_eq_none] at hFind ⊢
      exact fun component hMem => hFind component (h.components.mem_iff.mp hMem)
  | some component =>
      have hMem := h.components.mem_iff.mpr (List.mem_of_find?_eq_some hFind)
      have hId : component.id = id := by simpa using List.find?_some hFind
      rw [← hId]
      exact Sequence.find?_of_nodup hWell.components hMem

/-- One order of groups and universes, and the seeds are the same. -/
theorem seeds_of_sameGroupsAndUniverses {left right : CanonicalStrategyV1}
    (hWell : left.WellFormed) (h : Reordered left right)
    (hSame : SameGroupsAndUniverses left right) (sha256 : ByteArray → Digest)
    (componentId event : String) (provided : Dict String Value) :
    deterministicRandomSeed sha256 left componentId (some event) provided =
      deterministicRandomSeed sha256 right componentId (some event) provided := by
  have hJson : canonicalJson left = canonicalJson right := by
    rw [canonicalJson_eq, canonicalJson_eq, commonParts_of_reordered hWell h, hSame.1, hSame.2]
  rw [deterministicRandomSeed_eq, deterministicRandomSeed_eq, component?_of_reordered hWell h,
    parameterBindings_of_reordered hWell h, strategyHash, hJson, strategyHash]

theorem canonicalText_ne_materialText {strategy : CanonicalStrategyV1} {text : String}
    (h : canonicalJson strategy = some text) (identity componentId bindingsJson : String)
    (event : Option String) : text ≠ materialText identity componentId bindingsJson event := by
  rw [canonicalJson_eq] at h
  obtain ⟨parts, -, rfl⟩ := Option.map_eq_some_iff.mp h
  intro hEq
  rw [materialText, String.ofList_inj] at hEq
  simp only [documentTree, render, keyText, List.cons_append, List.append_assoc, List.cons.injEq,
    true_and] at hEq
  exact absurd (quote_append_inj hEq).1 (by decide)

theorem materialText_inj {identity identity' componentId bindingsJson : String}
    {event : Option String}
    (h : materialText identity componentId bindingsJson event =
      materialText identity' componentId bindingsJson event) : identity = identity' := by
  rw [materialText, materialText, String.ofList_inj] at h
  simp only [List.append_assoc, List.append_cancel_left_eq] at h
  exact (quote_append_inj h).1

/-- A digest of one byte repeated. -/
def uniformDigest (byte : UInt8) : Digest := Vector.replicate 32 byte

theorem hexdigest_ne : hexdigest (uniformDigest 0) ≠ hexdigest (uniformDigest 1) := by
  decide +kernel

/-- A hash that tells two texts from all others. -/
noncomputable def tellingApart (first second : String) : ByteArray → Digest := by
  classical exact fun bytes =>
    if bytes = first.toUTF8 ∨ bytes = second.toUTF8 then uniformDigest 0 else uniformDigest 1

theorem tellingApart_hit {first second text : String} (h : text = first ∨ text = second) :
    tellingApart first second text.toUTF8 = uniformDigest 0 := by
  rcases h with rfl | rfl <;> simp [tellingApart]

theorem tellingApart_miss {first second text : String} (hFirst : text ≠ first)
    (hSecond : text ≠ second) : tellingApart first second text.toUTF8 = uniformDigest 1 := by
  have hBytes {other : String} (h : text ≠ other) : text.toUTF8 ≠ other.toUTF8 :=
    fun hEq => h (String.toByteArray_inj.mp hEq)
  exact if_neg (not_or.mpr ⟨hBytes hFirst, hBytes hSecond⟩)

end Seeds

section Contract

/-- A strategy that compiles with a random selection. -/
structure CompilesRandom (strategy : CanonicalStrategyV1) : Prop where
  identity : (canonicalJson strategy).isSome
  selection : ∃ component ∈ strategy.graph.components, ∃ provided symbolsOf selection,
    (desugarRandomN strategy provided component).bind (lowerRandomN symbolsOf) = some selection

/-- The generated code computes the seeds of the contract at every day. -/
def GeneratedSeedsAgree (serialize : Option String → String) (strategy : CanonicalStrategyV1) :
    Prop :=
  ∀ (sha256 : ByteArray → Digest) (provided : Dict String Value)
    (symbolsOf : String → Option (List String)), ∀ component ∈ strategy.graph.components,
    ∀ selection, (desugarRandomN strategy provided component).bind (lowerRandomN symbolsOf) =
        some selection →
      ∀ identity, strategyHash sha256 strategy = some identity → ∀ event, IsDayText event →
        ∃ seed, (seedExpression identity selection).run serialize sha256 event = some seed ∧
          deterministicRandomSeed sha256 strategy component.id (some event) provided =
            some seed.toNat

/-- Two strategies have the same seeds. -/
def SameSeeds (left right : CanonicalStrategyV1) : Prop :=
  ∀ (sha256 : ByteArray → Digest) (provided : Dict String Value) (componentId event : String),
    IsDayText event →
      deterministicRandomSeed sha256 left componentId (some event) provided =
        deterministicRandomSeed sha256 right componentId (some event) provided

theorem firstDay : IsDayText "2024-01-02" :=
  ⟨'2', '0', '2', '4', '0', '1', '0', '2', rfl, rfl⟩

/-- Other orders of groups or universes give other seeds, for some hash. -/
theorem sameGroupsAndUniverses_of_sameSeeds {left right : CanonicalStrategyV1}
    (hWell : left.WellFormed) (h : Reordered left right) (hCompiles : CompilesRandom left)
    (hSeeds : SameSeeds left right) : SameGroupsAndUniverses left right := by
  obtain ⟨first, hFirst⟩ := Option.isSome_iff_exists.mp hCompiles.identity
  by_contra hOther
  have hNe : canonicalJson right ≠ some first := by
    intro hEq
    apply hOther
    exact (canonicalJson_eq_iff hWell h hCompiles.identity).mp (hFirst.trans hEq.symm)
  obtain ⟨parts, hParts⟩ := Option.isSome_iff_exists.mp
    (by rw [← Option.isSome_map, ← canonicalJson_eq]; exact hCompiles.identity :
      (commonParts left).isSome)
  obtain ⟨second, hSecond⟩ : ∃ second, canonicalJson right = some second := by
    rw [canonicalJson_eq, ← commonParts_of_reordered hWell h, hParts]
    exact ⟨_, rfl⟩
  have hTexts : second ≠ first := fun hEq => hNe (hEq ▸ hSecond)
  obtain ⟨component, hMem, provided, symbolsOf, selection, hSelection⟩ := hCompiles.selection
  obtain ⟨hRandom, -, ⟨resample, hResample, hMode⟩, bindings, tree, hBindings, hTree, -⟩ :=
    compiled_spec hSelection
  have hJson : canonicalParameterBindingsJson left provided = some (dumps tree) := by
    rw [canonicalParameterBindingsJson, hBindings]
    simp [hTree]
  have hFound : left.component? component.id = some component :=
    Sequence.find?_of_nodup hWell.components hMem
  let event := if isText "per_event" (some resample) then some "2024-01-02" else none
  let identity (byte : UInt8) := "sha256:" ++ hexdigest (uniformDigest byte)
  let material (byte : UInt8) := materialText (identity byte) component.id (dumps tree) event
  have hMaterials : material 1 ≠ material 0 := by
    intro hEq
    have hSame := materialText_inj hEq
    simp only [identity, String.append_right_inj] at hSame
    exact hexdigest_ne hSame.symm
  -- the hash meets the first text and its material, and gives every other text one digest
  have hRun := hSeeds (tellingApart first (material 0)) provided component.id "2024-01-02" firstDay
  rw [deterministicRandomSeed_eq, deterministicRandomSeed_eq, ← component?_of_reordered hWell h,
    ← parameterBindings_of_reordered hWell h, hFound, hJson, strategyHash, hFirst, strategyHash,
    hSecond] at hRun
  have hLeft : tellingApart first (material 0) first.toUTF8 = uniformDigest 0 :=
    tellingApart_hit (Or.inl rfl)
  have hRight : tellingApart first (material 0) second.toUTF8 = uniformDigest 1 :=
    tellingApart_miss hTexts (canonicalText_ne_materialText hSecond _ _ _ _)
  have hLeftSeed : tellingApart first (material 0) (material 0).toUTF8 = uniformDigest 0 :=
    tellingApart_hit (Or.inr rfl)
  have hRightSeed : tellingApart first (material 0) (material 1).toUTF8 = uniformDigest 1 :=
    tellingApart_miss (canonicalText_ne_materialText hFirst _ _ _ _).symm hMaterials
  have hBlank : (isText "per_event" (some resample) && "2024-01-02".isEmpty) = false := by
    rw [show "2024-01-02".isEmpty = false from day_ne_empty firstDay, Bool.and_false]
  simp only [Option.bind_eq_bind, Option.bind_some, hRandom, hResample, Bool.not_true,
    Bool.false_eq_true, if_false, hBlank, Option.map_some, Option.pure_def, hLeft, hRight,
    Option.some_inj] at hRun
  have hNumbers : fromBytes ((uniformDigest 0).toList.take 8) ≠
      fromBytes ((uniformDigest 1).toList.take 8) := by
    decide +kernel
  apply hNumbers
  rw [← hLeftSeed, ← hRightSeed]
  exact hRun

/-- The seed contract holds of two strategies that differ in order exactly when they list
groups and universes in one order. -/
theorem seedContract_iff {serialize : Option String → String} (hQuotes : QuotesUnchanged serialize)
    {left right : CanonicalStrategyV1} (hWell : left.WellFormed) (h : Reordered left right)
    (hCompiles : CompilesRandom left) :
    GeneratedSeedsAgree serialize left ∧ SameSeeds left right ↔
      SameGroupsAndUniverses left right := by
  constructor
  · rintro ⟨-, hSeeds⟩
    exact sameGroupsAndUniverses_of_sameSeeds hWell h hCompiles hSeeds
  · intro hSame
    refine ⟨?_, ?_⟩
    · intro sha256 provided symbolsOf component hMem selection hSelection identity hIdentity
        event hDay
      exact seedCall_eq hQuotes hWell hMem hSelection hIdentity hDay
    · intro sha256 provided componentId event _
      exact seeds_of_sameGroupsAndUniverses hWell h hSame sha256 componentId event provided

/-- One random selection, and two groups over one asset set. -/
def randomPick (groups : List GroupDefinition) : CanonicalStrategyV1 where
  metadata := { name := "Random pick" }
  definitions := {
    assetSets := [⟨"pool", ["SPY", "QQQ"]⟩]
    groups
    parameters := [⟨"cap", .percentage, .decimal (.finite false 50 (-2))⟩] }
  graph := {
    components := [
      { id := "daily", primitive := "daily@1" },
      { id := "assets", primitive := "asset_set@1"
        config := Dict.ofList [("asset_set_ref", .text "pool")] },
      { id := "pick", primitive := "random_select@1"
        config := Dict.ofList [("count", .integer 1)] },
      { id := "weights", primitive := "equal_weight@1"
        config := Dict.ofList [("total", .text "1")] },
      { id := "trade", primitive := "rebalance@1" }]
    connections := [⟨⟨"assets", "assets"⟩, ⟨"pick", "assets"⟩⟩,
      ⟨⟨"pick", "selected"⟩, ⟨"weights", "assets"⟩⟩,
      ⟨⟨"weights", "targets"⟩, ⟨"trade", "targets"⟩⟩] }
  entrypoints := [⟨"daily", "trade"⟩]

def coreGroup : GroupDefinition := { id := "core", name := "Core", assetSetRef := "pool" }

def restGroup : GroupDefinition := { id := "rest", name := "Rest", assetSetRef := "pool" }

theorem randomPick_wellFormed : (randomPick [coreGroup, restGroup]).WellFormed := by
  constructor <;> decide

theorem randomPick_compiles : CompilesRandom (randomPick [coreGroup, restGroup]) where
  identity := by decide +kernel
  selection := by
    refine ⟨{ id := "pick", primitive := "random_select@1"
              config := Dict.ofList [("count", .integer 1)] }, ?_, Dict.empty,
      fun _ => some ["SPY", "QQQ"], ?_⟩
    · exact List.mem_of_getElem? (i := 2) rfl
    · exact Option.isSome_iff_exists.mp (by decide +kernel)

theorem randomPick_reordered (groups : List GroupDefinition)
    (h : [coreGroup, restGroup].Perm groups) :
    Reordered (randomPick [coreGroup, restGroup]) (randomPick groups) :=
  ⟨rfl, .refl _, h, .refl _, .refl _, .refl _, .refl _, .refl _, .refl _⟩

/-- Quotation marks around a text. -/
def plainQuotes : Option String → String
  | none => "null"
  | some text => "\"" ++ text ++ "\""

theorem seedContract_randomPick :
    GeneratedSeedsAgree plainQuotes (randomPick [coreGroup, restGroup]) ∧
      SameSeeds (randomPick [coreGroup, restGroup]) (randomPick [coreGroup, restGroup]) :=
  (seedContract_iff (fun _ _ => rfl) randomPick_wellFormed
    (randomPick_reordered _ (.refl _)) randomPick_compiles).mpr ⟨rfl, rfl⟩

/-- Two groups in the other order give other seeds. -/
theorem swappedGroups_otherSeeds :
    ¬ ∀ left right : CanonicalStrategyV1, left.WellFormed → CompilesRandom left →
      Reordered left right → SameSeeds left right := by
  intro hAll
  have hSeeds := hAll _ _ randomPick_wellFormed randomPick_compiles
    (randomPick_reordered [restGroup, coreGroup] (.swap _ _ _))
  have hSame := sameGroupsAndUniverses_of_sameSeeds randomPick_wellFormed
    (randomPick_reordered [restGroup, coreGroup] (.swap _ _ _)) randomPick_compiles hSeeds
  exact absurd hSame.1 (by decide)

end Contract

end RuleTrade.V1
