import RuleTrade.Strategy.Canonical
import RuleTrade.Library.Outline
import RuleTrade.Library.Text

/-! Semantic projections of a strategy: manifests of addressed items for the
views of the Builder. The Blocky view shows the statements of the Program with
their conditions and values, and the Rules view reads it out as one list. -/

namespace RuleTrade

open Library

inductive ProjectionKind where
  | structural
  | flow
  | blocky
  | rules
  | summary
  deriving DecidableEq, Repr

def ProjectionKind.text : ProjectionKind → String
  | .structural => "structure" | .flow => "flow" | .blocky => "blocky" | .rules => "rules"
  | .summary => "summary"

inductive AddressKind where
  | strategy
  | definition
  | statement
  | condition
  | value
  | clock
  deriving DecidableEq, Repr

structure SemanticAddress where
  kind : AddressKind
  semanticId : String
  canonicalPath : String
  deriving DecidableEq, Repr

inductive ProjectionRole where
  | portfolio
  | split
  | investment
  | assets
  | qualification
  | selection
  | fallback
  | allocation
  | rebalance
  | destination
  | control
  | event
  | transition
  | memory
  | policy
  | unresolved
  | condition
  | value
  | summary
  deriving DecidableEq, Repr

inductive ProjectionRoute where
  | contains
  | capital
  | selected
  | fallback
  | action
  | computes
  deriving DecidableEq, Repr

structure ProjectionItem where
  id : String
  role : ProjectionRole
  label : String
  address : SemanticAddress
  parentId : Option String := none
  order : Nat
  detail : Option String := none
  route : Option ProjectionRoute := none
  deriving DecidableEq, Repr

structure ProjectionLink where
  sourceId : String
  targetId : String
  route : ProjectionRoute
  label : Option String := none
  deriving DecidableEq, Repr

inductive ExecutionClaim where
  | none
  | incomplete
  | supported
  | unsupported
  deriving DecidableEq, Repr

/-- A letter, then letters, digits, underscores and hyphens. Ids of statements
are written so. -/
def isIdentifier (text : String) : Bool :=
  match text.toList with
  | [] => false
  | first :: rest =>
      first.isAlpha && rest.all (fun c => c.isAlphanum || c = '_' || c = '-')

section Manifests

inductive ProjectionError where
  | duplicateIdentity (kind : ProjectionKind)
  | unknownParent (kind : ProjectionKind)
  | unknownLinkEndpoint (kind : ProjectionKind)
  deriving DecidableEq, Repr

def ProjectionError.message : ProjectionError → String
  | .duplicateIdentity kind => "duplicate " ++ kind.text ++ " projection identity"
  | .unknownParent kind => kind.text ++ " projection contains an unknown parent"
  | .unknownLinkEndpoint kind => kind.text ++ " projection contains an unknown link endpoint"

def itemIds (items : List ProjectionItem) : List String := items.map ProjectionItem.id

def ParentsKnown (items : List ProjectionItem) : Prop :=
  ∀ item ∈ items, ∀ parent ∈ item.parentId, parent ∈ itemIds items

def LinksKnown (items : List ProjectionItem) (links : List ProjectionLink) : Prop :=
  ∀ link ∈ links, link.sourceId ∈ itemIds items ∧ link.targetId ∈ itemIds items

instance (items : List ProjectionItem) : Decidable (ParentsKnown items) :=
  inferInstanceAs (Decidable (∀ item ∈ items, ∀ parent ∈ item.parentId, parent ∈ itemIds items))

instance (items : List ProjectionItem) (links : List ProjectionLink) :
    Decidable (LinksKnown items links) :=
  inferInstanceAs (Decidable (∀ link ∈ links, _ ∧ _))

/-- What a view shows. Items have distinct ids, and every parent and every end
of a link is an item. -/
structure ProjectionManifest where
  kind : ProjectionKind
  strategyId : String
  items : List ProjectionItem
  links : List ProjectionLink := []
  omitted : List String := []
  semanticValid : Bool
  executionClaim : ExecutionClaim := .none
  ids_unique : (itemIds items).Nodup
  parents_known : ParentsKnown items
  links_known : LinksKnown items links

/-- Build a manifest, checking its identities. -/
def validateIdentity (kind : ProjectionKind) (strategyId : String) (items : List ProjectionItem)
    (links : List ProjectionLink) (omitted : List String) (semanticValid : Bool)
    (executionClaim : ExecutionClaim) : Except ProjectionError ProjectionManifest :=
  if hIds : (itemIds items).Nodup then
    if hParents : ParentsKnown items then
      if hLinks : LinksKnown items links then
        .ok ⟨kind, strategyId, items, links, omitted, semanticValid, executionClaim, hIds,
          hParents, hLinks⟩
      else .error (.unknownLinkEndpoint kind)
    else .error (.unknownParent kind)
  else .error (.duplicateIdentity kind)

section

variable {kind : ProjectionKind} {strategyId : String} {items : List ProjectionItem}
  {links : List ProjectionLink} {omitted : List String} {valid : Bool} {claim : ExecutionClaim}

theorem validateIdentity_ok (hIds : (itemIds items).Nodup) (hParents : ParentsKnown items)
    (hLinks : LinksKnown items links) : ∃ manifest,
    validateIdentity kind strategyId items links omitted valid claim = .ok manifest ∧
      manifest.strategyId = strategyId ∧ manifest.items = items := by
  unfold validateIdentity
  rw [dif_pos hIds, dif_pos hParents, dif_pos hLinks]
  exact ⟨_, rfl, rfl, rfl⟩

theorem items_of_validateIdentity {manifest : ProjectionManifest}
    (h : validateIdentity kind strategyId items links omitted valid claim = .ok manifest) :
    manifest.items = items := by
  unfold validateIdentity at h
  split_ifs at h with hIds hParents hLinks
  obtain rfl := Except.ok.inj h
  rfl

end

end Manifests

section Labels

/-- Underscores read as blanks. -/
def spaced (text : String) : String := text.map (fun c => if c = '_' then ' ' else c)

def Condition.label : Condition → String
  | .comparison _ operator left right =>
      "Compare " ++ left.semanticId ++ " " ++ operator.text ++ " " ++ right.semanticId
  | .booleanGroup _ kind children =>
      kind.text.toUpper ++ " · " ++ toString children.length ++ " clauses"
  | .nOfM _ minimumTrue children =>
      toString minimumTrue ++ " of " ++ toString children.length ++ " clauses"
  | .not _ _ => "NOT"
  | .stateEquals _ stateKey expected => "State " ++ stateKey ++ " is " ++ expected
  | .eventWindow _ eventId relation =>
      relation.text ++ " " ++ eventId ++ (match relation.observations with
        | some observations => " " ++ toString observations ++ " observations"
        | none => "")

def ProgramStatement.label : ProgramStatement → ProjectionRole × String
  | .select s => (.selection, "Choose " ++ toString s.selection.count ++ " assets")
  | .allocate s => (.allocation, "Allocate · " ++ spaced s.method.text)
  | .control head _ _ => (.control, "IF " ++ head.condition.label)
  | .onEvent _ event _ => (.event, "On " ++ spaced event.trigger.text)
  | .transition _ t => (.transition, "Set " ++ t.stateKey ++ " to " ++ t.toValue)
  | .rememberValue s => (.memory, "Remember " ++ s.memoryId)
  | .guardedAllocation _ => (.policy, "Guarded allocation policy")
  | .unresolved s => (.unresolved, "Unresolved · " ++ s.sourceText)

end Labels

section Outlines

/-- An item of the Blocky view, before it has a parent and a place. -/
structure BlockyBlock where
  id : String
  role : ProjectionRole
  label : String
  detail : Option String
  address : SemanticAddress

/-- Conditions and values are shown once under their address. -/
def BlockyBlock.shared (block : BlockyBlock) : Bool :=
  block.role = .condition || block.role = .value

def valueBlock (semanticId label path : String) (detail : Option String) : BlockyBlock :=
  ⟨"blocky:value:" ++ semanticId, .value, label, detail, ⟨.value, semanticId, path⟩⟩

def kindLabel (kind : String) : String := "Value · " ++ spaced kind

def conditionBlock (condition : Condition) (path : String) (detail : Option String) :
    BlockyBlock :=
  ⟨"blocky:condition:" ++ condition.semanticId, .condition, condition.label, detail,
    ⟨.condition, condition.semanticId, path⟩⟩

def statementBlock (statement : ProgramStatement) (path : String) (relation : Option String) :
    BlockyBlock :=
  ⟨"blocky:" ++ statement.semanticId, statement.label.1, statement.label.2, relation,
    ⟨.statement, statement.semanticId, path⟩⟩

def fallbackBlock (semanticId asset path : String) : BlockyBlock :=
  ⟨"blocky:fallback:" ++ semanticId, .fallback, "Fallback → " ++ asset, none,
    ⟨.statement, semanticId, path⟩⟩

def portfolioBlock (strategyId : String) : BlockyBlock :=
  ⟨"blocky:context:" ++ strategyId, .portfolio, "Portfolio", none,
    ⟨.strategy, strategyId, "program"⟩⟩

def dailyOutline : DailyValueNode → String → Option String → Outline BlockyBlock
  | .arithmetic attrs _ left right, path, detail =>
      .node (valueBlock attrs.semanticId (kindLabel "arithmetic") path detail)
        [dailyOutline left (indexed (path ++ ".operands") 0) none,
          dailyOutline right (indexed (path ++ ".operands") 1) none]
  | .current attrs operand, path, detail =>
      .node (valueBlock attrs.semanticId (kindLabel "current") path detail)
        [dailyOutline operand (indexed (path ++ ".operands") 0) none]
  | .history attrs _ _ operand, path, detail =>
      .node (valueBlock attrs.semanticId (kindLabel "history") path detail)
        [dailyOutline operand (indexed (path ++ ".operands") 0) none]
  | .indicator attrs kind _ _ operand, path, detail =>
      .node (valueBlock attrs.semanticId (kindLabel kind.text) path detail)
        [dailyOutline operand (indexed (path ++ ".operands") 0) none]
  | .absolute attrs operand, path, detail =>
      .node (valueBlock attrs.semanticId (kindLabel "absolute") path detail)
        [dailyOutline operand (indexed (path ++ ".operands") 0) none]
  | .reduce attrs _ _ _ _ _ operand, path, detail =>
      .node (valueBlock attrs.semanticId (kindLabel "reduce") path detail)
        [dailyOutline operand (indexed (path ++ ".operands") 0) none]
  | .literal attrs _ _ _ _, path, detail =>
      .node (valueBlock attrs.semanticId (kindLabel "literal") path detail) []
  | .observe attrs _ _, path, detail =>
      .node (valueBlock attrs.semanticId (kindLabel "observe") path detail) []

variable (decimalText : ℚ → String)

mutual

def valueOutline : ValueExpression → String → Option String → Outline BlockyBlock
  | .daily node, path, detail => dailyOutline node path detail
  | .score id terms conditionTerms _, path, detail =>
      .node (valueBlock id "Score · weighted terms" path detail)
        (termOutlines terms path 0 ++ conditionTermOutlines conditionTerms path 0)
  | .crossSectional id source _ _ _ _, path, detail =>
      .node (valueBlock id (kindLabel "cross_sectional") path detail)
        [valueOutline source (path ++ ".source") none]
  | .crossSectionalAggregate id source _ _ _, path, detail =>
      .node (valueBlock id (kindLabel "cross_sectional_aggregate") path detail)
        [valueOutline source (path ++ ".source") none]
  | .eventRelative id _ source _, path, detail =>
      .node (valueBlock id (kindLabel "event_relative") path detail)
        [dailyOutline source (path ++ ".source") none]
  | .clockedValue id source _, path, detail =>
      .node (valueBlock id (kindLabel "clocked_value") path detail)
        [dailyOutline source (path ++ ".source") none]
  | .literal id _ _ _ _, path, detail =>
      .node (valueBlock id (kindLabel "literal") path detail) []
  | .candidateTrailingReturn id _ _ _, path, detail =>
      .node (valueBlock id (kindLabel "candidate_trailing_return") path detail) []
  | .candidateCurrentPrice id _ _, path, detail =>
      .node (valueBlock id (kindLabel "candidate_current_price") path detail) []
  | .rememberedValue id _ _ _ _, path, detail =>
      .node (valueBlock id (kindLabel "remembered_value") path detail) []
  | .barsSinceEvent id _, path, detail =>
      .node (valueBlock id (kindLabel "bars_since_event") path detail) []
  | .barsSinceState id _, path, detail =>
      .node (valueBlock id (kindLabel "bars_since_state") path detail) []
  | .timeSinceEvent id _, path, detail =>
      .node (valueBlock id (kindLabel "time_since_event") path detail) []
  | .timeSinceState id _, path, detail =>
      .node (valueBlock id (kindLabel "time_since_state") path detail) []

def termOutlines : List ScoreTerm → String → Nat → List (Outline BlockyBlock)
  | [], _, _ => []
  | .mk _ value weight :: rest, path, index =>
      valueOutline value (indexed (path ++ ".terms") index ++ ".value")
          (some ("weight=" ++ decimalText weight)) ::
        termOutlines rest path (index + 1)

def conditionTermOutlines : List ConditionPointTerm → String → Nat → List (Outline BlockyBlock)
  | [], _, _ => []
  | .mk _ condition truePoints _ _ :: rest, path, index =>
      conditionOutline condition (indexed (path ++ ".condition_terms") index ++ ".condition")
          (some ("points=" ++ decimalText truePoints)) ::
        conditionTermOutlines rest path (index + 1)

def conditionOutline : Condition → String → Option String → Outline BlockyBlock
  | .comparison id operator left right, path, detail =>
      .node (conditionBlock (.comparison id operator left right) path detail)
        [valueOutline left (path ++ ".left") none, valueOutline right (path ++ ".right") none]
  | .booleanGroup id kind children, path, detail =>
      .node (conditionBlock (.booleanGroup id kind children) path detail)
        (childOutlines children path 0)
  | .nOfM id minimumTrue children, path, detail =>
      .node (conditionBlock (.nOfM id minimumTrue children) path detail)
        (childOutlines children path 0)
  | .not id child, path, detail =>
      .node (conditionBlock (.not id child) path detail)
        [conditionOutline child (path ++ ".child") none]
  | .stateEquals id key expected, path, detail =>
      .node (conditionBlock (.stateEquals id key expected) path detail) []
  | .eventWindow id event relation, path, detail =>
      .node (conditionBlock (.eventWindow id event relation) path detail) []

def childOutlines : List Condition → String → Nat → List (Outline BlockyBlock)
  | [], _, _ => []
  | child :: rest, path, index =>
      conditionOutline child (indexed (path ++ ".children") index) none ::
        childOutlines rest path (index + 1)

end

/-- The condition a statement shows. The rules of a policy show none. -/
def ProgramStatement.shownCondition : ProgramStatement → Option Condition
  | .select s => s.selection.eligibility
  | .control head _ _ => some head.condition
  | .onEvent _ event _ => event.condition
  | .transition _ t => some t.when
  | .guardedAllocation s => s.guard
  | .allocate _ | .rememberValue _ | .unresolved _ => none

def conditionOutlines (statement : ProgramStatement) (path : String) :
    List (Outline BlockyBlock) :=
  (statement.shownCondition.map (fun condition =>
    conditionOutline decimalText condition (path ++ ".condition") none)).toList

/-- Ranking and fallback asset of a Selection. -/
def selectionOutlines (s : SelectionStatement) (path : String) : List (Outline BlockyBlock) :=
  valueOutline decimalText s.selection.ranking (path ++ ".selection.ranking")
      (some ("rank " ++ s.selection.direction.text)) ::
    (s.selection.fallbackAsset.map (fun asset => Outline.node
      (fallbackBlock s.semanticId asset (path ++ ".selection.fallback_asset")) [])).toList

def GuardedAllocationStatement.children (s : GuardedAllocationStatement) :
    List (String × AllocationStatement) :=
  ("primary", s.primary) ::
    s.overrides.map (fun rule => ("override:" ++ toString rule.priority, rule.action)) ++
    (s.fallback.map (fun fallback => ("fallback", fallback))).toList

def actionOutlines (s : GuardedAllocationStatement) (path : String) : List (Outline BlockyBlock) :=
  s.children.mapIdx (fun index child => Outline.node
    (statementBlock (.allocate child.2) (indexed (path ++ "." ++ child.1) index) (some child.1)) [])

mutual

def statementOutline : ProgramStatement → String → Option String → Outline BlockyBlock
  | .control head thenStatements otherwiseStatements, path, relation =>
      let statement : ProgramStatement := .control head thenStatements otherwiseStatements
      .node (statementBlock statement path relation)
        (conditionOutlines decimalText statement path ++
          statementOutlines thenStatements path "then" 0 ++
          statementOutlines otherwiseStatements path "otherwise" thenStatements.length)
  | .onEvent id event body, path, relation =>
      let statement : ProgramStatement := .onEvent id event body
      .node (statementBlock statement path relation)
        (conditionOutlines decimalText statement path ++ statementOutlines body path "event" 0)
  | .select s, path, relation =>
      .node (statementBlock (.select s) path relation)
        (conditionOutlines decimalText (.select s) path ++ selectionOutlines decimalText s path)
  | .guardedAllocation s, path, relation =>
      .node (statementBlock (.guardedAllocation s) path relation)
        (conditionOutlines decimalText (.guardedAllocation s) path ++ actionOutlines s path)
  | .transition id t, path, relation =>
      .node (statementBlock (.transition id t) path relation)
        (conditionOutlines decimalText (.transition id t) path)
  | .allocate s, path, relation => .node (statementBlock (.allocate s) path relation) []
  | .rememberValue s, path, relation => .node (statementBlock (.rememberValue s) path relation) []
  | .unresolved s, path, relation => .node (statementBlock (.unresolved s) path relation) []

def statementOutlines : List ProgramStatement → String → String → Nat →
    List (Outline BlockyBlock)
  | [], _, _, _ => []
  | statement :: rest, path, relation, index =>
      statementOutline statement (indexed (path ++ "." ++ relation) index) (some relation) ::
        statementOutlines rest path relation (index + 1)

end

/-- The placeholder every new Program starts with. -/
def ProgramStatement.isBlankBootstrap : ProgramStatement → Bool
  | .allocate s =>
      s.semanticId = "initial-retain-allocation" &&
        (s.legs.map (fun leg => leg.target.kind) = [.retain])
  | _ => false

/-- Statements at the top, without the placeholder. -/
def topOutlines : List ProgramStatement → Nat → List (Outline BlockyBlock)
  | [], _ => []
  | statement :: rest, index =>
      if statement.isBlankBootstrap then topOutlines rest (index + 1)
      else statementOutline decimalText statement (indexed "program.statements" index) none ::
        topOutlines rest (index + 1)

end Outlines

section Views

variable (decimalText : ℚ → String) (strategy : CanonicalStrategy)

/-- Name the projections give the strategy. -/
def CanonicalStrategy.projectedId : String :=
  match strategy.program with
  | some program => program.semanticId
  | none => strategy.name

def blockyOutline : Outline BlockyBlock :=
  .node (portfolioBlock strategy.projectedId)
    (match strategy.program with
      | some program => topOutlines decimalText program.statements 0
      | none => [])

/-- An entry of the layout as the item at its place. -/
def blockyItem (order : Nat) (entry : BlockyBlock × Option String) : ProjectionItem where
  id := entry.1.id
  role := entry.1.role
  label := entry.1.label
  address := entry.1.address
  parentId := entry.2
  order := order
  detail := entry.1.detail
  route := if entry.2.isSome then some .computes else none

def blockyItems : List ProjectionItem :=
  (Outline.place BlockyBlock.id BlockyBlock.shared none (blockyOutline decimalText strategy)
    []).mapIdx blockyItem

def semanticValid : Bool := (validateStrategyV2 strategy).isEmpty

/-- What a projection can raise: the error of the capability assessment, or a
broken identity. -/
inductive ProjectionFailure (ε : Type) where
  | assessment (error : ε)
  | identity (error : ProjectionError)
  deriving DecidableEq, Repr

variable {ε : Type} (claim : Except ε ExecutionClaim)

def assessed : Except (ProjectionFailure ε) ExecutionClaim := claim.mapError .assessment

def identified (manifest : Except ProjectionError ProjectionManifest) :
    Except (ProjectionFailure ε) ProjectionManifest :=
  manifest.mapError .identity

/-- The Blocky view, given what the capability assessment of the strategy returns. -/
def projectBlocky : Except (ProjectionFailure ε) ProjectionManifest := do
  let executionClaim ← assessed claim
  identified (validateIdentity .blocky strategy.projectedId (blockyItems decimalText strategy) []
    ["portfolio ownership decoration", "provider/runtime status"] (semanticValid strategy)
    executionClaim)

def ProjectionRole.readable : ProjectionRole → Bool
  | .portfolio | .condition | .value => false
  | _ => true

def ruleItem (index : Nat) (item : ProjectionItem) : ProjectionItem :=
  { item with
    id := replaceText "blocky:" "rules:" item.id
    parentId := none
    order := index
    route := none
    label := toString (index + 1) ++ ". " ++ item.label }

def ruleItems (blocky : ProjectionManifest) : List ProjectionItem :=
  (blocky.items.filter (fun item => item.role.readable)).mapIdx ruleItem

def projectRules : Except (ProjectionFailure ε) ProjectionManifest := do
  let blocky ← projectBlocky decimalText strategy claim
  identified (validateIdentity .rules blocky.strategyId (ruleItems blocky) []
    ["visual containment", "execution diagnostics"] blocky.semanticValid blocky.executionClaim)

end Views

end RuleTrade
