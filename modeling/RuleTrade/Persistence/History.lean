import RuleTrade.Persistence.Strategies

/-! Revision histories: what the Strategy store is for. Transitions add one
Revision at a time to the history of its Strategy, on top of the current one. -/

namespace RuleTrade

open Library

/-- Revisions of a Strategy from one of them back to the first. -/
inductive RevisionHistory (db : Database) (strategyId : String) : List String → Prop where
  | created {id : String} {row : RevisionRow} (stored : db.revisions.get? id = some row)
      (own : row.strategyId = strategyId) (first : row.parentRevisionId = none) :
      RevisionHistory db strategyId [id]
  | accepted {id older : String} {earlier : List String} {row : RevisionRow}
      (stored : db.revisions.get? id = some row) (own : row.strategyId = strategyId)
      (parent : row.parentRevisionId = some older) (before : RevisionHistory db strategyId (older :: earlier)) :
      RevisionHistory db strategyId (id :: older :: earlier)

/-- All Revisions of a Strategy in one line, from the current one back to the
first. -/
structure Linear (db : Database) (strategyId : String) (strategy : StrategyRecord)
    (chain : List String) : Prop where
  history : RevisionHistory db strategyId chain
  tip : chain.head? = some strategy.currentRevisionId
  distinct : chain.Nodup
  complete : ∀ id row, db.revisions.get? id = some row → row.strategyId = strategyId → id ∈ chain

/-- Rows of `db` are still there in `later`. -/
structure Database.Kept (db later : Database) : Prop where
  strategies : ∀ id, id ∈ db.strategies.keys → id ∈ later.strategies.keys
  revisions : ∀ id row, db.revisions.get? id = some row → later.revisions.get? id = some row
  candidates : ∀ id row, db.candidates.get? id = some row → later.candidates.get? id = some row
  adoptions : ∀ id row, db.adoptions.get? id = some row → later.adoptions.get? id = some row

/-- A Revision on top of the current one of an open Strategy. -/
structure Accepts (db : Database) (strategyId : String) (strategy : StrategyRecord)
    (row : RevisionRow) : Prop where
  known : db.strategies.get? strategyId = some strategy
  unarchived : strategy.archivedAt = none
  fresh : db.revisions.get? row.id = none
  own : row.strategyId = strategyId
  parent : row.parentRevisionId = some strategy.currentRevisionId

/-- The tables once a Revision is accepted. -/
def Database.accept (db : Database) (strategyId : String) (strategy : StrategyRecord)
    (row : RevisionRow) : Database :=
  { db with
    revisions := db.revisions.set row.id row
    strategies := db.strategies.set strategyId
      { strategy with currentRevisionId := row.id, updatedAt := row.createdAt } }

/-- A Candidate based on a Revision of the Strategy. -/
def Database.Proposes (db : Database) (candidateId strategyId : String) : Prop :=
  ∃ candidate base, db.candidates.get? candidateId = some candidate ∧
    db.revisions.get? candidate.baseRevisionId = some base ∧ base.strategyId = strategyId

/-- What one transaction does to the tables. -/
inductive Transition {Raw Source : Type} (format : SourceFormat Raw Source) :
    Database → Database → Prop where
  | unchanged (db : Database) : Transition format db db
  | created {db : Database} {strategy : StrategyRecord} {row : RevisionRow}
      (freshStrategy : db.strategies.get? strategy.id = none)
      (freshRevision : db.revisions.get? row.id = none) (own : row.strategyId = strategy.id)
      (first : row.parentRevisionId = none) (tip : strategy.currentRevisionId = row.id)
      (readable : (format.loads row.canonicalJson).isSome) :
      Transition format db { db with
        strategies := db.strategies.set strategy.id strategy
        revisions := db.revisions.set row.id row }
  | saved {db : Database} {strategyId : String} {strategy : StrategyRecord} {row : RevisionRow}
      (accepts : Accepts db strategyId strategy row)
      (readable : (format.loads row.canonicalJson).isSome) :
      Transition format db (db.accept strategyId strategy row)
  | adopted {db : Database} {strategyId : String} {strategy : StrategyRecord} {row : RevisionRow}
      {adoption : AdoptionRow} (accepts : Accepts db strategyId strategy row)
      (readable : (format.loads row.canonicalJson).isSome)
      (unadopted : db.adoptions.get? adoption.candidateId = none)
      (own : adoption.strategyId = strategyId) (revision : adoption.revisionId = row.id)
      (proposed : db.Proposes adoption.candidateId strategyId) :
      Transition format db { db.accept strategyId strategy row with
        adoptions := db.adoptions.set adoption.candidateId adoption }
  | edited {db : Database} {strategyId : String} {strategy changed : StrategyRecord}
      (known : db.strategies.get? strategyId = some strategy)
      (sameRevision : changed.currentRevisionId = strategy.currentRevisionId) :
      Transition format db { db with strategies := db.strategies.set strategyId changed }
  | proposed {db : Database} {candidate : CandidateRow} {source : Source}
      (fresh : db.candidates.get? candidate.id = none)
      (readable : format.loads candidate.canonicalJson = some source)
      (valid : format.issues source = []) (hash : candidate.sourceHash = format.hash source) :
      Transition format db { db with candidates := db.candidates.set candidate.id candidate }

/-- The tables in order. -/
structure Database.Consistent {Raw Source : Type} (format : SourceFormat Raw Source) (db : Database) :
    Prop where
  linear : ∀ id strategy, db.strategies.get? id = some strategy →
    ∃ chain, Linear db id strategy chain
  owned : ∀ id row, db.revisions.get? id = some row → row.strategyId ∈ db.strategies.keys
  revisionIds : ∀ id row, db.revisions.get? id = some row → row.id = id
  readable : ∀ id row, db.revisions.get? id = some row → (format.loads row.canonicalJson).isSome
  candidates : ∀ id candidate, db.candidates.get? id = some candidate → candidate.id = id ∧
    ∃ source, format.loads candidate.canonicalJson = some source ∧ format.issues source = [] ∧
      candidate.sourceHash = format.hash source
  adopted : ∀ id adoption, db.adoptions.get? id = some adoption →
    db.Proposes id adoption.strategyId ∧ ∃ row, db.revisions.get? adoption.revisionId = some row ∧
      row.strategyId = adoption.strategyId

section Kept

variable {db later : Database}

theorem Database.Kept.refl (db : Database) : db.Kept db :=
  ⟨fun _ h => h, fun _ _ h => h, fun _ _ h => h, fun _ _ h => h⟩

theorem Database.Kept.trans {last : Database} (h : db.Kept later) (hLast : later.Kept last) :
    db.Kept last :=
  ⟨fun id hId => hLast.strategies id (h.strategies id hId),
    fun id row hRow => hLast.revisions id row (h.revisions id row hRow),
    fun id row hRow => hLast.candidates id row (h.candidates id row hRow),
    fun id row hRow => hLast.adoptions id row (h.adoptions id row hRow)⟩

/-- A new key keeps what the others look up. -/
theorem get?_set_fresh {α : Type} {d : Dict String α} {key id : String} {value row : α}
    (hFresh : d.get? key = none) (h : d.get? id = some row) : (d.set key value).get? id = some row := by
  rw [Dict.get?_set_of_ne, h]
  rintro rfl
  rw [hFresh] at h
  cases h

theorem mem_keys_of_set {α : Type} {d : Dict String α} {key id : String} {value : α}
    (h : id ∈ d.keys) : id ∈ (d.set key value).keys :=
  Dict.mem_keys_set.mpr (.inr h)

theorem Transition.kept {Raw Source : Type} {format : SourceFormat Raw Source}
    (h : Transition format db later) : db.Kept later := by
  cases h with
  | unchanged => exact .refl db
  | created freshStrategy freshRevision =>
      exact ⟨fun _ hId => mem_keys_of_set hId, fun _ _ hRow => get?_set_fresh freshRevision hRow,
        fun _ _ hRow => hRow, fun _ _ hRow => hRow⟩
  | saved accepts =>
      exact ⟨fun _ hId => mem_keys_of_set hId, fun _ _ hRow => get?_set_fresh accepts.fresh hRow,
        fun _ _ hRow => hRow, fun _ _ hRow => hRow⟩
  | adopted accepts _ unadopted =>
      exact ⟨fun _ hId => mem_keys_of_set hId, fun _ _ hRow => get?_set_fresh accepts.fresh hRow,
        fun _ _ hRow => hRow, fun _ _ hRow => get?_set_fresh unadopted hRow⟩
  | edited =>
      exact ⟨fun _ hId => mem_keys_of_set hId, fun _ _ hRow => hRow, fun _ _ hRow => hRow,
        fun _ _ hRow => hRow⟩
  | proposed fresh =>
      exact ⟨fun _ hId => hId, fun _ _ hRow => hRow, fun _ _ hRow => get?_set_fresh fresh hRow,
        fun _ _ hRow => hRow⟩

theorem Database.Proposes.kept {candidateId strategyId : String}
    (h : db.Proposes candidateId strategyId) (hKept : db.Kept later) :
    later.Proposes candidateId strategyId := by
  obtain ⟨candidate, base, hCandidate, hBase, hOwn⟩ := h
  exact ⟨candidate, base, hKept.candidates _ _ hCandidate, hKept.revisions _ _ hBase, hOwn⟩

theorem RevisionHistory.kept {strategyId : String} {chain : List String} (h : RevisionHistory db strategyId chain)
    (hKept : db.Kept later) : RevisionHistory later strategyId chain := by
  induction h with
  | created stored own first => exact .created (hKept.revisions _ _ stored) own first
  | accepted stored own parent _ ih => exact .accepted (hKept.revisions _ _ stored) own parent ih

end Kept

section Chains

variable {db : Database} {strategyId : String} {chain : List String}

theorem RevisionHistory.stored (h : RevisionHistory db strategyId chain) {id : String} (hMem : id ∈ chain) :
    ∃ row, db.revisions.get? id = some row ∧ row.strategyId = strategyId := by
  induction h with
  | created stored own =>
      rw [List.mem_singleton.mp hMem]
      exact ⟨_, stored, own⟩
  | accepted stored own _ _ ih =>
      rcases List.mem_cons.mp hMem with rfl | hMem
      · exact ⟨_, stored, own⟩
      · exact ih hMem

/-- The parent of a Revision stands right behind it. -/
theorem RevisionHistory.parent (h : RevisionHistory db strategyId chain) {id parent : String} {row : RevisionRow}
    (hMem : id ∈ chain) (hRow : db.revisions.get? id = some row)
    (hParent : row.parentRevisionId = some parent) : parent ∈ chain.tail := by
  induction h with
  | created stored own first =>
      rw [List.mem_singleton.mp hMem, stored, Option.some.injEq] at hRow
      rw [← hRow, first] at hParent
      cases hParent
  | accepted stored own above before ih =>
      rcases List.mem_cons.mp hMem with rfl | hMem
      · rw [stored, Option.some.injEq] at hRow
        rw [← hRow, above, Option.some.injEq] at hParent
        rw [← hParent]
        exact List.mem_cons_self
      · exact List.mem_cons_of_mem _ (ih hMem)

/-- No two Revisions of a history share a parent. -/
theorem RevisionHistory.parent_inj (h : RevisionHistory db strategyId chain) (hDistinct : chain.Nodup)
    {id id' parent : String} {row row' : RevisionRow} (hMem : id ∈ chain) (hMem' : id' ∈ chain)
    (hRow : db.revisions.get? id = some row) (hRow' : db.revisions.get? id' = some row')
    (hParent : row.parentRevisionId = some parent) (hParent' : row'.parentRevisionId = some parent) :
    id = id' := by
  induction h with
  | created =>
      rw [List.mem_singleton.mp hMem, List.mem_singleton.mp hMem']
  | @accepted top older earlier topRow stored own above before ih =>
      have hBelow : ∀ {id : String} {row : RevisionRow}, id ∈ older :: earlier →
          db.revisions.get? id = some row → row.parentRevisionId ≠ some older := by
        intro id row hIn hStored hSame
        exact (List.nodup_cons.mp (List.nodup_cons.mp hDistinct).2).1 (before.parent hIn hStored hSame)
      have hTop : ∀ {row : RevisionRow}, db.revisions.get? top = some row →
          row.parentRevisionId = some older := by
        intro row hStored
        rw [stored, Option.some.injEq] at hStored
        rw [← hStored, above]
      rcases List.mem_cons.mp hMem with hFirst | hLower
      · rcases List.mem_cons.mp hMem' with hSecond | hLower'
        · rw [hFirst, hSecond]
        · rw [hTop (hFirst ▸ hRow)] at hParent
          exact absurd (hParent'.trans hParent.symm) (hBelow hLower' hRow')
      · rcases List.mem_cons.mp hMem' with hSecond | hLower'
        · rw [hTop (hSecond ▸ hRow')] at hParent'
          exact absurd (hParent.trans hParent'.symm) (hBelow hLower hRow)
        · exact ih (List.nodup_cons.mp hDistinct).2 hLower hLower'

/-- Revisions of other Strategies do not disturb a line. -/
theorem Linear.kept {strategy : StrategyRecord} {later : Database}
    (h : Linear db strategyId strategy chain) (hKept : db.Kept later)
    (hNew : ∀ id row, later.revisions.get? id = some row → row.strategyId = strategyId →
      ∃ row, db.revisions.get? id = some row ∧ row.strategyId = strategyId) :
    Linear later strategyId strategy chain where
  history := h.history.kept hKept
  tip := h.tip
  distinct := h.distinct
  complete := by
    intro id row hRow hOwn
    obtain ⟨old, hOld, hOwnOld⟩ := hNew id row hRow hOwn
    exact h.complete id old hOld hOwnOld

/-- An accepted Revision extends the line of its Strategy. -/
theorem Linear.accept {strategy : StrategyRecord} {row : RevisionRow}
    (h : Linear db strategyId strategy chain) (hAccepts : Accepts db strategyId strategy row) :
    Linear (db.accept strategyId strategy row) strategyId
      { strategy with currentRevisionId := row.id, updatedAt := row.createdAt } (row.id :: chain) := by
  have hKept : db.Kept (db.accept strategyId strategy row) :=
    ⟨fun _ hId => mem_keys_of_set hId, fun _ _ hRow => get?_set_fresh hAccepts.fresh hRow,
      fun _ _ hRow => hRow, fun _ _ hRow => hRow⟩
  have hStored : (db.accept strategyId strategy row).revisions.get? row.id = some row :=
    Dict.get?_set_self _ _ _
  refine ⟨?_, rfl, ?_, ?_⟩
  · have hHistory := h.history.kept hKept
    have hTip := h.tip
    cases chain with
    | nil => cases hTip
    | cons older earlier =>
        rw [List.head?_cons, Option.some.injEq] at hTip
        exact .accepted hStored hAccepts.own (by rw [hAccepts.parent, hTip]) hHistory
  · refine List.nodup_cons.mpr ⟨fun hMem => ?_, h.distinct⟩
    obtain ⟨old, hOld, -⟩ := h.history.stored hMem
    rw [hAccepts.fresh] at hOld
    cases hOld
  · intro id other hOther hOwn
    by_cases hSame : id = row.id
    · exact hSame ▸ List.mem_cons_self
    · have hOld : db.revisions.get? id = some other := by
        rw [← hOther]
        exact (Dict.get?_set_of_ne hSame).symm
      exact List.mem_cons_of_mem _ (h.complete id other hOld hOwn)

end Chains

section Consistency

variable {Raw Source : Type} {format : SourceFormat Raw Source} {db later : Database}

theorem consistent_empty : Database.empty.Consistent format where
  linear := by
    intro id strategy h
    cases h
  owned := by
    intro id row h
    cases h
  revisionIds := by
    intro id row h
    cases h
  readable := by
    intro id row h
    cases h
  candidates := by
    intro id candidate h
    cases h
  adopted := by
    intro id adoption h
    cases h

/-- Adoptions stay in order while rows are kept. -/
theorem Database.Consistent.adopted_kept (h : db.Consistent format) (hKept : db.Kept later)
    {id : String} {adoption : AdoptionRow} (hAdoption : db.adoptions.get? id = some adoption) :
    later.Proposes id adoption.strategyId ∧ ∃ row, later.revisions.get? adoption.revisionId = some row ∧
      row.strategyId = adoption.strategyId := by
  obtain ⟨hProposes, row, hRow, hOwn⟩ := h.adopted id adoption hAdoption
  exact ⟨hProposes.kept hKept, row, hKept.revisions _ _ hRow, hOwn⟩

theorem get?_of_set {α : Type} {d : Dict String α} {key id : String} {value row : α}
    (h : (d.set key value).get? id = some row) :
    (id = key ∧ row = value) ∨ (id ≠ key ∧ d.get? id = some row) := by
  by_cases hSame : id = key
  · rw [hSame, Dict.get?_set_self, Option.some.injEq] at h
    exact .inl ⟨hSame, h.symm⟩
  · rw [Dict.get?_set_of_ne hSame] at h
    exact .inr ⟨hSame, h⟩

theorem consistent_accept {strategyId : String} {strategy : StrategyRecord} {row : RevisionRow}
    (h : db.Consistent format) (hAccepts : Accepts db strategyId strategy row)
    (hReadable : (format.loads row.canonicalJson).isSome) :
    (db.accept strategyId strategy row).Consistent format := by
  have hKept : db.Kept (db.accept strategyId strategy row) :=
    (Transition.saved hAccepts hReadable).kept
  have hOwner : strategyId ∈ db.strategies.keys := Dict.mem_keys_of_get? hAccepts.known
  refine ⟨fun id other hOther => ?_, fun id other hOther => ?_, fun id other hOther => ?_,
    fun id other hOther => ?_, h.candidates, fun id adoption hAdoption => h.adopted_kept hKept hAdoption⟩
  · rcases get?_of_set hOther with ⟨rfl, rfl⟩ | ⟨hNe, hOld⟩
    · obtain ⟨chain, hChain⟩ := h.linear id strategy hAccepts.known
      exact ⟨row.id :: chain, hChain.accept hAccepts⟩
    · obtain ⟨chain, hChain⟩ := h.linear id other hOld
      refine ⟨chain, hChain.kept hKept (fun id row' hRow hOwn => ?_)⟩
      rcases get?_of_set hRow with ⟨rfl, rfl⟩ | ⟨-, hOldRow⟩
      · exact absurd (hOwn.symm.trans hAccepts.own) hNe
      · exact ⟨row', hOldRow, hOwn⟩
  · apply mem_keys_of_set
    rcases get?_of_set hOther with ⟨-, rfl⟩ | ⟨-, hOld⟩
    · rwa [hAccepts.own]
    · exact h.owned id other hOld
  · rcases get?_of_set hOther with ⟨rfl, rfl⟩ | ⟨-, hOld⟩
    · rfl
    · exact h.revisionIds id other hOld
  · rcases get?_of_set hOther with ⟨-, rfl⟩ | ⟨-, hOld⟩
    · exact hReadable
    · exact h.readable id other hOld

/-- Every transition keeps the tables in order. -/
theorem Transition.consistent (hStep : Transition format db later) (h : db.Consistent format) :
    later.Consistent format := by
  have hKept := hStep.kept
  cases hStep with
  | unchanged => exact h
  | @created strategy row freshStrategy freshRevision own first tip readable =>
      refine ⟨fun id other hOther => ?_, fun id other hOther => ?_, fun id other hOther => ?_,
        fun id other hOther => ?_, h.candidates,
        fun id adoption hAdoption => h.adopted_kept hKept hAdoption⟩
      · rcases get?_of_set hOther with ⟨rfl, rfl⟩ | ⟨hNe, hOld⟩
        · refine ⟨[row.id], .created (Dict.get?_set_self _ _ _) own first, by rw [tip]; rfl,
            List.nodup_singleton _, fun id other hRow hOwn => ?_⟩
          rcases get?_of_set hRow with ⟨rfl, -⟩ | ⟨-, hOldRow⟩
          · exact List.mem_singleton_self _
          · have hOwner := h.owned id other hOldRow
            rw [hOwn] at hOwner
            exact absurd hOwner (Dict.get?_eq_none_iff.mp freshStrategy)
        · obtain ⟨chain, hChain⟩ := h.linear id other hOld
          refine ⟨chain, hChain.kept hKept (fun id row' hRow hOwn => ?_)⟩
          rcases get?_of_set hRow with ⟨rfl, rfl⟩ | ⟨-, hOldRow⟩
          · exact absurd (hOwn.symm.trans own) hNe
          · exact ⟨row', hOldRow, hOwn⟩
      · rcases get?_of_set hOther with ⟨-, rfl⟩ | ⟨-, hOld⟩
        · rw [own]
          exact Dict.mem_keys_set.mpr (.inl rfl)
        · exact mem_keys_of_set (h.owned id other hOld)
      · rcases get?_of_set hOther with ⟨rfl, rfl⟩ | ⟨-, hOld⟩
        · rfl
        · exact h.revisionIds id other hOld
      · rcases get?_of_set hOther with ⟨-, rfl⟩ | ⟨-, hOld⟩
        · exact readable
        · exact h.readable id other hOld
  | saved accepts readable => exact consistent_accept h accepts readable
  | @adopted strategyId strategy row adoption accepts readable unadopted own revision proposed =>
      have hAccepted := consistent_accept h accepts readable
      have hBefore : db.Kept (db.accept strategyId strategy row) :=
        (Transition.saved accepts readable).kept
      refine ⟨fun id other hOther => ?_, hAccepted.owned, hAccepted.revisionIds, hAccepted.readable,
        h.candidates, fun id other hOther => ?_⟩
      · obtain ⟨chain, hChain⟩ := hAccepted.linear id other hOther
        have hAdoption : (db.accept strategyId strategy row).Kept { db.accept strategyId strategy row with
            adoptions := db.adoptions.set adoption.candidateId adoption } :=
          ⟨fun _ h => h, fun _ _ h => h, fun _ _ h => h, fun _ _ hRow =>
            get?_set_fresh unadopted hRow⟩
        exact ⟨chain, hChain.kept hAdoption (fun _ row hRow hOwn => ⟨row, hRow, hOwn⟩)⟩
      · rcases get?_of_set hOther with ⟨rfl, rfl⟩ | ⟨-, hOld⟩
        · refine ⟨own ▸ proposed.kept hBefore, row, ?_, ?_⟩
          · rw [revision]
            exact Dict.get?_set_self _ _ _
          · rw [accepts.own, own]
        · exact h.adopted_kept hBefore hOld
  | @edited strategyId strategy changed known sameRevision =>
      refine ⟨fun id other hOther => ?_, fun id row hRow => mem_keys_of_set (h.owned id row hRow),
        h.revisionIds, h.readable, h.candidates, h.adopted⟩
      rcases get?_of_set hOther with ⟨rfl, rfl⟩ | ⟨-, hOld⟩
      · obtain ⟨chain, hChain⟩ := h.linear id strategy known
        exact ⟨chain, hChain.history.kept hKept, by rw [hChain.tip, sameRevision], hChain.distinct,
          hChain.complete⟩
      · obtain ⟨chain, hChain⟩ := h.linear id other hOld
        exact ⟨chain, hChain.kept hKept (fun _ row hRow hOwn => ⟨row, hRow, hOwn⟩)⟩
  | @proposed candidate source fresh readable valid hash =>
      refine ⟨fun id other hOther => ?_, h.owned, h.revisionIds, h.readable, fun id other hOther => ?_,
        fun id adoption hAdoption => h.adopted_kept hKept hAdoption⟩
      · obtain ⟨chain, hChain⟩ := h.linear id other hOther
        exact ⟨chain, hChain.kept hKept (fun _ row hRow hOwn => ⟨row, hRow, hOwn⟩)⟩
      · rcases get?_of_set hOther with ⟨rfl, rfl⟩ | ⟨-, hOld⟩
        · exact ⟨rfl, source, readable, valid, hash⟩
        · exact h.candidates id other hOld

end Consistency

end RuleTrade
