import RuleTrade.Editor.Session
import RuleTrade.Properties.RevisionMerge
import Mathlib.Logic.Relation

/-! Runs of the Strategy editor: what holds of the document, its Revision and its
source hash however actions and answers are interleaved. -/

namespace RuleTrade

open Library

variable {Hash : Type}

section Specification

/-- The editor shows a document under its own hash, knows the Revision it started
from, calls it saved only when it is, and has every accepted edit. -/
structure EditorSession.Consistent (backend : EditorBackend Hash) (s : EditorSession Hash) :
    Prop where
  hash : s.values.sourceHash = backend.sourceHash s.values.canonical.document
  base : s.revisions[s.values.revisionId]? = some s.values.baseCanonical
  clean : s.values.dirty = false →
    s.revisions[s.values.revisionId]? = some s.values.canonical.document
  kept : ∀ edit ∈ s.accepted, edit ∈ s.values.canonical.edits

/-- A saved answer finds no edit accepted since the document was sent, and a merge
that is reapplied has the latest Revision's hash and every accepted edit. -/
def EditorSession.Undisturbed (backend : EditorBackend Hash) (s : EditorSession Hash) :
    EditorEvent → Prop
  | .deliver index => ∀ held testing revision,
      s.waiting[index]? = some (.saveAnswered held testing (some revision)) →
      ∀ edit ∈ s.accepted, edit ∈ held.canonical.edits
  | .reapply => ∀ current merged, s.values.conflict = some ⟨current, some merged⟩ →
      backend.sourceHash merged.document = backend.sourceHash current.document ∧
        ∀ edit ∈ s.accepted, edit ∈ merged.edits
  | _ => True

/-- States that a session reaches by undisturbed steps. -/
def EditorSession.Reaches [DecidableEq Hash] (backend : EditorBackend Hash) :
    EditorSession Hash → EditorSession Hash → Prop :=
  Relation.ReflTransGen
    (fun s next => ∃ event, s.Undisturbed backend event ∧ s.step backend event = some next)

end Specification

section Waiting

/-- Request number of a handler that checks it, with the edits the handler holds. -/
def Waiting.numbered : Waiting Hash → Option (Nat × List Nat)
  | .apply held _ request | .restore held _ _ _ request | .prepareApply held _ request
  | .prepareSave held _ request | .prepareAnswered held _ request _ =>
      some (request, held.canonical.edits)
  | _ => none

/-- Revision that an answer on its way names. -/
def Waiting.answer : Waiting Hash → Option StoredRevision
  | .saveAnswered _ _ answer | .prepareAnswered _ _ _ answer => answer
  | .latestAnswered _ current | .refreshAnswered _ current => some current
  | _ => none

namespace EditorSession

def Stored (s : EditorSession Hash) (revision : StoredRevision) : Prop :=
  s.revisions[revision.id]? = some revision.document

/-- A handler that may still install its answer holds every accepted edit, and
Revisions that answers name are stored. -/
structure Admits (s : EditorSession Hash) (task : Waiting Hash) : Prop where
  started : ∀ request edits, task.numbered = some (request, edits) → request ≤ s.sequence
  holds : ∀ edits, task.numbered = some (s.sequence, edits) → ∀ edit ∈ s.accepted, edit ∈ edits
  stored : ∀ revision ∈ task.answer, s.Stored revision

def requests (s : EditorSession Hash) : List Nat :=
  s.waiting.filterMap (fun task => task.numbered.map Prod.fst)

structure Sound (backend : EditorBackend Hash) (s : EditorSession Hash) : Prop
    extends s.Consistent backend where
  admits : ∀ task ∈ s.waiting, s.Admits task
  requests_nodup : s.requests.Nodup
  conflict : ∀ conflict ∈ s.values.conflict, s.Stored conflict.current

variable {backend : EditorBackend Hash} {s : EditorSession Hash}

theorem mem_requests {request : Nat} :
    request ∈ s.requests ↔ ∃ task ∈ s.waiting, ∃ edits, task.numbered = some (request, edits) := by
  simp [requests]

theorem Sound.opened (earlier : List Json) (document : Json) :
    (opened backend earlier document).Sound backend where
  hash := rfl
  base := by simp [EditorSession.opened]
  clean := by simp [EditorSession.opened]
  kept := fun _ h => absurd h List.not_mem_nil
  admits := fun _ h => absurd h List.not_mem_nil
  requests_nodup := List.nodup_nil
  conflict := fun _ h => by cases h

theorem Sound.withStatus (h : s.Sound backend) (status : EditorStatus) :
    (s.withStatus status).Sound backend where
  hash := h.hash
  base := h.base
  clean := h.clean
  kept := h.kept
  admits := fun task hTask => ⟨(h.admits task hTask).started, (h.admits task hTask).holds,
    (h.admits task hTask).stored⟩
  requests_nodup := h.requests_nodup
  conflict := h.conflict

/-- A handler starts to wait. -/
theorem Sound.await (h : s.Sound backend) {task : Waiting Hash} (hTask : s.Admits task)
    (hFresh : ∀ request edits, task.numbered = some (request, edits) → request ∉ s.requests) :
    (s.await task).Sound backend where
  hash := h.hash
  base := h.base
  clean := h.clean
  kept := h.kept
  admits := by
    intro other hOther
    rcases List.mem_cons.mp hOther with rfl | hOther
    · exact ⟨hTask.started, hTask.holds, hTask.stored⟩
    · exact ⟨(h.admits other hOther).started, (h.admits other hOther).holds,
        (h.admits other hOther).stored⟩
  requests_nodup := by
    cases hNumbered : task.numbered with
    | none =>
        have hRequests : (s.await task).requests = s.requests := by
          simp [requests, EditorSession.await, hNumbered]
        rw [hRequests]
        exact h.requests_nodup
    | some numbered =>
        have hRequests : (s.await task).requests = numbered.1 :: s.requests := by
          simp [requests, EditorSession.await, hNumbered]
        rw [hRequests, List.nodup_cons]
        exact ⟨hFresh numbered.1 numbered.2 hNumbered, h.requests_nodup⟩
  conflict := h.conflict

/-- A handler without a request number starts to wait. -/
theorem Sound.await_plain (h : s.Sound backend) {task : Waiting Hash}
    (hNumbered : task.numbered = none) (hAnswer : ∀ revision ∈ task.answer, s.Stored revision) :
    (s.await task).Sound backend := by
  apply h.await
  · refine ⟨fun _ _ hEq => ?_, fun _ hEq => ?_, hAnswer⟩
    · rw [hNumbered] at hEq
      cases hEq
    · rw [hNumbered] at hEq
      cases hEq
  · intro _ _ hEq
    rw [hNumbered] at hEq
    cases hEq

/-- A handler with the next request number starts to wait. -/
theorem Sound.await_request (h : s.Sound backend) {task : Waiting Hash}
    (hNumbered : task.numbered = some (s.sequence + 1, s.values.canonical.edits))
    (hAnswer : task.answer = none) : (s.requesting.await task).Sound backend := by
  have hRequesting : s.requesting.Sound backend := by
    refine ⟨⟨h.hash, h.base, h.clean, h.kept⟩, fun other hOther => ?_, h.requests_nodup, h.conflict⟩
    have hAdmits := h.admits other hOther
    refine ⟨fun request edits hEq => ?_, fun edits hEq => ?_, hAdmits.stored⟩
    · exact Nat.le_succ_of_le (hAdmits.started request edits hEq)
    · exact absurd (hAdmits.started _ edits hEq) (Nat.not_succ_le_self _)
  apply hRequesting.await
  · refine ⟨fun request edits hEq => ?_, fun edits hEq => ?_, fun _ hMem => ?_⟩
    · rw [hNumbered, Option.some.injEq, Prod.mk.injEq] at hEq
      exact hEq.1.symm.le
    · rw [hNumbered, Option.some.injEq, Prod.mk.injEq] at hEq
      rw [← hEq.2]
      exact h.kept
    · rw [hAnswer] at hMem
      cases hMem
  · intro request edits hEq hMem
    rw [hNumbered, Option.some.injEq, Prod.mk.injEq] at hEq
    obtain ⟨other, hOther, edits', hEdits⟩ := mem_requests.mp hMem
    have hStarted := (h.admits other hOther).started request edits' hEdits
    omega

/-- A waiting handler goes on: it was admitted, and no other has its number. -/
theorem Sound.take (h : s.Sound backend) {index : Nat} {task : Waiting Hash}
    (hTask : s.waiting[index]? = some task) :
    ({ s with waiting := s.waiting.eraseIdx index } : EditorSession Hash).Sound backend ∧
      s.Admits task ∧ ∀ request edits, task.numbered = some (request, edits) →
        request ∉ ({ s with waiting := s.waiting.eraseIdx index } : EditorSession Hash).requests := by
  obtain ⟨hIndex, rfl⟩ := List.getElem?_eq_some_iff.mp hTask
  have hPerm := List.getElem_cons_eraseIdx_perm hIndex
  have hRequests : ((s.waiting[index] :: s.waiting.eraseIdx index).filterMap
      (fun task => task.numbered.map Prod.fst)).Nodup :=
    (hPerm.filterMap _).nodup_iff.mpr h.requests_nodup
  refine ⟨⟨⟨h.hash, h.base, h.clean, h.kept⟩, fun other hOther => ?_, ?_, h.conflict⟩, ?_, ?_⟩
  · have hAdmits := h.admits other (List.mem_of_mem_eraseIdx hOther)
    exact ⟨hAdmits.started, hAdmits.holds, hAdmits.stored⟩
  · exact List.Nodup.sublist ((List.eraseIdx_sublist _ _).filterMap _) h.requests_nodup
  · exact h.admits _ (List.getElem_mem hIndex)
  · intro request edits hNumbered
    rw [List.filterMap_cons_some (by rw [hNumbered]; rfl), List.nodup_cons] at hRequests
    exact hRequests.1

/-- More Revisions are stored. -/
theorem Sound.append (h : s.Sound backend) (documents : List Json) :
    ({ s with revisions := s.revisions ++ documents } : EditorSession Hash).Sound backend := by
  have hStored : ∀ {id : Nat} {document : Json}, s.revisions[id]? = some document →
      (s.revisions ++ documents)[id]? = some document := by
    intro id document hId
    obtain ⟨hLength, _⟩ := List.getElem?_eq_some_iff.mp hId
    rw [List.getElem?_append_left hLength, hId]
  refine ⟨⟨h.hash, hStored h.base, fun hClean => hStored (h.clean hClean), h.kept⟩,
    fun task hTask => ?_, h.requests_nodup, fun conflict hConflict => hStored (h.conflict _ hConflict)⟩
  have hAdmits := h.admits task hTask
  exact ⟨hAdmits.started, hAdmits.holds, fun revision hRevision => hStored (hAdmits.stored _ hRevision)⟩

end EditorSession

end Waiting

section Installing

namespace EditorSession

variable {backend : EditorBackend Hash} {s : EditorSession Hash} {held : EditorValues Hash}

/-- Handlers that wait see only the request number, the accepted edits and the
stored Revisions. -/
theorem Admits.congr {next : EditorSession Hash} {task : Waiting Hash} (h : s.Admits task)
    (hSequence : next.sequence = s.sequence) (hAccepted : ∀ edit ∈ next.accepted, edit ∈ s.accepted)
    (hRevisions : next.revisions = s.revisions) : next.Admits task where
  started := fun request edits hNumbered => hSequence ▸ h.started request edits hNumbered
  holds := fun edits hNumbered edit hEdit =>
    h.holds edits (hSequence ▸ hNumbered) edit (hAccepted edit hEdit)
  stored := fun revision hRevision => by
    show next.revisions[_]? = _
    rw [hRevisions]
    exact h.stored revision hRevision

/-- A handler that does not wait any more has no other with its number. -/
theorem Admits.accept {next : EditorSession Hash} {task : Waiting Hash} (h : s.Admits task)
    (hTask : task ∈ s.waiting) (hFresh : s.sequence ∉ s.requests)
    (hSequence : next.sequence = s.sequence) (hRevisions : next.revisions = s.revisions) :
    next.Admits task where
  started := fun request edits hNumbered => hSequence ▸ h.started request edits hNumbered
  holds := fun edits hNumbered => absurd
    (mem_requests.mpr ⟨task, hTask, edits, hSequence ▸ hNumbered⟩) hFresh
  stored := fun revision hRevision => by
    show next.revisions[_]? = _
    rw [hRevisions]
    exact h.stored revision hRevision

theorem Sound.installEdit (h : s.Sound backend) {request : Nat} {strategy : Json}
    (hHeld : ∀ edit ∈ s.accepted, edit ∈ held.canonical.edits) (hRequest : request = s.sequence)
    (hFresh : request ∉ s.requests) :
    (s.installEdit backend held request strategy).Sound backend where
  hash := rfl
  base := h.base
  clean := fun hClean => by cases hClean
  kept := by
    intro edit hEdit
    rcases List.mem_cons.mp hEdit with rfl | hEdit
    · exact List.mem_cons_self
    · exact List.mem_cons_of_mem _ (hHeld edit hEdit)
  admits := fun task hTask =>
    (h.admits task hTask).accept hTask (hRequest ▸ hFresh) rfl rfl
  requests_nodup := h.requests_nodup
  conflict := h.conflict

theorem Sound.installRestored (h : s.Sound backend) {target : Draft}
    {direction : HistoryDirection} {strategy : Json}
    (hHeld : ∀ edit ∈ s.accepted, edit ∈ held.canonical.edits) :
    (s.installRestored backend held target direction strategy).Sound backend where
  hash := rfl
  base := h.base
  clean := fun hClean => by cases hClean
  kept := fun edit hEdit => hHeld edit (List.mem_of_mem_filter hEdit)
  admits := fun task hTask =>
    (h.admits task hTask).congr rfl (fun _ hEdit => List.mem_of_mem_filter hEdit) rfl
  requests_nodup := h.requests_nodup
  conflict := h.conflict

theorem Sound.installRevision (h : s.Sound backend) {revision : StoredRevision}
    {edits : List Nat} (hStored : s.Stored revision) (hKept : ∀ edit ∈ s.accepted, edit ∈ edits) :
    (s.installRevision backend revision edits).Sound backend where
  hash := rfl
  base := hStored
  clean := fun _ => hStored
  kept := hKept
  admits := fun task hTask => (h.admits task hTask).congr rfl (fun _ hEdit => hEdit) rfl
  requests_nodup := h.requests_nodup
  conflict := h.conflict

/-- A stored edit is accepted as it is installed. -/
theorem Sound.installAuthored (h : s.Sound backend) {revision : StoredRevision} {request : Nat}
    (hStored : s.Stored revision) (hHeld : ∀ edit ∈ s.accepted, edit ∈ held.canonical.edits)
    (hRequest : request = s.sequence) (hFresh : request ∉ s.requests) :
    ({ s.installRevision backend revision (request :: held.canonical.edits) with
      values := { (s.installRevision backend revision (request :: held.canonical.edits)).values with
        undoStack := s.values.undoStack ++ [held.canonical], redoStack := [] }
      accepted := request :: s.accepted } : EditorSession Hash).Sound backend where
  hash := rfl
  base := hStored
  clean := fun _ => hStored
  kept := by
    intro edit hEdit
    rcases List.mem_cons.mp hEdit with rfl | hEdit
    · exact List.mem_cons_self
    · exact List.mem_cons_of_mem _ (hHeld edit hEdit)
  admits := fun task hTask =>
    (h.admits task hTask).accept hTask (hRequest ▸ hFresh) rfl rfl
  requests_nodup := h.requests_nodup
  conflict := h.conflict

/-- A conflict is shown with a Revision that is stored. -/
theorem Sound.withConflict (h : s.Sound backend) {current : StoredRevision}
    (hStored : s.Stored current) (status : EditorStatus) :
    ({ s with values := { s.values with
        conflict := some (conflictWith held current), status := status } } :
      EditorSession Hash).Sound backend where
  hash := h.hash
  base := h.base
  clean := h.clean
  kept := h.kept
  admits := fun task hTask => (h.admits task hTask).congr rfl (fun _ hEdit => hEdit) rfl
  requests_nodup := h.requests_nodup
  conflict := fun _ hConflict => by
    rw [← Option.some.inj hConflict]
    exact hStored

theorem Sound.reapplyConflict (h : s.Sound backend) (hSafe : s.Undisturbed backend .reapply) :
    (s.reapplyConflict backend).Sound backend := by
  unfold EditorSession.reapplyConflict
  split
  · rename_i current merged hConflict
    obtain ⟨hHash, hKept⟩ := hSafe current merged hConflict
    have hStored := h.conflict _ hConflict
    refine ⟨⟨hHash.symm, hStored, fun hClean => ?_, hKept⟩,
      fun task hTask => (h.admits task hTask).congr rfl (fun _ hEdit => hEdit) rfl,
      h.requests_nodup, fun _ hNone => ?_⟩
    · cases hClean
    · cases hNone
  · exact h

theorem Sound.discardConflict (h : s.Sound backend) :
    (s.discardConflict backend).Sound backend := by
  unfold EditorSession.discardConflict
  split
  · rename_i current merged hConflict
    have hStored := h.conflict _ hConflict
    refine ⟨⟨rfl, hStored, fun _ => hStored, fun _ hEdit => absurd hEdit List.not_mem_nil⟩,
      fun task hTask => (h.admits task hTask).congr rfl
        (fun _ hEdit => absurd hEdit List.not_mem_nil) rfl,
      h.requests_nodup, fun _ hNone => ?_⟩
    cases hNone
  · exact h

end EditorSession

end Installing

section Steps

namespace EditorSession

variable {backend : EditorBackend Hash} {s : EditorSession Hash}

theorem Sound.restore (h : s.Sound backend) (target : Draft) (direction : HistoryDirection) :
    (s.restore target direction).Sound backend := by
  unfold EditorSession.restore
  split
  · exact h
  · exact h.await_request rfl rfl

theorem Sound.persist (h : s.Sound backend) (held : EditorValues Hash) (testing : Bool) :
    (s.persistCommittedRevision held testing).Sound backend := by
  unfold EditorSession.persistCommittedRevision
  split_ifs
  · exact h.await_plain rfl (fun _ hMem => by cases hMem)
  · exact h
  · exact h
  · exact (h.withStatus .updating).await_plain rfl (fun _ hMem => by cases hMem)

theorem Sound.run (h : s.Sound backend) : s.run.Sound backend := by
  unfold EditorSession.run
  split_ifs
  · exact h
  · exact h.await_plain rfl (fun _ hMem => by cases hMem)

theorem Sound.prepareBlockyTest (h : s.Sound backend) (operation : Option Json) :
    (s.prepareBlockyTest operation).Sound backend := by
  unfold EditorSession.prepareBlockyTest
  split
  · exact h
  · split_ifs
    · exact h
    · exact h.await_request rfl rfl

theorem Sound.refreshConflict (h : s.Sound backend) : s.refreshConflict.Sound backend := by
  unfold EditorSession.refreshConflict
  split_ifs
  · exact h.await_plain rfl (fun _ hMem => by cases hMem)
  · exact h

/-- The backend stores what it answers. -/
theorem Sound.store (h : s.Sound backend) {expected : Nat} {document : Json}
    {next : EditorSession Hash} {answer : Option StoredRevision}
    (hStore : s.store expected document = (next, answer)) :
    next.Sound backend ∧ next.requests = s.requests ∧
      (∀ task : Waiting Hash, s.Admits task → next.Admits task) ∧
      ∀ revision ∈ answer, next.Stored revision := by
  unfold EditorSession.store at hStore
  split_ifs at hStore with hLatest
  · obtain ⟨rfl, rfl⟩ := Prod.mk.inj hStore
    refine ⟨h.append [document], rfl, fun task hTask => ⟨hTask.started, hTask.holds, ?_⟩, ?_⟩
    · intro revision hRevision
      have hStored := hTask.stored revision hRevision
      obtain ⟨hLength, _⟩ := List.getElem?_eq_some_iff.mp hStored
      show (s.revisions ++ [document])[_]? = _
      rw [List.getElem?_append_left hLength]
      exact hStored
    · intro revision hRevision
      rw [← Option.some.inj hRevision]
      exact List.getElem?_concat_length
  · obtain ⟨rfl, rfl⟩ := Prod.mk.inj hStore
    refine ⟨h, rfl, fun task hTask => hTask, fun _ hNone => ?_⟩
    cases hNone

theorem stored_current {current : StoredRevision} (h : s.current = some current) :
    s.Stored current := by
  obtain ⟨document, hLast, rfl⟩ := Option.map_eq_some_iff.mp h
  show s.revisions[s.revisions.length - 1]? = some document
  rw [← List.getLast?_eq_getElem?, hLast]

/-- An answer on its way is admitted with its handler. -/
theorem Admits.answered {task answered : Waiting Hash} (h : s.Admits task)
    (hNumbered : answered.numbered = task.numbered)
    (hStored : ∀ revision ∈ answered.answer, s.Stored revision) : s.Admits answered where
  started := hNumbered ▸ h.started
  holds := hNumbered ▸ h.holds
  stored := hStored

theorem Sound.serve (h : s.Sound backend) {task : Waiting Hash} (hTask : s.Admits task)
    (hFresh : ∀ request edits, task.numbered = some (request, edits) → request ∉ s.requests)
    {next : EditorSession Hash} (hServe : s.serve task = some next) : next.Sound backend := by
  cases task with
  | save held testing =>
      cases hStore : s.store held.revisionId held.canonical.document with
      | mk stored answer =>
          obtain ⟨hSound, -, -, hAnswer⟩ := h.store hStore
          simp only [EditorSession.serve, hStore, Option.some.injEq] at hServe
          rw [← hServe]
          exact hSound.await_plain rfl hAnswer
  | prepareSave held authored request =>
      cases hStore : s.store held.revisionId authored with
      | mk stored answer =>
          obtain ⟨hSound, hRequests, hAdmits, hAnswer⟩ := h.store hStore
          simp only [EditorSession.serve, hStore, Option.some.injEq] at hServe
          rw [← hServe]
          have hAnswered : stored.Admits (.prepareAnswered held authored request answer) :=
            (hAdmits _ hTask).answered rfl hAnswer
          apply hSound.await hAnswered
          intro request edits hNumbered
          rw [hRequests]
          exact hFresh request edits hNumbered
  | latest held =>
      obtain ⟨current, hCurrent, rfl⟩ := Option.map_eq_some_iff.mp hServe
      apply h.await_plain rfl
      intro revision hRevision
      rw [← Option.some.inj hRevision]
      exact stored_current hCurrent
  | refresh held =>
      obtain ⟨current, hCurrent, rfl⟩ := Option.map_eq_some_iff.mp hServe
      apply h.await_plain rfl
      intro revision hRevision
      rw [← Option.some.inj hRevision]
      exact stored_current hCurrent
  | _ => cases hServe

theorem Sound.fail (h : s.Sound backend) (task : Waiting Hash) : (s.fail task).Sound backend := by
  unfold EditorSession.fail
  split
  all_goals first
    | exact h.withStatus _
    | exact h
    | (split_ifs; exacts [h, h.withStatus _])

variable [DecidableEq Hash]

/-- A handler that goes on leaves the session sound, if a saved answer finds the
accepted edits in the document that was sent. -/
theorem Sound.deliver (h : s.Sound backend) {task : Waiting Hash} (hTask : s.Admits task)
    (hFresh : ∀ request edits, task.numbered = some (request, edits) → request ∉ s.requests)
    (hSaved : ∀ held testing revision, task = .saveAnswered held testing (some revision) →
      ∀ edit ∈ s.accepted, edit ∈ held.canonical.edits)
    {next : EditorSession Hash} (hDeliver : s.deliver backend task = some next) :
    next.Sound backend := by
  unfold EditorSession.deliver at hDeliver
  split at hDeliver
  · rename_i held operation request
    split_ifs at hDeliver with hRequest
    · exact Option.some.inj hDeliver ▸ h
    · rw [not_not] at hRequest
      split at hDeliver
      · rw [← Option.some.inj hDeliver]
        exact h.installEdit (hTask.holds _ (by rw [← hRequest]; rfl)) hRequest (hFresh _ _ rfl)
      · exact Option.some.inj hDeliver ▸ h.withStatus .invalid
  · rename_i held target direction operation request
    split_ifs at hDeliver with hRequest
    · exact Option.some.inj hDeliver ▸ h
    · rw [not_not] at hRequest
      split at hDeliver
      · rw [← Option.some.inj hDeliver]
        exact h.installRestored (hTask.holds _ (by rw [← hRequest]; rfl))
      · exact Option.some.inj hDeliver ▸ h.withStatus .invalid
  · rename_i held testing revision
    have hSound := h.installRevision (hTask.stored revision rfl) (hSaved held testing revision rfl)
    rw [← Option.some.inj hDeliver]
    split_ifs
    · exact hSound.await_plain rfl (fun _ hMem => by cases hMem)
    · exact hSound
  · rename_i held testing
    rw [← Option.some.inj hDeliver]
    exact h.await_plain rfl (fun _ hMem => by cases hMem)
  · rename_i held current
    rw [← Option.some.inj hDeliver]
    exact h.withConflict (hTask.stored current rfl) .invalid
  · rename_i held operation request
    split at hDeliver
    · rename_i authored _
      split_ifs at hDeliver with hRequest
      · exact Option.some.inj hDeliver ▸ h
      · rw [← Option.some.inj hDeliver]
        exact h.await (hTask.answered rfl (fun _ hMem => by cases hMem)) hFresh
    · split_ifs at hDeliver with hRequest
      · exact Option.some.inj hDeliver ▸ h
      · exact Option.some.inj hDeliver ▸ h.withStatus .invalid
  · rename_i held authored request revision
    split_ifs at hDeliver with hRequest
    · exact Option.some.inj hDeliver ▸ h
    · rw [not_not] at hRequest
      rw [← Option.some.inj hDeliver]
      exact h.installAuthored (hTask.stored revision rfl)
        (hTask.holds _ (by rw [← hRequest]; rfl)) hRequest (hFresh _ _ rfl)
  · rename_i held authored request
    split_ifs at hDeliver with hRequest
    · exact Option.some.inj hDeliver ▸ h
    · rw [← Option.some.inj hDeliver]
      exact h.await_plain rfl (fun _ hMem => by cases hMem)
  · rename_i held
    rw [← Option.some.inj hDeliver]
    exact (h.withStatus .updating).persist held true
  · exact Option.some.inj hDeliver ▸ h.withStatus .saved
  · rename_i held current
    rw [← Option.some.inj hDeliver]
    exact h.withConflict (hTask.stored current rfl) s.values.status
  · cases hDeliver

/-- One undisturbed step keeps the session sound. -/
theorem Sound.step (h : s.Sound backend) {event : EditorEvent}
    (hSafe : s.Undisturbed backend event) {next : EditorSession Hash}
    (hStep : s.step backend event = some next) : next.Sound backend := by
  cases event with
  | apply operation =>
      rw [← Option.some.inj hStep]
      exact h.await_request rfl rfl
  | undo target =>
      simp only [EditorSession.step] at hStep
      split_ifs at hStep
      rw [← Option.some.inj hStep]
      exact h.restore target .undo
  | redo target =>
      simp only [EditorSession.step] at hStep
      split_ifs at hStep
      rw [← Option.some.inj hStep]
      exact h.restore target .redo
  | save =>
      rw [← Option.some.inj hStep]
      exact h.persist s.values false
  | test =>
      rw [← Option.some.inj hStep]
      exact h.run
  | prepareTest operation =>
      rw [← Option.some.inj hStep]
      exact h.prepareBlockyTest operation
  | reapply =>
      rw [← Option.some.inj hStep]
      exact h.reapplyConflict hSafe
  | discard =>
      rw [← Option.some.inj hStep]
      exact h.discardConflict
  | refresh =>
      rw [← Option.some.inj hStep]
      exact h.refreshConflict
  | working unfinished =>
      rw [← Option.some.inj hStep]
      exact h.withStatus _
  | serve index =>
      obtain ⟨task, hTask, hServe⟩ := Option.bind_eq_some_iff.mp hStep
      obtain ⟨hSound, hAdmits, hFresh⟩ := h.take hTask
      exact hSound.serve ⟨hAdmits.started, hAdmits.holds, hAdmits.stored⟩ hFresh hServe
  | deliver index =>
      obtain ⟨task, hTask, hDeliver⟩ := Option.bind_eq_some_iff.mp hStep
      obtain ⟨hSound, hAdmits, hFresh⟩ := h.take hTask
      apply hSound.deliver ⟨hAdmits.started, hAdmits.holds, hAdmits.stored⟩ hFresh _ hDeliver
      intro held testing revision hSaved
      exact hSafe held testing revision (hSaved ▸ hTask)
  | fail index =>
      obtain ⟨task, hTask, hFail⟩ := Option.bind_eq_some_iff.mp hStep
      rw [← Option.some.inj hFail]
      exact (h.take hTask).1.fail task
  | storeElsewhere document =>
      rw [← Option.some.inj hStep]
      exact h.append [document]

theorem Sound.reaches (h : s.Sound backend) {final : EditorSession Hash}
    (hRun : s.Reaches backend final) : final.Sound backend := by
  induction hRun with
  | refl => exact h
  | tail _ hStep ih =>
      obtain ⟨event, hSafe, hStep⟩ := hStep
      exact ih.step hSafe hStep

end EditorSession

end Steps

section Runs

end Runs

section LateAnswer

/-- Documents stand for their hashes, and the one edit replaces the Program. -/
def programBackend : EditorBackend Json where
  sourceHash := fun document => document
  edited := fun strategy operation =>
    match strategy, fieldAt (some operation) "program" with
    | .object fields, some program => some (.object (fields.map (fun field =>
        if field.1 = "program" then ("program", program) else field)))
    | _, _ => none

/-- Edit to the Program of a Revision. -/
def toProgramOf (revision : Json) : Json :=
  authoringOperation "set_semantic_program" [("program", fieldAt (some revision) "program")]

def heldSession : EditorSession Json :=
  .opened programBackend [] (statementsRevision [holdStatement "QQQ"])

/-- A save is on its way while a second edit is answered, then the save is. -/
def lateSave : List EditorEvent :=
  [.apply (toProgramOf (statementsRevision [holdStatement "VGT"])), .deliver 0, .save, .serve 0,
    .apply (toProgramOf (statementsRevision [armStatement, holdStatement "VGT"])), .deliver 0,
    .deliver 0]

end LateAnswer

end RuleTrade
