import DbosTransact.Lib.Forest
import DbosTransact.SysDb.StatusTable

/-!
# The descendants of a workflow

The children of a workflow are the rows whose `parent_workflow_id` names it, in whatever application.
`CancelWorkflows` and `DeleteWorkflows` address what `GetWorkflowChildren` finds by `ListWorkflows`, which
shows an application its own rows and the unclaimed ones.
-/

namespace Dbos

open Relational Forest

namespace Db

variable (db : Db)

def allChildrenOf (parentID : String) : List String :=
  (db.status.rows.filter (·.parentWorkflowID = some parentID)).map (·.workflowID)

/-- The transitive descendants by `parent_workflow_id`. -/
def Descendant : String → String → Prop := Below db.allChildrenOf

/-- The descendants that the application reaches through rows that it sees. -/
def Reached (appName : String) : String → String → Prop := Below (db.childrenOf appName)

/-- `DeleteWorkflows`: the rows with everything that refers to them. The waiters refer to nothing. -/
def deleteRows (ids : List String) : Db :=
  { db with
    status := db.status.delete (·.workflowID ∈ ids)
    notifications := db.notifications.delete (·.destinationID ∈ ids)
    events := db.events.delete (·.workflowID ∈ ids)
    eventsHistory := db.eventsHistory.delete (·.workflowID ∈ ids)
    operations := db.operations.delete (·.workflowID ∈ ids) }

/-- `DeleteWorkflows`; the workflows addressed are collected as by `CancelWorkflows`. -/
def deleteWorkflows (appName : String) (fuel : Nat) (ids : List String) (deleteChildren : Bool) :
    Option Db :=
  (db.cancelTargets appName fuel ids deleteChildren).map db.deleteRows

variable {db} {appName : String}

theorem mem_allChildrenOf {p x : String} :
    x ∈ db.allChildrenOf p ↔ ∃ r, db.status.find? x = some r ∧ r.parentWorkflowID = some p := by
  simp only [allChildrenOf, List.mem_map, List.mem_filter, decide_eq_true_eq]
  constructor
  · rintro ⟨r, ⟨hr, hp⟩, rfl⟩
    exact ⟨r, Table.find?_of_mem hr, hp⟩
  · rintro ⟨r, hr, hp⟩
    exact ⟨r, ⟨Table.mem_of_find? hr, hp⟩, Table.key_of_find? hr⟩

theorem mem_childrenOf {p x : String} :
    x ∈ db.childrenOf appName p ↔
      ∃ r, db.status.find? x = some r ∧ r.parentWorkflowID = some p ∧ r.ownedBy appName = true := by
  simp only [childrenOf, List.mem_map, List.mem_filter, Bool.and_eq_true, decide_eq_true_eq]
  constructor
  · rintro ⟨r, ⟨hr, hp⟩, rfl⟩
    exact ⟨r, Table.find?_of_mem hr, hp⟩
  · rintro ⟨r, hr, hp⟩
    exact ⟨r, ⟨Table.mem_of_find? hr, hp⟩, Table.key_of_find? hr⟩

theorem childrenOf_subset (p : String) : db.childrenOf appName p ⊆ db.allChildrenOf p := by
  intro x hx
  obtain ⟨r, hr, hp, -⟩ := mem_childrenOf.1 hx
  exact mem_allChildrenOf.2 ⟨r, hr, hp⟩

theorem Reached.descendant {w x : String} (h : db.Reached appName w x) : db.Descendant w x :=
  Below.mono childrenOf_subset h

theorem Reached.exists_row {w x : String} (h : db.Reached appName w x) :
    ∃ r, db.status.find? x = some r ∧ r.ownedBy appName = true := by
  obtain ⟨p, -, hx⟩ := Relation.TransGen.tail'_iff.1 h
  obtain ⟨r, hr, -, hown⟩ := mem_childrenOf.1 hx
  exact ⟨r, hr, hown⟩

theorem not_descendant_self (rank : String → ℕ)
    (h : ∀ r ∈ db.status.rows, ∀ p ∈ r.parentWorkflowID, rank p < rank r.workflowID) (w : String) :
    ¬ db.Descendant w w := by
  intro hw
  refine absurd (Below.rank_lt rank (fun p x hx => ?_) hw) (lt_irrefl _)
  obtain ⟨r, hr, hp⟩ := mem_allChildrenOf.1 hx
  have := h r (Table.mem_of_find? hr) p hp
  rwa [Table.key_of_find? hr] at this

theorem isForest_childrenOf : IsForest (db.childrenOf appName) where
  nodup p := db.status.nodup.sublist (List.filter_sublist.map _)
  parent hxa hxb := by
    obtain ⟨r, hr, ha, -⟩ := mem_childrenOf.1 hxa
    obtain ⟨r', hr', hb, -⟩ := mem_childrenOf.1 hxb
    obtain rfl := Option.some.inj (hr.symm.trans hr')
    exact Option.some.inj (ha.symm.trans hb)

/-! ### `GetWorkflowChildren` -/

theorem descendantsLoop_eq_walk (fuel : Nat) (queue children : List String) :
    db.descendantsLoop appName fuel queue children = walk (db.childrenOf appName) fuel queue children := by
  induction fuel generalizing queue children with
  | zero => cases queue <;> rfl
  | succ fuel ih =>
    cases queue with
    | nil => rfl
    | cons x queue => exact ih _ _

/-- If a workflow is not reached from itself, `GetWorkflowChildren` returns, with every workflow that
it reaches exactly once. -/
theorem exists_getWorkflowChildren {w : String} {fuel : Nat} (hw : ¬ db.Reached appName w w)
    (hfuel : db.status.rows.length ≤ fuel) :
    ∃ children, db.getWorkflowChildren appName fuel w = some children ∧ children.Nodup ∧
      ∀ x, x ∈ children ↔ db.Reached appName w x := by
  have hnodes : ∀ p, db.childrenOf appName p ⊆ db.status.rows.map (·.workflowID) := by
    intro p x hx
    obtain ⟨r, hr, rfl⟩ := List.mem_map.1 hx
    exact List.mem_map_of_mem (List.mem_filter.1 hr).1
  simp only [getWorkflowChildren, descendantsLoop_eq_walk]
  exact exists_walk isForest_childrenOf hw hnodes (by simpa using hfuel)

theorem getWorkflowChildren_eq_none {w : String} (hw : db.Reached appName w w) (fuel : Nat) :
    db.getWorkflowChildren appName fuel w = none := by
  simp only [getWorkflowChildren, descendantsLoop_eq_walk]
  exact walk_eq_none hw fuel

end Db

/-! ### The workflows addressed -/

theorem exists_mapM {α β : Type} {f : α → Option β} {P : α → β → Prop} {as : List α}
    (h : ∀ a ∈ as, ∃ b, f a = some b ∧ P a b) :
    ∃ bs, as.mapM f = some bs ∧ List.Forall₂ P as bs := by
  induction as with
  | nil => exact ⟨[], rfl, .nil⟩
  | cons a as ih =>
    obtain ⟨b, hb, hP⟩ := h a List.mem_cons_self
    obtain ⟨bs, hbs, hPs⟩ := ih fun a' ha' => h a' (List.mem_cons_of_mem _ ha')
    exact ⟨b :: bs, by simp [List.mapM_cons, hb, hbs], .cons hP hPs⟩

theorem mem_flatten_of_forall₂ {α β : Type} {Q : α → β → Prop} {as : List α} {bss : List (List β)}
    (h : List.Forall₂ (fun a bs => ∀ b, b ∈ bs ↔ Q a b) as bss) {b : β} :
    b ∈ bss.flatten ↔ ∃ a ∈ as, Q a b := by
  induction h with
  | nil => simp
  | cons hQ _ ih => simp [hQ b, ih]

namespace Db

variable {db : Db} {appName : String} {ids : List String}

def Addressed (db : Db) (ids : List String) (x : String) : Prop :=
  x ∈ ids ∨ ∃ w ∈ ids, db.Descendant w x

theorem exists_cancelTargets (appName : String) (ids : List String) {fuel : Nat} (hacyclic : ∀ w, ¬ db.Descendant w w)
    (hfuel : db.status.rows.length ≤ fuel) :
    ∃ targets, db.cancelTargets appName fuel ids true = some targets ∧
      ∀ x, x ∈ targets ↔ x ∈ ids ∨ ∃ w ∈ ids, db.Reached appName w x := by
  have hcalls : ∀ w ∈ ids, ∃ children, db.getWorkflowChildren appName fuel w = some children ∧
      ∀ x, x ∈ children ↔ db.Reached appName w x := by
    intro w _
    obtain ⟨children, hchildren, -, hmem⟩ :=
      exists_getWorkflowChildren (fun h => hacyclic w h.descendant) hfuel
    exact ⟨children, hchildren, hmem⟩
  obtain ⟨children, hchildren, hmem⟩ := exists_mapM hcalls
  refine ⟨ids ++ children.flatten, by simp [cancelTargets, hchildren], fun x => ?_⟩
  rw [List.mem_append, mem_flatten_of_forall₂ hmem]

theorem addressed_of_target {x : String} (h : x ∈ ids ∨ ∃ w ∈ ids, db.Reached appName w x) :
    db.Addressed ids x :=
  h.imp_right fun ⟨w, hw, hx⟩ => ⟨w, hw, hx.descendant⟩

end Db

/-- `CancelWorkflows` with the children of the listed workflows did what it should: it cancelled the
listed workflows and their descendants that were not terminal, and nothing else. -/
structure CancelsExactly (db db' : Db) (ids : List String) (now : Int) : Prop where
  cancelled : ∀ x r, db.status.find? x = some r → r.cancellable = true → db.Addressed ids x →
    db'.status.find? x = some (r.cancel now)
  kept : ∀ x r, db.status.find? x = some r → r.cancellable = false ∨ ¬ db.Addressed ids x →
    db'.status.find? x = some r
  noneAdded : ∀ x, db.status.find? x = none → db'.status.find? x = none

/-- `DeleteWorkflows` with the children of the listed workflows did what it should: it deleted the
listed workflows and their descendants, and nothing else. -/
structure DeletesExactly (db db' : Db) (ids : List String) : Prop where
  deleted : ∀ x, db.Addressed ids x → db'.status.find? x = none
  kept : ∀ x, ¬ db.Addressed ids x → db'.status.find? x = db.status.find? x

section Exactly

variable {db : Db} {appName : String} {ids targets : List String} {now : Int}

theorem find?_cancelRows (x : String) :
    (db.cancelRows targets now).status.find? x =
      (db.status.find? x).map fun r => if x ∈ targets ∧ r.cancellable = true then r.cancel now else r := by
  rw [Db.cancelRows, Table.find?_update]
  cases hr : db.status.find? x with
  | none => rfl
  | some r => simp [Table.key_of_find? hr]

theorem find?_deleteRows (x : String) :
    (db.deleteRows targets).status.find? x = if x ∈ targets then none else db.status.find? x := by
  rw [Db.deleteRows, Table.find?_delete]
  cases hr : db.status.find? x with
  | none => simp
  | some r => by_cases hx : x ∈ targets <;> simp [Option.filter, Table.key_of_find? hr, hx]

theorem cancelsExactly_iff (htargets : ∀ x ∈ targets, db.Addressed ids x) :
    CancelsExactly db (db.cancelRows targets now) ids now ↔
      ∀ x r, db.status.find? x = some r → r.cancellable = true → db.Addressed ids x → x ∈ targets := by
  constructor
  · intro h x r hr hc hx
    by_contra hout
    have hcancelled := h.cancelled x r hr hc hx
    rw [find?_cancelRows, hr, Option.map_some, if_neg fun hin => hout hin.1] at hcancelled
    -- the row would be CANCELLED as it is, and could not be cancelled
    have hst : r.status = .cancelled := by rw [Option.some.inj hcancelled]; rfl
    simp [WorkflowRow.cancellable, hst] at hc
  · intro h
    refine ⟨fun x r hr hc hx => ?_, fun x r hr hkeep => ?_, fun x hr => ?_⟩
    · rw [find?_cancelRows, hr, Option.map_some, if_pos ⟨h x r hr hc hx, hc⟩]
    · rw [find?_cancelRows, hr, Option.map_some, if_neg]
      rintro ⟨hx, hc⟩
      rcases hkeep with hkeep | hkeep
      · simp [hkeep] at hc
      · exact hkeep (htargets x hx)
    · rw [find?_cancelRows, hr, Option.map_none]

theorem deletesExactly_iff (htargets : ∀ x ∈ targets, db.Addressed ids x) :
    DeletesExactly db (db.deleteRows targets) ids ↔
      ∀ x r, db.status.find? x = some r → db.Addressed ids x → x ∈ targets := by
  constructor
  · intro h x r hr hx
    by_contra hout
    have hdeleted := h.deleted x hx
    rw [find?_deleteRows, if_neg hout, hr] at hdeleted
    cases hdeleted
  · intro h
    refine ⟨fun x hx => ?_, fun x hx => ?_⟩
    · rw [find?_deleteRows]
      split_ifs with hin
      · rfl
      · cases hr : db.status.find? x with
        | none => rfl
        | some r => exact (hin (h x r hr hx)).elim
    · rw [find?_deleteRows, if_neg fun hin => hx (htargets x hin)]

/-- If every descendant is seen by the application or listed itself, every descendant that is not
listed is reached from a listed one. -/
theorem reached_of_seen
    (hseen : ∀ x r, db.status.find? x = some r → (∃ w ∈ ids, db.Descendant w x) →
      x ∈ ids ∨ r.ownedBy appName = true)
    {w x : String} (hw : w ∈ ids) (hx : db.Descendant w x) :
    x ∈ ids ∨ ∃ v ∈ ids, db.Reached appName v x := by
  induction hx with
  | @single x hchild =>
    obtain ⟨r, hr, hp⟩ := Db.mem_allChildrenOf.1 hchild
    refine (hseen x r hr ⟨w, hw, .single hchild⟩).imp_right fun hown => ⟨w, hw, ?_⟩
    exact .single (Db.mem_childrenOf.2 ⟨r, hr, hp, hown⟩)
  | @tail p x hpath hchild ih =>
    obtain ⟨r, hr, hp⟩ := Db.mem_allChildrenOf.1 hchild
    refine (hseen x r hr ⟨w, hw, hpath.tail hchild⟩).imp_right fun hown => ?_
    have hseen : x ∈ db.childrenOf appName p := Db.mem_childrenOf.2 ⟨r, hr, hp, hown⟩
    rcases ih with hlisted | ⟨v, hv, hreached⟩
    · exact ⟨p, hlisted, .single hseen⟩
    · exact ⟨v, hv, hreached.tail hseen⟩

end Exactly

/-- **How far `CancelWorkflows` and `DeleteWorkflows` reach**, where no workflow is its own descendant.
Both return. The cancellation is exact if and only if every descendant that is not terminal is listed
or reached through rows that the caller's application sees, and the deletion is exact if and only if
every descendant is listed or seen itself. -/
theorem descendants_reached_iff (db : Db) (hacyclic : ∀ w, ¬ db.Descendant w w) (appName : String)
    (ids : List String) (now : Int) {fuel : Nat} (hfuel : db.status.rows.length ≤ fuel) :
    ∃ afterCancel found afterDelete,
      db.cancelWorkflows appName fuel ids true now = some (afterCancel, found) ∧
      db.deleteWorkflows appName fuel ids true = some afterDelete ∧
      (CancelsExactly db afterCancel ids now ↔
        ∀ x r, db.status.find? x = some r → r.cancellable = true → (∃ w ∈ ids, db.Descendant w x) →
          x ∈ ids ∨ ∃ w ∈ ids, db.Reached appName w x) ∧
      (DeletesExactly db afterDelete ids ↔
        ∀ x r, db.status.find? x = some r → (∃ w ∈ ids, db.Descendant w x) →
          x ∈ ids ∨ r.ownedBy appName = true) := by
  obtain ⟨targets, htargets, hmem⟩ := Db.exists_cancelTargets appName ids hacyclic hfuel
  have haddressed : ∀ x ∈ targets, db.Addressed ids x := fun x hx =>
    Db.addressed_of_target ((hmem x).1 hx)
  refine ⟨db.cancelRows targets now, (db.status.rows.filter (·.workflowID ∈ targets)).map (·.workflowID),
    db.deleteRows targets, ?_, ?_, ?_, ?_⟩
  · simp [Db.cancelWorkflows, htargets]
  · simp [Db.deleteWorkflows, htargets]
  · rw [cancelsExactly_iff haddressed]
    simp only [hmem]
    constructor
    · intro h x r hr hc hx
      exact h x r hr hc (.inr hx)
    · rintro h x r hr hc (hx | hx)
      · exact .inl hx
      · exact h x r hr hc hx
  · rw [deletesExactly_iff haddressed]
    simp only [hmem]
    constructor
    · intro h x r hr hx
      refine (h x r hr (.inr hx)).imp_right ?_
      rintro ⟨w, -, hreached⟩
      obtain ⟨r', hr', hown⟩ := hreached.exists_row
      exact Option.some.inj (hr.symm.trans hr') ▸ hown
    · rintro h x r hr (hx | ⟨w, hw, hx⟩)
      · exact .inl hx
      · exact reached_of_seen h hw hx

section Example

/-- `order` runs in the application `billing` and has enqueued `shipment`, to the given application. -/
def orderWithShipment (applicationName : String) : Db :=
  StatusTable.toDb <| Table.insert
    (Table.insert .empty
      (InsertWorkflowStatusInput.row "billing" { workflowID := "order", status := .pending, name := "f" }))
    (InsertWorkflowStatusInput.row "billing"
      { workflowID := "shipment", status := .enqueued, name := "g", queueName := "q",
        parentWorkflowID := "order", applicationName := applicationName })

theorem not_descendant_orderWithShipment (applicationName w : String) :
    ¬ (orderWithShipment applicationName).Descendant w w := by
  refine Db.not_descendant_self (fun x => if x = "order" then 0 else 1) ?_ w
  intro r hr p hp
  have hrows : (orderWithShipment applicationName).status.rows = [_, _] := rfl
  rw [hrows, List.mem_cons, List.mem_singleton] at hr
  rcases hr with rfl | rfl
  · cases hp
  · obtain rfl : "order" = p := Option.some.inj hp
    simp [InsertWorkflowStatusInput.row]

/-- A child that was enqueued to another application is neither cancelled nor deleted. -/
theorem shipment_out_of_reach :
    (∀ w, ¬ (orderWithShipment "shipping").Descendant w w) ∧
      (∃ after found, (orderWithShipment "shipping").cancelWorkflows "billing" 2 ["order"] true 5 =
          some (after, found) ∧ ¬ CancelsExactly (orderWithShipment "shipping") after ["order"] 5) ∧
      ∃ after, (orderWithShipment "shipping").deleteWorkflows "billing" 2 ["order"] true = some after ∧
        ¬ DeletesExactly (orderWithShipment "shipping") after ["order"] := by
  have hchild : (orderWithShipment "shipping").Addressed ["order"] "shipment" :=
    .inr ⟨"order", by simp, .single (by decide +kernel)⟩
  refine ⟨not_descendant_orderWithShipment _, ⟨_, _, rfl, fun h => ?_⟩, ⟨_, rfl, fun h => ?_⟩⟩
  · have := h.cancelled "shipment" _ rfl (by decide) hchild
    revert this
    decide +kernel
  · have := h.deleted "shipment" hchild
    revert this
    decide +kernel

/-- A child in the application of its parent is cancelled, or deleted, with it. -/
theorem shipment_within_reach :
    ∃ afterCancel found afterDelete,
      (orderWithShipment "").cancelWorkflows "billing" 2 ["order"] true 5 = some (afterCancel, found) ∧
      (orderWithShipment "").deleteWorkflows "billing" 2 ["order"] true = some afterDelete ∧
      CancelsExactly (orderWithShipment "") afterCancel ["order"] 5 ∧
      DeletesExactly (orderWithShipment "") afterDelete ["order"] := by
  have hseen : ∀ r ∈ (orderWithShipment "").status.rows, r.ownedBy "billing" = true := by
    decide +kernel
  obtain ⟨afterCancel, found, afterDelete, hcancel, hdelete, hcancels, hdeletes⟩ :=
    descendants_reached_iff (orderWithShipment "") (not_descendant_orderWithShipment "") "billing"
      ["order"] 5 (show _ ≤ 2 by decide)
  refine ⟨afterCancel, found, afterDelete, hcancel, hdelete, hcancels.2 ?_, hdeletes.2 ?_⟩
  · rintro x r - - ⟨w, hw, hx⟩
    exact reached_of_seen (fun x r hr _ => .inr (hseen r (Table.mem_of_find? hr))) hw hx
  · intro x r hr _
    exact .inr (hseen r (Table.mem_of_find? hr))

end Example

end Dbos
