import DbosTransact.Family.Descendants
import DbosTransact.Lib.Transition

/-!
# Cycles of parents

`GetWorkflowChildren` remembers no workflow that it has seen, and so returns only if the workflow is not its
own descendant. `parent_workflow_id` refers to nothing, and a deleted workflow leaves its children behind:
if a descendant starts a child under the deleted ID, the two are descendants of each other.
-/

namespace Dbos.Family

open Relational Lts Forest

/-- The operations of the application `appName`: it enqueues to itself and is not renamed. -/
def ofApplication (appName : String) : Lifecycle.Operation → Bool
  | .insertWorkflowStatus caller i => caller = appName && i.applicationName = ""
  | .forkWorkflows caller _ _ => caller = appName
  | .renameApplication _ _ _ => false
  | _ => true

/-- The table `workflow_status` under the operations of an application, empty at first. -/
def system (appName : String) : System StatusTable Lifecycle.Operation where
  init t := t = .empty
  step t op := if ofApplication appName op then Lifecycle.step t op else none

/-- `GetWorkflowChildren` of `w` returns every descendant of `w` exactly once, and `w` is none. -/
def WalksOnce (appName : String) (t : StatusTable) (w : String) : Prop :=
  ∃ fuel children, t.toDb.getWorkflowChildren appName fuel w = some children ∧ children.Nodup ∧
    (∀ x, x ∈ children ↔ t.toDb.Descendant w x) ∧ w ∉ children

/-- The operation starts no workflow as a child of itself or of a descendant that its ID still has. -/
def StartsBelow (t : StatusTable) : Lifecycle.Operation → Prop
  | .insertWorkflowStatus _ i =>
    t.find? i.workflowID = none → i.parentWorkflowID ≠ "" →
      i.parentWorkflowID ≠ i.workflowID ∧ ¬ t.toDb.Descendant i.workflowID i.parentWorkflowID
  | _ => True

/-- The operation starts no workflow under an ID that a row names as its parent, or as its own child. -/
def unnamed (t : StatusTable) : Lifecycle.Operation → Bool
  | .insertWorkflowStatus _ i =>
    i.parentWorkflowID ≠ i.workflowID && t.rows.all (·.parentWorkflowID ≠ some i.workflowID)
  | _ => true

theorem startsBelow_of_unnamed {t : StatusTable} {op : Lifecycle.Operation} (h : unnamed t op = true) :
    StartsBelow t op := by
  cases op with
  | insertWorkflowStatus caller i =>
    simp only [unnamed, Bool.and_eq_true, List.all_eq_true, decide_eq_true_eq] at h
    refine fun _ _ => ⟨h.1, fun hbelow => ?_⟩
    obtain ⟨x, hx, -⟩ := Relation.TransGen.head'_iff.1 hbelow
    obtain ⟨r, hr, hp⟩ := Db.mem_allChildrenOf.1 hx
    exact h.2 r (Table.mem_of_find? hr) hp
  | _ => trivial

/-! ### The application of a row -/

def Owned (appName : String) (r : WorkflowRow) : Prop := appName = "" ∨ r.applicationName = some appName

theorem Owned.ownedBy {appName : String} {r : WorkflowRow} (h : Owned appName r) :
    r.ownedBy appName = true := by
  rcases h with h | h <;> simp [WorkflowRow.ownedBy, h]

theorem owned_adopted {appName other : String} {app : Option String}
    (h : appName = "" ∨ app = some appName) :
    appName = "" ∨ (if other = "" then app else some (app.getD other)) = some appName := by
  refine h.imp_right fun h => ?_
  subst h
  split_ifs <;> rfl

section Step

variable {appName : String} {t t' : StatusTable} {op : Lifecycle.Operation}

theorem owned_onRow (hop : ofApplication appName op = true) {r : WorkflowRow} (h : Owned appName r) :
    Owned appName (op.onRow r) := by
  have hite : ∀ {c : Prop} [Decidable c] {r' : WorkflowRow}, Owned appName r' →
      Owned appName (if c then r' else r) := by
    intro c _ r' hr'
    split_ifs
    · exact hr'
    · exact h
  cases op with
  | dequeueWorkflows c ids now => exact hite (owned_adopted h)
  | debounceDelayedWorkflow other i now => exact hite (owned_adopted h)
  | renameApplication oldName newName adoptUnclaimedRows => cases hop
  | forkWorkflows caller i now => exact h
  | deleteWorkflows ids => exact h
  | garbageCollectWorkflows other i => exact h
  | _ => exact hite h

theorem parentWorkflowID_onRow (op : Lifecycle.Operation) (r : WorkflowRow) :
    (op.onRow r).parentWorkflowID = r.parentWorkflowID := by
  have hite : ∀ {c : Prop} [Decidable c] {r' : WorkflowRow}, r'.parentWorkflowID = r.parentWorkflowID →
      (if c then r' else r).parentWorkflowID = r.parentWorkflowID := by
    intro c _ r' hr'
    split_ifs
    · exact hr'
    · rfl
  cases op with
  | forkWorkflows caller i now => rfl
  | deleteWorkflows ids => rfl
  | garbageCollectWorkflows other i => rfl
  | _ => exact hite rfl

def AllOwned (appName : String) (t : StatusTable) : Prop :=
  ∀ x r, t.find? x = some r → Owned appName r

theorem allOwned_step (hop : ofApplication appName op = true) (hstep : Lifecycle.step t op = some t')
    (h : AllOwned appName t) : AllOwned appName t' := by
  intro x r' hr'
  rcases Lifecycle.find?_step hstep hr' with ⟨r, hr, rfl⟩ | ⟨hnone, hmade⟩
  · exact owned_onRow hop (h x r hr)
  · cases op with
    | insertWorkflowStatus caller i =>
      obtain ⟨-, rfl⟩ := hmade
      obtain ⟨rfl, happ⟩ : caller = appName ∧ i.applicationName = "" := by
        simpa [ofApplication] using hop
      by_cases hname : caller = ""
      · exact .inl hname
      · exact .inr (by simp [InsertWorkflowStatusInput.row, happ, ownerOf, hname])
    | forkWorkflows caller i now =>
      obtain rfl : caller = appName := by simpa [ofApplication] using hop
      simp only [Lifecycle.step, StatusTable.forkWorkflows] at hstep
      split_ifs at hstep
      obtain ⟨rows, hrows, hstep⟩ := Option.bind_eq_some_iff.1 hstep
      rcases (StatusTable.insertAll_cases hstep).2 r' (Table.mem_of_find? hr') with hr | hr
      · exact absurd (Table.key_of_find? hr') (Table.find?_eq_none.1 hnone r' hr)
      · obtain ⟨y, original, forkedID, horiginal, rfl⟩ := StatusTable.exists_original hrows hr
        by_cases hname : caller = ""
        · exact .inl hname
        · refine (h y original horiginal).imp_right fun happ => ?_
          simp [ForkWorkflowsInput.row, happ, hname]
    | _ => cases hmade

/-! ### The parents -/

theorem child_step (hstep : Lifecycle.step t op = some t') {p x : String}
    (hx : x ∈ t'.toDb.allChildrenOf p) :
    x ∈ t.toDb.allChildrenOf p ∨ ∃ caller i, op = .insertWorkflowStatus caller i ∧
      t.find? x = none ∧ i.workflowID = x ∧ i.parentWorkflowID = p ∧ p ≠ "" := by
  obtain ⟨r', hr', hp⟩ := Db.mem_allChildrenOf.1 hx
  rcases Lifecycle.find?_step hstep hr' with ⟨r, hr, rfl⟩ | ⟨hnone, hmade⟩
  · rw [parentWorkflowID_onRow] at hp
    exact .inl (Db.mem_allChildrenOf.2 ⟨r, hr, hp⟩)
  · cases op with
    | insertWorkflowStatus caller i =>
      obtain ⟨-, rfl⟩ := hmade
      simp only [InsertWorkflowStatusInput.row, nullIfEmpty] at hp
      split_ifs at hp with hne
      cases hp
      have hkey : (i.row caller).workflowID = x := Table.key_of_find? hr'
      exact .inr ⟨caller, i, rfl, hnone, hkey, rfl, hne⟩
    | forkWorkflows caller i now =>
      obtain ⟨original, forkedID, rfl⟩ := hmade
      cases hp
    | _ => cases hmade

theorem child_insertWorkflowStatus {caller : String} {i : InsertWorkflowStatusInput}
    (hstep : Lifecycle.step t (.insertWorkflowStatus caller i) = some t')
    (hnew : t.find? i.workflowID = none) (hparent : i.parentWorkflowID ≠ "") :
    (∀ p, t.toDb.allChildrenOf p ⊆ t'.toDb.allChildrenOf p) ∧
      i.workflowID ∈ t'.toDb.allChildrenOf i.parentWorkflowID := by
  constructor
  · intro p x hx
    obtain ⟨r, hr, hp⟩ := Db.mem_allChildrenOf.1 hx
    refine Db.mem_allChildrenOf.2 ⟨_, Lifecycle.find?_step_of_find? hstep rfl hr, ?_⟩
    rwa [parentWorkflowID_onRow]
  · obtain ⟨-, rfl⟩ := Lifecycle.insertWorkflowStatus_cases hstep
    refine Db.mem_allChildrenOf.2 ⟨i.row caller, ?_, if_neg hparent⟩
    refine (Table.find?_upsert _ _ _ _ _).trans ((if_pos rfl).trans ?_)
    rw [hnew]
    rfl

/-- An operation leaves no workflow its own descendant exactly if it starts none below itself. -/
theorem acyclic_step_iff (hstep : Lifecycle.step t op = some t')
    (h : ∀ w, ¬ t.toDb.Descendant w w) : (∀ w, ¬ t'.toDb.Descendant w w) ↔ StartsBelow t op := by
  constructor
  · intro h'
    cases op with
    | insertWorkflowStatus caller i =>
      intro hnew hparent
      obtain ⟨hold, hchild⟩ := child_insertWorkflowStatus hstep hnew hparent
      refine ⟨fun heq => h' i.workflowID (.single (heq ▸ hchild)), fun hbelow => h' i.workflowID ?_⟩
      exact (Below.mono hold hbelow).tail hchild
    | _ => trivial
  · intro hop w hw
    by_cases hinsert : ∃ caller i, op = .insertWorkflowStatus caller i ∧ t.find? i.workflowID = none ∧
        i.parentWorkflowID ≠ ""
    · obtain ⟨caller, i, rfl, hnew, hparent⟩ := hinsert
      obtain ⟨hne, hbelow⟩ := hop hnew hparent
      have hadded : ∀ p x, x ∈ t'.toDb.allChildrenOf p →
          x ∈ t.toDb.allChildrenOf p ∨ p = i.parentWorkflowID ∧ x = i.workflowID := by
        intro p x hx
        refine (child_step hstep hx).imp_right ?_
        rintro ⟨caller', i', heq, -, rfl, rfl, -⟩
        cases heq
        exact ⟨rfl, rfl⟩
      -- the path from `w` to itself passes the new edge, so the parent is below the child
      rcases Below.of_added hadded hw with hold | ⟨hp, hx⟩
      · exact h w hold
      · rcases hp with rfl | hp <;> rcases hx with hx | hx
        · exact hne hx.symm
        · exact hbelow hx
        · exact hbelow (hx ▸ hp)
        · exact hbelow (Relation.TransGen.trans hx hp)
    · refine h w (Below.mono (fun p x hx => ?_) hw)
      refine (child_step hstep hx).resolve_right ?_
      rintro ⟨caller, i, rfl, hnew, rfl, rfl, hparent⟩
      exact hinsert ⟨caller, i, rfl, hnew, hparent⟩

end Step

/-! ### The walk -/

section Walk

variable {appName : String} {t : StatusTable}

theorem childrenOf_eq (h : AllOwned appName t) (p : String) :
    t.toDb.childrenOf appName p = t.toDb.allChildrenOf p := by
  unfold Db.childrenOf Db.allChildrenOf
  congr 1
  refine List.filter_congr fun r hr => ?_
  simp [(h r.workflowID r (Table.find?_of_mem hr)).ownedBy]

theorem reached_iff (h : AllOwned appName t) {w x : String} :
    t.toDb.Reached appName w x ↔ t.toDb.Descendant w x := by
  unfold Db.Reached Db.Descendant
  rw [funext (childrenOf_eq h)]

/-- The walk returns from every workflow exactly if none is its own descendant. -/
theorem walksOnce_iff (h : AllOwned appName t) :
    (∀ w, WalksOnce appName t w) ↔ ∀ w, ¬ t.toDb.Descendant w w := by
  constructor
  · intro hwalk w hw
    obtain ⟨fuel, children, hchildren, -⟩ := hwalk w
    rw [Db.getWorkflowChildren_eq_none ((reached_iff h).2 hw)] at hchildren
    cases hchildren
  · intro hacyclic w
    obtain ⟨children, hchildren, hnodup, hmem⟩ := Db.exists_getWorkflowChildren
      (fun hw => hacyclic w ((reached_iff h).1 hw)) (le_refl t.toDb.status.rows.length)
    refine ⟨_, children, hchildren, hnodup, fun x => (hmem x).trans (reached_iff h), fun hw => ?_⟩
    exact hacyclic w ((reached_iff h).1 ((hmem w).1 hw))

end Walk

/-- **When the descendant walk returns.** In a run of an application's operations `GetWorkflowChildren`
returns the descendants of every workflow exactly once, in every state, if and only if no operation
starts a workflow as a child of itself or of one of its own descendants. -/
theorem walks_return_iff (appName : String) {s t : StatusTable}
    {tr : List (Transition StatusTable Lifecycle.Operation)} (hs : (system appName).init s)
    (hrun : Run (system appName) s tr t) :
    (∀ x ∈ tr, ∀ w, WalksOnce appName x.post w) ↔ ∀ x ∈ tr, StartsBelow x.pre x.act := by
  have hstep : ∀ {s t : StatusTable} {op : Lifecycle.Operation}, (system appName).step s op = some t →
      ofApplication appName op = true ∧ Lifecycle.step s op = some t := by
    intro s t op h
    simp only [system] at h
    split_ifs at h with hop
    exact ⟨hop, h⟩
  refine Run.forall_post_iff (I := AllOwned appName) (P := fun t => ∀ w, WalksOnce appName t w)
    ?_ ?_ ?_ hs hrun
  · rintro s rfl
    have hempty : AllOwned appName .empty := by
      intro x r hr
      cases hr
    refine ⟨hempty, (walksOnce_iff hempty).2 (Db.not_descendant_self (fun _ => 0) ?_)⟩
    intro r hr
    cases hr
  · intro s op t hI h
    obtain ⟨hop, h⟩ := hstep h
    exact allOwned_step hop h hI
  · intro s op t hI hP h
    obtain ⟨hop, h⟩ := hstep h
    rw [walksOnce_iff (allOwned_step hop h hI)]
    exact acyclic_step_iff h ((walksOnce_iff hI).1 hP)

section Example

/-- `a` starts `b`, completes and is deleted; then `b` starts a child with the ID `a`. -/
def reusedID : List Lifecycle.Operation :=
  [.insertWorkflowStatus "app" { workflowID := "a", status := .pending, name := "f" },
    .insertWorkflowStatus "app"
      { workflowID := "b", status := .pending, name := "g", parentWorkflowID := "a" },
    .updateWorkflowOutcome "a" false none none 1,
    .deleteWorkflows ["a"],
    .insertWorkflowStatus "app"
      { workflowID := "a", status := .pending, name := "f", parentWorkflowID := "b" }]

/-- Then `GetWorkflowChildren` of `a` never returns. -/
theorem walk_never_returns :
    ∃ t, exec (system "app") .empty reusedID = some t ∧
      ∀ fuel, t.toDb.getWorkflowChildren "app" fuel "a" = none := by
  obtain ⟨t, ht, hchildren⟩ := (Option.any_eq_true _ _).1
    (show (exec (system "app") .empty reusedID).any (fun t =>
      decide ("b" ∈ t.toDb.childrenOf "app" "a") && decide ("a" ∈ t.toDb.childrenOf "app" "b")) = true by
      decide +kernel)
  rw [Bool.and_eq_true, decide_eq_true_eq, decide_eq_true_eq] at hchildren
  refine ⟨t, ht, Db.getWorkflowChildren_eq_none ?_⟩
  exact Relation.TransGen.tail (.single hchildren.1) hchildren.2

/-- `a` starts `b`, and the table is never without an `a` from then on. -/
def keptParent : List Lifecycle.Operation :=
  [.insertWorkflowStatus "app" { workflowID := "a", status := .pending, name := "f" },
    .insertWorkflowStatus "app"
      { workflowID := "b", status := .pending, name := "g", parentWorkflowID := "a" },
    .updateWorkflowOutcome "a" false none none 1]

theorem walks_return_keptParent :
    ∃ t, Run (system "app") .empty (trace (system "app") .empty keptParent) t ∧
      ∀ x ∈ trace (system "app") .empty keptParent, ∀ w, WalksOnce "app" x.post w := by
  obtain ⟨t, ht, -⟩ := (Option.any_eq_true _ _).1
    (show (exec (system "app") .empty keptParent).any (fun _ => true) = true by decide +kernel)
  refine ⟨t, run_exec ht, (walks_return_iff "app" rfl (run_exec ht)).2 ?_⟩
  have hunnamed : ∀ x ∈ trace (system "app") .empty keptParent, unnamed x.pre x.act = true := by
    decide +kernel
  exact fun x hx => startsBelow_of_unnamed (hunnamed x hx)

end Example

end Dbos.Family
