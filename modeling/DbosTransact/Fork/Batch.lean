import DbosTransact.Fork.Copy

/-!
# Batches of forks

An entry adds copies of the rows of its original, which no fork of the batch is, so it adds the same before
and after the others, and the order of the entries is lost in what the batch leaves.
-/

namespace Dbos.Fork

open Relational

structure ForkDb.Fresh (d : ForkDb) (w : String) : Prop where
  status : ∀ r ∈ d.status.rows, r.workflowID ≠ w
  operations : ∀ o ∈ d.operations.rows, o.workflowID ≠ w
  events : ∀ v ∈ d.events.rows, v.workflowID ≠ w
  eventsHistory : ∀ h ∈ d.eventsHistory.rows, h.workflowID ≠ w
  streams : ∀ r ∈ d.streams.rows, r.workflowID ≠ w
  readAudience : ∀ r ∈ d.readAudience.rows, r.workflowID ≠ w

def ForkInput.only (i : ForkInput) (e : ForkEntry) : ForkInput := { i with entries := [e] }

namespace ForkDb

def forkEach (d : ForkDb) (appName : String) (i : ForkInput) (now : Int) : List ForkEntry → Option ForkDb
  | [] => some d
  | e :: es => (d.forkWorkflows appName (i.only e) now).bind fun d => d.forkEach appName i now es

structure SameRows (d d' : ForkDb) : Prop where
  status : d.status.rows.Perm d'.status.rows
  operations : d.operations.rows.Perm d'.operations.rows
  events : d.events.rows.Perm d'.events.rows
  eventsHistory : d.eventsHistory.rows.Perm d'.eventsHistory.rows
  streams : d.streams.rows.Perm d'.streams.rows
  readAudience : d.readAudience.rows.Perm d'.readAudience.rows

variable {d d' D D' : ForkDb} {appName : String} {i : ForkInput} {now : Int} {e : ForkEntry} {es : List ForkEntry}

/-! ### One fork succeeds -/

theorem copied_originalID {w : String} {f : Int} (h : copied e w f = true) : w = e.originalID :=
  (copied_iff.1 h).1

theorem nodup_latest {rows : List EventHistoryRow}
    (h : (rows.map fun h => (h.workflowID, h.functionID, h.key)).Nodup) :
    (((latest rows).map currentEvent).map fun v => (v.workflowID, v.key)).Nodup := by
  rw [List.map_map]
  refine List.Nodup.map_on (fun x hx y hy heq => ?_) ((List.Nodup.of_map _ h).filter _)
  obtain ⟨hx, hlatestx⟩ := mem_latest.1 hx
  obtain ⟨hy, hlatesty⟩ := mem_latest.1 hy
  simp only [Function.comp_apply, currentEvent, Prod.mk.injEq] at heq
  refine List.inj_on_of_nodup_map h hx hy ?_
  have hstep : x.functionID = y.functionID :=
    le_antisymm (hlatesty x hx heq.1 heq.2) (hlatestx y hy heq.1.symm heq.2.symm)
  rw [heq.1, heq.2, hstep]

theorem exists_forkWorkflows (hstep : 0 ≤ e.startStep) {r : StatusRow} (hfork : d.IsFork appName i now e r)
    (hfresh : d.Fresh e.forkedID) : ∃ d', d.forkWorkflows appName (i.only e) now = some d' := by
  have hentries : (i.only e).entries = [e] := rfl
  have hmem : ∀ e' ∈ (i.only e).mapping, e' = e := by
    intro e' he'
    simpa [hentries] using (mem_mapping.1 he').1
  have hmapping : ((i.only e).mapping.map (·.forkedID)).Nodup :=
    (List.nodup_singleton e.forkedID).sublist (List.Sublist.map ForkEntry.forkedID List.filter_sublist)
  obtain ⟨status, hstatus⟩ : ∃ status, d.status.insertAll [r] = some status := by
    refine Table.exists_insertAll (fun x hx => ?_) (List.nodup_singleton _)
    rw [List.mem_singleton.1 hx, Table.find?_eq_none, workflowID_of_isFork hfork]
    exact hfresh.status
  obtain ⟨operations, hoperations⟩ : ∃ t, d.operations.insertAll (d.copiedOperations appName (i.only e)) = some t :=
    exists_copies (fun _ _ => ⟨rfl, rfl⟩) (fun _ _ => copied_originalID) hmapping
      fun e' he' => hmem e' he' ▸ hfresh.operations
  obtain ⟨history, hhistory⟩ : ∃ t, d.eventsHistory.insertAll (d.copiedHistory (i.only e)) = some t :=
    exists_copies (fun _ _ => ⟨rfl, rfl⟩) (fun _ _ => copied_originalID) hmapping
      fun e' he' => hmem e' he' ▸ hfresh.eventsHistory
  obtain ⟨streams, hstreams⟩ : ∃ t, d.streams.insertAll (d.copiedStreams (i.only e)) = some t :=
    exists_copies (fun _ _ => ⟨rfl, rfl⟩) (fun _ _ => copied_originalID) hmapping
      fun e' he' => hmem e' he' ▸ hfresh.streams
  obtain ⟨audience, haudience⟩ : ∃ t, d.readAudience.insertAll (d.copiedAudience (i.only e)) = some t := by
    refine exists_copies (fun _ _ => ⟨rfl, rfl⟩) (fun _ _ h => of_decide_eq_true h) (List.nodup_singleton _)
      fun e' he' => ?_
    rw [List.mem_singleton.1 he']
    exact hfresh.readAudience
  obtain ⟨events, hevents⟩ : ∃ t, d.events.insertAll
      ((latest ({ d with eventsHistory := history }.copiedHistory (i.only e))).map currentEvent) = some t := by
    refine Table.exists_insertAll (fun v hv => ?_)
      (nodup_latest (nodup_copies (fun _ _ => ⟨rfl, rfl⟩) (fun _ _ => copied_originalID) hmapping))
    obtain ⟨h, hh, rfl⟩ := List.mem_map.1 hv
    obtain ⟨e', he', hcopy⟩ := mem_copiedHistory.1 (mem_latest.1 hh).1
    refine Table.find?_eq_none.2 fun v hv heq => hfresh.events v hv ?_
    rw [(Prod.mk.inj heq).1, ← List.mem_singleton.1 he']
    exact workflowID_of_copiesHistory hcopy
  have hrows : (i.only e).entries.mapM (d.forkRow appName (i.only e) now) = some [r] :=
    mapM_eq_some.2 (congrArg (fun x => [x]) hfork)
  unfold forkWorkflows
  rw [if_neg (by simpa [hentries] using hstep)]
  simp only [Option.bind_eq_bind, hrows, hstatus, hoperations, hhistory, hevents, hstreams, haudience,
    Option.bind_some]
  exact ⟨_, rfl⟩

/-! ### Forks one by one -/

theorem workflowID_markOriginal (es : List ForkEntry) (r : StatusRow) :
    (markOriginal es r).workflowID = r.workflowID :=
  congrArg WorkflowRow.workflowID (toWorkflowRow_markOriginal es r)

theorem markOriginal_markOriginal (es es' : List ForkEntry) (r : StatusRow) :
    markOriginal es' (markOriginal es r) = markOriginal (es ++ es') r := by
  by_cases h : r.workflowID ∈ es.map (·.originalID) <;> by_cases h' : r.workflowID ∈ es'.map (·.originalID) <;>
    simp only [markOriginal, h, h', List.map_append, List.mem_append, if_true, if_false, or_self, or_true, or_false]

section Forked

variable (hD : d.Forked appName i now es D)
include hD

theorem Forked.find?_status {w : String} (hw : ∀ e ∈ es, e.forkedID ≠ w) :
    D.status.find? w = (d.status.find? w).map (markOriginal es) := by
  cases hfind : d.status.find? w with
  | none =>
    rw [Option.map_none, Table.find?_eq_none]
    intro r hr hkey
    rcases (hD.status r).1 hr with ⟨r₀, hr₀, rfl⟩ | ⟨e, he, hfork⟩
    · rw [workflowID_markOriginal] at hkey
      exact Table.find?_eq_none.1 hfind r₀ hr₀ hkey
    · exact hw e he ((workflowID_of_isFork hfork).symm.trans hkey)
  | some r₀ =>
    have hmem := (hD.status (markOriginal es r₀)).2 (.inl ⟨r₀, Table.mem_of_find? hfind, rfl⟩)
    have hfound := Table.find?_of_mem hmem
    rwa [workflowID_markOriginal, Table.key_of_find? hfind] at hfound

theorem Forked.mem_operations {o : CheckpointRow} (hw : ∀ e ∈ es, e.forkedID ≠ o.workflowID) :
    o ∈ D.operations.rows ↔ o ∈ d.operations.rows := by
  refine (hD.operations o).trans (or_iff_left ?_)
  rintro ⟨e, he, -, o₀, -, -, rfl⟩
  exact hw e he rfl

theorem Forked.mem_eventsHistory {h : EventHistoryRow} (hw : ∀ e ∈ es, e.forkedID ≠ h.workflowID) :
    h ∈ D.eventsHistory.rows ↔ h ∈ d.eventsHistory.rows := by
  refine (hD.eventsHistory h).trans (or_iff_left ?_)
  rintro ⟨e, he, hcopy⟩
  exact hw e he (workflowID_of_copiesHistory hcopy).symm

theorem Forked.mem_events {v : EventRow} (hw : ∀ e ∈ es, e.forkedID ≠ v.workflowID) :
    v ∈ D.events.rows ↔ v ∈ d.events.rows := by
  refine (hD.events v).trans (or_iff_left ?_)
  rintro ⟨e, he, h, hcopy, rfl, -⟩
  exact hw e he (workflowID_of_copiesHistory hcopy).symm

theorem Forked.mem_streams {r : EntryRow} (hw : ∀ e ∈ es, e.forkedID ≠ r.workflowID) :
    r ∈ D.streams.rows ↔ r ∈ d.streams.rows := by
  refine (hD.streams r).trans (or_iff_left ?_)
  rintro ⟨e, he, -, r₀, -, -, rfl⟩
  exact hw e he rfl

theorem Forked.mem_readAudience {r : ReadAudienceRow} (hw : ∀ e ∈ es, e.forkedID ≠ r.workflowID) :
    r ∈ D.readAudience.rows ↔ r ∈ d.readAudience.rows := by
  refine (hD.readAudience r).trans (or_iff_left ?_)
  rintro ⟨e, he, r₀, -, -, rfl⟩
  exact hw e he rfl

theorem Forked.fresh {w : String} (hfresh : d.Fresh w) (hw : ∀ e ∈ es, e.forkedID ≠ w) : D.Fresh w where
  status r hr hkey := by
    rw [← hkey] at hfresh hw
    have hfind := hD.find?_status hw
    rw [Table.find?_of_mem hr, Table.find?_eq_none.2 hfresh.status] at hfind
    cases hfind
  operations o ho hkey := hfresh.operations o ((hD.mem_operations (hkey ▸ hw)).1 ho) hkey
  events v hv hkey := hfresh.events v ((hD.mem_events (hkey ▸ hw)).1 hv) hkey
  eventsHistory h hh hkey := hfresh.eventsHistory h ((hD.mem_eventsHistory (hkey ▸ hw)).1 hh) hkey
  streams r hr hkey := hfresh.streams r ((hD.mem_streams (hkey ▸ hw)).1 hr) hkey
  readAudience r hr hkey := hfresh.readAudience r ((hD.mem_readAudience (hkey ▸ hw)).1 hr) hkey

/-! What an entry adds is the same before and after other forks: its original is none of them. -/

variable (he : ∀ e' ∈ es, e'.forkedID ≠ e.originalID)
include he

theorem Forked.forkOwner : D.forkOwner appName e = d.forkOwner appName e := by
  unfold ForkDb.forkOwner
  rw [hD.find?_status he]
  cases d.status.find? e.originalID with
  | none => rfl
  | some r =>
    simp only [Option.map_some, Option.bind_some]
    rw [toWorkflowRow_markOriginal]

theorem Forked.isFork {r : StatusRow} : D.IsFork appName i now e r ↔ d.IsFork appName i now e r := by
  unfold IsFork forkRow
  rw [hD.find?_status he]
  cases d.status.find? e.originalID with
  | none => rfl
  | some r₀ =>
    simp only [Option.map_some, Option.bind_some]
    unfold markOriginal
    split_ifs <;> rfl

theorem Forked.copiesOperation {o : CheckpointRow} :
    D.CopiesOperation appName i e o ↔ d.CopiesOperation appName i e o := by
  unfold CopiesOperation
  rw [hD.forkOwner he]
  refine and_congr_right fun _ => exists_congr fun o₀ => and_congr_left fun ⟨hcopied, _⟩ => ?_
  exact hD.mem_operations (copied_originalID hcopied ▸ he)

theorem Forked.copiesHistory {h : EventHistoryRow} : D.CopiesHistory e h ↔ d.CopiesHistory e h := by
  refine and_congr_right fun _ => exists_congr fun h₀ => and_congr_left fun ⟨hcopied, _⟩ => ?_
  exact hD.mem_eventsHistory (copied_originalID hcopied ▸ he)

theorem Forked.copiesEvent {v : EventRow} : D.CopiesEvent e v ↔ d.CopiesEvent e v := by
  unfold CopiesEvent
  simp only [hD.copiesHistory he]

theorem Forked.copiesStream {r : EntryRow} : D.CopiesStream e r ↔ d.CopiesStream e r := by
  refine and_congr_right fun _ => exists_congr fun r₀ => and_congr_left fun ⟨hcopied, _⟩ => ?_
  exact hD.mem_streams (copied_originalID hcopied ▸ he)

theorem Forked.copiesAudience {r : ReadAudienceRow} : D.CopiesAudience e r ↔ d.CopiesAudience e r := by
  refine exists_congr fun r₀ => and_congr_left fun ⟨horiginal, _⟩ => ?_
  exact hD.mem_readAudience (horiginal ▸ he)

theorem Forked.snoc (hD' : D.Forked appName i now [e] D') : d.Forked appName i now (es ++ [e]) D' := by
  constructor
  · intro r
    have hfork : ∀ {e' r₁}, e' ∈ es → d.IsFork appName i now e' r₁ → markOriginal [e] r₁ = r₁ := by
      intro e' r₁ he' hfork
      refine if_neg fun hmem => ?_
      rw [workflowID_of_isFork hfork] at hmem
      exact he e' he' (List.mem_singleton.1 hmem)
    rw [hD'.status r]
    simp only [List.mem_singleton, exists_eq_left, hD.isFork he, List.mem_append, or_and_right, exists_or, ← or_assoc]
    refine or_congr_left ⟨?_, ?_⟩
    · rintro ⟨r₁, hr₁, rfl⟩
      rcases (hD.status r₁).1 hr₁ with ⟨r₀, hr₀, rfl⟩ | ⟨e', he', hfork'⟩
      · exact .inl ⟨r₀, hr₀, markOriginal_markOriginal es [e] r₀⟩
      · rw [hfork he' hfork']
        exact .inr ⟨e', he', hfork'⟩
    · rintro (⟨r₀, hr₀, rfl⟩ | ⟨e', he', hfork'⟩)
      · exact ⟨_, (hD.status _).2 (.inl ⟨r₀, hr₀, rfl⟩), (markOriginal_markOriginal es [e] r₀).symm⟩
      · exact ⟨r, (hD.status r).2 (.inr ⟨e', he', hfork'⟩), (hfork he' hfork').symm⟩
  · intro o
    rw [hD'.operations o, hD.operations o]
    simp only [List.mem_singleton, exists_eq_left, hD.copiesOperation he, List.mem_append, or_and_right, exists_or,
      or_assoc]
  · intro v
    rw [hD'.events v, hD.events v]
    simp only [List.mem_singleton, exists_eq_left, hD.copiesEvent he, List.mem_append, or_and_right, exists_or,
      or_assoc]
  · intro h
    rw [hD'.eventsHistory h, hD.eventsHistory h]
    simp only [List.mem_singleton, exists_eq_left, hD.copiesHistory he, List.mem_append, or_and_right, exists_or,
      or_assoc]
  · intro r
    rw [hD'.streams r, hD.streams r]
    simp only [List.mem_singleton, exists_eq_left, hD.copiesStream he, List.mem_append, or_and_right, exists_or,
      or_assoc]
  · intro r
    rw [hD'.readAudience r, hD.readAudience r]
    simp only [List.mem_singleton, exists_eq_left, hD.copiesAudience he, List.mem_append, or_and_right, exists_or,
      or_assoc]

end Forked

theorem Forked.of_only (h : d.Forked appName (i.only e) now [e] D) : d.Forked appName i now [e] D :=
  ⟨h.status, h.operations, h.events, h.eventsHistory, h.streams, h.readAudience⟩

/-- The entries one by one, after others: they all succeed, and add what they add to the first state. -/
theorem exists_forkEach (hD : d.Forked appName i now es D) (rest : List ForkEntry)
    (hnodup : ((es ++ rest).map (·.forkedID)).Nodup) (hstep : ∀ e ∈ rest, 0 ≤ e.startStep)
    (hfork : ∀ e ∈ rest, ∃ r, d.IsFork appName i now e r) (hfresh : ∀ e ∈ rest, d.Fresh e.forkedID)
    (hne : ∀ e ∈ rest, ∀ e' ∈ es ++ rest, e'.forkedID ≠ e.originalID) :
    ∃ D', D.forkEach appName i now rest = some D' ∧ d.Forked appName i now (es ++ rest) D' := by
  induction rest generalizing es D with
  | nil => exact ⟨D, rfl, by rwa [List.append_nil]⟩
  | cons e rest ih =>
    rw [List.forall_mem_cons] at hstep hfork hfresh hne
    have hbefore : ∀ e' ∈ es, e'.forkedID ≠ e.forkedID := by
      intro e' he' heq
      rw [List.map_append, List.nodup_append] at hnodup
      exact hnodup.2.2 _ (List.mem_map_of_mem he') _ (List.mem_map_of_mem List.mem_cons_self) heq
    have hother : ∀ e' ∈ es, e'.forkedID ≠ e.originalID := fun e' he' => hne.1 e' (List.mem_append_left _ he')
    obtain ⟨r, hr⟩ := hfork.1
    obtain ⟨D₁, hD₁⟩ := exists_forkWorkflows hstep.1 ((hD.isFork hother).2 hr) (hD.fresh hfresh.1 hbefore)
    have hsnoc : d.Forked appName i now (es ++ [e]) D₁ := hD.snoc hother (forked_of_forkWorkflows hD₁).of_only
    obtain ⟨D', hD', hforked⟩ := ih hsnoc (by rwa [List.append_assoc]) hstep.2 hfork.2 hfresh.2 (by
      rw [List.append_assoc]
      exact hne.2)
    refine ⟨D', ?_, by rwa [List.append_assoc] at hforked⟩
    rw [forkEach, hD₁]
    exact hD'

theorem forked_nil : d.Forked appName i now [] d := by
  constructor <;> intro x <;> simp [markOriginal]

theorem Forked.sameRows {es' : List ForkEntry} (hperm : es'.Perm es) (hD : d.Forked appName i now es D)
    (hD' : d.Forked appName i now es' D') : SameRows D D' := by
  have hmem : ∀ {P : ForkEntry → Prop}, (∃ e ∈ es, P e) ↔ ∃ e ∈ es', P e :=
    fun {P} => exists_congr fun e => and_congr_left fun _ => hperm.mem_iff.symm
  have hrows : ∀ {ρ κ : Type} {key : ρ → κ} {t t' : Table key}, (∀ r, r ∈ t.rows ↔ r ∈ t'.rows) →
      t.rows.Perm t'.rows :=
    fun {_ _ _ t t'} h => (List.perm_ext_iff_of_nodup (.of_map _ t.nodup) (.of_map _ t'.nodup)).2 h
  have hmark : markOriginal es = markOriginal es' := by
    funext r
    exact if_congr (hperm.map (·.originalID)).mem_iff.symm rfl rfl
  constructor <;> refine hrows fun r => ?_
  · rw [hD.status, hD'.status, hmem, hmark]
  · rw [hD.operations, hD'.operations, hmem]
  · rw [hD.events, hD'.events, hmem]
  · rw [hD.eventsHistory, hD'.eventsHistory, hmem]
  · rw [hD.streams, hD'.streams, hmem]
  · rw [hD.readAudience, hD'.readAudience, hmem]

/-- A batch leaves the rows that its entries leave one by one, in any order. -/
theorem sameRows_forkEach (h : d.forkWorkflows appName i now = some d')
    (hfresh : ∀ e ∈ i.entries, d.Fresh e.forkedID) (hperm : es.Perm i.entries) :
    ∃ D, d.forkEach appName i now es = some D ∧ SameRows d' D := by
  obtain ⟨hnodup, -, hfork⟩ := forkedIDs h
  obtain ⟨hstep, -⟩ := forkWorkflows_eq_some h
  have hmem : ∀ {e}, e ∈ es → e ∈ i.entries := fun he => hperm.mem_iff.1 he
  obtain ⟨D, hD, hforked⟩ := exists_forkEach (forked_nil (i := i)) es ((hperm.map _).nodup_iff.2 hnodup)
    (fun e he => hstep e (hmem he)) (fun e he => hfork e (hmem he)) (fun e he => hfresh e (hmem he))
    fun e he e' he' => (originalID_ne_forkedID h (hmem he) (hmem he')).symm
  exact ⟨D, hD, (forked_of_forkWorkflows h).sameRows hperm hforked⟩

end ForkDb

end Dbos.Fork
