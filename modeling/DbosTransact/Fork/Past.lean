import DbosTransact.Fork.Batch

/-!
# The past of a fork

What a fork starts with, compared with what its original had before the start step. The events of a
workflow are given by its calls of `SetEvent`, in their order.
-/

namespace Dbos.Fork

open Relational

/-! ### The events of an original -/

def setEvents (log : List SetEventInput) : Db :=
  log.foldl (fun db s => Write.apply (.upsertEventHistory s.history) (Write.apply (.upsertEvent s.event) db))
    (StatusTable.toDb .empty)

def before (k : Int) (log : List SetEventInput) : List SetEventInput := log.takeWhile fun s => (s.stepID : Int) < k

/-- The events of the workflow were set by these calls, at increasing step IDs. -/
structure SetsEvents (d : ForkDb) (w : String) (log : List SetEventInput) : Prop where
  own : ∀ s ∈ log, s.workflowID = w
  increasing : log.Pairwise fun s s' => s.stepID ≤ s'.stepID
  events : ∀ key, d.events.find? (w, key) = (setEvents log).events.find? (w, key)
  eventsHistory : ∀ f key, d.eventsHistory.find? (w, f, key) = (setEvents log).eventsHistory.find? (w, f, key)

theorem setEvents_append (log : List SetEventInput) (s : SetEventInput) :
    setEvents (log ++ [s]) =
      Write.apply (.upsertEventHistory s.history) (Write.apply (.upsertEvent s.event) (setEvents log)) := by
  simp only [setEvents, List.foldl_append, List.foldl_cons, List.foldl_nil]

theorem find?_setEvents (log : List SetEventInput) (w key : String) :
    (setEvents log).events.find? (w, key) =
      (log.reverse.find? fun s => s.workflowID = w ∧ s.key = key).map (·.event) := by
  induction log using List.reverseRecOn with
  | nil => rfl
  | append_singleton log s ih =>
    rw [setEvents_append, List.reverse_append, List.reverse_singleton, List.singleton_append, List.find?_cons]
    refine (Table.find?_upsert_of_eq _ (fun x hx => ?_) _).trans ?_
    · simp only [SetEventInput.event, Prod.mk.injEq] at hx ⊢
      cases x
      simp_all
    · by_cases hs : s.workflowID = w ∧ s.key = key
      · simp [hs, SetEventInput.event]
      · simp only [hs, decide_false, SetEventInput.event, Prod.mk.injEq, if_false]
        exact ih

theorem find?_setEvents_history (log : List SetEventInput) (w : String) (f : Nat) (key : String) :
    (setEvents log).eventsHistory.find? (w, f, key) =
      (log.reverse.find? fun s => s.workflowID = w ∧ s.stepID = f ∧ s.key = key).map (·.history) := by
  induction log using List.reverseRecOn with
  | nil => rfl
  | append_singleton log s ih =>
    rw [setEvents_append, List.reverse_append, List.reverse_singleton, List.singleton_append, List.find?_cons]
    refine (Table.find?_upsert_of_eq _ (fun x hx => ?_) _).trans ?_
    · simp only [SetEventInput.history, Prod.mk.injEq] at hx ⊢
      cases x
      simp_all
    · by_cases hs : s.workflowID = w ∧ s.stepID = f ∧ s.key = key
      · simp [hs, SetEventInput.history]
      · simp only [hs, decide_false, SetEventInput.history, Prod.mk.injEq, if_false]
        exact ih

theorem before_eq_filter {log : List SetEventInput} (h : log.Pairwise fun s s' => s.stepID ≤ s'.stepID) (k : Int) :
    before k log = log.filter fun s => (s.stepID : Int) < k := by
  induction log with
  | nil => rfl
  | cons s log ih =>
    rw [List.pairwise_cons] at h
    by_cases hs : (s.stepID : Int) < k
    · rw [before, List.takeWhile_cons_of_pos (by simpa using hs), List.filter_cons_of_pos (by simpa using hs)]
      exact congrArg _ (ih h.2)
    · rw [before, List.takeWhile_cons_of_neg (by simpa using hs), List.filter_cons_of_neg (by simpa using hs)]
      refine (List.filter_eq_nil_iff.2 fun s' hs' => ?_).symm
      have := h.1 s' hs'
      simp only [decide_eq_true_eq]
      omega

section Events

variable {d : ForkDb} {e : ForkEntry} {log : List SetEventInput} (hlog : SetsEvents d e.originalID log)
include hlog

theorem SetsEvents.exists_set {h : EventHistoryRow} (hmem : h ∈ d.eventsHistory.rows)
    (hid : h.workflowID = e.originalID) : ∃ s ∈ log, s.stepID = h.functionID ∧ s.key = h.key := by
  have hfind := hlog.eventsHistory h.functionID h.key
  rw [find?_setEvents_history, ← hid, Table.find?_of_mem hmem] at hfind
  obtain ⟨s, hs, -⟩ := Option.map_eq_some_iff.1 hfind.symm
  have hfound := List.find?_some hs
  rw [decide_eq_true_eq] at hfound
  exact ⟨s, List.mem_reverse.1 (List.mem_of_find?_eq_some hs), hfound.2⟩

/-- The last call for a key before a step is the latest entry of the history below it. -/
theorem SetsEvents.last_set {k : Int} {key : String} {s : SetEventInput}
    (hs : ((before k log).reverse.find? fun s => s.workflowID = e.originalID ∧ s.key = key) = some s) :
    s.history ∈ d.eventsHistory.rows ∧ s.workflowID = e.originalID ∧ s.key = key ∧ (s.stepID : Int) < k ∧
      ∀ s' ∈ log, s'.key = key → (s'.stepID : Int) < k → s'.stepID ≤ s.stepID := by
  rw [before_eq_filter hlog.increasing, ← List.filter_reverse, List.find?_filter,
    List.find?_eq_some_iff_append] at hs
  obtain ⟨hp, later, earlier, hsplit, hlater⟩ := hs
  simp only [decide_eq_true_eq, Bool.not_eq_true', decide_eq_false_iff_not, not_and] at hp hlater
  obtain ⟨hstep, hid, hkey⟩ := hp
  have hown : ∀ s' ∈ log.reverse, s'.workflowID = e.originalID :=
    fun s' hs' => hlog.own s' (List.mem_reverse.1 hs')
  have hlast : ∀ s' ∈ later, s'.key = key → ¬ (s'.stepID : Int) < k := by
    intro s' hs' hkey' hlt
    exact hlater s' hs' hlt (hown s' (hsplit ▸ List.mem_append_left _ hs')) hkey'
  refine ⟨?_, hid, hkey, hstep, fun s' hs' hkey' hlt => ?_⟩
  · have hfound : (log.reverse.find? fun s' =>
        s'.workflowID = e.originalID ∧ s'.stepID = s.stepID ∧ s'.key = key) = some s := by
      rw [List.find?_eq_some_iff_append]
      refine ⟨by simp [hid, hkey], later, earlier, hsplit, fun s' hs' => ?_⟩
      simp only [Bool.not_eq_true', decide_eq_false_iff_not]
      rintro ⟨-, hstep', hkey'⟩
      exact hlast s' hs' hkey' (hstep' ▸ hstep)
    have hfind := hlog.eventsHistory s.stepID key
    rw [find?_setEvents_history, hfound] at hfind
    exact Table.mem_of_find? hfind
  · have hmem := List.mem_reverse.2 hs'
    rw [hsplit, List.mem_append, List.mem_cons] at hmem
    rcases hmem with hmem | rfl | hmem
    · exact absurd hlt (hlast s' hmem hkey')
    · exact le_refl _
    · have hdecreasing := List.pairwise_reverse.2 hlog.increasing
      rw [hsplit, List.pairwise_append, List.pairwise_cons] at hdecreasing
      exact hdecreasing.2.1.1 s' hmem

/-- The event that is copied is the one that the calls before the start step leave. -/
theorem SetsEvents.copiesEvent_iff {v : EventRow} :
    d.CopiesEvent e v ↔ ∃ v₀, (setEvents (before e.startStep log)).events.find? (e.originalID, v.key) = some v₀ ∧
      v = { v₀ with workflowID := e.forkedID } := by
  have hcopies : ∀ {h}, d.CopiesHistory e h → ∃ s ∈ log, s.stepID = h.functionID ∧ s.key = h.key ∧
      (s.stepID : Int) < e.startStep := by
    rintro h ⟨-, h₀, hmem, hcopied, rfl⟩
    obtain ⟨hid, hlt⟩ := copied_iff.1 hcopied
    obtain ⟨s, hs, hstep, hkey⟩ := hlog.exists_set hmem hid
    exact ⟨s, hs, hstep, hkey, hstep ▸ hlt⟩
  have hlastCopy : ∀ {s key}, ((before e.startStep log).reverse.find? fun s =>
      s.workflowID = e.originalID ∧ s.key = key) = some s →
      d.CopiesHistory e { s.history with workflowID := e.forkedID } := by
    intro s key hs
    obtain ⟨hmem, hid, -, hlt, -⟩ := hlog.last_set hs
    exact ⟨by omega, s.history, hmem, copied_iff.2 ⟨hid, hlt⟩, rfl⟩
  rw [find?_setEvents]
  constructor
  · rintro ⟨h, hcopy, rfl, hlatest⟩
    obtain ⟨s₀, hs₀, hstep₀, hkey₀, hlt₀⟩ := hcopies hcopy
    cases hs : (before e.startStep log).reverse.find? fun s =>
        s.workflowID = e.originalID ∧ s.key = (currentEvent h).key with
    | none =>
      have hbefore : s₀ ∈ before e.startStep log := by
        rw [before_eq_filter hlog.increasing]
        exact List.mem_filter.2 ⟨hs₀, by simpa using hlt₀⟩
      have hnot := List.find?_eq_none.1 hs s₀ (List.mem_reverse.2 hbefore)
      exact absurd (decide_eq_true ⟨hlog.own s₀ hs₀, hkey₀⟩) hnot
    | some s =>
      obtain ⟨hmem, hid, hkey, hlt, hlast⟩ := hlog.last_set hs
      -- the entry and the last call are both the latest, so they are the same
      have hle := hlatest _ (hlastCopy hs) hkey
      have hge := hlast s₀ hs₀ hkey₀ hlt₀
      obtain ⟨-, h₀, hmem₀, hcopied, rfl⟩ := hcopy
      have heq : h₀ = s.history := by
        refine Table.eq_of_key_eq (t := d.eventsHistory) hmem hmem₀ ?_
        have hstep : h₀.functionID = s.stepID := le_antisymm (hstep₀ ▸ hge) hle
        rw [(copied_iff.1 hcopied).1, hstep]
        exact congrArg₂ Prod.mk hid.symm (congrArg _ hkey.symm)
      rw [heq]
      exact ⟨s.event, rfl, rfl⟩
  · rintro ⟨v₀, hv₀, hv⟩
    obtain ⟨s, hs, rfl⟩ := Option.map_eq_some_iff.1 hv₀
    obtain ⟨-, -, hkey, -, hlast⟩ := hlog.last_set hs
    refine ⟨_, hlastCopy hs, hv, fun h' hcopy hkey' => ?_⟩
    obtain ⟨s', hs', hstep', hkey'', hlt'⟩ := hcopies hcopy
    exact hstep' ▸ hlast s' hs' (hkey''.trans (hkey'.trans hkey)) hlt'

end Events

/-! ### What a fork has of its original -/

/-- The initial values of a fork, with NULL and the empty string taken as one. -/
structure StartsAs (original fork : StatusRow) : Prop where
  status : fork.status = .enqueued
  inputs : fork.inputs = original.inputs
  name : fork.name = original.name
  className : fork.className.getD "" = original.className.getD ""
  configName : fork.configName = original.configName
  serialization : fork.serialization.getD "" = original.serialization.getD ""
  forkedFrom : fork.forkedFrom = some original.workflowID

/-- The fork of an entry has the past of its original, whose events were set by `log`. -/
structure Reproduces (d d' : ForkDb) (appName : String) (i : ForkInput) (log : List SetEventInput) (e : ForkEntry) :
    Prop where
  checkpoints : ∀ o, o ∈ d'.operations.rows ∧ o.workflowID = e.forkedID ↔
    ∃ o₀ ∈ d.operations.rows, o₀.workflowID = e.originalID ∧ o₀.functionID < e.startStep ∧
      o = i.copyOperation (d.forkOwner appName e) e.forkedID o₀
  history : ∀ h, h ∈ d'.eventsHistory.rows ∧ h.workflowID = e.forkedID ↔
    ∃ h₀ ∈ d.eventsHistory.rows, h₀.workflowID = e.originalID ∧ (h₀.functionID : Int) < e.startStep ∧
      h = { h₀ with workflowID := e.forkedID }
  streams : ∀ r, r ∈ d'.streams.rows ∧ r.workflowID = e.forkedID ↔
    ∃ r₀ ∈ d.streams.rows, r₀.workflowID = e.originalID ∧ r₀.functionID < e.startStep ∧
      r = { r₀ with workflowID := e.forkedID }
  events : ∀ key, d'.events.find? (e.forkedID, key) =
    ((setEvents (before e.startStep log)).events.find? (e.originalID, key)).map
      fun v => { v with workflowID := e.forkedID }
  absent : ∀ key, (∀ s ∈ log, s.key = key → e.startStep ≤ s.stepID) → d'.events.find? (e.forkedID, key) = none
  status : ∃ original fork, d.status.find? e.originalID = some original ∧ d'.status.find? e.forkedID = some fork ∧
    StartsAs original fork
  readAudience : ∀ r, r ∈ d'.readAudience.rows ∧ r.workflowID = e.forkedID ↔
    ∃ r₀ ∈ d.readAudience.rows, r₀.workflowID = e.originalID ∧ r = { r₀ with workflowID := e.forkedID }

def SameAttributes (d d' : ForkDb) (e : ForkEntry) : Prop :=
  (d'.status.find? e.forkedID).map (·.attributes) = (d.status.find? e.originalID).map (·.attributes)

/-- The attributes of the original come back from a map as they were. -/
def AttributesSurvive (d : ForkDb) (e : ForkEntry) : Prop :=
  ∀ original, d.status.find? e.originalID = some original →
    Json.roundTripMap original.attributes = some original.attributes

/-- Of the workflows that are not forks of the batch, the originals are marked and nothing else
changes. -/
structure KeepsOthers (d d' : ForkDb) (es : List ForkEntry) : Prop where
  status : ∀ w, (∀ e ∈ es, e.forkedID ≠ w) → d'.status.find? w = (d.status.find? w).map (markOriginal es)
  operations : ∀ o, (∀ e ∈ es, e.forkedID ≠ o.workflowID) → (o ∈ d'.operations.rows ↔ o ∈ d.operations.rows)
  events : ∀ v, (∀ e ∈ es, e.forkedID ≠ v.workflowID) → (v ∈ d'.events.rows ↔ v ∈ d.events.rows)
  eventsHistory : ∀ h, (∀ e ∈ es, e.forkedID ≠ h.workflowID) →
    (h ∈ d'.eventsHistory.rows ↔ h ∈ d.eventsHistory.rows)
  streams : ∀ r, (∀ e ∈ es, e.forkedID ≠ r.workflowID) → (r ∈ d'.streams.rows ↔ r ∈ d.streams.rows)
  readAudience : ∀ r, (∀ e ∈ es, e.forkedID ≠ r.workflowID) → (r ∈ d'.readAudience.rows ↔ r ∈ d.readAudience.rows)

section Fork

variable {d d' : ForkDb} {appName : String} {i : ForkInput} {now : Int} {e : ForkEntry}

theorem keepsOthers (h : d.forkWorkflows appName i now = some d') : KeepsOthers d d' i.entries :=
  have hforked := ForkDb.forked_of_forkWorkflows h
  ⟨fun _ => hforked.find?_status, fun _ => hforked.mem_operations, fun _ => hforked.mem_events,
    fun _ => hforked.mem_eventsHistory, fun _ => hforked.mem_streams, fun _ => hforked.mem_readAudience⟩

theorem added_iff (hnodup : (i.entries.map (·.forkedID)).Nodup) (he : e ∈ i.entries) {Q : Prop}
    {P : ForkEntry → Prop} {w : String} (hQ : Q → w ≠ e.forkedID) (hP : ∀ e', P e' → w = e'.forkedID) :
    (Q ∨ ∃ e' ∈ i.entries, P e') ∧ w = e.forkedID ↔ P e := by
  constructor
  · rintro ⟨hold | ⟨e', he', hnew⟩, hid⟩
    · exact absurd hid (hQ hold)
    · obtain rfl := List.inj_on_of_nodup_map hnodup he' he ((hP e' hnew).symm.trans hid)
      exact hnew
  · exact fun hnew => ⟨.inr ⟨e, he, hnew⟩, hP e hnew⟩

/-- Steps are counted from 0, so a fork from there has nothing to copy. -/
theorem copied_below_iff {ρ : Type*} {rows : List ρ} {w : ρ → String} {f : ρ → Int} {P : ρ → Prop}
    (hf : ∀ r ∈ rows, 0 ≤ f r) :
    (0 < e.startStep ∧ ∃ r ∈ rows, copied e (w r) (f r) = true ∧ P r) ↔
      ∃ r ∈ rows, w r = e.originalID ∧ f r < e.startStep ∧ P r := by
  simp only [copied_iff, and_assoc]
  refine and_iff_right_of_imp ?_
  rintro ⟨r, hr, -, hlt, -⟩
  exact Int.lt_of_le_of_lt (hf r hr) hlt

theorem find?_fork (h : d.forkWorkflows appName i now = some d') (he : e ∈ i.entries) :
    ∃ original attributes, d.status.find? e.originalID = some original ∧
      Json.roundTripMap original.attributes = some attributes ∧
      d'.status.find? e.forkedID = some (i.statusRow appName now original attributes e.forkedID) := by
  obtain ⟨r, hr⟩ := (ForkDb.forkedIDs h).2.2 e he
  have hmem := ((ForkDb.forked_of_forkWorkflows h).status r).2 (.inr ⟨e, he, hr⟩)
  obtain ⟨original, attributes, horiginal, hattributes, rfl⟩ := ForkDb.forkRow_eq_some.1 hr
  exact ⟨original, attributes, horiginal, hattributes, Table.find?_of_mem hmem⟩

theorem sameAttributes_iff (h : d.forkWorkflows appName i now = some d') (he : e ∈ i.entries) :
    SameAttributes d d' e ↔ AttributesSurvive d e := by
  obtain ⟨original, attributes, horiginal, hattributes, hfork⟩ := find?_fork h he
  unfold SameAttributes AttributesSurvive
  rw [horiginal, hfork]
  simp only [Option.map_some, Option.some.injEq, forall_eq', hattributes]
  rfl

theorem reproduces {log : List SetEventInput} (h : d.forkWorkflows appName i now = some d') (he : e ∈ i.entries)
    (hfresh : d.Fresh e.forkedID) (hlog : SetsEvents d e.originalID log) :
    Reproduces d d' appName i log e := by
  have hforked := ForkDb.forked_of_forkWorkflows h
  obtain ⟨hnodup, -, -⟩ := ForkDb.forkedIDs h
  have hevents : ∀ key, d'.events.find? (e.forkedID, key) =
      ((setEvents (before e.startStep log)).events.find? (e.originalID, key)).map
        fun v => { v with workflowID := e.forkedID } := by
    intro key
    refine Option.ext fun v => ?_
    rw [Table.find?_eq_some, Option.map_eq_some_iff, Prod.mk.injEq, ← and_assoc, hforked.events,
      added_iff hnodup he (hfresh.events v) (fun e' hcopy => ?_), hlog.copiesEvent_iff]
    · constructor
      · rintro ⟨⟨v₀, hv₀, hv⟩, rfl⟩
        exact ⟨v₀, hv₀, hv.symm⟩
      · rintro ⟨v₀, hv₀, rfl⟩
        have hkey := Table.key_of_find? hv₀
        rw [Prod.mk.injEq] at hkey
        exact ⟨⟨v₀, by rwa [hkey.2], rfl⟩, hkey.2⟩
    · obtain ⟨h, hcopy, rfl, -⟩ := hcopy
      exact ForkDb.workflowID_of_copiesHistory hcopy
  constructor
  case checkpoints =>
    intro o
    rw [hforked.operations, added_iff hnodup he (hfresh.operations o)]
    · exact copied_below_iff fun o _ => o.nonneg
    · rintro e' ⟨-, o₀, -, -, rfl⟩
      rfl
  case history =>
    intro h
    rw [hforked.eventsHistory, added_iff hnodup he (hfresh.eventsHistory h)]
    · exact copied_below_iff fun h _ => Int.natCast_nonneg _
    · exact fun e' => ForkDb.workflowID_of_copiesHistory
  case streams =>
    intro r
    rw [hforked.streams, added_iff hnodup he (hfresh.streams r)]
    · exact copied_below_iff fun r _ => r.nonneg
    · rintro e' ⟨-, r₀, -, -, rfl⟩
      rfl
  case events => exact hevents
  case absent =>
    intro key hlater
    rw [hevents, find?_setEvents, List.find?_eq_none.2]
    · rfl
    · intro s hs hkey
      rw [List.mem_reverse, before_eq_filter hlog.increasing, List.mem_filter] at hs
      rw [decide_eq_true_eq] at hkey
      have := hlater s hs.1 hkey.2
      have := of_decide_eq_true hs.2
      omega
  case status =>
    obtain ⟨original, attributes, horiginal, -, hfork⟩ := find?_fork h he
    refine ⟨original, _, horiginal, hfork, rfl, rfl, rfl, ?_, rfl, rfl, rfl⟩
    cases hclass : original.className with
    | none => simp [ForkInput.statusRow, hclass]
    | some name =>
      simp only [ForkInput.statusRow, hclass, Option.filter_some]
      by_cases hname : name = "" <;> simp [hname]
  case readAudience =>
    intro r
    rw [hforked.readAudience, added_iff hnodup he (hfresh.readAudience r)]
    · rfl
    · rintro e' ⟨r₀, -, -, rfl⟩
      rfl

end Fork

/-- **What a fork reproduces.** After a batch of forks to fresh IDs, each fork has the past of its
original below the start step, and starts as it did; other workflows are as they were, but for the mark
on the originals; and the entries one by one, in any order, leave the same rows. The attributes are those
of the original exactly if they survive the round trip through a map. -/
theorem fork_reproduces_iff {d d' : ForkDb} {appName : String} {i : ForkInput} {now : Int}
    (logs : String → List SetEventInput) (h : d.forkWorkflows appName i now = some d')
    (hfresh : ∀ e ∈ i.entries, d.Fresh e.forkedID)
    (hlogs : ∀ e ∈ i.entries, SetsEvents d e.originalID (logs e.originalID)) :
    (∀ e ∈ i.entries, Reproduces d d' appName i (logs e.originalID) e ∧
      (SameAttributes d d' e ↔ AttributesSurvive d e)) ∧
    KeepsOthers d d' i.entries ∧
    ∀ es : List ForkEntry, es.Perm i.entries →
      ∃ D, d.forkEach appName i now es = some D ∧ ForkDb.SameRows d' D :=
  ⟨fun e he => ⟨reproduces h he (hfresh e he) (hlogs e he), sameAttributes_iff h he⟩, keepsOthers h,
    fun _ hperm => ForkDb.sameRows_forkEach h hfresh hperm⟩

section Example

def stages : List SetEventInput :=
  [{ workflowID := "payment", stepID := 0, key := "stage", message := some "received" },
    { workflowID := "payment", stepID := 1, key := "stage", message := some "charged" }]

def payment (account : ℚ) : ForkDb where
  status :=
    ⟨[{ workflowID := "payment", status := .error, name := "pay",
        attributes := some (.object [("account", .number account)]) }], List.nodup_singleton _⟩
  operations :=
    ⟨[{ workflowID := "payment", functionID := 0, functionName := "DBOS.setEvent" },
      { workflowID := "payment", functionID := 1, functionName := "DBOS.setEvent" }], by decide⟩
  events := (setEvents stages).events
  eventsHistory := (setEvents stages).eventsHistory
  streams := .empty
  readAudience := .empty

def retry : ForkInput where
  entries := [{ originalID := "payment", forkedID := "retry", startStep := 1 }]

theorem fresh_retry (account : ℚ) : (payment account).Fresh "retry" where
  status := by simp [payment]
  operations := by simp [payment]
  events := show ∀ v ∈ (setEvents stages).events.rows, v.workflowID ≠ "retry" by decide
  eventsHistory := show ∀ h ∈ (setEvents stages).eventsHistory.rows, h.workflowID ≠ "retry" by decide
  streams := by simp [payment, Table.empty]
  readAudience := by simp [payment, Table.empty]

theorem setsEvents_payment (account : ℚ) : SetsEvents (payment account) "payment" stages :=
  ⟨by decide, by decide, fun _ => rfl, fun _ _ => rfl⟩

theorem roundTripMap_account {account account' : ℚ} (h : Float64.roundTrip account = some account') :
    Json.roundTripMap (some (.object [("account", .number account)])) =
      some (some (.object [("account", .number account')])) := by
  simp [Json.roundTripMap, Json.roundTripFields, Json.roundTrip, h]

theorem exists_retry {account account' : ℚ} (h : Float64.roundTrip account = some account') :
    ∃ d', (payment account).forkWorkflows "bank" retry 5 = some d' ∧
      (d'.status.find? "retry").map (·.attributes) = some (some (.object [("account", .number account')])) := by
  have hfork : ∃ r, (payment account).IsFork "bank" retry 5 ⟨"payment", "retry", 1⟩ r :=
    ⟨_, ForkDb.forkRow_eq_some.2 ⟨_, _, rfl, roundTripMap_account h, rfl⟩⟩
  obtain ⟨r, hr⟩ := hfork
  obtain ⟨d', hd'⟩ := ForkDb.exists_forkWorkflows (by decide) hr (fresh_retry account)
  refine ⟨d', hd', ?_⟩
  obtain ⟨original, attributes, horiginal, hattributes, hfork⟩ := find?_fork hd' List.mem_cons_self
  cases horiginal
  obtain rfl := Option.some.inj ((roundTripMap_account h).symm.trans hattributes)
  exact congrArg (Option.map (·.attributes)) hfork

/-- The retry of account 9007199254740993 is one of account 9007199254740992. -/
theorem account_changed_by_fork :
    ∃ d', (payment 9007199254740993).forkWorkflows "bank" retry 5 = some d' ∧
      (d'.status.find? "retry").map (·.attributes) =
        some (some (.object [("account", .number 9007199254740992)])) ∧
      ¬ SameAttributes (payment 9007199254740993) d' ⟨"payment", "retry", 1⟩ := by
  obtain ⟨d', hd', hattributes⟩ :=
    exists_retry (show Float64.roundTrip 9007199254740993 = some 9007199254740992 by decide +kernel)
  refine ⟨d', hd', hattributes, fun hsame => ?_⟩
  have heq := hattributes.symm.trans hsame
  simp [payment, Table.find?] at heq

/-- The retry of account 3 is one of account 3, in the stage that the payment was in. -/
theorem account_kept_by_fork :
    ∃ d', (payment 3).forkWorkflows "bank" retry 5 = some d' ∧
      SameAttributes (payment 3) d' ⟨"payment", "retry", 1⟩ ∧
      d'.events.find? ("retry", "stage") =
        some { workflowID := "retry", key := "stage", value := some "received" } := by
  have hthree : Float64.roundTrip 3 = some 3 := by decide +kernel
  obtain ⟨d', hd', -⟩ := exists_retry hthree
  obtain ⟨hforks, -, -⟩ := fork_reproduces_iff (fun _ => stages) hd'
    (List.forall_mem_singleton.2 (fresh_retry 3)) (List.forall_mem_singleton.2 (setsEvents_payment 3))
  obtain ⟨hpast, hattributes⟩ := hforks _ List.mem_cons_self
  refine ⟨d', hd', hattributes.2 ?_, hpast.events "stage"⟩
  intro original horiginal
  cases horiginal
  exact roundTripMap_account hthree

end Example

end Dbos.Fork
