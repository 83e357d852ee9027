import DbosTransact.Dedup.Enqueue

/-!
# What a return-existing `Enqueue` returns

What a call returns or has recorded is a workflow that it inserted, or one that has held the slot since it
started (`Answered`). The steps of a call inside a workflow are refusals that found the slot free, then the
one that the call returns (`Journaled`).
-/

namespace Dbos.Dedup

open Lts Relational

variable {ι : Type*} {calls : ι → Call}

/-! ### The index -/

section Index

variable {t : StatusTable} {call : Call} {workflowID : String}

theorem slot_eq_some {r : WorkflowRow} {slot : String × String} :
    r.slot = some slot ↔ r.queueName = some slot.1 ∧ r.deduplicationID = some slot.2 := by
  obtain ⟨queue, id⟩ := slot
  cases hqueue : r.queueName <;> cases hid : r.deduplicationID <;> simp [WorkflowRow.slot, hqueue, hid]

theorem Call.slot_row (call : Call) (workflowID : String) : (call.row workflowID).slot = some call.slot :=
  slot_eq_some.2 ⟨if_neg call.queueName_ne, if_neg call.deduplicationID_ne⟩

theorem holder_eq_none {slot : String × String} : holder t slot = none ↔ ∀ r ∈ t.rows, r.slot ≠ some slot := by
  simp [holder, Db.getDeduplicatedWorkflow, slot_eq_some, StatusTable.toDb]

theorem Call.mem_publish {r : WorkflowRow} (h : r ∈ (call.publish t workflowID).rows) :
    (t.find? workflowID = none ∧ r = call.row workflowID) ∨
      ∃ r₀ ∈ t.rows, r₀.workflowID = r.workflowID ∧ r₀.slot = r.slot := by
  have hkey : (call.row workflowID).workflowID = workflowID := rfl
  have hfind := Table.find?_of_mem h
  rw [Call.publish, Table.find?_upsert, hkey] at hfind
  split_ifs at hfind with hid
  · rw [← hid] at hfind
    cases hold : t.find? workflowID with
    | none => exact .inl ⟨rfl, by simpa [hold, eq_comm] using hfind⟩
    | some r₀ =>
      obtain rfl : r₀.reinsert (call.row workflowID) = r := by simpa [hold] using hfind
      exact .inr ⟨r₀, Table.mem_of_find? hold, rfl, rfl⟩
  · exact .inr ⟨r, Table.mem_of_find? hfind, rfl, rfl⟩

theorem Call.find?_publish_of_ne {id : String} (h : id ≠ workflowID) :
    (call.publish t workflowID).find? id = t.find? id := by
  rw [Call.publish, Table.find?_upsert]
  exact if_neg h.symm

theorem Indexed.publish (h : Indexed t) (hfree : t.find? workflowID = none → holder t call.slot = none) :
    Indexed (call.publish t workflowID) := by
  intro r hr r' hr' hslot heq
  refine Table.eq_of_key_eq hr' hr ?_
  rcases Call.mem_publish hr with ⟨hnew, rfl⟩ | ⟨r₀, hr₀, hid, hs⟩
  · rcases Call.mem_publish hr' with ⟨-, rfl⟩ | ⟨r₀, hr₀, -, hs⟩
    · rfl
    · rw [call.slot_row, ← hs] at heq
      exact (holder_eq_none.1 (hfree hnew) r₀ hr₀ heq.symm).elim
  · rcases Call.mem_publish hr' with ⟨hnew, rfl⟩ | ⟨r₁, hr₁, hid', hs'⟩
    · rw [call.slot_row, ← hs] at heq
      exact (holder_eq_none.1 (hfree hnew) r₀ hr₀ heq).elim
    · have hrow : r₀ = r₁ := h r₀ hr₀ r₁ hr₁ (hs ▸ hslot) (by rw [hs, hs', heq])
      rw [← hid, ← hid', hrow]

theorem Call.holder_publish {slot : String × String} (h : holder t slot = none)
    (hne : t.find? workflowID = none → call.slot ≠ slot) : holder (call.publish t workflowID) slot = none := by
  refine holder_eq_none.2 fun r hr heq => ?_
  rcases Call.mem_publish hr with ⟨hnew, rfl⟩ | ⟨r₀, hr₀, -, hs⟩
  · exact hne hnew (Option.some.inj ((call.slot_row workflowID).symm.trans heq))
  · exact holder_eq_none.1 h r₀ hr₀ (hs.trans heq)

end Index

/-! ### The locks -/

section Locks

/-- The index holds, and the open transactions hold what they have written. -/
structure Locked (calls : ι → Call) (s : State ι) : Prop where
  indexed : Indexed s.table
  drawn : ∀ j, ∀ e ∈ (s.calls j).live, e.workflowID ∈ (s.calls j).inserted ∨ s.table.find? e.workflowID = none
  ids : ∀ i j, i ≠ j → ∀ e ∈ (s.calls i).live, ∀ e' ∈ (s.calls j).live, e.workflowID ≠ e'.workflowID
  created : ∀ j, ∀ e ∈ (s.calls j).live, e.phase = .inserted true →
    s.table.find? e.workflowID = none ∧ holder s.table (calls j).slot = none
  found : ∀ j, ∀ e ∈ (s.calls j).live, e.phase = .inserted false → (s.table.find? e.workflowID).isSome = true
  slots : ∀ i j, i ≠ j → (calls i).slot = (calls j).slot → ∀ e ∈ (s.calls i).live, e.phase = .inserted true →
    ∀ e' ∈ (s.calls j).live, e'.phase ≠ .inserted true

variable {call : Call} {fresh : String → Prop} {free : Prop} {t t' : StatusTable} {p p' : Progress} {m : Move}

theorem Progress.resolve_cases (p : Progress) (e : Execution) (existingID : String) :
    existingID ≠ "" ∧ p.resolve e existingID = p.ret existingID ∨
      existingID = "" ∧ p.resolve e existingID = p.again e := by
  by_cases h : existingID = ""
  · exact .inr ⟨h, if_neg (not_not.2 h)⟩
  · exact .inl ⟨h, if_pos h⟩

theorem Progress.live_resolve {p : Progress} {e e' : Execution} {existingID : String}
    (h : e' ∈ (p.resolve e existingID).live) : e' = { e with stepID := e.stepID + 1, phase := .started } := by
  rcases p.resolve_cases e existingID with ⟨-, hret⟩ | ⟨-, hagain⟩
  · rw [hret] at h
    cases h
  · rw [hagain] at h
    exact (Option.some.inj h).symm

@[simp] theorem Progress.inserted_resolve (p : Progress) (e : Execution) (existingID : String) :
    (p.resolve e existingID).inserted = p.inserted := by
  rcases p.resolve_cases e existingID with ⟨-, h⟩ | ⟨-, h⟩ <;> rw [h] <;> rfl

/-- What a statement does to the table and to the open transaction of the call: most of them nothing. -/
theorem Turn.effect (h : Turn call fresh free t p m t' p') :
    (t' = t ∧ p'.inserted = p.inserted ∧ ∀ e' ∈ p'.live,
      ((p.live = none ∧ fresh e'.workflowID) ∨ ∃ e ∈ p.live, e.workflowID = e'.workflowID) ∧
      ∀ created, e'.phase = .inserted created → created = (t.find? e'.workflowID).isNone ∧
        (created = true → holder t call.slot = none ∧ free)) ∨
    ∃ e created, p.live = some e ∧ e.phase = .inserted created ∧ t' = call.publish t e.workflowID ∧
      p'.inserted = (p.insert e created).inserted ∧
      ∀ e' ∈ p'.live, e'.workflowID = e.workflowID ∧ e'.phase = .started := by
  have hquiet : ∀ {e e' : Execution}, p.live = some e → e'.workflowID = e.workflowID →
      (∀ created, e'.phase ≠ .inserted created) →
      ((p.live = none ∧ fresh e'.workflowID) ∨ ∃ e ∈ p.live, e.workflowID = e'.workflowID) ∧
      ∀ created, e'.phase = .inserted created → created = (t.find? e'.workflowID).isNone ∧
        (created = true → holder t call.slot = none ∧ free) :=
    fun he hid hphase => ⟨.inr ⟨_, he, hid.symm⟩, fun created hc => (hphase created hc).elim⟩
  cases h with
  | start workflowID hlive _ hfresh =>
    refine .inl ⟨rfl, rfl, fun e' he' => ?_⟩
    cases he'
    exact ⟨.inl ⟨hlive, hfresh⟩, by simp⟩
  | leave => exact .inl ⟨rfl, rfl, fun e' he' => by cases he'⟩
  | replay => exact .inl ⟨rfl, rfl, fun e' he' => by cases he'⟩
  | abort e he | enter e he | refuse e he | lookup e he | recordFailed e he =>
    refine .inl ⟨rfl, rfl, fun e' he' => ?_⟩
    cases he'
    exact hquiet he rfl (by simp)
  | insert e created he hphase hcreated hfree =>
    refine .inl ⟨rfl, rfl, fun e' he' => ?_⟩
    cases he'
    refine ⟨.inr ⟨e, he, rfl⟩, fun created' hc => ?_⟩
    cases hc
    exact ⟨hcreated, hfree⟩
  | publish e created he hphase | publishRecorded e created he hphase
  | publishUnacknowledged e created he hphase =>
    exact .inr ⟨e, created, he, hphase, rfl, rfl, fun e' he' => by cases he'⟩
  | publishRecordedUnacknowledged e created he hphase =>
    refine .inr ⟨e, created, he, hphase, rfl, rfl, fun e' he' => ?_⟩
    cases he'
    exact ⟨rfl, rfl⟩
  | recordRefusalUnacknowledged e existingID he =>
    refine .inl ⟨rfl, rfl, fun e' he' => ?_⟩
    cases he'
    exact hquiet he rfl (by simp)
  | replayRefusal e c he | resolve e c he | recordRefusal e c he | interrupt e c he =>
    refine .inl ⟨rfl, Progress.inserted_resolve .., fun e' he' => ?_⟩
    rw [Progress.live_resolve he']
    exact hquiet he rfl (by simp)

@[simp] theorem Progress.live_observe (p : Progress) (now : Option String) : (p.observe now).live = p.live := by
  unfold Progress.observe
  split_ifs <;> rfl

@[simp] theorem Progress.inserted_observe (p : Progress) (now : Option String) :
    (p.observe now).inserted = p.inserted := by
  unfold Progress.observe
  split_ifs <;> rfl

variable {s s' : State ι}

theorem Locked.observe (h : Locked calls s) : Locked calls (s.observe calls) := by
  constructor <;> simp only [State.observe, Progress.live_observe, Progress.inserted_observe]
  exacts [h.indexed, h.drawn, h.ids, h.created, h.found, h.slots]

variable [DecidableEq ι] {j : ι}

theorem State.mem_live_set {i : ι} {e : Execution} (h : e ∈ ((s.set j t p).calls i).live) :
    i = j ∧ e ∈ p.live ∨ i ≠ j ∧ e ∈ (s.calls i).live := by
  by_cases hij : i = j
  · subst hij
    exact .inl ⟨rfl, by simpa [State.set] using h⟩
  · exact .inr ⟨hij, by simpa [State.set, hij] using h⟩

@[simp] theorem State.calls_set_self : (s.set j t p).calls j = p := Function.update_self ..

theorem State.calls_set_of_ne {i : ι} (h : i ≠ j) : (s.set j t p).calls i = s.calls i :=
  Function.update_of_ne h ..

theorem Locked.set (h : Locked calls s) (hinserted : p.inserted = (s.calls j).inserted)
    (hlive : ∀ e' ∈ p.live,
      (((s.calls j).live = none ∧ s.Fresh j e'.workflowID) ∨ ∃ e ∈ (s.calls j).live, e.workflowID = e'.workflowID) ∧
      ∀ created, e'.phase = .inserted created → created = (s.table.find? e'.workflowID).isNone ∧
        (created = true → holder s.table (calls j).slot = none ∧ s.SlotFree calls j)) :
    Locked calls (s.set j s.table p) := by
  have hids : ∀ i, i ≠ j → ∀ e ∈ (s.calls i).live, ∀ e' ∈ p.live, e.workflowID ≠ e'.workflowID := by
    intro i hij e he e' he'
    rcases (hlive e' he').1 with ⟨-, hfresh⟩ | ⟨e₀, he₀, hid⟩
    · exact hfresh.2.2 i hij e he
    · rw [← hid]
      exact h.ids i j hij e he e₀ he₀
  have hnew : ∀ e' ∈ p.live, e'.phase = .inserted true → s.table.find? e'.workflowID = none ∧
      holder s.table (calls j).slot = none ∧ s.SlotFree calls j := by
    intro e' he' hphase
    obtain ⟨hcreated, hfree⟩ := (hlive e' he').2 true hphase
    exact ⟨Option.isNone_iff_eq_none.1 hcreated.symm, hfree rfl⟩
  constructor
  case indexed => exact h.indexed
  case drawn =>
    intro i e hl
    rcases State.mem_live_set hl with ⟨rfl, he⟩ | ⟨hij, he⟩
    · rw [State.calls_set_self, hinserted]
      rcases (hlive e he).1 with ⟨-, hfresh⟩ | ⟨e₀, he₀, hid⟩
      · exact hfresh.2.1
      · rw [← hid]
        exact h.drawn i e₀ he₀
    · rw [State.calls_set_of_ne hij]
      exact h.drawn i e he
  case ids =>
    intro i i' hne e hl e' hl'
    rcases State.mem_live_set hl with ⟨rfl, he⟩ | ⟨hij, he⟩
    · rcases State.mem_live_set hl' with ⟨rfl, -⟩ | ⟨hij', he'⟩
      · exact (hne rfl).elim
      · exact (hids i' hij' e' he' e he).symm
    · rcases State.mem_live_set hl' with ⟨rfl, he'⟩ | ⟨-, he'⟩
      · exact hids i hij e he e' he'
      · exact h.ids i i' hne e he e' he'
  case created =>
    intro i e hl hphase
    rcases State.mem_live_set hl with ⟨rfl, he⟩ | ⟨-, he⟩
    · obtain ⟨hnone, hholder, -⟩ := hnew e he hphase
      exact ⟨hnone, hholder⟩
    · exact h.created i e he hphase
  case found =>
    intro i e hl hphase
    rcases State.mem_live_set hl with ⟨rfl, he⟩ | ⟨-, he⟩
    · simpa [State.set] using ((hlive e he).2 false hphase).1
    · exact h.found i e he hphase
  case slots =>
    intro i i' hne hslot e hl hphase e' hl' hphase'
    rcases State.mem_live_set hl with ⟨rfl, he⟩ | ⟨hij, he⟩
    · rcases State.mem_live_set hl' with ⟨rfl, -⟩ | ⟨hij', he'⟩
      · exact hne rfl
      · exact (hnew e he hphase).2.2 i' hij' hslot.symm e' he' hphase'
    · rcases State.mem_live_set hl' with ⟨rfl, he'⟩ | ⟨-, he'⟩
      · exact (hnew e' he' hphase').2.2 i hij hslot e he hphase
      · exact h.slots i i' hne hslot e he hphase e' he' hphase'

theorem Locked.publish {e : Execution} {created : Bool} (h : Locked calls s) (he : (s.calls j).live = some e)
    (hphase : e.phase = .inserted created) (hinserted : p.inserted = ((s.calls j).insert e created).inserted)
    (hlive : ∀ e' ∈ p.live, e'.workflowID = e.workflowID ∧ e'.phase = .started) :
    Locked calls (s.set j ((calls j).publish s.table e.workflowID) p) := by
  -- a row that is new takes the slot, which no other open transaction has
  have hcreated : s.table.find? e.workflowID = none → e.phase = .inserted true := by
    intro hnone
    cases created with
    | true => exact hphase
    | false =>
      have hsome := h.found j e he hphase
      rw [hnone] at hsome
      cases hsome
  have hmem : e.workflowID ∈ p.inserted := by
    rw [hinserted]
    cases created with
    | true => exact List.mem_append_right _ List.mem_cons_self
    | false =>
      refine (h.drawn j e he).resolve_right fun hnone => ?_
      have htrue := hcreated hnone
      rw [hphase] at htrue
      cases htrue
  have hfind : ∀ i, i ≠ j → ∀ e' ∈ (s.calls i).live,
      ((calls j).publish s.table e.workflowID).find? e'.workflowID = s.table.find? e'.workflowID :=
    fun i hij e' he' => Call.find?_publish_of_ne (h.ids i j hij e' he' e he)
  constructor
  case indexed => exact h.indexed.publish fun hnone => (h.created j e he (hcreated hnone)).2
  case drawn =>
    intro i e' hl'
    rcases State.mem_live_set hl' with ⟨rfl, he'⟩ | ⟨hij, he'⟩
    · rw [State.calls_set_self, (hlive e' he').1]
      exact .inl hmem
    · rw [State.calls_set_of_ne hij]
      exact (h.drawn i e' he').imp_right (hfind i hij e' he').trans
  case ids =>
    intro i i' hne e₁ hl₁ e₂ hl₂
    rcases State.mem_live_set hl₁ with ⟨rfl, he₁⟩ | ⟨hij, he₁⟩
    · rcases State.mem_live_set hl₂ with ⟨rfl, -⟩ | ⟨hij', he₂⟩
      · exact (hne rfl).elim
      · rw [(hlive e₁ he₁).1]
        exact h.ids i i' hne e he e₂ he₂
    · rcases State.mem_live_set hl₂ with ⟨rfl, he₂⟩ | ⟨-, he₂⟩
      · rw [(hlive e₂ he₂).1]
        exact h.ids i i' hne e₁ he₁ e he
      · exact h.ids i i' hne e₁ he₁ e₂ he₂
  case created =>
    intro i e' hl' hphase'
    rcases State.mem_live_set hl' with ⟨rfl, he'⟩ | ⟨hij, he'⟩
    · rw [(hlive e' he').2] at hphase'
      cases hphase'
    · obtain ⟨hnone, hholder⟩ := h.created i e' he' hphase'
      refine ⟨(hfind i hij e' he').trans hnone, Call.holder_publish hholder fun hnew hslot => ?_⟩
      exact h.slots i j hij hslot.symm e' he' hphase' e he (hcreated hnew)
  case found =>
    intro i e' hl' hphase'
    rcases State.mem_live_set hl' with ⟨rfl, he'⟩ | ⟨hij, he'⟩
    · rw [(hlive e' he').2] at hphase'
      cases hphase'
    · exact (congrArg Option.isSome (hfind i hij e' he')).trans (h.found i e' he' hphase')
  case slots =>
    intro i i' hne hslot e₁ hl₁ hphase₁ e₂ hl₂ hphase₂
    rcases State.mem_live_set hl₁ with ⟨rfl, he₁⟩ | ⟨-, he₁⟩
    · rw [(hlive e₁ he₁).2] at hphase₁
      cases hphase₁
    · rcases State.mem_live_set hl₂ with ⟨rfl, he₂⟩ | ⟨-, he₂⟩
      · rw [(hlive e₂ he₂).2] at hphase₂
        cases hphase₂
      · exact h.slots i i' hne hslot e₁ he₁ hphase₁ e₂ he₂ hphase₂

omit [DecidableEq ι] in
theorem Locked.operation (h : Locked calls s) (ht : s.Permits calls t) : Locked calls ⟨t, s.calls⟩ := by
  have hfind : ∀ j, ∀ e ∈ (s.calls j).live, s.table.find? e.workflowID = none ∨ e.phase = .inserted false →
      t.find? e.workflowID = s.table.find? e.workflowID := fun j e he => ((ht.2 j).1 e he).1
  constructor
  case indexed => exact ht.1
  case drawn =>
    intro j e he
    exact (h.drawn j e he).imp_right fun hnone => (hfind j e he (.inl hnone)).trans hnone
  case ids => exact h.ids
  case created =>
    intro j e he hphase
    obtain ⟨hnone, -⟩ := h.created j e he hphase
    exact ⟨(hfind j e he (.inl hnone)).trans hnone, ((ht.2 j).1 e he).2 hphase⟩
  case found =>
    intro j e he hphase
    exact (congrArg Option.isSome (hfind j e he (.inr hphase))).trans (h.found j e he hphase)
  case slots => exact h.slots

theorem Locked.step [Fintype ι] {a : Action ι} (h : Locked calls s) (hstep : step calls s a = some s') :
    Locked calls s' := by
  obtain ⟨j, m, t, p, -, rfl, hturn⟩ | ⟨op, t, -, rfl, -, hpermits⟩ := step_cases hstep
  · refine Locked.observe ?_
    rcases hturn.effect with ⟨rfl, hinserted, hlive⟩ | ⟨e, created, he, hphase, rfl, hinserted, hlive⟩
    · exact h.set hinserted hlive
    · exact h.publish he hphase hinserted hlive
  · exact (h.operation hpermits).observe

end Locks

/-! ### What the call answers -/

section Answers

variable {call : Call} {fresh : String → Prop} {free : Prop} {t t' : StatusTable} {p p' : Progress} {m : Move}
  {e : Execution} {c : Checkpoint} {id : String}

/-- The workflow was inserted by the call, or has held the slot since the call started. -/
def Progress.Knows (p : Progress) (id : String) : Prop := id ∈ p.inserted ∨ id ∈ p.held

/-- The checkpoint is not a refusal that found the slot free: its output is what the call returns. -/
def Checkpoint.Final (c : Checkpoint) : Prop := c.deduplicated = true → c.output ≠ ""

structure Answered (p : Progress) : Prop where
  started : p.live.isSome = true → p.started = true
  lookedUp : ∀ e ∈ p.live, ∀ id, e.phase = .lookedUp id → id ≠ "" → id ∈ p.held
  journal : ∀ k c, p.journal k = some c → c.Final → p.Knows c.output
  returned : ∀ id ∈ p.returned, p.Knows id

namespace Answered

theorem observe (h : Answered p) (now : Option String) : Answered (p.observe now) := by
  unfold Progress.observe
  split_ifs
  · have hmono : ∀ id, p.Knows id → Progress.Knows { p with held := p.held ++ now.toList } id :=
      fun id => Or.imp_right (List.mem_append_left _)
    exact ⟨h.started, fun e he id hid hne => List.mem_append_left _ (h.lookedUp e he id hid hne),
      fun k c hc hfinal => hmono _ (h.journal k c hc hfinal), fun id hid => hmono id (h.returned id hid)⟩
  · exact h

theorem goto (h : Answered p) (he : p.live = some e) {e' : Execution} (hphase : ∀ id, e'.phase ≠ .lookedUp id) :
    Answered { p with live := some e' } where
  started _ := h.started (by rw [he]; rfl)
  lookedUp := by
    rintro _ ⟨⟩ id hid
    exact (hphase id hid).elim
  journal := h.journal
  returned := h.returned

theorem leave (h : Answered p) : Answered p.leave where
  started hlive := by cases hlive
  lookedUp e he := by cases he
  journal := h.journal
  returned := h.returned

theorem ret (h : Answered p) (hid : p.Knows id) : Answered (p.ret id) where
  started hlive := by cases hlive
  lookedUp e he := by cases he
  journal := h.journal
  returned := by
    intro id' hid'
    rcases List.mem_append.1 hid' with hid' | hid'
    · exact h.returned id' hid'
    · rw [List.mem_singleton.1 hid']
      exact hid

theorem resolve (h : Answered p) (he : p.live = some e) (hid : id ≠ "" → p.Knows id) :
    Answered (p.resolve e id) := by
  rcases p.resolve_cases e id with ⟨hne, heq⟩ | ⟨-, heq⟩
  · rw [heq]
    exact h.ret (hid hne)
  · rw [heq]
    exact h.goto he (by simp)

theorem record (h : Answered p) (hc : c.Final → p.Knows c.output) : Answered (p.record e c) where
  started := h.started
  lookedUp := h.lookedUp
  journal := by
    intro k c' hc'
    by_cases hk : k = e.stepID
    · obtain rfl : c = c' := by simpa [Progress.record, hk] using hc'
      exact hc
    · exact h.journal k c' (by simpa [Progress.record, hk] using hc')
  returned := h.returned

theorem insert (h : Answered p) (created : Bool) : Answered (p.insert e created) := by
  cases created with
  | false => exact h
  | true =>
    have hmono : ∀ id, p.Knows id → Progress.Knows { p with inserted := p.inserted ++ [e.workflowID] } id :=
      fun id => Or.imp_left (List.mem_append_left _)
    exact ⟨h.started, h.lookedUp, fun k c hc hfinal => hmono _ (h.journal k c hc hfinal),
      fun id hid => hmono id (h.returned id hid)⟩

end Answered

@[simp] theorem Progress.returned_insert (p : Progress) (e : Execution) (created : Bool) :
    (p.insert e created).returned = p.returned := by
  cases created <;> rfl

@[simp] theorem Progress.journal_insert (p : Progress) (e : Execution) (created : Bool) :
    (p.insert e created).journal = p.journal := by
  cases created <;> rfl

@[simp] theorem Progress.live_insert (p : Progress) (e : Execution) (created : Bool) :
    (p.insert e created).live = p.live := by
  cases created <;> rfl

theorem Progress.knows_insert {created : Bool} (hold : created = false → e.workflowID ∈ p.inserted) :
    (p.insert e created).Knows e.workflowID := by
  cases created with
  | false => exact .inl (hold rfl)
  | true => exact .inl (List.mem_append_right _ List.mem_cons_self)

/-- **A statement of the call.** The holder that a look-up finds holds the slot at that instant. -/
theorem Answered.turn (h : Answered p) (hturn : Turn call fresh free t p m t' p')
    (hold : ∀ e ∈ p.live, e.phase = .inserted false → e.workflowID ∈ p.inserted) :
    Answered (p'.observe (holder t' call.slot)) := by
  have hknows : ∀ {e : Execution} {created : Bool}, p.live = some e → e.phase = .inserted created →
      (p.insert e created).Knows e.workflowID := by
    intro e created he hphase
    exact Progress.knows_insert fun hfalse => hold e he (hfalse ▸ hphase)
  have hfound : ∀ {e : Execution} {existingID : String}, p.live = some e → e.phase = .lookedUp existingID →
      existingID ≠ "" → p.Knows existingID :=
    fun he hphase hne => .inr (h.lookedUp _ he _ hphase hne)
  cases hturn with
  | start workflowID =>
    have hstart : Answered { p with live := some ⟨workflowID, 0, .started⟩, started := true } := by
      refine ⟨fun _ => rfl, ?_, h.journal, h.returned⟩
      rintro _ ⟨⟩ id hid
      cases hid
    exact hstart.observe _
  | leave => exact h.leave.observe _
  | abort e he | enter e he | refuse e he | recordFailed e he => exact (h.goto he (by simp)).observe _
  | insert e created he => exact (h.goto he (by simp)).observe _
  | replay e c he hc hdup => exact (h.ret (h.journal _ c hc (by simp [Checkpoint.Final, hdup]))).observe _
  | replayRefusal e c he hc => exact (h.resolve he fun hne => h.journal _ c hc fun _ => hne).observe _
  | lookup e he =>
    have hstarted : p.started = true := h.started (by rw [he]; rfl)
    have hobserved : (p.goto e (.lookedUp ((holder t call.slot).getD ""))).observe (holder t call.slot) =
        { p with
          live := some { e with phase := .lookedUp ((holder t call.slot).getD "") }
          held := p.held ++ (holder t call.slot).toList } := if_pos hstarted
    have hmono := h.observe (holder t call.slot)
    rw [show p.observe (holder t call.slot) = { p with held := p.held ++ (holder t call.slot).toList } from
      if_pos hstarted] at hmono
    rw [hobserved]
    refine ⟨fun _ => hstarted, ?_, hmono.journal, hmono.returned⟩
    rintro _ ⟨⟩ id hid hne
    cases hid
    cases hholder : holder t call.slot with
    | none => exact (hne (by rw [hholder]; rfl)).elim
    | some id => exact List.mem_append_right _ List.mem_cons_self
  | publish e created he hphase => exact ((h.insert created).ret (hknows he hphase)).observe _
  | publishRecorded e created he hphase =>
    exact (((h.insert created).record fun _ => hknows he hphase).ret (hknows he hphase)).observe _
  | publishUnacknowledged e created he hphase => exact (h.insert created).leave.observe _
  | publishRecordedUnacknowledged e created he hphase =>
    have hlive : (p.insert e created).live = some e := by rw [Progress.live_insert, he]
    exact (((h.insert created).record fun _ => hknows he hphase).goto hlive (by simp)).observe _
  | resolve e existingID he hphase | interrupt e existingID he hphase =>
    exact (h.resolve he (hfound he hphase)).observe _
  | recordRefusal e existingID he hphase =>
    have hrecord : Answered (p.record e ⟨existingID, true⟩) := h.record fun hfinal => hfound he hphase (hfinal rfl)
    exact (hrecord.resolve he (hfound he hphase)).observe _
  | recordRefusalUnacknowledged e existingID he hphase =>
    have hrecord : Answered (p.record e ⟨existingID, true⟩) := h.record fun hfinal => hfound he hphase (hfinal rfl)
    exact (hrecord.goto he (by simp)).observe _

end Answers

/-! ### What the call records -/

section Journals

variable {call : Call} {fresh : String → Prop} {free : Prop} {t t' : StatusTable} {p p' : Progress} {m : Move}
  {e : Execution} {c : Checkpoint} {n : ℕ}

def Progress.Open (p : Progress) (n : ℕ) : Prop := p.journal n = none ∧ p.returned = [] ∧ p.inserted = []

/-- The `n`th step has settled the call. -/
def Progress.Settled (p : Progress) (n : ℕ) (c : Checkpoint) : Prop :=
  p.journal n = some c ∧ c.Final ∧ (∀ id ∈ p.returned, id = c.output) ∧
    p.inserted = if c.deduplicated then [] else [c.output]

/-- The first `n` steps of the call are refusals that found the slot free, and the next one is the last. -/
structure JournaledAt (n : ℕ) (p : Progress) : Prop where
  below : ∀ k < n, p.journal k = some ⟨"", true⟩
  above : ∀ k, n < k → p.journal k = none
  last : p.Open n ∨ ∃ c, p.Settled n c
  live : ∀ e ∈ p.live, e.stepID ≤ n ∧ (e.phase ≠ .started → e.stepID = n ∧ p.journal n = none)

def Journaled (p : Progress) : Prop := ∃ n, JournaledAt n p

namespace JournaledAt

theorem goto (h : JournaledAt n p) (he : p.live = some e) {phase : Phase}
    (hphase : phase ≠ .started → e.phase ≠ .started) : JournaledAt n (p.goto e phase) where
  below := h.below
  above := h.above
  last := h.last
  live := by
    rintro _ ⟨⟩
    exact ⟨(h.live e he).1, fun hne => (h.live e he).2 (hphase hne)⟩

theorem leave (h : JournaledAt n p) : JournaledAt n p.leave :=
  { h with live := fun e he => by cases he }

theorem at_open (h : JournaledAt n p) (he : p.live = some e) (hphase : e.phase ≠ .started) :
    e.stepID = n ∧ p.Open n := by
  obtain ⟨hn, hnone⟩ := (h.live e he).2 hphase
  refine ⟨hn, h.last.resolve_right fun ⟨c, hc, _⟩ => ?_⟩
  rw [hnone] at hc
  cases hc

theorem settle (h : JournaledAt n p) (hn : e.stepID = n) (hfinal : c.Final)
    (hinserted : p'.inserted = if c.deduplicated then [] else [c.output])
    (hreturned : ∀ id ∈ p'.returned, id = c.output) (hjournal : p'.journal = (p.record e c).journal)
    (hlive : ∀ e' ∈ p'.live, e'.stepID = n ∧ e'.phase = .started) : JournaledAt n p' := by
  have hrecord : ∀ k, k ≠ n → p'.journal k = p.journal k := by
    intro k hk
    rw [hjournal]
    exact Function.update_of_ne (hn ▸ hk) ..
  refine ⟨fun k hk => ?_, fun k hk => ?_, .inr ⟨c, ?_, hfinal, hreturned, hinserted⟩, fun e' he' => ?_⟩
  · rw [hrecord k (by omega), h.below k hk]
  · rw [hrecord k (by omega), h.above k hk]
  · rw [hjournal, ← hn]
    exact Function.update_self ..
  · obtain ⟨hstep, hphase⟩ := hlive e' he'
    exact ⟨hstep.le, fun hne => (hne hphase).elim⟩

theorem again (h : JournaledAt n p) (hopen : p.Open n) (hn : e.stepID = n)
    (hjournal : p'.journal = (p.record e ⟨"", true⟩).journal) (hreturned : p'.returned = p.returned)
    (hinserted : p'.inserted = p.inserted) (hlive : ∀ e' ∈ p'.live, e'.stepID ≤ n + 1 ∧ e'.phase = .started) :
    JournaledAt (n + 1) p' := by
  have hrecord : ∀ k, k ≠ n → p'.journal k = p.journal k := by
    intro k hk
    rw [hjournal]
    exact Function.update_of_ne (hn ▸ hk) ..
  refine ⟨fun k hk => ?_, fun k hk => ?_, .inl ⟨?_, ?_, ?_⟩, fun e' he' => ?_⟩
  · by_cases hkn : k = n
    · rw [hkn, hjournal, ← hn]
      exact Function.update_self ..
    · rw [hrecord k hkn, h.below k (by omega)]
  · rw [hrecord k (by omega), h.above k (by omega)]
  · rw [hrecord (n + 1) (by omega), h.above (n + 1) (by omega)]
  · rw [hreturned, hopen.2.1]
  · rw [hinserted, hopen.2.2]
  · obtain ⟨hstep, hphase⟩ := hlive e' he'
    exact ⟨hstep, fun hne => (hne hphase).elim⟩

/-- What a replay finds at its step: a refusal to go past, or the last one. -/
theorem at_checkpoint (h : JournaledAt n p) (he : p.live = some e) (hc : p.journal e.stepID = some c) :
    (e.stepID < n ∧ c = ⟨"", true⟩) ∨ e.stepID = n ∧ p.Settled n c := by
  rcases Nat.lt_or_eq_of_le (h.live e he).1 with hlt | heq
  · rw [h.below _ hlt] at hc
    exact .inl ⟨hlt, (Option.some.inj hc).symm⟩
  · rw [heq] at hc
    rcases h.last with ⟨hnone, -⟩ | ⟨c', hc', hrest⟩
    · rw [hnone] at hc
      cases hc
    · rw [hc'] at hc
      cases hc
      exact .inr ⟨heq, hc', hrest⟩

theorem ret (h : JournaledAt n p) (hsettled : p.Settled n c) : JournaledAt n (p.ret c.output) where
  below := h.below
  above := h.above
  last := by
    obtain ⟨hc, hfinal, hreturned, hinserted⟩ := hsettled
    refine .inr ⟨c, hc, hfinal, fun id hid => ?_, hinserted⟩
    rcases List.mem_append.1 hid with hid | hid
    · exact hreturned id hid
    · exact List.mem_singleton.1 hid
  live e he := by cases he

end JournaledAt

/-- **A statement of a call inside a workflow** that is not one past an unrecorded refusal. -/
theorem Journaled.turn (h : Journaled p) (hturn : Turn call fresh free t p m t' p')
    (hcaller : call.caller.isSome = true) (hm : m.unrecorded = false)
    (hold : ∀ e ∈ p.live, e.phase = .inserted false → e.workflowID ∈ p.inserted) : Journaled p' := by
  obtain ⟨n, h⟩ := h
  have hinside : call.caller ≠ none := Option.isSome_iff_ne_none.1 hcaller
  -- in an open journal a row that was inserted is new
  have hcreated : ∀ {e : Execution} {created : Bool}, p.live = some e → e.phase = .inserted created →
      p.Open n → (p.insert e created).inserted = [e.workflowID] := by
    intro e created he hphase hopen
    cases created with
    | true => simp [Progress.insert, hopen.2.2]
    | false =>
      have hmem := hold e he hphase
      rw [hopen.2.2] at hmem
      cases hmem
  cases hturn with
  | start workflowID =>
    refine ⟨n, h.below, h.above, h.last, ?_⟩
    rintro _ ⟨⟩
    exact ⟨Nat.zero_le n, fun hne => (hne rfl).elim⟩
  | leave => exact ⟨n, h.leave⟩
  | abort e he => exact ⟨n, h.goto he fun hne => (hne rfl).elim⟩
  | enter e he hnone =>
    refine ⟨n, h.below, h.above, h.last, ?_⟩
    rintro _ ⟨⟩
    have hn : e.stepID = n := by
      refine Nat.le_antisymm (h.live e he).1 (Nat.le_of_not_lt fun hlt => ?_)
      have hrow := h.below _ hlt
      rw [hnone hcaller] at hrow
      cases hrow
    exact ⟨hn.le, fun _ => ⟨hn, hn ▸ hnone hcaller⟩⟩
  | replay e c he hc hdup =>
    rcases h.at_checkpoint he hc with ⟨-, rfl⟩ | ⟨-, hsettled⟩
    · cases hdup
    · exact ⟨n, h.ret hsettled⟩
  | replayRefusal e c he hc hdup =>
    rcases h.at_checkpoint he hc with ⟨hlt, rfl⟩ | ⟨-, hsettled⟩
    · refine ⟨n, h.below, h.above, h.last, ?_⟩
      rintro _ ⟨⟩
      exact ⟨hlt, fun hne => (hne rfl).elim⟩
    · rw [show p.resolve e c.output = p.ret c.output from if_pos (hsettled.2.1 hdup)]
      exact ⟨n, h.ret hsettled⟩
  | insert e created he hphase => exact ⟨n, h.goto he fun _ => by simp [hphase]⟩
  | refuse e he hphase | lookup e he hphase => exact ⟨n, h.goto he fun _ => by simp [hphase]⟩
  | publish e created he hphase hnone => exact (hinside hnone).elim
  | publishUnacknowledged e created he hphase hnone => exact (hinside hnone).elim
  | resolve e existingID he hphase hnone => exact (hinside hnone).elim
  | publishRecorded e created he hphase =>
    obtain ⟨hn, hopen⟩ := h.at_open he (by simp [hphase])
    refine ⟨n, h.settle hn (c := ⟨e.workflowID, false⟩) (by simp [Checkpoint.Final])
      (hcreated he hphase hopen) ?_ ?_ fun e' he' => by cases he'⟩
    · simp [Progress.ret, Progress.record, hopen.2.1]
    · simp [Progress.ret, Progress.record]
  | publishRecordedUnacknowledged e created he hphase =>
    obtain ⟨hn, hopen⟩ := h.at_open he (by simp [hphase])
    refine ⟨n, h.settle hn (c := ⟨e.workflowID, false⟩) (by simp [Checkpoint.Final])
      (hcreated he hphase hopen) ?_ ?_ ?_⟩
    · simp [Progress.goto, Progress.record, hopen.2.1]
    · simp [Progress.goto, Progress.record]
    · rintro _ ⟨⟩
      exact ⟨hn, rfl⟩
  | recordRefusal e existingID he hphase =>
    obtain ⟨hn, hopen⟩ := h.at_open he (by simp [hphase])
    rcases (p.record e ⟨existingID, true⟩).resolve_cases e existingID with ⟨hne, heq⟩ | ⟨rfl, heq⟩
    · rw [heq]
      refine ⟨n, h.settle hn (c := ⟨existingID, true⟩) (fun _ => hne) hopen.2.2 ?_ rfl fun e' he' => by cases he'⟩
      simp [Progress.ret, Progress.record, hopen.2.1]
    · rw [heq]
      refine ⟨n + 1, h.again hopen hn rfl rfl rfl ?_⟩
      rintro _ ⟨⟩
      exact ⟨(congrArg (· + 1) hn).le, rfl⟩
  | recordRefusalUnacknowledged e existingID he hphase =>
    obtain ⟨hn, hopen⟩ := h.at_open he (by simp [hphase])
    by_cases hid : existingID = ""
    · subst hid
      refine ⟨n + 1, h.again hopen hn rfl rfl rfl ?_⟩
      rintro _ ⟨⟩
      exact ⟨Nat.le_succ_of_le hn.le, rfl⟩
    · refine ⟨n, h.settle hn (c := ⟨existingID, true⟩) (fun _ => hid) hopen.2.2 ?_ rfl ?_⟩
      · simp [Progress.goto, Progress.record, hopen.2.1]
      · rintro _ ⟨⟩
        exact ⟨hn, rfl⟩
  | interrupt => cases hm
  | recordFailed => cases hm

end Journals

end Dbos.Dedup
