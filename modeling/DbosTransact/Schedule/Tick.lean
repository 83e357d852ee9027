import DbosTransact.Lib.Calendar
import DbosTransact.Lib.Transition
import DbosTransact.SysDb.StatusTable

/-!
# The workflow of a schedule tick

Any number of executors fire the ticks of one schedule, and any number of backfills go over an interval of
them. Both derive the ID of a tick's workflow from its formatted time, in the time zone of the schedule or
else in the local zone of the executor, or the zone of the start of the backfill.
-/

namespace Dbos

open Calendar Lts Relational

namespace Schedule

/-- `WorkflowSchedule`, with its cron expression as the set of its ticks. -/
structure WorkflowSchedule where
  scheduleName : String
  workflowName : String
  queueName : String := ""
  applicationName : String := ""
  cronTimezone : Option Zone := none
  cron : Cron

namespace WorkflowSchedule

variable (sched : WorkflowSchedule)

/-- `Next` of the parsed expression. -/
def next (t : Time) : Time := ⟨sched.cron.next t.instant, sched.cronTimezone.getD t.zone⟩

def workflowID (t : Time) : String := "sched-" ++ sched.scheduleName ++ "-" ++ t.format

def backfillTicks (start : Time) (stop : ℤ) : List Time :=
  (sched.cron.between start.instant stop).map fun τ => ⟨τ, sched.cronTimezone.getD start.zone⟩

end WorkflowSchedule

structure Submission where
  appName : String
  executorID : String := ""
  applicationVersion : String := ""
  createdAt : Int := 0
  inputs : Time → Option String
  serialization : String := ""

def WorkflowSchedule.input (sched : WorkflowSchedule) (sub : Submission) (t : Time) :
    InsertWorkflowStatusInput where
  workflowID := sched.workflowID t
  status := .enqueued
  name := sched.workflowName
  queueName := if sched.queueName = "" then internalQueueName else sched.queueName
  executorID := sub.executorID
  applicationVersion := sub.applicationVersion
  createdAt := sub.createdAt
  inputs := sub.inputs t
  serialization := sub.serialization
  applicationName := if sched.applicationName = "" then sub.appName else sched.applicationName

/-- The transaction that enqueues a tick: the table after it, and the tick if its row is new. -/
def enqueueTick (sched : WorkflowSchedule) (sub : Submission) (table : StatusTable) (t : Time) :
    Option (StatusTable × List Time) :=
  match table.insertWorkflowStatus ((sched.input sub t).row sub.appName) with
  | .ok table' => some (table', if (table.find? (sched.workflowID t)).isSome then [] else [t])
  | .error _ => none

/-- The loop of `BackfillSchedule`: a tick whose workflow is there is passed over, and an error undoes
the whole transaction. -/
def backfill (sched : WorkflowSchedule) (sub : Submission) :
    StatusTable → List Time → Option (StatusTable × List Time)
  | table, [] => some (table, [])
  | table, t :: ts =>
    if (table.find? (sched.workflowID t)).isSome then backfill sched sub table ts
    else
      (enqueueTick sched sub table t).bind fun (table', new) =>
        (backfill sched sub table' ts).map fun (table'', new') => (table'', new ++ new')

/-- The table, the fired ticks whose workflow was not there when the executor looked, and the ticks for
which a workflow was enqueued, in order. -/
structure State where
  table : StatusTable
  checked : List Time
  enqueued : List Time

def State.enqueuedFor (s : State) (τ : ℤ) : List Time := s.enqueued.filter (·.instant = τ)

/-- An executor in a time zone fires the first tick after an instant and looks for its workflow; the
transaction of a fired tick runs, and may run again; a backfill commits; other operations. -/
inductive Action
  | fire (zone : Zone) (since : ℤ)
  | enqueue (k : ℕ) (sub : Submission) (again : Bool)
  | backfillSchedule (start stop : Time) (sub : Submission)
  | others (op : Lifecycle.Operation)

def step (sched : WorkflowSchedule) (s : State) : Action → Option State
  | .fire zone since =>
    let t := sched.next ⟨since, zone⟩
    if (s.table.find? (sched.workflowID t)).isSome then some s
    else some { s with checked := s.checked ++ [t] }
  | .enqueue k sub again =>
    s.checked[k]?.bind fun t =>
      (enqueueTick sched sub s.table t).map fun (table, new) =>
        { table := table, checked := if again then s.checked else s.checked.eraseIdx k,
          enqueued := s.enqueued ++ new }
  | .backfillSchedule start stop sub =>
    (backfill sched sub s.table (sched.backfillTicks start stop.instant)).map fun (table, new) =>
      { s with table := table, enqueued := s.enqueued ++ new }
  | .others op =>
    if op.removes then none else (Lifecycle.step s.table op).map fun table => { s with table := table }

def system (sched : WorkflowSchedule) : System State Action where
  init s := s.checked = [] ∧ s.enqueued = []
  step := step sched

section Invariant

variable {sched : WorkflowSchedule} {s : State}

/-- The ID depends on the instant and on the offset at it. -/
theorem workflowID_congr {a b : Time} (hinstant : a.instant = b.instant)
    (hoffset : a.zone.offset a.instant = b.zone.offset b.instant) :
    sched.workflowID a = sched.workflowID b := by
  rw [WorkflowSchedule.workflowID, WorkflowSchedule.workflowID, Time.format, Time.format, hoffset, hinstant]

def Present (sched : WorkflowSchedule) (table : StatusTable) (t : Time) : Prop :=
  (table.find? (sched.workflowID t)).isSome = true

/-- What a transaction leaves: the rows that were there, and one row for each of its new ticks, which
have different IDs and were not there. -/
structure Enqueues (sched : WorkflowSchedule) (table table' : StatusTable) (new : List Time) : Prop where
  kept : ∀ id, (table.find? id).isSome = true → (table'.find? id).isSome = true
  present : ∀ t ∈ new, Present sched table' t
  absent : ∀ t ∈ new, ¬ Present sched table t
  nodup : (new.map sched.workflowID).Nodup

theorem Enqueues.refl (table : StatusTable) : Enqueues sched table table [] :=
  ⟨fun _ h => h, by simp, by simp, List.nodup_nil⟩

theorem Enqueues.trans {t t' t'' : StatusTable} {new new' : List Time} (h : Enqueues sched t t' new)
    (h' : Enqueues sched t' t'' new') : Enqueues sched t t'' (new ++ new') where
  kept id hid := h'.kept id (h.kept id hid)
  present x hx := by
    rcases List.mem_append.1 hx with hx | hx
    · exact h'.kept _ (h.present x hx)
    · exact h'.present x hx
  absent x hx := by
    rcases List.mem_append.1 hx with hx | hx
    · exact h.absent x hx
    · exact fun hold => h'.absent x hx (h.kept _ hold)
  nodup := by
    rw [List.map_append]
    refine List.Nodup.append h.nodup h'.nodup fun id hid hid' => ?_
    obtain ⟨x, hx, rfl⟩ := List.mem_map.1 hid
    obtain ⟨y, hy, heq⟩ := List.mem_map.1 hid'
    refine h'.absent y hy ?_
    rw [Present, heq]
    exact h.present x hx

theorem enqueues_enqueueTick {sub : Submission} {table table' : StatusTable} {t : Time} {new : List Time}
    (h : enqueueTick sched sub table t = some (table', new)) :
    Enqueues sched table table' new ∧ ∀ x ∈ new, x = t := by
  unfold enqueueTick StatusTable.insertWorkflowStatus at h
  split at h
  case h_2 => cases h
  rename_i hinsert
  split at hinsert
  case h_2 => cases hinsert
  obtain rfl := Except.ok.inj hinsert
  cases h
  have hkey : ((sched.input sub t).row sub.appName).workflowID = sched.workflowID t := rfl
  refine ⟨⟨fun id hid => ?_, fun x hx => ?_, fun x hx => ?_, ?_⟩, fun x hx => ?_⟩
  · rw [Table.find?_upsert]
    split_ifs with heq
    · rfl
    · exact hid
  · split_ifs at hx
    · cases hx
    · obtain rfl := List.mem_singleton.1 hx
      rw [Present, Table.find?_upsert, if_pos hkey]
      rfl
  · split_ifs at hx with hthere
    · cases hx
    · obtain rfl := List.mem_singleton.1 hx
      exact hthere
  · split_ifs
    · exact List.nodup_nil
    · exact List.nodup_singleton _
  · split_ifs at hx
    · cases hx
    · exact List.mem_singleton.1 hx

theorem enqueues_backfill {sub : Submission} {table table' : StatusTable} {ts new : List Time}
    (h : backfill sched sub table ts = some (table', new)) :
    Enqueues sched table table' new ∧ ∀ x ∈ new, x ∈ ts := by
  induction ts generalizing table new with
  | nil =>
    obtain ⟨rfl, rfl⟩ := Prod.mk.inj (Option.some.inj h)
    exact ⟨.refl table, by simp⟩
  | cons t ts ih =>
    rw [backfill] at h
    split_ifs at h with hthere
    · obtain ⟨henqueues, hmem⟩ := ih h
      exact ⟨henqueues, fun x hx => List.mem_cons_of_mem t (hmem x hx)⟩
    · obtain ⟨⟨middle, first⟩, hfirst, h⟩ := Option.bind_eq_some_iff.1 h
      obtain ⟨⟨last, rest⟩, hrest, h⟩ := Option.map_eq_some_iff.1 h
      cases h
      obtain ⟨hone, hsame⟩ := enqueues_enqueueTick hfirst
      obtain ⟨hmore, hmem⟩ := ih hrest
      refine ⟨hone.trans hmore, fun x hx => ?_⟩
      rcases List.mem_append.1 hx with hx | hx
      · exact List.mem_cons.2 (.inl (hsame x hx))
      · exact List.mem_cons_of_mem t (hmem x hx)

/-- The enqueued ticks have different IDs, their workflows are there, and a schedule with a time zone has
all its ticks in it. -/
structure Inv (sched : WorkflowSchedule) (s : State) : Prop where
  present : ∀ t ∈ s.enqueued, Present sched s.table t
  nodup : (s.enqueued.map sched.workflowID).Nodup
  zone : ∀ z, sched.cronTimezone = some z → ∀ t ∈ s.checked ++ s.enqueued, t.zone = z

theorem Inv.enqueues (h : Inv sched s) {table : StatusTable} {new checked : List Time}
    (henqueues : Enqueues sched s.table table new) (hchecked : ∀ t ∈ checked, t ∈ s.checked)
    (hzone : ∀ z, sched.cronTimezone = some z → ∀ t ∈ new, t.zone = z) :
    Inv sched ⟨table, checked, s.enqueued ++ new⟩ where
  present t ht := by
    rcases List.mem_append.1 ht with ht | ht
    · exact henqueues.kept _ (h.present t ht)
    · exact henqueues.present t ht
  nodup := by
    rw [List.map_append]
    refine List.Nodup.append h.nodup henqueues.nodup fun id hid hid' => ?_
    obtain ⟨x, hx, rfl⟩ := List.mem_map.1 hid
    obtain ⟨y, hy, heq⟩ := List.mem_map.1 hid'
    refine henqueues.absent y hy ?_
    rw [Present, heq]
    exact h.present x hx
  zone z hz t ht := by
    rcases List.mem_append.1 ht with ht | ht
    · exact h.zone z hz t (List.mem_append_left _ (hchecked t ht))
    · rcases List.mem_append.1 ht with ht | ht
      · exact h.zone z hz t (List.mem_append_right _ ht)
      · exact hzone z hz t ht

theorem inv_of_reaches {C : State → Action → Prop} (h : Reaches (system sched) C s) : Inv sched s := by
  refine h.invariant (I := Inv sched) ?_ ?_
  · rintro s ⟨hchecked, henqueued⟩
    refine ⟨by simp [henqueued], by simp [henqueued], by simp [hchecked, henqueued]⟩
  · intro s a s' hI _ hstep
    cases a with
    | fire zone since =>
      simp only [system, step] at hstep
      split_ifs at hstep
      · cases hstep
        exact hI
      · cases hstep
        refine ⟨hI.present, hI.nodup, fun z hz t ht => ?_⟩
        simp only [List.append_assoc, List.mem_append, List.mem_singleton] at ht
        rcases ht with ht | rfl | ht
        · exact hI.zone z hz t (List.mem_append_left _ ht)
        · rw [WorkflowSchedule.next, hz]
          rfl
        · exact hI.zone z hz t (List.mem_append_right _ ht)
    | enqueue k sub again =>
      obtain ⟨t, ht, hstep⟩ := Option.bind_eq_some_iff.1 hstep
      obtain ⟨⟨table, new⟩, henqueue, rfl⟩ := Option.map_eq_some_iff.1 hstep
      obtain ⟨henqueues, hsame⟩ := enqueues_enqueueTick henqueue
      refine hI.enqueues henqueues (fun x hx => ?_) fun z hz x hx => ?_
      · split_ifs at hx
        · exact hx
        · exact List.mem_of_mem_eraseIdx hx
      · rw [hsame x hx]
        exact hI.zone z hz t (List.mem_append_left _ (List.mem_of_getElem? ht))
    | backfillSchedule start stop sub =>
      obtain ⟨⟨table, new⟩, hbackfill, rfl⟩ := Option.map_eq_some_iff.1 hstep
      obtain ⟨henqueues, hmem⟩ := enqueues_backfill hbackfill
      refine hI.enqueues henqueues (fun x hx => hx) fun z hz x hx => ?_
      obtain ⟨τ, -, rfl⟩ := List.mem_map.1 (hmem x hx)
      rw [hz]
      rfl
    | others op =>
      simp only [system, step] at hstep
      split_ifs at hstep with hremoves
      obtain ⟨table, htable, rfl⟩ := Option.map_eq_some_iff.1 hstep
      refine ⟨fun t ht => ?_, hI.nodup, hI.zone⟩
      obtain ⟨r, hr⟩ := Option.isSome_iff_exists.1 (hI.present t ht)
      rw [Present, Lifecycle.find?_step_of_find? htable (Bool.eq_false_of_not_eq_true hremoves) hr]
      rfl

/-- Two workflows for one tick were enqueued at different offsets. -/
theorem Inv.length_le_one (h : Inv sched s) {τ : ℤ}
    (hsame : ∀ a ∈ s.enqueuedFor τ, ∀ b ∈ s.enqueuedFor τ, a.zone.offset τ = b.zone.offset τ) :
    (s.enqueuedFor τ).length ≤ 1 := by
  have hnodup : ((s.enqueuedFor τ).map sched.workflowID).Nodup :=
    h.nodup.sublist (List.filter_sublist.map _)
  have hinstant : ∀ a ∈ s.enqueuedFor τ, a.instant = τ := by
    intro a ha
    simpa using (List.mem_filter.1 ha).2
  match hlist : s.enqueuedFor τ with
  | [] => simp
  | [a] => simp
  | a :: b :: rest =>
    have ha : a ∈ s.enqueuedFor τ := by simp [hlist]
    have hb : b ∈ s.enqueuedFor τ := by simp [hlist]
    have heq : sched.workflowID a = sched.workflowID b :=
      workflowID_congr ((hinstant a ha).trans (hinstant b hb).symm)
        (by rw [hinstant a ha, hinstant b hb]; exact hsame a ha b hb)
    rw [hlist] at hnodup
    simp [heq] at hnodup

end Invariant

/-- **When a tick is enqueued once.** -/
theorem tick_enqueued_once_iff (sched : WorkflowSchedule) {s : State}
    (h : Reaches (system sched) (fun _ _ => True) s) (τ : ℤ) :
    ((s.enqueuedFor τ).length ≤ 1 ↔
      ∀ a ∈ s.enqueuedFor τ, ∀ b ∈ s.enqueuedFor τ, a.zone.offset τ = b.zone.offset τ) ∧
    (sched.cronTimezone.isSome = true → (s.enqueuedFor τ).length ≤ 1) := by
  have hI := inv_of_reaches h
  refine ⟨⟨fun hle a ha b hb => ?_, hI.length_le_one⟩, fun hzone => ?_⟩
  · match hlist : s.enqueuedFor τ with
    | [] => rw [hlist] at ha; cases ha
    | [x] =>
      rw [hlist, List.mem_singleton] at ha hb
      rw [ha, hb]
    | x :: y :: rest =>
      rw [hlist] at hle
      simp at hle
  · obtain ⟨z, hz⟩ := Option.isSome_iff_exists.1 hzone
    refine hI.length_le_one fun a ha b hb => ?_
    have hin : ∀ x ∈ s.enqueuedFor τ, x.zone = z := fun x hx =>
      hI.zone z hz x (List.mem_append_right _ (List.mem_of_mem_filter hx))
    rw [hin a ha, hin b hb]

/-! ### An executor and a backfill in two time zones -/

def hour : ℤ := 3600 * second

def hourly : WorkflowSchedule where
  scheduleName := "report"
  workflowName := "report"
  cron := .every hour (by decide)

def start : State := ⟨.empty, [], []⟩

def submission : Submission := { appName := "app", inputs := fun _ => none }

/-- The live scheduler of an executor fires the tick of one o'clock, and a backfill goes over the first
two hours. -/
def fireAndBackfill (live backfill : Zone) : List Action :=
  [.fire live 0, .enqueue 0 submission false,
    .backfillSchedule ⟨0, backfill⟩ ⟨2 * hour, backfill⟩ submission]

theorem tick_enqueued_twice :
    ∃ s, Reaches (system hourly) (fun _ _ => True) s ∧ (s.enqueuedFor hour).length = 2 := by
  obtain ⟨s, hs, hp⟩ := exists_reaches (S := system hourly) (fun _ _ => True) (s := start)
    (fireAndBackfill (.fixed 3600) .utc) (fun s => (s.enqueuedFor hour).length = 2) ⟨rfl, rfl⟩
    (fun _ _ => trivial) (by decide +kernel)
  exact ⟨s, hs, of_decide_eq_true hp⟩

/-- Both in UTC: the backfill passes over the tick. -/
theorem tick_enqueued_once_utc :
    ∃ s, Reaches (system hourly) (fun _ _ => True) s ∧ s.enqueuedFor hour ≠ [] ∧
      ∀ a ∈ s.enqueuedFor hour, ∀ b ∈ s.enqueuedFor hour, a.zone.offset hour = b.zone.offset hour := by
  obtain ⟨s, hs, hp⟩ := exists_reaches (S := system hourly) (fun _ _ => True) (s := start)
    (fireAndBackfill .utc .utc) (fun s => (s.enqueuedFor hour).length = 1) ⟨rfl, rfl⟩
    (fun _ _ => trivial) (by decide +kernel)
  have hlength : (s.enqueuedFor hour).length = 1 := of_decide_eq_true hp
  refine ⟨s, hs, fun hnil => ?_, (tick_enqueued_once_iff hourly hs hour).1.1 hlength.le⟩
  rw [hnil] at hlength
  cases hlength

end Schedule

end Dbos
