import DbosTransact.Messages.Notifier
import DbosTransact.SysDb.Tables

/-!
# The notification poller

Where nothing is pushed to it, a process polls for the rows that its waiters wait for. A payload is a workflow
ID and a topic or key, with `::` between them, and is taken apart at the first `::`.
-/

namespace Dbos.Notifier

open Lts

/-- `strings.Cut` at `::`: what stands before it. -/
def cut : List Char → Option (List Char)
  | [] => none
  | c :: cs => if (c :: cs).take 2 = [':', ':'] then some [] else (cut cs).map (c :: ·)

def splitPayloads (payloads : List String) : List String × List String :=
  (payloads.filter fun p => (cut p.toList).isSome,
    (payloads.filterMap fun p => (cut p.toList).map String.ofList).dedup)

def payloadOf (id suffix : String) : String := id ++ "::" ++ suffix

/-- The payloads that a tick notifies; a row is an ID with a topic or key. -/
def poll (payloads : List String) (rows : List (String × String)) : List String :=
  let (wanted, ids) := splitPayloads payloads
  ((rows.filter fun r => r.1 ∈ ids).map fun r => payloadOf r.1 r.2).filter (· ∈ wanted)

def pollNotifications (payloads : List String) (db : Db) : List String :=
  poll payloads ((db.notifications.rows.filter fun n => !n.consumed).map fun n => (n.destinationID, n.topic))

def pollEvents (payloads : List String) (db : Db) : List String :=
  poll payloads (db.events.rows.map fun e => (e.workflowID, e.key))

/-! ### The payloads -/

/-- Every entry of the map is of a payload with a channel. -/
def Registry.Exact (r : Registry) : Prop := ∀ p, p ∈ r.subs ↔ (r.channels p).Nonempty

theorem exact_step {s t : State} {a : Action} (h : s.registry.Exact) (hstep : step s a = some t) :
    t.registry.Exact := by
  intro q
  cases effect_of_step hstep with
  | join p =>
    rw [State.join, Registry.channels_addLocked, Registry.addLocked, AList.mem_insert, h q]
    split <;> simp [*]
  | @release ch w =>
    rw [Registry.channels_unsubscribe]
    simp only [Registry.unsubscribe]
    by_cases hq : q = w.payload
    · subst hq
      split <;> simp_all [Finset.nonempty_iff_ne_empty]
    · split <;> simp [hq, h q]
  | move | other => exact h q

theorem mem_payloads {C : State → Action → Prop} {s : State} (h : Reaches system C s) {p : String} :
    p ∈ s.registry.payloads ↔ ∃ ch, s.Holds ch p := by
  have hexact : s.registry.Exact := by
    refine h.invariant (I := fun s => s.registry.Exact) ?_ fun _ _ _ hs _ => exact_step hs
    rintro s ⟨⟨push, hreg⟩, -⟩ p
    simp [Registry.channels, hreg, newNotifyRegistry]
  rw [Registry.payloads, ← AList.mem_keys, hexact p]
  exact exists_congr (inv_of_reaches h p)

/-- What is cut off is cut off again, whatever is written behind it. -/
theorem cut_eq_some {cs id : List Char} (h : cut cs = some id) :
    (∃ rest, cs = id ++ ':' :: ':' :: rest) ∧ ∀ rest, cut (id ++ ':' :: ':' :: rest) = some id := by
  induction cs generalizing id with
  | nil => cases h
  | cons c cs ih =>
    unfold cut at h
    split_ifs at h with hsep
    · cases h
      refine ⟨⟨(c :: cs).drop 2, ?_⟩, fun rest => by simp [cut]⟩
      conv_lhs => rw [← List.take_append_drop 2 (c :: cs), hsep]
      rfl
    · obtain ⟨id, hid, rfl⟩ := Option.map_eq_some_iff.1 h
      obtain ⟨⟨rest, rfl⟩, hcut⟩ := ih hid
      refine ⟨⟨rest, rfl⟩, fun rest' => ?_⟩
      have htake : (c :: (id ++ ':' :: ':' :: rest')).take 2 = (c :: (id ++ ':' :: ':' :: rest)).take 2 := by
        cases id <;> rfl
      rw [List.cons_append, cut, htake, if_neg hsep, hcut]
      rfl

theorem mem_poll {payloads : List String} {rows : List (String × String)} {p : String} :
    p ∈ poll payloads rows ↔
      p ∈ payloads ∧ ∃ r ∈ rows, p = payloadOf r.1 r.2 ∧ cut p.toList = some r.1.toList := by
  simp only [poll, splitPayloads, List.mem_filter, List.mem_map, List.mem_dedup, List.mem_filterMap,
    Option.map_eq_some_iff, decide_eq_true_eq]
  constructor
  · rintro ⟨⟨r, ⟨hr, q, -, id, hid, hr₁⟩, rfl⟩, hp, -⟩
    refine ⟨hp, r, hr, rfl, ?_⟩
    simpa [payloadOf, ← hr₁] using (cut_eq_some hid).2 r.2.toList
  · rintro ⟨hp, r, hr, rfl, hcut⟩
    exact ⟨⟨r, ⟨hr, _, hp, r.1.toList, hcut, by simp⟩, rfl⟩, hp, by simp [hcut]⟩

/-- **What a tick wakes**, in every run: the payloads that somebody waits for and that are those of a row, if
`strings.Cut` takes the workflow ID of the row from them. -/
theorem polled_iff {C : State → Action → Prop} {s : State} (h : Reaches system C s) (db : Db) (p : String) :
    (p ∈ pollNotifications s.registry.payloads db ↔ (∃ ch, s.Holds ch p) ∧
      ∃ n ∈ db.notifications.rows, n.consumed = false ∧ p = payloadOf n.destinationID n.topic ∧
        cut p.toList = some n.destinationID.toList) ∧
    (p ∈ pollEvents s.registry.payloads db ↔ (∃ ch, s.Holds ch p) ∧
      ∃ e ∈ db.events.rows, p = payloadOf e.workflowID e.key ∧ cut p.toList = some e.workflowID.toList) := by
  simp [pollNotifications, pollEvents, mem_poll, mem_payloads h, and_assoc]

/-- A workflow with the separator in its ID is not woken by its message. -/
theorem unpolled : ∃ s db, Reaches system (fun _ _ => True) s ∧ s.Holds 0 (payloadOf "a::b" "t") ∧
    (∃ n ∈ db.notifications.rows, payloadOf n.destinationID n.topic = payloadOf "a::b" "t") ∧
    payloadOf "a::b" "t" ∉ pollNotifications s.registry.payloads db := by
  let db : Db :=
    { status := .empty, waiters := .empty, events := .empty, eventsHistory := .empty, operations := .empty
      notifications := ⟨[{ messageUUID := "m", destinationID := "a::b", topic := "t" }], by decide⟩ }
  have hs := (Reaches.init (S := system) (C := fun _ _ => True) (s := {}) ⟨⟨false, rfl⟩, rfl⟩).snoc
    (a := .subscribe (payloadOf "a::b" "t")) trivial rfl
  refine ⟨_, db, hs, ⟨_, rfl, rfl, by decide⟩, ⟨_, List.mem_singleton_self _, rfl⟩, fun h => ?_⟩
  obtain ⟨-, n, hn, -, -, hcut⟩ := (polled_iff hs db _).1.1 h
  obtain rfl := List.mem_singleton.1 hn
  revert hcut
  decide +kernel

end Dbos.Notifier
