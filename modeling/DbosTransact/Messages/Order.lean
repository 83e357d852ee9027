import DbosTransact.Lib.Transition
import DbosTransact.SysDb.Notifications
import Mathlib.Data.List.Induction

/-!
# The order of messages

`Send`s to one workflow and topic, made one after the other with clock readings that do not decrease, and
the `Recv`s of that workflow in between. A `Send` with an identifier that is taken stores nothing (`stored`).
Messages are received in the order of `created_at_epoch_ms`, and in any order between equal ones.
-/

namespace Dbos.MessageOrder

open Relational Lts

/-- A call of `Send`, with the random identifier that it draws and the clock reading that it takes. -/
structure SendCall where
  input : SendInput
  fresh : String
  now : Int
  deriving DecidableEq, Repr

def SendCall.row (c : SendCall) : NotificationRow := c.input.notification c.fresh c.now

def stored (sends : List SendCall) : NotificationTable :=
  sends.foldl (fun t c => t.insert c.row) .empty

/-- The messages, the calls of `Send` made and still to be made, and what `Recv` has returned. -/
structure State where
  notifications : NotificationTable
  made : List SendCall
  toSend : List SendCall
  received : List (Option String × String)

inductive Action
  | send
  | recv (messageUUID : String)
  deriving DecidableEq, Repr

variable (destinationID topic : String)

/-- The steps. A `Recv` that finds no message waits, or times out and returns none. -/
def step (s : State) : Action → Option State
  | .send =>
    match s.toSend with
    | [] => none
    | c :: rest => some
      { s with
        notifications := s.notifications.insert c.row
        made := s.made ++ [c]
        toSend := rest }
  | .recv messageUUID =>
    match s.notifications.find? messageUUID with
    | none => none
    | some r =>
      if s.notifications.Oldest destinationID topic r then
        some { s with
          notifications := s.notifications.consume messageUUID
          received := s.received ++ [r.content] }
      else none

/-- Before the first `Send`: no message for the workflow and topic, and the identifiers of the
messages are not taken by others. -/
def Init (sends : List SendCall) (s : State) : Prop :=
  (∀ r ∈ s.notifications.rows, r.addressed destinationID topic = false ∧
    ∀ c ∈ sends, c.row.messageUUID ≠ r.messageUUID) ∧
  s.made = [] ∧ s.toSend = sends ∧ s.received = []

def system (sends : List SendCall) : System State Action where
  init := Init destinationID topic sends
  step := step destinationID topic

/-- Messages stored with the same clock reading have the same contents. -/
def TiesAgree (sends : List SendCall) : Prop :=
  ∀ a ∈ (stored sends).rows, ∀ b ∈ (stored sends).rows, a.createdAt = b.createdAt →
    a.content = b.content

instance (sends : List SendCall) : Decidable (TiesAgree sends) :=
  inferInstanceAs (Decidable (∀ _ ∈ (stored sends).rows, _))

/-! ### What is stored -/

section Stored

variable {sends more : List SendCall} {c : SendCall}

theorem stored_snoc : stored (sends ++ [c]) = (stored sends).insert c.row := by
  simp [stored, List.foldl_append]

theorem stored_sublist (sends : List SendCall) :
    (stored sends).rows.Sublist (sends.map SendCall.row) := by
  induction sends using List.reverseRecOn with
  | nil => exact List.nil_sublist _
  | append_singleton sends c ih =>
    rw [stored_snoc, Table.rows_insert, List.map_append]
    split_ifs
    · exact ih.append_right _
    · exact ih.trans (List.sublist_append_left _ _)

theorem stored_isPrefix (sends more : List SendCall) :
    (stored sends).rows <+: (stored (sends ++ more)).rows := by
  induction more using List.reverseRecOn with
  | nil => simp
  | append_singleton more c ih =>
    rw [← List.append_assoc, stored_snoc, Table.rows_insert]
    split_ifs
    · exact ih.trans (List.prefix_append _ _)
    · exact ih

theorem sorted_stored (h : sends.Pairwise (·.now ≤ ·.now)) :
    (stored sends).rows.Pairwise (·.createdAt ≤ ·.createdAt) := by
  have hrows : (sends.map SendCall.row).Pairwise (·.createdAt ≤ ·.createdAt) := List.pairwise_map.2 h
  exact hrows.sublist (stored_sublist sends)

end Stored

/-! ### The invariant -/

section Invariant

variable {destinationID topic : String} {sends : List SendCall} {s s' : State}

def clear (r : NotificationRow) : NotificationRow := { r with consumed := false }

def State.mine (s : State) (destinationID topic : String) : List NotificationRow :=
  s.notifications.rows.filter (·.addressed destinationID topic)

structure Inv (destinationID topic : String) (sends : List SendCall) (s : State) : Prop where
  made : s.made ++ s.toSend = sends
  stored : (s.mine destinationID topic).map clear = (stored s.made).rows
  own : ∀ r ∈ s.notifications.rows, (∃ c ∈ sends, c.row.messageUUID = r.messageUUID) →
    r.addressed destinationID topic = true

/-- What was received, followed by what is left to receive, is what was sent. -/
def InOrder (destinationID topic : String) (s : State) : Prop :=
  s.received ++ (s.notifications.unconsumed destinationID topic).map (·.content) =
    (s.mine destinationID topic).map (·.content)

theorem unconsumed_eq_filter (s : State) : s.notifications.unconsumed destinationID topic =
    (s.mine destinationID topic).filter (!·.consumed) := by
  simp [State.mine, NotificationTable.unconsumed, List.filter_filter, Bool.and_comm]

theorem Inv.find?_eq_none_iff (h : Inv destinationID topic sends s) {c : SendCall} (hc : c ∈ sends) :
    s.notifications.find? c.row.messageUUID = none ↔
      (MessageOrder.stored s.made).find? c.row.messageUUID = none := by
  rw [Table.find?_eq_none, Table.find?_eq_none, ← h.stored]
  constructor
  · intro hnone r hr
    obtain ⟨r, hmine, rfl⟩ := List.mem_map.1 hr
    exact hnone r (List.mem_filter.1 hmine).1
  · intro hnone r hr huuid
    have hmine : r ∈ s.mine destinationID topic :=
      List.mem_filter.2 ⟨hr, h.own r hr ⟨c, hc, huuid.symm⟩⟩
    exact hnone _ (List.mem_map_of_mem hmine) huuid

theorem inv_init (h : Init destinationID topic sends s) : Inv destinationID topic sends s where
  made := by simp [h.2.1, h.2.2.1]
  stored := by
    have hnone : s.mine destinationID topic = [] :=
      List.filter_eq_nil_iff.2 fun r hr => by simp [(h.1 r hr).1]
    simp [hnone, h.2.1, MessageOrder.stored, Table.empty]
  own r hr := by
    rintro ⟨c, hc, huuid⟩
    exact ((h.1 r hr).2 c hc huuid).elim

theorem send_cases (h : step destinationID topic s .send = some s') :
    ∃ c rest, s.toSend = c :: rest ∧ s' =
      { s with notifications := s.notifications.insert c.row, made := s.made ++ [c], toSend := rest } := by
  simp only [step] at h
  split at h
  · cases h
  · exact ⟨_, _, by assumption, (Option.some.inj h).symm⟩

theorem recv_cases {messageUUID : String} (h : step destinationID topic s (.recv messageUUID) = some s') :
    ∃ r, s.notifications.find? messageUUID = some r ∧ s.notifications.Oldest destinationID topic r ∧
      s' = { s with
        notifications := s.notifications.consume r.messageUUID
        received := s.received ++ [r.content] } := by
  simp only [step] at h
  split at h
  · cases h
  · rename_i r hr
    split_ifs at h with hold
    refine ⟨r, hr, hold, ?_⟩
    rw [Table.key_of_find? hr]
    exact (Option.some.inj h).symm

theorem unconsumed_consume (t : NotificationTable) (messageUUID : String) :
    (t.consume messageUUID).unconsumed destinationID topic =
      (t.unconsumed destinationID topic).filter (·.messageUUID ≠ messageUUID) := by
  unfold NotificationTable.unconsumed NotificationTable.consume Table.update
  dsimp only
  induction t.rows with
  | nil => rfl
  | cons r rows ih =>
    rw [List.map_cons, List.filter_cons, List.filter_cons, ih]
    by_cases hr : r.messageUUID = messageUUID
    · simp only [hr, decide_true, if_true, NotificationRow.consume, Bool.not_true, Bool.and_false,
        Bool.false_eq_true, if_false]
      split_ifs <;> simp [hr]
    · simp only [hr, decide_false, Bool.false_eq_true, if_false]
      split_ifs <;> simp [hr]

theorem mine_consume (t : NotificationTable) (messageUUID : String) :
    (t.consume messageUUID).rows.filter (·.addressed destinationID topic) =
      (t.rows.filter (·.addressed destinationID topic)).map fun r =>
        if r.messageUUID = messageUUID then r.consume else r := by
  have haddressed : ∀ r : NotificationRow, (if r.messageUUID = messageUUID then r.consume else r).addressed
      destinationID topic = r.addressed destinationID topic := by
    intro r
    split_ifs <;> rfl
  simp [NotificationTable.consume, Table.update, List.filter_map, Function.comp_def, haddressed]

theorem inv_step {a : Action} (h : Inv destinationID topic sends s)
    (hto : ∀ c ∈ sends, c.row.addressed destinationID topic = true)
    (hstep : step destinationID topic s a = some s') : Inv destinationID topic sends s' := by
  cases a with
  | send =>
    obtain ⟨c, rest, htoSend, rfl⟩ := send_cases hstep
    have hc : c ∈ sends := by simp [← h.made, htoSend]
    refine ⟨by simp [← h.made, htoSend], ?_, fun r hr hmine => ?_⟩
    · have hfind := h.find?_eq_none_iff hc
      have hstored := h.stored
      unfold State.mine at hstored ⊢
      rw [stored_snoc, Table.rows_insert, Table.rows_insert, ← hstored]
      by_cases hnone : s.notifications.find? c.row.messageUUID = none
      · rw [if_pos hnone, if_pos (hfind.1 hnone), List.filter_append, List.map_append,
          List.filter_cons_of_pos (hto c hc)]
        rfl
      · rw [if_neg hnone, if_neg fun h => hnone (hfind.2 h)]
    · obtain hr | rfl := Table.mem_of_mem_insert hr
      · exact h.own r hr hmine
      · exact hto c hc
  | recv messageUUID =>
    obtain ⟨r, _, _, rfl⟩ := recv_cases hstep
    refine ⟨h.made, ?_, fun r' hr' hmine => ?_⟩
    · have hclear : clear ∘ (fun r' : NotificationRow =>
          if r'.messageUUID = r.messageUUID then r'.consume else r') = clear := by
        funext r'
        simp only [Function.comp_apply]
        split_ifs <;> rfl
      have hstored := h.stored
      unfold State.mine at hstored ⊢
      rw [mine_consume, List.map_map, hclear, hstored]
    · obtain ⟨r₀, hr₀, rfl⟩ := NotificationTable.mem_consume.1 hr'
      split_ifs at hmine ⊢
      · exact h.own r₀ hr₀ hmine
      · exact h.own r₀ hr₀ hmine

/-- Before a message that is among the oldest there are only messages with the same clock reading. -/
theorem cons_filter_content {U : List NotificationRow} {r : NotificationRow}
    (hsorted : U.Pairwise (·.createdAt ≤ ·.createdAt)) (hnodup : (U.map (·.messageUUID)).Nodup)
    (hties : ∀ a ∈ U, ∀ b ∈ U, a.createdAt = b.createdAt → a.content = b.content) (hr : r ∈ U)
    (hold : ∀ r' ∈ U, r.createdAt ≤ r'.createdAt) :
    r.content :: (U.filter (·.messageUUID ≠ r.messageUUID)).map (·.content) = U.map (·.content) := by
  obtain ⟨pre, post, rfl⟩ := List.append_of_mem hr
  rw [List.map_append, List.map_cons, List.nodup_append, List.nodup_cons] at hnodup
  obtain ⟨_, ⟨hpost, _⟩, hpre⟩ := hnodup
  have hfilterPre : pre.filter (·.messageUUID ≠ r.messageUUID) = pre := by
    refine List.filter_eq_self.2 fun x hx => decide_eq_true fun heq => ?_
    exact hpre _ (List.mem_map_of_mem hx) _ List.mem_cons_self heq
  have hfilterPost : post.filter (·.messageUUID ≠ r.messageUUID) = post := by
    refine List.filter_eq_self.2 fun x hx => decide_eq_true fun heq => ?_
    exact hpost (heq ▸ List.mem_map_of_mem hx)
  have hsame : pre.map (·.content) = List.replicate pre.length r.content := by
    refine List.eq_replicate_iff.2 ⟨by simp, fun x hx => ?_⟩
    obtain ⟨r', hr', rfl⟩ := List.mem_map.1 hx
    have hle : r'.createdAt ≤ r.createdAt := (List.pairwise_append.1 hsorted).2.2 r' hr' r (by simp)
    have hmem : r' ∈ pre ++ r :: post := List.mem_append_left _ hr'
    exact hties r' hmem r hr (Int.le_antisymm hle (hold r' hmem))
  rw [List.filter_append, List.filter_cons_of_neg (by simp), hfilterPre, hfilterPost, List.map_append,
    List.map_append, List.map_cons, hsame, ← List.cons_append, ← List.replicate_succ,
    List.replicate_succ', List.append_assoc, List.singleton_append]

theorem Inv.sorted (h : Inv destinationID topic sends s) (hclock : sends.Pairwise (·.now ≤ ·.now)) :
    (s.mine destinationID topic).Pairwise (·.createdAt ≤ ·.createdAt) := by
  have hmade : s.made.Pairwise (·.now ≤ ·.now) := by
    rw [← h.made] at hclock
    exact (List.pairwise_append.1 hclock).1
  have hstored := sorted_stored hmade
  rw [← h.stored, List.pairwise_map] at hstored
  exact hstored

theorem Inv.ties (h : Inv destinationID topic sends s) (hties : TiesAgree sends) :
    ∀ a ∈ s.mine destinationID topic, ∀ b ∈ s.mine destinationID topic,
      a.createdAt = b.createdAt → a.content = b.content := by
  have hmem : ∀ a ∈ s.mine destinationID topic, clear a ∈ (MessageOrder.stored sends).rows := by
    intro a ha
    rw [← h.made]
    exact (stored_isPrefix _ _).subset (h.stored ▸ List.mem_map_of_mem ha)
  exact fun a ha b hb hab => hties (clear a) (hmem a ha) (clear b) (hmem b hb) hab

/-- Where ties agree, messages are received in order. -/
theorem inOrder_step {a : Action} (h : Inv destinationID topic sends s)
    (hto : ∀ c ∈ sends, c.row.addressed destinationID topic = true)
    (hclock : sends.Pairwise (·.now ≤ ·.now)) (hties : TiesAgree sends)
    (horder : InOrder destinationID topic s)
    (hstep : step destinationID topic s a = some s') : InOrder destinationID topic s' := by
  cases a with
  | send =>
    obtain ⟨c, rest, htoSend, rfl⟩ := send_cases hstep
    have hc : c ∈ sends := by simp [← h.made, htoSend]
    unfold InOrder State.mine NotificationTable.unconsumed at *
    dsimp only at *
    rw [Table.rows_insert]
    split_ifs
    · have hunconsumed : c.row.consumed = false := rfl
      rw [List.filter_append, List.filter_append, List.map_append, List.map_append,
        ← List.append_assoc, horder]
      simp [hto c hc, hunconsumed]
    · exact horder
  | recv messageUUID =>
    obtain ⟨r, _, ⟨hr, hold⟩, rfl⟩ := recv_cases hstep
    have hsub : (s.notifications.unconsumed destinationID topic).Sublist (s.mine destinationID topic) := by
      rw [unconsumed_eq_filter]
      exact List.filter_sublist
    have hnodup : ((s.notifications.unconsumed destinationID topic).map (·.messageUUID)).Nodup :=
      s.notifications.nodup.sublist (List.filter_sublist.map _)
    have hnext := cons_filter_content ((h.sorted hclock).sublist hsub) hnodup
      (fun a ha b hb => h.ties hties a (hsub.subset ha) b (hsub.subset hb)) hr hold
    have hcontent : (fun r : NotificationRow => r.content) ∘ (fun r' : NotificationRow =>
        if r'.messageUUID = r.messageUUID then r'.consume else r') = fun r' => r'.content := by
      funext r'
      simp only [Function.comp_apply]
      split_ifs <;> rfl
    unfold InOrder State.mine at horder ⊢
    dsimp only
    rw [unconsumed_consume, mine_consume, List.map_map, hcontent, ← horder, ← hnext, List.append_assoc,
      List.singleton_append]

end Invariant

/-! ### In order, exactly where ties agree -/

section Exact

variable {destinationID topic : String} {sends : List SendCall} {s s' : State}

/-- What `Recv` returns, in order, if the messages are received in the order in which they are
stored. -/
def contents (sends : List SendCall) : List (Option String × String) :=
  (stored sends).rows.map (·.content)

theorem received_isPrefix (hto : ∀ c ∈ sends, c.row.addressed destinationID topic = true)
    (hclock : sends.Pairwise (·.now ≤ ·.now)) (hties : TiesAgree sends)
    (h : Reaches (system destinationID topic sends) (fun _ _ => True) s) :
    s.received <+: contents sends := by
  obtain ⟨hinv, horder⟩ := h.invariant
    (I := fun s => Inv destinationID topic sends s ∧ InOrder destinationID topic s)
    (fun s hs => ⟨inv_init hs, by
      have hnone : s.mine destinationID topic = [] :=
        List.filter_eq_nil_iff.2 fun r hr => by simp [(hs.1 r hr).1]
      simp [InOrder, unconsumed_eq_filter, hnone, hs.2.2.2]⟩)
    (fun s a s' hs _ hstep => ⟨inv_step hs.1 hto hstep, inOrder_step hs.1 hto hclock hties hs.2 hstep⟩)
  have hmine : (s.mine destinationID topic).map (·.content) = contents s.made := by
    rw [contents, ← hinv.stored, List.map_map]
    rfl
  have hmade : contents s.made <+: contents sends := by
    rw [← hinv.made]
    exact (stored_isPrefix _ _).map _
  refine List.IsPrefix.trans ?_ hmade
  rw [← hmine, ← horder]
  exact List.prefix_append _ _

def start (sends : List SendCall) : State := ⟨.empty, [], sends, []⟩

theorem init_start (sends : List SendCall) : (system destinationID topic sends).init (start sends) :=
  ⟨by simp [start, Table.empty], rfl, rfl, rfl⟩

theorem exec_sends (destinationID topic : String) (all made toSend : List SendCall) :
    exec (system destinationID topic all) ⟨stored made, made, toSend, []⟩
        (List.replicate toSend.length .send) =
      some ⟨stored (made ++ toSend), made ++ toSend, [], []⟩ := by
  induction toSend generalizing made with
  | nil => simp [exec]
  | cons c rest ih =>
    have hrest := ih (made ++ [c])
    rw [List.append_assoc, List.singleton_append, stored_snoc] at hrest
    exact hrest

theorem recv_step {r : NotificationRow} (h : s.notifications.Oldest destinationID topic r) :
    step destinationID topic s (.recv r.messageUUID) = some { s with
      notifications := s.notifications.consume r.messageUUID
      received := s.received ++ [r.content] } := by
  have hfind : s.notifications.find? r.messageUUID = some r :=
    Table.find?_of_mem (List.mem_filter.1 h.1).1
  simp only [step, hfind, h, if_true]

theorem exists_exec_recvs (destinationID topic : String) (all : List SendCall)
    {front rest : List NotificationRow}
    (hU : s.notifications.unconsumed destinationID topic = front ++ rest)
    (hsorted : (front ++ rest).Pairwise (·.createdAt ≤ ·.createdAt)) :
    ∃ s', exec (system destinationID topic all) s (front.map fun r => .recv r.messageUUID) = some s' ∧
      s'.received = s.received ++ front.map (·.content) ∧
      s'.notifications.unconsumed destinationID topic = rest := by
  induction front generalizing s with
  | nil => exact ⟨s, rfl, by simp, hU⟩
  | cons r front ih =>
    have hnodup : ((s.notifications.unconsumed destinationID topic).map (·.messageUUID)).Nodup :=
      s.notifications.nodup.sublist (List.filter_sublist.map _)
    have hold : s.notifications.Oldest destinationID topic r := by
      refine ⟨by simp [hU], fun r' hr' => ?_⟩
      rw [hU] at hr'
      rcases List.mem_cons.1 hr' with rfl | hr'
      · exact Int.le_refl _
      · exact (List.pairwise_cons.1 hsorted).1 r' hr'
    have hleft : (s.notifications.consume r.messageUUID).unconsumed destinationID topic =
        front ++ rest := by
      rw [hU, List.cons_append, List.map_cons, List.nodup_cons] at hnodup
      rw [unconsumed_consume, hU, List.cons_append, List.filter_cons_of_neg (by simp)]
      refine List.filter_eq_self.2 fun x hx => decide_eq_true fun heq => ?_
      exact hnodup.1 (heq ▸ List.mem_map_of_mem hx)
    obtain ⟨s', hexec, hreceived, hrest⟩ := ih (s := { s with
      notifications := s.notifications.consume r.messageUUID
      received := s.received ++ [r.content] }) hleft (List.pairwise_cons.1 hsorted).2
    refine ⟨s', ?_, by simp [hreceived], hrest⟩
    rw [List.map_cons, exec]
    exact (congrArg (Option.bind · _) (recv_step hold)).trans hexec

/-- Two messages sent in the same millisecond can be received in either order. -/
theorem exists_received_of_tie (hto : ∀ c ∈ sends, c.row.addressed destinationID topic = true)
    (hclock : sends.Pairwise (·.now ≤ ·.now)) {front back : List NotificationRow}
    {a b : NotificationRow} (hstored : (stored sends).rows = front ++ a :: back) (hb : b ∈ back)
    (htie : a.createdAt = b.createdAt) :
    ∃ s, Reaches (system destinationID topic sends) (fun _ _ => True) s ∧
      s.received = front.map (·.content) ++ [b.content] := by
  have hsorted := sorted_stored hclock
  rw [hstored] at hsorted
  have hU : (stored sends).unconsumed destinationID topic = front ++ a :: back := by
    rw [← hstored]
    refine List.filter_eq_self.2 fun r hr => ?_
    obtain ⟨c, hc, rfl⟩ := List.mem_map.1 ((stored_sublist sends).subset hr)
    rw [hto c hc]
    rfl
  obtain ⟨s, hexec, hreceived, hrest⟩ := exists_exec_recvs destinationID topic
    (s := ⟨stored sends, sends, [], []⟩) sends hU hsorted
  have hold : s.notifications.Oldest destinationID topic b := by
    refine ⟨by rw [hrest]; exact List.mem_cons_of_mem _ hb, fun r hr => ?_⟩
    rw [hrest] at hr
    have hback := (List.pairwise_append.1 hsorted).2.1
    rcases List.mem_cons.1 hr with rfl | hr
    · exact Int.le_of_eq htie.symm
    · exact htie ▸ (List.pairwise_cons.1 hback).1 r hr
  have hsends := exec_sends destinationID topic sends [] sends
  have hall := (exec_append hsends).trans hexec
  have hrecv : (system destinationID topic sends).step s (.recv b.messageUUID) = some _ :=
    recv_step hold
  refine ⟨_, ⟨start sends, _, init_start sends, .snoc (run_exec hall) hrecv, fun _ _ => trivial⟩, ?_⟩
  simp [hreceived]

/-- **The order of messages.** The messages that `Recv` returns are always the first of those sent, in
order, precisely if messages sent in the same millisecond have the same contents. -/
theorem received_in_order_iff (hto : ∀ c ∈ sends, c.row.addressed destinationID topic = true)
    (hclock : sends.Pairwise (·.now ≤ ·.now)) :
    (∀ s, Reaches (system destinationID topic sends) (fun _ _ => True) s →
      s.received <+: contents sends) ↔ TiesAgree sends := by
  refine ⟨fun h => ?_, fun hties s hs => received_isPrefix hto hclock hties hs⟩
  -- a tie of which the later message is received first
  have hlater : ∀ front a back b, (stored sends).rows = front ++ a :: back → b ∈ back →
      a.createdAt = b.createdAt → a.content = b.content := by
    intro front a back b hstored hb htie
    obtain ⟨s, hs, hreceived⟩ := exists_received_of_tie hto hclock hstored hb htie
    have hprefix := h s hs
    rw [hreceived, contents, hstored, List.map_append, List.map_cons, List.prefix_append_right_inj,
      List.cons_prefix_cons] at hprefix
    exact hprefix.1.symm
  intro a ha b hb htie
  obtain ⟨front, back, hstored⟩ := List.append_of_mem ha
  rw [hstored, List.mem_append, List.mem_cons] at hb
  rcases hb with hb | rfl | hb
  · obtain ⟨front, middle, rfl⟩ := List.append_of_mem hb
    exact (hlater front b (middle ++ a :: back) a (by simp [hstored]) (by simp) htie.symm).symm
  · rfl
  · exact hlater front a back b hstored hb htie

end Exact

/-! ### Two messages in a millisecond -/

section Tie

/-- A `Send` to the workflow `r` under the topic `t`. -/
def sendAt (fresh message : String) (now : Int) : SendCall :=
  ⟨{ destinationID := "r", topic := "t", message := some message }, fresh, now⟩

/-- The second of two messages of the same millisecond is received first. -/
theorem received_out_of_order :
    ∃ s, Reaches (system "r" "t" [sendAt "u" "first" 1, sendAt "v" "second" 1]) (fun _ _ => True) s ∧
      s.received = [(some "second", "")] ∧
      contents [sendAt "u" "first" 1, sendAt "v" "second" 1] = [(some "first", ""), (some "second", "")] := by
  obtain ⟨s, hs, hreceived⟩ := exists_reaches
    (S := system "r" "t" [sendAt "u" "first" 1, sendAt "v" "second" 1]) (fun _ _ => True)
    [.send, .send, .recv "v"] (fun s => s.received = [(some "second", "")]) (init_start _)
    (fun _ _ => trivial) (by decide +kernel)
  exact ⟨s, hs, by simpa using hreceived, by decide +kernel⟩

theorem received_in_order_iff_distinct :
    ∃ s, Reaches (system "r" "t" [sendAt "u" "first" 1, sendAt "v" "second" 2]) (fun _ _ => True) s ∧
      s.received ≠ [] ∧ s.received <+: contents [sendAt "u" "first" 1, sendAt "v" "second" 2] := by
  obtain ⟨s, hs, hreceived⟩ := exists_reaches
    (S := system "r" "t" [sendAt "u" "first" 1, sendAt "v" "second" 2]) (fun _ _ => True)
    [.send, .send, .recv "u"] (fun s => s.received ≠ []) (init_start _)
    (fun _ _ => trivial) (by decide +kernel)
  have hprefix := (received_in_order_iff (by decide +kernel) (by decide +kernel)).2
    (by decide +kernel) s hs
  exact ⟨s, hs, by simpa using hreceived, hprefix⟩

end Tie

end Dbos.MessageOrder
