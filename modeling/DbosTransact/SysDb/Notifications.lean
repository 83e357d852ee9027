import DbosTransact.SysDb.Waiters

/-!
# Consuming messages

The subquery of `ConsumeMessageWithUUID` takes one of the oldest unconsumed messages, and the `UPDATE` marks
the message with that identifier, without asking again whether it is unconsumed.
-/

namespace Dbos

open Relational

/-- The table `notifications`. -/
abbrev NotificationTable := Table NotificationRow.messageUUID

namespace NotificationRow

def addressed (destinationID topic : String) (r : NotificationRow) : Bool :=
  r.destinationID = destinationID && r.topic = topic

theorem destinationID_of_addressed {destinationID topic : String} {r : NotificationRow}
    (h : r.addressed destinationID topic = true) : r.destinationID = destinationID := by
  simp only [addressed, Bool.and_eq_true, decide_eq_true_eq] at h
  exact h.1

/-- `SET consumed = true`. -/
def consume (r : NotificationRow) : NotificationRow := { r with consumed := true }

theorem messageUUID_consume : ∀ r : NotificationRow, r.consume.messageUUID = r.messageUUID :=
  fun _ => rfl

/-- What `Recv` returns of a message: the encoded message and its serialization. -/
def content (r : NotificationRow) : Option String × String := (r.message, r.serialization)

end NotificationRow

namespace NotificationTable

/-- The messages that the subquery of `ConsumeMessageWithUUID` orders. -/
def unconsumed (t : NotificationTable) (destinationID topic : String) : List NotificationRow :=
  t.rows.filter fun r => r.addressed destinationID topic && !r.consumed

/-- `oldest_entry`: the row is one that the subquery may take. -/
def Oldest (t : NotificationTable) (destinationID topic : String) (r : NotificationRow) : Prop :=
  r ∈ t.unconsumed destinationID topic ∧
    ∀ r' ∈ t.unconsumed destinationID topic, r.createdAt ≤ r'.createdAt

instance (t : NotificationTable) (destinationID topic : String) (r : NotificationRow) :
    Decidable (t.Oldest destinationID topic r) :=
  inferInstanceAs (Decidable (_ ∧ _))

/-- The `UPDATE` of `ConsumeMessageWithUUID`. -/
def consume (t : NotificationTable) (messageUUID : String) : NotificationTable :=
  t.update (·.messageUUID = messageUUID) (·.consume) NotificationRow.messageUUID_consume

theorem mem_consume {t : NotificationTable} {messageUUID : String} {x : NotificationRow} :
    x ∈ (t.consume messageUUID).rows ↔
      ∃ r ∈ t.rows, (if r.messageUUID = messageUUID then r.consume else r) = x := by
  simp [consume, Table.mem_update]

end NotificationTable

end Dbos
