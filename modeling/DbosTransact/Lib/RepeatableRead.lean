import DbosTransact.Lib.Table

/-!
# Transactions under REPEATABLE READ

All reads of a transaction use the table as it was at its first statement, its snapshot. A row which another
transaction has changed since then can be neither locked nor updated. To tell whether a row has changed, also
one that has been changed back, what is committed carries for every key the number of its changes.
-/

namespace RepeatableRead

open Relational

variable {ρ κ : Type*} {key : ρ → κ}

structure Versioned (key : ρ → κ) where
  table : Table key
  version : κ → ℕ

namespace Versioned

variable [DecidableEq κ]

/-- `v` is reached from `s` by commits. -/
structure Follows (s v : Versioned key) : Prop where
  version_le : ∀ k, s.version k ≤ v.version k
  find? : ∀ k, v.version k = s.version k → v.table.find? k = s.table.find? k

theorem Follows.refl (v : Versioned key) : Follows v v := ⟨fun _ => Nat.le_refl _, fun _ _ => rfl⟩

variable [DecidableEq ρ]

def commit (v : Versioned key) (t : Table key) : Versioned key where
  table := t
  version k := if t.find? k = v.table.find? k then v.version k else v.version k + 1

/-- The keys in `ks` whose rows are the ones of the snapshot `s`. -/
def unchanged (s v : Versioned key) (ks : List κ) : Bool := ks.all fun k => v.version k = s.version k

theorem le_version_commit (v : Versioned key) (t : Table key) (k : κ) :
    v.version k ≤ (v.commit t).version k := by
  unfold commit
  dsimp only
  split_ifs
  · exact Nat.le_refl _
  · exact Nat.le_succ _

theorem version_commit_of_eq {v : Versioned key} {t : Table key} {k : κ}
    (h : t.find? k = v.table.find? k) : (v.commit t).version k = v.version k :=
  if_pos h

theorem Follows.commit {s v : Versioned key} (h : Follows s v) (t : Table key) :
    Follows s (v.commit t) where
  version_le k := Nat.le_trans (h.version_le k) (v.le_version_commit t k)
  find? k hk := by
    by_cases ht : t.find? k = v.table.find? k
    · rw [version_commit_of_eq ht] at hk
      exact ht.trans (h.find? k hk)
    · have hlt : (v.commit t).version k = v.version k + 1 := if_neg ht
      have := h.version_le k
      omega

end Versioned

end RepeatableRead
