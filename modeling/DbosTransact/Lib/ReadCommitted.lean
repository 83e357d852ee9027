import Mathlib.Data.List.Basic
import Mathlib.Tactic.Common

/-!
# Transactions under READ COMMITTED

A statement sees what is committed when it starts, together with the writes of its own transaction. A write
is kept as data: the rows it changes are fixed when the statement selects them, so the writes of an open
transaction can be replayed over what is committed at any later moment (`view`). A row written by an open
transaction is locked (`Free` says that no other transaction holds a lock on the given rows).
-/

namespace ReadCommitted

/-- The effect of a write on a database, and the rows that it locks. -/
structure Schema (δ ω κ : Type*) where
  apply : ω → δ → δ
  rows : ω → List κ

/-- The committed database with the writes of the open transactions, oldest first. -/
structure Store (δ τ ω : Type*) where
  committed : δ
  pending : List (τ × ω)

variable {δ τ ω κ : Type*} [DecidableEq τ]

namespace Store

/-- The uncommitted writes of the transaction `t`. -/
def own (s : Store δ τ ω) (t : τ) : List ω := (s.pending.filter fun p => p.1 = t).map Prod.snd

/-- What a statement of the transaction `t` sees. -/
def view (S : Schema δ ω κ) (s : Store δ τ ω) (t : τ) : δ :=
  (s.own t).foldl (fun d w => S.apply w d) s.committed

/-- No transaction other than `t` holds a lock on one of the rows `ks`. -/
def Free (S : Schema δ ω κ) (s : Store δ τ ω) (t : τ) (ks : List κ) : Prop :=
  ∀ p ∈ s.pending, p.1 ≠ t → ∀ k ∈ ks, k ∉ S.rows p.2

instance (S : Schema δ ω κ) (s : Store δ τ ω) (t : τ) (ks : List κ) [DecidableEq κ] :
    Decidable (s.Free S t ks) :=
  inferInstanceAs (Decidable (∀ _ ∈ s.pending, _))

def write (s : Store δ τ ω) (t : τ) (w : ω) : Store δ τ ω :=
  { s with pending := s.pending ++ [(t, w)] }

def commit (S : Schema δ ω κ) (s : Store δ τ ω) (t : τ) : Store δ τ ω where
  committed := s.view S t
  pending := s.pending.filter fun p => p.1 ≠ t

def rollback (s : Store δ τ ω) (t : τ) : Store δ τ ω :=
  { s with pending := s.pending.filter fun p => p.1 ≠ t }

/-- A statement outside a transaction: the write is committed at once. -/
def autocommit (S : Schema δ ω κ) (s : Store δ τ ω) (w : ω) : Store δ τ ω :=
  { s with committed := S.apply w s.committed }

variable (S : Schema δ ω κ) (s : Store δ τ ω)

@[simp] theorem committed_commit (t : τ) : (s.commit S t).committed = s.view S t := rfl

@[simp] theorem own_write_self (t : τ) (w : ω) : (s.write t w).own t = s.own t ++ [w] := by
  simp [own, write]

theorem own_write_of_ne {t u : τ} (w : ω) (h : u ≠ t) : (s.write u w).own t = s.own t := by
  simp [own, write, h]

@[simp] theorem own_commit_self (t : τ) : (s.commit S t).own t = [] := by
  simp [own, commit]

theorem own_filter_of_ne {t u : τ} (h : u ≠ t) :
    ((s.pending.filter fun p => p.1 ≠ u).filter fun p => p.1 = t) =
      s.pending.filter fun p => p.1 = t := by
  rw [List.filter_filter]
  apply List.filter_congr
  intro p _
  by_cases hp : p.1 = t
  · simp [hp, h.symm]
  · simp [hp]

theorem own_commit_of_ne {t u : τ} (h : u ≠ t) : (s.commit S u).own t = s.own t := by
  unfold own commit
  rw [own_filter_of_ne s h]

@[simp] theorem own_rollback_self (t : τ) : (s.rollback t).own t = [] := by
  simp [own, rollback]

theorem own_rollback_of_ne {t u : τ} (h : u ≠ t) : (s.rollback u).own t = s.own t := by
  unfold own rollback
  rw [own_filter_of_ne s h]

/-- What every write of a transaction keeps holds in its view if it holds of what is committed. -/
theorem view_induction {S : Schema δ ω κ} {s : Store δ τ ω} {t : τ} {P : δ → Prop}
    (hw : ∀ w ∈ s.own t, ∀ d, P d → P (S.apply w d)) (h : P s.committed) : P (s.view S t) := by
  unfold view
  generalize s.own t = ws at hw
  generalize s.committed = d at h
  induction ws generalizing d with
  | nil => exact h
  | cons w ws ih =>
    exact ih (fun w' hw' => hw w' (List.mem_cons_of_mem _ hw')) _ (hw w List.mem_cons_self d h)

/-- What one write of a transaction establishes and every write keeps holds in its view. -/
theorem view_of_mem_own {S : Schema δ ω κ} {s : Store δ τ ω} {t : τ} {P : δ → Prop} {w : ω}
    (hw : w ∈ s.own t) (hset : ∀ d, P (S.apply w d)) (hkeep : ∀ w d, P d → P (S.apply w d)) :
    P (s.view S t) := by
  unfold view
  obtain ⟨before, after, h⟩ := List.append_of_mem hw
  rw [h, List.foldl_append, List.foldl_cons]
  generalize before.foldl (fun d w => S.apply w d) s.committed = d
  have hP := hset d
  generalize S.apply w d = d at hP
  clear h
  induction after generalizing d with
  | nil => exact hP
  | cons w' after ih => exact ih _ (hkeep w' d hP)

theorem Free.not_mem_rows {S : Schema δ ω κ} {s : Store δ τ ω} {t u : τ} {ks : List κ} {k : κ} {w : ω}
    (h : s.Free S t ks) (hne : u ≠ t) (hw : w ∈ s.own u) (hk : k ∈ ks) : k ∉ S.rows w := by
  obtain ⟨p, hp, rfl⟩ := List.mem_map.1 hw
  obtain ⟨hp, hu⟩ := List.mem_filter.1 hp
  have hu : p.1 = u := by simpa using hu
  exact h p hp (hu ▸ hne) k hk

end Store

end ReadCommitted
